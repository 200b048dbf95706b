import EssNode.Ghost.Policy
import EssNode.Lib.Tasks

/-!
# The Ghost Runtime

The ghost runtime is called by its scheduler and from elsewhere, and each call runs beside the
others. What they share, each part of it under a lock, are the world state, the policy, the
state of the scheduler and the sink that takes orders about peers. The engine is told what to do
by commands; those that follow from a decision are sent by tasks of their own.

A step of a task is what is done under one lock. The loop over the registry holds the world
state for reading, and makes its decisions on the registry as it was.

Locks are never poisoned: nothing panics while holding one. The tick of the scheduler can panic,
when it divides by a number of ticks that is zero, and ends there. The scheduler's interval and
whether there is one only say when ticks come. What the sink does is not part of the runtime;
the orders it gets are kept as a list. Every time the world state is written to, the clock is
read; it shows what `clock` says.
-/

namespace EssNode

namespace GhostRuntime

open Ghost (GhostCommand)
open Tasks

/-! ### What is shared -/

/-- The world state, with the state and the health that are published of the ghost, the last
    signal in its log, and what the clock shows. -/
structure GhostWorld where
  world : WorldState
  ghostState : String
  healthLevel : String
  lastSignal : Option String
  clock : UInt64

namespace GhostWorld

variable (self : GhostWorld)

def bump : GhostWorld := { self with world := self.world.bump self.clock }

def setGhostState (state : String) : GhostWorld := { self with ghostState := state }.bump

def setHealthLevel (level : String) : GhostWorld := { self with healthLevel := level }.bump

def observeSignal (signal : String) : GhostWorld := { self with lastSignal := some signal }.bump

def updatePeers (c k r t : Nat) : GhostWorld :=
  { self with world := { self.world with ghost := ⟨c, k, r, t⟩ } }.bump

def syncGhostFromRegistry : GhostWorld := { self with world := self.world.syncGhostFromRegistry }

end GhostWorld

structure GhostRuntimeConfig where
  policy : GhostPolicy := {}
  syncEveryTicks : UInt64 := 6
  sleepAfterIdleTicks : UInt64 := 6
  wakeOnActivity : Bool := true
deriving DecidableEq, Repr

structure GhostSchedulerState where
  tickCount : UInt64 := 0
  idleTicks : UInt64 := 0
  lastEvent : Option String := none
  lastAssessment : Option GhostHealthAssessment := none
deriving DecidableEq, Repr

/-- Count a tick, up to the largest word, and the ticks without peers. -/
def GhostSchedulerState.count (self : GhostSchedulerState) (connectedPeers : Nat) :
    GhostSchedulerState :=
  { self with
    tickCount := if self.tickCount + 1 = 0 then self.tickCount else self.tickCount + 1
    idleTicks := if connectedPeers = 0 then self.idleTicks + 1 else 0 }

/-- An order to the sink. -/
inductive SinkCall where
  | dropPeer (peerId : String)
  | limitPeer (peerId : String)
  | quarantinePeer (peerId : String)
  | rerouteTraffic (peerId : String) (altNodes : List String)
  | adjustReputationScore (peerId : String) (delta : ℚ)
deriving DecidableEq, Repr

/-- What the calls share. -/
structure RuntimeState where
  shared : GhostWorld
  policy : GhostPolicy
  sinkAttached : Bool
  sinkCalls : List SinkCall
  scheduler : GhostSchedulerState

def RuntimeState.publish (s : RuntimeState) (text : String) : RuntimeState :=
  { s with shared := s.shared.setGhostState text }

/-- The part of the handle that does not change. -/
structure GhostRuntimeHandle where
  nodeId : String
  role : String
  config : GhostRuntimeConfig

/-! ### The tasks -/

abbrev Runtime := Task GhostCommand RuntimeState

def state : Runtime RuntimeState := .atomic id .done

def modify (f : RuntimeState → RuntimeState) : Runtime Unit := .atomic f fun _ => .done ()

def spawn (commands : List GhostCommand) : Runtime Unit := .spawn commands (.done ())

def send (command : GhostCommand) : Runtime Unit := .send command (.done ())

def onlyIf (c : Prop) [Decidable c] (task : Runtime Unit) : Runtime Unit :=
  if c then task else pure ()

def setWorldState (text : String) : Runtime Unit := modify (·.publish text)

def callSink (attached : Bool) (call : SinkCall) : Runtime Unit :=
  onlyIf attached (modify fun s => { s with sinkCalls := s.sinkCalls ++ [call] })

def setActionSink : Runtime Unit := modify fun s => { s with sinkAttached := true }

def applyDecision (decision : GhostDecision) : Runtime Unit :=
  if decision = .noop then pure ()
  else do
    let attached := (← state).sinkAttached
    match decision with
    | .wake =>
      setWorldState "waking"
      spawn [.wake]
    | .sleep =>
      setWorldState "sleeping"
      spawn [.sleep]
    | .beacon => spawn [.triggerBeacon]
    | .sync => spawn [.triggerSync]
    | .panic =>
      setWorldState "panic"
      spawn [.triggerPanic "autonomous_panic"]
    -- The engine is not told.
    | .degrade => setWorldState "degraded"
    | .dropPeer peerId => callSink attached (.dropPeer peerId)
    | .throttle peerId => callSink attached (.limitPeer peerId)
    | .isolatePeer peerId => callSink attached (.quarantinePeer peerId)
    | .retry peerId => spawn [.enqueueSync ("retry:" ++ peerId)]
    | .reroute peerId =>
      callSink attached (.rerouteTraffic peerId [])
      spawn [.enqueueSync ("reroute:" ++ peerId), .triggerBeacon]
    | .adjustReputation peerId delta => callSink attached (.adjustReputationScore peerId delta)
    | .noop => pure ()

/-- Apply decisions one after the other. -/
def applyAll : List GhostDecision → Runtime Unit
  | [] => pure ()
  | decision :: decisions => do
      onlyIf (decision ≠ .noop) (applyDecision decision)
      applyAll decisions

/-- The peers whose reputation is looked at, and the scores that are. The order in which the
    registry is gone through is no particular one. -/
def evaluated (world : WorldState) : List (String × ℚ) :=
  world.peerRegistry.toList.map fun entry => (entry.1, entry.2.reputation.score)

/-- What the policy decides on them. -/
def reputationDecisions (policy : GhostPolicy) (world : WorldState) : List GhostDecision :=
  (evaluated world).map fun peer => policy.evaluateReputation peer.1 peer.2

def observeSignal (signal : String) : Runtime Unit := send (.observeSignal signal)

def setTamper (tamper : Bool) : Runtime Unit := send (.setTamper tamper)

def triggerSync : Runtime Unit := applyDecision .sync

def triggerBeacon : Runtime Unit := applyDecision .beacon

def sleep : Runtime Unit := applyDecision .sleep

def wake : Runtime Unit := applyDecision .wake

def zeroize : Runtime Unit := do
  setWorldState "zeroized"
  send .zeroize

def health (snapshot : GhostHealthSnapshot) : Runtime Unit :=
  observeSignal ("health_check:peers=" ++ toString snapshot.connectedPeers)

def updateMetrics (c k r : Nat) : Runtime Unit := do
  modify fun s =>
    { s with shared := (s.shared.updatePeers c k r r).syncGhostFromRegistry }
  send (.updateMetrics c k r)

protected def GhostRuntimeHandle.decide : Runtime GhostDecision := do
  let assessment := (← state).scheduler.lastAssessment
  let policy := (← state).policy
  match assessment with
  | some assessment => return GhostRuntime.decide policy .idle assessment
  | none => return .noop

def GhostRuntimeHandle.act : Runtime Unit := do
  let decision ← GhostRuntimeHandle.decide
  applyDecision decision
  setWorldState "ready"

def countTick (connectedPeers : Nat) : Runtime GhostSchedulerState :=
  .atomic (fun s => { s with scheduler := s.scheduler.count connectedPeers })
    fun s => .done (s.scheduler.count connectedPeers)

namespace GhostRuntimeHandle

variable (self : GhostRuntimeHandle)

/-- The node as the world state shows it. What is not seen there is taken to be in order. -/
def realSnapshot (s : GhostWorld) : GhostHealthSnapshot :=
  let counts := s.world.peerCountsFromRegistry
  { nodeId := self.nodeId
    role := self.role
    connectedPeers := counts.connectedCount
    knownPeers := counts.knownCount
    routePeers := counts.routeCount
    trustedPeers := counts.trustedCount
    bootstrapOk := Decidable.decide (0 < counts.trustedCount)
    gatewayOk := true
    webOk := true
    configOk := true
    tamperDetected := false
    lastFailureReason := s.lastSignal }

def buildRealSnapshot : Runtime GhostHealthSnapshot := do
  return self.realSnapshot (← state).shared

def publishEvent (event : PublishedEvent) : Runtime Unit := do
  let decision := (← state).policy.evaluateEvent event.kind
  onlyIf (decision ≠ .noop) (applyDecision decision)
  onlyIf (self.config.wakeOnActivity ∧ event.kind = .peerConnected) (applyDecision .wake)
  observeSignal event.debug

def assess : Runtime Unit := do
  setWorldState "assessing"
  let snapshot ← self.buildRealSnapshot
  let s ← state
  applyAll (reputationDecisions s.policy s.shared.world)
  let assessment := GhostRuntime.assess snapshot .idle
  observeSignal ("ghost:assess:" ++ assessment.reason)
  modify fun s =>
    { s with
      scheduler :=
        { s.scheduler with
          lastEvent := some assessment.reason
          lastAssessment := some assessment } }

/-- What a tick does once it is counted. -/
def afterCount (snapshot : GhostHealthSnapshot) (counted : GhostSchedulerState) :
    Runtime Unit := do
  onlyIf (counted.tickCount % self.config.syncEveryTicks = 0) triggerSync
  onlyIf (self.config.sleepAfterIdleTicks ≤ counted.idleTicks ∧ snapshot.connectedPeers = 0)
    (applyDecision .sleep)
  let policy := (← state).policy
  applyDecision (policy.evaluateLoad snapshot.connectedPeers)
  let decision ← GhostRuntimeHandle.decide
  applyDecision decision
  self.assess
  act
  updateMetrics snapshot.connectedPeers snapshot.knownPeers snapshot.routePeers

def schedulerTick : Runtime Unit := do
  let snapshot ← self.buildRealSnapshot
  let counted ← countTick snapshot.connectedPeers
  -- A remainder by zero panics, and the tick ends here.
  onlyIf (self.config.syncEveryTicks ≠ 0) (self.afterCount snapshot counted)

def policyUpdate (policy : GhostPolicy) : Runtime Unit := do
  modify fun s => { s with policy := policy }
  self.assess

end GhostRuntimeHandle

/-- What the runtime can be called for. -/
inductive RuntimeCall where
  | setActionSink
  | applyDecision (decision : GhostDecision)
  | publishEvent (event : PublishedEvent)
  | assess
  | act
  | tick
  | health (snapshot : GhostHealthSnapshot)
  | updateMetrics (c k r : Nat)
  | observeSignal (signal : String)
  | setTamper (tamper : Bool)
  | triggerSync
  | triggerBeacon
  | zeroize
  | sleep
  | wake
  | policyUpdate (policy : GhostPolicy)
deriving DecidableEq

/-- What a call does. -/
def GhostRuntimeHandle.program (self : GhostRuntimeHandle) : RuntimeCall → Runtime Unit
  | .setActionSink => setActionSink
  | .applyDecision decision => applyDecision decision
  | .publishEvent event => self.publishEvent event
  | .assess => self.assess
  | .act => GhostRuntimeHandle.act
  | .tick => self.schedulerTick
  | .health snapshot => health snapshot
  | .updateMetrics c k r => updateMetrics c k r
  | .observeSignal signal => observeSignal signal
  | .setTamper tamper => setTamper tamper
  | .triggerSync => triggerSync
  | .triggerBeacon => triggerBeacon
  | .zeroize => zeroize
  | .sleep => sleep
  | .wake => wake
  | .policyUpdate policy => self.policyUpdate policy

/-- Whether a call publishes nothing but that the node is zeroized. -/
def RuntimeCall.quiet (config : GhostRuntimeConfig) : RuntimeCall → Bool
  | .assess | .act | .sleep | .wake | .policyUpdate _ => false
  | .tick => Decidable.decide (config.syncEveryTicks = 0)
  | .applyDecision decision => !decision.publishes
  | .publishEvent event =>
    !(config.wakeOnActivity && Decidable.decide (event.kind = .peerConnected))
  | _ => true

/-! ### What the calls keep -/

/-- What a step changes that publishes nothing: the published state stays as it is, and so does
    the last assessment, unless it becomes that of a node in order. -/
structure Framed (s s' : RuntimeState) : Prop where
  ghostState : s'.shared.ghostState = s.shared.ghostState
  lastAssessment : s'.scheduler.lastAssessment = s.scheduler.lastAssessment ∨
    ∃ snapshot : GhostHealthSnapshot, snapshot.InOrder ∧
      s'.scheduler.lastAssessment = some (assess snapshot .idle)

variable (decision : GhostDecision) (self : GhostRuntimeHandle)

theorem realSnapshot_inOrder (world : GhostWorld) :
    (self.realSnapshot world).InOrder := ⟨rfl, rfl, rfl⟩

section Keeps

variable {P : RuntimeState → Prop}

theorem keeps_state : state.Keeps P := ⟨fun _ h => h, fun _ => trivial⟩

theorem keeps_onlyIf {c : Prop} [Decidable c] {task : Runtime Unit} (h : c → task.Keeps P) :
    (onlyIf c task).Keeps P := by
  unfold onlyIf
  split
  · exact h ‹_›
  · exact .pure ()

theorem keeps_setWorldState {text : String} (h : ∀ s, P s → P (s.publish text)) :
    (setWorldState text).Keeps P := ⟨h, fun _ => trivial⟩

theorem keeps_buildRealSnapshot {β : Type} (self : GhostRuntimeHandle)
    {k : GhostHealthSnapshot → Runtime β} (h : ∀ world, (k (self.realSnapshot world)).Keeps P) :
    (self.buildRealSnapshot >>= k).Keeps P := ⟨fun _ hs => hs, fun s => h s.shared⟩

theorem keeps_decide : GhostRuntimeHandle.decide.Keeps P := by
  refine .bind keeps_state fun s => .bind keeps_state fun s' => ?_
  cases s.scheduler.lastAssessment with
  | none => exact .pure _
  | some assessment => exact .pure _

variable (hP : ∀ s s', Framed s s' → P s → P s')

include hP

theorem keeps_modify {f : RuntimeState → RuntimeState} (hf : ∀ s, Framed s (f s)) :
    (modify f).Keeps P := ⟨fun s => hP s (f s) (hf s), fun _ => trivial⟩

theorem keeps_callSink (attached : Bool) (call : SinkCall) : (callSink attached call).Keeps P :=
  keeps_onlyIf fun _ => keeps_modify hP fun _ => ⟨rfl, Or.inl rfl⟩

theorem keeps_applyDecision (decision : GhostDecision)
    (hpublish : decision.publishes = true → ∀ text s, P s → P (s.publish text)) :
    (applyDecision decision).Keeps P := by
  unfold applyDecision
  split
  · exact .pure ()
  · refine .bind keeps_state fun s => ?_
    cases decision with
    | noop => exact .pure ()
    | wake | sleep | panic =>
      exact .bind (keeps_setWorldState (hpublish rfl _)) fun _ => trivial
    | degrade => exact keeps_setWorldState (hpublish rfl _)
    | beacon | sync | retry => trivial
    | dropPeer | throttle | isolatePeer | adjustReputation => exact keeps_callSink hP _ _
    | reroute peerId => exact .bind (keeps_callSink hP _ _) fun _ => trivial

theorem keeps_applyAll {decisions : List GhostDecision}
    (h : ∀ decision ∈ decisions, decision.publishes = false) : (applyAll decisions).Keeps P := by
  induction decisions with
  | nil => exact .pure ()
  | cons decision decisions ih =>
    refine .bind (keeps_onlyIf fun _ => keeps_applyDecision hP decision fun hpublish => ?_)
      fun _ => ih fun other hother => h other (List.mem_cons_of_mem _ hother)
    rw [h decision List.mem_cons_self] at hpublish
    cases hpublish

section Publish

variable (hpublish : ∀ text s, P s → P (s.publish text)) (self : GhostRuntimeHandle)

include hpublish

theorem keeps_act : GhostRuntimeHandle.act.Keeps P :=
  .bind keeps_decide fun decision => .bind (keeps_applyDecision hP decision fun _ => hpublish)
    fun _ => keeps_setWorldState (hpublish _)

theorem keeps_assess : self.assess.Keeps P := by
  refine .bind (keeps_setWorldState (hpublish _)) fun _ =>
    keeps_buildRealSnapshot self fun world => .bind keeps_state fun s => ?_
  refine .bind (keeps_applyAll hP fun decision hdecision => ?_) fun _ =>
    .bind (by trivial) fun _ => keeps_modify hP fun s => ⟨rfl, Or.inr ⟨_, ?_, rfl⟩⟩
  · obtain ⟨peer, -, rfl⟩ := List.mem_map.mp hdecision
    exact publishes_evaluateReputation _ _ _
  · exact realSnapshot_inOrder self world

theorem keeps_afterCount (snapshot : GhostHealthSnapshot) (counted : GhostSchedulerState) :
    (self.afterCount snapshot counted).Keeps P := by
  have hdecision (decision : GhostDecision) : (applyDecision decision).Keeps P :=
    keeps_applyDecision hP decision fun _ => hpublish
  refine .bind (keeps_onlyIf fun _ => hdecision _) fun _ =>
    .bind (keeps_onlyIf fun _ => hdecision _) fun _ => .bind keeps_state fun s =>
      .bind (hdecision _) fun _ => .bind keeps_decide fun decision => .bind (hdecision _) fun _ =>
        .bind (keeps_assess hP hpublish self) fun _ => .bind (keeps_act hP hpublish) fun _ => ?_
  exact .bind (keeps_modify hP fun _ => ⟨rfl, Or.inl rfl⟩) fun _ => trivial

end Publish

/-- A call keeps what publishing keeps, and if it is quiet, what publishing that the node is
    zeroized keeps. -/
theorem keeps_program (self : GhostRuntimeHandle) (c : RuntimeCall)
    (hzeroized : ∀ s, P s → P (s.publish "zeroized"))
    (hpublish : c.quiet self.config = false → ∀ text s, P s → P (s.publish text)) :
    (self.program c).Keeps P := by
  cases c with
  | setActionSink => exact keeps_modify hP fun _ => ⟨rfl, Or.inl rfl⟩
  | applyDecision decision =>
    exact keeps_applyDecision hP decision fun h => hpublish (by simp [RuntimeCall.quiet, h])
  | publishEvent event =>
    refine .bind keeps_state fun s => .bind (keeps_onlyIf fun _ => ?_) fun _ =>
      .bind (keeps_onlyIf fun hwake => ?_) fun _ => trivial
    · refine keeps_applyDecision hP _ fun h => ?_
      rw [publishes_evaluateEvent] at h
      cases h
    · exact keeps_applyDecision hP _ fun _ => hpublish (by simp [RuntimeCall.quiet, hwake])
  | assess => exact keeps_assess hP (hpublish rfl) self
  | act => exact keeps_act hP (hpublish rfl)
  | tick =>
    refine keeps_buildRealSnapshot self fun world =>
      .bind ⟨fun s => hP _ _ ⟨rfl, Or.inl rfl⟩, fun _ => trivial⟩ fun counted =>
        keeps_onlyIf fun hticks => keeps_afterCount hP (hpublish ?_) self _ _
    simpa [RuntimeCall.quiet] using hticks
  | updateMetrics c k r =>
    exact .bind (keeps_modify hP fun _ => ⟨rfl, Or.inl rfl⟩) fun _ => trivial
  | health | observeSignal | setTamper => trivial
  | triggerSync => exact keeps_applyDecision hP .sync fun h => Bool.noConfusion h
  | triggerBeacon => exact keeps_applyDecision hP .beacon fun h => Bool.noConfusion h
  | zeroize => exact .bind (keeps_setWorldState hzeroized) fun _ => trivial
  | sleep => exact keeps_applyDecision hP .sleep fun _ => hpublish rfl
  | wake => exact keeps_applyDecision hP .wake fun _ => hpublish rfl
  | policyUpdate policy =>
    exact .bind (keeps_modify hP fun _ => ⟨rfl, Or.inl rfl⟩) fun _ =>
      keeps_assess hP (hpublish rfl) self

end Keeps

/-! ### What the other calls do -/

theorem prompt_state : state.Prompt := fun _ => rfl

theorem prompt_modify (f : RuntimeState → RuntimeState) : (modify f).Prompt := fun _ => rfl

theorem prompt_onlyIf {c : Prop} [Decidable c] {task : Runtime Unit} (h : task.Prompt) :
    (onlyIf c task).Prompt := by
  unfold onlyIf
  split
  · exact h
  · exact .pure ()

theorem prompt_applyDecision : (applyDecision decision).Prompt := by
  unfold applyDecision
  split
  · exact .pure ()
  · refine .bind prompt_state fun s => ?_
    cases decision with
    | noop => exact .pure ()
    | wake | sleep | panic => exact .bind (prompt_modify _) fun _ _ => rfl
    | degrade => exact prompt_modify _
    | beacon | sync | retry => exact fun _ => rfl
    | dropPeer | throttle | isolatePeer | adjustReputation =>
      exact prompt_onlyIf (prompt_modify _)
    | reroute peerId => exact .bind (prompt_onlyIf (prompt_modify _)) fun _ _ => rfl

theorem prompt_decide : GhostRuntimeHandle.decide.Prompt := by
  refine .bind prompt_state fun s => .bind prompt_state fun s' => ?_
  cases s.scheduler.lastAssessment with
  | none => exact .pure _
  | some assessment => exact .pure _

/-- It is published that the node is zeroized. -/
def Confirms (s : RuntimeState) : Prop := s.shared.ghostState = "zeroized"

/-- Something else is published. -/
def Denies (s : RuntimeState) : Prop := ¬ Confirms s

theorem reaches_setWorldState {text : String} (h : text ≠ "zeroized") :
    (setWorldState text).Reaches Denies :=
  fun s => ⟨s.publish text, List.mem_cons_of_mem _ (List.mem_singleton_self _), h⟩

theorem reaches_applyDecision (h : decision.publishes = true) :
    (applyDecision decision).Reaches Denies := by
  cases decision with
  | wake | sleep | panic =>
    exact .bind_right prompt_state fun s =>
      (reaches_setWorldState (by decide)).bind_left _
  | degrade => exact .bind_right prompt_state fun s => reaches_setWorldState (by decide)
  | noop | beacon | sync | dropPeer | throttle | isolatePeer | retry | reroute
  | adjustReputation => cases h

theorem reaches_assess : self.assess.Reaches Denies :=
  (reaches_setWorldState (by decide)).bind_left _

theorem reaches_afterCount (snapshot : GhostHealthSnapshot) (counted : GhostSchedulerState) :
    (self.afterCount snapshot counted).Reaches Denies :=
  -- Nothing before the assessment has to wait.
  .bind_right (prompt_onlyIf (prompt_applyDecision _)) fun _ =>
    .bind_right (prompt_onlyIf (prompt_applyDecision _)) fun _ =>
      .bind_right prompt_state fun _ => .bind_right (prompt_applyDecision _) fun _ =>
        .bind_right prompt_decide fun _ => .bind_right (prompt_applyDecision _) fun _ =>
          (reaches_assess self).bind_left _

/-- A call that is not quiet publishes something else at some point, before it has to wait. -/
theorem reaches_program {c : RuntimeCall} (h : c.quiet self.config = false) :
    (self.program c).Reaches Denies := by
  cases c with
  | applyDecision decision =>
    exact reaches_applyDecision decision (by simpa [RuntimeCall.quiet] using h)
  | publishEvent event =>
    have hwake : self.config.wakeOnActivity = true ∧ event.kind = .peerConnected := by
      simpa [RuntimeCall.quiet] using h
    refine .bind_right prompt_state fun s =>
      .bind_right (prompt_onlyIf (prompt_applyDecision _)) fun _ => ?_
    refine Task.Reaches.bind_left ?_ _
    rw [onlyIf, if_pos hwake]
    exact reaches_applyDecision .wake rfl
  | assess => exact reaches_assess self
  | act =>
    exact .bind_right prompt_decide fun _ => .bind_right (prompt_applyDecision _) fun _ =>
      reaches_setWorldState (by decide)
  | tick =>
    have hticks : self.config.syncEveryTicks ≠ 0 := by simpa [RuntimeCall.quiet] using h
    refine .bind_right (.bind prompt_state fun _ => .pure _) fun snapshot =>
      .bind_right (fun _ => rfl) fun counted => ?_
    rw [onlyIf, if_pos hticks]
    exact reaches_afterCount self snapshot counted
  | sleep => exact reaches_applyDecision .sleep rfl
  | wake => exact reaches_applyDecision .wake rfl
  | policyUpdate policy => exact .bind_right (prompt_modify _) fun _ => reaches_assess self
  | setActionSink | health | updateMetrics | observeSignal | setTamper | triggerSync
  | triggerBeacon | zeroize => cases h

end GhostRuntime

end EssNode
