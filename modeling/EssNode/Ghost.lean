import EssNode.Lib.Bincode

/-!
# The Ghost Engine

The part of a node that sleeps, wakes, sends beacons, hands out batches of items to
synchronise, and shuts itself off when it is tampered with.

The engine is a task of its own. It takes the ticks of two timers and the commands of
a channel one at a time; which comes next is not its choice, so a run is given by the
list of what it took. What it does is seen in the events it sends. The world state is
only written to, never read, so it is kept as the list of what was reported to it.

The two intervals of the configuration only say when the timers tick, and are left
out. Every reading of the clock may give another time: `clock` gives that of each
reading, in milliseconds, and the engine counts its readings.

The loop ends with the command to zeroize and when the channel is closed. It does not
end when a panic zeroizes the engine.
-/

namespace EssNode

namespace Ghost

open Bincode

/-- A number for a list of texts, in hexadecimal. -/
def simpleFingerprint (parts : List String) : String :=
  let mix (acc : BitVec 128) (b : UInt8) : BitVec 128 :=
    let acc := acc ^^^ BitVec.ofNat 128 b.toNat
    let acc := acc * 0x100000001B3
    acc ^^^ (acc >>> 33)
  (parts.foldl (fun acc part => (utf8 part).foldl mix acc) 0x9E3779B97F4A7C15).toHex

inductive GhostState where
  | init
  | sleep
  | wake
  | beacon
  | sync
  | idle
  | panic
  | zeroized
deriving DecidableEq, Repr

def GhostState.display : GhostState → String
  | init => "init"
  | sleep => "sleep"
  | wake => "wake"
  | beacon => "beacon"
  | sync => "sync"
  | idle => "idle"
  | panic => "panic"
  | zeroized => "zeroized"

structure GhostConfig where
  idleToSleepAfterCycles : Nat
  syncBatchLimit : Nat
  zeroizeOnPanic : Bool
  autoSleepWhenIdle : Bool
deriving DecidableEq, Repr

/-- The default, by the number of cycles that the environment gives, or ten. -/
def GhostConfig.default (minAwakeCycles : Option Nat) : GhostConfig where
  idleToSleepAfterCycles := minAwakeCycles.getD 10
  syncBatchLimit := 32
  zeroizeOnPanic := true
  autoSleepWhenIdle := true

structure GhostMetrics where
  connectedPeers : Nat := 0
  knownPeers : Nat := 0
  routePeers : Nat := 0
  lastBeaconTs : Option Nat := none
  lastSyncTs : Option Nat := none
  lastPulseTs : Option Nat := none
deriving DecidableEq, Repr

inductive GhostCommand where
  | wake
  | sleep
  | enqueueSync (item : String)
  | triggerSync
  | triggerBeacon
  | triggerPanic (reason : String)
  | zeroize
  | updateMetrics (connectedPeers knownPeers routePeers : Nat)
  | setTamper (tamper : Bool)
  | observeSignal (signal : String)
deriving DecidableEq, Repr

inductive GhostEvent where
  | stateChanged (nodeId : String) (source target : GhostState)
  | beacon (nodeId role : String) (state : GhostState) (fingerprint : String)
      (connectedPeers knownPeers routePeers ts : Nat)
  | syncBatch (nodeId : String) (batch : List String) (ts : Nat)
  | panic (nodeId reason : String) (ts : Nat)
  | zeroized (nodeId : String) (ts : Nat)
  | log (nodeId message : String) (ts : Nat)
deriving DecidableEq, Repr

structure GhostObservation where
  state : GhostState
  tamperDetected : Bool
  connectedPeers : Nat
  knownPeers : Nat
  routePeers : Nat
  pendingSync : Nat
  wakeCyclesLeft : Nat
  lastBeaconTs : Option Nat
  lastSyncTs : Option Nat
  lastPulseTs : Option Nat

inductive GhostHealthBand where
  | init
  | ready
  | active
  | degraded
  | critical
  | offline
deriving DecidableEq, Repr

structure GhostAssessment where
  health : GhostHealthBand
  reasons : List String

inductive GhostDecision where
  | beacon
  | sync (force : Bool)
  | panic (reason : String)
  | sleep
  | idle
deriving DecidableEq, Repr

def decisionName : GhostDecision → String
  | .beacon => "beacon"
  | .sync _ => "sync"
  | .panic _ => "panic"
  | .sleep => "sleep"
  | .idle => "idle"

/-- Why a cycle is run. -/
inductive CycleTrigger where
  | pulse
  | syncTick
  | wake
  | forceSync
  | forceBeacon
  | panic (reason : String)
  | manual
deriving DecidableEq, Repr

/-- What the engine writes to the world state at once. -/
structure GhostReport where
  ghostState : String
  healthLevel : String
  signal : Option String
deriving DecidableEq, Repr

/-- The engine: its fields, and of its task the events sent, the number of times the
    clock was read, and whether the loop has ended. -/
structure GhostEngine where
  nodeId : String
  role : String
  config : GhostConfig
  state : GhostState
  metrics : GhostMetrics
  pendingSync : List String
  wakeCyclesLeft : Nat
  tamperDetected : Bool
  worldState : Option (List GhostReport)
  sent : List GhostEvent
  readings : Nat
  stopped : Bool
deriving DecidableEq

/-- What the loop takes next: a tick of one of the two timers, a command, or the end
    of the channel. -/
inductive GhostInput where
  | beaconTick
  | syncTick
  | command (cmd : GhostCommand)
  | closed
deriving DecidableEq, Repr

/-- Move items to a batch as long as it has room. -/
def fillBatch (limit : Nat) : List String → List String → List String × List String
  | batch, [] => (batch, [])
  | batch, item :: rest =>
    if batch.length < limit then fillBatch limit (batch ++ [item]) rest
    else (batch, item :: rest)

theorem fillBatch_spec (limit : Nat) (batch pending : List String) (h : batch.length ≤ limit) :
    (fillBatch limit batch pending).1 ++ (fillBatch limit batch pending).2 = batch ++ pending
      ∧ (fillBatch limit batch pending).1.length ≤ limit := by
  induction pending generalizing batch with
  | nil => exact ⟨rfl, h⟩
  | cons item rest ih =>
    unfold fillBatch
    by_cases hroom : batch.length < limit
    · rw [if_pos hroom]
      obtain ⟨happend, hlen⟩ := ih (batch ++ [item]) (by simp; omega)
      exact ⟨by rw [happend, List.append_assoc, List.singleton_append], hlen⟩
    · rw [if_neg hroom]
      exact ⟨rfl, h⟩

namespace GhostEngine

variable (clock : Nat → Nat) (self : GhostEngine)

/-! ### What the engine tells others -/

def unixTs : Nat := clock self.readings / 1000

def send (event : GhostEvent) : GhostEngine := { self with sent := self.sent ++ [event] }

def sendAt (event : Nat → GhostEvent) : GhostEngine :=
  { self.send (event (self.unixTs clock)) with readings := self.readings + 1 }

def healthLabel : String :=
  match self.state with
  | .zeroized => "offline"
  | .panic | .wake | .beacon | .sync => "active"
  | .sleep => "sleeping"
  | _ => "ready"

def syncWorldState (signal : Option String) : GhostEngine :=
  { self with
    worldState := self.worldState.map fun reports =>
      reports ++ [⟨self.state.display, self.healthLabel, signal⟩] }

/-- Log a message, and pass it on to the world state unless it is one of three kinds. -/
def publish (message : String) : GhostEngine :=
  let self := self.sendAt clock (.log self.nodeId message)
  let startsWith (start : String) : Bool := start.toList.isPrefixOf message.toList
  if startsWith "ghost_stay_awake_with_peers" || startsWith "ghost_observe:"
      || startsWith "ghost_metrics_update" then self
  else self.syncWorldState (some message)

/-! ### What the engine does -/

/-- Change the state. It is not left once zeroized, nor for a beacon when in panic. -/
def transition (target : GhostState) : GhostEngine :=
  if self.state = .zeroized then self
  else if self.state = .panic ∧ target = .beacon then self
  else if self.state ≠ target then
    { self with state := target }.send (.stateChanged self.nodeId self.state target)
  else self

def performBeacon : GhostEngine :=
  if self.state = .zeroized then self
  else
    -- In panic the transition does nothing, and the beacon is sent all the same.
    let self := self.transition .beacon
    let fingerprint := simpleFingerprint
      [self.nodeId, self.role, self.state.display, toString self.metrics.connectedPeers,
        toString self.metrics.knownPeers, toString self.metrics.routePeers,
        toString self.pendingSync.length, toString (clock self.readings)]
    let self := { self with readings := self.readings + 1 }
    let self := { self with
      metrics := { self.metrics with lastBeaconTs := some (self.unixTs clock) }
      readings := self.readings + 1 }
    self.sendAt clock (.beacon self.nodeId self.role self.state fingerprint
      self.metrics.connectedPeers self.metrics.knownPeers self.metrics.routePeers)

def performSyncIfNeeded (force : Bool) : GhostEngine :=
  if self.state = .zeroized ∨ self.state = .panic then self
  else if self.pendingSync.isEmpty && !force then self
  else
    let self := self.transition .sync
    let (batch, pendingSync) := fillBatch self.config.syncBatchLimit [] self.pendingSync
    let self := { self with
      pendingSync := pendingSync
      metrics := { self.metrics with lastSyncTs := some (self.unixTs clock) }
      readings := self.readings + 1 }
    let self :=
      if !batch.isEmpty || force then self.sendAt clock (.syncBatch self.nodeId batch) else self
    self.transition .idle

/-- The fields that zeroizing clears. -/
def wiped : GhostEngine :=
  { self with pendingSync := [], metrics := {}, wakeCyclesLeft := 0, tamperDetected := false }

def performZeroize : GhostEngine :=
  let self := self.wiped.transition .zeroized
  let self := self.sendAt clock (.zeroized self.nodeId)
  self.syncWorldState (some "ghost_zeroized")

def performPanic (reason : String) : GhostEngine :=
  if self.state = .zeroized then self
  else
    let self := self.transition .panic
    let self := self.sendAt clock (.panic self.nodeId reason)
    let self := self.syncWorldState (some ("ghost_panic:" ++ reason))
    if self.config.zeroizeOnPanic then self.performZeroize clock else self

/-- Count a cycle, and go to sleep when none is left and nobody is connected. -/
def afterActivePulse : GhostEngine :=
  if self.state = .zeroized ∨ self.state = .panic then self
  else
    let self := { self with wakeCyclesLeft := self.wakeCyclesLeft - 1 }
    if 0 < self.metrics.connectedPeers then
      let self := { self with wakeCyclesLeft := self.config.idleToSleepAfterCycles }
      let self :=
        if self.state ≠ .idle ∧ self.state ≠ .beacon then self.transition .idle else self
      self.publish clock "ghost_stay_awake_with_peers"
    else if self.wakeCyclesLeft = 0 ∧ self.config.autoSleepWhenIdle then
      (self.transition .sleep).publish clock "ghost_auto_sleep"
    else self

/-! ### A cycle -/

def observe : GhostObservation where
  state := self.state
  tamperDetected := self.tamperDetected
  connectedPeers := self.metrics.connectedPeers
  knownPeers := self.metrics.knownPeers
  routePeers := self.metrics.routePeers
  pendingSync := self.pendingSync.length
  wakeCyclesLeft := self.wakeCyclesLeft
  lastBeaconTs := self.metrics.lastBeaconTs
  lastSyncTs := self.metrics.lastSyncTs
  lastPulseTs := self.metrics.lastPulseTs

def assess (obs : GhostObservation) : GhostAssessment :=
  let (health, reasons) : GhostHealthBand × List String :=
    if obs.state = .zeroized then (.offline, [])
    else if obs.state = .init then (.init, ["booting"])
    else if obs.state = .panic ∨ obs.tamperDetected then (.critical, ["tamper_or_panic"])
    else if obs.connectedPeers = 0 ∧ self.config.autoSleepWhenIdle then
      (.degraded, ["no_connected_peers"])
    else if 0 < obs.pendingSync then (.active, ["pending_sync_items"])
    else if obs.state = .sleep then (.ready, [])
    else (.active, [])
  { health := health
    reasons := reasons
      ++ (if obs.knownPeers = 0 then ["no_known_peers"] else [])
      ++ (if obs.routePeers = 0 then ["no_route_peers"] else [])
      ++ (if obs.lastPulseTs.isNone then ["pulse_not_started"] else [])
      ++ (if obs.lastBeaconTs.isNone then ["no_beacon_yet"] else [])
      ++ (if obs.lastSyncTs.isNone then ["no_sync_yet"] else []) }

/-- What is decided when the trigger leaves it open. -/
def decideOpen (obs : GhostObservation) (assessment : GhostAssessment) (trigger : CycleTrigger) :
    List GhostDecision :=
  if obs.tamperDetected ∨ assessment.health = .critical then [.panic "tamper_detected"]
  else if obs.state = .sleep then [.sleep]
  else if 0 < obs.pendingSync ∨ trigger = .syncTick then
    [.sync (Decidable.decide (0 < obs.pendingSync))]
  else if trigger = .pulse then [.beacon]
  else if self.config.autoSleepWhenIdle ∧ obs.wakeCyclesLeft = 0 then
    if obs.connectedPeers = 0 then [.sleep] else [.idle]
  else [.idle]

protected def decide (obs : GhostObservation) (assessment : GhostAssessment)
    (trigger : CycleTrigger) : List GhostDecision :=
  if obs.state = .zeroized then []
  else
    match trigger with
    | .panic reason => [.panic reason]
    | .forceBeacon => [.beacon]
    | .forceSync => [.sync true]
    | .wake => [.beacon]
    | .manual | .pulse | .syncTick => self.decideOpen obs assessment trigger

def act : GhostDecision → GhostEngine
  | .beacon => self.performBeacon clock
  | .sync force => self.performSyncIfNeeded clock force
  | .panic reason => self.performPanic clock reason
  | .sleep => if self.state ≠ .zeroized then self.transition .sleep else self
  | .idle =>
    if self.state ≠ .zeroized ∧ self.state ≠ .sleep then self.transition .idle else self

def publishAll (messages : List String) : GhostEngine :=
  messages.foldl (fun self message => self.publish clock message) self

def runCycle (trigger : CycleTrigger) : GhostEngine :=
  if self.state = .zeroized then self
  else
    let obs := self.observe
    let assessment := self.assess obs
    let self := self.publishAll clock (assessment.reasons.map ("ghost_assess:" ++ ·))
    match self.decide obs assessment trigger with
    | [] =>
      (self.publish clock "ghost_decision:none").syncWorldState (some "ghost_decision:none")
    | decisions =>
      let self := decisions.foldl (fun self decision =>
        -- The name is shown as a literal, with its quotes.
        (self.publish clock ("ghost_decision:\"" ++ decisionName decision ++ "\"")).act clock
          decision) self
      (self.afterActivePulse clock).syncWorldState (some "ghost_cycle_complete")

/-! ### The loop -/

/-- What the loop does with a command. -/
def onCommand : GhostCommand → GhostEngine
  | .wake =>
    if self.state ≠ .zeroized ∧ self.state ≠ .panic then
      let self := { self with wakeCyclesLeft := self.config.idleToSleepAfterCycles }
      (self.transition .wake).runCycle clock .wake
    else self
  | .sleep =>
    if self.state ≠ .zeroized then
      let self := { self with wakeCyclesLeft := 0 }
      (self.transition .sleep).publish clock "ghost_cmd_sleep"
    else self
  | .enqueueSync item =>
    if self.state ≠ .zeroized then
      let self := { self with pendingSync := self.pendingSync ++ [item] }
      let message := "sync item queued; pending=" ++ toString self.pendingSync.length
      let self := self.sendAt clock (.log self.nodeId message)
      (self.publish clock "ghost_enqueue_sync").runCycle clock .manual
    else self
  | .triggerSync => if self.state ≠ .zeroized then self.runCycle clock .forceSync else self
  | .triggerBeacon => if self.state ≠ .zeroized then self.runCycle clock .forceBeacon else self
  | .triggerPanic reason =>
    if self.state ≠ .zeroized then self.runCycle clock (.panic reason) else self
  | .zeroize =>
    { (self.performZeroize clock).publish clock "ghost_cmd_zeroize" with stopped := true }
  | .updateMetrics connectedPeers knownPeers routePeers =>
    let self := { self with
      metrics := { self.metrics with
        connectedPeers := connectedPeers
        knownPeers := knownPeers
        routePeers := routePeers } }
    (self.publish clock "ghost_metrics_update").runCycle clock .manual
  | .setTamper tamper =>
    let self := { self with tamperDetected := tamper }
    let self := self.publish clock ("ghost_tamper:" ++ toString tamper)
    if tamper ∧ self.state ≠ .zeroized then self.runCycle clock (.panic "tamper_flag_set")
    else self
  | .observeSignal signal =>
    (self.publish clock ("ghost_observe:" ++ signal)).runCycle clock .manual

/-- What the loop does with its next input. -/
def step (input : GhostInput) : GhostEngine :=
  if self.stopped then self
  else
    match input with
    | .beaconTick =>
      let self := { self with
        metrics := { self.metrics with lastPulseTs := some (self.unixTs clock) }
        readings := self.readings + 1 }
      if self.state ≠ .sleep ∧ self.state ≠ .zeroized then self.runCycle clock .pulse
      else self.publish clock "ghost_beacon_tick_sleep"
    | .syncTick =>
      if self.state ≠ .sleep ∧ self.state ≠ .zeroized then self.runCycle clock .syncTick
      else self.publish clock "ghost_sync_tick_sleep"
    | .command cmd => self.onCommand clock cmd
    | .closed => { self with stopped := true }

def boot : GhostEngine := (self.transition .sleep).publish clock "ghost_boot"

/-! ### What is decided -/

theorem decideOpen_of_panic {trigger : CycleTrigger} (h : self.state = .panic) :
    self.decideOpen self.observe (self.assess self.observe) trigger
      = [.panic "tamper_detected"] := by
  have hcritical : (self.assess self.observe).health = .critical := by
    simp [assess, observe, h]
  rw [decideOpen, if_pos (Or.inr hcritical)]

theorem decideOpen_single (obs : GhostObservation) (assessment : GhostAssessment)
    (trigger : CycleTrigger) : ∃ decision, self.decideOpen obs assessment trigger = [decision] := by
  unfold decideOpen
  split_ifs <;> exact ⟨_, rfl⟩

/-- There is one decision. In panic it is to panic again, to synchronise, which is
    not done then, or to send a beacon because it was asked for. And if a beacon is asked
    for, it is decided on. -/
theorem decide_cases (trigger : CycleTrigger) (hstate : self.state ≠ .zeroized) :
    ∃ decision, self.decide self.observe (self.assess self.observe) trigger = [decision]
      ∧ (self.state = .panic →
        (∃ reason, decision = .panic reason) ∨ (∃ force, decision = .sync force)
          ∨ decision = .beacon ∧ (trigger = .forceBeacon ∨ trigger = .wake))
      ∧ (trigger = .forceBeacon → decision = .beacon) := by
  have hopen : ∃ decision,
      self.decideOpen self.observe (self.assess self.observe) trigger = [decision]
        ∧ (self.state = .panic → ∃ reason, decision = .panic reason) := by
    obtain ⟨decision, hdecision⟩ :=
      self.decideOpen_single self.observe (self.assess self.observe) trigger
    refine ⟨decision, hdecision, fun hpanic => ⟨"tamper_detected", ?_⟩⟩
    rw [self.decideOpen_of_panic hpanic] at hdecision
    exact (List.singleton_inj.mp hdecision).symm
  obtain ⟨decision, hdecision, hpanic⟩ := hopen
  have hlive : self.observe.state ≠ .zeroized := hstate
  unfold GhostEngine.decide
  rw [if_neg hlive]
  cases trigger with
  | panic reason => exact ⟨_, rfl, fun _ => Or.inl ⟨reason, rfl⟩, nofun⟩
  | forceBeacon => exact ⟨_, rfl, fun _ => Or.inr (Or.inr ⟨rfl, Or.inl rfl⟩), fun _ => rfl⟩
  | forceSync => exact ⟨_, rfl, fun _ => Or.inr (Or.inl ⟨true, rfl⟩), nofun⟩
  | wake => exact ⟨_, rfl, fun _ => Or.inr (Or.inr ⟨rfl, Or.inr rfl⟩), nofun⟩
  | manual | pulse | syncTick => exact ⟨decision, hdecision, fun h => Or.inl (hpanic h), nofun⟩

end GhostEngine

/-! ### Runs -/

/-- What an engine is started with, and the clock it reads. -/
structure Setup where
  nodeId : String
  role : String
  config : GhostConfig
  worldState : Option (List GhostReport)
  clock : Nat → Nat

namespace Setup

variable (setup : Setup)

/-- The engine as it is handed to its task. -/
def spawnInner : GhostEngine where
  nodeId := setup.nodeId
  role := setup.role
  config := setup.config
  state := .init
  metrics := {}
  pendingSync := []
  wakeCyclesLeft := setup.config.idleToSleepAfterCycles
  tamperDetected := false
  worldState := setup.worldState
  sent := []
  readings := 0
  stopped := false

def after (inputs : List GhostInput) : GhostEngine :=
  inputs.foldl (fun self input => self.step setup.clock input)
    (setup.spawnInner.boot setup.clock)

theorem after_nil : setup.after [] = setup.spawnInner.boot setup.clock := rfl

theorem after_concat (inputs : List GhostInput) (input : GhostInput) :
    setup.after (inputs ++ [input]) = (setup.after inputs).step setup.clock input := by
  rw [after, List.foldl_append]
  rfl

end Setup

end Ghost

end EssNode
