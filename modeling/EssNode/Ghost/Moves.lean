import EssNode.Ghost

/-!
# The Moves of the Ghost Engine

Everything that the loop of the ghost engine does with an input, cut into moves that
each send at most one event or zeroize the engine.

The functions of the engine are called from several places, and check the state
at different points: some after they have changed it, some not at all. `Move` says,
once for all of them, what can be done in which state. In particular nothing but a log
entry or another zeroizing comes out of an engine that is zeroized, and an engine in
panic leaves it or sends a beacon only if that is what it was told. What holds of every
run is then shown for the moves, one at a time.

Four inputs first write to a field of the engine, whatever its state: `intake` is the
engine after this.

The events show the state: whoever follows them knows it (`events_follow_state`).
-/

namespace EssNode

open List

namespace Ghost

open GhostInput

/-- The two commands whose effect is not checked against a panic. -/
def GhostInput.unchecked : GhostInput → Bool
  | .command .sleep | .command .triggerBeacon => true
  | _ => false

/-- A move of the engine on an input. -/
inductive Move (input : GhostInput) : GhostEngine → GhostEngine → Prop
  | log (self : GhostEngine) (message : String) (ts readings : Nat) :
      Move input self
        { self with sent := self.sent ++ [.log self.nodeId message ts], readings := readings }
  | report (self : GhostEngine) (worldState : Option (List GhostReport)) :
      Move input self { self with worldState := worldState }
  | count (self : GhostEngine) (wakeCyclesLeft : Nat) (hstate : self.state ≠ .zeroized) :
      Move input self { self with wakeCyclesLeft := wakeCyclesLeft }
  | enter (self : GhostEngine) (target : GhostState) (hstate : self.state ≠ .zeroized)
      (htarget : target ≠ .zeroized) (hcause : target = .panic → input.unchecked = false)
      (hpanic : self.state = .panic → input.unchecked = true) :
      Move input self
        { self with
          state := target
          sent := self.sent ++ [.stateChanged self.nodeId self.state target] }
  | beacon (self : GhostEngine) (metrics : GhostMetrics) (fingerprint : String)
      (ts readings : Nat) (hstate : self.state ≠ .zeroized)
      (hpanic : self.state = .panic → input.unchecked = true) :
      Move input self
        { self with
          metrics := metrics
          sent := self.sent ++ [.beacon self.nodeId self.role self.state fingerprint
            metrics.connectedPeers metrics.knownPeers metrics.routePeers ts]
          readings := readings }
  | hold (self : GhostEngine) (metrics : GhostMetrics) (readings : Nat)
      (hstate : self.state = .sync) :
      Move input self { self with metrics := metrics, readings := readings }
  | batch (self : GhostEngine) (batch rest : List String) (metrics : GhostMetrics)
      (ts readings : Nat) (hstate : self.state = .sync) (hitems : batch ++ rest = self.pendingSync)
      (hlimit : batch.length ≤ self.config.syncBatchLimit) :
      Move input self
        { self with
          pendingSync := rest
          metrics := metrics
          sent := self.sent ++ [.syncBatch self.nodeId batch ts]
          readings := readings }
  | panic (self : GhostEngine) (reason : String) (ts readings : Nat)
      (hstate : self.state = .panic) :
      Move input self
        { self with sent := self.sent ++ [.panic self.nodeId reason ts], readings := readings }
  | zeroize (self : GhostEngine) (ts readings : Nat) :
      Move input self
        { self with
          state := .zeroized
          metrics := {}
          pendingSync := []
          wakeCyclesLeft := 0
          tamperDetected := false
          sent := self.sent
            ++ (if self.state = .zeroized then []
              else [.stateChanged self.nodeId self.state .zeroized])
            ++ [.zeroized self.nodeId ts]
          readings := readings }
  | stop (self : GhostEngine) : Move input self { self with stopped := true }

def Moves (input : GhostInput) : GhostEngine → GhostEngine → Prop :=
  Relation.ReflTransGen (Move input)

variable {input : GhostInput} {mark allowed : GhostEvent → Bool} (setup : Setup)
  {P : GhostEngine → Prop} {a b : GhostEngine}

theorem Moves.refl (self : GhostEngine) : Moves input self self := Relation.ReflTransGen.refl

theorem Moves.trans {c : GhostEngine} (h₁ : Moves input a b) (h₂ : Moves input b c) :
    Moves input a c := Relation.ReflTransGen.trans h₁ h₂

theorem Move.moves (h : Move input a b) : Moves input a b :=
  Relation.ReflTransGen.single h

theorem Moves.preserves (hmove : ∀ {a b : GhostEngine}, Move input a b → P a → P b)
    {a b : GhostEngine} (h : Moves input a b) (ha : P a) : P b := by
  induction h with
  | refl => exact ha
  | tail _ hlast ih => exact hmove hlast ih

theorem Move.sent_extends (hmove : Move input a b) : a.sent <+: b.sent := by
  cases hmove with
  | report | count | hold | stop => exact prefix_rfl
  | log | enter | beacon | batch | panic => exact prefix_append _ _
  | zeroize ts readings => exact (prefix_append _ _).trans (prefix_append _ _)

theorem Moves.sent_extends (hmoves : Moves input a b) : a.sent <+: b.sent := by
  have hkeep : ∀ {c d : GhostEngine}, Move input c d → a.sent <+: c.sent → a.sent <+: d.sent :=
    fun hmove h => h.trans hmove.sent_extends
  exact hmoves.preserves hkeep prefix_rfl

/-- After an event of one kind come only events of another, and once there was one the
    state is held. -/
structure Guarded (mark allowed : GhostEvent → Bool) (held : GhostState → Prop)
    (engine : GhostEngine) : Prop where
  after : engine.sent.Pairwise fun event later => mark event = true → allowed later = true
  state : ∀ event ∈ engine.sent, mark event = true → held engine.state

theorem Guarded.append {held : GhostState → Prop} {self other : GhostEngine}
    (h : Guarded mark allowed held self) {event : GhostEvent}
    (hsent : other.sent = self.sent ++ [event]) (hevent : ¬ held self.state ∨ allowed event = true)
    (hmark : mark event = true → held other.state) (hkeep : held self.state → held other.state) :
    Guarded mark allowed held other := by
  constructor
  · rw [hsent, pairwise_append]
    refine ⟨h.after, pairwise_singleton _ _, fun e he later hlater hmarked => ?_⟩
    rw [mem_singleton.mp hlater]
    exact hevent.resolve_left fun hfree => hfree (h.state e he hmarked)
  · intro e he hmarked
    rw [hsent] at he
    rcases mem_append.mp he with hold | hnew
    · exact hkeep (h.state e hold hmarked)
    · rw [mem_singleton.mp hnew] at hmarked
      exact hmark hmarked

theorem Guarded.zeroize {held : GhostState → Prop} {self other : GhostEngine}
    (h : Guarded mark allowed held self) {ts : Nat} (hstate : other.state = .zeroized)
    (hheld : held .zeroized)
    (hsent : other.sent = self.sent ++ (if self.state = .zeroized then []
      else [.stateChanged self.nodeId self.state .zeroized]) ++ [.zeroized self.nodeId ts])
    (hchange : self.state ≠ .zeroized →
      ¬ held self.state ∨ allowed (.stateChanged self.nodeId self.state .zeroized) = true)
    (hend : allowed (.zeroized self.nodeId ts) = true) : Guarded mark allowed held other := by
  have hchanged : Guarded mark allowed held { self with
      state := .zeroized
      sent := self.sent ++ (if self.state = .zeroized then []
        else [.stateChanged self.nodeId self.state .zeroized]) } := by
    by_cases hzeroized : self.state = .zeroized
    · rw [if_pos hzeroized, append_nil]
      exact ⟨h.after, fun _ _ _ => hheld⟩
    · rw [if_neg hzeroized]
      exact h.append rfl (hchange hzeroized) (fun _ => hheld) fun _ => hheld
  refine hchanged.append hsent (Or.inr hend) (fun _ => ?_) fun _ => ?_
  · rw [hstate]
    exact hheld
  · rw [hstate]
    exact hheld

namespace GhostEngine

variable (clock : Nat → Nat) (self : GhostEngine) (cmd : GhostCommand) (trigger : CycleTrigger)
  {target : GhostState} (messages : List String) (message : String)

/-- The engine with what the input writes to it before anything else is done. -/
def intake : GhostInput → GhostEngine
  | .beaconTick =>
    { self with
      metrics := { self.metrics with lastPulseTs := some (self.unixTs clock) }
      readings := self.readings + 1 }
  | .command (.enqueueSync item) =>
    if self.state ≠ .zeroized then { self with pendingSync := self.pendingSync ++ [item] }
    else self
  | .command (.updateMetrics connectedPeers knownPeers routePeers) =>
    { self with
      metrics := { self.metrics with
        connectedPeers := connectedPeers
        knownPeers := knownPeers
        routePeers := routePeers } }
  | .command (.setTamper tamper) => { self with tamperDetected := tamper }
  | _ => self

theorem intake_eq (input : GhostInput) :
    ∃ metrics pendingSync tamperDetected readings,
      self.intake clock input
        = { self with
            metrics := metrics
            pendingSync := pendingSync
            tamperDetected := tamperDetected
            readings := readings } := by
  unfold intake
  split
  · exact ⟨_, _, _, _, rfl⟩
  · split
    · exact ⟨_, _, _, _, rfl⟩
    · exact ⟨_, _, _, _, rfl⟩
  · exact ⟨_, _, _, _, rfl⟩
  · exact ⟨_, _, _, _, rfl⟩
  · exact ⟨_, _, _, _, rfl⟩

@[simp] theorem intake_state (input : GhostInput) :
    (self.intake clock input).state = self.state := by
  obtain ⟨metrics, pendingSync, tamperDetected, readings, h⟩ := self.intake_eq clock input
  rw [h]

@[simp] theorem intake_sent (input : GhostInput) : (self.intake clock input).sent = self.sent := by
  obtain ⟨metrics, pendingSync, tamperDetected, readings, h⟩ := self.intake_eq clock input
  rw [h]

@[simp] theorem intake_config (input : GhostInput) :
    (self.intake clock input).config = self.config := by
  obtain ⟨metrics, pendingSync, tamperDetected, readings, h⟩ := self.intake_eq clock input
  rw [h]

/-! ### Messages -/

@[simp] theorem publish_state : (self.publish clock message).state = self.state := by
  unfold publish
  dsimp only
  split <;> rfl

@[simp] theorem publish_config : (self.publish clock message).config = self.config := by
  unfold publish
  dsimp only
  split <;> rfl

@[simp] theorem publish_metrics : (self.publish clock message).metrics = self.metrics := by
  unfold publish
  dsimp only
  split <;> rfl

@[simp] theorem publish_tamperDetected :
    (self.publish clock message).tamperDetected = self.tamperDetected := by
  unfold publish
  dsimp only
  split <;> rfl

theorem sendAt_log_moves : Moves input self (self.sendAt clock (.log self.nodeId message)) :=
  (Move.log self message _ _).moves

theorem syncWorldState_moves (signal : Option String) :
    Moves input self (self.syncWorldState signal) :=
  (Move.report self _).moves

theorem publish_moves : Moves input self (self.publish clock message) := by
  unfold publish
  dsimp only
  split
  · exact self.sendAt_log_moves clock message
  · exact (self.sendAt_log_moves clock message).trans (syncWorldState_moves _ _)

open Moves

theorem publishAll_moves : Moves input self (self.publishAll clock messages) := by
  induction messages generalizing self with
  | nil => exact refl self
  | cons message messages ih =>
    exact (self.publish_moves clock message).trans (ih (self.publish clock message))

@[simp] theorem publishAll_state : (self.publishAll clock messages).state = self.state := by
  induction messages generalizing self with
  | nil => rfl
  | cons message messages ih =>
    exact (ih (self.publish clock message)).trans (self.publish_state clock message)

@[simp] theorem publishAll_config : (self.publishAll clock messages).config = self.config := by
  induction messages generalizing self with
  | nil => rfl
  | cons message messages ih =>
    exact (ih (self.publish clock message)).trans (self.publish_config clock message)

/-! ### Transitions -/

theorem transition_of_ne (hstate : self.state ≠ .zeroized)
    (hbeacon : self.state = .panic → target ≠ .beacon) (hne : self.state ≠ target) :
    self.transition target
      = { self with
          state := target
          sent := self.sent ++ [.stateChanged self.nodeId self.state target] } := by
  unfold transition
  rw [if_neg hstate, if_neg fun h => hbeacon h.1 h.2, if_pos hne]
  rfl

theorem transition_of_eq
    (h : self.state = .zeroized ∨ self.state = .panic ∧ target = .beacon ∨ self.state = target) :
    self.transition target = self := by
  unfold transition
  split_ifs with hzeroized hbeacon hne
  · rfl
  · rfl
  · rcases h with h | h | h
    · exact absurd h hzeroized
    · exact absurd h hbeacon
    · exact absurd h hne
  · rfl

theorem transition_cases (target : GhostState) :
    self.transition target = self
        ∧ (self.state = .zeroized ∨ self.state = .panic ∧ target = .beacon ∨ self.state = target)
      ∨ self.transition target
          = { self with
              state := target
              sent := self.sent ++ [.stateChanged self.nodeId self.state target] }
        ∧ self.state ≠ .zeroized ∧ (self.state = .panic → target ≠ .beacon)
        ∧ self.state ≠ target := by
  by_cases h : self.state = .zeroized ∨ self.state = .panic ∧ target = .beacon
      ∨ self.state = target
  · exact Or.inl ⟨self.transition_of_eq h, h⟩
  · push Not at h
    exact Or.inr ⟨self.transition_of_ne h.1 h.2.1 h.2.2, h⟩

theorem transition_zeroized_state : (self.transition .zeroized).state = .zeroized := by
  rcases self.transition_cases .zeroized with ⟨heq, h⟩ | ⟨heq, -⟩
  · rw [heq]
    rcases h with h | ⟨-, htarget⟩ | h
    · exact h
    · cases htarget
    · exact h
  · rw [heq]

theorem transition_state (hstate : self.state ≠ .zeroized)
    (hbeacon : self.state = .panic → target ≠ .beacon) :
    (self.transition target).state = target := by
  rcases self.transition_cases target with ⟨heq, h⟩ | ⟨heq, -⟩
  · rw [heq]
    rcases h with h | ⟨h, htarget⟩ | h
    · exact absurd h hstate
    · exact absurd htarget (hbeacon h)
    · exact h
  · rw [heq]

@[simp] theorem transition_config (target : GhostState) :
    (self.transition target).config = self.config := by
  rcases self.transition_cases target with ⟨heq, -⟩ | ⟨heq, -⟩ <;> rw [heq]

/-- A transition is a move where panic is left only by what is unchecked, and entered
    only by what is checked. -/
theorem transition_moves (target : GhostState) (htarget : target ≠ .zeroized)
    (hcause : target = .panic → input.unchecked = false)
    (hpanic : self.state = .panic →
      target = .panic ∨ target = .beacon ∨ input.unchecked = true) :
    Moves input self (self.transition target) := by
  rcases self.transition_cases target with ⟨heq, -⟩ | ⟨heq, hstate, hbeacon, hne⟩
  · rw [heq]
    exact refl self
  · rw [heq]
    refine (Move.enter self target hstate htarget hcause fun h => ?_).moves
    rcases hpanic h with hsame | htobeacon | hunchecked
    · exact absurd (h.trans hsame.symm) hne
    · exact absurd htobeacon (hbeacon h)
    · exact hunchecked

/-! ### What a decision does -/

theorem performBeacon_moves (hpanic : self.state = .panic → input.unchecked = true) :
    Moves input self (self.performBeacon clock) := by
  unfold performBeacon
  split_ifs with hzeroized
  · exact refl self
  · have htransition : Moves input self (self.transition .beacon) :=
      self.transition_moves .beacon (by decide) nofun fun _ => Or.inr (Or.inl rfl)
    refine htransition.trans (Move.beacon (self.transition .beacon) _ _ _ _ ?_ ?_).moves
    · rcases self.transition_cases .beacon with ⟨heq, -⟩ | ⟨heq, -⟩
      · rw [heq]
        exact hzeroized
      · rw [heq]
        exact GhostState.noConfusion
    · intro h
      -- The engine is in panic after the transition, so it was before.
      rcases self.transition_cases .beacon with ⟨heq, -⟩ | ⟨heq, -⟩
      · rw [heq] at h
        exact hpanic h
      · rw [heq] at h
        exact GhostState.noConfusion h

theorem performSyncIfNeeded_moves (force : Bool) :
    Moves input self (self.performSyncIfNeeded clock force) := by
  unfold performSyncIfNeeded
  split_ifs with hstate hnothing
  · exact refl self
  · exact refl self
  · push Not at hstate
    have hsync : (self.transition .sync).state = .sync :=
      self.transition_state hstate.1 fun h => absurd h hstate.2
    have htransition : Moves input self (self.transition .sync) :=
      self.transition_moves .sync (by decide) nofun fun h => absurd h hstate.2
    refine htransition.trans ?_
    generalize self.transition .sync = syncing at hsync ⊢
    obtain ⟨hitems, hlimit⟩ :=
      fillBatch_spec syncing.config.syncBatchLimit [] syncing.pendingSync (Nat.zero_le _)
    rw [nil_append] at hitems
    -- From the state it synchronises in, the engine goes on to idle.
    have hidle : ∀ engine : GhostEngine, engine.state = .sync →
        Moves input engine (engine.transition .idle) := fun engine hengine =>
      engine.transition_moves .idle (by decide) nofun fun h =>
        GhostState.noConfusion (hengine.symm.trans h)
    dsimp only
    split_ifs with hsend
    · refine (Move.batch syncing _ _ _ _ _ hsync hitems hlimit).moves.trans (hidle _ ?_)
      exact hsync
    · -- Without an event the batch is empty, and the items are still waiting.
      have hbatch : (fillBatch syncing.config.syncBatchLimit [] syncing.pendingSync).1 = [] := by
        simp at hsend
        exact hsend.1
      rw [hbatch, nil_append] at hitems
      rw [hitems]
      refine (Move.hold syncing _ _ hsync).moves.trans (hidle _ ?_)
      exact hsync

theorem performZeroize_moves : Moves input self (self.performZeroize clock) := by
  have hmove := (Move.zeroize self (self.unixTs clock) (self.readings + 1) :
    Move input self _).moves
  unfold performZeroize
  refine Moves.trans ?_ (syncWorldState_moves _ _)
  by_cases hstate : self.state = .zeroized
  · rw [self.wiped.transition_of_eq (Or.inl hstate)]
    rw [if_pos hstate, append_nil, ← hstate] at hmove
    exact hmove
  · rw [self.wiped.transition_of_ne hstate (fun _ => GhostState.noConfusion) hstate]
    rw [if_neg hstate] at hmove
    exact hmove

theorem performPanic_moves (reason : String) (hcause : input.unchecked = false) :
    Moves input self (self.performPanic clock reason) := by
  have htransition : Moves input self (self.transition .panic) :=
    self.transition_moves .panic (by decide) (fun _ => hcause) fun _ => Or.inl rfl
  unfold performPanic
  by_cases hstate : self.state = .zeroized
  · rw [if_pos hstate]
    exact refl self
  rw [if_neg hstate]
  have hpanic : (self.transition .panic).state = .panic :=
    self.transition_state hstate fun _ => GhostState.noConfusion
  generalize self.transition .panic = panicked at htransition hpanic ⊢
  have hevent : Moves input panicked (panicked.sendAt clock (.panic panicked.nodeId reason)) :=
    (Move.panic panicked reason _ _ hpanic).moves
  have hreported := (htransition.trans hevent).trans
    (syncWorldState_moves _ (some ("ghost_panic:" ++ reason)))
  dsimp only
  split
  · exact hreported.trans (performZeroize_moves clock _)
  · exact hreported

theorem act_moves {decision : GhostDecision}
    (hcause : decision ≠ .beacon → input.unchecked = false)
    (hpanic : self.state = .panic →
      (∃ reason, decision = .panic reason) ∨ (∃ force, decision = .sync force)
        ∨ decision = .beacon ∧ input.unchecked = true) :
    Moves input self (self.act clock decision) := by
  -- The decisions that would leave panic are not made in it.
  have hleave : ∀ target : GhostState, target ≠ .zeroized → target ≠ .panic →
      (decision = .sleep ∨ decision = .idle) → Moves input self (self.transition target) := by
    intro target htarget hother hdecision
    refine self.transition_moves target htarget (fun h => absurd h hother) fun h => ?_
    rcases hpanic h with ⟨reason, rfl⟩ | ⟨force, rfl⟩ | ⟨rfl, -⟩ <;> simp at hdecision
  cases decision with
  | beacon =>
    refine self.performBeacon_moves clock fun h => ?_
    rcases hpanic h with ⟨reason, hreason⟩ | ⟨force, hforce⟩ | ⟨-, hinput⟩
    · exact GhostDecision.noConfusion hreason
    · exact GhostDecision.noConfusion hforce
    · exact hinput
  | sync force => exact self.performSyncIfNeeded_moves clock force
  | panic reason => exact self.performPanic_moves clock reason (hcause nofun)
  | sleep =>
    unfold act
    dsimp only
    split_ifs
    · exact hleave .sleep (by decide) (by decide) (Or.inl rfl)
    · exact refl self
  | idle =>
    unfold act
    dsimp only
    split_ifs
    · exact hleave .idle (by decide) (by decide) (Or.inr rfl)
    · exact refl self

theorem afterActivePulse_moves : Moves input self (self.afterActivePulse clock) := by
  unfold afterActivePulse
  by_cases hstate : self.state = .zeroized ∨ self.state = .panic
  · rw [if_pos hstate]
    exact refl self
  rw [if_neg hstate]
  push Not at hstate
  obtain ⟨hlive, hpanic⟩ := hstate
  have hcount : ∀ wakeCyclesLeft, Moves input self { self with wakeCyclesLeft := wakeCyclesLeft } :=
    fun wakeCyclesLeft => (Move.count self wakeCyclesLeft hlive).moves
  have hgo : ∀ wakeCyclesLeft target, target ≠ .zeroized → target ≠ .panic →
      Moves input self
        (({ self with wakeCyclesLeft := wakeCyclesLeft } : GhostEngine).transition target) :=
    fun wakeCyclesLeft target htarget hother => (hcount wakeCyclesLeft).trans
      (transition_moves _ target htarget (fun h => absurd h hother) fun h => absurd h hpanic)
  dsimp only
  split_ifs
  · exact (hgo _ .idle (by decide) (by decide)).trans (publish_moves _ _ _)
  · exact (hcount _).trans (publish_moves _ _ _)
  · exact (hgo _ .sleep (by decide) (by decide)).trans (publish_moves _ _ _)
  · exact hcount _

/-! ### A cycle and a step -/

theorem runCycle_of_zeroized {trigger : CycleTrigger} (h : self.state = .zeroized) :
    self.runCycle clock trigger = self := by
  unfold runCycle
  rw [if_pos h]

theorem decide_of_config {other : GhostEngine} (h : self.config = other.config) :
    self.decide = other.decide := by
  unfold GhostEngine.decide decideOpen
  rw [h]

/-- A cycle sends messages, does the one thing it decided, and ends. -/
theorem runCycle_cases (hlive : self.state ≠ .zeroized) :
    ∃ decision announced,
      self.runCycle clock trigger
          = ((announced.act clock decision).afterActivePulse clock).syncWorldState
              (some "ghost_cycle_complete")
        ∧ (∀ input, Moves input self announced)
        ∧ announced.state = self.state ∧ announced.config = self.config
        ∧ (self.state = .panic →
          (∃ reason, decision = .panic reason) ∨ (∃ force, decision = .sync force)
            ∨ decision = .beacon ∧ (trigger = .forceBeacon ∨ trigger = .wake))
        ∧ (trigger = .forceBeacon → decision = .beacon) := by
  obtain ⟨decision, hdecision, hpanic, hforced⟩ := self.decide_cases trigger hlive
  refine ⟨decision, (self.publishAll clock
    ((self.assess self.observe).reasons.map ("ghost_assess:" ++ ·))).publish clock
      ("ghost_decision:\"" ++ decisionName decision ++ "\""), ?_, fun input => ?_, ?_, ?_, hpanic,
    hforced⟩
  · unfold runCycle
    rw [if_neg hlive]
    dsimp only
    rw [decide_of_config _ (self.publishAll_config clock _), hdecision]
    rfl
  · exact Moves.trans (publishAll_moves _ _ _) (publish_moves _ _ _)
  · rw [publish_state, publishAll_state]
  · rw [publish_config, publishAll_config]

theorem runCycle_moves (hwake : trigger = .wake → self.state ≠ .panic)
    (hbeacon : trigger = .forceBeacon ↔ input.unchecked = true) :
    Moves input self (self.runCycle clock trigger) := by
  by_cases hlive : self.state = .zeroized
  · rw [self.runCycle_of_zeroized clock hlive]
    exact refl self
  obtain ⟨decision, announced, hrun, hmoves, hstate, -, hpanic, hforced⟩ :=
    self.runCycle_cases clock trigger hlive
  have hcause : decision ≠ .beacon → input.unchecked = false := fun hother =>
    Bool.eq_false_iff.mpr fun hunchecked => hother (hforced (hbeacon.mpr hunchecked))
  rw [hrun]
  refine ((hmoves input).trans (announced.act_moves clock hcause fun h => ?_)).trans
    ((afterActivePulse_moves _ _).trans (syncWorldState_moves _ _))
  rw [hstate] at h
  rcases hpanic h with hreason | hforce | ⟨hdecided, htrigger | htrigger⟩
  · exact Or.inl hreason
  · exact Or.inr (Or.inl hforce)
  · exact Or.inr (Or.inr ⟨hdecided, hbeacon.mp htrigger⟩)
  · exact absurd h (hwake htrigger)

theorem onCommand_moves :
    Moves (.command cmd) (self.intake clock (.command cmd)) (self.onCommand clock cmd) := by
  cases cmd with
  | wake =>
    unfold onCommand
    dsimp only
    split_ifs with hstate
    · have hcount : Moves (.command .wake) self
          { self with wakeCyclesLeft := self.config.idleToSleepAfterCycles } :=
        (Move.count self _ hstate.1).moves
      -- It is awake before the cycle, so not in panic.
      refine (hcount.trans
        (transition_moves _ .wake (by decide) nofun fun h => absurd h hstate.2)).trans
        (runCycle_moves _ _ .wake (fun _ hpanic => ?_) (by decide))
      have hawake := hpanic.symm.trans
        (transition_state _ hstate.1 fun h => absurd h hstate.2)
      exact GhostState.noConfusion hawake
    · exact refl self
  | sleep =>
    unfold onCommand
    dsimp only
    split_ifs with hstate
    · have hcount : Moves (.command .sleep) self { self with wakeCyclesLeft := 0 } :=
        (Move.count self 0 hstate).moves
      exact (hcount.trans (transition_moves _ .sleep (by decide) nofun
        fun _ => Or.inr (Or.inr rfl))).trans (publish_moves _ _ _)
    · exact refl self
  | enqueueSync item =>
    unfold onCommand intake
    dsimp only
    split_ifs with hstate
    · exact ((sendAt_log_moves _ _ _).trans (publish_moves _ _ _)).trans
        (runCycle_moves _ _ _ nofun (by simp [unchecked]))
    · exact refl self
  | triggerSync =>
    unfold onCommand
    dsimp only
    split_ifs
    · exact runCycle_moves _ _ _ nofun (by simp [unchecked])
    · exact refl self
  | triggerBeacon =>
    unfold onCommand
    dsimp only
    split_ifs
    · exact runCycle_moves _ _ _ nofun (by simp [unchecked])
    · exact refl self
  | triggerPanic reason =>
    unfold onCommand
    dsimp only
    split_ifs
    · exact runCycle_moves _ _ _ nofun (by simp [unchecked])
    · exact refl self
  | zeroize =>
    exact ((performZeroize_moves _ _).trans (publish_moves _ _ _)).trans (Move.stop _).moves
  | updateMetrics connectedPeers knownPeers routePeers =>
    exact Moves.trans (publish_moves _ _ _)
      (runCycle_moves _ _ _ nofun (by simp [unchecked]))
  | setTamper tamper =>
    unfold onCommand
    dsimp only
    split_ifs
    · exact Moves.trans (publish_moves _ _ _)
        (runCycle_moves _ _ _ nofun (by simp [unchecked]))
    · exact publish_moves _ _ _
  | observeSignal signal =>
    exact Moves.trans (publish_moves _ _ _)
      (runCycle_moves _ _ _ nofun (by simp [unchecked]))

theorem step_command (hrunning : self.stopped = false) :
    self.step clock (.command cmd) = self.onCommand clock cmd := by
  have hnot : ¬ self.stopped = true := by
    rw [hrunning]
    exact Bool.false_ne_true
  unfold step
  rw [if_neg hnot]

theorem step_moves (input : GhostInput) (hrunning : self.stopped = false) :
    Moves input (self.intake clock input) (self.step clock input) := by
  have hnot : ¬ self.stopped = true := by
    rw [hrunning]
    exact Bool.false_ne_true
  unfold step
  rw [if_neg hnot]
  cases input with
  | beaconTick =>
    dsimp only
    split_ifs
    · exact runCycle_moves _ _ _ nofun (by simp [unchecked])
    · exact publish_moves _ _ _
  | syncTick =>
    dsimp only
    split_ifs
    · exact runCycle_moves _ _ _ nofun (by simp [unchecked])
    · exact publish_moves _ _ _
  | command cmd => exact self.onCommand_moves clock cmd
  | closed => exact (Move.stop self).moves

theorem step_of_stopped (input : GhostInput) (hstopped : self.stopped = true) :
    self.step clock input = self := by
  unfold step
  rw [if_pos hstopped]

end GhostEngine

theorem boot_moves (input : GhostInput) :
    Moves input setup.spawnInner (setup.spawnInner.boot setup.clock) := by
  unfold GhostEngine.boot
  exact Moves.trans (GhostEngine.transition_moves _ .sleep (by decide) nofun nofun)
    (GhostEngine.publish_moves _ _ _)

/-- What every move keeps, and every input leaves alone, holds along every run. -/
theorem Setup.after_invariant (hspawn : P setup.spawnInner)
    (hmove : ∀ {input : GhostInput} {a b : GhostEngine}, Move input a b → P a → P b)
    (hintake : ∀ {self : GhostEngine} (input : GhostInput), P self →
      P (self.intake setup.clock input)) (inputs : List GhostInput) : P (setup.after inputs) := by
  induction inputs using reverseRecOn with
  | nil => exact (boot_moves setup .closed).preserves hmove hspawn
  | append_singleton inputs input ih =>
    rw [setup.after_concat]
    cases hstopped : (setup.after inputs).stopped with
    | true =>
      rw [GhostEngine.step_of_stopped _ _ input hstopped]
      exact ih
    | false =>
      exact (GhostEngine.step_moves _ _ input hstopped).preserves hmove (hintake input ih)

theorem Move.config_eq (hmove : Move input a b) : b.config = a.config := by
  cases hmove <;> rfl

theorem Setup.after_config (inputs : List GhostInput) :
    (setup.after inputs).config = setup.config := by
  have hkeep : ∀ {input : GhostInput} {a b : GhostEngine}, Move input a b →
      a.config = setup.config → b.config = setup.config :=
    fun hmove h => hmove.config_eq.trans h
  have hspawn : setup.spawnInner.config = setup.config := rfl
  refine setup.after_invariant hspawn hkeep (fun input h => ?_) inputs
  rw [GhostEngine.intake_config, h]

theorem Setup.after_sent_extends {before inputs : List GhostInput} (h : before <+: inputs) :
    (setup.after before).sent <+: (setup.after inputs).sent := by
  obtain ⟨later, rfl⟩ := h
  induction later using reverseRecOn with
  | nil => rw [append_nil]
  | append_singleton later input ih =>
    rw [← append_assoc, setup.after_concat]
    refine ih.trans ?_
    generalize setup.after (before ++ later) = self
    cases hstopped : self.stopped with
    | true => rw [self.step_of_stopped _ input hstopped]
    | false =>
      have hinitial := (self.step_moves setup.clock input hstopped).sent_extends
      rwa [self.intake_sent] at hinitial

/-- The state of the engine behind an event, as its events show it; none if the event does not
    come in that state. -/
def follow (state : GhostState) : GhostEvent → Option GhostState
  | .stateChanged _ source target =>
    if state = source ∧ source ≠ .zeroized then some target else none
  | .beacon _ _ shown _ _ _ _ _ =>
    if state = shown ∧ shown ≠ .zeroized then some state else none
  | .syncBatch .. => if state = .sync then some state else none
  | .panic .. => if state = .panic then some state else none
  | .zeroized .. => if state = .zeroized then some state else none
  | .log .. => some state

theorem Move.follow (hmove : Move input a b) (h : a.sent.foldlM follow .init = some a.state) :
    b.sent.foldlM follow .init = some b.state := by
  cases hmove with
  | report | count | hold | stop => exact h
  | zeroize ts readings =>
    by_cases hzeroized : a.state = .zeroized <;>
      simp [foldlM_append, h, hzeroized, Ghost.follow]
  | _ => simp_all [foldlM_append, Ghost.follow]

/-- In every run the events that are sent follow one another as the states do, and who follows
    them knows the state of the engine. -/
theorem events_follow_state (inputs : List GhostInput) :
    (setup.after inputs).sent.foldlM follow .init = some (setup.after inputs).state :=
  setup.after_invariant (P := fun self => self.sent.foldlM follow .init = some self.state) rfl
    Move.follow (fun input h => by rwa [GhostEngine.intake_sent, GhostEngine.intake_state]) inputs

end Ghost

end EssNode
