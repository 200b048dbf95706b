import EssNode.Ghost.Moves

/-!
# The Zeroized Engine

An engine that was zeroized stays so, keeps no item and has nothing more to say: each
of its functions checks the state, or is called where it was checked.

What it holds besides is another matter. Zeroizing clears the metrics, the cycles and
the tamper flag, but a panic that zeroizes does not end the loop. A tick of the beacon
timer then writes the time of the pulse, a command brings new metrics and another sets
the tamper flag, all of them before the state is looked at. These are the only ways in
which something is left in a zeroized engine.
-/

namespace EssNode

namespace Ghost

/-- Whether an event is neither a change of state, a beacon, a batch nor a panic. -/
def GhostEvent.quiet : GhostEvent → Bool
  | .zeroized .. | .log .. => true
  | _ => false

def GhostEvent.enters (state : GhostState) : GhostEvent → Bool
  | .stateChanged _ _ target => target = state
  | _ => false

/-- Zeroized, with no item, and with nothing but quiet events since `base`. -/
structure Silent (base : List GhostEvent) (engine : GhostEngine) : Prop where
  state : engine.state = .zeroized
  pendingSync : engine.pendingSync = []
  sent : ∃ events, engine.sent = base ++ events ∧ ∀ event ∈ events, event.quiet = true

variable {base : List GhostEvent} {a b : GhostEngine}

theorem Silent.append {self other : GhostEngine} (h : Silent base self) {event : GhostEvent}
    (hsent : other.sent = self.sent ++ [event]) (hevent : event.quiet = true)
    (hstate : other.state = .zeroized) (hpending : other.pendingSync = []) :
    Silent base other := by
  obtain ⟨events, hevents, hquiet⟩ := h.sent
  refine ⟨hstate, hpending, events ++ [event], ?_, ?_⟩
  · rw [hsent, hevents, List.append_assoc]
  · intro e he
    rcases List.mem_append.mp he with hold | hnew
    · exact hquiet e hold
    · rw [List.mem_singleton.mp hnew]
      exact hevent

variable {input : GhostInput} (clock : Nat → Nat) {self : GhostEngine}

theorem Move.silent (hmove : Move input a b) (h : Silent base a) : Silent base b := by
  cases hmove with
  | log message ts readings => exact h.append rfl rfl h.state h.pendingSync
  | report worldState => exact ⟨h.state, h.pendingSync, h.sent⟩
  | stop => exact ⟨h.state, h.pendingSync, h.sent⟩
  | zeroize ts readings =>
    have hsent : a.sent ++ (if a.state = .zeroized then []
        else [.stateChanged a.nodeId a.state .zeroized]) ++ [.zeroized a.nodeId ts]
        = a.sent ++ [.zeroized a.nodeId ts] := by
      rw [if_pos h.state, List.append_nil]
    exact h.append hsent rfl rfl rfl
  -- The other moves are not made in this state.
  | count wakeCyclesLeft hstate => exact absurd h.state hstate
  | enter target hstate => exact absurd h.state hstate
  | beacon metrics fingerprint ts readings hstate => exact absurd h.state hstate
  | hold metrics readings hstate => exact GhostState.noConfusion (h.state.symm.trans hstate)
  | batch batch rest metrics ts readings hstate =>
    exact GhostState.noConfusion (h.state.symm.trans hstate)
  | panic reason ts readings hstate => exact GhostState.noConfusion (h.state.symm.trans hstate)

theorem GhostEngine.intake_pendingSync (h : self.state = .zeroized) (input : GhostInput) :
    (self.intake clock input).pendingSync = self.pendingSync := by
  unfold intake
  split
  · rfl
  · rw [if_neg fun hlive => hlive h]
  · rfl
  · rfl
  · rfl

theorem Silent.step (h : Silent base self) (input : GhostInput) :
    Silent base (self.step clock input) := by
  cases hstopped : self.stopped with
  | true =>
    rw [self.step_of_stopped clock input hstopped]
    exact h
  | false =>
    refine (self.step_moves clock input hstopped).preserves Move.silent ⟨?_, ?_, ?_⟩
    · rw [self.intake_state, h.state]
    · rw [GhostEngine.intake_pendingSync clock h.state, h.pendingSync]
    · rw [self.intake_sent]
      exact h.sent

/-- If zeroized, then without an item. -/
def Emptied (self : GhostEngine) : Prop := self.state = .zeroized → self.pendingSync = []

theorem Move.emptied (hmove : Move input a b) (h : Emptied a) :
    Emptied b := by
  cases hmove with
  | zeroize ts readings => exact fun _ => rfl
  | enter target hstate htarget => exact fun hzeroized => absurd hzeroized htarget
  | batch batch rest metrics ts readings hstate =>
    exact fun hzeroized => GhostState.noConfusion (hzeroized.symm.trans hstate)
  | log | report | count | beacon | hold | panic | stop => exact h

/-- Nothing but quiet events come after the one that reports the engine zeroized, and
    if there is one, then it is zeroized. -/
def Settled (self : GhostEngine) : Prop :=
  Guarded (GhostEvent.enters .zeroized) GhostEvent.quiet (· = .zeroized) self

theorem Move.settled (hmove : Move input a b) (h : Settled a) :
    Settled b := by
  cases hmove with
  | report | count | hold | stop => exact ⟨h.after, h.state⟩
  | log message ts readings =>
    exact h.append rfl (Or.inr rfl) (fun henters => absurd henters Bool.false_ne_true) id
  | enter target hstate htarget =>
    refine h.append rfl (Or.inl hstate) (fun henters => ?_) fun hz => absurd hz hstate
    exact absurd (of_decide_eq_true henters) htarget
  | beacon metrics fingerprint ts readings hstate =>
    exact h.append rfl (Or.inl hstate) (fun henters => absurd henters Bool.false_ne_true) id
  | batch batch rest metrics ts readings hstate =>
    refine h.append rfl (Or.inl ?_) (fun henters => absurd henters Bool.false_ne_true) id
    rw [hstate]
    decide
  | panic reason ts readings hstate =>
    refine h.append rfl (Or.inl ?_) (fun henters => absurd henters Bool.false_ne_true) id
    rw [hstate]
    decide
  | zeroize ts readings => exact h.zeroize rfl rfl rfl (fun hlive => Or.inl hlive) rfl

namespace Setup

variable (setup : Setup)

theorem after_emptied (inputs : List GhostInput) : Emptied (setup.after inputs) := by
  have hspawn : Emptied setup.spawnInner := fun h => GhostState.noConfusion h
  refine setup.after_invariant hspawn Move.emptied (fun input h hzeroized => ?_) inputs
  rw [GhostEngine.intake_state] at hzeroized
  rw [GhostEngine.intake_pendingSync _ hzeroized, h hzeroized]

theorem after_settled (inputs : List GhostInput) : Settled (setup.after inputs) := by
  have hspawn : Settled setup.spawnInner := ⟨List.Pairwise.nil, nofun⟩
  refine setup.after_invariant hspawn Move.settled (fun input h => ⟨?_, ?_⟩) inputs
  · rw [GhostEngine.intake_sent]
    exact h.after
  · rw [GhostEngine.intake_sent, GhostEngine.intake_state]
    exact h.state

theorem after_silent {before : List GhostInput} (h : (setup.after before).state = .zeroized)
    (later : List GhostInput) :
    Silent (setup.after before).sent (setup.after (before ++ later)) := by
  induction later using List.reverseRecOn with
  | nil =>
    rw [List.append_nil]
    exact ⟨h, setup.after_emptied before h, [], (List.append_nil _).symm, nofun⟩
  | append_singleton later input ih =>
    rw [← List.append_assoc, setup.after_concat]
    exact ih.step setup.clock input

/-- Once zeroized, the engine stays so, has no item, and sends no change of state, no
    beacon, no batch and no panic any more, also not in the step that zeroizes it once
    that has been reported. -/
theorem zeroized_final (before later : List GhostInput)
    (hzeroized : (setup.after before).state = .zeroized) :
    (setup.after (before ++ later)).state = .zeroized
      ∧ (setup.after (before ++ later)).pendingSync = []
      ∧ (∃ events, (setup.after (before ++ later)).sent = (setup.after before).sent ++ events
        ∧ ∀ event ∈ events, event.quiet = true)
      ∧ (setup.after (before ++ later)).sent.Pairwise
          fun event later => event.enters .zeroized = true → later.quiet = true := by
  have hsilent := setup.after_silent hzeroized later
  exact ⟨hsilent.state, hsilent.pendingSync, hsilent.sent, (setup.after_settled _).after⟩

end Setup

/-- An engine with the default configuration. -/
def defaultSetup : Setup where
  nodeId := "node"
  role := "client"
  config := .default none
  worldState := none
  clock := fun reading => 1000 * reading

/-- A panic zeroizes the engine, and a beacon tick comes after it. -/
theorem zeroized_final_panic :
    (defaultSetup.after [.command (.triggerPanic "tamper")]).state = .zeroized
      ∧ (defaultSetup.after
          ([.command (.triggerPanic "tamper")] ++ [.beaconTick])).state = .zeroized := by
  have hzeroized : (defaultSetup.after [.command (.triggerPanic "tamper")]).state = .zeroized := by
    decide +kernel
  exact ⟨hzeroized, (defaultSetup.zeroized_final _ [.beaconTick] hzeroized).1⟩

/-! ### What is left in it -/

/-- Nothing but defaults in the fields that zeroizing clears, the items apart. -/
def GhostEngine.Clean (self : GhostEngine) : Prop :=
  self.metrics = {} ∧ self.wakeCyclesLeft = 0 ∧ self.tamperDetected = false

instance (self : GhostEngine) : Decidable self.Clean :=
  inferInstanceAs (Decidable (_ ∧ _ ∧ _))

/-- Whether an input writes something else than a default, whatever the state. -/
def GhostInput.soils : GhostInput → Bool
  | .beaconTick => true
  | .command (.updateMetrics connectedPeers knownPeers routePeers) =>
    connectedPeers ≠ 0 || knownPeers ≠ 0 || routePeers ≠ 0
  | .command (.setTamper tamper) => tamper
  | _ => false

/-- If zeroized, then clean. -/
def CleanIfZeroized (self : GhostEngine) : Prop := self.state = .zeroized → self.Clean

theorem Move.clean {a b : GhostEngine} (hmove : Move input a b) (h : CleanIfZeroized a) :
    CleanIfZeroized b := by
  cases hmove with
  | zeroize ts readings => exact fun _ => ⟨rfl, rfl, rfl⟩
  | enter target hstate htarget => exact fun hzeroized => absurd hzeroized htarget
  | count wakeCyclesLeft hstate => exact fun hzeroized => absurd hzeroized hstate
  | beacon metrics fingerprint ts readings hstate =>
    exact fun hzeroized => absurd hzeroized hstate
  | hold metrics readings hstate =>
    exact fun hzeroized => GhostState.noConfusion (hzeroized.symm.trans hstate)
  | batch batch rest metrics ts readings hstate =>
    exact fun hzeroized => GhostState.noConfusion (hzeroized.symm.trans hstate)
  | log | report | panic | stop => exact h

namespace GhostEngine

variable (clock : Nat → Nat) {self : GhostEngine}

theorem intake_clean {input : GhostInput} (h : self.Clean) (hinput : input.soils = false) :
    (self.intake clock input).Clean := by
  obtain ⟨hmetrics, hcycles, htamper⟩ := h
  unfold intake
  split
  · exact absurd hinput (by decide)
  · split <;> exact ⟨hmetrics, hcycles, htamper⟩
  · simp only [GhostInput.soils, Bool.or_eq_false_iff, decide_eq_false_iff_not, not_not] at hinput
    obtain ⟨⟨rfl, rfl⟩, rfl⟩ := hinput
    refine ⟨?_, hcycles, htamper⟩
    rw [hmetrics]
  · exact ⟨hmetrics, hcycles, hinput⟩
  · exact ⟨hmetrics, hcycles, htamper⟩

theorem step_soiled {input : GhostInput} (hstate : self.state = .zeroized)
    (hrunning : self.stopped = false) (hinput : input.soils = true) :
    ¬ (self.step clock input).Clean := by
  rintro ⟨hmetrics, -, htamper⟩
  have hnot : ¬ self.stopped = true := by
    rw [hrunning]
    exact Bool.false_ne_true
  unfold step at hmetrics htamper
  rw [if_neg hnot] at hmetrics htamper
  cases input with
  | beaconTick =>
    -- The time of the pulse is there.
    have hpulse := congrArg GhostMetrics.lastPulseTs hmetrics
    simp [hstate] at hpulse
  | syncTick => exact Bool.noConfusion hinput
  | closed => exact Bool.noConfusion hinput
  | command cmd =>
    cases cmd with
    | updateMetrics connectedPeers knownPeers routePeers =>
      dsimp only [onCommand] at hmetrics
      rw [runCycle_of_zeroized _ _ (by simpa using hstate), publish_metrics,
        GhostMetrics.mk.injEq] at hmetrics
      obtain ⟨rfl, rfl, rfl, -⟩ := hmetrics
      exact absurd hinput (by decide)
    | setTamper tamper =>
      obtain rfl : tamper = true := hinput
      simp [onCommand, hstate] at htamper
    | wake | sleep | enqueueSync | triggerSync | triggerBeacon | triggerPanic | zeroize
    | observeSignal => exact Bool.noConfusion hinput

end GhostEngine

/-- The engine is clean whenever it is zeroized, exactly if none of the inputs that soil
    it is taken while it is zeroized and the loop goes on. -/
theorem zeroized_clean_iff (setup : Setup) (inputs : List GhostInput) :
    (∀ before, before <+: inputs → (setup.after before).state = .zeroized →
        (setup.after before).Clean)
      ↔ ∀ before input, before ++ [input] <+: inputs → (setup.after before).state = .zeroized →
          (setup.after before).stopped = false → input.soils = false := by
  constructor
  · intro hclean before input hinitial hzeroized hrunning
    refine Bool.eq_false_iff.mpr fun hsoils => ?_
    have hstill := (setup.after_silent hzeroized [input]).state
    have hafter := hclean _ hinitial hstill
    rw [setup.after_concat] at hafter
    exact GhostEngine.step_soiled setup.clock hzeroized hrunning hsoils hafter
  · intro hinputs before
    induction before using List.reverseRecOn with
    | nil =>
      intro _
      have hspawn : CleanIfZeroized setup.spawnInner := fun h => GhostState.noConfusion h
      have hboot : CleanIfZeroized (setup.spawnInner.boot setup.clock) :=
        (boot_moves setup .closed).preserves Move.clean hspawn
      rw [setup.after_nil]
      exact hboot
    | append_singleton before input ih =>
      intro hinitial
      have hclean : CleanIfZeroized (setup.after before) :=
        ih ((List.prefix_append _ _).trans hinitial)
      rw [setup.after_concat]
      cases hstopped : (setup.after before).stopped with
      | true =>
        rw [GhostEngine.step_of_stopped _ _ input hstopped]
        exact hclean
      | false =>
        refine (GhostEngine.step_moves _ _ input hstopped).preserves Move.clean
          fun hzeroized => ?_
        rw [GhostEngine.intake_state] at hzeroized
        exact GhostEngine.intake_clean _ (hclean hzeroized)
          (hinputs before input hinitial hzeroized hstopped)

/-- The loop goes on after a panic, and the next tick of the beacon timer leaves its time
    in the zeroized engine. -/
theorem zeroized_pulse :
    let engine := defaultSetup.after [.command (.triggerPanic "tamper"), .beaconTick]
    engine.state = .zeroized ∧ engine.metrics.lastPulseTs.isSome ∧ ¬ engine.Clean := by
  decide +kernel

end Ghost

end EssNode
