import EssNode.Ghost.Zeroized

/-!
# Isolation in Panic

An engine in panic should be left only by zeroizing it, and should neither send beacons
nor batches any more.

With the default configuration a panic zeroizes the engine in the same step, and this
holds. Without that, the engine stays in panic, and two commands are not checked against
it. The command to sleep puts the engine to sleep, from where it can be woken; the
transition only refuses to go from panic to a beacon. And the command for a beacon sends
one, although the transition before it is refused. All other inputs are checked: a cycle
finds the engine in a critical state and panics once more, and the items stay where they
are.
-/

namespace EssNode

open List

namespace Ghost

open GhostEngine

/-- Whether an event is no beacon, no batch and no change to a state but zeroized. -/
def GhostEvent.isolated : GhostEvent → Bool
  | .beacon .. | .syncBatch .. => false
  | .stateChanged _ _ target => target = .zeroized
  | _ => true

/-- What comes of a run after panic was entered: the state is panic or zeroized, and
    every event is one of an isolated engine. -/
structure Isolated (setup : Setup) (inputs : List GhostInput) : Prop where
  state : ∀ before later, before <+: later → later <+: inputs →
    (setup.after before).state = .panic →
      (setup.after later).state = .panic ∨ (setup.after later).state = .zeroized
  sent : (setup.after inputs).sent.Pairwise
    fun event later => event.enters .panic = true → later.isolated = true

/-- The same of one engine, by what it sent. -/
def Isolating (self : GhostEngine) : Prop :=
  Guarded (GhostEvent.enters .panic) GhostEvent.isolated
    (fun state => state = .panic ∨ state = .zeroized) self

variable {input : GhostInput} {a b : GhostEngine}

theorem Move.isolating (hmove : Move input a b)
    (h : Isolating a ∧ (input.unchecked = true → a.state ≠ .panic)) :
    Isolating b ∧ (input.unchecked = true → b.state ≠ .panic) := by
  obtain ⟨h, hunchecked⟩ := h
  -- A move that only an unchecked input makes in panic is not made in panic.
  have hfree : (a.state = .panic → input.unchecked = true) → a.state ≠ .zeroized →
      ¬ (a.state = .panic ∨ a.state = .zeroized) := by
    rintro hinput hlive (hpanic | hzeroized)
    · exact hunchecked (hinput hpanic) hpanic
    · exact hlive hzeroized
  cases hmove with
  | report | count | hold | stop => exact ⟨⟨h.after, h.state⟩, hunchecked⟩
  | log message ts readings =>
    exact ⟨h.append rfl (Or.inr rfl) (fun henters => absurd henters Bool.false_ne_true) id,
      hunchecked⟩
  | panic reason ts readings =>
    exact ⟨h.append rfl (Or.inr rfl) (fun henters => absurd henters Bool.false_ne_true) id,
      hunchecked⟩
  | enter target hstate htarget hcause hpanic =>
    refine ⟨h.append rfl (Or.inl (hfree hpanic hstate))
      (fun henters => Or.inl (of_decide_eq_true henters))
      fun hheld => absurd hheld (hfree hpanic hstate), fun hinput htopanic => ?_⟩
    exact Bool.noConfusion ((hcause htopanic).symm.trans hinput)
  | beacon metrics fingerprint ts readings hstate hpanic =>
    exact ⟨h.append rfl (Or.inl (hfree hpanic hstate))
      (fun henters => absurd henters Bool.false_ne_true) id, hunchecked⟩
  | batch batch rest metrics ts readings hsync =>
    refine ⟨h.append rfl (Or.inl ?_) (fun henters => absurd henters Bool.false_ne_true) id,
      hunchecked⟩
    rw [hsync]
    decide
  | zeroize ts readings =>
    exact ⟨h.zeroize rfl (Or.inr rfl) rfl (fun _ => Or.inr rfl) rfl, nofun⟩

/-- If in panic, then that was reported. -/
def Announced (self : GhostEngine) : Prop :=
  self.state = .panic → ∃ event ∈ self.sent, event.enters .panic = true

theorem Move.announced (hmove : Move input a b) (h : Announced a) : Announced b := by
  intro hpanic
  cases hmove with
  | enter target =>
    refine ⟨_, mem_append_right _ (mem_singleton_self _), ?_⟩
    exact decide_eq_true hpanic
  | zeroize ts readings => exact GhostState.noConfusion hpanic
  | report | count | hold | stop => exact h hpanic
  | log | beacon | batch | panic =>
    obtain ⟨event, hevent, henters⟩ := h hpanic
    exact ⟨event, mem_append_left _ hevent, henters⟩

/-! ### The two commands -/

theorem GhostInput.unchecked_eq_false_iff (input : GhostInput) :
    input.unchecked = false ↔ input ≠ .command .sleep ∧ input ≠ .command .triggerBeacon := by
  cases input with
  | command cmd => cases cmd <;> simp [GhostInput.unchecked]
  | beaconTick | syncTick | closed => simp [GhostInput.unchecked]

namespace GhostEngine

variable (clock : Nat → Nat) {self : GhostEngine}

theorem ne_zeroized_of_panic (hpanic : self.state = .panic) : self.state ≠ .zeroized := by
  rw [hpanic]
  decide

theorem step_sleep (hpanic : self.state = .panic) (hrunning : self.stopped = false) :
    (self.step clock (.command .sleep)).state = .sleep := by
  have hlive := ne_zeroized_of_panic hpanic
  rw [self.step_command clock .sleep hrunning]
  dsimp only [onCommand]
  rw [if_pos hlive, publish_state]
  exact transition_state _ hlive fun _ => GhostState.noConfusion

theorem performBeacon_of_panic (hpanic : self.state = .panic) :
    (self.performBeacon clock).state = .panic
      ∧ ∃ beacon, (self.performBeacon clock).sent = self.sent ++ [beacon]
        ∧ beacon.isolated = false := by
  have hlive := ne_zeroized_of_panic hpanic
  unfold performBeacon
  rw [if_neg hlive, self.transition_of_eq (Or.inr (Or.inl ⟨hpanic, rfl⟩))]
  exact ⟨hpanic, _, rfl, rfl⟩

theorem runCycle_forceBeacon (hpanic : self.state = .panic) :
    ∃ events beacon, (self.runCycle clock .forceBeacon).sent = self.sent ++ events ++ [beacon]
      ∧ beacon.isolated = false := by
  have hlive := ne_zeroized_of_panic hpanic
  obtain ⟨decision, announced, hrun, hmoves, hkept, -, -, hforced⟩ :=
    self.runCycle_cases clock .forceBeacon hlive
  obtain rfl := hforced rfl
  obtain ⟨events, hevents⟩ := (hmoves .syncTick).sent_extends
  obtain ⟨hstate, beacon, hsent, hbeacon⟩ :=
    performBeacon_of_panic clock (hkept.trans hpanic)
  refine ⟨events, beacon, ?_, hbeacon⟩
  rw [hevents, ← hsent, hrun]
  -- In panic the cycle ends with the beacon.
  have hended : (announced.performBeacon clock).afterActivePulse clock
      = announced.performBeacon clock := by
    unfold afterActivePulse
    rw [if_pos (Or.inr hstate)]
  change ((announced.performBeacon clock).afterActivePulse clock).sent = _
  rw [hended]

theorem step_triggerBeacon (hpanic : self.state = .panic) (hrunning : self.stopped = false) :
    ∃ events beacon, (self.step clock (.command .triggerBeacon)).sent
        = self.sent ++ events ++ [beacon]
      ∧ beacon.isolated = false := by
  have hlive := ne_zeroized_of_panic hpanic
  rw [self.step_command clock .triggerBeacon hrunning]
  dsimp only [onCommand]
  rw [if_pos hlive]
  exact runCycle_forceBeacon clock hpanic

end GhostEngine

/-! ### Runs -/

namespace Setup

variable (setup : Setup)

theorem after_announced (inputs : List GhostInput) : Announced (setup.after inputs) := by
  have hspawn : Announced setup.spawnInner := fun h => GhostState.noConfusion h
  refine setup.after_invariant hspawn Move.announced (fun input h hpanic => ?_) inputs
  rw [intake_state] at hpanic
  rw [intake_sent]
  exact h hpanic

theorem after_isolating {inputs : List GhostInput}
    (hinputs : ∀ before input, before ++ [input] <+: inputs →
      (setup.after before).state = .panic → (setup.after before).stopped = false →
        input.unchecked = false) : Isolating (setup.after inputs) := by
  induction inputs using reverseRecOn with
  | nil =>
    have hspawn : Isolating setup.spawnInner := ⟨List.Pairwise.nil, nofun⟩
    have hclosed : GhostInput.closed.unchecked = true → setup.spawnInner.state ≠ .panic := nofun
    exact ((boot_moves setup .closed).preserves Move.isolating ⟨hspawn, hclosed⟩).1
  | append_singleton inputs input ih =>
    have hbefore : Isolating (setup.after inputs) := ih fun before input hinitial =>
      hinputs before input (hinitial.trans (prefix_append _ _))
    rw [setup.after_concat]
    cases hstopped : (setup.after inputs).stopped with
    | true =>
      rw [step_of_stopped _ _ input hstopped]
      exact hbefore
    | false =>
      refine ((step_moves _ _ input hstopped).preserves Move.isolating
        ⟨⟨?_, ?_⟩, fun hunchecked hpanic => ?_⟩).1
      · rw [intake_sent]
        exact hbefore.after
      · rw [intake_sent, intake_state]
        exact hbefore.state
      · rw [intake_state] at hpanic
        have hchecked := hinputs inputs input prefix_rfl hpanic hstopped
        exact Bool.noConfusion (hchecked.symm.trans hunchecked)

theorem isolated_iff (inputs : List GhostInput) :
    Isolated setup inputs
      ↔ ∀ before input, before ++ [input] <+: inputs → (setup.after before).state = .panic →
          (setup.after before).stopped = false →
            input ≠ .command .sleep ∧ input ≠ .command .triggerBeacon := by
  constructor
  · rintro ⟨hstate, hsent⟩ before input hinitial hpanic hrunning
    constructor
    · rintro rfl
      have hleft := hstate before _ (prefix_append _ _) hinitial hpanic
      rw [setup.after_concat, step_sleep _ hpanic hrunning] at hleft
      exact absurd hleft (by decide)
    · rintro rfl
      -- That panic was entered was reported, and the beacon comes after it.
      obtain ⟨event, hevent, henters⟩ := setup.after_announced before hpanic
      obtain ⟨events, beacon, hbeacon, hisolated⟩ :=
        step_triggerBeacon setup.clock hpanic hrunning
      have hshort := hsent.sublist (setup.after_sent_extends hinitial).sublist
      rw [setup.after_concat, hbeacon, pairwise_append] at hshort
      have hallowed := hshort.2.2 event (mem_append_left _ hevent) beacon
        (mem_singleton_self _) henters
      exact Bool.noConfusion (hisolated.symm.trans hallowed)
  · intro hinputs
    have hisolating : ∀ later, later <+: inputs → Isolating (setup.after later) :=
      fun later hlater => setup.after_isolating fun before input hinitial hpanic hrunning =>
        (GhostInput.unchecked_eq_false_iff input).mpr
          (hinputs before input (hinitial.trans hlater) hpanic hrunning)
    refine ⟨fun before later hbefore hlater hpanic => ?_,
      (hisolating inputs prefix_rfl).after⟩
    obtain ⟨event, hevent, henters⟩ := setup.after_announced before hpanic
    exact (hisolating later hlater).state event
      ((setup.after_sent_extends hbefore).subset hevent) henters

end Setup

/-! ### A panic that zeroizes -/

namespace GhostEngine

variable (clock : Nat → Nat) {self : GhostEngine}

theorem transition_ne_panic {target : GhostState} (htarget : target ≠ .panic)
    (h : self.state ≠ .panic) : (self.transition target).state ≠ .panic := by
  rcases self.transition_cases target with ⟨heq, -⟩ | ⟨heq, -⟩
  · rw [heq]
    exact h
  · rw [heq]
    exact htarget

theorem performZeroize_state : (self.performZeroize clock).state = .zeroized :=
  self.wiped.transition_zeroized_state

theorem performBeacon_ne_panic (h : self.state ≠ .panic) :
    (self.performBeacon clock).state ≠ .panic := by
  unfold performBeacon
  split_ifs
  · exact h
  · exact transition_ne_panic (by decide) h

theorem performSyncIfNeeded_ne_panic (force : Bool) (h : self.state ≠ .panic) :
    (self.performSyncIfNeeded clock force).state ≠ .panic := by
  have hsync : (self.transition .sync).state ≠ .panic := transition_ne_panic (by decide) h
  unfold performSyncIfNeeded
  split_ifs
  · exact h
  · exact h
  · refine transition_ne_panic (by decide) ?_
    split
    · exact hsync
    · exact hsync

theorem performPanic_ne_panic (reason : String) (hconfig : self.config.zeroizeOnPanic = true)
    (h : self.state ≠ .panic) : (self.performPanic clock reason).state ≠ .panic := by
  have hkept : (self.transition .panic).config.zeroizeOnPanic = true := by
    rw [transition_config]
    exact hconfig
  unfold performPanic
  split
  · exact h
  · refine ne_of_eq_of_ne (b := GhostState.zeroized) ?_ (by decide)
    dsimp only
    exact (congrArg state (if_pos hkept)).trans (performZeroize_state clock)

theorem act_ne_panic (decision : GhostDecision) (hconfig : self.config.zeroizeOnPanic = true)
    (h : self.state ≠ .panic) : (self.act clock decision).state ≠ .panic := by
  cases decision with
  | beacon => exact performBeacon_ne_panic clock h
  | sync force => exact performSyncIfNeeded_ne_panic clock force h
  | panic reason => exact performPanic_ne_panic clock reason hconfig h
  | sleep =>
    dsimp only [act]
    split_ifs
    · exact transition_ne_panic (by decide) h
    · exact h
  | idle =>
    dsimp only [act]
    split_ifs
    · exact transition_ne_panic (by decide) h
    · exact h

theorem afterActivePulse_ne_panic (h : self.state ≠ .panic) :
    (self.afterActivePulse clock).state ≠ .panic := by
  unfold afterActivePulse
  dsimp only
  split_ifs
  · exact h
  · rw [publish_state]
    exact transition_ne_panic (by decide) h
  · rw [publish_state]
    exact h
  · rw [publish_state]
    exact transition_ne_panic (by decide) h
  · exact h

theorem runCycle_ne_panic (trigger : CycleTrigger) (hconfig : self.config.zeroizeOnPanic = true)
    (h : self.state ≠ .panic) : (self.runCycle clock trigger).state ≠ .panic := by
  by_cases hlive : self.state = .zeroized
  · rw [self.runCycle_of_zeroized clock hlive]
    exact h
  obtain ⟨decision, announced, hrun, -, hstate, hkept, -⟩ :=
    self.runCycle_cases clock trigger hlive
  rw [hrun]
  refine afterActivePulse_ne_panic clock (act_ne_panic clock decision ?_ ?_)
  · rw [hkept]
    exact hconfig
  · rw [hstate]
    exact h

theorem publish_runCycle_ne_panic (message : String) (trigger : CycleTrigger)
    (hconfig : self.config.zeroizeOnPanic = true) (h : self.state ≠ .panic) :
    ((self.publish clock message).runCycle clock trigger).state ≠ .panic := by
  refine runCycle_ne_panic clock trigger ?_ ?_
  · rw [publish_config]
    exact hconfig
  · rw [publish_state]
    exact h

theorem onCommand_ne_panic (cmd : GhostCommand) (hconfig : self.config.zeroizeOnPanic = true)
    (h : self.state ≠ .panic) : (self.onCommand clock cmd).state ≠ .panic := by
  cases cmd with
  | wake =>
    dsimp only [onCommand]
    split_ifs
    · refine runCycle_ne_panic clock .wake ?_ (transition_ne_panic (by decide) h)
      rw [transition_config]
      exact hconfig
    · exact h
  | sleep =>
    dsimp only [onCommand]
    split_ifs
    · rw [publish_state]
      exact transition_ne_panic (by decide) h
    · exact h
  | enqueueSync item =>
    dsimp only [onCommand]
    split_ifs
    · exact publish_runCycle_ne_panic clock _ .manual hconfig h
    · exact h
  | triggerSync | triggerBeacon | triggerPanic =>
    dsimp only [onCommand]
    split_ifs
    · exact runCycle_ne_panic clock _ hconfig h
    · exact h
  | zeroize =>
    dsimp only [onCommand]
    rw [publish_state, performZeroize_state]
    decide
  | updateMetrics connectedPeers knownPeers routePeers =>
    exact publish_runCycle_ne_panic clock _ .manual hconfig h
  | setTamper tamper =>
    dsimp only [onCommand]
    split_ifs
    · exact publish_runCycle_ne_panic clock _ _ hconfig h
    · rw [publish_state]
      exact h
  | observeSignal signal => exact publish_runCycle_ne_panic clock _ .manual hconfig h

theorem step_ne_panic (input : GhostInput) (hconfig : self.config.zeroizeOnPanic = true)
    (h : self.state ≠ .panic) : (self.step clock input).state ≠ .panic := by
  unfold step
  split
  · exact h
  cases input with
  | beaconTick =>
    dsimp only
    split_ifs
    · exact runCycle_ne_panic clock .pulse hconfig h
    · rw [publish_state]
      exact h
  | syncTick =>
    dsimp only
    split_ifs
    · exact runCycle_ne_panic clock .syncTick hconfig h
    · rw [publish_state]
      exact h
  | command cmd => exact onCommand_ne_panic clock cmd hconfig h
  | closed => exact h

end GhostEngine

theorem Setup.after_ne_panic (setup : Setup) (hconfig : setup.config.zeroizeOnPanic = true)
    (inputs : List GhostInput) : (setup.after inputs).state ≠ .panic := by
  induction inputs using reverseRecOn with
  | nil =>
    rw [setup.after_nil, boot, publish_state]
    exact transition_ne_panic (by decide) nofun
  | append_singleton inputs input ih =>
    rw [setup.after_concat]
    refine step_ne_panic _ input ?_ ih
    rw [setup.after_config]
    exact hconfig

/-- A panic isolates the engine exactly if neither the command to sleep nor the command
    for a beacon is taken while it is in panic; so always if a panic zeroizes. -/
theorem Setup.panic_isolates (setup : Setup) (inputs : List GhostInput) :
    (Isolated setup inputs
      ↔ ∀ before input, before ++ [input] <+: inputs → (setup.after before).state = .panic →
          (setup.after before).stopped = false →
            input ≠ .command .sleep ∧ input ≠ .command .triggerBeacon)
      ∧ (setup.config.zeroizeOnPanic = true → Isolated setup inputs) := by
  refine ⟨setup.isolated_iff inputs, fun hconfig => (setup.isolated_iff inputs).mpr ?_⟩
  intro before input _ hpanic
  exact absurd hpanic (setup.after_ne_panic hconfig before)

/-- A configuration in which a panic does not zeroize. -/
def lenientSetup : Setup :=
  { defaultSetup with config := { GhostConfig.default none with zeroizeOnPanic := false } }

def GhostEvent.isBeacon : GhostEvent → Bool
  | .beacon .. => true
  | _ => false

/-- An engine in panic goes to sleep on command, and sends a beacon on command. -/
theorem lenient_not_isolated :
    (lenientSetup.after [.command (.triggerPanic "tamper")]).state = .panic
      ∧ (lenientSetup.after [.command (.triggerPanic "tamper"), .command .sleep]).state = .sleep
      ∧ (lenientSetup.after [.command (.triggerPanic "tamper"),
          .command .triggerBeacon]).sent.any GhostEvent.isBeacon = true
      ∧ ¬ Isolated lenientSetup [.command (.triggerPanic "tamper"), .command .sleep] := by
  have hruns : (lenientSetup.after [.command (.triggerPanic "tamper")]).state = .panic
      ∧ (lenientSetup.after [.command (.triggerPanic "tamper"), .command .sleep]).state = .sleep
      ∧ (lenientSetup.after [.command (.triggerPanic "tamper"),
          .command .triggerBeacon]).sent.any GhostEvent.isBeacon = true := by
    decide +kernel
  refine ⟨hruns.1, hruns.2.1, hruns.2.2, fun hisolated => ?_⟩
  have hleft := hisolated.state [.command (.triggerPanic "tamper")]
    [.command (.triggerPanic "tamper"), .command .sleep] (prefix_append _ _)
    prefix_rfl hruns.1
  rw [hruns.2.1] at hleft
  exact absurd hleft (by decide)

end Ghost

end EssNode
