import EssNode.Ghost.Moves

/-!
# What the Ghost Engine Reports

The engine reports its state to the world state again and again, within a step as well as from
step to step. A report is always of the state it is in. Being zeroized is not left, so once the
engine has reported that it is zeroized, it reports nothing else: this holds of any two reports
of a run, also of those that are made in the step that zeroizes the engine.

The moves of the engine do not say what is reported, so the functions are gone through here once
more. Each of them adds reports behind those there are, and goes from a sincere engine to
another.
-/

namespace EssNode

namespace Ghost

def GhostEngine.reports (self : GhostEngine) : List GhostReport := self.worldState.getD []

theorem display_eq_zeroized {state : GhostState} (h : state.display = "zeroized") :
    state = .zeroized := by
  cases state with
  | zeroized => rfl
  | init | sleep | wake | beacon | sync | idle | panic => exact absurd h (by decide)

/-- Once it has reported that it is zeroized, the engine is, and reports nothing else. -/
structure Sincere (engine : GhostEngine) : Prop where
  later : engine.reports.Pairwise fun report later =>
    report.ghostState = "zeroized" → later.ghostState = "zeroized"
  state : ∀ report ∈ engine.reports, report.ghostState = "zeroized" → engine.state = .zeroized

/-- From one engine to another: nothing that was reported is taken back, and a sincere engine
    stays so. -/
structure Reporting (a b : GhostEngine) : Prop where
  appended : a.reports <+: b.reports
  sincere : Sincere a → Sincere b

namespace Reporting

theorem refl (a : GhostEngine) : Reporting a a := ⟨List.prefix_rfl, id⟩

variable {a b c : GhostEngine}

theorem trans (h₁ : Reporting a b) (h₂ : Reporting b c) : Reporting a c :=
  ⟨h₁.appended.trans h₂.appended, fun h => h₂.sincere (h₁.sincere h)⟩

theorem of_reports (hworld : b.worldState = a.worldState)
    (hstate : a.state = .zeroized → b.state = .zeroized) : Reporting a b := by
  have hreports : b.reports = a.reports := congrArg (·.getD []) hworld
  refine ⟨hreports ▸ List.prefix_rfl, fun h => ⟨hreports ▸ h.later, ?_⟩⟩
  rw [hreports]
  exact fun report hreport hzeroized => hstate (h.state report hreport hzeroized)

theorem behind (h : Reporting b c) (hworld : b.worldState = a.worldState)
    (hstate : a.state = .zeroized → b.state = .zeroized) : Reporting a c :=
  (of_reports hworld hstate).trans h

end Reporting

namespace GhostEngine

variable (clock : Nat → Nat) (self : GhostEngine)

theorem reporting_syncWorldState (signal : Option String) :
    Reporting self (self.syncWorldState signal) := by
  cases hworld : self.worldState with
  | none => exact .of_reports (by rw [syncWorldState, hworld]; rfl) id
  | some reports =>
    have hbefore : self.reports = reports := by rw [GhostEngine.reports, hworld]; rfl
    have hafter : (self.syncWorldState signal).reports
        = self.reports ++ [⟨self.state.display, self.healthLabel, signal⟩] := by
      rw [hbefore, GhostEngine.reports, syncWorldState, hworld]
      rfl
    refine ⟨hafter ▸ List.prefix_append _ _, fun h => ⟨?_, ?_⟩⟩
    · rw [hafter, List.pairwise_append]
      refine ⟨h.later, List.pairwise_singleton _ _, fun report hreport new hnew hzeroized => ?_⟩
      rw [List.mem_singleton.mp hnew, h.state report hreport hzeroized]
      rfl
    · rw [hafter]
      intro report hreport hzeroized
      rcases List.mem_append.mp hreport with hold | hnew
      · exact h.state report hold hzeroized
      · rw [List.mem_singleton.mp hnew] at hzeroized
        exact display_eq_zeroized hzeroized

theorem reporting_transition (target : GhostState) : Reporting self (self.transition target) := by
  rcases self.transition_cases target with ⟨heq, -⟩ | ⟨heq, hstate, -⟩
  · rw [heq]
    exact .refl self
  · rw [heq]
    exact .of_reports rfl fun h => absurd h hstate

theorem reporting_publish (message : String) : Reporting self (self.publish clock message) := by
  unfold publish
  dsimp only
  have hlog : Reporting self (self.sendAt clock (.log self.nodeId message)) := .of_reports rfl id
  split
  · exact hlog
  · exact hlog.trans (reporting_syncWorldState _ _)

theorem reporting_publishAll (messages : List String) :
    Reporting self (self.publishAll clock messages) := by
  induction messages generalizing self with
  | nil => exact .refl self
  | cons message messages ih =>
    exact (self.reporting_publish clock message).trans (ih (self.publish clock message))

theorem reporting_performBeacon : Reporting self (self.performBeacon clock) := by
  unfold performBeacon
  split_ifs
  · exact .refl self
  · exact (self.reporting_transition .beacon).trans (.of_reports rfl id)

theorem reporting_performSyncIfNeeded (force : Bool) :
    Reporting self (self.performSyncIfNeeded clock force) := by
  unfold performSyncIfNeeded
  split_ifs
  · exact .refl self
  · exact .refl self
  · refine (self.reporting_transition .sync).trans ?_
    dsimp only
    split
    · exact (reporting_transition _ .idle).behind rfl id
    · exact (reporting_transition _ .idle).behind rfl id

theorem reporting_performZeroize : Reporting self (self.performZeroize clock) := by
  have hwiped : Reporting self (self.wiped.transition .zeroized) :=
    (reporting_transition self.wiped .zeroized).behind rfl id
  exact hwiped.trans ((reporting_syncWorldState _ _).behind rfl id)

theorem reporting_performPanic (reason : String) :
    Reporting self (self.performPanic clock reason) := by
  unfold performPanic
  split
  · exact .refl self
  · have hreport : Reporting self
        (((self.transition .panic).sendAt clock
          (.panic (self.transition .panic).nodeId reason)).syncWorldState
            (some ("ghost_panic:" ++ reason))) :=
      (self.reporting_transition .panic).trans ((reporting_syncWorldState _ _).behind rfl id)
    dsimp only
    split
    · exact hreport.trans (reporting_performZeroize clock _)
    · exact hreport

theorem reporting_afterActivePulse : Reporting self (self.afterActivePulse clock) := by
  unfold afterActivePulse
  split
  · exact .refl self
  · dsimp only
    split_ifs
    · exact ((reporting_transition _ .idle).trans (reporting_publish clock _ _)).behind rfl id
    · exact (reporting_publish clock _ _).behind rfl id
    · exact ((reporting_transition _ .sleep).trans (reporting_publish clock _ _)).behind rfl id
    · exact .of_reports rfl id

theorem reporting_act (decision : GhostDecision) : Reporting self (self.act clock decision) := by
  cases decision with
  | beacon => exact self.reporting_performBeacon clock
  | sync force => exact self.reporting_performSyncIfNeeded clock force
  | panic reason => exact self.reporting_performPanic clock reason
  | sleep | idle =>
    simp only [act]
    split
    · exact self.reporting_transition _
    · exact .refl self

theorem reporting_decisions (decisions : List GhostDecision) :
    Reporting self (decisions.foldl (fun self decision =>
      (self.publish clock ("ghost_decision:\"" ++ decisionName decision ++ "\"")).act clock
        decision) self) := by
  induction decisions generalizing self with
  | nil => exact .refl self
  | cons decision decisions ih =>
    exact ((self.reporting_publish clock _).trans (reporting_act clock _ decision)).trans (ih _)

theorem reporting_runCycle (trigger : CycleTrigger) :
    Reporting self (self.runCycle clock trigger) := by
  unfold runCycle
  split
  · exact .refl self
  · dsimp only
    have hreasons := self.reporting_publishAll clock
      ((self.assess self.observe).reasons.map ("ghost_assess:" ++ ·))
    split
    · exact hreasons.trans ((reporting_publish clock _ _).trans (reporting_syncWorldState _ _))
    · exact (hreasons.trans (reporting_decisions clock _ _)).trans
        ((reporting_afterActivePulse clock _).trans (reporting_syncWorldState _ _))

theorem reporting_onCommand (cmd : GhostCommand) : Reporting self (self.onCommand clock cmd) := by
  cases cmd with
  | wake =>
    simp only [onCommand]
    split
    · exact ((reporting_transition _ .wake).trans (reporting_runCycle clock _ _)).behind rfl id
    · exact .refl self
  | sleep =>
    simp only [onCommand]
    split
    · exact ((reporting_transition _ .sleep).trans (reporting_publish clock _ _)).behind rfl id
    · exact .refl self
  | enqueueSync item =>
    simp only [onCommand]
    split
    · exact ((reporting_publish clock _ _).trans (reporting_runCycle clock _ _)).behind rfl id
    · exact .refl self
  | triggerSync | triggerBeacon | triggerPanic =>
    simp only [onCommand]
    split
    · exact self.reporting_runCycle clock _
    · exact .refl self
  | zeroize =>
    simp only [onCommand]
    have hpublished := (self.reporting_performZeroize clock).trans
      (reporting_publish clock _ "ghost_cmd_zeroize")
    exact hpublished.trans (.of_reports rfl id)
  | updateMetrics c k r =>
    exact ((reporting_publish clock _ _).trans (reporting_runCycle clock _ _)).behind rfl id
  | setTamper tamper =>
    simp only [onCommand]
    split
    · exact ((reporting_publish clock _ _).trans (reporting_runCycle clock _ _)).behind rfl id
    · exact (reporting_publish clock _ _).behind rfl id
  | observeSignal signal =>
    exact (self.reporting_publish clock _).trans (reporting_runCycle clock _ _)

theorem reporting_step (input : GhostInput) : Reporting self (self.step clock input) := by
  unfold step
  split
  · exact .refl self
  · cases input with
    | beaconTick =>
      dsimp only
      split
      · exact (reporting_runCycle clock _ _).behind rfl id
      · exact (reporting_publish clock _ _).behind rfl id
    | syncTick =>
      dsimp only
      split
      · exact self.reporting_runCycle clock _
      · exact self.reporting_publish clock _
    | command cmd => exact self.reporting_onCommand clock cmd
    | closed => exact .of_reports rfl id

theorem reporting_boot : Reporting self (self.boot clock) :=
  (self.reporting_transition .sleep).trans (reporting_publish clock _ _)

/-! ### Zeroizing -/

theorem reports_zeroize {self : GhostEngine} (h : self.worldState.isSome) :
    ∃ report rest, (self.onCommand clock .zeroize).reports = self.reports ++ report :: rest ∧
      report.ghostState = "zeroized" := by
  obtain ⟨reports, hreports⟩ := Option.isSome_iff_exists.mp h
  -- Nothing is reported before the state has changed.
  have hkept : (self.wiped.transition .zeroized).worldState = some reports := by
    rcases self.wiped.transition_cases .zeroized with ⟨heq, -⟩ | ⟨heq, -⟩ <;> rw [heq] <;>
      exact hreports
  have hfirst : (self.performZeroize clock).reports
      = self.reports ++ [⟨(self.wiped.transition .zeroized).state.display,
          (self.wiped.transition .zeroized).healthLabel, some "ghost_zeroized"⟩] := by
    change ((self.wiped.transition .zeroized).worldState.map _).getD [] = _
    rw [hkept, GhostEngine.reports, hreports]
    rfl
  obtain ⟨rest, hrest⟩ := (reporting_publish clock (self.performZeroize clock)
    "ghost_cmd_zeroize").appended
  rw [hfirst, List.append_assoc, List.singleton_append] at hrest
  refine ⟨_, rest, hrest.symm, ?_⟩
  rw [transition_zeroized_state]
  rfl

end GhostEngine

end Ghost

end EssNode
