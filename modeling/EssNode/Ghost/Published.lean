import EssNode.Ghost.Reports
import EssNode.Ghost.Runtime
import EssNode.Ghost.Zeroized

/-!
# The Published State of the Ghost

The ghost engine and the ghost runtime share one world state, and both publish a state of the
ghost there. The engine does so when it reports its own state. The runtime has texts of its own
for what it is doing, and does not look at what stands there, nor ask the engine.

What the engine publishes can be relied on: once it has published that it is zeroized it
publishes nothing else (`Sincere`). The runtime can not: an assessment, an action or a tick of
the scheduler that comes later replaces the text, and nothing sets it back, since a zeroized
engine has hardly a reason to report again. What is published stays true exactly if none of the
calls that publish something is made (`published_zeroized_iff`), and these are most of those that
the scheduler and the control loop make.

Commands can be sent to the engine by anyone. It takes one when it has written all reports on the
last, and the reports are written one at a time, so that the tasks of the runtime may come
between. The registry, the log and the clock may change at any time.
-/

namespace EssNode

open List

namespace GhostRuntime

open BoundedChannel (Channel)
open Ghost (GhostCommand GhostEngine GhostInput GhostReport Reporting Sincere)
open Tasks

/-- What the engine writes at once. -/
def GhostWorld.writeReport (self : GhostWorld) (report : GhostReport) : GhostWorld :=
  let self := (self.setGhostState report.ghostState).setHealthLevel report.healthLevel
  match report.signal with
  | some signal => self.observeSignal signal
  | none => self

theorem ghostState_writeReport (self : GhostWorld) (report : GhostReport) :
    (self.writeReport report).ghostState = report.ghostState := by
  unfold GhostWorld.writeReport
  cases report.signal with
  | none => rfl
  | some signal => rfl

/-- The engine, with the reports that are not written yet. -/
structure Reporter where
  engine : GhostEngine
  unwritten : List GhostReport

/-- What the engine makes of an input, and the reports that are to be written on it. -/
def Reporter.step (clock : Nat → Nat) (r : Reporter) (input : GhostInput) : Reporter where
  engine := r.engine.step clock input
  unwritten := (r.engine.step clock input).reports.drop r.engine.reports.length

/-- What happens beside the calls: the engine writes a report, one of its timers ticks, or the
    world state is written to by someone else, in other places. -/
inductive Beside where
  | write
  | beaconTick
  | syncTick
  | elsewhere (world : WorldState) (lastSignal : Option String) (clock : UInt64)

/-- The runtime and the engine. The engine takes a command or a tick when it has nothing left to
    write, and has gone when it has stopped and nothing is left. -/
def machine (handle : GhostRuntimeHandle) (clock : Nat → Nat) :
    Machine GhostCommand RuntimeState Reporter RuntimeCall Beside where
  handle := handle.program
  take cmd r :=
    if r.unwritten = [] ∧ r.engine.stopped = false then some (r.step clock (.command cmd))
    else none
  act
    | .write, r, s =>
      match r.unwritten with
      | report :: rest =>
        ({ r with unwritten := rest }, { s with shared := s.shared.writeReport report })
      | [] => (r, s)
    | .beaconTick, r, s => if r.unwritten = [] then (r.step clock .beaconTick, s) else (r, s)
    | .syncTick, r, s => if r.unwritten = [] then (r.step clock .syncTick, s) else (r, s)
    | .elsewhere world lastSignal clock, r, s =>
      (r, { s with shared := { s.shared with world, lastSignal, clock } })
  gone r := r.engine.stopped && r.unwritten.isEmpty

structure Launch where
  setup : Ghost.Setup
  handle : GhostRuntimeHandle
  shared : GhostWorld

abbrev Run := List (Move GhostCommand RuntimeCall Beside)

namespace Launch

variable (l : Launch)

/-- The engine as it is started, with the shared world state. -/
def engine : GhostEngine := { l.setup with worldState := some [] : Ghost.Setup }.after []

def machine : Machine GhostCommand RuntimeState Reporter RuntimeCall Beside :=
  GhostRuntime.machine l.handle l.setup.clock

/-- Room for 256 commands, and nothing called yet. -/
def start : Pool GhostCommand RuntimeState Reporter (some 256) where
  state :=
    { shared := l.shared
      policy := l.handle.config.policy
      sinkAttached := false
      sinkCalls := []
      scheduler := {} }
  receiver := ⟨l.engine, l.engine.reports⟩
  channel := .empty
  tasks := []

def after (run : Run) : Pool GhostCommand RuntimeState Reporter (some 256) :=
  l.start.after l.machine run

end Launch

/-- The report that is written next says that the engine is zeroized. -/
def Reporter.AboutToSync (r : Reporter) : Prop :=
  ∃ report rest, r.unwritten = report :: rest ∧ report.ghostState = "zeroized"

/-- With these calls, once the engine has published that it is zeroized, that is what is
    published ever after. -/
def Launch.Truthful (l : Launch) (calls : Set RuntimeCall) : Prop :=
  ∀ before later : Run, (∀ c, .call c ∈ before ++ .act .write :: later → c ∈ calls) →
    (l.after before).receiver.AboutToSync →
    (l.after (before ++ .act .write :: later)).state.shared.ghostState = "zeroized"

/-! ### The engine -/

theorem reports_step (clock : Nat → Nat) (r : Reporter) (input : GhostInput) :
    (r.step clock input).engine.reports = r.engine.reports ++ (r.step clock input).unwritten :=
  (prefix_iff_eq_append.mp (r.engine.reporting_step clock input).appended).symm

/-- A sincere engine that has published that it is zeroized. -/
structure Settled (r : Reporter) : Prop where
  sincere : Sincere r.engine
  unwritten : ∃ before report rest, r.engine.reports = before ++ report :: rest ∧
    report.ghostState = "zeroized" ∧ r.unwritten <:+ rest

variable {report : GhostReport} {r : Reporter}

theorem Settled.ghostState (h : Settled r) (hreport : report ∈ r.unwritten) :
    report.ghostState = "zeroized" := by
  obtain ⟨before, first, rest, hreports, hfirst, hsuffix⟩ := h.unwritten
  have hlater := h.sincere.later
  rw [hreports, pairwise_append, pairwise_cons] at hlater
  exact hlater.2.1.1 report (hsuffix.subset hreport) hfirst

theorem Settled.step (h : Settled r) (clock : Nat → Nat) (input : GhostInput) :
    Settled (r.step clock input) := by
  obtain ⟨before, first, rest, hreports, hfirst, -⟩ := h.unwritten
  refine ⟨(r.engine.reporting_step clock input).sincere h.sincere, before, first,
    rest ++ (r.step clock input).unwritten, ?_, hfirst, suffix_append _ _⟩
  rw [reports_step, hreports, append_assoc, cons_append]

theorem Settled.tail (h : Settled r) {rest : List GhostReport}
    (hunwritten : r.unwritten = report :: rest) : Settled { r with unwritten := rest } := by
  obtain ⟨before, first, later, hreports, hfirst, hsuffix⟩ := h.unwritten
  refine ⟨h.sincere, before, first, later, hreports, hfirst, ?_⟩
  rw [hunwritten] at hsuffix
  exact (suffix_cons report rest).trans hsuffix

/-! ### Runs -/

section Runs

variable (l : Launch) {P : RuntimeState → Prop} {Q : Reporter → Prop}

/-- The state with other contents of the registry, the log and the clock. -/
def RuntimeState.elsewhere (s : RuntimeState) (world : WorldState) (lastSignal : Option String)
    (clock : UInt64) : RuntimeState :=
  { s with shared := { s.shared with world, lastSignal, clock } }

variable (hstep : ∀ r input, Q r → Q (r.step l.setup.clock input))

include hstep

theorem take_keeps (cmd : GhostCommand) (r r' : Reporter) (h : Q r)
    (htake : l.machine.take cmd r = some r') : Q r' := by
  simp only [Launch.machine, machine] at htake
  split at htake
  · cases htake
    exact hstep r _ h
  · cases htake

/-- What steps, writing and changes elsewhere keep, the engine keeps. -/
theorem act_keeps
    (hwrite : ∀ r s report rest, Q r → P s → r.unwritten = report :: rest →
      Q { r with unwritten := rest } ∧ P { s with shared := s.shared.writeReport report })
    (helsewhere : ∀ s world lastSignal clock, P s → P (s.elsewhere world lastSignal clock))
    (e : Beside) (r : Reporter) (s : RuntimeState) (hr : Q r) (hs : P s) :
    Q (l.machine.act e r s).1 ∧ P (l.machine.act e r s).2 := by
  cases e with
  | write =>
    simp only [Launch.machine, machine]
    split
    · exact hwrite r s _ _ hr hs ‹_›
    · exact ⟨hr, hs⟩
  | beaconTick | syncTick =>
    simp only [Launch.machine, machine]
    split
    · exact ⟨hstep r _ hr, hs⟩
    · exact ⟨hr, hs⟩
  | elsewhere world lastSignal clock => exact ⟨hr, helsewhere s world lastSignal clock hs⟩

omit hstep

theorem after_suffix (run : Run) :
    Sincere (l.after run).receiver.engine ∧
      (l.after run).receiver.unwritten <:+ (l.after run).receiver.engine.reports := by
  have hstart : Sincere l.engine := by
    rw [Launch.engine, Ghost.Setup.after_nil]
    exact (GhostEngine.reporting_boot _ _).sincere ⟨List.Pairwise.nil, nofun⟩
  have hstep (r : Reporter) (input : GhostInput)
      (h : Sincere r.engine ∧ r.unwritten <:+ r.engine.reports) :
      Sincere (r.step l.setup.clock input).engine ∧
        (r.step l.setup.clock input).unwritten
          <:+ (r.step l.setup.clock input).engine.reports := by
    refine ⟨(r.engine.reporting_step _ input).sincere h.1, ?_⟩
    rw [reports_step]
    exact suffix_append _ _
  -- The shared state plays no part in this.
  refine (after_safe (P := fun _ => True) (m := l.machine) (p := l.start)
    (take_keeps l hstep) (act_keeps l hstep (fun r s report rest h _ hunwritten => ?_)
      fun _ _ _ _ _ => trivial) nofun ⟨hstart, suffix_rfl⟩ trivial
    fun c _ => ?_).1
  · refine ⟨⟨h.1, (suffix_cons report rest).trans ?_⟩, trivial⟩
    rw [← hunwritten]
    exact h.2
  · exact keeps_program (fun _ _ _ _ => trivial) l.handle c (fun _ _ => trivial)
      fun _ _ _ _ => trivial

theorem keeps_zeroized {c : RuntimeCall} (h : c.quiet l.handle.config = true) :
    (l.machine.handle c).Keeps Confirms := by
  refine keeps_program (fun s s' hframed hs => hframed.ghostState.trans hs) l.handle c
    (fun _ _ => rfl) fun hloud => ?_
  rw [h] at hloud
  cases hloud

theorem truthful_of_quiet {calls : Set RuntimeCall}
    (hquiet : ∀ c ∈ calls, c.quiet l.handle.config = true) : l.Truthful calls := by
  rintro before later hcalls ⟨report, rest, hunwritten, hreport⟩
  have hbefore : ∀ c, .call c ∈ before → c ∈ calls :=
    fun c hc => hcalls c (mem_append_left _ hc)
  have hlater : ∀ c, .call c ∈ later → c ∈ calls :=
    fun c hc => hcalls c (mem_append_right _ (mem_cons_of_mem _ hc))
  -- Up to here the tasks are orderly, whatever is published.
  have hidle : l.start.Orderly Confirms := fun task htask => absurd htask not_mem_nil
  have horderly : (l.after before).Orderly Confirms :=
    after_orderly hidle fun c hc => keeps_zeroized l (hquiet c (hbefore c hc))
  obtain ⟨hsincere, hsuffix⟩ := after_suffix l before
  have hwritten : (l.after before).step l.machine (.act .write)
      = { l.after before with
          receiver := { (l.after before).receiver with unwritten := rest }
          state := { (l.after before).state with
            shared := (l.after before).state.shared.writeReport report } } := by
    simp only [Pool.step, Launch.machine, machine, hunwritten]
  have hsettled : Settled ((l.after before).step l.machine (.act .write)).receiver := by
    rw [hunwritten] at hsuffix
    obtain ⟨earlier, hearlier⟩ := hsuffix
    rw [hwritten]
    exact ⟨hsincere, earlier, report, rest, hearlier.symm, hreport, suffix_rfl⟩
  have hconfirms : Confirms ((l.after before).step l.machine (.act .write)).state := by
    rw [hwritten]
    exact (ghostState_writeReport _ _).trans hreport
  -- From here on the engine and the calls both keep it.
  have hafter : l.after (before ++ .act .write :: later)
      = ((l.after before).step l.machine (.act .write)).after l.machine later := by
    rw [Launch.after, after_append]
    rfl
  rw [hafter]
  refine (after_safe (P := Confirms) (Q := Settled)
    (take_keeps l fun r input h => h.step _ input)
    (act_keeps l (fun r input h => h.step _ input) (fun r s first others h _ hfirst => ?_)
      fun _ _ _ _ hs => hs)
    (step_orderly horderly (by simp)) hsettled hconfirms
    fun c hc => keeps_zeroized l (hquiet c (hlater c hc))).2
  refine ⟨h.tail hfirst, (ghostState_writeReport _ _).trans (h.ghostState ?_)⟩
  rw [hfirst]
  exact mem_cons_self

/-! ### The end of the engine -/

theorem after_writes (p : Pool GhostCommand RuntimeState Reporter (some 256)) :
    ∃ n, p.after l.machine (replicate n (.act .write))
      = { p with
          receiver := { p.receiver with unwritten := [] }
          state := (p.after l.machine (replicate n (.act .write))).state } := by
  rcases p with ⟨state, ⟨engine, unwritten⟩, channel, tasks⟩
  induction unwritten generalizing state with
  | nil => exact ⟨0, rfl⟩
  | cons report rest ih =>
    obtain ⟨n, hn⟩ := ih { state with shared := state.shared.writeReport report }
    exact ⟨n + 1, hn⟩

theorem engine_ready : l.engine.worldState.isSome ∧ l.engine.stopped = false := by
  rw [Launch.engine, Ghost.Setup.after_nil]
  unfold GhostEngine.boot GhostEngine.publish
  dsimp only
  split
  · exact ⟨rfl, rfl⟩
  · exact ⟨rfl, rfl⟩

/-- Without a call, the engine can be made to publish that it is zeroized. -/
theorem reaches_sync :
    ∃ before : Run, (∀ c, .call c ∉ before) ∧ (l.after before).receiver.AboutToSync := by
  obtain ⟨n, hn⟩ := after_writes l l.start
  obtain ⟨hworld, hrunning⟩ := engine_ready l
  refine ⟨replicate n (.act .write) ++ [.offer .zeroize, .receive], ?_, ?_⟩
  · intro c hc
    simp at hc
  · obtain ⟨report, rest, hreports, hreport⟩ := GhostEngine.reports_zeroize l.setup.clock hworld
    refine ⟨report, rest, ?_, hreport⟩
    have hstep : l.engine.step l.setup.clock (.command .zeroize)
        = l.engine.onCommand l.setup.clock .zeroize := by
      unfold GhostEngine.step
      rw [if_neg (by simp [hrunning])]
    have hgone : (l.engine.stopped && ([] : List GhostReport).isEmpty) = false := by
      rw [hrunning]
      rfl
    have htake : l.machine.take .zeroize ⟨l.engine, []⟩
        = some (Reporter.step l.setup.clock ⟨l.engine, []⟩ (.command .zeroize)) := by
      simp [Launch.machine, machine, hrunning]
    rw [Launch.after, after_append, hn, receiver_offered hgone rfl
      ((Channel.hasRoom_some _).mpr (Nat.zero_lt_succ 255)) htake]
    change ((l.engine.step l.setup.clock (.command .zeroize)).reports).drop l.engine.reports.length
      = _
    rw [hstep, hreports, drop_left]

/-- What is published stays true, whatever else happens, exactly if all calls are quiet. -/
theorem published_zeroized_iff (calls : Set RuntimeCall) :
    l.Truthful calls ↔ ∀ c ∈ calls, c.quiet l.handle.config = true := by
  refine ⟨fun htruthful c hc => ?_, truthful_of_quiet l⟩
  by_contra hnot
  have hloud : c.quiet l.handle.config = false := Bool.eq_false_iff.mpr hnot
  -- A call that is not quiet comes right after the engine has published its end.
  obtain ⟨before, hbefore, hsync⟩ := reaches_sync l
  obtain ⟨n, hdenies⟩ := after_passes l.machine (l.after (before ++ [.act .write]))
    (reaches_program l.handle hloud)
  refine hdenies ?_
  have hconfirms := htruthful before
    (.call c :: replicate n (.advance (l.after (before ++ [.act .write])).tasks.length))
    (fun c' hc' => ?_) hsync
  · rw [Confirms, ← hconfirms, Launch.after, Launch.after, ← after_append, append_assoc]
    rfl
  · rcases mem_append.mp hc' with h | h
    · exact absurd h (hbefore c')
    · obtain rfl : c' = c := by simpa using h
      exact hc

end Runs

/-- A node with default settings and nobody in its registry. -/
def defaultLaunch : Launch where
  setup := Ghost.defaultSetup
  handle := { nodeId := "node", role := "client", config := {} }
  shared :=
    { world := ⟨0, 0, [], ∅, {}, ∅⟩
      ghostState := "init"
      healthLevel := "ready"
      lastSignal := none
      clock := 0 }

/-- The engine is told to zeroize, and has written that it is zeroized twice when the runtime
    acts: what is published then is that the node is ready. -/
theorem act_denies_zeroized :
    let before : Run := [.act .write, .offer .zeroize, .receive]
    let later : Run := [.act .write, .call .act, .advance 0, .advance 0, .advance 0]
    (defaultLaunch.after before).receiver.unwritten.head?.map GhostReport.ghostState
        = some "zeroized" ∧
      (defaultLaunch.after (before ++ [.act .write])).state.shared.ghostState = "zeroized" ∧
      (defaultLaunch.after (before ++ .act .write :: later)).receiver.engine.state = .zeroized ∧
      (defaultLaunch.after (before ++ .act .write :: later)).receiver.unwritten = [] ∧
      (defaultLaunch.after (before ++ .act .write :: later)).state.shared.ghostState
        = "ready" := by
  decide +kernel

end GhostRuntime

end EssNode
