import EssNode.Compute.Retention

/-!
# What Becomes of a Job

Whether a job that was queued can be found at any later time: in the queue, held back for a
permit, in a task, or as a result.

The executor returns a result also for a job that traps, runs out of fuel or takes too long;
what went wrong is in the status of the result. It returns an error for a job that can not be
set up: its module does not compile, or can not be instantiated. The task then tells that the
job failed and ends. Nothing is saved, and the job is gone: who asks for its result is told that
there is none, as for a job that never was.

This is the only way in which a job is lost (`jobs_accounted_iff`). Every other event of the loop
and of the tasks leaves it where it was or moves it on (`accounted_step`), cancellations
included, as long as the store is not so full that results are collected.

A job is known by its identifier here, as it is in the events and in the store.
-/

namespace EssNode

open Bincode List Text

namespace Compute

/-! ### The executor -/

inductive Ending where
  | returned (result : Except String Unit) (fuelLeft : UInt64)
  | panicked
  | timedOut

/-- How running a job goes: the steps before its function is called, the end of the call, what
    it wrote, and the clock. -/
structure Execution where
  compile : Except String Unit
  setFuel : Except String Unit
  link : Except String Unit
  instantiate : Except String Unit
  ending : Ending
  stdout : List UInt8
  stderr : List UInt8
  execTimeMs : UInt64
  finishedAt : UInt64

def executionError (text : String) : String := "WASM execution error: " ++ text

/-- A step that is made before the function is called. -/
def setupStep (label : String) (outcome : Except String Unit) : Except String Unit :=
  outcome.mapError fun e => executionError (label ++ ": " ++ e)

namespace Execution

/-- What the call gave: nothing, or a text. -/
def outcome (x : Execution) : Except String Unit :=
  match x.ending with
  | .returned result _ => result
  | .panicked => .error "cancel channel error"
  | .timedOut => .error "timeout"

def fuelConsumed (x : Execution) (spec : ComputeJobSpec) : UInt64 :=
  match x.ending with
  | .returned _ fuelLeft => spec.limits.fuelLimit - fuelLeft
  | .panicked => 0
  | .timedOut => 0

/-- The status of a job whose function was called. A text that says so stands for the time. -/
def status (x : Execution) (spec : ComputeJobSpec) : JobStatus :=
  match x.outcome with
  | .ok () => .completed x.finishedAt
  | .error e =>
    let reason :=
      if e = "timeout" then
        "Execution timed out after " ++ Nat.repr spec.limits.timeoutMs.toNat ++ "ms"
      else executionError e
    .failed reason x.finishedAt

/-- Run a job. -/
def execute (x : Execution) (spec : ComputeJobSpec) (executorPeerId : String) :
    Except String ComputeResult := do
  setupStep "Module compile" x.compile
  setupStep "Fuel set" x.setFuel
  setupStep "Linker" x.link
  setupStep "Instantiate" x.instantiate
  .ok
    { jobId := spec.jobId
      status := x.status spec
      output := x.stdout.take spec.limits.maxOutputBytes.toNat
      stderr := x.stderr
      exitCode := if x.outcome matches .ok () then 0 else -1
      fuelConsumed := x.fuelConsumed spec
      execTimeMs := x.execTimeMs
      memoryUsedBytes := 0
      executorPeerId := executorPeerId
      submitterPeerId := spec.submitterPeerId
      finishedAt := x.finishedAt }

/-- All steps before the call go well. -/
def SetUp (x : Execution) : Prop :=
  x.compile = .ok () ∧ x.setFuel = .ok () ∧ x.link = .ok () ∧ x.instantiate = .ok ()

theorem setupStep_bind_ok {α : Type} {label : String} {outcome : Except String Unit}
    {rest : Except String α} {a : α} :
    (do setupStep label outcome; rest) = .ok a ↔ outcome = .ok () ∧ rest = .ok a := by
  cases outcome with
  | error e => exact iff_of_false nofun nofun
  | ok u => exact ⟨fun h => ⟨rfl, h⟩, fun h => h.2⟩

theorem execute_ok_iff (x : Execution) (spec : ComputeJobSpec) (executorPeerId : String) :
    (∃ res, x.execute spec executorPeerId = .ok res) ↔ x.SetUp := by
  unfold execute SetUp
  constructor
  · rintro ⟨res, h⟩
    simp only [setupStep_bind_ok] at h
    exact ⟨h.1, h.2.1, h.2.2.1, h.2.2.2.1⟩
  · rintro ⟨hcompile, hfuel, hlink, hinstantiate⟩
    simp only [setupStep_bind_ok, hcompile, hfuel, hlink, hinstantiate, true_and]
    exact ⟨_, rfl⟩

theorem execute_jobId {x : Execution} {spec : ComputeJobSpec} {executorPeerId : String}
    {res : ComputeResult} (h : x.execute spec executorPeerId = .ok res) :
    res.jobId = spec.jobId := by
  unfold execute at h
  simp only [setupStep_bind_ok] at h
  rw [← Except.ok.inj h.2.2.2.2]

end Execution

/-! ### Where a job is -/

namespace Scheduler

/-- A job is in the queue, in a task, held back for a permit, or has a result. -/
def Accounted (jobId : String) (s : Scheduler) : Prop :=
  s.Queued jobId ∨ s.Executing jobId ∨ (∃ spec, s.blocked = some spec ∧ spec.jobId = jobId) ∨
    ∃ res, s.store.getResult jobId = some res

variable {env : ComputeEnv} {s t : Scheduler} {jobId : String}

theorem Accounted.moved (h : s.Accounted jobId) (hqueued : s.Queued jobId → t.Accounted jobId)
    (hexecuting : s.executing ⊆ t.executing)
    (hblocked : ∀ spec, s.blocked = some spec → t.blocked = some spec)
    (hstore : t.store = s.store) : t.Accounted jobId := by
  rcases h with hwaits | ⟨task, htask, hid⟩ | ⟨held, hheld, hid⟩ | hresult
  · exact hqueued hwaits
  · exact Or.inr (Or.inl ⟨task, hexecuting htask, hid⟩)
  · exact Or.inr (Or.inr (Or.inl ⟨held, hblocked held hheld, hid⟩))
  · exact Or.inr (Or.inr (Or.inr (hstore ▸ hresult)))

theorem Queued.of_same (h : s.Queued jobId) (hqueue : t.queue = s.queue) : t.Queued jobId := by
  unfold Queued at h ⊢
  rw [hqueue]
  exact h

theorem Accounted.of_same (h : s.Accounted jobId) (hqueue : t.queue = s.queue)
    (hexecuting : t.executing = s.executing) (hblocked : t.blocked = s.blocked)
    (hstore : t.store = s.store) : t.Accounted jobId :=
  h.moved (fun hwaits => Or.inl (hwaits.of_same hqueue)) (hexecuting ▸ List.Subset.refl _)
    (fun _ hheld => hblocked.trans hheld) hstore

variable {event : SchedulerEvent} {spec : ComputeJobSpec} {executorPeerId : String}

theorem queued_withJob (hqueue : t.queue = s.queue.withJob spec)
    (h : spec.jobId = jobId ∨ s.Queued jobId) : t.Queued jobId := by
  unfold Queued
  rw [hqueue]
  rcases h with hid | ⟨key, value, job, hentry, hnamed, hjob⟩
  · refine ⟨queueKey spec, utf8 spec.jobId, spec, ?_, ?_, ?_⟩
    · rw [JobQueue.withJob, FinMap.find_insert, if_pos rfl]
    · rw [utf8Lossy_utf8, hid]
    · rw [JobQueue.withJob, FinMap.find_insert, if_pos (congrArg jobKey hid)]
  · -- An entry that is written again has the same identifier.
    have hkept : (s.queue.withJob spec).queue[key]? = some value := by
      rw [JobQueue.withJob, FinMap.find_insert]
      by_cases hkey : queueKey spec = key
      · rw [if_pos hkey, s.queue.named spec value (hkey ▸ hentry)]
      · rw [if_neg hkey]
        exact hentry
    have hstored : ∃ other, (s.queue.withJob spec).jobs[jobKey jobId]? = some other := by
      rw [JobQueue.withJob, FinMap.find_insert]
      by_cases hkey : jobKey spec.jobId = jobKey jobId
      · exact ⟨spec, if_pos hkey⟩
      · exact ⟨job, (if_neg hkey).trans hjob⟩
    obtain ⟨other, hother⟩ := hstored
    exact ⟨key, value, other, hkept, hnamed, hother⟩

/-! ### What the loop and the tasks do -/

def told (events : List ComputeEvent) : List String :=
  events.filterMap fun
    | .jobQueued jobId => some jobId
    | _ => none

variable (env s) in
theorem receive_told (now : UInt64) (fault : Option EnqueueFault) :
    (s.receive env now fault).scheduler.executing = s.executing ∧
      (s.receive env now fault).scheduler.blocked = s.blocked ∧
      (s.receive env now fault).scheduler.store = s.store ∧
      ((told (s.receive env now fault).events = [] ∧
          (s.receive env now fault).scheduler.queue = s.queue) ∨
        ∃ spec, told (s.receive env now fault).events = [spec.jobId] ∧
          (s.receive env now fault).scheduler.queue = s.queue.withJob spec) := by
  rcases s.receive_cases env now fault with ⟨hreceive, -⟩ | ⟨spec, rest, -,
    ⟨text, hreceive, -⟩ | ⟨hreceive, -⟩ | ⟨f, hreceive, -⟩⟩ <;> rw [hreceive]
  · exact ⟨rfl, rfl, rfl, Or.inl ⟨rfl, rfl⟩⟩
  · exact ⟨rfl, rfl, rfl, Or.inl ⟨rfl, rfl⟩⟩
  · exact ⟨rfl, rfl, rfl, Or.inr ⟨spec, rfl, rfl⟩⟩
  · exact ⟨rfl, rfl, rfl, Or.inl ⟨rfl, rfl⟩⟩

theorem accounted_receive (h : s.Accounted jobId) (now : UInt64) (fault : Option EnqueueFault) :
    (s.receive env now fault).scheduler.Accounted jobId := by
  obtain ⟨hexecuting, hblocked, hstore, hsame | ⟨spec, -, hqueue⟩⟩ :=
    receive_told env s now fault
  · exact h.of_same hsame.2 hexecuting hblocked hstore
  · exact h.moved (fun hwaits => Or.inl (queued_withJob hqueue (Or.inr hwaits)))
      (hexecuting ▸ List.Subset.refl _) (fun _ hheld => hblocked.trans hheld) hstore

theorem accounted_receiveCancel (h : s.Accounted jobId) :
    s.receiveCancel.scheduler.Accounted jobId := by
  obtain ⟨handle, told, hcancel, -⟩ := s.receiveCancel_cases
  rw [hcancel]
  exact h.of_same rfl rfl rfl rfl

theorem accounted_tick (h : s.Accounted jobId) (fault : Option DequeueFault) :
    (s.tick fault).scheduler.Accounted jobId := by
  rcases s.tick_cases fault with htick | ⟨hfree, key, value, hfirst, hentry⟩
  · rw [htick]
    exact h
  -- An entry goes. It is one of this job, or the job keeps its own.
  have hqueued : s.Queued jobId →
      (∃ spec, s.queue.jobs[jobKey (utf8Lossy value)]? = some spec ∧ spec.jobId = jobId) ∨
        ∀ t : Scheduler, t.queue = s.queue.without key → t.Queued jobId := by
    intro hwaits
    by_cases hid : utf8Lossy value = jobId
    · obtain ⟨-, -, spec, -, -, hspec⟩ := hwaits
      exact Or.inl ⟨spec, hid ▸ hspec, s.queue.keyed jobId spec hspec⟩
    · exact Or.inr fun t ht => (hwaits.without hfirst hid ht).1
  have hheld : ∀ t : Scheduler, ∀ spec, s.blocked = some spec → t.blocked = some spec := by
    intro t spec hspec
    rw [hfree] at hspec
    cases hspec
  rcases hentry with ⟨hnone, htick⟩ | ⟨spec, hspec, ⟨-, htick⟩ | htick⟩ <;> rw [htick]
  · refine h.moved (fun hwaits => Or.inl ((hqueued hwaits).resolve_left ?_ _ rfl))
      (List.Subset.refl _) (hheld _) rfl
    rintro ⟨spec, hspec, -⟩
    rw [hnone] at hspec
    cases hspec
  · refine h.moved (fun hwaits => ?_) (subset_append_left _ _) (hheld _) rfl
    rcases hqueued hwaits with ⟨taken, htaken, hid⟩ | hkept
    · rw [hspec, Option.some.injEq] at htaken
      exact Or.inr (Or.inl ⟨taken, mem_append_right _ (mem_singleton.mpr htaken.symm),
        hid⟩)
    · exact Or.inl (hkept _ rfl)
  · refine h.moved (fun hwaits => ?_) (List.Subset.refl _) (hheld _) rfl
    rcases hqueued hwaits with ⟨taken, htaken, hid⟩ | hkept
    · exact Or.inr (Or.inr (Or.inl ⟨taken, hspec.symm.trans htaken, hid⟩))
    · exact Or.inl (hkept _ rfl)

theorem finish_state {task : Nat} (htask : s.executing[task]? = some spec)
    (result : Except String ComputeResult) :
    (s.finish task result).scheduler.queue = s.queue ∧
      (s.finish task result).scheduler.executing
        = s.executing.eraseIdx task ++ s.blocked.toList ∧
      (s.finish task result).scheduler.store = (s.ended task spec result).store := by
  rw [finish_eq htask]
  cases s.blocked with
  | none => exact ⟨rfl, (append_nil _).symm, rfl⟩
  | some next => exact ⟨rfl, rfl, rfl⟩

theorem accounted_finish (h : s.Accounted jobId) {task : Nat}
    (htask : s.executing[task]? = some spec) {result : Except String ComputeResult}
    (hroom : s.store.results.size < maxStoredResults ∨ ∃ text, result = .error text)
    (hown : spec.jobId = jobId → ∃ res, result = .ok res ∧ res.jobId = jobId) :
    (s.finish task result).scheduler.Accounted jobId := by
  obtain ⟨hqueue, hexecuting, hstore⟩ := finish_state htask result
  -- A result that was there is there, and a new one is added.
  have hkept : (∃ res, s.store.getResult jobId = some res) ∨
      (∃ res, result = .ok res ∧ res.jobId = jobId) →
        ∃ res, (s.ended task spec result).store.getResult jobId = some res := by
    intro hres
    cases result with
    | error text => exact hres.resolve_right fun ⟨_, hok, _⟩ => by cases hok
    | ok res =>
      have hfew := hroom.resolve_right fun ⟨_, herror⟩ => by cases herror
      change ∃ r, (s.store.saveResult res).getResult jobId = some r
      rw [s.store.saveResult_of_room hfew]
      by_cases hid : res.jobId = jobId
      · exact ⟨res, hid ▸ s.store.find_withResult res⟩
      · obtain ⟨old, hold⟩ := hres.resolve_right fun ⟨r, hok, hrid⟩ =>
          hid (Except.ok.inj hok ▸ hrid)
        refine ⟨old, ?_⟩
        rw [ComputeStore.getResult, ComputeStore.withResult, FinMap.find_insert,
          if_neg fun hkey => hid (ComputeStore.resultKey_inj.mp hkey)]
        exact hold
  rcases h with hwaits | ⟨job, hjob, hid⟩ | ⟨held, hheld, hid⟩ | hresult
  · exact Or.inl (hwaits.of_same hqueue)
  · by_cases hmine : spec.jobId = jobId
    · refine Or.inr (Or.inr (Or.inr ?_))
      rw [hstore]
      exact hkept (Or.inr (hown hmine))
    · -- The task of another job is not the one that ended.
      refine Or.inr (Or.inl ⟨job, ?_, hid⟩)
      rw [hexecuting]
      obtain ⟨i, hi⟩ := mem_iff_getElem?.mp hjob
      refine mem_append_left _ (mem_eraseIdx_iff_getElem?.mpr ⟨i, fun heq => ?_, hi⟩)
      rw [heq, htask, Option.some.injEq] at hi
      exact hmine (hi ▸ hid)
  · refine Or.inr (Or.inl ⟨held, ?_, hid⟩)
    rw [hexecuting, hheld]
    exact mem_append_right _ (mem_singleton_self _)
  · refine Or.inr (Or.inr (Or.inr ?_))
    rw [hstore]
    exact hkept (Or.inl hresult)

/-- An event of the loop or of the tasks: the node is not restarted, and a task ends with what
    the executor returns. -/
def Allowed (executorPeerId : String) (s : Scheduler) : SchedulerEvent → Prop
  | .restart => False
  | .finish task result => ∀ spec, s.executing[task]? = some spec →
      ∃ x : Execution, result = x.execute spec executorPeerId
  | _ => True

/-- A task ends with an error and is the last that is known of its job. -/
def Loses (env : ComputeEnv) (jobId : String) (s : Scheduler) : SchedulerEvent → Prop
  | .finish task (.error text) =>
    (∃ spec, s.executing[task]? = some spec ∧ spec.jobId = jobId) ∧
      ¬ (s.step env (.finish task (.error text))).scheduler.Accounted jobId
  | _ => False

/-- Every event keeps account of a job, but for one that loses it. -/
theorem accounted_step (h : s.Accounted jobId) (hallowed : s.Allowed executorPeerId event)
    (hroom : s.store.results.size + (s.saves event).toList.length ≤ maxStoredResults)
    (hkept : ¬ s.Loses env jobId event) :
    (s.step env event).scheduler.Accounted jobId := by
  cases event with
  | submit now spec => exact h.of_same rfl rfl rfl rfl
  | cancel other => exact h.of_same rfl rfl rfl rfl
  | receive now fault => exact accounted_receive h now fault
  | receiveCancel => exact accounted_receiveCancel h
  | tick fault => exact accounted_tick h fault
  | govern authority => exact h.of_same rfl rfl rfl rfl
  | restart => exact hallowed.elim
  | finish task result =>
    cases htask : s.executing[task]? with
    | none =>
      have hquiet : s.step env (.finish task result) = s.quiet := by
        simp only [step, finish, htask]
      rw [hquiet]
      exact h
    | some spec =>
      cases result with
      | ok res =>
        obtain ⟨x, hx⟩ := hallowed spec htask
        have hone : s.saves (.finish task (.ok res)) = some res := by
          simp only [saves, htask, Option.map_some]
        rw [hone, Option.toList_some, length_singleton] at hroom
        exact accounted_finish h htask (Or.inl hroom) fun hid =>
          ⟨res, rfl, (Execution.execute_jobId hx.symm).trans hid⟩
      | error text =>
        by_cases hid : spec.jobId = jobId
        · by_contra hgone
          exact hkept ⟨⟨spec, htask, hid⟩, hgone⟩
        · exact accounted_finish h htask (Or.inr ⟨text, rfl⟩) fun heq => absurd heq hid

theorem told_step (h : ∀ now fault, event ≠ .receive now fault) :
    told (s.step env event).events = [] := by
  cases event with
  | receive now fault => exact absurd rfl (h now fault)
  | tick fault =>
    rcases s.tick_cases fault with htick | ⟨-, key, value, -,
      ⟨-, htick⟩ | ⟨spec, -, ⟨-, htick⟩ | htick⟩⟩ <;> rw [step, htick] <;> rfl
  | finish task result =>
    change told (s.finish task result).events = []
    unfold finish
    split
    · rfl
    · cases result <;> cases s.blocked <;> rfl
  | receiveCancel =>
    obtain ⟨handle, events, hcancel, -, -, rfl | ⟨cancelled, rfl⟩⟩ := s.receiveCancel_cases <;>
      rw [step, hcancel] <;> rfl
  | submit now spec => rfl
  | cancel other => rfl
  | govern authority => rfl
  | restart => rfl

theorem accounted_told (h : jobId ∈ told (s.step env event).events) :
    (s.step env event).scheduler.Accounted jobId := by
  by_cases hreceive : ∃ now fault, event = .receive now fault
  · obtain ⟨now, fault, rfl⟩ := hreceive
    change jobId ∈ told (s.receive env now fault).events at h
    obtain ⟨-, -, -, ⟨hnone, -⟩ | ⟨spec, hone, hqueue⟩⟩ := receive_told env s now fault
    · rw [hnone] at h
      cases h
    · rw [hone] at h
      exact Or.inl (queued_withJob hqueue (Or.inl (mem_singleton.mp h).symm))
  · rw [told_step fun now fault heq => hreceive ⟨now, fault, heq⟩] at h
    cases h

/-! ### Runs -/

variable (env s) (events : List SchedulerEvent)

/-- The jobs of which a run tells that they are queued. -/
def announced : Scheduler → List SchedulerEvent → List String
  | _, [] => []
  | s, event :: events =>
    told (s.step env event).events ++ announced (s.step env event).scheduler events

/-- How many results a run saves. -/
def completions : Scheduler → List SchedulerEvent → Nat
  | _, [] => 0
  | s, event :: events =>
    (s.saves event).toList.length + completions (s.step env event).scheduler events

/-- A run of the loop and the tasks. -/
def Genuine (executorPeerId : String) (events : List SchedulerEvent) : Prop :=
  ∀ before event after, events = before ++ event :: after →
    (run env s before).Allowed executorPeerId event

/-- At all times of a run, each job of which was told that it is queued is accounted for. -/
def AlwaysAccounted (events : List SchedulerEvent) : Prop :=
  ∀ before after, events = before ++ after →
    ∀ jobId ∈ announced env s before, (run env s before).Accounted jobId

theorem run_concat (event : SchedulerEvent) :
    run env s (events ++ [event]) = ((run env s events).step env event).scheduler := by
  rw [run, foldl_append, foldl_cons, foldl_nil]

theorem announced_concat (event : SchedulerEvent) :
    announced env s (events ++ [event])
      = announced env s events ++ told ((run env s events).step env event).events := by
  induction events generalizing s with
  | nil => exact append_nil _
  | cons first events ih =>
    rw [cons_append, announced, announced, ih, append_assoc]
    rfl

theorem completions_append (events' : List SchedulerEvent) :
    completions env s (events ++ events')
      = completions env s events + completions env (run env s events) events' := by
  induction events generalizing s with
  | nil => exact (Nat.zero_add _).symm
  | cons event events ih =>
    rw [cons_append, completions, completions, ih, Nat.add_assoc]
    rfl

theorem size_step_le (event : SchedulerEvent) :
    (s.step env event).scheduler.store.results.size
      ≤ s.store.results.size + (s.saves event).toList.length := by
  have hsame : ∀ t : Scheduler, t.store = s.store →
      t.store.results.size ≤ s.store.results.size + (s.saves event).toList.length := by
    intro t ht
    rw [ht]
    exact Nat.le_add_right _ _
  cases event with
  | submit now spec => exact hsame _ rfl
  | cancel jobId => exact hsame _ rfl
  | receive now fault => exact hsame _ (receive_told env s now fault).2.2.1
  | receiveCancel =>
    obtain ⟨handle, events, hcancel, -⟩ := s.receiveCancel_cases
    exact hsame _ (congrArg (·.scheduler.store) hcancel)
  | tick fault =>
    rcases s.tick_cases fault with htick | ⟨-, key, value, -,
      ⟨-, htick⟩ | ⟨spec, -, ⟨-, htick⟩ | htick⟩⟩ <;>
      exact hsame _ (congrArg (·.scheduler.store) htick)
  | govern authority => exact hsame _ rfl
  | restart => exact hsame _ rfl
  | finish task result =>
    cases htask : s.executing[task]? with
    | none =>
      refine hsame _ ?_
      simp only [step, finish, htask]
      rfl
    | some spec =>
      obtain ⟨-, -, hstore⟩ := finish_state htask result
      cases result with
      | error text => exact hsame _ hstore
      | ok res =>
        have hone : s.saves (.finish task (.ok res)) = some res := by
          simp only [saves, htask, Option.map_some]
        change (s.finish task (.ok res)).scheduler.store.results.size ≤ _
        rw [hstore, hone]
        exact s.store.size_saveResult_le res

theorem size_run_le :
    (run env s events).store.results.size ≤ s.store.results.size + completions env s events := by
  induction events generalizing s with
  | nil => exact le_rfl
  | cons event events ih =>
    have hstep := size_step_le env s event
    have hrest := ih (s.step env event).scheduler
    rw [completions]
    change (run env (s.step env event).scheduler events).store.results.size ≤ _
    omega

theorem not_loses_of_results {env : ComputeEnv} {s : Scheduler} {events : List SchedulerEvent}
    (h : ∀ task text, SchedulerEvent.finish task (.error text) ∉ events) :
    ∀ before event after, events = before ++ event :: after →
      ∀ jobId ∈ announced env s before, ¬ (run env s before).Loses env jobId event := by
  intro before event after heq jobId _ hloses
  have hmem : event ∈ events := by
    rw [heq]
    exact mem_append_right _ mem_cons_self
  cases event with
  | finish task result =>
    cases result with
    | error text => exact h task text hmem
    | ok res => exact hloses
  | _ => exact hloses

variable {env s}

theorem genuine_nil : s.Genuine env executorPeerId [] :=
  fun before _ _ heq => absurd heq.symm (append_ne_nil_of_right_ne_nil before nofun)

theorem genuine_cons {events : List SchedulerEvent} (hfirst : s.Allowed executorPeerId event)
    (hrest : (s.step env event).scheduler.Genuine env executorPeerId events) :
    s.Genuine env executorPeerId (event :: events) := by
  intro before next after heq
  cases before with
  | nil =>
    rw [nil_append, cons.injEq] at heq
    rw [← heq.1]
    exact hfirst
  | cons other before =>
    rw [cons_append, cons.injEq] at heq
    rw [← heq.1]
    exact hrest before next after heq.2

theorem not_accounted_of_empty (hqueue : s.queue.queue = ∅) (hexecuting : s.executing = [])
    (hblocked : s.blocked = none) (hstore : s.store.results = ∅) (jobId : String) :
    ¬ s.Accounted jobId := by
  rintro (⟨key, value, spec, hentry, -⟩ | ⟨spec, hspec, -⟩ | ⟨spec, hheld, -⟩ | ⟨res, hres⟩)
  · rw [hqueue, Std.ExtTreeMap.getElem?_empty] at hentry
    cases hentry
  · rw [hexecuting] at hspec
    cases hspec
  · rw [hblocked] at hheld
    cases hheld
  · rw [ComputeStore.getResult, hstore, Std.ExtTreeMap.getElem?_empty] at hres
    cases hres

/-- A job whose function runs into a trap. -/
def trapped : Execution where
  compile := .ok ()
  setFuel := .ok ()
  link := .ok ()
  instantiate := .ok ()
  ending := .returned (.error "wasm trap: unreachable") 10
  stdout := []
  stderr := []
  execTimeMs := 5
  finishedAt := 1001

/-- A job whose module does not compile. -/
def uncompiled : Execution :=
  { trapped with compile := .error "failed to parse WebAssembly module" }

theorem round_genuine (x : Execution) :
    oneSlot.Genuine tagCompute "node" (round aliceJob (x.execute aliceJob "node") 1000) := by
  refine genuine_cons trivial (genuine_cons trivial (genuine_cons trivial
    (genuine_cons (fun spec hspec => ⟨x, ?_⟩) genuine_nil)))
  -- The task is that of the job.
  have htask : ((((oneSlot.step tagCompute (.submit 1000 aliceJob)).scheduler.step tagCompute
      (.receive 1000 none)).scheduler.step tagCompute (.tick none)).scheduler.executing)[0]?
        = some aliceJob := by decide +kernel
  rw [htask, Option.some.injEq] at hspec
  rw [hspec]

end Scheduler

end Compute

end EssNode
