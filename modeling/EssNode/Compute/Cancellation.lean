import EssNode.Compute.Scheduler

/-!
# Cancelling a Job

What is left of a job after the loop has dealt with its cancellation.

The token that a cancellation sets is made by the loop and kept in the table of running
jobs. The executor has a token of its own and never sees that one, so a task that was
cancelled runs to its end, and its result is saved and reported like any other. A job
that still waits has no token; nothing looks for it in the queue, and it is started
when its turn comes.

So a cancellation has no effect at all. `cancel_takesEffect_iff` says this for every
state the scheduler can be in when it deals with one, whatever the executor makes of each
job: the job is silent from then on only if the scheduler has no permits, and then runs
nothing anyway.
-/

namespace EssNode

open Authority Bincode List Std.ExtTreeMap Text

namespace Compute

/-- An event reports that a job has come to its end. -/
def ComputeEvent.Ends (jobId : String) : ComputeEvent → Prop
  | .jobCompleted ended _ => ended = jobId
  | .jobFailed ended _ => ended = jobId
  | .jobQueued _ => False
  | .jobStarted _ => False
  | .jobCancelled _ => False

namespace Scheduler

/-! ### Tasks and the table of running jobs -/

/-- Every job in the table has a task, and every task a permit. -/
structure Sound (s : Scheduler) : Prop where
  listed : ∀ jobId : String, (s.handle.running[jobId]?).isSome →
    ∃ spec ∈ s.executing, spec.jobId = jobId
  bounded : s.executing.length ≤ s.maxConcurrentJobs

variable {env : ComputeEnv} {s : Scheduler}

theorem sound_spawn (maxConcurrentJobs : Nat) (authority : AuthorityState) (queue : JobQueue)
    (store : ComputeStore) : (spawn maxConcurrentJobs authority queue store).Sound where
  listed jobId h := by
    rw [show (spawn maxConcurrentJobs authority queue store).handle.running[jobId]? = none from
      getElem?_empty] at h
    exact absurd h (by simp)
  bounded := Nat.zero_le _

theorem Sound.of_running (h : s.Sound) {t : Scheduler} (hexecuting : t.executing = s.executing)
    (hslots : t.maxConcurrentJobs = s.maxConcurrentJobs)
    (hrunning : ∀ jobId : String,
      (t.handle.running[jobId]?).isSome → (s.handle.running[jobId]?).isSome) : t.Sound where
  listed jobId hjob := by
    rw [hexecuting]
    exact h.listed jobId (hrunning jobId hjob)
  bounded := by
    rw [hexecuting, hslots]
    exact h.bounded

theorem Sound.start (h : s.Sound) (hpermit : s.executing.length < s.maxConcurrentJobs)
    (spec : ComputeJobSpec) : (s.start spec).scheduler.Sound where
  listed jobId hjob := by
    change ∃ task ∈ s.executing ++ [spec], task.jobId = jobId
    by_cases hspec : spec.jobId = jobId
    · exact ⟨spec, mem_append_right _ (mem_singleton.mpr rfl), hspec⟩
    · change ((s.handle.running.insert spec.jobId false)[jobId]?).isSome = true at hjob
      rw [FinMap.find_insert, if_neg hspec] at hjob
      rcases h.listed jobId hjob with ⟨task, htask, hid⟩
      exact ⟨task, mem_append_left _ htask, hid⟩
  bounded := by
    change (s.executing ++ [spec]).length ≤ s.maxConcurrentJobs
    rw [length_append, length_singleton]
    omega

/-- The scheduler after a task has ended, before the loop goes on. -/
def ended (s : Scheduler) (task : Nat) (spec : ComputeJobSpec)
    (result : Except String ComputeResult) : Scheduler :=
  { s with
    handle := { s.handle with running := s.handle.running.erase spec.jobId }
    executing := s.executing.eraseIdx task
    store :=
      match result with
      | .ok res => s.store.saveResult res
      | .error _ => s.store }

def endEvent (spec : ComputeJobSpec) : Except String ComputeResult → ComputeEvent
  | .ok res => .jobCompleted spec.jobId res
  | .error text => .jobFailed spec.jobId text

theorem endEvent_ends (spec : ComputeJobSpec) (result : Except String ComputeResult) :
    (endEvent spec result).Ends spec.jobId := by
  cases result <;> rfl

theorem finish_eq {task : Nat} {spec : ComputeJobSpec} (htask : s.executing[task]? = some spec)
    (result : Except String ComputeResult) :
    s.finish task result =
      match s.blocked with
      | some next =>
        { (s.ended task spec result).start next with
          events := [endEvent spec result, .jobStarted next.jobId] }
      | none => { (s.ended task spec result).quiet with events := [endEvent spec result] } := by
  unfold finish
  rw [htask]
  cases result <;> rfl

theorem Sound.ended (h : s.Sound) {task : Nat} {spec : ComputeJobSpec}
    (htask : s.executing[task]? = some spec) (result : Except String ComputeResult) :
    (s.ended task spec result).Sound ∧
      (s.ended task spec result).executing.length < s.maxConcurrentJobs := by
  have hlt : task < s.executing.length := (List.getElem?_eq_some_iff.mp htask).1
  have hlength : (s.executing.eraseIdx task).length = s.executing.length - 1 :=
    length_eraseIdx_of_lt hlt
  have hbounded := h.bounded
  refine ⟨⟨fun jobId hjob => ?_, ?_⟩, ?_⟩
  · change ((s.handle.running.erase spec.jobId)[jobId]?).isSome = true at hjob
    rw [FinMap.find_erase] at hjob
    split at hjob
    · exact absurd hjob (by simp)
    · rename_i hne
      rcases h.listed jobId hjob with ⟨other, hother, hid⟩
      -- A task of another job is not the one that ended.
      refine ⟨other, ?_, hid⟩
      change other ∈ s.executing.eraseIdx task
      rcases mem_iff_getElem?.mp hother with ⟨i, hi⟩
      refine mem_eraseIdx_iff_getElem?.mpr ⟨i, fun heq => hne ?_, hi⟩
      rw [heq, htask] at hi
      rw [Option.some.inj hi, hid]
  · change (s.executing.eraseIdx task).length ≤ s.maxConcurrentJobs
    omega
  · change (s.executing.eraseIdx task).length < s.maxConcurrentJobs
    omega

theorem sound_receive (h : s.Sound) (now : UInt64) (fault : Option EnqueueFault) :
    (s.receive env now fault).scheduler.Sound := by
  rcases s.receive_cases env now fault with ⟨hreceive, -⟩ | ⟨spec, rest, -,
    ⟨text, hreceive, -⟩ | ⟨hreceive, -⟩ | ⟨f, hreceive, -⟩⟩ <;> rw [hreceive] <;>
    exact h.of_running rfl rfl fun _ => id

theorem sound_receiveCancel (h : s.Sound) : s.receiveCancel.scheduler.Sound := by
  obtain ⟨handle, told, hcancel, -, hrunning, -⟩ := s.receiveCancel_cases
  rw [hcancel]
  exact h.of_running rfl rfl hrunning

theorem sound_tick (h : s.Sound) (fault : Option DequeueFault) :
    (s.tick fault).scheduler.Sound := by
  rcases s.tick_cases fault with htick | ⟨-, key, value, -,
    ⟨-, htick⟩ | ⟨spec, -, ⟨hpermit, htick⟩ | htick⟩⟩ <;> rw [htick]
  · exact h
  · exact h.of_running rfl rfl fun _ => id
  · have htaken : Sound { s with queue := s.queue.without key } :=
      h.of_running rfl rfl fun _ => id
    exact htaken.start hpermit spec
  · exact h.of_running rfl rfl fun _ => id

theorem sound_finish (h : s.Sound) (task : Nat) (result : Except String ComputeResult) :
    (s.finish task result).scheduler.Sound := by
  cases htask : s.executing[task]? with
  | none =>
    unfold finish
    rw [htask]
    exact h
  | some spec =>
    obtain ⟨hsound, hpermit⟩ := h.ended htask result
    rw [finish_eq htask]
    cases s.blocked with
    | none => exact hsound
    -- The permit that was given back goes to the job that was waiting for it.
    | some next => exact hsound.start hpermit next

theorem sound_step (h : s.Sound) (event : SchedulerEvent) : (s.step env event).scheduler.Sound := by
  cases event with
  | submit now spec =>
    refine h.of_running rfl rfl fun jobId hjob => ?_
    rcases s.handle.submitJob_cases env now spec with ⟨-, -, hsubmit⟩ | ⟨-, e, hsubmit⟩
    · rw [step, hsubmit] at hjob
      exact hjob
    · rw [step, hsubmit] at hjob
      exact hjob
  | cancel jobId =>
    -- A token is set, and no job leaves the table.
    refine h.of_running rfl rfl fun other hother => ?_
    change ((s.handle.running.modify jobId fun _ => true)[other]?).isSome = true at hother
    rw [FinMap.find_modify] at hother
    split at hother
    · rwa [Option.isSome_map] at hother
    · exact hother
  | receive now fault => exact sound_receive h now fault
  | receiveCancel => exact sound_receiveCancel h
  | tick fault => exact sound_tick h fault
  | finish task result => exact sound_finish h task result
  | govern authority => exact h.of_running rfl rfl fun _ => id
  | restart => exact sound_spawn ..

theorem sound_run (h : s.Sound) (events : List SchedulerEvent) : (run env s events).Sound := by
  induction events generalizing s with
  | nil => exact h
  | cons event events ih => exact ih (sound_step h event)

/-! ### What a run has to do with a job -/

def saves (s : Scheduler) : SchedulerEvent → Option ComputeResult
  | .finish task (.ok res) => (s.executing[task]?).map fun _ => res
  | _ => none

variable (env) in
/-- An event starts a job, saves a result for it or reports its end. -/
def Concerns (jobId : String) (s : Scheduler) (event : SchedulerEvent) : Prop :=
  (∃ spec, (s.step env event).started = some spec ∧ spec.jobId = jobId) ∨
    (∃ res, s.saves event = some res ∧ res.jobId = jobId) ∨
    ∃ told ∈ (s.step env event).events, told.Ends jobId

variable (env) in
/-- No event of a run concerns a job. -/
def Silent (jobId : String) : Scheduler → List SchedulerEvent → Prop
  | _, [] => True
  | s, event :: events =>
    ¬ Concerns env jobId s event ∧ Silent jobId (s.step env event).scheduler events

/-- An event that does not submit a job again. A task ends with what the executor makes
    of its job. -/
def Admits (outcome : ComputeJobSpec → Except String ComputeResult) (jobId : String)
    (s : Scheduler) : SchedulerEvent → Prop
  | .submit _ spec => spec.jobId ≠ jobId
  | .finish task result => ∀ spec, s.executing[task]? = some spec → result = outcome spec
  | _ => True

variable (env) in
def Continues (outcome : ComputeJobSpec → Except String ComputeResult) (jobId : String) :
    Scheduler → List SchedulerEvent → Prop
  | _, [] => True
  | s, event :: events =>
    s.Admits outcome jobId event ∧ Continues outcome jobId (s.step env event).scheduler events

variable (env) in
/-- Whatever the loop and the tasks do, nothing concerns the job from here on. -/
def TakesEffect (outcome : ComputeJobSpec → Except String ComputeResult) (jobId : String)
    (s : Scheduler) : Prop :=
  ∀ later, Continues env outcome jobId s later → Silent env jobId s later

def Executing (jobId : String) (s : Scheduler) : Prop := ∃ spec ∈ s.executing, spec.jobId = jobId

/-- A job that waits: there is an entry for it in the queue. -/
def Queued (jobId : String) (s : Scheduler) : Prop :=
  ∃ (key value : List UInt8) (spec : ComputeJobSpec), s.queue.queue[key]? = some value ∧
    utf8Lossy value = jobId ∧ s.queue.jobs[jobKey jobId]? = some spec

section Effect

variable {outcome : ComputeJobSpec → Except String ComputeResult} {jobId : String}

theorem not_takesEffect_of_concerns (event : SchedulerEvent)
    (hadmits : s.Admits outcome jobId event) (hconcerns : Concerns env jobId s event) :
    ¬ TakesEffect env outcome jobId s :=
  fun heffect => (heffect [event] ⟨hadmits, trivial⟩).1 hconcerns

theorem not_takesEffect_of_step (event : SchedulerEvent)
    (hadmits : s.Admits outcome jobId event)
    (h : ¬ TakesEffect env outcome jobId (s.step env event).scheduler) :
    ¬ TakesEffect env outcome jobId s :=
  fun heffect => h fun later hcontinues => (heffect (event :: later) ⟨hadmits, hcontinues⟩).2

theorem admits_finish {task : Nat} {spec : ComputeJobSpec}
    (htask : s.executing[task]? = some spec) :
    s.Admits outcome jobId (.finish task (outcome spec)) := by
  intro other hother
  rw [htask] at hother
  rw [Option.some.inj hother]

theorem executing_concerned (h : s.Executing jobId) : ¬ TakesEffect env outcome jobId s := by
  rcases h with ⟨spec, hspec, hid⟩
  rcases mem_iff_getElem?.mp hspec with ⟨task, htask⟩
  refine not_takesEffect_of_concerns _ (admits_finish htask) (Or.inr (Or.inr ?_))
  refine ⟨endEvent spec (outcome spec), ?_, hid ▸ endEvent_ends spec _⟩
  change _ ∈ (s.finish task (outcome spec)).events
  -- The end of the task is told first, also if the loop then goes on with another job.
  rw [finish_eq htask]
  cases s.blocked with
  | none => exact mem_cons_self
  | some next => exact mem_cons_self

variable (env) in
theorem step_tick_none {queue : JobQueue} (hblocked : s.blocked = none)
    (hfree : s.handle.running.size < s.maxConcurrentJobs)
    (hdequeue : s.queue.dequeueNext none = (queue, .ok none)) :
    s.step env (.tick none) = quiet { s with queue := queue } := by
  rw [step_tick_free hblocked hfree, hdequeue]

/-- Nothing runs, and there is a permit. -/
structure Free (s : Scheduler) : Prop where
  slots : 0 < s.maxConcurrentJobs
  running : s.handle.running = ∅
  executing : s.executing = []
  blocked : s.blocked = none

variable (env) in
/-- A free scheduler starts the job of the first entry, and is free again when that has
    ended. -/
theorem Free.start_finish (h : s.Free) {key : List UInt8} {spec : ComputeJobSpec}
    (hdequeue : s.queue.dequeueNext none = (s.queue.without key, .ok (some spec)))
    (result : Except String ComputeResult) :
    ∃ turn, s.step env (.tick none) = turn ∧ turn.started = some spec ∧
      turn.scheduler.executing = [spec] ∧
      (turn.scheduler.step env (.finish 0 result)).scheduler.Free ∧
      (turn.scheduler.step env (.finish 0 result)).scheduler.queue = s.queue.without key := by
  have hfree : s.handle.running.size < s.maxConcurrentJobs := by
    rw [h.running, size_empty]
    exact h.slots
  have hpermit : s.executing.length < s.maxConcurrentJobs := by
    rw [h.executing]
    exact h.slots
  set turn : Turn := start { s with queue := s.queue.without key } spec with hturn
  have htask : turn.scheduler.executing = [spec] := by
    rw [hturn, start, h.executing, nil_append]
  have hfirst : turn.scheduler.executing[0]? = some spec := by rw [htask, getElem?_cons_zero]
  have hfinish : (turn.scheduler.step env (.finish 0 result)).scheduler
      = turn.scheduler.ended 0 spec result := by
    rw [step, finish_eq hfirst, show turn.scheduler.blocked = none from rfl]
    rfl
  refine ⟨turn, step_tick h.blocked hfree hpermit hdequeue, rfl, htask, ?_, ?_⟩
  · rw [hfinish]
    refine ⟨h.slots, ?_, ?_, rfl⟩
    · change (s.handle.running.insert spec.jobId false).erase spec.jobId = ∅
      rw [h.running, FinMap.erase_insert, FinMap.erase_of_none (by simp)]
    · change turn.scheduler.executing.eraseIdx 0 = []
      rw [htask, eraseIdx_cons_zero]
  · rw [hfinish]
    rfl

theorem Queued.without (h : s.Queued jobId) {key value : List UInt8} {t : Scheduler}
    (hfirst : s.queue.first = some (key, value)) (hother : utf8Lossy value ≠ jobId)
    (hqueue : t.queue = s.queue.without key) :
    t.Queued jobId ∧ t.queue.queue.size < s.queue.queue.size := by
  rcases h with ⟨waiting, named, spec, hentry, hnamed, hjob⟩
  have hfound := s.queue.find_first hfirst
  have hkey : key ≠ waiting := by
    intro heq
    rw [heq, hentry] at hfound
    rw [← Option.some.inj hfound] at hother
    exact hother hnamed
  rw [Queued, hqueue]
  refine ⟨⟨waiting, named, spec, ?_, hnamed, hjob⟩, ?_⟩
  · change (s.queue.queue.erase key)[waiting]? = some named
    rw [FinMap.find_erase, if_neg hkey]
    exact hentry
  · change (s.queue.queue.erase key).size < _
    exact FinMap.size_erase_lt hfound

/-- A free scheduler comes to every job that waits. The entries before it are taken out
    one by one, with their jobs or without. -/
theorem free_concerned (hfree : s.Free) (hqueued : s.Queued jobId) :
    ¬ TakesEffect env outcome jobId s := by
  -- By induction on the size of the queue: a tick takes the first entry out of it.
  induction hsize : s.queue.queue.size using Nat.strong_induction_on generalizing s with
  | h size ih =>
    have hslots : s.handle.running.size < s.maxConcurrentJobs := by
      rw [hfree.running, size_empty]
      exact hfree.slots
    rcases hqueued with ⟨waiting, named, spec, hentry, hnamed, hjob⟩
    obtain ⟨key, value, hfirst⟩ := s.queue.exists_first hentry
    have hdequeue := s.queue.dequeueNext_none hfirst
    by_cases hother : utf8Lossy value = jobId
    · -- It is the job's turn.
      rw [hother, hjob] at hdequeue
      rcases hfree.start_finish env hdequeue (.error "") with ⟨turn, hstep, hstarted, -⟩
      refine not_takesEffect_of_concerns (.tick none) trivial (Or.inl ⟨spec, ?_, ?_⟩)
      · rw [hstep, hstarted]
      · exact s.queue.keyed jobId spec hjob
    · have hqueued : s.Queued jobId := ⟨waiting, named, spec, hentry, hnamed, hjob⟩
      cases hfound : s.queue.jobs[jobKey (utf8Lossy value)]? with
      | none =>
        rw [hfound] at hdequeue
        have hstep := step_tick_none env hfree.blocked hslots hdequeue
        refine not_takesEffect_of_step (.tick none) trivial ?_
        rw [hstep]
        obtain ⟨hqueued', hless⟩ := hqueued.without
          (t := { s with queue := s.queue.without key }) hfirst hother rfl
        exact ih _ (hsize ▸ hless) ⟨hfree.slots, hfree.running, hfree.executing,
          hfree.blocked⟩ hqueued' rfl
      | some before =>
        rw [hfound] at hdequeue
        rcases hfree.start_finish env hdequeue (outcome before) with
          ⟨turn, hstep, -, htask, hfree', hqueue⟩
        refine not_takesEffect_of_step (.tick none) trivial ?_
        rw [hstep]
        refine not_takesEffect_of_step (.finish 0 (outcome before))
          (admits_finish (by rw [htask, getElem?_cons_zero])) ?_
        obtain ⟨hqueued', hless⟩ := hqueued.without hfirst hother hqueue
        exact ih _ (hsize ▸ hless) hfree' hqueued' rfl

/-- A job that waits is started. The tasks that run are brought to their ends first. -/
theorem queued_concerned (hsound : s.Sound) (hslots : 0 < s.maxConcurrentJobs)
    (hblocked : s.blocked = none) (hqueued : s.Queued jobId) :
    ¬ TakesEffect env outcome jobId s := by
  induction htasks : s.executing.length generalizing s with
  | zero =>
    -- Every job in the table has a task, so the table is empty as well.
    have hexecuting : s.executing = [] := length_eq_zero_iff.mp htasks
    have hrunning : s.handle.running = ∅ := by
      refine ext_getElem? fun listed => ?_
      rw [getElem?_empty, ← Option.not_isSome_iff_eq_none]
      intro hlisted
      rcases hsound.listed listed hlisted with ⟨spec, hspec, -⟩
      rw [hexecuting] at hspec
      exact absurd hspec not_mem_nil
    exact free_concerned ⟨hslots, hrunning, hexecuting, hblocked⟩ hqueued
  | succ tasks ih =>
    obtain ⟨spec, rest, hexecuting⟩ := exists_cons_of_length_eq_add_one htasks
    have htask : s.executing[0]? = some spec := by rw [hexecuting, getElem?_cons_zero]
    have hstep : (s.step env (.finish 0 (outcome spec))).scheduler
        = s.ended 0 spec (outcome spec) := by
      rw [step, finish_eq htask, hblocked]
      rfl
    refine not_takesEffect_of_step (.finish 0 (outcome spec)) (admits_finish htask) ?_
    rw [hstep]
    refine ih (hsound.ended htask _).1 hslots hblocked hqueued ?_
    change (s.executing.eraseIdx 0).length = tasks
    rw [hexecuting, eraseIdx_cons_zero]
    rw [hexecuting, length_cons] at htasks
    omega

/-! ### A scheduler without permits -/

/-- Nothing can run, and the job is not in the channel. -/
structure Shut (jobId : String) (s : Scheduler) : Prop where
  slots : s.maxConcurrentJobs = 0
  executing : s.executing = []
  blocked : s.blocked = none
  unsent : ∀ spec ∈ s.handle.submitted, spec.jobId ≠ jobId

theorem not_concerns {event : SchedulerEvent} (hstarted : (s.step env event).started = none)
    (hsaves : s.saves event = none)
    (hevents : ∀ told ∈ (s.step env event).events, ¬ told.Ends jobId) :
    ¬ Concerns env jobId s event := by
  rintro (⟨spec, hspec, -⟩ | ⟨res, hres, -⟩ | ⟨told, htold, hends⟩)
  · rw [hstarted] at hspec
    exact absurd hspec (by simp)
  · rw [hsaves] at hres
    exact absurd hres (by simp)
  · exact hevents told htold hends

theorem not_concerns_quiet {event : SchedulerEvent} {t : Scheduler}
    (hstep : s.step env event = t.quiet) (hsaves : s.saves event = none) :
    ¬ Concerns env jobId s event := by
  refine not_concerns ?_ hsaves ?_
  · rw [hstep]
    rfl
  · rw [hstep]
    exact fun told htold => absurd htold not_mem_nil

theorem shut_receive (h : s.Shut jobId) (now : UInt64) (fault : Option EnqueueFault) :
    ¬ Concerns env jobId s (.receive now fault) ∧
      (s.receive env now fault).scheduler.Shut jobId := by
  have hunsent := h.unsent
  rcases s.receive_cases env now fault with ⟨hreceive, -⟩ | ⟨spec, rest, hsubmitted, hcases⟩
  · refine ⟨not_concerns_quiet hreceive rfl, ?_⟩
    rw [hreceive]
    exact h
  rw [hsubmitted, forall_mem_cons] at hunsent
  rcases hcases with ⟨text, hreceive, -⟩ | ⟨hreceive, -⟩ | ⟨f, hreceive, -⟩
  · refine ⟨not_concerns (congrArg Turn.started hreceive) rfl fun event hevent hends => ?_, ?_⟩
    · rw [step, hreceive] at hevent
      rw [mem_singleton.mp hevent] at hends
      exact hunsent.1 hends
    · rw [hreceive]
      exact ⟨h.slots, h.executing, h.blocked, hunsent.2⟩
  · refine ⟨not_concerns (congrArg Turn.started hreceive) rfl fun event hevent hends => ?_, ?_⟩
    · rw [step, hreceive] at hevent
      rw [mem_singleton.mp hevent] at hends
      exact hends
    · rw [hreceive]
      exact ⟨h.slots, h.executing, h.blocked, hunsent.2⟩
  · refine ⟨not_concerns_quiet hreceive rfl, ?_⟩
    rw [hreceive]
    exact ⟨h.slots, h.executing, h.blocked, hunsent.2⟩

theorem shut_step (h : s.Shut jobId) {event : SchedulerEvent}
    (hadmits : s.Admits outcome jobId event) :
    ¬ Concerns env jobId s event ∧ (s.step env event).scheduler.Shut jobId := by
  cases event with
  | submit now spec =>
    refine ⟨not_concerns_quiet rfl rfl, ?_⟩
    rcases s.handle.submitJob_cases env now spec with ⟨-, -, hsubmit⟩ | ⟨-, e, hsubmit⟩
    · refine ⟨h.slots, h.executing, h.blocked, fun sent hsent => ?_⟩
      rw [step, hsubmit] at hsent
      rcases mem_append.mp hsent with hold | hnew
      · exact h.unsent sent hold
      · rw [mem_singleton.mp hnew]
        exact hadmits
    · refine ⟨h.slots, h.executing, h.blocked, fun sent hsent => ?_⟩
      rw [step, hsubmit] at hsent
      exact h.unsent sent hsent
  | cancel cancelled =>
    exact ⟨not_concerns_quiet rfl rfl,
      h.slots, h.executing, h.blocked, h.unsent⟩
  | receive now fault => exact shut_receive h now fault
  | receiveCancel =>
    obtain ⟨handle, told, hcancel, hsubmitted, -, htold⟩ := s.receiveCancel_cases
    refine ⟨not_concerns (congrArg Turn.started hcancel) rfl fun event hevent hends => ?_, ?_⟩
    · rw [step, hcancel] at hevent
      rcases htold with rfl | ⟨cancelled, rfl⟩
      · exact absurd hevent not_mem_nil
      · rw [mem_singleton.mp hevent] at hends
        exact hends
    · rw [step, hcancel]
      exact ⟨h.slots, h.executing, h.blocked,
        fun sent hsent => h.unsent sent (hsubmitted ▸ hsent)⟩
  | tick fault =>
    have hskip : s.blocked.isSome ∨ s.maxConcurrentJobs ≤ s.handle.running.size :=
      Or.inr (h.slots ▸ Nat.zero_le _)
    have hstep : s.step env (.tick fault) = s.quiet := by rw [step, tick, if_pos hskip]
    refine ⟨not_concerns_quiet hstep rfl, ?_⟩
    rw [hstep]
    exact h
  | finish task result =>
    have hnone : s.executing[task]? = none := by rw [h.executing, getElem?_nil]
    have hstep : s.step env (.finish task result) = s.quiet := by
      simp only [step, finish, hnone]
    refine ⟨not_concerns_quiet hstep ?_, ?_⟩
    · cases result with
      | error text => rfl
      | ok res =>
        rw [saves, hnone]
        rfl
    · rw [hstep]
      exact h
  | govern authority =>
    exact ⟨not_concerns_quiet rfl rfl,
      h.slots, h.executing, h.blocked, h.unsent⟩
  | restart =>
    exact ⟨not_concerns_quiet rfl rfl,
      h.slots, rfl, rfl, fun sent hsent => absurd hsent not_mem_nil⟩

theorem takesEffect_of_shut (h : s.Shut jobId) : TakesEffect env outcome jobId s := by
  intro later
  induction later generalizing s with
  | nil => exact fun _ => trivial
  | cons event later ih =>
    intro hcontinues
    obtain ⟨hsilent, hshut⟩ := shut_step h hcontinues.1
    exact ⟨hsilent, ih hshut hcontinues.2⟩

/-! ### After a cancellation -/

variable (env) in
/-- The states a scheduler can be in, whatever is on disk when it is spawned. -/
def Reachable (s : Scheduler) : Prop :=
  ∃ maxConcurrentJobs authority queue store events,
    s = run env (spawn maxConcurrentJobs authority queue store) events

/-- The cancellation of a job is what the loop takes out of that channel next. -/
structure Cancelling (jobId : String) (s : Scheduler) : Prop where
  blocked : s.blocked = none
  next : s.handle.cancelled.head? = some jobId

/-- When the loop has dealt with the cancellation of a job that runs or waits, nothing
    more comes of the job if, and only if, the scheduler has no permits. -/
theorem cancel_takesEffect_iff (outcome : ComputeJobSpec → Except String ComputeResult)
    (hreachable : Reachable env s) (hcancelling : s.Cancelling jobId)
    (hjob : s.Executing jobId ∨ s.Queued jobId)
    (hunsent : ∀ spec ∈ s.handle.submitted, spec.jobId ≠ jobId) :
    TakesEffect env outcome jobId (s.step env .receiveCancel).scheduler
      ↔ s.maxConcurrentJobs = 0 := by
  have hsound : s.Sound := by
    rcases hreachable with ⟨maxConcurrentJobs, authority, queue, store, events, rfl⟩
    exact sound_run (sound_spawn ..) events
  have hsound' : (s.step env .receiveCancel).scheduler.Sound := sound_step hsound .receiveCancel
  rcases s.receiveCancel_cases with ⟨handle, told, hcancel, hsubmitted, -⟩
  have hstep : (s.step env .receiveCancel).scheduler = { s with handle := handle } :=
    congrArg Turn.scheduler hcancel
  rw [hstep] at hsound' ⊢
  constructor
  · intro heffect
    by_contra hslots
    rcases hjob with hexecuting | hqueued
    · have hstill : Executing jobId { s with handle := handle } := hexecuting
      exact executing_concerned hstill heffect
    · have hstill : Queued jobId { s with handle := handle } := hqueued
      exact queued_concerned hsound' (Nat.pos_of_ne_zero hslots) hcancelling.blocked hstill heffect
  · intro hslots
    have hnone : s.executing = [] := by
      have hbounded := hsound.bounded
      rw [hslots] at hbounded
      exact length_eq_zero_iff.mp (Nat.le_zero.mp hbounded)
    refine takesEffect_of_shut ⟨hslots, hnone, hcancelling.blocked, fun sent hsent => ?_⟩
    exact hunsent sent (hsubmitted ▸ hsent)

end Effect

def noSlots : Scheduler := spawn 0 twoSubmitters.authority .empty ⟨∅⟩

def queuedAndCancelled : List SchedulerEvent :=
  [.submit 1000 aliceJob, .receive 1000 none, .cancel "job"]

/-- Where nothing runs, a job that waits and is cancelled is never heard of again. -/
theorem takesEffect_noSlots :
    (run tagCompute noSlots queuedAndCancelled).Queued "job" ∧
      ∀ outcome, TakesEffect tagCompute outcome "job"
        ((run tagCompute noSlots queuedAndCancelled).step tagCompute .receiveCancel).scheduler := by
  -- The job is in the queue, and its cancellation is the next thing in its channel.
  have hstate : (run tagCompute noSlots queuedAndCancelled).queue.queue[queueKey aliceJob]?
        = some (utf8 "job") ∧
      (run tagCompute noSlots queuedAndCancelled).queue.jobs[jobKey "job"]? = some aliceJob ∧
      (run tagCompute noSlots queuedAndCancelled).blocked = none ∧
      (run tagCompute noSlots queuedAndCancelled).handle.cancelled.head? = some "job" ∧
      (run tagCompute noSlots queuedAndCancelled).handle.submitted = [] ∧
      (run tagCompute noSlots queuedAndCancelled).maxConcurrentJobs = 0 := by
    decide +kernel
  obtain ⟨hentry, hjob, hblocked, hnext, hsent, hslots⟩ := hstate
  have hqueued : (run tagCompute noSlots queuedAndCancelled).Queued "job" :=
    ⟨queueKey aliceJob, utf8 "job", aliceJob, hentry, utf8Lossy_utf8 "job", hjob⟩
  have hreachable : Reachable tagCompute (run tagCompute noSlots queuedAndCancelled) :=
    ⟨0, _, _, _, queuedAndCancelled, rfl⟩
  refine ⟨hqueued, fun outcome => ?_⟩
  refine (cancel_takesEffect_iff outcome hreachable ⟨hblocked, hnext⟩ (Or.inr hqueued)
    fun spec hspec => ?_).mpr hslots
  rw [hsent] at hspec
  exact absurd hspec not_mem_nil

def startedAndCancelled : List SchedulerEvent :=
  [.submit 1000 aliceJob, .receive 1000 none, .tick none, .cancel "job"]

/-- What running the job gave. -/
def aliceResult : ComputeResult where
  jobId := "job"
  status := .completed 1001
  output := [42]
  stderr := []
  exitCode := 0
  fuelConsumed := 10
  execTimeMs := 5
  memoryUsedBytes := 0
  executorPeerId := "node"
  submitterPeerId := "alice"
  finishedAt := 1001

/-- The loop deals with the cancellation of a job that waits, and of one that runs. -/
def waitingCancelled : Turn :=
  (run tagCompute oneSlot queuedAndCancelled).step tagCompute .receiveCancel

def runningCancelled : Turn :=
  (run tagCompute oneSlot startedAndCancelled).step tagCompute .receiveCancel

/-- The first is started, and the result of the second is saved and reported. -/
theorem cancelled_job_runs :
    (waitingCancelled.events = [] ∧
      (waitingCancelled.scheduler.step tagCompute (.tick none)).started = some aliceJob) ∧
    (runningCancelled.events = [.jobCancelled "job"] ∧
      (runningCancelled.scheduler.step tagCompute (.finish 0 (.ok aliceResult))).events
        = [.jobCompleted "job" aliceResult] ∧
      (runningCancelled.scheduler.step tagCompute
        (.finish 0 (.ok aliceResult))).scheduler.store.getResult "job" = some aliceResult) := by
  decide +kernel

end Scheduler

end Compute

end EssNode
