import EssNode.Compute.Queue

/-!
# The Scheduler

The loop that takes jobs out of the channel into the queue, and out of the queue to run them,
over whole runs of it.

A job is checked when it is submitted and again when the loop takes it out of the channel.
Neither check knows of jobs that came before: nothing is kept of a job that was taken out of the
queue but its result, and that is not looked at. So the same signed job can be submitted again
as long as it is not too old, and is run again. Its age is a difference that stops at zero, so a
job can be dated any time ahead, and is then not too old until long after.

The loop waits for a permit while it holds a job that it took out (`blocked`). This happens when
a job that still runs was cancelled: it is struck off the table of running jobs, which is what
the loop looks at first, but keeps its permit. A job held like this is lost when the node stops;
so are the channels. The two trees of the queue and the results stay.

A run of the scheduler is a run of the queue (`queue_run`), and what it starts was taken out of
the queue, in that order (`starts_sublist`).
-/

namespace EssNode

open Authority List

namespace Compute

open QueueOp

/-! ### The loop -/

/-- What the scheduler tells those who listen. -/
inductive ComputeEvent where
  | jobQueued (jobId : String)
  | jobStarted (jobId : String)
  | jobCompleted (jobId : String) (result : ComputeResult)
  | jobFailed (jobId text : String)
  | jobCancelled (jobId : String)
deriving DecidableEq

/-- The scheduler: its channels and table of running jobs, what is on disk, the tasks
    that hold a permit, and a job that the loop took out and waits with for a permit. -/
structure Scheduler where
  maxConcurrentJobs : Nat
  handle : ComputeSchedulerHandle
  queue : JobQueue
  store : ComputeStore
  executing : List ComputeJobSpec
  blocked : Option ComputeJobSpec

/-- What happens to a scheduler: calls of its handle, what its loop takes next, the end
    of a task, and from outside a change of the authority and a restart of the node. -/
inductive SchedulerEvent where
  | submit (now : UInt64) (spec : ComputeJobSpec)
  | cancel (jobId : String)
  | receive (now : UInt64) (fault : Option EnqueueFault)
  | receiveCancel
  | tick (fault : Option DequeueFault)
  | finish (task : Nat) (result : Except String ComputeResult)
  | govern (authority : AuthorityState)
  | restart

structure Turn where
  scheduler : Scheduler
  events : List ComputeEvent
  started : Option ComputeJobSpec

namespace Scheduler

/-- A scheduler over what is on disk. -/
def spawn (maxConcurrentJobs : Nat) (authority : AuthorityState) (queue : JobQueue)
    (store : ComputeStore) : Scheduler where
  maxConcurrentJobs := maxConcurrentJobs
  handle := { submitted := [], cancelled := [], running := ∅, authority := authority }
  queue := queue
  store := store
  executing := []
  blocked := none

variable (env : ComputeEnv) (self : Scheduler)

/-- Nothing is started and nobody is told anything. -/
def quiet : Turn where
  scheduler := self
  events := []
  started := none

/-- Start a task for a job. -/
def start (spec : ComputeJobSpec) : Turn where
  scheduler :=
    { self with
      handle := { self.handle with running := self.handle.running.insert spec.jobId false }
      executing := self.executing ++ [spec]
      blocked := none }
  events := [.jobStarted spec.jobId]
  started := some spec

/-- Take a job out of the channel into the queue. -/
def receive (now : UInt64) (fault : Option EnqueueFault) : Turn :=
  match self.blocked, self.handle.submitted with
  | none, spec :: rest =>
    let taken := { self with handle := { self.handle with submitted := rest } }
    -- Its age is checked once more, by the clock of now.
    match spec.validate env now with
    | .error e =>
      { taken.quiet with
        events := [.jobFailed spec.jobId ("invalid signature: " ++ e.display)] }
    | .ok () =>
      match self.queue.enqueue fault spec with
      | (queue, .ok ()) =>
        { quiet { taken with queue := queue } with events := [.jobQueued spec.jobId] }
      | (queue, .error _) => quiet { taken with queue := queue }
  | _, _ => self.quiet

/-- Strike a cancelled job off the table. Its task goes on. -/
def receiveCancel : Turn :=
  match self.blocked, self.handle.cancelled with
  | none, jobId :: rest =>
    let taken := { self.handle with cancelled := rest }
    match self.handle.running[jobId]? with
    | some _ =>
      { quiet { self with
          handle := { taken with running := self.handle.running.erase jobId } } with
        events := [.jobCancelled jobId] }
    | none => quiet { self with handle := taken }
  | _, _ => self.quiet

/-- Take a job out of the queue and start it, or wait for a permit. -/
def tick (fault : Option DequeueFault) : Turn :=
  if self.blocked.isSome ∨ self.maxConcurrentJobs ≤ self.handle.running.size then self.quiet
  else
    match self.queue.dequeueNext fault with
    | (queue, .ok (some spec)) =>
      -- Tasks that were cancelled are off the table and still have their permits.
      if self.executing.length < self.maxConcurrentJobs then
        start { self with queue := queue } spec
      else quiet { self with queue := queue, blocked := some spec }
    | (queue, _) => quiet { self with queue := queue }

/-- A task ends and gives its permit back. -/
def finish (task : Nat) (result : Except String ComputeResult) : Turn :=
  match self.executing[task]? with
  | none => self.quiet
  | some spec =>
    let ended :=
      { self with
        handle := { self.handle with running := self.handle.running.erase spec.jobId }
        executing := self.executing.eraseIdx task
        store :=
          match result with
          | .ok res => self.store.saveResult res
          | .error _ => self.store }
    let event :=
      match result with
      | .ok res => .jobCompleted spec.jobId res
      | .error text => .jobFailed spec.jobId text
    -- The loop goes on with the job it was waiting with.
    match self.blocked with
    | some next => { ended.start next with events := [event, .jobStarted next.jobId] }
    | none => { ended.quiet with events := [event] }

def step : SchedulerEvent → Turn
  | .submit now spec => quiet { self with handle := (self.handle.submitJob env now spec).1 }
  | .cancel jobId => quiet { self with handle := self.handle.cancelJob jobId }
  | .receive now fault => self.receive env now fault
  | .receiveCancel => self.receiveCancel
  | .tick fault => self.tick fault
  | .finish task result => self.finish task result
  | .govern authority => quiet { self with handle := { self.handle with authority := authority } }
  -- What was in the channels, ran or was waiting is gone.
  | .restart => quiet (spawn self.maxConcurrentJobs self.handle.authority self.queue self.store)

/-! ### Runs -/

def run : Scheduler → List SchedulerEvent → Scheduler :=
  foldl fun s event => (s.step env event).scheduler

def starts : Scheduler → List SchedulerEvent → List ComputeJobSpec
  | _, [] => []
  | s, event :: events =>
    (s.step env event).started.toList ++ starts (s.step env event).scheduler events

/-- What an event does with the queue. -/
def queueOp : SchedulerEvent → Option QueueOp
  | .receive now fault =>
    match self.blocked, self.handle.submitted with
    | none, spec :: _ =>
      match spec.validate env now with
      | .error _ => none
      | .ok () => some (.enqueue fault spec)
    | _, _ => none
  | .tick fault =>
    if self.blocked.isSome ∨ self.maxConcurrentJobs ≤ self.handle.running.size then none
    else some (.dequeue fault)
  | _ => none

def queueOps : Scheduler → List SchedulerEvent → List QueueOp
  | _, [] => []
  | s, event :: events =>
    (s.queueOp env event).toList ++ queueOps (s.step env event).scheduler events

def AcceptedAt (events : List SchedulerEvent) (now : UInt64) (spec : ComputeJobSpec) : Prop :=
  ∃ before after, events = before ++ .submit now spec :: after ∧
    (run env self before).handle.Accepts env now spec

theorem starts_append (s : Scheduler) (events events' : List SchedulerEvent) :
    starts env s (events ++ events')
      = starts env s events ++ starts env (run env s events) events' := by
  induction events generalizing s with
  | nil => rfl
  | cons event events ih =>
    rw [cons_append, starts, starts, ih, append_assoc]
    rfl

/-! ### What the loop can do -/

/-- A job that is taken out of the channel is refused, goes into the queue, or is lost by a
    fault. -/
theorem receive_cases (now : UInt64) (fault : Option EnqueueFault) :
    (self.receive env now fault = self.quiet ∧ self.queueOp env (.receive now fault) = none) ∨
      ∃ spec rest, self.handle.submitted = spec :: rest ∧
        let taken := { self with handle := { self.handle with submitted := rest } }
        ((∃ text, self.receive env now fault
              = { taken.quiet with events := [.jobFailed spec.jobId text] } ∧
            self.queueOp env (.receive now fault) = none) ∨
          (self.receive env now fault
              = { quiet { taken with queue := self.queue.withJob spec } with
                  events := [.jobQueued spec.jobId] } ∧
            self.queueOp env (.receive now fault) = some (.enqueue none spec)) ∨
          ∃ f, self.receive env now fault = taken.quiet ∧
            self.queueOp env (.receive now fault) = some (.enqueue (some f) spec)) := by
  unfold receive queueOp
  split
  · rename_i spec rest hblocked hsubmitted
    refine Or.inr ⟨spec, rest, hsubmitted, ?_⟩
    dsimp only
    cases spec.validate env now with
    | error e => exact Or.inl ⟨_, rfl, rfl⟩
    | ok u =>
      cases fault with
      | none => exact Or.inr (Or.inl ⟨rfl, rfl⟩)
      | some f => cases f <;> exact Or.inr (Or.inr ⟨_, rfl, rfl⟩)
  · exact Or.inl ⟨rfl, rfl⟩

theorem receiveCancel_cases :
    ∃ handle told, self.receiveCancel
        = { quiet { self with handle := handle } with events := told } ∧
      handle.submitted = self.handle.submitted ∧
      (∀ jobId : String, (handle.running[jobId]?).isSome →
        (self.handle.running[jobId]?).isSome) ∧
      (told = [] ∨ ∃ jobId, told = [.jobCancelled jobId]) := by
  unfold receiveCancel
  split
  · rename_i jobId rest hblocked hcancelled
    dsimp only
    split
    · refine ⟨_, _, rfl, rfl, fun other hother => ?_, Or.inr ⟨jobId, rfl⟩⟩
      rw [FinMap.find_erase] at hother
      split at hother
      · exact absurd hother Bool.false_ne_true
      · exact hother
    · exact ⟨_, [], rfl, rfl, fun _ => id, Or.inl rfl⟩
  · exact ⟨self.handle, [], rfl, rfl, fun _ => id, Or.inl rfl⟩

/-- A loop that waits for nothing takes the first entry out of the queue, and the job under its
    identifier is started or held back. -/
theorem tick_cases (fault : Option DequeueFault) :
    self.tick fault = self.quiet ∨ (self.blocked = none ∧
      ∃ key value, self.queue.first = some (key, value) ∧
        let rest := { self with queue := self.queue.without key }
        ((self.queue.jobs[jobKey (Text.utf8Lossy value)]? = none ∧ self.tick fault = rest.quiet) ∨
          ∃ spec, self.queue.jobs[jobKey (Text.utf8Lossy value)]? = some spec ∧
            ((self.executing.length < self.maxConcurrentJobs ∧
                self.tick fault = rest.start spec) ∨
              self.tick fault = quiet { rest with blocked := some spec }))) := by
  unfold tick
  by_cases hskip : self.blocked.isSome ∨ self.maxConcurrentJobs ≤ self.handle.running.size
  · exact Or.inl (if_pos hskip)
  rw [if_neg hskip]
  rcases self.queue.dequeueNext_cases fault with
    ⟨result, hdequeue, hresult⟩ | ⟨key, value, result, hfirst, hdequeue, hjob⟩
  · left
    rw [hdequeue]
    split
    · rename_i queue spec heq
      exact absurd (Prod.mk.inj heq).2 (hresult spec)
    · rename_i queue other hne heq
      rw [← (Prod.mk.inj heq).1]
  · refine Or.inr ⟨Option.not_isSome_iff_eq_none.mp fun h => hskip (Or.inl h), key, value,
      hfirst, ?_⟩
    rw [hdequeue, ← hjob]
    cases result with
    | none => exact Or.inl ⟨rfl, rfl⟩
    | some spec =>
      refine Or.inr ⟨spec, rfl, ?_⟩
      dsimp only
      by_cases hpermit : self.executing.length < self.maxConcurrentJobs
      · rw [if_pos hpermit]
        exact Or.inl ⟨hpermit, rfl⟩
      · rw [if_neg hpermit]
        exact Or.inr rfl

/-! ### A run of the queue -/

/-- An event does with the queue what is said, and what it starts or holds back was held
    back before or is taken out. -/
structure Follows (before : Scheduler) (turn : Turn) (op : Option QueueOp) : Prop where
  queue : turn.scheduler.queue = QueueOp.run before.queue op.toList
  started : (turn.started.toList ++ turn.scheduler.blocked.toList).Sublist
    (before.blocked.toList ++ dequeued before.queue op.toList)

variable {env self}

theorem follows_of_same {turn : Turn} (hqueue : turn.scheduler.queue = self.queue)
    (hblocked : turn.scheduler.blocked = self.blocked) (hstarted : turn.started = none) :
    self.Follows turn none := by
  refine ⟨hqueue, ?_⟩
  rw [hblocked, hstarted]
  exact sublist_append_left _ _

theorem receive_follows (now : UInt64) (fault : Option EnqueueFault) :
    self.Follows (self.receive env now fault) (self.queueOp env (.receive now fault)) := by
  -- In the queue or not, the job is not started yet.
  rcases self.receive_cases env now fault with ⟨hreceive, hop⟩ | ⟨spec, rest, -,
    ⟨text, hreceive, hop⟩ | ⟨hreceive, hop⟩ | ⟨f, hreceive, hop⟩⟩ <;> rw [hreceive, hop]
  · exact follows_of_same rfl rfl rfl
  · exact follows_of_same rfl rfl rfl
  · exact ⟨rfl, sublist_append_left _ _⟩
  · cases f <;> exact ⟨rfl, sublist_append_left _ _⟩

theorem receiveCancel_follows : self.Follows self.receiveCancel none := by
  obtain ⟨handle, told, hcancel, -⟩ := self.receiveCancel_cases
  rw [hcancel]
  exact follows_of_same rfl rfl rfl

theorem tick_follows (fault : Option DequeueFault) :
    self.Follows (self.tick fault) (self.queueOp env (.tick fault)) := by
  unfold tick queueOp
  dsimp only
  by_cases hskip : self.blocked.isSome ∨ self.maxConcurrentJobs ≤ self.handle.running.size
  · rw [if_pos hskip, if_pos hskip]
    exact follows_of_same rfl rfl rfl
  · rw [if_neg hskip, if_neg hskip]
    have hleaves : dequeued self.queue [.dequeue fault]
        = ((dequeue fault).leaves self.queue).toList := by
      rw [dequeued, dequeued, append_nil]
    have hblocked : self.blocked = none := by
      rw [← Option.not_isSome_iff_eq_none]
      exact fun h => hskip (Or.inl h)
    split
    · rename_i queue spec hdequeue
      have htaken : dequeued self.queue [.dequeue fault] = [spec] := by
        rw [hleaves, leaves, hdequeue]
        rfl
      have hqueue : queue = QueueOp.run self.queue [.dequeue fault] := by
        simp [QueueOp.run, QueueOp.step, hdequeue]
      -- The job that is taken out is either started or held back.
      split
      · exact ⟨hqueue, by simp [start, htaken]⟩
      · exact ⟨hqueue, by simp [quiet, htaken]⟩
    · rename_i queue result hnone hdequeue
      exact ⟨by simp [quiet, QueueOp.run, QueueOp.step, hdequeue],
        by simp [quiet, hblocked]⟩

theorem finish_follows (task : Nat) (result : Except String ComputeResult) :
    self.Follows (self.finish task result) none := by
  unfold finish
  split
  · exact follows_of_same rfl rfl rfl
  · dsimp only
    split
    · rename_i next hblocked
      -- The permit goes to the job that was held back.
      exact ⟨rfl, by simp [start, hblocked]⟩
    · rename_i hblocked
      exact follows_of_same rfl rfl rfl

theorem step_follows (event : SchedulerEvent) :
    self.Follows (self.step env event) (self.queueOp env event) := by
  cases event with
  | submit now spec => exact follows_of_same rfl rfl rfl
  | cancel jobId => exact follows_of_same rfl rfl rfl
  | receive now fault => exact receive_follows now fault
  | receiveCancel => exact receiveCancel_follows
  | tick fault => exact tick_follows fault
  | finish task result => exact finish_follows task result
  | govern authority => exact follows_of_same rfl rfl rfl
  | restart => exact ⟨rfl, nil_sublist _⟩

variable (env) in
/-- What a run starts, and what it holds back at the end, was held back at its start or
    was taken out of the queue, in that order. -/
theorem starts_sublist (s : Scheduler) (events : List SchedulerEvent) :
    (starts env s events ++ (run env s events).blocked.toList).Sublist
      (s.blocked.toList ++ dequeued s.queue (queueOps env s events)) := by
  induction events generalizing s with
  | nil => exact sublist_append_left _ _
  | cons event events ih =>
    have hfirst : s.Follows (s.step env event) (s.queueOp env event) := step_follows event
    have hrest := ih (s.step env event).scheduler
    rw [starts, queueOps, dequeued_append, ← hfirst.queue, append_assoc]
    -- What the first event holds back is either started later or held back to the end.
    have hlater := hrest.append_left (s.step env event).started.toList
    have hnow := hfirst.started.append_right (dequeued
      (s.step env event).scheduler.queue (queueOps env (s.step env event).scheduler events))
    rw [← append_assoc _ _ (dequeued _ _)] at hlater
    rw [append_assoc s.blocked.toList] at hnow
    exact hlater.trans hnow

theorem starts_le_makers (env : ComputeEnv) {s : Scheduler} (hqueue : s.queue = .empty)
    (hblocked : s.blocked = none) (events : List SchedulerEvent) (spec : ComputeJobSpec) :
    (starts env s events).count spec
      ≤ countId spec.jobId (makers .empty (queueOps env s events)) := by
  have hsublist := starts_sublist env s events
  rw [hqueue, hblocked, Option.toList_none, nil_append] at hsublist
  have hmakers := dequeued_le_makers .empty (queueOps env s events) spec.jobId
  have hempty : waiting .empty spec.jobId = 0 := by
    simp [waiting, JobQueue.empty, FinMap.count]
  calc (starts env s events).count spec
      ≤ countId spec.jobId (starts env s events) :=
        countP_mono_left fun other _ hother => by simp [eq_of_beq hother]
    _ ≤ countId spec.jobId (dequeued .empty (queueOps env s events)) :=
        ((sublist_append_left _ _).trans hsublist).countP_le
    _ ≤ countId spec.jobId (makers .empty (queueOps env s events)) := by omega

end Scheduler

/-! ### Fresh jobs -/

/-- The clock is within fifteen minutes of a job's date. -/
def ComputeJobSpec.Fresh (now : UInt64) (spec : ComputeJobSpec) : Prop :=
  now.toNat ≤ spec.createdAt.toNat + 900 ∧ spec.createdAt.toNat ≤ now.toNat + 900

def SchedulerEvent.now? : SchedulerEvent → Option UInt64
  | .submit now _ => some now
  | .receive now _ => some now
  | _ => none

def Clocked (events : List SchedulerEvent) : Prop :=
  (events.filterMap SchedulerEvent.now?).Pairwise (· ≤ ·)

instance (events : List SchedulerEvent) : Decidable (Clocked events) :=
  inferInstanceAs (Decidable (List.Pairwise _ _))

namespace Scheduler

/-- A job that is accepted in a run is fresh just if it is not dated too far ahead, and
    it is started once at most if at most one entry is made under its identifier. -/
theorem accepted_and_started (env : ComputeEnv) (maxConcurrentJobs : Nat)
    (authority : AuthorityState) (store : ComputeStore) (events : List SchedulerEvent)
    (spec : ComputeJobSpec) :
    (∀ now, AcceptedAt env (spawn maxConcurrentJobs authority .empty store) events now spec →
      (spec.Fresh now ↔ spec.createdAt.toNat ≤ now.toNat + 900)) ∧
    (QueueOp.countId spec.jobId (QueueOp.makers .empty
        (queueOps env (spawn maxConcurrentJobs authority .empty store) events)) ≤ 1 →
      (starts env (spawn maxConcurrentJobs authority .empty store) events).count spec ≤ 1) := by
  constructor
  · rintro now ⟨before, after, -, haccepts⟩
    have hage := (ComputeSchedulerHandle.accepts_iff.mp haccepts).2.fresh
    unfold ComputeJobSpec.Fresh
    omega
  · intro honce
    exact (starts_le_makers env rfl rfl events spec).trans honce

/-! ### Jobs that come again -/

section Steps

variable {env : ComputeEnv} {s : Scheduler} {now : UInt64} {spec : ComputeJobSpec}

theorem step_submit (haccepts : s.handle.Accepts env now spec) :
    s.step env (.submit now spec)
      = quiet { s with
          handle := { s.handle with submitted := s.handle.submitted ++ [spec] } } := by
  rcases s.handle.submitJob_cases env now spec with ⟨-, -, hsubmit⟩ | ⟨-, e, hsubmit⟩
  · rw [step, hsubmit]
  · rw [ComputeSchedulerHandle.Accepts, hsubmit] at haccepts
    exact absurd haccepts (by simp)

theorem step_receive {rest : List ComputeJobSpec} (hblocked : s.blocked = none)
    (hsubmitted : s.handle.submitted = spec :: rest) (hvalid : spec.Valid env now) :
    s.step env (.receive now none)
      = { quiet { s with
            handle := { s.handle with submitted := rest }, queue := s.queue.withJob spec } with
          events := [.jobQueued spec.jobId] } := by
  simp only [step, receive, hblocked, hsubmitted, validate_eq_ok_iff.mpr hvalid,
    JobQueue.enqueue]

theorem step_tick_free (hblocked : s.blocked = none)
    (hfree : s.handle.running.size < s.maxConcurrentJobs) (fault : Option DequeueFault) :
    s.step env (.tick fault) =
      match s.queue.dequeueNext fault with
      | (queue, .ok (some spec)) =>
        if s.executing.length < s.maxConcurrentJobs then start { s with queue := queue } spec
        else quiet { s with queue := queue, blocked := some spec }
      | (queue, _) => quiet { s with queue := queue } := by
  have hgo : ¬ (s.blocked.isSome ∨ s.maxConcurrentJobs ≤ s.handle.running.size) := by
    rw [hblocked, Option.isSome_none]
    rintro (h | h)
    · exact Bool.false_ne_true h
    · omega
  rw [step, tick, if_neg hgo]

theorem step_tick {queue : JobQueue} (hblocked : s.blocked = none)
    (hfree : s.handle.running.size < s.maxConcurrentJobs)
    (hpermit : s.executing.length < s.maxConcurrentJobs)
    (hdequeue : s.queue.dequeueNext none = (queue, .ok (some spec))) :
    s.step env (.tick none) = start { s with queue := queue } spec := by
  rw [step_tick_free hblocked hfree, hdequeue]
  exact if_pos hpermit

end Steps

/-- Nothing waits and nothing runs. -/
structure Idle (s : Scheduler) : Prop where
  slots : 0 < s.maxConcurrentJobs
  submitted : s.handle.submitted = []
  running : s.handle.running = ∅
  queue : s.queue.queue = ∅
  executing : s.executing = []
  blocked : s.blocked = none

variable {env : ComputeEnv} {s : Scheduler}

theorem finish_idle {spec : ComputeJobSpec} (hslots : 0 < s.maxConcurrentJobs)
    (hsubmitted : s.handle.submitted = []) (hrunning : s.handle.running.erase spec.jobId = ∅)
    (hqueue : s.queue.queue = ∅) (htask : s.executing = [spec]) (hblocked : s.blocked = none)
    (result : Except String ComputeResult) :
    (s.finish 0 result).started = none ∧ (s.finish 0 result).scheduler.Idle ∧
      (s.finish 0 result).scheduler.handle.authority = s.handle.authority := by
  simp only [finish, htask, getElem?_cons_zero, hblocked]
  exact ⟨rfl, ⟨hslots, hsubmitted, hrunning, hqueue, rfl, rfl⟩, rfl⟩

/-- A job is submitted, goes through the queue and is run. -/
def round (spec : ComputeJobSpec) (result : Except String ComputeResult) (now : UInt64) :
    List SchedulerEvent :=
  [.submit now spec, .receive now none, .tick none, .finish 0 result]

theorem round_starts (hidle : s.Idle) {now : UInt64} {spec : ComputeJobSpec}
    (haccepts : s.handle.Accepts env now spec) (result : Except String ComputeResult) :
    starts env s (round spec result now) = [spec] ∧ (run env s (round spec result now)).Idle ∧
      (run env s (round spec result now)).handle.authority = s.handle.authority := by
  have hvalid := (ComputeSchedulerHandle.accepts_iff.mp haccepts).2
  obtain ⟨hdequeue, hempty⟩ := s.queue.dequeueNext_withJob hidle.queue spec
  have hrunning : (s.handle.running.insert spec.jobId false).erase spec.jobId = ∅ := by
    rw [hidle.running, FinMap.erase_insert, FinMap.erase_of_none (by simp)]
  have hfree : s.handle.running.size < s.maxConcurrentJobs := by
    rw [hidle.running, Std.ExtTreeMap.size_empty]
    exact hidle.slots
  have hpermit : s.executing.length < s.maxConcurrentJobs := by
    rw [hidle.executing]
    exact hidle.slots
  -- The scheduler with the job in the channel, in the queue, and running.
  set sent : Scheduler :=
    { s with handle := { s.handle with submitted := s.handle.submitted ++ [spec] } } with hsent
  set queued : Scheduler :=
    { s with handle := { s.handle with submitted := [] }, queue := s.queue.withJob spec }
    with hqueued
  set running : Turn :=
    start { queued with queue := (s.queue.withJob spec).without (queueKey spec) } spec
    with hrun
  have hsubmit : s.step env (.submit now spec) = sent.quiet := step_submit haccepts
  have hreceive : sent.step env (.receive now none)
      = { queued.quiet with events := [.jobQueued spec.jobId] } :=
    step_receive hidle.blocked (by rw [hsent, hidle.submitted, nil_append]) hvalid
  have htick : queued.step env (.tick none) = running :=
    step_tick hidle.blocked hfree hpermit hdequeue
  have htask : running.scheduler.executing = [spec] := by
    rw [hrun, start, hqueued, hidle.executing, nil_append]
  obtain ⟨hnone, hagain, hauthority⟩ :=
    finish_idle (s := running.scheduler) hidle.slots rfl hrunning hempty htask rfl result
  have hfinish : running.scheduler.step env (.finish 0 result)
      = running.scheduler.finish 0 result := rfl
  have hstarts : starts env s (round spec result now)
      = running.started.toList ++ (running.scheduler.finish 0 result).started.toList := by
    simp only [starts, round, hsubmit, hreceive, htick, hfinish, quiet, Option.toList_none,
      nil_append, append_nil]
  have hend : run env s (round spec result now)
      = (running.scheduler.finish 0 result).scheduler := by
    simp only [run, round, foldl_cons, foldl_nil, hsubmit, hreceive, htick, hfinish,
      quiet]
  rw [hstarts, hend, hnone]
  exact ⟨rfl, hagain, hauthority⟩

theorem resubmitted_starts (hidle : s.Idle) {spec : ComputeJobSpec}
    (result : Except String ComputeResult) {times : List UInt64}
    (haccepts : ∀ now ∈ times, s.handle.Accepts env now spec) :
    starts env s (times.flatMap (round spec result)) = replicate times.length spec := by
  induction times generalizing s with
  | nil => rfl
  | cons now times ih =>
    obtain ⟨hstarts, hagain, hauthority⟩ :=
      round_starts hidle (haccepts now mem_cons_self) result
    -- Acceptance depends on the clock and the authority alone.
    have hrest := ih hagain fun later hlater => by
      have hlater := haccepts later (mem_cons_of_mem _ hlater)
      rw [ComputeSchedulerHandle.accepts_iff] at hlater ⊢
      rw [hauthority]
      exact hlater
    rw [flatMap_cons, starts_append, hstarts, hrest]
    rfl

/-! ### One job twice -/

/-- A scheduler for one task at a time that takes jobs from two peers. -/
def oneSlot : Scheduler := spawn 1 twoSubmitters.authority .empty ⟨∅⟩

def futureJob : ComputeJobSpec := jobAt 2593000 "alice" "job" [5] [1]

/-- The job comes again while it waits. -/
def waitingTwice : List SchedulerEvent :=
  [.submit 1000 aliceJob, .receive 1000 none, .submit 1001 aliceJob, .receive 1001 none,
    .tick none, .finish 0 (.error "trap"), .tick none]

/-- A job that comes again while it waits is fresh and is started once. -/
theorem waiting_job_once :
    AcceptedAt tagCompute oneSlot waitingTwice 1000 aliceJob ∧ aliceJob.Fresh 1000 ∧
      starts tagCompute oneSlot waitingTwice = [aliceJob] ∧
      (starts tagCompute oneSlot waitingTwice).count aliceJob ≤ 1 := by
  obtain ⟨hfresh, honce⟩ := accepted_and_started tagCompute 1 twoSubmitters.authority ⟨∅⟩
    waitingTwice aliceJob
  have haccepted : AcceptedAt tagCompute oneSlot waitingTwice 1000 aliceJob :=
    ⟨[], _, rfl, jobAt_accepted (Or.inl rfl) (by decide) (by decide)⟩
  exact ⟨haccepted, (hfresh 1000 haccepted).mpr (by decide +kernel), by decide +kernel,
    honce (by decide +kernel)⟩

/-- A job is accepted a month before its date, and a job that is submitted again after
    its run is started twice. -/
theorem job_started_twice :
    (AcceptedAt tagCompute oneSlot [.submit 1000 futureJob] 1000 futureJob ∧
      ¬ futureJob.Fresh 1000) ∧
    Clocked ([1000, 1001].flatMap (round aliceJob (.error "trap"))) ∧
    starts tagCompute oneSlot ([1000, 1001].flatMap (round aliceJob (.error "trap")))
      = [aliceJob, aliceJob] := by
  refine ⟨⟨⟨[], [], rfl, ?_⟩, ?_⟩, by decide +kernel, ?_⟩
  · exact jobAt_accepted (Or.inl rfl) (by decide) (by decide)
  · exact fun h => absurd h.2 (by decide +kernel)
  · refine resubmitted_starts ⟨by decide, rfl, rfl, rfl, rfl, rfl⟩ _ ?_
    have hfirst : oneSlot.handle.Accepts tagCompute 1000 aliceJob :=
      jobAt_accepted (Or.inl rfl) (by decide) (by decide)
    have hsecond : oneSlot.handle.Accepts tagCompute 1001 aliceJob :=
      jobAt_accepted (Or.inl rfl) (by decide) (by decide)
    simp [hfirst, hsecond]

end Scheduler

end Compute

end EssNode
