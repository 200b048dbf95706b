import EssNode.Compute.Signing

/-!
# The Queue of Jobs

The two trees in which a node keeps the jobs that wait: the jobs by their
identifiers, and the queue by the jobs' dates.

An entry of the queue has the date of a job and its identifier as its key, and the
identifier alone as its value. The job itself is found under its identifier. Both
identifier and date are chosen by the submitter. So an entry does not stay with the
job that made it: if another job with the same identifier comes in while the entry
waits, the entry stands for that one. Two entries with one identifier and different
dates stand for one job, which is taken out twice.

What an entry stands for is therefore the last job that came in under its identifier.
That is compared with the job that made the entry (`creator`), over every sequence of
jobs that come in and are taken out. How often an identifier is taken out is bounded
by how many entries were made under it, since an entry is taken out once
(`dequeued_le_makers`).
-/

namespace EssNode

open Authority Bincode FinMap List Text

namespace Compute

/-! ### The trees -/

def jobKey (jobId : String) : String := "job:" ++ jobId

theorem jobKey_inj {jobId jobId' : String} : jobKey jobId = jobKey jobId' ↔ jobId = jobId' :=
  String.append_right_inj "job:"

/-- The key of a job's entry in the queue: its date, most significant byte first, and its
    identifier. -/
def queueKey (spec : ComputeJobSpec) : List UInt8 :=
  ByteOrder.big.bytes 8 spec.createdAt.toNat ++ utf8 spec.jobId

theorem queueKey_jobId {spec spec' : ComputeJobSpec} (h : queueKey spec = queueKey spec') :
    spec.jobId = spec'.jobId := by
  have hlength : (ByteOrder.big.bytes 8 spec.createdAt.toNat).length
      = (ByteOrder.big.bytes 8 spec'.createdAt.toNat).length := by
    rw [ByteOrder.length_bytes, ByteOrder.length_bytes]
  exact utf8_injective (append_inj h hlength).2

/-- The jobs by their keys, and the queue. A job is under the key of its identifier, and
    an entry of the queue has the identifier that its key ends in. -/
structure JobQueue where
  jobs : FinMap String ComputeJobSpec
  queue : FinMap (List UInt8) (List UInt8)
  keyed : ∀ (jobId : String) (spec : ComputeJobSpec),
    jobs[jobKey jobId]? = some spec → spec.jobId = jobId
  named : ∀ (spec : ComputeJobSpec) (value : List UInt8),
    queue[queueKey spec]? = some value → value = utf8 spec.jobId

inductive StoreError where
  | serdeError (text : String)
  | storeError (text : String)
deriving DecidableEq, Repr

inductive EnqueueFault where
  | serialize (e : String)
  | transaction (e : String)
deriving DecidableEq, Repr

/-- What goes wrong when a job is taken out. -/
inductive DequeueFault where
  | readQueue (e : String)
  | readJob (e : String)
  | deserialize (e : String)
  | remove (e : String)
deriving DecidableEq, Repr

namespace JobQueue

def empty : JobQueue := ⟨∅, ∅, by simp, by simp⟩

variable (self : JobQueue) {key value : List UInt8}

/-- The trees with one more job. -/
def withJob (spec : ComputeJobSpec) : JobQueue where
  -- A job that is there under the identifier is replaced.
  jobs := self.jobs.insert (jobKey spec.jobId) spec
  queue := self.queue.insert (queueKey spec) (utf8 spec.jobId)
  keyed jobId found h := by
    rcases find_insert_eq_some.mp h with ⟨hkey, rfl⟩ | ⟨-, hold⟩
    · exact jobKey_inj.mp hkey
    · exact self.keyed jobId found hold
  named other value h := by
    rcases find_insert_eq_some.mp h with ⟨hkey, rfl⟩ | ⟨-, hold⟩
    · rw [queueKey_jobId hkey]
    · exact self.named other value hold

/-- The trees without an entry of the queue. -/
def without (key : List UInt8) : JobQueue where
  jobs := self.jobs
  queue := self.queue.erase key
  keyed := self.keyed
  named spec value h := by
    rw [find_erase] at h
    split at h
    · exact absurd h (by simp)
    · exact self.named spec value h

/-- Take in a job, into both trees or none. -/
def enqueue (fault : Option EnqueueFault) (spec : ComputeJobSpec) :
    JobQueue × Except StoreError Unit :=
  match fault with
  | some (.serialize e) => (self, .error (.serdeError e))
  | some (.transaction e) => (self, .error (.storeError ("Transaksi enqueue gagal: " ++ e)))
  | none => (self.withJob spec, .ok ())

def first : Option (List UInt8 × List UInt8) := self.queue.toList.head?

/-- Take out the job of the first entry. -/
def dequeueNext (fault : Option DequeueFault) :
    JobQueue × Except StoreError (Option ComputeJobSpec) :=
  match fault with
  | some (.readQueue e) => (self, .error (.storeError e))
  | _ =>
    match self.first with
    | none => (self, .ok none)
    | some (qKey, jobIdBytes) =>
      let jobIdStr := utf8Lossy jobIdBytes
      match fault with
      | some (.readJob e) => (self, .error (.storeError e))
      | _ =>
        match self.jobs[jobKey jobIdStr]? with
        | some spec =>
          match fault with
          | some (.deserialize e) => (self, .error (.serdeError e))
          | some (.remove e) => (self, .error (.storeError e))
          | _ => (self.without qKey, .ok (some spec))
        | none =>
          -- An entry without a job is dropped, if that does not fail.
          match fault with
          | some (.remove _) => (self, .ok none)
          | _ => (self.without qKey, .ok none)

theorem enqueue_cases (fault : Option EnqueueFault) (spec : ComputeJobSpec) :
    (fault = none ∧ self.enqueue fault spec = (self.withJob spec, .ok ())) ∨
      fault ≠ none ∧ ∃ e, self.enqueue fault spec = (self, .error e) := by
  cases fault with
  | none => exact Or.inl ⟨rfl, rfl⟩
  | some f =>
    cases f with
    | serialize e => exact Or.inr ⟨by simp, _, rfl⟩
    | transaction e => exact Or.inr ⟨by simp, _, rfl⟩

/-- Nothing happens, or the first entry goes without a job, or with the job that is
    under its identifier. -/
theorem dequeueNext_cases (fault : Option DequeueFault) :
    (∃ result, self.dequeueNext fault = (self, result) ∧ ∀ spec, result ≠ .ok (some spec)) ∨
      ∃ key value result, self.first = some (key, value) ∧
        self.dequeueNext fault = (self.without key, .ok result) ∧
        result = self.jobs[jobKey (utf8Lossy value)]? := by
  unfold dequeueNext
  split
  · exact Or.inl ⟨_, rfl, by simp⟩
  · split
    · exact Or.inl ⟨_, rfl, by simp⟩
    · rename_i key value hfirst
      dsimp only
      split
      · exact Or.inl ⟨_, rfl, by simp⟩
      · cases hjob : self.jobs[jobKey (utf8Lossy value)]? with
        | some spec =>
          dsimp only
          split
          · exact Or.inl ⟨_, rfl, by simp⟩
          · exact Or.inl ⟨_, rfl, by simp⟩
          · exact Or.inr ⟨key, value, some spec, hfirst, rfl, hjob.symm⟩
        | none =>
          dsimp only
          split
          · exact Or.inl ⟨_, rfl, by simp⟩
          · exact Or.inr ⟨key, value, none, hfirst, rfl, hjob.symm⟩

theorem dequeueNext_none (h : self.first = some (key, value)) :
    self.dequeueNext none = (self.without key, .ok self.jobs[jobKey (utf8Lossy value)]?) := by
  unfold dequeueNext
  simp only [h]
  cases self.jobs[jobKey (utf8Lossy value)]? <;> rfl

theorem find_first (h : self.first = some (key, value)) : self.queue[key]? = some value :=
  (mem_toList self.queue key value).mp (mem_of_mem_head? h)

theorem exists_first (h : self.queue[key]? = some value) :
    ∃ key value, self.first = some (key, value) := by
  have hentry : (key, value) ∈ self.queue.toList := (mem_toList self.queue key value).mpr h
  obtain ⟨entry, rest, hlist⟩ := exists_cons_of_ne_nil (ne_nil_of_mem hentry)
  exact ⟨entry.1, entry.2, by rw [first, hlist, head?_cons]⟩

theorem first_withJob (h : self.queue = ∅) (spec : ComputeJobSpec) :
    (self.withJob spec).first = some (queueKey spec, utf8 spec.jobId) := by
  have hentry : (self.withJob spec).queue[queueKey spec]? = some (utf8 spec.jobId) := by
    rw [withJob, find_insert, if_pos rfl]
  obtain ⟨key, value, hfirst⟩ := exists_first _ hentry
  have hfound := find_first _ hfirst
  rw [withJob, find_insert, h] at hfound
  split at hfound
  · rename_i hkey
    rw [hfirst, hkey, Option.some.inj hfound]
  · exact absurd hfound (by simp)

theorem dequeueNext_withJob (h : self.queue = ∅) (spec : ComputeJobSpec) :
    (self.withJob spec).dequeueNext none
        = ((self.withJob spec).without (queueKey spec), .ok (some spec)) ∧
      ((self.withJob spec).without (queueKey spec)).queue = ∅ := by
  have hjob : (self.withJob spec).jobs[jobKey spec.jobId]? = some spec := by
    rw [withJob, find_insert, if_pos rfl]
  constructor
  · simp only [dequeueNext, self.first_withJob h spec, utf8Lossy_utf8, hjob]
  · change (self.queue.insert (queueKey spec) (utf8 spec.jobId)).erase (queueKey spec) = ∅
    rw [erase_insert, h, erase_of_none (by simp)]

theorem withJob_queue (spec : ComputeJobSpec) (h : (self.queue[queueKey spec]?).isSome) :
    (self.withJob spec).queue = self.queue := by
  obtain ⟨value, hvalue⟩ := Option.isSome_iff_exists.mp h
  rw [withJob, insert_eq_self_iff, hvalue, self.named spec value hvalue]

end JobQueue

/-! ### Runs -/

/-- A job comes in, or one is taken out. -/
inductive QueueOp where
  | enqueue (fault : Option EnqueueFault) (spec : ComputeJobSpec)
  | dequeue (fault : Option DequeueFault)

namespace QueueOp

def step (q : JobQueue) : QueueOp → JobQueue
  | .enqueue fault spec => (q.enqueue fault spec).1
  | .dequeue fault => (q.dequeueNext fault).1

def run : JobQueue → List QueueOp → JobQueue := foldl step

def enters : QueueOp → Option ComputeJobSpec
  | .enqueue none spec => some spec
  | _ => none

/-- The job that is taken out. -/
def leaves (q : JobQueue) : QueueOp → Option ComputeJobSpec
  | .dequeue fault =>
    match (q.dequeueNext fault).2 with
    | .ok spec => spec
    | .error _ => none
  | .enqueue _ _ => none

/-- The job that makes an entry: the entry was not there before and is now. -/
def creates (q : JobQueue) (key : List UInt8) (op : QueueOp) : Option ComputeJobSpec :=
  if q.queue[key]?.isNone ∧ (step q op).queue[key]?.isSome then op.enters else none

def creator (key : List UInt8) : JobQueue → List QueueOp → Option ComputeJobSpec
  | _, [] => none
  | q, op :: ops => (creator key (step q op) ops).or (op.creates q key)

/-- The last job that came in under an identifier. -/
def lastEnqueued (jobId : String) (ops : List QueueOp) : Option ComputeJobSpec :=
  (ops.filterMap enters).reverse.find? fun spec => spec.jobId = jobId

/-- The job that comes in and makes its entry. -/
def makes (q : JobQueue) (op : QueueOp) : Option ComputeJobSpec :=
  op.enters.bind fun spec => op.creates q (queueKey spec)

/-- The jobs that made an entry, one for each time. -/
def makers : JobQueue → List QueueOp → List ComputeJobSpec
  | _, [] => []
  | q, op :: ops => (op.makes q).toList ++ makers (step q op) ops

def dequeued : JobQueue → List QueueOp → List ComputeJobSpec
  | _, [] => []
  | q, op :: ops => (op.leaves q).toList ++ dequeued (step q op) ops

theorem dequeued_append (q : JobQueue) (ops ops' : List QueueOp) :
    dequeued q (ops ++ ops') = dequeued q ops ++ dequeued (run q ops) ops' := by
  induction ops generalizing q with
  | nil => rfl
  | cons op ops ih =>
    rw [cons_append, dequeued, dequeued, ih, append_assoc]
    rfl

/-! ### What the entries stand for -/

/-- The jobs are the last under their identifiers, and an entry has the key and the
    identifier of the job that made it. -/
structure Tracks (q : JobQueue) (creators : List UInt8 → Option ComputeJobSpec)
    (last : String → Option ComputeJobSpec) : Prop where
  jobs : ∀ jobId, q.jobs[jobKey jobId]? = last jobId
  entries : ∀ (key value : List UInt8), q.queue[key]? = some value →
    ∃ created, creators key = some created ∧ queueKey created = key ∧ value = utf8 created.jobId

/-- The job that comes in under an identifier. -/
def entersAs (op : QueueOp) (jobId : String) : Option ComputeJobSpec :=
  op.enters.filter fun spec => spec.jobId = jobId

theorem lastEnqueued_cons (jobId : String) (op : QueueOp) (ops : List QueueOp) :
    lastEnqueued jobId (op :: ops) = (lastEnqueued jobId ops).or (op.entersAs jobId) := by
  unfold lastEnqueued entersAs
  cases henters : op.enters with
  | none => simp [henters]
  | some spec =>
    rw [filterMap_cons_some henters, reverse_cons, find?_append]
    congr 1
    by_cases hid : spec.jobId = jobId
    · simp [Option.filter, hid]
    · simp [Option.filter, hid]

variable {q : JobQueue} {creators : List UInt8 → Option ComputeJobSpec}
  {last : String → Option ComputeJobSpec}

theorem Tracks.without (h : Tracks q creators last) (key : List UInt8) :
    Tracks (q.without key) creators last := by
  refine ⟨h.jobs, fun key' value hfound => h.entries key' value ?_⟩
  rw [JobQueue.without, find_erase] at hfound
  split at hfound
  · exact absurd hfound (by simp)
  · exact hfound

theorem Tracks.withJob (h : Tracks q creators last) (spec : ComputeJobSpec) :
    Tracks (q.withJob spec)
      (fun key => ((QueueOp.enqueue none spec).creates q key).or (creators key))
      (fun jobId => ((QueueOp.enqueue none spec).entersAs jobId).or (last jobId)) := by
  constructor
  · intro jobId
    simp only [JobQueue.withJob, find_insert, jobKey_inj, entersAs, enters,
      Option.filter_some, decide_eq_true_eq]
    by_cases hid : spec.jobId = jobId
    · simp [hid]
    · simpa [hid] using h.jobs jobId
  · intro key value hfound
    simp only [JobQueue.withJob, find_insert] at hfound
    simp only [creates, step, JobQueue.enqueue, JobQueue.withJob, find_insert, enters]
    by_cases hkey : queueKey spec = key
    · rw [if_pos hkey] at hfound
      obtain rfl := Option.some.inj hfound
      cases hold : q.queue[key]? with
      | none => exact ⟨spec, by simp [hkey], hkey, rfl⟩
      | some old =>
        -- The entry stays with the job that made it, which has the same identifier.
        obtain ⟨created, hcreated, hmade, -⟩ := h.entries key old hold
        exact ⟨created, by simp [hcreated], hmade,
          by rw [queueKey_jobId (hkey.trans hmade.symm)]⟩
    · rw [if_neg hkey] at hfound
      obtain ⟨created, hcreated, hmade, hvalue⟩ := h.entries key value hfound
      exact ⟨created, by simp [hfound, hcreated], hmade, hvalue⟩

theorem tracks_step (h : Tracks q creators last) (op : QueueOp) :
    Tracks (step q op) (fun key => (op.creates q key).or (creators key))
      (fun jobId => (op.entersAs jobId).or (last jobId)) := by
  cases op with
  | enqueue fault spec =>
    rcases q.enqueue_cases fault spec with ⟨rfl, henqueue⟩ | ⟨hfault, e, henqueue⟩
    · exact h.withJob spec
    · obtain ⟨f, rfl⟩ := Option.ne_none_iff_exists'.mp hfault
      simpa [step, henqueue, creates, entersAs, enters] using h
  | dequeue fault =>
    rcases q.dequeueNext_cases fault with
      ⟨result, hdequeue, -⟩ | ⟨key, value, result, -, hdequeue, -⟩
    · simpa [step, hdequeue, creates, entersAs, enters] using h
    · simpa [step, hdequeue, creates, entersAs, enters] using h.without key

theorem tracks_run (h : Tracks q creators last) (ops : List QueueOp) :
    Tracks (run q ops) (fun key => (creator key q ops).or (creators key))
      (fun jobId => (lastEnqueued jobId ops).or (last jobId)) := by
  induction ops generalizing q creators last with
  | nil => exact h
  | cons op ops ih =>
    have hrest := ih (tracks_step h op)
    simp only [creator, lastEnqueued_cons, Option.or_assoc]
    exact hrest

/-- The job that is taken out for an entry is the one that made the entry just if no
    other came in last under its identifier. -/
theorem dequeued_is_creator_iff {ops : List QueueOp} {key value : List UInt8}
    {fault : Option DequeueFault} {next : JobQueue} {spec : ComputeJobSpec}
    (hfirst : (run .empty ops).first = some (key, value))
    (hdequeue : (run .empty ops).dequeueNext fault = (next, .ok (some spec))) :
    ∃ created, creator key .empty ops = some created ∧
      (spec = created ↔ lastEnqueued created.jobId ops = some created) := by
  have hempty : Tracks .empty (fun _ => none) fun _ => none :=
    ⟨fun _ => by simp [JobQueue.empty], fun key value hfound => by simp [JobQueue.empty] at hfound⟩
  have htracks := tracks_run hempty ops
  simp only [Option.or_none] at htracks
  obtain ⟨created, hcreated, -, hvalue⟩ := htracks.entries key value (JobQueue.find_first _ hfirst)
  refine ⟨created, hcreated, ?_⟩
  rcases (run .empty ops).dequeueNext_cases fault with
    ⟨result, hnothing, hresult⟩ | ⟨key', value', result, hfirst', htaken, hresult⟩
  · rw [hdequeue, Prod.mk.injEq] at hnothing
    exact absurd hnothing.2.symm (hresult spec)
  · rw [hdequeue, Prod.mk.injEq, Except.ok.injEq] at htaken
    rw [hfirst, Option.some.injEq, Prod.mk.injEq] at hfirst'
    -- What is under the entry's identifier came in last.
    rw [← htaken.2, ← hfirst'.2, hvalue, utf8Lossy_utf8, htracks.jobs] at hresult
    rw [← hresult, Option.some.injEq]

/-! ### How often an identifier is taken out -/

/-- The entries that wait under an identifier. -/
def waiting (q : JobQueue) (jobId : String) : Nat :=
  count (fun value => utf8Lossy value == jobId) q.queue

def countId (jobId : String) (specs : List ComputeJobSpec) : Nat :=
  specs.countP fun spec => spec.jobId = jobId

theorem countId_append (jobId : String) (specs specs' : List ComputeJobSpec) :
    countId jobId (specs ++ specs') = countId jobId specs + countId jobId specs' :=
  countP_append

theorem waiting_withJob (q : JobQueue) (spec : ComputeJobSpec) (jobId : String) :
    waiting (q.withJob spec) jobId
      ≤ countId jobId ((QueueOp.enqueue none spec).makes q).toList + waiting q jobId := by
  cases hentry : q.queue[queueKey spec]? with
  | some value =>
    rw [waiting, q.withJob_queue spec (Option.isSome_of_eq_some hentry)]
    exact Nat.le_add_left _ _
  | none =>
    have hmakes : (QueueOp.enqueue none spec).makes q = some spec := by
      simp only [makes, enters, Option.bind_some, creates, hentry, step, JobQueue.enqueue,
        JobQueue.withJob, find_insert, Option.isNone_none, Option.isSome_some,
        if_true, and_self]
    have hinsert := count_insert_le (fun value => utf8Lossy value == jobId) q.queue
      (queueKey spec) (utf8 spec.jobId)
    simp only [utf8Lossy_utf8, beq_iff_eq] at hinsert
    simp only [hmakes, waiting, JobQueue.withJob, countId, Option.toList_some,
      countP_singleton, decide_eq_true_eq]
    omega

theorem waiting_step (q : JobQueue) (op : QueueOp) (jobId : String) :
    countId jobId (op.leaves q).toList + waiting (step q op) jobId
      ≤ countId jobId (op.makes q).toList + waiting q jobId := by
  cases op with
  | enqueue fault spec =>
    rcases q.enqueue_cases fault spec with ⟨rfl, henqueue⟩ | ⟨hfault, e, henqueue⟩
    · have hmade := waiting_withJob q spec jobId
      simpa [leaves, step, henqueue, countId] using hmade
    · obtain ⟨f, rfl⟩ := Option.ne_none_iff_exists'.mp hfault
      simp [leaves, makes, enters, step, henqueue]
  | dequeue fault =>
    rcases q.dequeueNext_cases fault with
      ⟨result, hdequeue, hresult⟩ | ⟨key, value, result, hfirst, hdequeue, hresult⟩
    · have hnone : (QueueOp.dequeue fault).leaves q = none := by
        simp only [leaves, hdequeue]
        cases result with
        | error e => rfl
        | ok spec? =>
          cases spec? with
          | none => rfl
          | some spec => exact absurd rfl (hresult spec)
      simp [hnone, step, hdequeue, countId]
    · have herase := count_erase (fun value => utf8Lossy value == jobId)
        (q.find_first hfirst)
      simp only [leaves, hdequeue, step, waiting, JobQueue.without]
      cases result with
      | none =>
        simp only [countId, Option.toList_none, countP_nil]
        omega
      | some spec =>
        -- The job has the identifier it was found under.
        have hid := q.keyed _ _ hresult.symm
        simp only [countId, Option.toList_some, countP_singleton, hid,
          decide_eq_true_eq]
        simp only [beq_iff_eq] at herase
        omega

/-- What is taken out under an identifier and the entries that are left were made, or
    were there before. -/
theorem dequeued_le_makers (q : JobQueue) (ops : List QueueOp) (jobId : String) :
    countId jobId (dequeued q ops) + waiting (run q ops) jobId
      ≤ countId jobId (makers q ops) + waiting q jobId := by
  induction ops generalizing q with
  | nil => exact le_rfl
  | cons op ops ih =>
    have hfirst := waiting_step q op jobId
    have hrest := ih (step q op)
    rw [dequeued, makers, countId_append, countId_append]
    change _ + waiting (run (step q op) ops) jobId ≤ _
    omega

end QueueOp

/-! ### Two jobs with one identifier -/

section Colliding

open QueueOp

/-- A job, and jobs of another submitter: with the same identifier and date, with the
    same identifier, and with an identifier of its own. -/
def aliceJob : ComputeJobSpec := jobOf "alice" "job" [5] [1]

def sameEntryJob : ComputeJobSpec := jobOf "mallory" "job" [6] [7]

def laterEntryJob : ComputeJobSpec := jobAt 1001 "mallory" "job" [6] [7]

def otherJob : ComputeJobSpec := jobOf "mallory" "other" [6] [7]

/-- A job that comes in under another identifier does no harm. -/
theorem other_identifier_kept : ∃ created next,
    creator (queueKey aliceJob) .empty [.enqueue none aliceJob, .enqueue none otherJob]
        = some created ∧
      (run .empty [.enqueue none aliceJob, .enqueue none otherJob]).dequeueNext none
        = (next, .ok (some created)) := by
  have hjob : ((run .empty [.enqueue none aliceJob, .enqueue none otherJob]).dequeueNext none).2
      = .ok (some aliceJob) := by decide +kernel
  have hfirst : (run .empty [.enqueue none aliceJob, .enqueue none otherJob]).first
      = some (queueKey aliceJob, utf8 "job") := by decide +kernel
  obtain ⟨created, hcreated, hiff⟩ := dequeued_is_creator_iff hfirst (Prod.ext rfl hjob)
  have halice : aliceJob = created := hiff.mpr (by
    have hmade : creator (queueKey aliceJob) .empty
        [.enqueue none aliceJob, .enqueue none otherJob] = some aliceJob := by decide +kernel
    obtain rfl := Option.some.inj (hmade.symm.trans hcreated)
    decide +kernel)
  exact ⟨created, _, hcreated, Prod.ext rfl (by rw [hjob, halice])⟩

/-- Another submitter's job takes the place of one that waits, and with another date it
    is taken out twice. All three jobs are accepted. -/
theorem waiting_job_replaced :
    (twoSubmitters.Accepts tagCompute 1000 aliceJob ∧
      twoSubmitters.Accepts tagCompute 1000 sameEntryJob ∧
      twoSubmitters.Accepts tagCompute 1000 laterEntryJob) ∧
    creator (queueKey aliceJob) .empty [.enqueue none aliceJob, .enqueue none sameEntryJob]
      = some aliceJob ∧
    dequeued .empty [.enqueue none aliceJob, .enqueue none sameEntryJob, .dequeue none,
      .dequeue none] = [sameEntryJob] ∧
    dequeued .empty [.enqueue none aliceJob, .enqueue none laterEntryJob, .dequeue none,
      .dequeue none] = [laterEntryJob, laterEntryJob] := by
  refine ⟨⟨jobAt_accepted (Or.inl rfl) (by decide) (by decide),
    jobAt_accepted (Or.inr rfl) (by decide) (by decide),
    jobAt_accepted (Or.inr rfl) (by decide) (by decide)⟩, ?_⟩
  decide +kernel

end Colliding

end Compute

end EssNode
