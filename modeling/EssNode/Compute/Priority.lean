import EssNode.Compute.Queue
import EssNode.Lib.Lexicographic

/-!
# The Order of Jobs

In which order jobs are taken out of the queue, and that each is taken out once.

The key of an entry is the date of the job, most significant byte first, and its identifier. So
the queue has its entries by date and then by identifier, whatever their length
(`queueKey_lt_iff`), and the first entry is that of the job that goes before all others.

Jobs with one identifier share what is stored of them, and then neither order nor number comes
out right. As long as the jobs that come in have identifiers of their own, the trees hold just
the jobs that came in and were not taken out (`accounts_run`): an entry for each, with the job
as it came in.

Operations of the trees may fail at any time. A call that fails takes nothing out and changes
nothing.
-/

namespace EssNode

open Bincode List Text

namespace Compute

/-- A job goes before another if it is older, or as old and of a smaller identifier. -/
def Before (spec other : ComputeJobSpec) : Prop :=
  spec.createdAt < other.createdAt ∨
    spec.createdAt = other.createdAt ∧ utf8 spec.jobId < utf8 other.jobId

theorem queueKey_lt_iff {spec other : ComputeJobSpec} :
    queueKey spec < queueKey other ↔ Before spec other := by
  have hword : ∀ date : UInt64, date.toNat < 256 ^ 8 := fun date => date.toNat_lt
  have hdate : ByteOrder.big.bytes 8 spec.createdAt.toNat
      < ByteOrder.big.bytes 8 other.createdAt.toNat ↔ spec.createdAt < other.createdAt := by
    rw [UInt64.lt_iff_toNat_lt]
    exact Lexicographic.bigEndian_lt_iff (hword _) (hword _)
  have hsame : ByteOrder.big.bytes 8 spec.createdAt.toNat
      = ByteOrder.big.bytes 8 other.createdAt.toNat ↔ spec.createdAt = other.createdAt := by
    refine ⟨fun h => ?_, fun h => by rw [h]⟩
    have hvalue := congrArg ofLittleEndian (reverse_injective h)
    rw [ofLittleEndian_littleEndian _ _ (hword _), ofLittleEndian_littleEndian _ _ (hword _)]
      at hvalue
    exact UInt64.toNat_inj.mp hvalue
  unfold queueKey Before
  rw [Lexicographic.append_lt_append_iff (by rw [ByteOrder.length_bytes, ByteOrder.length_bytes]),
    hdate, hsame]

/-! ### What the trees hold -/

/-- The trees hold jobs with identifiers of their own: each as it came in, and with an entry in
    the queue, and no other entries. -/
structure Holds (q : JobQueue) (jobs : List ComputeJobSpec) : Prop where
  distinct : (jobs.map ComputeJobSpec.jobId).Nodup
  stored : ∀ spec ∈ jobs, q.jobs[jobKey spec.jobId]? = some spec
  entries : ∀ key value, q.queue[key]? = some value ↔
    ∃ spec ∈ jobs, queueKey spec = key ∧ utf8 spec.jobId = value

namespace Holds

variable {q : JobQueue} {jobs : List ComputeJobSpec}

theorem empty : Holds .empty [] := by
  refine ⟨nodup_nil, nofun, fun key value => iff_of_false ?_ nofun⟩
  simp [JobQueue.empty]

theorem eq_of_jobId (h : Holds q jobs) {spec other : ComputeJobSpec} (hspec : spec ∈ jobs)
    (hother : other ∈ jobs) (hid : spec.jobId = other.jobId) : spec = other := by
  have hfound := h.stored spec hspec
  rw [hid, h.stored other hother, Option.some.injEq] at hfound
  exact hfound.symm

theorem withJob (h : Holds q jobs) (spec : ComputeJobSpec)
    (hnew : spec.jobId ∉ jobs.map ComputeJobSpec.jobId) :
    Holds (q.withJob spec) (jobs ++ [spec]) := by
  have hother : ∀ other ∈ jobs, spec.jobId ≠ other.jobId := fun other hmem heq =>
    hnew (heq ▸ mem_map_of_mem hmem)
  refine ⟨?_, fun other hmem => ?_, fun key value => ?_⟩
  · rw [map_append, map_singleton, nodup_append]
    refine ⟨h.distinct, nodup_singleton _, fun id hid id' hid' heq => hnew ?_⟩
    rwa [← mem_singleton.mp hid', ← heq]
  · rw [JobQueue.withJob, FinMap.find_insert]
    rcases mem_append.mp hmem with hold | hlast
    · rw [if_neg fun hkey => hother other hold (jobKey_inj.mp hkey)]
      exact h.stored other hold
    · rw [mem_singleton.mp hlast, if_pos rfl]
  · rw [JobQueue.withJob, FinMap.find_insert]
    by_cases hkey : queueKey spec = key
    · -- The entry is new: the key of another job ends in another identifier.
      rw [if_pos hkey, Option.some.injEq]
      constructor
      · intro hvalue
        exact ⟨spec, mem_append_right _ (mem_singleton_self _), hkey, hvalue⟩
      · rintro ⟨other, hmem, hotherKey, hvalue⟩
        rwa [queueKey_jobId (hkey.trans hotherKey.symm)]
    · rw [if_neg hkey, h.entries]
      constructor
      · rintro ⟨other, hmem, hrest⟩
        exact ⟨other, mem_append_left _ hmem, hrest⟩
      · rintro ⟨other, hmem, hotherKey, hvalue⟩
        rcases mem_append.mp hmem with hold | hlast
        · exact ⟨other, hold, hotherKey, hvalue⟩
        · rw [mem_singleton.mp hlast] at hotherKey
          exact absurd hotherKey hkey

theorem without (h : Holds q jobs) {spec : ComputeJobSpec} (hspec : spec ∈ jobs) :
    Holds (q.without (queueKey spec)) (jobs.filter (· ≠ spec)) := by
  have hsub : (jobs.filter (· ≠ spec)).Sublist jobs := filter_sublist
  refine ⟨h.distinct.sublist (hsub.map _), fun other hmem => h.stored other (hsub.subset hmem),
    fun key value => ?_⟩
  rw [JobQueue.without, FinMap.find_erase]
  by_cases hkey : queueKey spec = key
  · rw [if_pos hkey]
    refine iff_of_false (Option.some_ne_none value).symm ?_
    rintro ⟨other, hmem, hotherKey, -⟩
    obtain ⟨hother, hne⟩ := mem_filter.mp hmem
    exact of_decide_eq_true hne
      (h.eq_of_jobId hother hspec (queueKey_jobId (hotherKey.trans hkey.symm)))
  · rw [if_neg hkey, h.entries]
    constructor
    · rintro ⟨other, hmem, hotherKey, hvalue⟩
      refine ⟨other, mem_filter.mpr ⟨hmem, decide_eq_true fun heq => hkey ?_⟩, hotherKey,
        hvalue⟩
      rw [← heq, hotherKey]
    · rintro ⟨other, hmem, hrest⟩
      exact ⟨other, hsub.subset hmem, hrest⟩

theorem first_before (h : Holds q jobs) {key value : List UInt8}
    (hfirst : q.first = some (key, value)) :
    ∃ spec ∈ jobs, queueKey spec = key ∧ utf8 spec.jobId = value ∧
      ∀ other ∈ jobs, other ≠ spec → Before spec other := by
  obtain ⟨spec, hspec, hkey, hvalue⟩ := (h.entries key value).mp (q.find_first hfirst)
  refine ⟨spec, hspec, hkey, hvalue, fun other hother hne => ?_⟩
  have hentry : (queueKey other, utf8 other.jobId) ∈ q.queue.toList :=
    (FinMap.mem_toList _ _ _).mpr ((h.entries _ _).mpr ⟨other, hother, rfl, rfl⟩)
  -- The entry of the other job comes after the first, in the order of the keys.
  obtain ⟨rest, hlist⟩ := head?_eq_some_iff.mp hfirst
  have hsorted := Std.ExtTreeMap.ordered_keys_toList (t := q.queue)
  rw [hlist] at hentry hsorted
  rcases mem_cons.mp hentry with hhead | hrest
  · have hkeys : queueKey other = queueKey spec := (congrArg Prod.fst hhead).trans hkey.symm
    exact absurd (h.eq_of_jobId hother hspec (queueKey_jobId hkeys)) hne
  · have hlt := (pairwise_cons.mp hsorted).1 _ hrest
    rw [← queueKey_lt_iff, hkey]
    exact Lexicographic.compare_eq_lt_iff.mp hlt

theorem first_eq_none_iff (h : Holds q jobs) : q.first = none ↔ jobs = [] := by
  constructor
  · intro hnone
    refine eq_nil_iff_forall_not_mem.mpr fun spec hspec => ?_
    obtain ⟨key, value, hfirst⟩ := q.exists_first ((h.entries _ _).mpr ⟨spec, hspec, rfl, rfl⟩)
    rw [hnone] at hfirst
    cases hfirst
  · intro hnil
    cases hfirst : q.first with
    | none => rfl
    | some entry =>
      obtain ⟨spec, hspec, -⟩ := h.first_before hfirst
      rw [hnil] at hspec
      cases hspec

/-- Taking out a job fails and changes nothing, or there is none and none is held, or it is
    the job that goes before all others. -/
theorem dequeueNext_cases (h : Holds q jobs) (fault : Option DequeueFault) :
    (fault ≠ none ∧ ∃ e, q.dequeueNext fault = (q, .error e)) ∨
      (jobs = [] ∧ q.dequeueNext fault = (q, .ok none)) ∨
      ∃ spec ∈ jobs, (∀ other ∈ jobs, other ≠ spec → Before spec other) ∧
        q.dequeueNext fault = (q.without (queueKey spec), .ok (some spec)) := by
  cases hfirst : q.first with
  | none =>
    have hnil := h.first_eq_none_iff.mp hfirst
    cases fault with
    | none => exact Or.inr (Or.inl ⟨hnil, by simp only [JobQueue.dequeueNext, hfirst]⟩)
    | some f =>
      cases f with
      | readQueue e => exact Or.inl ⟨Option.some_ne_none _, _, rfl⟩
      | readJob e | deserialize e | remove e =>
        exact Or.inr (Or.inl ⟨hnil, by simp only [JobQueue.dequeueNext, hfirst]⟩)
  | some entry =>
    obtain ⟨key, value⟩ := entry
    obtain ⟨spec, hspec, hkey, hvalue, hbefore⟩ := h.first_before hfirst
    have hjob : q.jobs[jobKey (utf8Lossy value)]? = some spec := by
      rw [← hvalue, utf8Lossy_utf8]
      exact h.stored spec hspec
    cases fault with
    | none =>
      refine Or.inr (Or.inr ⟨spec, hspec, hbefore, ?_⟩)
      rw [q.dequeueNext_none hfirst, hjob, hkey]
    | some f =>
      refine Or.inl ⟨Option.some_ne_none _, ?_⟩
      cases f with
      | readQueue e => exact ⟨_, rfl⟩
      | readJob e =>
        simp only [JobQueue.dequeueNext, hfirst]
        exact ⟨_, rfl⟩
      | deserialize e | remove e =>
        simp only [JobQueue.dequeueNext, hfirst, hjob]
        exact ⟨_, rfl⟩

end Holds

/-! ### Runs -/

namespace QueueOp

def entered (ops : List QueueOp) : List ComputeJobSpec := ops.filterMap enters

/-- The jobs that came in and were not taken out. -/
def pending (ops : List QueueOp) : List ComputeJobSpec :=
  (entered ops).filter fun spec => spec ∉ dequeued .empty ops

theorem enters_dequeue (fault : Option DequeueFault) : (dequeue fault).enters = none := rfl

variable (ops : List QueueOp) (op : QueueOp)

theorem entered_concat : entered (ops ++ [op]) = entered ops ++ op.enters.toList := by
  rw [entered, filterMap_append]
  cases henters : op.enters with
  | none => rw [filterMap_cons_none henters]; rfl
  | some spec => rw [filterMap_cons_some henters]; rfl

theorem dequeued_concat :
    dequeued .empty (ops ++ [op]) = dequeued .empty ops ++ (op.leaves (run .empty ops)).toList := by
  rw [dequeued_append, dequeued, dequeued, append_nil]

theorem pending_concat_same {ops : List QueueOp} {op : QueueOp} (henters : op.enters = none)
    (hleaves : op.leaves (run .empty ops) = none) : pending (ops ++ [op]) = pending ops := by
  unfold pending
  rw [entered_concat, dequeued_concat, henters, hleaves, Option.toList_none, append_nil,
    append_nil]

theorem pending_concat_leaves {ops : List QueueOp} {op : QueueOp} {spec : ComputeJobSpec}
    (henters : op.enters = none) (hleaves : op.leaves (run .empty ops) = some spec) :
    pending (ops ++ [op]) = (pending ops).filter (· ≠ spec) := by
  unfold pending
  rw [entered_concat, dequeued_concat, henters, hleaves, Option.toList_none, Option.toList_some,
    append_nil, filter_filter]
  refine filter_congr fun other _ => ?_
  rw [Bool.eq_iff_iff, Bool.and_eq_true, decide_eq_true_eq, decide_eq_true_eq, decide_eq_true_eq,
    mem_append, mem_singleton, not_or, and_comm]

/-- What the trees hold after a run is what waits, and what came in was taken out or waits. -/
structure Accounts (ops : List QueueOp) : Prop where
  holds : Holds (run .empty ops) (pending ops)
  perm : (dequeued .empty ops ++ pending ops).Perm (entered ops)

variable {ops : List QueueOp}

theorem Accounts.enqueue (h : Accounts ops) (spec : ComputeJobSpec)
    (hnew : spec.jobId ∉ (entered ops).map ComputeJobSpec.jobId) :
    Accounts (ops ++ [.enqueue none spec]) := by
  have hfresh : ∀ {jobs : List ComputeJobSpec}, jobs ⊆ entered ops → spec ∉ jobs :=
    fun hsub hmem => hnew (mem_map_of_mem (hsub hmem))
  have htaken : dequeued .empty ops ⊆ entered ops := fun other hmem =>
    h.perm.subset (mem_append_left _ hmem)
  have hdequeued : dequeued .empty (ops ++ [.enqueue none spec]) = dequeued .empty ops := by
    rw [dequeued_concat]
    exact append_nil _
  have hentered : entered (ops ++ [.enqueue none spec]) = entered ops ++ [spec] :=
    entered_concat ops _
  have hpending : pending (ops ++ [.enqueue none spec]) = pending ops ++ [spec] := by
    unfold pending
    rw [hentered, hdequeued, filter_append]
    exact congrArg _ (filter_eq_self.mpr fun other hmem => decide_eq_true
      (mem_singleton.mp hmem ▸ hfresh htaken))
  have hrun : run .empty (ops ++ [.enqueue none spec]) = (run .empty ops).withJob spec := by
    rw [run, foldl_append, foldl_cons, foldl_nil]
    rfl
  constructor
  · rw [hrun, hpending]
    refine h.holds.withJob spec fun hmem => hnew ?_
    exact map_subset _ filter_sublist.subset hmem
  · rw [hdequeued, hpending, hentered, ← append_assoc]
    exact h.perm.append_right [spec]

theorem Accounts.idle (h : Accounts ops) {op : QueueOp} (henters : op.enters = none)
    (hleaves : op.leaves (run .empty ops) = none)
    (hstep : step (run .empty ops) op = run .empty ops) :
    Accounts (ops ++ [op]) := by
  have hrun : run .empty (ops ++ [op]) = run .empty ops := by
    rw [run, foldl_append, foldl_cons, foldl_nil]
    exact hstep
  constructor
  · rw [hrun, pending_concat_same henters hleaves]
    exact h.holds
  · rw [pending_concat_same henters hleaves, dequeued_concat, entered_concat, henters, hleaves,
      Option.toList_none, append_nil, append_nil]
    exact h.perm

theorem Accounts.dequeue (h : Accounts ops) {fault : Option DequeueFault} {spec : ComputeJobSpec}
    (hspec : spec ∈ pending ops)
    (htake : (run .empty ops).dequeueNext fault
      = ((run .empty ops).without (queueKey spec), .ok (some spec))) :
    Accounts (ops ++ [.dequeue fault]) := by
  have hleaves : (QueueOp.dequeue fault).leaves (run .empty ops) = some spec := by
    simp only [leaves, htake]
  have hrun : run .empty (ops ++ [.dequeue fault])
      = (run .empty ops).without (queueKey spec) := by
    rw [run, foldl_append, foldl_cons, foldl_nil]
    exact congrArg Prod.fst htake
  have hnodup : (pending ops).Nodup := h.holds.distinct.of_map _
  -- The job and the others that wait are all that waited.
  have hsplit : ([spec] ++ (pending ops).filter (· ≠ spec)).Perm (pending ops) := by
    have herase : (pending ops).erase spec = (pending ops).filter (· ≠ spec) := by
      rw [hnodup.erase_eq_filter spec]
      refine filter_congr fun other _ => ?_
      rw [bne, Bool.beq_eq_decide_eq, ← decide_not]
    rw [← herase]
    exact (perm_cons_erase hspec).symm
  constructor
  · rw [hrun, pending_concat_leaves rfl hleaves]
    exact h.holds.without hspec
  · rw [pending_concat_leaves rfl hleaves, dequeued_concat, entered_concat, hleaves,
      Option.toList_some, append_assoc]
    refine (hsplit.append_left _).trans (h.perm.trans ?_)
    rw [enters_dequeue, Option.toList_none, append_nil]

/-- If the jobs that come in have identifiers of their own, the accounts are right after every
    run. -/
theorem accounts_run (ops : List QueueOp)
    (hdistinct : ((entered ops).map ComputeJobSpec.jobId).Nodup) : Accounts ops := by
  induction ops using reverseRecOn with
  | nil => exact ⟨Holds.empty, List.Perm.nil⟩
  | append_singleton ops op ih =>
    rw [entered_concat, map_append, nodup_append] at hdistinct
    have hacc := ih hdistinct.1
    cases op with
    | enqueue fault spec =>
      cases fault with
      | none =>
        refine hacc.enqueue spec fun hmem => ?_
        exact hdistinct.2.2 _ hmem _ (mem_singleton_self _) rfl
      | some f =>
        refine hacc.idle rfl rfl ?_
        cases f <;> rfl
    | dequeue fault =>
      rcases hacc.holds.dequeueNext_cases fault with
        ⟨-, e, herror⟩ | ⟨-, hnone⟩ | ⟨spec, hspec, -, htake⟩
      · exact hacc.idle rfl (by simp only [leaves, herror]) (congrArg Prod.fst herror)
      · exact hacc.idle rfl (by simp only [leaves, hnone]) (congrArg Prod.fst hnone)
      · exact hacc.dequeue hspec htake

theorem dequeued_drained (h : Accounts ops) :
    (dequeued .empty (ops ++ replicate (pending ops).length (.dequeue none))).Perm
      (entered ops) := by
  -- Induction on the number of jobs that wait: each call takes out one.
  generalize hcount : (pending ops).length = n
  induction n generalizing ops with
  | zero =>
    have hperm := h.perm
    rw [length_eq_zero_iff.mp hcount, append_nil] at hperm
    rwa [replicate_zero, append_nil]
  | succ n ih =>
    rcases h.holds.dequeueNext_cases none with
      ⟨hfault, -⟩ | ⟨hnil, -⟩ | ⟨spec, hspec, -, htake⟩
    · exact absurd rfl hfault
    · rw [hnil] at hcount
      cases hcount
    · have hnext := h.dequeue hspec htake
      have hlength : (pending (ops ++ [.dequeue none])).length = n := by
        have htotal := hnext.perm.length_eq.trans
          (congrArg length (entered_concat ops (.dequeue none)))
        have hleaves : (QueueOp.dequeue none).leaves (run .empty ops) = some spec := by
          simp only [leaves, htake]
        rw [dequeued_concat, hleaves] at htotal
        have hbefore := h.perm.length_eq
        simp only [length_append, Option.toList_some, length_singleton,
          enters_dequeue, Option.toList_none, length_nil] at htotal hbefore
        omega
      have hrest := ih hnext hlength
      rw [entered_concat, enters_dequeue, Option.toList_none, append_nil,
        append_assoc] at hrest
      exact hrest

/-- After any operations, with jobs that have identifiers of their own: a call that does not
    fail takes out the job that goes before all that wait, and none exactly if none waits; a
    call fails only if an operation of the trees does. What came in was taken out once or
    waits, and as many calls as jobs wait take out the rest. -/
theorem queue_takes_first (ops : List QueueOp)
    (hdistinct : ((entered ops).map ComputeJobSpec.jobId).Nodup) :
    (∀ fault next result, (run .empty ops).dequeueNext fault = (next, .ok result) →
      (result = none ↔ pending ops = []) ∧
        ∀ spec, result = some spec → spec ∈ pending ops ∧
          ∀ other ∈ pending ops, other ≠ spec → Before spec other) ∧
    (∃ next result, (run .empty ops).dequeueNext none = (next, .ok result)) ∧
    (dequeued .empty ops ++ pending ops).Perm (entered ops) ∧ (entered ops).Nodup ∧
    (dequeued .empty (ops ++ replicate (pending ops).length (.dequeue none))).Perm
      (entered ops) := by
  have hacc := accounts_run ops hdistinct
  refine ⟨fun fault next result hcall => ?_, ?_, hacc.perm, hdistinct.of_map _,
    dequeued_drained hacc⟩
  · rcases hacc.holds.dequeueNext_cases fault with
      ⟨-, e, herror⟩ | ⟨hnil, hnone⟩ | ⟨spec, hspec, hbefore, htake⟩
    · rw [herror] at hcall
      cases hcall
    · rw [hnone] at hcall
      cases hcall
      exact ⟨iff_of_true rfl hnil, nofun⟩
    · rw [htake] at hcall
      cases hcall
      refine ⟨iff_of_false nofun fun hnil => ?_, fun other hother => ?_⟩
      · rw [hnil] at hspec
        cases hspec
      · cases hother
        exact ⟨hspec, hbefore⟩
  · rcases hacc.holds.dequeueNext_cases none with
      ⟨hfault, -⟩ | ⟨-, hnone⟩ | ⟨spec, -, -, htake⟩
    · exact absurd rfl hfault
    · exact ⟨_, _, hnone⟩
    · exact ⟨_, _, htake⟩

/-- A job that is a second older than the others. -/
def olderJob : ComputeJobSpec := jobAt 999 "alice" "job" [5] [1]

/-- A job that comes in second but is older is taken out first, and two calls take out both. -/
theorem older_job_first :
    let ops : List QueueOp := [.enqueue none otherJob, .enqueue none olderJob]
    ((run .empty ops).dequeueNext none).2 = .ok (some olderJob) ∧
      (∀ other ∈ pending ops, other ≠ olderJob → Before olderJob other) ∧
      (dequeued .empty (ops ++ replicate (pending ops).length (.dequeue none))).Perm
        (entered ops) := by
  have hdistinct : ((entered [.enqueue none otherJob, .enqueue none olderJob]).map
      ComputeJobSpec.jobId).Nodup := by decide
  have hcall : ((run .empty [.enqueue none otherJob, .enqueue none olderJob]).dequeueNext none).2
      = .ok (some olderJob) := by decide +kernel
  have hrun := queue_takes_first _ hdistinct
  exact ⟨hcall, ((hrun.1 none _ _ (Prod.ext rfl hcall)).2 olderJob rfl).2, hrun.2.2.2.2⟩

end QueueOp

end Compute

end EssNode
