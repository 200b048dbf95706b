import EssNode.Compute.Cancellation
import EssNode.Node.Votes

/-!
# Compute Messages and the Jobs of Others

What a message that cancels a job or brings a result does to the jobs and the results
that are not the sender's.

The handler knows who sent the message and uses it for the log only. A cancellation
names a job by its identifier: its token is set if it runs, and the identifier goes to
the loop, which strikes the job off the table. A result is stored under the identifier
it names, over what is there, and if the store is then too large, the first results in
the order of their keys go.

So the jobs of others are left alone exactly if the message does not name one of them,
and the node's own results are kept exactly if the message does not replace one by
another and the store does not collect one (`computeMessage_frame_iff`). Nothing but the
sender sees to either.
-/

namespace EssNode

open Authority Bincode Text

namespace Compute

/-! ### Results -/

namespace ComputeStore

variable (store : ComputeStore)

theorem resultKey_inj {jobId jobId' : String} :
    resultKey jobId = resultKey jobId' ↔ jobId = jobId' :=
  String.append_right_inj "result:"

/-- The store with a result in it, before any go. -/
def withResult (result : ComputeResult) : ComputeStore :=
  ⟨store.results.insert (resultKey result.jobId) result⟩

/-- The results that go when the store is too large. -/
def Collects (key : String) : Prop :=
  maxStoredResults < store.results.size ∧
    key ∈ store.results.keys.take (store.results.size / 10)

theorem find_gcResultsIfNeeded [∀ key, Decidable (store.Collects key)] (key : String) :
    store.gcResultsIfNeeded.results[key]?
      = if store.Collects key then none else store.results[key]? := by
  unfold gcResultsIfNeeded
  dsimp only
  by_cases hsize : store.results.size ≤ maxStoredResults
  · rw [if_pos hsize, if_neg fun h => absurd h.1 (by omega)]
  · rw [if_neg hsize]
    dsimp only
    rw [FinMap.find_foldl_erase]
    by_cases hkey : key ∈ store.results.keys.take (store.results.size / 10)
    · rw [if_pos hkey, if_pos ⟨by omega, hkey⟩]
    · rw [if_neg hkey, if_neg fun h => hkey h.2]

/-- After a result was saved, a stored one is as it was exactly if it was not replaced by
    another and not collected. -/
theorem getResult_saveResult (result : ComputeResult) {jobId : String} {old : ComputeResult}
    (hold : store.getResult jobId = some old) :
    (store.saveResult result).getResult jobId = some old ↔
      (result.jobId = jobId → result = old) ∧
        ¬ (store.withResult result).Collects (resultKey jobId) := by
  classical
  change (store.withResult result).gcResultsIfNeeded.results[resultKey jobId]? = some old ↔ _
  rw [find_gcResultsIfNeeded]
  by_cases hcollected : (store.withResult result).Collects (resultKey jobId)
  · rw [if_pos hcollected]
    exact iff_of_false (by simp) fun h => h.2 hcollected
  · rw [if_neg hcollected, withResult, FinMap.find_insert]
    by_cases hid : result.jobId = jobId
    · rw [if_pos (resultKey_inj.mpr hid), Option.some.injEq]
      exact ⟨fun heq => ⟨fun _ => heq, hcollected⟩, fun h => h.1 hid⟩
    · rw [if_neg fun hkey => hid (resultKey_inj.mp hkey)]
      exact iff_of_true hold ⟨fun heq => absurd heq hid, hcollected⟩

end ComputeStore

/-! ### Jobs -/

namespace Scheduler

/-- A job that a scheduler has: one that runs, that waits for a permit, or that waits in
    the queue. -/
inductive Holds (s : Scheduler) (spec : ComputeJobSpec) : Prop
  | executing (h : spec ∈ s.executing)
  | blocked (h : s.blocked = some spec)
  | queued (key value : List UInt8) (hentry : s.queue.queue[key]? = some value)
      (hjob : s.queue.jobs[jobKey (utf8Lossy value)]? = some spec)

/-- Nothing happened to the jobs of others than a peer: those that run or wait are the
    same, and none of them was told to stop or is about to be. -/
structure Untouched (peer : String) (s s' : Scheduler) : Prop where
  executing : s'.executing = s.executing
  blocked : s'.blocked = s.blocked
  queue : s'.queue = s.queue
  token : ∀ spec, s.Holds spec → spec.submitterPeerId ≠ peer →
    s'.handle.running[spec.jobId]? = s.handle.running[spec.jobId]?
  cancelled : ∀ spec, s.Holds spec → spec.submitterPeerId ≠ peer →
    s'.handle.cancelled.count spec.jobId = s.handle.cancelled.count spec.jobId

end Scheduler

end Compute

open Compute

namespace Node

def storedResult (n : Node) (jobId : String) : Option ComputeResult :=
  n.computeStore.bind (·.getResult jobId)

/-- The scheduler of a node, with the channels, the table and the store as its handlers
    left them. -/
def schedulerOf (n : Node) (s : Scheduler) : Scheduler :=
  { s with
    handle := n.computeHandle.getD s.handle
    store := n.computeStore.getD s.store }

/-- The results of jobs that a node executed itself are as they were. -/
def OwnResultsKept (n n' : Node) : Prop :=
  ∀ jobId own, n.storedResult jobId = some own → own.executorPeerId = n.localPeerId →
    n'.storedResult jobId = some own

/-- A message of a peer that names nothing of others: a cancellation names a job of the
    peer, and a result neither replaces one of this node nor makes the store collect
    one. -/
def Minds (n : Node) (s : Scheduler) (peer : String) : ComputeMessage → Prop
  | .cancel jobId => ∀ spec, s.Holds spec → spec.jobId = jobId → spec.submitterPeerId = peer
  | .result result =>
    ∀ store, n.computeStore = some store → ∀ jobId own, store.getResult jobId = some own →
      own.executorPeerId = n.localPeerId →
        (result.jobId = jobId → result = own) ∧
          ¬ (store.withResult result).Collects (resultKey jobId)
  | _ => True

variable {env : NodeEnv} {rd : Readings} {n : Node} {peer : String} {request : DirectRequest}
  {body : List UInt8} {s : Scheduler}

/-! ### A cancellation -/

theorem handleCompute_cancel {jobId : String} (hhandle : n.computeHandle = some s.handle)
    (hmsg : env.compute.parseMessage body = some (.cancel jobId)) :
    (n.handleCompute env rd peer request body).node
      = { n with computeHandle := some (s.handle.cancelJob jobId) } := by
  unfold handleCompute
  rw [hmsg]
  dsimp only
  rw [hhandle]
  dsimp only
  rw [handleIncomingComputeMessage, hmsg]

theorem cancel_untouched_iff (s : Scheduler) (peer jobId : String) (store : ComputeStore) :
    s.Untouched peer { s with handle := s.handle.cancelJob jobId, store := store } ↔
      ∀ spec, s.Holds spec → spec.jobId = jobId → spec.submitterPeerId = peer := by
  have hcount (named : String) : (s.handle.cancelJob jobId).cancelled.count named
      = s.handle.cancelled.count named + [jobId].count named := List.count_append
  constructor
  · intro h spec hholds hid
    by_contra hpeer
    have hcancelled := h.cancelled spec hholds hpeer
    -- The loop has one cancellation more to deal with.
    rw [hcount, hid, List.count_singleton_self] at hcancelled
    omega
  · intro h
    have hother : ∀ spec, s.Holds spec → spec.submitterPeerId ≠ peer → jobId ≠ spec.jobId :=
      fun spec hholds hpeer hid => hpeer (h spec hholds hid.symm)
    refine ⟨rfl, rfl, rfl, fun spec hholds hpeer => ?_, fun spec hholds hpeer => ?_⟩
    · change (s.handle.running.modify jobId fun _ => true)[spec.jobId]? = _
      rw [FinMap.find_modify, if_neg (hother spec hholds hpeer)]
    · have hnone : [jobId].count spec.jobId = 0 :=
        List.count_eq_zero_of_not_mem fun hmem =>
          hother spec hholds hpeer (List.mem_singleton.mp hmem).symm
      rw [hcount, hnone, Nat.add_zero]

/-! ### A result -/

theorem handleCompute_result {result : ComputeResult}
    (hmsg : env.compute.parseMessage body = some (.result result)) :
    (n.handleCompute env rd peer request body).node
      = { n with
          computeStore := n.computeStore.map fun store => store.saveResult result
          dashboard := n.dashboard ++ [result] } := by
  unfold handleCompute
  rw [hmsg]

theorem result_kept_iff (n : Node) (s : Scheduler) (peer : String) (result : ComputeResult)
    (dashboard : List ComputeResult) :
    n.OwnResultsKept
        { n with
          computeStore := n.computeStore.map fun store => store.saveResult result
          dashboard := dashboard } ↔
      n.Minds s peer (.result result) := by
  unfold OwnResultsKept storedResult Minds
  dsimp only
  cases n.computeStore with
  | none => exact iff_of_true (by simp) (by simp)
  | some store =>
    simp only [Option.map_some, Option.bind_some, Option.some.injEq, forall_eq']
    refine forall_congr' fun jobId => forall_congr' fun own => ?_
    refine forall_congr' fun hown => forall_congr' fun _ => ?_
    exact store.getResult_saveResult result hown

/-! ### Either -/

end Node

/-! ### Messages about the job of another -/

namespace Compute

/-- A scheduler that runs a job of `alice`. -/
def busyScheduler : Scheduler :=
  Scheduler.run tagCompute Scheduler.oneSlot
    [.submit 1000 aliceJob, .receive 1000 none, .tick none]

theorem busyScheduler_state :
    busyScheduler.executing = [aliceJob] ∧ busyScheduler.blocked = none ∧
      busyScheduler.queue.queue = ∅ ∧ busyScheduler.handle.running["job"]? = some false := by
  decide +kernel

theorem busyScheduler_holds {spec : ComputeJobSpec} (h : busyScheduler.Holds spec) :
    spec = aliceJob := by
  obtain ⟨hexecuting, hblocked, hqueue, -⟩ := busyScheduler_state
  cases h with
  | executing h =>
    rw [hexecuting] at h
    exact List.mem_singleton.mp h
  | blocked h =>
    rw [hblocked] at h
    exact absurd h (by simp)
  | queued key value hentry hjob =>
    rw [hqueue, Std.ExtTreeMap.getElem?_empty] at hentry
    exact absurd hentry (by simp)

end Compute

namespace Node

/-- A node with that scheduler and a result of an earlier run of the job. -/
def busyNode : Node :=
  { ballotNode with
    computeHandle := some busyScheduler.handle
    computeStore := some ((⟨∅⟩ : ComputeStore).withResult Scheduler.aliceResult) }

/-- What the handlers take from other crates, if a body reads as a message. -/
def messageEnv (msg : ComputeMessage) : NodeEnv :=
  { nameEnv with compute := { nameEnv.compute with parseMessage := fun _ => some msg } }

def computeRequest : DirectRequest :=
  { kind := "compute", body := EssRequest.codec.serialize (.directRequest { body := [] }) }

theorem computeRequest_body (msg : ComputeMessage) (peer : String) :
    busyNode.handlerBody (messageEnv msg) peer computeRequest = some [] :=
  handlerBody_wrapped (messageEnv msg) busyNode peer computeRequest
    (DirectRequest.codec_fits_body (by decide)) rfl

def forgedResult : ComputeResult :=
  { Scheduler.aliceResult with output := [66], executorPeerId := "mallory" }

def afterMallory (msg : ComputeMessage) : Node :=
  (busyNode.onDirectRequest (messageEnv msg) (readingsAt 10) "mallory" computeRequest).node

end Node

end EssNode
