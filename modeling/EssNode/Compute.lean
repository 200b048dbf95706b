import EssNode.Authority
import EssNode.Lib.Bincode

/-!
# Compute Jobs

Jobs submitted by peers, the store of their results, and the handler of compute
messages.

The handler passes an accepted job to the scheduler's channel; the scheduler, a
task of its own, stores it later. The channels are lists of what was sent. The
store is its tree of results, by key; of the scheduler the handler sees the
running jobs with their cancellation flags.

Hashes, Ed25519 and JSON come from other crates and are collected in
`ComputeEnv`.
-/

namespace EssNode

open Authority Bincode Std.ExtTreeMap

namespace Compute

/-- The state of a job. -/
inductive JobStatus where
  | queued
  | running (startedAt : UInt64)
  | completed (finishedAt : UInt64)
  | failed (reason : String) (finishedAt : UInt64)
  | cancelled (reason : String)
  | timedOut (finishedAt : UInt64)
deriving DecidableEq, Repr

def JobStatus.asStr : JobStatus → String
  | .queued => "queued"
  | .running _ => "running"
  | .completed _ => "completed"
  | .failed _ _ => "failed"
  | .cancelled _ => "cancelled"
  | .timedOut _ => "timed_out"

/-- What running a job gave. -/
structure ComputeResult where
  jobId : String
  status : JobStatus
  output : List UInt8
  stderr : List UInt8
  exitCode : Int32
  fuelConsumed : UInt64
  execTimeMs : UInt64
  memoryUsedBytes : UInt64
  executorPeerId : String
  submitterPeerId : String
  finishedAt : UInt64
deriving DecidableEq

structure ResourceLimits where
  memoryMb : UInt64
  timeoutMs : UInt64
  fuelLimit : UInt64
  maxOutputBytes : UInt64
deriving DecidableEq, Repr

/-- A job as its submitter describes it. -/
structure ComputeJobSpec where
  jobId : String
  wasmHash : String
  wasmBytecode : List UInt8
  inputData : List UInt8
  envVars : FinMap String String
  limits : ResourceLimits
  submitterPeerId : String
  signature : List UInt8
  submitterPubkey : List UInt8
  createdAt : UInt64
  apiVersion : UInt8
deriving DecidableEq

/-- Why a job is refused. -/
inductive ComputeError where
  | resourceLimitExceeded (text : String)
  | integrityFailed (text : String)
  | invalidSpec (text : String)
  | authorityDenied (text : String)
deriving DecidableEq, Repr

def ComputeError.display : ComputeError → String
  | .resourceLimitExceeded text => "Resource limit exceeded: " ++ text
  | .integrityFailed text => "Integrity check failed: " ++ text
  | .invalidSpec text => "Invalid job spec: " ++ text
  | .authorityDenied text => "Authority denied: " ++ text

/-- Messages about jobs. What a capacity report says is never read. -/
inductive ComputeMessage where
  | submit (spec : ComputeJobSpec)
  | result (result : ComputeResult)
  | cancel (jobId : String)
  | statusQuery (jobId : String)
  | statusReply (jobId status : String) (execTimeMs : Option UInt64)
  | capacity
deriving DecidableEq

/-- Hashes, Ed25519, the text form of peer identifiers, and JSON. -/
structure ComputeEnv where
  sha256Hex : List UInt8 → String
  isPublicKey : List UInt8 → Bool
  isSignature : List UInt8 → Bool
  verify : List UInt8 → List UInt8 → List UInt8 → Bool
  parsePeerId : String → Option String
  parseMessage : List UInt8 → Option ComputeMessage
  messageJson : ComputeMessage → Option (List UInt8)

def maxWasmBytecodeSize : Nat := 4 * 1024 * 1024

def maxExecTimeoutMs : UInt64 := 10 * 60 * 1000

def ResourceLimits.validate (self : ResourceLimits) : Except ComputeError Unit :=
  if self.timeoutMs > maxExecTimeoutMs then
    .error (.resourceLimitExceeded ("timeout_ms " ++ Nat.repr self.timeoutMs.toNat ++
      " melebihi maksimum " ++ Nat.repr maxExecTimeoutMs.toNat))
  else if self.memoryMb > 512 then
    .error (.resourceLimitExceeded "memory_mb tidak boleh melebihi 512 MB per job")
  else .ok ()

namespace ComputeJobSpec

variable (env : ComputeEnv) (self : ComputeJobSpec)

def signingBytes : List UInt8 :=
  utf8 self.jobId ++ utf8 "|" ++ utf8 self.wasmHash ++ utf8 "|" ++ self.inputData ++ utf8 "|" ++
    utf8 self.submitterPeerId ++ utf8 "|" ++ littleEndian 8 self.createdAt.toNat

def verifyBytecodeIntegrity : Bool := env.sha256Hex self.wasmBytecode == self.wasmHash

/-- Check a job's size, hash, limits, signature and age. -/
def validate (now : UInt64) : Except ComputeError Unit := do
  if self.wasmBytecode.length > maxWasmBytecodeSize then
    .error (.invalidSpec ("WASM bytecode terlalu besar: " ++ Nat.repr self.wasmBytecode.length ++
      " bytes (maks " ++ Nat.repr maxWasmBytecodeSize ++ ")"))
  if !self.verifyBytecodeIntegrity env then
    .error (.integrityFailed "wasm_hash tidak cocok dengan bytecode")
  self.limits.validate
  if self.submitterPeerId = "" then .error (.invalidSpec "submitter_peer_id kosong")
  if self.signature.isEmpty || self.submitterPubkey.isEmpty then
    .error (.invalidSpec "signature atau submitter_pubkey kosong")
  if !env.isPublicKey self.submitterPubkey then
    .error (.invalidSpec "format submitter_pubkey tidak valid")
  if !env.isSignature self.signature then
    .error (.invalidSpec "format signature tidak valid")
  if !env.verify self.submitterPubkey self.signingBytes self.signature then
    .error (.invalidSpec "verifikasi signature gagal (job ditempa atau korup)")
  -- The age saturates at zero for a job stamped ahead of the clock.
  if now.toNat - self.createdAt.toNat > 900 then
    .error (.invalidSpec "job terlalu lama (>15 menit)")

end ComputeJobSpec

structure ComputeStore where
  results : FinMap String ComputeResult
deriving DecidableEq

def maxStoredResults : Nat := 10000

def resultKey (jobId : String) : String := "result:" ++ jobId

namespace ComputeStore

variable (store : ComputeStore)

/-- Beyond the limit, delete a tenth of the results, first keys first. -/
def gcResultsIfNeeded : ComputeStore :=
  let count := store.results.size
  if count ≤ maxStoredResults then store
  else
    ⟨(store.results.keys.take (count / 10)).foldl (fun acc k => acc.erase k) store.results⟩

def saveResult (result : ComputeResult) : ComputeStore :=
  gcResultsIfNeeded ⟨store.results.insert (resultKey result.jobId) result⟩

def getResult (jobId : String) : Option ComputeResult := store.results[resultKey jobId]?

theorem gcResultsIfNeeded_deletes (h : maxStoredResults < store.results.size) (key : String) :
    ∃ k, k ≠ key ∧ (store.results[k]?).isSome ∧
      (store.gcResultsIfNeeded.results[k]?).isNone := by
  unfold maxStoredResults at h
  set doomed := store.results.keys.take (store.results.size / 10) with hdoomed
  have hlen : doomed.length = store.results.size / 10 := by
    rw [hdoomed, List.length_take, length_keys]
    omega
  have hnodup : doomed.Nodup := nodup_keys.sublist (List.take_sublist _ _)
  -- At least two keys go, so one of them is not the given one.
  have hother : ∃ k ∈ doomed, k ≠ key := by
    by_contra hall
    have hsub : doomed ⊆ [key] := fun k hk => by
      by_contra hne
      exact hall ⟨k, hk, by simpa using hne⟩
    have hcard := (hnodup.subperm hsub).length_le
    rw [hlen, List.length_singleton] at hcard
    omega
  rcases hother with ⟨k, hk, hne⟩
  refine ⟨k, hne, ?_, ?_⟩
  · have hmem : k ∈ store.results.keys := List.mem_of_mem_take hk
    rwa [mem_keys, mem_iff_isSome_getElem?] at hmem
  · unfold gcResultsIfNeeded
    dsimp only
    rw [if_neg (by unfold maxStoredResults; omega)]
    simp only
    rw [FinMap.find_foldl_erase, if_pos hk]
    rfl

theorem saveResult_eq_self_iff (result : ComputeResult) :
    store.saveResult result = store ↔
      store.getResult result.jobId = some result ∧ store.results.size ≤ maxStoredResults := by
  set key := resultKey result.jobId with hkey
  set written : ComputeStore := ⟨store.results.insert key result⟩ with hwritten
  change written.gcResultsIfNeeded = store ↔ store.results[key]? = some result ∧ _
  by_cases hsize : written.results.size ≤ maxStoredResults
  · have hgc : written.gcResultsIfNeeded = written := if_pos hsize
    rw [hgc]
    constructor
    · intro h
      have hins : store.results.insert key result = store.results := congrArg results h
      refine ⟨(FinMap.insert_eq_self_iff _ _ _).mp hins, ?_⟩
      rwa [← hins]
    · intro h
      have hins := (FinMap.insert_eq_self_iff store.results key result).mpr h.1
      rw [hwritten, hins]
  · -- The collection deletes a result that was stored before.
    rcases gcResultsIfNeeded_deletes written (by omega) key with ⟨k, hne, hsome, hnone⟩
    constructor
    · intro h
      have hbefore : written.results[k]? = store.results[k]? := by
        rw [hwritten, FinMap.find_insert, if_neg (Ne.symm hne)]
      rw [h, ← hbefore] at hnone
      rw [Option.isNone_iff_eq_none] at hnone
      rw [hnone] at hsome
      exact absurd hsome (by simp)
    · intro h
      have hins := (FinMap.insert_eq_self_iff store.results key result).mpr h.1
      refine absurd ?_ hsize
      rw [hwritten, hins]
      exact h.2

end ComputeStore

/-- The scheduler as the handler sees it: what was sent into its channels, its
    running jobs with whether each has been told to stop, and its authority. -/
structure ComputeSchedulerHandle where
  submitted : List ComputeJobSpec
  cancelled : List String
  running : FinMap String Bool
  authority : AuthorityState

namespace ComputeSchedulerHandle

variable (env : ComputeEnv) (handle : ComputeSchedulerHandle)

/-- Check a job and pass it on. -/
def submitJob (now : UInt64) (spec : ComputeJobSpec) :
    ComputeSchedulerHandle × Except ComputeError String :=
  match env.parsePeerId spec.submitterPeerId with
  | none => (handle, .error (.invalidSpec "invalid submitter_peer_id"))
  | some peer =>
    if !handle.authority.isAllowed peer .computeSubmit then
      (handle, .error (.authorityDenied "peer tidak diizinkan submit job komputasi"))
    else
      match spec.validate env now with
      | .error e => (handle, .error (.invalidSpec e.display))
      | .ok () => ({ handle with submitted := handle.submitted ++ [spec] }, .ok spec.jobId)

def cancelJob (jobId : String) : ComputeSchedulerHandle :=
  { handle with
    running := handle.running.modify jobId fun _ => true
    cancelled := handle.cancelled ++ [jobId] }

end ComputeSchedulerHandle

def handleStatusQuery (store : ComputeStore) (jobId : String) : ComputeMessage :=
  match store.getResult jobId with
  | some res => .statusReply jobId res.status.asStr (some res.execTimeMs)
  | none => .statusReply jobId "not_found" none

/-- Handle a compute message; results are dealt with before. -/
def handleIncomingComputeMessage (env : ComputeEnv) (now : UInt64) (rawPayload : List UInt8)
    (scheduler : ComputeSchedulerHandle) (store : Option ComputeStore) :
    ComputeSchedulerHandle × Option ComputeMessage :=
  match env.parseMessage rawPayload with
  | some (.submit spec) =>
    match scheduler.submitJob env now spec with
    | (scheduler, .ok id) => (scheduler, some (.statusReply id "queued" none))
    | (scheduler, .error e) =>
      (scheduler, some (.statusReply spec.jobId ("failed: " ++ e.display) none))
  | some (.cancel jobId) => (scheduler.cancelJob jobId, none)
  | some (.statusQuery jobId) => (scheduler, store.map fun s => handleStatusQuery s jobId)
  | _ => (scheduler, none)

end Compute

end EssNode
