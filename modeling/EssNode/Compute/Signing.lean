import EssNode.Compute
import EssNode.Message.Material

/-!
# Signed Jobs

What is known of a job that a node accepted: who signed it, and which of its fields
the signature covers.

A job names its submitter twice, by a peer identifier and by a public key. Permission
is looked up for the identifier and the signature is checked with the key, and
nothing compares the two. So a job is accepted in a peer's name from anyone who has a
key.

The signature covers the job's identifier, the hash of its code, its input, the
identifier of its submitter and its date, with bars between them. It covers neither
the environment nor the limits. Since a bar in a job's identifier or in its input is
not marked, the same bytes can also be cut up in another way, and then they are about
other code. Jobs that are cut up in the same places agree on all that is covered
(`signingBytes_cancel`); without bars in the identifiers there is only one way to cut
them.
-/

namespace EssNode

open Authority Bincode List Separated Text

namespace Compute

/-! ### What is checked -/

/-- Everything that is checked of a job. -/
structure ComputeJobSpec.Valid (env : ComputeEnv) (now : UInt64) (spec : ComputeJobSpec) :
    Prop where
  size : spec.wasmBytecode.length ≤ maxWasmBytecodeSize
  integrity : env.sha256Hex spec.wasmBytecode = spec.wasmHash
  limits : spec.limits.validate = .ok ()
  submitter : spec.submitterPeerId ≠ ""
  signature : spec.signature ≠ []
  submitterPubkey : spec.submitterPubkey ≠ []
  isPublicKey : env.isPublicKey spec.submitterPubkey = true
  isSignature : env.isSignature spec.signature = true
  signed : env.verify spec.submitterPubkey spec.signingBytes spec.signature = true
  fresh : now.toNat - spec.createdAt.toNat ≤ 900

theorem check_eq_ok {failed : Prop} [Decidable failed] {e : ComputeError}
    {rest : Except ComputeError Unit} :
    (if failed then Except.error e else rest) = .ok () ↔ ¬ failed ∧ rest = .ok () := by
  by_cases h : failed
  · simp [h]
  · simp [h]

theorem validate_eq_ok_iff {env : ComputeEnv} {now : UInt64} {spec : ComputeJobSpec} :
    spec.validate env now = .ok () ↔ spec.Valid env now := by
  unfold ComputeJobSpec.validate
  dsimp only [bind, Except.bind, pure, Except.pure]
  simp only [check_eq_ok, ComputeJobSpec.verifyBytecodeIntegrity, Bool.not_eq_true',
    beq_eq_false_iff_ne, not_not, Bool.or_eq_true, List.isEmpty_iff, Nat.not_lt, gt_iff_lt]
  cases hlimits : spec.limits.validate with
  | error e =>
    refine iff_of_false (by simp) fun h => ?_
    rw [h.limits] at hlimits
    exact absurd hlimits (by simp)
  | ok u =>
    simp only [check_eq_ok, Bool.not_eq_false, not_or, Nat.not_lt, and_true]
    constructor
    · rintro ⟨hsize, hhash, hname, ⟨hsig, hpk⟩, hisPk, hisSig, hverify, hfresh⟩
      exact ⟨hsize, hhash, hlimits, hname, hsig, hpk, hisPk, hisSig, hverify, hfresh⟩
    · intro h
      exact ⟨h.size, h.integrity, h.submitter, ⟨h.signature, h.submitterPubkey⟩,
        h.isPublicKey, h.isSignature, h.signed, h.fresh⟩

namespace ComputeSchedulerHandle

variable (env : ComputeEnv) (handle : ComputeSchedulerHandle)

def Accepts (now : UInt64) (spec : ComputeJobSpec) : Prop :=
  (handle.submitJob env now spec).2 = .ok spec.jobId

/-- A job is accepted just if its submitter is a peer that may submit jobs and the job
    passes its checks. It is then passed on; otherwise nothing is. -/
theorem submitJob_cases (now : UInt64) (spec : ComputeJobSpec) :
    ((∃ peer, env.parsePeerId spec.submitterPeerId = some peer ∧
        handle.authority.isAllowed peer .computeSubmit = true) ∧ spec.Valid env now ∧
      handle.submitJob env now spec
        = ({ handle with submitted := handle.submitted ++ [spec] }, .ok spec.jobId)) ∨
    (¬ ((∃ peer, env.parsePeerId spec.submitterPeerId = some peer ∧
        handle.authority.isAllowed peer .computeSubmit = true) ∧ spec.Valid env now) ∧
      ∃ e, handle.submitJob env now spec = (handle, .error e)) := by
  unfold submitJob
  cases hparse : env.parsePeerId spec.submitterPeerId with
  | none => exact Or.inr ⟨by simp, _, rfl⟩
  | some peer =>
    dsimp only
    cases hallowed : handle.authority.isAllowed peer .computeSubmit with
    | false => exact Or.inr ⟨by simp [hallowed], _, rfl⟩
    | true =>
      rw [if_neg (by simp)]
      cases hvalid : spec.validate env now with
      | error e =>
        refine Or.inr ⟨fun h => ?_, _, rfl⟩
        rw [validate_eq_ok_iff.mpr h.2] at hvalid
        exact absurd hvalid (by simp)
      | ok u => exact Or.inl ⟨⟨peer, rfl, hallowed⟩, validate_eq_ok_iff.mp hvalid, rfl⟩

theorem accepts_iff {env : ComputeEnv} {handle : ComputeSchedulerHandle} {now : UInt64}
    {spec : ComputeJobSpec} :
    handle.Accepts env now spec ↔
      (∃ peer, env.parsePeerId spec.submitterPeerId = some peer ∧
        handle.authority.isAllowed peer .computeSubmit = true) ∧ spec.Valid env now := by
  unfold Accepts
  rcases handle.submitJob_cases env now spec with ⟨hpeer, hvalid, hsubmit⟩ | ⟨hnot, e, hsubmit⟩
  · simp [hsubmit, hpeer, hvalid]
  · rw [hsubmit]
    exact iff_of_false (by simp) hnot

end ComputeSchedulerHandle

/-! ### Who signed a job -/

/-- Whose keys are whose, and what was signed with them. Signatures are not forged. -/
structure Signers (env : ComputeEnv) where
  peerIdOf : List UInt8 → String
  Signed : List UInt8 → List UInt8 → Prop
  unforgeable : ∀ pk msg sig, env.verify pk msg sig = true → Signed pk msg

/-- A job was signed with the key of the peer it names. -/
def Signers.Authentic {env : ComputeEnv} (signers : Signers env) (spec : ComputeJobSpec) : Prop :=
  env.parsePeerId spec.submitterPeerId = some (signers.peerIdOf spec.submitterPubkey) ∧
    signers.Signed spec.submitterPubkey spec.signingBytes

/-- A job with another key and another signature. -/
def ComputeJobSpec.resigned (spec : ComputeJobSpec) (pk sig : List UInt8) : ComputeJobSpec :=
  { spec with submitterPubkey := pk, signature := sig }

section Covered

variable {a b : ComputeJobSpec}

/-- Two jobs that are the same to the executor. -/
def ComputeJobSpec.SameExecution (a b : ComputeJobSpec) : Prop :=
  a.jobId = b.jobId ∧ a.wasmBytecode = b.wasmBytecode ∧ a.inputData = b.inputData ∧
    a.envVars = b.envVars ∧ a.limits = b.limits

/-- Two jobs whose signed bytes are cut up in the same places. -/
def ComputeJobSpec.CutAlike (a b : ComputeJobSpec) : Prop :=
  (utf8 a.jobId).length = (utf8 b.jobId).length ∧ a.inputData.length = b.inputData.length

theorem signingBytes_eq (spec : ComputeJobSpec) :
    spec.signingBytes = utf8 spec.jobId ++ [bar] ++ (utf8 spec.wasmHash ++ [bar] ++
      (spec.inputData ++ [bar] ++ utf8 spec.submitterPeerId ++
        ([bar] ++ littleEndian 8 spec.createdAt.toNat))) := by
  have hbar : utf8 "|" = [bar] := by decide +kernel
  simp only [ComputeJobSpec.signingBytes, hbar, append_assoc]

/-- The same signed bytes with the identifiers of the same length, and hashes of the
    same length: the identifiers and the hashes are the same, and so are the inputs
    with the submitters behind them. -/
theorem signingBytes_cancel (h : a.signingBytes = b.signingBytes)
    (hhash : (utf8 a.wasmHash).length = (utf8 b.wasmHash).length)
    (hjob : (utf8 a.jobId).length = (utf8 b.jobId).length ∨ bar ∉ utf8 a.jobId)
    (hjob' : (utf8 b.jobId).length = (utf8 a.jobId).length ∨ bar ∉ utf8 b.jobId) :
    a.jobId = b.jobId ∧ a.wasmHash = b.wasmHash ∧
      a.inputData ++ [bar] ++ utf8 a.submitterPeerId
        = b.inputData ++ [bar] ++ utf8 b.submitterPeerId := by
  rw [signingBytes_eq, signingBytes_eq] at h
  obtain ⟨hid, h⟩ := cancel_part hjob hjob' h
  obtain ⟨hcode, h⟩ := cancel_part (Or.inl hhash) (Or.inl hhash.symm) h
  obtain ⟨hinput, -⟩ := append_inj' h (by simp)
  exact ⟨utf8_injective hid, utf8_injective hcode, hinput⟩

theorem cutAlike_of_unbarred (h : a.signingBytes = b.signingBytes)
    (hhash : (utf8 a.wasmHash).length = (utf8 b.wasmHash).length)
    (hjob : Unbarred a.jobId) (hjob' : Unbarred b.jobId) (hpeer : Unbarred a.submitterPeerId)
    (hpeer' : Unbarred b.submitterPeerId) : a.CutAlike b := by
  obtain ⟨hid, -, hinput⟩ := signingBytes_cancel h hhash (Or.inr (unbarred_iff.mp hjob))
    (Or.inr (unbarred_iff.mp hjob'))
  refine ⟨by rw [hid], ?_⟩
  -- The submitter is what stands behind the last bar.
  have hback := congrArg reverse hinput
  simp only [reverse_append, reverse_singleton, ← append_assoc] at hback
  obtain ⟨-, hsame⟩ := cancel_part (Or.inr (by simpa using unbarred_iff.mp hpeer))
    (Or.inr (by simpa using unbarred_iff.mp hpeer')) hback
  simpa using congrArg length hsame

/-- Two jobs with one key and one signature that both pass their checks are the same to
    the executor just if their environments and limits are the same and their signed
    bytes are cut up in the same places. Without bars in their identifiers the places
    are the same. -/
theorem signed_job_same_iff {env : ComputeEnv} {now now' : UInt64}
    (hpubkey : a.submitterPubkey = b.submitterPubkey) (hsignature : a.signature = b.signature)
    (hvalid : a.validate env now = .ok ()) (hvalid' : b.validate env now' = .ok ())
    (hverify : ∀ msg msg', env.verify a.submitterPubkey msg a.signature = true →
      env.verify a.submitterPubkey msg' a.signature = true → msg = msg')
    (hlength : ∀ data, (utf8 (env.sha256Hex data)).length = 64)
    (hcollision : env.sha256Hex a.wasmBytecode = env.sha256Hex b.wasmBytecode →
      a.wasmBytecode = b.wasmBytecode) :
    (a.SameExecution b ↔ a.envVars = b.envVars ∧ a.limits = b.limits ∧ a.CutAlike b) ∧
      (Unbarred a.jobId → Unbarred b.jobId → Unbarred a.submitterPeerId →
        Unbarred b.submitterPeerId → a.CutAlike b) := by
  rw [validate_eq_ok_iff] at hvalid hvalid'
  have hsame : a.signingBytes = b.signingBytes := by
    refine hverify _ _ hvalid.signed ?_
    rw [hpubkey, hsignature]
    exact hvalid'.signed
  have hhash : (utf8 a.wasmHash).length = (utf8 b.wasmHash).length := by
    rw [← hvalid.integrity, ← hvalid'.integrity, hlength, hlength]
  refine ⟨⟨?_, ?_⟩, cutAlike_of_unbarred hsame hhash⟩
  · rintro ⟨hid, -, hinput, henv, hlimits⟩
    exact ⟨henv, hlimits, by rw [hid], by rw [hinput]⟩
  · rintro ⟨henv, hlimits, hid, hinput⟩
    obtain ⟨hjob, hcode, hrest⟩ := signingBytes_cancel hsame hhash (Or.inl hid) (Or.inl hid.symm)
    refine ⟨hjob, hcollision ?_, ?_, henv, hlimits⟩
    · rw [hvalid.integrity, hvalid'.integrity, hcode]
    · rw [append_assoc, append_assoc] at hrest
      exact (append_inj hrest hinput).1

end Covered

/-! ### Two submitters -/

section Submitters

/-- Hashes that are the first 32 bytes, and signatures that show the key and the
    message. -/
def tagCompute : ComputeEnv where
  sha256Hex data := hexEncode (ofFn fun i : Fin 32 => data.getD i.val 0)
  isPublicKey _ := true
  isSignature _ := true
  verify pk msg sig := sig == pk ++ msg
  parsePeerId := some
  parseMessage _ := none
  messageJson _ := none

theorem tagCompute_length (data : List UInt8) :
    (utf8 (tagCompute.sha256Hex data)).length = 64 := by
  rw [tagCompute, length_hexEncode, length_ofFn]

/-- A job of a submitter, with its date and its input, signed with a key. -/
def jobAt (createdAt : UInt64) (submitter jobId : String) (inputData pk : List UInt8) :
    ComputeJobSpec :=
  let unsigned : ComputeJobSpec :=
    { jobId := jobId
      wasmHash := tagCompute.sha256Hex [1]
      wasmBytecode := [1]
      inputData := inputData
      envVars := ∅
      limits := { memoryMb := 64, timeoutMs := 30000, fuelLimit := 1000, maxOutputBytes := 100 }
      submitterPeerId := submitter
      signature := []
      submitterPubkey := pk
      createdAt := createdAt
      apiVersion := 1 }
  { unsigned with signature := pk ++ unsigned.signingBytes }

def jobOf : String → String → List UInt8 → List UInt8 → ComputeJobSpec := jobAt 1000

/-- A node that takes jobs from two peers. -/
def twoSubmitters : ComputeSchedulerHandle where
  submitted := []
  cancelled := []
  running := ∅
  authority :=
    { supernodes := ["alice", "mallory"], allowedPeers := ∅, policies := .default }

section Accepted

variable {createdAt now : UInt64} {submitter jobId : String} {inputData pk : List UInt8}

theorem jobAt_valid (hname : submitter ≠ "") (hpk : pk ≠ [])
    (hage : now.toNat - createdAt.toNat ≤ 900) :
    (jobAt createdAt submitter jobId inputData pk).Valid tagCompute now where
  size := by simp [jobAt, maxWasmBytecodeSize]
  integrity := rfl
  limits := rfl
  submitter := hname
  signature := by simp [jobAt, hpk]
  submitterPubkey := hpk
  isPublicKey := rfl
  isSignature := rfl
  signed := beq_self_eq_true _
  fresh := hage

theorem jobAt_accepted (hname : submitter = "alice" ∨ submitter = "mallory") (hpk : pk ≠ [])
    (hage : now.toNat - createdAt.toNat ≤ 900) :
    twoSubmitters.Accepts tagCompute now (jobAt createdAt submitter jobId inputData pk) := by
  rw [ComputeSchedulerHandle.accepts_iff]
  rcases hname with rfl | rfl
  · exact ⟨⟨"alice", rfl, by decide +kernel⟩, jobAt_valid (by decide) hpk hage⟩
  · exact ⟨⟨"mallory", rfl, by decide +kernel⟩, jobAt_valid (by decide) hpk hage⟩

end Accepted

/-- One key is a peer's, and all others are another's. -/
def tagSigners : Signers tagCompute where
  peerIdOf pk := if pk = [1] then "alice" else "mallory"
  Signed pk msg := ∃ sig, tagCompute.verify pk msg sig = true
  unforgeable _ _ sig h := ⟨sig, h⟩

theorem tagCompute_verify {pk sig msg msg' : List UInt8} (h : tagCompute.verify pk msg sig = true)
    (h' : tagCompute.verify pk msg' sig = true) : msg = msg' := by
  have hsig : sig = pk ++ msg := eq_of_beq h
  have hsig' : sig = pk ++ msg' := eq_of_beq h'
  exact append_cancel_left (hsig.symm.trans hsig')

/-- A job that names another version of the interface is still the same job. -/
theorem other_version_same :
    (jobOf "alice" "job" [5] [1]).SameExecution
      { jobOf "alice" "job" [5] [1] with apiVersion := 2 } := by
  have hvalid : (jobOf "alice" "job" [5] [1]).validate tagCompute 1000 = .ok () :=
    validate_eq_ok_iff.mpr (jobAt_valid (by decide) (by decide) (by decide))
  -- The version is not among the things that are checked.
  have hvalid' : ComputeJobSpec.validate tagCompute
      { jobOf "alice" "job" [5] [1] with apiVersion := 2 } 1000 = .ok () := hvalid
  exact (signed_job_same_iff rfl rfl hvalid hvalid' (fun _ _ => tagCompute_verify)
    tagCompute_length (fun _ => rfl)).1.mpr ⟨rfl, rfl, rfl, rfl⟩

/-- A job whose input starts with a hash and a bar. -/
def barredJob : ComputeJobSpec :=
  jobOf "alice" "job" (utf8 (tagCompute.sha256Hex [2]) ++ [bar, 5]) [1]

/-- The same job with another environment and other limits. -/
def loosenedJob : ComputeJobSpec :=
  { barredJob with
    envVars := (∅ : FinMap String String).insert "ADMIN" "1"
    limits := { barredJob.limits with fuelLimit := 1000000 } }

/-- A job that runs the code whose hash was in the input. -/
def recutJob : ComputeJobSpec :=
  { barredJob with
    jobId := "job|" ++ tagCompute.sha256Hex [1]
    wasmHash := tagCompute.sha256Hex [2]
    wasmBytecode := [2]
    inputData := [5] }

/-- The three jobs share a key and a signature and pass their checks. -/
theorem signed_job_altered :
    (loosenedJob.submitterPubkey = barredJob.submitterPubkey ∧
      loosenedJob.signature = barredJob.signature) ∧
    (recutJob.submitterPubkey = barredJob.submitterPubkey ∧
      recutJob.signature = barredJob.signature) ∧
    barredJob.validate tagCompute 1000 = .ok () ∧
    (loosenedJob.validate tagCompute 1000 = .ok () ∧ ¬ barredJob.SameExecution loosenedJob) ∧
    recutJob.validate tagCompute 1000 = .ok () ∧ ¬ barredJob.SameExecution recutJob := by
  have hbarred : barredJob.Valid tagCompute 1000 :=
    jobAt_valid (by decide) (by decide) (by decide)
  have hloosened : loosenedJob.Valid tagCompute 1000 := { hbarred with limits := rfl }
  -- The bars are in other places, and the bytes are the same.
  have hrecut : recutJob.signingBytes = barredJob.signingBytes := by decide +kernel
  have hrecutValid : recutJob.Valid tagCompute 1000 :=
    { hbarred with size := by decide, integrity := rfl, signed := hrecut ▸ hbarred.signed }
  simp only [validate_eq_ok_iff]
  refine ⟨⟨rfl, rfl⟩, ⟨rfl, rfl⟩, hbarred, ⟨hloosened, fun h => ?_⟩, hrecutValid, fun h => ?_⟩
  · exact absurd h.2.2.2.2 (by decide +kernel)
  · exact absurd h.2.1 (by decide +kernel)

end Submitters

end Compute

end EssNode
