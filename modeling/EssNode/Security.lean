import EssNode.Lib.Text
import EssNode.Message

/-!
# The Security Runtime

The node's policy, its table of peer keys and its replay cache, with the checks
made on incoming messages.

Signatures and base64 come from other crates; `Crypto` collects them. A check
that fails may still have changed the replay cache, so checks return the runtime
beside their result. The clock is read once for the window of a message and once
for the cache.

Every check of a signed message begins with `checkCommon`, and only that touches
the runtime; what it goes on to check differs from message to message
(`verifyWith`). A signature is looked up, decoded and verified in that order, and
some messages have their addressee compared in between (`checkSignature`).
-/

namespace EssNode

open Authority Bincode

section Fallible

variable {ε ε' α β : Type} {x : Except ε α}

theorem bind_eq_ok_iff {f : α → Except ε β} {b : β} :
    (x >>= f) = .ok b ↔ ∃ a, x = .ok a ∧ f a = .ok b := by
  cases x with
  | error e => simp [bind, Except.bind]
  | ok a => simp [bind, Except.bind]

theorem check_bind_eq_ok_iff {x : Except ε Unit} {y : Except ε β} {b : β} :
    (x >>= fun _ => y) = .ok b ↔ x = .ok () ∧ y = .ok b := by
  rw [bind_eq_ok_iff]
  exact ⟨fun ⟨_, hx, hy⟩ => ⟨hx, hy⟩, fun ⟨hx, hy⟩ => ⟨(), hx, hy⟩⟩

theorem map_eq_ok_iff {f : α → β} {b : β} : x.map f = .ok b ↔ ∃ a, x = .ok a ∧ f a = b := by
  cases x with
  | error e => simp [Except.map]
  | ok a => simp [Except.map]

theorem mapError_eq_ok_iff {f : ε → ε'} {a : α} : x.mapError f = .ok a ↔ x = .ok a := by
  cases x with
  | error e => simp [Except.mapError]
  | ok a => simp [Except.mapError]

end Fallible

structure PublicKey where
  bytes : List UInt8
deriving DecidableEq, Repr

/-- Why a check fails. -/
inductive SecurityError where
  | timestampOutOfWindow
  | replayDetected
  | unknownPeerKey
  | badPeerIdentity
  | badSignature
  | cryptoError (text : String)
  | decodeError (text : String)
deriving DecidableEq, Repr

/-- How an error is shown. -/
def SecurityError.display : SecurityError → String
  | .timestampOutOfWindow => "timestamp out of window"
  | .replayDetected => "replay detected (nonce reuse)"
  | .unknownPeerKey => "unknown peer public key"
  | .badPeerIdentity => "peer identity mismatch"
  | .badSignature => "signature verification failed"
  | .cryptoError text => "crypto error: " ++ text
  | .decodeError text => "decode error: " ++ text

/-- Signatures, with the node's own key for signing, and base64; and the order in
    which the node's host stores words, which signed bytes depend on. -/
structure Crypto where
  verify : PublicKey → List UInt8 → List UInt8 → Bool
  sign : List UInt8 → Except String (List UInt8)
  decodeBase64 : String → Except String (List UInt8)
  encodeBase64 : List UInt8 → String
  byteOrder : ByteOrder := .little

abbrev Bucket := FinMap String UInt64

/-- The runtime's state. -/
structure SecurityRuntime where
  localPeerId : String
  replayWindowSecs : UInt64
  replaySeen : FinMap String Bucket
  peerPublicKeys : FinMap String PublicKey
  authority : Option AuthorityState
  allowedActions : Finset String
  allowedPeers : Finset String := ∅
  bootstrapAddrs : List String := []

def maxNoncesPerPeer : Nat := 1000

def maxTrackedPeers : Nat := 10000

def absDiff (a b : UInt64) : UInt64 := if a ≤ b then b - a else a - b

theorem absDiff_le_iff (a b w : UInt64) :
    absDiff a b ≤ w ↔ a.toNat ≤ b.toNat + w.toNat ∧ b.toNat ≤ a.toNat + w.toNat := by
  rw [UInt64.le_iff_toNat_le]
  unfold absDiff
  by_cases h : a ≤ b
  · have hnat := UInt64.le_iff_toNat_le.mp h
    rw [if_pos h, UInt64.toNat_sub_of_le b a h]
    omega
  · have hnat : b.toNat < a.toNat := UInt64.lt_iff_toNat_lt.mp (UInt64.not_le.mp h)
    rw [if_neg h, UInt64.toNat_sub_of_le a b (UInt64.le_iff_toNat_le.mpr hnat.le)]
    omega

theorem pairwise_between {α : Type*} {R : α → α → Prop} {before between after : List α} {a a' : α}
    (h : (before ++ a :: between ++ a' :: after).Pairwise R) :
    R a a' ∧ ∀ e ∈ between, R a e ∧ R e a' := by
  rcases List.pairwise_append.mp h with ⟨hfirst, -, hlast⟩
  have hmiddle := (List.pairwise_append.mp hfirst).2.1
  exact ⟨hlast a (by simp) a' (by simp), fun e he =>
    ⟨List.rel_of_pairwise_cons hmiddle he, hlast e (by simp [he]) a' (by simp)⟩⟩

namespace SecurityRuntime

variable (crypto : Crypto) (s : SecurityRuntime)

def localRole : NodeRole := (s.authority.bind (·.getRole s.localPeerId)).getD .standard

/-- Without an authority nothing is allowed. -/
def isAllowed (peer : String) (action : Action) : Bool :=
  match s.authority with
  | some auth => auth.isAllowed peer action
  | none => false

def verifyAccess (action : String) : Except SecurityError Unit :=
  if action ∈ s.allowedActions then .ok ()
  else .error (.cryptoError ("Action '" ++ action ++ "' not allowed by policy"))

/-- Drop the nonces that have left the window. -/
def freshNonces (window now : UInt64) (bucket : Bucket) : Bucket :=
  bucket.filter fun _ t => decide (absDiff now t ≤ window)

/-- The buckets, cleaned and without empty ones when there are many. -/
def trackedBuckets (now : UInt64) : FinMap String Bucket :=
  if s.replaySeen.size > maxTrackedPeers then
    s.replaySeen.filterMap fun _ bucket =>
      let kept := freshNonces s.replayWindowSecs now bucket
      if kept.isEmpty then none else some kept
  else s.replaySeen

/-- Accept a nonce of a peer once per window. A full bucket accepts nothing. -/
def checkCommon (now₁ now₂ : UInt64) (peer : String) (ts : UInt64) (nonce : String) :
    SecurityRuntime × Except SecurityError Unit :=
  if absDiff now₁ ts > s.replayWindowSecs then (s, .error .timestampOutOfWindow)
  else
    let seen := s.trackedBuckets now₂
    let bucket := freshNonces s.replayWindowSecs now₂ (seen[peer]?.getD ∅)
    let s' := { s with replaySeen := seen.insert peer bucket }
    if bucket.contains nonce then (s', .error .replayDetected)
    else if bucket.size ≥ maxNoncesPerPeer then (s', .error .replayDetected)
    else ({ s with replaySeen := seen.insert peer (bucket.insert nonce now₂) }, .ok ())

/-- Check the freshness of a message first, then the message. -/
def verifyWith {α : Type} (now₁ now₂ : UInt64) (remote : String) (ts : UInt64) (nonce : String)
    (check : SecurityRuntime → Except SecurityError α) :
    SecurityRuntime × Except SecurityError α :=
  let checked := s.checkCommon now₁ now₂ remote ts nonce
  (checked.1, do
    checked.2
    check checked.1)

/-- The message is for this node and from the peer it came from. -/
def checkIdentity (localPeer remote sender recipient : String) : Except SecurityError Unit :=
  if recipient ≠ localPeer ∨ sender ≠ remote then .error .badPeerIdentity else .ok ()

/-- The signature verifies under the key of a peer. The names on the message, where
    they are part of this check, count after the signature is decoded. -/
def checkSignature (remote signature : String) (identity : Except SecurityError Unit)
    (material : List UInt8) : Except SecurityError Unit :=
  match s.peerPublicKeys[remote]? with
  | none => .error .unknownPeerKey
  | some pk => do
      let sig ← (crypto.decodeBase64 signature).mapError .decodeError
      identity
      if crypto.verify pk material sig then .ok () else .error .badSignature

/-- Check a direct request and return its body as a text. -/
def verifyRequest (now₁ now₂ : UInt64) (localPeer remote : String) (req : DirectRequest) :
    SecurityRuntime × Except SecurityError String :=
  s.verifyWith now₁ now₂ remote req.ts req.nonce fun s => do
    s.checkSignature crypto remote req.signature
      (checkIdentity localPeer remote req.sender req.recipient)
      (req.signatureMaterial crypto.byteOrder req.body)
    pure (Text.utf8Lossy req.body)

/-- Check a configuration request. -/
def verifyConfigRequest (now₁ now₂ : UInt64) (localPeer remote : String) (req : ConfigRequest) :
    SecurityRuntime × Except SecurityError Unit :=
  s.verifyWith now₁ now₂ remote req.ts req.nonce fun s => do
    checkIdentity localPeer remote req.sender req.recipient
    s.checkSignature crypto remote req.signature (.ok ()) req.signingBytes
    pure ()

/-- Only that a signature is base64. -/
def verifySignatureFormat (signature : String) : Except SecurityError Unit := do
  let _ ← (crypto.decodeBase64 signature).mapError .decodeError

/-- Check a vote against the key of the peer that sent it. -/
def verifyGovernanceVote (vote : VoteMessage) (voterPeerId : String) :
    Except SecurityError Unit :=
  match s.peerPublicKeys[voterPeerId]? with
  | none => .error .unknownPeerKey
  | some pk => do
      let sig ← (crypto.decodeBase64 vote.signature).mapError
        (fun _ => .decodeError "bad sig")
      if crypto.verify pk (utf8 vote.payload) sig then .ok () else .error .badSignature

def signData (data : List UInt8) : Except SecurityError String :=
  match crypto.sign data with
  | .ok sig => .ok (crypto.encodeBase64 sig)
  | .error e => .error (.cryptoError e)

/-- Sign an unsigned response under a new nonce and a second reading. -/
def signResponse (nonce : String) (ts : UInt64) (resp : DirectResponse) :
    Except SecurityError DirectResponse := do
  let resp := { resp with nonce := nonce, ts := ts }
  let signature ← signData crypto (resp.signatureMaterial crypto.byteOrder resp.body)
  pure { resp with signature := signature }

def buildResponseOk (stamp : Stamp) (nonce : String) (ts : UInt64)
    (sender recipient inReplyTo body : String) : Except SecurityError DirectResponse :=
  signResponse crypto nonce ts (.plainOk stamp inReplyTo sender recipient body)

def buildResponseError (stamp : Stamp) (nonce : String) (ts : UInt64)
    (sender recipient inReplyTo body : String) : Except SecurityError DirectResponse :=
  signResponse crypto nonce ts (.plainError stamp inReplyTo sender recipient body)

/-- A signed response with a configuration bundle, in JSON. -/
def buildConfigResponseOk (toJson : ConfigBundle → Except String String) (ts₁ : UInt64)
    (nonce : String) (ts₂ : UInt64) (sender recipient inReplyTo : String)
    (bundle : ConfigBundle) : Except SecurityError ConfigResponse := do
  let body ← (toJson bundle).mapError .decodeError
  let resp := ConfigResponse.plainOk ts₁ inReplyTo sender recipient body
  let resp := { resp with nonce := nonce, ts := ts₂ }
  let signature ← signData crypto resp.signingBytes
  pure { resp with signature := signature }

/-- The same keys, authority and policy: two runtimes that differ at most in
    their replay caches. -/
def SameKeys (s t : SecurityRuntime) : Prop := t = { s with replaySeen := t.replaySeen }

theorem SameKeys.refl : SameKeys s s := rfl

variable {s} {t : SecurityRuntime}

theorem SameKeys.trans {u : SecurityRuntime} (hst : SameKeys s t) (htu : SameKeys t u) :
    SameKeys s u := by
  unfold SameKeys at *
  rw [htu, hst]

theorem SameKeys.peerPublicKeys (h : SameKeys s t) : t.peerPublicKeys = s.peerPublicKeys := by
  unfold SameKeys at h
  rw [h]

theorem SameKeys.replayWindowSecs (h : SameKeys s t) : t.replayWindowSecs = s.replayWindowSecs := by
  unfold SameKeys at h
  rw [h]

variable (s)

theorem checkCommon_sameKeys (now₁ now₂ : UInt64) (peer : String) (ts : UInt64)
    (nonce : String) : SameKeys s (s.checkCommon now₁ now₂ peer ts nonce).1 := by
  unfold checkCommon
  dsimp only
  -- Too old, seen before, too many, accepted.
  split
  · exact SameKeys.refl s
  split
  · rfl
  split <;> rfl

variable {crypto s}

theorem checkIdentity_eq_ok_iff (localPeer remote sender recipient : String) :
    checkIdentity localPeer remote sender recipient = .ok () ↔
      recipient = localPeer ∧ sender = remote := by
  unfold checkIdentity
  by_cases hrecipient : recipient = localPeer
  · by_cases hsender : sender = remote
    · simp [hrecipient, hsender]
    · simp [hsender]
  · simp [hrecipient]

/-- A signature passes exactly when the names do and it verifies under the key
    that is registered for the peer. -/
theorem checkSignature_eq_ok_iff {remote signature : String}
    {identity : Except SecurityError Unit} {material : List UInt8} :
    s.checkSignature crypto remote signature identity material = .ok () ↔
      identity = .ok () ∧ ∃ pk sig, s.peerPublicKeys[remote]? = some pk ∧
        crypto.decodeBase64 signature = .ok sig ∧ crypto.verify pk material sig = true := by
  unfold checkSignature
  cases hpk : s.peerPublicKeys[remote]? with
  | none => simp
  | some pk =>
    simp only [bind_eq_ok_iff, mapError_eq_ok_iff, Option.some.injEq]
    constructor
    · -- The names are compared between decoding and verifying.
      rintro ⟨sig, hsig, _, hnames, hverify⟩
      exact ⟨hnames, pk, sig, rfl, hsig, by simpa using hverify⟩
    · rintro ⟨hnames, _, sig, rfl, hsig, hverify⟩
      exact ⟨sig, hsig, (), hnames, by rw [if_pos hverify]⟩

theorem verifyWith_eq_ok_iff {α : Type} {now₁ now₂ : UInt64} {remote : String} {ts : UInt64}
    {nonce : String} {check : SecurityRuntime → Except SecurityError α} {a : α} :
    (s.verifyWith now₁ now₂ remote ts nonce check).2 = .ok a ↔
      (s.checkCommon now₁ now₂ remote ts nonce).2 = .ok () ∧
        check (s.checkCommon now₁ now₂ remote ts nonce).1 = .ok a := by
  unfold verifyWith
  exact check_bind_eq_ok_iff

/-- A vote passes exactly when its signature verifies under the key of the peer
    it is checked against. The voter it names plays no part beyond the text that
    is signed. -/
theorem verifyGovernanceVote_eq_ok_iff (vote : VoteMessage) (peer : String) :
    s.verifyGovernanceVote crypto vote peer = .ok () ↔
      ∃ pk sig, s.peerPublicKeys[peer]? = some pk ∧
        crypto.decodeBase64 vote.signature = .ok sig ∧
        crypto.verify pk (utf8 vote.payload) sig = true := by
  unfold verifyGovernanceVote
  cases hpk : s.peerPublicKeys[peer]? with
  | none => simp
  | some pk =>
    simp [bind_eq_ok_iff, mapError_eq_ok_iff]

end SecurityRuntime

end EssNode
