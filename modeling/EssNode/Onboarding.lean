import EssNode.Security

/-!
# Onboarding

How a node proves its identity when it joins, and how the receiver checks it. The
joining node signs its name, serial number, a nonce, the time and a key for
routing; the receiver limits the attempts per serial number, compares the time,
remembers the nonce, checks the serial number's checksum and then the signature.

The two sides were written apart. The sender attaches its public key in the
encoding of the network library, a type tag and a length before the key, and the
receiver takes 32 bytes and nothing else. The sender writes the nonce into the
signed text as a list of numbers, the receiver as hexadecimal digits. Either is
enough for no request to be accepted (`onboarding_refused`).

One clock is read: whole seconds for the comparison of times, and the full reading
for the limiter and the cache. The hash, the elliptic curve and the network
library's keys come from other crates; `OnboardingEnv` and `Keypair` collect what
is used of them.
-/

namespace EssNode

open Bincode Text

namespace Onboarding

/-- A reading of the clock. -/
structure Instant where
  secs : UInt64
  nanos : Fin 1000000000
deriving DecidableEq, Repr

namespace Instant

def toNanos (t : Instant) : Nat := t.secs.toNat * 1000000000 + t.nanos

instance : LE Instant := ⟨fun a b => a.toNanos ≤ b.toNanos⟩

instance (a b : Instant) : Decidable (a ≤ b) := inferInstanceAs (Decidable (_ ≤ _))

theorem le_def {a b : Instant} : a ≤ b ↔ a.toNanos ≤ b.toNanos := Iff.rfl

/-- The nanoseconds since a reading, zero if it lies ahead. -/
def durationSince (t earlier : Instant) : Nat := t.toNanos - earlier.toNanos

end Instant

def fromSecs (n : Nat) : Nat := n * 1000000000

abbrev Nonce := Vector UInt8 16

def nonceTtlSecs : Nat := 900

def maxCacheSize : Nat := 10000

structure NonceCache where
  seen : FinMap Nonce Instant

namespace NonceCache

/-- The nonces that are not too old. -/
def kept (self : NonceCache) (now : Instant) : FinMap Nonce Instant :=
  self.seen.filter fun _ t => decide (now.durationSince t < fromSecs nonceTtlSecs)

/-- The key of an oldest entry. Where several are equally old, the iteration
    decides; `first` is the one it meets first. -/
def oldestKey (first : Nonce) (seen : FinMap Nonce Instant) : Option Nonce :=
  let oldest := (seen.toList.filter fun e => seen.toList.all fun e' => decide (e.2 ≤ e'.2)).map
    Prod.fst
  if first ∈ oldest then some first else oldest.head?

/-- Remember a nonce, unless it is remembered. A full cache drops an oldest entry. -/
def record (self : NonceCache) (first : Nonce) (now : Instant) (nonce : Nonce) :
    NonceCache × Bool :=
  let seen := self.kept now
  if seen.contains nonce then (⟨seen⟩, false)
  else
    let seen :=
      if seen.size ≥ maxCacheSize then
        match oldestKey first seen with
        | some key => seen.erase key
        | none => seen
      else seen
    (⟨seen.insert nonce now⟩, true)

variable {self : NonceCache} {now : Instant}

/-- What recording comes to if the cache is not full: the nonce is remembered and
    refused, or it is not and is added. -/
theorem record_cases (first nonce : Nonce) (hroom : (self.kept now).size < maxCacheSize) :
    ((self.kept now).contains nonce = true ∧
      self.record first now nonce = (⟨self.kept now⟩, false)) ∨
    ((self.kept now).contains nonce = false ∧
      self.record first now nonce = (⟨(self.kept now).insert nonce now⟩, true)) := by
  unfold record
  dsimp only
  by_cases hseen : (self.kept now).contains nonce = true
  · exact Or.inl ⟨hseen, if_pos hseen⟩
  · refine Or.inr ⟨Bool.eq_false_iff.mpr hseen, ?_⟩
    rw [if_neg hseen, if_neg (Nat.not_le.mpr hroom)]

theorem find_kept (self : NonceCache) (now : Instant) (nonce : Nonce) :
    (self.kept now)[nonce]?
      = self.seen[nonce]?.filter fun t => decide (now.durationSince t < fromSecs nonceTtlSecs) := by
  rw [kept, Std.ExtTreeMap.getElem?_filter']

end NonceCache

structure RateLimiter where
  attempts : FinMap String (List Instant)
  maxAttempts : Nat
  window : Nat

namespace RateLimiter

def new (maxAttempts windowSecs : Nat) : RateLimiter := ⟨∅, maxAttempts, fromSecs windowSecs⟩

/-- Count an attempt, unless there have been too many. -/
def check (self : RateLimiter) (now : Instant) (key : String) : RateLimiter × Bool :=
  let entry := (self.attempts[key]?.getD []).filter fun t =>
    decide (now.durationSince t < self.window)
  if entry.length ≥ self.maxAttempts then
    ({ self with attempts := self.attempts.insert key entry }, false)
  else ({ self with attempts := self.attempts.insert key (entry ++ [now]) }, true)

end RateLimiter

/-- The two fields of the security runtime that onboarding uses. -/
structure OnboardingState where
  nonceCache : NonceCache
  snRateLimiter : RateLimiter

def OnboardingState.new : OnboardingState := ⟨⟨∅⟩, .new 5 60⟩

/-- What the receiver takes from its environment and from other crates: the master
    secret, the keyed hash, upper case, and the keys and signatures of the elliptic
    curve. -/
structure OnboardingEnv where
  masterSecret : Option (List UInt8)
  hmacSha256 : List UInt8 → List UInt8 → Except String (Vector UInt8 32)
  toUppercase : String → String
  keyFromBytes : Vector UInt8 32 → Except String PublicKey
  signatureFromBytes : Vector UInt8 64 → Except String (List UInt8)
  verify : PublicKey → List UInt8 → List UInt8 → Bool

/-- The parts of a text between the separators. -/
def split (sep : Char) (s : String) : List String := (s.toList.splitOn sep).map String.ofList

def lastChars (n : Nat) (s : String) : String := String.ofList (s.toList.drop (s.toList.length - n))

/-- The serial number's last part is the end of the keyed hash of the others. -/
def verifySnChecksum (env : OnboardingEnv) (sn : String) : Bool :=
  match split '-' sn with
  | [part₀, part₁, part₂, providedChecksum] =>
    if part₀ ≠ "ESSBB" then false
    else
      let baseSn := part₀ ++ "-" ++ part₁ ++ "-" ++ part₂
      match env.masterSecret with
      | none => false
      | some keyBytes =>
        match env.hmacSha256 keyBytes (utf8 baseSn) with
        | .error _ => false
        | .ok result =>
          let calculatedHash := hexEncode result.toList
          let calculatedChecksum := env.toUppercase (lastChars 4 calculatedHash)
          decide (env.toUppercase providedChecksum = calculatedChecksum)
  | _ => false

def ed25519PublicKeyFromBytes (env : OnboardingEnv) (bytes : List UInt8) :
    Except SecurityError PublicKey :=
  match toArray 32 bytes with
  | none => .error (.decodeError "invalid public key length")
  | some arr => (env.keyFromBytes arr).mapError .decodeError

def ed25519SignatureFromBytes (env : OnboardingEnv) (bytes : List UInt8) :
    Except SecurityError (List UInt8) :=
  match toArray 64 bytes with
  | none => .error (.decodeError "invalid signature length")
  | some arr => (env.signatureFromBytes arr).mapError .decodeError

/-- The text the receiver takes the signature to cover. -/
def checkedMessage (remotePeerId serialNumber : String) (nonce : Nonce) (timestamp : UInt64)
    (x25519Pubkey : Option String) : String :=
  remotePeerId ++ ":" ++ serialNumber ++ ":" ++ hexEncode nonce.toList ++ ":" ++
    decimal timestamp ++ ":" ++ x25519Pubkey.getD ""

/-- What a call reads: the clock for the limiter, the comparison and the cache, and
    which of several oldest entries the cache's iteration meets first. -/
structure Readings where
  limiter : Instant
  wall : Instant
  cache : Instant
  first : Nonce := .replicate 16 0
deriving DecidableEq, Repr

/-- What the joining node sends. -/
structure OnboardRequest where
  peerId : String
  serialNumber : String
  signature : List UInt8
  publicKey : List UInt8
  nonce : Nonce
  timestamp : UInt64
  x25519Pubkey : Option String
deriving DecidableEq, Repr

/-- The checks behind the cache, on the request as it is. -/
def checkIdentity (env : OnboardingEnv) (remotePeerId : String) (request : OnboardRequest) : Bool :=
  if !verifySnChecksum env request.serialNumber then false
  else
    let message := checkedMessage remotePeerId request.serialNumber request.nonce
      request.timestamp request.x25519Pubkey
    match ed25519PublicKeyFromBytes env request.publicKey with
    | .error _ => false
    | .ok pk =>
      match ed25519SignatureFromBytes env request.signature with
      | .error _ => false
      | .ok sig => env.verify pk (utf8 message) sig

/-- The receiver's check of a request that came from a peer. -/
def verifyRemoteIdentity (env : OnboardingEnv) (r : Readings) (s : OnboardingState)
    (remotePeerId : String) (request : OnboardRequest) : OnboardingState × Bool :=
  let limited := s.snRateLimiter.check r.limiter request.serialNumber
  let s := { s with snRateLimiter := limited.1 }
  if !limited.2 then (s, false)
  else if absDiff r.wall.secs request.timestamp > 900 then (s, false)
  else
    let recorded := s.nonceCache.record r.first r.cache request.nonce
    let s := { s with nonceCache := recorded.1 }
    if !recorded.2 then (s, false) else (s, checkIdentity env remotePeerId request)

section Receiver

variable (env : OnboardingEnv) (r : Readings) (s : OnboardingState) (remote : String)
  (request : OnboardRequest)

theorem verifyRemoteIdentity_cache :
    (verifyRemoteIdentity env r s remote request).1.nonceCache = s.nonceCache ∨
    (verifyRemoteIdentity env r s remote request).1.nonceCache
      = (s.nonceCache.record r.first r.cache request.nonce).1 := by
  unfold verifyRemoteIdentity
  dsimp only
  split
  · exact Or.inl rfl
  · split
    · exact Or.inl rfl
    · split
      · exact Or.inr rfl
      · exact Or.inr rfl

variable {env r s remote request}

theorem verifyRemoteIdentity_eq_true
    (h : (verifyRemoteIdentity env r s remote request).2 = true) :
    absDiff r.wall.secs request.timestamp ≤ 900 ∧
      (s.nonceCache.record r.first r.cache request.nonce).2 = true ∧
      (verifyRemoteIdentity env r s remote request).1.nonceCache
        = (s.nonceCache.record r.first r.cache request.nonce).1 ∧
      checkIdentity env remote request = true := by
  unfold verifyRemoteIdentity at h ⊢
  dsimp only at h ⊢
  by_cases hlimit : (!(s.snRateLimiter.check r.limiter request.serialNumber).2) = true
  · rw [if_pos hlimit] at h
    exact absurd h (by simp only [Bool.false_eq_true, not_false_eq_true])
  rw [if_neg hlimit] at h ⊢
  by_cases htime : absDiff r.wall.secs request.timestamp > 900
  · rw [if_pos htime] at h
    exact absurd h (by simp only [Bool.false_eq_true, not_false_eq_true])
  rw [if_neg htime] at h ⊢
  by_cases hnonce : (!(s.nonceCache.record r.first r.cache request.nonce).2) = true
  · rw [if_pos hnonce] at h
    exact absurd h (by simp only [Bool.false_eq_true, not_false_eq_true])
  rw [if_neg hnonce] at h ⊢
  exact ⟨UInt64.not_lt.mp htime, by simpa using hnonce, rfl, h⟩

end Receiver

/-- The fields of the local profile that are sent. -/
structure LocalProfile where
  peerId : String
  serialNumber : String
  x25519Pubkey : String
deriving DecidableEq, Repr

/-- The joining node's key pair: its signatures, and its public key in the network
    library's encoding. -/
structure Keypair where
  sign : List UInt8 → Except String (List UInt8)
  encodeProtobuf : List UInt8

/-- Bytes as a debugger shows them. -/
def debugBytes (bytes : List UInt8) : String :=
  "[" ++ String.intercalate ", " (bytes.map fun b => Nat.repr b.toNat) ++ "]"

/-- The text the joining node signs. -/
def OnboardRequest.buildSignedMessage (self : OnboardRequest) : String :=
  self.peerId ++ ":" ++ self.serialNumber ++ ":" ++ debugBytes self.nonce.toList ++ ":" ++
    decimal self.timestamp ++ ":" ++ self.x25519Pubkey.getD ""

/-- The request of one attempt, with the nonce drawn and the time read for it. -/
def buildOnboardRequest (keypair : Keypair) (profile : LocalProfile) (nonce : Nonce)
    (timestamp : UInt64) : Except String OnboardRequest := do
  let unsigned : OnboardRequest :=
    { peerId := profile.peerId, serialNumber := profile.serialNumber, signature := []
      publicKey := [], nonce := nonce, timestamp := timestamp
      x25519Pubkey := some profile.x25519Pubkey }
  let signature ← (keypair.sign (utf8 unsigned.buildSignedMessage)).mapError ("Sign error: " ++ ·)
  return { unsigned with signature := signature, publicKey := keypair.encodeProtobuf }

/-- The network library's encoding of a public key: the key's type, and its bytes
    behind their number. No type of key has fewer than 32. -/
def ProtobufKey (encoded : List UInt8) : Prop :=
  ∃ (keyType : UInt8) (length data : List UInt8),
    encoded = 0x08 :: keyType :: 0x12 :: (length ++ data) ∧ 32 ≤ data.length

theorem ProtobufKey.length_ne {encoded : List UInt8} (h : ProtobufKey encoded) :
    encoded.length ≠ 32 := by
  rcases h with ⟨keyType, length, data, rfl, hdata⟩
  simp only [List.length_cons, List.length_append]
  omega

theorem checkIdentity_of_length {env : OnboardingEnv} {remote : String} {request : OnboardRequest}
    (h : request.publicKey.length ≠ 32) : checkIdentity env remote request = false := by
  unfold checkIdentity ed25519PublicKeyFromBytes
  rw [toArray_eq_none h]
  simp only [ite_self]

theorem buildSignedMessage_ne_checkedMessage (request : OnboardRequest) :
    request.buildSignedMessage ≠ checkedMessage request.peerId request.serialNumber request.nonce
      request.timestamp request.x25519Pubkey := by
  intro h
  have hchars := congrArg String.toList h
  simp only [OnboardRequest.buildSignedMessage, checkedMessage, debugBytes, hexEncode,
    String.toList_append, List.append_assoc, List.append_cancel_left_eq] at hchars
  -- Behind the serial number one side goes on with a bracket, the other with a digit.
  rcases hbytes : request.nonce.toList with _ | ⟨b, rest⟩
  · have hlen := congrArg List.length hbytes
    simp at hlen
  · rw [hbytes] at hchars
    have hhead := congrArg List.head? hchars
    simp at hhead

/-- No request of a joining node is accepted, whatever the receiver's state and
    clock: the key it carries is longer than the receiver takes. If it were not,
    its signature would be on another text than the one that is checked. -/
theorem onboarding_refused (env : OnboardingEnv) (r : Readings) (s : OnboardingState)
    (remote : String) (keypair : Keypair) (hkey : ProtobufKey keypair.encodeProtobuf)
    (profile : LocalProfile) (nonce : Nonce) (timestamp : UInt64) (request : OnboardRequest)
    (hrequest : buildOnboardRequest keypair profile nonce timestamp = .ok request) :
    (verifyRemoteIdentity env r s remote request).2 = false ∧
      request.buildSignedMessage ≠ checkedMessage request.peerId request.serialNumber
        request.nonce request.timestamp request.x25519Pubkey := by
  refine ⟨?_, buildSignedMessage_ne_checkedMessage request⟩
  have hpublic : request.publicKey = keypair.encodeProtobuf := by
    unfold buildOnboardRequest at hrequest
    rcases bind_eq_ok_iff.mp hrequest with ⟨signature, -, hreturn⟩
    rw [← Except.ok.inj hreturn]
  by_contra haccepted
  have hidentity := (verifyRemoteIdentity_eq_true (Bool.not_eq_false _ ▸ haccepted)).2.2.2
  rw [checkIdentity_of_length (by rw [hpublic]; exact hkey.length_ne)] at hidentity
  exact absurd hidentity (by decide)

/-- A stand-in for signatures: 64 bytes of the key and what is signed. -/
def tagSign (key data : List UInt8) : List UInt8 := (key ++ data ++ List.replicate 64 0).take 64

/-- A receiver with a master secret. The hash is that of one serial number under
    it; keys and signatures of the right length are taken as they are. -/
def tagEnv : OnboardingEnv where
  masterSecret := some (utf8 "secret")
  hmacSha256 key data :=
    if key = utf8 "secret" ∧ data = utf8 "ESSBB-ABC-001" then
      .ok #v[0xa5, 0x44, 0x76, 0xdd, 0xc7, 0x24, 0x92, 0xd9, 0x15, 0xc4, 0x94, 0xa3, 0x27, 0xa6,
        0xdc, 0x5d, 0x89, 0xc6, 0x45, 0x1c, 0x55, 0x88, 0xd3, 0x15, 0x53, 0x59, 0x05, 0xa8, 0xe5,
        0x99, 0xa3, 0x47]
    else .error "unknown"
  toUppercase s := String.ofList (s.toList.map Char.toUpper)
  keyFromBytes arr := .ok ⟨arr.toList⟩
  signatureFromBytes arr := .ok arr.toList
  verify pk data sig := decide (sig = tagSign pk.bytes data)

/-- A key of 32 bytes, and the pair that signs with it. -/
def tagKey : List UInt8 := List.replicate 32 7

def tagKeypair : Keypair where
  sign data := .ok (tagSign tagKey data)
  encodeProtobuf := 0x08 :: 0x01 :: 0x12 :: 0x20 :: tagKey

/-- A profile whose serial number passes. -/
def tagProfile : LocalProfile where
  peerId := "peer"
  serialNumber := "ESSBB-ABC-001-A347"
  x25519Pubkey := "00"

/-- A call all of whose readings fall on one whole second. -/
def readingsAt (secs : UInt64) : Readings :=
  { limiter := ⟨secs, 0⟩, wall := ⟨secs, 0⟩, cache := ⟨secs, 0⟩ }

/-- The request that pair and profile make. -/
def tagRequest : OnboardRequest :=
  { peerId := "peer", serialNumber := "ESSBB-ABC-001-A347"
    signature := tagSign tagKey
      (utf8 "peer:ESSBB-ABC-001-A347:[0, 0, 0, 0, 0, 0, 0, 0, 0, 0, 0, 0, 0, 0, 0, 0]:1000:00")
    publicKey := 0x08 :: 0x01 :: 0x12 :: 0x20 :: tagKey, nonce := .replicate 16 0
    timestamp := 1000, x25519Pubkey := some "00" }

theorem joining_node_refused :
    (verifyRemoteIdentity tagEnv (readingsAt 1000) .new "peer" tagRequest).2 = false :=
  (onboarding_refused tagEnv (readingsAt 1000) .new "peer" tagKeypair
    ⟨0x01, [0x20], tagKey, rfl, by decide⟩ tagProfile (.replicate 16 0) 1000 tagRequest
    (by decide +kernel)).1

/-- A serial number that passes its check, a request made in this second, and a
    receiver that has seen nothing: the request is refused. -/
theorem fresh_request_refused :
    verifySnChecksum tagEnv tagProfile.serialNumber = true ∧
      buildOnboardRequest tagKeypair tagProfile (.replicate 16 0) 1000 = .ok tagRequest ∧
      (verifyRemoteIdentity tagEnv (readingsAt 1000) .new "peer" tagRequest).2 = false := by
  decide +kernel

end Onboarding

end EssNode
