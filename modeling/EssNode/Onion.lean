import EssNode.Lib.Base64
import EssNode.Lib.Json
import EssNode.Message

/-!
# Onion Packets

How a sender wraps a payload for a route, and how a node opens one layer.

A layer is sealed for one hop: an ephemeral key is agreed with the hop's public key, and what
the layer holds is encrypted under a key derived from the shared secret. The innermost layer
holds the padded payload, and each other layer the JSON text of the one inside it. Beside the
encrypted payload a layer carries the ephemeral public key and the name of the next hop, both in
the clear.

The builder is a loop from the last hop to the first that keeps the current payload and the last
layer made. The proofs use the layers of a route as a list instead, outermost first
(`builtLayers`): what is made for a hop depends only on the hops behind it, so the list is built
by recursion on the route, and `wrapHops_eq` says that the loop ends with its head.

Key agreement, hashing, the cipher and signatures are taken from elsewhere. What the builder
draws for a hop is indexed by the hop's place in the route. The cipher takes a key of the right
length, so making one does not fail, and neither does writing a layer as JSON.
-/

namespace EssNode

open Bincode Text

/-- The JSON text of a layer. -/
def OnionLayer.json : Codec OnionLayer :=
  ((Json.after "\x7b\"payload\":" Json.byteArray).pair <|
    (Json.after ",\"ephemeral_pk\":" Json.string).pair <|
    (Json.after ",\"next_hop\":" Json.string).pair (Json.literal "\x7d")).refine
    (fun (payload, ephemeralPk, nextHop, _) => some ⟨payload, ephemeralPk, nextHop⟩)
    (fun l => (l.payload, l.ephemeralPk, l.nextHop, ())) (fun _ => rfl)

namespace OnionLayer

def toVec (self : OnionLayer) : List UInt8 := json.serialize self

theorem toVec_eq (l : OnionLayer) :
    l.toVec = (utf8 "\x7b\"payload\":" ++ Json.byteArray.encode l.payload) ++
      ((utf8 ",\"ephemeral_pk\":" ++ Json.string.encode l.ephemeralPk) ++
        ((utf8 ",\"next_hop\":" ++ Json.string.encode l.nextHop) ++ utf8 "\x7d")) := rfl

theorem json_deserialize_toVec (l : OnionLayer) : json.deserialize l.toVec = some l :=
  json.deserialize_serialize ⟨⟨trivial, trivial⟩, ⟨trivial, trivial⟩, ⟨trivial, trivial⟩, trivial⟩

theorem toVec_injective : Function.Injective toVec := by
  intro l l' h
  have hread := json_deserialize_toVec l
  rw [h, json_deserialize_toVec] at hread
  exact (Option.some.inj hread).symm

end OnionLayer

namespace Onion

inductive OnionError where
  | cryptoError (e : String)
  | serializationError (e : String)
  | invalidFormat (e : String)
  | emptyRoute
  | invalidPublicKey (e : String)
  | invalidHops
  | encryptionError
  | invalidEphemeralKey
  | decryptionFailed
deriving DecidableEq, Repr

/-- The text a node reports an error by. A relay reports only what opening a layer
    fails with, and none of that carries a reason that would have to be escaped. -/
def OnionError.debug : OnionError → String
  | .cryptoError e => "CryptoError(\"" ++ e ++ "\")"
  | .serializationError e => "SerializationError(\"" ++ e ++ "\")"
  | .invalidFormat e => "InvalidFormat(\"" ++ e ++ "\")"
  | .emptyRoute => "EmptyRoute"
  | .invalidPublicKey e => "InvalidPublicKey(\"" ++ e ++ "\")"
  | .invalidHops => "InvalidHops"
  | .encryptionError => "EncryptionError"
  | .invalidEphemeralKey => "InvalidEphemeralKey"
  | .decryptionFailed => "DecryptionFailed"

/-- A secret, a public key, a shared secret or the key of the cipher. -/
abbrev Key := Vector UInt8 32

abbrev Nonce := Vector UInt8 12

/-- What packets take from other crates: X25519, SHA-256, the cipher with its
    authentication, and signatures. -/
structure OnionCrypto where
  publicKey : Key → Key
  diffieHellman : Key → Key → Key
  sha256 : List UInt8 → Key
  encrypt : Key → Nonce → List UInt8 → Option (List UInt8)
  decrypt : Key → Nonce → List UInt8 → Option (List UInt8)
  isSignature : Vector UInt8 64 → Bool
  verify : Key → List UInt8 → Vector UInt8 64 → Bool

/-- What is drawn for one layer. -/
structure Draw where
  ephemeralSecret : Key
  nonce : Nonce

/-- A hop's name, its public key, and the authority's signature that binds them. -/
structure HopInfo where
  peerId : String
  pubkeyB64 : String
  activationCert : String
deriving DecidableEq, Repr

structure OnionNodeKey (c : OnionCrypto) where
  staticSecret : Key
  publicKey : Key
  derived : publicKey = c.publicKey staticSecret

/-- Padding to a multiple of a block, behind the length in two bytes. -/
def padPayload (payload : List UInt8) (blockSize : Nat) : List UInt8 :=
  let blockSize := max blockSize 1
  let padLen :=
    if payload.length % blockSize = 0 then 0 else blockSize - payload.length % blockSize
  littleEndian 2 payload.length ++ payload ++ List.replicate padLen 0

def unpadPayload (padded : List UInt8) : Except OnionError (List UInt8) :=
  if padded.length < 2 then .error (.invalidFormat "Payload too short to unpad")
  else
    let origLen := ofLittleEndian (padded.take 2)
    if 2 + origLen > padded.length then .error (.invalidFormat "Padding length mismatch")
    else .ok ((padded.drop 2).take origLen)

theorem unpad_pad (payload : List UInt8) (blockSize : Nat) :
    unpadPayload (padPayload payload blockSize)
      = .ok (payload.take (payload.length % 65536)) := by
  have hword : ofLittleEndian (littleEndian 2 payload.length) = payload.length % 65536 := by
    simp only [littleEndian, ofLittleEndian, UInt8.toNat_ofNat']
    omega
  have htwo : (littleEndian 2 payload.length).length = 2 := length_littleEndian 2 _
  have hshort := Nat.mod_le payload.length 65536
  unfold unpadPayload padPayload
  generalize List.replicate _ (0 : UInt8) = zeros
  dsimp only
  rw [List.append_assoc, List.take_left' htwo, List.drop_left' htwo, hword]
  simp only [List.length_append, htwo]
  rw [if_neg (by omega), if_neg (by omega), List.take_append_of_le_length hshort]

theorem unpadPayload_padPayload {payload : List UInt8} (h : payload.length < 65536)
    (blockSize : Nat) : unpadPayload (padPayload payload blockSize) = .ok payload := by
  rw [unpad_pad, Nat.mod_eq_of_lt h, List.take_length]

/-- A payload is found again exactly if its length has two bytes. What is behind these always
    fills its blocks. -/
theorem padding_invertible_iff (payload : List UInt8) (blockSize : Nat) :
    (unpadPayload (padPayload payload blockSize) = .ok payload ↔ payload.length < 65536) ∧
      2 ≤ (padPayload payload blockSize).length ∧
      max blockSize 1 ∣ (padPayload payload blockSize).length - 2 := by
  refine ⟨⟨fun h => ?_, fun h => unpadPayload_padPayload h blockSize⟩, ?_, ?_⟩
  · rw [unpad_pad, Except.ok.injEq, List.take_eq_self_iff] at h
    have hlt := Nat.mod_lt payload.length (show 65536 > 0 by decide)
    omega
  · simp [padPayload]
  · have hblock : 0 < max blockSize 1 := by omega
    generalize hsize : max blockSize 1 = size at hblock
    have hpast := Nat.mod_lt payload.length hblock
    have hwhole := Nat.div_add_mod payload.length size
    simp only [padPayload, hsize, List.length_append, length_littleEndian, List.length_replicate,
      Nat.dvd_iff_mod_eq_zero]
    split
    · rw [Nat.add_zero, Nat.add_sub_cancel_left]
      assumption
    · -- What is missing in the last block is added.
      rw [show 2 + payload.length + (size - payload.length % size) - 2
        = size * (payload.length / size + 1) by rw [Nat.mul_add]; omega]
      exact Nat.mul_mod_right _ _

/-- A payload of 65536 bytes comes back empty. -/
theorem long_payload_lost :
    let payload : List UInt8 := List.replicate 65536 1
    payload.length = 65536 ∧ unpadPayload (padPayload payload 256) = .ok [] := by
  refine ⟨List.length_replicate, ?_⟩
  rw [unpad_pad, List.length_replicate]
  rfl

section Crypto

variable (c : OnionCrypto)

namespace OnionNodeKey

variable {c}

def fromBytes (secretBytes : Key) : OnionNodeKey c := ⟨secretBytes, c.publicKey secretBytes, rfl⟩

def publicKeyB64 (self : OnionNodeKey c) : String := Base64.encode self.publicKey.toList

end OnionNodeKey

def deriveEncKey (sharedSecret : Key) : Key :=
  c.sha256 (utf8 "ESS-ONION-ENC-KEY-v1" ++ sharedSecret.toList)

/-- The nonce, and the ciphertext with its tag. -/
def encryptPayload (nonce : Nonce) (plaintext : List UInt8) (key : Key) :
    Except OnionError (List UInt8) :=
  match c.encrypt key nonce plaintext with
  | some ciphertext => .ok (nonce.toList ++ ciphertext)
  | none => .error .encryptionError

def decryptPayload (ciphertext : List UInt8) (key : Key) : Except OnionError (List UInt8) :=
  if h : ciphertext.length < 12 then .error .decryptionFailed
  else
    let nonce : Nonce := ⟨(ciphertext.take 12).toArray, by simp; omega⟩
    match c.decrypt key nonce (ciphertext.drop 12) with
    | some plaintext => .ok plaintext
    | none => .error .decryptionFailed

/-- Seal a payload for one public key. -/
def encryptLayer (draw : Draw) (payload : List UInt8) (peerPk : Key) (nextHop : String) :
    Except OnionError OnionLayer := do
  let encKey := deriveEncKey c (c.diffieHellman draw.ephemeralSecret peerPk)
  if encKey = Vector.replicate 32 0 then
    .error (.cryptoError "Derived enc_key is all-zero (weak DH)")
  else
    let encryptedPayload ← encryptPayload c draw.nonce payload encKey
    .ok
      { payload := encryptedPayload
        ephemeralPk := Base64.encode (c.publicKey draw.ephemeralSecret).toList
        nextHop := nextHop }

/-- Check that the authority bound a hop's key to its name. Without an authority
    nothing is checked. -/
def verifyHopOwnership (hop : HopInfo) (authorityPubkey : Option Key) : Except OnionError Unit :=
  match authorityPubkey with
  | none => .ok ()
  | some authorityPubkey =>
    if hop.activationCert = "" then
      .error (.invalidPublicKey
        ("hop " ++ hop.peerId ++ " has no activation certificate — ownership not proven"))
    else
      match Base64.decode hop.activationCert with
      | none => .error (.invalidPublicKey "cert base64 decode failed")
      | some sigBytes =>
        match toArray 64 sigBytes with
        | none => .error (.invalidPublicKey "cert wrong length")
        | some sig =>
          let msg := "ESS-HOP-BIND-v1:" ++ hop.peerId ++ ":" ++ hop.pubkeyB64
          if !c.isSignature sig then .error (.invalidPublicKey "invalid Ed25519 signature")
          else if c.verify authorityPubkey (utf8 msg) sig then .ok ()
          else
            .error (.invalidPublicKey
              ("hop " ++ hop.peerId ++ " ownership verification FAILED — cert invalid"))

/-- Seal a payload for a hop, with the key its text gives. -/
def sealFor (draw : Draw) (hop : HopInfo) (payload : List UInt8) (nextHop : String) :
    Except OnionError OnionLayer :=
  match Base64.decode hop.pubkeyB64 with
  | none => .error (.invalidPublicKey "decode error")
  | some theirPkBytes =>
    match toArray 32 theirPkBytes with
    | none => .error (.invalidPublicKey "length error")
    | some theirPk => encryptLayer c draw payload theirPk nextHop

/-- One round of the builder's loop: the current payload and the last layer. -/
def wrapHop (draws : Nat → Draw) (hops : List HopInfo)
    (state : List UInt8 × Option OnionLayer) (hop : HopInfo × Nat) :
    Except OnionError (List UInt8 × Option OnionLayer) := do
  let nextHopId := (hops[hop.2 + 1]?.map HopInfo.peerId).getD ""
  let layer ← sealFor c (draws hop.2) hop.1 state.1 nextHopId
  .ok (layer.toVec, some layer)

/-- The packet for a route: the hops are wrapped from the last to the first. -/
def buildOnionPacket (draws : Nat → Draw) (hops : List HopInfo) (payload : List UInt8)
    (paddingSize : Nat) (authorityPubkey : Option Key) : Except OnionError OnionLayer :=
  if hops = [] then .error .emptyRoute
  else if hops.length < 2 then .error .invalidHops
  else do
    hops.forM fun hop => verifyHopOwnership c hop authorityPubkey
    let padded := padPayload payload paddingSize
    let wrapped ← hops.zipIdx.reverse.foldlM (wrapHop c draws hops) (padded, none)
    match wrapped.2 with
    | some outerLayer => .ok outerLayer
    | none => .error .invalidHops

/-- Open a layer with a node's secret: the next hop, and what is inside. -/
def peelOnionLayer (layer : OnionLayer) (ourSk : Key) :
    Except OnionError (String × List UInt8) :=
  match Base64.decode layer.ephemeralPk with
  | none => .error .invalidEphemeralKey
  | some ephPkBytes =>
    match toArray 32 ephPkBytes with
    | none => .error .invalidEphemeralKey
    | some ephPk => do
        let encKey := deriveEncKey c (c.diffieHellman ourSk ephPk)
        let plaintext ← decryptPayload c layer.payload encKey
        .ok (layer.nextHop, plaintext)

/-! ### One layer -/

/-- The key a node derives from the ephemeral key a layer names. -/
def openingKey (ourSk : Key) (ephemeralPk : String) : Option Key :=
  ((Base64.decode ephemeralPk).bind (toArray 32)).map fun ephPk =>
    deriveEncKey c (c.diffieHellman ourSk ephPk)

theorem peelOnionLayer_eq (layer : OnionLayer) (ourSk : Key) :
    peelOnionLayer c layer ourSk
      = match openingKey c ourSk layer.ephemeralPk with
        | none => .error .invalidEphemeralKey
        | some key => (decryptPayload c layer.payload key).map fun plaintext =>
          (layer.nextHop, plaintext) := by
  unfold peelOnionLayer openingKey
  cases Base64.decode layer.ephemeralPk with
  | none => rfl
  | some bytes =>
    dsimp only [Option.bind_some]
    cases toArray 32 bytes with
    | none => rfl
    | some ephPk =>
      dsimp only [Option.map_some]
      cases decryptPayload c layer.payload (deriveEncKey c (c.diffieHellman ourSk ephPk)) <;>
        rfl

theorem decryptPayload_append (nonce : Nonce) (ciphertext : List UInt8) (key : Key) :
    decryptPayload c (nonce.toList ++ ciphertext) key
      = match c.decrypt key nonce ciphertext with
        | some plaintext => .ok plaintext
        | none => .error .decryptionFailed := by
  have hlen : nonce.toList.length = 12 := by simp
  have htake : (nonce.toList ++ ciphertext).take 12 = nonce.toList := List.take_left' hlen
  have hdrop : (nonce.toList ++ ciphertext).drop 12 = ciphertext := List.drop_left' hlen
  have hshort : ¬ (nonce.toList ++ ciphertext).length < 12 := by
    rw [List.length_append, hlen]
    omega
  unfold decryptPayload
  rw [dif_neg hshort]
  simp only [htake, hdrop]
  have hnonce : (⟨nonce.toList.toArray, by simp⟩ : Nonce) = nonce :=
    Vector.toArray_inj.mp Array.toArray_toList
  rw [hnonce]

variable {hops : List HopInfo} {i : Nat} {draws : Nat → Draw} {padded payload : List UInt8}
  {hop : HopInfo} {ls : List OnionLayer} {l : OnionLayer} {paddingSize : Nat} {packet : OnionLayer}
  {layers : List OnionLayer} {authorityPubkey : Option Key}

theorem sealFor_eq_ok {c : OnionCrypto} {draw : Draw} {nextHop : String}
    (h : sealFor c draw hop payload nextHop = .ok l) :
    ∃ theirPk ciphertext, (Base64.decode hop.pubkeyB64).bind (toArray 32) = some theirPk ∧
      c.encrypt (deriveEncKey c (c.diffieHellman draw.ephemeralSecret theirPk)) draw.nonce payload
        = some ciphertext ∧
      l = { payload := draw.nonce.toList ++ ciphertext
            ephemeralPk := Base64.encode (c.publicKey draw.ephemeralSecret).toList
            nextHop := nextHop } := by
  unfold sealFor at h
  cases hdecode : Base64.decode hop.pubkeyB64 with
  | none => simp [hdecode] at h
  | some bytes =>
    rw [hdecode] at h
    dsimp only at h
    cases harray : toArray 32 bytes with
    | none => simp [harray] at h
    | some theirPk =>
      rw [harray] at h
      dsimp only [encryptLayer] at h
      split at h
      · exact absurd h (by simp)
      · refine ⟨theirPk, ?_⟩
        unfold encryptPayload at h
        cases hct : c.encrypt (deriveEncKey c (c.diffieHellman draw.ephemeralSecret theirPk))
            draw.nonce payload with
        | none => simp [hct, bind, Except.bind] at h
        | some ciphertext =>
          rw [hct] at h
          exact ⟨ciphertext, by rw [Option.bind_some, harray], rfl,
            (Except.ok.inj h).symm⟩

/-! ### The layers of a route -/

/-- What a layer holds: the text of the outermost of the layers inside it, or the
    padded payload. -/
def bodyOver (padded : List UInt8) : List OnionLayer → List UInt8
  | [] => padded
  | inner :: _ => inner.toVec

/-- The name of the first of the hops behind. -/
def nextHopOf (rest : List HopInfo) : String := (rest.head?.map HopInfo.peerId).getD ""

theorem bodyOver_drop {inner : OnionLayer} (h : layers[i]? = some inner) :
    bodyOver padded (layers.drop i) = inner.toVec := by
  rw [List.drop_eq_getElem?_toList_append, h]
  rfl

theorem nextHopOf_drop {next : HopInfo}
    (h : hops[i]? = some next) : nextHopOf (hops.drop i) = next.peerId := by
  rw [nextHopOf, List.head?_drop, h]
  rfl

/-- The layers of the hops from a place in the route on, outermost first. -/
def builtLayers (draws : Nat → Draw) (padded : List UInt8) :
    Nat → List HopInfo → Except OnionError (List OnionLayer)
  | _, [] => .ok []
  | i, hop :: rest => do
      let inner ← builtLayers draws padded (i + 1) rest
      let layer ← sealFor c (draws i) hop (bodyOver padded inner) (nextHopOf rest)
      .ok (layer :: inner)

/-- The loop over the hops from a place on ends with the outermost of their
    layers. -/
theorem wrapHops_eq (draws : Nat → Draw) (padded : List UInt8) (hops : List HopInfo) (i : Nat)
    (rest : List HopInfo) (hrest : hops.drop i = rest) :
    (rest.zipIdx i).reverse.foldlM (wrapHop c draws hops) (padded, none)
      = (builtLayers c draws padded i rest).map fun ls => (bodyOver padded ls, ls.head?) := by
  induction rest generalizing i with
  | nil => rfl
  | cons hop rest ih =>
    have hdrop : hops.drop (i + 1) = rest := by
      rw [← List.tail_drop, hrest, List.tail_cons]
    have hnext : (hops[i + 1]?.map HopInfo.peerId).getD "" = nextHopOf rest := by
      rw [nextHopOf, ← hdrop, List.head?_drop]
    -- The hop at the place itself is the last the loop comes to.
    rw [List.zipIdx_cons, List.reverse_cons, List.foldlM_append, ih (i + 1) hdrop, builtLayers]
    cases builtLayers c draws padded (i + 1) rest with
    | error e => rfl
    | ok inner =>
      simp only [Except.map, bind, Except.bind, List.foldlM_cons, List.foldlM_nil, wrapHop,
        hnext]
      cases sealFor c (draws i) hop (bodyOver padded inner) (nextHopOf rest) <;> rfl

theorem builtLayers_cons {c : OnionCrypto} {rest : List HopInfo} :
    builtLayers c draws padded i (hop :: rest) = .ok ls ↔
      ∃ l inner, ls = l :: inner ∧ builtLayers c draws padded (i + 1) rest = .ok inner ∧
        sealFor c (draws i) hop (bodyOver padded inner) (nextHopOf rest) = .ok l := by
  rw [builtLayers]
  cases builtLayers c draws padded (i + 1) rest with
  | error e => simp [bind, Except.bind]
  | ok inner =>
    cases hseal : sealFor c (draws i) hop (bodyOver padded inner) (nextHopOf rest) with
    | error e => simp [bind, Except.bind, hseal]
    | ok l => simp [bind, Except.bind, hseal, eq_comm]

theorem builtLayers_length {c : OnionCrypto} (h : builtLayers c draws padded i hops = .ok ls) :
    ls.length = hops.length := by
  induction hops generalizing i ls with
  | nil =>
    cases h
    rfl
  | cons hop rest ih =>
    obtain ⟨l, inner, rfl, hinner, _⟩ := builtLayers_cons.mp h
    rw [List.length_cons, List.length_cons, ih hinner]

theorem builtLayers_sealed {c : OnionCrypto} (h : builtLayers c draws padded i hops = .ok ls)
    {j : Nat} (hhop : hops[j]? = some hop) (hl : ls[j]? = some l) :
    sealFor c (draws (i + j)) hop (bodyOver padded (ls.drop (j + 1)))
      (nextHopOf (hops.drop (j + 1))) = .ok l := by
  induction hops generalizing i j ls with
  | nil => simp at hhop
  | cons first rest ih =>
    obtain ⟨l', inner, rfl, hinner, hseal⟩ := builtLayers_cons.mp h
    cases j with
    | zero =>
      simp only [List.getElem?_cons_zero, Option.some.injEq] at hhop hl
      subst hhop hl
      exact hseal
    | succ j =>
      rw [List.getElem?_cons_succ] at hhop hl
      have hrest := ih hinner hhop hl
      rwa [show i + 1 + j = i + (j + 1) by omega] at hrest

theorem forM_eq_ok {f : HopInfo → Except OnionError Unit} :
    hops.forM f = .ok () ↔ ∀ hop ∈ hops, f hop = .ok () := by
  induction hops with
  | nil => simp [pure, Except.pure]
  | cons hop rest ih =>
    rw [List.forall_mem_cons, ← ih]
    change (f hop).bind (fun _ => rest.forM f) = .ok () ↔ _
    cases f hop with
    | error e => simp [Except.bind]
    | ok u => simp [Except.bind]

/-- Everything about a packet that was built: the route has two hops, the hops
    passed their check, and the packet is the outermost of their layers. -/
theorem buildOnionPacket_eq_ok :
    buildOnionPacket c draws hops payload paddingSize authorityPubkey = .ok packet ↔
      2 ≤ hops.length ∧ (∀ hop ∈ hops, verifyHopOwnership c hop authorityPubkey = .ok ()) ∧
        ∃ inner, builtLayers c draws (padPayload payload paddingSize) 0 hops
          = .ok (packet :: inner) := by
  unfold buildOnionPacket
  by_cases hempty : hops = []
  · simp [hempty]
  by_cases hshort : hops.length < 2
  · rw [if_neg hempty, if_pos hshort]
    simp [Nat.not_le.mpr hshort]
  rw [if_neg hempty, if_neg hshort, ← forM_eq_ok]
  cases hops.forM fun hop => verifyHopOwnership c hop authorityPubkey with
  | error e => simp [bind, Except.bind]
  | ok u =>
    have hloop := wrapHops_eq c draws (padPayload payload paddingSize) hops 0 hops rfl
    dsimp only [bind, Except.bind]
    rw [hloop]
    cases builtLayers c draws (padPayload payload paddingSize) 0 hops with
    | error e => simp [Except.map]
    | ok ls =>
      -- The loop left a layer unless there was none to make.
      cases ls with
      | nil => simp [Except.map]
      | cons l inner => simp [Except.map, Nat.le_of_not_lt hshort]

theorem builtLayers_head {c : OnionCrypto}
    (hbuild : buildOnionPacket c draws hops payload paddingSize authorityPubkey = .ok packet)
    (hlayers : builtLayers c draws (padPayload payload paddingSize) 0 hops = .ok layers) :
    layers.head? = some packet := by
  obtain ⟨_, _, inner, hbuilt⟩ := (buildOnionPacket_eq_ok c).mp hbuild
  have hsame : layers = packet :: inner := Except.ok.inj (hlayers.symm.trans hbuilt)
  rw [hsame, List.head?_cons]

end Crypto

end Onion

end EssNode
