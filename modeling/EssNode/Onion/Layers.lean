import EssNode.Lib.Separated
import EssNode.Onion

/-!
# Opening the Layers of a Packet

What the hops of a route get out of the packet that was built for them, and what
they get out of a layer that was changed on its way.

The packet is wrapped from the last hop to the first and opened from the first to
the last. Both follow the list of the layers: opening the outermost one gives the
text of the next, so the opening of a whole route is an induction on the route
with the layers still to be opened (`peelRoute_builtLayers`).

The cipher authenticates what it encrypts, under the key it was encrypted with. A
layer's payload and its ephemeral key are therefore either the original ones or
nothing that opens. The name of the next hop stands beside the payload and goes
into neither, so a changed name is returned as if it were the original
(`peelOnionLayer_tampered`).

What the authority signs for a hop joins two texts by a colon, and the name of a peer may hold
colons. The key may not, since it has to be read before the packet is there: so the signature for
one pair is no signature for another (`built_hops_certified`).
-/

namespace EssNode

open Bincode Text

namespace Onion

open Base64

/-- What is assumed of the primitives: both sides agree on the shared secret, and
    the cipher decrypts what it encrypted. -/
structure Lawful (c : OnionCrypto) : Prop where
  agree : ∀ a b, c.diffieHellman a (c.publicKey b) = c.diffieHellman b (c.publicKey a)
  opens : ∀ {key nonce plaintext ciphertext}, c.encrypt key nonce plaintext = some ciphertext →
    c.decrypt key nonce ciphertext = some plaintext

section Route

variable {c : OnionCrypto} {draw : Draw} {nextHop : String} {key : OnionNodeKey c} {l : OnionLayer}

theorem decode_publicKeyB64 (key : OnionNodeKey c) :
    (decode key.publicKeyB64).bind (toArray 32) = some key.publicKey := by
  rw [OnionNodeKey.publicKeyB64, decode_encode, Option.bind_some, toArray_toList]

theorem openingKey_encode (ourSk pk : Key) :
    openingKey c ourSk (encode pk.toList)
      = some (deriveEncKey c (c.diffieHellman ourSk pk)) := by
  rw [openingKey, decode_encode, Option.bind_some, toArray_toList, Option.map_some]

/-- A layer that was sealed for a key opens under the owner's secret: the owner
    derives the key it was encrypted with. -/
theorem openingKey_sealFor (hc : Lawful c) {hop : HopInfo} {payload : List UInt8}
    (hseal : sealFor c draw hop payload nextHop = .ok l) (hkey : hop.pubkeyB64 = key.publicKeyB64) :
    ∃ encKey, openingKey c key.staticSecret l.ephemeralPk = some encKey ∧
      decryptPayload c l.payload encKey = .ok payload ∧ l.nextHop = nextHop := by
  obtain ⟨theirPk, ciphertext, hpk, hct, rfl⟩ := sealFor_eq_ok hseal
  rw [hkey, decode_publicKeyB64, Option.some.injEq] at hpk
  rw [← hpk, key.derived, hc.agree] at hct
  refine ⟨_, openingKey_encode _ _, ?_, rfl⟩
  rw [decryptPayload_append, hc.opens hct]

theorem peelOnionLayer_sealFor (hc : Lawful c) {hop : HopInfo} {payload : List UInt8}
    (hseal : sealFor c draw hop payload nextHop = .ok l) (hkey : hop.pubkeyB64 = key.publicKeyB64) :
    peelOnionLayer c l key.staticSecret = .ok (nextHop, payload) := by
  obtain ⟨encKey, hopen, hdecrypt, hnext⟩ := openingKey_sealFor hc hseal hkey
  rw [peelOnionLayer_eq, hopen]
  dsimp only
  rw [hdecrypt, hnext]
  rfl

/-- Open a packet with one secret after the other, reading what is inside a layer
    as the next one. The names of the next hops, and what the last layer holds. -/
def peelRoute (c : OnionCrypto) (fromSlice : List UInt8 → Option OnionLayer) :
    List Key → OnionLayer → Option (List String × List UInt8)
  | [], _ => none
  | [sk], layer => do
      let (nextHop, inner) ← (peelOnionLayer c layer sk).toOption
      some ([nextHop], inner)
  | sk :: sk' :: sks, layer => do
      let (nextHop, inner) ← (peelOnionLayer c layer sk).toOption
      let layer ← fromSlice inner
      let (names, payload) ← peelRoute c fromSlice (sk' :: sks) layer
      some (nextHop :: names, payload)

theorem peelRoute_builtLayers (hc : Lawful c) {fromSlice : List UInt8 → Option OnionLayer}
    (hjson : ∀ l : OnionLayer, fromSlice l.toVec = some l) {draws : Nat → Draw}
    {padded : List UInt8} {rest : List HopInfo} {i : Nat} {hop : HopInfo}
    {keys : List (OnionNodeKey c)} {inner : List OnionLayer}
    (hkeys : (hop :: rest).map HopInfo.pubkeyB64 = keys.map OnionNodeKey.publicKeyB64)
    (hbuilt : builtLayers c draws padded i (hop :: rest) = .ok (l :: inner)) :
    peelRoute c fromSlice (keys.map OnionNodeKey.staticSecret) l
      = some (rest.map HopInfo.peerId ++ [""], padded) := by
  -- On the hops behind: the layer in front opens to the text of the one the
  -- induction is about, or to the payload at the end of the route.
  induction rest generalizing i hop keys l inner with
  | nil =>
    obtain ⟨l', inner', hls, hinner, hseal⟩ := builtLayers_cons.mp hbuilt
    obtain ⟨rfl, rfl⟩ := List.cons.inj hls
    cases hinner
    obtain ⟨key, keys', rfl, hkey, hnone⟩ := List.map_eq_cons_iff.mp hkeys.symm
    obtain rfl := List.map_eq_nil_iff.mp hnone
    simp only [List.map_cons, List.map_nil, peelRoute,
      peelOnionLayer_sealFor hc hseal hkey.symm]
    rfl
  | cons next rest ih =>
    obtain ⟨l', inner', hls, hinner, hseal⟩ := builtLayers_cons.mp hbuilt
    obtain ⟨rfl, rfl⟩ := List.cons.inj hls
    obtain ⟨m, inner'', rfl, _, _⟩ := builtLayers_cons.mp hinner
    obtain ⟨key, keys', rfl, hkey, hrest⟩ := List.map_eq_cons_iff.mp hkeys.symm
    have hopened := ih hrest.symm hinner
    obtain ⟨key', keys'', rfl, _, _⟩ := List.map_eq_cons_iff.mp hrest
    simp only [List.map_cons] at hopened ⊢
    simp only [peelRoute, peelOnionLayer_sealFor hc hseal hkey.symm, bodyOver,
      Except.toOption, Option.bind_eq_bind, Option.bind_some, hjson, hopened]
    rfl

/-- The hops of a route open the packet that was built for it: each is told the
    hop behind it, the last that there is none, and the last finds the padded
    payload. -/
theorem packet_opens_hop_by_hop (hc : Lawful c) {fromSlice : List UInt8 → Option OnionLayer}
    (hjson : ∀ l : OnionLayer, fromSlice l.toVec = some l) {draws : Nat → Draw}
    {hops : List HopInfo} {payload : List UInt8} {paddingSize : Nat}
    {authorityPubkey : Option Key} {packet : OnionLayer} {keys : List (OnionNodeKey c)}
    (hkeys : hops.map HopInfo.pubkeyB64 = keys.map OnionNodeKey.publicKeyB64)
    (hbuild : buildOnionPacket c draws hops payload paddingSize authorityPubkey = .ok packet) :
    peelRoute c fromSlice (keys.map OnionNodeKey.staticSecret) packet
      = some (hops.tail.map HopInfo.peerId ++ [""], padPayload payload paddingSize) := by
  obtain ⟨htwo, _, inner, hbuilt⟩ := (buildOnionPacket_eq_ok c).mp hbuild
  cases hops with
  | nil => exact absurd htwo (by simp)
  | cons hop rest => exact peelRoute_builtLayers hc hjson hkeys hbuilt

end Route

/-! ### Routes that can be built -/

section Total

/-- What it takes for sealing never to fail on a readable key. -/
structure Total (c : OnionCrypto) : Prop where
  strong : ∀ secret, deriveEncKey c secret ≠ Vector.replicate 32 0
  encrypts : ∀ key nonce plaintext, (c.encrypt key nonce plaintext).isSome

/-- The key of a hop can be read. -/
def HopInfo.Keyed (hop : HopInfo) : Prop :=
  ((decode hop.pubkeyB64).bind (toArray 32)).isSome

variable {c : OnionCrypto}

theorem sealFor_total (hc : Total c) (draw : Draw) {hop : HopInfo} (hkeyed : hop.Keyed)
    (payload : List UInt8) (nextHop : String) :
    ∃ l, sealFor c draw hop payload nextHop = .ok l := by
  obtain ⟨theirPk, hpk⟩ := Option.isSome_iff_exists.mp hkeyed
  obtain ⟨bytes, hbytes, harray⟩ := Option.bind_eq_some_iff.mp hpk
  obtain ⟨ciphertext, hct⟩ := Option.isSome_iff_exists.mp
    (hc.encrypts (deriveEncKey c (c.diffieHellman draw.ephemeralSecret theirPk)) draw.nonce payload)
  unfold sealFor
  rw [hbytes]
  dsimp only
  rw [harray]
  dsimp only [encryptLayer]
  rw [if_neg (hc.strong _), encryptPayload, hct]
  exact ⟨_, rfl⟩

theorem builtLayers_total (hc : Total c) (draws : Nat → Draw) (padded : List UInt8) (i : Nat)
    {hops : List HopInfo} (hkeyed : ∀ hop ∈ hops, hop.Keyed) :
    ∃ ls, builtLayers c draws padded i hops = .ok ls := by
  induction hops generalizing i with
  | nil => exact ⟨[], rfl⟩
  | cons hop rest ih =>
    obtain ⟨hhop, hrest⟩ := List.forall_mem_cons.mp hkeyed
    obtain ⟨inner, hinner⟩ := ih (i + 1) hrest
    obtain ⟨l, hseal⟩ := sealFor_total hc (draws i) hhop (bodyOver padded inner) (nextHopOf rest)
    exact ⟨l :: inner, builtLayers_cons.mpr ⟨l, inner, rfl, hinner, hseal⟩⟩

/-- A route of two verified hops with readable keys has its packet. -/
theorem buildOnionPacket_of_verified (hc : Total c) (draws : Nat → Draw) {hops : List HopInfo}
    (htwo : 2 ≤ hops.length) (hkeyed : ∀ hop ∈ hops, hop.Keyed) (payload : List UInt8)
    (paddingSize : Nat) {authority : Option Key}
    (hverified : ∀ hop ∈ hops, verifyHopOwnership c hop authority = .ok ()) :
    ∃ packet, buildOnionPacket c draws hops payload paddingSize authority = .ok packet := by
  obtain ⟨ls, hls⟩ := builtLayers_total hc draws (padPayload payload paddingSize) 0 hkeyed
  have hlength := builtLayers_length hls
  cases ls with
  | nil =>
    rw [List.length_nil] at hlength
    omega
  | cons packet inner =>
    exact ⟨packet, (buildOnionPacket_eq_ok c).mpr ⟨htwo, hverified, inner, hls⟩⟩

/-- Without an authority nothing is verified. -/
theorem buildOnionPacket_total (hc : Total c) (draws : Nat → Draw) {hops : List HopInfo}
    (htwo : 2 ≤ hops.length) (hkeyed : ∀ hop ∈ hops, hop.Keyed) (payload : List UInt8)
    (paddingSize : Nat) :
    ∃ packet, buildOnionPacket c draws hops payload paddingSize none = .ok packet :=
  buildOnionPacket_of_verified hc draws htwo hkeyed payload paddingSize fun _ _ => rfl

end Total

/-! ### Changed layers -/

section Tampering

variable {c : OnionCrypto}

/-- Nothing in a changed layer is forged: if what it holds opens under a node's
    secret, it is what the original holds, under the key of the original. -/
def Unforged (c : OnionCrypto) (ourSk : Key) (original changed : OnionLayer) : Prop :=
  ∀ key plaintext, openingKey c ourSk changed.ephemeralPk = some key →
    decryptPayload c changed.payload key = .ok plaintext →
    openingKey c ourSk original.ephemeralPk = some key ∧ changed.payload = original.payload

theorem unforged_nextHop (ourSk : Key) (original : OnionLayer) (name : String) :
    Unforged c ourSk original { original with nextHop := name } :=
  fun _ _ hkey _ => ⟨hkey, rfl⟩

/-- What a changed layer opens to: if the payload and the key are the original
    ones, the original payload under the name the change left, and nothing
    otherwise. -/
theorem peelOnionLayer_tampered {ourSk key : Key} {original changed : OnionLayer}
    {inner : List UInt8} (hopen : openingKey c ourSk original.ephemeralPk = some key)
    (hinner : decryptPayload c original.payload key = .ok inner)
    (hunforged : Unforged c ourSk original changed) :
    if changed.payload = original.payload ∧
        openingKey c ourSk changed.ephemeralPk = openingKey c ourSk original.ephemeralPk then
      peelOnionLayer c changed ourSk = .ok (changed.nextHop, inner)
    else ∃ e, peelOnionLayer c changed ourSk = .error e := by
  rw [peelOnionLayer_eq]
  split
  · rename_i hsame
    rw [hsame.2, hopen]
    dsimp only
    rw [hsame.1, hinner]
    rfl
  · rename_i hdiffers
    cases hkey : openingKey c ourSk changed.ephemeralPk with
    | none => exact ⟨_, rfl⟩
    | some key' =>
      cases hdecrypt : decryptPayload c changed.payload key' with
      | error e => exact ⟨e, by simp [hdecrypt, Except.map]⟩
      | ok plaintext =>
        have hsame := hunforged key' plaintext hkey hdecrypt
        exact absurd ⟨hsame.2, hkey.trans hsame.1.symm⟩ hdiffers

/-- A layer of a packet that is changed on its way, with nothing in it forged,
    fails to open or opens as the original just if its next hop was left alone or
    something else was changed. -/
theorem tampered_layer_original_iff (hc : Lawful c) {draws : Nat → Draw} {hops : List HopInfo}
    {payload : List UInt8} {paddingSize : Nat} {authorityPubkey : Option Key}
    {packet : OnionLayer} {layers : List OnionLayer}
    (hbuild : buildOnionPacket c draws hops payload paddingSize authorityPubkey = .ok packet)
    (hlayers : builtLayers c draws (padPayload payload paddingSize) 0 hops = .ok layers)
    {i : Nat} {hop : HopInfo} {original : OnionLayer} {key : OnionNodeKey c}
    (hhop : hops[i]? = some hop) (hkey : hop.pubkeyB64 = key.publicKeyB64)
    (horiginal : layers[i]? = some original) {changed : OnionLayer}
    (hunforged : Unforged c key.staticSecret original changed) :
    layers.head? = some packet ∧
    (((∃ e, peelOnionLayer c changed key.staticSecret = .error e) ∨
        peelOnionLayer c changed key.staticSecret
          = .ok (original.nextHop,
              bodyOver (padPayload payload paddingSize) (layers.drop (i + 1)))) ↔
      changed.nextHop = original.nextHop ∨ changed.payload ≠ original.payload ∨
        openingKey c key.staticSecret changed.ephemeralPk
          ≠ openingKey c key.staticSecret original.ephemeralPk) := by
  refine ⟨builtLayers_head hbuild hlayers, ?_⟩
  have hseal := builtLayers_sealed hlayers hhop horiginal
  obtain ⟨encKey, hopen, hinner, _⟩ := openingKey_sealFor hc hseal hkey
  have hpeel := peelOnionLayer_tampered hopen hinner hunforged
  split at hpeel
  · rename_i hsame
    -- Nothing authenticated was changed, so the layer opens.
    simp [hpeel, hsame.1, hsame.2]
  · rename_i hdiffers
    refine iff_of_true (Or.inl hpeel) (Or.inr ?_)
    rwa [not_and_or] at hdiffers

end Tampering

/-! ### A cipher in the clear -/

/-- A cipher that writes its key and nonce in front of the text and checks them
    when it reads. Shared secrets are sums. -/
def clearCrypto : OnionCrypto where
  publicKey sk := sk
  diffieHellman a b := Vector.zipWith (· + ·) a b
  sha256 bytes := Vector.ofFn fun i => if i.val = 0 then 1 else bytes.getD (20 + i.val) 0
  encrypt key nonce plaintext := some (key.toList ++ nonce.toList ++ plaintext)
  decrypt key nonce ciphertext :=
    if (key.toList ++ nonce.toList).isPrefixOf ciphertext then some (ciphertext.drop 44) else none
  isSignature _ := true
  verify _ _ _ := true

theorem clearCrypto_lawful : Lawful clearCrypto where
  agree a b := by
    ext i hi
    simp [clearCrypto, UInt8.add_comm]
  opens {key nonce plaintext ciphertext} h := by
    have hlen : (key.toList ++ nonce.toList).length = 44 := by simp
    obtain rfl := Option.some.inj h
    change (if _ then _ else _) = _
    rw [if_pos (List.isPrefixOf_iff_prefix.mpr (List.prefix_append _ _)), List.drop_left' hlen]

theorem clearCrypto_total : Total clearCrypto where
  strong secret h := by
    have hfirst := congrArg (fun key : Key => key[0]) h
    simp [deriveEncKey, clearCrypto] at hfirst
  encrypts _ _ _ := rfl

/-- The keys of nodes that are told apart by a byte. -/
def nodeKey (n : UInt8) : OnionNodeKey clearCrypto := .fromBytes (Vector.replicate 32 n)

def hopOf (name : String) (key : OnionNodeKey clearCrypto) : HopInfo :=
  { peerId := name, pubkeyB64 := key.publicKeyB64, activationCert := "" }

theorem hopOf_keyed (name : String) (key : OnionNodeKey clearCrypto) : (hopOf name key).Keyed := by
  rw [HopInfo.Keyed, hopOf, decode_publicKeyB64]
  rfl

def relayRoute : List HopInfo :=
  [hopOf "relay1" (nodeKey 1), hopOf "relay2" (nodeKey 2), hopOf "dest" (nodeKey 3)]

theorem relayRoute_keyed : ∀ hop ∈ relayRoute, hop.Keyed := by
  simp [relayRoute, hopOf_keyed]

theorem relayRoute_first : relayRoute[0]? = some (hopOf "relay1" (nodeKey 1)) := rfl

theorem relayRoute_firstKey :
    (hopOf "relay1" (nodeKey 1)).pubkeyB64 = (nodeKey 1).publicKeyB64 := rfl

def routeDraws (i : Nat) : Draw :=
  { ephemeralSecret := Vector.replicate 32 (UInt8.ofNat (i + 10))
    nonce := Vector.replicate 12 (UInt8.ofNat (i + 20)) }

theorem relayRoute_builds : ∃ packet layers,
    buildOnionPacket clearCrypto routeDraws relayRoute [1, 2, 3] 4 none = .ok packet ∧
      builtLayers clearCrypto routeDraws (padPayload [1, 2, 3] 4) 0 relayRoute = .ok layers ∧
      layers.head? = some packet := by
  obtain ⟨packet, hbuild⟩ : ∃ packet,
      buildOnionPacket clearCrypto routeDraws relayRoute [1, 2, 3] 4 none = .ok packet :=
    buildOnionPacket_total clearCrypto_total routeDraws (by decide) relayRoute_keyed _ _
  obtain ⟨_, _, inner, hinner⟩ := (buildOnionPacket_eq_ok clearCrypto).mp hbuild
  exact ⟨packet, packet :: inner, hbuild, hinner, rfl⟩

/-- The relays and the destination open the packet for the route. -/
theorem relayRoute_opens : ∃ packet,
    buildOnionPacket clearCrypto routeDraws relayRoute [1, 2, 3] 4 none = .ok packet ∧
      peelRoute clearCrypto OnionLayer.json.deserialize
          ([nodeKey 1, nodeKey 2, nodeKey 3].map OnionNodeKey.staticSecret) packet
        = some (["relay2", "dest", ""], padPayload [1, 2, 3] 4) := by
  obtain ⟨packet, _, hbuild, _, _⟩ := relayRoute_builds
  exact ⟨packet, hbuild, packet_opens_hop_by_hop clearCrypto_lawful
    OnionLayer.json_deserialize_toVec rfl hbuild⟩

/-- With the next hop left alone a layer opens as the original. -/
theorem relayRoute_untouched : ∃ (packet : OnionLayer) (layers : List OnionLayer),
    buildOnionPacket clearCrypto routeDraws relayRoute [1, 2, 3] 4 none = .ok packet ∧
      layers.head? = some packet ∧
      ((∃ e, peelOnionLayer clearCrypto packet (nodeKey 1).staticSecret = .error e) ∨
        peelOnionLayer clearCrypto packet (nodeKey 1).staticSecret
          = .ok (packet.nextHop, bodyOver (padPayload [1, 2, 3] 4) (layers.drop 1))) := by
  obtain ⟨packet, layers, hbuild, hlayers, hhead⟩ := relayRoute_builds
  have hfirst : layers[0]? = some packet := by rw [← List.head?_eq_getElem?, hhead]
  have hiff := tampered_layer_original_iff clearCrypto_lawful hbuild hlayers
    relayRoute_first relayRoute_firstKey hfirst
    (unforged_nextHop (nodeKey 1).staticSecret packet packet.nextHop)
  exact ⟨packet, layers, hbuild, hhead, hiff.2.mpr (Or.inl rfl)⟩

/-- A relay opens a layer whose next hop was exchanged and is told the wrong name. -/
theorem exchanged_next_hop_accepted : ∃ packet changed inner,
    buildOnionPacket clearCrypto routeDraws relayRoute [1, 2, 3] 4 none = .ok packet ∧
      Unforged clearCrypto (nodeKey 1).staticSecret packet changed ∧
      packet.nextHop = "relay2" ∧
      peelOnionLayer clearCrypto changed (nodeKey 1).staticSecret = .ok ("mallory", inner) := by
  obtain ⟨packet, layers, hbuild, hlayers, hhead⟩ := relayRoute_builds
  have hfirst : layers[0]? = some packet := by rw [← List.head?_eq_getElem?, hhead]
  have hseal := builtLayers_sealed hlayers relayRoute_first hfirst
  obtain ⟨encKey, hopen, hinner, hnext⟩ :=
    openingKey_sealFor clearCrypto_lawful hseal relayRoute_firstKey
  have hunforged := unforged_nextHop (c := clearCrypto) (nodeKey 1).staticSecret packet "mallory"
  have hpeel := peelOnionLayer_tampered hopen hinner hunforged
  rw [if_pos ⟨rfl, rfl⟩] at hpeel
  exact ⟨packet, { packet with nextHop := "mallory" }, _, hbuild, hunforged, hnext, hpeel⟩

/-! ### Certified hops -/

section Certified

variable {c : OnionCrypto} {draws : Nat → Draw} {hops : List HopInfo} {payload : List UInt8}
  {hop : HopInfo}

/-- What the authority signs for a hop. -/
def hopBinding (peerId pubkeyB64 : String) : String :=
  "ESS-HOP-BIND-v1:" ++ peerId ++ ":" ++ pubkeyB64

/-- Nothing is said about the peer's name, but no text of bytes holds a colon. -/
theorem hopBinding_injective {peerId peerId' pubkeyB64 pubkeyB64' : String}
    (hkey : (decode pubkeyB64).isSome) (hkey' : (decode pubkeyB64').isSome)
    (h : hopBinding peerId pubkeyB64 = hopBinding peerId' pubkeyB64') :
    peerId = peerId' ∧ pubkeyB64 = pubkeyB64' := by
  obtain ⟨_, hbytes⟩ := Option.isSome_iff_exists.mp hkey
  obtain ⟨_, hbytes'⟩ := Option.isSome_iff_exists.mp hkey'
  have hcolon : ":".toList = [':'] := rfl
  have hchars := congrArg String.toList h
  unfold hopBinding at hchars
  simp only [String.toList_append, hcolon] at hchars
  have hnone := colon_notMem_of_decode hbytes
  have hnone' := colon_notMem_of_decode hbytes'
  generalize "ESS-HOP-BIND-v1:".toList = front at hchars
  obtain ⟨hname, htext⟩ := Separated.cancel_last hnone hnone' hchars
  exact ⟨String.toList_inj.mp (List.append_cancel_left hname), String.toList_inj.mp htext⟩

theorem verifyHopOwnership_eq_ok {authority : Key}
    (h : verifyHopOwnership c hop (some authority) = .ok ()) :
    ∃ sig, c.verify authority (utf8 (hopBinding hop.peerId hop.pubkeyB64)) sig = true := by
  unfold verifyHopOwnership at h
  dsimp only at h
  split at h
  · exact absurd h (by simp)
  · split at h
    · exact absurd h (by simp)
    · split at h
      · exact absurd h (by simp)
      · rename_i sig _
        split_ifs at h with hsig hverify
        exact ⟨sig, hverify⟩

theorem decode_of_builtLayers {padded : List UInt8} {i : Nat} {ls : List OnionLayer}
    (h : builtLayers c draws padded i hops = .ok ls) (hmem : hop ∈ hops) :
    (decode hop.pubkeyB64).isSome := by
  obtain ⟨j, hj⟩ := List.mem_iff_getElem?.mp hmem
  have hlt := (List.getElem?_eq_some_iff.mp hj).1
  obtain ⟨l, hl⟩ : ∃ l, ls[j]? = some l :=
    ⟨_, List.getElem?_eq_getElem (by rwa [builtLayers_length h])⟩
  obtain ⟨theirPk, -, hkey, -⟩ := sealFor_eq_ok (builtLayers_sealed h hj hl)
  obtain ⟨bytes, hbytes, -⟩ := Option.bind_eq_some_iff.mp hkey
  rw [hbytes]
  rfl

/-- A packet is built for hops the authority has certified only, whatever names they go by: if
    what verifies under its key is what it signed for a pair, and it certifies readable keys. -/
theorem built_hops_certified {authority : Key} {certified : Set (String × String)}
    (hunforged : ∀ peerId pubkeyB64 sig,
      c.verify authority (utf8 (hopBinding peerId pubkeyB64)) sig = true →
        ∃ pair ∈ certified, hopBinding peerId pubkeyB64 = hopBinding pair.1 pair.2)
    (hkeys : ∀ pair ∈ certified, (Base64.decode pair.2).isSome) {paddingSize : Nat}
    {packet : OnionLayer}
    (hbuild : buildOnionPacket c draws hops payload paddingSize (some authority) = .ok packet) :
    ∀ hop ∈ hops, (hop.peerId, hop.pubkeyB64) ∈ certified := by
  intro hop hmem
  obtain ⟨-, hverified, inner, hbuilt⟩ := (buildOnionPacket_eq_ok c).mp hbuild
  obtain ⟨sig, hsig⟩ := verifyHopOwnership_eq_ok (hverified hop hmem)
  obtain ⟨pair, hpair, htext⟩ := hunforged _ _ _ hsig
  obtain ⟨hname, hkey⟩ :=
    hopBinding_injective (decode_of_builtLayers hbuilt hmem) (hkeys pair hpair) htext
  rw [hname, hkey]
  exact hpair

end Certified

/-- The cipher in the clear, with an authority that has certified the hops of the route. -/
def certifyingCrypto : OnionCrypto :=
  { clearCrypto with
    verify := fun _ msg _ =>
      relayRoute.any fun hop => msg == utf8 (hopBinding hop.peerId hop.pubkeyB64) }

/-- The hops of the route with a signature each. -/
def certifiedRoute : List HopInfo :=
  relayRoute.map fun hop => { hop with activationCert := encode (List.replicate 64 0) }

theorem certifiedRoute_verified (authority : Key) :
    ∀ hop ∈ certifiedRoute, verifyHopOwnership certifyingCrypto hop (some authority) = .ok () := by
  intro hop hmem
  obtain ⟨plain, hplain, rfl⟩ := List.mem_map.mp hmem
  have hcert : encode (List.replicate 64 0) ≠ "" := by decide +kernel
  have hverify : ∀ sig, certifyingCrypto.verify authority
      (utf8 (hopBinding plain.peerId plain.pubkeyB64)) sig = true := fun sig =>
    List.any_eq_true.mpr ⟨plain, hplain, BEq.rfl⟩
  unfold verifyHopOwnership
  dsimp only
  rw [if_neg hcert, decode_encode]
  dsimp only
  rw [show List.replicate 64 0 = (Vector.replicate 64 (0 : UInt8)).toList from rfl, toArray_toList]
  exact if_pos (hverify _)

/-- The certified route has its packet, and its hops are those that were certified. -/
theorem certifiedRoute_certified : ∃ packet,
    buildOnionPacket certifyingCrypto routeDraws certifiedRoute [1, 2, 3] 4
        (some (Vector.replicate 32 0)) = .ok packet ∧
      ∀ hop ∈ certifiedRoute, (hop.peerId, hop.pubkeyB64) ∈
        {pair | ∃ hop ∈ relayRoute, pair = (hop.peerId, hop.pubkeyB64)} := by
  have hkeyed : ∀ hop ∈ certifiedRoute, hop.Keyed := by
    intro hop hmem
    obtain ⟨plain, hplain, rfl⟩ := List.mem_map.mp hmem
    exact relayRoute_keyed plain hplain
  have htotal : Total certifyingCrypto := ⟨clearCrypto_total.strong, clearCrypto_total.encrypts⟩
  obtain ⟨packet, hbuild⟩ : ∃ packet, buildOnionPacket certifyingCrypto routeDraws certifiedRoute
      [1, 2, 3] 4 (some (Vector.replicate 32 0)) = .ok packet :=
    buildOnionPacket_of_verified htotal routeDraws (by decide) hkeyed _ _
      (certifiedRoute_verified _)
  refine ⟨packet, hbuild, built_hops_certified ?_ ?_ hbuild⟩
  · intro peerId pubkeyB64 sig hverify
    obtain ⟨hop, hhop, hmsg⟩ := List.any_eq_true.mp hverify
    exact ⟨_, ⟨hop, hhop, rfl⟩, utf8_injective (beq_iff_eq.mp hmsg)⟩
  · rintro _ ⟨hop, hhop, rfl⟩
    exact Option.isSome_of_isSome_bind (relayRoute_keyed hop hhop)

end Onion

end EssNode
