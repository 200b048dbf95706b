import EssNode.Node.Relay

/-!
# Sending over an Onion Route

What a sender puts on its way with `send_via_onion`, and what its destination gets.

The sender has five exits. With no hops configured it sends the payload as it is. Otherwise it
pads the payload first. If there are too few peers, or a key is missing, or the packet cannot be
built, it sends the padded payload straight to the destination, where nothing takes the padding
off. If the packet is built, the payload is padded once more inside it, and it goes to the first
relay.

A payload that is sent padded is never taken for a wrapped request that holds the original: the
number of a wrapped request's kind would be its length and two more bytes, and the two lengths
for which that is a number of a kind leave nothing to be wrapped (`obtains_padded`). A packet
ends at the first relay, whoever holds the key it was sealed for, since no relay reads the layer
inside (`Network.first_relay_silent`).

The exit with a packet is also the only one that does not name the destination, and it takes as
many relays as are configured, one included.
-/

namespace EssNode

open Bincode EssRequest List Onion Text

/-- The part of a node's runtime that sending uses. -/
structure RuntimeContext where
  onionHops : Nat
  onionPayloadSize : Nat
  peerPubkeyStore : FinMap String Key
  authorityPubkey : Option Key

def onionMinPadding : Nat := 256

def onionDefaultPadding : Nat := 1400

def padOnionPayload (payload : List UInt8) (targetSize : Nat) : List UInt8 :=
  let effectiveTarget :=
    if targetSize = 0 then onionDefaultPadding else max targetSize onionMinPadding
  padPayload payload effectiveTarget

/-- A shuffle of a list, as the generator happens to make it. -/
structure Shuffle where
  apply : List String → List String
  perm : ∀ l, (apply l).Perm l

/-- A route: `n` peers other than the two ends, and the destination. -/
def selectOnionHops (shuffle : Shuffle) (knownPeers : List String) (localId destination : String)
    (n : Nat) : Option (List String) :=
  let candidates := knownPeers.filter fun p => p ≠ localId && p ≠ destination
  if candidates.length < n then none
  else some ((shuffle.apply candidates).take n ++ [destination])

/-- The keys of a route's hops; none if one is missing. -/
def RuntimeContext.hopPubkeys (ctx : RuntimeContext) (hops : List String) : List Key :=
  (hops.mapM fun peerId => ctx.peerPubkeyStore[peerId]?).getD []

/-- A route's hops with their keys. Certificates are left empty. -/
def RuntimeContext.hopInfos (ctx : RuntimeContext) (hops : List String) : List HopInfo :=
  (hops.zip (ctx.hopPubkeys hops)).map fun (peerId, pk) =>
    { peerId := peerId, pubkeyB64 := Base64.encode pk.toList, activationCert := "" }

section Send

variable (c : OnionCrypto) (draws : Nat → Draw) (shuffle : Shuffle) (stamp : Stamp)
  (ctx : RuntimeContext) (localId destination : String)

def sendDirect (body : List UInt8) : String × DirectRequest :=
  (destination,
    DirectRequest.plainBytes stamp.ts stamp.shortNonce localId destination body)

/-- What the sender sends, and to whom. -/
def sendViaOnion (plaintextPayload : List UInt8) (knownPeers : List String) :
    String × DirectRequest :=
  if ctx.onionHops = 0 then sendDirect stamp localId destination plaintextPayload
  else
    let padded := padOnionPayload plaintextPayload ctx.onionPayloadSize
    match selectOnionHops shuffle knownPeers localId destination ctx.onionHops with
    | none => sendDirect stamp localId destination padded
    | some hops =>
      if ctx.hopPubkeys hops = [] then sendDirect stamp localId destination padded
      else
        match buildOnionPacket c draws (ctx.hopInfos hops) padded ctx.onionPayloadSize
            ctx.authorityPubkey with
        | .ok outerLayer =>
          let firstHop := hops.headD destination
          let essReq := onionRelay ⟨outerLayer, 0⟩
          (firstHop, DirectRequest.plainBytes stamp.ts stamp.shortNonce localId firstHop
            (codec.serialize essReq))
        | .error _ => sendDirect stamp localId destination padded

end Send

/-! ### The destination -/

namespace Node

variable (env : NodeEnv) (n : Node) (peer : String) (request : DirectRequest)

/-- The bytes a destination gets out of a request: the payload of a packet that ends
    with it, without its padding, or the body its handler gets. -/
def obtains : Option (List UInt8) :=
  match codec.deserialize request.body with
  | some (.onionRelay relay) =>
    match env.peelOnionLayer relay.layer with
    | .ok (nextHop, innerPayload) =>
      if nextHop = "" then (unpadPayload innerPayload).toOption else none
    | .error _ => none
  | _ => n.handlerBody env peer request

end Node

/-- Nodes with their environments, their secrets and what they draw. -/
structure Network (c : OnionCrypto) where
  node : String → Node
  env : String → NodeEnv
  readings : String → Readings
  secret : String → Key
  peels : ∀ peer, PeelsWith (env peer) c (secret peer)

/-- The bytes a destination gets when a request is sent to a peer, over at most so
    many peers: what it obtains itself, or what comes of the request its peer sends
    on. -/
def Network.received {c : OnionCrypto} (net : Network c) (destination : String) :
    Nat → String → String × DirectRequest → Option (List UInt8)
  | 0, _, _ => none
  | more + 1, sender, (recipient, request) =>
    if recipient = destination then
      (net.node destination).obtains (net.env destination) sender request
    else
      match ((net.node recipient).onDirectRequest (net.env recipient) (net.readings recipient)
          sender request).forwarded with
      | some sent => net.received destination more recipient sent
      | none => none

/-! ### Padding -/

variable (payload : List UInt8) (targetSize : Nat)

/-- A padded payload stands behind its length and in front of zeros, of which there
    are none behind an empty payload. -/
theorem padOnionPayload_eq :
    ∃ zeros, padOnionPayload payload targetSize
        = littleEndian 2 payload.length ++ (payload ++ replicate zeros 0) ∧
      (payload = [] → zeros = 0) := by
  unfold padOnionPayload padPayload
  refine ⟨_, append_assoc _ _ _, ?_⟩
  rintro rfl
  simp

theorem length_lt_padOnionPayload :
    payload.length < (padOnionPayload payload targetSize).length := by
  obtain ⟨zeros, hpadded, -⟩ := padOnionPayload_eq payload targetSize
  rw [hpadded, length_append, length_append, length_littleEndian]
  omega

/-- What a packet holds was padded twice: without the outer padding it is the padded
    payload still. -/
theorem unpad_padded_twice {payload : List UInt8} {targetSize : Nat}
    (hlen : (padOnionPayload payload targetSize).length < 65536) (paddingSize : Nat) :
    unpadPayload (padPayload (padOnionPayload payload targetSize) paddingSize)
        = .ok (padOnionPayload payload targetSize) ∧
      padOnionPayload payload targetSize ≠ payload := by
  refine ⟨unpadPayload_padPayload hlen paddingSize, fun hsame => ?_⟩
  have hlonger := length_lt_padOnionPayload payload targetSize
  rw [hsame] at hlonger
  exact absurd hlonger (Nat.lt_irrefl _)

/-- A number of a kind in front of a padded payload leaves the payload empty or with
    one byte, and nothing but zeros behind the number. -/
theorem kind_of_padded {payload : List UInt8} {targetSize : Nat} (hlen : payload.length ≤ 65000)
    {head tail : List UInt8} (hpadded : padOnionPayload payload targetSize = head ++ tail)
    (hhead : head.length = 4) :
    ofLittleEndian head ≠ 0 ∧ (ofLittleEndian head = 1 → ∀ b ∈ tail, b = 0) := by
  obtain ⟨zeros, hshape, hempty⟩ := padOnionPayload_eq payload targetSize
  have htwo : (littleEndian 2 payload.length).length = 2 := length_littleEndian 2 _
  -- The number is the length and two bytes of what follows.
  obtain ⟨more, rfl, hrest⟩ : ∃ more, head = littleEndian 2 payload.length ++ more ∧
      payload ++ replicate zeros 0 = more ++ tail := by
    rcases append_eq_append_iff.mp (hshape.symm.trans hpadded) with
      ⟨more, hmore, hrest⟩ | ⟨more, hmore, -⟩
    · exact ⟨more, hmore, hrest⟩
    · have hlens := congrArg length hmore
      rw [length_append, htwo, hhead] at hlens
      omega
  have hmore : more.length = 2 := by
    rw [length_append, htwo] at hhead
    omega
  have hvalue : ofLittleEndian (littleEndian 2 payload.length ++ more)
      = payload.length + 65536 * ofLittleEndian more := by
    rw [ofLittleEndian_append, htwo, ofLittleEndian_littleEndian 2 _ (by omega),
      show 256 ^ 2 = 65536 by decide]
  rw [hvalue]
  constructor
  · intro hzero
    have hnil : payload = [] := length_eq_zero_iff.mp (by omega)
    have hlens := congrArg length hrest
    rw [hempty hnil, hnil, length_append, length_append, hmore] at hlens
    simp only [length_nil, replicate_zero] at hlens
    omega
  · intro hone b hb
    have hsingle : payload.length = 1 := by omega
    -- The rest begins behind the payload's only byte.
    have htail : tail = (replicate zeros 0).drop 1 := by
      have hdrop := congrArg (drop 2) hrest
      rw [drop_left' hmore] at hdrop
      rw [← hdrop, show 2 = payload.length + 1 by omega, ← drop_drop, drop_left]
    rw [htail] at hb
    exact eq_of_mem_replicate (mem_of_mem_drop hb)

section Arrival

variable {c : OnionCrypto}

/-- No plaintext is longer than its ciphertext. -/
def Shrinks (c : OnionCrypto) : Prop :=
  ∀ key nonce ciphertext plaintext,
    c.decrypt key nonce ciphertext = some plaintext → plaintext.length ≤ ciphertext.length

/-- What is assumed of the layers of a packet on its way: their texts are no longer
    than an array can be, and the packet opens to what was sealed in it or to
    nothing, whoever gets it. Nobody has to hold the key it was sealed for. -/
structure Network.Sealed (net : Network c) (padded : List UInt8) (layers : List OnionLayer) :
    Prop where
  fits : ∀ l ∈ layers, l.toVec.length < maxArray
  own : ∀ packet inner, layers = packet :: inner → ∀ peer told found,
    peelOnionLayer c packet (net.secret peer) = .ok (told, found) → found = bodyOver padded inner

theorem length_of_peelOnionLayer (hc : Shrinks c) {l : OnionLayer} {sk : Key} {nextHop : String}
    {inner : List UInt8} (h : peelOnionLayer c l sk = .ok (nextHop, inner)) :
    inner.length + 12 ≤ l.payload.length := by
  rw [peelOnionLayer_eq] at h
  split at h
  · exact absurd h (by simp)
  · rename_i key _
    unfold decryptPayload at h
    split at h
    · exact absurd h (by simp [Except.map])
    · rename_i hlong
      dsimp only at h
      split at h
      · rename_i plaintext hdecrypt
        obtain ⟨-, rfl⟩ := Prod.mk.inj (Except.ok.inj h)
        have hshorter := hc _ _ _ _ hdecrypt
        rw [length_drop] at hshorter
        omega
      · exact absurd h (by simp [Except.map])

theorem length_unpadPayload {padded payload : List UInt8}
    (h : (unpadPayload padded).toOption = some payload) : payload.length ≤ padded.length := by
  unfold unpadPayload at h
  split at h
  · exact absurd h (by simp [Except.toOption])
  · dsimp only at h
    split at h
    · exact absurd h (by simp [Except.toOption])
    · obtain rfl := Option.some.inj h
      rw [length_take, length_drop]
      omega

/-! ### Straight to the destination -/

section Direct

variable {env : NodeEnv} {sk : Key} (hpeels : PeelsWith env c sk) {n : Node} {peer : String}
  {request : DirectRequest}

include hpeels

theorem obtains_relayed (hc : Shrinks c) {relay : OnionRelayRequest} {bytes : List UInt8}
    (hrelay : codec.deserialize request.body = some (.onionRelay relay))
    (h : n.obtains env peer request = some bytes) :
    bytes.length + 12 ≤ relay.layer.payload.length := by
  unfold Node.obtains at h
  rw [hrelay] at h
  dsimp only at h
  rw [hpeels] at h
  cases hpeel : peelOnionLayer c relay.layer sk with
  | error e => simp [hpeel, Except.mapError] at h
  | ok opened =>
    obtain ⟨nextHop, inner⟩ := opened
    rw [hpeel] at h
    dsimp only [Except.mapError] at h
    split at h
    · have hinner := length_of_peelOnionLayer hc hpeel
      have hunpad := length_unpadPayload h
      omega
    · exact absurd h (by simp)

theorem obtains_own_body (hc : Shrinks c)
    (hformat : (SecurityRuntime.verifySignatureFormat env.crypto request.signature).isOk = true) :
    n.obtains env peer request = some request.body ↔
      codec.deserialize request.body = none ∧ (n.enforce peer .connect).2 = true := by
  cases hess : codec.deserialize request.body with
  | none =>
    unfold Node.obtains Node.handlerBody
    rw [hess]
    dsimp only
    rw [hformat, Bool.true_and]
    by_cases hserved : (n.enforce peer .connect).2 = true
    · simp [hserved]
    · simp [hserved]
  | some ess =>
    refine iff_of_false (fun h => ?_) (by simp)
    have hshorter := length_lt_of_deserialize hess
    cases ess with
    | directRequest direct =>
      unfold Node.obtains Node.handlerBody at h
      rw [hess] at h
      dsimp only at h hshorter
      rw [Option.some.inj h] at hshorter
      exact absurd hshorter (Nat.lt_irrefl _)
    | onionRelay relay =>
      have hlong := obtains_relayed hpeels hc hess h
      dsimp only at hshorter
      omega

theorem obtains_padded (hc : Shrinks c) {payload : List UInt8} {targetSize : Nat}
    (hlen : payload.length ≤ 65000) (hbody : request.body = padOnionPayload payload targetSize) :
    n.obtains env peer request ≠ some payload := by
  intro h
  cases hess : codec.deserialize request.body with
  | none =>
    -- The body is handed on with its padding.
    unfold Node.obtains Node.handlerBody at h
    rw [hess] at h
    dsimp only at h
    split at h
    · have hlonger := length_lt_padOnionPayload payload targetSize
      rw [← hbody, Option.some.inj h] at hlonger
      exact absurd hlonger (Nat.lt_irrefl _)
    · exact absurd h (by simp)
  | some ess =>
    obtain ⟨head, tail, rest, hsplit, hhead, hkind⟩ := deserialize_eq_some hess
    have hpadded := kind_of_padded hlen (hbody.symm.trans hsplit) hhead
    cases ess with
    | directRequest direct => exact hpadded.1 hkind.1
    | onionRelay relay =>
      -- The layer is read from zeros, so it holds nothing.
      obtain ⟨fields, hfields, hread⟩ := Codec.refine_decode_eq_some hkind.2
      obtain ⟨mid, hlayer, -⟩ := Codec.pair_decode_eq_some hfields
      obtain ⟨parts, hparts, hparts'⟩ := Codec.refine_decode_eq_some hlayer
      obtain ⟨mid', hpayload, -⟩ := Codec.pair_decode_eq_some hparts
      obtain ⟨size, -, hsize, htail⟩ := bytes_decode_eq_some hpayload
      have hzero : ofLittleEndian size = 0 := by
        refine ofLittleEndian_eq_zero fun b hb => hpadded.2 hkind.1 b ?_
        rw [htail]
        exact mem_append_left _ hb
      obtain rfl := Option.some.inj hread
      have hnone : fields.1.payload.length = 0 := by
        rw [← Option.some.inj hparts', ← hsize.symm.trans hzero]
      have hlong := obtains_relayed hpeels hc hess h
      dsimp only at hlong
      omega

end Direct

/-! ### Over relays -/

theorem selectOnionHops_first {shuffle : Shuffle} {knownPeers : List String}
    {localId destination : String} {n : Nat} {hops : List String} (hn : n ≠ 0)
    (h : selectOnionHops shuffle knownPeers localId destination n = some hops) :
    hops.headD destination ≠ destination := by
  unfold selectOnionHops at h
  dsimp only at h
  split at h
  · exact absurd h (by simp)
  · rename_i henough
    obtain rfl := Option.some.inj h
    generalize hcandidates : knownPeers.filter (fun p => p ≠ localId && p ≠ destination)
      = candidates at henough
    have hlength := (shuffle.perm candidates).length_eq
    cases hshuffled : shuffle.apply candidates with
    | nil =>
      rw [hshuffled, length_nil] at hlength
      omega
    | cons first rest =>
      obtain ⟨m, rfl⟩ := Nat.exists_eq_succ_of_ne_zero hn
      -- A shuffle has no other members.
      have hmem : first ∈ candidates :=
        (shuffle.perm candidates).mem_iff.mp (by rw [hshuffled]; exact mem_cons_self)
      rw [← hcandidates, mem_filter, Bool.and_eq_true] at hmem
      rw [take_succ_cons, cons_append, headD_cons]
      exact of_decide_eq_true hmem.2.2

/-- A packet ends at the first relay: if the relay opens it at all, it finds the text
    of a layer, which it cannot read. -/
theorem Network.first_relay_silent (net : Network c) (relay sender : String)
    {request : DirectRequest} {draws : Nat → Draw} {hops : List HopInfo} {payload : List UInt8}
    {paddingSize : Nat} {authorityPubkey : Option Key} {packet : OnionLayer}
    (hbuild : buildOnionPacket c draws hops payload paddingSize authorityPubkey = .ok packet)
    (hsealed : ∀ layers, builtLayers c draws (padPayload payload paddingSize) 0 hops = .ok layers →
      net.Sealed (padPayload payload paddingSize) layers)
    (hbody : request.body = codec.serialize (.onionRelay ⟨packet, 0⟩)) :
    ((net.node relay).onDirectRequest (net.env relay) (net.readings relay) sender
      request).forwarded = none := by
  obtain ⟨htwo, -, inner, hlayers⟩ := (buildOnionPacket_eq_ok c).mp hbuild
  have hpacket := hsealed _ hlayers
  have hlength := builtLayers_length hlayers
  cases inner with
  | nil =>
    rw [length_singleton] at hlength
    omega
  | cons second inner =>
    have hfits : OnionRelayRequest.codec.Fits ⟨packet, 0⟩ :=
      ⟨OnionLayer.codec_fits (hpacket.fits packet (by simp)), u8_fits 0⟩
    have hess : codec.deserialize request.body = some (.onionRelay ⟨packet, 0⟩) := by
      rw [hbody]
      exact codec.deserialize_serialize hfits
    unfold Node.onDirectRequest
    rw [hess]
    dsimp only
    cases hpeel : peelOnionLayer c packet (net.secret relay) with
    | error e =>
      refine Node.handleOnionRelay_of_error _ _ _ ⟨packet, 0⟩ (e := e.debug) ?_
      rw [net.peels, hpeel]
      rfl
    | ok opened =>
      obtain ⟨told, found⟩ := opened
      have hfound : found = second.toVec := hpacket.own _ _ rfl relay told found hpeel
      have hopened : (net.env relay).peelOnionLayer packet = .ok (told, second.toVec) := by
        rw [net.peels, hpeel, hfound]
        rfl
      have hunread := OnionLayer.deserialize_toVec (hpacket.fits second (by simp))
      exact (Node.handleOnionRelay_unreadable _ _ _ ⟨packet, 0⟩ hopened hunread).1

/-- A payload of at most 65000 bytes arrives as it was sent just if no hops are
    configured, it is not the encoding of a wrapped request, and the destination
    serves the sender. -/
theorem Network.received_iff (net : Network c) (hc : Shrinks c) (draws : Nat → Draw)
    (shuffle : Shuffle) (stamp : Stamp) (ctx : RuntimeContext) (localId destination : String)
    {plaintextPayload : List UInt8} (hlen : plaintextPayload.length ≤ 65000)
    (knownPeers : List String)
    (hformat : (SecurityRuntime.verifySignatureFormat (net.env destination).crypto "").isOk = true)
    (hsealed : ∀ hops layers,
      selectOnionHops shuffle knownPeers localId destination ctx.onionHops = some hops →
      builtLayers c draws
          (padPayload (padOnionPayload plaintextPayload ctx.onionPayloadSize)
            ctx.onionPayloadSize) 0 (ctx.hopInfos hops) = .ok layers →
      net.Sealed
        (padPayload (padOnionPayload plaintextPayload ctx.onionPayloadSize) ctx.onionPayloadSize)
        layers)
    (more : Nat) :
    net.received destination (more + 1) localId
        (sendViaOnion c draws shuffle stamp ctx localId destination plaintextPayload knownPeers)
        = some plaintextPayload ↔
      ctx.onionHops = 0 ∧ EssRequest.codec.deserialize plaintextPayload = none ∧
        ((net.node destination).enforce localId .connect).2 = true := by
  have hdirect (body : List UInt8) :
      net.received destination (more + 1) localId
          (sendDirect stamp localId destination body)
        = (net.node destination).obtains (net.env destination) localId
            (sendDirect stamp localId destination body).2 := by
    rw [sendDirect, Network.received, if_pos rfl]
  have hpadded : net.received destination (more + 1) localId
      (sendDirect stamp localId destination
        (padOnionPayload plaintextPayload ctx.onionPayloadSize)) ≠ some plaintextPayload := by
    rw [hdirect]
    exact obtains_padded (net.peels destination) hc hlen rfl
  unfold sendViaOnion
  by_cases hzero : ctx.onionHops = 0
  · rw [if_pos hzero, hdirect]
    simp only [hzero, true_and]
    exact obtains_own_body (net.peels destination) hc hformat
  · -- The four other exits.
    rw [if_neg hzero]
    refine iff_of_false ?_ (fun h => hzero h.1)
    dsimp only
    cases hroute : selectOnionHops shuffle knownPeers localId destination ctx.onionHops with
    | none => exact hpadded
    | some hops =>
      dsimp only
      by_cases hkeys : ctx.hopPubkeys hops = []
      · rw [if_pos hkeys]
        exact hpadded
      · rw [if_neg hkeys]
        cases hbuild : buildOnionPacket c draws (ctx.hopInfos hops)
            (padOnionPayload plaintextPayload ctx.onionPayloadSize) ctx.onionPayloadSize
            ctx.authorityPubkey with
        | error e => exact hpadded
        | ok packet =>
          have hfirst := selectOnionHops_first hzero hroute
          dsimp only
          rw [Network.received, if_neg hfirst, net.first_relay_silent _ _ hbuild
            (fun layers => hsealed hops layers hroute) rfl]
          simp

end Arrival

/-! ### Falling back -/

theorem RuntimeContext.hopPubkeys_cases (ctx : RuntimeContext) (hops : List String) :
    (∀ hop ∈ hops, ctx.peerPubkeyStore[hop]?.isSome) ∧
        (ctx.hopPubkeys hops).length = hops.length ∨
      (¬ ∀ hop ∈ hops, ctx.peerPubkeyStore[hop]?.isSome) ∧ ctx.hopPubkeys hops = [] := by
  have hlookup : (∀ hop ∈ hops, ctx.peerPubkeyStore[hop]?.isSome) ∧
        (∃ keys, hops.mapM (fun peerId => ctx.peerPubkeyStore[peerId]?) = some keys ∧
          keys.length = hops.length) ∨
      (¬ ∀ hop ∈ hops, ctx.peerPubkeyStore[hop]?.isSome) ∧
        hops.mapM (fun peerId => ctx.peerPubkeyStore[peerId]?) = none := by
    induction hops with
    | nil => exact Or.inl ⟨by simp, [], rfl, rfl⟩
    | cons hop rest ih =>
      rw [mapM_cons, forall_mem_cons]
      cases hkey : ctx.peerPubkeyStore[hop]? with
      | none => exact Or.inr ⟨by simp, rfl⟩
      | some key =>
        rcases ih with ⟨hall, keys, hkeys, hlength⟩ | ⟨hmissing, hnone⟩
        · refine Or.inl ⟨⟨rfl, hall⟩, key :: keys, ?_, by simp [hlength]⟩
          rw [hkeys]
          rfl
        · refine Or.inr ⟨fun h => hmissing h.2, ?_⟩
          rw [hnone]
          rfl
  unfold hopPubkeys
  rcases hlookup with ⟨hall, keys, hkeys, hlength⟩ | ⟨hmissing, hnone⟩
  · exact Or.inl ⟨hall, by rw [hkeys]; exact hlength⟩
  · exact Or.inr ⟨hmissing, by rw [hnone]; rfl⟩

theorem RuntimeContext.length_hopInfos {ctx : RuntimeContext} {hops : List String}
    (h : ∀ hop ∈ hops, ctx.peerPubkeyStore[hop]?.isSome) :
    (ctx.hopInfos hops).length = hops.length := by
  rcases ctx.hopPubkeys_cases hops with ⟨-, hlength⟩ | ⟨hmissing, -⟩
  · simp [hopInfos, hlength]
  · exact absurd h hmissing

/-- Hops are sent out without certificates, so an authority turns them all down. -/
theorem RuntimeContext.verify_hopInfos (c : OnionCrypto) {ctx : RuntimeContext}
    {hops : List String} {hop : HopInfo} (hmem : hop ∈ ctx.hopInfos hops) :
    verifyHopOwnership c hop ctx.authorityPubkey = .ok () ↔ ctx.authorityPubkey = none := by
  obtain ⟨⟨peerId, pk⟩, -, rfl⟩ := mem_map.mp hmem
  unfold verifyHopOwnership
  cases ctx.authorityPubkey with
  | none => simp
  | some authorityPubkey => simp

theorem selectOnionHops_length {shuffle : Shuffle} {knownPeers : List String}
    {localId destination : String} {n : Nat} {hops : List String}
    (h : selectOnionHops shuffle knownPeers localId destination n = some hops) :
    hops.length = n + 1 := by
  unfold selectOnionHops at h
  dsimp only at h
  split at h
  · exact absurd h (by simp)
  · rename_i henough
    obtain rfl := Option.some.inj h
    rw [length_append, length_take, (shuffle.perm _).length_eq, length_singleton]
    omega

section Downgrade

variable (c : OnionCrypto) (draws : Nat → Draw) (shuffle : Shuffle) (stamp : Stamp)
  (ctx : RuntimeContext) (localId destination : String) (knownPeers : List String)

/-- The request that brings a packet to its first hop. -/
def packetRequest (firstHop : String) (packet : OnionLayer) : String × DirectRequest :=
  (firstHop, DirectRequest.plainBytes stamp.ts stamp.shortNonce localId firstHop
    (codec.serialize (.onionRelay ⟨packet, 0⟩)))

/-- What was sent went to a peer other than the destination, with a packet for a route
    of at least three hops. -/
def SentAnonymously (payload : List UInt8) (sent : String × DirectRequest) : Prop :=
  sent.1 ≠ destination ∧ ∃ hops packet,
    selectOnionHops shuffle knownPeers localId destination ctx.onionHops = some hops ∧
      3 ≤ hops.length ∧
      buildOnionPacket c draws (ctx.hopInfos hops)
        (padOnionPayload payload ctx.onionPayloadSize) ctx.onionPayloadSize ctx.authorityPubkey
        = .ok packet ∧
      sent = packetRequest stamp localId (hops.headD destination) packet

theorem sendViaOnion_of_packet {payload : List UInt8} {hops : List String} {packet : OnionLayer}
    (hhops : ctx.onionHops ≠ 0)
    (hroute : selectOnionHops shuffle knownPeers localId destination ctx.onionHops = some hops)
    (hkeys : ctx.hopPubkeys hops ≠ [])
    (hbuild : buildOnionPacket c draws (ctx.hopInfos hops)
      (padOnionPayload payload ctx.onionPayloadSize) ctx.onionPayloadSize ctx.authorityPubkey
        = .ok packet) :
    sendViaOnion c draws shuffle stamp ctx localId destination payload knownPeers
      = packetRequest stamp localId (hops.headD destination) packet := by
  unfold sendViaOnion
  rw [if_neg hhops]
  dsimp only
  rw [hroute]
  dsimp only
  rw [if_neg hkeys, hbuild]
  rfl

end Downgrade

/-! ### A sender and a destination -/

theorem clearCrypto_shrinks : Shrinks clearCrypto := by
  intro key nonce ciphertext plaintext h
  change (if _ then some _ else none) = _ at h
  split at h
  · obtain rfl := Option.some.inj h
    rw [length_drop]
    omega
  · exact absurd h (by simp)

section Pair

open Client

/-- A network in which every node is the one that serves the sender. -/
def servingNetwork : Network clearCrypto where
  node _ := answeringNode
  env _ := relayEnv 1
  readings _ := answersAt 1000
  secret _ := (nodeKey 1).staticSecret
  peels _ := relayEnv_peelsWith 1

def keylessContext (hops : Nat) : RuntimeContext :=
  { onionHops := hops, onionPayloadSize := 256, peerPubkeyStore := ∅, authorityPubkey := none }

def sentToBob (hops : Nat) : String × DirectRequest :=
  sendViaOnion clearCrypto routeDraws ⟨id, List.Perm.refl⟩ ⟨1000, "1"⟩ (keylessContext hops)
    "node" "bob" [1, 2, 3] []

/-- Without hops the payload arrives. -/
theorem unpadded_arrives :
    servingNetwork.received "bob" 1 "node" (sentToBob 0) = some [1, 2, 3] := by
  refine (servingNetwork.received_iff clearCrypto_shrinks routeDraws ⟨id, List.Perm.refl⟩
    ⟨1000, "1"⟩ (keylessContext 0) "node" "bob" (by decide) [] (by decide +kernel) ?_ 0).mpr
    ⟨rfl, by decide +kernel, by decide +kernel⟩
  intro hops layers hroute hlayers
  obtain rfl : ["bob"] = hops := Option.some.inj hroute
  have hnone : (keylessContext 0).hopInfos ["bob"] = [] := by decide +kernel
  rw [hnone] at hlayers
  obtain rfl := Except.ok.inj hlayers
  exact ⟨by simp, by simp⟩

/-- With one hop and nobody to relay, the padded payload arrives instead. -/
theorem padding_arrives :
    servingNetwork.received "bob" 2 "node" (sentToBob 1) = some (padOnionPayload [1, 2, 3] 256) ∧
      padOnionPayload [1, 2, 3] 256 ≠ [1, 2, 3] := by
  decide +kernel

def keyedContext (hops : Nat) : RuntimeContext :=
  { keylessContext hops with
    peerPubkeyStore := (((∅ : FinMap String Key).insert "relay1" (nodeKey 1).publicKey).insert
      "relay2" (nodeKey 2).publicKey).insert "bob" (nodeKey 3).publicKey }

theorem hopInfos_keyed (ctx : RuntimeContext) (hops : List String) :
    ∀ hop ∈ ctx.hopInfos hops, hop.Keyed := by
  intro hop hmem
  obtain ⟨⟨peerId, pk⟩, -, rfl⟩ := mem_map.mp hmem
  rw [HopInfo.Keyed, Base64.decode_encode, Option.bind_some, toArray_toList]
  rfl

def sentOverRelays (hops : Nat) : String × DirectRequest :=
  sendViaOnion clearCrypto routeDraws ⟨id, List.Perm.refl⟩ ⟨1000, "1"⟩ (keyedContext hops)
    "node" "bob" [1, 2, 3] (["relay1", "relay2"].take hops)

end Pair

end EssNode
