import EssNode.Node.Replies
import EssNode.Onion.Layers

/-!
# Relaying Onion Packets

What a node does with a layer of an onion packet that was built for a route it is
on.

The builder puts the JSON text of a layer into the layer around it. The relay
reads what it finds inside a layer with the binary format, and expects it to be
one. It never is: the first eight bytes of the JSON text are the length of the
payload to the binary format, and the bytes behind it, printable all of them, are
two more lengths. Together they come to more than any array can hold
(`OnionLayer.deserialize_toVec`). So no relay sends anything on, and one whose
next hop has a well-formed name stops.
-/

namespace EssNode

open Bincode Json Onion Text

/-! ### Two formats -/

def maxArray : Nat := 2 ^ 63

namespace OnionLayer

theorem printable_json : Json.Printable json := by
  have hpayload : Json.Printable (Json.after "\x7b\"payload\":" byteArray) :=
    printable_byteArray.after (by decide +kernel)
  have hephemeral : Json.Printable (Json.after ",\"ephemeral_pk\":" Json.string) :=
    Json.printable_string.after (by decide +kernel)
  have hnext : Json.Printable (Json.after ",\"next_hop\":" Json.string) :=
    Json.printable_string.after (by decide +kernel)
  have hend : Json.Printable (literal "\x7d") := printable_literal (by decide +kernel)
  intro l
  exact hpayload.pair (hephemeral.pair (hnext.pair hend)) _

theorem toVec_front (l : OnionLayer) :
    ∃ front tail, l.toVec = front ++ tail ∧ front.length = 8 ∧
      ofLittleEndian front = 0x616f6c796170227b := by
  have hopen : utf8 "\x7b\"payload\":"
      = [123, 34, 112, 97, 121, 108, 111, 97] ++ [100, 34, 58] := by decide +kernel
  obtain ⟨rest, htext⟩ : ∃ rest,
      l.toVec = utf8 "\x7b\"payload\":" ++ byteArray.encode l.payload ++ rest := ⟨_, rfl⟩
  rw [hopen, List.append_assoc, List.append_assoc] at htext
  exact ⟨_, _, htext, rfl, by decide⟩

/-- The binary format finds no layer in the text of one: the three lengths it reads
    there come to more than an array can hold. -/
theorem deserialize_toVec {l : OnionLayer} (hsize : l.toVec.length < maxArray) :
    codec.deserialize l.toVec = none := by
  rw [Option.eq_none_iff_forall_ne_some]
  intro l' hread
  obtain ⟨⟨l'', rest⟩, hdecode, -⟩ := Option.map_eq_some_iff.mp hread
  obtain ⟨fields, hfields, -⟩ := Codec.refine_decode_eq_some hdecode
  obtain ⟨rest1, hpayload, hnames⟩ := Codec.pair_decode_eq_some hfields
  obtain ⟨rest2, hephemeral, hnext⟩ := Codec.pair_decode_eq_some hnames
  obtain ⟨bs2, hbs2, -⟩ := Codec.refine_decode_eq_some hephemeral
  obtain ⟨bs3, hbs3, -⟩ := Codec.refine_decode_eq_some hnext
  obtain ⟨head1, hlen1, hval1, htext⟩ := bytes_decode_eq_some hpayload
  obtain ⟨head2, hlen2, hval2, rfl⟩ := bytes_decode_eq_some hbs2
  obtain ⟨head3, hlen3, hval3, rfl⟩ := bytes_decode_eq_some hbs3
  obtain ⟨front, tail, hfront, hflen, hfval⟩ := l.toVec_front
  -- The first length is that of the fixed text in front.
  have hhead1 : head1 = front :=
    (List.append_inj (htext.symm.trans hfront) (hlen1.trans hflen.symm)).1
  -- The others are made of printable bytes.
  have hprintable : ∀ b ∈ l.toVec, (32 : UInt8) ≤ b := printable_json l
  have hlow2 : 32 * 256 ^ head2.length ≤ 255 * ofLittleEndian head2 + 32 :=
    le_ofLittleEndian fun b hb => hprintable b (by rw [htext]; simp [hb])
  have hlow3 : 32 * 256 ^ head3.length ≤ 255 * ofLittleEndian head3 + 32 :=
    le_ofLittleEndian fun b hb => hprintable b (by rw [htext]; simp [hb])
  have htotal := congrArg List.length htext
  simp only [List.length_append] at htotal
  rw [hlen2] at hlow2
  rw [hlen3] at hlow3
  rw [hhead1, hfval] at hval1
  unfold maxArray at hsize
  omega

theorem codec_fits {l : OnionLayer} (hsize : l.toVec.length < maxArray) : codec.Fits l := by
  have hpayload := length_le_byteArray l.payload
  have hephemeral := length_le_string l.ephemeralPk
  have hnext := length_le_string l.nextHop
  rw [toVec_eq] at hsize
  simp only [List.length_append] at hsize
  unfold maxArray at hsize
  refine ⟨?_, ?_, ?_⟩
  · change l.payload.length < 256 ^ 8
    omega
  · exact string_fits (s := l.ephemeralPk) (by omega)
  · exact string_fits (s := l.nextHop) (by omega)

end OnionLayer

/-! ### The relay -/

/-- A node's environment opens layers with a secret. -/
def PeelsWith (env : NodeEnv) (c : OnionCrypto) (sk : Key) : Prop :=
  ∀ l, env.peelOnionLayer l = (peelOnionLayer c l sk).mapError OnionError.debug

/-- The counter overflowed: the next peer does not read one more than came. -/
def Outcome.Overflowed (outcome : Outcome) (relay : OnionRelayRequest) : Prop :=
  ∃ recipient request next, outcome.forwarded = some (recipient, request) ∧
    EssRequest.codec.deserialize request.body = some (.onionRelay next) ∧
    next.hop.toNat ≠ relay.hop.toNat + 1

namespace Node

variable (env : NodeEnv) (rd : Readings) (n : Node) (relay : OnionRelayRequest)
  {nextHop nextPeer : String} {inner : List UInt8} {layer : OnionLayer}

/-- A relay that opens a layer and cannot read what is inside sends nothing on. It
    stops, unless the layer tells it no next hop or one that is no peer. -/
theorem handleOnionRelay_unreadable (hpeel : env.peelOnionLayer relay.layer = .ok (nextHop, inner))
    (hinner : OnionLayer.codec.deserialize inner = none) :
    (n.handleOnionRelay env rd relay).forwarded = none ∧
      ((n.handleOnionRelay env rd relay).panicked = true ↔
        nextHop ≠ "" ∧ (env.compute.parsePeerId nextHop).isSome) := by
  unfold handleOnionRelay
  rw [hpeel]
  dsimp only
  by_cases hlast : nextHop = ""
  · simp [hlast]
  · rw [if_neg hlast]
    cases hparse : env.compute.parsePeerId nextHop with
    | none => simp
    | some nextPeer => simp [hinner, hlast]

theorem handleOnionRelay_of_error {e : String} (hpeel : env.peelOnionLayer relay.layer = .error e) :
    (n.handleOnionRelay env rd relay).forwarded = none := by
  unfold handleOnionRelay
  rw [hpeel]

/-- A relay on the route of a packet does not send the layer inside its own to the
    next hop, nor anything else. If the next hop has the name of a peer it stops
    instead. -/
theorem relay_sends_no_layer {c : OnionCrypto} (hc : Lawful c) {draws : Nat → Draw}
    {hops : List HopInfo} {payload : List UInt8} {paddingSize : Nat}
    {authorityPubkey : Option Key} {packet : OnionLayer} {layers : List OnionLayer}
    (hbuild : buildOnionPacket c draws hops payload paddingSize authorityPubkey = .ok packet)
    (hlayers : builtLayers c draws (padPayload payload paddingSize) 0 hops = .ok layers)
    {i : Nat} {hop next : HopInfo} {layer inner : OnionLayer} {key : OnionNodeKey c}
    (hhop : hops[i]? = some hop) (hnext : hops[i + 1]? = some next)
    (hkey : hop.pubkeyB64 = key.publicKeyB64) (hlayer : layers[i]? = some layer)
    (hinner : layers[i + 1]? = some inner) (hsize : inner.toVec.length < maxArray)
    (henv : PeelsWith env c key.staticSecret) (count : UInt8) :
    layers.head? = some packet ∧
      (n.handleOnionRelay env rd ⟨layer, count⟩).forwarded = none ∧
      ((n.handleOnionRelay env rd ⟨layer, count⟩).panicked = true ↔
        next.peerId ≠ "" ∧ (env.compute.parsePeerId next.peerId).isSome) := by
  have hseal := builtLayers_sealed hlayers hhop hlayer
  rw [bodyOver_drop hinner, nextHopOf_drop hnext] at hseal
  have hpeel : env.peelOnionLayer layer = .ok (next.peerId, inner.toVec) := by
    rw [henv, peelOnionLayer_sealFor hc hseal hkey]
    rfl
  exact ⟨builtLayers_head hbuild hlayers,
    handleOnionRelay_unreadable env rd n ⟨layer, count⟩ hpeel (OnionLayer.deserialize_toVec hsize)⟩

/-! ### What stops a relay -/

theorem handleOnionRelay_readable (hpeel : env.peelOnionLayer relay.layer = .ok (nextHop, inner))
    (hnext : nextHop ≠ "") (hparse : env.compute.parsePeerId nextHop = some nextPeer)
    (hinner : OnionLayer.codec.deserialize inner = some layer) :
    (n.handleOnionRelay env rd relay).panicked = false ∧
      ∃ request, (n.handleOnionRelay env rd relay).forwarded = some (nextPeer, request) ∧
        EssRequest.codec.deserialize request.body = some (.onionRelay ⟨layer, relay.hop + 1⟩) := by
  have hfits : OnionRelayRequest.codec.Fits ⟨layer, relay.hop + 1⟩ :=
    ⟨OnionLayer.codec_rewrites.deserialize hinner, u8_fits _⟩
  have hread := EssRequest.codec.deserialize_serialize
    (a := .onionRelay ⟨layer, relay.hop + 1⟩) hfits
  unfold handleOnionRelay
  simp only [hpeel, hnext, if_false, hparse, hinner, true_and]
  exact ⟨_, rfl, hread⟩

theorem handleOnionRelay_ends
    (hends : ∀ nextHop inner, env.peelOnionLayer relay.layer = .ok (nextHop, inner) →
      nextHop = "" ∨ env.compute.parsePeerId nextHop = none) :
    (n.handleOnionRelay env rd relay).panicked = false ∧
      (n.handleOnionRelay env rd relay).forwarded = none := by
  unfold handleOnionRelay
  cases hpeel : env.peelOnionLayer relay.layer with
  | error e => simp
  | ok opened =>
    obtain ⟨nextHop, inner⟩ := opened
    dsimp only
    by_cases hlast : nextHop = ""
    · simp [hlast]
    · have hnone := (hends nextHop inner hpeel).resolve_left hlast
      simp [hlast, hnone]

theorem toNat_add_one_ne_iff (b : UInt8) : (b + 1).toNat ≠ b.toNat + 1 ↔ b = 255 := by
  have hlt := b.toNat_lt
  rw [UInt8.toNat_add, ← UInt8.toNat_inj]
  change (b.toNat + 1) % 256 ≠ b.toNat + 1 ↔ b.toNat = 255
  omega

theorem overflowed_iff (hpeel : env.peelOnionLayer relay.layer = .ok (nextHop, inner))
    (hnext : nextHop ≠ "") (hparse : env.compute.parsePeerId nextHop = some nextPeer)
    (hinner : OnionLayer.codec.deserialize inner = some layer) :
    (n.handleOnionRelay env rd relay).Overflowed relay ↔ relay.hop = 255 := by
  obtain ⟨-, request, hsent, hread⟩ :=
    handleOnionRelay_readable env rd n relay hpeel hnext hparse hinner
  rw [← toNat_add_one_ne_iff]
  constructor
  · rintro ⟨recipient, request', next, hsent', hread', hne⟩
    rw [hsent, Option.some.injEq, Prod.mk.injEq] at hsent'
    rw [← hsent'.2, hread, Option.some.injEq, EssRequest.onionRelay.injEq] at hread'
    rwa [← hread'] at hne
  · intro hne
    exact ⟨nextPeer, request, _, hsent, hread, hne⟩

/-- A relay gets through a request without stopping and without overflow just if what
    is inside for a next peer is a layer and the counter is not at its end. -/
theorem relay_completes_iff (relay : OnionRelayRequest) :
    (n.handleOnionRelay env rd relay).panicked = false ∧
        ¬ (n.handleOnionRelay env rd relay).Overflowed relay ↔
      ∀ nextHop inner, env.peelOnionLayer relay.layer = .ok (nextHop, inner) → nextHop ≠ "" →
        (env.compute.parsePeerId nextHop).isSome →
        (OnionLayer.codec.deserialize inner).isSome ∧ relay.hop ≠ 255 := by
  by_cases hends : ∀ nextHop inner, env.peelOnionLayer relay.layer = .ok (nextHop, inner) →
      nextHop = "" ∨ env.compute.parsePeerId nextHop = none
  · obtain ⟨hruns, hnothing⟩ := handleOnionRelay_ends env rd n relay hends
    refine iff_of_true ⟨hruns, ?_⟩ ?_
    · rintro ⟨recipient, request, next, hsent, -⟩
      rw [hnothing] at hsent
      exact absurd hsent (by simp)
    · intro nextHop inner hpeel hnext hparse
      rcases hends nextHop inner hpeel with hlast | hnone
      · exact absurd hlast hnext
      · rw [hnone] at hparse
        exact absurd hparse (by simp)
  · push Not at hends
    obtain ⟨nextHop, inner, hpeel, hnext, hparse⟩ := hends
    obtain ⟨nextPeer, hpeer⟩ := Option.ne_none_iff_exists'.mp hparse
    -- The condition is about this one opening.
    have honly : (∀ nextHop inner, env.peelOnionLayer relay.layer = .ok (nextHop, inner) →
          nextHop ≠ "" → (env.compute.parsePeerId nextHop).isSome →
          (OnionLayer.codec.deserialize inner).isSome ∧ relay.hop ≠ 255) ↔
        (OnionLayer.codec.deserialize inner).isSome ∧ relay.hop ≠ 255 := by
      constructor
      · intro hall
        exact hall nextHop inner hpeel hnext (by simp [hpeer])
      · intro hthis nextHop' inner' hpeel' _ _
        obtain ⟨-, rfl⟩ := Prod.mk.inj (Except.ok.inj (hpeel.symm.trans hpeel'))
        exact hthis
    rw [honly]
    cases hinner : OnionLayer.codec.deserialize inner with
    | none =>
      have hstops := (handleOnionRelay_unreadable env rd n relay hpeel hinner).2.mpr
        ⟨hnext, by simp [hpeer]⟩
      simp [hstops]
    | some layer =>
      have hruns := (handleOnionRelay_readable env rd n relay hpeel hnext hpeer hinner).1
      have hover := overflowed_iff env rd n relay hpeel hnext hpeer hinner
      simp [hruns, hover]

/-- Whoever has a relay's public key can stop it: any bytes that are no layer will do,
    sealed for the relay under the name of any peer. -/
theorem sealed_bytes_stop {c : OnionCrypto} (hc : Lawful c) {draw : Draw} {hop : HopInfo}
    {bytes : List UInt8} {name : String} {l : OnionLayer} {key : OnionNodeKey c}
    (hseal : sealFor c draw hop bytes name = .ok l) (hkey : hop.pubkeyB64 = key.publicKeyB64)
    (henv : PeelsWith env c key.staticSecret)
    (hbytes : OnionLayer.codec.deserialize bytes = none) (hname : name ≠ "")
    (hpeer : (env.compute.parsePeerId name).isSome) (count : UInt8) :
    (n.handleOnionRelay env rd ⟨l, count⟩).panicked = true := by
  have hpeel : env.peelOnionLayer l = .ok (name, bytes) := by
    rw [henv, peelOnionLayer_sealFor hc hseal hkey]
    rfl
  exact (handleOnionRelay_unreadable env rd n ⟨l, count⟩ hpeel hbytes).2.mpr ⟨hname, hpeer⟩

end Node

/-! ### A route of two relays -/

section RelayRoute

open Client

def relayEnv (n : UInt8) : NodeEnv :=
  { tagEnv with
    peelOnionLayer := fun l =>
      (peelOnionLayer clearCrypto l (nodeKey n).staticSecret).mapError OnionError.debug }

theorem relayEnv_peelsWith (n : UInt8) :
    PeelsWith (relayEnv n) clearCrypto (nodeKey n).staticSecret := fun _ => rfl

theorem relayRoute_inner : ∃ (packet inner : OnionLayer) (layers : List OnionLayer),
    buildOnionPacket clearCrypto routeDraws relayRoute [1, 2, 3] 4 none = .ok packet ∧
      builtLayers clearCrypto routeDraws (padPayload [1, 2, 3] 4) 0 relayRoute = .ok layers ∧
      layers[0]? = some packet ∧ layers[1]? = some inner ∧ inner.toVec.length < maxArray := by
  obtain ⟨packet, layers, hbuild, hlayers, hhead⟩ := relayRoute_builds
  have hshort : ((builtLayers clearCrypto routeDraws (padPayload [1, 2, 3] 4) 0
      relayRoute).toOption.bind fun ls => ls[1]?).any
        (fun inner => decide (inner.toVec.length < maxArray)) = true := by
    decide +kernel
  rw [hlayers] at hshort
  obtain ⟨inner, hinner, hsize⟩ := (Option.any_eq_true _ _).mp hshort
  exact ⟨packet, inner, layers, hbuild, hlayers, by rw [← List.head?_eq_getElem?, hhead], hinner,
    of_decide_eq_true hsize⟩

/-- The first relay of the route sends nothing on, as every other. -/
theorem relayRoute_stuck : ∃ packet,
    buildOnionPacket clearCrypto routeDraws relayRoute [1, 2, 3] 4 none = .ok packet ∧
      (askingNode.handleOnionRelay (relayEnv 1) (answersAt 1000) ⟨packet, 0⟩).forwarded = none := by
  obtain ⟨packet, inner, layers, hbuild, hlayers, hfirst, hinner, hsize⟩ := relayRoute_inner
  have hnext : relayRoute[0 + 1]? = some (hopOf "relay2" (nodeKey 2)) := rfl
  exact ⟨packet, hbuild, (askingNode.relay_sends_no_layer (relayEnv 1) (answersAt 1000)
    clearCrypto_lawful hbuild hlayers relayRoute_first hnext relayRoute_firstKey hfirst hinner
    hsize (relayEnv_peelsWith 1) 0).2.1⟩

/-- It stops. -/
theorem relayRoute_panics : ∃ packet,
    buildOnionPacket clearCrypto routeDraws relayRoute [1, 2, 3] 4 none = .ok packet ∧
      (askingNode.handleOnionRelay (relayEnv 1) (answersAt 1000) ⟨packet, 0⟩).panicked = true := by
  obtain ⟨packet, inner, layers, hbuild, hlayers, hfirst, hinner, hsize⟩ := relayRoute_inner
  have hseal := builtLayers_sealed hlayers relayRoute_first hfirst
  rw [bodyOver_drop hinner] at hseal
  have hpeel : (relayEnv 1).peelOnionLayer packet = .ok ("relay2", inner.toVec) := by
    rw [relayEnv_peelsWith, peelOnionLayer_sealFor clearCrypto_lawful hseal relayRoute_firstKey]
    rfl
  have hunread := Node.handleOnionRelay_unreadable (relayEnv 1) (answersAt 1000) askingNode
    ⟨packet, 0⟩ hpeel (OnionLayer.deserialize_toVec hsize)
  exact ⟨packet, hbuild, hunread.2.mpr ⟨by decide, rfl⟩⟩

/-- The relay gets through a layer with another inside, for any counter but the last. -/
theorem relay_forwards_layer : ∃ l,
    sealFor clearCrypto (routeDraws 0) (hopOf "relay1" (nodeKey 1))
        (OnionLayer.codec.serialize ⟨[], "", ""⟩) "relay2" = .ok l ∧
      (askingNode.handleOnionRelay (relayEnv 1) (answersAt 1000) ⟨l, 7⟩).panicked = false ∧
      ¬ (askingNode.handleOnionRelay (relayEnv 1) (answersAt 1000) ⟨l, 7⟩).Overflowed ⟨l, 7⟩ := by
  obtain ⟨l, hseal⟩ := sealFor_total clearCrypto_total (routeDraws 0)
    (hopOf_keyed "relay1" (nodeKey 1)) (OnionLayer.codec.serialize ⟨[], "", ""⟩) "relay2"
  refine ⟨l, hseal, (askingNode.relay_completes_iff (relayEnv 1) (answersAt 1000) ⟨l, 7⟩).mpr ?_⟩
  intro nextHop inner hpeel _ _
  rw [relayEnv_peelsWith,
    peelOnionLayer_sealFor clearCrypto_lawful hseal relayRoute_firstKey] at hpeel
  obtain ⟨-, rfl⟩ := Prod.mk.inj (Except.ok.inj hpeel)
  exact ⟨by decide +kernel, (by decide : (7 : UInt8) ≠ 255)⟩

/-- Sealed for the relay by anyone, nothing at all stops it, and a layer with a counter
    of 255 is sent on with a counter of zero. -/
theorem relay_stopped_and_wrapped :
    (∃ l, sealFor clearCrypto (routeDraws 0) (hopOf "relay1" (nodeKey 1)) [] "relay2" = .ok l ∧
      (askingNode.handleOnionRelay (relayEnv 1) (answersAt 1000) ⟨l, 0⟩).panicked = true) ∧
    ∃ l, sealFor clearCrypto (routeDraws 0) (hopOf "relay1" (nodeKey 1))
        (OnionLayer.codec.serialize ⟨[], "", ""⟩) "relay2" = .ok l ∧
      (askingNode.handleOnionRelay (relayEnv 1) (answersAt 1000) ⟨l, 255⟩).Overflowed
        ⟨l, 255⟩ := by
  constructor
  · obtain ⟨l, hseal⟩ := sealFor_total clearCrypto_total (routeDraws 0)
      (hopOf_keyed "relay1" (nodeKey 1)) [] "relay2"
    exact ⟨l, hseal, Node.sealed_bytes_stop _ _ _ clearCrypto_lawful hseal relayRoute_firstKey
      (relayEnv_peelsWith 1) (by decide +kernel) (by decide) rfl 0⟩
  · obtain ⟨l, hseal⟩ := sealFor_total clearCrypto_total (routeDraws 0)
      (hopOf_keyed "relay1" (nodeKey 1)) (OnionLayer.codec.serialize ⟨[], "", ""⟩) "relay2"
    have hpeel : (relayEnv 1).peelOnionLayer l
        = .ok ("relay2", OnionLayer.codec.serialize ⟨[], "", ""⟩) := by
      rw [relayEnv_peelsWith,
        peelOnionLayer_sealFor clearCrypto_lawful hseal relayRoute_firstKey]
      rfl
    have hinner : OnionLayer.codec.deserialize (OnionLayer.codec.serialize ⟨[], "", ""⟩)
        = some ⟨[], "", ""⟩ := by decide +kernel
    exact ⟨l, hseal, (askingNode.overflowed_iff (relayEnv 1) (answersAt 1000) ⟨l, 255⟩ hpeel
      (by decide) rfl hinner).mpr rfl⟩

end RelayRoute

end EssNode
