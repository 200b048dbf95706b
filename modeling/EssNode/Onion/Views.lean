import EssNode.Onion.Layers

/-!
# What a Hop Learns

What a hop can read of a packet, compared over two routes.

A hop gets one layer and opens it. It reads the name of the next hop and the
ephemeral key, and finds the text of the layer inside. The payload of that layer is
encrypted for the next hop, but the name beside it is not: the text tells the hop
who comes after the next one.

For the comparison every ciphertext is replaced by bytes that depend only on the
length of its plaintext (`OnionCrypto.redacted`), and both packets are built with
the same draws. From the second layer inside on, what differs between the routes
is then seen by its length alone (`length_bodyOver_congr`).
-/

namespace EssNode

open Bincode List Text

namespace Onion

/-- The primitives with every ciphertext replaced by bytes that depend on the length
    of its plaintext. -/
def OnionCrypto.redacted (c : OnionCrypto) (cipher : Nat → List UInt8) : OnionCrypto :=
  { c with encrypt := fun _ _ plaintext => some (cipher plaintext.length) }

/-- What a hop can read: the layer it gets, and what is inside. -/
structure HopView where
  layer : OnionLayer
  inner : List UInt8
deriving DecidableEq

/-- The view of a hop of a route, by its place. -/
def hopView (c : OnionCrypto) (draws : Nat → Draw) (hops : List HopInfo) (padded : List UInt8)
    (i : Nat) : Option HopView := do
  let layers ← (builtLayers c draws padded 0 hops).toOption
  let layer ← layers[i]?
  some ⟨layer, bodyOver padded (layers.drop (i + 1))⟩

/-- How long a name is in the text of a layer. -/
def writtenLength (name : String) : Nat := (Json.string.encode name).length

section Views

variable {c : OnionCrypto} {draws : Nat → Draw} {padded padded' : List UInt8}
  {hops hops' : List HopInfo} {i : Nat}

theorem hopView_of_layers {layers : List OnionLayer} {l : OnionLayer}
    (hlayers : builtLayers c draws padded 0 hops = .ok layers) (hl : layers[i]? = some l) :
    hopView c draws hops padded i = some ⟨l, bodyOver padded (layers.drop (i + 1))⟩ := by
  rw [hopView, hlayers]
  simp [Except.toOption, hl]

theorem hopView_peels (hc : Lawful c) {hop : HopInfo} {key : OnionNodeKey c} {view : HopView}
    (hhop : hops[i]? = some hop) (hkey : hop.pubkeyB64 = key.publicKeyB64)
    (hview : hopView c draws hops padded i = some view) :
    peelOnionLayer c view.layer key.staticSecret = .ok (view.layer.nextHop, view.inner) := by
  cases hlayers : builtLayers c draws padded 0 hops with
  | error e => simp [hopView, hlayers, Except.toOption] at hview
  | ok layers =>
    cases hl : layers[i]? with
    | none => simp [hopView, hlayers, Except.toOption, hl] at hview
    | some l =>
      rw [hopView_of_layers hlayers hl] at hview
      obtain rfl := Option.some.inj hview
      have hseal := builtLayers_sealed hlayers hhop hl
      obtain ⟨_, _, _, hnext⟩ := openingKey_sealFor hc hseal hkey
      rw [hnext]
      exact peelOnionLayer_sealFor hc hseal hkey

/-! ### Lengths -/

variable {cipher : Nat → List UInt8} {draw : Draw} {rest rest' : List HopInfo}
  {ls : List OnionLayer} {hop next : HopInfo}

theorem sealFor_redacted {payload : List UInt8} {nextHop : String} {l : OnionLayer}
    (h : sealFor (c.redacted cipher) draw hop payload nextHop = .ok l) :
    l = { payload := draw.nonce.toList ++ cipher payload.length
          ephemeralPk := Base64.encode (c.publicKey draw.ephemeralSecret).toList
          nextHop := nextHop } := by
  obtain ⟨theirPk, ciphertext, -, hct, rfl⟩ := sealFor_eq_ok h
  obtain rfl := Option.some.inj hct
  rfl

theorem length_toVec_congr {l l' : OnionLayer} (hpayload : l.payload = l'.payload)
    (hephemeral : l.ephemeralPk = l'.ephemeralPk)
    (hnext : writtenLength l.nextHop = writtenLength l'.nextHop) :
    l.toVec.length = l'.toVec.length := by
  unfold writtenLength at hnext
  simp only [OnionLayer.toVec_eq, length_append, hpayload, hephemeral, hnext]

theorem writtenLength_nextHopOf
    (hnames : rest.map (writtenLength ∘ HopInfo.peerId)
      = rest'.map (writtenLength ∘ HopInfo.peerId)) :
    writtenLength (nextHopOf rest) = writtenLength (nextHopOf rest') := by
  cases rest with
  | nil =>
    obtain rfl := map_eq_nil_iff.mp hnames.symm
    rfl
  | cons hop rest =>
    obtain ⟨hop', rest', rfl, hname, -⟩ := map_eq_cons_iff.mp hnames.symm
    exact hname.symm

/-- The layers of two routes whose names have the same lengths, around payloads of
    the same length, have texts of the same length. -/
theorem length_bodyOver_congr {ls' : List OnionLayer}
    (hnames : rest.map (writtenLength ∘ HopInfo.peerId)
      = rest'.map (writtenLength ∘ HopInfo.peerId)) (hpadded : padded.length = padded'.length)
    (h : builtLayers (c.redacted cipher) draws padded i rest = .ok ls)
    (h' : builtLayers (c.redacted cipher) draws padded' i rest' = .ok ls') :
    (bodyOver padded ls).length = (bodyOver padded' ls').length := by
  -- The lengths inside are the same, and with them the ciphertexts.
  induction rest generalizing rest' i ls ls' with
  | nil =>
    obtain rfl := map_eq_nil_iff.mp hnames.symm
    cases h
    cases h'
    exact hpadded
  | cons hop rest ih =>
    obtain ⟨hop', rest', rfl, -, hrest⟩ := map_eq_cons_iff.mp hnames.symm
    obtain ⟨l, inner, rfl, hinner, hseal⟩ := builtLayers_cons.mp h
    obtain ⟨l', inner', rfl, hinner', hseal'⟩ := builtLayers_cons.mp h'
    obtain rfl := sealFor_redacted hseal
    obtain rfl := sealFor_redacted hseal'
    have hlength := ih hrest.symm hinner hinner'
    refine length_toVec_congr ?_ rfl (writtenLength_nextHopOf hrest.symm)
    rw [hlength]

/-! ### Two routes -/

theorem builtLayers_drop (h : builtLayers c draws padded i hops = .ok ls) (j : Nat) :
    builtLayers c draws padded (i + j) (hops.drop j) = .ok (ls.drop j) := by
  induction j generalizing i hops ls with
  | zero => exact h
  | succ j ih =>
    cases hops with
    | nil =>
      cases h
      rfl
    | cons hop rest =>
      obtain ⟨l, inner, rfl, hinner, -⟩ := builtLayers_cons.mp h
      rw [drop_succ_cons, drop_succ_cons, show i + (j + 1) = i + 1 + j by omega]
      exact ih hinner

theorem drop_eq_of_take (h : (hops.take (i + 2)).drop i = [hop, next]) :
    hops.drop i = hop :: next :: hops.drop (i + 2) := by
  rw [drop_take, Nat.add_sub_cancel_left] at h
  have hsplit := take_append_drop 2 (hops.drop i)
  rw [h, drop_drop] at hsplit
  exact hsplit.symm

theorem hopView_eq_some {rest : List HopInfo} {layers : List OnionLayer}
    (hlayers : builtLayers c draws padded 0 hops = .ok layers)
    (hdrop : hops.drop i = hop :: next :: rest) :
    ∃ own inside deeper, hopView c draws hops padded i = some ⟨own, inside.toVec⟩ ∧
      sealFor c (draws i) hop inside.toVec next.peerId = .ok own ∧
      sealFor c (draws (i + 1)) next (bodyOver padded deeper) (nextHopOf rest) = .ok inside ∧
      builtLayers c draws padded (i + 2) rest = .ok deeper := by
  have hfrom := builtLayers_drop hlayers i
  rw [hdrop, Nat.zero_add] at hfrom
  obtain ⟨own, inner, hown, hinner, hseal⟩ := builtLayers_cons.mp hfrom
  obtain ⟨inside, deeper, rfl, hdeeper, hseal'⟩ := builtLayers_cons.mp hinner
  refine ⟨own, inside, deeper, ?_, hseal, hseal', hdeeper⟩
  have hget : layers[i]? = some own := by rw [← head?_drop, hown, head?_cons]
  have hbehind : layers.drop (i + 1) = inside :: deeper := by
    rw [← tail_drop, hown, tail_cons]
  rw [hopView_of_layers hlayers hget, hbehind]
  rfl

theorem sealFor_redacted_eq_iff {hop' : HopInfo} {body body' : List UInt8}
    {nextHop nextHop' : String} {l l' : OnionLayer} (hlength : body.length = body'.length)
    (h : sealFor (c.redacted cipher) draw hop body nextHop = .ok l)
    (h' : sealFor (c.redacted cipher) draw hop' body' nextHop' = .ok l') :
    l = l' ↔ nextHop = nextHop' := by
  obtain rfl := sealFor_redacted h
  obtain rfl := sealFor_redacted h'
  simp [hlength]

theorem nextHopOf_drop_eq_iff {n : Nat}
    (hnames : (hops.drop n).map (writtenLength ∘ HopInfo.peerId)
      = (hops'.drop n).map (writtenLength ∘ HopInfo.peerId)) :
    nextHopOf (hops.drop n) = nextHopOf (hops'.drop n) ↔
      hops[n]?.map HopInfo.peerId = hops'[n]?.map HopInfo.peerId := by
  rw [← head?_drop, ← head?_drop]
  cases hdrop : hops.drop n with
  | nil =>
    rw [hdrop] at hnames
    rw [map_eq_nil_iff.mp hnames.symm]
    simp
  | cons hop rest =>
    rw [hdrop] at hnames
    obtain ⟨hop', rest', hdrop', -, -⟩ := map_eq_cons_iff.mp hnames.symm
    rw [hdrop']
    simp [nextHopOf]

/-- Two routes that share the hops up to the one behind a given hop, with later names
    and payloads of the same lengths, look the same to that hop just if the next but
    one has the same name. -/
theorem hopView_eq_iff (c : OnionCrypto) (cipher : Nat → List UInt8) (draws : Nat → Draw)
    {hops hops' : List HopInfo} {payload payload' : List UInt8} {paddingSize : Nat}
    {authorityPubkey authorityPubkey' : Option Key} {packet packet' : OnionLayer}
    (hbuild : buildOnionPacket (c.redacted cipher) draws hops payload paddingSize authorityPubkey
      = .ok packet)
    (hbuild' : buildOnionPacket (c.redacted cipher) draws hops' payload' paddingSize
      authorityPubkey' = .ok packet')
    {i : Nat} (hnext : i + 1 < hops.length) (hagree : hops.take (i + 2) = hops'.take (i + 2))
    (hnames : (hops.drop (i + 2)).map (writtenLength ∘ HopInfo.peerId)
      = (hops'.drop (i + 2)).map (writtenLength ∘ HopInfo.peerId))
    (hpayload : payload.length = payload'.length) :
    hopView (c.redacted cipher) draws hops (padPayload payload paddingSize) i
        = hopView (c.redacted cipher) draws hops' (padPayload payload' paddingSize) i ↔
      hops[i + 2]?.map HopInfo.peerId = hops'[i + 2]?.map HopInfo.peerId := by
  obtain ⟨-, -, inner, hlayers⟩ := (buildOnionPacket_eq_ok _).mp hbuild
  obtain ⟨-, -, inner', hlayers'⟩ := (buildOnionPacket_eq_ok _).mp hbuild'
  obtain ⟨hop, next, hpair⟩ : ∃ hop next, (hops.take (i + 2)).drop i = [hop, next] := by
    rw [← length_eq_two, length_drop, length_take]
    omega
  obtain ⟨own, inside, deeper, hview, hown, hinside, hdeeper⟩ :=
    hopView_eq_some hlayers (drop_eq_of_take hpair)
  obtain ⟨own', inside', deeper', hview', hown', hinside', hdeeper'⟩ :=
    hopView_eq_some hlayers' (drop_eq_of_take (hagree ▸ hpair))
  have hpadded : (padPayload payload paddingSize).length
      = (padPayload payload' paddingSize).length := by
    simp [padPayload, hpayload]
  -- What is two layers inside shows its length only.
  have hbody := length_bodyOver_congr hnames hpadded hdeeper hdeeper'
  have hsame : inside = inside' ↔
      hops[i + 2]?.map HopInfo.peerId = hops'[i + 2]?.map HopInfo.peerId :=
    (sealFor_redacted_eq_iff hbody hinside hinside').trans (nextHopOf_drop_eq_iff hnames)
  -- The hop's own layer is the same in any case.
  have htext : inside.toVec.length = inside'.toVec.length := by
    obtain rfl := sealFor_redacted hinside
    obtain rfl := sealFor_redacted hinside'
    exact length_toVec_congr (by rw [hbody]) rfl (writtenLength_nextHopOf hnames)
  have hsameOwn : own = own' := (sealFor_redacted_eq_iff htext hown hown').mpr rfl
  rw [hview, hview', ← hsame, hsameOwn, Option.some.injEq, HopView.mk.injEq]
  simp [OnionLayer.toVec_injective.eq_iff]

end Views

/-! ### Routes to two destinations -/

section Routes

def routeTo (destination : String) : List HopInfo :=
  [hopOf "relay1" (nodeKey 1), hopOf "relay2" (nodeKey 2), hopOf destination (nodeKey 3)]

def routeBehind (destination : String) : List HopInfo :=
  routeTo "relay3" ++ [hopOf destination (nodeKey 4)]

/-- Ciphertexts of one byte, for the length. -/
def lengthCrypto : OnionCrypto := clearCrypto.redacted fun n => [UInt8.ofNat n]

theorem lengthCrypto_total : Total lengthCrypto where
  strong := clearCrypto_total.strong
  encrypts _ _ _ := rfl

/-- Whom the third relay serves does not show at the first. -/
theorem routeBehind_hidden :
    hopView lengthCrypto routeDraws (routeBehind "alice") (padPayload [1, 2, 3] 4) 0
      = hopView lengthCrypto routeDraws (routeBehind "carol") (padPayload [4, 5, 6] 4) 0 := by
  have hbuilds (destination : String) (payload : List UInt8) : ∃ packet,
      buildOnionPacket lengthCrypto routeDraws (routeBehind destination) payload 4 none
        = .ok packet :=
    buildOnionPacket_total lengthCrypto_total routeDraws (by simp [routeBehind, routeTo])
      (by simp [routeBehind, routeTo, hopOf_keyed]) payload 4
  obtain ⟨packet, hbuild⟩ := hbuilds "alice" [1, 2, 3]
  obtain ⟨packet', hbuild'⟩ := hbuilds "carol" [4, 5, 6]
  exact (hopView_eq_iff clearCrypto _ routeDraws hbuild hbuild' (by decide) rfl
    (by decide +kernel) rfl).mpr rfl

/-- Whom the second relay serves does. -/
theorem routeTo_shown :
    (routeTo "alice").take 2 = (routeTo "carol").take 2 ∧
      ((routeTo "alice").drop 2).map (writtenLength ∘ HopInfo.peerId)
        = ((routeTo "carol").drop 2).map (writtenLength ∘ HopInfo.peerId) ∧
      (∃ packet, buildOnionPacket lengthCrypto routeDraws (routeTo "alice") [1, 2, 3] 4 none
        = .ok packet) ∧
      (∃ packet, buildOnionPacket lengthCrypto routeDraws (routeTo "carol") [1, 2, 3] 4 none
        = .ok packet) ∧
      hopView lengthCrypto routeDraws (routeTo "alice") (padPayload [1, 2, 3] 4) 0
        ≠ hopView lengthCrypto routeDraws (routeTo "carol") (padPayload [1, 2, 3] 4) 0 := by
  have hkeyed (destination : String) : ∀ hop ∈ routeTo destination, hop.Keyed := by
    simp [routeTo, hopOf_keyed]
  -- The text a relay finds has the name of the destination in it.
  have hview (destination : String) : ∃ own inside,
      hopView lengthCrypto routeDraws (routeTo destination) (padPayload [1, 2, 3] 4) 0
        = some ⟨own, OnionLayer.toVec inside⟩ ∧ inside.nextHop = destination := by
    obtain ⟨layers, hlayers⟩ := builtLayers_total lengthCrypto_total routeDraws
      (padPayload [1, 2, 3] 4) 0 (hkeyed destination)
    obtain ⟨own, inside, deeper, hview, -, hinside, -⟩ :=
      hopView_eq_some (i := 0) hlayers rfl
    exact ⟨own, inside, hview, by rw [sealFor_redacted hinside]; rfl⟩
  have hbuilds (destination : String) :=
    buildOnionPacket_total lengthCrypto_total routeDraws (by simp [routeTo])
      (hkeyed destination) [1, 2, 3] 4
  refine ⟨rfl, by decide +kernel, hbuilds "alice", hbuilds "carol", fun hsame => ?_⟩
  obtain ⟨own, inside, hseen, hname⟩ := hview "alice"
  obtain ⟨own', inside', hseen', hname'⟩ := hview "carol"
  rw [hseen, hseen', Option.some.injEq, HopView.mk.injEq] at hsame
  rw [OnionLayer.toVec_injective hsame.2, hname'] at hname
  exact absurd hname (by decide)

end Routes

end Onion

end EssNode
