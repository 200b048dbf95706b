import EssNode.Node.Onboard
import EssNode.Node.OnionSend

/-!
# The Onion Keys of Onboarding Requests

An onboarding request may carry the key with which the peer opens its layer of an onion
packet. The handler files it in two tables: one in the world state, and the one of the
runtime from which the keys of a route are taken.

It does so after the check of the request and whatever the check said. The rest of the
handler is guarded: a refused request leaves the world state, the signing keys and the
governance engine alone. So a refused request changes nothing of what is named here exactly
if it carries no key that can be read, or only the one that is on file already
(`refused_onboard_iff`).

The table of the world state is kept beside it here; nothing that is modelled of the world
state reads it. Nor does the rest of the handler, so the keys are filed behind it.
-/

namespace EssNode

open Authority Bincode Governance Onboarding Text
open Onion (Key)

namespace Onboarding

/-- The key in a request, if there is one that can be read. -/
def OnboardRequest.onionKey (request : OnboardRequest) : Option Key :=
  request.x25519Pubkey.bind fun pkHex => (hexDecode pkHex).bind fun pkBytes => toArray 32 pkBytes

theorem onionKey_hexEncode {request : OnboardRequest} {pk : Key}
    (h : request.x25519Pubkey = some (hexEncode pk.toList)) : request.onionKey = some pk := by
  rw [OnboardRequest.onionKey, h, Option.bind_some, hexDecode_hexEncode, Option.bind_some,
    toArray_toList]

end Onboarding

/-- A node with the keys of its world state and the part of its runtime with the keys that
    routes take. -/
structure KeyedHost where
  host : Host
  peerX25519Pubkeys : FinMap String Key
  ctx : RuntimeContext

namespace KeyedHost

variable (env : NodeEnv) (reg : RegistryEnv) (s : KeyedHost) (ev : OnboardEvent)

/-- File a key in both tables. -/
def registerPeerPubkey (peer : String) (pk : Key) : KeyedHost :=
  { s with
    peerX25519Pubkeys := s.peerX25519Pubkeys.insert peer pk
    ctx := { s.ctx with peerPubkeyStore := s.ctx.peerPubkeyStore.insert peer pk } }

/-- An onboarding request, with the key it carries. Without a world state the handler
    returns before. -/
def handleOnboard : KeyedHost × OnboardOutcome :=
  let out := s.host.handleOnboard env reg ev
  let s := { s with host := out.host }
  match s.host.node.worldState, ev.request.onionKey with
  | some _, some pk => (s.registerPeerPubkey ev.peer pk, out)
  | _, _ => (s, out)

end KeyedHost

/-! ### One request -/

section OneRequest

variable {reg : RegistryEnv} {h : Host} {ev : OnboardEvent} {world : WorldState}

theorem Host.identify_of_refused (hrefused : (h.identify reg ev world).2 = false) :
    (h.identify reg ev world).1.world = world ∧
      (h.identify reg ev world).1.security = h.node.security := by
  unfold Host.identify handlePeerIdentified at hrefused ⊢
  dsimp only at hrefused ⊢
  split at hrefused
  · rename_i hfailed
    rw [if_pos hfailed]
    exact ⟨rfl, rfl⟩
  · cases hrefused

theorem Host.handleOnboard_refused_node (env : NodeEnv) (hworld : h.node.worldState = some world)
    (hrefused : (h.identify reg ev world).2 = false) :
    (h.handleOnboard env reg ev).host.node = h.node := by
  obtain ⟨hsame, hsecurity⟩ := Host.identify_of_refused hrefused
  rw [(Host.handleOnboard_refused env hworld hrefused).1]
  dsimp only
  rw [Host.checked, hsame, hsecurity, ← hworld]

theorem Host.handleOnboard_world (env : NodeEnv) (reg : RegistryEnv) (h : Host)
    (ev : OnboardEvent) :
    (h.handleOnboard env reg ev).host.node.worldState.isSome = h.node.worldState.isSome := by
  cases hworld : h.node.worldState with
  | none =>
    unfold Host.handleOnboard
    rw [hworld]
    dsimp only
    rw [hworld]
  | some world =>
    cases hcheck : (h.identify reg ev world).2 with
    | false => rw [Host.handleOnboard_refused_node env hworld hcheck, hworld]
    | true =>
      rw [Host.handleOnboard_accepted env hworld hcheck]
      rcases Host.putForward_cases env ev (h.identify reg ev world).1.onboarding
        (h.checked reg ev world) with ⟨hnode, -, -⟩ | ⟨hnode, -, -⟩
      · rw [hnode]
        rfl
      · rw [hnode]
        rcases ((h.checked reg ev world).ownVoted ev).settle_cases env ev.readings ev.peer
          ev.proposalId with ⟨-, hsame, -⟩ | ⟨-, ⟨_, hcert⟩, -, -⟩ | ⟨-, hsame, -, -⟩
        · rw [hsame]
          rfl
        · rw [hcert]
          rfl
        · rw [hsame]
          rfl

end OneRequest

namespace KeyedHost

variable {env : NodeEnv} {reg : RegistryEnv} {s : KeyedHost} {ev : OnboardEvent}
  {world : WorldState}

theorem tables_handleOnboard (env : NodeEnv) (reg : RegistryEnv) (ev : OnboardEvent)
    (hworld : s.host.node.worldState.isSome) :
    (s.handleOnboard env reg ev).1.peerX25519Pubkeys
        = (ev.request.onionKey.elim s.peerX25519Pubkeys fun pk =>
            s.peerX25519Pubkeys.insert ev.peer pk) ∧
      (s.handleOnboard env reg ev).1.ctx.peerPubkeyStore
        = (ev.request.onionKey.elim s.ctx.peerPubkeyStore fun pk =>
            s.ctx.peerPubkeyStore.insert ev.peer pk) := by
  have hkept := Host.handleOnboard_world env reg s.host ev
  rw [hworld] at hkept
  obtain ⟨world, hafter⟩ := Option.isSome_iff_exists.mp hkept
  unfold handleOnboard
  dsimp only
  rw [hafter]
  cases ev.request.onionKey with
  | none => exact ⟨rfl, rfl⟩
  | some pk => exact ⟨rfl, rfl⟩

theorem host_handleOnboard :
    (s.handleOnboard env reg ev).1.host = (s.host.handleOnboard env reg ev).host := by
  unfold handleOnboard
  dsimp only
  split
  · rfl
  · rfl

theorem elim_insert_eq_iff (keys : FinMap String Key) (peer : String) (key : Option Key) :
    (key.elim keys fun pk => keys.insert peer pk) = keys ↔
      ∀ pk, key = some pk → keys[peer]? = some pk := by
  cases key with
  | none => exact iff_of_true rfl nofun
  | some pk =>
    refine (FinMap.insert_eq_self_iff keys peer pk).trans ⟨fun hfile pk' hpk' => ?_, ?_⟩
    · rw [← Option.some.inj hpk']
      exact hfile
    · exact fun hall => hall pk rfl

/-- A request whose check fails leaves the node as it was: its world state with the activated
    peers and the registry, the signing keys of its peers and its governance engine. It
    leaves the two tables of onion keys exactly if the key it carries, if one can be read, is
    on file in both for the peer that sent it. -/
theorem refused_onboard_iff (env : NodeEnv) (reg : RegistryEnv) (s : KeyedHost)
    (ev : OnboardEvent) (world : WorldState) (hworld : s.host.node.worldState = some world)
    (hrefused : (handlePeerIdentified reg ev.readings.check
      ⟨s.host.node.security, s.host.onboarding, world⟩ ev.peer ev.request).2 = false) :
    let t := (s.handleOnboard env reg ev).1
    (t.host.node.worldState = some world ∧
      t.host.node.security.peerPublicKeys = s.host.node.security.peerPublicKeys ∧
      t.host.node.governanceEngine = s.host.node.governanceEngine) ∧
    ((t.peerX25519Pubkeys = s.peerX25519Pubkeys ∧
        t.ctx.peerPubkeyStore = s.ctx.peerPubkeyStore) ↔
      ∀ pk, ev.request.onionKey = some pk →
        s.peerX25519Pubkeys[ev.peer]? = some pk ∧ s.ctx.peerPubkeyStore[ev.peer]? = some pk) := by
  intro t
  have hnode : t.host.node = s.host.node := by
    rw [host_handleOnboard]
    exact Host.handleOnboard_refused_node env hworld hrefused
  refine ⟨⟨by rw [hnode, hworld], by rw [hnode], by rw [hnode]⟩, ?_⟩
  have hattached : s.host.node.worldState.isSome := by rw [hworld]; rfl
  obtain ⟨htable, hstore⟩ := tables_handleOnboard env reg ev hattached
  rw [htable, hstore, elim_insert_eq_iff, elim_insert_eq_iff]
  exact ⟨fun h pk hpk => ⟨h.1 pk hpk, h.2 pk hpk⟩, fun h => ⟨fun pk hpk => (h pk hpk).1,
    fun pk hpk => (h pk hpk).2⟩⟩

theorem filed_handleOnboard (env : NodeEnv) (reg : RegistryEnv) {s : KeyedHost} {ev : OnboardEvent}
    {pk : Key} (hattached : s.host.node.worldState.isSome) (hkey : ev.request.onionKey = some pk) :
    (s.handleOnboard env reg ev).1.peerX25519Pubkeys[ev.peer]? = some pk ∧
      (s.handleOnboard env reg ev).1.ctx.peerPubkeyStore[ev.peer]? = some pk := by
  obtain ⟨htable, hstore⟩ := tables_handleOnboard env reg ev hattached
  rw [htable, hstore, hkey, Option.elim_some, Option.elim_some]
  exact ⟨(FinMap.find_insert ..).trans (if_pos rfl), (FinMap.find_insert ..).trans (if_pos rfl)⟩

theorem handlePeerIdentified_unsigned (reg : RegistryEnv) (r : Onboarding.Readings) (g : Registry)
    (peer : String) {request : OnboardRequest} (hunsigned : request.signature = []) :
    (handlePeerIdentified reg r g peer request).2 = false := by
  have hsignature : ∃ e, ed25519SignatureFromBytes reg.toOnboardingEnv request.signature
      = .error e := by
    rw [hunsigned]
    exact ⟨_, rfl⟩
  have hidentity : checkIdentity reg.toOnboardingEnv peer request = false := by
    obtain ⟨e, he⟩ := hsignature
    simp only [checkIdentity, he]
    split
    · rfl
    split
    · rfl
    · rfl
  have hcheck : (verifyRemoteIdentity reg.toOnboardingEnv r g.onboarding peer request).2
      = false := by
    refine Bool.eq_false_iff.mpr fun htrue => ?_
    have hpassed := (verifyRemoteIdentity_eq_true htrue).2.2.2
    rw [hidentity] at hpassed
    exact Bool.false_ne_true hpassed
  simp only [handlePeerIdentified, hcheck, Bool.not_false, if_true]

/-- A node without onion keys that decides alone. -/
def joinKeyed : KeyedHost := ⟨joinHost loneEngine, ∅, ⟨3, 1400, ∅, none⟩⟩

/-- A request without a signature, with a key or without. -/
def unsignedEvent (x25519Pubkey : Option String) : OnboardEvent :=
  { joinEvent with
    request := { joinEvent.request with signature := [], x25519Pubkey := x25519Pubkey } }

/-- A refused request without a key files none. -/
theorem refused_without_key :
    (joinKeyed.handleOnboard Node.nameEnv (registryEnv tagKey)
        (unsignedEvent none)).1.peerX25519Pubkeys = ∅ ∧
      (joinKeyed.handleOnboard Node.nameEnv (registryEnv tagKey)
        (unsignedEvent none)).1.ctx.peerPubkeyStore = ∅ := by
  have hrefused := refused_onboard_iff Node.nameEnv (registryEnv tagKey) joinKeyed
    (unsignedEvent none) joinWorld rfl (handlePeerIdentified_unsigned _ _ _ _ rfl)
  exact hrefused.2.mpr nofun

/-- A refused request with a key has it filed in both tables. -/
theorem refused_key_filed :
    let pk : Key := Vector.replicate 32 7
    let ev := unsignedEvent (some (hexEncode pk.toList))
    let t := (joinKeyed.handleOnboard Node.nameEnv (registryEnv tagKey) ev).1
    (handlePeerIdentified (registryEnv tagKey) ev.readings.check
        ⟨joinKeyed.host.node.security, joinKeyed.host.onboarding, joinWorld⟩ "peer"
        ev.request).2 = false ∧
      joinKeyed.peerX25519Pubkeys["peer"]? = none ∧ t.peerX25519Pubkeys["peer"]? = some pk ∧
      joinKeyed.ctx.peerPubkeyStore["peer"]? = none ∧
      t.ctx.peerPubkeyStore["peer"]? = some pk := by
  intro pk ev t
  have ht : t = (joinKeyed.handleOnboard Node.nameEnv (registryEnv tagKey) ev).1 := rfl
  have hkey : ev.request.onionKey = some pk := onionKey_hexEncode rfl
  have hpeer : ev.peer = "peer" := rfl
  have hfiled := filed_handleOnboard Node.nameEnv (registryEnv tagKey)
    (show joinKeyed.host.node.worldState.isSome from rfl) hkey
  have hrefused := handlePeerIdentified_unsigned (registryEnv tagKey) ev.readings.check
    ⟨joinKeyed.host.node.security, joinKeyed.host.onboarding, joinWorld⟩ "peer"
    (show ev.request.signature = [] from rfl)
  -- From here on nothing needs to be evaluated.
  clear_value t ev
  rw [← ht, hpeer] at hfiled
  exact ⟨hrefused, rfl, hfiled.1, rfl, hfiled.2⟩

end KeyedHost

end EssNode
