import Mathlib.Data.Rat.Init
import EssNode.Lib.FinMap

/-!
# The Node's World State

What a node knows of its peers: a registry with their roles and reputations,
counts derived from it, and the peers that have been activated.

Every change to the registry moves the revision on, a 64-bit word, so no such
change goes unnoticed. Activating a peer only sets a flag and does not.

Scores and latencies are exact fractions. The registry keeps, of a peer's routes,
the hops they go through: only whether there are any is ever asked. Writing the
activated peers to disk is left out.
-/

namespace EssNode

/-- How well a peer has behaved. -/
structure PeerReputation where
  score : ℚ := 1 / 2
  isQuarantined : Bool := false
  successfulOps : UInt64 := 0
  lastLatency : ℚ := 200
deriving DecidableEq, Repr

/-- A peer's entry in the registry. -/
structure PeerState where
  peerId : String
  role : Option String := none
  reputation : PeerReputation := {}
  routes : Finset String := ∅
  connected : Bool := false
  trusted : Bool := false
  lastSeen : UInt64
  activationCert : Option (List UInt8) := none
deriving DecidableEq

/-- Counts of the registry's entries. -/
structure GhostState where
  connectedCount : Nat := 0
  knownCount : Nat := 0
  routeCount : Nat := 0
  trustedCount : Nat := 0
deriving DecidableEq, Repr

/-- The world state. `supernodes` are those of the authority's snapshot. -/
structure WorldState where
  revision : UInt64
  lastUpdated : UInt64
  supernodes : List String
  peerRegistry : FinMap String PeerState
  ghost : GhostState
  activatedPeers : FinMap String Bool
deriving DecidableEq

namespace WorldState

variable (ws : WorldState) (flagged : String) (now₁ now₂ : UInt64) (target peerId role : String)

def bump (now : UInt64) : WorldState :=
  { ws with revision := ws.revision + 1, lastUpdated := now }

open PeerState

/-- The counts; an empty registry keeps those it has. -/
def peerCountsFromRegistry : GhostState :=
  if ws.peerRegistry.isEmpty then ws.ghost
  else
    { connectedCount := FinMap.count connected ws.peerRegistry
      knownCount := ws.peerRegistry.size
      routeCount := FinMap.count (fun p => decide (p.routes ≠ ∅)) ws.peerRegistry
      trustedCount := FinMap.count trusted ws.peerRegistry }

def syncGhostFromRegistry : WorldState := { ws with ghost := ws.peerCountsFromRegistry }

/-- Write a peer's entry, creating it if there is none. The clock is read for the
    entry and for the revision. -/
def upsertPeerState (now₁ now₂ : UInt64) (peerId : String) (role : Option String)
    (connected : Bool) (trusted : Option Bool) : WorldState :=
  let entry := ws.peerRegistry[peerId]?.getD { peerId := peerId, lastSeen := now₁ }
  let entry :=
    { entry with
      role := role.or entry.role
      connected := connected
      trusted := trusted.getD entry.trusted
      lastSeen := now₁ }
  ({ ws with peerRegistry := ws.peerRegistry.insert peerId entry }).syncGhostFromRegistry.bump now₂

def setPeerRole (now₁ now₂ : UInt64) (peerId role : String) : WorldState :=
  let entry := ws.peerRegistry[peerId]?
  ws.upsertPeerState now₁ now₂ peerId (some role) ((entry.map connected).getD false)
    (entry.map trusted)

def setPeerConnected (now₁ now₂ : UInt64) (peerId : String) (connected : Bool) : WorldState :=
  let entry := ws.peerRegistry[peerId]?
  ws.upsertPeerState now₁ now₂ peerId (entry.bind PeerState.role) connected
    (entry.map trusted)

def setPeerTrusted (now₁ now₂ : UInt64) (peerId : String) (trusted : Bool) : WorldState :=
  let entry := ws.peerRegistry[peerId]?
  ws.upsertPeerState now₁ now₂ peerId (entry.bind PeerState.role)
    ((entry.map connected).getD false) (some trusted)

def addRoute (now : UInt64) (peerId via : String) : WorldState :=
  ({ ws with
    peerRegistry := ws.peerRegistry.modify peerId fun p =>
      { p with routes := insert via p.routes } }).syncGhostFromRegistry.bump now

def removeRoute (now : UInt64) (peerId via : String) : WorldState :=
  ({ ws with
    peerRegistry := ws.peerRegistry.modify peerId fun p =>
      { p with routes := p.routes.erase via } }).syncGhostFromRegistry.bump now

def markPeerActivated (peerId : String) : WorldState :=
  { ws with activatedPeers := ws.activatedPeers.insert peerId true }

/-- Keep a certificate in a peer's entry, if it has one. -/
def setActivationCert (peerId : String) (cert : List UInt8) : WorldState :=
  { ws with
    peerRegistry := ws.peerRegistry.modify peerId fun p => { p with activationCert := some cert } }

/-- Whether a peer is activated: its flag is set, and its entry holds a certificate. -/
def isPeerActivated (peerId : String) : Bool :=
  (ws.activatedPeers[peerId]?).getD false &&
    ((ws.peerRegistry[peerId]?).map fun p => p.activationCert.isSome).getD false

def certOf (peerId : String) : Option (List UInt8) :=
  (ws.peerRegistry[peerId]?).bind activationCert

def isConnected (peerId : String) : Bool :=
  ((ws.peerRegistry[peerId]?).map connected).getD false

theorem isPeerActivated_of_flag {peerId : String} (h : ws.activatedPeers[peerId]? = some true) :
    ws.isPeerActivated peerId = (ws.certOf peerId).isSome := by
  unfold isPeerActivated certOf
  rw [h, Option.getD_some, Bool.true_and]
  cases ws.peerRegistry[peerId]? with
  | none => rfl
  | some p => rfl

@[simp] theorem certOf_markPeerActivated :
    (ws.markPeerActivated flagged).certOf peerId = ws.certOf peerId := rfl

theorem certOf_setActivationCert (cert : List UInt8) (peerId : String) :
    (ws.setActivationCert target cert).certOf peerId
      = if target = peerId then (ws.peerRegistry[peerId]?).map fun _ => cert
        else ws.certOf peerId := by
  unfold certOf setActivationCert
  dsimp only
  rw [FinMap.find_modify]
  by_cases htarget : target = peerId
  · rw [if_pos htarget, if_pos htarget]
    cases ws.peerRegistry[peerId]? <;> rfl
  · rw [if_neg htarget, if_neg htarget]

theorem certOf_setPeerRole (peerId : String) :
    (ws.setPeerRole now₁ now₂ target role).certOf peerId = ws.certOf peerId := by
  have hregistry : (ws.setPeerRole now₁ now₂ target role).peerRegistry
      = ws.peerRegistry.insert target
        { (ws.peerRegistry[target]?).getD { peerId := target, lastSeen := now₁ } with
          role := some role
          connected := ((ws.peerRegistry[target]?).map connected).getD false
          trusted := ((ws.peerRegistry[target]?).map trusted).getD
            ((ws.peerRegistry[target]?).getD { peerId := target, lastSeen := now₁ }).trusted
          lastSeen := now₁ } := rfl
  unfold certOf
  rw [hregistry, FinMap.find_insert]
  by_cases htarget : target = peerId
  · -- A new entry has no certificate, and an old one keeps its own.
    rw [if_pos htarget, htarget]
    cases ws.peerRegistry[peerId]? <;> rfl
  · rw [if_neg htarget]

theorem setPeerRole_activatedPeers :
    (ws.setPeerRole now₁ now₂ peerId role).activatedPeers = ws.activatedPeers := rfl

/-- Setting a role moves the revision on, so the state is another one, whatever
    flags were set before. -/
theorem setPeerRole_ne (flagged : String) :
    (ws.markPeerActivated flagged).setPeerRole now₁ now₂ peerId role ≠ ws := by
  intro h
  have hrev : ws.revision + 1 = ws.revision := congrArg WorldState.revision h
  -- A 64-bit word differs from its successor, also when that wraps to zero.
  have hnat := congrArg UInt64.toNat hrev
  rw [UInt64.toNat_add, UInt64.toNat_one] at hnat
  have hlt := ws.revision.toNat_lt
  omega

/-! ### What is seen of an entry -/

/-- A peer's routes, and whether it is connected and trusted. -/
def look (peer : String) : Option (Finset String × Bool × Bool) :=
  ws.peerRegistry[peer]?.map fun p => (p.routes, p.connected, p.trusted)

variable (peer p : String) (now₁ now₂ : UInt64)

/-- An entry as it is read, with that of an unknown peer. -/
def seen : Finset String × Bool × Bool := (ws.look peer).getD (∅, false, false)

theorem isConnected_eq : ws.isConnected peer = (ws.seen peer).2.1 := by
  unfold isConnected seen look
  cases ws.peerRegistry[peer]? <;> rfl

theorem look_upsertPeerState (role : Option String) (connected : Bool) (trusted : Option Bool) :
    (ws.upsertPeerState now₁ now₂ peer role connected trusted).look p
      = if peer = p then
          some ((ws.seen peer).1, connected, trusted.getD (ws.seen peer).2.2)
        else ws.look p := by
  unfold look seen look upsertPeerState
  change ((ws.peerRegistry.insert peer _)[p]?).map _ = _
  rw [FinMap.find_insert]
  split
  · cases ws.peerRegistry[peer]? <;> rfl
  · rfl

theorem look_setPeerConnected (connected : Bool) :
    (ws.setPeerConnected now₁ now₂ peer connected).look p
      = if peer = p then some ((ws.seen peer).1, connected, (ws.seen peer).2.2) else ws.look p := by
  rw [setPeerConnected, look_upsertPeerState]
  unfold seen look
  cases ws.peerRegistry[peer]? <;> rfl

theorem look_setPeerTrusted (trusted : Bool) :
    (ws.setPeerTrusted now₁ now₂ peer trusted).look p
      = if peer = p then some ((ws.seen peer).1, (ws.seen peer).2.1, trusted) else ws.look p := by
  rw [setPeerTrusted, look_upsertPeerState]
  unfold seen look
  cases ws.peerRegistry[peer]? <;> rfl

theorem look_addRoute (via : String) : (ws.addRoute now₁ peer via).look p
    = if peer = p then (ws.look p).map fun (r, c, t) => (insert via r, c, t) else ws.look p := by
  unfold look addRoute
  change ((ws.peerRegistry.modify peer _)[p]?).map _ = _
  rw [FinMap.find_modify]
  split
  · simp [Function.comp_def]
  · rfl

theorem look_removeRoute (via : String) : (ws.removeRoute now₁ peer via).look p
    = if peer = p then (ws.look p).map fun (r, c, t) => (r.erase via, c, t) else ws.look p := by
  unfold look removeRoute
  change ((ws.peerRegistry.modify peer _)[p]?).map _ = _
  rw [FinMap.find_modify]
  split
  · simp [Function.comp_def]
  · rfl

end WorldState

end EssNode
