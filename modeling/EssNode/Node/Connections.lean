import EssNode.Node.Controller
import EssNode.Onboarding.Registry
import EssNode.Security.Messages
import EssNode.Security.Staging

/-!
# Connections of a Peer

What the three swarm events that come with a connection write: the counter of open
connections, and the flag of a peer in the world state.

A connection that is established counts one up and sets the flag; if the peer is then
refused, both are taken back. A closed connection counts one down. An identify event
sets the flag.

The counter is exact for a peer that is permitted. The flag is not: closing a connection
clears it without asking the counter, so a peer with two connections of which one is
closed is marked as gone. `connection_bookkeeping_iff` says that this is the only way for
the two to disagree.

The reports to the dashboard, the events to the control loop that come with a
connection, the addresses handed to the swarm, and the onboarding request sent to a new
peer are left out.
-/

namespace EssNode

open Authority Crdt Option SecurityRuntime Std.ExtTreeMap WorldState

/-! ### The counter -/

def incConnectionCount (counts : FinMap String Nat) (peer : String) : FinMap String Nat :=
  counts.insert peer ((counts[peer]?).getD 0 + 1)

def decConnectionCount (counts : FinMap String Nat) (peer : String) : FinMap String Nat :=
  match counts[peer]? with
  -- The last connection takes the entry with it.
  | some count => if 1 < count then counts.insert peer (count - 1) else counts.erase peer
  | none => counts.erase peer

/-- The count of a peer, none reading as zero. -/
def connectionCount (counts : FinMap String Nat) (peer : String) : Nat := (counts[peer]?).getD 0

theorem connectionCount_inc (counts : FinMap String Nat) (target peer : String) :
    connectionCount (incConnectionCount counts target) peer
      = if target = peer then connectionCount counts peer + 1 else connectionCount counts peer := by
  unfold connectionCount incConnectionCount
  rw [FinMap.find_insert]
  by_cases htarget : target = peer
  · rw [if_pos htarget, if_pos htarget, htarget, getD_some]
  · rw [if_neg htarget, if_neg htarget]

theorem connectionCount_dec (counts : FinMap String Nat) (target peer : String) :
    connectionCount (decConnectionCount counts target) peer
      = if target = peer then connectionCount counts peer - 1 else connectionCount counts peer := by
  unfold connectionCount decConnectionCount
  by_cases htarget : target = peer
  · subst htarget
    rw [if_pos rfl]
    cases hcount : counts[target]? with
    | none =>
      dsimp only
      rw [FinMap.find_erase, if_pos rfl]
      rfl
    | some count =>
      dsimp only
      by_cases hmany : 1 < count
      · rw [if_pos hmany, FinMap.find_insert, if_pos rfl]
        rfl
      · rw [if_neg hmany, FinMap.find_erase, if_pos rfl, getD_none, getD_some]
        omega
  · rw [if_neg htarget]
    cases counts[target]? with
    | none =>
      dsimp only
      rw [FinMap.find_erase, if_neg htarget]
    | some count =>
      dsimp only
      split
      · rw [FinMap.find_insert, if_neg htarget]
      · rw [FinMap.find_erase, if_neg htarget]

/-! ### Whether a peer may connect -/

/-- What the decision about a peer reads is kept, and the list of allowed peers only
    grows. -/
structure GateKept (n m : Node) : Prop where
  reputation : m.reputation = n.reputation
  securityAttached : m.securityAttached = n.securityAttached
  authority : m.authority = n.authority
  runtimeAuthority : m.security.authority = n.security.authority
  allowedActions : m.security.allowedActions = n.security.allowedActions
  allowedPeers : n.security.allowedPeers ⊆ m.security.allowedPeers

theorem GateKept.trans {n m k : Node} (h : GateKept n m) (h' : GateKept m k) : GateKept n k where
  reputation := h'.reputation.trans h.reputation
  securityAttached := h'.securityAttached.trans h.securityAttached
  authority := h'.authority.trans h.authority
  runtimeAuthority := h'.runtimeAuthority.trans h.runtimeAuthority
  allowedActions := h'.allowedActions.trans h.allowedActions
  allowedPeers := h.allowedPeers.trans h'.allowedPeers

namespace Node

variable (n : Node)

/-- Whether a peer may connect: the policy decision, and the runtime's list of peers. -/
def enforcePeer (peer : String) : Node × Bool :=
  let decided := n.enforce peer .connect
  if !decided.2 then (decided.1, false)
  else if n.securityAttached && !(n.security.verifyPeer peer).isOk then (decided.1, false)
  else (decided.1, true)

theorem enforcePeer_fst (peer : String) :
    (n.enforcePeer peer).1 = (n.enforce peer .connect).1 := by
  unfold enforcePeer
  dsimp only
  split
  · rfl
  split <;> rfl

theorem enforcePeer_gateKept (peer : String) : GateKept n (n.enforcePeer peer).1 := by
  rw [enforcePeer_fst, n.enforce_eq peer .connect]
  exact ⟨rfl, rfl, rfl, rfl, rfl, Finset.Subset.refl _⟩

theorem enforcePeer_worldState (peer : String) :
    (n.enforcePeer peer).1.worldState = n.worldState := by
  rw [enforcePeer_fst]
  exact (n.enforce_sameData peer .connect).worldState

variable {n}

theorem enforce_snd_of_gateKept {m : Node} (h : GateKept n m) (peer : String) (action : Action) :
    (m.enforce peer action).2 = (n.enforce peer action).2 := by
  have hquarantine : m.isQuarantined peer = n.isQuarantined peer := by
    rw [isQuarantined, isQuarantined, h.reputation]
  have haccess : m.security.verifyAccess action.lowerName
      = n.security.verifyAccess action.lowerName := by
    rw [verifyAccess, verifyAccess, h.allowedActions]
  have hallowed : m.security.isAllowed peer action = n.security.isAllowed peer action := by
    rw [isAllowed, isAllowed, h.runtimeAuthority]
  unfold enforce
  rw [hquarantine, haccess, hallowed, h.securityAttached, h.authority]
  split
  · rfl
  split
  · rfl
  split
  · rfl
  split
  · split <;> rfl
  · rfl

theorem enforcePeer_eq_true_iff (n : Node) (peer : String) :
    (n.enforcePeer peer).2 = true ↔
      (n.enforce peer .connect).2 = true ∧
        (n.securityAttached = true → n.security.verifyPeer peer = .ok ()) := by
  unfold enforcePeer
  dsimp only
  cases (n.enforce peer .connect).2 <;> cases n.securityAttached <;>
    cases n.security.verifyPeer peer <;> simp [Except.isOk, Except.toBool]

theorem enforcePeer_of_gateKept {m : Node} (h : GateKept n m) {peer : String}
    (hpermitted : (n.enforcePeer peer).2 = true) : (m.enforcePeer peer).2 = true := by
  rw [enforcePeer_eq_true_iff] at hpermitted ⊢
  refine ⟨(enforce_snd_of_gateKept h peer .connect).trans hpermitted.1, fun hattached => ?_⟩
  have hverified := hpermitted.2 (h.securityAttached.symm.trans hattached)
  rw [verifyPeer_eq_ok_iff] at hverified ⊢
  refine hverified.imp (fun hlisted => h.allowedPeers hlisted) fun hallowed => ?_
  rw [isAllowed, h.runtimeAuthority]
  exact hallowed

end Node

/-! ### The handlers -/

/-- The part of the network runtime's state that follows the connections. -/
structure RuntimeState where
  knownPeers : Finset String
  connectedCounts : FinMap String Nat

/-- A node with its network runtime. -/
structure NetworkRuntime where
  node : Node
  runtime : RuntimeState

/-- What the handlers take from other crates: signatures, JSON, and the replicated
    state's hashes and floats. -/
structure NetworkEnv where
  crypto : Crypto
  bundleFromJson : String → Except String ConfigBundle
  crdt : CrdtEnv

/-- The role a peer is entered with. -/
def WorldState.connectionRole (ws : WorldState) (peer : String) : String :=
  if peer ∈ ws.supernodes then "supernode" else "peer"

/-- Enter a connected peer in the world state and in the replicated state. A peer seen
    before keeps its trust. -/
def Node.enterPeer (n : Node) (env : NetworkEnv) (clock : Nat → UInt64) (peer : String)
    (ws : WorldState) : Node :=
  let role := ws.connectionRole peer
  let currentTrusted := (ws.peerRegistry[peer]?).map PeerState.trusted
  let n := n.updateWorldState fun ws =>
    ws.upsertPeerState (clock 0) (clock 1) peer (some role) true (currentTrusted.or (some false))
  { n with
    crdtWorld := n.crdtWorld.map fun crdt =>
      crdt.updatePeer env.crdt peer role true false (clock 2).toNat (clock 3).toNat
        (clock 4).toNat }

/-- Ask a peer for its configuration. What comes back, if anything does, is checked, and
    the bundle in it is applied. -/
def Node.sendConfigSync (n : Node) (env : NetworkEnv) (clock : Nat → UInt64) (peer : String)
    (response : Option ConfigResponse) : Node :=
  match response with
  | none => n
  | some resp =>
    let checked := n.security.verifyConfigResponse env.crypto (clock 2) (clock 3) n.localPeerId
      peer env.bundleFromJson resp
    match checked.2 with
    | .ok bundle => { n with security := (checked.1.applyBundle bundle).1 }
    | .error _ => { n with security := checked.1 }

namespace NetworkRuntime

variable (net : NetworkRuntime)

/-- A node with a world state knows itself. -/
def syncWithWorld : NetworkRuntime :=
  match net.node.worldState with
  | some _ =>
    { net with
      runtime :=
        { net.runtime with
          knownPeers := insert net.node.localPeerId net.runtime.knownPeers } }
  | none => net

/-- Note a new connection in the runtime's state. -/
def countConnection (peer : String) : NetworkRuntime :=
  { net with
    runtime :=
      { knownPeers := insert peer net.runtime.knownPeers
        connectedCounts := incConnectionCount net.runtime.connectedCounts peer } }

/-- Take a connection off the count. -/
def uncountConnection (peer : String) : NetworkRuntime :=
  { net with
    runtime :=
      { net.runtime with
        connectedCounts := decConnectionCount net.runtime.connectedCounts peer } }

/-- A connection is established. It is counted and entered before the peer is asked
    for, and a refusal takes both back. -/
def connectionEstablished (env : NetworkEnv) (clock : Nat → UInt64) (peer : String) :
    NetworkRuntime :=
  let net := net.countConnection peer
  match net.node.worldState with
  | none => net.syncWithWorld
  | some ws =>
    let decided := (net.node.enterPeer env clock peer ws).enforcePeer peer
    if !decided.2 then
      -- The connection itself is not closed, so its close still comes.
      let net := net.uncountConnection peer
      { net with
        node := decided.1.updateWorldState
          (·.setPeerConnected (clock 5) (clock 6) peer false) }
    else
      ({ net with
        node := decided.1.updateWorldState (·.addRoute (clock 5) peer peer) }).syncWithWorld

/-- A connection is closed. The flag is cleared without asking whether the peer has
    other connections. -/
def connectionClosed (clock : Nat → UInt64) (peer : String) : NetworkRuntime :=
  let net := net.uncountConnection peer
  match net.node.worldState with
  | none => net.syncWithWorld
  | some _ =>
    ({ net with
      node := net.node.updateWorldState fun ws =>
        ((ws.setPeerConnected (clock 0) (clock 1) peer false).setPeerTrusted (clock 2) (clock 3)
          peer false).removeRoute (clock 4) peer peer }).syncWithWorld

/-- An identify event: its key is filed, the peer is entered as connected and asked for
    its configuration. -/
def identifyReceived (env : NetworkEnv) (clock : Nat → UInt64) (peer : String)
    (publicKey : PublicKey) (response : Option ConfigResponse) : NetworkRuntime :=
  let node :=
    { net.node with security := net.node.security.registerPeerPublicKey peer publicKey }
  let node := node.updateWorldState fun ws =>
    ws.upsertPeerState (clock 0) (clock 1) peer (some (ws.connectionRole peer)) true none
  { net with node := node.sendConfigSync env clock peer response }

end NetworkRuntime

/-- What happens to the connections of a peer. -/
inductive SwarmEvent where
  | connectionEstablished (peer : String)
  | connectionClosed (peer : String)
  | identifyReceived (peer : String) (publicKey : PublicKey) (response : Option ConfigResponse)

namespace SwarmEvent

def peer : SwarmEvent → String
  | connectionEstablished peer => peer
  | connectionClosed peer => peer
  | identifyReceived peer _ _ => peer

def tally : SwarmEvent → Nat → Nat
  | connectionEstablished _, count => count + 1
  | connectionClosed _, count => count - 1
  | identifyReceived _ _ _, count => count

/-- The flag an event leaves. -/
def connects : SwarmEvent → Bool
  | connectionEstablished _ => true
  | connectionClosed _ => false
  | identifyReceived _ _ _ => true

/-- Whether an event happens on a connection that is open already. -/
def OnConnection : SwarmEvent → Prop
  | connectionEstablished _ => False
  | connectionClosed _ => True
  | identifyReceived _ _ _ => True

/-- What an event does to the entry of its peer. -/
def effect (permitted : Bool) :
    SwarmEvent → Finset String × Bool × Bool → Finset String × Bool × Bool
  | connectionEstablished peer, (routes, _, trusted) =>
    if permitted then (insert peer routes, true, trusted) else (routes, false, trusted)
  | connectionClosed peer, (routes, _, _) => (routes.erase peer, false, false)
  | identifyReceived _ _ _, (routes, _, trusted) => (routes, true, trusted)

end SwarmEvent

/-- An event with the clock readings its handler makes. -/
structure NetworkEvent where
  event : SwarmEvent
  clock : Nat → UInt64

def openConnections (peer : String) (events : List NetworkEvent) : Nat :=
  events.foldl (fun count e => if e.event.peer = peer then e.event.tally count else count) 0

theorem openConnections_concat (peer : String) (events : List NetworkEvent) (e : NetworkEvent) :
    openConnections peer (events ++ [e])
      = if e.event.peer = peer then e.event.tally (openConnections peer events)
        else openConnections peer events := by
  unfold openConnections
  rw [List.foldl_append]
  rfl

/-- A run in which a connection is closed after it was established, and a peer identifies
    itself while it has one. -/
def WellFormed (events : List NetworkEvent) : Prop :=
  ∀ before e, before ++ [e] <+: events → e.event.OnConnection →
    0 < openConnections e.event.peer before

namespace NetworkRuntime

variable (net : NetworkRuntime) (n : Node) (env : NetworkEnv) (e : NetworkEvent)
  (clock : Nat → UInt64) (peer : String) (response : Option ConfigResponse) {ws : WorldState}

def handleEvent (env : NetworkEnv) (e : NetworkEvent) : NetworkRuntime :=
  match e.event with
  | .connectionEstablished peer => net.connectionEstablished env e.clock peer
  | .connectionClosed peer => net.connectionClosed e.clock peer
  | .identifyReceived peer publicKey response =>
    net.identifyReceived env e.clock peer publicKey response

def after (env : NetworkEnv) (events : List NetworkEvent) : NetworkRuntime :=
  events.foldl (fun net e => net.handleEvent env e) net

def isConnected (peer : String) : Bool :=
  (net.node.worldState.map (·.isConnected peer)).getD false

def Permits (peer : String) : Prop := (net.node.enforcePeer peer).2 = true

/-! ### One event -/

theorem after_concat (events : List NetworkEvent) (e : NetworkEvent) :
    net.after env (events ++ [e]) = (net.after env events).handleEvent env e := by
  unfold after
  rw [List.foldl_append]
  rfl

theorem syncWithWorld_node : net.syncWithWorld.node = net.node := by
  unfold syncWithWorld
  split <;> rfl

theorem syncWithWorld_connectedCounts :
    net.syncWithWorld.runtime.connectedCounts = net.runtime.connectedCounts := by
  unfold syncWithWorld
  split <;> rfl

/-- Everything that an established connection can lead to, at a node with a world
    state. -/
theorem connectionEstablished_cases (env : NetworkEnv) (clock : Nat → UInt64) (peer : String)
    {ws : WorldState} (hworld : net.node.worldState = some ws) :
    let entered := net.node.enterPeer env clock peer ws
    let net' := net.connectionEstablished env clock peer
    ((entered.enforcePeer peer).2 = true ∧
      net'.node = (entered.enforcePeer peer).1.updateWorldState (·.addRoute (clock 5) peer peer) ∧
      net'.runtime.connectedCounts = incConnectionCount net.runtime.connectedCounts peer) ∨
    ((entered.enforcePeer peer).2 = false ∧
      net'.node = (entered.enforcePeer peer).1.updateWorldState
        (·.setPeerConnected (clock 5) (clock 6) peer false) ∧
      net'.runtime.connectedCounts
        = decConnectionCount (incConnectionCount net.runtime.connectedCounts peer) peer) := by
  intro entered net'
  have hnet : net' = if !(entered.enforcePeer peer).2 then
      { (net.countConnection peer).uncountConnection peer with
        node := (entered.enforcePeer peer).1.updateWorldState
          (·.setPeerConnected (clock 5) (clock 6) peer false) }
    else
      ({ net.countConnection peer with
        node := (entered.enforcePeer peer).1.updateWorldState
          (·.addRoute (clock 5) peer peer) }).syncWithWorld := by
    change connectionEstablished net env clock peer = _
    unfold connectionEstablished
    dsimp only
    rw [show (net.countConnection peer).node.worldState = some ws from hworld]
    rfl
  cases hdecided : (entered.enforcePeer peer).2 with
  | true =>
    rw [hdecided, Bool.not_true, if_neg Bool.false_ne_true] at hnet
    rw [hnet, syncWithWorld_node, syncWithWorld_connectedCounts]
    exact Or.inl ⟨rfl, rfl, rfl⟩
  | false =>
    rw [hdecided, Bool.not_false, if_pos rfl] at hnet
    rw [hnet]
    exact Or.inr ⟨rfl, rfl, rfl⟩

theorem connectionClosed_node (hworld : net.node.worldState = some ws) :
    (net.connectionClosed clock peer).node = net.node.updateWorldState fun ws =>
      ((ws.setPeerConnected (clock 0) (clock 1) peer false).setPeerTrusted (clock 2) (clock 3)
        peer false).removeRoute (clock 4) peer peer := by
  unfold connectionClosed
  dsimp only
  rw [show (net.uncountConnection peer).node.worldState = some ws from hworld]
  exact syncWithWorld_node _

theorem connectionClosed_connectedCounts :
    (net.connectionClosed clock peer).runtime.connectedCounts
      = decConnectionCount net.runtime.connectedCounts peer := by
  unfold connectionClosed
  dsimp only
  split
  · exact syncWithWorld_connectedCounts _
  · exact syncWithWorld_connectedCounts _

theorem updateWorldState_gateKept (f : WorldState → WorldState) :
    GateKept n (n.updateWorldState f) :=
  ⟨rfl, rfl, rfl, rfl, rfl, Finset.Subset.refl _⟩

theorem enterPeer_gateKept (ws : WorldState) : GateKept n (n.enterPeer env clock peer ws) :=
  ⟨rfl, rfl, rfl, rfl, rfl, Finset.Subset.refl _⟩

theorem not_permits_of_refused {env : NetworkEnv} {clock : Nat → UInt64} {target : String}
    {ws : WorldState}
    (hrefused : ((net.node.enterPeer env clock target ws).enforcePeer target).2 = false) :
    ¬ net.Permits target := by
  intro hpermits
  have hentered := Node.enforcePeer_of_gateKept
    (enterPeer_gateKept net.node env clock target ws) hpermits
  rw [hrefused] at hentered
  exact Bool.false_ne_true hentered

theorem sendConfigSync_gateKept : GateKept n (n.sendConfigSync env clock peer response) := by
  cases response with
  | none => exact ⟨rfl, rfl, rfl, rfl, rfl, Finset.Subset.refl _⟩
  | some resp =>
    have hkeys : SecurityRuntime.SameKeys n.security (n.security.verifyConfigResponse env.crypto
        (clock 2) (clock 3) n.localPeerId peer env.bundleFromJson resp).1 :=
      checkCommon_sameKeys ..
    unfold Node.sendConfigSync
    dsimp only
    unfold SecurityRuntime.SameKeys at hkeys
    split
    · rw [hkeys]
      refine ⟨rfl, rfl, rfl, rfl, rfl, fun known hknown => ?_⟩
      exact (mem_foldl_insert _ _ known).mpr (Or.inl hknown)
    · rw [hkeys]
      exact ⟨rfl, rfl, rfl, rfl, rfl, Finset.Subset.refl _⟩

theorem handleEvent_gateKept (hworld : net.node.worldState = some ws) :
    GateKept net.node (net.handleEvent env e).node := by
  unfold handleEvent
  cases e.event with
  | connectionEstablished target =>
    have hentered := (enterPeer_gateKept net.node env e.clock target ws).trans
      (Node.enforcePeer_gateKept _ target)
    rcases net.connectionEstablished_cases env e.clock target hworld with
      ⟨-, hnode, -⟩ | ⟨-, hnode, -⟩
    · dsimp only
      rw [hnode]
      exact hentered.trans (updateWorldState_gateKept _ _)
    · dsimp only
      rw [hnode]
      exact hentered.trans (updateWorldState_gateKept _ _)
  | connectionClosed target =>
    dsimp only
    rw [net.connectionClosed_node e.clock target hworld]
    exact updateWorldState_gateKept _ _
  | identifyReceived target publicKey response =>
    have hfiled : GateKept net.node
        { net.node with
          security := net.node.security.registerPeerPublicKey target publicKey } :=
      ⟨rfl, rfl, rfl, rfl, rfl, Finset.Subset.refl _⟩
    exact (hfiled.trans (updateWorldState_gateKept _ _)).trans (sendConfigSync_gateKept ..)

theorem connectionCount_handleEvent (hworld : net.node.worldState = some ws) {peer : String}
    (hpermits : net.Permits peer) :
    connectionCount (net.handleEvent env e).runtime.connectedCounts peer
      = if e.event.peer = peer then
          e.event.tally (connectionCount net.runtime.connectedCounts peer)
        else connectionCount net.runtime.connectedCounts peer := by
  unfold handleEvent
  cases e.event with
  | connectionEstablished target =>
    change _ = if target = peer then connectionCount net.runtime.connectedCounts peer + 1 else _
    dsimp only
    rcases net.connectionEstablished_cases env e.clock target hworld with
      ⟨-, -, hcounts⟩ | ⟨hrefused, -, hcounts⟩
    · rw [hcounts, connectionCount_inc]
    · rw [hcounts, connectionCount_dec, connectionCount_inc]
      by_cases htarget : target = peer
      · exact absurd (htarget ▸ hpermits) (net.not_permits_of_refused hrefused)
      · rw [if_neg htarget]
  | connectionClosed target =>
    change _ = if target = peer then connectionCount net.runtime.connectedCounts peer - 1 else _
    dsimp only
    rw [connectionClosed_connectedCounts, connectionCount_dec]
  | identifyReceived target publicKey response =>
    exact (ite_self _).symm

theorem sendConfigSync_worldState :
    (n.sendConfigSync env clock peer response).worldState = n.worldState := by
  unfold Node.sendConfigSync
  split
  · rfl
  · dsimp only
    split <;> rfl

open SwarmEvent

/-- An event changes the entry of its peer, and no other. -/
theorem look_handleEvent (hworld : net.node.worldState = some ws) :
    ∃ ws', (net.handleEvent env e).node.worldState = some ws' ∧ ∀ p, ws'.look p
      = if e.event.peer = p then
          some (e.event.effect (net.node.enforcePeer e.event.peer).2 (ws.seen p))
        else ws.look p := by
  unfold handleEvent
  cases e.event with
  | connectionEstablished target =>
    have hentered : (net.node.enterPeer env e.clock target ws).worldState
        = some (ws.upsertPeerState (e.clock 0) (e.clock 1) target (some (ws.connectionRole target))
          true (((ws.peerRegistry[target]?).map PeerState.trusted).or (some false))) := by
      unfold Node.enterPeer Node.updateWorldState
      dsimp only
      rw [hworld]
      rfl
    -- Entering the peer changes nothing that the decision reads.
    have hback : GateKept (net.node.enterPeer env e.clock target ws) net.node :=
      ⟨rfl, rfl, rfl, rfl, rfl, Finset.Subset.refl _⟩
    have hdecided : ((net.node.enterPeer env e.clock target ws).enforcePeer target).2
        = (net.node.enforcePeer target).2 :=
      Bool.eq_iff_iff.mpr ⟨Node.enforcePeer_of_gateKept hback,
        Node.enforcePeer_of_gateKept (enterPeer_gateKept net.node env e.clock target ws)⟩
    have htrusted : ((ws.peerRegistry[target]?).map PeerState.trusted).getD false
        = ((ws.look target).getD (∅, false, false)).2.2 := by
      unfold look
      cases ws.peerRegistry[target]? <;> rfl
    dsimp only [peer]
    rcases net.connectionEstablished_cases env e.clock target hworld with
      ⟨hsome, hnode, -⟩ | ⟨hsome, hnode, -⟩ <;>
    · rw [hnode]
      refine ⟨_, congrArg (Option.map _) ((Node.enforcePeer_worldState _ target).trans hentered),
        fun p => ?_⟩
      rw [← hdecided, hsome]
      by_cases htarget : target = p
      · subst htarget
        simp [look_addRoute, look_setPeerConnected, effect,
          look_upsertPeerState, htrusted, seen]
      · simp [look_addRoute, look_setPeerConnected,
          look_upsertPeerState, htarget]
  | connectionClosed target =>
    dsimp only
    rw [net.connectionClosed_node e.clock target hworld]
    refine ⟨_, congrArg (Option.map _) hworld, fun p => ?_⟩
    rw [look_removeRoute, look_setPeerTrusted,
      look_setPeerConnected]
    by_cases htarget : target = p
    · subst htarget
      simp [peer, effect, seen, look_setPeerConnected]
    · simp [peer, htarget]
  | identifyReceived target publicKey response =>
    refine ⟨_, (sendConfigSync_worldState ..).trans (congrArg (Option.map _) hworld), fun p => ?_⟩
    rw [look_upsertPeerState]
    by_cases htarget : target = p
    · subst htarget
      simp [peer, effect]
    · simp [peer, htarget]

theorem isConnected_handleEvent (hworld : net.node.worldState = some ws) :
    ∃ ws', (net.handleEvent env e).node.worldState = some ws' ∧
      ∀ peer, net.Permits peer →
        ws'.isConnected peer
          = if e.event.peer = peer then e.event.connects else ws.isConnected peer := by
  obtain ⟨ws', hworld', hlook⟩ := net.look_handleEvent env e hworld
  refine ⟨ws', hworld', fun peer hpermits => ?_⟩
  rw [isConnected_eq, isConnected_eq, seen, hlook]
  split
  · rename_i hpeer
    subst hpeer
    rw [show (net.node.enforcePeer e.event.peer).2 = true from hpermits]
    cases e.event <;> rfl
  · rfl

/-! ### Runs -/

theorem after_kept (hworld : net.node.worldState = some ws) (events : List NetworkEvent) :
    (∃ ws', (net.after env events).node.worldState = some ws') ∧
      GateKept net.node (net.after env events).node := by
  induction events using List.reverseRecOn with
  | nil => exact ⟨⟨ws, hworld⟩, rfl, rfl, rfl, rfl, rfl, Finset.Subset.refl _⟩
  | append_singleton events e ih =>
    -- The two go together: an event is described only for a node with a world state.
    rcases ih with ⟨⟨ws', hworld'⟩, hgate⟩
    rw [after_concat]
    rcases (net.after env events).isConnected_handleEvent env e hworld' with ⟨ws'', hworld'', -⟩
    exact ⟨⟨ws'', hworld''⟩, hgate.trans (handleEvent_gateKept _ env e hworld')⟩

variable {net} {ws : WorldState} {peer : String}

theorem permits_after (env : NetworkEnv) (hworld : net.node.worldState = some ws)
    (hpermits : net.Permits peer) (events : List NetworkEvent) :
    (net.after env events).Permits peer :=
  Node.enforcePeer_of_gateKept (net.after_kept env hworld events).2 hpermits

theorem connectionCount_after (env : NetworkEnv) (hworld : net.node.worldState = some ws)
    (hpermits : net.Permits peer)
    (hcount : connectionCount net.runtime.connectedCounts peer = 0)
    (events : List NetworkEvent) :
    connectionCount (net.after env events).runtime.connectedCounts peer
      = openConnections peer events := by
  induction events using List.reverseRecOn with
  | nil => exact hcount
  | append_singleton events e ih =>
    rcases (net.after_kept env hworld events).1 with ⟨ws', hworld'⟩
    rw [after_concat, openConnections_concat, ← ih]
    exact connectionCount_handleEvent _ env e hworld' (permits_after env hworld hpermits events)

theorem isConnected_after_concat (env : NetworkEnv) (hworld : net.node.worldState = some ws)
    (hpermits : net.Permits peer) (events : List NetworkEvent) (e : NetworkEvent) :
    (net.after env (events ++ [e])).isConnected peer
      = if e.event.peer = peer then e.event.connects
        else (net.after env events).isConnected peer := by
  rcases (net.after_kept env hworld events).1 with ⟨ws', hworld'⟩
  rcases (net.after env events).isConnected_handleEvent env e hworld' with
    ⟨ws'', hworld'', hflag⟩
  rw [after_concat, isConnected, isConnected, hworld'', hworld']
  exact hflag peer (permits_after env hworld hpermits events)

variable (net) in
/-- After each event of a run, a peer is marked connected exactly if it has an open
    connection. -/
def FlagExact (env : NetworkEnv) (peer : String) (events : List NetworkEvent) : Prop :=
  ∀ before, before <+: events →
    ((net.after env before).isConnected peer = true ↔ 0 < openConnections peer before)

end NetworkRuntime

/-- No connection of a peer is closed while the peer has another one. -/
def ClosesLast (peer : String) (events : List NetworkEvent) : Prop :=
  ∀ before e, before ++ [e] <+: events → e.event = .connectionClosed peer →
    openConnections peer before < 2

theorem forall_prefix_concat {P : List NetworkEvent → NetworkEvent → Prop}
    {events : List NetworkEvent} {last : NetworkEvent}
    (h : ∀ before e, before ++ [e] <+: events → P before e) (hlast : P events last) :
    ∀ before e, before ++ [e] <+: events ++ [last] → P before e := by
  intro before e hbefore
  rcases List.prefix_concat_iff.mp hbefore with heq | hearlier
  · rcases List.append_inj' heq rfl with ⟨rfl, hsingle⟩
    rw [List.singleton_inj.mp hsingle]
    exact hlast
  · exact h before e hearlier

namespace NetworkRuntime

variable {net : NetworkRuntime} {ws : WorldState} {peer : String}

/-- A flag that is exact after a close means that nothing was left open. -/
theorem closesLast_of_flagExact (env : NetworkEnv) (hworld : net.node.worldState = some ws)
    (hpermits : net.Permits peer) {events : List NetworkEvent}
    (hexact : net.FlagExact env peer events) : ClosesLast peer events := by
  intro before e hbefore hclosed
  have hflag := hexact _ hbefore
  have hpeer : e.event.peer = peer := by rw [hclosed]; rfl
  rw [isConnected_after_concat env hworld hpermits, openConnections_concat, if_pos hpeer,
    if_pos hpeer, hclosed] at hflag
  -- The close clears the flag, so there must be no connection left.
  have hnone : ¬ 0 < openConnections peer before - 1 :=
    fun hopen => Bool.false_ne_true (hflag.mpr hopen)
  omega

/-- One more event keeps the flag exact, if it does not close one connection of
    several. -/
theorem flagExact_of_closesLast (env : NetworkEnv) (hworld : net.node.worldState = some ws)
    (hpermits : net.Permits peer) (hfresh : ws.isConnected peer = false)
    {events : List NetworkEvent} (hwell : WellFormed events) (hlast : ClosesLast peer events) :
    net.FlagExact env peer events := by
  intro before
  induction before using List.reverseRecOn with
  | nil =>
    intro _
    change (net.isConnected peer = true) ↔ 0 < 0
    rw [isConnected, hworld]
    exact iff_of_false (by rw [map_some, getD_some, hfresh]; decide) (by decide)
  | append_singleton before e ih =>
    intro hbefore
    have hflag := ih ((List.prefix_append before [e]).trans hbefore)
    rw [isConnected_after_concat env hworld hpermits, openConnections_concat]
    by_cases hpeer : e.event.peer = peer
    · rw [if_pos hpeer, if_pos hpeer]
      have hopen := hwell before e hbefore
      have hclose := hlast before e hbefore
      rw [hpeer] at hopen
      cases hevent : e.event with
      | connectionEstablished target => exact iff_of_true rfl (Nat.succ_pos _)
      | connectionClosed target =>
        -- What is closed was the only connection.
        rw [hevent] at hpeer hclose
        have hone := hclose (congrArg SwarmEvent.connectionClosed hpeer)
        refine iff_of_false Bool.false_ne_true ?_
        change ¬ 0 < openConnections peer before - 1
        omega
      | identifyReceived target publicKey response =>
        rw [hevent] at hopen
        exact iff_of_true rfl (hopen trivial)
    · rw [if_neg hpeer, if_neg hpeer]
      exact hflag

/-- For a peer that may connect, the count is the number of its open connections after
    each event of a run; and it is marked connected exactly while it has one if, and only
    if, no connection of it is closed while it has another. -/
theorem connection_bookkeeping_iff (env : NetworkEnv) (hworld : net.node.worldState = some ws)
    (hpermits : net.Permits peer) (hfresh : ws.isConnected peer = false)
    (hcount : connectionCount net.runtime.connectedCounts peer = 0)
    {events : List NetworkEvent} (hwell : WellFormed events) :
    (∀ before, before <+: events →
      connectionCount (net.after env before).runtime.connectedCounts peer
        = openConnections peer before) ∧
    (net.FlagExact env peer events ↔ ClosesLast peer events) :=
  ⟨fun before _ => connectionCount_after env hworld hpermits hcount before,
    closesLast_of_flagExact env hworld hpermits,
    flagExact_of_closesLast env hworld hpermits hfresh hwell⟩

end NetworkRuntime

/-- A node that lets everyone connect and has met no one. -/
def openNetwork : NetworkRuntime where
  node :=
    { localPeerId := "node"
      security :=
        { localPeerId := "node", replayWindowSecs := 300, replaySeen := ∅, peerPublicKeys := ∅
          authority := none, allowedActions := ∅ }
      securityAttached := false
      authority := none
      reputation := ∅
      eventTx := none
      worldState := some
        { revision := 0, lastUpdated := 0, supernodes := [], peerRegistry := ∅, ghost := {}
          activatedPeers := ∅ }
      governanceEngine := .new [] (2 / 3) 0
      crdtWorld := none
      computeHandle := none
      computeStore := none
      dashboard := [] }
  runtime := { knownPeers := ∅, connectedCounts := ∅ }

theorem openNetwork_permits (peer : String) : openNetwork.Permits peer := by
  rw [NetworkRuntime.Permits, Node.enforcePeer_eq_true_iff]
  have hquarantine : openNetwork.node.isQuarantined peer = false := by
    rw [Node.isQuarantined]
    exact congrArg (fun found : Option PeerReputation =>
      (found.map PeerReputation.isQuarantined).getD false) getElem?_empty
  refine ⟨?_, fun hattached => absurd hattached Bool.false_ne_true⟩
  rw [Node.enforce, hquarantine]
  rfl

theorem openNetwork_count (peer : String) :
    connectionCount openNetwork.runtime.connectedCounts peer = 0 :=
  congrArg (·.getD 0) getElem?_empty

def SwarmEvent.atZero (event : SwarmEvent) : NetworkEvent := ⟨event, fun _ => 0⟩

def oneConnectionEach : List NetworkEvent :=
  [(SwarmEvent.connectionEstablished "alice").atZero,
    (SwarmEvent.connectionEstablished "bob").atZero,
    (SwarmEvent.connectionClosed "alice").atZero]

theorem wellFormed_nil : WellFormed [] := fun before e hbefore => by simp at hbefore

/-- The flag of a peer with one connection follows it. -/
theorem bookkeeping_oneConnectionEach :
    WellFormed oneConnectionEach ∧ openNetwork.Permits "alice" ∧
      ∀ env, openNetwork.FlagExact env "alice" oneConnectionEach := by
  have hpermits := openNetwork_permits "alice"
  have hwell : WellFormed oneConnectionEach :=
    forall_prefix_concat (forall_prefix_concat (forall_prefix_concat wellFormed_nil False.elim)
      False.elim) fun _ => by decide
  have hnone : ClosesLast "alice" [] := fun before e hbefore => by simp at hbefore
  have hlast : ClosesLast "alice" oneConnectionEach :=
    forall_prefix_concat (forall_prefix_concat (forall_prefix_concat hnone
      fun hclosed => SwarmEvent.noConfusion hclosed) fun hclosed => SwarmEvent.noConfusion hclosed)
      fun _ => by decide
  have hfresh : (∅ : FinMap String PeerState)["alice"]? = none := getElem?_empty
  refine ⟨hwell, hpermits, fun env => ?_⟩
  exact (NetworkRuntime.connection_bookkeeping_iff env rfl hpermits
    (by rw [WorldState.isConnected, hfresh]; rfl) (openNetwork_count _) hwell).2.mpr hlast

def oneOfTwoClosed : List NetworkEvent :=
  [(SwarmEvent.connectionEstablished "alice").atZero,
    (SwarmEvent.connectionEstablished "alice").atZero,
    (SwarmEvent.connectionClosed "alice").atZero]

/-- The other connection is counted, and the peer is marked as gone. -/
theorem second_connection_forgotten :
    WellFormed oneOfTwoClosed ∧ openNetwork.Permits "alice" ∧
      openConnections "alice" oneOfTwoClosed = 1 ∧
      ∀ env, connectionCount (openNetwork.after env oneOfTwoClosed).runtime.connectedCounts "alice"
          = 1 ∧
        (openNetwork.after env oneOfTwoClosed).isConnected "alice" = false := by
  have hpermits := openNetwork_permits "alice"
  refine ⟨?_, hpermits, by decide, fun env => ⟨?_, ?_⟩⟩
  · exact forall_prefix_concat (forall_prefix_concat
      (forall_prefix_concat wellFormed_nil False.elim) False.elim) fun _ => by decide
  · exact NetworkRuntime.connectionCount_after env rfl hpermits (openNetwork_count _) oneOfTwoClosed
  · exact NetworkRuntime.isConnected_after_concat env rfl hpermits
      [(SwarmEvent.connectionEstablished "alice").atZero,
        (SwarmEvent.connectionEstablished "alice").atZero] _

end EssNode
