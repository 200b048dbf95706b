import EssNode.Node.Announcements
import EssNode.Onboarding.Registry

/-!
# Onboarding Requests

How a node handles a peer's request to join, from the check of its identity to the
decision of the supernodes.

A request that passes the check sets the peer's flag at once. The node then makes a
proposal to activate the peer, announces it, signs and records its own approval, sends
it to the other supernodes and tests the quorum. A decision to approve puts a
certificate into the peer's entry. Only a flag and a certificate together make an
activated peer.

In bootstrap mode the proposal is executed as it is made. The node's own vote is then
refused, the quorum test says nothing, and no certificate is ever made: the proposal
is executed and its target is not activated, unless it had a certificate before
(`onboarded_activated_iff`).

The signing of the vote is unwrapped twice, once for the runtime and once for the
signature, and a panic there leaves what was done so far. The peer's onion key is
registered beside this and has no part in it.
-/

namespace EssNode

open Authority Bincode Governance Onboarding

namespace Onboarding

structure PeerEntry where
  peerId : String
  addr : String
deriving DecidableEq, Repr

/-- The answer to an onboarding request. -/
structure OnboardResponse where
  accepted : Bool
  reason : Option String
  knownPeers : List PeerEntry := []
deriving DecidableEq, Repr

theorem handlePeerIdentified_cases (env : RegistryEnv) (r : Readings) (g : Registry)
    (remote : String) (request : OnboardRequest) :
    ((handlePeerIdentified env r g remote request).2 = false ∧
      (handlePeerIdentified env r g remote request).1.world = g.world) ∨
    ((handlePeerIdentified env r g remote request).2 = true ∧
      (handlePeerIdentified env r g remote request).1.world
        = g.world.markPeerActivated remote) := by
  unfold handlePeerIdentified
  dsimp only
  split
  · exact Or.inl ⟨rfl, rfl⟩
  · exact Or.inr ⟨rfl, rfl⟩

end Onboarding

/-- A node with the fields of its security runtime that onboarding uses. -/
structure Host where
  node : Node
  onboarding : OnboardingState

/-- What handling an onboarding request draws: the readings of the check, those of the
    calls that follow, a random identifier and nonce, a stamp for every message to a
    supernode, and the addresses seen so far. -/
structure OnboardReadings where
  check : Onboarding.Readings
  clock : Nat → UInt64
  uuid : String
  nonce : String
  announceStamp : Nat → Stamp
  voteStamp : Nat → Stamp
  seenAddrs : List (String × List String)

structure OnboardEvent where
  peer : String
  request : OnboardRequest
  readings : OnboardReadings

/-- The first address of every other peer that was seen. -/
def OnboardEvent.knownPeers (ev : OnboardEvent) : List PeerEntry :=
  (ev.readings.seenAddrs.filter fun entry => entry.1 ≠ ev.peer).flatMap fun entry =>
    (entry.2.take 1).map fun addr => ⟨entry.1, addr⟩

/-- The identifier of the proposal that is made for the request. -/
def OnboardEvent.proposalId (ev : OnboardEvent) : String :=
  proposalIdOf (.activatePeer ev.peer) ev.peer ev.readings.uuid

/-- What comes of an onboarding request: the messages handed to `send_direct_message`,
    what the quorum test said, and the news of an activation. -/
structure OnboardOutcome where
  host : Host
  response : Option OnboardResponse := none
  sent : List (String × List UInt8) := []
  decision : Option Bool := none
  activated : Option (String × ActivationCertificate × List UInt8) := none
  panicked : Bool := false

namespace Node

variable (env : NodeEnv) (n : Node)

/-- A message to each of the other supernodes, in the request it is sent in. -/
def toSupernodes (stamps : Nat → Stamp) (kind : String) (body : List UInt8) :
    List (String × List UInt8) :=
  match n.authority with
  | none => []
  | some auth =>
    auth.supernodes.zipIdx.filterMap fun entry =>
      if entry.1 = n.localPeerId then none
      else
        (env.compute.parsePeerId entry.1).map fun snPeer =>
          let stamp := stamps entry.2
          let request := DirectRequest.plainBytes stamp.ts stamp.shortNonce n.localPeerId entry.1
            body
          (snPeer, DirectRequest.codec.serialize { request with kind := kind })

/-- The vote of the node itself, before it is signed. -/
def ownVote (rd : OnboardReadings) (pid : String) : VoteMessage where
  proposalId := pid
  voter := n.localPeerId
  approve := true
  nonce := rd.nonce
  timestamp := rd.clock 3
  signature := ""

/-- The certificate of an approved proposal, with the supernodes that approved it. -/
def certificate (pid peer : String) : ActivationCertificate where
  proposalId := pid
  target := peer
  approved := true
  signers :=
    match n.governanceEngine.getProposal pid with
    | some prop => (prop.votes.toList.filter fun v => v.2).map Prod.fst
    | none => []

/-- Test the quorum. An approved peer gets a certificate, and a decided proposal is
    executed. -/
def settle (rd : OnboardReadings) (peer pid : String) :
    Node × Option Bool × Option (String × ActivationCertificate × List UInt8) :=
  match n.governanceEngine.checkQuorum pid quorumTimeoutSecs (rd.clock 5) with
  | none => (n, none, none)
  | some true =>
    let cert := n.certificate pid peer
    let certData := (env.certJson cert).getD []
    let n := n.updateWorldState fun ws =>
      (ws.markPeerActivated peer).setActivationCert peer certData
    ({ n with governanceEngine := n.governanceEngine.markExecuted (rd.clock 6) pid },
      some true, some (peer, cert, certData))
  | some false =>
    ({ n with governanceEngine := n.governanceEngine.markExecuted (rd.clock 6) pid },
      some false, none)

end Node

namespace Host

variable (env : NodeEnv) (reg : RegistryEnv) (h : Host) (ev : OnboardEvent)

/-- The check of the request's identity, in a world state. -/
def identify (world : WorldState) : Registry × Bool :=
  handlePeerIdentified reg ev.readings.check ⟨h.node.security, h.onboarding, world⟩ ev.peer
    ev.request

/-- Propose, vote and settle, on a node whose check was passed. -/
def putForward (onboarding : OnboardingState) (n : Node) : OnboardOutcome :=
  let rd := ev.readings
  let made := n.governanceEngine.announce (rd.clock 0) (rd.clock 1) (rd.clock 2) rd.uuid
    n.localPeerId (.activatePeer ev.peer) ev.peer
  let pid := made.2.proposalId
  let n := { n with governanceEngine := made.1 }
  let announcements := n.toSupernodes env rd.announceStamp "governance.announce"
    (ProposalAnnouncement.codec.serialize made.2)
  let vote := n.ownVote rd pid
  -- Neither a missing runtime nor a failed signature is handled.
  let signed :=
    if n.securityAttached then
      (SecurityRuntime.signData env.crypto (utf8 vote.payload)).toOption
    else none
  match signed with
  | none => { host := ⟨n, onboarding⟩, sent := announcements, panicked := true }
  | some sig =>
    -- Whether the vote was recorded is not asked.
    let recorded := n.governanceEngine.recordVote (rd.clock 4) pid vote.voter vote.approve
    let n := { n with governanceEngine := recorded.1 }
    let votes := n.toSupernodes env rd.voteStamp "governance.vote"
      (VoteMessage.codec.serialize { vote with signature := sig })
    let settled := n.settle env rd ev.peer pid
    { host := ⟨settled.1, onboarding⟩
      response := some
        { accepted := true, reason := some "Awaiting governance consensus"
          knownPeers := ev.knownPeers }
      sent := announcements ++ votes
      decision := settled.2.1
      activated := settled.2.2 }

/-- An onboarding request. -/
def handleOnboard : OnboardOutcome :=
  match h.node.worldState with
  | none =>
    { host := h
      response := some { accepted := false, reason := some "WorldState not available" } }
  | some world =>
    let identified := h.identify reg ev world
    let g := identified.1
    let n := { h.node with security := g.security, worldState := some g.world }
    if identified.2 then putForward env ev g.onboarding n
    else
      { host := ⟨n, g.onboarding⟩
        response := some
          { accepted := false, reason := some "Onboarding verification failed" } }

def checked (world : WorldState) : Node :=
  { h.node with
    security := (h.identify reg ev world).1.security
    worldState := some (h.identify reg ev world).1.world }

variable {reg h ev} {world : WorldState}

theorem handleOnboard_refused (hworld : h.node.worldState = some world)
    (hrefused : (h.identify reg ev world).2 = false) :
    (h.handleOnboard env reg ev).host
        = ⟨h.checked reg ev world, (h.identify reg ev world).1.onboarding⟩ ∧
      (h.handleOnboard env reg ev).activated = none := by
  unfold handleOnboard
  rw [hworld]
  dsimp only
  rw [hrefused]
  exact ⟨rfl, rfl⟩

theorem handleOnboard_accepted (hworld : h.node.worldState = some world)
    (haccepted : (h.identify reg ev world).2 = true) :
    h.handleOnboard env reg ev
      = putForward env ev (h.identify reg ev world).1.onboarding (h.checked reg ev world) := by
  unfold handleOnboard
  rw [hworld]
  dsimp only
  rw [if_pos haccepted]
  rfl

theorem identify_world_of_accepted (haccepted : (h.identify reg ev world).2 = true) :
    (h.identify reg ev world).1.world = world.markPeerActivated ev.peer := by
  rcases handlePeerIdentified_cases reg ev.readings.check
    ⟨h.node.security, h.onboarding, world⟩ ev.peer ev.request with ⟨hno, -⟩ | ⟨-, hmarked⟩
  · rw [identify, hno] at haccepted
    exact absurd haccepted (by simp)
  · exact hmarked

end Host

section Settling

variable (env : NodeEnv) (n : Node) (rd : OnboardReadings) (peer pid : String)

/-- What the decision does: nothing without one, a certificate for the peer with an
    approval, and the proposal executed with either. -/
theorem Node.settle_cases :
    ((n.settle env rd peer pid).2.1 = none ∧ (n.settle env rd peer pid).1 = n ∧
      (n.settle env rd peer pid).2.2 = none) ∨
    ((n.settle env rd peer pid).2.1 = some true ∧
      (∃ certData, (n.settle env rd peer pid).1.worldState
        = n.worldState.map fun ws =>
            (ws.markPeerActivated peer).setActivationCert peer certData) ∧
      (∃ cert data, (n.settle env rd peer pid).2.2 = some (peer, cert, data) ∧
        cert.target = peer) ∧
      (n.settle env rd peer pid).1.governanceEngine
        = n.governanceEngine.markExecuted (rd.clock 6) pid) ∨
    ((n.settle env rd peer pid).2.1 = some false ∧
      (n.settle env rd peer pid).1.worldState = n.worldState ∧
      (n.settle env rd peer pid).2.2 = none ∧
      (n.settle env rd peer pid).1.governanceEngine
        = n.governanceEngine.markExecuted (rd.clock 6) pid) := by
  unfold settle
  split
  · exact Or.inl ⟨rfl, rfl, rfl⟩
  · exact Or.inr (Or.inl ⟨rfl, ⟨_, rfl⟩, ⟨_, _, rfl, rfl⟩, rfl⟩)
  · exact Or.inr (Or.inr ⟨rfl, rfl, rfl, rfl⟩)

end Settling

section Admitting

variable (env : NodeEnv) (ev : OnboardEvent) (onboarding : OnboardingState) (n : Node)

def Node.proposed : Node :=
  { n with
    governanceEngine := (n.governanceEngine.createProposal (ev.readings.clock 0)
      (ev.readings.clock 1) ev.readings.uuid (.activatePeer ev.peer) ev.peer).1 }

def Node.ownVoted : Node :=
  { n with
    governanceEngine := ((n.proposed ev).governanceEngine.recordVote (ev.readings.clock 4)
      ev.proposalId n.localPeerId true).1 }

/-- A node that cannot sign stops with the proposal made; any other votes and settles. -/
theorem Host.putForward_cases :
    ((Host.putForward env ev onboarding n).host.node = n.proposed ev ∧
      (Host.putForward env ev onboarding n).decision = none ∧
      (Host.putForward env ev onboarding n).activated = none) ∨
    ((Host.putForward env ev onboarding n).host.node
        = ((n.ownVoted ev).settle env ev.readings ev.peer ev.proposalId).1 ∧
      (Host.putForward env ev onboarding n).decision
        = ((n.ownVoted ev).settle env ev.readings ev.peer ev.proposalId).2.1 ∧
      (Host.putForward env ev onboarding n).activated
        = ((n.ownVoted ev).settle env ev.readings ev.peer ev.proposalId).2.2) := by
  have hpid : (n.governanceEngine.createProposal (ev.readings.clock 0) (ev.readings.clock 1)
      ev.readings.uuid (.activatePeer ev.peer) ev.peer).2 = ev.proposalId :=
    createProposal_snd _ _ _ _ _ _
  unfold Host.putForward GovernanceEngine.announce
  dsimp only
  rw [hpid]
  split
  · exact Or.inl ⟨rfl, rfl, rfl⟩
  · exact Or.inr ⟨rfl, rfl, rfl⟩

/-- The proposal that is made is executed in bootstrap mode, and stays as it is until the
    quorum is tested. -/
theorem Node.executed_proposed :
    ((n.proposed ev).governanceEngine.proposals[ev.proposalId]?).map Proposal.executed
      = some (decide (n.governanceEngine.Bootstrapping (ev.readings.clock 0))) := by
  unfold proposed
  rw [createProposal_eq]
  dsimp only
  rw [OnboardEvent.proposalId, FinMap.find_insert, if_pos rfl]
  rfl

theorem Node.executed_ownVoted :
    ((n.ownVoted ev).governanceEngine.proposals[ev.proposalId]?).map Proposal.executed
      = some (decide (n.governanceEngine.Bootstrapping (ev.readings.clock 0))) := by
  rw [← n.executed_proposed ev]
  exact map_recordVote Proposal.executed (fun _ _ => rfl) _ _ _ _ _ _

end Admitting

/-- A peer with an entry in the registry asks to join, on a node in whatever state, and is
    accepted. The proposal made for it ends up executed, and not by a rejecting quorum.
    Then the peer is activated exactly if the engine was not in bootstrap mode when the
    proposal was made, or the peer had a certificate before. -/
theorem onboarded_activated_iff (env : NodeEnv) (reg : RegistryEnv) (h : Host) (ev : OnboardEvent)
    (world : WorldState) (hworld : h.node.worldState = some world)
    (haccepted : (h.identify reg ev world).2 = true)
    (hknown : (world.peerRegistry[ev.peer]?).isSome)
    (hexecuted : ((h.handleOnboard env reg ev).host.node.governanceEngine.proposals[
      ev.proposalId]?).map Proposal.executed = some true)
    (hdecision : (h.handleOnboard env reg ev).decision ≠ some false) :
    (h.handleOnboard env reg ev).host.node.worldState.any (·.isPeerActivated ev.peer) = true ↔
      ¬ h.node.governanceEngine.Bootstrapping (ev.readings.clock 0) ∨
        (world.certOf ev.peer).isSome := by
  rw [Host.handleOnboard_accepted env hworld haccepted] at hexecuted hdecision ⊢
  -- The node after the check, on which the peer has its flag.
  have hengine : (h.checked reg ev world).governanceEngine = h.node.governanceEngine := rfl
  have hflagged : (h.checked reg ev world).worldState
      = some (world.markPeerActivated ev.peer) := by
    rw [Host.checked, Host.identify_world_of_accepted haccepted]
  rw [← hengine]
  generalize h.checked reg ev world = n at hexecuted hdecision hflagged ⊢
  have hflag : (world.markPeerActivated ev.peer).activatedPeers[ev.peer]? = some true := by
    rw [WorldState.markPeerActivated, FinMap.find_insert, if_pos rfl]
  by_cases hboot : n.governanceEngine.Bootstrapping (ev.readings.clock 0)
  · -- The vote comes too late, the test says nothing, and no certificate is made.
    have hnone : (n.ownVoted ev).governanceEngine.checkQuorum ev.proposalId quorumTimeoutSecs
        (ev.readings.clock 5) = none :=
      checkQuorum_of_executed (by rw [n.executed_ownVoted ev, decide_eq_true hboot]) _ _
    have hsame :
        (Host.putForward env ev (h.identify reg ev world).1.onboarding n).host.node.worldState
        = some (world.markPeerActivated ev.peer) := by
      rcases Host.putForward_cases env ev (h.identify reg ev world).1.onboarding n with
        ⟨hnode, -, -⟩ | ⟨hnode, -, -⟩
      · rw [hnode]
        exact hflagged
      · rw [hnode, Node.settle, hnone]
        exact hflagged
    rw [hsame, Option.any_some, WorldState.isPeerActivated_of_flag _ hflag]
    simp [hboot]
  · -- The proposal was open, so it was executed by the decision, which approved.
    have hopen : decide (n.governanceEngine.Bootstrapping (ev.readings.clock 0)) = false :=
      decide_eq_false hboot
    refine iff_of_true ?_ (Or.inl hboot)
    rcases Host.putForward_cases env ev (h.identify reg ev world).1.onboarding n with
      ⟨hnode, -, -⟩ | ⟨hnode, hdecided, -⟩
    · rw [hnode, n.executed_proposed ev, hopen] at hexecuted
      exact absurd hexecuted (by simp)
    rcases (n.ownVoted ev).settle_cases env ev.readings ev.peer ev.proposalId with
      ⟨-, hsame, -⟩ | ⟨-, ⟨certData, hcert⟩, -, -⟩ | ⟨hrejected, -, -, -⟩
    · rw [hnode, hsame, n.executed_ownVoted ev, hopen] at hexecuted
      exact absurd hexecuted (by simp)
    · have hvoted : (n.ownVoted ev).worldState = some (world.markPeerActivated ev.peer) := hflagged
      rw [hnode, hcert, hvoted, Option.map_some, Option.any_some,
        WorldState.isPeerActivated_of_flag, WorldState.certOf_setActivationCert, if_pos rfl,
        Option.isSome_map]
      · exact hknown
      · rw [WorldState.setActivationCert, WorldState.markPeerActivated]
        dsimp only
        rw [FinMap.find_insert, if_pos rfl]
    · rw [hdecided] at hdecision
      exact absurd hrejected hdecision

/-- A world state with one peer in its registry. -/
def joinWorld : WorldState :=
  { emptyRegistry.world with
    peerRegistry := (∅ : FinMap String PeerState).insert "peer"
      { peerId := "peer", lastSeen := 900 } }

/-- A node around an engine, and a request of that peer. -/
def joinHost (engine : GovernanceEngine) : Host where
  node :=
    { Node.ballotNode with
      security := emptyRegistry.security, authority := none, worldState := some joinWorld
      governanceEngine := engine }
  onboarding := .new

def joinEvent : OnboardEvent where
  peer := "peer"
  request := (attemptAt 1000).request
  readings :=
    { check := (attemptAt 1000).readings, clock := fun _ => 1000, uuid := "0001", nonce := "n-1"
      announceStamp := fun _ => ⟨1000, "1"⟩, voteStamp := fun _ => ⟨1000, "2"⟩, seenAddrs := [] }

/-- An engine whose only supernode is the node, after bootstrap is over. -/
def loneEngine : GovernanceEngine :=
  Governance.run (.new ["sn1"] (33 / 50) 0)
    [.updateSupernodes 10 ["sn1", "node"], .updateSupernodes 20 ["node"]]

/-- The node decides alone, and the peer is activated. -/
theorem lone_decision_activates :
    let out := (joinHost loneEngine).handleOnboard Node.nameEnv (registryEnv tagKey) joinEvent
    out.decision = some true ∧
      out.host.node.worldState.any (·.isPeerActivated "peer") = true := by
  intro out
  -- One evaluation of the request for all that is asked of it.
  obtain ⟨haccepted, hdecision, hexecuted⟩ :
      ((joinHost loneEngine).identify (registryEnv tagKey) joinEvent joinWorld).2 = true ∧
        out.decision = some true ∧
        (out.host.node.governanceEngine.proposals[joinEvent.proposalId]?).map Proposal.executed
          = some true := by
    decide +kernel
  have hnot : out.decision ≠ some false := by simp [hdecision]
  have hknown : (joinWorld.peerRegistry[joinEvent.peer]?).isSome := by decide +kernel
  have hover : ¬ (joinHost loneEngine).node.governanceEngine.Bootstrapping
      (joinEvent.readings.clock 0) := by decide +kernel
  have hiff := onboarded_activated_iff Node.nameEnv (registryEnv tagKey)
    (joinHost loneEngine) joinEvent joinWorld rfl haccepted hknown hexecuted hnot
  exact ⟨hdecision, hiff.mpr (Or.inl hover)⟩

/-- In bootstrap mode the proposal for the peer is executed, without a decision against
    it, and the peer is not activated. -/
theorem bootstrap_does_not_activate :
    let h := joinHost (.new ["node"] (33 / 50) 0)
    let out := h.handleOnboard Node.nameEnv (registryEnv tagKey) joinEvent
    (h.identify (registryEnv tagKey) joinEvent joinWorld).2 = true ∧
      (joinWorld.peerRegistry["peer"]?).isSome ∧
      ((out.host.node.governanceEngine.proposals[joinEvent.proposalId]?).map Proposal.executed
        = some true) ∧
      out.decision = none ∧
      out.host.node.worldState.any (·.isPeerActivated "peer") = false := by
  decide +kernel

end EssNode
