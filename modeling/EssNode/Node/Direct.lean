import EssNode.Node.Controller

/-!
# The Direct Protocol

How a node handles a request of the direct protocol.

The body of a request is first read as an `EssRequest`. If it is one, the inner
request's body goes straight to the handler and a relay packet to the relay; only
a body that is neither is subject to the signature format check and to the policy
decision. The handler then branches on the *outer* request's kind.

Sending a response has no effect on the node and may be impossible; an `Outcome`
holds what would be sent. Writing the replicated state to disk and logging are
left out.
-/

namespace EssNode

open Authority Bincode Compute Crdt EssRequest Governance SecurityRuntime

/-- The node after a request and what it sends: a response, a packet to the next
    hop, and the news of an activation, to its target and to the network. -/
structure Outcome where
  node : Node
  response : Option DirectResponse := none
  forwarded : Option (String × DirectRequest) := none
  activated : Option (String × ActivationCertificate × List UInt8) := none
  panicked : Bool := false

/-- The kinds of request the handler knows; any other is `plain`. -/
inductive RequestKind where
  | crdtSync
  | governanceVote
  | activationNotify
  | governanceAnnounce
  | pqcHandshake
  | compute
  | plain
deriving DecidableEq, Repr

/-- The kind a request's text names. -/
def RequestKind.ofText (kind : String) : RequestKind :=
  if kind = "crdt_sync" then .crdtSync
  else if kind = "governance.vote" then .governanceVote
  else if kind = "governance.activation_notify" then .activationNotify
  else if kind = "governance.announce" then .governanceAnnounce
  else if kind = "pqc_handshake" then .pqcHandshake
  else if kind = "compute" then .compute
  else .plain

namespace Node

variable (env : NodeEnv) (rd : Readings) (n : Node) (peer : String) (request : DirectRequest)
  (body : List UInt8)

def replyOk (text : String) : DirectResponse :=
  .plainOk rd.reply request.messageId n.localPeerId peer text

def replyOkBytes (bytes : List UInt8) : DirectResponse :=
  .plainOkBytes rd.reply request.messageId n.localPeerId peer bytes

def replyError (text : String) : DirectResponse :=
  .plainError rd.reply request.messageId n.localPeerId peer text

/-- Take in the sender's replicated state and answer with the merged one. -/
def handleCrdtSync : Outcome :=
  match n.crdtWorld with
  | none => { node := n }
  | some ours =>
    match readSyncPayload body with
    | some theirs =>
      let merged := ours.merge env.crdt (rd.clock 0).toNat theirs
      { node := { n with crdtWorld := some merged }
        response := some (n.replyOkBytes rd peer request (env.syncPayload merged)) }
    | none =>
      { node := n, response := some (n.replyError rd peer request "crdt_sync_parse_failed") }

/-- Activate the target of an approved proposal. -/
def activateTarget (pid : String) :
    Node × Option (String × ActivationCertificate × List UInt8) :=
  match n.governanceEngine.getProposal pid with
  | none => (n, none)
  | some prop =>
    if prop.target = "" then (n, none)
    else
      let cert : ActivationCertificate :=
        { proposalId := pid, target := prop.target, approved := true
          signers := (prop.votes.toList.filter fun v => v.2).map Prod.fst }
      let certData := (env.certJson cert).getD []
      let n := n.updateWorldState fun ws =>
        (ws.markPeerActivated prop.target).setActivationCert prop.target certData
      (n, (env.compute.parsePeerId prop.target).map fun target => (target, cert, certData))

/-- Cast an accepted vote and act on the decision. -/
def applyVote (vote : VoteMessage) :
    Node × Option (String × ActivationCertificate × List UInt8) :=
  let cast := castVote n.governanceEngine (rd.clock 0) (rd.clock 1) (rd.clock 2)
    vote.proposalId vote.voter vote.approve
  let n := { n with governanceEngine := cast.1 }
  if cast.2 = some true then n.activateTarget env vote.proposalId else (n, none)

/-- Whether a vote is accepted: its signature verifies under the key of the peer
    that sent it, and the voter it names is a supernode. -/
def acceptsVote (vote : VoteMessage) : Bool :=
  (n.security.verifyGovernanceVote env.crypto vote peer).isOk &&
    (n.authority.map fun auth => decide (vote.voter ∈ auth.supernodes)).getD false

def handleVote : Outcome :=
  let response := some (n.replyOk rd peer request "ack")
  match VoteMessage.codec.deserialize body with
  | some vote =>
    if n.acceptsVote env peer vote then
      let applied := n.applyVote env rd vote
      { node := applied.1, response := response, activated := applied.2 }
    else { node := n, response := response }
  | none => { node := n, response := response }

/-- Believe a certificate: activate its target as a client. -/
def handleActivationNotify : Outcome :=
  let response := some (n.replyOk rd peer request "activated")
  match ActivationCertificate.codec.deserialize body with
  | some cert =>
    let node := n.updateWorldState fun ws =>
      (ws.markPeerActivated cert.target).setPeerRole (rd.clock 0) (rd.clock 1) cert.target
        "client"
    { node := node, response := response }
  | none => { node := n, response := response }

/-- Create a proposal for an announced one that is not known under its name. -/
def handleAnnounce : Outcome :=
  let response := some (n.replyOk rd peer request "ack")
  match ProposalAnnouncement.codec.deserialize body with
  | some announce =>
    if (n.governanceEngine.getProposal announce.proposalId).isNone then
      let created := n.governanceEngine.createProposal (rd.clock 0) (rd.clock 1) rd.uuid
        announce.proposalType announce.target
      { node := { n with governanceEngine := created.1 }, response := response }
    else { node := n, response := response }
  | none => { node := n, response := response }

/-- Encapsulate a key for the sender. -/
def handlePqcHandshake : Outcome :=
  match HybridPublicKey.codec.deserialize body with
  | some theirPubkey =>
    match env.encapsulate theirPubkey peer rd.random with
    | .ok ciphertext =>
      { node := n, response := some (n.replyOkBytes rd peer request ciphertext) }
    | .error _ =>
      { node := n, response := some (n.replyError rd peer request "pqc_encap_failed") }
  | none => { node := n }

/-- Store a result, or pass another compute message to the scheduler. -/
def handleCompute : Outcome :=
  match env.compute.parseMessage body with
  | some (.result result) =>
    { node :=
        { n with
          computeStore := n.computeStore.map fun store => store.saveResult result
          dashboard := n.dashboard ++ [result] }
      response := some (n.replyOk rd peer request "result_received") }
  | _ =>
    match n.computeHandle with
    | some scheduler =>
      let handled := handleIncomingComputeMessage env.compute (rd.clock 0) body scheduler
        n.computeStore
      let replyBytes :=
        match handled.2 with
        | some msg => (env.compute.messageJson msg).getD []
        | none => utf8 "\x7b\"status\":\"processed\"\x7d"
      { node := { n with computeHandle := some handled.1 }
        response := some (n.replyOkBytes rd peer request replyBytes) }
    | none =>
      { node := n, response := some (n.replyError rd peer request "compute_not_available") }

/-- The configuration this node hands out. -/
def configBundle : ConfigBundle :=
  ConfigBundle.normalized
    { role := n.security.localRole.asStr
      policyVersion := 1
      allowedPeers := (n.worldState.map fun ws => ws.peerRegistry.keys).getD []
      bootstrapAddrs := (n.worldState.map WorldState.supernodes).getD []
      issuedAt := rd.clock 4 }

/-- The answer to an embedded configuration request that passed its check. -/
def replyConfig (configReq : ConfigRequest) : DirectResponse :=
  let configResp :=
    match buildConfigResponseOk env.crypto env.bundleJson (rd.clock 5)
        (rd.nonce 0) (rd.clock 6) n.localPeerId peer configReq.messageId (n.configBundle rd) with
    | .ok resp => resp
    | .error _ =>
      .plainError (rd.clock 7) configReq.messageId n.localPeerId peer "error"
  n.replyOkBytes rd peer request (ConfigResponse.codec.serialize configResp)

def replySigned (built : Except SecurityError DirectResponse) : DirectResponse :=
  match built with
  | .ok resp => resp
  | .error _ => .plainError rd.secondReply request.messageId n.localPeerId peer "error"

/-- A request of no other kind: check it, and answer an embedded configuration
    request. Both checks go through the replay cache. -/
def handlePlain : Outcome :=
  let checked := n.security.verifyRequest env.crypto (rd.clock 0) (rd.clock 1) n.localPeerId peer
    request
  let n := { n with security := checked.1 }
  if checked.2.isOk then
    match ConfigRequest.codec.deserialize body with
    | some configReq =>
      let checked := n.security.verifyConfigRequest env.crypto (rd.clock 2) (rd.clock 3)
        n.localPeerId peer configReq
      let n := { n with security := checked.1 }
      if checked.2.isOk then
        { node := n, response := some (n.replyConfig env rd peer request configReq) }
      else
        { node := n, response := some (n.replyError rd peer request "invalid_config_request") }
    | none =>
      { node := n
        response := some (n.replySigned rd peer request
          (buildResponseOk env.crypto rd.reply (rd.nonce 0) (rd.clock 2)
            n.localPeerId peer request.messageId "ack")) }
  else
    { node := n
      response := some (n.replySigned rd peer request
        (buildResponseError env.crypto rd.reply (rd.nonce 0) (rd.clock 2)
          n.localPeerId peer request.messageId "unauthorized")) }

/-- Handle a body under the kind of the request that brought it. -/
def handleDirectRequest : Outcome :=
  match RequestKind.ofText request.kind with
  | .crdtSync => n.handleCrdtSync env rd peer request body
  | .governanceVote => n.handleVote env rd peer request body
  | .activationNotify => n.handleActivationNotify rd peer request body
  | .governanceAnnounce => n.handleAnnounce rd peer request body
  | .pqcHandshake => n.handlePqcHandshake env rd peer request body
  | .compute => n.handleCompute env rd peer request body
  | .plain => n.handlePlain env rd peer request body

/-- Open a packet, acknowledge it, and send what is inside to the next hop. The
    inner layer has to decode; the code expects it to. -/
def handleOnionRelay (relay : OnionRelayRequest) : Outcome :=
  match env.peelOnionLayer relay.layer with
  | .ok (nextHop, innerPayload) =>
    let response := some (DirectResponse.plainOkBytes rd.reply "" n.localPeerId ""
      (onionRelayResponseBytes ⟨true, none⟩))
    if nextHop = "" then { node := n, response := response }
    else
      match env.compute.parsePeerId nextHop with
      | none => { node := n, response := response }
      | some nextPeer =>
        match OnionLayer.codec.deserialize innerPayload with
        | none => { node := n, response := response, panicked := true }
        | some layer =>
          let essReq := onionRelay ⟨layer, relay.hop + 1⟩
          let direct := DirectRequest.plainBytes rd.forward.ts rd.forward.shortNonce
            n.localPeerId nextPeer (codec.serialize essReq)
          { node := n, response := response, forwarded := some (nextPeer, direct) }
  | .error e =>
    { node := n
      response := some (DirectResponse.plainOkBytes rd.reply "" n.localPeerId ""
        (onionRelayResponseBytes ⟨false, some e⟩)) }

/-- An incoming request. The checks before the last call are made only when the
    body is not an `EssRequest`. -/
def onDirectRequest : Outcome :=
  match codec.deserialize request.body with
  | some (.directRequest direct) => n.handleDirectRequest env rd peer request direct.body
  | some (.onionRelay relay) => n.handleOnionRelay env rd relay
  | none =>
    if !(verifySignatureFormat env.crypto request.signature).isOk then
      { node := n, response := some (n.replyError rd peer request "bad_signature_format") }
    else
      let enforced := n.enforce peer .connect
      if !enforced.2 then
        { node := enforced.1
          response := some (n.replyError rd peer request "access_denied_by_authority") }
      else enforced.1.handleDirectRequest env rd peer request request.body

/-- The body an incoming request hands to the handler, if it gets there. -/
def handlerBody : Option (List UInt8) :=
  match codec.deserialize request.body with
  | some (.directRequest direct) => some direct.body
  | some (.onionRelay _) => none
  | none =>
    if (verifySignatureFormat env.crypto request.signature).isOk &&
        (n.enforce peer .connect).2 then some request.body
    else none

theorem handlerBody_wrapped {direct : DirectRequest} (hfits : DirectRequest.codec.Fits direct)
    (hbody : request.body = codec.serialize (.directRequest direct)) :
    n.handlerBody env peer request = some direct.body := by
  have hess : codec.deserialize request.body = some (.directRequest direct) := by
    rw [hbody]
    exact deserialize_wrapped hfits
  unfold handlerBody
  rw [hess]

theorem handleOnionRelay_frame (relay : OnionRelayRequest) :
    (n.handleOnionRelay env rd relay).node = n ∧
      (n.handleOnionRelay env rd relay).activated = none := by
  unfold handleOnionRelay
  split
  · split
    · exact ⟨rfl, rfl⟩
    split
    · exact ⟨rfl, rfl⟩
    split <;> exact ⟨rfl, rfl⟩
  · exact ⟨rfl, rfl⟩

theorem handlePlain_node :
    ∃ security, SecurityRuntime.SameKeys n.security security ∧
      (n.handlePlain env rd peer request body).node = { n with security := security } := by
  have hreq := checkCommon_sameKeys n.security (rd.clock 0) (rd.clock 1) peer
    request.ts request.nonce
  unfold handlePlain
  dsimp only [verifyRequest, verifyConfigRequest,
    verifyWith]
  split
  · split
    · rename_i configReq _
      have hcfg := checkCommon_sameKeys
        (n.security.checkCommon (rd.clock 0) (rd.clock 1) peer request.ts request.nonce).1
        (rd.clock 2) (rd.clock 3) peer configReq.ts configReq.nonce
      -- The second check starts from the cache the first one left.
      split <;> exact ⟨_, hreq.trans hcfg, rfl⟩
    · exact ⟨_, hreq, rfl⟩
  · exact ⟨_, hreq, rfl⟩

/-- The body reaches a write under the kind: a state to take in, an accepted vote,
    a certificate, the announcement of an unknown proposal, or a result. -/
def ReachesWrite (kind : RequestKind) : Prop :=
  match kind with
  | .crdtSync => n.crdtWorld.isSome ∧ (readSyncPayload body).isSome
  | .governanceVote =>
    ∃ vote, VoteMessage.codec.deserialize body = some vote ∧ n.acceptsVote env peer vote = true
  | .activationNotify => (ActivationCertificate.codec.deserialize body).isSome
  | .governanceAnnounce =>
    ∃ announce, ProposalAnnouncement.codec.deserialize body = some announce ∧
      n.governanceEngine.getProposal announce.proposalId = none
  | .compute => ∃ result, env.compute.parseMessage body = some (.result result)
  | .pqcHandshake | .plain => False

/-- What the handler can leave: a node with the same data and keys, or one of its
    five writes. -/
inductive Effect (kind : RequestKind) : Node → Prop where
  | aside (m : Node) (hdata : SameData n m)
      (hkeys : SecurityRuntime.SameKeys n.security m.security)
      (hquiet : ¬ ReachesWrite env n peer body kind) : Effect kind m
  | merged (ours theirs : CrdtWorldState) (hkind : kind = .crdtSync)
      (hours : n.crdtWorld = some ours) (htheirs : readSyncPayload body = some theirs) :
      Effect kind { n with crdtWorld := some (ours.merge env.crdt (rd.clock 0).toNat theirs) }
  | voted (vote : VoteMessage) (hkind : kind = .governanceVote)
      (hvote : VoteMessage.codec.deserialize body = some vote)
      (haccept : n.acceptsVote env peer vote = true) :
      Effect kind (n.applyVote env rd vote).1
  | notified (cert : ActivationCertificate) (hkind : kind = .activationNotify)
      (hcert : ActivationCertificate.codec.deserialize body = some cert) :
      Effect kind (n.updateWorldState fun ws =>
        (ws.markPeerActivated cert.target).setPeerRole (rd.clock 0) (rd.clock 1) cert.target
          "client")
  | announced (announce : ProposalAnnouncement) (hkind : kind = .governanceAnnounce)
      (hannounce : ProposalAnnouncement.codec.deserialize body = some announce)
      (hnew : n.governanceEngine.getProposal announce.proposalId = none) :
      Effect kind
        { n with
          governanceEngine := (n.governanceEngine.createProposal (rd.clock 0) (rd.clock 1) rd.uuid
            announce.proposalType announce.target).1 }
  | stored (result : ComputeResult) (hkind : kind = .compute)
      (hresult : env.compute.parseMessage body = some (.result result)) :
      Effect kind
        { n with
          computeStore := n.computeStore.map fun store => store.saveResult result
          dashboard := n.dashboard ++ [result] }

theorem handleDirectRequest_effect :
    Effect env rd n peer body (RequestKind.ofText request.kind)
      (n.handleDirectRequest env rd peer request body).node := by
  have hstay {kind : RequestKind} (hquiet : ¬ ReachesWrite env n peer body kind) :
      Effect env rd n peer body kind n := .aside n (.refl n) (.refl n.security) hquiet
  unfold handleDirectRequest
  generalize RequestKind.ofText request.kind = kind
  cases kind with
  | crdtSync =>
    dsimp only [handleCrdtSync]
    cases hours : n.crdtWorld with
    | none => exact hstay (by simp [ReachesWrite, hours])
    | some ours =>
      cases htheirs : readSyncPayload body with
      | none => exact hstay (by simp [ReachesWrite, htheirs])
      | some theirs => exact .merged ours theirs rfl hours htheirs
  | governanceVote =>
    dsimp only [handleVote]
    cases hvote : VoteMessage.codec.deserialize body with
    | none => exact hstay (by simp [ReachesWrite, hvote])
    | some vote =>
      by_cases haccept : n.acceptsVote env peer vote = true
      · simp only [haccept, if_true]
        exact .voted vote rfl hvote haccept
      · simp only [haccept]
        exact hstay (by simp [ReachesWrite, hvote, haccept])
  | activationNotify =>
    dsimp only [handleActivationNotify]
    cases hcert : ActivationCertificate.codec.deserialize body with
    | none => exact hstay (by simp [ReachesWrite, hcert])
    | some cert => exact .notified cert rfl hcert
  | governanceAnnounce =>
    dsimp only [handleAnnounce]
    cases hannounce : ProposalAnnouncement.codec.deserialize body with
    | none => exact hstay (by simp [ReachesWrite, hannounce])
    | some announce =>
      by_cases hnew : n.governanceEngine.getProposal announce.proposalId = none
      · simp only [hnew, Option.isNone_none, if_true]
        exact .announced announce rfl hannounce hnew
      · rw [← Option.isNone_iff_eq_none] at hnew
        simp only [hnew]
        exact hstay (by simpa [ReachesWrite, hannounce] using hnew)
  | pqcHandshake =>
    dsimp only [handlePqcHandshake]
    split
    · split <;> exact hstay id
    · exact hstay id
  | compute =>
    dsimp only [handleCompute]
    split
    · rename_i result hresult
      exact .stored result rfl hresult
    · rename_i hother
      have hquiet : ¬ ReachesWrite env n peer body .compute :=
        fun hreach => hother hreach.choose hreach.choose_spec
      -- The scheduler is told, and nothing is stored by this task.
      split
      · exact .aside _ ⟨rfl, rfl, rfl, rfl⟩ rfl hquiet
      · exact hstay hquiet
  | plain =>
    rcases handlePlain_node env rd n peer request body with ⟨security, hsame, hnode⟩
    dsimp only
    rw [hnode]
    exact .aside _ ⟨rfl, rfl, rfl, rfl⟩ hsame id

theorem activateTarget_frame (pid : String) :
    (n.activateTarget env pid).1.governanceEngine = n.governanceEngine ∧
      (n.activateTarget env pid).1.security = n.security := by
  unfold activateTarget
  split
  · exact ⟨rfl, rfl⟩
  split <;> exact ⟨rfl, rfl⟩

theorem applyVote_frame (vote : VoteMessage) :
    (n.applyVote env rd vote).1.governanceEngine
        = (castVote n.governanceEngine (rd.clock 0) (rd.clock 1) (rd.clock 2)
            vote.proposalId vote.voter vote.approve).1 ∧
      (n.applyVote env rd vote).1.security = n.security := by
  unfold applyVote
  dsimp only
  split
  · exact activateTarget_frame env _ vote.proposalId
  · exact ⟨rfl, rfl⟩

theorem onDirectRequest_of_handlerBody {env : NodeEnv} {n : Node} {peer : String}
    {request : DirectRequest} {body : List UInt8}
    (h : n.handlerBody env peer request = some body) :
    n.onDirectRequest env rd peer request = n.handleDirectRequest env rd peer request body := by
  unfold onDirectRequest
  unfold handlerBody at h
  cases hess : codec.deserialize request.body with
  | some ess =>
    rw [hess] at h
    cases ess with
    | directRequest direct =>
      rw [← Option.some.inj h]
    | onionRelay relay => exact absurd h (by simp)
  | none =>
    rw [hess] at h
    dsimp only at h ⊢
    split at h
    · rename_i hpass
      rw [Bool.and_eq_true] at hpass
      -- A permission is given without touching the node.
      rw [hpass.1, hpass.2, n.enforce_node_of_allowed hpass.2, ← Option.some.inj h]
      rfl
    · exact absurd h (by simp)

theorem onDirectRequest_of_none {env : NodeEnv} {n : Node} {peer : String}
    {request : DirectRequest}
    (h : n.handlerBody env peer request = none) :
    (SameData n (n.onDirectRequest env rd peer request).node ∧
      (n.onDirectRequest env rd peer request).node.security = n.security) ∧
      (n.onDirectRequest env rd peer request).activated = none := by
  unfold onDirectRequest
  unfold handlerBody at h
  cases hess : codec.deserialize request.body with
  | some ess =>
    rw [hess] at h
    cases ess with
    | directRequest direct => exact absurd h (by simp)
    | onionRelay relay =>
      obtain ⟨hnode, hactivated⟩ := handleOnionRelay_frame env rd n relay
      dsimp only
      rw [hnode]
      exact ⟨⟨.refl n, rfl⟩, hactivated⟩
  | none =>
    rw [hess] at h
    dsimp only at h ⊢
    by_cases hformat :
        (verifySignatureFormat env.crypto request.signature).isOk = true
    · by_cases hallow : (n.enforce peer .connect).2 = true
      · rw [hformat, hallow] at h
        exact absurd h (by simp)
      · simp only [hformat, hallow, Bool.not_true, Bool.false_eq_true, if_false, Bool.not_false,
          if_true]
        exact ⟨⟨n.enforce_sameData peer .connect, n.enforce_security peer .connect⟩, trivial⟩
    · simp only [hformat, Bool.not_false, if_true]
      exact ⟨⟨.refl n, trivial⟩, trivial⟩

theorem onDirectRequest_node :
    (∃ body, n.handlerBody env peer request = some body ∧
      (n.onDirectRequest env rd peer request).node
        = (n.handleDirectRequest env rd peer request body).node) ∨
    (n.handlerBody env peer request = none ∧
      SameData n (n.onDirectRequest env rd peer request).node ∧
      (n.onDirectRequest env rd peer request).node.security = n.security) := by
  cases hbody : n.handlerBody env peer request with
  | some body => exact Or.inl ⟨body, rfl, by rw [onDirectRequest_of_handlerBody rd hbody]⟩
  | none => exact Or.inr ⟨rfl, (onDirectRequest_of_none rd hbody).1⟩

theorem Effect.sameKeys {env rd n peer body} {kind : RequestKind} {m : Node}
    (h : Effect env rd n peer body kind m) :
    SecurityRuntime.SameKeys n.security m.security := by
  cases h with
  | aside _ _ hkeys _ => exact hkeys
  | voted vote _ _ _ =>
    rw [(applyVote_frame env rd n vote).2]
    rfl
  | merged _ _ _ _ _ => rfl
  | notified _ _ _ => rfl
  | announced _ _ _ _ => rfl
  | stored _ _ _ => rfl

end Node

end EssNode
