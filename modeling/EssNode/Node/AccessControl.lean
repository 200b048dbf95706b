import EssNode.Node.Direct

/-!
# Access Control

What a peer without permission to connect can do to a node.

The permission is asked for only when a request's body is not an `EssRequest`. A
peer that wraps its request reaches the handler without being asked, under
whatever kind it gives the outer request. `denied_request_sameData_iff` says
exactly when a refused peer's request leaves the node's data alone: unless its
body wraps a request whose own body has an effect under the outer kind.
`blocked_peer_activated` is a blocked peer that has itself activated.
-/

namespace EssNode

open Authority Bincode Compute Crdt Governance Option

/-- No proposal has an identifier made with the drawn one. -/
def FreshUuid (e : GovernanceEngine) (uuid : String) : Prop :=
  ∀ (ptype : ProposalType) (target : String),
    e.proposals[proposalIdOf ptype target uuid]? = none

namespace Node

/-- A body has an effect under a kind: a state where there is one to merge it
    into, an accepted vote the engine is not idle on, a certificate where there
    is a world state, the announcement of an unknown proposal, or a result that
    is not stored or meets a store over its limit. -/
def Effective (env : NodeEnv) (rd : Readings) (n : Node) (peer : String) (body : List UInt8)
    (kind : RequestKind) : Prop :=
  match kind with
  | .crdtSync => n.crdtWorld.isSome ∧ (readSyncPayload body).isSome
  | .governanceVote =>
    ∃ vote, VoteMessage.codec.deserialize body = some vote ∧
      n.acceptsVote env peer vote = true ∧
      ¬ Idle n.governanceEngine (rd.clock 0) (rd.clock 1) vote.proposalId vote.voter vote.approve
  | .activationNotify =>
    n.worldState.isSome ∧ (ActivationCertificate.codec.deserialize body).isSome
  | .governanceAnnounce =>
    ∃ announce, ProposalAnnouncement.codec.deserialize body = some announce ∧
      n.governanceEngine.getProposal announce.proposalId = none
  | .compute =>
    ∃ result store, env.compute.parseMessage body = some (.result result) ∧
      n.computeStore = some store ∧
      ¬ (store.getResult result.jobId = some result ∧ store.results.size ≤ maxStoredResults)
  | .pqcHandshake | .plain => False

variable {env : NodeEnv} {rd : Readings} {n m : Node} {peer : String} {body : List UInt8}
  {kind : RequestKind}

theorem Effective.reachesWrite (h : Effective env rd n peer body kind) :
    ReachesWrite env n peer body kind := by
  cases kind with
  | crdtSync => exact h
  | governanceVote =>
    rcases h with ⟨vote, hvote, haccept, -⟩
    exact ⟨vote, hvote, haccept⟩
  | activationNotify => exact h.2
  | governanceAnnounce => exact h
  | pqcHandshake => exact h
  | compute =>
    rcases h with ⟨result, -, hresult, -⟩
    exact ⟨result, hresult⟩
  | plain => exact h

/-- Applying a vote keeps the data exactly when the engine is idle on it: a
    decision, which alone leads to more, never leaves the engine as it was. -/
theorem applyVote_sameData_iff (vote : VoteMessage) :
    SameData n (n.applyVote env rd vote).1 ↔
      Idle n.governanceEngine (rd.clock 0) (rd.clock 1) vote.proposalId vote.voter
        vote.approve := by
  rw [← castVote_eq_self_iff n.governanceEngine (rd.clock 0) (rd.clock 1) (rd.clock 2)]
  constructor
  · intro h
    rw [← (applyVote_frame env rd n vote).1]
    exact h.governanceEngine
  · intro h
    have hundecided : (castVote n.governanceEngine (rd.clock 0) (rd.clock 1) (rd.clock 2)
        vote.proposalId vote.voter vote.approve).2 ≠ some true :=
      fun hdecided => castVote_ne_of_decided hdecided h
    unfold applyVote
    dsimp only
    rw [if_neg hundecided]
    exact ⟨rfl, h, rfl, rfl⟩

/-- The handler keeps the data exactly if the body has no effect. -/
theorem Effect.sameData_iff (heff : Effect env rd n peer body kind m)
    (hfresh : FreshUuid n.governanceEngine rd.uuid) :
    SameData n m ↔ ¬ Effective env rd n peer body kind := by
  cases heff with
  | aside _ hdata _ hquiet => exact iff_of_true hdata (fun h => hquiet h.reachesWrite)
  | merged ours theirs hkind hours htheirs =>
    -- A merge always links another state into the audit chain.
    rw [hkind]
    refine iff_of_false (fun h => ?_) (fun h => h ⟨by simp [hours], by simp [htheirs]⟩)
    have hsame := h.crdtWorld
    rw [hours, some.injEq] at hsame
    exact merge_ne env.crdt _ ours theirs hsame
  | voted vote hkind hvote haccept =>
    rw [hkind, applyVote_sameData_iff]
    constructor
    · intro hidle h
      rcases h with ⟨vote', hvote', -, hbusy⟩
      rw [hvote, some.injEq] at hvote'
      rw [← hvote'] at hbusy
      exact hbusy hidle
    · intro h
      by_contra hbusy
      exact h ⟨vote, hvote, haccept, hbusy⟩
  | notified cert hkind hcert =>
    -- Without a world state there is nothing to activate a peer in.
    rw [hkind]
    cases hws : n.worldState with
    | none =>
      refine iff_of_true ⟨rfl, rfl, ?_, rfl⟩ (fun h => ?_)
      · unfold updateWorldState
        rw [hws]
        rfl
      · exact absurd h.1 (by simp [hws])
    | some ws =>
      refine iff_of_false (fun h => ?_) (fun h => h ⟨by simp [hws], by simp [hcert]⟩)
      have hsame := h.worldState
      unfold updateWorldState at hsame
      rw [hws, map_some, some.injEq] at hsame
      exact WorldState.setPeerRole_ne ws _ _ cert.target "client" cert.target hsame
  | announced announce hkind hannounce hnew =>
    rw [hkind]
    refine iff_of_false (fun h => ?_) (fun h => h ⟨announce, hannounce, hnew⟩)
    exact createProposal_ne (hfresh announce.proposalType announce.target) h.governanceEngine
  | stored result hkind hresult =>
    -- Storing changes nothing if the result is there and no clean-up is due.
    rw [hkind]
    cases hstore : n.computeStore with
    | none =>
      refine iff_of_true ⟨rfl, rfl, rfl, by simp [hstore]⟩ (fun h => ?_)
      rcases h with ⟨_, store, -, hsome, -⟩
      rw [hstore] at hsome
      exact absurd hsome (by simp)
    | some store =>
      have hsave := store.saveResult_eq_self_iff result
      constructor
      · intro h heffective
        rcases heffective with ⟨result', store', hresult', hsome, hnew⟩
        have hsame := h.computeStore
        rw [hstore, map_some, some.injEq] at hsame
        rw [hresult, some.injEq, ComputeMessage.result.injEq] at hresult'
        rw [hstore, some.injEq] at hsome
        rw [← hresult', ← hsome] at hnew
        exact hnew (hsave.mp hsame)
      · intro h
        have hkept : store.saveResult result = store := by
          rw [hsave]
          by_contra hnew
          exact h ⟨result, store, hresult, hstore, hnew⟩
        refine ⟨rfl, rfl, rfl, ?_⟩
        dsimp only
        rw [hstore, map_some, hkept]

/-- A request of a peer without permission leaves the node's data alone exactly
    when its body does not wrap a request whose own body has an effect under the
    outer kind. -/
theorem denied_request_sameData_iff (env : NodeEnv) (rd : Readings) (n : Node) (peer : String)
    (request : DirectRequest) (hdenied : (n.enforce peer .connect).2 = false)
    (hfresh : FreshUuid n.governanceEngine rd.uuid) :
    SameData n (n.onDirectRequest env rd peer request).node ↔
      ∀ direct, EssRequest.codec.deserialize request.body = some (.directRequest direct) →
        ¬ Effective env rd n peer direct.body (RequestKind.ofText request.kind) := by
  -- Without permission only a wrapped request gets to the handler.
  have hwrapped : ∀ body, n.handlerBody env peer request = some body ↔
      ∃ direct, EssRequest.codec.deserialize request.body = some (.directRequest direct) ∧
        direct.body = body := by
    intro body
    unfold handlerBody
    cases hess : EssRequest.codec.deserialize request.body with
    | none => simp [hdenied]
    | some ess => cases ess <;> simp
  rcases n.onDirectRequest_node env rd peer request with ⟨body, hbody, hnode⟩ | ⟨hnone, hsame, -⟩
  · rcases (hwrapped body).mp hbody with ⟨direct, hess, hdirect⟩
    rw [hnode, (n.handleDirectRequest_effect env rd peer request body).sameData_iff hfresh]
    constructor
    · intro h direct' hess'
      rw [hess, some.injEq, EssRequest.directRequest.injEq] at hess'
      rw [← hess', hdirect]
      exact h
    · intro h
      rw [← hdirect]
      exact h direct hess
  · refine iff_of_true hsame (fun direct hess => ?_)
    rw [(hwrapped direct.body).mpr ⟨direct, hess, rfl⟩] at hnone
    exact absurd hnone (by simp)

def blockingAuthority : AuthorityState where
  supernodes := ["sn1", "sn2"]
  allowedPeers := (∅ : FinMap String NodeRole).insert "mallory" .blocked
  policies := .default

/-- A node under that authority with a world state that knows no one. -/
def guardedNode : Node where
  localPeerId := "node"
  security :=
    { localPeerId := "node", replayWindowSecs := 300, replaySeen := ∅, peerPublicKeys := ∅
      authority := some blockingAuthority, allowedActions := {"connect"} }
  securityAttached := true
  authority := some blockingAuthority
  reputation := ∅
  eventTx := none
  worldState := some
    { revision := 0, lastUpdated := 0, supernodes := ["sn1", "sn2"], peerRegistry := ∅, ghost := {}
      activatedPeers := ∅ }
  governanceEngine := .new ["sn1", "sn2"] (2 / 3) 0
  crdtWorld := none
  computeHandle := none
  computeStore := none
  dashboard := []

/-- A certificate for the blocked peer, which no one has voted on. -/
def forgedCert : ActivationCertificate where
  proposalId := "p-1"
  target := "mallory"
  approved := true
  signers := []

def bareNotice : DirectRequest :=
  { kind := "governance.activation_notify"
    body := ActivationCertificate.codec.serialize forgedCert }

def wrappedNotice : DirectRequest :=
  { kind := "governance.activation_notify"
    body := EssRequest.codec.serialize
      (.directRequest { body := ActivationCertificate.codec.serialize forgedCert }) }

theorem guardedNode_denies : (guardedNode.enforce "mallory" .connect).2 = false := by
  have hauth : guardedNode.authority = some blockingAuthority := rfl
  exact guardedNode.enforce_blocked hauth .connect (by decide) (by decide)

theorem guardedNode_freshUuid (uuid : String) : FreshUuid guardedNode.governanceEngine uuid :=
  fun _ _ => Std.ExtTreeMap.getElem?_empty

/-- A blocked peer's bare notification changes nothing. -/
theorem blocked_peer_refused :
    (guardedNode.enforce "mallory" .connect).2 = false ∧
      ∀ (env : NodeEnv) (rd : Readings),
        SameData guardedNode (guardedNode.onDirectRequest env rd "mallory" bareNotice).node := by
  refine ⟨guardedNode_denies, fun env rd => ?_⟩
  have hbare : EssRequest.codec.deserialize bareNotice.body = none := by decide
  refine (denied_request_sameData_iff env rd guardedNode "mallory" bareNotice guardedNode_denies
    (guardedNode_freshUuid rd.uuid)).mpr (fun direct hess => ?_)
  rw [hbare] at hess
  exact absurd hess (by simp)

/-- Wrapped, the notification activates the blocked peer, whatever the node's
    environment. -/
theorem blocked_peer_activated :
    (guardedNode.enforce "mallory" .connect).2 = false ∧
      guardedNode.worldState.map (fun ws => ws.activatedPeers["mallory"]?) = some none ∧
      ∀ (env : NodeEnv) (rd : Readings),
        (guardedNode.onDirectRequest env rd "mallory" wrappedNotice).node.worldState.map
            (fun ws => ws.activatedPeers["mallory"]?) = some (some true) ∧
          ¬ SameData guardedNode (guardedNode.onDirectRequest env rd "mallory" wrappedNotice).node
    := by
  refine ⟨guardedNode_denies, by decide, fun env rd => ?_⟩
  have hess : EssRequest.codec.deserialize wrappedNotice.body
      = some (.directRequest { body := ActivationCertificate.codec.serialize forgedCert }) :=
    EssRequest.deserialize_wrapped (DirectRequest.codec_fits_body (by decide))
  have hcert : ActivationCertificate.codec.deserialize
      (ActivationCertificate.codec.serialize forgedCert) = some forgedCert := by decide
  have hnode : (guardedNode.onDirectRequest env rd "mallory" wrappedNotice).node
      = guardedNode.updateWorldState fun ws =>
          (ws.markPeerActivated "mallory").setPeerRole (rd.clock 0) (rd.clock 1) "mallory"
            "client" := by
    unfold onDirectRequest
    rw [hess]
    dsimp only
    unfold handleDirectRequest
    rw [show RequestKind.ofText wrappedNotice.kind = .activationNotify by decide]
    dsimp only [handleActivationNotify]
    rw [hcert]
    rfl
  have hactivated : (guardedNode.onDirectRequest env rd "mallory" wrappedNotice).node.worldState.map
      (fun ws => ws.activatedPeers["mallory"]?) = some (some true) := by
    rw [hnode]
    unfold updateWorldState
    rw [map_map]
    simp only [Function.comp_def, WorldState.setPeerRole_activatedPeers,
      WorldState.markPeerActivated, FinMap.find_insert, if_true]
    rfl
  refine ⟨hactivated, fun h => ?_⟩
  rw [h.worldState] at hactivated
  exact absurd hactivated (by decide)

end Node

end EssNode
