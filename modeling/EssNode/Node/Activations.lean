import EssNode.Node.Onboard

/-!
# Which Proposals Activate

Where the certificates of activated peers come from, in runs of direct requests and
onboarding requests.

A certificate is made in two places, and in both only when a proposal has just reached
an approving quorum. An onboarding request makes the certificate for the proposal it
has itself made, an activation. The handler of votes makes it for whatever proposal the
vote was on: it reads the target and not the type. So an approved ban activates the
peer it names (`approved_ban_activates`), and so does an announced proposal whose type
names another peer than its target.

What a run needs, so that only activations activate, is that there is nothing else to
vote on: the proposals at its start and those it takes up from announcements are
activations of their own targets (`only_activations_activate`). Those of onboarding
requests always are.
-/

namespace EssNode

open Authority Bincode Governance Onboarding Option

namespace Governance

def Proposal.Activates (p : Proposal) : Prop := p.proposalType = .activatePeer p.target

/-- Every proposal of an engine is one. -/
def Activates (e : GovernanceEngine) : Prop :=
  ∀ (pid : String) (p : Proposal), e.proposals[pid]? = some p → p.Activates

/-- What a proposal is about. -/
def Proposal.subject (p : Proposal) : ProposalType × String := (p.proposalType, p.target)

variable {e : GovernanceEngine}

theorem activates_of_subjects {e' : GovernanceEngine}
    (h : ∀ pid : String, (e'.proposals[pid]?).map Proposal.subject
      = (e.proposals[pid]?).map Proposal.subject) (he : Activates e) : Activates e' := by
  intro pid p hp
  have hsubject := h pid
  rw [hp, map_some, eq_comm, map_eq_some_iff] at hsubject
  rcases hsubject with ⟨q, hq, heq⟩
  have hact := he pid q hq
  unfold Proposal.subject at heq
  rw [Prod.mk.injEq] at heq
  rw [Proposal.Activates, ← heq.1, ← heq.2]
  exact hact

theorem activates_castVote (he : Activates e) (now₀ now₁ now₂ : UInt64) (pid voter : String)
    (approve : Bool) :
    Activates (castVote e now₀ now₁ now₂ pid voter approve).1 :=
  activates_of_subjects (map_castVote Proposal.subject (fun _ _ => rfl) (fun _ _ => rfl) e now₀
    now₁ now₂ pid voter approve) he

theorem activates_recordVote (he : Activates e) (now : UInt64) (pid voter : String)
    (approve : Bool) : Activates (e.recordVote now pid voter approve).1 :=
  activates_of_subjects (map_recordVote Proposal.subject (fun _ _ => rfl) e now pid voter approve)
    he

theorem activates_markExecuted (he : Activates e) (now : UInt64)
    (pid : String) : Activates (e.markExecuted now pid) :=
  activates_of_subjects (map_markExecuted Proposal.subject (fun _ _ => rfl) e now pid) he

theorem activates_createProposal (he : Activates e) (now createdAt : UInt64) (uuid : String)
    {ptype : ProposalType} {target : String}
    (htype : ptype = .activatePeer target) :
    Activates (e.createProposal now createdAt uuid ptype target).1 := by
  intro pid p hp
  rw [createProposal_eq] at hp
  rcases FinMap.find_insert_eq_some.mp hp with ⟨-, rfl⟩ | ⟨-, hold⟩
  · exact htype
  · exact he pid p hold

end Governance

namespace Node

variable (env : NodeEnv) (rd : Readings) (n : Node)

def certOf (peer : String) : Option (List UInt8) := n.worldState.bind (·.certOf peer)

theorem certOf_of_worldState {n m : Node} (hworld : m.worldState = n.worldState) (peer : String) :
    m.certOf peer = n.certOf peer := by
  rw [certOf, certOf, hworld]

theorem certOf_of_certified {n m : Node} {target peer : String} {certData : List UInt8}
    (hworld : m.worldState = n.worldState.map fun ws =>
      (ws.markPeerActivated target).setActivationCert target certData)
    (hother : target ≠ peer) : m.certOf peer = n.certOf peer := by
  rw [certOf, certOf, hworld]
  cases n.worldState with
  | none => rfl
  | some ws =>
    rw [map_some, bind_some, bind_some,
      WorldState.certOf_setActivationCert, if_neg hother, WorldState.certOf_markPeerActivated]

/-- Casting a vote leaves the world state alone and activates nobody, or the vote's
    proposal has been approved and its target gets a certificate. -/
theorem applyVote_cases (vote : VoteMessage) :
    ((n.applyVote env rd vote).1.worldState = n.worldState ∧
      (n.applyVote env rd vote).2 = none) ∨
    ∃ prop certData,
      (castVote n.governanceEngine (rd.clock 0) (rd.clock 1) (rd.clock 2) vote.proposalId
        vote.voter vote.approve).2 = some true ∧
      (n.applyVote env rd vote).1.governanceEngine.getProposal vote.proposalId = some prop ∧
      (n.applyVote env rd vote).1.worldState
        = n.worldState.map (fun ws =>
            (ws.markPeerActivated prop.target).setActivationCert prop.target certData) ∧
      ∀ told cert data, (n.applyVote env rd vote).2 = some (told, cert, data) →
        cert.target = prop.target := by
  have hengine := (applyVote_frame env rd n vote).1
  unfold applyVote at hengine ⊢
  dsimp only at hengine ⊢
  split
  · rename_i hdecided
    rw [if_pos hdecided] at hengine
    rw [hengine]
    unfold activateTarget
    dsimp only
    cases hprop : (castVote n.governanceEngine (rd.clock 0) (rd.clock 1) (rd.clock 2)
        vote.proposalId vote.voter vote.approve).1.getProposal vote.proposalId with
    | none => exact Or.inl ⟨rfl, rfl⟩
    | some prop =>
      dsimp only
      split
      · exact Or.inl ⟨rfl, rfl⟩
      · refine Or.inr ⟨prop, _, hdecided, rfl, rfl, ?_⟩
        intro told cert data htold
        rcases map_eq_some_iff.mp htold with ⟨target, -, hsent⟩
        rw [← (Prod.mk.inj (Prod.mk.inj hsent).2).1]
  · exact Or.inl ⟨rfl, rfl⟩

/-- Of the direct requests only an accepted vote activates anyone. -/
theorem onDirectRequest_activated {i : Incoming}
    {news : String × ActivationCertificate × List UInt8}
    (h : (n.onDirectRequest env i.readings i.peer i.request).activated = some news) :
    ∃ vote, Accepts env n i vote ∧ (n.applyVote env i.readings vote).2 = some news := by
  cases hbody : n.handlerBody env i.peer i.request with
  | none =>
    rw [(onDirectRequest_of_none i.readings hbody).2] at h
    exact absurd h (by simp)
  | some body =>
    rw [onDirectRequest_of_handlerBody i.readings hbody] at h
    unfold handleDirectRequest at h
    cases hkind : RequestKind.ofText i.request.kind with
    | governanceVote =>
      rw [hkind] at h
      dsimp only [handleVote] at h
      cases hvote : VoteMessage.codec.deserialize body with
      | none =>
        rw [hvote] at h
        exact absurd h (by simp)
      | some vote =>
        rw [hvote] at h
        dsimp only at h
        by_cases haccept : n.acceptsVote env i.peer vote = true
        · rw [if_pos haccept] at h
          refine ⟨vote, ⟨hkind, ?_, haccept⟩, h⟩
          rw [hbody, bind_some, hvote]
        · rw [if_neg haccept] at h
          exact absurd h (by simp)
    | crdtSync =>
      rw [hkind] at h
      dsimp only [handleCrdtSync] at h
      split at h
      · exact absurd h (by simp)
      · split at h <;> exact absurd h (by simp)
    | activationNotify =>
      rw [hkind] at h
      dsimp only [handleActivationNotify] at h
      split at h <;> exact absurd h (by simp)
    | governanceAnnounce =>
      rw [hkind] at h
      dsimp only [handleAnnounce] at h
      split at h
      · split at h <;> exact absurd h (by simp)
      · exact absurd h (by simp)
    | pqcHandshake =>
      rw [hkind] at h
      dsimp only [handlePqcHandshake] at h
      split at h
      · split at h <;> exact absurd h (by simp)
      · exact absurd h (by simp)
    | compute =>
      rw [hkind] at h
      dsimp only [handleCompute] at h
      split at h
      · exact absurd h (by simp)
      · split at h <;> exact absurd h (by simp)
    | plain =>
      rw [hkind] at h
      dsimp only [handlePlain] at h
      split at h
      · split at h
        · split at h <;> exact absurd h (by simp)
        · exact absurd h (by simp)
      · exact absurd h (by simp)

theorem certOf_receive {n : Node} {i : Incoming} {peer : String}
    (h : (n.receive env i).certOf peer ≠ n.certOf peer) : ∃ vote, Accepts env n i vote := by
  unfold receive certOf at h
  rcases n.onDirectRequest_node env i.readings i.peer i.request with
    ⟨body, hbody, hnode⟩ | ⟨-, hsame, -⟩
  · rw [hnode] at h
    -- A role that is set keeps the certificate, and the other writes are elsewhere.
    have heffect := n.handleDirectRequest_effect env i.readings i.peer i.request body
    generalize (n.handleDirectRequest env i.readings i.peer i.request body).node = m at heffect h
    cases heffect with
    | aside _ hdata _ _ =>
      rw [hdata.worldState] at h
      exact absurd rfl h
    | merged _ _ _ _ _ => exact absurd rfl h
    | announced _ _ _ _ => exact absurd rfl h
    | stored _ _ _ => exact absurd rfl h
    | notified cert _ _ =>
      refine absurd ?_ h
      rw [updateWorldState]
      cases n.worldState with
      | none => rfl
      | some ws => exact WorldState.certOf_setPeerRole _ _ _ _ _ _
    | voted vote hkind hvote haccept =>
      refine ⟨vote, hkind, ?_, haccept⟩
      rw [hbody, bind_some, hvote]
  · rw [hsame.worldState] at h
    exact absurd rfl h

end Node

inductive HostEvent where
  | direct (i : Incoming)
  | onboard (ev : OnboardEvent)

namespace Host

variable (env : NodeEnv) (reg : RegistryEnv) (h : Host)

def step : HostEvent → Host
  | .direct i => { h with node := h.node.receive env i }
  | .onboard ev => (h.handleOnboard env reg ev).host

def run (events : List HostEvent) : Host := events.foldl (step env reg) h

/-- The news of an activation that handling a request sends out. -/
def news : HostEvent → Option (String × ActivationCertificate × List UInt8)
  | .direct i => (h.node.onDirectRequest env i.readings i.peer i.request).activated
  | .onboard ev => (h.handleOnboard env reg ev).activated

/-- A request gives a peer a certificate: the one in its entry changes, or one that names
    it is sent out. -/
def Given (event : HostEvent) (peer : String) : Prop :=
  (h.step env reg event).node.certOf peer ≠ h.node.certOf peer ∨
    ∃ told cert data, h.news env reg event = some (told, cert, data) ∧ cert.target = peer

/-- A proposal reaches an approving quorum in the handling of a request: by a vote that
    is cast, or by the node's own vote on the proposal it makes. -/
def Approved (event : HostEvent) (pid : String) (prop : Proposal) : Prop :=
  (h.step env reg event).node.governanceEngine.getProposal pid = some prop ∧
    match event with
    | .direct i =>
      ∃ vote, Node.Accepts env h.node i vote ∧ vote.proposalId = pid ∧
        (castVote h.node.governanceEngine (i.readings.clock 0) (i.readings.clock 1)
          (i.readings.clock 2) pid vote.voter vote.approve).2 = some true
    | .onboard ev => ev.proposalId = pid ∧ (h.handleOnboard env reg ev).decision = some true

variable {env reg h}

variable {peer : String} {ev : OnboardEvent}

theorem nothing_given {n m : Node} {sent : Option (String × ActivationCertificate × List UInt8)}
    (hcert : m.certOf peer = n.certOf peer) (hsent : sent = none) :
    ¬ (m.certOf peer ≠ n.certOf peer ∨
      ∃ told cert data, sent = some (told, cert, data) ∧ cert.target = peer) := by
  rintro (hchanged | ⟨told, cert, data, hsome, -⟩)
  · exact hchanged hcert
  · rw [hsent] at hsome
    exact absurd hsome (by simp)

theorem given_direct {i : Incoming} (hgiven : h.Given env reg (.direct i) peer) :
    ∃ pid prop, h.Approved env reg (.direct i) pid prop ∧ prop.target = peer := by
  have hvote : ∃ vote, Node.Accepts env h.node i vote ∧
      ((h.node.applyVote env i.readings vote).1.certOf peer ≠ h.node.certOf peer ∨
        ∃ told cert data, (h.node.applyVote env i.readings vote).2 = some (told, cert, data) ∧
          cert.target = peer) := by
    rcases hgiven with hchanged | ⟨told, cert, data, hnews, htarget⟩
    · rcases Node.certOf_receive env hchanged with ⟨vote, haccepts⟩
      refine ⟨vote, haccepts, Or.inl ?_⟩
      rw [← haccepts.receive]
      exact hchanged
    · rcases h.node.onDirectRequest_activated env hnews with ⟨vote, haccepts, happlied⟩
      exact ⟨vote, haccepts, Or.inr ⟨told, cert, data, happlied, htarget⟩⟩
  rcases hvote with ⟨vote, haccepts, hcert⟩
  rcases h.node.applyVote_cases env i.readings vote with
    ⟨hsame, hnone⟩ | ⟨prop, certData, hdecided, hprop, hworld, htold⟩
  · exact absurd hcert (nothing_given (Node.certOf_of_worldState hsame peer) hnone)
  · refine ⟨vote.proposalId, prop, ⟨?_, vote, haccepts, rfl, hdecided⟩, ?_⟩
    · change (h.node.receive env i).governanceEngine.getProposal vote.proposalId = some prop
      rw [haccepts.receive]
      exact hprop
    · rcases hcert with hchanged | ⟨told, cert, data, hsome, htarget⟩
      · by_contra hother
        exact hchanged (Node.certOf_of_certified hworld hother)
      · rw [← htold told cert data hsome, htarget]

theorem subject_ownVoted (ev : OnboardEvent) (n : Node) :
    ((n.ownVoted ev).governanceEngine.proposals[ev.proposalId]?).map Proposal.subject
      = some (.activatePeer ev.peer, ev.peer) := by
  have hmade : ((n.proposed ev).governanceEngine.proposals[ev.proposalId]?).map Proposal.subject
      = some (.activatePeer ev.peer, ev.peer) := by
    rw [Node.proposed, createProposal_eq]
    dsimp only
    rw [OnboardEvent.proposalId, FinMap.find_insert, if_pos rfl]
    rfl
  rw [← hmade]
  exact map_recordVote Proposal.subject (fun _ _ => rfl) _ _ _ _ _ _

theorem certOf_checked (reg : RegistryEnv) (ev : OnboardEvent) {world : WorldState}
    (hworld : h.node.worldState = some world) (peer : String) :
    (h.checked reg ev world).certOf peer = h.node.certOf peer := by
  unfold Node.certOf checked
  rw [hworld, bind_some, bind_some]
  rcases handlePeerIdentified_cases reg ev.readings.check
    ⟨h.node.security, h.onboarding, world⟩ ev.peer ev.request with ⟨-, hsame⟩ | ⟨-, hmarked⟩
  · rw [identify, hsame]
  · rw [identify, hmarked, WorldState.certOf_markPeerActivated]

/-- What gives a peer a certificate on a node whose check was passed is the approval of
    the proposal that is made for it. -/
theorem given_putForward {onboarding : OnboardingState} {n : Node}
    (hgiven : (putForward env ev onboarding n).host.node.certOf peer ≠ n.certOf peer ∨
      ∃ told cert data, (putForward env ev onboarding n).activated = some (told, cert, data) ∧
        cert.target = peer) :
    peer = ev.peer ∧ (putForward env ev onboarding n).decision = some true ∧
      ∃ prop, (putForward env ev onboarding n).host.node.governanceEngine.getProposal ev.proposalId
          = some prop ∧ prop.subject = (.activatePeer ev.peer, ev.peer) := by
  rcases putForward_cases env ev onboarding n with
    ⟨hnode, -, hnone⟩ | ⟨hnode, hdecision, hactivated⟩
  · refine absurd hgiven (nothing_given ?_ hnone)
    rw [hnode]
    rfl
  rw [hnode, hactivated] at hgiven
  rw [hnode, hdecision]
  rcases (n.ownVoted ev).settle_cases env ev.readings ev.peer ev.proposalId with
    ⟨-, hsame, hnone⟩ | ⟨htrue, ⟨certData, hcert⟩, ⟨cert', data', hsent, htarget'⟩, hengine⟩ |
      ⟨-, hsame, hnone, -⟩
  · refine absurd hgiven (nothing_given ?_ hnone)
    rw [hsame]
    rfl
  · refine ⟨?_, htrue, ?_⟩
    · rcases hgiven with hchanged | ⟨told, cert, data, hsome, htarget⟩
      · by_contra hother
        exact hchanged (Node.certOf_of_certified (n := n) hcert (Ne.symm hother))
      · rw [hsent, some.injEq, Prod.mk.injEq, Prod.mk.injEq] at hsome
        rw [← htarget, ← hsome.2.1, htarget']
    · -- Executing the proposal leaves what it is about.
      have hsubject := map_markExecuted Proposal.subject (fun _ _ => rfl)
        (n.ownVoted ev).governanceEngine (ev.readings.clock 6) ev.proposalId ev.proposalId
      rw [subject_ownVoted, ← hengine] at hsubject
      exact map_eq_some_iff.mp hsubject
  · exact absurd hgiven (nothing_given (Node.certOf_of_worldState (n := n) hsame peer) hnone)

theorem given_onboard (hgiven : h.Given env reg (.onboard ev) peer) :
    ∃ prop, h.Approved env reg (.onboard ev) ev.proposalId prop ∧
      prop.subject = (.activatePeer peer, peer) := by
  change (h.handleOnboard env reg ev).host.node.certOf peer ≠ h.node.certOf peer ∨
    ∃ told cert data, (h.handleOnboard env reg ev).activated = some (told, cert, data) ∧
      cert.target = peer at hgiven
  cases hworld : h.node.worldState with
  | none =>
    have hhost : h.handleOnboard env reg ev
        = { host := h
            response := some
              { accepted := false, reason := some "WorldState not available" } } := by
      unfold handleOnboard
      rw [hworld]
    rw [hhost] at hgiven
    exact absurd hgiven (nothing_given rfl rfl)
  | some world =>
    cases haccepted : (h.identify reg ev world).2 with
    | false =>
      rcases handleOnboard_refused env hworld haccepted with ⟨hhost, hnone⟩
      rw [hhost] at hgiven
      exact absurd hgiven (nothing_given (certOf_checked reg ev hworld peer) hnone)
    | true =>
      have hforward := handleOnboard_accepted env hworld haccepted
      rw [hforward, ← certOf_checked reg ev hworld peer] at hgiven
      rcases given_putForward hgiven with ⟨rfl, hdecision, prop, hprop, hsubject⟩
      rw [← hforward] at hdecision hprop
      exact ⟨prop, ⟨hprop, rfl, hdecision⟩, hsubject⟩

theorem given_approved {event : HostEvent} (hgiven : h.Given env reg event peer) :
    ∃ pid prop, h.Approved env reg event pid prop ∧ prop.target = peer := by
  cases event with
  | direct i => exact given_direct hgiven
  | onboard ev =>
    rcases given_onboard hgiven with ⟨prop, happroved, hsubject⟩
    exact ⟨ev.proposalId, prop, happroved, congrArg Prod.snd hsubject⟩

variable (env h) in
/-- An announcement is made a proposal. -/
structure TakesUp (i : Incoming) (a : ProposalAnnouncement) : Prop where
  kind : RequestKind.ofText i.request.kind = .governanceAnnounce
  carried : (h.node.handlerBody env i.peer i.request).bind
    ProposalAnnouncement.codec.deserialize = some a
  unknown : h.node.governanceEngine.getProposal a.proposalId = none

theorem activates_putForward {onboarding : OnboardingState} {n : Node}
    (hall : Activates n.governanceEngine) :
    Activates (putForward env ev onboarding n).host.node.governanceEngine := by
  have hproposed : Activates (n.proposed ev).governanceEngine :=
    activates_createProposal hall _ _ _ rfl
  have hvoted : Activates (n.ownVoted ev).governanceEngine :=
    activates_recordVote hproposed _ _ _ _
  rcases putForward_cases env ev onboarding n with ⟨hnode, -, -⟩ | ⟨hnode, -, -⟩
  · rw [hnode]
    exact hproposed
  · rw [hnode]
    rcases (n.ownVoted ev).settle_cases env ev.readings ev.peer ev.proposalId with
      ⟨-, hsame, -⟩ | ⟨-, -, -, hengine⟩ | ⟨-, -, -, hengine⟩
    · rw [hsame]
      exact hvoted
    · rw [hengine]
      exact activates_markExecuted hvoted _ _
    · rw [hengine]
      exact activates_markExecuted hvoted _ _

/-- If activations are all there is, and all that is announced, they are all there is
    afterwards. -/
theorem activates_step {event : HostEvent} (hall : Activates h.node.governanceEngine)
    (hannounced : ∀ i a, event = .direct i → h.TakesUp env i a →
      a.proposalType = .activatePeer a.target) :
    Activates (h.step env reg event).node.governanceEngine := by
  cases event with
  | direct i =>
    change Activates (h.node.receive env i).governanceEngine
    unfold Node.receive
    rcases h.node.onDirectRequest_node env i.readings i.peer i.request with
      ⟨body, hbody, hnode⟩ | ⟨-, hsame, -⟩
    · rw [hnode]
      have heffect := h.node.handleDirectRequest_effect env i.readings i.peer i.request body
      generalize (h.node.handleDirectRequest env i.readings i.peer i.request body).node = m
        at heffect ⊢
      cases heffect with
      | aside _ hdata _ _ =>
        rw [hdata.governanceEngine]
        exact hall
      | merged _ _ _ _ _ => exact hall
      | notified _ _ _ => exact hall
      | stored _ _ _ => exact hall
      | voted vote _ _ _ =>
        rw [(Node.applyVote_frame env i.readings h.node vote).1]
        exact activates_castVote hall _ _ _ _ _ _
      | announced a hkind hdecoded hnew =>
        refine activates_createProposal hall _ _ _ (hannounced i a rfl ⟨hkind, ?_, hnew⟩)
        rw [hbody, bind_some, hdecoded]
    · rw [hsame.governanceEngine]
      exact hall
  | onboard ev =>
    change Activates (h.handleOnboard env reg ev).host.node.governanceEngine
    cases hworld : h.node.worldState with
    | none =>
      unfold handleOnboard
      rw [hworld]
      exact hall
    | some world =>
      cases haccepted : (h.identify reg ev world).2 with
      | false =>
        rw [(handleOnboard_refused env hworld haccepted).1]
        exact hall
      | true =>
        rw [handleOnboard_accepted env hworld haccepted]
        exact activates_putForward hall

theorem activates_run {events : List HostEvent} (hall : Activates h.node.governanceEngine)
    (hannounced : ∀ before i after a, events = before ++ .direct i :: after →
      (h.run env reg before).TakesUp env i a → a.proposalType = .activatePeer a.target) :
    Activates (h.run env reg events).node.governanceEngine := by
  induction events generalizing h with
  | nil => exact hall
  | cons event events ih =>
    refine ih (activates_step hall ?_) ?_
    · rintro i a rfl htakes
      exact hannounced [] i events a rfl htakes
    · rintro before i after a rfl htakes
      exact hannounced (event :: before) i after a rfl htakes

/-- In a run of direct and onboarding requests that starts with activations only, and
    takes up no announcement of anything else, every certificate that a peer is given
    comes from the approval of a proposal to activate that peer. -/
theorem only_activations_activate (env : NodeEnv) (reg : RegistryEnv) (h : Host)
    (events : List HostEvent) (hall : Activates h.node.governanceEngine)
    (hannounced : ∀ before i after a, events = before ++ .direct i :: after →
      (h.run env reg before).TakesUp env i a → a.proposalType = .activatePeer a.target)
    (before : List HostEvent) (event : HostEvent) (after : List HostEvent)
    (hevents : events = before ++ event :: after) (peer : String)
    (hgiven : (h.run env reg before).Given env reg event peer) :
    ∃ pid prop, (h.run env reg before).Approved env reg event pid prop ∧
      prop.proposalType = .activatePeer peer ∧ prop.target = peer := by
  have hbefore : Activates (h.run env reg before).node.governanceEngine := by
    refine activates_run hall ?_
    rintro earlier i later a rfl htakes
    exact hannounced earlier i (later ++ event :: after) a (by simp [hevents]) htakes
  have hstep : Activates ((h.run env reg before).step env reg event).node.governanceEngine := by
    refine activates_step hbefore ?_
    rintro i a rfl htakes
    exact hannounced before i after a hevents htakes
  rcases given_approved hgiven with ⟨pid, prop, happroved, htarget⟩
  have hact : prop.Activates := hstep pid prop happroved.1
  rw [Proposal.Activates, htarget] at hact
  exact ⟨pid, prop, happroved, hact, htarget⟩

end Host

section Ban

open Node

/-- A ban of a peer, or its activation. -/
def peerType (ban : Bool) : ProposalType := if ban then .banPeer "peer" else .activatePeer "peer"

/-- A supernode announces it. -/
def peerAnnouncement (ban : Bool) : ProposalAnnouncement where
  proposalId := proposalIdOf (peerType ban) "peer" "0009"
  proposer := "sn1"
  proposalType := peerType ban
  target := "peer"
  supernodeCountAtCreation := 1
  timestamp := 900

def peerCopy (ban : Bool) : Incoming where
  peer := "sn1"
  request :=
    { kind := "governance.announce"
      body := EssRequest.codec.serialize
        (.directRequest
          { body := ProposalAnnouncement.codec.serialize (peerAnnouncement ban) }) }
  readings := readingsAt 900

/-- It votes for it, under the identifier the receiver has drawn. -/
def peerVote (ban : Bool) : VoteMessage :=
  { ballotVote "c24x" with proposalId := proposalIdOf (peerType ban) "peer" "0002" }

def peerBallot (ban : Bool) : Incoming where
  peer := "sn1"
  request :=
    { kind := "governance.vote"
      body := EssRequest.codec.serialize
        (.directRequest { body := VoteMessage.codec.serialize (peerVote ban) }) }
  readings := readingsAt 910

/-- The only supernode, after bootstrap is over. -/
def sn1Engine : GovernanceEngine :=
  Governance.run (.new ["sn2"] (33 / 50) 0)
    [.updateSupernodes 10 ["sn1", "sn2"], .updateSupernodes 20 ["sn1"]]

/-- The receiver, who has the peer in its registry. -/
def peerHost : Host where
  node := { ballotNode with worldState := some joinWorld, governanceEngine := sn1Engine }
  onboarding := .new

variable (reg : RegistryEnv) (ban : Bool)

theorem peerCopy_announces :
    Announces nameEnv peerHost.node (peerCopy ban) (peerAnnouncement ban) ∧
      ProposalAnnouncement.codec.Fits (peerAnnouncement ban) := by
  have hpid : string.Fits (peerAnnouncement ban).proposalId :=
    string_fits (by cases ban <;> decide +kernel)
  have hproposer : string.Fits "sn1" := string_fits (by decide)
  have htarget : string.Fits "peer" := string_fits (by decide)
  have htype : proposalTypeCodec.Fits (peerType ban) := by cases ban <;> exact htarget
  refine ⟨⟨show RequestKind.ofText "governance.announce" = .governanceAnnounce by decide,
    handlerBody_wrapped nameEnv peerHost.node _ (peerCopy ban).request
      (DirectRequest.codec_fits_body (by cases ban <;> decide +kernel)) rfl⟩, ?_⟩
  exact ⟨hpid, hproposer, htype, htarget, u64_fits 1, u64_fits 900⟩

/-- The receiver once it has heard of the proposal. -/
def peerHeard (ban : Bool) : Host :=
  { peerHost with
    node :=
      { peerHost.node with
        governanceEngine := hear (peerAnnouncement ban) sn1Engine (readingsAt 900) } }

theorem run_peerCopy : peerHost.run nameEnv reg [.direct (peerCopy ban)] = peerHeard ban := by
  rcases peerCopy_announces ban with ⟨hannounces, hfits⟩
  rw [Host.run, List.foldl_cons, List.foldl_nil, Host.step, hannounces.receive hfits]
  rfl

theorem peerBallot_accepts :
    Accepts nameEnv (peerHeard ban).node (peerBallot ban) (peerVote ban) := by
  refine ⟨show RequestKind.ofText "governance.vote" = .governanceVote by decide, ?_,
    by cases ban <;> decide +kernel⟩
  rw [handlerBody_wrapped nameEnv (peerHeard ban).node _ (peerBallot ban).request
    (DirectRequest.codec_fits_body (by cases ban <;> decide +kernel)) rfl, bind_some]
  refine VoteMessage.codec.deserialize_serialize ?_
  have hpid : string.Fits (peerVote ban).proposalId :=
    string_fits (by cases ban <;> decide +kernel)
  exact ⟨hpid, (ballotVote_fits (by decide)).2⟩

theorem peerBallot_gives :
    (peerHeard ban).node.certOf "peer" = none ∧
      ((peerHeard ban).step nameEnv reg (.direct (peerBallot ban))).node.certOf "peer"
        = some [] ∧
      (((peerHeard ban).step nameEnv reg
          (.direct (peerBallot ban))).node.governanceEngine.getProposal
        (peerVote ban).proposalId).map Proposal.subject = some (peerType ban, "peer") := by
  have hstep : (peerHeard ban).step nameEnv reg (.direct (peerBallot ban))
      = { peerHeard ban with
          node := ((peerHeard ban).node.applyVote nameEnv (readingsAt 910) (peerVote ban)).1 } := by
    rw [Host.step, (peerBallot_accepts ban).receive]
    rfl
  rw [hstep]
  cases ban <;> decide +kernel

theorem peerBallot_given : (peerHeard ban).Given nameEnv reg (.direct (peerBallot ban)) "peer" := by
  rcases peerBallot_gives reg ban with ⟨hbefore, hafter, -⟩
  left
  rw [hbefore, hafter]
  exact some_ne_none []

/-- An announced activation activates its peer, and is what activated it. -/
theorem announced_activation_activates :
    (peerHost.run nameEnv (registryEnv tagKey) [.direct (peerCopy false)]).Given nameEnv
        (registryEnv tagKey) (.direct (peerBallot false)) "peer" ∧
      ∃ pid prop, (peerHost.run nameEnv (registryEnv tagKey) [.direct (peerCopy false)]).Approved
          nameEnv (registryEnv tagKey) (.direct (peerBallot false)) pid prop ∧
        prop.proposalType = .activatePeer "peer" ∧ prop.target = "peer" := by
  have hgiven : (peerHost.run nameEnv (registryEnv tagKey) [.direct (peerCopy false)]).Given nameEnv
      (registryEnv tagKey) (.direct (peerBallot false)) "peer" := by
    rw [run_peerCopy]
    exact peerBallot_given _ false
  have hall : Activates peerHost.node.governanceEngine := by
    intro pid p hp
    have hnone : peerHost.node.governanceEngine.proposals = ∅ := by decide +kernel
    rw [hnone, Std.ExtTreeMap.getElem?_empty] at hp
    exact absurd hp (by simp)
  refine ⟨hgiven, Host.only_activations_activate nameEnv (registryEnv tagKey) peerHost
    [.direct (peerCopy false), .direct (peerBallot false)] hall ?_ [.direct (peerCopy false)]
    _ [] rfl "peer" hgiven⟩
  intro before i after a hevents htakes
  -- The vote is no announcement, and the announcement is the one above.
  have hmem : HostEvent.direct i ∈
      [HostEvent.direct (peerCopy false), HostEvent.direct (peerBallot false)] := by
    rw [hevents]
    simp
  rcases List.mem_cons.mp hmem with hcopy | hballot
  · rw [HostEvent.direct.injEq] at hcopy
    have hcarried := htakes.carried
    rw [hcopy, handlerBody_wrapped nameEnv _ _ (peerCopy false).request
      (DirectRequest.codec_fits_body (by decide +kernel)) rfl, bind_some,
      ProposalAnnouncement.codec.deserialize_serialize (peerCopy_announces false).2,
      some.injEq] at hcarried
    rw [← hcarried]
    rfl
  · rw [List.mem_singleton, HostEvent.direct.injEq] at hballot
    have hkind := htakes.kind
    rw [hballot] at hkind
    exact absurd hkind (by decide)

/-- An announced ban is approved, and its target is activated. No proposal to activate it
    was approved. -/
theorem approved_ban_activates :
    let h := peerHost.run nameEnv (registryEnv tagKey) [.direct (peerCopy true)]
    h.Given nameEnv (registryEnv tagKey) (.direct (peerBallot true)) "peer" ∧
      (∃ prop, h.Approved nameEnv (registryEnv tagKey) (.direct (peerBallot true))
        (peerVote true).proposalId prop ∧ prop.proposalType = .banPeer "peer") ∧
      ¬ ∃ pid prop, h.Approved nameEnv (registryEnv tagKey) (.direct (peerBallot true)) pid prop ∧
        prop.proposalType = .activatePeer "peer" := by
  intro h
  have hheard : h = peerHeard true := run_peerCopy _ true
  rw [hheard]
  rcases peerBallot_gives (registryEnv tagKey) true with ⟨-, -, hsubject⟩
  rcases map_eq_some_iff.mp hsubject with ⟨prop, hprop, heq⟩
  have htype : prop.proposalType = .banPeer "peer" := congrArg Prod.fst heq
  refine ⟨peerBallot_given _ true,
    ⟨prop, ⟨hprop, peerVote true, peerBallot_accepts true, rfl, by decide +kernel⟩, htype⟩, ?_⟩
  rintro ⟨pid, prop', ⟨hprop', vote, haccepts, hpid, -⟩, htype'⟩
  -- The request carries one vote, so it is on the ban.
  have hvote : vote = peerVote true := by
    have hcarried := haccepts.carried
    rw [(peerBallot_accepts true).carried, some.injEq] at hcarried
    exact hcarried.symm
  rw [← hpid, hvote, hprop, some.injEq] at hprop'
  rw [← hprop', htype] at htype'
  exact absurd htype' (by simp)

end Ban

end EssNode
