import EssNode.Node.Votes

/-!
# Announced Proposals

Whether a proposal made on one node becomes the same proposal on another.

The node that makes a proposal announces it under its identifier, and the receiver
looks for that identifier. If it is not known, the receiver makes a proposal of its
own, with the announced type and target, and draws a new identifier for it. So the
announced identifier stays unknown, every further copy of the announcement makes
another proposal, and a vote on the announced identifier finds nothing to be
recorded on.

The two nodes agree exactly when the receiver held the open proposal before, or
when it draws, for the first copy, the very identifier its peer drew, outside of
bootstrap mode (`announcement_agrees_iff`).
-/

namespace EssNode

namespace Governance

open GovernanceEngine

/-- Make a proposal and announce it. -/
def GovernanceEngine.announce (e : GovernanceEngine) (now createdAt timestamp : UInt64)
    (uuid proposer : String) (ptype : ProposalType) (target : String) :
    GovernanceEngine × ProposalAnnouncement :=
  let created := e.createProposal now createdAt uuid ptype target
  (created.1,
    { proposalId := created.2, proposer := proposer, proposalType := ptype, target := target
      supernodeCountAtCreation := .ofNat created.1.supernodes.card, timestamp := timestamp })

theorem proposalIdOf_injective (ptype : ProposalType) (target : String) :
    Function.Injective (proposalIdOf ptype target) := by
  intro uuid uuid' h
  unfold proposalIdOf at h
  simpa using h

/-- What the handler of announcements does to the engine. -/
def hear (a : ProposalAnnouncement) (e : GovernanceEngine) (rd : Readings) : GovernanceEngine :=
  if (e.getProposal a.proposalId).isNone then
    -- The announced identifier is not passed on.
    (e.createProposal (rd.clock 0) (rd.clock 1) rd.uuid a.proposalType a.target).1
  else e

def hearAll (a : ProposalAnnouncement) (e : GovernanceEngine) (draws : List Readings) :
    GovernanceEngine :=
  draws.foldl (hear a) e

/-- The engine holds what it held and the announced proposal, which is open. -/
structure Agrees (e e' : GovernanceEngine) (pid : String) : Prop where
  identifiers : ∀ p, (e'.proposals[p]?).isSome ↔ (e.proposals[p]?).isSome ∨ p = pid
  isOpen : e'.OpenAt pid

/-- The proposal was there and open, or it was not there, and the first copy draws the
    identifier that is announced, outside of bootstrap mode. -/
def Settled (e : GovernanceEngine) (pid uuid : String) (draws : List Readings) : Prop :=
  e.OpenAt pid ∨
    (e.proposals[pid]? = none ∧
      ∃ rd rest, draws = rd :: rest ∧ rd.uuid = uuid ∧ ¬ e.Bootstrapping (rd.clock 0))

section Hearing

variable {a : ProposalAnnouncement} {e : GovernanceEngine}

theorem hearAll_of_known (h : (e.proposals[a.proposalId]?).isSome) (draws : List Readings) :
    hearAll a e draws = e := by
  induction draws with
  | nil => rfl
  | cons rd draws ih =>
    have hhear : hear a e rd = e := by
      rw [hear, getProposal, if_neg (by simpa using h)]
    change hearAll a (hear a e rd) draws = e
    rw [hhear, ih]

theorem hear_of_unknown (h : e.proposals[a.proposalId]? = none) (rd : Readings) :
    ∃ p : Proposal, (p.executed = true ↔ e.Bootstrapping (rd.clock 0)) ∧
      (hear a e rd).proposals =
        e.proposals.insert (proposalIdOf a.proposalType a.target rd.uuid) p := by
  rw [hear, getProposal, h, if_pos (by rfl)]
  exact createProposal_insert e _ _ _ _ _

theorem isSome_hearAll {pid : String} (h : (e.proposals[pid]?).isSome) (draws : List Readings) :
    ((hearAll a e draws).proposals[pid]?).isSome := by
  induction draws generalizing e with
  | nil => exact h
  | cons rd draws ih =>
    refine ih ?_
    cases hknown : e.proposals[a.proposalId]? with
    | some p =>
      have hsame := hearAll_of_known (e := e) (a := a) (by simp [hknown]) [rd]
      rw [show hear a e rd = e from hsame]
      exact h
    | none =>
      obtain ⟨p, -, hinsert⟩ := hear_of_unknown hknown rd
      rw [hinsert, FinMap.find_insert]
      split
      · rfl
      · exact h

theorem hearAll_cons_of_unknown {uuid : String}
    (hpid : a.proposalId = proposalIdOf a.proposalType a.target uuid)
    (h : e.proposals[a.proposalId]? = none) {rd : Readings} (huuid : rd.uuid = uuid)
    (draws : List Readings) :
    ∃ p : Proposal, (p.executed = true ↔ e.Bootstrapping (rd.clock 0)) ∧
      (hearAll a e (rd :: draws)).proposals = e.proposals.insert a.proposalId p := by
  obtain ⟨p, hexecuted, hinsert⟩ := hear_of_unknown h rd
  rw [huuid, ← hpid] at hinsert
  refine ⟨p, hexecuted, ?_⟩
  -- The first copy was filed under the announced name, so the others are known.
  change (hearAll a (hear a e rd) draws).proposals = _
  rw [hearAll_of_known (by rw [hinsert, FinMap.find_insert, if_pos rfl]; rfl), hinsert]

theorem agrees_hearAll_iff {uuid : String}
    (hpid : a.proposalId = proposalIdOf a.proposalType a.target uuid) {draws : List Readings}
    (hfresh : e.proposals[a.proposalId]? = none → ∀ rd ∈ draws,
      e.proposals[proposalIdOf a.proposalType a.target rd.uuid]? = none) :
    Agrees e (hearAll a e draws) a.proposalId ↔ Settled e a.proposalId uuid draws := by
  cases hknown : e.proposals[a.proposalId]? with
  | some p =>
    rw [hearAll_of_known (by simp [hknown])]
    have hself : ∀ q, (e.proposals[q]?).isSome ↔ (e.proposals[q]?).isSome ∨ q = a.proposalId := by
      intro q
      constructor
      · exact .inl
      · rintro (h | rfl)
        · exact h
        · simp [hknown]
    constructor
    · exact fun h => .inl h.isOpen
    · rintro (hopen | ⟨hnone, -⟩)
      · exact ⟨hself, hopen⟩
      · simp [hknown] at hnone
  | none =>
    have hclosed : ¬ e.OpenAt a.proposalId := by
      rintro ⟨p, hp, -⟩
      simp [hknown] at hp
    constructor
    · intro h
      cases draws with
      | nil =>
        have := (h.identifiers a.proposalId).mpr (.inr rfl)
        simp [hearAll, hknown] at this
      | cons rd draws =>
        by_cases huuid : rd.uuid = uuid
        · obtain ⟨p, hexecuted, hinsert⟩ := hearAll_cons_of_unknown hpid hknown huuid draws
          obtain ⟨q, hq, hopen⟩ := h.isOpen
          rw [hinsert, FinMap.find_insert, if_pos rfl, Option.some.injEq] at hq
          refine .inr ⟨hknown, rd, draws, rfl, huuid, fun hboot => ?_⟩
          rw [← hq, hexecuted.mpr hboot] at hopen
          exact absurd hopen (by simp)
        · -- The first copy was filed under a name that is neither old nor announced.
          obtain ⟨p, -, hinsert⟩ := hear_of_unknown hknown rd
          have hheard : ((hearAll a e (rd :: draws)).proposals[
              proposalIdOf a.proposalType a.target rd.uuid]?).isSome :=
            isSome_hearAll (by rw [hinsert, FinMap.find_insert, if_pos rfl]; rfl) draws
          rcases (h.identifiers _).mp hheard with hold | hannounced
          · simp [hfresh hknown rd (by simp)] at hold
          · rw [hpid] at hannounced
            exact absurd (proposalIdOf_injective _ _ hannounced) huuid
    · rintro (hopen | ⟨-, rd, rest, rfl, huuid, hboot⟩)
      · exact absurd hopen hclosed
      · obtain ⟨p, hexecuted, hinsert⟩ := hearAll_cons_of_unknown hpid hknown huuid rest
        refine ⟨fun q => ?_, p, ?_, ?_⟩
        · rw [hinsert, FinMap.find_insert]
          by_cases hq : a.proposalId = q
          · simp [hq]
          · simp [hq, Ne.symm hq]
        · rw [hinsert, FinMap.find_insert, if_pos rfl]
        · rw [← Bool.not_eq_true, hexecuted]
          exact hboot

end Hearing

theorem recordVote_supernode_iff {e : GovernanceEngine} {pid voter : String}
    (hvoter : voter ∈ e.supernodes) (now : UInt64) (approve : Bool) :
    (e.recordVote now pid voter approve).2 = .ok () ↔ e.OpenAt pid := by
  rw [recordVote_eq_ok_iff]
  constructor
  · rintro ⟨p, hp, hopen, -⟩
    exact ⟨p, hp, hopen⟩
  · rintro ⟨p, hp, hopen⟩
    exact ⟨p, hp, hopen, hvoter⟩

end Governance

namespace Node

open Bincode Governance

variable (env : NodeEnv)

structure Announces (n : Node) (i : Incoming) (a : ProposalAnnouncement) : Prop where
  kind : RequestKind.ofText i.request.kind = .governanceAnnounce
  carried : n.handlerBody env i.peer i.request = some (ProposalAnnouncement.codec.serialize a)

/-- A run in which copies of an announcement are delivered, with the readings each of
    them is handled with, among requests that leave the engine alone. -/
inductive Delivery (a : ProposalAnnouncement) : Node → List Incoming → List Readings → Prop where
  | done (n : Node) : Delivery a n [] []
  | copy {n : Node} {i : Incoming} {ins : List Incoming} {draws : List Readings}
      (hcopy : Announces env n i a) (hrest : Delivery a (n.receive env i) ins draws) :
      Delivery a n (i :: ins) (i.readings :: draws)
  | other {n : Node} {i : Incoming} {ins : List Incoming} {draws : List Readings}
      (hengine : (n.receive env i).governanceEngine = n.governanceEngine)
      (hrest : Delivery a (n.receive env i) ins draws) : Delivery a n (i :: ins) draws

variable {env}

theorem Announces.receive {n : Node} {i : Incoming} {a : ProposalAnnouncement}
    (hfits : ProposalAnnouncement.codec.Fits a) (h : Announces env n i a) :
    n.receive env i = { n with governanceEngine := hear a n.governanceEngine i.readings } := by
  have hbody := ProposalAnnouncement.codec.deserialize_serialize hfits
  unfold Node.receive
  rcases n.onDirectRequest_node env i.readings i.peer i.request with
    ⟨body, hcarried, hnode⟩ | ⟨hnone, -, -⟩
  · rw [h.carried, Option.some.injEq] at hcarried
    rw [hnode, ← hcarried, handleDirectRequest, h.kind]
    dsimp only [handleAnnounce]
    rw [hbody, hear]
    dsimp only
    split <;> rfl
  · rw [h.carried] at hnone
    exact absurd hnone (by simp)

theorem delivery_governanceEngine {n : Node} {ins : List Incoming} {draws : List Readings}
    {a : ProposalAnnouncement} (hfits : ProposalAnnouncement.codec.Fits a)
    (h : Delivery env a n ins draws) :
    (n.run env ins).governanceEngine = hearAll a n.governanceEngine draws := by
  induction h with
  | done n => rfl
  | copy hcopy _ ih =>
    refine ih.trans ?_
    rw [hcopy.receive hfits]
    rfl
  | other hengine _ ih =>
    refine ih.trans ?_
    rw [hengine]

/-- A proposal is made on one node and copies of its announcement are delivered to
    another, whose own draws are new to it. The other ends with the announced proposal,
    open, and no other new one, exactly if it held it open before, or draws the
    announced identifier for the first copy outside of bootstrap mode. A supernode's
    vote on the announced identifier is stored exactly if the proposal is there and
    open. -/
theorem announcement_agrees_iff (env : NodeEnv) (maker : GovernanceEngine)
    (now createdAt timestamp : UInt64) (uuid proposer : String) (ptype : ProposalType)
    (target : String) (n : Node) (ins : List Incoming) (draws : List Readings) :
    let a := (maker.announce now createdAt timestamp uuid proposer ptype target).2
    let m := n.run env ins
    ProposalAnnouncement.codec.Fits a → Delivery env a n ins draws →
    (n.governanceEngine.proposals[a.proposalId]? = none → ∀ rd ∈ draws,
      n.governanceEngine.proposals[proposalIdOf ptype target rd.uuid]? = none) →
    (Agrees n.governanceEngine m.governanceEngine a.proposalId ↔
      Settled n.governanceEngine a.proposalId uuid draws) ∧
    ∀ i vote, Accepts env m i vote → vote.proposalId = a.proposalId →
      vote.voter ∈ m.governanceEngine.supernodes →
        (Stores env m i vote ↔ m.governanceEngine.OpenAt a.proposalId) := by
  intro a m hfits hdelivery hfresh
  constructor
  · have hengine : m.governanceEngine = hearAll a n.governanceEngine draws :=
      delivery_governanceEngine hfits hdelivery
    rw [hengine]
    exact agrees_hearAll_iff (createProposal_snd maker now createdAt uuid ptype target) hfresh
  · intro i vote haccepts hpid hvoter
    rw [← hpid, ← recordVote_supernode_iff hvoter (i.readings.clock 0) vote.approve]
    exact ⟨fun h => h.recorded,
      fun h => ⟨haccepts.kind, haccepts.carried, haccepts.accepted, h⟩⟩

theorem voteOf_receive_of_unknown {n : Node} {pid : String}
    (h : n.governanceEngine.proposals[pid]? = none) (i : Incoming) (v : String) :
    Governance.voteOf (n.receive env i).governanceEngine pid v = none := by
  rw [Option.eq_none_iff_forall_ne_some]
  intro b hvote
  rcases receive_voteOf hvote with hold | ⟨vote, hstores, hpid, -, -⟩
  · simp [Governance.voteOf, h] at hold
  · obtain ⟨p, hp, -⟩ := (recordVote_eq_ok_iff _ _ _ _ _).mp hstores.recorded
    rw [hpid, h] at hp
    exact absurd hp (by simp)

/-- An engine of two supernodes proposes to activate a peer. -/
def announcement : ProposalAnnouncement :=
  ((GovernanceEngine.new ["sn1", "sn2"] (2 / 3) 0).announce 0 0 5 "0009" "sn2"
    (.activatePeer "eve") "eve").2

theorem announcement_fits : ProposalAnnouncement.codec.Fits announcement := by
  have hpid : string.Fits announcement.proposalId := string_fits (by decide)
  have hproposer : string.Fits "sn2" := string_fits (by decide)
  have htarget : string.Fits "eve" := string_fits (by decide)
  exact ⟨hpid, hproposer, htarget, htarget, u64_fits 2, u64_fits 5⟩

/-- A copy of the announcement, and what the receiver draws for it. -/
def announcedCopy (uuid : String) : Incoming where
  peer := "sn2"
  request :=
    { kind := "governance.announce"
      body := EssRequest.codec.serialize
        (.directRequest { body := ProposalAnnouncement.codec.serialize announcement }) }
  readings := { readingsAt 10 with uuid := uuid }

theorem announcedCopy_announces (n : Node) (uuid : String) :
    Announces nameEnv n (announcedCopy uuid) announcement :=
  ⟨show RequestKind.ofText "governance.announce" = .governanceAnnounce by decide,
    handlerBody_wrapped nameEnv n "sn2" (announcedCopy uuid).request
      (DirectRequest.codec_fits_body (by decide)) rfl⟩

theorem announcedCopies_delivery (uuid uuid' : String) :
    Delivery nameEnv announcement ballotNode [announcedCopy uuid, announcedCopy uuid']
      [(announcedCopy uuid).readings, (announcedCopy uuid').readings] :=
  .copy (announcedCopy_announces _ _) (.copy (announcedCopy_announces _ _) (.done _))

/-- The receiver happens to draw what its peer drew. -/
theorem same_draw_agrees :
    let m := ballotNode.run nameEnv [announcedCopy "0009", announcedCopy "0002"]
    Agrees ballotNode.governanceEngine m.governanceEngine announcement.proposalId := by
  have hagrees := (announcement_agrees_iff nameEnv (GovernanceEngine.new ["sn1", "sn2"] (2 / 3) 0)
    0 0 5 "0009" "sn2" (.activatePeer "eve") "eve" ballotNode
    [announcedCopy "0009", announcedCopy "0002"]
    [(announcedCopy "0009").readings, (announcedCopy "0002").readings] announcement_fits
    (announcedCopies_delivery "0009" "0002") (by decide +kernel)).1
  refine hagrees.mpr (.inr ⟨by decide +kernel, _, _, rfl, rfl, ?_⟩)
  unfold GovernanceEngine.Bootstrapping
  decide +kernel

def announcedVote : VoteMessage :=
  { ballotVote "c24x" with proposalId := announcement.proposalId }

def announcedBallot : Incoming where
  peer := "sn1"
  request :=
    { kind := "governance.vote"
      body := EssRequest.codec.serialize
        (.directRequest { body := VoteMessage.codec.serialize announcedVote }) }
  readings := readingsAt 20

/-- Two copies make two proposals, neither under the announced identifier, and the vote
    of a supernode, which is accepted, is not recorded. -/
theorem copies_multiply :
    let m := ballotNode.run nameEnv [announcedCopy "0002", announcedCopy "0003"]
    let made := proposalIdOf (.activatePeer "eve") "eve"
    m.governanceEngine.proposals[announcement.proposalId]? = none ∧
      (m.governanceEngine.proposals[made "0002"]?).isSome ∧
      (m.governanceEngine.proposals[made "0003"]?).isSome ∧
      "sn1" ∈ m.governanceEngine.supernodes ∧
      Accepts nameEnv m announcedBallot announcedVote ∧
      Governance.voteOf (m.receive nameEnv announcedBallot).governanceEngine
        announcement.proposalId "sn1" = none := by
  intro m made
  have hm : m = { ballotNode with
      governanceEngine := hearAll announcement ballotEngine
        [(announcedCopy "0002").readings, (announcedCopy "0003").readings] } := by
    change (ballotNode.receive nameEnv _).receive nameEnv _ = _
    rw [(announcedCopy_announces _ _).receive announcement_fits,
      (announcedCopy_announces _ _).receive announcement_fits]
    rfl
  -- What the engine holds after both copies.
  have hheld : m.governanceEngine.proposals[announcement.proposalId]? = none ∧
      (m.governanceEngine.proposals[made "0002"]?).isSome ∧
      (m.governanceEngine.proposals[made "0003"]?).isSome := by
    rw [hm]
    decide +kernel
  have hcarried : (m.handlerBody nameEnv "sn1" announcedBallot.request).bind
      VoteMessage.codec.deserialize = some announcedVote := by
    rw [handlerBody_wrapped nameEnv m "sn1" announcedBallot.request
      (DirectRequest.codec_fits_body (by decide)) rfl, Option.bind_some]
    refine VoteMessage.codec.deserialize_serialize ?_
    have hpid : string.Fits announcement.proposalId := string_fits (by decide)
    exact ⟨hpid, (ballotVote_fits (by decide)).2⟩
  have haccepted : m.acceptsVote nameEnv "sn1" announcedVote = true := by
    rw [hm]
    decide +kernel
  rcases hheld with ⟨hunknown, hfirst, hsecond⟩
  refine ⟨hunknown, hfirst, hsecond, ?_, ⟨by decide, hcarried, haccepted⟩,
    voteOf_receive_of_unknown hunknown announcedBallot "sn1"⟩
  rw [hm]
  decide +kernel

end Node

end EssNode
