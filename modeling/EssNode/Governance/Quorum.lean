import EssNode.Governance.Engine

/-!
# What a Quorum Answer Means

Two questions about `checkQuorum`: whether an approval was earned, and whether
two engines can disagree.

An approval is earned when the approving votes reach the ratio, or when the one
supernode of two that voted approved and the other let the time run out. The
engine's timeout branch does not look at the vote, and it measures time by a
subtraction that wraps, so a lone rejection is answered with an approval and so
is any lone vote read before its proposal was created.
`checkQuorum_earned_iff` says that these are the only ways it goes wrong.

Two engines that hear different subsets of one vote per supernode cannot give
opposite answers when the ratio is above one half: the approvals one counts and
the rejections the other counts come from disjoint sets of supernodes. This
needs at least three supernodes, which keeps the timeout branch out.
-/

namespace EssNode

namespace Governance

open GovernanceEngine

/-- The approving votes reach the ratio of the supernodes. -/
def ReachesQuorum (ratio : ℚ) (p : Proposal) : Prop :=
  ratio * p.supernodeCount ≤ p.yes

/-- One of two supernodes voted, it approved, and more than the timeout has
    passed since the proposal was created. -/
def LoneApproval (p : Proposal) (timeoutSecs now : UInt64) : Prop :=
  p.supernodeCount = 2 ∧ p.votes.toList.map Prod.snd = [true] ∧
    p.createdAt.toNat + timeoutSecs.toNat < now.toNat

theorem lt_sub_iff (createdAt timeoutSecs now : UInt64) (hle : createdAt ≤ now) :
    timeoutSecs < now - createdAt ↔ createdAt.toNat + timeoutSecs.toNat < now.toNat := by
  have hsub : (now - createdAt).toNat = now.toNat - createdAt.toNat :=
    UInt64.toNat_sub_of_le _ _ hle
  rw [UInt64.le_iff_toNat_le] at hle
  rw [UInt64.lt_iff_toNat_lt, hsub]
  omega

/-- In every engine reached from a fresh one, an approval of an open proposal
    is earned exactly when the timeout branch, if it decides, finds an
    approving vote and a clock that has not gone back. -/
theorem checkQuorum_earned_iff (supernodes : List String) (ratio : ℚ) (start : UInt64)
    (ops : List Op) (pid : String) (p : Proposal) (timeoutSecs now : UInt64)
    (hp : (run (GovernanceEngine.new supernodes ratio start) ops).proposals[pid]? = some p)
    (hopen : p.executed = false) :
    ((run (GovernanceEngine.new supernodes ratio start) ops).checkQuorum pid timeoutSecs now
        = some true →
      ReachesQuorum ratio p ∨ LoneApproval p timeoutSecs now) ↔
    (LoneTimeout ratio p timeoutSecs now →
      p.votes.toList.map Prod.snd = [true] ∧ p.createdAt ≤ now) := by
  rw [checkQuorum_eq_true_iff hp hopen, run_quorumRatio]
  change ((p.supernodeCount ≠ 0 ∧ ratio * p.supernodeCount ≤ p.yes) ∨
    LoneTimeout ratio p timeoutSecs now → _) ↔ _
  constructor
  · intro hearned htimeout
    rcases hearned (Or.inr htimeout) with hquorum | ⟨-, hvote, htime⟩
    · -- The branch is only reached below the ratio.
      exact absurd hquorum (not_le_of_gt htimeout.yes_below)
    · refine ⟨hvote, UInt64.le_iff_toNat_le.mpr ?_⟩
      omega
  · rintro hcond (⟨-, hquorum⟩ | htimeout)
    · exact Or.inl hquorum
    · rcases hcond htimeout with ⟨hvote, hle⟩
      exact Or.inr ⟨htimeout.two, hvote, (lt_sub_iff _ _ _ hle).mp htimeout.elapsed⟩

/-- The identifier the engine gives a proposal to activate `peerC`. -/
def lonePid : String := "ActivatePeer(\"peerC\")-peerC-7f3a"

/-- One of two supernodes votes on a fresh proposal. -/
def loneVoteOps (approve : Bool) : List Op :=
  [.createProposal 0 0 "7f3a" (.activatePeer "peerC") "peerC",
   .recordVote 1 lonePid "sn1" approve]

/-- The proposal that vote leaves. -/
def loneProposal (approve : Bool) : Proposal where
  proposalId := lonePid
  proposalType := .activatePeer "peerC"
  target := "peerC"
  createdAt := 0
  supernodeCount := 2
  votes := (∅ : FinMap String Bool).insert "sn1" approve
  executed := false

/-- A lone approval is earned once ten minutes have passed. -/
theorem lone_approval_earned :
    (run (GovernanceEngine.new ["sn1", "sn2"] (2 / 3) 0) (loneVoteOps true)).proposals[lonePid]?
        = some (loneProposal true) ∧
      ((run (GovernanceEngine.new ["sn1", "sn2"] (2 / 3) 0) (loneVoteOps true)).checkQuorum
          lonePid 600 601 = some true →
        ReachesQuorum (2 / 3) (loneProposal true) ∨ LoneApproval (loneProposal true) 600 601) := by
  have hp : (run (GovernanceEngine.new ["sn1", "sn2"] (2 / 3) 0)
      (loneVoteOps true)).proposals[lonePid]? = some (loneProposal true) := by decide +kernel
  refine ⟨hp, ?_⟩
  exact (checkQuorum_earned_iff ["sn1", "sn2"] (2 / 3) 0 (loneVoteOps true) lonePid
    (loneProposal true) 600 601 hp rfl).mpr (fun _ => by decide)

/-- A lone rejection is answered with an approval ten minutes later, although
    no vote approves. -/
theorem lone_rejection_approved :
    (run (GovernanceEngine.new ["sn1", "sn2"] (2 / 3) 0) (loneVoteOps false)).proposals[lonePid]?
        = some (loneProposal false) ∧
      (loneProposal false).executed = false ∧
      (run (GovernanceEngine.new ["sn1", "sn2"] (2 / 3) 0) (loneVoteOps false)).checkQuorum
        lonePid 600 601 = some true ∧
      ¬ (ReachesQuorum (2 / 3) (loneProposal false) ∨
        LoneApproval (loneProposal false) 600 601) := by
  refine ⟨by decide +kernel, rfl, by decide +kernel, ?_⟩
  unfold ReachesQuorum LoneApproval
  decide +kernel

/-- A vote delivered to an engine, with the clock reading at delivery. -/
structure VoteCall where
  now : UInt64
  proposalId : String
  voter : String
  approve : Bool

def recordVotes (e : GovernanceEngine) (calls : List VoteCall) : GovernanceEngine :=
  calls.foldl (fun e c => (e.recordVote c.now c.proposalId c.voter c.approve).1) e

/-- The recorded votes come from the supernodes `s`, each as assigned. -/
def VotesAgree (s : Finset String) (assigned : String → Bool) (p : Proposal) : Prop :=
  ∀ voter approve, p.votes[voter]? = some approve → voter ∈ s ∧ approve = assigned voter

/-- The proposal is open, counts the supernodes `s`, and its votes agree with
    the assignment. -/
structure OpenWith (s : Finset String) (assigned : String → Bool) (e : GovernanceEngine)
    (pid : String) (p : Proposal) : Prop where
  found : e.proposals[pid]? = some p
  isOpen : p.executed = false
  counted : p.supernodeCount = s.card
  agree : VotesAgree s assigned p

variable {s : Finset String} {assigned : String → Bool}

/-- Recording one assigned vote keeps the proposal in agreement. A vote of
    someone outside the supernodes is refused, so it need not agree. -/
theorem recordVote_agree {e : GovernanceEngine} {pid : String} {p : Proposal}
    (hs : e.supernodes = s) (h : OpenWith s assigned e pid p)
    (c : VoteCall)
    (hc : c.proposalId = pid → c.voter ∈ s → c.approve = assigned c.voter) :
    ∃ p', OpenWith s assigned (e.recordVote c.now c.proposalId c.voter c.approve).1 pid p' := by
  by_cases hrec : Recordable e c.proposalId c.voter
  · rcases hrec with ⟨q, hq, hqopen, hvoter⟩
    rw [recordVote_of_recordable hq hqopen hvoter]
    by_cases hpid : c.proposalId = pid
    · -- The vote is on this proposal, whose entry is replaced.
      have hqp : q = p := by
        rw [hpid, h.found] at hq
        exact (Option.some.inj hq).symm
      refine ⟨{ q with votes := q.votes.insert c.voter c.approve }, ?_, hqopen, ?_, ?_⟩
      · dsimp only
        rw [FinMap.find_insert, if_pos hpid]
      · rw [hqp]
        exact h.counted
      · intro voter approve hget
        dsimp only at hget
        rcases FinMap.find_insert_eq_some.mp hget with ⟨rfl, rfl⟩ | ⟨-, hold⟩
        · rw [hs] at hvoter
          exact ⟨hvoter, hc hpid hvoter⟩
        · rw [hqp] at hold
          exact h.agree voter approve hold
    · -- Another proposal's entry changes.
      refine ⟨p, ?_, h.isOpen, h.counted, h.agree⟩
      dsimp only
      rw [FinMap.find_insert, if_neg hpid]
      exact h.found
  · -- A refused vote runs the deadline check only.
    rcases recordVote_of_not_recordable hrec c.now c.approve with ⟨msg, heq⟩
    rw [heq]
    refine ⟨p, ?_, h.isOpen, h.counted, h.agree⟩
    dsimp only
    rw [evaluateBootstrap_proposals]
    exact h.found

theorem recordVotes_agree (calls : List VoteCall) {pid : String}
    (hcalls : ∀ c ∈ calls, c.proposalId = pid → c.voter ∈ s → c.approve = assigned c.voter)
    (e : GovernanceEngine) (p : Proposal) (hs : e.supernodes = s)
    (h : OpenWith s assigned e pid p) :
    ∃ p', OpenWith s assigned (recordVotes e calls) pid p' ∧
      (recordVotes e calls).quorumRatio = e.quorumRatio := by
  induction calls generalizing e p with
  | nil => exact ⟨p, h, rfl⟩
  | cons c calls ih =>
    rcases recordVote_agree hs h c (hcalls c List.mem_cons_self) with ⟨p', h'⟩
    have hframe := recordVote_frame e c.now c.proposalId c.voter c.approve
    rcases ih (fun d hd => hcalls d (List.mem_cons_of_mem _ hd))
      (e.recordVote c.now c.proposalId c.voter c.approve).1 p' (hframe.1.trans hs) h' with
      ⟨p'', hopen, hratio⟩
    exact ⟨p'', hopen, hratio.trans hframe.2⟩

/-- The approvals recorded on one proposal and the rejections recorded on
    another come from disjoint sets of supernodes when both agree with one
    assignment. -/
theorem yes_add_no_le {p q : Proposal} (hp : VotesAgree s assigned p)
    (hq : VotesAgree s assigned q) : p.yes + q.no ≤ s.card := by
  have hyes : p.yes ≤ (s.filter (fun v => assigned v = true)).card := by
    refine FinMap.count_le_card id p.votes _ (fun v b hget hb => ?_)
    rcases hp v b hget with ⟨hmem, hval⟩
    exact Finset.mem_filter.mpr ⟨hmem, hval.symm.trans hb⟩
  have hno : q.no ≤ (s.filter (fun v => ¬ assigned v = true)).card := by
    refine FinMap.count_le_card (fun b => !b) q.votes _ (fun v b hget hb => ?_)
    rcases hq v b hget with ⟨hmem, hval⟩
    rw [Bool.not_eq_true'] at hb
    refine Finset.mem_filter.mpr ⟨hmem, ?_⟩
    rw [← hval, hb]
    decide
  have hsplit := Finset.card_filter_add_card_filter_not (s := s) (fun v => assigned v = true)
  omega

/-- Quorum agreement: two engines that record any votes out of one vote per
    supernode, in any order and with any repetition, never answer a proposal
    oppositely, when there are at least three supernodes and both ratios are
    above one half. -/
theorem checkQuorum_agreement (s : Finset String) (assigned : String → Bool) (hs : 3 ≤ s.card)
    (pid : String) (e₁ e₂ : GovernanceEngine) (p₁ p₂ : Proposal)
    (hs₁ : e₁.supernodes = s) (hs₂ : e₂.supernodes = s)
    (hr₁ : 1 / 2 < e₁.quorumRatio) (hr₂ : 1 / 2 < e₂.quorumRatio)
    (h₁ : OpenWith s assigned e₁ pid p₁) (h₂ : OpenWith s assigned e₂ pid p₂)
    (calls₁ calls₂ : List VoteCall)
    (hc₁ : ∀ c ∈ calls₁, c.proposalId = pid → c.voter ∈ s → c.approve = assigned c.voter)
    (hc₂ : ∀ c ∈ calls₂, c.proposalId = pid → c.voter ∈ s → c.approve = assigned c.voter)
    (timeout₁ timeout₂ now₁ now₂ : UInt64) :
    ¬ ((recordVotes e₁ calls₁).checkQuorum pid timeout₁ now₁ = some true ∧
      (recordVotes e₂ calls₂).checkQuorum pid timeout₂ now₂ = some false) := by
  rintro ⟨htrue, hfalse⟩
  rcases recordVotes_agree calls₁ hc₁ e₁ p₁ hs₁ h₁ with ⟨q₁, ho₁, hratio₁⟩
  rcases recordVotes_agree calls₂ hc₂ e₂ p₂ hs₂ h₂ with ⟨q₂, ho₂, hratio₂⟩
  rw [checkQuorum_eq_true_iff ho₁.found ho₁.isOpen, ho₁.counted, hratio₁] at htrue
  rw [checkQuorum_eq_false_iff ho₂.found ho₂.isOpen, ho₂.counted, hratio₂] at hfalse
  have hcard : (3 : ℚ) ≤ s.card := by exact_mod_cast hs
  -- With three supernodes neither the timeout nor the empty count decides.
  have hyes : e₁.quorumRatio * s.card ≤ q₁.yes := by
    rcases htrue with ⟨-, hyes⟩ | hlone
    · exact hyes
    · have htwo := hlone.two
      rw [ho₁.counted] at htwo
      omega
  have hno : e₂.quorumRatio * s.card ≤ q₂.no := by
    rcases hfalse with hzero | ⟨-, hno⟩
    · omega
    · exact hno
  have hsum : (q₁.yes : ℚ) + q₂.no ≤ s.card := by
    exact_mod_cast yes_add_no_le ho₁.agree ho₂.agree
  -- Each side takes more than half, and together they fit in the supernodes.
  have hhalf₁ : 1 / 2 * (s.card : ℚ) < e₁.quorumRatio * s.card :=
    mul_lt_mul_of_pos_right hr₁ (by linarith)
  have hhalf₂ : 1 / 2 * (s.card : ℚ) < e₂.quorumRatio * s.card :=
    mul_lt_mul_of_pos_right hr₂ (by linarith)
  linarith

def threeEngine : GovernanceEngine :=
  run (GovernanceEngine.new ["sn1", "sn2", "sn3"] (2 / 3) 0)
    [.createProposal 0 0 "7f3a" (.activatePeer "peerC") "peerC"]

def threeProposal : Proposal :=
  { loneProposal true with supernodeCount := 3, votes := ∅ }

/-- Two approvals decide on one engine, and the rejection heard by another
    engine does not decide the other way. -/
theorem checkQuorum_agreement_three :
    (recordVotes threeEngine [⟨1, lonePid, "sn1", true⟩, ⟨2, lonePid, "sn2", true⟩]).checkQuorum
        lonePid 600 5 = some true ∧
      ¬ ((recordVotes threeEngine
            [⟨1, lonePid, "sn1", true⟩, ⟨2, lonePid, "sn2", true⟩]).checkQuorum
            lonePid 600 5 = some true ∧
        (recordVotes threeEngine
            [⟨1, lonePid, "sn3", false⟩, ⟨2, lonePid, "sn3", false⟩]).checkQuorum
            lonePid 600 9 = some false) := by
  have hopen : OpenWith {"sn1", "sn2", "sn3"} (fun v => decide (v ≠ "sn3")) threeEngine lonePid
      threeProposal := by
    refine ⟨by decide +kernel, rfl, by decide, fun voter approve hget => ?_⟩
    rw [threeProposal, Std.ExtTreeMap.getElem?_empty] at hget
    cases hget
  have hratio : 1 / 2 < threeEngine.quorumRatio := by
    rw [threeEngine, run_quorumRatio]
    change (1 / 2 : ℚ) < 2 / 3
    norm_num
  refine ⟨by decide +kernel, ?_⟩
  exact checkQuorum_agreement {"sn1", "sn2", "sn3"} (fun v => decide (v ≠ "sn3")) (by decide)
    lonePid threeEngine threeEngine threeProposal threeProposal (by decide +kernel)
    (by decide +kernel)
    hratio hratio hopen hopen _ _ (by decide) (by decide) 600 600 5 9

end Governance

end EssNode
