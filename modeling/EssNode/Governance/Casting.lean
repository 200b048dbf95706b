import EssNode.Governance.Engine

/-!
# Casting a Vote

What a node does to its engine with a vote it accepts: record it, test the
quorum, and mark the proposal executed once it is decided.

The votes on record are read through `voteOf`. A vote enters the record only by
being cast; the other calls of the engine lose votes at most.
-/

namespace EssNode

open FinMap Option

namespace Governance

open GovernanceEngine

/-- Seconds a proposal of two supernodes waits for its second vote. -/
def quorumTimeoutSecs : UInt64 := 600

/-- Record a vote, and settle the proposal if it is decided. The clock is read by
    each of the three calls. -/
def castVote (e : GovernanceEngine) (now₀ now₁ now₂ : UInt64) (pid voter : String)
    (approve : Bool) : GovernanceEngine × Option Bool :=
  match e.recordVote now₀ pid voter approve with
  | (e, .error _) => (e, none)
  | (e, .ok ()) =>
    match e.checkQuorum pid quorumTimeoutSecs now₁ with
    | none => (e, none)
    | some approved => (e.markExecuted now₂ pid, some approved)

def voteOf (e : GovernanceEngine) (pid voter : String) : Option Bool :=
  (e.proposals[pid]?).bind fun p => p.votes[voter]?

theorem recordVote_eq_ok_iff (e : GovernanceEngine) (now : UInt64) (pid voter : String)
    (approve : Bool) :
    (e.recordVote now pid voter approve).2 = .ok () ↔ Recordable e pid voter := by
  by_cases hrec : Recordable e pid voter
  · rcases id hrec with ⟨p, hp, hopen, hv⟩
    rw [recordVote_of_recordable hp hopen hv]
    exact iff_of_true rfl hrec
  · rcases recordVote_of_not_recordable hrec now approve with ⟨msg, hmsg⟩
    rw [hmsg]
    exact iff_of_false (by simp) hrec

variable {e : GovernanceEngine} {pid voter v : String} {approve b : Bool}
  {now now₀ now₁ now₂ : UInt64} {pid' : String} {createdAt : UInt64} {uuid : String}
  {ptype : ProposalType} {target : String}

theorem voteOf_recordVote_of_recordable (hrec : Recordable e pid voter) (now : UInt64)
    (approve : Bool) (pid' v : String) :
    voteOf (e.recordVote now pid voter approve).1 pid' v
      = if pid = pid' ∧ voter = v then some approve else voteOf e pid' v := by
  rcases hrec with ⟨p, hp, hopen, hv⟩
  rw [recordVote_of_recordable hp hopen hv]
  unfold voteOf
  dsimp only
  rw [find_insert]
  -- Only the entry of this voter on this proposal is written.
  by_cases hpid : pid = pid'
  · rw [if_pos hpid, bind_some, find_insert, ← hpid, hp, bind_some]
    simp only [true_and]
  · rw [if_neg hpid, if_neg fun h => hpid h.1]

theorem map_recordVote {α : Type*} (f : Proposal → α)
    (hf : ∀ (p : Proposal) (votes : FinMap String Bool), f { p with votes := votes } = f p)
    (e : GovernanceEngine) (now : UInt64) (pid voter : String) (approve : Bool) (pid' : String) :
    ((e.recordVote now pid voter approve).1.proposals[pid']?).map f
      = (e.proposals[pid']?).map f := by
  by_cases hrec : Recordable e pid voter
  · rcases hrec with ⟨p, hp, hopen, hv⟩
    rw [recordVote_of_recordable hp hopen hv]
    dsimp only
    rw [find_insert]
    by_cases hpid : pid = pid'
    · rw [if_pos hpid, ← hpid, hp, map_some, map_some, hf]
    · rw [if_neg hpid]
  · rcases recordVote_of_not_recordable hrec now approve with ⟨msg, hmsg⟩
    rw [hmsg, evaluateBootstrap_proposals]

theorem map_markExecuted {α : Type*} (f : Proposal → α)
    (hf : ∀ (p : Proposal) (executed : Bool), f { p with executed := executed } = f p)
    (e : GovernanceEngine) (now : UInt64) (pid pid' : String) :
    ((e.markExecuted now pid).proposals[pid']?).map f = (e.proposals[pid']?).map f := by
  unfold markExecuted
  dsimp only
  rw [find_modify, evaluateBootstrap_proposals]
  by_cases hpid : pid = pid'
  · rw [if_pos hpid, map_map]
    congr 1
    funext p
    exact hf p true
  · rw [if_neg hpid]

theorem checkQuorum_of_executed (h : (e.proposals[pid]?).map Proposal.executed = some true)
    (timeoutSecs now : UInt64) :
    e.checkQuorum pid timeoutSecs now = none := by
  rcases map_eq_some_iff.mp h with ⟨p, hp, hexec⟩
  unfold checkQuorum
  simp only [hp, hexec, if_true]

theorem voteOf_recordVote_of_not_recordable (hrec : ¬ Recordable e pid voter) (now : UInt64)
    (approve : Bool) (pid' v : String) :
    voteOf (e.recordVote now pid voter approve).1 pid' v = voteOf e pid' v := by
  rcases recordVote_of_not_recordable hrec now approve with ⟨msg, hmsg⟩
  rw [hmsg]
  unfold voteOf
  rw [evaluateBootstrap_proposals]

theorem voteOf_recordVote (h : voteOf (e.recordVote now pid voter approve).1 pid' v = some b) :
    voteOf e pid' v = some b ∨
      (Recordable e pid voter ∧ pid' = pid ∧ v = voter ∧ b = approve) := by
  by_cases hrec : Recordable e pid voter
  · rw [voteOf_recordVote_of_recordable hrec] at h
    by_cases hsame : pid = pid' ∧ voter = v
    · rw [if_pos hsame, some.injEq] at h
      exact Or.inr ⟨hrec, hsame.1.symm, hsame.2.symm, h.symm⟩
    · rw [if_neg hsame] at h
      exact Or.inl h
  · rw [voteOf_recordVote_of_not_recordable hrec] at h
    exact Or.inl h

theorem voteOf_markExecuted (e : GovernanceEngine) (now : UInt64) (pid pid' v : String) :
    voteOf (e.markExecuted now pid) pid' v = voteOf e pid' v := by
  unfold voteOf markExecuted
  dsimp only
  rw [find_modify, evaluateBootstrap_proposals]
  by_cases hpid : pid = pid'
  · rw [if_pos hpid, bind_map]
    rfl
  · rw [if_neg hpid]

theorem castVote_cases (e : GovernanceEngine) (now₀ now₁ now₂ : UInt64) (pid voter : String)
    (approve : Bool) :
    castVote e now₀ now₁ now₂ pid voter approve = ((e.recordVote now₀ pid voter approve).1, none) ∨
      (Recordable e pid voter ∧ ∃ approved, castVote e now₀ now₁ now₂ pid voter approve
        = ((e.recordVote now₀ pid voter approve).1.markExecuted now₂ pid, some approved)) := by
  have hok := recordVote_eq_ok_iff e now₀ pid voter approve
  unfold castVote
  rcases hres : e.recordVote now₀ pid voter approve with ⟨e', res⟩
  rw [hres] at hok
  cases res with
  | error msg => exact Or.inl rfl
  | ok u =>
    dsimp only
    cases e'.checkQuorum pid quorumTimeoutSecs now₁ with
    | none => exact Or.inl rfl
    | some approved => exact Or.inr ⟨hok.mp rfl, approved, rfl⟩

theorem voteOf_castVote_eq (e : GovernanceEngine) (now₀ now₁ now₂ : UInt64) (pid voter : String)
    (approve : Bool) (pid' v : String) :
    voteOf (castVote e now₀ now₁ now₂ pid voter approve).1 pid' v
      = voteOf (e.recordVote now₀ pid voter approve).1 pid' v := by
  rcases castVote_cases e now₀ now₁ now₂ pid voter approve with hcast | ⟨-, approved, hcast⟩
  · rw [hcast]
  · rw [hcast, voteOf_markExecuted]

theorem voteOf_castVote
    (h : voteOf (castVote e now₀ now₁ now₂ pid voter approve).1 pid' v = some b) :
    voteOf e pid' v = some b ∨
      (Recordable e pid voter ∧ pid' = pid ∧ v = voter ∧ b = approve) := by
  rw [voteOf_castVote_eq] at h
  exact voteOf_recordVote h

theorem voteOf_castVote_self (hrec : Recordable e pid voter) (now₀ now₁ now₂ : UInt64)
    (approve : Bool) :
    voteOf (castVote e now₀ now₁ now₂ pid voter approve).1 pid voter = some approve := by
  rw [voteOf_castVote_eq, voteOf_recordVote_of_recordable hrec, if_pos ⟨rfl, rfl⟩]

theorem map_castVote {α : Type*} (f : Proposal → α)
    (hvotes : ∀ (p : Proposal) (votes : FinMap String Bool), f { p with votes := votes } = f p)
    (hexecuted : ∀ (p : Proposal) (executed : Bool), f { p with executed := executed } = f p)
    (e : GovernanceEngine) (now₀ now₁ now₂ : UInt64) (pid voter : String) (approve : Bool)
    (pid' : String) :
    ((castVote e now₀ now₁ now₂ pid voter approve).1.proposals[pid']?).map f
      = (e.proposals[pid']?).map f := by
  rcases castVote_cases e now₀ now₁ now₂ pid voter approve with hcast | ⟨-, approved, hcast⟩
  · rw [hcast, map_recordVote f hvotes]
  · rw [hcast, map_markExecuted f hexecuted, map_recordVote f hvotes]

theorem castVote_supernodes (e : GovernanceEngine) (now₀ now₁ now₂ : UInt64) (pid voter : String)
    (approve : Bool) :
    (castVote e now₀ now₁ now₂ pid voter approve).1.supernodes = e.supernodes := by
  have hrecord := (recordVote_frame e now₀ pid voter approve).1
  rcases castVote_cases e now₀ now₁ now₂ pid voter approve with hcast | ⟨-, approved, hcast⟩
  · rw [hcast, hrecord]
  · rw [hcast]
    exact (evaluateBootstrap_supernodes _ now₂).trans hrecord

/-- The identifier a new proposal gets. -/
def proposalIdOf (ptype : ProposalType) (target uuid : String) : String :=
  ptype.debug ++ "-" ++ target ++ "-" ++ uuid

/-- In bootstrap mode a proposal counts as executed at once. -/
def GovernanceEngine.Bootstrapping (e : GovernanceEngine) (now : UInt64) : Prop :=
  (e.evaluateBootstrap now).isBootstrapMode = true ∧
    (e.evaluateBootstrap now).bootstrapExited = false

instance (e : GovernanceEngine) (now : UInt64) : Decidable (e.Bootstrapping now) :=
  inferInstanceAs (Decidable (_ ∧ _))

/-- A proposal is there and takes votes. -/
def GovernanceEngine.OpenAt (e : GovernanceEngine) (pid : String) : Prop :=
  ∃ p, e.proposals[pid]? = some p ∧ p.executed = false

instance (e : GovernanceEngine) (pid : String) : Decidable (e.OpenAt pid) :=
  decidable_of_iff ((e.proposals[pid]?).any (fun p => !p.executed) = true) <| by
    unfold OpenAt
    simp only [any_eq_true, Bool.not_eq_true']

/-- The proposal that is stored by creating one. -/
def GovernanceEngine.filed (e : GovernanceEngine) (now createdAt : UInt64) (uuid : String)
    (ptype : ProposalType) (target : String) : Proposal where
  proposalId := proposalIdOf ptype target uuid
  proposalType := ptype
  target := target
  createdAt := createdAt
  supernodeCount := if e.Bootstrapping now then 1 else e.supernodes.card
  votes := ∅
  executed := decide (e.Bootstrapping now)

theorem createProposal_eq (e : GovernanceEngine) (now createdAt : UInt64) (uuid : String)
    (ptype : ProposalType) (target : String) :
    e.createProposal now createdAt uuid ptype target
      = ({ e.evaluateBootstrap now with
            proposals := e.proposals.insert (proposalIdOf ptype target uuid)
              (e.filed now createdAt uuid ptype target) },
          proposalIdOf ptype target uuid) := by
  have hmode : ((e.evaluateBootstrap now).isBootstrapMode &&
      !(e.evaluateBootstrap now).bootstrapExited) = true ↔ e.Bootstrapping now := by
    unfold Bootstrapping
    rw [Bool.and_eq_true, Bool.not_eq_true']
  unfold createProposal filed
  simp only [hmode, evaluateBootstrap_proposals, evaluateBootstrap_supernodes]
  by_cases hboot : e.Bootstrapping now
  · simp only [hboot, if_true, decide_true]
    rfl
  · simp only [hboot, if_false, decide_false]
    rfl

theorem createProposal_snd (e : GovernanceEngine) (now createdAt : UInt64) (uuid : String)
    (ptype : ProposalType) (target : String) :
    (e.createProposal now createdAt uuid ptype target).2 = proposalIdOf ptype target uuid := by
  rw [createProposal_eq]

theorem createProposal_proposals (e : GovernanceEngine) (now createdAt : UInt64) (uuid : String)
    (ptype : ProposalType) (target : String) :
    ∃ p : Proposal, p.votes = ∅ ∧
      (e.createProposal now createdAt uuid ptype target).1.proposals
        = e.proposals.insert (proposalIdOf ptype target uuid) p :=
  ⟨e.filed now createdAt uuid ptype target, rfl, by rw [createProposal_eq]⟩

theorem createProposal_insert (e : GovernanceEngine) (now createdAt : UInt64) (uuid : String)
    (ptype : ProposalType) (target : String) :
    ∃ p : Proposal, (p.executed = true ↔ e.Bootstrapping now) ∧
      (e.createProposal now createdAt uuid ptype target).1.proposals =
        e.proposals.insert (proposalIdOf ptype target uuid) p :=
  ⟨e.filed now createdAt uuid ptype target, decide_eq_true_iff, by rw [createProposal_eq]⟩

theorem voteOf_createProposal
    (h : voteOf (e.createProposal now createdAt uuid ptype target).1 pid v = some b) :
    voteOf e pid v = some b := by
  rcases createProposal_proposals e now createdAt uuid ptype target with ⟨p, hvotes, hprops⟩
  unfold voteOf at h ⊢
  rw [hprops, find_insert] at h
  by_cases hid : proposalIdOf ptype target uuid = pid
  · rw [if_pos hid, bind_some, hvotes, Std.ExtTreeMap.getElem?_empty] at h
    exact absurd h (by simp)
  · rwa [if_neg hid] at h

theorem createProposal_ne (hfresh : e.proposals[proposalIdOf ptype target uuid]? = none) :
    (e.createProposal now createdAt uuid ptype target).1 ≠ e := by
  intro h
  rcases createProposal_proposals e now createdAt uuid ptype target with ⟨p, -, hprops⟩
  rw [h] at hprops
  rw [hprops, find_insert, if_pos rfl] at hfresh
  exact absurd hfresh (by simp)

theorem evaluateBootstrap_eq_self_iff (e : GovernanceEngine) (now : UInt64) :
    e.evaluateBootstrap now = e ↔ ¬ (e.isBootstrapMode = true ∧ now > e.bootstrapDeadline) := by
  unfold evaluateBootstrap
  by_cases h : e.isBootstrapMode = true ∧ now > e.bootstrapDeadline
  · rw [if_pos h]
    refine iff_of_false (fun heq => ?_) (by simpa using h)
    -- The check would have switched the mode off.
    have hmode : false = e.isBootstrapMode := congrArg isBootstrapMode heq
    rw [h.1] at hmode
    exact absurd hmode (by simp)
  · rw [if_neg h]
    exact iff_of_true rfl h

/-- Whether casting a vote leaves the engine as it is: the deadline check does
    nothing, and the vote is refused or is on record already without a
    decision. -/
structure Idle (e : GovernanceEngine) (now₀ now₁ : UInt64) (pid voter : String)
    (approve : Bool) : Prop where
  deadline : ¬ (e.isBootstrapMode = true ∧ now₀ > e.bootstrapDeadline)
  repeated : Recordable e pid voter →
    voteOf e pid voter = some approve ∧ e.checkQuorum pid quorumTimeoutSecs now₁ = none

theorem recordVote_eq_self_iff {p : Proposal} (hp : e.proposals[pid]? = some p)
    (hopen : p.executed = false) (hv : voter ∈ e.supernodes)
    (now : UInt64) (approve : Bool) :
    (e.recordVote now pid voter approve).1 = e ↔
      e.evaluateBootstrap now = e ∧ voteOf e pid voter = some approve := by
  have hvote : voteOf e pid voter = p.votes[voter]? := by
    unfold voteOf
    rw [hp, bind_some]
  rw [recordVote_of_recordable hp hopen hv, hvote]
  dsimp only
  constructor
  · intro h
    have hprops : e.proposals.insert pid { p with votes := p.votes.insert voter approve }
        = e.proposals := congrArg proposals h
    -- The entry written is the one that was there, so its votes are too.
    have hsame := (insert_eq_self_iff _ _ _).mp hprops
    rw [hp, some.injEq] at hsame
    have hins : p.votes = p.votes.insert voter approve := congrArg Proposal.votes hsame
    refine ⟨?_, (insert_eq_self_iff _ _ _).mp hins.symm⟩
    rw [hprops, ← evaluateBootstrap_proposals e now] at h
    exact h
  · intro h
    rw [(insert_eq_self_iff _ _ _).mpr h.2, h.1,
      (insert_eq_self_iff _ _ _).mpr hp]

/-- A decision marks the proposal executed, which it was not before. -/
theorem castVote_ne_of_decided {decision : Bool}
    (h : (castVote e now₀ now₁ now₂ pid voter approve).2 = some decision) :
    (castVote e now₀ now₁ now₂ pid voter approve).1 ≠ e := by
  rcases castVote_cases e now₀ now₁ now₂ pid voter approve with
    hcast | ⟨⟨p, hp, hopen, -⟩, approved, hcast⟩
  · rw [hcast] at h
    exact absurd h (by simp)
  · -- The stored proposal is executed afterwards and was open before.
    intro heq
    have hexec := congrArg (fun e : GovernanceEngine => e.proposals[pid]?) heq
    rw [hcast] at hexec
    unfold markExecuted at hexec
    dsimp only at hexec
    rw [find_modify, if_pos rfl, hp, map_eq_some_iff] at hexec
    rcases hexec with ⟨p', -, hp'⟩
    rw [← hp'] at hopen
    exact absurd hopen (by simp)

theorem castVote_of_undecided (h : (castVote e now₀ now₁ now₂ pid voter approve).2 = none) :
    (castVote e now₀ now₁ now₂ pid voter approve).1 = (e.recordVote now₀ pid voter approve).1 := by
  rcases castVote_cases e now₀ now₁ now₂ pid voter approve with hcast | ⟨-, approved, hcast⟩
  · rw [hcast]
  · rw [hcast] at h
    exact absurd h (by simp)

theorem castVote_eq_self_iff (e : GovernanceEngine) (now₀ now₁ now₂ : UInt64) (pid voter : String)
    (approve : Bool) :
    (castVote e now₀ now₁ now₂ pid voter approve).1 = e ↔ Idle e now₀ now₁ pid voter approve := by
  by_cases hrec : Recordable e pid voter
  · rcases id hrec with ⟨p, hp, hopen, hv⟩
    have hself := recordVote_eq_self_iff hp hopen hv now₀ approve
    have hok := (recordVote_eq_ok_iff e now₀ pid voter approve).mpr hrec
    -- With the vote on record, the quorum is tested on the engine as it was.
    have hdecide : (e.recordVote now₀ pid voter approve).1 = e →
        ((castVote e now₀ now₁ now₂ pid voter approve).2 = none ↔
          e.checkQuorum pid quorumTimeoutSecs now₁ = none) := by
      intro heq
      unfold castVote
      rcases hres : e.recordVote now₀ pid voter approve with ⟨e', res⟩
      rw [hres] at heq hok
      dsimp only at heq hok
      rw [hok, heq]
      dsimp only
      cases e.checkQuorum pid quorumTimeoutSecs now₁ <;> simp
    constructor
    · -- Nothing changed, so nothing was decided and only recording is left.
      intro h
      have hnone : (castVote e now₀ now₁ now₂ pid voter approve).2 = none := by
        rw [eq_none_iff_forall_ne_some]
        exact fun decision hsome => castVote_ne_of_decided hsome h
      rw [castVote_of_undecided hnone] at h
      have hboth := hself.mp h
      exact ⟨(evaluateBootstrap_eq_self_iff e now₀).mp hboth.1,
        fun _ => ⟨hboth.2, (hdecide h).mp hnone⟩⟩
    · intro h
      have heq := hself.mpr ⟨(evaluateBootstrap_eq_self_iff e now₀).mpr h.deadline,
        (h.repeated hrec).1⟩
      rw [castVote_of_undecided ((hdecide heq).mpr (h.repeated hrec).2), heq]
  · rcases recordVote_of_not_recordable hrec now₀ approve with ⟨msg, hmsg⟩
    unfold castVote
    rw [hmsg]
    dsimp only
    rw [evaluateBootstrap_eq_self_iff]
    exact ⟨fun h => ⟨h, fun hr => absurd hr hrec⟩, Idle.deadline⟩

end Governance

end EssNode
