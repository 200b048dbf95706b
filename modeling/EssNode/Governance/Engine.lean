import Mathlib.Tactic.Linarith
import Mathlib.Tactic.FieldSimp
import EssNode.Lib.FinMap

/-!
# The Governance Engine

Proposals, votes and the quorum test.

The engine's methods pass their state explicitly. Every reading of the clock is
an argument, and a method that reads it twice takes two: `createProposal` first
checks the bootstrap deadline and later stamps the proposal. Seconds are 64-bit
words with the subtraction of the release build, which wraps, because the
elapsed time of the quorum test is such a subtraction. The quorum ratio is an
exact fraction.

Failed calls still run the deadline check, so `recordVote` returns the engine
beside its result. Writing the state to disk is not part of the engine's state;
it is in `Governance.Store`.
-/

namespace EssNode

namespace Governance

/-- How Rust's debug formatting shows one character of a string. -/
def debugChar (c : Char) : String :=
  if c = '"' then "\\\""
  else if c = '\\' then "\\\\"
  else if c = '\n' then "\\n"
  else if c = '\r' then "\\r"
  else if c = '\t' then "\\t"
  else if c.toNat = 0 then "\\0"
  else if c.toNat < 32 ∨ c.toNat = 127 then
    "\\u\x7b" ++ String.ofList (Nat.toDigits 16 c.toNat) ++ "\x7d"
  else c.toString

def debugStr (s : String) : String :=
  "\"" ++ String.join (s.toList.map debugChar) ++ "\""

inductive ProposalType where
  | activatePeer (peer : String)
  | banPeer (peer : String)
deriving DecidableEq, Repr

/-- The debug text of a proposal type, which starts a proposal's identifier. -/
def ProposalType.debug : ProposalType → String
  | .activatePeer peer => "ActivatePeer(" ++ debugStr peer ++ ")"
  | .banPeer peer => "BanPeer(" ++ debugStr peer ++ ")"

/-- A proposal with the votes recorded on it. -/
structure Proposal where
  proposalId : String
  proposalType : ProposalType
  target : String
  createdAt : UInt64
  supernodeCount : Nat
  votes : FinMap String Bool
  executed : Bool
deriving DecidableEq

/-- The engine: proposals by identifier, the supernodes entitled to vote, the
    quorum ratio and the bootstrap mode. -/
structure GovernanceEngine where
  proposals : FinMap String Proposal
  supernodes : Finset String
  quorumRatio : ℚ
  isBootstrapMode : Bool
  bootstrapExited : Bool
  bootstrapDeadline : UInt64
deriving DecidableEq

namespace GovernanceEngine

/-- A fresh engine. Fewer than two supernodes put it in bootstrap mode for an
    hour. -/
def new (supernodes : List String) (quorumRatio : ℚ) (now : UInt64) : GovernanceEngine where
  proposals := ∅
  supernodes := supernodes.toFinset
  quorumRatio := quorumRatio
  isBootstrapMode := decide (supernodes.toFinset.card < 2)
  bootstrapExited := false
  bootstrapDeadline := now + 3600

def evaluateBootstrap (e : GovernanceEngine) (now : UInt64) : GovernanceEngine :=
  if e.isBootstrapMode ∧ now > e.bootstrapDeadline then
    { e with isBootstrapMode := false, bootstrapExited := true }
  else e

/-- Create a proposal and return its identifier. In bootstrap mode it counts as
    executed at once. -/
def createProposal (e : GovernanceEngine) (now createdAt : UInt64) (uuid : String)
    (ptype : ProposalType) (target : String) : GovernanceEngine × String :=
  let e := e.evaluateBootstrap now
  let id := ptype.debug ++ "-" ++ target ++ "-" ++ uuid
  if e.isBootstrapMode && !e.bootstrapExited then
    let prop : Proposal :=
      { proposalId := id, proposalType := ptype, target := target, createdAt := createdAt
        supernodeCount := 1, votes := ∅, executed := true }
    ({ e with proposals := e.proposals.insert id prop }, id)
  else
    let prop : Proposal :=
      { proposalId := id, proposalType := ptype, target := target, createdAt := createdAt
        supernodeCount := e.supernodes.card, votes := ∅, executed := false }
    ({ e with proposals := e.proposals.insert id prop }, id)

/-- Record a supernode's vote on an open proposal, replacing its earlier one. -/
def recordVote (e : GovernanceEngine) (now : UInt64) (proposalId voter : String)
    (approve : Bool) : GovernanceEngine × Except String Unit :=
  let e := e.evaluateBootstrap now
  match e.proposals[proposalId]? with
  | none => (e, .error "proposal not found")
  | some prop =>
    if prop.executed then (e, .error "already executed")
    else if voter ∉ e.supernodes then (e, .error "voter is not a supernode")
    else
      let prop := { prop with votes := prop.votes.insert voter approve }
      ({ e with proposals := e.proposals.insert proposalId prop }, .ok ())

end GovernanceEngine

def Proposal.yes (p : Proposal) : Nat := FinMap.count id p.votes

namespace GovernanceEngine

/-- The quorum test: `none` while undecided. With two supernodes and one vote,
    a timeout decides. -/
def checkQuorum (e : GovernanceEngine) (proposalId : String) (timeoutSecs now : UInt64) :
    Option Bool :=
  match e.proposals[proposalId]? with
  | none => none
  | some prop =>
    if prop.executed then none
    else
      let total : ℚ := prop.supernodeCount
      if total = 0 then some false
      else
        let yes : ℚ := prop.yes
        let no : ℚ := prop.votes.size - yes
        if yes / total ≥ e.quorumRatio then some true
        else if no / total ≥ e.quorumRatio then some false
        else if total = 2 ∧ prop.votes.size = 1 then
          -- The value of the one vote is not looked at, and the difference wraps.
          let elapsed := now - prop.createdAt
          if elapsed > timeoutSecs then some true else none
        else none

def markExecuted (e : GovernanceEngine) (now : UInt64) (proposalId : String) : GovernanceEngine :=
  let e := e.evaluateBootstrap now
  { e with proposals := e.proposals.modify proposalId (fun p => { p with executed := true }) }

def getProposal (e : GovernanceEngine) (proposalId : String) : Option Proposal :=
  e.proposals[proposalId]?

/-- Replace the supernode list and settle the bootstrap mode that follows. -/
def updateSupernodes (e : GovernanceEngine) (now : UInt64) (newList : List String) :
    GovernanceEngine :=
  let e := e.evaluateBootstrap now
  let oldLen := e.supernodes.card
  let e := { e with supernodes := newList.toFinset }
  let count := e.supernodes.card
  -- The mode is entered again only if it was never left for good.
  if count ≥ 2 ∧ oldLen < 2 then { e with isBootstrapMode := false, bootstrapExited := true }
  else if count < 2 ∧ e.bootstrapExited = false then { e with isBootstrapMode := true }
  else { e with isBootstrapMode := false }

end GovernanceEngine

open GovernanceEngine

/-- A call of one of the engine's state-changing methods. -/
inductive Op where
  | createProposal (now createdAt : UInt64) (uuid : String) (ptype : ProposalType)
      (target : String)
  | recordVote (now : UInt64) (proposalId voter : String) (approve : Bool)
  | markExecuted (now : UInt64) (proposalId : String)
  | updateSupernodes (now : UInt64) (newList : List String)
deriving DecidableEq

/-- The engine after one call. -/
def apply (e : GovernanceEngine) : Op → GovernanceEngine
  | .createProposal now createdAt uuid ptype target =>
    (e.createProposal now createdAt uuid ptype target).1
  | .recordVote now proposalId voter approve => (e.recordVote now proposalId voter approve).1
  | .markExecuted now proposalId => e.markExecuted now proposalId
  | .updateSupernodes now newList => e.updateSupernodes now newList

def run (e : GovernanceEngine) (ops : List Op) : GovernanceEngine :=
  ops.foldl apply e

variable (e : GovernanceEngine) (now : UInt64)

@[simp] theorem evaluateBootstrap_proposals :
    (e.evaluateBootstrap now).proposals = e.proposals := by
  unfold evaluateBootstrap
  split <;> rfl

@[simp] theorem evaluateBootstrap_supernodes :
    (e.evaluateBootstrap now).supernodes = e.supernodes := by
  unfold evaluateBootstrap
  split <;> rfl

@[simp] theorem evaluateBootstrap_quorumRatio :
    (e.evaluateBootstrap now).quorumRatio = e.quorumRatio := by
  unfold evaluateBootstrap
  split <;> rfl

/-- Whether a vote of `voter` on the proposal would be stored. -/
def Recordable (e : GovernanceEngine) (pid voter : String) : Prop :=
  ∃ p, e.proposals[pid]? = some p ∧ p.executed = false ∧ voter ∈ e.supernodes

variable {e : GovernanceEngine} {pid : String} {p : Proposal}

theorem recordVote_of_recordable {voter : String} (hp : e.proposals[pid]? = some p)
    (hopen : p.executed = false) (hv : voter ∈ e.supernodes)
    (now : UInt64) (approve : Bool) :
    e.recordVote now pid voter approve
      = ({ e.evaluateBootstrap now with
            proposals := e.proposals.insert pid
              { p with votes := p.votes.insert voter approve } }, .ok ()) := by
  unfold recordVote
  simp only [evaluateBootstrap_proposals, evaluateBootstrap_supernodes, hp, hopen, hv,
    not_true_eq_false, if_false, Bool.false_eq_true]

theorem recordVote_of_not_recordable {voter : String} (h : ¬ Recordable e pid voter) (now : UInt64)
    (approve : Bool) :
    ∃ msg, e.recordVote now pid voter approve = (e.evaluateBootstrap now, .error msg) := by
  unfold recordVote
  simp only [evaluateBootstrap_proposals, evaluateBootstrap_supernodes]
  cases hp : e.proposals[pid]? with
  | none => exact ⟨_, rfl⟩
  | some p =>
    dsimp only
    -- On an open proposal only a stranger's vote is left to refuse.
    by_cases hexec : p.executed = true
    · rw [if_pos hexec]
      exact ⟨_, rfl⟩
    by_cases hv : voter ∈ e.supernodes
    · exact absurd ⟨p, hp, Bool.eq_false_of_not_eq_true hexec, hv⟩ h
    · rw [if_neg hexec, if_pos hv]
      exact ⟨_, rfl⟩

theorem recordVote_frame (e : GovernanceEngine) (now : UInt64) (pid voter : String)
    (approve : Bool) :
    (e.recordVote now pid voter approve).1.supernodes = e.supernodes ∧
      (e.recordVote now pid voter approve).1.quorumRatio = e.quorumRatio := by
  by_cases h : Recordable e pid voter
  · rcases h with ⟨p, hp, hopen, hv⟩
    rw [recordVote_of_recordable hp hopen hv]
    exact ⟨evaluateBootstrap_supernodes e now, evaluateBootstrap_quorumRatio e now⟩
  · rcases recordVote_of_not_recordable h now approve with ⟨msg, heq⟩
    rw [heq]
    exact ⟨evaluateBootstrap_supernodes e now, evaluateBootstrap_quorumRatio e now⟩

theorem apply_quorumRatio (e : GovernanceEngine) (op : Op) :
    (apply e op).quorumRatio = e.quorumRatio := by
  cases op with
  | createProposal now createdAt uuid ptype target =>
    unfold apply createProposal
    dsimp only
    split <;> exact evaluateBootstrap_quorumRatio e now
  | recordVote now pid voter approve => exact (recordVote_frame e now pid voter approve).2
  | markExecuted now pid => exact evaluateBootstrap_quorumRatio e now
  | updateSupernodes now newList =>
    unfold apply updateSupernodes
    dsimp only
    split
    · exact evaluateBootstrap_quorumRatio e now
    · split <;> exact evaluateBootstrap_quorumRatio e now

theorem run_quorumRatio (e : GovernanceEngine) (ops : List Op) :
    (run e ops).quorumRatio = e.quorumRatio := by
  induction ops generalizing e with
  | nil => rfl
  | cons op ops ih =>
    rw [run, List.foldl_cons]
    exact (ih (apply e op)).trans (apply_quorumRatio e op)

def Proposal.no (p : Proposal) : Nat := FinMap.count (fun v => !v) p.votes

theorem Proposal.yes_add_no (p : Proposal) : p.yes + p.no = p.votes.size :=
  FinMap.count_add_count id p.votes

/-- The timeout branch of the quorum test decides: two supernodes, one vote,
    neither side at the ratio, and the wrapped elapsed time above the limit. -/
structure LoneTimeout (ratio : ℚ) (p : Proposal) (timeoutSecs now : UInt64) : Prop where
  two : p.supernodeCount = 2
  lone : p.votes.size = 1
  yes_below : (p.yes : ℚ) < ratio * p.supernodeCount
  no_below : (p.no : ℚ) < ratio * p.supernodeCount
  elapsed : timeoutSecs < now - p.createdAt

theorem div_ge_iff (votes total : Nat) (ratio : ℚ) (htotal : (total : ℚ) ≠ 0) :
    (votes : ℚ) / total ≥ ratio ↔ ratio * total ≤ votes := by
  have hpos : (0 : ℚ) < total := by
    rw [Nat.cast_pos]
    exact Nat.pos_of_ne_zero (fun h => htotal (by rw [h, Nat.cast_zero]))
  rw [ge_iff_le, le_div_iff₀ hpos]

theorem checkQuorum_eq (hp : e.proposals[pid]? = some p) (hopen : p.executed = false)
    (timeoutSecs now : UInt64) :
    e.checkQuorum pid timeoutSecs now
      = if p.supernodeCount = 0 then some false
        else if e.quorumRatio * p.supernodeCount ≤ p.yes then some true
        else if e.quorumRatio * p.supernodeCount ≤ p.no then some false
        else if p.supernodeCount = 2 ∧ p.votes.size = 1 ∧ timeoutSecs < now - p.createdAt then
          some true
        else none := by
  unfold checkQuorum
  simp only [hp, hopen, if_false, Bool.false_eq_true]
  by_cases hzero : p.supernodeCount = 0
  · rw [if_pos hzero, if_pos (by rw [hzero, Nat.cast_zero])]
  have htotal : (p.supernodeCount : ℚ) ≠ 0 := Nat.cast_ne_zero.mpr hzero
  -- The source subtracts to get the rejections; the entries split exactly.
  have hno : ((p.votes.size : ℚ) - p.yes) = p.no := by
    rw [← p.yes_add_no, Nat.cast_add, add_sub_cancel_left]
  rw [if_neg hzero, if_neg htotal, hno]
  simp only [div_ge_iff _ _ _ htotal]
  -- From here both sides test the same conditions in the same order.
  by_cases hyes : e.quorumRatio * p.supernodeCount ≤ p.yes
  · rw [if_pos hyes, if_pos hyes]
  rw [if_neg hyes, if_neg hyes]
  by_cases hnog : e.quorumRatio * p.supernodeCount ≤ p.no
  · rw [if_pos hnog, if_pos hnog]
  rw [if_neg hnog, if_neg hnog]
  have htwo : (p.supernodeCount : ℚ) = 2 ↔ p.supernodeCount = 2 := by
    rw [← Nat.cast_ofNat, Nat.cast_inj]
  simp only [htwo, gt_iff_lt]
  by_cases hlone : p.supernodeCount = 2 ∧ p.votes.size = 1
  · rw [if_pos hlone]
    simp only [hlone, true_and]
  · rw [if_neg hlone, if_neg (fun h => hlone ⟨h.1, h.2.1⟩)]

theorem checkQuorum_eq_true_iff (hp : e.proposals[pid]? = some p) (hopen : p.executed = false)
    (timeoutSecs now : UInt64) :
    e.checkQuorum pid timeoutSecs now = some true ↔
      (p.supernodeCount ≠ 0 ∧ e.quorumRatio * p.supernodeCount ≤ p.yes) ∨
        LoneTimeout e.quorumRatio p timeoutSecs now := by
  rw [checkQuorum_eq hp hopen]
  constructor
  · intro h
    split_ifs at h with hzero hyes hno hlone
    · exact absurd h (by decide)
    · exact Or.inl ⟨hzero, hyes⟩
    · exact absurd h (by decide)
    · exact Or.inr ⟨hlone.1, hlone.2.1, lt_of_not_ge hyes, lt_of_not_ge hno, hlone.2.2⟩
  · rintro (⟨hzero, hyes⟩ | ⟨htwo, hlone, hyes, hno, helapsed⟩)
    · rw [if_neg hzero, if_pos hyes]
    · have hzero : p.supernodeCount ≠ 0 := by omega
      rw [if_neg hzero, if_neg (not_le_of_gt hyes), if_neg (not_le_of_gt hno),
        if_pos ⟨htwo, hlone, helapsed⟩]

theorem checkQuorum_eq_false_iff (hp : e.proposals[pid]? = some p) (hopen : p.executed = false)
    (timeoutSecs now : UInt64) :
    e.checkQuorum pid timeoutSecs now = some false ↔
      p.supernodeCount = 0 ∨
        ((p.yes : ℚ) < e.quorumRatio * p.supernodeCount ∧
          e.quorumRatio * p.supernodeCount ≤ p.no) := by
  rw [checkQuorum_eq hp hopen]
  constructor
  · intro h
    split_ifs at h with hzero hyes hno hlone
    · exact Or.inl hzero
    · exact absurd h (by decide)
    · exact Or.inr ⟨lt_of_not_ge hyes, hno⟩
    · exact absurd h (by decide)
  · rintro (hzero | ⟨hyes, hno⟩)
    · rw [if_pos hzero]
    · by_cases hzero : p.supernodeCount = 0
      · rw [if_pos hzero]
      · rw [if_neg hzero, if_neg (not_le_of_gt hyes), if_pos hno]

end Governance

end EssNode
