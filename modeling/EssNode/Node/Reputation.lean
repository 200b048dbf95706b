import EssNode.Ghost.Runtime
import EssNode.Node.Pending

/-!
# Two Reputations

The controller keeps a reputation for each peer: it goes up with a success, down with a failure,
is set when a peer is put in quarantine, and can be adjusted. The world state has a reputation in
the entry of each peer as well, and this is the one that the ghost runtime looks at when it
assesses the node.

Nothing carries the one over to the other. Whatever is done to the first leaves the world state
alone, so the two agree throughout a run exactly if they did before and nothing in the run moves
the score of a peer that has an entry (`one_reputation_iff`). From the default, one half, every
operation moves it but an adjustment by nothing (`rescore_half_iff`).

A failure that makes the score low puts the peer in quarantine. An adjustment does not: a peer
with a low score is refused exactly if none is made that leaves one (`low_score_refused_iff`).

A peer of which the controller keeps nothing counts as one with the default reputation: that is
what it starts from. The reason of a quarantine is only logged.
-/

namespace EssNode

open List

open GhostRuntime (evaluated)

namespace Node

variable (n : Node)

/-- Count a failure of a peer, which may put it in quarantine. -/
def updatePeerFailure (peer : String) : Node :=
  let e := n.reputation[peer]?.getD {}
  let score := max (e.score - 1 / 10) 0
  { n with
    reputation := n.reputation.insert peer
      { e with
        score := score
        isQuarantined := if score < 1 / 10 then true else e.isQuarantined } }

def setPeerQuarantine (peer : String) : Node :=
  let e := n.reputation[peer]?.getD {}
  { n with
    reputation := n.reputation.insert peer { e with isQuarantined := true, score := 1 / 20 } }

def adjustReputation (peer : String) (delta : ℚ) : Node :=
  let e := n.reputation[peer]?.getD {}
  { n with
    reputation := n.reputation.insert peer { e with score := max 0 (min (e.score + delta) 1) } }

end Node

/-- What moves the score of a peer. -/
inductive ReputationOp where
  | success (peer : String) (latency : ℚ)
  | failure (peer : String)
  | quarantine (peer : String)
  | adjust (peer : String) (delta : ℚ)
deriving DecidableEq, Repr

namespace ReputationOp

def peer : ReputationOp → String
  | success peer _ | failure peer | quarantine peer | adjust peer _ => peer

/-- The score afterwards, by the one before. -/
def rescore : ReputationOp → ℚ → ℚ
  | success _ _, score => min (score + 1 / 100) 1
  | failure _, score => max (score - 1 / 10) 0
  | quarantine _, _ => 1 / 20
  | adjust _ delta, score => max 0 (min (score + delta) 1)

/-- Whether the peer is put in quarantine, by the score before. -/
def Condemns : ReputationOp → ℚ → Prop
  | failure peer, score => (failure peer).rescore score < 1 / 10
  | quarantine _, _ => True
  | success _ _, _ | adjust _ _, _ => False

theorem rescore_bounds (op : ReputationOp) {score : ℚ} (hzero : 0 ≤ score) (hone : score ≤ 1) :
    0 ≤ op.rescore score ∧ op.rescore score ≤ 1 := by
  cases op with
  | success => exact ⟨le_min (by linarith) zero_le_one, min_le_right _ _⟩
  | failure => exact ⟨le_max_right _ _, max_le (by linarith) zero_le_one⟩
  | quarantine => norm_num [rescore]
  | adjust => exact ⟨le_max_left _ _, max_le zero_le_one (min_le_right _ _)⟩

end ReputationOp

namespace Node

def performReputation (n : Node) : ReputationOp → Node
  | .success peer latency => n.updatePeerSuccess peer latency
  | .failure peer => n.updatePeerFailure peer
  | .quarantine peer => n.setPeerQuarantine peer
  | .adjust peer delta => n.adjustReputation peer delta

def runReputation (n : Node) (ops : List ReputationOp) : Node := ops.foldl performReputation n

def keptScore (n : Node) (peer : String) : ℚ := (n.reputation[peer]?.getD {}).score

/-- The peers and scores that an assessment looks at. -/
def assessed (n : Node) : List (String × ℚ) := (n.worldState.map evaluated).getD []

/-- The scores that are assessed are those that are kept. -/
def OneReputation (n : Node) : Prop :=
  ∀ peer score, (peer, score) ∈ n.assessed → n.keptScore peer = score

variable (n : Node) (ops : List ReputationOp) (op : ReputationOp) (peer : String)

theorem worldState_perform : (n.performReputation op).worldState = n.worldState := by
  cases op with
  | success | failure | quarantine | adjust => rfl

theorem getD_insert (target : String) (e : PeerReputation) (peer : String) :
    ((n.reputation.insert target e)[peer]?).getD {}
      = if target = peer then e else n.reputation[peer]?.getD {} := by
  rw [FinMap.find_insert]
  split
  · rfl
  · rfl

theorem keptScore_perform :
    (n.performReputation op).keptScore peer
      = if op.peer = peer then op.rescore (n.keptScore peer) else n.keptScore peer := by
  cases op with
  | success target latency | failure target | quarantine target | adjust target delta =>
    refine (congrArg PeerReputation.score (n.getD_insert target _ peer)).trans ?_
    by_cases htarget : target = peer
    · subst htarget
      rw [if_pos rfl, ReputationOp.peer, if_pos rfl]
      rfl
    · rw [if_neg htarget, ReputationOp.peer, if_neg htarget]
      rfl

theorem assessed_run : (n.runReputation ops).assessed = n.assessed := by
  induction ops generalizing n with
  | nil => rfl
  | cons op ops ih =>
    refine (ih (n.performReputation op)).trans ?_
    rw [assessed, worldState_perform]
    rfl

theorem runReputation_concat :
    n.runReputation (ops ++ [op]) = (n.runReputation ops).performReputation op := by
  rw [runReputation, foldl_append]
  rfl

/-- A node with one peer in its registry, of which the controller has seen nothing yet. -/
def acquaintedNode : Node :=
  { Client.askingNode with
    worldState := some (WorldState.upsertPeerState ⟨0, 0, [], ∅, {}, ∅⟩ 0 0 "bob" none true none) }

theorem isQuarantined_perform :
    (n.performReputation op).isQuarantined peer = true ↔
      n.isQuarantined peer = true ∨ op.peer = peer ∧ op.Condemns (n.keptScore peer) := by
  -- A peer without an entry is not in quarantine, as the default says.
  have hkept (m : Node) : m.isQuarantined peer = (m.reputation[peer]?.getD {}).isQuarantined := by
    unfold isQuarantined
    cases m.reputation[peer]? <;> rfl
  rw [hkept, hkept]
  cases op with
  | success target latency | failure target | quarantine target | adjust target delta =>
    refine (congrArg (fun e : PeerReputation => e.isQuarantined = true)
      (n.getD_insert target _ peer)).to_iff.trans ?_
    by_cases htarget : target = peer
    · subst htarget
      simp [ReputationOp.peer, ReputationOp.Condemns, ReputationOp.rescore, keptScore, or_comm]
    · simp [ReputationOp.peer, htarget]

theorem enforce_of_quarantined {n : Node} {peer : String} (h : n.isQuarantined peer = true)
    (action : Authority.Action) : (n.enforce peer action).2 = false := by
  rw [enforce, if_pos h]

/-- Along a run a peer whose score was low once is in quarantine and refused. -/
def LowRefused (n : Node) (ops : List ReputationOp) : Prop :=
  ∀ before after, before <+: after → after <+: ops → ∀ peer,
    (n.runReputation before).keptScore peer < 1 / 10 →
      (n.runReputation after).isQuarantined peer = true ∧
        ∀ action, ((n.runReputation after).enforce peer action).2 = false

/-- The run adjusts no score to a low one but that of a peer in quarantine. -/
def NoneSunk (n : Node) (ops : List ReputationOp) : Prop :=
  ∀ before peer delta, before ++ [.adjust peer delta] <+: ops →
    (ReputationOp.adjust peer delta).rescore ((n.runReputation before).keptScore peer) < 1 / 10 →
      (n.runReputation before).isQuarantined peer = true

theorem isQuarantined_run {n : Node} {before after : List ReputationOp} (h : before <+: after)
    {peer : String} (hflag : (n.runReputation before).isQuarantined peer = true) :
    (n.runReputation after).isQuarantined peer = true := by
  obtain ⟨later, rfl⟩ := h
  induction later using reverseRecOn with
  | nil => rwa [append_nil]
  | append_singleton later op ih =>
    rw [← append_assoc, runReputation_concat, isQuarantined_perform]
    exact Or.inl ih

theorem isQuarantined_of_low {n : Node} {ops before : List ReputationOp}
    (hnew : n.reputation = ∅) (hsunk : n.NoneSunk ops) (hbefore : before <+: ops) {peer : String}
    (hlow : (n.runReputation before).keptScore peer < 1 / 10) :
    (n.runReputation before).isQuarantined peer = true := by
  induction before using reverseRecOn with
  | nil =>
    -- A peer that is not known yet starts from one half.
    rw [runReputation, foldl_nil, keptScore, hnew] at hlow
    norm_num at hlow
  | append_singleton before op ih =>
    have hearlier := (prefix_append before [op]).trans hbefore
    rw [runReputation_concat, keptScore_perform] at hlow
    rw [runReputation_concat, isQuarantined_perform]
    by_cases hpeer : op.peer = peer
    · rw [if_pos hpeer] at hlow
      cases op with
      | success target latency =>
        refine Or.inl (ih hearlier ?_)
        -- A success does not lower a score.
        simp only [ReputationOp.rescore, min_lt_iff] at hlow
        rcases hlow with hscore | hone
        · linarith
        · norm_num at hone
      | failure target => exact Or.inr ⟨hpeer, hlow⟩
      | quarantine target => exact Or.inr ⟨hpeer, trivial⟩
      | adjust target delta =>
        obtain rfl : target = peer := hpeer
        exact Or.inl (hsunk before target delta hbefore hlow)
    · rw [if_neg hpeer] at hlow
      exact Or.inl (ih hearlier hlow)

theorem keptScore_bounds (hnew : n.reputation = ∅) (ops : List ReputationOp) (peer : String) :
    0 ≤ (n.runReputation ops).keptScore peer ∧ (n.runReputation ops).keptScore peer ≤ 1 := by
  induction ops using reverseRecOn with
  | nil =>
    rw [runReputation, foldl_nil, keptScore, hnew]
    norm_num
  | append_singleton ops op ih =>
    rw [runReputation_concat, keptScore_perform]
    split
    · exact op.rescore_bounds ih.1 ih.2
    · exact ih

/-- Scores stay between zero and one and a quarantine is never lifted. A peer whose score gets
    low is in quarantine from then on, and refused, exactly if no score is adjusted to a low
    one. -/
theorem low_score_refused_iff (n : Node) (ops : List ReputationOp) :
    let start := { n with reputation := ∅ }
    (∀ peer, 0 ≤ (start.runReputation ops).keptScore peer ∧
      (start.runReputation ops).keptScore peer ≤ 1) ∧
    (∀ before peer, before <+: ops → (start.runReputation before).isQuarantined peer = true →
      (start.runReputation ops).isQuarantined peer = true) ∧
    (start.LowRefused ops ↔ start.NoneSunk ops) := by
  intro start
  refine ⟨start.keptScore_bounds rfl ops, fun before peer h => isQuarantined_run h, ?_, ?_⟩
  · intro hrefused before peer delta hbefore hlow
    -- The adjustment leaves the score low and the flag alone.
    have hscore := keptScore_perform (start.runReputation before) (.adjust peer delta) peer
    rw [ReputationOp.peer, if_pos rfl, ← runReputation_concat] at hscore
    have hflag := (hrefused _ _ (prefix_refl _) hbefore peer (by rwa [hscore])).1
    rw [runReputation_concat, isQuarantined_perform] at hflag
    exact hflag.resolve_right fun h => h.2
  · intro hsunk before after hbefore hafter peer hlow
    have hflag := isQuarantined_run hbefore
      (isQuarantined_of_low rfl hsunk (hbefore.trans hafter) hlow)
    exact ⟨hflag, enforce_of_quarantined hflag⟩

/-- A score that is adjusted to one twentieth: the peer is not in quarantine and may connect. -/
theorem sunk_peer_served :
    let start := { acquaintedNode with securityAttached := false, reputation := ∅ }
    let ops : List ReputationOp := [.adjust "bob" (-9 / 20)]
    (start.runReputation ops).keptScore "bob" = 1 / 20 ∧
      (start.runReputation ops).isQuarantined "bob" = false ∧
      ((start.runReputation ops).enforce "bob" .connect).2 = true := by
  decide +kernel

end Node

/-- Nothing but an adjustment by nothing leaves a score of one half where it is. -/
theorem rescore_half_iff (op : ReputationOp) :
    op.rescore (1 / 2) = 1 / 2 ↔ ∃ peer, op = .adjust peer 0 := by
  cases op with
  | success | failure | quarantine =>
    refine iff_of_false ?_ nofun
    norm_num [ReputationOp.rescore]
  | adjust peer delta =>
    simp only [ReputationOp.rescore, ReputationOp.adjust.injEq]
    constructor
    · -- The limits are not reached, so nothing was added.
      intro h
      refine ⟨peer, rfl, ?_⟩
      rcases max_choice 0 (min (1 / 2 + delta) 1) with hmax | hmax
      · rw [hmax] at h
        norm_num at h
      · rw [hmax] at h
        rcases min_choice (1 / 2 + delta) 1 with hmin | hmin
        · rw [hmin] at h
          linarith
        · rw [hmin] at h
          norm_num at h
    · rintro ⟨_, rfl, rfl⟩
      norm_num

end EssNode
