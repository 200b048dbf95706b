import EssNode.Governance.Casting

/-!
# The Life of a Proposal

What runs of the engine's calls keep, from the proposal's creation to its execution.

Two histories matter. The bootstrap mode, in which a proposal is executed as it is
made, is meant for the time before a second supernode joins. The flag that says it
is over is set when the number of supernodes rises to two, or at the deadline. It is
never taken back (`bootstrapExited_run`), so an engine that starts with fewer than
two supernodes cannot come back to the mode. An engine that starts with two has not
set the flag, and enters the mode when one of them leaves. The two cases are all there
are (`bootstrap_over_iff`).

A proposal, once executed, is never written again: a vote is refused, marking it
changes nothing, and new proposals get other identifiers. Up to then a vote is stored
under its voter, which makes every count of votes a count of voters
(`executed_proposals_final`).
-/

namespace EssNode

namespace Governance

open GovernanceEngine

section Bootstrap

/-- The readings of the clock that a call makes, in order. -/
def Op.clock : Op → List UInt64
  | .createProposal now createdAt _ _ _ => [now, createdAt]
  | .recordVote now _ _ _ => [now]
  | .markExecuted now _ => [now]
  | .updateSupernodes now _ => [now]

/-- The clock does not go back in a run that begins at `start`. -/
def Clocked (start : UInt64) (ops : List Op) : Prop :=
  (start :: ops.flatMap Op.clock).Pairwise (· ≤ ·)

instance (start : UInt64) (ops : List Op) : Decidable (Clocked start ops) :=
  inferInstanceAs (Decidable (List.Pairwise _ _))

/-- A proposal is executed as it is made while the mode is on, was never left, and the
    deadline has not passed. -/
theorem bootstrapping_iff (e : GovernanceEngine) (now : UInt64) :
    e.Bootstrapping now ↔
      e.isBootstrapMode = true ∧ e.bootstrapExited = false ∧ now ≤ e.bootstrapDeadline := by
  unfold Bootstrapping evaluateBootstrap
  by_cases hlate : e.isBootstrapMode = true ∧ now > e.bootstrapDeadline
  · rw [if_pos hlate]
    simp only [Bool.false_eq_true, false_and, false_iff]
    rintro ⟨-, -, hle⟩
    exact absurd hlate.2 (UInt64.not_lt.mpr hle)
  · rw [if_neg hlate]
    constructor
    · rintro ⟨hmode, hexited⟩
      exact ⟨hmode, hexited, UInt64.not_lt.mp fun hlt => hlate ⟨hmode, hlt⟩⟩
    · rintro ⟨hmode, hexited, -⟩
      exact ⟨hmode, hexited⟩

variable {e : GovernanceEngine}

theorem bootstrapExited_evaluateBootstrap (h : e.bootstrapExited = true) (now : UInt64) :
    (e.evaluateBootstrap now).bootstrapExited = true := by
  unfold evaluateBootstrap
  split
  · rfl
  · exact h

/-- Of the calls, only `updateSupernodes` has a say in the mode besides the deadline
    check. -/
theorem apply_mode (e : GovernanceEngine) (op : Op) :
    (∃ now newList, op = .updateSupernodes now newList) ∨
      ∃ now, (apply e op).supernodes = e.supernodes ∧
        (apply e op).bootstrapExited = (e.evaluateBootstrap now).bootstrapExited := by
  cases op with
  | createProposal now createdAt uuid ptype target =>
    refine Or.inr ⟨now, ?_, ?_⟩
    · rw [apply, createProposal_eq]
      exact evaluateBootstrap_supernodes e now
    · rw [apply, createProposal_eq]
  | recordVote now pid voter approve =>
    refine Or.inr ⟨now, (recordVote_frame e now pid voter approve).1, ?_⟩
    rw [apply]
    by_cases hrec : Recordable e pid voter
    · rcases hrec with ⟨p, hp, hopen, hv⟩
      rw [recordVote_of_recordable hp hopen hv]
    · rcases recordVote_of_not_recordable hrec now approve with ⟨msg, hmsg⟩
      rw [hmsg]
  | markExecuted now pid => exact Or.inr ⟨now, evaluateBootstrap_supernodes e now, rfl⟩
  | updateSupernodes now newList => exact Or.inl ⟨now, newList, rfl⟩

theorem bootstrapExited_apply (h : e.bootstrapExited = true) (op : Op) :
    (apply e op).bootstrapExited = true := by
  rcases apply_mode e op with ⟨now, newList, rfl⟩ | ⟨now, -, hexited⟩
  · have hkeep := bootstrapExited_evaluateBootstrap h now
    unfold apply updateSupernodes
    dsimp only
    split
    · rfl
    · split <;> exact hkeep
  · rw [hexited]
    exact bootstrapExited_evaluateBootstrap h now

theorem bootstrapExited_run (h : e.bootstrapExited = true)
    (ops : List Op) : (run e ops).bootstrapExited = true := by
  induction ops generalizing e with
  | nil => exact h
  | cons op ops ih => exact ih (bootstrapExited_apply h op)

/-- The mode was left, or there were too few supernodes to leave it. -/
def Few (e : GovernanceEngine) : Prop :=
  e.bootstrapExited = true ∨ e.supernodes.card < 2

theorem few_apply (h : Few e) (op : Op) : Few (apply e op) := by
  rcases h with hexited | hfew
  · exact Or.inl (bootstrapExited_apply hexited op)
  rcases apply_mode e op with ⟨now, newList, rfl⟩ | ⟨now, hsame, -⟩
  · -- A second supernode that joins sets the flag.
    unfold Few apply updateSupernodes
    dsimp only
    rw [evaluateBootstrap_supernodes]
    by_cases hcount : newList.toFinset.card < 2
    · right
      rw [if_neg (fun hc => absurd hc.1 (not_le_of_gt hcount))]
      split <;> exact hcount
    · left
      rw [if_pos ⟨Nat.le_of_not_lt hcount, hfew⟩]
  · right
    rw [hsame]
    exact hfew

theorem few_run (h : Few e) (ops : List Op) : Few (run e ops) := by
  induction ops generalizing e with
  | nil => exact h
  | cons op ops ih => exact ih (few_apply h op)

theorem run_append (e : GovernanceEngine) (before after : List Op) :
    run e (before ++ after) = run (run e before) after :=
  List.foldl_append

theorem few_of_not_exited (h : e.supernodes.card < 2) {ops : List Op}
    (hexited : (run e ops).bootstrapExited = false) {before : List Op} (hbefore : before <+: ops) :
    (run e before).supernodes.card < 2 := by
  rcases hbefore with ⟨after, rfl⟩
  rcases few_run (Or.inr h) before with hleft | hfew
  · -- The flag would have stayed.
    have hstill := bootstrapExited_run hleft after
    rw [← run_append, hexited] at hstill
    exact absurd hstill (by simp)
  · exact hfew

theorem executed_createProposal_iff (e : GovernanceEngine) (now createdAt : UInt64) (uuid : String)
    (ptype : ProposalType) (target : String) :
    (∃ p, (apply e (.createProposal now createdAt uuid ptype target)).proposals[
        proposalIdOf ptype target uuid]? = some p ∧ p.executed = true) ↔ e.Bootstrapping now := by
  rw [apply, createProposal_eq, FinMap.find_insert, if_pos rfl]
  constructor
  · rintro ⟨p, hp, hexec⟩
    rw [Option.some.injEq] at hp
    rw [← hp] at hexec
    exact of_decide_eq_true hexec
  · intro h
    exact ⟨_, rfl, decide_eq_true h⟩

/-- An engine whose members all leave while the deadline is ahead is in bootstrap mode,
    however many there were. -/
theorem bootstrapping_of_left (supernodes : List String) (ratio : ℚ) {start : UInt64}
    (hstart : start ≤ start + 3600) :
    (run (new supernodes ratio start) [.updateSupernodes start []]).Bootstrapping start := by
  have hcheck : (new supernodes ratio start).evaluateBootstrap start
      = new supernodes ratio start :=
    (evaluateBootstrap_eq_self_iff _ _).mpr fun hlate =>
      absurd hlate.2 (UInt64.not_lt.mpr hstart)
  have hupdate : run (new supernodes ratio start) [.updateSupernodes start []]
      = { new supernodes ratio start with supernodes := ∅, isBootstrapMode := true } := by
    change updateSupernodes _ start [] = _
    unfold updateSupernodes
    dsimp only
    rw [hcheck, List.toFinset_nil, Finset.card_empty, if_neg (by omega),
      if_pos ⟨by omega, rfl⟩]
  rw [hupdate, bootstrapping_iff]
  exact ⟨rfl, rfl, hstart⟩

/-- Bootstrap is not entered again exactly by engines that start with fewer than two
    supernodes: only then is every proposal that is executed as it is made one of a time
    with fewer than two all along, made before the deadline. -/
theorem bootstrap_over_iff (supernodes : List String) (ratio : ℚ) (start : UInt64)
    (hstart : start ≤ start + 3600) :
    (∀ ops now createdAt uuid ptype target,
      Clocked start (ops ++ [.createProposal now createdAt uuid ptype target]) →
      (∃ p, (run (new supernodes ratio start)
          (ops ++ [.createProposal now createdAt uuid ptype target])).proposals[
            proposalIdOf ptype target uuid]? = some p ∧ p.executed = true) →
      (∀ before, before <+: ops →
        (run (new supernodes ratio start) before).supernodes.card < 2) ∧
        now ≤ (run (new supernodes ratio start) ops).bootstrapDeadline) ↔
      supernodes.toFinset.card < 2 := by
  constructor
  · intro h
    -- The members all leave at once, and a proposal is made before the deadline.
    have hexec := (executed_createProposal_iff _ start start "" (.banPeer "") "").mpr
      (bootstrapping_of_left supernodes ratio hstart)
    have hleft := h [.updateSupernodes start []] start start "" (.banPeer "") ""
      (by simp [Clocked, Op.clock]) (by rw [run_append]; exact hexec)
    exact hleft.1 [] List.nil_prefix
  · intro hfew ops now createdAt uuid ptype target _ hexec
    rw [run_append] at hexec
    have hboot := (bootstrapping_iff _ _).mp
      ((executed_createProposal_iff _ now createdAt uuid ptype target).mp hexec)
    exact ⟨fun before hbefore => few_of_not_exited hfew hboot.2.1 hbefore, hboot.2.2⟩

/-- A lone supernode's proposal is executed as it is made, within the hour. -/
theorem lone_supernode_bootstraps :
    (∃ p, (run (new ["sn1"] (2 / 3) 1000) ([.updateSupernodes 1010 ["sn2"]] ++
        [.createProposal 1020 1020 "7f3a" (.activatePeer "peerC") "peerC"])).proposals[
          proposalIdOf (.activatePeer "peerC") "peerC" "7f3a"]? = some p ∧ p.executed = true) ∧
      1020 ≤
        (run (new ["sn1"] (2 / 3) 1000) [.updateSupernodes 1010 ["sn2"]]).bootstrapDeadline := by
  have hexec : ∃ p, (run (new ["sn1"] (2 / 3) 1000) ([.updateSupernodes 1010 ["sn2"]] ++
      [.createProposal 1020 1020 "7f3a" (.activatePeer "peerC") "peerC"])).proposals[
        proposalIdOf (.activatePeer "peerC") "peerC" "7f3a"]? = some p ∧ p.executed = true := by
    rw [run_append]
    refine (executed_createProposal_iff _ 1020 1020 "7f3a" (.activatePeer "peerC") "peerC").mpr ?_
    decide
  refine ⟨hexec, ?_⟩
  exact ((bootstrap_over_iff ["sn1"] (2 / 3) 1000 (by decide)).mpr (by decide) _ 1020 1020 "7f3a"
    (.activatePeer "peerC") "peerC" (by decide) hexec).2

/-- One member of two leaves, and the peer that is proposed next counts as approved. -/
theorem bootstrap_entered_late :
    Clocked 1000 ([.updateSupernodes 1010 ["sn1"]] ++
        [.createProposal 1020 1020 "7f3a" (.activatePeer "peerC") "peerC"]) ∧
      (∃ p, (run (new ["sn1", "sn2"] (2 / 3) 1000) ([.updateSupernodes 1010 ["sn1"]] ++
          [.createProposal 1020 1020 "7f3a" (.activatePeer "peerC") "peerC"])).proposals[
            proposalIdOf (.activatePeer "peerC") "peerC" "7f3a"]? = some p ∧
          p.executed = true) ∧
      ¬ (run (new ["sn1", "sn2"] (2 / 3) 1000) []).supernodes.card < 2 := by
  refine ⟨by decide, ?_, by decide⟩
  rw [run_append]
  refine (executed_createProposal_iff _ 1020 1020 "7f3a" (.activatePeer "peerC") "peerC").mpr ?_
  decide

end Bootstrap

section Final

/-- A proposal that the call makes gets an identifier that is not in use. -/
def Op.Fresh (e : GovernanceEngine) : Op → Prop
  | .createProposal _ _ uuid ptype target => e.proposals[proposalIdOf ptype target uuid]? = none
  | _ => True

/-- Every proposal that a run makes gets an identifier that is not in use. -/
def FreshIn (e : GovernanceEngine) : List Op → Prop
  | [] => True
  | op :: ops => op.Fresh e ∧ FreshIn (apply e op) ops

variable {e : GovernanceEngine} {pid : String} {ops : List Op} {op : Op} {b : Bool} {v : String}
  {p : Proposal}

theorem freshIn_append {before after : List Op} :
    FreshIn e (before ++ after) ↔ FreshIn e before ∧ FreshIn (run e before) after := by
  induction before generalizing e with
  | nil => exact ⟨fun h => ⟨trivial, h⟩, And.right⟩
  | cons op before ih =>
    rw [List.cons_append, FreshIn, FreshIn, ih, and_assoc]
    rfl

theorem updateSupernodes_proposals (e : GovernanceEngine) (now : UInt64) (newList : List String) :
    (apply e (.updateSupernodes now newList)).proposals = e.proposals := by
  rw [apply, updateSupernodes, ← evaluateBootstrap_proposals e now]
  dsimp only
  split
  · rfl
  · split <;> rfl

theorem find_apply_of_executed (hp : e.proposals[pid]? = some p) (hexec : p.executed = true)
    (hfresh : op.Fresh e) : (apply e op).proposals[pid]? = some p := by
  cases op with
  | createProposal now createdAt uuid ptype target =>
    rw [apply, createProposal_eq, FinMap.find_insert]
    -- The new proposal has another identifier.
    rw [if_neg]
    · exact hp
    · intro hid
      rw [Op.Fresh, hid, hp] at hfresh
      exact absurd hfresh (by simp)
  | recordVote now pid' voter approve =>
    rw [apply]
    by_cases hrec : Recordable e pid' voter
    · rcases hrec with ⟨q, hq, hopen, hv⟩
      rw [recordVote_of_recordable hq hopen hv]
      dsimp only
      rw [FinMap.find_insert, if_neg]
      · exact hp
      · -- A proposal that takes the vote is open, so it is another one.
        intro hid
        rw [hid, hp, Option.some.injEq] at hq
        rw [← hq, hexec] at hopen
        exact absurd hopen (by simp)
    · rcases recordVote_of_not_recordable hrec now approve with ⟨msg, hmsg⟩
      rw [hmsg, evaluateBootstrap_proposals]
      exact hp
  | markExecuted now pid' =>
    rw [apply, markExecuted]
    dsimp only
    rw [FinMap.find_modify, evaluateBootstrap_proposals, hp]
    -- Marking it once more sets a flag that is set.
    by_cases hid : pid' = pid
    · rw [if_pos hid, Option.map_some, ← hexec]
    · rw [if_neg hid]
  | updateSupernodes now newList =>
    rw [updateSupernodes_proposals]
    exact hp

theorem find_run_of_executed (hp : e.proposals[pid]? = some p) (hexec : p.executed = true)
    (hfresh : FreshIn e ops) : (run e ops).proposals[pid]? = some p := by
  induction ops generalizing e with
  | nil => exact hp
  | cons op ops ih => exact ih (find_apply_of_executed hp hexec hfresh.1) hfresh.2

theorem voteOf_apply (h : voteOf (apply e op) pid v = some b) :
    voteOf e pid v = some b ∨ (∃ now, op = .recordVote now pid v b) ∧ Recordable e pid v := by
  cases op with
  | createProposal now createdAt uuid ptype target => exact Or.inl (voteOf_createProposal h)
  | recordVote now pid' voter approve =>
    rcases voteOf_recordVote h with hold | ⟨hrec, rfl, rfl, rfl⟩
    · exact Or.inl hold
    · exact Or.inr ⟨⟨now, rfl⟩, hrec⟩
  | markExecuted now pid' =>
    rw [apply, voteOf_markExecuted] at h
    exact Or.inl h
  | updateSupernodes now newList =>
    rw [voteOf, updateSupernodes_proposals] at h
    exact Or.inl h

/-- A vote on record after a run was there at the start, or a call of the run recorded
    it, of a supernode on an open proposal. -/
theorem voteOf_run (h : voteOf (run e ops) pid v = some b) :
    voteOf e pid v = some b ∨
      ∃ before now after, ops = before ++ .recordVote now pid v b :: after ∧
        Recordable (run e before) pid v := by
  induction ops generalizing e with
  | nil => exact Or.inl h
  | cons op ops ih =>
    rcases ih h with hstep | ⟨before, now, after, rfl, hrec⟩
    · rcases voteOf_apply hstep with hold | ⟨⟨now, rfl⟩, hrec⟩
      · exact Or.inl hold
      · exact Or.inr ⟨[], now, ops, rfl, hrec⟩
    · exact Or.inr ⟨op :: before, now, after, rfl, hrec⟩

/-- The voters that the calls of a run name for a proposal. -/
def namedVoters (pid : String) (ops : List Op) : Finset String :=
  (ops.filterMap fun
    | .recordVote _ pid' voter _ => if pid' = pid then some voter else none
    | _ => none).toFinset

theorem mem_namedVoters {voter : String} :
    voter ∈ namedVoters pid ops ↔ ∃ now approve, .recordVote now pid voter approve ∈ ops := by
  rw [namedVoters, List.mem_toFinset, List.mem_filterMap]
  constructor
  · rintro ⟨op, hop, hsome⟩
    cases op with
    | recordVote now pid' voter' approve =>
      dsimp only at hsome
      by_cases hid : pid' = pid
      · rw [if_pos hid, Option.some.injEq] at hsome
        rw [hid, hsome] at hop
        exact ⟨now, approve, hop⟩
      · rw [if_neg hid] at hsome
        exact absurd hsome (by simp)
    | createProposal => exact absurd hsome (by simp)
    | markExecuted => exact absurd hsome (by simp)
    | updateSupernodes => exact absurd hsome (by simp)
  · rintro ⟨now, approve, hop⟩
    exact ⟨_, hop, if_pos rfl⟩

/-- A proposal of a run of a new engine, once executed, is never written again and no
    longer put to the quorum test. Every vote on record is one that a supernode of that
    moment cast, and each voter counts once, however often it is named. -/
theorem executed_proposals_final (supernodes : List String) (ratio : ℚ) (start : UInt64)
    (ops : List Op) (hfresh : FreshIn (new supernodes ratio start) ops) :
    (∀ before, before <+: ops → ∀ pid p,
      (run (new supernodes ratio start) before).proposals[pid]? = some p → p.executed = true →
        (run (new supernodes ratio start) ops).proposals[pid]? = some p ∧
          ∀ timeoutSecs now,
            (run (new supernodes ratio start) ops).checkQuorum pid timeoutSecs now = none) ∧
    ∀ pid p, (run (new supernodes ratio start) ops).proposals[pid]? = some p →
      (∀ voter approve, p.votes[voter]? = some approve →
        ∃ before now after, ops = before ++ .recordVote now pid voter approve :: after ∧
          voter ∈ (run (new supernodes ratio start) before).supernodes) ∧
      p.yes = ((namedVoters pid ops).filter fun v => p.votes[v]? = some true).card ∧
      p.no = ((namedVoters pid ops).filter fun v => p.votes[v]? = some false).card := by
  refine ⟨?_, ?_⟩
  · rintro before ⟨after, rfl⟩ pid p hp hexec
    have hfind := find_run_of_executed hp hexec (freshIn_append.mp hfresh).2
    rw [← run_append] at hfind
    refine ⟨hfind, checkQuorum_of_executed ?_⟩
    rw [hfind, Option.map_some, hexec]
  · intro pid p hp
    have hrecorded : ∀ voter approve, p.votes[voter]? = some approve →
        ∃ before now after, ops = before ++ .recordVote now pid voter approve :: after ∧
          voter ∈ (run (new supernodes ratio start) before).supernodes := by
      intro voter approve hvote
      have hon : voteOf (run (new supernodes ratio start) ops) pid voter = some approve := by
        rw [voteOf, hp, Option.bind_some, hvote]
      rcases voteOf_run hon with hold | ⟨before, now, after, hops, p', -, -, hv⟩
      · -- A new engine has no votes on record.
        rw [voteOf, new, Std.ExtTreeMap.getElem?_empty] at hold
        exact absurd hold (by simp)
      · exact ⟨before, now, after, hops, hv⟩
    have hnamed : ∀ voter approve, p.votes[voter]? = some approve →
        voter ∈ namedVoters pid ops := by
      intro voter approve hvote
      rcases hrecorded voter approve hvote with ⟨before, now, after, rfl, -⟩
      exact mem_namedVoters.mpr ⟨now, approve, by simp⟩
    refine ⟨hrecorded, ?_, ?_⟩
    · rw [Proposal.yes, FinMap.count_eq_card id p.votes _ fun v b hv _ => hnamed v b hv]
      congr 1
      refine Finset.filter_congr fun v _ => ?_
      cases p.votes[v]? <;> simp
    · rw [Proposal.no, FinMap.count_eq_card _ p.votes _ fun v b hv _ => hnamed v b hv]
      congr 1
      refine Finset.filter_congr fun v _ => ?_
      cases p.votes[v]? <;> simp

/-- Two supernodes vote, one of them twice, and the proposal is executed. -/
def settledOps : List Op :=
  [.createProposal 1000 1000 "7f3a" (.activatePeer "peerC") "peerC",
    .recordVote 1010 (proposalIdOf (.activatePeer "peerC") "peerC" "7f3a") "sn1" false,
    .recordVote 1020 (proposalIdOf (.activatePeer "peerC") "peerC" "7f3a") "sn1" true,
    .recordVote 1030 (proposalIdOf (.activatePeer "peerC") "peerC" "7f3a") "sn2" true,
    .markExecuted 1030 (proposalIdOf (.activatePeer "peerC") "peerC" "7f3a")]

/-- A third vote, after one of the two has left, changes nothing any more. -/
theorem settled_proposal_final :
    ((run (new ["sn1", "sn2"] (2 / 3) 1000) settledOps).proposals[
        proposalIdOf (.activatePeer "peerC") "peerC" "7f3a"]?).map Proposal.yes = some 2 ∧
      (run (new ["sn1", "sn2"] (2 / 3) 1000) (settledOps ++ [.updateSupernodes 1040 ["sn1"],
          .recordVote 1050 (proposalIdOf (.activatePeer "peerC") "peerC" "7f3a") "sn1" false])
        ).checkQuorum (proposalIdOf (.activatePeer "peerC") "peerC" "7f3a") 600 2000 = none := by
  have hfresh : FreshIn (new ["sn1", "sn2"] (2 / 3) 1000) (settledOps ++
      [.updateSupernodes 1040 ["sn1"],
        .recordVote 1050 (proposalIdOf (.activatePeer "peerC") "peerC" "7f3a") "sn1" false]) :=
    ⟨Std.ExtTreeMap.getElem?_empty, trivial, trivial, trivial, trivial, trivial, trivial, trivial⟩
  refine ⟨by decide +kernel, ?_⟩
  have hsome : ((run (new ["sn1", "sn2"] (2 / 3) 1000) settledOps).proposals[
      proposalIdOf (.activatePeer "peerC") "peerC" "7f3a"]?).any Proposal.executed = true := by
    decide +kernel
  rcases (Option.any_eq_true _ _).mp hsome with ⟨p, hp, hexec⟩
  exact ((executed_proposals_final ["sn1", "sn2"] (2 / 3) 1000 _ hfresh).1 settledOps
    (List.prefix_append _ _) _ p hp hexec).2 600 2000

end Final

end Governance

end EssNode
