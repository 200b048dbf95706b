import EssNode.Node.Votes

/-!
# The Order of Votes

What is on record after the votes on a proposal have come in, in some order and some
of them more than once.

A vote is signed together with a timestamp and a nonce, and neither is looked at when
the vote comes in: recording it replaces the voter's earlier vote, so the record is the
vote that came *last* (`Ballots.voteOf`). An old vote that is sent again is accepted as
it was the first time, because nothing that admits it has changed, and undoes the newer
one. So the order matters as soon as one supernode has voted both ways, and only then
(`vote_order_iff`).
-/

namespace EssNode

open List

namespace Node

open Authority Bincode Governance

section LastVote

variable {vote : VoteMessage} {votes : List VoteMessage} {v : String}

def lastVote (votes : List VoteMessage) (v : String) : Option Bool :=
  ((votes.filter fun vote => vote.voter = v).getLast?).map VoteMessage.approve

theorem lastVote_concat (votes : List VoteMessage) (vote : VoteMessage) (v : String) :
    lastVote (votes ++ [vote]) v
      = if vote.voter = v then some vote.approve else lastVote votes v := by
  unfold lastVote
  rw [filter_append]
  by_cases hv : vote.voter = v
  · rw [if_pos hv, filter_singleton, decide_eq_true hv]
    simp
  · rw [if_neg hv, filter_singleton, decide_eq_false hv]
    simp

theorem lastVote_cons (vote : VoteMessage) (votes : List VoteMessage) (v : String) :
    lastVote (vote :: votes) v
      = (lastVote votes v).or (if vote.voter = v then some vote.approve else none) := by
  induction votes using reverseRecOn with
  | nil =>
    rw [← nil_append [vote], lastVote_concat]
    rfl
  | append_singleton votes last ih =>
    rw [← cons_append, lastVote_concat, lastVote_concat, ih]
    by_cases hv : last.voter = v
    · rw [if_pos hv, if_pos hv, Option.some_or]
    · rw [if_neg hv, if_neg hv]

theorem mem_of_lastVote {b : Bool} (h : lastVote votes v = some b) :
    ∃ vote ∈ votes, vote.voter = v ∧ vote.approve = b := by
  rcases Option.map_eq_some_iff.mp h with ⟨vote, hlast, happrove⟩
  have hmem := mem_filter.mp (mem_of_getLast? hlast)
  exact ⟨vote, hmem.1, of_decide_eq_true hmem.2, happrove⟩

theorem lastVote_isSome (hvote : vote ∈ votes) : (lastVote votes vote.voter).isSome := by
  rw [lastVote, Option.isSome_map, Option.isSome_iff_ne_none, ne_eq, getLast?_eq_none_iff,
    filter_eq_nil_iff]
  intro hnone
  exact hnone vote hvote (decide_eq_true rfl)

theorem lastVote_of_steady (hvote : vote ∈ votes)
    (hsteady : ∀ other ∈ votes, other.voter = vote.voter → other.approve = vote.approve) :
    lastVote votes vote.voter = some vote.approve := by
  rcases Option.isSome_iff_exists.mp (lastVote_isSome hvote) with ⟨b, hb⟩
  rcases mem_of_lastVote hb with ⟨other, hother, hvoter, rfl⟩
  rw [hb, hsteady other hother hvoter]

end LastVote

variable (env : NodeEnv) (n : Node) (engine : GovernanceEngine) (world : Option WorldState)
  (peer : String)

theorem applyVote_eq (rd : Readings) (n : Node) (vote : VoteMessage) :
    ∃ engine world, (n.applyVote env rd vote).1
      = { n with governanceEngine := engine, worldState := world } := by
  unfold applyVote
  dsimp only
  split
  · unfold activateTarget
    split
    · exact ⟨_, _, rfl⟩
    split <;> exact ⟨_, _, rfl⟩
  · exact ⟨_, _, rfl⟩

theorem enforce_withEngine (action : Action) :
    (({ n with governanceEngine := engine, worldState := world } : Node).enforce peer action).2
      = (n.enforce peer action).2 := by
  unfold enforce isQuarantined
  simp only [apply_ite Prod.snd]
  cases n.authority with
  | none => rfl
  | some auth => simp only [apply_ite Prod.snd]

theorem handlerBody_withEngine (request : DirectRequest) :
    ({ n with governanceEngine := engine, worldState := world } : Node).handlerBody env peer request
      = n.handlerBody env peer request := by
  unfold handlerBody
  rw [enforce_withEngine]

section Ballots

variable (env : NodeEnv) (pid : String)

/-- A run that brings accepted votes on a proposal, each of them while it is open. -/
inductive Ballots : Node → List Incoming → List VoteMessage → Prop where
  | done (n : Node) : Ballots n [] []
  | vote {n : Node} {i : Incoming} {vote : VoteMessage} {ins : List Incoming}
      {votes : List VoteMessage} (haccepts : Accepts env n i vote)
      (hpid : vote.proposalId = pid) (hopen : n.governanceEngine.OpenAt pid)
      (hrest : Ballots (n.receive env i) ins votes) : Ballots n (i :: ins) (vote :: votes)

/-- No supernode votes both ways. -/
def Steady (n : Node) (votes : List VoteMessage) : Prop :=
  ∀ a ∈ votes, ∀ b ∈ votes, a.voter = b.voter → a.voter ∈ n.governanceEngine.supernodes →
    a.approve = b.approve

variable {env pid} {n : Node} {i : Incoming} {vote : VoteMessage} {ins : List Incoming}
  {votes : List VoteMessage}

theorem Accepts.governanceEngine (h : Accepts env n i vote) :
    (n.receive env i).governanceEngine
      = (castVote n.governanceEngine (i.readings.clock 0) (i.readings.clock 1)
          (i.readings.clock 2) vote.proposalId vote.voter vote.approve).1 := by
  rw [h.receive]
  exact (applyVote_frame env i.readings n vote).1

theorem Accepts.receive_supernodes (h : Accepts env n i vote) :
    (n.receive env i).governanceEngine.supernodes = n.governanceEngine.supernodes := by
  rw [h.governanceEngine]
  exact castVote_supernodes _ _ _ _ _ _ _

theorem Accepts.voteOf (h : Accepts env n i vote)
    (hopen : n.governanceEngine.OpenAt vote.proposalId) (v : String) :
    Governance.voteOf (n.receive env i).governanceEngine vote.proposalId v
      = if vote.voter = v ∧ v ∈ n.governanceEngine.supernodes then some vote.approve
        else Governance.voteOf n.governanceEngine vote.proposalId v := by
  rw [h.governanceEngine, voteOf_castVote_eq]
  rcases hopen with ⟨p, hp, hopen⟩
  by_cases hsuper : vote.voter ∈ n.governanceEngine.supernodes
  · rw [voteOf_recordVote_of_recordable ⟨p, hp, hopen, hsuper⟩]
    by_cases hv : vote.voter = v
    · rw [if_pos ⟨rfl, hv⟩, if_pos ⟨hv, hv ▸ hsuper⟩]
    · rw [if_neg fun hc => hv hc.2, if_neg fun hc => hv hc.1]
  · -- A voter who is no supernode is refused by the engine.
    rw [voteOf_recordVote_of_not_recordable fun ⟨_, _, _, hv⟩ => hsuper hv, if_neg]
    rintro ⟨rfl, hv⟩
    exact hsuper hv

/-- After a run the record holds the last vote of each supernode. -/
theorem Ballots.voteOf (h : Ballots env pid n ins votes) (v : String) :
    Governance.voteOf (n.run env ins).governanceEngine pid v
      = if v ∈ n.governanceEngine.supernodes then
          (lastVote votes v).or (Governance.voteOf n.governanceEngine pid v)
        else Governance.voteOf n.governanceEngine pid v := by
  induction h with
  | done n =>
    split
    · exact (Option.none_or).symm
    · rfl
  | @vote n i vote ins votes haccepts hpid hopen _ ih =>
    rw [← hpid] at hopen
    have hstep := haccepts.voteOf hopen v
    rw [hpid] at hstep
    refine Eq.trans ih ?_
    rw [haccepts.receive_supernodes, hstep, lastVote_cons]
    by_cases hsuper : v ∈ n.governanceEngine.supernodes
    · -- This vote stands unless a later one of the same voter replaces it.
      simp only [hsuper, if_true, and_true]
      by_cases hv : vote.voter = v
      · simp only [hv, if_true, Option.or_assoc, Option.some_or]
      · simp only [hv, if_false, Option.or_none]
    · simp only [hsuper, if_false, and_false]

theorem Accepts.again (h : Accepts env n i vote) (rd : Readings) (other : VoteMessage) :
    Accepts env (n.applyVote env rd other).1 i vote := by
  rcases applyVote_eq env rd n other with ⟨engine, world, heq⟩
  rw [heq]
  refine ⟨h.kind, ?_, h.accepted⟩
  rw [handlerBody_withEngine]
  exact h.carried

theorem Ballots.accepts_again (h : Ballots env pid n ins votes) {old : VoteMessage}
    {j : Incoming} (hold : Accepts env n j old) : Accepts env (n.run env ins) j old := by
  induction h with
  | done n => exact hold
  | @vote n i vote ins votes haccepts _ _ _ ih =>
    refine ih ?_
    rw [haccepts.receive]
    exact hold.again i.readings vote

theorem Ballots.exists_accepts (h : Ballots env pid n ins votes) {old : VoteMessage}
    (hold : old ∈ votes) : old.proposalId = pid ∧ ∃ j, Accepts env (n.run env ins) j old := by
  induction h with
  | done n => exact absurd hold (by simp)
  | @vote n i vote ins votes haccepts hpid _ hrest ih =>
    rcases mem_cons.mp hold with rfl | hlater
    · refine ⟨hpid, i, hrest.accepts_again ?_⟩
      rw [haccepts.receive]
      exact haccepts.again i.readings old
    · exact ih hlater

theorem Ballots.concat (h : Ballots env pid n ins votes)
    (hopen : (n.run env ins).governanceEngine.OpenAt pid) (hpid : vote.proposalId = pid)
    (haccepts : Accepts env (n.run env ins) i vote) :
    Ballots env pid n (ins ++ [i]) (votes ++ [vote]) := by
  induction h with
  | done n => exact .vote haccepts hpid hopen (.done _)
  | vote hfirst hpid' hopen' _ ih => exact .vote hfirst hpid' hopen' (ih hopen haccepts)

end Ballots

/-- Votes on an open proposal come in, and come in again in another order or number.
    The record is the same if no supernode votes both ways. If the proposal is still
    open after the first run, that is also the only case in which every other order and
    repetition leaves the same record. -/
theorem vote_order_iff (env : NodeEnv) (pid : String) (n : Node) (ins : List Incoming)
    (votes : List VoteMessage) (hrun : Ballots env pid n ins votes) :
    (Steady n votes → ∀ ins' votes', Ballots env pid n ins' votes' →
      (∀ vote, vote ∈ votes' ↔ vote ∈ votes) → ∀ v,
        Governance.voteOf (n.run env ins').governanceEngine pid v
          = Governance.voteOf (n.run env ins).governanceEngine pid v) ∧
    ((n.run env ins).governanceEngine.OpenAt pid →
      (∀ ins' votes', Ballots env pid n ins' votes' →
        (∀ vote, vote ∈ votes' ↔ vote ∈ votes) → ∀ v,
          Governance.voteOf (n.run env ins').governanceEngine pid v
            = Governance.voteOf (n.run env ins).governanceEngine pid v) → Steady n votes) := by
  refine ⟨?_, ?_⟩
  · intro hsteady ins' votes' hrun' hsame v
    rw [hrun'.voteOf, hrun.voteOf]
    by_cases hsuper : v ∈ n.governanceEngine.supernodes
    · rw [if_pos hsuper, if_pos hsuper]
      congr 1
      -- Both lists hold a vote of this voter, or neither does.
      cases hlast : lastVote votes v with
      | some b =>
        rcases mem_of_lastVote hlast with ⟨vote, hvote, rfl, rfl⟩
        refine lastVote_of_steady ((hsame vote).mpr hvote) fun other hother hvoter => ?_
        exact hsteady other ((hsame other).mp hother) vote hvote hvoter (hvoter ▸ hsuper)
      | none =>
        rw [Option.eq_none_iff_forall_ne_some]
        intro b hb
        rcases mem_of_lastVote hb with ⟨vote, hvote, rfl, -⟩
        have hsome := lastVote_isSome ((hsame vote).mp hvote)
        rw [hlast] at hsome
        exact absurd hsome (by simp)
    · rw [if_neg hsuper, if_neg hsuper]
  · intro hopen hsame a ha b hb hvoter hsuper
    -- Whichever vote is sent once more at the end is on record then.
    have hreplayed : ∀ old ∈ votes, old.voter = a.voter →
        Governance.voteOf (n.run env ins).governanceEngine pid a.voter = some old.approve := by
      intro old hold hvoter
      rcases hrun.exists_accepts hold with ⟨hpid, j, haccepts⟩
      have hagain := hrun.concat hopen hpid haccepts
      rw [← hsame (ins ++ [j]) (votes ++ [old]) hagain (by simp [hold]) a.voter, hagain.voteOf,
        if_pos hsuper, lastVote_concat, if_pos hvoter, Option.some_or]
    have hboth := (hreplayed a ha rfl).symm.trans (hreplayed b hb hvoter.symm)
    exact Option.some.inj hboth

/-- The two votes of `sn1` on the open proposal: it approves, and later rejects. -/
def sn1Vote (approve : Bool) : VoteMessage :=
  { ballotVote "c24x" with approve := approve, timestamp := if approve then 10 else 20 }

/-- The request that brings one of them. -/
def sn1Ballot (approve : Bool) : Incoming where
  peer := "sn1"
  request :=
    { kind := "governance.vote"
      body := EssRequest.codec.serialize
        (.directRequest { body := VoteMessage.codec.serialize (sn1Vote approve) }) }
  readings := readingsAt 30

theorem sn1Ballot_accepts (approve : Bool) :
    Accepts nameEnv ballotNode (sn1Ballot approve) (sn1Vote approve) := by
  have hfits : VoteMessage.codec.Fits (sn1Vote approve) := by
    rcases ballotVote_fits (show (utf8 "c24x").length < 256 ^ 8 by decide) with
      ⟨hpid, hvoter, -, hnonce, -, hsig⟩
    exact ⟨hpid, hvoter, bool_fits approve, hnonce, u64_fits _, hsig⟩
  have hbody : (VoteMessage.codec.serialize (sn1Vote approve)).length < 256 ^ 8 := by
    cases approve <;> decide +kernel
  refine ⟨show RequestKind.ofText "governance.vote" = .governanceVote by decide, ?_,
    by cases approve <;> decide +kernel⟩
  rw [handlerBody_wrapped nameEnv ballotNode _ (sn1Ballot approve).request
    (DirectRequest.codec_fits_body hbody) rfl, Option.bind_some]
  exact VoteMessage.codec.deserialize_serialize hfits

theorem sn1Ballots (a b : Bool) :
    Ballots nameEnv ballotPid ballotNode [sn1Ballot a, sn1Ballot b] [sn1Vote a, sn1Vote b] ∧
      (ballotNode.run nameEnv [sn1Ballot a, sn1Ballot b]).governanceEngine.OpenAt ballotPid := by
  have hfirst : (ballotNode.receive nameEnv (sn1Ballot a)).governanceEngine
      = (castVote ballotEngine 30 30 30 ballotPid "sn1" a).1 :=
    (sn1Ballot_accepts a).governanceEngine
  have hagain : Accepts nameEnv (ballotNode.receive nameEnv (sn1Ballot a)) (sn1Ballot b)
      (sn1Vote b) := by
    rw [(sn1Ballot_accepts a).receive]
    exact (sn1Ballot_accepts b).again _ _
  have hsecond : (ballotNode.run nameEnv [sn1Ballot a, sn1Ballot b]).governanceEngine
      = (castVote (castVote ballotEngine 30 30 30 ballotPid "sn1" a).1 30 30 30 ballotPid "sn1"
          b).1 := by
    rw [run, foldl_cons, foldl_cons, foldl_nil, hagain.governanceEngine, hfirst]
    rfl
  refine ⟨.vote (sn1Ballot_accepts a) rfl (by decide +kernel) (.vote hagain rfl ?_ (.done _)), ?_⟩
  · rw [hfirst]
    cases a <;> decide +kernel
  · rw [hsecond]
    cases a <;> cases b <;> decide +kernel

/-- A supernode that votes the same twice leaves the same record as one that votes once. -/
theorem repeated_vote_same_record :
    Governance.voteOf (ballotNode.run nameEnv [sn1Ballot true, sn1Ballot true]).governanceEngine
        ballotPid "sn1"
      = Governance.voteOf (ballotNode.run nameEnv [sn1Ballot true]).governanceEngine
        ballotPid "sn1" := by
  have hsteady : Steady ballotNode [sn1Vote true] := by
    intro a ha b hb _ _
    rw [mem_singleton] at ha hb
    rw [ha, hb]
  have hone : Ballots nameEnv ballotPid ballotNode [sn1Ballot true] [sn1Vote true] :=
    .vote (sn1Ballot_accepts true) rfl (by decide +kernel) (.done _)
  exact (vote_order_iff nameEnv ballotPid ballotNode _ _ hone).1 hsteady _ _
    (sn1Ballots true true).1 (by simp) "sn1"

/-- The supernode approves and then rejects. Brought in the other order, or with the
    approval sent once more, its votes leave the approval on record. -/
theorem old_vote_restored :
    (sn1Vote true).timestamp < (sn1Vote false).timestamp ∧
      Ballots nameEnv ballotPid ballotNode [sn1Ballot true, sn1Ballot false]
        [sn1Vote true, sn1Vote false] ∧
      Governance.voteOf (ballotNode.run nameEnv [sn1Ballot true, sn1Ballot false]).governanceEngine
        ballotPid "sn1" = some false ∧
      Ballots nameEnv ballotPid ballotNode [sn1Ballot false, sn1Ballot true]
        [sn1Vote false, sn1Vote true] ∧
      Governance.voteOf (ballotNode.run nameEnv [sn1Ballot false, sn1Ballot true]).governanceEngine
        ballotPid "sn1" = some true ∧
      Ballots nameEnv ballotPid ballotNode [sn1Ballot true, sn1Ballot false, sn1Ballot true]
        [sn1Vote true, sn1Vote false, sn1Vote true] ∧
      Governance.voteOf (ballotNode.run nameEnv
          [sn1Ballot true, sn1Ballot false, sn1Ballot true]).governanceEngine
        ballotPid "sn1" = some true := by
  have hsuper : "sn1" ∈ ballotNode.governanceEngine.supernodes := by decide +kernel
  rcases sn1Ballots true false with ⟨hrun, hopen⟩
  have hreplay := hrun.concat hopen rfl (hrun.accepts_again (sn1Ballot_accepts true))
  refine ⟨by decide, hrun, ?_, (sn1Ballots false true).1, ?_, hreplay, ?_⟩
  · rw [hrun.voteOf, if_pos hsuper]
    rfl
  · rw [(sn1Ballots false true).1.voteOf, if_pos hsuper]
    rfl
  · exact (hreplay.voteOf "sn1").trans (if_pos hsuper)

end Node

end EssNode
