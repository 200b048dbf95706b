import EssNode.Crdt.WorldState
import Mathlib.Data.Prod.Lex

/-!
# Merging Twice and Merging Forward

A state that arrives twice must not do more than a state that arrives once, and
taking in a state must never undo what is known.

Both hold of any two states, whether or not a run reaches them, so a state read
from the network needs no checks for them. The audit chain is the one exception:
every merge appends a link to it.

The asset set is the delicate component. Its merge first unites the tags and then
drops the items without a live one. An item that is dropped stays dropped: the
tags the other side would bring again are among those found dead
(`ORSet.merge_again`).
-/

namespace EssNode

open Std.ExtTreeMap

namespace Crdt

open CrdtWorldState

section Components

variable {T : Type*} (a b : LwwRegister T)

/-- The time of a register's write and the name of its writer, in the order in
    which writes win. -/
def LwwRegister.stamp (self : LwwRegister T) : Nat ×ₗ String := toLex (self.ts, self.nodeId)

theorem LwwRegister.merge_eq : a.merge b = if a.stamp < b.stamp then b else a := by
  unfold LwwRegister.merge LwwRegister.stamp
  refine if_congr ?_ rfl rfl
  rw [Prod.Lex.toLex_lt_toLex]
  exact or_congr Iff.rfl (and_congr eq_comm Iff.rfl)

theorem LwwRegister.merge_again : (a.merge b).merge b = a.merge b := by
  rw [merge_eq a b]
  by_cases h : a.stamp < b.stamp
  · rw [if_pos h, merge_eq, if_neg (lt_irrefl _)]
  · rw [if_neg h, merge_eq, if_neg h]

theorem LwwRegister.stamp_le_merge : a.stamp ≤ (a.merge b).stamp := by
  rw [merge_eq]
  by_cases h : a.stamp < b.stamp
  · rw [if_pos h]
    exact le_of_lt h
  · rw [if_neg h]

variable [Ord T] [Std.TransOrd T] [Std.LawfulEqOrd T] [DecidableEq T]

theorem GSet.merge_again (a b : GSet T) : (a.merge b).merge b = a.merge b := by
  refine congrArg GSet.mk (ext_getElem? (fun x => ?_))
  change ((a.merge b).merge b).items[x]? = (a.merge b).items[x]?
  rw [find_merge, find_merge]
  cases a.items[x]? with
  | none => rw [Option.none_or, Option.or_self]
  | some t => rw [Option.some_or, Option.some_or]

theorem GSet.below_merge (a b : GSet T) : FinMap.Below (· = ·) a.items (a.merge b).items := by
  intro x t ht
  rw [find_merge, ht]
  exact ⟨t, rfl, rfl⟩

/-- What the first merge drops the second cannot bring back. -/
theorem ORSet.merge_again (a b : ORSet T) : (a.merge b).merge b = a.merge b := by
  have hremoved : ((a.merge b).merge b).removed = (a.merge b).removed := by
    rw [removed_merge, removed_merge, Finset.union_assoc, Finset.union_self]
  have hentries : ((a.merge b).merge b).entries = (a.merge b).entries := by
    refine ext_getElem? (fun x => ?_)
    rw [find_merge (a.merge b), ← removed_merge (a.merge b), hremoved, removed_merge]
    have hfind := find_merge a b x
    by_cases hlive : hasLive (a.removed ∪ b.removed) (a.tags x ∪ b.tags x) = true
    · -- Kept: the tags of the other side are in already.
      rw [if_pos hlive] at hfind
      have htags : (a.merge b).tags x = a.tags x ∪ b.tags x := by
        rw [tags, hfind, Option.getD_some]
      rw [htags, Finset.union_assoc, Finset.union_self, if_pos hlive, hfind]
    · -- Dropped: every tag of the other side is dead.
      rw [if_neg hlive] at hfind
      have htags : (a.merge b).tags x = ∅ := by
        rw [tags, hfind, Option.getD_none]
      have hdead : ¬ hasLive (a.removed ∪ b.removed) (b.tags x) = true := by
        rw [hasLive_iff] at hlive ⊢
        rintro ⟨tag, hmem, htag⟩
        exact hlive ⟨tag, Finset.mem_union_right _ hmem, htag⟩
      rw [htags, Finset.empty_union, if_neg hdead, hfind]
  calc (a.merge b).merge b
      = ⟨((a.merge b).merge b).entries, ((a.merge b).merge b).removed⟩ := rfl
    _ = ⟨(a.merge b).entries, (a.merge b).removed⟩ := by rw [hentries, hremoved]
    _ = a.merge b := rfl

end Components

variable (env : CrdtEnv) (now : Nat) (a b : PeerRegistry)

theorem PeerRegistry.merge_again : (a.merge b).merge b = a.merge b := by
  refine congrArg PeerRegistry.mk (ext_getElem? (fun p => ?_))
  change ((a.merge b).merge b).entries[p]? = (a.merge b).entries[p]?
  rw [find_merge, find_merge]
  cases b.entries[p]? with
  | none => rfl
  | some e =>
    -- What is kept the first time is at least as new as what is offered again.
    rcases newer_spec e a.entries[p]? with ⟨kept, hkept, -, hoffered, -⟩
    dsimp only
    rw [hkept, newer, if_pos hoffered]

theorem PeerRegistry.below_merge :
    FinMap.Below (fun e f => e.2 ≤ f.2) a.entries (a.merge b).entries :=
  fun _ _ he => find_merge_mono (Or.inl he)

/-- Equal but for the audit chain. -/
def SameButDag (a b : CrdtWorldState) : Prop := a = { b with dag := a.dag }

theorem merge_again (now' : Nat) (s o : CrdtWorldState) :
    SameButDag (merge env now' (merge env now s o) o) (merge env now s o) := by
  unfold SameButDag merge record
  dsimp only
  rw [FinMap.mergeMax_again, PeerRegistry.merge_again, GSet.merge_again,
    LwwRegister.merge_again, LwwRegister.merge_again, ORSet.merge_again]
  have hcounter : (s.financeCounter.merge o.financeCounter).merge o.financeCounter
      = s.financeCounter.merge o.financeCounter :=
    congrArg GCounter.mk (FinMap.mergeMax_again _ _)
  rw [hcounter]

/-- No component has moved backwards: clock entries and counter slots have not
    shrunk, registry entries and registers are not older, and no known peer or
    removed tag is gone. -/
structure Advances (a b : CrdtWorldState) : Prop where
  vectorClock : FinMap.Below (· ≤ ·) a.vectorClock b.vectorClock
  peers : FinMap.Below (fun e f => e.2 ≤ f.2) a.peers.entries b.peers.entries
  knownPeerIds : FinMap.Below (· = ·) a.knownPeerIds.items b.knownPeerIds.items
  networkStatus : a.networkStatus.stamp ≤ b.networkStatus.stamp
  ghostState : a.ghostState.stamp ≤ b.ghostState.stamp
  financeCounter : FinMap.Below (· ≤ ·) a.financeCounter.counters b.financeCounter.counters
  removed : a.assetOwnership.removed ⊆ b.assetOwnership.removed

theorem advances_merge (s o : CrdtWorldState) :
    Advances s (merge env now s o) where
  vectorClock := FinMap.below_mergeMax _ _
  peers := PeerRegistry.below_merge _ _
  knownPeerIds := GSet.below_merge _ _
  networkStatus := LwwRegister.stamp_le_merge _ _
  ghostState := LwwRegister.stamp_le_merge _ _
  financeCounter := FinMap.below_mergeMax _ _
  removed := Finset.subset_union_left

/-- For any two states: merging twice is merging once, the audit chain apart, and
    a merge moves no component backwards. -/
theorem merge_idempotent_monotone (env : CrdtEnv) (now now' : Nat) (s o : CrdtWorldState) :
    SameButDag (merge env now' (merge env now s o) o) (merge env now s o) ∧
      Advances s (merge env now s o) :=
  ⟨merge_again env now now' s o, advances_merge env now s o⟩

end Crdt

end EssNode
