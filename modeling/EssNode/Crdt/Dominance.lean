import EssNode.Crdt.Causality

/-!
# Dominance of Clocks

The causal order compares clocks at every node, a missing entry counting as zero. It is
the order of functions, so it is irreflexive and transitive.

`dominates` decides it with one pass over the entries of the first clock. Nodes that have
an entry only in the second clock are not visited, so the answer is right exactly if such
nodes do not count or it is no (`dominates_causal_iff`). Two nodes that have each ticked
once and never met dominate each other.
-/

namespace EssNode

open Std.ExtTreeMap

namespace Crdt

namespace CrdtWorldState

/-- The pass over the entries of a clock, with the flag of whether one was greater. An
    entry that is less ends it. -/
def dominatesLoop (other : CrdtWorldState) : List (String × Nat) → Bool → Bool
  | [], atLeastOneGreater => atLeastOneGreater
  | (node, ourCount) :: entries, atLeastOneGreater =>
    let theirCount := other.vectorClock[node]?.getD 0
    if ourCount < theirCount then false
    else
      dominatesLoop other entries (if ourCount > theirCount then true else atLeastOneGreater)

/-- Whether a state is said to be causally after another. -/
def dominates (self other : CrdtWorldState) : Bool :=
  dominatesLoop other self.vectorClock.toList false

/-- An entry for every node at which the other clock counts. -/
def Covers (self other : CrdtWorldState) : Prop :=
  ∀ node, other.clockAt node ≠ 0 → node ∈ self.vectorClock

variable {a b c : CrdtWorldState} {node : String} {count : Nat}

theorem dominatesLoop_iff (b : CrdtWorldState) (entries : List (String × Nat)) (flag : Bool) :
    dominatesLoop b entries flag = true ↔
      (∀ e ∈ entries, b.clockAt e.1 ≤ e.2) ∧
        (flag = true ∨ ∃ e ∈ entries, b.clockAt e.1 < e.2) := by
  induction entries generalizing flag with
  | nil => simp [dominatesLoop]
  | cons e entries ih =>
    obtain ⟨node, ourCount⟩ := e
    have htheirs : b.vectorClock[node]?.getD 0 = b.clockAt node := rfl
    rw [dominatesLoop, htheirs]
    by_cases hless : ourCount < b.clockAt node
    · rw [if_pos hless]
      refine iff_of_false Bool.false_ne_true fun h => ?_
      exact absurd (h.1 (node, ourCount) (by simp)) (Nat.not_le.mpr hless)
    · rw [if_neg hless, ih]
      have hle : b.clockAt node ≤ ourCount := Nat.not_lt.mp hless
      by_cases hgreater : ourCount > b.clockAt node
      · simp [hgreater, hle]
      · simp [hgreater, hle]

theorem mem_toList_clock (a : CrdtWorldState) :
    (node, count) ∈ a.vectorClock.toList ↔ a.vectorClock[node]? = some count :=
  mem_toList_iff_getElem?_eq_some

theorem clockAt_of_some (hentry : a.vectorClock[node]? = some count) : a.clockAt node = count := by
  rw [clockAt, hentry, Option.getD_some]

theorem mem_of_clockAt_ne_zero (h : a.clockAt node ≠ 0) : node ∈ a.vectorClock := by
  by_contra hnone
  rw [clockAt, getElem?_eq_none hnone] at h
  exact h rfl

/-- What the pass decides: nothing less at the nodes it visits, and something greater. -/
theorem dominates_iff :
    a.dominates b = true ↔
      (∀ node ∈ a.vectorClock, b.clockAt node ≤ a.clockAt node) ∧
        ∃ node, b.clockAt node < a.clockAt node := by
  rw [dominates, dominatesLoop_iff]
  refine and_congr ⟨?_, ?_⟩ ?_
  · intro h node hnode
    have hentry := getElem?_eq_some_getElem hnode
    rw [clockAt_of_some hentry]
    exact h _ ((mem_toList_clock a).mpr hentry)
  · rintro h ⟨node, count⟩ he
    have hentry := (mem_toList_clock a).mp he
    rw [← clockAt_of_some hentry]
    exact h node (mem_iff_isSome_getElem?.mpr (by rw [hentry]; rfl))
  · rw [or_iff_right Bool.false_ne_true]
    constructor
    · rintro ⟨⟨node, count⟩, he, hless⟩
      refine ⟨node, ?_⟩
      rw [clockAt_of_some ((mem_toList_clock a).mp he)]
      exact hless
    · rintro ⟨node, hless⟩
      have hnode : node ∈ a.vectorClock := mem_of_clockAt_ne_zero (Nat.ne_zero_of_lt hless)
      have hentry := getElem?_eq_some_getElem hnode
      rw [clockAt_of_some hentry] at hless
      exact ⟨_, (mem_toList_clock a).mpr hentry, hless⟩

theorem dominates_of_lt (h : b.clockAt < a.clockAt) : a.dominates b = true := by
  obtain ⟨hle, hless⟩ := Pi.lt_def.mp h
  exact dominates_iff.mpr ⟨fun node _ => hle node, hless⟩

theorem dominates_iff_lt (hcovers : a.Covers b) :
    a.dominates b = true ↔ b.clockAt < a.clockAt := by
  refine ⟨fun h => ?_, dominates_of_lt⟩
  obtain ⟨hvisited, hless⟩ := dominates_iff.mp h
  refine Pi.lt_def.mpr ⟨fun node => ?_, hless⟩
  by_cases hzero : b.clockAt node = 0
  · rw [hzero]
    exact Nat.zero_le _
  · exact hvisited node (hcovers node hzero)

theorem covers_of_le (h : b.clockAt ≤ a.clockAt) : a.Covers b :=
  fun node hcounts => mem_of_clockAt_ne_zero (Nat.ne_zero_of_lt
    (Nat.lt_of_lt_of_le (Nat.pos_of_ne_zero hcounts) (h node)))

/-- Dominance is the causal order exactly if, where it says yes, the first clock has an
    entry for every node at which the other counts. Over clocks that cover each other it is
    asymmetric and transitive, and it says no for concurrent states. -/
theorem dominates_causal_iff (a b : CrdtWorldState) :
    ((a.dominates b = true ↔
        (∀ node, b.clockAt node ≤ a.clockAt node) ∧ ∃ node, b.clockAt node < a.clockAt node) ↔
      (a.dominates b = true → ∀ node, b.clockAt node ≠ 0 → node ∈ a.vectorClock)) ∧
    (a.Covers b → a.dominates b = true → b.dominates a = false) ∧
    (∀ c : CrdtWorldState, a.Covers b → b.Covers c →
      a.dominates b = true → b.dominates c = true → a.dominates c = true) ∧
    (a.Covers b → b.Covers a →
      (∃ node, b.clockAt node < a.clockAt node) → (∃ node, a.clockAt node < b.clockAt node) →
        a.dominates b = false ∧ b.dominates a = false) := by
  have hcausal : ((∀ node, b.clockAt node ≤ a.clockAt node) ∧
      ∃ node, b.clockAt node < a.clockAt node) ↔ b.clockAt < a.clockAt := Pi.lt_def.symm
  refine ⟨⟨fun hright hdominates => ?_, fun hcovers => ?_⟩, fun hcovers hdominates => ?_,
    fun c hcovers hcovers' hab hbc => ?_, fun hcovers hcovers' hmore hless => ⟨?_, ?_⟩⟩
  · exact covers_of_le (hright.mp hdominates).1
  · rw [hcausal]
    exact ⟨fun h => (dominates_iff_lt (hcovers h)).mp h, dominates_of_lt⟩
  · have hlt := (dominates_iff_lt hcovers).mp hdominates
    obtain ⟨hle, -⟩ := Pi.lt_def.mp hlt
    refine Bool.eq_false_iff.mpr fun hback => ?_
    obtain ⟨node, hless⟩ := (dominates_iff.mp hback).2
    exact absurd (hle node) (Nat.not_le.mpr hless)
  · have hlt := (dominates_iff_lt hcovers).mp hab
    have hlt' := (dominates_iff_lt hcovers').mp hbc
    exact dominates_of_lt (hlt'.trans hlt)
  · obtain ⟨node, hnode⟩ := hless
    refine Bool.eq_false_iff.mpr fun h => ?_
    have hlt := (dominates_iff_lt hcovers).mp h
    exact absurd (hlt.le node) (Nat.not_le.mpr hnode)
  · obtain ⟨node, hnode⟩ := hmore
    refine Bool.eq_false_iff.mpr fun h => ?_
    have hlt := (dominates_iff_lt hcovers').mp h
    exact absurd (hlt.le node) (Nat.not_le.mpr hnode)

def tickedOnce (nodeId : String) : CrdtWorldState := (new nodeId 0 0).tick

/-- Two nodes that have each ticked once dominate each other. -/
theorem strangers_dominate_each_other :
    (tickedOnce "node-a").dominates (tickedOnce "node-b") = true ∧
      (tickedOnce "node-b").dominates (tickedOnce "node-a") = true ∧
      (tickedOnce "node-a").dominates (tickedOnce "node-a") = false ∧
      (tickedOnce "node-a").clockAt "node-b" < (tickedOnce "node-b").clockAt "node-b" ∧
      (tickedOnce "node-b").clockAt "node-a" < (tickedOnce "node-a").clockAt "node-a" := by
  decide +kernel

end CrdtWorldState

end Crdt

end EssNode
