import EssNode.Crdt.Primitives

/-!
# Totals that Overflow

When the total of a counter goes up, or fails to.

A slot is a 64-bit word, and a state that comes from the network may have any words in its
slots. The sum of the slots need not be a word. Where it is not, the addition panics in a
debug build and wraps in a release build, and then the total is less than it was.
`GCounter.total` and `GCounter.increment` are those of the release build; here are the ones of
the debug build, in which an addition that does not fit has no result. As long as there is a
result, the two agree.

The sum of the slots as a natural number never goes down. So a total goes up exactly as long
as that sum is a word (`total_grows_iff`).
-/

namespace EssNode

open Finset Std.ExtTreeMap

namespace Crdt

/-- Add two words. There is no result if the sum is not a word. -/
def checkedAdd (a b : Nat) : Option Nat := if a + b < 2 ^ 64 then some (a + b) else none

theorem checkedAdd_eq_some_iff {a b c : Nat} :
    checkedAdd a b = some c ↔ a + b < 2 ^ 64 ∧ a + b = c := by
  unfold checkedAdd
  by_cases hfits : a + b < 2 ^ 64
  · rw [if_pos hfits, Option.some.injEq]
    exact ⟨fun h => ⟨hfits, h⟩, fun h => h.2⟩
  · rw [if_neg hfits]
    exact ⟨nofun, fun h => absurd h.1 hfits⟩

namespace GCounter

def checkedIncrement (self : GCounter) (replica : String) (delta : Nat) : Option GCounter :=
  (checkedAdd (self.slot replica) delta).map fun value =>
    ⟨self.counters.insert replica value⟩

def checkedTotal (self : GCounter) : Option Nat :=
  self.counters.toList.foldlM (fun acc e => checkedAdd acc e.2) 0

def slotSum (self : GCounter) : Nat := (self.counters.toList.map Prod.snd).sum

variable (self other : GCounter) {t : Nat} {replica : String} {delta : Nat} {c : GCounter}

/-- Adding up words fails exactly if the sum is not a word: on the way to it the sums are
    smaller. -/
theorem foldlM_checkedAdd_iff (l : List (String × Nat)) {acc t : Nat} (hacc : acc < 2 ^ 64) :
    l.foldlM (fun acc e => checkedAdd acc e.2) acc = some t ↔
      acc + (l.map Prod.snd).sum < 2 ^ 64 ∧ acc + (l.map Prod.snd).sum = t := by
  induction l generalizing acc with
  | nil =>
    rw [List.foldlM_nil, List.map_nil, List.sum_nil, Nat.add_zero]
    exact ⟨fun h => ⟨hacc, Option.some.inj h⟩, fun h => congrArg some h.2⟩
  | cons e l ih =>
    rw [List.foldlM_cons, List.map_cons, List.sum_cons, ← Nat.add_assoc]
    by_cases hfits : acc + e.2 < 2 ^ 64
    · rw [checkedAdd_eq_some_iff.mpr ⟨hfits, rfl⟩]
      exact ih hfits
    · have hnone : checkedAdd acc e.2 = none := if_neg hfits
      rw [hnone]
      exact ⟨nofun, fun h => by omega⟩

theorem checkedTotal_eq_some_iff :
    self.checkedTotal = some t ↔ self.slotSum < 2 ^ 64 ∧ self.slotSum = t := by
  unfold checkedTotal slotSum
  rw [foldlM_checkedAdd_iff _ (by decide), Nat.zero_add]

theorem slotSum_eq (names : Finset String) (hnames : ∀ name, name ∈ self.counters → name ∈ names) :
    self.slotSum = ∑ name ∈ names, self.slot name :=
  FinMap.sum_values self.counters names hnames

theorem exists_names : ∃ names : Finset String,
    (∀ name, name ∈ self.counters → name ∈ names) ∧
      ∀ name, name ∈ other.counters → name ∈ names := by
  refine ⟨self.counters.keys.toFinset ∪ other.counters.keys.toFinset, fun name h => ?_,
    fun name h => ?_⟩
  · exact mem_union_left _ (List.mem_toFinset.mpr (mem_keys.mpr h))
  · exact mem_union_right _ (List.mem_toFinset.mpr (mem_keys.mpr h))

theorem total_eq_mod : self.total = self.slotSum % 2 ^ 64 := by
  have hmod := foldl_add_mod self.counters.toList 0
  rw [Nat.zero_add] at hmod
  rw [total, foldl_eq_foldl_toList, slotSum, ← hmod]
  -- The loop ends with a word, whatever it started from.
  cases hlist : self.counters.toList using List.reverseRecOn with
  | nil => rfl
  | append_singleton l e =>
    rw [List.foldl_append, List.foldl_cons, List.foldl_nil, Nat.mod_mod]

theorem total_of_checkedTotal (h : self.checkedTotal = some t) : self.total = t := by
  obtain ⟨hfits, rfl⟩ := self.checkedTotal_eq_some_iff.mp h
  rw [total_eq_mod, Nat.mod_eq_of_lt hfits]

theorem increment_of_checkedIncrement (h : self.checkedIncrement replica delta = some c) :
    self.increment replica delta = c := by
  obtain ⟨value, hadd, rfl⟩ := Option.map_eq_some_iff.mp h
  obtain ⟨hfits, rfl⟩ := checkedAdd_eq_some_iff.mp hadd
  refine congrArg GCounter.mk (ext_getElem? fun name => ?_)
  rw [FinMap.find_alter, FinMap.find_insert]
  by_cases hname : replica = name
  · rw [if_pos hname, if_pos hname, ← hname]
    exact congrArg some (Nat.mod_eq_of_lt hfits)
  · rw [if_neg hname, if_neg hname]

theorem slotSum_le_merge : self.slotSum ≤ (self.merge other).slotSum := by
  obtain ⟨names, hself, hother⟩ := self.exists_names other
  have hmerge : ∀ name, name ∈ (self.merge other).counters → name ∈ names := by
    intro name hname
    rcases self.mem_merge other name hname with h | h
    · exact hself name h
    · exact hother name h
  rw [self.slotSum_eq names hself, (self.merge other).slotSum_eq names hmerge]
  refine sum_le_sum fun name _ => ?_
  rw [self.slot_merge]
  exact le_max_left _ _

theorem slotSum_insert (replica : String) (value : Nat) :
    (⟨self.counters.insert replica value⟩ : GCounter).slotSum + self.slot replica
      = self.slotSum + value := by
  obtain ⟨names, hnames, -⟩ := self.exists_names self
  have hwritten : ∀ name, name ∈ self.counters.insert replica value →
      name ∈ insert replica names := by
    intro name hname
    rcases mem_insert.mp hname with h | h
    · rw [Std.LawfulEqCmp.compare_eq_iff_eq] at h
      rw [← h]
      exact mem_insert_self _ _
    · exact mem_insert_of_mem (hnames name h)
  have hslot : ∀ name, (⟨self.counters.insert replica value⟩ : GCounter).slot name
      = if replica = name then value else self.slot name := by
    intro name
    rw [slot, FinMap.find_insert]
    by_cases h : replica = name
    · rw [if_pos h, if_pos h, Option.getD_some]
    · rw [if_neg h, if_neg h]
      rfl
  have hwas := self.slotSum_eq (insert replica names) fun name h =>
    mem_insert_of_mem (hnames name h)
  have hnow := slotSum_eq ⟨self.counters.insert replica value⟩ (insert replica names) hwritten
  rw [hwas, hnow, ← sum_erase_add _ _ (mem_insert_self replica names),
    ← sum_erase_add _ self.slot (mem_insert_self replica names)]
  -- The other slots are the same.
  have hrest : ∑ name ∈ (insert replica names).erase replica,
      (⟨self.counters.insert replica value⟩ : GCounter).slot name
        = ∑ name ∈ (insert replica names).erase replica, self.slot name := by
    refine sum_congr rfl fun name hname => ?_
    rw [hslot, if_neg (ne_of_mem_erase hname).symm]
  rw [hrest, hslot, if_pos rfl]
  omega

theorem slotSum_increment (h : self.checkedIncrement replica delta = some c) :
    c.slotSum = self.slotSum + delta := by
  obtain ⟨value, hadd, rfl⟩ := Option.map_eq_some_iff.mp h
  obtain ⟨-, rfl⟩ := checkedAdd_eq_some_iff.mp hadd
  have hsum := self.slotSum_insert replica (self.slot replica + delta)
  omega

theorem slot_le_slotSum (name : String) : self.slot name ≤ self.slotSum := by
  obtain ⟨names, hnames, -⟩ := self.exists_names self
  rw [self.slotSum_eq (insert name names) fun key h => mem_insert_of_mem (hnames key h)]
  exact single_le_sum (fun _ _ => Nat.zero_le _) (mem_insert_self name names)

theorem total_le_slotSum : self.total ≤ self.slotSum := by
  rw [total_eq_mod]
  exact Nat.mod_le _ _

/-- After merging another counter, there is a total and it is not less than before, exactly
    if the slots of both together add up to a word. After an increment, exactly if the slots
    and what is added do. -/
theorem total_grows_iff :
    (∀ other : GCounter, (∃ t, (self.merge other).checkedTotal = some t ∧ self.total ≤ t) ↔
      (self.merge other).slotSum < 2 ^ 64) ∧
    ∀ (replica : String) (delta : Nat),
      (∃ c t, self.checkedIncrement replica delta = some c ∧ c.checkedTotal = some t ∧
          self.total ≤ t) ↔
        self.slotSum + delta < 2 ^ 64 := by
  have htotal := self.total_le_slotSum
  constructor
  · intro other
    constructor
    · rintro ⟨t, ht, -⟩
      exact ((self.merge other).checkedTotal_eq_some_iff.mp ht).1
    · intro hfits
      exact ⟨_, (self.merge other).checkedTotal_eq_some_iff.mpr ⟨hfits, rfl⟩,
        htotal.trans (self.slotSum_le_merge other)⟩
  · intro replica delta
    constructor
    · rintro ⟨c, t, hc, ht, -⟩
      rw [← self.slotSum_increment hc]
      exact (c.checkedTotal_eq_some_iff.mp ht).1
    · intro hfits
      -- A slot is no more than the sum, so it has room if the sum has.
      have hslot := self.slot_le_slotSum replica
      have hadd : checkedAdd (self.slot replica) delta = some (self.slot replica + delta) :=
        checkedAdd_eq_some_iff.mpr ⟨by omega, rfl⟩
      have hc : self.checkedIncrement replica delta
          = some ⟨self.counters.insert replica (self.slot replica + delta)⟩ := by
        rw [checkedIncrement, hadd, Option.map_some]
      have hsum := self.slotSum_increment hc
      refine ⟨_, _, hc, (checkedTotal_eq_some_iff _).mpr ⟨?_, rfl⟩, ?_⟩
      · rw [hsum]
        exact hfits
      · omega

/-- Slots that are words each, and a total of none: merging a counter of one takes the largest
    total there is to nothing, and so does an increment of one in another slot. -/
theorem total_wraps :
    let full : GCounter := ⟨(∅ : FinMap String Nat).insert "a" (2 ^ 64 - 1)⟩
    let one : GCounter := ⟨(∅ : FinMap String Nat).insert "b" 1⟩
    full.total = 2 ^ 64 - 1 ∧ (full.merge one).total = 0 ∧ (full.merge one).checkedTotal = none ∧
      (full.increment "b" 1).total = 0 ∧
      ((full.checkedIncrement "b" 1).bind GCounter.checkedTotal) = none := by
  decide +kernel

end GCounter

end Crdt

end EssNode
