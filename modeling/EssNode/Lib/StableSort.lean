import Mathlib.Data.List.Destutter
import Mathlib.Data.Set.Function
import Mathlib.Order.Defs.LinearOrder

/-!
# Sorting by a Key

A list is made canonical by sorting its elements by a key and leaving out each one that equals its
neighbour. The sort is stable, so elements that share a key stay in the order they came in: the
first element with a key is the first one that came with it (`find?_sortDedup`).

The result is the same for every order of the list if the key tells its elements apart
(`sortDedup_perm`), and only then, since two elements that share a key can be swapped
(`eq_of_sortDedup_swap`). To do it twice is to do it once in any case (`sortDedup_sortDedup`).
-/

namespace EssNode

open List

namespace StableSort

variable {α κ : Type*} [DecidableEq α] [LinearOrder κ] {key : α → κ} {l l' : List α}

def sortDedup (key : α → κ) (l : List α) : List α :=
  (l.mergeSort fun a b => decide (key a ≤ key b)).destutter (· ≠ ·)

omit [DecidableEq α] in
theorem pairwise_sort (key : α → κ) (l : List α) :
    (l.mergeSort fun a b => decide (key a ≤ key b)).Pairwise (key · ≤ key ·) := by
  refine (pairwise_mergeSort (fun a b c hab hbc => ?_) (fun a b => ?_) l).imp of_decide_eq_true
  · exact decide_eq_true ((of_decide_eq_true hab).trans (of_decide_eq_true hbc))
  · simpa using le_total (key a) (key b)

theorem pairwise_sortDedup (key : α → κ) (l : List α) :
    (sortDedup key l).Pairwise (key · ≤ key ·) :=
  (pairwise_sort key l).sublist (destutter_sublist _ _)

theorem mem_of_mem_sortDedup {a : α} (h : a ∈ sortDedup key l) : a ∈ l :=
  (mergeSort_perm l _).mem_iff.mp ((destutter_sublist _ _).subset h)

/-- What is sorted already only loses neighbours. -/
theorem sortDedup_of_pairwise (h : l.Pairwise (key · ≤ key ·)) :
    sortDedup key l = l.destutter (· ≠ ·) := by
  rw [sortDedup, mergeSort_of_pairwise (h.imp decide_eq_true)]

theorem sortDedup_sortDedup (key : α → κ) (l : List α) :
    sortDedup key (sortDedup key l) = sortDedup key l := by
  rw [sortDedup_of_pairwise (pairwise_sortDedup key l), sortDedup, destutter_idem]

/-! ### Keys that tell elements apart -/

theorem sortDedup_perm (hkey : Set.InjOn key {a | a ∈ l}) (h : l.Perm l') :
    sortDedup key l' = sortDedup key l := by
  have hsorts : (l'.mergeSort fun a b => decide (key a ≤ key b)).Perm
      (l.mergeSort fun a b => decide (key a ≤ key b)) :=
    (mergeSort_perm l' _).trans (h.symm.trans (mergeSort_perm l _).symm)
  unfold sortDedup
  rw [hsorts.eq_of_pairwise (fun a b ha hb hab hba => ?_) (pairwise_sort key l')
    (pairwise_sort key l)]
  rw [mem_mergeSort] at ha hb
  exact hkey (h.mem_iff.mpr ha) hb (le_antisymm hab hba)

omit [DecidableEq α] in
/-- In a sorted list everything between two occurrences of an element has its key. -/
theorem nodup_of_isChain_ne (hkey : Set.InjOn key {a | a ∈ l})
    (hsorted : l.Pairwise (key · ≤ key ·)) (hchain : l.IsChain (· ≠ ·)) : l.Nodup := by
  induction l with
  | nil => exact nodup_nil
  | cons a rest ih =>
    obtain ⟨hfirst, hrest⟩ := pairwise_cons.mp hsorted
    refine nodup_cons.mpr ⟨fun hmem => ?_,
      ih (hkey.mono fun b hb => mem_cons_of_mem a hb) hrest hchain.tail⟩
    cases rest with
    | nil => exact not_mem_nil hmem
    | cons b others =>
      have hne : a ≠ b := (isChain_cons_cons.mp hchain).1
      rcases mem_cons.mp hmem with heq | hlater
      · exact hne heq
      · have hback := (pairwise_cons.mp hrest).1 a hlater
        exact hne (hkey (by simp) (by simp) (le_antisymm (hfirst b (by simp)) hback))

theorem nodup_sortDedup (hkey : Set.InjOn key {a | a ∈ l}) : (sortDedup key l).Nodup :=
  nodup_of_isChain_ne (hkey.mono fun _ h => mem_of_mem_sortDedup h) (pairwise_sortDedup key l)
    (isChain_destutter _ _)

/-! ### The first element with a key -/

theorem find?_destutter (p : α → Bool) (l : List α) :
    (l.destutter (· ≠ ·)).find? p = l.find? p := by
  cases l with
  | nil => rfl
  | cons a rest =>
    rw [destutter_cons']
    induction rest generalizing a with
    | nil => rfl
    | cons b rest ih =>
      by_cases h : a = b
      · rw [destutter'_cons_neg _ (by simpa using h), ih, h]
        simp only [find?_cons]
        split <;> rfl
      · rw [destutter'_cons_pos _ h, find?_cons, find?_cons, ih]

omit [DecidableEq α] in
/-- Elements that share a key keep their order. -/
theorem filter_sort (key : α → κ) (l : List α) (k : κ) :
    (l.mergeSort fun a b => decide (key a ≤ key b)).filter (key · = k) = l.filter (key · = k) := by
  have hle : (l.filter (key · = k)).Pairwise fun a b => decide (key a ≤ key b) = true := by
    refine pairwise_of_forall_mem_list fun a ha b hb => ?_
    simp only [mem_filter, decide_eq_true_eq] at ha hb ⊢
    rw [ha.2, hb.2]
  have hsub := (sublist_mergeSort (fun a b c hab hbc => by
    simp only [decide_eq_true_eq] at *; exact hab.trans hbc)
    (fun a b => by simpa using le_total (key a) (key b)) hle filter_sublist).filter (key · = k)
  rw [filter_filter] at hsub
  simp only [Bool.and_self] at hsub
  exact (hsub.eq_of_length ((mergeSort_perm l _).filter _).length_eq.symm).symm

theorem find?_sortDedup (key : α → κ) (l : List α) (k : κ) :
    (sortDedup key l).find? (key · = k) = l.find? (key · = k) := by
  rw [sortDedup, find?_destutter, ← head?_filter, filter_sort, head?_filter]

theorem eq_of_sortDedup_swap {a b : α} (hkey : key a = key b)
    (h : sortDedup key (a :: b :: l) = sortDedup key (b :: a :: l)) : a = b := by
  have hfirst := congrArg (find? (key · = key b)) h
  rw [find?_sortDedup, find?_sortDedup, find?_cons_of_pos (by simpa using hkey),
    find?_cons_of_pos (by simp)] at hfirst
  exact Option.some.inj hfirst

end StableSort

end EssNode
