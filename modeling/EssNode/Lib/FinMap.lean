import Mathlib.Algebra.GroupWithZero.Nat
import Mathlib.Algebra.Order.BigOperators.Group.Finset
import Mathlib.Data.String.Basic

/-!
# Finite Maps

Maps with finitely many keys, and the ways programs fold over them.

A map is determined by its lookups, so every operation is described by what a
lookup in its result gives. The library states those facts with the ordering's
comparison; over keys whose comparison decides equality they are restated here
with equality, which is how models read keys.

Two folds recur. Merging one map into another visits the other's entries and
updates the entry at each key, and since keys are distinct the visits do not
interfere (`find_foldl_alter`). Counting or summing the values visits each key
once, so it is bounded by, or equal to, the same quantity over any finite set
that holds the keys (`count_le_card`, `sum_values`).
-/

namespace EssNode

open List
open Std.ExtTreeMap (ext_getElem? foldl_eq_foldl_toList map_fst_toList_eq_keys size_erase)
open Option (getD_none getD_some)

/-- Finite maps over an ordered key type. -/
abbrev FinMap (K V : Type*) [Ord K] := Std.ExtTreeMap K V compare

namespace FinMap

section Entries

variable {K V : Type*} [Ord K] [Std.TransOrd K] {m : FinMap K V} {k : K}

theorem nodup_fst_toList (m : FinMap K V) : (m.toList.map Prod.fst).Nodup := by
  rw [map_fst_toList_eq_keys]
  exact Std.ExtTreeMap.nodup_keys

theorem mem_toList [Std.LawfulEqOrd K] (m : FinMap K V) (k : K) (v : V) :
    (k, v) ∈ m.toList ↔ m[k]? = some v :=
  Std.ExtTreeMap.mem_toList_iff_getElem?_eq_some

/-- How many entries have a value satisfying the test. -/
def count (p : V → Bool) (m : FinMap K V) : Nat :=
  (m.toList.filter (fun e => p e.2)).length

theorem count_add_count (p : V → Bool) (m : FinMap K V) :
    count p m + count (fun v => !p v) m = m.size := by
  rw [count, count, ← Std.ExtTreeMap.length_toList]
  exact (length_eq_length_filter_add (fun e : K × V => p e.2)).symm

theorem size_le_of_find {m' : FinMap K V}
    (h : ∀ (k : K) (v : V), m[k]? = some v → m'[k]? = some v) : m.size ≤ m'.size := by
  have hkeys : ∀ k ∈ m, k ∈ m' := by
    intro k hk
    rw [Std.ExtTreeMap.mem_iff_isSome_getElem?] at hk ⊢
    obtain ⟨v, hv⟩ := Option.isSome_iff_exists.mp hk
    rw [h k v hv, Option.isSome_some]
  calc m.size = (m ∩ m').size := (Std.ExtTreeMap.size_inter_eq_size_left hkeys).symm
    _ ≤ m'.size := Std.ExtTreeMap.size_inter_le_size_right

theorem size_ne_zero_of_contains (h : m.contains k = true) : m.size ≠ 0 := by
  intro hzero
  rw [Std.ExtTreeMap.eq_empty_iff_size_eq_zero.mpr hzero, Std.ExtTreeMap.contains_empty] at h
  exact Bool.false_ne_true h

theorem size_erase_lt {v : V} (h : m[k]? = some v) : (m.erase k).size < m.size := by
  have hmem : m.contains k = true := by
    rw [Std.ExtTreeMap.contains_eq_isSome_getElem?, h, Option.isSome_some]
  have hpos := size_ne_zero_of_contains hmem
  rw [size_erase, if_pos hmem]
  omega

theorem size_insert_eq (m : FinMap K V) (k : K) (v : V) :
    (m.insert k v).size = (m.erase k).size + 1 := by
  rw [Std.ExtTreeMap.size_insert, size_erase]
  by_cases h : m.contains k = true
  · have hpos := size_ne_zero_of_contains h
    rw [if_pos h, if_pos h]
    omega
  · rw [if_neg h, if_neg h]

end Entries

section Lookup

variable {K V W : Type*} [Ord K] [Std.TransOrd K] [Std.LawfulEqOrd K] [DecidableEq K]
  (m : FinMap K V) (k a : K) (v : V)

theorem find_insert : (m.insert k v)[a]? = if k = a then some v else m[a]? := by
  rw [Std.ExtTreeMap.getElem?_insert]
  simp only [Std.LawfulEqCmp.compare_eq_iff_eq]

theorem find_insert_eq_some {m : FinMap K V} {k a : K} {v w : V} :
    (m.insert k v)[a]? = some w ↔ k = a ∧ v = w ∨ k ≠ a ∧ m[a]? = some w := by
  rw [find_insert]
  by_cases hka : k = a <;> simp [hka]

theorem find_erase : (m.erase k)[a]? = if k = a then none else m[a]? := by
  rw [Std.ExtTreeMap.getElem?_erase]
  simp only [Std.LawfulEqCmp.compare_eq_iff_eq]

theorem find_alter (f : Option V → Option V) :
    (m.alter k f)[a]? = if k = a then f m[a]? else m[a]? := by
  rw [Std.ExtTreeMap.getElem?_alter]
  simp only [Std.LawfulEqCmp.compare_eq_iff_eq]
  by_cases hka : k = a
  · rw [if_pos hka, if_pos hka, hka]
  · rw [if_neg hka, if_neg hka]

theorem find_modify (f : V → V) : (m.modify k f)[a]? = if k = a then (m[a]?).map f else m[a]? := by
  rw [Std.ExtTreeMap.getElem?_modify]
  simp only [Std.LawfulEqCmp.compare_eq_iff_eq]
  by_cases hka : k = a
  · rw [if_pos hka, if_pos hka, hka]
  · rw [if_neg hka, if_neg hka]

theorem insert_eq_self_iff : m.insert k v = m ↔ m[k]? = some v := by
  constructor
  · intro h
    rw [← h, find_insert, if_pos rfl]
  · intro h
    refine ext_getElem? (fun a => ?_)
    rw [find_insert]
    by_cases hka : k = a
    · rw [if_pos hka, ← hka, h]
    · rw [if_neg hka]

theorem erase_of_none {m : FinMap K V} {k : K} (h : m[k]? = none) : m.erase k = m := by
  refine ext_getElem? (fun a => ?_)
  rw [find_erase]
  by_cases hka : k = a
  · rw [if_pos hka, ← hka, h]
  · rw [if_neg hka]

theorem erase_insert : (m.insert k v).erase k = m.erase k := by
  refine ext_getElem? (fun a => ?_)
  rw [find_erase, find_erase, find_insert]
  by_cases hka : k = a
  · rw [if_pos hka, if_pos hka]
  · rw [if_neg hka, if_neg hka, if_neg hka]

theorem find_foldl_erase (ks : List K) (m : FinMap K V) (a : K) :
    (ks.foldl (fun acc k => acc.erase k) m)[a]? = if a ∈ ks then none else m[a]? := by
  induction ks generalizing m with
  | nil => simp
  | cons k ks ih =>
    rw [foldl_cons, ih, find_erase]
    by_cases hka : k = a
    · simp [hka]
    · simp [hka, Ne.symm hka]

theorem find_foldl_alter_list (es : List (K × W)) (hes : (es.map Prod.fst).Nodup)
    (f : W → Option V → Option V) (m : FinMap K V) (a : K) :
    (es.foldl (fun acc e => acc.alter e.1 (f e.2)) m)[a]?
      = match es.find? (fun e => decide (e.1 = a)) with
        | some e => f e.2 m[a]?
        | none => m[a]? := by
  induction es generalizing m with
  | nil => rfl
  | cons e es ih =>
    rw [map_cons, nodup_cons] at hes
    rw [foldl_cons, ih hes.2, find_alter, find?_cons]
    by_cases hea : e.1 = a
    · -- The key is this entry's, so no later entry names it again.
      have hnone : es.find? (fun e => decide (e.1 = a)) = none := by
        refine find?_eq_none.mpr (fun e' he' h => hes.1 ?_)
        rw [decide_eq_true_eq] at h
        exact mem_map.mpr ⟨e', he', h.trans hea.symm⟩
      rw [hnone, if_pos hea, decide_eq_true hea]
    · rw [if_neg hea, decide_eq_false hea]

theorem find_foldl_alter (o : FinMap K W) (f : W → Option V → Option V) (m : FinMap K V) (a : K) :
    (o.foldl (fun acc k w => acc.alter k (f w)) m)[a]?
      = match o[a]? with
        | some w => f w m[a]?
        | none => m[a]? := by
  rw [foldl_eq_foldl_toList,
    find_foldl_alter_list o.toList (nodup_fst_toList o) f m a]
  cases hfind : o.toList.find? (fun e => decide (e.1 = a)) with
  | none =>
    -- No entry names the key, so the other map does not have it.
    have hnone : o[a]? = none := by
      cases hoa : o[a]? with
      | none => rfl
      | some w =>
        have h := find?_eq_none.mp hfind (a, w) ((mem_toList o a w).mpr hoa)
        exact absurd (decide_eq_true rfl) h
    rw [hnone]
  | some e =>
    have hkey := find?_some hfind
    rw [decide_eq_true_eq] at hkey
    have hmem : (e.1, e.2) ∈ o.toList := mem_of_find?_eq_some hfind
    rw [mem_toList, hkey] at hmem
    rw [hmem]

theorem find_foldl_insert (o m : FinMap K V) (a : K) :
    (o.toList.foldl (fun acc e => acc.insert e.1 e.2) m)[a]? = (o[a]?).or m[a]? := by
  have halter : ∀ (acc : FinMap K V) (k : K) (v : V),
      acc.insert k v = acc.alter k fun _ => some v := by
    intro acc k v
    refine ext_getElem? fun b => ?_
    rw [find_insert, find_alter]
  have hfold := find_foldl_alter o (fun v _ => some v) m a
  rw [foldl_eq_foldl_toList] at hfold
  simp only [halter, hfold]
  cases o[a]? <;> rfl

/-- Take the larger value at every key of another map, absent values reading
    as zero. -/
def mergeMax (m o : FinMap K Nat) : FinMap K Nat :=
  o.foldl (fun acc k v => acc.alter k (fun own => some (max (own.getD 0) v))) m

theorem find_mergeMax (m o : FinMap K Nat) (a : K) :
    (mergeMax m o)[a]?
      = match o[a]? with
        | some v => some (max ((m[a]?).getD 0) v)
        | none => m[a]? := by
  rw [mergeMax, find_foldl_alter]
  cases o[a]? <;> rfl

theorem getD_mergeMax (m o : FinMap K Nat) (a : K) :
    ((mergeMax m o)[a]?).getD 0 = max ((m[a]?).getD 0) ((o[a]?).getD 0) := by
  rw [find_mergeMax]
  cases o[a]? with
  | none => rw [getD_none, Nat.max_zero]
  | some v => rw [getD_some, getD_some]

theorem mergeMax_comm (m o : FinMap K Nat) : mergeMax m o = mergeMax o m := by
  refine ext_getElem? (fun a => ?_)
  rw [find_mergeMax, find_mergeMax]
  cases m[a]? with
  | none =>
    cases o[a]? with
    | none => rfl
    | some y => simp only [getD_none, Nat.zero_max]
  | some x =>
    cases o[a]? with
    | none => simp only [getD_none, Nat.zero_max]
    | some y => simp only [getD_some, Nat.max_comm]

theorem mergeMax_absorb (m o : FinMap K Nat) : mergeMax o (mergeMax m o) = mergeMax o m := by
  refine ext_getElem? (fun a => ?_)
  rw [find_mergeMax, find_mergeMax, find_mergeMax]
  cases m[a]? with
  | none =>
    cases o[a]? with
    | none => rfl
    | some y => simp only [getD_none, getD_some, Nat.zero_max, Nat.max_self]
  | some x =>
    cases o[a]? with
    | none => rfl
    | some y =>
      simp only [getD_some, Option.some.injEq]
      omega

theorem mergeMax_again (m o : FinMap K Nat) : mergeMax (mergeMax m o) o = mergeMax m o := by
  refine ext_getElem? (fun a => ?_)
  rw [find_mergeMax, find_mergeMax]
  cases o[a]? with
  | none => rfl
  | some y => simp only [getD_some, Nat.max_assoc, Nat.max_self]

end Lookup

section Below

variable {K V : Type*} [Ord K] [Std.TransOrd K]

/-- Every key keeps a value, and a value only moves along the relation. -/
def Below (r : V → V → Prop) (m o : FinMap K V) : Prop :=
  ∀ (k : K) (v : V), m[k]? = some v → ∃ w, o[k]? = some w ∧ r v w

theorem below_mergeMax [Std.LawfulEqOrd K] [DecidableEq K] (m o : FinMap K Nat) :
    Below (· ≤ ·) m (mergeMax m o) := by
  intro k u hu
  rw [find_mergeMax, hu]
  cases o[k]? with
  | none => exact ⟨u, rfl, le_refl u⟩
  | some v => exact ⟨max u v, rfl, le_max_left u v⟩

end Below

section First

variable {K V : Type*} [Ord K] [Std.TransOrd K] [Std.LawfulEqOrd K]

theorem mem_take_keys_of_least {m : FinMap K V} {k : K} (hk : k ∈ m)
    (hleast : ∀ a ∈ m, a ≠ k → compare k a = .lt) {n : Nat} (hn : 0 < n) :
    k ∈ m.keys.take n := by
  have hmem : k ∈ m.keys := Std.ExtTreeMap.mem_keys.mpr hk
  have hsorted := Std.ExtTreeMap.ordered_keys (t := m)
  obtain ⟨a, rest, hkeys⟩ := exists_cons_of_ne_nil (ne_nil_of_mem hmem)
  obtain ⟨j, rfl⟩ : ∃ j, n = j + 1 := ⟨n - 1, by omega⟩
  rw [hkeys] at hmem hsorted ⊢
  rw [take_succ_cons]
  rcases mem_cons.mp hmem with heq | hrest
  · rw [heq]
    exact mem_cons_self
  · -- The first key comes before this one, which comes before it.
    have hlt := (pairwise_cons.mp hsorted).1 k hrest
    have hne : a ≠ k := fun heq => by
      rw [heq, Std.compare_self] at hlt
      cases hlt
    have ha : a ∈ m := Std.ExtTreeMap.mem_keys.mp (hkeys ▸ mem_cons_self)
    have hgt := Std.OrientedCmp.gt_of_lt (hleast a ha hne)
    rw [hlt] at hgt
    cases hgt

variable [DecidableEq K]

theorem toList_erase_first (m : FinMap K V) (n : Nat) :
    ((m.keys.take n).foldl (fun acc k => acc.erase k) m).toList.Perm (m.toList.drop n) := by
  have hnodup : ∀ m : FinMap K V, m.toList.Nodup := fun m => (nodup_fst_toList m).of_map _
  refine (perm_ext_iff_of_nodup (hnodup _)
    ((hnodup m).sublist (drop_sublist n _))).mpr fun e => ?_
  rw [mem_toList, find_foldl_erase, ← map_fst_toList_eq_keys, ← map_take]
  have hsplit := take_append_drop n m.toList
  have hkeys := nodup_fst_toList m
  rw [← hsplit, map_append, nodup_append] at hkeys
  by_cases hfirst : e.1 ∈ (m.toList.take n).map Prod.fst
  · -- No key is both among the first ones and after them.
    rw [if_pos hfirst]
    exact iff_of_false nofun fun hrest =>
      hkeys.2.2 _ hfirst _ (mem_map_of_mem hrest) rfl
  · rw [if_neg hfirst, ← mem_toList]
    constructor
    · intro hmem
      rw [← hsplit, mem_append] at hmem
      exact hmem.resolve_left fun h => hfirst (mem_map_of_mem h)
    · exact fun hmem => mem_of_mem_drop hmem

end First

section Counting

variable {K V : Type*} [Ord K] [Std.TransOrd K] [Std.LawfulEqOrd K] [DecidableEq K] (p : V → Bool)
  (m : FinMap K V) (s : Finset K)

theorem count_eq_card (h : ∀ k v, m[k]? = some v → p v = true → k ∈ s) :
    count p m = (s.filter fun k => (m[k]?).any p = true).card := by
  -- Entries have distinct keys, so counting them counts keys.
  have hnodup : ((m.toList.filter (fun e => p e.2)).map Prod.fst).Nodup :=
    (nodup_fst_toList m).sublist (filter_sublist.map Prod.fst)
  have hkeys : ((m.toList.filter (fun e => p e.2)).map Prod.fst).toFinset
      = s.filter fun k => (m[k]?).any p = true := by
    ext k
    rw [mem_toFinset, mem_map, Finset.mem_filter, Option.any_eq_true]
    constructor
    · rintro ⟨e, he, rfl⟩
      rw [mem_filter] at he
      have hfind := (mem_toList m e.1 e.2).mp he.1
      exact ⟨h e.1 e.2 hfind he.2, e.2, hfind, he.2⟩
    · rintro ⟨-, v, hv, hp⟩
      exact ⟨(k, v), mem_filter.mpr ⟨(mem_toList m k v).mpr hv, hp⟩, rfl⟩
  calc count p m = ((m.toList.filter (fun e => p e.2)).map Prod.fst).length := by
        rw [count, length_map]
    _ = ((m.toList.filter (fun e => p e.2)).map Prod.fst).toFinset.card :=
        (toFinset_card_of_nodup hnodup).symm
    _ = (s.filter fun k => (m[k]?).any p = true).card := by rw [hkeys]

theorem count_erase {m : FinMap K V} {k : K} {v : V} (h : m[k]? = some v) :
    count p (m.erase k) + (if p v then 1 else 0) = count p m := by
  set keys := (m.toList.map Prod.fst).toFinset with hkeys
  have hmem : ∀ (a : K) (w : V), m[a]? = some w → a ∈ keys := by
    intro a w ha
    rw [hkeys, mem_toFinset, mem_map]
    exact ⟨(a, w), (mem_toList m a w).mpr ha, rfl⟩
  have herased : ∀ (a : K) (w : V), (m.erase k)[a]? = some w → m[a]? = some w := by
    intro a w ha
    rw [find_erase] at ha
    split at ha
    · exact absurd ha (by simp)
    · exact ha
  rw [count_eq_card p m keys fun a w ha _ => hmem a w ha,
    count_eq_card p (m.erase k) keys fun a w ha _ => hmem a w (herased a w ha)]
  -- Of the keys that are counted, only the erased one can go.
  have hrest : (keys.filter fun a => ((m.erase k)[a]?).any p = true)
      = (keys.filter fun a => (m[a]?).any p = true).erase k := by
    ext a
    simp only [Finset.mem_filter, Finset.mem_erase, find_erase]
    by_cases hka : k = a
    · simp [hka]
    · simp [hka, Ne.symm hka]
  rw [hrest]
  by_cases hp : p v = true
  · rw [if_pos hp]
    exact Finset.card_erase_add_one (Finset.mem_filter.mpr ⟨hmem k v h, by simp [h, hp]⟩)
  · rw [if_neg hp, Nat.add_zero, Finset.erase_eq_of_notMem]
    simp [h, hp]

theorem count_insert_le (k : K) (v : V) :
    count p (m.insert k v) ≤ count p m + if p v then 1 else 0 := by
  have hfound : (m.insert k v)[k]? = some v := by rw [find_insert, if_pos rfl]
  have hcount := count_erase p hfound
  -- Without the key there is no difference.
  have hrest : count p ((m.insert k v).erase k) ≤ count p m := by
    rw [erase_insert]
    cases hold : m[k]? with
    | none => rw [erase_of_none hold]
    | some old =>
      have herased := count_erase p hold
      omega
  omega

theorem count_le_card (h : ∀ k v, m[k]? = some v → p v = true → k ∈ s) : count p m ≤ s.card := by
  rw [count_eq_card p m s h]
  exact Finset.card_filter_le s _

theorem sum_values (m : FinMap K Nat) (s : Finset K) (h : ∀ k, k ∈ m → k ∈ s) :
    (m.toList.map Prod.snd).sum = ∑ k ∈ s, (m[k]?).getD 0 := by
  -- Keys outside the map read as zero and drop out of the sum.
  have hkeys : ∀ k, k ∈ (m.toList.map Prod.fst).toFinset ↔ k ∈ m := by
    intro k
    rw [mem_toFinset, map_fst_toList_eq_keys, Std.ExtTreeMap.mem_keys]
  have hsub : (m.toList.map Prod.fst).toFinset ⊆ s := fun k hk => h k ((hkeys k).mp hk)
  have houter : ∀ k ∈ s, k ∉ (m.toList.map Prod.fst).toFinset → (m[k]?).getD 0 = 0 := by
    intro k _ hk
    rw [hkeys, Std.ExtTreeMap.mem_iff_isSome_getElem?, Bool.not_eq_true,
      Option.isSome_eq_false_iff, Option.isNone_iff_eq_none] at hk
    rw [hk, getD_none]
  rw [← Finset.sum_subset hsub houter, sum_toFinset _ (nodup_fst_toList m), map_map]
  congr 1
  refine map_congr_left (fun e he => ?_)
  have hget := (mem_toList m e.1 e.2).mp he
  rw [Function.comp_apply, hget, getD_some]

end Counting

end FinMap

end EssNode
