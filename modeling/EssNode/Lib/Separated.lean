import Mathlib.Algebra.GroupWithZero.Nat
import Mathlib.Data.List.Basic
import Mathlib.InformationTheory.Coding.UniquelyDecodable

/-!
# Parts and Separators

A record is often written as its parts, each followed by a separator, with a rest at the end.
Nothing marks a separator inside a part, so the same sequence may be cut up in more than one
way. This says when it may not.

A part can be found again if its length is known, or if it holds no separator. Two readings of
one sequence that agree on which lengths are known are compared from the front. The second
cannot fall behind, since it finds no separator to stop at in a part of the first, nor end up
ahead, if the rest of the first holds none (`Aligned.cancel`). If the parts without separator
are so in both readings, the rests may be anything (`Aligned.cancel_both`).

A record may also be written with separators between its parts only. If no part holds a
separator, the sequence has as few as a record of that many parts can have, so no record with
more parts looks like it, and of those with as many parts only itself (`intercalate_eq`).

Words that follow each other with nothing between can be told apart if they have one length
(`uniquelyDecodable_of_length`).
-/

namespace EssNode

open List

namespace Separated

variable {α : Type*} {sep : α}

/-- The parts, each followed by the separator. -/
def terminated (sep : α) (parts : List (List α)) : List α := parts.flatMap fun part => part ++ [sep]

theorem terminated_cons (part : List α) (parts : List (List α)) :
    terminated sep (part :: parts) = part ++ [sep] ++ terminated sep parts :=
  flatMap_cons

theorem terminated_append (parts parts' : List (List α)) :
    terminated sep (parts ++ parts') = terminated sep parts ++ terminated sep parts' :=
  flatMap_append

/-- Part by part, the lengths are equal or the first reading's part holds no
    separator. -/
inductive Aligned (sep : α) : List (List α) → List (List α) → Prop where
  | nil : Aligned sep [] []
  | fixed {a b : List α} {as bs : List (List α)} (hlen : a.length = b.length)
      (rest : Aligned sep as bs) : Aligned sep (a :: as) (b :: bs)
  | free {a b : List α} {as bs : List (List α)} (hfree : sep ∉ a) (rest : Aligned sep as bs) :
      Aligned sep (a :: as) (b :: bs)

/-- A stretch that is empty or stops at a separator. -/
def Stops (sep : α) (ahead : List α) : Prop := ahead = [] ∨ ∃ init, ahead = init ++ [sep]

variable {a b ahead rest rest' : List α} {as bs : List (List α)}

theorem Stops.eq_nil (h : Stops sep ahead) (hfree : sep ∉ ahead) : ahead = [] := by
  rcases h with hnil | ⟨init, hinit⟩
  · exact hnil
  · exact absurd (by rw [hinit]; simp) hfree

/-- One part further: the second reading is as far as the first if its separator
    is not in the first's part. -/
theorem advance (hlen : a.length ≤ (ahead ++ b).length)
    (h : a ++ [sep] ++ rest = ahead ++ (b ++ [sep] ++ rest')) :
    ∃ ahead', Stops sep ahead' ∧ ahead ++ b ++ [sep] = a ++ [sep] ++ ahead' ∧
      rest = ahead' ++ rest' := by
  have hassoc : a ++ [sep] ++ rest = (ahead ++ b ++ [sep]) ++ rest' := by
    rw [h]
    simp only [append_assoc]
  rcases append_eq_append_iff.mp hassoc with ⟨ahead', hcut, hrest⟩ | ⟨ahead', hcut, hrest⟩
  · refine ⟨ahead', ?_, hcut, hrest⟩
    -- What is beyond the first's separator ends with the second's.
    rcases eq_nil_or_concat ahead' with hnil | ⟨init, last, hlast⟩
    · exact Or.inl hnil
    · right
      rw [hlast, concat_eq_append, ← append_assoc] at hcut
      have hsep := (append_inj' hcut rfl).2
      rw [cons.injEq] at hsep
      exact ⟨init, by rw [hlast, concat_eq_append, hsep.1]⟩
  · -- The second stops at the same separator or before it; before it is too short.
    have hnil : ahead' = [] := by
      have hsum := congrArg length hcut
      simp only [length_append, length_singleton] at hsum hlen
      exact length_eq_zero_iff.mp (by omega)
    rw [hnil, append_nil] at hcut
    rw [hnil, nil_append] at hrest
    exact ⟨[], Or.inl rfl, by rw [hcut, append_nil], by rw [hrest, nil_append]⟩

theorem exists_cut (hshort : (ahead ++ b).length < a.length)
    (h : a ++ [sep] ++ rest = ahead ++ (b ++ [sep] ++ rest')) :
    ∃ beyond, a = ahead ++ b ++ [sep] ++ beyond := by
  have hassoc : a ++ ([sep] ++ rest) = (ahead ++ b ++ [sep]) ++ rest' := by
    rw [← append_assoc, h]
    simp only [append_assoc]
  rcases append_eq_append_iff.mp hassoc with ⟨beyond, hcut, -⟩ | ⟨beyond, hcut, -⟩
  · -- The second's separator is the last element of the first's part.
    have hsum := congrArg length hcut
    simp only [length_append, length_singleton] at hsum hshort
    have hnil : beyond = [] := length_eq_zero_iff.mp (by omega)
    rw [hnil, append_nil] at hcut
    exact ⟨[], by rw [hcut, append_nil]⟩
  · exact ⟨beyond, hcut⟩

theorem length_le_of_part (ha : a.length = b.length ∨ sep ∉ a)
    (h : a ++ [sep] ++ rest = ahead ++ (b ++ [sep] ++ rest')) :
    a.length ≤ (ahead ++ b).length := by
  rcases ha with hlen | hfree
  · rw [length_append]
    omega
  · by_contra hshort
    rcases exists_cut (Nat.lt_of_not_le hshort) h with ⟨beyond, hcut⟩
    exact hfree (by rw [hcut]; simp)

theorem Stops.eq_nil_of_part (h : Stops sep ahead) (ha : a.length = b.length ∨ sep ∉ a)
    (hab : ahead ++ b = a) : ahead = [] := by
  rcases ha with hlen | hfree
  · have hsum := congrArg length hab
    rw [length_append] at hsum
    exact length_eq_zero_iff.mp (by omega)
  · exact h.eq_nil fun hmem => hfree (by rw [← hab]; simp [hmem])

theorem Aligned.head (h : Aligned sep (a :: as) (b :: bs)) : a.length = b.length ∨ sep ∉ a := by
  cases h with
  | fixed hlen _ => exact Or.inl hlen
  | free hfree _ => exact Or.inr hfree

theorem Aligned.tail (h : Aligned sep (a :: as) (b :: bs)) : Aligned sep as bs := by
  cases h with
  | fixed _ rest => exact rest
  | free _ rest => exact rest

/-- Two readings of one sequence are the same if the first has no separator in the
    parts of unknown length and in its rest. -/
theorem Aligned.cancel (h : Aligned sep as bs) {tail tail' : List α} (htail : sep ∉ tail)
    (hahead : Stops sep ahead)
    (heq : terminated sep as ++ tail = ahead ++ (terminated sep bs ++ tail')) :
    ahead = [] ∧ as = bs ∧ tail = tail' := by
  induction as generalizing bs ahead with
  | nil =>
    cases h
    have htails : tail = ahead ++ tail' := heq
    have hnil : ahead = [] := hahead.eq_nil (fun hmem => htail (by rw [htails]; simp [hmem]))
    rw [hnil, nil_append] at htails
    exact ⟨hnil, rfl, htails⟩
  | cons a as ih =>
    rcases bs with _ | ⟨b, bs⟩
    · cases h
    · rw [terminated_cons, terminated_cons, append_assoc, append_assoc (b ++ [sep])]
        at heq
      rcases advance (length_le_of_part h.head heq) heq with ⟨ahead', hstops, hcut, hrest⟩
      -- In step behind the part, hence in front of it.
      rcases ih h.tail hstops hrest with ⟨hnil, has, htails⟩
      rw [hnil, append_nil] at hcut
      have hab := (append_inj' hcut rfl).1
      have hzero := hahead.eq_nil_of_part h.head hab
      rw [hzero, nil_append] at hab
      exact ⟨hzero, by rw [hab, has], htails⟩

/-- The first parts of two readings are the same if neither is left before its end. -/
theorem cancel_part (ha : a.length = b.length ∨ sep ∉ a) (hb : b.length = a.length ∨ sep ∉ b)
    (h : a ++ [sep] ++ rest = b ++ [sep] ++ rest') :
    a = b ∧ rest = rest' := by
  have hle : a.length ≤ ([] ++ b).length := length_le_of_part ha h
  have hge : b.length ≤ ([] ++ a).length := length_le_of_part hb h.symm
  have hlen : (a ++ [sep]).length = (b ++ [sep]).length := by
    rw [length_append, length_append, show a.length = b.length from
      Nat.le_antisymm hle hge]
  rcases append_inj h hlen with ⟨hparts, hrest⟩
  exact ⟨(append_inj' hparts rfl).1, hrest⟩

/-- The last parts of two readings are the same if neither holds a separator. -/
theorem cancel_last (hfree : sep ∉ rest) (hfree' : sep ∉ rest')
    (h : a ++ [sep] ++ rest = b ++ [sep] ++ rest') : a = b ∧ rest = rest' := by
  have hreverse := congrArg reverse h
  simp only [reverse_append, reverse_singleton, ← append_assoc] at hreverse
  obtain ⟨hlast, hfront⟩ := cancel_part (.inr (by simpa using hfree)) (.inr (by simpa using hfree'))
    hreverse
  exact ⟨reverse_injective hfront, reverse_injective hlast⟩

/-- Two readings of one sequence are the same if neither has a separator in the
    parts of unknown length, whatever their rests hold. -/
theorem Aligned.cancel_both (h : Aligned sep as bs) (h' : Aligned sep bs as) {tail tail' : List α}
    (heq : terminated sep as ++ tail = terminated sep bs ++ tail') : as = bs ∧ tail = tail' := by
  induction as generalizing bs with
  | nil =>
    cases h
    exact ⟨rfl, heq⟩
  | cons a as ih =>
    rcases bs with _ | ⟨b, bs⟩
    · cases h
    · rw [terminated_cons, terminated_cons, append_assoc, append_assoc (b ++ [sep])]
        at heq
      rcases cancel_part h.head h'.head heq with ⟨hab, hrest⟩
      rcases ih h.tail h'.tail hrest with ⟨has, htails⟩
      exact ⟨by rw [hab, has], htails⟩

theorem terminated_append_last (parts : List (List α)) (last : List α) :
    terminated sep parts ++ last = [sep].intercalate (parts ++ [last]) := by
  induction parts with
  | nil => simp [terminated]
  | cons part parts ih =>
    rw [terminated_cons, append_assoc, ih, cons_append,
      intercalate_cons_of_ne_nil (by simp)]

section Joined

variable [BEq α] [LawfulBEq α]

theorem count_intercalate (sep : α) {parts : List (List α)} (hne : parts ≠ []) :
    ([sep].intercalate parts).count sep + 1 =
      parts.length + (parts.map (count sep)).sum := by
  induction parts with
  | nil => exact absurd rfl hne
  | cons part parts ih =>
    cases parts with
    | nil => simp [Nat.add_comm]
    | cons part' parts =>
      have hrest := ih (by simp)
      rw [intercalate_cons_cons, count_append, count_append,
        count_singleton_self, map_cons, sum_cons, length_cons]
      omega

/-- Parts without separators are the only ones, among at least as many, that are
    joined to the same sequence. -/
theorem intercalate_eq {as bs : List (List α)} (hfree : ∀ a ∈ as, sep ∉ a) (hne : as ≠ [])
    (hlen : as.length ≤ bs.length) (h : [sep].intercalate as = [sep].intercalate bs) :
    as = bs := by
  have hne' : bs ≠ [] := by
    rintro rfl
    exact hne (length_eq_zero_iff.mp (Nat.le_zero.mp hlen))
  have has := count_intercalate sep hne
  have hbs := count_intercalate sep hne'
  have hnone : (as.map (count sep)).sum = 0 := by
    rw [List.sum_eq_zero_iff_forall_eq_nat]
    intro n hn
    obtain ⟨a, ha, rfl⟩ := mem_map.mp hn
    exact count_eq_zero.mpr (hfree a ha)
  -- No separator is left over for the inside of the other parts.
  have hnone' : (bs.map (count sep)).sum = 0 := by
    rw [h] at has
    omega
  have hfree' : ∀ b ∈ bs, sep ∉ b := by
    intro b hb
    have := List.sum_eq_zero_iff_forall_eq_nat.mp hnone' _ (List.mem_map_of_mem hb)
    exact count_eq_zero.mp this
  rw [← splitOn_intercalate sep hfree hne, h, splitOn_intercalate sep hfree' hne']

end Joined

theorem uniquelyDecodable_of_length {words : Set (List α)} {n : Nat} (hn : n ≠ 0)
    (hwords : ∀ w ∈ words, w.length = n) : InformationTheory.UniquelyDecodable words := by
  have hne : ∀ w ∈ words, w ≠ [] := by
    rintro w hw rfl
    exact hn (hwords [] hw).symm
  intro xs
  induction xs with
  | nil =>
    intro ys _ hys h
    cases ys with
    | nil => rfl
    | cons y ys =>
      exact absurd (append_eq_nil_iff.mp h.symm).1 (hne y (hys y (by simp)))
  | cons x xs ih =>
    intro ys hxs hys h
    cases ys with
    | nil => exact absurd (append_eq_nil_iff.mp h).1 (hne x (hxs x (by simp)))
    | cons y ys =>
      -- The first words have one length, so the concatenations are cut at one place.
      have hx := hwords x (hxs x (by simp))
      have hy := hwords y (hys y (by simp))
      rw [flatten_cons, flatten_cons] at h
      obtain ⟨hxy, hrest⟩ := append_inj h (hx.trans hy.symm)
      rw [hxy, ih ys (fun w hw => hxs w (by simp [hw])) (fun w hw => hys w (by simp [hw]))
        hrest]

end Separated

end EssNode
