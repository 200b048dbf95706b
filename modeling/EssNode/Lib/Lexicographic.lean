import EssNode.Lib.Bincode

/-!
# Byte Strings in Order

The order in which a sorted map of byte strings has its keys, and keys that are made so that
they come in the order of what they stand for.

The order is lexicographic. Of two strings that start with parts of one length, those parts
decide first (`append_lt_append_iff`). And a number written with its most significant byte
first, in a fixed number of bytes, comes where the number does (`bigEndian_lt_iff`). So a key
made of such a number and a text is sorted by the number and then by the text.
-/

namespace EssNode

open List

namespace Lexicographic

open Bincode

theorem compare_eq_lt_iff {a b : List UInt8} : compare a b = .lt ↔ a < b := by
  change List.compareLex compare a b = .lt ↔ a < b
  induction a generalizing b with
  | nil =>
    cases b with
    | nil => exact iff_of_false nofun (not_lt_nil [])
    | cons y b => exact iff_of_true rfl (nil_lt_cons y b)
  | cons x a ih =>
    cases b with
    | nil => exact iff_of_false nofun (not_lt_nil _)
    | cons y b =>
      rw [List.compareLex_cons_cons, List.cons_lt_cons_iff, Ordering.then_eq_lt, ih,
        Std.compare_eq_lt, Std.LawfulEqCmp.compare_eq_iff_eq]

theorem append_lt_append_iff {a a' b b' : List UInt8} (h : a.length = a'.length) :
    a ++ b < a' ++ b' ↔ a < a' ∨ a = a' ∧ b < b' := by
  induction a generalizing a' with
  | nil =>
    rw [length_eq_zero_iff.mp h.symm]
    exact ⟨fun hlt => Or.inr ⟨rfl, hlt⟩, fun hlt => (hlt.resolve_left (not_lt_nil [])).2⟩
  | cons x a ih =>
    cases a' with
    | nil => cases h
    | cons y a' =>
      rw [cons_append, cons_append, List.cons_lt_cons_iff, List.cons_lt_cons_iff,
        ih (Nat.succ.inj h), cons.injEq]
      -- The first bytes decide, or they are equal and the rest does.
      constructor
      · rintro (hxy | ⟨hxy, hlt | ⟨heq, hlt⟩⟩)
        · exact Or.inl (Or.inl hxy)
        · exact Or.inl (Or.inr ⟨hxy, hlt⟩)
        · exact Or.inr ⟨⟨hxy, heq⟩, hlt⟩
      · rintro ((hxy | ⟨hxy, hlt⟩) | ⟨⟨hxy, heq⟩, hlt⟩)
        · exact Or.inl hxy
        · exact Or.inr ⟨hxy, Or.inl hlt⟩
        · exact Or.inr ⟨hxy, Or.inr ⟨heq, hlt⟩⟩

theorem bigEndian_lt_iff {w n n' : Nat} (hn : n < 256 ^ w) (hn' : n' < 256 ^ w) :
    (littleEndian w n).reverse < (littleEndian w n').reverse ↔ n < n' := by
  -- Induction on the width: the last byte is the remainder, the ones before it the quotient.
  induction w generalizing n n' with
  | zero =>
    refine iff_of_false (not_lt_nil _) ?_
    omega
  | succ w ih =>
    have hquot : ∀ {k : Nat}, k < 256 ^ (w + 1) → k / 256 < 256 ^ w := fun hk =>
      Nat.div_lt_of_lt_mul (by rwa [Nat.mul_comm, ← Nat.pow_succ])
    have hlast : ([UInt8.ofNat (n % 256)] : List UInt8) < [UInt8.ofNat (n' % 256)] ↔
        n % 256 < n' % 256 := by
      rw [List.cons_lt_cons_iff, UInt8.lt_iff_toNat_lt, UInt8.toNat_ofNat', UInt8.toNat_ofNat',
        Nat.mod_eq_of_lt (Nat.mod_lt n (by decide)), Nat.mod_eq_of_lt (Nat.mod_lt n' (by decide))]
      exact ⟨fun h => h.resolve_right fun h => not_lt_nil _ h.2, Or.inl⟩
    have hsame : (littleEndian w (n / 256)).reverse = (littleEndian w (n' / 256)).reverse ↔
        n / 256 = n' / 256 := by
      refine ⟨fun h => ?_, fun h => by rw [h]⟩
      have hvalue := congrArg ofLittleEndian (reverse_injective h)
      rwa [ofLittleEndian_littleEndian w _ (hquot hn),
        ofLittleEndian_littleEndian w _ (hquot hn')] at hvalue
    rw [littleEndian, littleEndian, reverse_cons, reverse_cons,
      append_lt_append_iff (by simp), ih (hquot hn) (hquot hn'), hsame, hlast]
    omega

end Lexicographic

end EssNode
