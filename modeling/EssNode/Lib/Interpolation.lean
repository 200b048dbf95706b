import Mathlib.LinearAlgebra.Lagrange

/-!
# Secret Sharing by Interpolation

The algebra a threshold scheme rests on, over an arbitrary field.

A secret is the constant coefficient of a polynomial and a share is the value of that polynomial
at a nonzero point. Two facts carry the scheme. Recovery is Lagrange interpolation at zero: a
polynomial of degree below the number of points is determined by its values there, and its
constant coefficient is a fixed combination of them (`eval_zero_eq_lagrange`). Secrecy is a
count: the non-constant coefficients are free, and fixing the values at fewer points than there
are coefficients leaves the same number of choices whatever the constant coefficient is
(`card_tails`).

`shareMap` sends the non-constant coefficients to the values they contribute at the observed
points; it is onto because the observed points are distinct and nonzero, and every fibre of a
homomorphism over its range has the same size.
-/

namespace EssNode

open Finset

namespace Interpolation

open Polynomial

variable {F : Type*} [Field F]

/-- The value at `x` of the polynomial with coefficients `cs`, constant
    coefficient first. -/
def coeffSum : List F → F → F
  | [], _ => 0
  | c :: cs, x => c + x * coeffSum cs x

/-- The polynomial whose coefficients are listed from the constant one up. -/
noncomputable def listPoly : List F → F[X]
  | [] => 0
  | c :: cs => C c + X * listPoly cs

theorem eval_listPoly (cs : List F) (x : F) : (listPoly cs).eval x = coeffSum cs x := by
  induction cs with
  | nil => simp only [listPoly, coeffSum, eval_zero]
  | cons c cs ih =>
    simp only [listPoly, coeffSum, eval_add, eval_C, eval_mul, eval_X, ih]

theorem degree_listPoly_lt (cs : List F) : (listPoly cs).degree < cs.length := by
  induction cs with
  | nil =>
    simp only [listPoly, degree_zero, List.length_nil, Nat.cast_zero]
    exact WithBot.bot_lt_coe 0
  | cons c cs ih =>
    rw [listPoly, List.length_cons]
    refine lt_of_le_of_lt (degree_add_le _ _) (max_lt ?_ ?_)
    · refine lt_of_le_of_lt degree_C_le ?_
      exact_mod_cast Nat.succ_pos cs.length
    · -- Multiplying by `X` raises the degree of a nonzero tail by one.
      by_cases hz : listPoly cs = 0
      · rw [hz, mul_zero, degree_zero]
        exact WithBot.bot_lt_coe _
      · rw [degree_eq_natDegree hz] at ih
        rw [degree_mul, degree_X, degree_eq_natDegree hz]
        have hlt : (listPoly cs).natDegree < cs.length := by exact_mod_cast ih
        have hle : 1 + (listPoly cs).natDegree < cs.length + 1 := by omega
        exact_mod_cast hle

/-- The constant coefficient of a polynomial, as the combination of its values
    that Lagrange interpolation prescribes. The points are indexed, so a
    caller holding a list of shares uses its positions. -/
theorem eval_zero_eq_lagrange {n : Nat} (v : Fin n → F) (hv : Function.Injective v)
    (p : F[X]) (hp : p.degree < n) :
    p.eval 0 = ∑ i, p.eval (v i) *
      ((∏ j ∈ univ.erase i, (0 - v j)) / ∏ j ∈ univ.erase i, (v i - v j)) := by
  have hcard : p.degree < (univ : Finset (Fin n)).card := by
    rw [card_univ, Fintype.card_fin]
    exact hp
  -- The polynomial is its own interpolation.
  have hint := Lagrange.eq_interpolate_of_eval_eq (s := univ) (v := v)
    (fun i => p.eval (v i)) hv.injOn hcard (fun i _ => rfl)
  have hzero := congrArg (fun q => q.eval 0) hint
  simp only [Lagrange.interpolate_apply, eval_finsetSum, eval_mul, eval_C] at hzero
  rw [hzero]
  refine sum_congr rfl (fun i _ => ?_)
  -- Each basis polynomial is a product of divisors; at zero they are quotients.
  rw [Lagrange.basis, eval_prod, ← prod_div_distrib]
  congr 1
  refine prod_congr rfl (fun j _ => ?_)
  simp only [Lagrange.basisDivisor, eval_mul, eval_C, eval_sub, eval_X]
  rw [div_eq_inv_mul]

/-- A coefficient list split at its head: the constant coefficient plus what
    the remaining coefficients contribute. -/
theorem coeffSum_ofFn_tail (a x : F) (d : Nat) (c : Fin d → F) :
    coeffSum (a :: List.ofFn c) x = a + ∑ j, c j * x ^ (j.val + 1) := by
  -- Horner's form of the tail, written as a sum of powers.
  have hofFn : ∀ (m : Nat) (g : Fin m → F),
      coeffSum (List.ofFn g) x = ∑ j, g j * x ^ j.val := by
    intro m
    induction m with
    | zero =>
      intro g
      simp only [List.ofFn_zero, coeffSum, univ_eq_empty, sum_empty]
    | succ m ih =>
      intro g
      rw [List.ofFn_succ, coeffSum, ih, Fin.sum_univ_succ, mul_sum]
      simp only [Fin.val_zero, pow_zero, mul_one, Fin.val_succ, pow_succ]
      congr 1
      exact sum_congr rfl (fun j _ => by ring)
  rw [coeffSum, hofFn, mul_sum]
  congr 1
  exact sum_congr rfl (fun j _ => by rw [pow_succ]; ring)

/-- What the non-constant coefficients contribute at each of the points `v`,
    as a homomorphism of additive groups. -/
def shareMap (d : Nat) {m : Nat} (v : Fin m → F) : (Fin d → F) →+ (Fin m → F) where
  toFun c i := ∑ j, c j * v i ^ (j.val + 1)
  map_zero' := by
    funext i
    simp only [Pi.zero_apply, zero_mul, sum_const_zero]
  map_add' c c' := by
    funext i
    simp only [Pi.add_apply, add_mul, sum_add_distrib]

theorem shareMap_apply (d : Nat) {m : Nat} (v : Fin m → F) (c : Fin d → F) (i : Fin m) :
    shareMap d v c i = ∑ j, c j * v i ^ (j.val + 1) := rfl

/-- Distinct nonzero points can be given any values by the non-constant
    coefficients, as long as there are no more points than coefficients. The
    polynomial interpolating the values divided by their points has the wanted
    coefficients, shifted by one. -/
theorem shareMap_surjective {d m : Nat} (hmd : m ≤ d) (v : Fin m → F)
    (hv : Function.Injective v) (hnz : ∀ i, v i ≠ 0) :
    Function.Surjective (shareMap d v) := by
  intro y
  set p : F[X] := Lagrange.interpolate univ v (fun i => y i / v i) with hp
  refine ⟨fun j => p.coeff j.val, ?_⟩
  funext i
  have hdeg : p.degree < m := by
    have h := Lagrange.degree_interpolate_lt (s := univ) (fun i => y i / v i) hv.injOn
    rwa [card_univ, Fintype.card_fin] at h
  -- Below degree `d` the evaluation is the sum over the first `d` coefficients.
  have hnat : p.natDegree < d ∨ p = 0 := by
    by_cases hz : p = 0
    · exact Or.inr hz
    · rw [degree_eq_natDegree hz] at hdeg
      have hlt : p.natDegree < m := by exact_mod_cast hdeg
      exact Or.inl (by omega)
  have heval : p.eval (v i) = ∑ j : Fin d, p.coeff j.val * v i ^ j.val := by
    rcases hnat with hlt | hz
    · rw [eval_eq_sum_range' hlt, Fin.sum_univ_eq_sum_range (fun j => p.coeff j * v i ^ j)]
    · simp only [hz, eval_zero, coeff_zero, zero_mul, sum_const_zero]
  have hval : p.eval (v i) = y i / v i :=
    Lagrange.eval_interpolate_at_node _ hv.injOn (mem_univ i)
  calc shareMap d v (fun j => p.coeff j.val) i
      = ∑ j : Fin d, p.coeff j.val * v i ^ (j.val + 1) := shareMap_apply d v _ i
    _ = (∑ j : Fin d, p.coeff j.val * v i ^ j.val) * v i := by
        rw [sum_mul]
        exact sum_congr rfl (fun j _ => by rw [pow_succ]; ring)
    _ = y i := by rw [← heval, hval, div_mul_cancel₀ _ (hnz i)]

section Count

variable [Fintype F] [DecidableEq F]

/-- Every fibre of the share map has the size the whole space leaves it: the
    fibres are equally large and there is one for each vector of values. -/
theorem card_fiber {d m : Nat} (hmd : m ≤ d) (v : Fin m → F)
    (hv : Function.Injective v) (hnz : ∀ i, v i ≠ 0) (y : Fin m → F) :
    (univ.filter (fun c : Fin d → F => shareMap d v c = y)).card
      = Fintype.card F ^ (d - m) := by
  have hsurj := shareMap_surjective hmd v hv hnz
  have htotal : Fintype.card F ^ d
      = ∑ z : Fin m → F, (univ.filter (fun c : Fin d → F => shareMap d v c = z)).card := by
    have h := card_eq_sum_card_fiberwise (s := univ) (t := univ)
      (f := fun c : Fin d → F => shareMap d v c) (fun c _ => mem_coe.mpr (mem_univ _))
    rw [card_univ, Fintype.card_fun, Fintype.card_fin] at h
    exact h
  have heq : ∀ z : Fin m → F,
      (univ.filter (fun c : Fin d → F => shareMap d v c = z)).card
        = (univ.filter (fun c : Fin d → F => shareMap d v c = y)).card :=
    fun z => AddMonoidHom.card_fiber_eq_of_mem_range (shareMap d v) (hsurj z) (hsurj y)
  rw [sum_congr rfl (fun z _ => heq z), sum_const, card_univ,
    Fintype.card_fun, Fintype.card_fin, smul_eq_mul] at htotal
  -- The fibres share the space evenly; cancel their number.
  have hpos : 0 < Fintype.card F ^ m := Nat.pow_pos Fintype.card_pos
  refine Nat.eq_of_mul_eq_mul_left hpos ?_
  rw [← htotal, ← pow_add, Nat.add_sub_cancel' hmd]

/-- The number of non-constant coefficients that produce given values at given
    points does not mention the constant coefficient. -/
theorem card_tails {d m : Nat} (hmd : m ≤ d) (v : Fin m → F)
    (hv : Function.Injective v) (hnz : ∀ i, v i ≠ 0) (a : F) (y : Fin m → F) :
    (univ.filter (fun c : Fin d → F =>
      ∀ i, coeffSum (a :: List.ofFn c) (v i) = y i)).card = Fintype.card F ^ (d - m) := by
  rw [← card_fiber hmd v hv hnz (fun i => y i - a)]
  congr 1
  refine filter_congr (fun c _ => ?_)
  -- Moving the constant coefficient across turns values into contributions.
  simp only [coeffSum_ofFn_tail, funext_iff, shareMap_apply]
  refine forall_congr' (fun i => ?_)
  rw [eq_sub_iff_add_eq, add_comm]

end Count

end Interpolation

end EssNode
