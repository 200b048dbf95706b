import Mathlib.Dynamics.PeriodicPts.Lemmas
import Mathlib.Algebra.Field.Basic

/-!
# Fields from a Cyclic Generator

When logarithm tables define a multiplication, they define a field.

Table arithmetic on a finite additive group fixes a linear map, multiplication
by the generator, and a unit whose orbit under that map is every nonzero
element. Products are then read off exponents. Nothing more about the group is
needed: an element is a power of the generator, multiplying by it is iterating
the linear map that often, and the field laws follow from how iterates compose
and from their linearity.

Multiplication stays a parameter. A program has its own, computed by whatever
lookups it does, and `IsMul` is the one fact to prove about it.
-/

namespace EssNode

open Finset

/-- A linear map `step` with a unit `one` whose orbit runs through every
    nonzero element exactly once before it closes. -/
structure Generator (V : Type*) [AddCommGroup V] [Fintype V] where
  /-- Multiplication by the generator. -/
  step : V →+ V
  /-- The unit, where the orbit starts. -/
  one : V
  one_ne_zero : one ≠ 0
  /-- The length of the orbit. -/
  order : Nat
  minimalPeriod_eq : Function.minimalPeriod step one = order
  card_eq : order + 1 = Fintype.card V

namespace Generator

variable {V : Type*} [AddCommGroup V] [Fintype V] (g : Generator V)

/-- The powers of the generator, from the unit on. -/
def power (i : Nat) : V := g.step^[i] g.one

theorem power_zero : g.power 0 = g.one := rfl

theorem step_power (i : Nat) : g.step (g.power i) = g.power (i + 1) :=
  (Function.iterate_succ_apply' g.step i g.one).symm

theorem iterate_power (i j : Nat) : g.step^[i] (g.power j) = g.power (i + j) :=
  (Function.iterate_add_apply g.step i j g.one).symm

theorem power_mod (i : Nat) : g.power (i % g.order) = g.power i := by
  have h := Function.iterate_mod_minimalPeriod_eq (f := g.step) (x := g.one) (n := i)
  rwa [g.minimalPeriod_eq] at h

theorem order_pos : 0 < g.order := by
  have hcard := Fintype.one_lt_card_iff.mpr ⟨g.one, 0, g.one_ne_zero⟩
  rw [← g.card_eq] at hcard
  omega

theorem iterate_zero (i : Nat) : g.step^[i] 0 = 0 :=
  iterate_map_zero g.step i

/-- No power vanishes: from zero the orbit would never come back to the unit. -/
theorem power_ne_zero (i : Nat) : g.power i ≠ 0 := by
  intro hzero
  -- A multiple of the order leads back to the unit and passes through `i`.
  have hback : g.power (g.order * i) = g.one := by
    rw [← g.power_mod, Nat.mul_mod_right, power_zero]
  have hpos := g.order_pos
  have hsplit : g.order * i = (g.order * i - i) + i := by
    have hle : 1 * i ≤ g.order * i := Nat.mul_le_mul_right i hpos
    omega
  rw [hsplit, ← g.iterate_power, hzero, g.iterate_zero] at hback
  exact g.one_ne_zero hback.symm

theorem power_injOn {i j : Nat} (hi : i < g.order) (hj : j < g.order)
    (h : g.power i = g.power j) : i = j := by
  refine Function.iterate_injOn_Iio_minimalPeriod (f := g.step) (x := g.one) ?_ ?_ h
  · rwa [Set.mem_Iio, g.minimalPeriod_eq]
  · rwa [Set.mem_Iio, g.minimalPeriod_eq]

/-- Every nonzero element is a power. The powers below the order are as many
    as the nonzero elements, so none is left out. -/
theorem exists_power {x : V} (hx : x ≠ 0) : ∃ i, i < g.order ∧ g.power i = x := by
  classical
  -- The powers are nonzero elements, and as many as these.
  have hsub : (range g.order).image g.power ⊆ univ.erase 0 := by
    intro y hy
    rcases mem_image.mp hy with ⟨i, -, rfl⟩
    exact mem_erase.mpr ⟨g.power_ne_zero i, mem_univ _⟩
  have hinj : ((range g.order).image g.power).card = g.order := by
    rw [card_image_of_injOn, card_range]
    intro i hi j hj h
    exact g.power_injOn (mem_range.mp hi) (mem_range.mp hj) h
  have hcard : (univ.erase (0 : V)).card ≤ ((range g.order).image g.power).card := by
    rw [hinj, card_erase_of_mem (mem_univ _), card_univ, ← g.card_eq]
    omega
  have heq := eq_of_subset_of_card_le hsub hcard
  have hmem : x ∈ (range g.order).image g.power := by
    rw [heq]
    exact mem_erase.mpr ⟨hx, mem_univ _⟩
  rcases mem_image.mp hmem with ⟨i, hi, hpow⟩
  exact ⟨i, mem_range.mp hi, hpow⟩

/-- A multiplication that iterates the generator: multiplying by its `i`-th
    power applies `step` that often. -/
structure IsMul (mul : V → V → V) : Prop where
  zero_mul : ∀ b, mul 0 b = 0
  power_mul : ∀ i b, i < g.order → mul (g.power i) b = g.step^[i] b

namespace IsMul

variable {g} {mul : V → V → V} (h : g.IsMul mul)

include h

theorem mul_zero (a : V) : mul a 0 = 0 := by
  by_cases ha : a = 0
  · rw [ha, h.zero_mul]
  · rcases g.exists_power ha with ⟨i, hi, rfl⟩
    rw [h.power_mul i 0 hi, g.iterate_zero]

theorem mul_power (i j : Nat) : mul (g.power i) (g.power j) = g.power (i + j) := by
  rw [← g.power_mod i, h.power_mul _ _ (Nat.mod_lt _ g.order_pos), g.iterate_power,
    ← g.power_mod (i % g.order + j), Nat.mod_add_mod, g.power_mod]

theorem mul_comm (a b : V) : mul a b = mul b a := by
  by_cases ha : a = 0
  · rw [ha, h.zero_mul, h.mul_zero]
  by_cases hb : b = 0
  · rw [hb, h.zero_mul, h.mul_zero]
  rcases g.exists_power ha with ⟨i, -, rfl⟩
  rcases g.exists_power hb with ⟨j, -, rfl⟩
  rw [h.mul_power, h.mul_power, Nat.add_comm]

theorem one_mul (b : V) : mul g.one b = b := by
  rw [← g.power_zero, h.power_mul 0 b g.order_pos, Function.iterate_zero, id]

theorem mul_assoc (a b c : V) : mul (mul a b) c = mul a (mul b c) := by
  by_cases ha : a = 0
  · rw [ha, h.zero_mul, h.zero_mul, h.zero_mul]
  by_cases hb : b = 0
  · rw [hb, h.mul_zero, h.zero_mul, h.mul_zero]
  by_cases hc : c = 0
  · rw [hc, h.mul_zero, h.mul_zero, h.mul_zero]
  rcases g.exists_power ha with ⟨i, -, rfl⟩
  rcases g.exists_power hb with ⟨j, -, rfl⟩
  rcases g.exists_power hc with ⟨l, -, rfl⟩
  rw [h.mul_power, h.mul_power, h.mul_power, h.mul_power, Nat.add_assoc]

/-- Multiplication distributes because iterates of a linear map are linear. -/
theorem mul_add (a b c : V) : mul a (b + c) = mul a b + mul a c := by
  by_cases ha : a = 0
  · rw [ha, h.zero_mul, h.zero_mul, h.zero_mul, add_zero]
  · rcases g.exists_power ha with ⟨i, hi, rfl⟩
    rw [h.power_mul i _ hi, h.power_mul i _ hi, h.power_mul i _ hi, iterate_map_add]

theorem mul_power_inv {i : Nat} (hi : i ≤ g.order) :
    mul (g.power i) (g.power (g.order - i)) = g.one := by
  rw [h.mul_power, Nat.add_sub_cancel' hi, ← g.power_mod, Nat.mod_self, g.power_zero]

/-- The field made by a multiplication that iterates the generator, with an
    inverse the program computes. -/
@[reducible] def field (inv : V → V) (hinv_zero : inv 0 = 0)
    (hinv : ∀ a, a ≠ 0 → mul a (inv a) = g.one) : Field V where
  __ := (inferInstance : AddCommGroup V)
  mul := mul
  one := g.one
  inv := inv
  left_distrib := h.mul_add
  right_distrib a b c := by
    change mul (a + b) c = mul a c + mul b c
    rw [h.mul_comm, h.mul_add, h.mul_comm c a, h.mul_comm c b]
  zero_mul := h.zero_mul
  mul_zero := h.mul_zero
  mul_assoc := h.mul_assoc
  one_mul := h.one_mul
  mul_one a := by
    change mul a g.one = a
    rw [h.mul_comm, h.one_mul]
  mul_comm := h.mul_comm
  exists_pair_ne := ⟨g.one, 0, g.one_ne_zero⟩
  mul_inv_cancel := hinv
  inv_zero := hinv_zero
  nnqsmul := _
  nnqsmul_def := fun _ _ => rfl
  qsmul := _
  qsmul_def := fun _ _ => rfl

end IsMul

end Generator

end EssNode
