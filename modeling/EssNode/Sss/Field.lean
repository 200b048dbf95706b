import Mathlib.Tactic.DeriveFintype
import EssNode.Lib.CyclicField

/-!
# Table Arithmetic on Bytes

The arithmetic the secret sharing computes with, and that it is a field.

Multiplication and division go through an exponential and a logarithm table
that are filled at startup by walking the powers of 3. The walk multiplies by
shifting and reducing with the polynomial 0x11B, so it is a linear map on bytes
under exclusive or, and its orbit from 1 runs through all 255 nonzero bytes.
Those two facts make the filled tables inverse to each other (`exp_tables`,
`log_tables`) and make the looked-up product the iterated walk, which is what
the field laws need.

The source's loops are folds over their ranges. An array write is
`setIfInBounds`; that no write of the table loop falls outside is part of the
loop invariant, since the index written is the current power.
-/

namespace EssNode

namespace Sss

/-- What the secret sharing reports on failure. -/
inductive SssError where
  | invalidThreshold
  | notEnoughShards
  | duplicateX
  | emptySecret
  | divisionByZero
deriving DecidableEq, Repr

def poly : UInt16 := 0x11B

/-- The `while b > 0` loop of the shift-and-reduce product, with the counter's
    width as fuel. -/
def rawMulLoop : Nat → UInt16 → UInt16 → UInt16 → UInt16
  | 0, _, _, result => result
  | fuel + 1, a, b, result =>
    if b > 0 then
      let result := if b &&& 1 = 1 then result ^^^ a else result
      let a := a <<< 1
      let a := if a &&& 0x100 ≠ 0 then a ^^^ poly else a
      rawMulLoop fuel a (b >>> 1) result
    else result

def gf256RawMul (a b : UInt16) : UInt16 := rawMulLoop 16 a b 0 &&& 0xFF

/-- The exponential table, twice as long as its period, and the logarithms. -/
structure GF256Tables where
  exp : Vector UInt8 512
  log : Vector UInt8 256

/-- One round of the first loop: the tables and the current power. -/
def generateStep (st : GF256Tables × UInt16) (i : Nat) : GF256Tables × UInt16 :=
  ({ exp := st.1.exp.setIfInBounds i st.2.toUInt8
     log := st.1.log.setIfInBounds st.2.toNat (UInt8.ofNat i) }, gf256RawMul st.2 3)

/-- One round of the second loop, which repeats the exponential table. -/
def duplicateStep (t : GF256Tables) (i : Nat) : GF256Tables :=
  { t with exp := t.exp.setIfInBounds i ((t.exp[i - 255]?).getD 0) }

def emptyTables : GF256Tables := ⟨Vector.replicate 512 0, Vector.replicate 256 0⟩

/-- Fill the tables: 255 powers of 3, then the exponentials once more. -/
def GF256Tables.generate : GF256Tables :=
  (List.range' 255 257).foldl duplicateStep
    ((List.range 255).foldl generateStep (emptyTables, 1)).1

def tables : GF256Tables := GF256Tables.generate

def GF256Tables.logOf (t : GF256Tables) (a : UInt8) : Nat :=
  (t.log.get ⟨a.toNat, a.toNat_lt⟩).toNat

def gfAdd (a b : UInt8) : UInt8 := a ^^^ b

def gfSub (a b : UInt8) : UInt8 := a ^^^ b

/-- Multiplication by adding logarithms. -/
def gfMul (a b : UInt8) : UInt8 :=
  if a = 0 ∨ b = 0 then 0
  else tables.exp[(tables.logOf a + tables.logOf b) % 255]

/-- Division by subtracting logarithms. -/
def gfDiv (a b : UInt8) : Except SssError UInt8 :=
  if b = 0 then .error .divisionByZero
  else if a = 0 then .ok 0
  else .ok tables.exp[(tables.logOf a + 255 - tables.logOf b) % 255]

/-- A byte as a field element. -/
@[ext] structure Gf256 where
  val : UInt8
deriving DecidableEq, Repr

namespace Gf256

/-- Field elements are bytes. -/
def equivFin : Gf256 ≃ Fin 256 where
  toFun a := a.val.toFin
  invFun i := ⟨UInt8.ofFin i⟩
  left_inv _ := rfl
  right_inv _ := rfl

instance : Fintype Gf256 := Fintype.ofEquiv _ equivFin.symm

theorem card_eq : Fintype.card Gf256 = 256 := by
  rw [Fintype.card_congr equivFin, Fintype.card_fin]

instance : Add Gf256 := ⟨fun a b => ⟨gfAdd a.val b.val⟩⟩

instance : Sub Gf256 := ⟨fun a b => ⟨gfSub a.val b.val⟩⟩

instance : Zero Gf256 := ⟨⟨0⟩⟩

instance : Neg Gf256 := ⟨id⟩

/-- Exclusive or is an additive group in which every element is its own
    negative. -/
instance : AddCommGroup Gf256 where
  add_assoc a b c := Gf256.ext (UInt8.xor_assoc a.val b.val c.val)
  zero_add a := Gf256.ext UInt8.zero_xor
  add_zero a := Gf256.ext UInt8.xor_zero
  add_comm a b := Gf256.ext (UInt8.xor_comm a.val b.val)
  neg_add_cancel a := Gf256.ext UInt8.xor_self
  nsmul := nsmulRec
  zsmul := zsmulRec

variable (a b : Gf256)

@[simp] theorem val_add : (a + b).val = gfAdd a.val b.val := rfl

@[simp] theorem val_zero : (0 : Gf256).val = 0 := rfl

theorem eq_zero_iff : a = 0 ↔ a.val = 0 :=
  ⟨fun h => h ▸ rfl, fun h => Gf256.ext h⟩

theorem sub_eq_add : a - b = a + b := rfl

/-- One step of the table walk on a byte. -/
def mulThree (a : Gf256) : Gf256 := ⟨(gf256RawMul a.val.toUInt16 3).toUInt8⟩

/-- The walk in shifts: three times a byte, with the overflowing bit folded
    back by the four low bits of the polynomial. -/
theorem mulThree_eq_shifts : (mulThree a).val
    = a.val ^^^ (a.val <<< 1) ^^^ (a.val >>> 7) ^^^ ((a.val >>> 7) <<< 1)
      ^^^ ((a.val >>> 7) <<< 3) ^^^ ((a.val >>> 7) <<< 4) := by
  -- Both sides are functions of one byte, compared on each of them.
  have hall : ∀ i : Fin 256, (mulThree ⟨UInt8.ofFin i⟩).val
      = UInt8.ofFin i ^^^ (UInt8.ofFin i <<< 1) ^^^ (UInt8.ofFin i >>> 7)
        ^^^ ((UInt8.ofFin i >>> 7) <<< 1) ^^^ ((UInt8.ofFin i >>> 7) <<< 3)
        ^^^ ((UInt8.ofFin i >>> 7) <<< 4) := by decide +kernel
  exact hall a.val.toFin

theorem mulThree_add : mulThree (a + b) = mulThree a + mulThree b := by
  refine Gf256.ext ?_
  rw [val_add, mulThree_eq_shifts, mulThree_eq_shifts, mulThree_eq_shifts, val_add]
  -- Shifts distribute over exclusive or; the rest is reordering.
  simp only [gfAdd, UInt8.shiftLeft_xor, UInt8.shiftRight_xor]
  ac_rfl

/-- The walk as a homomorphism. -/
def mulThreeHom : Gf256 →+ Gf256 where
  toFun := mulThree
  map_zero' := by decide +kernel
  map_add' := mulThree_add

/-- The walk from 1 closes after 255 rounds and not before: a shorter period
    would divide 255 over one of its primes. -/
theorem mulThree_minimalPeriod : Function.minimalPeriod mulThreeHom (⟨1⟩ : Gf256) = 255 := by
  have hback : mulThree^[255] ⟨1⟩ = ⟨1⟩ := by decide +kernel
  have hdvd : Function.minimalPeriod mulThreeHom (⟨1⟩ : Gf256) ∣ 255 :=
    Function.IsPeriodicPt.minimalPeriod_dvd hback
  have hcase : ∀ d, d < 256 → d ∣ 255 → d = 255 ∨ d ∣ 85 ∨ d ∣ 51 ∨ d ∣ 15 := by
    decide +kernel
  have hle := Nat.le_of_dvd (by decide) hdvd
  have hnot : ∀ m, mulThree^[m] ⟨1⟩ ≠ ⟨1⟩ →
      ¬ Function.minimalPeriod mulThreeHom (⟨1⟩ : Gf256) ∣ m :=
    fun m hm hd => hm (Function.isPeriodicPt_iff_minimalPeriod_dvd.mpr hd)
  rcases hcase _ (by omega) hdvd with h | h | h | h
  · exact h
  · exact absurd h (hnot 85 (by decide +kernel))
  · exact absurd h (hnot 51 (by decide +kernel))
  · exact absurd h (hnot 15 (by decide +kernel))

end Gf256

open Gf256

/-- The walk over the powers of 3 reaches every nonzero byte. -/
def gfGenerator : Generator Gf256 where
  step := mulThreeHom
  one := ⟨1⟩
  one_ne_zero := by decide
  order := 255
  minimalPeriod_eq := mulThree_minimalPeriod
  card_eq := card_eq.symm

theorem gfGenerator_order : gfGenerator.order = 255 := rfl

variable (n i : Nat)

theorem power_val_ne_zero : (gfGenerator.power i).val ≠ 0 :=
  fun h => gfGenerator.power_ne_zero i ((Gf256.eq_zero_iff _).mpr h)

/-- What holds before round `n` of the table loop: the current value is the
    `n`-th power, and the tables hold the powers below it. -/
structure TablesInv (n : Nat) (st : GF256Tables × UInt16) : Prop where
  current : st.2 = (gfGenerator.power n).val.toUInt16
  exp : ∀ j, j < n → st.1.exp[j]? = some (gfGenerator.power j).val
  log : ∀ j, j < n → st.1.log[(gfGenerator.power j).val.toNat]? = some (UInt8.ofNat j)

theorem gf256RawMul_toUInt8 (a b : UInt16) :
    (gf256RawMul a b).toUInt8.toUInt16 = gf256RawMul a b := by
  have hlt : (gf256RawMul a b).toNat < 256 := by
    rw [gf256RawMul, UInt16.toNat_and]
    exact Nat.lt_succ_of_le Nat.and_le_right
  rw [← UInt16.toNat_inj, UInt8.toNat_toUInt16, UInt16.toNat_toUInt8, Nat.mod_eq_of_lt hlt]

/-- One round of the table loop. The entry it writes is new, because the
    powers below the order are distinct. -/
theorem generateStep_inv (hn : n < 255) (st : GF256Tables × UInt16) (h : TablesInv n st) :
    TablesInv (n + 1) (generateStep st n) := by
  have hbyte : st.2.toUInt8 = (gfGenerator.power n).val := by
    rw [h.current, UInt8.toUInt8_toUInt16]
  have hidx : st.2.toNat = (gfGenerator.power n).val.toNat := by
    rw [h.current, UInt8.toNat_toUInt16]
  refine ⟨?_, ?_, ?_⟩
  -- The walk goes on to the next power.
  · rw [← gfGenerator.step_power]
    change gf256RawMul st.2 3 = (gf256RawMul (gfGenerator.power n).val.toUInt16 3).toUInt8.toUInt16
    rw [gf256RawMul_toUInt8, h.current]
  -- The exponentials are written in order.
  · intro j hj
    rw [generateStep, Vector.getElem?_setIfInBounds]
    by_cases hjn : n = j
    · rw [if_pos hjn, if_pos (by omega), hbyte, hjn]
    · rw [if_neg hjn]
      exact h.exp j (by omega)
  -- The logarithms are written where the power is, which no earlier round did.
  · intro j hj
    rw [generateStep, Vector.getElem?_setIfInBounds, hidx]
    by_cases hjn : j = n
    · rw [hjn, if_pos rfl, if_pos (UInt8.toNat_lt _)]
    · have hne : (gfGenerator.power n).val.toNat ≠ (gfGenerator.power j).val.toNat := by
        intro heq
        have hpow : gfGenerator.power n = gfGenerator.power j :=
          Gf256.ext (UInt8.toNat_inj.mp heq)
        have hnj := gfGenerator.power_injOn (by rw [gfGenerator_order]; omega)
          (by rw [gfGenerator_order]; omega) hpow
        exact hjn hnj.symm
      rw [if_neg hne]
      exact h.log j (by omega)

theorem generate_inv (hn : n ≤ 255) :
    TablesInv n ((List.range n).foldl generateStep (emptyTables, 1)) := by
  induction n with
  | zero =>
    exact ⟨rfl, fun j hj => absurd hj (Nat.not_lt_zero j),
      fun j hj => absurd hj (Nat.not_lt_zero j)⟩
  | succ n ih =>
    rw [List.range_succ, List.foldl_append]
    exact generateStep_inv n (by omega) _ (ih (by omega))

theorem duplicate_frame (is : List Nat) (his : ∀ i ∈ is, 255 ≤ i) (t : GF256Tables) :
    (is.foldl duplicateStep t).log = t.log ∧
      ∀ j, j < 255 → (is.foldl duplicateStep t).exp[j]? = t.exp[j]? := by
  induction is generalizing t with
  | nil => exact ⟨rfl, fun _ _ => rfl⟩
  | cons i is ih =>
    rcases ih (fun k hk => his k (List.mem_cons_of_mem _ hk)) (duplicateStep t i) with
      ⟨hlog, hexp⟩
    have hi := his i List.mem_cons_self
    refine ⟨hlog, fun j hj => ?_⟩
    rw [List.foldl_cons, hexp j hj, duplicateStep, Vector.getElem?_setIfInBounds,
      if_neg (by omega)]

theorem tables_frame : tables.log = ((List.range 255).foldl generateStep (emptyTables, 1)).1.log ∧
    ∀ j, j < 255 → tables.exp[j]?
      = ((List.range 255).foldl generateStep (emptyTables, 1)).1.exp[j]? :=
  duplicate_frame _ (fun i hi => by rw [List.mem_range'] at hi; omega) _

theorem exp_tables (hi : i < 512) (h : i < 255) : tables.exp[i] = (gfGenerator.power i).val := by
  have hget := tables_frame.2 i h
  rw [(generate_inv 255 le_rfl).exp i h, Vector.getElem?_eq_getElem hi] at hget
  exact Option.some.inj hget

theorem log_tables (h : i < 255) : tables.logOf (gfGenerator.power i).val = i := by
  have hget := (generate_inv 255 le_rfl).log i h
  rw [← tables_frame.1, Vector.getElem?_eq_getElem (UInt8.toNat_lt _)] at hget
  have hlog : tables.logOf (gfGenerator.power i).val = (UInt8.ofNat i).toNat :=
    congrArg UInt8.toNat (Option.some.inj hget)
  rw [hlog, UInt8.toNat_ofNat_of_lt']
  exact Nat.lt_of_lt_of_le h (by decide)

theorem gfMul_isMul : gfGenerator.IsMul (fun a b => ⟨gfMul a.val b.val⟩) where
  zero_mul b := by
    refine Gf256.ext ?_
    change gfMul 0 b.val = 0
    exact if_pos (Or.inl rfl)
  power_mul i b hi := by
    refine Gf256.ext ?_
    by_cases hb : b = 0
    · rw [hb, gfGenerator.iterate_zero]
      exact if_pos (Or.inr rfl)
    · rcases gfGenerator.exists_power hb with ⟨j, hj, rfl⟩
      have hmod : (i + j) % 255 < 255 := Nat.mod_lt _ (by decide)
      rw [gfGenerator.iterate_power, ← gfGenerator.power_mod (i + j), gfGenerator_order]
      change gfMul (gfGenerator.power i).val (gfGenerator.power j).val = _
      -- Both factors are powers, so the lookup adds their exponents.
      simp only [gfMul, power_val_ne_zero, or_self, if_false, log_tables i hi, log_tables j hj]
      exact exp_tables _ _ hmod

theorem gfDiv_power (j : Nat) (hi : i < 255) (hj : j < 255) :
    gfDiv (gfGenerator.power i).val (gfGenerator.power j).val
      = .ok (gfGenerator.power (i + (255 - j))).val := by
  have hmod : (i + 255 - j) % 255 < 255 := Nat.mod_lt _ (by decide)
  rw [gfDiv, if_neg (power_val_ne_zero j), if_neg (power_val_ne_zero i)]
  simp only [log_tables i hi, log_tables j hj]
  rw [exp_tables _ _ hmod, ← gfGenerator.power_mod (i + (255 - j)), gfGenerator_order,
    Nat.add_sub_assoc (by omega)]

namespace Gf256

/-- The inverse the program would compute by dividing 1. -/
def inv (a : Gf256) : Gf256 :=
  match gfDiv 1 a.val with
  | .ok b => ⟨b⟩
  | .error _ => 0

theorem mul_inv (a : Gf256) (ha : a ≠ 0) : (⟨gfMul a.val a.inv.val⟩ : Gf256) = ⟨1⟩ := by
  rcases gfGenerator.exists_power ha with ⟨i, hi, rfl⟩
  -- The unit is the power with exponent zero, so dividing it negates the exponent.
  have hdiv : (gfGenerator.power i).inv = gfGenerator.power (255 - i) := by
    have h := gfDiv_power 0 i (by decide) hi
    rw [Nat.zero_add] at h
    change (match gfDiv (gfGenerator.power 0).val (gfGenerator.power i).val with
      | .ok b => (⟨b⟩ : Gf256)
      | .error _ => 0) = _
    rw [h]
  rw [hdiv]
  exact gfMul_isMul.mul_power_inv (le_of_lt hi)

/-- Bytes under the table operations are a field. -/
instance : Field Gf256 := gfMul_isMul.field inv rfl mul_inv

end Gf256

theorem gfDiv_eq (a b : Gf256) :
    gfDiv a.val b.val = if b = 0 then .error .divisionByZero else .ok (a / b).val := by
  by_cases hb : b = 0
  · rw [if_pos hb, gfDiv, if_pos ((Gf256.eq_zero_iff b).mp hb)]
  rw [if_neg hb]
  by_cases ha : a = 0
  · rw [ha, zero_div, gfDiv, if_neg (fun h => hb ((Gf256.eq_zero_iff b).mpr h)), val_zero,
      if_pos rfl]
  rcases gfGenerator.exists_power ha with ⟨i, hi, rfl⟩
  rcases gfGenerator.exists_power hb with ⟨j, hj, rfl⟩
  rw [gfDiv_power i j hi hj]
  -- Multiplying the claimed quotient by the divisor completes its exponent.
  have hmul : gfGenerator.power (i + (255 - j)) * gfGenerator.power j = gfGenerator.power i := by
    have h := gfMul_isMul.mul_power (i + (255 - j)) j
    rw [gfGenerator_order] at hi hj
    have hexp : i + (255 - j) + j = i + 255 := by omega
    rw [hexp, ← gfGenerator.power_mod (i + 255), gfGenerator_order, Nat.add_mod_right,
      Nat.mod_eq_of_lt hi] at h
    exact h
  rw [← hmul, mul_div_cancel_right₀ _ (gfGenerator.power_ne_zero j)]

end Sss

end EssNode
