import Mathlib.Data.FinEnum
import Mathlib.Data.List.Destutter
import EssNode.Lib.Interpolation
import EssNode.Sss.Field

/-!
# Splitting and Reconstructing a Secret

The threshold scheme over byte arithmetic: any `k` shards give the secret back.

`split` draws `k - 1` random bytes for each byte of the secret; here they are an
argument, so a statement about every draw quantifies over it and a statement
about how likely an observation is counts its values. `reconstruct` indexes into
shards it did not check, which the source may do out of bounds. That panic is
`none`, outside the errors it returns; it takes a shard that is shorter than the
first (`reconstruct_total_iff`).

Recovery comes down to the loops computing what the field says: `polyEval` is
the value of a coefficient list (`polyEval_eq`), and the double loop of
`reconstruct` is the Lagrange combination at zero (`basisLoop_eq`,
`recoverByte_eq`).

Nothing in a shard vouches for its values, and the weights depend on the points alone. So one shard
is enough to choose what comes back (`altered_shard_decides`).
-/

namespace EssNode

open List

namespace Sss

open Interpolation Gf256
open Finset (mem_erase univ)

/-- A shard: the point it belongs to and one value per byte of the secret. -/
structure Shard where
  x : UInt8
  y : List UInt8
deriving DecidableEq, Repr

/-- Evaluate a coefficient list, constant coefficient first, keeping the
    current power of `x`. -/
def polyEval (coeffs : List UInt8) (x : UInt8) : UInt8 :=
  (coeffs.foldl (fun (acc : UInt8 × UInt8) coeff =>
    (gfAdd acc.1 (gfMul coeff acc.2), gfMul acc.2 x)) (0, 1)).1

/-- The coefficients drawn for each byte: the byte itself, then the random
    ones. -/
def allCoeffs (secret : List UInt8) (k : Nat)
    (rand : Fin secret.length → Fin (k - 1) → UInt8) : List (List UInt8) :=
  List.ofFn (fun b : Fin secret.length => secret[b] :: List.ofFn (rand b))

/-- Split a secret into `n` shards with threshold `k`, given the random bytes
    drawn for each byte of the secret. -/
def split (secret : List UInt8) (k n : Nat)
    (rand : Fin secret.length → Fin (k - 1) → UInt8) : Except SssError (List Shard) :=
  if k < 2 ∨ k > n ∨ n > 255 then .error .invalidThreshold
  else if secret.isEmpty then .error .emptySecret
  else .ok ((range' 1 (UInt8.ofNat n).toNat).map (fun i =>
    { x := UInt8.ofNat i
      y := (allCoeffs secret k rand).map (fun coeffs => polyEval coeffs (UInt8.ofNat i)) }))

/-- The duplicate check: sort the points, drop repeats, compare lengths. -/
def hasDuplicateX (shards : List Shard) : Bool :=
  let xs := shards.map Shard.x
  ((xs.mergeSort (fun a b => decide (a ≤ b))).destutter (· ≠ ·)).length != xs.length

/-- The inner loop: numerator and denominator of the basis weight of shard
    `i`. -/
def basisLoop (shards : List Shard) (i : Nat) (xi : UInt8) : UInt8 × UInt8 :=
  shards.zipIdx.foldl (fun (acc : UInt8 × UInt8) p =>
    if i = p.2 then acc
    else (gfMul acc.1 p.1.x, gfMul acc.2 (gfSub xi p.1.x))) (1, 1)

/-- What one shard adds to a byte of the secret. The index into the shard may
    be out of bounds. -/
def contribution (shards : List Shard) (byteIdx : Nat) (shard : Shard) (i : Nat) :
    ExceptT SssError Option UInt8 := do
  let yi ← ExceptT.lift (shard.y[byteIdx]?)
  let weight := basisLoop shards i shard.x
  let basis ← ExceptT.mk (some (gfDiv weight.1 weight.2))
  return gfMul yi basis

/-- The middle loop: one byte of the secret. -/
def recoverByte (shards : List Shard) (byteIdx : Nat) : ExceptT SssError Option UInt8 :=
  shards.zipIdx.foldlM (fun value p => do
    let term ← contribution shards byteIdx p.1 p.2
    return gfAdd value term) 0

/-- Rebuild a secret from shards. `none` is an out-of-bounds panic. -/
def reconstruct (shards : List Shard) : ExceptT SssError Option (List UInt8) :=
  match shards with
  | [] => throw .notEnoughShards
  | first :: _ =>
    if hasDuplicateX shards then throw .duplicateX
    else (range first.y.length).mapM (recoverByte shards)

theorem polyEval_foldl (cs : List UInt8) (x r p : Gf256) :
    (cs.foldl (fun (acc : UInt8 × UInt8) coeff =>
      (gfAdd acc.1 (gfMul coeff acc.2), gfMul acc.2 x.val)) (r.val, p.val)).1
      = (r + p * coeffSum (cs.map Gf256.mk) x).val := by
  induction cs generalizing r p with
  | nil => simp only [foldl_nil, map_nil, coeffSum, mul_zero, add_zero]
  | cons c cs ih =>
    -- One round adds the coefficient at the current power and raises the power.
    rw [foldl_cons]
    refine (ih (r + ⟨c⟩ * p) (p * x)).trans ?_
    rw [map_cons, coeffSum]
    congr 1
    ring

theorem polyEval_eq (cs : List UInt8) (x : UInt8) :
    polyEval cs x = (coeffSum (cs.map Gf256.mk) ⟨x⟩).val := by
  have h := polyEval_foldl cs ⟨x⟩ 0 1
  rw [zero_add, one_mul] at h
  exact h

variable {secret : List UInt8} {k n : Nat} {rand : Fin secret.length → Fin (k - 1) → UInt8}
  {shards : List Shard}

theorem mem_split (h : split secret k n rand = .ok shards) (s : Shard) :
    s ∈ shards ↔ s.x ≠ 0 ∧ s.x.toNat ≤ n ∧
      s.y = (allCoeffs secret k rand).map (fun coeffs => polyEval coeffs s.x) := by
  rw [split] at h
  split at h
  · cases h
  rename_i hvalid
  split at h
  · cases h
  -- The bound on `n` makes the cast to a byte lose nothing.
  have hn : (UInt8.ofNat n).toNat = n := UInt8.toNat_ofNat_of_lt' (by
    have hlt : n < 256 := by omega
    exact hlt)
  rw [hn] at h
  rw [← Except.ok.inj h, mem_map]
  constructor
  · rintro ⟨i, hi, rfl⟩
    rw [mem_range'] at hi
    rcases hi with ⟨j, hj, rfl⟩
    have hto : (UInt8.ofNat (1 + 1 * j)).toNat = 1 + 1 * j := UInt8.toNat_ofNat_of_lt' (by
      have hlt : 1 + 1 * j < 256 := by omega
      exact hlt)
    refine ⟨fun hzero => ?_, ?_, rfl⟩
    · have hval := congrArg UInt8.toNat hzero
      rw [hto, UInt8.toNat_zero] at hval
      omega
    · rw [hto]
      omega
  · rintro ⟨hx, hle, hy⟩
    have hpos : 0 < s.x.toNat := by
      refine Nat.pos_of_ne_zero (fun hzero => hx (UInt8.toNat_inj.mp ?_))
      rw [hzero, UInt8.toNat_zero]
    refine ⟨s.x.toNat, mem_range'.mpr ⟨s.x.toNat - 1, by omega, by omega⟩, ?_⟩
    rw [UInt8.ofNat_toNat, ← hy]

theorem split_eq_ok_iff (secret : List UInt8) (k n : Nat)
    (rand : Fin secret.length → Fin (k - 1) → UInt8) :
    (∃ shards, split secret k n rand = .ok shards) ↔
      secret ≠ [] ∧ 2 ≤ k ∧ k ≤ n ∧ n ≤ 255 := by
  rw [split]
  by_cases hparams : k < 2 ∨ k > n ∨ n > 255
  · rw [if_pos hparams]
    constructor
    · rintro ⟨shards, h⟩
      cases h
    · rintro ⟨-, hk, hkn, hn⟩
      omega
  · rw [if_neg hparams]
    by_cases hempty : secret = []
    · rw [if_pos (List.isEmpty_iff.mpr hempty)]
      constructor
      · rintro ⟨shards, h⟩
        cases h
      · exact fun h => absurd hempty h.1
    · rw [if_neg (by rwa [List.isEmpty_iff])]
      exact ⟨fun _ => ⟨hempty, by omega, by omega, by omega⟩, fun _ => ⟨_, rfl⟩⟩

theorem hasDuplicateX_iff (shards : List Shard) :
    hasDuplicateX shards = true ↔ ¬ (shards.map Shard.x).Nodup := by
  set xs := shards.map Shard.x with hxs
  have hsorted : (xs.mergeSort (fun a b => decide (a ≤ b))).Pairwise (· ≤ ·) := by
    have h : (xs.mergeSort (fun a b => decide (a ≤ b))).Pairwise (fun a b => decide (a ≤ b)) :=
      pairwise_mergeSort
        (fun a b c hab hbc => by
          rw [decide_eq_true_eq] at hab hbc ⊢
          exact UInt8.le_trans hab hbc)
        (fun a b => by
          rw [Bool.or_eq_true, decide_eq_true_eq, decide_eq_true_eq]
          exact UInt8.le_total a b) xs
    simpa only [decide_eq_true_eq] using h
  -- On a sorted list dropping repeats drops all duplicates.
  have hperm := mergeSort_perm xs (fun a b => decide (a ≤ b))
  simp only [hasDuplicateX, ← hxs, bne_iff_ne, ne_eq]
  rw [hsorted.destutter_eq_dedup, ← hperm.length_eq, ← hperm.nodup_iff, not_iff_not,
    ← dedup_eq_self]
  exact ⟨fun h => (dedup_sublist _).eq_of_length h, fun h => congrArg length h⟩

theorem zipIdx_map_eq_ofFn {α β : Type*} (l : List α) (f : α × Nat → β) :
    l.zipIdx.map f = List.ofFn (fun i : Fin l.length => f (l[i], i.val)) := by
  refine ext_getElem (by simp only [length_map, length_zipIdx, length_ofFn]) ?_
  intro i h₁ h₂
  simp only [List.getElem_map, List.getElem_zipIdx, List.getElem_ofFn, Nat.zero_add,
    Fin.getElem_fin]

/-- The inner loop multiplies numerator and denominator by one factor per
    shard, which is 1 for the shard itself. -/
theorem basisLoop_foldl (i : Nat) (xi : UInt8) (ps : List (Shard × Nat)) (acc : Gf256 × Gf256) :
    ps.foldl (fun (acc : UInt8 × UInt8) p =>
        if i = p.2 then acc else (gfMul acc.1 p.1.x, gfMul acc.2 (gfSub xi p.1.x)))
        (acc.1.val, acc.2.val)
      = Prod.map Gf256.val Gf256.val (acc * (ps.map (fun p => if i = p.2 then (1 : Gf256 × Gf256)
          else (⟨p.1.x⟩, ⟨xi⟩ - ⟨p.1.x⟩))).prod) := by
  induction ps generalizing acc with
  | nil =>
    rw [foldl_nil, map_nil, prod_nil, mul_one]
    rfl
  | cons p ps ih =>
    rw [foldl_cons, map_cons, prod_cons, ← mul_assoc, ← ih]
    congr 1
    by_cases hp : i = p.2
    · rw [if_pos hp, if_pos hp, mul_one]
    · rw [if_neg hp, if_neg hp]
      rfl

theorem basisLoop_eq (shards : List Shard) (i : Fin shards.length) :
    basisLoop shards i.val shards[i].x
      = ((∏ j ∈ univ.erase i, (⟨shards[j].x⟩ : Gf256)).val,
         (∏ j ∈ univ.erase i, ((⟨shards[i].x⟩ : Gf256) - ⟨shards[j].x⟩)).val) := by
  have hloop := basisLoop_foldl i.val shards[i].x shards.zipIdx 1
  rw [one_mul, zipIdx_map_eq_ofFn, prod_ofFn] at hloop
  refine hloop.trans ?_
  -- The loop skips the shard itself, which is a factor of one.
  have hskip : ∀ j ∈ univ, j ∉ univ.erase i →
      (if i.val = j.val then (1 : Gf256 × Gf256)
        else (⟨shards[j].x⟩, ⟨shards[i].x⟩ - ⟨shards[j].x⟩)) = 1 := by
    intro j _ hj
    rw [mem_erase, not_and_or] at hj
    rcases hj with hj | hj
    · rw [if_pos (congrArg Fin.val (not_not.mp hj).symm)]
    · exact absurd (Finset.mem_univ j) hj
  rw [← Finset.prod_subset (Finset.erase_subset i univ) hskip]
  have hother : ∀ j ∈ univ.erase i,
      (if i.val = j.val then (1 : Gf256 × Gf256)
        else (⟨shards[j].x⟩, ⟨shards[i].x⟩ - ⟨shards[j].x⟩))
        = (⟨shards[j].x⟩, ⟨shards[i].x⟩ - ⟨shards[j].x⟩) := by
    intro j hj
    rw [if_neg (fun h => (mem_erase.mp hj).1 (Fin.ext h.symm))]
  rw [Finset.prod_congr rfl hother, Prod.map, Prod.fst_prod, Prod.snd_prod]

theorem points_injective (shards : List Shard) (hxs : (shards.map Shard.x).Nodup) :
    Function.Injective (fun i : Fin shards.length => (⟨shards[i].x⟩ : Gf256)) := by
  intro i j hij
  have hx : shards[i].x = shards[j].x := congrArg Gf256.val hij
  have hi : i.val < (shards.map Shard.x).length := by simp only [length_map, i.isLt]
  have hj : j.val < (shards.map Shard.x).length := by simp only [length_map, j.isLt]
  have hmap : (shards.map Shard.x)[i.val] = (shards.map Shard.x)[j.val] := by
    rw [List.getElem_map, List.getElem_map]
    exact hx
  exact Fin.ext (hxs.getElem_inj_iff.mp hmap)

/-- The basis weight of shard `i` at zero. -/
def lagrangeWeight (shards : List Shard) (i : Fin shards.length) : Gf256 :=
  (∏ j ∈ univ.erase i, (0 - (⟨shards[j].x⟩ : Gf256)))
    / ∏ j ∈ univ.erase i, ((⟨shards[i].x⟩ : Gf256) - ⟨shards[j].x⟩)

theorem contribution_eq (shards : List Shard) (byteIdx : Nat) (y : Gf256) (i : Fin shards.length)
    (hxs : (shards.map Shard.x).Nodup)
    (hy : shards[i].y[byteIdx]? = some y.val) :
    contribution shards byteIdx shards[i] i.val = pure (y * lagrangeWeight shards i).val := by
  -- No difference of points vanishes, so the division succeeds.
  have hden : (∏ j ∈ univ.erase i, ((⟨shards[i].x⟩ : Gf256) - ⟨shards[j].x⟩)) ≠ 0 := by
    refine Finset.prod_ne_zero_iff.mpr (fun j hj hzero => (mem_erase.mp hj).1 ?_)
    exact (points_injective shards hxs (sub_eq_zero.mp hzero)).symm
  have hdiv := gfDiv_eq (∏ j ∈ univ.erase i, (⟨shards[j].x⟩ : Gf256))
    (∏ j ∈ univ.erase i, ((⟨shards[i].x⟩ : Gf256) - ⟨shards[j].x⟩))
  rw [if_neg hden] at hdiv
  -- Subtracting from zero changes nothing in characteristic two.
  have hneg : ∀ a : Gf256, 0 - a = a := fun a => by rw [Gf256.sub_eq_add, zero_add]
  simp only [contribution, hy, basisLoop_eq, hdiv, lagrangeWeight, hneg]
  rfl

theorem foldlM_gfAdd (ps : List (Shard × Nat)) (f : Shard × Nat → ExceptT SssError Option UInt8)
    (t : Shard × Nat → Gf256) (h : ∀ p ∈ ps, f p = pure (t p).val) (v : Gf256) :
    ps.foldlM (fun value p => do
      let term ← f p
      return gfAdd value term) v.val = pure (v + (ps.map t).sum).val := by
  induction ps generalizing v with
  | nil => simp only [foldlM_nil, map_nil, sum_nil, add_zero]
  | cons p ps ih =>
    rw [foldlM_cons, h p mem_cons_self, pure_bind, pure_bind, map_cons,
      sum_cons, ← add_assoc]
    exact ih (fun q hq => h q (mem_cons_of_mem _ hq)) (v + t p)

theorem recoverByte_eq (shards : List Shard) (byteIdx : Nat) (y : Fin shards.length → Gf256)
    (hxs : (shards.map Shard.x).Nodup)
    (hy : ∀ i : Fin shards.length, shards[i].y[byteIdx]? = some (y i).val) :
    recoverByte shards byteIdx = pure (∑ i, y i * lagrangeWeight shards i).val := by
  -- The term of a position; positions outside the list do not occur.
  set t : Shard × Nat → Gf256 := fun p =>
    if hp : p.2 < shards.length then y ⟨p.2, hp⟩ * lagrangeWeight shards ⟨p.2, hp⟩ else 0 with ht
  have hterms : ∀ p ∈ shards.zipIdx, contribution shards byteIdx p.1 p.2 = pure (t p).val := by
    intro p hp
    rcases mem_zipIdx' hp with ⟨hlt, hget⟩
    rw [hget, ht]
    simp only [dif_pos hlt]
    exact contribution_eq shards byteIdx (y ⟨p.2, hlt⟩) ⟨p.2, hlt⟩ hxs (hy ⟨p.2, hlt⟩)
  have hfold := foldlM_gfAdd shards.zipIdx (fun p => contribution shards byteIdx p.1 p.2) t hterms 0
  refine hfold.trans ?_
  rw [zero_add, zipIdx_map_eq_ofFn, sum_ofFn]
  congr 2
  refine Finset.sum_congr rfl (fun i _ => ?_)
  rw [ht]
  simp only [dif_pos i.isLt]

theorem mapM_eq_pure (l : List Nat) (f : Nat → ExceptT SssError Option UInt8) (g : Nat → UInt8)
    (h : ∀ b ∈ l, f b = pure (g b)) : l.mapM f = pure (l.map g) := by
  induction l with
  | nil => rw [mapM_nil, map_nil]
  | cons b l ih =>
    rw [mapM_cons, h b mem_cons_self, pure_bind,
      ih (fun c hc => h c (mem_cons_of_mem _ hc)), pure_bind, map_cons]

theorem getElem?_split_y (h : split secret k n rand = .ok shards) {s : Shard} (hs : s ∈ shards)
    (b : Fin secret.length) :
    s.y[b.val]? = some (polyEval (secret[b] :: List.ofFn (rand b)) s.x) := by
  rw [((mem_split h s).mp hs).2.2, List.getElem?_map, allCoeffs, List.getElem?_ofFn,
    dif_pos b.isLt, Option.map_some]

theorem length_split_y (h : split secret k n rand = .ok shards) {s : Shard} (hs : s ∈ shards) :
    s.y.length = secret.length := by
  rw [((mem_split h s).mp hs).2.2, length_map, allCoeffs, length_ofFn]

theorem nodup_split_x {sub : List Shard} (h : split secret k n rand = .ok shards)
    (hsub : sub ⊆ shards) (hnodup : sub.Nodup) :
    (sub.map Shard.x).Nodup := by
  -- The point determines the values, so equal points make equal shards.
  refine hnodup.map_on (fun s hs s' hs' hx => ?_)
  have hy := ((mem_split h s).mp (hsub hs)).2.2
  have hy' := ((mem_split h s').mp (hsub hs')).2.2
  rw [← hx, ← hy] at hy'
  cases s
  cases s'
  exact congrArg₂ Shard.mk hx hy'.symm

/-- One byte comes back from `k` shards: its polynomial has degree below
    `k`. -/
theorem recoverByte_split {sub : List Shard} (h : split secret k n rand = .ok shards) (hk : 2 ≤ k)
    (hsub : sub ⊆ shards)
    (hnodup : sub.Nodup) (hlen : k ≤ sub.length) (b : Fin secret.length) :
    recoverByte sub b.val = pure secret[b] := by
  set coeffs := (secret[b] :: List.ofFn (rand b)).map Gf256.mk with hcoeffs
  have hxs := nodup_split_x h hsub hnodup
  have hy : ∀ i : Fin sub.length, sub[i].y[b.val]?
      = some ((listPoly coeffs).eval (⟨sub[i].x⟩ : Gf256)).val := by
    intro i
    rw [eval_listPoly, hcoeffs, ← polyEval_eq]
    exact getElem?_split_y h (hsub (getElem_mem i.isLt)) b
  -- There are `k` coefficients and at least as many points.
  have hdeg : (listPoly coeffs).degree < sub.length := by
    refine lt_of_lt_of_le (degree_listPoly_lt coeffs) ?_
    have hle : coeffs.length ≤ sub.length := by
      rw [hcoeffs, length_map, length_cons, length_ofFn]
      omega
    exact_mod_cast hle
  have hlagrange := eval_zero_eq_lagrange _ (points_injective sub hxs) _ hdeg
  rw [eval_listPoly, hcoeffs, map_cons, coeffSum, zero_mul, add_zero] at hlagrange
  rw [recoverByte_eq sub b.val _ hxs hy]
  exact congrArg (fun a : Gf256 => pure a.val) hlagrange.symm

/-- Any `k` or more distinct shards of a split, in any order, give the secret
    back, whatever bytes were drawn. -/
theorem reconstruct_split (secret : List UInt8) (k n : Nat)
    (rand : Fin secret.length → Fin (k - 1) → UInt8) (hsecret : secret ≠ []) (hk : 2 ≤ k)
    (hkn : k ≤ n) (hn : n ≤ 255) :
    ∃ shards, split secret k n rand = .ok shards ∧
      ∀ sub : List Shard, sub.Nodup → sub ⊆ shards → k ≤ sub.length →
        (reconstruct sub).run = some (.ok secret) := by
  rcases (split_eq_ok_iff secret k n rand).mpr ⟨hsecret, hk, hkn, hn⟩ with ⟨shards, hsplit⟩
  refine ⟨shards, hsplit, fun sub hnodup hsub hlen => ?_⟩
  cases sub with
  | nil =>
    rw [length_nil] at hlen
    omega
  | cons first rest =>
    -- The check passes and every round of the outer loop recovers its byte.
    have hdup : hasDuplicateX (first :: rest) = false := by
      rw [← Bool.not_eq_true, hasDuplicateX_iff, not_not]
      exact nodup_split_x hsplit hsub hnodup
    have hbytes : ∀ b ∈ range first.y.length,
        recoverByte (first :: rest) b = pure ((secret[b]?).getD 0) := by
      intro b hb
      rw [mem_range, length_split_y hsplit (hsub mem_cons_self)] at hb
      rw [recoverByte_split hsplit hk hsub hnodup hlen ⟨b, hb⟩,
        getElem?_eq_getElem hb]
      rfl
    have hmap : (range secret.length).map (fun b => (secret[b]?).getD 0) = secret := by
      refine ext_getElem (by rw [length_map, length_range]) ?_
      intro b h₁ h₂
      rw [List.getElem_map, getElem_range, getElem?_eq_getElem h₂, Option.getD_some]
    rw [reconstruct, hdup, if_neg (by decide), mapM_eq_pure _ _ _ hbytes,
      length_split_y hsplit (hsub mem_cons_self), hmap]
    rfl

/-- Three shards of a one-byte secret, two of which suffice in either order. -/
theorem reconstruct_split_two_of_three :
    ∃ shards, split [42] 2 3 (fun _ _ => 7) = .ok shards ∧
      (reconstruct (shards.take 2).reverse).run = some (.ok [42]) := by
  rcases reconstruct_split [42] 2 3 (fun _ _ => 7) (by decide) (by decide) (by decide)
    (by decide) with ⟨shards, hsplit, hall⟩
  refine ⟨shards, hsplit, hall _ ?_ ?_ ?_⟩
  · rw [← Except.ok.inj hsplit]
    refine nodup_reverse.mpr ?_
    exact List.Nodup.of_map Shard.x (by decide)
  · exact fun s hs => mem_of_mem_take (mem_reverse.mp hs)
  · rw [← Except.ok.inj hsplit]
    decide

/-! ### One altered shard -/

/-- The weights belong to the points: the values of the shards do not enter. -/
theorem recoverByte_points {m b : Nat} (hxs : (shards.map Shard.x).Nodup)
    (hm : shards.length = m) (x y : Fin m → Gf256)
    (h : ∀ j : Fin m, shards[j.val]?.map Shard.x = some (x j).val ∧
      shards[j.val]?.bind (·.y[b]?) = some (y j).val) :
    recoverByte shards b = pure (∑ j, y j * ((∏ i ∈ univ.erase j, (0 - x i))
      / ∏ i ∈ univ.erase j, (x j - x i))).val := by
  subst hm
  simp only [Fin.is_lt, getElem?_eq_getElem, Option.map_some, Option.some.injEq,
    Option.bind_some] at h
  obtain rfl : (fun j => ⟨shards[j].x⟩) = x := funext fun j => congrArg Gf256.mk (h j).1
  exact recoverByte_eq shards b y hxs (fun j => (h j).2)

/-- Byte `b` of a shard, in the field. -/
def Shard.byteAt (s : Shard) (b : Nat) : Gf256 := ⟨(s.y[b]?).getD 0⟩

/-- What comes back with other values in a shard. -/
def altered (i : Fin shards.length) {m : Nat} (y : Fin m → UInt8) (b : Fin m) : UInt8 :=
  (⟨y b⟩ * lagrangeWeight shards i
    + ∑ j ∈ univ.erase i, shards[j].byteAt b * lagrangeWeight shards j).val

theorem map_x_set (i : Fin shards.length) (y : List UInt8) :
    (shards.set i ⟨shards[i].x, y⟩).map Shard.x = shards.map Shard.x := by
  refine ext_getElem? (fun j => ?_)
  by_cases hij : i.val = j
  · subst hij
    simp
  · simp [hij]

section Altered

variable {m : Nat} (hxs : (shards.map Shard.x).Nodup) (hlen : ∀ s ∈ shards, s.y.length = m)
  (i : Fin shards.length)

include hxs hlen

theorem recoverByte_set (y : Fin m → UInt8) (b : Fin m) :
    recoverByte (shards.set i ⟨shards[i].x, ofFn y⟩) b = pure (altered i y b) := by
  refine (recoverByte_points (by rwa [map_x_set]) length_set (fun j => ⟨shards[j].x⟩)
    (Function.update (fun j => shards[j].byteAt b) i ⟨y b⟩) (fun j => ?_)).trans ?_
  · by_cases hji : j = i
    · subst hji
      simp
    · have hb : b.val < shards[j.val].y.length := by
        rw [hlen _ (getElem_mem j.isLt)]
        exact b.isLt
      simp [Fin.val_ne_of_ne (Ne.symm hji), hji, Shard.byteAt, hb]
  · -- Only the term of the altered shard is another one.
    rw [← Finset.add_sum_erase _ _ (Finset.mem_univ i), Function.update_self,
      Finset.sum_congr rfl fun j hj => by rw [Function.update_of_ne (Finset.ne_of_mem_erase hj)]]
    rfl

theorem reconstruct_set (y : Fin m → UInt8) :
    (reconstruct (shards.set i ⟨shards[i].x, ofFn y⟩)).run
      = some (.ok (ofFn (altered i y))) := by
  have hset : ∀ s ∈ shards.set i ⟨shards[i].x, ofFn y⟩, s.y.length = m := by
    intro s hs
    rcases mem_or_eq_of_mem_set hs with hs | rfl
    · exact hlen s hs
    · exact length_ofFn
  have hmap := map_x_set i (ofFn y)
  have hbyte := recoverByte_set hxs hlen i y
  obtain ⟨first, rest, hcons⟩ := exists_cons_of_length_pos (l := shards.set i ⟨shards[i].x, ofFn y⟩)
    (by rw [length_set]; exact i.pos)
  rw [hcons] at hmap hbyte hset ⊢
  have hdup : ¬ hasDuplicateX (first :: rest) = true := by
    rwa [hasDuplicateX_iff, not_not, hmap]
  have hrange : ∀ b ∈ range m,
      recoverByte (first :: rest) b = pure (((ofFn (altered i y))[b]?).getD 0) := by
    intro b hb
    simpa [mem_range.mp hb] using hbyte ⟨b, mem_range.mp hb⟩
  rw [reconstruct, if_neg hdup, hset first mem_cons_self, mapM_eq_pure _ _ _ hrange]
  refine congrArg (fun l => some (Except.ok l)) (ext_getElem (by simp) fun b h₁ h₂ => ?_)
  rw [length_ofFn] at h₂
  simp [h₂]

/-- Whoever holds one of the shards that are put together decides what comes out: for every text
    there is exactly one list of values for the shard with which reconstruction returns it. -/
theorem altered_shard_decides (hnz : ∀ s ∈ shards, s.x ≠ 0) (out : Fin m → UInt8) :
    ∃! y : Fin m → UInt8,
      (reconstruct (shards.set i ⟨shards[i].x, ofFn y⟩)).run = some (.ok (ofFn out)) := by
  have hweight : lagrangeWeight shards i ≠ 0 := by
    refine div_ne_zero ?_ ?_ <;> refine Finset.prod_ne_zero_iff.mpr (fun j hj hzero => ?_)
    · exact hnz _ (getElem_mem j.isLt) (congrArg Gf256.val (sub_eq_zero.mp hzero).symm)
    · exact (mem_erase.mp hj).1 (points_injective shards hxs (sub_eq_zero.mp hzero)).symm
  -- The other shards add the same, so two lists of values give the same only if they are equal.
  have hinjective : Function.Injective (@altered shards i m) := by
    intro y y' h
    funext b
    have hsums := congrArg Gf256.mk (congrFun h b)
    exact congrArg Gf256.val (mul_right_cancel₀ hweight (add_right_cancel hsums))
  simp only [reconstruct_set hxs hlen, Option.some.injEq, Except.ok.injEq, ofFn_inj]
  exact (Finite.injective_iff_bijective.mp hinjective).existsUnique out

end Altered

/-- The first of two shards of one byte, and the text `B`. -/
theorem altered_first_of_two :
    ∃! y : Fin 1 → UInt8, (reconstruct [⟨1, ofFn y⟩, ⟨2, [36]⟩]).run = some (.ok [66]) :=
  @altered_shard_decides [⟨1, [45]⟩, ⟨2, [36]⟩] 1 (by decide) (by decide) 0 (by decide) fun _ => 66

/-! ### Shards from anywhere -/

theorem contribution_short {byteIdx : Nat} {shard : Shard} (h : shard.y.length ≤ byteIdx)
    (i : Nat) : contribution shards byteIdx shard i = ExceptT.mk none := by
  rw [contribution, getElem?_eq_none h]
  rfl

theorem foldlM_panics {α β : Type} {f : β → α → ExceptT SssError Option β} {l : List α}
    (h : ∀ b, ∀ a ∈ l, f b a = ExceptT.mk none ∨ ∃ b', f b a = pure b')
    (hpanic : ∃ a ∈ l, ∀ b, f b a = ExceptT.mk none) (b : β) :
    l.foldlM f b = ExceptT.mk none := by
  induction l generalizing b with
  | nil =>
    obtain ⟨a, ha, -⟩ := hpanic
    exact absurd ha not_mem_nil
  | cons a l ih =>
    rw [foldlM_cons]
    rcases h b a mem_cons_self with hnone | ⟨b', hpure⟩
    · rw [hnone]
      rfl
    · rw [hpure, pure_bind]
      refine ih (fun b c hc => h b c (mem_cons_of_mem _ hc)) ?_ b'
      obtain ⟨c, hc, hnone⟩ := hpanic
      rcases mem_cons.mp hc with rfl | hc
      · exact absurd (hnone b) (by rw [hpure]; exact fun h => Option.some_ne_none _ h)
      · exact ⟨c, hc, hnone⟩

theorem recoverByte_cases (hxs : (shards.map Shard.x).Nodup) (byteIdx : Nat) :
    ((∀ s ∈ shards, byteIdx < s.y.length) ∧ ∃ v, recoverByte shards byteIdx = pure v) ∨
      (∃ s ∈ shards, s.y.length ≤ byteIdx) ∧ recoverByte shards byteIdx = ExceptT.mk none := by
  by_cases hlong : ∀ s ∈ shards, byteIdx < s.y.length
  · refine Or.inl ⟨hlong, _, recoverByte_eq shards byteIdx
      (fun i => ⟨(shards[i].y[byteIdx]?).getD 0⟩) hxs fun i => ?_⟩
    have hin : byteIdx < shards[i].y.length := hlong _ (getElem_mem i.isLt)
    rw [getElem?_eq_getElem hin]
    rfl
  · push Not at hlong
    refine Or.inr ⟨hlong, foldlM_panics (fun value p hp => ?_) ?_ 0⟩
    · obtain ⟨hlt, hget⟩ := mem_zipIdx' hp
      rcases Nat.lt_or_ge byteIdx p.1.y.length with hin | hshort
      · right
        refine ⟨gfAdd value (⟨p.1.y[byteIdx]⟩ * lagrangeWeight shards ⟨p.2, hlt⟩ : Gf256).val, ?_⟩
        have hterm := contribution_eq shards byteIdx ⟨p.1.y[byteIdx]⟩ ⟨p.2, hlt⟩ hxs
          (by simp only [Fin.getElem_fin, ← hget, getElem?_eq_getElem hin])
        simp only [Fin.getElem_fin, ← hget] at hterm
        rw [hterm, pure_bind]
      · left
        rw [contribution_short hshort]
        rfl
    · obtain ⟨s, hs, hshort⟩ := hlong
      obtain ⟨i, hi, rfl⟩ := getElem_of_mem hs
      refine ⟨(shards[i], i), mem_zipIdx_iff_getElem?.mpr (by simp [hi]), fun value => ?_⟩
      rw [contribution_short hshort]
      rfl

/-- No shard is shorter than the first, if it comes to that: points that occur twice are found
    before. -/
def Readable (shards : List Shard) : Prop :=
  (shards.map Shard.x).Nodup →
    ∀ first ∈ shards.head?, ∀ s ∈ shards, first.y.length ≤ s.y.length

theorem reconstruct_cases (shards : List Shard) :
    (Readable shards ∧ ((∃ secret, (reconstruct shards).run = some (.ok secret)) ∨
      (reconstruct shards).run = some (.error .notEnoughShards) ∨
      (reconstruct shards).run = some (.error .duplicateX))) ∨
    (¬ Readable shards ∧ (reconstruct shards).run = none) := by
  cases shards with
  | nil => exact Or.inl ⟨fun _ _ h => absurd h (by simp), Or.inr (Or.inl rfl)⟩
  | cons first rest =>
    by_cases hdup : hasDuplicateX (first :: rest) = true
    · refine Or.inl ⟨fun hnodup => absurd hnodup ((hasDuplicateX_iff _).mp hdup), ?_⟩
      rw [reconstruct, if_pos hdup]
      exact Or.inr (Or.inr rfl)
    have hxs : ((first :: rest).map Shard.x).Nodup := by
      rwa [hasDuplicateX_iff, not_not] at hdup
    rw [reconstruct, if_neg hdup]
    by_cases hshort : ∃ s ∈ first :: rest, s.y.length < first.y.length
    · obtain ⟨s, hs, hlt⟩ := hshort
      refine Or.inr ⟨fun h => Nat.not_le.mpr hlt (h hxs first rfl s hs), ?_⟩
      -- The byte behind the end of the short shard stops the loop.
      rw [mapM_eq_reverse_foldlM_cons, foldlM_panics]
      · rfl
      · intro acc b _
        rcases recoverByte_cases hxs b with ⟨-, v, hv⟩ | ⟨-, hnone⟩
        · exact Or.inr ⟨v :: acc, by rw [hv, map_pure]⟩
        · exact Or.inl (by rw [hnone]; rfl)
      · refine ⟨s.y.length, mem_range.mpr hlt, fun acc => ?_⟩
        rcases recoverByte_cases hxs s.y.length with ⟨hlong, -⟩ | ⟨-, hnone⟩
        · exact absurd (hlong s hs) (Nat.lt_irrefl _)
        · rw [hnone]
          rfl
    · push Not at hshort
      refine Or.inl ⟨fun _ f hf s hs => ?_, Or.inl ?_⟩
      · obtain rfl := Option.some.inj hf
        exact hshort s hs
      have hbytes : ∀ b ∈ range first.y.length,
          ∃ v, recoverByte (first :: rest) b = pure v := by
        intro b hb
        rcases recoverByte_cases hxs b with ⟨-, hv⟩ | ⟨⟨s, hs, hle⟩, -⟩
        · exact hv
        · have hfirst := hshort s hs
          rw [mem_range] at hb
          omega
      choose! value hvalue using hbytes
      rw [mapM_eq_pure _ _ _ hvalue]
      exact ⟨_, rfl⟩

/-- Why there is no shard to be had from a file. -/
inductive ShardFileError where
  | notFound (message : String)
  | io (message : String)
  | json (message : String)
deriving DecidableEq, Repr

/-- The shard in a file. No file is `none`, and one that cannot be read an error. -/
def loadShard (files : String → Option (Except String (List UInt8)))
    (fromJson : List UInt8 → Except String Shard) (path : String) : Except ShardFileError Shard :=
  match files path with
  | none => .error (.notFound ("Shard file not found: " ++ path))
  | some (.error e) => .error (.io e)
  | some (.ok data) => (fromJson data).mapError .json

def reconstructFromFiles (files : String → Option (Except String (List UInt8)))
    (fromJson : List UInt8 → Except String Shard) (paths : List String) :
    Option (Except (ShardFileError ⊕ SssError) (List UInt8)) :=
  match paths.mapM (loadShard files fromJson) with
  | .error e => some (.error (.inl e))
  | .ok shards => (reconstruct shards).run.map (·.mapError .inr)

/-- Reconstruction returns exactly if no shard is shorter than the first, and it never divides by
    zero. From files the same holds of the shards in them, if all can be read. -/
theorem reconstruct_total_iff (shards : List Shard)
    (files : String → Option (Except String (List UInt8)))
    (fromJson : List UInt8 → Except String Shard) (paths : List String) :
    (((reconstruct shards).run ≠ none ↔ Readable shards) ∧
      (reconstruct shards).run ≠ some (.error .divisionByZero)) ∧
    (reconstructFromFiles files fromJson paths ≠ none ↔
      ∀ shards, paths.mapM (loadShard files fromJson) = .ok shards → Readable shards) ∧
    reconstructFromFiles files fromJson paths ≠ some (.error (.inr .divisionByZero)) := by
  refine ⟨?_, ?_⟩
  · rcases reconstruct_cases shards with ⟨h, ⟨secret, hrun⟩ | hrun | hrun⟩ | ⟨h, hrun⟩ <;>
      simp [hrun, h]
  · unfold reconstructFromFiles
    cases hload : paths.mapM (loadShard files fromJson) with
    | error e => simp
    | ok shards =>
      rcases reconstruct_cases shards with ⟨h, ⟨secret, hrun⟩ | hrun | hrun⟩ | ⟨h, hrun⟩ <;>
        simp [hrun, h, Except.mapError]

/-- A shard of one byte beside one of two. -/
theorem short_shard_panics : (reconstruct [⟨1, [5, 6]⟩, ⟨2, [7]⟩]).run = none := by
  rcases reconstruct_cases [⟨1, [5, 6]⟩, ⟨2, [7]⟩] with ⟨h, -⟩ | ⟨-, hrun⟩
  · exact absurd (h (by decide) _ rfl ⟨2, [7]⟩ (by decide)) (by decide)
  · exact hrun

end Sss

end EssNode
