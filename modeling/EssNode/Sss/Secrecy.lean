import EssNode.Sss.Scheme

/-!
# What Fewer Shards Reveal

Below the threshold, an observation fits every secret equally often.

The random bytes of a split are drawn uniformly, so how likely an observation
is under a secret is how many draws produce it. `consistent` collects those
draws and `card_consistent` counts them. The count depends on the observation
and on the length of the secret, never on its bytes, and one shard short of
the threshold there is a single draw for each byte.

A draw that fits is one that fits byte by byte (`consistent_eq_pi`), and for
one byte the count is the library's count of coefficient tails.
-/

namespace EssNode

open List

namespace Sss

open Interpolation

/-- The draws for a byte `a` under which its polynomial takes the values `v` at
    the points `xs`. -/
def byteDraws (a : UInt8) (k : Nat) (xs : Finset UInt8) (v : UInt8 → UInt8) :
    Finset (Fin (k - 1) → UInt8) :=
  Finset.univ.filter (fun c => ∀ x ∈ xs, polyEval (a :: ofFn c) x = v x)

variable (a : UInt8) (secret : List UInt8) (k n : Nat) (xs : Finset UInt8) (v : UInt8 → UInt8)
  (values : UInt8 → List UInt8)

theorem mem_byteDraws (c : Fin (k - 1) → UInt8) :
    c ∈ byteDraws a k xs v ↔ ∀ x ∈ xs, polyEval (a :: ofFn c) x = v x := by
  rw [byteDraws, Finset.mem_filter]
  exact ⟨fun h => h.2, fun h => ⟨Finset.mem_univ _, h⟩⟩

/-- Whether a split succeeded with every observed shard among its result. -/
def observes (result : Except SssError (List Shard)) (xs : Finset UInt8)
    (values : UInt8 → List UInt8) : Bool :=
  match result with
  | .ok shards => decide (∀ x ∈ xs, { x := x, y := values x } ∈ shards)
  | .error _ => false

/-- The draws with which splitting the secret yields every observed shard. -/
def consistent (secret : List UInt8) (k n : Nat) (xs : Finset UInt8)
    (values : UInt8 → List UInt8) : Finset (Fin secret.length → Fin (k - 1) → UInt8) :=
  Finset.univ.filter (fun rand => observes (split secret k n rand) xs values = true)

/-- The value observed at point `x` for byte `b`. -/
def observedByte (values : UInt8 → List UInt8) (b : Nat) (x : UInt8) : UInt8 :=
  ((values x)[b]?).getD 0

/-- The parameters are those of a split that succeeds on secrets of length
    `len`, the observed points are among its points, and each observed shard
    has one value per byte. -/
structure Observable (len k n : Nat) (xs : Finset UInt8) (values : UInt8 → List UInt8) : Prop where
  nonempty : len ≠ 0
  threshold : 2 ≤ k ∧ k ≤ n ∧ n ≤ 255
  point : ∀ x ∈ xs, x ≠ 0 ∧ x.toNat ≤ n
  length : ∀ x ∈ xs, (values x).length = len

/-- Bytes as field elements. -/
def byteEquiv : UInt8 ≃ Gf256 where
  toFun := Gf256.mk
  invFun := Gf256.val
  left_inv _ := rfl
  right_inv _ := rfl

/-- The draws for one byte that fit below the threshold: as many as there are
    bytes for each coefficient left undetermined, whatever the byte. -/
theorem card_byteDraws (hxs : ∀ x ∈ xs, x ≠ 0) (hcard : xs.card ≤ k - 1) :
    (byteDraws a k xs v).card = 256 ^ (k - 1 - xs.card) := by
  set point : Fin xs.card → UInt8 := fun i => (xs.equivFin.symm i).val with hpoint
  have hinj : Function.Injective (fun i => (⟨point i⟩ : Gf256)) := by
    intro i j hij
    exact xs.equivFin.symm.injective (Subtype.ext (congrArg Gf256.val hij))
  have hnz : ∀ i, (⟨point i⟩ : Gf256) ≠ 0 := fun i hzero =>
    hxs _ (xs.equivFin.symm i).property (congrArg Gf256.val hzero)
  -- The draws are coefficient tails, read as field elements.
  rw [← Gf256.card_eq, ← card_tails hcard _ hinj hnz ⟨a⟩ (fun i => ⟨v (point i)⟩)]
  refine Finset.card_equiv (Equiv.piCongrRight (fun _ => byteEquiv)) (fun c => ?_)
  have hmap : (a :: ofFn c).map Gf256.mk
      = (⟨a⟩ : Gf256) :: ofFn (Equiv.piCongrRight (fun _ => byteEquiv) c) := by
    rw [map_cons, map_ofFn]
    rfl
  simp only [mem_byteDraws, Finset.mem_filter, Finset.mem_univ, true_and, polyEval_eq, hmap]
  constructor
  · exact fun h i => Gf256.ext (h (point i) (xs.equivFin.symm i).property)
  · intro h x hx
    have hi := h (xs.equivFin ⟨x, hx⟩)
    simp only [hpoint, Equiv.symm_apply_apply] at hi
    exact congrArg Gf256.val hi

theorem observes_split (hobs : Observable secret.length k n xs values)
    (rand : Fin secret.length → Fin (k - 1) → UInt8) :
    observes (split secret k n rand) xs values = true ↔
      ∀ b : Fin secret.length, rand b ∈ byteDraws (secret.get b) k xs (observedByte values b) := by
  have hne : secret ≠ [] := fun h => hobs.nonempty (by rw [h, length_nil])
  rcases (split_eq_ok_iff secret k n rand).mpr ⟨hne, hobs.threshold⟩ with ⟨shards, hsplit⟩
  simp only [hsplit, observes, decide_eq_true_eq, mem_byteDraws, observedByte]
  constructor
  · -- An observed shard holds the values of the bytes' polynomials.
    intro hmem b x hx
    have hget := getElem?_split_y hsplit (hmem x hx) b
    rw [hget, Option.getD_some]
    rfl
  · -- A shard with those values at each byte is the one the split made.
    intro hall x hx
    rw [mem_split hsplit]
    refine ⟨(hobs.point x hx).1, (hobs.point x hx).2, ?_⟩
    refine ext_getElem ?_ (fun b h₁ h₂ => ?_)
    · rw [hobs.length x hx, length_map, allCoeffs, length_ofFn]
    · have hb : b < secret.length := by rwa [hobs.length x hx] at h₁
      have hval := hall ⟨b, hb⟩ x hx
      rw [getElem?_eq_getElem h₁, Option.getD_some] at hval
      rw [← hval]
      simp only [List.getElem_map, allCoeffs, List.getElem_ofFn]
      rfl

theorem consistent_eq_pi (hobs : Observable secret.length k n xs values) :
    consistent secret k n xs values
      = Fintype.piFinset (fun b : Fin secret.length =>
          byteDraws (secret.get b) k xs (observedByte values b)) := by
  ext rand
  rw [consistent, Finset.mem_filter, Fintype.mem_piFinset,
    observes_split secret k n xs values hobs rand]
  exact ⟨fun h => h.2, fun h => ⟨Finset.mem_univ _, h⟩⟩

theorem consistent_eq_empty (hobs : ¬ Observable secret.length k n xs values) :
    consistent secret k n xs values = ∅ := by
  refine Finset.filter_eq_empty_iff.mpr (fun rand _ hyes => hobs ?_)
  cases hsplit : split secret k n rand with
  | error e =>
    rw [hsplit, observes] at hyes
    exact absurd hyes (by decide)
  | ok shards =>
    rw [hsplit, observes, decide_eq_true_eq] at hyes
    rcases (split_eq_ok_iff secret k n rand).mp ⟨shards, hsplit⟩ with ⟨hne, hk, hkn, hn⟩
    refine ⟨fun hlen => hne (length_eq_zero_iff.mp hlen), ⟨hk, hkn, hn⟩, ?_, ?_⟩
    · intro x hx
      have hmem := (mem_split hsplit _).mp (hyes x hx)
      exact ⟨hmem.1, hmem.2.1⟩
    · exact fun x hx => length_split_y hsplit (hyes x hx)

open Classical in
/-- How many draws produce an observation below the threshold. Only the length
    of the secret enters. -/
theorem card_consistent (hcard : xs.card < k) :
    (consistent secret k n xs values).card
      = if Observable secret.length k n xs values then
          (256 ^ (k - 1 - xs.card)) ^ secret.length else 0 := by
  by_cases hobs : Observable secret.length k n xs values
  · rw [if_pos hobs, consistent_eq_pi secret k n xs values hobs, Fintype.card_piFinset]
    have hbyte : ∀ b ∈ (Finset.univ : Finset (Fin secret.length)),
        (byteDraws (secret.get b) k xs (observedByte values b)).card = 256 ^ (k - 1 - xs.card) :=
      fun b _ => card_byteDraws (secret.get b) k xs _ (fun x hx => (hobs.point x hx).1) (by omega)
    rw [Finset.prod_congr rfl hbyte, Finset.prod_const, Finset.card_univ, Fintype.card_fin]
  · rw [if_neg hobs, consistent_eq_empty secret k n xs values hobs, Finset.card_empty]

/-- Perfect secrecy below the threshold: an observation of fewer than `k`
    shards is produced by as many draws under one secret as under any other of
    its length. One shard short of the threshold, each byte leaves a single
    draw. -/
theorem split_perfect_secrecy (secret secret' : List UInt8) (k n : Nat) (xs : Finset UInt8)
    (values : UInt8 → List UInt8) (hlen : secret.length = secret'.length) (hcard : xs.card < k) :
    (consistent secret k n xs values).card = (consistent secret' k n xs values).card ∧
      (Observable secret.length k n xs values → xs.card = k - 1 →
        (consistent secret k n xs values).card = 1 ∧
          ∀ b : Fin secret.length,
            (byteDraws secret[b] k xs (observedByte values b)).card = 1) := by
  refine ⟨?_, fun hobs hm => ⟨?_, fun b => ?_⟩⟩
  -- The count mentions the secret's length only.
  · rw [card_consistent secret k n xs values hcard, card_consistent secret' k n xs values hcard,
      hlen]
  -- One shard short, no coefficient is left undetermined.
  · rw [card_consistent secret k n xs values hcard, if_pos hobs, hm, Nat.sub_self, pow_zero,
      one_pow]
  · rw [card_byteDraws secret[b] k xs _ (fun x hx => (hobs.point x hx).1) (le_of_eq hm), hm,
      Nat.sub_self, pow_zero]

/-- One of two shards needed, seen with value 9: every two-byte secret leaves
    one draw. -/
theorem split_perfect_secrecy_one_of_two :
    (consistent [1, 2] 2 3 {3} (fun _ => [9, 9])).card
        = (consistent [250, 4] 2 3 {3} (fun _ => [9, 9])).card ∧
      (consistent [1, 2] 2 3 {3} (fun _ => [9, 9])).card = 1 := by
  have h := split_perfect_secrecy [1, 2] [250, 4] 2 3 {3} (fun _ => [9, 9]) rfl (by decide)
  have hobs : Observable [(1 : UInt8), 2].length 2 3 {3} (fun _ => [9, 9]) :=
    ⟨by decide, by decide, by simp, fun _ _ => rfl⟩
  exact ⟨h.1, (h.2 hobs (by decide)).1⟩

end Sss

end EssNode
