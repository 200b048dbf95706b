import Mathlib.Algebra.BigOperators.Group.List.Basic
import Mathlib.Algebra.Order.Field.Basic
import Mathlib.Tactic.Linarith
import Mathlib.Tactic.Ring
import EssNode.Lib.Admission

/-!
# Token Buckets

A bucket holds tokens. It fills at a constant rate up to a limit, and a request is
granted if the bucket holds as many tokens as the request weighs, which it then takes.

What is granted in a span of time is bounded by what the bucket can hold and what flows
in during the span. The argument is by a potential: what was granted since the beginning
of the span, with what is in the bucket, never exceeds that bound (`Conforms`). Tokens
that would overflow are lost, so this is an inequality.

A request that is refused because the bucket is not full enough, though it could be, is
granted exactly when what is missing has flowed in (`draw_after_iff`).
-/

namespace EssNode

namespace TokenBucket

open Admission

variable {K : Type*} [Field K] [LinearOrder K]

/-- How fast a bucket fills, and how much it holds. -/
structure Config (K : Type*) where
  rate : K
  burst : K

/-- The tokens in a bucket at the time it was last filled. -/
structure Bucket (K : Type*) where
  tokens : K
  filled : K

/-- A request at a time, and how much it weighs. -/
structure Request (K : Type*) where
  now : K
  weight : K

namespace Config

variable (c : Config K)

/-- The tokens in a bucket at a later time. -/
def fill (b : Bucket K) (now : K) : K := min (b.tokens + (now - b.filled) * c.rate) c.burst

/-- Take the tokens of a request out, if they are there. -/
def draw (b : Bucket K) (r : Request K) : Bucket K × Bool :=
  if r.weight ≤ c.fill b r.now then (⟨c.fill b r.now - r.weight, r.now⟩, true)
  else (⟨c.fill b r.now, r.now⟩, false)

/-- A bucket as a machine. -/
def machine : Machine (Bucket K) (Request K) Bool where
  handle := c.draw
  admits answer := answer

/-- A bucket that holds all it can, at a time. -/
def full (now : K) : Bucket K := ⟨c.burst, now⟩

end Config

/-- No fewer tokens than none, and no more than the bucket holds. -/
structure Within (c : Config K) (b : Bucket K) : Prop where
  nonneg : 0 ≤ b.tokens
  le_burst : b.tokens ≤ c.burst

variable {c : Config K} {b : Bucket K} {r : Request K}

theorem fill_le_burst (c : Config K) (b : Bucket K) (now : K) : c.fill b now ≤ c.burst :=
  min_le_right _ _

theorem draw_eq (c : Config K) (b : Bucket K) (r : Request K) :
    (c.draw b r).1.filled = r.now ∧
      (c.draw b r).1.tokens = c.fill b r.now - if (c.draw b r).2 = true then r.weight else 0 := by
  unfold Config.draw
  by_cases hgranted : r.weight ≤ c.fill b r.now
  · rw [if_pos hgranted]
    exact ⟨rfl, by simp⟩
  · rw [if_neg hgranted]
    exact ⟨rfl, by simp⟩

theorem draw_snd_iff (c : Config K) (b : Bucket K) (r : Request K) :
    (c.draw b r).2 = true ↔ r.weight ≤ c.fill b r.now := by
  unfold Config.draw
  split
  · exact iff_of_true rfl ‹_›
  · exact iff_of_false (by simp) ‹_›

variable [IsStrictOrderedRing K]

variable {start first last now : K} {requests : List (Request K)}

theorem fill_nonneg (hrate : 0 ≤ c.rate) (hb : Within c b) (hnow : b.filled ≤ now) :
    0 ≤ c.fill b now := by
  have hgain : 0 ≤ (now - b.filled) * c.rate := mul_nonneg (sub_nonneg.mpr hnow) hrate
  exact le_min (add_nonneg hb.nonneg hgain) (hb.nonneg.trans hb.le_burst)

theorem within_draw (hrate : 0 ≤ c.rate) (hb : Within c b) (hweight : 0 ≤ r.weight)
    (hnow : b.filled ≤ r.now) : Within c (c.draw b r).1 := by
  have hfill := fill_nonneg hrate hb hnow
  have hburst := fill_le_burst c b r.now
  rw [Config.draw]
  by_cases hgranted : r.weight ≤ c.fill b r.now
  · rw [if_pos hgranted]
    exact ⟨sub_nonneg.mpr hgranted, (sub_le_self _ hweight).trans hburst⟩
  · rw [if_neg hgranted]
    exact ⟨hfill, hburst⟩

/-! ### What is granted in a span of time -/

/-- What the requests in a span of time weigh together, both ends included. -/
def spent (first last : K) (granted : List (Request K)) : K :=
  ((granted.filter fun r => decide (first ≤ r.now ∧ r.now ≤ last)).map Request.weight).sum

omit [IsStrictOrderedRing K] in
theorem spent_append (first last : K) (granted granted' : List (Request K)) :
    spent first last (granted ++ granted')
      = spent first last granted + spent first last granted' := by
  unfold spent
  rw [List.filter_append, List.map_append, List.sum_append]

omit [IsStrictOrderedRing K] in
theorem spent_if (first last : K) (p : Prop) [Decidable p] (r : Request K) :
    spent first last (if p then [r] else [])
      = if p ∧ first ≤ r.now ∧ r.now ≤ last then r.weight else 0 := by
  unfold spent
  by_cases hp : p
  · by_cases hspan : first ≤ r.now ∧ r.now ≤ last
    · simp [hp, hspan]
    · simp [hp, hspan]
  · simp [hp]

/-- What was granted in a span, as far as it has passed. Once the span has begun, what was
    granted and what is left are bounded by the limit and what flowed in since. -/
structure Conforms (c : Config K) (first last : K) (b : Bucket K) (granted : List (Request K)) :
    Prop where
  within : Within c b
  bound : spent first last granted ≤ c.burst + c.rate * (last - first)
  potential : first ≤ b.filled → b.filled ≤ last →
    spent first last granted + b.tokens ≤ c.burst + c.rate * (b.filled - first)
  early : b.filled < first → spent first last granted = 0

theorem Conforms.fill_le {granted : List (Request K)} (hrate : 0 ≤ c.rate)
    (h : Conforms c first last b granted) (hfirst : first ≤ now) (hlast : now ≤ last)
    (hnow : b.filled ≤ now) :
    spent first last granted + c.fill b now ≤ c.burst + c.rate * (now - first) := by
  by_cases hbegun : first ≤ b.filled
  · have hold := h.potential hbegun (hnow.trans hlast)
    have hgain : c.fill b now ≤ b.tokens + (now - b.filled) * c.rate := min_le_left _ _
    linarith [mul_comm (now - b.filled) c.rate, mul_sub c.rate now b.filled,
      mul_sub c.rate b.filled first, mul_sub c.rate now first]
  · -- The first request of the span: the bucket holds no more than it can.
    rw [h.early (not_le.mp hbegun), zero_add]
    have hgain : 0 ≤ c.rate * (now - first) := mul_nonneg hrate (sub_nonneg.mpr hfirst)
    linarith [fill_le_burst c b now]

theorem Conforms.step {granted : List (Request K)} (hrate : 0 ≤ c.rate)
    (h : Conforms c first last b granted) (hweight : 0 ≤ r.weight) (hnow : b.filled ≤ r.now) :
    Conforms c first last (c.draw b r).1
      (granted ++ if c.machine.Admits b r then [r] else []) := by
  have hwithin := within_draw hrate h.within hweight hnow
  obtain ⟨hfilled, htokens⟩ := draw_eq c b r
  have hanswer : c.machine.Admits b r ↔ (c.draw b r).2 = true := Iff.rfl
  -- What this request adds to the span, against what it takes out of the bucket.
  have hspent : spent first last (granted ++ if c.machine.Admits b r then [r] else [])
      = spent first last granted
        + if c.machine.Admits b r ∧ first ≤ r.now ∧ r.now ≤ last then r.weight else 0 := by
    rw [spent_append, spent_if]
  by_cases hin : first ≤ r.now ∧ r.now ≤ last
  · have hsum : spent first last (granted ++ if c.machine.Admits b r then [r] else [])
        + (c.draw b r).1.tokens = spent first last granted + c.fill b r.now := by
      rw [hspent, htokens]
      by_cases hadmits : c.machine.Admits b r
      · rw [if_pos ⟨hadmits, hin⟩, if_pos (hanswer.mp hadmits)]
        ring
      · rw [if_neg (fun hboth => hadmits hboth.1), if_neg (fun hok => hadmits (hanswer.mpr hok))]
        ring
    have hpotential := h.fill_le hrate hin.1 hin.2 hnow
    refine ⟨hwithin, ?_, fun _ _ => ?_, fun hearly => ?_⟩
    · have hmore : c.rate * (r.now - first) ≤ c.rate * (last - first) :=
        mul_le_mul_of_nonneg_left (sub_le_sub_right hin.2 first) hrate
      linarith [hwithin.nonneg]
    · rw [hfilled]
      linarith
    · rw [hfilled] at hearly
      exact absurd hin.1 (not_le.mpr hearly)
  · have hsame : spent first last (granted ++ if c.machine.Admits b r then [r] else [])
        = spent first last granted := by
      rw [hspent, if_neg (fun hboth => hin hboth.2), add_zero]
    refine ⟨hwithin, hsame ▸ h.bound, fun hbegun hends => ?_, fun hearly => ?_⟩
    · rw [hfilled] at hbegun hends
      exact absurd ⟨hbegun, hends⟩ hin
    · rw [hfilled] at hearly
      rw [hsame]
      exact h.early (lt_of_le_of_lt hnow hearly)

/-- A run of requests, none before the one before it and none of negative weight. -/
structure Proper (start : K) (requests : List (Request K)) : Prop where
  ordered : (start :: requests.map Request.now).Pairwise (· ≤ ·)
  nonneg : ∀ r ∈ requests, 0 ≤ r.weight

omit [IsStrictOrderedRing K] in
theorem Proper.of_prefix {initial : List (Request K)} (h : Proper start requests)
    (hinitial : initial <+: requests) : Proper start initial where
  ordered := h.ordered.sublist ((hinitial.sublist.map Request.now).cons_cons start)
  nonneg r hr := h.nonneg r (hinitial.subset hr)

omit [IsStrictOrderedRing K] in
theorem filled_after (start : K) (requests : List (Request K)) :
    (c.machine.after (c.full start) requests).filled ∈ start :: requests.map Request.now := by
  induction requests using List.reverseRecOn with
  | nil => exact List.mem_singleton.mpr rfl
  | append_singleton requests r _ =>
    rw [Machine.after_concat]
    refine List.mem_cons_of_mem _ (List.mem_map.mpr ⟨r, by simp, ?_⟩)
    exact (draw_eq c _ r).1.symm

omit [IsStrictOrderedRing K] in
theorem filled_le_now (hrun : Proper start (requests ++ [r])) :
    (c.machine.after (c.full start) requests).filled ≤ r.now := by
  have horder := hrun.ordered
  rw [List.map_append, ← List.cons_append] at horder
  exact (List.pairwise_append.mp horder).2.2 _ (filled_after start requests) _ (by simp)

theorem conforms_after (hrate : 0 ≤ c.rate) (hburst : 0 ≤ c.burst) (hspan : first ≤ last)
    (hrun : Proper start requests) :
    Conforms c first last (c.machine.after (c.full start) requests)
      (c.machine.admitted (c.full start) requests) := by
  refine c.machine.run_induction
    (P := fun _ b granted => Conforms c first last b granted) requests ?_ ?_
  · have hgain : 0 ≤ c.rate * (last - first) := mul_nonneg hrate (sub_nonneg.mpr hspan)
    have hnone : spent first last ([] : List (Request K)) = 0 := rfl
    refine ⟨⟨hburst, le_rfl⟩, ?_, fun hbegun _ => ?_, fun _ => hnone⟩
    · rw [hnone]
      exact add_nonneg hburst hgain
    · rw [hnone, zero_add]
      exact le_add_of_nonneg_right (mul_nonneg hrate (sub_nonneg.mpr hbegun))
  · intro before r hinitial hbefore
    have hproper := hrun.of_prefix hinitial
    exact hbefore.step hrate (hproper.nonneg r (by simp)) (filled_le_now hproper)

theorem spent_le (hrate : 0 ≤ c.rate) (hburst : 0 ≤ c.burst) (hspan : first ≤ last)
    (hrun : Proper start requests) :
    spent first last (c.machine.admitted (c.full start) requests)
      ≤ c.burst + c.rate * (last - first) :=
  (conforms_after hrate hburst hspan hrun).bound

/-! ### When a refused request is granted -/

omit [IsStrictOrderedRing K] in
theorem draw_refused (hrefused : (c.draw b r).2 = false) :
    (c.draw b r).1 = ⟨c.fill b r.now, r.now⟩ ∧ c.fill b r.now < r.weight := by
  have hfew : ¬ r.weight ≤ c.fill b r.now := by
    rw [← draw_snd_iff, hrefused]
    simp
  rw [Config.draw, if_neg hfew]
  exact ⟨rfl, not_le.mp hfew⟩

/-- A refused request that the bucket could grant is granted, if it is the next, exactly
    when what was missing has flowed in. -/
theorem draw_after_iff (hrate : 0 < c.rate) (hweight : r.weight ≤ c.burst)
    (hrefused : (c.draw b r).2 = false) (now : K) :
    (c.draw (c.draw b r).1 ⟨now, r.weight⟩).2 = true ↔
      (r.weight - (c.draw b r).1.tokens) / c.rate ≤ now - r.now := by
  rw [draw_snd_iff, (draw_refused hrefused).1]
  unfold Config.fill
  rw [le_min_iff, div_le_iff₀ hrate, sub_le_iff_le_add']
  exact and_iff_left hweight

theorem fill_full (hrate : 0 ≤ c.rate) (hnow : start ≤ now) :
    c.fill (c.full start) now = c.burst :=
  min_eq_right (le_add_of_nonneg_right (mul_nonneg (sub_nonneg.mpr hnow) hrate))

end TokenBucket

end EssNode
