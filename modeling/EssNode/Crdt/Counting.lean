import EssNode.Crdt.Primitives
import EssNode.Lib.Replication

/-!
# Exact Distributed Counting

No increment of a replicated counter is lost and none is counted twice.

Each replica increments the slot under its own name, so a slot is written by one replica only,
and what any state holds there is what that replica had counted at some moment. In terms of
histories: the slot is the tally of that replica's increments the state has seen (`counts_run`).
Merging takes the larger slot, and the larger of two tallies is the tally of the union.

The total of a state is then the weight of its history.

Slots and totals are 64-bit words. The sum of all increments fits in one, and no intermediate
value exceeds it.
-/

namespace EssNode

open Finset Std.ExtTreeMap

namespace Crdt

open Replication

variable {n : Nat}

/-- Counter replicas, each incrementing under its own name. An operation is the
    amount added. -/
def counterSystem (name : Fin n → String) : System n GCounter Nat Unit where
  init _ := GCounter.empty
  perform r delta c := c.increment (name r) delta
  merge _ c d := c.merge d

def issuedTotal (w : World n GCounter Nat) : Nat := ∑ e ∈ w.issued, e.op

/-- What a state is to its history: each replica's slot is its tally, and there
    are no other slots. -/
structure Counts (name : Fin n → String) (s : Snapshot n GCounter Nat) : Prop where
  slot : ∀ r, s.state.slot (name r) = tally id r s.known
  named : ∀ key, key ∈ s.state.counters → ∃ r, key = name r

variable {w : World n GCounter Nat} {s : Snapshot n GCounter Nat} (name : Fin n → String)

theorem weight_le_issued (h : WellFormed w)
    (hs : s ∈ w.past) : ∑ e ∈ s.known, e.op ≤ issuedTotal w :=
  sum_le_sum_of_subset (h.known_issued s hs)

theorem tally_le_issued (h : WellFormed w) (hs : s ∈ w.past) (r : Fin n) :
    tally id r s.known ≤ issuedTotal w :=
  (sum_le_sum_of_subset (filter_subset _ _)).trans (weight_le_issued h hs)

theorem issuedTotal_perform (h : WellFormed w) (r : Fin n) (delta : Nat) :
    issuedTotal ((counterSystem name).exec w (.perform r delta)) = issuedTotal w + delta := by
  have hfresh := World.event_notMem h r delta
  rw [issuedTotal, Nat.add_comm]
  exact sum_insert hfresh

theorem guarded_of_fits (acts : List (Action n Nat Unit))
    (hfits : issuedTotal ((counterSystem name).run acts) < 2 ^ 64) :
    Guarded (counterSystem name) (fun w _ delta => issuedTotal w + delta < 2 ^ 64) acts := by
  intro before r delta after hacts
  have hsplit : acts = (before ++ [.perform r delta]) ++ after := by
    rw [hacts, List.append_assoc, List.singleton_append]
  -- What was issued by then is part of what is issued in the end.
  have hgrow := (run_append_grows (counterSystem name) (before ++ [.perform r delta]) after).1
  rw [← hsplit, System.run_concat] at hgrow
  have hle : issuedTotal ((counterSystem name).exec ((counterSystem name).run before)
      (.perform r delta)) ≤ issuedTotal ((counterSystem name).run acts) :=
    sum_le_sum_of_subset hgrow
  rw [issuedTotal_perform name (run_wellFormed _ before)] at hle
  omega

theorem counts_perform (hname : Function.Injective name) (w : World n GCounter Nat) (r : Fin n)
    (delta : Nat) (h : WellFormed w) (hinv : Counts name (w.current r))
    (hfits : issuedTotal w + delta < 2 ^ 64) :
    Counts name ((counterSystem name).performed w r delta) := by
  have hfresh : w.event r delta ∉ (w.current r).known :=
    fun hmem => World.event_notMem h r delta (h.known_issued _ (h.current_mem r) hmem)
  refine ⟨fun q => ?_, fun key hkey => ?_⟩
  -- The acting replica's slot and tally grow alike, all others stay.
  · change ((w.current r).state.increment (name r) delta).slot (name q)
      = tally id q (insert (w.event r delta) (w.current r).known)
    rw [GCounter.slot_increment, tally_insert id q hfresh, hinv.slot q]
    by_cases hq : r = q
    · have hle := tally_le_issued h (h.current_mem r) q
      -- The slot stays below the sum of all increments, so it does not wrap.
      rw [if_pos (congrArg name hq), if_pos (show (w.event r delta).replica = q from hq),
        Nat.mod_eq_of_lt (by omega)]
      rfl
    · rw [if_neg (fun heq => hq (hname heq)),
        if_neg (show ¬ (w.event r delta).replica = q from hq)]
  · change key ∈ ((w.current r).state.increment (name r) delta).counters at hkey
    rw [mem_iff_isSome_getElem?, GCounter.increment, FinMap.find_alter] at hkey
    by_cases hkr : name r = key
    · exact ⟨r, hkr.symm⟩
    · rw [if_neg hkr, ← mem_iff_isSome_getElem?] at hkey
      exact hinv.named key hkey

theorem counts_merge (w : World n GCounter Nat) (m : Unit) {t : Snapshot n GCounter Nat}
    (hs : s ∈ w.past) (ht : t ∈ w.past) (h : WellFormed w) (hsinv : Counts name s)
    (htinv : Counts name t) : Counts name ((counterSystem name).merged m s t) := by
  refine ⟨fun q => ?_, fun key hkey => ?_⟩
  · change (s.state.merge t.state).slot (name q) = tally id q (s.known ∪ t.known)
    rw [GCounter.slot_merge, tally_union h hs ht, hsinv.slot, htinv.slot]
  · change key ∈ (s.state.merge t.state).counters at hkey
    rcases GCounter.mem_merge s.state t.state key hkey with hmem | hmem
    · exact hsinv.named key hmem
    · exact htinv.named key hmem

theorem counts_run (hname : Function.Injective name) (acts : List (Action n Nat Unit))
    (hfits : issuedTotal ((counterSystem name).run acts) < 2 ^ 64) :
    ∀ s ∈ ((counterSystem name).run acts).past, Counts name s := by
  refine snapshot_inv (counterSystem name) _ (Counts name) ?_ ?_ ?_ acts
    (guarded_of_fits name acts hfits)
  · intro r
    refine ⟨fun q => ?_, fun key hkey => ?_⟩
    · rw [tally_empty]
      change ((∅ : FinMap String Nat)[name q]?).getD 0 = 0
      rw [getElem?_empty, Option.getD_none]
    · exact absurd hkey not_mem_empty
  · intro acts r delta _ hall hok
    have hwf := run_wellFormed (counterSystem name) acts
    exact counts_perform name hname _ r delta hwf (hall _ (hwf.current_mem r)) hok
  · intro acts m _ hall s hs t ht
    exact counts_merge name _ m hs ht (run_wellFormed _ acts) (hall s hs) (hall t ht)

theorem total_eq_weight (hname : Function.Injective name) (s : Snapshot n GCounter Nat)
    (hinv : Counts name s) (hfits : ∑ e ∈ s.known, e.op < 2 ^ 64) :
    s.state.total = ∑ e ∈ s.known, e.op := by
  -- Summing slots over names is summing tallies over replicas.
  have hsum : ∑ key ∈ univ.image name, s.state.slot key = ∑ e ∈ s.known, e.op := by
    rw [sum_image (fun _ _ _ _ heq => hname heq),
      sum_congr rfl (fun r _ => hinv.slot r), sum_tally]
    rfl
  have hkeys : ∀ key, key ∈ s.state.counters → key ∈ univ.image name := by
    intro key hkey
    rcases hinv.named key hkey with ⟨r, rfl⟩
    exact mem_image_of_mem name (mem_univ r)
  rw [GCounter.total_eq s.state _ hkeys (by rwa [hsum]), hsum]

/-- Exact counting. In a run whose increments together fit in a word, the total
    of a replica never decreases, never exceeds the sum of the increments issued
    so far, and equals that sum once the replica's history has them all. -/
theorem total_exact (name : Fin n → String) (hname : Function.Injective name)
    (acts more : List (Action n Nat Unit))
    (hfits : issuedTotal ((counterSystem name).run (acts ++ more)) < 2 ^ 64) (r : Fin n) :
    (((counterSystem name).run acts).current r).state.total
        ≤ (((counterSystem name).run (acts ++ more)).current r).state.total ∧
      (((counterSystem name).run acts).current r).state.total
        ≤ issuedTotal ((counterSystem name).run acts) ∧
      (((counterSystem name).run acts).issued
          ⊆ (((counterSystem name).run acts).current r).known →
        (((counterSystem name).run acts).current r).state.total
          = issuedTotal ((counterSystem name).run acts)) := by
  have hgrow := run_append_grows (counterSystem name) acts more
  have hle : issuedTotal ((counterSystem name).run acts)
      ≤ issuedTotal ((counterSystem name).run (acts ++ more)) :=
    Finset.sum_le_sum_of_subset hgrow.1
  -- At any moment of the run a replica's total is the weight of its history.
  have htotal : ∀ acts', issuedTotal ((counterSystem name).run acts') < 2 ^ 64 →
      (((counterSystem name).run acts').current r).state.total
        = ∑ e ∈ (((counterSystem name).run acts').current r).known, e.op := by
    intro acts' hfits'
    have hwf := run_wellFormed (counterSystem name) acts'
    have hweight := weight_le_issued hwf (hwf.current_mem r)
    exact total_eq_weight name hname _
      (counts_run name hname acts' hfits' _ (hwf.current_mem r)) (by omega)
  have hwf := run_wellFormed (counterSystem name) acts
  rw [htotal acts (by omega), htotal (acts ++ more) hfits]
  refine ⟨Finset.sum_le_sum_of_subset (hgrow.2 r), weight_le_issued hwf (hwf.current_mem r), ?_⟩
  intro hall
  rw [Finset.Subset.antisymm (hwf.known_issued _ (hwf.current_mem r)) hall]
  rfl

/-- Two counters under their names. -/
def twoCounters : System 2 GCounter Nat Unit :=
  counterSystem (fun r => if r = first then "a" else "b")

/-- Both count, and the first takes in the second's state twice. -/
def twoCountersRun : List (Action 2 Nat Unit) :=
  [.perform first 5, .perform second 7, .receive first 3 (), .receive first 3 ()]

/-- The first counter then holds exactly what was counted. -/
theorem total_exact_two_counters :
    issuedTotal (twoCounters.run twoCountersRun) = 12 ∧
      ((twoCounters.run twoCountersRun).current first).state.total = 12 := by
  have hissued : issuedTotal (twoCounters.run twoCountersRun) = 12 := by decide
  have h := total_exact (fun r => if r = first then "a" else "b") (by decide) twoCountersRun []
    (by
      rw [List.append_nil]
      exact lt_of_eq_of_lt hissued (by decide)) first
  exact ⟨hissued, (h.2.2 (by decide)).trans hissued⟩

end Crdt

end EssNode
