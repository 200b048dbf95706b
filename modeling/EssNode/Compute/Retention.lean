import EssNode.Node.ComputeMessages

/-!
# Which Results are Kept

What the collector of the result store takes away.

When a result is saved and there are more than ten thousand, a tenth of them goes: the first
by their keys, and a key is made of the identifier of the job. The identifier says nothing of
when a job was finished, so the newest result may go and older ones stay; the result that was
just saved may be among those that go. And a tenth need not be enough: if there are many more
results than the limit, more than ten thousand are left.

What goes and what stays are the two parts of the list of entries (`toList_gcResultsIfNeeded`), and
each of the three things one would expect of a collector is compared with that
(`retention_iff`). A store that was within its limit stays within it (`size_saveAll`), so the
number can only be too large in a database that was filled by something else.
-/

namespace EssNode

open FinMap List Std.ExtTreeMap

namespace Compute

namespace ComputeStore

variable (store : ComputeStore) {n : Nat} {key : String} (result : ComputeResult)

/-- How many entries a collection takes away. -/
def doomed : Nat := if store.results.size ≤ maxStoredResults then 0 else store.results.size / 10

theorem toList_gcResultsIfNeeded :
    store.gcResultsIfNeeded.results.toList.Perm (store.results.toList.drop store.doomed) := by
  unfold gcResultsIfNeeded doomed
  dsimp only
  by_cases hsize : store.results.size ≤ maxStoredResults
  · rw [if_pos hsize, if_pos hsize, drop_zero]
  · rw [if_neg hsize, if_neg hsize]
    exact toList_erase_first store.results _

theorem find_gcResultsIfNeeded_eq_some {result : ComputeResult} :
    store.gcResultsIfNeeded.results[key]? = some result ↔
      (key, result) ∈ store.results.toList.drop store.doomed := by
  rw [← mem_toList, (toList_gcResultsIfNeeded store).mem_iff]

theorem find_gcResultsIfNeeded_eq_none {result : ComputeResult}
    (h : store.results[key]? = some result) :
    store.gcResultsIfNeeded.results[key]? = none ↔
      (key, result) ∈ store.results.toList.take store.doomed := by
  have hmem := (mem_toList store.results key result).mpr h
  have hkeys := nodup_fst_toList store.results
  rw [← take_append_drop store.doomed store.results.toList, map_append,
    nodup_append] at hkeys
  constructor
  · intro hnone
    rw [← take_append_drop store.doomed store.results.toList, mem_append] at hmem
    refine hmem.resolve_right fun hrest => ?_
    rw [store.find_gcResultsIfNeeded_eq_some.mpr hrest] at hnone
    cases hnone
  · intro hfirst
    refine Option.eq_none_iff_forall_ne_some.mpr fun other hother => ?_
    have hrest := store.find_gcResultsIfNeeded_eq_some.mp hother
    exact hkeys.2.2 _ (mem_map_of_mem hfirst) _ (mem_map_of_mem hrest) rfl

theorem size_gcResultsIfNeeded :
    store.gcResultsIfNeeded.results.size = store.results.size - store.doomed := by
  rw [← length_toList, (toList_gcResultsIfNeeded store).length_eq,
    length_drop, length_toList]

theorem size_saveResult :
    (store.saveResult result).results.size
      = (store.withResult result).results.size - (store.withResult result).doomed :=
  size_gcResultsIfNeeded _

theorem size_saveResult_le_iff :
    (store.saveResult result).results.size ≤ maxStoredResults ↔
      (store.withResult result).results.size ≤ 11111 := by
  rw [size_saveResult, doomed]
  unfold maxStoredResults
  split <;> omega

theorem find_withResult :
    (store.withResult result).results[resultKey result.jobId]? = some result := by
  rw [withResult, find_insert, if_pos rfl]

/-- When a result is saved: it can be looked up afterwards exactly if its entry is not among
    the first that go; no more than ten thousand are left exactly if there were no more than
    11111; and those that go are no newer than those that stay exactly if that is so for the
    first entries and the others, in the order of their keys. -/
theorem retention_iff (result : ComputeResult) :
    ((store.saveResult result).getResult result.jobId = some result ↔
      (resultKey result.jobId, result) ∉
        (store.withResult result).results.toList.take (store.withResult result).doomed) ∧
    ((store.saveResult result).results.size ≤ 10000 ↔
      (store.withResult result).results.size ≤ 11111) ∧
    ((∀ (key key' : String) (gone kept : ComputeResult),
        (store.withResult result).results[key]? = some gone →
        (store.saveResult result).results[key]? = none →
        (store.saveResult result).results[key']? = some kept →
          gone.finishedAt ≤ kept.finishedAt) ↔
      ∀ gone ∈ (store.withResult result).results.toList.take (store.withResult result).doomed,
        ∀ kept ∈ (store.withResult result).results.toList.drop (store.withResult result).doomed,
          gone.2.finishedAt ≤ kept.2.finishedAt) := by
  have hsaved : store.saveResult result = (store.withResult result).gcResultsIfNeeded := rfl
  have hfound := store.find_withResult result
  refine ⟨?_, ?_, ?_⟩
  · have hgone := find_gcResultsIfNeeded_eq_none _ hfound
    rw [hsaved, ← hgone]
    constructor
    · intro hkept hnone
      rw [getResult, hnone] at hkept
      cases hkept
    · -- What is left under the key is what was there.
      intro hne
      obtain ⟨kept, hkept⟩ := Option.ne_none_iff_exists'.mp hne
      have hmem := mem_of_mem_drop (find_gcResultsIfNeeded_eq_some _ |>.mp hkept)
      rw [FinMap.mem_toList, hfound, Option.some.injEq] at hmem
      rw [getResult, hkept, hmem]
  · exact store.size_saveResult_le_iff result
  · rw [hsaved]
    constructor
    · intro hall gone hgone kept hkept
      have hentry := (FinMap.mem_toList _ gone.1 gone.2).mp (mem_of_mem_take hgone)
      exact hall gone.1 kept.1 gone.2 kept.2 hentry
        ((find_gcResultsIfNeeded_eq_none _ hentry).mpr hgone)
        ((find_gcResultsIfNeeded_eq_some _).mpr hkept)
    · intro hall key key' gone kept hentry hnone hkept
      exact hall (key, gone) ((find_gcResultsIfNeeded_eq_none _ hentry).mp hnone) (key', kept)
        ((find_gcResultsIfNeeded_eq_some _).mp hkept)

/-! ### Runs -/

def saveAll (results : List ComputeResult) : ComputeStore := results.foldl saveResult store

theorem size_withResult_le : (store.withResult result).results.size ≤ store.results.size + 1 := by
  rw [withResult, size_insert]
  split <;> omega

theorem size_withResult_of_new {result : ComputeResult}
    (hnew : store.results[resultKey result.jobId]? = none) :
    (store.withResult result).results.size = store.results.size + 1 := by
  rw [withResult, size_insert, contains_eq_isSome_getElem?, hnew]
  rfl

theorem size_saveResult_le : (store.saveResult result).results.size ≤ store.results.size + 1 := by
  rw [size_saveResult]
  exact (Nat.sub_le _ _).trans (store.size_withResult_le result)

theorem saveResult_of_room (h : store.results.size < maxStoredResults) (result : ComputeResult) :
    store.saveResult result = store.withResult result := by
  have hone : (store.withResult result).results.size ≤ maxStoredResults :=
    (store.size_withResult_le result).trans h
  exact if_pos hone

theorem size_saveAll (results : List ComputeResult) (h : store.results.size ≤ maxStoredResults) :
    (store.saveAll results).results.size ≤ maxStoredResults := by
  induction results generalizing store with
  | nil => exact h
  | cons result results ih =>
    refine ih (store.saveResult result) ?_
    -- One more than the limit is few enough for a tenth to suffice.
    have hone := store.size_withResult_le result
    refine (store.size_saveResult_le_iff result).mpr ?_
    unfold maxStoredResults at h
    omega

/-- In a full store, a result whose key comes before all others goes as soon as it is saved.
    Something is left, and it was there before. -/
theorem first_key_dropped (hfull : store.results.size = maxStoredResults)
    (hleast : ∀ (key : String) (older : ComputeResult), store.results[key]? = some older →
      compare (resultKey result.jobId) key = .lt) :
    (store.saveResult result).getResult result.jobId = none ∧
      ∃ (key : String) (kept : ComputeResult),
        (store.saveResult result).results[key]? = some kept ∧ store.results[key]? = some kept := by
  have hnew : store.results[resultKey result.jobId]? = none := by
    refine Option.eq_none_iff_forall_ne_some.mpr fun older holder => ?_
    have hlt := hleast _ older holder
    rw [Std.compare_self] at hlt
    cases hlt
  have hothers : ∀ (key : String) (other : ComputeResult), resultKey result.jobId ≠ key →
      (store.withResult result).results[key]? = some other → store.results[key]? = some other := by
    intro key other hne hother
    rwa [withResult, find_insert, if_neg hne] at hother
  have hwritten := store.size_withResult_of_new hnew
  have hfound := store.find_withResult result
  have hsaved : store.saveResult result = (store.withResult result).gcResultsIfNeeded := rfl
  rw [hsaved]
  generalize store.withResult result = written at *
  have hlimit : maxStoredResults = 10000 := rfl
  have hdoomed : written.doomed = (maxStoredResults + 1) / 10 := by
    rw [doomed, hwritten, hfull, if_neg (by omega)]
  -- Its key is the first, so its entry is among those that go.
  have hfirst : resultKey result.jobId ∈ written.results.keys.take written.doomed := by
    refine mem_take_keys_of_least (mem_iff_isSome_getElem?.mpr
      (Option.isSome_of_eq_some hfound)) (fun key hkey hne => ?_) (by omega)
    obtain ⟨other, hother⟩ := Option.isSome_iff_exists.mp
      (mem_iff_isSome_getElem?.mp hkey)
    exact hleast key other (hothers key other hne.symm hother)
  have hgone : written.gcResultsIfNeeded.results[resultKey result.jobId]? = none := by
    refine (written.find_gcResultsIfNeeded_eq_none hfound).mpr ?_
    rw [← map_fst_toList_eq_keys, ← map_take, mem_map] at hfirst
    obtain ⟨⟨key, other⟩, hentry, rfl⟩ := hfirst
    have hother := (mem_toList _ _ _).mp (mem_of_mem_take hentry)
    rw [hfound, Option.some.injEq] at hother
    rw [← hother] at hentry
    exact hentry
  refine ⟨hgone, ?_⟩
  have hlength : 0 < written.gcResultsIfNeeded.results.toList.length := by
    rw [length_toList, size_gcResultsIfNeeded]
    omega
  obtain ⟨⟨key, kept⟩, rest, hlist⟩ :=
    exists_cons_of_ne_nil (ne_nil_of_length_pos hlength)
  have hkept : written.gcResultsIfNeeded.results[key]? = some kept :=
    (mem_toList _ _ _).mp (hlist ▸ mem_cons_self)
  refine ⟨key, kept, hkept, hothers key kept (fun heq => ?_) ((mem_toList _ _ _).mp
    (mem_of_mem_drop (written.find_gcResultsIfNeeded_eq_some.mp hkept)))⟩
  rw [← heq, hgone] at hkept
  cases hkept

/-! ### A result that is dropped -/

def resultAt (finishedAt : UInt64) (jobId : String) : ComputeResult :=
  { Scheduler.aliceResult with jobId := jobId, finishedAt := finishedAt }

/-- An identifier of as many letters. -/
def bees (n : Nat) : String := String.ofList (replicate n 'b')

/-- A store in which the results of some jobs have been saved. -/
def crowd (n : Nat) : ComputeStore :=
  saveAll ⟨∅⟩ ((range n).map fun i => resultAt 1000 (bees (i + 1)))

theorem bees_injective {m n : Nat} (h : bees m = bees n) : m = n := by
  have hlength := congrArg (fun s => s.toList.length) h
  simpa [bees] using hlength

theorem crowd_entries (hn : n ≤ maxStoredResults) :
    (crowd n).results.size = n ∧ ∀ key result, (crowd n).results[key]? = some result →
      ∃ i < n, key = resultKey (bees (i + 1)) ∧ result = resultAt 1000 (bees (i + 1)) := by
  induction n with
  | zero => exact ⟨rfl, fun key result h => by cases h⟩
  | succ n ih =>
    obtain ⟨hsize, hentries⟩ := ih (by omega)
    have hcrowd : crowd (n + 1) = (crowd n).saveResult (resultAt 1000 (bees (n + 1))) := by
      rw [crowd, range_succ, map_append, saveAll, foldl_append]
      rfl
    -- The next identifier is a new one.
    have hnew : (crowd n).results[resultKey (resultAt 1000 (bees (n + 1))).jobId]? = none := by
      refine Option.eq_none_iff_forall_ne_some.mpr fun result hfound => ?_
      obtain ⟨i, hi, hkey, -⟩ := hentries _ _ hfound
      have heq := bees_injective (resultKey_inj.mp hkey)
      omega
    have hwritten : ((crowd n).withResult (resultAt 1000 (bees (n + 1)))).results.size
        = n + 1 := by
      rw [size_withResult_of_new _ hnew, hsize]
    have hsaved : crowd (n + 1) = (crowd n).withResult (resultAt 1000 (bees (n + 1))) := by
      rw [hcrowd]
      exact if_pos (hwritten.trans_le hn)
    rw [hsaved]
    refine ⟨hwritten, fun key result hfound => ?_⟩
    rcases find_insert_eq_some.mp hfound with ⟨hkey, rfl⟩ | ⟨-, hold⟩
    · exact ⟨n, Nat.lt_succ_self n, hkey.symm, rfl⟩
    · obtain ⟨i, hi, hrest⟩ := hentries key result hold
      exact ⟨i, by omega, hrest⟩

theorem a_lt_bees (n : Nat) : compare (resultKey "a") (resultKey (bees (n + 1))) = .lt := by
  have hcommon : ∀ start a b : List Char, a < b → start ++ a < start ++ b := by
    intro start a b hlt
    induction start with
    | nil => exact hlt
    | cons c start ih => exact cons_lt_cons_iff.mpr (Or.inr ⟨rfl, ih⟩)
  have hlt : resultKey "a" < resultKey (bees (n + 1)) := by
    have hbees : (bees (n + 1)).toList = 'b' :: replicate n 'b' := String.toList_ofList
    rw [String.lt_iff_toList_lt, resultKey, resultKey, String.toList_append,
      String.toList_append, hbees]
    exact hcommon _ _ _ (cons_lt_cons_iff.mpr (Or.inl (by decide : 'a' < 'b')))
  exact if_pos hlt

/-- In a store that is full of older results, a result whose key comes first goes as soon as it
    is saved, and older ones stay. -/
theorem late_result_dropped (hn : n = maxStoredResults) :
    (crowd n).results.size = n ∧
      ((crowd n).saveResult (resultAt 2000 "a")).getResult "a" = none ∧
      ∃ (key : String) (kept : ComputeResult),
        ((crowd n).saveResult (resultAt 2000 "a")).results[key]? = some kept ∧
          kept.finishedAt < (resultAt 2000 "a").finishedAt := by
  obtain ⟨hsize, hentries⟩ := crowd_entries hn.le
  have hid : (resultAt 2000 "a").jobId = "a" := rfl
  obtain ⟨hgone, key, kept, hkept, hold⟩ :=
    (crowd n).first_key_dropped (resultAt 2000 "a") (hsize.trans hn) fun key older holder => by
      obtain ⟨i, -, rfl, -⟩ := hentries key older holder
      rw [hid]
      exact a_lt_bees i
  rw [hid] at hgone
  obtain ⟨i, -, -, rfl⟩ := hentries key kept hold
  exact ⟨hsize, hgone, key, _, hkept, (by decide : (1000 : UInt64) < 2000)⟩

/-- Ten thousand results are stored and one more comes in. It is the newest, and it goes. -/
theorem newest_result_dropped :
    (crowd maxStoredResults).results.size = maxStoredResults ∧
      ((crowd maxStoredResults).saveResult (resultAt 2000 "a")).getResult "a" = none ∧
      ∃ (key : String) (kept : ComputeResult),
        ((crowd maxStoredResults).saveResult (resultAt 2000 "a")).results[key]? = some kept ∧
          kept.finishedAt < (resultAt 2000 "a").finishedAt :=
  late_result_dropped rfl

end ComputeStore

end Compute

end EssNode
