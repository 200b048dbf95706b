import EssNode.Crdt.Primitives
import EssNode.Lib.Replication

/-!
# Observed-Remove Semantics

Membership in a replicated set is a function of the causal history.

An add puts an item under a tag no add drew before; a remove takes away the tags its replica
holds for the item. The tags a state holds are not a function of its history: an item that loses
its last live tag is dropped together with its dead tags, and whether the dead tags are still
there depends on the order in which states arrived. What is a function of the history is the set
of removed tags, and which adds are among the live ones.

`Observed` ties the two together. Freshness of tags enters twice: a tag names one add, so
removing one item does not touch another, and a new tag is not already removed.
-/

namespace EssNode

open Finset

namespace Crdt

open Replication ORSet

variable {n : Nat} {T : Type*} [Ord T]

/-- What a set replica does. An add carries the tag it draws. -/
inductive SetOp (T : Type*) where
  | add (item : T) (tag : UInt64)
  | remove (item : T)
deriving DecidableEq

/-- Set replicas. -/
def setSystem (n : Nat) (T : Type*) [Ord T] [Std.TransOrd T] :
    System n (ORSet T) (SetOp T) Unit where
  init _ := empty
  perform _ op s :=
    match op with
    | .add item tag => s.add item tag
    | .remove item => s.remove item
  merge _ s t := s.merge t

def SetOp.drawn : SetOp T → Option UInt64
  | .add _ tag => some tag
  | .remove _ => none

/-- An add draws a tag that no add drew before. -/
def FreshTag (w : World n (ORSet T) (SetOp T)) (_ : Fin n) (op : SetOp T) : Prop :=
  ∀ e ∈ w.issued, op.drawn = none ∨ e.op.drawn ≠ op.drawn

instance (w : World n (ORSet T) (SetOp T)) (r : Fin n) (op : SetOp T) :
    Decidable (FreshTag w r op) :=
  inferInstanceAs (Decidable (∀ e ∈ w.issued, op.drawn = none ∨ e.op.drawn ≠ op.drawn))

variable {w : World n (ORSet T) (SetOp T)} {s : Snapshot n (ORSet T) (SetOp T)} {tag : UInt64}

theorem FreshTag.ne {r : Fin n} {op : SetOp T} (h : FreshTag w r op) {x y : T}
    (hop : op = .add x tag)
    {e : Event n (SetOp T)} (he : e ∈ w.issued) : e.op ≠ .add y tag := by
  intro heq
  have hcase := h e he
  rw [hop, heq] at hcase
  rcases hcase with hnone | hne
  · exact absurd hnone (by simp only [SetOp.drawn, reduceCtorEq, not_false_eq_true])
  · exact hne rfl

/-- A remove of the item in the history has seen the event. -/
def ObservedByRemove (known : Finset (Event n (SetOp T))) (x : T) (a : Event n (SetOp T)) : Prop :=
  ∃ d ∈ known, d.op = .remove x ∧ a.id ∈ d.seen

variable [Std.TransOrd T]

/-- What a state is to its history. -/
structure Observed (s : Snapshot n (ORSet T) (SetOp T)) : Prop where
  added : ∀ x, ∀ tag ∈ s.state.tags x, ∃ a ∈ s.known, a.op = .add x tag
  removed_iff : ∀ tag, tag ∈ s.state.removed ↔
    ∃ x, ∃ a ∈ s.known, a.op = .add x tag ∧ ObservedByRemove s.known x a
  kept : ∀ x tag, ∀ a ∈ s.known, a.op = .add x tag →
    tag ∈ s.state.tags x ∨ tag ∈ s.state.removed
  live : ∀ x, (s.state.entries[x]?).isSome = true → s.state.contains x = true

theorem Observed.exists_add (h : Observed s) {known : Finset (Event n (SetOp T))}
    (hsub : s.known ⊆ known) {x : T}
    (htag : tag ∈ s.state.tags x) : ∃ a ∈ known, a.op = .add x tag := by
  rcases h.added x tag htag with ⟨a, ha, hop⟩
  exact ⟨a, hsub ha, hop⟩

theorem Observed.exists_removed (h : Observed s) {known : Finset (Event n (SetOp T))}
    (hsub : s.known ⊆ known)
    (htag : tag ∈ s.state.removed) :
    ∃ x, ∃ a ∈ known, a.op = .add x tag ∧ ObservedByRemove known x a := by
  rcases (h.removed_iff tag).mp htag with ⟨x, a, ha, hop, d, hd, hdop, hseen⟩
  exact ⟨x, a, hsub ha, hop, d, hsub hd, hdop, hseen⟩

/-- A tag names one add. -/
def TagUnique (w : World n (ORSet T) (SetOp T)) : Prop :=
  ∀ a ∈ w.issued, ∀ b ∈ w.issued, ∀ x y tag, a.op = .add x tag → b.op = .add y tag → a = b

/-- Membership read off the history: some add of the item was seen by no remove
    of it. -/
theorem contains_iff_unobserved (h : WellFormed w) (hunique : TagUnique w) (hs : s ∈ w.past)
    (hinv : Observed s) (x : T) :
    s.state.contains x = true ↔
      ∃ a ∈ s.known, (∃ tag, a.op = .add x tag) ∧ ¬ ObservedByRemove s.known x a := by
  have hissued := h.known_issued s hs
  rw [contains_iff]
  constructor
  · rintro ⟨tag, htag, hlive⟩
    rcases hinv.added x tag htag with ⟨a, ha, hop⟩
    exact ⟨a, ha, ⟨tag, hop⟩,
      fun hobs => hlive ((hinv.removed_iff tag).mpr ⟨x, a, ha, hop, hobs⟩)⟩
  · rintro ⟨a, ha, ⟨tag, hop⟩, hobs⟩
    have hlive : tag ∉ s.state.removed := by
      intro hmem
      rcases (hinv.removed_iff tag).mp hmem with ⟨y, b, hb, hbop, hbobs⟩
      -- The removed tag names this very add.
      have hab := hunique a (hissued ha) b (hissued hb) x y tag hop hbop
      rw [← hab, hop] at hbop
      injection hbop with hxy
      rw [← hab, ← hxy] at hbobs
      exact hobs hbobs
    rcases hinv.kept x tag a ha hop with hmem | hmem
    · exact ⟨tag, hmem, hlive⟩
    · exact absurd hmem hlive

variable [DecidableEq T]

theorem tag_unique (acts : List (Action n (SetOp T) Unit))
    (hfresh : Guarded (setSystem n T) FreshTag acts) : TagUnique ((setSystem n T).run acts) := by
  induction acts using List.reverseRecOn with
  | nil => exact fun a ha => absurd ha (notMem_empty a)
  | append_singleton acts act ih =>
    have hold := ih hfresh.init
    rw [System.run_concat]
    cases act with
    | perform r op =>
      have hnew := hfresh.last
      intro a ha b hb x y tag hax hby
      -- An old and the new add with one tag would contradict freshness.
      rcases mem_insert.mp ha with rfl | ha <;>
        rcases mem_insert.mp hb with rfl | hb
      · rfl
      · exact absurd hby (hnew.ne hax hb)
      · exact absurd hax (hnew.ne hby ha)
      · exact hold a ha b hb x y tag hax hby
    | receive r i m =>
      rw [System.exec]
      cases ((setSystem n T).run acts).past[i]? with
      | none => exact hold
      | some t => exact hold

variable [Std.LawfulEqOrd T]

theorem observed_add (h : WellFormed w) (r : Fin n) (x : T) (tag : UInt64)
    (hinv : Observed (w.current r)) (hfresh : FreshTag w r (.add x tag)) :
    Observed ((setSystem n T).performed w r (.add x tag)) := by
  set s := w.current r with hs
  have hknown : s.known ⊆ w.issued := h.known_issued s (h.current_mem r)
  have hstate : ((setSystem n T).performed w r (.add x tag)).state = s.state.add x tag := rfl
  have hevents : ((setSystem n T).performed w r (.add x tag)).known
      = insert (w.event r (.add x tag)) s.known := rfl
  have hnew : tag ∉ s.state.removed := by
    intro hmem
    rcases (hinv.removed_iff tag).mp hmem with ⟨y, a, ha, hop, -⟩
    exact hfresh.ne rfl (hknown ha) hop
  refine ⟨fun y t ht => ?_, fun t => ?_, fun y t a ha hop => ?_, fun y hy => ?_⟩
  · rw [hstate, tags_add] at ht
    rw [hevents]
    by_cases hxy : x = y
    · rw [if_pos hxy] at ht
      rcases mem_insert.mp ht with rfl | ht
      · exact ⟨_, mem_insert_self _ _, by rw [← hxy]; rfl⟩
      · exact hinv.exists_add (subset_insert _ _) ht
    · rw [if_neg hxy] at ht
      exact hinv.exists_add (subset_insert _ _) ht
  · rw [hstate, hevents]
    refine ⟨hinv.exists_removed (subset_insert _ _), ?_⟩
    rintro ⟨y, a, ha, hop, d, hd, hdop, hseen⟩
    -- The new event is no remove, and no remove of the history can have seen it.
    rcases mem_insert.mp hd with rfl | hd
    · exact absurd hdop (by simp only [World.event, reduceCtorEq, not_false_eq_true])
    rcases mem_insert.mp ha with rfl | ha
    · exact absurd hseen (World.event_notSeen h r _ (hknown hd))
    · exact (hinv.removed_iff t).mpr ⟨y, a, ha, hop, d, hd, hdop, hseen⟩
  -- The new add holds its tag; the old ones keep what they had.
  · rw [hstate, tags_add]
    rw [hevents] at ha
    rcases mem_insert.mp ha with rfl | ha
    · have hop' : SetOp.add x tag = .add y t := hop
      injection hop' with hxy htag
      rw [if_pos hxy, htag]
      exact Or.inl (mem_insert_self _ _)
    · rcases hinv.kept y t a ha hop with hmem | hmem
      · by_cases hxy : x = y
        · rw [if_pos hxy]
          exact Or.inl (mem_insert_of_mem hmem)
        · rw [if_neg hxy]
          exact Or.inl hmem
      · exact Or.inr hmem
  -- The new tag is live, which is where freshness is needed.
  · rw [hstate] at hy ⊢
    rw [contains_iff, tags_add]
    rw [find_add] at hy
    by_cases hxy : x = y
    · rw [if_pos hxy]
      exact ⟨tag, mem_insert_self _ _, hnew⟩
    · rw [if_neg hxy] at hy ⊢
      exact (contains_iff s.state y).mp (hinv.live y hy)

/-- A remove: what the replica holds for the item becomes removed, which is
    exactly what the new event has seen and was not removed already. -/
theorem observed_remove (h : WellFormed w) (hunique : TagUnique w) (r : Fin n) (x : T)
    (hinv : Observed (w.current r)) :
    Observed ((setSystem n T).performed w r (.remove x)) := by
  set s := w.current r with hs
  have hknown : s.known ⊆ w.issued := h.known_issued s (h.current_mem r)
  have hstate : ((setSystem n T).performed w r (.remove x)).state = s.state.remove x := rfl
  have hevents : ((setSystem n T).performed w r (.remove x)).known
      = insert (w.event r (.remove x)) s.known := rfl
  -- The new event is no add, and it has seen all the replica knows.
  have hadd : ∀ a ∈ insert (w.event r (.remove x)) s.known, ∀ y t, a.op = .add y t →
      a ∈ s.known := by
    intro a ha y t hop
    rcases mem_insert.mp ha with rfl | ha
    · exact absurd hop (by simp only [World.event, reduceCtorEq, not_false_eq_true])
    · exact ha
  have hseen : ∀ a ∈ s.known, a.id ∈ (w.event r (.remove x)).seen :=
    fun a ha => mem_image_of_mem Event.id ha
  refine ⟨fun y t ht => ?_, fun t => ?_, fun y t a ha hop => ?_, fun y hy => ?_⟩
  · rw [hstate, tags_remove] at ht
    rw [hevents]
    by_cases hxy : x = y
    · rw [if_pos hxy] at ht
      exact absurd ht (notMem_empty t)
    · rw [if_neg hxy] at ht
      exact hinv.exists_add (subset_insert _ _) ht
  · rw [hstate, hevents, removed_remove, mem_union]
    constructor
    · -- A tag that was held is removed by the new event.
      rintro (hmem | hmem)
      · exact hinv.exists_removed (subset_insert _ _) hmem
      · rcases hinv.added x t hmem with ⟨a, ha, hop⟩
        exact ⟨x, a, mem_insert_of_mem ha, hop, _, mem_insert_self _ _, rfl,
          hseen a ha⟩
    · rintro ⟨y, a, ha, hop, d, hd, hdop, hdseen⟩
      have ha' := hadd a ha y t hop
      rcases mem_insert.mp hd with rfl | hd
      · -- The new remove saw the add: its tag was held or already removed.
        have hyx : SetOp.remove x = .remove y := hdop
        injection hyx with hxy
        rw [← hxy] at hop
        exact (hinv.kept x t a ha' hop).symm
      · exact Or.inl ((hinv.removed_iff t).mpr ⟨y, a, ha', hop, d, hd, hdop, hdseen⟩)
  · rw [hstate, tags_remove, removed_remove, mem_union]
    have ha' := hadd a ha y t hop
    by_cases hxy : x = y
    · rw [hxy]
      exact Or.inr ((hinv.kept y t a ha' hop).symm)
    · rw [if_neg hxy]
      rcases hinv.kept y t a ha' hop with hmem | hmem
      · exact Or.inl hmem
      · exact Or.inr (Or.inl hmem)
  · rw [hstate] at hy ⊢
    rw [find_remove] at hy
    rw [contains_iff, tags_remove, removed_remove]
    by_cases hxy : x = y
    · rw [if_pos hxy] at hy
      exact absurd hy (by decide)
    · rw [if_neg hxy] at hy ⊢
      rcases (contains_iff s.state y).mp (hinv.live y hy) with ⟨t, ht, hlive⟩
      refine ⟨t, ht, fun hmem => ?_⟩
      rcases mem_union.mp hmem with hmem | hmem
      · exact hlive hmem
      · -- A tag held for both items would name two adds.
        rcases hinv.added x t hmem with ⟨a, ha, hax⟩
        rcases hinv.added y t ht with ⟨b, hb, hby⟩
        have hab := hunique a (hknown ha) b (hknown hb) x y t hax hby
        rw [hab, hby] at hax
        injection hax with hyx
        exact hxy hyx.symm

/-- A merge: a remove brings the adds it has seen with it, so the removed tags
    of both sides are all that the joint history removes. -/
theorem observed_merge (h : WellFormed w) {t : Snapshot n (ORSet T) (SetOp T)} (hs : s ∈ w.past)
    (ht : t ∈ w.past)
    (hsinv : Observed s) (htinv : Observed t) :
    Observed ((setSystem n T).merged () s t) := by
  have hstate : ((setSystem n T).merged () s t).state = s.state.merge t.state := rfl
  have hevents : ((setSystem n T).merged () s t).known = s.known ∪ t.known := rfl
  have hremoved : (s.state.merge t.state).removed = s.state.removed ∪ t.state.removed := rfl
  -- A remove of one side has seen only adds of that side.
  have hdown : ∀ u ∈ w.past, Observed u → ∀ x tag, ∀ a ∈ s.known ∪ t.known, a.op = .add x tag →
      ∀ d ∈ u.known, d.op = .remove x → a.id ∈ d.seen → tag ∈ u.state.removed := by
    intro u hu huinv x tag a ha hop d hd hdop hseen
    have hissued : a ∈ w.issued := by
      rcases mem_union.mp ha with ha | ha
      · exact h.known_issued s hs ha
      · exact h.known_issued t ht ha
    have hau := h.causal u hu d hd a hissued hseen
    exact (huinv.removed_iff tag).mpr ⟨x, a, hau, hop, d, hd, hdop, hseen⟩
  have hkept : ∀ u : Snapshot n (ORSet T) (SetOp T), Observed u →
      (∀ x, u.state.tags x ⊆ s.state.tags x ∪ t.state.tags x) →
      u.state.removed ⊆ s.state.removed ∪ t.state.removed →
      ∀ x tag, ∀ a ∈ u.known, a.op = .add x tag →
        tag ∈ (s.state.merge t.state).tags x ∨ tag ∈ s.state.removed ∪ t.state.removed := by
    intro u huinv htags hrem x tag a ha hop
    by_cases hdead : tag ∈ s.state.removed ∪ t.state.removed
    · exact Or.inr hdead
    · -- A tag that is not removed keeps its item's entry alive.
      refine Or.inl ((mem_tags_merge s.state t.state x tag).mpr ?_)
      rcases huinv.kept x tag a ha hop with hmem | hmem
      · have hmem' := mem_union.mp (htags x hmem)
        rw [mem_union, not_or] at hdead
        exact ⟨hmem', tag, hmem', hdead⟩
      · exact absurd (hrem hmem) hdead
  refine ⟨fun x tag htag => ?_, fun tag => ?_, fun x tag a ha hop => ?_, fun x hx => ?_⟩
  · rw [hstate, mem_tags_merge] at htag
    rw [hevents]
    rcases htag.1 with hmem | hmem
    · exact hsinv.exists_add subset_union_left hmem
    · exact htinv.exists_add subset_union_right hmem
  · rw [hstate, hevents, hremoved, mem_union]
    constructor
    · rintro (hmem | hmem)
      · exact hsinv.exists_removed subset_union_left hmem
      · exact htinv.exists_removed subset_union_right hmem
    · rintro ⟨x, a, ha, hop, d, hd, hdop, hseen⟩
      rcases mem_union.mp hd with hd | hd
      · exact Or.inl (hdown s hs hsinv x tag a ha hop d hd hdop hseen)
      · exact Or.inr (hdown t ht htinv x tag a ha hop d hd hdop hseen)
  · rw [hstate, hremoved]
    rw [hevents] at ha
    rcases mem_union.mp ha with ha | ha
    · exact hkept s hsinv (fun _ => subset_union_left) subset_union_left x tag a ha
        hop
    · exact hkept t htinv (fun _ => subset_union_right) subset_union_right x tag a ha
        hop
  -- A merge keeps an entry only if a tag of it is live.
  · rw [hstate] at hx ⊢
    rw [find_merge] at hx
    split at hx
    · rename_i hlive
      rw [hasLive_iff] at hlive
      rcases hlive with ⟨tag, hmem, hnot⟩
      rw [mem_union] at hmem hnot
      rw [not_or] at hnot
      exact (contains_merge s.state t.state x).mpr ⟨tag, hmem, hnot⟩
    · exact absurd hx (by decide)

theorem observed_run (acts : List (Action n (SetOp T) Unit))
    (hfresh : Guarded (setSystem n T) FreshTag acts) :
    ∀ s ∈ ((setSystem n T).run acts).past, Observed s := by
  refine snapshot_inv (setSystem n T) FreshTag Observed ?_ ?_ ?_ acts hfresh
  · intro r
    have htags : ∀ x, ((setSystem n T).init r).tags x = ∅ := empty_tags
    refine ⟨fun x tag htag => ?_, fun tag => ?_, fun x tag a ha => ?_, fun x hx => ?_⟩
    · rw [htags] at htag
      exact absurd htag (notMem_empty tag)
    · constructor
      · exact fun hmem => absurd hmem (notMem_empty tag)
      · rintro ⟨x, a, ha, -⟩
        exact absurd ha (notMem_empty a)
    · exact absurd ha (notMem_empty a)
    · change ((∅ : FinMap T (Finset UInt64))[x]?).isSome = true at hx
      rw [Std.ExtTreeMap.getElem?_empty] at hx
      exact absurd hx (by decide)
  · intro acts r op hguard hall hok
    have hwf := run_wellFormed (setSystem n T) acts
    have hcur := hall _ (hwf.current_mem r)
    cases op with
    | add x tag => exact observed_add hwf r x tag hcur hok
    | remove x => exact observed_remove hwf (tag_unique acts hguard) r x hcur
  · intro acts m _ hall s hs t ht
    exact observed_merge (run_wellFormed _ acts) hs ht (hall s hs) (hall t ht)

/-- Two events that have not seen each other. -/
def Concurrent (a d : Event n (SetOp T)) : Prop := a.id ∉ d.seen ∧ d.id ∉ a.seen

/-- Observed-remove semantics. In a run where every add draws a fresh tag, in
    every state that occurs: an item is a member exactly when an add of it in
    the history was seen by no remove of it in the history, the elements are the
    members, an add concurrent with every remove of the item wins, and states
    with the same history have the same members. -/
theorem observed_remove_semantics (acts : List (Action n (SetOp T) Unit))
    (hfresh : Guarded (setSystem n T) FreshTag acts)
    (s : Snapshot n (ORSet T) (SetOp T)) (hs : s ∈ ((setSystem n T).run acts).past) :
    (∀ x, s.state.contains x = true ↔
      ∃ a ∈ s.known, (∃ tag, a.op = .add x tag) ∧ ¬ ObservedByRemove s.known x a) ∧
    (∀ x, x ∈ s.state.elements ↔ s.state.contains x = true) ∧
    (∀ x, ∀ a ∈ s.known, (∃ tag, a.op = .add x tag) →
      (∀ d ∈ s.known, d.op = .remove x → Concurrent a d) → s.state.contains x = true) ∧
    (∀ t ∈ ((setSystem n T).run acts).past, t.known = s.known →
      ∀ x, t.state.contains x = s.state.contains x) := by
  have hwf := run_wellFormed (setSystem n T) acts
  have hunique := tag_unique acts hfresh
  have hmember : ∀ u ∈ ((setSystem n T).run acts).past, ∀ x, u.state.contains x = true ↔
      ∃ a ∈ u.known, (∃ tag, a.op = .add x tag) ∧ ¬ ObservedByRemove u.known x a :=
    fun u hu => contains_iff_unobserved hwf hunique hu (observed_run acts hfresh u hu)
  refine ⟨hmember s hs, fun x => ?_, fun x a ha hadd hconc => ?_, fun t ht hsame x => ?_⟩
  -- Every entry has a live tag, and every member has an entry.
  · rw [ORSet.mem_elements]
    constructor
    · exact (observed_run acts hfresh s hs).live x
    · intro hmem
      rcases (ORSet.contains_iff s.state x).mp hmem with ⟨tag, htag, -⟩
      rw [ORSet.tags] at htag
      cases hget : s.state.entries[x]? with
      | none =>
        rw [hget] at htag
        exact absurd htag (Finset.notMem_empty tag)
      | some ts => rfl
  · refine (hmember s hs x).mpr ⟨a, ha, hadd, ?_⟩
    rintro ⟨d, hd, hdop, hseen⟩
    exact (hconc d hd hdop).1 hseen
  · have hiff := hmember t ht x
    rw [hsame, ← hmember s hs x] at hiff
    exact Bool.eq_iff_iff.mpr hiff

/-- One replica adds and removes an item; the other adds it and then hears of
    both, in a different order than the first hears of the second add. -/
def crossedAdds : List (Action 2 (SetOp String) Unit) :=
  [.perform first (.add "x" 1), .perform first (.remove "x"), .perform second (.add "x" 2),
   .receive first 4 (), .receive second 2 (), .receive second 3 ()]

/-- Both replicas end with the same history and the item as a member, because
    the second add was not seen by the remove. The tags they hold differ. -/
theorem crossedAdds_agree :
    (((setSystem 2 String).run crossedAdds).current first).known
        = (((setSystem 2 String).run crossedAdds).current second).known ∧
      (((setSystem 2 String).run crossedAdds).current first).state.tags "x" = {2} ∧
      (((setSystem 2 String).run crossedAdds).current second).state.tags "x" = {1, 2} ∧
      (((setSystem 2 String).run crossedAdds).current second).state.contains "x" = true ∧
      (((setSystem 2 String).run crossedAdds).current first).state.contains "x" = true := by
  have hsame : (((setSystem 2 String).run crossedAdds).current first).known
      = (((setSystem 2 String).run crossedAdds).current second).known := by decide
  have hfresh : Guarded (setSystem 2 String) FreshTag crossedAdds :=
    guarded_of_stepsAllowed _ _ _ ⟨by decide, by decide, by decide, trivial⟩
  have hwf := run_wellFormed (setSystem 2 String) crossedAdds
  have hmember :
      (((setSystem 2 String).run crossedAdds).current second).state.contains "x" = true := by
    decide +kernel
  have h := (observed_remove_semantics crossedAdds hfresh _ (hwf.current_mem second)).2.2.2
    _ (hwf.current_mem first) hsame "x"
  exact ⟨hsame, by decide +kernel, by decide +kernel, hmember, h.trans hmember⟩

end Crdt

end EssNode
