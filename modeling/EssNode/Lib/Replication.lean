import Mathlib.Algebra.Order.BigOperators.Group.Finset

/-!
# Replicas and Causal Histories

State-based replication with a ghost record of what each state has seen.

Replicas change their own state by operations and take in states of one another by merging. Any
state that ever occurred may be merged, at any later time and any number of times, so a message
that is delayed, repeated or delivered out of order is a merge of an old snapshot. Nothing here
says what a state is or what merging does.

Beside each state runs its causal history: the set of operations that went into it. An operation
is an event with the identifiers of the events its replica had seen.

Histories have three properties whatever the states are, collected in `WellFormed`. They are
closed under causes, each replica's part of a history is an initial segment of what that replica
did, and a replica knows all it did itself. The second makes two histories comparable at each
replica (`own_comparable`), and so the larger of two per-replica tallies is the tally of the
union (`tally_union`).

A property of snapshots that holds at the start and is kept by operations and by merging holds
of every snapshot of every run: `snapshot_inv` is that induction, done once.
-/

namespace EssNode

open List

namespace Replication

open Finset (mem_insert subset_insert)

/-- Replicas `Fin n` with states `S`, operations `O`, and merges that may read
    something of their own, `M`, such as a clock. -/
structure System (n : Nat) (S O M : Type*) where
  init : Fin n → S
  perform : Fin n → O → S → S
  merge : M → S → S → S

/-- An operation as it was issued: its number, its replica, and the numbers of
    the events the replica had seen. -/
structure Event (n : Nat) (O : Type*) where
  id : Nat
  replica : Fin n
  op : O
  seen : Finset Nat
deriving DecidableEq

/-- A state with its causal history. -/
structure Snapshot (n : Nat) (S O : Type*) where
  state : S
  known : Finset (Event n O)

/-- What replicas do. A merge names the snapshot it takes in by its position
    among all that occurred. -/
inductive Action (n : Nat) (O M : Type*) where
  | perform (r : Fin n) (op : O)
  | receive (r : Fin n) (i : Nat) (m : M)

/-- The replicas' snapshots, every snapshot that occurred, oldest first, and
    every event issued. -/
structure World (n : Nat) (S O : Type*) where
  current : Fin n → Snapshot n S O
  past : List (Snapshot n S O)
  issued : Finset (Event n O)

variable {n : Nat} {S O M : Type*} (w : World n S O) (r : Fin n) (s : Snapshot n S O)

/-- The event a replica would issue next. -/
def World.event (w : World n S O) (r : Fin n) (op : O) : Event n O where
  id := w.issued.card
  replica := r
  op := op
  seen := (w.current r).known.image Event.id

/-- Give a replica a new snapshot. -/
def World.put (w : World n S O) (r : Fin n) (s : Snapshot n S O) (issued : Finset (Event n O)) :
    World n S O where
  current := Function.update w.current r s
  past := w.past ++ [s]
  issued := issued

/-- The replicas before anything happened. -/
def System.start (sys : System n S O M) : World n S O where
  current r := ⟨sys.init r, ∅⟩
  past := ofFn (fun r => ⟨sys.init r, ∅⟩)
  issued := ∅

open World

@[simp] theorem World.put_current_self (issued : Finset (Event n O)) :
    (w.put r s issued).current r = s := by
  simp only [put, Function.update_self]

theorem World.put_current_of_ne {r q : Fin n} (hq : q ≠ r) (s : Snapshot n S O)
    (issued : Finset (Event n O)) : (w.put r s issued).current q = w.current q := by
  simp only [put, Function.update_of_ne hq]

theorem World.mem_put_past (t : Snapshot n S O) (issued : Finset (Event n O)) :
    t ∈ (w.put r s issued).past ↔ t ∈ w.past ∨ t = s := by
  rw [put, mem_append, mem_singleton]

/-- What holds of the histories in a world, whatever the states are. -/
structure WellFormed (w : World n S O) : Prop where
  current_mem : ∀ r, w.current r ∈ w.past
  known_issued : ∀ s ∈ w.past, s.known ⊆ w.issued
  id_lt : ∀ e ∈ w.issued, e.id < w.issued.card
  id_inj : ∀ e ∈ w.issued, ∀ e' ∈ w.issued, e.id = e'.id → e = e'
  seen_lt : ∀ e ∈ w.issued, ∀ i ∈ e.seen, i < e.id
  own : ∀ e ∈ w.issued, e ∈ (w.current e.replica).known
  initial : ∀ s ∈ w.past, ∀ e ∈ s.known, ∀ e' ∈ w.issued,
    e'.replica = e.replica → e'.id < e.id → e' ∈ s.known
  causal : ∀ s ∈ w.past, ∀ e ∈ s.known, ∀ e' ∈ w.issued, e'.id ∈ e.seen → e' ∈ s.known

theorem start_wellFormed (sys : System n S O M) : WellFormed sys.start := by
  have hempty : ∀ s ∈ sys.start.past, s.known = ∅ := by
    intro s hs
    rcases mem_ofFn.mp hs with ⟨r, rfl⟩
    rfl
  have hnone : ∀ e, e ∉ sys.start.issued := fun e => Finset.notMem_empty e
  refine ⟨fun r => mem_ofFn.mpr ⟨r, rfl⟩, fun s hs => ?_, ?_, ?_, ?_, ?_, ?_, ?_⟩
  · rw [hempty s hs]
    exact Finset.empty_subset _
  · exact fun e he => absurd he (hnone e)
  · exact fun e he => absurd he (hnone e)
  · exact fun e he => absurd he (hnone e)
  · exact fun e he => absurd he (hnone e)
  · exact fun s _ e _ e' he' => absurd he' (hnone e')
  · exact fun s _ e _ e' he' => absurd he' (hnone e')

variable {w : World n S O}

/-- A replica may be given a snapshot whose history grows its own, is closed,
    and stays within the issued events. Old snapshots keep their closure when
    an event is issued, because its number is above every number they name. -/
theorem WellFormed.put (h : WellFormed w) (r : Fin n) (s : Snapshot n S O)
    (issued : Finset (Event n O)) (hsub : w.issued ⊆ issued)
    (hnew : ∀ e ∈ issued, e ∈ w.issued ∨
      (e.replica = r ∧ e ∈ s.known ∧ w.issued.card ≤ e.id))
    (hid_lt : ∀ e ∈ issued, e.id < issued.card)
    (hid_inj : ∀ e ∈ issued, ∀ e' ∈ issued, e.id = e'.id → e = e')
    (hseen_lt : ∀ e ∈ issued, ∀ i ∈ e.seen, i < e.id)
    (hissued : s.known ⊆ issued) (hgrows : (w.current r).known ⊆ s.known)
    (hinitial : ∀ e ∈ s.known, ∀ e' ∈ issued,
      e'.replica = e.replica → e'.id < e.id → e' ∈ s.known)
    (hcausal : ∀ e ∈ s.known, ∀ e' ∈ issued, e'.id ∈ e.seen → e' ∈ s.known) :
    WellFormed (w.put r s issued) := by
  -- An event below an old one is itself old.
  have hold : ∀ t ∈ w.past, ∀ e ∈ t.known, ∀ e' ∈ issued, e'.id < e.id → e' ∈ w.issued := by
    intro t ht e he e' he' hlt
    have hid := h.id_lt e (h.known_issued t ht he)
    rcases hnew e' he' with hmem | ⟨-, -, hge⟩
    · exact hmem
    · omega
  refine ⟨fun q => ?_, fun t ht => ?_, hid_lt, hid_inj, hseen_lt, fun e he => ?_,
    fun t ht e he e' he' hrep hlt => ?_, fun t ht e he e' he' hseen => ?_⟩
  -- Every current snapshot has occurred: the new one just now, the others before.
  · rw [mem_put_past]
    by_cases hq : q = r
    · rw [hq, put_current_self]
      exact Or.inr rfl
    · rw [put_current_of_ne w hq]
      exact Or.inl (h.current_mem q)
  · rcases (w.mem_put_past r s t issued).mp ht with ht | rfl
    · exact (h.known_issued t ht).trans hsub
    · exact hissued
  -- A replica still knows its own events: its history only grew.
  · by_cases hq : e.replica = r
    · rw [hq, put_current_self]
      rcases hnew e he with hmem | ⟨-, hmem, -⟩
      · refine hgrows ?_
        rw [← hq]
        exact h.own e hmem
      · exact hmem
    · rw [put_current_of_ne w hq]
      rcases hnew e he with hmem | ⟨hrep, -, -⟩
      · exact h.own e hmem
      · exact absurd hrep hq
  -- Both closures: an old history names old events only, the new one is closed.
  · rcases (w.mem_put_past r s t issued).mp ht with ht | rfl
    · exact h.initial t ht e he e' (hold t ht e he e' he' hlt) hrep hlt
    · exact hinitial e he e' he' hrep hlt
  · rcases (w.mem_put_past r s t issued).mp ht with ht | rfl
    · have hlt := h.seen_lt e (h.known_issued t ht he) _ hseen
      exact h.causal t ht e he e' (hold t ht e he e' he' hlt) hseen
    · exact hcausal e he e' he' hseen

theorem World.event_notMem (h : WellFormed w) (r : Fin n) (op : O) :
    w.event r op ∉ w.issued := by
  intro hmem
  have hlt := h.id_lt _ hmem
  exact absurd hlt (lt_irrefl w.issued.card)

theorem World.event_notSeen (h : WellFormed w) (r : Fin n) (op : O) {d : Event n O}
    (hd : d ∈ w.issued) : (w.event r op).id ∉ d.seen := by
  intro hseen
  have hlt := h.seen_lt d hd _ hseen
  have hid := h.id_lt d hd
  have hcard : (w.event r op).id = w.issued.card := rfl
  omega

/-- The events of one replica in a history. -/
def ownEvents (r : Fin n) (known : Finset (Event n O)) : Finset (Event n O) :=
  known.filter (fun e => e.replica = r)

theorem mem_ownEvents {r : Fin n} {known : Finset (Event n O)} {e : Event n O} :
    e ∈ ownEvents r known ↔ e ∈ known ∧ e.replica = r :=
  Finset.mem_filter

/-- Of two histories, one knows all the other knows of a given replica. -/
theorem own_comparable (h : WellFormed w) {s t : Snapshot n S O} (hs : s ∈ w.past) (ht : t ∈ w.past)
    (r : Fin n) :
    ownEvents r s.known ⊆ ownEvents r t.known ∨ ownEvents r t.known ⊆ ownEvents r s.known := by
  by_contra hboth
  rw [not_or, Finset.not_subset, Finset.not_subset] at hboth
  rcases hboth with ⟨⟨e, he, het⟩, ⟨e', he', hes⟩⟩
  rw [mem_ownEvents] at he het he' hes
  -- The earlier of the two events belongs to the history that has the later.
  rcases Nat.lt_trichotomy e.id e'.id with hlt | heq | hgt
  · exact het ⟨h.initial t ht e' he'.1 e (h.known_issued s hs he.1) (he.2.trans he'.2.symm) hlt,
      he.2⟩
  · have hsame := h.id_inj e (h.known_issued s hs he.1) e' (h.known_issued t ht he'.1) heq
    rw [hsame] at het
    exact het he'
  · exact hes ⟨h.initial s hs e he.1 e' (h.known_issued t ht he'.1) (he'.2.trans he.2.symm) hgt,
      he'.2⟩

/-- The weight of one replica's events in a history. -/
def tally (weight : O → Nat) (r : Fin n) (known : Finset (Event n O)) : Nat :=
  ∑ e ∈ ownEvents r known, weight e.op

theorem tally_empty (weight : O → Nat) (r : Fin n) :
    tally weight r (∅ : Finset (Event n O)) = 0 := by
  rw [tally, ownEvents, Finset.filter_empty, Finset.sum_empty]

theorem sum_tally (weight : O → Nat) (known : Finset (Event n O)) :
    ∑ r, tally weight r known = ∑ e ∈ known, weight e.op :=
  Finset.sum_fiberwise known Event.replica (fun e => weight e.op)

theorem tally_le_iff (h : WellFormed w) {s t : Snapshot n S O} (hs : s ∈ w.past) (ht : t ∈ w.past)
    (weight : O → Nat) (r : Fin n) :
    tally weight r s.known ≤ tally weight r t.known ↔
      ∀ e ∈ s.known, e.replica = r → 0 < weight e.op → e ∈ t.known := by
  constructor
  · intro hle e he hrep hpos
    rcases own_comparable h hs ht r with hsub | hsub
    · exact (mem_ownEvents.mp (hsub (mem_ownEvents.mpr ⟨he, hrep⟩))).1
    · by_contra hnot
      -- A weighted event beyond the smaller history would make the larger heavier.
      have hlt : tally weight r t.known < tally weight r s.known :=
        Finset.sum_lt_sum_of_subset hsub (mem_ownEvents.mpr ⟨he, hrep⟩)
          (fun hmem => hnot (mem_ownEvents.mp hmem).1) hpos (fun _ _ _ => Nat.zero_le _)
      omega
  · intro hall
    -- Events without weight add nothing, so only the weighted ones are compared.
    have hfilter : tally weight r s.known
        = ∑ e ∈ (ownEvents r s.known).filter (fun e => 0 < weight e.op), weight e.op := by
      refine (Finset.sum_filter_of_ne (fun e _ hne => ?_)).symm
      exact Nat.pos_of_ne_zero hne
    rw [hfilter]
    refine Finset.sum_le_sum_of_subset (fun e he => ?_)
    rw [Finset.mem_filter, mem_ownEvents] at he
    exact mem_ownEvents.mpr ⟨hall e he.1.1 he.1.2 he.2, he.1.2⟩

section Runs

variable [DecidableEq O] (sys : System n S O M) (ok : World n S O → Fin n → O → Prop)
  (acts : List (Action n O M))

/-- The snapshot an operation leaves. -/
def System.performed (sys : System n S O M) (w : World n S O) (r : Fin n) (op : O) :
    Snapshot n S O where
  state := sys.perform r op (w.current r).state
  known := insert (w.event r op) (w.current r).known

/-- The snapshot a merge leaves. -/
def System.merged (sys : System n S O M) (m : M) (s t : Snapshot n S O) : Snapshot n S O where
  state := sys.merge m s.state t.state
  known := s.known ∪ t.known

/-- One action. A merge of a snapshot that has not occurred does nothing. -/
def System.exec (sys : System n S O M) (w : World n S O) : Action n O M → World n S O
  | .perform r op => w.put r (sys.performed w r op) (insert (w.event r op) w.issued)
  | .receive r i m =>
    match w.past[i]? with
    | none => w
    | some s => w.put r (sys.merged m (w.current r) s) w.issued

/-- The world after a sequence of actions. -/
def System.run (sys : System n S O M) (acts : List (Action n O M)) : World n S O :=
  acts.foldl sys.exec sys.start

theorem System.run_concat (a : Action n O M) :
    sys.run (acts ++ [a]) = sys.exec (sys.run acts) a := by
  rw [System.run, foldl_append, foldl_cons, foldl_nil]
  rfl

/-- Every operation of the run meets the condition in the world it is issued
    in. -/
def Guarded (sys : System n S O M) (ok : World n S O → Fin n → O → Prop)
    (acts : List (Action n O M)) : Prop :=
  ∀ before r op after, acts = before ++ .perform r op :: after → ok (sys.run before) r op

theorem Guarded.init {sys : System n S O M} {ok : World n S O → Fin n → O → Prop}
    {acts : List (Action n O M)} {a : Action n O M} (h : Guarded sys ok (acts ++ [a])) :
    Guarded sys ok acts := by
  intro before r op after heq
  refine h before r op (after ++ [a]) ?_
  rw [heq, append_assoc, cons_append]

theorem Guarded.last {sys : System n S O M} {ok : World n S O → Fin n → O → Prop}
    {acts : List (Action n O M)} {r : Fin n} {op : O}
    (h : Guarded sys ok (acts ++ [.perform r op])) : ok (sys.run acts) r op :=
  h acts r op [] rfl

/-- The same condition, checked action by action from a given world. -/
def StepsAllowed (sys : System n S O M) (ok : World n S O → Fin n → O → Prop) :
    World n S O → List (Action n O M) → Prop
  | _, [] => True
  | w, .perform r op :: acts => ok w r op ∧ StepsAllowed sys ok (sys.exec w (.perform r op)) acts
  | w, .receive r i m :: acts => StepsAllowed sys ok (sys.exec w (.receive r i m)) acts

theorem guarded_of_stepsAllowed (h : StepsAllowed sys ok sys.start acts) : Guarded sys ok acts := by
  intro before r op after heq
  -- Induction on the actions before the operation, from whatever world they start in.
  have hgen : ∀ (w : World n S O) (before acts : List (Action n O M)),
      acts = before ++ .perform r op :: after → StepsAllowed sys ok w acts →
        ok (before.foldl sys.exec w) r op := by
    intro w before
    induction before generalizing w with
    | nil =>
      intro acts heq hsteps
      rw [heq] at hsteps
      exact hsteps.1
    | cons a before ih =>
      intro acts heq hsteps
      rw [heq, cons_append] at hsteps
      refine ih (sys.exec w a) _ rfl ?_
      cases a with
      | perform q op' => exact hsteps.2
      | receive q i m => exact hsteps
  exact hgen sys.start before acts heq h

theorem perform_wellFormed {w : World n S O} (h : WellFormed w) (r : Fin n) (op : O) :
    WellFormed (sys.exec w (.perform r op)) := by
  have hfresh := event_notMem h r op
  have hcard : (insert (w.event r op) w.issued).card = w.issued.card + 1 :=
    Finset.card_insert_of_notMem hfresh
  have hknown := h.known_issued _ (h.current_mem r)
  have hid : (w.event r op).id = w.issued.card := rfl
  have hseen : ∀ i, i ∈ (w.event r op).seen ↔ ∃ e ∈ (w.current r).known, e.id = i :=
    fun i => Finset.mem_image
  refine h.put r _ _ (subset_insert _ _) ?_ ?_ ?_ ?_ ?_ ?_ ?_ ?_
  · intro e he
    rcases mem_insert.mp he with rfl | hmem
    · exact Or.inr ⟨rfl, Finset.mem_insert_self _ _, le_refl _⟩
    · exact Or.inl hmem
  · intro e he
    rcases mem_insert.mp he with rfl | hmem
    · rw [hcard, hid]
      omega
    · have hlt := h.id_lt e hmem
      omega
  -- Numbers stay distinct: the new one is above all others.
  · intro e he e' he' heq
    rcases mem_insert.mp he with rfl | hmem <;>
      rcases mem_insert.mp he' with rfl | hmem'
    · rfl
    · have hlt := h.id_lt e' hmem'
      omega
    · have hlt := h.id_lt e hmem
      omega
    · exact h.id_inj e hmem e' hmem' heq
  · intro e he i hi
    rcases mem_insert.mp he with rfl | hmem
    · rcases (hseen i).mp hi with ⟨e', he', rfl⟩
      exact h.id_lt e' (hknown he')
    · exact h.seen_lt e hmem i hi
  · exact Finset.insert_subset_insert _ hknown
  · exact subset_insert _ _
  · intro e he e' he' hrep hlt
    rcases mem_insert.mp he' with rfl | hmem'
    · exact Finset.mem_insert_self _ _
    refine Finset.mem_insert_of_mem ?_
    rcases mem_insert.mp he with rfl | hmem
    · -- The replica knows everything it did before.
      have hown := h.own e' hmem'
      rwa [show e'.replica = r from hrep] at hown
    · exact h.initial _ (h.current_mem r) e hmem e' hmem' hrep hlt
  · intro e he e' he' hin
    rcases mem_insert.mp he' with rfl | hmem'
    · exact Finset.mem_insert_self _ _
    refine Finset.mem_insert_of_mem ?_
    rcases mem_insert.mp he with rfl | hmem
    · -- The causes of the new event are the replica's history, by number.
      rcases (hseen _).mp hin with ⟨e'', he'', heq⟩
      rw [← h.id_inj e'' (hknown he'') e' hmem' heq]
      exact he''
    · exact h.causal _ (h.current_mem r) e hmem e' hmem' hin

theorem merge_wellFormed {w : World n S O} (h : WellFormed w) (r : Fin n) (m : M)
    {t : Snapshot n S O} (ht : t ∈ w.past) :
    WellFormed (w.put r (sys.merged m (w.current r) t) w.issued) := by
  have hcur := h.current_mem r
  refine h.put r _ _ (Finset.Subset.refl _) (fun e he => Or.inl he) h.id_lt h.id_inj h.seen_lt
    (Finset.union_subset (h.known_issued _ hcur) (h.known_issued _ ht))
    Finset.subset_union_left ?_ ?_
  · intro e he e' he' hrep hlt
    rcases Finset.mem_union.mp he with hmem | hmem
    · exact Finset.mem_union_left _ (h.initial _ hcur e hmem e' he' hrep hlt)
    · exact Finset.mem_union_right _ (h.initial _ ht e hmem e' he' hrep hlt)
  · intro e he e' he' hin
    rcases Finset.mem_union.mp he with hmem | hmem
    · exact Finset.mem_union_left _ (h.causal _ hcur e hmem e' he' hin)
    · exact Finset.mem_union_right _ (h.causal _ ht e hmem e' he' hin)

theorem exec_wellFormed {w : World n S O} (h : WellFormed w) (a : Action n O M) :
    WellFormed (sys.exec w a) := by
  cases a with
  | perform r op => exact perform_wellFormed sys h r op
  | receive r i m =>
    rw [System.exec]
    cases hget : w.past[i]? with
    | none => exact h
    | some t => exact merge_wellFormed sys h r m (mem_of_getElem? hget)

theorem run_wellFormed : WellFormed (sys.run acts) := by
  induction acts using reverseRecOn with
  | nil => exact start_wellFormed sys
  | append_singleton acts a ih =>
    rw [System.run_concat]
    exact exec_wellFormed sys ih a

theorem exec_grows (w : World n S O) (a : Action n O M) :
    w.issued ⊆ (sys.exec w a).issued ∧
      ∀ r, (w.current r).known ⊆ ((sys.exec w a).current r).known := by
  -- Only the acting replica's snapshot changes, to one with a larger history.
  have hput : ∀ (q : Fin n) (t : Snapshot n S O) (issued : Finset (Event n O)),
      (w.current q).known ⊆ t.known →
        ∀ r, (w.current r).known ⊆ ((w.put q t issued).current r).known := by
    intro q t issued hsub r
    by_cases hr : r = q
    · rw [hr, put_current_self]
      exact hsub
    · rw [put_current_of_ne w hr]
  cases a with
  | perform q op =>
    exact ⟨subset_insert _ _, hput q _ _ (subset_insert _ _)⟩
  | receive q i m =>
    rw [System.exec]
    cases w.past[i]? with
    | none => exact ⟨Finset.Subset.refl _, fun r => Finset.Subset.refl _⟩
    | some t => exact ⟨Finset.Subset.refl _, hput q _ _ Finset.subset_union_left⟩

theorem run_append_grows (more : List (Action n O M)) :
    (sys.run acts).issued ⊆ (sys.run (acts ++ more)).issued ∧
      ∀ r, ((sys.run acts).current r).known ⊆ ((sys.run (acts ++ more)).current r).known := by
  induction more using reverseRecOn with
  | nil =>
    rw [append_nil]
    exact ⟨Finset.Subset.refl _, fun r => Finset.Subset.refl _⟩
  | append_singleton more a ih =>
    rw [← append_assoc, System.run_concat]
    have hstep := exec_grows sys (sys.run (acts ++ more)) a
    exact ⟨ih.1.trans hstep.1, fun r => (ih.2 r).trans (hstep.2 r)⟩

theorem current_inv (inv : Fin n → S → Prop) (hinit : ∀ r, inv r (sys.init r))
    (hperform : ∀ r op s, inv r s → inv r (sys.perform r op s))
    (hmerge : ∀ r m s t, inv r s → inv r (sys.merge m s t)) (acts : List (Action n O M))
    (r : Fin n) : inv r ((sys.run acts).current r).state := by
  induction acts using reverseRecOn with
  | nil => exact hinit r
  | append_singleton acts a ih =>
    rw [System.run_concat]
    -- Another replica's action leaves this one's state alone.
    cases a with
    | perform q op =>
      by_cases hq : r = q
      · rw [← hq, System.exec, put_current_self]
        exact hperform r op _ ih
      · rw [System.exec, put_current_of_ne _ hq]
        exact ih
    | receive q i m =>
      rw [System.exec]
      cases (sys.run acts).past[i]? with
      | none => exact ih
      | some t =>
        dsimp only
        by_cases hq : r = q
        · rw [← hq, put_current_self]
          exact hmerge r m _ _ ih
        · rw [put_current_of_ne _ hq]
          exact ih

/-- What the initial snapshots, operations and merges keep, every snapshot of
    every guarded run has. A step may use that the run so far was guarded and
    that the property holds of all snapshots so far. -/
theorem snapshot_inv (inv : Snapshot n S O → Prop) (hinit : ∀ r, inv ⟨sys.init r, ∅⟩)
    (hperform : ∀ acts r op, Guarded sys ok acts → (∀ s ∈ (sys.run acts).past, inv s) →
      ok (sys.run acts) r op → inv (sys.performed (sys.run acts) r op))
    (hmerge : ∀ acts m, Guarded sys ok acts → (∀ s ∈ (sys.run acts).past, inv s) →
      ∀ s ∈ (sys.run acts).past, ∀ t ∈ (sys.run acts).past, inv (sys.merged m s t))
    (acts : List (Action n O M)) (hok : Guarded sys ok acts) :
    ∀ s ∈ (sys.run acts).past, inv s := by
  induction acts using reverseRecOn with
  | nil =>
    intro s hs
    rcases mem_ofFn.mp hs with ⟨r, rfl⟩
    exact hinit r
  | append_singleton acts a ih =>
    have hpast := ih hok.init
    have hwf := run_wellFormed sys acts
    -- The action adds at most one snapshot, and old ones have the property.
    rw [System.run_concat]
    cases a with
    | perform r op =>
      intro s hs
      rcases (mem_put_past _ _ _ _ _).mp hs with hold | rfl
      · exact hpast s hold
      · exact hperform acts r op hok.init hpast hok.last
    | receive r i m =>
      rw [System.exec]
      cases hget : (sys.run acts).past[i]? with
      | none => exact hpast
      | some t =>
        intro s hs
        rcases (mem_put_past _ _ _ _ _).mp hs with hold | rfl
        · exact hpast s hold
        · exact hmerge acts m hok.init hpast _ (hwf.current_mem r) t
            (mem_of_getElem? hget)

/-- A symmetric relation between states that new states stand in to all that
    occurred holds between any two states of a guarded run. -/
theorem pairwise_inv (rel : S → S → Prop) (hrefl : ∀ a, rel a a) (hsymm : ∀ a b, rel a b → rel b a)
    (hinit : ∀ r q, rel (sys.init r) (sys.init q))
    (hperform : ∀ (w : World n S O) r op, (w.current r) ∈ w.past → ok w r op →
      (∀ s ∈ w.past, ∀ t ∈ w.past, rel s.state t.state) →
        ∀ u ∈ w.past, rel (sys.perform r op (w.current r).state) u.state)
    (hmerge : ∀ m a b c, rel a c → rel b c → rel (sys.merge m a b) c) (acts : List (Action n O M))
    (hok : Guarded sys ok acts) :
    ∀ s ∈ (sys.run acts).past, ∀ t ∈ (sys.run acts).past, rel s.state t.state := by
  induction acts using reverseRecOn with
  | nil =>
    intro s hs t ht
    rcases mem_ofFn.mp hs with ⟨r, rfl⟩
    rcases mem_ofFn.mp ht with ⟨q, rfl⟩
    exact hinit r q
  | append_singleton acts a ih =>
    have hpast := ih hok.init
    have hwf := run_wellFormed sys acts
    -- A snapshot related to all old ones can be added.
    have hput : ∀ (r : Fin n) (x : Snapshot n S O) (issued : Finset (Event n O)),
        (∀ u ∈ (sys.run acts).past, rel x.state u.state) →
        ∀ s ∈ ((sys.run acts).put r x issued).past, ∀ t ∈ ((sys.run acts).put r x issued).past,
          rel s.state t.state := by
      intro r x issued hx s hs t ht
      rcases (mem_put_past _ _ _ _ _).mp hs with hsold | hsnew <;>
        rcases (mem_put_past _ _ _ _ _).mp ht with htold | htnew
      · exact hpast s hsold t htold
      · rw [htnew]
        exact hsymm _ _ (hx s hsold)
      · rw [hsnew]
        exact hx t htold
      · rw [hsnew, htnew]
        exact hrefl _
    rw [System.run_concat]
    cases a with
    | perform r op =>
      exact hput r _ _ (hperform _ r op (hwf.current_mem r) hok.last hpast)
    | receive r i m =>
      rw [System.exec]
      cases hget : (sys.run acts).past[i]? with
      | none => exact hpast
      | some t =>
        exact hput r _ _ (fun u hu => hmerge m _ _ _ (hpast _ (hwf.current_mem r) u hu)
          (hpast t (mem_of_getElem? hget) u hu))

theorem tally_insert (weight : O → Nat) (r : Fin n) {e : Event n O} {known : Finset (Event n O)}
    (he : e ∉ known) :
    tally weight r (insert e known)
      = if e.replica = r then tally weight r known + weight e.op else tally weight r known := by
  rw [tally, ownEvents, Finset.filter_insert]
  by_cases hrep : e.replica = r
  · have hfresh : e ∉ known.filter (fun e => e.replica = r) :=
      fun hmem => he (Finset.mem_filter.mp hmem).1
    rw [if_pos hrep, if_pos hrep, Finset.sum_insert hfresh, Nat.add_comm]
    rfl
  · rw [if_neg hrep, if_neg hrep]
    rfl

theorem tally_union {w : World n S O} (h : WellFormed w) {s t : Snapshot n S O} (hs : s ∈ w.past)
    (ht : t ∈ w.past) (weight : O → Nat) (r : Fin n) :
    tally weight r (s.known ∪ t.known)
      = max (tally weight r s.known) (tally weight r t.known) := by
  have hunion : ownEvents r (s.known ∪ t.known) = ownEvents r s.known ∪ ownEvents r t.known :=
    Finset.filter_union _ _ _
  -- At one replica the union is the larger of the two histories.
  rcases own_comparable h hs ht r with hsub | hsub
  · have hle : tally weight r s.known ≤ tally weight r t.known := Finset.sum_le_sum_of_subset hsub
    rw [max_eq_right hle, tally, hunion, Finset.union_eq_right.mpr hsub]
    rfl
  · have hle : tally weight r t.known ≤ tally weight r s.known := Finset.sum_le_sum_of_subset hsub
    rw [max_eq_left hle, tally, hunion, Finset.union_eq_left.mpr hsub]
    rfl

end Runs

/-- The replicas of a system of two. -/
def first : Fin 2 := 0

def second : Fin 2 := 1

end Replication

end EssNode
