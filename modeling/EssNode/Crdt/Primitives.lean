import EssNode.Lib.FinMap

/-!
# Replicated Data Types

The five replicated types the distributed state is made of.

Each type is its source structure over finite maps and finite sets, and each
merge folds over the other side's entries as the source loop does. What a merge
gives at one key is then a lookup lemma, and everything later is said with those
lookups: the fold is not unfolded again.

Clock readings and fresh tags are arguments. Counter slots and their sum are
64-bit words and wrap as in the release build; timestamps are only compared, so
they are natural numbers.
-/

namespace EssNode

open FinMap Option Std.ExtTreeMap

namespace Crdt

/-- A value with the time and the name of its writer. -/
structure LwwRegister (T : Type*) where
  value : T
  ts : Nat
  nodeId : String
deriving DecidableEq, Repr

namespace LwwRegister

variable {T : Type*}

def new (value : T) (nodeId : String) (now : Nat) : LwwRegister T := ⟨value, now, nodeId⟩

def set (_self : LwwRegister T) (value : T) (nodeId : String) (now : Nat) : LwwRegister T :=
  ⟨value, now, nodeId⟩

/-- Take the other side when it is newer, or equally old and from a greater
    name. -/
def merge (self other : LwwRegister T) : LwwRegister T :=
  if other.ts > self.ts ∨ (other.ts = self.ts ∧ other.nodeId > self.nodeId) then other else self

end LwwRegister

/-- A grow-only set: each item with the time it was inserted. -/
structure GSet (T : Type*) [Ord T] where
  items : FinMap T Nat

namespace GSet

variable {T : Type*} [Ord T] [Std.TransOrd T]

def empty : GSet T := ⟨∅⟩

def insert (self : GSet T) (item : T) (now : Nat) : GSet T :=
  ⟨self.items.alter item (fun own => some (own.getD now))⟩

def contains (self : GSet T) (item : T) : Bool := self.items.contains item

/-- Take in the other side's items, keeping one's own times. -/
def merge (self other : GSet T) : GSet T :=
  ⟨other.items.foldl (fun acc item ts => acc.alter item (fun own => some (own.getD ts)))
    self.items⟩

variable [Std.LawfulEqOrd T] [DecidableEq T]

theorem find_insert (self : GSet T) (item x : T) (now : Nat) :
    (self.insert item now).items[x]?
      = if item = x then some ((self.items[x]?).getD now) else self.items[x]? := by
  rw [insert, find_alter]

/-- One's own time wins, so merging is first come, first kept. -/
theorem find_merge (self other : GSet T) (x : T) :
    (self.merge other).items[x]? = (self.items[x]?).or (other.items[x]?) := by
  rw [merge, find_foldl_alter]
  cases other.items[x]? with
  | none => rw [or_none]
  | some ts =>
    cases self.items[x]? with
    | none => rfl
    | some own => rfl

end GSet

/-- A grow-only counter: one slot for each replica name. -/
structure GCounter where
  counters : FinMap String Nat

namespace GCounter

def empty : GCounter := ⟨∅⟩

def increment (self : GCounter) (replica : String) (delta : Nat) : GCounter :=
  ⟨self.counters.alter replica (fun own => some ((own.getD 0 + delta) % 2 ^ 64))⟩

def total (self : GCounter) : Nat :=
  self.counters.foldl (fun acc _ value => (acc + value) % 2 ^ 64) 0

/-- Take the larger of the two slots at every name. -/
def merge (self other : GCounter) : GCounter :=
  ⟨mergeMax self.counters other.counters⟩

/-- A slot, absent ones reading as zero. -/
def slot (self : GCounter) (replica : String) : Nat := (self.counters[replica]?).getD 0

variable (self other : GCounter) (name : String)

theorem slot_increment (replica name : String) (delta : Nat) :
    (self.increment replica delta).slot name
      = if replica = name then (self.slot name + delta) % 2 ^ 64 else self.slot name := by
  rw [slot, increment, find_alter]
  by_cases h : replica = name
  · rw [if_pos h, if_pos h, getD_some]
    rfl
  · rw [if_neg h, if_neg h]
    rfl

theorem slot_merge : (self.merge other).slot name = max (self.slot name) (other.slot name) :=
  getD_mergeMax self.counters other.counters name

theorem mem_merge (h : name ∈ (self.merge other).counters) :
    name ∈ self.counters ∨ name ∈ other.counters := by
  simp only [mem_iff_isSome_getElem?] at h ⊢
  rw [merge, find_mergeMax] at h
  cases ho : other.counters[name]? with
  | none =>
    rw [ho] at h
    exact Or.inl h
  | some value => exact Or.inr rfl

theorem foldl_add_mod (l : List (String × Nat)) (acc : Nat) :
    (l.foldl (fun acc e => (acc + e.2) % 2 ^ 64) acc) % 2 ^ 64
      = (acc + (l.map Prod.snd).sum) % 2 ^ 64 := by
  induction l generalizing acc with
  | nil => rw [List.foldl_nil, List.map_nil, List.sum_nil, Nat.add_zero]
  | cons e l ih =>
    rw [List.foldl_cons, ih, List.map_cons, List.sum_cons, Nat.mod_add_mod, Nat.add_assoc]

theorem total_eq (names : Finset String) (hnames : ∀ name, name ∈ self.counters → name ∈ names)
    (hfits : ∑ name ∈ names, self.slot name < 2 ^ 64) :
    self.total = ∑ name ∈ names, self.slot name := by
  have hsum : (self.counters.toList.map Prod.snd).sum = ∑ name ∈ names, self.slot name :=
    sum_values self.counters names hnames
  have hmod := foldl_add_mod self.counters.toList 0
  -- Wrapped at every step or once at the end, the sum is the same.
  rw [Nat.zero_add, hsum, Nat.mod_eq_of_lt hfits] at hmod
  rw [total, foldl_eq_foldl_toList]
  -- The loop's own result is a word already.
  have hlt : ∀ (l : List (String × Nat)) (acc : Nat), acc < 2 ^ 64 →
      l.foldl (fun acc e => (acc + e.2) % 2 ^ 64) acc < 2 ^ 64 := by
    intro l
    induction l with
    | nil => exact fun acc hacc => hacc
    | cons e l ih => exact fun acc _ => ih _ (Nat.mod_lt _ (by decide))
  rw [← hmod]
  exact (Nat.mod_eq_of_lt (hlt _ 0 (by decide))).symm

end GCounter

/-- An observed-remove set: the tags each item was added under, and the tags
    that were removed. -/
structure ORSet (T : Type*) [Ord T] where
  entries : FinMap T (Finset UInt64)
  removed : Finset UInt64

namespace ORSet

variable {T : Type*} [Ord T] [Std.TransOrd T] (self : ORSet T) (x : T)

def empty : ORSet T := ⟨∅, ∅⟩

/-- Add an item under a fresh tag. -/
def add (self : ORSet T) (item : T) (tag : UInt64) : ORSet T :=
  { self with entries := self.entries.alter item (fun own => some (insert tag (own.getD ∅))) }

/-- Remove an item: its tags are removed for good and its entry goes. -/
def remove (self : ORSet T) (item : T) : ORSet T :=
  match self.entries[item]? with
  | some tags => { entries := self.entries.erase item, removed := self.removed ∪ tags }
  | none => self

def hasLive (removed tags : Finset UInt64) : Bool := decide (∃ tag ∈ tags, tag ∉ removed)

/-- An item is in the set while one of its tags is live. -/
def contains (self : ORSet T) (item : T) : Bool :=
  match self.entries[item]? with
  | some tags => hasLive self.removed tags
  | none => false

def elements (self : ORSet T) : List T := self.entries.keys

/-- Unite tags and removals, then drop the items without a live tag. -/
def merge (self other : ORSet T) : ORSet T :=
  let entries := other.entries.foldl (fun acc item tags =>
    acc.alter item (fun own => some (own.getD ∅ ∪ tags))) self.entries
  let removed := self.removed ∪ other.removed
  { entries := entries.filter (fun _ tags => hasLive removed tags), removed := removed }

/-- The tags of an item, none if it has no entry. -/
def tags (self : ORSet T) (item : T) : Finset UInt64 := (self.entries[item]?).getD ∅

theorem hasLive_iff (removed tags : Finset UInt64) :
    hasLive removed tags = true ↔ ∃ tag ∈ tags, tag ∉ removed :=
  decide_eq_true_iff

theorem contains_iff : self.contains x = true ↔ ∃ tag ∈ self.tags x, tag ∉ self.removed := by
  unfold contains tags
  cases self.entries[x]? with
  | none => simp
  | some ts => exact hasLive_iff self.removed ts

theorem empty_tags : (empty : ORSet T).tags x = ∅ := by
  rw [tags, empty, getElem?_empty, getD_none]

theorem removed_remove (item : T) : (self.remove item).removed = self.removed ∪ self.tags item := by
  unfold remove tags
  cases self.entries[item]? with
  | none => rw [getD_none, Finset.union_empty]
  | some ts => rw [getD_some]

theorem removed_merge (other : ORSet T) :
    (self.merge other).removed = self.removed ∪ other.removed := rfl

variable [Std.LawfulEqOrd T]

theorem mem_elements (self : ORSet T) (x : T) :
    x ∈ self.elements ↔ (self.entries[x]?).isSome = true := by
  rw [elements, mem_keys, mem_iff_isSome_getElem?]

variable [DecidableEq T] (self : ORSet T) (item : T) (other : ORSet T) (x : T) (tag : UInt64)

theorem find_add :
    (self.add item tag).entries[x]?
      = if item = x then some (insert tag (self.tags x)) else self.entries[x]? := by
  rw [add, find_alter]
  rfl

theorem tags_add :
    (self.add item tag).tags x = if item = x then insert tag (self.tags x) else self.tags x := by
  rw [tags, find_add]
  by_cases h : item = x
  · rw [if_pos h, if_pos h, getD_some]
  · rw [if_neg h, if_neg h]
    rfl

theorem find_remove :
    (self.remove item).entries[x]? = if item = x then none else self.entries[x]? := by
  unfold remove
  cases hget : self.entries[item]? with
  | none =>
    dsimp only
    by_cases h : item = x
    · rw [if_pos h, ← h, hget]
    · rw [if_neg h]
  | some ts => exact find_erase self.entries item x

theorem tags_remove : (self.remove item).tags x = if item = x then ∅ else self.tags x := by
  rw [tags, find_remove]
  by_cases h : item = x
  · rw [if_pos h, if_pos h, getD_none]
  · rw [if_neg h, if_neg h]
    rfl

theorem find_merge :
    (self.merge other).entries[x]?
      = if hasLive (self.removed ∪ other.removed) (self.tags x ∪ other.tags x) = true then
          some (self.tags x ∪ other.tags x) else none := by
  unfold merge
  dsimp only
  rw [getElem?_filter', find_foldl_alter]
  unfold tags
  -- Without an entry on the other side one's own is filtered as it is.
  cases other.entries[x]? with
  | none =>
    rw [getD_none, Finset.union_empty]
    cases self.entries[x]? with
    | none => simp [hasLive]
    | some ts => simp only [filter_some, getD_some]
  | some ts => simp only [filter_some, getD_some]

theorem mem_tags_merge :
    tag ∈ (self.merge other).tags x ↔
      (tag ∈ self.tags x ∨ tag ∈ other.tags x) ∧
        ∃ live, (live ∈ self.tags x ∨ live ∈ other.tags x) ∧
          live ∉ self.removed ∧ live ∉ other.removed := by
  rw [tags, find_merge]
  have hlive := hasLive_iff (self.removed ∪ other.removed) (self.tags x ∪ other.tags x)
  simp only [Finset.mem_union, not_or] at hlive
  split
  · rename_i h
    rw [getD_some, Finset.mem_union]
    exact ⟨fun hmem => ⟨hmem, hlive.mp h⟩, fun hmem => hmem.1⟩
  · rename_i h
    rw [getD_none]
    exact ⟨fun hmem => absurd hmem (Finset.notMem_empty tag),
      fun hmem => absurd (hlive.mpr hmem.2) h⟩

theorem contains_merge :
    (self.merge other).contains x = true ↔
      ∃ tag, (tag ∈ self.tags x ∨ tag ∈ other.tags x) ∧
        tag ∉ self.removed ∧ tag ∉ other.removed := by
  rw [contains_iff]
  simp only [mem_tags_merge, removed_merge, Finset.mem_union, not_or]
  constructor
  · rintro ⟨tag, ⟨hmem, -⟩, hlive⟩
    exact ⟨tag, hmem, hlive⟩
  · rintro ⟨tag, hmem, hlive⟩
    exact ⟨tag, ⟨hmem, tag, hmem, hlive⟩, hlive⟩

end ORSet

/-- What the registry stores about a peer. The reputation is kept as the bits
    of its 32-bit float. -/
structure PeerEntry where
  peerId : String
  role : String
  connected : Bool
  trusted : Bool
  reputationScore : UInt32
  lastSeen : Nat
deriving DecidableEq, Repr

/-- The newest entry known for each peer, with its time. -/
structure PeerRegistry where
  entries : FinMap String (PeerEntry × Nat)

namespace PeerRegistry

def empty : PeerRegistry := ⟨∅⟩

/-- Keep what is stored unless the offered entry is strictly newer. -/
def newer (offered : PeerEntry × Nat) : Option (PeerEntry × Nat) → Option (PeerEntry × Nat)
  | some own => if own.2 ≥ offered.2 then some own else some offered
  | none => some offered

theorem newer_spec (offered : PeerEntry × Nat) (own : Option (PeerEntry × Nat)) :
    ∃ kept, newer offered own = some kept ∧ (kept = offered ∨ own = some kept) ∧
      offered.2 ≤ kept.2 ∧ ∀ o, own = some o → o.2 ≤ kept.2 := by
  cases own with
  | none => exact ⟨offered, rfl, Or.inl rfl, le_refl _, fun o ho => by cases ho⟩
  | some o =>
    -- A tie goes to the stored entry.
    by_cases h : o.2 ≥ offered.2
    · refine ⟨o, if_pos h, Or.inr rfl, h, fun o' ho' => ?_⟩
      rw [← some.inj ho']
    · refine ⟨offered, if_neg h, Or.inl rfl, le_refl _, fun o' ho' => ?_⟩
      rw [← some.inj ho']
      omega

def upsert (self : PeerRegistry) (entry : PeerEntry) (ts : Nat) : PeerRegistry :=
  ⟨self.entries.alter entry.peerId (newer (entry, ts))⟩

def merge (self other : PeerRegistry) : PeerRegistry :=
  ⟨other.entries.foldl (fun acc peerId e => acc.alter peerId (newer e)) self.entries⟩

theorem find_upsert (self : PeerRegistry) (entry : PeerEntry) (ts : Nat) (p : String) :
    (self.upsert entry ts).entries[p]?
      = if entry.peerId = p then newer (entry, ts) self.entries[p]? else self.entries[p]? := by
  rw [upsert, find_alter]

theorem find_merge (self other : PeerRegistry) (p : String) :
    (self.merge other).entries[p]?
      = match other.entries[p]? with
        | some e => newer e self.entries[p]?
        | none => self.entries[p]? := by
  rw [merge, find_foldl_alter]
  cases other.entries[p]? <;> rfl

variable {self other : PeerRegistry} {p : String}

theorem find_upsert_cases {entry : PeerEntry} {ts : Nat} {e : PeerEntry × Nat}
    (h : (self.upsert entry ts).entries[p]? = some e) :
    self.entries[p]? = some e ∨ (entry.peerId = p ∧ e = (entry, ts)) := by
  rw [find_upsert] at h
  by_cases hp : entry.peerId = p
  · rw [if_pos hp] at h
    rcases newer_spec (entry, ts) self.entries[p]? with ⟨kept, hkept, horigin, -⟩
    rw [hkept, some.injEq] at h
    rw [h] at horigin
    rcases horigin with heq | hown
    · exact Or.inr ⟨hp, heq⟩
    · exact Or.inl hown
  · rw [if_neg hp] at h
    exact Or.inl h

theorem find_upsert_mono (entry : PeerEntry) (ts : Nat) {e : PeerEntry × Nat}
    (h : self.entries[p]? = some e) :
    ∃ kept, (self.upsert entry ts).entries[p]? = some kept ∧ e.2 ≤ kept.2 := by
  rw [find_upsert]
  by_cases hp : entry.peerId = p
  · rcases newer_spec (entry, ts) self.entries[p]? with ⟨kept, hkept, -, -, hown⟩
    rw [if_pos hp]
    exact ⟨kept, hkept, hown e h⟩
  · rw [if_neg hp]
    exact ⟨e, h, le_refl _⟩

theorem find_upsert_self (self : PeerRegistry) (entry : PeerEntry) (ts : Nat) :
    ∃ kept, (self.upsert entry ts).entries[entry.peerId]? = some kept ∧ ts ≤ kept.2 := by
  rcases newer_spec (entry, ts) self.entries[entry.peerId]? with ⟨kept, hkept, -, hoffered, -⟩
  rw [find_upsert, if_pos rfl]
  exact ⟨kept, hkept, hoffered⟩

theorem find_merge_cases {e : PeerEntry × Nat} (h : (self.merge other).entries[p]? = some e) :
    self.entries[p]? = some e ∨ other.entries[p]? = some e := by
  rw [find_merge] at h
  cases hother : other.entries[p]? with
  | none =>
    rw [hother] at h
    exact Or.inl h
  | some y =>
    rw [hother] at h
    dsimp only at h
    rcases newer_spec y self.entries[p]? with ⟨kept, hkept, horigin, -⟩
    rw [hkept, some.injEq] at h
    rw [h] at horigin
    rcases horigin with heq | hown
    · exact Or.inr (congrArg some heq.symm)
    · exact Or.inl hown

theorem find_merge_mono {e : PeerEntry × Nat}
    (h : self.entries[p]? = some e ∨ other.entries[p]? = some e) :
    ∃ kept, (self.merge other).entries[p]? = some kept ∧ e.2 ≤ kept.2 := by
  rw [find_merge]
  cases hother : other.entries[p]? with
  | none =>
    rw [hother] at h
    rcases h with hown | hnone
    · exact ⟨e, hown, le_refl _⟩
    · cases hnone
  | some y =>
    rcases newer_spec y self.entries[p]? with ⟨kept, hkept, -, hoffered, hown⟩
    refine ⟨kept, hkept, ?_⟩
    rw [hother, some.injEq] at h
    rcases h with h | h
    · exact hown e h
    · rw [← h]
      exact hoffered

end PeerRegistry

end Crdt

end EssNode
