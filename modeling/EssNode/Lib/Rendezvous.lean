import EssNode.Lib.FinMap

/-!
# Callers and their Results

A service numbers the requests it takes. The caller of a request registers a sender under
its number and waits, and whoever gets the result takes the sender out and sends the result
through it. A result that comes before the sender is registered is dropped.

The number is given in one step and the sender is registered in another, so between the two
there is a time at which a result is lost. What a desk says at any time is determined by
which callers have registered so far: a number has a sender, or its call has returned,
exactly if the caller registered (`Kept`). So a result for a call that has not returned finds
a sender exactly if the caller had registered before.

A call that times out leaves its sender behind. It is taken out with the result, which
nobody gets.
-/

namespace EssNode

namespace Rendezvous

/-- The next number, the numbers with a sender, and what calls returned. -/
structure Desk (R : Type*) where
  nextId : Nat := 0
  registered : Finset Nat := ∅
  returned : FinMap Nat R := ∅

/-- What happens at a desk: a request gets a number, its caller registers a sender, a result
    comes in, or the caller gives up. -/
inductive Move (R : Type*) where
  | issue
  | register (id : Nat)
  | complete (id : Nat) (result : R)
  | expire (id : Nat) (result : R)

namespace Desk

variable {R : Type*} (d : Desk R)

/-- A call returns, unless it has returned. -/
def conclude (id : Nat) (result : R) : Desk R :=
  if d.returned.contains id then d else { d with returned := d.returned.insert id result }

/-- Take the sender of a number out and send a result through it. -/
def settle (id : Nat) (result : R) : Desk R :=
  if id ∈ d.registered then
    { d.conclude id result with registered := d.registered.erase id }
  else d

/-- Register a sender under a number that was given and whose call has not returned. -/
def register (id : Nat) : Desk R :=
  if id < d.nextId ∧ ¬ d.returned.contains id then
    { d with registered := insert id d.registered }
  else d

/-- A caller that waits gives up. Its sender stays. -/
def expire (id : Nat) (result : R) : Desk R :=
  if id ∈ d.registered then d.conclude id result else d

def move : Move R → Desk R
  | .issue => { d with nextId := d.nextId + 1 }
  | .register id => d.register id
  | .complete id result => d.settle id result
  | .expire id result => d.expire id result

/-- A call that has a number and has not returned. -/
def Open (id : Nat) : Prop := id < d.nextId ∧ d.returned.contains id = false

instance (id : Nat) : Decidable (d.Open id) := inferInstanceAs (Decidable (_ ∧ _))

end Desk

variable {R : Type*} {d : Desk R} {id : Nat} {result : R}

/-- A number has a sender or its call has returned exactly if its caller has registered. -/
def Kept (d : Desk R) (callers : Set Nat) : Prop :=
  ∀ id, id ∈ d.registered ∨ d.returned.contains id = true ↔ id ∈ callers

theorem kept_empty : Kept ({} : Desk R) ∅ := by
  intro id
  simp

theorem contains_conclude (d : Desk R) (id : Nat) (result : R) (id' : Nat) :
    (d.conclude id result).returned.contains id' = true ↔
      id = id' ∨ d.returned.contains id' = true := by
  unfold Desk.conclude
  by_cases hreturned : d.returned.contains id = true
  · rw [if_pos hreturned]
    refine ⟨Or.inr, fun h => ?_⟩
    rcases h with rfl | h
    · exact hreturned
    · exact h
  · rw [if_neg hreturned]
    simp [Std.ExtTreeMap.contains_insert]

theorem registered_conclude (d : Desk R) (id : Nat) (result : R) :
    (d.conclude id result).registered = d.registered ∧
      (d.conclude id result).nextId = d.nextId := by
  unfold Desk.conclude
  split
  · exact ⟨rfl, rfl⟩
  · exact ⟨rfl, rfl⟩

theorem Kept.move {callers : Set Nat} (h : Kept d callers) (m : Move R) :
    Kept (d.move m) (callers ∪ {id | m = .register id ∧ id < d.nextId}) := by
  intro id
  rw [Set.mem_union, Set.mem_ofPred_eq, ← h id]
  cases m with
  | issue => simp [Desk.move]
  | register id' =>
    simp only [Desk.move, Desk.register]
    by_cases hid : id' < d.nextId ∧ ¬ d.returned.contains id' = true
    · rw [if_pos hid]
      by_cases hsame : id' = id
      · subst hsame
        simp [hid.1]
      · simp [hsame, Ne.symm hsame]
    · -- A number that was not given, or a call that has returned.
      rw [if_neg hid]
      by_cases hsame : id' = id
      · subst hsame
        by_cases hgiven : id' < d.nextId
        · have hreturned : d.returned.contains id' = true :=
            not_not.mp fun hnot => hid ⟨hgiven, hnot⟩
          simp [hreturned]
        · simp [hgiven]
      · simp [hsame]
  | complete id' result =>
    simp only [Desk.move, Desk.settle]
    by_cases hsender : id' ∈ d.registered
    · rw [if_pos hsender]
      dsimp only
      rw [contains_conclude, Finset.mem_erase]
      by_cases hsame : id' = id
      · subst hsame
        simp [hsender]
      · simp [hsame, Ne.symm hsame]
    · rw [if_neg hsender]
      simp
  | expire id' result =>
    simp only [Desk.move, Desk.expire]
    by_cases hsender : id' ∈ d.registered
    · rw [if_pos hsender, contains_conclude, (registered_conclude d id' result).1]
      by_cases hsame : id' = id
      · subst hsame
        simp [hsender]
      · simp [hsame]
    · rw [if_neg hsender]
      simp

theorem Kept.registered_iff {callers : Set Nat} (h : Kept d callers) (hopen : d.Open id) :
    id ∈ d.registered ↔ id ∈ callers := by
  rw [← h id, hopen.2]
  simp

theorem returned_move {r : R} (h : d.returned[id]? = some r) (m : Move R) :
    (d.move m).returned[id]? = some r := by
  have hconclude : ∀ id' result, (d.conclude id' result).returned[id]? = some r := by
    intro id' result
    unfold Desk.conclude
    split
    · exact h
    · rename_i hnew
      dsimp only
      rw [FinMap.find_insert]
      by_cases hsame : id' = id
      · subst hsame
        rw [Std.ExtTreeMap.contains_eq_isSome_getElem?, h] at hnew
        exact absurd rfl hnew
      · rw [if_neg hsame]
        exact h
  cases m with
  | issue => exact h
  | register id' =>
    simp only [Desk.move, Desk.register]
    split
    · exact h
    · exact h
  | complete id' result =>
    simp only [Desk.move, Desk.settle]
    split
    · exact hconclude id' result
    · exact h
  | expire id' result =>
    simp only [Desk.move, Desk.expire]
    split
    · exact hconclude id' result
    · exact h

theorem complete_delivers (hopen : d.Open id) (hsender : id ∈ d.registered) :
    (d.settle id result).returned[id]? = some result := by
  unfold Desk.settle Desk.conclude
  rw [if_pos hsender, if_neg (by rw [hopen.2]; exact Bool.false_ne_true)]
  dsimp only
  rw [FinMap.find_insert, if_pos rfl]

end Rendezvous

end EssNode
