import Mathlib.Data.List.Infix

/-!
# Loops that Send into a Channel

A loop takes one event after the other and runs a program for each. Programs read and write a
state, start tasks, and send items into a channel. So do the tasks, which have one item each and
run beside the loop. A channel holds a limited number of items; whoever sends into a full one
waits until there is room.

Here nobody takes items out of the channel. What it holds is then the first so many of what a
channel without a limit would hold (`queue_after`), and there is room throughout a run exactly
if fewer items than that are sent (`room_iff`). A loop that waits once waits for ever
(`Loop.Blocked.after`).

The steps of the loop and of the tasks interleave in any order, and the state can be changed
from elsewhere between any two of them. A run that is not disturbed is one in which the loop
goes through its events one by one (`undisturbed`).
-/

namespace EssNode

namespace BoundedChannel

/-- The items in a channel, at most as many as its capacity, if it has one. -/
structure Channel (α : Type) (capacity : Option Nat) where
  queue : List α
  bounded : ∀ n ∈ capacity, queue.length ≤ n

namespace Channel

variable {α : Type} {capacity : Option Nat} (c : Channel α capacity)

def empty : Channel α capacity := ⟨[], fun _ _ => Nat.zero_le _⟩

/-- Whether another item can be sent at once. -/
def HasRoom : Prop := ∀ n ∈ capacity, c.queue.length < n

instance : Decidable c.HasRoom :=
  match capacity, c with
  | none, _ => isTrue nofun
  | some n, c => decidable_of_iff (c.queue.length < n) (by simp [HasRoom])

def push (a : α) (h : c.HasRoom) : Channel α capacity :=
  ⟨c.queue ++ [a], fun n hn => by
    have hroom := h n hn
    rw [List.length_append, List.length_singleton]
    omega⟩

/-- Send an item, if there is room. -/
def send (a : α) : Option (Channel α capacity) :=
  if h : c.HasRoom then some (c.push a h) else none

/-- A channel without a limit, with the same items. -/
def unbounded : Channel α none := ⟨c.queue, nofun⟩

variable {c}

theorem send_of_room (h : c.HasRoom) (a : α) : c.send a = some (c.push a h) := dif_pos h

theorem send_of_full (h : ¬ c.HasRoom) (a : α) : c.send a = none := dif_neg h

theorem queue_of_send {a : α} {c' : Channel α capacity} (h : c.send a = some c') :
    c'.queue = c.queue ++ [a] := by
  by_cases hroom : c.HasRoom
  · rw [send_of_room hroom] at h
    cases h
    rfl
  · rw [send_of_full hroom] at h
    cases h

theorem send_unbounded (c : Channel α capacity) (a : α) :
    c.unbounded.send a = some ⟨c.queue ++ [a], nofun⟩ := dif_pos nofun

theorem hasRoom_some {n : Nat} (c : Channel α (some n)) : c.HasRoom ↔ c.queue.length < n := by
  simp [HasRoom]

theorem length_le {n : Nat} (c : Channel α (some n)) : c.queue.length ≤ n := c.bounded n rfl

end Channel

/-- What is done for an event: reading and changing the state, starting a task that sends an
    item, sending one, and returning. -/
inductive Program (α σ : Type) (β : Type) where
  | done (b : β)
  | read (next : σ → Program α σ β)
  | write (f : σ → σ) (next : Program α σ β)
  | spawn (a : α) (next : Program α σ β)
  | send (a : α) (next : Program α σ β)

/-- What a program returns, the state it leaves, what it sent, and the tasks it started. -/
structure Outcome (α σ β : Type) where
  value : β
  state : σ
  sent : List α
  spawned : List α

namespace Program

variable {α σ β γ : Type}

protected def bind : Program α σ β → (β → Program α σ γ) → Program α σ γ
  | done b, k => k b
  | read next, k => read fun s => (next s).bind k
  | write f next, k => write f (next.bind k)
  | spawn a next, k => spawn a (next.bind k)
  | send a next, k => send a (next.bind k)

instance : Monad (Program α σ) where
  pure := done
  bind := Program.bind

/-- What a program does if nothing comes between its steps and there is room. -/
def run : Program α σ β → σ → Outcome α σ β
  | done b, s => ⟨b, s, [], []⟩
  | read next, s => (next s).run s
  | write f next, s => next.run (f s)
  | spawn a next, s => { next.run s with spawned := a :: (next.run s).spawned }
  | send a next, s => { next.run s with sent := a :: (next.run s).sent }

/-- The number of steps it takes then. -/
def steps : Program α σ β → σ → Nat
  | done _, _ => 0
  | read next, s => (next s).steps s + 1
  | write f next, s => next.steps (f s) + 1
  | spawn _ next, s => next.steps s + 1
  | send _ next, s => next.steps s + 1

theorem run_pure (b : β) (s : σ) : (pure b : Program α σ β).run s = ⟨b, s, [], []⟩ := rfl

theorem run_bind (p : Program α σ β) (k : β → Program α σ γ) (s : σ) :
    (p >>= k).run s
      = { (k (p.run s).value).run (p.run s).state with
          sent := (p.run s).sent ++ ((k (p.run s).value).run (p.run s).state).sent
          spawned := (p.run s).spawned ++ ((k (p.run s).value).run (p.run s).state).spawned } := by
  change (p.bind k).run s = _
  induction p generalizing s with
  | done b => rfl
  | read next ih => exact ih s s
  | write f next ih => exact ih (f s)
  | spawn a next ih =>
    simp only [Program.bind, run]
    rw [ih s]
    rfl
  | send a next ih =>
    simp only [Program.bind, run]
    rw [ih s]
    rfl

end Program

/-- A loop: the state, the channel, the items of the tasks that have not sent yet, and the
    rest of the program that runs. -/
structure Loop (α σ : Type) (capacity : Option Nat) where
  state : σ
  channel : Channel α capacity
  spawned : List α
  program : Program α σ Unit

/-- What happens: an event comes in, the program makes a step, a task sends its item, or the
    state is changed by someone else. -/
inductive Move (σ ε : Type) where
  | event (e : ε)
  | advance
  | spawned (i : Nat)
  | elsewhere (f : σ → σ)

namespace Loop

variable {α σ ε : Type} {capacity : Option Nat} (handle : ε → Program α σ Unit)

/-- A loop that is about to run a program, with nothing in the channel. -/
def start (capacity : Option Nat) (s : σ) (program : Program α σ Unit) : Loop α σ capacity :=
  ⟨s, .empty, [], program⟩

/-- The next step of the program. To send an item it has to wait for room. -/
def advance (l : Loop α σ capacity) : Loop α σ capacity :=
  match l.program with
  | .done _ => l
  | .read next => { l with program := next l.state }
  | .write f next => { l with state := f l.state, program := next }
  | .spawn a next => { l with spawned := l.spawned ++ [a], program := next }
  | .send a next =>
    match l.channel.send a with
    | some channel => { l with channel := channel, program := next }
    -- The step is tried again; nothing but room can make it succeed.
    | none => l

/-- What a move leads to; one that is not possible leads nowhere. An event is not taken before
    the program for the last one is done. -/
def step (l : Loop α σ capacity) : Move σ ε → Loop α σ capacity
  | .event e =>
    match l.program with
    | .done _ => { l with program := handle e }
    | _ => l
  | .advance => l.advance
  | .spawned i =>
    match l.spawned[i]? with
    | some a =>
      match l.channel.send a with
      | some channel => { l with channel := channel, spawned := l.spawned.eraseIdx i }
      | none => l
    | none => l
  | .elsewhere f => { l with state := f l.state }

/-- The loop after a run of moves. -/
def after (l : Loop α σ capacity) (run : List (Move σ ε)) : Loop α σ capacity :=
  run.foldl (step handle) l

/-- The same loop with a channel without a limit. -/
def unbounded (l : Loop α σ capacity) : Loop α σ none := { l with channel := l.channel.unbounded }

/-- A loop that waits for room. -/
def Blocked (l : Loop α σ capacity) : Prop :=
  ¬ l.channel.HasRoom ∧ ∃ a next, l.program = .send a next

end Loop

open Loop

variable {α σ ε : Type} {capacity : Option Nat} {handle : ε → Program α σ Unit}
  {l : Loop α σ capacity}

theorem after_append (l : Loop α σ capacity) (first second : List (Move σ ε)) :
    l.after handle (first ++ second) = (l.after handle first).after handle second :=
  List.foldl_append

theorem after_concat (l : Loop α σ capacity) (run : List (Move σ ε)) (m : Move σ ε) :
    l.after handle (run ++ [m]) = (l.after handle run).step handle m := by
  rw [after_append]
  rfl

/-! ### With and without a limit -/

theorem advance_unbounded (h : l.channel.HasRoom) : l.advance.unbounded = l.unbounded.advance := by
  rcases l with ⟨state, channel, spawned, program⟩
  cases program with
  | done | read | write | spawn => rfl
  | send a next =>
    simp only [Loop.advance, unbounded, Channel.send_of_room h, Channel.send_unbounded]
    rfl

theorem step_unbounded (h : l.channel.HasRoom) (m : Move σ ε) :
    (l.step handle m).unbounded = l.unbounded.step handle m := by
  cases m with
  | event e =>
    rcases l with ⟨state, channel, spawned, program⟩
    cases program with
    | done | read | write | spawn | send => rfl
  | advance => exact advance_unbounded h
  | spawned i =>
    cases hitem : l.spawned[i]? with
    | none => simp only [step, unbounded, hitem]
    | some a =>
      simp only [step, unbounded, hitem, Channel.send_of_room h, Channel.send_unbounded]
      rfl
  | elsewhere f => rfl

theorem channel_step (l : Loop α σ capacity) (m : Move σ ε) :
    (l.step handle m).channel = l.channel ∨
      ∃ a, l.channel.send a = some (l.step handle m).channel := by
  cases m with
  | event e =>
    simp only [step]
    split
    · exact Or.inl rfl
    · exact Or.inl rfl
  | advance =>
    simp only [step, Loop.advance]
    split
    · exact Or.inl rfl
    · exact Or.inl rfl
    · exact Or.inl rfl
    · exact Or.inl rfl
    · rename_i a next _
      split
      · rename_i channel hsent
        exact Or.inr ⟨a, hsent⟩
      · exact Or.inl rfl
  | spawned i =>
    simp only [step]
    split
    · rename_i a _
      split
      · rename_i channel hsent
        exact Or.inr ⟨a, hsent⟩
      · exact Or.inl rfl
    · exact Or.inl rfl
  | elsewhere f => exact Or.inl rfl

open Channel

theorem channel_step_full (h : ¬ l.channel.HasRoom) (m : Move σ ε) :
    (l.step handle m).channel = l.channel := by
  rcases channel_step l m with hsame | ⟨a, hsent⟩
  · exact hsame
  · rw [send_of_full h] at hsent
    cases hsent

theorem queue_prefix_after (handle : ε → Program α σ Unit) (l : Loop α σ capacity)
    (run : List (Move σ ε)) :
    l.channel.queue <+: (l.after handle run).channel.queue := by
  induction run generalizing l with
  | nil => exact List.prefix_refl _
  | cons m run ih =>
    refine List.IsPrefix.trans ?_ (ih (l.step handle m))
    rcases channel_step l m with hsame | ⟨a, hsent⟩
    · rw [hsame]
    · rw [queue_of_send hsent]
      exact List.prefix_append _ _

section Limit

variable {n : Nat} {l : Loop α σ (some n)}

/-- A channel holds the first items that are sent, up to its limit; and as long as it has
    room the loop is where it would be without one. -/
theorem queue_after (handle : ε → Program α σ Unit) (l : Loop α σ (some n))
    (run : List (Move σ ε)) :
    (l.after handle run).channel.queue
        = (l.unbounded.after handle run).channel.queue.take n ∧
      ((l.after handle run).channel.HasRoom →
        l.unbounded.after handle run = (l.after handle run).unbounded) := by
  induction run using List.reverseRecOn with
  | nil => exact ⟨(List.take_of_length_le l.channel.length_le).symm, fun _ => rfl⟩
  | append_singleton run m ih =>
    rw [after_concat, after_concat]
    by_cases hroom : (l.after handle run).channel.HasRoom
    · rw [ih.2 hroom, ← step_unbounded hroom]
      exact ⟨(List.take_of_length_le (length_le _)).symm, fun _ => rfl⟩
    · -- A full channel stays as it is, and the other one only grows.
      rw [channel_step_full hroom]
      refine ⟨?_, fun h => absurd h hroom⟩
      rcases queue_prefix_after handle (l.unbounded.after handle run) [m] with ⟨rest, hrest⟩
      have hfull : n ≤ (l.unbounded.after handle run).channel.queue.length := by
        rw [hasRoom_some, ih.1, List.length_take] at hroom
        omega
      rw [ih.1, show ((l.unbounded.after handle run).step handle m) =
        (l.unbounded.after handle run).after handle [m] from rfl, ← hrest,
        List.take_append_of_le_length hfull]

theorem room_iff (handle : ε → Program α σ Unit) (l : Loop α σ (some n))
    (run : List (Move σ ε)) :
    (∀ before, before <+: run → (l.after handle before).channel.HasRoom) ↔
      (l.unbounded.after handle run).channel.queue.length < n := by
  constructor
  · intro hall
    have hroom := hall run (List.prefix_refl run)
    rw [hasRoom_some, (queue_after handle l run).1, List.length_take] at hroom
    omega
  · -- The other channel only grows, so what it holds in the end bounds what it held before.
    rintro hlt before ⟨rest, rfl⟩
    rw [after_append] at hlt
    have hle := (queue_prefix_after handle (l.unbounded.after handle before) rest).length_le
    rw [hasRoom_some, (queue_after handle l before).1, List.length_take]
    omega

end Limit

/-! ### Waiting -/

theorem Loop.Blocked.step (h : l.Blocked) (m : Move σ ε) : (l.step handle m).Blocked := by
  rcases h with ⟨hroom, a, next, hprogram⟩
  refine ⟨by rwa [channel_step_full hroom], a, next, ?_⟩
  cases m with
  | event e => simp only [Loop.step, hprogram]
  | advance => simp only [Loop.step, Loop.advance, hprogram, send_of_full hroom]
  | spawned i =>
    simp only [Loop.step]
    split
    · rw [send_of_full hroom]
      exact hprogram
    · exact hprogram
  | elsewhere f => exact hprogram

theorem Loop.Blocked.after (h : l.Blocked) (run : List (Move σ ε)) :
    (l.after handle run).Blocked := by
  induction run generalizing l with
  | nil => exact h
  | cons m run ih => exact ih (h.step m)

theorem blocked_or_same (handle : ε → Program α σ Unit) (l : Loop α σ capacity)
    {run : List (Move σ ε)} (hrun : ∀ i, .spawned i ∉ run) :
    (l.after handle run).Blocked ∨
      l.unbounded.after handle run = (l.after handle run).unbounded := by
  induction run using List.reverseRecOn with
  | nil => exact Or.inr rfl
  | append_singleton run m ih =>
    rw [after_concat, after_concat]
    rcases ih fun i hi => hrun i (List.mem_append_left _ hi) with hblocked | hsame
    · exact Or.inl (hblocked.step m)
    by_cases hroom : (l.after handle run).channel.HasRoom
    · rw [hsame, ← step_unbounded hroom]
      exact Or.inr rfl
    · -- In a full channel, only sending makes a difference.
      rw [hsame]
      generalize l.after handle run = l' at hroom
      rcases l' with ⟨state, channel, spawned, program⟩
      cases m with
      | event e =>
        cases program with
        | done | read | write | spawn | send => exact Or.inr rfl
      | advance =>
        cases program with
        | done | read | write | spawn => exact Or.inr rfl
        | send a next =>
          exact Or.inl (Blocked.step (m := .advance) ⟨hroom, a, next, rfl⟩)
      | spawned i => exact absurd (List.mem_append_right _ (List.mem_singleton_self _)) (hrun i)
      | elsewhere f => exact Or.inr rfl

theorem blocked_of_overflow {n : Nat} {l : Loop α σ (some n)} {run : List (Move σ ε)}
    (hrun : ∀ i, .spawned i ∉ run)
    (hmany : n < (l.unbounded.after handle run).channel.queue.length) :
    (l.after handle run).Blocked := by
  rcases blocked_or_same handle l hrun with hblocked | hsame
  · exact hblocked
  · rw [hsame] at hmany
    exact absurd (l.after handle run).channel.length_le (Nat.not_le.mpr hmany)

/-! ### Event by event -/

/-- The moves of a run in which nothing comes between the steps of the loop. -/
def undisturbed (handle : ε → Program α σ Unit) (s : σ) : List ε → List (Move σ ε)
  | [] => []
  | e :: events =>
    .event e :: List.replicate ((handle e).steps s) .advance
      ++ undisturbed handle ((handle e).run s).state events

/-- What the loop sends in such a run. -/
def reports (handle : ε → Program α σ Unit) (s : σ) : List ε → List α
  | [] => []
  | e :: events => ((handle e).run s).sent ++ reports handle ((handle e).run s).state events

theorem length_le_reports {s : σ} {events : List ε}
    (h : ∀ e ∈ events, ∀ s, ((handle e).run s).sent ≠ []) :
    events.length ≤ (reports handle s events).length := by
  induction events generalizing s with
  | nil => exact Nat.zero_le _
  | cons e events ih =>
    have hfirst := List.length_pos_of_ne_nil (h e List.mem_cons_self s)
    have hrest := ih (s := ((handle e).run s).state)
      fun e' he' => h e' (List.mem_cons_of_mem _ he')
    rw [reports, List.length_append, List.length_cons]
    omega

theorem not_spawned_undisturbed (handle : ε → Program α σ Unit) (s : σ) (events : List ε)
    (i : Nat) : .spawned i ∉ undisturbed handle s events := by
  induction events generalizing s with
  | nil => simp [undisturbed]
  | cons e events ih => simp [undisturbed, ih]

theorem after_advance (handle : ε → Program α σ Unit) (l : Loop α σ none) :
    l.after handle (List.replicate (l.program.steps l.state) .advance)
      = { state := (l.program.run l.state).state
          channel := ⟨l.channel.queue ++ (l.program.run l.state).sent, nofun⟩
          spawned := l.spawned ++ (l.program.run l.state).spawned
          program := .done () } := by
  rcases l with ⟨state, channel, spawned, program⟩
  -- Each step leaves the rest of the program, in a state with what was sent so far.
  induction program generalizing state channel spawned with
  | done b => simp [Program.steps, Program.run, after]
  | read next ih => exact ih state state channel spawned
  | write f next ih => exact ih (f state) channel spawned
  | spawn a next ih =>
    have hnext := ih state channel (spawned ++ [a])
    simp only [List.append_assoc, List.singleton_append] at hnext
    exact hnext
  | send a next ih =>
    have hnext := ih state ⟨channel.queue ++ [a], nofun⟩ spawned
    simp only [List.append_assoc, List.singleton_append] at hnext
    exact hnext

theorem after_undisturbed (handle : ε → Program α σ Unit) {l : Loop α σ none}
    (hidle : l.program = .done ()) (events : List ε) :
    (l.after handle (undisturbed handle l.state events)).channel.queue
        = l.channel.queue ++ reports handle l.state events ∧
      (l.after handle (undisturbed handle l.state events)).state
        = events.foldl (fun s e => ((handle e).run s).state) l.state := by
  induction events generalizing l with
  | nil => simp [undisturbed, reports, after]
  | cons e events ih =>
    have hevent : l.after handle
        (.event e :: List.replicate ((handle e).steps l.state) .advance)
        = { state := ((handle e).run l.state).state
            channel := ⟨l.channel.queue ++ ((handle e).run l.state).sent, nofun⟩
            spawned := l.spawned ++ ((handle e).run l.state).spawned
            program := .done () } := by
      change (l.step handle (.event e)).after handle _ = _
      rw [show l.step handle (.event e) = { l with program := handle e } by
        simp only [Loop.step, hidle]]
      exact after_advance handle { l with program := handle e }
    rw [undisturbed, after_append, hevent]
    refine ⟨(ih rfl).1.trans ?_, (ih rfl).2⟩
    rw [reports, List.append_assoc]

end BoundedChannel

end EssNode
