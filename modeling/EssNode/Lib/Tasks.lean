import EssNode.Lib.BoundedChannel

/-!
# Tasks beside a Receiver

Tasks that run beside each other and share a state. A task reads and changes the state under a
lock, starts other tasks, and sends items into a channel, where it waits for room. One more
party takes the items out of the channel: the receiver, which has a state of its own and writes
to the shared one as well. When it has gone, what is sent is lost.

What holds of the shared state whatever comes between is shown for the steps of a task one by
one (`Task.Keeps`) and for the receiver, and then holds in every interleaving (`after_safe`).
The other way around it is enough to look at a task that runs alone. The states it goes through
before it sends anything are reached in some interleaving (`after_passes`), so that a task that
gets to a state of some kind (`Task.Reaches`) takes the pool there. Both are kept when tasks are
put together, the second only behind a task that does not send (`Task.Prompt`).

An item that a task is bound to send (`Task.Sends`) is on its way in every interleaving, until it
is taken or the receiver has gone (`after_owes`).
-/

namespace EssNode

open List

namespace BoundedChannel.Channel

/-- A channel without its first item. -/
def behindFirst {α : Type} {capacity : Option Nat} (c : Channel α capacity) : Channel α capacity :=
  ⟨c.queue.tail, fun n hn => by
    have hbound := c.bounded n hn
    rw [length_tail]
    omega⟩

end BoundedChannel.Channel

namespace Tasks

open BoundedChannel (Channel)

/-- What is done: a step under a lock, which goes on by the state before it; starting a task
    that sends some items; sending one; and returning. -/
inductive Task (ι σ : Type) (β : Type) where
  | done (b : β)
  | atomic (f : σ → σ) (next : σ → Task ι σ β)
  | spawn (items : List ι) (next : Task ι σ β)
  | send (a : ι) (next : Task ι σ β)

namespace Task

variable {ι σ β γ : Type}

protected def bind : Task ι σ β → (β → Task ι σ γ) → Task ι σ γ
  | done b, k => k b
  | atomic f next, k => atomic f fun s => (next s).bind k
  | spawn items next, k => spawn items (next.bind k)
  | send a next, k => send a (next.bind k)

instance : Monad (Task ι σ) where
  pure := done
  bind := Task.bind

/-- The task that sends some items. -/
def sends : List ι → Task ι σ Unit
  | [] => done ()
  | a :: items => send a (sends items)

/-! ### What a task keeps -/

/-- No step of the task makes the state lose a property, whenever it is made. -/
def Keeps (P : σ → Prop) : Task ι σ β → Prop
  | done _ => True
  | atomic f next => (∀ s, P s → P (f s)) ∧ ∀ s, (next s).Keeps P
  | spawn _ next => next.Keeps P
  | send _ next => next.Keeps P

variable {P : σ → Prop}

theorem Keeps.pure (b : β) : (pure b : Task ι σ β).Keeps P := trivial

variable {k : β → Task ι σ γ} {p : Task ι σ β} {s s' : σ}

theorem Keeps.bind (hp : p.Keeps P) (hk : ∀ b, (k b).Keeps P) : (p >>= k).Keeps P := by
  change (p.bind k).Keeps P
  induction p with
  | done b => exact hk b
  | atomic f next ih => exact ⟨hp.1, fun s => ih s (hp.2 s)⟩
  | spawn items next ih => exact ih hp
  | send a next ih => exact ih hp

theorem keeps_sends (items : List ι) : (sends items : Task ι σ Unit).Keeps P := by
  induction items with
  | nil => trivial
  | cons a items ih => exact ih

/-! ### A task alone -/

/-- The states a task goes through, up to where it sends. -/
def passes : Task ι σ β → σ → List σ
  | done _, s => [s]
  | atomic f next, s => s :: (next s).passes (f s)
  | spawn _ next, s => next.passes s
  | send _ _, s => [s]

/-- What a task returns, and in which state, if it does not send. -/
def finish : Task ι σ β → σ → Option (β × σ)
  | done b, s => some (b, s)
  | atomic f next, s => (next s).finish (f s)
  | spawn _ next, s => next.finish s
  | send _ _, _ => none

/-- The task does not send. -/
def Prompt (p : Task ι σ β) : Prop := ∀ s, (p.finish s).isSome

/-- Before it sends, the task gets to a state with some property. -/
def Reaches (P : σ → Prop) (p : Task ι σ β) : Prop := ∀ s, ∃ s' ∈ p.passes s, P s'

theorem finish_bind (p : Task ι σ β) (k : β → Task ι σ γ) (s : σ) :
    (p >>= k).finish s = (p.finish s).bind fun r => (k r.1).finish r.2 := by
  change (p.bind k).finish s = _
  induction p generalizing s with
  | done b => rfl
  | atomic f next ih => exact ih s (f s)
  | spawn items next ih => exact ih s
  | send a next ih => rfl

theorem Prompt.pure (b : β) : (pure b : Task ι σ β).Prompt := fun _ => rfl

theorem Prompt.bind (hp : p.Prompt) (hk : ∀ b, (k b).Prompt) : (p >>= k).Prompt := by
  intro s
  rw [finish_bind]
  obtain ⟨r, hr⟩ := Option.isSome_iff_exists.mp (hp s)
  rw [hr]
  exact hk r.1 r.2

theorem mem_passes_self (p : Task ι σ β) (s : σ) : s ∈ p.passes s := by
  induction p generalizing s with
  | done b => exact mem_singleton_self s
  | atomic f next ih => exact mem_cons_self
  | spawn items next ih => exact ih s
  | send a next ih => exact mem_singleton_self s

theorem passes_bind_left (h : s' ∈ p.passes s) : s' ∈ (p >>= k).passes s := by
  change s' ∈ (p.bind k).passes s
  induction p generalizing s with
  | done b =>
    rw [mem_singleton.mp h]
    exact mem_passes_self (k b) s
  | atomic f next ih =>
    rcases mem_cons.mp h with rfl | hlater
    · exact mem_cons_self
    · exact mem_cons_of_mem _ (ih s hlater)
  | spawn items next ih => exact ih h
  | send a next ih => exact h

theorem passes_bind_right {r : β × σ} (hp : p.finish s = some r) (h : s' ∈ (k r.1).passes r.2) :
    s' ∈ (p >>= k).passes s := by
  change s' ∈ (p.bind k).passes s
  induction p generalizing s with
  | done b =>
    cases hp
    exact h
  | atomic f next ih => exact mem_cons_of_mem _ (ih s hp)
  | spawn items next ih => exact ih hp
  | send a next ih => cases hp

theorem Reaches.bind_left (hp : p.Reaches P) (k : β → Task ι σ γ) : (p >>= k).Reaches P := by
  intro s
  obtain ⟨s', hmem, hs'⟩ := hp s
  exact ⟨s', passes_bind_left hmem, hs'⟩

theorem Reaches.bind_right (hp : p.Prompt) (hk : ∀ b, (k b).Reaches P) : (p >>= k).Reaches P := by
  intro s
  obtain ⟨r, hr⟩ := Option.isSome_iff_exists.mp (hp s)
  obtain ⟨s', hmem, hs'⟩ := hk r.1 r.2
  exact ⟨s', passes_bind_right hr hmem, hs'⟩

end Task

/-! ### Interleavings -/

/-- How calls are carried out, and the receiver: what it does with an item if it is ready for
    one, what it does by itself, and whether it has gone. -/
structure Machine (ι σ ρ κ ε : Type) where
  handle : κ → Task ι σ Unit
  take : ι → ρ → Option ρ
  act : ε → ρ → σ → ρ × σ
  gone : ρ → Bool

/-- The shared state, the receiver's own, the channel, and what is left of each task. -/
structure Pool (ι σ ρ : Type) (capacity : Option Nat) where
  state : σ
  receiver : ρ
  channel : Channel ι capacity
  tasks : List (Task ι σ Unit)

/-- What happens: a call comes in, a task makes a step, someone else sends an item, the
    receiver takes one, or it does something by itself. -/
inductive Move (ι κ ε : Type) where
  | call (c : κ)
  | advance (i : Nat)
  | offer (a : ι)
  | receive
  | act (e : ε)

namespace Pool

variable {ι σ ρ κ ε : Type} {capacity : Option Nat} (m : Machine ι σ ρ κ ε)

/-- The next step of a task. To send an item it has to wait for room, unless nobody is there
    to take it. -/
def advance (p : Pool ι σ ρ capacity) (i : Nat) : Task ι σ Unit → Pool ι σ ρ capacity
  | .done _ => p
  | .atomic f next => { p with state := f p.state, tasks := p.tasks.set i (next p.state) }
  | .spawn items next => { p with tasks := p.tasks.set i next ++ [Task.sends items] }
  | .send a next =>
    if m.gone p.receiver then { p with tasks := p.tasks.set i next }
    else
      match p.channel.send a with
      | some channel => { p with channel := channel, tasks := p.tasks.set i next }
      | none => p

/-- What a move leads to; one that is not possible leads nowhere. -/
def step (p : Pool ι σ ρ capacity) : Move ι κ ε → Pool ι σ ρ capacity
  | .call c => { p with tasks := p.tasks ++ [m.handle c] }
  | .advance i =>
    match p.tasks[i]? with
    | some task => p.advance m i task
    | none => p
  | .offer a =>
    if m.gone p.receiver then p
    else
      match p.channel.send a with
      | some channel => { p with channel := channel }
      | none => p
  | .receive =>
    match p.channel.queue with
    | a :: _ =>
      match m.take a p.receiver with
      | some receiver => { p with receiver := receiver, channel := p.channel.behindFirst }
      | none => p
    | [] => p
  | .act e =>
    { p with receiver := (m.act e p.receiver p.state).1, state := (m.act e p.receiver p.state).2 }

/-- The pool after a run of moves. -/
def after (p : Pool ι σ ρ capacity) (run : List (Move ι κ ε)) : Pool ι σ ρ capacity :=
  run.foldl (step m) p

/-- What is left of every task keeps a property. -/
def Orderly (P : σ → Prop) (p : Pool ι σ ρ capacity) : Prop := ∀ task ∈ p.tasks, task.Keeps P

end Pool

open Pool

variable {ι σ ρ κ ε : Type} {capacity : Option Nat} {m : Machine ι σ ρ κ ε}
  {p : Pool ι σ ρ capacity} {P : σ → Prop} {Q : ρ → Prop} {task : Task ι σ Unit}

theorem after_append (p : Pool ι σ ρ capacity) (first second : List (Move ι κ ε)) :
    p.after m (first ++ second) = (p.after m first).after m second := foldl_append

theorem after_concat (p : Pool ι σ ρ capacity) (run : List (Move ι κ ε)) (move : Move ι κ ε) :
    p.after m (run ++ [move]) = (p.after m run).step m move := by
  rw [after_append]
  rfl

theorem Task.Keeps.set {tasks : List (Task ι σ Unit)} (h : ∀ task ∈ tasks, task.Keeps P)
    {next : Task ι σ Unit} (hnext : next.Keeps P) (i : Nat) :
    ∀ task ∈ tasks.set i next, task.Keeps P := by
  intro task htask
  rcases mem_or_eq_of_mem_set htask with hold | rfl
  · exact h task hold
  · exact hnext

theorem advance_orderly (h : p.Orderly P) (i : Nat) (htask : task.Keeps P) :
    (p.advance m i task).Orderly P := by
  cases task with
  | done b => exact h
  | atomic f next => exact Task.Keeps.set h (htask.2 p.state) i
  | spawn items next =>
    have hnext : next.Keeps P := htask
    intro task hmem
    rcases mem_append.mp hmem with hold | hnew
    · exact Task.Keeps.set h hnext i task hold
    · rw [mem_singleton.mp hnew]
      exact Task.keeps_sends items
  | send a next =>
    have hnext : next.Keeps P := htask
    simp only [Pool.advance]
    split
    · exact Task.Keeps.set h hnext i
    · split
      · exact Task.Keeps.set h hnext i
      · exact h

theorem state_advance (i : Nat) (htask : task.Keeps P) (hP : P p.state) :
    P (p.advance m i task).state := by
  cases task with
  | done b => exact hP
  | atomic f next => exact htask.1 _ hP
  | spawn items next => exact hP
  | send a next =>
    simp only [Pool.advance]
    split
    · exact hP
    · split
      · exact hP
      · exact hP

theorem step_orderly (h : p.Orderly P) {move : Move ι κ ε}
    (hcall : ∀ c, move = .call c → (m.handle c).Keeps P) : (p.step m move).Orderly P := by
  cases move with
  | call c =>
    intro task hmem
    rcases mem_append.mp hmem with hold | hnew
    · exact h task hold
    · rw [mem_singleton.mp hnew]
      exact hcall c rfl
  | advance i =>
    cases htask : p.tasks[i]? with
    | none => simpa only [Pool.step, htask] using h
    | some task =>
      simp only [Pool.step, htask]
      exact advance_orderly h i (h task (mem_of_getElem? htask))
  | offer a =>
    simp only [Pool.step]
    split
    · exact h
    · split
      · exact h
      · exact h
  | receive =>
    simp only [Pool.step]
    split
    · split
      · exact h
      · exact h
    · exact h
  | act e => exact h

theorem after_orderly (h : p.Orderly P) {run : List (Move ι κ ε)}
    (hcalls : ∀ c, .call c ∈ run → (m.handle c).Keeps P) : (p.after m run).Orderly P := by
  induction run using reverseRecOn with
  | nil => exact h
  | append_singleton run move ih =>
    rw [after_concat]
    refine step_orderly (ih fun c hc => hcalls c (mem_append_left _ hc)) fun c hmove => ?_
    exact hcalls c (mem_append_right _ (mem_singleton.mpr hmove.symm))

section Safe

variable (htake : ∀ a r r', Q r → m.take a r = some r' → Q r')
  (hact : ∀ e r s, Q r → P s → Q (m.act e r s).1 ∧ P (m.act e r s).2)

include htake hact

theorem step_safe (h : p.Orderly P) (hQ : Q p.receiver) (hP : P p.state) (move : Move ι κ ε) :
    Q (p.step m move).receiver ∧ P (p.step m move).state := by
  cases move with
  | call c => exact ⟨hQ, hP⟩
  | advance i =>
    cases htask : p.tasks[i]? with
    | none => simpa only [Pool.step, htask] using And.intro hQ hP
    | some task =>
      simp only [Pool.step, htask]
      refine ⟨?_, state_advance i (h task (mem_of_getElem? htask)) hP⟩
      cases task with
      | done | atomic | spawn => exact hQ
      | send a next =>
        simp only [Pool.advance]
        split
        · exact hQ
        · split
          · exact hQ
          · exact hQ
  | offer a =>
    simp only [Pool.step]
    split
    · exact ⟨hQ, hP⟩
    · split
      · exact ⟨hQ, hP⟩
      · exact ⟨hQ, hP⟩
  | receive =>
    simp only [Pool.step]
    split
    · split
      · rename_i hreceiver
        exact ⟨htake _ _ _ hQ hreceiver, hP⟩
      · exact ⟨hQ, hP⟩
    · exact ⟨hQ, hP⟩
  | act e => exact hact e _ _ hQ hP

/-- What the calls and the receiver keep holds in every interleaving. -/
theorem after_safe (h : p.Orderly P) (hQ : Q p.receiver) (hP : P p.state) {run : List (Move ι κ ε)}
    (hcalls : ∀ c, .call c ∈ run → (m.handle c).Keeps P) :
    Q (p.after m run).receiver ∧ P (p.after m run).state := by
  induction run using reverseRecOn with
  | nil => exact ⟨hQ, hP⟩
  | append_singleton run move ih =>
    have hbefore : ∀ c, .call c ∈ run → (m.handle c).Keeps P :=
      fun c hc => hcalls c (mem_append_left _ hc)
    obtain ⟨hQ', hP'⟩ := ih hbefore
    rw [after_concat]
    exact step_safe htake hact (after_orderly h hbefore) hQ' hP' move

end Safe

theorem receiver_offered {a : ι} {r : ρ} (hgone : m.gone p.receiver = false)
    (hqueue : p.channel.queue = []) (hroom : p.channel.HasRoom)
    (htake : m.take a p.receiver = some r) :
    (p.after m [.offer a, .receive]).receiver = r := by
  have hoffer : p.step m (.offer a) = { p with channel := p.channel.push a hroom } := by
    simp [Pool.step, hgone, Channel.send_of_room hroom]
  have hfirst : (p.channel.push a hroom).queue = [a] := congrArg (· ++ [a]) hqueue
  change ((p.step m (.offer a)).step m .receive).receiver = r
  rw [hoffer]
  simp only [Pool.step, hfirst, htake]

/-! ### What is on its way -/

/-- Whatever the states are, the task sends an item. -/
def Task.Sends (a : ι) : Task ι σ Unit → Prop
  | done _ => False
  | atomic _ next => ∀ s, (next s).Sends a
  | spawn _ next => next.Sends a
  | send b next => b = a ∨ next.Sends a

/-- An item is in the channel, or a task is still to send it. -/
def Pool.Owes (a : ι) (p : Pool ι σ ρ capacity) : Prop :=
  a ∈ p.channel.queue ∨ ∃ task ∈ p.tasks, task.Sends a

section Owes

variable {a : ι}

theorem sends_set {tasks : List (Task ι σ Unit)} {i : Nat} {task next : Task ι σ Unit} {C : Prop}
    (htask : tasks[i]? = some task) (hnext : task.Sends a → C ∨ next.Sends a)
    (h : ∃ t ∈ tasks, t.Sends a) : C ∨ ∃ t ∈ tasks.set i next, t.Sends a := by
  obtain ⟨t, ht, hsends⟩ := h
  obtain ⟨j, hj⟩ := mem_iff_getElem?.mp ht
  by_cases hij : i = j
  · subst hij
    cases htask.symm.trans hj
    have hi := (List.getElem?_eq_some_iff.mp htask).1
    exact (hnext hsends).imp_right fun h => ⟨next, mem_of_getElem? (getElem?_set_self hi), h⟩
  · exact Or.inr ⟨t, mem_of_getElem? ((getElem?_set_ne hij).trans hj), hsends⟩

variable (hgone : ∀ r, m.gone r = true → Q r)
  (htake : ∀ b r r', b = a ∨ Q r → m.take b r = some r' → Q r')
  (hact : ∀ e r s, Q r → Q (m.act e r s).1)

include hgone

theorem advance_owes (h : p.Owes a ∨ Q p.receiver) {i : Nat} {task : Task ι σ Unit}
    (htask : p.tasks[i]? = some task) :
    (p.advance m i task).Owes a ∨ Q (p.advance m i task).receiver := by
  cases task with
  | done b => exact h
  | atomic f next =>
    exact h.imp_left (Or.rec Or.inl (sends_set htask fun hs => Or.inr (hs p.state)))
  | spawn items next =>
    refine h.imp_left (Or.imp_right fun ht => ?_)
    obtain ⟨t, hmem, hs⟩ : ∃ t ∈ p.tasks.set i next, t.Sends a :=
      (sends_set htask (fun hs : next.Sends a => Or.inr hs) ht).resolve_left id
    exact ⟨t, mem_append_left _ hmem, hs⟩
  | send b next =>
    simp only [Pool.advance]
    split
    · exact Or.inr (hgone _ ‹_›)
    split
    · have hqueue := Channel.queue_of_send ‹_›
      refine h.imp_left (Or.rec (fun ha => Or.inl ?_) (sends_set htask (Or.imp_left fun hb => ?_)))
      · exact hqueue ▸ mem_append_left _ ha
      · exact hqueue ▸ mem_append_right _ (mem_singleton.mpr hb.symm)
    · exact h

include htake hact

theorem step_owes (h : p.Owes a ∨ Q p.receiver) (move : Move ι κ ε) :
    (p.step m move).Owes a ∨ Q (p.step m move).receiver := by
  cases move with
  | call c => exact h.imp_left (Or.imp_right fun ⟨t, ht, hs⟩ => ⟨t, mem_append_left _ ht, hs⟩)
  | advance i =>
    simp only [Pool.step]
    split
    · exact advance_owes hgone h ‹_›
    · exact h
  | offer b =>
    simp only [Pool.step]
    split
    · exact h
    split
    · have hqueue := Channel.queue_of_send ‹_›
      exact h.imp_left (Or.imp_left fun ha => hqueue ▸ mem_append_left _ ha)
    · exact h
  | receive =>
    simp only [Pool.step]
    split
    · rename_i b rest hqueue
      split
      · rename_i r htaken
        by_cases hdone : b = a ∨ Q p.receiver
        · exact Or.inr (htake b _ _ hdone htaken)
        · rw [not_or] at hdone
          refine Or.inl ((h.resolve_right hdone.2).imp_left fun ha => ?_)
          simpa [hqueue, Channel.behindFirst, Ne.symm hdone.1] using ha
      · exact h
    · exact h
  | act e => exact h.imp_right (hact e _ _)

/-- In every interleaving, what a call sends is on its way until it has been taken. -/
theorem after_owes {c : κ} (hc : (m.handle c).Sends a) (before later : List (Move ι κ ε)) :
    (p.after m (before ++ .call c :: later)).Owes a ∨
      Q (p.after m (before ++ .call c :: later)).receiver := by
  induction later using reverseRecOn with
  | nil =>
    rw [after_concat]
    exact Or.inl (Or.inr ⟨_, mem_append_right _ (mem_singleton_self _), hc⟩)
  | append_singleton later move ih =>
    rw [← cons_append, ← append_assoc, after_concat]
    exact step_owes hgone htake hact ih move

end Owes

/-! ### Running a task alone -/

theorem after_advance {i : Nat} (htask : p.tasks[i]? = some task) {s : σ}
    (h : s ∈ task.passes p.state) : ∃ n, (p.after m (List.replicate n (.advance i))).state = s := by
  have hi := (List.getElem?_eq_some_iff.mp htask).1
  induction task generalizing p with
  | done b => exact ⟨0, (mem_singleton.mp h).symm⟩
  | send a next ih => exact ⟨0, (mem_singleton.mp h).symm⟩
  | atomic f next ih =>
    rcases mem_cons.mp h with rfl | hlater
    · exact ⟨0, rfl⟩
    · have hstep : p.step m (.advance i)
          = { p with state := f p.state, tasks := p.tasks.set i (next p.state) } := by
        simp only [Pool.step, htask, Pool.advance]
      obtain ⟨n, hn⟩ := ih p.state (p := p.step m (.advance i))
        (by rw [hstep]; exact getElem?_set_self hi) (by rwa [hstep])
        (by rw [hstep]; exact (length_set).symm ▸ hi)
      exact ⟨n + 1, hn⟩
  | spawn items next ih =>
    have hstep : p.step m (.advance i)
        = { p with tasks := p.tasks.set i next ++ [Task.sends items] } := by
      simp only [Pool.step, htask, Pool.advance]
    have hset : i < (p.tasks.set i next).length := by rwa [length_set]
    -- The new task stands behind the others.
    obtain ⟨n, hn⟩ := ih (p := p.step m (.advance i))
      (by rw [hstep]; exact (getElem?_append_left hset).trans (getElem?_set_self hi))
      (by rwa [hstep])
      (by rw [hstep, length_append]; omega)
    exact ⟨n + 1, hn⟩

/-- A call that gets to a state of some kind can take the pool there at any time. -/
theorem after_passes (m : Machine ι σ ρ κ ε) (p : Pool ι σ ρ capacity) {c : κ}
    (hc : (m.handle c).Reaches P) :
    ∃ n, P (p.after m (.call c :: List.replicate n (.advance p.tasks.length))).state := by
  obtain ⟨s, hs, hP⟩ := hc p.state
  have htask : (p.step m (.call c)).tasks[p.tasks.length]? = some (m.handle c) :=
    getElem?_concat_length
  obtain ⟨n, hn⟩ := after_advance (m := m) htask hs
  refine ⟨n, ?_⟩
  change P ((p.step m (.call c)).after m _).state
  rwa [hn]

end Tasks

end EssNode
