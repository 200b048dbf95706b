import EssNode.Ghost.Zeroized

/-!
# The Items to Synchronise

Items are given to the ghost engine one by one and leave it in batches. As long as it
is not zeroized, the batches sent so far and the items that still wait are together
the items it accepted, in the order in which it did.

A move either sends a batch from the front of the items that wait or leaves both alone;
only zeroizing drops items. Whether a batch is sent, and when, depends on the trigger of
a cycle, on the peers and on the tamper flag, but none of this matters here.
-/

namespace EssNode

open List

namespace Ghost

open GhostEngine

def GhostEvent.items : GhostEvent → List String
  | .syncBatch _ batch _ => batch
  | _ => []

def GhostEngine.accepts (self : GhostEngine) : GhostInput → List String
  | .command (.enqueueSync item) =>
    if self.stopped = false ∧ self.state ≠ .zeroized then [item] else []
  | _ => []

def GhostEngine.acceptsAll (clock : Nat → Nat) (self : GhostEngine) : List GhostInput → List String
  | [] => []
  | input :: inputs => self.accepts input ++ (self.step clock input).acceptsAll clock inputs

def Setup.accepted (setup : Setup) (inputs : List GhostInput) : List String :=
  (setup.spawnInner.boot setup.clock).acceptsAll setup.clock inputs

theorem GhostEngine.acceptsAll_concat (clock : Nat → Nat) (self : GhostEngine)
    (inputs : List GhostInput) (input : GhostInput) :
    self.acceptsAll clock (inputs ++ [input])
      = self.acceptsAll clock inputs
        ++ (inputs.foldl (fun self input => self.step clock input) self).accepts input := by
  induction inputs generalizing self with
  | nil => exact append_nil _
  | cons first inputs ih =>
    rw [cons_append, acceptsAll, ih, acceptsAll, append_assoc]
    rfl

theorem Setup.accepted_concat (setup : Setup) (inputs : List GhostInput) (input : GhostInput) :
    setup.accepted (inputs ++ [input])
      = setup.accepted inputs ++ (setup.after inputs).accepts input :=
  acceptsAll_concat _ _ inputs input

/-! ### One move -/

/-- The items sent and those that wait are the given ones, unless zeroized. -/
def Conserves (items : List String) (self : GhostEngine) : Prop :=
  self.state ≠ .zeroized → self.sent.flatMap GhostEvent.items ++ self.pendingSync = items

/-- No batch is larger than the limit. -/
def Limited (limit : Nat) (self : GhostEngine) : Prop :=
  self.config.syncBatchLimit = limit ∧ ∀ event ∈ self.sent, event.items.length ≤ limit

theorem flatMap_items_append {events : List GhostEvent} {event : GhostEvent}
    (h : event.items = []) :
    (events ++ [event]).flatMap GhostEvent.items = events.flatMap GhostEvent.items := by
  rw [flatMap_append, flatMap_singleton, h, append_nil]

variable {input : GhostInput} {limit : Nat} {b a self : GhostEngine} {items : List String}

theorem Move.conserves (hmove : Move input a b) (h : Conserves items a) : Conserves items b := by
  intro hstate
  cases hmove with
  | report | count | hold | stop => exact h hstate
  | log message ts readings =>
    rw [flatMap_items_append rfl]
    exact h hstate
  | panic reason ts readings =>
    rw [flatMap_items_append rfl]
    exact h hstate
  | beacon metrics fingerprint ts readings =>
    rw [flatMap_items_append rfl]
    exact h hstate
  | enter target hfrom =>
    rw [flatMap_items_append rfl]
    exact h hfrom
  | batch batch rest metrics ts readings hsync hitems =>
    -- What is put into the batch is taken from the front.
    have hall := h hstate
    rw [← hitems, ← append_assoc] at hall
    rw [flatMap_append, flatMap_singleton]
    exact hall
  | zeroize ts readings => exact absurd rfl hstate

theorem Limited.append {other : GhostEngine} (h : Limited limit self) {event : GhostEvent}
    (hsent : other.sent = self.sent ++ [event]) (hevent : event.items.length ≤ limit)
    (hconfig : other.config = self.config) : Limited limit other := by
  refine ⟨by rw [hconfig, h.1], fun e he => ?_⟩
  rw [hsent] at he
  rcases mem_append.mp he with hold | hnew
  · exact h.2 e hold
  · rw [mem_singleton.mp hnew]
    exact hevent

theorem Move.limited (hmove : Move input a b) (h : Limited limit a) : Limited limit b := by
  cases hmove with
  | report | count | hold | stop => exact h
  | log | panic | beacon | enter => exact h.append rfl (Nat.zero_le _) rfl
  | batch batch rest metrics ts readings hsync hitems hlimit =>
    rw [h.1] at hlimit
    exact h.append rfl hlimit rfl
  | zeroize ts readings =>
    have hchanged : Limited limit { a with
        sent := a.sent ++ (if a.state = .zeroized then []
          else [.stateChanged a.nodeId a.state .zeroized]) } := by
      by_cases hstate : a.state = .zeroized
      · rw [if_pos hstate, append_nil]
        exact h
      · rw [if_neg hstate]
        exact h.append rfl (Nat.zero_le _) rfl
    exact hchanged.append rfl (Nat.zero_le _) rfl

/-! ### Runs -/

theorem GhostEngine.intake_conserves (clock : Nat → Nat) (hrunning : self.stopped = false)
    (h : Conserves items self) (input : GhostInput) :
    Conserves (items ++ self.accepts input) (self.intake clock input) := by
  intro hstate
  rw [intake_state] at hstate
  have hitems := h hstate
  rw [intake_sent, ← hitems, append_assoc]
  congr 1
  cases input with
  | beaconTick => exact (append_nil _).symm
  | syncTick => exact (append_nil _).symm
  | closed => exact (append_nil _).symm
  | command cmd =>
    cases cmd with
    | enqueueSync item =>
      dsimp only [intake, accepts]
      rw [if_pos hstate, if_pos ⟨hrunning, hstate⟩]
    | wake | sleep | triggerSync | triggerBeacon | triggerPanic | zeroize | updateMetrics
    | setTamper | observeSignal => exact (append_nil _).symm

namespace Setup

variable (setup : Setup)

theorem after_conserves (inputs : List GhostInput) :
    Conserves (setup.accepted inputs) (setup.after inputs) := by
  induction inputs using reverseRecOn with
  | nil =>
    have hspawn : Conserves [] setup.spawnInner := fun _ => rfl
    exact (boot_moves setup .closed).preserves Move.conserves hspawn
  | append_singleton inputs input ih =>
    rw [setup.after_concat, setup.accepted_concat]
    cases hstopped : (setup.after inputs).stopped with
    | true =>
      -- Nothing is accepted after the end of the loop.
      have hnone : (setup.after inputs).accepts input = [] := by
        unfold accepts
        split
        · rw [if_neg fun h => Bool.noConfusion (hstopped.symm.trans h.1)]
        · rfl
      rw [step_of_stopped _ _ input hstopped, hnone, append_nil]
      exact ih
    | false =>
      exact (step_moves _ _ input hstopped).preserves Move.conserves
        (intake_conserves _ hstopped ih input)

theorem after_limited (inputs : List GhostInput) :
    Limited setup.config.syncBatchLimit (setup.after inputs) := by
  have hspawn : Limited setup.config.syncBatchLimit setup.spawnInner := ⟨rfl, nofun⟩
  refine setup.after_invariant hspawn Move.limited (fun input h => ⟨?_, ?_⟩) inputs
  · rw [intake_config, h.1]
  · rw [intake_sent]
    exact h.2

/-- In a run that does not zeroize the engine, the batches and what still waits are the
    items it accepted, in their order; and no batch is larger than the limit. -/
theorem sync_items_conserved (inputs : List GhostInput)
    (hlive : (setup.after inputs).state ≠ .zeroized) :
    (setup.after inputs).sent.flatMap GhostEvent.items ++ (setup.after inputs).pendingSync
        = setup.accepted inputs
      ∧ ∀ nodeId batch ts, GhostEvent.syncBatch nodeId batch ts ∈ (setup.after inputs).sent →
          batch.length ≤ setup.config.syncBatchLimit :=
  ⟨setup.after_conserves inputs hlive,
    fun _ _ _ hbatch => (setup.after_limited inputs).2 _ hbatch⟩

end Setup

/-- An item that is queued while asleep waits, and is sent with the next one after waking. -/
theorem sync_items_conserved_woken :
    (defaultSetup.after [.command (.enqueueSync "a"), .command .wake,
        .command (.enqueueSync "b")]).state ≠ .zeroized
      ∧ ((defaultSetup.after [.command (.enqueueSync "a"), .command .wake,
          .command (.enqueueSync "b")]).sent.flatMap GhostEvent.items
        ++ (defaultSetup.after [.command (.enqueueSync "a"), .command .wake,
          .command (.enqueueSync "b")]).pendingSync
        = defaultSetup.accepted [.command (.enqueueSync "a"), .command .wake,
          .command (.enqueueSync "b")]) := by
  have hlive : (defaultSetup.after [.command (.enqueueSync "a"), .command .wake,
      .command (.enqueueSync "b")]).state ≠ .zeroized := by
    decide +kernel
  exact ⟨hlive, (defaultSetup.sync_items_conserved _ hlive).1⟩

end Ghost

end EssNode
