import EssNode.Authority.Signature

/-!
# The Authority Manager

One authority state behind a lock, shared by the clones of a manager.

Each method takes the lock once, does its work and gives it back, so it is one
step on the shared state; what it does before that concerns its arguments only.
`refreshFromFile` is the exception. It reads the version under the lock, loads a
file without it, and takes it again to store what it loaded, and other calls may
come in between. `Step` has those three parts as separate steps, and a refresh
that is under way is kept beside the manager until it returns.

The lock is poisoned when a thread panics while it holds the lock. That is a step
of its own: no method of the manager does it, and every later call has to cope.

Storing is the only step that replaces the state, and it compares versions while
it holds the lock. What a refresh read earlier does not matter to that, so the
version never goes down, whatever came in between (`step_cases`).
-/

namespace EssNode

namespace Authority

/-- How a refresh ended. -/
inductive AuthorityRefreshOutcome where
  | success
  | updated (oldVersion newVersion : UInt64)
  | unchanged
  | failed (text : String)
deriving DecidableEq, Repr

def AuthorityState.default : AuthorityState where
  supernodes := []
  allowedPeers := ∅
  policies := .default

namespace AuthorityState

/-- Let a peer wait for confirmation, unless it has a role or waits already. -/
def stage (self : AuthorityState) (peer : String) : AuthorityState :=
  if ¬ self.allowedPeers.contains peer ∧ peer ∉ self.pendingPeers then
    { self with pendingPeers := insert peer self.pendingPeers }
  else self

/-- Let a list of peers wait, one after another. -/
def stageAll (self : AuthorityState) (peers : List String) : AuthorityState :=
  peers.foldl stage self

/-- Give a waiting peer the role of a client. -/
def promote (env : AuthorityEnv) (self : AuthorityState) (peer : String) : AuthorityState :=
  canonicalize env
    { self with
      pendingPeers := self.pendingPeers.erase peer
      allowedPeers := self.allowedPeers.insert peer .client }

/-- The same version, policy and set of supernodes. -/
def SameRule (s t : AuthorityState) : Prop :=
  t.version = s.version ∧ t.policies = s.policies ∧
    ∀ peer, peer ∈ t.supernodes ↔ peer ∈ s.supernodes

theorem SameRule.refl (s : AuthorityState) : SameRule s s := ⟨rfl, rfl, fun _ => Iff.rfl⟩

variable (self : AuthorityState) (peers : List String)

theorem stage_eq (peer : String) :
    self.stage peer =
      { self with
        pendingPeers := if self.allowedPeers.contains peer then self.pendingPeers
          else insert peer self.pendingPeers } := by
  unfold stage
  by_cases hrole : self.allowedPeers.contains peer = true
  · simp [hrole]
  · by_cases hpending : peer ∈ self.pendingPeers
    · simp [hpending, Finset.insert_eq_of_mem hpending]
    · simp [hrole, hpending]

theorem stageAll_eq :
    self.stageAll peers =
      { self with
        pendingPeers := self.pendingPeers ∪
          (peers.filter fun peer => !self.allowedPeers.contains peer).toFinset } := by
  induction peers generalizing self with
  | nil => simp [stageAll]
  | cons peer peers ih =>
    change (self.stage peer).stageAll peers = _
    rw [ih, stage_eq]
    by_cases hrole : self.allowedPeers.contains peer = true
    · simp [hrole]
    · simp [hrole, Finset.union_insert]

theorem stageAll_sameRule : SameRule self (self.stageAll peers) := by
  rw [stageAll_eq]
  exact SameRule.refl self

theorem promote_sameRule (env : AuthorityEnv) (self : AuthorityState) (peer : String) :
    SameRule self (self.promote env peer) :=
  ⟨rfl, rfl, fun p => mem_supernodes_canonicalize env _ p⟩

end AuthorityState

/-- Read a state from the contents of a file, in either format. -/
def loadAuthority (env : AuthorityEnv) (data : Except String (List UInt8)) :
    Except AuthorityError AuthorityState :=
  match data with
  | .error e => .error (.ioError e)
  | .ok bytes =>
    -- The compact format first; what it cannot read is taken for text.
    match env.fromBincode bytes with
    | some state => .ok state
    | none => (env.fromJson bytes).mapError .invalidFormat

structure AuthorityManager where
  state : AuthorityState
  poisoned : Bool

namespace AuthorityManager

variable (env : AuthorityEnv) (self : AuthorityManager)

/-- The state, or that of a new authority if the lock is poisoned. -/
def get : AuthorityState := if self.poisoned then .default else self.state

/-- Whether a peer may do something. With a poisoned lock nobody may. -/
def isAllowed (peer : String) (action : Action) : Bool :=
  if self.poisoned then false else (self.state.evaluateAction peer action).allowed

/-- Replace the state by a signed one with a larger version. -/
def updateState (newState : AuthorityState) (pubkey : PublicKey) :
    AuthorityManager × Except AuthorityError Unit :=
  -- The signature is checked before the lock is taken.
  match newState.verify env pubkey with
  | .error e => (self, .error e)
  | .ok () =>
    if self.poisoned then (self, .error .lockPoisoned)
    else if newState.version ≤ self.state.version then
      (self, .error (.versionRejected self.state.version newState.version))
    else ({ self with state := newState }, .ok ())

/-- Let the peers of a bundle wait for confirmation. -/
def applyConfigBundle (bundle : ConfigBundle) : AuthorityManager × Except String Unit :=
  if self.poisoned then (self, .error "Authority lock poisoned")
  else ({ self with state := self.state.stageAll bundle.allowedPeers }, .ok ())

/-- Promote a waiting peer if the list of those who confirm is long enough. -/
def confirmPendingPeers (peerId : String) (confirmingSupernodes : List String)
    (requiredConfirmations : Nat) : AuthorityManager × Except String Bool :=
  -- The list is counted; who is on it does not matter.
  if confirmingSupernodes.length < requiredConfirmations then (self, .ok false)
  else if self.poisoned then (self, .error "Authority lock poisoned")
  else if peerId ∈ self.state.pendingPeers then
    ({ self with state := self.state.promote env peerId }, .ok true)
  else (self, .ok false)

/-- What a refresh makes of the file, given the version it read before. -/
def refreshLoaded (currentV : UInt64) (data : Except String (List UInt8)) :
    Except AuthorityRefreshOutcome AuthorityState :=
  match loadAuthority env data with
  | .error e => .error (.failed e.display)
  | .ok newState =>
    -- A first look only: the version is compared again when the state is stored.
    if newState.version ≤ currentV then .error .unchanged else .ok newState

/-- Store the loaded state. -/
def refreshStore (currentV : UInt64) (newState : AuthorityState) (pubkey : PublicKey) :
    AuthorityManager × AuthorityRefreshOutcome :=
  let updated := self.updateState env newState pubkey
  (updated.1,
    match updated.2 with
    | .ok () => .updated currentV newState.version
    | .error e => .failed e.display)

/-- Take over the state in a file if it is newer. -/
def refreshFromFile (data : Except String (List UInt8)) (pubkey : PublicKey) :
    AuthorityManager × AuthorityRefreshOutcome :=
  let currentV := self.get.version
  match refreshLoaded env currentV data with
  | .error outcome => (self, outcome)
  | .ok newState => self.refreshStore env currentV newState pubkey

/-- Storing changes nothing, or replaces a state by a signed one with a larger
    version. -/
theorem updateState_cases (newState : AuthorityState) (pubkey : PublicKey) :
    let done := self.updateState env newState pubkey
    (done.1 = self ∧ done.2 ≠ .ok ()) ∨
      (newState.verify env pubkey = .ok () ∧ self.state.version < newState.version ∧
        done.1.state = newState ∧ done.2 = .ok ()) := by
  unfold updateState
  cases hverify : newState.verify env pubkey with
  | error e => exact .inl ⟨rfl, by simp⟩
  | ok u =>
    dsimp only
    by_cases hpoisoned : self.poisoned = true
    · rw [if_pos hpoisoned]
      exact .inl ⟨rfl, by simp⟩
    · rw [if_neg hpoisoned]
      by_cases hversion : newState.version ≤ self.state.version
      · rw [if_pos hversion]
        exact .inl ⟨rfl, by simp⟩
      · rw [if_neg hversion]
        exact .inr ⟨rfl, UInt64.not_le.mp hversion, rfl, rfl⟩

theorem applyConfigBundle_cases (bundle : ConfigBundle) :
    let done := self.applyConfigBundle bundle
    (done.1 = self ∧ done.2 ≠ .ok ()) ∨
      (done.1 = { self with state := self.state.stageAll bundle.allowedPeers } ∧
        done.2 = .ok ()) := by
  unfold applyConfigBundle
  by_cases hpoisoned : self.poisoned = true
  · rw [if_pos hpoisoned]
    exact .inl ⟨rfl, by simp⟩
  · rw [if_neg hpoisoned]
    exact .inr ⟨rfl, rfl⟩

theorem confirmPendingPeers_cases (peerId : String) (confirming : List String)
    (required : Nat) :
    let done := self.confirmPendingPeers env peerId confirming required
    (done.1 = self ∧ done.2 ≠ .ok true) ∨
      (required ≤ confirming.length ∧ self.poisoned = false ∧ peerId ∈ self.state.pendingPeers ∧
        done.1 = { self with state := self.state.promote env peerId } ∧ done.2 = .ok true) := by
  unfold confirmPendingPeers
  by_cases hfew : confirming.length < required
  · rw [if_pos hfew]
    exact .inl ⟨rfl, by simp⟩
  · rw [if_neg hfew]
    by_cases hpoisoned : self.poisoned = true
    · rw [if_pos hpoisoned]
      exact .inl ⟨rfl, by simp⟩
    · rw [if_neg hpoisoned]
      by_cases hpending : peerId ∈ self.state.pendingPeers
      · rw [if_pos hpending]
        exact .inr ⟨Nat.le_of_not_lt hfew, by simpa using hpoisoned, hpending, rfl, rfl⟩
      · rw [if_neg hpending]
        exact .inl ⟨rfl, by simp⟩

end AuthorityManager

/-- Where a refresh stands: it has read the version, or the file as well. -/
inductive Refresh where
  | versionRead (currentV : UInt64) (pubkey : PublicKey)
  | fileRead (currentV : UInt64) (newState : AuthorityState) (pubkey : PublicKey)

/-- A manager and the refreshes under way, by number. -/
structure Shared where
  manager : AuthorityManager
  refreshes : FinMap Nat Refresh

/-- What may happen to a manager, by any of the threads that hold a clone. -/
inductive Step where
  | updateState (newState : AuthorityState) (pubkey : PublicKey)
  | applyConfigBundle (bundle : ConfigBundle)
  | confirmPendingPeers (peerId : String) (confirmingSupernodes : List String)
      (requiredConfirmations : Nat)
  | refreshBegin (call : Nat) (pubkey : PublicKey)
  | refreshLoad (call : Nat) (data : Except String (List UInt8))
  | refreshStore (call : Nat)
  | poison

/-- What a call returns. -/
inductive Return where
  | updateState (result : Except AuthorityError Unit)
  | applyConfigBundle (result : Except String Unit)
  | confirmPendingPeers (result : Except String Bool)
  | refreshFromFile (outcome : AuthorityRefreshOutcome)

/-- An error, `Ok(false)`, `Unchanged` or `Failed`. -/
def Return.Refused : Return → Prop
  | .updateState result => result ≠ .ok ()
  | .applyConfigBundle result => result ≠ .ok ()
  | .confirmPendingPeers result => result ≠ .ok true
  | .refreshFromFile .unchanged => True
  | .refreshFromFile (.failed _) => True
  | .refreshFromFile _ => False

namespace Shared

variable (env : AuthorityEnv)

/-- One step, with the result of the call that returns at it, if any does. -/
def step (s : Shared) : Step → Shared × Option Return
  | .updateState newState pubkey =>
    let done := s.manager.updateState env newState pubkey
    ({ s with manager := done.1 }, some (.updateState done.2))
  | .applyConfigBundle bundle =>
    let done := s.manager.applyConfigBundle bundle
    ({ s with manager := done.1 }, some (.applyConfigBundle done.2))
  | .confirmPendingPeers peerId confirming required =>
    let done := s.manager.confirmPendingPeers env peerId confirming required
    ({ s with manager := done.1 }, some (.confirmPendingPeers done.2))
  | .refreshBegin call pubkey =>
    match s.refreshes[call]? with
    | none =>
      let refresh := .versionRead s.manager.get.version pubkey
      ({ s with refreshes := s.refreshes.insert call refresh }, none)
    | some _ => (s, none)
  | .refreshLoad call data =>
    match s.refreshes[call]? with
    | some (.versionRead currentV pubkey) =>
      match AuthorityManager.refreshLoaded env currentV data with
      | .error outcome =>
        ({ s with refreshes := s.refreshes.erase call }, some (.refreshFromFile outcome))
      | .ok newState =>
        let refresh := .fileRead currentV newState pubkey
        ({ s with refreshes := s.refreshes.insert call refresh }, none)
    | _ => (s, none)
  | .refreshStore call =>
    match s.refreshes[call]? with
    | some (.fileRead currentV newState pubkey) =>
      let done := s.manager.refreshStore env currentV newState pubkey
      ({ manager := done.1, refreshes := s.refreshes.erase call },
        some (.refreshFromFile done.2))
    | _ => (s, none)
  | .poison => ({ s with manager := { s.manager with poisoned := true } }, none)

def run (s : Shared) (steps : List Step) : Shared := steps.foldl (fun s e => (s.step env e).1) s

/-- A step that stores a state: an update, or the last part of a refresh. -/
def Stores (s : Shared) (e : Step) (newState : AuthorityState) (pubkey : PublicKey) : Prop :=
  e = .updateState newState pubkey ∨
    ∃ call currentV, e = .refreshStore call ∧
      s.refreshes[call]? = some (.fileRead currentV newState pubkey)

/-- What one step makes of the state: it is left alone, it keeps its rule while a
    call succeeds, or a signed state with a larger version takes its place. -/
theorem step_cases (s : Shared) (e : Step) :
    let next := s.step env e
    next.1.manager.state = s.manager.state ∨
      (s.manager.state.SameRule next.1.manager.state ∧ ∃ r ∈ next.2, ¬ r.Refused) ∨
      ∃ newState pubkey, s.Stores e newState pubkey ∧ newState.verify env pubkey = .ok () ∧
        s.manager.state.version < newState.version ∧ next.1.manager.state = newState ∧
        ∃ r ∈ next.2, ¬ r.Refused := by
  cases e with
  | updateState newState pubkey =>
    dsimp only [step]
    rcases s.manager.updateState_cases env newState pubkey with
      ⟨hsame, -⟩ | ⟨hverify, hversion, hstate, hok⟩
    · exact .inl (by rw [hsame])
    · exact .inr (.inr ⟨newState, pubkey, .inl rfl, hverify, hversion, hstate,
        _, rfl, fun h => h hok⟩)
  | applyConfigBundle bundle =>
    dsimp only [step]
    rcases s.manager.applyConfigBundle_cases bundle with ⟨hsame, -⟩ | ⟨hstaged, hok⟩
    · exact .inl (by rw [hsame])
    · refine .inr (.inl ⟨?_, _, rfl, fun h => h hok⟩)
      rw [hstaged]
      exact AuthorityState.stageAll_sameRule _ _
  | confirmPendingPeers peerId confirming required =>
    dsimp only [step]
    rcases s.manager.confirmPendingPeers_cases env peerId confirming required with
      ⟨hsame, -⟩ | ⟨-, -, -, hpromoted, hok⟩
    · exact .inl (by rw [hsame])
    · refine .inr (.inl ⟨?_, _, rfl, fun h => h hok⟩)
      rw [hpromoted]
      exact AuthorityState.promote_sameRule env _ _
  | refreshBegin call pubkey =>
    -- The first two parts of a refresh concern the refresh alone.
    left
    dsimp only [step]
    split <;> rfl
  | refreshLoad call data =>
    left
    dsimp only [step]
    split
    · split <;> rfl
    · rfl
  | refreshStore call =>
    dsimp only [step]
    split
    · rename_i currentV newState pubkey hcall
      -- The version read at the beginning only shows in the outcome.
      rcases s.manager.updateState_cases env newState pubkey with
        ⟨hsame, -⟩ | ⟨hverify, hversion, hstate, hok⟩
      · exact .inl (congrArg AuthorityManager.state hsame)
      · refine .inr (.inr ⟨newState, pubkey, .inr ⟨call, currentV, rfl, hcall⟩, hverify,
          hversion, hstate, _, rfl, ?_⟩)
        simp [AuthorityManager.refreshStore, hok, Return.Refused]
    · exact .inl rfl
  | poison => exact .inl rfl

variable {env}

theorem step_version_le (s : Shared) (e : Step) :
    s.manager.state.version ≤ (s.step env e).1.manager.state.version := by
  rcases s.step_cases env e with hsame | ⟨hrule, -⟩ | ⟨newState, -, -, -, hversion, hstate, -⟩
  · rw [hsame]
    exact UInt64.le_refl _
  · rw [hrule.1]
    exact UInt64.le_refl _
  · rw [hstate]
    exact UInt64.le_of_lt hversion

theorem run_version_le (s : Shared) (steps : List Step) :
    s.manager.state.version ≤ (s.run env steps).manager.state.version := by
  induction steps generalizing s with
  | nil => exact UInt64.le_refl _
  | cons e steps ih => exact UInt64.le_trans (s.step_version_le e) (ih _)

variable (env)

/-- Along every interleaving the version never goes down; each step keeps the
    version, the policy and the set of supernodes, or stores a state that verifies
    and has a larger version than the one it replaces; and a step at which no call
    returns, or one is refused, leaves the state as it was. -/
theorem updates_monotone_atomic (s : Shared) (steps : List Step) :
    let t := s.run env steps
    s.manager.state.version ≤ t.manager.state.version ∧
      ∀ e, let next := t.step env e
        (t.manager.state.SameRule next.1.manager.state ∨
          ∃ newState pubkey, t.Stores e newState pubkey ∧ newState.verify env pubkey = .ok () ∧
            t.manager.state.version < newState.version ∧ next.1.manager.state = newState) ∧
        ((∀ r ∈ next.2, r.Refused) → next.1.manager.state = t.manager.state) := by
  refine ⟨s.run_version_le steps, fun e => ?_⟩
  generalize s.run env steps = t
  rcases t.step_cases env e with hsame | ⟨hrule, r, hr, hdone⟩ |
    ⟨newState, pubkey, hstores, hverify, hversion, hstate, r, hr, hdone⟩
  · exact ⟨.inl (hsame ▸ AuthorityState.SameRule.refl _), fun _ => hsame⟩
  · exact ⟨.inl hrule, fun h => absurd (h r hr) hdone⟩
  · exact ⟨.inr ⟨newState, pubkey, hstores, hverify, hversion, hstate⟩,
      fun h => absurd (h r hr) hdone⟩

end Shared

end Authority

end EssNode
