import EssNode.Authority.Manager

/-!
# Staging and Confirming Peers

What bundles and confirmations do to roles.

A bundle only lets peers wait, and a confirmation turns one waiting peer into a
client. Peers that wait have no entry in the table as long as the two are kept
apart (`Apart`), and both calls keep them so; hence no role that exists is
overwritten.

A confirmation is counted by the length of the list it comes with. Who is on the
list is not looked at, so the count is one of supernodes only if the caller passes
distinct supernodes (`confirmations_backed_iff`).
-/

namespace EssNode

namespace Authority

open AuthorityState

/-- A call that concerns waiting peers. -/
inductive StagingCall where
  | applyConfigBundle (bundle : ConfigBundle)
  | confirmPendingPeers (peerId : String) (confirmingSupernodes : List String)
      (requiredConfirmations : Nat)

namespace AuthorityState

/-- No peer both waits and has an entry in the table. -/
def Apart (s : AuthorityState) : Prop := ∀ peer ∈ s.pendingPeers, s.allowedPeers[peer]? = none

variable (env : AuthorityEnv) (s : AuthorityState) (peers : List String) (peer p : String)

@[simp] theorem stageAll_allowedPeers : (s.stageAll peers).allowedPeers = s.allowedPeers := by
  rw [stageAll_eq]

@[simp] theorem getRole_stageAll : (s.stageAll peers).getRole peer = s.getRole peer := by
  rw [stageAll_eq]
  rfl

theorem mem_pendingPeers_stageAll :
    peer ∈ (s.stageAll peers).pendingPeers ↔
      peer ∈ s.pendingPeers ∨ (peer ∈ peers ∧ s.allowedPeers[peer]? = none) := by
  have hnone : s.allowedPeers[peer]? = none ↔ s.allowedPeers.contains peer = false := by
    rw [Std.ExtTreeMap.contains_eq_isSome_getElem?, Option.isSome_eq_false_iff,
      Option.isNone_iff_eq_none]
  rw [stageAll_eq, hnone]
  simp only [Finset.mem_union, List.mem_toFinset, List.mem_filter, Bool.not_eq_true']

theorem mem_pendingPeers_promote :
    p ∈ (s.promote env peer).pendingPeers ↔ p ≠ peer ∧ p ∈ s.pendingPeers := by
  simp [promote]

theorem find_allowedPeers_promote :
    (s.promote env peer).allowedPeers[p]? =
      if peer = p then some .client else s.allowedPeers[p]? := by
  rw [promote, canonicalize_allowedPeers, FinMap.find_insert]

theorem getRole_promote :
    (s.promote env peer).getRole p =
      if peer = p ∧ p ∉ s.supernodes then some .client else s.getRole p := by
  rw [promote, getRole_canonicalize]
  unfold getRole
  rw [FinMap.find_insert]
  by_cases hsuper : p ∈ s.supernodes
  · simp [hsuper]
  · by_cases hpeer : peer = p
    · simp [hsuper, hpeer]
    · simp [hsuper, hpeer]

variable {s}

theorem Apart.stageAll (h : s.Apart) (peers : List String) : (s.stageAll peers).Apart := by
  intro peer hpeer
  rw [stageAll_allowedPeers]
  rcases (s.mem_pendingPeers_stageAll peers peer).mp hpeer with hpending | ⟨-, hnone⟩
  · exact h peer hpending
  · exact hnone

theorem Apart.promote (h : s.Apart) (peer : String) : (s.promote env peer).Apart := by
  intro p hp
  obtain ⟨hne, hpending⟩ := (s.mem_pendingPeers_promote env peer p).mp hp
  rw [find_allowedPeers_promote, if_neg (Ne.symm hne)]
  exact h p hpending

end AuthorityState

namespace AuthorityManager

variable (env : AuthorityEnv)

def stagingStep (m : AuthorityManager) : StagingCall → AuthorityManager
  | .applyConfigBundle bundle => (m.applyConfigBundle bundle).1
  | .confirmPendingPeers peerId confirming required =>
    (m.confirmPendingPeers env peerId confirming required).1

def afterStaging (m : AuthorityManager) (calls : List StagingCall) : AuthorityManager :=
  calls.foldl (stagingStep env) m

def Promotes (m : AuthorityManager) (call : StagingCall) (peer : String) : Prop :=
  ∃ confirming required, call = .confirmPendingPeers peer confirming required ∧
    (m.confirmPendingPeers env peer confirming required).2 = .ok true

theorem stagingStep_cases (m : AuthorityManager) (call : StagingCall) :
    let next := (m.stagingStep env call).state
    next = m.state ∨ (∃ peers, next = m.state.stageAll peers) ∨
      ∃ peer, m.Promotes env call peer ∧ peer ∈ m.state.pendingPeers ∧
        next = m.state.promote env peer := by
  cases call with
  | applyConfigBundle bundle =>
    rcases m.applyConfigBundle_cases bundle with ⟨hsame, -⟩ | ⟨hstaged, -⟩
    · exact .inl (congrArg state hsame)
    · exact .inr (.inl ⟨_, congrArg state hstaged⟩)
  | confirmPendingPeers peer confirming required =>
    rcases m.confirmPendingPeers_cases env peer confirming required with
      ⟨hsame, -⟩ | ⟨-, -, hpending, hpromoted, hok⟩
    · exact .inl (congrArg state hsame)
    · exact .inr (.inr ⟨peer, ⟨confirming, required, rfl, hok⟩, hpending,
        congrArg state hpromoted⟩)

variable {m : AuthorityManager}

theorem apart_stagingStep (h : m.state.Apart) (call : StagingCall) :
    (m.stagingStep env call).state.Apart := by
  rcases m.stagingStep_cases env call with hsame | ⟨peers, hstaged⟩ | ⟨peer, -, -, hpromoted⟩
  · rwa [hsame]
  · rw [hstaged]
    exact h.stageAll peers
  · rw [hpromoted]
    exact h.promote env peer

theorem apart_afterStaging (h : m.state.Apart) (calls : List StagingCall) :
    (m.afterStaging env calls).state.Apart := by
  induction calls generalizing m with
  | nil => exact h
  | cons call calls ih => exact ih (apart_stagingStep env h call)

/-- What one call does to the role of one peer. Where waiting peers and the table are
    apart, a role appears by promotion only, and none changes. -/
theorem getRole_stagingStep (h : m.state.Apart) (call : StagingCall) (peer : String) :
    let next := (m.stagingStep env call).state
    next.getRole peer = m.state.getRole peer ∨
      (m.Promotes env call peer ∧ peer ∈ m.state.pendingPeers ∧
        m.state.getRole peer = none ∧ next.getRole peer = some .client) := by
  rcases m.stagingStep_cases env call with
    hsame | ⟨peers, hstaged⟩ | ⟨p, hpromotes, hpending, hpromoted⟩
  · exact .inl (by rw [hsame])
  · exact .inl (by rw [hstaged, getRole_stageAll])
  · dsimp only
    rw [hpromoted, getRole_promote]
    by_cases hpeer : p = peer ∧ peer ∉ m.state.supernodes
    · -- Not a supernode and waiting, so without any role before.
      obtain ⟨rfl, hsuper⟩ := hpeer
      refine .inr ⟨hpromotes, hpending, ?_, if_pos ⟨rfl, hsuper⟩⟩
      rw [getRole, if_neg hsuper]
      exact h p hpending
    · exact .inl (if_neg hpeer)

theorem find_allowedPeers_stagingStep (h : m.state.Apart) (call : StagingCall) {peer : String}
    {role : NodeRole}
    (hrole : m.state.allowedPeers[peer]? = some role) :
    (m.stagingStep env call).state.allowedPeers[peer]? = some role := by
  rcases m.stagingStep_cases env call with hsame | ⟨peers, hstaged⟩ | ⟨p, -, hpending, hpromoted⟩
  · rw [hsame, hrole]
  · rw [hstaged, stageAll_allowedPeers, hrole]
  · have hne : p ≠ peer := by
      rintro rfl
      simp [h p hpending] at hrole
    rw [hpromoted, find_allowedPeers_promote, if_neg hne, hrole]

theorem policies_stagingStep (m : AuthorityManager) (call : StagingCall) :
    (m.stagingStep env call).state.policies = m.state.policies := by
  rcases m.stagingStep_cases env call with hsame | ⟨peers, hstaged⟩ | ⟨p, -, -, hpromoted⟩
  · rw [hsame]
  · rw [hstaged]
    exact (m.state.stageAll_sameRule peers).2.1
  · rw [hpromoted]
    exact (m.state.promote_sameRule env p).2.1

theorem find_of_promotes {call : StagingCall} {peer : String} (h : m.Promotes env call peer) :
    let next := (m.stagingStep env call).state
    peer ∈ m.state.pendingPeers ∧ peer ∉ next.pendingPeers ∧
      next.allowedPeers[peer]? = some .client := by
  obtain ⟨confirming, required, rfl, hok⟩ := h
  rcases m.confirmPendingPeers_cases env peer confirming required with
    ⟨-, hrefused⟩ | ⟨-, -, hpending, hpromoted, -⟩
  · exact absurd hok hrefused
  · refine ⟨hpending, ?_, ?_⟩
    · rw [stagingStep, hpromoted, mem_pendingPeers_promote]
      exact fun hp => hp.1 rfl
    · rw [stagingStep, hpromoted, find_allowedPeers_promote, if_pos rfl]

/-- Along every run of bundles and confirmations, the peers that wait and the table
    stay apart. At each call, a decision changes only if the call confirms that very
    peer while it waits, and the peer's role is then the client's; every peer that is
    promoted has the client's entry; and roles that exist stay. -/
theorem staging_grants_by_confirmation {m : AuthorityManager} (h : m.state.Apart)
    (calls : List StagingCall) :
    let t := m.afterStaging env calls
    t.state.Apart ∧ ∀ call, let next := t.stagingStep env call
      next.state.Apart ∧
      (∀ peer action,
        next.state.evaluateAction peer action ≠ t.state.evaluateAction peer action →
          (∃ confirming required, call = .confirmPendingPeers peer confirming required) ∧
          peer ∈ t.state.pendingPeers ∧ next.state.getRole peer = some .client) ∧
      (∀ peer : String, t.Promotes env call peer →
        peer ∈ t.state.pendingPeers ∧ peer ∉ next.state.pendingPeers ∧
          next.state.allowedPeers[peer]? = some .client) ∧
      (∀ peer role, t.state.getRole peer = some role → next.state.getRole peer = some role) ∧
      (∀ (peer : String) role, t.state.allowedPeers[peer]? = some role →
        next.state.allowedPeers[peer]? = some role) := by
  have hapart := apart_afterStaging env h calls
  refine ⟨hapart, fun call => ⟨apart_stagingStep env hapart call, ?_, ?_, ?_, ?_⟩⟩
  · -- Decisions are made from roles and the policy, and the policy stays.
    intro peer action hchange
    rcases getRole_stagingStep env hapart call peer with
      hsame | ⟨⟨confirming, required, hcall, -⟩, hpending, -, hclient⟩
    · exact absurd (AuthorityState.evaluateAction_congr hsame (policies_stagingStep env _ call)
        action) hchange
    · exact ⟨⟨confirming, required, hcall⟩, hpending, hclient⟩
  · exact fun peer hpromotes => find_of_promotes env hpromotes
  · intro peer role hrole
    rcases getRole_stagingStep env hapart call peer with hsame | ⟨-, -, hnone, -⟩
    · rw [hsame, hrole]
    · simp [hnone] at hrole
  · exact fun peer role hrole => find_allowedPeers_stagingStep env hapart call hrole

theorem confirmPendingPeers_eq_true_iff (m : AuthorityManager) (peer : String)
    (confirming : List String) (required : Nat) :
    (m.confirmPendingPeers env peer confirming required).2 = .ok true ↔
      required ≤ confirming.length ∧ m.poisoned = false ∧ peer ∈ m.state.pendingPeers := by
  constructor
  · intro hok
    rcases m.confirmPendingPeers_cases env peer confirming required with
      ⟨-, hrefused⟩ | ⟨hlength, hlive, hpending, -, -⟩
    · exact absurd hok hrefused
    · exact ⟨hlength, hlive, hpending⟩
  · rintro ⟨hlength, hlive, hpending⟩
    rw [confirmPendingPeers, if_neg (Nat.not_lt.mpr hlength), if_neg (by simp [hlive]),
      if_pos hpending]

end AuthorityManager

/-- A manager at which one peer waits and another is blocked. -/
def stagingManager : AuthorityManager where
  state :=
    { supernodes := ["sn1", "sn2"]
      allowedPeers := (∅ : FinMap String NodeRole).insert "mallory" .blocked
      policies := .default
      pendingPeers := {"eve"} }
  poisoned := false

/-- A bundle that names a blocked peer and an unknown one. -/
def stagingBundle : ConfigBundle :=
  { role := "client", policyVersion := 1, allowedPeers := ["mallory", "frank"]
    bootstrapAddrs := [], issuedAt := 0 }

theorem stagingManager_apart : stagingManager.state.Apart := by
  unfold AuthorityState.Apart
  decide +kernel

theorem stagingManager_confirmed :
    let staged := stagingManager.afterStaging plainEnv [.applyConfigBundle stagingBundle]
    let confirmed := staged.stagingStep plainEnv (.confirmPendingPeers "eve" ["sn1", "sn2"] 2)
    staged.state.pendingPeers = {"eve", "frank"} ∧ confirmed.state.getRole "eve" = some .client ∧
      confirmed.state.getRole "mallory" = some .blocked := by
  obtain ⟨-, hcall⟩ := AuthorityManager.staging_grants_by_confirmation plainEnv
    stagingManager_apart [.applyConfigBundle stagingBundle]
  obtain ⟨-, hchanged, -, hkept, -⟩ := hcall (.confirmPendingPeers "eve" ["sn1", "sn2"] 2)
  exact ⟨by decide +kernel, (hchanged "eve" .connect (by decide +kernel)).2.2,
    hkept "mallory" .blocked (by decide +kernel)⟩

/-- How many distinct supernodes a list names. -/
def AuthorityState.backing (s : AuthorityState) (confirming : List String) : Nat :=
  (confirming.toFinset.filter (· ∈ s.supernodes)).card

theorem AuthorityState.length_le_backing_iff (s : AuthorityState) (confirming : List String) :
    confirming.length ≤ s.backing confirming ↔
      confirming.Nodup ∧ ∀ sn ∈ confirming, sn ∈ s.supernodes := by
  -- Two bounds: dropping who is no supernode, and dropping repetitions.
  have hfilter : s.backing confirming ≤ confirming.toFinset.card := Finset.card_filter_le _ _
  have hcard : confirming.toFinset.card ≤ confirming.length := List.toFinset_card_le _
  constructor
  · intro h
    constructor
    · rw [← List.dedup_eq_self]
      exact (List.dedup_sublist _).eq_of_length (le_antisymm hcard (h.trans hfilter))
    · have hall := Finset.card_filter_eq_iff.mp (le_antisymm hfilter (hcard.trans h))
      exact fun sn hsn => hall sn (List.mem_toFinset.mpr hsn)
  · rintro ⟨hnodup, hall⟩
    have hself : confirming.toFinset.filter (· ∈ s.supernodes) = confirming.toFinset :=
      Finset.filter_true_of_mem fun sn hsn => hall sn (List.mem_toFinset.mp hsn)
    rw [backing, hself, List.toFinset_card_of_nodup hnodup]

/-- A waiting peer is promoted only with the required number of distinct supernodes,
    whatever that number, exactly when the list repeats no one and names supernodes
    only; or when the lock is poisoned, and no one is promoted. -/
theorem AuthorityManager.confirmations_backed_iff (env : AuthorityEnv) (m : AuthorityManager)
    {peer : String} (hpending : peer ∈ m.state.pendingPeers) (confirming : List String) :
    (∀ required, (m.confirmPendingPeers env peer confirming required).2 = .ok true →
        required ≤ m.state.backing confirming) ↔
      m.poisoned = true ∨ (confirming.Nodup ∧ ∀ sn ∈ confirming, sn ∈ m.state.supernodes) := by
  simp only [confirmPendingPeers_eq_true_iff]
  rw [← AuthorityState.length_le_backing_iff]
  constructor
  · intro h
    by_cases hpoisoned : m.poisoned = true
    · exact .inl hpoisoned
    · -- The largest number the list is long enough for.
      exact .inr (h _ ⟨le_rfl, by simpa using hpoisoned, hpending⟩)
  · rintro (hpoisoned | hback) required ⟨hlength, hlive, -⟩
    · simp [hpoisoned] at hlive
    · exact hlength.trans hback

theorem both_supernodes_back :
    "eve" ∈ stagingManager.state.pendingPeers ∧ ∀ required,
      (stagingManager.confirmPendingPeers plainEnv "eve" ["sn1", "sn2"] required).2 = .ok true →
        required ≤ stagingManager.state.backing ["sn1", "sn2"] :=
  ⟨by decide +kernel, (AuthorityManager.confirmations_backed_iff plainEnv stagingManager
    (by decide +kernel) ["sn1", "sn2"]).mpr (.inr (by decide +kernel))⟩

/-- One supernode listed twice, or strangers, are as good as two supernodes. -/
theorem promoted_without_supernodes :
    "eve" ∈ stagingManager.state.pendingPeers ∧
      (stagingManager.confirmPendingPeers plainEnv "eve" ["sn1", "sn1"] 2).2 = .ok true ∧
      stagingManager.state.backing ["sn1", "sn1"] = 1 ∧
      (stagingManager.confirmPendingPeers plainEnv "eve" ["x", "y"] 2).2 = .ok true ∧
      stagingManager.state.backing ["x", "y"] = 0 := by
  decide +kernel

end Authority

end EssNode
