import EssNode.Authority.Staging

/-!
# Bundles in Two Stores

A verified bundle is handed to the security runtime and to the authority. The
authority lets the peers it names wait until enough supernodes confirm them. The
runtime adds them to its own list of allowed peers at once, and `verifyPeer` asks
that list first. So a peer that was rejected is admitted as soon as any bundle
names it, while it still waits at the authority.

`verifyPeer_after_iff` says exactly who is admitted after a run of bundles and
confirmations: whoever was before, whoever a bundle named, and whoever was
promoted. The authority's rule holds for the peers that no bundle names
(`rejected_after_iff`).
-/

namespace EssNode

open Authority AuthorityState

namespace SecurityRuntime

variable (s : SecurityRuntime)

/-- Add the peers of a bundle to the list of allowed ones and take over its
    addresses. -/
def applyBundle (bundle : ConfigBundle) : SecurityRuntime × Except SecurityError Unit :=
  ({ s with
      allowedPeers := bundle.allowedPeers.foldl (fun peers peer => insert peer peers) s.allowedPeers
      bootstrapAddrs := bundle.bootstrapAddrs },
    .ok ())

/-- A peer is admitted if the policy lists it or the authority lets it connect. -/
def verifyPeer (peer : String) : Except SecurityError Unit :=
  if peer ∈ s.allowedPeers then .ok ()
  else if s.isAllowed peer .connect then .ok ()
  else .error .badPeerIdentity

theorem mem_foldl_insert (peers : List String) (known : Finset String) (peer : String) :
    peer ∈ peers.foldl (fun peers peer => insert peer peers) known ↔
      peer ∈ known ∨ peer ∈ peers := by
  induction peers generalizing known with
  | nil => simp
  | cons p peers ih =>
    rw [List.foldl_cons, ih, Finset.mem_insert, List.mem_cons]
    tauto

variable {s}

theorem verifyPeer_eq_ok_iff {peer : String} :
    s.verifyPeer peer = .ok () ↔ peer ∈ s.allowedPeers ∨ s.isAllowed peer .connect = true := by
  unfold verifyPeer
  by_cases hlisted : peer ∈ s.allowedPeers
  · simp [hlisted]
  · by_cases hallowed : s.isAllowed peer .connect = true
    · simp [hallowed]
    · simp [hlisted, hallowed]

end SecurityRuntime

namespace Authority

namespace AuthorityManager

/-- What a check sees of the manager: nothing if the lock is poisoned. -/
def readable (m : AuthorityManager) : Option AuthorityState :=
  if m.poisoned then none else some m.state

variable (env : AuthorityEnv) (m : AuthorityManager) (call : StagingCall)

theorem poisoned_stagingStep : (m.stagingStep env call).poisoned = m.poisoned := by
  cases call with
  | applyConfigBundle bundle =>
    rcases m.applyConfigBundle_cases bundle with ⟨hsame, -⟩ | ⟨hstaged, -⟩
    · rw [stagingStep, hsame]
    · rw [stagingStep, hstaged]
  | confirmPendingPeers peer confirming required =>
    rcases m.confirmPendingPeers_cases env peer confirming required with
      ⟨hsame, -⟩ | ⟨-, -, -, hpromoted, -⟩
    · rw [stagingStep, hsame]
    · rw [stagingStep, hpromoted]

theorem isAllowed_of_not_promotes {m : AuthorityManager} {call : StagingCall} {peer : String}
    (h : ¬ m.Promotes env call peer) (action : Action) :
    (m.stagingStep env call).isAllowed peer action = m.isAllowed peer action := by
  have hrole : (m.stagingStep env call).state.getRole peer = m.state.getRole peer := by
    rcases m.stagingStep_cases env call with hsame | ⟨peers, hstaged⟩ | ⟨p, hpromotes, -, hpromoted⟩
    · rw [hsame]
    · rw [hstaged, getRole_stageAll]
    · have hne : p ≠ peer := fun hp => h (hp ▸ hpromotes)
      rw [hpromoted, getRole_promote, if_neg (fun hp => hne hp.1)]
  unfold isAllowed
  rw [poisoned_stagingStep,
    evaluateAction_congr hrole (policies_stagingStep env m call) action]

theorem isAllowed_of_promotes {m : AuthorityManager} {call : StagingCall} {peer : String}
    (h : m.Promotes env call peer) : (m.stagingStep env call).isAllowed peer .connect = true := by
  have hclient := (find_of_promotes env h).2.2
  obtain ⟨confirming, required, rfl, hok⟩ := h
  have hlive := ((m.confirmPendingPeers_eq_true_iff env peer confirming required).mp hok).2.1
  unfold isAllowed
  rw [poisoned_stagingStep, hlive, if_neg (by simp)]
  -- Only the entry matters from here on.
  generalize m.stagingStep env (.confirmPendingPeers peer confirming required) = next at hclient ⊢
  by_cases hsuper : peer ∈ next.state.supernodes
  · simp [evaluateAction, getRole, hsuper]
  · simp only [evaluateAction, getRole, hsuper, hclient, if_false]
    rfl

theorem isAllowed_connect_stagingStep (peer : String) :
    (m.stagingStep env call).isAllowed peer .connect = true ↔
      m.isAllowed peer .connect = true ∨ m.Promotes env call peer := by
  by_cases hpromotes : m.Promotes env call peer
  · exact iff_of_true (isAllowed_of_promotes env hpromotes) (.inr hpromotes)
  · rw [isAllowed_of_not_promotes env hpromotes]
    simp [hpromotes]

end AuthorityManager

end Authority

/-- A security runtime with the authority manager attached to it. -/
structure PeerStores where
  security : SecurityRuntime
  manager : AuthorityManager
  attached : security.authority = manager.readable

namespace PeerStores

variable (env : AuthorityEnv) (n : PeerStores) (call : StagingCall) (calls : List StagingCall)
  (peer : String)

/-- A bundle goes to the runtime and then to the authority; a confirmation goes to the
    authority alone. -/
def step (call : StagingCall) : PeerStores where
  security :=
    { (match call with
        | .applyConfigBundle bundle => (n.security.applyBundle bundle).1
        | .confirmPendingPeers _ _ _ => n.security) with
      authority := (n.manager.stagingStep env call).readable }
  manager := n.manager.stagingStep env call
  attached := rfl

def after (calls : List StagingCall) : PeerStores := calls.foldl (step env) n

theorem isAllowed_eq (action : Action) :
    n.security.isAllowed peer action = n.manager.isAllowed peer action := by
  unfold SecurityRuntime.isAllowed AuthorityManager.isAllowed
  rw [n.attached, AuthorityManager.readable]
  cases n.manager.poisoned with
  | true => rfl
  | false => rfl

theorem mem_allowedPeers_step :
    peer ∈ (n.step env call).security.allowedPeers ↔
      peer ∈ n.security.allowedPeers ∨
        ∃ bundle, call = .applyConfigBundle bundle ∧ peer ∈ bundle.allowedPeers := by
  cases call with
  | applyConfigBundle bundle =>
    change peer ∈ bundle.allowedPeers.foldl _ _ ↔ _
    rw [SecurityRuntime.mem_foldl_insert]
    simp
  | confirmPendingPeers p confirming required =>
    change peer ∈ n.security.allowedPeers ↔ _
    simp

theorem verifyPeer_step_iff :
    (n.step env call).security.verifyPeer peer = .ok () ↔
      n.security.verifyPeer peer = .ok () ∨
        (∃ bundle, call = .applyConfigBundle bundle ∧ peer ∈ bundle.allowedPeers) ∨
        n.manager.Promotes env call peer := by
  have hallowed := n.manager.isAllowed_connect_stagingStep env call peer
  rw [SecurityRuntime.verifyPeer_eq_ok_iff, SecurityRuntime.verifyPeer_eq_ok_iff, isAllowed_eq,
    isAllowed_eq, mem_allowedPeers_step]
  change _ ∨ (n.manager.stagingStep env call).isAllowed peer .connect = true ↔ _
  rw [hallowed]
  exact or_or_or_comm

def Named (calls : List StagingCall) (peer : String) : Prop :=
  ∃ bundle, .applyConfigBundle bundle ∈ calls ∧ peer ∈ bundle.allowedPeers

def Promoted (calls : List StagingCall) (peer : String) : Prop :=
  ∃ before call rest, calls = before ++ call :: rest ∧
    (n.after env before).manager.Promotes env call peer

theorem named_cons :
    Named (call :: calls) peer ↔
      (∃ bundle, call = .applyConfigBundle bundle ∧ peer ∈ bundle.allowedPeers) ∨
        Named calls peer := by
  simp only [Named, List.mem_cons]
  constructor
  · rintro ⟨bundle, hcall | hcall, hpeer⟩
    · exact .inl ⟨bundle, hcall.symm, hpeer⟩
    · exact .inr ⟨bundle, hcall, hpeer⟩
  · rintro (⟨bundle, hcall, hpeer⟩ | ⟨bundle, hcall, hpeer⟩)
    · exact ⟨bundle, .inl hcall.symm, hpeer⟩
    · exact ⟨bundle, .inr hcall, hpeer⟩

theorem promoted_cons :
    n.Promoted env (call :: calls) peer ↔
      n.manager.Promotes env call peer ∨ (n.step env call).Promoted env calls peer := by
  constructor
  · rintro ⟨before, c, rest, hcalls, hpromotes⟩
    cases before with
    | nil =>
      obtain ⟨rfl, -⟩ := List.cons.inj hcalls
      exact .inl hpromotes
    | cons b before =>
      obtain ⟨rfl, hrest⟩ := List.cons.inj hcalls
      exact .inr ⟨before, c, rest, hrest, hpromotes⟩
  · rintro (hpromotes | ⟨before, c, rest, hcalls, hpromotes⟩)
    · exact ⟨[], call, calls, rfl, hpromotes⟩
    · exact ⟨call :: before, c, rest, by rw [hcalls]; rfl, hpromotes⟩

/-- Who is admitted after a run: whoever was, was named by a bundle, or was promoted. -/
theorem verifyPeer_after_iff :
    (n.after env calls).security.verifyPeer peer = .ok () ↔
      n.security.verifyPeer peer = .ok () ∨ Named calls peer ∨ n.Promoted env calls peer := by
  -- The first call by the step lemma; its two ways in join those of the rest.
  induction calls generalizing n with
  | nil => simp [after, Named, Promoted]
  | cons call calls ih =>
    change ((n.step env call).after env calls).security.verifyPeer peer = .ok () ↔ _
    rw [ih, verifyPeer_step_iff, named_cons, promoted_cons, or_assoc, or_or_or_comm]

/-- A peer is still rejected after a run exactly when it was before, no bundle names
    it, and no confirmation promotes it. -/
theorem rejected_after_iff (calls : List StagingCall) (peer : String) :
    (n.after env calls).security.verifyPeer peer ≠ .ok () ↔
      n.security.verifyPeer peer ≠ .ok () ∧ ¬ Named calls peer ∧ ¬ n.Promoted env calls peer := by
  rw [ne_eq, verifyPeer_after_iff, not_or, not_or]

/-- The stores of a node whose manager has a peer waiting. -/
def stagingStores : PeerStores where
  security :=
    { localPeerId := "node", replayWindowSecs := 300, replaySeen := ∅, peerPublicKeys := ∅
      authority := some stagingManager.state, allowedActions := ∅ }
  manager := stagingManager
  attached := rfl

/-- A bundle admits a peer that was rejected and waits for its confirmation. -/
theorem bundle_admits_waiting_peer :
    let staged := stagingStores.after plainEnv [.applyConfigBundle stagingBundle]
    stagingStores.security.verifyPeer "frank" = .error .badPeerIdentity ∧
      "frank" ∈ staged.manager.state.pendingPeers ∧
      staged.manager.state.getRole "frank" = none ∧
      staged.security.verifyPeer "frank" = .ok () ∧
      -- The peer the authority blocks is admitted as well.
      stagingStores.security.verifyPeer "mallory" = .error .badPeerIdentity ∧
      staged.manager.state.getRole "mallory" = some .blocked ∧
      staged.security.verifyPeer "mallory" = .ok () := by
  decide +kernel

end PeerStores

end EssNode
