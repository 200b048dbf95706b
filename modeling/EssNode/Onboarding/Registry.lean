import EssNode.Onboarding.Replay
import EssNode.WorldState

/-!
# The Table of Peer Keys

Who writes the table of peer keys, and whether its entries belong to the peers they
are filed under.

Two events write it. An identify event comes with the key the peer's identifier is
derived from. An onboarding request comes with a key of its own choosing; it is
checked that the request is signed with that key, and nothing compares the key with
the peer the request came from. Both file what they have without looking at what is
there.

So the table is kept in order by exactly those runs in which every onboarding
request that is accepted carries the key of the peer that sent it
(`bound_throughout_iff`).
-/

namespace EssNode

namespace SecurityRuntime

variable (s : SecurityRuntime)

def registerPeerPublicKey (peer : String) (publicKey : PublicKey) : SecurityRuntime :=
  { s with peerPublicKeys := s.peerPublicKeys.insert peer publicKey }

def verifyPeerKey (peer : String) (publicKey : PublicKey) : Except SecurityError Unit :=
  match s.peerPublicKeys[peer]? with
  | some stored => if stored = publicKey then .ok () else .error .badPeerIdentity
  | none => .error .unknownPeerKey

end SecurityRuntime

namespace Onboarding

/-- The receiver's environment, with the network library's reading of keys and the
    identifier it derives from a key. -/
structure RegistryEnv extends OnboardingEnv where
  tryFromBytes : List UInt8 → Except String PublicKey
  peerIdOf : PublicKey → String

/-- What the two writers share: the runtime with its table of keys, the fields that
    onboarding uses, and the world state with its flags. -/
structure Registry where
  security : SecurityRuntime
  onboarding : OnboardingState
  world : WorldState

/-- File the key of an identify event. It is compared with the one on file first, for
    the log only. -/
def registerPeerOnDiscovery (g : Registry) (peer : String) (publicKey : PublicKey) :
    Registry × Except SecurityError Unit :=
  ({ g with security := g.security.registerPeerPublicKey peer publicKey },
    g.security.verifyPeerKey peer publicKey)

/-- Check an onboarding request, file its key and set the peer's flag. A key the
    network library cannot read is not filed; the request is accepted all the same. -/
def handlePeerIdentified (env : RegistryEnv) (r : Readings) (g : Registry) (remote : String)
    (request : OnboardRequest) : Registry × Bool :=
  let checked := verifyRemoteIdentity env.toOnboardingEnv r g.onboarding remote request
  let g := { g with onboarding := checked.1 }
  if !checked.2 then (g, false)
  else
    -- Nothing here asks whether the key belongs to the peer.
    let security :=
      match env.tryFromBytes request.publicKey with
      | .ok publicKey => g.security.registerPeerPublicKey remote publicKey
      | .error _ => g.security
    ({ g with security := security, world := g.world.markPeerActivated remote }, true)

/-- An identify event: the peer's identifier is derived from the key it comes with. -/
structure Identify (env : RegistryEnv) where
  peer : String
  publicKey : PublicKey
  derived : env.peerIdOf publicKey = peer

inductive Event (env : RegistryEnv) where
  | identify (e : Identify env)
  | onboard (a : Attempt)

namespace Registry

variable {env : RegistryEnv} (g : Registry)

def step : Event env → Registry
  | .identify e => (registerPeerOnDiscovery g e.peer e.publicKey).1
  | .onboard a => (handlePeerIdentified env a.readings g a.remote a.request).1

def after (events : List (Event env)) : Registry := events.foldl step g

variable (env) in
/-- Every key is filed under the identifier derived from it. -/
def Bound : Prop :=
  ∀ peer publicKey, g.security.peerPublicKeys[peer]? = some publicKey →
    env.peerIdOf publicKey = peer

/-- The key an event files, if any, and under which peer. -/
def filed : Event env → Option (String × PublicKey)
  | .identify e => some (e.peer, e.publicKey)
  | .onboard a =>
    if a.Accepted env.toOnboardingEnv g.onboarding then
      match env.tryFromBytes a.request.publicKey with
      | .ok publicKey => some (a.remote, publicKey)
      | .error _ => none
    else none

theorem step_peerPublicKeys (e : Event env) :
    (g.step e).security.peerPublicKeys =
      match g.filed e with
      | some (peer, publicKey) => g.security.peerPublicKeys.insert peer publicKey
      | none => g.security.peerPublicKeys := by
  cases e with
  | identify e => rfl
  | onboard a =>
    by_cases haccepted : a.Accepted env.toOnboardingEnv g.onboarding
    · rw [filed, if_pos haccepted, step, handlePeerIdentified]
      dsimp only
      rw [if_neg (by simpa [Attempt.Accepted, Attempt.verify] using haccepted)]
      cases env.tryFromBytes a.request.publicKey with
      | error e => rfl
      | ok publicKey => rfl
    · rw [filed, if_neg haccepted, step, handlePeerIdentified]
      dsimp only
      rw [if_pos (by simpa [Attempt.Accepted, Attempt.verify] using haccepted)]

variable {g}

theorem bound_step_iff (h : g.Bound env) (e : Event env) :
    (g.step e).Bound env ↔
      ∀ peer publicKey, g.filed e = some (peer, publicKey) → env.peerIdOf publicKey = peer := by
  unfold Bound
  rw [step_peerPublicKeys]
  cases hfiled : g.filed e with
  | none => exact iff_of_true h (by simp)
  | some entry =>
    obtain ⟨peer, publicKey⟩ := entry
    constructor
    · -- The new entry is one of those the table has.
      rintro hbound _ _ ⟨⟩
      exact hbound peer publicKey (by rw [FinMap.find_insert, if_pos rfl])
    · intro hentry p pk hfind
      rcases FinMap.find_insert_eq_some.mp hfind with ⟨rfl, rfl⟩ | ⟨-, hold⟩
      · exact hentry peer publicKey rfl
      · exact h p pk hold

theorem filed_derived_iff (e : Event env) :
    (∀ peer publicKey, g.filed e = some (peer, publicKey) → env.peerIdOf publicKey = peer) ↔
      ∀ a publicKey, e = .onboard a → a.Accepted env.toOnboardingEnv g.onboarding →
        env.tryFromBytes a.request.publicKey = .ok publicKey →
          env.peerIdOf publicKey = a.remote := by
  cases e with
  | identify e =>
    refine iff_of_true ?_ (by simp)
    rintro _ _ ⟨⟩
    exact e.derived
  | onboard a =>
    constructor
    · rintro h _ publicKey ⟨⟩ haccepted hkey
      exact h a.remote publicKey (by rw [filed, if_pos haccepted, hkey])
    · intro h peer publicKey hfiled
      rw [filed] at hfiled
      by_cases haccepted : a.Accepted env.toOnboardingEnv g.onboarding
      · rw [if_pos haccepted] at hfiled
        cases hkey : env.tryFromBytes a.request.publicKey with
        | error e => simp [hkey] at hfiled
        | ok pk =>
          rw [hkey] at hfiled
          cases hfiled
          exact h a _ rfl haccepted hkey
      · rw [if_neg haccepted] at hfiled
        exact absurd hfiled (by simp)

/-- From a table that is in order, it is in order after every event of a run exactly
    when each onboarding request that is accepted, with a key that can be read, comes
    from the peer whose identifier is derived from that key. -/
theorem bound_throughout_iff (h : g.Bound env) (events : List (Event env)) :
    (∀ before rest, events = before ++ rest → (g.after before).Bound env) ↔
      ∀ before a rest publicKey, events = before ++ .onboard a :: rest →
        a.Accepted env.toOnboardingEnv (g.after before).onboarding →
          env.tryFromBytes a.request.publicKey = .ok publicKey →
            env.peerIdOf publicKey = a.remote := by
  constructor
  · intro hbound before a rest publicKey hevents
    have hstep : ((g.after before).step (.onboard a : Event env)).Bound env := by
      have := hbound (before ++ [.onboard a]) rest (by simp [hevents])
      rwa [after, List.foldl_append] at this
    exact (filed_derived_iff _).mp
      ((bound_step_iff (hbound before _ hevents) (.onboard a)).mp hstep) a publicKey rfl
  · intro hkeys before
    -- The table is in order before the last event, which files nothing that breaks it.
    induction before using List.reverseRecOn with
    | nil => exact fun _ _ => h
    | append_singleton before e ih =>
      intro rest hevents
      have hbefore := ih (e :: rest) (by simp [hevents])
      rw [after, List.foldl_append]
      refine (bound_step_iff hbefore e).mpr ((filed_derived_iff e).mpr ?_)
      rintro a publicKey rfl haccepted hkey
      exact hkeys before a rest publicKey (by simp [hevents]) haccepted hkey

end Registry

/-- A registry with nothing in it. -/
def emptyRegistry : Registry where
  security :=
    { localPeerId := "node", replayWindowSecs := 300, replaySeen := ∅, peerPublicKeys := ∅
      authority := none, allowedActions := ∅ }
  onboarding := .new
  world :=
    { revision := 0, lastUpdated := 0, supernodes := [], peerRegistry := ∅, ghost := {}
      activatedPeers := ∅ }

/-- Keys of 32 bytes can be read, and one of them is the key of the peer. -/
def registryEnv (key : List UInt8) : RegistryEnv where
  toOnboardingEnv := tagEnv
  tryFromBytes bytes := if bytes.length = 32 then .ok ⟨bytes⟩ else .error "invalid length"
  peerIdOf publicKey := if publicKey.bytes = key then "peer" else Text.hexEncode publicKey.bytes

/-- The peer identifies itself and sends an onboarding request. -/
def identifyThenOnboard (key : List UInt8) : List (Event (registryEnv key)) :=
  [.identify ⟨"peer", ⟨key⟩, by simp [registryEnv]⟩, .onboard (attemptAt 1000)]

theorem emptyRegistry_bound (env : RegistryEnv) : emptyRegistry.Bound env := by
  intro peer publicKey hfind
  simp [emptyRegistry] at hfind

/-- With its own key in the request. -/
theorem own_key_registered :
    (emptyRegistry.after (identifyThenOnboard tagKey)).Bound (registryEnv tagKey) ∧
      (emptyRegistry.after (identifyThenOnboard tagKey)).world.activatedPeers["peer"]? =
        some true := by
  refine ⟨(Registry.bound_throughout_iff (emptyRegistry_bound _) (identifyThenOnboard tagKey)).mpr
    ?_ _ [] (by simp), by decide +kernel⟩
  intro before a rest publicKey hevents _ hkey
  have hmem : .onboard a ∈ identifyThenOnboard tagKey := by simp [hevents]
  have ha : a = attemptAt 1000 := by simpa [identifyThenOnboard] using hmem
  subst ha
  have hpk : (registryEnv tagKey).tryFromBytes (attemptAt 1000).request.publicKey =
      .ok ⟨tagKey⟩ := by
    decide +kernel
  rw [hpk] at hkey
  cases hkey
  decide +kernel

/-- With another key in the request: it is accepted, and the other key replaces the
    peer's own. -/
theorem foreign_key_registered :
    let key := List.replicate 32 9
    let g := emptyRegistry.after (identifyThenOnboard key)
    (attemptAt 1000).Accepted tagEnv emptyRegistry.onboarding ∧
      g.security.peerPublicKeys["peer"]? = some ⟨tagKey⟩ ∧
      (registryEnv key).peerIdOf ⟨tagKey⟩ ≠ "peer" := by
  decide +kernel

end Onboarding

end EssNode
