import EssNode.Lib.Json
import EssNode.Security

/-!
# The Trusted Bundle

At boot a node compares the hash of the configuration it would hand out with a trusted
hash.

The bundle that is hashed carries the time at which it is made and the allowed peers in
the order the hash map gives them. Both are in the text, and texts with different times
or orders are different texts. So the check accepts at one second and for one order at
most (`verify_again_iff`), and it is a function of the authority state exactly if it
never accepts (`verifyBundleConfig_same_iff`).

The order of a map's keys is not determined by the map, so it is a parameter
(`KeyOrder`), as the clock is. The trusted hash belongs to the policy of the runtime.
-/

namespace EssNode

open Authority Bincode Json

/-- The order in which a map gives its keys. -/
structure KeyOrder where
  keys : FinMap String NodeRole → List String
  perm : ∀ peers, (keys peers).Perm peers.keys

/-- The text of a bundle, as it is hashed. -/
def ConfigBundle.toJson (self : ConfigBundle) : List UInt8 :=
  object
    [("role", Json.string.encode self.role),
     ("policy_version", Json.decimal self.policyVersion.toNat),
     ("allowed_peers", Json.array (self.allowedPeers.map Json.string.encode)),
     ("bootstrap_addrs", Json.array (self.bootstrapAddrs.map Json.string.encode)),
     ("issued_at", Json.decimal self.issuedAt.toNat)]

/-- Two bundles with the same role and version that have the same text name the same peers
    and addresses in the same order, and the same time. -/
theorem toJson_inj {b b' : ConfigBundle} (hrole : b.role = b'.role)
    (hversion : b.policyVersion = b'.policyVersion) (h : b.toJson = b'.toJson) : b = b' := by
  obtain ⟨role, version, peers, addrs, issued⟩ := b
  obtain ⟨role', version', peers', addrs', issued'⟩ := b'
  dsimp only at hrole hversion
  subst hrole hversion
  unfold ConfigBundle.toJson object at h
  simp only [List.map_cons, List.map_nil, separated_cons, List.cons_ne_nil, if_false,
    if_true, List.append_assoc, List.cons_append, List.append_cancel_left_eq, List.cons.injEq,
    true_and] at h
  obtain ⟨rfl, h⟩ := array_strings_cancel h
  simp only [List.cons.injEq, true_and, List.append_cancel_left_eq] at h
  obtain ⟨rfl, h⟩ := array_strings_cancel h
  simp only [List.cons.injEq, true_and, List.append_cancel_left_eq, List.append_cancel_right_eq]
    at h
  rw [UInt64.toNat_inj.mp (decimal_injective h)]

namespace SecurityRuntime

section Check

variable (s : SecurityRuntime) (order : KeyOrder) (now : UInt64)

/-- The configuration of the authority state, made now. -/
def exportConfigBundleImpl : Except SecurityError ConfigBundle :=
  match s.authority with
  | none => .error (.cryptoError "authority not attached")
  | some state => .ok
      { role := ""
        policyVersion := state.version
        allowedPeers := order.keys state.allowedPeers
        bootstrapAddrs := []
        issuedAt := now }

variable (sha256Hex : List UInt8 → String) (trustedBundleHash : Option String)

/-- Compare the configuration with the trusted hash. -/
def verifyBundleConfig : Except SecurityError Unit :=
  match trustedBundleHash with
  | none => .error (.cryptoError
      "trusted_bundle_hash not configured — cannot verify bundle integrity")
  | some hash => do
      let bundle ← s.exportConfigBundleImpl order now
      let currentHash := sha256Hex bundle.toJson
      if currentHash ≠ hash then .error (.cryptoError "Bundle config hash mismatch")
      else .ok ()

end Check

variable {s : SecurityRuntime} {order order' : KeyOrder} {now now' : UInt64}
  {sha256Hex : List UInt8 → String} {trustedBundleHash : Option String} {state : AuthorityState}

/-- A bundle that the runtime makes at some time, in some order. -/
def Exports (s : SecurityRuntime) (bundle : ConfigBundle) : Prop :=
  ∃ order now, s.exportConfigBundleImpl order now = .ok bundle

theorem Exports.toJson_inj {b b' : ConfigBundle} (hb : s.Exports b) (hb' : s.Exports b')
    (h : b.toJson = b'.toJson) : b = b' := by
  obtain ⟨order, now, hb⟩ := hb
  obtain ⟨order', now', hb'⟩ := hb'
  unfold exportConfigBundleImpl at hb hb'
  cases hauthority : s.authority with
  | none =>
    rw [hauthority] at hb
    cases hb
  | some state =>
    rw [hauthority] at hb hb'
    cases hb
    cases hb'
    exact EssNode.toJson_inj rfl rfl h

/-- The check accepts a bundle with the trusted hash. Otherwise it fails in a way that does
    not depend on the time and the order. -/
theorem verifyBundleConfig_cases (s : SecurityRuntime) (sha256Hex : List UInt8 → String)
    (trustedBundleHash : Option String) :
    ∃ e, ∀ order now,
      (s.verifyBundleConfig order now sha256Hex trustedBundleHash = .ok () ∧
        ∃ bundle, s.exportConfigBundleImpl order now = .ok bundle ∧
          trustedBundleHash = some (sha256Hex bundle.toJson)) ∨
      (s.verifyBundleConfig order now sha256Hex trustedBundleHash = .error e ∧
        ∀ bundle, s.exportConfigBundleImpl order now = .ok bundle →
          trustedBundleHash ≠ some (sha256Hex bundle.toJson)) := by
  cases trustedBundleHash with
  | none => exact ⟨_, fun order now => Or.inr ⟨rfl, nofun⟩⟩
  | some hash =>
    unfold verifyBundleConfig exportConfigBundleImpl
    cases s.authority with
    | none => exact ⟨_, fun order now => Or.inr ⟨rfl, nofun⟩⟩
    | some state =>
      refine ⟨.cryptoError "Bundle config hash mismatch", fun order now => ?_⟩
      dsimp only [bind, Except.bind]
      split
      · rename_i hother
        refine Or.inr ⟨rfl, fun bundle hbundle htrusted => hother ?_⟩
        cases hbundle
        exact (Option.some.inj htrusted).symm
      · rename_i hsame
        refine Or.inl ⟨rfl, _, rfl, ?_⟩
        rw [not_not.mp hsame]

theorem verify_again_iff
    (hcollision : ∀ bundle bundle', s.Exports bundle → s.Exports bundle' →
      sha256Hex bundle.toJson = sha256Hex bundle'.toJson → bundle.toJson = bundle'.toJson)
    (haccepted : s.verifyBundleConfig order now sha256Hex trustedBundleHash = .ok ()) :
    s.verifyBundleConfig order' now' sha256Hex trustedBundleHash = .ok () ↔
      s.exportConfigBundleImpl order' now' = s.exportConfigBundleImpl order now := by
  obtain ⟨e, hcases⟩ := verifyBundleConfig_cases s sha256Hex trustedBundleHash
  obtain ⟨bundle, hbundle, htrusted⟩ : ∃ bundle,
      s.exportConfigBundleImpl order now = .ok bundle ∧
        trustedBundleHash = some (sha256Hex bundle.toJson) := by
    rcases hcases order now with ⟨-, h⟩ | ⟨hfails, -⟩
    · exact h
    · rw [haccepted] at hfails
      cases hfails
  rcases hcases order' now' with ⟨hok, bundle', hbundle', htrusted'⟩ | ⟨hfails, hother⟩
  · refine iff_of_true hok ?_
    have hhash : sha256Hex bundle'.toJson = sha256Hex bundle.toJson :=
      Option.some.inj (htrusted'.symm.trans htrusted)
    have htext := hcollision _ _ ⟨order', now', hbundle'⟩ ⟨order, now, hbundle⟩ hhash
    rw [hbundle', hbundle,
      Exports.toJson_inj ⟨order', now', hbundle'⟩ ⟨order, now, hbundle⟩ htext]
  · refine iff_of_false (by rw [hfails]; nofun) fun hsame => ?_
    exact hother bundle (hsame.trans hbundle) htrusted

theorem export_eq_iff (hauthority : s.authority = some state) :
    s.exportConfigBundleImpl order' now' = s.exportConfigBundleImpl order now ↔
      now' = now ∧ order'.keys state.allowedPeers = order.keys state.allowedPeers := by
  unfold exportConfigBundleImpl
  rw [hauthority]
  simp only [Except.ok.injEq, ConfigBundle.mk.injEq, true_and]
  exact and_comm

theorem verify_of_export_eq
    (h : s.exportConfigBundleImpl order' now' = s.exportConfigBundleImpl order now) :
    s.verifyBundleConfig order now sha256Hex trustedBundleHash
      = s.verifyBundleConfig order' now' sha256Hex trustedBundleHash := by
  unfold verifyBundleConfig
  rw [h]

theorem verify_eq_iff
    (hcollision : ∀ bundle bundle', s.Exports bundle → s.Exports bundle' →
      sha256Hex bundle.toJson = sha256Hex bundle'.toJson → bundle.toJson = bundle'.toJson) :
    s.verifyBundleConfig order now sha256Hex trustedBundleHash
        = s.verifyBundleConfig order' now' sha256Hex trustedBundleHash ↔
      (s.verifyBundleConfig order now sha256Hex trustedBundleHash ≠ .ok () ∧
        s.verifyBundleConfig order' now' sha256Hex trustedBundleHash ≠ .ok ()) ∨
      (now' = now ∧ ∀ state, s.authority = some state →
        order'.keys state.allowedPeers = order.keys state.allowedPeers) := by
  obtain ⟨e, hcases⟩ := verifyBundleConfig_cases s sha256Hex trustedBundleHash
  have hfails : ∀ order now,
      s.verifyBundleConfig order now sha256Hex trustedBundleHash ≠ .ok () →
        s.verifyBundleConfig order now sha256Hex trustedBundleHash = .error e :=
    fun order now hnot => ((hcases order now).resolve_left fun h => hnot h.1).1
  constructor
  · intro hsame
    by_cases hok : s.verifyBundleConfig order now sha256Hex trustedBundleHash = .ok ()
    · have hexport := (verify_again_iff hcollision hok).mp (hsame.symm.trans hok)
      -- A check that accepts has read an authority state.
      cases hauthority : s.authority with
      | none =>
        rcases hcases order now with ⟨-, bundle, hbundle, -⟩ | ⟨hfail, -⟩
        · rw [exportConfigBundleImpl, hauthority] at hbundle
          cases hbundle
        · rw [hok] at hfail
          cases hfail
      | some state =>
        obtain ⟨hnow, hkeys⟩ := (export_eq_iff hauthority).mp hexport
        refine Or.inr ⟨hnow, fun state' hstate' => ?_⟩
        rw [← Option.some.inj hstate']
        exact hkeys
    · exact Or.inl ⟨hok, fun hok' => hok (hsame.trans hok')⟩
  · rintro (⟨hnot, hnot'⟩ | ⟨rfl, hkeys⟩)
    · rw [hfails order now hnot, hfails order' now' hnot']
    · refine verify_of_export_eq ?_
      cases hauthority : s.authority with
      | none =>
        unfold exportConfigBundleImpl
        rw [hauthority]
      | some state => exact (export_eq_iff hauthority).mpr ⟨rfl, hkeys state hauthority⟩

/-- If the hash has no collision among the bundles of a runtime, two checks against the same
    trusted hash agree exactly if neither accepts, or they are made at the same second and
    the allowed peers come in the same order. So the check is a function of the authority
    state and the trusted hash exactly if it accepts at no time and for no order. -/
theorem verifyBundleConfig_same_iff (s : SecurityRuntime) (sha256Hex : List UInt8 → String)
    (trustedBundleHash : Option String)
    (hcollision : ∀ bundle bundle', s.Exports bundle → s.Exports bundle' →
      sha256Hex bundle.toJson = sha256Hex bundle'.toJson → bundle.toJson = bundle'.toJson) :
    (∀ order order' now now',
      s.verifyBundleConfig order now sha256Hex trustedBundleHash
          = s.verifyBundleConfig order' now' sha256Hex trustedBundleHash ↔
        (s.verifyBundleConfig order now sha256Hex trustedBundleHash ≠ .ok () ∧
          s.verifyBundleConfig order' now' sha256Hex trustedBundleHash ≠ .ok ()) ∨
        (now' = now ∧ ∀ state, s.authority = some state →
          order'.keys state.allowedPeers = order.keys state.allowedPeers)) ∧
    ((∀ order order' now now',
        s.verifyBundleConfig order now sha256Hex trustedBundleHash
          = s.verifyBundleConfig order' now' sha256Hex trustedBundleHash) ↔
      ∀ order now, s.verifyBundleConfig order now sha256Hex trustedBundleHash ≠ .ok ()) := by
  refine ⟨fun order order' now now' => verify_eq_iff hcollision, fun hall order now hok => ?_,
    fun hnever order order' now now' => ?_⟩
  · -- A second later it would have to accept as well.
    rcases (verify_eq_iff hcollision).mp (hall order order now (now + 1)) with h | h
    · exact h.1 hok
    · exact absurd h.1 (by simp)
  · exact (verify_eq_iff hcollision).mpr (Or.inl ⟨hnever order now, hnever order' now'⟩)

theorem verify_own_hash (hauthority : s.authority = some state) :
    s.verifyBundleConfig order now sha256Hex
      ((s.exportConfigBundleImpl order now).toOption.map fun bundle => sha256Hex bundle.toJson)
      = .ok () := by
  unfold verifyBundleConfig exportConfigBundleImpl
  rw [hauthority]
  exact if_neg (not_not.mpr rfl)

theorem verify_mismatch (hauthority : s.authority = some state) {hash : String}
    (htrusted : trustedBundleHash = some hash)
    (hnot : s.verifyBundleConfig order now sha256Hex trustedBundleHash ≠ .ok ()) :
    s.verifyBundleConfig order now sha256Hex trustedBundleHash
      = .error (.cryptoError "Bundle config hash mismatch") := by
  subst htrusted
  unfold verifyBundleConfig exportConfigBundleImpl at hnot ⊢
  rw [hauthority] at hnot ⊢
  refine if_pos fun hsame => hnot ?_
  exact if_neg (not_not.mpr hsame)

/-- The keys in their own order. -/
def ascending : KeyOrder := ⟨fun peers => peers.keys, fun _ => List.Perm.refl _⟩

/-- The keys the other way round. -/
def descending : KeyOrder := ⟨fun peers => peers.keys.reverse, fun _ => List.reverse_perm _⟩

/-- A node whose authority knows two peers. -/
def pairRuntime : SecurityRuntime where
  localPeerId := "node"
  replayWindowSecs := 300
  replaySeen := ∅
  peerPublicKeys := ∅
  authority := some
    { supernodes := []
      allowedPeers :=
        ((∅ : FinMap String NodeRole).insert "peer-a" .client).insert "peer-b" .client
      policies := .default }
  allowedActions := ∅

/-- The text of the bundle of that node, made at second 1000 with the peers in their own
    order. The hexadecimal text of the bytes stands for the hash. -/
def pairBundleHash : Option String :=
  (pairRuntime.exportConfigBundleImpl ascending 1000).toOption.map fun bundle =>
    Text.hexEncode bundle.toJson

theorem pairBundle_trusted :
    pairRuntime.verifyBundleConfig ascending 1000 Text.hexEncode pairBundleHash = .ok () :=
  verify_own_hash rfl

theorem pairBundle_mismatch {order : KeyOrder} {now : UInt64}
    (hother : pairRuntime.exportConfigBundleImpl order now
      ≠ pairRuntime.exportConfigBundleImpl ascending 1000) :
    pairRuntime.verifyBundleConfig order now Text.hexEncode pairBundleHash
      = .error (.cryptoError "Bundle config hash mismatch") := by
  refine verify_mismatch rfl rfl fun hok => hother ?_
  exact (verify_again_iff (fun _ _ _ _ h => Text.hexEncode_injective h) pairBundle_trusted).mp hok

/-- A hash that was right at one second is not at another, though nothing changed. -/
theorem trusted_for_one_second :
    pairRuntime.verifyBundleConfig ascending 1000 Text.hexEncode pairBundleHash = .ok () ∧
      pairRuntime.verifyBundleConfig ascending 1001 Text.hexEncode pairBundleHash ≠ .ok () := by
  have hagree := ((verifyBundleConfig_same_iff pairRuntime Text.hexEncode pairBundleHash
    fun _ _ _ _ h => Text.hexEncode_injective h).1 ascending ascending 1000 1001)
  refine ⟨pairBundle_trusted, fun hlater => ?_⟩
  rcases hagree.mp (pairBundle_trusted.trans hlater.symm) with h | h
  · exact h.1 pairBundle_trusted
  · exact absurd h.1 (by decide)

/-- The same authority state and hash get three answers: accepted at second 1000, refused a
    second later, and refused at second 1000 if the peers come the other way round. -/
theorem same_state_other_answers :
    pairRuntime.verifyBundleConfig ascending 1000 Text.hexEncode pairBundleHash = .ok () ∧
      pairRuntime.verifyBundleConfig ascending 1001 Text.hexEncode pairBundleHash
        = .error (.cryptoError "Bundle config hash mismatch") ∧
      pairRuntime.verifyBundleConfig descending 1000 Text.hexEncode pairBundleHash
        = .error (.cryptoError "Bundle config hash mismatch") := by
  refine ⟨pairBundle_trusted, pairBundle_mismatch fun h => ?_, pairBundle_mismatch fun h => ?_⟩
  · exact absurd ((export_eq_iff rfl).mp h).1 (by decide)
  · exact absurd ((export_eq_iff rfl).mp h).2 (by decide +kernel)

end SecurityRuntime

end EssNode
