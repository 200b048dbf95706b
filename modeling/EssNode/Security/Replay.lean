import EssNode.Lib.Base64
import EssNode.Security.Messages

/-!
# Replay

A message that was accepted must not be accepted again. The runtime remembers the
nonces of each peer and refuses one it remembers, but it forgets a nonce once the
replay window has passed since it *received* it, while a message stays acceptable
for the window around the time it *claims*.

So whether the two periods line up depends on the message. What holds of every
run is that a nonce which passes twice passes the second time more than a window
after the first (`replayed_late`). If the message did not come from the future and
both readings of a check fall in the same second, it is too old by then
(`no_replay`). A message from the future outlives its nonce
(`future_message_replayed`).

Gateway and web requests have a second gap: their signatures do not cover the
nonce. A copy with another nonce carries the same valid signature, and nothing
else is remembered (`fresh_nonce_accepted`). Within a window a signature is
accepted once if it always comes from one peer with one nonce (`accepted_once`).
-/

namespace EssNode

open Bincode Option Std.ExtTreeMap

namespace SecurityRuntime

variable (s : SecurityRuntime)

/-- The nonces of a peer that are still in the window. -/
def keptNonces (now : UInt64) (peer : String) : Bucket :=
  freshNonces s.replayWindowSecs now (s.replaySeen[peer]?.getD ∅)

/-- When a nonce of a peer was received, as far as it is remembered. -/
def seenAt (peer nonce : String) : Option UInt64 := s.replaySeen[peer]?.bind fun b => b[nonce]?

theorem find_freshNonces (window now : UInt64) (bucket : Bucket) (nonce : String) :
    (freshNonces window now bucket)[nonce]?
      = bucket[nonce]?.filter fun t => decide (absDiff now t ≤ window) := by
  rw [freshNonces, getElem?_filter']

theorem freshNonces_freshNonces (window now : UInt64) (bucket : Bucket) :
    freshNonces window now (freshNonces window now bucket) = freshNonces window now bucket := by
  refine ext_getElem? (fun nonce => ?_)
  rw [find_freshNonces, find_freshNonces, filter_filter]
  simp only [Bool.and_self]

theorem freshNonces_trackedBuckets (now : UInt64) (peer : String) :
    freshNonces s.replayWindowSecs now ((s.trackedBuckets now)[peer]?.getD ∅)
      = s.keptNonces now peer := by
  unfold trackedBuckets keptNonces
  split
  · rw [getElem?_filterMap']
    cases s.replaySeen[peer]? with
    | none => rfl
    | some bucket =>
      dsimp only [bind_some, getD_some]
      split
      · -- A bucket with nothing left in it is gone.
        rename_i hempty
        rw [Std.ExtTreeMap.isEmpty_iff] at hempty
        have hnone := freshNonces_freshNonces s.replayWindowSecs now bucket
        rw [hempty] at hnone
        rw [getD_none, hnone, hempty]
      · rw [getD_some, freshNonces_freshNonces]
  · rfl

/-- The runtime with the buckets cleaned and one of them set. -/
def setBucket (now : UInt64) (peer : String) (bucket : Bucket) : SecurityRuntime :=
  { s with replaySeen := (s.trackedBuckets now).insert peer bucket }

/-- Everything the freshness check can come to: the time is refused and nothing
    changes; or the buckets are cleaned, and the nonce is either refused or
    recorded. -/
theorem checkCommon_cases (now₁ now₂ : UInt64) (peer : String) (ts : UInt64) (nonce : String) :
    (¬ absDiff now₁ ts ≤ s.replayWindowSecs ∧
      s.checkCommon now₁ now₂ peer ts nonce = (s, .error .timestampOutOfWindow)) ∨
    (absDiff now₁ ts ≤ s.replayWindowSecs ∧
      ((s.keptNonces now₂ peer).contains nonce = true ∨
        maxNoncesPerPeer ≤ (s.keptNonces now₂ peer).size) ∧
      s.checkCommon now₁ now₂ peer ts nonce
        = (s.setBucket now₂ peer (s.keptNonces now₂ peer), .error .replayDetected)) ∨
    (absDiff now₁ ts ≤ s.replayWindowSecs ∧
      (s.keptNonces now₂ peer).contains nonce = false ∧
      (s.keptNonces now₂ peer).size < maxNoncesPerPeer ∧
      s.checkCommon now₁ now₂ peer ts nonce
        = (s.setBucket now₂ peer ((s.keptNonces now₂ peer).insert nonce now₂), .ok ())) := by
  unfold checkCommon setBucket
  dsimp only
  rw [freshNonces_trackedBuckets]
  by_cases hwindow : absDiff now₁ ts ≤ s.replayWindowSecs
  · rw [if_neg (UInt64.not_lt.mpr hwindow)]
    by_cases hseen : (s.keptNonces now₂ peer).contains nonce = true
    · exact Or.inr (Or.inl ⟨hwindow, Or.inl hseen, if_pos hseen⟩)
    rw [if_neg hseen]
    by_cases hfull : (s.keptNonces now₂ peer).size ≥ maxNoncesPerPeer
    · exact Or.inr (Or.inl ⟨hwindow, Or.inr hfull, if_pos hfull⟩)
    · exact Or.inr (Or.inr ⟨hwindow, Bool.eq_false_iff.mpr hseen, Nat.lt_of_not_ge hfull,
        if_neg hfull⟩)
  · exact Or.inl ⟨hwindow, if_pos (UInt64.not_le.mp hwindow)⟩

variable {s} {now₁ now₂ : UInt64} {peer nonce : String} {ts : UInt64}

theorem checkCommon_eq_ok_iff :
    (s.checkCommon now₁ now₂ peer ts nonce).2 = .ok () ↔
      absDiff now₁ ts ≤ s.replayWindowSecs ∧ (s.keptNonces now₂ peer).contains nonce = false ∧
        (s.keptNonces now₂ peer).size < maxNoncesPerPeer := by
  rcases s.checkCommon_cases now₁ now₂ peer ts nonce with
    ⟨hlate, hres⟩ | ⟨-, hrefused, hres⟩ | ⟨hwindow, hnew, hroom, hres⟩
  · rw [hres]
    simp [hlate]
  · rw [hres]
    refine iff_of_false (by simp) (fun h => ?_)
    rcases hrefused with hseen | hfull
    · rw [h.2.1] at hseen
      exact absurd hseen (by decide)
    · omega
  · rw [hres]
    exact iff_of_true rfl ⟨hwindow, hnew, hroom⟩

theorem seenAt_setBucket (bucket : Bucket) (p x : String) :
    (s.setBucket now₂ peer bucket).seenAt p x
      = if peer = p then bucket[x]? else (s.trackedBuckets now₂)[p]?.bind fun b => b[x]? := by
  unfold seenAt setBucket
  dsimp only
  rw [FinMap.find_insert]
  by_cases h : peer = p
  · rw [if_pos h, if_pos h, bind_some]
  · rw [if_neg h, if_neg h]

theorem seenAt_of_passes (h : (s.checkCommon now₁ now₂ peer ts nonce).2 = .ok ()) :
    (s.checkCommon now₁ now₂ peer ts nonce).1.seenAt peer nonce = some now₂ := by
  rcases s.checkCommon_cases now₁ now₂ peer ts nonce with
    ⟨-, hres⟩ | ⟨-, -, hres⟩ | ⟨-, -, -, hres⟩
  · rw [hres] at h
    cases h
  · rw [hres] at h
    cases h
  · rw [hres, seenAt_setBucket, if_pos rfl, FinMap.find_insert, if_pos rfl]

variable {p x : String} {t : UInt64}

theorem find_keptNonces_iff :
    (s.keptNonces now₂ p)[x]? = some t ↔
      s.seenAt p x = some t ∧ absDiff now₂ t ≤ s.replayWindowSecs := by
  unfold keptNonces seenAt
  rw [find_freshNonces, filter_eq_some_iff, decide_eq_true_eq]
  cases s.replaySeen[p]? with
  | none => simp only [getD_none, getElem?_empty, bind_none]
  | some bucket => rw [getD_some, bind_some]

theorem find_trackedBuckets (h : s.seenAt p x = some t)
    (hfresh : absDiff now₂ t ≤ s.replayWindowSecs) :
    ((s.trackedBuckets now₂)[p]?.bind fun b => b[x]?) = some t := by
  have hkept := find_keptNonces_iff.mpr ⟨h, hfresh⟩
  rw [← freshNonces_trackedBuckets, find_freshNonces, filter_eq_some_iff] at hkept
  cases hbucket : (s.trackedBuckets now₂)[p]? with
  | none =>
    rw [hbucket, getD_none, getElem?_empty] at hkept
    exact absurd hkept.1 (by simp only [reduceCtorEq, not_false_eq_true])
  | some bucket =>
    rw [hbucket, getD_some] at hkept
    rw [bind_some]
    exact hkept.1

theorem seenAt_checkCommon (h : s.seenAt p x = some t)
    (hfresh : absDiff now₂ t ≤ s.replayWindowSecs) :
    (s.checkCommon now₁ now₂ peer ts nonce).1.seenAt p x = some t := by
  have hkept := find_keptNonces_iff.mpr ⟨h, hfresh⟩
  have htracked := find_trackedBuckets h hfresh
  rcases s.checkCommon_cases now₁ now₂ peer ts nonce with
    ⟨-, hres⟩ | ⟨-, -, hres⟩ | ⟨-, hnew, -, hres⟩
  · rw [hres]
    exact h
  · rw [hres, seenAt_setBucket]
    by_cases hpeer : peer = p
    · rw [if_pos hpeer, hpeer, hkept]
    · rw [if_neg hpeer, htracked]
  · rw [hres, seenAt_setBucket]
    by_cases hpeer : peer = p
    · -- The nonce that is recorded is another one: this one is still there.
      have hother : nonce ≠ x := by
        rintro rfl
        rw [hpeer, contains_eq_isSome_getElem?, hkept, isSome_some] at hnew
        exact absurd hnew (by decide)
      rw [if_pos hpeer, FinMap.find_insert, if_neg hother, hpeer, hkept]
    · rw [if_neg hpeer, htracked]

theorem seenAt_of_trackedBuckets
    (h : ((s.trackedBuckets now₂)[p]?.bind fun b => b[x]?) = some t) : s.seenAt p x = some t := by
  unfold trackedBuckets at h
  unfold seenAt
  split at h
  · rw [getElem?_filterMap'] at h
    cases hbucket : s.replaySeen[p]? with
    | none => simp [hbucket] at h
    | some bucket =>
      rw [hbucket, bind_some] at h
      dsimp only at h
      split at h
      · cases h
      · rw [bind_some, find_freshNonces, filter_eq_some_iff] at h
        exact h.1
  · exact h

theorem seenAt_of_checkCommon
    (h : (s.checkCommon now₁ now₂ peer ts nonce).1.seenAt p x = some t) :
    s.seenAt p x = some t ∨
      ((s.checkCommon now₁ now₂ peer ts nonce).2 = .ok () ∧ peer = p ∧ nonce = x ∧ now₂ = t) := by
  rcases s.checkCommon_cases now₁ now₂ peer ts nonce with
    ⟨-, hres⟩ | ⟨-, -, hres⟩ | ⟨-, -, -, hres⟩
  · rw [hres] at h
    exact Or.inl h
  · rw [hres, seenAt_setBucket] at h
    by_cases hpeer : peer = p
    · rw [if_pos hpeer, hpeer] at h
      exact Or.inl (find_keptNonces_iff.mp h).1
    · rw [if_neg hpeer] at h
      exact Or.inl (seenAt_of_trackedBuckets h)
  · rw [hres, seenAt_setBucket] at h
    by_cases hpeer : peer = p
    · rw [if_pos hpeer, FinMap.find_insert, hpeer] at h
      by_cases hnonce : nonce = x
      · rw [if_pos hnonce, some.injEq] at h
        exact Or.inr ⟨congrArg Prod.snd hres, hpeer, hnonce, h⟩
      · rw [if_neg hnonce] at h
        exact Or.inl (find_keptNonces_iff.mp h).1
    · rw [if_neg hpeer] at h
      exact Or.inl (seenAt_of_trackedBuckets h)

theorem not_passes_of_seenAt (h : s.seenAt peer nonce = some t)
    (hfresh : absDiff now₂ t ≤ s.replayWindowSecs) :
    (s.checkCommon now₁ now₂ peer ts nonce).2 ≠ .ok () := by
  intro hpass
  have hnew := (checkCommon_eq_ok_iff.mp hpass).2.1
  rw [contains_eq_isSome_getElem?, find_keptNonces_iff.mpr ⟨h, hfresh⟩,
    isSome_some] at hnew
  exact absurd hnew (by decide)

end SecurityRuntime

/-- A call of a check: the readings of the clock, the node's own name, the peer
    the message came from, and the message. -/
structure Call where
  now₁ : UInt64
  now₂ : UInt64
  localPeer : String
  remote : String
  message : SignedMessage

namespace Call

variable (crypto : Crypto) (fromJson : String → Except String ConfigBundle)
  (s : SecurityRuntime) (c : Call)

/-- The runtime after a call, and its result. -/
def verify : SecurityRuntime × Except SecurityError Received :=
  s.verifyMessage crypto fromJson c.now₁ c.now₂ c.localPeer c.remote c.message

def PassesCommon : Prop :=
  (s.checkCommon c.now₁ c.now₂ c.remote c.message.ts c.message.nonce).2 = .ok ()

def Accepted : Prop := ∃ r, (c.verify crypto fromJson s).2 = .ok r

theorem Accepted.passesCommon {crypto : Crypto} {fromJson : String → Except String ConfigBundle}
    {s : SecurityRuntime} {c : Call} (h : c.Accepted crypto fromJson s) : c.PassesCommon s := by
  rcases h with ⟨r, hr⟩
  exact ((SecurityRuntime.verifyMessage_eq_ok_iff c.message r).mp hr).1.fresh

instance : Decidable (c.PassesCommon s) := inferInstanceAs (Decidable (_ = _))

/-- The readings of a run, in the order in which they are made, do not run
    backwards. -/
def InOrder (calls : List Call) : Prop :=
  (calls.flatMap fun c => [c.now₁, c.now₂]).Pairwise (· ≤ ·)

instance (calls : List Call) : Decidable (InOrder calls) :=
  inferInstanceAs (Decidable (List.Pairwise _ _))

/-- Two calls about one message: the same peer, nonce and time. -/
def SameMessage (c c' : Call) : Prop :=
  c'.remote = c.remote ∧ c'.message.nonce = c.message.nonce ∧ c'.message.ts = c.message.ts

/-- A message that does not come from the future, checked within one second. -/
def Timely : Prop := c.message.ts ≤ c.now₁ ∧ c.now₁ = c.now₂

instance : Decidable c.Timely := inferInstanceAs (Decidable (_ ∧ _))

end Call

def SecurityRuntime.after (crypto : Crypto) (fromJson : String → Except String ConfigBundle)
    (s : SecurityRuntime) (calls : List Call) : SecurityRuntime :=
  calls.foldl (fun s c => (c.verify crypto fromJson s).1) s

namespace Call

variable {crypto : Crypto} {fromJson : String → Except String ConfigBundle} {s : SecurityRuntime}

theorem after_append (first second : List Call) :
    s.after crypto fromJson (first ++ second)
      = (s.after crypto fromJson first).after crypto fromJson second :=
  List.foldl_append

theorem after_sameKeys (calls : List Call) :
    SecurityRuntime.SameKeys s (s.after crypto fromJson calls) := by
  induction calls generalizing s with
  | nil => exact .refl s
  | cons c calls ih =>
    have hfst : SecurityRuntime.SameKeys s (c.verify crypto fromJson s).1 := by
      rw [verify, SecurityRuntime.verifyMessage_fst]
      exact SecurityRuntime.checkCommon_sameKeys s _ _ _ _ _
    exact hfst.trans ih

theorem seenAt_after {p x : String} {t : UInt64} (calls : List Call)
    (h : s.seenAt p x = some t)
    (hfresh : ∀ c ∈ calls, absDiff c.now₂ t ≤ s.replayWindowSecs) :
    (s.after crypto fromJson calls).seenAt p x = some t := by
  induction calls generalizing s with
  | nil => exact h
  | cons c calls ih =>
    have hfst : (c.verify crypto fromJson s).1
        = (s.checkCommon c.now₁ c.now₂ c.remote c.message.ts c.message.nonce).1 := by
      rw [verify, SecurityRuntime.verifyMessage_fst]
    have hwindow : (c.verify crypto fromJson s).1.replayWindowSecs = s.replayWindowSecs := by
      rw [hfst]
      exact (SecurityRuntime.checkCommon_sameKeys s _ _ _ _ _).replayWindowSecs
    refine ih (s := (c.verify crypto fromJson s).1) ?_ ?_
    · rw [hfst]
      exact SecurityRuntime.seenAt_checkCommon h (hfresh c (by simp))
    · intro e he
      rw [hwindow]
      exact hfresh e (by simp [he])

theorem InOrder.between {before between after : List Call} {c c' : Call}
    (h : InOrder (before ++ c :: between ++ c' :: after)) :
    c.now₂ ≤ c'.now₁ ∧ c'.now₁ ≤ c'.now₂ ∧ ∀ e ∈ between, c.now₂ ≤ e.now₂ ∧ e.now₂ ≤ c'.now₂ := by
  -- The readings within a call, and those across two calls.
  rcases List.pairwise_flatMap.mp h with ⟨hwithin, hacross⟩
  rcases pairwise_between hacross with ⟨hends, hmiddle⟩
  refine ⟨hends _ (by simp) _ (by simp), ?_, fun e he => ⟨?_, ?_⟩⟩
  · exact List.pairwise_pair.mp (hwithin c' (by simp))
  · exact (hmiddle e he).1 _ (by simp) _ (by simp)
  · exact (hmiddle e he).2 _ (by simp) _ (by simp)

/-- A nonce of a peer passes twice only with more than a window in between. -/
theorem replayed_late {before between after : List Call} {c c' : Call}
    (hclock : InOrder (before ++ c :: between ++ c' :: after))
    (hpeer : c'.remote = c.remote) (hnonce : c'.message.nonce = c.message.nonce)
    (hpass : c.PassesCommon (s.after crypto fromJson before))
    (hpass' : c'.PassesCommon (s.after crypto fromJson (before ++ c :: between))) :
    c.now₂.toNat + s.replayWindowSecs.toNat < c'.now₂.toNat := by
  rcases hclock.between with ⟨hle, hle', hbetween⟩
  have hcc' := UInt64.le_iff_toNat_le.mp (UInt64.le_trans hle hle')
  by_contra hsoon
  -- The first call leaves its nonce remembered, and the window is what it was.
  have hwindow : (c.verify crypto fromJson (s.after crypto fromJson before)).1.replayWindowSecs
      = s.replayWindowSecs := by
    have hsame : SecurityRuntime.SameKeys s (s.after crypto fromJson (before ++ [c])) :=
      after_sameKeys (before ++ [c])
    rw [after_append] at hsame
    exact hsame.replayWindowSecs
  have hseen : (c.verify crypto fromJson (s.after crypto fromJson before)).1.seenAt c.remote
      c.message.nonce = some c.now₂ := by
    rw [verify, SecurityRuntime.verifyMessage_fst]
    exact SecurityRuntime.seenAt_of_passes hpass
  -- It still is when the second call is made.
  have hkept : (s.after crypto fromJson (before ++ c :: between)).seenAt c.remote c.message.nonce
      = some c.now₂ := by
    rw [after_append]
    refine seenAt_after between hseen (fun e he => ?_)
    have hlow := UInt64.le_iff_toNat_le.mp (hbetween e he).1
    have hhigh := UInt64.le_iff_toNat_le.mp (hbetween e he).2
    rw [hwindow, absDiff_le_iff]
    omega
  have hlast : absDiff c'.now₂ c.now₂
      ≤ (s.after crypto fromJson (before ++ c :: between)).replayWindowSecs := by
    have hsame : SecurityRuntime.SameKeys s (s.after crypto fromJson (before ++ c :: between)) :=
      after_sameKeys _
    rw [hsame.replayWindowSecs, absDiff_le_iff]
    omega
  rw [← hpeer, ← hnonce] at hkept
  exact SecurityRuntime.not_passes_of_seenAt hkept hlast hpass'

end Call

open Call

variable (crypto : Crypto) (fromJson : String → Except String ConfigBundle) (s : SecurityRuntime)

/-- A stand-in for signatures: the key, followed by what is signed. -/
def tagCrypto (key : String) : Crypto where
  verify pk data sig := decide (sig = pk.bytes ++ data)
  sign data := .ok (utf8 key ++ data)
  decodeBase64 text :=
    match Base64.decode text with
    | some bytes => .ok bytes
    | none => .error "Invalid symbol"
  encodeBase64 := Base64.encode

theorem tagCrypto_decodeBase64 (key : String) (bytes : List UInt8) :
    (tagCrypto key).decodeBase64 (Base64.encode bytes) = .ok bytes := by
  simp [tagCrypto, Base64.decode_encode]

theorem passes_of_tag {key own : String} {s : SecurityRuntime} {now₁ now₂ : UInt64}
    {localPeer remote : String} {m : SignedMessage}
    (hfresh : (s.checkCommon now₁ now₂ remote m.ts m.nonce).2 = .ok ())
    (hnames : ∀ names, m.names = some names → names = (remote, localPeer))
    (hkey : s.peerPublicKeys[remote]? = some ⟨utf8 key⟩)
    (hsigned : m.signature = Base64.encode (utf8 key ++ m.material .little)) :
    s.Passes (tagCrypto own) now₁ now₂ localPeer remote m := by
  refine ⟨hfresh, hnames, ⟨utf8 key⟩, utf8 key ++ m.material .little, hkey, ?_, ?_⟩
  · rw [hsigned, tagCrypto_decodeBase64]
  · simp [tagCrypto]

theorem accepted_of_tag {fromJson : String → Except String ConfigBundle} {key own : String}
    {s : SecurityRuntime} {c : Call} {r : Received} (hfresh : c.PassesCommon s)
    (hnames : ∀ names, c.message.names = some names → names = (c.remote, c.localPeer))
    (hkey : s.peerPublicKeys[c.remote]? = some ⟨utf8 key⟩)
    (hsigned : c.message.signature = Base64.encode (utf8 key ++ c.message.material .little))
    (hread : c.message.contents fromJson = .ok r) : c.Accepted (tagCrypto own) fromJson s :=
  ⟨r, (SecurityRuntime.verifyMessage_eq_ok_iff c.message r).mpr
    ⟨passes_of_tag hfresh hnames hkey hsigned, hread⟩⟩

/-- A runtime that knows one peer's key. -/
def tagRuntime : SecurityRuntime where
  localPeerId := "node"
  replayWindowSecs := 300
  replaySeen := ∅
  peerPublicKeys := (∅ : FinMap String PublicKey).insert "peer" ⟨utf8 "key"⟩
  authority := none
  allowedActions := ∅

/-- A call about a message of that peer, made within one second. -/
def callAt (now : UInt64) (message : SignedMessage) : Call := ⟨now, now, "node", "peer", message⟩

/-- A request to a gateway, signed with the peer's key. -/
def signedGet (ts : UInt64) (nonce : String) : GatewayRequest :=
  let req : GatewayRequest :=
    { messageId := "gw-1", sender := "peer", recipient := "node", method := "GET", url := "/"
      nonce := nonce, ts := ts }
  { req with signature := Base64.encode (utf8 "key" ++ req.signingBytes req.body) }

theorem signedGet_signature (ts : UInt64) (nonce : String) :
    (signedGet ts nonce).signature
      = Base64.encode (utf8 "key" ++ requestSigningBytes "gw-1" "peer" "node" "GET" "/" ts "") := by
  simp only [signedGet, GatewayRequest.signingBytes]

theorem signedGet_accepted {fromJson : String → Except String ConfigBundle} {s : SecurityRuntime}
    {now ts : UInt64} {nonce : String} (hkey : s.peerPublicKeys["peer"]? = some ⟨utf8 "key"⟩)
    (hfresh : (s.checkCommon now now "peer" ts nonce).2 = .ok ()) :
    (callAt now (.gatewayRequest (signedGet ts nonce))).Accepted (tagCrypto "key") fromJson s :=
  accepted_of_tag hfresh nofun hkey (signedGet_signature ts nonce) rfl

/-- No two calls of a run about one message both pass the freshness check. -/
def NoReplay (calls : List Call) : Prop :=
  ∀ before c between c' after, calls = before ++ c :: between ++ c' :: after →
    SameMessage c c' → c.PassesCommon (s.after crypto fromJson before) →
      ¬ c'.PassesCommon (s.after crypto fromJson (before ++ c :: between))

/-- In a run of timely calls no message passes twice: by the time its nonce is
    forgotten, it is too old. -/
theorem no_replay (calls : List Call) (hclock : InOrder calls) (htimely : ∀ c ∈ calls, c.Timely) :
    NoReplay crypto fromJson s calls := by
  intro before c between c' after hcalls hsame hpass hpass'
  rw [hcalls] at hclock htimely
  have hlate := replayed_late hclock hsame.1 hsame.2.1 hpass hpass'
  have hc := htimely c (by simp)
  have hc' := htimely c' (by simp)
  -- The second call finds the message's own time within the window.
  have hwindow := (SecurityRuntime.checkCommon_eq_ok_iff.mp hpass').1
  have hkeys : SecurityRuntime.SameKeys s (s.after crypto fromJson (before ++ c :: between)) :=
    after_sameKeys _
  rw [hkeys.replayWindowSecs, absDiff_le_iff, hsame.2.2] at hwindow
  have hpast := UInt64.le_iff_toNat_le.mp hc.1
  rw [hc.2] at hpast
  rw [hc'.2] at hwindow
  omega

theorem repeated_call_refused :
    NoReplay (tagCrypto "key") (fun _ => .error "") tagRuntime
      [callAt 1000 (.gatewayRequest (signedGet 1000 "n")),
       callAt 1300 (.gatewayRequest (signedGet 1000 "n"))] :=
  no_replay _ _ _ _ (by decide +kernel) (by decide +kernel)

/-- A message from the future is accepted again once its nonce is forgotten: one
    that claims the end of the window is received a second time 301 seconds
    later. -/
theorem future_message_replayed :
    let calls := [callAt 1000 (.gatewayRequest (signedGet 1300 "n")),
      callAt 1301 (.gatewayRequest (signedGet 1300 "n"))]
    InOrder calls ∧ ¬ NoReplay (tagCrypto "key") (fun _ => .error "") tagRuntime calls := by
  refine ⟨by decide +kernel, fun h => ?_⟩
  exact h [] _ [] _ [] rfl ⟨rfl, rfl, rfl⟩ (by decide +kernel) (by decide +kernel)

/-- Every two second readings are within one replay window. -/
def WithinWindow (calls : List Call) : Prop :=
  ∀ c ∈ calls, ∀ c' ∈ calls, absDiff c.now₂ c'.now₂ ≤ s.replayWindowSecs

/-- No two accepted calls of a run carry the same signature. -/
def OneAcceptance (calls : List Call) : Prop :=
  ∀ before c between c' after, calls = before ++ c :: between ++ c' :: after →
    c.Accepted crypto fromJson (s.after crypto fromJson before) →
    c'.Accepted crypto fromJson (s.after crypto fromJson (before ++ c :: between)) →
      ∀ sig, crypto.decodeBase64 c.message.signature = .ok sig →
        crypto.decodeBase64 c'.message.signature ≠ .ok sig

/-- Calls that carry the same signature come from one peer and carry the same
    nonce. -/
def SignatureFixesNonce (calls : List Call) : Prop :=
  ∀ c ∈ calls, ∀ c' ∈ calls, ∀ sig, crypto.decodeBase64 c.message.signature = .ok sig →
    crypto.decodeBase64 c'.message.signature = .ok sig →
      c'.remote = c.remote ∧ c'.message.nonce = c.message.nonce

/-- Within a window, signatures that always come with one nonce are accepted
    once. -/
theorem accepted_once (calls : List Call) (hclock : InOrder calls)
    (hwindow : WithinWindow s calls) (hfixed : SignatureFixesNonce crypto calls) :
    OneAcceptance crypto fromJson s calls := by
  intro before c between c' after hcalls haccept haccept' sig hsig hsig'
  have hc : c ∈ calls := by simp [hcalls]
  have hc' : c' ∈ calls := by simp [hcalls]
  rcases hfixed c hc c' hc' sig hsig hsig' with ⟨hpeer, hnonce⟩
  rw [hcalls] at hclock
  have hlate := replayed_late hclock hpeer hnonce haccept.passesCommon haccept'.passesCommon
  have hnear := (absDiff_le_iff _ _ _).mp (hwindow c hc c' hc')
  omega

theorem one_nonce_accepted_once :
    OneAcceptance (tagCrypto "key") (fun _ => .error "") tagRuntime
      [callAt 1000 (.gatewayRequest (signedGet 1000 "n")),
       callAt 1300 (.gatewayRequest (signedGet 1000 "n"))] := by
  refine accepted_once _ _ _ _ (by decide +kernel) ?_ ?_
  · intro c hc c' hc'
    simp only [List.mem_cons, List.not_mem_nil, or_false] at hc hc'
    rcases hc with rfl | rfl <;> rcases hc' with rfl | rfl <;> decide
  · intro c hc c' hc' _ _ _
    simp only [List.mem_cons, List.not_mem_nil, or_false] at hc hc'
    rcases hc with rfl | rfl <;> rcases hc' with rfl | rfl <;> exact ⟨rfl, rfl⟩

/-- A copy with another nonce is accepted under the same signature. -/
theorem fresh_nonce_accepted :
    let calls := [callAt 1000 (.gatewayRequest (signedGet 1000 "n")),
      callAt 1000 (.gatewayRequest (signedGet 1000 "m"))]
    InOrder calls ∧ WithinWindow tagRuntime calls ∧
      ¬ OneAcceptance (tagCrypto "key") (fun _ => .error "") tagRuntime calls := by
  refine ⟨by decide +kernel, ?_, fun h => ?_⟩
  · intro c hc c' hc'
    simp only [List.mem_cons, List.not_mem_nil, or_false] at hc hc'
    rcases hc with rfl | rfl <;> rcases hc' with rfl | rfl <;> decide
  · have honce := h [] _ [] _ [] rfl (signedGet_accepted (by decide +kernel) (by decide +kernel))
      (signedGet_accepted (by decide +kernel) (by decide +kernel))
    -- Decoded, the two signatures are the same bytes.
    simp only [callAt, SignedMessage.signature, signedGet_signature, tagCrypto_decodeBase64]
      at honce
    exact honce _ rfl rfl

end EssNode
