import EssNode.Onboarding

/-!
# Onboarding Replay

An onboarding request that was accepted must not be accepted again. Its nonce is
remembered for 900 seconds from the moment it was recorded, and a request is in
time up to 900 seconds after the time it claims, both ends included. The two
periods meet: a request received in the very second it claims can be sent again
900 seconds later, when its nonce has just been dropped and its time still passes
(`request_replayed`).

A request that claims an earlier second than the one it is received in is too old
when its nonce is dropped, provided the clock does not pass a second between the
comparison and the recording. That the nonce is not dropped before needs room in
the cache: once it is full, each new nonce displaces the oldest.
-/

namespace EssNode

namespace Onboarding

namespace NonceCache

variable {self : NonceCache} {first : Nonce} {now : Instant} {nonce x : Nonce} {t : Instant}

theorem find_kept_of_fresh (h : self.seen[x]? = some t)
    (hfresh : now.durationSince t < fromSecs nonceTtlSecs) : (self.kept now)[x]? = some t := by
  rw [find_kept, h, Option.filter_some, if_pos (decide_eq_true hfresh)]

theorem find_record (h : self.seen[x]? = some t)
    (hfresh : now.durationSince t < fromSecs nonceTtlSecs)
    (hroom : (self.kept now).size < maxCacheSize) :
    (self.record first now nonce).1.seen[x]? = some t := by
  have hkept := find_kept_of_fresh h hfresh
  rcases record_cases first nonce hroom with ⟨-, hres⟩ | ⟨hnew, hres⟩
  · rw [hres]
    exact hkept
  · -- The nonce that is added is another one: this one is still there.
    have hother : nonce ≠ x := by
      rintro rfl
      rw [Std.ExtTreeMap.contains_eq_isSome_getElem?, hkept, Option.isSome_some] at hnew
      exact absurd hnew (by decide)
    rw [hres]
    dsimp only
    rw [FinMap.find_insert, if_neg hother, hkept]

theorem record_of_fresh (h : self.seen[nonce]? = some t)
    (hfresh : now.durationSince t < fromSecs nonceTtlSecs) :
    (self.record first now nonce).2 = false := by
  have hcontains : (self.kept now).contains nonce = true := by
    rw [Std.ExtTreeMap.contains_eq_isSome_getElem?, find_kept_of_fresh h hfresh, Option.isSome_some]
  unfold record
  dsimp only
  rw [if_pos hcontains]

theorem find_of_recorded (h : (self.record first now nonce).2 = true) :
    (self.record first now nonce).1.seen[nonce]? = some now := by
  unfold record at h ⊢
  dsimp only at h ⊢
  by_cases hseen : (self.kept now).contains nonce = true
  · rw [if_pos hseen] at h
    exact absurd h (by simp only [Bool.false_eq_true, not_false_eq_true])
  · rw [if_neg hseen, FinMap.find_insert, if_pos rfl]

end NonceCache

structure Attempt where
  readings : Readings
  remote : String
  request : OnboardRequest

namespace Attempt

variable (env : OnboardingEnv) (s : OnboardingState) (a : Attempt)

/-- The state after an attempt, and whether it was accepted. -/
def verify : OnboardingState × Bool := verifyRemoteIdentity env a.readings s a.remote a.request

def Accepted : Prop := (a.verify env s).2 = true

instance : Decidable (a.Accepted env s) := inferInstanceAs (Decidable (_ = _))

/-- The readings of a run, in the order in which they are made, do not run
    backwards. -/
def InOrder (attempts : List Attempt) : Prop :=
  (attempts.flatMap fun a => [a.readings.limiter, a.readings.wall, a.readings.cache]).Pairwise
    (· ≤ ·)

instance (attempts : List Attempt) : Decidable (InOrder attempts) :=
  inferInstanceAs (Decidable (List.Pairwise _ _))

/-- Two attempts with one message. -/
def SameMessage (a b : Attempt) : Prop :=
  b.request.nonce = a.request.nonce ∧ b.request.timestamp = a.request.timestamp ∧
    b.request.publicKey = a.request.publicKey ∧ b.request.signature = a.request.signature

/-- The request claims an earlier second than the one it is received in, and it is
    compared and recorded within that second. -/
def Timely : Prop :=
  a.request.timestamp < a.readings.wall.secs ∧ a.readings.cache.secs = a.readings.wall.secs

instance : Decidable a.Timely := inferInstanceAs (Decidable (_ ∧ _))

end Attempt

open Attempt

variable (env : OnboardingEnv) (s : OnboardingState)

def OnboardingState.after (attempts : List Attempt) : OnboardingState :=
  attempts.foldl (fun s a => (a.verify env s).1) s

/-- No attempt of a run finds the cache full. -/
def Roomy : OnboardingState → List Attempt → Prop
  | _, [] => True
  | s, a :: rest =>
    (s.nonceCache.kept a.readings.cache).size < maxCacheSize ∧ Roomy (a.verify env s).1 rest

instance decidableRoomy : (s : OnboardingState) → (attempts : List Attempt) →
    Decidable (Roomy env s attempts)
  | _, [] => isTrue trivial
  | s, a :: rest =>
    have := decidableRoomy (a.verify env s).1 rest
    inferInstanceAs (Decidable (_ ∧ _))

/-- No two attempts of a run with one message are both accepted. -/
def AcceptedOnce (attempts : List Attempt) : Prop :=
  ∀ before a between a' after, attempts = before ++ a :: between ++ a' :: after →
    SameMessage a a' → a.Accepted env (s.after env before) →
      ¬ a'.Accepted env (s.after env (before ++ a :: between))

variable {env s}

theorem after_append (first second : List Attempt) :
    s.after env (first ++ second) = (s.after env first).after env second :=
  List.foldl_append

theorem Roomy.split {first second : List Attempt} (h : Roomy env s (first ++ second)) :
    Roomy env s first ∧ Roomy env (s.after env first) second := by
  induction first generalizing s with
  | nil => exact ⟨trivial, h⟩
  | cons a first ih =>
    rcases ih h.2 with ⟨hfirst, hsecond⟩
    exact ⟨⟨h.1, hfirst⟩, hsecond⟩

theorem find_verify {a : Attempt} {x : Nonce} {t : Instant} (h : s.nonceCache.seen[x]? = some t)
    (hfresh : a.readings.cache.durationSince t < fromSecs nonceTtlSecs)
    (hroom : (s.nonceCache.kept a.readings.cache).size < maxCacheSize) :
    (a.verify env s).1.nonceCache.seen[x]? = some t := by
  unfold Attempt.verify
  rcases verifyRemoteIdentity_cache env a.readings s a.remote a.request with hcache | hcache
  · rw [hcache, h]
  · rw [hcache, NonceCache.find_record h hfresh hroom]

theorem find_after {x : Nonce} {t : Instant} (attempts : List Attempt)
    (h : s.nonceCache.seen[x]? = some t)
    (hfresh : ∀ a ∈ attempts, a.readings.cache.durationSince t < fromSecs nonceTtlSecs)
    (hroom : Roomy env s attempts) : (s.after env attempts).nonceCache.seen[x]? = some t := by
  induction attempts generalizing s with
  | nil => exact h
  | cons a attempts ih =>
    exact ih (find_verify h (hfresh a (by simp)) hroom.1) (fun b hb => hfresh b (by simp [hb]))
      hroom.2

theorem find_of_accepted {a : Attempt} (h : a.Accepted env s) :
    (a.verify env s).1.nonceCache.seen[a.request.nonce]? = some a.readings.cache := by
  rcases verifyRemoteIdentity_eq_true h with ⟨-, hrecorded, hcache, -⟩
  rw [Attempt.verify, hcache]
  exact NonceCache.find_of_recorded hrecorded

theorem Attempt.InOrder.between {before between after : List Attempt} {a a' : Attempt}
    (h : InOrder (before ++ a :: between ++ a' :: after)) :
    a.readings.cache ≤ a'.readings.cache ∧ ∀ e ∈ between, e.readings.cache ≤ a'.readings.cache := by
  rcases pairwise_between (List.pairwise_flatMap.mp h).2 with ⟨hends, hmiddle⟩
  exact ⟨hends _ (by simp) _ (by simp), fun e he => (hmiddle e he).2 _ (by simp) _ (by simp)⟩

theorem recorded_late {before between after : List Attempt} {a a' : Attempt}
    (hclock : InOrder (before ++ a :: between ++ a' :: after))
    (hroom : Roomy env s (before ++ a :: between ++ a' :: after))
    (hnonce : a'.request.nonce = a.request.nonce)
    (haccepted : a.Accepted env (s.after env before))
    (haccepted' : a'.Accepted env (s.after env (before ++ a :: between))) :
    fromSecs nonceTtlSecs ≤ a'.readings.cache.durationSince a.readings.cache := by
  rcases hclock.between with ⟨-, hbetween⟩
  by_contra hsoon
  have hfresh := Nat.lt_of_not_le hsoon
  -- What the first attempt recorded is still there when the second is made.
  have hkept : (s.after env (before ++ a :: between)).nonceCache.seen[a.request.nonce]?
      = some a.readings.cache := by
    rw [after_append]
    refine find_after between (find_of_accepted haccepted) (fun e he => ?_) ?_
    · have hle := Instant.le_def.mp (hbetween e he)
      unfold Instant.durationSince at hfresh ⊢
      omega
    · exact hroom.split.1.split.2.2
  have hrecorded := (verifyRemoteIdentity_eq_true haccepted').2.1
  rw [← hnonce] at hkept
  rw [NonceCache.record_of_fresh hkept hfresh] at hrecorded
  exact absurd hrecorded (by decide)

theorem secs_of_durationSince {t earlier : Instant} {n : Nat} (hn : 0 < n)
    (h : fromSecs n ≤ t.durationSince earlier) : earlier.secs.toNat + n ≤ t.secs.toNat := by
  unfold fromSecs Instant.durationSince Instant.toNanos at h
  have ht := t.nanos.isLt
  omega

variable (env s)

/-- In a run of timely attempts with room in the cache no message is accepted
    twice: by the time its nonce is dropped, it is too old. -/
theorem onboarded_once (attempts : List Attempt) (hclock : InOrder attempts)
    (htimely : ∀ a ∈ attempts, a.Timely) (hroom : Roomy env s attempts) :
    AcceptedOnce env s attempts := by
  intro before a between a' after hattempts hsame haccepted haccepted'
  rw [hattempts] at hclock htimely hroom
  have hlate := recorded_late hclock hroom hsame.1 haccepted haccepted'
  have hsecs := secs_of_durationSince (by decide) hlate
  have ha := htimely a (by simp)
  have ha' := htimely a' (by simp)
  -- The second attempt finds the request's own time at most 900 seconds back.
  have hwindow := (verifyRemoteIdentity_eq_true haccepted').1
  rw [absDiff_le_iff, hsame.2.1, ← ha'.2] at hwindow
  have hpast := UInt64.lt_iff_toNat_lt.mp ha.1
  rw [← ha.2] at hpast
  have hbound : (900 : UInt64).toNat = 900 := rfl
  unfold nonceTtlSecs at hsecs
  omega

/-- A request with a bare key and the text the receiver checks. -/
def signedRequest : OnboardRequest :=
  { tagRequest with
    publicKey := tagKey
    signature := tagSign tagKey
      (Bincode.utf8 "peer:ESSBB-ABC-001-A347:00000000000000000000000000000000:1000:00") }

def attemptAt (secs : UInt64) : Attempt := ⟨readingsAt secs, "peer", signedRequest⟩

theorem timely_request_once :
    AcceptedOnce tagEnv .new [attemptAt 1001, attemptAt 1900, attemptAt 1901] :=
  onboarded_once tagEnv .new _ (by decide +kernel) (by decide +kernel) (by decide +kernel)

/-- A request accepted in the second it claims is accepted again 900 seconds later. -/
theorem request_replayed :
    InOrder [attemptAt 1000, attemptAt 1900] ∧
      ¬ AcceptedOnce tagEnv .new [attemptAt 1000, attemptAt 1900] := by
  refine ⟨by decide +kernel, fun h => ?_⟩
  exact h [] _ [] _ [] rfl ⟨rfl, rfl, rfl, rfl⟩ (by decide +kernel) (by decide +kernel)

end Onboarding

end EssNode
