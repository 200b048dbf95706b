import EssNode.Lib.Admission
import EssNode.Onboarding.Replay

/-!
# The Rate Limiter over Whole Runs

The limiter keeps, for each key, the times of the attempts it let through, and drops
those that are a window old before it counts. What is left at a call is the list of all
attempts under that key that were let through in the window before it, however the calls
for other keys lie between (`Counts`). So the answer is exact (`check_exact`), and since
the last attempt of a span shorter than the window finds all the others of the span in
its list, no such span has more than the limit, wherever it begins.

Onboarding asks the limiter first, with the serial number for a key, so the bound holds
of the requests that are accepted as well (`accepted_attempts_limited`).

Times are compared in nanoseconds. Every call reads the clock once and reads no earlier
time than the one before.
-/

namespace EssNode

open List

namespace Onboarding

open Admission Instant

structure LimiterCall where
  now : Instant
  key : String
deriving DecidableEq, Repr

def limiterMachine : Machine RateLimiter LimiterCall Bool where
  handle self c := self.check c.now c.key
  admits answer := answer

namespace LimiterCall

def InOrder (calls : List LimiterCall) : Prop := calls.Pairwise fun c c' => c.now ≤ c'.now

instance (calls : List LimiterCall) : Decidable (InOrder calls) :=
  inferInstanceAs (Decidable (List.Pairwise _ _))

/-- A call for a key, later than a window before a time. -/
def CountsAt (key : String) (window : Nat) (now : Instant) (a : LimiterCall) : Prop :=
  a.key = key ∧ now.toNanos < a.now.toNanos + window

instance (key : String) (window : Nat) (now : Instant) (a : LimiterCall) :
    Decidable (a.CountsAt key window now) :=
  inferInstanceAs (Decidable (_ ∧ _))

/-- A call for a key in a span of time, both ends included. -/
def LiesIn (key : String) (first last : Instant) (a : LimiterCall) : Prop :=
  a.key = key ∧ first ≤ a.now ∧ a.now ≤ last

instance (key : String) (first last : Instant) (a : LimiterCall) :
    Decidable (a.LiesIn key first last) :=
  inferInstanceAs (Decidable (_ ∧ _))

end LimiterCall

namespace RateLimiter

variable (self : RateLimiter) (now : Instant) (key : String)

/-- The attempts under a key that are not too old, which is what a call counts. -/
def recent (now : Instant) (key : String) : List Instant :=
  (self.attempts[key]?.getD []).filter fun t => decide (now.durationSince t < self.window)

theorem check_eq :
    self.check now key
      = if (self.recent now key).length ≥ self.maxAttempts then
          ({ self with attempts := self.attempts.insert key (self.recent now key) }, false)
        else
          ({ self with attempts := self.attempts.insert key (self.recent now key ++ [now]) },
            true) := rfl

theorem check_snd_iff :
    (self.check now key).2 = true ↔ (self.recent now key).length < self.maxAttempts := by
  rw [check_eq]
  by_cases hfull : (self.recent now key).length ≥ self.maxAttempts
  · rw [if_pos hfull]
    exact iff_of_false (by simp) (Nat.not_lt.mpr hfull)
  · rw [if_neg hfull]
    exact iff_of_true rfl (Nat.lt_of_not_ge hfull)

theorem check_window :
    (self.check now key).1.window = self.window ∧
      (self.check now key).1.maxAttempts = self.maxAttempts := by
  rw [check_eq]
  split <;> exact ⟨rfl, rfl⟩

variable {self} {now later : Instant}

theorem filter_recent (hlater : now ≤ later) (key : String) :
    (self.recent now key).filter (fun t => decide (later.durationSince t < self.window))
      = self.recent later key := by
  unfold recent
  rw [filter_filter]
  refine filter_congr fun t _ => ?_
  have hle := le_def.mp hlater
  rw [← Bool.decide_and]
  refine decide_eq_decide.mpr ⟨fun h => h.1, fun h => ⟨h, ?_⟩⟩
  unfold durationSince at h ⊢
  omega

theorem recent_insert (later : Instant) (key : String) (entry : List Instant) :
    ({ self with attempts := self.attempts.insert key entry } : RateLimiter).recent later key
      = entry.filter fun t => decide (later.durationSince t < self.window) := by
  unfold recent
  dsimp only
  rw [FinMap.find_insert, if_pos rfl, Option.getD_some]

theorem recent_check (hlater : now ≤ later) (key key' : String) :
    (self.check now key).1.recent later key'
      = self.recent later key'
        ++ if key = key' ∧ (self.check now key).2 = true then
            [now].filter fun t => decide (later.durationSince t < self.window)
          else [] := by
  by_cases hkey : key = key'
  · subst hkey
    rw [check_eq]
    by_cases hfull : (self.recent now key).length ≥ self.maxAttempts
    · rw [if_pos hfull, if_neg (by simp), append_nil, recent_insert, filter_recent hlater]
    · rw [if_neg hfull, if_pos ⟨rfl, rfl⟩, recent_insert, filter_append,
        filter_recent hlater]
  · have hother : (self.check now key).1.attempts[key']? = self.attempts[key']? := by
      rw [check_eq]
      split
      · exact (FinMap.find_insert _ _ _ _).trans (if_neg hkey)
      · exact (FinMap.find_insert _ _ _ _).trans (if_neg hkey)
    rw [if_neg (fun h => hkey h.1), append_nil]
    unfold recent
    rw [hother, (self.check_window now key).1]

end RateLimiter

/-- From a time on, the limiter counts under each key what it let through in the
    window. -/
structure Counts (limiter : RateLimiter) (now : Instant) (admitted : List LimiterCall) :
    Prop where
  before : ∀ a ∈ admitted, a.now ≤ now
  recent : ∀ later, now ≤ later → ∀ key, limiter.recent later key
    = (admitted.filter fun a => decide (a.CountsAt key limiter.window later)).map LimiterCall.now

namespace Counts

variable {self : RateLimiter} {now later : Instant} {admitted : List LimiterCall}

theorem mono (h : Counts self now admitted) (hlater : now ≤ later) :
    Counts self later admitted where
  before a ha := le_def.mpr
    ((le_def.mp (h.before a ha)).trans (le_def.mp hlater))
  recent later' hlater' := h.recent later'
    (le_def.mpr ((le_def.mp hlater).trans (le_def.mp hlater')))

theorem empty (hnew : self.attempts = ∅) (now : Instant) : Counts self now [] where
  before := by simp
  recent later _ key := by
    rw [RateLimiter.recent, hnew, Std.ExtTreeMap.getElem?_empty]
    rfl

theorem step (c : LimiterCall) (h : Counts self c.now admitted) :
    Counts (limiterMachine.handle self c).1 c.now
      (admitted ++ if limiterMachine.Admits self c then [c] else []) := by
  have hanswer : limiterMachine.Admits self c ↔ (self.check c.now c.key).2 = true := Iff.rfl
  refine ⟨fun a ha => ?_, fun later hlater key => ?_⟩
  · rcases mem_append.mp ha with ha | ha
    · exact h.before a ha
    · split at ha
      · rw [mem_singleton.mp ha]
        exact Nat.le_refl _
      · cases ha
  · have hwindow : (limiterMachine.handle self c).1.window = self.window :=
      (self.check_window c.now c.key).1
    rw [hwindow, filter_append, map_append, ← h.recent later hlater key]
    refine (RateLimiter.recent_check hlater c.key key).trans ?_
    refine congrArg (self.recent later key ++ ·) ?_
    have hle := le_def.mp hlater
    by_cases hadmits : limiterMachine.Admits self c
    · -- The call is counted under its own key, while it is in the window.
      by_cases hkey : c.key = key
      · have hfresh : later.durationSince c.now < self.window ↔
            c.CountsAt key self.window later := by
          unfold LimiterCall.CountsAt durationSince
          constructor
          · exact fun hsoon => ⟨hkey, by omega⟩
          · rintro ⟨-, hsoon⟩
            omega
        rw [if_pos ⟨hkey, hanswer.mp hadmits⟩, if_pos hadmits]
        by_cases hsoon : later.durationSince c.now < self.window
        · simp [hsoon, hfresh.mp hsoon]
        · simp [hsoon, (not_congr hfresh).mp hsoon]
      · rw [if_neg (fun hboth => hkey hboth.1), if_pos hadmits]
        simp [LimiterCall.CountsAt, hkey]
    · rw [if_neg (fun hboth => hadmits (hanswer.mpr hboth.2)), if_neg hadmits]
      rfl

end Counts

section Runs

variable {self : RateLimiter}

theorem limiterMachine_window (self : RateLimiter) (calls : List LimiterCall) :
    (limiterMachine.after self calls).window = self.window ∧
      (limiterMachine.after self calls).maxAttempts = self.maxAttempts := by
  refine limiterMachine.run_induction
    (P := fun _ t _ => t.window = self.window ∧ t.maxAttempts = self.maxAttempts) calls
    ⟨rfl, rfl⟩ ?_
  intro before c _ hbefore
  have hcheck := (limiterMachine.after self before).check_window c.now c.key
  exact ⟨hcheck.1.trans hbefore.1, hcheck.2.trans hbefore.2⟩

/-- After every run that began without attempts, the limiter counts what it let through. -/
theorem counts_after (hnew : self.attempts = ∅) (calls : List LimiterCall)
    (hclock : LimiterCall.InOrder calls) :
    ∀ now, (∀ c ∈ calls, c.now ≤ now) →
      Counts (limiterMachine.after self calls) now (limiterMachine.admitted self calls) := by
  refine limiterMachine.run_induction
    (P := fun calls t admitted => ∀ now, (∀ c ∈ calls, c.now ≤ now) → Counts t now admitted)
    calls ?_ ?_
  · exact fun now _ => Counts.empty hnew now
  · intro before c hinitial hbefore now hnow
    have horder := (pairwise_append.mp (hclock.sublist hinitial.sublist)).2.2
    have hcounts := hbefore c.now fun a ha => horder a ha c (by simp)
    exact (hcounts.step c).mono (hnow c (by simp))

theorem admits_after_iff (hnew : self.attempts = ∅) {before : List LimiterCall} {c : LimiterCall}
    (hclock : LimiterCall.InOrder (before ++ [c])) :
    limiterMachine.Admits (limiterMachine.after self before) c ↔
      (limiterMachine.admitted self before).countP
        (fun a => decide (a.CountsAt c.key self.window c.now)) < self.maxAttempts := by
  have hparts := pairwise_append.mp hclock
  have hcounts := counts_after hnew before hparts.1 c.now fun a ha => hparts.2.2 a ha c (by simp)
  have hrun := limiterMachine_window self before
  refine ((limiterMachine.after self before).check_snd_iff c.now c.key).trans ?_
  rw [hcounts.recent c.now (Nat.le_refl _) c.key, hrun.1, hrun.2, length_map,
    countP_eq_length_filter]

/-- The bound for a span: the last attempt that was let through in it found the others. -/
theorem admitted_in_span_le (hnew : self.attempts = ∅) (key : String) {first last : Instant}
    (hspan : last.toNanos < first.toNanos + self.window) (calls : List LimiterCall)
    (hclock : LimiterCall.InOrder calls) :
    (limiterMachine.admitted self calls).countP (fun a => decide (a.LiesIn key first last))
      ≤ self.maxAttempts := by
  induction calls using reverseRecOn with
  | nil => exact Nat.zero_le _
  | append_singleton calls c ih =>
    have hbefore := ih (pairwise_append.mp hclock).1
    rw [Machine.admitted_concat, countP_append]
    by_cases hadmits : limiterMachine.Admits (limiterMachine.after self calls) c
    · rw [if_pos hadmits]
      by_cases hin : c.LiesIn key first last
      · have hcounted := (admits_after_iff hnew hclock).mp hadmits
        have hmono : (limiterMachine.admitted self calls).countP
              (fun a => decide (a.LiesIn key first last))
            ≤ (limiterMachine.admitted self calls).countP
              (fun a => decide (a.CountsAt c.key self.window c.now)) := by
          refine countP_mono_left fun a _ hlies => ?_
          obtain ⟨hkey, hfirst, -⟩ := of_decide_eq_true hlies
          have hbegin := le_def.mp hfirst
          have hend := le_def.mp hin.2.2
          exact decide_eq_true ⟨hkey.trans hin.1.symm, by omega⟩
        have hone : [c].countP (fun a => decide (a.LiesIn key first last)) ≤ 1 :=
          countP_le_length
        omega
      · have hnone : [c].countP (fun a => decide (a.LiesIn key first last)) = 0 := by
          simp [hin]
        omega
    · rw [if_neg hadmits, countP_nil]
      exact hbefore

end Runs

/-- The answers of a limiter that begins without attempts, in a run whose clock does not
    run backwards. A call for a key is let through exactly if fewer than the limit were
    let through for that key at times later than a window before it. So no span of time
    shorter than the window has more than the limit for a key. -/
theorem check_exact (self : RateLimiter) (hnew : self.attempts = ∅) (calls : List LimiterCall)
    (hclock : LimiterCall.InOrder calls) :
    (∀ before c rest, calls = before ++ c :: rest →
      (((limiterMachine.after self before).check c.now c.key).2 = true ↔
        (limiterMachine.admitted self before).countP
          (fun a => decide (a.key = c.key ∧ c.now.toNanos < a.now.toNanos + self.window))
            < self.maxAttempts)) ∧
    ∀ (key : String) (first last : Instant), last.toNanos < first.toNanos + self.window →
      (limiterMachine.admitted self calls).countP
        (fun a => decide (a.key = key ∧ first ≤ a.now ∧ a.now ≤ last)) ≤ self.maxAttempts := by
  constructor
  · intro before c rest hcalls
    have hinitial : (before ++ [c]).Sublist calls := by
      rw [hcalls, show before ++ c :: rest = before ++ [c] ++ rest by simp]
      exact sublist_append_left _ _
    exact admits_after_iff hnew (hclock.sublist hinitial)
  · intro key first last hspan
    exact admitted_in_span_le hnew key hspan calls hclock

/-- A call for one serial number. -/
def limiterCallAt (now : Instant) : LimiterCall := ⟨now, "ESSBB-ABC-001-A347"⟩

/-- One attempt a minute: the second is refused in the last second of the window. -/
theorem one_attempt_a_minute :
    let first := limiterCallAt ⟨1000, 0⟩
    ((limiterMachine.after (.new 1 60) [first]).check ⟨1059, 0⟩ first.key).2 = false ∧
      ((limiterMachine.after (.new 1 60) [first]).check ⟨1060, 0⟩ first.key).2 = true := by
  intro first
  have hadmitted : limiterMachine.admitted (.new 1 60) [first] = [first] := by decide +kernel
  have hearly := (check_exact (.new 1 60) rfl [first, limiterCallAt ⟨1059, 0⟩] (by decide)).1
    [first] (limiterCallAt ⟨1059, 0⟩) [] rfl
  have hlate := (check_exact (.new 1 60) rfl [first, limiterCallAt ⟨1060, 0⟩] (by decide)).1
    [first] (limiterCallAt ⟨1060, 0⟩) [] rfl
  rw [hadmitted] at hearly hlate
  exact ⟨Bool.eq_false_iff.mpr fun h => absurd (hearly.mp h) (by decide), hlate.mpr (by decide)⟩

/-! ### Onboarding -/

/-- The receiver's check as a machine. -/
def onboardMachine (env : OnboardingEnv) : Machine OnboardingState Attempt Bool where
  handle s a := a.verify env s
  admits answer := answer

def Attempt.limiterCall (a : Attempt) : LimiterCall := ⟨a.readings.limiter, a.request.serialNumber⟩

variable (env : OnboardingEnv) (s : OnboardingState) (attempts : List Attempt)

theorem verify_limiter (a : Attempt) :
    (a.verify env s).1.snRateLimiter = (limiterMachine.handle s.snRateLimiter a.limiterCall).1 ∧
      ((a.verify env s).2 = true → limiterMachine.Admits s.snRateLimiter a.limiterCall) := by
  change (verifyRemoteIdentity env a.readings s a.remote a.request).1.snRateLimiter
      = (s.snRateLimiter.check a.readings.limiter a.request.serialNumber).1 ∧
    ((verifyRemoteIdentity env a.readings s a.remote a.request).2 = true →
      (s.snRateLimiter.check a.readings.limiter a.request.serialNumber).2 = true)
  unfold verifyRemoteIdentity
  dsimp only
  cases (s.snRateLimiter.check a.readings.limiter a.request.serialNumber).2 with
  | false => exact ⟨rfl, nofun⟩
  | true =>
    refine ⟨?_, fun _ => rfl⟩
    rw [Bool.not_true, if_neg Bool.false_ne_true]
    split
    · rfl
    split
    · rfl
    · rfl

theorem admitted_limiterCall_sublist :
    ((onboardMachine env).after s attempts).snRateLimiter
        = limiterMachine.after s.snRateLimiter (attempts.map Attempt.limiterCall) ∧
      (((onboardMachine env).admitted s attempts).map Attempt.limiterCall).Sublist
        (limiterMachine.admitted s.snRateLimiter (attempts.map Attempt.limiterCall)) := by
  induction attempts using reverseRecOn with
  | nil => exact ⟨rfl, List.Sublist.refl _⟩
  | append_singleton attempts a ih =>
    obtain ⟨hlimiter, hsublist⟩ := ih
    obtain ⟨hstep, hadmits⟩ := verify_limiter env ((onboardMachine env).after s attempts) a
    rw [hlimiter] at hstep hadmits
    rw [map_append, map_singleton, Machine.after_concat, Machine.after_concat,
      Machine.admitted_concat, Machine.admitted_concat, map_append]
    refine ⟨hstep, hsublist.append ?_⟩
    by_cases haccepted : (onboardMachine env).Admits ((onboardMachine env).after s attempts) a
    · rw [if_pos haccepted, if_pos (hadmits haccepted)]
      exact List.Sublist.refl _
    · rw [if_neg haccepted]
      exact nil_sublist _

/-- In a run of onboarding attempts from a fresh state, whose clock does not run backwards,
    no span shorter than a minute has more than five accepted requests with one serial
    number. -/
theorem accepted_attempts_limited (hclock : LimiterCall.InOrder (attempts.map Attempt.limiterCall))
    (serialNumber : String) (first last : Instant)
    (hspan : last.toNanos < first.toNanos + fromSecs 60) :
    (((onboardMachine env).admitted .new attempts).map Attempt.limiterCall).countP
      (fun a => decide (a.LiesIn serialNumber first last)) ≤ 5 :=
  calc (((onboardMachine env).admitted .new attempts).map Attempt.limiterCall).countP
        (fun a => decide (a.LiesIn serialNumber first last))
      ≤ (limiterMachine.admitted (.new 5 60) (attempts.map Attempt.limiterCall)).countP
        (fun a => decide (a.LiesIn serialNumber first last)) :=
        (admitted_limiterCall_sublist env .new attempts).2.countP_le
    _ ≤ 5 := admitted_in_span_le rfl serialNumber hspan _ hclock

/-- Two attempts with one serial number. -/
theorem two_attempts_limited :
    (((onboardMachine tagEnv).admitted .new ([1000, 1010].map attemptAt)).map
      Attempt.limiterCall).countP
        (fun a => decide (a.LiesIn "ESSBB-ABC-001-A347" ⟨1000, 0⟩ ⟨1059, 0⟩)) ≤ 5 :=
  accepted_attempts_limited tagEnv _ (by decide) _ _ _ (by decide)

end Onboarding

end EssNode
