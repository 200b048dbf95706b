import EssNode.Lib.Admission
import EssNode.Security.Replay

/-!
# The Replay Cache over Whole Runs

What `check_common` answers, in terms of what it answered before, and how large its
cache becomes.

The cache is cleaned lazily. A call drops what has left the window from the bucket it
looks at, and from all buckets when there are many of them. Neither can be seen from
outside: the nonces of a peer that are still in the window are those of the calls that
were accepted in it (`Remembers`), whoever else called in between. So an answer is a
function of the clock and of the peer's own accepted calls (`checkCommon_exact`). This
needs a clock that does not run backwards. Where a call reads the clock twice, the time
of a message is compared with the first reading, and the second is what is remembered.

The sizes do not depend on the clock. A bucket takes no nonce beyond its limit. The
number of buckets has no limit of its own: the cleaning removes stale buckets only, and
what a call adds comes after it. It stays within one of the bound exactly as long as no
call finds more other peers with a nonce in the window than that (`cache_bounded_iff`).
-/

namespace EssNode

open Admission List Std.ExtTreeMap

/-- A call of `check_common`: the readings of the clock, the peer, and the time and the
    nonce of its message. -/
structure CommonCall where
  now₁ : UInt64
  now₂ : UInt64
  peer : String
  ts : UInt64
  nonce : String
deriving DecidableEq, Repr

def commonMachine : Machine SecurityRuntime CommonCall (Except SecurityError Unit) where
  handle s c := s.checkCommon c.now₁ c.now₂ c.peer c.ts c.nonce
  admits result := result.isOk

namespace CommonCall

/-- The readings of a run, in the order in which they are made, do not run
    backwards. -/
def InOrder (calls : List CommonCall) : Prop :=
  (calls.flatMap fun c => [c.now₁, c.now₂]).Pairwise (· ≤ ·)

instance (calls : List CommonCall) : Decidable (InOrder calls) :=
  inferInstanceAs (Decidable (List.Pairwise _ _))

/-- A call was made in the window before a time, both ends included. -/
def AcceptedWithin (window now : UInt64) (c : CommonCall) : Prop :=
  now.toNat ≤ c.now₂.toNat + window.toNat ∧ c.now₂ ≤ now

instance (window now : UInt64) (c : CommonCall) : Decidable (c.AcceptedWithin window now) :=
  inferInstanceAs (Decidable (_ ∧ _))

/-- The accepted calls of a peer in the window before a time. -/
def ofPeerWithin (peer : String) (window now : UInt64) (accepted : List CommonCall) :
    List CommonCall :=
  accepted.filter fun a => decide (a.peer = peer ∧ a.AcceptedWithin window now)

/-- What is asked of a call, given the calls accepted before it: its message is from
    within the window, its nonce was not accepted in the window, and the peer has room for
    another. -/
structure Admissible (window : UInt64) (accepted : List CommonCall) (c : CommonCall) : Prop where
  timely : absDiff c.now₁ c.ts ≤ window
  unseen : ∀ a ∈ accepted, a.peer = c.peer → a.nonce = c.nonce → ¬ a.AcceptedWithin window c.now₂
  room : (ofPeerWithin c.peer window c.now₂ accepted).length < maxNoncesPerPeer

theorem admissible_filter_iff (window : UInt64) (accepted : List CommonCall) (c : CommonCall) :
    Admissible window (accepted.filter fun a => decide (a.peer = c.peer)) c ↔
      Admissible window accepted c := by
  have hsame : ofPeerWithin c.peer window c.now₂
      (accepted.filter fun a => decide (a.peer = c.peer))
      = ofPeerWithin c.peer window c.now₂ accepted := by
    unfold ofPeerWithin
    rw [filter_filter]
    refine filter_congr fun a _ => ?_
    by_cases hpeer : a.peer = c.peer
    · simp [hpeer]
    · simp [hpeer]
  constructor
  · rintro ⟨htimely, hunseen, hroom⟩
    refine ⟨htimely, fun a ha hpeer => hunseen a ?_ hpeer, hsame ▸ hroom⟩
    exact mem_filter.mpr ⟨ha, decide_eq_true hpeer⟩
  · rintro ⟨htimely, hunseen, hroom⟩
    exact ⟨htimely, fun a ha => hunseen a (mem_of_mem_filter ha), hsame.symm ▸ hroom⟩

end CommonCall

theorem commonMachine_admits_iff (s : SecurityRuntime) (c : CommonCall) :
    commonMachine.Admits s c ↔ (s.checkCommon c.now₁ c.now₂ c.peer c.ts c.nonce).2 = .ok () := by
  change (s.checkCommon c.now₁ c.now₂ c.peer c.ts c.nonce).2.isOk = true ↔ _
  cases (s.checkCommon c.now₁ c.now₂ c.peer c.ts c.nonce).2 with
  | error e => simp [Except.isOk, Except.toBool]
  | ok u => simp [Except.isOk, Except.toBool]

theorem commonMachine_window (s : SecurityRuntime) (calls : List CommonCall) :
    (commonMachine.after s calls).replayWindowSecs = s.replayWindowSecs := by
  refine commonMachine.run_induction (P := fun _ t _ => t.replayWindowSecs = s.replayWindowSecs)
    calls rfl ?_
  intro before c _ hbefore
  exact (SecurityRuntime.checkCommon_sameKeys _ _ _ _ _ _).replayWindowSecs.trans hbefore

namespace SecurityRuntime

variable {s : SecurityRuntime} {now₁ now₂ : UInt64} {peer nonce p x : String} {ts t : UInt64}

/-! ### One call -/

/-- What a call leaves in the cache, as far as it is still in the window at a later
    time: what was there, and the nonce it accepted. -/
theorem seenAt_checkCommon_iff {later : UInt64}
    (hpast : ∀ (p x : String) (t : UInt64), s.seenAt p x = some t → t ≤ now₂)
    (hlater : now₂ ≤ later) (hfresh : absDiff later t ≤ s.replayWindowSecs) :
    (s.checkCommon now₁ now₂ peer ts nonce).1.seenAt p x = some t ↔
      s.seenAt p x = some t ∨ ((s.checkCommon now₁ now₂ peer ts nonce).2 = .ok () ∧
        peer = p ∧ nonce = x ∧ now₂ = t) := by
  refine ⟨seenAt_of_checkCommon, ?_⟩
  rintro (hseen | ⟨hpass, rfl, rfl, rfl⟩)
  · -- It lies before the call, so it was in the window then.
    refine seenAt_checkCommon hseen ?_
    have hold := UInt64.le_iff_toNat_le.mp (hpast p x t hseen)
    have hnow := UInt64.le_iff_toNat_le.mp hlater
    rw [absDiff_le_iff] at hfresh ⊢
    omega
  · exact seenAt_of_passes hpass

/-! ### The cache and the accepted calls -/

/-- The cache holds, with the time, every nonce of an accepted call that is in the window
    at a later time than `now`, and in that window no other. -/
structure Remembers (s : SecurityRuntime) (window now : UInt64) (accepted : List CommonCall) :
    Prop where
  windowSecs : s.replayWindowSecs = window
  past : ∀ (p x : String) (t : UInt64), s.seenAt p x = some t → t ≤ now
  before : ∀ a ∈ accepted, a.now₂ ≤ now
  recalls : ∀ later, now ≤ later → ∀ (p x : String) (t : UInt64), absDiff later t ≤ window →
    (s.seenAt p x = some t ↔ ∃ a ∈ accepted, a.peer = p ∧ a.nonce = x ∧ a.now₂ = t)
  apart : accepted.Pairwise fun a a' => a.now₂ ≤ a'.now₂ ∧
    (a.peer = a'.peer → a.nonce = a'.nonce → ¬ a.AcceptedWithin window a'.now₂)

variable {window now : UInt64} {accepted : List CommonCall} {later : UInt64}

theorem Remembers.within_iff (h : s.Remembers window now accepted) {a : CommonCall}
    (ha : a ∈ accepted) (hlater : now ≤ later) :
    a.AcceptedWithin window later ↔ absDiff later a.now₂ ≤ window := by
  have hle := UInt64.le_trans (h.before a ha) hlater
  have hnat := UInt64.le_iff_toNat_le.mp hle
  unfold CommonCall.AcceptedWithin
  rw [absDiff_le_iff]
  constructor
  · rintro ⟨hsoon, -⟩
    omega
  · rintro ⟨hsoon, -⟩
    exact ⟨hsoon, hle⟩

theorem Remembers.contains_iff (h : s.Remembers window now accepted) (hlater : now ≤ later)
    (p x : String) :
    (s.keptNonces later p).contains x = true ↔
      ∃ a ∈ accepted, a.peer = p ∧ a.nonce = x ∧ a.AcceptedWithin window later := by
  rw [contains_eq_isSome_getElem?, Option.isSome_iff_exists]
  constructor
  · rintro ⟨t, hkept⟩
    obtain ⟨hseen, hfresh⟩ := find_keptNonces_iff.mp hkept
    rw [h.windowSecs] at hfresh
    obtain ⟨a, ha, hpeer, hnonce, rfl⟩ := (h.recalls later hlater p x t hfresh).mp hseen
    exact ⟨a, ha, hpeer, hnonce, (h.within_iff ha hlater).mpr hfresh⟩
  · rintro ⟨a, ha, hpeer, hnonce, hwithin⟩
    have hfresh := (h.within_iff ha hlater).mp hwithin
    have hseen := (h.recalls later hlater p x a.now₂ hfresh).mpr ⟨a, ha, hpeer, hnonce, rfl⟩
    exact ⟨a.now₂, find_keptNonces_iff.mpr ⟨hseen, by rw [h.windowSecs]; exact hfresh⟩⟩

theorem Remembers.size_keptNonces (h : s.Remembers window now accepted) (hlater : now ≤ later)
    (p : String) :
    (s.keptNonces later p).size = (CommonCall.ofPeerWithin p window later accepted).length := by
  have hnodup : ((CommonCall.ofPeerWithin p window later accepted).map CommonCall.nonce).Nodup := by
    rw [List.Nodup, pairwise_map]
    refine (h.apart.filter _).imp_of_mem ?_
    intro a a' ha ha' hapart hsame
    obtain ⟨hpeer, hsoon, -⟩ := of_decide_eq_true (mem_filter.mp ha).2
    obtain ⟨hpeer', -, hle⟩ := of_decide_eq_true (mem_filter.mp ha').2
    -- Two calls of one window are within a window of each other.
    have hnat := UInt64.le_iff_toNat_le.mp hle
    exact hapart.2 (hpeer.trans hpeer'.symm) hsame ⟨by omega, hapart.1⟩
  have hperm : (s.keptNonces later p).keys.Perm
      ((CommonCall.ofPeerWithin p window later accepted).map CommonCall.nonce) := by
    rw [perm_ext_iff_of_nodup nodup_keys hnodup]
    intro x
    rw [Std.ExtTreeMap.mem_keys, ← Std.ExtTreeMap.contains_iff_mem, h.contains_iff hlater]
    unfold CommonCall.ofPeerWithin
    simp only [mem_map, mem_filter, decide_eq_true_eq]
    constructor
    · rintro ⟨a, ha, hpeer, hnonce, hwithin⟩
      exact ⟨a, ⟨ha, hpeer, hwithin⟩, hnonce⟩
    · rintro ⟨a, ⟨ha, hpeer, hwithin⟩, hnonce⟩
      exact ⟨a, ha, hpeer, hnonce, hwithin⟩
  rw [← length_keys, hperm.length_eq, length_map]

theorem Remembers.mono (h : s.Remembers window now accepted) (hlater : now ≤ later) :
    s.Remembers window later accepted where
  windowSecs := h.windowSecs
  past p x t hseen := UInt64.le_trans (h.past p x t hseen) hlater
  before a ha := UInt64.le_trans (h.before a ha) hlater
  recalls later' hlater' := h.recalls later' (UInt64.le_trans hlater hlater')
  apart := h.apart

theorem remembers_empty (hnew : s.replaySeen = ∅) (now : UInt64) :
    s.Remembers s.replayWindowSecs now [] := by
  have hnone (p x : String) : s.seenAt p x = none := by
    rw [seenAt, hnew, getElem?_empty, Option.bind_none]
  refine ⟨rfl, fun p x t hseen => ?_, by simp, fun later _ p x t _ => ?_, .nil⟩
  · rw [hnone] at hseen
    cases hseen
  · rw [hnone]
    simp

theorem Remembers.step (c : CommonCall) (h : s.Remembers window c.now₂ accepted) :
    (commonMachine.handle s c).1.Remembers window c.now₂
      (accepted ++ if commonMachine.Admits s c then [c] else []) := by
  have hsame := checkCommon_sameKeys s c.now₁ c.now₂ c.peer c.ts c.nonce
  have hadds (a : CommonCall) :
      a ∈ accepted ++ (if commonMachine.Admits s c then [c] else []) ↔
        a ∈ accepted ∨ (commonMachine.Admits s c ∧ a = c) := by
    by_cases hadmits : commonMachine.Admits s c
    · simp [hadmits]
    · simp [hadmits]
  refine ⟨hsame.replayWindowSecs.trans h.windowSecs, ?_, ?_, ?_, ?_⟩
  · intro p x t hseen
    rcases seenAt_of_checkCommon hseen with hold | ⟨-, -, -, rfl⟩
    · exact h.past p x t hold
    · exact UInt64.le_refl _
  · intro a ha
    rcases (hadds a).mp ha with ha | ⟨-, rfl⟩
    · exact h.before a ha
    · exact UInt64.le_refl _
  · intro later hlater p x t hfresh
    have hwindow : absDiff later t ≤ s.replayWindowSecs := h.windowSecs ▸ hfresh
    change (s.checkCommon c.now₁ c.now₂ c.peer c.ts c.nonce).1.seenAt p x = some t ↔ _
    refine (seenAt_checkCommon_iff h.past hlater hwindow).trans ?_
    rw [h.recalls later hlater p x t hfresh, ← commonMachine_admits_iff]
    simp only [hadds, or_and_right, exists_or]
    refine or_congr_right ⟨?_, ?_⟩
    · rintro ⟨hadmits, hpeer, hnonce, htime⟩
      exact ⟨c, ⟨hadmits, rfl⟩, hpeer, hnonce, htime⟩
    · rintro ⟨_, ⟨hadmits, rfl⟩, hpeer, hnonce, htime⟩
      exact ⟨hadmits, hpeer, hnonce, htime⟩
  · refine pairwise_append.mpr ⟨h.apart, by split <;> simp, fun a ha a' ha' => ?_⟩
    obtain ⟨hadmits, rfl⟩ : commonMachine.Admits s c ∧ a' = c := by
      by_cases hadmits : commonMachine.Admits s c
      · rw [if_pos hadmits] at ha'
        exact ⟨hadmits, mem_singleton.mp ha'⟩
      · rw [if_neg hadmits] at ha'
        cases ha'
    refine ⟨h.before a ha, fun hpeer hnonce hwithin => ?_⟩
    -- A nonce that is kept is refused.
    have hnew := (checkCommon_eq_ok_iff.mp ((commonMachine_admits_iff s a').mp hadmits)).2.1
    rw [(h.contains_iff (UInt64.le_refl _) _ _).mpr ⟨a, ha, hpeer, hnonce, hwithin⟩] at hnew
    cases hnew

end SecurityRuntime

namespace CommonCall

variable {calls before : List CommonCall} {c : CommonCall}

theorem InOrder.sublist {calls' : List CommonCall} (h : InOrder calls)
    (hsub : calls'.Sublist calls) :
    InOrder calls' := by
  unfold InOrder at *
  exact h.sublist (hsub.flatMap _)

theorem InOrder.le_of_concat (h : InOrder (before ++ [c])) : ∀ a ∈ before, a.now₂ ≤ c.now₂ := by
  intro a ha
  unfold InOrder at h
  rw [flatMap_append] at h
  exact (pairwise_append.mp h).2.2 a.now₂ (mem_flatMap.mpr ⟨a, ha, by simp⟩) c.now₂
    (by simp)

end CommonCall

namespace SecurityRuntime

variable {s : SecurityRuntime} {c : CommonCall} (window now : UInt64)

theorem remembers_after (hnew : s.replaySeen = ∅) (calls : List CommonCall)
    (hclock : CommonCall.InOrder calls) :
    ∀ now, (∀ c ∈ calls, c.now₂ ≤ now) →
      (commonMachine.after s calls).Remembers s.replayWindowSecs now
        (commonMachine.admitted s calls) := by
  refine commonMachine.run_induction
    (P := fun calls t accepted => ∀ now, (∀ c ∈ calls, c.now₂ ≤ now) →
      t.Remembers s.replayWindowSecs now accepted) calls ?_ ?_
  · exact fun now _ => remembers_empty hnew now
  · intro before c hinitial hbefore now hnow
    have horder := hclock.sublist hinitial.sublist
    exact ((hbefore c.now₂ horder.le_of_concat).step c).mono (hnow c (by simp))

/-! ### The answers -/

theorem Remembers.admits_iff {window : UInt64} {accepted : List CommonCall} {c : CommonCall}
    (h : s.Remembers window c.now₂ accepted) :
    commonMachine.Admits s c ↔ c.Admissible window accepted := by
  rw [commonMachine_admits_iff, checkCommon_eq_ok_iff, h.windowSecs,
    h.size_keptNonces (UInt64.le_refl _), ← Bool.not_eq_true, h.contains_iff (UInt64.le_refl _)]
  constructor
  · rintro ⟨htimely, hunseen, hroom⟩
    exact ⟨htimely, fun a ha hpeer hnonce hwithin => hunseen ⟨a, ha, hpeer, hnonce, hwithin⟩, hroom⟩
  · rintro ⟨htimely, hunseen, hroom⟩
    exact ⟨htimely, fun ⟨a, ha, hpeer, hnonce, hwithin⟩ => hunseen a ha hpeer hnonce hwithin, hroom⟩

theorem commonMachine_snd (s : SecurityRuntime) (c : CommonCall) :
    (commonMachine.handle s c).2
      = if absDiff c.now₁ c.ts ≤ s.replayWindowSecs then
          if commonMachine.Admits s c then .ok () else .error .replayDetected
        else .error .timestampOutOfWindow := by
  rcases s.checkCommon_cases c.now₁ c.now₂ c.peer c.ts c.nonce with
    ⟨hlate, hres⟩ | ⟨htimely, -, hres⟩ | ⟨htimely, -, -, hres⟩
  · rw [if_neg hlate]
    exact congrArg Prod.snd hres
  · have hrefused : ¬ commonMachine.Admits s c := by
      rw [commonMachine_admits_iff, hres]
      simp
    rw [if_pos htimely, if_neg hrefused]
    exact congrArg Prod.snd hres
  · have haccepted : commonMachine.Admits s c := by rw [commonMachine_admits_iff, hres]
    rw [if_pos htimely, if_pos haccepted]
    exact congrArg Prod.snd hres

theorem admits_after_iff (hnew : s.replaySeen = ∅) {before : List CommonCall} {c : CommonCall}
    (hclock : CommonCall.InOrder (before ++ [c])) :
    commonMachine.Admits (commonMachine.after s before) c ↔
      c.Admissible s.replayWindowSecs (commonMachine.admitted s before) :=
  (remembers_after hnew before (hclock.sublist (sublist_append_left _ _)) c.now₂
    hclock.le_of_concat).admits_iff

/-- The answers to a peer in a run are those of the run in which nobody else calls. -/
theorem repliesWhere_peer (hnew : s.replaySeen = ∅) (p : String) (calls : List CommonCall)
    (hclock : CommonCall.InOrder calls) :
    commonMachine.repliesWhere (fun c => decide (c.peer = p)) s calls
      = commonMachine.replies s (calls.filter fun c => decide (c.peer = p)) := by
  induction calls using reverseRecOn with
  | nil => rfl
  | append_singleton calls c ih =>
    have hbefore := ih (hclock.sublist (sublist_append_left _ _))
    rw [Machine.repliesWhere_concat, filter_append, hbefore]
    by_cases hpeer : c.peer = p
    · -- The same calls of the peer were accepted in both runs, so the answers agree.
      have hown : commonMachine.admitted s (calls.filter fun c' => decide (c'.peer = c.peer))
          = (commonMachine.admitted s calls).filter fun c' => decide (c'.peer = c.peer) := by
        rw [Machine.filter_admitted, hpeer, hbefore]
        rfl
      have horder : CommonCall.InOrder
          ((calls.filter fun c' => decide (c'.peer = c.peer)) ++ [c]) :=
        hclock.sublist (filter_sublist.append_right [c])
      have hadmits : commonMachine.Admits (commonMachine.after s calls) c ↔
          commonMachine.Admits
            (commonMachine.after s (calls.filter fun c' => decide (c'.peer = c.peer))) c := by
        rw [admits_after_iff hnew hclock, admits_after_iff hnew horder, hown,
          CommonCall.admissible_filter_iff]
      have hanswer : (commonMachine.handle (commonMachine.after s calls) c).2
          = (commonMachine.handle (commonMachine.after s
              (calls.filter fun c' => decide (c'.peer = c.peer))) c).2 := by
        rw [commonMachine_snd, commonMachine_snd, commonMachine_window, commonMachine_window]
        simp only [hadmits]
      have hself : [c].filter (fun c' => decide (c'.peer = c.peer)) = [c] := by simp
      rw [if_pos (decide_eq_true hpeer), hanswer, ← hpeer, hself, Machine.replies_concat]
    · have hother : [c].filter (fun c' => decide (c'.peer = p)) = [] := by simp [hpeer]
      rw [if_neg (by simpa using hpeer), hother, append_nil, append_nil]

/-- The answers of `check_common` in a run that begins with an empty cache and whose clock
    does not run backwards. A call is accepted exactly if the time of its message is within
    the window, no call of the same peer with the same nonce was accepted in the window
    before it, and fewer calls of that peer than the limit were. So the answers to a peer
    are the same when nobody else calls. -/
theorem checkCommon_exact (s : SecurityRuntime) (hnew : s.replaySeen = ∅)
    (calls : List CommonCall) (hclock : CommonCall.InOrder calls) :
    (∀ before c rest, calls = before ++ c :: rest →
      ((commonMachine.handle (commonMachine.after s before) c).2 = .ok () ↔
        absDiff c.now₁ c.ts ≤ s.replayWindowSecs ∧
          (∀ a ∈ commonMachine.admitted s before, a.peer = c.peer → a.nonce = c.nonce →
            ¬ a.AcceptedWithin s.replayWindowSecs c.now₂) ∧
          (CommonCall.ofPeerWithin c.peer s.replayWindowSecs c.now₂
            (commonMachine.admitted s before)).length < maxNoncesPerPeer)) ∧
    ∀ p, commonMachine.repliesWhere (fun c => decide (c.peer = p)) s calls
      = commonMachine.replies s (calls.filter fun c => decide (c.peer = p)) := by
  refine ⟨fun before c rest hcalls => ?_, fun p => repliesWhere_peer hnew p calls hclock⟩
  have hinitial : (before ++ [c]).Sublist calls := by
    rw [hcalls, show before ++ c :: rest = before ++ [c] ++ rest by simp]
    exact sublist_append_left _ _
  refine (commonMachine_admits_iff _ c).symm.trans ?_
  rw [admits_after_iff hnew (hclock.sublist hinitial)]
  exact ⟨fun h => ⟨h.timely, h.unseen, h.room⟩, fun ⟨h₁, h₂, h₃⟩ => ⟨h₁, h₂, h₃⟩⟩

/-- A call of the peer with its nonce, made and claimed at one time. -/
def callAtTime (peer nonce : String) (now : UInt64) : CommonCall := ⟨now, now, peer, now, nonce⟩

/-- A nonce is refused at the end of the window and accepted a second later. -/
theorem nonce_again_after_window :
    let calls := [callAtTime "peer" "n" 1000, callAtTime "peer" "n" 1300]
    (commonMachine.handle (commonMachine.after tagRuntime [callAtTime "peer" "n" 1000])
        (callAtTime "peer" "n" 1300)).2 ≠ .ok () ∧
      (commonMachine.handle (commonMachine.after tagRuntime calls)
        (callAtTime "peer" "n" 1301)).2 = .ok () := by
  intro calls
  have hclock : CommonCall.InOrder (calls ++ [callAtTime "peer" "n" 1301]) := by decide +kernel
  have hexact := (checkCommon_exact tagRuntime rfl _ hclock).1
  have hfirst : commonMachine.admitted tagRuntime [callAtTime "peer" "n" 1000]
      = [callAtTime "peer" "n" 1000] := by decide +kernel
  have hboth : commonMachine.admitted tagRuntime calls = [callAtTime "peer" "n" 1000] := by
    decide +kernel
  constructor
  · intro hok
    have hunseen := ((hexact [_] _ [_] rfl).mp hok).2.1
    rw [hfirst] at hunseen
    exact hunseen (callAtTime "peer" "n" 1000) (mem_singleton.mpr rfl) rfl rfl (by decide)
  · refine (hexact calls _ [] rfl).mpr ?_
    rw [hboth]
    refine ⟨by decide, fun a ha _ _ => ?_, by decide⟩
    rw [mem_singleton.mp ha]
    decide

/-! ### The sizes -/

/-- What the cleaning of all buckets leaves. -/
def liveBuckets (s : SecurityRuntime) (now : UInt64) : FinMap String Bucket :=
  s.replaySeen.filterMap fun _ bucket =>
    let kept := freshNonces s.replayWindowSecs now bucket
    if kept.isEmpty then none else some kept

theorem trackedBuckets_eq (s : SecurityRuntime) (now : UInt64) :
    s.trackedBuckets now
      = if s.replaySeen.size > maxTrackedPeers then s.liveBuckets now else s.replaySeen := rfl

/-- No bucket has more nonces than the limit. -/
def BucketsWithin (s : SecurityRuntime) : Prop :=
  ∀ (p : String) (bucket : Bucket), s.replaySeen[p]? = some bucket →
    bucket.size ≤ maxNoncesPerPeer

theorem size_freshNonces_le (bucket : Bucket) :
    (freshNonces window now bucket).size ≤ bucket.size :=
  size_filter_le_size

theorem BucketsWithin.trackedBuckets (h : s.BucketsWithin) (now : UInt64) {p : String}
    {bucket : Bucket} (hbucket : (s.trackedBuckets now)[p]? = some bucket) :
    bucket.size ≤ maxNoncesPerPeer := by
  rw [trackedBuckets_eq] at hbucket
  split at hbucket
  · rw [liveBuckets, getElem?_filterMap', Option.bind_eq_some_iff] at hbucket
    obtain ⟨old, hold, hkept⟩ := hbucket
    dsimp only at hkept
    split at hkept
    · cases hkept
    · rw [← Option.some.inj hkept]
      exact (size_freshNonces_le _ _ _).trans (h p old hold)
  · exact h p bucket hbucket

theorem BucketsWithin.keptNonces (h : s.BucketsWithin) (now : UInt64) (p : String) :
    (s.keptNonces now p).size ≤ maxNoncesPerPeer := by
  unfold SecurityRuntime.keptNonces
  refine (size_freshNonces_le _ _ _).trans ?_
  cases hbucket : s.replaySeen[p]? with
  | none => exact Nat.zero_le _
  | some bucket => exact h p bucket hbucket

theorem BucketsWithin.setBucket (h : s.BucketsWithin) (now : UInt64) (peer : String)
    {bucket : Bucket} (hbucket : bucket.size ≤ maxNoncesPerPeer) :
    (s.setBucket now peer bucket).BucketsWithin := by
  intro p other hother
  unfold SecurityRuntime.setBucket at hother
  dsimp only at hother
  rcases FinMap.find_insert_eq_some.mp hother with ⟨-, rfl⟩ | ⟨-, hold⟩
  · exact hbucket
  · exact h.trackedBuckets now hold

theorem BucketsWithin.step (h : s.BucketsWithin) (c : CommonCall) :
    (commonMachine.handle s c).1.BucketsWithin := by
  change (s.checkCommon c.now₁ c.now₂ c.peer c.ts c.nonce).1.BucketsWithin
  rcases s.checkCommon_cases c.now₁ c.now₂ c.peer c.ts c.nonce with
    ⟨-, hres⟩ | ⟨-, -, hres⟩ | ⟨-, -, hroom, hres⟩
  · rw [hres]
    exact h
  · rw [hres]
    exact h.setBucket _ _ (h.keptNonces _ _)
  · rw [hres]
    refine h.setBucket _ _ (size_insert_le.trans ?_)
    omega

theorem size_replaySeen_step (s : SecurityRuntime) (c : CommonCall) :
    (commonMachine.handle s c).1.replaySeen.size
      = if absDiff c.now₁ c.ts ≤ s.replayWindowSecs then
          ((s.trackedBuckets c.now₂).erase c.peer).size + 1
        else s.replaySeen.size := by
  change (s.checkCommon c.now₁ c.now₂ c.peer c.ts c.nonce).1.replaySeen.size = _
  rcases s.checkCommon_cases c.now₁ c.now₂ c.peer c.ts c.nonce with
    ⟨hlate, hres⟩ | ⟨htimely, -, hres⟩ | ⟨htimely, -, -, hres⟩
  · rw [hres, if_neg hlate]
  · rw [hres, if_pos htimely]
    exact FinMap.size_insert_eq _ _ _
  · rw [hres, if_pos htimely]
    exact FinMap.size_insert_eq _ _ _

theorem size_step_le (hsize : s.replaySeen.size ≤ maxTrackedPeers + 1)
    (hlive : absDiff c.now₁ c.ts ≤ s.replayWindowSecs →
      ((s.liveBuckets c.now₂).erase c.peer).size ≤ maxTrackedPeers) :
    (commonMachine.handle s c).1.replaySeen.size ≤ maxTrackedPeers + 1 := by
  rw [size_replaySeen_step, trackedBuckets_eq]
  by_cases htimely : absDiff c.now₁ c.ts ≤ s.replayWindowSecs
  · rw [if_pos htimely]
    by_cases hmany : s.replaySeen.size > maxTrackedPeers
    · rw [if_pos hmany]
      exact Nat.succ_le_succ (hlive htimely)
    · -- Without a cleaning the call adds at most one.
      rw [if_neg hmany]
      have hle : (s.replaySeen.erase c.peer).size ≤ s.replaySeen.size :=
        size_erase_le
      omega
  · rw [if_neg htimely]
    exact hsize

theorem live_le_of_size_step
    (hsize : (commonMachine.handle s c).1.replaySeen.size ≤ maxTrackedPeers + 1)
    (htimely : absDiff c.now₁ c.ts ≤ s.replayWindowSecs) :
    ((s.liveBuckets c.now₂).erase c.peer).size ≤ maxTrackedPeers := by
  rw [size_replaySeen_step, if_pos htimely, trackedBuckets_eq] at hsize
  by_cases hmany : s.replaySeen.size > maxTrackedPeers
  · rw [if_pos hmany] at hsize
    exact Nat.le_of_succ_le_succ hsize
  · calc ((s.liveBuckets c.now₂).erase c.peer).size ≤ (s.liveBuckets c.now₂).size :=
          size_erase_le
      _ ≤ s.replaySeen.size := size_filterMap_le_size
      _ ≤ maxTrackedPeers := Nat.le_of_not_gt hmany

/-- The cache within its bounds: every bucket, in every run. The buckets are within one of
    theirs, at every point of a run, exactly if no call with a timely message finds more
    other peers with a nonce in the window than the bound allows. -/
theorem cache_bounded_iff (s : SecurityRuntime) (hnew : s.replaySeen = ∅)
    (calls : List CommonCall) :
    (∀ before rest, calls = before ++ rest → ∀ (p : String) (bucket : Bucket),
      (commonMachine.after s before).replaySeen[p]? = some bucket →
        bucket.size ≤ maxNoncesPerPeer) ∧
    ((∀ before rest, calls = before ++ rest →
        (commonMachine.after s before).replaySeen.size ≤ maxTrackedPeers + 1) ↔
      ∀ before c rest, calls = before ++ c :: rest →
        absDiff c.now₁ c.ts ≤ s.replayWindowSecs →
          (((commonMachine.after s before).liveBuckets c.now₂).erase c.peer).size
            ≤ maxTrackedPeers) := by
  refine ⟨fun before rest _ => ?_, ?_, ?_⟩
  · refine commonMachine.run_induction (P := fun _ t _ => t.BucketsWithin) before ?_ ?_
    · intro p bucket hbucket
      rw [hnew, getElem?_empty] at hbucket
      cases hbucket
    · exact fun before c _ hbefore => hbefore.step c
  · intro hbound before c rest hcalls htimely
    have hafter := hbound (before ++ [c]) rest (by simp [hcalls])
    rw [Machine.after_concat] at hafter
    exact live_le_of_size_step hafter (by rw [commonMachine_window]; exact htimely)
  · intro hlive before
    induction before using reverseRecOn with
    | nil =>
      intro rest _
      rw [Machine.after_nil, hnew, size_empty]
      exact Nat.zero_le _
    | append_singleton before c ih =>
      intro rest hcalls
      rw [Machine.after_concat]
      refine size_step_le (ih (c :: rest) (by simp [hcalls])) fun htimely => ?_
      rw [commonMachine_window] at htimely
      exact hlive before c rest (by simp [hcalls]) htimely

theorem lone_peer_bounded :
    let calls := [callAtTime "peer" "n" 1000]
    (commonMachine.after tagRuntime calls).replaySeen.size ≤ maxTrackedPeers + 1 := by
  refine (cache_bounded_iff tagRuntime rfl [callAtTime "peer" "n" 1000]).2.mpr ?_ _ [] rfl
  intro before c rest hcalls _
  obtain ⟨rfl, rfl, rfl⟩ : before = [] ∧ c = callAtTime "peer" "n" 1000 ∧ rest = [] := by
    cases before with
    | nil => simpa [eq_comm] using hcalls
    | cons a before => simp at hcalls
  exact live_le_of_size_step (by decide +kernel) (by decide)

/-! ### A crowd -/

/-- Every bucket has a nonce, and all of them are in the window. -/
def AllLive (s : SecurityRuntime) (now : UInt64) : Prop :=
  ∀ (p : String) (bucket : Bucket), s.replaySeen[p]? = some bucket →
    freshNonces s.replayWindowSecs now bucket = bucket ∧ bucket.isEmpty = false

theorem AllLive.trackedBuckets_eq {now : UInt64} (h : s.AllLive now) :
    s.trackedBuckets now = s.replaySeen := by
  rw [SecurityRuntime.trackedBuckets_eq]
  split
  · refine ext_getElem? fun p => ?_
    rw [liveBuckets, getElem?_filterMap']
    cases hbucket : s.replaySeen[p]? with
    | none => rfl
    | some bucket =>
      obtain ⟨hfresh, hne⟩ := h p bucket hbucket
      rw [Option.bind_some]
      dsimp only
      rw [hfresh, hne]
      rfl
  · rfl

theorem freshNonces_singleton (nonce : String) :
    freshNonces window now ((∅ : Bucket).insert nonce now) = (∅ : Bucket).insert nonce now := by
  have hself : absDiff now now ≤ window := by
    rw [absDiff_le_iff]
    omega
  refine ext_getElem? fun x => ?_
  rw [find_freshNonces, FinMap.find_insert]
  by_cases hx : nonce = x
  · rw [if_pos hx, Option.filter_some, if_pos (decide_eq_true hself)]
  · rw [if_neg hx, getElem?_empty, Option.filter_none]

theorem AllLive.newcomer {now : UInt64} {peer : String} (h : s.AllLive now)
    (hnone : s.replaySeen[peer]? = none) (nonce : String) :
    (commonMachine.handle s (callAtTime peer nonce now)).1.replaySeen
        = s.replaySeen.insert peer ((∅ : Bucket).insert nonce now) ∧
      (commonMachine.handle s (callAtTime peer nonce now)).1.AllLive now := by
  have hkept : s.keptNonces now peer = ∅ := by
    rw [keptNonces, hnone, Option.getD_none]
    rfl
  have hpass : (s.checkCommon now now peer now nonce).2 = .ok () := by
    rw [checkCommon_eq_ok_iff, hkept, absDiff_le_iff, contains_empty,
      size_empty]
    exact ⟨by omega, rfl, by decide⟩
  have hres : (commonMachine.handle s (callAtTime peer nonce now)).1
      = { s with replaySeen := s.replaySeen.insert peer ((∅ : Bucket).insert nonce now) } := by
    change (s.checkCommon now now peer now nonce).1 = _
    rcases s.checkCommon_cases now now peer now nonce with
      ⟨-, hres⟩ | ⟨-, -, hres⟩ | ⟨-, -, -, hres⟩
    · rw [hres] at hpass
      cases hpass
    · rw [hres] at hpass
      cases hpass
    · rw [hres, hkept, setBucket, h.trackedBuckets_eq]
  rw [hres]
  refine ⟨rfl, fun p bucket hbucket => ?_⟩
  dsimp only at hbucket ⊢
  rcases FinMap.find_insert_eq_some.mp hbucket with ⟨-, rfl⟩ | ⟨-, hold⟩
  · refine ⟨freshNonces_singleton _ _ _, ?_⟩
    rw [Std.ExtTreeMap.isEmpty_eq_false_iff]
    exact insert_ne_empty
  · exact h p bucket hold

/-- Peers with names of different lengths. -/
def crowdPeer (i : Nat) : String := String.ofList (replicate i 'p')

theorem crowdPeer_injective : Function.Injective crowdPeer := by
  intro i j h
  have hlength := congrArg (fun name : String => name.toList.length) h
  simpa [crowdPeer] using hlength

/-- A call of each of them in one second. -/
def crowd (n : Nat) : List CommonCall :=
  (range n).map fun i => callAtTime (crowdPeer i) "n" 1000

theorem crowd_tracked (n : Nat) :
    (commonMachine.after tagRuntime (crowd n)).AllLive 1000 ∧
      (∀ (p : String) (bucket : Bucket),
        (commonMachine.after tagRuntime (crowd n)).replaySeen[p]? = some bucket →
          ∃ i < n, p = crowdPeer i) ∧
      (commonMachine.after tagRuntime (crowd n)).replaySeen.size = n := by
  induction n with
  | zero =>
    refine ⟨fun p bucket hbucket => ?_, fun p bucket hbucket => ?_, rfl⟩
    · exact absurd hbucket (by simp [crowd, Machine.after_nil, tagRuntime])
    · exact absurd hbucket (by simp [crowd, Machine.after_nil, tagRuntime])
  | succ n ih =>
    obtain ⟨hlive, hnames, hsize⟩ := ih
    have hnone : (commonMachine.after tagRuntime (crowd n)).replaySeen[crowdPeer n]? = none := by
      rw [Option.eq_none_iff_forall_ne_some]
      intro bucket hbucket
      obtain ⟨i, hi, hname⟩ := hnames _ bucket hbucket
      exact absurd (crowdPeer_injective hname) (by omega)
    obtain ⟨hinsert, hlive'⟩ := hlive.newcomer hnone "n"
    have hcrowd : crowd (n + 1) = crowd n ++ [callAtTime (crowdPeer n) "n" 1000] := by
      rw [crowd, range_succ, map_append]
      rfl
    rw [hcrowd, Machine.after_concat]
    refine ⟨hlive', fun p bucket hbucket => ?_, ?_⟩
    · rw [hinsert] at hbucket
      rcases FinMap.find_insert_eq_some.mp hbucket with ⟨hp, -⟩ | ⟨-, hold⟩
      · exact ⟨n, by omega, hp.symm⟩
      · obtain ⟨i, hi, hname⟩ := hnames p bucket hold
        exact ⟨i, by omega, hname⟩
    · rw [hinsert, FinMap.size_insert_eq, FinMap.erase_of_none hnone, hsize]

/-- One peer more than the bound leaves room for, all of them in one second. -/
theorem crowd_outgrows_cache :
    tagRuntime.replaySeen = ∅ ∧
      ¬ (commonMachine.after tagRuntime (crowd 10002)).replaySeen.size ≤ maxTrackedPeers + 1 := by
  refine ⟨rfl, ?_⟩
  rw [(crowd_tracked 10002).2.2]
  decide

end SecurityRuntime

end EssNode
