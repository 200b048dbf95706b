import EssNode.Lib.Bincode

/-!
# The Rotation of Internal Keys

A node derives a seed for its internal keys from a secret, and a new one from the last by a hash
when an epoch of a day has passed. A task sleeps until the next epoch, looks at the clock, and
takes one step along the chain of hashes if the epoch is a later one.

It takes one step, however many epochs have passed. After a run the seed has been moved on as
often as the epoch was found to be a later one (`currentSeed_run`). This is the number of epochs
since the start exactly if none was slept through (`advances_eq_iff`), which a task cannot rule
out: it sleeps for at least a minute, and a suspended node for as long as it is suspended.

How long the task sleeps is left out, so a run is given by the epochs it finds. The hash is a
parameter.
-/

namespace EssNode

namespace Rotation

open Bincode

abbrev Seed := Vector UInt8 32

def rotationPeriod : UInt64 := 86400

def currentEpoch (now : UInt64) : UInt64 := now / rotationPeriod

variable (sha256 : List UInt8 → Seed) {first : UInt64} {epochs : List UInt64}

def initialSeedFromSecret (secretSeed : Seed) (epoch : UInt64) : Seed :=
  sha256 (utf8 "ESS-ID-ROTATION-INIT-v1" ++ secretSeed.toList ++ littleEndian 8 epoch.toNat)

def nextEpochSeed (currentSeed : Seed) : Seed :=
  sha256 (utf8 "ESS-ID-ROTATION-CHAIN-v1" ++ currentSeed.toList)

/-- The task: its two variables, and the seeds it has handed to its callback. -/
structure RotationTask where
  lastEpoch : UInt64
  currentSeed : Seed
  rotated : List Seed
deriving DecidableEq

namespace RotationTask

/-- What the task does at first, in the epoch it finds. -/
def start (secretSeed : Seed) (lastEpoch : UInt64) : RotationTask :=
  let currentSeed := initialSeedFromSecret sha256 secretSeed lastEpoch
  { lastEpoch := lastEpoch, currentSeed := currentSeed, rotated := [currentSeed] }

/-- What the task does when it wakes up and finds an epoch. It moves on by one seed,
    whatever the distance. -/
def wake (self : RotationTask) (current : UInt64) : RotationTask :=
  if self.lastEpoch < current then
    let currentSeed := nextEpochSeed sha256 self.currentSeed
    { lastEpoch := current
      currentSeed := currentSeed
      rotated := self.rotated ++ [currentSeed] }
  else self

def run (self : RotationTask) (epochs : List UInt64) : RotationTask :=
  epochs.foldl (fun self current => self.wake sha256 current) self

end RotationTask

/-! ### How often the seed moves on -/

/-- How often an epoch is later than the last one that was. -/
def advances : UInt64 → List UInt64 → Nat
  | _, [] => 0
  | last, epoch :: epochs =>
    if last < epoch then 1 + advances epoch epochs else advances last epochs

/-- After a run the seed has moved on once for each later epoch, as often as the callback
    was called. -/
theorem currentSeed_run (self : RotationTask) (epochs : List UInt64) :
    (self.run sha256 epochs).currentSeed
        = (nextEpochSeed sha256)^[advances self.lastEpoch epochs] self.currentSeed
      ∧ (self.run sha256 epochs).rotated.length
        = self.rotated.length + advances self.lastEpoch epochs := by
  induction epochs generalizing self with
  | nil => exact ⟨rfl, rfl⟩
  | cons epoch epochs ih =>
    change ((self.wake sha256 epoch).run sha256 epochs).currentSeed = _
      ∧ ((self.wake sha256 epoch).run sha256 epochs).rotated.length = _
    unfold RotationTask.wake advances
    by_cases hlater : self.lastEpoch < epoch
    · rw [if_pos hlater, if_pos hlater, Nat.add_comm 1, Function.iterate_succ_apply]
      obtain ⟨hseed, hlen⟩ := ih { lastEpoch := epoch
                                   currentSeed := nextEpochSeed sha256 self.currentSeed
                                   rotated := self.rotated
                                     ++ [nextEpochSeed sha256 self.currentSeed] }
      refine ⟨hseed, hlen.trans ?_⟩
      dsimp only
      rw [List.length_append, List.length_singleton]
      omega
    · rw [if_neg hlater, if_neg hlater]
      exact ih self

/-- Epochs that never go back. -/
def NonDecreasing (epochs : List UInt64) : Prop := epochs.IsChain (· ≤ ·)

/-- Epochs of which none is left out. -/
def NoneSkipped (epochs : List UInt64) : Prop :=
  epochs.IsChain fun epoch next => next.toNat ≤ epoch.toNat + 1

theorem le_getLastD (h : NonDecreasing (first :: epochs)) : first ≤ epochs.getLastD first := by
  induction epochs generalizing first with
  | nil => exact UInt64.le_refl _
  | cons epoch epochs ih =>
    obtain ⟨hle, hrest⟩ := List.isChain_cons_cons.mp h
    rw [List.getLastD_cons]
    exact UInt64.le_trans hle (ih hrest)

/-- The number of later epochs is at most the distance, and equal to it exactly if no
    epoch is left out. -/
theorem advances_eq_iff (h : NonDecreasing (first :: epochs)) :
    advances first epochs ≤ (epochs.getLastD first).toNat - first.toNat
      ∧ (advances first epochs = (epochs.getLastD first).toNat - first.toNat
        ↔ NoneSkipped (first :: epochs)) := by
  induction epochs generalizing first with
  | nil =>
    refine ⟨Nat.zero_le _, iff_of_true ?_ (List.isChain_singleton _)⟩
    rw [List.getLastD_nil, Nat.sub_self]
    rfl
  | cons epoch epochs ih =>
    obtain ⟨hle, hrest⟩ := List.isChain_cons_cons.mp h
    obtain ⟨hbound, hiff⟩ := ih hrest
    have hlast := UInt64.le_iff_toNat_le.mp (le_getLastD hrest)
    have hfirst := UInt64.le_iff_toNat_le.mp hle
    have hskipped : NoneSkipped (first :: epoch :: epochs)
        ↔ epoch.toNat ≤ first.toNat + 1 ∧ NoneSkipped (epoch :: epochs) :=
      List.isChain_cons_cons
    rw [hskipped, ← hiff, List.getLastD_cons, advances]
    by_cases hlater : first < epoch
    · have hstep := UInt64.lt_iff_toNat_lt.mp hlater
      rw [if_pos hlater]
      constructor
      · omega
      · constructor
        · intro heq
          omega
        · rintro ⟨hnext, heq⟩
          omega
    · -- The same epoch again.
      obtain rfl : first = epoch := UInt64.le_antisymm hle (UInt64.not_lt.mp hlater)
      rw [if_neg hlater]
      exact ⟨hbound, fun heq => ⟨by omega, heq⟩, fun heq => heq.2⟩

/-! ### The seed of an epoch -/

/-- The seed that a node with the given secret and first epoch should have in an epoch. -/
def seedOf (secretSeed : Seed) (first epoch : UInt64) : Seed :=
  (nextEpochSeed sha256)^[epoch.toNat - first.toNat]
    (initialSeedFromSecret sha256 secretSeed first)

/-- A task that found epochs of which none is earlier than the one before has the seed of
    the last one, exactly if it slept through no epoch. That the seeds of the chain are
    different ones is only used to tell a wrong seed. -/
theorem seed_follows_epoch_iff (secretSeed : Seed) (first : UInt64) (epochs : List UInt64)
    (hepochs : NonDecreasing (first :: epochs))
    (hchain : ∀ m n, m ≤ (epochs.getLastD first).toNat - first.toNat →
      n ≤ (epochs.getLastD first).toNat - first.toNat →
      (nextEpochSeed sha256)^[m] (initialSeedFromSecret sha256 secretSeed first)
        = (nextEpochSeed sha256)^[n] (initialSeedFromSecret sha256 secretSeed first) → m = n) :
    ((RotationTask.start sha256 secretSeed first).run sha256 epochs).currentSeed
        = seedOf sha256 secretSeed first (epochs.getLastD first)
      ↔ NoneSkipped (first :: epochs) := by
  obtain ⟨hbound, hiff⟩ := advances_eq_iff hepochs
  have hseed := (currentSeed_run sha256 (RotationTask.start sha256 secretSeed first) epochs).1
  rw [hseed, ← hiff]
  constructor
  · intro hsame
    exact hchain _ _ hbound le_rfl hsame
  · intro hadvances
    unfold seedOf
    rw [← hadvances]
    rfl

/-- A hash that adds one to each byte behind the label of the chain. -/
def countingHash (bytes : List UInt8) : Seed := Vector.ofFn fun i => bytes.getD (24 + i.val) 0 + 1

theorem countingHash_distinct : ∀ m ≤ 2, ∀ n ≤ 2,
    (nextEpochSeed countingHash)^[m] (initialSeedFromSecret countingHash (.replicate 32 0) 7)
      = (nextEpochSeed countingHash)^[n]
        (initialSeedFromSecret countingHash (.replicate 32 0) 7) → m = n := by
  decide +kernel

/-- A task that finds each of two epochs, the first of them twice, has the right seed. -/
theorem seed_follows_epoch_awake :
    ((RotationTask.start countingHash (.replicate 32 0) 7).run countingHash [8, 8, 9]).currentSeed
      = seedOf countingHash (.replicate 32 0) 7 9 := by
  have hepochs : NonDecreasing [7, 8, 8, 9] := by
    unfold NonDecreasing
    decide
  have hskipped : NoneSkipped [7, 8, 8, 9] := by
    unfold NoneSkipped
    decide
  exact (seed_follows_epoch_iff countingHash (.replicate 32 0) 7 [8, 8, 9] hepochs
    fun m n hm hn => countingHash_distinct m hm n hn).mpr hskipped

/-- Two nodes with the same secret and the same first epoch, of which one was suspended
    for an epoch, have different seeds in the epoch after it, and the suspended one has
    that of the epoch before. -/
theorem suspended_node_differs :
    let awake := (RotationTask.start countingHash (.replicate 32 0) 7).run countingHash [8, 9]
    let suspended := (RotationTask.start countingHash (.replicate 32 0) 7).run countingHash [9]
    awake.lastEpoch = suspended.lastEpoch ∧ awake.currentSeed ≠ suspended.currentSeed
      ∧ suspended.currentSeed ≠ seedOf countingHash (.replicate 32 0) 7 9
      ∧ suspended.currentSeed = seedOf countingHash (.replicate 32 0) 7 8 := by
  decide +kernel

end Rotation

end EssNode
