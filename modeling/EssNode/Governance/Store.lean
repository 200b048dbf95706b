import EssNode.Governance.Lifecycle
import EssNode.Lib.Bincode

/-!
# Saving and Loading the Engine

The engine's file, and what an engine that was loaded from it still does.

Every call that changes a proposal writes a snapshot to the file, with a code made with
the engine's key. Without a key nothing is written. The snapshot holds the proposals,
the quorum ratio and whether bootstrap is over. It does not hold the supernodes, the
mode, its deadline or the key, so the engine that is built from it takes them from a
new engine without supernodes: its proposals are the old ones (`restored_eq`), and it
refuses every vote, executes what is proposed, and never writes again.

Two engines that differ in this way answer alike exactly as long as nothing is called
that the first would have written (`restart_same_iff`).

The file system is one file's contents. Serialisation, the code and the envelope
around the two are parameters.
-/

namespace EssNode

open Std.ExtTreeMap

namespace Governance

open GovernanceEngine Bincode

/-- What the file keeps of an engine. -/
structure GovernanceSnapshot where
  proposals : List Proposal
  quorumPercent : ℚ
  bootstrapExited : Bool
deriving DecidableEq

namespace GovernanceEngine

def snapshot (e : GovernanceEngine) : GovernanceSnapshot where
  proposals := e.proposals.toList.map Prod.snd
  quorumPercent := e.quorumRatio
  bootstrapExited := e.bootstrapExited

/-- Take over what a snapshot holds. -/
def restoreFromSnapshot (e : GovernanceEngine) (s : GovernanceSnapshot) : GovernanceEngine :=
  { e with
    proposals := s.proposals.foldl (fun m p => m.insert p.proposalId p) e.proposals
    quorumRatio := s.quorumPercent
    bootstrapExited := s.bootstrapExited }

end GovernanceEngine

/-- What saving and loading take from other crates: the JSON of a snapshot and of the
    envelope around it, and the hexadecimal message code of bytes under a key. -/
structure StoreEnv where
  snapshotJson : GovernanceSnapshot → Except String String
  readSnapshot : String → Option GovernanceSnapshot
  hmacHex : List UInt8 → List UInt8 → String
  envelopeJson : String → String → String
  readEnvelope : String → Option (String × String)

def govHmacDomain : List UInt8 := utf8 "ESS-GOVERNANCE-HMAC-v1"

/-- An engine and the key its file is protected with. -/
structure KeyedEngine where
  engine : GovernanceEngine
  hmacKey : List UInt8 := []

section File

variable (env : StoreEnv)

def computeGovernanceHmac (json : String) (hmacKey : List UInt8) : String :=
  env.hmacHex hmacKey (govHmacDomain ++ utf8 json)

/-- What is written to the file, if anything is. -/
def saveGovernance (e : GovernanceEngine) (hmacKey : List UInt8) : Option String :=
  if hmacKey = [] then none
  else
    match env.snapshotJson e.snapshot with
    | .ok json => some (env.envelopeJson json (computeGovernanceHmac env json hmacKey))
    | .error _ => none

/-- The engine a file's contents give, if the code on it is right. It starts without
    supernodes and without a key. -/
def loadGovernance (now : UInt64) (file : Option String) (hmacKey : List UInt8) :
    Option KeyedEngine :=
  match file with
  | none => none
  | some content =>
    match env.readEnvelope content with
    | none => none
    | some (storedData, storedMac) =>
      if computeGovernanceHmac env storedData hmacKey = storedMac then
        (env.readSnapshot storedData).map fun s =>
          { engine := (new [] (33 / 50) now).restoreFromSnapshot s }
      else none

end File

/-- A call of the engine: the three that answer, and an attempt to save. -/
inductive Call where
  | createProposal (now createdAt : UInt64) (uuid : String) (ptype : ProposalType)
      (target : String)
  | recordVote (now : UInt64) (proposalId voter : String) (approve : Bool)
  | checkQuorum (proposalId : String) (timeoutSecs now : UInt64)
  | save

/-- What a call returns. -/
inductive Answer where
  | created (proposalId : String)
  | voted (result : Except String Unit)
  | quorum (decision : Option Bool)
  | saved
deriving DecidableEq

structure Reply where
  answer : Answer
  written : Option String := none
deriving DecidableEq

namespace KeyedEngine

variable (env : StoreEnv)

def saveIfPossible (k : KeyedEngine) : Option String :=
  if k.hmacKey = [] then none else saveGovernance env k.engine k.hmacKey

/-- The engine after a call, and what comes of it. -/
def call (k : KeyedEngine) : Call → KeyedEngine × Reply
  | .createProposal now createdAt uuid ptype target =>
    let created := k.engine.createProposal now createdAt uuid ptype target
    let k := { k with engine := created.1 }
    (k, { answer := .created created.2, written := k.saveIfPossible env })
  | .recordVote now proposalId voter approve =>
    let recorded := k.engine.recordVote now proposalId voter approve
    let k := { k with engine := recorded.1 }
    match recorded.2 with
    | .ok () => (k, { answer := .voted (.ok ()), written := k.saveIfPossible env })
    | .error e => (k, { answer := .voted (.error e) })
  | .checkQuorum proposalId timeoutSecs now =>
    (k, { answer := .quorum (k.engine.checkQuorum proposalId timeoutSecs now) })
  | .save => (k, { answer := .saved, written := k.saveIfPossible env })

def replies (k : KeyedEngine) : List Call → List Reply
  | [] => []
  | c :: calls => (k.call env c).2 :: (k.call env c).1.replies calls

end KeyedEngine

/-- The engines there are: new ones, those that calls leave, and those that a restart
    builds from the snapshot of another. -/
inductive Reachable : GovernanceEngine → Prop where
  | new (supernodes : List String) (ratio : ℚ) (now : UInt64) :
      Reachable (new supernodes ratio now)
  | apply {e : GovernanceEngine} (he : Reachable e) (op : Op) : Reachable (apply e op)
  | restored {e : GovernanceEngine} (he : Reachable e) (now : UInt64) :
      Reachable ((GovernanceEngine.new [] (33 / 50) now).restoreFromSnapshot e.snapshot)

section Restore

/-- Every proposal is filed under its own identifier. -/
def Keyed (e : GovernanceEngine) : Prop :=
  ∀ (pid : String) (p : Proposal), e.proposals[pid]? = some p → p.proposalId = pid

variable {e : GovernanceEngine}

theorem Keyed.of_map {e' : GovernanceEngine} (h : Keyed e)
    (hmap : ∀ pid : String, (e'.proposals[pid]?).map Proposal.proposalId
      = (e.proposals[pid]?).map Proposal.proposalId) : Keyed e' := by
  intro pid p hp
  have hsame := hmap pid
  rw [hp, Option.map_some] at hsame
  rcases Option.map_eq_some_iff.mp hsame.symm with ⟨q, hq, hid⟩
  rw [← hid]
  exact h pid q hq

theorem keyed_apply (h : Keyed e) (op : Op) : Keyed (apply e op) := by
  cases op with
  | createProposal now createdAt uuid ptype target =>
    intro pid p hp
    rw [apply, createProposal_eq] at hp
    rcases FinMap.find_insert_eq_some.mp hp with ⟨rfl, rfl⟩ | ⟨-, hold⟩
    · rfl
    · exact h pid p hold
  | recordVote now pid voter approve =>
    exact h.of_map (map_recordVote _ (fun _ _ => rfl) e now pid voter approve)
  | markExecuted now pid => exact h.of_map (map_markExecuted _ (fun _ _ => rfl) e now pid)
  | updateSupernodes now newList =>
    exact h.of_map fun pid => by rw [updateSupernodes_proposals]

theorem foldl_insert_toList (h : Keyed e) :
    (e.proposals.toList.map Prod.snd).foldl (fun m p => m.insert p.proposalId p) ∅
      = e.proposals := by
  have hfold : ∀ (es : List (String × Proposal)) (m : FinMap String Proposal),
      (∀ entry ∈ es, entry.2.proposalId = entry.1) →
        (es.map Prod.snd).foldl (fun m p => m.insert p.proposalId p) m
          = es.foldl (fun m entry => m.insert entry.1 entry.2) m := by
    intro es
    induction es with
    | nil => exact fun _ _ => rfl
    | cons entry es ih =>
      intro m hes
      rw [List.map_cons, List.foldl_cons, List.foldl_cons, hes entry (by simp)]
      exact ih _ fun other hother => hes other (List.mem_cons_of_mem entry hother)
  rw [hfold _ _ fun entry hentry => h entry.1 entry.2 ((FinMap.mem_toList _ _ _).mp hentry)]
  refine ext_getElem? fun a => ?_
  rw [FinMap.find_foldl_insert, getElem?_empty, Option.or_none]

theorem keyed_restoreFromSnapshot (h : Keyed e) (s : GovernanceSnapshot) :
    Keyed (e.restoreFromSnapshot s) := by
  rcases s with ⟨proposals, ratio, exited⟩
  have hfold : ∀ (ps : List Proposal) (m : FinMap String Proposal),
      (∀ (pid : String) (p : Proposal), m[pid]? = some p → p.proposalId = pid) →
        ∀ (pid : String) (p : Proposal),
          (ps.foldl (fun m p => m.insert p.proposalId p) m)[pid]? = some p →
          p.proposalId = pid := by
    intro ps
    induction ps with
    | nil => exact fun m hm => hm
    | cons q ps ih =>
      intro m hm
      refine ih _ fun pid p hp => ?_
      rcases FinMap.find_insert_eq_some.mp hp with ⟨hid, rfl⟩ | ⟨-, hold⟩
      · exact hid
      · exact hm pid p hold
  exact hfold proposals e.proposals h

theorem keyed_new (supernodes : List String) (ratio : ℚ) (now : UInt64) :
    Keyed (new supernodes ratio now) := by
  intro pid p hp
  rw [new, getElem?_empty] at hp
  exact absurd hp (by simp)

theorem keyed_of_reachable (h : Reachable e) : Keyed e := by
  induction h with
  | new supernodes ratio now => exact keyed_new supernodes ratio now
  | apply _ op ih => exact keyed_apply ih op
  | restored _ now _ => exact keyed_restoreFromSnapshot (keyed_new _ _ now) _

/-- The engine that a restart builds: the proposals, the ratio and the flag are the old
    ones, and the rest is that of a new engine without supernodes. -/
theorem restored_eq (h : Keyed e) (now : UInt64) :
    (new [] (33 / 50) now).restoreFromSnapshot e.snapshot
      = { e with supernodes := ∅, isBootstrapMode := true, bootstrapDeadline := now + 3600 } := by
  unfold restoreFromSnapshot snapshot new
  dsimp only
  rw [foldl_insert_toList h]
  rfl

theorem loadGovernance_saveGovernance {env : StoreEnv} (h : Keyed e) {key : List UInt8}
    (hkey : key ≠ []) {json : String}
    (hjson : env.snapshotJson e.snapshot = .ok json)
    (hread : env.readSnapshot json = some e.snapshot)
    (henvelope : env.readEnvelope (env.envelopeJson json (computeGovernanceHmac env json key))
      = some (json, computeGovernanceHmac env json key)) (now : UInt64) :
    loadGovernance env now (saveGovernance env e key) key
      = some
        { engine :=
            { e with
              supernodes := ∅, isBootstrapMode := true, bootstrapDeadline := now + 3600 } } := by
  unfold saveGovernance
  rw [if_neg hkey, hjson]
  unfold loadGovernance
  dsimp only
  rw [henvelope]
  dsimp only
  rw [if_pos rfl, hread, Option.map_some, restored_eq h]

end Restore

section Restart

/-- Calls that leave an engine as it is, but for the deadline check, and write nothing:
    the quorum test, and votes that are refused. -/
def Quiet (e : GovernanceEngine) : Call → Prop
  | .checkQuorum _ _ _ => True
  | .recordVote _ pid voter _ => ¬ Recordable e pid voter
  | .createProposal _ _ _ _ _ => False
  | .save => False

/-- What a restart leaves of an engine with a key. -/
structure Diminished (k l : KeyedEngine) : Prop where
  proposals : l.engine.proposals = k.engine.proposals
  quorumRatio : l.engine.quorumRatio = k.engine.quorumRatio
  supernodes : l.engine.supernodes = ∅
  key : k.hmacKey ≠ []
  keyless : l.hmacKey = []

variable {env : StoreEnv} {k l : KeyedEngine}

/-- Why a vote is refused, if it is. -/
def refusal : Option Proposal → String
  | none => "proposal not found"
  | some p => if p.executed then "already executed" else "voter is not a supernode"

theorem recordVote_refused {e : GovernanceEngine} {pid voter : String}
    (h : ¬ Recordable e pid voter) (now : UInt64) (approve : Bool) :
    e.recordVote now pid voter approve
      = (e.evaluateBootstrap now, .error (refusal e.proposals[pid]?)) := by
  unfold recordVote refusal
  simp only [evaluateBootstrap_proposals, evaluateBootstrap_supernodes]
  cases hp : e.proposals[pid]? with
  | none => rfl
  | some p =>
    dsimp only
    by_cases hexec : p.executed = true
    · rw [if_pos hexec, if_pos hexec]
    · have hv : voter ∉ e.supernodes := fun hv =>
        h ⟨p, hp, Bool.eq_false_of_not_eq_true hexec, hv⟩
      rw [if_neg hexec, if_pos hv, if_neg hexec]

theorem Diminished.not_recordable (h : Diminished k l) (pid voter : String) :
    ¬ Recordable l.engine pid voter := by
  rintro ⟨p, -, -, hv⟩
  rw [h.supernodes] at hv
  exact absurd hv (Finset.notMem_empty voter)

theorem Diminished.checkQuorum (h : Diminished k l) (pid : String) (timeoutSecs now : UInt64) :
    l.engine.checkQuorum pid timeoutSecs now = k.engine.checkQuorum pid timeoutSecs now := by
  unfold GovernanceEngine.checkQuorum
  rw [h.proposals, h.quorumRatio]

/-- A quiet call gets the same reply from both, and leaves them as they were to each
    other and to later calls. -/
theorem Diminished.call (env : StoreEnv) (h : Diminished k l) {c : Call} (hc : Quiet k.engine c) :
    (l.call env c).2 = (k.call env c).2 ∧ Diminished (k.call env c).1 (l.call env c).1 ∧
      ∀ c', Quiet (k.call env c).1.engine c' ↔ Quiet k.engine c' := by
  cases c with
  | createProposal now createdAt uuid ptype target => exact absurd hc id
  | save => exact absurd hc id
  | checkQuorum pid timeoutSecs now =>
    refine ⟨?_, h, fun c' => Iff.rfl⟩
    simp only [KeyedEngine.call, h.checkQuorum]
  | recordVote now pid voter approve =>
    have hk := recordVote_refused hc now approve
    have hl := recordVote_refused (h.not_recordable pid voter) now approve
    simp only [KeyedEngine.call, hk, hl]
    refine ⟨by rw [h.proposals], ⟨?_, ?_, ?_, h.key, h.keyless⟩, fun c' => ?_⟩
    · simpa using h.proposals
    · simpa using h.quorumRatio
    · simpa using h.supernodes
    · -- The deadline check has no say in whether a vote is taken.
      cases c' <;> simp [Quiet, Recordable]

open KeyedEngine

theorem Diminished.call_ne (h : Diminished k l)
    (hserialize : ∀ s, ∃ json, env.snapshotJson s = .ok json) {c : Call}
    (hc : ¬ Quiet k.engine c) : (l.call env c).2 ≠ (k.call env c).2 := by
  have hwrites : ∀ e, ∃ text,
      saveIfPossible env { k with engine := e } = some text := by
    intro e
    rcases hserialize e.snapshot with ⟨json, hjson⟩
    unfold saveIfPossible saveGovernance
    simp only [h.key, if_false, hjson]
    exact ⟨_, rfl⟩
  have hsilent : ∀ e, saveIfPossible env { l with engine := e } = none := by
    intro e
    unfold saveIfPossible
    rw [if_pos h.keyless]
  intro heq
  have hwritten := congrArg Reply.written heq
  cases c with
  | createProposal now createdAt uuid ptype target =>
    rcases hwrites (k.engine.createProposal now createdAt uuid ptype target).1 with ⟨text, htext⟩
    simp only [KeyedEngine.call, hsilent, htext] at hwritten
    exact absurd hwritten (by simp)
  | save =>
    rcases hwrites k.engine with ⟨text, htext⟩
    simp only [KeyedEngine.call, hsilent l.engine, htext] at hwritten
    exact absurd hwritten (by simp)
  | checkQuorum pid timeoutSecs now => exact hc trivial
  | recordVote now pid voter approve =>
    have hok := (recordVote_eq_ok_iff k.engine now pid voter approve).mpr (not_not.mp hc)
    have hl := recordVote_refused (h.not_recordable pid voter) now approve
    rcases hwrites (k.engine.recordVote now pid voter approve).1 with ⟨text, htext⟩
    simp only [KeyedEngine.call, hok, hl, htext] at hwritten
    exact absurd hwritten (by simp)

theorem Diminished.replies_iff (h : Diminished k l)
    (hserialize : ∀ s, ∃ json, env.snapshotJson s = .ok json) (calls : List Call) :
    l.replies env calls = k.replies env calls ↔ ∀ c ∈ calls, Quiet k.engine c := by
  induction calls generalizing k l with
  | nil => simp [replies]
  | cons c calls ih =>
    rw [replies, replies, List.cons.injEq, List.forall_mem_cons]
    by_cases hc : Quiet k.engine c
    · rcases h.call env hc with ⟨hreply, hnext, hquiet⟩
      rw [ih hnext]
      simp only [hreply, hc, hquiet, true_and]
    · exact iff_of_false (fun heq => h.call_ne hserialize hc heq.1) fun hall => hc hall.1

end Restart

/-- An engine with a key is saved, and loaded again under that key. The engine that is
    loaded returns and writes the same as the one that was saved exactly as long as the
    calls are quorum tests, and votes that the engine that was saved refuses. -/
theorem restart_same_iff (env : StoreEnv) (e : GovernanceEngine) (he : Reachable e)
    (key : List UInt8) (hkey : key ≠ [])
    (hserialize : ∀ s, ∃ json, env.snapshotJson s = .ok json)
    (hread : ∀ json, env.snapshotJson e.snapshot = .ok json →
      env.readSnapshot json = some e.snapshot)
    (henvelope : ∀ json, env.snapshotJson e.snapshot = .ok json →
      env.readEnvelope (env.envelopeJson json (computeGovernanceHmac env json key))
        = some (json, computeGovernanceHmac env json key)) (now : UInt64) :
    ∃ loaded, loadGovernance env now (saveGovernance env e key) key = some loaded ∧
      ∀ calls, loaded.replies env calls
          = ({ engine := e, hmacKey := key } : KeyedEngine).replies env calls ↔
        ∀ c ∈ calls, Quiet e c := by
  rcases hserialize e.snapshot with ⟨json, hjson⟩
  have hload := loadGovernance_saveGovernance (keyed_of_reachable he) hkey hjson
    (hread json hjson) (henvelope json hjson) now
  refine ⟨_, hload, fun calls => ?_⟩
  have hdim : Diminished { engine := e, hmacKey := key }
      { engine :=
          { e with
            supernodes := ∅, isBootstrapMode := true, bootstrapDeadline := now + 3600 } } :=
    ⟨rfl, rfl, rfl, hkey, rfl⟩
  exact hdim.replies_iff hserialize calls

/-- An engine of two supernodes with one open proposal. -/
def savedEngine : GovernanceEngine :=
  apply (new ["sn1", "sn2"] (2 / 3) 0) (.createProposal 0 0 "0001" (.activatePeer "eve") "eve")

def savedPid : String := "ActivatePeer(\"eve\")-eve-0001"

/-- A stand-in for the file, which holds that engine. -/
def savedEnv : StoreEnv where
  snapshotJson _ := .ok "snapshot"
  readSnapshot _ := some savedEngine.snapshot
  hmacHex _ _ := "code"
  envelopeJson _ _ := "file"
  readEnvelope _ := some ("snapshot", "code")

/-- While only strangers vote, the restart goes unnoticed. -/
theorem strangers_vote_after_restart :
    ∃ loaded, loadGovernance savedEnv 100 (saveGovernance savedEnv savedEngine [1]) [1]
        = some loaded ∧
      loaded.replies savedEnv [.checkQuorum savedPid 600 110, .recordVote 120 savedPid "eve" true]
        = ({ engine := savedEngine, hmacKey := [1] } : KeyedEngine).replies savedEnv
          [.checkQuorum savedPid 600 110, .recordVote 120 savedPid "eve" true] := by
  have hread : ∀ json, savedEnv.snapshotJson savedEngine.snapshot = .ok json →
      savedEnv.readSnapshot json = some savedEngine.snapshot := fun _ _ => rfl
  have henvelope : ∀ json, savedEnv.snapshotJson savedEngine.snapshot = .ok json →
      savedEnv.readEnvelope (savedEnv.envelopeJson json (computeGovernanceHmac savedEnv json [1]))
        = some (json, computeGovernanceHmac savedEnv json [1]) := by
    intro json hjson
    rw [← Except.ok.inj hjson]
    rfl
  rcases restart_same_iff savedEnv savedEngine (.apply (.new _ _ _) _) [1] (by simp)
    (fun _ => ⟨_, rfl⟩) hread henvelope 100 with ⟨loaded, hload, hsame⟩
  refine ⟨loaded, hload, (hsame _).mpr ?_⟩
  intro c hc
  rcases List.mem_cons.mp hc with rfl | hc
  · exact trivial
  · rw [List.mem_singleton.mp hc]
    rintro ⟨p, -, -, hv⟩
    have hout : "eve" ∉ savedEngine.supernodes := by decide +kernel
    exact hout hv

/-- After a restart a supernode's vote is refused, a proposal is executed without one,
    and nothing is written. -/
theorem restart_forgets :
    ∃ loaded, loadGovernance savedEnv 100 (saveGovernance savedEnv savedEngine [1]) [1]
        = some loaded ∧
      ({ engine := savedEngine, hmacKey := [1] } : KeyedEngine).replies savedEnv
          [.recordVote 120 savedPid "sn1" true, .save]
        = [⟨.voted (.ok ()), some "file"⟩, ⟨.saved, some "file"⟩] ∧
      loaded.replies savedEnv [.recordVote 120 savedPid "sn1" true, .save]
        = [⟨.voted (.error "voter is not a supernode"), none⟩, ⟨.saved, none⟩] ∧
      loaded.engine.Bootstrapping 130 ∧ ¬ savedEngine.Bootstrapping 130 := by
  have hkeyed : Keyed savedEngine := keyed_of_reachable (.apply (.new _ _ _) _)
  refine ⟨_, loadGovernance_saveGovernance hkeyed (by simp) rfl rfl rfl 100, ?_, ?_, ?_, ?_⟩
  · decide +kernel
  · decide +kernel
  · decide +kernel
  · decide +kernel

end Governance

end EssNode
