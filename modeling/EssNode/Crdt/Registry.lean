import EssNode.Crdt.Causality

/-!
# The Registry and its History

What the peer registry of a replica has to do with the writes that went into it.

An update writes an entry and puts the peer into the set of known peers. The two are merged
by different rules: the registry takes the newer entry, the set keeps its own time. Still a
peer has an entry exactly if it is known, and exactly if the history of the state has a write
for it. The entry is one of those writes, and none of them is newer (`Registered`).

It does not matter for this who wrote, what else the replicas do, or how often and in what
order old states are merged.
-/

namespace EssNode

open Std.ExtTreeMap

namespace Crdt

open Replication CrdtWorldState

variable {n : Nat} (self : PeerRegistry) (env : CrdtEnv)

/-- Known are the peers with an entry. -/
def Listed (s : CrdtWorldState) : Prop :=
  ∀ p, p ∈ s.peers.entries ↔ p ∈ s.knownPeerIds.items

theorem PeerRegistry.mem_upsert (entry : PeerEntry) (ts : Nat) (p : String) :
    p ∈ (self.upsert entry ts).entries ↔ entry.peerId = p ∨ p ∈ self.entries := by
  rw [mem_iff_isSome_getElem?, mem_iff_isSome_getElem?, find_upsert]
  by_cases hp : entry.peerId = p
  · obtain ⟨kept, hkept, -⟩ := newer_spec (entry, ts) self.entries[p]?
    rw [if_pos hp, hkept]
    exact ⟨fun _ => Or.inl hp, fun _ => rfl⟩
  · rw [if_neg hp]
    exact ⟨Or.inr, fun h => h.resolve_left hp⟩

theorem PeerRegistry.mem_merge (other : PeerRegistry) (p : String) :
    p ∈ (self.merge other).entries ↔ p ∈ self.entries ∨ p ∈ other.entries := by
  rw [mem_iff_isSome_getElem?, mem_iff_isSome_getElem?,
    mem_iff_isSome_getElem?, find_merge]
  cases hother : other.entries[p]? with
  | none => exact ⟨Or.inl, fun h => h.resolve_right Bool.false_ne_true⟩
  | some e =>
    obtain ⟨kept, hkept, -⟩ := newer_spec e self.entries[p]?
    dsimp only
    rw [hkept]
    exact ⟨fun _ => Or.inr rfl, fun _ => rfl⟩

theorem listed_perform {s : CrdtWorldState} (hs : Listed s) (op : CrdtOp) :
    Listed (op.perform env s) := by
  cases op with
  | updatePeer peerId role connected trusted ts insertedAt recordedAt =>
    intro p
    have hset : p ∈ (s.knownPeerIds.insert peerId insertedAt).items ↔
        peerId = p ∨ p ∈ s.knownPeerIds.items := by
      rw [mem_iff_isSome_getElem?, mem_iff_isSome_getElem?,
        GSet.find_insert]
      by_cases hp : peerId = p <;> simp [hp]
    have hmem := s.peers.mem_upsert (peerEntry peerId role connected trusted ts) ts p
    exact hmem.trans ((or_congr Iff.rfl (hs p)).trans hset.symm)
  | tick | increment | addAsset | removeAsset | setNetworkStatus | setGhostState => exact hs

theorem listed_merge (now : Nat) {s t : CrdtWorldState} (hs : Listed s) (ht : Listed t) :
    Listed (merge env now s t) := by
  intro p
  have hset : p ∈ (s.knownPeerIds.merge t.knownPeerIds).items ↔
      p ∈ s.knownPeerIds.items ∨ p ∈ t.knownPeerIds.items := by
    rw [mem_iff_isSome_getElem?, mem_iff_isSome_getElem?,
      mem_iff_isSome_getElem?, GSet.find_merge, Option.isSome_or, Bool.or_eq_true]
  exact (s.peers.mem_merge t.peers p).trans ((or_congr (hs p) (ht p)).trans hset.symm)

theorem listed_run (name : Fin n → String) (started₁ started₂ : Fin n → Nat)
    (acts : List (Action n CrdtOp Nat)) :
    ∀ s ∈ ((crdtSystem env name started₁ started₂).run acts).past, Listed s.state := by
  refine snapshot_inv (crdtSystem env name started₁ started₂) (fun _ _ _ => True)
    (fun s => Listed s.state) (fun r p => ?_) ?_ ?_ acts (fun _ _ _ _ _ => trivial)
  · exact iff_of_false not_mem_empty not_mem_empty
  · intro acts r op _ hpast _
    have hcurrent := (run_wellFormed (crdtSystem env name started₁ started₂) acts).current_mem r
    exact listed_perform env (hpast _ hcurrent) op
  · intro acts m _ hpast s hs t ht
    exact listed_merge env m (hpast s hs) (hpast t ht)

/-- In every state of every run, the peers with an entry are the known peers, and those some
    write of the history is for. Each entry is filed under its own peer, it is a write of the
    history, and no write of the history for that peer is newer. -/
theorem registry_newest (env : CrdtEnv) (name : Fin n → String)
    (started₁ started₂ : Fin n → Nat) (acts : List (Action n CrdtOp Nat)) :
    ∀ s ∈ ((crdtSystem env name started₁ started₂).run acts).past,
      (∀ p, p ∈ s.state.peers.entries ↔ p ∈ s.state.knownPeerIds.items) ∧
      (∀ p, p ∈ s.state.peers.entries ↔
        ∃ d ∈ s.known, ∃ e, d.op.written = some e ∧ e.1.peerId = p) ∧
      ∀ p e, s.state.peers.entries[p]? = some e →
        e.1.peerId = p ∧ (∃ d ∈ s.known, d.op.written = some e) ∧
          ∀ d ∈ s.known, ∀ w, d.op.written = some w → w.1.peerId = p → w.2 ≤ e.2 := by
  intro s hs
  have hreg := registered_run env name started₁ started₂ acts s hs
  have hlisted := listed_run env name started₁ started₂ acts s hs
  refine ⟨hlisted, fun p => ⟨fun hp => ?_, ?_⟩, fun p e he => ?_⟩
  · obtain ⟨e, he⟩ := Option.isSome_iff_exists.mp (mem_iff_isSome_getElem?.mp hp)
    obtain ⟨d, hd, hdw, hfiled⟩ := hreg.fromWrite p e he
    exact ⟨d, hd, e, hdw, hfiled⟩
  · rintro ⟨d, hd, e, hdw, rfl⟩
    obtain ⟨kept, hkept, -⟩ := hreg.newest d hd e hdw
    rw [mem_iff_isSome_getElem?, hkept, Option.isSome_some]
  · obtain ⟨d, hd, hdw, hfiled⟩ := hreg.fromWrite p e he
    refine ⟨hfiled, ⟨d, hd, hdw⟩, fun d hd w hw hp => ?_⟩
    obtain ⟨kept, hkept, hle⟩ := hreg.newest d hd w hw
    rw [hp, he, Option.some.injEq] at hkept
    rw [hkept]
    exact hle

/-- The second of two nodes hears of a peer from the first, and lists it. -/
theorem twoNodes_registry :
    first ≠ second ∧ ∀ env : CrdtEnv,
      "peer-1" ∈ (((pairSystem env).run twoNodesRun).current second).state.knownPeerIds.items := by
  refine ⟨by decide, fun env => ?_⟩
  have hwf := run_wellFormed (pairSystem env) twoNodesRun
  have hregistry := registry_newest env pairName (fun _ => 0) (fun _ => 0) twoNodesRun _
    (hwf.current_mem second)
  exact (hregistry.1 "peer-1").mp rfl

end Crdt

end EssNode
