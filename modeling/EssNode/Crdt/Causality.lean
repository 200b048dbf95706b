import EssNode.Crdt.WorldState

/-!
# Vector Clocks and Causality

The integer map a node carries decides which of its events another node has seen.

A clock entry counts ticks, and only the node it is named after adds to it. In
terms of histories the entry is the tally of that node's ticks (`Clocked`), and
since what a history knows of one node is an initial segment of what the node
did, comparing the numbers compares the sets. That is the content of
`clock_le_iff`.

Writing a peer's entry ticks the clock, so a state whose clock is at least
another's has seen every write the other has. The registry keeps the newest write
it has seen (`Registered`), hence an entry at least as new.
-/

namespace EssNode

namespace Crdt

open Replication CrdtWorldState

variable {n : Nat}

/-- How often an operation ticks the clock. -/
def CrdtOp.ticks : CrdtOp → Nat
  | .tick => 1
  | .updatePeer .. => 1
  | _ => 0

/-- The registry entry an operation writes, with its time. -/
def CrdtOp.written : CrdtOp → Option (PeerEntry × Nat)
  | .updatePeer peerId role connected trusted ts _ _ =>
    some (peerEntry peerId role connected trusted ts, ts)
  | _ => none

variable {op : CrdtOp} {x : PeerEntry × Nat} (env : CrdtEnv) (s : CrdtWorldState)
  (name : Fin n → String) (started₁ started₂ : Fin n → Nat) {w : World n CrdtWorldState CrdtOp}
  (now : Nat)

theorem CrdtOp.ticks_of_written {e : PeerEntry × Nat} (h : op.written = some e) :
    0 < op.ticks := by
  cases op with
  | updatePeer => exact Nat.one_pos
  | _ => exact absurd h (by simp only [CrdtOp.written, reduceCtorEq, not_false_eq_true])

/-- Clock entries are tallies of ticks, and only replicas have one. -/
structure Clocked (name : Fin n → String) (s : Snapshot n CrdtWorldState CrdtOp) : Prop where
  entry : ∀ r, s.state.clockAt (name r) = tally CrdtOp.ticks r s.known
  named : ∀ node, s.state.clockAt node ≠ 0 → ∃ r, node = name r

theorem clockAt_perform (op : CrdtOp) (node : String) :
    (op.perform env s).clockAt node
      = if s.nodeId = node then s.clockAt node + op.ticks else s.clockAt node := by
  cases op with
  | tick => exact clockAt_tick s node
  | updatePeer => exact clockAt_tick s node
  | increment => exact (ite_self _).symm
  | addAsset => exact (ite_self _).symm
  | removeAsset => exact (ite_self _).symm
  | setNetworkStatus => exact (ite_self _).symm
  | setGhostState => exact (ite_self _).symm

theorem clocked_perform (hname : Function.Injective name) (started₁ started₂ : Fin n → Nat)
    (w : World n CrdtWorldState CrdtOp) (r : Fin n) (op : CrdtOp) (h : WellFormed w)
    (hid : (w.current r).state.nodeId = name r) (hinv : Clocked name (w.current r)) :
    Clocked name ((crdtSystem env name started₁ started₂).performed w r op) := by
  have hfresh : w.event r op ∉ (w.current r).known :=
    fun hmem => World.event_notMem h r op (h.known_issued _ (h.current_mem r) hmem)
  refine ⟨fun q => ?_, fun node hne => ?_⟩
  -- An operation ticks the entry under its replica's own name only.
  · change (op.perform env (w.current r).state).clockAt (name q)
      = tally CrdtOp.ticks q (insert (w.event r op) (w.current r).known)
    rw [clockAt_perform, tally_insert CrdtOp.ticks q hfresh, hid, hinv.entry q]
    by_cases hq : r = q
    · rw [if_pos (congrArg name hq), if_pos (show (w.event r op).replica = q from hq)]
      rfl
    · rw [if_neg (fun heq => hq (hname heq)), if_neg (show ¬ (w.event r op).replica = q from hq)]
  · change (op.perform env (w.current r).state).clockAt node ≠ 0 at hne
    rw [clockAt_perform, hid] at hne
    by_cases hnode : name r = node
    · exact ⟨r, hnode.symm⟩
    · rw [if_neg hnode] at hne
      exact hinv.named node hne

theorem clocked_merge {s t : Snapshot n CrdtWorldState CrdtOp} (hs : s ∈ w.past) (ht : t ∈ w.past)
    (h : WellFormed w) (hsinv : Clocked name s) (htinv : Clocked name t) :
    Clocked name ((crdtSystem env name started₁ started₂).merged now s t) := by
  refine ⟨fun q => ?_, fun node hne => ?_⟩
  · change (merge env now s.state t.state).clockAt (name q)
      = tally CrdtOp.ticks q (s.known ∪ t.known)
    rw [clockAt_merge, tally_union h hs ht, hsinv.entry, htinv.entry]
  · change (merge env now s.state t.state).clockAt node ≠ 0 at hne
    rw [clockAt_merge] at hne
    by_cases hzero : s.state.clockAt node = 0
    · refine htinv.named node (fun htzero => hne ?_)
      rw [hzero, htzero, Nat.max_self]
    · exact hsinv.named node hzero

theorem clocked_run (hname : Function.Injective name) (started₁ started₂ : Fin n → Nat)
    (acts : List (Action n CrdtOp Nat)) :
    ∀ s ∈ ((crdtSystem env name started₁ started₂).run acts).past, Clocked name s := by
  refine snapshot_inv (crdtSystem env name started₁ started₂) (fun _ _ _ => True) (Clocked name)
    ?_ ?_ ?_ acts (fun _ _ _ _ _ => trivial)
  · intro r
    -- The first clock has one entry, and it reads zero.
    have hzero : ∀ node, ((crdtSystem env name started₁ started₂).init r).clockAt node = 0 := by
      intro node
      change (((∅ : FinMap String Nat).insert (name r) 0)[node]?).getD 0 = 0
      rw [FinMap.find_insert, Std.ExtTreeMap.getElem?_empty]
      by_cases hnode : name r = node
      · rw [if_pos hnode, Option.getD_some]
      · rw [if_neg hnode, Option.getD_none]
    exact ⟨fun q => (hzero (name q)).trans (tally_empty _ q).symm,
      fun node hne => absurd (hzero node) hne⟩
  · intro acts r op _ hall _
    have hwf := run_wellFormed (crdtSystem env name started₁ started₂) acts
    exact clocked_perform env name hname started₁ started₂ _ r op hwf
      (run_nodeId env name started₁ started₂ acts r) (hall _ (hwf.current_mem r))
  · intro acts now _ hall s hs t ht
    exact clocked_merge env name started₁ started₂ now hs ht (run_wellFormed _ acts)
      (hall s hs) (hall t ht)

theorem clock_le_iff (h : WellFormed w) (name : Fin n → String)
    {a b : Snapshot n CrdtWorldState CrdtOp} (ha : a ∈ w.past) (hb : b ∈ w.past)
    (hainv : Clocked name a) (hbinv : Clocked name b) :
    (∀ node, a.state.clockAt node ≤ b.state.clockAt node) ↔
      ∀ e ∈ a.known, 0 < e.op.ticks → e ∈ b.known := by
  constructor
  · intro hle e he hticks
    have hentry := hle (name e.replica)
    rw [hainv.entry, hbinv.entry, tally_le_iff h ha hb] at hentry
    exact hentry e he rfl hticks
  · -- An entry that is not zero belongs to a replica, whose ticks are compared.
    intro hsub node
    by_cases hzero : a.state.clockAt node = 0
    · rw [hzero]
      exact Nat.zero_le _
    · rcases hainv.named node hzero with ⟨r, rfl⟩
      rw [hainv.entry, hbinv.entry, tally_le_iff h ha hb]
      exact fun e he _ hticks => hsub e he hticks

theorem peers_perform_cases {env : CrdtEnv} {s : CrdtWorldState} {p : String}
    (h : (op.perform env s).peers.entries[p]? = some x) :
    s.peers.entries[p]? = some x ∨ (op.written = some x ∧ x.1.peerId = p) := by
  cases op with
  | updatePeer peerId role connected trusted ts insertedAt recordedAt =>
    rcases PeerRegistry.find_upsert_cases h with hold | ⟨hpeer, hx⟩
    · exact Or.inl hold
    · rw [hx]
      exact Or.inr ⟨rfl, hpeer⟩
  | _ => exact Or.inl h

theorem peers_perform_mono {s : CrdtWorldState} (op : CrdtOp) {p : String}
    (h : s.peers.entries[p]? = some x) :
    ∃ kept, (op.perform env s).peers.entries[p]? = some kept ∧ x.2 ≤ kept.2 := by
  cases op with
  | updatePeer peerId role connected trusted ts insertedAt recordedAt =>
    exact PeerRegistry.find_upsert_mono (peerEntry peerId role connected trusted ts) ts h
  | _ => exact ⟨x, h, le_refl _⟩

theorem peers_perform_written (h : op.written = some x) :
    ∃ kept, (op.perform env s).peers.entries[x.1.peerId]? = some kept ∧ x.2 ≤ kept.2 := by
  cases op with
  | updatePeer peerId role connected trusted ts insertedAt recordedAt =>
    rw [← Option.some.inj h]
    exact PeerRegistry.find_upsert_self s.peers (peerEntry peerId role connected trusted ts) ts
  | _ => exact absurd h (by simp only [CrdtOp.written, reduceCtorEq, not_false_eq_true])

/-- Registry entries are writes of the history, and the newest for each peer. -/
structure Registered (s : Snapshot n CrdtWorldState CrdtOp) : Prop where
  fromWrite : ∀ p w, s.state.peers.entries[p]? = some w →
    ∃ e ∈ s.known, e.op.written = some w ∧ w.1.peerId = p
  newest : ∀ e ∈ s.known, ∀ w, e.op.written = some w →
    ∃ kept, s.state.peers.entries[w.1.peerId]? = some kept ∧ w.2 ≤ kept.2

theorem registered_perform (w : World n CrdtWorldState CrdtOp) (r : Fin n) (op : CrdtOp)
    (hinv : Registered (w.current r)) :
    Registered ((crdtSystem env name started₁ started₂).performed w r op) := by
  refine ⟨fun p x hx => ?_, fun e he x hx => ?_⟩
  · rcases peers_perform_cases hx with hold | ⟨hwritten, hpeer⟩
    · rcases hinv.fromWrite p x hold with ⟨e, he, hop, hpeer⟩
      exact ⟨e, Finset.mem_insert_of_mem he, hop, hpeer⟩
    · exact ⟨w.event r op, Finset.mem_insert_self _ _, hwritten, hpeer⟩
  · rcases Finset.mem_insert.mp he with rfl | he
    · exact peers_perform_written env (w.current r).state hx
    · -- An old write is covered by an entry that this operation at most renews.
      rcases hinv.newest e he x hx with ⟨old, hold, hle⟩
      rcases peers_perform_mono env op hold with ⟨kept, hkept, hnewer⟩
      exact ⟨kept, hkept, hle.trans hnewer⟩

theorem registered_merge {s t : Snapshot n CrdtWorldState CrdtOp} (hsinv : Registered s)
    (htinv : Registered t) :
    Registered ((crdtSystem env name started₁ started₂).merged now s t) := by
  refine ⟨fun p x hx => ?_, fun e he x hx => ?_⟩
  · rcases PeerRegistry.find_merge_cases hx with hmem | hmem
    · rcases hsinv.fromWrite p x hmem with ⟨e, he, hop, hpeer⟩
      exact ⟨e, Finset.mem_union_left _ he, hop, hpeer⟩
    · rcases htinv.fromWrite p x hmem with ⟨e, he, hop, hpeer⟩
      exact ⟨e, Finset.mem_union_right _ he, hop, hpeer⟩
  · -- The side that knows the write covers it, and the merge is no older.
    have hside : ∃ old : PeerEntry × Nat, (s.state.peers.entries[x.1.peerId]? = some old ∨
        t.state.peers.entries[x.1.peerId]? = some old) ∧ x.2 ≤ old.2 := by
      rcases Finset.mem_union.mp he with he | he
      · rcases hsinv.newest e he x hx with ⟨old, hold, hle⟩
        exact ⟨old, Or.inl hold, hle⟩
      · rcases htinv.newest e he x hx with ⟨old, hold, hle⟩
        exact ⟨old, Or.inr hold, hle⟩
    rcases hside with ⟨old, hold, hle⟩
    rcases PeerRegistry.find_merge_mono hold with ⟨kept, hkept, hnewer⟩
    exact ⟨kept, hkept, hle.trans hnewer⟩

theorem registered_run (acts : List (Action n CrdtOp Nat)) :
    ∀ s ∈ ((crdtSystem env name started₁ started₂).run acts).past, Registered s := by
  refine snapshot_inv (crdtSystem env name started₁ started₂) (fun _ _ _ => True) Registered
    ?_ ?_ ?_ acts (fun _ _ _ _ _ => trivial)
  · intro r
    refine ⟨fun p x hx => ?_, fun e he => absurd he (Finset.notMem_empty e)⟩
    change (∅ : FinMap String (PeerEntry × Nat))[p]? = some x at hx
    rw [Std.ExtTreeMap.getElem?_empty] at hx
    cases hx
  · intro acts r op _ hall _
    have hwf := run_wellFormed (crdtSystem env name started₁ started₂) acts
    exact registered_perform env name started₁ started₂ _ r op (hall _ (hwf.current_mem r))
  · intro acts now _ hall s hs t ht
    exact registered_merge env name started₁ started₂ now (hall s hs) (hall t ht)

/-- Vector clocks characterise causality. For any two states that occur in a run
    of replicas with distinct names, one clock is pointwise at most the other
    exactly when the other's history has every tick of the first's, and then the
    other's registry has an entry at least as new for each of the first's
    peers. -/
theorem clock_characterises_causality (env : CrdtEnv) (name : Fin n → String)
    (hname : Function.Injective name) (started₁ started₂ : Fin n → Nat)
    (acts : List (Action n CrdtOp Nat)) (a b : Snapshot n CrdtWorldState CrdtOp)
    (ha : a ∈ ((crdtSystem env name started₁ started₂).run acts).past)
    (hb : b ∈ ((crdtSystem env name started₁ started₂).run acts).past) :
    ((∀ node, a.state.clockAt node ≤ b.state.clockAt node) ↔
      ∀ e ∈ a.known, 0 < e.op.ticks → e ∈ b.known) ∧
    ((∀ node, a.state.clockAt node ≤ b.state.clockAt node) →
      ∀ (p : String) (x : PeerEntry × Nat), a.state.peers.entries[p]? = some x →
        ∃ y : PeerEntry × Nat, b.state.peers.entries[p]? = some y ∧ x.2 ≤ y.2) := by
  have hwf := run_wellFormed (crdtSystem env name started₁ started₂) acts
  have hclocked := clocked_run env name hname started₁ started₂ acts
  have hregistered := registered_run env name started₁ started₂ acts
  have hiff := clock_le_iff hwf name ha hb (hclocked a ha) (hclocked b hb)
  refine ⟨hiff, fun hle p x hx => ?_⟩
  -- The entry is a write, writes tick, and so the write is known to the other.
  rcases (hregistered a ha).fromWrite p x hx with ⟨e, he, hop, hpeer⟩
  have heb := hiff.mp hle e he (CrdtOp.ticks_of_written hop)
  rcases (hregistered b hb).newest e heb x hop with ⟨y, hy, hxy⟩
  rw [hpeer] at hy
  exact ⟨y, hy, hxy⟩

def twoNodesRun : List (Action 2 CrdtOp Nat) :=
  [.perform first (.updatePeer "peer-1" "client" true false 10 11 0), .perform second .tick,
   .receive second 2 0]

/-- The second node then knows the first's tick, and its registry has the peer. -/
theorem twoNodes_causality :
    Function.Injective pairName ∧ ∀ env : CrdtEnv,
      (∀ node, (((pairSystem env).run twoNodesRun).current first).state.clockAt node
          ≤ (((pairSystem env).run twoNodesRun).current second).state.clockAt node) ∧
        ∃ y : PeerEntry × Nat,
          (((pairSystem env).run twoNodesRun).current second).state.peers.entries["peer-1"]?
              = some y ∧
            10 ≤ y.2 := by
  have hinj : Function.Injective pairName := by decide
  refine ⟨hinj, fun env => ?_⟩
  have hwf := run_wellFormed (pairSystem env) twoNodesRun
  have h := clock_characterises_causality env pairName hinj (fun _ => 0) (fun _ => 0) twoNodesRun
    _ _ (hwf.current_mem first) (hwf.current_mem second)
  have hknown : ∀ e ∈ (((pairSystem env).run twoNodesRun).current first).known, 0 < e.op.ticks →
      e ∈ (((pairSystem env).run twoNodesRun).current second).known := by
    have hall : ∀ e ∈ (((pairSystem env).run twoNodesRun).current first).known,
        e ∈ (((pairSystem env).run twoNodesRun).current second).known := by
      change ∀ e ∈ ({⟨0, 0, .updatePeer "peer-1" "client" true false 10 11 0, ∅⟩} :
        Finset (Event 2 CrdtOp)), e ∈ ({⟨1, 1, .tick, ∅⟩,
          ⟨0, 0, .updatePeer "peer-1" "client" true false 10 11 0, ∅⟩} : Finset (Event 2 CrdtOp))
      decide
    exact fun e he _ => hall e he
  have hle := h.1.mpr hknown
  exact ⟨hle, h.2 hle "peer-1" (peerEntry "peer-1" "client" true false 10, 10) rfl⟩

end Crdt

end EssNode
