import EssNode.Crdt.WorldState

/-!
# When Replicas Converge

Two replicas that take in each other's states should end in the same state. This says exactly
when they do.

Three merges do not decide every tie. The known-peers set keeps its own time for an item both
sides have, the registry keeps its own entry when the times are equal, and a register keeps its
own value when time and writer are equal. The other four components agree unconditionally: the
clock and the counter take maxima, and membership in the asset set is symmetric.

So the exchange agrees exactly when the two states hold no such tie (`Compatible`,
`exchange_agrees_iff`). Over a run, ties are avoided by how writes are stamped: a node that
first learns of a peer stamps it as every other node that knows it did, and no two different
entries or values share a stamp (`Unambiguous`). In a run that keeps to this, any two states
that ever occur are compatible (`compatible_run`).
-/

namespace EssNode

open Option Std.ExtTreeMap

namespace Crdt

open Replication CrdtWorldState PeerRegistry

/-- Two states agree on everything replicas are to agree on. -/
structure Agree (a b : CrdtWorldState) : Prop where
  vectorClock : a.vectorClock = b.vectorClock
  peers : a.peers.entries = b.peers.entries
  knownPeerIds : a.knownPeerIds.items = b.knownPeerIds.items
  networkStatus : a.networkStatus = b.networkStatus
  ghostState : a.ghostState = b.ghostState
  total : a.financeCounter.total = b.financeCounter.total
  member : ∀ x, a.assetOwnership.contains x = b.assetOwnership.contains x

variable (env : CrdtEnv) (now now' : Nat) {a b : CrdtWorldState}

theorem Agree.symm (h : Agree a b) : Agree b a :=
  ⟨h.vectorClock.symm, h.peers.symm, h.knownPeerIds.symm, h.networkStatus.symm,
    h.ghostState.symm, h.total.symm, fun x => (h.member x).symm⟩

theorem Agree.trans {c : CrdtWorldState} (h : Agree a b) (h' : Agree b c) : Agree a c :=
  ⟨h.vectorClock.trans h'.vectorClock, h.peers.trans h'.peers,
    h.knownPeerIds.trans h'.knownPeerIds, h.networkStatus.trans h'.networkStatus,
    h.ghostState.trans h'.ghostState, h.total.trans h'.total,
    fun x => (h.member x).trans (h'.member x)⟩

/-- Registers with the same stamp have the same value. -/
def SameStampSameValue (a b : LwwRegister String) : Prop :=
  a.ts = b.ts → a.nodeId = b.nodeId → a.value = b.value

/-- No undecided tie: shared known peers have one time, registry entries of one
    peer and time are equal, and so are register values of one stamp. -/
structure Compatible (a b : CrdtWorldState) : Prop where
  known : ∀ (x : String) (s t : Nat), a.knownPeerIds.items[x]? = some s →
    b.knownPeerIds.items[x]? = some t → s = t
  peers : ∀ (p : String) (e f : PeerEntry × Nat), a.peers.entries[p]? = some e →
    b.peers.entries[p]? = some f → e.2 = f.2 → e = f
  network : SameStampSameValue a.networkStatus b.networkStatus
  ghost : SameStampSameValue a.ghostState b.ghostState

theorem Compatible.refl (a : CrdtWorldState) : Compatible a a := by
  refine ⟨fun x s t hs ht => ?_, fun p e f he hf _ => ?_, fun _ _ => rfl, fun _ _ => rfl⟩
  · exact some.inj (hs.symm.trans ht)
  · exact some.inj (he.symm.trans hf)

theorem Compatible.symm (h : Compatible a b) : Compatible b a :=
  ⟨fun x s t hs ht => (h.known x t s ht hs).symm,
    fun p e f he hf hts => (h.peers p f e hf he hts.symm).symm,
    fun hts hid => (h.network hts.symm hid.symm).symm,
    fun hts hid => (h.ghost hts.symm hid.symm).symm⟩

theorem GSet.merge_comm_iff (a b : GSet String) :
    (a.merge b).items = (b.merge a).items ↔
      ∀ (x : String) (s t : Nat), a.items[x]? = some s → b.items[x]? = some t → s = t := by
  constructor
  · -- Each side keeps its own time for a shared item.
    intro heq x s t hs ht
    have hx := congrArg (fun m : FinMap String Nat => m[x]?) heq
    simp only [GSet.find_merge, hs, ht, some_or, some.injEq] at hx
    exact hx
  · intro hsame
    refine ext_getElem? (fun {x} => ?_)
    rw [GSet.find_merge, GSet.find_merge]
    cases ha : a.items[x]? with
    | none => rw [none_or, or_none]
    | some s =>
      cases hb : b.items[x]? with
      | none => rfl
      | some t => rw [some_or, some_or, hsame x s t ha hb]

theorem PeerRegistry.merge_comm_iff (a b : PeerRegistry) :
    (a.merge b).entries = (b.merge a).entries ↔
      ∀ (p : String) (e f : PeerEntry × Nat), a.entries[p]? = some e → b.entries[p]? = some f →
        e.2 = f.2 → e = f := by
  constructor
  · intro heq p e f he hf hts
    have hp := congrArg (fun m : FinMap String (PeerEntry × Nat) => m[p]?) heq
    simp only [find_merge, he, hf, newer, hts, ge_iff_le, le_refl,
      if_true, some.injEq] at hp
    exact hp
  · intro hsame
    refine ext_getElem? (fun {p} => ?_)
    rw [find_merge, find_merge]
    cases ha : a.entries[p]? with
    | none =>
      cases hb : b.entries[p]? with
      | none => rfl
      | some f => rfl
    | some e =>
      cases hb : b.entries[p]? with
      | none => rfl
      | some f =>
        dsimp only [newer]
        -- With different times the newer entry wins on both sides.
        by_cases hef : e.2 ≥ f.2 <;> by_cases hfe : f.2 ≥ e.2
        · rw [if_pos hef, if_pos hfe, hsame p e f ha hb (le_antisymm hfe hef)]
        · rw [if_pos hef, if_neg hfe]
        · rw [if_neg hef, if_pos hfe]
        · omega

theorem LwwRegister.merge_comm_iff (a b : LwwRegister String) :
    a.merge b = b.merge a ↔ SameStampSameValue a b := by
  unfold LwwRegister.merge SameStampSameValue
  constructor
  · -- On equal stamps both sides keep their own value.
    intro heq hts hid
    rw [if_neg, if_neg] at heq
    · rw [heq]
    · rintro (hlt | ⟨-, hlt⟩)
      · omega
      · rw [hid] at hlt
        exact lt_irrefl _ hlt
    · rintro (hlt | ⟨-, hlt⟩)
      · omega
      · rw [hid] at hlt
        exact lt_irrefl _ hlt
  · -- Otherwise the greater stamp wins on both sides.
    intro hsame
    rcases Nat.lt_trichotomy a.ts b.ts with hlt | heq | hgt
    · rw [if_pos (Or.inl hlt), if_neg]
      rintro (h | ⟨h, -⟩) <;> omega
    · rcases lt_trichotomy a.nodeId b.nodeId with hlt | hid | hgt
      · rw [if_pos (Or.inr ⟨heq.symm, hlt⟩), if_neg]
        rintro (h | ⟨-, h⟩)
        · omega
        · exact lt_asymm hlt h
      · -- Equal stamps: neither side takes the other's, so the values must match.
        have hval := hsame heq hid
        have hab : a = b := by
          cases a
          cases b
          simp only at hval heq hid
          rw [hval, heq, hid]
        rw [hab]
      · rw [if_neg, if_pos (Or.inr ⟨heq, hgt⟩)]
        rintro (h | ⟨-, h⟩)
        · omega
        · exact lt_asymm hgt h
    · rw [if_neg, if_pos (Or.inl hgt)]
      rintro (h | ⟨h, -⟩) <;> omega

/-- After two nodes take in each other's states they agree exactly when the
    states held no undecided tie. -/
theorem exchange_agrees_iff (a b : CrdtWorldState) :
    Agree (merge env now a b) (merge env now' b a) ↔ Compatible a b := by
  constructor
  · intro h
    exact ⟨(GSet.merge_comm_iff _ _).mp h.knownPeerIds,
      (merge_comm_iff _ _).mp h.peers,
      (LwwRegister.merge_comm_iff _ _).mp h.networkStatus,
      (LwwRegister.merge_comm_iff _ _).mp h.ghostState⟩
  · intro h
    refine ⟨FinMap.mergeMax_comm _ _, (merge_comm_iff _ _).mpr h.peers,
      (GSet.merge_comm_iff _ _).mpr h.known, (LwwRegister.merge_comm_iff _ _).mpr h.network,
      (LwwRegister.merge_comm_iff _ _).mpr h.ghost, ?_, fun x => ?_⟩
    · exact congrArg (fun m => GCounter.total ⟨m⟩) (FinMap.mergeMax_comm _ _)
    · refine Bool.eq_iff_iff.mpr ((ORSet.contains_merge _ _ x).trans (Iff.trans ?_
        (ORSet.contains_merge _ _ x).symm))
      exact exists_congr (fun tag => and_congr or_comm and_comm)

theorem LwwRegister.merge_absorb (a b : LwwRegister String) : b.merge (a.merge b) = b.merge a := by
  unfold LwwRegister.merge
  by_cases hba : b.ts > a.ts ∨ (b.ts = a.ts ∧ b.nodeId > a.nodeId)
  · -- The other side already took this one's value, which is the newer.
    rw [if_pos hba, ite_self, if_neg]
    rcases hba with hlt | ⟨heq, hlt⟩
    · rintro (h | ⟨h, -⟩) <;> omega
    · rintro (h | ⟨-, h⟩)
      · omega
      · exact lt_asymm hlt h
  · rw [if_neg hba]

theorem PeerRegistry.merge_absorb (a b : PeerRegistry) :
    (b.merge (a.merge b)).entries = (b.merge a).entries := by
  refine ext_getElem? (fun p => ?_)
  rw [find_merge, find_merge, find_merge]
  cases a.entries[p]? with
  | none =>
    cases b.entries[p]? with
    | none => rfl
    | some f => simp only [newer, ge_iff_le, le_refl, if_true]
  | some e =>
    cases b.entries[p]? with
    | none => rfl
    | some f =>
      dsimp only [newer]
      by_cases hef : e.2 ≥ f.2
      · rw [if_pos hef]
      · rw [if_neg hef]
        dsimp only
        rw [if_pos (le_refl _), if_pos (by omega)]

/-- Taking in a state that has already taken in one's own gives what taking it in
    at first would have given. -/
theorem merge_absorb (now'' : Nat) (a b : CrdtWorldState) :
    Agree (merge env now b (merge env now' a b)) (merge env now'' b a) := by
  refine ⟨FinMap.mergeMax_absorb _ _, PeerRegistry.merge_absorb _ _, ?_,
    LwwRegister.merge_absorb _ _, LwwRegister.merge_absorb _ _, ?_, fun x => ?_⟩
  -- Known peers: one's own time comes first either way.
  · refine ext_getElem? (fun x => ?_)
    change (b.knownPeerIds.merge (a.knownPeerIds.merge b.knownPeerIds)).items[x]?
      = (b.knownPeerIds.merge a.knownPeerIds).items[x]?
    rw [GSet.find_merge, GSet.find_merge, GSet.find_merge]
    cases b.knownPeerIds.items[x]? with
    | none => rw [or_none]
    | some t => rw [some_or, some_or]
  · exact congrArg (fun m => GCounter.total ⟨m⟩) (FinMap.mergeMax_absorb _ _)
  -- Assets: the detour may drop dead tags, never a live one.
  · change (b.assetOwnership.merge (a.assetOwnership.merge b.assetOwnership)).contains x
      = (b.assetOwnership.merge a.assetOwnership).contains x
    refine Bool.eq_iff_iff.mpr ?_
    rw [ORSet.contains_merge, ORSet.contains_merge, ORSet.removed_merge]
    simp only [ORSet.mem_tags_merge, Finset.mem_union, not_or]
    constructor
    · rintro ⟨tag, hmem, hb, ha, -⟩
      rcases hmem with hmem | ⟨hmem, -⟩
      · exact ⟨tag, Or.inl hmem, hb, ha⟩
      · exact ⟨tag, hmem.symm, hb, ha⟩
    · rintro ⟨tag, hmem, hb, ha⟩
      exact ⟨tag, Or.inr ⟨hmem.symm, tag, hmem.symm, ha, hb⟩, hb, ha, hb⟩

variable {n : Nat}

/-- A write creates no tie with a state that occurred: a peer the node has not
    known is stamped as every state that knows it has it, and an entry or value
    is the one every state has under the same stamp. -/
def Unambiguous (w : World n CrdtWorldState CrdtOp) (r : Fin n) : CrdtOp → Prop
  | .updatePeer peerId role connected trusted ts insertedAt _ =>
    ((w.current r).state.knownPeerIds.items[peerId]? = none →
      ∀ s ∈ w.past, ∀ t : Nat, s.state.knownPeerIds.items[peerId]? = some t → t = insertedAt) ∧
    ∀ s ∈ w.past, ∀ e : PeerEntry × Nat, s.state.peers.entries[peerId]? = some e → e.2 = ts →
      e.1 = peerEntry peerId role connected trusted ts
  | .setNetworkStatus value nodeId now =>
    ∀ s ∈ w.past, SameStampSameValue ⟨value, now, nodeId⟩ s.state.networkStatus
  | .setGhostState value nodeId now =>
    ∀ s ∈ w.past, SameStampSameValue ⟨value, now, nodeId⟩ s.state.ghostState
  | _ => True

theorem compatible_perform (env : CrdtEnv) (w : World n CrdtWorldState CrdtOp) (r : Fin n)
    (op : CrdtOp) (hcur : w.current r ∈ w.past) (hok : Unambiguous w r op)
    (hall : ∀ s ∈ w.past, ∀ t ∈ w.past, Compatible s.state t.state)
    (u : Snapshot n CrdtWorldState CrdtOp) (hu : u ∈ w.past) :
    Compatible (op.perform env (w.current r).state) u.state := by
  have hold := hall _ hcur u hu
  cases op with
  | updatePeer peerId role connected trusted ts insertedAt recordedAt =>
    refine ⟨fun x s t hs ht => ?_, fun p e f he hf hts => ?_, hold.network, hold.ghost⟩
    · change ((w.current r).state.knownPeerIds.insert peerId insertedAt).items[x]? = some s at hs
      rw [GSet.find_insert] at hs
      by_cases hx : peerId = x
      · rw [if_pos hx, some.injEq] at hs
        cases hown : (w.current r).state.knownPeerIds.items[x]? with
        | none =>
          -- The peer is new to this node: the guard fixes its time.
          rw [hown, getD_none] at hs
          rw [← hx] at hown ht
          rw [← hs]
          exact (hok.1 hown u hu t ht).symm
        | some t₀ =>
          rw [hown, getD_some] at hs
          rw [← hs]
          exact hold.known x t₀ t hown ht
      · rw [if_neg hx] at hs
        exact hold.known x s t hs ht
    · change ((w.current r).state.peers.upsert (peerEntry peerId role connected trusted ts)
        ts).entries[p]? = some e at he
      rcases find_upsert_cases he with hown | ⟨hp, heq⟩
      · exact hold.peers p e f hown hf hts
      · -- This write was kept: an entry with its time is this entry.
        rw [heq] at hts ⊢
        have hpid : peerId = p := hp
        rw [← hpid] at hf
        exact Prod.ext (hok.2 u hu f hf hts.symm).symm hts
  | setNetworkStatus value nodeId now => exact ⟨hold.known, hold.peers, hok u hu, hold.ghost⟩
  | setGhostState value nodeId now => exact ⟨hold.known, hold.peers, hold.network, hok u hu⟩
  | tick => exact ⟨hold.known, hold.peers, hold.network, hold.ghost⟩
  | increment => exact ⟨hold.known, hold.peers, hold.network, hold.ghost⟩
  | addAsset => exact ⟨hold.known, hold.peers, hold.network, hold.ghost⟩
  | removeAsset => exact ⟨hold.known, hold.peers, hold.network, hold.ghost⟩

theorem LwwRegister.merge_cases (a b : LwwRegister String) : a.merge b = b ∨ a.merge b = a := by
  unfold LwwRegister.merge
  by_cases h : b.ts > a.ts ∨ (b.ts = a.ts ∧ b.nodeId > a.nodeId)
  · exact Or.inl (if_pos h)
  · exact Or.inr (if_neg h)

/-- Everything a merge holds came from one of its sides, so it has no tie that
    neither side had. -/
theorem compatible_merge (env : CrdtEnv) (now : Nat) (a b c : CrdtWorldState)
    (hac : Compatible a c) (hbc : Compatible b c) : Compatible (merge env now a b) c := by
  refine ⟨fun x s t hs ht => ?_, fun p e f he hf hts => ?_, ?_, ?_⟩
  · change (a.knownPeerIds.merge b.knownPeerIds).items[x]? = some s at hs
    rw [GSet.find_merge] at hs
    cases ha : a.knownPeerIds.items[x]? with
    | none =>
      rw [ha, none_or] at hs
      exact hbc.known x s t hs ht
    | some s' =>
      rw [ha, some_or] at hs
      exact hac.known x s t (ha.trans hs) ht
  · change (a.peers.merge b.peers).entries[p]? = some e at he
    rcases find_merge_cases he with ha | hb
    · exact hac.peers p e f ha hf hts
    · exact hbc.peers p e f hb hf hts
  · change SameStampSameValue (a.networkStatus.merge b.networkStatus) c.networkStatus
    rcases LwwRegister.merge_cases a.networkStatus b.networkStatus with heq | heq
    · rw [heq]
      exact hbc.network
    · rw [heq]
      exact hac.network
  · change SameStampSameValue (a.ghostState.merge b.ghostState) c.ghostState
    rcases LwwRegister.merge_cases a.ghostState b.ghostState with heq | heq
    · rw [heq]
      exact hbc.ghost
    · rw [heq]
      exact hac.ghost

theorem compatible_run (env : CrdtEnv) (name : Fin n → String) (started₁ started₂ : Fin n → Nat)
    (acts : List (Action n CrdtOp Nat))
    (hok : Guarded (crdtSystem env name started₁ started₂) Unambiguous acts) :
    ∀ s ∈ ((crdtSystem env name started₁ started₂).run acts).past,
      ∀ t ∈ ((crdtSystem env name started₁ started₂).run acts).past,
        Compatible s.state t.state := by
  refine pairwise_inv (crdtSystem env name started₁ started₂) Unambiguous Compatible
    Compatible.refl (fun a b h => h.symm) ?_ ?_ ?_ acts hok
  · intro r q
    -- Fresh states share their register values and hold nothing else.
    refine ⟨fun x s t hs _ => ?_, fun p e f he _ _ => ?_, fun _ _ => rfl, fun _ _ => rfl⟩
    · change (∅ : FinMap String Nat)[x]? = some s at hs
      rw [getElem?_empty] at hs
      cases hs
    · change (∅ : FinMap String (PeerEntry × Nat))[p]? = some e at he
      rw [getElem?_empty] at he
      cases he
  · exact fun w r op hcur hok hall u hu => compatible_perform env w r op hcur hok hall u hu
  · exact fun now a b c hac hbc => compatible_merge env now a b c hac hbc

/-- Convergence. After any run, two replicas that take in each other's states,
    both at once or one after the other, agree exactly when their states held no
    tie, and a run of unambiguous writes leaves none. -/
theorem exchange_converges (env : CrdtEnv) (name : Fin n → String)
    (started₁ started₂ : Fin n → Nat) (acts : List (Action n CrdtOp Nat)) (r q : Fin n)
    (now now' : Nat) (a b : CrdtWorldState)
    (ha : a = (((crdtSystem env name started₁ started₂).run acts).current r).state)
    (hb : b = (((crdtSystem env name started₁ started₂).run acts).current q).state) :
    (Agree (merge env now a b) (merge env now' b a) ↔ Compatible a b) ∧
      (Agree (merge env now a b) (merge env now' b (merge env now a b)) ↔ Compatible a b) ∧
      (Guarded (crdtSystem env name started₁ started₂) Unambiguous acts →
        Agree (merge env now a b) (merge env now' b a) ∧
          Agree (merge env now a b) (merge env now' b (merge env now a b))) := by
  have hboth := exchange_agrees_iff env now now' a b
  have habsorb := merge_absorb env now' now now' a b
  have hturn : Agree (merge env now a b) (merge env now' b (merge env now a b)) ↔
      Compatible a b :=
    ⟨fun h => hboth.mp (h.trans habsorb), fun h => (hboth.mpr h).trans habsorb.symm⟩
  refine ⟨hboth, hturn, fun hok => ?_⟩
  have hwf := run_wellFormed (crdtSystem env name started₁ started₂) acts
  have hcompat : Compatible a b := by
    rw [ha, hb]
    exact compatible_run env name started₁ started₂ acts hok _ (hwf.current_mem r) _
      (hwf.current_mem q)
  exact ⟨hboth.mpr hcompat, hturn.mpr hcompat⟩

/-- The state of one of two nodes after a run. -/
def pairState (env : CrdtEnv) (acts : List (Action 2 CrdtOp Nat)) (r : Fin 2) : CrdtWorldState :=
  (((pairSystem env).run acts).current r).state

/-- Both nodes learn of the same peer, ten milliseconds apart. -/
def samePeerRun : List (Action 2 CrdtOp Nat) :=
  [.perform first (.updatePeer "peer-1" "client" true false 1000 1000 1),
   .perform second (.updatePeer "peer-1" "client" true false 1010 1010 1)]

/-- After exchanging states they still hold different times for the peer, both
    when they exchange at once and when one answers the other. -/
theorem samePeer_diverges :
    (∀ env : CrdtEnv, ¬ Agree
        (merge env 2 (pairState env samePeerRun first) (pairState env samePeerRun second))
        (merge env 2 (pairState env samePeerRun second) (pairState env samePeerRun first))) ∧
      ∀ env : CrdtEnv, ¬ Agree
        (merge env 2 (pairState env samePeerRun first) (pairState env samePeerRun second))
        (merge env 3 (pairState env samePeerRun second)
          (merge env 2 (pairState env samePeerRun first) (pairState env samePeerRun second))) := by
  have hboth (env : CrdtEnv) : ¬ Agree
      (merge env 2 (pairState env samePeerRun first) (pairState env samePeerRun second))
      (merge env 2 (pairState env samePeerRun second) (pairState env samePeerRun first)) := by
    intro h
    have hfirst : (pairState env samePeerRun first).knownPeerIds.items["peer-1"]? = some 1000 := rfl
    have hsecond : (pairState env samePeerRun second).knownPeerIds.items["peer-1"]? = some 1010 :=
      rfl
    have htime := ((exchange_agrees_iff env 2 2 _ _).mp h).known "peer-1" _ _ hfirst hsecond
    exact absurd htime (by decide)
  exact ⟨hboth, fun env h => hboth env (h.trans (merge_absorb env 3 2 2 _ _))⟩

/-- One node learns of a peer and the other sets a status: nothing ties. -/
def separateWritesRun : List (Action 2 CrdtOp Nat) :=
  [.perform first (.updatePeer "peer-1" "client" true false 1000 1001 1),
   .perform second (.setNetworkStatus "online" "node-b" 1010)]

/-- They agree after exchanging states. -/
theorem separateWrites_converge :
    (∀ env : CrdtEnv, Guarded (pairSystem env) Unambiguous separateWritesRun) ∧
      ∀ env : CrdtEnv, Agree
        (merge env 2 (pairState env separateWritesRun first)
          (pairState env separateWritesRun second))
        (merge env 2 (pairState env separateWritesRun second)
          (pairState env separateWritesRun first)) := by
  have hguard (env : CrdtEnv) : Guarded (pairSystem env) Unambiguous separateWritesRun := by
    refine guarded_of_stepsAllowed _ _ _
      ⟨⟨fun _ s hs t ht => ?_, fun s hs e he _ => ?_⟩, ?_, trivial⟩
    · rcases List.mem_ofFn.mp hs with ⟨r, rfl⟩
      change (∅ : FinMap String Nat)["peer-1"]? = some t at ht
      rw [getElem?_empty] at ht
      cases ht
    · rcases List.mem_ofFn.mp hs with ⟨r, rfl⟩
      change (∅ : FinMap String (PeerEntry × Nat))["peer-1"]? = some e at he
      rw [getElem?_empty] at he
      cases he
    · -- Every register so far was stamped at time zero.
      intro s hs hts
      have hzero : s.state.networkStatus.ts = 0 := by
        rcases (World.mem_put_past _ _ _ _ _).mp hs with hold | rfl
        · rcases List.mem_ofFn.mp hold with ⟨r, rfl⟩
          rfl
        · rfl
      rw [hzero] at hts
      exact absurd hts (by decide)
  refine ⟨hguard, fun env => ?_⟩
  exact ((exchange_converges env pairName (fun _ => 0) (fun _ => 0) separateWritesRun
    first second 2 2 _ _ rfl rfl).2.2 (hguard env)).1

end Crdt

end EssNode
