import EssNode.Crdt.WorldState

/-!
# The Audit Chain

What the audit chain of a node's replicated state says of its history, and whether it binds
it: whether the last link fixes what the links before it say.

The chain that a node makes is right. It has a link for each of the last 1024 states that
were recorded, with the state's number and the hashes of its text and of the text before,
also where the link of that one has been dropped (`recorded_chain`).

It does not bind the history. A link holds the hash of the state it was made for, and that of
the link before it; and the state is hashed without the chain. So the last link fixes one thing
only, the hash in the link before it (`secondLast_bound`). The position, the time and the
text of every earlier link can be changed without a trace, and so can the hashes of all
states before the last two, if the links are made to fit (`verifyChain_forged`). There is
nothing to collide with: no link is ever hashed.
-/

namespace EssNode

open List

namespace Crdt

namespace MerkleDag

/-- Check that each link but the first names the hash of the one before it. -/
def verifyChain (self : MerkleDag) : Bool :=
  self.nodes.zipIdx.all fun (node, i) =>
    if i = 0 then true
    else node.parentHash == (self.nodes[i - 1]?).map MerkleNode.stateHash

end MerkleDag

/-- A link fits the one before it. -/
def Fits (prev node : MerkleNode) : Prop := node.parentHash = some prev.stateHash

/-- The check goes through exactly if each link fits the one before it. -/
theorem verifyChain_iff (dag : MerkleDag) :
    dag.verifyChain = true ↔ dag.nodes.IsChain Fits := by
  unfold MerkleDag.verifyChain
  rw [all_eq_true, isChain_iff_getElem]
  constructor
  · intro hall i hi
    have hlink := hall (dag.nodes[i + 1], i + 1) (mem_zipIdx_iff_getElem?.mpr
      (getElem?_eq_getElem hi))
    dsimp only at hlink
    rw [if_neg (Nat.succ_ne_zero i), Nat.add_sub_cancel, beq_iff_eq,
      getElem?_eq_getElem (by omega)] at hlink
    exact hlink
  · rintro hchain ⟨node, i⟩ hnode
    have hget := mem_zipIdx_iff_getElem?.mp hnode
    cases i with
    | zero => rfl
    | succ i =>
      obtain ⟨hi, hnode⟩ := List.getElem?_eq_some_iff.mp hget
      have hfits := hchain i hi
      dsimp only at hget hnode ⊢
      rw [if_neg (Nat.succ_ne_zero i), Nat.add_sub_cancel, beq_iff_eq,
        getElem?_eq_getElem (by omega), ← hnode]
      exact hfits

theorem verifyChain_addStateJson {dag : MerkleDag} (h : dag.verifyChain = true)
    (sha256Hex : String → String) (now : Nat) (json : String) :
    (dag.addStateJson sha256Hex now json).verifyChain = true := by
  rw [verifyChain_iff] at h ⊢
  have hlinked : ∀ node : MerkleNode,
      node.parentHash = dag.nodes.getLast?.map MerkleNode.stateHash →
        (dag.nodes ++ [node]).IsChain Fits := by
    intro node hparent
    rw [isChain_append]
    refine ⟨h, isChain_singleton _, fun prev hprev next hnext => ?_⟩
    obtain rfl : node = next := Option.some.inj hnext
    unfold Fits
    rw [hparent, hprev, Option.map_some]
  unfold MerkleDag.addStateJson
  dsimp only
  exact List.IsChain.drop (hlinked _ rfl) _

/-! ### The chains that a node makes -/

namespace MerkleDag

/-- The chain after the given texts were recorded, at these times. -/
def recorded (sha256Hex : String → String) (records : List (Nat × String)) : MerkleDag :=
  records.foldl (fun dag (now, json) => dag.addStateJson sha256Hex now json) new

end MerkleDag

/-- The link of the record at a position: it has the hash of that text and the hash of the
    text before it, whether or not there still is a link for that one. -/
def linkAt (sha256Hex : String → String) (records : List (Nat × String)) (i : Nat) :
    Option MerkleNode :=
  (records[i]?).map fun (now, json) =>
    { index := i
      stateHash := sha256Hex json
      parentHash :=
        if i = 0 then none else (records[i - 1]?).map fun (_, json) => sha256Hex json
      timestamp := now
      metadata := "" }

section Recorded

variable (sha256Hex : String → String) (records : List (Nat × String))

theorem linkAt_append (more : List (Nat × String)) {i : Nat} (hi : i < records.length) :
    linkAt sha256Hex (records ++ more) i = linkAt sha256Hex records i := by
  unfold linkAt
  rw [getElem?_append_left hi, getElem?_append_left (by omega)]

theorem linkAt_eq_none {i : Nat} (hi : records.length ≤ i) :
    linkAt sha256Hex records i = none := by
  unfold linkAt
  rw [getElem?_eq_none hi, Option.map_none]

/-- What a chain is to the records it was made from: it has the links of the last 1024. -/
structure Chronicles (dag : MerkleDag) : Prop where
  length : dag.nodes.length = min records.length maxDagNodes
  nextIndex : dag.nextIndex = records.length
  links : ∀ k, dag.nodes[k]? = linkAt sha256Hex records (records.length - maxDagNodes + k)

variable {sha256Hex records}

theorem Chronicles.last {dag : MerkleDag} (h : Chronicles sha256Hex records dag) :
    dag.nodes.getLast?.map MerkleNode.stateHash
      = if records.length = 0 then none
        else (records[records.length - 1]?).map fun (_, json) => sha256Hex json := by
  have hlength := h.length
  rw [getLast?_eq_getElem?, h.links]
  by_cases hzero : records.length = 0
  · rw [if_pos hzero, linkAt_eq_none _ _ (by omega), Option.map_none]
  · -- With the length of the chain, the position is that of the last record.
    have hlimit : 0 < maxDagNodes := by decide
    have hpos : records.length - maxDagNodes + (dag.nodes.length - 1) = records.length - 1 := by
      omega
    rw [if_neg hzero, hpos, linkAt, Option.map_map]
    rfl

theorem Chronicles.addStateJson {dag : MerkleDag} (h : Chronicles sha256Hex records dag)
    (now : Nat) (json : String) :
    Chronicles sha256Hex (records ++ [(now, json)]) (dag.addStateJson sha256Hex now json) := by
  have hlength := h.length
  have hlast : linkAt sha256Hex (records ++ [(now, json)]) records.length
      = some ⟨dag.nextIndex, sha256Hex json, dag.nodes.getLast?.map MerkleNode.stateHash, now,
          ""⟩ := by
    rw [h.last, h.nextIndex, linkAt, getElem?_concat_length, Option.map_some]
    dsimp only
    by_cases hzero : records.length = 0
    · rw [if_pos hzero, if_pos hzero]
    · rw [if_neg hzero, if_neg hzero, getElem?_append_left (by omega)]
  unfold MerkleDag.addStateJson
  refine ⟨?_, ?_, fun k => ?_⟩
  · dsimp only
    rw [length_drop, length_append, length_append, length_singleton,
      length_singleton]
    omega
  · dsimp only
    rw [h.nextIndex, length_append, length_singleton]
  · dsimp only
    rw [getElem?_drop, length_append, length_append, length_singleton,
      length_singleton]
    have hlimit : 0 < maxDagNodes := by decide
    -- The link is an old one, the new one, or beyond both ends.
    rcases Nat.lt_trichotomy (dag.nodes.length + 1 - maxDagNodes + k) dag.nodes.length
      with hold | hnew | hbeyond
    · have hpos : records.length - maxDagNodes + (dag.nodes.length + 1 - maxDagNodes + k)
          = records.length + 1 - maxDagNodes + k := by omega
      rw [getElem?_append_left hold, h.links, hpos, linkAt_append _ _ _ (by omega)]
    · have hpos : records.length + 1 - maxDagNodes + k = records.length := by omega
      rw [hnew, getElem?_concat_length, hpos, hlast]
    · rw [getElem?_eq_none (by rw [length_append, length_singleton]; omega),
        linkAt_eq_none _ _ (by rw [length_append, length_singleton]; omega)]

theorem chronicles_recorded (sha256Hex : String → String) (records : List (Nat × String)) :
    Chronicles sha256Hex records (MerkleDag.recorded sha256Hex records) := by
  induction records using reverseRecOn with
  | nil => exact ⟨rfl, rfl, fun k => rfl⟩
  | append_singleton records record ih =>
    rw [MerkleDag.recorded, foldl_append, foldl_cons, foldl_nil]
    exact ih.addStateJson record.1 record.2

theorem verifyChain_recorded (sha256Hex : String → String) (records : List (Nat × String)) :
    (MerkleDag.recorded sha256Hex records).verifyChain = true := by
  induction records using reverseRecOn with
  | nil => rfl
  | append_singleton records record ih =>
    rw [MerkleDag.recorded, foldl_append, foldl_cons, foldl_nil]
    exact verifyChain_addStateJson ih sha256Hex record.1 record.2

/-- After any records, the chain has the last 1024 links or all of them. Their numbers are
    consecutive and end with that of the last record; each has the time and the hash of its
    own text and, but for the first ever made, the hash of the text before it. The chain
    passes the check. -/
theorem recorded_chain (sha256Hex : String → String) (records : List (Nat × String)) :
    (MerkleDag.recorded sha256Hex records).nodes.length = min records.length 1024 ∧
    (MerkleDag.recorded sha256Hex records).nextIndex = records.length ∧
    (∀ k node, (MerkleDag.recorded sha256Hex records).nodes[k]? = some node →
      node.index + (MerkleDag.recorded sha256Hex records).nodes.length = records.length + k ∧
      (∃ json, records[node.index]? = some (node.timestamp, json) ∧
        node.stateHash = sha256Hex json) ∧
      node.parentHash = if node.index = 0 then none
        else (records[node.index - 1]?).map fun (_, json) => sha256Hex json) ∧
    (MerkleDag.recorded sha256Hex records).verifyChain = true := by
  have hchron := chronicles_recorded sha256Hex records
  refine ⟨hchron.length, hchron.nextIndex, fun k node hnode => ?_,
    verifyChain_recorded sha256Hex records⟩
  rw [hchron.links] at hnode
  obtain ⟨⟨now, json⟩, hrecord, rfl⟩ := Option.map_eq_some_iff.mp hnode
  refine ⟨?_, ⟨json, hrecord, rfl⟩, rfl⟩
  have hlength := hchron.length
  dsimp only
  omega

end Recorded

/-! ### What the last link binds -/

/-- Links without what the first says of a parent that is no longer there. -/
def withoutFirstParent : List MerkleNode → List MerkleNode
  | [] => []
  | node :: nodes => { node with parentHash := none } :: nodes

/-- The same links, but for what the first says of its parent. -/
def SameHistory (nodes nodes' : List MerkleNode) : Prop :=
  withoutFirstParent nodes = withoutFirstParent nodes'

instance (nodes nodes' : List MerkleNode) : Decidable (SameHistory nodes nodes') :=
  inferInstanceAs (Decidable (_ = _))

variable {nodes : List MerkleNode} (parentHash : Option String)

theorem secondLast_bound {nodes' : List MerkleNode} {prev prev' last : MerkleNode}
    {nextIndex nextIndex' : Nat}
    (h : MerkleDag.verifyChain ⟨nodes ++ [prev, last], nextIndex⟩ = true)
    (h' : MerkleDag.verifyChain ⟨nodes' ++ [prev', last], nextIndex'⟩ = true) :
    prev.stateHash = prev'.stateHash := by
  rw [verifyChain_iff] at h h'
  have hfits : ∀ {nodes : List MerkleNode} {prev : MerkleNode},
      (nodes ++ [prev, last]).IsChain Fits → Fits prev last := fun hchain =>
    (isChain_cons_cons.mp (isChain_append.mp hchain).2.1).1
  exact Option.some.inj ((hfits h).symm.trans (hfits h'))

/-- Links with the hashes of their parents made to fit, the first with the given one. -/
def relink : Option String → List MerkleNode → List MerkleNode
  | _, [] => []
  | parentHash, node :: nodes =>
    { node with parentHash := parentHash } :: relink (some node.stateHash) nodes

theorem isChain_relink (nodes : List MerkleNode) : (relink parentHash nodes).IsChain Fits := by
  induction nodes generalizing parentHash with
  | nil => exact isChain_nil
  | cons node nodes ih =>
    cases nodes with
    | nil => exact isChain_singleton _
    | cons next nodes =>
      exact isChain_cons_cons.mpr ⟨rfl, ih (some node.stateHash)⟩

theorem getLast_relink (nodes : List MerkleNode) (node : MerkleNode)
    (h : node ∈ (relink parentHash nodes).getLast?) :
    (nodes.getLast?).map MerkleNode.stateHash = some node.stateHash := by
  induction nodes generalizing parentHash with
  | nil => exact absurd h (Option.not_mem_none node)
  | cons first nodes ih =>
    cases nodes with
    | nil =>
      obtain rfl := Option.some.inj h
      rfl
    | cons next nodes =>
      rw [getLast?_cons_cons]
      rw [relink, relink, getLast?_cons_cons] at h
      exact ih (some first.stateHash) h

/-- Any links whatsoever can stand before the last two, with the last link as it was. -/
theorem verifyChain_forged {prev last : MerkleNode} {nextIndex : Nat}
    (h : MerkleDag.verifyChain ⟨nodes ++ [prev, last], nextIndex⟩ = true) (forged : List MerkleNode)
    (parentHash : Option String) :
    MerkleDag.verifyChain ⟨relink parentHash (forged ++ [prev]) ++ [last], nextIndex⟩ = true := by
  rw [verifyChain_iff] at h ⊢
  have hfits : Fits prev last :=
    (isChain_cons_cons.mp (isChain_append.mp h).2.1).1
  rw [isChain_append]
  refine ⟨isChain_relink _ _, isChain_singleton _, fun node hnode next hnext => ?_⟩
  obtain rfl : last = next := Option.some.inj hnext
  have hhash := getLast_relink _ _ _ hnode
  rw [getLast?_append, getLast?_singleton, Option.some_or, Option.map_some] at hhash
  exact hfits.trans hhash

/-- A link that never was, before two that were. -/
theorem verifyChain_one_forged :
    MerkleDag.verifyChain ⟨relink none [⟨7, "forged", none, 0, ""⟩, ⟨8, "prev", none, 0, ""⟩]
      ++ [⟨9, "last", some "prev", 0, ""⟩], 10⟩ = true :=
  @verifyChain_forged [] ⟨8, "prev", none, 0, ""⟩ _ 10 (by decide) [⟨7, "forged", none, 0, ""⟩] none

theorem isChain_backdated {node : MerkleNode} {nodes : List MerkleNode}
    (h : (node :: nodes).IsChain Fits) (timestamp : Nat) :
    ({ node with timestamp := timestamp } :: nodes).IsChain Fits := by
  cases nodes with
  | nil => exact isChain_singleton _
  | cons next nodes =>
    obtain ⟨hfits, hrest⟩ := isChain_cons_cons.mp h
    exact isChain_cons_cons.mpr ⟨hfits, hrest⟩

/-- The last link of a chain that passes the check binds its history exactly if there is
    no other link. -/
theorem audit_chain_binds_iff (dag : MerkleDag) (hverify : dag.verifyChain = true) :
    (∀ other : MerkleDag, other.nodes.length = dag.nodes.length → other.verifyChain = true →
        other.nodes.getLast? = dag.nodes.getLast? → SameHistory dag.nodes other.nodes)
      ↔ dag.nodes.length ≤ 1 := by
  rw [verifyChain_iff] at hverify
  obtain ⟨nodes, nextIndex⟩ := dag
  dsimp only at hverify ⊢
  cases nodes with
  | nil =>
    refine iff_of_true (fun other hlength _ _ => ?_) (Nat.zero_le _)
    rw [length_eq_zero_iff.mp hlength]
    rfl
  | cons node nodes =>
    cases nodes with
    | nil =>
      refine iff_of_true (fun other hlength _ hlast => ?_) le_rfl
      obtain ⟨node', hnode'⟩ := length_eq_one_iff.mp hlength
      rw [hnode'] at hlast ⊢
      obtain rfl := Option.some.inj hlast
      rfl
    | cons next nodes =>
      refine iff_of_false (fun hbinds => ?_) (by simp)
      -- Another time in the first link, which is not the last.
      have hsame := hbinds
        ⟨{ node with timestamp := node.timestamp + 1 } :: next :: nodes, nextIndex⟩ rfl
        ((verifyChain_iff _).mpr (isChain_backdated hverify _)) (by simp)
      have htime := congrArg MerkleNode.timestamp (cons.inj hsame).1
      exact absurd htime (Nat.ne_of_lt (Nat.lt_succ_self _))

/-- The chain of a node that recorded the given states, at these times. -/
def chainOf (states : List (Nat × String)) : MerkleDag :=
  states.foldl (fun dag (now, json) => dag.addStateJson (fun text => "#" ++ text) now json)
    MerkleDag.new

/-- A chain of one link binds it. -/
theorem audit_chain_binds_single :
    (chainOf [(100, "a")]).verifyChain = true
      ∧ ∀ other : MerkleDag, other.nodes.length = (chainOf [(100, "a")]).nodes.length →
          other.verifyChain = true →
          other.nodes.getLast? = (chainOf [(100, "a")]).nodes.getLast? →
            SameHistory (chainOf [(100, "a")]).nodes other.nodes := by
  have hverify : (chainOf [(100, "a")]).verifyChain = true := by decide +kernel
  have hlength : (chainOf [(100, "a")]).nodes.length ≤ 1 := by decide +kernel
  exact ⟨hverify, (audit_chain_binds_iff _ hverify).mpr hlength⟩

/-- Three states are recorded. With another first state, recorded at another time and in
    another place, the chain still passes the check and ends with the same link. -/
theorem audit_chain_forged :
    let dag := chainOf [(100, "a"), (200, "b"), (300, "c")]
    let forged : MerkleDag :=
      { dag with
        nodes := relink none
          (⟨7, "#forged", none, 50, ""⟩ :: (dag.nodes.drop 1)) }
    dag.verifyChain = true ∧ forged.verifyChain = true
      ∧ forged.nodes.length = dag.nodes.length
      ∧ forged.nodes.getLast? = dag.nodes.getLast?
      ∧ ¬ SameHistory dag.nodes forged.nodes := by
  decide +kernel

end Crdt

end EssNode
