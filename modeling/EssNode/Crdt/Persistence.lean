import Mathlib.Data.Finset.Sort
import EssNode.Crdt.Sync
import EssNode.Lib.Json

/-!
# Keeping the World State over a Restart

A node that takes in another's state writes its own to a file, and reads the file when it
starts. It writes the JSON text of the state and reads the binary format.

The two have nothing in common. The binary format takes the first eight bytes of the text, which
are always the same, for the length of the node's name. If there were as many bytes as that, the
eight bytes behind them would be the number of clock entries, and as they are printable there
would have to be more bytes for the entries than an array can hold (`fromSyncPayload_toVec`).
Reading fails, whatever the state, and the node starts with a fresh one and says nothing about
it.

What a 32-bit float looks like in decimal, and the order in which a set of tags is written, are
parameters.
-/

namespace EssNode

open Json List

namespace Crdt

open Bincode CrdtWorldState

/-! ### Writing -/

/-- What the text of a state takes from elsewhere: the text of a 32-bit float, by its
    bits, and the order in which a set of tags is gone through. -/
structure JsonEnv where
  float : UInt32 → List UInt8
  clear_float : ∀ bits, Json.Clear (float bits)
  tagOrder : Finset UInt64 → List UInt64

variable (env : JsonEnv)

def jsonMap {V : Type} (value : V → List UInt8) (m : FinMap String V) : List UInt8 :=
  object (m.toList.map fun entry => (entry.1, value entry.2))

def jsonTags (tags : Finset UInt64) : List UInt8 :=
  array ((env.tagOrder tags).map fun tag => Json.decimal tag.toNat)

def jsonRegister (register : LwwRegister String) : List UInt8 :=
  object
    [("value", Json.string.encode register.value), ("ts", Json.decimal register.ts),
      ("node_id", Json.string.encode register.nodeId)]

def jsonPeerEntry (entry : PeerEntry) : List UInt8 :=
  object
    [("peer_id", Json.string.encode entry.peerId), ("role", Json.string.encode entry.role),
      ("connected", boolean entry.connected), ("trusted", boolean entry.trusted),
      ("reputation_score", env.float entry.reputationScore),
      ("last_seen", Json.decimal entry.lastSeen)]

/-- The JSON text of a state. The audit chain is left out. -/
def CrdtWorldState.toVec (self : CrdtWorldState) : List UInt8 :=
  object
    [("node_id", Json.string.encode self.nodeId),
      ("vector_clock", jsonMap Json.decimal self.vectorClock),
      ("peers", object [("entries", jsonMap
        (fun entry => array [jsonPeerEntry env entry.1, Json.decimal entry.2])
        self.peers.entries)]),
      ("known_peer_ids", object [("items", jsonMap Json.decimal self.knownPeerIds.items)]),
      ("network_status", jsonRegister self.networkStatus),
      ("ghost_state", jsonRegister self.ghostState),
      ("finance_counter",
        object [("counters", jsonMap Json.decimal self.financeCounter.counters)]),
      ("asset_ownership", object
        [("entries", jsonMap (jsonTags env) self.assetOwnership.entries),
          ("removed", jsonTags env self.assetOwnership.removed)])]

/-- What a node writes to its file when it has taken in another's state. -/
def writtenBySync (crdt : CrdtEnv) (now : Nat) (self other : CrdtWorldState) : List UInt8 :=
  (merge crdt now self other).toVec env

/-! ### Reading -/

/-- A state in the binary format. -/
def fromSyncPayload (bytes : List UInt8) : Option CrdtWorldState :=
  (decodeWorldState bytes).map Prod.fst

/-- The file a node finds when it starts. -/
inductive StateFile where
  | missing
  | unreadable
  | bytes (content : List UInt8)

/-- The state a node starts with. -/
def bootState (peerId : String) (now₁ now₂ : Nat) (file : StateFile) : CrdtWorldState :=
  let fresh := new peerId now₁ now₂
  let loaded :=
    match file with
    | .bytes content => (fromSyncPayload content).getD fresh
    | .unreadable => fresh
    | .missing => fresh
  loaded.tick

/-! ### The text -/

theorem clear_string (s : String) : Json.Clear (Json.string.encode s) := Json.printable_string s

theorem clear_jsonMap {V : Type} {value : V → List UInt8} (h : ∀ v, Json.Clear (value v))
    (m : FinMap String V) : Json.Clear (jsonMap value m) := by
  refine clear_object fun member hmember => ?_
  obtain ⟨entry, -, rfl⟩ := mem_map.mp hmember
  exact h entry.2

theorem clear_jsonTags (tags : Finset UInt64) : Json.Clear (jsonTags env tags) := by
  refine clear_array fun item hitem => ?_
  obtain ⟨tag, -, rfl⟩ := mem_map.mp hitem
  exact clear_decimal tag.toNat

theorem clear_jsonRegister (register : LwwRegister String) :
    Json.Clear (jsonRegister register) := by
  refine clear_object fun member hmember => ?_
  simp only [mem_cons, not_mem_nil, or_false] at hmember
  rcases hmember with rfl | rfl | rfl
  · exact clear_string _
  · exact clear_decimal _
  · exact clear_string _

theorem clear_jsonPeerEntry (entry : PeerEntry) : Json.Clear (jsonPeerEntry env entry) := by
  refine clear_object fun member hmember => ?_
  simp only [mem_cons, not_mem_nil, or_false] at hmember
  rcases hmember with rfl | rfl | rfl | rfl | rfl | rfl
  · exact clear_string _
  · exact clear_string _
  · exact clear_boolean _
  · exact clear_boolean _
  · exact env.clear_float _
  · exact clear_decimal _

theorem clear_single {name : String} {value : List UInt8} (h : Json.Clear value) :
    Json.Clear (object [(name, value)]) := by
  refine clear_object fun member hmember => ?_
  rw [mem_singleton.mp hmember]
  exact h

namespace CrdtWorldState

variable (self : CrdtWorldState)

theorem clear_toVec : Json.Clear (self.toVec env) := by
  refine clear_object fun member hmember => ?_
  simp only [mem_cons, not_mem_nil, or_false] at hmember
  rcases hmember with rfl | rfl | rfl | rfl | rfl | rfl | rfl | rfl
  · exact clear_string _
  · exact clear_jsonMap clear_decimal _
  · refine clear_single (clear_jsonMap (fun entry => clear_array fun item hitem => ?_) _)
    simp only [mem_cons, not_mem_nil, or_false] at hitem
    rcases hitem with rfl | rfl
    · exact clear_jsonPeerEntry env _
    · exact clear_decimal _
  · exact clear_single (clear_jsonMap clear_decimal _)
  · exact clear_jsonRegister _
  · exact clear_jsonRegister _
  · exact clear_single (clear_jsonMap clear_decimal _)
  · refine clear_object fun member hmember => ?_
    simp only [mem_cons, not_mem_nil, or_false] at hmember
    rcases hmember with rfl | rfl
    · exact clear_jsonMap (clear_jsonTags env) _
    · exact clear_jsonTags env _

theorem toVec_front :
    ∃ front tail, self.toVec env = front ++ tail ∧ front.length = 8 ∧
      ofLittleEndian front = 0x695f65646f6e227b := by
  have hname : 123 :: Json.string.encode "node_id"
      = [123, 34, 110, 111, 100, 101, 95, 105] ++ [100, 34] := by decide +kernel
  obtain ⟨rest, htext⟩ : ∃ rest,
      self.toVec env = (123 :: Json.string.encode "node_id") ++ rest := by
    unfold toVec object separated
    rw [map_cons, map_cons, intercalate_cons_cons]
    exact ⟨_, by simp only [append_assoc, cons_append]; rfl⟩
  rw [hname, append_assoc] at htext
  exact ⟨_, _, htext, rfl, by decide⟩

/-- The text of a state is no state in the binary format: the name and the clock it would
    have do not fit into an array. -/
theorem fromSyncPayload_toVec (hsize : (self.toVec env).length < 2 ^ 63) :
    fromSyncPayload (self.toVec env) = none := by
  unfold fromSyncPayload
  rw [Option.map_eq_none_iff, Option.eq_none_iff_forall_ne_some]
  rintro ⟨state, rest⟩ hread
  obtain ⟨nodeId, rest1, hnode, hread⟩ := Decoder.bind_eq_some hread
  obtain ⟨vectorClock, rest2, hclock, -⟩ := Decoder.bind_eq_some hread
  obtain ⟨head1, hlen1, hval1, htext⟩ := string_decode_eq_some hnode
  obtain ⟨head2, tail2, hlen2, rfl, hentries⟩ := decodeMap_eq_some string_takes
    (fun input n rest h => Nat.le_trans (Nat.le_add_left _ 8) (Codec.takes_word 8 input n rest h))
    hclock
  obtain ⟨front, tail, hfront, hflen, hfval⟩ := self.toVec_front env
  -- The length of the name is that of the fixed text in front.
  have hhead1 : head1 = front :=
    (append_inj (htext.symm.trans hfront) (hlen1.trans hflen.symm)).1
  -- The number of clock entries is made of printable bytes.
  have hlow2 : 32 * 256 ^ head2.length ≤ 255 * ofLittleEndian head2 + 32 :=
    le_ofLittleEndian fun b hb => self.clear_toVec env b (by rw [htext]; simp [hb])
  have htotal := congrArg length htext
  simp only [length_append] at htotal
  rw [hlen2] at hlow2
  rw [hhead1, hfval] at hval1
  omega

end CrdtWorldState

/-! ### A restart -/

theorem clockAt_fresh (peerId : String) (now₁ now₂ : Nat) :
    (new peerId now₁ now₂).tick.clockAt peerId = 1 := by
  have hname : (new peerId now₁ now₂).nodeId = peerId := rfl
  rw [clockAt_tick, if_pos hname]
  unfold clockAt new
  dsimp only
  rw [FinMap.find_insert, if_pos rfl]
  rfl

theorem bootState_toVec {s : CrdtWorldState} (hsize : (s.toVec env).length < 2 ^ 63)
    (peerId : String) (now₁ now₂ : Nat) :
    bootState peerId now₁ now₂ (.bytes (s.toVec env))
      = (new peerId now₁ now₂).tick := by
  unfold bootState
  dsimp only
  rw [s.fromSyncPayload_toVec env hsize, Option.getD_none]

/-- What a node wrote is not read when it starts, whatever its state was: it starts with
    a fresh state, and its clock from one. -/
theorem restart_loses_state (s : CrdtWorldState) (hsize : (s.toVec env).length < 2 ^ 63)
    (peerId : String) (now₁ now₂ : Nat) :
    fromSyncPayload (s.toVec env) = none
      ∧ bootState peerId now₁ now₂ (.bytes (s.toVec env))
        = (CrdtWorldState.new peerId now₁ now₂).tick
      ∧ (bootState peerId now₁ now₂ (.bytes (s.toVec env))).clockAt peerId = 1 := by
  have hboot := bootState_toVec env hsize peerId now₁ now₂
  refine ⟨s.fromSyncPayload_toVec env hsize, hboot, ?_⟩
  rw [hboot, clockAt_fresh]

/-- Tags in ascending order, and all floats as the one that fresh entries have. -/
def plainJson : JsonEnv where
  float _ := [49, 46, 48]
  clear_float _ := by
    intro b hb
    simp only [mem_cons, not_mem_nil, or_false] at hb
    rcases hb with rfl | rfl | rfl <;> decide
  tagOrder tags := ((tags.image UInt64.toNat).sort (· ≤ ·)).map UInt64.ofNat

/-- The SHA-256 and JSON text of the audit chain, which play no role here. -/
def plainCrdt : CrdtEnv := ⟨id, fun _ => none⟩

def knowingState : CrdtWorldState :=
  updatePeer plainCrdt (new "node-b" 10 11) "peer" "client" true
    false 20 21 22

/-- A state that was written is lost. -/
theorem restart_loses_knowing :
    (knowingState.toVec plainJson).length < 2 ^ 63
      ∧ bootState "node-b" 30 31 (.bytes (knowingState.toVec plainJson))
        = (CrdtWorldState.new "node-b" 30 31).tick := by
  have hsize : (knowingState.toVec plainJson).length < 2 ^ 63 := by decide +kernel
  exact ⟨hsize, (restart_loses_state plainJson knowingState hsize "node-b" 30 31).2.1⟩

/-- A node learns of a peer from another node and writes that down. It does not know the
    peer after a restart. -/
theorem synced_peer_lost :
    ((CrdtWorldState.merge plainCrdt 23 (CrdtWorldState.new "node-a" 10 11)
        knowingState).peers.entries["peer"]?).isSome = true
      ∧ (bootState "node-a" 30 31 (.bytes (writtenBySync plainJson plainCrdt 23
          (CrdtWorldState.new "node-a" 10 11) knowingState))).peers.entries["peer"]? = none := by
  have hwritten : ((CrdtWorldState.merge plainCrdt 23 (CrdtWorldState.new "node-a" 10 11)
        knowingState).peers.entries["peer"]?).isSome = true
      ∧ (writtenBySync plainJson plainCrdt 23 (CrdtWorldState.new "node-a" 10 11)
        knowingState).length < 2 ^ 63
      ∧ (CrdtWorldState.new "node-a" 30 31).tick.peers.entries["peer"]? = none := by
    decide +kernel
  refine ⟨hwritten.1, ?_⟩
  unfold writtenBySync at hwritten ⊢
  rw [bootState_toVec plainJson hwritten.2.1]
  exact hwritten.2.2

end Crdt

end EssNode
