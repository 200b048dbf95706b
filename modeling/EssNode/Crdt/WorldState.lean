import EssNode.Crdt.Primitives
import EssNode.Lib.Replication

/-!
# The Distributed World State

The container a node replicates: a vector clock, the peer registry and its known
peers, two registers, a counter, an asset set, and an audit chain.

Every clock reading is an argument, in the order the source reads the clock:
`updatePeer` stamps the registry entry with one reading, the known-peers set with
a second, and the audit chain with a third. What the source takes from other
crates, the state's JSON text and the SHA-256 of it, is a parameter; only the
audit chain depends on it.

Clock entries and chain indices count events and are natural numbers.
-/

namespace EssNode

namespace Crdt

/-- One link of the audit chain. -/
structure MerkleNode where
  index : Nat
  stateHash : String
  parentHash : Option String
  timestamp : Nat
  metadata : String
deriving DecidableEq, Repr

/-- The audit chain, oldest link first. -/
structure MerkleDag where
  nodes : List MerkleNode
  nextIndex : Nat
deriving DecidableEq, Repr

def maxDagNodes : Nat := 1024

namespace MerkleDag

def new : MerkleDag := ⟨[], 0⟩

/-- Append a link for a state and drop the oldest ones beyond the limit. -/
def addStateJson (self : MerkleDag) (sha256Hex : String → String) (now : Nat) (json : String) :
    MerkleDag :=
  let node : MerkleNode :=
    { index := self.nextIndex
      stateHash := sha256Hex json
      parentHash := self.nodes.getLast?.map MerkleNode.stateHash
      timestamp := now
      metadata := "" }
  let nodes := self.nodes ++ [node]
  { nodes := nodes.drop (nodes.length - maxDagNodes), nextIndex := self.nextIndex + 1 }

end MerkleDag

/-- The replicated container. -/
structure CrdtWorldState where
  nodeId : String
  vectorClock : FinMap String Nat
  peers : PeerRegistry
  knownPeerIds : GSet String
  networkStatus : LwwRegister String
  ghostState : LwwRegister String
  financeCounter : GCounter
  assetOwnership : ORSet String
  dag : MerkleDag

/-- What the audit chain takes from elsewhere: the SHA-256 of a text, in
    hexadecimal, and the JSON text of a state, which may fail. -/
structure CrdtEnv where
  sha256Hex : String → String
  toJson : CrdtWorldState → Option String

/-- The bits of the 32-bit float 1.0, a fresh peer's reputation. -/
def reputationOne : UInt32 := 0x3F800000

namespace CrdtWorldState

/-- A node's first state. The registers are stamped one after the other. -/
def new (nodeId : String) (now₁ now₂ : Nat) : CrdtWorldState where
  nodeId := nodeId
  vectorClock := (∅ : FinMap String Nat).insert nodeId 0
  peers := PeerRegistry.empty
  knownPeerIds := GSet.empty
  networkStatus := LwwRegister.new "initializing" nodeId now₁
  ghostState := LwwRegister.new "init" nodeId now₂
  financeCounter := GCounter.empty
  assetOwnership := ORSet.empty
  dag := MerkleDag.new

def tick (self : CrdtWorldState) : CrdtWorldState :=
  { self with
    vectorClock := self.vectorClock.alter self.nodeId (fun own => some (own.getD 0 + 1)) }

/-- Link the state into its audit chain. -/
def record (env : CrdtEnv) (now : Nat) (self : CrdtWorldState) : CrdtWorldState :=
  { self with dag := self.dag.addStateJson env.sha256Hex now ((env.toJson self).getD "") }

/-- Take in another state, component by component. -/
def merge (env : CrdtEnv) (now : Nat) (self other : CrdtWorldState) : CrdtWorldState :=
  record env now
    { self with
      vectorClock := FinMap.mergeMax self.vectorClock other.vectorClock
      peers := self.peers.merge other.peers
      knownPeerIds := self.knownPeerIds.merge other.knownPeerIds
      networkStatus := self.networkStatus.merge other.networkStatus
      ghostState := self.ghostState.merge other.ghostState
      financeCounter := self.financeCounter.merge other.financeCounter
      assetOwnership := self.assetOwnership.merge other.assetOwnership }

/-- The entry an update writes. -/
def peerEntry (peerId role : String) (connected trusted : Bool) (ts : Nat) : PeerEntry where
  peerId := peerId
  role := role
  connected := connected
  trusted := trusted
  reputationScore := reputationOne
  lastSeen := ts

/-- Write a peer's entry: the clock is read for the entry, for the known-peers
    set, and for the audit chain. -/
def updatePeer (env : CrdtEnv) (self : CrdtWorldState) (peerId role : String)
    (connected trusted : Bool) (ts insertedAt recordedAt : Nat) : CrdtWorldState :=
  let self := self.tick
  record env recordedAt
    { self with
      knownPeerIds := self.knownPeerIds.insert peerId insertedAt
      peers := self.peers.upsert (peerEntry peerId role connected trusted ts) ts }

/-- A clock entry, absent ones reading as zero. -/
def clockAt (self : CrdtWorldState) (node : String) : Nat := (self.vectorClock[node]?).getD 0

theorem clockAt_tick (self : CrdtWorldState) (node : String) :
    self.tick.clockAt node
      = if self.nodeId = node then self.clockAt node + 1 else self.clockAt node := by
  rw [clockAt, tick, FinMap.find_alter]
  by_cases h : self.nodeId = node
  · rw [if_pos h, if_pos h, Option.getD_some]
    rfl
  · rw [if_neg h, if_neg h]
    rfl

theorem clockAt_merge (env : CrdtEnv) (now : Nat) (self other : CrdtWorldState) (node : String) :
    (merge env now self other).clockAt node = max (self.clockAt node) (other.clockAt node) :=
  FinMap.getD_mergeMax self.vectorClock other.vectorClock node

end CrdtWorldState

/-- What a node does to its own state. -/
inductive CrdtOp where
  | tick
  | updatePeer (peerId role : String) (connected trusted : Bool) (ts insertedAt recordedAt : Nat)
  | increment (replica : String) (delta : Nat)
  | addAsset (item : String) (tag : UInt64)
  | removeAsset (item : String)
  | setNetworkStatus (value nodeId : String) (now : Nat)
  | setGhostState (value nodeId : String) (now : Nat)
deriving DecidableEq

/-- The state an operation leaves. -/
def CrdtOp.perform (env : CrdtEnv) (s : CrdtWorldState) : CrdtOp → CrdtWorldState
  | .tick => s.tick
  | .updatePeer peerId role connected trusted ts insertedAt recordedAt =>
    s.updatePeer env peerId role connected trusted ts insertedAt recordedAt
  | .increment replica delta =>
    { s with financeCounter := s.financeCounter.increment replica delta }
  | .addAsset item tag => { s with assetOwnership := s.assetOwnership.add item tag }
  | .removeAsset item => { s with assetOwnership := s.assetOwnership.remove item }
  | .setNetworkStatus value nodeId now =>
    { s with networkStatus := s.networkStatus.set value nodeId now }
  | .setGhostState value nodeId now => { s with ghostState := s.ghostState.set value nodeId now }

open Replication

variable {n : Nat}

/-- World states as replicas: their names and the readings their registers start
    with. A merge carries the reading of its audit link. -/
def crdtSystem (env : CrdtEnv) (name : Fin n → String) (started₁ started₂ : Fin n → Nat) :
    System n CrdtWorldState CrdtOp Nat where
  init r := CrdtWorldState.new (name r) (started₁ r) (started₂ r)
  perform _ op s := op.perform env s
  merge now s t := CrdtWorldState.merge env now s t

theorem perform_nodeId (env : CrdtEnv) (s : CrdtWorldState) (op : CrdtOp) :
    (op.perform env s).nodeId = s.nodeId := by
  cases op <;> rfl

theorem run_nodeId (env : CrdtEnv) (name : Fin n → String) (started₁ started₂ : Fin n → Nat)
    (acts : List (Action n CrdtOp Nat)) (r : Fin n) :
    (((crdtSystem env name started₁ started₂).run acts).current r).state.nodeId = name r := by
  refine current_inv (crdtSystem env name started₁ started₂) (fun r s => s.nodeId = name r)
    (fun _ => rfl) ?_ ?_ acts r
  · exact fun q op s hs => (perform_nodeId env s op).trans hs
  · exact fun q m s t hs => hs

def pairName (r : Fin 2) : String := if r = first then "node-a" else "node-b"

def pairSystem (env : CrdtEnv) : System 2 CrdtWorldState CrdtOp Nat :=
  crdtSystem env pairName (fun _ => 0) (fun _ => 0)

end Crdt

end EssNode
