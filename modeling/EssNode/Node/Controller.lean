import EssNode.Compute
import EssNode.Crdt.Sync
import EssNode.Governance.Casting
import EssNode.Security
import EssNode.WorldState

/-!
# The Network Controller

The state of a node and the policy decision made before a peer is served.

The security runtime and the authority are attached to the controller when it is
set up; a check on something that is not attached is skipped. A refusal by the
authority is reported as an event.
-/

namespace EssNode

open Authority Bincode Governance Crdt Compute

/-- What the handlers take from other crates: signatures and base64, JSON, the
    bytes of a state that is sent, key encapsulation, and opening an onion
    layer. -/
structure NodeEnv where
  crypto : Crypto
  crdt : CrdtEnv
  compute : ComputeEnv
  syncPayload : CrdtWorldState → List UInt8
  certJson : ActivationCertificate → Option (List UInt8)
  bundleJson : ConfigBundle → Except String String
  encapsulate : HybridPublicKey → String → List UInt8 → Except String (List UInt8)
  peelOnionLayer : OnionLayer → Except String (String × List UInt8)

/-- What handling one request draws: the successive readings of the clock, nonces,
    a random identifier and random bytes, and the stamps of the messages it
    makes. -/
structure Readings where
  clock : Nat → UInt64
  nonce : Nat → String
  uuid : String
  random : List UInt8
  reply : Stamp
  secondReply : Stamp
  forward : Stamp

inductive SystemEvent where
  | authorityViolation (peerId : String) (action : Action)
deriving DecidableEq, Repr

/-- A node. Channels are lists of what was sent: events to the control loop and
    results to the dashboard. -/
structure Node where
  localPeerId : String
  security : SecurityRuntime
  securityAttached : Bool
  authority : Option AuthorityState
  reputation : FinMap String PeerReputation
  eventTx : Option (List SystemEvent)
  worldState : Option WorldState
  governanceEngine : GovernanceEngine
  crdtWorld : Option CrdtWorldState
  computeHandle : Option ComputeSchedulerHandle
  computeStore : Option ComputeStore
  dashboard : List ComputeResult

/-- The same replicated state, governance engine, world state and results. -/
structure SameData (n m : Node) : Prop where
  crdtWorld : m.crdtWorld = n.crdtWorld
  governanceEngine : m.governanceEngine = n.governanceEngine
  worldState : m.worldState = n.worldState
  computeStore : m.computeStore = n.computeStore

theorem SameData.refl (n : Node) : SameData n n := ⟨rfl, rfl, rfl, rfl⟩

namespace Node

variable (n : Node) (peer : String) (action : Action)

def consumeEvent (event : SystemEvent) : Node :=
  { n with eventTx := n.eventTx.map (· ++ [event]) }

def updateWorldState (f : WorldState → WorldState) : Node :=
  { n with worldState := n.worldState.map f }

def isQuarantined (peer : String) : Bool :=
  (n.reputation[peer]?.map PeerReputation.isQuarantined).getD false

/-- Whether a peer may do something: quarantine, the list of permitted actions,
    the runtime's authority and the controller's, in this order. -/
def enforce (peer : String) (action : Action) : Node × Bool :=
  if n.isQuarantined peer then (n, false)
  else if n.securityAttached && !(n.security.verifyAccess action.lowerName).isOk then (n, false)
  else if n.securityAttached && !n.security.isAllowed peer action then
    (n.consumeEvent (.authorityViolation peer action), false)
  else
    match n.authority with
    | some auth =>
      if !auth.isAllowed peer action then
        (n.consumeEvent (.authorityViolation peer action), false)
      else (n, true)
    | none => (n, true)

/-- Everything the decision can come to: a permission, a silent refusal, or a
    reported one. -/
theorem enforce_cases :
    n.enforce peer action = (n, true) ∨ n.enforce peer action = (n, false) ∨
      n.enforce peer action = (n.consumeEvent (.authorityViolation peer action), false) := by
  unfold enforce
  -- The four checks in their order; the last is made only under an authority.
  split
  · exact Or.inr (Or.inl rfl)
  split
  · exact Or.inr (Or.inl rfl)
  split
  · exact Or.inr (Or.inr rfl)
  split
  · split
    · exact Or.inr (Or.inr rfl)
    · exact Or.inl rfl
  · exact Or.inl rfl

theorem enforce_eq :
    (n.enforce peer action).1 = { n with eventTx := (n.enforce peer action).1.eventTx } := by
  rcases n.enforce_cases peer action with h | h | h
  · rw [h]
  · rw [h]
  · rw [h]
    rfl

theorem enforce_node_of_allowed {peer : String} {action : Action}
    (h : (n.enforce peer action).2 = true) : (n.enforce peer action).1 = n := by
  rcases n.enforce_cases peer action with hcase | hcase | hcase
  · rw [hcase]
  · rw [hcase]
  · rw [hcase] at h
    exact absurd h Bool.false_ne_true

theorem enforce_blocked {auth : AuthorityState} (hauth : n.authority = some auth) {peer : String}
    (action : Action) (hsuper : peer ∉ auth.supernodes)
    (hblocked : auth.allowedPeers[peer]? = some .blocked) : (n.enforce peer action).2 = false := by
  unfold enforce
  rw [hauth]
  dsimp only
  rw [auth.isAllowed_blocked peer action hsuper hblocked]
  split
  · rfl
  split
  · rfl
  split <;> rfl

theorem enforce_sameData : SameData n (n.enforce peer action).1 := by
  rw [n.enforce_eq peer action]
  exact ⟨rfl, rfl, rfl, rfl⟩

theorem enforce_security : (n.enforce peer action).1.security = n.security := by
  rw [n.enforce_eq peer action]

end Node

end EssNode
