import EssNode.Lib.FinMap

/-!
# The Authority

Who may do what: roles of peers, the permission policy, and the decision on an
action.

A peer is known by the text of its identifier. The manager that shares one state
between the parts of a node adds locking only, so a part that holds a manager
holds the state.
-/

namespace EssNode

namespace Authority

/-- What a peer asks to do. -/
inductive Action where
  | connect
  | route
  | gatewayAccess
  | gatewayEgress
  | webTraffic
  | adminUpdate
  | computeSubmit
deriving DecidableEq, Repr

/-- The debug text of an action in lower case, as the policy lists it. -/
def Action.lowerName : Action → String
  | .connect => "connect"
  | .route => "route"
  | .gatewayAccess => "gatewayaccess"
  | .gatewayEgress => "gatewayegress"
  | .webTraffic => "webtraffic"
  | .adminUpdate => "adminupdate"
  | .computeSubmit => "computesubmit"

/-- The role of a peer, from the least to the most trusted. -/
inductive NodeRole where
  | blocked
  | observer
  | client
  | standard
  | gateway
  | validator
  | supernode
deriving DecidableEq, Repr

namespace NodeRole

/-- The roles in the order of their declaration. -/
def all : List NodeRole :=
  [blocked, observer, client, standard, gateway, validator, supernode]

/-- The position of a role in that order. -/
def rank (r : NodeRole) : Nat := all.idxOf r

instance : LE NodeRole := ⟨fun a b => a.rank ≤ b.rank⟩

instance : LT NodeRole := ⟨fun a b => a.rank < b.rank⟩

instance (a b : NodeRole) : Decidable (a ≤ b) := inferInstanceAs (Decidable (a.rank ≤ b.rank))

instance (a b : NodeRole) : Decidable (a < b) := inferInstanceAs (Decidable (a.rank < b.rank))

theorem all_rank (r : NodeRole) : all[r.rank]? = some r := by
  cases r <;> rfl

/-- The text of a role in configuration bundles. -/
def asStr : NodeRole → String
  | .supernode => "supernode"
  | .validator => "validator"
  | .gateway => "relay"
  | .standard | .client | .observer => "client"
  | .blocked => "blocked"

end NodeRole

/-- What the policy permits. -/
structure PermissionPolicy where
  allowUnknownPeers : Bool
  allowGatewayTraffic : Bool
  allowRouteTransit : Bool
  allowWebTraffic : Bool
deriving DecidableEq, Repr

/-- The policy of a fresh state. -/
def PermissionPolicy.default : PermissionPolicy where
  allowUnknownPeers := false
  allowGatewayTraffic := true
  allowRouteTransit := true
  allowWebTraffic := true

structure AuthorityRoot where
  issuer : String
deriving DecidableEq, Repr

/-- The state decisions are taken from, with its version, its signature and the
    peers that wait for confirmation. The defaults are those of a fresh state. -/
structure AuthorityState where
  supernodes : List String
  allowedPeers : FinMap String NodeRole
  policies : PermissionPolicy
  version : UInt64 := 1
  root : AuthorityRoot := ⟨""⟩
  hash : List UInt8 := []
  signature : List UInt8 := []
  pendingPeers : Finset String := ∅

/-- A decision with its reason. -/
structure AuthorityDecision where
  peerId : String
  action : Action
  allowed : Bool
  reason : String
  role : Option NodeRole
deriving DecidableEq, Repr

namespace AuthorityState

/-- The role of a peer. The list of supernodes comes before the table. -/
def getRole (self : AuthorityState) (peerId : String) : Option NodeRole :=
  if peerId ∈ self.supernodes then some .supernode else self.allowedPeers[peerId]?

/-- What a role other than the two extreme ones may do. -/
def checkRolePermission (self : AuthorityState) (role : NodeRole) : Action → Bool × String
  | .connect => (decide (role > .blocked), "connectivity_check")
  | .route => (self.policies.allowRouteTransit && decide (role ≥ .gateway), "route_check")
  | .gatewayAccess =>
    (self.policies.allowGatewayTraffic && decide (role ≥ .gateway), "gateway_check")
  | .gatewayEgress =>
    (self.policies.allowGatewayTraffic && decide (role ≥ .gateway), "egress_check")
  | .adminUpdate => (decide (role ≥ .validator), "admin_check")
  | .webTraffic => (self.policies.allowWebTraffic, "web_policy_check")
  | .computeSubmit => (decide (role ≥ .client), "compute_submit_allowed")

/-- Decide whether a peer may do something. -/
def evaluateAction (self : AuthorityState) (peer : String) (action : Action) :
    AuthorityDecision :=
  let role := self.getRole peer
  let decision : Bool × String :=
    match role with
    | some .blocked => (false, "explicitly_blocked")
    | some .supernode => (true, "supernode_unlimited")
    | some r => self.checkRolePermission r action
    | none =>
      if self.policies.allowUnknownPeers then (true, "unknown_allowed_by_policy")
      else (false, "unregistered_peer_denied")
  { peerId := peer, action := action, allowed := decision.1, reason := decision.2, role := role }

def isAllowed (self : AuthorityState) (peer : String) (action : Action) : Bool :=
  (self.evaluateAction peer action).allowed

theorem isAllowed_blocked (self : AuthorityState) (peer : String) (action : Action)
    (hsuper : peer ∉ self.supernodes) (h : self.allowedPeers[peer]? = some .blocked) :
    self.isAllowed peer action = false := by
  simp [isAllowed, evaluateAction, getRole, hsuper, h]

end AuthorityState

end Authority

end EssNode
