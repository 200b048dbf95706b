import EssNode.Ghost
import EssNode.Message
import EssNode.WorldState

/-!
# Health and Policy of the Ghost Runtime

The ghost runtime stands beside the ghost engine. It looks at the world state, rates the health
of the node, and has a policy that says what follows from it, from the reputation of a peer,
from the load and from an event.

The health that is rated here has nothing to do with that of the engine, nor have the decisions.
The node is taken not to be tampered with, and its gateway and its configuration to be in order.

Thresholds and latencies are exact fractions. Fields of the policy that nothing reads are left
out. Of an event the runtime looks at its kind, as far as it is one of those below, and passes
the text it is shown as on to the engine.
-/

namespace EssNode

namespace GhostRuntime

/-! ### Health -/

structure GhostHealthSnapshot where
  nodeId : String := "unknown"
  role : String := "client"
  connectedPeers : Nat := 0
  knownPeers : Nat := 0
  routePeers : Nat := 0
  trustedPeers : Nat := 0
  bootstrapOk : Bool := false
  gatewayOk : Bool := false
  webOk : Bool := false
  configOk : Bool := false
  tamperDetected : Bool := false
  lastFailureReason : Option String := none
deriving DecidableEq, Repr

namespace GhostHealthSnapshot

variable (self : GhostHealthSnapshot)

def roleNorm : String := toAsciiLowercase (trim self.role)

def isSupernode : Bool := self.roleNorm = "supernode"

def isRelay : Bool := self.roleNorm = "relay"

def isConfigReady : Bool := self.configOk

def hasTrustedPath : Bool :=
  self.bootstrapOk || self.gatewayOk || self.webOk || decide (0 < self.trustedPeers)

def isNetworkReachable : Bool := decide (0 < self.connectedPeers) || self.hasTrustedPath

def isOperational : Bool :=
  self.isConfigReady && self.isNetworkReachable && !self.tamperDetected

def looksLikeDisconnectReason : Bool :=
  match self.lastFailureReason with
  | some reason =>
    let reason := (toAsciiLowercase reason).toList
    decide ("disconnect".toList <:+: reason) || decide ("closed".toList <:+: reason)
      || decide ("transport".toList <:+: reason)
  | none => false

/-- A score of at most one hundred. -/
def healthScore : Nat :=
  if self.tamperDetected then 0
  else
    let score : Int := 40
    let score := if self.isOperational then score + 30 else score
    let score := if self.isSupernode && self.gatewayOk then score + 10 else score
    let score := if self.isRelay && self.bootstrapOk then score + 10 else score
    let score := if 2 ≤ self.connectedPeers then score + 10 else score
    let score := if self.looksLikeDisconnectReason then score - 10 else score
    (max 0 (min score 100)).toNat

end GhostHealthSnapshot

inductive GhostHealthLevel where
  | healthy
  | degraded
  | critical
deriving DecidableEq, Repr

inductive GhostHealthRecommendation where
  | stayAwake
  | wake
  | beacon
  | sleep
  | panic
deriving DecidableEq, Repr

structure GhostHealthAssessment where
  level : GhostHealthLevel
  recommendation : GhostHealthRecommendation
  reason : String
deriving DecidableEq, Repr

def assess (snapshot : GhostHealthSnapshot) (currentState : Ghost.GhostState) :
    GhostHealthAssessment :=
  let score := snapshot.healthScore
  let level : GhostHealthLevel :=
    if 85 ≤ score then .healthy else if 45 ≤ score then .degraded else .critical
  let reason :=
    if snapshot.tamperDetected then "tamper_detected"
    else if snapshot.connectedPeers = 0 then "isolated_node"
    else "normal_operation"
  let recommendation : GhostHealthRecommendation :=
    match level with
    | .critical => .panic
    | .degraded => .beacon
    | .healthy =>
      if 0 < snapshot.connectedPeers then .stayAwake
      else if currentState = .sleep then .wake
      else .sleep
  { level, recommendation, reason }

/-! ### Policy -/

structure GhostPolicy where
  allowSleepWhenHealthy : Bool := true
  wakeWhenNoPeers : Bool := true
  minReputationToConnect : ℚ := 1 / 5
  quarantineThreshold : ℚ := 1 / 10
  retryOnTransientFailure : Bool := true
  throttleConnectedPeerThreshold : Nat := 64
  degradePeerThreshold : Nat := 128
  rerouteOnRoutePressure : Bool := true
  panicOnCritical : Bool := true
deriving DecidableEq, Repr

inductive GhostDecision where
  | noop
  | wake
  | sleep
  | beacon
  | sync
  | panic
  | degrade
  | dropPeer (peerId : String)
  | throttle (peerId : String)
  | isolatePeer (peerId : String)
  | retry (peerId : String)
  | reroute (peerId : String)
  | adjustReputation (peerId : String) (delta : ℚ)
deriving DecidableEq, Repr

/-- The kinds of events that the runtime tells apart. -/
inductive EventKind where
  | peerConnected
  | authorityViolation (peerId : String)
  | securityReject (peerId : String)
  | highLatency (peerId : String) (latency : ℚ)
  | routePressure (routeNamespace : String)
  | anomalyDetected
  | other
deriving DecidableEq, Repr

/-- An event, and the text it is shown as. -/
structure PublishedEvent where
  kind : EventKind
  debug : String
deriving DecidableEq, Repr

namespace GhostPolicy

variable (self : GhostPolicy)

def evaluateEvent : EventKind → GhostDecision
  | .authorityViolation peerId => .isolatePeer peerId
  | .securityReject peerId =>
    if self.retryOnTransientFailure then .retry peerId else .dropPeer peerId
  | .highLatency peerId latency => if 2000 < latency then .throttle peerId else .noop
  | .routePressure routeNamespace =>
    if self.rerouteOnRoutePressure then .reroute routeNamespace else .beacon
  | .anomalyDetected => .sync
  | .peerConnected | .other => .noop

def decideHealth (currentState : Ghost.GhostState) (assessment : GhostHealthAssessment) :
    GhostDecision :=
  match assessment.level with
  | .critical => if self.panicOnCritical then .panic else .degrade
  | .degraded =>
    match assessment.recommendation with
    | .beacon => .beacon
    | .wake => .wake
    | _ => .noop
  | .healthy =>
    if assessment.recommendation = .sleep ∧ self.allowSleepWhenHealthy then .sleep
    else if currentState = .sleep ∧ self.wakeWhenNoPeers then .wake
    else .noop

def evaluateReputation (peerId : String) (score : ℚ) : GhostDecision :=
  if score < self.quarantineThreshold then .isolatePeer peerId
  else if score < self.minReputationToConnect then .reroute peerId
  else .noop

def evaluateLoad (connectedCount : Nat) : GhostDecision :=
  if self.degradePeerThreshold ≤ connectedCount then .degrade
  else if self.throttleConnectedPeerThreshold ≤ connectedCount then .sync
  else .noop

end GhostPolicy

/-- The policy's view on the health of the node. -/
protected def decide (policy : GhostPolicy) (currentState : Ghost.GhostState)
    (assessment : GhostHealthAssessment) : GhostDecision :=
  policy.decideHealth currentState assessment

def GhostDecision.publishes : GhostDecision → Bool
  | .wake | .sleep | .panic | .degrade => true
  | _ => false

theorem publishes_evaluateEvent (policy : GhostPolicy) (kind : EventKind) :
    (policy.evaluateEvent kind).publishes = false := by
  cases kind with
  | peerConnected | authorityViolation | anomalyDetected | other => rfl
  | securityReject peerId =>
    simp only [GhostPolicy.evaluateEvent]
    split <;> rfl
  | highLatency peerId latency =>
    simp only [GhostPolicy.evaluateEvent]
    split <;> rfl
  | routePressure routeNamespace =>
    simp only [GhostPolicy.evaluateEvent]
    split <;> rfl

theorem publishes_evaluateReputation (policy : GhostPolicy) (peerId : String) (score : ℚ) :
    (policy.evaluateReputation peerId score).publishes = false := by
  simp only [GhostPolicy.evaluateReputation]
  split
  · rfl
  · split <;> rfl

/-! ### A node in order -/

/-- Not tampered with, with its gateway and its configuration in order. -/
structure GhostHealthSnapshot.InOrder (snapshot : GhostHealthSnapshot) : Prop where
  tamperDetected : snapshot.tamperDetected = false
  gatewayOk : snapshot.gatewayOk = true
  configOk : snapshot.configOk = true

end GhostRuntime

end EssNode
