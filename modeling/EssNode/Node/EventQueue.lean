import EssNode.Lib.BoundedChannel
import EssNode.Node.Connections
import EssNode.Security.Replay

/-!
# The Queue of Reported Events

The runner gives the controller a channel for 2048 events and enters the event loop. What
happens to peers is reported into it: connections that come and go, denials by the policy,
and decisions of the gateway. A handler that reports an event waits until the channel has
room, and the loop waits with it. The reports that a synchronisation is complete are sent by
tasks of their own.

The other end of the channel is kept in a variable of the runner that nothing reads, so
nothing is ever taken out. There is room throughout a run exactly if fewer than 2048 events
are reported in it (`event_queue_room_iff`). Every connection that is opened or closed is
reported, so a node that has seen 2048 of them waits, and goes on waiting for ever
(`crowd_blocks_loop`).

The handlers are those of `NetworkRuntime`, with the reports they make: as long as there is
room, the loop does the same there and here (`state_eventByEvent`). Handlers of requests are
modelled as far as they report; what they check besides is part of the event, and what they
and other tasks do to the node may happen between any two steps. The time in a report, and
the channel to the dashboard, which is read, are left out.
-/

namespace EssNode

open Authority BoundedChannel Program

/-- What is reported. -/
inductive SystemEventKind where
  | peerConnected (peerId : String)
  | peerDisconnected (peerId : String)
  | authorityViolation (peerId : String) (action : Action)
  | syncCompleted
  | ghostRecommendation (signal : String)
  | gatewayAudit (peerId method : String) (allowed : Bool)
deriving DecidableEq, Repr

/-- An event in the channel. -/
structure QueuedEvent where
  source : String
  kind : SystemEventKind
deriving DecidableEq, Repr

/-- What the checks of a gateway request say, other than the policy. -/
structure GatewayChecks where
  formatted : Bool
  verified : Bool
  withinRate : Bool
  routed : Bool

/-- What the checks of a web request say, other than the policy. -/
structure WebChecks where
  formatted : Bool
  supported : Bool
  verified : Bool

/-- What the loop is told by the swarm, as far as it leads to a report. A direct request is
    one without a message inside. -/
inductive LoopEvent where
  | swarm (event : NetworkEvent)
  | gatewayRequest (peer method : String) (checks : GatewayChecks)
  | webRequest (peer : String) (checks : WebChecks)
  | configRequest (peer : String) (formatted : Bool)
  | directRequest (peer : String) (formatted : Bool)
  | storageRequest (peer : String)

namespace EventLoop

/-! ### The handlers -/

abbrev Handler := Program QueuedEvent NetworkRuntime

def network : Handler NetworkRuntime := .read .done

def modifyNetwork (f : NetworkRuntime → NetworkRuntime) : Handler Unit := .write f (.done ())

def consumeEvent (source : String) (kind : SystemEventKind) : Handler Unit :=
  .send ⟨source, kind⟩ (.done ())

/-- Let another task send an event. -/
def pushGhostSync : Handler Unit := .spawn ⟨"controller", .syncCompleted⟩ (.done ())

def pushGhostSignal (signal : String) : Handler Unit :=
  consumeEvent "ghost" (.ghostRecommendation signal)

def recordGatewayAudit (peer method : String) (allowed : Bool) : Handler Unit :=
  consumeEvent "gateway" (.gatewayAudit peer method allowed)

def syncWithWorld : Handler Unit := do
  modifyNetwork NetworkRuntime.syncWithWorld
  pushGhostSync

def violation (peer : String) (action : Action) : Handler Bool := do
  consumeEvent "controller" (.authorityViolation peer action)
  return false

/-- Whether a peer may do something. A denial by an authority is reported. -/
def enforce (peer : String) (action : Action) : Handler Bool := do
  let n := (← network).node
  if n.isQuarantined peer then return false
  else if n.securityAttached && !(n.security.verifyAccess action.lowerName).isOk then return false
  else if n.securityAttached && !n.security.isAllowed peer action then violation peer action
  else
    match n.authority with
    | some auth => if !auth.isAllowed peer action then violation peer action else return true
    | none => return true

def enforcePeer (peer : String) : Handler Bool := do
  if !(← enforce peer .connect) then return false
  else
    let n := (← network).node
    if n.securityAttached && !(n.security.verifyPeer peer).isOk then return false
    else return true

def enforceGatewayPeer (peer : String) (routed : Bool) : Handler Bool :=
  if !routed then return false else enforce peer .gatewayAccess

def connectionEstablished (env : NetworkEnv) (clock : Nat → UInt64) (peer : String) :
    Handler Unit := do
  modifyNetwork (·.countConnection peer)
  -- Reported before the policy is asked, so strangers are reported as well.
  consumeEvent "network" (.peerConnected peer)
  match (← network).node.worldState with
  | none => syncWithWorld
  | some ws =>
    modifyNetwork fun net => { net with node := net.node.enterPeer env clock peer ws }
    if !(← enforcePeer peer) then
      modifyNetwork (·.uncountConnection peer)
      modifyNetwork fun net =>
        { net with
          node := net.node.updateWorldState (·.setPeerConnected (clock 5) (clock 6) peer false) }
    else
      modifyNetwork fun net =>
        { net with node := net.node.updateWorldState (·.addRoute (clock 5) peer peer) }
      syncWithWorld

def connectionClosed (clock : Nat → UInt64) (peer : String) : Handler Unit := do
  modifyNetwork (·.uncountConnection peer)
  consumeEvent "network" (.peerDisconnected peer)
  match (← network).node.worldState with
  | none => syncWithWorld
  | some _ =>
    modifyNetwork fun net =>
      { net with
        node := net.node.updateWorldState fun ws =>
          ((ws.setPeerConnected (clock 0) (clock 1) peer false).setPeerTrusted (clock 2) (clock 3)
            peer false).removeRoute (clock 4) peer peer }
    syncWithWorld

def identifyReceived (env : NetworkEnv) (clock : Nat → UInt64) (peer : String)
    (publicKey : PublicKey) (response : Option ConfigResponse) : Handler Unit :=
  modifyNetwork (·.identifyReceived env clock peer publicKey response)

/-- Every decision about a request that gets as far is put on record. -/
def gatewayRequest (peer method : String) (checks : GatewayChecks) : Handler Unit := do
  if checks.formatted then
    -- A request that is denied here has its denial reported and no record of its own.
    if ← enforce peer .gatewayAccess then
      let allowed ←
        if checks.verified && checks.withinRate then enforceGatewayPeer peer checks.routed
        else pure false
      recordGatewayAudit peer method allowed

/-- A request that is served if the policy allows it. -/
def guarded (reached : Bool) (peer : String) (action : Action) : Handler Unit := do
  if reached then
    let _ ← enforce peer action

def webRequest (peer : String) (checks : WebChecks) : Handler Unit :=
  guarded (checks.formatted && checks.supported && checks.verified) peer .webTraffic

def configRequest (peer : String) (formatted : Bool) : Handler Unit :=
  guarded formatted peer .connect

def directRequest (peer : String) (formatted : Bool) : Handler Unit :=
  guarded formatted peer .connect

def storageRequest (peer : String) : Handler Unit := guarded true peer .connect

def handle (env : NetworkEnv) : LoopEvent → Handler Unit
  | .swarm e =>
    match e.event with
    | .connectionEstablished peer => connectionEstablished env e.clock peer
    | .connectionClosed peer => connectionClosed e.clock peer
    | .identifyReceived peer publicKey response =>
      identifyReceived env e.clock peer publicKey response
  | .gatewayRequest peer method checks => gatewayRequest peer method checks
  | .webRequest peer checks => webRequest peer checks
  | .configRequest peer formatted => configRequest peer formatted
  | .directRequest peer formatted => directRequest peer formatted
  | .storageRequest peer => storageRequest peer

/-! ### The runner -/

def boot : Handler Unit := do
  pushGhostSignal "network_runner_boot"
  pushGhostSync

def eventCapacity : Nat := 2048

/-- The loop as the runner starts it. -/
def launched (net : NetworkRuntime) : Loop QueuedEvent NetworkRuntime (some eventCapacity) :=
  .start (some eventCapacity) net boot

variable (env : NetworkEnv) (net : NetworkRuntime) (peer : String)

/-- Everything that is reported in a run, were there room for it. -/
def offered (net : NetworkRuntime) (run : List (Move NetworkRuntime LoopEvent)) :
    List QueuedEvent :=
  ((launched net).unbounded.after (handle env) run).channel.queue

/-! ### What a handler does -/

/-- What a node reports is sent by its controller. -/
def queued : SystemEvent → QueuedEvent
  | .authorityViolation peer action => ⟨"controller", .authorityViolation peer action⟩

/-- What a node reports when it decides about a peer. -/
def denials (n : Node) (peer : String) (action : Action) : List QueuedEvent :=
  ((({ n with eventTx := some [] } : Node).enforce peer action).1.eventTx.getD []).map queued

theorem run_enforce (action : Action) :
    (enforce peer action).run net
      = ⟨(net.node.enforce peer action).2, net, denials net.node peer action, []⟩ := by
  unfold denials
  rcases net with ⟨n, runtime⟩
  -- The four checks in their order; none of them reads the list of reports.
  have hquarantine : ({ n with eventTx := some [] } : Node).isQuarantined peer
      = n.isQuarantined peer := rfl
  simp only [enforce, network, Node.enforce, run_bind, run, hquarantine]
  by_cases hquarantined : n.isQuarantined peer = true
  · simp [hquarantined, run_pure]
  simp only [hquarantined]
  by_cases haction : (n.securityAttached && !(n.security.verifyAccess action.lowerName).isOk) = true
  · simp [haction, run_pure]
  simp only [haction]
  by_cases hruntime : (n.securityAttached && !n.security.isAllowed peer action) = true
  · simp [hruntime, violation, consumeEvent, run_bind, run, run_pure,
      Node.consumeEvent, queued]
  simp only [hruntime]
  cases hauth : n.authority with
  | none => simp [run_pure]
  | some auth =>
    by_cases hallowed : auth.isAllowed peer action = true
    · simp [hallowed, run_pure]
    · simp [hallowed, violation, consumeEvent, run_bind, run, run_pure,
        Node.consumeEvent, queued]

theorem run_enforcePeer :
    (enforcePeer peer).run net
      = ⟨(net.node.enforcePeer peer).2, net, denials net.node peer .connect, []⟩ := by
  simp only [enforcePeer, Node.enforcePeer, run_bind, run_enforce]
  cases (net.node.enforce peer .connect).2 with
  | false => simp [run_pure]
  | true =>
    simp only [network, run, run_bind, Bool.not_true, Bool.false_eq_true,
      if_false]
    by_cases hpeer :
      (net.node.securityAttached && !(net.node.security.verifyPeer peer).isOk) = true
    · simp [hpeer, run_pure]
    · simp [hpeer, run_pure]

theorem enforcePeer_silent {n : Node} (h : n.eventTx = none) (peer : String) :
    (n.enforcePeer peer).1 = n := by
  have hconsume (event : SystemEvent) : n.consumeEvent event = n := by
    rcases n with ⟨⟩
    cases h
    rfl
  rw [Node.enforcePeer_fst]
  rcases n.enforce_cases peer .connect with hcase | hcase | hcase
  · rw [hcase]
  · rw [hcase]
  · rw [hcase, hconsume]

variable {net : NetworkRuntime}

theorem run_connectionEstablished (hsilent : net.node.eventTx = none) (clock : Nat → UInt64)
    (peer : String) :
    ((connectionEstablished env clock peer).run net).state
      = net.connectionEstablished env clock peer := by
  simp only [connectionEstablished, NetworkRuntime.connectionEstablished, run_bind,
    modifyNetwork, consumeEvent, network, run]
  cases hworld : (net.countConnection peer).node.worldState with
  | none => rfl
  | some ws =>
    have hentered :
        ((net.countConnection peer).node.enterPeer env clock peer ws).eventTx = none := hsilent
    simp only [run_bind, run, run_enforcePeer]
    cases (((net.countConnection peer).node.enterPeer env clock peer ws).enforcePeer peer).2 with
    | false =>
      simp only [Bool.not_false, if_true, run_bind, run,
        enforcePeer_silent hentered]
      rfl
    | true =>
      simp only [Bool.not_true, Bool.false_eq_true, if_false, run_bind, run,
        enforcePeer_silent hentered]
      rfl

theorem run_swarm (hsilent : net.node.eventTx = none) (e : NetworkEvent) :
    ((handle env (.swarm e)).run net).state = net.handleEvent env e := by
  rcases e with ⟨event, clock⟩
  cases event with
  | connectionEstablished peer => exact run_connectionEstablished env hsilent clock peer
  | connectionClosed peer =>
    simp only [handle, connectionClosed, NetworkRuntime.handleEvent,
      NetworkRuntime.connectionClosed, run_bind, modifyNetwork, consumeEvent, network,
      run]
    cases (net.uncountConnection peer).node.worldState with
    | none => rfl
    | some ws => rfl
  | identifyReceived peer publicKey response => rfl

def OfConnection : LoopEvent → Prop
  | .swarm ⟨.connectionEstablished _, _⟩ => True
  | .swarm ⟨.connectionClosed _, _⟩ => True
  | _ => False

theorem sent_of_connection {e : LoopEvent} (h : OfConnection e) (net : NetworkRuntime) :
    ((handle env e).run net).sent ≠ [] := by
  match e, h with
  | .swarm ⟨.connectionEstablished peer, clock⟩, _ =>
    simp [handle, connectionEstablished, run_bind, modifyNetwork, consumeEvent,
      run]
  | .swarm ⟨.connectionClosed peer, clock⟩, _ =>
    simp [handle, connectionClosed, run_bind, modifyNetwork, consumeEvent, run]

/-! ### The queue -/

/-- The controller's channel has room at every point of a run exactly if fewer events than it
    holds are reported in the run. -/
theorem event_queue_room_iff (net : NetworkRuntime) (run : List (Move NetworkRuntime LoopEvent)) :
    (∀ before, before <+: run →
      ((launched net).after (handle env) before).channel.queue.length < 2048) ↔
      (offered env net run).length < 2048 := by
  have hroom := room_iff (handle env) (launched net) run
  simp only [Channel.hasRoom_some] at hroom
  exact hroom

/-- The steps of the runner before it enters the loop, and then those of the loop event by
    event. -/
def eventByEvent (net : NetworkRuntime) (events : List LoopEvent) :
    List (Move NetworkRuntime LoopEvent) :=
  List.replicate (boot.steps net) .advance ++ undisturbed (handle env) net events

theorem after_boot (net : NetworkRuntime) :
    (launched net).unbounded.after (handle env) (List.replicate (boot.steps net) .advance)
      = ⟨net, ⟨[⟨"ghost", .ghostRecommendation "network_runner_boot"⟩], nofun⟩,
          [⟨"controller", .syncCompleted⟩], .done ()⟩ :=
  after_advance (handle env) (launched net).unbounded

theorem offered_eventByEvent (net : NetworkRuntime) (events : List LoopEvent) :
    offered env net (eventByEvent env net events)
      = ⟨"ghost", .ghostRecommendation "network_runner_boot"⟩
          :: reports (handle env) net events := by
  rw [offered, eventByEvent, after_append, after_boot]
  exact (after_undisturbed (handle env) rfl events).1

theorem silent_handleEvent (hsilent : net.node.eventTx = none)
    (e : NetworkEvent) : (net.handleEvent env e).node.eventTx = none := by
  rcases e with ⟨event, clock⟩
  cases event with
  | connectionEstablished peer =>
    simp only [NetworkRuntime.handleEvent, NetworkRuntime.connectionEstablished]
    split
    · rw [NetworkRuntime.syncWithWorld_node]
      exact hsilent
    · rename_i ws _
      have hentered :
          ((net.countConnection peer).node.enterPeer env clock peer ws).eventTx = none := hsilent
      rw [enforcePeer_silent hentered]
      split
      · exact hentered
      · rw [NetworkRuntime.syncWithWorld_node]
        exact hentered
  | connectionClosed peer =>
    simp only [NetworkRuntime.handleEvent, NetworkRuntime.connectionClosed]
    split
    · rw [NetworkRuntime.syncWithWorld_node]
      exact hsilent
    · rw [NetworkRuntime.syncWithWorld_node]
      exact hsilent
  | identifyReceived peer publicKey response =>
    simp only [NetworkRuntime.handleEvent, NetworkRuntime.identifyReceived, Node.sendConfigSync]
    split
    · exact hsilent
    · split
      · exact hsilent
      · exact hsilent

theorem foldl_run_swarm (hsilent : net.node.eventTx = none) (events : List NetworkEvent) :
    (events.map LoopEvent.swarm).foldl (fun net e => ((handle env e).run net).state) net
      = net.after env events := by
  induction events generalizing net with
  | nil => rfl
  | cons e events ih =>
    rw [List.map_cons, List.foldl_cons, run_swarm env hsilent e]
    exact ih (silent_handleEvent env hsilent e)

/-- As long as the queue has room, a loop that goes through connection events one by one does
    what the handlers without reports do. -/
theorem state_eventByEvent (hsilent : net.node.eventTx = none) (events : List NetworkEvent)
    (hroom : ((launched net).after (handle env)
      (eventByEvent env net (events.map .swarm))).channel.HasRoom) :
    ((launched net).after (handle env) (eventByEvent env net (events.map .swarm))).state
      = net.after env events := by
  have hsame := (queue_after (handle env) (launched net)
    (eventByEvent env net (events.map .swarm))).2 hroom
  have hstate : ((launched net).unbounded.after (handle env)
      (eventByEvent env net (events.map .swarm))).state = net.after env events := by
    rw [eventByEvent, after_append, after_boot, ← foldl_run_swarm env hsilent]
    exact (after_undisturbed (handle env) rfl _).2
  rw [hsame] at hstate
  exact hstate

/-- One peer connects. -/
theorem state_one_connection :
    let env : NetworkEnv := ⟨tagCrypto "key", fun _ => .error "no bundle", ⟨id, fun _ => none⟩⟩
    let events := [(SwarmEvent.connectionEstablished "alice").atZero]
    ((launched openNetwork).after (handle env)
      (eventByEvent env openNetwork (events.map .swarm))).state = openNetwork.after env events :=
  state_eventByEvent _ rfl _ (by decide +kernel)

/-- After 2048 connections the loop waits, and nothing that happens later ends that. -/
theorem crowd_blocks_loop (net : NetworkRuntime) {events : List LoopEvent}
    (hconnections : ∀ e ∈ events, OfConnection e) (hmany : 2048 ≤ events.length)
    (later : List (Move NetworkRuntime LoopEvent)) :
    ((launched net).after (handle env) (eventByEvent env net events ++ later)).Blocked := by
  rw [after_append]
  -- The boot signal comes on top of the connections, so one report is too many.
  refine Loop.Blocked.after (blocked_of_overflow ?_ ?_) later
  · intro i hi
    rcases List.mem_append.mp hi with hboot | hloop
    · simp at hboot
    · exact not_spawned_undisturbed (handle env) net events i hloop
  · have hreports : events.length ≤ (reports (handle env) net events).length :=
      length_le_reports fun e he => sent_of_connection env (hconnections e he)
    have hoffered := congrArg List.length (offered_eventByEvent env net events)
    rw [List.length_cons] at hoffered
    unfold offered at hoffered
    rw [hoffered, eventCapacity]
    omega

/-- A peer that connects and leaves again, so many times. -/
def churn (times : Nat) : List LoopEvent :=
  (List.replicate times [LoopEvent.swarm (SwarmEvent.connectionEstablished "alice").atZero,
    LoopEvent.swarm (SwarmEvent.connectionClosed "alice").atZero]).flatten

theorem length_churn (times : Nat) : (churn times).length = times * 2 := by simp [churn]

theorem ofConnection_churn {times : Nat} {e : LoopEvent} (he : e ∈ churn times) :
    OfConnection e := by
  simp only [churn, List.mem_flatten, List.mem_replicate] at he
  rcases he with ⟨pair, ⟨-, rfl⟩, hpair⟩
  rcases List.mem_pair.mp hpair with rfl | rfl
  · exact trivial
  · exact trivial

/-- When it has done so for the 1024th time, the queue is full and the loop waits for ever. -/
theorem churn_blocks_loop :
    (churn 1024).length = 2048 ∧
      ∀ env later,
        ((launched openNetwork).after (handle env)
          (eventByEvent env openNetwork (churn 1024) ++ later)).channel.queue.length = 2048 ∧
        ((launched openNetwork).after (handle env)
          (eventByEvent env openNetwork (churn 1024) ++ later)).Blocked := by
  have hlength := length_churn 1024
  refine ⟨hlength, fun env later => ?_⟩
  have hblocked := crowd_blocks_loop env openNetwork (fun e he => ofConnection_churn he)
    hlength.ge later
  have hfull := hblocked.1
  rw [Channel.hasRoom_some] at hfull
  exact ⟨Nat.le_antisymm (Channel.length_le _) (Nat.not_lt.mp hfull), hblocked⟩

end EventLoop

end EssNode
