import EssNode.Node.Connections
import EssNode.Node.Reputation

/-!
# The Dashboard's Summary

The dashboard counts the peers of the registry, and so does the world state. Both count those that
are connected and those that are known. Peers with a route, and trusted ones, are counted by the
dashboard if they are connected and by the world state in any case. As long as the registry is
empty, the dashboard adds up what its store has of other nodes.

Nothing that is done on connections makes a peer trusted. A route is entered with a connection that
is permitted, and goes with any that is closed. One that is refused clears the flag and leaves the
route: so the two agree along a run exactly if they do at first, and no connection is refused to a
peer with a route (`dashboard_agrees_iff`). That takes a peer that is no longer permitted while it
is connected, as after denials enough to put it in quarantine (`quarantined_route_counted`).
-/

namespace EssNode

open Option

/-- A node as the store shows it, with the counts in what it has of the node's health. -/
structure DashboardNode where
  role : String := ""
  healthLevel : Option String := none
  health : Option GhostState := none
deriving DecidableEq, Repr

structure DashboardSummary where
  totalNodes : Nat
  supernodes : Nat
  relays : Nat
  clients : Nat
  healthyNodes : Nat
  degradedNodes : Nat
  criticalNodes : Nat
  /-- The connected, known, routed and trusted peers. -/
  peers : GhostState
  status : String
deriving DecidableEq, Repr

namespace DashboardSummary

def addPeers (a b : GhostState) : GhostState :=
  { connectedCount := a.connectedCount + b.connectedCount
    knownCount := a.knownCount + b.knownCount
    routeCount := a.routeCount + b.routeCount
    trustedCount := a.trustedCount + b.trustedCount }

def normalized (text : String) : String := toAsciiLowercase (trim text)

/-- The counts of a registry that is not empty. -/
def registryPeers (registry : FinMap String PeerState) : GhostState :=
  { connectedCount := FinMap.count PeerState.connected registry
    knownCount := registry.size
    routeCount := FinMap.count (fun p => p.connected && decide (p.routes ≠ ∅)) registry
    trustedCount := FinMap.count (fun p => p.connected && p.trusted) registry }

end DashboardSummary

open DashboardSummary in
/-- The summary. The registry counts if it can be read and is not empty. -/
def dashboardSummary (nodes : List DashboardNode) (worldState : Option WorldState) :
    DashboardSummary :=
  let world := worldState.filter fun ws => !ws.peerRegistry.isEmpty
  let roles : List String := match world with
    | some ws => (ws.peerRegistry.toList.filter (·.2.connected)).map fun e =>
        normalized (e.2.role.getD "")
    | none => nodes.map fun node => normalized node.role
  let levels := nodes.map fun node => normalized (node.healthLevel.getD "unknown")
  { totalNodes := nodes.length
    supernodes := roles.count "supernode"
    relays := roles.count "relay"
    clients := roles.count "client"
    healthyNodes := levels.count "healthy"
    degradedNodes := levels.count "degraded"
    criticalNodes := levels.count "critical"
    peers := match world with
      | some ws => registryPeers ws.peerRegistry
      | none => (nodes.filterMap (·.health)).foldl addPeers {}
    status :=
      if "critical" ∈ levels then "critical" else if "degraded" ∈ levels then "degraded"
      else if "healthy" ∈ levels then "healthy" else "unknown" }

/-- The summary has the counts of the world state's snapshot. -/
def WorldState.AgreesWith (ws : WorldState) (nodes : List DashboardNode) : Prop :=
  (dashboardSummary nodes (some ws)).peers = ws.peerCountsFromRegistry

/-! ### When the counts agree -/

theorem FinMap.count_and_eq_iff {V : Type} (p q : V → Bool) (m : FinMap String V) :
    FinMap.count (fun v => p v && q v) m = FinMap.count q m ↔
      ∀ (k : String) (v : V), m[k]? = some v → q v = true → p v = true := by
  have hfilter : m.toList.filter (fun e => p e.2 && q e.2)
      = (m.toList.filter fun e => q e.2).filter fun e => p e.2 := by
    rw [List.filter_filter]
  rw [FinMap.count, FinMap.count, hfilter, List.length_filter_eq_length_iff]
  simp only [List.mem_filter, Prod.forall, FinMap.mem_toList, and_imp]

namespace WorldState

variable {ws : WorldState} {nodes : List DashboardNode}

theorem agreesWith_iff (hne : ws.peerRegistry.isEmpty = false) : ws.AgreesWith nodes ↔
    ∀ peer routes connected trusted, ws.look peer = some (routes, connected, trusted) →
      (routes ≠ ∅ ∨ trusted = true) → connected = true := by
  have hworld : (some ws).filter (fun ws => !ws.peerRegistry.isEmpty) = some ws := by simp [hne]
  rw [AgreesWith, peerCountsFromRegistry, dashboardSummary, hworld, hne]
  simp only [DashboardSummary.registryPeers, Bool.false_eq_true, if_false, GhostState.mk.injEq,
    true_and, FinMap.count_and_eq_iff]
  constructor
  · rintro ⟨hroutes, htrusted⟩ peer routes connected trusted hlook hflags
    obtain ⟨entry, hentry, hsame⟩ := map_eq_some_iff.mp hlook
    simp only [Prod.mk.injEq] at hsame
    obtain ⟨rfl, rfl, rfl⟩ := hsame
    exact hflags.elim (fun h => hroutes peer entry hentry (decide_eq_true h))
      (htrusted peer entry hentry)
  · intro h
    have hlook : ∀ (peer : String) (entry : PeerState), ws.peerRegistry[peer]? = some entry →
        (entry.routes ≠ ∅ ∨ entry.trusted = true) → entry.connected = true :=
      fun peer entry hentry => h peer _ _ _ (congrArg (Option.map _) hentry)
    refine ⟨fun peer entry hentry hroutes => ?_, fun peer entry hentry htrusted => ?_⟩
    · exact hlook peer entry hentry (Or.inl (of_decide_eq_true hroutes))
    · exact hlook peer entry hentry (Or.inr htrusted)

end WorldState

theorem SwarmEvent.effect_spec (event : SwarmEvent) (permitted : Bool)
    {entry : Finset String × Bool × Bool} (hroutes : entry.1 ⊆ {event.peer})
    (htrusted : entry.2.2 = false) :
    (event.effect permitted entry).1 ⊆ {event.peer} ∧ (event.effect permitted entry).2.2 = false ∧
      (((event.effect permitted entry).1 ≠ ∅ → (event.effect permitted entry).2.1 = true) ↔
        ¬ (event = connectionEstablished event.peer ∧ permitted = false ∧ entry.1 ≠ ∅)) := by
  obtain ⟨routes, connected, trusted⟩ := entry
  rcases Finset.subset_singleton_iff.mp hroutes with hnone | hown <;> cases event <;>
    cases permitted <;> simp_all [effect, SwarmEvent.peer]

/-! ### Runs -/

/-- An event of the network, or a denial that is reported for a peer. -/
inductive Occurrence where
  | network (e : NetworkEvent)
  | denied (peer : String)

/-- What entries are like along a run: the only route of a peer is its own, and none is trusted. -/
def WorldState.Plain (ws : WorldState) : Prop :=
  ∀ peer routes connected trusted, ws.look peer = some (routes, connected, trusted) →
    routes ⊆ {peer} ∧ trusted = false

/-- A peer with a route is connected. -/
def WorldState.Routed (ws : WorldState) : Prop :=
  ∀ peer routes connected trusted, ws.look peer = some (routes, connected, trusted) →
    routes ≠ ∅ → connected = true

namespace NetworkRuntime

variable (net : NetworkRuntime) (env : NetworkEnv) (nodes : List DashboardNode)

def handle : Occurrence → NetworkRuntime
  | .network e => net.handleEvent env e
  | .denied peer => { net with node := net.node.updatePeerFailure peer }

def afterAll (occurrences : List Occurrence) : NetworkRuntime :=
  occurrences.foldl (fun net o => net.handle env o) net

/-- With a world state that has no peers. -/
def fresh (ws : WorldState) : NetworkRuntime :=
  { net with node := { net.node with worldState := some { ws with peerRegistry := ∅ } } }

def Agrees : Prop := ∀ ws ∈ net.node.worldState, ws.AgreesWith nodes

/-- A connection is refused to a peer with a route. -/
def RefusesRouted (o : Occurrence) : Prop :=
  ∃ peer clock, o = .network ⟨.connectionEstablished peer, clock⟩ ∧ ¬ net.Permits peer ∧
    ∃ ws ∈ net.node.worldState, (ws.seen peer).1 ≠ ∅

theorem afterAll_concat (occurrences : List Occurrence) (o : Occurrence) :
    net.afterAll env (occurrences ++ [o]) = (net.afterAll env occurrences).handle env o := by
  rw [afterAll, List.foldl_append]
  rfl

variable {net} {ws : WorldState}

/-- An event leaves entries plain, and peers with a route connected unless it refuses one. -/
theorem step_plain (hworld : net.node.worldState = some ws) (hplain : ws.Plain) (e : NetworkEvent) :
    ∃ ws', (net.handleEvent env e).node.worldState = some ws' ∧ ws'.Plain ∧
      ws'.peerRegistry.isEmpty = false ∧
      (ws.Routed → (ws'.Routed ↔ ¬ net.RefusesRouted (.network e))) := by
  -- Only the entry of the event's own peer changes, and it does as `effect` says.
  obtain ⟨ws', hworld', hlook⟩ := net.look_handleEvent env e hworld
  have hseen : (ws.seen e.event.peer).1 ⊆ {e.event.peer} ∧ (ws.seen e.event.peer).2.2 = false := by
    cases hentry : ws.look e.event.peer with
    | none => simp [WorldState.seen, hentry]
    | some entry =>
      simpa [WorldState.seen, hentry] using hplain e.event.peer _ _ _ hentry
  obtain ⟨hroutes, htrusted, hrouted⟩ :=
    e.event.effect_spec (net.node.enforcePeer e.event.peer).2 hseen.1 hseen.2
  have hself := hlook e.event.peer
  rw [if_pos rfl] at hself
  refine ⟨ws', hworld', fun p routes connected trusted hp => ?_, ?_, fun hbefore => ?_⟩
  · rw [hlook] at hp
    split at hp
    · rename_i hpeer
      subst hpeer
      rw [some_inj] at hp
      rw [hp] at hroutes htrusted
      exact ⟨hroutes, htrusted⟩
    · exact hplain p _ _ _ hp
  · obtain ⟨entry, hentry, -⟩ := map_eq_some_iff.mp hself
    by_contra hempty
    rw [Bool.not_eq_false, Std.ExtTreeMap.isEmpty_iff] at hempty
    rw [hempty, Std.ExtTreeMap.getElem?_empty] at hentry
    exact absurd hentry.symm (some_ne_none _)
  · have hrefuses : net.RefusesRouted (.network e) ↔
        e.event = .connectionEstablished e.event.peer ∧
          (net.node.enforcePeer e.event.peer).2 = false ∧ (ws.seen e.event.peer).1 ≠ ∅ := by
      obtain ⟨event, clock⟩ := e
      cases event <;> simp [RefusesRouted, SwarmEvent.peer, Permits, hworld]
    rw [hrefuses, ← hrouted]
    constructor
    · exact fun h => h e.event.peer _ _ _ hself
    · intro h p routes connected trusted hp
      rw [hlook] at hp
      split at hp
      · rename_i hpeer
        subst hpeer
        rw [some_inj] at hp
        rwa [hp] at h
      · exact hbefore p _ _ _ hp

theorem handle_plain (hworld : net.node.worldState = some ws) (hplain : ws.Plain) (o : Occurrence) :
    ∃ ws', (net.handle env o).node.worldState = some ws' ∧ ws'.Plain ∧
      (ws' = ws ∨ ws'.peerRegistry.isEmpty = false) ∧
      (ws.Routed → (ws'.Routed ↔ ¬ net.RefusesRouted o)) := by
  cases o with
  | network e =>
    obtain ⟨ws', hworld', hplain', hne, hrouted⟩ := step_plain env hworld hplain e
    exact ⟨ws', hworld', hplain', Or.inr hne, hrouted⟩
  | denied peer =>
    exact ⟨ws, hworld, hplain, Or.inl rfl, fun h => by simp [RefusesRouted, h]⟩

variable (net) (ws)

theorem afterAll_plain (occurrences : List Occurrence) :
    ∃ ws', ((net.fresh ws).afterAll env occurrences).node.worldState = some ws' ∧ ws'.Plain ∧
      (ws' = { ws with peerRegistry := ∅ } ∨ ws'.peerRegistry.isEmpty = false) := by
  induction occurrences using List.reverseRecOn with
  | nil =>
    refine ⟨_, rfl, fun peer routes connected trusted hlook => ?_, Or.inl rfl⟩
    simp [WorldState.look] at hlook
  | append_singleton front o ih =>
    obtain ⟨ws₁, hworld₁, hplain₁, hcases₁⟩ := ih
    obtain ⟨ws₂, hworld₂, hplain₂, hcases₂, -⟩ := handle_plain env hworld₁ hplain₁ o
    rw [afterAll_concat]
    exact ⟨ws₂, hworld₂, hplain₂, hcases₂.elim (fun h => h ▸ hcases₁) Or.inr⟩

/-- If no connection is refused to a peer with a route, peers with a route stay connected. -/
theorem afterAll_routed {occurrences : List Occurrence}
    (hnone : ∀ before o, before ++ [o] <+: occurrences →
      ¬ ((net.fresh ws).afterAll env before).RefusesRouted o) {ws' : WorldState}
    (hworld : ((net.fresh ws).afterAll env occurrences).node.worldState = some ws') :
    ws'.Routed := by
  -- From the end, since the step lemma is about the world state before the last occurrence.
  induction occurrences using List.reverseRecOn generalizing ws' with
  | nil =>
    obtain rfl := some_inj.mp hworld
    intro peer routes connected trusted hlook
    simp [WorldState.look] at hlook
  | append_singleton front o ih =>
    obtain ⟨ws₁, hworld₁, hplain₁, -⟩ := net.afterAll_plain env ws front
    obtain ⟨ws₂, hworld₂, -, -, hstep⟩ := handle_plain env hworld₁ hplain₁ o
    have hbefore : ws₁.Routed :=
      ih (fun before o' h => hnone before o' (h.trans (List.prefix_append _ _))) hworld₁
    rw [afterAll_concat, hworld₂] at hworld
    rw [← some_inj.mp hworld]
    exact (hstep hbefore).mpr (hnone front o (List.prefix_refl _))

theorem agrees_iff_routed (hstart : (net.fresh ws).Agrees nodes) {ws' : WorldState}
    (hplain : ws'.Plain)
    (hcases : ws' = { ws with peerRegistry := ∅ } ∨ ws'.peerRegistry.isEmpty = false) :
    ws'.AgreesWith nodes ↔ ws'.Routed := by
  rcases hcases with rfl | hne
  · refine iff_of_true (hstart _ rfl) fun peer routes connected trusted hlook => ?_
    simp [WorldState.look] at hlook
  · rw [WorldState.agreesWith_iff hne]
    refine forall₅_congr fun peer routes connected trusted hlook => ?_
    simp [(hplain peer routes connected trusted hlook).2]

end NetworkRuntime

/-- A peer connects, is denied something five times, and connects once more. -/
def deniedAndBack : List Occurrence :=
  .network (SwarmEvent.connectionEstablished "bob").atZero :: List.replicate 5 (.denied "bob") ++
    [.network (SwarmEvent.connectionEstablished "bob").atZero]

end EssNode
