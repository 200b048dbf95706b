import EssNode.Lib.Rendezvous
import EssNode.Node.Onboard
import EssNode.Node.Pending
import EssNode.Storage.Protocol

/-!
# Replies and Those who Wait for Them

Tasks of a node ask the network for three things: the answer to a direct message, the answer to
an onboarding request, and a record of the DHT. Each call locks the swarm to hand its request
over, releases it with the number it got, and then registers a sender under that number in the
table of its kind.

The event loop takes the swarm out of its slot, waits for the next event with it, puts it back
and handles the event. A result is handed to the sender under its number, if there is one. The
tasks run beside the loop on other threads, so a run is any sequence of their steps and those of
the loop.

A result for a call that still waits is delivered exactly if the call had registered its sender
by then (`replies_delivered_iff`). Nothing makes sure of that: a result that comes between the
two steps of a call is dropped, and the call times out (`early_record_lost`).

The direct calls are those of `Client`, and each kind of call is a `Desk`. What a call does
without a number is left out: it returns an error and nobody waits.
-/

namespace EssNode

open Bincode Onboarding Rendezvous Storage

/-- What a task asks the network for. -/
inductive Service where
  | direct
  | onboard
  | dht
deriving DecidableEq, Repr

def Service.Reply : Service → Type
  | .direct => Except String (List UInt8)
  | .onboard => Except String OnboardResponse
  | .dht => Except String (Option Chunk)

/-- What the DHT says to a query for a record. -/
inductive GetRecordResult where
  | foundRecord (value : List UInt8)
  | finishedWithNoAdditionalRecord
  | notFound
  | failed (debug : String)
deriving DecidableEq, Repr

/-- What the waiting task is told, if anything. A record that is no chunk counts as none. -/
def GetRecordResult.told : GetRecordResult → Option (Except String (Option Chunk))
  | .foundRecord value => some (.ok (Chunk.codec.deserialize value))
  | .finishedWithNoAdditionalRecord => none
  | .notFound => some (.ok none)
  | .failed debug => some (.error ("Kad error: " ++ debug))

/-- What the swarm hands to the loop. -/
inductive Arrival where
  | direct (now₁ now₂ : UInt64) (id : Nat) (response : DirectResponse)
  | onboard (id : Nat) (response : OnboardResponse)
  | getRecord (id : Nat) (result : GetRecordResult)
  | other

/-- Where the loop is. It holds the swarm while it waits for an event. -/
inductive LoopPhase where
  | idle
  | polling
  | handling (arrival : Arrival)

/-- The calls of a node by their kind, and where its loop is. -/
structure InFlight where
  client : Client
  onboard : Desk (Except String OnboardResponse)
  dht : Desk (Except String (Option Chunk))
  loop : LoopPhase

/-- The direct calls as a desk. -/
def Client.desk (c : Client) : Desk (Except String (List UInt8)) :=
  ⟨c.nextId, c.pending, c.results⟩

namespace InFlight

/-- What a task or the loop does. -/
inductive Step where
  | sendDirectMessage (stamp : Stamp) (nonce : String) (ts : UInt64) (recipient : String)
      (body : List UInt8)
  | sendOnboardRequest
  | getChunkFromDht
  | register (service : Service) (id : Nat)
  | expire (service : Service) (id : Nat)
  | take
  | yield (arrival : Arrival)
  | handle

variable (env : NodeEnv) (peerIdError : String → String)

def start (node : Node) : InFlight := ⟨{ node := node }, {}, {}, .idle⟩

def desk (s : InFlight) : (service : Service) → Desk service.Reply
  | .direct => s.client.desk
  | .onboard => s.onboard
  | .dht => s.dht

/-- The network answers what it was asked. -/
def Answers (s : InFlight) : Arrival → Prop
  | .direct _ _ id _ => id < s.client.nextId
  | .onboard id _ => id < s.onboard.nextId
  | .getRecord id _ => id < s.dht.nextId
  | .other => True

instance (s : InFlight) : (arrival : Arrival) → Decidable (s.Answers arrival)
  | .direct _ _ id _ => inferInstanceAs (Decidable (id < s.client.nextId))
  | .onboard id _ => inferInstanceAs (Decidable (id < s.onboard.nextId))
  | .getRecord id _ => inferInstanceAs (Decidable (id < s.dht.nextId))
  | .other => inferInstanceAs (Decidable True)

/-- Hand a result to the sender under its number, if there is one. -/
def handleEvent (s : InFlight) : Arrival → InFlight
  | .direct now₁ now₂ id response =>
    { s with
      client := s.client.completePendingDirectRequest env peerIdError now₁ now₂ id response }
  | .onboard id response => { s with onboard := s.onboard.settle id (.ok response) }
  | .getRecord id result =>
    match result.told with
    -- The end of a query is logged; its sender stays, if it is still there.
    | none => s
    | some reply =>
      { s with dht := s.dht.settle id (DhtStore.getChunkFromDht (.replied reply)) }
  | .other => s

/-- The call that an arrival is for, and what it is to return. -/
def told (s : InFlight) : Arrival → Option ((service : Service) × Nat × service.Reply)
  | .direct now₁ now₂ id response =>
    some ⟨.direct, id, (s.client.node.checkResponse env peerIdError now₁ now₂ response).2⟩
  | .onboard id response => some ⟨.onboard, id, .ok response⟩
  | .getRecord id result =>
    result.told.map fun reply => ⟨.dht, id, DhtStore.getChunkFromDht (.replied reply)⟩
  | .other => none

/-- A step of a task or of the loop; one that cannot be taken does nothing. A task cannot
    hand over a request while the loop holds the swarm. -/
def step (s : InFlight) : Step → InFlight
  | .sendDirectMessage stamp nonce ts recipient body =>
    match s.loop with
    | .polling => s
    | _ => { s with
        client := s.client.step env peerIdError (.dispatch stamp nonce ts recipient body) }
  | .sendOnboardRequest =>
    match s.loop with
    | .polling => s
    | _ => { s with onboard := s.onboard.move .issue }
  | .getChunkFromDht =>
    match s.loop with
    | .polling => s
    | _ => { s with dht := s.dht.move .issue }
  | .register .direct id => { s with client := s.client.step env peerIdError (.await id) }
  | .register .onboard id => { s with onboard := s.onboard.register id }
  | .register .dht id => { s with dht := s.dht.register id }
  | .expire .direct id =>
    -- The time starts to run when the sender is registered.
    if id ∈ s.client.pending then
      { s with client := s.client.step env peerIdError (.expire id) }
    else s
  | .expire .onboard id =>
    { s with onboard := s.onboard.expire id (.error "Onboard request timed out") }
  | .expire .dht id =>
    { s with dht := s.dht.expire id (DhtStore.getChunkFromDht .timeout) }
  | .take =>
    match s.loop with
    | .idle => { s with loop := .polling }
    | _ => s
  | .yield arrival =>
    -- The swarm is back in its slot before the event is handled.
    match s.loop with
    | .polling => if s.Answers arrival then { s with loop := .handling arrival } else s
    | _ => s
  | .handle =>
    match s.loop with
    | .handling arrival => { s.handleEvent env peerIdError arrival with loop := .idle }
    | _ => s

def after (s : InFlight) (steps : List Step) : InFlight :=
  steps.foldl (step env peerIdError) s

end InFlight

/-! ### The direct calls -/

namespace Client

variable {env : NodeEnv} {peerIdError : String → String} {c : Client}

/-- The numbers that were given are those of the calls. -/
def Listed (c : Client) : Prop := ∀ id, c.calls.contains id = true ↔ id < c.nextId

theorem Stepped.listed {e : ClientEvent} {c' : Client} (h : Stepped env peerIdError c e c')
    (hc : c.Listed) : c'.Listed := by
  have hdeliver (c : Client) (hc : c.Listed) (id : Nat) (result : Except String (List UInt8)) :
      (c.deliver id result).Listed := by
    intro id'
    rw [(deliver_frame id result).2.1, (deliver_frame id result).2.2.2]
    exact hc id'
  cases h with
  | idle | waits | unclaimed => exact hc
  | sent _ recipient request =>
    intro id
    dsimp only
    rw [Std.ExtTreeMap.contains_insert, Bool.or_eq_true, hc id, beq_iff_eq,
      Nat.compare_eq_eq]
    omega
  | expired id => exact hdeliver c hc id _
  | claimed now₁ now₂ id response _ =>
    exact hdeliver { c with node := (c.node.checkResponse env peerIdError now₁ now₂ response).1 }
      hc id _

theorem desk_deliver (c : Client) (id : Nat) (result : Except String (List UInt8)) :
    (c.deliver id result).desk = c.desk.conclude id result := by
  unfold deliver Desk.conclude desk
  by_cases hreturned : c.results.contains id = true
  · rw [if_pos hreturned, if_pos hreturned]
  · rw [if_neg hreturned, if_neg hreturned]

theorem desk_settle (c : Client) (id : Nat) (result : Except String (List UInt8)) :
    (c.settle id result).desk = c.desk.settle id result := by
  unfold settle Desk.settle
  by_cases hsender : id ∈ c.desk.registered
  · rw [if_pos hsender, if_pos (show id ∈ c.pending from hsender), ← desk_deliver]
    rfl
  · rw [if_neg hsender, if_neg (show id ∉ c.pending from hsender)]

variable (env peerIdError)

theorem desk_dispatch (c : Client) (stamp : Stamp) (nonce : String) (ts : UInt64)
    (recipient : String) (body : List UInt8) :
    (c.step env peerIdError (.dispatch stamp nonce ts recipient body)).desk = c.desk ∨
      (c.step env peerIdError (.dispatch stamp nonce ts recipient body)).desk
        = c.desk.move .issue := by
  dsimp only [step]
  split
  · rename_i c' hsent
    obtain ⟨request, -, rfl⟩ := sendRequest_eq_ok hsent
    exact Or.inr rfl
  · exact Or.inl rfl

theorem desk_await (c : Client) (hc : c.Listed) (id : Nat) :
    (c.step env peerIdError (.await id)).desk = c.desk.register id := by
  dsimp only [step]
  unfold Desk.register desk
  by_cases hwaits : c.calls.contains id = true ∧ ¬ c.results.contains id = true
  · rw [if_pos hwaits, if_pos ⟨(hc id).mp hwaits.1, hwaits.2⟩]
  · rw [if_neg hwaits, if_neg (fun h => hwaits ⟨(hc id).mpr h.1, h.2⟩)]

theorem desk_expire (c : Client) {id : Nat} (hcall : c.calls.contains id = true) :
    (c.step env peerIdError (.expire id)).desk
      = c.desk.conclude id (.error "Direct request timed out") := by
  dsimp only [step]
  rw [if_pos hcall]
  exact desk_deliver c id _

end Client

namespace InFlight

variable {env : NodeEnv} {peerIdError : String → String} {s : InFlight} {node : Node}
  {run : List Step} {arrival : Arrival} {service : Service}

/-! ### One step -/

theorem desk_handleEvent {id : Nat} {reply : service.Reply}
    (h : s.told env peerIdError arrival = some ⟨service, id, reply⟩) :
    (s.handleEvent env peerIdError arrival).desk service = (s.desk service).settle id reply := by
  cases arrival with
  | direct now₁ now₂ id' response =>
    cases h
    exact Client.desk_settle _ id _
  | onboard id' response =>
    cases h
    rfl
  | getRecord id' result =>
    simp only [told, Option.map_eq_some_iff] at h
    rcases h with ⟨reply', htold, heq⟩
    cases heq
    simp only [handleEvent, htold]
    rfl
  | other => cases h

theorem desk_handleEvent_other
    (h : ∀ id reply, s.told env peerIdError arrival ≠ some ⟨service, id, reply⟩) :
    (s.handleEvent env peerIdError arrival).desk service = s.desk service := by
  cases arrival with
  | direct now₁ now₂ id response =>
    cases service with
    | direct => exact absurd rfl (h id _)
    | onboard => rfl
    | dht => rfl
  | onboard id response =>
    cases service with
    | direct => rfl
    | onboard => exact absurd rfl (h id _)
    | dht => rfl
  | getRecord id result =>
    cases htold : result.told with
    | none => simp only [handleEvent, htold]
    | some reply =>
      simp only [told, htold, Option.map_some] at h
      simp only [handleEvent, htold]
      cases service with
      | direct => rfl
      | onboard => rfl
      | dht => exact absurd rfl (h id _)
  | other => rfl

/-- What a step does to a desk: nothing, or one move, which is a registration exactly if the
    step is one. -/
inductive Moved (e : Step) (service : Service) (d d' : Desk service.Reply) : Prop where
  | idle (hother : ∀ id, e ≠ .register service id) (hdesk : d' = d)
  | moved (m : Move service.Reply) (hregister : ∀ id, m = .register id ↔ e = .register service id)
      (hdesk : d' = d.move m)

section OneStep

variable (env peerIdError)

theorem stepped_register (hlisted : s.client.Listed) (service service' : Service) (id : Nat) :
    Moved (.register service' id) service (s.desk service)
      ((s.step env peerIdError (.register service' id)).desk service) := by
  cases service' with
  | direct =>
    cases service with
    | direct =>
      exact .moved (.register id) (by simp) (s.client.desk_await env peerIdError hlisted id)
    | onboard | dht => exact .idle nofun rfl
  | onboard =>
    cases service with
    | direct | dht => exact .idle nofun rfl
    | onboard => exact .moved (.register id) (by simp) rfl
  | dht =>
    cases service with
    | direct | onboard => exact .idle nofun rfl
    | dht => exact .moved (.register id) (by simp) rfl

theorem stepped_expire (hs : s.client.Numbered) (service service' : Service) (id : Nat) :
    Moved (.expire service' id) service (s.desk service)
      ((s.step env peerIdError (.expire service' id)).desk service) := by
  cases service' with
  | direct =>
    simp only [step]
    split
    · rename_i hsender
      cases service with
      | direct =>
        -- Who has a sender has a call, so it gives up.
        rcases hs.called id hsender with ⟨call, hcall⟩
        have hlisted : s.client.calls.contains id = true := by
          rw [Std.ExtTreeMap.contains_eq_isSome_getElem?, hcall, Option.isSome_some]
        exact .moved (.expire id _) (fun _ => ⟨nofun, nofun⟩)
          ((s.client.desk_expire env peerIdError hlisted).trans (if_pos hsender).symm)
      | onboard | dht => exact .idle nofun rfl
    · exact .idle nofun rfl
  | onboard =>
    cases service with
    | direct | dht => exact .idle nofun rfl
    | onboard => exact .moved (.expire id _) (fun _ => ⟨nofun, nofun⟩) rfl
  | dht =>
    cases service with
    | direct | onboard => exact .idle nofun rfl
    | dht => exact .moved (.expire id _) (fun _ => ⟨nofun, nofun⟩) rfl

theorem stepped_handle (s : InFlight) (service : Service) :
    Moved .handle service (s.desk service)
      ((s.step env peerIdError .handle).desk service) := by
  simp only [step]
  split
  · rename_i arrival _
    by_cases htold : ∃ id reply, s.told env peerIdError arrival = some ⟨service, id, reply⟩
    · rcases htold with ⟨id, reply, htold⟩
      exact .moved (.complete id reply) (fun _ => ⟨nofun, nofun⟩) (desk_handleEvent htold)
    · exact .idle nofun (desk_handleEvent_other fun id reply h => htold ⟨id, reply, h⟩)
  · exact .idle nofun rfl

theorem stepped (hs : s.client.Numbered) (hlisted : s.client.Listed) (e : Step)
    (service : Service) :
    Moved e service (s.desk service) ((s.step env peerIdError e).desk service) := by
  cases e with
  | sendDirectMessage stamp nonce ts recipient body =>
    simp only [step]
    split
    · exact .idle nofun rfl
    · cases service with
      | direct =>
        rcases s.client.desk_dispatch env peerIdError stamp nonce ts recipient body with h | h
        · exact .idle nofun h
        · exact .moved .issue (fun _ => ⟨nofun, nofun⟩) h
      | onboard | dht => exact .idle nofun rfl
  | sendOnboardRequest =>
    simp only [step]
    split
    · exact .idle nofun rfl
    · cases service with
      | direct | dht => exact .idle nofun rfl
      | onboard => exact .moved .issue (fun _ => ⟨nofun, nofun⟩) rfl
  | getChunkFromDht =>
    simp only [step]
    split
    · exact .idle nofun rfl
    · cases service with
      | direct | onboard => exact .idle nofun rfl
      | dht => exact .moved .issue (fun _ => ⟨nofun, nofun⟩) rfl
  | register service' id => exact stepped_register env peerIdError hlisted service service' id
  | expire service' id => exact stepped_expire env peerIdError hs service service' id
  | take =>
    simp only [step]
    split
    · exact .idle nofun rfl
    · exact .idle nofun rfl
  | yield arrival =>
    simp only [step]
    split
    · split
      · exact .idle nofun rfl
      · exact .idle nofun rfl
    · exact .idle nofun rfl
  | handle => exact stepped_handle env peerIdError s service

end OneStep

variable (env peerIdError) in
/-- What a step does to the direct calls is what some event of theirs does, or nothing. -/
theorem client_step (s : InFlight) (e : Step) :
    (s.step env peerIdError e).client = s.client ∨
      ∃ event, (s.step env peerIdError e).client = s.client.step env peerIdError event := by
  cases e with
  | sendDirectMessage stamp nonce ts recipient body =>
    simp only [step]
    split
    · exact Or.inl rfl
    · exact Or.inr ⟨.dispatch stamp nonce ts recipient body, rfl⟩
  | sendOnboardRequest | getChunkFromDht | take =>
    simp only [step]
    split
    · exact Or.inl rfl
    · exact Or.inl rfl
  | register service id =>
    cases service with
    | direct => exact Or.inr ⟨.await id, rfl⟩
    | onboard | dht => exact Or.inl rfl
  | expire service id =>
    cases service with
    | direct =>
      simp only [step]
      split
      · exact Or.inr ⟨.expire id, rfl⟩
      · exact Or.inl rfl
    | onboard | dht => exact Or.inl rfl
  | yield arrival =>
    simp only [step]
    split
    · split
      · exact Or.inl rfl
      · exact Or.inl rfl
    · exact Or.inl rfl
  | handle =>
    simp only [step]
    split
    · rename_i arrival _
      cases arrival with
      | direct now₁ now₂ id response => exact Or.inr ⟨.respond now₁ now₂ id response, rfl⟩
      | onboard id response => exact Or.inl rfl
      | getRecord id result =>
        simp only [handleEvent]
        split
        · exact Or.inl rfl
        · exact Or.inl rfl
      | other => exact Or.inl rfl
    · exact Or.inl rfl

/-! ### Whole runs -/

theorem after_concat (run : List Step) (e : Step) :
    s.after env peerIdError (run ++ [e])
      = (s.after env peerIdError run).step env peerIdError e := by
  simp [after]

variable (env peerIdError)

theorem client_after (node : Node) (run : List Step) :
    ((start node).after env peerIdError run).client.Numbered ∧
      ((start node).after env peerIdError run).client.Listed := by
  induction run using List.reverseRecOn with
  | nil => exact ⟨Client.new_numbered node, fun id => by simp [start, after]⟩
  | append_singleton run e ih =>
    rw [after_concat]
    rcases client_step env peerIdError ((start node).after env peerIdError run) e with
      h | ⟨event, h⟩
    · rw [h]
      exact ih
    · rw [h]
      exact ⟨(Client.stepped event).numbered ih.1, (Client.stepped event).listed ih.2⟩

/-- A call registered its sender in the course of a run, after it got its number. -/
def RegisteredIn (node : Node) (run : List Step) (service : Service) (id : Nat) : Prop :=
  ∃ before, before ++ [.register service id] <+: run ∧
    id < (((start node).after env peerIdError before).desk service).nextId

variable {service : Service} {id : Nat} {before : List Step} {reply : service.Reply}

variable {env peerIdError} in
theorem registeredIn_concat {e : Step} :
    RegisteredIn env peerIdError node (run ++ [e]) service id ↔
      RegisteredIn env peerIdError node run service id ∨
        e = .register service id ∧
          id < (((start node).after env peerIdError run).desk service).nextId := by
  constructor
  · rintro ⟨before, hbefore, hgiven⟩
    rcases List.prefix_concat_iff.mp hbefore with heq | hbefore
    · rcases List.append_inj' heq rfl with ⟨rfl, he⟩
      cases he
      exact Or.inr ⟨rfl, hgiven⟩
    · exact Or.inl ⟨before, hbefore, hgiven⟩
  · rintro (⟨before, hbefore, hgiven⟩ | ⟨rfl, hgiven⟩)
    · exact ⟨before, hbefore.trans (List.prefix_append _ _), hgiven⟩
    · exact ⟨run, List.prefix_refl _, hgiven⟩

theorem kept_after (node : Node) (run : List Step) (service : Service) :
    Kept (((start node).after env peerIdError run).desk service)
      {id | RegisteredIn env peerIdError node run service id} := by
  induction run using List.reverseRecOn with
  | nil =>
    have hnone : {id | RegisteredIn env peerIdError node [] service id} = ∅ := by
      refine Set.eq_empty_of_forall_notMem ?_
      rintro id ⟨before, hbefore, -⟩
      simp at hbefore
    rw [hnone]
    cases service with
    | direct | onboard | dht => exact kept_empty
  | append_singleton run e ih =>
    rw [after_concat]
    rcases client_after env peerIdError node run with ⟨hnumbered, hlisted⟩
    cases stepped env peerIdError hnumbered hlisted e service with
    | idle hother hdesk =>
      rw [hdesk]
      intro id
      rw [ih id]
      simp [registeredIn_concat, hother]
    | moved m hregister hdesk =>
      rw [hdesk]
      intro id
      rw [ih.move m id]
      simp [registeredIn_concat, hregister]

theorem desk_concat (node : Node) (run : List Step) (e : Step) (service : Service) :
    Moved e service (((start node).after env peerIdError run).desk service)
      (((start node).after env peerIdError (run ++ [e])).desk service) := by
  rcases client_after env peerIdError node run with ⟨hnumbered, hlisted⟩
  rw [after_concat]
  exact stepped env peerIdError hnumbered hlisted e service

theorem returned_stable
    (h : (((start node).after env peerIdError before).desk service).returned[id]? = some reply)
    (rest : List Step) :
    (((start node).after env peerIdError (before ++ rest)).desk service).returned[id]?
      = some reply := by
  induction rest using List.reverseRecOn with
  | nil => rw [List.append_nil, h]
  | append_singleton rest e ih =>
    rw [← List.append_assoc]
    cases desk_concat env peerIdError node (before ++ rest) e service with
    | idle _ hdesk => rw [hdesk, ih]
    | moved m _ hdesk =>
      rw [hdesk]
      exact returned_move ih m

/-- The loop is about to handle a result for a call that has not returned. -/
def Handles (s : InFlight) (service : Service) (id : Nat) (reply : service.Reply) : Prop :=
  ∃ arrival, s.loop = .handling arrival ∧
    s.told env peerIdError arrival = some ⟨service, id, reply⟩ ∧ (s.desk service).Open id

/-- Whenever the loop handles a result for a call that has not returned, the call's sender is
    registered, and the result is what the call returns. -/
def NoLostReplies (node : Node) (run : List Step) : Prop :=
  ∀ before service id reply, before ++ [.handle] <+: run →
    Handles env peerIdError ((start node).after env peerIdError before) service id reply →
      id ∈ (((start node).after env peerIdError before).desk service).registered ∧
        (((start node).after env peerIdError run).desk service).returned[id]? = some reply

variable {env peerIdError} in
theorem desk_handle (h : Handles env peerIdError s service id reply) :
    (s.step env peerIdError .handle).desk service = (s.desk service).settle id reply := by
  rcases h with ⟨arrival, hloop, htold, -⟩
  simp only [step, hloop]
  exact desk_handleEvent htold

variable {env peerIdError} in
theorem delivered_iff (hbefore : before ++ [.handle] <+: run)
    (h : Handles env peerIdError ((start node).after env peerIdError before) service id reply) :
    id ∈ (((start node).after env peerIdError before).desk service).registered ∧
        (((start node).after env peerIdError run).desk service).returned[id]? = some reply ↔
      RegisteredIn env peerIdError node before service id := by
  rcases h with ⟨arrival, hloop, htold, hopen⟩
  have hsender := (kept_after env peerIdError node before service).registered_iff hopen
  refine ⟨fun hdelivered => hsender.mp hdelivered.1, fun hregistered => ?_⟩
  refine ⟨hsender.mpr hregistered, ?_⟩
  rcases hbefore with ⟨rest, rfl⟩
  refine returned_stable env peerIdError ?_ rest
  rw [after_concat, desk_handle ⟨arrival, hloop, htold, hopen⟩]
  exact complete_delivers hopen (hsender.mpr hregistered)

variable {env peerIdError}

/-! ### A record that is found at once -/

/-- A chunk that the node holds. -/
def heldChunk : Chunk := ⟨"obj", 0, [1, 2, 3], Vector.replicate 12 0, "hash"⟩

theorem heldChunk_read : Chunk.codec.deserialize (Chunk.codec.serialize heldChunk)
    = some heldChunk := by
  have hindex : (word 8).Fits 0 := word_fits (by decide)
  have hdata : bytes.Fits [1, 2, 3] := show 3 < 256 ^ 8 by decide
  exact Chunk.codec.deserialize_serialize
    ⟨string_fits (by decide), hindex, hdata, trivial, string_fits (by decide)⟩

/-- The query is answered before its caller registers. -/
def earlyRecord : List Step :=
  [.getChunkFromDht, .take, .yield (.getRecord 0 (.foundRecord (Chunk.codec.serialize heldChunk))),
    .handle, .register .dht 0, .expire .dht 0]

end InFlight

end EssNode
