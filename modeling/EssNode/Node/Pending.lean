import EssNode.Node.Controller
import EssNode.Security.Replay

/-!
# Pending Requests

The asking side of the direct protocol. A call builds and signs a request, hands it
to the network, which numbers it, and then registers a waiter under that number.
An incoming response carries the number of the request it belongs to, and its
sender and signature are checked; if they pass, the waiter gets the body.

What is checked is the response in itself: that it is for this node, and signed
with the key of the peer it names. That peer is not compared with the one that was
asked, and the request it answers is not compared with the one that was sent. So
any response to this node that verifies completes any call it is delivered for
(`foreign_response_accepted`). If every response names the peer that was asked and
the request that was sent, every result is an answer to its call
(`response_bound`).

Requests are numbered as they are handed over, and the waiter is registered after
the network is released, so a response can come too early and is lost. A call that
has timed out leaves its waiter behind.
-/

namespace EssNode

open Authority Bincode SecurityRuntime

namespace SecurityRuntime

theorem verifyResponseBytes_eq_ok_iff {crypto : Crypto} {s : SecurityRuntime} {now₁ now₂ : UInt64}
    {localPeer remote : String} {resp : DirectResponse} {bytes : List UInt8} :
    (s.verifyResponseBytes crypto now₁ now₂ localPeer remote resp).2 = .ok bytes ↔
      Passes crypto s now₁ now₂ localPeer remote (.responseBytes resp) ∧ resp.body = bytes := by
  refine (verifyWith_signed_iff (m := .responseBytes resp) rfl).trans ?_
  simp [pure, Except.pure]

end SecurityRuntime

namespace Node

variable (env : NodeEnv) (peerIdError : String → String) (now₁ now₂ : UInt64) (n : Node)

/-- Count a success of a peer. -/
def updatePeerSuccess (peer : String) (latency : ℚ) : Node :=
  let e := n.reputation[peer]?.getD {}
  { n with
    reputation := n.reputation.insert peer
      { e with
        score := min (e.score + 1 / 100) 1
        lastLatency := latency
        successfulOps := e.successfulOps + 1 } }

/-- The checks on a response, and what its waiter is told. `peerIdError` is the
    network library's text for a name that is no peer's. -/
def checkResponse (response : DirectResponse) : Node × Except String (List UInt8) :=
  if !n.securityAttached then (n, .error "Security not attached")
  else
    match env.compute.parsePeerId response.sender with
    | none => (n, .error ("Invalid from peer id: " ++ peerIdError response.sender))
    | some fromPeer =>
      let verified := n.security.verifyResponseBytes env.crypto now₁ now₂ n.localPeerId fromPeer
        response
      let n := { n with security := verified.1 }
      match verified.2 with
      | .error e => (n, .error ("Verification error: " ++ e.display))
      | .ok bytes => (n.updatePeerSuccess fromPeer response.ts.toNat, .ok bytes)

variable {env peerIdError now₁ now₂ n} {response : DirectResponse} {bytes : List UInt8}

/-- A response passes when the runtime is attached, its sender is a peer's name, and
    its signature is that peer's. -/
theorem checkResponse_eq_ok_iff :
    (n.checkResponse env peerIdError now₁ now₂ response).2 = .ok bytes ↔
      n.securityAttached = true ∧ env.compute.parsePeerId response.sender = some response.sender ∧
        n.security.Passes env.crypto now₁ now₂ n.localPeerId response.sender
          (.responseBytes response) ∧ response.body = bytes := by
  unfold checkResponse
  cases hattached : n.securityAttached with
  | false => simp
  | true =>
    cases hparse : env.compute.parsePeerId response.sender with
    | none => simp
    | some fromPeer =>
      simp only [Bool.not_true, Bool.false_eq_true, if_false, true_and, Option.some.injEq]
      cases hres : (n.security.verifyResponseBytes env.crypto now₁ now₂ n.localPeerId fromPeer
        response).2 with
      | error e =>
        refine iff_of_false (by simp) ?_
        rintro ⟨hsender, hpasses, hbody⟩
        rw [← hsender] at hpasses
        rw [verifyResponseBytes_eq_ok_iff.mpr ⟨hpasses, hbody⟩] at hres
        cases hres
      | ok read =>
        -- The names on the response are compared, so it names the peer it is checked for.
        rcases verifyResponseBytes_eq_ok_iff.mp hres with ⟨hpasses, hbody⟩
        have hsender : response.sender = fromPeer :=
          congrArg Prod.fst (hpasses.names _ rfl)
        rw [← hsender] at hpasses
        simp only [Except.ok.injEq, hsender.symm, true_and, hpasses, hbody]

theorem checkResponse_sameKeys :
    SecurityRuntime.SameKeys n.security
      (n.checkResponse env peerIdError now₁ now₂ response).1.security := by
  unfold checkResponse
  split
  · exact .refl _
  split
  · exact .refl _
  · rename_i fromPeer _
    have hverified := checkCommon_sameKeys n.security now₁ now₂ fromPeer
      response.ts response.nonce
    dsimp only
    split
    · exact hverified
    · exact hverified

end Node

structure DirectCall where
  recipient : String
  request : DirectRequest
deriving DecidableEq, Repr

/-- A node and its calls: the number of the next request, the calls that were
    handed to the network, the numbers with a waiter, and what calls returned. -/
structure Client where
  node : Node
  swarmReady : Bool := true
  nextId : Nat := 0
  calls : FinMap Nat DirectCall := ∅
  pending : Finset Nat := ∅
  results : FinMap Nat (Except String (List UInt8)) := ∅

namespace Client

variable (env : NodeEnv) (peerIdError : String → String) (c : Client)

/-- The first half of a call: build the request and hand it to the network. -/
def sendRequest (stamp : Stamp) (nonce : String) (ts : UInt64) (recipient : String)
    (body : List UInt8) : Except String Client :=
  if !c.swarmReady then .error "Timed out waiting for swarm initialization"
  else if !c.node.securityAttached then .error "SecurityRuntime not attached"
  else
    match buildRequestBytes env.crypto stamp nonce ts c.node.localPeerId recipient
        body with
    | .error e => .error e.display
    | .ok request =>
      .ok { c with
        nextId := c.nextId + 1
        calls := c.calls.insert c.nextId ⟨recipient, request⟩ }

def deliver (id : Nat) (result : Except String (List UInt8)) : Client :=
  if c.results.contains id then c else { c with results := c.results.insert id result }

/-- Take the waiter of a request and tell it the result. -/
def settle (id : Nat) (result : Except String (List UInt8)) : Client :=
  if id ∈ c.pending then { c.deliver id result with pending := c.pending.erase id } else c

/-- A response for a numbered request. -/
def completePendingDirectRequest (now₁ now₂ : UInt64) (id : Nat) (response : DirectResponse) :
    Client :=
  let checked := c.node.checkResponse env peerIdError now₁ now₂ response
  { c with node := checked.1 }.settle id checked.2

end Client

/-- What happens to a client: a call hands over its request, registers its waiter or
    times out, or a response comes in. -/
inductive ClientEvent where
  | dispatch (stamp : Stamp) (nonce : String) (ts : UInt64) (recipient : String)
      (body : List UInt8)
  | await (id : Nat)
  | respond (now₁ now₂ : UInt64) (id : Nat) (response : DirectResponse)
  | expire (id : Nat)

namespace Client

section Steps

variable (env : NodeEnv) (peerIdError : String → String)

def step (c : Client) : ClientEvent → Client
  | .dispatch stamp nonce ts recipient body =>
    match c.sendRequest env stamp nonce ts recipient body with
    | .ok c' => c'
    | .error _ => c
  | .await id =>
    if c.calls.contains id ∧ ¬c.results.contains id then
      { c with pending := insert id c.pending }
    else c
  | .respond now₁ now₂ id response =>
    c.completePendingDirectRequest env peerIdError now₁ now₂ id response
  | .expire id =>
    if c.calls.contains id then c.deliver id (.error "Direct request timed out") else c

def run (c : Client) (events : List ClientEvent) : Client :=
  events.foldl (step env peerIdError) c

/-- A response that comes in for a call with a waiter names the peer that was asked
    and the request that was sent. -/
def Matches (c : Client) : ClientEvent → Prop
  | .respond _ _ id response =>
    ∀ call, c.calls[id]? = some call → id ∈ c.pending →
      response.sender = call.recipient ∧ response.inReplyTo = call.request.messageId
  | _ => True

def Matched : Client → List ClientEvent → Prop
  | _, [] => True
  | c, e :: events => Matches c e ∧ Matched (step env peerIdError c e) events

end Steps

/-- Requests are numbered upwards, and only calls have waiters. -/
structure Numbered (c : Client) : Prop where
  called : ∀ id ∈ c.pending, ∃ call, c.calls[id]? = some call
  below : ∀ id call, c.calls[id]? = some call → id < c.nextId

section Runs

variable {env : NodeEnv} {peerIdError : String → String} {c : Client} {id : Nat}
  {bytes : List UInt8} {result : Except String (List UInt8)}

theorem deliver_frame (id : Nat) (result : Except String (List UInt8)) :
    (c.deliver id result).node = c.node ∧ (c.deliver id result).calls = c.calls ∧
      (c.deliver id result).pending = c.pending ∧ (c.deliver id result).nextId = c.nextId := by
  unfold deliver
  split <;> exact ⟨rfl, rfl, rfl, rfl⟩

theorem find_deliver {id' : Nat} {r : Except String (List UInt8)}
    (h : (c.deliver id result).results[id']? = some r) :
    c.results[id']? = some r ∨ (id' = id ∧ r = result) := by
  unfold deliver at h
  split at h
  · exact Or.inl h
  · dsimp only at h
    rcases FinMap.find_insert_eq_some.mp h with ⟨hid, hnew⟩ | ⟨-, hold⟩
    · exact Or.inr ⟨hid.symm, hnew.symm⟩
    · exact Or.inl hold

theorem find_complete {now₁ now₂ : UInt64} {response : DirectResponse} (hwaiter : id ∈ c.pending)
    (hopen : c.results[id]? = none) :
    (c.completePendingDirectRequest env peerIdError now₁ now₂ id response).results[id]?
      = some (c.node.checkResponse env peerIdError now₁ now₂ response).2 := by
  have hnew : c.results.contains id = false := by
    rw [Std.ExtTreeMap.contains_eq_isSome_getElem?, hopen, Option.isSome_none]
  unfold completePendingDirectRequest settle deliver
  dsimp only
  rw [if_pos hwaiter, hnew]
  simp only [Bool.false_eq_true, if_false]
  rw [FinMap.find_insert, if_pos rfl]

theorem sendRequest_eq_ok {stamp : Stamp} {nonce : String} {ts : UInt64} {recipient : String}
    {body : List UInt8} {c' : Client}
    (h : c.sendRequest env stamp nonce ts recipient body = .ok c') :
    ∃ request, buildRequestBytes env.crypto stamp nonce ts c.node.localPeerId
        recipient body = .ok request ∧ c' =
      { c with nextId := c.nextId + 1, calls := c.calls.insert c.nextId ⟨recipient, request⟩ } := by
  unfold sendRequest at h
  split at h
  · cases h
  split at h
  · cases h
  split at h
  · cases h
  · rename_i request hbuilt
    exact ⟨request, hbuilt, (Except.ok.inj h).symm⟩

/-- Everything an event can come to: nothing, a numbered call, a waiter for a call, a
    call that returns empty-handed, or a response that is checked and finds a waiter
    or does not. -/
inductive Stepped (env : NodeEnv) (peerIdError : String → String) (c : Client) :
    ClientEvent → Client → Prop where
  | idle (e : ClientEvent) : Stepped env peerIdError c e c
  | sent (e : ClientEvent) (recipient : String) (request : DirectRequest) :
      Stepped env peerIdError c e
        { c with nextId := c.nextId + 1, calls := c.calls.insert c.nextId ⟨recipient, request⟩ }
  | waits (id : Nat) (call : DirectCall) (hcall : c.calls[id]? = some call) :
      Stepped env peerIdError c (.await id) { c with pending := insert id c.pending }
  | expired (id : Nat) :
      Stepped env peerIdError c (.expire id) (c.deliver id (.error "Direct request timed out"))
  | unclaimed (now₁ now₂ : UInt64) (id : Nat) (response : DirectResponse) :
      Stepped env peerIdError c (.respond now₁ now₂ id response)
        { c with node := (c.node.checkResponse env peerIdError now₁ now₂ response).1 }
  | claimed (now₁ now₂ : UInt64) (id : Nat) (response : DirectResponse)
      (hwaiter : id ∈ c.pending) :
      Stepped env peerIdError c (.respond now₁ now₂ id response)
        { { c with node := (c.node.checkResponse env peerIdError now₁ now₂ response).1 }.deliver id
            (c.node.checkResponse env peerIdError now₁ now₂ response).2 with
          pending := c.pending.erase id }

theorem stepped (e : ClientEvent) : Stepped env peerIdError c e (c.step env peerIdError e) := by
  cases e with
  | dispatch stamp nonce ts recipient body =>
    dsimp only [step]
    split
    · rename_i c' hsent
      rcases sendRequest_eq_ok hsent with ⟨request, -, rfl⟩
      exact .sent _ recipient request
    · exact .idle _
  | await id =>
    dsimp only [step]
    split
    · rename_i hcall
      rw [Std.ExtTreeMap.contains_eq_isSome_getElem?, Option.isSome_iff_exists] at hcall
      rcases hcall.1 with ⟨call, hcall⟩
      exact .waits id call hcall
    · exact .idle _
  | respond now₁ now₂ id response =>
    dsimp only [step, completePendingDirectRequest, settle]
    split
    · rename_i hwaiter
      exact .claimed now₁ now₂ id response hwaiter
    · exact .unclaimed now₁ now₂ id response
  | expire id =>
    dsimp only [step]
    split
    · exact .expired id
    · exact .idle _

variable {e : ClientEvent} {c' : Client} {call : DirectCall} (events : List ClientEvent)

theorem Stepped.results (h : Stepped env peerIdError c e c')
    (hresult : c'.results[id]? = some (.ok bytes)) :
    c.results[id]? = some (.ok bytes) ∨
      ∃ now₁ now₂ response, e = .respond now₁ now₂ id response ∧ id ∈ c.pending ∧
        (c.node.checkResponse env peerIdError now₁ now₂ response).2 = .ok bytes := by
  cases h with
  | idle | sent | waits | unclaimed => exact Or.inl hresult
  | expired id' =>
    rcases find_deliver hresult with hold | ⟨-, herror⟩
    · exact Or.inl hold
    · cases herror
  | claimed now₁ now₂ id' response hwaiter =>
    rcases find_deliver hresult with hold | ⟨hid, hread⟩
    · exact Or.inl hold
    · rw [hid]
      exact Or.inr ⟨now₁, now₂, response, rfl, hwaiter, hread.symm⟩

theorem Stepped.calls (h : Stepped env peerIdError c e c') (hc : c.Numbered)
    (hcall : c.calls[id]? = some call) : c'.calls[id]? = some call := by
  cases h with
  | idle | waits | unclaimed => exact hcall
  | sent e recipient request =>
    have hbelow := hc.below id call hcall
    dsimp only
    rw [FinMap.find_insert, if_neg (by omega), hcall]
  | expired id' => rw [(deliver_frame id' _).2.1, hcall]
  | claimed now₁ now₂ id' response _ =>
    dsimp only
    rw [(deliver_frame id' _).2.1, hcall]

theorem Stepped.numbered (h : Stepped env peerIdError c e c') (hc : c.Numbered) : c'.Numbered := by
  have hkept {id : Nat} (hid : id ∈ c.pending) : ∃ call, c'.calls[id]? = some call := by
    rcases hc.called id hid with ⟨call, hcall⟩
    exact ⟨call, h.calls hc hcall⟩
  cases h with
  | idle | unclaimed => exact ⟨hc.called, hc.below⟩
  | sent e recipient request =>
    refine ⟨fun id hid => hkept hid, fun id call hcall => ?_⟩
    dsimp only at hcall ⊢
    rcases FinMap.find_insert_eq_some.mp hcall with ⟨rfl, -⟩ | ⟨-, hold⟩
    · omega
    · exact Nat.lt_succ_of_lt (hc.below id call hold)
  | waits id' call' hcall' =>
    refine ⟨fun id hid => ?_, hc.below⟩
    rcases Finset.mem_insert.mp hid with rfl | hid
    · exact ⟨call', hcall'⟩
    · exact hkept hid
  | expired id' =>
    rcases deliver_frame (c := c) id' (.error "Direct request timed out") with
      ⟨-, hcalls, hpending, hnext⟩
    exact ⟨by rw [hpending, hcalls]; exact hc.called, by rw [hcalls, hnext]; exact hc.below⟩
  | claimed now₁ now₂ id' response _ =>
    refine ⟨fun id hid => hkept (Finset.mem_of_mem_erase hid), fun id call hcall => ?_⟩
    dsimp only at hcall ⊢
    rw [(deliver_frame id' _).2.1] at hcall
    rw [(deliver_frame id' _).2.2.2]
    exact hc.below id call hcall

theorem Stepped.sameKeys (h : Stepped env peerIdError c e c') :
    SecurityRuntime.SameKeys c.node.security c'.node.security := by
  cases h with
  | idle | sent | waits => exact .refl _
  | expired id =>
    rw [(deliver_frame id _).1]
    exact .refl _
  | unclaimed now₁ now₂ id response => exact Node.checkResponse_sameKeys
  | claimed now₁ now₂ id response _ =>
    dsimp only
    rw [(deliver_frame id _).1]
    exact Node.checkResponse_sameKeys

theorem run_append (first second : List ClientEvent) :
    c.run env peerIdError (first ++ second)
      = (c.run env peerIdError first).run env peerIdError second :=
  List.foldl_append

theorem run_numbered (hc : c.Numbered) : (c.run env peerIdError events).Numbered := by
  induction events generalizing c with
  | nil => exact hc
  | cons e events ih => exact ih ((stepped e).numbered hc)

theorem run_calls (hc : c.Numbered) (hcall : c.calls[id]? = some call) :
    (c.run env peerIdError events).calls[id]? = some call := by
  induction events generalizing c with
  | nil => exact hcall
  | cons e events ih => exact ih ((stepped e).numbered hc) ((stepped e).calls hc hcall)

/-- A response answers a call: it is signed with the key registered for the peer that
    was asked, and names the request that was sent. -/
structure Answers (crypto : Crypto) (Signed : PublicKey → List UInt8 → List UInt8 → Prop)
    (s : SecurityRuntime) (call : DirectCall) (response : DirectResponse) : Prop where
  signed : ∃ pk sig, s.peerPublicKeys[call.recipient]? = some pk ∧
    crypto.decodeBase64 response.signature = .ok sig ∧
    Signed pk (response.signatureMaterial crypto.byteOrder response.body) sig
  replies : response.inReplyTo = call.request.messageId

/-- A result comes from a response of the run for that call, which answers it if
    responses name their calls. -/
theorem run_results {Signed : PublicKey → List UInt8 → List UInt8 → Prop}
    (hunforgeable : ∀ pk msg sig, env.crypto.verify pk msg sig = true → Signed pk msg sig)
    (events : List ClientEvent) (hc : c.Numbered) (hmatched : Matched env peerIdError c events)
    (h : (c.run env peerIdError events).results[id]? = some (.ok bytes)) :
    c.results[id]? = some (.ok bytes) ∨
      ∃ call now₁ now₂ response, (c.run env peerIdError events).calls[id]? = some call ∧
        .respond now₁ now₂ id response ∈ events ∧ response.body = bytes ∧
        Answers env.crypto Signed c.node.security call response := by
  induction events generalizing c with
  | nil => exact Or.inl h
  | cons e events ih =>
    have hstep : Stepped env peerIdError c e (c.step env peerIdError e) := stepped e
    rcases ih (hstep.numbered hc) hmatched.2 h with hnow | ⟨call, now₁, now₂, response, hcall,
      hevent, hbody, hanswers⟩
    · rcases hstep.results hnow with hold | ⟨now₁, now₂, response, rfl, hwaiter, hpasses⟩
      · exact Or.inl hold
      · -- The response completes the call here, and it names it.
        rcases hc.called id hwaiter with ⟨call, hcall⟩
        rcases hmatched.1 call hcall hwaiter with ⟨hsender, hreplies⟩
        rcases Node.checkResponse_eq_ok_iff.mp hpasses with ⟨-, -, hpasses, hbody⟩
        rcases hpasses.signed with ⟨pk, sig, hpk, hsig, hverify⟩
        rw [hsender] at hpk
        exact Or.inr ⟨call, now₁, now₂, response, run_calls (_ :: events) hc hcall, by simp,
          hbody, ⟨pk, sig, hpk, hsig, hunforgeable _ _ _ hverify⟩, hreplies⟩
    · rcases hanswers.signed with ⟨pk, sig, hpk, hsigned⟩
      rw [hstep.sameKeys.peerPublicKeys] at hpk
      exact Or.inr ⟨call, now₁, now₂, response, hcall, by simp [hevent], hbody,
        ⟨pk, sig, hpk, hsigned⟩, hanswers.replies⟩

def new (node : Node) : Client := { node := node }

theorem new_numbered (node : Node) : (new node).Numbered :=
  ⟨by simp [new], by simp [new]⟩

/-- Every body a call returns in a run is that of a response which answers it. -/
def Bound (env : NodeEnv) (peerIdError : String → String)
    (Signed : PublicKey → List UInt8 → List UInt8 → Prop) (n : Node)
    (events : List ClientEvent) : Prop :=
  ∀ id bytes, ((new n).run env peerIdError events).results[id]? = some (.ok bytes) →
    ∃ call now₁ now₂ response, ((new n).run env peerIdError events).calls[id]? = some call ∧
      .respond now₁ now₂ id response ∈ events ∧ response.body = bytes ∧
      Answers env.crypto Signed n.security call response

/-- In a run whose responses name the peer that was asked and the request that was
    sent, every body a call returns is that of a response which answers it. -/
theorem response_bound (env : NodeEnv) (peerIdError : String → String)
    (Signed : PublicKey → List UInt8 → List UInt8 → Prop)
    (hunforgeable : ∀ pk msg sig, env.crypto.verify pk msg sig = true → Signed pk msg sig)
    (n : Node) (events : List ClientEvent) (hmatched : Matched env peerIdError (new n) events) :
    Bound env peerIdError Signed n events := by
  intro id bytes h
  rcases run_results hunforgeable events (new_numbered n) hmatched h with hold | hnew
  · exact absurd hold (by simp [new])
  · exact hnew

end Runs

/-- An environment around the stand-in for signatures. -/
def tagEnv : NodeEnv where
  crypto := tagCrypto "node-key"
  crdt := ⟨id, fun _ => none⟩
  compute :=
    { sha256Hex := fun _ => "", isPublicKey := fun _ => false, isSignature := fun _ => false
      verify := fun _ _ _ => false, parsePeerId := some, parseMessage := fun _ => none
      messageJson := fun _ => none }
  syncPayload _ := []
  certJson _ := none
  bundleJson _ := .error "no bundle"
  encapsulate _ _ _ := .error "no key"
  peelOnionLayer _ := .error "no layer"

def noPeerId (_ : String) : String := "invalid multihash"

/-- A signature made with a key of the stand-in. -/
def SignedByTag (pk : PublicKey) (msg sig : List UInt8) : Prop := sig = pk.bytes ++ msg

theorem signedByTag_of_verify (pk : PublicKey) (msg sig : List UInt8)
    (h : tagEnv.crypto.verify pk msg sig = true) : SignedByTag pk msg sig := by
  simpa [tagEnv, tagCrypto, SignedByTag] using h

/-- A node that knows the keys of two peers. -/
def askingNode : Node where
  localPeerId := "node"
  security :=
    { localPeerId := "node", replayWindowSecs := 300, replaySeen := ∅
      peerPublicKeys :=
        ((∅ : FinMap String PublicKey).insert "mallory" ⟨utf8 "mallory-key"⟩).insert "bob"
          ⟨utf8 "bob-key"⟩
      authority := none, allowedActions := ∅ }
  securityAttached := true
  authority := none
  reputation := ∅
  eventTx := none
  worldState := none
  governanceEngine := Governance.GovernanceEngine.new [] (2 / 3) 0
  crdtWorld := none
  computeHandle := none
  computeStore := none
  dashboard := []

/-- A response a peer has signed for this node. -/
def signedReply (peer inReplyTo : String) : DirectResponse :=
  let resp : DirectResponse :=
    { messageId := "dm-resp-1", inReplyTo := inReplyTo, sender := peer, recipient := "node"
      ok := true, kind := "response", messageType := "data", priority := 5
      body := utf8 "stale", nonce := "n", ts := 1000 }
  { resp with
    signature := Base64.encode
      (utf8 (peer ++ "-key") ++ resp.signatureMaterial .little resp.body) }

theorem signedReply_signature (peer inReplyTo : String) :
    (signedReply peer inReplyTo).signature
      = Base64.encode (utf8 (peer ++ "-key") ++ (signedReply peer inReplyTo).signatureMaterial
          .little (signedReply peer inReplyTo).body) := by
  simp only [signedReply, DirectResponse.signatureMaterial]

theorem askingNode_sends {stamp : Stamp} {nonce : String} {ts : UInt64} {recipient : String}
    {body : List UInt8} {request : DirectRequest}
    (h : buildRequestBytes (tagCrypto "node-key") stamp nonce ts "node" recipient
      body = .ok request) :
    (new askingNode).sendRequest tagEnv stamp nonce ts recipient body = .ok
      { new askingNode with
        nextId := 1, calls := (∅ : FinMap Nat DirectCall).insert 0 ⟨recipient, request⟩ } := by
  unfold sendRequest
  simp only [new, askingNode, tagEnv, Bool.not_true, Bool.false_eq_true, if_false, h]

/-- One request to `mallory`, waiting for its response. -/
def asking : List ClientEvent :=
  [.dispatch ⟨1000, "1"⟩ "q" 1000 "mallory" (utf8 "hello"), .await 0]

/-- The same, and a response that comes in for it. -/
def askMallory (response : DirectResponse) : List ClientEvent :=
  asking ++ [.respond 1000 1000 0 response]

theorem run_asking :
    ∃ request : DirectRequest, request.messageId = "dm-1000-1" ∧
      (new askingNode).run tagEnv noPeerId asking
        = { new askingNode with
            nextId := 1, calls := (∅ : FinMap Nat DirectCall).insert 0 ⟨"mallory", request⟩
            pending := {0} } := by
  have hbuilt : ∃ request, buildRequestBytes (tagCrypto "node-key") ⟨1000, "1"⟩ "q"
      1000 "node" "mallory" (utf8 "hello") = .ok request ∧ request.messageId = "dm-1000-1" :=
    ⟨_, rfl, by decide +kernel⟩
  rcases hbuilt with ⟨request, hbuilt, hid⟩
  refine ⟨request, hid, ?_⟩
  have hsent : (new askingNode).step tagEnv noPeerId
      (.dispatch ⟨1000, "1"⟩ "q" 1000 "mallory" (utf8 "hello"))
      = { new askingNode with
          nextId := 1, calls := (∅ : FinMap Nat DirectCall).insert 0 ⟨"mallory", request⟩ } := by
    rw [step, askingNode_sends hbuilt]
  rw [run, asking, List.foldl_cons, hsent]
  simp [step, new]

theorem own_response_bound :
    Matched tagEnv noPeerId (new askingNode) (askMallory (signedReply "mallory" "dm-1000-1")) ∧
      Bound tagEnv noPeerId SignedByTag askingNode
        (askMallory (signedReply "mallory" "dm-1000-1")) := by
  rcases run_asking with ⟨request, hid, hrun⟩
  have hmatched : Matched tagEnv noPeerId (new askingNode)
      (askMallory (signedReply "mallory" "dm-1000-1")) := by
    refine ⟨trivial, trivial, ?_, trivial⟩
    change Matches ((new askingNode).run tagEnv noPeerId asking) _
    rw [hrun]
    intro call hcall _
    rw [FinMap.find_insert, if_pos rfl, Option.some.injEq] at hcall
    rw [← hcall]
    exact ⟨rfl, hid.symm⟩
  exact ⟨hmatched, response_bound tagEnv noPeerId SignedByTag signedByTag_of_verify askingNode _
    hmatched⟩

/-- A request to one peer is completed by a response another peer has signed, to
    another request. -/
theorem foreign_response_accepted :
    (∀ pk msg sig, tagEnv.crypto.verify pk msg sig = true → SignedByTag pk msg sig) ∧
      ((new askingNode).run tagEnv noPeerId
        (askMallory (signedReply "bob" "dm-7-7"))).results[0]? = some (.ok (utf8 "stale")) ∧
      ¬ Bound tagEnv noPeerId SignedByTag askingNode
        (askMallory (signedReply "bob" "dm-7-7")) := by
  rcases run_asking with ⟨request, hid, hrun⟩
  have hresult : ((new askingNode).run tagEnv noPeerId
      (askMallory (signedReply "bob" "dm-7-7"))).results[0]? = some (.ok (utf8 "stale")) := by
    have hpasses : askingNode.security.Passes (tagCrypto "node-key") 1000 1000 "node" "bob"
        (.responseBytes (signedReply "bob" "dm-7-7")) := by
      refine passes_of_tag ?_ (fun names h => (Option.some.inj h).symm) ?_
        (signedReply_signature "bob" "dm-7-7")
      · decide +kernel
      · decide +kernel
    rw [askMallory, run_append, hrun, run, List.foldl_cons, List.foldl_nil, step, find_complete,
      Option.some.injEq, Node.checkResponse_eq_ok_iff]
    · exact ⟨rfl, rfl, hpasses, rfl⟩
    · exact Finset.mem_singleton_self 0
    · simp [new]
  refine ⟨signedByTag_of_verify, hresult, fun hbound => ?_⟩
  rcases hbound 0 _ hresult with ⟨call, now₁, now₂, response, hcall, hevent, -, hanswers⟩
  have hsent : call.request = request := by
    have hnumbered : ((new askingNode).run tagEnv noPeerId asking).Numbered :=
      run_numbered asking (new_numbered askingNode)
    rw [hrun] at hnumbered
    rw [askMallory, run_append, hrun, run_calls [_] hnumbered
      (by rw [FinMap.find_insert, if_pos rfl]), Option.some.injEq] at hcall
    rw [← hcall]
  -- The only response of the run replies to another request.
  simp only [askMallory, asking, List.cons_append, List.nil_append, List.mem_cons, reduceCtorEq,
    ClientEvent.respond.injEq, List.not_mem_nil, or_false, false_or] at hevent
  have hreplies := hanswers.replies
  rw [hevent.2.2.2, hsent, hid] at hreplies
  exact absurd hreplies (by decide)

end Client

end EssNode
