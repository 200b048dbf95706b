import EssNode.Node.Direct
import EssNode.Node.Pending
import EssNode.Security.Completeness

/-!
# Replies

Whether the peer that made a request can use the reply. The asking side accepts
signed responses only, while nearly all replies of the handler are made unsigned:
the answer to a synchronisation, a vote, a notification, an announcement, a key
exchange, a computation, and an embedded configuration request. A waiter for one of
these is told that verification failed, although the request was carried out and
answered. Only the acknowledgement of a plain request is signed.
-/

namespace EssNode

open Bincode Option SecurityRuntime

namespace Node

section Handler

variable {env : NodeEnv} {rd : Readings} {n : Node} {peer : String} {request : DirectRequest}
  {body : List UInt8} {resp : DirectResponse}

theorem replyOkBytes_signature (bytes : List UInt8) :
    (n.replyOkBytes rd peer request bytes).signature = "" := by
  change trim "" = ""
  decide +kernel

theorem replyOk_signature (text : String) : (n.replyOk rd peer request text).signature = "" :=
  replyOkBytes_signature (utf8 text)

theorem plainError_ne {stamp : Stamp} {inReplyTo sender recipient text : String}
    (hok : resp.ok = true) :
    DirectResponse.plainError stamp inReplyTo sender recipient text ≠ resp := by
  rintro rfl
  exact Bool.false_ne_true hok

theorem replySigned_eq {built : Except SecurityError DirectResponse}
    (h : n.replySigned rd peer request built = resp) (hok : resp.ok = true) : built = .ok resp := by
  cases built with
  | ok signed => exact congrArg _ h
  | error e => exact absurd h (plainError_ne hok)

theorem signResponse_ok {crypto : Crypto} {nonce : String} {ts : UInt64} {unsigned : DirectResponse}
    (h : signResponse crypto nonce ts unsigned = .ok resp) :
    resp.ok = unsigned.ok := by
  rcases bind_eq_ok_iff.mp h with ⟨signature, -, hresp⟩
  rw [← Except.ok.inj hresp]

theorem handlePlain_reply (h : (n.handlePlain env rd peer request body).response = some resp)
    (hok : resp.ok = true) :
    (ConfigRequest.codec.deserialize body = none ∧
      buildResponseOk env.crypto rd.reply (rd.nonce 0) (rd.clock 2) n.localPeerId
        peer request.messageId "ack" = .ok resp) ∨
    (ConfigRequest.codec.deserialize body ≠ none ∧ resp.signature = "") := by
  unfold handlePlain at h
  dsimp only at h
  split at h
  · split at h
    · rename_i configReq hconfig
      refine Or.inr ⟨by simp [hconfig], ?_⟩
      split at h
      · rw [← some.inj h]
        exact replyOkBytes_signature _
      · exact absurd (some.inj h) (plainError_ne hok)
    · rename_i hconfig
      exact Or.inl ⟨hconfig, replySigned_eq (some.inj h) hok⟩
  · -- What is refused is answered by a signed error.
    have hsigned := replySigned_eq (some.inj h) hok
    rw [signResponse_ok hsigned] at hok
    exact absurd hok Bool.false_ne_true

theorem handlePlain_ack
    (hpasses : n.security.Passes env.crypto (rd.clock 0) (rd.clock 1) n.localPeerId peer
      (.request request))
    (hconfig : ConfigRequest.codec.deserialize body = none) :
    (n.handlePlain env rd peer request body).response = some (n.replySigned rd peer request
      (buildResponseOk env.crypto rd.reply (rd.nonce 0) (rd.clock 2) n.localPeerId
        peer request.messageId "ack")) := by
  have hverified : (n.security.verifyRequest env.crypto (rd.clock 0) (rd.clock 1) n.localPeerId
      peer request).2 = .ok (Text.utf8Lossy request.body) :=
    (verifyWith_signed_iff (m := .request request) rfl).mpr ⟨hpasses, rfl⟩
  unfold handlePlain
  simp only [hverified, hconfig]
  rfl

/-- A successful reply of the handler is the signed acknowledgement of a plain
    request, or it is not signed. -/
theorem reply_cases
    (h : (n.handleDirectRequest env rd peer request body).response = some resp)
    (hok : resp.ok = true) :
    (RequestKind.ofText request.kind = .plain ∧ ConfigRequest.codec.deserialize body = none ∧
      buildResponseOk env.crypto rd.reply (rd.nonce 0) (rd.clock 2) n.localPeerId
        peer request.messageId "ack" = .ok resp) ∨
    (¬(RequestKind.ofText request.kind = .plain ∧ ConfigRequest.codec.deserialize body = none) ∧
      resp.signature = "") := by
  have hunsigned {unsigned : DirectResponse} (h : some unsigned = some resp)
      (hsignature : unsigned.signature = "") : resp.signature = "" := by
    rw [← some.inj h, hsignature]
  unfold handleDirectRequest at h
  generalize RequestKind.ofText request.kind = kind at h ⊢
  cases kind with
  | plain =>
    rcases handlePlain_reply h hok with ⟨hconfig, hbuilt⟩ | ⟨hconfig, hsignature⟩
    · exact Or.inl ⟨rfl, hconfig, hbuilt⟩
    · exact Or.inr ⟨fun hplain => hconfig hplain.2, hsignature⟩
  | crdtSync =>
    refine Or.inr ⟨by simp, ?_⟩
    dsimp only [handleCrdtSync] at h
    split at h
    · cases h
    · split at h
      · exact hunsigned h (replyOkBytes_signature _)
      · exact absurd (some.inj h) (plainError_ne hok)
  | governanceVote =>
    refine Or.inr ⟨by simp, ?_⟩
    dsimp only [handleVote] at h
    -- Counted, not accepted, or not read: the answer is the same.
    split at h
    · split at h <;> exact hunsigned h (replyOk_signature _)
    · exact hunsigned h (replyOk_signature _)
  | activationNotify =>
    refine Or.inr ⟨by simp, ?_⟩
    dsimp only [handleActivationNotify] at h
    split at h <;> exact hunsigned h (replyOk_signature _)
  | governanceAnnounce =>
    refine Or.inr ⟨by simp, ?_⟩
    dsimp only [handleAnnounce] at h
    split at h
    · split at h <;> exact hunsigned h (replyOk_signature _)
    · exact hunsigned h (replyOk_signature _)
  | pqcHandshake =>
    refine Or.inr ⟨by simp, ?_⟩
    dsimp only [handlePqcHandshake] at h
    split at h
    · split at h
      · exact hunsigned h (replyOkBytes_signature _)
      · exact absurd (some.inj h) (plainError_ne hok)
    · cases h
  | compute =>
    refine Or.inr ⟨by simp, ?_⟩
    dsimp only [handleCompute] at h
    split at h
    · exact hunsigned h (replyOk_signature _)
    · split at h
      · exact hunsigned h (replyOkBytes_signature _)
      · exact absurd (some.inj h) (plainError_ne hok)

end Handler

end Node

/-- An answering node and an asking one, which knows the other's key and has a
    waiter: their names are names of peers, the clocks agree within the window, the
    reply's nonce is new and there is room for it. A signature that is missing does
    not verify. -/
structure Ready (env askEnv : NodeEnv) (rd : Readings) (n : Node) (peer : String) (c : Client)
    (i : Nat) (now₁ now₂ : UInt64) : Prop where
  name : c.node.localPeerId = peer
  attached : c.node.securityAttached = true
  trusts : Trusts env.crypto askEnv.crypto c.node.security n.localPeerId
  parses : askEnv.compute.parsePeerId n.localPeerId = some n.localPeerId
  answering : Unspaced n.localPeerId
  asking : Unspaced peer
  clocks : absDiff now₁ (rd.clock 2) ≤ c.node.security.replayWindowSecs
  unused : c.node.security.seenAt n.localPeerId (rd.nonce 0) = none
  room : (c.node.security.keptNonces now₂ n.localPeerId).size < maxNoncesPerPeer
  waiter : i ∈ c.pending
  unanswered : c.results[i]? = none
  unsigned : ∀ (known : String) pk msg sig, c.node.security.peerPublicKeys[known]? = some pk →
    askEnv.crypto.decodeBase64 "" = .ok sig → askEnv.crypto.verify pk msg sig = false

/-- The waiter gets the reply's body. -/
def Completes (askEnv : NodeEnv) (peerIdError : String → String) (now₁ now₂ : UInt64) (c : Client)
    (i : Nat) (resp : DirectResponse) : Prop :=
  (c.completePendingDirectRequest askEnv peerIdError now₁ now₂ i resp).results[i]?
    = some (.ok resp.body)

/-- A successful reply reaches its waiter exactly when it is the acknowledgement of a
    plain request without a configuration request in it. -/
theorem reply_completes_iff (env askEnv : NodeEnv) (peerIdError : String → String) (rd : Readings)
    (n : Node) (peer : String) (c : Client) (i : Nat) (now₁ now₂ : UInt64)
    (hready : Ready env askEnv rd n peer c i now₁ now₂) (request : DirectRequest)
    (body : List UInt8) (resp : DirectResponse)
    (hreply : (n.handleDirectRequest env rd peer request body).response = some resp)
    (hok : resp.ok = true) :
    Completes askEnv peerIdError now₁ now₂ c i resp ↔
      RequestKind.ofText request.kind = .plain ∧
        ConfigRequest.codec.deserialize body = none := by
  unfold Completes
  rw [Client.find_complete hready.waiter hready.unanswered, some.injEq,
    Node.checkResponse_eq_ok_iff]
  rcases Node.reply_cases hreply hok with ⟨hkind, hconfig, hbuilt⟩ | ⟨hcond, hsignature⟩
  · refine iff_of_true ?_ ⟨hkind, hconfig⟩
    -- The acknowledgement is a message the asking side accepts.
    have hfresh := Draft.fresh_of_unused hready.clocks hready.unused hready.room
    have hdraft : ∃ m, (Draft.responseOk true request.messageId "ack").build env.crypto
        env.bundleJson rd.reply (rd.nonce 0) (rd.clock 2) n.localPeerId peer = .ok m ∧
        (c.node.security.verifyMessage askEnv.crypto (fun _ => .error "") now₁ now₂ peer
          n.localPeerId m).2 = .ok (.bytes (utf8 "ack")) :=
      Draft.draft_accepted hready.trusts hready.answering hready.asking hfresh _ trivial
    rcases hdraft with ⟨m, hm, haccepted⟩
    have hmessage : m = .responseBytes resp := by
      rw [Draft.build, hbuilt] at hm
      exact (Except.ok.inj hm).symm
    rw [hmessage] at haccepted
    have hpasses := ((SecurityRuntime.verifyMessage_eq_ok_iff _ _).mp haccepted).1
    have hsender : resp.sender = n.localPeerId := congrArg Prod.fst (hpasses.names _ rfl)
    rw [hsender, hready.name]
    exact ⟨hready.attached, hready.parses, hpasses, rfl⟩
  · refine iff_of_false ?_ hcond
    rintro ⟨-, -, hpasses, -⟩
    rcases hpasses.signed with ⟨pk, sig, hpk, hsig, hverify⟩
    rw [SignedMessage.signature, hsignature] at hsig
    rw [hready.unsigned _ pk _ sig hpk hsig] at hverify
    exact absurd hverify (by decide)

section Pair

open Client

def answerEnv : NodeEnv := { tagEnv with crypto := tagCrypto "bob-key" }

/-- A node that knows the asking node's key and serves it. -/
def answeringNode : Node :=
  { askingNode with
    localPeerId := "bob"
    security :=
      { localPeerId := "bob", replayWindowSecs := 300, replaySeen := ∅
        peerPublicKeys := (∅ : FinMap String PublicKey).insert "node" ⟨utf8 "node-key"⟩
        authority := some { supernodes := ["node"], allowedPeers := ∅, policies := .default }
        allowedActions := {"connect"} }
    authority := some { supernodes := ["node"], allowedPeers := ∅, policies := .default } }

def answersAt (now : UInt64) : Readings where
  clock _ := now
  nonce _ := "nonce"
  uuid := "0001"
  random := []
  reply := ⟨now, "1"⟩
  secondReply := ⟨now, "2"⟩
  forward := ⟨now, "3"⟩

/-- The asking node with one waiter. -/
def waitingClient : Client := { Client.new askingNode with nextId := 1, pending := {0} }

/-- A request of the asking node, signed. -/
def signedAsk (kind : String) : DirectRequest :=
  let req : DirectRequest :=
    { messageId := "dm-1", sender := "node", recipient := "bob", kind := kind
      messageType := "data", priority := 5, body := utf8 "hello", nonce := "q", ts := 1000 }
  { req with
    signature := Base64.encode (utf8 "node-key" ++ req.signatureMaterial .little req.body) }

theorem signedAsk_signature (kind : String) :
    (signedAsk kind).signature = Base64.encode
      (utf8 "node-key" ++ (signedAsk kind).signatureMaterial .little (signedAsk kind).body) := by
  simp only [signedAsk, DirectRequest.signatureMaterial]

theorem askingNode_unsigned (known : String) (pk : PublicKey) (msg sig : List UInt8)
    (hpk : askingNode.security.peerPublicKeys[known]? = some pk)
    (hsig : tagEnv.crypto.decodeBase64 "" = .ok sig) : tagEnv.crypto.verify pk msg sig = false := by
  have hempty : tagEnv.crypto.decodeBase64 "" = .ok [] := by decide +kernel
  have hkey : pk.bytes ≠ [] := by
    dsimp only [askingNode] at hpk
    rw [FinMap.find_insert, FinMap.find_insert] at hpk
    split at hpk
    · rw [← some.inj hpk]
      decide
    · split at hpk
      · rw [← some.inj hpk]
        decide
      · exact absurd hpk (by simp)
  rw [hempty, Except.ok.injEq] at hsig
  rw [← hsig]
  simp [tagEnv, tagCrypto, hkey]

theorem pair_ready : Ready answerEnv tagEnv (answersAt 1000) answeringNode "node" waitingClient 0
    1000 1000 where
  name := rfl
  attached := rfl
  trusts := Draft.tagCrypto_trusts_of (by decide +kernel)
  parses := rfl
  answering := by decide +kernel
  asking := by decide +kernel
  clocks := by decide
  unused := by decide +kernel
  room := by decide +kernel
  waiter := by decide
  unanswered := by decide +kernel
  unsigned := askingNode_unsigned

theorem plain_reply_completes :
    ∃ resp, (answeringNode.handleDirectRequest answerEnv (answersAt 1000) "node"
        (signedAsk "message") (utf8 "hello")).response = some resp ∧
      Completes tagEnv noPeerId 1000 1000 waitingClient 0 resp := by
  have hpasses : answeringNode.security.Passes (tagCrypto "bob-key") 1000 1000 "bob" "node"
      (.request (signedAsk "message")) := by
    refine passes_of_tag ?_ ?_ ?_ (signedAsk_signature "message")
    · decide +kernel
    · intro names h
      exact (some.inj h).symm
    · decide +kernel
  have hconfig : ConfigRequest.codec.deserialize (utf8 "hello") = none := by decide +kernel
  have hkind : RequestKind.ofText (signedAsk "message").kind = .plain := by decide +kernel
  have hreply : ∃ resp, (answeringNode.handleDirectRequest answerEnv (answersAt 1000) "node"
      (signedAsk "message") (utf8 "hello")).response = some resp ∧ resp.ok = true := by
    rw [Node.handleDirectRequest, hkind]
    exact ⟨_, Node.handlePlain_ack hpasses hconfig, rfl⟩
  rcases hreply with ⟨resp, hresp, hok⟩
  exact ⟨resp, hresp, (reply_completes_iff answerEnv tagEnv noPeerId (answersAt 1000) answeringNode
    "node" waitingClient 0 1000 1000 pair_ready (signedAsk "message") (utf8 "hello") resp hresp
    hok).mpr ⟨hkind, hconfig⟩⟩

/-- A peer that is served sends a vote. The reply says it was received; the waiter is
    told that verification failed. -/
theorem vote_reply_lost :
    let resp := answeringNode.replyOk (answersAt 1000) "node" (signedAsk "governance.vote") "ack"
    Ready answerEnv tagEnv (answersAt 1000) answeringNode "node" waitingClient 0 1000 1000 ∧
      (answeringNode.enforce "node" .connect).2 = true ∧
      (answeringNode.handleDirectRequest answerEnv (answersAt 1000) "node"
        (signedAsk "governance.vote") (utf8 "hello")).response = some resp ∧
      resp.ok = true ∧
      (waitingClient.completePendingDirectRequest tagEnv noPeerId 1000 1000 0 resp).results[0]?
        = some (.error "Verification error: signature verification failed") ∧
      ¬ Completes tagEnv noPeerId 1000 1000 waitingClient 0 resp := by
  refine ⟨pair_ready, by decide +kernel, by decide +kernel, rfl, by decide +kernel, ?_⟩
  unfold Completes
  decide +kernel

end Pair

end EssNode
