import EssNode.Node.Replies

/-!
# Typed Messages

A message of a given kind is sent as a request inside a request. The inner one
carries the kind and the body; it is encoded and becomes the body of an outer
request, which is built and signed like any other and has the kind `message`.

The receiver looks for a request inside a request, but encoded as a variant of
`EssRequest`, behind the variant's number. The inner request was encoded without
one. Where the number should be, there is the length of its identifier, and no
variant has that number. So the body is taken for that of a plain message, and the
kind the receiver goes by is the outer one.
-/

namespace EssNode

open Bincode List Text DirectRequest

theorem trim_append {front : String} (hfront : Unspaced front) (hne : front ≠ "")
    (back : String) : ∃ rest tail, trim (front ++ back) = front ++ rest ∧ back = rest ++ tail := by
  have hstart : (front ++ back).toList.dropWhile isWhitespace = (front ++ back).toList := by
    rw [String.toList_append]
    cases hchars : front.toList with
    | nil => exact absurd (String.toList_inj.mp (by rw [hchars]; rfl)) hne
    | cons c chars =>
      rw [cons_append, dropWhile_cons_of_neg (by simp [hfront c (by simp [hchars])])]
  have hend : front.toList.reverse.dropWhile isWhitespace = front.toList.reverse :=
    dropWhile_isWhitespace fun c hc => hfront c (mem_reverse.mp (mem_of_mem_head? hc))
  unfold trim
  dsimp only
  rw [hstart, String.toList_append, reverse_append, dropWhile_append, hend]
  split
  · exact ⟨"", back, by simp, by simp⟩
  · -- What is dropped at the end is an end of the second part.
    rcases dropWhile_suffix isWhitespace (l := back.toList.reverse) with ⟨dropped, hdropped⟩
    refine ⟨String.ofList (back.toList.reverse.dropWhile isWhitespace).reverse,
      String.ofList dropped.reverse, ?_, ?_⟩
    · rw [← String.toList_inj]
      simp
    · rw [← String.toList_inj, String.toList_append, String.toList_ofList, String.toList_ofList,
        ← reverse_append, hdropped, reverse_reverse]

def typedRequest (stamp : Stamp) (sender recipient kind : String) (body : List UInt8) :
    DirectRequest :=
  { plainBytes stamp.ts stamp.shortNonce sender recipient body with kind := kind }

/-- Send a message of a given kind: the encoded inner request is sent like any other
    body. -/
def Client.sendTypedMessage (env : NodeEnv) (c : Client) (inner stamp : Stamp) (nonce : String)
    (ts : UInt64) (recipient kind : String) (body : List UInt8) : Except String Client :=
  c.sendRequest env stamp nonce ts recipient
    (codec.serialize (typedRequest inner c.node.localPeerId recipient kind body))

/-- The readings in a stamp have fewer digits than fit in half a word. -/
def Stamp.Short (stamp : Stamp) : Prop :=
  (utf8 (decimal stamp.ts ++ "-" ++ stamp.shortNonce)).length < 2 ^ 31

variable {stamp : Stamp} {sender recipient kind : String} {body : List UInt8}

theorem typedRequest_messageId (h : stamp.Short) (sender recipient kind : String)
    (body : List UInt8) :
    2 ≤ (utf8 (typedRequest stamp sender recipient kind body).messageId).length ∧
      (utf8 (typedRequest stamp sender recipient kind body).messageId).length < 256 ^ 4 := by
  have hid : (typedRequest stamp sender recipient kind body).messageId
      = trim ("dm-" ++ (decimal stamp.ts ++ "-" ++ stamp.shortNonce)) := by
    change trim ("dm-" ++ decimal stamp.ts ++ "-" ++ stamp.shortNonce) = _
    rw [String.append_assoc, String.append_assoc, String.append_assoc]
  have hfront : Unspaced "dm-" := by decide
  rcases trim_append hfront (by decide) (decimal stamp.ts ++ "-" ++ stamp.shortNonce) with
    ⟨rest, tail, htrim, hrest⟩
  unfold Stamp.Short at h
  rw [hrest, utf8_append, length_append] at h
  rw [hid, htrim, utf8_append, length_append, show (utf8 "dm-").length = 3 by decide +kernel]
  omega

/-- An encoded request begins with the length of its identifier, which fills the
    place of a variant's number. -/
theorem serialize_eq (r : DirectRequest) :
    ∃ rest, codec.serialize r
      = (word 4).encode (utf8 r.messageId).length ++ rest := by
  have hword : (word 8).encode (utf8 r.messageId).length
      = (word 4).encode (utf8 r.messageId).length ++
        littleEndian 4 ((utf8 r.messageId).length / 256 ^ 4) :=
    littleEndian_add 4 4 _
  have hstart : ∃ rest, codec.serialize r
      = (word 8).encode (utf8 r.messageId).length ++ rest :=
    ⟨_, append_assoc _ _ _⟩
  rcases hstart with ⟨rest, hrest⟩
  exact ⟨_, by rw [hrest, hword, append_assoc]⟩

theorem deserialize_typedRequest (h : stamp.Short) (sender recipient kind : String)
    (body : List UInt8) :
    EssRequest.codec.deserialize
      (codec.serialize (typedRequest stamp sender recipient kind body)) = none := by
  rcases typedRequest_messageId h sender recipient kind body with ⟨htag, hfits⟩
  rcases serialize_eq (typedRequest stamp sender recipient kind body) with ⟨rest, hbytes⟩
  rw [hbytes]
  exact Codec.refine_deserialize_of_none _
    (codec.either_decode_of_tag OnionRelayRequest.codec hfits htag rest)

theorem length_serialize (r : DirectRequest) :
    r.body.length < (codec.serialize r).length := by
  have hfront : ∃ front back, codec.serialize r
      = string.encode r.messageId ++ (front ++ (bytes.encode r.body ++ back)) := by
    refine ⟨string.encode r.sender ++ (string.encode r.recipient ++ (string.encode r.kind ++
      (string.encode r.messageType ++ (u8.encode r.priority ++ (string.encode r.batchId ++
        (u32.encode r.batchIndex ++ u32.encode r.batchSize)))))),
      string.encode r.nonce ++ (u64.encode r.ts ++ (Bincode.bool.encode r.encrypted ++
        (string.encode r.senderPubkey ++ (nodeRoleCodec.option.encode r.senderRole ++
          string.encode r.signature)))), ?_⟩
    simp only [append_assoc]
    rfl
  rcases hfront with ⟨front, back, hbytes⟩
  have hid : 8 ≤ (string.encode r.messageId).length := by
    change 8 ≤ (littleEndian 8 _ ++ utf8 r.messageId).length
    rw [length_append, length_littleEndian]
    omega
  have hbody : r.body.length ≤ (bytes.encode r.body).length := by
    change _ ≤ (littleEndian 8 _ ++ r.body).length
    rw [length_append]
    omega
  rw [hbytes, length_append, length_append, length_append]
  omega

namespace Node

variable {env : NodeEnv} {rd : Readings} {n : Node} {peer : String} {request : DirectRequest}

/-- An incoming request is handled under a kind, with a body. -/
def Processes (env : NodeEnv) (n : Node) (peer : String) (request : DirectRequest)
    (kind : RequestKind) (body : List UInt8) : Prop :=
  RequestKind.ofText request.kind = kind ∧ n.handlerBody env peer request = some body

theorem buildRequestBytes_spec {crypto : Crypto} {stamp : Stamp} {nonce : String} {ts : UInt64}
    {sender recipient : String}
    (h : SecurityRuntime.buildRequestBytes crypto stamp nonce ts sender recipient body
      = .ok request) : RequestKind.ofText request.kind = .plain ∧ request.body = body := by
  rcases bind_eq_ok_iff.mp h with ⟨signature, -, hrequest⟩
  rw [← Except.ok.inj hrequest]
  refine ⟨?_, rfl⟩
  change RequestKind.ofText (trim "message") = .plain
  decide +kernel

end Node

/-- A typed message is never handled under its kind with its body. If the receiver
    serves the sender, it is handled as a plain message, whose body is the encoding of
    the inner request. -/
theorem typed_message_misread (env sendEnv : NodeEnv) (rd : Readings) (n : Node) (peer : String)
    (c c' : Client) (inner stamp : Stamp) (hshort : inner.Short) (nonce : String) (ts : UInt64)
    (recipient kind : String) (hkind : RequestKind.ofText kind ≠ .plain) (body : List UInt8)
    (hsent : c.sendTypedMessage sendEnv inner stamp nonce ts recipient kind body = .ok c')
    (call : DirectCall) (hcall : c'.calls[c.nextId]? = some call) :
    ¬ n.Processes env peer call.request (RequestKind.ofText kind) body ∧
      ∀ handed, n.handlerBody env peer call.request = some handed →
        handed = DirectRequest.codec.serialize
            (typedRequest inner c.node.localPeerId recipient kind body) ∧ handed ≠ body ∧
          n.onDirectRequest env rd peer call.request
            = n.handlePlain env rd peer call.request handed := by
  rcases Client.sendRequest_eq_ok hsent with ⟨request, hbuilt, rfl⟩
  dsimp only at hcall
  rw [FinMap.find_insert, if_pos rfl] at hcall
  have hrequest : call.request = request := by rw [← Option.some.inj hcall]
  rcases Node.buildRequestBytes_spec hbuilt with ⟨houter, hbody⟩
  rw [hrequest]
  refine ⟨fun h => hkind (h.1.symm.trans houter), fun handed hhanded => ?_⟩
  have hsame : handed = DirectRequest.codec.serialize
      (typedRequest inner c.node.localPeerId recipient kind body) := by
    unfold Node.handlerBody at hhanded
    rw [hbody, deserialize_typedRequest hshort] at hhanded
    dsimp only at hhanded
    split at hhanded
    · exact (Option.some.inj hhanded).symm
    · cases hhanded
  refine ⟨hsame, fun hequal => ?_, ?_⟩
  · have hlonger := length_serialize
      (typedRequest inner c.node.localPeerId recipient kind body)
    rw [← hsame, hequal] at hlonger
    exact absurd hlonger (Nat.lt_irrefl _)
  · rw [Node.onDirectRequest_of_handlerBody rd hhanded, Node.handleDirectRequest, houter]

section Sync

open Client

/-- A client that sends a state to be merged. -/
def syncSent : Except String Client :=
  (Client.new askingNode).sendTypedMessage tagEnv ⟨1000, "1"⟩ ⟨1000, "2"⟩ "q" 1000 "bob"
    "crdt_sync" (utf8 "state")

theorem tagCrypto_builds (key own : String) (stamp : Stamp) (nonce : String) (ts : UInt64)
    (sender recipient : String) (body : List UInt8) :
    ∃ request, SecurityRuntime.buildRequestBytes (tagCrypto key) stamp nonce ts sender recipient
        body = .ok request ∧
      (SecurityRuntime.verifySignatureFormat (tagCrypto own) request.signature).isOk = true := by
  refine ⟨_, rfl, ?_⟩
  simp only [SecurityRuntime.verifySignatureFormat, tagCrypto, Base64.decode_encode]
  rfl

theorem syncStamp_short : Stamp.Short ⟨1000, "1"⟩ := by
  unfold Stamp.Short
  decide +kernel

theorem syncSent_call :
    ∃ c call, syncSent = .ok c ∧ c.calls[0]? = some call ∧
      RequestKind.ofText call.request.kind = .plain ∧
      (answeringNode.handlerBody answerEnv "node" call.request).isSome = true := by
  rcases tagCrypto_builds "node-key" "bob-key" ⟨1000, "2"⟩ "q" 1000 "node" "bob"
    (codec.serialize
      (typedRequest ⟨1000, "1"⟩ "node" "bob" "crdt_sync" (utf8 "state"))) with
    ⟨request, hbuilt, hformat⟩
  rcases Node.buildRequestBytes_spec hbuilt with ⟨hkind, hbody⟩
  have hsent : syncSent = .ok
      { Client.new askingNode with
        nextId := 1, calls := (∅ : FinMap Nat DirectCall).insert 0 ⟨"bob", request⟩ } :=
    askingNode_sends hbuilt
  have hserved : (answeringNode.enforce "node" .connect).2 = true := by decide +kernel
  refine ⟨_, ⟨"bob", request⟩, hsent, by rw [FinMap.find_insert, if_pos rfl], hkind, ?_⟩
  unfold Node.handlerBody
  rw [hbody, deserialize_typedRequest syncStamp_short]
  have hpermitted : ((SecurityRuntime.verifySignatureFormat answerEnv.crypto request.signature).isOk
      && (answeringNode.enforce "node" .connect).2) = true := by
    rw [hserved, Bool.and_true]
    exact hformat
  dsimp only
  rw [if_pos hpermitted, Option.isSome_some]

theorem sync_handled_plain :
    ∃ c call, syncSent = .ok c ∧ c.calls[0]? = some call ∧
      ∃ handed, answeringNode.onDirectRequest answerEnv (answersAt 1000) "node" call.request
        = answeringNode.handlePlain answerEnv (answersAt 1000) "node" call.request handed := by
  rcases syncSent_call with ⟨c, call, hsent, hcall, -, hserved⟩
  rcases Option.isSome_iff_exists.mp hserved with ⟨handed, hhanded⟩
  exact ⟨c, call, hsent, hcall, handed, ((typed_message_misread answerEnv tagEnv (answersAt 1000)
    answeringNode "node" (Client.new askingNode) c ⟨1000, "1"⟩ ⟨1000, "2"⟩ syncStamp_short "q" 1000
    "bob" "crdt_sync" (by decide) (utf8 "state") hsent call hcall).2 handed hhanded).2.2⟩

/-- A receiver that serves the sender does not handle the state as one. -/
theorem sync_not_processed :
    ∃ c call, syncSent = .ok c ∧ c.calls[0]? = some call ∧
      (answeringNode.handlerBody answerEnv "node" call.request).isSome = true ∧
      RequestKind.ofText "crdt_sync" = .crdtSync ∧
      ¬ answeringNode.Processes answerEnv "node" call.request .crdtSync (utf8 "state") := by
  rcases syncSent_call with ⟨c, call, hsent, hcall, hplain, hserved⟩
  refine ⟨c, call, hsent, hcall, hserved, by decide, fun h => ?_⟩
  rw [h.1] at hplain
  exact absurd hplain (by decide)

end Sync

end EssNode
