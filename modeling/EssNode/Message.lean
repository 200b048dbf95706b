import EssNode.Authority
import EssNode.Governance.Engine
import EssNode.Lib.Bincode

/-!
# Messages

What peers send each other over the direct protocol: requests and responses, the
enumeration that wraps them with onion packets, and the governance and
configuration messages carried in their bodies. Each type that is decoded from
the wire has its codec, with the fields in the order of their declaration.

A direct request names its `kind` in the outer envelope; its body may itself be
the encoding of an `EssRequest` with a second, inner request. Nothing ties the
two together.

Message identifiers are made of a clock reading and a second reading in
nanoseconds; constructors take both.
-/

namespace EssNode

open Authority Bincode Governance List Codec

/-- The characters Rust counts as white space. -/
def isWhitespace (c : Char) : Bool :=
  let n := c.toNat
  (9 ≤ n && n ≤ 13) || n == 0x20 || n == 0x85 || n == 0xA0 || n == 0x1680 ||
    (0x2000 ≤ n && n ≤ 0x200A) || n == 0x2028 || n == 0x2029 || n == 0x202F || n == 0x205F ||
    n == 0x3000

def trim (s : String) : String :=
  let chars := s.toList.dropWhile isWhitespace
  String.ofList (chars.reverse.dropWhile isWhitespace).reverse

/-- A text without white space, as the texts of peer identifiers are. -/
def Unspaced (s : String) : Prop := ∀ c ∈ s.toList, isWhitespace c = false

-- Over the characters of the text: a search over all of `Char` would not evaluate.
instance (s : String) : Decidable (Unspaced s) :=
  decidableBAll (fun c => isWhitespace c = false) s.toList

theorem dropWhile_isWhitespace {l : List Char} (h : ∀ c ∈ l.head?, isWhitespace c = false) :
    l.dropWhile isWhitespace = l := by
  cases l with
  | nil => rfl
  | cons c rest => rw [dropWhile_cons_of_neg (by simp [h c rfl])]

variable {s : String} {input : List UInt8} {req : EssRequest}

theorem trim_of_ends (hfirst : ∀ c ∈ s.toList.head?, isWhitespace c = false)
    (hlast : ∀ c ∈ s.toList.getLast?, isWhitespace c = false) : trim s = s := by
  unfold trim
  dsimp only
  rw [dropWhile_isWhitespace hfirst, dropWhile_isWhitespace (by rwa [head?_reverse]),
    reverse_reverse, String.ofList_toList]

theorem trim_of_unspaced (h : Unspaced s) : trim s = s :=
  trim_of_ends (fun c hc => h c (mem_of_mem_head? hc))
    (fun c hc => h c (mem_of_mem_getLast? hc))

theorem trim_trim (s : String) : trim (trim s) = trim s := by
  have hend : ∀ l : List Char, ∀ c ∈ (l.dropWhile isWhitespace).head?, isWhitespace c = false := by
    intro l c hc
    simpa [Option.mem_def.mp hc] using head?_dropWhile_not isWhitespace l
  apply trim_of_ends
  · intro c hc
    rw [trim, String.toList_ofList] at hc
    -- What is left at the front is not touched by trimming the end.
    obtain ⟨tail, htail⟩ := reverse_prefix.mpr (dropWhile_suffix isWhitespace)
    refine hend s.toList c ?_
    rw [← reverse_reverse (s.toList.dropWhile isWhitespace), ← htail, head?_append,
      Option.mem_def.mp hc]
    rfl
  · intro c hc
    rw [trim, String.toList_ofList, getLast?_reverse] at hc
    exact hend _ c hc

def toAsciiLowercase (s : String) : String := s.map Char.toLower

def decimal (n : UInt64) : String := Nat.repr n.toNat

/-- The order in which a host stores the bytes of a word. -/
inductive ByteOrder where
  | little
  | big
deriving DecidableEq, Repr

/-- A word of `w` bytes as the host stores it. -/
def ByteOrder.bytes (order : ByteOrder) (w n : Nat) : List UInt8 :=
  match order with
  | .little => littleEndian w n
  | .big => (littleEndian w n).reverse

/-- The byte that separates the parts of a signed text. -/
def bar : UInt8 := 0x7C

/-- The parts of a signed text, each followed by the separator. -/
def barred (parts : List (List UInt8)) : List UInt8 := parts.flatMap fun part => part ++ [bar]

def nodeRoleCodec : Codec NodeRole :=
  (word 4).refine (fun n => NodeRole.all[n]?) NodeRole.rank NodeRole.all_rank

/-- A request of the direct protocol. `sender` and `recipient` are the fields
    `from` and `to`. -/
structure DirectRequest where
  messageId : String := ""
  sender : String := ""
  recipient : String := ""
  kind : String := ""
  messageType : String := ""
  priority : UInt8 := 0
  batchId : String := ""
  batchIndex : UInt32 := 0
  batchSize : UInt32 := 0
  body : List UInt8 := []
  nonce : String := ""
  ts : UInt64 := 0
  encrypted : Bool := false
  senderPubkey : String := ""
  senderRole : Option NodeRole := none
  signature : String := ""
deriving DecidableEq, Repr

namespace DirectRequest

def codec : Codec DirectRequest :=
  (string.pair <| string.pair <| string.pair <| string.pair <| string.pair <| u8.pair <|
    string.pair <| u32.pair <| u32.pair <| bytes.pair <| string.pair <| u64.pair <|
    Bincode.bool.pair <| string.pair <| nodeRoleCodec.option.pair string).refine
    (fun (messageId, sender, recipient, kind, messageType, priority, batchId, batchIndex,
        batchSize, body, nonce, ts, encrypted, senderPubkey, senderRole, signature) =>
      some ⟨messageId, sender, recipient, kind, messageType, priority, batchId, batchIndex,
        batchSize, body, nonce, ts, encrypted, senderPubkey, senderRole, signature⟩)
    (fun r => (r.messageId, r.sender, r.recipient, r.kind, r.messageType, r.priority, r.batchId,
      r.batchIndex, r.batchSize, r.body, r.nonce, r.ts, r.encrypted, r.senderPubkey,
      r.senderRole, r.signature))
    (fun _ => rfl)

theorem codec_fits_body {body : List UInt8} (h : body.length < 256 ^ 8) :
    codec.Fits { body := body } := by
  have hempty : string.Fits "" := string_fits (by decide)
  exact ⟨hempty, hempty, hempty, hempty, hempty, u8_fits 0, hempty, u32_fits 0, u32_fits 0, h,
    hempty, u64_fits 0, bool_fits false, hempty, by simp [option], hempty⟩

theorem codec_takes_body : codec.Takes fun r => r.body.length := by
  have hrole : nodeRoleCodec.Takes fun _ => 0 :=
    (takes_word 4).refine fun _ _ _ => Nat.zero_le _
  have hfields := takes_string.pair <| takes_string.pair <|
    takes_string.pair <| takes_string.pair <| takes_string.pair <|
    takes_u8.pair <| takes_string.pair <| takes_u32.pair <|
    takes_u32.pair <| takes_bytes.pair <| takes_string.pair <|
    takes_u64.pair <| takes_bool.pair <| takes_string.pair <|
    hrole.option.pair takes_string
  refine hfields.refine ?_
  intro fields r hread
  obtain rfl := Option.some.inj hread
  simp only [Nat.zero_add, Nat.add_zero]
  exact Nat.le_refl _

/-- The known message types; anything else is data. -/
def normalizeMessageType (messageType : String) : String :=
  if toAsciiLowercase (trim messageType) = "control" then "control" else "data"

def normalized (self : DirectRequest) : DirectRequest :=
  { self with
    messageId := trim self.messageId
    sender := trim self.sender
    recipient := trim self.recipient
    kind := trim self.kind
    messageType := normalizeMessageType self.messageType
    signature := trim self.signature }

/-- An unsigned request of kind `message`. -/
def plainBytes (ts : UInt64) (shortNonce : String) (sender recipient : String)
    (body : List UInt8) : DirectRequest :=
  normalized
    { messageId := "dm-" ++ decimal ts ++ "-" ++ shortNonce
      sender := sender, recipient := recipient, kind := "message", messageType := "data"
      priority := 5, body := body, ts := ts }

/-- The same, with a text for its body. -/
def plain (ts : UInt64) (shortNonce sender recipient body : String) : DirectRequest :=
  plainBytes ts shortNonce sender recipient (utf8 body)

/-- The bytes a request's signature covers. Words stand in the host's order. -/
def signatureMaterial (order : ByteOrder) (self : DirectRequest) (clearBody : List UInt8) :
    List UInt8 :=
  barred
    [utf8 self.messageId, utf8 self.sender, utf8 self.recipient, utf8 self.kind,
     utf8 self.messageType, [self.priority], utf8 self.batchId,
     order.bytes 4 self.batchIndex.toNat, order.bytes 4 self.batchSize.toNat,
     order.bytes 8 self.ts.toNat, utf8 self.nonce, utf8 self.senderPubkey] ++ clearBody

end DirectRequest

/-- A response of the direct protocol. -/
structure DirectResponse where
  messageId : String := ""
  inReplyTo : String := ""
  sender : String := ""
  recipient : String := ""
  ok : Bool := false
  kind : String := ""
  messageType : String := ""
  priority : UInt8 := 0
  batchId : String := ""
  batchIndex : UInt32 := 0
  batchSize : UInt32 := 0
  body : List UInt8 := []
  nonce : String := ""
  ts : UInt64 := 0
  encrypted : Bool := false
  senderPubkey : String := ""
  senderRole : Option NodeRole := none
  signature : String := ""
deriving DecidableEq, Repr

/-- The readings a message identifier is made of. -/
structure Stamp where
  ts : UInt64
  shortNonce : String
deriving DecidableEq, Repr

namespace DirectResponse

def normalized (self : DirectResponse) : DirectResponse :=
  { self with
    messageId := trim self.messageId
    inReplyTo := trim self.inReplyTo
    sender := trim self.sender
    recipient := trim self.recipient
    kind := trim self.kind
    signature := trim self.signature }

/-- An unsigned response. -/
def plain (ok : Bool) (kind messageType : String) (priority : UInt8) (stamp : Stamp)
    (inReplyTo sender recipient : String) (body : List UInt8) : DirectResponse :=
  normalized
    { messageId := "dm-resp-" ++ decimal stamp.ts ++ "-" ++ stamp.shortNonce
      inReplyTo := inReplyTo, sender := sender, recipient := recipient, ok := ok, kind := kind
      messageType := messageType, priority := priority, body := body, ts := stamp.ts }

def plainOkBytes : Stamp → String → String → String → List UInt8 → DirectResponse :=
  plain true "response" "data" 5

def plainOk (stamp : Stamp) (inReplyTo sender recipient body : String) : DirectResponse :=
  plain true "response" "data" 5 stamp inReplyTo sender recipient (utf8 body)

def plainError (stamp : Stamp) (inReplyTo sender recipient body : String) : DirectResponse :=
  plain false "error" "control" 1 stamp inReplyTo sender recipient (utf8 body)

/-- The bytes a response's signature covers. Words stand in the host's order. -/
def signatureMaterial (order : ByteOrder) (self : DirectResponse) (clearBody : List UInt8) :
    List UInt8 :=
  barred
    [utf8 self.messageId, utf8 self.inReplyTo, utf8 self.sender, utf8 self.recipient,
     utf8 (if self.ok then "true" else "false"), utf8 self.kind, utf8 self.messageType,
     [self.priority], utf8 self.batchId, order.bytes 4 self.batchIndex.toNat,
     order.bytes 4 self.batchSize.toNat, order.bytes 8 self.ts.toNat, utf8 self.nonce,
     utf8 self.senderPubkey] ++ clearBody

end DirectResponse

/-- One layer of an onion packet. -/
structure OnionLayer where
  payload : List UInt8
  ephemeralPk : String
  nextHop : String
deriving DecidableEq, Repr

def OnionLayer.codec : Codec OnionLayer :=
  (bytes.pair <| string.pair string).refine
    (fun (payload, ephemeralPk, nextHop) => some ⟨payload, ephemeralPk, nextHop⟩)
    (fun l => (l.payload, l.ephemeralPk, l.nextHop)) (fun _ => rfl)

theorem OnionLayer.codec_rewrites : OnionLayer.codec.Rewrites := by
  have hfields := rewrites_bytes.pair <| rewrites_string.pair rewrites_string
  refine hfields.refine ?_
  intro fields l hread
  obtain rfl := Option.some.inj hread
  rfl

/-- A packet to be relayed, with the number of hops behind it. -/
structure OnionRelayRequest where
  layer : OnionLayer
  hop : UInt8
deriving DecidableEq, Repr

def OnionRelayRequest.codec : Codec OnionRelayRequest :=
  (OnionLayer.codec.pair u8).refine (fun (layer, hop) => some ⟨layer, hop⟩)
    (fun r => (r.layer, r.hop)) (fun _ => rfl)

theorem OnionRelayRequest.codec_takes_payload :
    OnionRelayRequest.codec.Takes fun r => r.layer.payload.length := by
  have hlayer : OnionLayer.codec.Takes fun l => l.payload.length := by
    have hfields := takes_bytes.pair <| takes_string.pair takes_string
    refine hfields.refine ?_
    intro fields l hread
    obtain rfl := Option.some.inj hread
    dsimp only
    omega
  refine (hlayer.pair takes_u8).refine ?_
  intro fields r hread
  obtain rfl := Option.some.inj hread
  dsimp only
  omega

structure OnionRelayResponse where
  success : Bool
  error : Option String
deriving DecidableEq, Repr

def OnionRelayResponse.codec : Codec OnionRelayResponse :=
  (Bincode.bool.pair string.option).refine (fun (success, error) => some ⟨success, error⟩)
    (fun r => (r.success, r.error)) (fun _ => rfl)

/-- What a request's body may wrap. -/
inductive EssRequest where
  | directRequest (direct : DirectRequest)
  | onionRelay (relay : OnionRelayRequest)
deriving DecidableEq, Repr

def EssRequest.codec : Codec EssRequest :=
  (DirectRequest.codec.either OnionRelayRequest.codec).refine
    (fun
      | .inl direct => some (.directRequest direct)
      | .inr relay => some (.onionRelay relay))
    (fun
      | .directRequest direct => .inl direct
      | .onionRelay relay => .inr relay)
    (fun r => by cases r <;> rfl)

theorem EssRequest.deserialize_wrapped {direct : DirectRequest}
    (h : DirectRequest.codec.Fits direct) :
    codec.deserialize (codec.serialize (.directRequest direct)) = some (.directRequest direct) :=
  codec.deserialize_serialize h

theorem EssRequest.deserialize_eq_some (h : codec.deserialize input = some req) :
    ∃ head tail rest, input = head ++ tail ∧ head.length = 4 ∧
      match req with
      | .directRequest direct =>
        ofLittleEndian head = 0 ∧ DirectRequest.codec.decode tail = some (direct, rest)
      | .onionRelay relay =>
        ofLittleEndian head = 1 ∧ OnionRelayRequest.codec.decode tail = some (relay, rest) := by
  obtain ⟨⟨req', rest⟩, hdecode, rfl⟩ := Option.map_eq_some_iff.mp h
  obtain ⟨v, hv, hread⟩ := refine_decode_eq_some hdecode
  obtain ⟨head, tail, rfl, hlen, hvariant⟩ := either_decode_eq_some hv
  refine ⟨head, tail, rest, rfl, hlen, ?_⟩
  cases v with
  | inl direct =>
    obtain rfl := Option.some.inj hread
    exact hvariant
  | inr relay =>
    obtain rfl := Option.some.inj hread
    exact hvariant

theorem EssRequest.length_lt_of_deserialize (h : codec.deserialize input = some req) :
    match req with
    | .directRequest direct => direct.body.length < input.length
    | .onionRelay relay => relay.layer.payload.length < input.length := by
  obtain ⟨head, tail, rest, rfl, hlen, hreq⟩ := EssRequest.deserialize_eq_some h
  cases req with
  | directRequest direct =>
    have htaken := DirectRequest.codec_takes_body tail direct rest hreq.2
    dsimp only at htaken ⊢
    rw [length_append]
    omega
  | onionRelay relay =>
    have htaken := OnionRelayRequest.codec_takes_payload tail relay rest hreq.2
    dsimp only at htaken ⊢
    rw [length_append]
    omega

/-- The body of the response to a relayed packet: the second variant of the
    enumeration of responses. -/
def onionRelayResponseBytes (resp : OnionRelayResponse) : List UInt8 :=
  (word 4).encode 1 ++ OnionRelayResponse.codec.encode resp

/-- A supernode's signed vote. -/
structure VoteMessage where
  proposalId : String
  voter : String
  approve : Bool
  nonce : String
  timestamp : UInt64
  signature : String
deriving DecidableEq, Repr

namespace VoteMessage

def codec : Codec VoteMessage :=
  (string.pair <| string.pair <| Bincode.bool.pair <| string.pair <| u64.pair string).refine
    (fun (proposalId, voter, approve, nonce, timestamp, signature) =>
      some ⟨proposalId, voter, approve, nonce, timestamp, signature⟩)
    (fun v => (v.proposalId, v.voter, v.approve, v.nonce, v.timestamp, v.signature))
    (fun _ => rfl)

def payload (self : VoteMessage) : String :=
  self.proposalId ++ ":" ++ self.voter ++ ":" ++ (if self.approve then "true" else "false") ++
    ":" ++ self.nonce ++ ":" ++ decimal self.timestamp

end VoteMessage

/-- What the target of an approved proposal is told. -/
structure ActivationCertificate where
  proposalId : String
  target : String
  approved : Bool
  signers : List String
deriving DecidableEq, Repr

def ActivationCertificate.codec : Codec ActivationCertificate :=
  (string.pair <| string.pair <| Bincode.bool.pair string.seq).refine
    (fun (proposalId, target, approved, signers) => some ⟨proposalId, target, approved, signers⟩)
    (fun c => (c.proposalId, c.target, c.approved, c.signers)) (fun _ => rfl)

def proposalTypeCodec : Codec ProposalType :=
  (string.either string).refine
    (fun
      | .inl peer => some (.activatePeer peer)
      | .inr peer => some (.banPeer peer))
    (fun
      | .activatePeer peer => .inl peer
      | .banPeer peer => .inr peer)
    (fun t => by cases t <;> rfl)

/-- The announcement of a proposal made elsewhere. -/
structure ProposalAnnouncement where
  proposalId : String
  proposer : String
  proposalType : ProposalType
  target : String
  supernodeCountAtCreation : UInt64
  timestamp : UInt64
deriving DecidableEq, Repr

def ProposalAnnouncement.codec : Codec ProposalAnnouncement :=
  (string.pair <| string.pair <| proposalTypeCodec.pair <| string.pair <| u64.pair u64).refine
    (fun (proposalId, proposer, proposalType, target, count, timestamp) =>
      some ⟨proposalId, proposer, proposalType, target, count, timestamp⟩)
    (fun a => (a.proposalId, a.proposer, a.proposalType, a.target, a.supernodeCountAtCreation,
      a.timestamp))
    (fun _ => rfl)

/-- The public half of a hybrid key. -/
structure HybridPublicKey where
  mlKemEk : String
  x25519Pk : String
  nodeId : String
deriving DecidableEq, Repr

def HybridPublicKey.codec : Codec HybridPublicKey :=
  (string.pair <| string.pair string).refine
    (fun (mlKemEk, x25519Pk, nodeId) => some ⟨mlKemEk, x25519Pk, nodeId⟩)
    (fun k => (k.mlKemEk, k.x25519Pk, k.nodeId)) (fun _ => rfl)

/-- A request for the configuration. -/
structure ConfigRequest where
  messageId : String
  sender : String
  recipient : String
  kind : String
  body : String
  nonce : String
  ts : UInt64
  encrypted : Bool
  senderPubkey : String
  signature : String
deriving DecidableEq, Repr

namespace ConfigRequest

def codec : Codec ConfigRequest :=
  (string.pair <| string.pair <| string.pair <| string.pair <| string.pair <| string.pair <|
    u64.pair <| Bincode.bool.pair <| string.pair string).refine
    (fun (messageId, sender, recipient, kind, body, nonce, ts, encrypted, senderPubkey,
        signature) =>
      some ⟨messageId, sender, recipient, kind, body, nonce, ts, encrypted, senderPubkey,
        signature⟩)
    (fun r => (r.messageId, r.sender, r.recipient, r.kind, r.body, r.nonce, r.ts, r.encrypted,
      r.senderPubkey, r.signature))
    (fun _ => rfl)

/-- An unsigned request; the body names a role. -/
def plain (ts : UInt64) (sender recipient body : String) : ConfigRequest where
  messageId := "cfg-" ++ decimal ts
  sender := sender
  recipient := recipient
  kind := "config_request"
  body := body
  nonce := ""
  ts := ts
  encrypted := false
  senderPubkey := ""
  signature := ""

def signingBytes (self : ConfigRequest) : List UInt8 :=
  utf8 (String.intercalate "|"
    [self.messageId, self.sender, self.recipient, self.kind, decimal self.ts, self.nonce])

end ConfigRequest

/-- The configuration a node hands out. -/
structure ConfigBundle where
  role : String
  policyVersion : UInt64
  allowedPeers : List String
  bootstrapAddrs : List String
  issuedAt : UInt64
deriving DecidableEq, Repr

/-- Trimmed, without empty and repeated entries, in order. -/
def normalizeStringList (items : List String) : List String :=
  ((items.map trim).filter (fun s => s ≠ "")).mergeSort (fun a b => decide (a ≤ b))
    |>.destutter (· ≠ ·)

def ConfigBundle.normalized (self : ConfigBundle) : ConfigBundle :=
  { self with
    role := toAsciiLowercase (trim self.role)
    allowedPeers := normalizeStringList self.allowedPeers
    bootstrapAddrs := normalizeStringList self.bootstrapAddrs }

/-- The response to a configuration request. -/
structure ConfigResponse where
  messageId : String
  inReplyTo : String
  sender : String
  recipient : String
  ok : Bool
  kind : String
  body : String
  nonce : String
  ts : UInt64
  encrypted : Bool
  senderPubkey : String
  signature : String
deriving DecidableEq, Repr

namespace ConfigResponse

def codec : Codec ConfigResponse :=
  (string.pair <| string.pair <| string.pair <| string.pair <| Bincode.bool.pair <|
    string.pair <| string.pair <| string.pair <| u64.pair <| Bincode.bool.pair <|
    string.pair string).refine
    (fun (messageId, inReplyTo, sender, recipient, ok, kind, body, nonce, ts, encrypted,
        senderPubkey, signature) =>
      some ⟨messageId, inReplyTo, sender, recipient, ok, kind, body, nonce, ts, encrypted,
        senderPubkey, signature⟩)
    (fun r => (r.messageId, r.inReplyTo, r.sender, r.recipient, r.ok, r.kind, r.body, r.nonce,
      r.ts, r.encrypted, r.senderPubkey, r.signature))
    (fun _ => rfl)

/-- An unsigned response. -/
def plain (ok : Bool) (ts : UInt64) (inReplyTo sender recipient body : String) :
    ConfigResponse where
  messageId := "cfg-resp-" ++ decimal ts
  inReplyTo := inReplyTo
  sender := sender
  recipient := recipient
  ok := ok
  kind := "config_response"
  body := body
  nonce := ""
  ts := ts
  encrypted := false
  senderPubkey := ""
  signature := ""

def plainOk : UInt64 → String → String → String → String → ConfigResponse := plain true

def plainError : UInt64 → String → String → String → String → ConfigResponse := plain false

def signingBytes (self : ConfigResponse) : List UInt8 :=
  utf8 (String.intercalate "|"
    [self.messageId, self.inReplyTo, self.sender, self.recipient,
     if self.ok then "true" else "false", decimal self.ts, self.nonce, self.body])

end ConfigResponse

end EssNode
