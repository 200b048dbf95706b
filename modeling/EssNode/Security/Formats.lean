import EssNode.Message.Material
import EssNode.Security.Replay

/-!
# One Signature, One Protocol

Whether the signature on a message of one type can be passed off as one on a message
of another type.

No signed text says which type of message it belongs to. What tells the types apart
is the number of parts, joined by bars, and, between gateway and configuration
responses, which have as many, that a status is a number and an outcome is not. A bar
inside a part counts like one between parts. So a message can be taken for one of a
type with more parts only if it holds a bar inside (`material_ne_of_type_ne`).

Gateway and web requests are not told apart at all: they have the same parts, and
each gateway request has a web request with its bytes (`GatewayRequest.asWeb`).
-/

namespace EssNode

open Bincode Separated Text

/-- The types of signed messages. -/
inductive MessageType where
  | directRequest
  | directResponse
  | configRequest
  | configResponse
  | gatewayRequest
  | gatewayResponse
  | webRequest
  | webResponse
deriving DecidableEq, Repr

namespace MessageType

/-- How many parts are signed. -/
def parts : MessageType → Nat
  | directRequest => 13
  | directResponse => 15
  | configRequest => 6
  | configResponse => 8
  | gatewayRequest => 7
  | gatewayResponse => 8
  | webRequest => 7
  | webResponse => 9

/-- A gateway request and a web request, in either order. -/
def Alike (t t' : MessageType) : Prop :=
  (t = gatewayRequest ∧ t' = webRequest) ∨ (t = webRequest ∧ t' = gatewayRequest)

instance (t t' : MessageType) : Decidable (Alike t t') := inferInstanceAs (Decidable (_ ∨ _))

/-- Otherwise only the responses of gateways and to configuration requests have as many
    parts as each other. -/
theorem eq_response_of_parts_eq (t t' : MessageType) : t ≠ t' → ¬ Alike t t' →
    t.parts = t'.parts →
      (t = gatewayResponse ∧ t' = configResponse) ∨
        (t = configResponse ∧ t' = gatewayResponse) := by
  cases t <;> cases t' <;> decide

end MessageType

namespace SignedMessage

/-- The type of a message. It does not matter what a direct response is checked for. -/
def type : SignedMessage → MessageType
  | request _ => .directRequest
  | response _ => .directResponse
  | responseBytes _ => .directResponse
  | configRequest _ => .configRequest
  | configResponse _ => .configResponse
  | gatewayRequest _ => .gatewayRequest
  | gatewayResponse _ => .gatewayResponse
  | webRequest _ => .webRequest
  | webResponse _ => .webResponse

end SignedMessage

/-- The parts of a direct request. -/
def DirectRequest.signedParts (order : ByteOrder) (self : DirectRequest) : List (List UInt8) :=
  [utf8 self.messageId, utf8 self.sender, utf8 self.recipient, utf8 self.kind,
   utf8 self.messageType, [self.priority], utf8 self.batchId,
   order.bytes 4 self.batchIndex.toNat, order.bytes 4 self.batchSize.toNat,
   order.bytes 8 self.ts.toNat, utf8 self.nonce, utf8 self.senderPubkey, self.body]

/-- The parts of a direct response. -/
def DirectResponse.signedParts (order : ByteOrder) (self : DirectResponse) : List (List UInt8) :=
  [utf8 self.messageId, utf8 self.inReplyTo, utf8 self.sender, utf8 self.recipient,
   utf8 (if self.ok then "true" else "false"), utf8 self.kind, utf8 self.messageType,
   [self.priority], utf8 self.batchId, order.bytes 4 self.batchIndex.toNat,
   order.bytes 4 self.batchSize.toNat, order.bytes 8 self.ts.toNat, utf8 self.nonce,
   utf8 self.senderPubkey, self.body]

namespace SignedMessage

/-- What is signed, part by part. -/
def signedParts (order : ByteOrder) : SignedMessage → List (List UInt8)
  | request req => req.signedParts order
  | response resp => resp.signedParts order
  | responseBytes resp => resp.signedParts order
  | configRequest req =>
    [req.messageId, req.sender, req.recipient, req.kind, decimal req.ts, req.nonce].map utf8
  | configResponse resp =>
    [resp.messageId, resp.inReplyTo, resp.sender, resp.recipient,
     if resp.ok then "true" else "false", decimal resp.ts, resp.nonce, resp.body].map utf8
  | gatewayRequest req =>
    [req.messageId, req.sender, req.recipient, req.method, req.url, decimal req.ts,
     req.body].map utf8
  | gatewayResponse resp =>
    [resp.messageId, resp.inReplyTo, resp.sender, resp.recipient, Nat.repr resp.status.toNat,
     decimal resp.ts, resp.nonce, resp.body].map utf8
  | webRequest req =>
    [req.messageId, req.sender, req.recipient, req.method, req.url, decimal req.ts,
     req.body].map utf8
  | webResponse resp =>
    [resp.messageId, resp.inReplyTo, resp.sender, resp.recipient, Nat.repr resp.status.toNat,
     resp.contentType, decimal resp.ts, resp.nonce, resp.body].map utf8

variable (order : ByteOrder) (m : SignedMessage)

theorem length_signedParts : (m.signedParts order).length = m.type.parts := by
  cases m <;> rfl

theorem utf8_intercalate_bar (texts : List String) :
    utf8 (String.intercalate "|" texts) = [bar].intercalate (texts.map utf8) := by
  rw [utf8_intercalate, show utf8 "|" = [bar] by decide +kernel]

theorem barred_append (parts : List (List UInt8)) (body : List UInt8) :
    barred parts ++ body = [bar].intercalate (parts ++ [body]) :=
  terminated_append_last parts body

theorem material_eq : m.material order = [bar].intercalate (m.signedParts order) := by
  cases m with
  | request req => exact barred_append _ req.body
  | response resp => exact barred_append _ resp.body
  | responseBytes resp => exact barred_append _ resp.body
  | configRequest req => exact utf8_intercalate_bar _
  | configResponse resp => exact utf8_intercalate_bar _
  | gatewayRequest req => exact utf8_intercalate_bar _
  | gatewayResponse resp => exact utf8_intercalate_bar _
  | webRequest req => exact utf8_intercalate_bar _
  | webResponse resp => exact utf8_intercalate_bar _

theorem repr_ne_bool (n : Nat) (b : Bool) : Nat.repr n ≠ if b then "true" else "false" := by
  intro h
  -- A number is written in digits, and both words have letters.
  have hdigits : ∀ c ∈ (if b then "true" else "false").toList, c.isDigit = true := by
    intro c hc
    rw [← h, Nat.toList_repr] at hc
    exact Nat.isDigit_of_mem_toDigits (by decide) (by decide) hc
  cases b with
  | true => exact absurd (hdigits 't' (by decide)) (by decide)
  | false => exact absurd (hdigits 'f' (by decide)) (by decide)

theorem signedParts_responses_ne (order' : ByteOrder) (resp : GatewayResponse)
    (resp' : ConfigResponse) :
    (gatewayResponse resp).signedParts order ≠ (configResponse resp').signedParts order' := by
  intro h
  simp only [signedParts, List.map_cons, List.cons.injEq] at h
  exact repr_ne_bool _ _ (utf8_injective h.2.2.2.2.1)

/-- A message without bars inside its parts has other bytes than every message of
    another type with at least as many parts, whichever order their hosts store words
    in; gateway and web requests apart. -/
theorem material_ne_of_type_ne {a b : SignedMessage} {order order' : ByteOrder}
    (htype : a.type ≠ b.type) (halike : ¬ a.type.Alike b.type)
    (hparts : a.type.parts ≤ b.type.parts) (hbars : ∀ part ∈ a.signedParts order, bar ∉ part) :
    a.material order ≠ b.material order' := by
  rw [material_eq, material_eq]
  intro h
  -- Without bars inside, the parts of `a` can be read off the joined bytes.
  have hlen : (a.signedParts order).length ≤ (b.signedParts order').length := by
    rwa [length_signedParts, length_signedParts]
  have hne : a.signedParts order ≠ [] := by
    cases a <;> simp [signedParts, DirectRequest.signedParts, DirectResponse.signedParts]
  have hsame := intercalate_eq hbars hne hlen h
  have hcount := congrArg List.length hsame
  rw [length_signedParts, length_signedParts] at hcount
  -- As many parts of another type: the two kinds of responses that differ in the fifth.
  rcases MessageType.eq_response_of_parts_eq _ _ htype halike hcount with ⟨ha, hb⟩ | ⟨ha, hb⟩
  · cases a <;> cases ha
    cases b <;> cases hb
    exact signedParts_responses_ne _ _ _ _ hsame
  · cases a <;> cases ha
    cases b <;> cases hb
    exact signedParts_responses_ne _ _ _ _ hsame.symm

end SignedMessage

/-- The web request with the fields of a gateway request. -/
def GatewayRequest.asWeb (req : GatewayRequest) : WebRequest :=
  { messageId := req.messageId, sender := req.sender, recipient := req.recipient
    kind := req.kind, method := req.method, url := req.url, headers := req.headers
    body := req.body, route := req.route, nonce := req.nonce, ts := req.ts
    encrypted := req.encrypted, senderPubkey := req.senderPubkey, signature := req.signature }

theorem GatewayRequest.asWeb_material (req : GatewayRequest) (order order' : ByteOrder) :
    (SignedMessage.webRequest req.asWeb).material order' =
      (SignedMessage.gatewayRequest req).material order := rfl

theorem tagCrypto_one_message (key : String) (pk : PublicKey) (m m' sig : List UInt8)
    (h : (tagCrypto key).verify pk m sig = true) (h' : (tagCrypto key).verify pk m' sig = true) :
    m = m' := by
  have hm : sig = pk.bytes ++ m := by simpa [tagCrypto] using h
  have hm' : sig = pk.bytes ++ m' := by simpa [tagCrypto] using h'
  exact List.append_cancel_left (hm.symm.trans hm')

/-- A request for the configuration. -/
def configAsk (ts : UInt64) (nonce : String) : ConfigRequest :=
  { messageId := "m", sender := "peer", recipient := "node", kind := "GET", body := "client"
    nonce := nonce, ts := ts, encrypted := false, senderPubkey := "", signature := "" }

end EssNode
