import EssNode.Message.Gateway
import EssNode.Security

/-!
# Signed Messages

The remaining builders and checks of the security layer: for direct requests and
responses, configuration, gateway and web messages.

A builder takes the readings and the random nonce it would draw. A check begins
with the freshness of the message. Gateway and web requests are not compared with
the peers they name; every other message is.

`SignedMessage` collects the messages and `verifyMessage` the checks, so that
what all of them share is proved once.
-/

namespace EssNode

open Bincode

namespace SecurityRuntime

section Builders

variable (crypto : Crypto)

/-- Sign an unsigned request under a nonce and a second reading. -/
def signRequest (nonce : String) (ts : UInt64) (req : DirectRequest) :
    Except SecurityError DirectRequest := do
  let req := { req with nonce := nonce, ts := ts }
  let signature ← signData crypto (req.signatureMaterial crypto.byteOrder req.body)
  pure { req with signature := signature }

def buildRequest (stamp : Stamp) (nonce : String) (ts : UInt64) (sender recipient body : String) :
    Except SecurityError DirectRequest :=
  signRequest crypto nonce ts (.plain stamp.ts stamp.shortNonce sender recipient body)

def buildRequestBytes (stamp : Stamp) (nonce : String) (ts : UInt64) (sender recipient : String)
    (body : List UInt8) : Except SecurityError DirectRequest :=
  signRequest crypto nonce ts (.plainBytes stamp.ts stamp.shortNonce sender recipient body)

/-- A signed request for the configuration of a role. -/
def buildConfigRequest (ts₁ : UInt64) (nonce : String) (ts₂ : UInt64)
    (sender recipient role : String) : Except SecurityError ConfigRequest := do
  let req := ConfigRequest.plain ts₁ sender recipient role
  let req := { req with nonce := nonce, ts := ts₂ }
  let signature ← signData crypto req.signingBytes
  pure { req with signature := signature }

def buildConfigResponseError (ts₁ : UInt64) (nonce : String) (ts₂ : UInt64)
    (sender recipient inReplyTo error : String) : Except SecurityError ConfigResponse := do
  let resp := ConfigResponse.plainError ts₁ inReplyTo sender recipient error
  let resp := { resp with nonce := nonce, ts := ts₂ }
  let signature ← signData crypto resp.signingBytes
  pure { resp with signature := signature }

/-- Sign an unsigned gateway response; the body is given once more. -/
def signGatewayResponse (nonce : String) (ts : UInt64) (body : String) (resp : GatewayResponse) :
    Except SecurityError GatewayResponse := do
  let resp := { resp with nonce := nonce, ts := ts }
  let signature ← signData crypto (resp.signingBytes body)
  pure { resp with signature := signature }

def buildGatewayResponseOk (stamp : Stamp) (nonce : String) (ts : UInt64)
    (sender recipient inReplyTo : String) (status : UInt16) (headers : Headers) (body : String) :
    Except SecurityError GatewayResponse :=
  signGatewayResponse crypto nonce ts body
    (.plainOk stamp inReplyTo sender recipient status headers body)

/-- The status is not looked at. -/
def buildGatewayResponseError (stamp : Stamp) (nonce : String) (ts : UInt64)
    (sender recipient inReplyTo : String) (_status : UInt16) (error : String) :
    Except SecurityError GatewayResponse :=
  signGatewayResponse crypto nonce ts error (.plainError stamp inReplyTo sender recipient error)

/-- Sign an unsigned web response; the body is given once more. -/
def signWebResponse (nonce : String) (ts : UInt64) (body : String) (resp : WebResponse) :
    Except SecurityError WebResponse := do
  let resp := { resp with nonce := nonce, ts := ts }
  let signature ← signData crypto (resp.signingBytes body)
  pure { resp with signature := signature }

def buildWebResponseOk (stamp : Stamp) (nonce : String) (ts : UInt64)
    (sender recipient inReplyTo : String) (status : UInt16) (contentType : String)
    (headers : Headers) (body : String) : Except SecurityError WebResponse :=
  signWebResponse crypto nonce ts body
    (.plainOk stamp inReplyTo sender recipient status contentType headers body)

def buildWebResponseError (stamp : Stamp) (nonce : String) (ts : UInt64)
    (sender recipient inReplyTo : String) (status : UInt16) (error : String) :
    Except SecurityError WebResponse :=
  signWebResponse crypto nonce ts error
    (.plainError stamp inReplyTo sender recipient status error)

end Builders

section Checks

variable (crypto : Crypto) (s : SecurityRuntime) (now₁ now₂ : UInt64) (localPeer remote : String)

/-- Check a direct response and return its body as it is read. -/
def verifyResponseWith {α : Type} (read : List UInt8 → α) (resp : DirectResponse) :
    SecurityRuntime × Except SecurityError α :=
  s.verifyWith now₁ now₂ remote resp.ts resp.nonce fun s => do
    s.checkSignature crypto remote resp.signature
      (checkIdentity localPeer remote resp.sender resp.recipient)
      (resp.signatureMaterial crypto.byteOrder resp.body)
    pure (read resp.body)

def verifyResponse : DirectResponse → SecurityRuntime × Except SecurityError String :=
  s.verifyResponseWith crypto now₁ now₂ localPeer remote Text.utf8Lossy

def verifyResponseBytes : DirectResponse → SecurityRuntime × Except SecurityError (List UInt8) :=
  s.verifyResponseWith crypto now₁ now₂ localPeer remote id

/-- Check a configuration response and read its bundle; an error that is signed
    is passed on. -/
def verifyConfigResponse (fromJson : String → Except String ConfigBundle)
    (resp : ConfigResponse) : SecurityRuntime × Except SecurityError ConfigBundle :=
  s.verifyWith now₁ now₂ remote resp.ts resp.nonce fun s => do
    checkIdentity localPeer remote resp.sender resp.recipient
    s.checkSignature crypto remote resp.signature (.ok ()) resp.signingBytes
    if resp.ok then (fromJson resp.body).mapError .decodeError
    else .error (.cryptoError resp.body)

/-- The peers a gateway request names are not compared. -/
def verifyGatewayRequest (_localPeer : String) (req : GatewayRequest) :
    SecurityRuntime × Except SecurityError String :=
  s.verifyWith now₁ now₂ remote req.ts req.nonce fun s => do
    s.checkSignature crypto remote req.signature (.ok ()) (req.signingBytes req.body)
    pure req.body

def verifyGatewayResponse (resp : GatewayResponse) :
    SecurityRuntime × Except SecurityError (UInt16 × String) :=
  s.verifyWith now₁ now₂ remote resp.ts resp.nonce fun s => do
    checkIdentity localPeer remote resp.sender resp.recipient
    s.checkSignature crypto remote resp.signature (.ok ()) (resp.signingBytes resp.body)
    pure (resp.status, resp.body)

/-- The peers a web request names are not compared. -/
def verifyWebRequest (_localPeer : String) (req : WebRequest) :
    SecurityRuntime × Except SecurityError String :=
  s.verifyWith now₁ now₂ remote req.ts req.nonce fun s => do
    s.checkSignature crypto remote req.signature (.ok ()) (req.signingBytes req.body)
    pure req.body

def verifyWebResponse (resp : WebResponse) :
    SecurityRuntime × Except SecurityError (UInt16 × String × String) :=
  s.verifyWith now₁ now₂ remote resp.ts resp.nonce fun s => do
    checkIdentity localPeer remote resp.sender resp.recipient
    s.checkSignature crypto remote resp.signature (.ok ()) (resp.signingBytes resp.body)
    pure (resp.status, resp.contentType, resp.body)

end Checks

end SecurityRuntime

/-- A message of the security layer. A direct response is checked for its body's
    bytes or for its text. -/
inductive SignedMessage where
  | request (req : DirectRequest)
  | response (resp : DirectResponse)
  | responseBytes (resp : DirectResponse)
  | configRequest (req : ConfigRequest)
  | configResponse (resp : ConfigResponse)
  | gatewayRequest (req : GatewayRequest)
  | gatewayResponse (resp : GatewayResponse)
  | webRequest (req : WebRequest)
  | webResponse (resp : WebResponse)
deriving DecidableEq

/-- What a check returns. -/
inductive Received where
  | checked
  | text (body : String)
  | bytes (body : List UInt8)
  | bundle (bundle : ConfigBundle)
  | gateway (status : UInt16) (body : String)
  | web (status : UInt16) (contentType body : String)
deriving DecidableEq

namespace SignedMessage

/-- The time a message claims. -/
def ts : SignedMessage → UInt64
  | request req => req.ts
  | response resp => resp.ts
  | responseBytes resp => resp.ts
  | configRequest req => req.ts
  | configResponse resp => resp.ts
  | gatewayRequest req => req.ts
  | gatewayResponse resp => resp.ts
  | webRequest req => req.ts
  | webResponse resp => resp.ts

def nonce : SignedMessage → String
  | request req => req.nonce
  | response resp => resp.nonce
  | responseBytes resp => resp.nonce
  | configRequest req => req.nonce
  | configResponse resp => resp.nonce
  | gatewayRequest req => req.nonce
  | gatewayResponse resp => resp.nonce
  | webRequest req => req.nonce
  | webResponse resp => resp.nonce

def signature : SignedMessage → String
  | request req => req.signature
  | response resp => resp.signature
  | responseBytes resp => resp.signature
  | configRequest req => req.signature
  | configResponse resp => resp.signature
  | gatewayRequest req => req.signature
  | gatewayResponse resp => resp.signature
  | webRequest req => req.signature
  | webResponse resp => resp.signature

/-- The bytes the signature covers. -/
def material (order : ByteOrder) : SignedMessage → List UInt8
  | request req => req.signatureMaterial order req.body
  | response resp => resp.signatureMaterial order resp.body
  | responseBytes resp => resp.signatureMaterial order resp.body
  | configRequest req => req.signingBytes
  | configResponse resp => resp.signingBytes
  | gatewayRequest req => req.signingBytes req.body
  | gatewayResponse resp => resp.signingBytes resp.body
  | webRequest req => req.signingBytes req.body
  | webResponse resp => resp.signingBytes resp.body

/-- The sender and the addressee that are compared, if they are. -/
def names : SignedMessage → Option (String × String)
  | request req => some (req.sender, req.recipient)
  | response resp => some (resp.sender, resp.recipient)
  | responseBytes resp => some (resp.sender, resp.recipient)
  | configRequest req => some (req.sender, req.recipient)
  | configResponse resp => some (resp.sender, resp.recipient)
  | gatewayResponse resp => some (resp.sender, resp.recipient)
  | webResponse resp => some (resp.sender, resp.recipient)
  | gatewayRequest _ | webRequest _ => none

/-- What a message whose signature and names pass is read as. -/
def contents (fromJson : String → Except String ConfigBundle) :
    SignedMessage → Except SecurityError Received
  | request req => .ok (.text (Text.utf8Lossy req.body))
  | response resp => .ok (.text (Text.utf8Lossy resp.body))
  | responseBytes resp => .ok (.bytes resp.body)
  | configRequest _ => .ok .checked
  | configResponse resp =>
    (if resp.ok then (fromJson resp.body).mapError .decodeError
      else .error (.cryptoError resp.body)).map .bundle
  | gatewayRequest req => .ok (.text req.body)
  | gatewayResponse resp => .ok (.gateway resp.status resp.body)
  | webRequest req => .ok (.text req.body)
  | webResponse resp => .ok (.web resp.status resp.contentType resp.body)

end SignedMessage

namespace SecurityRuntime

variable (crypto : Crypto) (fromJson : String → Except String ConfigBundle) (s : SecurityRuntime)
  (now₁ now₂ : UInt64) (localPeer remote : String)

/-- The check of a message. -/
def verifyMessage : SignedMessage → SecurityRuntime × Except SecurityError Received
  | .request req => (s.verifyRequest crypto now₁ now₂ localPeer remote req).map id (·.map .text)
  | .response resp => (s.verifyResponse crypto now₁ now₂ localPeer remote resp).map id (·.map .text)
  | .responseBytes resp =>
    (s.verifyResponseBytes crypto now₁ now₂ localPeer remote resp).map id (·.map .bytes)
  | .configRequest req =>
    (s.verifyConfigRequest crypto now₁ now₂ localPeer remote req).map id
      (·.map fun _ => .checked)
  | .configResponse resp =>
    (s.verifyConfigResponse crypto now₁ now₂ localPeer remote fromJson resp).map id
      (·.map .bundle)
  | .gatewayRequest req =>
    (s.verifyGatewayRequest crypto now₁ now₂ remote localPeer req).map id (·.map .text)
  | .gatewayResponse resp =>
    (s.verifyGatewayResponse crypto now₁ now₂ localPeer remote resp).map id
      (·.map fun r => .gateway r.1 r.2)
  | .webRequest req =>
    (s.verifyWebRequest crypto now₁ now₂ remote localPeer req).map id (·.map .text)
  | .webResponse resp =>
    (s.verifyWebResponse crypto now₁ now₂ localPeer remote resp).map id
      (·.map fun r => .web r.1 r.2.1 r.2.2)

variable {crypto fromJson s now₁ now₂ localPeer remote}

theorem verifyMessage_fst (m : SignedMessage) :
    (s.verifyMessage crypto fromJson now₁ now₂ localPeer remote m).1
      = (s.checkCommon now₁ now₂ remote m.ts m.nonce).1 := by
  cases m <;> rfl

/-- A message passes its check: it is fresh, the names that are compared match,
    and the signature verifies under the key of the peer. -/
structure Passes (crypto : Crypto) (s : SecurityRuntime) (now₁ now₂ : UInt64)
    (localPeer remote : String) (m : SignedMessage) : Prop where
  fresh : (s.checkCommon now₁ now₂ remote m.ts m.nonce).2 = .ok ()
  names : ∀ names, m.names = some names → names = (remote, localPeer)
  signed : ∃ pk sig, s.peerPublicKeys[remote]? = some pk ∧
    crypto.decodeBase64 m.signature = .ok sig ∧
    crypto.verify pk (m.material crypto.byteOrder) sig = true

section Shapes

variable {α : Type} {m : SignedMessage} {value : Except SecurityError α} {a : α}

theorem verifyWith_unnamed_iff (hnames : m.names = none) :
    (s.verifyWith now₁ now₂ remote m.ts m.nonce fun s => do
      s.checkSignature crypto remote m.signature (.ok ()) (m.material crypto.byteOrder)
      value).2 = .ok a ↔ s.Passes crypto now₁ now₂ localPeer remote m ∧ value = .ok a := by
  have hkeys := (checkCommon_sameKeys s now₁ now₂ remote m.ts m.nonce).peerPublicKeys
  simp only [verifyWith_eq_ok_iff, check_bind_eq_ok_iff, checkSignature_eq_ok_iff, hkeys]
  constructor
  · rintro ⟨hfresh, ⟨-, hsigned⟩, hvalue⟩
    refine ⟨⟨hfresh, fun names h => ?_, hsigned⟩, hvalue⟩
    rw [hnames] at h
    cases h
  · rintro ⟨⟨hfresh, -, hsigned⟩, hvalue⟩
    exact ⟨hfresh, ⟨trivial, hsigned⟩, hvalue⟩

variable {sender recipient : String}

theorem verifyWith_signed_iff (hnames : m.names = some (sender, recipient)) :
    (s.verifyWith now₁ now₂ remote m.ts m.nonce fun s => do
      s.checkSignature crypto remote m.signature
        (checkIdentity localPeer remote sender recipient) (m.material crypto.byteOrder)
      value).2 = .ok a ↔ s.Passes crypto now₁ now₂ localPeer remote m ∧ value = .ok a := by
  have hkeys := (checkCommon_sameKeys s now₁ now₂ remote m.ts m.nonce).peerPublicKeys
  simp only [verifyWith_eq_ok_iff, check_bind_eq_ok_iff, checkSignature_eq_ok_iff,
    checkIdentity_eq_ok_iff, hkeys]
  constructor
  · rintro ⟨hfresh, ⟨⟨hrecipient, hsender⟩, hsigned⟩, hvalue⟩
    refine ⟨⟨hfresh, fun names h => ?_, hsigned⟩, hvalue⟩
    rw [hnames, Option.some.injEq] at h
    rw [← h, hsender, hrecipient]
  · rintro ⟨⟨hfresh, hmatch, hsigned⟩, hvalue⟩
    have heq := hmatch _ hnames
    rw [Prod.mk.injEq] at heq
    exact ⟨hfresh, ⟨⟨heq.2, heq.1⟩, hsigned⟩, hvalue⟩

theorem verifyWith_named_iff (hnames : m.names = some (sender, recipient)) :
    (s.verifyWith now₁ now₂ remote m.ts m.nonce fun s => do
      checkIdentity localPeer remote sender recipient
      s.checkSignature crypto remote m.signature (.ok ()) (m.material crypto.byteOrder)
      value).2 = .ok a ↔ s.Passes crypto now₁ now₂ localPeer remote m ∧ value = .ok a := by
  rw [← verifyWith_signed_iff hnames]
  cases hidentity : checkIdentity localPeer remote sender recipient with
  | error e =>
    simp only [verifyWith_eq_ok_iff, check_bind_eq_ok_iff, checkSignature_eq_ok_iff,
      reduceCtorEq, false_and, and_false]
  | ok u => rfl

end Shapes

theorem verifyMessage_eq_ok_iff (m : SignedMessage) (r : Received) :
    (s.verifyMessage crypto fromJson now₁ now₂ localPeer remote m).2 = .ok r ↔
      s.Passes crypto now₁ now₂ localPeer remote m ∧ m.contents fromJson = .ok r := by
  -- The contents are the value of the check, read as the kind of message says.
  have hread {α : Type} {x value : Except SecurityError α} {read : α → Received}
      (h : ∀ a, x = .ok a ↔ s.Passes crypto now₁ now₂ localPeer remote m ∧ value = .ok a) :
      x.map read = .ok r ↔
        s.Passes crypto now₁ now₂ localPeer remote m ∧ value.map read = .ok r := by
    simp only [map_eq_ok_iff, h, and_assoc, exists_and_left]
  cases m with
  | request req => exact hread fun _ => verifyWith_signed_iff (m := .request req) rfl
  | response resp => exact hread fun _ => verifyWith_signed_iff (m := .response resp) rfl
  | responseBytes resp => exact hread fun _ => verifyWith_signed_iff (m := .responseBytes resp) rfl
  | configRequest req => exact hread fun _ => verifyWith_named_iff (m := .configRequest req) rfl
  | configResponse resp => exact hread fun _ => verifyWith_named_iff (m := .configResponse resp) rfl
  | gatewayRequest req => exact hread fun _ => verifyWith_unnamed_iff (m := .gatewayRequest req) rfl
  | gatewayResponse resp =>
    exact hread fun _ => verifyWith_named_iff (m := .gatewayResponse resp) rfl
  | webRequest req => exact hread fun _ => verifyWith_unnamed_iff (m := .webRequest req) rfl
  | webResponse resp => exact hread fun _ => verifyWith_named_iff (m := .webResponse resp) rfl

end SecurityRuntime

end EssNode
