import EssNode.Security.Replay

/-!
# What Is Built Is Accepted

Builders and checks are separate code for each kind of message. A message that a
builder makes should pass its check at the addressee and be read there as what
was sent.

The first half holds for every kind. Each builder signs the bytes its check
verifies: the signature is not among them, names of peers are not changed by
trimming, and the body that is signed is the body that is sent
(`build_eq`, `unsigned_spec`).

The second half fails for one builder. The status of an error response of a
gateway is not put into the message, which says 502 whatever went wrong; every
other builder sends the status it is given (`completes_iff`).
-/

namespace EssNode

open Bincode SecurityRuntime WebResponse

/-- The addressee knows the sender's key, signatures of that key verify, base64 is
    read back, and both hosts store words alike. -/
structure Trusts (signer crypto : Crypto) (s : SecurityRuntime) (sender : String) : Prop where
  key : ∃ pk, s.peerPublicKeys[sender]? = some pk ∧
    ∀ data, ∃ sig, signer.sign data = .ok sig ∧ crypto.verify pk data sig = true
  base64 : ∀ bytes, crypto.decodeBase64 (signer.encodeBase64 bytes) = .ok bytes
  order : signer.byteOrder = crypto.byteOrder

theorem Trusts.signData {signer crypto : Crypto} {s : SecurityRuntime} {sender : String}
    (h : Trusts signer crypto s sender) (data : List UInt8) :
    ∃ text, SecurityRuntime.signData signer data = .ok text ∧
      ∃ pk sig, s.peerPublicKeys[sender]? = some pk ∧ crypto.decodeBase64 text = .ok sig ∧
        crypto.verify pk data sig = true := by
  rcases h.key with ⟨pk, hpk, hsigns⟩
  rcases hsigns data with ⟨sig, hsign, hverify⟩
  refine ⟨signer.encodeBase64 sig, ?_, pk, sig, hpk, h.base64 sig, hverify⟩
  rw [SecurityRuntime.signData, hsign]

namespace SignedMessage

/-- A message with its signature put in. -/
def withSignature (signature : String) : SignedMessage → SignedMessage
  | request req => .request { req with signature := signature }
  | response resp => .response { resp with signature := signature }
  | responseBytes resp => .responseBytes { resp with signature := signature }
  | configRequest req => .configRequest { req with signature := signature }
  | configResponse resp => .configResponse { resp with signature := signature }
  | gatewayRequest req => .gatewayRequest { req with signature := signature }
  | gatewayResponse resp => .gatewayResponse { resp with signature := signature }
  | webRequest req => .webRequest { req with signature := signature }
  | webResponse resp => .webResponse { resp with signature := signature }

variable (m : SignedMessage) (signature : String)

theorem withSignature_frame (order : ByteOrder)
    (fromJson : String → Except String ConfigBundle) :
    (m.withSignature signature).ts = m.ts ∧ (m.withSignature signature).nonce = m.nonce ∧
      (m.withSignature signature).names = m.names ∧
      (m.withSignature signature).material order = m.material order ∧
      (m.withSignature signature).contents fromJson = m.contents fromJson := by
  cases m <;> exact ⟨rfl, rfl, rfl, rfl, rfl⟩

theorem signature_withSignature : (m.withSignature signature).signature = signature := by
  cases m <;> rfl

end SignedMessage

/-- What a message is built from, the peers apart. A direct response is asked for
    its bytes or for its text. -/
inductive Draft where
  | request (body : String)
  | requestBytes (body : List UInt8)
  | responseOk (asBytes : Bool) (inReplyTo body : String)
  | responseError (asBytes : Bool) (inReplyTo body : String)
  | configRequest (role : String)
  | configResponseOk (inReplyTo : String) (bundle : ConfigBundle)
  | gatewayResponseOk (inReplyTo : String) (status : UInt16) (headers : Headers) (body : String)
  | gatewayResponseError (inReplyTo : String) (status : UInt16) (error : String)
  | webResponseOk (inReplyTo : String) (status : UInt16) (contentType : String)
      (headers : Headers) (body : String)
  | webResponseError (inReplyTo : String) (status : UInt16) (error : String)

namespace Draft

/-- A direct response, to be checked for its bytes or for its text. -/
def ofResponse (asBytes : Bool) (resp : DirectResponse) : SignedMessage :=
  if asBytes then .responseBytes resp else .response resp

section Build

variable (signer : Crypto) (toJson : ConfigBundle → Except String String) (stamp : Stamp)
  (nonce : String) (ts : UInt64) (sender recipient : String)

/-- The message a builder makes. -/
def build : Draft → Except SecurityError SignedMessage
  | request body =>
    (buildRequest signer stamp nonce ts sender recipient body).map .request
  | requestBytes body =>
    (buildRequestBytes signer stamp nonce ts sender recipient body).map .request
  | responseOk asBytes inReplyTo body =>
    (buildResponseOk signer stamp nonce ts sender recipient inReplyTo body).map
      (ofResponse asBytes)
  | responseError asBytes inReplyTo body =>
    (buildResponseError signer stamp nonce ts sender recipient inReplyTo
      body).map (ofResponse asBytes)
  | configRequest role =>
    (buildConfigRequest signer stamp.ts nonce ts sender recipient role).map
      .configRequest
  | configResponseOk inReplyTo bundle =>
    (buildConfigResponseOk signer toJson stamp.ts nonce ts sender recipient
      inReplyTo bundle).map .configResponse
  | gatewayResponseOk inReplyTo status headers body =>
    (buildGatewayResponseOk signer stamp nonce ts sender recipient inReplyTo
      status headers body).map .gatewayResponse
  | gatewayResponseError inReplyTo status error =>
    (buildGatewayResponseError signer stamp nonce ts sender recipient inReplyTo
      status error).map .gatewayResponse
  | webResponseOk inReplyTo status contentType headers body =>
    (buildWebResponseOk signer stamp nonce ts sender recipient inReplyTo status
      contentType headers body).map .webResponse
  | webResponseError inReplyTo status error =>
    (buildWebResponseError signer stamp nonce ts sender recipient inReplyTo
      status error).map .webResponse

/-- The same message before it is signed. -/
def unsigned : Draft → Except SecurityError SignedMessage
  | request body =>
    .ok (.request { DirectRequest.plain stamp.ts stamp.shortNonce sender recipient body with
      nonce := nonce, ts := ts })
  | requestBytes body =>
    .ok (.request { DirectRequest.plainBytes stamp.ts stamp.shortNonce sender recipient body with
      nonce := nonce, ts := ts })
  | responseOk asBytes inReplyTo body =>
    .ok (ofResponse asBytes { DirectResponse.plainOk stamp inReplyTo sender recipient body with
      nonce := nonce, ts := ts })
  | responseError asBytes inReplyTo body =>
    .ok (ofResponse asBytes { DirectResponse.plainError stamp inReplyTo sender recipient body with
      nonce := nonce, ts := ts })
  | configRequest role =>
    .ok (.configRequest { ConfigRequest.plain stamp.ts sender recipient role with
      nonce := nonce, ts := ts })
  | configResponseOk inReplyTo bundle =>
    ((toJson bundle).mapError .decodeError).map fun body =>
      .configResponse { ConfigResponse.plainOk stamp.ts inReplyTo sender recipient body with
        nonce := nonce, ts := ts }
  | gatewayResponseOk inReplyTo status headers body =>
    .ok (.gatewayResponse { GatewayResponse.plainOk stamp inReplyTo sender recipient status
      headers body with nonce := nonce, ts := ts })
  | gatewayResponseError inReplyTo _ error =>
    .ok (.gatewayResponse { GatewayResponse.plainError stamp inReplyTo sender recipient error with
      nonce := nonce, ts := ts })
  | webResponseOk inReplyTo status contentType headers body =>
    .ok (.webResponse { plainOk stamp inReplyTo sender recipient status contentType
      headers body with nonce := nonce, ts := ts })
  | webResponseError inReplyTo status error =>
    .ok (.webResponse { plainError stamp inReplyTo sender recipient status error with
      nonce := nonce, ts := ts })

/-- Building is signing: every builder signs what the check will verify. -/
theorem build_eq (draft : Draft) :
    draft.build signer toJson stamp nonce ts sender recipient = (do
      let m ← draft.unsigned toJson stamp nonce ts sender recipient
      let text ← SecurityRuntime.signData signer (m.material signer.byteOrder)
      pure (m.withSignature text)) := by
  have hsign {α : Type} (signed : Except SecurityError String) (put : String → α)
      (wrap : α → SignedMessage) :
      (do let text ← signed; pure (put text) : Except SecurityError α).map wrap
        = (do let text ← signed; pure (wrap (put text))) := by
    cases signed <;> rfl
  cases draft with
  | request body => exact hsign _ _ _
  | requestBytes body => exact hsign _ _ _
  | responseOk asBytes inReplyTo body => cases asBytes <;> exact hsign _ _ _
  | responseError asBytes inReplyTo body => cases asBytes <;> exact hsign _ _ _
  | configRequest role => exact hsign _ _ _
  | configResponseOk inReplyTo bundle =>
    simp only [build, unsigned, buildConfigResponseOk]
    cases toJson bundle with
    | error e => rfl
    | ok body => exact hsign _ _ _
  | gatewayResponseOk inReplyTo status headers body => exact hsign _ _ _
  | gatewayResponseError inReplyTo status error => exact hsign _ _ _
  | webResponseOk inReplyTo status contentType headers body => exact hsign _ _ _
  | webResponseError inReplyTo status error => exact hsign _ _ _

end Build

/-- A direct response's body, as it is asked for. -/
def textOrBytes (asBytes : Bool) (body : String) : Received :=
  if asBytes then .bytes (utf8 body) else .text body

/-- How the message should be read: as it was sent. A body of bytes is read as a
    text, and the content type without white space around it. -/
def expected : Draft → Received
  | request body => .text body
  | requestBytes body => .text (Text.utf8Lossy body)
  | responseOk asBytes _ body => textOrBytes asBytes body
  | responseError asBytes _ body => textOrBytes asBytes body
  | configRequest _ => .checked
  | configResponseOk _ bundle => .bundle bundle
  | gatewayResponseOk _ status _ body => .gateway status body
  | gatewayResponseError _ status error => .gateway status error
  | webResponseOk _ status contentType _ body => .web status (normalizeContentType contentType) body
  | webResponseError _ status error => .web status "text/plain; charset=utf-8" error

/-- The bundle that is sent, if one is, can be written in JSON and read back. -/
def JsonReads (toJson : ConfigBundle → Except String String)
    (fromJson : String → Except String ConfigBundle) : Draft → Prop
  | configResponseOk _ bundle => ∃ text, toJson bundle = .ok text ∧ fromJson text = .ok bundle
  | _ => True

/-- How it is read. -/
def received : Draft → Received
  | gatewayResponseError _ _ error => .gateway 502 error
  | draft => draft.expected

/-- An error response of a gateway is given the one status it can have. -/
def StatusKept : Draft → Prop
  | gatewayResponseError _ status _ => status = 502
  | _ => True

theorem received_eq_expected_iff (draft : Draft) :
    draft.received = draft.expected ↔ draft.StatusKept := by
  cases draft with
  | gatewayResponseError inReplyTo status error =>
    simp only [received, expected, StatusKept, Received.gateway.injEq, and_true]
    exact eq_comm
  | _ => exact iff_of_true rfl trivial

variable {toJson : ConfigBundle → Except String String}
  {fromJson : String → Except String ConfigBundle} {stamp : Stamp} {nonce : String} {ts : UInt64}
  {sender recipient : String}

theorem unsigned_spec (hsender : Unspaced sender) (hrecipient : Unspaced recipient)
    (draft : Draft) (hjson : draft.JsonReads toJson fromJson) :
    ∃ m, draft.unsigned toJson stamp nonce ts sender recipient = .ok m ∧ m.ts = ts ∧
      m.nonce = nonce ∧ m.names = some (sender, recipient) ∧
      m.contents fromJson = .ok draft.received := by
  have hnames : some (trim sender, trim recipient) = some (sender, recipient) := by
    rw [trim_of_unspaced hsender, trim_of_unspaced hrecipient]
  have htext (body : String) :
      (.ok (.text (Text.utf8Lossy (utf8 body))) : Except SecurityError Received)
        = .ok (.text body) := by
    rw [Text.utf8Lossy_utf8]
  cases draft with
  | request body => exact ⟨_, rfl, rfl, rfl, hnames, htext body⟩
  | requestBytes body => exact ⟨_, rfl, rfl, rfl, hnames, rfl⟩
  | responseOk asBytes inReplyTo body =>
    cases asBytes with
    | false => exact ⟨_, rfl, rfl, rfl, hnames, htext body⟩
    | true => exact ⟨_, rfl, rfl, rfl, hnames, rfl⟩
  | responseError asBytes inReplyTo body =>
    cases asBytes with
    | false => exact ⟨_, rfl, rfl, rfl, hnames, htext body⟩
    | true => exact ⟨_, rfl, rfl, rfl, hnames, rfl⟩
  | configRequest role => exact ⟨_, rfl, rfl, rfl, rfl, rfl⟩
  | configResponseOk inReplyTo bundle =>
    rcases hjson with ⟨text, hto, hfrom⟩
    refine ⟨_, by rw [unsigned, hto]; rfl, rfl, rfl, rfl, ?_⟩
    change ((fromJson text).mapError SecurityError.decodeError).map Received.bundle = _
    rw [hfrom]
    rfl
  | gatewayResponseOk inReplyTo status headers body => exact ⟨_, rfl, rfl, rfl, rfl, rfl⟩
  | gatewayResponseError inReplyTo status error => exact ⟨_, rfl, rfl, rfl, rfl, rfl⟩
  | webResponseOk inReplyTo status contentType headers body =>
    refine ⟨_, rfl, rfl, rfl, rfl, ?_⟩
    simp only [SignedMessage.contents, plainOk, plain,
      normalized, received, expected]
  | webResponseError inReplyTo status error =>
    have htype :
        normalizeContentType "text/plain; charset=utf-8" = "text/plain; charset=utf-8" := by
      decide +kernel
    refine ⟨_, rfl, rfl, rfl, rfl, ?_⟩
    simp only [SignedMessage.contents, plainError, plain,
      normalized, htype, received, expected]

section Accepted

variable (signer crypto : Crypto) (toJson : ConfigBundle → Except String String)
  (fromJson : String → Except String ConfigBundle) (s : SecurityRuntime) (stamp : Stamp)
  (nonce : String) (ts now₁ now₂ : UInt64) (sender recipient : String)

/-- The message is built, and the addressee accepts it and reads it as it should
    be read. -/
def Completes (draft : Draft) : Prop :=
  ∃ m, draft.build signer toJson stamp nonce ts sender recipient = .ok m ∧
    (s.verifyMessage crypto fromJson now₁ now₂ recipient sender m).2 = .ok draft.expected

variable {signer crypto toJson fromJson s stamp nonce ts now₁ now₂ sender recipient}

theorem fresh_of_unused (hwindow : absDiff now₁ ts ≤ s.replayWindowSecs)
    (hunused : s.seenAt sender nonce = none)
    (hroom : (s.keptNonces now₂ sender).size < maxNoncesPerPeer) :
    (s.checkCommon now₁ now₂ sender ts nonce).2 = .ok () := by
  refine checkCommon_eq_ok_iff.mpr ⟨hwindow, ?_, hroom⟩
  have hbucket : (s.replaySeen[sender]?.getD ∅)[nonce]? = none := by
    unfold seenAt at hunused
    cases hget : s.replaySeen[sender]? with
    | none => rw [Option.getD_none, Std.ExtTreeMap.getElem?_empty]
    | some bucket =>
      rw [hget, Option.bind_some] at hunused
      rw [Option.getD_some, hunused]
  rw [Std.ExtTreeMap.contains_eq_isSome_getElem?, keptNonces,
    find_freshNonces, hbucket, Option.filter_none, Option.isSome_none]

theorem draft_accepted (htrust : Trusts signer crypto s sender) (hsender : Unspaced sender)
    (hrecipient : Unspaced recipient)
    (hfresh : (s.checkCommon now₁ now₂ sender ts nonce).2 = .ok ()) (draft : Draft)
    (hjson : draft.JsonReads toJson fromJson) :
    ∃ m, draft.build signer toJson stamp nonce ts sender recipient = .ok m ∧
      (s.verifyMessage crypto fromJson now₁ now₂ recipient sender m).2 = .ok draft.received := by
  rcases unsigned_spec hsender hrecipient draft hjson with ⟨m, hm, hts, hnonce, hnames, hread⟩
  rcases htrust.signData (m.material signer.byteOrder) with ⟨text, hsign, hsigned⟩
  rcases m.withSignature_frame text crypto.byteOrder fromJson with
    ⟨hts', hnonce', hnames', hmaterial, hread'⟩
  refine ⟨m.withSignature text, ?_, (verifyMessage_eq_ok_iff _ _).mpr ⟨?_, ?_⟩⟩
  · rw [build_eq, hm]
    change (do let text ← SecurityRuntime.signData signer (m.material signer.byteOrder);
               pure (m.withSignature text)) = Except.ok (m.withSignature text)
    rw [hsign]
    rfl
  · refine ⟨?_, fun names h => ?_, ?_⟩
    · rw [hts', hts, hnonce', hnonce]
      exact hfresh
    · rw [hnames', hnames, Option.some.injEq] at h
      exact h.symm
    · rw [m.signature_withSignature, hmaterial, ← htrust.order]
      exact hsigned
  · rw [hread', hread]

theorem completes_iff_received (htrust : Trusts signer crypto s sender)
    (hsender : Unspaced sender) (hrecipient : Unspaced recipient)
    (hfresh : (s.checkCommon now₁ now₂ sender ts nonce).2 = .ok ()) (draft : Draft)
    (hjson : draft.JsonReads toJson fromJson) :
    draft.Completes signer crypto toJson fromJson s stamp nonce ts now₁ now₂ sender recipient ↔
      draft.received = draft.expected := by
  have haccepted : ∃ m, draft.build signer toJson stamp nonce ts sender recipient = .ok m ∧
      (s.verifyMessage crypto fromJson now₁ now₂ recipient sender m).2 = .ok draft.received :=
    draft_accepted htrust hsender hrecipient hfresh draft hjson
  rcases haccepted with ⟨m, hbuild, hverify⟩
  constructor
  · rintro ⟨m', hbuild', hverify'⟩
    rw [hbuild, Except.ok.injEq] at hbuild'
    rw [← hbuild', hverify, Except.ok.injEq] at hverify'
    exact hverify'
  · intro heq
    rw [heq] at hverify
    exact ⟨m, hbuild, hverify⟩

/-- Every message that is built is accepted, and it is read as it was sent exactly
    when it is no error response of a gateway or has the status 502. -/
theorem completes_iff (htrust : Trusts signer crypto s sender) (hsender : Unspaced sender)
    (hrecipient : Unspaced recipient) (hwindow : absDiff now₁ ts ≤ s.replayWindowSecs)
    (hunused : s.seenAt sender nonce = none)
    (hroom : (s.keptNonces now₂ sender).size < maxNoncesPerPeer) (draft : Draft)
    (hjson : draft.JsonReads toJson fromJson) :
    (∃ m r, draft.build signer toJson stamp nonce ts sender recipient = .ok m ∧
      (s.verifyMessage crypto fromJson now₁ now₂ recipient sender m).2 = .ok r) ∧
    (draft.Completes signer crypto toJson fromJson s stamp nonce ts now₁ now₂ sender recipient ↔
      draft.StatusKept) := by
  have hfresh := fresh_of_unused hwindow hunused hroom
  refine ⟨?_, ?_⟩
  · rcases draft_accepted htrust hsender hrecipient hfresh draft hjson with ⟨m, hbuild, hverify⟩
    exact ⟨m, draft.received, hbuild, hverify⟩
  · exact (completes_iff_received htrust hsender hrecipient hfresh draft hjson).trans
      draft.received_eq_expected_iff

end Accepted

theorem tagCrypto_trusts_of {key own : String} {s : SecurityRuntime} {sender : String}
    (h : s.peerPublicKeys[sender]? = some ⟨utf8 key⟩) :
    Trusts (tagCrypto key) (tagCrypto own) s sender where
  key := ⟨⟨utf8 key⟩, h, fun data => ⟨utf8 key ++ data, rfl, by simp [tagCrypto]⟩⟩
  base64 := tagCrypto_decodeBase64 own
  order := rfl

theorem tagCrypto_trusts : Trusts (tagCrypto "key") (tagCrypto "key") tagRuntime "peer" :=
  tagCrypto_trusts_of (by decide +kernel)

/-- A web service's error arrives with its status. -/
theorem web_status_kept :
    (Draft.webResponseError "web-1" 404 "missing").Completes (tagCrypto "key") (tagCrypto "key")
      (fun _ => .error "") (fun _ => .error "") tagRuntime ⟨1000, "1"⟩ "n" 1000 1000 1000 "peer"
      "node" :=
  (completes_iff tagCrypto_trusts (by decide +kernel) (by decide +kernel) (by decide +kernel)
    (by decide +kernel) (by decide +kernel) (.webResponseError "web-1" 404 "missing")
    trivial).2.mpr trivial

/-- A gateway's refusal arrives as a bad gateway. -/
theorem gateway_status_lost :
    Trusts (tagCrypto "key") (tagCrypto "key") tagRuntime "peer" ∧
    absDiff 1000 1000 ≤ tagRuntime.replayWindowSecs ∧ tagRuntime.seenAt "peer" "n" = none ∧
    (tagRuntime.keptNonces 1000 "peer").size < maxNoncesPerPeer ∧
    ¬ (Draft.gatewayResponseError "gw-1" 403 "denied").Completes (tagCrypto "key")
      (tagCrypto "key") (fun _ => .error "") (fun _ => .error "") tagRuntime ⟨1000, "1"⟩ "n" 1000
      1000 1000 "peer" "node" := by
  refine ⟨tagCrypto_trusts, by decide +kernel, by decide +kernel, by decide +kernel, ?_⟩
  intro hcompletes
  have hread := (completes_iff_received tagCrypto_trusts (by decide +kernel) (by decide +kernel)
    (by decide +kernel) (.gatewayResponseError "gw-1" 403 "denied") trivial).mp hcompletes
  exact absurd hread (by decide)

end Draft

end EssNode
