import EssNode.Lib.Separated
import EssNode.Lib.Text
import EssNode.Message

/-!
# What a Signature Covers

The fields of a direct message are signed as one byte string, each followed by a bar. A text
that itself holds a bar is not marked, so one byte string can be read as two messages, and a
signature on one is a signature on the other.

A request is the only one with its byte string if no text behind the addressee holds a bar, its
body holds none, and sender and addressee are not found once more further left, where the
message identifier would end early. For a request whose batch identifier holds no bar and whose
body is a text, that is also necessary: any other bar can be moved from one field to its
neighbour. Responses carry two identifiers side by side, so neither may hold a bar.
-/

namespace EssNode

open Bincode List Separated Text ByteOrder

def Unbarred (s : String) : Prop := '|' ∉ s.toList

instance (s : String) : Decidable (Unbarred s) :=
  inferInstanceAs (Decidable ('|' ∉ s.toList))

variable (x y : String) {s : String}

theorem unbarred_iff : Unbarred s ↔ bar ∉ utf8 s :=
  not_congr (ascii_mem_utf8 (c := '|') (by decide) s).symm

theorem exists_of_not_unbarred (h : ¬Unbarred s) : ∃ x y, s = x ++ "|" ++ y := by
  rcases append_of_mem (not_not.mp h) with ⟨front, back, hsplit⟩
  refine ⟨String.ofList front, String.ofList back, ?_⟩
  rw [← String.toList_inj, hsplit]
  simp

theorem ne_append_bar : x ≠ x ++ "|" ++ y := by
  intro h
  have hlen := congrArg (fun s : String => s.toList.length) h
  simp at hlen

theorem utf8_bar : utf8 (x ++ "|" ++ y) = utf8 x ++ bar :: utf8 y := by
  rw [utf8_append, utf8_append, show utf8 "|" = [bar] by decide +kernel, append_assoc,
    singleton_append]

theorem ByteOrder.length_bytes (order : ByteOrder) (w n : Nat) : (order.bytes w n).length = w := by
  cases order <;> simp [bytes]

theorem ByteOrder.bytes_inj {order : ByteOrder} {w m n : Nat} (hm : m < 256 ^ w)
    (hn : n < 256 ^ w) (h : order.bytes w m = order.bytes w n) : m = n := by
  have hwords : littleEndian w m = littleEndian w n := by
    cases order with
    | little => exact h
    | big => exact reverse_inj.mp h
  rw [← ofLittleEndian_littleEndian w m hm, hwords, ofLittleEndian_littleEndian w n hn]

/-- The fields behind the addressee, in the order in which they are signed. -/
structure SignedTail where
  kind : String
  messageType : String
  priority : UInt8
  batchId : String
  batchIndex : UInt32
  batchSize : UInt32
  ts : UInt64
  nonce : String
  senderPubkey : String

namespace SignedTail

variable {order : ByteOrder} {a b : SignedTail}

def parts (order : ByteOrder) (t : SignedTail) : List (List UInt8) :=
  [utf8 t.kind, utf8 t.messageType, [t.priority], utf8 t.batchId,
   order.bytes 4 t.batchIndex.toNat, order.bytes 4 t.batchSize.toNat, order.bytes 8 t.ts.toNat,
   utf8 t.nonce, utf8 t.senderPubkey]

/-- No text of the fields holds a bar. -/
structure Plain (t : SignedTail) : Prop where
  kind : Unbarred t.kind
  messageType : Unbarred t.messageType
  batchId : Unbarred t.batchId
  nonce : Unbarred t.nonce
  senderPubkey : Unbarred t.senderPubkey

theorem aligned (h : a.Plain) (b : SignedTail) : Aligned bar (a.parts order) (b.parts order) :=
  .free (unbarred_iff.mp h.kind) <| .free (unbarred_iff.mp h.messageType) <| .fixed rfl <|
    .free (unbarred_iff.mp h.batchId) <|
    .fixed (by rw [length_bytes, length_bytes]) <|
    .fixed (by rw [length_bytes, length_bytes]) <|
    .fixed (by rw [length_bytes, length_bytes]) <|
    .free (unbarred_iff.mp h.nonce) <| .free (unbarred_iff.mp h.senderPubkey) .nil

theorem parts_inj (h : a.parts order = b.parts order) :
    a.kind = b.kind ∧ a.messageType = b.messageType ∧ a.ts = b.ts ∧ a.nonce = b.nonce ∧
      a.senderPubkey = b.senderPubkey := by
  simp only [parts, cons.injEq] at h
  rcases h with ⟨hkind, htype, -, -, -, -, hts, hnonce, hkey, -⟩
  exact ⟨utf8_injective hkind, utf8_injective htype,
    UInt64.toNat_inj.mp (bytes_inj a.ts.toNat_lt b.ts.toNat_lt hts),
    utf8_injective hnonce, utf8_injective hkey⟩

/-- Where a field other than the batch identifier holds a bar, or the body does,
    the bar can be read as the end of the field: what is behind it goes to the next
    field, or what is before it to the field before. -/
theorem regroup (order : ByteOrder) {t : SignedTail} (hbatch : Unbarred t.batchId) {text : String}
    (h : ¬(t.Plain ∧ Unbarred text)) :
    ∃ (t' : SignedTail) (body : List UInt8), (t'.kind ≠ t.kind ∨ t'.nonce ≠ t.nonce) ∧
      terminated bar (t'.parts order) ++ body = terminated bar (t.parts order) ++ utf8 text := by
  rcases t with ⟨kind, messageType, priority, batchId, batchIndex, batchSize, ts, nonce, key⟩
  by_cases hkind : Unbarred kind
  swap
  · rcases exists_of_not_unbarred hkind with ⟨x, y, rfl⟩
    exact ⟨⟨x, y ++ "|" ++ messageType, priority, batchId, batchIndex, batchSize, ts, nonce, key⟩,
      utf8 text, Or.inl (ne_append_bar x y), by simp [terminated, parts, utf8_bar]⟩
  by_cases htype : Unbarred messageType
  swap
  · rcases exists_of_not_unbarred htype with ⟨x, y, rfl⟩
    exact ⟨⟨kind ++ "|" ++ x, y, priority, batchId, batchIndex, batchSize, ts, nonce, key⟩,
      utf8 text, Or.inl (ne_append_bar kind x).symm, by simp [terminated, parts, utf8_bar]⟩
  by_cases hnonce : Unbarred nonce
  swap
  · rcases exists_of_not_unbarred hnonce with ⟨x, y, rfl⟩
    exact ⟨⟨kind, messageType, priority, batchId, batchIndex, batchSize, ts, x, y ++ "|" ++ key⟩,
      utf8 text, Or.inr (ne_append_bar x y), by simp [terminated, parts, utf8_bar]⟩
  by_cases hkey : Unbarred key
  swap
  · rcases exists_of_not_unbarred hkey with ⟨x, y, rfl⟩
    exact ⟨⟨kind, messageType, priority, batchId, batchIndex, batchSize, ts, nonce ++ "|" ++ x, y⟩,
      utf8 text, Or.inr (ne_append_bar nonce x).symm, by simp [terminated, parts, utf8_bar]⟩
  -- Only the body is left: the key joins the nonce, and the key is read from the body.
  have htext : ¬Unbarred text := fun hfree => h ⟨⟨hkind, htype, hbatch, hnonce, hkey⟩, hfree⟩
  rcases exists_of_not_unbarred htext with ⟨x, y, rfl⟩
  exact ⟨⟨kind, messageType, priority, batchId, batchIndex, batchSize, ts, nonce ++ "|" ++ key, x⟩,
    utf8 y, Or.inr (ne_append_bar nonce key).symm, by simp [terminated, parts, utf8_bar]⟩

/-- So if no other fields and body with these bytes differ in kind or nonce, the
    fields and the body hold no bar. -/
theorem plain_of_fixed (order : ByteOrder) {t : SignedTail} (hbatch : Unbarred t.batchId)
    {text : String}
    (h : ∀ (t' : SignedTail) (body : List UInt8),
      terminated bar (t'.parts order) ++ body = terminated bar (t.parts order) ++ utf8 text →
        t'.kind = t.kind ∧ t'.nonce = t.nonce) :
    t.Plain ∧ Unbarred text := by
  by_contra hbarred
  rcases regroup order hbatch hbarred with ⟨t', body, hdiffers, hbytes⟩
  rcases h t' body hbytes with ⟨hkind, hnonce⟩
  exact hdiffers.elim (fun hne => hne hkind) fun hne => hne hnonce

end SignedTail

namespace DirectRequest

variable {order : ByteOrder} {a b r : DirectRequest}

/-- The request with other fields behind the addressee, and another body. -/
def withTail (r : DirectRequest) (t : SignedTail) (body : List UInt8) : DirectRequest :=
  { r with
    kind := t.kind, messageType := t.messageType, priority := t.priority, batchId := t.batchId
    batchIndex := t.batchIndex, batchSize := t.batchSize, ts := t.ts, nonce := t.nonce
    senderPubkey := t.senderPubkey, body := body }

/-- The fields in front: the identifier with sender and addressee. -/
def addressed (r : DirectRequest) : String := r.messageId ++ "|" ++ (r.sender ++ "|" ++ r.recipient)

def signedTail (r : DirectRequest) : SignedTail :=
  ⟨r.kind, r.messageType, r.priority, r.batchId, r.batchIndex, r.batchSize, r.ts, r.nonce,
    r.senderPubkey⟩

theorem signatureMaterial_eq (r : DirectRequest) (body : List UInt8) :
    r.signatureMaterial order body =
      utf8 r.addressed ++ [bar] ++ (terminated bar (r.signedTail.parts order) ++ body) := by
  simp [signatureMaterial, barred, addressed, terminated, signedTail, SignedTail.parts, utf8_bar]

/-- Sender and addressee are not found once more further left, behind a shorter
    identifier. -/
def NamesOnce (r : DirectRequest) : Prop :=
  ∀ front rest, r.addressed ≠ { r with messageId := front }.addressed ++ "|" ++ rest

theorem namesOnce_of_unbarred (h : Unbarred r.messageId) : r.NamesOnce := by
  intro front rest hcut
  have hchars := congrArg String.toList hcut
  simp only [addressed, String.toList_append, append_assoc] at hchars
  have hlen := congrArg length hchars
  simp only [length_append] at hlen
  rcases append_eq_append_iff.mp hchars with ⟨beyond, hfront, -⟩ | ⟨beyond, hid, hbar⟩
  · have hsum := congrArg length hfront
    simp at hsum hlen
    omega
  · -- The identifier is longer than what is in front of the bar.
    rcases beyond with _ | ⟨c, beyond⟩
    · have hsum := congrArg length hid
      simp at hsum hlen
      omega
    · have hhead : '|' = c := by simpa using congrArg head? hbar
      exact h (by rw [hid, ← hhead]; simp)

/-- No text of the request can be cut elsewhere. -/
structure PlainTexts (r : DirectRequest) : Prop where
  names : r.NamesOnce
  tail : r.signedTail.Plain

/-- The fields two requests with one signature ought to share. -/
structure SameSigned (a b : DirectRequest) : Prop where
  messageId : a.messageId = b.messageId
  kind : a.kind = b.kind
  messageType : a.messageType = b.messageType
  ts : a.ts = b.ts
  nonce : a.nonce = b.nonce
  senderPubkey : a.senderPubkey = b.senderPubkey
  body : a.body = b.body

/-- The same sender, addressee and signed bytes. -/
structure SameMaterial (order : ByteOrder) (a b : DirectRequest) : Prop where
  sender : a.sender = b.sender
  recipient : a.recipient = b.recipient
  material : a.signatureMaterial order a.body = b.signatureMaterial order b.body

/-- No other request of this sender to this addressee has the same bytes. -/
def Unambiguous (order : ByteOrder) (r : DirectRequest) : Prop :=
  ∀ other, SameMaterial order r other → SameSigned r other

theorem addressed_of_same (hsender : a.sender = b.sender) (hrecipient : a.recipient = b.recipient) :
    { a with messageId := b.messageId }.addressed = b.addressed := by
  rw [addressed, addressed, hsender, hrecipient]

theorem SameSigned.of_eq (hsame : SameMaterial order a b) (hnames : a.addressed = b.addressed)
    (htail : a.signedTail.parts order = b.signedTail.parts order) (hbody : a.body = b.body) :
    SameSigned a b := by
  rcases SignedTail.parts_inj htail with ⟨hkind, htype, hts, hnonce, hkey⟩
  unfold addressed at hnames
  rw [hsame.sender, hsame.recipient, String.append_left_inj, String.append_left_inj] at hnames
  exact ⟨hnames, hkind, htype, hts, hnonce, hkey, hbody⟩

theorem NamesOnce.length_le (h : a.NamesOnce) (hsender : a.sender = b.sender)
    (hrecipient : a.recipient = b.recipient) {x y : List UInt8}
    (heq : utf8 a.addressed ++ [bar] ++ x = utf8 b.addressed ++ [bar] ++ y) :
    (utf8 a.addressed).length ≤ (utf8 b.addressed).length := by
  by_contra hshort
  have hcut : ∃ rest, utf8 a.addressed = [] ++ utf8 b.addressed ++ [bar] ++ rest :=
    exists_cut (Nat.lt_of_not_le hshort) heq
  rcases hcut with ⟨rest, hrest⟩
  rw [nil_append] at hrest
  rw [show utf8 b.addressed ++ [bar] = utf8 (b.addressed ++ "|") by
    rw [utf8_append, show utf8 "|" = [bar] by decide +kernel]] at hrest
  rcases utf8_eq_append hrest with ⟨text, htext, -⟩
  exact h b.messageId text (by rw [addressed_of_same hsender hrecipient, htext])

theorem PlainTexts.unambiguous (h : r.PlainTexts) (hbody : bar ∉ r.body) : r.Unambiguous order := by
  intro other hsame
  have heq := hsame.material
  rw [signatureMaterial_eq, signatureMaterial_eq] at heq
  have hlen : (utf8 r.addressed).length ≤ ([] ++ utf8 other.addressed).length :=
    h.names.length_le hsame.sender hsame.recipient heq
  rcases advance hlen heq with ⟨ahead, hstops, hcut, hrest⟩
  rcases (SignedTail.aligned h.tail other.signedTail).cancel hbody hstops hrest with
    ⟨hnil, htail, hbodies⟩
  -- The other is in step behind the names, hence at the names.
  rw [hnil, append_nil, nil_append] at hcut
  have hnames := (append_inj' hcut rfl).1
  exact .of_eq hsame (utf8_injective hnames).symm htail hbodies

theorem PlainTexts.sameSigned (ha : a.PlainTexts) (hb : b.PlainTexts)
    (hsame : SameMaterial order a b) : SameSigned a b := by
  have heq := hsame.material
  rw [signatureMaterial_eq, signatureMaterial_eq] at heq
  have hle := ha.names.length_le hsame.sender hsame.recipient heq
  have hge := hb.names.length_le hsame.sender.symm hsame.recipient.symm heq.symm
  rcases cancel_part (Or.inl (Nat.le_antisymm hle hge)) (Or.inl (Nat.le_antisymm hge hle)) heq with
    ⟨hnames, hrest⟩
  rcases (SignedTail.aligned ha.tail _).cancel_both (SignedTail.aligned hb.tail _) hrest with
    ⟨htail, hbodies⟩
  exact .of_eq hsame (utf8_injective hnames) htail hbodies

/-- If the batch identifier holds no bar and the body is a text, nothing less
    will do. -/
theorem Unambiguous.plain (h : r.Unambiguous order) (hbatch : Unbarred r.batchId) {text : String}
    (hbody : r.body = utf8 text) : r.PlainTexts ∧ bar ∉ r.body := by
  have hnames : r.NamesOnce := by
    intro front rest hcut
    -- What is between the two places joins the kind.
    have hsame : SameMaterial order r
        { r with messageId := front, kind := rest ++ "|" ++ r.kind } := by
      refine ⟨rfl, rfl, ?_⟩
      rw [signatureMaterial_eq, signatureMaterial_eq, hcut]
      simp [addressed, terminated, signedTail, SignedTail.parts, utf8_bar]
    have hkind := congrArg (fun s : String => s.toList.length) (h _ hsame).kind
    simp at hkind
    omega
  have htail : r.signedTail.Plain ∧ Unbarred text := by
    refine SignedTail.plain_of_fixed order hbatch fun t body hbytes => ?_
    have hsame : SameMaterial order r (r.withTail t body) := by
      refine ⟨rfl, rfl, ?_⟩
      rw [signatureMaterial_eq, signatureMaterial_eq, hbody, ← hbytes]
      rfl
    exact ⟨(h _ hsame).kind.symm, (h _ hsame).nonce.symm⟩
  exact ⟨⟨hnames, htail.1⟩, by rw [hbody]; exact unbarred_iff.mp htail.2⟩

end DirectRequest

namespace DirectResponse

variable {order : ByteOrder} {a b r : DirectResponse}

/-- The response with other fields behind the addressee, and another body. -/
def withTail (r : DirectResponse) (t : SignedTail) (body : List UInt8) : DirectResponse :=
  { r with
    kind := t.kind, messageType := t.messageType, priority := t.priority, batchId := t.batchId
    batchIndex := t.batchIndex, batchSize := t.batchSize, ts := t.ts, nonce := t.nonce
    senderPubkey := t.senderPubkey, body := body }

/-- The fields up to the addressee and the outcome. -/
def frontParts (r : DirectResponse) : List (List UInt8) :=
  [utf8 r.messageId, utf8 r.inReplyTo, utf8 r.sender, utf8 r.recipient,
   utf8 (if r.ok then "true" else "false")]

def signedTail (r : DirectResponse) : SignedTail :=
  ⟨r.kind, r.messageType, r.priority, r.batchId, r.batchIndex, r.batchSize, r.ts, r.nonce,
    r.senderPubkey⟩

theorem signatureMaterial_eq (r : DirectResponse) (body : List UInt8) :
    r.signatureMaterial order body =
      terminated bar (r.frontParts ++ r.signedTail.parts order) ++ body :=
  rfl

/-- No text of the response can be cut elsewhere. -/
structure PlainTexts (r : DirectResponse) : Prop where
  messageId : Unbarred r.messageId
  inReplyTo : Unbarred r.inReplyTo
  tail : r.signedTail.Plain

/-- The fields two responses with one signature ought to share. -/
structure SameSigned (a b : DirectResponse) : Prop where
  messageId : a.messageId = b.messageId
  inReplyTo : a.inReplyTo = b.inReplyTo
  ok : a.ok = b.ok
  kind : a.kind = b.kind
  messageType : a.messageType = b.messageType
  ts : a.ts = b.ts
  nonce : a.nonce = b.nonce
  senderPubkey : a.senderPubkey = b.senderPubkey
  body : a.body = b.body

/-- The same sender, addressee and signed bytes. -/
structure SameMaterial (order : ByteOrder) (a b : DirectResponse) : Prop where
  sender : a.sender = b.sender
  recipient : a.recipient = b.recipient
  material : a.signatureMaterial order a.body = b.signatureMaterial order b.body

/-- No other response of this sender to this addressee has the same bytes. -/
def Unambiguous (order : ByteOrder) (r : DirectResponse) : Prop :=
  ∀ other, SameMaterial order r other → SameSigned r other

theorem SameSigned.of_eq
    (hparts : a.frontParts ++ a.signedTail.parts order = b.frontParts ++ b.signedTail.parts order)
    (hbody : a.body = b.body) : SameSigned a b := by
  rcases append_inj hparts rfl with ⟨hfront, htail⟩
  rcases SignedTail.parts_inj htail with ⟨hkind, htype, hts, hnonce, hkey⟩
  simp only [frontParts, cons.injEq] at hfront
  rcases hfront with ⟨hid, hreply, -, -, hok, -⟩
  have hok' : a.ok = b.ok := by
    have htext := utf8_injective hok
    cases hao : a.ok <;> cases hbo : b.ok <;> simp [hao, hbo] at htext ⊢
  exact ⟨utf8_injective hid, utf8_injective hreply, hok', hkind, htype, hts, hnonce, hkey, hbody⟩

theorem PlainTexts.aligned (h : a.PlainTexts) (hsender : a.sender = b.sender)
    (hrecipient : a.recipient = b.recipient) :
    Aligned bar (a.frontParts ++ a.signedTail.parts order)
      (b.frontParts ++ b.signedTail.parts order) := by
  have hok : Unbarred (if a.ok then "true" else "false") := by
    cases a.ok <;> decide
  exact .free (unbarred_iff.mp h.messageId) <| .free (unbarred_iff.mp h.inReplyTo) <|
    .fixed (by rw [hsender]) <| .fixed (by rw [hrecipient]) <| .free (unbarred_iff.mp hok) <|
    SignedTail.aligned h.tail _

theorem PlainTexts.unambiguous (h : r.PlainTexts) (hbody : bar ∉ r.body) : r.Unambiguous order := by
  intro other hsame
  rcases (h.aligned hsame.sender hsame.recipient).cancel hbody (Or.inl rfl) hsame.material with
    ⟨-, hparts, hbodies⟩
  exact .of_eq hparts hbodies

theorem PlainTexts.sameSigned (ha : a.PlainTexts) (hb : b.PlainTexts)
    (hsame : SameMaterial order a b) : SameSigned a b := by
  rcases (ha.aligned hsame.sender hsame.recipient).cancel_both
    (hb.aligned hsame.sender.symm hsame.recipient.symm) hsame.material with ⟨hparts, hbodies⟩
  exact .of_eq hparts hbodies

theorem Unambiguous.plain (h : r.Unambiguous order) (hbatch : Unbarred r.batchId) {text : String}
    (hbody : r.body = utf8 text) : r.PlainTexts ∧ bar ∉ r.body := by
  have hid : Unbarred r.messageId := by
    by_contra hbarred
    rcases exists_of_not_unbarred hbarred with ⟨x, y, hxy⟩
    have hsame : SameMaterial order r
        { r with messageId := x, inReplyTo := y ++ "|" ++ r.inReplyTo } := by
      refine ⟨rfl, rfl, ?_⟩
      rw [signatureMaterial_eq, signatureMaterial_eq]
      simp [frontParts, signedTail, terminated, hxy, utf8_bar]
    exact ne_append_bar x y (hxy ▸ (h _ hsame).messageId).symm
  have hreply : Unbarred r.inReplyTo := by
    by_contra hbarred
    rcases exists_of_not_unbarred hbarred with ⟨x, y, hxy⟩
    have hsame : SameMaterial order r
        { r with messageId := r.messageId ++ "|" ++ x, inReplyTo := y } := by
      refine ⟨rfl, rfl, ?_⟩
      rw [signatureMaterial_eq, signatureMaterial_eq]
      simp [frontParts, signedTail, terminated, hxy, utf8_bar]
    exact ne_append_bar _ x (h _ hsame).messageId
  have htail : r.signedTail.Plain ∧ Unbarred text := by
    refine SignedTail.plain_of_fixed order hbatch fun t body hbytes => ?_
    have hsame : SameMaterial order r (r.withTail t body) := by
      refine ⟨rfl, rfl, ?_⟩
      rw [signatureMaterial_eq, signatureMaterial_eq, hbody, terminated_append, append_assoc,
        ← hbytes, ← append_assoc, ← terminated_append]
      rfl
    exact ⟨(h _ hsame).kind.symm, (h _ hsame).nonce.symm⟩
  exact ⟨⟨hid, hreply, htail.1⟩, by rw [hbody]; exact unbarred_iff.mp htail.2⟩

end DirectResponse

/-- When a message is the only one with its bytes. In both directions of the
    protocol, plain texts and a body without bar are enough. For a message whose
    batch identifier holds no bar and whose body is a text they are needed. Two
    messages of plain texts are told apart whatever their bodies. -/
theorem signatureMaterial_unambiguous (order : ByteOrder) :
    ((∀ r : DirectRequest, r.PlainTexts → bar ∉ r.body → r.Unambiguous order) ∧
      (∀ (r : DirectRequest) (text : String), Unbarred r.batchId → r.body = utf8 text →
        (r.Unambiguous order ↔ r.PlainTexts ∧ bar ∉ r.body)) ∧
      ∀ a b : DirectRequest, a.PlainTexts → b.PlainTexts → a.SameMaterial order b →
        a.SameSigned b) ∧
    (∀ r : DirectResponse, r.PlainTexts → bar ∉ r.body → r.Unambiguous order) ∧
      (∀ (r : DirectResponse) (text : String), Unbarred r.batchId → r.body = utf8 text →
        (r.Unambiguous order ↔ r.PlainTexts ∧ bar ∉ r.body)) ∧
      ∀ a b : DirectResponse, a.PlainTexts → b.PlainTexts → a.SameMaterial order b →
        a.SameSigned b :=
  ⟨⟨fun _ hplain hbody => hplain.unambiguous hbody,
      fun _ _ hbatch hbody =>
        ⟨fun h => h.plain hbatch hbody, fun ⟨hplain, hbar⟩ => hplain.unambiguous hbar⟩,
      fun _ _ ha hb hsame => ha.sameSigned hb hsame⟩,
    fun _ hplain hbody => hplain.unambiguous hbody,
    fun _ _ hbatch hbody =>
      ⟨fun h => h.plain hbatch hbody, fun ⟨hplain, hbar⟩ => hplain.unambiguous hbar⟩,
    fun _ _ ha hb hsame => ha.sameSigned hb hsame⟩

/-- A request with identifier, names, kind and nonce as nodes make them. -/
theorem sent_request_unambiguous :
    let r : DirectRequest :=
      { messageId := "dm-7-1f", sender := "A", recipient := "B", kind := "message"
        messageType := "data", ts := 7, nonce := "n", senderPubkey := "k", body := utf8 "x" }
    r.PlainTexts ∧ r.Unambiguous .little :=
  have hplain : DirectRequest.PlainTexts
      { messageId := "dm-7-1f", sender := "A", recipient := "B", kind := "message"
        messageType := "data", ts := 7, nonce := "n", senderPubkey := "k", body := utf8 "x" } :=
    ⟨DirectRequest.namesOnce_of_unbarred (by decide),
      ⟨by decide, by decide, by decide, by decide, by decide⟩⟩
  ⟨hplain, (signatureMaterial_unambiguous .little).1.1 _ hplain (by decide +kernel)⟩

/-- A body `x|y` is signed, and one signature covers a second request with another
    nonce, key and body; a response to `q|x` is also one to `x`. -/
theorem two_requests_one_material :
    (let a : DirectRequest :=
        { sender := "A", recipient := "B", nonce := "n", senderPubkey := "k", body := utf8 "x|y" }
      let b : DirectRequest :=
        { sender := "A", recipient := "B", nonce := "n|k", senderPubkey := "x", body := utf8 "y" }
      a.SameMaterial .little b ∧ ¬a.SameSigned b) ∧
    let a : DirectResponse :=
      { messageId := "r", inReplyTo := "q|x", sender := "A", recipient := "B" }
    let b : DirectResponse :=
      { messageId := "r|q", inReplyTo := "x", sender := "A", recipient := "B" }
    a.SameMaterial .little b ∧ ¬a.SameSigned b := by
  refine ⟨⟨⟨rfl, rfl, by decide +kernel⟩, fun h => ?_⟩, ⟨rfl, rfl, by decide +kernel⟩, fun h => ?_⟩
  · exact absurd h.nonce (by decide)
  · exact absurd h.inReplyTo (by decide)

end EssNode
