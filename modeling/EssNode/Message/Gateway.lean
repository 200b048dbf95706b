import EssNode.Lib.StableSort
import EssNode.Message
import Mathlib.Data.Prod.Lex
import Mathlib.Data.String.Basic

/-!
# Gateway and Web Messages

Requests to be carried out through a gateway or by a web service, and their
responses. Bodies are texts here, and what is signed is a text as well.

The signed text of a request is the same for both protocols and holds neither the
nonce nor the headers nor the route. That of a response holds the nonce.

Only web responses are normalised: identifiers and the content type are trimmed
and headers sorted. Bodies are left alone. Headers are sorted without regard to the case of their
names, and one is left out only if it equals its neighbour, case included. So the normal form of
headers does not depend on their order exactly if no two of them differ in case alone
(`normalizeHeaders_canonical_iff`).
-/

namespace EssNode

open Bincode StableSort

abbrev Headers := List (String × String)

def requestSigningBytes (messageId sender recipient method url : String) (ts : UInt64)
    (clearBody : String) : List UInt8 :=
  utf8 (String.intercalate "|" [messageId, sender, recipient, method, url, decimal ts, clearBody])

/-- A request to a gateway. -/
structure GatewayRequest where
  messageId : String := ""
  tracingId : String := ""
  sender : String := ""
  recipient : String := ""
  kind : String := ""
  method : String := ""
  url : String := ""
  headers : Headers := []
  body : String := ""
  route : List String := []
  nonce : String := ""
  ts : UInt64 := 0
  encrypted : Bool := false
  senderPubkey : String := ""
  signature : String := ""
deriving DecidableEq, Repr

def GatewayRequest.signingBytes (self : GatewayRequest) (clearBody : String) : List UInt8 :=
  requestSigningBytes self.messageId self.sender self.recipient self.method self.url self.ts
    clearBody

/-- A request to a web service. -/
structure WebRequest where
  messageId : String := ""
  sender : String := ""
  recipient : String := ""
  kind : String := ""
  method : String := ""
  url : String := ""
  headers : Headers := []
  body : String := ""
  route : List String := []
  nonce : String := ""
  ts : UInt64 := 0
  encrypted : Bool := false
  senderPubkey : String := ""
  signature : String := ""
deriving DecidableEq, Repr

def WebRequest.signingBytes (self : WebRequest) (clearBody : String) : List UInt8 :=
  requestSigningBytes self.messageId self.sender self.recipient self.method self.url self.ts
    clearBody

/-- A gateway's response. -/
structure GatewayResponse where
  messageId : String := ""
  tracingId : String := ""
  inReplyTo : String := ""
  sender : String := ""
  recipient : String := ""
  kind : String := ""
  ok : Bool := false
  status : UInt16 := 0
  headers : Headers := []
  body : String := ""
  nonce : String := ""
  ts : UInt64 := 0
  encrypted : Bool := false
  senderPubkey : String := ""
  signature : String := ""
deriving DecidableEq, Repr

namespace GatewayResponse

def plainOk (stamp : Stamp) (inReplyTo sender recipient : String) (status : UInt16)
    (headers : Headers) (body : String) : GatewayResponse :=
  { messageId := "gw-res-" ++ stamp.shortNonce
    inReplyTo := inReplyTo, sender := sender, recipient := recipient
    kind := "gateway_response", ok := true, status := status, headers := headers
    body := body, ts := stamp.ts }

/-- An error has one status, whatever went wrong. -/
def plainError (stamp : Stamp) (inReplyTo sender recipient errMsg : String) : GatewayResponse :=
  { messageId := "gw-err-" ++ stamp.shortNonce
    inReplyTo := inReplyTo, sender := sender, recipient := recipient
    kind := "gateway_response", ok := false, status := 502, body := errMsg, ts := stamp.ts }

def signingBytes (self : GatewayResponse) (clearBody : String) : List UInt8 :=
  utf8 (String.intercalate "|"
    [self.messageId, self.inReplyTo, self.sender, self.recipient, Nat.repr self.status.toNat,
     decimal self.ts, self.nonce, clearBody])

end GatewayResponse

/-- A web service's response. -/
structure WebResponse where
  messageId : String := ""
  inReplyTo : String := ""
  sender : String := ""
  recipient : String := ""
  kind : String := ""
  ok : Bool := false
  status : UInt16 := 0
  contentType : String := ""
  headers : Headers := []
  body : String := ""
  nonce : String := ""
  ts : UInt64 := 0
  encrypted : Bool := false
  senderPubkey : String := ""
  signature : String := ""
deriving DecidableEq, Repr

/-- Trimmed, without empty and repeated ones, in the order of their names without
    regard to case, then of their values. -/
def normalizeHeaders (headers : Headers) : Headers :=
  ((headers.map fun h => (trim h.1, trim h.2)).filter fun h => h.1 ≠ "" ∧ h.2 ≠ "").mergeSort
    (fun a b =>
      let ka := toAsciiLowercase a.1
      let kb := toAsciiLowercase b.1
      decide (ka < kb ∨ (ka = kb ∧ a.2 ≤ b.2)))
    |>.destutter (· ≠ ·)

/-- What is left of headers before they are sorted. -/
def trimmedHeaders (headers : Headers) : Headers :=
  (headers.map fun h => (trim h.1, trim h.2)).filter fun h => h.1 ≠ "" ∧ h.2 ≠ ""

/-- What headers are sorted by. -/
def headerKey (h : String × String) : String ×ₗ String := toLex (toAsciiLowercase h.1, h.2)

theorem normalizeHeaders_eq (headers : Headers) :
    normalizeHeaders headers = sortDedup headerKey (trimmedHeaders headers) := by
  simp only [normalizeHeaders, sortDedup, trimmedHeaders, headerKey, Prod.Lex.toLex_le_toLex]

variable {headers : Headers}

theorem trimmedHeaders_perm {headers' : Headers} (h : headers.Perm headers') :
    (trimmedHeaders headers).Perm (trimmedHeaders headers') :=
  (h.map _).filter _

theorem mem_trimmedHeaders {h : String × String} (hmem : h ∈ trimmedHeaders headers) :
    ∃ raw ∈ headers, h = (trim raw.1, trim raw.2) ∧ h.1 ≠ "" ∧ h.2 ≠ "" := by
  obtain ⟨hraw, hfull⟩ := List.mem_filter.mp hmem
  obtain ⟨raw, hin, rfl⟩ := List.mem_map.mp hraw
  exact ⟨raw, hin, rfl, of_decide_eq_true hfull⟩

theorem trimmedHeaders_cons {raw : String × String} (hfull : trim raw.1 ≠ "" ∧ trim raw.2 ≠ "")
    (rest : Headers) :
    trimmedHeaders (raw :: rest) = (trim raw.1, trim raw.2) :: trimmedHeaders rest := by
  simp [trimmedHeaders, hfull]

theorem trimmedHeaders_normalizeHeaders (headers : Headers) :
    trimmedHeaders (normalizeHeaders headers) = normalizeHeaders headers := by
  have hclean : ∀ h ∈ normalizeHeaders headers,
      (trim h.1, trim h.2) = h ∧ h.1 ≠ "" ∧ h.2 ≠ "" := by
    intro h hmem
    rw [normalizeHeaders_eq] at hmem
    obtain ⟨raw, -, rfl, hfull⟩ := mem_trimmedHeaders (mem_of_mem_sortDedup hmem)
    exact ⟨by simp only [trim_trim], hfull⟩
  rw [trimmedHeaders, List.map_congr_left (fun h hmem => (hclean h hmem).1), List.map_id',
    List.filter_eq_self.mpr fun h hmem => decide_eq_true (hclean h hmem).2]

/-- Two headers with one sorting key can come in either order. -/
theorem headerKey_injOn_of_perm
    (h : ∀ headers', headers.Perm headers' →
      normalizeHeaders headers' = normalizeHeaders headers) :
    Set.InjOn headerKey {x | x ∈ trimmedHeaders headers} := by
  intro a ha b hb hkey
  by_contra hne
  obtain ⟨ra, hra, rfl, hfullA⟩ := mem_trimmedHeaders ha
  obtain ⟨rb, hrb, rfl, hfullB⟩ := mem_trimmedHeaders hb
  have hraw : rb ≠ ra := fun heq => hne (by rw [heq])
  obtain ⟨rest, hrest⟩ : ∃ rest, headers.Perm (ra :: rb :: rest) :=
    ⟨_, (List.perm_cons_erase hra).trans
      ((List.perm_cons_erase ((List.mem_erase_of_ne hraw).mpr hrb)).cons ra)⟩
  have hsame := (h _ hrest).trans (h _ (hrest.trans (.swap rb ra rest))).symm
  rw [normalizeHeaders_eq, normalizeHeaders_eq, trimmedHeaders_cons hfullA,
    trimmedHeaders_cons hfullB, trimmedHeaders_cons hfullB, trimmedHeaders_cons hfullA] at hsame
  exact hne (eq_of_sortDedup_swap hkey hsame)

/-- Normal headers do not depend on the order, and none is there twice, exactly if no two headers
    with one value have names that differ in case only. To normalise again changes nothing. -/
theorem normalizeHeaders_canonical_iff (headers : Headers) :
    ((∀ headers', headers.Perm headers' →
        normalizeHeaders headers' = normalizeHeaders headers ∧
          (normalizeHeaders headers').Nodup) ↔
      ∀ a ∈ trimmedHeaders headers, ∀ b ∈ trimmedHeaders headers,
        toAsciiLowercase a.1 = toAsciiLowercase b.1 → a.2 = b.2 → a.1 = b.1) ∧
    normalizeHeaders (normalizeHeaders headers) = normalizeHeaders headers := by
  refine ⟨⟨fun h a ha b hb hname hvalue => ?_, fun h headers' hperm => ?_⟩, ?_⟩
  · have hinj := headerKey_injOn_of_perm fun headers' hperm => (h headers' hperm).1
    exact congrArg Prod.fst (hinj ha hb (by rw [headerKey, headerKey, hname, hvalue]))
  · have hinj : Set.InjOn headerKey {x | x ∈ trimmedHeaders headers} := by
      intro a ha b hb hkey
      obtain ⟨hname, hvalue⟩ := Prod.mk.inj (toLex.injective hkey)
      exact Prod.ext (h a ha b hb hname hvalue) hvalue
    have hsame := sortDedup_perm hinj (trimmedHeaders_perm hperm)
    rw [normalizeHeaders_eq, normalizeHeaders_eq, hsame]
    exact ⟨rfl, nodup_sortDedup hinj⟩
  · rw [normalizeHeaders_eq, trimmedHeaders_normalizeHeaders, normalizeHeaders_eq,
      sortDedup_sortDedup]

/-- A header twice in the normal form, and once if the headers come in another order. -/
theorem mixed_case_headers :
    let headers : Headers := [("A", "1"), ("a", "1"), ("A", "1")]
    let headers' : Headers := [("A", "1"), ("A", "1"), ("a", "1")]
    headers.Perm headers' ∧ normalizeHeaders headers = headers ∧
      normalizeHeaders headers' = [("A", "1"), ("a", "1")] := by
  have hlower : toAsciiLowercase "A" = toAsciiLowercase "a" := by
    -- `String.map` is slow to evaluate, the map of the characters is not.
    rw [← String.toList_inj, toAsciiLowercase, toAsciiLowercase, String.toList_map,
      String.toList_map]
    decide
  have hkey : headerKey ("A", "1") = headerKey ("a", "1") := by rw [headerKey, headerKey, hlower]
  have hname : trim "A" = "A" ∧ trim "a" = "a" ∧ trim "1" = "1" := by decide
  refine ⟨by decide, ?_, ?_⟩ <;>
  · rw [normalizeHeaders_eq, sortDedup_of_pairwise (by simp [trimmedHeaders, hname, hkey])]
    decide

/-- An empty content type is plain text. -/
def normalizeContentType (contentType : String) : String :=
  if trim contentType = "" then "text/plain; charset=utf-8" else trim contentType

namespace WebResponse

def normalized (self : WebResponse) : WebResponse :=
  { self with
    messageId := trim self.messageId
    inReplyTo := trim self.inReplyTo
    contentType := normalizeContentType self.contentType
    headers := normalizeHeaders self.headers
    signature := trim self.signature }

/-- An unsigned response. -/
def plain (ok : Bool) (stamp : Stamp) (inReplyTo sender recipient : String) (status : UInt16)
    (contentType : String) (headers : Headers) (body : String) : WebResponse :=
  normalized
    { messageId := "web-resp-" ++ decimal stamp.ts ++ "-" ++ stamp.shortNonce
      inReplyTo := inReplyTo, sender := sender, recipient := recipient
      kind := "web_response", ok := ok, status := status, contentType := contentType
      headers := headers, body := body, ts := stamp.ts }

def plainOk : Stamp → String → String → String → UInt16 → String → Headers → String →
    WebResponse :=
  plain true

def plainError (stamp : Stamp) (inReplyTo sender recipient : String) (status : UInt16)
    (body : String) : WebResponse :=
  plain false stamp inReplyTo sender recipient status "text/plain; charset=utf-8" [] body

def signingBytes (self : WebResponse) (clearBody : String) : List UInt8 :=
  utf8 (String.intercalate "|"
    [self.messageId, self.inReplyTo, self.sender, self.recipient, Nat.repr self.status.toNat,
     self.contentType, decimal self.ts, self.nonce, clearBody])

end WebResponse

end EssNode
