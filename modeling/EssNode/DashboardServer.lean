import EssNode.Ghost.Store
import EssNode.Lib.Text

/-!
# The Dashboard's HTTP Server

How a connection to the dashboard is served. The head of a request is read until it ends with an
empty line, the body until there is as much of it as the head announces, and the response depends
on nothing else. The stream arrives in reads of at most 4096 bytes, cut up as the network likes.

The body is the same for every cut. The head is not: after each read the server first looks for
the empty line and then for a buffer that is too long, so a head that ends a little behind the
limit is answered if one read takes it past the limit to its end, and dropped if a read stops
between (`serve_unsegmented_iff`).

A query is read segment by segment, and one without `=` ends the search
(`parseQueryValue_complete_iff`).

What the dashboard answers to an authorised request is taken from elsewhere. The end of the reads
stands for the end of the stream and for an error, which the server treats alike.
-/

namespace EssNode

open List

namespace Dashboard

open Bincode Ghost

structure DashboardHttpResponse where
  status : UInt16
  contentType : String
  body : String
  headers : List (String × String) := []
deriving DecidableEq, Repr

/-! ### Queries -/

/-- The parts in front of and behind the first separator. -/
def splitOnce (sep : Char) (chars : List Char) : Option (String × String) :=
  if sep ∈ chars then
    some (String.ofList (chars.takeWhile (· != sep)),
      String.ofList ((chars.dropWhile (· != sep)).drop 1))
  else none

def valueText (v : String) : String := String.ofList (replaceChar '+' " " (trim v).toList)

/-- The value of a segment for a key, if it is for that key. -/
def segmentValue (key : String) (pair : List Char) : Option String :=
  match splitOnce '=' pair with
  | none => none
  | some (k, v) => if trim k = key then some (valueText v) else none

/-- The loop over the segments. One without `=` returns from the function. -/
def searchPairs (key : String) : List (List Char) → Option String
  | [] => none
  | pair :: rest => do
      let (k, v) ← splitOnce '=' pair
      if trim k = key then some (valueText v) else searchPairs key rest

def parseQueryValue (query key : String) : Option String :=
  searchPairs key (query.toList.splitOn '&')

theorem searchPairs_eq_iff (key : String) (pairs : List (List Char)) :
    searchPairs key pairs = pairs.findSome? (segmentValue key) ↔
      ((∃ pair ∈ pairs, segmentValue key pair ≠ none) →
        ∀ pair ∈ pairs.takeWhile (segmentValue key · = none), '=' ∈ pair) := by
  induction pairs with
  | nil => simp [searchPairs]
  | cons pair rest ih =>
    rw [findSome?_cons, takeWhile_cons, searchPairs]
    by_cases hequals : '=' ∈ pair
    · obtain ⟨k, v, hsplit⟩ : ∃ k v, splitOnce '=' pair = some (k, v) := ⟨_, _, if_pos hequals⟩
      by_cases hkey : trim k = key
      · simp [segmentValue, hsplit, hkey]
      · have hnone : segmentValue key pair = none := by simp [segmentValue, hsplit, hkey]
        simp [hnone, hsplit, hkey, hequals, ih]
    · have hsplit : splitOnce '=' pair = none := if_neg hequals
      have hnone : segmentValue key pair = none := by simp [segmentValue, hsplit]
      -- The search is over, so it misses nothing only if there is nothing left to find.
      rw [hsplit, hnone]
      simp [hequals, hnone, eq_comm (a := none)]

/-- A query is searched to the first segment with the key exactly if each segment in front of it
    holds a `=`. -/
theorem parseQueryValue_complete_iff (query key : String) :
    parseQueryValue query key = (query.toList.splitOn '&').findSome? (segmentValue key) ↔
      ((∃ pair ∈ query.toList.splitOn '&', segmentValue key pair ≠ none) →
        ∀ pair ∈ (query.toList.splitOn '&').takeWhile (segmentValue key · = none), '=' ∈ pair) :=
  searchPairs_eq_iff key _

/-- A flag in front of the limit hides it. -/
theorem flag_hides_limit :
    parseQueryValue "debug&limit=5" "limit" = none ∧
      ("debug&limit=5".toList.splitOn '&').findSome? (segmentValue "limit") = some "5" ∧
      parseQueryValue "limit=5&debug" "limit" = some "5" := by
  decide +kernel

/-! ### Requests -/

def maxHeaderSize : Nat := 16384

def maxBodySize : Nat := 1048576

/-- The end of the first empty line, which ends the head. -/
def headerEnd : List UInt8 → Option Nat
  | [] => none
  | b :: rest =>
    if [13, 10, 13, 10] <+: b :: rest then some 4 else (headerEnd rest).map (· + 1)

/-- Read until the head is there: its end, the buffer, and the reads that are left. -/
def readHeader (buf : List UInt8) :
    List (List UInt8) → Option (Nat × List UInt8 × List (List UInt8))
  | [] => none
  | read :: rest =>
    match headerEnd (buf ++ read) with
    | some pos => some (pos, buf ++ read, rest)
    | none => if maxHeaderSize < (buf ++ read).length then none else readHeader (buf ++ read) rest

/-- Read on until there is enough of the body. -/
def readBody (toRead : Nat) (body : List UInt8) : List (List UInt8) → List UInt8
  | [] => body
  | read :: rest => if body.length < toRead then readBody toRead (body ++ read) rest else body

/-- What was read of the body, without what is behind it. -/
def bodyBytes (toRead : Nat) (body : List UInt8) (reads : List (List UInt8)) : List UInt8 :=
  let bodyBuf := readBody toRead body reads
  bodyBuf.take (min bodyBuf.length toRead)

/-- Lines are told by what they begin with in lower case. -/
def isHeader (name : String) (line : List Char) : Bool :=
  decide (name.toList <+: line.map Char.toLower)

/-- What is behind the colon of the first line of a name. -/
def headerValue (name req : String) : Option String :=
  ((lines req).find? (isHeader name)).bind fun line =>
    (splitOnce ':' line).map fun (_, v) => trim v

def contentLength (req : String) : Option Nat :=
  (headerValue "content-length:" req).bind fun v => (parseU64 v).map UInt64.toNat

def acceptJson (req : String) : Bool :=
  (lines req).any fun line =>
    isHeader "accept:" line && decide ("application/json".toList <:+: line)

/-- The words of the request's first line. -/
def requestWords (req : String) : List String :=
  ((((lines req).head?.getD []).splitOnP isWhitespace).filter (· ≠ [])).map String.ofList

def method (req : String) : String := (requestWords req)[0]?.getD "GET"

def fullPath (req : String) : String := (requestWords req)[1]?.getD "/"

def pathAndQuery (req : String) : String × Option String :=
  match splitOnce '?' (fullPath req).toList with
  | some (path, query) => (path, some query)
  | none => (fullPath req, none)

/-- The text of a request's body, if it has one, from what is read for a length. -/
def requestBody (req : String) (bytes : Nat → List UInt8) : Option String :=
  if String.ofList ((method req).toList.map Char.toUpper) = "POST" then
    (contentLength req).bind fun len => ofUtf8 (bytes (min len maxBodySize))
  else none

/-! ### Responses -/

def reasonPhrase (status : UInt16) : String :=
  match status.toNat with
  | 200 => "OK"
  | 400 => "Bad Request"
  | 404 => "Not Found"
  | 405 => "Method Not Allowed"
  | 500 => "Internal Server Error"
  | 401 => "Unauthorized"
  | _ => "OK"

def buildHttpResponse (res : DashboardHttpResponse) : String :=
  "HTTP/1.1 " ++ Nat.repr res.status.toNat ++ " " ++ reasonPhrase res.status ++
    "\r\nContent-Type: " ++ res.contentType ++
    "\r\nContent-Length: " ++ Nat.repr (utf8 res.body).length ++ "\r\nConnection: close\r\n" ++
    "Access-Control-Allow-Origin: http://localhost:8080\r\n" ++
    "Access-Control-Allow-Methods: GET, POST, OPTIONS\r\n" ++
    "Access-Control-Allow-Headers: Authorization, Content-Type\r\n" ++
    "X-Content-Type-Options: nosniff\r\n" ++ "X-Frame-Options: DENY\r\n" ++
    String.join (res.headers.map fun (k, v) => k ++ ": " ++ v ++ "\r\n") ++ "\r\n" ++ res.body

def verifyTokenConstantTime (expected provided : List UInt8) : Bool :=
  if expected.length ≠ provided.length then false else expected == provided

/-- What answers an authorised request: from the method, the path, the query, whether JSON is
    accepted, the body and the token. -/
abbrev Handler :=
  String → String → Option String → Bool → Option String → Option String →
    Option DashboardHttpResponse

def respond (handle : Handler) (token req : String) (body : Option String) : String :=
  let provided := (headerValue "authorization:" req).getD ""
  let handled :=
    if verifyTokenConstantTime (utf8 ("Bearer " ++ token)) (utf8 provided) then
      handle (method req) (pathAndQuery req).1 (pathAndQuery req).2 (acceptJson req) body
        (some token)
    else
      some
        { status := 401, contentType := "application/json"
          body := "\x7b\"ok\":false,\"error\":\"unauthorized\"\x7d" }
  match handled with
  | some res => buildHttpResponse res
  | none =>
    buildHttpResponse
      { status := 404, contentType := "text/plain; charset=utf-8", body := "not found" }

/-- One connection: the response, or nothing if it is dropped. -/
def serveDashboardHttp (handle : Handler) (token : String) (reads : List (List UInt8)) :
    Option String :=
  match readHeader [] reads with
  | none => none
  | some (pos, buf, rest) =>
    match ofUtf8 (buf.take pos) with
    | none => none
    | some req =>
      some (respond handle token req
        (requestBody req fun toRead => bodyBytes toRead (buf.drop pos) rest))

/-! ### The end of the head -/

variable {buf stream : List UInt8} {reads : List (List UInt8)} {pos : Nat}

theorem headerEnd_bounds (h : headerEnd buf = some pos) : 4 ≤ pos ∧ pos ≤ buf.length := by
  induction buf generalizing pos with
  | nil => exact absurd h (by simp [headerEnd])
  | cons b rest ih =>
    unfold headerEnd at h
    split at h
    · rename_i hfront
      obtain rfl := Option.some.inj h
      exact ⟨Nat.le_refl 4, hfront.length_le⟩
    · obtain ⟨pos', hpos, rfl⟩ := Option.map_eq_some_iff.mp h
      have hrest := ih hpos
      rw [length_cons]
      omega

/-- What comes later does not move the end of the head. -/
theorem headerEnd_eq_some_iff (more : List UInt8) :
    headerEnd buf = some pos ↔ headerEnd (buf ++ more) = some pos ∧ pos ≤ buf.length := by
  induction buf generalizing pos with
  | nil =>
    refine iff_of_false (by simp [headerEnd]) fun ⟨h, hshort⟩ => ?_
    have hbounds := headerEnd_bounds h
    rw [length_nil] at hshort
    omega
  | cons b rest ih =>
    rw [cons_append, headerEnd, headerEnd]
    by_cases hfront : [13, 10, 13, 10] <+: b :: rest
    · have hlater := hfront.trans (prefix_append (b :: rest) more)
      rw [cons_append] at hlater
      rw [if_pos hfront, if_pos hlater]
      exact ⟨fun h => ⟨h, Option.some.inj h ▸ hfront.length_le⟩, And.left⟩
    · -- An empty line that is there only with what comes later does not fit in the buffer.
      have hfits : ∀ hlater : [13, 10, 13, 10] <+: b :: (rest ++ more),
          ¬ 4 ≤ (b :: rest).length := fun hlater hlong =>
        hfront (prefix_of_prefix_length_le hlater (prefix_append (b :: rest) more) hlong)
      rw [if_neg hfront, Option.map_eq_some_iff]
      constructor
      · rintro ⟨pos', hpos, rfl⟩
        have hbounds := headerEnd_bounds hpos
        rw [if_neg fun hlater => hfits hlater (by rw [length_cons]; omega), (ih.mp hpos).1]
        exact ⟨rfl, Nat.succ_le_succ hbounds.2⟩
      · rintro ⟨hpos, hshort⟩
        split at hpos
        · rename_i hlater
          exact absurd (Option.some.inj hpos ▸ hshort) (hfits hlater)
        · obtain ⟨pos', hpos', rfl⟩ := Option.map_eq_some_iff.mp hpos
          exact ⟨pos', ih.mpr ⟨hpos', Nat.le_of_succ_le_succ hshort⟩, rfl⟩

theorem headerEnd_append (h : headerEnd buf = some pos) (more : List UInt8) :
    headerEnd (buf ++ more) = some pos :=
  ((headerEnd_eq_some_iff more).mp h).1

theorem headerEnd_of_notMem (h : 13 ∉ buf) :
    headerEnd (buf ++ [13, 10, 13, 10]) = some (buf.length + 4) := by
  induction buf with
  | nil => rfl
  | cons b rest ih =>
    rw [mem_cons, not_or] at h
    rw [cons_append, headerEnd, if_neg fun hfront => h.1 (cons_prefix_cons.mp hfront).1,
      ih h.2, Option.map_some, length_cons, Nat.add_right_comm]

/-! ### Reading -/

/-- How much is there after some of the reads. -/
def arrived (reads : List (List UInt8)) (n : Nat) : Nat := (reads.take n).flatten.length

theorem arrived_cons (read : List UInt8) (n : Nat) :
    arrived (read :: reads) (n + 1) = read.length + arrived reads n := by
  rw [arrived, take_succ_cons, flatten_cons, length_append, arrived]

/-- The head is read exactly if no read stops between the limit and its end. -/
theorem readHeader_isSome_iff (hbuf : headerEnd buf = none) (hshort : buf.length ≤ maxHeaderSize) :
    (readHeader buf reads).isSome ↔
      ∃ pos, headerEnd (buf ++ reads.flatten) = some pos ∧
        ∀ n, buf.length + arrived reads n < pos → buf.length + arrived reads n ≤ maxHeaderSize := by
  induction reads generalizing buf with
  | nil => simp [readHeader, hbuf]
  | cons read rest ih =>
    rw [readHeader, flatten_cons, ← append_assoc]
    cases hread : headerEnd (buf ++ read) with
    | some pos =>
      refine iff_of_true rfl ⟨pos, headerEnd_append hread _, fun n hn => ?_⟩
      have hpos := (headerEnd_bounds hread).2
      rw [length_append] at hpos
      cases n with
      | zero => simpa [arrived] using hshort
      | succ n =>
        rw [arrived_cons] at hn
        omega
    | none =>
      dsimp only
      split
      · rename_i hlong
        refine iff_of_false Bool.false_ne_true ?_
        rintro ⟨pos, hpos, hlimit⟩
        have hbehind : ¬ pos ≤ (buf ++ read).length := fun hfits =>
          absurd ((headerEnd_eq_some_iff _).mpr ⟨hpos, hfits⟩) (by simp [hread])
        have hone := hlimit 1
        rw [arrived_cons, arrived, take_zero, flatten_nil] at hone
        rw [length_append] at hlong hbehind
        simp only [length_nil, Nat.add_zero] at hone
        omega
      · rename_i hfits
        rw [ih hread (Nat.le_of_not_lt hfits)]
        refine exists_congr fun pos => and_congr_right fun _ => ?_
        rw [length_append]
        constructor
        · intro h n
          cases n with
          | zero => exact fun _ => by simpa [arrived] using hshort
          | succ n => rw [arrived_cons, ← Nat.add_assoc]; exact h n
        · intro h n
          have hnext := h (n + 1)
          rwa [arrived_cons, ← Nat.add_assoc] at hnext

theorem readHeader_eq_some {rest : List (List UInt8)} {buf' : List UInt8}
    (h : readHeader buf reads = some (pos, buf', rest)) :
    headerEnd buf' = some pos ∧ buf' ++ rest.flatten = buf ++ reads.flatten := by
  induction reads generalizing buf with
  | nil => exact absurd h (by simp [readHeader])
  | cons read others ih =>
    rw [readHeader] at h
    rw [flatten_cons, ← append_assoc]
    cases hread : headerEnd (buf ++ read) with
    | some pos' =>
      rw [hread] at h
      obtain ⟨rfl, rfl, rfl⟩ := by simpa using h
      exact ⟨hread, rfl⟩
    | none =>
      rw [hread] at h
      dsimp only at h
      split at h
      · exact absurd h (by simp)
      · exact ih h

/-- The body is the same for every cut. -/
theorem bodyBytes_eq (toRead : Nat) (body : List UInt8) (reads : List (List UInt8)) :
    bodyBytes toRead body reads = (body ++ reads.flatten).take toRead := by
  rw [bodyBytes, Nat.min_comm, ← take_take, take_length]
  induction reads generalizing body with
  | nil => rw [readBody, flatten_nil, append_nil]
  | cons read rest ih =>
    rw [readBody]
    split
    · rw [ih, append_assoc, flatten_cons]
    · rename_i henough
      rw [take_append_of_le_length (Nat.le_of_not_lt henough)]

/-! ### Cuts of a stream -/

/-- A way the stream may arrive. -/
structure Cut (stream : List UInt8) (reads : List (List UInt8)) : Prop where
  whole : reads.flatten = stream
  sizes : ∀ read ∈ reads, 1 ≤ read.length ∧ read.length ≤ 4096

/-- What a stream is answered with if its head is read. -/
def answer (handle : Handler) (token : String) (stream : List UInt8) : Option String :=
  (headerEnd stream).bind fun pos =>
    (ofUtf8 (stream.take pos)).map fun req =>
      respond handle token req (requestBody req fun toRead => (stream.drop pos).take toRead)

theorem serve_eq (handle : Handler) (token : String) (reads : List (List UInt8)) :
    serveDashboardHttp handle token reads
      = if (readHeader [] reads).isSome then answer handle token reads.flatten else none := by
  unfold serveDashboardHttp
  cases hread : readHeader [] reads with
  | none => rfl
  | some result =>
    obtain ⟨pos, buf, rest⟩ := result
    obtain ⟨hpos, hwhole⟩ := readHeader_eq_some hread
    have hfits := (headerEnd_bounds hpos).2
    rw [nil_append] at hwhole
    rw [← hwhole, answer, headerEnd_append hpos, Option.bind_some,
      take_append_of_le_length hfits, drop_append_of_le_length hfits]
    simp only [bodyBytes_eq, Option.isSome_some, if_true]
    cases ofUtf8 (buf.take pos) <;> rfl

/-! ### Which cuts are answered -/

/-- Every byte on its own. -/
def singles (stream : List UInt8) : List (List UInt8) := stream.map fun b => [b]

theorem flatten_singles (stream : List UInt8) : (singles stream).flatten = stream := by
  induction stream with
  | nil => rfl
  | cons b rest ih => exact congrArg (b :: ·) ih

theorem cut_singles (stream : List UInt8) : Cut stream (singles stream) := by
  refine ⟨flatten_singles stream, fun read hread => ?_⟩
  obtain ⟨b, -, rfl⟩ := mem_map.mp hread
  simp

theorem length_singles (stream : List UInt8) : (singles stream).length = stream.length :=
  length_map _

theorem arrived_singles (stream : List UInt8) (n : Nat) :
    arrived (singles stream) n = min n stream.length := by
  rw [arrived, singles, ← map_take]
  exact (congrArg length (flatten_singles _)).trans length_take

theorem arrived_append (reads more : List (List UInt8)) (n : Nat) :
    arrived (reads ++ more) n = arrived reads n + arrived more (n - reads.length) := by
  rw [arrived, take_append, flatten_append, length_append, arrived, arrived]

/-- A cut is answered exactly if no read stops between the limit and the end of the head. -/
theorem Cut.answered_iff (hcut : Cut stream reads) (hpos : headerEnd stream = some pos) :
    (readHeader [] reads).isSome ↔
      ∀ n, arrived reads n < pos → arrived reads n ≤ maxHeaderSize := by
  have h := @readHeader_isSome_iff [] reads rfl (Nat.zero_le _)
  simpa [hcut.whole, hpos] using h

/-- Some read stops less than a read's size before any place. -/
theorem exists_arrived (hsizes : ∀ read ∈ reads, read.length ≤ 4096) (hpos : 0 < pos)
    (h : pos ≤ reads.flatten.length) :
    ∃ n, arrived reads n < pos ∧ pos ≤ arrived reads n + 4096 := by
  induction reads generalizing pos with
  | nil => exact absurd h (Nat.not_le_of_lt hpos)
  | cons read rest ih =>
    rw [flatten_cons, length_append] at h
    have hread := hsizes read mem_cons_self
    by_cases hfirst : pos ≤ read.length
    · exact ⟨0, hpos, by rw [arrived]; simpa using hfirst.trans hread⟩
    · obtain ⟨n, hn⟩ := ih (fun other hother => hsizes other (mem_cons_of_mem read hother))
        (show 0 < pos - read.length by omega) (by omega)
      refine ⟨n + 1, ?_⟩
      rw [arrived_cons]
      omega

/-- A head that ends far behind the limit is dropped for every cut. -/
theorem Cut.not_answered_of_far (hcut : Cut stream reads) (hpos : headerEnd stream = some pos)
    (hfar : maxHeaderSize + 4096 < pos) : ¬ (readHeader [] reads).isSome := by
  rw [hcut.answered_iff hpos]
  intro hlimit
  have hbounds := headerEnd_bounds hpos
  obtain ⟨n, hn, hnear⟩ := exists_arrived (fun read hread => (hcut.sizes read hread).2)
    (show 0 < pos by omega) (by rw [hcut.whole]; exact hbounds.2)
  have hsize := hlimit n hn
  omega

/-- Byte by byte, a head is dropped if it ends more than a byte behind the limit. -/
theorem not_answered_singles (hpos : headerEnd stream = some pos)
    (hbehind : maxHeaderSize + 1 < pos) : ¬ (readHeader [] (singles stream)).isSome := by
  rw [(cut_singles stream).answered_iff hpos]
  intro hlimit
  have hbounds := headerEnd_bounds hpos
  have hstop := hlimit (maxHeaderSize + 1)
  rw [arrived_singles, Nat.min_eq_left (by omega)] at hstop
  omega

/-- Byte by byte to the limit, and from there in one read. -/
def leap (stream : List UInt8) : List (List UInt8) :=
  singles (stream.take maxHeaderSize) ++
    (stream.drop maxHeaderSize).take 4096 :: singles (stream.drop (maxHeaderSize + 4096))

theorem cut_leap (hlong : maxHeaderSize < stream.length) : Cut stream (leap stream) := by
  refine ⟨?_, fun read hread => ?_⟩
  · rw [leap, flatten_append, flatten_cons, flatten_singles, flatten_singles,
      ← drop_drop, take_append_drop, take_append_drop]
  · rcases mem_append.mp hread with hfront | hrest
    · exact (cut_singles _).sizes read hfront
    · rcases mem_cons.mp hrest with rfl | hback
      · rw [length_take, length_drop]
        omega
      · exact (cut_singles _).sizes read hback

theorem answered_leap (hpos : headerEnd stream = some pos) (hbehind : maxHeaderSize < pos)
    (hnear : pos ≤ maxHeaderSize + 4096) : (readHeader [] (leap stream)).isSome := by
  have hbounds := headerEnd_bounds hpos
  rw [(cut_leap (by omega)).answered_iff hpos]
  intro n hn
  have hfront : (stream.take maxHeaderSize).length = maxHeaderSize := by
    rw [length_take]
    omega
  rw [leap, arrived_append, arrived_singles, length_singles, hfront] at hn ⊢
  cases hpast : n - maxHeaderSize with
  | zero =>
    rw [arrived, take_zero, flatten_nil, length_nil]
    omega
  | succ m =>
    -- The large read is there, and with it the end of the head.
    rw [hpast, arrived_cons, length_take, length_drop] at hn
    omega

/-- The outcome is the same for every cut of a stream exactly if its head does not end more than
    a byte and at most a read's size behind the limit, or is no text. -/
theorem serve_unsegmented_iff (handle : Handler) (token : String) (stream : List UInt8) :
    (∀ reads reads', Cut stream reads → Cut stream reads' →
        serveDashboardHttp handle token reads = serveDashboardHttp handle token reads') ↔
      ∀ pos, headerEnd stream = some pos → maxHeaderSize + 1 < pos → pos ≤ maxHeaderSize + 4096 →
        ofUtf8 (stream.take pos) = none := by
  constructor
  · intro h pos hpos hbehind hnear
    have hbounds := headerEnd_bounds hpos
    have hlong : maxHeaderSize < stream.length := by omega
    have hsame := h _ _ (cut_leap hlong) (cut_singles stream)
    rw [serve_eq, serve_eq, if_pos (answered_leap hpos (by omega) hnear),
      if_neg (not_answered_singles hpos hbehind), (cut_leap hlong).whole, answer, hpos,
      Option.bind_some, Option.map_eq_none_iff] at hsame
    exact hsame
  · intro h
    -- One outcome for all cuts, by where the head ends.
    suffices houtcome : ∃ outcome, ∀ reads, Cut stream reads →
        serveDashboardHttp handle token reads = outcome by
      obtain ⟨outcome, hall⟩ := houtcome
      exact fun reads reads' hcut hcut' => (hall reads hcut).trans (hall reads' hcut').symm
    cases hpos : headerEnd stream with
    | none =>
      refine ⟨none, fun reads hcut => ?_⟩
      rw [serve_eq, hcut.whole, answer, hpos]
      exact ite_self none
    | some pos =>
      by_cases hnear : pos ≤ maxHeaderSize + 1
      · refine ⟨answer handle token stream, fun reads hcut => ?_⟩
        have hanswered := (hcut.answered_iff hpos).mpr fun n hn => by omega
        rw [serve_eq, if_pos hanswered, hcut.whole]
      · refine ⟨none, fun reads hcut => ?_⟩
        rw [serve_eq]
        by_cases hfar : maxHeaderSize + 4096 < pos
        · exact if_neg (hcut.not_answered_of_far hpos hfar)
        · rw [hcut.whole, answer, hpos, Option.bind_some, h pos hpos (by omega) (by omega)]
          exact ite_self none

/-- A head that ends four bytes behind the limit is answered if these come in one read, and
    dropped if they come byte by byte. -/
theorem long_head_dropped_or_answered :
    let stream : List UInt8 := replicate 16384 97 ++ [13, 10, 13, 10]
    let handle : Handler := fun _ _ _ _ _ _ => none
    Cut stream (leap stream) ∧ Cut stream (singles stream) ∧
      serveDashboardHttp handle "" (leap stream) ≠ none ∧
      serveDashboardHttp handle "" (singles stream) = none := by
  intro stream handle
  have hlength : stream.length = 16388 := by
    rw [length_append, length_replicate]
    rfl
  have hpos : headerEnd stream = some 16388 := by
    rw [headerEnd_of_notMem fun h => absurd (eq_of_mem_replicate h) (by decide),
      length_replicate]
  have htext :
      stream = utf8 (String.ofList (replicate 16384 'a' ++ "\r\n\r\n".toList)) := by
    rw [Text.utf8_eq_flatMap, String.toList_ofList, flatMap_append, flatMap_replicate,
      show String.utf8EncodeChar 'a' = [97] by decide, flatten_replicate_singleton]
    rfl
  have hcut : Cut stream (leap stream) := cut_leap (by rw [hlength]; decide)
  refine ⟨hcut, cut_singles stream, ?_, ?_⟩
  · rw [serve_eq, if_pos (answered_leap hpos (by decide) (by decide)), hcut.whole, answer, hpos,
      Option.bind_some, ← hlength, take_length, htext, ofUtf8_utf8]
    exact Option.some_ne_none _
  · rw [serve_eq, if_neg (not_answered_singles hpos (by decide))]

end Dashboard

end EssNode
