import EssNode.Lib.Text
import EssNode.Message

/-!
# Frames on a Stream

Messages of the request-response protocols go over a stream one after the other, each as
its bytes behind their number in four bytes.

The writer takes the number of bytes modulo the range of the four bytes and has no limit.
The reader refuses a number above 64 MiB and otherwise reads as many bytes as it says. So
what was written is read back, to the last byte, exactly if no message is larger than the
reader's limit (`frames_round_trip_iff`). After a message that is larger the reader stands
at the first byte of the message or inside it, and takes what it finds there for the next
number.

The reader and the writer are generic in the message. A format is what they need of the
library that turns messages into bytes: what it writes is read back, and a part of what it
writes is not read as the same message. Every codec of the binary format has both
(`WireFormat.ofCodec`).
-/

namespace EssNode

open List

namespace Framing

open Bincode Codec

/-- Why reading or writing fails. The text is that of the code; an error of the library
    that turns messages into bytes has its own. -/
inductive IoError where
  | unexpectedEof
  | brokenPipe
  | invalidData (text : Option String)
deriving DecidableEq, Repr

/-- A stream that is written. It breaks when there is no room left, if its room is
    limited. -/
structure Sink where
  written : List UInt8
  room : Option Nat
deriving DecidableEq, Repr

/-- Write all of the bytes, or as many as there is room for. -/
def Sink.writeAll (io : Sink) (bytes : List UInt8) : Sink × Except IoError Unit :=
  match io.room with
  | none => ({ io with written := io.written ++ bytes }, .ok ())
  | some room =>
    if bytes.length ≤ room then
      (⟨io.written ++ bytes, some (room - bytes.length)⟩, .ok ())
    else (⟨io.written ++ bytes.take room, some 0⟩, .error .brokenPipe)

/-- Read a number of bytes. If the stream ends before, it has been read to its end. -/
def readExact (n : Nat) (io : List UInt8) : List UInt8 × Except IoError (List UInt8) :=
  if n ≤ io.length then (io.drop n, .ok (io.take n)) else ([], .error .unexpectedEof)

/-- Messages as bytes. What is written is read back, and no part of it is read as the same
    message. -/
structure WireFormat (α : Type) where
  serialize : α → Option (List UInt8)
  deserialize : List UInt8 → Option α
  round_trip : ∀ a bytes, serialize a = some bytes → deserialize bytes = some a
  whole : ∀ a bytes, serialize a = some bytes →
    ∀ part, part <+: bytes → deserialize part = some a → part = bytes

/-- The format of a codec, for the values it can write. -/
def WireFormat.ofCodec {α : Type} (c : Codec α) [DecidablePred c.Fits] (hc : c.Steady) :
    WireFormat α where
  serialize a := if c.Fits a then some (c.serialize a) else none
  deserialize := c.deserialize
  round_trip a bytes h := by
    obtain ⟨hfits, hbytes⟩ := Option.ite_none_right_eq_some.mp h
    rw [← Option.some.inj hbytes]
    exact c.deserialize_serialize hfits
  whole a bytes h part hpart hread := by
    obtain ⟨hfits, hbytes⟩ := Option.ite_none_right_eq_some.mp h
    rw [← Option.some.inj hbytes] at hpart ⊢
    exact hc.whole hfits hpart hread

def maxFrameSize : Nat := 64 * 1024 * 1024

/-- A word of 32 bits in four bytes, most significant first. -/
def toBeBytes (n : UInt32) : List UInt8 := (littleEndian 4 n.toNat).reverse

def fromBeBytes (bytes : List UInt8) : Nat := ofLittleEndian bytes.reverse

section OneMessage

variable {α : Type} (format : WireFormat α)

/-- Write a message behind the number of its bytes, which is cut to 32 bits. -/
def write (io : Sink) (message : α) : Sink × Except IoError Unit :=
  match format.serialize message with
  | none => (io, .error (.invalidData none))
  | some bytes =>
    match io.writeAll (toBeBytes (UInt32.ofNat bytes.length)) with
    | (io, .error e) => (io, .error e)
    | (io, .ok ()) => io.writeAll bytes

/-- Read a message: the number of its bytes, unless it is too large, and the bytes. -/
def read (io : List UInt8) : List UInt8 × Except IoError α :=
  match readExact 4 io with
  | (io, .error e) => (io, .error e)
  | (io, .ok lenBuf) =>
    let len := fromBeBytes lenBuf
    if len > maxFrameSize then (io, .error (.invalidData (some "frame too large")))
    else
      match readExact len io with
      | (io, .error e) => (io, .error e)
      | (io, .ok buf) =>
        match format.deserialize buf with
        | some message => (io, .ok message)
        | none => (io, .error (.invalidData none))

end OneMessage

/-- The codec of a protocol, with the formats of its requests and responses. -/
structure BincodeCodec (Req Resp : Type) where
  request : WireFormat Req
  response : WireFormat Resp

namespace BincodeCodec

variable {Req Resp : Type} (self : BincodeCodec Req Resp)

def readRequest : List UInt8 → List UInt8 × Except IoError Req := read self.request

def readResponse : List UInt8 → List UInt8 × Except IoError Resp := read self.response

def writeRequest : Sink → Req → Sink × Except IoError Unit := write self.request

def writeResponse : Sink → Resp → Sink × Except IoError Unit := write self.response

end BincodeCodec

section ManyMessages

variable {α : Type}

/-- Write messages one after the other, up to the first that fails. -/
def writeEach (write : Sink → α → Sink × Except IoError Unit) :
    Sink → List α → Sink × Except IoError Unit
  | io, [] => (io, .ok ())
  | io, message :: messages =>
    match write io message with
    | (io, .error e) => (io, .error e)
    | (io, .ok ()) => writeEach write io messages

/-- Read a number of times, whatever the results. -/
def readEach (read : List UInt8 → List UInt8 × Except IoError α) :
    Nat → List UInt8 → List UInt8 × List (Except IoError α)
  | 0, io => (io, [])
  | n + 1, io =>
    let (io, result) := read io
    let (io, results) := readEach read n io
    (io, result :: results)

end ManyMessages

/-! ### Writing -/

def frame (bytes : List UInt8) : List UInt8 := toBeBytes (UInt32.ofNat bytes.length) ++ bytes

theorem writeAll_ok {io : Sink} {bytes : List UInt8} (h : (io.writeAll bytes).2 = .ok ()) :
    (io.writeAll bytes).1.written = io.written ++ bytes := by
  unfold Sink.writeAll at h ⊢
  split
  · rfl
  · rename_i room hroom
    rw [hroom] at h
    dsimp only at h
    by_cases hfits : bytes.length ≤ room
    · rw [if_pos hfits]
    · rw [if_neg hfits] at h
      cases h

variable {α : Type} {format : WireFormat α} {io : Sink} {messages : List α} {m : α}
  {bytes : List UInt8} {n : Nat}

theorem write_ok {message : α} (h : (write format io message).2 = .ok ()) :
    ∃ bytes, format.serialize message = some bytes ∧
      (write format io message).1.written = io.written ++ frame bytes := by
  unfold write at h ⊢
  cases hbytes : format.serialize message with
  | none =>
    rw [hbytes] at h
    cases h
  | some bytes =>
    rw [hbytes] at h
    refine ⟨bytes, rfl, ?_⟩
    have hlen : (io.writeAll (toBeBytes (UInt32.ofNat bytes.length))).2 = .ok () →
        (io.writeAll (toBeBytes (UInt32.ofNat bytes.length))).1.written
          = io.written ++ toBeBytes (UInt32.ofNat bytes.length) := writeAll_ok
    dsimp only at h ⊢
    split at h
    · cases h
    · rename_i io' hwrite
      rw [hwrite] at hlen
      rw [writeAll_ok h, hlen rfl, append_assoc]
      rfl

theorem writeEach_ok (h : (writeEach (write format) io messages).2 = .ok ()) :
    ∃ bodies, List.Forall₂ (fun m bytes => format.serialize m = some bytes) messages bodies ∧
      (writeEach (write format) io messages).1.written = io.written ++ bodies.flatMap frame := by
  induction messages generalizing io with
  | nil => exact ⟨[], List.Forall₂.nil, by simp [writeEach]⟩
  | cons m messages ih =>
    unfold writeEach at h ⊢
    split at h
    · cases h
    · rename_i io' hwrite
      obtain ⟨bytes, hbytes, hwritten⟩ :=
        write_ok (show (write format io m).2 = .ok () by rw [hwrite])
      rw [hwrite] at hwritten
      obtain ⟨bodies, hbodies, hrest⟩ := ih h
      refine ⟨bytes :: bodies, List.Forall₂.cons hbytes hbodies, ?_⟩
      rw [hrest, hwritten, flatMap_cons, append_assoc]

/-! ### Reading -/

theorem readExact_of_le {io : List UInt8} (h : n ≤ io.length) :
    readExact n io = (io.drop n, .ok (io.take n)) := if_pos h

theorem length_toBeBytes (n : UInt32) : (toBeBytes n).length = 4 := by
  unfold toBeBytes
  rw [length_reverse, length_littleEndian]

theorem fromBeBytes_toBeBytes (n : UInt32) : fromBeBytes (toBeBytes n) = n.toNat := by
  unfold fromBeBytes toBeBytes
  rw [reverse_reverse]
  exact ofLittleEndian_littleEndian 4 n.toNat n.toNat_lt

/-- What a reader does with a frame: it takes as many bytes as the number says, which is
    that of the message modulo 2^32. -/
theorem read_frame (format : WireFormat α) (bytes rest : List UInt8) :
    read format (frame bytes ++ rest)
      = if bytes.length % 2 ^ 32 > maxFrameSize then
          (bytes ++ rest, .error (.invalidData (some "frame too large")))
        else
          (bytes.drop (bytes.length % 2 ^ 32) ++ rest,
            match format.deserialize (bytes.take (bytes.length % 2 ^ 32)) with
            | some message => .ok message
            | none => .error (.invalidData none)) := by
  have hle : bytes.length % 2 ^ 32 ≤ bytes.length := Nat.mod_le _ _
  have hfour : readExact 4 (frame bytes ++ rest)
      = (bytes ++ rest, .ok (toBeBytes (UInt32.ofNat bytes.length))) := by
    have hlen := length_toBeBytes (UInt32.ofNat bytes.length)
    unfold frame
    rw [append_assoc, readExact_of_le (by rw [length_append]; omega),
      drop_left' hlen, take_left' hlen]
  have hbody : readExact (bytes.length % 2 ^ 32) (bytes ++ rest)
      = (bytes.drop (bytes.length % 2 ^ 32) ++ rest, .ok (bytes.take (bytes.length % 2 ^ 32))) := by
    rw [readExact_of_le (by rw [length_append]; omega), drop_append_of_le_length hle,
      take_append_of_le_length hle]
  unfold read
  rw [hfour]
  dsimp only
  rw [fromBeBytes_toBeBytes, UInt32.toNat_ofNat']
  split
  · rfl
  · rw [hbody]
    dsimp only
    split
    · rfl
    · rfl

theorem read_frame_of_le (hbytes : format.serialize m = some bytes)
    (hle : bytes.length ≤ maxFrameSize) (rest : List UInt8) :
    read format (frame bytes ++ rest) = (rest, .ok m) := by
  have hmax : maxFrameSize < 2 ^ 32 := by decide
  rw [read_frame, Nat.mod_eq_of_lt (by omega), if_neg (by omega), drop_length,
    take_length, format.round_trip m bytes hbytes, nil_append]

/-- A message above the limit is not read. Its number is too large, or it was cut and only
    a part of the bytes is looked at. -/
theorem read_frame_of_lt (hbytes : format.serialize m = some bytes)
    (hlt : maxFrameSize < bytes.length) (rest : List UInt8) :
    (read format (frame bytes ++ rest)).2 ≠ .ok m := by
  rw [read_frame]
  by_cases hlarge : bytes.length % 2 ^ 32 > maxFrameSize
  · rw [if_pos hlarge]
    nofun
  · rw [if_neg hlarge]
    intro hread
    have hpart : format.deserialize (bytes.take (bytes.length % 2 ^ 32)) = some m := by
      dsimp only at hread
      split at hread
      · rename_i m' hm'
        rw [hm', Except.ok.inj hread]
      · cases hread
    have hwhole := format.whole m bytes hbytes _ (List.take_prefix _ _) hpart
    have hlen := congrArg length hwhole
    rw [length_take] at hlen
    omega

theorem readEach_iff {bodies : List (List UInt8)}
    (h : List.Forall₂ (fun m bytes => format.serialize m = some bytes) messages bodies) :
    readEach (read format) messages.length (bodies.flatMap frame)
        = ([], messages.map Except.ok) ↔
      ∀ m ∈ messages, ∀ bytes, format.serialize m = some bytes → bytes.length ≤ maxFrameSize := by
  induction h with
  | nil => exact iff_of_true rfl (by simp)
  | @cons m bytes messages bodies hbytes _ ih =>
    rw [flatMap_cons, length_cons, readEach, forall_mem_cons]
    by_cases hle : bytes.length ≤ maxFrameSize
    · have hown : ∀ bytes', format.serialize m = some bytes' → bytes'.length ≤ maxFrameSize := by
        intro bytes' hbytes'
        rw [← Option.some.inj (hbytes.symm.trans hbytes')]
        exact hle
      rw [read_frame_of_le hbytes hle, ← ih, and_iff_right hown]
      simp [Prod.ext_iff]
    · have hlt : maxFrameSize < bytes.length := Nat.lt_of_not_le hle
      refine iff_of_false (fun hread => ?_) fun hall => hle (hall.1 bytes hbytes)
      have hresults := congrArg Prod.snd hread
      dsimp only at hresults
      exact read_frame_of_lt hbytes hlt _ (cons.inj hresults).1

/-- Requests that are written one after the other, all with success, are read back by as
    many reads, and all bytes are consumed, exactly if none of them is larger than the
    reader's limit. -/
theorem frames_round_trip_iff {Req Resp : Type} (codec : BincodeCodec Req Resp) (io : Sink)
    (requests : List Req)
    (hwritten : (writeEach codec.writeRequest io requests).2 = .ok ()) :
    readEach codec.readRequest requests.length
        ((writeEach codec.writeRequest io requests).1.written.drop io.written.length)
        = ([], requests.map Except.ok) ↔
      ∀ m ∈ requests, ∀ bytes, codec.request.serialize m = some bytes →
        bytes.length ≤ maxFrameSize := by
  obtain ⟨bodies, hbodies, hbytes⟩ := writeEach_ok hwritten
  have hproduced : (writeEach codec.writeRequest io requests).1.written.drop io.written.length
      = bodies.flatMap frame := by
    refine (congrArg (drop io.written.length) hbytes).trans ?_
    rw [drop_left]
  rw [hproduced]
  exact readEach_iff hbodies

/-! ### Configuration messages -/

instance : DecidablePred ConfigRequest.codec.Fits := fun r =>
  inferInstanceAs (Decidable
    ((utf8 r.messageId).length < 256 ^ 8 ∧ (utf8 r.sender).length < 256 ^ 8 ∧
      (utf8 r.recipient).length < 256 ^ 8 ∧ (utf8 r.kind).length < 256 ^ 8 ∧
      (utf8 r.body).length < 256 ^ 8 ∧ (utf8 r.nonce).length < 256 ^ 8 ∧
      r.ts.toNat < 256 ^ 8 ∧ (if r.encrypted then 1 else 0 : UInt8).toNat < 256 ^ 1 ∧
      (utf8 r.senderPubkey).length < 256 ^ 8 ∧ (utf8 r.signature).length < 256 ^ 8))

instance : DecidablePred ConfigResponse.codec.Fits := fun r =>
  inferInstanceAs (Decidable
    ((utf8 r.messageId).length < 256 ^ 8 ∧ (utf8 r.inReplyTo).length < 256 ^ 8 ∧
      (utf8 r.sender).length < 256 ^ 8 ∧ (utf8 r.recipient).length < 256 ^ 8 ∧
      (if r.ok then 1 else 0 : UInt8).toNat < 256 ^ 1 ∧ (utf8 r.kind).length < 256 ^ 8 ∧
      (utf8 r.body).length < 256 ^ 8 ∧ (utf8 r.nonce).length < 256 ^ 8 ∧
      r.ts.toNat < 256 ^ 8 ∧ (if r.encrypted then 1 else 0 : UInt8).toNat < 256 ^ 1 ∧
      (utf8 r.senderPubkey).length < 256 ^ 8 ∧ (utf8 r.signature).length < 256 ^ 8))

theorem steady_configRequest : ConfigRequest.codec.Steady := by
  refine Codec.Steady.refine ?_
  exact .pair steady_string <| .pair steady_string <| .pair steady_string <|
    .pair steady_string <| .pair steady_string <| .pair steady_string <|
    .pair steady_u64 <| .pair steady_bool <| .pair steady_string
    steady_string

theorem steady_configResponse : ConfigResponse.codec.Steady := by
  refine Codec.Steady.refine ?_
  exact .pair steady_string <| .pair steady_string <| .pair steady_string <|
    .pair steady_string <| .pair steady_bool <| .pair steady_string <|
    .pair steady_string <| .pair steady_string <| .pair steady_u64 <|
    .pair steady_bool <| .pair steady_string steady_string

def configCodec : BincodeCodec ConfigRequest ConfigResponse where
  request := .ofCodec ConfigRequest.codec steady_configRequest
  response := .ofCodec ConfigResponse.codec steady_configResponse

/-- Two requests for a role, on a stream that has room for them, are read back. -/
theorem two_requests_read_back :
    let requests : List ConfigRequest :=
      [.plain 1000 "node-a" "node-b" "client", .plain 1001 "node-a" "node-b" "validator"]
    let written := writeEach configCodec.writeRequest ⟨[], some 1000⟩ requests
    written.2 = .ok () ∧
      readEach configCodec.readRequest 2 written.1.written = ([], requests.map Except.ok) := by
  intro requests written
  have hwritten : written.2 = .ok () := by decide +kernel
  refine ⟨hwritten, (frames_round_trip_iff configCodec ⟨[], some 1000⟩ requests hwritten).mpr ?_⟩
  intro m hm bytes hbytes
  have hsmall : ∀ m ∈ requests, ∀ bytes ∈ configCodec.request.serialize m,
      bytes.length ≤ maxFrameSize := by decide +kernel
  exact hsmall m hm bytes hbytes

/-- A request with nothing but a body, which is a text of so many letters. -/
def longRequest (n : Nat) : ConfigRequest :=
  ⟨"", "", "", "", String.ofList (replicate n 'a'), "", 0, false, "", ""⟩

theorem length_utf8_replicate (n : Nat) :
    (utf8 (String.ofList (replicate n 'a'))).length = n := by
  rw [Text.utf8_eq_flatMap, String.toList_ofList, length_flatMap, map_replicate,
    sum_replicate]
  exact Nat.mul_one n

theorem length_encode_string (s : String) : (string.encode s).length = 8 + (utf8 s).length := by
  change (littleEndian 8 (utf8 s).length ++ utf8 s).length = _
  rw [length_append, length_littleEndian]

theorem serialize_longRequest (hn : n < 256 ^ 8) :
    ∃ bytes, configCodec.request.serialize (longRequest n) = some bytes ∧
      bytes.length = n + 73 := by
  have hempty : string.Fits "" := string_fits (by decide)
  have hbody : string.Fits (String.ofList (replicate n 'a')) := by
    refine string_fits ?_
    rw [length_utf8_replicate]
    exact hn
  have hfits : ConfigRequest.codec.Fits (longRequest n) :=
    ⟨hempty, hempty, hempty, hempty, hbody, hempty, u64_fits 0, bool_fits false, hempty, hempty⟩
  refine ⟨ConfigRequest.codec.encode (longRequest n), if_pos hfits, ?_⟩
  have hnone : (string.encode "").length = 8 := by decide
  have hts : (u64.encode 0).length = 8 := by decide
  have hflag : (Bincode.bool.encode false).length = 1 := by decide
  change (string.encode "" ++ (string.encode "" ++ (string.encode "" ++ (string.encode "" ++
    (string.encode (String.ofList (replicate n 'a')) ++ (string.encode "" ++
    (u64.encode 0 ++ (Bincode.bool.encode false ++ (string.encode "" ++
    string.encode ""))))))))).length = n + 73
  simp only [length_append, hnone, hts, hflag, length_encode_string, length_utf8_replicate]
  omega

theorem write_of_unlimited (hbytes : format.serialize m = some bytes) (written : List UInt8) :
    write format ⟨written, none⟩ m = (⟨written ++ frame bytes, none⟩, .ok ()) := by
  unfold write frame
  rw [hbytes, ← append_assoc]
  rfl

theorem longRequest_refused (hn : maxFrameSize ≤ n) (hn' : n < 2 ^ 31) :
    let written := writeEach configCodec.writeRequest ⟨[], none⟩ [longRequest n]
    written.2 = .ok () ∧
      (readEach configCodec.readRequest 1 written.1.written).2
        = [.error (.invalidData (some "frame too large"))] := by
  intro written
  obtain ⟨bytes, hbytes, hlen⟩ := serialize_longRequest (n := n) (by omega)
  have hwrite : written = (⟨frame bytes, none⟩, .ok ()) := by
    have hfirst := write_of_unlimited hbytes []
    rw [nil_append] at hfirst
    unfold written writeEach BincodeCodec.writeRequest
    rw [hfirst]
    rfl
  refine ⟨by rw [hwrite], ?_⟩
  have hread : read configCodec.request (frame bytes)
      = (bytes, .error (.invalidData (some "frame too large"))) := by
    have hframe := read_frame configCodec.request bytes []
    rw [append_nil, append_nil, Nat.mod_eq_of_lt (by omega), if_pos (by omega)]
      at hframe
    exact hframe
  rw [hwrite]
  unfold readEach BincodeCodec.readRequest
  rw [hread]
  rfl

/-- A request with a body of 64 MiB is written with success and refused when it is read. -/
theorem long_request_lost :
    let written := writeEach configCodec.writeRequest ⟨[], none⟩ [longRequest maxFrameSize]
    written.2 = .ok () ∧
      (readEach configCodec.readRequest 1 written.1.written).2
        = [.error (.invalidData (some "frame too large"))] :=
  longRequest_refused (Nat.le_refl _) (by decide)

end Framing

end EssNode
