import EssNode.Lib.Bincode

/-!
# Texts and Bytes

How a program shows bytes as text: hexadecimal digits, and the lossy reading of
bytes that need not be a text. And how it takes bytes for an array of a length
known beforehand.

The lossy reading gives a text unchanged. Where the bytes are not a text, the
longest start of a sequence that cannot be completed is replaced by one
replacement character, and reading goes on behind it.
-/

namespace EssNode

open String

namespace Text

open Bincode

/-- Two digits for each byte. -/
def hexEncode (bytes : List UInt8) : String :=
  ofList
    (bytes.flatMap fun b => [Nat.digitChar (b.toNat / 16), Nat.digitChar (b.toNat % 16)])

theorem hexEncode_injective {bytes bytes' : List UInt8} (h : hexEncode bytes = hexEncode bytes') :
    bytes = bytes' := by
  have hdigit : ∀ m < 16, ∀ n < 16, Nat.digitChar m = Nat.digitChar n → m = n := by decide
  have hlist := congrArg toList h
  simp only [hexEncode, toList_ofList] at hlist
  induction bytes generalizing bytes' with
  | nil =>
    cases bytes' with
    | nil => rfl
    | cons b' bytes' => simp at hlist
  | cons b bytes ih =>
    cases bytes' with
    | nil => simp at hlist
    | cons b' bytes' =>
      simp only [List.flatMap_cons, List.cons_append, List.nil_append, List.cons.injEq]
        at hlist
      obtain ⟨hhigh, hlow, hrest⟩ := hlist
      have hb := b.toNat_lt
      have hb' := b'.toNat_lt
      have hhigh' := hdigit _ (by omega) _ (by omega) hhigh
      have hlow' := hdigit _ (by omega) _ (by omega) hlow
      have hbyte : b = b' := UInt8.toNat_inj.mp (by omega)
      rw [hbyte, ih (congrArg ofList hrest) hrest]

/-- The value of a digit; letters may have either case. -/
def hexValue (c : Char) : Option Nat :=
  if '0' ≤ c ∧ c ≤ '9' then some (c.toNat - 48)
  else if 'a' ≤ c ∧ c ≤ 'f' then some (c.toNat - 87)
  else if 'A' ≤ c ∧ c ≤ 'F' then some (c.toNat - 55)
  else none

/-- The bytes of pairs of digits, if there are only digits and none is left over. -/
def hexPairs : List Char → Option (List UInt8)
  | [] => some []
  | [_] => none
  | high :: low :: rest => do
      let high ← hexValue high
      let low ← hexValue low
      let bytes ← hexPairs rest
      some (UInt8.ofNat (16 * high + low) :: bytes)

/-- The bytes a hexadecimal text stands for. -/
def hexDecode (s : String) : Option (List UInt8) := hexPairs s.toList

variable {n : Nat} {c : Char} (bytes : List UInt8) (s : String)

theorem hexDecode_hexEncode : hexDecode (hexEncode bytes) = some bytes := by
  have hdigit : ∀ n < 16, hexValue (Nat.digitChar n) = some n := by decide
  unfold hexDecode hexEncode
  rw [toList_ofList]
  induction bytes with
  | nil => rfl
  | cons b bytes ih =>
    have hb := b.toNat_lt
    have hbyte : 16 * (b.toNat / 16) + b.toNat % 16 = b.toNat := Nat.div_add_mod b.toNat 16
    rw [List.flatMap_cons, List.cons_append, List.cons_append, List.nil_append, hexPairs,
      hdigit _ (by omega), hdigit _ (by omega), ih]
    simp only [Option.bind_eq_bind, Option.bind_some, hbyte, UInt8.ofNat_toNat]

/-- A list as an array of the given length. -/
def toArray (n : Nat) (bytes : List UInt8) : Option (Vector UInt8 n) :=
  if h : bytes.toArray.size = n then some ⟨bytes.toArray, h⟩ else none

theorem toArray_eq_none {bytes : List UInt8} (h : bytes.length ≠ n) : toArray n bytes = none := by
  rw [toArray, dif_neg (by simpa using h)]

theorem toArray_toList (v : Vector UInt8 n) : toArray n v.toList = some v := by
  have harray : v.toList.toArray = v.toArray := Array.toArray_toList
  have hsize : v.toList.toArray.size = n := by rw [harray, v.size_toArray]
  rw [toArray, dif_pos hsize]
  exact congrArg some (Vector.toArray_inj.mp harray)

/-- An array of bytes of a known length, without a length in front. -/
def array (n : Nat) : Codec (Vector UInt8 n) where
  encode v := v.toList
  decode := do
    let bs ← takeBytes n
    StateT.lift (toArray n bs)
  Fits _ := True
  decode_encode v rest _ := by
    have htake := takeBytes_append v.toList rest
    rw [Vector.length_toList] at htake
    rw [Decoder.bind_of_eq htake, Decoder.lift_of_eq (toArray_toList v)]

theorem utf8_injective {s t : String} (h : utf8 s = utf8 t) : s = t := by
  have hread := ofUtf8_utf8 s
  rw [h, ofUtf8_utf8, Option.some.injEq] at hread
  exact hread.symm

theorem utf8_eq_flatMap : utf8 s = s.toList.flatMap utf8EncodeChar := by
  unfold utf8
  rw [toUTF8, ← utf8Encode_toList, List.utf8Encode, List.data_toByteArray]

theorem length_hexEncode : (utf8 (hexEncode bytes)).length = 2 * bytes.length := by
  have hdigit : ∀ n < 16, (utf8EncodeChar (Nat.digitChar n)).length = 1 := by decide
  rw [utf8_eq_flatMap, hexEncode, toList_ofList]
  induction bytes with
  | nil => rfl
  | cons b bytes ih =>
    have hb := b.toNat_lt
    simp only [List.flatMap_cons, List.flatMap_append, List.flatMap_nil, List.length_append,
      List.length_nil, List.length_cons, ih, hdigit _ (show b.toNat / 16 < 16 by omega),
      hdigit _ (show b.toNat % 16 < 16 by omega)]
    omega

theorem utf8_append (t : String) : utf8 (s ++ t) = utf8 s ++ utf8 t := by
  rw [utf8_eq_flatMap, utf8_eq_flatMap, utf8_eq_flatMap, toList_append, List.flatMap_append]

theorem utf8_intercalate (sep : String) (parts : List String) :
    utf8 (sep.intercalate parts) = (utf8 sep).intercalate (parts.map utf8) := by
  induction parts with
  | nil => simp [utf8]
  | cons part parts ih =>
    cases parts with
    | nil => simp
    | cons part' parts =>
      rw [intercalate_cons_cons, utf8_append, utf8_append, ih]
      simp only [List.map_cons, List.intercalate_cons_cons]

/-- A character's bytes are above the ASCII range, or they are the one byte of an
    ASCII character. -/
theorem mem_utf8EncodeChar {b : UInt8} (hb : b ∈ utf8EncodeChar c) :
    128 ≤ b.toNat ∨ b.toNat = c.toNat := by
  unfold utf8EncodeChar at hb
  dsimp only at hb
  split_ifs at hb with h1 h2 h3
  · right
    rw [List.mem_singleton.mp hb, UInt8.toNat_ofNat']
    exact Nat.mod_eq_of_lt (by omega)
  -- Every byte of a longer sequence has its highest bit set.
  all_goals
    left
    simp only [List.mem_cons, List.not_mem_nil, or_false, ← UInt8.toNat_inj,
      UInt8.toNat_ofNat'] at hb
    omega

theorem ascii_mem_utf8 (hc : c.toNat < 128) (s : String) :
    UInt8.ofNat c.toNat ∈ utf8 s ↔ c ∈ s.toList := by
  have hbyte : (UInt8.ofNat c.toNat).toNat = c.toNat := by
    rw [UInt8.toNat_ofNat']
    exact Nat.mod_eq_of_lt (by omega)
  rw [utf8_eq_flatMap, List.mem_flatMap]
  constructor
  · rintro ⟨d, hd, hmem⟩
    rcases mem_utf8EncodeChar hmem with habove | hsame
    · omega
    · rw [hbyte] at hsame
      rwa [Char.toNat_inj.mp hsame]
  · intro hmem
    refine ⟨c, hmem, ?_⟩
    unfold utf8EncodeChar
    dsimp only
    rw [if_pos (show c.val.toNat ≤ 0x7f from Nat.le_of_lt_succ hc)]
    exact List.mem_singleton_self _

theorem utf8_eq_append {s t : String} {rest : List UInt8} (h : utf8 s = utf8 t ++ rest) :
    ∃ u, s = t ++ u ∧ rest = utf8 u := by
  have hencoded : t.toList.utf8Encode ++ rest.toByteArray = s.toList.utf8Encode := by
    rw [List.utf8Encode, List.utf8Encode, ← utf8_eq_flatMap, ← utf8_eq_flatMap, h,
      List.toByteArray_append]
  rcases List.isPrefix_of_utf8Encode_append_eq_utf8Encode _ hencoded with ⟨chars, hchars⟩
  have hs : s = t ++ ofList chars := by
    rw [← toList_inj, toList_append, toList_ofList, hchars]
  rw [hs, utf8_append, List.append_cancel_left_eq] at h
  exact ⟨ofList chars, hs, h.symm⟩

/-- What may follow the first byte of a longer sequence: the range of the second
    byte, and how many bytes come after it. -/
def sequenceShape (b : UInt8) : Option (UInt8 × UInt8 × Nat) :=
  if 0xC2 ≤ b ∧ b ≤ 0xDF then some (0x80, 0xBF, 0)
  else if b = 0xE0 then some (0xA0, 0xBF, 1)
  else if b = 0xED then some (0x80, 0x9F, 1)
  else if 0xE1 ≤ b ∧ b ≤ 0xEF then some (0x80, 0xBF, 1)
  else if b = 0xF0 then some (0x90, 0xBF, 2)
  else if 0xF1 ≤ b ∧ b ≤ 0xF3 then some (0x80, 0xBF, 2)
  else if b = 0xF4 then some (0x80, 0x8F, 2)
  else none

/-- How many bytes the sequence at the front takes, and whether it is complete. -/
def nextSequence : List UInt8 → Nat × Bool
  | [] => (0, true)
  | b :: rest =>
    if b < 0x80 then (1, true)
    else
      match sequenceShape b, rest with
      | some (lo, hi, more), c :: rest =>
        if lo ≤ c ∧ c ≤ hi then
          let tail := (rest.take more).takeWhile fun d => decide (0x80 ≤ d ∧ d ≤ 0xBF)
          (2 + tail.length, tail.length = more)
        else (1, false)
      | _, _ => (1, false)

/-- Read sequence by sequence, replacing those that are not complete. -/
def lossyChars : Nat → List UInt8 → List Char
  | 0, _ => []
  | fuel + 1, bytes =>
    if bytes.isEmpty then []
    else
      let next := nextSequence bytes
      let chars :=
        if next.2 then ((ofUtf8 (bytes.take next.1)).getD "").toList else [Char.ofNat 0xFFFD]
      chars ++ lossyChars fuel (bytes.drop next.1)

/-- Bytes as a text. A sequence takes a byte at least, so there are no more of
    them than bytes. -/
def utf8Lossy (bytes : List UInt8) : String :=
  (ofUtf8 bytes).getD (ofList (lossyChars bytes.length bytes))

theorem utf8Lossy_utf8 : utf8Lossy (utf8 s) = s := by
  rw [utf8Lossy, ofUtf8_utf8, Option.getD_some]

end Text

end EssNode
