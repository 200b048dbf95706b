import Mathlib.Data.String.Basic
import Mathlib.Tactic.NormNum

/-!
# Base64

The standard base64 text of bytes, with padding, and its strict reading: the last
group is padded to four characters and the bits the padding stands for are zero.

Three bytes are four characters. Reading a group undoes writing it because each
byte is put together again from the two characters it was spread over.
-/

namespace EssNode

namespace Base64

/-- The sixty-four digits. -/
def alphabet : List Char :=
  "ABCDEFGHIJKLMNOPQRSTUVWXYZabcdefghijklmnopqrstuvwxyz0123456789+/".toList

def digit (n : Nat) : Char := alphabet.getD n 'A'

def value (c : Char) : Option Nat := alphabet.findIdx? (· == c)

theorem value_digit (n : Nat) (h : n < 64) : value (digit n) = some n ∧ digit n ≠ '=' := by
  have hall : ∀ m < 64, value (digit m) = some m ∧ digit m ≠ '=' := by decide +kernel
  exact hall n h

/-- The characters of bytes, group by group. -/
def encodeChars : List UInt8 → List Char
  | [] => []
  | [a] => [digit (a.toNat / 4), digit (a.toNat % 4 * 16), '=', '=']
  | [a, b] =>
    [digit (a.toNat / 4), digit (a.toNat % 4 * 16 + b.toNat / 16), digit (b.toNat % 16 * 4), '=']
  | a :: b :: c :: rest =>
    digit (a.toNat / 4) :: digit (a.toNat % 4 * 16 + b.toNat / 16) ::
      digit (b.toNat % 16 * 4 + c.toNat / 64) :: digit (c.toNat % 64) :: encodeChars rest

/-- The bytes two neighbouring values of a group are spread over. -/
def firstByte (x y : Nat) : UInt8 := UInt8.ofNat (x * 4 + y / 16)

def secondByte (y z : Nat) : UInt8 := UInt8.ofNat (y % 16 * 16 + z / 4)

def thirdByte (z w : Nat) : UInt8 := UInt8.ofNat (z % 4 * 64 + w)

/-- The bytes of characters. Only the last group may be padded. -/
def decodeChars : List Char → Option (List UInt8)
  | [] => some []
  | a :: b :: c :: d :: rest => do
      let x ← value a
      let y ← value b
      if d = '=' then
        if rest ≠ [] then none
        else if c = '=' then (if y % 16 = 0 then some [firstByte x y] else none)
        else
          let z ← value c
          if z % 4 = 0 then some [firstByte x y, secondByte y z] else none
      else
        let z ← value c
        let w ← value d
        let bytes ← decodeChars rest
        some (firstByte x y :: secondByte y z :: thirdByte z w :: bytes)
  | _ => none

theorem firstByte_eq (a : UInt8) (low : Nat) (h : low < 16) :
    firstByte (a.toNat / 4) (a.toNat % 4 * 16 + low) = a := by
  have hsum : a.toNat / 4 * 4 + (a.toNat % 4 * 16 + low) / 16 = a.toNat := by omega
  rw [firstByte, hsum, UInt8.ofNat_toNat]

theorem secondByte_eq (high : Nat) (b : UInt8) (low : Nat) (h : low < 4) :
    secondByte (high * 16 + b.toNat / 16) (b.toNat % 16 * 4 + low) = b := by
  have hb := b.toNat_lt
  have hsum : (high * 16 + b.toNat / 16) % 16 * 16 + (b.toNat % 16 * 4 + low) / 4 = b.toNat := by
    omega
  rw [secondByte, hsum, UInt8.ofNat_toNat]

theorem thirdByte_eq (high : Nat) (c : UInt8) :
    thirdByte (high * 4 + c.toNat / 64) (c.toNat % 64) = c := by
  have hc := c.toNat_lt
  have hsum : (high * 4 + c.toNat / 64) % 4 * 64 + c.toNat % 64 = c.toNat := by omega
  rw [thirdByte, hsum, UInt8.ofNat_toNat]

theorem decodeChars_encodeChars (bytes : List UInt8) :
    decodeChars (encodeChars bytes) = some bytes := by
  induction bytes using encodeChars.induct with
  | case1 => rfl
  | case2 a =>
    have ha := a.toNat_lt
    have hx := value_digit (a.toNat / 4) (by omega)
    have hy := value_digit (a.toNat % 4 * 16) (by omega)
    have hfirst := firstByte_eq a 0 (by omega)
    rw [Nat.add_zero] at hfirst
    simp [encodeChars, decodeChars, hx.1, hy.1, hfirst]
  | case3 a b =>
    have ha := a.toNat_lt
    have hb := b.toNat_lt
    have hx := value_digit (a.toNat / 4) (by omega)
    have hy := value_digit (a.toNat % 4 * 16 + b.toNat / 16) (by omega)
    have hz := value_digit (b.toNat % 16 * 4) (by omega)
    have hfirst := firstByte_eq a (b.toNat / 16) (by omega)
    have hsecond := secondByte_eq (a.toNat % 4) b 0 (by omega)
    rw [Nat.add_zero] at hsecond
    simp [encodeChars, decodeChars, hx.1, hy.1, hz.1, hz.2, hfirst, hsecond]
  | case4 a b c rest ih =>
    have ha := a.toNat_lt
    have hb := b.toNat_lt
    have hc := c.toNat_lt
    have hx := value_digit (a.toNat / 4) (by omega)
    have hy := value_digit (a.toNat % 4 * 16 + b.toNat / 16) (by omega)
    have hz := value_digit (b.toNat % 16 * 4 + c.toNat / 64) (by omega)
    have hw := value_digit (c.toNat % 64) (by omega)
    have hfirst := firstByte_eq a (b.toNat / 16) (by omega)
    have hsecond := secondByte_eq (a.toNat % 4) b (c.toNat / 64) (by omega)
    have hthird := thirdByte_eq (b.toNat % 16) c
    simp [encodeChars, decodeChars, hx.1, hy.1, hz.1, hw.1, hw.2, hfirst, hsecond, hthird, ih]

/-- The text of bytes. -/
def encode (bytes : List UInt8) : String := String.ofList (encodeChars bytes)

/-- The bytes of a text. -/
def decode (text : String) : Option (List UInt8) := decodeChars text.toList

theorem decode_encode (bytes : List UInt8) : decode (encode bytes) = some bytes := by
  rw [decode, encode, String.toList_ofList, decodeChars_encodeChars]

theorem mem_alphabet_of_value {c : Char} {n : Nat} (h : value c = some n) : c ∈ alphabet := by
  by_contra hc
  have hnone : value c = none :=
    List.findIdx?_eq_none_iff.mpr fun d hd => beq_eq_false_iff_ne.mpr fun heq => hc (heq ▸ hd)
  exact Option.some_ne_none n (h.symm.trans hnone)

/-- Only digits and padding are read. -/
theorem mem_of_decodeChars {chars : List Char} {bytes : List UInt8}
    (h : decodeChars chars = some bytes) : ∀ c ∈ chars, c ∈ alphabet ∨ c = '=' := by
  induction chars using decodeChars.induct generalizing bytes with
  | case1 => simp
  | case2 a b c d rest ih =>
    rw [decodeChars] at h
    simp only [Option.bind_eq_bind, Option.bind_eq_some_iff] at h
    obtain ⟨x, hx, y, hy, h⟩ := h
    have ha := mem_alphabet_of_value hx
    have hb := mem_alphabet_of_value hy
    split_ifs at h with hd hrest hc hlow
    · simp_all
    · obtain ⟨z, hz, -⟩ := Option.bind_eq_some_iff.mp h
      simp_all [mem_alphabet_of_value hz]
    · obtain ⟨z, hz, h⟩ := Option.bind_eq_some_iff.mp h
      obtain ⟨w, hw, h⟩ := Option.bind_eq_some_iff.mp h
      obtain ⟨others, hothers, -⟩ := Option.bind_eq_some_iff.mp h
      have hcd := And.intro (mem_alphabet_of_value hz) (mem_alphabet_of_value hw)
      simpa [ha, hb, hcd] using ih hothers
  | case3 chars hne hshort => exact absurd h (by simp [decodeChars])

theorem colon_notMem_of_decode {text : String} {bytes : List UInt8}
    (h : decode text = some bytes) : ':' ∉ text.toList := by
  intro hcolon
  rcases mem_of_decodeChars h ':' hcolon with hdigit | hpad
  · exact absurd hdigit (by decide +kernel)
  · exact absurd hpad (by decide)

end Base64

end EssNode
