import EssNode.Lib.FinMap

/-!
# A Fixed-Width Binary Format

The wire format of version 1 of bincode: fields in order, integers as
little-endian words of their full width, lengths and counts as 64-bit words, the
variant of an enumeration as a 32-bit word, and one byte in front of an optional
value.

A `Decoder` reads a value from the front of a byte string and leaves the rest.
A `Codec` is an encoder with a decoder that undoes it, whatever follows the
encoded value. Lengths have 64 bits on the wire, so a codec comes with the
condition `Fits` under which a value can be written; it is a bound on lengths and
holds of every value a program can hold in memory.

`deserialize` ignores what follows the value, as the library's function of that
name does.
-/

namespace EssNode

open List

namespace Bincode

/-- Read a value from the front of a byte string and return the rest. -/
abbrev Decoder (α : Type) := StateT (List UInt8) Option α

namespace Decoder

variable {α β : Type}

variable {input rest : List UInt8} {d : Decoder α} {a : α}

theorem bind_of_eq {f : α → Decoder β}
    (h : d input = some (a, rest)) : (d >>= f) input = f a rest := by
  change (d input).bind (fun r => f r.1 r.2) = f a rest
  rw [h, Option.bind_some]

theorem bind_eq_some {f : α → Decoder β} {r : β × List UInt8} (h : (d >>= f) input = some r) :
    ∃ a rest, d input = some (a, rest) ∧ f a rest = some r := by
  change (d input).bind (fun r => f r.1 r.2) = some r at h
  obtain ⟨⟨a, rest⟩, hd, hf⟩ := Option.bind_eq_some_iff.mp h
  exact ⟨a, rest, hd, hf⟩

theorem map_of_eq {f : α → β}
    (h : d input = some (a, rest)) : (f <$> d) input = some (f a, rest) := by
  change (d input).bind (fun r => some (f r.1, r.2)) = some (f a, rest)
  rw [h, Option.bind_some]

theorem map_eq_some {f : α → β} {b : β}
    (h : (f <$> d) input = some (b, rest)) : ∃ a, d input = some (a, rest) ∧ f a = b := by
  change (d input).bind (fun r => some (f r.1, r.2)) = some (b, rest) at h
  obtain ⟨⟨a, rest'⟩, hd, hf⟩ := Option.bind_eq_some_iff.mp h
  obtain ⟨hb, rfl⟩ := Prod.mk.inj (Option.some.inj hf)
  exact ⟨a, hd, hb⟩

theorem pure_apply (a : α) (input : List UInt8) : (pure a : Decoder α) input = some (a, input) :=
  rfl

theorem lift_of_eq {a? : Option α} (h : a? = some a) :
    (StateT.lift a? : Decoder α) input = some (a, input) := by
  rw [h]
  rfl

end Decoder

/-- The `w` low bytes of a number, least significant first. -/
def littleEndian : Nat → Nat → List UInt8
  | 0, _ => []
  | w + 1, n => UInt8.ofNat (n % 256) :: littleEndian w (n / 256)

/-- The number with the given bytes, least significant first. -/
def ofLittleEndian : List UInt8 → Nat
  | [] => 0
  | b :: bs => b.toNat + 256 * ofLittleEndian bs

@[simp] theorem length_littleEndian (w n : Nat) : (littleEndian w n).length = w := by
  induction w generalizing n with
  | zero => rfl
  | succ w ih => simp [littleEndian, ih]

theorem ofLittleEndian_littleEndian (w n : Nat) (h : n < 256 ^ w) :
    ofLittleEndian (littleEndian w n) = n := by
  induction w generalizing n with
  | zero =>
    simp at h
    simp [littleEndian, ofLittleEndian, h]
  | succ w ih =>
    have hdiv : n / 256 < 256 ^ w := by
      rw [Nat.pow_succ] at h
      omega
    have hbyte : (UInt8.ofNat (n % 256)).toNat = n % 256 := by
      rw [UInt8.toNat_ofNat']
      omega
    unfold littleEndian ofLittleEndian
    rw [ih (n / 256) hdiv, hbyte]
    omega

theorem littleEndian_add (v w n : Nat) :
    littleEndian (v + w) n = littleEndian v n ++ littleEndian w (n / 256 ^ v) := by
  induction v generalizing n with
  | zero => simp [littleEndian]
  | succ v ih =>
    rw [show v + 1 + w = v + w + 1 by omega, littleEndian, littleEndian, ih, cons_append,
      Nat.div_div_eq_div_mul, Nat.pow_succ']

theorem ofLittleEndian_append (as bs : List UInt8) :
    ofLittleEndian (as ++ bs) = ofLittleEndian as + 256 ^ as.length * ofLittleEndian bs := by
  induction as with
  | nil => simp [ofLittleEndian]
  | cons a as ih =>
    rw [cons_append, ofLittleEndian, ofLittleEndian, ih, length_cons, Nat.pow_succ,
      Nat.mul_add, ← Nat.add_assoc, ← Nat.mul_assoc, Nat.mul_comm 256 (256 ^ _)]

theorem ofLittleEndian_lt (bs : List UInt8) : ofLittleEndian bs < 256 ^ bs.length := by
  induction bs with
  | nil => decide
  | cons b bs ih =>
    have hb := b.toNat_lt
    rw [ofLittleEndian, length_cons, Nat.pow_succ]
    omega

variable {w n : Nat} {input bs rest : List UInt8} {s : String}

theorem ofLittleEndian_eq_zero (h : ∀ b ∈ bs, b = 0) : ofLittleEndian bs = 0 := by
  induction bs with
  | nil => rfl
  | cons b bs ih =>
    rw [ofLittleEndian, h b (by simp), ih fun x hx => h x (by simp [hx])]
    rfl

theorem le_ofLittleEndian (h : ∀ b ∈ bs, (32 : UInt8) ≤ b) :
    32 * 256 ^ bs.length ≤ 255 * ofLittleEndian bs + 32 := by
  induction bs with
  | nil => simp
  | cons b bs ih =>
    have hb : 32 ≤ b.toNat := h b (by simp)
    have hbs := ih fun x hx => h x (by simp [hx])
    rw [ofLittleEndian, length_cons, Nat.pow_succ]
    omega

/-- Take exactly `n` bytes. -/
def takeBytes (n : Nat) : Decoder (List UInt8) := fun input =>
  if n ≤ input.length then some (input.take n, input.drop n) else none

theorem takeBytes_append (bs rest : List UInt8) :
    takeBytes bs.length (bs ++ rest) = some (bs, rest) := by
  unfold takeBytes
  rw [if_pos (by simp), take_left, drop_left]

theorem takeBytes_eq_some (h : takeBytes n input = some (bs, rest)) :
    input = bs ++ rest ∧ bs.length = n := by
  unfold takeBytes at h
  split at h
  · rename_i hle
    obtain ⟨rfl, rfl⟩ := Prod.mk.inj (Option.some.inj h)
    exact ⟨(take_append_drop n input).symm, by simp [hle]⟩
  · exact absurd h (by simp)

/-- An encoder with a decoder that undoes it on the values that fit. -/
structure Codec (α : Type) where
  encode : α → List UInt8
  decode : Decoder α
  Fits : α → Prop
  decode_encode : ∀ a rest, Fits a → decode (encode a ++ rest) = some (a, rest)

namespace Codec

variable {α β : Type}

/-- The bytes of a value. -/
def serialize (c : Codec α) (a : α) : List UInt8 := c.encode a

/-- The value at the front of the bytes, whatever follows it. -/
def deserialize (c : Codec α) (input : List UInt8) : Option α := (c.decode input).map Prod.fst

theorem deserialize_serialize (c : Codec α) {a : α} (h : c.Fits a) :
    c.deserialize (c.serialize a) = some a := by
  have hdec := c.decode_encode a [] h
  rw [append_nil] at hdec
  unfold deserialize serialize
  rw [hdec, Option.map_some]

variable {rest input : List UInt8}

theorem encode_cancel (c : Codec α) {a b : α} (ha : c.Fits a) (hb : c.Fits b) {rest' : List UInt8}
    (h : c.encode a ++ rest = c.encode b ++ rest') :
    a = b ∧ rest = rest' := by
  have hread := c.decode_encode a rest ha
  rw [h, c.decode_encode b rest' hb, Option.some.injEq, Prod.mk.injEq] at hread
  exact ⟨hread.1.symm, hread.2.symm⟩

/-- A codec for the values some of the decoded ones stand for. -/
def refine (c : Codec α) (read : α → Option β) (write : β → α)
    (h : ∀ b, read (write b) = some b) : Codec β where
  encode b := c.encode (write b)
  decode := do
    let a ← c.decode
    StateT.lift (read a)
  Fits b := c.Fits (write b)
  decode_encode b rest hb := by
    rw [Decoder.bind_of_eq (c.decode_encode (write b) rest hb), Decoder.lift_of_eq (h b)]

theorem refine_deserialize_of_none (c : Codec α) {read : α → Option β} {write : β → α}
    {h : ∀ b, read (write b) = some b} (hnone : c.decode input = none) :
    (c.refine read write h).deserialize input = none := by
  change ((c.decode input).bind fun r => (StateT.lift (read r.1) : Decoder β) r.2).map _ = none
  rw [hnone, Option.bind_none, Option.map_none]

/-- One value after the other. -/
def pair (c : Codec α) (d : Codec β) : Codec (α × β) where
  encode p := c.encode p.1 ++ d.encode p.2
  decode := do
    let a ← c.decode
    let b ← d.decode
    pure (a, b)
  Fits p := c.Fits p.1 ∧ d.Fits p.2
  decode_encode p rest hp := by
    rw [append_assoc, Decoder.bind_of_eq (c.decode_encode p.1 _ hp.1),
      Decoder.bind_of_eq (d.decode_encode p.2 rest hp.2), Decoder.pure_apply]

theorem refine_decode_eq_some {c : Codec α} {read : α → Option β} {write : β → α}
    {h : ∀ b, read (write b) = some b} {b : β}
    (hdecode : (c.refine read write h).decode input = some (b, rest)) :
    ∃ a, c.decode input = some (a, rest) ∧ read a = some b := by
  obtain ⟨a, rest', hc, hread⟩ := Decoder.bind_eq_some hdecode
  cases hb : read a with
  | none =>
    rw [hb] at hread
    exact absurd hread (by simp [StateT.lift])
  | some b' =>
    rw [Decoder.lift_of_eq hb] at hread
    obtain ⟨rfl, rfl⟩ := Prod.mk.inj (Option.some.inj hread)
    exact ⟨a, hc, hb⟩

theorem pair_decode_eq_some {c : Codec α} {d : Codec β} {p : α × β}
    (h : (c.pair d).decode input = some (p, rest)) :
    ∃ mid, c.decode input = some (p.1, mid) ∧ d.decode mid = some (p.2, rest) := by
  obtain ⟨a, mid, hc, hrest⟩ := Decoder.bind_eq_some h
  obtain ⟨b, rest', hd, hpure⟩ := Decoder.bind_eq_some hrest
  obtain ⟨rfl, rfl⟩ := Prod.mk.inj (Option.some.inj hpure)
  exact ⟨mid, hc, hd⟩

/-- An optional value, behind a byte that says whether it is there. -/
def option (c : Codec α) : Codec (Option α) where
  encode
    | none => [0]
    | some a => 1 :: c.encode a
  decode
    | 0 :: rest => some (none, rest)
    | 1 :: rest => (c.decode rest).map fun r => (some r.1, r.2)
    | _ => none
  Fits a? := ∀ a, a? = some a → c.Fits a
  decode_encode a? rest h := by
    cases a? with
    | none => rfl
    | some a => simp [c.decode_encode a rest (h a rfl)]

/-- Read a given number of values. -/
def decodeN (c : Decoder α) : Nat → Decoder (List α)
  | 0 => pure []
  | n + 1 => do
      let a ← c
      let as ← decodeN c n
      pure (a :: as)

theorem decodeN_succ (c : Decoder α) (n : Nat) :
    decodeN c (n + 1) = (do let a ← c; let as ← decodeN c n; pure (a :: as)) := rfl

theorem decodeN_encode (c : Codec α) (as : List α) (rest : List UInt8) (h : ∀ a ∈ as, c.Fits a) :
    decodeN c.decode as.length (as.flatMap c.encode ++ rest) = some (as, rest) := by
  induction as with
  | nil => rfl
  | cons a as ih =>
    have ha := c.decode_encode a (as.flatMap c.encode ++ rest) (h a (by simp))
    have has := ih (fun b hb => h b (by simp [hb]))
    rw [flatMap_cons, append_assoc, length_cons, decodeN_succ,
      Decoder.bind_of_eq ha, Decoder.bind_of_eq has, Decoder.pure_apply]

theorem decodeN_takes {d : Decoder α} {k : Nat}
    (hd : ∀ input a rest, d input = some (a, rest) → k + rest.length ≤ input.length) {n : Nat}
    {as : List α} (h : decodeN d n input = some (as, rest)) :
    n * k + rest.length ≤ input.length := by
  induction n generalizing input as with
  | zero =>
    obtain ⟨-, rfl⟩ := Prod.mk.inj (Option.some.inj h)
    omega
  | succ n ih =>
    obtain ⟨a, mid, hfirst, htail⟩ := Decoder.bind_eq_some h
    obtain ⟨as', rest', hrest, hpure⟩ := Decoder.bind_eq_some htail
    obtain ⟨-, rfl⟩ := Prod.mk.inj (Option.some.inj hpure)
    have htaken := hd input a mid hfirst
    have htaken' := ih hrest
    rw [Nat.succ_mul]
    omega

end Codec

/-- A number in `w` bytes. -/
def word (w : Nat) : Codec Nat where
  encode n := littleEndian w n
  decode := do
    let bs ← takeBytes w
    pure (ofLittleEndian bs)
  Fits n := n < 256 ^ w
  decode_encode n rest h := by
    have htake := takeBytes_append (littleEndian w n) rest
    rw [length_littleEndian] at htake
    rw [Decoder.bind_of_eq htake, Decoder.pure_apply, ofLittleEndian_littleEndian w n h]

theorem word_decode_eq_some (h : (word w).decode input = some (n, rest)) :
    ∃ head, head.length = w ∧ ofLittleEndian head = n ∧ input = head ++ rest := by
  obtain ⟨head, rest', hhead, hpure⟩ := Decoder.bind_eq_some h
  obtain ⟨rfl, rfl⟩ := Prod.mk.inj (Option.some.inj hpure)
  obtain ⟨rfl, hlen⟩ := takeBytes_eq_some hhead
  exact ⟨head, hlen, rfl, rfl⟩

def u8 : Codec UInt8 :=
  (word 1).refine (fun n => some (UInt8.ofNat n)) UInt8.toNat (fun b => by simp)

def u32 : Codec UInt32 :=
  (word 4).refine (fun n => some (UInt32.ofNat n)) UInt32.toNat (fun b => by simp)

def u64 : Codec UInt64 :=
  (word 8).refine (fun n => some (UInt64.ofNat n)) UInt64.toNat (fun b => by simp)

theorem word_fits (h : n < 256 ^ w) : (word w).Fits n := h

theorem u8_fits (b : UInt8) : u8.Fits b := b.toNat_lt

theorem u32_fits (b : UInt32) : u32.Fits b := b.toNat_lt

theorem u64_fits (b : UInt64) : u64.Fits b := b.toNat_lt

/-- A truth value in one byte; other bytes than zero and one are refused. -/
def bool : Codec Bool :=
  u8.refine (fun b => if b = 0 then some false else if b = 1 then some true else none)
    (fun b => if b then 1 else 0) (fun b => by cases b <;> rfl)

theorem bool_fits (b : Bool) : bool.Fits b := u8_fits _

/-- A byte string behind its length. -/
def bytes : Codec (List UInt8) where
  encode bs := (word 8).encode bs.length ++ bs
  decode := do
    let n ← (word 8).decode
    takeBytes n
  Fits bs := bs.length < 256 ^ 8
  decode_encode bs rest h := by
    rw [append_assoc, Decoder.bind_of_eq ((word 8).decode_encode bs.length _ h),
      takeBytes_append]

theorem bytes_decode_eq_some (h : bytes.decode input = some (bs, rest)) :
    ∃ head, head.length = 8 ∧ ofLittleEndian head = bs.length ∧ input = head ++ (bs ++ rest) := by
  obtain ⟨n, tail, hword, htake⟩ := Decoder.bind_eq_some h
  obtain ⟨head, hlen, hn, rfl⟩ := word_decode_eq_some hword
  obtain ⟨rfl, hbytes⟩ := takeBytes_eq_some htake
  exact ⟨head, hlen, hn.trans hbytes.symm, rfl⟩

/-- The bytes of a text. -/
def utf8 (s : String) : List UInt8 := s.toUTF8.data.toList

/-- The text the bytes spell, if they spell one. -/
def ofUtf8 (bs : List UInt8) : Option String := String.fromUTF8? bs.toByteArray

theorem ofUtf8_utf8 (s : String) : ofUtf8 (utf8 s) = some s := by
  have hbytes : (utf8 s).toByteArray = s.toUTF8 := by
    unfold utf8
    ext1
    rw [data_toByteArray, Array.toArray_toList]
  have hvalid : s.toUTF8.IsValidUTF8 := s.isValidUTF8
  unfold ofUtf8 String.fromUTF8?
  rw [hbytes, dif_pos hvalid]
  rfl

theorem utf8_of_ofUtf8 (h : ofUtf8 bs = some s) : utf8 s = bs := by
  unfold ofUtf8 String.fromUTF8? at h
  split at h
  · obtain rfl := Option.some.inj h
    unfold utf8
    change bs.toByteArray.data.toList = bs
    rw [data_toByteArray]
  · exact absurd h (by simp)

/-- A text, as its bytes behind their number. -/
def string : Codec String := bytes.refine ofUtf8 utf8 ofUtf8_utf8

theorem string_decode_eq_some (h : string.decode input = some (s, rest)) :
    ∃ head, head.length = 8 ∧ ofLittleEndian head = (utf8 s).length
      ∧ input = head ++ (utf8 s ++ rest) := by
  obtain ⟨bs, hbytes, hread⟩ := Codec.refine_decode_eq_some h
  rw [utf8_of_ofUtf8 hread]
  exact bytes_decode_eq_some hbytes

theorem string_takes (input : List UInt8) (s : String) (rest : List UInt8)
    (h : string.decode input = some (s, rest)) : 8 + rest.length ≤ input.length := by
  obtain ⟨head, hlen, -, rfl⟩ := string_decode_eq_some h
  rw [length_append, length_append]
  omega

theorem string_fits (h : (utf8 s).length < 256 ^ 8) : string.Fits s := h

namespace Codec

variable {α β : Type}

/-- A list of values behind their number. -/
def seq (c : Codec α) : Codec (List α) where
  encode as := (word 8).encode as.length ++ as.flatMap c.encode
  decode := do
    let n ← (word 8).decode
    decodeN c.decode n
  Fits as := as.length < 256 ^ 8 ∧ ∀ a ∈ as, c.Fits a
  decode_encode as rest h := by
    rw [append_assoc, Decoder.bind_of_eq ((word 8).decode_encode as.length _ h.1),
      decodeN_encode c as rest h.2]

/-- One of two variants, behind the number of the variant. -/
def either (c : Codec α) (d : Codec β) : Codec (α ⊕ β) where
  encode
    | .inl a => (word 4).encode 0 ++ c.encode a
    | .inr b => (word 4).encode 1 ++ d.encode b
  decode := do
    let tag ← (word 4).decode
    match tag with
    | 0 => Sum.inl <$> c.decode
    | 1 => Sum.inr <$> d.decode
    | _ => StateT.lift none
  Fits
    | .inl a => c.Fits a
    | .inr b => d.Fits b
  decode_encode v rest h := by
    cases v with
    | inl a =>
      have htag := (word 4).decode_encode 0 (c.encode a ++ rest) (word_fits (by decide))
      rw [append_assoc, Decoder.bind_of_eq htag]
      exact Decoder.map_of_eq (c.decode_encode a rest h)
    | inr b =>
      have htag := (word 4).decode_encode 1 (d.encode b ++ rest) (word_fits (by decide))
      rw [append_assoc, Decoder.bind_of_eq htag]
      exact Decoder.map_of_eq (d.decode_encode b rest h)

theorem either_decode_of_tag (c : Codec α) (d : Codec β) {tag : Nat} (hfits : tag < 256 ^ 4)
    (htag : 2 ≤ tag) (rest : List UInt8) :
    (c.either d).decode ((word 4).encode tag ++ rest) = none := by
  change ((word 4).decode >>= _) _ = none
  rw [Decoder.bind_of_eq ((word 4).decode_encode tag rest hfits)]
  match tag, htag with
  | _ + 2, _ => rfl

end Codec

namespace Codec

variable {α β : Type}

/-- A value that is read takes at least `size` bytes of the input. -/
def Takes (c : Codec α) (size : α → Nat) : Prop :=
  ∀ input a rest, c.decode input = some (a, rest) → size a + rest.length ≤ input.length

variable {c : Codec α} {d : Codec β} {read : α → Option β} {write : β → α}
  {h : ∀ b, read (write b) = some b} {size : α → Nat} {size' : β → Nat}

theorem Takes.refine (hc : c.Takes size) (hsize : ∀ a b, read a = some b → size' b ≤ size a) :
    (c.refine read write h).Takes size' := by
  intro input b rest hdecode
  obtain ⟨a, hread, hb⟩ := refine_decode_eq_some hdecode
  have htaken := hc input a rest hread
  have hle := hsize a b hb
  omega

theorem Takes.pair (hc : c.Takes size) (hd : d.Takes size') :
    (c.pair d).Takes fun p => size p.1 + size' p.2 := by
  intro input p rest h
  obtain ⟨mid, hfirst, hsecond⟩ := pair_decode_eq_some h
  have htaken := hc input p.1 mid hfirst
  have htaken' := hd mid p.2 rest hsecond
  dsimp only
  omega

theorem Takes.option (hc : c.Takes fun _ => 0) : c.option.Takes fun _ => 0 := by
  intro input a? rest h
  simp only [Codec.option] at h
  split at h
  · obtain ⟨rfl, rfl⟩ := Prod.mk.inj (Option.some.inj h)
    simp
  · rename_i tail
    obtain ⟨⟨a, rest'⟩, hdecode, heq⟩ := Option.map_eq_some_iff.mp h
    obtain ⟨rfl, rfl⟩ := Prod.mk.inj heq
    have htaken := hc tail a rest' hdecode
    simp only [length_cons]
    omega
  · exact absurd h (by simp)

theorem takes_word (w : Nat) : (word w).Takes fun _ => w := by
  intro input n rest h
  obtain ⟨head, hlen, -, rfl⟩ := word_decode_eq_some h
  rw [length_append, hlen]

theorem takes_bytes : bytes.Takes length := by
  intro input bs rest h
  obtain ⟨head, _, _, rfl⟩ := bytes_decode_eq_some h
  rw [length_append, length_append]
  omega

theorem takes_u8 : u8.Takes fun _ => 0 := (takes_word 1).refine fun _ _ _ => Nat.zero_le _

theorem takes_u32 : u32.Takes fun _ => 0 := (takes_word 4).refine fun _ _ _ => Nat.zero_le _

theorem takes_u64 : u64.Takes fun _ => 0 := (takes_word 8).refine fun _ _ _ => Nat.zero_le _

theorem takes_bool : bool.Takes fun _ => 0 := takes_u8.refine fun _ _ _ => Nat.zero_le _

theorem takes_string : string.Takes fun _ => 0 := takes_bytes.refine fun _ _ _ => Nat.zero_le _

/-- Every value that is read can be written again. -/
def Rewrites (c : Codec α) : Prop := ∀ input a rest, c.decode input = some (a, rest) → c.Fits a

theorem Rewrites.refine (hc : c.Rewrites) (hwrite : ∀ a b, read a = some b → write b = a) :
    (c.refine read write h).Rewrites := by
  intro input b rest hdecode
  obtain ⟨a, hread, hb⟩ := refine_decode_eq_some hdecode
  change c.Fits (write b)
  rw [hwrite a b hb]
  exact hc input a rest hread

theorem Rewrites.pair (hc : c.Rewrites) (hd : d.Rewrites) :
    (c.pair d).Rewrites := by
  intro input p rest h
  obtain ⟨mid, hfirst, hsecond⟩ := pair_decode_eq_some h
  exact ⟨hc input p.1 mid hfirst, hd mid p.2 rest hsecond⟩

theorem rewrites_bytes : bytes.Rewrites := by
  intro input bs rest h
  obtain ⟨head, hhead, hlength, -⟩ := bytes_decode_eq_some h
  have hlt := ofLittleEndian_lt head
  rwa [hhead, hlength] at hlt

theorem rewrites_string : string.Rewrites :=
  rewrites_bytes.refine fun _ _ hread => utf8_of_ofUtf8 hread

theorem Rewrites.deserialize (hc : c.Rewrites) {input : List UInt8} {a : α}
    (h : c.deserialize input = some a) : c.Fits a := by
  obtain ⟨⟨_, rest⟩, hdecode, rfl⟩ := Option.map_eq_some_iff.mp h
  exact hc input _ rest hdecode

/-- What is read does not change when more follows. -/
def Steady (c : Codec α) : Prop := ∀ input a rest, c.decode input = some (a, rest) →
  ∀ more, c.decode (input ++ more) = some (a, rest ++ more)

theorem Steady.refine (hc : c.Steady)
    : (c.refine read write h).Steady := by
  intro input b rest hdecode more
  obtain ⟨a, hread, hb⟩ := refine_decode_eq_some hdecode
  refine (Decoder.bind_of_eq (hc input a rest hread more)).trans ?_
  rw [Decoder.lift_of_eq hb]

theorem Steady.pair (hc : c.Steady) (hd : d.Steady) :
    (c.pair d).Steady := by
  intro input p rest h more
  obtain ⟨mid, hfirst, hsecond⟩ := pair_decode_eq_some h
  refine (Decoder.bind_of_eq (hc input p.1 mid hfirst more)).trans ?_
  exact Decoder.bind_of_eq (hd mid p.2 rest hsecond more)

theorem steady_word (w : Nat) : (word w).Steady := by
  intro input n rest h more
  obtain ⟨head, hlen, rfl, rfl⟩ := word_decode_eq_some h
  have htake := takeBytes_append head (rest ++ more)
  rw [hlen] at htake
  rw [append_assoc]
  exact Decoder.bind_of_eq htake

theorem steady_u64 : u64.Steady := (steady_word 8).refine

theorem steady_bool : bool.Steady := (steady_word 1).refine.refine

theorem steady_bytes : bytes.Steady := by
  intro input bs rest h more
  obtain ⟨n, tail, hword, htake⟩ := Decoder.bind_eq_some h
  obtain ⟨rfl, hlen⟩ := takeBytes_eq_some htake
  refine (Decoder.bind_of_eq (steady_word 8 _ n _ hword more)).trans ?_
  rw [← hlen, append_assoc, takeBytes_append]

theorem steady_string : string.Steady := steady_bytes.refine

theorem Steady.whole (hc : c.Steady) {a : α} (ha : c.Fits a) {part : List UInt8}
    (hpart : part <+: c.encode a) (hread : c.deserialize part = some a) :
    part = c.encode a := by
  obtain ⟨more, hmore⟩ := hpart
  obtain ⟨⟨_, rest⟩, hdecode, rfl⟩ := Option.map_eq_some_iff.mp hread
  have hwhole := c.decode_encode _ [] ha
  rw [append_nil, ← hmore, hc part _ rest hdecode more, Option.some.injEq,
    Prod.mk.injEq] at hwhole
  have hnone : more = [] := (append_eq_nil_iff.mp hwhole.2).2
  rw [← hmore, hnone, append_nil]

theorem either_decode_eq_some {input rest : List UInt8} {v : α ⊕ β}
    (h : (c.either d).decode input = some (v, rest)) :
    ∃ head tail, input = head ++ tail ∧ head.length = 4 ∧
      match v with
      | .inl a => ofLittleEndian head = 0 ∧ c.decode tail = some (a, rest)
      | .inr b => ofLittleEndian head = 1 ∧ d.decode tail = some (b, rest) := by
  obtain ⟨tag, tail, hword, hvariant⟩ := Decoder.bind_eq_some h
  obtain ⟨head, hlen, htag, rfl⟩ := word_decode_eq_some hword
  refine ⟨head, tail, rfl, hlen, ?_⟩
  match tag, htag, hvariant with
  | 0, hzero, hvariant =>
    obtain ⟨a, hc, rfl⟩ := Decoder.map_eq_some hvariant
    exact ⟨hzero, hc⟩
  | 1, hone, hvariant =>
    obtain ⟨b, hd, rfl⟩ := Decoder.map_eq_some hvariant
    exact ⟨hone, hd⟩
  | _ + 2, _, hvariant => exact absurd hvariant (by simp [StateT.lift])

end Codec

/-- Read a finite map as its entries; an entry replaces an earlier one for the
    same key. -/
def decodeMap {K V : Type} [Ord K] [Std.TransOrd K] (key : Decoder K) (value : Decoder V) :
    Decoder (FinMap K V) := do
  let n ← (word 8).decode
  let entries ← Codec.decodeN (do pure (← key, ← value)) n
  pure (entries.foldl (fun m e => m.insert e.1 e.2) ∅)

/-- A map that is read stands behind a word that says how many entries it has, and these
    take at least the bytes of their keys. -/
theorem decodeMap_eq_some {K V : Type} [Ord K] [Std.TransOrd K] {key : Decoder K}
    {value : Decoder V} {k : Nat}
    (hkey : ∀ input a rest, key input = some (a, rest) → k + rest.length ≤ input.length)
    (hvalue : ∀ input b rest, value input = some (b, rest) → rest.length ≤ input.length)
    {input rest : List UInt8} {m : FinMap K V} (h : decodeMap key value input = some (m, rest)) :
    ∃ head tail, head.length = 8 ∧ input = head ++ tail
      ∧ ofLittleEndian head * k + rest.length ≤ tail.length := by
  obtain ⟨n, tail, hword, hentries⟩ := Decoder.bind_eq_some h
  obtain ⟨head, hlen, rfl, rfl⟩ := word_decode_eq_some hword
  obtain ⟨entries, rest', hread, hpure⟩ := Decoder.bind_eq_some hentries
  obtain ⟨-, rfl⟩ := Prod.mk.inj (Option.some.inj hpure)
  refine ⟨head, tail, hlen, rfl, Codec.decodeN_takes (fun input e rest hentry => ?_) hread⟩
  obtain ⟨a, mid, hfirst, hrest⟩ := Decoder.bind_eq_some hentry
  obtain ⟨b, rest'', hsecond, hpure⟩ := Decoder.bind_eq_some hrest
  obtain ⟨-, rfl⟩ := Prod.mk.inj (Option.some.inj hpure)
  have hkeyTaken := hkey input a mid hfirst
  have hvalueTaken := hvalue mid b rest'' hsecond
  omega

end Bincode

end EssNode
