import EssNode.Lib.Text

/-!
# JSON Texts of Records

The compact JSON text of a record of bytes and texts: no spaces, the members in
the order of declaration, bytes as an array of numbers, and control characters,
quotes and backslashes escaped in texts.

The texts are written as bytes, and each writer comes with a reader of what it
writes, as a codec. Members need no mark of their own to be told apart: an array
ends with its bracket and a text with its quote, so a record's codec is put
together from those of its members. This is not a reader of every JSON text.

No control character is ever written (`Printable`). That is what tells a JSON
text from the words of a binary format. For records with numbers, lists and maps in
them there are writers alone (`array`, `object`), of which the same holds (`Clear`).
-/

namespace EssNode

open List

namespace Json

open Bincode Text

variable {α β : Type} (n : Nat) {c : Codec α} {xs ys : List String} {items : List (List UInt8)}
  (b : UInt8) (bs rest : List UInt8)

/-- A fixed piece of text. -/
def literal (text : String) : Codec Unit where
  encode _ := utf8 text
  decode input :=
    if (utf8 text).isPrefixOf input then some ((), input.drop (utf8 text).length) else none
  Fits _ := True
  decode_encode _ rest _ := by
    rw [if_pos (List.isPrefixOf_iff_prefix.mpr (prefix_append _ rest)), drop_left]

/-- A value behind a fixed piece of text. -/
def after (text : String) (c : Codec α) : Codec α :=
  ((literal text).pair c).refine (fun p => some p.2) (fun a => ((), a)) (fun _ => rfl)

theorem after_encode (text : String) (c : Codec α) (a : α) :
    (after text c).encode a = utf8 text ++ c.encode a := rfl

/-! ### Arrays of bytes -/

/-- A byte in decimal. -/
def numeral (b : UInt8) : List UInt8 :=
  (Nat.toDigits 10 b.toNat).map fun c => UInt8.ofNat c.toNat

/-- The byte the digits stand for. -/
def readNumeral (digits : List UInt8) : Option UInt8 :=
  let n := digits.foldl (fun n d => 10 * n + (d.toNat - 48)) 0
  if digits ≠ [] ∧ digits.all (fun d => 48 ≤ d && d ≤ 57) ∧ n < 256 then some (UInt8.ofNat n)
  else none

theorem forall_byte {P : UInt8 → Prop} (h : ∀ n < 256, P (UInt8.ofNat n)) (b : UInt8) : P b := by
  have hb := h b.toNat b.toNat_lt
  rwa [UInt8.ofNat_toNat] at hb

theorem readNumeral_numeral : readNumeral (numeral b) = some b :=
  forall_byte (P := fun b => readNumeral (numeral b) = some b) (by decide +kernel) b

theorem numeral_digits : numeral b ≠ [] ∧ ∀ d ∈ numeral b, 48 ≤ d ∧ d ≤ 57 := by
  -- As a check of the list: a search for bytes outside it would not be short.
  have hall : numeral b ≠ [] ∧ (numeral b).all (fun d => 48 ≤ d && d ≤ 57) = true :=
    forall_byte
      (P := fun b => numeral b ≠ [] ∧ (numeral b).all (fun d => 48 ≤ d && d ≤ 57) = true)
      (by decide +kernel) b
  simpa only [all_eq_true, Bool.and_eq_true, decide_eq_true_eq] using hall

/-- The numerals of bytes, with commas between. -/
def numerals (bs : List UInt8) : List UInt8 := [44].intercalate (bs.map numeral)

/-- The bytes of numerals with commas between. -/
def readNumerals (text : List UInt8) : Option (List UInt8) :=
  if text = [] then some [] else (text.splitOn 44).mapM readNumeral

theorem mapM_readNumeral : (bs.map numeral).mapM readNumeral = some bs := by
  induction bs with
  | nil => rfl
  | cons b bs ih => simp [readNumeral_numeral, ih]

theorem mem_numerals {bs : List UInt8} {x : UInt8} (hx : x ∈ numerals bs) :
    x = 44 ∨ (48 ≤ x ∧ x ≤ 57) := by
  induction bs with
  | nil => simp [numerals] at hx
  | cons b bs ih =>
    cases bs with
    | nil =>
      simp only [numerals, map_cons, map_nil, intercalate_singleton] at hx
      exact Or.inr ((numeral_digits b).2 x hx)
    | cons b' bs =>
      rw [numerals, map_cons, map_cons, intercalate_cons_cons,
        mem_append, mem_append] at hx
      rcases hx with (hx | hx) | hx
      · exact Or.inr ((numeral_digits b).2 x hx)
      · exact Or.inl (mem_singleton.mp hx)
      · exact ih hx

theorem length_le_numerals : bs.length ≤ (numerals bs).length := by
  induction bs with
  | nil => simp
  | cons b bs ih =>
    have hb := length_pos_iff.mpr (numeral_digits b).1
    cases bs with
    | nil => simpa [numerals, Nat.succ_le_iff] using hb
    | cons b' bs =>
      rw [numerals, map_cons, map_cons, intercalate_cons_cons,
        length_append, length_append]
      rw [numerals, map_cons] at ih
      simp only [length_cons, length_nil] at ih ⊢
      omega

theorem readNumerals_numerals : readNumerals (numerals bs) = some bs := by
  cases bs with
  | nil => rfl
  | cons b bs =>
    have hne : numerals (b :: bs) ≠ [] := by
      have := length_le_numerals (b :: bs)
      rw [← length_pos_iff]
      exact Nat.lt_of_lt_of_le (by simp) this
    have hfree : ∀ l ∈ (b :: bs).map numeral, (44 : UInt8) ∉ l := by
      intro l hl hcomma
      obtain ⟨d, _, rfl⟩ := mem_map.mp hl
      exact absurd ((numeral_digits d).2 44 hcomma).1 (by decide)
    rw [readNumerals, if_neg hne, numerals, splitOn_intercalate _ hfree (by simp),
      mapM_readNumeral]

/-- Bytes as an array of numbers. -/
def byteArray : Codec (List UInt8) where
  encode bs := 91 :: numerals bs ++ [93]
  decode
    | [] => none
    | b :: rest =>
      if b = 91 then
        match rest.dropWhile (· ≠ 93) with
        | _ :: tail => (readNumerals (rest.takeWhile (· ≠ 93))).map fun bs => (bs, tail)
        | [] => none
      else none
  Fits _ := True
  decode_encode bs rest _ := by
    have hfree : ∀ x ∈ numerals bs, decide (x ≠ 93) = true := by
      intro x hx
      rw [decide_eq_true_eq]
      rintro rfl
      rcases mem_numerals hx with h | h
      · exact absurd h (by decide)
      · exact absurd h.2 (by decide)
    have hdrop : (numerals bs ++ 93 :: rest).dropWhile (· ≠ 93) = 93 :: rest := by
      rw [dropWhile_append_of_pos hfree, dropWhile_cons_of_neg (by decide)]
    have htake : (numerals bs ++ 93 :: rest).takeWhile (· ≠ 93) = numerals bs := by
      rw [takeWhile_append_of_pos hfree, takeWhile_cons_of_neg (by decide),
        append_nil]
    rw [cons_append, cons_append, append_assoc, singleton_append]
    dsimp only
    rw [if_pos rfl, hdrop, htake, readNumerals_numerals]
    rfl

/-! ### Texts -/

/-- A digit of the lower-case hexadecimal escapes. -/
def hexDigit (n : UInt8) : UInt8 := if n < 10 then 48 + n else 87 + n

def hexValue (d : UInt8) : UInt8 := if d ≤ 57 then d - 48 else d - 87

/-- A byte of a text inside quotes. -/
def escapeByte (b : UInt8) : List UInt8 :=
  if b = 34 then [92, 34]
  else if b = 92 then [92, 92]
  else if b = 8 then [92, 98]
  else if b = 9 then [92, 116]
  else if b = 10 then [92, 110]
  else if b = 12 then [92, 102]
  else if b = 13 then [92, 114]
  else if b < 32 then [92, 117, 48, 48, hexDigit (b / 16), hexDigit (b % 16)]
  else [b]

/-- The byte a short escape stands for. -/
def unescape (c : UInt8) : UInt8 :=
  if c = 98 then 8
  else if c = 116 then 9
  else if c = 110 then 10
  else if c = 102 then 12
  else if c = 114 then 13
  else c

/-- Read up to the closing quote. -/
def readEscaped : List UInt8 → Option (List UInt8 × List UInt8)
  | [] => none
  | 34 :: rest => some ([], rest)
  | 92 :: 117 :: _ :: _ :: high :: low :: rest =>
    (readEscaped rest).map fun r => ((16 * hexValue high + hexValue low) :: r.1, r.2)
  | 92 :: c :: rest => (readEscaped rest).map fun r => (unescape c :: r.1, r.2)
  | b :: rest => (readEscaped rest).map fun r => (b :: r.1, r.2)

theorem escapeByte_printable : escapeByte b ≠ [] ∧ ∀ x ∈ escapeByte b, 32 ≤ x := by
  have hall : escapeByte b ≠ [] ∧ (escapeByte b).all (fun x => 32 ≤ x) = true :=
    forall_byte (P := fun b => escapeByte b ≠ [] ∧ (escapeByte b).all (fun x => 32 ≤ x) = true)
      (by decide +kernel) b
  simpa only [all_eq_true, decide_eq_true_eq] using hall

theorem hexValue_hexDigit (h : b < 32) :
    16 * hexValue (hexDigit (b / 16)) + hexValue (hexDigit (b % 16)) = b :=
  forall_byte (P := fun b =>
    b < 32 → 16 * hexValue (hexDigit (b / 16)) + hexValue (hexDigit (b % 16)) = b)
    (by decide +kernel) b h

theorem readEscaped_escapeByte :
    readEscaped (escapeByte b ++ rest) = (readEscaped rest).map fun r => (b :: r.1, r.2) := by
  by_cases hshort : b = 34 ∨ b = 92 ∨ b = 8 ∨ b = 9 ∨ b = 10 ∨ b = 12 ∨ b = 13
  · rcases hshort with rfl | rfl | rfl | rfl | rfl | rfl | rfl <;> rfl
  · simp only [not_or] at hshort
    obtain ⟨h34, h92, h8, h9, h10, h12, h13⟩ := hshort
    unfold escapeByte
    rw [if_neg h34, if_neg h92, if_neg h8, if_neg h9, if_neg h10, if_neg h12, if_neg h13]
    split
    · rename_i hcontrol
      rw [cons_append, cons_append, cons_append, cons_append,
        cons_append, cons_append, nil_append, readEscaped,
        hexValue_hexDigit b hcontrol]
    · rw [singleton_append, readEscaped]
      · exact h34
      · exact fun _ _ _ _ _ h _ => h92 h
      · exact fun _ _ h _ => h92 h

theorem readEscaped_escaped :
    readEscaped (bs.flatMap escapeByte ++ 34 :: rest) = some (bs, rest) := by
  induction bs with
  | nil => rfl
  | cons b bs ih =>
    rw [flatMap_cons, append_assoc, readEscaped_escapeByte, ih, Option.map_some]

/-- A text in quotes. -/
def string : Codec String where
  encode s := 34 :: (utf8 s).flatMap escapeByte ++ [34]
  decode
    | [] => none
    | b :: rest =>
      if b = 34 then do
        let (bs, rest) ← readEscaped rest
        let s ← ofUtf8 bs
        some (s, rest)
      else none
  Fits _ := True
  decode_encode s rest _ := by
    rw [cons_append, cons_append, append_assoc, singleton_append]
    dsimp only
    rw [if_pos rfl, readEscaped_escaped]
    simp only [Option.bind_eq_bind, Option.bind_some, ofUtf8_utf8]

/-! ### What is written -/

/-- No control character is written. -/
def Printable (c : Codec α) : Prop := ∀ a, ∀ b ∈ c.encode a, (32 : UInt8) ≤ b

theorem printable_literal {text : String} (htext : (utf8 text).all (fun b => 32 ≤ b) = true) :
    Printable (literal text) :=
  fun _ b hb => of_decide_eq_true (all_eq_true.mp htext b hb)

theorem Printable.after (hc : Printable c) {text : String}
    (htext : (utf8 text).all (fun b => 32 ≤ b) = true) : Printable (after text c) := by
  intro a b hb
  rw [after_encode, mem_append] at hb
  exact hb.elim (printable_literal htext () b) (hc a b)

theorem Printable.pair {d : Codec β} (hc : Printable c) (hd : Printable d) :
    Printable (c.pair d) := by
  intro p b hb
  exact (mem_append.mp hb).elim (hc p.1 b) (hd p.2 b)

theorem printable_byteArray : Printable byteArray := by
  intro bs b hb
  rcases mem_append.mp hb with hb | hb
  · rcases mem_cons.mp hb with rfl | hb
    · decide
    · rcases mem_numerals hb with rfl | hdigit
      · decide
      · exact UInt8.le_trans (by decide) hdigit.1
  · rw [mem_singleton.mp hb]
    decide

theorem printable_string : Printable string := by
  intro s b hb
  rcases mem_append.mp hb with hb | hb
  · rcases mem_cons.mp hb with rfl | hb
    · decide
    · obtain ⟨x, _, hx⟩ := mem_flatMap.mp hb
      exact (escapeByte_printable x).2 b hx
  · rw [mem_singleton.mp hb]
    decide

theorem length_le_byteArray : bs.length ≤ (byteArray.encode bs).length := by
  have hlen := length_le_numerals bs
  change _ ≤ (91 :: numerals bs ++ [93]).length
  rw [length_append, length_cons]
  omega

theorem length_le_escaped : bs.length ≤ (bs.flatMap escapeByte).length := by
  induction bs with
  | nil => simp
  | cons b bs ih =>
    have hb := length_pos_iff.mpr (escapeByte_printable b).1
    rw [flatMap_cons, length_append, length_cons]
    omega

theorem length_le_string (s : String) : (utf8 s).length ≤ (string.encode s).length := by
  have hlen := length_le_escaped (utf8 s)
  change _ ≤ (34 :: (utf8 s).flatMap escapeByte ++ [34]).length
  rw [length_append, length_cons]
  omega

/-! ### Other values -/

/-- Bytes without a control character. -/
def Clear (text : List UInt8) : Prop := ∀ b ∈ text, (32 : UInt8) ≤ b

/-- A number in decimal. -/
def decimal (n : Nat) : List UInt8 := (Nat.toDigits 10 n).map fun c => UInt8.ofNat c.toNat

def boolean (b : Bool) : List UInt8 := utf8 (if b then "true" else "false")

/-- Texts with commas between. -/
def separated (items : List (List UInt8)) : List UInt8 := [44].intercalate items

def array (items : List (List UInt8)) : List UInt8 := 91 :: separated items ++ [93]

/-- The members of an object, or the entries of a map. -/
def object (members : List (String × List UInt8)) : List UInt8 :=
  123 :: separated (members.map fun m => string.encode m.1 ++ 58 :: m.2) ++ [125]

theorem Clear.append {text text' : List UInt8} (h : Clear text) (h' : Clear text') :
    Clear (text ++ text') :=
  fun b hb => (mem_append.mp hb).elim (h b) (h' b)

theorem Clear.cons {b : UInt8} (hb : 32 ≤ b) {text : List UInt8} (h : Clear text) :
    Clear (b :: text) := by
  intro x hx
  rcases mem_cons.mp hx with rfl | hx
  · exact hb
  · exact h x hx

theorem clear_nil : Clear [] := nofun

theorem clear_decimal : Clear (decimal n) := by
  intro b hb
  obtain ⟨c, hc, rfl⟩ := mem_map.mp hb
  have hdigit := Nat.isDigit_of_mem_toDigits (by decide) (by decide) hc
  rw [Char.isDigit_iff_toNat] at hdigit
  have hdecimal : 48 ≤ c.toNat ∧ c.toNat ≤ 57 := hdigit
  rw [UInt8.le_iff_toNat_le, UInt8.toNat_ofNat']
  change 32 ≤ _
  omega

theorem clear_boolean (b : Bool) : Clear (boolean b) := by
  have hall : (boolean b).all (fun x => 32 ≤ x) = true := by
    cases b <;> decide +kernel
  exact fun x hx => of_decide_eq_true (all_eq_true.mp hall x hx)

theorem clear_separated (h : ∀ item ∈ items, Clear item) : Clear (separated items) := by
  induction items with
  | nil => exact clear_nil
  | cons item items ih =>
    cases items with
    | nil =>
      rw [separated, intercalate_singleton]
      exact h item mem_cons_self
    | cons next items =>
      rw [separated, intercalate_cons_cons]
      refine Clear.append (Clear.append (h item mem_cons_self) ?_)
        (ih fun other hother => h other (mem_cons_of_mem _ hother))
      exact Clear.cons (by decide) clear_nil

theorem clear_array (h : ∀ item ∈ items, Clear item) : Clear (array items) :=
  ((clear_separated h).cons (by decide)).append (Clear.cons (by decide) clear_nil)

theorem clear_object {members : List (String × List UInt8)} (h : ∀ m ∈ members, Clear m.2) :
    Clear (object members) := by
  refine ((clear_separated fun item hitem => ?_).cons (by decide)).append
    (Clear.cons (by decide) clear_nil)
  obtain ⟨m, hm, rfl⟩ := mem_map.mp hitem
  have hname : Clear (string.encode m.1) := printable_string m.1
  exact hname.append ((h m hm).cons (by decide))

/-! ### What is written can be told apart -/

theorem map_decimal : (decimal n).map (fun b => Char.ofNat b.toNat) = Nat.toDigits 10 n := by
  unfold decimal
  rw [map_map]
  refine (map_congr_left fun c hc => ?_).trans (map_id _)
  have hdigit := Nat.isDigit_of_mem_toDigits (by decide) (by decide) hc
  rw [Char.isDigit_iff_toNat] at hdigit
  have hdecimal : 48 ≤ c.toNat ∧ c.toNat ≤ 57 := hdigit
  rw [Function.comp_apply, UInt8.toNat_ofNat', Nat.mod_eq_of_lt (by omega), Char.ofNat_toNat]
  rfl

theorem decimal_injective {m n : Nat} (h : decimal m = decimal n) : m = n := by
  have hdigits : Nat.toDigits 10 m = Nat.toDigits 10 n := by
    rw [← map_decimal, ← map_decimal, h]
  rw [← Nat.ofDigitChars_ten_toDigits (n := m), hdigits, Nat.ofDigitChars_ten_toDigits]

theorem separated_cons (item : List UInt8) (items : List (List UInt8)) :
    separated (item :: items) = item ++ if items = [] then [] else 44 :: separated items := by
  unfold separated
  cases items with
  | nil => simp
  | cons next items =>
    rw [intercalate_cons_cons, if_neg (cons_ne_nil _ _), append_assoc,
      singleton_append]

/-- The texts of an array, and where it ends. A text begins with a quote and ends with
    one, so the bracket and the commas are not taken for parts of it. -/
theorem separated_strings_cancel {rest rest' : List UInt8}
    (h : separated (xs.map string.encode) ++ 93 :: rest
      = separated (ys.map string.encode) ++ 93 :: rest') : xs = ys ∧ rest = rest' := by
  induction xs generalizing ys with
  | nil =>
    cases ys with
    | nil => exact ⟨rfl, (cons.inj h).2⟩
    | cons y ys =>
      rw [map_cons, separated_cons, append_assoc] at h
      have hhead : some (93 : UInt8) = some 34 := congrArg head? h
      exact absurd hhead (by decide)
  | cons x xs ih =>
    rw [map_cons, separated_cons, append_assoc] at h
    cases ys with
    | nil =>
      have hhead : some 34 = some (93 : UInt8) := congrArg head? h
      exact absurd hhead (by decide)
    | cons y ys =>
      rw [map_cons, separated_cons, append_assoc] at h
      obtain ⟨rfl, hrest⟩ := string.encode_cancel trivial trivial h
      -- What follows is the bracket or a comma, and the same for both.
      cases xs with
      | nil =>
        cases ys with
        | nil => exact ⟨rfl, (cons.inj hrest).2⟩
        | cons y' ys => exact absurd (cons.inj hrest).1 (by decide)
      | cons x' xs =>
        cases ys with
        | nil => exact absurd (cons.inj hrest).1 (by decide)
        | cons y' ys =>
          obtain ⟨hsame, hend⟩ := ih (cons.inj hrest).2
          exact ⟨congrArg (x :: ·) hsame, hend⟩

theorem array_strings_cancel {rest rest' : List UInt8}
    (h : array (xs.map string.encode) ++ rest = array (ys.map string.encode) ++ rest') :
    xs = ys ∧ rest = rest' := by
  unfold array at h
  rw [cons_append, cons_append, append_assoc, append_assoc,
    singleton_append, singleton_append] at h
  exact separated_strings_cancel (cons.inj h).2

end Json

end EssNode
