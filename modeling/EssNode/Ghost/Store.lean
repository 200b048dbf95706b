import EssNode.Lib.Separated
import EssNode.Message
import Mathlib.Data.List.DropRight

/-!
# The Ghost's File

The ghost keeps a snapshot in a file of lines, each a key and a value with an equals sign between
them. Reading splits a line at its first equals sign, trims both parts and looks at the key; what
is not a known key is passed over, and the last line of a key counts.

Only the items of the histories are escaped. Escaping is three replacements, one after the other,
and amounts to one of each character (`escapeChars_eq`), which the scan of the reader undoes
(`unescapeLine_escapeLine`). The other texts are written as they are. A line break in the name or
the role is lost in any case, since what is read comes from one line. One in the reason of the last
failure is lost as well: what is read there is unescaped, but unescaping makes no text longer, and
a line of the reason is shorter than the reason. In between it may write any field
(`injected_role`). Blanks at the ends go with trimming, an empty reason is read as none, and a
reason that was never escaped must not look as if it had been. Nothing else is lost
(`load_save_iff`).

The counts are 64-bit words. Failures of the file system are left out.
-/

namespace EssNode

open List

open Separated (terminated terminated_cons)

namespace Ghost

open String (ofList toList_ofList)

structure GhostSnapshot where
  nodeId : String := ""
  role : String := ""
  policyVersion : UInt64 := 0
  connectedPeers : UInt64 := 0
  knownPeers : UInt64 := 0
  routePeers : UInt64 := 0
  trustedPeers : UInt64 := 0
  lastBeaconTs : Option UInt64 := none
  lastSyncTs : Option UInt64 := none
  lastFailureReason : Option String := none
  healthHistory : List String := []
  decisionHistory : List String := []
  anomalies : List String := []
deriving DecidableEq, Repr

/-! ### Texts -/

/-- Replace every occurrence of a character. -/
def replaceChar (c : Char) (text : String) (chars : List Char) : List Char :=
  chars.flatMap fun d => if d = c then text.toList else [d]

def escapeChars (chars : List Char) : List Char :=
  replaceChar '=' "\\=" (replaceChar '\n' "\\n" (replaceChar '\\' "\\\\" chars))

def escapeLine (value : String) : String := ofList (escapeChars value.toList)

/-- The scan of the reader. A backslash in front of any other character stays, and so does one at
    the end. -/
def unescapeChars : List Char → List Char
  | [] => []
  | [c] => [c]
  | c :: d :: rest =>
    if c = '\\' then
      if d = 'n' then '\n' :: unescapeChars rest
      else if d = '=' then '=' :: unescapeChars rest
      else if d = '\\' then '\\' :: unescapeChars rest
      else '\\' :: d :: unescapeChars rest
    else c :: unescapeChars (d :: rest)

def unescapeLine (value : String) : String := ofList (unescapeChars value.toList)

/-- Digits, with a plus in front if one likes, of a number of 64 bits. -/
def parseU64 (value : String) : Option UInt64 :=
  let digits := if value.toList.head? = some '+' then value.toList.tail else value.toList
  let n := Nat.ofDigitChars 10 digits 0
  if digits ≠ [] ∧ digits.all Char.isDigit ∧ n < 2 ^ 64 then some (UInt64.ofNat n) else none

def stripCarriageReturn (line : List Char) : List Char :=
  if line.getLast? = some '\r' then line.dropLast else line

/-- The lines of a text. Behind the last line break there is a line only if there is something. -/
def lines (text : String) : List (List Char) :=
  let parts := text.toList.splitOn '\n'
  parts.dropLast.map stripCarriageReturn ++ parts.getLast?.toList.filter (· ≠ [])

/-! ### The Store -/

/-- What is in the file, if there is one. -/
structure GhostStore where
  file : Option String := none
deriving DecidableEq, Repr

/-- The keys and values that are written, line by line. -/
def GhostSnapshot.entries (snapshot : GhostSnapshot) : List (String × String) :=
  [("node_id", snapshot.nodeId), ("role", snapshot.role),
    ("policy_version", decimal snapshot.policyVersion),
    ("connected_peers", decimal snapshot.connectedPeers),
    ("known_peers", decimal snapshot.knownPeers),
    ("route_peers", decimal snapshot.routePeers),
    ("trusted_peers", decimal snapshot.trustedPeers),
    ("last_beacon_ts", (snapshot.lastBeaconTs.map decimal).getD ""),
    ("last_sync_ts", (snapshot.lastSyncTs.map decimal).getD ""),
    ("last_failure_reason", snapshot.lastFailureReason.getD "")] ++
  snapshot.healthHistory.map (fun item => ("health_history", escapeLine item)) ++
  snapshot.decisionHistory.map (fun item => ("decision_history", escapeLine item)) ++
  snapshot.anomalies.map (fun item => ("anomaly", escapeLine item))

def entryText (entry : String × String) : List Char := entry.1.toList ++ '=' :: entry.2.toList

/-- The effect of a line on the snapshot that is read. -/
def readField (snapshot : GhostSnapshot) (key value : String) : GhostSnapshot :=
  match key with
  | "node_id" => { snapshot with nodeId := value }
  | "role" => { snapshot with role := value }
  | "policy_version" => { snapshot with policyVersion := (parseU64 value).getD 0 }
  | "connected_peers" => { snapshot with connectedPeers := (parseU64 value).getD 0 }
  | "known_peers" => { snapshot with knownPeers := (parseU64 value).getD 0 }
  | "route_peers" => { snapshot with routePeers := (parseU64 value).getD 0 }
  | "trusted_peers" => { snapshot with trustedPeers := (parseU64 value).getD 0 }
  | "last_beacon_ts" =>
    { snapshot with lastBeaconTs := if value = "" then none else parseU64 value }
  | "last_sync_ts" => { snapshot with lastSyncTs := if value = "" then none else parseU64 value }
  | "last_failure_reason" =>
    { snapshot with
      lastFailureReason := if value = "" then none else some (unescapeLine value) }
  | "health_history" =>
    { snapshot with healthHistory := snapshot.healthHistory ++ [unescapeLine value] }
  | "decision_history" =>
    { snapshot with decisionHistory := snapshot.decisionHistory ++ [unescapeLine value] }
  | "anomaly" => { snapshot with anomalies := snapshot.anomalies ++ [unescapeLine value] }
  | _ => snapshot

def keyOf (line : List Char) : String := trim (ofList (line.takeWhile (· != '=')))

def valueOf (line : List Char) : String :=
  trim (ofList ((line.dropWhile (· != '=')).drop 1))

def readLine (snapshot : GhostSnapshot) (line : List Char) : GhostSnapshot :=
  readField snapshot (keyOf line) (valueOf line)

namespace GhostStore

def save (_self : GhostStore) (snapshot : GhostSnapshot) : GhostStore :=
  ⟨some (ofList (terminated '\n' (snapshot.entries.map entryText)))⟩

def load (self : GhostStore) : Option GhostSnapshot :=
  self.file.map fun raw => (lines raw).foldl readLine {}

end GhostStore

/-! ### Escaping -/

def escapeChar (c : Char) : List Char :=
  if c = '\\' then ['\\', '\\'] else if c = '\n' then ['\\', 'n']
  else if c = '=' then ['\\', '='] else [c]

variable (value : String) (line : List Char) (entries : List (List Char)) {key : String} {c : Char}
  (n : UInt64) (chars : List Char)

/-- No replacement touches what another one has put in. -/
theorem escapeChars_eq : escapeChars chars = chars.flatMap escapeChar := by
  simp only [escapeChars, replaceChar, flatMap_assoc]
  congr 1
  funext c
  unfold escapeChar
  split_ifs <;> simp_all

theorem unescapeChars_cons (c : Char) (rest : List Char) :
    unescapeChars (escapeChar c ++ rest) = c :: unescapeChars rest := by
  unfold escapeChar
  split_ifs <;> cases rest <;> simp_all [unescapeChars]

theorem unescapeChars_escapeChars : unescapeChars (escapeChars chars) = chars := by
  rw [escapeChars_eq]
  induction chars with
  | nil => rfl
  | cons c rest ih => rw [flatMap_cons, unescapeChars_cons, ih]

theorem unescapeLine_escapeLine : unescapeLine (escapeLine value) = value := by
  simp [unescapeLine, escapeLine, unescapeChars_escapeChars]

theorem newline_notMem_escapeLine : '\n' ∉ (escapeLine value).toList := by
  simp only [escapeLine, toList_ofList, escapeChars_eq, mem_flatMap, not_exists,
    not_and]
  intro c _
  unfold escapeChar
  split_ifs <;> simp_all [eq_comm]

/-- Every text comes back from its escaped form, which is on one line. -/
theorem escapeLine_invertible (value : String) :
    unescapeLine (escapeLine value) = value ∧ '\n' ∉ (escapeLine value).toList ∧
      Function.Injective escapeLine :=
  ⟨unescapeLine_escapeLine value, newline_notMem_escapeLine value,
    Function.LeftInverse.injective unescapeLine_escapeLine⟩

theorem length_unescapeChars_le : (unescapeChars chars).length ≤ chars.length := by
  fun_induction unescapeChars chars <;> simp_all <;> omega

/-! ### Trimming -/

def trimChars (p : Char → Bool) (chars : List Char) : List Char := (chars.dropWhile p).rdropWhile p

/-- White space that escaping leaves as it is. -/
def isBlank (c : Char) : Bool := isWhitespace c && c != '\n'

def trimBlanks (text : String) : String := ofList (trimChars isBlank text.toList)

theorem trim_eq (text : String) : trim text = ofList (trimChars isWhitespace text.toList) :=
  rfl

theorem trimChars_sublist (p : Char → Bool) (chars : List Char) :
    (trimChars p chars).Sublist chars :=
  (List.rdropWhile_prefix p _).sublist.trans (dropWhile_sublist p)

theorem trimChars_concat {p : Char → Bool} {c : Char} (hc : p c = true) (chars : List Char) :
    trimChars p (chars ++ [c]) = trimChars p chars := by
  unfold trimChars
  rw [dropWhile_append]
  split
  · rename_i hall
    simp [hc, isEmpty_iff.mp hall]
  · rw [rdropWhile_concat_pos p _ c hc]

theorem trimChars_stripCarriageReturn :
    trimChars isWhitespace (stripCarriageReturn chars) = trimChars isWhitespace chars := by
  unfold stripCarriageReturn
  split
  · rename_i hlast
    obtain ⟨front, rfl⟩ := getLast?_eq_some_iff.mp hlast
    rw [dropLast_concat, trimChars_concat (by decide)]
  · rfl

theorem escapeChar_of_blank (hc : isBlank c = true) :
    escapeChar c = [c] ∧ isWhitespace c = true := by
  simp only [isBlank, Bool.and_eq_true, bne_iff_ne] at hc
  refine ⟨?_, hc.1⟩
  have hslash : c ≠ '\\' := by rintro rfl; exact absurd hc.1 (by decide)
  have hequals : c ≠ '=' := by rintro rfl; exact absurd hc.1 (by decide)
  rw [escapeChar, if_neg hslash, if_neg hc.2, if_neg hequals]

theorem escapeChar_ends (hc : isBlank c = false) :
    (∃ first rest, escapeChar c = first :: rest ∧ isWhitespace first = false) ∧
      ∃ front last, escapeChar c = front ++ [last] ∧ isWhitespace last = false := by
  unfold escapeChar
  split_ifs with hslash hbreak hequals
  · exact ⟨⟨'\\', ['\\'], rfl, by decide⟩, ['\\'], '\\', rfl, by decide⟩
  · exact ⟨⟨'\\', ['n'], rfl, by decide⟩, ['\\'], 'n', rfl, by decide⟩
  · exact ⟨⟨'\\', ['='], rfl, by decide⟩, ['\\'], '=', rfl, by decide⟩
  · have hspace : isWhitespace c = false := by simpa [isBlank, hbreak] using hc
    exact ⟨⟨c, [], rfl, hspace⟩, [], c, rfl, hspace⟩

theorem dropWhile_escapeChars :
    (chars.flatMap escapeChar).dropWhile isWhitespace
      = (chars.dropWhile isBlank).flatMap escapeChar := by
  induction chars with
  | nil => rfl
  | cons c rest ih =>
    rw [flatMap_cons, dropWhile_cons]
    cases hc : isBlank c
    · obtain ⟨⟨first, others, hfirst, hspace⟩, -⟩ := escapeChar_ends hc
      simp [hfirst, hspace]
    · obtain ⟨hsame, hspace⟩ := escapeChar_of_blank hc
      simp [hsame, hspace, ih]

theorem rdropWhile_escapeChars :
    (chars.flatMap escapeChar).rdropWhile isWhitespace
      = (chars.rdropWhile isBlank).flatMap escapeChar := by
  induction chars using reverseRecOn with
  | nil => rfl
  | append_singleton front c ih =>
    rw [flatMap_append, flatMap_singleton, rdropWhile_concat]
    cases hc : isBlank c
    · obtain ⟨-, others, last, hlast, hspace⟩ := escapeChar_ends hc
      rw [hlast, ← append_assoc, rdropWhile_concat_neg _ _ _ (by simp [hspace])]
      simp [hlast]
    · obtain ⟨hsame, hspace⟩ := escapeChar_of_blank hc
      rw [hsame, rdropWhile_concat_pos _ _ _ hspace, ih, if_pos rfl]

/-- An item comes back without the blanks at its ends. Line breaks there are not blanks by then. -/
theorem unescapeLine_trim_escapeLine (item : String) :
    unescapeLine (trim (escapeLine item)) = trimBlanks item := by
  have htrim : trimChars isWhitespace (escapeChars item.toList)
      = escapeChars (trimChars isBlank item.toList) := by
    simp only [escapeChars_eq, trimChars, dropWhile_escapeChars, rdropWhile_escapeChars]
  rw [trim_eq, escapeLine, toList_ofList, htrim, unescapeLine, toList_ofList,
    unescapeChars_escapeChars, trimBlanks]

/-! ### Lines -/

/-- The lines that an entry makes in the file. -/
def pieces (entry : List Char) : List (List Char) := (entry.splitOn '\n').map stripCarriageReturn

theorem splitOn_terminated :
    (terminated '\n' entries).splitOn '\n' = entries.flatMap (splitOn '\n') ++ [[]] := by
  induction entries with
  | nil => rfl
  | cons entry rest ih =>
    rw [terminated_cons, append_assoc, singleton_append, splitOn_append_cons_self,
      ih, flatMap_cons, append_assoc]

theorem lines_terminated :
    lines (ofList (terminated '\n' entries)) = entries.flatMap pieces := by
  simp only [lines, toList_ofList, splitOn_terminated, dropLast_concat,
    getLast?_concat, map_flatMap, Option.toList_some]
  exact append_nil _

theorem pieces_of_unbroken {entry : List Char} (h : '\n' ∉ entry) :
    pieces entry = [stripCarriageReturn entry] := by
  rw [pieces, splitOn_eq_singleton h, map_singleton]

theorem pieces_append {front : List Char} (h : '\n' ∉ front) (rest : List Char) :
    pieces (front ++ '\n' :: rest) = stripCarriageReturn front :: pieces rest := by
  rw [pieces, splitOn_append_cons_self_of_not_mem h, map_cons, pieces]

theorem mem_splitOn {chars part : List Char} (h : part ∈ chars.splitOn c) :
    part.Sublist chars ∧ c ∉ part := by
  induction chars generalizing part with
  | nil => simp_all
  | cons d rest ih =>
    rw [splitOn_cons_eq_if_modifyHead] at h
    split at h
    · rcases mem_cons.mp h with rfl | hrest
      · simp
      · exact ⟨(ih hrest).1.cons d, (ih hrest).2⟩
    · rename_i hd
      obtain ⟨first, others, hsplit⟩ := exists_cons_of_ne_nil (splitOn_ne_nil c rest)
      rw [hsplit] at h ih
      rcases mem_cons.mp h with rfl | hothers
      · have hfirst := ih mem_cons_self
        refine ⟨hfirst.1.cons_cons d, fun hc => ?_⟩
        rcases mem_cons.mp hc with rfl | hmem
        · exact hd BEq.rfl
        · exact hfirst.2 hmem
      · have hpart := ih (mem_cons_of_mem _ hothers)
        exact ⟨hpart.1.cons d, hpart.2⟩

theorem stripCarriageReturn_sublist : (stripCarriageReturn line).Sublist line := by
  unfold stripCarriageReturn
  split
  · exact dropLast_sublist line
  · exact List.Sublist.refl line

theorem mem_pieces {text line : List Char} (h : line ∈ pieces text) :
    line.Sublist text ∧ '\n' ∉ line := by
  obtain ⟨part, hpart, rfl⟩ := mem_map.mp h
  have hsub := stripCarriageReturn_sublist part
  exact ⟨hsub.trans (mem_splitOn hpart).1, fun hmem => (mem_splitOn hpart).2 (hsub.subset hmem)⟩

theorem valueOf_sublist : (valueOf line).toList.Sublist line := by
  rw [valueOf, trim_eq, toList_ofList, toList_ofList]
  exact (trimChars_sublist _ _).trans
    ((drop_sublist _ _).trans (dropWhile_sublist _))

/-- A key is found again if it has neither white space nor an equals sign. -/
def isKeyword (key : String) : Bool := key.toList.all fun c => c != '=' && !isWhitespace c

def keywords : List String :=
  ["node_id", "role", "policy_version", "connected_peers", "known_peers", "route_peers",
    "trusted_peers", "last_beacon_ts", "last_sync_ts", "last_failure_reason", "health_history",
    "decision_history", "anomaly"]

theorem isKeyword_keywords : ∀ key ∈ keywords, isKeyword key = true := by decide +kernel

theorem read_entryText {value : String} (hkey : isKeyword key = true) :
    keyOf (stripCarriageReturn (entryText (key, value))) = key ∧
      valueOf (stripCarriageReturn (entryText (key, value))) = trim value := by
  have hchars : ∀ c ∈ key.toList, c ≠ '=' ∧ isWhitespace c = false := by
    simpa [isKeyword] using hkey
  have hfront : ∀ c ∈ key.toList, (c != '=') = true := fun c hc => bne_iff_ne.mpr (hchars c hc).1
  have hstrip : stripCarriageReturn (entryText (key, value))
      = key.toList ++ '=' :: stripCarriageReturn value.toList := by
    unfold stripCarriageReturn entryText
    rcases eq_nil_or_concat value.toList with hnil | ⟨front, c, hconcat⟩
    · simp [hnil]
    · rw [hconcat, concat_eq_append, ← cons_append, ← append_assoc,
        getLast?_concat, getLast?_concat]
      split
      · rw [dropLast_concat, dropLast_concat]
      · simp
  rw [hstrip, keyOf, valueOf, takeWhile_append_of_pos hfront,
    dropWhile_append_of_pos hfront]
  constructor
  · simpa using trim_of_unspaced (fun c hc => (hchars c hc).2)
  · simp [trim_eq, trimChars_stripCarriageReturn]

theorem newline_notMem_keyword (hkey : isKeyword key = true) : '\n' ∉ key.toList := by
  intro hmem
  have hall := all_eq_true.mp hkey _ hmem
  exact absurd hall (by decide)

theorem pieces_entryText {value : String} (hkey : isKeyword key = true)
    (hvalue : '\n' ∉ value.toList) :
    pieces (entryText (key, value)) = [stripCarriageReturn (entryText (key, value))] := by
  refine pieces_of_unbroken ?_
  simp [entryText, newline_notMem_keyword hkey, hvalue]

def readEntry (snapshot : GhostSnapshot) (entry : String × String) : GhostSnapshot :=
  readField snapshot entry.1 (trim entry.2)

theorem foldl_entries {entries : List (String × String)}
    (h : ∀ e ∈ entries, isKeyword e.1 = true ∧ '\n' ∉ e.2.toList) (snapshot : GhostSnapshot) :
    ((entries.map entryText).flatMap pieces).foldl readLine snapshot
      = entries.foldl readEntry snapshot := by
  induction entries generalizing snapshot with
  | nil => rfl
  | cons e rest ih =>
    obtain ⟨hkey, hvalue⟩ := h e mem_cons_self
    have hread : readLine snapshot (stripCarriageReturn (entryText e))
        = readEntry snapshot e := by
      rw [readLine, (read_entryText hkey).1, (read_entryText hkey).2, readEntry]
    rw [map_cons, flatMap_cons, pieces_entryText hkey hvalue, foldl_append,
      ih (fun e' he' => h e' (mem_cons_of_mem _ he')), foldl_cons, foldl_nil, hread,
      foldl_cons]

/-! ### Reading What Was Saved -/

theorem toList_decimal : (decimal n).toList = Nat.toDigits 10 n.toNat := by
  rw [decimal, Nat.repr_eq_ofList_toDigits, toList_ofList]

theorem isDigit_of_mem_decimal {n : UInt64} {c : Char} (h : c ∈ (decimal n).toList) :
    c.isDigit = true :=
  Nat.isDigit_of_mem_toDigits (by decide) (by decide) (toList_decimal n ▸ h)

theorem isWhitespace_of_isDigit (h : c.isDigit = true) : isWhitespace c = false := by
  have hrange : 48 ≤ c.toNat ∧ c.toNat ≤ 57 := by
    simpa [Char.isDigit, UInt32.le_iff_toNat_le, ← Char.toNat_val] using h
  simp only [isWhitespace, Bool.or_eq_false_iff, Bool.and_eq_false_iff, decide_eq_false_iff_not,
    beq_eq_false_iff_ne]
  omega

theorem trim_decimal : trim (decimal n) = decimal n :=
  trim_of_unspaced fun _ hc => isWhitespace_of_isDigit (isDigit_of_mem_decimal hc)

theorem newline_notMem_decimal : '\n' ∉ (decimal n).toList :=
  fun h => absurd (isDigit_of_mem_decimal h) (by decide)

theorem parseU64_decimal : parseU64 (decimal n) = some n := by
  have hsign : (decimal n).toList.head? ≠ some '+' := fun h =>
    absurd (isDigit_of_mem_decimal (mem_of_head? h)) (by decide)
  have hdigits : (decimal n).toList.all Char.isDigit = true :=
    all_eq_true.mpr fun _ hc => isDigit_of_mem_decimal hc
  have hne : (decimal n).toList ≠ [] := by
    rw [toList_decimal]
    exact Nat.toDigits_ne_nil
  have hvalue : Nat.ofDigitChars 10 (decimal n).toList 0 = n.toNat := by
    rw [toList_decimal, Nat.ofDigitChars_ten_toDigits]
  simp [parseU64, if_neg hsign, hvalue, hdigits, hne, n.toNat_lt]

theorem parse_optional (ts : Option UInt64) :
    (if trim ((ts.map decimal).getD "") = "" then none
      else parseU64 (trim ((ts.map decimal).getD ""))) = ts := by
  cases ts with
  | none => rfl
  | some n =>
    have hne : decimal n ≠ "" := fun h => by
      have hparse := parseU64_decimal n
      rw [h] at hparse
      exact absurd hparse (by simp [parseU64])
    simp [trim_decimal, hne, parseU64_decimal]

namespace GhostSnapshot

/-- What is read of a reason that is on one line. -/
def readReason (reason : String) : Option String :=
  if trim reason = "" then none else some (unescapeLine (trim reason))

/-- What comes back if none of the three texts that are not escaped has a line break. -/
def restored (s : GhostSnapshot) : GhostSnapshot :=
  { s with
    nodeId := trim s.nodeId
    role := trim s.role
    lastFailureReason := readReason (s.lastFailureReason.getD "")
    healthHistory := s.healthHistory.map trimBlanks
    decisionHistory := s.decisionHistory.map trimBlanks
    anomalies := s.anomalies.map trimBlanks }

theorem foldl_items (key : String) (extend : GhostSnapshot → List String → GhostSnapshot)
    (hnil : ∀ s, extend s [] = s)
    (hcons : ∀ s value rest,
      extend (readField s key value) rest = extend s (unescapeLine value :: rest))
    (items : List String) (s : GhostSnapshot) :
    (items.map fun item => (key, escapeLine item)).foldl readEntry s
      = extend s (items.map trimBlanks) := by
  induction items generalizing s with
  | nil => exact (hnil s).symm
  | cons item rest ih =>
    rw [map_cons, foldl_cons, ih, readEntry, hcons, unescapeLine_trim_escapeLine,
      map_cons]

theorem foldl_saved (s : GhostSnapshot) : s.entries.foldl readEntry {} = s.restored := by
  have hhealth := foldl_items "health_history"
    (fun s items => { s with healthHistory := s.healthHistory ++ items })
    (by simp) (by simp [readField])
  have hdecisions := foldl_items "decision_history"
    (fun s items => { s with decisionHistory := s.decisionHistory ++ items })
    (by simp) (by simp [readField])
  have hanomalies := foldl_items "anomaly"
    (fun s items => { s with anomalies := s.anomalies ++ items })
    (by simp) (by simp [readField])
  rw [entries, foldl_append, foldl_append, foldl_append, hhealth, hdecisions,
    hanomalies]
  simp only [foldl_cons, foldl_nil, readEntry, readField, trim_decimal,
    parseU64_decimal, parse_optional, Option.getD_some, nil_append]
  rfl

theorem isKeyword_entries (s : GhostSnapshot) : ∀ e ∈ s.entries, isKeyword e.1 = true := by
  intro e he
  refine isKeyword_keywords e.1 ?_
  simp only [entries, mem_append, mem_cons, not_mem_nil, or_false,
    mem_map] at he
  rcases he with ((h | ⟨item, -, rfl⟩) | ⟨item, -, rfl⟩) | ⟨item, -, rfl⟩
  · rcases h with rfl | rfl | rfl | rfl | rfl | rfl | rfl | rfl | rfl | rfl <;> simp [keywords]
  all_goals simp [keywords]

/-- The texts that are not escaped are each on one line. -/
structure Unbroken (s : GhostSnapshot) : Prop where
  nodeId : '\n' ∉ s.nodeId.toList
  role : '\n' ∉ s.role.toList
  reason : '\n' ∉ (s.lastFailureReason.getD "").toList

theorem newline_notMem_optional (ts : Option UInt64) :
    '\n' ∉ ((ts.map decimal).getD "").toList := by
  cases ts with
  | none => decide
  | some n => exact newline_notMem_decimal n

theorem mem_entries {s : GhostSnapshot} (hid : '\n' ∉ s.nodeId.toList)
    (hrole : '\n' ∉ s.role.toList) {e : String × String} (he : e ∈ s.entries) :
    e = ("last_failure_reason", s.lastFailureReason.getD "") ∨
      e.1 ≠ "last_failure_reason" ∧ '\n' ∉ e.2.toList := by
  simp only [entries, mem_append, mem_cons, not_mem_nil, or_false,
    mem_map] at he
  rcases he with ((h | ⟨item, -, rfl⟩) | ⟨item, -, rfl⟩) | ⟨item, -, rfl⟩
  · rcases h with rfl | rfl | rfl | rfl | rfl | rfl | rfl | rfl | rfl | rfl <;>
      simp [newline_notMem_decimal, newline_notMem_optional, hid, hrole]
  all_goals simp [newline_notMem_escapeLine]

end GhostSnapshot

namespace GhostStore

open GhostSnapshot

variable (store : GhostStore) (s : GhostSnapshot)

theorem load_save :
    (store.save s).load
      = some (((s.entries.map entryText).flatMap pieces).foldl readLine {}) := by
  rw [load, save, Option.map_some, lines_terminated]

theorem load_save_of_unbroken {s : GhostSnapshot} (h : s.Unbroken) :
    (store.save s).load = some s.restored := by
  have hentries : ∀ e ∈ s.entries, isKeyword e.1 = true ∧ '\n' ∉ e.2.toList := by
    intro e he
    refine ⟨s.isKeyword_entries e he, ?_⟩
    rcases mem_entries h.nodeId h.role he with rfl | ⟨-, hline⟩
    · exact h.reason
    · exact hline
  rw [load_save, foldl_entries hentries, foldl_saved]

theorem readField_texts (s : GhostSnapshot) (key value : String) :
    ((readField s key value).nodeId = s.nodeId ∨ (readField s key value).nodeId = value) ∧
      ((readField s key value).role = s.role ∨ (readField s key value).role = value) := by
  unfold readField
  split <;> simp

theorem readField_reason {s : GhostSnapshot} {key value r : String}
    (h : r ∈ (readField s key value).lastFailureReason) :
    r ∈ s.lastFailureReason ∨ key = "last_failure_reason" ∧ r = unescapeLine value := by
  unfold readField at h
  split at h <;> simp_all

/-- What every line of the file keeps is true of what is read. -/
theorem load_induction {P : GhostSnapshot → Prop} {loaded : GhostSnapshot}
    (h : (store.save s).load = some loaded) (hinit : P {})
    (hline : ∀ snapshot, P snapshot → ∀ e ∈ s.entries, ∀ line ∈ pieces (entryText e),
      P (readField snapshot (keyOf line) (valueOf line))) : P loaded := by
  rw [load_save, Option.some_inj] at h
  rw [← h]
  -- The lines of the file are those of its entries, one entry after the other.
  refine foldlRecOn _ readLine hinit fun snapshot ih line hmem => ?_
  obtain ⟨text, htext, hpiece⟩ := mem_flatMap.mp hmem
  obtain ⟨e, he, rfl⟩ := mem_map.mp htext
  exact hline snapshot ih e he line hpiece

theorem unbroken_of_load {loaded : GhostSnapshot} (h : (store.save s).load = some loaded) :
    '\n' ∉ loaded.nodeId.toList ∧ '\n' ∉ loaded.role.toList := by
  refine load_induction store s (P := fun loaded =>
    '\n' ∉ loaded.nodeId.toList ∧ '\n' ∉ loaded.role.toList) h (by decide)
    fun snapshot ih e _ line hpiece => ?_
  have hvalue : '\n' ∉ (valueOf line).toList := fun hmem =>
    (mem_pieces hpiece).2 ((valueOf_sublist line).subset hmem)
  obtain ⟨hid, hrole⟩ := readField_texts snapshot (keyOf line) (valueOf line)
  constructor
  · rcases hid with hid | hid <;> rw [hid]
    · exact ih.1
    · exact hvalue
  · rcases hrole with hrole | hrole <;> rw [hrole]
    · exact ih.2
    · exact hvalue

theorem length_valueOf_lt {reason : String} (hbroken : '\n' ∈ reason.toList) {line : List Char}
    (hline : line ∈ pieces (entryText ("last_failure_reason", reason))) :
    (valueOf line).toList.length < reason.toList.length := by
  obtain ⟨front, rest, hreason, hfront⟩ := eq_append_cons_of_mem hbroken
  have hkey : isKeyword "last_failure_reason" = true := isKeyword_keywords _ (by simp [keywords])
  have hentry : entryText ("last_failure_reason", reason)
      = entryText ("last_failure_reason", ofList front) ++ '\n' :: rest := by
    simp [entryText, hreason]
  have hunbroken : '\n' ∉ entryText ("last_failure_reason", ofList front) := by
    simp [entryText, hfront]
  rw [hentry, pieces_append hunbroken] at hline
  rw [hreason, length_append, length_cons]
  rcases mem_cons.mp hline with rfl | hrest
  · have hle := (trimChars_sublist isWhitespace front).length_le
    rw [(read_entryText hkey).2, trim_eq, toList_ofList, toList_ofList]
    omega
  · have hle := ((valueOf_sublist line).trans (mem_pieces hrest).1).length_le
    omega

/-- A reason that comes back was on one line: lines of a broken one are too short for it, and
    unescaping does not make them longer. -/
theorem unbroken_of_load_eq (h : (store.save s).load = some s) : s.Unbroken := by
  obtain ⟨hid, hrole⟩ := unbroken_of_load store s h
  refine ⟨hid, hrole, fun hbroken => ?_⟩
  obtain ⟨reason, hreason⟩ : ∃ reason, s.lastFailureReason = some reason :=
    Option.ne_none_iff_exists'.mp fun hnone => by simp [hnone] at hbroken
  rw [hreason, Option.getD_some] at hbroken
  have hshort : ∀ r ∈ s.lastFailureReason, r.toList.length < reason.toList.length := by
    refine load_induction store s (P := fun loaded => ∀ r ∈ loaded.lastFailureReason,
      r.toList.length < reason.toList.length) h (by simp)
      fun snapshot ih e he line hpiece r hr => ?_
    rcases readField_reason hr with hold | ⟨hkey, rfl⟩
    · exact ih r hold
    have hle := length_unescapeChars_le (valueOf line).toList
    rw [unescapeLine, toList_ofList]
    rcases mem_entries hid hrole he with rfl | ⟨hother, hline⟩
    · rw [hreason, Option.getD_some] at hpiece
      exact hle.trans_lt (length_valueOf_lt hbroken hpiece)
    · -- Every other entry is on one line, which has its key.
      have hkeyword := s.isKeyword_entries e he
      rw [pieces_entryText hkeyword hline, mem_singleton] at hpiece
      rw [hpiece, (read_entryText hkeyword).1] at hkey
      exact absurd hkey hother
  exact absurd (hshort reason hreason) (lt_irrefl _)

end GhostStore

/-- What can be stored. -/
structure GhostSnapshot.Storable (s : GhostSnapshot) : Prop where
  nodeId : '\n' ∉ s.nodeId.toList ∧ trim s.nodeId = s.nodeId
  role : '\n' ∉ s.role.toList ∧ trim s.role = s.role
  reason : ∀ r ∈ s.lastFailureReason,
    r ≠ "" ∧ '\n' ∉ r.toList ∧ trim r = r ∧ unescapeLine r = r
  items : ∀ item ∈ s.healthHistory ++ s.decisionHistory ++ s.anomalies, trimBlanks item = item

namespace GhostSnapshot

theorem readReason_getD {reason : Option String} :
    readReason (reason.getD "") = reason ↔
      ∀ r ∈ reason, r ≠ "" ∧ trim r = r ∧ unescapeLine r = r := by
  cases reason with
  | none => simp [readReason, show trim "" = "" from rfl]
  | some r =>
    simp only [Option.getD_some, readReason, Option.mem_some_iff, forall_eq']
    constructor
    · intro h
      split at h
      · exact absurd h.symm (Option.some_ne_none r)
      rename_i hne
      rw [Option.some_inj] at h
      -- Neither of the two steps makes a text longer, so neither made it shorter.
      have hle := length_unescapeChars_le (trim r).toList
      rw [← toList_ofList (l := unescapeChars _), ← unescapeLine, h] at hle
      have htrim : trim r = r := by
        rw [trim_eq, toList_ofList] at hle
        rw [trim_eq, (trimChars_sublist isWhitespace r.toList).eq_of_length_le hle,
          String.ofList_toList]
      rw [htrim] at h hne
      exact ⟨hne, htrim, h⟩
    · rintro ⟨hne, htrim, hread⟩
      rw [htrim, if_neg hne, hread]

theorem map_trimBlanks_eq_iff {items : List String} :
    items.map trimBlanks = items ↔ ∀ item ∈ items, trimBlanks item = item := by
  induction items <;> simp_all

theorem restored_eq_iff (s : GhostSnapshot) : s.restored = s ↔
    trim s.nodeId = s.nodeId ∧ trim s.role = s.role ∧
      (∀ r ∈ s.lastFailureReason, r ≠ "" ∧ trim r = r ∧ unescapeLine r = r) ∧
      ∀ item ∈ s.healthHistory ++ s.decisionHistory ++ s.anomalies, trimBlanks item = item := by
  rw [← readReason_getD]
  obtain ⟨⟩ := s
  simp [restored, map_trimBlanks_eq_iff, or_imp, forall_and]

end GhostSnapshot

namespace GhostStore

variable (store : GhostStore)

theorem load_save_of_storable {s : GhostSnapshot} (h : s.Storable) :
    (store.save s).load = some s := by
  have hunbroken : s.Unbroken := by
    refine ⟨h.nodeId.1, h.role.1, ?_⟩
    cases hreason : s.lastFailureReason with
    | none => simp
    | some r => exact (h.reason r hreason).2.1
  rw [load_save_of_unbroken store hunbroken, Option.some_inj, s.restored_eq_iff]
  exact ⟨h.nodeId.2, h.role.2, fun r hr => ⟨(h.reason r hr).1, (h.reason r hr).2.2⟩, h.items⟩

/-- A snapshot comes back exactly if it is storable. -/
theorem load_save_iff (s : GhostSnapshot) : (store.save s).load = some s ↔ s.Storable := by
  refine ⟨fun h => ?_, load_save_of_storable store⟩
  have hunbroken := unbroken_of_load_eq store s h
  rw [load_save_of_unbroken store hunbroken, Option.some_inj, s.restored_eq_iff] at h
  obtain ⟨hid, hrole, hreason, hitems⟩ := h
  refine ⟨⟨hunbroken.nodeId, hid⟩, ⟨hunbroken.role, hrole⟩, fun r hr => ?_, hitems⟩
  have hline := hunbroken.reason
  rw [Option.mem_def.mp hr, Option.getD_some] at hline
  exact ⟨(hreason r hr).1, hline, (hreason r hr).2⟩

/-- A reason of two lines, the second of which is read as the role. -/
theorem injected_role :
    (GhostStore.save {}
        { nodeId := "n1", role := "peer",
          lastFailureReason := some "timeout\nrole=supernode" }).load
      = some { nodeId := "n1", role := "supernode", lastFailureReason := some "timeout" } := by
  decide +kernel

end GhostStore

end Ghost

end EssNode
