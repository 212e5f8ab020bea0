import Mathlib.Data.Nat.Digits.Defs
import Rauha.Library.Json
import Rauha.Library.Lines
import Rauha.Library.Utf8

/-!
# JSON text as a parameter

A program that keeps documents in lines of text relies on a writer and a reader that it does not
define.  `JsonFormat` is such a pair, with what is relied on.

**Round trips.**  A document that is not nested too deeply reads back, and its text has no line end.

**Cuts.**  Of an object's text a proper part is no document, and neither is a part that ends inside
a character, which a lossy decoder replaces.

`tokenFormat` meets the laws.  It is not JSON: it writes a document as a list of numbers, each of
them with a mark at its end.  That is enough for a text to be read in one way only
(`tokens_append_inj`).
-/

/-- **A writer and a reader of JSON text**, for documents that are nested `maxDepth` times at
    most. -/
structure JsonFormat (maxDepth : ℕ) where
  write : Json → List Char
  read : List Char → Option Json
  read_write : ∀ j : Json, j.depth ≤ maxDepth → read (write j) = some j
  read_deep : ∀ j : Json, maxDepth < j.depth → read (write j) = none
  read_nil : read [] = none
  newline_notMem : ∀ j, '\n' ∉ write j
  return_notMem : ∀ j, '\r' ∉ write j
  read_cut : ∀ {fields part more}, write (.object fields) = part ++ more → more ≠ [] →
    read part = none
  /-- A part of an object's text, with the character that stands for one that is cut. -/
  read_marked : ∀ {fields part more}, write (.object fields) = part ++ more →
    read (part ++ [Utf8.replacement]) = none

namespace JsonFormat

open List

/-- There is no empty document. -/
lemma write_ne_nil {maxDepth : ℕ} (J : JsonFormat maxDepth) {j : Json} (h : j.depth ≤ maxDepth) :
    J.write j ≠ [] := by
  intro hnil
  have hread := J.read_write j h
  rw [hnil, J.read_nil] at hread
  cases hread

/-! ## Documents as numbers -/

/-- The characters of a text, after their number. -/
def tokensOfString (s : String) : List ℕ := s.toList.length :: s.toList.map Char.toNat

mutual

/-- A document: what it is, and then its parts after their number. -/
def tokens : Json → List ℕ
  | .null => [0]
  | .bool b => [1, b.toNat]
  | .number (.posInt n) => [2, n.toNat]
  | .number (.negInt m) => [3, m.val]
  | .number (.float x) => [4, x.bits.toNat]
  | .string s => 5 :: tokensOfString s
  | .array items => 6 :: items.length :: tokensOfItems items
  | .object fields => 7 :: fields.length :: tokensOfFields fields

def tokensOfItems : List Json → List ℕ
  | [] => []
  | x :: xs => tokens x ++ tokensOfItems xs

def tokensOfFields : List (String × Json) → List ℕ
  | [] => []
  | (k, v) :: fs => tokensOfString k ++ (tokens v ++ tokensOfFields fs)

end

/-- A reader of a beginning, and what it leaves. -/
abbrev Parser (α : Type) := List ℕ → Option (α × List ℕ)

def parseString : Parser String
  | [] => none
  | n :: ts => some (String.ofList ((ts.take n).map Char.ofNat), ts.drop n)

def parseField (value : Parser Json) : Parser (String × Json) := fun ts => do
  let (k, ts) ← parseString ts
  let (v, ts) ← value ts
  some ((k, v), ts)

/-- The same reader a number of times. -/
def times {α : Type} (item : Parser α) : ℕ → Parser (List α)
  | 0, ts => some ([], ts)
  | n + 1, ts => do
    let (x, ts) ← item ts
    let (xs, ts) ← times item n ts
    some (x :: xs, ts)

/-- The reader of documents; `fuel` is more than their depth. -/
def parse : ℕ → Parser Json
  | 0, _ => none
  | _ + 1, 0 :: ts => some (.null, ts)
  | _ + 1, 1 :: b :: ts => some (.bool (b == 1), ts)
  | _ + 1, 2 :: n :: ts => some (.number (.posInt (UInt64.ofNat n)), ts)
  | _ + 1, 3 :: m :: ts => some (.number (.negInt (Fin.ofNat _ m)), ts)
  | _ + 1, 4 :: bits :: ts =>
    if h : (UInt64.ofNat bits).toNat / 2 ^ 52 % 2 ^ 11 ≠ 2 ^ 11 - 1 then
      some (.number (.float ⟨UInt64.ofNat bits, h⟩), ts)
    else none
  | _ + 1, 5 :: ts => (parseString ts).map fun (s, ts) => (.string s, ts)
  | fuel + 1, 6 :: n :: ts => (times (parse fuel) n ts).map fun (xs, ts) => (.array xs, ts)
  | fuel + 1, 7 :: n :: ts =>
    (times (parseField (parse fuel)) n ts).map fun (fs, ts) => (.object fs, ts)
  | _, _ => none

lemma parseString_tokens (s : String) (rest : List ℕ) :
    parseString (tokensOfString s ++ rest) = some (s, rest) := by
  have hchars : (s.toList.map Char.toNat).map Char.ofNat = s.toList := by
    simp [Function.comp_def]
  have hlength : (s.toList.map Char.toNat).length = s.toList.length := length_map _
  rw [tokensOfString, cons_append, parseString, take_left' hlength, drop_left' hlength, hchars,
    String.ofList_toList]

mutual

/-- **A document is read in full**, and nothing of what follows it. -/
lemma parse_tokens : ∀ (j : Json) {fuel : ℕ} (_ : j.depth < fuel) (rest : List ℕ),
    parse fuel (tokens j ++ rest) = some (j, rest)
  | .null, _ + 1, _, rest => rfl
  | .bool b, _ + 1, _, rest => by cases b <;> rfl
  | .number (.posInt n), _ + 1, _, rest => by simp [tokens, parse]
  | .number (.negInt m), _ + 1, _, rest => by simp [tokens, parse]
  | .number (.float x), _ + 1, _, rest => by simpa [tokens, parse] using x.finite
  | .string s, _ + 1, _, rest => by
    rw [tokens, cons_append, parse, parseString_tokens]
    rfl
  | .array items, fuel + 1, h, rest => by
    rw [tokens, cons_append, cons_append, parse,
      times_tokens items (by simpa [Json.depth] using h) rest]
    rfl
  | .object fields, fuel + 1, h, rest => by
    rw [tokens, cons_append, cons_append, parse,
      timesField_tokens fields (by simpa [Json.depth] using h) rest]
    rfl

lemma times_tokens : ∀ (xs : List Json) {fuel : ℕ} (_ : Json.depthItems xs < fuel)
    (rest : List ℕ), times (parse fuel) xs.length (tokensOfItems xs ++ rest) = some (xs, rest)
  | [], _, _, rest => rfl
  | x :: xs, fuel, h, rest => by
    obtain ⟨hx, hxs⟩ := max_lt_iff.mp h
    rw [tokensOfItems, append_assoc, length_cons, times, parse_tokens x hx]
    show (times (parse fuel) xs.length _).bind _ = _
    rw [times_tokens xs hxs]
    rfl

lemma timesField_tokens : ∀ (fs : List (String × Json)) {fuel : ℕ}
    (_ : Json.depthFields fs < fuel) (rest : List ℕ),
    times (parseField (parse fuel)) fs.length (tokensOfFields fs ++ rest) = some (fs, rest)
  | [], _, _, rest => rfl
  | (k, v) :: fs, fuel, h, rest => by
    obtain ⟨hv, hfs⟩ := max_lt_iff.mp h
    have hfield : parseField (parse fuel)
        (tokensOfString k ++ (tokens v ++ (tokensOfFields fs ++ rest))) =
          some ((k, v), tokensOfFields fs ++ rest) := by
      rw [parseField, parseString_tokens]
      show (parse fuel _).bind _ = _
      rw [parse_tokens v hv]
      rfl
    rw [tokensOfFields, append_assoc, append_assoc, length_cons, times, hfield]
    show (times (parseField (parse fuel)) fs.length _).bind _ = _
    rw [timesField_tokens fs hfs]
    rfl

end

/-- **Documents end where they end**, whatever follows. -/
lemma tokens_append_inj {i j : Json} {r s : List ℕ} (h : tokens i ++ r = tokens j ++ s) :
    i = j ∧ r = s := by
  have hi := @parse_tokens i (i.depth + j.depth + 1) (by omega) r
  have hj := @parse_tokens j (i.depth + j.depth + 1) (by omega) s
  rw [h, hj, Option.some.injEq, Prod.mk.injEq] at hi
  exact ⟨hi.1.symm, hi.2.symm⟩

/-! ## Numbers as text -/

/-- Decimal digits and the mark. -/
def tokenLine (n : ℕ) : List Char := Nat.toDigits 10 n ++ [';']

def textOf (ts : List ℕ) : List Char := (ts.map tokenLine).flatten

def tokensOf (text : List Char) : List ℕ :=
  (Lines.splitLines ';' text).map fun line => Nat.ofDigitChars 10 line.dropLast 0

lemma isDigit_of_mem_toDigits {n : ℕ} {c : Char} (h : c ∈ Nat.toDigits 10 n) :
    c.isDigit = true :=
  Nat.isDigit_of_mem_toDigits (by decide) (by decide) h

lemma isLine_tokenLine (n : ℕ) : Lines.IsLine ';' (tokenLine n) :=
  ⟨_, rfl, fun h => by simpa using isDigit_of_mem_toDigits h⟩

/-- The numbers of a text that goes on. -/
lemma tokensOf_textOf (ts : List ℕ) (more : List Char) :
    tokensOf (textOf ts ++ more) = ts ++ tokensOf more := by
  induction ts with
  | nil => rfl
  | cons n ts ih =>
    rw [tokensOf, tokensOf] at ih
    rw [textOf, map_cons, flatten_cons, append_assoc, tokensOf,
      Lines.splitLines_append (isLine_tokenLine n), map_cons]
    rw [textOf] at ih
    rw [ih, tokenLine, dropLast_concat, Nat.ofDigitChars_ten_toDigits]
    rfl

lemma tokensOf_eq_nil {text : List Char} (h : tokensOf text = []) : text = [] := by
  rw [← Lines.flatten_splitLines ';' text, map_eq_nil_iff.mp h]
  rfl

/-- Only digits and marks are written. -/
lemma mem_textOf {ts : List ℕ} {c : Char} (h : c ∈ textOf ts) : c.isDigit = true ∨ c = ';' := by
  obtain ⟨line, hline, hc⟩ := mem_flatten.mp h
  obtain ⟨n, -, rfl⟩ := mem_map.mp hline
  exact (mem_append.mp hc).imp isDigit_of_mem_toDigits mem_singleton.mp

/-- The reader: a document, if this is its text. -/
def readTokens (maxDepth : ℕ) (text : List Char) : Option Json :=
  ((parse (maxDepth + 1) (tokensOf text)).map Prod.fst).filter fun j =>
    decide (j.depth ≤ maxDepth) && decide (textOf (tokens j) = text)

variable {maxDepth : ℕ} {text : List Char} {j : Json}

/-- **What is read is what was written.** -/
lemma readTokens_eq_some_iff :
    readTokens maxDepth text = some j ↔ j.depth ≤ maxDepth ∧ textOf (tokens j) = text := by
  rw [readTokens, Option.filter_eq_some_iff, Bool.and_eq_true, decide_eq_true_eq, decide_eq_true_eq,
    and_iff_right_iff_imp]
  rintro ⟨hdepth, rfl⟩
  have htokens := tokensOf_textOf (tokens j) []
  rw [append_nil] at htokens
  rw [htokens, parse_tokens j (by omega)]
  rfl

lemma textOf_tokens_append_inj {i : Json} {more : List Char}
    (h : textOf (tokens i) = textOf (tokens j) ++ more) : i = j ∧ more = [] := by
  have htokens := congrArg tokensOf h
  rw [tokensOf_textOf, ← append_nil (textOf (tokens i)), tokensOf_textOf] at htokens
  obtain ⟨hij, hmore⟩ := tokens_append_inj htokens
  exact ⟨hij, tokensOf_eq_nil hmore.symm⟩

lemma notMem_textOf {c : Char} (hdigit : c.isDigit = false) (hmark : c ≠ ';') (ts : List ℕ) :
    c ∉ textOf ts := by
  intro hc
  rcases mem_textOf hc with h | h
  · rw [hdigit] at h
    cases h
  · exact hmark h

/-- **A format that meets the laws.** -/
def tokenFormat (maxDepth : ℕ) : JsonFormat maxDepth where
  write j := textOf (tokens j)
  read := readTokens maxDepth
  read_write _ h := readTokens_eq_some_iff.mpr ⟨h, rfl⟩
  read_deep j h := by
    rw [Option.eq_none_iff_forall_ne_some]
    intro i hi
    obtain ⟨hdepth, htext⟩ := readTokens_eq_some_iff.mp hi
    rw [← append_nil (textOf (tokens j))] at htext
    rw [(textOf_tokens_append_inj htext).1] at hdepth
    omega
  read_nil := rfl
  newline_notMem _ := notMem_textOf (by decide) (by decide) _
  return_notMem _ := notMem_textOf (by decide) (by decide) _
  read_cut h hmore := by
    rw [Option.eq_none_iff_forall_ne_some]
    intro i hi
    obtain ⟨-, rfl⟩ := readTokens_eq_some_iff.mp hi
    exact hmore (textOf_tokens_append_inj h).2
  read_marked h := by
    rw [Option.eq_none_iff_forall_ne_some]
    intro i hi
    obtain ⟨-, htext⟩ := readTokens_eq_some_iff.mp hi
    refine notMem_textOf (c := Utf8.replacement) (by decide) (by decide) (tokens i) ?_
    rw [htext]
    simp

end JsonFormat
