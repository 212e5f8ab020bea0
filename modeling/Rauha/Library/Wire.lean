import Rauha.Library.Json
import Rauha.Library.Utf8

/-!
# Sizes of encodings

How many bytes a message takes when documents are nested in documents: length-delimited fields with
variable-length counts, base 64, and JSON text inside JSON text.

**The encodings** themselves are parameters.  `Encodings` says of each how large what it writes is:
a document is as large as its fields together (`json_object`, `json_array`); text without quotes,
backslashes and control characters is stored as it stands (`json_plain`); base 64 takes four bytes
for three (`base64_length`); a field is its tag, its length and its bytes (`message_length`).

**A size argument** needs how much larger one encoding can be than another.  A count grows by at
most what it counts (`varintSize_le`), so a field grows by at most twice its content
(`length_field_le`).
-/

namespace Wire

open List

/-! ## Encodings -/

/-- The bytes of a text. -/
def textSize (text : List Char) : ℕ := (Utf8.encode text).length

/-- One byte, and the same inside quotes. -/
def isPlain (c : Char) : Bool := 32 ≤ c.toNat && c.toNat < 128 && c ≠ '"' && c ≠ '\\'

/-- The bytes of a number, of which each carries seven bits. -/
def varintSize (n : ℕ) : ℕ := Nat.log 128 n + 1

/-- **The encodings of a message, and the sizes of what they write.** -/
structure Encodings where
  /-- JSON text without blanks. -/
  json : Json → List Char
  hex : List UInt8 → List Char
  base64 : List UInt8 → List Char
  /-- A field of a message that holds bytes. -/
  message : (tag : ℕ) → List UInt8 → List UInt8
  /-- A field of a message that holds a number. -/
  number : (tag : ℕ) → ℕ → List UInt8
  /-- Braces, and for every field the key, a colon, the value, and a comma between fields. -/
  json_object : ∀ f fs, textSize (json (.object (f :: fs))) =
    ((f :: fs).map fun f => textSize (json (.string f.1)) + textSize (json f.2) + 2).sum + 1
  json_array : ∀ x xs, textSize (json (.array (x :: xs))) =
    ((x :: xs).map fun x => textSize (json x) + 1).sum + 1
  json_string : ∀ s, 2 ≤ textSize (json (.string s))
  json_plain : ∀ s : String, (∀ c ∈ s.toList, isPlain c = true) →
    textSize (json (.string s)) = s.toList.length + 2
  json_true : textSize (json (.bool true)) = 4
  json_false : textSize (json (.bool false)) = 5
  hex_plain : ∀ bytes, ∀ c ∈ hex bytes, isPlain c = true
  hex_length : ∀ bytes, (hex bytes).length = 2 * bytes.length
  base64_plain : ∀ bytes, ∀ c ∈ base64 bytes, isPlain c = true
  base64_length : ∀ bytes, (base64 bytes).length = 4 * ((bytes.length + 2) / 3)
  /-- The tag and the kind of the field, its length and its bytes. -/
  message_length : ∀ tag bytes, (message tag bytes).length =
    varintSize (tag * 8 + 2) + varintSize bytes.length + bytes.length

namespace Encodings

variable (E : Encodings)

/-- The size of a document. -/
def size (j : Json) : ℕ := textSize (E.json j)

/-- The size of a text inside quotes, the quotes included. -/
def quoted (s : String) : ℕ := E.size (.string s)

/-- What a field adds to its document: key, colon and value, and a comma or the brace in front. -/
def fieldSize (f : String × Json) : ℕ := E.quoted f.1 + E.size f.2 + 2

/-- A field that is left out when it is empty. -/
def field (tag : ℕ) (bytes : List UInt8) : List UInt8 :=
  if bytes = [] then [] else E.message tag bytes

@[simp] lemma size_string (s : String) : E.size (.string s) = E.quoted s := rfl

/-- **A document is as large as its fields together.** -/
lemma size_object (f : String × Json) (fs : List (String × Json)) :
    E.size (.object (f :: fs)) = ((f :: fs).map E.fieldSize).sum + 1 := E.json_object f fs

lemma size_array (x : Json) (xs : List Json) :
    E.size (.array (x :: xs)) = ((x :: xs).map fun x => E.size x + 1).sum + 1 := E.json_array x xs

lemma two_le_quoted (s : String) : 2 ≤ E.quoted s := E.json_string s

/-- **Plain text is stored as it stands.** -/
lemma quoted_plain {text : List Char} (h : ∀ c ∈ text, isPlain c = true) :
    E.quoted (String.ofList text) = text.length + 2 := by
  have hsize := E.json_plain (String.ofList text) (by rwa [String.toList_ofList])
  rwa [String.toList_ofList] at hsize

/-- The same for a text that is given. -/
lemma quoted_literal (s : String) (h : s.toList.all isPlain = true) :
    E.quoted s = s.toList.length + 2 :=
  E.json_plain s (all_eq_true.mp h)

lemma size_bool_le (a b : Bool) : E.size (.bool a) ≤ E.size (.bool b) + 1 := by
  have htrue : E.size (.bool true) = 4 := E.json_true
  have hfalse : E.size (.bool false) = 5 := E.json_false
  cases a <;> cases b <;> omega

end Encodings

/-! ## Length-delimited fields -/

/-- **A count grows by at most what it counts.** -/
lemma varintSize_le {n m d : ℕ} (h : m ≤ n + d) : varintSize m ≤ varintSize n + d := by
  have hmono : Nat.log 128 m ≤ Nat.log 128 (n + d) := Nat.log_mono_right h
  have hadd : Nat.log 128 (n + d) ≤ Nat.log 128 n + d := by
    clear hmono h
    induction d with
    | zero => simp
    | succ d ih =>
      have hpow : n + d < 128 ^ (Nat.log 128 (n + d) + 1) :=
        Nat.lt_pow_succ_log_self (by norm_num) _
      have hnext : Nat.log 128 (n + (d + 1)) ≤ Nat.log 128 (128 ^ (Nat.log 128 (n + d) + 1)) :=
        Nat.log_mono_right hpow
      rw [Nat.log_pow (by norm_num)] at hnext
      omega
  rw [varintSize, varintSize]
  omega

/-- A number below 128 takes one byte, and one below 16384 two. -/
lemma varintSize_of_lt {n : ℕ} (h : n < 128) : varintSize n = 1 := by
  rw [varintSize, Nat.log_of_lt h]

lemma varintSize_le_two {n : ℕ} (h : n < 16384) : varintSize n ≤ 2 := by
  have hlog : Nat.log 128 n < 2 := Nat.log_lt_of_lt_pow' (by norm_num) (by omega)
  rw [varintSize]
  omega

/-- **A field grows by at most twice its content**, and by its tag where it was left out. -/
lemma Encodings.length_field_le (E : Encodings) {tag d : ℕ} {old new : List UInt8}
    (h : new.length ≤ old.length + d) :
    (E.field tag new).length ≤ (E.field tag old).length + 2 * d + varintSize (tag * 8 + 2) + 1 := by
  have hcount := varintSize_le h
  by_cases hnew : new = []
  · simp [field, hnew]
  rw [field, if_neg hnew, E.message_length]
  by_cases hold : old = []
  · have hone : varintSize 0 = 1 := varintSize_of_lt (by norm_num)
    rw [hold, length_nil] at h hcount
    omega
  · rw [field, if_neg hold, E.message_length]
    omega

/-- A field takes at most twice its content, its tag and one byte. -/
lemma Encodings.length_message_le (E : Encodings) {tag d : ℕ} {bytes : List UInt8}
    (htag : tag < 2047) (h : bytes.length ≤ d) : (E.message tag bytes).length ≤ 2 * d + 3 := by
  have hcount : varintSize bytes.length ≤ varintSize 0 + d := varintSize_le (by omega)
  have hzero : varintSize 0 = 1 := varintSize_of_lt (by norm_num)
  have hkey : varintSize (tag * 8 + 2) ≤ 2 := varintSize_le_two (by omega)
  rw [E.message_length]
  omega

lemma Encodings.length_field_le_of_le (E : Encodings) {tag d : ℕ} {bytes : List UInt8}
    (htag : tag < 2047) (h : bytes.length ≤ d) : (E.field tag bytes).length ≤ 2 * d + 3 := by
  rw [field]
  split_ifs
  · exact Nat.zero_le _
  · exact E.length_message_le htag h

/-! ## Encodings that can be evaluated -/

mutual

/-- The size of JSON text, with every number in twenty digits. -/
def jsonSize : Json → ℕ
  | .null => 4
  | .bool b => if b then 4 else 5
  | .number _ => 20
  | .string s => s.toList.length + 2
  | .array items => max 2 (itemsSize items + 1)
  | .object fields => max 2 (fieldsSize fields + 1)

def itemsSize : List Json → ℕ
  | [] => 0
  | x :: xs => jsonSize x + 1 + itemsSize xs

def fieldsSize : List (String × Json) → ℕ
  | [] => 0
  | (k, v) :: fs => k.toList.length + 2 + jsonSize v + 2 + fieldsSize fs

end

lemma itemsSize_eq (xs : List Json) : itemsSize xs = (xs.map fun x => jsonSize x + 1).sum := by
  induction xs with
  | nil => rfl
  | cons x xs ih => rw [itemsSize, ih, map_cons, sum_cons]

lemma fieldsSize_eq (fs : List (String × Json)) :
    fieldsSize fs = (fs.map fun f => jsonSize (.string f.1) + jsonSize f.2 + 2).sum := by
  induction fs with
  | nil => rfl
  | cons f fs ih => rw [fieldsSize, ih, map_cons, sum_cons, jsonSize]

lemma textSize_replicate (n : ℕ) : textSize (replicate n 'x') = n := by
  induction n with
  | zero => rfl
  | succ n ih =>
    have hone : Utf8.encode (replicate (n + 1) 'x') = 120 :: Utf8.encode (replicate n 'x') := rfl
    rw [textSize] at ih
    rw [textSize, hone, length_cons, ih]

lemma isPlain_of_mem_replicate {n : ℕ} : ∀ c ∈ replicate n 'x', isPlain c = true := by
  intro c hc
  rw [eq_of_mem_replicate hc]
  decide

/-- **Encodings of the right sizes**, with nothing in them. -/
def blankEncodings : Encodings where
  json j := replicate (jsonSize j) 'x'
  hex bytes := replicate (2 * bytes.length) 'x'
  base64 bytes := replicate (4 * ((bytes.length + 2) / 3)) 'x'
  message tag bytes :=
    replicate (varintSize (tag * 8 + 2) + varintSize bytes.length + bytes.length) 0
  number tag n := replicate (varintSize (tag * 8) + varintSize n) 0
  json_object f fs := by
    simp only [textSize_replicate, jsonSize, fieldsSize_eq, map_cons, sum_cons]
    omega
  json_array x xs := by
    simp only [textSize_replicate, jsonSize, itemsSize_eq, map_cons, sum_cons]
    omega
  json_string s := by
    rw [textSize_replicate, jsonSize]
    omega
  json_plain s _ := textSize_replicate _
  json_true := textSize_replicate 4
  json_false := textSize_replicate 5
  hex_plain _ := isPlain_of_mem_replicate
  hex_length _ := length_replicate
  base64_plain _ := isPlain_of_mem_replicate
  base64_length _ := length_replicate
  message_length _ _ := length_replicate

end Wire
