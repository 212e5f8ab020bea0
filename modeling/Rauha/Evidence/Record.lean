import Rauha.Library.Json
import Rauha.Library.Storage

/-!
# Journal records

The value layer of the Run journal: manifests, heads and entries, and the one byte string that
represents each of them.  `record` writes the canonical JSON of a value followed by a newline and
refuses what is longer than a mebibyte or what its own reader would not take back; `parseRecord`
reads a value and then insists that writing it again gives the very same bytes.

JSON text, timestamps and SHA-256 are not modelled but taken as a `Codec`.  `Codec.Lawful` is
what is assumed of them: a written value reads back as itself up to the reader's nesting limit,
written JSON has no raw newline in it, and a written timestamp reads back as itself.

The two facts everything later uses are `parseRecord_ok_iff` (a byte string parses exactly if it
is the record of the value it parses to) and `record_inj`.
-/

namespace Rauha

open Storage List

namespace Evidence

/-- Bounds each manifest, head and journal entry, including its newline. -/
def maxRecordBytes : ℕ := 1024 * 1024

/-- Leaves room for the entry envelope beneath the reader's limit. -/
def maxInputDepth : ℕ := 120

/-- The deepest nesting the JSON reader takes: its limit of 128 levels leaves 127 containers. -/
def readerDepth : ℕ := 127

inductive Error where
  | Io
  | Json
  | Busy
  | Invalid (message : String)
  | UncommittedTail
  | ReopenRequired
  deriving DecidableEq, Repr

/-- A JSON value: a document whose objects are ordered maps. -/
structure Value where
  doc : Json
  sorted : doc.sorted = true

namespace Value

@[ext] lemma ext {v w : Value} (h : v.doc = w.doc) : v = w := by
  cases v; cases w; simp_all

def isObject (v : Value) : Bool :=
  match v.doc with
  | .object _ => true
  | _ => false

end Value

structure JournalHead where
  manifestSha256 : String
  sequence : UInt64
  journalRoot : String
  journalBytes : UInt64
  deriving DecidableEq, Repr

structure Entry (τ : Type) where
  seq : UInt64
  ts : τ
  kind : String
  epoch : UInt64
  prev : String
  body : Value

/-- The code this development does not look into: JSON text, timestamps of type `τ`, and the
    hexadecimal SHA-256 of a byte string. -/
structure Codec (τ : Type) where
  toVec : Json → Bytes
  fromSlice : Bytes → Option Json
  showTime : τ → String
  readTime : String → Option τ
  sha256Hex : Bytes → String

def newline : UInt8 := 10

/-- **What is assumed of the codec.** -/
structure Codec.Lawful {τ : Type} (C : Codec τ) : Prop where
  read_written : ∀ j : Json, j.sorted → j.depth ≤ readerDepth →
    C.fromSlice (C.toVec j ++ [newline]) = some j
  read_deep : ∀ j : Json, j.sorted → readerDepth < j.depth →
    C.fromSlice (C.toVec j ++ [newline]) = none
  no_newline : ∀ j : Json, newline ∉ C.toVec j
  read_shown : ∀ t : τ, C.readTime (C.showTime t) = some t

/-- Two byte strings with one SHA-256 are equal. -/
def Codec.CollisionFree {τ : Type} (C : Codec τ) : Prop := Function.Injective C.sha256Hex

variable {τ : Type} (C : Codec τ)

/-! ## Values as documents, documents as values -/

/-- A type with a JSON form. -/
class Serde (C : Codec τ) (α : Type) where
  toValue : α → Json
  ofDoc : Json → Option α

/-- The fields of a derived record, in declaration order: an object with exactly the known keys,
    none of them twice, or an array of the right length. -/
def structFields (names : List String) : Json → Option (List Json)
  | .object fields =>
    if fields.all (fun f => f.1 ∈ names) && decide (fields.map Prod.fst).Nodup then
      names.mapM fun n => fields.lookup n
    else none
  | .array items => if items.length = names.length then some items else none
  | _ => none

def asU64 : Json → Option UInt64
  | .number (.posInt n) => some n
  | _ => none

def asStr : Json → Option String
  | .string s => some s
  | _ => none

instance : Serde C Value where
  toValue v := v.doc
  ofDoc j := some ⟨j.collect, Json.sorted_collect j⟩

instance : Serde C JournalHead where
  toValue h := .object [
    ("journal_bytes", .number (.posInt h.journalBytes)),
    ("journal_root", .string h.journalRoot),
    ("manifest_sha256", .string h.manifestSha256),
    ("sequence", .number (.posInt h.sequence))]
  ofDoc j := do
    match ← structFields ["manifest_sha256", "sequence", "journal_root", "journal_bytes"] j with
    | [m, s, r, b] => some ⟨← asStr m, ← asU64 s, ← asStr r, ← asU64 b⟩
    | _ => none

instance : Serde C (Entry τ) where
  toValue e := .object [
    ("body", e.body.doc),
    ("epoch", .number (.posInt e.epoch)),
    ("kind", .string e.kind),
    ("prev", .string e.prev),
    ("seq", .number (.posInt e.seq)),
    ("ts", .string (C.showTime e.ts))]
  ofDoc j := do
    match ← structFields ["seq", "ts", "kind", "epoch", "prev", "body"] j with
    | [s, t, k, e, p, b] =>
      some ⟨← asU64 s, ← C.readTime (← asStr t), ← asStr k, ← asU64 e, ← asStr p,
        ⟨b.collect, Json.sorted_collect b⟩⟩
    | _ => none

/-! ## The functions of the journal -/

section Functions

variable {α : Type} [Serde C α]

/-- The writer's maps are ordered already, so sorting every object is the identity. -/
def canonical (value : α) : Json := Serde.toValue C value

def digest (value : α) : String := "sha256:" ++ C.sha256Hex (C.toVec (canonical C value))

def record (value : α) : Except Error Bytes :=
  let bytes := C.toVec (canonical C value) ++ [newline]
  if maxRecordBytes < bytes.length then .error (.Invalid "record exceeds 1 MiB")
  else
    match C.fromSlice bytes with
    | none => .error .Json
    | some _ => .ok bytes

def parseRecord (α : Type) [Serde C α] (bytes : Bytes) : Except Error α :=
  match C.fromSlice bytes >>= Serde.ofDoc C with
  | none => .error .Json
  | some value =>
    match record C value with
    | .error e => .error e
    | .ok written =>
      if written ≠ bytes then
        .error (.Invalid "record is not canonical JSON plus newline")
      else .ok value

/-- The decoding half of `readRecordFile`: the file has been read up to one byte past the
    limit. -/
def readRecord (α : Type) [Serde C α] (bytes : Bytes) : Except Error α :=
  if maxRecordBytes < (bytes.take (maxRecordBytes + 1)).length then
    .error (.Invalid "record exceeds 1 MiB")
  else parseRecord C α (bytes.take (maxRecordBytes + 1))

end Functions

/-- A namespaced kind: at least one dot, and between the dots non-empty parts over `[a-z0-9_]`. -/
def validKind (kind : String) : Bool :=
  kind.toList.contains '.' &&
    (kind.toList.splitOn '.').all fun part =>
      !part.isEmpty && part.all fun c => c.isLower || c.isDigit || c == '_'

mutual

def fits : Json → ℕ → Bool
  | .array values, remaining => decide (0 < remaining) && fitsItems values (remaining - 1)
  | .object values, remaining => decide (0 < remaining) && fitsFields values (remaining - 1)
  | _, _ => true

def fitsItems : List Json → ℕ → Bool
  | [], _ => true
  | v :: vs, remaining => fits v remaining && fitsItems vs remaining

def fitsFields : List (String × Json) → ℕ → Bool
  | [], _ => true
  | (_, v) :: fs, remaining => fits v remaining && fitsFields fs remaining

end

def boundedInput (value : Value) : Except Error Value :=
  if fits value.doc maxInputDepth then .ok value
  else .error (.Invalid "input exceeds maximum JSON depth")

def checkedAdd (a b : UInt64) : Option UInt64 :=
  if a.toNat + b.toNat < 2 ^ 64 then some (a + b) else none

/-! ## Input depth -/

mutual

/-- `fits` measures nesting depth. -/
lemma fits_iff_depth_le : ∀ (j : Json) (r : ℕ), fits j r = true ↔ j.depth ≤ r
  | .array items, r => by
    have ih := fitsItems_iff_depth_le items (r - 1)
    simp only [fits, Json.depth, Bool.and_eq_true, decide_eq_true_eq, ih]
    omega
  | .object fields, r => by
    have ih := fitsFields_iff_depth_le fields (r - 1)
    simp only [fits, Json.depth, Bool.and_eq_true, decide_eq_true_eq, ih]
    omega
  | .null, r => by simp [fits, Json.depth]
  | .bool _, r => by simp [fits, Json.depth]
  | .number _, r => by simp [fits, Json.depth]
  | .string _, r => by simp [fits, Json.depth]

lemma fitsItems_iff_depth_le : ∀ (xs : List Json) (r : ℕ),
    fitsItems xs r = true ↔ Json.depthItems xs ≤ r
  | [], r => by simp [fitsItems, Json.depthItems]
  | x :: xs, r => by
    simp [fitsItems, Json.depthItems, fits_iff_depth_le x r, fitsItems_iff_depth_le xs r]

lemma fitsFields_iff_depth_le : ∀ (fs : List (String × Json)) (r : ℕ),
    fitsFields fs r = true ↔ Json.depthFields fs ≤ r
  | [], r => by simp [fitsFields, Json.depthFields]
  | (_, v) :: fs, r => by
    simp [fitsFields, Json.depthFields, fits_iff_depth_le v r, fitsFields_iff_depth_le fs r]

end

lemma boundedInput_ok_iff {v w : Value} :
    boundedInput v = .ok w ↔ v = w ∧ v.doc.depth ≤ maxInputDepth := by
  unfold boundedInput
  rw [← fits_iff_depth_le]
  split_ifs with h <;> simp [h]

lemma checkedAdd_eq_some_iff {a b c : UInt64} :
    checkedAdd a b = some c ↔ a.toNat + b.toNat < 2 ^ 64 ∧ a + b = c := by
  unfold checkedAdd
  split_ifs with h
  · simp only [Option.some.injEq, h, true_and]
  · simp only [h, false_and]

/-! ## One record per value -/

/-- A JSON form is lawful if every value has a form whose objects are maps and reads back from
    it. -/
structure Serde.Lawful (α : Type) [Serde C α] : Prop where
  sorted_toValue : ∀ a : α, (Serde.toValue C a).sorted
  ofDoc_toValue : ∀ a : α, Serde.ofDoc C (Serde.toValue C a) = some a

variable {C}

lemma Serde.lawful_value : Serde.Lawful C Value where
  sorted_toValue v := v.sorted
  ofDoc_toValue v := by
    simp only [Serde.ofDoc, Serde.toValue, Option.some.injEq]
    exact Value.ext (Json.collect_of_sorted v.doc v.sorted)

lemma Serde.lawful_head : Serde.Lawful C JournalHead where
  sorted_toValue h := by
    simp only [Serde.toValue, Json.sorted, Json.sortedFields, all_cons, all_nil, Bool.and_true]
    decide
  ofDoc_toValue _ := rfl

lemma Serde.lawful_entry (hC : C.Lawful) : Serde.Lawful C (Entry τ) where
  sorted_toValue e := by
    have hbody : e.body.doc.sorted = true := e.body.sorted
    simp only [Serde.toValue, Json.sorted, Json.sortedFields, hbody, all_cons, all_nil,
      Bool.and_true]
    decide
  ofDoc_toValue e := by
    have hbody : (⟨e.body.doc.collect, Json.sorted_collect e.body.doc⟩ : Value) = e.body :=
      Value.ext (Json.collect_of_sorted e.body.doc e.body.sorted)
    have hread : Serde.ofDoc C (Serde.toValue C e) = (C.readTime (C.showTime e.ts)).bind
        fun t => some (⟨e.seq, t, e.kind, e.epoch, e.prev,
          ⟨e.body.doc.collect, Json.sorted_collect e.body.doc⟩⟩ : Entry τ) := rfl
    rw [hread, hC.read_shown e.ts, hbody]
    rfl

section Records

variable {α : Type} [Serde C α] {a b : α} {bytes : Bytes}

/-- **When `record` accepts**, and what it writes. -/
lemma record_ok_iff (hC : C.Lawful) (hα : Serde.Lawful C α) :
    record C a = .ok bytes ↔
      bytes = C.toVec (canonical C a) ++ [newline] ∧ bytes.length ≤ maxRecordBytes ∧
        (canonical C a).depth ≤ readerDepth := by
  have hs : (canonical C a).sorted := hα.sorted_toValue a
  unfold record
  simp only
  by_cases hlen : maxRecordBytes < (C.toVec (canonical C a) ++ [newline]).length
  · rw [if_pos hlen]
    constructor
    · intro h
      cases h
    · rintro ⟨rfl, hle, -⟩
      omega
  · rw [if_neg hlen]
    by_cases hd : (canonical C a).depth ≤ readerDepth
    · rw [hC.read_written _ hs hd]
      simp only [Except.ok.injEq]
      constructor
      · rintro rfl
        exact ⟨rfl, by omega, hd⟩
      · rintro ⟨rfl, -, -⟩
        rfl
    · rw [hC.read_deep _ hs (by omega)]
      constructor
      · intro h
        cases h
      · rintro ⟨-, -, hle⟩
        exact absurd hle hd

/-- Whatever parses is the record of what it parses to: no law of the codec is involved. -/
lemma record_of_parseRecord (h : parseRecord C α bytes = .ok a) : record C a = .ok bytes := by
  unfold parseRecord at h
  split at h
  · cases h
  · rename_i value _
    split at h
    · cases h
    · rename_i written hrec
      split_ifs at h with hne
      cases h
      rw [hrec, not_not.mp hne]

/-- **Parsing and writing are inverse**: a byte string parses exactly if it is the record of the
    value it parses to. -/
lemma parseRecord_ok_iff (hC : C.Lawful) (hα : Serde.Lawful C α) :
    parseRecord C α bytes = .ok a ↔ record C a = .ok bytes := by
  refine ⟨record_of_parseRecord, fun h => ?_⟩
  obtain ⟨hbytes, -, hdepth⟩ := (record_ok_iff hC hα).mp h
  have hread : C.fromSlice bytes >>= Serde.ofDoc C = some a := by
    rw [hbytes, hC.read_written (canonical C a) (hα.sorted_toValue a) hdepth]
    exact hα.ofDoc_toValue a
  unfold parseRecord
  simp [hread, h]

lemma record_length (hC : C.Lawful) (hα : Serde.Lawful C α) (h : record C a = .ok bytes) :
    0 < bytes.length ∧ bytes.length ≤ maxRecordBytes := by
  obtain ⟨hbytes, hlen, -⟩ := (record_ok_iff hC hα).mp h
  refine ⟨?_, hlen⟩
  rw [hbytes, length_append, length_singleton]
  omega

/-- Reading a record file: the size limit never gets in the way of a record. -/
lemma readRecord_ok_iff (hC : C.Lawful) (hα : Serde.Lawful C α) :
    readRecord C α bytes = .ok a ↔ record C a = .ok bytes := by
  unfold readRecord
  by_cases hlen : bytes.length ≤ maxRecordBytes
  · have htake : bytes.take (maxRecordBytes + 1) = bytes := take_of_length_le (by omega)
    rw [htake, if_neg (by omega)]
    exact parseRecord_ok_iff hC hα
  · have hlong : (bytes.take (maxRecordBytes + 1)).length = maxRecordBytes + 1 := by
      rw [length_take]
      omega
    rw [if_pos (by omega)]
    constructor
    · intro h
      cases h
    · intro h
      exact absurd (record_length hC hα h).2 hlen

/-- **Different values have different records.** -/
lemma record_inj (hC : C.Lawful) (hα : Serde.Lawful C α) (ha : record C a = .ok bytes)
    (hb : record C b = .ok bytes) : a = b := by
  have h := (parseRecord_ok_iff hC hα).mpr ha
  rw [(parseRecord_ok_iff hC hα).mpr hb] at h
  cases h
  rfl

/-- With a collision-free hash, a digest determines the value among those that have a record. -/
lemma digest_inj {bytes' : Bytes} (hC : C.Lawful) (hα : Serde.Lawful C α) (hH : C.CollisionFree)
    (ha : record C a = .ok bytes) (hb : record C b = .ok bytes')
    (h : digest C a = digest C b) : a = b := by
  have htext : C.toVec (canonical C a) = C.toVec (canonical C b) :=
    hH ((String.append_right_inj _).mp h)
  obtain ⟨hbytes, -, -⟩ := (record_ok_iff hC hα).mp ha
  obtain ⟨hbytes', -, -⟩ := (record_ok_iff hC hα).mp hb
  have hsame : bytes = bytes' := by rw [hbytes, hbytes', htext]
  subst hsame
  exact record_inj hC hα ha hb

end Records

end Evidence

end Rauha
