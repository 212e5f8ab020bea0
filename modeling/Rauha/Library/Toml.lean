import Mathlib.Tactic

/-!
# TOML, as far as plain documents go

A document of tables whose values are strings, numbers, truth values and lists of strings, written
one field a line.  What a TOML reader makes of such a text is said by two kinds of law (`Reader`).

**Plain strings read back.**  A string that contains no quote, no backslash and no control character
is written between quotes as it is.

**Other strings do not.**  Where the text before a quote is plain, the reader reads a string there,
by the rules of TOML: `Quoted` says what it can be.  If what is written there without escapes reads
as itself it was plain (`plain_of_quoted`): a reader that stops too early has read too little, and
one that runs on has read one of the marks between the strings.  So a document that is read as
written has only plain strings (`Reader.plain_of_read`).
-/

/-- What holds of an element of a list if it holds of those before it, holds of all. -/
lemma List.forall_of_before {α : Type} {P : α → Prop} {l : List α}
    (h : ∀ before x after, l = before ++ x :: after → (∀ y ∈ before, P y) → P x) :
    ∀ x ∈ l, P x := by
  induction l using List.reverseRecOn with
  | nil => nofun
  | append_singleton l x ih =>
    have hinit : ∀ y ∈ l, P y := ih fun before y after hl =>
      h before y (after ++ [x]) (by simp [hl])
    intro y hy
    rcases List.mem_append.mp hy with hy | hy
    · exact hinit y hy
    · rw [List.mem_singleton.mp hy]
      exact h l x [] rfl hinit

namespace Toml

open List

/-! ## Strings -/

/-- The characters that stand for themselves between quotes. -/
def isPlain (c : Char) : Bool :=
  c == '\t' || (decide (32 ≤ c.toNat) && c != '"' && c != '\\' && c.toNat != 127)

def Plain (s : List Char) : Prop := ∀ c ∈ s, isPlain c = true

instance (s : List Char) : Decidable (Plain s) := List.decidableBAll (isPlain · = true) s

def isHexDigit (c : Char) : Bool :=
  c.isDigit || (decide ('a' ≤ c) && decide (c ≤ 'f')) || (decide ('A' ≤ c) && decide (c ≤ 'F'))

def hexValue (digits : List Char) : ℕ :=
  digits.foldl (fun n c => 16 * n + if c.isDigit then c.toNat - 48 else c.toNat % 32 + 9) 0

/-- What a backslash is followed by, and what it stands for. -/
inductive Escape : List Char → Char → Prop
  | backspace : Escape ['b'] (Char.ofNat 8)
  | tab : Escape ['t'] '\t'
  | newline : Escape ['n'] '\n'
  | formFeed : Escape ['f'] (Char.ofNat 12)
  | carriageReturn : Escape ['r'] '\r'
  | quote : Escape ['"'] '"'
  | backslash : Escape ['\\'] '\\'
  | unicode {u : Char} {digits : List Char} {x : Char} :
      u = 'u' ∧ digits.length = 4 ∨ u = 'U' ∧ digits.length = 8 →
      digits.all isHexDigit → hexValue digits = x.toNat → Escape (u :: digits) x

/-- The text after the quote of a basic string, its value, and what follows it. -/
inductive Basic : List Char → List Char → List Char → Prop
  | close (rest : List Char) : Basic ('"' :: rest) [] rest
  | char {c : Char} {text value rest : List Char} :
      isPlain c = true → Basic text value rest → Basic (c :: text) (c :: value) rest
  | escape {e : List Char} {x : Char} {text value rest : List Char} :
      Escape e x → Basic text value rest → Basic ('\\' :: (e ++ text)) (x :: value) rest

def isBlank (c : Char) : Bool := c == ' ' || c == '\t' || c == '\n' || c == '\r'

/-- The same for a string between triple quotes: it can have quotes and line ends in it, and a
    backslash at the end of a line joins it to the next. -/
inductive MultiLine : List Char → List Char → List Char → Prop
  | close (rest : List Char) : MultiLine ('"' :: '"' :: '"' :: rest) [] rest
  | char {c : Char} {text value rest : List Char} :
      isPlain c = true ∨ c = '"' ∨ c = '\n' ∨ c = '\r' →
      MultiLine text value rest → MultiLine (c :: text) (c :: value) rest
  | lineEnd {text value rest : List Char} :
      MultiLine ('\n' :: text) value rest → MultiLine ('\r' :: '\n' :: text) value rest
  | escape {e : List Char} {x : Char} {text value rest : List Char} :
      Escape e x → MultiLine text value rest → MultiLine ('\\' :: (e ++ text)) (x :: value) rest
  | join {blanks text value rest : List Char} :
      blanks.all isBlank → MultiLine text value rest →
      MultiLine ('\\' :: (blanks ++ text)) value rest

/-- **What a string can be** that starts with a quote and goes on with a text; a line end right
    after three quotes is left out. -/
inductive Quoted : List Char → List Char → Prop
  | basic {text value rest : List Char} : Basic text value rest → Quoted text value
  | multiLine {lineEnd text value rest : List Char} :
      lineEnd = [] ∨ lineEnd = ['\n'] ∨ lineEnd = ['\r', '\n'] →
      MultiLine text value rest → Quoted ('"' :: '"' :: (lineEnd ++ text)) value

/-! ## Strings that read as written -/

/-- The characters between the strings of a document that no string takes without a trace. -/
def isMark (c : Char) : Bool := c == ',' || c == ']' || c == '[' || c == '='

variable {value text e raw rest : List Char} {c m x : Char}

lemma isMark_iff : isMark c = true ↔ c = ',' ∨ c = ']' ∨ c = '[' ∨ c = '=' := by
  simp only [isMark, Bool.or_eq_true, beq_iff_eq, or_assoc]

/-- No mark is part of an escape. -/
lemma Escape.mark_notMem (h : Escape e x) (hc : isMark c = true) : c ∉ e := by
  have hcases := isMark_iff.mp hc
  cases h with
  | unicode hu hdigits _ =>
    rename_i u digits
    rw [mem_cons, not_or]
    constructor
    · rintro rfl
      rcases hu with ⟨rfl, -⟩ | ⟨rfl, -⟩ <;> revert hc <;> decide
    · intro hmem
      have hhex := all_eq_true.mp hdigits c hmem
      rcases hcases with rfl | rfl | rfl | rfl <;> revert hhex <;> decide
  | _ => rcases hcases with rfl | rfl | rfl | rfl <;> decide

lemma Escape.ne_nil (h : Escape e x) : e ≠ [] := by
  cases h <;> exact cons_ne_nil _ _

/-- What is read, `raw`, has no more characters and no fewer marks than its value. -/
structure Scanned (raw value : List Char) : Prop where
  marks : ∀ c, isMark c = true → raw.count c ≤ value.count c
  length : value.length ≤ raw.length

lemma Scanned.cons (h : Scanned raw value) (c : Char) :
    Scanned (c :: raw) (c :: value) where
  marks m hm := by
    have hle := h.marks m hm
    rw [count_cons, count_cons]
    omega
  length := Nat.succ_le_succ h.length

lemma ne_mark (hm : isMark m = true) (hc : isMark c = false) : c ≠ m := by
  rintro rfl
  rw [hm] at hc
  cases hc

lemma count_cons_of_ne (hm : isMark m = true) (hc : isMark c = false) :
    (c :: text).count m = text.count m := List.count_cons_of_ne (ne_mark hm hc)

lemma Scanned.escape (h : Scanned raw value) (he : Escape e x) :
    Scanned ('\\' :: (e ++ raw)) (x :: value) where
  marks m hm := by
    have hle := h.marks m hm
    rw [count_cons_of_ne hm rfl, count_append, count_eq_zero.mpr (he.mark_notMem hm), count_cons]
    omega
  length := by
    have hlength := h.length
    simp only [length_cons, length_append]
    omega

lemma mark_not_blank (hm : isMark m = true) (hc : isBlank c = true) : c ≠ m := by
  rintro rfl
  rcases isMark_iff.mp hm with rfl | rfl | rfl | rfl <;> revert hc <;> decide

/-- Blanks that are left out. -/
lemma Scanned.skip {raw value blanks : List Char} (h : Scanned raw value)
    (hblanks : ∀ c ∈ blanks, isBlank c = true) : Scanned (blanks ++ raw) value where
  marks m hm := by
    have hle := h.marks m hm
    have hnot : m ∉ blanks := fun hmem => mark_not_blank hm (hblanks m hmem) rfl
    rw [count_append, count_eq_zero.mpr hnot]
    omega
  length := by
    have hlength := h.length
    rw [length_append]
    omega

/-- A basic string ends at a quote; if its value is as long as its text it has no escapes. -/
lemma Basic.scanned (h : Basic text value rest) :
    ∃ raw, text = raw ++ '"' :: rest ∧ Scanned raw value ∧
      (raw.length ≤ value.length → raw = value ∧ Plain raw) := by
  induction h with
  | close rest => exact ⟨[], rfl, ⟨fun _ _ => le_refl _, le_refl _⟩, fun _ => ⟨rfl, nofun⟩⟩
  | @char c text value rest hc _ ih =>
    obtain ⟨raw, rfl, hscanned, hplain⟩ := ih
    refine ⟨c :: raw, rfl, hscanned.cons c, fun hle => ?_⟩
    obtain ⟨rfl, hraw⟩ := hplain (Nat.le_of_succ_le_succ hle)
    exact ⟨rfl, forall_mem_cons.mpr ⟨hc, hraw⟩⟩
  | @escape e x text value rest he _ ih =>
    obtain ⟨raw, rfl, hscanned, -⟩ := ih
    refine ⟨'\\' :: (e ++ raw), by simp, hscanned.escape he, fun hle => ?_⟩
    have hpos := length_pos_iff.mpr he.ne_nil
    have hlength := hscanned.length
    simp only [length_cons, length_append] at hle
    omega

lemma MultiLine.scanned (h : MultiLine text value rest) :
    ∃ raw, text = raw ++ '"' :: '"' :: '"' :: rest ∧ Scanned raw value := by
  induction h with
  | close rest => exact ⟨[], rfl, ⟨fun _ _ => le_refl _, le_refl _⟩⟩
  | @char c text value rest _ _ ih =>
    obtain ⟨raw, rfl, hscanned⟩ := ih
    exact ⟨c :: raw, rfl, hscanned.cons c⟩
  | @lineEnd text value rest _ ih =>
    obtain ⟨raw, hraw, hscanned⟩ := ih
    refine ⟨'\r' :: raw, by rw [cons_append, ← hraw], ?_⟩
    exact @Scanned.skip raw value ['\r'] hscanned (forall_mem_singleton.mpr rfl)
  | @escape e x text value rest he _ ih =>
    obtain ⟨raw, rfl, hscanned⟩ := ih
    exact ⟨'\\' :: (e ++ raw), by simp, hscanned.escape he⟩
  | @join blanks text value rest hblanks _ ih =>
    obtain ⟨raw, rfl, hscanned⟩ := ih
    refine ⟨'\\' :: (blanks ++ raw), by simp, ?_⟩
    have hskip := hscanned.skip (all_eq_true.mp hblanks)
    refine ⟨fun m hm => ?_, Nat.le_succ_of_le hskip.length⟩
    rw [count_cons_of_ne hm rfl]
    exact hskip.marks m hm

/-- **What is read of a string**, of either kind. -/
lemma Quoted.scanned (h : Quoted text value) :
    ∃ raw rest, text = raw ++ '"' :: rest ∧ Scanned raw value ∧
      (raw.length ≤ value.length → raw = value ∧ Plain raw) := by
  cases h with
  | basic hbasic =>
    obtain ⟨raw, htext, h⟩ := hbasic.scanned
    exact ⟨raw, _, htext, h⟩
  | @multiLine lineEnd text value rest hend hmulti =>
    obtain ⟨raw, rfl, hscanned⟩ := hmulti.scanned
    have hblanks : ∀ c ∈ lineEnd, isBlank c = true := by
      rcases hend with rfl | rfl | rfl <;> simp [isBlank]
    have hskip := hscanned.skip hblanks
    refine ⟨'"' :: '"' :: (lineEnd ++ raw), '"' :: '"' :: rest, by simp, ⟨fun m hm => ?_, ?_⟩,
      fun hle => ?_⟩
    · rw [count_cons_of_ne hm rfl, count_cons_of_ne hm rfl]
      exact hskip.marks m hm
    · exact (hskip.length.trans (Nat.le_succ _)).trans (Nat.le_succ _)
    · have hlength := hskip.length
      simp only [length_cons] at hle
      omega

/-- After a string comes a mark before the next quote, or no quote at all. -/
def Follows (rest : List Char) : Prop :=
  '"' ∉ rest ∨ ∃ between m more, rest = between ++ m :: more ∧ '"' ∉ between ∧ isMark m = true

/-- **A string that reads as it is written is plain.** -/
theorem plain_of_quoted {s rest : List Char} (h : Quoted (s ++ '"' :: rest) s)
    (hrest : Follows rest) : Plain s := by
  obtain ⟨raw, out, htext, hscanned, hplain⟩ := h.scanned
  rcases append_eq_append_iff.mp htext with ⟨extra, rfl, hextra⟩ | ⟨extra, hs, -⟩
  · cases extra with
    | nil =>
      obtain ⟨-, hraw⟩ := hplain (by simp)
      rwa [append_nil] at hraw
    | cons q extra =>
      -- the reader has run over the closing quote
      obtain ⟨rfl, hout⟩ := List.cons.inj hextra
      exfalso
      rcases hrest with hnone | ⟨between, m, more, rfl, hbetween, hm⟩
      · exact hnone (by simp [hout])
      · obtain ⟨taken, rfl⟩ : ∃ taken, extra = between ++ m :: taken := by
          rcases append_eq_append_iff.mp hout with ⟨a, rfl, ha⟩ | ⟨a, hb, ha⟩
          · cases a with
            | nil => exact absurd (List.cons.inj ha).1.symm (ne_mark hm rfl)
            | cons b a =>
              obtain ⟨rfl, -⟩ := List.cons.inj ha
              exact ⟨a, rfl⟩
          · exfalso
            cases a with
            | nil => exact absurd (List.cons.inj ha).1 (ne_mark hm rfl)
            | cons b a =>
              obtain ⟨rfl, -⟩ := List.cons.inj ha
              exact hbetween (by simp [hb])
        have hcount := hscanned.marks m hm
        simp only [count_append, count_cons_self, count_cons] at hcount
        omega
  · have hlength := hscanned.length
    rw [hs, length_append] at hlength
    have hnil : extra = [] := length_eq_zero_iff.mp (by omega)
    rw [hnil, append_nil] at hs
    subst hs
    exact (hplain (le_refl _)).2

/-! ## Documents -/

/-- How a list is laid out: on one line, or one item a line. -/
inductive Layout where
  | inline
  | block
  deriving DecidableEq, Repr

inductive Value where
  | string (s : String)
  | number (n : ℕ)
  | boolean (b : Bool)
  | strings (layout : Layout) (items : List String)
  deriving DecidableEq, Repr

structure Table where
  name : String
  fields : List (String × Value)
  deriving DecidableEq, Repr

/-- A string between quotes, as it is. -/
def quote (s : String) : List Char := '"' :: (s.toList ++ ['"'])

namespace Layout

def emptyText : Layout → List Char
  | inline => ['[', ']']
  | block => ['[', '\n', '\n', ']']

def openText : Layout → List Char
  | inline => ['[']
  | block => ['[', '\n', ' ', ' ', ' ', ' ']

def separator : Layout → List Char
  | inline => [',', ' ']
  | block => [',', '\n', ' ', ' ', ' ', ' ']

def closeText : Layout → List Char
  | inline => [']']
  | block => ['\n', ']']

/-- The items after the first, and the end of the list. -/
def renderItems (l : Layout) : List String → List Char
  | [] => l.closeText
  | s :: rest => l.separator ++ quote s ++ l.renderItems rest

/-- A list up to the item that comes next. -/
def renderBegun (l : Layout) (items : List String) : List Char :=
  l.openText ++ items.flatMap fun s => quote s ++ l.separator

end Layout

def Value.render : Value → List Char
  | .string s => quote s
  | .number n => Nat.toDigits 10 n
  | .boolean b => (toString b).toList
  | .strings l [] => l.emptyText
  | .strings l (s :: rest) => l.openText ++ quote s ++ l.renderItems rest

def renderKey (key : String) : List Char := key.toList ++ [' ', '=', ' ']

def renderField (f : String × Value) : List Char := renderKey f.1 ++ f.2.render ++ ['\n']

def renderHeader (name : String) : List Char := '[' :: (name.toList ++ [']', '\n'])

def Table.render (t : Table) : List Char := renderHeader t.name ++ t.fields.flatMap renderField

/-- Tables with an empty line between them. -/
def render : List Table → List Char
  | [] => []
  | [t] => t.render
  | t :: ts => t.render ++ '\n' :: render ts

/-- A document up to the value that comes next. -/
def renderBefore (tables : List Table) (name : String) (fields : List (String × Value))
    (key : String) : List Char :=
  (tables.flatMap fun t => t.render ++ ['\n']) ++ renderHeader name ++ fields.flatMap renderField ++
    renderKey key

/-! ## What is read -/

/-- What a document stands for; `other` is what this development does not look into. -/
inductive Data where
  | string (s : String)
  | integer (n : ℤ)
  | boolean (b : Bool)
  | array (items : List Data)
  | table (fields : List (String × Data))
  | other

/-- The entry of a table. -/
def Data.field (key : String) : Data → Option Data
  | .table fields => fields.lookup key
  | _ => none

/-- The value of a key of one of the tables of a document. -/
def Data.entry (d : Data) (name key : String) : Option Data := (d.field name).bind (Data.field key)

def Value.data : Value → Data
  | .string s => .string s
  | .number n => .integer n
  | .boolean b => .boolean b
  | .strings _ items => .array (items.map .string)

def fieldData (f : String × Value) : String × Data := (f.1, f.2.data)

def tableData (t : Table) : String × Data := (t.name, .table (t.fields.map fieldData))

def data (doc : List Table) : Data := .table (doc.map tableData)

/-- The characters of a key without quotes. -/
def isBare (c : Char) : Bool := c.isAlphanum || c == '_' || c == '-'

def Bare (s : String) : Prop := s.toList ≠ [] ∧ ∀ c ∈ s.toList, isBare c = true

instance (s : String) : Decidable (Bare s) :=
  have := List.decidableBAll (isBare · = true) s.toList
  inferInstanceAs (Decidable (_ ∧ _))

/-- A value that is written right: numbers have 63 bits, and strings are plain. -/
def Value.Plain : Value → Prop
  | .string s => Toml.Plain s.toList
  | .number n => n < 2 ^ 63
  | .boolean _ => True
  | .strings _ items => ∀ s ∈ items, Toml.Plain s.toList

def FieldPlain (f : String × Value) : Prop := Bare f.1 ∧ f.2.Plain

structure Table.Plain (t : Table) : Prop where
  name : Bare t.name
  fields : ∀ f ∈ t.fields, FieldPlain f

variable {name : String} {fields : List (String × Value)}

lemma Table.plain_mk : Table.Plain ⟨name, fields⟩ ↔ Bare name ∧ ∀ f ∈ fields, FieldPlain f :=
  ⟨fun h => ⟨h.name, h.fields⟩, fun h => ⟨h.1, h.2⟩⟩

/-- A document of plain tables, of which no key occurs twice. -/
structure WellFormed (doc : List Table) : Prop where
  plain : ∀ t ∈ doc, t.Plain
  names : (doc.map Table.name).Nodup
  keys : ∀ t ∈ doc, (t.fields.map Prod.fst).Nodup

/-- **A reader of TOML.** -/
structure Reader where
  read : List Char → Option Data
  /-- Plain documents are read as they are written. -/
  plain : ∀ doc, WellFormed doc → read (render doc) = some (data doc)
  /-- After a plain text, the string that is read at a quote is the value of the key. -/
  string_at : ∀ (tables : List Table) name fields key text d, (∀ t ∈ tables, t.Plain) → Bare name →
    (∀ f ∈ fields, FieldPlain f) → Bare key →
    read (renderBefore tables name fields key ++ '"' :: text) = some d →
    ∃ v, Quoted text v.toList ∧ d.entry name key = some (.string v)
  /-- In a list it is the item that comes next. -/
  item_at : ∀ (tables : List Table) name fields key (l : Layout) (items : List String) text d,
    (∀ t ∈ tables, t.Plain) → Bare name → (∀ f ∈ fields, FieldPlain f) → Bare key →
    (∀ s ∈ items, Toml.Plain s.toList) →
    read (renderBefore tables name fields key ++ l.renderBegun items ++ '"' :: text) = some d →
    ∃ v more, Quoted text v.toList ∧
      d.entry name key = some (.array (items.map .string ++ .string v :: more))

/-! ## Documents that read as written -/

lemma quote_notMem_bare {s : String} (h : Bare s) : '"' ∉ s.toList := by
  intro hmem
  have hbare := h.2 _ hmem
  revert hbare
  decide

/-- What follows a field. -/
def renderAfter (fields : List (String × Value)) (tables : List Table) : List Char :=
  fields.flatMap renderField ++ if tables = [] then [] else '\n' :: render tables

lemma render_cons (t : Table) (ts : List Table) :
    render (t :: ts) = t.render ++ if ts = [] then [] else '\n' :: render ts := by
  cases ts <;> simp [render]

variable {before after : List Table}

lemma render_append {t : Table} :
    render (before ++ t :: after) =
      (before.flatMap fun t => t.render ++ ['\n']) ++ render (t :: after) := by
  induction before with
  | nil => rfl
  | cons b before ih =>
    rw [cons_append, render_cons, if_neg (by simp), ih]
    simp

/-- A document around one of its values. -/
lemma render_around {key : String} {rest : List (String × Value)} {value : Value} :
    render (before ++ ⟨name, fields ++ (key, value) :: rest⟩ :: after) =
      renderBefore before name fields key ++ (value.render ++ '\n' :: renderAfter rest after) := by
  rw [render_append, render_cons]
  simp [Table.render, renderBefore, renderField, renderAfter]

/-- After a line comes another field, another table, or nothing. -/
lemma follows_line {rest : List (String × Value)} (hbare : ∀ f ∈ rest, Bare f.1) :
    Follows ('\n' :: renderAfter rest after) := by
  cases rest with
  | cons f rest =>
    refine .inr ⟨'\n' :: (f.1.toList ++ [' ']), '=',
      ' ' :: (f.2.render ++ '\n' :: renderAfter rest after), ?_, ?_, rfl⟩
    · simp [renderAfter, renderField, renderKey]
    · simpa using quote_notMem_bare (hbare f (by simp))
  | nil =>
    cases after with
    | nil => exact .inl (by simp [renderAfter])
    | cons t after =>
      refine .inr ⟨['\n', '\n'], '[', t.name.toList ++ ']' :: '\n' ::
        renderAfter t.fields after, ?_, by decide, rfl⟩
      simp [renderAfter, render_cons, Table.render, renderHeader]

/-- After an item comes the next, or the end of the list. -/
lemma Layout.follows_item (l : Layout) (items : List String) (more : List Char) :
    Follows (l.renderItems items ++ more) := by
  cases items with
  | cons s items =>
    cases l <;> exact .inr ⟨[], ',', _, rfl, by decide, rfl⟩
  | nil =>
    cases l with
    | inline => exact .inr ⟨[], ']', _, rfl, by decide, rfl⟩
    | block => exact .inr ⟨['\n'], ']', _, rfl, by decide, rfl⟩

/-- A list around one of its items. -/
lemma Layout.render_around (l : Layout) (before : List String) (s : String) (after : List String) :
    (Value.strings l (before ++ s :: after)).render =
      l.renderBegun before ++ '"' :: (s.toList ++ '"' :: l.renderItems after) := by
  have hrest : ∀ before, l.renderItems (before ++ s :: after) = l.separator ++
      (before.flatMap fun s => quote s ++ l.separator) ++ quote s ++ l.renderItems after := by
    intro before
    induction before with
    | nil => simp [renderItems]
    | cons b before ih => simp [renderItems, ih]
  cases before with
  | nil => simp [Value.render, renderBegun, quote]
  | cons b before => simp [Value.render, hrest, renderBegun, quote]

variable (R : Reader)

/-- **A document that is read as it is written is plain.**  It is enough that the values that are
    not known to be plain are read right if they are read at all. -/
theorem Reader.plain_of_read {doc : List Table} {d : Data} (h : R.read (render doc) = some d)
    (hbare : ∀ t ∈ doc, Bare t.name ∧ ∀ f ∈ t.fields, Bare f.1)
    (hread : ∀ t ∈ doc, ∀ f ∈ t.fields, f.2.Plain ∨ (∀ n, f.2 ≠ .number n) ∧
      ∀ x, d.entry t.name f.1 = some x → x = f.2.data) :
    ∀ t ∈ doc, t.Plain := by
  refine forall_of_before fun before t after hdoc hbefore => ?_
  have ht : t ∈ doc := by simp [hdoc]
  refine ⟨(hbare t ht).1, forall_of_before fun fields f rest hfields hplain => ?_⟩
  have hf : f ∈ t.fields := by simp [hfields]
  have hrest : ∀ f ∈ rest, Bare f.1 := fun g hg => (hbare t ht).2 g (by simp [hfields, hg])
  refine ⟨(hbare t ht).2 f hf, ?_⟩
  rcases hread t ht f hf with hplain' | ⟨hnumber, hentry⟩
  · exact hplain'
  obtain ⟨name, tfields⟩ := t
  obtain ⟨key, value⟩ := f
  dsimp only at hfields hentry hnumber hf ⊢
  subst hfields hdoc
  rw [render_around] at h
  have hname := (hbare _ ht).1
  have hkey := (hbare _ ht).2 _ hf
  cases value with
  | number n => exact absurd rfl (hnumber n)
  | boolean b => trivial
  | string s =>
    have htext : Value.render (.string s) ++ '\n' :: renderAfter rest after =
        '"' :: (s.toList ++ '"' :: '\n' :: renderAfter rest after) := by
      simp [Value.render, quote]
    rw [htext] at h
    obtain ⟨v, hv, hd⟩ := R.string_at _ _ _ _ _ _ hbefore hname hplain hkey h
    obtain rfl : v = s := by simpa [Value.data] using hentry _ hd
    exact plain_of_quoted hv (follows_line hrest)
  | strings l items =>
    refine forall_of_before fun begun s left hitems hbegun => ?_
    subst hitems
    have htext : Value.render (.strings l (begun ++ s :: left)) ++
        '\n' :: renderAfter rest after = l.renderBegun begun ++
          '"' :: (s.toList ++ '"' :: (l.renderItems left ++ '\n' :: renderAfter rest after)) := by
      rw [l.render_around]
      simp
    rw [htext, ← append_assoc] at h
    obtain ⟨v, more, hv, hd⟩ := R.item_at _ _ _ _ _ _ _ _ hbefore hname hplain hkey hbegun h
    obtain rfl : v = s := by
      have hitem := hentry _ hd
      simp only [Value.data, map_append, map_cons, Data.array.injEq,
        append_cancel_left_eq, List.cons.injEq, Data.string.injEq] at hitem
      exact hitem.1
    exact plain_of_quoted hv (l.follows_item left _)

end Toml
