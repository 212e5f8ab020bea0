import Rauha.Library.Toml

/-!
# A reader of plain TOML

The laws of `Toml.Reader` can be met: `Toml.reader` reads plain documents as they are written by
`Toml.render`, and refuses every other text.

A text is at most one plain document, and what stands at one place of it does not depend on what
follows.  Both come from the parts being **delimited** (`Delimited`): the text of a string, a value,
a field or a table tells where it ends.  A sequence of delimited parts is told apart part by part,
as far as two texts go together (`Delimited.split`).
-/

namespace Toml

open List

/-! ## Texts that tell where they end -/

/-- The texts of things with `P`, and what they stand for, can be told whatever follows. -/
def Delimited {α β : Type} (P : α → Prop) (enc : α → List Char) (val : α → β) : Prop :=
  ∀ ⦃a b : α⦄ ⦃r r' : List Char⦄, P a → P b → enc a ++ r = enc b ++ r' → val a = val b ∧ r = r'

variable {r r' text : List Char} {s key name : String} {items : List String}

/-- A character that is not before it tells where a text ends. -/
lemma append_cons_inj {c : Char} {a b : List Char} (ha : c ∉ a) (hb : c ∉ b)
    (h : a ++ c :: r = b ++ c :: r') : a = b ∧ r = r' := by
  have htake : ∀ {l t : List Char}, c ∉ l → (l ++ c :: t).takeWhile (· ≠ c) = l := by
    intro l t hl
    rw [takeWhile_append_of_pos]
    · simp
    · exact fun d hd => decide_eq_true fun hdc => hl (hdc ▸ hd)
  obtain rfl : a = b := by rw [← @htake a r ha, h, htake hb]
  exact ⟨rfl, (cons.inj (append_cancel_left h)).2⟩

/-- A string between fixed texts, of which the second starts with a character it does not have. -/
lemma delimited_string {P : String → Prop} {enc : String → List Char} (before : List Char)
    (c : Char) (after : List Char) (henc : ∀ s, enc s = before ++ (s.toList ++ c :: after))
    (hc : ∀ s, P s → c ∉ s.toList) : Delimited P enc id := by
  intro s s' r r' hs hs' h
  simp only [henc, append_assoc, cons_append, append_cancel_left_eq] at h
  obtain ⟨hstring, hr⟩ := append_cons_inj (hc s hs) (hc s' hs') h
  exact ⟨String.toList_inj.mp hstring, append_cancel_left hr⟩

section

variable {α β : Type} {P : α → Prop} {enc : α → List Char} {val : α → β} {xs ys : List α}

/-- **Two sequences with the same text** agree as far as the second goes. -/
lemma Delimited.split (h : Delimited P enc val) (hend : ∀ a, P a → ∀ t, r ≠ enc a ++ t)
    (hxs : ∀ x ∈ xs, P x) (hys : ∀ y ∈ ys, P y)
    (heq : xs.flatMap enc ++ r = ys.flatMap enc ++ r') :
    ∃ front back, xs = front ++ back ∧ front.map val = ys.map val ∧
      back.flatMap enc ++ r = r' := by
  induction ys generalizing xs with
  | nil => exact ⟨[], xs, rfl, rfl, heq⟩
  | cons y ys ih =>
    obtain ⟨hy, hys⟩ := forall_mem_cons.mp hys
    rw [flatMap_cons, append_assoc] at heq
    cases xs with
    | nil => exact absurd heq (hend y hy _)
    | cons x xs =>
      obtain ⟨hx, hxs⟩ := forall_mem_cons.mp hxs
      rw [flatMap_cons, append_assoc] at heq
      obtain ⟨hval, hmore⟩ := h hx hy heq
      obtain ⟨front, back, rfl, hfront, hback⟩ := ih hxs hys hmore
      exact ⟨x :: front, back, rfl, by rw [map_cons, map_cons, hval, hfront], hback⟩

/-- Sequences that both end are the same. -/
lemma Delimited.sequence (h : Delimited P enc val) (hend : ∀ a, P a → ∀ t, r ≠ enc a ++ t)
    (hend' : ∀ a, P a → ∀ t, r' ≠ enc a ++ t) (hxs : ∀ x ∈ xs, P x) (hys : ∀ y ∈ ys, P y)
    (heq : xs.flatMap enc ++ r = ys.flatMap enc ++ r') : xs.map val = ys.map val ∧ r = r' := by
  obtain ⟨front, back, rfl, hfront, hback⟩ := h.split hend hxs hys heq
  cases back with
  | nil => exact ⟨by rw [append_nil, hfront], hback⟩
  | cons x back =>
    rw [flatMap_cons, append_assoc] at hback
    exact absurd hback.symm (hend' x (hxs x (by simp)) _)

end

/-! ## Strings and lists -/

lemma delimited_quote : Delimited (fun s => Plain s.toList) quote id := by
  refine delimited_string ['"'] '"' [] (fun s => rfl) ?_
  intro s hs hmem
  have hplain := hs _ hmem
  revert hplain
  decide

lemma basic_of_plain {s : List Char} (h : Plain s) (rest : List Char) :
    Basic (s ++ '"' :: rest) s rest := by
  induction s with
  | nil => exact .close rest
  | cons c s ih => exact .char (h c mem_cons_self) (ih fun d hd => h d (mem_cons_of_mem _ hd))

/-- An item after another one. -/
def Layout.item (l : Layout) (s : String) : List Char := l.separator ++ quote s

lemma Layout.delimited_item (l : Layout) : Delimited (fun s => Plain s.toList) l.item id := by
  intro s s' r r' hs hs' h
  simp only [Layout.item, append_assoc, append_cancel_left_eq] at h
  exact delimited_quote hs hs' h

lemma Layout.renderItems_eq (l : Layout) (items : List String) :
    l.renderItems items = items.flatMap l.item ++ l.closeText := by
  induction items with
  | nil => rfl
  | cons s items ih => simp [Layout.renderItems, ih, Layout.item]

lemma Layout.close_ne_item (l : Layout) (s : String) (t : List Char) :
    l.closeText ++ r ≠ l.item s ++ t := by
  cases l <;> simp [Layout.closeText, Layout.item, Layout.separator]

/-- The items of a list, with one more separator in front. -/
lemma Layout.separator_append (l : Layout) (items : List String) (r : List Char) :
    l.separator ++ ((items.flatMap fun s => quote s ++ l.separator) ++ r) =
      items.flatMap l.item ++ (l.separator ++ r) := by
  induction items with
  | nil => rfl
  | cons s items ih =>
    simp only [flatMap_cons, append_assoc, Layout.item] at ih ⊢
    rw [ih]

/-- A list that is not empty, up to its first item. -/
lemma render_strings_cons (l : Layout) (s : String) (items : List String) (r : List Char) :
    (Value.strings l (s :: items)).render ++ r =
      l.openText ++ (quote s ++ (items.flatMap l.item ++ (l.closeText ++ r))) := by
  simp [Value.render, l.renderItems_eq]

/-- After its opening a list is empty, or its layout can be told. -/
lemma openText_inj {l l' : Layout} (h : l.openText ++ '"' :: r = l'.openText ++ '"' :: r') :
    l = l' ∧ r = r' := by
  cases l <;> cases l' <;> simp_all [Layout.openText]

lemma emptyText_ne (l l' : Layout) : l.emptyText ++ r ≠ l'.openText ++ '"' :: r' := by
  cases l <;> cases l' <;> simp [Layout.emptyText, Layout.openText]

lemma strings_inj {l l' : Layout} {items items' : List String} (hs : ∀ s ∈ items, Plain s.toList)
    (hs' : ∀ s ∈ items', Plain s.toList)
    (h : (Value.strings l items).render ++ r = (Value.strings l' items').render ++ r') :
    items = items' ∧ r = r' := by
  cases items with
  | nil =>
    cases items' with
    | nil => cases l <;> cases l' <;> simp_all [Value.render, Layout.emptyText]
    | cons s' items' => exact absurd (h.trans (render_strings_cons ..)) (emptyText_ne l l')
  | cons s items =>
    cases items' with
    | nil => exact absurd (h.symm.trans (render_strings_cons ..)) (emptyText_ne l' l)
    | cons s' items' =>
      obtain ⟨hs, hitems⟩ := forall_mem_cons.mp hs
      obtain ⟨hs', hitems'⟩ := forall_mem_cons.mp hs'
      rw [render_strings_cons, render_strings_cons] at h
      obtain ⟨rfl, -⟩ := openText_inj h
      obtain ⟨hfirst, hmore⟩ := delimited_quote hs hs' (append_cancel_left h)
      obtain ⟨hrest, hr⟩ := l.delimited_item.sequence (fun s _ => l.close_ne_item s)
        (fun s _ => l.close_ne_item s) hitems hitems' hmore
      rw [map_id, map_id] at hrest
      exact ⟨congrArg₂ cons hfirst hrest, append_cancel_left hr⟩

/-! ## Values -/

/-- What the first character of a value says about it. -/
def kindOf (c : Char) : Char := if c = '"' ∨ c = '[' then c else ' '

def Value.kind : Value → Char
  | .string _ => '"'
  | .strings _ _ => '['
  | .number _ | .boolean _ => ' '

lemma Value.kind_eq {v : Value} {c : Char} (h : v.render ++ r = c :: r') : kindOf c = v.kind := by
  cases v with
  | string s =>
    obtain ⟨rfl, -⟩ := cons.inj h
    rfl
  | strings l items => cases l <;> cases items <;> (obtain ⟨rfl, -⟩ := cons.inj h; rfl)
  | boolean b => cases b <;> (obtain ⟨rfl, -⟩ := cons.inj h; rfl)
  | number n =>
    cases hn : Nat.toDigits 10 n with
    | nil => exact absurd hn Nat.toDigits_ne_nil
    | cons d ds =>
      rw [Value.render, hn] at h
      obtain ⟨rfl, -⟩ := cons.inj h
      have hdigit := Nat.isDigit_of_mem_toDigits (b := 10) (n := n) (c := d) (by decide) (by decide)
        (by simp [hn])
      refine if_neg ?_
      rintro (rfl | rfl) <;> revert hdigit <;> decide

/-- A number or a truth value is one word. -/
lemma line_notMem_word {v : Value} (h : v.kind = ' ') : '\n' ∉ v.render := by
  cases v with
  | string s => cases h
  | strings l items => cases h
  | boolean b => cases b <;> decide
  | number n =>
    intro hmem
    have hdigit := Nat.isDigit_of_mem_toDigits (b := 10) (by decide) (by decide) hmem
    revert hdigit
    decide

/-- Words with the same text are the same. -/
lemma word_inj {v v' : Value} (h : v.kind = ' ') (h' : v'.kind = ' ')
    (heq : v.render = v'.render) : v.data = v'.data := by
  have hdigits : ∀ n b, Nat.toDigits 10 n ≠ (toString (b : Bool)).toList := by
    intro n b heq
    have hdigit : (toString b).toList.all Char.isDigit = true := all_eq_true.mpr fun c hc =>
      Nat.isDigit_of_mem_toDigits (by decide) (by decide) (heq ▸ hc)
    revert hdigit
    cases b <;> decide
  cases v with
  | string s => cases h
  | strings l items => cases h
  | number n =>
    cases v' with
    | string s => cases h'
    | strings l items => cases h'
    | boolean b => exact absurd heq (hdigits n b)
    | number m =>
      have hvalue := congrArg (Nat.ofDigitChars 10 · 0) heq
      simp only [Value.render, Nat.ofDigitChars_ten_toDigits] at hvalue
      rw [hvalue]
  | boolean b =>
    cases v' with
    | string s => cases h'
    | strings l items => cases h'
    | number n => exact absurd heq.symm (hdigits n b)
    | boolean b' => cases b <;> cases b' <;> first | rfl | exact absurd heq (by decide)

/-- **A plain value ends with its line.** -/
lemma delimited_value : Delimited Value.Plain (fun v => v.render ++ ['\n']) Value.data := by
  intro v v' r r' hv hv' h
  rw [append_assoc, append_assoc] at h
  have hkind : v.kind = v'.kind := by
    cases hc : v.render ++ (['\n'] ++ r) with
    | nil => simp at hc
    | cons c rest => exact (v.kind_eq hc).symm.trans (v'.kind_eq (h.symm.trans hc))
  by_cases hword : v.kind = ' '
  · obtain ⟨heq, hr⟩ := append_cons_inj (line_notMem_word hword)
      (line_notMem_word (hkind ▸ hword)) h
    exact ⟨word_inj hword (hkind ▸ hword) heq, hr⟩
  · cases v with
    | number n => exact absurd rfl hword
    | boolean b => exact absurd rfl hword
    | string s =>
      cases v' with
      | string s' =>
        obtain ⟨hstring, hr⟩ := delimited_quote hv hv' h
        exact ⟨congrArg Data.string hstring, (cons.inj hr).2⟩
      | number n => cases hkind
      | boolean b => cases hkind
      | strings l items => cases hkind
    | strings l items =>
      cases v' with
      | strings l' items' =>
        obtain ⟨rfl, hr⟩ := strings_inj hv hv' h
        exact ⟨rfl, (cons.inj hr).2⟩
      | number n => cases hkind
      | boolean b => cases hkind
      | string s => cases hkind

/-! ## Fields and tables -/

lemma bare_notMem {c : Char} (hc : isBare c = false) : ∀ s, Bare s → c ∉ s.toList := by
  intro s hs hmem
  rw [hs.2 c hmem] at hc
  cases hc

lemma delimited_key : Delimited Bare renderKey id :=
  delimited_string [] ' ' ['=', ' '] (fun _ => rfl) (bare_notMem rfl)

lemma delimited_header : Delimited Bare renderHeader id :=
  delimited_string ['['] ']' ['\n'] (fun _ => rfl) (bare_notMem rfl)

lemma delimited_field : Delimited FieldPlain renderField fieldData := by
  intro f f' r r' hf hf' h
  simp only [renderField, append_assoc] at h
  obtain ⟨hkey, hvalue⟩ := delimited_key hf.1 hf'.1 h
  simp only [← append_assoc] at hvalue
  obtain ⟨hdata, hr⟩ := delimited_value hf.2 hf'.2 hvalue
  exact ⟨Prod.ext hkey hdata, hr⟩

/-- No key starts with a line end. -/
lemma line_ne_key (h : Bare key) (t : List Char) : '\n' :: r ≠ renderKey key ++ t := by
  obtain ⟨hne, hall⟩ := h
  cases hk : key.toList with
  | nil => exact absurd hk hne
  | cons c cs =>
    intro heq
    obtain ⟨rfl, -⟩ := cons.inj ((show _ = c :: (cs ++ [' ', '=', ' '] ++ t) from by
      simpa [renderKey, hk] using heq))
    exact absurd (hall '\n' (by simp [hk])) (by decide)

lemma line_ne_field (f : String × Value) (h : FieldPlain f) (t : List Char) :
    '\n' :: r ≠ renderField f ++ t := by
  rw [renderField, append_assoc, append_assoc]
  exact line_ne_key h.1 _

/-- A table with the empty line after it. -/
def Table.block (t : Table) : List Char := t.render ++ ['\n']

lemma Table.block_append (t : Table) (r : List Char) :
    t.block ++ r = renderHeader t.name ++ (t.fields.flatMap renderField ++ '\n' :: r) := by
  simp [Table.block, Table.render]

lemma delimited_block : Delimited Table.Plain Table.block tableData := by
  intro t t' r r' ht ht' h
  rw [Table.block_append, Table.block_append] at h
  obtain ⟨hname, hfields⟩ := delimited_header ht.name ht'.name h
  obtain ⟨hdata, hr⟩ := delimited_field.sequence line_ne_field line_ne_field ht.fields ht'.fields
    hfields
  exact ⟨by rw [tableData, tableData, hdata]; exact congrArg (·, _) hname, (cons.inj hr).2⟩

lemma nil_ne_block (t : Table) (_ : t.Plain) (r : List Char) : [] ≠ t.block ++ r := by
  simp [Table.block]

lemma render_line {doc : List Table} (h : doc ≠ []) :
    render doc ++ ['\n'] = doc.flatMap Table.block := by
  induction doc with
  | nil => exact absurd rfl h
  | cons t ts ih =>
    rw [render_cons, flatMap_cons, Table.block]
    cases ts with
    | nil => simp
    | cons u ts =>
      rw [if_neg (by simp), ← ih (by simp)]
      simp

lemma render_eq_nil {doc : List Table} : render doc = [] ↔ doc = [] := by
  cases doc <;> simp [render, render_cons, Table.render, renderHeader]

/-- **A text is at most one plain document.** -/
lemma render_inj {doc doc' : List Table} (h : ∀ t ∈ doc, t.Plain) (h' : ∀ t ∈ doc', t.Plain)
    (heq : render doc = render doc') : doc.map tableData = doc'.map tableData := by
  by_cases hdoc : doc = []
  · rw [hdoc, render_eq_nil.mp (heq.symm.trans (render_eq_nil.mpr hdoc))]
  · have hdoc' : doc' ≠ [] := fun hnil =>
      hdoc (render_eq_nil.mp (heq.trans (render_eq_nil.mpr hnil)))
    have hblocks := congrArg (· ++ ['\n']) heq
    simp only [render_line hdoc, render_line hdoc'] at hblocks
    refine (delimited_block.sequence nil_ne_block nil_ne_block h h' ?_).1
    rw [append_nil, append_nil, hblocks]

/-! ## The place of a value -/

/-- A key that does not occur twice is found. -/
lemma lookup_of_nodup {d : Data} {before after : List (String × Data)}
    (h : ((before ++ (key, d) :: after).map Prod.fst).Nodup) :
    (before ++ (key, d) :: after).lookup key = some d := by
  induction before with
  | nil => simp
  | cons f before ih =>
    rw [cons_append, map_cons, nodup_cons] at h
    have hne : (key == f.1) = false := by
      refine beq_false_of_ne fun heq => h.1 ?_
      rw [← heq]
      simp
    rw [cons_append, lookup_cons, hne]
    exact ih h.2

lemma entry_of_wellFormed {ts ts' : List Table} {fs fs' : List (String × Value)} {value : Value}
    (h : WellFormed (ts ++ ⟨name, fs ++ (key, value) :: fs'⟩ :: ts')) :
    (data (ts ++ ⟨name, fs ++ (key, value) :: fs'⟩ :: ts')).entry name key = some value.data := by
  have hnames := h.names
  have hkeys := h.keys ⟨name, fs ++ (key, value) :: fs'⟩ (by simp)
  simp only [Data.entry, data, Data.field, map_append, map_cons, tableData]
  rw [lookup_of_nodup (by simpa [tableData, Function.comp_def] using hnames), Option.bind_some]
  exact lookup_of_nodup (by simpa [fieldData, Function.comp_def] using hkeys)

/-- **The value that a text reaches** is what the key stands for. -/
lemma render_before {doc tables : List Table} {fields : List (String × Value)} (h : WellFormed doc)
    (htables : ∀ t ∈ tables, t.Plain) (hname : Bare name) (hfields : ∀ f ∈ fields, FieldPlain f)
    (hkey : Bare key) (heq : render doc = renderBefore tables name fields key ++ text) :
    ∃ (value : Value) (after : List Char), value.Plain ∧ value.render ++ after = text ∧
      (data doc).entry name key = some value.data := by
  have hdoc : doc ≠ [] := by
    rintro rfl
    simp [render, renderBefore, renderHeader] at heq
  have hblocks := congrArg (· ++ ['\n']) heq
  simp only [render_line hdoc, renderBefore, append_assoc] at hblocks
  obtain ⟨ts₁, ts, rfl, -, hafter⟩ :=
    delimited_block.split nil_ne_block h.plain htables ((append_nil _).trans hblocks)
  cases ts with
  | nil => simp [renderHeader] at hafter
  | cons t ts₂ =>
    obtain ⟨name', fs'⟩ := t
    have ht := h.plain ⟨name', fs'⟩ (by simp)
    rw [append_nil, flatMap_cons, Table.block_append] at hafter
    obtain ⟨hname', hfs'⟩ := delimited_header ht.name hname hafter
    obtain rfl : name' = name := hname'
    obtain ⟨fs₁, fs, rfl, -, hback⟩ := delimited_field.split line_ne_field ht.fields hfields hfs'
    cases fs with
    | nil => exact absurd hback (line_ne_key hkey _)
    | cons f fs₂ =>
      obtain ⟨key', value⟩ := f
      have hf := ht.fields (key', value) (by simp)
      simp only [flatMap_cons, renderField, append_assoc] at hback
      obtain ⟨hkey', hvalue⟩ := delimited_key hf.1 hkey hback
      obtain rfl : key' = key := hkey'
      have hlast := congrArg dropLast hvalue
      rw [dropLast_append_of_ne_nil (by simp), dropLast_concat] at hlast
      exact ⟨value, _, hf.2, hlast, entry_of_wellFormed h⟩

open Classical in
/-- What a text stands for, if it is that of a plain document. -/
noncomputable def readText (text : List Char) : Option Data :=
  if h : ∃ doc, WellFormed doc ∧ render doc = text then some (data h.choose) else none

lemma readText_eq_some {d : Data} (h : readText text = some d) :
    ∃ doc, WellFormed doc ∧ render doc = text ∧ data doc = d := by
  unfold readText at h
  split_ifs at h with hdoc
  cases h
  exact ⟨_, hdoc.choose_spec.1, hdoc.choose_spec.2, rfl⟩

/-- **The laws can be met.** -/
noncomputable def reader : Reader where
  read := readText
  plain doc hdoc := by
    have hex : ∃ doc', WellFormed doc' ∧ render doc' = render doc := ⟨doc, hdoc, rfl⟩
    rw [readText, dif_pos hex, data, data,
      render_inj hex.choose_spec.1.plain hdoc.plain hex.choose_spec.2]
  string_at tables name fields key text d htables hname hfields hkey h := by
    obtain ⟨doc, hdoc, hrender, rfl⟩ := readText_eq_some h
    obtain ⟨value, after, hvalue, htext, hentry⟩ :=
      render_before hdoc htables hname hfields hkey hrender
    have hkind := Value.kind_eq htext
    cases value with
    | string s =>
      refine ⟨s, ?_, hentry⟩
      rw [← (cons.inj htext).2]
      exact .basic (by simpa using basic_of_plain hvalue after)
    | number n => cases hkind
    | boolean b => cases hkind
    | strings l items => cases hkind
  item_at tables name fields key l items text d htables hname hfields hkey hitems h := by
    obtain ⟨doc, hdoc, hrender, rfl⟩ := readText_eq_some h
    rw [append_assoc] at hrender
    obtain ⟨value, after, hvalue, htext, hentry⟩ :=
      render_before hdoc htables hname hfields hkey hrender
    obtain ⟨more, hmore⟩ : ∃ more, (items.flatMap fun s => quote s ++ l.separator) ++
        '"' :: text = '"' :: more := by
      cases items <;> simp [quote]
    rw [Layout.renderBegun, append_assoc] at htext
    have hkind : kindOf '[' = value.kind := by
      cases l <;> exact Value.kind_eq htext
    cases value with
    | string s => cases hkind
    | number n => cases hkind
    | boolean b => cases hkind
    | strings l' items' =>
      cases items' with
      | nil => exact absurd (htext.trans (by rw [hmore])) (emptyText_ne l' l)
      | cons s items' =>
        rw [render_strings_cons] at htext
        obtain ⟨rfl, -⟩ := openText_inj (htext.trans (by rw [hmore]))
        have hlist := congrArg (l'.separator ++ ·) (append_cancel_left htext)
        simp only [l'.separator_append] at hlist
        have hitem : (s :: items').flatMap l'.item ++ (l'.closeText ++ after) =
            items.flatMap l'.item ++ (l'.separator ++ '"' :: text) := by
          simpa [Layout.item] using hlist
        obtain ⟨front, back, hsplit, hfront, hback⟩ :=
          l'.delimited_item.split (fun s _ => l'.close_ne_item s) hvalue hitems hitem
        rw [map_id, map_id] at hfront
        subst hfront
        cases back with
        | nil => cases l' <;> simp [Layout.closeText, Layout.separator] at hback
        | cons v back =>
          refine ⟨v, back.map .string, ?_, ?_⟩
          · rw [flatMap_cons, Layout.item, append_assoc, append_assoc] at hback
            rw [← (cons.inj (append_cancel_left hback)).2]
            exact .basic (by simpa using basic_of_plain (hvalue v (by simp [hsplit])) _)
          · rw [hentry, Value.data, hsplit]
            simp

end Toml
