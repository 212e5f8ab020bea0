import Mathlib.Tactic

/-!
# Text

The operations on strings that the standard library of the implementation language offers, on lists
of characters: trimming, cutting at a separator, searching.  `infix_append_cons` is the rule for
searching in a text put together from pieces: a needle that does not contain the separator is found
in one of the pieces.
-/

namespace Text

open List

/-- The characters with the Unicode property `White_Space`. -/
def isWhitespace (c : Char) : Bool :=
  (0x9 ≤ c.toNat && c.toNat ≤ 0xD) || (0x2000 ≤ c.toNat && c.toNat ≤ 0x200A) ||
    [0x20, 0x85, 0xA0, 0x1680, 0x2028, 0x2029, 0x202F, 0x205F, 0x3000].contains c.toNat

def trimStart (text : List Char) : List Char := text.dropWhile isWhitespace

def trim (text : List Char) : List Char := (trimStart (trimStart text).reverse).reverse

/-- The parts before and after the first `c`. -/
def splitOnce (c : Char) : List Char → Option (List Char × List Char)
  | [] => none
  | d :: text =>
    if d = c then some ([], text) else (splitOnce c text).map fun (a, b) => (d :: a, b)

/-- The parts before and after the last `c`. -/
def rsplitOnce (c : Char) (text : List Char) : Option (List Char × List Char) :=
  (splitOnce c text.reverse).map fun (a, b) => (b.reverse, a.reverse)

/-- The parts before and after the first `c` that a `d` follows. -/
def splitOncePair (c d : Char) : List Char → Option (List Char × List Char)
  | [] => none
  | [_] => none
  | x :: y :: text =>
    if x = c ∧ y = d then some ([], text)
    else (splitOncePair c d (y :: text)).map fun (a, b) => (x :: a, b)

/-- The text in front of a suffix. -/
def stripSuffix (suffix text : List Char) : Option (List Char) :=
  if suffix <:+ text then some (text.take (text.length - suffix.length)) else none

/-- An unsigned decimal number with an optional plus sign, up to a bound. -/
def parseUnsigned (bound : ℕ) (text : List Char) : Option ℕ :=
  let digits := if text.head? = some '+' then text.tail else text
  if digits ≠ [] ∧ digits.all Char.isDigit ∧ Nat.ofDigitChars 10 digits 0 ≤ bound then
    some (Nat.ofDigitChars 10 digits 0)
  else none

/-- The text after the first occurrence of the marker. -/
def after (marker : List Char) : List Char → Option (List Char)
  | [] => if marker = [] then some [] else none
  | c :: text =>
    if marker <+: c :: text then some ((c :: text).drop marker.length) else after marker text

variable {c : Char}

/-- What can be checked of every character up to `'z'` holds of them. -/
lemma of_le_z {q : Char → Prop} (h : ∀ n < 123, q (Char.ofNat n)) (hc : c ≤ 'z') : q c := by
  have hlt : c.toNat < 123 := Nat.lt_succ_of_le (UInt32.le_iff_toNat_le.mp (Char.le_def.mp hc))
  simpa using h c.toNat hlt

lemma le_z_of_isDigit (h : c.isDigit = true) : c ≤ 'z' :=
  Char.le_trans (of_decide_eq_true (Bool.and_eq_true_iff.mp h).2) (by decide)

lemma isWhitespace_of_isDigit (h : c.isDigit = true) : isWhitespace c = false :=
  of_le_z (q := fun c => c.isDigit = true → isWhitespace c = false) (by decide)
    (le_z_of_isDigit h) h

variable {text a b : List Char}

/-- What a first separator divides a text into. -/
lemma splitOnce_eq_some (h : splitOnce c text = some (a, b)) : c ∉ a ∧ text = a ++ c :: b := by
  induction text generalizing a with
  | nil => simp [splitOnce] at h
  | cons d text ih =>
    rw [splitOnce] at h
    split_ifs at h with hd
    · cases h
      exact ⟨by simp, by rw [hd, nil_append]⟩
    · obtain ⟨⟨a', b'⟩, hsplit, hpair⟩ := Option.map_eq_some_iff.mp h
      cases hpair
      obtain ⟨hmem, htext⟩ := ih hsplit
      refine ⟨fun hc => ?_, by rw [htext, cons_append]⟩
      rcases mem_cons.mp hc with rfl | hc
      · exact hd rfl
      · exact hmem hc

lemma splitOnce_eq_none (h : splitOnce c text = none) : c ∉ text := by
  induction text with
  | nil => simp
  | cons d text ih =>
    rw [splitOnce] at h
    split_ifs at h with hd
    refine fun hc => ?_
    rcases mem_cons.mp hc with rfl | hc
    · exact hd rfl
    · exact ih (Option.map_eq_none_iff.mp h) hc

lemma splitOnce_append (h : c ∉ a) (b : List Char) : splitOnce c (a ++ c :: b) = some (a, b) := by
  induction a with
  | nil => rw [nil_append, splitOnce, if_pos rfl]
  | cons d a ih =>
    obtain ⟨hne, ha⟩ := not_or.mp (mem_cons.not.mp h)
    rw [cons_append, splitOnce, if_neg (Ne.symm hne), ih ha]
    rfl

lemma mem_of_rsplitOnce {d : Char} (h : rsplitOnce c text = some (a, b)) (hd : d ∈ a ∨ d ∈ b) :
    d ∈ text := by
  obtain ⟨⟨x, y⟩, hsplit, hpair⟩ := Option.map_eq_some_iff.mp h
  cases hpair
  have htext := (splitOnce_eq_some hsplit).2
  rw [← mem_reverse, htext]
  simp only [mem_reverse] at hd
  simp only [mem_append, mem_cons]
  tauto

lemma stripSuffix_append (suffix text : List Char) :
    stripSuffix suffix (text ++ suffix) = some text := by
  rw [stripSuffix, if_pos ⟨text, rfl⟩]
  simp

/-- A suffix that ends otherwise is none. -/
lemma stripSuffix_of_ne {suffix : List Char} (hlength : a.length = b.length) (h : a ≠ b) :
    stripSuffix (suffix ++ a) (text ++ b) = none := by
  rw [stripSuffix, if_neg]
  rintro ⟨pre, hpre⟩
  rw [← append_assoc] at hpre
  exact h (append_inj' hpre hlength).2

/-- Numbers read back. -/
lemma parseUnsigned_toDigits {bound n : ℕ} (h : n ≤ bound) :
    parseUnsigned bound (Nat.toDigits 10 n) = some n := by
  have hdigits : ∀ c ∈ Nat.toDigits 10 n, c.isDigit = true := fun c hc =>
    Nat.isDigit_of_mem_toDigits (by omega) (le_refl _) hc
  have hhead : (Nat.toDigits 10 n).head? ≠ some '+' := by
    intro hplus
    have hdigit := hdigits '+' (mem_of_mem_head? hplus)
    revert hdigit
    decide
  have hvalue : Nat.ofDigitChars 10 (Nat.toDigits 10 n) 0 = n := Nat.ofDigitChars_ten_toDigits
  simp only [parseUnsigned, if_neg hhead, hvalue]
  rw [if_pos ⟨Nat.toDigits_ne_nil, all_eq_true.mpr hdigits, h⟩]

lemma trimStart_of_forall (h : ∀ c ∈ text, isWhitespace c = false) : trimStart text = text := by
  cases text with
  | nil => rfl
  | cons c text => exact dropWhile_cons_of_neg (by simp [h c (by simp)])

lemma trim_of_forall (h : ∀ c ∈ text, isWhitespace c = false) : trim text = text := by
  have hrev : ∀ c ∈ text.reverse, isWhitespace c = false := fun c hc => h c (mem_reverse.mp hc)
  rw [trim, trimStart_of_forall h, trimStart_of_forall hrev, reverse_reverse]

/-! ## Searching -/

lemma not_infix_of_mem {α : Type} {w text : List α} {c : α} (hw : c ∈ w) (htext : c ∉ text) :
    ¬ w <:+: text :=
  fun h => htext (h.subset hw)

/-- Before the first character of the marker there is no occurrence of it. -/
lemma after_append {marker : List Char} (h : c ∉ text) (rest : List Char) :
    after (c :: marker) (text ++ c :: marker ++ rest) = some rest := by
  induction text with
  | nil =>
    show after (c :: marker) (c :: (marker ++ rest)) = _
    rw [after, if_pos ⟨rest, by simp⟩]
    simp
  | cons d text ih =>
    obtain ⟨hne, htext⟩ := not_or.mp (mem_cons.not.mp h)
    have hprefix : ¬ c :: marker <+: d :: (text ++ c :: marker ++ rest) := fun hp =>
      hne (cons_prefix_cons.mp hp).1
    show after (c :: marker) (d :: (text ++ c :: marker ++ rest)) = _
    rw [after, if_neg hprefix, ih htext]

lemma prefix_append_cons {α : Type} {w a b : List α} {c : α} (h : c ∉ w) :
    w <+: a ++ c :: b ↔ w <+: a := by
  refine ⟨fun hp => ?_, fun hp => hp.trans (prefix_append a _)⟩
  induction a generalizing w with
  | nil =>
    cases w with
    | nil => simp
    | cons x w => exact absurd (cons_prefix_cons.mp hp).1 fun hx => h (by simp [hx])
  | cons d a ih =>
    cases w with
    | nil => simp
    | cons x w =>
      obtain ⟨rfl, htail⟩ := cons_prefix_cons.mp hp
      have hw : c ∉ w := fun hmem => h (mem_cons_of_mem _ hmem)
      exact cons_prefix_cons.mpr ⟨rfl, ih hw htail⟩

/-- **A needle without the separator is found on one side of it.** -/
lemma infix_append_cons {α : Type} {w a b : List α} {c : α} (h : c ∉ w) :
    w <:+: a ++ c :: b ↔ w <:+: a ∨ w <:+: b := by
  constructor
  · intro hw
    induction a with
    | nil =>
      rcases infix_cons_iff.mp hw with hp | hi
      · exact .inl (((prefix_append_cons (a := []) h).mp hp).isInfix)
      · exact .inr hi
    | cons d a ih =>
      rcases infix_cons_iff.mp hw with hp | hi
      · exact .inl (((prefix_append_cons (a := d :: a) h).mp hp).isInfix)
      · exact (ih hi).imp_left fun hi => hi.trans (suffix_cons d a).isInfix
  · rintro (hw | hw)
    · exact hw.trans (prefix_append a _).isInfix
    · exact hw.trans ((suffix_cons c b).trans (suffix_append a _)).isInfix

lemma infix_cons_ne {α : Type} {w b : List α} {c : α} (h : c ∉ w) (hw : w ≠ []) :
    w <:+: c :: b ↔ w <:+: b := by
  have hcons := infix_append_cons (a := []) (b := b) h
  rw [nil_append] at hcons
  rw [hcons, infix_nil]
  exact or_iff_right hw

end Text
