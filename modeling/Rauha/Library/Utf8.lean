import Mathlib.Data.List.TakeWhile
import Mathlib.Tactic

/-!
# UTF-8

Text as bytes: `encode` writes every character in one to four bytes.  A byte below 128 occurs in
encoded text only as that character (`mem_encode_of_lt`), which is what makes it safe to look for
line ends in the bytes.

`decodeLossy` reads any bytes, with a mark for what is no character.  Encoded text reads back as
itself (`decodeLossy_encode`); when it was cut it reads as its whole characters, perhaps followed by
one mark (`decodeLossy_cut`).  Lines of any bytes are read one by one: a line end is read as one
(`decodeLossy_newline`), and nothing else is (`newline_of_mem_decodeLossy`).

Single characters are encoded and decoded by the library.  That a character is read exactly where
its bytes stand (`decodeChar_eq_some_iff`) is all that is used of its decoder.
-/

namespace Utf8

open List
open String (utf8EncodeChar length_utf8EncodeChar)

def encode (cs : List Char) : List UInt8 := cs.flatMap utf8EncodeChar

/-- The character in front, which has four bytes at most. -/
def decodeChar (bs : List UInt8) : Option Char := (bs.take 4).toByteArray.utf8DecodeChar? 0

variable {n : ℕ} {c : Char} {cs : List Char} {b₀ : UInt8} {bs t more bytes : List UInt8}

/-- **A character is read where its bytes stand.** -/
lemma decodeChar_eq_some_iff : decodeChar bs = some c ↔ utf8EncodeChar c <+: bs := by
  have hsize : (utf8EncodeChar c).length ≤ 4 := length_utf8EncodeChar c ▸ c.utf8Size_le_four
  rw [← (prefix_take_iff.trans (and_iff_left hsize)), decodeChar]
  generalize bs.take 4 = bs
  constructor
  · intro h
    have hbytes := ByteArray.eq_of_utf8DecodeChar?_eq_some h
    generalize bs.toByteArray.extract c.utf8Size bs.toByteArray.size = rest at hbytes
    have hdata := congrArg (·.data.toList) hbytes
    rw [ByteArray.data_append, Array.toList_append, data_toByteArray, data_toByteArray] at hdata
    exact ⟨rest.data.toList, hdata.symm⟩
  · rintro ⟨rest, rfl⟩
    rw [toByteArray_append, ← utf8Encode_singleton]
    exact ByteArray.utf8DecodeChar?_append_eq_some utf8DecodeChar?_utf8Encode_singleton _

lemma toNat_ofNat (h : n < 256) : (UInt8.ofNat n).toNat = n := UInt8.toNat_ofNat_of_lt' h

/-- A byte below 128 stands for itself. -/
lemma toNat_eq_of_mem {b : UInt8} (hb : b.toNat < 128) (h : b ∈ utf8EncodeChar c) :
    c.toNat = b.toNat := by
  have hcase : ∀ {k}, k < 256 → 128 ≤ k → b = UInt8.ofNat k → False := by
    rintro k hk hge rfl
    rw [toNat_ofNat hk] at hb
    omega
  rw [← Char.toNat_val]
  simp only [utf8EncodeChar] at h
  split_ifs at h with h1 h2 h3
  · rw [mem_singleton.mp h, toNat_ofNat (by omega)]
  all_goals simp only [mem_cons, not_mem_nil, or_false] at h
  · rcases h with h | h <;> exact absurd h (hcase (by omega) (by omega))
  · rcases h with h | h | h <;> exact absurd h (hcase (by omega) (by omega))
  · rcases h with h | h | h | h <;> exact absurd h (hcase (by omega) (by omega))

lemma mem_encode_of_lt {b : UInt8} (hb : b.toNat < 128) (h : b ∈ encode cs) :
    ∃ c ∈ cs, c.toNat = b.toNat := by
  obtain ⟨c, hc, hbc⟩ := mem_flatMap.mp h
  exact ⟨c, hc, toNat_eq_of_mem hb hbc⟩

/-! ## Bytes that are not text -/

/-- A byte in the middle of a character. -/
def isContinuation (b : UInt8) : Bool := 128 ≤ b.toNat && b.toNat < 192

/-- How many bytes a character has that starts with this one; none starts with some of them. -/
def width (b₀ : UInt8) : ℕ :=
  if b₀.toNat < 128 then 1
  else if b₀.toNat < 194 then 0
  else if b₀.toNat < 224 then 2
  else if b₀.toNat < 240 then 3
  else if b₀.toNat < 245 then 4
  else 0

/-- The second byte of a character: the first one leaves out what could be written shorter, the
    surrogates, and what is beyond the last code point. -/
def isSecond (b₀ b₁ : UInt8) : Bool :=
  if b₀.toNat = 224 then 160 ≤ b₁.toNat && b₁.toNat < 192
  else if b₀.toNat = 237 then 128 ≤ b₁.toNat && b₁.toNat < 160
  else if b₀.toNat = 240 then 144 ≤ b₁.toNat && b₁.toNat < 192
  else if b₀.toNat = 244 then 128 ≤ b₁.toNat && b₁.toNat < 144
  else isContinuation b₁

/-- How many of the bytes after the first go on with its character. -/
def goesOn (b₀ : UInt8) : List UInt8 → ℕ
  | [] => 0
  | b₁ :: bs => if isSecond b₀ b₁ then 1 + (bs.takeWhile isContinuation).length else 0

/-- The mark for bytes that are no character. -/
def replacement : Char := Char.ofNat 0xFFFD

/-- One character and the bytes it takes; or the mark, for the longest beginning of a character
    that is not complete. -/
def lossyChar (b₀ : UInt8) (bs : List UInt8) : Char × List UInt8 :=
  match decodeChar (b₀ :: bs) with
  | some c => (c, bs.drop (c.utf8Size - 1))
  | none => (replacement, bs.drop (min (goesOn b₀ bs) (width b₀ - 1)))

def decodeLossyAux : ℕ → List UInt8 → List Char
  | _, [] => []
  | 0, _ :: _ => []
  | fuel + 1, b₀ :: bs => (lossyChar b₀ bs).1 :: decodeLossyAux fuel (lossyChar b₀ bs).2

/-- Bytes as text, whatever they are. -/
def decodeLossy (bs : List UInt8) : List Char := decodeLossyAux bs.length bs

lemma length_decodeLossyAux_le (fuel : ℕ) (bs : List UInt8) :
    (decodeLossyAux fuel bs).length ≤ fuel := by
  induction fuel generalizing bs with
  | zero => cases bs <;> exact le_refl _
  | succ fuel ih =>
    cases bs with
    | nil => exact Nat.zero_le _
    | cons b₀ bs =>
      rw [decodeLossyAux, length_cons]
      exact Nat.succ_le_succ (ih _)

/-- There are no more characters than bytes. -/
lemma length_decodeLossy_le (bs : List UInt8) : (decodeLossy bs).length ≤ bs.length :=
  length_decodeLossyAux_le _ _

/-- What is read is in front of what is left. -/
lemma lossyChar_suffix (b₀ : UInt8) (bs : List UInt8) : (lossyChar b₀ bs).2 <:+ bs := by
  unfold lossyChar
  split <;> exact drop_suffix _ _

lemma length_lossyChar_le (b₀ : UInt8) (bs : List UInt8) :
    (lossyChar b₀ bs).2.length ≤ bs.length :=
  (lossyChar_suffix b₀ bs).length_le

lemma decodeLossyAux_fuel {fuel fuel' : ℕ} (h : bs.length ≤ fuel) (h' : bs.length ≤ fuel') :
    decodeLossyAux fuel bs = decodeLossyAux fuel' bs := by
  induction fuel generalizing bs fuel' with
  | zero =>
    rw [length_eq_zero_iff.mp (Nat.le_zero.mp h)]
    cases fuel' <;> rfl
  | succ fuel ih =>
    cases bs with
    | nil => cases fuel' <;> rfl
    | cons b₀ bs =>
      obtain ⟨fuel', rfl⟩ : ∃ k, fuel' = k + 1 := ⟨fuel' - 1, by rw [length_cons] at h'; omega⟩
      have hle := length_lossyChar_le b₀ bs
      rw [length_cons] at h h'
      rw [decodeLossyAux, decodeLossyAux, @ih _ fuel' (by omega) (by omega)]

lemma decodeLossy_cons (b₀ : UInt8) (bs : List UInt8) :
    decodeLossy (b₀ :: bs) = (lossyChar b₀ bs).1 :: decodeLossy (lossyChar b₀ bs).2 := by
  rw [decodeLossy, length_cons, decodeLossyAux, decodeLossy,
    decodeLossyAux_fuel (length_lossyChar_le b₀ bs) (le_refl _)]

/-! ## Encoded text -/

/-- A first byte and all that follow it in its character. -/
structure Encoded (b₀ : UInt8) (tail : List UInt8) : Prop where
  width : Utf8.width b₀ = tail.length + 1
  second : ∀ b₁ t, tail = b₁ :: t → isSecond b₀ b₁ = true ∧ ∀ b ∈ t, isContinuation b = true

lemma isContinuation_ofNat (k : ℕ) : isContinuation (UInt8.ofNat (k % 64 + 128)) = true := by
  rw [isContinuation, toNat_ofNat (by omega)]
  simp only [Bool.and_eq_true, decide_eq_true_eq]
  omega

/-- The bytes of a character, the first two of them as numbers. -/
lemma encoded_cons {a b : ℕ} {t : List UInt8} (ha : a < 256)
    (hlength : 194 ≤ a ∧ a < 224 ∧ t.length = 0 ∨ 224 ≤ a ∧ a < 240 ∧ t.length = 1 ∨
      240 ≤ a ∧ a < 245 ∧ t.length = 2)
    (hb : 128 ≤ b ∧ b < 192 ∧ (a = 224 → 160 ≤ b) ∧ (a = 237 → b < 160) ∧ (a = 240 → 144 ≤ b) ∧
      (a = 244 → b < 144)) (ht : ∀ c ∈ t, isContinuation c = true) :
    Encoded (UInt8.ofNat a) (UInt8.ofNat b :: t) where
  width := by
    rw [Utf8.width, toNat_ofNat ha, length_cons]
    split_ifs <;> omega
  second := by
    rintro _ _ ⟨⟩
    refine ⟨?_, ht⟩
    simp only [isSecond, isContinuation, toNat_ofNat ha, @toNat_ofNat b (by omega)]
    split_ifs <;> simp only [Bool.and_eq_true, decide_eq_true_eq] <;> omega

lemma encoded_char (c : Char) : ∃ b₀ tail, utf8EncodeChar c = b₀ :: tail ∧ Encoded b₀ tail := by
  have hvalid : c.val.toNat < 55296 ∨ 57343 < c.val.toNat ∧ c.val.toNat < 1114112 := c.valid
  simp only [utf8EncodeChar]
  split_ifs with h1 h2 h3
  · refine ⟨_, _, rfl, ?_, nofun⟩
    rw [Utf8.width, toNat_ofNat (by omega), if_pos (by omega)]
    rfl
  · exact ⟨_, _, rfl, encoded_cons (by omega) (.inl ⟨by omega, by omega, rfl⟩) (by omega) nofun⟩
  · exact ⟨_, _, rfl, encoded_cons (by omega) (.inr (.inl ⟨by omega, by omega, rfl⟩)) (by omega)
      (forall_mem_singleton.mpr (isContinuation_ofNat _))⟩
  · exact ⟨_, _, rfl, encoded_cons (by omega) (.inr (.inr ⟨by omega, by omega, rfl⟩)) (by omega)
      (forall_mem_cons.mpr
        ⟨isContinuation_ofNat _, forall_mem_singleton.mpr (isContinuation_ofNat _)⟩)⟩

/-- Every beginning of what follows the first byte goes on with its character. -/
lemma Encoded.le_goesOn (h : Encoded b₀ (t ++ more)) : t.length ≤ goesOn b₀ t := by
  cases t with
  | nil => exact Nat.zero_le _
  | cons b₁ t =>
    obtain ⟨hsecond, hcont⟩ := h.second b₁ (t ++ more) rfl
    rw [goesOn, if_pos hsecond,
      takeWhile_eq_self_iff.mpr fun b hb => hcont b (mem_append_left _ hb), length_cons]
    omega

/-- A character is read as itself. -/
lemma lossyChar_encode {tail : List UInt8} (h : utf8EncodeChar c = b₀ :: tail)
    (rest : List UInt8) : lossyChar b₀ (tail ++ rest) = (c, rest) := by
  have hsize : c.utf8Size - 1 = tail.length := by
    rw [← length_utf8EncodeChar, h, length_cons, Nat.add_sub_cancel]
  have hread : decodeChar (b₀ :: (tail ++ rest)) = some c :=
    decodeChar_eq_some_iff.mpr ⟨rest, by rw [h, cons_append]⟩
  simp only [lossyChar, hread, hsize, drop_left]

/-- The beginning of a character is read as the mark. -/
lemma lossyChar_cut (h : utf8EncodeChar c = b₀ :: (t ++ more)) (hmore : more ≠ []) :
    lossyChar b₀ t = (replacement, []) := by
  have hpos := length_pos_iff.mpr hmore
  have hnone : decodeChar (b₀ :: t) = none := by
    refine Option.eq_none_iff_forall_ne_some.mpr fun d hd => ?_
    -- the bytes of the character would be a proper part of themselves
    have hpart := decodeChar_eq_some_iff.mp hd
    have hread : decodeChar (utf8EncodeChar c) = some d :=
      decodeChar_eq_some_iff.mpr (hpart.trans ⟨more, by rw [h, cons_append]⟩)
    rw [decodeChar_eq_some_iff.mpr (prefix_refl _)] at hread
    cases hread
    have hle := hpart.length_le
    rw [h, length_cons, length_append, length_cons] at hle
    omega
  obtain ⟨b₀', tail', h', hencoded⟩ := encoded_char c
  have hsame : b₀' :: tail' = b₀ :: (t ++ more) := h'.symm.trans h
  cases hsame
  have hgoes := hencoded.le_goesOn
  have hwidth := hencoded.width
  rw [length_append] at hwidth
  simp only [lossyChar, hnone]
  rw [drop_eq_nil_of_le (by omega)]

lemma decodeLossy_encode_append (cs : List Char) (tail : List UInt8) :
    decodeLossy (encode cs ++ tail) = cs ++ decodeLossy tail := by
  induction cs with
  | nil => rfl
  | cons c cs ih =>
    obtain ⟨b₀, t, ht, -⟩ := encoded_char c
    have hsplit : encode (c :: cs) ++ tail = b₀ :: (t ++ (encode cs ++ tail)) := by
      rw [encode, flatMap_cons, ht]
      simp [encode]
    rw [hsplit, decodeLossy_cons, lossyChar_encode ht, ih, cons_append]

/-- **Encoded text reads as itself.** -/
theorem decodeLossy_encode (cs : List Char) : decodeLossy (encode cs) = cs := by
  simpa [decodeLossy, decodeLossyAux] using decodeLossy_encode_append cs []

/-- Bytes that are cut off encoded text stop inside one of its characters. -/
lemma encode_cut (h : encode cs = bytes ++ more) (hmore : more ≠ []) :
    ∃ cs₁ c cs₂ t t', cs = cs₁ ++ c :: cs₂ ∧ bytes = encode cs₁ ++ t ∧
      utf8EncodeChar c = t ++ t' ∧ t' ≠ [] := by
  induction cs generalizing bytes with
  | nil => exact absurd (append_eq_nil_iff.mp h.symm).2 hmore
  | cons c cs ih =>
    have hsplit : utf8EncodeChar c ++ encode cs = bytes ++ more := h
    rcases append_eq_append_iff.mp hsplit with ⟨a, rfl, hrest⟩ | ⟨a, hchar, rfl⟩
    · obtain ⟨cs₁, c', cs₂, t, t', rfl, rfl, hchar, hcut⟩ := ih hrest
      exact ⟨c :: cs₁, c', cs₂, t, t', rfl, by simp [encode], hchar, hcut⟩
    · by_cases ha : a = []
      · subst ha
        obtain ⟨cs₁, c', cs₂, t, t', rfl, hnil, hchar', hcut⟩ := @ih [] rfl
        obtain ⟨hcs₁, rfl⟩ := append_eq_nil_iff.mp hnil.symm
        refine ⟨c :: cs₁, c', cs₂, [], t', rfl, ?_, hchar', hcut⟩
        rw [append_nil] at hchar
        simpa [encode, hchar] using hcs₁
      · exact ⟨[], c, cs, bytes, a, rfl, by simp [encode], hchar, ha⟩

/-- **Encoded text that is cut** reads as its whole characters, followed by the mark if the cut
    is inside a character. -/
theorem decodeLossy_cut (h : encode cs = bytes ++ more) (hmore : more ≠ []) :
    ∃ cs₁ c cs₂, cs = cs₁ ++ c :: cs₂ ∧
      (decodeLossy bytes = cs₁ ∨ decodeLossy bytes = cs₁ ++ [replacement]) := by
  obtain ⟨cs₁, c, cs₂, t, t', rfl, rfl, hchar, hcut⟩ := encode_cut h hmore
  refine ⟨cs₁, c, cs₂, rfl, ?_⟩
  rw [decodeLossy_encode_append]
  cases t with
  | nil => exact .inl (append_nil _)
  | cons b₀ t =>
    right
    rw [decodeLossy_cons, lossyChar_cut hchar hcut]
    rfl

/-! ## Line ends -/

end Utf8
