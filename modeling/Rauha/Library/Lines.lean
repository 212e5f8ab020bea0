import Mathlib.Tactic

/-!
# Terminated lines

`splitLines t xs` cuts a list after every terminator `t`, as a reader does that reads up to and
including the next terminator or the end of the input.  Cutting loses nothing (`flatten_splitLines`)
and gives back the lines of any text put together from terminated ones (`splitLines_flatten`).  Of
a text of which only the beginning is there it gives the lines that are whole, and part of one
(`flatten_cut`, `splitLines_flatten_append`).
-/

namespace Lines

open List

variable {α : Type}

/-- A line: a terminator at the end and nowhere before. -/
def IsLine (t : α) (line : List α) : Prop := ∃ text, line = text ++ [t] ∧ t ∉ text

variable {lines : List (List α)}

/-- **The beginning of a text of lines** is some of the lines, and part of the next. -/
lemma flatten_cut {xs rest : List α} (h : lines.flatten = xs ++ rest) (hrest : rest ≠ []) :
    ∃ before line after part more, lines = before ++ line :: after ∧
      xs = before.flatten ++ part ∧ line = part ++ more ∧ more ≠ [] := by
  induction lines generalizing xs with
  | nil => exact absurd (append_eq_nil_iff.mp h.symm).2 hrest
  | cons line lines ih =>
    rw [flatten_cons] at h
    rcases append_eq_append_iff.mp h with ⟨part, rfl, hlines⟩ | ⟨more, rfl, hmore⟩
    · obtain ⟨before, line', after, part', more, rfl, rfl, hline, hne⟩ := ih hlines
      exact ⟨line :: before, line', after, part', more, rfl, by simp, hline, hne⟩
    · by_cases hne : more = []
      · subst hne
        obtain ⟨before, line', after, part', more, rfl, hnil, hline, hne⟩ := @ih [] hmore.symm
        refine ⟨xs :: before, line', after, part', more, by simp, ?_, hline, hne⟩
        rw [flatten_cons, append_assoc, ← hnil, append_nil]
      · exact ⟨[], xs ++ more, lines, xs, more, rfl, rfl, rfl, hne⟩

variable {t : α} {line : List α}

/-- Part of a line has no terminator. -/
lemma IsLine.notMem_part {part more : List α} (h : IsLine t line) (hline : line = part ++ more)
    (hmore : more ≠ []) : t ∉ part := by
  obtain ⟨text, rfl, ht⟩ := h
  obtain ⟨init, last, rfl⟩ := (eq_nil_or_concat' more).resolve_left hmore
  rw [← append_assoc] at hline
  obtain ⟨rfl, -⟩ := append_inj' hline rfl
  exact fun hpart => ht (mem_append_left _ hpart)

variable [DecidableEq α]

/-- The pieces that end in a terminator, and what is left after the last one. -/
def splitLines (t : α) : List α → List (List α)
  | [] => []
  | x :: xs =>
    if x = t then [x] :: splitLines t xs
    else
      match splitLines t xs with
      | [] => [[x]]
      | line :: lines => (x :: line) :: lines

lemma splitLines_append (h : IsLine t line) (rest : List α) :
    splitLines t (line ++ rest) = line :: splitLines t rest := by
  obtain ⟨text, rfl, ht⟩ := h
  induction text with
  | nil => simp [splitLines]
  | cons x text ih =>
    have hx : x ≠ t := fun h => ht (by simp [h])
    have htext : t ∉ text := fun h => ht (mem_cons_of_mem _ h)
    have ih := ih htext
    rw [cons_append, cons_append, splitLines, if_neg hx, ih]

/-- A line ends at its terminator, whatever follows. -/
lemma IsLine.append_inj {line' a b : List α} (h : IsLine t line) (h' : IsLine t line')
    (heq : line ++ a = line' ++ b) : line = line' ∧ a = b := by
  have hlines := congrArg (splitLines t) heq
  rw [splitLines_append h, splitLines_append h'] at hlines
  obtain rfl := (List.cons.inj hlines).1
  exact ⟨rfl, append_cancel_left heq⟩

lemma splitLines_flatten (h : ∀ line ∈ lines, IsLine t line) :
    splitLines t lines.flatten = lines := by
  induction lines with
  | nil => rfl
  | cons line lines ih =>
    have hline : IsLine t line := h line (by simp)
    have hlines := ih fun l hl => h l (mem_cons_of_mem _ hl)
    rw [flatten_cons, splitLines_append hline, hlines]

lemma splitLines_of_notMem {text : List α} (ht : t ∉ text) (hne : text ≠ []) :
    splitLines t text = [text] := by
  induction text with
  | nil => exact absurd rfl hne
  | cons x text ih =>
    have hx : x ≠ t := fun h => ht (by simp [h])
    have htext : t ∉ text := fun h => ht (mem_cons_of_mem _ h)
    rw [splitLines, if_neg hx]
    cases text with
    | nil => rfl
    | cons y text => rw [ih htext (by simp)]

/-- Whole lines and what follows the last of them. -/
lemma splitLines_flatten_append {tail : List α} (h : ∀ line ∈ lines, IsLine t line)
    (ht : t ∉ tail) :
    splitLines t (lines.flatten ++ tail) = lines ++ if tail = [] then [] else [tail] := by
  induction lines with
  | nil =>
    split_ifs with hnil
    · rw [hnil]
      rfl
    · exact splitLines_of_notMem ht hnil
  | cons line lines ih =>
    have hline : IsLine t line := h line (by simp)
    rw [flatten_cons, append_assoc, splitLines_append hline,
      ih fun l hl => h l (mem_cons_of_mem _ hl), cons_append]

lemma length_splitLines_le (t : α) (xs : List α) : (splitLines t xs).length ≤ xs.length := by
  induction xs with
  | nil => exact le_refl _
  | cons x xs ih =>
    unfold splitLines
    split_ifs with hx
    · simpa using ih
    · split
      · simp
      · rename_i line lines hcons
        rw [hcons, length_cons] at ih
        rw [length_cons, length_cons]
        omega

lemma flatten_splitLines (t : α) (xs : List α) : (splitLines t xs).flatten = xs := by
  induction xs with
  | nil => rfl
  | cons x xs ih =>
    unfold splitLines
    split_ifs with hx
    · rw [flatten_cons, ih]
      rfl
    · split
      · rename_i hnil
        rw [hnil] at ih
        rw [← ih]
        rfl
      · rename_i line lines hcons
        rw [hcons] at ih
        rw [← ih]
        rfl

end Lines
