import Mathlib.Data.Char
import Mathlib.Data.List.Lex
import Mathlib.Tactic

/-!
# JSON documents and JSON values

`Json` is the tree a JSON text denotes, before any decision about objects: fields stand in the
order of the text, and a key may occur twice.  A **value** is a document whose objects are maps
(`Json.sorted`: keys strictly increasing at every level), which is what a reader that collects
fields into an ordered map produces (`Json.collect`).  On a document that already is a value,
collecting changes nothing (`Json.collect_of_sorted`), so a value is the only document that
denotes it.

Numbers follow the usual three-way split: non-negative and negative integers of 64 bits, and
finite double-precision numbers, the latter kept as their bits.
-/

/-- A finite double-precision number, as its bits: the exponent field is not all ones. -/
structure Double where
  bits : UInt64
  finite : bits.toNat / 2 ^ 52 % 2 ^ 11 ≠ 2 ^ 11 - 1
  deriving DecidableEq, Repr

/-- JSON numbers. -/
inductive JsonNumber where
  | posInt (n : UInt64)
  /-- The negative integer `-(m + 1)`. -/
  | negInt (m : Fin (2 ^ 63))
  | float (x : Double)
  deriving DecidableEq, Repr

/-- **JSON documents.** -/
inductive Json where
  | null
  | bool (b : Bool)
  | number (n : JsonNumber)
  | string (s : String)
  | array (items : List Json)
  | object (fields : List (String × Json))
  deriving Repr

namespace Json

open List

/-! ## Nesting depth -/

mutual

/-- How many arrays and objects enclose the innermost item. -/
def depth : Json → ℕ
  | array items => depthItems items + 1
  | object fields => depthFields fields + 1
  | _ => 0

def depthItems : List Json → ℕ
  | [] => 0
  | x :: xs => max (depth x) (depthItems xs)

def depthFields : List (String × Json) → ℕ
  | [] => 0
  | (_, v) :: fs => max (depth v) (depthFields fs)

end

/-! ## Ordered keys -/

/-- Keys are ordered code point by code point. -/
def keyBelow (a b : String) : Bool := decide (a.toList < b.toList)

mutual

/-- The keys of every object are strictly increasing. -/
def sorted : Json → Bool
  | array items => sortedItems items
  | object fields => sortedFields fields
  | _ => true

def sortedItems : List Json → Bool
  | [] => true
  | x :: xs => sorted x && sortedItems xs

def sortedFields : List (String × Json) → Bool
  | [] => true
  | (k, v) :: fs => fs.all (fun f => keyBelow k f.1) && sorted v && sortedFields fs

end

/-- Put a field into an ordered map; a later value replaces an earlier one. -/
def insertField (k : String) (v : Json) : List (String × Json) → List (String × Json)
  | [] => [(k, v)]
  | (k', v') :: fs =>
    if k.toList < k'.toList then (k, v) :: (k', v') :: fs
    else if k = k' then (k, v) :: fs
    else (k', v') :: insertField k v fs

mutual

/-- Collect the fields of every object into an ordered map. -/
def collect : Json → Json
  | array items => array (collectItems items)
  | object fields => object (collectFields [] fields)
  | j => j

def collectItems : List Json → List Json
  | [] => []
  | x :: xs => collect x :: collectItems xs

def collectFields (acc : List (String × Json)) : List (String × Json) → List (String × Json)
  | [] => acc
  | (k, v) :: fs => collectFields (insertField k (collect v) acc) fs

end

/-- A key above every key of the map goes to its end. -/
lemma insertField_of_lt {k : String} {v : Json} :
    ∀ {acc : List (String × Json)}, (∀ f ∈ acc, f.1.toList < k.toList) →
      insertField k v acc = acc ++ [(k, v)]
  | [], _ => rfl
  | (k', v') :: fs, h => by
    have hk : k'.toList < k.toList := h (k', v') (by simp)
    have hne : k ≠ k' := by
      rintro rfl
      exact lt_irrefl _ hk
    have ih := insertField_of_lt (v := v) fun f hf => h f (mem_cons_of_mem _ hf)
    simp [insertField, not_lt_of_gt hk, hne, ih]

lemma mem_insertField {k : String} {v : Json} {f : String × Json} :
    ∀ {acc : List (String × Json)}, f ∈ insertField k v acc → f = (k, v) ∨ f ∈ acc
  | [], h => by simpa [insertField] using h
  | (k', v') :: fs, h => by
    unfold insertField at h
    split_ifs at h with hlt heq
    · exact (mem_cons.mp h).imp_right id
    · exact (mem_cons.mp h).imp_right (mem_cons_of_mem _)
    · rcases mem_cons.mp h with rfl | h
      · exact .inr (by simp)
      · exact (mem_insertField h).imp_right (mem_cons_of_mem _)

lemma sortedFields_insertField {k : String} {v : Json} (hv : v.sorted) :
    ∀ {acc : List (String × Json)}, sortedFields acc → sortedFields (insertField k v acc)
  | [], _ => by simpa [insertField, sortedFields] using hv
  | (k', v') :: fs, h => by
    simp only [sortedFields, Bool.and_eq_true, all_eq_true, keyBelow, decide_eq_true_eq] at h
    obtain ⟨⟨hall, hv'⟩, hfs⟩ := h
    unfold insertField
    split_ifs with hlt heq
    · simp only [sortedFields, all_cons, Bool.and_eq_true, all_eq_true,
        keyBelow, decide_eq_true_eq]
      exact ⟨⟨⟨hlt, fun f hf => hlt.trans (hall f hf)⟩, hv⟩, ⟨hall, hv'⟩, hfs⟩
    · simp only [sortedFields, Bool.and_eq_true, all_eq_true, keyBelow,
      decide_eq_true_eq]
      exact ⟨⟨fun f hf => heq ▸ hall f hf, hv⟩, hfs⟩
    · simp only [sortedFields, Bool.and_eq_true, all_eq_true, keyBelow,
      decide_eq_true_eq]
      refine ⟨⟨fun f hf => ?_, hv'⟩, sortedFields_insertField hv hfs⟩
      rcases mem_insertField hf with rfl | hf
      · refine lt_of_le_of_ne (not_lt.mp hlt) fun h => heq ?_
        exact (String.toList_inj.mp h).symm
      · exact hall f hf

mutual

/-- Collecting yields a value. -/
lemma sorted_collect : ∀ j : Json, (collect j).sorted
  | array items => by simpa [collect, sorted] using sorted_collectItems items
  | object fields => by
    have hnil : sortedFields [] = true := rfl
    simpa [collect, sorted] using sorted_collectFields fields hnil
  | null => rfl
  | bool _ => rfl
  | number _ => rfl
  | string _ => rfl

lemma sorted_collectItems : ∀ xs : List Json, sortedItems (collectItems xs)
  | [] => rfl
  | x :: xs => by simp [collectItems, sortedItems, sorted_collect x, sorted_collectItems xs]

lemma sorted_collectFields :
    ∀ (fs : List (String × Json)) {acc : List (String × Json)}, sortedFields acc →
      sortedFields (collectFields acc fs)
  | [], _, h => by simpa [collectFields] using h
  | (k, v) :: fs, _, h => by
    simpa [collectFields] using
      sorted_collectFields fs (sortedFields_insertField (sorted_collect v) h)

end

mutual

/-- **Collecting changes no value.** -/
lemma collect_of_sorted : ∀ j : Json, j.sorted → collect j = j
  | array items, h => by simp [collect, collectItems_of_sorted items (by simpa [sorted] using h)]
  | object fields, h => by
    simp [collect, collectFields_of_sorted fields [] (by simpa [sorted] using h) (by simp)]
  | null, _ => rfl
  | bool _, _ => rfl
  | number _, _ => rfl
  | string _, _ => rfl

lemma collectItems_of_sorted : ∀ xs : List Json, sortedItems xs → collectItems xs = xs
  | [], _ => rfl
  | x :: xs, h => by
    simp only [sortedItems, Bool.and_eq_true] at h
    simp [collectItems, collect_of_sorted x h.1, collectItems_of_sorted xs h.2]

lemma collectFields_of_sorted : ∀ (fs acc : List (String × Json)), sortedFields fs →
    (∀ f ∈ acc, ∀ g ∈ fs, f.1.toList < g.1.toList) → collectFields acc fs = acc ++ fs
  | [], acc, _, _ => by simp [collectFields]
  | (k, v) :: fs, acc, h, hacc => by
    simp only [sortedFields, Bool.and_eq_true, all_eq_true, keyBelow, decide_eq_true_eq] at h
    obtain ⟨⟨hall, hv⟩, hfs⟩ := h
    have hlt : ∀ f ∈ acc, f.1.toList < k.toList := fun f hf => hacc f hf (k, v) (by simp)
    rw [collectFields, collect_of_sorted v hv, insertField_of_lt hlt,
      collectFields_of_sorted fs (acc ++ [(k, v)]) hfs]
    · simp
    · intro f hf g hg
      rcases mem_append.mp hf with hf | hf
      · exact hacc f hf g (mem_cons_of_mem _ hg)
      · rw [mem_singleton.mp hf]
        exact hall g hg

end

end Json
