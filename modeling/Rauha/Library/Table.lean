import Mathlib.Data.List.AList
import Mathlib.Tactic

/-!
# Tables by key

`AList` as a table with one row for each key.  `weight` adds up a cost over the rows; it is what a
budget on a table bounds.  Replacing a row changes the weight by the difference of the two costs
(`weight_of_lookup`, `weight_insert`).  `mapRows` changes every row where it stands.

`lookup_insert_ite` and `lookup_erase_ite` say what an update does at every key at once,
`of_lookup_insert` and `of_lookup_erase` where a row comes from that is found after one.
-/

namespace Table

open List

variable {α β : Type} {f g : α → β → ℕ}

/-- The cost of all rows together. -/
def weight (f : α → β → ℕ) (table : AList fun _ : α => β) : ℕ :=
  (table.entries.map fun entry => f entry.1 entry.2).sum

variable [DecidableEq α] {table : AList fun _ : α => β} {key : α} {row : β}

lemma weight_insert : weight f (table.insert key row) = f key row + weight f (table.erase key) := by
  show ((List.kinsert key row table.entries).map fun entry => f entry.1 entry.2).sum = _
  rw [kinsert_def, map_cons, sum_cons]
  rfl

/-- A row and the rest of the table. -/
lemma weight_of_lookup (h : table.lookup key = some row) :
    weight f table = f key row + weight f (table.erase key) := by
  have hkey : key ∈ table.entries.keys := by
    have hmem : key ∈ table := AList.lookup_isSome.mp (by rw [h]; rfl)
    exact hmem
  obtain ⟨row', before, after, -, hsplit, herase⟩ := exists_of_kerase hkey
  have hrow : row' = row := by
    have hlookup := AList.mem_lookup_iff.mpr
      (show (⟨key, row'⟩ : Sigma fun _ : α => β) ∈ table.entries by rw [hsplit]; simp)
    rw [h] at hlookup
    exact (Option.some.inj hlookup).symm
  have hrest : weight f (table.erase key) =
      ((before ++ after).map fun entry => f entry.1 entry.2).sum := by
    rw [← herase]
    rfl
  rw [hrest]
  unfold weight
  rw [hsplit, hrow]
  simp only [map_append, map_cons, sum_append, sum_cons]
  omega

lemma weight_erase_of_none (h : table.lookup key = none) :
    weight f (table.erase key) = weight f table := by
  have hkey : key ∉ table.entries.keys := AList.lookup_eq_none.mp h
  show ((List.kerase key table.entries).map fun entry => f entry.1 entry.2).sum = _
  rw [kerase_of_notMem_keys hkey]
  rfl

lemma weight_erase_le : weight f (table.erase key) ≤ weight f table := by
  cases h : table.lookup key with
  | none => exact le_of_eq (weight_erase_of_none h)
  | some row =>
    rw [weight_of_lookup h]
    exact Nat.le_add_left _ _

/-- Rows that cost no more make a table that costs no more. -/
lemma weight_mono (h : ∀ key row, table.lookup key = some row → f key row ≤ g key row) :
    weight f table ≤ weight g table := by
  refine sum_le_sum fun entry hentry => h entry.1 entry.2 ?_
  exact AList.mem_lookup_iff.mpr hentry

/-! ## All rows at once -/

/-- Every row replaced, under its key. -/
def mapRows (f : α → β → β) (table : AList fun _ : α => β) : AList fun _ : α => β where
  entries := table.entries.map fun entry => ⟨entry.1, f entry.1 entry.2⟩
  nodupKeys := by
    have hkeys : (table.entries.map fun entry => (⟨entry.1, f entry.1 entry.2⟩ :
        Sigma fun _ : α => β)).keys = table.entries.keys := by
      simp [List.keys, Function.comp_def]
    rw [List.NodupKeys, hkeys]
    exact table.nodupKeys

@[simp] lemma lookup_mapRows (f : α → β → β) :
    (mapRows f table).lookup key = (table.lookup key).map (f key) := by
  cases h : table.lookup key with
  | none =>
    rw [AList.lookup_eq_none] at h
    rw [Option.map_none, AList.lookup_eq_none]
    intro hmem
    obtain ⟨entry, hentry, hkey⟩ := mem_map.mp (show key ∈ (mapRows f table).keys from hmem)
    obtain ⟨row, hrow, rfl⟩ := mem_map.mp hentry
    exact h (mem_map.mpr ⟨row, hrow, hkey⟩)
  | some row =>
    have hrow : (⟨key, row⟩ : Sigma fun _ : α => β) ∈ table.entries := AList.mem_lookup_iff.mp h
    exact AList.mem_lookup_iff.mpr (mem_map.mpr ⟨_, hrow, rfl⟩)

section Updates

variable {γ δ : Type} [DecidableEq γ] (rows : AList fun _ : γ => δ) (changed key : γ) (row : δ)

lemma lookup_insert_ite :
    (rows.insert changed row).lookup key = if key = changed then some row else rows.lookup key := by
  split_ifs with h
  · rw [h, AList.lookup_insert]
  · exact AList.lookup_insert_ne h

lemma lookup_erase_ite :
    (rows.erase changed).lookup key = if key = changed then none else rows.lookup key := by
  split_ifs with h
  · rw [h, AList.lookup_erase]
  · exact AList.lookup_erase_ne h

variable {rows changed key row} {found : δ}

lemma of_lookup_insert (h : (rows.insert changed row).lookup key = some found) :
    key = changed ∧ found = row ∨ key ≠ changed ∧ rows.lookup key = some found := by
  rw [lookup_insert_ite] at h
  split_ifs at h with hkey
  · exact .inl ⟨hkey, (Option.some.inj h).symm⟩
  · exact .inr ⟨hkey, h⟩

lemma of_lookup_erase (h : (rows.erase changed).lookup key = some found) :
    key ≠ changed ∧ rows.lookup key = some found := by
  rw [lookup_erase_ite] at h
  split_ifs at h with hkey
  exact ⟨hkey, h⟩

variable {name : δ → γ} (hnamed : ∀ key row, rows.lookup key = some row → name row = key)

include hnamed in
/-- Rows that stand under their own names still do after an update. -/
lemma named_insert (row : δ) (key : γ) (found : δ)
    (h : (rows.insert (name row) row).lookup key = some found) : name found = key := by
  rcases of_lookup_insert h with ⟨rfl, rfl⟩ | ⟨-, hold⟩
  · rfl
  · exact hnamed key found hold

include hnamed in
lemma named_erase (changed key : γ) (found : δ)
    (h : (rows.erase changed).lookup key = some found) : name found = key :=
  hnamed key found (of_lookup_erase h).2

end Updates

end Table
