import Mathlib.Data.List.TakeWhile
import Rauha.Broker.Classify

/-!
# Reading a path

`readPathInto` reads a path from the memory of a task, in pieces: how much of a piece arrives is up
to the kernel.  `readPathInto_exact` says that the pieces do not matter.
-/

namespace Rauha.Broker

open List

inductive PathRead where
  | Found (path : List UInt8)
  | TooLong
  | Unreadable

variable (mem : UInt64 → Option UInt8) (ptr : UInt64) (schedule : ℕ → ℕ)

/-- The bytes from an address on, `n` at most, up to the first that cannot be read. -/
def readable : (addr n : ℕ) → List UInt8
  | _, 0 => []
  | addr, n + 1 =>
    match if addr < 2 ^ 64 then mem (UInt64.ofNat addr) else none with
    | some b => b :: readable (addr + 1) n
    | none => []

/-- One read: some of the bytes, and none only if there is none. -/
def readAt (addr want short : ℕ) : List UInt8 := (readable mem addr want).take (max 1 short)

/-- How reading ended, and how large the buffer was at each read. -/
structure Reading where
  result : PathRead
  sizes : List ℕ

def readLoop : (fuel : ℕ) → (buf : List UInt8) → (offset : ℕ) → (sizes : List ℕ) → Option Reading
  | 0, _, _, _ => none
  | fuel + 1, buf, offset, sizes =>
    let want := max (min (max buf.length 256) (maxPath - buf.length)) 1
    let sizes := sizes ++ [buf.length + want]
    if 2 ^ 64 ≤ ptr.toNat + offset then some ⟨.Unreadable, sizes⟩
    else
      let read := readAt mem (ptr.toNat + offset) want (schedule sizes.length)
      if read = [] then some ⟨.Unreadable, sizes⟩
      else if 0 ∈ read then some ⟨.Found (buf ++ read.takeWhile (· ≠ 0)), sizes⟩
      else if 2 ^ 64 ≤ offset + read.length then some ⟨.Unreadable, sizes⟩
      else if (buf ++ read).length = maxPath then some ⟨.TooLong, sizes⟩
      else readLoop fuel (buf ++ read) (offset + read.length) sizes

/-- The buffer is cleared first; `MAX_PATH` rounds are given. -/
def readPathInto (_buf : List UInt8) : Option Reading :=
  readLoop mem ptr schedule maxPath [] 0 []

/-- **What is to be returned** if these are the bytes that can be read, `MAX_PATH` at most. -/
def pathIn (bytes : List UInt8) : PathRead :=
  if 0 ∈ bytes then .Found (bytes.takeWhile (· ≠ 0))
  else if bytes.length = maxPath then .TooLong
  else .Unreadable

variable {mem}

lemma length_readable_le (addr n : ℕ) : (readable mem addr n).length ≤ n := by
  induction n generalizing addr with
  | zero => exact le_refl _
  | succ n ih =>
    rw [readable]
    split
    · exact Nat.succ_le_succ (ih _)
    · exact Nat.zero_le _

lemma readable_mono (addr : ℕ) {want n : ℕ} (h : want ≤ n) :
    readable mem addr want <+: readable mem addr n := by
  induction want generalizing addr n with
  | zero => exact List.nil_prefix
  | succ want ih =>
    obtain ⟨n, rfl⟩ : ∃ k, n = k + 1 := ⟨n - 1, by omega⟩
    rw [readable, readable]
    split
    · exact cons_prefix_cons.mpr ⟨rfl, ih _ (by omega)⟩
    · exact List.nil_prefix

/-- What was read, and what can be read after it. -/
lemma readable_split {addr n : ℕ} {read : List UInt8} (h : read <+: readable mem addr n) :
    readable mem addr n = read ++ readable mem (addr + read.length) (n - read.length) := by
  induction read generalizing addr n with
  | nil => rfl
  | cons b read ih =>
    cases n with
    | zero => exact absurd h.length_le (by simp [readable])
    | succ n =>
      rw [readable] at h ⊢
      split at h
      · obtain ⟨rfl, hrest⟩ := cons_prefix_cons.mp h
        rw [ih hrest, length_cons, Nat.add_sub_add_right, Nat.add_right_comm, Nat.add_assoc,
          cons_append]
      · exact absurd h.length_le (by simp)

lemma readable_of_wrap {addr : ℕ} (h : 2 ^ 64 ≤ addr) (n : ℕ) : readable mem addr n = [] := by
  cases n with
  | zero => rfl
  | succ n => rw [readable, if_neg (by omega)]

/-- Nothing is read only where nothing can be. -/
lemma readable_of_readAt {addr want short : ℕ} (h : readAt mem addr want short = [])
    (hwant : want ≠ 0) (n : ℕ) : readable mem addr n = [] := by
  obtain ⟨m, rfl⟩ := Nat.exists_eq_succ_of_ne_zero hwant
  have hnone := (take_eq_nil_iff.mp h).resolve_left (by omega)
  cases n with
  | zero => rfl
  | succ n =>
    rw [readable] at hnone ⊢
    split at hnone
    · cases hnone
    · rfl

lemma takeWhile_append_of_mem {read : List UInt8} (h : 0 ∈ read) (rest : List UInt8) :
    (read ++ rest).takeWhile (· ≠ 0) = read.takeWhile (· ≠ 0) := by
  rw [takeWhile_append, if_neg]
  intro hlength
  have hall := takeWhile_eq_self_iff.mp ((List.takeWhile_prefix _).eq_of_length hlength) 0 h
  simp at hall

variable (mem)

/-- **What reading is to be**: at most `MAX_PATH` reads, a buffer of at most `MAX_PATH` bytes, and
    the path that is in memory. -/
structure Reading.Exact (reading : Reading) : Prop where
  rounds : reading.sizes.length ≤ maxPath
  sizes : ∀ size ∈ reading.sizes, size ≤ maxPath
  result : reading.result = pathIn (readable mem ptr.toNat maxPath)

/-- **The loop**, from any of its rounds: the buffer holds what can be read so far, and every round
    has added to it. -/
lemma readLoop_exact {fuel : ℕ} {buf : List UInt8} {sizes : List ℕ} (hbuf : 0 ∉ buf)
    (hread : readable mem ptr.toNat maxPath =
      buf ++ readable mem (ptr.toNat + buf.length) (maxPath - buf.length))
    (hshort : buf.length < maxPath) (hfuel : maxPath ≤ buf.length + fuel)
    (hrounds : sizes.length ≤ buf.length) (hsizes : ∀ size ∈ sizes, size ≤ maxPath) :
    ∃ reading, readLoop mem ptr schedule fuel buf buf.length sizes = some reading ∧
      reading.Exact mem ptr := by
  induction fuel generalizing buf sizes with
  | zero => omega
  | succ fuel ih =>
    have hmax : maxPath = 4096 := rfl
    rw [readLoop]
    generalize hwant : max (min (max buf.length 256) (maxPath - buf.length)) 1 = want
    have hle : buf.length + want ≤ maxPath := by omega
    have hone : (sizes ++ [buf.length + want]).length = sizes.length + 1 := by simp
    have hall : ∀ size ∈ sizes ++ [buf.length + want], size ≤ maxPath :=
      forall_mem_append.mpr ⟨hsizes, forall_mem_singleton.mpr hle⟩
    generalize sizes ++ [buf.length + want] = sizes' at hone hall ⊢
    have hlong : sizes'.length ≤ maxPath := by omega
    simp only
    generalize hpiece : readAt mem (ptr.toNat + buf.length) want (schedule sizes'.length) = read
    have hstart : read <+: readable mem (ptr.toNat + buf.length) (maxPath - buf.length) := by
      rw [← hpiece, readAt]
      exact (List.take_prefix _ _).trans (readable_mono _ (by omega))
    have hlength := hstart.length_le.trans (length_readable_le _ _)
    have hnone : (∀ n, readable mem (ptr.toNat + buf.length) n = []) →
        PathRead.Unreadable = pathIn (readable mem ptr.toNat maxPath) := by
      intro hnil
      rw [hread, hnil, append_nil, pathIn, if_neg hbuf, if_neg (by omega)]
    rw [readable_split hstart, ← append_assoc] at hread
    split_ifs with hwrap hempty hnul hover hfull
    · exact ⟨_, rfl, hlong, hall, hnone (readable_of_wrap hwrap)⟩
    · exact ⟨_, rfl, hlong, hall, hnone (readable_of_readAt (hpiece.trans hempty) (by omega))⟩
    · refine ⟨_, rfl, hlong, hall, ?_⟩
      have hplain : ∀ b ∈ buf, decide (b ≠ 0) = true := fun b hb =>
        decide_eq_true fun hzero => hbuf (hzero ▸ hb)
      rw [hread, pathIn, if_pos (by simp [hnul]), append_assoc,
        takeWhile_append_of_pos hplain, takeWhile_append_of_mem hnul]
    · omega
    · refine ⟨_, rfl, hlong, hall, ?_⟩
      have hno : 0 ∉ buf ++ read := by simp [hbuf, hnul]
      have hend : maxPath - buf.length - read.length = 0 := by
        rw [length_append] at hfull
        omega
      rw [hread, hend, readable, append_nil, pathIn, if_neg hno, if_pos hfull]
    · have hpos := length_pos_iff.mpr hempty
      rw [length_append] at hfull
      rw [← length_append]
      refine ih (by simp [hbuf, hnul]) ?_ ?_ ?_ ?_ hall
      · rw [hread, length_append, Nat.add_assoc, Nat.sub_sub]
      all_goals
        rw [length_append]
        omega

/-- The rounds are enough. -/
lemma readPathInto_isSome (buf : List UInt8) :
    (readPathInto mem ptr schedule buf).isSome = true := by
  obtain ⟨reading, hreading, -⟩ :
      ∃ reading, readPathInto mem ptr schedule buf = some reading ∧ reading.Exact mem ptr :=
    readLoop_exact mem ptr schedule not_mem_nil (by simp) (by decide) (by simp) (le_refl _) nofun
  exact Option.isSome_iff_exists.mpr ⟨reading, hreading⟩

/-- **Path reading is exact and terminates.** -/
theorem readPathInto_exact (buf : List UInt8) :
    ∃ reading, readPathInto mem ptr schedule buf = some reading ∧ reading.Exact mem ptr :=
  readLoop_exact mem ptr schedule not_mem_nil (by simp) (by decide) (by simp) (le_refl _) nofun

end Rauha.Broker
