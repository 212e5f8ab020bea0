import Mathlib.Data.List.GetD
import Mathlib.Tactic

/-!
# A directory of append-only files under power cuts

Files are inodes whose contents only grow; a directory maps names to inodes.  Two things are not
durable when they happen and become so at a sync:

* the bytes of a file beyond its last `sync` (`Body.durable` is the part a power cut keeps);
* the directory operations since its last `syncDir`.  `Disk.older` keeps every earlier state of
  the directory that a power cut can bring back; a rename is one such operation, so it happens
  as a whole or not at all.

`Disk.powerCut` picks one of these directory states and, for every file, any continuation of its
durable part that is no longer than what had been written.

The two notions the proofs use are `Disk.Keeps` (a file durably starts with given bytes: once
true, true for ever, because files only grow) and `Disk.Settled` (a file durably consists of given
bytes).
-/

namespace Storage

open Function

/-- File contents. -/
abbrev Bytes := List UInt8

/-- A file: its bytes and how many of them are durable. -/
structure Body where
  data : Bytes
  synced : ℕ
  synced_le : synced ≤ data.length

namespace Body

def empty : Body := ⟨[], 0, le_refl _⟩

/-- A file that has been synced as it is. -/
def whole (bytes : Bytes) : Body := ⟨bytes, bytes.length, le_refl _⟩

/-- The bytes that survive a power cut. -/
def durable (b : Body) : Bytes := b.data.take b.synced

def write (b : Body) (bytes : Bytes) : Body :=
  ⟨b.data ++ bytes, b.synced, by have := b.synced_le; simp; omega⟩

def sync (b : Body) : Body := ⟨b.data, b.data.length, le_refl _⟩

/-- After a power cut: the durable bytes, then whatever reached the medium of the others. -/
def afterCut (b : Body) (tail : Bytes) : Body :=
  let data := b.durable ++ tail.take (b.data.length - b.synced)
  ⟨data, data.length, le_refl _⟩

@[simp] lemma write_data (b : Body) (bytes : Bytes) : (b.write bytes).data = b.data ++ bytes := rfl
@[simp] lemma sync_data (b : Body) : b.sync.data = b.data := rfl
@[simp] lemma durable_sync (b : Body) : b.sync.durable = b.data := by simp [durable, sync]
@[simp] lemma durable_empty : empty.durable = [] := rfl

@[simp] lemma durable_write (b : Body) (bytes : Bytes) : (b.write bytes).durable = b.durable := by
  simp [durable, write, List.take_append_of_le_length b.synced_le]

@[simp] lemma durable_afterCut (b : Body) (tail : Bytes) :
    (b.afterCut tail).durable = (b.afterCut tail).data := by
  simp [durable, afterCut]

lemma durable_prefix (b : Body) : b.durable <+: b.data := List.take_prefix _ _

lemma durable_prefix_afterCut (b : Body) (tail : Bytes) : b.durable <+: (b.afterCut tail).data :=
  List.prefix_append _ _

lemma afterCut_data_of_settled {b : Body} (h : b.durable = b.data) (tail : Bytes) :
    (b.afterCut tail).data = b.data := by
  have hlen : b.data.length - b.synced = 0 := by
    have := congrArg List.length h
    simp [durable] at this
    omega
  simp [afterCut, hlen, h]

end Body

/-- A directory of files, with the directory states a power cut can still bring back. -/
structure Disk (N : Type) where
  body : ℕ → Body
  /-- The next inode. -/
  fresh : ℕ
  dir : N → Option ℕ
  /-- Earlier states of the directory, since its last sync. -/
  older : List (N → Option ℕ)

namespace Disk

variable {N : Type}

/-- The empty directory. -/
def empty : Disk N := ⟨fun _ => .empty, 0, fun _ => none, []⟩

/-- Every directory state that can be found after a power cut; the first is the present one. -/
def dirs (d : Disk N) : List (N → Option ℕ) := d.dir :: d.older

/-- Create an empty file under a name that is free. -/
def create [DecidableEq N] (d : Disk N) (n : N) : Disk N where
  body := Function.update d.body d.fresh .empty
  fresh := d.fresh + 1
  dir := Function.update d.dir n (some d.fresh)
  older := d.dirs

def write (d : Disk N) (i : ℕ) (bytes : Bytes) : Disk N :=
  { d with body := Function.update d.body i ((d.body i).write bytes) }

def sync (d : Disk N) (i : ℕ) : Disk N :=
  { d with body := Function.update d.body i (d.body i).sync }

/-- Move the file called `a` to the name `b`. -/
def rename [DecidableEq N] (d : Disk N) (a b : N) : Disk N :=
  { d with dir := Function.update (Function.update d.dir b (d.dir a)) a none, older := d.dirs }

def syncDir (d : Disk N) : Disk N := { d with older := [] }

/-- A power cut that leaves the directory in state number `pick` (of those possible) and the
    file `i` with some of `tail i` after its durable part. -/
def powerCut (d : Disk N) (pick : ℕ) (tail : ℕ → Bytes) : Disk N where
  body i := (d.body i).afterCut (tail i)
  fresh := d.fresh
  dir := d.dirs.getD pick d.dir
  older := []

/-- The contents of the file called `n`. -/
def read (d : Disk N) (n : N) : Option Bytes := (d.dir n).map fun i => (d.body i).data

/-! ## Which directory states are possible -/

@[simp] lemma dirs_create [DecidableEq N] (d : Disk N) (n : N) :
    (d.create n).dirs = update d.dir n (some d.fresh) :: d.dirs := rfl

@[simp] lemma dirs_write (d : Disk N) (i : ℕ) (bytes : Bytes) :
    (d.write i bytes).dirs = d.dirs := rfl

@[simp] lemma dirs_sync (d : Disk N) (i : ℕ) : (d.sync i).dirs = d.dirs := rfl

@[simp] lemma dirs_rename [DecidableEq N] (d : Disk N) (a b : N) :
    (d.rename a b).dirs = update (update d.dir b (d.dir a)) a none :: d.dirs :=
  rfl

@[simp] lemma dirs_syncDir (d : Disk N) : d.syncDir.dirs = [d.dir] := rfl

lemma dir_mem_dirs (d : Disk N) : d.dir ∈ d.dirs := List.mem_cons_self

lemma dirs_powerCut (d : Disk N) (pick : ℕ) (tail : ℕ → Bytes) :
    ∃ f ∈ d.dirs, (d.powerCut pick tail).dirs = [f] := by
  refine ⟨d.dirs.getD pick d.dir, ?_, rfl⟩
  rcases lt_or_ge pick d.dirs.length with h | h
  · rw [List.getD_eq_getElem _ _ h]
    exact List.getElem_mem h
  · rw [List.getD_eq_default _ _ h]
    exact d.dir_mem_dirs

/-! ## Facts about contents that outlive crashes -/

/-- File `i` durably starts with `bytes`. -/
def Keeps (d : Disk N) (i : ℕ) (bytes : Bytes) : Prop :=
  i < d.fresh ∧ bytes <+: (d.body i).durable

/-- File `i` durably consists of `bytes`. -/
def Settled (d : Disk N) (i : ℕ) (bytes : Bytes) : Prop :=
  i < d.fresh ∧ (d.body i).data = bytes ∧ (d.body i).durable = bytes

section Keeps

variable {d : Disk N} {i j : ℕ} {bytes more : Bytes} {n a b : N}

lemma Keeps.create [DecidableEq N] (h : d.Keeps i bytes) : (d.create n).Keeps i bytes := by
  have hne : i ≠ d.fresh := Nat.ne_of_lt h.1
  exact ⟨Nat.lt_succ_of_lt h.1, by simpa [Disk.create, hne] using h.2⟩

lemma Keeps.write (h : d.Keeps i bytes) : (d.write j more).Keeps i bytes := by
  refine ⟨h.1, ?_⟩
  by_cases hij : i = j
  · subst hij; simpa [Disk.write] using h.2
  · simpa [Disk.write, hij] using h.2

lemma Keeps.sync (h : d.Keeps i bytes) : (d.sync j).Keeps i bytes := by
  refine ⟨h.1, ?_⟩
  by_cases hij : i = j
  · subst hij; simpa [Disk.sync] using h.2.trans (Body.durable_prefix _)
  · simpa [Disk.sync, hij] using h.2

lemma Keeps.rename [DecidableEq N] (h : d.Keeps i bytes) : (d.rename a b).Keeps i bytes := h

lemma Keeps.syncDir (h : d.Keeps i bytes) : d.syncDir.Keeps i bytes := h

lemma Keeps.powerCut (h : d.Keeps i bytes) (pick : ℕ) (tail : ℕ → Bytes) :
    (d.powerCut pick tail).Keeps i bytes := by
  refine ⟨h.1, ?_⟩
  simp only [Disk.powerCut, Body.durable_afterCut]
  exact h.2.trans (Body.durable_prefix_afterCut _ _)

/-- What is durable is there to be read. -/
lemma Keeps.prefix_data (h : d.Keeps i bytes) : bytes <+: (d.body i).data :=
  h.2.trans (Body.durable_prefix _)

lemma Settled.keeps (h : d.Settled i bytes) : d.Keeps i bytes := ⟨h.1, by rw [h.2.2]⟩

lemma Settled.create [DecidableEq N] (h : d.Settled i bytes) : (d.create n).Settled i bytes := by
  have hne : i ≠ d.fresh := Nat.ne_of_lt h.1
  exact ⟨Nat.lt_succ_of_lt h.1, by simpa [Disk.create, hne] using h.2⟩

lemma Settled.write (h : d.Settled i bytes) (hij : i ≠ j) : (d.write j more).Settled i bytes :=
  ⟨h.1, by simpa [Disk.write, hij] using h.2⟩

lemma Settled.sync (h : d.Settled i bytes) : (d.sync j).Settled i bytes := by
  refine ⟨h.1, ?_⟩
  by_cases hij : i = j
  · subst hij; simpa [Disk.sync] using h.2.1
  · simpa [Disk.sync, hij] using h.2

lemma Settled.rename [DecidableEq N] (h : d.Settled i bytes) : (d.rename a b).Settled i bytes := h

lemma Settled.syncDir (h : d.Settled i bytes) : d.syncDir.Settled i bytes := h

lemma Settled.powerCut (h : d.Settled i bytes) (pick : ℕ) (tail : ℕ → Bytes) :
    (d.powerCut pick tail).Settled i bytes := by
  have hdata : ((d.body i).afterCut (tail i)).data = bytes := by
    rw [Body.afterCut_data_of_settled (h.2.2.trans h.2.1.symm), h.2.1]
  exact ⟨h.1, hdata, by simp only [Disk.powerCut, Body.durable_afterCut, hdata]⟩

/-- Syncing a file settles what it holds. -/
lemma settled_sync (hi : i < d.fresh) (h : (d.body i).data = bytes) :
    (d.sync i).Settled i bytes := by
  refine ⟨hi, ?_, ?_⟩ <;> simp [Disk.sync, h]

end Keeps

end Disk

end Storage
