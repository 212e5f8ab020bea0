import Rauha.Evidence.Record
import Rauha.Library.CrashLogic
import Rauha.Library.Lines

/-!
# The Run journal

The journal's operations as programs over a machine: the Run directory on its medium, the handle
the process holds, and what a replay has delivered so far.  Every system call is a
`CrashLogic.Prog.call`, so a plan can make it fail or stop the machine there, a write after any
number of its bytes; the statements stand in the order of the source.

* `Journal.create`, `Journal.open`, `Journal.append`, `Journal.replay`;
* `scan`, shared by the last three, which reads the committed prefix line by line;
* `publishHead`, which writes `head.next`, syncs it, renames it to `head` and syncs the directory.

The lock is held exactly as long as the process has a handle, so a second `open` meets `Busy`.
-/

namespace Rauha

open Storage CrashLogic

namespace Evidence

/-- The names in a Run directory. -/
inductive FileName where
  | WriterLock
  | ManifestJson
  | JournalJsonl
  | HeadNext
  | Head
  deriving DecidableEq, Repr

/-- An open journal.  `log` is the inode behind its append descriptor. -/
structure Journal where
  log : ℕ
  manifest : Value
  head : JournalHead
  tailBytes : ℕ
  writeFailed : Bool

/-- **The machine**: the Run directory (whether it exists, whether its parent has been synced
    since, its files), the handle of the running process, and the entries a replay's visitor has
    been shown. -/
structure World (τ : Type) where
  present : Bool
  linked : Bool
  disk : Disk FileName
  journal : Option Journal
  delivered : List (Entry τ)

/-- No Run directory and no handle. -/
def World.blank {τ : Type} : World τ := ⟨false, false, .empty, none, []⟩

abbrev JournalM (τ : Type) := Prog (World τ) Error

variable {τ : Type}

/-! ## System calls -/

/-- The directory with a lock file in it. -/
def withLock (d : Disk FileName) : Disk FileName :=
  if (d.dir .WriterLock).isSome then d else d.create .WriterLock

namespace Sys

/-- An update of the machine under a condition. -/
def updateIf (ok : World τ → Bool) (f : World τ → World τ) : JournalM τ Unit :=
  .atomic (fun w => if ok w then .ok ((), f w) else .error .Io) .Io

def mkdir : JournalM τ Unit :=
  updateIf (fun w => !w.present)
    fun w => { w with present := true, linked := false, disk := .empty }

def syncParent : JournalM τ Unit := updateIf (fun _ => true) fun w => { w with linked := true }

def openDirectory : JournalM τ Unit :=
  .query (fun w => if w.present then .ok () else .error .Io) .Io

def syncDirectory : JournalM τ Unit :=
  updateIf (fun _ => true) fun w => { w with disk := w.disk.syncDir }

/-- `O_CREAT | O_EXCL`; the result is the inode. -/
def newFile (name : FileName) : JournalM τ ℕ :=
  .atomic (fun w =>
    if (w.disk.dir name).isSome then .error .Io
    else .ok (w.disk.fresh, { w with disk := w.disk.create name })) .Io

/-- A write that is disturbed leaves some of its bytes. -/
def writeAll (file : ℕ) (bytes : Bytes) : JournalM τ Unit :=
  .call (fun w => (.ok (), { w with disk := w.disk.write file bytes }))
    (fun n w => { w with disk := w.disk.write file (bytes.take n) }) .Io

def syncAll (file : ℕ) : JournalM τ Unit :=
  updateIf (fun _ => true) fun w => { w with disk := w.disk.sync file }

def rename (a b : FileName) : JournalM τ Unit :=
  updateIf (fun w => (w.disk.dir a).isSome) fun w => { w with disk := w.disk.rename a b }

/-- Open an existing file; the result is the inode. -/
def openFile (name : FileName) : JournalM τ ℕ :=
  .query (fun w =>
    match w.disk.dir name with
    | some i => .ok i
    | none => .error .Io) .Io

/-- The contents of an open file. -/
def readToEnd (file : ℕ) : JournalM τ Bytes :=
  .query (fun w => .ok (w.disk.body file).data) .Io

/-- The lock file is created if need be and never removed. -/
def openLock : JournalM τ Unit :=
  updateIf (fun _ => true) fun w => { w with disk := withLock w.disk }

def tryLock : JournalM τ Unit :=
  .query (fun w => if w.journal.isSome then .error .Busy else .ok ()) .Io

end Sys

open Sys

def lock : JournalM τ Unit := do
  openLock
  tryLock

/-! ## Reading -/

variable (C : Codec τ)

def readRecordFile (α : Type) [Serde C α] (name : FileName) : JournalM τ α := do
  let file ← openFile name
  let bytes ← readToEnd file
  .ofExcept (readRecord C α bytes)

def okOr {α : Type} (x : Option α) (message : String) : Except Error α :=
  match x with
  | some a => .ok a
  | none => .error (.Invalid message)

/-- One line of the committed prefix, read up to one byte past the limit. -/
def readLine (line : Bytes) : JournalM τ Bytes :=
  .query (fun _ =>
    if maxRecordBytes < line.length then .error (.Invalid "record exceeds 1 MiB")
    else .ok line) .Io

/-- What `scan` requires of the next entry before the visitor sees it. -/
def checkEntry (entry : Entry τ) (seq : UInt64) (root : String) : Except Error Unit :=
  if entry.seq ≠ seq ∨ entry.prev ≠ root then
    .error (.Invalid "sequence or hash chain mismatch")
  else if !validKind entry.kind || !entry.body.isObject then
    .error (.Invalid "invalid event kind or body")
  else .ok ()

/-- The loop of `scan`: the state is the sequence number, the chain's root and the bytes
    consumed. -/
def scanLines (visitor : Entry τ → World τ → World τ) :
    List Bytes → UInt64 → String → ℕ → JournalM τ (UInt64 × String × ℕ)
  | [], seq, root, consumed => do
    let _ ← readLine []
    pure (seq, root, consumed)
  | line :: lines, seq, root, consumed => do
    let bytes ← readLine line
    let entry ← .ofExcept (parseRecord C (Entry τ) bytes)
    let seq ← .ofExcept (okOr (checkedAdd seq 1) "sequence overflow")
    .ofExcept (checkEntry entry seq root)
    .update (visitor entry)
    scanLines visitor lines seq (digest C entry) (consumed + bytes.length)

def scan (self : Journal) (visitor : Entry τ → World τ → World τ) : JournalM τ Unit := do
  let file ← openFile .JournalJsonl
  let bytes ← readToEnd file
  let (seq, root, consumed) ← scanLines C visitor
    (Lines.splitLines newline (bytes.take self.head.journalBytes.toNat))
    0 self.head.manifestSha256 0
  .failIf
    (seq ≠ self.head.sequence ∨ root ≠ self.head.journalRoot ∨
      consumed ≠ self.head.journalBytes.toNat)
    (.Invalid "committed head does not match journal")

/-! ## Writing -/

def publishHead (head : JournalHead) : JournalM τ Unit := do
  let file ← newFile .HeadNext
  let bytes ← .ofExcept (record C head)
  writeAll file bytes
  syncAll file
  rename .HeadNext .Head
  syncDirectory

/-- What an append is about to write: the entry, its record and the head that commits it. -/
structure Staged (τ : Type) where
  entry : Entry τ
  bytes : Bytes
  next : JournalHead

namespace Journal

/-- The checks of `append`, in order, up to the point where writing starts. -/
def stage (self : Journal) (kind : String) (epoch : UInt64) (body : Value) (now : τ) :
    Except Error (Staged τ) := do
  let body ← boundedInput body
  if self.writeFailed then
    throw .ReopenRequired
  if self.tailBytes ≠ 0 then
    throw .UncommittedTail
  if !validKind kind || !body.isObject then
    throw (.Invalid "event needs a namespaced kind and object body")
  let seq ← okOr (checkedAdd self.head.sequence 1) "sequence overflow"
  let entry : Entry τ := ⟨seq, now, kind, epoch, self.head.journalRoot, body⟩
  let bytes ← record C entry
  let journalBytes ←
    okOr (checkedAdd self.head.journalBytes (UInt64.ofNat bytes.length)) "journal size overflow"
  return ⟨entry, bytes, ⟨self.head.manifestSha256, seq, digest C entry, journalBytes⟩⟩

def append (self : Journal) (kind : String) (epoch : UInt64) (body : Value) (now : τ) :
    JournalM τ (Entry τ) := do
  let staged ← .ofExcept (self.stage C kind epoch body now)
  .update fun w => { w with journal := some { self with writeFailed := true } }
  let split := staged.bytes.length / 2
  writeAll self.log (staged.bytes.take split)
  writeAll self.log (staged.bytes.drop split)
  syncAll self.log
  publishHead C staged.next
  .update fun w =>
    { w with journal := some { self with head := staged.next, writeFailed := false } }
  pure staged.entry

def create (manifest : Value) : JournalM τ Unit := do
  let manifest ← .ofExcept (boundedInput manifest)
  .failIf (!manifest.isObject) (.Invalid "manifest must be an object")
  let bytes ← .ofExcept (record C manifest)
  mkdir
  syncParent
  openDirectory
  lock
  let file ← newFile .ManifestJson
  writeAll file bytes
  syncAll file
  let log ← newFile .JournalJsonl
  syncAll log
  syncDirectory
  let root := digest C manifest
  let head : JournalHead := ⟨root, 0, root, 0⟩
  publishHead C head
  .update fun w => { w with journal := some ⟨log, manifest, head, 0, false⟩ }

def «open» : JournalM τ Unit := do
  openDirectory
  lock
  let manifest ← readRecordFile C Value .ManifestJson
  .failIf (!manifest.isObject) (.Invalid "manifest must be an object")
  let head ← readRecordFile C JournalHead .Head
  .failIf (digest C manifest ≠ head.manifestSha256) (.Invalid "manifest digest mismatch")
  let log ← openFile .JournalJsonl
  let bytes ← readToEnd log
  .failIf (bytes.length < head.journalBytes.toNat)
    (.Invalid "journal shorter than committed head")
  let journal : Journal := ⟨log, manifest, head, bytes.length - head.journalBytes.toNat, false⟩
  scan C journal fun _ w => w
  syncDirectory
  .update fun w => { w with journal := some journal }

/-- Show one more entry to the caller. -/
def deliver (entry : Entry τ) (w : World τ) : World τ :=
  { w with delivered := w.delivered ++ [entry] }

def replay (self : Journal) : JournalM τ Unit := do
  scan C self fun _ w => w
  scan C self deliver

end Journal

end Evidence

end Rauha
