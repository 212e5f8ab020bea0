import Rauha.Library.CrashLogic
import Rauha.Library.Transition

/-!
# Bounded logs

The output of a workload, and the decisions of its broker, go to a log of bounded size.  Beside the
log lies a marker that says that the log is incomplete.  It is put there before the log and removed
when the log is finished with nothing left out: whoever finds no marker takes the log for the whole.

A write that does not fit is cut, or left out if it is a whole record.  `Session` is one process
with its log; each of its calls can fail, or be where the process is killed.  `pump` copies a stream
into a log.  `bounded_log_honest` says what the two files tell, whatever happened.
-/

namespace Rauha.Output

open CrashLogic Transition List

inductive IoError where
  | Failed
  | AlreadyExists
  | NotFound
  deriving DecidableEq, Repr

/-- The two files, and what the process knows about them. -/
structure BoundedLog where
  file : Option (List UInt8)
  marker : Bool
  remaining : ℕ
  incomplete : Bool
  deriving DecidableEq, Repr

namespace BoundedLog

abbrev Op := Prog BoundedLog IoError

/-! ## System calls -/

def openMarker : Op Unit :=
  .atomic (fun self => .ok ((), { self with marker := true })) .Failed

/-- The log must be new. -/
def createLog : Op Unit :=
  .atomic (fun self =>
    match self.file with
    | some _ => .error .AlreadyExists
    | none => .ok ((), { self with file := some [] })) .Failed

/-- Disturbed, it has written some of the bytes. -/
def writeAll (bytes : List UInt8) : Op Unit :=
  .call (fun self => (.ok (), { self with file := self.file.map (· ++ bytes) }))
    (fun n self => { self with file := self.file.map (· ++ bytes.take n) }) .Failed

def syncAll : Op Unit := .query (fun _ => .ok ()) .Failed

def removeMarker : Op Unit :=
  .atomic (fun self =>
    if self.marker then .ok ((), { self with marker := false }) else .error .NotFound) .Failed

/-! ## The log -/

def openLog (limit : ℕ) : Op Unit := do
  openMarker
  createLog
  .update fun self => { self with remaining := limit, incomplete := false }

/-- Whether a record is left out as a whole. -/
def drops (self : BoundedLog) (bytes : List UInt8) (wholeRecord : Bool) : Bool :=
  wholeRecord && decide (self.remaining < bytes.length)

/-- How many of the bytes are written. -/
def count (self : BoundedLog) (bytes : List UInt8) (wholeRecord : Bool) : ℕ :=
  if self.drops bytes wholeRecord then 0 else min bytes.length self.remaining

def write (bytes : List UInt8) (wholeRecord : Bool) : Op Unit := do
  let self ← .getState
  let count := self.count bytes wholeRecord
  .update fun self =>
    { self with remaining := if self.drops bytes wholeRecord then 0 else self.remaining }
  if count < bytes.length then
    .update fun self => { self with incomplete := true }
  match ← .attempt (writeAll (bytes.take count)) with
  | .error e => do
    .update fun self => { self with incomplete := true, remaining := 0 }
    .raise e
  | .ok () => .update fun self => { self with remaining := self.remaining - count }

def finish : Op Unit := do
  syncAll
  let self ← .getState
  if self.incomplete then pure () else removeMarker

end BoundedLog

/-! ## A process and its log -/

structure Write where
  bytes : List UInt8
  wholeRecord : Bool
  fate : Fate

/-- A process that has its log open, or has been killed. -/
structure Session where
  log : BoundedLog
  running : Bool

namespace Session

/-- Make a call; a killed process makes none. -/
def perform (s : Session) (op : BoundedLog.Op Unit) (plan : List Fate) : Session :=
  if s.running then
    match op plan s.log with
    | (.stopped, _, log) => ⟨log, false⟩
    | (_, _, log) => ⟨log, true⟩
  else s

def write (s : Session) (w : Write) : Session :=
  s.perform (BoundedLog.write w.bytes w.wholeRecord) [w.fate]

def finish (s : Session) (plan : List Fate) : Session := s.perform BoundedLog.finish plan

/-- A write that fails, or of which something is missing in the log. -/
def Loses (s : Session) (w : Write) : Prop :=
  w.fate ≠ .pass ∨ (s.write w).log.file ≠ s.log.file.map (· ++ w.bytes)

end Session

/-- All that has been handed to a log. -/
def written (ws : List Write) : List UInt8 := ws.flatMap Write.bytes

/-! ## Copying a stream -/

inductive Read where
  | eof
  | data (bytes : List UInt8)
  | interrupted
  | timedOut
  | failed

/-- One turn of the copying thread: whether it is told to stop, before and after it reads, whether
    the time it has left for that is over, and what it reads. -/
structure Turn where
  stopping : Bool
  expired : Bool
  read : Read
  stoppingAfter : Bool

/-- The thread of `Capture`. -/
def pump : List Turn → BoundedLog.Op Unit
  | [] => pure ()
  | turn :: rest =>
    if turn.stopping && turn.expired then pure ()
    else
      match turn.read with
      | .eof => .ignore BoundedLog.finish
      | .data bytes => do
        .ignore (BoundedLog.write bytes false)
        pump rest
      | .interrupted => pump rest
      | .timedOut => if turn.stoppingAfter then pure () else pump rest
      | .failed => pure ()

/-- What the thread has read when it ends. -/
def received : List Turn → List UInt8
  | [] => []
  | turn :: rest =>
    if turn.stopping && turn.expired then []
    else
      match turn.read with
      | .eof => []
      | .data bytes => bytes ++ received rest
      | .interrupted => received rest
      | .timedOut => if turn.stoppingAfter then [] else received rest
      | .failed => []

/-! ## One call -/

namespace BoundedLog

variable {self : BoundedLog} {bytes all : List UInt8} {wholeRecord : Bool} {limit : ℕ}

lemma write_eq (plan : List Fate) :
    write bytes wholeRecord plan self =
      match plan.headD .pass with
      | .pass => (.done (), plan.tail,
          { self with
            file := self.file.map (· ++ bytes.take (self.count bytes wholeRecord))
            remaining := (if self.drops bytes wholeRecord then 0 else self.remaining) -
              self.count bytes wholeRecord
            incomplete := self.incomplete || decide (self.count bytes wholeRecord < bytes.length) })
      | .fail n => (.failed .Failed, plan.tail,
          { self with
            file := self.file.map (· ++ (bytes.take (self.count bytes wholeRecord)).take n)
            remaining := 0
            incomplete := true })
      | .stop n => (.stopped, plan.tail,
          { self with
            file := self.file.map (· ++ (bytes.take (self.count bytes wholeRecord)).take n)
            remaining := if self.drops bytes wholeRecord then 0 else self.remaining
            incomplete :=
              self.incomplete || decide (self.count bytes wholeRecord < bytes.length) }) := by
  have hpass : ∀ plan', (plan' = [] ∨ ∃ rest, plan' = .pass :: rest) →
      writeAll (bytes.take (self.count bytes wholeRecord)) plan' = fun log =>
        (.done (), plan'.tail,
          { log with file := log.file.map (· ++ bytes.take (self.count bytes wholeRecord)) }) := by
    rintro _ (rfl | ⟨rest, rfl⟩) <;> rfl
  cases plan with
  | nil =>
    by_cases h : self.count bytes wholeRecord < bytes.length <;>
      simp [write, h, bind, Prog.andThen, Prog.getState, Prog.update, Prog.attempt, hpass]
  | cons fate rest =>
    cases fate <;> by_cases h : self.count bytes wholeRecord < bytes.length <;>
      simp [write, h, bind, Prog.andThen, Prog.getState, Prog.update, Prog.attempt, writeAll,
        Prog.call, Prog.raise]

lemma count_le : self.count bytes wholeRecord ≤ self.remaining := by
  unfold count
  split_ifs <;> omega

/-- A write that is not whole leaves no room. -/
lemma remaining_of_count_lt (h : self.count bytes wholeRecord < bytes.length) :
    (if self.drops bytes wholeRecord then 0 else self.remaining) -
      self.count bytes wholeRecord = 0 := by
  unfold count at h ⊢
  split_ifs at h ⊢ <;> omega

/-- A whole record is written as such or not at all. -/
lemma count_of_wholeRecord (h : self.count bytes true < bytes.length) :
    self.count bytes true = 0 := by
  unfold count drops at *
  by_cases hfits : self.remaining < bytes.length
  · simp [hfits]
  · simp [hfits] at h

/-- **What a write does**: it puts part of the bytes behind the log.  All of them, and nothing else
    changes; or not all, or with an error, and then the log takes no more; or the process is
    killed. -/
lemma write_cases (plan : List Fate) : ∃ part o rest log,
    write bytes wholeRecord plan self = (o, rest, log) ∧
    part <+: bytes ∧ part.length ≤ self.remaining ∧
    log.file = self.file.map (· ++ part) ∧ log.marker = self.marker ∧
    (o = .done () ∧ plan.headD .pass = .pass ∧ part = bytes ∧
        log.remaining = self.remaining - part.length ∧ log.incomplete = self.incomplete ∨
      o ≠ .stopped ∧ log.remaining = 0 ∧ log.incomplete = true ∧
        (plan.headD .pass = .pass → wholeRecord = true → part = []) ∨
      o = .stopped ∧ plan.headD .pass ≠ .pass) := by
  have hlength : (bytes.take (self.count bytes wholeRecord)).length ≤ self.remaining :=
    (length_take_le _ _).trans count_le
  have hpartial : ∀ n, (bytes.take (self.count bytes wholeRecord)).take n <+: bytes :=
    fun n => (List.take_prefix _ _).trans (List.take_prefix _ _)
  have hshort : ∀ n, ((bytes.take (self.count bytes wholeRecord)).take n).length ≤ self.remaining :=
    fun n => ((List.take_prefix _ _).length_le).trans hlength
  rw [write_eq]
  cases hfate : plan.headD .pass with
  | pass =>
    refine ⟨_, _, _, _, rfl, List.take_prefix _ _, hlength, rfl, rfl, ?_⟩
    by_cases hlt : self.count bytes wholeRecord < bytes.length
    · refine .inr (.inl ⟨nofun, remaining_of_count_lt hlt, by simp [hlt], ?_⟩)
      rintro - rfl
      rw [count_of_wholeRecord hlt, take_zero]
    · have hall : bytes.take (self.count bytes wholeRecord) = bytes :=
        take_of_length_le (by omega)
      have hkeeps : self.drops bytes wholeRecord = false ∨ bytes = [] := by
        by_cases hdrops : self.drops bytes wholeRecord = true
        · rw [count, if_pos hdrops] at hlt
          exact .inr (length_eq_zero_iff.mp (by omega))
        · exact .inl (by simpa using hdrops)
      refine .inl ⟨rfl, rfl, hall, ?_, by simp [hlt]⟩
      rw [hall]
      rcases hkeeps with hdrops | rfl
      · have hcount : self.count bytes wholeRecord = bytes.length := by
          have hle : self.count bytes wholeRecord ≤ bytes.length := by
            rw [count, hdrops]
            exact min_le_left _ _
          omega
        simp only [hdrops, hcount, Bool.false_eq_true, if_false]
      · simp [drops, count]
  | fail n =>
    exact ⟨_, _, _, _, rfl, hpartial n, hshort n, rfl, rfl, .inr (.inl ⟨nofun, rfl, rfl, nofun⟩)⟩
  | stop n =>
    exact ⟨_, _, _, _, rfl, hpartial n, hshort n, rfl, rfl, .inr (.inr ⟨rfl, nofun⟩)⟩

/-- **What finishing does** to the two files: nothing, or the marker goes from a complete log. -/
lemma finish_cases (plan : List Fate) : ∃ o rest log, finish plan self = (o, rest, log) ∧
    log.file = self.file ∧ (log.marker = self.marker ∨ self.incomplete = false) := by
  have hpost : Ends (· = self) finish fun log =>
      log.file = self.file ∧ (log.marker = self.marker ∨ self.incomplete = false) := by
    refine .bind_at (.query_at ?_ ⟨rfl, .inl rfl⟩)
    rintro - -
    refine .bind_at (.getState_at ?_)
    cases hincomplete : self.incomplete with
    | true => exact .pure_at ⟨rfl, .inl rfl⟩
    | false =>
      have hremoved : ∀ u log', (if self.marker then
          .ok ((), { self with marker := false }) else .error .NotFound :
            Except IoError (Unit × BoundedLog)) = .ok (u, log') → log'.file = self.file := by
        intro u log' hok
        split_ifs at hok
        cases hok
        rfl
      exact .atomic_at (fun u log' hok => ⟨hremoved u log' hok, .inr rfl⟩)
        ⟨rfl, .inr rfl⟩ fun u log' hok => ⟨hremoved u log' hok, .inr rfl⟩
  exact ⟨_, _, _, rfl, hpost.final plan rfl⟩

/-- **A log in use**, to which `all` has been handed: as long as it is not incomplete it holds all
    of it, and once it is it has no more room. -/
structure Open (limit : ℕ) (all file : List UInt8) (log : BoundedLog) : Prop where
  file_eq : log.file = some file
  marker : log.marker = true
  head : file <+: all
  room : file.length + log.remaining ≤ limit
  complete : log.incomplete = false → file = all
  closed : log.incomplete = true → log.remaining = 0

/-- What is left of it when the process is killed. -/
structure Left (limit : ℕ) (all file : List UInt8) (log : BoundedLog) : Prop where
  file_eq : log.file = some file
  marker : log.marker = true
  head : file <+: all
  bounded : file.length ≤ limit

lemma Open.left {file : List UInt8} (h : Open limit all file self) : Left limit all file self :=
  ⟨h.file_eq, h.marker, h.head, by have := h.room; omega⟩

/-- What is put behind the log continues what has been handed to it. -/
lemma Open.append_prefix {file part : List UInt8} (h : Open limit all file self)
    (hpart : part <+: bytes) (hlength : part.length ≤ self.remaining) :
    file ++ part <+: all ++ bytes := by
  cases hincomplete : self.incomplete with
  | false =>
    rw [h.complete hincomplete]
    exact (prefix_append_right_inj all).mpr hpart
  | true =>
    rw [h.closed hincomplete] at hlength
    rw [length_eq_zero_iff.mp (Nat.le_zero.mp hlength), append_nil]
    exact h.head.trans (prefix_append _ _)

/-- **One write** to a log in use. -/
lemma Open.write {file : List UInt8} (h : Open limit all file self) (bytes : List UInt8)
    (wholeRecord : Bool) (plan : List Fate) :
    ∃ part o rest log, BoundedLog.write bytes wholeRecord plan self = (o, rest, log) ∧
      part.length ≤ self.remaining ∧
      (o = .stopped ∧ plan.headD .pass ≠ .pass ∧ Left limit (all ++ bytes) (file ++ part) log ∨
        o ≠ .stopped ∧ Open limit (all ++ bytes) (file ++ part) log ∧
          log.remaining ≤ self.remaining ∧
          (plan.headD .pass = .pass ∧ part = bytes ∨
            log.remaining = 0 ∧ (plan.headD .pass = .pass → wholeRecord = true → part = []))) := by
  obtain ⟨part, o, rest, log, hrun, hpart, hlength, hfile, hmarker, hcases⟩ :=
    @write_cases self bytes wholeRecord plan
  have hfile' : log.file = some (file ++ part) := by
    rw [hfile, h.file_eq]
    rfl
  have hhead := h.append_prefix hpart hlength
  have hroom := h.room
  have hmarker' := hmarker.trans h.marker
  refine ⟨part, o, rest, log, hrun, hlength, ?_⟩
  rcases hcases with ⟨rfl, hpass, rfl, hremaining, hsame⟩ | ⟨hrunning, hzero, hincomplete, hwhole⟩ |
    ⟨rfl, hfate⟩
  · refine .inr ⟨nofun, ⟨hfile', hmarker', hhead, ?_, ?_, ?_⟩, by omega, .inl ⟨hpass, rfl⟩⟩
    · rw [length_append]
      omega
    · intro hcomplete
      rw [h.complete (hsame.symm.trans hcomplete)]
    · intro hincomplete
      rw [hremaining, h.closed (hsame.symm.trans hincomplete), Nat.zero_sub]
  · refine .inr ⟨hrunning, ⟨hfile', hmarker', hhead, ?_, ?_, fun _ => hzero⟩, by omega,
      .inr ⟨hzero, hwhole⟩⟩
    · rw [length_append]
      omega
    · intro hcomplete
      rw [hincomplete] at hcomplete
      cases hcomplete
  · refine .inl ⟨rfl, hfate, hfile', hmarker', hhead, ?_⟩
    rw [length_append]
    omega

/-- **Opening**: a new log, empty and marked; or nothing, but for a log that is empty and
    marked. -/
lemma openLog_cases (plan : List Fate) : ∃ o rest log, openLog limit plan self = (o, rest, log) ∧
    (o = .done () ∧ Open limit [] [] log ∨
      o ≠ .done () ∧ (log.file = self.file ∨ log.file = some [] ∧ log.marker = true)) := by
  have hpost : Attempts (· = self) (openLog limit) (fun _ log => Open limit [] [] log)
      fun log => log.file = self.file ∨ log.file = some [] ∧ log.marker = true := by
    refine .bind_at (.atomic_at ?_ (.inl rfl) ?_)
    · rintro ⟨⟩ log hlog
      cases hlog
      refine .bind_at (.atomic_at ?_ (.inl rfl) ?_)
      · rintro ⟨⟩ log hlog
        split at hlog <;> cases hlog
        exact .update_at ⟨rfl, rfl, prefix_rfl, by simp, fun _ => rfl, nofun⟩
      · rintro ⟨⟩ log hlog
        split at hlog <;> cases hlog
        exact .inr ⟨rfl, rfl⟩
    · rintro ⟨⟩ log hlog
      cases hlog
      exact .inl rfl
  have h := hpost plan self rfl
  rcases hrun : openLog limit plan self with ⟨o, rest, log⟩
  rw [hrun] at h
  refine ⟨o, rest, log, rfl, ?_⟩
  cases o with
  | done u => exact .inl ⟨rfl, h⟩
  | failed e => exact .inr ⟨nofun, h⟩
  | stopped => exact .inr ⟨nofun, h⟩

end BoundedLog

/-! ## Whole runs -/

namespace Session

variable {s : Session} {limit : ℕ} {all file : List UInt8}

/-- The log of a process that still runs, or of one that has been killed. -/
structure Keeps (limit : ℕ) (all file : List UInt8) (s : Session) : Prop where
  left : s.log.Left limit all file
  inUse : s.running = true → s.log.Open limit all file

/-- A log that takes no more can be handed more. -/
lemma Keeps.extend (h : Keeps limit all file s)
    (hincomplete : s.running = true → s.log.incomplete = true) (more : List UInt8) :
    Keeps limit (all ++ more) file s where
  left := ⟨h.left.file_eq, h.left.marker, h.left.head.trans (prefix_append _ _),
    h.left.bounded⟩
  inUse hrunning := by
    have hopen := h.inUse hrunning
    refine ⟨hopen.file_eq, hopen.marker, hopen.head.trans (prefix_append _ _), hopen.room, ?_,
      hopen.closed⟩
    intro hcomplete
    rw [hincomplete hrunning] at hcomplete
    cases hcomplete

/-- The log takes no more. -/
def Closed (s : Session) : Prop := s.running = true → s.log.remaining = 0

/-- **The step**: `part` of what is written is put behind the log. -/
structure Step (s s' : Session) (w : Write) (part : List UInt8) : Prop where
  closed : s.Closed → part = [] ∧ s'.Closed
  lost : w.fate = .pass ∧ part = w.bytes ∨ s'.Closed
  record : s.running = true → w.fate = .pass →
    s'.running = true ∧ (w.wholeRecord = true → part = w.bytes ∨ part = [])

lemma Keeps.write (h : Keeps limit all file s) (w : Write) :
    ∃ part, Keeps limit (all ++ w.bytes) (file ++ part) (s.write w) ∧
      Step s (s.write w) w part := by
  by_cases hrunning : s.running = true
  · obtain ⟨part, o, rest, log, hrun, hlength, hcases⟩ :=
      (h.inUse hrunning).write w.bytes w.wholeRecord [w.fate]
    have hstep : s.write w = ⟨log, decide (o ≠ .stopped)⟩ := by
      rw [Session.write, perform, if_pos hrunning, hrun]
      cases o <;> rfl
    rw [hstep]
    have hempty : s.Closed → part = [] := by
      intro hclosed
      rw [hclosed hrunning, Nat.le_zero] at hlength
      exact length_eq_zero_iff.mp hlength
    refine ⟨part, ?_⟩
    rcases hcases with ⟨rfl, hfate, hleft⟩ | ⟨hne, hopen, hle, hpart⟩
    · have hkilled : (⟨log, false⟩ : Session).Closed := nofun
      exact ⟨⟨hleft, nofun⟩, fun hclosed => ⟨hempty hclosed, hkilled⟩, .inr hkilled,
        fun _ hpass => (hfate hpass).elim⟩
    · rw [decide_eq_true hne]
      refine ⟨⟨hopen.left, fun _ => hopen⟩, fun hclosed => ⟨hempty hclosed, fun _ => ?_⟩, ?_,
        fun _ hpass => ⟨rfl, fun hwhole => ?_⟩⟩
      · have hzero := hclosed hrunning
        exact Nat.le_zero.mp (hzero ▸ hle)
      · exact hpart.imp id fun hfull _ => hfull.1
      · exact hpart.imp And.right fun hfull => hfull.2 hpass hwhole
  · have hstep : s.write w = s := by rw [Session.write, perform, if_neg hrunning]
    rw [hstep]
    have hkilled : s.Closed := fun hr => absurd hr hrunning
    refine ⟨[], ?_, fun _ => ⟨rfl, hkilled⟩, .inr hkilled, fun hr => absurd hr hrunning⟩
    rw [append_nil]
    exact h.extend (fun hr => absurd hr hrunning) w.bytes

/-- **The run**: after any writes the log holds the beginning of what has been written. -/
lemma Keeps.run (h : Keeps limit all file s) (ws : List Write) :
    ∃ file', Keeps limit (all ++ written ws) file' (run .write s ws) := by
  induction ws generalizing s all file with
  | nil => exact ⟨file, by simpa [written] using h⟩
  | cons w ws ih =>
    obtain ⟨part, hkeeps, -⟩ := h.write w
    obtain ⟨file', hrun⟩ := ih hkeeps
    exact ⟨file', by simpa [written] using hrun⟩

/-- A log that takes no more stays as it is. -/
lemma Keeps.run_closed (h : Keeps limit all file s) (hclosed : s.Closed) (ws : List Write) :
    (Transition.run .write s ws).log.file = s.log.file := by
  induction ws generalizing s all file with
  | nil => rfl
  | cons w ws ih =>
    obtain ⟨part, hkeeps, hstep⟩ := h.write w
    obtain ⟨rfl, hclosed'⟩ := hstep.closed hclosed
    rw [run_cons, ih hkeeps hclosed', hkeeps.left.file_eq, h.left.file_eq, append_nil]

/-- What has lost something takes no more. -/
lemma Keeps.closed_of_loses {w : Write} (h : Keeps limit all file s) (hloses : s.Loses w) :
    (s.write w).Closed := by
  obtain ⟨part, hkeeps, hstep⟩ := h.write w
  rcases hstep.lost with ⟨hpass, rfl⟩ | hclosed
  · rcases hloses with hfate | hfile
    · exact absurd hpass hfate
    · refine absurd ?_ hfile
      rw [hkeeps.left.file_eq, h.left.file_eq]
      rfl
  · exact hclosed

/-- Records that are written undisturbed are in the log as a whole. -/
lemma Keeps.run_records (h : Keeps limit [] [] s) (hrunning : s.running = true) {ws : List Write}
    (hws : ∀ w ∈ ws, w.wholeRecord = true ∧ w.fate = .pass) :
    (Transition.run Session.write s ws).running = true ∧
      ∃ k, Keeps limit (written ws) (written (ws.take k)) (Transition.run Session.write s ws) := by
  induction ws using List.reverseRecOn with
  | nil => exact ⟨hrunning, 0, h⟩
  | append_singleton ws w ih =>
    obtain ⟨hrunning', k, hkeeps⟩ := ih fun w' hw' => hws w' (by simp [hw'])
    obtain ⟨hwhole, hpass⟩ := hws w (by simp)
    obtain ⟨part, hkeeps', hstep⟩ := hkeeps.write w
    obtain ⟨hstill, hpart⟩ := hstep.record hrunning' hpass
    have hall : written ws ++ w.bytes = written (ws ++ [w]) := by simp [written]
    rw [run_append]
    rw [hall] at hkeeps'
    refine ⟨hstill, ?_⟩
    -- a log that is incomplete takes no more; in the other case it holds all before `w`
    cases hincomplete : (Transition.run Session.write s ws).log.incomplete with
    | true =>
      have hzero := (hkeeps.inUse hrunning').closed hincomplete
      obtain ⟨rfl, -⟩ := hstep.closed fun _ => hzero
      refine ⟨min k ws.length, ?_⟩
      rw [append_nil] at hkeeps'
      rwa [take_append_of_le_length (min_le_right _ _), ← take_take, take_length]
    | false =>
      have hfile := (hkeeps.inUse hrunning').complete hincomplete
      rw [hfile] at hkeeps'
      rcases hpart hwhole with rfl | rfl
      · refine ⟨(ws ++ [w]).length, ?_⟩
        rw [take_length]
        rwa [hall] at hkeeps'
      · refine ⟨ws.length, ?_⟩
        rw [take_left]
        rwa [append_nil] at hkeeps'

/-- Finishing leaves the log as it is, and takes the marker only from a log that holds all. -/
lemma Keeps.finish (h : Keeps limit all file s) (plan : List Fate) :
    (s.finish plan).log.file = some file ∧
      ((s.finish plan).log.marker = false → file = all) := by
  by_cases hrunning : s.running = true
  · obtain ⟨o, rest, log, hrun, hfile, hmarker⟩ := @BoundedLog.finish_cases s.log plan
    have hlog : (s.finish plan).log = log := by
      rw [Session.finish, perform, if_pos hrunning, hrun]
      cases o <;> rfl
    rw [hlog]
    refine ⟨hfile.trans h.left.file_eq, fun hgone => ?_⟩
    rcases hmarker with hsame | hcomplete
    · rw [hsame, h.left.marker] at hgone
      cases hgone
    · exact (h.inUse hrunning).complete hcomplete
  · have hstep : s.finish plan = s := by rw [Session.finish, perform, if_neg hrunning]
    rw [hstep]
    refine ⟨h.left.file_eq, fun hgone => ?_⟩
    rw [h.left.marker] at hgone
    cases hgone

/-- **An honest log**, of the process that starts as `start` and makes the writes `ws`. -/
structure Honest (limit : ℕ) (start : Session) (ws : List Write) : Prop where
  /-- The log is the beginning of what has been written, within the limit. -/
  bounded : ∃ file, (run .write start ws).log.file = some file ∧
    file <+: written ws ∧ file.length ≤ limit
  /-- It consists of whole records, if only those are written and no write is disturbed. -/
  records : (∀ w ∈ ws, w.wholeRecord = true ∧ w.fate = .pass) →
    ∃ k, (run .write start ws).log.file = some (written (ws.take k))
  /-- Nothing is added once something has been lost. -/
  silent : ∀ before w after, ws = before ++ w :: after →
    (run .write start before).Loses w →
    (run .write start ws).log.file = (run .write start (before ++ [w])).log.file
  /-- Finishing does not change it, and where no marker is left it is all that was written. -/
  finished : ∀ plan,
    ((run .write start ws).finish plan).log.file =
      (run .write start ws).log.file ∧
    (((run .write start ws).finish plan).log.marker = false →
      ((run .write start ws).finish plan).log.file = some (written ws))

lemma Keeps.honest (h : Keeps limit [] [] s) (hrunning : s.running = true) (ws : List Write) :
    Honest limit s ws where
  bounded := by
    obtain ⟨file, hkeeps⟩ := h.run ws
    exact ⟨file, hkeeps.left.file_eq, hkeeps.left.head, hkeeps.left.bounded⟩
  records hws := by
    obtain ⟨-, k, hkeeps⟩ := h.run_records hrunning hws
    exact ⟨k, hkeeps.left.file_eq⟩
  silent before w after hws hloses := by
    obtain ⟨file, hkeeps⟩ := h.run before
    obtain ⟨part, hkeeps', -⟩ := hkeeps.write w
    have hclosed := hkeeps.closed_of_loses hloses
    rw [hws, ← singleton_append, ← append_assoc, run_append _ (before ++ [w])]
    rw [run_append]
    exact hkeeps'.run_closed hclosed after
  finished plan := by
    obtain ⟨file, hkeeps⟩ := h.run ws
    obtain ⟨hfile, hcomplete⟩ := hkeeps.finish plan
    refine ⟨hfile.trans hkeeps.left.file_eq.symm, fun hgone => ?_⟩
    rw [hfile, hcomplete hgone, nil_append]

end Session

/-- What is found of a stream that has been copied: the beginning of what was read, and all of it if
    there is no marker. -/
def Copied (limit : ℕ) (all : List UInt8) (log : BoundedLog) : Prop :=
  ∃ file, log.file = some file ∧ file <+: all ∧ file.length ≤ limit ∧
    (log.marker = false → file = all)

namespace BoundedLog

variable {limit : ℕ} {all file : List UInt8} {log : BoundedLog}

lemma Left.copied (h : Left limit all file log) (more : List UInt8) :
    Copied limit (all ++ more) log := by
  refine ⟨file, h.file_eq, h.head.trans (prefix_append _ _), h.bounded, fun hgone => ?_⟩
  rw [h.marker] at hgone
  cases hgone

lemma Open.finish_copied (h : Open limit all file log) :
    Triple (· = log) finish (fun _ => Copied limit all) (fun _ => Copied limit all)
      (Copied limit all) := by
  rintro plan start rfl
  obtain ⟨o, rest, log', hrun, hfile, hmarker⟩ := @finish_cases start plan
  have hcopied : Copied limit all log' := by
    refine ⟨file, hfile.trans h.file_eq, h.head, h.left.bounded, fun hgone => ?_⟩
    rcases hmarker with hsame | hcomplete
    · rw [hsame, h.marker] at hgone
      cases hgone
    · exact h.complete hcomplete
  rw [hrun]
  cases o <;> exact hcopied

/-- **The copying thread**, wherever it ends. -/
lemma Open.pump_copied (turns : List Turn) : ∀ {all file log}, Open limit all file log →
    Triple (· = log) (pump turns) (fun _ => Copied limit (all ++ received turns))
      (fun _ => Copied limit (all ++ received turns)) (Copied limit (all ++ received turns)) := by
  induction turns with
  | nil =>
    intro all file log h
    exact Triple.pure_at (h.left.copied _)
  | cons turn rest ih =>
    intro all file log h
    obtain ⟨stopping, expired, read, stoppingAfter⟩ := turn
    by_cases hstop : (stopping && expired) = true
    · simp only [pump, received, if_pos hstop]
      exact .pure_at (h.left.copied _)
    simp only [pump, received, if_neg hstop]
    cases read with
    | eof =>
      rw [append_nil]
      exact Triple.ignore_at h.finish_copied
    | data bytes =>
      rw [← append_assoc]
      refine .bind_at (.ignore_at ?_)
      rintro plan _ rfl
      obtain ⟨part, o, plan', log', hrun, -, hcases⟩ := h.write bytes false plan
      rw [hrun]
      rcases hcases with ⟨rfl, -, hleft⟩ | ⟨hne, hopen, -⟩
      · exact hleft.copied _
      · cases o with
        | done u => exact ih hopen
        | failed e => exact ih hopen
        | stopped => exact absurd rfl hne
    | interrupted => exact ih h
    | timedOut =>
      split_ifs
      · exact .pure_at (h.left.copied _)
      · exact ih h
    | failed => exact .pure_at (h.left.copied _)

end BoundedLog

/-- **Bounded logs are honest.**  Once a log has been opened, whatever is written to it and
    whichever calls fail or are where the process is killed, what is found on disk is the beginning
    of what was written and tells whether it is all; also for a stream that is copied.  A log that
    could not be opened is not there, or empty and marked. -/
theorem bounded_log_honest (limit : ℕ) (before : BoundedLog) (plan : List Fate) :
    match BoundedLog.openLog limit plan before with
    | (.done (), _, log) =>
      (∀ ws, Session.Honest limit ⟨log, true⟩ ws) ∧
      ∀ turns plan', Copied limit (received turns) (pump turns plan' log).2.2
    | (_, _, log) => log.file = before.file ∨ log.file = some [] ∧ log.marker = true := by
  obtain ⟨o, rest, log, hrun, hcases⟩ := @BoundedLog.openLog_cases before limit plan
  rw [hrun]
  rcases hcases with ⟨rfl, hopen⟩ | ⟨hne, hleft⟩
  · have hkeeps : Session.Keeps limit [] [] ⟨log, true⟩ := ⟨hopen.left, fun _ => hopen⟩
    refine ⟨fun ws => hkeeps.honest rfl ws, fun turns plan' => ?_⟩
    have h := hopen.pump_copied turns plan' log rfl
    rcases hpump : pump turns plan' log with ⟨o, rest', log'⟩
    rw [hpump] at h
    cases o <;> exact h
  · cases o with
    | done u => exact absurd rfl hne
    | failed e => exact hleft
    | stopped => exact hleft

end Rauha.Output
