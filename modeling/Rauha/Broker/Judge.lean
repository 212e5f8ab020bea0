import Rauha.Broker.Decisions
import Rauha.Broker.PathReading

/-!
# From a notification to its answer

`judge` takes a suspended call through pinning, reading, classification and the open, with an early
denial at each; `respond` injects the descriptor, answers the call and records the decision.

**One answer, one record** (`answer_matches_record`): the two always tell the same story.

**The directory argument** is an `int` for the kernel and a 64-bit register for the broker.
`dirfd_register_iff` says for which registers that makes no difference.

**The flags** of the caller reach the open through the grant, and one of them does not
(`granted_flags_iff`).
-/

namespace Rauha.Broker

def eSrch : Int32 := 3
def eFault : Int32 := 14

def Arch.nativeArch : Arch → UInt32
  | X86_64 => 0xC000003E
  | Aarch64 => 0xC00000B7

def Arch.nrOpenat : Arch → Int64
  | X86_64 => 257
  | Aarch64 => 56

def nrOpenat2 : Int64 := 437

def brokeredSyscallName (arch : Arch) (nr : Int64) : Option String :=
  if nr = arch.nrOpenat then some "openat" else if nr = nrOpenat2 then some "openat2" else none

structure SeccompNotif where
  id : UInt64
  pid : UInt32
  nr : Int32
  arch : UInt32
  args : Fin 6 → UInt64

/-- **What the broker meets** when it makes its calls.  The error of a call that fails is a positive
    number. -/
structure Target extends Answers where
  pins : Except Int32 Unit
  idValid : Bool
  /-- The bytes of the task that can be read, and how many of them a read delivers. -/
  memory : UInt64 → Option UInt8
  schedule : ℕ → ℕ
  readOpenHow : UInt64 → Option OpenHow
  addfd : Except Int32 Int32
  errorText : Int32 → String
  pins_pos : ∀ e, pins = .error e → 0 < e
  base_pos : ∀ b e, base b = .error e → 0 < e
  openat2_pos : ∀ r e, openat2 r = .error e → 0 < e
  addfd_pos : ∀ e, addfd = .error e → 0 < e

/-- The path at an address, read into a new buffer. -/
def Target.readPath (t : Target) (ptr : UInt64) : PathRead :=
  ((readPathInto t.memory ptr t.schedule []).get (readPathInto_isSome ..)).result

section

variable (arch : Arch) (t : Target)

/-- The classification of a call whose path has been read. -/
def classify (n : SeccompNotif) (syscall : String) (path : List UInt8) : Except Denial Grant :=
  let dirfd := (n.args 0).toInt64
  match syscall with
  | "openat" => classifyOpenat arch dirfd (n.args 2).toUInt32 path
  | "openat2" =>
    match t.readOpenHow (n.args 2) with
    | some how => classifyOpenat2 arch dirfd (n.args 3) how path
    | none => .error (.kernel eFault "unreadable open_how")
  | _ => .error (.policy "not brokerable (policy/shim mismatch)")

/-- What `judge` finds out before it opens anything: a verdict, or the call with its path and
    grant. -/
def consider (n : SeccompNotif) : Except Verdict (String × List UInt8 × Grant) :=
  match brokeredSyscallName arch n.nr.toInt64 with
  | none => .error (.deny "unknown" n.pid 0 ePerm "not brokerable (policy/shim mismatch)")
  | some syscall =>
    if n.arch ≠ arch.nativeArch then .error (.deny syscall n.pid 0 ePerm "non-native arch")
    else
      match t.pins with
      | .error errno => .error (.deny syscall n.pid 0 errno "task pins")
      | .ok () =>
        if !t.idValid then .error (.deny syscall n.pid 0 eSrch "notification expired")
        else
          match t.readPath (n.args 1) with
          | .TooLong => .error (.deny syscall n.pid 0 eNametoolong "path too long")
          | .Unreadable => .error (.deny syscall n.pid 0 eFault "unreadable path")
          | .Found path =>
            match classify arch t n syscall path with
            | .ok grant => .ok (syscall, path, grant)
            | .error d => .error (.deny syscall n.pid path.length d.errno d.reason)

def Target.judge (n : SeccompNotif) : Verdict :=
  match consider arch t n with
  | .error verdict => verdict
  | .ok (syscall, path, grant) => openForTarget arch t.toAnswers n.pid syscall grant path

structure SeccompNotifResp where
  id : UInt64
  val : Int64
  error : Int32

/-- The descriptor that was injected, the response, and what goes into the log. -/
structure Answered where
  injected : Option Int32
  resp : SeccompNotifResp
  decision : Decisions.Decision

def respond (n : SeccompNotif) (tsMs : UInt64) (verdict : Verdict) (path : List UInt8) : Answered :=
  let refuse (errno : Int32) (reason : String) : Answered :=
    ⟨none, ⟨n.id, 0, -errno⟩, tsMs, n.id, verdict.syscall, verdict.tid, path, errno, some reason⟩
  match verdict.decision with
  | .Deny errno reason => refuse errno reason
  | .InjectFd _ =>
    match t.addfd with
    | .error errno => refuse errno ("addfd: " ++ t.errorText errno)
    | .ok fd =>
      ⟨some fd, ⟨n.id, fd.toInt64, 0⟩, tsMs, n.id, verdict.syscall, verdict.tid, path, 0, none⟩

/-- One round of `judge_loop`.  A judge that panics denies the call; `scratch` is what is in the
    path buffer by then. -/
def answer (n : SeccompNotif) (tsMs : UInt64) (panicked : Option String) (scratch : List UInt8) :
    Answered :=
  let verdict :=
    match panicked with
    | some reason => .deny "unknown" 0 0 ePerm ("judge panicked: " ++ reason)
    | none => t.judge arch n
  respond t n tsMs verdict (scratch.take verdict.pathLen)

end

/-! ## One answer, one record -/

section

variable {arch : Arch} {t : Target} {n : SeccompNotif}

/-- The error of a denial is a positive number. -/
def Verdict.Positive (v : Verdict) : Prop :=
  ∀ errno reason, v.decision = .Deny errno reason → 0 < errno

variable {syscall : String}

lemma positive_deny {reason : String} {tid : UInt32} {pathLen : ℕ} {errno : Int32} (h : 0 < errno) :
    (Verdict.deny syscall tid pathLen errno reason).Positive := by
  intro errno' reason' heq
  cases heq
  exact h

variable {d : Denial}

lemma checkOpenFlags_pos {flags : UInt32} (h : checkOpenFlags arch flags = .error d) :
    0 < d.errno := by
  have hperm : 0 < ePerm := by decide
  unfold checkOpenFlags at h
  repeat' split at h
  all_goals cases h
  all_goals exact hperm

variable {path : List UInt8}

lemma checkPath_pos (h : checkPath path = .error d) : 0 < d.errno := by
  unfold checkPath at h
  split_ifs at h <;> cases h <;> decide

lemma classifyOpenat2_pos {dirfd : Int64} {size : UInt64} {how : OpenHow}
    (h : classifyOpenat2 arch dirfd size how path = .error d) : 0 < d.errno := by
  unfold classifyOpenat2 at h
  split_ifs at h
  all_goals first | (cases h; decide) | skip
  cases hflags : checkOpenFlags arch how.flags.toUInt32 with
  | error d' =>
    simp only [hflags, bind, Except.bind, Except.error.injEq] at h
    exact h ▸ checkOpenFlags_pos hflags
  | ok u =>
    cases hpath : checkPath path with
    | error d' =>
      simp only [hflags, hpath, bind, Except.bind, Except.error.injEq] at h
      exact h ▸ checkPath_pos hpath
    | ok u' =>
      simp only [hflags, hpath, bind, Except.bind, pure, Except.pure] at h
      split_ifs at h
      cases h
      decide

lemma classify_pos (h : classify arch t n syscall path = .error d) : 0 < d.errno := by
  unfold classify at h
  dsimp only at h
  split at h
  · rw [classifyOpenat_eq _ _ 0] at h
    exact classifyOpenat2_pos h
  · split at h
    · exact classifyOpenat2_pos h
    · cases h
      decide
  · cases h
    decide

lemma consider_pos {v : Verdict} (h : consider arch t n = .error v) : v.Positive := by
  unfold consider at h
  split at h
  · cases h
    exact positive_deny (by decide)
  · split at h
    · cases h
      exact positive_deny (by decide)
    · split at h
      · cases h
        exact positive_deny (t.pins_pos _ ‹_›)
      · split at h
        · cases h
          exact positive_deny (by decide)
        · split at h
          · cases h
            exact positive_deny (by decide)
          · cases h
            exact positive_deny (by decide)
          · split at h
            · cases h
            · cases h
              exact positive_deny (classify_pos ‹_›)

lemma judge_pos : (t.judge arch n).Positive := by
  unfold Target.judge
  split
  · exact consider_pos ‹_›
  · unfold openForTarget
    dsimp only
    split
    · rename_i errno hbase
      split_ifs at hbase
      exact positive_deny (t.base_pos _ _ hbase)
    · split_ifs
      · exact positive_deny (by decide)
      · split
        · exact positive_deny (t.openat2_pos _ _ ‹_›)
        · nofun

/-- The log can take the record of a decision, and the call that writes it comes off. -/
structure Writable (J : JsonFormat Evidence.readerDepth) (log : Decisions.DecisionLog)
    (d : Decisions.Decision) : Prop where
  running : log.session.running = true
  file : log.file = true
  enabled : log.disabled = false
  fits : (Utf8.encode ((d.toRecord (log.seq + 1)).text J)).length ≤ log.session.log.remaining

/-- A log that takes a record grows by its line. -/
lemma record_file {J : JsonFormat Evidence.readerDepth} {log : Decisions.DecisionLog}
    {d : Decisions.Decision} (h : Writable J log d) :
    (log.record J d .pass).session.log.file =
      log.session.log.file.map (· ++ Utf8.encode ((d.toRecord (log.seq + 1)).text J)) := by
  have hcount : log.session.log.count (Utf8.encode ((d.toRecord (log.seq + 1)).text J)) true =
      (Utf8.encode ((d.toRecord (log.seq + 1)).text J)).length := by
    rw [Output.BoundedLog.count, if_neg (by simp [Output.BoundedLog.drops, h.fits])]
    exact min_eq_left h.fits
  simp [Decisions.DecisionLog.record, h.running, h.file, h.enabled, Output.Session.write,
    Output.Session.perform, Output.BoundedLog.write_eq, hcount]

/-- **Answers match records.**  Either a descriptor was injected and the response names it, or none
    was and the response is an error; the record of the decision says the same, and it is the one
    line by which a log grows that can take it. -/
theorem answer_matches_record (arch : Arch) (t : Target) (n : SeccompNotif) (tsMs : UInt64)
    (panicked : Option String) (scratch : List UInt8) :
    let a := answer arch t n tsMs panicked scratch
    (∀ seq, (∃ fd, a.injected = some fd ∧ a.resp = ⟨n.id, fd.toInt64, 0⟩ ∧
        (a.decision.toRecord seq).decision = "granted" ∧ (a.decision.toRecord seq).errno = 0) ∨
      ∃ errno, 0 < errno ∧ a.injected = none ∧ a.resp = ⟨n.id, 0, -errno⟩ ∧
        (a.decision.toRecord seq).decision = "denied" ∧
        (a.decision.toRecord seq).errno = errno) ∧
    ∀ J log, Writable J log a.decision → (log.record J a.decision .pass).session.log.file =
      log.session.log.file.map (· ++ Utf8.encode ((a.decision.toRecord (log.seq + 1)).text J)) := by
  refine ⟨fun seq => ?_, fun J log h => record_file h⟩
  have hpos : (match panicked with
      | some reason => .deny "unknown" 0 0 ePerm ("judge panicked: " ++ reason)
      | none => t.judge arch n : Verdict).Positive := by
    split
    · exact positive_deny (by decide)
    · exact judge_pos
  unfold answer respond
  dsimp only
  split
  · exact Or.inr ⟨_, hpos _ _ ‹_›, rfl, rfl, rfl, rfl⟩
  · split
    · exact Or.inr ⟨_, t.addfd_pos _ ‹_›, rfl, rfl, rfl, rfl⟩
    · exact Or.inl ⟨_, rfl, rfl, rfl, rfl⟩

/-- A task whose calls come off, with the path `a` in its memory. -/
def calm : Target where
  base _ := .ok ()
  openat2 _ := .ok ()
  pins := .ok ()
  idValid := true
  memory ptr := if ptr = 0 then some 0x61 else some 0
  schedule _ := 1
  readOpenHow _ := none
  addfd := .ok 5
  errorText _ := ""
  pins_pos := nofun
  base_pos := nofun
  openat2_pos := nofun
  addfd_pos := nofun

/-- An `openat` with the directory `dirfd` and the flags `flags`. -/
def openatNotif (dirfd flags : UInt64) : SeccompNotif :=
  ⟨1, 7, 257, 0xC000003E, ![dirfd, 0, flags, 0, 0, 0]⟩

/-- An open that is granted, in a log with room for its record. -/
theorem answer_matches_record_granted :
    let a := answer .X86_64 calm (openatNotif 3 0) 0 none [0x61]
    let bytes := Utf8.encode ((a.decision.toRecord 1).text Evidence.sampleFormat)
    let log : Decisions.DecisionLog :=
      ⟨⟨⟨some [], true, bytes.length, false⟩, true⟩, true, 0, false⟩
    a.injected = some 5 ∧ (log.record Evidence.sampleFormat a.decision .pass).session.log.file =
      some ([] ++ bytes) :=
  ⟨by decide, (answer_matches_record .X86_64 calm (openatNotif 3 0) 0 none [0x61]).2 _ _
    ⟨rfl, rfl, rfl, le_refl _⟩⟩

/-! ## The directory argument -/

/-- The same grant for another directory argument. -/
def Grant.redirect (dirfd : Int64) (g : Grant) : Grant :=
  { g with anchored := if g.anchored = .TaskRoot then .TaskRoot else .TaskDir dirfd }

lemma classifyOpenat2_redirect (dirfd dirfd' : Int64) (size : UInt64) (how : OpenHow)
    (path : List UInt8) : classifyOpenat2 arch dirfd' size how path =
      (classifyOpenat2 arch dirfd size how path).map (Grant.redirect dirfd') := by
  unfold classifyOpenat2
  split_ifs
  case neg =>
    cases hflags : checkOpenFlags arch how.flags.toUInt32 with
    | error d => simp [hflags, bind, Except.bind, Except.map]
    | ok u =>
      cases checkPath path with
      | error d => simp [hflags, bind, Except.bind, Except.map]
      | ok u' =>
        by_cases hbeneath : how.resolve &&& resolveBeneath = 0 <;>
          cases isAbsolute path <;> simp [hflags, bind, Except.bind, pure, Except.pure,
            Except.map, Grant.redirect, hbeneath]
  all_goals rfl

/-- The notification with another directory register. -/
def SeccompNotif.withDir (n : SeccompNotif) (register : UInt64) : SeccompNotif :=
  { n with args := Function.update n.args 0 register }

lemma classify_withDir (register : UInt64) (syscall : String) (path : List UInt8) :
    classify arch t (n.withDir register) syscall path =
      (classify arch t n syscall path).map (.redirect register.toInt64) := by
  unfold classify
  dsimp only
  split
  · rw [classifyOpenat_eq _ _ 0, classifyOpenat_eq _ _ 0]
    exact classifyOpenat2_redirect _ _ _ _ _
  · rw [show (n.withDir register).args 2 = n.args 2 from rfl]
    cases t.readOpenHow (n.args 2) with
    | none => rfl
    | some how => exact classifyOpenat2_redirect _ _ _ _ _
  · rfl

lemma consider_withDir (register : UInt64) : consider arch t (n.withDir register) =
    (consider arch t n).map fun x => (x.1, x.2.1, x.2.2.redirect register.toInt64) := by
  have hsame : (n.withDir register).args 1 = n.args 1 ∧ (n.withDir register).pid = n.pid :=
    ⟨rfl, rfl⟩
  unfold consider
  rw [show (n.withDir register).nr = n.nr from rfl]
  cases brokeredSyscallName arch n.nr.toInt64 with
  | none => rfl
  | some syscall =>
    simp only [hsame, classify_withDir, show (n.withDir register).arch = n.arch from rfl]
    split_ifs
    · rfl
    · cases t.pins with
      | error e => rfl
      | ok u => rfl
    · cases t.pins with
      | error e => rfl
      | ok u =>
        cases t.readPath (n.args 1) with
        | TooLong => rfl
        | Unreadable => rfl
        | Found path =>
          simp only
          cases classify arch t n syscall path <;> rfl

/-- The descriptor from which the open that is granted sets out. -/
def anchorOf (arch : Arch) (t : Target) (n : SeccompNotif) : Option Base :=
  (consider arch t n).toOption.map fun x => x.2.2.anchored.base n.pid

variable {g : Grant}

/-- The grant of a relative path is for the directory argument. -/
lemma classify_anchor (h : classify arch t n syscall path = .ok g) :
    g.anchored = if isAbsolute path then .TaskRoot else .TaskDir (n.args 0).toInt64 := by
  unfold classify at h
  dsimp only at h
  split at h
  · rw [classifyOpenat_eq _ _ 0] at h
    rw [(classifyOpenat2_ok h).grantIs]
  · split at h
    · rw [(classifyOpenat2_ok h).grantIs]
    · cases h
  · cases h

lemma consider_ok (h : consider arch t n = .ok (syscall, path, g)) :
    classify arch t n syscall path = .ok g := by
  unfold consider at h
  repeat' split at h
  all_goals cases h
  assumption

/-- **Two registers that agree in their low halves** are judged alike exactly if the call is denied
    before its directory matters, or its path is absolute, or both of them are `AT_FDCWD` in all 64
    bits or neither is. -/
theorem dirfd_register_iff (arch : Arch) (t : Target) (n : SeccompNotif) (register : UInt64)
    (hlow : register.toUInt32 = (n.args 0).toUInt32) :
    (t.judge arch (n.withDir register) = t.judge arch n ∧
      anchorOf arch t (n.withDir register) = anchorOf arch t n) ↔
    ∀ syscall path grant, consider arch t n = .ok (syscall, path, grant) →
      isAbsolute path = false → (register.toInt64 = atFdcwd ↔ (n.args 0).toInt64 = atFdcwd) := by
  unfold Target.judge anchorOf
  rw [consider_withDir, show (n.withDir register).pid = n.pid from rfl]
  cases hc : consider arch t n with
  | error v => simp [Except.map, Except.toOption]
  | ok x =>
    obtain ⟨syscall, path, g⟩ := x
    have hanchor := classify_anchor (consider_ok hc)
    have hsame : (g.redirect register.toInt64).anchored.base n.pid = g.anchored.base n.pid ↔
        (isAbsolute path = false →
          (register.toInt64 = atFdcwd ↔ (n.args 0).toInt64 = atFdcwd)) := by
      simp only [Grant.redirect, hanchor]
      cases isAbsolute path with
      | true => simp
      | false =>
        simp only [Bool.false_eq_true, if_false, reduceCtorEq, Anchor.base, forall_const]
        split_ifs <;> simp_all
    have hopen : (g.redirect register.toInt64).anchored.base n.pid = g.anchored.base n.pid →
        openForTarget arch t.toAnswers n.pid syscall (g.redirect register.toInt64) path =
          openForTarget arch t.toAnswers n.pid syscall g path := by
      intro hbase
      unfold openForTarget Grant.request
      rw [hbase]
      rfl
    constructor
    · rintro ⟨-, hbase⟩ syscall' path' grant' ⟨⟩
      exact hsame.mp (Option.some.inj hbase)
    · intro h
      have hbase := hsame.mpr (h syscall path g rfl)
      exact ⟨hopen hbase, congrArg some hbase⟩

/-- The registers of a caller that sign-extends its argument, and of one that does not. -/
theorem dirfd_register_five :
    let n := openatNotif 5 0
    calm.judge .X86_64 (n.withDir 0xffffffff00000005) = calm.judge .X86_64 n ∧
      anchorOf .X86_64 calm (n.withDir 0xffffffff00000005) = anchorOf .X86_64 calm n :=
  (dirfd_register_iff .X86_64 calm (openatNotif 5 0) 0xffffffff00000005 (by decide)).mpr
    fun _ _ _ _ _ => by decide

/-- The working directory, without the sign: the broker asks the task for descriptor 4294967196. -/
theorem dirfd_zero_extended :
    anchorOf .X86_64 calm (openatNotif 0xffffffffffffff9c 0) = some (.Cwd 7) ∧
      anchorOf .X86_64 calm (openatNotif 0xffffff9c 0) = some (.Borrowed 0xffffff9c) := by
  decide

/-! ## The flags -/

def Arch.oDirectory : Arch → UInt32
  | X86_64 => 0x10000
  | Aarch64 => 0x4000

/-- What a path leads to, and whether it goes through symbolic links or ends with one. -/
structure Object where
  directory : Bool
  terminal : Bool
  viaSymlink : Bool
  lastSymlink : Bool
  via_of_last : lastSymlink = true → viaSymlink = true

/-- An open descriptor, and whether its terminal has become the controlling one. -/
structure Opened where
  closeOnExec : Bool
  nonblock : Bool
  controlling : Bool

/-- **What the kernel makes of the flags** of an open, as they are documented. -/
def kernelOpen (arch : Arch) (flags : UInt32) (resolve : UInt64) (o : Object) : Option Opened :=
  if resolve &&& resolveNoSymlinks ≠ 0 ∧ o.viaSymlink = true then none
  else if flags &&& arch.oNofollow ≠ 0 ∧ o.lastSymlink = true then none
  else if flags &&& arch.oDirectory ≠ 0 ∧ o.directory = false then none
  else some {
    closeOnExec := flags &&& arch.oCloexec ≠ 0
    nonblock := flags &&& arch.oNonblock ≠ 0
    controlling := o.terminal && decide (flags &&& arch.oNoctty = 0) }

/-- A call with these flags and resolve bits has been granted. -/
def GrantedFor (arch : Arch) (flags : UInt32) (resolve : UInt64) (g : Grant) : Prop :=
  ∃ dirfd path, classifyOpenat arch dirfd flags path = .ok g ∧ resolve = 0 ∨
    ∃ size how, how.flags.toUInt32 = flags ∧ how.resolve = resolve ∧
      classifyOpenat2 arch dirfd size how path = .ok g

/-- **The caller is served** by a descriptor for `o` that the broker has opened: its own call would
    have opened `o` too, with the same descriptor flags, and the terminal is not taken if it asked
    for that. -/
def Serves (arch : Arch) (flags : UInt32) (resolve : UInt64) (o : Object) (g : Grant)
    (opened : Opened) : Prop :=
  ∃ own, kernelOpen arch flags resolve o = some own ∧ own.closeOnExec = g.cloexec ∧
    own.nonblock = opened.nonblock ∧ (flags &&& arch.oNoctty ≠ 0 → opened.controlling = false)

lemma and_ne_zero_of_restricted {a b m : UInt64} (h : a &&& ~~~b = 0) (ha : a &&& m ≠ 0) :
    b &&& m ≠ 0 := by
  intro hb
  rw [← and_eq_self_of_known h, UInt64.and_assoc, hb, UInt64.and_zero] at ha
  exact ha rfl

/-- The broker's own flags: `O_NONBLOCK` as in the grant, and always `O_NOCTTY`. -/
lemma request_mirrors (arch : Arch) (nonblock : Bool) :
    let flags := (arch.oRdonly ||| arch.oCloexec ||| arch.oNoctty |||
      if nonblock then arch.oNonblock else 0).toUInt64.toUInt32
    decide (flags &&& arch.oNonblock ≠ 0) = nonblock ∧
      decide (flags &&& arch.oNoctty = 0) = false := by
  cases arch <;> cases nonblock <;> decide

/-- **A granted open means what the caller asked** exactly if it did not ask for a directory, or got
    one. -/
theorem granted_flags_iff (arch : Arch) (tid : UInt32) (flags : UInt32) (resolve : UInt64)
    (path : List UInt8) (g : Grant) (o : Object) (opened : Opened)
    (hg : GrantedFor arch flags resolve g)
    (hopen : kernelOpen arch (g.request arch tid path).how.flags.toUInt32
      (g.request arch tid path).how.resolve o = some opened) :
    Serves arch flags resolve o g opened ↔
      (flags &&& arch.oDirectory ≠ 0 → o.directory = true) := by
  obtain ⟨how, path', dirfd, rfl, rfl, hok⟩ : ∃ how path' dirfd, how.flags.toUInt32 = flags ∧
      how.resolve = resolve ∧ Granted arch dirfd how path' g := by
    obtain ⟨dirfd, path', ⟨h, rfl⟩ | ⟨size, how, hf, hr, h⟩⟩ := hg
    · rw [classifyOpenat_eq _ _ 0] at h
      exact ⟨_, path', dirfd, by simp, rfl, classifyOpenat2_ok h⟩
    · exact ⟨how, path', dirfd, hf, hr, classifyOpenat2_ok h⟩
  have hconfined := hok.confined tid
  obtain ⟨hnonblock, hnoctty⟩ := request_mirrors arch g.nonblock
  have hcloexec : g.cloexec = decide (how.flags.toUInt32 &&& arch.oCloexec ≠ 0) := by
    rw [hok.grantIs]
  have hgrant : g.nonblock = decide (how.flags.toUInt32 &&& arch.oNonblock ≠ 0) := by
    rw [hok.grantIs]
  -- no link was followed that the caller did not want followed
  unfold kernelOpen at hopen
  split_ifs at hopen with hvia hlast hdir
  obtain rfl := Option.some.inj hopen
  have hnolink : how.resolve &&& resolveNoSymlinks ≠ 0 → o.viaSymlink = false := fun h =>
    by simpa using fun hv => hvia ⟨and_ne_zero_of_restricted hconfined.restricted h, hv⟩
  have hnolast : how.flags.toUInt32 &&& arch.oNofollow ≠ 0 → o.lastSymlink = false := fun h =>
    by simpa using fun hl => hvia ⟨hconfined.noFollow h, o.via_of_last hl⟩
  unfold Serves kernelOpen
  rw [if_neg (fun h => by simp [hnolink h.1] at h), if_neg (fun h => by simp [hnolast h.1] at h)]
  by_cases hdirectory : how.flags.toUInt32 &&& arch.oDirectory ≠ 0 ∧ o.directory = false
  · rw [if_pos hdirectory]
    simp [hdirectory]
  · rw [if_neg hdirectory]
    refine ⟨fun _ h => by simpa using fun hd => hdirectory ⟨h, hd⟩, fun _ =>
      ⟨_, rfl, hcloexec.symm, hgrant.symm.trans hnonblock.symm, fun _ => ?_⟩⟩
    exact Bool.and_eq_false_iff.mpr (.inr hnoctty)

/-- A directory, opened with `O_DIRECTORY | O_CLOEXEC`. -/
theorem granted_flags_directory :
    Serves .X86_64 0x90000 0 ⟨true, false, false, false, nofun⟩ ⟨.TaskDir 3, 0xa, true, false⟩
      ⟨true, false, false⟩ :=
  (granted_flags_iff .X86_64 7 0x90000 0 [0x61] ⟨.TaskDir 3, 0xa, true, false⟩
    ⟨true, false, false, false, nofun⟩ ⟨true, false, false⟩
    ⟨3, [0x61], .inl ⟨by decide, rfl⟩⟩ rfl).mpr fun _ => rfl

/-- A file that is no directory is opened for a caller that asked for one; its own call fails. -/
theorem directory_flag_dropped :
    let g : Grant := ⟨.TaskDir 3, 0xa, false, false⟩
    let o : Object := ⟨false, false, false, false, nofun⟩
    let how := (g.request .X86_64 7 [0x61]).how
    classifyOpenat .X86_64 3 0x10000 [0x61] = .ok g ∧
      (kernelOpen .X86_64 how.flags.toUInt32 how.resolve o).isSome = true ∧
      (kernelOpen .X86_64 0x10000 0 o).isSome = false := by
  decide

end

end Rauha.Broker
