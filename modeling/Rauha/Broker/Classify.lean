import Mathlib.Tactic

/-!
# Judging an open

A brokered `openat` or `openat2` is suspended until the broker has judged it.  The judgement is
pure: the classifiers look at the flag words and the bytes of the path and either deny the call with
an error number or hand out a `Grant`, from which `openForTarget` builds the one request that it
makes on the caller's behalf.

**Confinement.**  What the request may do is said once, in `Confined`, for both entry points.  The
resolve word of a request is the containment the broker chooses, the restrictions of the caller and
a ban on links; as the caller's word has only known bits (`lt_of_known`) the bits of the sum can be
looked at word by word (`resolve_word`).

**One judgement.**  `openat` is `openat2` with an empty resolve word (`classifyOpenat_eq`), so that
a statement about one of them is a statement about both.
-/

namespace Rauha.Broker

/-! ## The words -/

def resolveNoXdev : UInt64 := 0x1
def resolveNoMagiclinks : UInt64 := 0x2
def resolveNoSymlinks : UInt64 := 0x4
def resolveBeneath : UInt64 := 0x8
def resolveInRoot : UInt64 := 0x10
def resolveCtime : UInt64 := 0x20

def knownResolve : UInt64 :=
  resolveNoXdev ||| resolveNoMagiclinks ||| resolveNoSymlinks ||| resolveBeneath ||| resolveInRoot
    ||| resolveCtime

def openHowSize : UInt64 := 24

def maxPath : ℕ := 4096

structure OpenHow where
  flags : UInt64
  mode : UInt64
  resolve : UInt64
  deriving DecidableEq, Repr

/-- The architectures the shim is built for.  Some flags have another value on each. -/
inductive Arch where
  | X86_64
  | Aarch64
  deriving DecidableEq, Repr

namespace Arch

/-! An `i32` of flags is the word of its bits. -/

def oAccmode (_ : Arch) : UInt32 := 0x3
def oRdonly (_ : Arch) : UInt32 := 0x0
def oCreat (_ : Arch) : UInt32 := 0x40
def oNoctty (_ : Arch) : UInt32 := 0x100
def oTrunc (_ : Arch) : UInt32 := 0x200
def oNonblock (_ : Arch) : UInt32 := 0x800
def oCloexec (_ : Arch) : UInt32 := 0x80000
def oPath (_ : Arch) : UInt32 := 0x200000

def oDirect : Arch → UInt32
  | X86_64 => 0x4000
  | Aarch64 => 0x10000

def oNofollow : Arch → UInt32
  | X86_64 => 0x20000
  | Aarch64 => 0x8000

def oTmpfile : Arch → UInt32
  | X86_64 => 0x410000
  | Aarch64 => 0x404000

end Arch

def ePerm : Int32 := 1
def eNoent : Int32 := 2
def e2Big : Int32 := 7
def eXdev : Int32 := 18
def eInval : Int32 := 22
def eNametoolong : Int32 := 36

/-- `AT_FDCWD`: the directory argument that stands for the working directory. -/
def atFdcwd : Int64 := -100

/-! ## Classification -/

inductive Anchor where
  | TaskRoot
  | TaskDir (dirfd : Int64)
  deriving DecidableEq, Repr

structure Grant where
  anchored : Anchor
  resolve : UInt64
  cloexec : Bool
  nonblock : Bool
  deriving DecidableEq, Repr

structure Denial where
  errno : Int32
  reason : String
  deriving DecidableEq, Repr

def Denial.policy (reason : String) : Denial := ⟨ePerm, reason⟩

def Denial.kernel (errno : Int32) (reason : String) : Denial := ⟨errno, reason⟩

def callerRestrictions (resolve : UInt64) : UInt64 :=
  resolve &&& knownResolve &&& ~~~(resolveBeneath ||| resolveInRoot)

def resolveFlags (rooted noFollow : Bool) : UInt64 :=
  (if rooted then resolveInRoot else resolveBeneath) |||
    callerRestrictions (if noFollow then resolveNoSymlinks else resolveNoMagiclinks)

section

variable (arch : Arch)

/-- The flags of which any bit is refused, with the reason. -/
def refusedFlags : List (UInt32 × String) :=
  [(arch.oCreat, "O_CREAT"), (arch.oTrunc, "O_TRUNC"), (arch.oPath, "O_PATH"),
    (arch.oDirect, "O_DIRECT")]

def checkOpenFlags (flags : UInt32) : Except Denial Unit :=
  if flags &&& arch.oAccmode ≠ arch.oRdonly then .error (.policy "not read-only")
  -- `O_TMPFILE` contains `O_DIRECTORY`, so the whole mask is compared.
  else if flags &&& arch.oTmpfile = arch.oTmpfile then .error (.policy "O_TMPFILE")
  else
    match (refusedFlags arch).find? fun refused => flags &&& refused.1 ≠ 0 with
    | some (_, reason) => .error (.policy reason)
    | none => .ok ()

def checkPath (path : List UInt8) : Except Denial Unit :=
  if path = [] then .error (.kernel eNoent "empty path")
  else if maxPath ≤ path.length then .error (.kernel eNametoolong "path too long")
  else if 0 ∈ path then .error (.kernel eInval "NUL in path")
  else .ok ()

/-- `path[0] == b'/'`. -/
def isAbsolute (path : List UInt8) : Bool := path.head? = some 0x2f

def classifyOpenat (dirfd : Int64) (flags : UInt32) (path : List UInt8) : Except Denial Grant := do
  checkOpenFlags arch flags
  checkPath path
  let noFollow : Bool := flags &&& arch.oNofollow ≠ 0
  let absolute := isAbsolute path
  return {
    anchored := if absolute then .TaskRoot else .TaskDir dirfd
    resolve := resolveFlags absolute noFollow
    cloexec := flags &&& arch.oCloexec ≠ 0
    nonblock := flags &&& arch.oNonblock ≠ 0 }

def classifyOpenat2 (dirfd : Int64) (size : UInt64) (how : OpenHow) (path : List UInt8) :
    Except Denial Grant :=
  if openHowSize < size then .error (.kernel e2Big "oversized open_how")
  else if size < openHowSize then .error (.kernel eInval "undersized open_how")
  else if how.resolve &&& ~~~knownResolve ≠ 0 then .error (.kernel eInval "unknown resolve flags")
  else if how.resolve &&& (resolveBeneath ||| resolveInRoot) = resolveBeneath ||| resolveInRoot then
    .error (.kernel eInval "RESOLVE_BENEATH and RESOLVE_IN_ROOT are mutually exclusive")
  else if how.flags >>> 32 ≠ 0 then .error (.kernel eInval "unknown high flag bits")
  else do
    let flags := how.flags.toUInt32
    checkOpenFlags arch flags
    checkPath path
    let absolute := isAbsolute path
    let beneath : Bool := how.resolve &&& resolveBeneath ≠ 0
    let inRoot : Bool := how.resolve &&& resolveInRoot ≠ 0
    let restrictions := callerRestrictions how.resolve |||
      if flags &&& arch.oNofollow ≠ 0 then resolveNoSymlinks else resolveNoMagiclinks
    if absolute then
      if beneath then .error (.kernel eXdev "absolute path under RESOLVE_BENEATH")
      else
        return {
          anchored := .TaskRoot
          resolve := resolveInRoot ||| restrictions
          cloexec := flags &&& arch.oCloexec ≠ 0
          nonblock := flags &&& arch.oNonblock ≠ 0 }
    else
      let containment := if inRoot then resolveInRoot else resolveBeneath
      return {
        anchored := .TaskDir dirfd
        resolve := containment ||| restrictions
        cloexec := flags &&& arch.oCloexec ≠ 0
        nonblock := flags &&& arch.oNonblock ≠ 0 }

/-! ## The request -/

/-- The descriptor a request is made with: the root of the task, its working directory, or one
    borrowed from it by the low half of the directory argument. -/
inductive Base where
  | Root
  | Cwd (tid : UInt32)
  | Borrowed (fd : UInt32)
  deriving DecidableEq, Repr

/-- An `openat2` of the broker. -/
structure Request where
  base : Base
  path : List UInt8
  how : OpenHow
  deriving DecidableEq, Repr

def Anchor.base (tid : UInt32) : Anchor → Base
  | TaskRoot => .Root
  | TaskDir dirfd => if dirfd = atFdcwd then .Cwd tid else .Borrowed dirfd.toUInt64.toUInt32

/-- The request of a grant.  The sign bit of the flags is clear, so that they grow by zeros. -/
def Grant.request (tid : UInt32) (grant : Grant) (path : List UInt8) : Request where
  base := grant.anchored.base tid
  path := path
  how :=
    { flags := (arch.oRdonly ||| arch.oCloexec ||| arch.oNoctty |||
        if grant.nonblock then arch.oNonblock else 0).toUInt64
      mode := 0
      resolve := grant.resolve }

/-- The answers of the kernel, by what it is asked for: an error number or a descriptor. -/
structure Answers where
  base : Base → Except Int32 Unit
  openat2 : Request → Except Int32 Unit

inductive Decision where
  | InjectFd (cloexec : Bool)
  | Deny (errno : Int32) (reason : String)
  deriving DecidableEq, Repr

structure Verdict where
  syscall : String
  tid : UInt32
  pathLen : ℕ
  decision : Decision
  deriving DecidableEq, Repr

def Verdict.deny (syscall : String) (tid : UInt32) (pathLen : ℕ) (errno : Int32)
    (reason : String) : Verdict := ⟨syscall, tid, pathLen, .Deny errno reason⟩

/-- Why there is no base for a request. -/
def Base.missing : Base → String
  | Root => ""
  | Cwd _ => "no cwd fd"
  | Borrowed _ => "borrow dirfd"

def openForTarget (kernel : Answers) (tid : UInt32) (syscall : String) (grant : Grant)
    (path : List UInt8) : Verdict :=
  let base := grant.anchored.base tid
  -- The root of the task is pinned already: nothing is asked for it.
  match (if base = .Root then .ok () else kernel.base base) with
  | .error errno => .deny syscall tid path.length errno base.missing
  | .ok () =>
    if 0 ∈ path then .deny syscall tid path.length eInval "NUL in path"
    else
      match kernel.openat2 (grant.request arch tid path) with
      | .error errno => .deny syscall tid path.length errno "open failed"
      | .ok () => ⟨syscall, tid, path.length, .InjectFd grant.cloexec⟩

end

/-! ## What a granted call may do -/

/-- Magic links are refused by their own flag, and by the one that refuses all symbolic links. -/
def ForbidsMagicLinks (resolve : UInt64) : Prop :=
  resolve &&& (resolveNoMagiclinks ||| resolveNoSymlinks) ≠ 0

/-- **Confinement.**  What holds of the request that is made for a call with the flags `flags`, the
    resolve word `resolve`, and a directory and path. -/
structure Confined (arch : Arch) (tid : UInt32) (dirfd : Int64) (flags : UInt32) (resolve : UInt64)
    (path : List UInt8) (request : Request) : Prop where
  readOnly : request.how.flags &&& arch.oAccmode.toUInt64 = arch.oRdonly.toUInt64
  /-- No flag is set but those that concern the descriptor itself, and no file mode is given. -/
  effectFree : request.how.flags &&&
    ~~~(arch.oCloexec ||| arch.oNoctty ||| arch.oNonblock).toUInt64 = 0 ∧ request.how.mode = 0
  /-- Of the two containments it has exactly one. -/
  contained : request.how.resolve &&& (resolveInRoot ||| resolveBeneath) = resolveInRoot ∨
    request.how.resolve &&& (resolveInRoot ||| resolveBeneath) = resolveBeneath
  noMagicLinks : ForbidsMagicLinks request.how.resolve
  restricted : resolve &&& ~~~request.how.resolve = 0
  noFollow : flags &&& arch.oNofollow ≠ 0 → request.how.resolve &&& resolveNoSymlinks ≠ 0
  samePath : request.path = path
  absolute : isAbsolute path = true →
    request.base = .Root ∧ request.how.resolve &&& resolveInRoot ≠ 0
  relative : isAbsolute path = false → request.base = (Anchor.TaskDir dirfd).base tid

/-! ## Words of known bits -/

lemma and_eq_self_of_known {resolve known : UInt64} (h : resolve &&& ~~~known = 0) :
    resolve &&& known = resolve := by
  rw [← UInt64.toBitVec_inj] at h ⊢
  simp only [UInt64.toBitVec_and, UInt64.toBitVec_not, UInt64.toBitVec_zero] at h ⊢
  ext i hi
  have hbit := congrArg (fun word => word.getLsbD i) h
  simp only [BitVec.getLsbD_and, BitVec.getLsbD_not, BitVec.getLsbD_zero] at hbit
  simp only [BitVec.getElem_and]
  grind

lemma lt_of_known {resolve : UInt64} (h : resolve &&& ~~~knownResolve = 0) :
    resolve.toNat < 64 := by
  rw [← and_eq_self_of_known h, UInt64.toNat_and]
  exact lt_of_le_of_lt Nat.and_le_right (by decide)

/-- The resolve word of a request: its containment, the caller's word and the ban on links. -/
def resolveWord (rooted noFollow : Bool) (resolve : UInt64) : UInt64 :=
  (if rooted then resolveInRoot else resolveBeneath) |||
    (callerRestrictions resolve ||| if noFollow then resolveNoSymlinks else resolveNoMagiclinks)

/-- What is asked of the resolve word of a request, all of it decidable. -/
structure GoodWord (rooted noFollow : Bool) (resolve word : UInt64) : Prop where
  contained : word &&& (resolveInRoot ||| resolveBeneath) =
    if rooted then resolveInRoot else resolveBeneath
  inRoot : rooted = true → word &&& resolveInRoot ≠ 0
  noMagicLinks : ForbidsMagicLinks word
  restricted : resolve &&& ~~~word = 0
  noFollow : noFollow = true → word &&& resolveNoSymlinks ≠ 0

lemma resolve_word_below : ∀ (n : Fin 64) (rooted noFollow : Bool),
    ((UInt64.ofNat n) &&& (if rooted then resolveBeneath else resolveInRoot) = 0) →
      let word := resolveWord rooted noFollow (UInt64.ofNat n)
      (word &&& (resolveInRoot ||| resolveBeneath) =
          if rooted then resolveInRoot else resolveBeneath) ∧
        (rooted = true → word &&& resolveInRoot ≠ 0) ∧
        (word &&& (resolveNoMagiclinks ||| resolveNoSymlinks) ≠ 0) ∧
        (UInt64.ofNat n) &&& ~~~word = 0 ∧
        (noFollow = true → word &&& resolveNoSymlinks ≠ 0) := by
  decide +kernel

/-- **The words are good.**  The caller's word has no unknown bit and does not ask for the other
    containment. -/
lemma resolve_word {rooted : Bool} (noFollow : Bool) {resolve : UInt64}
    (hknown : resolve &&& ~~~knownResolve = 0)
    (hother : resolve &&& (if rooted then resolveBeneath else resolveInRoot) = 0) :
    GoodWord rooted noFollow resolve (resolveWord rooted noFollow resolve) := by
  have hfin := resolve_word_below ⟨resolve.toNat, lt_of_known hknown⟩ rooted noFollow
  simp only [UInt64.ofNat_toNat] at hfin
  obtain ⟨hcontained, hroot, hmagic, hrestricted, hfollow⟩ := hfin hother
  exact ⟨hcontained, hroot, hmagic, hrestricted, hfollow⟩

/-! ## Grants -/

section

variable {arch : Arch} {dirfd : Int64} {size : UInt64} {how : OpenHow} {path : List UInt8}
  {grant : Grant}

/-- A relative path is resolved in the caller's own root if it asks for that. -/
def isRooted (how : OpenHow) (path : List UInt8) : Bool :=
  isAbsolute path || decide (how.resolve &&& resolveInRoot ≠ 0)

/-- What is known of a granted `openat2`, and its grant. -/
structure Granted (arch : Arch) (dirfd : Int64) (how : OpenHow) (path : List UInt8)
    (grant : Grant) : Prop where
  known : how.resolve &&& ~~~knownResolve = 0
  other : how.resolve &&& (if isRooted how path then resolveBeneath else resolveInRoot) = 0
  flagsOk : checkOpenFlags arch how.flags.toUInt32 = .ok ()
  pathOk : checkPath path = .ok ()
  grantIs : grant = {
    anchored := if isAbsolute path then .TaskRoot else .TaskDir dirfd
    resolve := resolveWord (isRooted how path) (how.flags.toUInt32 &&& arch.oNofollow ≠ 0)
      how.resolve
    cloexec := how.flags.toUInt32 &&& arch.oCloexec ≠ 0
    nonblock := how.flags.toUInt32 &&& arch.oNonblock ≠ 0 }

/-- Two bits that are not both set. -/
lemma exclusive {resolve : UInt64} (hknown : resolve &&& ~~~knownResolve = 0)
    (hboth : resolve &&& (resolveBeneath ||| resolveInRoot) ≠ resolveBeneath ||| resolveInRoot)
    (hroot : resolve &&& resolveInRoot ≠ 0) : resolve &&& resolveBeneath = 0 := by
  have hfin : ∀ n : Fin 64,
      UInt64.ofNat n &&& (resolveBeneath ||| resolveInRoot) ≠ resolveBeneath ||| resolveInRoot →
      UInt64.ofNat n &&& resolveInRoot ≠ 0 → UInt64.ofNat n &&& resolveBeneath = 0 := by
    decide +kernel
  have h := hfin ⟨resolve.toNat, lt_of_known hknown⟩
  simp only [UInt64.ofNat_toNat] at h
  exact h hboth hroot

lemma classifyOpenat2_ok (h : classifyOpenat2 arch dirfd size how path = .ok grant) :
    Granted arch dirfd how path grant := by
  unfold classifyOpenat2 at h
  split_ifs at h with hover hunder hunknown hboth hhigh
  push Not at hunknown
  cases hflags : checkOpenFlags arch how.flags.toUInt32 with
  | error denial => simp [hflags, bind, Except.bind] at h
  | ok u =>
    cases hpath : checkPath path with
    | error denial => simp [hflags, hpath, bind, Except.bind] at h
    | ok u' =>
      simp only [hflags, hpath, bind, Except.bind, pure, Except.pure] at h
      cases habs : isAbsolute path with
      | true =>
        by_cases hbeneath : how.resolve &&& resolveBeneath = 0
        · simp only [habs, if_true, hbeneath, ne_eq, not_true_eq_false, decide_false,
            Bool.false_eq_true, if_false, Except.ok.injEq] at h
          refine ⟨hunknown, by simp [isRooted, habs, hbeneath], hflags, hpath, ?_⟩
          simp [← h, isRooted, habs, resolveWord]
        · simp [habs, hbeneath] at h
      | false =>
        simp only [habs, Bool.false_eq_true, if_false, Except.ok.injEq] at h
        refine ⟨hunknown, ?_, hflags, hpath, ?_⟩
        · by_cases hroot : how.resolve &&& resolveInRoot = 0
          · simp [isRooted, habs, hroot]
          · simpa [isRooted, habs, hroot] using exclusive hunknown hboth hroot
        · simp [← h, isRooted, habs, resolveWord]

lemma resolveFlags_eq : ∀ rooted noFollow : Bool,
    resolveFlags rooted noFollow = resolveWord rooted noFollow 0 := by
  decide

/-- **One judgement.**  An `openat` is judged as an `openat2` with the same flags and no resolve
    bits. -/
lemma classifyOpenat_eq (dirfd : Int64) (flags : UInt32) (mode : UInt64) (path : List UInt8) :
    classifyOpenat arch dirfd flags path =
      classifyOpenat2 arch dirfd openHowSize ⟨flags.toUInt64, mode, 0⟩ path := by
  have hhigh : flags.toUInt64 >>> 32 = 0 := by
    apply UInt64.toNat_inj.mp
    rw [UInt64.toNat_shiftRight, UInt32.toNat_toUInt64]
    exact Nat.shiftRight_eq_zero _ _ flags.toNat_lt
  have hboth : (0 : UInt64) ≠ resolveBeneath ||| resolveInRoot := by decide
  unfold classifyOpenat classifyOpenat2
  simp only [if_false, UInt64.zero_and, ne_eq, not_true_eq_false, hboth, hhigh,
    UInt32.toUInt32_toUInt64, resolveFlags_eq]
  cases checkOpenFlags arch flags with
  | error denial => rfl
  | ok u =>
    cases checkPath path with
    | error denial => rfl
    | ok u' =>
      cases isAbsolute path <;> by_cases hnofollow : flags &&& arch.oNofollow = 0 <;>
        simp [bind, Except.bind, pure, Except.pure, resolveWord, hnofollow]

/-- The flags of a request, on each architecture. -/
lemma request_flags (arch : Arch) (nonblock : Bool) :
    let flags := (arch.oRdonly ||| arch.oCloexec ||| arch.oNoctty |||
      if nonblock then arch.oNonblock else 0).toUInt64
    flags &&& arch.oAccmode.toUInt64 = arch.oRdonly.toUInt64 ∧
      flags &&& ~~~(arch.oCloexec ||| arch.oNoctty ||| arch.oNonblock).toUInt64 = 0 := by
  cases arch <;> cases nonblock <;> decide

lemma Granted.confined (tid : UInt32) (h : Granted arch dirfd how path grant) :
    Confined arch tid dirfd how.flags.toUInt32 how.resolve path (grant.request arch tid path) := by
  have hword := resolve_word (how.flags.toUInt32 &&& arch.oNofollow ≠ 0) h.known h.other
  have hflags := request_flags arch grant.nonblock
  obtain rfl := h.grantIs
  refine ⟨hflags.1, ⟨hflags.2, rfl⟩, ?_, hword.noMagicLinks, hword.restricted, ?_, rfl, ?_, ?_⟩
  · have hcontained := hword.contained
    split_ifs at hcontained
    · exact .inl hcontained
    · exact .inr hcontained
  · intro hnofollow
    exact hword.noFollow (decide_eq_true hnofollow)
  · intro habs
    refine ⟨by simp [Grant.request, Anchor.base, habs], hword.inRoot (by simp [isRooted, habs])⟩
  · intro hrel
    simp [Grant.request, hrel]

/-- **Grants are confined.**  On either architecture, what the broker opens for a granted call is
    confined, and the two calls are judged alike. -/
theorem grants_confined (arch : Arch) (tid : UInt32) (dirfd : Int64) (path : List UInt8) :
    (∀ (flags : UInt32) (grant : Grant), classifyOpenat arch dirfd flags path = .ok grant →
      Confined arch tid dirfd flags 0 path (grant.request arch tid path)) ∧
    (∀ (size : UInt64) (how : OpenHow) (grant : Grant),
      classifyOpenat2 arch dirfd size how path = .ok grant →
        Confined arch tid dirfd how.flags.toUInt32 how.resolve path (grant.request arch tid path)) ∧
    ∀ (flags : UInt32) (mode : UInt64), classifyOpenat arch dirfd flags path =
      classifyOpenat2 arch dirfd openHowSize ⟨flags.toUInt64, mode, 0⟩ path := by
  refine ⟨?_, ?_, ?_⟩
  · intro flags grant h
    rw [classifyOpenat_eq dirfd flags 0 path] at h
    simpa using (classifyOpenat2_ok h).confined tid
  · intro size how grant h
    exact (classifyOpenat2_ok h).confined tid
  · intro flags mode
    exact classifyOpenat_eq dirfd flags mode path

/-- A relative `openat2` that asks for its own root and for no symbolic links. -/
theorem grants_confined_sample :
    classifyOpenat2 .X86_64 3 24 ⟨0x80000, 0, 0x14⟩ [0x61] =
        .ok ⟨.TaskDir 3, 0x16, true, false⟩ ∧
      Confined .X86_64 7 3 0x80000 0x14 [0x61] ⟨.Borrowed 3, [0x61], ⟨0x80100, 0, 0x16⟩⟩ :=
  ⟨by decide, (grants_confined .X86_64 7 3 [0x61]).2.1 24 ⟨0x80000, 0, 0x14⟩
    ⟨.TaskDir 3, 0x16, true, false⟩ (by decide)⟩

end

end Rauha.Broker
