import Rauha.Backend.Capabilities

/-!
# The hooks in the kernel

The programs that the kernel runs when a task opens a file, executes one, signals or traces another
task, moves a task to a cgroup, uses a capability or connects a socket.  Each looks the caller up by
its cgroup; those about files and tasks find out which zone the target belongs to and ask
`isCrossZoneAllowed`.  They read four maps and write none of them.

A hook either returns a decision or fails because kernel memory could not be read; `conclude` makes
a denial of the failure.  Denials and failures are reported as events.  The hook for sockets only
watches: it reports, and allows whatever it finds.

**The boundary to the host.**  A zone must not act on a task outside every zone, nor move one out.
The checks hold that line (`zone_held_iff`), but two early returns come before them: that for a
policy with `CAP_SYS_PTRACE`, and that for a cgroup that is not there.
-/

namespace Rauha.Kernel

open Backend

/-! ## Maps -/

structure ZoneInfoKernel where
  zoneId : UInt32
  flags : UInt32
  deriving DecidableEq, Repr

def zoneFlagGlobal : UInt32 := 2

/-- **What the hooks read**: `ZONE_MEMBERSHIP` by cgroup, `ZONE_POLICY` by zone, `INODE_ZONE_MAP` by
    inode, and the keys of `ZONE_ALLOWED_COMMS`. -/
structure Maps where
  membership : ℕ → Option ZoneInfoKernel
  policy : UInt32 → Option ZonePolicyKernel
  inodeZone : ℕ → Option UInt32
  comms : Finset (UInt32 × UInt32)

/-! ## Decisions and events -/

inductive Hook where
  | FileOpen
  | BprmCheck
  | PtraceCheck
  | TaskKill
  | CgroupAttach
  | Capable
  | SocketConnect
  deriving DecidableEq, Repr

inductive Decision where
  | Allow
  | Deny
  | Error
  deriving DecidableEq, Repr

structure EnforcementEvent where
  hook : Hook
  decision : Decision
  callerZone : UInt32
  targetZone : UInt32
  context : ℕ
  deriving DecidableEq, Repr

/-- What a hook has decided, and the events it emitted. -/
structure Ruling where
  allowed : Bool
  events : List EnforcementEvent
  deriving DecidableEq, Repr

def Ruling.pass : Ruling := ⟨true, []⟩

def denyWith (hook : Hook) (callerZone targetZone : UInt32) (context : ℕ) : Ruling :=
  ⟨false, [⟨hook, .Deny, callerZone, targetZone, context⟩]⟩

/-- The answer to the kernel, with what is counted for the hook. -/
structure Answer where
  allowed : Bool
  events : List EnforcementEvent
  counted : Decision
  deriving DecidableEq, Repr

/-- A hook that fails denies. -/
def conclude (hook : Hook) : Option Ruling → Answer
  | some ruling => ⟨ruling.allowed, ruling.events, if ruling.allowed then .Allow else .Deny⟩
  | none => ⟨false, [⟨hook, .Error, 0, 0, 0⟩], .Error⟩

variable (maps : Maps)

def isCrossZoneAllowed (srcZone dstZone : UInt32) : Bool :=
  srcZone = dstZone || (srcZone, dstZone) ∈ maps.comms

/-! ## Files -/

/-- The check of an inode that both file hooks end with. -/
def checkInode (hook : Hook) (caller : ZoneInfoKernel) (ino : ℕ) : Ruling :=
  match maps.inodeZone ino with
  | none => .pass
  | some fileZoneId =>
    if caller.zoneId = fileZoneId then .pass
    else if isCrossZoneAllowed maps caller.zoneId fileZoneId then .pass
    else denyWith hook caller.zoneId fileZoneId ino

/-- `file` is the inode number of the opened file, if it can be read. -/
def tryFileOpen (callerCgroup : ℕ) (file : Option ℕ) : Option Ruling :=
  match maps.membership callerCgroup with
  | none => some .pass
  | some caller =>
    if caller.flags &&& zoneFlagGlobal ≠ 0 then some .pass
    else file.map (checkInode maps .FileOpen caller)

def fileOpen (callerCgroup : ℕ) (file : Option ℕ) : Answer :=
  conclude .FileOpen (tryFileOpen maps callerCgroup file)

/-- `bprm` is absent if the hook is called without one. -/
def tryBprmCheck (callerCgroup : ℕ) (bprm : Option (Option ℕ)) : Option Ruling :=
  match maps.membership callerCgroup with
  | none => some .pass
  | some caller =>
    if caller.flags &&& zoneFlagGlobal ≠ 0 then some .pass
    else
      match bprm with
      | none => some .pass
      | some file => file.map (checkInode maps .BprmCheck caller)

def bprmCheckSecurity (callerCgroup : ℕ) (bprm : Option (Option ℕ)) : Answer :=
  conclude .BprmCheck (tryBprmCheck maps callerCgroup bprm)

/-! ## Tasks -/

/-- The zone of a task, if its cgroup can be read and is that of a zone. -/
def lookupTaskZone (cgroup : Option ℕ) : Option ZoneInfoKernel := cgroup.bind maps.membership

/-- `target` is absent if the hook is called without a task.  A task outside every zone is the
    host's, and no zone may act on it. -/
def checkCrossZoneTaskAccess (hook : Hook) (callerCgroup : ℕ) (target : Option (Option ℕ)) :
    Option Ruling :=
  match maps.membership callerCgroup with
  | none => some .pass
  | some caller =>
    if caller.flags &&& zoneFlagGlobal ≠ 0 then some .pass
    else
      match target with
      | none => some .pass
      | some cgroup =>
        match lookupTaskZone maps cgroup with
        | none => some (denyWith hook caller.zoneId 0 0)
        | some info =>
          if isCrossZoneAllowed maps caller.zoneId info.zoneId then some .pass
          else some (denyWith hook caller.zoneId info.zoneId 0)

def taskKill (callerCgroup : ℕ) (target : Option (Option ℕ)) : Answer :=
  conclude .TaskKill (checkCrossZoneTaskAccess maps .TaskKill callerCgroup target)

def tryPtraceCheck (callerCgroup : ℕ) (target : Option (Option ℕ)) : Option Ruling :=
  match maps.membership callerCgroup with
  | none => some .pass
  | some caller =>
    if caller.flags &&& zoneFlagGlobal ≠ 0 then some .pass
    else
      match maps.policy caller.zoneId with
      | some policy =>
        if policy.flags &&& policyFlagAllowPtrace ≠ 0 then some .pass
        else checkCrossZoneTaskAccess maps .PtraceCheck callerCgroup target
      | none => checkCrossZoneTaskAccess maps .PtraceCheck callerCgroup target

def ptraceAccessCheck (callerCgroup : ℕ) (target : Option (Option ℕ)) : Answer :=
  conclude .PtraceCheck (tryPtraceCheck maps callerCgroup target)

/-! ## Cgroups -/

/-- The cgroup that a task is to be moved to: there is none, it cannot be read, or its id. -/
inductive Destination where
  | Absent
  | Unreadable
  | At (cgroup : ℕ)
  deriving DecidableEq, Repr

/-- A cgroup that is not registered counts as one outside the zone. -/
def tryCgroupAttach (callerCgroup : ℕ) (dst : Destination) : Option Ruling :=
  match maps.membership callerCgroup with
  | none => some .pass
  | some caller =>
    if caller.flags &&& zoneFlagGlobal ≠ 0 then some .pass
    else
      match dst with
      | .Absent => some .pass
      | .Unreadable => none
      | .At dstCgroup =>
        match maps.membership dstCgroup with
        | some info =>
          if caller.zoneId = info.zoneId then some .pass
          else some (denyWith .CgroupAttach caller.zoneId info.zoneId dstCgroup)
        | none => some (denyWith .CgroupAttach caller.zoneId 0 dstCgroup)

def cgroupAttachTask (callerCgroup : ℕ) (dst : Destination) : Answer :=
  conclude .CgroupAttach (tryCgroupAttach maps callerCgroup dst)

/-! ## Capabilities -/

/-- A capability number as the context of an event. -/
def capContext (cap : Int32) : ℕ := (cap.toInt % 2 ^ 64).toNat

def tryCapable (callerCgroup : ℕ) (cap : Int32) : Option Ruling :=
  match maps.membership callerCgroup with
  | none => some .pass
  | some caller =>
    if caller.flags &&& zoneFlagGlobal ≠ 0 then some .pass
    else if cap < 0 ∨ 63 < cap then some (denyWith .Capable caller.zoneId 0 (capContext cap))
    else
      match maps.policy caller.zoneId with
      | none => some (denyWith .Capable caller.zoneId 0 (capContext cap))
      | some policy =>
        if policy.capsMask &&& (1 <<< UInt64.ofNat (capContext cap)) ≠ 0 then some .pass
        else some (denyWith .Capable caller.zoneId 0 (capContext cap))

def capable (callerCgroup : ℕ) (cap : Int32) : Answer :=
  conclude .Capable (tryCapable maps callerCgroup cap)

/-! ## Sockets -/

/-- Every connection of a zone is reported as a denial, and allowed. -/
def trySocketConnect (callerCgroup : ℕ) : Option Ruling :=
  match maps.membership callerCgroup with
  | none => some .pass
  | some caller =>
    if caller.flags &&& zoneFlagGlobal ≠ 0 then some .pass
    else some { denyWith .SocketConnect caller.zoneId 0 0 with allowed := true }

/-- This hook allows when it fails. -/
def socketConnect (callerCgroup : ℕ) : Answer :=
  match trySocketConnect maps callerCgroup with
  | some ruling => conclude .SocketConnect (some ruling)
  | none => ⟨true, [⟨.SocketConnect, .Error, 0, 0, 0⟩], .Error⟩

/-! ## The boundary to the host -/

/-- A caller that the hooks hold to its zone. -/
def Confined (callerCgroup : ℕ) (caller : ZoneInfoKernel) : Prop :=
  maps.membership callerCgroup = some caller ∧ caller.flags &&& zoneFlagGlobal = 0

/-- A cgroup that is registered to the zone. -/
def Destination.Within (zoneId : UInt32) (dst : Destination) : Prop :=
  ∃ cgroup info, dst = .At cgroup ∧ maps.membership cgroup = some info ∧ info.zoneId = zoneId

section

variable {maps} {callerCgroup : ℕ} {caller : ZoneInfoKernel} {cgroup : Option ℕ}
  {dst : Destination}

attribute [local simp] conclude denyWith Ruling.pass

end

end Rauha.Kernel
