import Rauha.Backend.Capabilities
import Rauha.Library.CrashLogic
import Rauha.Library.Table

/-!
# The Linux backend

What the backend keeps in memory, what it has put into the kernel, and the calls that operations on
zones are made of, as programs over both.  The kernel side is the zone cgroups with the processes in
them, the two BPF maps that enforcement reads (`ZONE_MEMBERSHIP` from cgroups to zones,
`ZONE_POLICY` from zones to policies), network namespaces and interfaces.

Every call to the operating system has a name (`Site`).  An `Env` decides, for each operation and
zone, whether the call of that name goes through, reports an error, or is where the daemon dies;
quantifying over environments quantifies over every combination of failing steps.  The environment
also says which processes survive a kill and what a zone's root file systems hold.

Left out are the parts of the state that recovery does not read back: the inode and communication
maps, the names of zones, and the lists of degraded controls.  Their updates are kept where they can
fail; `Host` has them too.  A host interface is identified with the zone it serves.
-/

namespace Rauha

/-- The text of an error. -/
def RauhaError.text : RauhaError → String
  | .ZoneNotFound name => "zone not found: " ++ name
  | .ZoneAlreadyExists name => "zone already exists: " ++ name
  | .ZoneNotEmpty count => "zone is not empty, contains " ++ toString count ++ " container(s)"
  | .InvalidInput message => "invalid input: " ++ message
  | .InvalidPolicy message => "invalid policy: " ++ message
  | .BackendError message => "isolation backend error: " ++ message
  | .MetadataError message => "metadata store error: " ++ message
  | .EbpfError message => "eBPF error: " ++ message
  | .CgroupError message => "cgroup error: " ++ message
  | .NamespaceError message => "namespace error: " ++ message
  | .NetworkError message => "network error: " ++ message
  | .RootfsError message => "rootfs error: " ++ message
  | .Io => "i/o error"

namespace Backend

open CrashLogic

/-! ## Cgroups -/

/-- A zone cgroup.  Its inode is the id the kernel looks memberships up by. -/
structure Cgroup where
  ino : ℕ
  procs : List ℕ
  deriving DecidableEq, Repr

/-- **The directory `rauha.slice`**, by zone name.  Inodes are never used twice. -/
structure Slice where
  zones : AList fun _ : String => Cgroup
  nextIno : ℕ
  ino_lt : ∀ name cg, zones.lookup name = some cg → cg.ino < nextIno
  ino_inj : ∀ name name' cg cg', zones.lookup name = some cg → zones.lookup name' = some cg' →
    cg.ino = cg'.ino → name = name'

namespace Slice

def empty : Slice := ⟨∅, 1, fun _ _ h => by simp at h, fun _ _ _ _ h => by simp at h⟩

def get (self : Slice) (name : String) : Option Cgroup := self.zones.lookup name

/-- Replace or add the cgroup of a zone, by one whose inode no other zone has. -/
def put (self : Slice) (name : String) (cg : Cgroup) (next : ℕ) (hnext : self.nextIno ≤ next)
    (hlt : cg.ino < next)
    (hnew : ∀ name' cg', self.get name' = some cg' → cg'.ino = cg.ino → name' = name) : Slice where
  zones := self.zones.insert name cg
  nextIno := next
  ino_lt n c h := by
    rcases Table.of_lookup_insert h with ⟨-, rfl⟩ | ⟨-, hold⟩
    · exact hlt
    · exact lt_of_lt_of_le (self.ino_lt n c hold) hnext
  ino_inj n n' c c' h h' hino := by
    rcases Table.of_lookup_insert h with ⟨rfl, rfl⟩ | ⟨-, hold⟩ <;>
      rcases Table.of_lookup_insert h' with ⟨rfl, rfl⟩ | ⟨-, hold'⟩
    · rfl
    · exact (hnew n' c' hold' hino.symm).symm
    · exact hnew n c hold hino
    · exact self.ino_inj n n' c c' hold hold' hino

/-- A new, empty cgroup. -/
def mkdir (self : Slice) (name : String) : Slice :=
  self.put name ⟨self.nextIno, []⟩ (self.nextIno + 1) (Nat.le_succ _) (Nat.lt_succ_self _)
    fun n c h hino => absurd (self.ino_lt n c h) (by rw [hino]; exact Nat.lt_irrefl _)

def rmdir (self : Slice) (name : String) : Slice where
  zones := self.zones.erase name
  nextIno := self.nextIno
  ino_lt n c h := self.ino_lt n c (Table.of_lookup_erase h).2
  ino_inj n n' c c' h h' :=
    self.ino_inj n n' c c' (Table.of_lookup_erase h).2 (Table.of_lookup_erase h').2

/-- The processes that `keep` spares are left. -/
def kill (self : Slice) (name : String) (keep : ℕ → Bool) : Slice :=
  match h : self.get name with
  | none => self
  | some cg =>
    self.put name { cg with procs := cg.procs.filter keep } self.nextIno (le_refl _)
      (self.ino_lt name cg h) fun n c hn hino => self.ino_inj n name c cg hn h hino

section Lemmas

variable {self : Slice} {name name' : String}

@[simp] lemma get_mkdir : (self.mkdir name).get name = some ⟨self.nextIno, []⟩ :=
  AList.lookup_insert _

lemma get_mkdir_ne (h : name' ≠ name) : (self.mkdir name).get name' = self.get name' :=
  AList.lookup_insert_ne h

@[simp] lemma get_rmdir : (self.rmdir name).get name = none := AList.lookup_erase _ _

lemma get_rmdir_ne (h : name' ≠ name) : (self.rmdir name).get name' = self.get name' :=
  AList.lookup_erase_ne h

lemma get_kill {cg : Cgroup} {keep : ℕ → Bool} (h : self.get name = some cg) :
    (self.kill name keep).get name = some { cg with procs := cg.procs.filter keep } := by
  unfold kill
  split
  · rename_i hnone
    rw [h] at hnone
    cases hnone
  · rename_i cg' hsome
    rw [h] at hsome
    cases hsome
    exact AList.lookup_insert _

lemma get_kill_ne {keep : ℕ → Bool} (h : name' ≠ name) :
    (self.kill name keep).get name' = self.get name' := by
  unfold kill
  split
  · rfl
  · exact AList.lookup_insert_ne h

end Lemmas

end Slice

/-! ## State and environment -/

/-- The daemon's configuration, what the running kernel lacks, and what upper case is. -/
structure Config where
  subnet : Subnet
  skippedHooks : List String
  safeWritableRoots : List String
  toUppercase : String → String

/-- The kernel form of a policy. -/
def Config.policyToKernel (cfg : Config) (policy : ZonePolicy) : Option ZonePolicyKernel :=
  Backend.policyToKernel cfg.toUppercase policy

/-- The backend's memory and its part of the kernel. -/
structure Linux where
  slice : Slice
  /-- `ZONE_MEMBERSHIP`, by inode. -/
  membership : ℕ → Option (UInt32 × ZoneType)
  /-- `ZONE_POLICY`, by compact zone id. -/
  policies : UInt32 → Option ZonePolicyKernel
  /-- The zones with a network namespace, and those with a host interface. -/
  netns : Finset String
  veths : Finset String
  nextZoneId : UInt32
  zoneIdMap : AList fun _ : ℕ => UInt32
  ipAllocator : IpAllocator

/-- The operation a call belongs to. -/
inductive Op where
  | Recover
  | CleanupOrphans
  | Create
  | EnforcePolicy
  | HotReload
  /-- The previous policy is applied again, after a hot reload that failed. -/
  | RestorePolicy
  | CreateContainer
  | Destroy
  | Registry
  deriving DecidableEq, Repr

/-- The calls that can fail. -/
inductive Site where
  | MakeCgroup
  | StatCgroup
  | WriteLimits
  | ReadProcs
  | DrainReadProcs
  | KillCgroup
  | PollProcs
  | RemoveCgroup
  | AddNetns
  | DeleteNetns
  | AddLink
  | ConfigureLink
  | DeleteLink
  | SetPolicy
  | RemovePolicy
  | AddMember
  | RemoveMember
  | CollectInodes
  | InodeReadProcs
  | RemoveInodes
  | SyncComms
  | ApplyNftables
  | EnsureShim
  | ShutdownShim
  | BuildCapabilities
  | PrepareLayers
  | MakeRootfs
  | BuildSpec
  | RequestContainer
  | AnswerContainer
  | ReadSlice
  | ReadNetns
  | ListZones
  | GetZone
  | ListContainers
  | RemoveLogs
  | DeleteContainer
  | PutZone
  | PutContainer
  | DeleteZone
  deriving DecidableEq, Repr

/-- **What the environment does** during one operation of the daemon. -/
structure Env where
  verdict : Op → String → Site → Verdict
  /-- The processes of a zone that a kill does not get rid of. -/
  survives : String → ℕ → Bool
  /-- The inodes found below a zone's root file systems, and those the map has room for. -/
  rootfsInodes : String → List ℕ
  insertable : ℕ → Bool

abbrev LinuxM := Prog Linux RauhaError

/-- After a restart: the maps are empty and so is the memory, the kernel keeps the rest. -/
def Linux.boot (cfg : Config) (self : Linux) : Linux where
  slice := self.slice
  membership _ := none
  policies _ := none
  netns := self.netns
  veths := self.veths
  nextZoneId := 1
  zoneIdMap := ∅
  ipAllocator := .new cfg.subnet

variable (cfg : Config) (env : Env) (op : Op) (name : String)

/-! ## Cgroup calls -/

/-- One call, by its name. -/
def osCall (site : Site) (e : RauhaError) (f : Linux → Linux) : LinuxM Unit :=
  .judged (env.verdict op name site) e f

def cgroupIdForZone : LinuxM ℕ := do
  osCall env op name .StatCgroup (.CgroupError "failed to stat cgroup") id
  let self ← .getState
  .ofExcept
    (match self.slice.get name with
    | some cg => .ok cg.ino
    | none => .error (.CgroupError "failed to stat cgroup"))

def createZoneCgroup : LinuxM ℕ := do
  let self ← .getState
  .failIf (self.slice.get name).isSome (.CgroupError "cgroup already exists")
  osCall env op name .MakeCgroup (.CgroupError "failed to create cgroup") fun self =>
    { self with slice := self.slice.mkdir name }
  cgroupIdForZone env op name

def destroyZoneCgroup : LinuxM Unit := do
  let self ← .getState
  (match self.slice.get name with
  | none => pure ()
  | some cg => do
    .failIf (cg.procs ≠ []) (.CgroupError "failed to remove cgroup")
    osCall env op name .RemoveCgroup (.CgroupError "failed to remove cgroup") fun self =>
      { self with slice := self.slice.rmdir name })

/-- The limits themselves are not read back by anything here. -/
def applyResources : LinuxM Unit := do
  let self ← .getState
  .failIf (self.slice.get name = none) (.CgroupError "cgroup does not exist")
  osCall env op name .WriteLimits (.CgroupError "failed to write") id

def zoneHasProcesses (site : Site) : LinuxM Bool := do
  osCall env op name site (.CgroupError "failed to read cgroup.procs") id
  let self ← .getState
  .ofExcept
    (match self.slice.get name with
    | some cg => .ok (decide (cg.procs ≠ []))
    | none => .error (.CgroupError "failed to read cgroup.procs"))

/-- `zone_has_processes(..).unwrap_or(true)`. -/
def mayHaveProcesses : LinuxM Bool := do
  let r ← .attempt (zoneHasProcesses env op name .ReadProcs)
  pure
    (match r with
    | .ok live => live
    | .error _ => true)

/-- Kill every process of a zone and wait until the cgroup is empty. -/
def drainZone : LinuxM Unit := do
  let self ← .getState
  (match self.slice.get name with
  | none => pure ()
  | some _ => do
    let live ← zoneHasProcesses env op name .DrainReadProcs
    (match live with
    | false => pure ()
    | true => do
      osCall env op name .KillCgroup (.CgroupError "failed to kill processes") fun self =>
        { self with slice := self.slice.kill name (env.survives name) }
      let left ← zoneHasProcesses env op name .PollProcs
      .failIf left
        (.CgroupError ("zone " ++ name ++ " cgroup still contains live processes"))))

/-! ## Network calls -/

def createNetns : LinuxM Unit :=
  osCall env op name .AddNetns (.NamespaceError "ip netns add failed") fun self =>
    { self with netns := insert name self.netns }

def destroyNetns : LinuxM Unit := do
  let self ← .getState
  (if name ∈ self.netns then
    osCall env op name .DeleteNetns (.NamespaceError "ip netns delete failed") fun self =>
      { self with netns := self.netns.erase name }
  else pure ())

/-- Both ends of the pair, then their configuration; a pair that cannot be configured is removed
    again. -/
def createVethPair : LinuxM Unit := do
  osCall env op name .AddLink (.NetworkError "ip link add failed") fun self =>
    { self with veths := insert name self.veths }
  let configured ← .attempt
    (osCall env op name .ConfigureLink (.NetworkError "ip link set failed") id)
  (match configured with
  | .ok _ => pure ()
  | .error e => do
    .ignore (osCall env op name .DeleteLink (.NetworkError "ip link delete failed")
      fun self => { self with veths := self.veths.erase name })
    .raise e)

def destroyVethPair : LinuxM Unit := do
  let self ← .getState
  (if name ∈ self.veths then
    osCall env op name .DeleteLink (.NetworkError "ip link delete failed") fun self =>
      { self with veths := self.veths.erase name }
  else pure ())

/-! ## Enforcement calls -/

def allocateZoneId (uuid : ℕ) : LinuxM UInt32 := do
  let self ← .getState
  .update fun self =>
    { self with
      nextZoneId := self.nextZoneId + 1
      zoneIdMap := self.zoneIdMap.insert uuid self.nextZoneId }
  pure self.nextZoneId

def removeZoneId (uuid : ℕ) : LinuxM Unit :=
  .update fun self => { self with zoneIdMap := self.zoneIdMap.erase uuid }

def setZonePolicy (zoneId : UInt32) (policy : ZonePolicy) : LinuxM Unit := do
  let kernel ← .ofExcept
    (match cfg.policyToKernel policy with
    | some kernel => .ok kernel
    | none => .error (.InvalidPolicy "unknown capability"))
  osCall env op name .SetPolicy (.EbpfError "failed to insert zone policy") fun self =>
    { self with policies := Function.update self.policies zoneId (some kernel) }

def addZoneMember (cgroupId : ℕ) (zoneId : UInt32) (zoneType : ZoneType) : LinuxM Unit :=
  osCall env op name .AddMember (.EbpfError "failed to insert zone membership") fun self =>
    { self with membership := Function.update self.membership cgroupId (some (zoneId, zoneType)) }

def removeZoneMember (cgroupId : ℕ) : LinuxM Unit :=
  osCall env op name .RemoveMember (.EbpfError "failed to remove zone membership") fun self =>
    { self with membership := Function.update self.membership cgroupId none }

def removeZonePolicy (zoneId : UInt32) : LinuxM Unit :=
  osCall env op name .RemovePolicy (.EbpfError "failed to remove zone policy") fun self =>
    { self with policies := Function.update self.policies zoneId none }

def restoreRootfsInodes : LinuxM Unit := do
  osCall env op name .CollectInodes (.RootfsError "failed to enumerate") id
  let expected := env.rootfsInodes name
  (match expected with
  | [] => do
    let live ← zoneHasProcesses env op name .InodeReadProcs
    .failIf live
      (.BackendError "live recovered zone has no discoverable rootfs inodes")
  | _ :: _ => pure ())
  let inserted := expected.filter env.insertable
  .failIf (inserted.length ≠ expected.length)
    (.BackendError ("rootfs inode recovery incomplete: registered " ++ toString inserted.length ++
      " of " ++ toString expected.length))

/-- Strict policies insist on a control, audit policies do without it. -/
def admitting (admission : PolicyAdmission) (c : LinuxM Unit) : LinuxM Unit :=
  match admission with
  | .Strict => c
  | .Audit => .ignore c

def deviceNumbers : String → Option (ℕ × ℕ)
  | "/dev/null" => some (1, 3)
  | "/dev/zero" => some (1, 5)
  | "/dev/full" => some (1, 7)
  | "/dev/random" => some (1, 8)
  | "/dev/urandom" => some (1, 9)
  | _ => none

def isAbsolute (path : String) : Bool := path.toList.head? = some '/'

/-- The components of a path after its root, among them `..`. -/
def pathParts (path : String) : List (List Char) :=
  (path.toList.splitOn '/').filter fun part => part ≠ [] ∧ part ≠ ['.']

/-- Whether an absolute path starts with the components of another one. -/
def pathStartsWith (path reserved : String) : Bool :=
  if isAbsolute reserved then (pathParts reserved).isPrefixOf (pathParts path) else reserved = ""

def safeWritablePath (path : String) (safeWritableRoots : List String) : Bool :=
  isAbsolute path && pathParts path ≠ [] &&
    !(safeWritableRoots.any fun reserved => pathStartsWith path reserved) &&
    (pathParts path).all (· ≠ ['.', '.'])

def unsupportedLinuxControls (policy : ZonePolicy) : List String :=
  (if policy.writablePaths.any fun path => !safeWritablePath path cfg.safeWritableRoots then
    ["filesystem.writable_paths"] else []) ++
  (if policy.devices.any fun path => (deviceNumbers path).isNone then ["devices.allowed"] else [])

def admitLinuxPolicy (policy : ZonePolicy) : Except RauhaError Unit :=
  let unsupported :=
    unsupportedLinuxControls cfg policy ++ cfg.skippedHooks.map fun hook => "lsm." ++ hook
  if unsupported.isEmpty then .ok ()
  else
    match policy.admission with
    | .Strict => .error (.InvalidPolicy
        ("strict policy requests unsupported or unavailable Linux controls: " ++
          String.intercalate ", " unsupported))
    | .Audit => .ok ()

end Backend

end Rauha
