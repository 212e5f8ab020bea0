import Rauha.Backend.Linux
import Rauha.Common.PolicyFile

/-!
# The whole host

`Linux` has the parts of the backend's state that decide which cgroups are enforced.  `Host` has the
rest as well: the names of zones, the policies and degradations that were recorded, which zones may
reach each other, who owns which inode, the limits of the cgroups and the firewall rules of the
zones.  `createZone`, `enforcePolicy`, `hotReloadPolicy`, `destroyZone` and `createContainer` are
the operations on it, each error path with what it undoes; what they do to cgroups, namespaces and
interfaces are the calls of `Linux` (`onLinux`).

**Partial effects.**  Three steps write several entries one after the other: the pairs of zones that
may communicate, the limits of a cgroup, and the removal of inodes.  `HostEnv` says how many of them
are written if such a step fails, and in which order a hash table is walked.
-/

namespace Rauha.Backend

open CrashLogic

/-! ## Limits -/

/-- The files of a cgroup; no number means `max`. -/
structure Limits where
  cpuWeight : UInt64
  memoryMax : Option UInt64
  pidsMax : Option UInt64
  ioWeight : UInt16
  deriving DecidableEq, Repr

/-- The limits of a cgroup that has just been made. -/
def Limits.initial : Limits := ⟨100, none, none, 100⟩

def sharesToWeight (shares : UInt64) : UInt64 :=
  if shares = 0 then 100 else max 1 (min 10000 (shares * 100 / 1024))

def limitOf (n : UInt64) : Option UInt64 := if n = 0 ∨ n = 0xffffffffffffffff then none else some n

/-- The writes of `apply_resources`, in their order. -/
def limitWrites (resources : ResourcePolicy) : List (Limits → Limits) :=
  [fun l => { l with cpuWeight := sharesToWeight resources.cpuShares },
    fun l => { l with memoryMax := limitOf resources.memoryLimit },
    fun l => { l with pidsMax := limitOf resources.pidsMax },
    fun l => { l with ioWeight := max 1 (min 10000 resources.ioWeight) }]

/-! ## State and environment -/

/-- **The backend's memory and its part of the kernel**, with what does not decide which cgroups are
    enforced. -/
structure Host extends Linux where
  /-- `INODE_ZONE_MAP`. -/
  inodeZoneMap : ℕ → Option UInt32
  /-- The keys of `ZONE_ALLOWED_COMMS`. -/
  zoneAllowedComms : Finset (UInt32 × UInt32)
  /-- The limits of a cgroup, by inode. -/
  limits : ℕ → Limits
  /-- The script that the firewall rules of a zone were installed with. -/
  rules : String → Option String
  /-- The containers the shims know, and those with a mounted root file system. -/
  shimContainers : Finset ℕ
  mounts : Finset ℕ
  zoneNameMap : AList fun _ : String => ℕ
  registeredInodes : String → List ℕ
  zonePolicies : String → Option FullPolicy
  zoneDegradations : String → Finset String

/-- The firewall script of a zone is a function of its name and its network policy. -/
structure HostConfig extends Config where
  zoneScript : String → NetworkPolicy → Except RauhaError (Option String)

/-- **What the environment does** during one operation. -/
structure HostEnv extends Env where
  /-- The order in which the entries of a hash table are visited. -/
  walk : List UInt32 → List UInt32
  walk_perm : ∀ ids, (walk ids).Perm ids
  /-- How many entries have been written when such a step fails. -/
  commsDone : Op → ℕ
  limitsDone : Op → ℕ
  inodesDone : ℕ
  /-- The inodes below the root file system of a new container. -/
  containerInodes : List ℕ

abbrev HostM := Prog Host RauhaError

namespace Host

/-- Put back the part that decides which cgroups are enforced. -/
def withLinux (self : Host) (linux : Linux) : Host := { self with toLinux := linux }

/-- After a restart: what is in memory and in the maps is gone. -/
def boot (cfg : Config) (self : Host) : Host :=
  { self.withLinux (self.toLinux.boot cfg) with
    inodeZoneMap := fun _ => none
    zoneAllowedComms := ∅
    zoneNameMap := ∅
    registeredInodes := fun _ => []
    zonePolicies := fun _ => none
    zoneDegradations := fun _ => ∅ }

/-- The compact id of a zone, by name. -/
def peerId (self : Host) (name : String) : Option UInt32 :=
  (self.zoneNameMap.lookup name).bind fun uuid => self.zoneIdMap.lookup uuid

/-- The compact ids in use. -/
def zoneIds (self : Host) : List UInt32 := self.zoneIdMap.entries.map Sigma.snd

end Host

variable (cfg : HostConfig) (env : HostEnv) (op : Op) (name : String)

/-- A call that concerns cgroups, namespaces or interfaces. -/
def onLinux {α : Type} (c : LinuxM α) : HostM α := .zoom Host.toLinux .withLinux c

/-- One call, by its name. -/
def hostCall (site : Site) (e : RauhaError) (f : Host → Host) : HostM Unit :=
  .judged (env.verdict op name site) e f

/-- One call that can fail part of the way. -/
def partCall (site : Site) (e : RauhaError) (f part : Host → Host) : HostM Unit := fun plan self =>
  match env.verdict op name site with
  | .ok => (.done (), plan, f self)
  | .err => (.failed e, plan, part self)
  | .cut => (.stopped, plan, part self)

/-! ## Pairs of zones -/

inductive CommOp where
  | deny (src dst : UInt32)
  | allow (src dst : UInt32)
  deriving DecidableEq, Repr

def CommOp.apply (comms : Finset (UInt32 × UInt32)) : CommOp → Finset (UInt32 × UInt32)
  | deny src dst => comms.erase (src, dst)
  | allow src dst => insert (src, dst) comms

/-- The ids of the peers that a policy allows, of those that are known. -/
def allowedPeerIds (self : Host) (net : NetworkPolicy) : List UInt32 :=
  (net.allowedZones.filterMap self.peerId).dedup

/-- Every other zone is denied, and then the peers of the policy are allowed, both ways. -/
def commOps (walk : List UInt32 → List UInt32) (self : Host) (zoneId : UInt32)
    (net : NetworkPolicy) : List CommOp :=
  let allowed := allowedPeerIds self net
  (walk self.zoneIds).flatMap (fun peer =>
    if peer = zoneId ∨ peer ∈ allowed then [] else [.deny zoneId peer, .deny peer zoneId]) ++
  (walk allowed).flatMap fun peer => [.allow zoneId peer, .allow peer zoneId]

def syncBpfAllowedComms (zoneId : UInt32) (net : NetworkPolicy) : HostM Unit :=
  partCall env op name .SyncComms (.EbpfError "failed to update allowed comms")
    (fun self => { self with
      zoneAllowedComms := (commOps env.walk self zoneId net).foldl CommOp.apply
        self.zoneAllowedComms })
    (fun self => { self with
      zoneAllowedComms := ((commOps env.walk self zoneId net).take (env.commsDone op)).foldl
        CommOp.apply self.zoneAllowedComms })

/-! ## Degradations, rules and limits -/

def recordDegradation (control : String) : HostM Unit :=
  .update fun self =>
    { self with
      zoneDegradations := Function.update self.zoneDegradations name
        (insert control (self.zoneDegradations name)) }

def clearDegradation (control : String) : HostM Unit :=
  .update fun self =>
    { self with
      zoneDegradations := Function.update self.zoneDegradations name
        ((self.zoneDegradations name).erase control) }

/-- Strict policies insist on a control; audit policies do without it, and that is recorded. -/
def orDegrade (admission : PolicyAdmission) (control : String) (c : HostM Unit) : HostM Unit := do
  let outcome ← .attempt c
  (match outcome, admission with
  | .ok _, _ => pure ()
  | .error e, .Strict => .raise e
  | .error _, .Audit => recordDegradation name control)

def removeZoneRules : HostM Unit :=
  .update fun self => { self with rules := Function.update self.rules name none }

/-- The old rules go first; the new ones are one transaction. -/
def applyZoneRules (net : NetworkPolicy) : HostM Unit := do
  let script ← .ofExcept (cfg.zoneScript name net)
  removeZoneRules name
  hostCall env op name .ApplyNftables (.NetworkError "nft failed") fun self =>
    { self with rules := Function.update self.rules name script }

def applyNftablesForZone (policy : FullPolicy) : HostM Unit :=
  orDegrade name policy.admission "network:nftables" (do
    applyZoneRules cfg env op name policy.network
    clearDegradation name "network:nftables")

/-- Some writes to the files of a zone's cgroup. -/
def writeLimits (writes : List (Limits → Limits)) (self : Host) : Host :=
  match self.slice.get name with
  | some cg =>
    { self with
      limits := Function.update self.limits cg.ino
        (writes.foldl (fun limits write => write limits) (self.limits cg.ino)) }
  | none => self

def applyLimits (resources : ResourcePolicy) : HostM Unit := do
  let self ← .getState
  .failIf (self.slice.get name = none) (.CgroupError "cgroup does not exist")
  partCall env op name .WriteLimits (.CgroupError "failed to write")
    (writeLimits name (limitWrites resources))
    (writeLimits name ((limitWrites resources).take (env.limitsDone op)))

/-! ## Ids and names -/

/-- The compact id of a zone that has one. -/
def getZoneId (zone : ZoneHandle) (suffix : String) : HostM UInt32 := do
  let self ← .getState
  .ofExcept
    (match self.zoneIdMap.lookup zone.id with
    | some zoneId => .ok zoneId
    | none =>
      .error (.BackendError ("zone " ++ zone.name ++ " has no kernel identifier" ++ suffix)))

def insertName (uuid : ℕ) : HostM Unit :=
  .update fun self => { self with zoneNameMap := self.zoneNameMap.insert name uuid }

def removeName : HostM Unit :=
  .update fun self => { self with zoneNameMap := self.zoneNameMap.erase name }

def recordPolicy (policy : Option FullPolicy) : HostM Unit :=
  .update fun self =>
    { self with zonePolicies := Function.update self.zonePolicies name policy }

def forgetDegradations : HostM Unit :=
  .update fun self =>
    { self with zoneDegradations := Function.update self.zoneDegradations name ∅ }

/-! ## Inodes -/

/-- Every inode becomes that of the zone, whoever it belonged to. -/
def setInodes (zoneId : UInt32) (inodes : List ℕ) (self : Host) : Host :=
  { self with
    inodeZoneMap := fun ino => if ino ∈ inodes then some zoneId else self.inodeZoneMap ino }

/-- No inode belongs to a zone any more, whoever it belonged to. -/
def unsetInodes (inodes : List ℕ) (self : Host) : Host :=
  { self with inodeZoneMap := fun ino => if ino ∈ inodes then none else self.inodeZoneMap ino }

def removeInodes (inodes : List ℕ) : HostM Unit :=
  partCall env op name .RemoveInodes (.EbpfError "failed to remove inode ownership")
    (unsetInodes inodes) (unsetInodes (inodes.take env.inodesDone))

/-- What is recorded of a zone's inodes. -/
def registerInodes (inodes : List ℕ → List ℕ) : HostM Unit :=
  .update fun self =>
    { self with
      registeredInodes := Function.update self.registeredInodes name
        (inodes (self.registeredInodes name)) }

/-! ## Creation -/

def allocateIp : LinuxM ZoneNetworkState := do
  let self ← .getState
  let (ip, allocator) ← .ofExcept self.ipAllocator.allocate
  .update fun self => { self with ipAllocator := allocator }
  pure ⟨ip, allocator.gateway, allocator.subnet.prefixLen⟩

namespace Host

def releaseIp (net : Option ZoneNetworkState) : HostM Unit :=
  match net with
  | some net =>
    .update fun self => { self with ipAllocator := self.ipAllocator.release net.ip }
  | none => pure ()

def rollbackZone (config : ZoneConfig) (uuid : ℕ) (net : Option ZoneNetworkState) : HostM Unit := do
  releaseIp net
  .ignore (onLinux (destroyVethPair env.toEnv .Create config.name))
  .ignore (onLinux (destroyNetns env.toEnv .Create config.name))
  .ignore (onLinux (destroyZoneCgroup env.toEnv .Create config.name))
  onLinux (removeZoneId uuid)
  removeName config.name
  forgetDegradations config.name

/-- A statement of creation, rolled back when it fails. -/
def orRollback {α : Type} (config : ZoneConfig) (uuid : ℕ) (net : Option ZoneNetworkState)
    (c : HostM α) : HostM α := do
  let outcome ← .attempt c
  (match outcome with
  | .ok a => pure a
  | .error e => do
    rollbackZone env config uuid net
    .raise e)

def createNetwork (config : ZoneConfig) (uuid : ℕ) : HostM (Option ZoneNetworkState) :=
  match config.policy.network.mode with
  | .Host => pure none
  | _ => do
    let net ← orRollback env config uuid none (onLinux allocateIp)
    orRollback env config uuid (some net) (onLinux (createNetns env.toEnv .Create config.name))
    orRollback env config uuid (some net)
      (orDegrade config.name config.policy.admission "network:veth"
        (onLinux (createVethPair env.toEnv .Create config.name)))
    pure (some net)

def createZone (config : ZoneConfig) (resources : ResourcePolicy) (uuid : ℕ) :
    HostM ZoneHandle := do
  .ofExcept (admitLinuxPolicy cfg.toConfig config.policy)
  let zoneId ← onLinux (allocateZoneId uuid)
  insertName config.name uuid
  let made ← .attempt (onLinux (createZoneCgroup env.toEnv .Create config.name))
  let cgroupId ← (match made with
    | .ok cgroupId => pure cgroupId
    | .error e => do
      onLinux (removeZoneId uuid)
      .raise e)
  let net ← createNetwork env config uuid
  orRollback env config uuid net
    (onLinux (setZonePolicy cfg.toConfig env.toEnv .Create config.name zoneId config.policy))
  orRollback env config uuid net (do
    let added ← .attempt
      (onLinux (addZoneMember env.toEnv .Create config.name cgroupId zoneId config.zoneType))
    (match added with
    | .ok _ => pure ()
    | .error e => do
      .ignore (onLinux (removeZonePolicy env.toEnv .Create config.name zoneId))
      .raise e))
  orRollback env config uuid net (do
    let applied ← .attempt (applyLimits env .Create config.name resources)
    (match applied with
    | .ok _ => pure ()
    | .error e => do
      .ignore (onLinux (removeZoneMember env.toEnv .Create config.name cgroupId))
      .ignore (onLinux (removeZonePolicy env.toEnv .Create config.name zoneId))
      .raise e))
  pure ⟨uuid, config.name, cgroupId, net⟩

/-! ## Policies -/

/-- A policy is put into the kernel: its entry, its pairs, its rules and its limits. -/
def installPolicy (op : Op) (zone : ZoneHandle) (zoneId : UInt32) (policy : FullPolicy) :
    HostM Unit := do
  onLinux (setZonePolicy cfg.toConfig env.toEnv op zone.name zoneId policy.toZonePolicy)
  syncBpfAllowedComms env op zone.name zoneId policy.network
  applyNftablesForZone cfg env op zone.name policy
  applyLimits env op zone.name policy.resources

def enforcePolicy (zone : ZoneHandle) (policy : FullPolicy) : HostM Unit := do
  .ofExcept (admitLinuxPolicy cfg.toConfig policy.toZonePolicy)
  let zoneId ← getZoneId zone ""
  installPolicy cfg env .EnforcePolicy zone zoneId policy
  recordPolicy zone.name (some policy)

/-- The previous policy, one part after the other; what fails is only logged. -/
def restorePolicy (zone : ZoneHandle) (zoneId : UInt32) (previous : FullPolicy) : HostM Unit := do
  .ignore (onLinux (setZonePolicy cfg.toConfig env.toEnv .RestorePolicy zone.name zoneId
    previous.toZonePolicy))
  .ignore (syncBpfAllowedComms env .RestorePolicy zone.name zoneId previous.network)
  .ignore (applyNftablesForZone cfg env .RestorePolicy zone.name previous)
  .ignore (applyLimits env .RestorePolicy zone.name previous.resources)

def hotReloadPolicy (zone : ZoneHandle) (policy : FullPolicy) : HostM Unit := do
  .ofExcept (admitLinuxPolicy cfg.toConfig policy.toZonePolicy)
  let self ← .getState
  let previous ← .ofExcept
    (match self.zonePolicies zone.name with
    | some previous => .ok previous
    | none => .error (.BackendError ("zone " ++ zone.name ++ " has no policy to reload")))
  let zoneId ← getZoneId zone ""
  let update ← .attempt (installPolicy cfg env .HotReload zone zoneId policy)
  (match update with
  | .ok _ => pure ()
  | .error e => do
    restorePolicy cfg env zone zoneId previous
    .raise e)
  recordPolicy zone.name (some policy)

/-! ## Destruction -/

/-- The cgroup is drained and removed before any enforcement is. -/
def destroyZone (zone : ZoneHandle) : HostM Unit := do
  .ignore (hostCall env .Destroy zone.name .ShutdownShim .Io id)
  onLinux (drainZone env.toEnv .Destroy zone.name)
  onLinux (destroyZoneCgroup env.toEnv .Destroy zone.name)
  let self ← .getState
  onLinux (removeZoneId zone.id)
  registerInodes zone.name fun _ => []
  (match self.zoneIdMap.lookup zone.id with
  | some zoneId => do
    .ignore (removeInodes env .Destroy zone.name (self.registeredInodes zone.name))
    .ignore (onLinux (removeZoneMember env.toEnv .Destroy zone.name zone.platformId))
    .ignore (onLinux (removeZonePolicy env.toEnv .Destroy zone.name zoneId))
  | none => pure ())
  releaseIp zone.networkState
  removeZoneRules zone.name
  .ignore (onLinux (destroyVethPair env.toEnv .Destroy zone.name))
  .ignore (onLinux (destroyNetns env.toEnv .Destroy zone.name))
  removeName zone.name
  recordPolicy zone.name none
  forgetDegradations zone.name

/-! ## Containers -/

/-- Where the root file system of a container comes from. -/
inductive Rootfs where
  | Overlay
  | Copy
  | Empty
  deriving DecidableEq, Repr

def makeRootfs (zone : ZoneHandle) (rootfs : Rootfs) (id : ℕ) : HostM Unit :=
  hostCall env .CreateContainer zone.name .MakeRootfs (.RootfsError "failed to create rootfs")
    fun self =>
      match rootfs with
      | .Overlay => { self with mounts := insert id self.mounts }
      | _ => self

/-- The inodes below the root file system are recorded as the zone's, as far as the map takes
    them. -/
def registerRootfs (zone : ZoneHandle) (zoneId : UInt32) : HostM Unit := do
  hostCall env .CreateContainer zone.name .CollectInodes (.RootfsError "failed to enumerate") id
  let collected := env.containerInodes
  let inserted := collected.filter env.insertable
  .update (setInodes zoneId inserted)
  registerInodes zone.name fun registered => registered ++ inserted
  .failIf (inserted.length ≠ collected.length)
    (.BackendError ("rootfs inode enforcement incomplete: registered " ++
      toString inserted.length ++ " of " ++ toString collected.length))

/-- `capabilities`, and then the rest of the spec, are built from the policy. -/
def createContainer (zone : ZoneHandle) (rootfs : Rootfs) (id : ℕ) : HostM Unit := do
  hostCall env .CreateContainer zone.name .EnsureShim (.BackendError "shim not available")
    fun self => self
  let self ← .getState
  let policy ← .ofExcept
    (match self.zonePolicies zone.name with
    | some policy => .ok policy
    | none => .error (.BackendError
        ("zone " ++ zone.name ++ " has no admitted policy; refusing container creation")))
  hostCall env .CreateContainer zone.name .BuildCapabilities
    (.InvalidPolicy "unknown capability") fun self => self
  makeRootfs env zone rootfs id
  hostCall env .CreateContainer zone.name .BuildSpec
    (.BackendError "failed to build OCI Linux spec") fun self => self
  let zoneId ← getZoneId zone "; refusing container creation"
  orDegrade zone.name policy.admission "filesystem:inode_ownership"
    (registerRootfs env zone zoneId)
  hostCall env .CreateContainer zone.name .RequestContainer (.BackendError "shim request failed")
    fun self => { self with shimContainers := insert id self.shimContainers }
  hostCall env .CreateContainer zone.name .AnswerContainer
    (.BackendError "failed to read response") fun self => self

end Host

/-! ## A host to start from -/

/-- A kernel with every hook; zones get no rules. -/
def bareConfig : HostConfig where
  subnet := .default
  skippedHooks := []
  safeWritableRoots := []
  toUppercase := id
  zoneScript _ _ := .ok none

/-- Every call goes through; a new container has these inodes. -/
def smoothEnv (containerInodes : List ℕ) : HostEnv where
  verdict _ _ _ := .ok
  survives _ _ := false
  rootfsInodes _ := []
  insertable _ := true
  walk ids := ids
  walk_perm _ := .refl _
  commsDone _ := 0
  limitsDone _ := 0
  inodesDone := 0
  containerInodes := containerInodes

def emptyHost : Host where
  slice := .empty
  membership _ := none
  policies _ := none
  inodeZoneMap _ := none
  zoneAllowedComms := ∅
  netns := ∅
  veths := ∅
  limits _ := .initial
  rules _ := none
  shimContainers := ∅
  mounts := ∅
  nextZoneId := 1
  zoneIdMap := ∅
  zoneNameMap := ∅
  registeredInodes _ := []
  zonePolicies _ := none
  zoneDegradations _ := ∅
  ipAllocator := .new bareConfig.subnet

/-- A strict policy that asks for nothing but a network. -/
def strictPolicy (network : NetworkPolicy) : FullPolicy where
  admission := .Strict
  capabilities := []
  network := network
  writablePaths := []
  devices := []
  resources := .default
  root := ""
  sharedLayers := true
  deny := []
  broker := []

end Rauha.Backend
