import Rauha.Backend.Linux

/-!
# Zones after a restart

`recoverZone` and `cleanupOrphans` of the Linux backend, each statement in its place and each error
path with what it undoes.

Recovery runs as a closure that sets three flags on its way (`Progress`): which cgroup it found,
whether the address was handled, whether the membership has been installed.  Its error comes with
the flags as they stood, and the roll-back goes by them.
-/

namespace Rauha.Backend

open CrashLogic

variable (cfg : Config) (env : Env)

/-! ## Recovery -/

/-- How far a recovery had come. -/
structure Progress where
  cgroupId : Option ℕ
  ipMarked : Bool
  membershipInstalled : Bool
  deriving DecidableEq, Repr

/-- Errors of a statement carry the progress made before it. -/
def tag {α : Type} (p : Progress) (c : LinuxM α) : Prog Linux (RauhaError × Progress) α :=
  .mapError (fun e => (e, p)) c

/-- The cgroup that is there, or a new one. -/
def recoverCgroup (name : String) : LinuxM ℕ := do
  let self ← .getState
  (if (self.slice.get name).isSome then cgroupIdForZone env .Recover name
  else createZoneCgroup env .Recover name)

/-- The persisted address is marked as in use, if it is one of the configured subnet. -/
def recoverAddress (zone : ZoneHandle) (policy : ZonePolicy) : LinuxM Unit :=
  match zone.networkState with
  | none => pure ()
  | some net => do
    let self ← .getState
    (if self.ipAllocator.contains net.ip then
      .update fun self => { self with ipAllocator := self.ipAllocator.markAllocated net.ip }
    else
      match policy.admission with
      | .Strict => .raise (.BackendError "zone IP is outside the configured subnet")
      | .Audit => pure ())

def recoverNetwork (zone : ZoneHandle) (policy : ZonePolicy) : LinuxM Unit :=
  match policy.network.mode with
  | .Host => pure ()
  | _ => do
    let self ← .getState
    (if zone.name ∈ self.netns then pure ()
    else admitting policy.admission (createNetns env .Recover zone.name))
    let self ← .getState
    (if zone.name ∈ self.netns ∧ zone.name ∉ self.veths then
      admitting policy.admission (createVethPair env .Recover zone.name)
    else pure ())

/-- The statements of the closure after the membership has been installed. -/
def completeRecovery (zone : ZoneHandle) (policy : ZonePolicy) : LinuxM Unit := do
  admitting policy.admission (restoreRootfsInodes env .Recover zone.name)
  osCall env .Recover zone.name .SyncComms (.EbpfError "failed to update allowed comms") id
  admitting policy.admission
    (osCall env .Recover zone.name .ApplyNftables (.NetworkError "nft failed") id)

/-- The closure.  The policy goes before the membership, so that a cgroup which already holds
    processes never resolves to a zone without one. -/
def recovery (zone : ZoneHandle) (zoneType : ZoneType) (policy : ZonePolicy) (zoneId : UInt32) :
    Prog Linux (RauhaError × Progress) Unit := do
  let cgroupId ← tag ⟨none, false, false⟩ (recoverCgroup env zone.name)
  tag ⟨some cgroupId, false, false⟩ (applyResources env .Recover zone.name)
  tag ⟨some cgroupId, false, false⟩ (recoverAddress zone policy)
  tag ⟨some cgroupId, zone.networkState.isSome, false⟩ (recoverNetwork env zone policy)
  tag ⟨some cgroupId, zone.networkState.isSome, false⟩
    (setZonePolicy cfg env .Recover zone.name zoneId policy)
  tag ⟨some cgroupId, zone.networkState.isSome, false⟩
    (addZoneMember env .Recover zone.name cgroupId zoneId zoneType)
  tag ⟨some cgroupId, zone.networkState.isSome, true⟩ (completeRecovery env zone policy)

/-- Live workloads are drained before enforcement is rolled back; if that fails, it stays. -/
def failClosed (zone : ZoneHandle) (e : RauhaError) (p : Progress) : LinuxM Unit :=
  match p.membershipInstalled with
  | false => pure ()
  | true => do
    let live ← mayHaveProcesses env .Recover zone.name
    (match live with
    | false => pure ()
    | true => do
      let drained ← .attempt (drainZone env .Recover zone.name)
      (match drained with
      | .ok _ => pure ()
      | .error drainError => .raise (.BackendError ("zone recovery failed: " ++ e.text ++
          "; fail-closed drain failed: " ++ drainError.text))))

/-- What a failed recovery takes back.  The results of these calls are ignored. -/
def rollbackRecovery (zone : ZoneHandle) (zoneId : UInt32) (p : Progress) : LinuxM Unit := do
  (match p.cgroupId with
  | some cgroupId => .ignore (removeZoneMember env .Recover zone.name cgroupId)
  | none => pure ())
  .ignore (removeZonePolicy env .Recover zone.name zoneId)
  (match p.ipMarked, zone.networkState with
  | true, some net =>
    .update fun self => { self with ipAllocator := self.ipAllocator.release net.ip }
  | _, _ => pure ())
  removeZoneId zone.id

def recoverZone (zone : ZoneHandle) (zoneType : ZoneType) (policy : ZonePolicy) : LinuxM Unit := do
  .ofExcept (admitLinuxPolicy cfg policy)
  let zoneId ← allocateZoneId zone.id
  let outcome ← .attempt (recovery cfg env zone zoneType policy zoneId)
  (match outcome with
  | .ok _ => pure ()
  | .error (e, p) => do
    failClosed env zone e p
    rollbackRecovery env zone zoneId p
    .raise e)

/-! ## Orphans -/

/-- An unknown cgroup goes if it is empty; `true` says that it was kept. -/
def cleanupOrphan (name : String) : LinuxM Bool := do
  let live ← mayHaveProcesses env .CleanupOrphans name
  (match live with
  | true => pure true
  | false => do
    let cgroupId ← .attempt (cgroupIdForZone env .CleanupOrphans name)
    (match cgroupId with
    | .ok cgroupId => .ignore (removeZoneMember env .CleanupOrphans name cgroupId)
    | .error _ => pure ())
    .ignore (destroyZoneCgroup env .CleanupOrphans name)
    pure false)

/-- The unknown entries of a listing, one after the other; the result are the live ones. -/
def cleanupCgroups (known : List String) : List String → LinuxM (List String)
  | [] => pure []
  | name :: rest => do
    let kept ← (if name ∈ known then pure false else cleanupOrphan env name)
    let live ← cleanupCgroups known rest
    pure (if kept then name :: live else live)

def cleanupNetns (known live : List String) : List String → LinuxM Unit
  | [] => pure ()
  | name :: rest => do
    (if name ∈ known || name ∈ live then pure ()
    else .ignore (destroyNetns env .CleanupOrphans name))
    cleanupNetns known live rest

/-- `listing` and `namespaces` are the orders in which the two directories are read. -/
def cleanupOrphans (known listing namespaces : List String) : LinuxM Unit := do
  let readable ← .attempt (osCall env .CleanupOrphans "" .ReadSlice .Io id)
  let live ← (match readable with
    | .ok _ => cleanupCgroups env known listing
    | .error _ => pure [])
  let readable ← .attempt (osCall env .CleanupOrphans "" .ReadNetns .Io id)
  (match readable with
  | .ok _ => cleanupNetns env known live namespaces
  | .error _ => pure ())

end Rauha.Backend
