import Rauha.Backend.Host
import Rauha.Backend.Restart

/-!
# The zone registry

The registry coordinates the metadata store, which survives the daemon, with the backend, which
does not.  `reconcile` is what start-up does with persisted zones; `createZone` and `deleteZone`
are serialized by a lock, so each is one program from start to end.

A zone is persisted after the backend has it, and its metadata goes after the backend has torn it
down.  Between these two points the memory of the backend and the store disagree.
-/

namespace Rauha

open CrashLogic Backend

/-! ## The metadata store -/

inductive ContainerState where
  | Created
  | Running
  | Stopped
  | Paused
  deriving DecidableEq, Repr

structure Container where
  id : ℕ
  name : String
  zoneId : ℕ
  state : ContainerState
  deriving DecidableEq, Repr

/-- **The tables of zones and containers**, each record under its own key. -/
structure Metadata where
  zones : AList fun _ : String => Zone
  containers : AList fun _ : ℕ => Container
  zone_key : ∀ name zone, zones.lookup name = some zone → zone.name = name
  container_key : ∀ id container, containers.lookup id = some container → container.id = id

namespace Metadata

def empty : Metadata := ⟨∅, ∅, fun _ _ h => by simp at h, fun _ _ h => by simp at h⟩

variable (self : Metadata)

def getZone (name : String) : Option Zone := self.zones.lookup name

def listZones : List Zone := self.zones.entries.map Sigma.snd

def listContainers (zoneId : Option ℕ) : List Container :=
  (self.containers.entries.map Sigma.snd).filter fun c => zoneId.all (c.zoneId = ·)

def putZone (zone : Zone) : Metadata :=
  { self with
    zones := self.zones.insert zone.name zone
    zone_key := Table.named_insert self.zone_key zone }

def deleteZone (name : String) : Metadata :=
  { self with
    zones := self.zones.erase name
    zone_key := Table.named_erase self.zone_key name }

def putContainer (container : Container) : Metadata :=
  { self with
    containers := self.containers.insert container.id container
    container_key := Table.named_insert self.container_key container }

def deleteContainer (id : ℕ) : Metadata :=
  { self with
    containers := self.containers.erase id
    container_key := Table.named_erase self.container_key id }

variable {self}

lemma mem_listZones {zone : Zone} : zone ∈ self.listZones ↔ self.getZone zone.name = some zone := by
  unfold listZones getZone
  rw [List.mem_map]
  constructor
  · rintro ⟨⟨name, z⟩, hmem, rfl⟩
    have hlookup := AList.mem_lookup_iff.mpr hmem
    rw [self.zone_key name z hlookup]
    exact hlookup
  · intro h
    exact ⟨⟨zone.name, zone⟩, AList.mem_lookup_iff.mp h, rfl⟩

lemma mem_listContainers {zoneId : Option ℕ} {container : Container} :
    container ∈ self.listContainers zoneId ↔
      self.containers.lookup container.id = some container ∧ zoneId.all (container.zoneId = ·) := by
  unfold listContainers
  rw [List.mem_filter, List.mem_map]
  refine and_congr_left fun _ => ⟨?_, fun h => ⟨⟨container.id, container⟩,
    AList.mem_lookup_iff.mp h, rfl⟩⟩
  rintro ⟨⟨id, c⟩, hmem, rfl⟩
  have hlookup := AList.mem_lookup_iff.mpr hmem
  rw [self.container_key id c hlookup]
  exact hlookup

/-- Zones are listed once each. -/
lemma nodup_listZones : (self.listZones.map Zone.name).Nodup := by
  have hkeys : self.listZones.map Zone.name = self.zones.keys := by
    unfold listZones AList.keys List.keys
    rw [List.map_map]
    refine List.map_congr_left ?_
    rintro ⟨name, z⟩ hmem
    exact self.zone_key name z (AList.mem_lookup_iff.mpr hmem)
  rw [hkeys]
  exact self.zones.keys_nodup

@[simp] lemma getZone_putZone (zone : Zone) :
    (self.putZone zone).getZone zone.name = some zone := AList.lookup_insert _

lemma getZone_putZone_ne {zone : Zone} {name : String} (h : name ≠ zone.name) :
    (self.putZone zone).getZone name = self.getZone name := AList.lookup_insert_ne h

@[simp] lemma getZone_deleteZone (name : String) : (self.deleteZone name).getZone name = none :=
  AList.lookup_erase _ _

lemma getZone_deleteZone_ne {name name' : String} (h : name' ≠ name) :
    (self.deleteZone name).getZone name' = self.getZone name' := AList.lookup_erase_ne h

end Metadata

/-! ## The registry -/

/-- The daemon: what is stored, what the backend has, and the handles of the zones it can use. -/
structure Daemon where
  store : Metadata
  host : Host
  handles : AList fun _ : String => ZoneHandle

/-- The part of the backend that start-up works on. -/
def Daemon.linux (self : Daemon) : Linux := self.host.toLinux

def Daemon.withLinux (self : Daemon) (linux : Linux) : Daemon :=
  { self with host := self.host.withLinux linux }

abbrev DaemonM := Prog Daemon RauhaError

namespace Registry

section

variable (cfg : Config) (env : Env)

/-- A program of the backend. -/
def backend {α : Type} (c : HostM α) : DaemonM α :=
  .zoom Daemon.host (fun self host => { self with host := host }) c

/-- One step on the metadata store. -/
def storeCall (name : String) (site : Site) (f : Metadata → Metadata) : DaemonM Unit :=
  .judged (env.verdict .Registry name site) (.MetadataError "transaction failed") fun self =>
    { self with store := f self.store }

/-- The handle of a persisted zone, before its cgroup is known. -/
def handleOf (zone : Zone) : ZoneHandle := ⟨zone.id, zone.name, 0, zone.networkState⟩

/-- The inode of a zone's cgroup, or zero if it cannot be read. -/
def liveCgroupId (name : String) (self : Daemon) : ℕ :=
  match env.verdict .Registry name .StatCgroup, self.linux.slice.get name with
  | .ok, some cg => cg.ino
  | _, _ => 0

/-- One persisted zone.  A recovery that fails leaves the zone without a handle. -/
def reconcileZone (zone : Zone) : DaemonM Unit := do
  let recovered ← .attempt
    (backend (onLinux (recoverZone cfg env (handleOf zone) zone.zoneType zone.policy)))
  (match recovered with
  | .error _ => pure ()
  | .ok _ => do
    .update fun self =>
      { self with
        handles := self.handles.insert zone.name
          { handleOf zone with platformId := liveCgroupId env zone.name self } }
    storeCall env zone.name .ListContainers id)

def reconcileZones : List Zone → DaemonM Unit
  | [] => pure ()
  | zone :: rest => do
    reconcileZone cfg env zone
    reconcileZones rest

/-- Start-up: every persisted zone, then what belongs to none of them. -/
def reconcile (listing namespaces : List String) : DaemonM Unit := do
  storeCall env "" .ListZones id
  let self ← .getState
  let zones := self.store.listZones
  reconcileZones cfg env zones
  backend (onLinux (cleanupOrphans env (zones.map Zone.name) listing namespaces))

end

/-! ### Requests -/

variable (cfg : HostConfig) (env : HostEnv)

def createZone (name : String) (zoneType : ZoneType) (policy : FullPolicy) (uuid : ℕ) :
    DaemonM Zone := do
  .ofExcept (validateZoneName name)
  storeCall env.toEnv name .GetZone id
  let self ← .getState
  .failIf (self.store.getZone name).isSome (.ZoneAlreadyExists name)
  let handle ← backend
    (Host.createZone cfg env ⟨name, zoneType, policy.toZonePolicy⟩ policy.resources uuid)
  let enforced ← .attempt (backend (Host.enforcePolicy cfg env handle policy))
  (match enforced with
  | .ok _ => pure ()
  | .error e => do
    .ignore (backend (Host.destroyZone env handle))
    .raise e)
  let zone : Zone := ⟨handle.id, name, zoneType, policy.toZonePolicy, handle.networkState⟩
  storeCall env.toEnv name .PutZone fun store => store.putZone zone
  .update fun self => { self with handles := self.handles.insert name handle }
  pure zone

/-- The containers of a deleted zone, one after the other. -/
def forgetContainers (env : Env) : List Container → DaemonM Unit
  | [] => pure ()
  | container :: rest => do
    storeCall env (toString container.id) .RemoveLogs id
    storeCall env (toString container.id) .DeleteContainer fun store =>
      store.deleteContainer container.id
    forgetContainers env rest

/-- Stopping the containers of a zone first is left to the drain that follows. -/
def deleteZone (name : String) (force : Bool) : DaemonM Unit := do
  storeCall env.toEnv name .GetZone id
  let self ← .getState
  let zone ← .ofExcept
    (match self.store.getZone name with
    | some zone => .ok zone
    | none => .error (.ZoneNotFound name))
  let handle ← .ofExcept
    (match self.handles.lookup name with
    | some handle => .ok handle
    | none => .error
        (.BackendError ("zone " ++ name ++ " has no recovered backend handle")))
  storeCall env.toEnv name .ListContainers id
  let containers := self.store.listContainers (some zone.id)
  .failIf (containers ≠ [] ∧ force = false) (.ZoneNotEmpty containers.length)
  backend (Host.destroyZone env handle)
  forgetContainers env.toEnv containers
  storeCall env.toEnv name .DeleteZone fun store => store.deleteZone name
  .update fun self => { self with handles := self.handles.erase name }

end Registry

end Rauha
