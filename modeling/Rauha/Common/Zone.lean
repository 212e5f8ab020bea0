import Mathlib.Tactic

/-!
# Zones and their policies

The types the backend, the registry and the sandbox service share.  A field is here if a function
of this development reads it: of a policy that is the admission mode, the network mode and its
targets, and the paths, devices and capabilities that admission looks at.

An IPv4 address is kept as the number its four octets spell.
-/

namespace Rauha

/-- Errors, with the texts the source gives them up to what the operating system adds. -/
inductive RauhaError where
  | ZoneNotFound (name : String)
  | ZoneAlreadyExists (name : String)
  | ZoneNotEmpty (count : ℕ)
  | InvalidInput (message : String)
  | InvalidPolicy (message : String)
  | BackendError (message : String)
  | MetadataError (message : String)
  | EbpfError (message : String)
  | CgroupError (message : String)
  | NamespaceError (message : String)
  | NetworkError (message : String)
  | RootfsError (message : String)
  | Io
  deriving DecidableEq, Repr

inductive ZoneType where
  | Global
  | NonGlobal
  | Privileged
  deriving DecidableEq, Repr

/-- Whether a backend must reject controls it cannot enforce. -/
inductive PolicyAdmission where
  | Strict
  | Audit
  deriving DecidableEq, Repr

inductive NetworkMode where
  | Isolated
  | Bridged
  | Host
  deriving DecidableEq, Repr

structure NetworkPolicy where
  mode : NetworkMode
  allowedZones : List String
  allowedEgress : List String
  allowedIngress : List String
  deriving DecidableEq, Repr

structure ZonePolicy where
  admission : PolicyAdmission
  /-- `capabilities.allowed`. -/
  capabilities : List String
  network : NetworkPolicy
  /-- `filesystem.writable_paths`. -/
  writablePaths : List String
  /-- `devices.allowed`. -/
  devices : List String
  deriving DecidableEq, Repr

/-- The network state assigned to a zone at creation time. -/
structure ZoneNetworkState where
  ip : UInt32
  gateway : UInt32
  prefixLen : ℕ
  deriving DecidableEq, Repr

/-- A zone as the metadata store keeps it. -/
structure Zone where
  id : ℕ
  name : String
  zoneType : ZoneType
  policy : ZonePolicy
  networkState : Option ZoneNetworkState
  deriving DecidableEq, Repr

/-- A zone as the backend is given it; `platformId` is the inode of its cgroup. -/
structure ZoneHandle where
  id : ℕ
  name : String
  platformId : ℕ
  networkState : Option ZoneNetworkState
  deriving DecidableEq, Repr

structure ZoneConfig where
  name : String
  zoneType : ZoneType
  policy : ZonePolicy
  deriving DecidableEq, Repr

/-- A zone name is safe in a path: no separators, not a dot directory, and not too long. -/
def validateZoneName (name : String) : Except RauhaError Unit :=
  if name.isEmpty then .error (.InvalidInput "zone name cannot be empty")
  else if name.toList.contains '/' || name.toList.contains '\\' || name.toList.contains '\x00' then
    .error (.InvalidInput "zone name must not contain path separators")
  else if name = "." || name = ".." then
    .error (.InvalidInput "zone name must not be '.' or '..'")
  else if 128 < name.utf8ByteSize then
    .error (.InvalidInput "zone name must be 128 characters or fewer")
  else .ok ()

end Rauha
