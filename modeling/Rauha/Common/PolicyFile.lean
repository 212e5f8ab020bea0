import Rauha.Backend.Capabilities
import Rauha.Library.Toml
import Rauha.Network.Endpoint

/-!
# Policy files

A policy is written by hand as a TOML file.  `PolicyFile` is what the file says: sections and fields
that may be missing, and no others.  `toZonePolicy` fills in what is missing and checks what is
there: capabilities must be known, network targets must be addresses, sizes must be numbers.

The Unicode tables and the reading of IP addresses are parameters, as they are elsewhere.
-/

namespace Rauha

open Toml

/-! ## Policies in full -/

structure ResourcePolicy where
  cpuShares : UInt64
  memoryLimit : UInt64
  ioWeight : UInt16
  pidsMax : UInt64
  deriving DecidableEq, Repr

def ResourcePolicy.default : ResourcePolicy := ⟨1024, 512 * 1024 * 1024, 100, 256⟩

/-- A policy with all its fields. -/
structure FullPolicy extends ZonePolicy where
  resources : ResourcePolicy
  /-- `filesystem.root`. -/
  root : String
  /-- `filesystem.shared_layers`. -/
  sharedLayers : Bool
  /-- `syscalls.deny`. -/
  deny : List String
  /-- `syscalls.broker`. -/
  broker : List String
  deriving DecidableEq, Repr

/-! ## What a file says -/

structure PolicyFileResources where
  cpuShares : Option UInt64
  memoryLimit : Option String
  ioWeight : Option UInt16
  pidsMax : Option UInt64
  deriving DecidableEq, Repr

structure PolicyFileNetwork where
  mode : Option String
  allowedZones : Option (List String)
  allowedEgress : Option (List String)
  allowedIngress : Option (List String)
  deriving DecidableEq, Repr

structure PolicyFileFilesystem where
  root : Option String
  sharedLayers : Option Bool
  writablePaths : Option (List String)
  deriving DecidableEq, Repr

structure PolicyFileSyscalls where
  deny : Option (List String)
  broker : Option (List String)
  deriving DecidableEq, Repr

structure PolicyFileZone where
  name : String
  zoneType : String
  deriving DecidableEq, Repr

structure PolicyFile where
  zone : PolicyFileZone
  /-- `admission.mode`. -/
  admission : Option String
  /-- `capabilities.allowed`. -/
  capabilities : Option (List String)
  resources : Option PolicyFileResources
  network : Option PolicyFileNetwork
  filesystem : Option PolicyFileFilesystem
  /-- `devices.allowed`. -/
  devices : Option (List String)
  syscalls : Option PolicyFileSyscalls
  deriving DecidableEq, Repr

/-! ## Reading it -/

/-- A table without unknown fields. -/
def asFields (known : List String) : Data → Option (List (String × Data))
  | .table fields => if fields.all fun f => known.contains f.1 then some fields else none
  | _ => none

def optionalField {α : Type} (read : Data → Option α) (key : String)
    (fields : List (String × Data)) : Option (Option α) :=
  match fields.lookup key with
  | none => some none
  | some d => (read d).map some

def requiredField {α : Type} (read : Data → Option α) (key : String)
    (fields : List (String × Data)) : Option α :=
  (fields.lookup key).bind read

def asText : Data → Option String
  | .string s => some s
  | _ => none

def asTexts : Data → Option (List String)
  | .array items => items.mapM asText
  | _ => none

def asBool : Data → Option Bool
  | .boolean b => some b
  | _ => none

/-- An integer of TOML has 64 bits with its sign. -/
def asUnsigned (bound : ℕ) : Data → Option ℕ
  | .integer n => if 0 ≤ n ∧ n < 2 ^ 63 ∧ n < bound then some n.toNat else none
  | _ => none

def asUInt64 (d : Data) : Option UInt64 := (asUnsigned (2 ^ 64) d).map UInt64.ofNat

def asUInt16 (d : Data) : Option UInt16 := (asUnsigned (2 ^ 16) d).map .ofNat

def PolicyFileZone.ofData (d : Data) : Option PolicyFileZone := do
  let fields ← asFields ["name", "type"] d
  some {
    name := ← requiredField asText "name" fields
    zoneType := (← optionalField asText "type" fields).getD "non-global" }

def PolicyFileResources.ofData (d : Data) : Option PolicyFileResources := do
  let fields ← asFields ["cpu_shares", "memory_limit", "io_weight", "pids_max"] d
  some {
    cpuShares := ← optionalField asUInt64 "cpu_shares" fields
    memoryLimit := ← optionalField asText "memory_limit" fields
    ioWeight := ← optionalField asUInt16 "io_weight" fields
    pidsMax := ← optionalField asUInt64 "pids_max" fields }

def PolicyFileNetwork.ofData (d : Data) : Option PolicyFileNetwork := do
  let fields ← asFields ["mode", "allowed_zones", "allowed_egress", "allowed_ingress"] d
  some {
    mode := ← optionalField asText "mode" fields
    allowedZones := ← optionalField asTexts "allowed_zones" fields
    allowedEgress := ← optionalField asTexts "allowed_egress" fields
    allowedIngress := ← optionalField asTexts "allowed_ingress" fields }

def PolicyFileFilesystem.ofData (d : Data) : Option PolicyFileFilesystem := do
  let fields ← asFields ["root", "shared_layers", "writable_paths"] d
  some {
    root := ← optionalField asText "root" fields
    sharedLayers := ← optionalField asBool "shared_layers" fields
    writablePaths := ← optionalField asTexts "writable_paths" fields }

def PolicyFileSyscalls.ofData (d : Data) : Option PolicyFileSyscalls := do
  let fields ← asFields ["deny", "broker"] d
  some {
    deny := ← optionalField asTexts "deny" fields
    broker := ← optionalField asTexts "broker" fields }

/-- A section of which one field is all. -/
def onlyField {α : Type} (read : Data → Option α) (key : String) (d : Data) : Option α :=
  (asFields [key] d).bind (requiredField read key)

def PolicyFile.ofData (d : Data) : Option PolicyFile := do
  let fields ← asFields ["zone", "admission", "capabilities", "resources", "network", "filesystem",
    "devices", "syscalls"] d
  some {
    zone := ← requiredField PolicyFileZone.ofData "zone" fields
    admission := ← optionalField (onlyField asText "mode") "admission" fields
    capabilities := ← optionalField (onlyField asTexts "allowed") "capabilities" fields
    resources := ← optionalField PolicyFileResources.ofData "resources" fields
    network := ← optionalField PolicyFileNetwork.ofData "network" fields
    filesystem := ← optionalField PolicyFileFilesystem.ofData "filesystem" fields
    devices := ← optionalField (onlyField asTexts "allowed") "devices" fields
    syscalls := ← optionalField PolicyFileSyscalls.ofData "syscalls" fields }

/-! ## Filling it in -/

/-- The units of a memory size, in the order in which they are tried. -/
def memoryUnits : List (String × UInt64) :=
  [("Gi", 1024 * 1024 * 1024), ("Mi", 1024 * 1024), ("Ki", 1024), ("G", 1000 * 1000 * 1000),
    ("M", 1000 * 1000)]

/-- Why a text is no number up to a bound: a character that is no digit, unless the digits before it
    lead past the bound already. -/
def parseIntError (bound : ℕ) (text : List Char) : String :=
  let digits := if text.head? = some '+' then text.tail else text
  if text = [] then "cannot parse integer from empty string"
  else if bound < Nat.ofDigitChars 10 (digits.takeWhile Char.isDigit) 0 then
    "number too large to fit in target type"
  else "invalid digit found in string"

def parseSize (digits : List Char) (unit : UInt64) : Except RauhaError UInt64 :=
  match Text.parseUnsigned (2 ^ 64 - 1) digits with
  | some n => .ok (UInt64.ofNat n * unit)
  | none => .error (.InvalidPolicy ("bad memory size: " ++ parseIntError (2 ^ 64 - 1) digits))

def parseMemorySize (s : String) : Except RauhaError UInt64 :=
  let s := Text.trim s.toList
  match memoryUnits.findSome? fun u => (Text.stripSuffix u.1.toList s).map (·, u.2) with
  | some (digits, unit) => parseSize digits unit
  | none => parseSize s 1

def parseAdmission : Option String → Except RauhaError PolicyAdmission
  | none => .ok .Strict
  | some mode =>
    if mode = "strict" then .ok .Strict
    else if mode = "audit" then .ok .Audit
    else .error (.InvalidPolicy ("unknown admission mode: " ++ mode))

def parseNetworkMode : Option String → Except RauhaError NetworkMode
  | none => .ok .Isolated
  | some mode =>
    if mode = "isolated" then .ok .Isolated
    else if mode = "bridged" then .ok .Bridged
    else if mode = "host" then .ok .Host
    else .error (.InvalidPolicy ("unknown network mode: " ++ mode))

def parseZoneType (zoneType : String) : Except RauhaError ZoneType :=
  if zoneType = "non-global" then .ok .NonGlobal
  else if zoneType = "privileged" then .ok .Privileged
  else if zoneType = "global" then .ok .Global
  else .error (.InvalidPolicy ("unknown zone type: " ++ zoneType))

variable (toUppercase : String → String) (std : IpText)

/-- The first target that is none is named. -/
def checkTargets : List String → Except RauhaError Unit
  | [] => .ok ()
  | target :: rest =>
    match NetworkEndpoint.fromStr std target with
    | .ok _ => checkTargets rest
    | .error error =>
      .error (.InvalidPolicy ("invalid network target " ++ target.quote ++ ": " ++ error))

def toNetworkPolicy : Option PolicyFileNetwork → Except RauhaError NetworkPolicy
  | none => .ok ⟨.Isolated, [], [], []⟩
  | some n => do
    let mode ← parseNetworkMode n.mode
    let allowedEgress := n.allowedEgress.getD []
    let allowedIngress := n.allowedIngress.getD []
    checkTargets std (allowedEgress ++ allowedIngress)
    .ok ⟨mode, n.allowedZones.getD [], allowedEgress, allowedIngress⟩

def parseMemoryLimit : Option String → Except RauhaError UInt64
  | none => .ok (512 * 1024 * 1024)
  | some size => parseMemorySize size

def toResourcePolicy : Option PolicyFileResources → Except RauhaError ResourcePolicy
  | none => .ok .default
  | some r => do
    let memoryLimit ← parseMemoryLimit r.memoryLimit
    .ok ⟨r.cpuShares.getD 1024, memoryLimit, r.ioWeight.getD 100, r.pidsMax.getD 256⟩

def PolicyFile.toZonePolicy (file : PolicyFile) (baseRoot : String) :
    Except RauhaError FullPolicy := do
  let _ ← parseZoneType file.zone.zoneType
  let admission ← parseAdmission file.admission
  let _ ← capabilitiesToMask toUppercase (file.capabilities.getD [])
  let resources ← toResourcePolicy file.resources
  let network ← toNetworkPolicy std file.network
  let defaultRoot := baseRoot ++ "/zones/" ++ file.zone.name
  .ok {
    admission := admission
    capabilities := file.capabilities.getD []
    network := network
    writablePaths := (file.filesystem.bind PolicyFileFilesystem.writablePaths).getD []
    devices := file.devices.getD []
    resources := resources
    root := (file.filesystem.bind PolicyFileFilesystem.root).getD defaultRoot
    sharedLayers := (file.filesystem.bind PolicyFileFilesystem.sharedLayers).getD true
    deny := (file.syscalls.bind PolicyFileSyscalls.deny).getD []
    broker := (file.syscalls.bind PolicyFileSyscalls.broker).getD [] }

end Rauha
