import Rauha.Common.PolicyFile
import Rauha.Library.CrashLogic
import Rauha.Library.TomlReader

/-!
# Policies as text

`parsePolicy` reads a policy file and `policyToToml` shows the policy of a zone, in a form that is
meant to be edited and applied again.  The text is put together by hand: strings go between quotes
as they are, and of the system calls only those that are denied are shown.

`policy_display_iff` says for which policies the text reads back: for those without brokered system
calls all of whose strings are plain.
-/

namespace Rauha.PolicyText

open Toml CrashLogic List Option

variable (toml : Reader) (toUppercase : String → String) (std : IpText)

/-! ## Reading and showing -/

/-- The message of the TOML reader is left out. -/
def parsePolicy (text baseRoot : String) : Except RauhaError (ZoneType × FullPolicy) :=
  match (toml.read text.toList).bind PolicyFile.ofData with
  | none => .error (.InvalidPolicy "")
  | some file => do
    let zoneType ← parseZoneType file.zone.zoneType
    let policy ← file.toZonePolicy toUppercase std baseRoot
    .ok (zoneType, policy)

def zoneTypeText : ZoneType → String
  | .Global => "global"
  | .NonGlobal => "non-global"
  | .Privileged => "privileged"

def networkModeText : NetworkMode → String
  | .Isolated => "isolated"
  | .Bridged => "bridged"
  | .Host => "host"

def admissionText : PolicyAdmission → String
  | .Strict => "strict"
  | .Audit => "audit"

def formatMemorySize (bytes : UInt64) : String :=
  if bytes.toNat % (1024 * 1024 * 1024) = 0 then
    toString (bytes.toNat / (1024 * 1024 * 1024)) ++ "Gi"
  else if bytes.toNat % (1024 * 1024) = 0 then toString (bytes.toNat / (1024 * 1024)) ++ "Mi"
  else toString bytes.toNat

def join (separator : String) : List String → String
  | [] => ""
  | [s] => s
  | s :: rest => s ++ separator ++ join separator rest

/-- Strings between quotes, with a separator between them. -/
def quoteAll (lead separator : String) (items : List String) : String :=
  join separator (items.map fun s => lead ++ "\"" ++ s ++ "\"")

/-- A field of strings on one line. -/
def listLine (key : String) (items : List String) : String :=
  key ++ " = [" ++ quoteAll "" ", " items ++ "]\n"

def zoneText (name : String) (zoneType : ZoneType) : String :=
  "[zone]\nname = \"" ++ name ++ "\"\ntype = \"" ++ zoneTypeText zoneType ++ "\"\n"

def capabilitiesText (capabilities : List String) : String :=
  "[capabilities]\nallowed = [\n" ++ quoteAll "    " ",\n" capabilities ++ "\n]\n"

def resourcesText (resources : ResourcePolicy) : String :=
  "[resources]\ncpu_shares = " ++ toString resources.cpuShares.toNat ++
  "\nmemory_limit = \"" ++ formatMemorySize resources.memoryLimit ++
  "\"\nio_weight = " ++ toString resources.ioWeight.toNat ++
  "\npids_max = " ++ toString resources.pidsMax.toNat ++ "\n"

def networkText (network : NetworkPolicy) : String :=
  "[network]\nmode = \"" ++ networkModeText network.mode ++ "\"\n" ++
  listLine "allowed_zones" network.allowedZones ++
  listLine "allowed_egress" network.allowedEgress ++
  listLine "allowed_ingress" network.allowedIngress

def filesystemText (policy : FullPolicy) : String :=
  "[filesystem]\nroot = \"" ++ policy.root ++
  "\"\nshared_layers = " ++ toString policy.sharedLayers ++ "\n" ++
  listLine "writable_paths" policy.writablePaths

/-- The sections, with an empty line between them. -/
def policyToToml (name : String) (zoneType : ZoneType) (policy : FullPolicy) : String :=
  zoneText name zoneType ++ "\n" ++
  ("[admission]\nmode = \"" ++ admissionText policy.admission ++ "\"\n") ++ "\n" ++
  capabilitiesText policy.capabilities ++ "\n" ++
  resourcesText policy.resources ++ "\n" ++
  networkText policy.network ++ "\n" ++
  filesystemText policy ++ "\n" ++
  ("[devices]\n" ++ listLine "allowed" policy.devices) ++ "\n" ++
  ("[syscalls]\n" ++ listLine "deny" policy.deny)

/-! ## The text as a document -/

def zoneTable (name : String) (zoneType : ZoneType) : Table :=
  ⟨"zone", [("name", .string name), ("type", .string (zoneTypeText zoneType))]⟩

def admissionTable (admission : PolicyAdmission) : Table :=
  ⟨"admission", [("mode", .string (admissionText admission))]⟩

def capabilitiesTable (capabilities : List String) : Table :=
  ⟨"capabilities", [("allowed", .strings .block capabilities)]⟩

def resourcesTable (resources : ResourcePolicy) : Table :=
  ⟨"resources", [
    ("cpu_shares", .number resources.cpuShares.toNat),
    ("memory_limit", .string (formatMemorySize resources.memoryLimit)),
    ("io_weight", .number resources.ioWeight.toNat),
    ("pids_max", .number resources.pidsMax.toNat)]⟩

def networkTable (network : NetworkPolicy) : Table :=
  ⟨"network", [
    ("mode", .string (networkModeText network.mode)),
    ("allowed_zones", .strings .inline network.allowedZones),
    ("allowed_egress", .strings .inline network.allowedEgress),
    ("allowed_ingress", .strings .inline network.allowedIngress)]⟩

def filesystemTable (policy : FullPolicy) : Table :=
  ⟨"filesystem", [
    ("root", .string policy.root),
    ("shared_layers", .boolean policy.sharedLayers),
    ("writable_paths", .strings .inline policy.writablePaths)]⟩

def devicesTable (devices : List String) : Table :=
  ⟨"devices", [("allowed", .strings .inline devices)]⟩

def syscallsTable (deny : List String) : Table := ⟨"syscalls", [("deny", .strings .inline deny)]⟩

def policyDoc (name : String) (zoneType : ZoneType) (policy : FullPolicy) : List Table :=
  [zoneTable name zoneType, admissionTable policy.admission,
    capabilitiesTable policy.capabilities, resourcesTable policy.resources,
    networkTable policy.network, filesystemTable policy, devicesTable policy.devices,
    syscallsTable policy.deny]

/-- Items with separators between them, as a document lays them out. -/
lemma toList_quoteAll {l : Layout} {lead separator : String}
    (hsep : l.separator = separator.toList ++ lead.toList) (s : String) (rest : List String) :
    (quoteAll lead separator (s :: rest)).toList ++ l.closeText =
      lead.toList ++ quote s ++ l.renderItems rest := by
  induction rest generalizing s with
  | nil => simp [quoteAll, join, quote, Layout.renderItems]
  | cons r rest ih =>
    have hcons : quoteAll lead separator (s :: r :: rest) =
        lead ++ "\"" ++ s ++ "\"" ++ separator ++ quoteAll lead separator (r :: rest) := rfl
    rw [hcons, String.toList_append, append_assoc, ih, Layout.renderItems, hsep]
    simp [quote]

lemma render_inline (items : List String) : (Value.strings .inline items).render =
    '[' :: ((quoteAll "" ", " items).toList ++ [']']) := by
  cases items with
  | nil => rfl
  | cons s rest =>
    have h := @toList_quoteAll .inline "" ", " rfl s rest
    show '[' :: (quote s ++ Layout.inline.renderItems rest) = _
    rw [show [']'] = Layout.inline.closeText from rfl, h]
    rfl

lemma render_block (items : List String) : (Value.strings .block items).render =
    '[' :: '\n' :: ((quoteAll "    " ",\n" items).toList ++ ['\n', ']']) := by
  cases items with
  | nil => rfl
  | cons s rest =>
    have h := @toList_quoteAll .block "    " ",\n" rfl s rest
    show '[' :: '\n' :: ("    ".toList ++ quote s ++ Layout.block.renderItems rest) = _
    rw [show ['\n', ']'] = Layout.block.closeText from rfl, h]

lemma toList_listLine (key : String) (items : List String) :
    (listLine key items).toList = renderField (key, .strings .inline items) := by
  simp [listLine, renderField, renderKey, render_inline]

attribute [local simp] Table.render renderHeader renderField renderKey Value.render quote

lemma toList_zoneText (name : String) (zoneType : ZoneType) :
    (zoneText name zoneType).toList = (zoneTable name zoneType).render := by
  unfold zoneText zoneTable
  simp

lemma toList_admissionText (admission : PolicyAdmission) :
    ("[admission]\nmode = \"" ++ admissionText admission ++ "\"\n").toList =
      (admissionTable admission).render := by
  unfold admissionTable
  simp

lemma toList_capabilitiesText (capabilities : List String) :
    (capabilitiesText capabilities).toList = (capabilitiesTable capabilities).render := by
  unfold capabilitiesText capabilitiesTable
  simp [render_block, -Value.render]

lemma toList_resourcesText (resources : ResourcePolicy) :
    (resourcesText resources).toList = (resourcesTable resources).render := by
  unfold resourcesText resourcesTable
  simp

lemma toList_networkText (network : NetworkPolicy) :
    (networkText network).toList = (networkTable network).render := by
  unfold networkText networkTable
  simp [toList_listLine]

lemma toList_filesystemText (policy : FullPolicy) :
    (filesystemText policy).toList = (filesystemTable policy).render := by
  unfold filesystemText filesystemTable
  simp [toList_listLine]

/-- A section of one list. -/
lemma toList_listTable (name key : String) (items : List String) :
    ("[" ++ name ++ "]\n" ++ listLine key items).toList =
      Table.render ⟨name, [(key, .strings .inline items)]⟩ := by
  simp [toList_listLine, Table.render, renderHeader]

/-- **The text is that of a document.** -/
lemma toList_policyToToml (name : String) (zoneType : ZoneType) (policy : FullPolicy) :
    (policyToToml name zoneType policy).toList = render (policyDoc name zoneType policy) := by
  have hdevices : ("[devices]\n" ++ listLine "allowed" policy.devices).toList =
      (devicesTable policy.devices).render := toList_listTable "devices" "allowed" policy.devices
  have hsyscalls : ("[syscalls]\n" ++ listLine "deny" policy.deny).toList =
      (syscallsTable policy.deny).render := toList_listTable "syscalls" "deny" policy.deny
  have hadmission := toList_admissionText policy.admission
  have happend : ∀ a b : String, (a ++ "\n" ++ b).toList = a.toList ++ '\n' :: b.toList := by simp
  unfold policyToToml policyDoc
  simp only [happend, hdevices, hsyscalls, hadmission, toList_zoneText, toList_capabilitiesText,
    toList_resourcesText, toList_networkText, toList_filesystemText, render, append_assoc,
    cons_append]

/-! ## Reading it back -/

/-- What the document says, as a file. -/
def policyFile (name : String) (zoneType : ZoneType) (policy : FullPolicy) : PolicyFile where
  zone := ⟨name, zoneTypeText zoneType⟩
  admission := some (admissionText policy.admission)
  capabilities := some policy.capabilities
  resources := some ⟨some policy.resources.cpuShares,
    some (formatMemorySize policy.resources.memoryLimit), some policy.resources.ioWeight,
    some policy.resources.pidsMax⟩
  network := some ⟨some (networkModeText policy.network.mode), some policy.network.allowedZones,
    some policy.network.allowedEgress, some policy.network.allowedIngress⟩
  filesystem := some ⟨some policy.root, some policy.sharedLayers, some policy.writablePaths⟩
  devices := some policy.devices
  syscalls := some ⟨some policy.deny, none⟩

lemma asTexts_strings (items : List String) :
    asTexts (.array (items.map .string)) = some items := by
  show (items.map .string).mapM asText = some items
  induction items with
  | nil => rfl
  | cons s items ih =>
    rw [map_cons, mapM_cons, ih]
    rfl

lemma asUInt64_toNat {n : UInt64} (h : n.toNat < 2 ^ 63) :
    asUInt64 (.integer n.toNat) = some n := by
  have hbound : (0 : ℤ) ≤ n.toNat ∧ (n.toNat : ℤ) < 2 ^ 63 ∧ (n.toNat : ℤ) < (2 ^ 64 : ℕ) := by
    omega
  rw [asUInt64, asUnsigned, if_pos hbound]
  simp

lemma asUInt16_toNat (n : UInt16) : asUInt16 (.integer n.toNat) = some n := by
  have hlt := n.toNat_lt
  have hbound : (0 : ℤ) ≤ n.toNat ∧ (n.toNat : ℤ) < 2 ^ 63 ∧ (n.toNat : ℤ) < (2 ^ 16 : ℕ) := by
    omega
  rw [asUInt16, asUnsigned, if_pos hbound]
  simp

variable {d x : Data} {file : PolicyFile} {fields : List (String × Data)} {baseRoot key : String}
  {α : Type} {read : Data → Option α} {name : String} {zoneType : ZoneType} {policy : FullPolicy}

lemma optionalField_some {v : α} (h : fields.lookup key = some d) (hread : read d = some v) :
    optionalField read key fields = some (some v) := by
  rw [optionalField, h]
  simp [hread]

/-- The list that a field of a document is read as. -/
lemma optionalField_strings {l : Layout} {items : List String}
    (h : fields.lookup key = some (Value.strings l items).data) :
    optionalField asTexts key fields = some (some items) :=
  optionalField_some h (asTexts_strings items)

lemma onlyField_strings (name key : String) (l : Layout) (items : List String) :
    onlyField asTexts key (tableData ⟨name, [(key, .strings l items)]⟩).2 = some items := by
  have hfields : asFields [key] (tableData ⟨name, [(key, .strings l items)]⟩).2 =
      some [(key, .array (items.map .string))] := by
    simp [asFields, tableData, fieldData, Value.data]
  rw [onlyField, hfields, bind_some, requiredField, lookup_cons_self, bind_some, asTexts_strings]

/-! ### Sections, field by field -/

lemma ofData_resources {r : PolicyFileResources} : PolicyFileResources.ofData d = some r ↔
    ∃ fs, asFields ["cpu_shares", "memory_limit", "io_weight", "pids_max"] d = some fs ∧
      optionalField asUInt64 "cpu_shares" fs = some r.cpuShares ∧
      optionalField asText "memory_limit" fs = some r.memoryLimit ∧
      optionalField asUInt16 "io_weight" fs = some r.ioWeight ∧
      optionalField asUInt64 "pids_max" fs = some r.pidsMax := by
  simp only [PolicyFileResources.ofData, bind_eq_bind, bind_eq_some_iff]
  constructor
  · rintro ⟨fs, hfs, _, hcpu, _, hmemory, _, hio, _, hpids, ⟨⟩⟩
    exact ⟨fs, hfs, hcpu, hmemory, hio, hpids⟩
  · rintro ⟨fs, hfs, hcpu, hmemory, hio, hpids⟩
    exact ⟨fs, hfs, _, hcpu, _, hmemory, _, hio, _, hpids, rfl⟩

lemma ofData_network {n : PolicyFileNetwork} : PolicyFileNetwork.ofData d = some n ↔
    ∃ fs, asFields ["mode", "allowed_zones", "allowed_egress", "allowed_ingress"] d = some fs ∧
      optionalField asText "mode" fs = some n.mode ∧
      optionalField asTexts "allowed_zones" fs = some n.allowedZones ∧
      optionalField asTexts "allowed_egress" fs = some n.allowedEgress ∧
      optionalField asTexts "allowed_ingress" fs = some n.allowedIngress := by
  simp only [PolicyFileNetwork.ofData, bind_eq_bind, bind_eq_some_iff]
  constructor
  · rintro ⟨fs, hfs, _, hmode, _, hzones, _, hegress, _, hingress, ⟨⟩⟩
    exact ⟨fs, hfs, hmode, hzones, hegress, hingress⟩
  · rintro ⟨fs, hfs, hmode, hzones, hegress, hingress⟩
    exact ⟨fs, hfs, _, hmode, _, hzones, _, hegress, _, hingress, rfl⟩

lemma ofData_filesystem {f : PolicyFileFilesystem} : PolicyFileFilesystem.ofData d = some f ↔
    ∃ fs, asFields ["root", "shared_layers", "writable_paths"] d = some fs ∧
      optionalField asText "root" fs = some f.root ∧
      optionalField asBool "shared_layers" fs = some f.sharedLayers ∧
      optionalField asTexts "writable_paths" fs = some f.writablePaths := by
  simp only [PolicyFileFilesystem.ofData, bind_eq_bind, bind_eq_some_iff]
  constructor
  · rintro ⟨fs, hfs, _, hroot, _, hshared, _, hpaths, ⟨⟩⟩
    exact ⟨fs, hfs, hroot, hshared, hpaths⟩
  · rintro ⟨fs, hfs, hroot, hshared, hpaths⟩
    exact ⟨fs, hfs, _, hroot, _, hshared, _, hpaths, rfl⟩

lemma ofData_syscalls {c : PolicyFileSyscalls} : PolicyFileSyscalls.ofData d = some c ↔
    ∃ fs, asFields ["deny", "broker"] d = some fs ∧ optionalField asTexts "deny" fs = some c.deny ∧
      optionalField asTexts "broker" fs = some c.broker := by
  simp only [PolicyFileSyscalls.ofData, bind_eq_bind, bind_eq_some_iff]
  constructor
  · rintro ⟨fs, hfs, _, hdeny, _, hbroker, ⟨⟩⟩
    exact ⟨fs, hfs, hdeny, hbroker⟩
  · rintro ⟨fs, hfs, hdeny, hbroker⟩
    exact ⟨fs, hfs, _, hdeny, _, hbroker, rfl⟩

/-- **What a file says, section by section.** -/
structure Sections (d : Data) (file : PolicyFile) (fields : List (String × Data)) : Prop where
  known : asFields ["zone", "admission", "capabilities", "resources", "network", "filesystem",
    "devices", "syscalls"] d = some fields
  zone : requiredField PolicyFileZone.ofData "zone" fields = some file.zone
  admission : optionalField (onlyField asText "mode") "admission" fields = some file.admission
  capabilities : optionalField (onlyField asTexts "allowed") "capabilities" fields =
    some file.capabilities
  resources : optionalField PolicyFileResources.ofData "resources" fields = some file.resources
  network : optionalField PolicyFileNetwork.ofData "network" fields = some file.network
  filesystem : optionalField PolicyFileFilesystem.ofData "filesystem" fields = some file.filesystem
  devices : optionalField (onlyField asTexts "allowed") "devices" fields = some file.devices
  syscalls : optionalField PolicyFileSyscalls.ofData "syscalls" fields = some file.syscalls

lemma ofData_sections : PolicyFile.ofData d = some file ↔ ∃ fields, Sections d file fields := by
  simp only [PolicyFile.ofData, bind_eq_bind, bind_eq_some_iff]
  constructor
  · rintro ⟨fs, hfs, _, hzone, _, hadmission, _, hcapabilities, _, hresources, _, hnetwork, _,
      hfilesystem, _, hdevices, _, hsyscalls, ⟨⟩⟩
    exact ⟨fs, hfs, hzone, hadmission, hcapabilities, hresources, hnetwork, hfilesystem, hdevices,
      hsyscalls⟩
  · rintro ⟨fs, h⟩
    exact ⟨fs, h.known, _, h.zone, _, h.admission, _, h.capabilities, _, h.resources, _, h.network,
      _, h.filesystem, _, h.devices, _, h.syscalls, rfl⟩

/-- The numbers of a policy that a document can hold. -/
structure Numbers (resources : ResourcePolicy) : Prop where
  cpuShares : resources.cpuShares.toNat < 2 ^ 63
  pidsMax : resources.pidsMax.toNat < 2 ^ 63

lemma ofData_resourcesTable {resources : ResourcePolicy} (h : Numbers resources) :
    PolicyFileResources.ofData (tableData (resourcesTable resources)).2 =
      some ⟨some resources.cpuShares, some (formatMemorySize resources.memoryLimit),
        some resources.ioWeight, some resources.pidsMax⟩ :=
  ofData_resources.mpr ⟨_, rfl, optionalField_some rfl (asUInt64_toNat h.cpuShares), rfl,
    optionalField_some rfl (asUInt16_toNat _), optionalField_some rfl (asUInt64_toNat h.pidsMax)⟩

lemma ofData_networkTable (network : NetworkPolicy) :
    PolicyFileNetwork.ofData (tableData (networkTable network)).2 =
      some ⟨some (networkModeText network.mode), some network.allowedZones,
        some network.allowedEgress, some network.allowedIngress⟩ :=
  ofData_network.mpr ⟨_, rfl, rfl, @optionalField_strings _ _ .inline _ rfl,
    @optionalField_strings _ _ .inline _ rfl, @optionalField_strings _ _ .inline _ rfl⟩

lemma ofData_filesystemTable (policy : FullPolicy) :
    PolicyFileFilesystem.ofData (tableData (filesystemTable policy)).2 =
      some ⟨some policy.root, some policy.sharedLayers, some policy.writablePaths⟩ :=
  ofData_filesystem.mpr ⟨_, rfl, rfl, rfl, @optionalField_strings _ _ .inline _ rfl⟩

lemma ofData_syscallsTable (deny : List String) :
    PolicyFileSyscalls.ofData (tableData (syscallsTable deny)).2 = some ⟨some deny, none⟩ :=
  ofData_syscalls.mpr ⟨_, rfl, @optionalField_strings _ _ .inline _ rfl, rfl⟩

/-- **The document is read as the file it stands for.** -/
lemma ofData_policyDoc (name : String) (zoneType : ZoneType) (h : Numbers policy.resources) :
    PolicyFile.ofData (data (policyDoc name zoneType policy)) =
      some (policyFile name zoneType policy) := by
  have hsections : Sections (data (policyDoc name zoneType policy))
      (policyFile name zoneType policy) ((policyDoc name zoneType policy).map tableData) :=
    { known := rfl
      zone := rfl
      admission := rfl
      capabilities := optionalField_some rfl (onlyField_strings "capabilities" "allowed" .block _)
      resources := optionalField_some rfl (ofData_resourcesTable h)
      network := optionalField_some rfl (ofData_networkTable policy.network)
      filesystem := optionalField_some rfl (ofData_filesystemTable policy)
      devices := optionalField_some rfl (onlyField_strings "devices" "allowed" .inline _)
      syscalls := optionalField_some rfl (ofData_syscallsTable policy.deny) }
  exact ofData_sections.mpr ⟨_, hsections⟩

/-! ## Sizes -/

lemma trim_digits_append (n : ℕ) {unit : List Char}
    (h : unit.all (!Text.isWhitespace ·) = true) :
    Text.trim (Nat.toDigits 10 n ++ unit) = Nat.toDigits 10 n ++ unit := by
  refine Text.trim_of_forall fun c hc => ?_
  rcases mem_append.mp hc with hc | hc
  · exact Text.isWhitespace_of_isDigit (Nat.isDigit_of_mem_toDigits (by omega) (le_refl _) hc)
  · simpa using all_eq_true.mp h c hc

lemma toList_size (n : ℕ) (unit : String) :
    (toString n ++ unit).toList = Nat.toDigits 10 n ++ unit.toList := by
  rw [String.toList_append, Nat.toString_eq_repr, Nat.toList_repr]

/-- A number of units. -/
lemma parseSize_digits {n : ℕ} {unit bytes : UInt64} (h : n * unit.toNat = bytes.toNat)
    (hunit : 0 < unit.toNat) : parseSize (Nat.toDigits 10 n) unit = .ok bytes := by
  have hle : n ≤ 2 ^ 64 - 1 := by
    have hlt := bytes.toNat_lt
    have hmul := Nat.le_mul_of_pos_right n hunit
    omega
  have hsame : UInt64.ofNat n * unit = bytes := by
    rw [← UInt64.toNat_inj, UInt64.toNat_mul, UInt64.toNat_ofNat', Nat.mod_mul_mod, h,
      Nat.mod_eq_of_lt bytes.toNat_lt]
  simp only [parseSize, Text.parseUnsigned_toDigits hle, hsame]

/-- Digits have no unit. -/
lemma stripSuffix_digits (n : ℕ) {unit : List Char} (h : ∃ c ∈ unit.getLast?, c.isDigit = false) :
    Text.stripSuffix unit (Nat.toDigits 10 n) = none := by
  obtain ⟨c, hlast, hc⟩ := h
  refine if_neg fun hsuffix => ?_
  have hdigit := Nat.isDigit_of_mem_toDigits (by omega) (le_refl _)
    (hsuffix.mem (mem_of_mem_getLast? hlast))
  rw [hc] at hdigit
  cases hdigit

/-- **A size reads back.** -/
lemma parseMemorySize_format (bytes : UInt64) :
    parseMemorySize (formatMemorySize bytes) = .ok bytes := by
  unfold formatMemorySize
  split_ifs with hgi hmi
  · simp only [parseMemorySize, toList_size, trim_digits_append _
      (show "Gi".toList.all (!Text.isWhitespace ·) = true by decide), memoryUnits,
      List.findSome?_cons, Text.stripSuffix_append, map_some]
    exact parseSize_digits (Nat.div_mul_cancel (Nat.dvd_of_mod_eq_zero hgi)) (by decide)
  · have hother : Text.stripSuffix "Gi".toList
        (Nat.toDigits 10 (bytes.toNat / (1024 * 1024)) ++ "Mi".toList) = none :=
      @Text.stripSuffix_of_ne _ _ _ [] rfl (by decide)
    simp only [parseMemorySize, toList_size, trim_digits_append _
      (show "Mi".toList.all (!Text.isWhitespace ·) = true by decide), memoryUnits,
      List.findSome?_cons, hother, Text.stripSuffix_append, map_some, map_none]
    exact parseSize_digits (Nat.div_mul_cancel (Nat.dvd_of_mod_eq_zero hmi)) (by decide)
  · have htext : (toString bytes.toNat).toList = Nat.toDigits 10 bytes.toNat := by
      simp [Nat.toString_eq_repr, Nat.toList_repr]
    have htrim := @trim_digits_append bytes.toNat [] rfl
    rw [append_nil] at htrim
    have hends : ∀ u ∈ memoryUnits, ∃ c ∈ u.1.toList.getLast?, c.isDigit = false := by
      simp [memoryUnits]
    have hunits : (memoryUnits.findSome? fun u =>
        (Text.stripSuffix u.1.toList (Nat.toDigits 10 bytes.toNat)).map (·, u.2)) = none := by
      rw [List.findSome?_eq_none_iff]
      intro u hu
      rw [stripSuffix_digits _ (hends u hu)]
      rfl
    simp only [parseMemorySize, htext, htrim, hunits]
    exact parseSize_digits (Nat.mul_one _) (by decide)

/-! ## What a policy that was read is like -/

/-- What the checks on a file say of the policy. -/
structure Checked (policy : FullPolicy) : Prop where
  capabilities : ∃ mask, capabilitiesToMask toUppercase policy.capabilities = .ok mask
  targets :
    checkTargets std (policy.network.allowedEgress ++ policy.network.allowedIngress) = .ok ()

/-- **The fields of a policy**, in terms of the file it comes from. -/
structure FromFile (file : PolicyFile) (baseRoot : String) (policy : FullPolicy) : Prop where
  checked : Checked toUppercase std policy
  admission : parseAdmission file.admission = .ok policy.admission
  capabilities : policy.capabilities = file.capabilities.getD []
  resources : toResourcePolicy file.resources = .ok policy.resources
  network : toNetworkPolicy std file.network = .ok policy.network
  writablePaths :
    policy.writablePaths = (file.filesystem.bind PolicyFileFilesystem.writablePaths).getD []
  devices : policy.devices = file.devices.getD []
  root : policy.root = (file.filesystem.bind PolicyFileFilesystem.root).getD
    (baseRoot ++ "/zones/" ++ file.zone.name)
  sharedLayers :
    policy.sharedLayers = (file.filesystem.bind PolicyFileFilesystem.sharedLayers).getD true
  deny : policy.deny = (file.syscalls.bind PolicyFileSyscalls.deny).getD []
  broker : policy.broker = (file.syscalls.bind PolicyFileSyscalls.broker).getD []

variable {toml toUppercase std}

lemma toNetworkPolicy_targets {network : Option PolicyFileNetwork} {policy : NetworkPolicy}
    (h : toNetworkPolicy std network = .ok policy) :
    checkTargets std (policy.allowedEgress ++ policy.allowedIngress) = .ok () ∧
      policy.allowedZones = (network.bind PolicyFileNetwork.allowedZones).getD [] ∧
      policy.allowedEgress = (network.bind PolicyFileNetwork.allowedEgress).getD [] ∧
      policy.allowedIngress = (network.bind PolicyFileNetwork.allowedIngress).getD [] := by
  cases network with
  | none =>
    cases h
    exact ⟨rfl, rfl, rfl, rfl⟩
  | some n =>
    obtain ⟨mode, -, h⟩ := ok_of_bind h
    obtain ⟨⟨⟩, htargets, h⟩ := ok_of_bind h
    cases h
    exact ⟨htargets, rfl, rfl, rfl⟩

lemma toZonePolicy_ok (h : file.toZonePolicy toUppercase std baseRoot = .ok policy) :
    FromFile toUppercase std file baseRoot policy := by
  obtain ⟨_, -, h⟩ := ok_of_bind h
  obtain ⟨admission, hadmission, h⟩ := ok_of_bind h
  obtain ⟨mask, hmask, h⟩ := ok_of_bind h
  obtain ⟨resources, hresources, h⟩ := ok_of_bind h
  obtain ⟨network, hnetwork, h⟩ := ok_of_bind h
  cases h
  exact ⟨⟨⟨mask, hmask⟩, (toNetworkPolicy_targets hnetwork).1⟩, hadmission, rfl, hresources,
    hnetwork, rfl, rfl, rfl, rfl, rfl, rfl⟩

/-- A policy that was read comes from a file. -/
lemma parsePolicy_ok {text baseRoot : String} {zoneType : ZoneType}
    (h : parsePolicy toml toUppercase std text baseRoot = .ok (zoneType, policy)) :
    ∃ d file, toml.read text.toList = some d ∧ PolicyFile.ofData d = some file ∧
      parseZoneType file.zone.zoneType = .ok zoneType ∧
      FromFile toUppercase std file baseRoot policy := by
  unfold parsePolicy at h
  split at h
  · cases h
  · rename_i file hfile
    obtain ⟨d, hd, hfile⟩ := bind_eq_some_iff.mp hfile
    obtain ⟨zoneType', hzoneType, h⟩ := ok_of_bind h
    obtain ⟨policy', hpolicy, h⟩ := ok_of_bind h
    cases h
    exact ⟨d, file, hd, hfile, hzoneType, toZonePolicy_ok hpolicy⟩

lemma optionalField_inv {v : Option α} (h : optionalField read key fields = some v) :
    fields.lookup key = none ∧ v = none ∨ ∃ d a, fields.lookup key = some d ∧ read d = some a ∧
      v = some a := by
  unfold optionalField at h
  split at h
  · cases h
    exact .inl ⟨‹_›, rfl⟩
  · rename_i d hd
    obtain ⟨a, ha, rfl⟩ := map_eq_some_iff.mp h
    exact .inr ⟨d, a, hd, ha, rfl⟩

lemma asUInt64_lt {n : UInt64} (h : asUInt64 d = some n) : n.toNat < 2 ^ 63 := by
  obtain ⟨k, hk, rfl⟩ := map_eq_some_iff.mp h
  unfold asUnsigned at hk
  split at hk
  · split_ifs at hk with hbound
    cases hk
    rw [UInt64.toNat_ofNat']
    omega
  · cases hk

lemma asFields_eq {known : List String} (h : asFields known d = some fields) :
    d = .table fields := by
  unfold asFields at h
  split at h
  · split_ifs at h
    cases h
    rfl
  · cases h

/-- A field that is there has been read. -/
lemma read_of_field {known : List String} {v : Option α} (hd : asFields known d = some fields)
    (h : optionalField read key fields = some v) (hx : d.field key = some x) :
    ∃ a, v = some a ∧ read x = some a := by
  rw [asFields_eq hd, Data.field] at hx
  rcases optionalField_inv h with ⟨hnone, -⟩ | ⟨y, a, hy, ha, rfl⟩
  · rw [hx] at hnone
    cases hnone
  · rw [hx] at hy
    cases hy
    exact ⟨a, rfl, ha⟩

lemma read_of_onlyField {a : α} (h : onlyField read key d = some a)
    (hx : d.field key = some x) : read x = some a := by
  obtain ⟨fields, hfields, hrequired⟩ := bind_eq_some_iff.mp h
  obtain ⟨y, hy, ha⟩ := bind_eq_some_iff.mp hrequired
  rw [asFields_eq hfields, Data.field, hy] at hx
  cases hx
  exact ha

lemma asText_eq {s : String} (h : asText x = some s) : x = .string s := by
  unfold asText at h
  split at h <;> cases h
  rfl

lemma asTexts_eq {items : List String} (h : asTexts x = some items) :
    x = .array (items.map .string) := by
  unfold asTexts at h
  split at h
  · rename_i xs
    congr 1
    induction xs generalizing items with
    | nil =>
      cases h
      rfl
    | cons y xs ih =>
      rw [mapM_cons] at h
      obtain ⟨s, hs, h⟩ := bind_eq_some_iff.mp h
      obtain ⟨rest, hrest, h⟩ := bind_eq_some_iff.mp h
      cases h
      rw [map_cons, ← ih hrest, asText_eq hs]
  · cases h

lemma optionalField_number {v : Option UInt64} {default : UInt64}
    (h : optionalField asUInt64 key fields = some v) (hdefault : default.toNat < 2 ^ 63) :
    (v.getD default).toNat < 2 ^ 63 := by
  rcases optionalField_inv h with ⟨-, rfl⟩ | ⟨x, n, -, hn, rfl⟩
  · exact hdefault
  · exact asUInt64_lt hn

/-- The numbers of a policy that was read are those of a document. -/
lemma numbers_of_sections {resources : ResourcePolicy} (h : Sections d file fields)
    (hresources : toResourcePolicy file.resources = .ok resources) : Numbers resources := by
  rcases optionalField_inv h.resources with ⟨-, hnone⟩ | ⟨x, r, -, hr, hsome⟩
  · rw [hnone] at hresources
    cases hresources
    exact ⟨by decide, by decide⟩
  · rw [hsome] at hresources
    obtain ⟨fs, -, hcpu, -, -, hpids⟩ := ofData_resources.mp hr
    obtain ⟨memoryLimit, -, hresources⟩ := ok_of_bind hresources
    cases hresources
    exact ⟨optionalField_number hcpu (by decide), optionalField_number hpids (by decide)⟩

/-- Where it is read, the entry is the value. -/
def Shows (d : Data) (name key : String) (value : Value) : Prop :=
  ∀ x, d.entry name key = some x → x = value.data

/-- The strings of the document, where they are read, are those of the policy. -/
structure ReadAs (d : Data) (policy : FullPolicy) : Prop where
  capabilities : Shows d "capabilities" "allowed" (.strings .block policy.capabilities)
  allowedZones : Shows d "network" "allowed_zones" (.strings .inline policy.network.allowedZones)
  allowedEgress : Shows d "network" "allowed_egress" (.strings .inline policy.network.allowedEgress)
  allowedIngress :
    Shows d "network" "allowed_ingress" (.strings .inline policy.network.allowedIngress)
  root : Shows d "filesystem" "root" (.string policy.root)
  writablePaths : Shows d "filesystem" "writable_paths" (.strings .inline policy.writablePaths)
  devices : Shows d "devices" "allowed" (.strings .inline policy.devices)
  deny : Shows d "syscalls" "deny" (.strings .inline policy.deny)

/-- An entry is read with its section. -/
lemma Sections.shows (h : Sections d file fields) {v : Option α} {value : Value}
    (hv : optionalField read name fields = some v)
    (hread : ∀ s a x, v = some a → read s = some a → s.field key = some x → x = value.data) :
    Shows d name key value := by
  intro x hx
  obtain ⟨s, hs, hkey⟩ := bind_eq_some_iff.mp hx
  obtain ⟨a, ha, hs⟩ := read_of_field h.known hv hs
  exact hread s a x ha hs hkey

lemma strings_of_field {known : List String} {v : Option (List String)} (l : Layout)
    (hd : asFields known d = some fields) (h : optionalField asTexts key fields = some v)
    (hx : d.field key = some x) : x = (Value.strings l (v.getD [])).data := by
  obtain ⟨items, rfl, htexts⟩ := read_of_field hd h hx
  exact asTexts_eq htexts

/-- **What is read is what the policy says.** -/
lemma readAs_of_sections (h : Sections d file fields)
    (hfile : FromFile toUppercase std file baseRoot policy) : ReadAs d policy := by
  obtain ⟨-, hzones, hegress, hingress⟩ := toNetworkPolicy_targets hfile.network
  constructor
  · refine h.shows h.capabilities fun s items x hitems hs hx => ?_
    rw [hfile.capabilities, hitems]
    exact asTexts_eq (read_of_onlyField hs hx)
  · refine h.shows h.network fun s n x hn hs hx => ?_
    obtain ⟨fs, hfs, -, hlist, -, -⟩ := ofData_network.mp hs
    rw [hzones, hn]
    exact strings_of_field _ hfs hlist hx
  · refine h.shows h.network fun s n x hn hs hx => ?_
    obtain ⟨fs, hfs, -, -, hlist, -⟩ := ofData_network.mp hs
    rw [hegress, hn]
    exact strings_of_field _ hfs hlist hx
  · refine h.shows h.network fun s n x hn hs hx => ?_
    obtain ⟨fs, hfs, -, -, -, hlist⟩ := ofData_network.mp hs
    rw [hingress, hn]
    exact strings_of_field _ hfs hlist hx
  · refine h.shows h.filesystem fun s f x hf hs hx => ?_
    obtain ⟨fs, hfs, htext, -⟩ := ofData_filesystem.mp hs
    obtain ⟨root, hroot, hstring⟩ := read_of_field hfs htext hx
    rw [hfile.root, hf, bind_some, hroot]
    exact asText_eq hstring
  · refine h.shows h.filesystem fun s f x hf hs hx => ?_
    obtain ⟨fs, hfs, -, -, hlist⟩ := ofData_filesystem.mp hs
    rw [hfile.writablePaths, hf]
    exact strings_of_field _ hfs hlist hx
  · refine h.shows h.devices fun s items x hitems hs hx => ?_
    rw [hfile.devices, hitems]
    exact asTexts_eq (read_of_onlyField hs hx)
  · refine h.shows h.syscalls fun s c x hc hs hx => ?_
    obtain ⟨fs, hfs, hlist, -⟩ := ofData_syscalls.mp hs
    rw [hfile.deny, hc]
    exact strings_of_field _ hfs hlist hx

/-! ## Policies that read back -/

/-- The strings of a policy that are shown. -/
def shownTexts (policy : FullPolicy) : List String :=
  policy.root :: (policy.capabilities ++ policy.network.allowedZones ++
    policy.network.allowedEgress ++ policy.network.allowedIngress ++ policy.writablePaths ++
    policy.devices ++ policy.deny)

lemma plain_zoneTypeText (zoneType : ZoneType) : Plain (zoneTypeText zoneType).toList := by
  cases zoneType <;> decide

lemma plain_admissionText (admission : PolicyAdmission) :
    Plain (admissionText admission).toList := by
  cases admission <;> decide

lemma plain_networkModeText (mode : NetworkMode) : Plain (networkModeText mode).toList := by
  cases mode <;> decide

lemma isPlain_of_isDigit {c : Char} (h : c.isDigit = true) : isPlain c = true :=
  Text.of_le_z (q := fun c => c.isDigit = true → isPlain c = true) (by decide)
    (Text.le_z_of_isDigit h) h

lemma plain_digits (n : ℕ) : Plain (Nat.toDigits 10 n) := fun _ hc =>
  isPlain_of_isDigit (Nat.isDigit_of_mem_toDigits (by omega) (le_refl _) hc)

lemma plain_formatMemorySize (bytes : UInt64) : Plain (formatMemorySize bytes).toList := by
  have hunit : ∀ (n : ℕ) (unit : String), Plain unit.toList →
      Plain (toString n ++ unit).toList := by
    intro n unit hunit c hc
    rw [toList_size] at hc
    exact (mem_append.mp hc).elim (plain_digits n c) (hunit c)
  unfold formatMemorySize
  split_ifs
  · exact hunit _ "Gi" (by decide)
  · exact hunit _ "Mi" (by decide)
  · rw [Nat.toString_eq_repr, Nat.toList_repr]
    exact plain_digits _

/-- The names of the tables and of their fields. -/
lemma policyDoc_names (name : String) (zoneType : ZoneType) (policy : FullPolicy) :
    (policyDoc name zoneType policy).map (fun t => (t.name, t.fields.map Prod.fst)) =
      [("zone", ["name", "type"]), ("admission", ["mode"]), ("capabilities", ["allowed"]),
        ("resources", ["cpu_shares", "memory_limit", "io_weight", "pids_max"]),
        ("network", ["mode", "allowed_zones", "allowed_egress", "allowed_ingress"]),
        ("filesystem", ["root", "shared_layers", "writable_paths"]), ("devices", ["allowed"]),
        ("syscalls", ["deny"])] := rfl

lemma bare_policyDoc :
    ∀ t ∈ policyDoc name zoneType policy, Bare t.name ∧ ∀ f ∈ t.fields, Bare f.1 := by
  have hbare : ∀ p ∈ (policyDoc name zoneType policy).map
      (fun t => (t.name, t.fields.map Prod.fst)), Bare p.1 ∧ ∀ key ∈ p.2, Bare key := by
    rw [policyDoc_names]
    decide
  intro t ht
  obtain ⟨hname, hkeys⟩ := hbare _ (mem_map_of_mem ht)
  exact ⟨hname, fun f hf => hkeys _ (mem_map_of_mem hf)⟩

/-- The tables are plain if the strings are. -/
lemma plain_policyDoc (hname : Plain name.toList) (hnumbers : Numbers policy.resources) :
    (∀ t ∈ policyDoc name zoneType policy, t.Plain) ↔
      ∀ s ∈ shownTexts policy, Plain s.toList := by
  have hio := policy.resources.ioWeight.toNat_lt
  have hio' : policy.resources.ioWeight.toNat < 2 ^ 63 := by omega
  have hbare := @bare_policyDoc name zoneType policy
  simp only [policyDoc, zoneTable, admissionTable, capabilitiesTable, resourcesTable,
    networkTable, filesystemTable, devicesTable, syscallsTable, forall_mem_cons] at hbare
  simp only [policyDoc, shownTexts, zoneTable, admissionTable, capabilitiesTable, resourcesTable,
    networkTable, filesystemTable, devicesTable, syscallsTable, forall_mem_cons,
    forall_mem_append, Table.plain_mk, FieldPlain, Value.Plain, hbare, hname,
    plain_zoneTypeText, plain_admissionText, plain_networkModeText, plain_formatMemorySize,
    hnumbers.cpuShares, hnumbers.pidsMax, hio', not_mem_nil, false_implies, implies_true,
    true_and, and_true]
  tauto

/-- Every value of the document is plain, or is that of the policy wherever it is read. -/
lemma determined_policyDoc
    (hname : Plain name.toList) (hnumbers : Numbers policy.resources) (h : ReadAs d policy) :
    ∀ t ∈ policyDoc name zoneType policy, ∀ f ∈ t.fields, f.2.Plain ∨ (∀ n, f.2 ≠ .number n) ∧
      ∀ x, d.entry t.name f.1 = some x → x = f.2.data := by
  have hio := policy.resources.ioWeight.toNat_lt
  simp only [policyDoc, zoneTable, admissionTable, capabilitiesTable, resourcesTable,
    networkTable, filesystemTable, devicesTable, syscallsTable, forall_mem_cons,
    not_mem_nil, false_implies, implies_true, and_true, ne_eq, reduceCtorEq, not_false_eq_true,
    true_and]
  refine ⟨⟨.inl hname, .inl (plain_zoneTypeText _)⟩, .inl (plain_admissionText _),
    .inr h.capabilities,
    ⟨.inl hnumbers.cpuShares, .inl (plain_formatMemorySize _), .inl ?_, .inl hnumbers.pidsMax⟩,
    ⟨.inl (plain_networkModeText _), .inr h.allowedZones, .inr h.allowedEgress,
      .inr h.allowedIngress⟩,
    ⟨.inr h.root, .inl trivial, .inr h.writablePaths⟩, .inr h.devices, .inr h.deny⟩
  show policy.resources.ioWeight.toNat < 2 ^ 63
  omega

lemma wellFormed_policyDoc (h : ∀ t ∈ policyDoc name zoneType policy, t.Plain) :
    WellFormed (policyDoc name zoneType policy) where
  plain := h
  names := by
    show ["zone", "admission", "capabilities", "resources", "network", "filesystem", "devices",
      "syscalls"].Nodup
    decide
  keys := by
    have hnodup : ∀ p ∈ (policyDoc name zoneType policy).map
        (fun t => (t.name, t.fields.map Prod.fst)), p.2.Nodup := by
      rw [policyDoc_names]
      decide
    exact fun t ht => hnodup _ (mem_map_of_mem ht)

/-- **The file of a policy** stands for the policy, without what is brokered. -/
lemma toZonePolicy_policyFile (h : Checked toUppercase std policy)
    (name : String) (zoneType : ZoneType) (baseRoot : String) :
    (policyFile name zoneType policy).toZonePolicy toUppercase std baseRoot =
      .ok { policy with broker := [] } := by
  obtain ⟨mask, hmask⟩ := h.capabilities
  have hzoneType : parseZoneType (zoneTypeText zoneType) = .ok zoneType := by
    cases zoneType <;> rfl
  have hadmission : parseAdmission (some (admissionText policy.admission)) =
      .ok policy.admission := by
    cases policy.admission <;> rfl
  have hmode : parseNetworkMode (some (networkModeText policy.network.mode)) =
      .ok policy.network.mode := by
    cases policy.network.mode <;> rfl
  have hresources : toResourcePolicy (policyFile name zoneType policy).resources =
      .ok policy.resources := by
    simp only [toResourcePolicy, policyFile, parseMemoryLimit, parseMemorySize_format]
    rfl
  have hnetwork : toNetworkPolicy std (policyFile name zoneType policy).network =
      .ok policy.network := by
    simp only [toNetworkPolicy, policyFile, hmode, getD_some, h.targets]
    rfl
  have hfile : (policyFile name zoneType policy).zone.zoneType = zoneTypeText zoneType ∧
      (policyFile name zoneType policy).admission = some (admissionText policy.admission) ∧
      (policyFile name zoneType policy).capabilities = some policy.capabilities :=
    ⟨rfl, rfl, rfl⟩
  rw [PolicyFile.toZonePolicy, hfile.1, hfile.2.1, hfile.2.2, hzoneType, hadmission, hresources,
    hnetwork, getD_some, hmask]
  rfl

variable (toml toUppercase std)

/-- **Showing a policy.**  For a zone with a plain name, the text that is shown of a policy that was
    read reads back as that policy exactly if no system call is brokered and every string of the
    policy is plain. -/
theorem policy_display_iff {text baseRoot : String} {zoneType : ZoneType} {policy : FullPolicy}
    (h : parsePolicy toml toUppercase std text baseRoot = .ok (zoneType, policy))
    {name : String} (hname : Plain name.toList) (baseRoot' : String) :
    parsePolicy toml toUppercase std (policyToToml name zoneType policy) baseRoot' =
        .ok (zoneType, policy) ↔
      policy.broker = [] ∧ ∀ s ∈ shownTexts policy, Plain s.toList := by
  obtain ⟨d, file, -, hofData, -, hfile⟩ := parsePolicy_ok h
  obtain ⟨fields, hsections⟩ := ofData_sections.mp hofData
  have hnumbers : Numbers policy.resources := numbers_of_sections hsections hfile.resources
  have hplain := @plain_policyDoc name zoneType policy hname hnumbers
  have hread : (∀ t ∈ policyDoc name zoneType policy, t.Plain) →
      (toml.read (policyToToml name zoneType policy).toList).bind PolicyFile.ofData =
        some (policyFile name zoneType policy) := by
    intro htables
    rw [toList_policyToToml, toml.plain _ (wellFormed_policyDoc htables)]
    exact ofData_policyDoc name zoneType hnumbers
  constructor
  · intro hback
    obtain ⟨d', file', hd', hofData', -, hfile'⟩ := parsePolicy_ok hback
    obtain ⟨fields', hsections'⟩ := ofData_sections.mp hofData'
    have hreadAs := readAs_of_sections hsections' hfile'
    have htables : ∀ t ∈ policyDoc name zoneType policy, t.Plain := by
      rw [toList_policyToToml] at hd'
      exact toml.plain_of_read hd' bare_policyDoc (determined_policyDoc hname hnumbers hreadAs)
    refine ⟨?_, hplain.mp htables⟩
    have hsame := hread htables
    rw [hd', bind_some, hofData'] at hsame
    cases hsame
    exact hfile'.broker
  · rintro ⟨hbroker, htexts⟩
    have hzoneType : parseZoneType (zoneTypeText zoneType) = .ok zoneType := by
      cases zoneType <;> rfl
    have hpolicy : { policy with broker := [] } = policy := by
      rw [← hbroker]
    simp only [parsePolicy, hread (hplain.mpr htexts), toZonePolicy_policyFile hfile.checked,
      hpolicy]
    show (parseZoneType (zoneTypeText zoneType) >>= fun zoneType => .ok (zoneType, policy)) = _
    rw [hzoneType]
    rfl

/-! ## A policy that is shown -/

/-- A policy file: one device, one denied system call, and what else is said of system calls. -/
def sampleDoc (more : List (String × Value)) : List Table :=
  [⟨"zone", [("name", .string "web")]⟩, ⟨"devices", [("allowed", .strings .inline ["/dev/null"])]⟩,
    ⟨"syscalls", ("deny", .strings .inline ["mount"]) :: more⟩]

/-- One that brokers a system call. -/
def brokeredDoc : List Table := sampleDoc [("broker", .strings .inline ["openat"])]

def sampleText (doc : List Table) : String := String.ofList (render doc)

/-- The policy it says. -/
def samplePolicy (broker : List String) : FullPolicy where
  admission := .Strict
  capabilities := []
  network := ⟨.Isolated, [], [], []⟩
  writablePaths := []
  devices := ["/dev/null"]
  resources := .default
  root := "/var/zones/web"
  sharedLayers := true
  deny := ["mount"]
  broker := broker

/-- No text is an address: the sample has no network targets. -/
def noAddresses : IpText where
  parse _ := none
  display _ := ""
  display_chars := nofun

lemma parsePolicy_sampleText {doc : List Table} (h : WellFormed doc) :
    parsePolicy reader id noAddresses (sampleText doc) "/var" =
      (match PolicyFile.ofData (data doc) with
      | none => .error (.InvalidPolicy "")
      | some file => do
        let zoneType ← parseZoneType file.zone.zoneType
        let policy ← file.toZonePolicy id noAddresses "/var"
        .ok (zoneType, policy)) := by
  rw [parsePolicy, sampleText, String.toList_ofList, reader.plain doc h, bind_some]

lemma wellFormed_sampleDoc : WellFormed (sampleDoc []) ∧ WellFormed brokeredDoc := by
  simp only [brokeredDoc, sampleDoc]
  refine ⟨⟨?_, by decide, by decide⟩, ⟨?_, by decide, by decide⟩⟩ <;>
    simp only [forall_mem_cons, Table.plain_mk, FieldPlain, Value.Plain, not_mem_nil, false_implies,
      implies_true, and_true] <;>
    decide

/-- The policy that brokers nothing is shown and read back. -/
theorem policy_display_iff_sample :
    parsePolicy reader id noAddresses (sampleText (sampleDoc [])) "/var" =
        .ok (.NonGlobal, samplePolicy []) ∧
      parsePolicy reader id noAddresses (policyToToml "web" .NonGlobal (samplePolicy [])) "/var" =
          .ok (.NonGlobal, samplePolicy []) := by
  have hread : parsePolicy reader id noAddresses (sampleText (sampleDoc [])) "/var" =
      .ok (.NonGlobal, samplePolicy []) :=
    (parsePolicy_sampleText wellFormed_sampleDoc.1).trans (by decide +kernel)
  exact ⟨hread, (policy_display_iff reader id noAddresses hread (by decide) "/var").mpr
    ⟨rfl, by decide⟩⟩

/-- What is brokered is not shown: the text reads back as a policy that brokers nothing. -/
theorem brokered_syscalls_not_shown :
    parsePolicy reader id noAddresses (sampleText brokeredDoc) "/var" =
        .ok (.NonGlobal, samplePolicy ["openat"]) ∧
      parsePolicy reader id noAddresses
          (policyToToml "web" .NonGlobal (samplePolicy ["openat"])) "/var" =
        .ok (.NonGlobal, samplePolicy []) ∧
      samplePolicy ["openat"] ≠ samplePolicy [] := by
  refine ⟨(parsePolicy_sampleText wellFormed_sampleDoc.2).trans (by decide +kernel), ?_, by decide⟩
  have hshown := toList_policyToToml "web" .NonGlobal (samplePolicy ["openat"])
  have hplain := (@plain_policyDoc "web" .NonGlobal (samplePolicy ["openat"]) (by decide)
    ⟨by decide, by decide⟩).mpr (by decide)
  rw [← String.ofList_toList (s := policyToToml ..), hshown]
  exact (parsePolicy_sampleText (wellFormed_policyDoc hplain)).trans (by decide +kernel)

end Rauha.PolicyText
