import Mathlib.Data.String.Basic
import Rauha.Backend.OwnershipCheck

/-!
# The isolation report

`verifyIsolation` collects checks in a list and forms a verdict beside it.  The verdict covers every
check but those made of the counters of the hooks (`isIsolated_iff`, `passed_iff`): a hook that only
ever fails is in the list, and the zone passes for isolated.  A strict sandbox run is admitted by
the verdict, and its receipt shows the list.
-/

namespace Rauha.Backend

structure IsolationCheck where
  name : String
  passed : Bool
  detail : String
  deriving DecidableEq, Repr

structure IsolationReport where
  zoneId : ℕ
  isIsolated : Bool
  checks : List IsolationCheck

structure ProgramStatus where
  name : String
  loaded : Bool
  attached : Bool

structure EnforcementCounters where
  allow : UInt64
  deny : UInt64
  error : UInt64

/-- **What is read from the system** during a verification, next to the state of the host. -/
structure Probe where
  /-- True also if the cgroup cannot be read. -/
  hasProcesses : Bool
  dirs : List ContainerDir
  healthCheck : Except String (List ProgramStatus)
  /-- Why a map cannot be read; of the inodes, after those that are read have been compared. -/
  membershipError : Option String
  inodesError : Option String
  zoneRulesExist : NetworkPolicy → Bool
  readEnforcementCounters : Except String (List (String × EnforcementCounters))

/-! ## The checks -/

variable (cfg : Config) (self : Host) (zone : ZoneHandle) (probe : Probe)

def policyControlsOk : Bool :=
  match self.zonePolicies zone.name with
  | none => false
  | some policy => (unsupportedLinuxControls cfg policy.toZonePolicy).isEmpty

def policyChecks : List IsolationCheck :=
  match self.zonePolicies zone.name with
  | none => [⟨"policy:admitted", false, "zone has no admitted backend policy"⟩]
  | some policy => (unsupportedLinuxControls cfg policy.toZonePolicy).map fun control =>
    ⟨"policy:" ++ control, false, "requested control is unsupported by the Linux backend"⟩

def degradationChecks : List IsolationCheck :=
  ((self.zoneDegradations zone.name).sort (· ≤ ·)).map fun control =>
    ⟨control, false, "control degraded during runtime setup"⟩

def ProgramStatus.check (status : ProgramStatus) : IsolationCheck where
  name := "ebpf:" ++ status.name
  passed := status.loaded && status.attached
  detail := if status.loaded && status.attached then "program loaded and attached"
    else if status.loaded then "program loaded but detached from hook — restart rauhad to re-attach"
    else "program not loaded — zone boundary not enforced"

def ebpfChecks : Bool × List IsolationCheck :=
  match probe.healthCheck with
  | .ok statuses =>
    (statuses.all (fun status => status.loaded && status.attached) && cfg.skippedHooks.isEmpty,
      statuses.map ProgramStatus.check ++ cfg.skippedHooks.map fun hook =>
        ⟨"ebpf:" ++ hook, false, "kernel does not expose this required BPF-LSM hook"⟩)
  | .error e => (false, [⟨"ebpf:health", false, "health check failed: " ++ e⟩])

def membershipCheck : Bool × String :=
  match self.zoneIdMap.lookup zone.id, probe.membershipError with
  | none, _ => (false, "zone has no userspace kernel identifier")
  | some _, some e => (false, "failed to read BPF membership map: " ++ e)
  | some zoneId, none =>
    if (self.membership zone.platformId).any (·.1 == zoneId) then
      (true, "zone cgroup is registered in the BPF membership map")
    else (false, "zone cgroup is missing or mismatched in the BPF membership map")

def inodeCheck : Bool × String :=
  match inodeOwnershipCheck self zone probe.hasProcesses probe.dirs, probe.inodesError with
  | (true, _), some e => (false, "failed to verify inode ownership map: " ++ e)
  | check, _ => check

/-- The network policy that was admitted, or the default one. -/
def networkPolicy : NetworkPolicy :=
  ((self.zonePolicies zone.name).map fun policy => policy.network).getD ⟨.Isolated, [], [], []⟩

def networkCheck (name shared yes no : String) (present : Bool) : IsolationCheck :=
  let host := decide ((networkPolicy self zone).mode = .Host)
  ⟨name, host || present, if host then shared else if present then yes else no⟩

/-- A hook with errors and no denials fails; one that has not been used is not listed. -/
def counterCheck (name : String) (c : EnforcementCounters) : Option IsolationCheck :=
  if c.error > 0 && c.deny == 0 then
    some ⟨"enforcement:" ++ name, false, "hook has " ++ toString c.error ++
      " errors and 0 denials — enforcement may be silently failing"⟩
  else if c.allow > 0 || c.deny > 0 then
    some ⟨"enforcement:" ++ name, true, "allow=" ++ toString c.allow ++ ", deny=" ++
      toString c.deny ++ ", error=" ++ toString c.error⟩
  else none

def counterChecks : List IsolationCheck :=
  match probe.readEnforcementCounters with
  | .ok counters => counters.filterMap fun hook => counterCheck hook.1 hook.2
  | .error _ => []

def verifyIsolation : IsolationReport :=
  let cgroupOk := (self.slice.get zone.name).isSome
  let ebpf := ebpfChecks cfg probe
  let membership := membershipCheck self zone probe
  let inode := inodeCheck self zone probe
  let netns := networkCheck self zone "netns"
    "host network mode intentionally shares the host namespace" "network namespace exists"
    "network namespace missing — network not isolated" (zone.name ∈ self.netns)
  let veth := networkCheck self zone "network:veth" "host network mode does not require a veth"
    "zone veth exists" "zone veth missing — network namespace is disconnected"
    (zone.name ∈ self.veths)
  let nftOk := probe.zoneRulesExist (networkPolicy self zone)
  { zoneId := zone.id
    isIsolated := policyControlsOk cfg self zone && decide (self.zoneDegradations zone.name = ∅) &&
      cgroupOk && ebpf.1 && membership.1 && inode.1 && netns.passed && veth.passed && nftOk
    checks := policyChecks cfg self zone ++ degradationChecks self zone ++
      [⟨"cgroup", cgroupOk, if cgroupOk then "zone cgroup exists"
        else "zone cgroup missing — zone is not resource-limited"⟩] ++ ebpf.2 ++
      [⟨"bpf_membership", membership.1, membership.2⟩,
        ⟨"filesystem:inode_ownership", inode.1, inode.2⟩, netns, veth,
        ⟨"network:nftables", nftOk, if nftOk then "zone network policy rules are installed"
          else "zone nftables rules missing — network policy is not enforced"⟩] ++
      counterChecks probe }

def IsolationReport.unavailableControls (report : IsolationReport) : List String :=
  (report.checks.filter fun check => !check.passed).map IsolationCheck.name

/-- Admission of a sandbox run, with the controls that go into its receipt. -/
def IsolationReport.admitRun (report : IsolationReport) (admission : PolicyAdmission) :
    Except String (List String) :=
  if admission = .Strict && !report.isIsolated then
    .error ("strict sandbox isolation verification failed: " ++
      String.intercalate ", " report.unavailableControls)
  else .ok report.unavailableControls

/-! ## Verdict and list -/

/-- The zone owns the inodes that are recorded for it; with processes in the zone they are those on
    the disk. -/
def InodesOwned : Prop :=
  Room probe.dirs ∧ ∃ zoneId, self.zoneIdMap.lookup zone.id = some zoneId ∧
    (probe.hasProcesses = true → found probe.dirs ≠ ∅ ∧
      found probe.dirs = (self.registeredInodes zone.name).toFinset) ∧
    ∀ ino ∈ self.registeredInodes zone.name, self.inodeZoneMap ino = some zoneId

/-- **The zone is isolated**, as far as state and system tell. -/
structure Upheld : Prop where
  policy : ∃ policy, self.zonePolicies zone.name = some policy ∧
    unsupportedLinuxControls cfg policy.toZonePolicy = []
  degradations : self.zoneDegradations zone.name = ∅
  cgroup : (self.slice.get zone.name).isSome = true
  hooks : cfg.skippedHooks = [] ∧ ∃ statuses, probe.healthCheck = .ok statuses ∧
    ∀ status ∈ statuses, status.loaded = true ∧ status.attached = true
  membership : probe.membershipError = none ∧ ∃ zoneId zoneType,
    self.zoneIdMap.lookup zone.id = some zoneId ∧
      self.membership zone.platformId = some (zoneId, zoneType)
  inodes : probe.inodesError = none ∧ InodesOwned self zone probe
  network : (networkPolicy self zone).mode = .Host ∨ zone.name ∈ self.netns ∧ zone.name ∈ self.veths
  rules : probe.zoneRulesExist (networkPolicy self zone) = true

/-- **No hook fails silently**: those that can be read have denials, or no errors. -/
def Probe.Heard : Prop :=
  ∀ counters, probe.readEnforcementCounters = .ok counters → ∀ hook ∈ counters,
    ¬(hook.2.error > 0 ∧ hook.2.deny = 0)

variable {cfg self zone probe}

lemma policyControlsOk_iff : policyControlsOk cfg self zone = true ↔ ∃ policy,
    self.zonePolicies zone.name = some policy ∧
      unsupportedLinuxControls cfg policy.toZonePolicy = [] := by
  unfold policyControlsOk
  cases self.zonePolicies zone.name <;> simp

lemma policyChecks_passed : (∀ check ∈ policyChecks cfg self zone, check.passed = true) ↔
    policyControlsOk cfg self zone = true := by
  unfold policyControlsOk policyChecks
  cases self.zonePolicies zone.name with
  | none => simp
  | some policy => simp [List.eq_nil_iff_forall_not_mem]

lemma ebpfChecks_iff : (ebpfChecks cfg probe).1 = true ↔ cfg.skippedHooks = [] ∧ ∃ statuses,
    probe.healthCheck = .ok statuses ∧
      ∀ status ∈ statuses, status.loaded = true ∧ status.attached = true := by
  unfold ebpfChecks
  cases probe.healthCheck <;> simp [and_comm]

lemma ebpfChecks_passed : (∀ check ∈ (ebpfChecks cfg probe).2, check.passed = true) ↔
    (ebpfChecks cfg probe).1 = true := by
  unfold ebpfChecks
  cases probe.healthCheck with
  | error e => simp
  | ok statuses =>
    simp [or_imp, forall_and, ProgramStatus.check, List.eq_nil_iff_forall_not_mem]

lemma membershipCheck_iff : (membershipCheck self zone probe).1 = true ↔
    probe.membershipError = none ∧ ∃ zoneId zoneType, self.zoneIdMap.lookup zone.id = some zoneId ∧
      self.membership zone.platformId = some (zoneId, zoneType) := by
  unfold membershipCheck
  cases self.zoneIdMap.lookup zone.id with
  | none => simp
  | some zoneId =>
    cases probe.membershipError with
    | some e => simp
    | none =>
      rcases self.membership zone.platformId with _ | ⟨id, zoneType⟩
      · simp
      · by_cases heq : id = zoneId <;> simp [heq]

lemma inodeCheck_iff : (inodeCheck self zone probe).1 = true ↔
    probe.inodesError = none ∧ InodesOwned self zone probe := by
  have hcollect : ∀ inodes, collectZoneRootfsInodes probe.dirs ∅ = .ok inodes ↔
      inodes = found probe.dirs ∧ Room probe.dirs :=
    fun inodes => @collect_eq_ok probe.dirs [] inodes
  have hcheck : (inodeOwnershipCheck self zone probe.hasProcesses probe.dirs).1 = true ↔
      InodesOwned self zone probe := by
    unfold inodeOwnershipCheck inodeOwnershipCheckPlan InodesOwned
    cases self.zoneIdMap.lookup zone.id with
    | none => simp
    | some zoneId =>
      cases hdisk : collectZoneRootfsInodes probe.dirs ∅ with
      | error e =>
        have hno : ¬Room probe.dirs := fun hroom => by
          rw [(hcollect _).mpr ⟨rfl, hroom⟩] at hdisk
          cases hdisk
        simp [hno]
      | ok inodes =>
        obtain ⟨rfl, hroom⟩ := (hcollect inodes).mp hdisk
        cases probe.hasProcesses with
        | false => simp [hroom, inodesMatch, apply_ite]
        | true =>
          by_cases hnone : found probe.dirs = ∅
          · simp [hnone]
          · by_cases heq : found probe.dirs = (self.registeredInodes zone.name).toFinset
            · rw [heq] at hnone
              simp [heq, hnone, hroom, inodesMatch, apply_ite]
            · simp [heq, hnone]
  rw [← hcheck, inodeCheck]
  rcases inodeOwnershipCheck self zone probe.hasProcesses probe.dirs with ⟨_ | _, detail⟩ <;>
    cases probe.inodesError <;> simp

lemma counterChecks_passed :
    (∀ check ∈ counterChecks probe, check.passed = true) ↔ probe.Heard := by
  unfold counterChecks Probe.Heard
  cases probe.readEnforcementCounters with
  | error e => simp
  | ok counters =>
    have hcheck : ∀ hook ∈ counters, (∀ check, counterCheck hook.1 hook.2 = some check →
        check.passed = true) ↔ ¬(hook.2.error > 0 ∧ hook.2.deny = 0) := by
      intro hook _
      unfold counterCheck
      split_ifs <;> simp_all
    simp only [List.mem_filterMap, Except.ok.injEq, forall_eq', ← forall₂_congr hcheck]
    exact ⟨fun h hook hmem check hc => h check ⟨hook, hmem, hc⟩,
      fun h check ⟨hook, hmem, hc⟩ => h hook hmem check hc⟩

lemma isIsolated_iff :
    (verifyIsolation cfg self zone probe).isIsolated = true ↔ Upheld cfg self zone probe := by
  simp only [verifyIsolation, networkCheck, Bool.and_eq_true, Bool.or_eq_true, decide_eq_true_eq,
    policyControlsOk_iff, ebpfChecks_iff, membershipCheck_iff, inodeCheck_iff]
  constructor
  · rintro ⟨⟨⟨⟨⟨⟨⟨⟨hp, hd⟩, hc⟩, he⟩, hm⟩, hi⟩, hn⟩, hv⟩, hr⟩
    exact ⟨hp, hd, hc, he, hm, hi, or_and_left.mpr ⟨hn, hv⟩, hr⟩
  · rintro ⟨hp, hd, hc, he, hm, hi, hnet, hr⟩
    obtain ⟨hn, hv⟩ := or_and_left.mp hnet
    exact ⟨⟨⟨⟨⟨⟨⟨⟨hp, hd⟩, hc⟩, he⟩, hm⟩, hi⟩, hn⟩, hv⟩, hr⟩

/-- The list asks for one thing more than the verdict. -/
lemma passed_iff : (∀ check ∈ (verifyIsolation cfg self zone probe).checks, check.passed = true) ↔
    (verifyIsolation cfg self zone probe).isIsolated = true ∧ probe.Heard := by
  have hdegradations : (∀ check ∈ degradationChecks self zone, check.passed = true) ↔
      self.zoneDegradations zone.name = ∅ := by
    simp [degradationChecks, Finset.eq_empty_iff_forall_notMem]
  simp only [verifyIsolation, List.forall_mem_append, List.forall_mem_cons, List.not_mem_nil,
    policyChecks_passed, hdegradations, ebpfChecks_passed, counterChecks_passed, Bool.and_eq_true,
    decide_eq_true_eq, false_implies, implies_true, and_true, and_assoc]

/-- **When verdict and list agree**, and a strict run is admitted only without a failed check:
    unless the verdict is favourable and a hook fails silently. -/
theorem verdict_agrees_iff (cfg : Config) (self : Host) (zone : ZoneHandle) (probe : Probe) :
    (((verifyIsolation cfg self zone probe).isIsolated = true ↔
        ∀ check ∈ (verifyIsolation cfg self zone probe).checks, check.passed = true) ∧
      ∀ controls, (verifyIsolation cfg self zone probe).admitRun .Strict = .ok controls →
        controls = []) ↔
    (Upheld cfg self zone probe → probe.Heard) := by
  rw [passed_iff, ← isIsolated_iff]
  generalize hreport : verifyIsolation cfg self zone probe = report
  constructor
  · rintro ⟨hagree, -⟩ hisolated
    exact (hagree.mp hisolated).2
  · refine fun hheard => ⟨⟨fun hisolated => ⟨hisolated, hheard hisolated⟩, And.left⟩, ?_⟩
    intro controls hadmit
    unfold IsolationReport.admitRun at hadmit
    split_ifs at hadmit with hstrict
    obtain rfl := Except.ok.inj hadmit
    have hisolated : report.isIsolated = true := by simpa using hstrict
    have hpassed := passed_iff.mpr ⟨hreport ▸ hisolated, hheard hisolated⟩
    rw [hreport] at hpassed
    simpa [IsolationReport.unavailableControls] using hpassed

/-- A system in order, but for one hook that has met an error each time. -/
def failingHook : Probe where
  hasProcesses := false
  dirs := []
  healthCheck := .ok [⟨"file_open", true, true⟩]
  membershipError := none
  inodesError := none
  zoneRulesExist _ := true
  readEnforcementCounters := .ok [("file_open", ⟨0, 0, 5⟩)]

/-- **A strict run with a failed check** on record is admitted. -/
theorem verdict_despite_errors :
    let report := verifyIsolation bareConfig.toConfig newZoneHost newZone failingHook
    report.isIsolated = true ∧ report.admitRun .Strict = .ok ["enforcement:file_open"] := by
  decide +kernel

end Rauha.Backend
