import Rauha.Backend.Comms
import Rauha.Library.Table
import Rauha.Library.Transition

/-!
# Zones over whole runs

The operations of the backend as events of one system: zones are created, have policies applied and
reloaded, get containers and lose them, and are destroyed.  The registry keeps the handles of the
zones that are there.

`Host.maps` is the part of the host that says who is who: the kernel maps, the tables of ids and
names, and what is recorded per zone.  For each operation one lemma says what it has done to that
part when it returns; the runs are studied with these lemmas only.
-/

namespace Rauha.Backend

open CrashLogic Transition Triple Function

/-! ## Who is who -/

/-- **The kernel maps and the tables of the backend.** -/
structure ZoneMaps where
  membership : ℕ → Option (UInt32 × ZoneType)
  policies : UInt32 → Option ZonePolicyKernel
  inodeZoneMap : ℕ → Option UInt32
  zoneAllowedComms : Finset (UInt32 × UInt32)
  nextZoneId : UInt32
  zoneIdMap : AList fun _ : ℕ => UInt32
  zoneNameMap : AList fun _ : String => ℕ
  registeredInodes : String → List ℕ
  zonePolicies : String → Option FullPolicy

def Host.maps (self : Host) : ZoneMaps where
  membership := self.membership
  policies := self.policies
  inodeZoneMap := self.inodeZoneMap
  zoneAllowedComms := self.zoneAllowedComms
  nextZoneId := self.nextZoneId
  zoneIdMap := self.zoneIdMap
  zoneNameMap := self.zoneNameMap
  registeredInodes := self.registeredInodes
  zonePolicies := self.zonePolicies

namespace ZoneMaps

variable (m : ZoneMaps)

/-- A zone has been created: it has an id, a name, a policy and a member. -/
def created (config : ZoneConfig) (uuid cgroupId : ℕ) (kernel : ZonePolicyKernel) : ZoneMaps :=
  { m with
    nextZoneId := m.nextZoneId + 1
    zoneIdMap := m.zoneIdMap.insert uuid m.nextZoneId
    zoneNameMap := m.zoneNameMap.insert config.name uuid
    policies := Function.update m.policies m.nextZoneId (some kernel)
    membership := Function.update m.membership cgroupId (some (m.nextZoneId, config.zoneType)) }

/-- A policy has been applied. -/
def applied (name : String) (zoneId : UInt32) (policy : FullPolicy) (kernel : ZonePolicyKernel)
    (comms : Finset (UInt32 × UInt32)) : ZoneMaps :=
  { m with
    policies := Function.update m.policies zoneId (some kernel)
    zoneAllowedComms := comms
    zonePolicies := Function.update m.zonePolicies name (some policy) }

/-- The inodes of a root file system have been registered. -/
def registered (name : String) (zoneId : UInt32) (inodes : List ℕ) : ZoneMaps :=
  { m with
    inodeZoneMap := fun ino => if ino ∈ inodes then some zoneId else m.inodeZoneMap ino
    registeredInodes :=
      Function.update m.registeredInodes name (m.registeredInodes name ++ inodes) }

/-- A zone has been destroyed.  Its pairs stay. -/
def destroyed (zone : ZoneHandle) (zoneId : UInt32) : ZoneMaps :=
  { m with
    zoneIdMap := m.zoneIdMap.erase zone.id
    zoneNameMap := m.zoneNameMap.erase zone.name
    inodeZoneMap := fun ino =>
      if ino ∈ m.registeredInodes zone.name then none else m.inodeZoneMap ino
    registeredInodes := Function.update m.registeredInodes zone.name []
    membership := Function.update m.membership zone.platformId none
    policies := Function.update m.policies zoneId none
    zonePolicies := Function.update m.zonePolicies zone.name none }

end ZoneMaps

/-! ## What the calls do -/

variable {admission : PolicyAdmission} {control : String} {policy : FullPolicy}
  {resources : ResourcePolicy} {zoneId : UInt32} {cgroupId uuid : ℕ} {zone : ZoneHandle}
  {e : RauhaError} {net : Option ZoneNetworkState}

section Calls

variable {cfg : HostConfig} {env : HostEnv} {op : Op} {name : String} {self : Host} {α : Type}

/-- The part of the maps that calls about cgroups, namespaces and interfaces can see. -/
def Linux.maps (self : Linux) :
    (ℕ → Option (UInt32 × ZoneType)) × (UInt32 → Option ZonePolicyKernel) × UInt32 ×
      AList fun _ : ℕ => UInt32 :=
  (self.membership, self.policies, self.nextZoneId, self.zoneIdMap)

lemma onLinux_maps {c : LinuxM α} (h : Keeps Linux.maps c) : Keeps Host.maps (onLinux c) := by
  refine .zoom h fun s t ht => ?_
  simp only [Linux.maps, Prod.mk.injEq] at ht
  simp [Host.maps, Host.withLinux, ht]

lemma orDegrade_maps {c : HostM Unit} (h : Keeps Host.maps c) :
    Keeps Host.maps (orDegrade name admission control c) :=
  orDegrade_keeps (fun _ _ => rfl) h

lemma rules_maps : Keeps Host.maps (applyNftablesForZone cfg env op name policy) :=
  applyNftablesForZone_keeps (fun _ _ => rfl) fun _ _ => rfl

lemma limits_maps : Keeps Host.maps (applyLimits env op name resources) :=
  applyLimits_keeps fun _ _ => rfl

/-- A kernel policy has been written. -/
lemma setZonePolicy_returns {policy : ZonePolicy} :
    Returns self (onLinux (setZonePolicy cfg.toConfig env.toEnv op name zoneId policy)) fun _ s' =>
      ∃ kernel, cfg.policyToKernel policy = some kernel ∧
        s' = { self with policies := update self.policies zoneId (some kernel) } := by
  refine zoom_at (bind_at (Returns.ofExcept fun kernel h => ?_))
  refine Returns.judged fun _ => ⟨kernel, ?_, rfl⟩
  cases hkernel : cfg.policyToKernel policy with
  | none =>
    rw [hkernel] at h
    cases h
  | some kernel' =>
    rw [hkernel] at h
    cases h
    rfl

lemma addZoneMember_returns {zoneType : ZoneType} :
    Returns self (onLinux (addZoneMember env.toEnv op name cgroupId zoneId zoneType)) fun _ s' =>
      s' = { self with
        membership := update self.membership cgroupId (some (zoneId, zoneType)) } :=
  zoom_at (Returns.judged fun _ => rfl)

/-- The pairs of a zone have been brought up to date. -/
lemma syncBpfAllowedComms_returns {net : NetworkPolicy} :
    Returns self (syncBpfAllowedComms env op name zoneId net) fun _ s' =>
      s' = { self with zoneAllowedComms := synced env.walk self zoneId net } := by
  rintro plan _ rfl
  unfold syncBpfAllowedComms partCall
  cases env.verdict op name .SyncComms with
  | ok => exact rfl
  | err => exact trivial
  | cut => exact trivial

lemma zoneId_of_ok (h : (match self.zoneIdMap.lookup zone.id with
      | some zoneId => Except.ok zoneId
      | none => .error e) = .ok zoneId) : self.zoneIdMap.lookup zone.id = some zoneId := by
  cases hid : self.zoneIdMap.lookup zone.id with
  | none =>
    rw [hid] at h
    cases h
  | some id =>
    rw [hid] at h
    cases h
    rfl

lemma getZoneId_returns {suffix : String} :
    Returns self (getZoneId zone suffix) fun zoneId s' =>
      s' = self ∧ self.zoneIdMap.lookup zone.id = some zoneId :=
  bind_at (getState_at (Returns.ofExcept fun _ h => ⟨rfl, zoneId_of_ok h⟩))

/-- A statement that is rolled back when it fails. -/
lemma orRollback_returns {config : ZoneConfig} {c : HostM α} {Q : α → Host → Prop}
    (h : Returns self c Q) : Returns self (Host.orRollback env config uuid net c) Q :=
  bind_at (Returns.attempt (h.mono fun _ _ ha => pure_at ha) fun _ _ =>
    bind_at (Returns.any fun _ _ => Returns.raise))

end Calls

/-! ## What the operations do -/

variable {kernel : ZonePolicyKernel} {name : String}

section Operations

variable {cfg : HostConfig} {env : HostEnv} {self : Host}

lemma createNetwork_returns {config : ZoneConfig} :
    Returns self (Host.createNetwork env config uuid) fun _ s' => s'.maps = self.maps := by
  unfold Host.createNetwork
  split
  · exact pure_at rfl
  · refine bind_at (orRollback_returns (.of_keeps
      (onLinux_maps (allocateIp_keeps fun _ _ => rfl)) fun net s₁ h₁ => ?_))
    refine bind_at (orRollback_returns (.of_keeps
      (onLinux_maps (createNetns_keeps fun _ _ => rfl)) fun _ s₂ h₂ => ?_))
    refine bind_at (orRollback_returns (.of_keeps
      (orDegrade_maps (onLinux_maps (createVethPair_keeps fun _ _ => rfl))) fun _ s₃ h₃ => ?_))
    exact pure_at (h₃.trans (h₂.trans h₁))

/-- **Creating a zone.** -/
lemma createZone_returns {config : ZoneConfig} :
    Returns self (Host.createZone cfg env config resources uuid) fun handle s' =>
      ∃ cgroupId kernel net, handle = ⟨uuid, config.name, cgroupId, net⟩ ∧
        s'.maps = self.maps.created config uuid cgroupId kernel := by
  refine bind_at (Returns.ofExcept fun _ _ => ?_)
  refine bind_at (zoom_at (bind_at (getState_at (bind_at (update_at (pure_at ?_))))))
  refine bind_at (update_at ?_)
  refine bind_at (Returns.attempt (Returns.of_keeps
    (onLinux_maps (createZoneCgroup_keeps fun _ _ => rfl)) fun cgroupId s₁ h₁ => ?_) ?_)
  · refine bind_at (pure_at ?_)
    refine bind_at (createNetwork_returns.mono fun net s₂ h₂ => ?_)
    refine bind_at (orRollback_returns (setZonePolicy_returns.mono ?_))
    rintro _ _ ⟨kernel, -, rfl⟩
    refine bind_at (orRollback_returns (bind_at (Returns.attempt
      (addZoneMember_returns.mono ?_) fun _ _ =>
        bind_at (Returns.any fun _ _ => Returns.raise))))
    rintro _ _ rfl
    refine pure_at (bind_at (orRollback_returns (bind_at (Returns.attempt
      (Returns.of_keeps limits_maps fun _ s₃ h₃ => ?_) fun _ _ => bind_at (Returns.any
        fun _ _ => bind_at (Returns.any fun _ _ => Returns.raise))))))
    refine pure_at (pure_at ⟨cgroupId, kernel, net, rfl, ?_⟩)
    have hmaps : s₂.maps = _ := h₂.trans h₁
    rw [h₃]
    change { s₂.maps with
      policies := update s₂.maps.policies self.nextZoneId (some kernel)
      membership := update s₂.maps.membership cgroupId
        (some (self.nextZoneId, config.zoneType)) } = _
    rw [hmaps]
    rfl
  · intro e s'
    exact bind_at (bind_at (Returns.any fun _ _ => Returns.raise))

variable {op : Op}

lemma installPolicy_returns :
    Returns self (Host.installPolicy cfg env op zone zoneId policy) fun _ s' =>
      ∃ kernel, s'.maps = { self.maps with
        policies := update self.policies zoneId (some kernel)
        zoneAllowedComms := synced env.walk self zoneId policy.network } := by
  refine bind_at (setZonePolicy_returns.mono ?_)
  rintro _ _ ⟨kernel, -, rfl⟩
  refine bind_at (syncBpfAllowedComms_returns.mono ?_)
  rintro _ _ rfl
  refine bind_at (Returns.of_keeps rules_maps fun _ s₁ h₁ => ?_)
  refine Returns.of_keeps limits_maps fun _ s₂ h₂ => ⟨kernel, ?_⟩
  rw [h₂, h₁]
  rfl

/-- The zone has an id, and a policy has been applied to it. -/
def Applied (env : HostEnv) (self : Host) (zone : ZoneHandle) (policy : FullPolicy)
    (s' : Host) : Prop :=
  ∃ zoneId kernel, self.zoneIdMap.lookup zone.id = some zoneId ∧
    s'.maps = self.maps.applied zone.name zoneId policy kernel
      (synced env.walk self zoneId policy.network)

lemma recordPolicy_applied {s' : Host} (hid : self.zoneIdMap.lookup zone.id = some zoneId)
    (h : s'.maps = { self.maps with
      policies := update self.policies zoneId (some kernel)
      zoneAllowedComms := synced env.walk self zoneId policy.network }) :
    Applied env self zone policy
      { s' with zonePolicies := update s'.zonePolicies zone.name (some policy) } := by
  refine ⟨zoneId, kernel, hid, ?_⟩
  change { s'.maps with
    zonePolicies := update s'.maps.zonePolicies zone.name (some policy) } = _
  rw [h]
  rfl

/-- **Applying a policy.** -/
lemma enforcePolicy_returns :
    Returns self (Host.enforcePolicy cfg env zone policy) fun _ s' =>
      Applied env self zone policy s' := by
  refine bind_at (Returns.ofExcept fun _ _ => ?_)
  refine bind_at (getZoneId_returns.mono ?_)
  rintro zoneId _ ⟨rfl, hid⟩
  refine bind_at (installPolicy_returns.mono ?_)
  rintro _ s' ⟨kernel, h⟩
  exact update_at (recordPolicy_applied hid h)

/-- **Reloading a policy.** -/
lemma hotReloadPolicy_returns :
    Returns self (Host.hotReloadPolicy cfg env zone policy) fun _ s' =>
      Applied env self zone policy s' := by
  refine bind_at (Returns.ofExcept fun _ _ => ?_)
  refine bind_at (getState_at ?_)
  refine bind_at (Returns.ofExcept fun previous _ => ?_)
  refine bind_at (getZoneId_returns.mono ?_)
  rintro zoneId _ ⟨rfl, hid⟩
  refine bind_at (Returns.attempt (installPolicy_returns.mono ?_) fun e s' =>
    bind_at (bind_at (Returns.any fun _ _ => Returns.raise)))
  rintro _ s' ⟨kernel, h⟩
  exact bind_at (pure_at (update_at (recordPolicy_applied hid h)))

/-- The removals that a destruction does not insist on go through. -/
structure Removes (env : HostEnv) (name : String) : Prop where
  inodes : env.verdict .Destroy name .RemoveInodes = .ok
  member : env.verdict .Destroy name .RemoveMember = .ok
  policy : env.verdict .Destroy name .RemovePolicy = .ok

variable {R : Unit → Host → Prop}

/-- A call that is known to go through. -/
lemma ignore_osCall {site : Site} {f : Linux → Linux} (hv : env.verdict op name site = .ok)
    (h : R () (self.withLinux (f self.toLinux))) :
    Returns self (.ignore (onLinux (osCall env.toEnv op name site e f)) : HostM Unit) R := by
  refine ignore_at (zoom_at (judged_at (fun _ => h) ?_ fun _ => trivial))
  rw [hv]
  exact nofun

lemma ignore_removeInodes {inodes : List ℕ} (hv : env.verdict op name .RemoveInodes = .ok)
    (h : R () (unsetInodes inodes self)) :
    Returns self (.ignore (removeInodes env op name inodes) : HostM Unit) R := by
  refine ignore_at ?_
  rintro plan _ rfl
  simpa only [removeInodes, partCall, hv] using h

/-- **Destroying a zone.** -/
lemma destroyZone_returns (hid : self.zoneIdMap.lookup zone.id = some zoneId)
    (hremoves : Removes env zone.name) :
    Returns self (Host.destroyZone env zone) fun _ s' =>
      s'.maps = self.maps.destroyed zone zoneId := by
  refine bind_at (Returns.ignore_of_keeps
    (hostCall_keeps (g := Host.maps) fun _ => rfl) fun s₁ h₁ => ?_)
  refine bind_at (Returns.of_keeps
    (onLinux_maps (drainZone_keeps fun _ _ => rfl)) fun _ s₂ h₂ => ?_)
  refine bind_at (Returns.of_keeps
    (onLinux_maps (destroyZoneCgroup_keeps fun _ _ => rfl)) fun _ s₃ h₃ => ?_)
  have hmaps : s₃.maps = self.maps := h₃.trans (h₂.trans h₁)
  have hid₃ : s₃.zoneIdMap.lookup zone.id = some zoneId := by
    rw [show s₃.zoneIdMap = self.zoneIdMap from congrArg ZoneMaps.zoneIdMap hmaps, hid]
  refine bind_at (getState_at ?_)
  refine bind_at (zoom_at (update_at ?_))
  refine bind_at (update_at ?_)
  rw [hid₃]
  refine bind_at (bind_at (ignore_removeInodes hremoves.inodes ?_))
  refine bind_at (ignore_osCall hremoves.member ?_)
  refine ignore_osCall hremoves.policy ?_
  refine bind_at (Returns.of_keeps
    (releaseIp_keeps (g := Host.maps) fun _ _ => rfl) fun _ s₄ h₄ => ?_)
  refine bind_at (update_at ?_)
  refine bind_at (Returns.ignore_of_keeps
    (onLinux_maps (destroyVethPair_keeps fun _ _ => rfl)) fun s₅ h₅ => ?_)
  refine bind_at (Returns.ignore_of_keeps
    (onLinux_maps (destroyNetns_keeps fun _ _ => rfl)) fun s₆ h₆ => ?_)
  refine bind_at (update_at (bind_at (update_at (update_at ?_))))
  change { s₆.maps with
    zoneNameMap := s₆.maps.zoneNameMap.erase zone.name
    zonePolicies := update s₆.maps.zonePolicies zone.name none } = _
  have hlast : s₆.maps = _ := h₆.trans (h₅.trans h₄)
  rw [hlast, ← hmaps]
  rfl

/-- What a container may leave in the maps: nothing, or the inodes of its root file system that the
    map takes. -/
def Placed (env : HostEnv) (m : ZoneMaps) (zone : ZoneHandle) (m' : ZoneMaps) : Prop :=
  m' = m ∨ ∃ zoneId, m.zoneIdMap.lookup zone.id = some zoneId ∧
    m' = m.registered zone.name zoneId (env.containerInodes.filter env.insertable)

/-- What a container leaves in the maps if it is created: there is nothing only if its inodes could
    not be listed. -/
def Collected (env : HostEnv) (m : ZoneMaps) (zone : ZoneHandle) (m' : ZoneMaps) : Prop :=
  env.verdict .CreateContainer zone.name .CollectInodes ≠ .ok ∧ m' = m ∨
    ∃ zoneId, m.zoneIdMap.lookup zone.id = some zoneId ∧
      m' = m.registered zone.name zoneId (env.containerInodes.filter env.insertable)

lemma Collected.placed {m m' : ZoneMaps} (h : Collected env m zone m') : Placed env m zone m' :=
  h.imp And.right id

/-- What holds of the maps when a program returns, and otherwise. -/
def Leaves {α : Type} (self : Host) (c : HostM α) (Q R : ZoneMaps → Prop) : Prop :=
  Triple (· = self) c (fun _ s' => Q s'.maps) (fun _ s' => R s'.maps) fun s' => R s'.maps

section Leaves

variable {α β : Type} {c : HostM α} {Q R : ZoneMaps → Prop}

/-- A call that keeps the maps, and then the rest. -/
lemma Leaves.bind_keeps {f : α → HostM β} (hc : Keeps Host.maps c) (h : R self.maps)
    (hf : ∀ a s', s'.maps = self.maps → Leaves s' (f a) Q R) : Leaves self (c >>= f) Q R :=
  bind_at (hc.triple_at hf (fun _ _ h' => h' ▸ h) fun _ h' => h' ▸ h)

lemma Leaves.returns (h : Leaves self c Q R) : Returns self c fun _ s' => Q s'.maps :=
  .conseq h (fun _ _ h => h) (fun _ _ _ => trivial) fun _ _ => trivial

/-- A control that is insisted on or done without; the maps are the same for both. -/
lemma leaves_orDegrade {c : HostM Unit} (hQR : ∀ m, Q m → R m)
    (h : Triple (· = self) c (fun _ s' => Q s'.maps) (fun _ s' => Q s'.maps) fun s' => R s'.maps) :
    Leaves self (orDegrade name admission control c) Q R := by
  refine bind_at (attempt_at (.conseq h ?_ ?_ fun _ h => h))
  · intro _ s' hQ
    exact pure_at hQ
  · intro e s' hQ
    cases admission with
    | Strict => exact raise_at (hQR _ hQ)
    | Audit => exact update_at hQ

end Leaves

lemma registerRootfs_at (hid : self.zoneIdMap.lookup zone.id = some zoneId) :
    Triple (· = self) (Host.registerRootfs env zone zoneId)
      (fun _ s' => Collected env self.maps zone s'.maps)
      (fun _ s' => Collected env self.maps zone s'.maps)
      (fun s' => Placed env self.maps zone s'.maps) := by
  refine bind_at (judged_at (fun _ => ?_) (fun hv => ?_) fun _ => .inl rfl)
  · refine bind_at (update_at (bind_at (update_at ?_)))
    exact failIf_at (fun _ => .inr ⟨zoneId, hid, rfl⟩) fun _ => .inr ⟨zoneId, hid, rfl⟩
  · exact .inl ⟨by simp [hv], rfl⟩

/-- **Creating a container.** -/
lemma createContainer_leaves {rootfs : Host.Rootfs} {id : ℕ} :
    Leaves self (Host.createContainer env zone rootfs id) (Collected env self.maps zone)
      (Placed env self.maps zone) := by
  have hsame : Placed env self.maps zone self.maps := .inl rfl
  refine Leaves.bind_keeps (hostCall_keeps fun _ => rfl) hsame fun _ s₁ h₁ => ?_
  refine bind_at (getState_at ?_)
  refine Leaves.bind_keeps Keeps.ofExcept (h₁ ▸ hsame) fun policy s₂ h₂ => ?_
  refine Leaves.bind_keeps (hostCall_keeps fun _ => rfl) (h₂ ▸ h₁ ▸ hsame) fun _ s₃ h₃ => ?_
  refine Leaves.bind_keeps (hostCall_keeps fun s => ?_) (h₃ ▸ h₂ ▸ h₁ ▸ hsame) fun _ s₄ h₄ => ?_
  · cases rootfs <;> rfl
  have hmaps : s₄.maps = self.maps := h₄.trans (h₃.trans (h₂.trans h₁))
  refine Leaves.bind_keeps (hostCall_keeps fun _ => rfl) (hmaps ▸ hsame) fun _ s₅ h₅ => ?_
  have hmaps : s₅.maps = self.maps := h₅.trans hmaps
  refine bind_at (bind_at (getState_at (ofExcept_at ?_ ?_)))
  · intro zoneId hok
    rw [← hmaps]
    have hregister : Leaves s₅ (orDegrade zone.name policy.admission "filesystem:inode_ownership"
        (Host.registerRootfs env zone zoneId)) (Collected env s₅.maps zone)
        (Placed env s₅.maps zone) :=
      leaves_orDegrade (fun _ => Collected.placed) (registerRootfs_at (zoneId_of_ok hok))
    refine bind_at (Triple.post hregister ?_)
    intro _ s₆ h₆
    refine Leaves.bind_keeps (hostCall_keeps fun _ => rfl) h₆.placed fun _ s₇ h₇ => ?_
    exact (hostCall_keeps (g := Host.maps) fun _ => rfl).triple_at
      (fun _ _ h₈ => h₈ ▸ h₇ ▸ h₆) (fun _ _ h₈ => h₈ ▸ h₇ ▸ h₆.placed)
      fun _ h₈ => h₈ ▸ h₇ ▸ h₆.placed
  · exact fun _ _ => hmaps ▸ hsame

end Operations

/-! ## Events -/

/-- The backend, and the handles that the registry keeps of the zones that are there. -/
structure Zones where
  host : Host
  handles : AList fun _ : String => ZoneHandle

inductive ZoneEvent where
  | create (env : HostEnv) (name : String) (zoneType : ZoneType) (policy : FullPolicy) (uuid : ℕ)
  | enforce (env : HostEnv) (name : String) (policy : FullPolicy)
  | reload (env : HostEnv) (name : String) (policy : FullPolicy)
  | destroy (env : HostEnv) (name : String)
  | createContainer (env : HostEnv) (name : String) (rootfs : Host.Rootfs) (id : ℕ)
  | deleteContainer (id : ℕ)

/-- What an operation returns, if it does, and the host after it. -/
def perform {α : Type} (c : HostM α) (self : Host) : Option α × Host :=
  match c [] self with
  | (.done a, _, self) => (some a, self)
  | (.failed _, _, self) => (none, self)
  | (.stopped, _, self) => (none, self)

namespace Zones

variable (cfg : HostConfig) (z : Zones)

/-- An operation on a zone that the registry knows. -/
def onZone (name : String) (c : ZoneHandle → HostM Unit) : Option Unit × Host :=
  match z.handles.lookup name with
  | some zone => perform (c zone) z.host
  | none => (none, z.host)

def config (name : String) (zoneType : ZoneType) (policy : FullPolicy) : ZoneConfig :=
  ⟨name, zoneType, policy.toZonePolicy⟩

/-- A name that is taken is refused before anything is done. -/
def createZone (env : HostEnv) (name : String) (zoneType : ZoneType) (policy : FullPolicy)
    (uuid : ℕ) : Option ZoneHandle × Host :=
  match z.handles.lookup name with
  | some _ => (none, z.host)
  | none =>
    perform (Host.createZone cfg env (config name zoneType policy) policy.resources uuid) z.host

/-- **One operation.** -/
def step : ZoneEvent → Zones
  | .create env name zoneType policy uuid =>
    match z.createZone cfg env name zoneType policy uuid with
    | (some handle, host) => ⟨host, z.handles.insert name handle⟩
    | (none, host) => { z with host := host }
  | .enforce env name policy =>
    { z with host := (z.onZone name (Host.enforcePolicy cfg env · policy)).2 }
  | .reload env name policy =>
    { z with host := (z.onZone name (Host.hotReloadPolicy cfg env · policy)).2 }
  | .destroy env name =>
    match z.onZone name (Host.destroyZone env) with
    | (some _, host) => ⟨host, z.handles.erase name⟩
    | (none, host) => { z with host := host }
  | .createContainer env name rootfs id =>
    { z with host := (z.onZone name (Host.createContainer env · rootfs id)).2 }
  | .deleteContainer id =>
    { z with host := { z.host with
      shimContainers := z.host.shimContainers.erase id
      mounts := z.host.mounts.erase id } }

/-- The operation reports success. -/
def succeeds : ZoneEvent → Bool
  | .create env name zoneType policy uuid =>
    (z.createZone cfg env name zoneType policy uuid).1.isSome
  | .enforce env name policy => (z.onZone name (Host.enforcePolicy cfg env · policy)).1.isSome
  | .reload env name policy => (z.onZone name (Host.hotReloadPolicy cfg env · policy)).1.isSome
  | .destroy env name => (z.onZone name (Host.destroyZone env)).1.isSome
  | .createContainer env name rootfs id =>
    (z.onZone name (Host.createContainer env · rootfs id)).1.isSome
  | .deleteContainer _ => true

end Zones

/-- **What a successful operation does** to the handles and the maps. -/
inductive Change (z : Zones) : ZoneEvent → Zones → Prop
  | create {env : HostEnv} {name : String} {zoneType : ZoneType} {policy : FullPolicy}
      {uuid cgroupId : ℕ} {kernel : ZonePolicyKernel} {net : Option ZoneNetworkState} {z' : Zones}
      (hnew : z.handles.lookup name = none)
      (hhandles : z'.handles = z.handles.insert name ⟨uuid, name, cgroupId, net⟩)
      (hmaps : z'.host.maps = z.host.maps.created (Zones.config name zoneType policy) uuid cgroupId
        kernel) : Change z (.create env name zoneType policy uuid) z'
  | apply {e : ZoneEvent} {env : HostEnv} {name : String} {policy : FullPolicy} {zone : ZoneHandle}
      {z' : Zones} (he : e = .enforce env name policy ∨ e = .reload env name policy)
      (hzone : z.handles.lookup name = some zone) (hhandles : z'.handles = z.handles)
      (hmaps : Applied env z.host zone policy z'.host) : Change z e z'
  | destroy {env : HostEnv} {name : String} {zone : ZoneHandle} {z' : Zones}
      (hzone : z.handles.lookup name = some zone) (hhandles : z'.handles = z.handles.erase name)
      (hmaps : ∀ zoneId, z.host.zoneIdMap.lookup zone.id = some zoneId → Removes env zone.name →
        z'.host.maps = z.host.maps.destroyed zone zoneId) : Change z (.destroy env name) z'
  | createContainer {env : HostEnv} {name : String} {rootfs : Host.Rootfs} {id : ℕ}
      {zone : ZoneHandle} {z' : Zones} (hzone : z.handles.lookup name = some zone)
      (hhandles : z'.handles = z.handles) (hmaps : Collected env z.host.maps zone z'.host.maps) :
      Change z (.createContainer env name rootfs id) z'
  | deleteContainer {id : ℕ} {z' : Zones} (hhandles : z'.handles = z.handles)
      (hmaps : z'.host.maps = z.host.maps) : Change z (.deleteContainer id) z'

section

variable {cfg : HostConfig} {z : Zones} {e : ZoneEvent}

lemma perform_returns {α : Type} {c : HostM α} {self : Host} {Q : α → Host → Prop}
    (h : Returns self c Q) {a : α} (ha : (perform c self).1 = some a) :
    Q a (perform c self).2 := by
  have hrun := h [] self rfl
  unfold perform at ha ⊢
  rcases hc : c [] self with ⟨o, plan, s'⟩
  rw [hc] at hrun ha
  cases o with
  | done b =>
    cases ha
    exact hrun
  | failed e => cases ha
  | stopped => cases ha

/-- An operation on a zone that succeeds. -/
lemma onZone_returns {c : ZoneHandle → HostM Unit} {Q : ZoneHandle → Unit → Host → Prop}
    (h : ∀ zone, Returns z.host (c zone) (Q zone)) (hsome : (z.onZone name c).1.isSome = true) :
    ∃ zone, z.handles.lookup name = some zone ∧ Q zone () (z.onZone name c).2 := by
  unfold Zones.onZone at hsome ⊢
  cases hzone : z.handles.lookup name with
  | none =>
    rw [hzone] at hsome
    cases hsome
  | some zone =>
    rw [hzone] at hsome
    obtain ⟨u, hu⟩ := Option.isSome_iff_exists.mp hsome
    exact ⟨zone, rfl, perform_returns (h zone) hu⟩

/-- **Every successful operation is one of these.** -/
theorem step_change (h : z.succeeds cfg e = true) : Change z e (z.step cfg e) := by
  cases e with
  | create env name zoneType policy uuid =>
    simp only [Zones.succeeds, Zones.createZone] at h
    simp only [Zones.step, Zones.createZone]
    cases hnew : z.handles.lookup name with
    | some zone =>
      rw [hnew] at h
      cases h
    | none =>
      rw [hnew] at h
      obtain ⟨handle, hhandle⟩ := Option.isSome_iff_exists.mp h
      obtain ⟨cgroupId, kernel, net, rfl, hmaps⟩ := perform_returns createZone_returns hhandle
      rcases hperform : perform _ z.host with ⟨o, host⟩
      rw [hperform] at hhandle hmaps
      obtain rfl : o = _ := hhandle
      exact .create hnew rfl hmaps
  | enforce env name policy =>
    obtain ⟨zone, hzone, hmaps⟩ := onZone_returns (fun _ => enforcePolicy_returns) h
    exact .apply (.inl rfl) hzone rfl hmaps
  | reload env name policy =>
    obtain ⟨zone, hzone, hmaps⟩ := onZone_returns (fun _ => hotReloadPolicy_returns) h
    exact .apply (.inr rfl) hzone rfl hmaps
  | destroy env name =>
    have hreturns : ∀ zone, Returns z.host (Host.destroyZone env zone) fun _ s' =>
        ∀ zoneId, z.host.zoneIdMap.lookup zone.id = some zoneId → Removes env zone.name →
          s'.maps = z.host.maps.destroyed zone zoneId := fun zone =>
      Returns.all fun zoneId => Returns.all fun hid => Returns.all fun hremoves =>
        destroyZone_returns hid hremoves
    obtain ⟨zone, hzone, hmaps⟩ := onZone_returns hreturns h
    simp only [Zones.step]
    rcases hperform : z.onZone name (Host.destroyZone env) with ⟨o, host⟩
    simp only [Zones.succeeds, hperform] at h
    rw [hperform] at hmaps
    obtain ⟨u, rfl⟩ := Option.isSome_iff_exists.mp h
    exact .destroy hzone rfl hmaps
  | createContainer env name rootfs id =>
    obtain ⟨zone, hzone, hmaps⟩ := onZone_returns (fun _ => createContainer_leaves.returns) h
    exact .createContainer hzone rfl hmaps
  | deleteContainer id => exact .deleteContainer rfl rfl

end

/-! ## Handles, names and ids -/

/-- The handles of the zones that are there. -/
abbrev Handles := AList fun _ : String => ZoneHandle

/-- **Every zone has one handle, one name and one id**, and nothing else has. -/
structure Registered (handles : Handles) (m : ZoneMaps) : Prop where
  name : ∀ name zone, handles.lookup name = some zone →
    zone.name = name ∧ m.zoneNameMap.lookup name = some zone.id
  id : ∀ name zone, handles.lookup name = some zone →
    ∃ zoneId, m.zoneIdMap.lookup zone.id = some zoneId
  named : ∀ name uuid, m.zoneNameMap.lookup name = some uuid →
    ∃ zone, handles.lookup name = some zone ∧ zone.id = uuid
  known : ∀ uuid zoneId, m.zoneIdMap.lookup uuid = some zoneId →
    ∃ name zone, handles.lookup name = some zone ∧ zone.id = uuid
  unique : ∀ name name' zone zone', handles.lookup name = some zone →
    handles.lookup name' = some zone' → zone.id = zone'.id → name = name'

/-- A new zone gets a uuid that no other has, and the removals that a destruction does not insist on
    go through. -/
def Zones.orderly (z : Zones) : ZoneEvent → Bool
  | .create _ _ _ _ uuid => (z.host.zoneIdMap.lookup uuid).isNone
  | .destroy env name =>
    env.verdict .Destroy name .RemoveInodes == .ok &&
      (env.verdict .Destroy name .RemoveMember == .ok &&
        env.verdict .Destroy name .RemovePolicy == .ok)
  | _ => true

section

variable {handles : Handles} {m m' : ZoneMaps} {z z' : Zones} {e : ZoneEvent}
  {zone : ZoneHandle} {uuid : ℕ}

/-- A uuid that has no id has no handle. -/
lemma Registered.fresh (h : Registered handles m) (hfresh : m.zoneIdMap.lookup uuid = none)
    (hzone : handles.lookup name = some zone) : zone.id ≠ uuid := by
  rintro rfl
  obtain ⟨zoneId, hid⟩ := h.id name zone hzone
  rw [hfresh] at hid
  cases hid

lemma Registered.congr (h : Registered handles m) (hids : m'.zoneIdMap = m.zoneIdMap)
    (hnames : m'.zoneNameMap = m.zoneNameMap) : Registered handles m' where
  name := by
    rw [hnames]
    exact h.name
  id := by
    rw [hids]
    exact h.id
  named := by
    rw [hnames]
    exact h.named
  known := by
    rw [hids]
    exact h.known
  unique := h.unique

lemma Registered.create (h : Registered handles m) (config : ZoneConfig)
    (hnew : handles.lookup config.name = none) (hfresh : m.zoneIdMap.lookup uuid = none) :
    Registered (handles.insert config.name ⟨uuid, config.name, cgroupId, net⟩)
      (m.created config uuid cgroupId kernel) where
  name name zone hzone := by
    simp only [ZoneMaps.created, Table.lookup_insert_ite] at hzone ⊢
    split_ifs at hzone ⊢ with hname
    · cases hzone
      exact ⟨hname.symm, rfl⟩
    · exact h.name name zone hzone
  id name zone hzone := by
    simp only [ZoneMaps.created, Table.lookup_insert_ite] at hzone ⊢
    split_ifs at hzone with hname
    · cases hzone
      exact ⟨_, if_pos rfl⟩
    · rw [if_neg (h.fresh hfresh hzone)]
      exact h.id name zone hzone
  named name uuid' huuid := by
    simp only [ZoneMaps.created, Table.lookup_insert_ite] at huuid ⊢
    split_ifs at huuid ⊢ with hname
    · cases huuid
      exact ⟨_, rfl, rfl⟩
    · exact h.named name uuid' huuid
  known uuid' zoneId hid := by
    simp only [ZoneMaps.created, Table.lookup_insert_ite] at hid ⊢
    split_ifs at hid with huuid
    · exact ⟨config.name, _, if_pos rfl, huuid.symm⟩
    · obtain ⟨name, zone, hzone, hzoneId⟩ := h.known uuid' zoneId hid
      refine ⟨name, zone, ?_, hzoneId⟩
      rw [if_neg, hzone]
      rintro rfl
      rw [hnew] at hzone
      cases hzone
  unique name name' zone zone' hzone hzone' hids := by
    rw [Table.lookup_insert_ite] at hzone hzone'
    split_ifs at hzone hzone' with hname hname'
    · rw [hname, hname']
    · cases hzone
      exact absurd hids.symm (h.fresh hfresh hzone')
    · cases hzone'
      exact absurd hids (h.fresh hfresh hzone)
    · exact h.unique name name' zone zone' hzone hzone' hids

lemma Registered.destroy (h : Registered handles m) (hzone : handles.lookup name = some zone) :
    Registered (handles.erase name) (m.destroyed zone zoneId) where
  name name' zone' hzone' := by
    simp only [ZoneMaps.destroyed, (h.name name zone hzone).1, Table.lookup_erase_ite] at hzone' ⊢
    split_ifs at hzone' ⊢
    exact h.name name' zone' hzone'
  id name' zone' hzone' := by
    simp only [ZoneMaps.destroyed, Table.lookup_erase_ite] at hzone' ⊢
    split_ifs at hzone' with hne
    rw [if_neg fun hids => hne (h.unique name' name zone' zone hzone' hzone hids)]
    exact h.id name' zone' hzone'
  named name' uuid huuid := by
    simp only [ZoneMaps.destroyed, (h.name name zone hzone).1, Table.lookup_erase_ite] at huuid ⊢
    split_ifs at huuid ⊢
    exact h.named name' uuid huuid
  known uuid zoneId' hid := by
    simp only [ZoneMaps.destroyed, Table.lookup_erase_ite] at hid ⊢
    split_ifs at hid with hne
    obtain ⟨name', zone', hzone', rfl⟩ := h.known uuid zoneId' hid
    refine ⟨name', zone', ?_, rfl⟩
    rw [if_neg, hzone']
    rintro rfl
    rw [hzone] at hzone'
    cases hzone'
    exact hne rfl
  unique name₁ name₂ zone₁ zone₂ hzone₁ hzone₂ := by
    rw [Table.lookup_erase_ite] at hzone₁ hzone₂
    split_ifs at hzone₁ hzone₂
    exact h.unique name₁ name₂ zone₁ zone₂ hzone₁ hzone₂

variable {env : HostEnv}

lemma removes_of_orderly (h : z.orderly (.destroy env name) = true) : Removes env name := by
  simp only [Zones.orderly, Bool.and_eq_true, beq_iff_eq] at h
  exact ⟨h.1, h.2.1, h.2.2⟩

lemma fresh_of_orderly {zoneType : ZoneType}
    (h : z.orderly (.create env name zoneType policy uuid) = true) :
    z.host.maps.zoneIdMap.lookup uuid = none :=
  Option.isNone_iff_eq_none.mp h

/-- A destruction that has removed everything. -/
lemma Registered.destroyed (h : Registered z.handles z.host.maps)
    (hzone : z.handles.lookup name = some zone)
    (hmaps : ∀ zoneId, z.host.zoneIdMap.lookup zone.id = some zoneId → Removes env zone.name →
      z'.host.maps = z.host.maps.destroyed zone zoneId)
    (horderly : z.orderly (.destroy env name) = true) :
    ∃ zoneId, z.host.zoneIdMap.lookup zone.id = some zoneId ∧
      z'.host.maps = z.host.maps.destroyed zone zoneId := by
  obtain ⟨zoneId, hid⟩ := h.id name zone hzone
  refine ⟨zoneId, hid, hmaps zoneId hid ?_⟩
  rw [(h.name name zone hzone).1]
  exact removes_of_orderly horderly

/-- **Every successful operation keeps zones, names and ids together.** -/
lemma Registered.change (h : Registered z.handles z.host.maps) (hchange : Change z e z')
    (horderly : z.orderly e = true) : Registered z'.handles z'.host.maps := by
  cases hchange with
  | @create env name zoneType policy uuid cgroupId kernel net _ hnew hhandles hmaps =>
    rw [hhandles, hmaps]
    exact h.create (Zones.config name zoneType policy) hnew (fresh_of_orderly horderly)
  | apply he hzone hhandles hmaps =>
    obtain ⟨zoneId, kernel, hid, hmaps⟩ := hmaps
    rw [hhandles, hmaps]
    exact h.congr rfl rfl
  | destroy hzone hhandles hmaps =>
    obtain ⟨zoneId, hid, hmaps⟩ := h.destroyed hzone hmaps horderly
    rw [hhandles, hmaps]
    exact h.destroy hzone
  | createContainer hzone hhandles hmaps =>
    rw [hhandles]
    rcases hmaps.placed with hmaps | ⟨zoneId, hid, hmaps⟩
    · rw [hmaps]
      exact h
    · rw [hmaps]
      exact h.congr rfl rfl
  | deleteContainer hhandles hmaps =>
    rw [hhandles, hmaps]
    exact h

end

/-! ## A host to start from -/

/-- Nothing is known and nothing is in the maps. -/
def ZoneMaps.empty : ZoneMaps where
  membership _ := none
  policies _ := none
  inodeZoneMap _ := none
  zoneAllowedComms := ∅
  nextZoneId := 1
  zoneIdMap := ∅
  zoneNameMap := ∅
  registeredInodes _ := []
  zonePolicies _ := none

lemma registered_empty : Registered ∅ .empty where
  name _ _ h := by cases h
  id _ _ h := by cases h
  named _ _ h := by cases h
  known _ _ h := by cases h
  unique _ _ _ _ h := by cases h

/-- A policy that lists these zones and shares the host's network. -/
def listing (allowedZones : List String) : FullPolicy := strictPolicy ⟨.Host, allowedZones, [], []⟩

/-- A zone is created and its policy applied. -/
def bring (name : String) (uuid : ℕ) (allowedZones : List String) : List ZoneEvent :=
  [.create (smoothEnv []) name .NonGlobal (listing allowedZones) uuid,
    .enforce (smoothEnv []) name (listing allowedZones)]

end Rauha.Backend
