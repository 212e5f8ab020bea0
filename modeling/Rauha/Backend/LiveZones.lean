import Rauha.Backend.ZoneRuns

/-!
# The kernel maps and the zones that are there

Every entry of a kernel map belongs to a zone.  When a zone is destroyed, the backend removes its
inodes, its member and its policy; it does not remove the pairs of zones that may communicate.  They
stay, under an id that is never given out again, and nothing removes them later: bringing the pairs
of another zone up to date walks over the zones that are known.

`LiveOnly` says that the maps hold nothing of other zones.  Every successful operation keeps it,
apart from the destruction of a zone that is in a pair.
-/

namespace Rauha.Backend

open CrashLogic Transition Function

/-- **An id of a zone that is there.** -/
def Live (handles : Handles) (m : ZoneMaps) (zoneId : UInt32) : Prop :=
  ∃ name zone, handles.lookup name = some zone ∧ m.zoneIdMap.lookup zone.id = some zoneId

/-- **Everything in the maps is of a zone that is there.**  A member is the cgroup of its zone, and
    an inode is one that was registered for it. -/
structure LiveOnly (handles : Handles) (m : ZoneMaps) : Prop where
  comms : ∀ pair ∈ m.zoneAllowedComms, Live handles m pair.1 ∧ Live handles m pair.2
  policies : ∀ zoneId, m.policies zoneId ≠ none → Live handles m zoneId
  membership : ∀ ino zoneId zoneType, m.membership ino = some (zoneId, zoneType) →
    ∃ name zone, handles.lookup name = some zone ∧ zone.platformId = ino ∧
      m.zoneIdMap.lookup zone.id = some zoneId
  inodes : ∀ ino zoneId, m.inodeZoneMap ino = some zoneId →
    ∃ name zone, handles.lookup name = some zone ∧ m.zoneIdMap.lookup zone.id = some zoneId ∧
      ino ∈ m.registeredInodes name

/-- A zone that is destroyed is in no pair. -/
def Zones.unpaired (z : Zones) : ZoneEvent → Bool
  | .destroy _ name =>
    match z.handles.lookup name with
    | some zone =>
      match z.host.zoneIdMap.lookup zone.id with
      | some zoneId =>
        decide (z.host.zoneAllowedComms.filter (fun p => p.1 = zoneId ∨ p.2 = zoneId) = ∅)
      | none => true
    | none => true
  | _ => true

/-! ## Each operation -/

section

variable {handles : Handles} {m : ZoneMaps} {z z' : Zones} {e : ZoneEvent} {zone : ZoneHandle}
  {name : String} {zoneId k : UInt32} {uuid : ℕ}

/-- A zone that is there stays when another is created. -/
lemma created_lookup (h : Registered handles m) (config : ZoneConfig) (cgroupId : ℕ)
    (kernel : ZonePolicyKernel) (handle : ZoneHandle) (hnew : handles.lookup config.name = none)
    (hfresh : m.zoneIdMap.lookup uuid = none) (hzone : handles.lookup name = some zone) :
    (handles.insert config.name handle).lookup name = some zone ∧
      (m.created config uuid cgroupId kernel).zoneIdMap.lookup zone.id =
        m.zoneIdMap.lookup zone.id := by
  have hname : name ≠ config.name := by
    rintro rfl
    rw [hnew] at hzone
    cases hzone
  exact ⟨by rw [AList.lookup_insert_ne hname, hzone], AList.lookup_insert_ne (h.fresh hfresh hzone)⟩

/-- A zone that is there stays when another is destroyed. -/
lemma destroyed_lookup (h : Registered handles m) (hzone : handles.lookup name = some zone)
    (zoneId : UInt32) {name' : String} {zone' : ZoneHandle}
    (hzone' : handles.lookup name' = some zone') (hne : name' ≠ name) :
    (handles.erase name).lookup name' = some zone' ∧
      (m.destroyed zone zoneId).zoneIdMap.lookup zone'.id = m.zoneIdMap.lookup zone'.id :=
  ⟨by rw [AList.lookup_erase_ne hne, hzone'],
    AList.lookup_erase_ne fun hids => hne (h.unique name' name zone' zone hzone' hzone hids)⟩

/-- An id of a zone that is destroyed is its own. -/
lemma Live.destroy (h : Live handles m k) (hreg : Registered handles m)
    (hzone : handles.lookup name = some zone) (hid : m.zoneIdMap.lookup zone.id = some zoneId)
    (hne : k ≠ zoneId) : Live (handles.erase name) (m.destroyed zone zoneId) k := by
  obtain ⟨name', zone', hzone', hid'⟩ := h
  have hname : name' ≠ name := by
    rintro rfl
    rw [hzone] at hzone'
    cases hzone'
    rw [hid] at hid'
    exact hne (Option.some.inj hid').symm
  obtain ⟨hkept, hidkept⟩ := destroyed_lookup hreg hzone zoneId hzone' hname
  exact ⟨name', zone', hkept, hidkept.trans hid'⟩

lemma LiveOnly.create (h : LiveOnly handles m) (hreg : Registered handles m) (config : ZoneConfig)
    (cgroupId : ℕ) (kernel : ZonePolicyKernel) (net : Option ZoneNetworkState)
    (hnew : handles.lookup config.name = none) (hfresh : m.zoneIdMap.lookup uuid = none) :
    LiveOnly (handles.insert config.name ⟨uuid, config.name, cgroupId, net⟩)
      (m.created config uuid cgroupId kernel) := by
  have hkept := fun {name zone} => @created_lookup handles m zone name uuid hreg config cgroupId
    kernel ⟨uuid, config.name, cgroupId, net⟩ hnew hfresh
  have hlive : ∀ k, Live handles m k →
      Live (handles.insert config.name ⟨uuid, config.name, cgroupId, net⟩)
        (m.created config uuid cgroupId kernel) k := by
    rintro k ⟨name, zone, hzone, hid⟩
    exact ⟨name, zone, (hkept hzone).1, (hkept hzone).2.trans hid⟩
  refine ⟨fun pair hpair => (h.comms pair hpair).imp (hlive _) (hlive _), ?_, ?_, ?_⟩
  · intro k hk
    simp only [ZoneMaps.created, update_apply] at hk
    split_ifs at hk with hnext
    · exact ⟨config.name, _, AList.lookup_insert _, hnext ▸ AList.lookup_insert _⟩
    · exact hlive k (h.policies k hk)
  · intro ino k zoneType hmember
    simp only [ZoneMaps.created, update_apply] at hmember
    split_ifs at hmember with hino
    · cases hmember
      exact ⟨config.name, _, AList.lookup_insert _, hino.symm, AList.lookup_insert _⟩
    · obtain ⟨name, zone, hzone, hplatform, hid⟩ := h.membership ino k zoneType hmember
      exact ⟨name, zone, (hkept hzone).1, hplatform, (hkept hzone).2.trans hid⟩
  · intro ino k hino
    obtain ⟨name, zone, hzone, hid, hmem⟩ := h.inodes ino k hino
    exact ⟨name, zone, (hkept hzone).1, (hkept hzone).2.trans hid, hmem⟩

/-- The peers of a policy are zones that are there. -/
lemma live_of_allowed (hreg : Registered z.handles z.host.maps) {net : NetworkPolicy}
    (h : k ∈ allowedPeerIds z.host net) : Live z.handles z.host.maps k := by
  obtain ⟨name, -, hpeer⟩ := mem_allowedPeerIds.mp h
  obtain ⟨uuid, hname, hid⟩ := Option.bind_eq_some_iff.mp hpeer
  obtain ⟨zone, hzone, rfl⟩ := hreg.named name uuid hname
  exact ⟨name, zone, hzone, hid⟩

lemma LiveOnly.apply (h : LiveOnly z.handles z.host.maps) (hreg : Registered z.handles z.host.maps)
    {walk : List UInt32 → List UInt32} (hwalk : ∀ ids, (walk ids).Perm ids) {policy : FullPolicy}
    {kernel : ZonePolicyKernel} (hzone : z.handles.lookup name = some zone)
    (hid : z.host.zoneIdMap.lookup zone.id = some zoneId) :
    LiveOnly z.handles (z.host.maps.applied zone.name zoneId policy kernel
      (synced walk z.host zoneId policy.network)) := by
  have hself : Live z.handles z.host.maps zoneId := ⟨name, zone, hzone, hid⟩
  refine ⟨?_, ?_, h.membership, h.inodes⟩
  · intro pair hpair
    rcases (mem_synced hwalk).mp hpair with ⟨peer, hpeer, hbetween⟩ | ⟨hold, -⟩
    · have hlive := live_of_allowed hreg hpeer
      rcases hbetween with rfl | rfl
      · exact ⟨hself, hlive⟩
      · exact ⟨hlive, hself⟩
    · exact h.comms pair hold
  · intro k hk
    simp only [ZoneMaps.applied, update_apply] at hk
    split_ifs at hk with hself'
    · exact hself' ▸ hself
    · exact h.policies k hk

lemma LiveOnly.register (h : LiveOnly handles m) (hreg : Registered handles m) (inodes : List ℕ)
    (hzone : handles.lookup name = some zone) (hid : m.zoneIdMap.lookup zone.id = some zoneId) :
    LiveOnly handles (m.registered zone.name zoneId inodes) := by
  refine ⟨h.comms, h.policies, h.membership, ?_⟩
  intro ino k hino
  have hname := (hreg.name name zone hzone).1
  simp only [ZoneMaps.registered, hname] at hino ⊢
  split_ifs at hino with hmem
  · cases hino
    refine ⟨name, zone, hzone, hid, ?_⟩
    rw [update_self]
    exact List.mem_append_right _ hmem
  · obtain ⟨name', zone', hzone', hid', hmem'⟩ := h.inodes ino k hino
    refine ⟨name', zone', hzone', hid', ?_⟩
    rw [update_apply]
    split_ifs with heq
    · exact List.mem_append_left _ (heq ▸ hmem')
    · exact hmem'

/-- A zone that is in no pair leaves nothing behind. -/
lemma LiveOnly.destroy (h : LiveOnly handles m) (hreg : Registered handles m)
    (hzone : handles.lookup name = some zone) (hid : m.zoneIdMap.lookup zone.id = some zoneId)
    (hunpaired : ∀ pair ∈ m.zoneAllowedComms, pair.1 ≠ zoneId ∧ pair.2 ≠ zoneId) :
    LiveOnly (handles.erase name) (m.destroyed zone zoneId) := by
  have hname := (hreg.name name zone hzone).1
  refine ⟨?_, ?_, ?_, ?_⟩
  · intro pair hpair
    obtain ⟨hfst, hsnd⟩ := h.comms pair hpair
    obtain ⟨hne, hne'⟩ := hunpaired pair hpair
    exact ⟨hfst.destroy hreg hzone hid hne, hsnd.destroy hreg hzone hid hne'⟩
  · intro k hk
    simp only [ZoneMaps.destroyed, update_apply] at hk
    split_ifs at hk with heq
    · exact absurd rfl hk
    · exact (h.policies k hk).destroy hreg hzone hid heq
  · intro ino k zoneType hmember
    simp only [ZoneMaps.destroyed, update_apply] at hmember
    split_ifs at hmember with hino
    obtain ⟨name', zone', hzone', hplatform, hid'⟩ := h.membership ino k zoneType hmember
    have hne : name' ≠ name := by
      rintro rfl
      rw [hzone] at hzone'
      cases hzone'
      exact hino hplatform.symm
    obtain ⟨hkept, hidkept⟩ := destroyed_lookup hreg hzone zoneId hzone' hne
    exact ⟨name', zone', hkept, hplatform, hidkept.trans hid'⟩
  · intro ino k hino
    simp only [ZoneMaps.destroyed, hname] at hino ⊢
    split_ifs at hino with hmem
    obtain ⟨name', zone', hzone', hid', hmem'⟩ := h.inodes ino k hino
    have hne : name' ≠ name := by
      rintro rfl
      exact hmem hmem'
    obtain ⟨hkept, hidkept⟩ := destroyed_lookup hreg hzone zoneId hzone' hne
    refine ⟨name', zone', hkept, hidkept.trans hid', ?_⟩
    rw [update_of_ne hne]
    exact hmem'

/-- **Every successful operation keeps the maps to the zones that are there**, unless it destroys
    one that is in a pair. -/
lemma LiveOnly.change (h : LiveOnly z.handles z.host.maps) (hreg : Registered z.handles z.host.maps)
    (hchange : Change z e z') (horderly : z.orderly e = true) (hunpaired : z.unpaired e = true) :
    LiveOnly z'.handles z'.host.maps := by
  cases hchange with
  | @create env name zoneType policy uuid cgroupId kernel net _ hnew hhandles hmaps =>
    rw [hhandles, hmaps]
    exact h.create hreg (Zones.config name zoneType policy) cgroupId kernel net hnew
      (fresh_of_orderly horderly)
  | @apply _ env name policy zone _ he hzone hhandles hmaps =>
    obtain ⟨zoneId, kernel, hid, hmaps⟩ := hmaps
    rw [hhandles, hmaps]
    exact h.apply hreg env.walk_perm hzone hid
  | destroy hzone hhandles hmaps =>
    obtain ⟨zoneId, hid, hmaps⟩ := hreg.destroyed hzone hmaps horderly
    rw [hhandles, hmaps]
    simp only [Zones.unpaired, hzone, hid, decide_eq_true_eq, Finset.filter_eq_empty_iff,
      not_or] at hunpaired
    exact h.destroy hreg hzone hid hunpaired
  | createContainer hzone hhandles hmaps =>
    rw [hhandles]
    rcases hmaps.placed with hmaps | ⟨zoneId, hid, hmaps⟩
    · rw [hmaps]
      exact h
    · rw [hmaps]
      exact h.register hreg _ hzone hid
  | deleteContainer hhandles hmaps =>
    rw [hhandles, hmaps]
    exact h

/-! ## How many pairs there are -/

/-- The ids of the zones that are there. -/
def liveIds (handles : Handles) (m : ZoneMaps) : Finset UInt32 :=
  (handles.entries.filterMap fun entry => m.zoneIdMap.lookup entry.2.id).toFinset

lemma mem_liveIds (h : Live handles m k) : k ∈ liveIds handles m := by
  obtain ⟨name, zone, hzone, hid⟩ := h
  exact List.mem_toFinset.mpr (List.mem_filterMap.mpr ⟨⟨name, zone⟩, AList.mem_lookup_iff.mp hzone,
    hid⟩)

lemma card_liveIds_le : (liveIds handles m).card ≤ handles.entries.length :=
  (List.toFinset_card_le _).trans (List.length_filterMap_le _ _)

/-- There are no more pairs than ordered pairs of zones that are there. -/
lemma LiveOnly.card_comms_le (h : LiveOnly handles m) :
    m.zoneAllowedComms.card ≤ handles.entries.length ^ 2 := by
  have hsubset : m.zoneAllowedComms ⊆ liveIds handles m ×ˢ liveIds handles m := by
    intro pair hpair
    obtain ⟨hfst, hsnd⟩ := h.comms pair hpair
    exact Finset.mem_product.mpr ⟨mem_liveIds hfst, mem_liveIds hsnd⟩
  calc m.zoneAllowedComms.card
      ≤ (liveIds handles m ×ˢ liveIds handles m).card := Finset.card_le_card hsubset
    _ = (liveIds handles m).card ^ 2 := by rw [Finset.card_product, sq]
    _ ≤ handles.entries.length ^ 2 := Nat.pow_le_pow_left card_liveIds_le 2

end

/-! ## Whole runs -/

/-- An operation that succeeds, and that destroys no zone which is in a pair. -/
def Zones.tidy (cfg : HostConfig) (z : Zones) (e : ZoneEvent) : Prop :=
  (z.succeeds cfg e && (z.orderly e && z.unpaired e)) = true

instance (cfg : HostConfig) (z : Zones) (e : ZoneEvent) : Decidable (z.tidy cfg e) :=
  inferInstanceAs (Decidable (_ = true))

/-- **The maps hold only zones that are there**, after every operation of every run that destroys no
    zone which is in a pair; and there are no more pairs than ordered pairs of these zones. -/
theorem maps_hold_live_zones (cfg : HostConfig) (host : Host) (hempty : host.maps = .empty)
    (es : List ZoneEvent) (hes : Meets (Zones.step cfg) (Zones.tidy cfg) ⟨host, ∅⟩ es) :
    LiveOnly (run (Zones.step cfg) ⟨host, ∅⟩ es).handles
        (run (Zones.step cfg) ⟨host, ∅⟩ es).host.maps ∧
      (run (Zones.step cfg) ⟨host, ∅⟩ es).host.zoneAllowedComms.card ≤
        (run (Zones.step cfg) ⟨host, ∅⟩ es).handles.entries.length ^ 2 := by
  have hstart : Registered ∅ host.maps ∧ LiveOnly ∅ host.maps := by
    rw [hempty]
    refine ⟨registered_empty, ?_, ?_, ?_, ?_⟩
    · exact fun pair hpair => absurd hpair (Finset.notMem_empty _)
    · exact fun zoneId h => absurd rfl h
    · exact fun _ _ _ h => by cases h
    · exact fun _ _ h => by cases h
  have hrun := Meets.invariant
    (I := fun z : Zones => Registered z.handles z.host.maps ∧ LiveOnly z.handles z.host.maps)
    (fun z e h htidy => by
      simp only [Zones.tidy, Bool.and_eq_true] at htidy
      have hchange := step_change htidy.1
      exact ⟨h.1.change hchange htidy.2.1, h.2.change h.1 hchange htidy.2.1 htidy.2.2⟩)
    hstart hes
  exact ⟨hrun.2, hrun.2.card_comms_le⟩

/-- Zone `a` may reach `b` for a while; the permission is taken back before `b` is destroyed. -/
theorem maps_hold_live_zones_revoked :
    let es := bring "a" 1 [] ++ bring "b" 2 [] ++ [.reload (smoothEnv []) "a" (listing ["b"]),
      .createContainer (smoothEnv [40, 41]) "b" .Overlay 7,
      .reload (smoothEnv []) "a" (listing []), .destroy (smoothEnv []) "b"]
    LiveOnly (run (Zones.step bareConfig) ⟨emptyHost, ∅⟩ es).handles
        (run (Zones.step bareConfig) ⟨emptyHost, ∅⟩ es).host.maps ∧
      (run (Zones.step bareConfig) ⟨emptyHost, ∅⟩ es).host.zoneAllowedComms.card ≤
        (run (Zones.step bareConfig) ⟨emptyHost, ∅⟩ es).handles.entries.length ^ 2 :=
  maps_hold_live_zones bareConfig emptyHost rfl _ (by decide +kernel)

/-- **A pair outlives its zone**: `a` lists `b`, and `b` is destroyed.  Both pairs are still there
    with one zone left. -/
theorem pair_outlives_zone :
    let es := bring "b" 2 [] ++ bring "a" 1 ["b"] ++ [.destroy (smoothEnv []) "b"]
    let z := run (Zones.step bareConfig) ⟨emptyHost, ∅⟩ es
    Meets (Zones.step bareConfig) (fun z e => (z.succeeds bareConfig e && z.orderly e) = true)
        ⟨emptyHost, ∅⟩ es ∧
      z.host.zoneAllowedComms = {(1, 2), (2, 1)} ∧ z.handles.keys = ["a"] ∧
        ¬LiveOnly z.handles z.host.maps := by
  refine ⟨by decide +kernel, by decide +kernel, by decide +kernel, fun h => ?_⟩
  exact absurd h.card_comms_le (by decide +kernel)

end Rauha.Backend
