import Rauha.Backend.ZoneRuns

/-!
# Who owns an inode

A new container registers the inodes of its root file system for its zone: they are appended to the
zone's list, and each of them is mapped to the zone, whoever it was mapped to before.  Destroying a
zone unmaps all inodes of its list, whoever they are mapped to now.  An inode number that two zones
register therefore belongs to the later one, and to nobody once either of them is destroyed.

`Owned` says that the lists agree with the map.  `owned_registered` is the statement for whole runs,
with operations that may fail at any call; what it needs is that no inode is registered for two
zones that are there.
-/

namespace Rauha.Backend

open CrashLogic Transition Triple Function

/-- What decides about inodes. -/
def Host.owners (self : Host) :
    (ℕ → Option UInt32) × (String → List ℕ) × AList fun _ : ℕ => UInt32 :=
  (self.inodeZoneMap, self.registeredInodes, self.zoneIdMap)

/-- **The list of every zone agrees with the map.** -/
def Owned (z : Zones) : Prop :=
  ∀ name zone ino, z.handles.lookup name = some zone → ino ∈ z.host.registeredInodes name →
    ∃ zoneId, z.host.zoneIdMap.lookup zone.id = some zoneId ∧
      z.host.inodeZoneMap ino = some zoneId

/-- The events in question. -/
def ZoneEvent.concernsInodes : ZoneEvent → Bool
  | .createContainer _ _ _ _ => true
  | .deleteContainer _ => true
  | .destroy _ _ => true
  | _ => false

/-- A new container brings no inode that is registered for another zone. -/
def Zones.separate (z : Zones) : ZoneEvent → Bool
  | .createContainer env name _ _ =>
    z.handles.keys.all fun other => other == name ||
      (env.containerInodes.filter env.insertable).all fun ino =>
        !(z.host.registeredInodes other).contains ino
  | _ => true

/-! ## Destroying a zone, however that ends -/

section

variable {env : HostEnv} {self : Host} {zone : ZoneHandle} {α : Type}

/-- The zone has lost its id and its list, and some inodes of the list are not mapped any more. -/
def TornDown (self : Host) (zone : ZoneHandle) (s' : Host) : Prop :=
  ∃ removed, removed ⊆ self.registeredInodes zone.name ∧
    s'.owners = ((fun ino => if ino ∈ removed then none else self.inodeZoneMap ino),
      Function.update self.registeredInodes zone.name [], self.zoneIdMap.erase zone.id)

lemma onLinux_owners {c : LinuxM α} (h : Keeps Linux.zoneIdMap c) :
    Keeps Host.owners (onLinux c) := by
  refine .zoom h fun s t ht => ?_
  simp only [Host.owners, Host.withLinux, ht]

lemma TornDown.congr {s' s'' : Host} (h : TornDown self zone s')
    (howners : s''.owners = s'.owners) : TornDown self zone s'' := by
  obtain ⟨removed, hsub, hs'⟩ := h
  exact ⟨removed, hsub, howners.trans hs'⟩

/-- Once the id and the list are gone, inodes are removed. -/
lemma removeInodes_tornDown {s : Host} (h : s.owners = (self.inodeZoneMap,
      update self.registeredInodes zone.name [], self.zoneIdMap.erase zone.id)) :
    Ends (· = s) (Prog.ignore (removeInodes env .Destroy zone.name
      (self.registeredInodes zone.name)) : HostM Unit) (TornDown self zone) := by
  have hunset : ∀ removed, removed ⊆ self.registeredInodes zone.name →
      TornDown self zone (unsetInodes removed s) := by
    intro removed hsub
    refine ⟨removed, hsub, ?_⟩
    simp only [Host.owners, Prod.mk.injEq] at h
    simp only [Host.owners, unsetInodes, h]
  have hpart := hunset _ (List.take_subset env.inodesDone (self.registeredInodes zone.name))
  refine ignore_at ?_
  rintro plan _ rfl
  unfold removeInodes partCall
  cases env.verdict .Destroy zone.name .RemoveInodes with
  | ok => exact hunset _ (List.Subset.refl _)
  | err => exact hpart
  | cut => exact hpart

/-- What follows the removal of the inodes does not touch them. -/
lemma keeps_tornDown {c : HostM α} (hc : Keeps Host.owners c) {s : Host}
    (h : TornDown self zone s) : Ends (· = s) c (TornDown self zone) :=
  hc.triple_at (fun _ _ => h.congr) (fun _ _ => h.congr) fun _ => h.congr

/-- **Destroying a zone**: nothing has happened to inodes, or the zone is torn down. -/
lemma destroyZone_owners :
    Ends (· = self) (Host.destroyZone env zone) fun s' =>
      s'.owners = self.owners ∨ TornDown self zone s' := by
  refine bind_at (Keeps.triple_at (g := Host.owners)
    (.ignore (hostCall_keeps fun _ => rfl)) (fun _ s₁ h₁ => ?_) (fun _ _ => .inl)
    fun _ => .inl)
  refine bind_at ((onLinux_owners (drainZone_keeps fun _ _ => rfl)).triple_at (fun _ s₂ h₂ => ?_)
    (fun _ _ h => .inl (h.trans h₁)) fun _ h => .inl (h.trans h₁))
  have h₂ := h₂.trans h₁
  refine bind_at ((onLinux_owners (destroyZoneCgroup_keeps fun _ _ => rfl)).triple_at
    (fun _ s₃ h₃ => ?_) (fun _ _ h => .inl (h.trans h₂)) fun _ h => .inl (h.trans h₂))
  have h₃ := h₃.trans h₂
  refine bind_at (getState_at (bind_at (zoom_at (update_at (bind_at (update_at ?_))))))
  simp only [Host.owners, Prod.mk.injEq] at h₃
  obtain ⟨hmap, hlists, hids⟩ := h₃
  refine Triple.weaken ?_ (fun _ _ => .inr) fun _ => .inr
  refine seq_at (fun _ => TornDown self zone) ?_ fun _ s₄ h₄ => keeps_tornDown ?_ h₄
  · cases s₃.zoneIdMap.lookup zone.id with
    | none =>
      refine pure_at ⟨[], List.nil_subset _, ?_⟩
      simp [Host.owners, Host.withLinux, hmap, hlists, hids]
    | some zoneId =>
      rw [hlists]
      refine seq_at (fun _ => TornDown self zone) (removeInodes_tornDown ?_)
        fun _ s₅ h₅ => keeps_tornDown ?_ h₅
      · simp [Host.owners, Host.withLinux, hmap, hlists, hids]
      · exact .bind (.ignore (onLinux_owners (osCall_keeps fun _ => rfl))) fun _ =>
          .ignore (onLinux_owners (osCall_keeps fun _ => rfl))
  · exact .bind (releaseIp_keeps fun _ _ => rfl) fun _ =>
      .bind (.update fun _ => rfl) fun _ =>
        .bind (.ignore (onLinux_owners (destroyVethPair_keeps fun _ _ => rfl))) fun _ =>
          .bind (.ignore (onLinux_owners (destroyNetns_keeps fun _ _ => rfl))) fun _ =>
            .bind (.update fun _ => rfl) fun _ =>
              .bind (.update fun _ => rfl) fun _ => .update fun _ => rfl

end

/-! ## Each operation -/

/-- The lists of two zones have nothing in common, each zone has its own id, and the lists agree
    with the map. -/
structure Apart (z : Zones) : Prop where
  owned : Owned z
  name : ∀ name zone, z.handles.lookup name = some zone → zone.name = name
  unique : ∀ name name' zone zone', z.handles.lookup name = some zone →
    z.handles.lookup name' = some zone' → zone.id = zone'.id → name = name'
  disjoint : ∀ name name' zone zone' ino, z.handles.lookup name = some zone →
    z.handles.lookup name' = some zone' → name ≠ name' → ino ∈ z.host.registeredInodes name →
      ino ∉ z.host.registeredInodes name'

section

variable {z z' : Zones} {env : HostEnv} {name : String} {zone : ZoneHandle}

/-- Fewer handles, and nothing has happened to inodes. -/
lemma Apart.of_owners (h : Apart z) (howners : z'.host.owners = z.host.owners)
    (hhandles : ∀ name zone, z'.handles.lookup name = some zone →
      z.handles.lookup name = some zone) : Apart z' := by
  simp only [Host.owners, Prod.mk.injEq] at howners
  obtain ⟨hmap, hlists, hids⟩ := howners
  constructor
  · intro name zone ino hzone hino
    rw [hmap, hids]
    exact h.owned name zone ino (hhandles name zone hzone) (hlists ▸ hino)
  · exact fun name zone hzone => h.name name zone (hhandles name zone hzone)
  · exact fun name name' zone zone' hzone hzone' =>
      h.unique name name' zone zone' (hhandles name zone hzone) (hhandles name' zone' hzone')
  · intro name name' zone zone' ino hzone hzone'
    rw [hlists]
    exact h.disjoint name name' zone zone' ino (hhandles name zone hzone)
      (hhandles name' zone' hzone')

/-- **A zone that is torn down** takes nothing from the others. -/
lemma Apart.tornDown (h : Apart z) (hzone : z.handles.lookup name = some zone)
    (htorn : TornDown z.host zone z'.host)
    (hhandles : ∀ name zone, z'.handles.lookup name = some zone →
      z.handles.lookup name = some zone) : Apart z' := by
  obtain ⟨removed, hremoved, howners⟩ := htorn
  rw [h.name name zone hzone] at hremoved howners
  simp only [Host.owners, Prod.mk.injEq] at howners
  obtain ⟨hmap, hlists, hids⟩ := howners
  have hlist : ∀ {name' ino}, ino ∈ z'.host.registeredInodes name' →
      name' ≠ name ∧ ino ∈ z.host.registeredInodes name' := by
    intro name' ino hino
    rw [hlists, update_apply] at hino
    split_ifs at hino with heq
    · cases hino
    · exact ⟨heq, hino⟩
  constructor
  · intro name' zone' ino hzone' hino
    obtain ⟨hne, hino⟩ := hlist hino
    have hzone' := hhandles name' zone' hzone'
    obtain ⟨zoneId, hid, howner⟩ := h.owned name' zone' ino hzone' hino
    have hother : zone'.id ≠ zone.id := fun heq =>
      hne (h.unique name' name zone' zone hzone' hzone heq)
    have hkept : ino ∉ removed := fun hmem =>
      h.disjoint name' name zone' zone ino hzone' hzone hne hino (hremoved hmem)
    exact ⟨zoneId, by rw [hids, AList.lookup_erase_ne hother, hid], by simp [hmap, hkept, howner]⟩
  · exact fun name zone hzone => h.name name zone (hhandles name zone hzone)
  · exact fun name name' zone zone' hzone hzone' =>
      h.unique name name' zone zone' (hhandles name zone hzone) (hhandles name' zone' hzone')
  · intro name₁ name₂ zone₁ zone₂ ino hzone₁ hzone₂ hne hino hino'
    exact h.disjoint name₁ name₂ zone₁ zone₂ ino (hhandles name₁ zone₁ hzone₁)
      (hhandles name₂ zone₂ hzone₂) hne (hlist hino).2 (hlist hino').2

/-- **A container** whose inodes are of no other zone. -/
lemma Apart.register (h : Apart z) (hzone : z.handles.lookup name = some zone) {zoneId : UInt32}
    (hid : z.host.zoneIdMap.lookup zone.id = some zoneId) {inodes : List ℕ}
    (hmaps : z'.host.maps = z.host.maps.registered zone.name zoneId inodes)
    (hhandles : z'.handles = z.handles)
    (hseparate : ∀ name' zone', z.handles.lookup name' = some zone' → name' ≠ name →
      ∀ ino ∈ inodes, ino ∉ z.host.registeredInodes name') : Apart z' := by
  have hmap : z'.host.inodeZoneMap = _ := congrArg ZoneMaps.inodeZoneMap hmaps
  have hlists : z'.host.registeredInodes = _ := congrArg ZoneMaps.registeredInodes hmaps
  have hids : z'.host.zoneIdMap = _ := congrArg ZoneMaps.zoneIdMap hmaps
  simp only [ZoneMaps.registered, Host.maps, h.name name zone hzone] at hmap hlists hids
  have hlist : ∀ {name' ino}, ino ∈ z'.host.registeredInodes name' →
      ino ∈ z.host.registeredInodes name' ∨ name' = name ∧ ino ∈ inodes := by
    intro name' ino hino
    rw [hlists, update_apply] at hino
    split_ifs at hino with heq
    · rcases List.mem_append.mp hino with hino | hino
      · exact .inl (heq ▸ hino)
      · exact .inr ⟨heq, hino⟩
    · exact .inl hino
  constructor
  · intro name' zone' ino hzone' hino
    rw [hhandles] at hzone'
    rw [hmap, hids]
    by_cases hnew : ino ∈ inodes
    · -- an inode of the new container is in no other list
      have heq : name' = name := by
        by_contra hne
        rcases hlist hino with hold | ⟨heq, -⟩
        · exact hseparate name' zone' hzone' hne ino hnew hold
        · exact hne heq
      subst heq
      rw [hzone] at hzone'
      cases hzone'
      exact ⟨zoneId, hid, if_pos hnew⟩
    · rcases hlist hino with hold | ⟨-, hmem⟩
      · obtain ⟨zoneId', hid', howner⟩ := h.owned name' zone' ino hzone' hold
        exact ⟨zoneId', hid', by simp [hnew, howner]⟩
      · exact absurd hmem hnew
  · rw [hhandles]
    exact h.name
  · rw [hhandles]
    exact h.unique
  · intro name₁ name₂ zone₁ zone₂ ino hzone₁ hzone₂ hne hino₁ hino₂
    rw [hhandles] at hzone₁ hzone₂
    rcases hlist hino₁ with hold₁ | ⟨rfl, hnew₁⟩
    · rcases hlist hino₂ with hold₂ | ⟨rfl, hnew₂⟩
      · exact h.disjoint name₁ name₂ zone₁ zone₂ ino hzone₁ hzone₂ hne hold₁ hold₂
      · exact hseparate name₁ zone₁ hzone₁ hne ino hnew₂ hold₁
    · rcases hlist hino₂ with hold₂ | ⟨rfl, -⟩
      · exact hseparate name₂ zone₂ hzone₂ hne.symm ino hnew₁ hold₂
      · exact hne rfl

/-- The host after an operation, if every way it can end leads to `R`. -/
lemma onZone_final (name : String) {c : ZoneHandle → HostM Unit} {R : ZoneHandle → Host → Prop}
    (h : ∀ zone, Ends (· = z.host) (c zone) (R zone)) :
    (z.onZone name c).2 = z.host ∧ z.handles.lookup name = none ∨
      ∃ zone, z.handles.lookup name = some zone ∧ R zone (z.onZone name c).2 := by
  unfold Zones.onZone
  cases z.handles.lookup name with
  | none => exact .inl ⟨rfl, rfl⟩
  | some zone =>
    refine .inr ⟨zone, rfl, ?_⟩
    have hfinal := (h zone).final [] rfl
    simp only [perform]
    rcases hrun : c zone [] z.host with ⟨o, plan, s'⟩
    rw [hrun] at hfinal
    cases o <;> exact hfinal

/-- **One operation, whether it succeeds or not.** -/
lemma Apart.step {cfg : HostConfig} (h : Apart z) {e : ZoneEvent}
    (hconcerns : e.concernsInodes = true) (hseparate : z.separate e = true) :
    Apart (z.step cfg e) := by
  cases e with
  | create env name zoneType policy uuid => cases hconcerns
  | enforce env name policy => cases hconcerns
  | reload env name policy => cases hconcerns
  | destroy env name =>
    have herase : ∀ name' zone', (z.handles.erase name).lookup name' = some zone' →
        z.handles.lookup name' = some zone' := by
      intro name' zone' hzone'
      rw [Table.lookup_erase_ite] at hzone'
      split_ifs at hzone'
      exact hzone'
    have hsame : ∀ name' zone', z.handles.lookup name' = some zone' →
        z.handles.lookup name' = some zone' := fun _ _ hzone => hzone
    rcases onZone_final name (fun zone => @destroyZone_owners env z.host zone) with
      ⟨hhost, hnone⟩ | ⟨zone, hzone, hfinal⟩
    · simp only [Zones.step, Zones.onZone, hnone]
      exact h
    · simp only [Zones.step]
      rcases hrun : z.onZone name (Host.destroyZone env) with ⟨o, host⟩
      rw [hrun] at hfinal
      rcases hfinal with howners | htorn
      · cases o with
        | some u => exact h.of_owners howners herase
        | none => exact h.of_owners howners hsame
      · cases o with
        | some u => exact h.tornDown hzone htorn herase
        | none => exact h.tornDown hzone htorn hsame
  | createContainer env name rootfs id =>
    have hplaced : ∀ zone, Ends (· = z.host) (Host.createContainer env zone rootfs id) fun s' =>
        Placed env z.host.maps zone s'.maps := fun zone =>
      Triple.post createContainer_leaves (fun _ _ => Collected.placed)
    rcases onZone_final name hplaced with
      ⟨hhost, hnone⟩ | ⟨zone, hzone, hmaps | ⟨zoneId, hid, hmaps⟩⟩
    · simp only [Zones.step, Zones.onZone, hnone]
      exact h
    · have howners := congrArg (fun m : ZoneMaps =>
        (m.inodeZoneMap, m.registeredInodes, m.zoneIdMap)) hmaps
      exact h.of_owners howners fun _ _ hzone => hzone
    · refine h.register hzone hid hmaps rfl ?_
      intro name' zone' hzone' hne ino hino hmem
      simp only [Zones.separate, List.all_eq_true] at hseparate
      have hkey : name' ∈ z.handles.keys :=
        AList.mem_keys.mp (AList.lookup_isSome.mp (by rw [hzone']; rfl))
      have hnot := hseparate name' hkey
      simp only [beq_eq_false_iff_ne.mpr hne, Bool.false_or, List.all_eq_true,
        Bool.not_eq_true', List.contains_eq_mem, decide_eq_false_iff_not] at hnot
      exact hnot ino hino hmem
  | deleteContainer id => exact h.of_owners rfl fun _ _ hzone => hzone

end

/-! ## Whole runs -/

/-- A container or a destruction, with inodes that are of no other zone. -/
def Zones.keepsApart (z : Zones) (e : ZoneEvent) : Prop :=
  (e.concernsInodes && z.separate e) = true

instance (z : Zones) (e : ZoneEvent) : Decidable (z.keepsApart e) :=
  inferInstanceAs (Decidable (_ = true))

/-- **File ownership is stable.**  From any zones that have no inodes yet, through any containers,
    deletions and destructions, succeeding or not: the inodes that are recorded for a zone that is
    there are mapped to it, if no container brings an inode that is recorded for another zone. -/
theorem owned_registered (cfg : HostConfig) (z : Zones) (hreg : Registered z.handles z.host.maps)
    (hnone : ∀ name, z.host.registeredInodes name = []) (es : List ZoneEvent)
    (hes : Meets (.step cfg) Zones.keepsApart z es) : Owned (run (.step cfg) z es) := by
  have hstart : Apart z := by
    refine ⟨?_, fun name zone hzone => (hreg.name name zone hzone).1, hreg.unique, ?_⟩
    · intro name zone ino _ hino
      rw [hnone] at hino
      cases hino
    · intro name name' zone zone' ino _ _ _ hino
      rw [hnone] at hino
      cases hino
  refine (Meets.invariant (fun z e h hkeeps => ?_) hstart hes).owned
  simp only [Zones.keepsApart, Bool.and_eq_true] at hkeeps
  exact h.step hkeeps.1 hkeeps.2

/-- Two zones that have just been created. -/
def twoZones : Zones := run (.step bareConfig) ⟨emptyHost, ∅⟩ (bring "a" 1 [] ++ bring "b" 2 [])

lemma twoZones_registered : Registered twoZones.handles twoZones.host.maps := by
  have hstart : Registered ∅ emptyHost.maps := registered_empty
  have horderly : Meets (Zones.step bareConfig)
      (fun z e => (z.succeeds bareConfig e && z.orderly e) = true) ⟨emptyHost, ∅⟩
      (bring "a" 1 [] ++ bring "b" 2 []) := by
    decide +kernel
  refine Meets.invariant (I := fun z : Zones => Registered z.handles z.host.maps)
    (fun z e h horderly => ?_) hstart horderly
  rw [Bool.and_eq_true] at horderly
  exact h.change (step_change horderly.1) horderly.2

lemma twoZones_none (name : String) : twoZones.host.registeredInodes name = [] := rfl

/-- Both zones get a container, with inodes of their own, and one of the zones goes. -/
theorem owned_registered_destroyed :
    Owned (run (.step bareConfig) twoZones
      [.createContainer (smoothEnv [40, 41]) "a" .Overlay 7,
        .createContainer (smoothEnv [42]) "b" .Overlay 8, .deleteContainer 7,
        .destroy (smoothEnv []) "a"]) :=
  owned_registered bareConfig twoZones twoZones_registered twoZones_none _ (by decide +kernel)

/-- **An inode number that two zones have.**  The second container takes it from the first, and once
    its zone is destroyed, the inode belongs to nobody. -/
theorem shared_inode_lost :
    let es := [.createContainer (smoothEnv [40]) "a" .Overlay 7,
      .createContainer (smoothEnv [40]) "b" .Overlay 8, .destroy (smoothEnv []) "b"]
    let z := run (.step bareConfig) twoZones es
    Meets (.step bareConfig) (fun z e => z.succeeds bareConfig e = true) twoZones es ∧
      z.handles.keys = ["a"] ∧ z.host.registeredInodes "a" = [40] ∧
        z.host.inodeZoneMap 40 = none ∧ ¬Owned z := by
  have hnone : (run (.step bareConfig) twoZones
      [.createContainer (smoothEnv [40]) "a" .Overlay 7,
        .createContainer (smoothEnv [40]) "b" .Overlay 8,
        .destroy (smoothEnv []) "b"]).host.inodeZoneMap 40 = none := by
    decide +kernel
  refine ⟨by decide +kernel, by decide +kernel, by decide +kernel, hnone, fun h => ?_⟩
  obtain ⟨zoneId, -, howner⟩ := h "a" ⟨1, "a", 1, none⟩ 40 (by decide +kernel) (by decide +kernel)
  rw [hnone] at howner
  cases howner

end Rauha.Backend
