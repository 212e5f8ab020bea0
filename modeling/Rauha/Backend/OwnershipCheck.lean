import Rauha.Backend.ZoneRuns

/-!
# The check of inode ownership

`verify_isolation` compares three views of the inodes of a zone: what is recorded for it, what is
found below the root file systems of its containers, and what the kernel map says.  As long as the
zone has processes, the first two have to be equal.

Creating a container adds to all three.  Deleting one unmounts its overlay, which takes its inodes
from the disk and from nothing else; a root file system that was copied stays where it is.
`ownership_check_iff` says when the check passes, in every state that creations and deletions lead
to.
-/

namespace Rauha.Backend

open CrashLogic Transition

/-! ## The disk -/

/-- The most inodes that are enforced, over all zones. -/
def maxInodes : ℕ := 262144

/-- The directory of a container, with the inodes below its root file system as they were when the
    container was created. -/
structure ContainerDir where
  id : ℕ
  rootfs : Host.Rootfs
  mounted : Bool
  inodes : List ℕ
  deriving DecidableEq, Repr

/-- The entries that are found: an overlay that is not mounted is an empty directory. -/
def ContainerDir.listing (dir : ContainerDir) : List ℕ :=
  match dir.rootfs with
  | .Overlay => if dir.mounted then dir.inodes else []
  | _ => dir.inodes

/-- The entries of a root file system, one by one, as long as there is room for another. -/
def collectRootfsInodes (listing : List ℕ) (room : ℕ) : Except String (List ℕ) :=
  if listing.length ≤ room then .ok listing
  else .error ("rootfs inode count exceeds enforcement capacity of " ++ toString room)

/-- The directories of a zone, in the order in which they are read. -/
def collectZoneRootfsInodes : List ContainerDir → Finset ℕ → Except String (Finset ℕ)
  | [], inodes => .ok inodes
  | dir :: dirs, inodes =>
    let remaining := maxInodes - inodes.card
    if remaining = 0 then
      .error ("zone rootfs inode count exceeds enforcement capacity of " ++ toString maxInodes)
    else
      match collectRootfsInodes dir.listing remaining with
      | .error e => .error e
      | .ok listed => collectZoneRootfsInodes dirs (inodes ∪ listed.toFinset)

/-! ## The check -/

inductive InodeCheckPlan where
  | FailLive
  | Mismatch (recorded expected : ℕ)
  | DiskError (message : String)
  | Attest (set : Finset ℕ) (note : String)

def inodeOwnershipCheckPlan (hasProcesses : Bool) (disk : Except String (Finset ℕ))
    (recorded : Finset ℕ) : InodeCheckPlan :=
  match disk with
  | .error e => .DiskError e
  | .ok disk =>
    if hasProcesses then
      if disk = ∅ then .FailLive
      else if disk ≠ recorded then .Mismatch recorded.card disk.card
      else .Attest disk ""
    else .Attest recorded " (zone idle — attesting recorded set)"

/-- Every inode is mapped to the zone. -/
def inodesMatch (inodeZoneMap : ℕ → Option UInt32) (inodes : Finset ℕ) (zoneId : UInt32) : Bool :=
  decide (∀ ino ∈ inodes, inodeZoneMap ino = some zoneId)

/-- **`filesystem:inode_ownership`**: whether the check passes, and what it says. -/
def inodeOwnershipCheck (self : Host) (zone : ZoneHandle) (hasProcesses : Bool)
    (dirs : List ContainerDir) : Bool × String :=
  match self.zoneIdMap.lookup zone.id with
  | none => (false, "zone has no userspace kernel identifier")
  | some zoneId =>
    match inodeOwnershipCheckPlan hasProcesses (collectZoneRootfsInodes dirs ∅)
        (self.registeredInodes zone.name).toFinset with
    | .FailLive => (false, "live zone has no discoverable rootfs inode ownership")
    | .Mismatch recorded expected =>
      (false, "userspace inode ownership differs from rootfs: recorded " ++ toString recorded ++
        ", expected " ++ toString expected)
    | .DiskError e => (false, "failed to enumerate zone rootfs: " ++ e)
    | .Attest set note =>
      if inodesMatch self.inodeZoneMap set zoneId then
        (true, toString set.card ++ " rootfs inodes registered" ++ note)
      else (false, "kernel inode ownership map is incomplete or mismatched")

/-! ## Creations and deletions in one zone -/

/-- A host, and the container directories of one of its zones. -/
structure ZoneDisk where
  host : Host
  dirs : List ContainerDir

inductive DiskEvent where
  | create (env : HostEnv) (rootfs : Host.Rootfs) (id : ℕ)
  | delete (id : ℕ)

namespace ZoneDisk

variable (zone : ZoneHandle) (w : ZoneDisk)

/-- The directory of a container stays; its overlay is unmounted. -/
def unmountOverlay (id : ℕ) : List ContainerDir :=
  w.dirs.map fun dir => if dir.id = id then { dir with mounted := false } else dir

def step : DiskEvent → ZoneDisk
  | .create env rootfs id =>
    match perform (Host.createContainer env zone rootfs id) w.host with
    | (some _, host) => ⟨host, w.dirs ++ [⟨id, rootfs, true, env.containerInodes⟩]⟩
    | (none, host) => { w with host := host }
  | .delete id =>
    ⟨{ w.host with
      shimContainers := w.host.shimContainers.erase id
      mounts := w.host.mounts.erase id }, w.unmountOverlay id⟩

/-- A container is created, its inodes can be listed, and the map takes all of them. -/
def admits (e : DiskEvent) : Prop :=
  (match e with
  | .create env rootfs id =>
    (perform (Host.createContainer env zone rootfs id) w.host).1.isSome &&
      (env.verdict .CreateContainer zone.name .CollectInodes == .ok &&
        env.containerInodes.all env.insertable)
  | .delete _ => true) = true

instance (e : DiskEvent) : Decidable (w.admits zone e) := inferInstanceAs (Decidable (_ = true))

end ZoneDisk

/-! ## What is collected -/

/-- All inodes that are found below some directories. -/
def found (dirs : List ContainerDir) : Finset ℕ := (dirs.flatMap (·.listing)).toFinset

/-- There is room for every directory when its turn comes. -/
def Room (dirs : List ContainerDir) : Prop :=
  ∀ before dir after, dirs = before ++ dir :: after →
    (found before).card + max 1 dir.listing.length ≤ maxInodes

section

variable {dir : ContainerDir} {dirs before : List ContainerDir}

lemma found_append : found (before ++ dirs) = found before ∪ found dirs := by
  simp [found, List.flatMap_append]

/-- There is room as long as all entries together are fewer than the map can hold. -/
lemma room_of_length_lt (h : (dirs.flatMap (·.listing)).length < maxInodes) : Room dirs := by
  rintro before dir after rfl
  have hcard : (found before).card ≤ (before.flatMap (·.listing)).length := List.toFinset_card_le _
  rw [List.flatMap_append, List.flatMap_cons, List.length_append, List.length_append] at h
  omega

lemma found_singleton : found [dir] = dir.listing.toFinset := by
  simp [found]

lemma mem_found {ino : ℕ} : ino ∈ found dirs ↔ ∃ dir ∈ dirs, ino ∈ dir.listing := by
  simp [found]

/-- **The disk can be read exactly if there is room**, and what is read is what is there. -/
lemma collect_eq_ok {inodes : Finset ℕ} :
    collectZoneRootfsInodes dirs (found before) = .ok inodes ↔
      inodes = found (before ++ dirs) ∧ ∀ mid dir after, dirs = mid ++ dir :: after →
        (found (before ++ mid)).card + max 1 dir.listing.length ≤ maxInodes := by
  induction dirs generalizing before with
  | nil =>
    simp only [collectZoneRootfsInodes, List.append_nil, Except.ok.injEq]
    constructor
    · rintro rfl
      refine ⟨rfl, fun mid dir after h => ?_⟩
      simp at h
    · rintro ⟨rfl, -⟩
      rfl
  | cons dir dirs ih =>
    have hhead : (maxInodes - (found before).card ≠ 0 ∧
        dir.listing.length ≤ maxInodes - (found before).card) ↔
        (found before).card + max 1 dir.listing.length ≤ maxInodes := by omega
    have hsplit : (∀ mid dir' after, dir :: dirs = mid ++ dir' :: after →
        (found (before ++ mid)).card + max 1 dir'.listing.length ≤ maxInodes) ↔
        (found before).card + max 1 dir.listing.length ≤ maxInodes ∧
          ∀ mid dir' after, dirs = mid ++ dir' :: after →
            (found (before ++ [dir] ++ mid)).card + max 1 dir'.listing.length ≤ maxInodes := by
      constructor
      · intro h
        refine ⟨by simpa using h [] dir dirs rfl, fun mid dir' after hdirs => ?_⟩
        have := h (dir :: mid) dir' after (by rw [hdirs]; rfl)
        simpa using this
      · rintro ⟨hfirst, hrest⟩ mid dir' after hdirs
        cases mid with
        | nil =>
          cases hdirs
          simpa using hfirst
        | cons head mid =>
          obtain ⟨rfl, rfl⟩ := List.cons_eq_cons.mp hdirs
          simpa using hrest mid dir' after rfl
    have hnext : found before ∪ dir.listing.toFinset = found (before ++ [dir]) := by
      rw [found_append, found_singleton]
    rw [hsplit, ← hhead]
    simp only [collectZoneRootfsInodes, collectRootfsInodes]
    by_cases hzero : maxInodes - (found before).card = 0
    · simp [hzero]
    · rw [if_neg hzero]
      by_cases hroom : dir.listing.length ≤ maxInodes - (found before).card
      · simp only [hroom, if_true, hnext, ih, List.append_assoc]
        simp [hzero]
      · simp [hroom]

end

/-! ## When the check passes -/

/-- Every inode that a container had when it was created is still found, in some directory. -/
def Covered (dirs : List ContainerDir) : Prop :=
  ∀ dir ∈ dirs, ∀ ino ∈ dir.inodes, ∃ dir' ∈ dirs, ino ∈ dir'.listing

/-- What creations and deletions establish: all inodes that any container had are recorded, and
    mapped to the zone. -/
structure Tracked (zone : ZoneHandle) (zoneId : UInt32) (w : ZoneDisk) : Prop where
  id : w.host.zoneIdMap.lookup zone.id = some zoneId
  recorded : ∀ ino, ino ∈ w.host.registeredInodes zone.name ↔ ∃ dir ∈ w.dirs, ino ∈ dir.inodes
  mapped : ∀ dir ∈ w.dirs, ∀ ino ∈ dir.inodes, w.host.inodeZoneMap ino = some zoneId

section

variable {zone : ZoneHandle} {zoneId : UInt32} {w : ZoneDisk}

lemma ContainerDir.listing_subset (dir : ContainerDir) : dir.listing ⊆ dir.inodes := by
  unfold ContainerDir.listing
  cases dir.rootfs with
  | Overlay =>
    by_cases hmounted : dir.mounted = true
    · simp [hmounted]
    · simp [hmounted]
  | Copy => exact .refl _
  | Empty => exact .refl _

/-- Unmounting changes what is found, not what was there. -/
lemma exists_unmountOverlay (id : ℕ) {p : List ℕ → Prop} :
    (∃ dir ∈ w.unmountOverlay id, p dir.inodes) ↔ ∃ dir ∈ w.dirs, p dir.inodes := by
  have hinodes : ∀ dir : ContainerDir,
      (if dir.id = id then { dir with mounted := false } else dir).inodes = dir.inodes := by
    intro dir
    split_ifs <;> rfl
  simp only [ZoneDisk.unmountOverlay, List.mem_map, exists_exists_and_eq_and, hinodes]

lemma Tracked.create (h : Tracked zone zoneId w) {env : HostEnv} {rootfs : Host.Rootfs} {id : ℕ}
    (hadmits : w.admits zone (.create env rootfs id)) :
    Tracked zone zoneId (w.step zone (.create env rootfs id)) := by
  simp only [ZoneDisk.admits, Bool.and_eq_true, beq_iff_eq, List.all_eq_true] at hadmits
  obtain ⟨hdone, hcollect, hinsertable⟩ := hadmits
  obtain ⟨u, hu⟩ := Option.isSome_iff_exists.mp hdone
  have hmaps := perform_returns createContainer_leaves.returns hu
  rw [ZoneDisk.step]
  rcases hperform : perform (Host.createContainer env zone rootfs id) w.host with ⟨o, host⟩
  rw [hperform] at hu hmaps
  obtain rfl : o = some u := hu
  obtain ⟨hnot, -⟩ | ⟨zoneId', hid, hmaps⟩ := hmaps
  · exact absurd hcollect hnot
  have hall : env.containerInodes.filter env.insertable = env.containerInodes :=
    List.filter_eq_self.mpr hinsertable
  rw [hall] at hmaps
  obtain rfl : zoneId' = zoneId := Option.some.inj (hid.symm.trans h.id)
  have hids : host.zoneIdMap = _ := congrArg ZoneMaps.zoneIdMap hmaps
  have hlist : host.registeredInodes = _ := congrArg ZoneMaps.registeredInodes hmaps
  have hmap : host.inodeZoneMap = _ := congrArg ZoneMaps.inodeZoneMap hmaps
  constructor
  · rw [hids]
    exact hid
  · intro ino
    rw [hlist]
    simp only [ZoneMaps.registered, Function.update_self, List.mem_append, List.mem_singleton]
    rw [show ino ∈ w.host.maps.registeredInodes zone.name ↔ _ from h.recorded ino]
    constructor
    · rintro (⟨dir, hdir, hino⟩ | hino)
      · exact ⟨dir, .inl hdir, hino⟩
      · exact ⟨_, .inr rfl, hino⟩
    · rintro ⟨dir, hdir | rfl, hino⟩
      · exact .inl ⟨dir, hdir, hino⟩
      · exact .inr hino
  · intro dir hdir ino hino
    rw [hmap]
    simp only [ZoneMaps.registered]
    split_ifs with hnew
    · rfl
    · rcases List.mem_append.mp hdir with hdir | hdir
      · exact h.mapped dir hdir ino hino
      · rw [List.mem_singleton] at hdir
        subst hdir
        exact absurd hino hnew

lemma Tracked.delete (h : Tracked zone zoneId w) (id : ℕ) :
    Tracked zone zoneId (w.step zone (.delete id)) where
  id := h.id
  recorded ino := (h.recorded ino).trans (exists_unmountOverlay id (p := (ino ∈ ·))).symm
  mapped dir hdir ino hino := by
    obtain ⟨dir', hdir', hino'⟩ := (exists_unmountOverlay id (p := (ino ∈ ·))).mp ⟨dir, hdir, hino⟩
    exact h.mapped dir' hdir' ino hino'

/-- The check of a zone with processes, in a state where everything is recorded. -/
lemma Tracked.check_iff (h : Tracked zone zoneId w) {dirs : List ContainerDir}
    (hdirs : dirs.Perm w.dirs) :
    (inodeOwnershipCheck w.host zone true dirs).1 = true ↔
      Room dirs ∧ (∃ dir ∈ dirs, dir.listing ≠ []) ∧ Covered dirs := by
  have hrecorded : ∀ ino, ino ∈ (w.host.registeredInodes zone.name).toFinset ↔
      ∃ dir ∈ dirs, ino ∈ dir.inodes := by
    intro ino
    simp only [List.mem_toFinset, h.recorded, hdirs.mem_iff]
  have hsub : found dirs ⊆ (w.host.registeredInodes zone.name).toFinset := by
    intro ino hino
    obtain ⟨dir, hdir, hmem⟩ := mem_found.mp hino
    exact (hrecorded ino).mpr ⟨dir, hdir, dir.listing_subset hmem⟩
  have hcovered : found dirs = (w.host.registeredInodes zone.name).toFinset ↔ Covered dirs := by
    constructor
    · intro heq dir hdir ino hino
      exact mem_found.mp (heq ▸ (hrecorded ino).mpr ⟨dir, hdir, hino⟩)
    · intro hcovered
      refine Finset.Subset.antisymm hsub fun ino hino => ?_
      obtain ⟨dir, hdir, hmem⟩ := (hrecorded ino).mp hino
      exact mem_found.mpr (hcovered dir hdir ino hmem)
  have hmatch : inodesMatch w.host.inodeZoneMap (found dirs) zoneId = true := by
    simp only [inodesMatch, decide_eq_true_eq]
    intro ino hino
    obtain ⟨dir, hdir, hmem⟩ := mem_found.mp hino
    exact h.mapped dir (hdirs.mem_iff.mp hdir) ino (dir.listing_subset hmem)
  have hempty : found dirs = ∅ ↔ ¬∃ dir ∈ dirs, dir.listing ≠ [] := by
    simp [found, List.flatMap_eq_nil_iff]
  have hcollect : ∀ inodes, collectZoneRootfsInodes dirs ∅ = .ok inodes ↔
      inodes = found dirs ∧ Room dirs := fun inodes =>
    @collect_eq_ok dirs [] inodes
  simp only [inodeOwnershipCheck, h.id, inodeOwnershipCheckPlan]
  cases hdisk : collectZoneRootfsInodes dirs ∅ with
  | error e =>
    have hno : ¬Room dirs := fun hroom => by
      rw [(hcollect (found dirs)).mpr ⟨rfl, hroom⟩] at hdisk
      cases hdisk
    simp [hno]
  | ok inodes =>
    obtain ⟨rfl, hroom⟩ := (hcollect inodes).mp hdisk
    rw [← hcovered]
    by_cases hnone : found dirs = ∅
    · have hno := hempty.mp hnone
      simp [hnone, hno]
    · have hsome := not_not.mp (mt hempty.mpr hnone)
      by_cases heq : found dirs = (w.host.registeredInodes zone.name).toFinset
      · rw [heq] at hmatch hnone
        simp [heq, hnone, hmatch, hroom, hsome]
      · simp [heq, hnone]

end

/-- **When inode ownership passes**, for a zone with processes: after any creations and deletions of
    containers, with the directories read in any order.  Every inode that any container of the zone
    ever had is still found below some container; something is found at all; and there is room for
    every directory when its turn comes. -/
theorem ownership_check_iff (zone : ZoneHandle) (zoneId : UInt32) (host : Host)
    (hid : host.zoneIdMap.lookup zone.id = some zoneId)
    (hnone : host.registeredInodes zone.name = []) (es : List DiskEvent)
    (hes : Meets (ZoneDisk.step zone) (ZoneDisk.admits zone) ⟨host, []⟩ es)
    (dirs : List ContainerDir) (hdirs : dirs.Perm (run (ZoneDisk.step zone) ⟨host, []⟩ es).dirs) :
    (inodeOwnershipCheck (run (ZoneDisk.step zone) ⟨host, []⟩ es).host zone true dirs).1 = true ↔
      Room dirs ∧ (∃ dir ∈ dirs, dir.listing ≠ []) ∧ Covered dirs := by
  have hstart : Tracked zone zoneId ⟨host, []⟩ := by
    refine ⟨hid, fun ino => ?_, fun dir hdir => ?_⟩
    · simp [hnone]
    · cases hdir
  have hrun := Meets.invariant (I := Tracked zone zoneId) (fun w e h hadmits => by
    cases e with
    | create env rootfs id => exact h.create hadmits
    | delete id => exact h.delete id) hstart hes
  exact hrun.check_iff hdirs

/-! ## A zone with two containers -/

/-- A zone that has just been created. -/
def newZone : ZoneHandle := ⟨1, "a", 1, none⟩

def newZoneHost : Host := (run (Zones.step bareConfig) ⟨emptyHost, ∅⟩ (bring "a" 1 [])).host

/-- Two containers of the same image: their overlays show the same inodes. -/
def sameImage : List DiskEvent :=
  [.create (smoothEnv [40, 41]) .Overlay 7, .create (smoothEnv [40, 41]) .Overlay 8, .delete 7]

theorem ownership_check_same_image :
    (inodeOwnershipCheck (run (ZoneDisk.step newZone) ⟨newZoneHost, []⟩ sameImage).host newZone true
      [⟨7, .Overlay, false, [40, 41]⟩, ⟨8, .Overlay, true, [40, 41]⟩]).1 = true := by
  refine (ownership_check_iff newZone 1 newZoneHost (by decide +kernel) rfl sameImage
    (by decide +kernel) _ (List.Perm.of_eq (by decide +kernel))).mpr ⟨?_, ?_, ?_⟩
  · exact room_of_length_lt (by decide)
  · exact ⟨⟨8, .Overlay, true, [40, 41]⟩, by decide, by decide⟩
  · unfold Covered
    decide

/-- **A container is deleted while another runs**: what is recorded for the zone is more than what
    is found, and the check fails. -/
theorem ownership_check_deleted :
    let es := [.create (smoothEnv [40, 41]) .Overlay 7, .create (smoothEnv [50]) .Overlay 8,
      .delete 7]
    let w := run (ZoneDisk.step newZone) ⟨newZoneHost, []⟩ es
    Meets (ZoneDisk.step newZone) (ZoneDisk.admits newZone) ⟨newZoneHost, []⟩ es ∧
      inodeOwnershipCheck w.host newZone true w.dirs =
        (false, "userspace inode ownership differs from rootfs: recorded 3, expected 1") := by
  decide +kernel

end Rauha.Backend
