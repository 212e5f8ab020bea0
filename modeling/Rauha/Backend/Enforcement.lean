import Rauha.Backend.Startup

/-!
# Enforcement across a restart

The BPF maps start empty, while processes in zone cgroups live on.  `Enforced` says that every one
of them is back under a policy.  `reconcile_enforced_iff` tells for which states and environments
start-up ends there: a live cgroup must belong to a persisted zone, and the recovery of that zone
must get as far as its membership.

**Where it fails open.**  The roll-back drains a zone only if its membership had been installed, so
a zone that fails earlier keeps its processes and never gets a membership.  Live cgroups of unknown
zones are retained as well, with the same effect: no membership of theirs survived the restart.
-/

namespace Rauha

open CrashLogic Backend List

/-- **Enforcement is closed**: every live process is in a cgroup that is registered under a zone
    with a policy. -/
def Enforced (s : Linux) : Prop :=
  ∀ name cg, s.slice.get name = some cg → cg.procs ≠ [] →
    ∃ zoneId zoneType, s.membership cg.ino = some (zoneId, zoneType) ∧ (s.policies zoneId).isSome

namespace Registry

variable {cfg : Config} {env : Env} {s₀ s s' : Linux} {done : List Zone} {zone : Zone}

/-- **What holds once the zones in `done` have been dealt with**, `s₀` being the state at
    start-up. -/
structure Reconciled (cfg : Config) (env : Env) (s₀ : Linux) (done : List Zone) (s : Linux) :
    Prop extends Untouched s₀ done s where
  nextZoneId : s.nextZoneId.toNat ≤ done.length + 1
  /-- Memberships belong to cgroups of these zones, under ids already given out. -/
  registered : ∀ i zoneId zoneType, s.membership i = some (zoneId, zoneType) →
    zoneId.toNat < s.nextZoneId.toNat ∧
      ∃ zone ∈ done, ∃ cg, s.slice.get zone.name = some cg ∧ cg.ino = i
  culled : ∀ zone ∈ done, ∀ cg, s.slice.get zone.name = some cg → cg.procs ≠ [] →
    ∃ cg₀, s₀.slice.get zone.name = some cg₀ ∧ cg₀.procs ≠ []
  enforced : ∀ zone ∈ done, Reaches cfg env s₀ (handleOf zone) zone.policy →
    ∀ cg, s.slice.get zone.name = some cg → cg.procs ≠ [] →
      ∃ zoneId zoneType, s.membership cg.ino = some (zoneId, zoneType) ∧
        (s.policies zoneId).isSome
  abandoned : ∀ zone ∈ done, ¬Reaches cfg env s₀ (handleOf zone) zone.policy →
    ∀ cg, s₀.slice.get zone.name = some cg →
      s.slice.get zone.name = some cg ∧ s.membership cg.ino = none

lemma reconciled_boot (down : Linux) : Reconciled cfg env (down.boot cfg) [] (down.boot cfg) :=
  ⟨.refl, le_refl _, nofun, nofun, nofun, nofun⟩

variable {cg : Cgroup} {name : String}

section Step

/-- A zone whose turn has not come has no membership. -/
lemma Reconciled.unregistered (h : Reconciled cfg env s₀ done s)
    (hnew : zone.name ∉ done.map Zone.name) (hcg : s.slice.get zone.name = some cg) :
    s.membership cg.ino = none := by
  cases hm : s.membership cg.ino with
  | none => rfl
  | some entry =>
    obtain ⟨-, zone', hzone', cg', hcg', hino⟩ := h.registered cg.ino entry.1 entry.2 hm
    have hname := s.slice.ino_inj _ _ cg' cg hcg' hcg hino
    exact absurd (hname ▸ mem_map_of_mem hzone') hnew

/-- Whether it will reach one has not changed since start-up. -/
lemma Reconciled.reaches_iff (h : Reconciled cfg env s₀ done s)
    (hnew : zone.name ∉ done.map Zone.name) :
    Reaches cfg env s (handleOf zone) zone.policy ↔
      Reaches cfg env s₀ (handleOf zone) zone.policy :=
  ⟨.congr (h.slice _ hnew).symm (h.netns _ hnew).symm (h.veths _ hnew).symm h.subnet.symm,
    .congr (h.slice _ hnew) (h.netns _ hnew) (h.veths _ hnew) h.subnet⟩

variable (h : Reconciled cfg env s₀ done s) (hnew : zone.name ∉ done.map Zone.name)
  (hr : AfterRecovery cfg env s (handleOf zone) zone.policy s')

include hr in
/-- The memberships of other cgroups stay as they are. -/
lemma membership_of_ne (hname : name ≠ zone.name) (hcg : s'.slice.get name = some cg) :
    s'.membership cg.ino = s.membership cg.ino := by
  rcases hr.membership cg.ino with heq | ⟨⟨cg', hcg', hino⟩, -⟩
  · exact heq
  · exact absurd (s'.slice.ino_inj _ _ cg cg' hcg hcg' hino.symm) hname

include hnew in
lemma ne_of_mem {zone' : Zone} (hmem : zone' ∈ done) : zone'.name ≠ zone.name := fun heq =>
  hnew (heq ▸ mem_map_of_mem hmem)

include h hr in
/-- Zone ids do not wrap around, so the id of this recovery is a new one. -/
lemma nextZoneId_toNat (hfew : done.length + 2 < 2 ^ 32) :
    s.nextZoneId.toNat ≤ s'.nextZoneId.toNat ∧
      s'.nextZoneId.toNat ≤ (done ++ [zone]).length + 1 ∧
      (s'.nextZoneId = s.nextZoneId + 1 → s.nextZoneId.toNat < s'.nextZoneId.toNat) := by
  have hle := h.nextZoneId
  have hsucc : (s.nextZoneId + 1).toNat = s.nextZoneId.toNat + 1 := by
    rw [UInt32.toNat_add, show (1 : UInt32).toNat = 1 from rfl]
    exact Nat.mod_eq_of_lt (by omega)
  rw [length_append, length_singleton]
  rcases hr.nextZoneId with heq | heq
  · rw [heq]
    exact ⟨le_refl _, by omega, fun hself => by
      have := congrArg UInt32.toNat hself
      omega⟩
  · rw [heq, hsucc]
    exact ⟨by omega, by omega, fun _ => by omega⟩

include h hnew hr in
/-- **One step of the loop.** -/
lemma Reconciled.step (hfew : done.length + 2 < 2 ^ 32) :
    Reconciled cfg env s₀ (done ++ [zone]) s' := by
  obtain ⟨hmono, hbound, hfresh⟩ := nextZoneId_toNat h hr hfew
  -- nothing changes for a zone that had its turn before
  have hslice : ∀ zone' ∈ done, s'.slice.get zone'.name = s.slice.get zone'.name :=
    fun zone' hmem => hr.framed.slice _ (ne_of_mem hnew hmem)
  have hmember : ∀ zone' ∈ done, ∀ cg, s'.slice.get zone'.name = some cg →
      s'.membership cg.ino = s.membership cg.ino :=
    fun zone' hmem cg hcg => membership_of_ne hr (ne_of_mem hnew hmem) hcg
  refine ⟨h.toUntouched.step hr.framed, hbound, ?_, ?_, ?_, ?_⟩
  · intro i zoneId zoneType hm
    rcases hr.membership i with heq | ⟨⟨cg, hcg, hino⟩, hid⟩
    · obtain ⟨hlt, zone', hmem, cg, hcg, hino⟩ := h.registered i zoneId zoneType (heq ▸ hm)
      exact ⟨lt_of_lt_of_le hlt hmono, zone', mem_append_left _ hmem, cg,
        (hslice zone' hmem).trans hcg, hino⟩
    · obtain ⟨rfl, hnext⟩ := hid zoneId zoneType hm
      exact ⟨hfresh hnext, zone, by simp, cg, hcg, hino⟩
  · intro zone' hmem cg hcg hlive
    rcases mem_append.mp hmem with hold | hthis
    · exact h.culled zone' hold cg (hslice zone' hold ▸ hcg) hlive
    · rw [mem_singleton.mp hthis] at hcg ⊢
      obtain ⟨cg₁, hcg₁, -, hlive₁⟩ := hr.culled cg hcg hlive
      exact ⟨cg₁, (h.slice _ hnew) ▸ hcg₁, hlive₁⟩
  · intro zone' hmem hreach cg hcg hlive
    rcases mem_append.mp hmem with hold | hthis
    · obtain ⟨zoneId, zoneType, hm, hp⟩ :=
        h.enforced zone' hold hreach cg (hslice zone' hold ▸ hcg) hlive
      refine ⟨zoneId, zoneType, (hmember zone' hold cg hcg).trans hm, ?_⟩
      have hlt := (h.registered cg.ino zoneId zoneType hm).1
      rw [hr.framed.policies zoneId fun heq => by rw [heq] at hlt; exact lt_irrefl _ hlt]
      exact hp
    · rw [mem_singleton.mp hthis] at hreach hcg
      obtain ⟨zoneType, hm, hp⟩ := hr.reached ((h.reaches_iff hnew).mpr hreach) cg hcg hlive
      exact ⟨_, zoneType, hm, hp⟩
  · intro zone' hmem hreach cg hcg
    rcases mem_append.mp hmem with hold | hthis
    · obtain ⟨hcg', hnone⟩ := h.abandoned zone' hold hreach cg hcg
      have hcg'' := (hslice zone' hold).trans hcg'
      exact ⟨hcg'', (hmember zone' hold cg hcg'').trans hnone⟩
    · rw [mem_singleton.mp hthis] at hreach hcg ⊢
      have hcg' := (h.slice _ hnew).trans hcg
      obtain ⟨hstays, hnone⟩ :=
        hr.abandoned (fun hr' => hreach ((h.reaches_iff hnew).mp hr')) cg hcg'
      exact ⟨hstays, hnone (h.unregistered hnew hcg')⟩

end Step

/-! ## After the clean-up -/

section Final

variable {zones : List Zone}
  (h : Reconciled cfg env s₀ zones s) (hc : CleanedUp (zones.map Zone.name) s s')

include hc in
lemma get_of_cleanedUp (hcg : s'.slice.get name = some cg) : s.slice.get name = some cg := by
  rcases hc.slice name with heq | ⟨-, hnone, -⟩
  · exact heq ▸ hcg
  · rw [hnone] at hcg
    cases hcg

include hc in
/-- The clean-up touches no live cgroup. -/
lemma get_cleanedUp_of_live (hcg : s.slice.get name = some cg) (hlive : cg.procs ≠ []) :
    s'.slice.get name = some cg := by
  rcases hc.slice name with heq | ⟨-, -, cg', hcg', hempty⟩
  · exact heq.trans hcg
  · rw [hcg] at hcg'
    cases hcg'
    exact absurd hempty hlive

include hc in
/-- Nor the membership of one. -/
lemma membership_cleanedUp_of_live (hcg : s.slice.get name = some cg) (hlive : cg.procs ≠ []) :
    s'.membership cg.ino = s.membership cg.ino := by
  rcases hc.membership cg.ino with heq | ⟨-, n, cg', -, hcg', hino, hempty⟩
  · exact heq
  · have hname := s.slice.ino_inj _ _ cg' cg hcg' hcg hino
    rw [hname, hcg] at hcg'
    cases hcg'
    exact absurd hempty hlive

include h hc in
/-- **Enforcement at the end of start-up**, in terms of the state at its beginning. -/
lemma enforced_cleanedUp_iff :
    Enforced s' ↔ ∀ name cg, s₀.slice.get name = some cg → cg.procs ≠ [] →
      ∃ zone ∈ zones, zone.name = name ∧ Reaches cfg env s₀ (handleOf zone) zone.policy := by
  constructor
  · intro henf name cg hcg hlive
    -- the cgroup as the clean-up finds it: its membership is all that can be wrong
    have hclosed : s.slice.get name = some cg → s.membership cg.ino ≠ none := by
      intro hcg' hnone
      obtain ⟨zoneId, zoneType, hm, -⟩ := henf name cg (get_cleanedUp_of_live hc hcg' hlive) hlive
      rw [membership_cleanedUp_of_live hc hcg' hlive, hnone] at hm
      cases hm
    by_cases hknown : name ∈ zones.map Zone.name
    · obtain ⟨zone, hmem, rfl⟩ := mem_map.mp hknown
      refine ⟨zone, hmem, rfl, ?_⟩
      by_contra hreach
      obtain ⟨hcg', hnone⟩ := h.abandoned zone hmem hreach cg hcg
      exact hclosed hcg' hnone
    · have hcg' := (h.slice name hknown).trans hcg
      obtain ⟨entry, hm⟩ := Option.ne_none_iff_exists'.mp (hclosed hcg')
      obtain ⟨-, zone, hmem, cg', hzone, hino⟩ := h.registered cg.ino entry.1 entry.2 hm
      have hname := s.slice.ino_inj _ _ cg' cg hzone hcg' hino
      exact absurd (hname ▸ mem_map_of_mem hmem) hknown
  · intro hall name cg hcg' hlive
    have hcg := get_of_cleanedUp hc hcg'
    by_cases hknown : name ∈ zones.map Zone.name
    · obtain ⟨zone, hmem, rfl⟩ := mem_map.mp hknown
      obtain ⟨cg₀, hcg₀, hlive₀⟩ := h.culled zone hmem cg hcg hlive
      obtain ⟨zone', hmem', hname, hreach⟩ := hall zone.name cg₀ hcg₀ hlive₀
      obtain ⟨zoneId, zoneType, hm, hp⟩ := h.enforced zone' hmem' hreach cg (hname ▸ hcg) hlive
      exact ⟨zoneId, zoneType, (membership_cleanedUp_of_live hc hcg hlive).trans hm,
        hc.policies ▸ hp⟩
    · obtain ⟨zone, hmem, rfl, -⟩ := hall name cg (h.slice name hknown ▸ hcg) hlive
      exact absurd (mem_map_of_mem hmem) hknown

end Final

/-- **When enforcement survives a restart.**  After a start-up that has finished, every live
    process is back under a policy if and only if each cgroup with live processes belongs to a
    persisted zone whose recovery goes through up to the membership.  There are fewer zones than
    zone ids. -/
theorem reconcile_enforced_iff (cfg : Config) (env : Env) (listing namespaces : List String)
    (down up : Daemon) (plan plan' : List Fate)
    (hfew : down.store.listZones.length + 1 < 2 ^ 32)
    (hrun : reconcile cfg env listing namespaces plan (down.boot cfg) = (.done (), plan', up)) :
    Enforced up.linux ↔ ∀ name cg, down.linux.slice.get name = some cg → cg.procs ≠ [] →
      ∃ zone ∈ down.store.listZones, zone.name = name ∧
        Reaches cfg env (down.linux.boot cfg) (handleOf zone) zone.policy := by
  have htriple := @reconcile_at cfg env (down.boot cfg)
    (fun done d => d.store = down.store ∧ Reconciled cfg env (down.linux.boot cfg) done d.linux)
    listing namespaces (fun _ _ h => h.1) ⟨rfl, reconciled_boot down.linux⟩ ?_
  · have hpost := htriple plan _ rfl
    rw [hrun] at hpost
    obtain ⟨s, ⟨-, hs⟩, hclean⟩ := hpost
    exact enforced_cleanedUp_iff hs hclean
  · intro done zone rest hzones d hI s' hs'
    have hzones' : down.store.listZones = done ++ zone :: rest := hzones
    rw [hzones', length_append, length_cons] at hfew
    have hstep := hI.2.step (name_not_mem hzones') hs' (by omega)
    exact ⟨⟨hI.1, hstep⟩, fun _ => ⟨hI.1, hstep⟩⟩

/-! ## A zone that fails open -/

/-- Every call goes through but those at `sites`. -/
def failingAt (sites : List (Op × String × Site)) : HostEnv :=
  { smoothEnv [] with
    verdict := fun op name site => if (op, name, site) ∈ sites then .err else .ok
    rootfsInodes := fun _ => [100] }

def isolatedPolicy : FullPolicy := strictPolicy ⟨.Isolated, [], [], []⟩

/-- A persisted zone with one live process, found by a daemon that comes up. -/
def liveZone : Daemon where
  store := Metadata.empty.putZone
    ⟨0, "web", .NonGlobal, isolatedPolicy.toZonePolicy, some ⟨173604866, 173604865, 16⟩⟩
  host := { emptyHost with
    slice := Slice.empty.put "web" ⟨10, [7]⟩ 11 (by decide) (by decide) fun _ _ h => by
      simp [Slice.empty, Slice.get] at h
    netns := {"web"}
    veths := {"web"} }
  handles := ∅

/-- Start-up of the daemon that finds it, with some calls failing. -/
def comeUp (sites : List (Op × String × Site)) (down : Daemon) :
    Outcome RauhaError Unit × List Fate × Daemon :=
  reconcile bareConfig.toConfig (failingAt sites).toEnv ["web"] ["web"] []
    (down.boot bareConfig.toConfig)

/-- **A live zone is left unenforced.**  Its limits cannot be written, which comes before its
    membership: start-up finishes and the process runs on, in a cgroup without a membership. -/
theorem recovery_fails_open :
    let up := comeUp [(.Recover, "web", .WriteLimits)] liveZone
    up.1 = .done () ∧ up.2.2.linux.slice.get "web" = some ⟨10, [7]⟩ ∧ ¬Enforced up.2.2.linux := by
  refine ⟨by decide +kernel, by decide +kernel, fun h => ?_⟩
  obtain ⟨zoneId, zoneType, hm, -⟩ := h "web" ⟨10, [7]⟩ (by decide +kernel) (by decide)
  have hnone : (comeUp [(.Recover, "web", .WriteLimits)] liveZone).2.2.linux.membership 10 =
      none := by
    decide +kernel
  rw [hnone] at hm
  cases hm

/-- With nothing failing, the same zone comes back under its policy. -/
theorem reconcile_enforced_liveZone :
    Enforced (comeUp [] liveZone).2.2.linux := by
  refine (reconcile_enforced_iff bareConfig.toConfig (failingAt []).toEnv ["web"] ["web"] liveZone _
    [] _ (by decide +kernel) (Prod.ext ?_ (Prod.ext rfl rfl))).mpr ?_
  · decide +kernel
  · intro name cg hcg _
    refine ⟨⟨0, "web", .NonGlobal, isolatedPolicy.toZonePolicy, some ⟨173604866, 173604865, 16⟩⟩,
      by decide +kernel, ?_, ?_⟩
    · by_contra hne
      have hnone : liveZone.linux.slice.get name = none :=
        (AList.lookup_insert_ne fun heq => hne heq.symm).trans rfl
      rw [hnone] at hcg
      cases hcg
    · exact ⟨by decide +kernel, by decide +kernel, by decide, by decide, by decide +kernel,
        by decide, by decide, by decide, by decide, by decide⟩

end Registry

end Rauha
