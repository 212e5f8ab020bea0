import Rauha.Backend.Calls

/-!
# What recovering a zone comes to

`recoverZone` has a dozen points of failure and a roll-back that goes by three flags.  Two
conditions on the environment and the state found tell its outcomes apart:

* `Reaches`: nothing goes wrong before the membership is installed;
* `Completes`: nothing goes wrong after that either.

`recoverZone_triple` is the specification.  A zone that does not reach its membership is rolled
back and keeps its processes (`Abandoned`).  One that does ends up installed for good, drained and
rolled back, or installed with the drain having failed.
-/

namespace Rauha

open CrashLogic Triple Function

namespace Backend

/-! ## The two conditions -/

section Conditions

variable (cfg : Config) (env : Env) (s : Linux) (zone : ZoneHandle) (policy : ZonePolicy)

/-- **Every step up to the membership goes through.**  An audit policy does without the address,
    the namespace and the interface. -/
structure Reaches : Prop where
  admitted : admitLinuxPolicy cfg policy = .ok ()
  cgroup : s.slice.get zone.name = none → env.verdict .Recover zone.name .MakeCgroup ≠ .err
  stat : env.verdict .Recover zone.name .StatCgroup ≠ .err
  limits : env.verdict .Recover zone.name .WriteLimits ≠ .err
  address : ∀ net, zone.networkState = some net → policy.admission = .Strict →
    s.ipAllocator.contains net.ip = true
  netns : policy.network.mode ≠ .Host → policy.admission = .Strict →
    zone.name ∉ s.netns → env.verdict .Recover zone.name .AddNetns ≠ .err
  veth : policy.network.mode ≠ .Host → policy.admission = .Strict →
    zone.name ∉ s.veths → env.verdict .Recover zone.name .AddLink ≠ .err ∧
      env.verdict .Recover zone.name .ConfigureLink ≠ .err
  kernel : (cfg.policyToKernel policy).isSome
  enforced : env.verdict .Recover zone.name .SetPolicy ≠ .err
  member : env.verdict .Recover zone.name .AddMember ≠ .err

/-- The inodes of a zone with the cgroup `cg` can all be found and registered. -/
structure InodesRestored (name : String) (cg : Cgroup) : Prop where
  collected : env.verdict .Recover name .CollectInodes ≠ .err
  found : env.rootfsInodes name = [] →
    env.verdict .Recover name .InodeReadProcs ≠ .err ∧ cg.procs = []
  registered : ((env.rootfsInodes name).filter env.insertable).length
    = (env.rootfsInodes name).length

/-- **Every step after the membership goes through.** -/
structure Completes (cg : Cgroup) : Prop where
  inodes : policy.admission = .Strict → InodesRestored env zone.name cg
  comms : env.verdict .Recover zone.name .SyncComms ≠ .err
  nftables : policy.admission = .Strict →
    env.verdict .Recover zone.name .ApplyNftables ≠ .err

end Conditions

/-! ## The states in between -/

/-- The slice with a cgroup for the zone in it. -/
def Slice.made (self : Slice) (name : String) : Slice :=
  if self.get name = none then self.mkdir name else self

variable {self : Slice} {name : String} {cg : Cgroup}

lemma Slice.get_made_of_some (h : self.get name = some cg) : self.made name = self := by
  rw [Slice.made, if_neg (by simp [h])]

lemma Slice.get_made_ne {name' : String} (h : name' ≠ name) :
    (self.made name).get name' = self.get name' := by
  unfold Slice.made
  split_ifs
  · exact Slice.get_mkdir_ne h
  · rfl

/-- Two sets of zones that differ in one zone at most. -/
def SameBut (name : String) (a b : Finset String) : Prop := ∀ n, n ≠ name → (n ∈ b ↔ n ∈ a)

lemma SameBut.refl (name : String) (a : Finset String) : SameBut name a a := fun _ _ => .rfl

variable {a b : Finset String}

lemma SameBut.insert (h : SameBut name a b) : SameBut name a (insert name b) := fun n hn => by
  rw [Finset.mem_insert, h n hn]
  simp [hn]

lemma SameBut.erase (h : SameBut name a b) : SameBut name a (b.erase name) := fun n hn => by
  rw [Finset.mem_erase, h n hn]
  simp [hn]

/-- **Only one zone has been touched**, and no policy but that under `zoneId`. -/
structure Framed (s : Linux) (name : String) (zoneId : UInt32) (s' : Linux) : Prop where
  slice : ∀ n, n ≠ name → s'.slice.get n = s.slice.get n
  netns : SameBut name s.netns s'.netns
  veths : SameBut name s.veths s'.veths
  policies : ∀ z, z ≠ zoneId → s'.policies z = s.policies z
  subnet : s'.ipAllocator.subnet = s.ipAllocator.subnet

/-- What a recovery that stops short of the membership has changed: the flags say how far it
    got. -/
structure Partway (s : Linux) (zone : ZoneHandle) (zoneId : UInt32) (p : Progress) (s' : Linux) :
    Prop where
  framed : Framed s zone.name zoneId s'
  slice : s'.slice = s.slice ∨ s'.slice = s.slice.made zone.name
  membership : s'.membership = s.membership
  nextZoneId : s'.nextZoneId = s.nextZoneId
  allocator : s'.ipAllocator =
    if p.ipMarked then s.ipAllocator.marked zone.networkState else s.ipAllocator
  own : ∀ ino, p.cgroupId = some ino → ∃ cg, s'.slice.get zone.name = some cg ∧ cg.ino = ino
  flag : p.membershipInstalled = false

/-- What it has changed beyond that point. -/
structure Installed (cfg : Config) (s : Linux) (zone : ZoneHandle) (zoneType : ZoneType)
    (policy : ZonePolicy) (zoneId : UInt32) (cg : Cgroup) (s' : Linux) : Prop where
  framed : Framed s zone.name zoneId s'
  slice : s'.slice = s.slice.made zone.name
  own : s'.slice.get zone.name = some cg
  membership : s'.membership = Function.update s.membership cg.ino (some (zoneId, zoneType))
  policies : s'.policies zoneId = cfg.policyToKernel policy
  nextZoneId : s'.nextZoneId = s.nextZoneId
  allocator : s'.ipAllocator = s.ipAllocator.marked zone.networkState

/-! ## The steps before the membership -/

variable {cfg : Config} {env : Env} {s : Linux} {zone : ZoneHandle} {zoneType : ZoneType}
  {policy : ZonePolicy} {zoneId : UInt32} {R : Unit → Linux → Prop} {E : RauhaError → Linux → Prop}

lemma recoverCgroup_at {Q : ℕ → Linux → Prop}
    (hok : ∀ cg, env.verdict .Recover name .StatCgroup ≠ .err →
      (s.slice.get name = none → env.verdict .Recover name .MakeCgroup ≠ .err) →
      (s.slice.made name).get name = some cg → Q cg.ino { s with slice := s.slice.made name })
    (hE : ∀ e slice, slice = s.slice ∨ slice = s.slice.made name →
      env.verdict .Recover name .StatCgroup = .err ∨
        (s.slice.get name = none ∧ env.verdict .Recover name .MakeCgroup = .err) →
      E e { s with slice := slice }) :
    Triple (· = s) (recoverCgroup env name) Q E fun _ => True := by
  refine bind_at (getState_at ?_)
  cases hget : s.slice.get name with
  | some cg =>
    have hmade := Slice.get_made_of_some hget
    refine cgroupIdForZone_at ?_ ?_ trivial
    · intro cg' hv hcg'
      have h := hok cg' (by simp [hv]) (by simp [hget]) (by rw [hmade]; exact hcg')
      rw [hmade] at h
      exact h
    · rintro e (hv | hnone)
      · exact hE e s.slice (.inl rfl) (.inl hv)
      · rw [hget] at hnone
        cases hnone
  | none =>
    have hmade : s.slice.made name = s.slice.mkdir name := if_pos hget
    refine createZoneCgroup_at hget ?_ ?_ ?_ trivial trivial
    · intro hm hv
      have h := hok ⟨s.slice.nextIno, []⟩ (by simp [hv]) (by simp [hm])
        (by rw [hmade]; exact Slice.get_mkdir)
      rw [hmade] at h
      exact h
    · intro e hm
      exact hE e s.slice (.inl rfl) (.inr ⟨hget, hm⟩)
    · intro e hv
      have h := hE e (s.slice.made name) (.inr rfl) (.inl hv)
      rw [hmade] at h
      exact h

/-- An address outside the subnet is not marked; marking it would change nothing either. -/
lemma marked_of_not_contains {a : IpAllocator} {net : ZoneNetworkState}
    (h : ¬a.contains net.ip = true) : a.marked (some net) = a := by
  show a.markAllocated net.ip = a
  unfold IpAllocator.markAllocated
  rw [Option.not_isSome_iff_eq_none.mp h]

lemma recoverAddress_at (hok : (∀ net, zone.networkState = some net → policy.admission = .Strict →
        s.ipAllocator.contains net.ip = true) →
      R () { s with ipAllocator := s.ipAllocator.marked zone.networkState })
    (hE : ∀ e, (¬∀ net, zone.networkState = some net → policy.admission = .Strict →
      s.ipAllocator.contains net.ip = true) → E e s) :
    Triple (· = s) (recoverAddress zone policy) R E fun _ => True := by
  unfold recoverAddress
  cases hnet : zone.networkState with
  | none =>
    refine pure_at ?_
    have h := hok (by simp [hnet])
    rw [hnet] at h
    exact h
  | some net =>
    refine bind_at (getState_at ?_)
    by_cases hin : s.ipAllocator.contains net.ip = true
    · rw [if_pos hin]
      refine update_at ?_
      have h := hok (by simp [hnet, hin])
      rw [hnet] at h
      exact h
    · rw [if_neg hin]
      cases hadm : policy.admission with
      | Strict => exact raise_at (hE _ fun h => hin (h net hnet hadm))
      | Audit =>
        refine pure_at ?_
        have h := hok (by simp [hadm])
        rw [hnet, marked_of_not_contains hin] at h
        exact h

/-- A tolerated statement fails only under a strict policy. -/
lemma admitting_at {admission : PolicyAdmission} {c : LinuxM Unit}
    (h : Triple (· = s) c (fun _ => R ())
      (fun e s' => (admission = .Strict → E e s') ∧ (admission = .Audit → R () s'))
      fun _ => True) :
    Triple (· = s) (admitting admission c) R E fun _ => True := by
  cases admission with
  | Strict =>
    exact h.conseq (fun _ _ hR => hR) (fun _ _ hE => hE.1 rfl) fun _ hK => hK
  | Audit =>
    exact ignore_at (h.conseq (fun _ _ hR => hR) (fun _ _ hE => hE.2 rfl) fun _ hK => hK)

lemma createVethPair_at
    (hok : ∀ veths, SameBut name s.veths veths → env.verdict .Recover name .AddLink ≠ .err →
      env.verdict .Recover name .ConfigureLink ≠ .err → R () { s with veths := veths })
    (hE : ∀ e veths, SameBut name s.veths veths → ¬(env.verdict .Recover name .AddLink ≠ .err ∧
      env.verdict .Recover name .ConfigureLink ≠ .err) → E e { s with veths := veths }) :
    Triple (· = s) (createVethPair env .Recover name) R E fun _ => True := by
  have hsame := SameBut.refl name s.veths
  refine bind_at (osCall_at (fun ha => ?_) (fun ha => hE _ _ hsame (by simp [ha])) trivial)
  refine bind_at (attempt_at (osCall_at (fun hc => ?_) (fun hc => ?_) trivial))
  · exact pure_at (hok _ hsame.insert (by simp [ha]) (by simp [hc]))
  · refine bind_at (ignore_at (osCall_at (fun _ => ?_) (fun _ => ?_) trivial))
    · exact raise_at (hE _ _ hsame.insert.erase (by simp [hc]))
    · exact raise_at (hE _ _ hsame.insert (by simp [hc]))

lemma recoverNetwork_at
    (hok : ∀ netns veths, SameBut zone.name s.netns netns → SameBut zone.name s.veths veths →
      (policy.network.mode ≠ .Host → policy.admission = .Strict → zone.name ∉ s.netns →
        env.verdict .Recover zone.name .AddNetns ≠ .err) →
      (policy.network.mode ≠ .Host → policy.admission = .Strict → zone.name ∉ s.veths →
        env.verdict .Recover zone.name .AddLink ≠ .err ∧
          env.verdict .Recover zone.name .ConfigureLink ≠ .err) →
      R () { s with netns := netns, veths := veths })
    (hE : ∀ e netns veths, SameBut zone.name s.netns netns → SameBut zone.name s.veths veths →
      policy.network.mode ≠ .Host → policy.admission = .Strict →
      (zone.name ∉ s.netns ∧ env.verdict .Recover zone.name .AddNetns = .err) ∨
        (zone.name ∉ s.veths ∧ ¬(env.verdict .Recover zone.name .AddLink ≠ .err ∧
          env.verdict .Recover zone.name .ConfigureLink ≠ .err)) →
      E e { s with netns := netns, veths := veths }) :
    Triple (· = s) (recoverNetwork env zone policy) R E fun _ => True := by
  have hn := SameBut.refl zone.name s.netns
  have hv := SameBut.refl zone.name s.veths
  unfold recoverNetwork
  split
  · rename_i hmode
    exact pure_at (hok s.netns s.veths hn hv (by simp [hmode]) (by simp [hmode]))
  rename_i hmode
  refine bind_at (getState_at ?_)
  -- before the interface, the state differs from the first one in its namespaces only
  refine seq_at (fun _ s' => ∃ netns, s' = { s with netns := netns } ∧
    SameBut zone.name s.netns netns ∧ (policy.admission = .Strict → zone.name ∈ netns ∧
      (zone.name ∉ s.netns → env.verdict .Recover zone.name .AddNetns ≠ .err))) ?_ ?_
  · split_ifs with hmem
    · exact pure_at ⟨s.netns, rfl, hn, fun _ => ⟨hmem, fun h => absurd hmem h⟩⟩
    · refine admitting_at (osCall_at (fun hadd => ?_) (fun hadd => ⟨?_, ?_⟩) trivial)
      · exact ⟨_, rfl, hn.insert, fun _ => ⟨Finset.mem_insert_self _ _, fun _ => by simp [hadd]⟩⟩
      · exact fun hstrict => hE _ s.netns s.veths hn hv hmode hstrict (Or.inl ⟨hmem, hadd⟩)
      · exact fun haudit => ⟨s.netns, rfl, hn, fun hstrict => by simp [haudit] at hstrict⟩
  · rintro _ _ ⟨netns, rfl, hsame, hns⟩
    refine bind_at (getState_at ?_)
    split_ifs with hcond
    · refine admitting_at (createVethPair_at ?_ ?_)
      · intro veths hvs ha hc
        exact hok netns veths hsame hvs (fun _ hstrict => (hns hstrict).2) fun _ _ _ => ⟨ha, hc⟩
      · intro e veths hvs hbad
        refine ⟨fun hstrict => hE e netns veths hsame hvs hmode hstrict
          (Or.inr ⟨hcond.2, hbad⟩), fun haudit => ?_⟩
        exact hok netns veths hsame hvs (fun _ hstrict => (hns hstrict).2)
          fun _ hstrict => by simp [haudit] at hstrict
    · refine pure_at (hok netns s.veths hsame hv (fun _ hstrict => (hns hstrict).2)
        fun _ hstrict hnot => ?_)
      exact absurd ⟨(hns hstrict).1, hnot⟩ hcond

lemma setZonePolicy_at (hok : (cfg.policyToKernel policy).isSome →
      env.verdict .Recover zone.name .SetPolicy ≠ .err →
      R () { s with policies := update s.policies zoneId (cfg.policyToKernel policy) })
    (hE : ∀ e, ¬((cfg.policyToKernel policy).isSome ∧
      env.verdict .Recover zone.name .SetPolicy ≠ .err) → E e s) :
    Triple (· = s) (setZonePolicy cfg env .Recover zone.name zoneId policy) R E fun _ => True := by
  unfold setZonePolicy
  cases hk : cfg.policyToKernel policy with
  | none =>
    exact bind_at (ofExcept_at (fun _ h => by cases h) (fun e _ => hE e (by simp [hk])))
  | some kernel =>
    refine bind_at (ofExcept_at (fun k h => ?_) fun e h => by cases h)
    cases h
    refine osCall_at (fun hv => ?_) (fun hv => hE _ (by simp [hv])) trivial
    rw [← hk]
    exact hok (by simp [hk]) (by simp [hv])

lemma restoreRootfsInodes_at (hcg : s.slice.get name = some cg)
    (hok : InodesRestored env name cg → R () s) (hE : ∀ e, ¬InodesRestored env name cg → E e s) :
    Triple (· = s) (restoreRootfsInodes env .Recover name) R E fun _ => True := by
  refine bind_at (osCall_at (fun hc => ?_) (fun hc => hE _ fun h => h.collected hc) trivial)
  -- the last check, once the set is known not to be suspiciously empty
  have hlast : (env.rootfsInodes name = [] → env.verdict .Recover name .InodeReadProcs ≠ .err ∧
      cg.procs = []) → ∀ e, Triple (· = s)
        (.failIf (((env.rootfsInodes name).filter env.insertable).length
          ≠ (env.rootfsInodes name).length) e) R E fun _ => True := by
    intro hfound e
    by_cases hreg : ((env.rootfsInodes name).filter env.insertable).length
        = (env.rootfsInodes name).length
    · exact failIf_at_of_not (by simp [hreg])
        (hok ⟨by simp [hc], hfound, hreg⟩)
    · exact failIf_at (fun e => hE e fun h => hreg h.registered) fun h =>
        absurd (not_not.mp h) hreg
  cases hino : env.rootfsInodes name with
  | nil =>
    refine bind_at (bind_at (zoneHasProcesses_at hcg (fun hread => ?_)
      (fun e hread => hE e fun h => (h.found hino).1 hread) trivial))
    by_cases hp : cg.procs = []
    · refine failIf_at_of_not (by simp [hp]) ?_
      have h := hlast (fun _ => ⟨by simp [hread], hp⟩)
      rw [hino] at h
      exact h _
    · exact failIf_at (fun e => hE e fun h => hp (h.found hino).2) fun h =>
        absurd (by simpa using hp) h
  | cons i is =>
    have h := hlast (by simp [hino])
    rw [hino] at h
    exact h _

/-! ## The closure -/

/-- The flag for the address says whether there is one. -/
lemma marked_eq_ite (a : IpAllocator) (net : Option ZoneNetworkState) :
    a.marked net = if net.isSome then a.marked net else a := by
  cases net <;> rfl

lemma marked_subnet (a : IpAllocator) (net : Option ZoneNetworkState) :
    (a.marked net).subnet = a.subnet := by
  cases net with
  | none => rfl
  | some net =>
    show (a.markAllocated net.ip).subnet = a.subnet
    unfold IpAllocator.markAllocated
    split <;> rfl

/-- The steps after the membership change nothing that is modelled here. -/
lemma completeRecovery_triple (hcg : s.slice.get zone.name = some cg) :
    Triple (· = s) (completeRecovery env zone policy)
      (fun _ s' => s' = s ∧ Completes env zone policy cg)
      (fun _ s' => s' = s ∧ ¬Completes env zone policy cg) (fun _ => True) := by
  refine seq_at (fun _ s' => s' = s ∧
    (policy.admission = .Strict → InodesRestored env zone.name cg)) ?_ ?_
  · refine admitting_at (restoreRootfsInodes_at hcg (fun hin => ⟨rfl, fun _ => hin⟩) ?_)
    intro e hbad
    exact ⟨fun hstrict => ⟨rfl, fun h => hbad (h.inodes hstrict)⟩,
      fun haudit => ⟨rfl, by simp [haudit]⟩⟩
  rintro _ _ ⟨rfl, hin⟩
  refine bind_at (osCall_at (fun hcomms => ?_)
    (fun hcomms => ⟨rfl, fun h => h.comms hcomms⟩) trivial)
  refine admitting_at (osCall_at (fun hv => ?_) (fun hv => ⟨?_, ?_⟩) trivial)
  · exact ⟨rfl, hin, by simp [hcomms], by simp [hv]⟩
  · intro hstrict
    exact ⟨rfl, fun h => h.nftables hstrict hv⟩
  · intro haudit
    exact ⟨rfl, hin, by simp [hcomms], by simp [haudit]⟩

/-- **The closure of a recovery**: it fails before the membership is installed exactly if `Reaches`
    does not hold, and after that exactly if `Completes` does not. -/
lemma recovery_triple (hadm : admitLinuxPolicy cfg policy = .ok ()) :
    Triple (· = s) (recovery cfg env zone zoneType policy zoneId)
      (fun _ s' => Reaches cfg env s zone policy ∧
        ∃ cg, Installed cfg s zone zoneType policy zoneId cg s' ∧ Completes env zone policy cg)
      (fun x s' => (¬Reaches cfg env s zone policy ∧ Partway s zone zoneId x.2 s') ∨
        (Reaches cfg env s zone policy ∧ ∃ cg,
          Installed cfg s zone zoneType policy zoneId cg s' ∧ ¬Completes env zone policy cg ∧
            x.2 = ⟨some cg.ino, zone.networkState.isSome, true⟩))
      (fun _ => True) := by
  have hn := SameBut.refl zone.name s.netns
  have hv := SameBut.refl zone.name s.veths
  have hsub := marked_subnet s.ipAllocator zone.networkState
  have hmade : ∀ n, n ≠ zone.name → (s.slice.made zone.name).get n = s.slice.get n :=
    fun n => Slice.get_made_ne
  refine bind_at (mapError_at (recoverCgroup_at ?_ ?_))
  swap
  · intro e slice hslice hbad
    have hframe : ∀ n, n ≠ zone.name → slice.get n = s.slice.get n := by
      rcases hslice with rfl | rfl
      · exact fun _ _ => rfl
      · exact hmade
    refine Or.inl ⟨fun h => ?_, ⟨hframe, hn, hv, fun _ _ => rfl, rfl⟩, hslice, rfl, rfl, rfl,
      nofun, rfl⟩
    rcases hbad with hv | ⟨hnone, hm⟩
    · exact h.stat hv
    · exact h.cgroup hnone hm
  intro cg hstat hmake hcg
  have hown : ∀ ino, (some cg.ino : Option ℕ) = some ino →
      ∃ cg', (s.slice.made zone.name).get zone.name = some cg' ∧ cg'.ino = ino := by
    intro ino h
    cases h
    exact ⟨cg, hcg, rfl⟩
  refine bind_at (mapError_at (applyResources_at hcg (fun hlim => ?_) ?_ trivial))
  swap
  · intro e hbad
    exact Or.inl ⟨fun h => h.limits hbad, ⟨hmade, hn, hv, fun _ _ => rfl, rfl⟩, Or.inr rfl, rfl,
      rfl, rfl, hown, rfl⟩
  refine bind_at (mapError_at (recoverAddress_at (fun haddr => ?_) ?_))
  swap
  · intro e hbad
    exact Or.inl ⟨fun h => hbad h.address, ⟨hmade, hn, hv, fun _ _ => rfl, rfl⟩, Or.inr rfl, rfl,
      rfl, rfl, hown, rfl⟩
  refine bind_at (mapError_at (recoverNetwork_at (fun netns veths hn hv hns hveth => ?_) ?_))
  swap
  · intro e netns veths hn hv hmode hstrict hbad
    refine Or.inl ⟨fun h => ?_, ⟨hmade, hn, hv, fun _ _ => rfl, hsub⟩, Or.inr rfl, rfl, rfl,
      marked_eq_ite _ _, hown, rfl⟩
    rcases hbad with ⟨hnot, hv⟩ | ⟨hnot, hv⟩
    · exact h.netns hmode hstrict hnot hv
    · exact hv (h.veth hmode hstrict hnot)
  refine bind_at (mapError_at (setZonePolicy_at (fun hkernel hset => ?_) ?_))
  swap
  · intro e hbad
    exact Or.inl ⟨fun h => hbad ⟨h.kernel, h.enforced⟩, ⟨hmade, hn, hv, fun _ _ => rfl, hsub⟩,
      Or.inr rfl, rfl, rfl, marked_eq_ite _ _, hown, rfl⟩
  have hpol : ∀ z, z ≠ zoneId → update s.policies zoneId (cfg.policyToKernel policy) z
      = s.policies z := fun z hz => update_of_ne hz _ _
  refine bind_at (mapError_at (osCall_at (fun hmem => ?_) ?_ trivial))
  swap
  · intro hbad
    exact Or.inl ⟨fun h => h.member hbad, ⟨hmade, hn, hv, hpol, hsub⟩, Or.inr rfl, rfl, rfl,
      marked_eq_ite _ _, hown, rfl⟩
  -- from here on the membership is installed
  have hreach : Reaches cfg env s zone policy :=
    ⟨hadm, hmake, hstat, by simp [hlim], haddr, hns, hveth, hkernel, hset, by simp [hmem]⟩
  refine mapError_at (Triple.conseq (completeRecovery_triple hcg) ?_ ?_ fun _ h => h)
  · rintro _ _ ⟨rfl, hc⟩
    exact ⟨hreach, cg, ⟨⟨hmade, hn, hv, hpol, hsub⟩, rfl, hcg, rfl, update_self _ _ _, rfl,
      rfl⟩, hc⟩
  · rintro _ _ ⟨rfl, hc⟩
    exact Or.inr ⟨hreach, cg, ⟨⟨hmade, hn, hv, hpol, hsub⟩, rfl, hcg, rfl,
      update_self _ _ _, rfl, rfl⟩, hc, rfl⟩

/-! ## Rolling back -/

variable {p : Progress}

/-- What the roll-back changes. -/
structure RolledBack (s : Linux) (zone : ZoneHandle) (zoneId : UInt32) (p : Progress)
    (s' : Linux) : Prop where
  slice : s'.slice = s.slice
  netns : s'.netns = s.netns
  veths : s'.veths = s.veths
  policies : ∀ z, z ≠ zoneId → s'.policies z = s.policies z
  membership : ∀ i, s'.membership i = s.membership i ∨
    (p.cgroupId = some i ∧ s'.membership i = none)
  nextZoneId : s'.nextZoneId = s.nextZoneId
  allocator : s'.ipAllocator =
    if p.ipMarked then s.ipAllocator.released zone.networkState else s.ipAllocator

/-- No failure of a roll-back step is reported. -/
lemma rollbackRecovery_triple :
    Triple (· = s) (rollbackRecovery env zone zoneId p)
      (fun _ s' => RolledBack s zone zoneId p s') (fun _ _ => False) (fun _ => True) := by
  refine seq_at (fun _ s' => ∃ membership, s' = { s with membership := membership } ∧
    ∀ i, membership i = s.membership i ∨ (p.cgroupId = some i ∧ membership i = none)) ?_ ?_
  · cases hcg : p.cgroupId with
    | none => exact pure_at ⟨_, rfl, fun _ => .inl rfl⟩
    | some ino =>
      refine ignore_at (osCall_at (fun _ => ⟨_, rfl, fun i => ?_⟩)
        (fun _ => ⟨_, rfl, fun _ => .inl rfl⟩) trivial)
      by_cases hi : i = ino
      · exact .inr ⟨by rw [hi], by rw [hi]; exact update_self _ _ _⟩
      · exact .inl (update_of_ne hi _ _)
  rintro _ _ ⟨membership, rfl, hm⟩
  refine seq_at (fun _ s' => ∃ policies,
    s' = { s with membership := membership, policies := policies } ∧
      ∀ z, z ≠ zoneId → policies z = s.policies z) ?_ ?_
  · exact ignore_at (osCall_at (fun _ => ⟨_, rfl, fun z hz => update_of_ne hz _ _⟩)
      (fun _ => ⟨_, rfl, fun _ _ => rfl⟩) trivial)
  rintro _ _ ⟨policies, rfl, hp⟩
  cases hmark : p.ipMarked with
  | false =>
    refine bind_at (pure_at (update_at ?_))
    exact ⟨rfl, rfl, rfl, hp, hm, rfl, by simp [hmark]⟩
  | true =>
    cases hnet : zone.networkState with
    | none =>
      refine bind_at (pure_at (update_at ?_))
      exact ⟨rfl, rfl, rfl, hp, hm, rfl, by simp [hmark, hnet, IpAllocator.released]⟩
    | some net =>
      refine bind_at (update_at (update_at ?_))
      exact ⟨rfl, rfl, rfl, hp, hm, rfl, by simp [hmark, hnet, IpAllocator.released]⟩

/-- The drain is entered and does not succeed. -/
def Undrainable (env : Env) (name : String) (cg : Cgroup) : Prop :=
  (env.verdict .Recover name .ReadProcs = .err ∨ cg.procs ≠ []) ∧ DrainFails env .Recover name cg

/-- The processes of a zone after an attempt to drain it. -/
def Culled (env : Env) (name : String) (s s' : Linux) : Prop :=
  s' = s ∨ s' = { s with slice := s.slice.kill name (env.survives name) }

/-- Past the membership, the roll-back is only reached with an empty cgroup. -/
lemma failClosed_triple {e : RauhaError} (hcg : s.slice.get zone.name = some cg)
    (hp : p.membershipInstalled = true) :
    Triple (· = s) (failClosed env zone e p)
      (fun _ s' => Culled env zone.name s s' ∧ ¬Undrainable env zone.name cg ∧
        s'.slice.get zone.name = some { cg with procs := [] })
      (fun _ s' => Culled env zone.name s s') (fun _ => True) := by
  have hsame : Culled env zone.name s s := .inl rfl
  have hkilled : Culled env zone.name s
      { s with slice := s.slice.kill zone.name (env.survives zone.name) } := .inr rfl
  have hempty : cg.procs = [] → s.slice.get zone.name = some { cg with procs := [] } := by
    cases cg
    simp_all
  unfold failClosed
  rw [hp]
  refine bind_at (mayHaveProcesses_at hcg (fun _ => ?_) (fun hread hdead => ?_) trivial)
  · refine bind_at (attempt_at (drainZone_at hcg ?_ ?_ ?_ ?_ trivial trivial))
    · intro hnil hok
      exact pure_at ⟨hsame, fun h => hok h.2, hempty hnil⟩
    · intro hnil hok
      refine pure_at ⟨hkilled, fun h => hok h.2, ?_⟩
      rw [← hnil]
      exact Slice.get_kill hcg
    · intro e
      exact raise_at hsame
    · intro e
      exact raise_at hkilled
  · refine pure_at ⟨hsame, fun h => ?_, hempty hdead⟩
    simp [Undrainable, hread, hdead] at h

/-! ## The specification -/

/-- **What recovering one zone leaves behind**, whether it succeeds or fails. -/
structure AfterRecovery (cfg : Config) (env : Env) (s : Linux) (zone : ZoneHandle)
    (policy : ZonePolicy) (s' : Linux) : Prop where
  framed : Framed s zone.name s.nextZoneId s'
  nextZoneId : s'.nextZoneId = s.nextZoneId ∨ s'.nextZoneId = s.nextZoneId + 1
  /-- The cgroup stays, and holds no processes it did not hold before. -/
  stays : ∀ cg, s.slice.get zone.name = some cg →
    ∃ cg', s'.slice.get zone.name = some cg' ∧ cg'.ino = cg.ino
  culled : ∀ cg', s'.slice.get zone.name = some cg' → cg'.procs ≠ [] →
    ∃ cg, s.slice.get zone.name = some cg ∧ cg.ino = cg'.ino ∧ cg.procs ≠ []
  /-- Only its own membership changes, and it belongs to the zone id that was new. -/
  membership : ∀ i, s'.membership i = s.membership i ∨
    (∃ cg, s'.slice.get zone.name = some cg ∧ cg.ino = i) ∧
      ∀ z t, s'.membership i = some (z, t) → z = s.nextZoneId ∧ s'.nextZoneId = s.nextZoneId + 1
  /-- A zone that reached its membership has no live process without it. -/
  reached : Reaches cfg env s zone policy → ∀ cg', s'.slice.get zone.name = some cg' →
    cg'.procs ≠ [] → ∃ t, s'.membership cg'.ino = some (s.nextZoneId, t) ∧
      (s'.policies s.nextZoneId).isSome
  /-- One that did not keeps its processes. -/
  abandoned : ¬Reaches cfg env s zone policy → ∀ cg, s.slice.get zone.name = some cg →
    s'.slice.get zone.name = some cg ∧
      (s.membership cg.ino = none → s'.membership cg.ino = none)
  /-- The address is left alone, marked, or marked and released. -/
  allocator : s'.ipAllocator = s.ipAllocator ∨
    s'.ipAllocator = s.ipAllocator.marked zone.networkState ∨
    s'.ipAllocator = (s.ipAllocator.marked zone.networkState).released zone.networkState
  kept : Reaches cfg env s zone policy →
    (∀ cg, (s.slice.made zone.name).get zone.name = some cg →
      Completes env zone policy cg ∨ Undrainable env zone.name cg) →
    s'.ipAllocator = s.ipAllocator.marked zone.networkState

lemma contains_congr {a b : IpAllocator} (h : a.subnet = b.subnet) (ip : UInt32) :
    a.contains ip = b.contains ip := by
  unfold IpAllocator.contains IpAllocator.validatedOffset IpAllocator.ipToOffset
    IpAllocator.maxHostOffset
  rw [h]

/-- `Reaches` looks at nothing but the zone itself. -/
lemma Reaches.congr {s' : Linux} (hs : s'.slice.get zone.name = s.slice.get zone.name)
    (hn : zone.name ∈ s'.netns ↔ zone.name ∈ s.netns)
    (hv : zone.name ∈ s'.veths ↔ zone.name ∈ s.veths)
    (hsub : s'.ipAllocator.subnet = s.ipAllocator.subnet) (h : Reaches cfg env s zone policy) :
    Reaches cfg env s' zone policy where
  admitted := h.admitted
  cgroup hnone := h.cgroup (hs ▸ hnone)
  stat := h.stat
  limits := h.limits
  address net hnet hstrict := (contains_congr hsub net.ip).trans (h.address net hnet hstrict)
  netns hmode hstrict hnot := h.netns hmode hstrict fun hin => hnot (hn.mpr hin)
  veth hmode hstrict hnot := h.veth hmode hstrict fun hin => hnot (hv.mpr hin)
  kernel := h.kernel
  enforced := h.enforced
  member := h.member

/-- The state in which the closure starts. -/
def Linux.withZoneId (self : Linux) (uuid : ℕ) : Linux :=
  { self with
    nextZoneId := self.nextZoneId + 1
    zoneIdMap := self.zoneIdMap.insert uuid self.nextZoneId }

variable {uuid : ℕ}

lemma reaches_withZoneId :
    Reaches cfg env (s.withZoneId uuid) zone policy ↔ Reaches cfg env s zone policy :=
  ⟨.congr rfl .rfl .rfl rfl, .congr rfl .rfl .rfl rfl⟩

/-- What the cgroup of a zone is once it has been made sure of. -/
lemma get_made (h : (s.slice.made name).get name = some cg) :
    s.slice.get name = some cg ∨ (s.slice.get name = none ∧ cg.procs = []) := by
  unfold Slice.made at h
  split_ifs at h with hnone
  · rw [Slice.get_mkdir] at h
    cases h
    exact .inr ⟨hnone, rfl⟩
  · exact .inl h

lemma get_culled {s' : Linux} (h : Culled env name s s') (hcg : s.slice.get name = some cg) :
    ∃ cg', s'.slice.get name = some cg' ∧ cg'.ino = cg.ino ∧ (cg'.procs ≠ [] → cg.procs ≠ []) := by
  rcases h with rfl | rfl
  · exact ⟨cg, hcg, rfl, fun h => h⟩
  · refine ⟨_, Slice.get_kill hcg, rfl, fun h hnil => h ?_⟩
    simp [hnil]

variable {s'' : Linux}

lemma Framed.culled {s' : Linux} (h : Framed s name zoneId s') (hc : Culled env name s' s'') :
    Framed s name zoneId s'' := by
  rcases hc with rfl | rfl
  · exact h
  · exact ⟨fun n hn => (Slice.get_kill_ne hn).trans (h.slice n hn), h.netns, h.veths, h.policies,
      h.subnet⟩

lemma released_subnet (a : IpAllocator) (net : Option ZoneNetworkState) :
    (a.released net).subnet = a.subnet := by
  cases net with
  | none => rfl
  | some net =>
    show (a.release net.ip).subnet = a.subnet
    unfold IpAllocator.release
    split <;> rfl

lemma Framed.rolledBack {s' : Linux} (h : Framed s zone.name zoneId s')
    (hr : RolledBack s' zone zoneId p s'') : Framed s zone.name zoneId s'' := by
  refine ⟨fun n hn => by rw [hr.slice]; exact h.slice n hn, by rw [hr.netns]; exact h.netns,
    by rw [hr.veths]; exact h.veths, fun z hz => (hr.policies z hz).trans (h.policies z hz), ?_⟩
  rw [hr.allocator]
  split_ifs
  · rw [released_subnet, h.subnet]
  · exact h.subnet

variable {s₁ s₂ : Linux}

/-- The membership is there, and what processes are left are under it. -/
lemma afterRecovery_of_installed (hreach : Reaches cfg env s zone policy)
    (hi : Installed cfg (s.withZoneId uuid) zone zoneType policy s.nextZoneId cg s₁)
    (hc : Culled env zone.name s₁ s₂) : AfterRecovery cfg env s zone policy s₂ := by
  obtain ⟨cg₂, hcg₂, hino, hprocs⟩ := get_culled hc hi.own
  have hmade : (s.slice.made zone.name).get zone.name = some cg := by
    rw [← hi.own, hi.slice]
    rfl
  have hmem : s₂.membership = s₁.membership := by rcases hc with rfl | rfl <;> rfl
  have hpol : s₂.policies = s₁.policies := by rcases hc with rfl | rfl <;> rfl
  have hnext : s₂.nextZoneId = s.nextZoneId + 1 := by
    rcases hc with rfl | rfl <;> exact hi.nextZoneId
  have halloc : s₂.ipAllocator = s.ipAllocator.marked zone.networkState := by
    rcases hc with rfl | rfl <;> exact hi.allocator
  have hframed := hi.framed.culled hc
  refine ⟨⟨hframed.slice, hframed.netns, hframed.veths, hframed.policies, hframed.subnet⟩,
    .inr hnext, ?_, ?_, ?_, ?_, fun h => absurd hreach h, .inr (.inl halloc),
    fun _ _ => halloc⟩
  · intro cg₀ hcg₀
    refine ⟨cg₂, hcg₂, ?_⟩
    rcases get_made hmade with h | ⟨h, -⟩
    · rw [h] at hcg₀
      cases hcg₀
      exact hino
    · rw [h] at hcg₀
      cases hcg₀
  · intro cg' hcg' hlive
    rw [hcg₂] at hcg'
    cases hcg'
    rcases get_made hmade with h | ⟨-, h⟩
    · exact ⟨cg, h, hino.symm, hprocs hlive⟩
    · exact absurd h (hprocs hlive)
  · intro i
    rw [hmem, hi.membership]
    by_cases h : i = cg.ino
    · refine .inr ⟨⟨cg₂, hcg₂, hino.trans h.symm⟩, ?_⟩
      rintro z t hz
      rw [h, update_self] at hz
      cases hz
      exact ⟨rfl, hnext⟩
    · exact .inl (update_of_ne h _ _)
  · intro _ cg' hcg' _
    rw [hcg₂] at hcg'
    cases hcg'
    refine ⟨zoneType, ?_, ?_⟩
    · rw [hmem, hi.membership, hino, update_self]
    · rw [hpol, hi.policies]
      exact hreach.kernel

/-- The membership was there, and the zone was drained before it was taken back. -/
lemma afterRecovery_of_drained {s₃ : Linux} (hreach : Reaches cfg env s zone policy)
    (hi : Installed cfg (s.withZoneId uuid) zone zoneType policy s.nextZoneId cg s₁)
    (hc : Culled env zone.name s₁ s₂)
    (hdrained : s₂.slice.get zone.name = some { cg with procs := [] })
    (hnot : ¬(Completes env zone policy cg ∨ Undrainable env zone.name cg))
    (hr : RolledBack s₂ zone s.nextZoneId ⟨some cg.ino, zone.networkState.isSome, true⟩ s₃) :
    AfterRecovery cfg env s zone policy s₃ := by
  have hinst := afterRecovery_of_installed hreach hi hc
  have hmade : (s.slice.made zone.name).get zone.name = some cg := by
    rw [← hi.own, hi.slice]
    rfl
  have hown : s₃.slice.get zone.name = some { cg with procs := [] } := by
    rw [hr.slice]
    exact hdrained
  have halloc₂ : s₂.ipAllocator = s.ipAllocator.marked zone.networkState := by
    rcases hc with rfl | rfl <;> exact hi.allocator
  have halloc : s₃.ipAllocator = s.ipAllocator ∨
      s₃.ipAllocator = s.ipAllocator.marked zone.networkState ∨
      s₃.ipAllocator = (s.ipAllocator.marked zone.networkState).released zone.networkState := by
    rw [hr.allocator, halloc₂]
    cases hnet : zone.networkState with
    | none => exact .inl rfl
    | some net => exact .inr (.inr rfl)
  have hempty : ∀ cg', s₃.slice.get zone.name = some cg' → cg'.procs = [] := by
    intro cg' hcg'
    rw [hown] at hcg'
    cases hcg'
    rfl
  refine ⟨hinst.framed.rolledBack hr, by rw [hr.nextZoneId]; exact hinst.nextZoneId, ?_,
    fun cg' hcg' hlive => absurd (hempty cg' hcg') hlive, ?_,
    fun _ cg' hcg' hlive => absurd (hempty cg' hcg') hlive, fun h => absurd hreach h, halloc,
    fun _ hall => absurd (hall cg hmade) hnot⟩
  · intro cg₀ hcg₀
    rw [hr.slice]
    exact hinst.stays cg₀ hcg₀
  · intro i
    rcases hr.membership i with h | ⟨h, hnone⟩
    · rw [h, hr.slice, hr.nextZoneId]
      exact hinst.membership i
    · refine .inr ⟨⟨_, hown, Option.some.inj h⟩, fun z t hz => ?_⟩
      rw [hnone] at hz
      cases hz

/-- The membership was never there. -/
lemma afterRecovery_of_partway (hreach : ¬Reaches cfg env s zone policy)
    (hp : Partway (s.withZoneId uuid) zone s.nextZoneId p s₁)
    (hr : RolledBack s₁ zone s.nextZoneId p s₂) : AfterRecovery cfg env s zone policy s₂ := by
  have hget : ∀ cg, s₂.slice.get zone.name = some cg →
      s.slice.get zone.name = some cg ∨ (s.slice.get zone.name = none ∧ cg.procs = []) := by
    intro cg hcg
    rw [hr.slice] at hcg
    rcases hp.slice with h | h
    · rw [h] at hcg
      exact .inl hcg
    · rw [h] at hcg
      exact get_made (s := s) hcg
  have hback : ∀ cg, s.slice.get zone.name = some cg → s₂.slice.get zone.name = some cg := by
    intro cg hcg
    rw [hr.slice]
    rcases hp.slice with h | h
    · rw [h]
      exact hcg
    · rw [h, show (s.withZoneId uuid).slice = s.slice from rfl, Slice.get_made_of_some hcg]
      exact hcg
  have hframed : Framed s zone.name s.nextZoneId s₂ :=
    .rolledBack ⟨hp.framed.slice, hp.framed.netns, hp.framed.veths, hp.framed.policies,
      hp.framed.subnet⟩ hr
  refine ⟨hframed, .inr (by rw [hr.nextZoneId, hp.nextZoneId]; rfl), ?_, ?_, ?_,
    fun h => absurd h hreach, ?_, ?_, fun h => absurd h hreach⟩
  · intro cg hcg
    exact ⟨cg, hback cg hcg, rfl⟩
  · intro cg' hcg' hlive
    rcases hget cg' hcg' with h | ⟨-, h⟩
    · exact ⟨cg', h, rfl, hlive⟩
    · exact absurd h hlive
  · intro i
    rcases hr.membership i with h | ⟨h, hnone⟩
    · rw [h, hp.membership]
      exact .inl rfl
    · obtain ⟨cg, hcg, hino⟩ := hp.own i h
      refine .inr ⟨⟨cg, by rw [hr.slice]; exact hcg, hino⟩, fun z t hz => ?_⟩
      rw [hnone] at hz
      cases hz
  · intro _ cg hcg
    refine ⟨hback cg hcg, fun hnone => ?_⟩
    rcases hr.membership cg.ino with h | ⟨-, h⟩
    · rw [h, hp.membership]
      exact hnone
    · exact h
  · rw [hr.allocator, hp.allocator]
    cases p.ipMarked with
    | false => exact .inl rfl
    | true => exact .inr (.inr rfl)

/-- **The specification of `recoverZone`**, in every environment. -/
theorem recoverZone_triple :
    Triple (· = s) (recoverZone cfg env zone zoneType policy)
      (fun _ s' => AfterRecovery cfg env s zone policy s')
      (fun _ s' => AfterRecovery cfg env s zone policy s') (fun _ => True) := by
  refine bind_at (ofExcept_at ?_ ?_)
  swap
  · intro e hbad
    have hreach : ¬Reaches cfg env s zone policy := fun h => by
      rw [h.admitted] at hbad
      cases hbad
    exact ⟨⟨fun _ _ => rfl, .refl _ _, .refl _ _, fun _ _ => rfl, rfl⟩, .inl rfl,
      fun cg hcg => ⟨cg, hcg, rfl⟩, fun cg hcg hlive => ⟨cg, hcg, rfl, hlive⟩, fun _ => .inl rfl,
      fun h => absurd h hreach, fun _ cg hcg => ⟨hcg, fun h => h⟩, .inl rfl,
      fun h => absurd h hreach⟩
  intro _ hadm
  refine bind_at (bind_at (getState_at (bind_at (update_at (pure_at ?_)))))
  refine bind_at (attempt_at (.conseq (recovery_triple hadm) ?_ ?_ fun _ h => h))
  · rintro _ s₁ ⟨hreach, cg, hi, -⟩
    exact pure_at
      (afterRecovery_of_installed (reaches_withZoneId.mp hreach) hi (.inl rfl))
  · rintro ⟨e, p⟩ s₁ (⟨hreach, hp⟩ | ⟨hreach, cg, hi, hnot, rfl⟩)
    · have hreach' : ¬Reaches cfg env s zone policy := fun h => hreach (reaches_withZoneId.mpr h)
      have hskip : failClosed env zone e p = pure () := by
        unfold failClosed
        rw [hp.flag]
      simp only [hskip]
      refine bind_at (pure_at (bind_at
        (.conseq rollbackRecovery_triple ?_ (fun _ _ h => h.elim)
          fun _ h => h)))
      intro _ s₂ hr
      exact raise_at (afterRecovery_of_partway hreach' hp hr)
    · have hreach' := reaches_withZoneId.mp hreach
      refine bind_at (.conseq (failClosed_triple hi.own rfl) ?_ ?_ fun _ h => h)
      · rintro _ s₂ ⟨hc, hdrain, hempty⟩
        refine bind_at (.conseq rollbackRecovery_triple ?_ (fun _ _ h => h.elim) fun _ h => h)
        intro _ s₃ hr
        exact raise_at (afterRecovery_of_drained hreach' hi hc hempty
          (not_or.mpr ⟨hnot, hdrain⟩) hr)
      · intro _ s₂ hc
        exact afterRecovery_of_installed hreach' hi hc

end Backend

end Rauha
