import Rauha.Backend.Recovery
import Rauha.Backend.Registry

/-!
# Start-up

`reconcile` as a loop over the persisted zones followed by the clean-up of what belongs to none of
them.  `reconcile_at` is its rule: an invariant of the zones dealt with so far, kept by every
recovery, holds of the state the clean-up starts from, and `CleanedUp` says what the clean-up does
to it.  A start-up that fails or is cut short has not touched the store.
-/

namespace Rauha

open CrashLogic Triple

namespace Backend

/-! ## The clean-up -/

/-- **What cleaning up does**: of the cgroups that belong to no known zone, empty ones may go, and
    their memberships with them. -/
structure CleanedUp (known : List String) (s s' : Linux) : Prop where
  policies : s'.policies = s.policies
  allocator : s'.ipAllocator = s.ipAllocator
  slice : ∀ n, s'.slice.get n = s.slice.get n ∨
    (n ∉ known ∧ s'.slice.get n = none ∧ ∃ cg, s.slice.get n = some cg ∧ cg.procs = [])
  membership : ∀ i, s'.membership i = s.membership i ∨
    (s'.membership i = none ∧
      ∃ n cg, n ∉ known ∧ s.slice.get n = some cg ∧ cg.ino = i ∧ cg.procs = [])

section CleanUp

variable {env : Env} {known : List String} {s s' s'' : Linux}

lemma CleanedUp.refl : CleanedUp known s s := ⟨rfl, rfl, fun _ => .inl rfl, fun _ => .inl rfl⟩

lemma CleanedUp.trans (h : CleanedUp known s s') (h' : CleanedUp known s' s'') :
    CleanedUp known s s'' := by
  -- a cgroup that was there for the second clean-up was there for the first
  have hback : ∀ n cg, s'.slice.get n = some cg → s.slice.get n = some cg := by
    intro n cg hcg
    rcases h.slice n with heq | ⟨-, hnone, -⟩
    · rw [← heq]
      exact hcg
    · rw [hnone] at hcg
      cases hcg
  refine ⟨h'.policies.trans h.policies, h'.allocator.trans h.allocator, fun n => ?_, fun i => ?_⟩
  · rcases h'.slice n with heq' | ⟨hn, hnone, cg, hcg, hempty⟩
    · rw [heq']
      exact h.slice n
    · exact .inr ⟨hn, hnone, cg, hback n cg hcg, hempty⟩
  · rcases h'.membership i with heq' | ⟨hnone, n, cg, hn, hcg, hino, hempty⟩
    · rw [heq']
      exact h.membership i
    · exact .inr ⟨hnone, n, cg, hn, hback n cg hcg, hino, hempty⟩

variable {name : String} {cg : Cgroup}

/-- Removing an empty cgroup that belongs to no known zone. -/
lemma cleanedUp_rmdir (hn : name ∉ known) (hcg : s.slice.get name = some cg)
    (hempty : cg.procs = []) : CleanedUp known s { s with slice := s.slice.rmdir name } := by
  refine ⟨rfl, rfl, fun n => ?_, fun _ => .inl rfl⟩
  by_cases h : n = name
  · subst h
    exact .inr ⟨hn, Slice.get_rmdir, cg, hcg, hempty⟩
  · exact .inl (Slice.get_rmdir_ne h)

/-- Removing its membership. -/
lemma cleanedUp_removeMember (hn : name ∉ known) (hcg : s.slice.get name = some cg)
    (hempty : cg.procs = []) :
    CleanedUp known s { s with membership := Function.update s.membership cg.ino none } := by
  refine ⟨rfl, rfl, fun _ => .inl rfl, fun i => ?_⟩
  by_cases h : i = cg.ino
  · subst h
    exact .inr ⟨Function.update_self _ _ _, name, cg, hn, hcg, rfl, hempty⟩
  · exact .inl (Function.update_of_ne h _ _)

lemma destroyOrphan_triple {E : RauhaError → Linux → Prop} (hn : name ∉ known)
    (hcg : s.slice.get name = some cg) (hempty : cg.procs = []) :
    Triple (· = s) (.ignore (destroyZoneCgroup env .CleanupOrphans name))
      (fun _ s' => CleanedUp known s s') E (fun _ => True) := by
  refine ignore_at (bind_at (getState_at ?_))
  simp only [hcg]
  refine bind_at (failIf_at_of_not (by simp [hempty]) ?_)
  exact osCall_at (fun _ => cleanedUp_rmdir hn hcg hempty) (fun _ => .refl) trivial

/-- A program that cleans up, from any state, and reports no failure. -/
def Cleans {α : Type} (known : List String) (c : LinuxM α) : Prop :=
  ∀ s, Triple (· = s) c (fun _ s' => CleanedUp known s s') (fun _ _ => False) fun _ => True

lemma Cleans.pure {α : Type} {a : α} : Cleans known (Pure.pure a : LinuxM α) :=
  fun _ => pure_at CleanedUp.refl

lemma Cleans.bind {α β : Type} {c : LinuxM α} {f : α → LinuxM β} (hc : Cleans known c)
    (hf : ∀ a, Cleans known (f a)) : Cleans known (c >>= f) := fun s =>
  bind_at ((hc s).post fun a s' h => (hf a s').post fun _ _ h' => h.trans h')

lemma cleanupOrphan_cleans (hn : name ∉ known) : Cleans known (cleanupOrphan env name) := by
  intro s
  cases hcg : s.slice.get name with
  | none =>
    -- an entry that is gone cannot be read, and so counts as live
    refine bind_at (bind_at (attempt_at (bind_at (osCall_at
      (fun _ => bind_at (getState_at (ofExcept_at ?_ ?_))) (fun _ => ?_)
      trivial))))
    · intro live h
      simp [hcg] at h
    · intro e _
      exact pure_at (pure_at .refl)
    · exact pure_at (pure_at .refl)
  | some cg =>
    refine bind_at (mayHaveProcesses_at hcg (fun _ => pure_at .refl) ?_ trivial)
    intro _ hempty
    have hdestroy : ∀ s', CleanedUp known s s' → s'.slice.get name = some cg →
        Triple (· = s') (do
          .ignore (destroyZoneCgroup env .CleanupOrphans name)
          pure false) (fun _ s' => CleanedUp known s s') (fun _ _ => False) fun _ => True :=
      fun s' h hcg' => bind_at ((destroyOrphan_triple hn hcg' hempty).post
        fun _ _ h' => pure_at (h.trans h'))
    refine bind_at (attempt_at (cgroupIdForZone_at ?_ ?_ trivial))
    · intro cg' _ hcg'
      obtain rfl := Option.some.inj (hcg.symm.trans hcg')
      exact bind_at (ignore_at (osCall_at
        (fun _ => hdestroy _ (cleanedUp_removeMember hn hcg hempty) hcg)
        (fun _ => hdestroy s .refl hcg) trivial))
    · intro e _
      exact bind_at (pure_at (hdestroy s .refl hcg))

lemma cleanupCgroups_cleans (listing : List String) :
    Cleans known (cleanupCgroups env known listing) := by
  induction listing with
  | nil => exact .pure
  | cons name rest ih =>
    refine .bind ?_ fun kept => .bind ih fun live => .pure
    split_ifs with hn
    · exact .pure
    · exact cleanupOrphan_cleans hn

lemma cleanupNetns_cleans {live : List String} (namespaces : List String) :
    Cleans known (cleanupNetns env known live namespaces) := by
  induction namespaces with
  | nil => exact .pure
  | cons name rest ih =>
    refine .bind ?_ fun _ => ih
    split_ifs with hn
    · exact .pure
    · refine fun s => ignore_at (bind_at (getState_at ?_))
      split_ifs with hin
      · exact osCall_at (fun _ => ⟨rfl, rfl, fun _ => .inl rfl, fun _ => .inl rfl⟩)
          (fun _ => .refl) trivial
      · exact pure_at .refl

/-- **The specification of `cleanupOrphans`.** -/
lemma cleanupOrphans_cleans (listing namespaces : List String) :
    Cleans known (cleanupOrphans env known listing namespaces) := by
  have hread : ∀ site, Cleans known (.attempt (osCall env .CleanupOrphans "" site .Io id)) :=
    fun _ _ => attempt_at
      (osCall_at (fun _ => .refl) (fun _ => .refl) trivial)
  refine (hread _).bind fun readable => .bind ?_ fun live => (hread _).bind fun readable' => ?_
  · cases readable with
    | ok _ => exact cleanupCgroups_cleans listing
    | error _ => exact .pure
  · cases readable' with
    | ok _ => exact cleanupNetns_cleans namespaces
    | error _ => exact .pure

end CleanUp

end Backend

/-! ## The loop -/

/-- The daemon as it comes up again: the store as it was left, and nothing in memory. -/
def Daemon.boot (cfg : Backend.Config) (self : Daemon) : Daemon where
  store := self.store
  host := self.host.boot cfg
  handles := ∅

/-- With the handle under which a recovered zone can be used. -/
def Daemon.withHandle (self : Daemon) (zone : Zone) (ino : ℕ) : Daemon :=
  { self with
    handles := self.handles.insert zone.name { Registry.handleOf zone with platformId := ino } }

namespace Registry

open Backend

variable {cfg : Config} {env : Env} {d : Daemon}

variable {store : Metadata}

lemma reconcileZone_at {zone : Zone} {R : Daemon → Prop} (hstore : d.store = store)
    (h : ∀ s', AfterRecovery cfg env d.linux (handleOf zone) zone.policy s' →
      R (d.withLinux s') ∧ ∀ ino, R ((d.withLinux s').withHandle zone ino)) :
    Triple (· = d) (reconcileZone cfg env zone) (fun _ => R) (fun _ d' => d'.store = store)
      (fun d' => d'.store = store) := by
  refine bind_at (attempt_at (zoom_at (zoom_at (Triple.conseq recoverZone_triple ?_ ?_
    fun _ _ => hstore))))
  · intro _ s' hs'
    refine bind_at (update_at ?_)
    exact judged_at (fun _ => (h s' hs').2 _) (fun _ => hstore) fun _ => hstore
  · intro _ s' hs'
    exact pure_at (h s' hs').1

variable {I : List Zone → Daemon → Prop} {done rest : List Zone} {zone : Zone}

/-- What start-up found of the zones whose turn has not come is still there. -/
structure Untouched (s₀ : Linux) (done : List Zone) (s : Linux) : Prop where
  subnet : s.ipAllocator.subnet = s₀.ipAllocator.subnet
  slice : ∀ n, n ∉ done.map Zone.name → s.slice.get n = s₀.slice.get n
  netns : ∀ n, n ∉ done.map Zone.name → (n ∈ s.netns ↔ n ∈ s₀.netns)
  veths : ∀ n, n ∉ done.map Zone.name → (n ∈ s.veths ↔ n ∈ s₀.veths)

lemma Untouched.refl {s : Linux} : Untouched s [] s :=
  ⟨rfl, fun _ _ => rfl, fun _ _ => .rfl, fun _ _ => .rfl⟩

lemma Untouched.step {s₀ s s' : Linux} {zoneId : UInt32} (h : Untouched s₀ done s)
    (hframed : Framed s zone.name zoneId s') : Untouched s₀ (done ++ [zone]) s' := by
  have hnames : ∀ n, n ∉ (done ++ [zone]).map Zone.name →
      n ≠ zone.name ∧ n ∉ done.map Zone.name := by
    intro n hn
    simpa [and_comm] using hn
  refine ⟨hframed.subnet.trans h.subnet, ?_, ?_, ?_⟩ <;> intro n hn <;>
    obtain ⟨hne, hold⟩ := hnames n hn
  · exact (hframed.slice n hne).trans (h.slice n hold)
  · exact (hframed.netns n hne).trans (h.netns n hold)
  · exact (hframed.veths n hne).trans (h.veths n hold)

/-- The zones dealt with so far have other names. -/
lemma name_not_mem (h : store.listZones = done ++ zone :: rest) :
    zone.name ∉ done.map Zone.name := by
  have hnodup := @Metadata.nodup_listZones store
  rw [h, List.map_append, List.map_cons, List.nodup_append'] at hnodup
  exact fun hmem => hnodup.2.2 hmem List.mem_cons_self

/-- **The loop rule**: what each recovery adds to the zones dealt with so far. -/
lemma reconcileZones_at {zones : List Zone} (hstore : ∀ done d, I done d → d.store = store)
    (hstep : ∀ done zone rest, zones = done ++ zone :: rest → ∀ d, I done d → ∀ s',
      AfterRecovery cfg env d.linux (handleOf zone) zone.policy s' →
      I (done ++ [zone]) (d.withLinux s') ∧
        ∀ ino, I (done ++ [zone]) ((d.withLinux s').withHandle zone ino))
    (rest : List Zone) : ∀ done d, zones = done ++ rest → I done d →
      Triple (· = d) (reconcileZones cfg env rest) (fun _ => I zones)
        (fun _ d' => d'.store = store) (fun d' => d'.store = store) := by
  induction rest with
  | nil =>
    intro done d hzones hI
    rw [List.append_nil] at hzones
    exact pure_at (hzones ▸ hI)
  | cons zone rest ih =>
    intro done d hzones hI
    refine bind_at (.post (reconcileZone_at (hstore done d hI)
      (hstep done zone rest hzones d hI)) ?_)
    intro _ d' hI'
    exact ih (done ++ [zone]) d' (by rw [hzones]; simp) hI'

/-- **The rule for `reconcile`.** -/
theorem reconcile_at {listing namespaces : List String}
    (hstore : ∀ done d', I done d' → d'.store = d.store) (hinit : I [] d)
    (hstep : ∀ done zone rest, d.store.listZones = done ++ zone :: rest → ∀ d', I done d' → ∀ s',
      AfterRecovery cfg env d'.linux (handleOf zone) zone.policy s' →
      I (done ++ [zone]) (d'.withLinux s') ∧
        ∀ ino, I (done ++ [zone]) ((d'.withLinux s').withHandle zone ino)) :
    Triple (· = d) (reconcile cfg env listing namespaces)
      (fun _ d' => ∃ s, I d.store.listZones (d'.withLinux s) ∧
        CleanedUp (d.store.listZones.map Zone.name) s d'.linux)
      (fun _ d' => d'.store = d.store) (fun d' => d'.store = d.store) := by
  refine bind_at (judged_at (fun _ => ?_) (fun _ => rfl) fun _ => rfl)
  refine bind_at (getState_at ?_)
  refine bind_at (.post (reconcileZones_at hstore hstep d.store.listZones [] d rfl hinit) ?_)
  intro _ d' hI
  refine zoom_at (zoom_at ((cleanupOrphans_cleans listing namespaces _).conseq ?_
    (fun _ _ h => h.elim) fun _ _ => (hstore _ d' hI :)))
  intro _ s' hs'
  exact ⟨d'.linux, hI, hs'⟩

end Registry

end Rauha
