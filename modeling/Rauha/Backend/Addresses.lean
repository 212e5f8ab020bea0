import Rauha.Backend.Enforcement
import Rauha.Backend.Frames
import Rauha.Library.Transition

/-!
# Zone addresses

Ownership of an address is persisted with the zone; the allocator that keeps addresses apart is
in memory and is rebuilt at every start.  Addresses stay unique as long as the two agree: the
offset of every persisted address of the subnet is marked.

**Where they part.**  A recovery that fails leaves the zone persisted and its address free, and so
does a deletion whose metadata step fails after the backend has torn the zone down.  The next zone
is then given the same address.  `Sound` excludes these two, and nothing else: every other step of
every operation may fail, and the daemon may die anywhere.
-/

namespace Rauha

open CrashLogic Backend Transition Triple

/-! ## The allocator -/

namespace IpAllocator

variable {a b c : IpAllocator} {net net' : Option ZoneNetworkState}

/-- The address is marked, if it is one of the subnet. -/
def Marks (self : IpAllocator) (net : Option ZoneNetworkState) : Prop :=
  ∀ n offset, net = some n → self.validatedOffset n.ip = some offset → offset ∈ self.allocated

/-- `b` marks what `a` does. -/
structure Grown (a b : IpAllocator) : Prop where
  subnet : b.subnet = a.subnet
  allocated : a.allocated ⊆ b.allocated

lemma Grown.of_eq (h : b = a) : Grown a b := h ▸ ⟨rfl, fun _ h => h⟩

lemma Grown.trans (h : Grown a b) (h' : Grown b c) : Grown a c :=
  ⟨h'.subnet.trans h.subnet, h.allocated.trans h'.allocated⟩

lemma validatedOffset_congr (h : b.subnet = a.subnet) (ip : UInt32) :
    b.validatedOffset ip = a.validatedOffset ip := by
  unfold validatedOffset ipToOffset maxHostOffset
  rw [h]

lemma Marks.grown (h : a.Marks net) (hgrown : Grown a b) : b.Marks net := by
  intro n offset hnet hoffset
  rw [validatedOffset_congr hgrown.subnet] at hoffset
  exact hgrown.allocated (h n offset hnet hoffset)

lemma grown_marked : Grown a (a.marked net) := by
  unfold marked
  split
  · unfold markAllocated
    split
    · exact ⟨rfl, Finset.subset_insert _ _⟩
    · exact .of_eq rfl
  · exact .of_eq rfl

lemma marks_marked : (a.marked net).Marks net := by
  rintro n offset rfl hoffset
  unfold marked markAllocated at *
  simp only at *
  split
  · rename_i offset' hoffset'
    simp only [hoffset'] at hoffset
    have heq : a.validatedOffset n.ip = some offset := hoffset
    rw [hoffset'] at heq
    cases heq
    exact Finset.mem_insert_self _ _
  · rename_i hnone
    simp only [hnone] at hoffset
    cases hoffset

/-- Releasing an address takes no other's mark. -/
lemma Marks.released (h : a.Marks net')
    (hne : ∀ n n', net = some n → net' = some n' → n.ip ≠ n'.ip) : (a.released net).Marks net' := by
  cases net with
  | none => exact h
  | some n =>
    intro n' offset hnet hoffset
    unfold IpAllocator.released release at *
    simp only at *
    split
    · rename_i freed hfreed
      simp only [hfreed] at hoffset
      have hoffset' : a.validatedOffset n'.ip = some offset := hoffset
      refine Finset.mem_erase.mpr ⟨?_, h n' offset hnet hoffset'⟩
      rintro rfl
      exact hne n n' rfl hnet (validatedOffset_inj hfreed hoffset')
    · rename_i hnone
      simp only [hnone] at hoffset
      exact h n' offset hnet hoffset

/-- **An address was taken from `a`**, or none was needed. -/
def Took (a : IpAllocator) (net : Option ZoneNetworkState) (b : IpAllocator) : Prop :=
  match net with
  | none => b = a
  | some net => ∃ offset, a.validatedOffset net.ip = some offset ∧ offset ∉ a.allocated ∧
      b = { a with allocated := insert offset a.allocated }

lemma Took.grown (h : Took a net b) : Grown a b := by
  cases net with
  | none => exact .of_eq h
  | some net =>
    obtain ⟨offset, -, -, rfl⟩ := h
    exact ⟨rfl, Finset.subset_insert _ _⟩

/-- Giving it back undoes that. -/
lemma Took.released (h : Took a net b) : b.released net = a := by
  cases net with
  | none => exact h
  | some net =>
    obtain ⟨offset, hoffset, hfree, rfl⟩ := h
    unfold IpAllocator.released release
    simp only
    have hoffset' : validatedOffset { a with allocated := insert offset a.allocated } net.ip =
        some offset := hoffset
    rw [hoffset']
    simp [Finset.erase_insert hfree]

lemma Took.marks (h : Took a net b) : b.Marks net := by
  rintro n offset' rfl hoffset'
  obtain ⟨offset, hoffset, -, rfl⟩ := h
  have heq : a.validatedOffset n.ip = some offset' := hoffset'
  rw [hoffset] at heq
  cases heq
  exact Finset.mem_insert_self _ _

/-- The address taken is nobody else's. -/
lemma Took.ne (h : Took a net b) (hmarks : a.Marks net') {n n' : ZoneNetworkState}
    (hnet : net = some n) (hnet' : net' = some n') : n.ip ≠ n'.ip := by
  subst hnet
  obtain ⟨offset, hoffset, hfree, -⟩ := h
  intro heq
  exact hfree (hmarks n' offset hnet' (heq ▸ hoffset))

end IpAllocator

/-! ## The backend -/

namespace Backend

variable {cfg : HostConfig} {env : HostEnv} {name : String} {a : IpAllocator} {zone : ZoneHandle}

section Calm

/-- Most of the backend does not touch the allocator. -/
abbrev Calm {α : Type} (c : HostM α) : Prop := Keeps (·.ipAllocator) c

lemma onLinux_calm {α : Type} {c : LinuxM α} (h : Keeps Linux.ipAllocator c) : Calm (onLinux c) :=
  .zoom h fun _ _ ht => ht

lemma osCall_calm {op : Op} {site : Site} {e : RauhaError} {f : Linux → Linux}
    (h : ∀ s, (f s).ipAllocator = s.ipAllocator) :
    Calm (onLinux (osCall env.toEnv op name site e f)) := onLinux_calm (osCall_keeps h)

lemma setZonePolicy_calm {op : Op} {zoneId : UInt32} {policy : ZonePolicy} :
    Calm (onLinux (setZonePolicy cfg.toConfig env.toEnv op name zoneId policy)) :=
  onLinux_calm (.bind .ofExcept fun _ => osCall_keeps fun _ => rfl)

lemma enforcePolicy_calm {policy : FullPolicy} : Calm (Host.enforcePolicy cfg env zone policy) :=
  .bind .ofExcept fun _ => .bind (.bind .getState fun _ => .ofExcept) fun _ =>
    .bind (.bind setZonePolicy_calm fun _ =>
      .bind (partCall_keeps (fun _ => rfl) fun _ => rfl) fun _ =>
        .bind (applyNftablesForZone_keeps (fun _ _ => rfl) fun _ _ => rfl) fun _ =>
          applyLimits_keeps fun _ _ => rfl) fun _ => .update fun _ => rfl

end Calm

/-! ### Creation -/

section Create

variable {config : ZoneConfig} {uuid : ℕ} {net : Option ZoneNetworkState} {s : Host}

variable {E : RauhaError → Host → Prop}

/-- Giving an address back. -/
lemma releaseIp_at (h : s.ipAllocator.released net = a) :
    Triple (· = s) (Host.releaseIp net) (fun _ s' => s'.ipAllocator = a) E (fun _ => True) := by
  cases net with
  | none => exact pure_at h
  | some net => exact update_at h

/-- A roll-back gives the address back. -/
lemma rollbackZone_triple (h : a.Took net s.ipAllocator) :
    Triple (· = s) (Host.rollbackZone env config uuid net) (fun _ s' => s'.ipAllocator = a) E
      (fun _ => True) := by
  refine seq_at (fun _ s' => s'.ipAllocator = a) (releaseIp_at h.released) fun _ s' hs' => ?_
  refine bind_at ((onLinux_calm (destroyVethPair_keeps fun _ _ => rfl)).ignore_at
    (fun s₁ h₁ => ?_) fun _ _ => trivial)
  refine bind_at ((onLinux_calm (destroyNetns_keeps fun _ _ => rfl)).ignore_at
    (fun s₂ h₂ => ?_) fun _ _ => trivial)
  refine bind_at ((onLinux_calm (destroyZoneCgroup_keeps fun _ _ => rfl)).ignore_at
    (fun s₃ h₃ => ?_) fun _ _ => trivial)
  refine bind_at (zoom_at (update_at (bind_at (update_at (update_at ?_)))))
  exact h₃.trans (h₂.trans (h₁.trans hs'))

/-- **A statement of creation** keeps the address taken, or gives it back. -/
lemma orRollback_at {α : Type} {c : HostM α} (hc : Calm c) (h : a.Took net s.ipAllocator)
    {Q : α → Host → Prop} (hQ : ∀ x s', s'.ipAllocator = s.ipAllocator → Q x s') :
    Triple (· = s) (Host.orRollback env config uuid net c) Q (fun _ s' => s'.ipAllocator = a)
      (fun _ => True) := by
  refine bind_at (attempt_at (hc.triple_at ?_ ?_ fun _ _ => trivial))
  · intro x s' hs'
    exact pure_at (hQ x s' hs')
  · intro e s' hs'
    refine bind_at (Triple.post (rollbackZone_triple (hs' ▸ h)) (fun _ s'' hs'' => raise_at hs''))

lemma allocateIp_at {Q : ZoneNetworkState → Host → Prop} {K : Host → Prop}
    (hQ : ∀ net s', s.ipAllocator.Took (some net) s'.ipAllocator → Q net s') (hE : ∀ e, E e s) :
    Triple (· = s) (onLinux allocateIp) Q E K := by
  refine zoom_at (bind_at (getState_at ?_))
  refine bind_at (ofExcept_at ?_ fun e _ => hE e)
  rintro ⟨ip, next⟩ hok
  obtain ⟨offset, hoffset, hfree, rfl⟩ := IpAllocator.allocate_ok hok
  exact bind_at (update_at (pure_at (hQ _ _ ⟨offset, hoffset, hfree, rfl⟩)))

lemma createNetwork_triple (hs : s.ipAllocator = a) :
    Triple (· = s) (Host.createNetwork env config uuid) (fun net s' => a.Took net s'.ipAllocator)
      (fun _ s' => s'.ipAllocator = a) (fun _ => True) := by
  unfold Host.createNetwork
  split
  · exact pure_at hs
  refine bind_at (bind_at (attempt_at (allocateIp_at ?_ ?_)))
  · intro net s₁ htook
    rw [hs] at htook
    refine pure_at (bind_at (orRollback_at (onLinux_calm (createNetns_keeps fun _ _ => rfl))
      htook ?_))
    intro _ s₂ h₂
    refine bind_at (orRollback_at (orDegrade_keeps (fun _ _ => rfl)
      (onLinux_calm (createVethPair_keeps fun _ _ => rfl))) (h₂ ▸ htook) ?_)
    intro _ s₃ h₃
    exact pure_at (by rw [h₃, h₂]; exact htook)
  · intro e
    exact bind_at (.post (rollbackZone_triple (show a.Took none s.ipAllocator from hs))
      fun _ s'' hs'' => raise_at hs'')

/-- **Creation in the backend.**  It takes a free address, or leaves the allocator as it was. -/
lemma createZone_triple {resources : ResourcePolicy} :
    Triple (· = s) (Host.createZone cfg env config resources uuid)
      (fun handle s' => s.ipAllocator.Took handle.networkState s'.ipAllocator)
      (fun _ s' => s'.ipAllocator = s.ipAllocator) (fun _ => True) := by
  refine bind_at (ofExcept_at ?_ fun _ _ => rfl)
  intro _ _
  refine bind_at (zoom_at (bind_at (getState_at (bind_at (update_at (pure_at ?_))))))
  refine bind_at (update_at ?_)
  refine bind_at (attempt_at ((onLinux_calm (createZoneCgroup_keeps fun _ _ => rfl)).triple_at ?_ ?_
    fun _ _ => trivial))
  · intro cgroupId s₁ h₁
    refine bind_at (pure_at ?_)
    refine bind_at (Triple.post (createNetwork_triple h₁) ?_)
    intro net s₂ htook
    refine bind_at (orRollback_at setZonePolicy_calm htook ?_)
    intro _ s₃ h₃
    have h₃' := h₃ ▸ htook
    refine bind_at (orRollback_at ?_ h₃' ?_)
    · refine .bind (.attempt (osCall_calm fun _ => rfl)) fun added => ?_
      cases added with
      | ok => exact .pure
      | error e => exact .bind (.ignore (osCall_calm fun _ => rfl)) fun _ => .raise
    intro _ s₄ h₄
    have h₄' := h₄ ▸ h₃'
    refine bind_at (orRollback_at ?_ h₄' ?_)
    · refine .bind (.attempt (applyLimits_keeps fun _ _ => rfl)) fun applied => ?_
      cases applied with
      | ok => exact .pure
      | error e =>
        exact .bind (.ignore (osCall_calm fun _ => rfl)) fun _ =>
          .bind (.ignore (osCall_calm fun _ => rfl)) fun _ => .raise
    intro _ s₅ h₅
    exact pure_at (h₅ ▸ h₄')
  · intro e s₁ h₁
    exact bind_at (bind_at (zoom_at (update_at (raise_at h₁))))

end Create

/-! ### Destruction -/

/-- **Destruction in the backend** gives the address of the handle back; one that fails has not. -/
lemma destroyZone_triple {s : Host} :
    Triple (· = s) (Host.destroyZone env zone)
      (fun _ s' => s'.ipAllocator = s.ipAllocator.released zone.networkState)
      (fun _ s' => s'.ipAllocator = s.ipAllocator) (fun _ => True) := by
  have hshim : Calm (hostCall env .Destroy zone.name .ShutdownShim .Io id) :=
    hostCall_keeps fun _ => rfl
  refine bind_at (hshim.ignore_at (fun s₀ h₀ => ?_) fun _ _ => trivial)
  refine bind_at ((onLinux_calm (drainZone_keeps fun _ _ => rfl)).triple_at ?_
    (fun _ _ h => h.trans h₀) fun _ _ => trivial)
  intro _ s₁ h₁
  have h₁ := h₁.trans h₀
  refine bind_at ((onLinux_calm (destroyZoneCgroup_keeps fun _ _ => rfl)).triple_at ?_
    (fun _ _ h => h.trans h₁) fun _ _ => trivial)
  intro _ s₂ h₂
  have h₂ := h₂.trans h₁
  refine bind_at (getState_at (bind_at (zoom_at (update_at (bind_at (update_at ?_))))))
  -- from here on nothing is reported
  refine seq_at (fun _ s' => s'.ipAllocator = s.ipAllocator) ?_ fun _ s₃ h₃ => ?_
  · cases s₂.zoneIdMap.lookup zone.id with
    | none => exact pure_at h₂
    | some zoneId =>
      have hinodes : Calm (removeInodes env .Destroy zone.name (s₂.registeredInodes zone.name)) :=
        partCall_keeps (fun _ => rfl) fun _ => rfl
      refine bind_at (hinodes.ignore_at (fun s₃ h₃ => ?_) fun _ _ => trivial)
      refine bind_at (Keeps.ignore_at (osCall_calm fun _ => rfl) (fun s₄ h₄ => ?_)
        fun _ _ => trivial)
      exact Keeps.ignore_at (osCall_calm fun _ => rfl)
        (fun s₅ h₅ => h₅.trans (h₄.trans (h₃.trans h₂))) fun _ _ => trivial
  refine seq_at (fun _ s' => s'.ipAllocator = s.ipAllocator.released zone.networkState)
    (releaseIp_at (congrArg (·.released zone.networkState) h₃)) fun _ s₄ h₄ => ?_
  refine bind_at (update_at ?_)
  refine bind_at ((onLinux_calm (destroyVethPair_keeps fun _ _ => rfl)).ignore_at
    (fun s₅ h₅ => ?_) fun _ _ => trivial)
  refine bind_at ((onLinux_calm (destroyNetns_keeps fun _ _ => rfl)).ignore_at
    (fun s₆ h₆ => ?_) fun _ _ => trivial)
  exact bind_at (update_at (bind_at (update_at (update_at (h₆.trans (h₅.trans h₄))))))

end Backend

/-! ## The registry -/

/-- **No two persisted zones hold the same address.** -/
def UniqueAddresses (store : Metadata) : Prop :=
  ∀ name name' zone zone' net net', store.getZone name = some zone →
    store.getZone name' = some zone' → zone.networkState = some net →
    zone'.networkState = some net' → net.ip = net'.ip → name = name'

variable {store store' : Metadata}

lemma UniqueAddresses.sub (h : UniqueAddresses store)
    (hsub : ∀ n z, store'.getZone n = some z → store.getZone n = some z) :
    UniqueAddresses store' := fun n n' z z' net net' hz hz' =>
  h n n' z z' net net' (hsub n z hz) (hsub n' z' hz')

lemma UniqueAddresses.congr (h : UniqueAddresses store) (heq : store'.getZone = store.getZone) :
    UniqueAddresses store' :=
  h.sub fun _ _ hz => heq ▸ hz

/-- **Memory agrees with the store**: persisted addresses are marked, and handles have them. -/
structure Agrees (d : Daemon) : Prop where
  marks : ∀ name zone, d.store.getZone name = some zone →
    d.host.ipAllocator.Marks zone.networkState
  handles : ∀ name handle zone, d.handles.lookup name = some handle →
    d.store.getZone name = some zone → handle.networkState = zone.networkState

namespace Registry

variable {d : Daemon} {name : String}

section Requests

variable {cfg : HostConfig} {env : HostEnv}

/-! ### Creation -/

/-- What an operation leaves when it fails: zones and handles as they were. -/
structure Unchanged (d d' : Daemon) : Prop where
  zones : d'.store.getZone = d.store.getZone
  handles : d'.handles = d.handles
  grown : d.host.ipAllocator.Grown d'.host.ipAllocator

variable {d' : Daemon}

lemma Unchanged.agrees (h : Unchanged d d') (hagrees : Agrees d) : Agrees d' :=
  ⟨fun name zone hzone => (hagrees.marks name zone (h.zones ▸ hzone)).grown h.grown,
    fun name handle zone hhandle hzone =>
      hagrees.handles name handle zone (h.handles ▸ hhandle) (h.zones ▸ hzone)⟩

/-- The zone and its handle are in, under an address taken from the allocator. -/
structure Added (d : Daemon) (name : String) (d' : Daemon) : Prop where
  new : d.store.getZone name = none
  added : ∃ zone handle, zone.name = name ∧ handle.networkState = zone.networkState ∧
    d'.store = d.store.putZone zone ∧ d'.handles = d.handles.insert name handle ∧
    d.host.ipAllocator.Took zone.networkState d'.host.ipAllocator

lemma createZone_triple {zoneType : ZoneType} {policy : FullPolicy} {uuid : ℕ} :
    Triple (· = d) (createZone cfg env name zoneType policy uuid) (fun _ d' => Added d name d')
      (fun _ d' => Unchanged d d') (fun d' => d'.store = d.store) := by
  have hsame : Unchanged d d := ⟨rfl, rfl, .of_eq rfl⟩
  refine bind_at (ofExcept_at ?_ fun _ _ => hsame)
  intro _ _
  refine bind_at (judged_at (fun _ => ?_) (fun _ => hsame) fun _ => rfl)
  refine bind_at (getState_at ?_)
  refine bind_at (failIf_at (fun _ => hsame) ?_)
  intro hfree
  have hnew : d.store.getZone name = none := by simpa using hfree
  refine bind_at (zoom_at (Triple.conseq Backend.createZone_triple ?_ ?_ fun _ _ => rfl))
  · intro handle s₁ htook
    refine bind_at (attempt_at (zoom_at (enforcePolicy_calm.triple_at ?_ ?_ fun _ _ => rfl)))
    · intro _ s₂ h₂
      have h₂' : s₂.ipAllocator = s₁.ipAllocator := h₂
      have hgrown : Unchanged d { d with host := s₂ } := ⟨rfl, rfl, htook.grown.trans (.of_eq h₂)⟩
      refine bind_at (pure_at ?_)
      refine bind_at (judged_at (fun _ => ?_) (fun _ => hgrown) fun _ => rfl)
      refine bind_at (update_at (pure_at ⟨hnew, _, handle, rfl, rfl, rfl, rfl, ?_⟩))
      show d.host.ipAllocator.Took handle.networkState s₂.ipAllocator
      rw [h₂']
      exact htook
    · intro e s₂ h₂
      have h₂' : s₂.ipAllocator = s₁.ipAllocator := h₂
      refine bind_at (bind_at (ignore_at (zoom_at (Triple.conseq
        Backend.destroyZone_triple ?_ ?_ fun _ _ => rfl))))
      · intro _ s₃ h₃
        have hback : s₂.ipAllocator.released handle.networkState = d.host.ipAllocator := by
          rw [h₂', htook.released]
        exact raise_at ⟨rfl, rfl, .of_eq (h₃.trans hback)⟩
      · intro _ s₃ h₃
        exact raise_at ⟨rfl, rfl, htook.grown.trans (.of_eq (h₃.trans h₂'))⟩
  · intro _ s₁ h₁
    exact ⟨rfl, rfl, .of_eq h₁⟩

/-- **A new zone has an address of its own.** -/
lemma Added.unique (h : Added d name d') (hagrees : Agrees d) (hunique : UniqueAddresses d.store) :
    UniqueAddresses d'.store := by
  obtain ⟨zone, handle, rfl, -, hstore, -, htook⟩ := h.added
  -- an address of an older zone is marked or outside the subnet, so it is not the one taken
  have hold : ∀ name' zone' net net', d.store.getZone name' = some zone' →
      zone.networkState = some net → zone'.networkState = some net' → net.ip ≠ net'.ip :=
    fun name' zone' net net' hzone' hnet hnet' =>
      htook.ne (hagrees.marks name' zone' hzone') hnet hnet'
  rw [hstore]
  intro n n' z z' net net' hz hz' hnet hnet' hip
  rcases Table.of_lookup_insert hz with ⟨rfl, rfl⟩ | ⟨-, h₁⟩ <;>
    rcases Table.of_lookup_insert hz' with ⟨rfl, rfl⟩ | ⟨-, h₂⟩
  · rfl
  · exact absurd hip (hold n' z' net net' h₂ hnet hnet')
  · exact absurd hip.symm (hold n z net' net h₁ hnet' hnet)
  · exact hunique n n' z z' net net' h₁ h₂ hnet hnet' hip

lemma Added.agrees (h : Added d name d') (hagrees : Agrees d) : Agrees d' := by
  obtain ⟨zone, handle, rfl, hnet, hstore, hhandles, htook⟩ := h.added
  refine ⟨fun n z hz => ?_, fun n handle' z hhandle hz => ?_⟩
  · rw [hstore] at hz
    rcases Table.of_lookup_insert hz with ⟨-, rfl⟩ | ⟨-, hold⟩
    · exact htook.marks
    · exact (hagrees.marks n z hold).grown htook.grown
  · rw [hstore] at hz
    rw [hhandles] at hhandle
    rcases Table.of_lookup_insert hz with ⟨rfl, rfl⟩ | ⟨hn, hold⟩
    · rw [AList.lookup_insert] at hhandle
      cases hhandle
      exact hnet
    · rw [AList.lookup_insert_ne hn] at hhandle
      exact hagrees.handles n handle' z hhandle hold

/-! ### Deletion -/

/-- No metadata step fails once the backend has torn the zone down. -/
def DeletesCleanly (env : Env) (name : String) (containers : List Container) : Prop :=
  (∀ container ∈ containers,
    env.verdict .Registry (toString container.id) .RemoveLogs ≠ .err ∧
      env.verdict .Registry (toString container.id) .DeleteContainer ≠ .err) ∧
    env.verdict .Registry name .DeleteZone ≠ .err

lemma forgetContainers_triple {env : Env} {containers : List Container}
    {E : RauhaError → Daemon → Prop}
    (hE : ∀ e d', d'.store.getZone = d.store.getZone → d'.handles = d.handles →
      d'.host = d.host →
      (∃ container ∈ containers,
        env.verdict .Registry (toString container.id) .RemoveLogs = .err ∨
          env.verdict .Registry (toString container.id) .DeleteContainer = .err) → E e d') :
    Triple (· = d) (forgetContainers env containers)
      (fun _ d' => d'.store.getZone = d.store.getZone ∧ d'.handles = d.handles ∧ d'.host = d.host)
      E (fun d' => d'.store.getZone = d.store.getZone) := by
  induction containers generalizing d with
  | nil => exact pure_at ⟨rfl, rfl, rfl⟩
  | cons container rest ih =>
    refine bind_at (judged_at (fun _ => ?_) (fun hv => ?_) fun _ => rfl)
    · refine bind_at (judged_at (fun _ => ?_) (fun hv => ?_) fun _ => rfl)
      · refine ih fun e d' hstore hhandles hhost hfails => hE e d' hstore hhandles hhost ?_
        obtain ⟨c, hc, hv⟩ := hfails
        exact ⟨c, List.mem_cons_of_mem _ hc, hv⟩
      · exact hE _ _ rfl rfl rfl ⟨container, List.mem_cons_self, .inr hv⟩
    · exact hE _ _ rfl rfl rfl ⟨container, List.mem_cons_self, .inl hv⟩

/-- The zone and its handle are gone, and its address is free. -/
structure Removed (d : Daemon) (name : String) (d' : Daemon) : Prop where
  store : d'.store.getZone name = none
  others : ∀ n, n ≠ name → d'.store.getZone n = d.store.getZone n
  handles : d'.handles = d.handles.erase name
  freed : ∃ zone handle, d.store.getZone name = some zone ∧ d.handles.lookup name = some handle ∧
    d'.host.ipAllocator = d.host.ipAllocator.released handle.networkState

lemma deleteZone_triple {force : Bool} (hagrees : Agrees d)
    (h : ∀ zone, d.store.getZone name = some zone → zone.networkState ≠ none →
      DeletesCleanly env.toEnv name (d.store.listContainers (some zone.id))) :
    Triple (· = d) (deleteZone env name force) (fun _ d' => Removed d name d')
      (fun _ d' => Unchanged d d') (fun d' => d'.store.getZone = d.store.getZone) := by
  have hsame : Unchanged d d := ⟨rfl, rfl, .of_eq rfl⟩
  refine bind_at (judged_at (fun _ => ?_) (fun _ => hsame) fun _ => rfl)
  refine bind_at (getState_at ?_)
  refine bind_at (ofExcept_at ?_ fun _ _ => hsame)
  intro zone hzone
  have hzone' : d.store.getZone name = some zone := by
    split at hzone <;> cases hzone
    assumption
  refine bind_at (ofExcept_at ?_ fun _ _ => hsame)
  intro handle hhandle
  have hhandle' : d.handles.lookup name = some handle := by
    split at hhandle <;> cases hhandle
    assumption
  refine bind_at (judged_at (fun _ => ?_) (fun _ => hsame) fun _ => rfl)
  refine bind_at (failIf_at (fun _ => hsame) fun _ => ?_)
  refine bind_at (zoom_at (Triple.conseq Backend.destroyZone_triple ?_ ?_ fun _ _ => rfl))
  · intro _ s₁ h₁
    -- a failure from here on is one of a zone without an address
    have hfailed : ∀ d', d'.store.getZone = d.store.getZone → d'.handles = d.handles →
        d'.host = s₁ → ¬DeletesCleanly env.toEnv name (d.store.listContainers (some zone.id)) →
        Unchanged d d' := by
      intro d' hstore hhandles hhost hfails
      have hnet : zone.networkState = none := by
        by_contra hsome
        exact hfails (h zone hzone' hsome)
      refine ⟨hstore, hhandles, ?_⟩
      have h₁' : s₁.ipAllocator = d.host.ipAllocator.released handle.networkState := h₁
      rw [hhost, h₁', hagrees.handles name handle zone hhandle' hzone', hnet]
      exact .of_eq rfl
    refine bind_at (Triple.post (forgetContainers_triple ?_) ?_)
    · rintro _ d' hstore hhandles hhost ⟨container, hmem, hv⟩
      refine hfailed d' hstore hhandles hhost fun hclean => ?_
      obtain ⟨hlogs, hdelete⟩ := hclean.1 container hmem
      exact hv.elim hlogs hdelete
    rintro _ d₁ ⟨hstore, hhandles, hhost⟩
    refine bind_at (judged_at (fun _ => ?_)
      (fun hv => hfailed d₁ hstore hhandles hhost fun hclean => hclean.2 hv) fun _ => hstore)
    refine update_at ⟨Metadata.getZone_deleteZone name, fun n hn => ?_, ?_, zone, handle,
      hzone', hhandle', ?_⟩
    · exact (Metadata.getZone_deleteZone_ne hn).trans (congrFun hstore n)
    · exact congrArg (AList.erase name) hhandles
    · show d₁.host.ipAllocator = _
      rw [hhost]
      exact h₁
  · intro _ s₁ h₁
    exact ⟨rfl, rfl, .of_eq h₁⟩

lemma Removed.sub (h : Removed d name d') (n : String) (z : Zone)
    (hz : d'.store.getZone n = some z) : n ≠ name ∧ d.store.getZone n = some z := by
  have hn : n ≠ name := by
    rintro rfl
    rw [h.store] at hz
    cases hz
  exact ⟨hn, h.others n hn ▸ hz⟩

lemma Removed.agrees (h : Removed d name d') (hagrees : Agrees d)
    (hunique : UniqueAddresses d.store) : Agrees d' := by
  obtain ⟨zone, handle, hzone, hhandle, hfreed⟩ := h.freed
  refine ⟨fun n z hz => ?_, fun n handle' z hhandle' hz => ?_⟩
  · obtain ⟨hn, hold⟩ := h.sub n z hz
    rw [hfreed, hagrees.handles name handle zone hhandle hzone]
    refine (hagrees.marks n z hold).released fun net net' hnet hnet' hip => ?_
    exact hn (hunique name n zone z net net' hzone hold hnet hnet' hip).symm
  · obtain ⟨hn, hold⟩ := h.sub n z hz
    rw [h.handles, AList.lookup_erase_ne hn] at hhandle'
    exact hagrees.handles n handle' z hhandle' hold

end Requests

variable {cfg : Config} {env : Env}

/-! ### Start-up -/

/-- **The recovery of a zone keeps its address**: it gets as far as the membership and then through,
    or it cannot be drained and is not rolled back. -/
def KeepsAddress (cfg : Config) (env : Env) (s : Linux) (zone : Zone) : Prop :=
  Reaches cfg env s (handleOf zone) zone.policy ∧
    ∀ cg, (s.slice.made zone.name).get zone.name = some cg →
      Completes env (handleOf zone) zone.policy cg ∨ Undrainable env zone.name cg

/-- The zone has an address of the subnet. -/
def InSubnet (allocator : IpAllocator) (zone : Zone) : Prop :=
  ∃ net, zone.networkState = some net ∧ allocator.contains net.ip = true

/-- Only the processes of the cgroup matter. -/
lemma keeps_congr {zone : Zone} {cg cg' : Cgroup} (hprocs : cg'.procs = cg.procs)
    (h : Completes env (handleOf zone) zone.policy cg ∨ Undrainable env zone.name cg) :
    Completes env (handleOf zone) zone.policy cg' ∨ Undrainable env zone.name cg' := by
  rcases h with h | h
  · refine .inl ⟨fun hstrict => ?_, h.comms, h.nftables⟩
    obtain ⟨hcollected, hfound, hregistered⟩ := h.inodes hstrict
    exact ⟨hcollected, fun hnone => ⟨(hfound hnone).1, hprocs.trans (hfound hnone).2⟩, hregistered⟩
  · refine .inr ?_
    unfold Undrainable DrainFails at *
    rw [hprocs]
    exact h

/-- **What holds once the zones in `done` have been dealt with.** -/
structure Readdressed (s₀ : Linux) (store : Metadata) (done : List Zone) (d : Daemon) : Prop
    extends Untouched s₀ done d.linux where
  store_eq : d.store = store
  marks : ∀ zone ∈ done, d.linux.ipAllocator.Marks zone.networkState
  handles : ∀ name handle, d.handles.lookup name = some handle →
    ∃ zone ∈ done, zone.name = name ∧ handle.networkState = zone.networkState

section Loop

variable {s₀ s' : Linux} {store : Metadata} {done : List Zone} {zone : Zone}

/-- Whether a zone keeps its address has not changed when its turn comes. -/
lemma Readdressed.keepsAddress (h : Readdressed s₀ store done d)
    (hnew : zone.name ∉ done.map Zone.name) (hkeeps : KeepsAddress cfg env s₀ zone) :
    KeepsAddress cfg env d.linux zone := by
  have hslice := h.slice zone.name hnew
  refine ⟨hkeeps.1.congr hslice (h.netns _ hnew) (h.veths _ hnew) h.subnet, fun cg hcg => ?_⟩
  cases hget : s₀.slice.get zone.name with
  | some cg₀ =>
    rw [Slice.get_made_of_some (hslice.trans hget), hslice, hget] at hcg
    refine hkeeps.2 cg ?_
    rw [Slice.get_made_of_some hget, hget]
    exact hcg
  | none =>
    rw [Slice.made, if_pos (hslice.trans hget), Slice.get_mkdir] at hcg
    cases hcg
    have hfresh := hkeeps.2 ⟨s₀.slice.nextIno, []⟩
      (by rw [Slice.made, if_pos hget, Slice.get_mkdir])
    exact keeps_congr (by rfl) hfresh

/-- **The address is marked** after a recovery that keeps it, and no other mark is lost. -/
lemma marks_of_afterRecovery {a : IpAllocator}
    (hr : AfterRecovery cfg env d.linux (handleOf zone) zone.policy s')
    (ha : d.linux.ipAllocator = a) (hkeeps : InSubnet a zone → KeepsAddress cfg env d.linux zone) :
    s'.ipAllocator.Marks zone.networkState ∧ a.Grown s'.ipAllocator := by
  subst ha
  have hmarked : s'.ipAllocator = d.linux.ipAllocator.marked zone.networkState →
      s'.ipAllocator.Marks zone.networkState ∧ d.linux.ipAllocator.Grown s'.ipAllocator := by
    intro heq
    rw [heq]
    exact ⟨IpAllocator.marks_marked, IpAllocator.grown_marked⟩
  by_cases hin : InSubnet d.linux.ipAllocator zone
  · obtain ⟨hreaches, hcomplete⟩ := hkeeps hin
    exact hmarked (hr.kept hreaches hcomplete)
  · -- an address that is not of the subnet is neither marked nor released
    have hnop : d.linux.ipAllocator.marked zone.networkState = d.linux.ipAllocator ∧
        d.linux.ipAllocator.released zone.networkState = d.linux.ipAllocator := by
      cases hnet : zone.networkState with
      | none => exact ⟨rfl, rfl⟩
      | some net =>
        have hout : ¬d.linux.ipAllocator.contains net.ip = true := fun hc => hin ⟨net, hnet, hc⟩
        refine ⟨marked_of_not_contains hout, ?_⟩
        show d.linux.ipAllocator.release net.ip = _
        unfold IpAllocator.release
        rw [Option.not_isSome_iff_eq_none.mp hout]
    have hmark : d.linux.ipAllocator.marked (handleOf zone).networkState = d.linux.ipAllocator :=
      hnop.1
    have hfree : d.linux.ipAllocator.released (handleOf zone).networkState =
        d.linux.ipAllocator := hnop.2
    refine hmarked ?_
    rw [hnop.1]
    rcases hr.allocator with heq | heq | heq
    · exact heq
    · exact heq.trans hmark
    · rw [heq, hmark, hfree]

/-- **One step of the loop.** -/
lemma Readdressed.step (h : Readdressed s₀ store done d) (hnew : zone.name ∉ done.map Zone.name)
    (hkeeps : InSubnet s₀.ipAllocator zone → KeepsAddress cfg env s₀ zone)
    (hr : AfterRecovery cfg env d.linux (handleOf zone) zone.policy s') :
    Readdressed s₀ store (done ++ [zone]) (d.withLinux s') := by
  obtain ⟨hmarks, hgrown⟩ := marks_of_afterRecovery hr rfl fun ⟨net, hnet, hin⟩ =>
    h.keepsAddress hnew (hkeeps ⟨net, hnet, by rw [← contains_congr h.subnet]; exact hin⟩)
  refine ⟨h.toUntouched.step hr.framed, h.store_eq, fun zone' hmem => ?_,
    fun name handle hhandle => ?_⟩
  · rcases List.mem_append.mp hmem with hold | hthis
    · exact (h.marks zone' hold).grown hgrown
    · rw [List.mem_singleton.mp hthis]
      exact hmarks
  · obtain ⟨zone', hmem, hname, hnet⟩ := h.handles name handle hhandle
    exact ⟨zone', List.mem_append_left _ hmem, hname, hnet⟩

lemma Readdressed.withHandle (h : Readdressed s₀ store (done ++ [zone]) d) (ino : ℕ) :
    Readdressed s₀ store (done ++ [zone]) (d.withHandle zone ino) := by
  refine ⟨h.toUntouched, h.store_eq, h.marks, fun name handle hhandle => ?_⟩
  rcases Table.of_lookup_insert hhandle with ⟨rfl, rfl⟩ | ⟨-, hold⟩
  · exact ⟨zone, by simp, rfl, rfl⟩
  · exact h.handles name handle hold

end Loop

/-- **Start-up brings memory back in line with the store**, if every zone keeps its address. -/
lemma reconcile_agrees (listing namespaces : List String)
    (hkeeps : ∀ zone ∈ d.store.listZones, InSubnet (.new cfg.subnet) zone →
      KeepsAddress cfg env (d.linux.boot cfg) zone) :
    Triple (· = d.boot cfg) (reconcile cfg env listing namespaces)
      (fun _ d' => d'.store = d.store ∧ Agrees d') (fun _ d' => d'.store = d.store)
      (fun d' => d'.store = d.store) := by
  refine .post (@reconcile_at cfg env (d.boot cfg)
    (Readdressed (d.linux.boot cfg) d.store) listing namespaces (fun _ _ h => h.store_eq)
    ⟨.refl, rfl, (fun _ hmem => nomatch hmem), (fun _ _ h => nomatch h)⟩ ?_) ?_
  · intro done zone rest hzones d' h s' hr
    have hzones' : d.store.listZones = done ++ zone :: rest := hzones
    have hstep := h.step (name_not_mem hzones') (hkeeps zone (by rw [hzones']; simp)) hr
    exact ⟨hstep, fun ino => hstep.withHandle ino⟩
  · rintro _ d' ⟨s, h, hclean⟩
    have hstore : d'.store = d.store := h.store_eq
    refine ⟨hstore, fun name zone hzone => ?_, fun name handle zone hhandle hzone => ?_⟩
    · show d'.linux.ipAllocator.Marks zone.networkState
      rw [hclean.allocator]
      refine h.marks zone (Metadata.mem_listZones.mpr ?_)
      show d.store.getZone zone.name = some zone
      rw [← hstore, d'.store.zone_key name zone hzone]
      exact hzone
    · obtain ⟨zone', hmem, hname, hnet⟩ := h.handles name handle hhandle
      have hzone' := Metadata.mem_listZones.mp hmem
      have hsame : d.store.getZone name = some zone := hstore ▸ hzone
      have hzone'' : d.store.getZone name = some zone' := hname ▸ hzone'
      rw [hsame] at hzone''
      cases hzone''
      exact hnet

/-! ## Runs -/

/-- A daemon on its host, under the configuration it was last started with. -/
structure Node where
  daemon : Daemon
  cfg : HostConfig
  serving : Bool

/-- What happens to it.  `Drift` is what the host and the workloads do by themselves.  Recovery is
    followed in the part of the backend that `Linux` has; what it makes of the others is `rest`. -/
inductive NodeEvent where
  | CreateZone (env : HostEnv) (name : String) (zoneType : ZoneType) (policy : FullPolicy)
      (uuid : ℕ)
  | DeleteZone (env : HostEnv) (name : String) (force : Bool)
  | Restart (cfg : HostConfig) (env : Env) (listing namespaces : List String) (rest : Host)
  | Drift (slice : Slice) (netns veths : Finset String)

/-- A daemon that was cut short serves no more. -/
def Node.after {α : Type} (self : Node) (result : Outcome RauhaError α × List Fate × Daemon) :
    Node :=
  match result with
  | (.stopped, _, d) => { self with daemon := d, serving := false }
  | (_, _, d) => { self with daemon := d }

/-- One whose start-up finished serves. -/
def Node.started (cfg : HostConfig) (rest : Host)
    (result : Outcome RauhaError Unit × List Fate × Daemon) : Node :=
  match result with
  | (.done _, _, d) => ⟨{ d with host := rest.withLinux d.linux }, cfg, true⟩
  | (_, _, d) => ⟨{ d with host := rest.withLinux d.linux }, cfg, false⟩

/-- **One step.**  Zones are created and deleted by a daemon whose start-up has finished. -/
def Node.step (self : Node) : NodeEvent → Node
  | .CreateZone env name zoneType policy uuid =>
    if self.serving then
      self.after (createZone self.cfg env name zoneType policy uuid [] self.daemon)
    else self
  | .DeleteZone env name force =>
    if self.serving then self.after (deleteZone env name force [] self.daemon) else self
  | .Restart cfg env listing namespaces rest =>
    .started cfg rest
      (reconcile cfg.toConfig env listing namespaces [] (self.daemon.boot cfg.toConfig))
  | .Drift slice netns veths =>
    { self with
      daemon := { self.daemon with
        host := { self.daemon.host with slice := slice, netns := netns, veths := veths } } }

/-- **The steps that keep addresses apart**: a restart in which every zone with an address of the
    subnet keeps it, and a deletion of such a zone whose metadata steps do not fail. -/
def Node.Sound (self : Node) : NodeEvent → Prop
  | .Restart cfg env _ _ _ => ∀ zone ∈ self.daemon.store.listZones,
      InSubnet (.new cfg.subnet) zone →
      KeepsAddress cfg.toConfig env (self.daemon.linux.boot cfg.toConfig) zone
  | .DeleteZone env name _ => ∀ zone, self.daemon.store.getZone name = some zone →
      zone.networkState ≠ none →
      DeletesCleanly env.toEnv name (self.daemon.store.listContainers (some zone.id))
  | _ => True

/-- The invariant of sound runs. -/
structure Node.Addressed (node : Node) : Prop where
  unique : UniqueAddresses node.daemon.store
  agrees : node.serving = true → Agrees node.daemon

/-- What a triple says about the node after the operation. -/
lemma Node.Addressed.after {α : Type} {n : Node} {c : DaemonM α}
    (htriple : Triple (· = n.daemon) c (fun _ d => UniqueAddresses d.store ∧ Agrees d)
      (fun _ d => UniqueAddresses d.store ∧ Agrees d) fun d => UniqueAddresses d.store) :
    (n.after (c [] n.daemon)).Addressed := by
  have hpost := htriple [] n.daemon rfl
  rcases hrun : c [] n.daemon with ⟨o, plan, d⟩
  rw [hrun] at hpost
  cases o with
  | done a => exact ⟨hpost.1, fun _ => hpost.2⟩
  | failed e => exact ⟨hpost.1, fun _ => hpost.2⟩
  | stopped => exact ⟨hpost, nofun⟩

/-- **A sound step keeps addresses unique.** -/
lemma Node.Addressed.step (n : Node) (e : NodeEvent) (h : n.Addressed) (hsound : n.Sound e) :
    (n.step e).Addressed := by
  cases e with
  | CreateZone env name zoneType policy uuid =>
    unfold Node.step
    split_ifs with hserving
    · have hagrees := h.agrees hserving
      refine Node.Addressed.after (createZone_triple.conseq (fun _ d hadded => ?_)
        (fun _ d hsame => ?_) fun d hstore => ?_)
      · exact ⟨hadded.unique hagrees h.unique, hadded.agrees hagrees⟩
      · exact ⟨h.unique.congr hsame.zones, hsame.agrees hagrees⟩
      · rw [show d.store = n.daemon.store from hstore]
        exact h.unique
    · exact h
  | DeleteZone env name force =>
    unfold Node.step
    split_ifs with hserving
    · have hagrees := h.agrees hserving
      refine Node.Addressed.after ((deleteZone_triple hagrees hsound).conseq
        (fun _ d hremoved => ?_) (fun _ d hsame => ?_) fun d hstore => ?_)
      · exact ⟨h.unique.sub fun name' z hz => (hremoved.sub name' z hz).2,
          hremoved.agrees hagrees h.unique⟩
      · exact ⟨h.unique.congr hsame.zones, hsame.agrees hagrees⟩
      · exact h.unique.congr hstore
    · exact h
  | Restart cfg env listing namespaces rest =>
    have hpost := reconcile_agrees listing namespaces hsound [] (n.daemon.boot cfg.toConfig) rfl
    show (Node.started cfg rest (reconcile cfg.toConfig env listing namespaces [] _)).Addressed
    rcases hrun : reconcile cfg.toConfig env listing namespaces []
      (n.daemon.boot cfg.toConfig) with ⟨o, plan, d⟩
    rw [hrun] at hpost
    cases o with
    | done a =>
      exact ⟨h.unique.congr (congrArg _ hpost.1), fun _ => ⟨hpost.2.marks, hpost.2.handles⟩⟩
    | failed e => exact ⟨h.unique.congr (congrArg _ hpost), nofun⟩
    | stopped => exact ⟨h.unique.congr (congrArg _ hpost), nofun⟩
  | Drift slice netns veths =>
    exact ⟨h.unique, fun hserving => ⟨(h.agrees hserving).marks, (h.agrees hserving).handles⟩⟩

/-- A host on which no zone was created yet. -/
def Node.fresh (cfg : HostConfig) (host : Host) : Node := ⟨⟨.empty, host, ∅⟩, cfg, false⟩

lemma Node.addressed_fresh (cfg : HostConfig) (host : Host) : (Node.fresh cfg host).Addressed :=
  ⟨(fun _ _ _ _ _ _ hz => nomatch hz), nofun⟩

/-- **Zone addresses are unique along every sound run.** -/
theorem zone_addresses_unique (cfg : HostConfig) (host : Host) (es : List NodeEvent)
    (h : Meets .step Node.Sound (.fresh cfg host) es) :
    UniqueAddresses (run Node.step (Node.fresh cfg host) es).daemon.store :=
  (h.invariant Node.Addressed.step (Node.addressed_fresh cfg host)).unique

/-! ## Two zones with one address -/

/-- The daemon is started, with some calls failing, on a host with these zones. -/
def restart (sites : List (Op × String × Site)) (names : List String) : NodeEvent :=
  .Restart bareConfig (failingAt sites).toEnv names names emptyHost

/-- A zone with an address is created; nothing fails. -/
def addZone (name : String) (uuid : ℕ) : NodeEvent :=
  .CreateZone (failingAt []) name .NonGlobal isolatedPolicy uuid

/-- Two zones are created and the first is deleted again; nothing fails. -/
def soundRun : List NodeEvent :=
  [restart [] [], addZone "a" 0, addZone "b" 1, .DeleteZone (failingAt []) "a" false]

/-- Along it addresses are unique. -/
theorem zone_addresses_unique_soundRun :
    UniqueAddresses (run Node.step (Node.fresh bareConfig emptyHost) soundRun).daemon.store :=
  zone_addresses_unique bareConfig emptyHost soundRun
    ⟨(fun _ hzone => nomatch hzone), trivial, trivial,
      fun _ _ _ => ⟨fun _ _ => ⟨nofun, nofun⟩, by decide⟩, trivial⟩

/-- The recovery of a zone fails after a restart, and another zone is created. -/
def failedRecoveryRun : List NodeEvent :=
  [restart [] [], addZone "a" 0, restart [(.Recover, "a", .WriteLimits)] ["a"], addZone "b" 1]

/-- **Both zones are persisted with the same address.** -/
theorem address_given_twice :
    ¬UniqueAddresses
      (run Node.step (Node.fresh bareConfig emptyHost) failedRecoveryRun).daemon.store := by
  intro h
  have hname := h "a" "b" ⟨0, "a", .NonGlobal, isolatedPolicy.toZonePolicy,
    some ⟨173604866, 173604865, 16⟩⟩ ⟨1, "b", .NonGlobal, isolatedPolicy.toZonePolicy,
    some ⟨173604866, 173604865, 16⟩⟩ _ _ (by decide +kernel) (by decide +kernel) rfl rfl rfl
  exact absurd hname (by decide)

/-- A deletion that fails in the store after the teardown has the same effect. -/
example :
    let store := (run Node.step (Node.fresh bareConfig emptyHost)
      [restart [] [], addZone "a" 0,
        .DeleteZone (failingAt [(.Registry, "a", .DeleteZone)]) "a" false,
        addZone "b" 1]).daemon.store
    (store.getZone "a").bind Zone.networkState = some ⟨173604866, 173604865, 16⟩ ∧
      (store.getZone "b").bind Zone.networkState = some ⟨173604866, 173604865, 16⟩ := by
  decide +kernel

end Registry

end Rauha
