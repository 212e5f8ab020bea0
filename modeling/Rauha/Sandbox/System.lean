import Rauha.Library.Transition
import Rauha.Sandbox.Steps

/-!
# The system invariant

`Inv` puts together what holds of the store, of every request, of every guard and of recovery.
Every event keeps it (`step_inv`), so it holds after every run from a host without tasks
(`run_inv`), whatever the interleaving and wherever the daemon crashes.
-/

namespace Rauha.Sandbox

open List Function

/-- The records recovery still has to deal with. -/
structure Pending (c : Core) (todo : List RecoveryRecord) : Prop where
  stored : ∀ record ∈ todo, c.record record.taskId = some record
  complete : ∀ t record, c.record t = some record → record ∈ todo
  nodup : (todo.map RecoveryRecord.taskId).Nodup

/-- **Where recovery stands** with the first of its records. -/
def Recovers (c : Core) : List RecoveryRecord → RecoverStage → Prop
  | _, .Next => True
  | [], _ => False
  | record :: _, .Inspect container seen => c.result record.taskId = some [] ∧
      CopyOk c record.taskId record container ∧ ∀ copy ∈ seen, CopyOk c record.taskId record copy
  | record :: _, .Save _ => c.result record.taskId = some []
  | record :: _, .Clean stage => (∃ bytes, c.result record.taskId = some bytes ∧ bytes ≠ []) ∧
      Cleaning c record.taskId record stage

/-- **What concerns one request**: its thread, its guard and its temporary zone. -/
structure Own (c : Core) (active : Finset String) (n : ℕ) (thread : Option Thread)
    (guard : Option Guard) : Prop where
  held : ∀ th, thread = some th → n < c.nextUuid ∧ Holds c n th.request th.pc ∧
    (th.pc ≠ .Reserve → th.request.taskId ∈ active)
  guarded : ∀ g, guard = some g → n < c.nextUuid ∧
    (∀ id, zoneOf n c.log = some id → Known c g.zoneName id) ∧
    ∀ th, thread = some th → ∃ attempted, th.pc = .Release attempted
  /-- Whoever is to see to a temporary zone that is there. -/
  zoned : ∀ id name zone, zoneOf n c.log = some id → c.zone name = some zone → zone.id = id →
    admitted n c.log = true ∨ lost n c.log = true ∨
      (∃ th, thread = some th ∧ Guarded th.pc) ∨ guard ≠ none

/-- **The invariant of the system.** -/
structure Inv (w : World) (s : State) : Prop where
  shared : Shared w s.toCore
  own : ∀ n, Own s.toCore s.active n (s.threads n) (s.guards n)
  /-- No two requests hold the same reservation. -/
  unique : ∀ n n' thread thread', s.threads n = some thread → s.threads n' = some thread' →
    thread.pc ≠ .Reserve → thread'.pc ≠ .Reserve →
    thread.request.taskId = thread'.request.taskId → n = n'
  quiet : s.mode ≠ .Serving → (∀ n, s.threads n = none) ∧ ∀ n, s.guards n = none
  recovering : ∀ todo stage, s.mode = .Recovering todo stage →
    Pending s.toCore todo ∧ Recovers s.toCore todo stage

variable {w : World} {s : State} (h : Inv w s)

/-! ## What others do -/

section Frame

variable {c c' : Core} {active active' : Finset String} {n n' : ℕ} {t : String}
  {thread : Option Thread} {guard : Option Guard}

/-- A temporary zone that is there was there before, and had somebody to see to it. -/
lemma Own.zoned_before {id : ℕ} {name : String} {zone : Zone} (h : Own c active n thread guard)
    (hs : Shared w c) (hu : Untouched c n' t c') (hsame : zoneOf n c'.log = zoneOf n c.log)
    (hz : zoneOf n c'.log = some id) (hzone : c'.zone name = some zone) (hid : zone.id = id) :
    admitted n c'.log = true ∨ lost n c'.log = true ∨
      (∃ th, thread = some th ∧ Guarded th.pc) ∨ guard ≠ none := by
  rw [hsame] at hz
  have hold := hu.zone_old (hs.zoned_lt n id hz).2 hzone hid
  rcases h.zoned id name zone hz hold hid with hadm | hlost | hrest
  · exact .inl (hu.admitted_mono n hadm)
  · exact .inr (.inl (hu.lost n hlost))
  · exact .inr (.inr hrest)

/-- **What another process does** leaves a request where it was. -/
lemma Own.frame (h : Own c active n thread guard) (hs : Shared w c) (hu : Untouched c n' t c')
    (hn : n ≠ n') (htask : ∀ th, thread = some th → th.pc ≠ .Reserve →
      th.request.taskId ≠ t ∧ th.request.taskId ∈ active') : Own c' active' n thread guard where
  held th hth := by
    obtain ⟨hlt, hholds, -⟩ := h.held th hth
    refine ⟨hlt.trans_le hu.uuid, hholds.frame hs hu hn ?_, fun hpc => (htask th hth hpc).2⟩
    by_cases hpc : th.pc = .Reserve
    · exact .inl hpc
    · exact .inr (htask th hth hpc).1
  guarded g hg := by
    obtain ⟨hlt, hknown, hrelease⟩ := h.guarded g hg
    refine ⟨hlt.trans_le hu.uuid, fun id hid => ?_, hrelease⟩
    exact (hknown id ((hu.zoneOf n hn).symm.trans hid)).stable hu
  zoned _ _ _ := h.zoned_before hs hu (hu.zoneOf n hn)

lemma ne_append_dash (t : String) : t ≠ t ++ "-" := by
  intro heq
  have hlen := congrArg String.length heq
  simp at hlen

/-- A process without a task of its own. -/
lemma Own.apart (h : Own c active n thread guard) (hs : Shared w c)
    (hu : ∀ t, Untouched c n' t c') (hn : n ≠ n') : Own c' active n thread guard := by
  refine h.frame hs (hu ((thread.elim "" fun th => th.request.taskId) ++ "-")) hn
    fun th hth hpc => ⟨?_, (h.held th hth).2.2 hpc⟩
  rw [hth]
  exact ne_append_dash _

end Frame

/-! ## Requests -/

section Requests

variable {n : ℕ} {thread : Thread} {c' : Core} {active' : Finset String}
  {guards' : ℕ → Option Guard} {next : Option Thread}

include h

/-- **A request moves**, or ends, while everything else stands still. -/
lemma Inv.replace (hmode : s.mode = .Serving) (hs : Shared w c')
    (hu : Untouched s.toCore n thread.request.taskId c')
    (hown : Own c' active' n next (guards' n))
    (hnext : ∀ th, next = some th → th.request = thread.request)
    (hothers : ∀ n' thread', n' ≠ n → s.threads n' = some thread' → thread'.pc ≠ .Reserve →
      thread'.request.taskId ≠ thread.request.taskId)
    (hactive : ∀ t, t ≠ thread.request.taskId → t ∈ s.active → t ∈ active')
    (hguards : ∀ n', n' ≠ n → guards' n' = s.guards n') :
    Inv w ⟨c', s.mode, active', update s.threads n next, guards'⟩ := by
  -- another request does not have the task of this one
  have hdiffer : ∀ n' th th', n' ≠ n → update s.threads n next n = some th →
      update s.threads n next n' = some th' → th'.pc ≠ .Reserve →
      th'.request.taskId ≠ th.request.taskId := by
    intro n' th th' hn hth hth' hpc
    rw [update_self] at hth
    rw [update_of_ne hn] at hth'
    rw [hnext th hth]
    exact hothers n' th' hn hth' hpc
  refine ⟨hs, fun n' => ?_, fun n₁ n₂ th₁ th₂ h₁ h₂ hpc₁ hpc₂ htask => ?_,
    fun hne => absurd hmode hne, fun todo stage heq => nomatch hmode.symm.trans heq⟩
  · show Own c' active' n' (update s.threads n next n') (guards' n')
    by_cases hn : n' = n
    · subst hn
      rw [update_self]
      exact hown
    · rw [update_of_ne hn, hguards n' hn]
      refine (h.own n').frame h.shared hu hn fun th hth hpc => ?_
      have hne := hothers n' th hn hth hpc
      exact ⟨hne, hactive _ hne (((h.own n').held th hth).2.2 hpc)⟩
  · by_cases hn₁ : n₁ = n <;> by_cases hn₂ : n₂ = n
    · rw [hn₁, hn₂]
    · subst hn₁
      exact absurd htask.symm (hdiffer n₂ th₁ th₂ hn₂ h₁ h₂ hpc₂)
    · subst hn₂
      exact absurd htask (hdiffer n₁ th₂ th₁ hn₁ h₂ h₁ hpc₁)
    · exact h.unique n₁ n₂ th₁ th₂ ((update_of_ne hn₁ _ _).symm.trans h₁)
        ((update_of_ne hn₂ _ _).symm.trans h₂) hpc₁ hpc₂ htask

/-- **A step of a request keeps the invariant.** -/
lemma Inv.stepped (hmode : s.mode = .Serving) (hthread : s.threads n = some thread)
    {s' : State} (hstep : Stepped w s n thread s') : Inv w s' := by
  obtain ⟨hlt, hheld, hactive⟩ := (h.own n).held thread hthread
  have hrelease : ∀ {guard}, s.guards n = some guard → ∃ a, thread.pc = .Release a :=
    fun {guard} hg => ((h.own n).guarded guard hg).2.2 thread hthread
  have hothers : thread.pc ≠ .Reserve → ∀ n' thread', n' ≠ n → s.threads n' = some thread' →
      thread'.pc ≠ .Reserve → thread'.request.taskId ≠ thread.request.taskId :=
    fun hpc n' thread' hn hthread' hpc' heq =>
      hn (h.unique n' n thread' thread hthread' hthread hpc' hpc heq)
  cases hstep with
  | stay => exact h
  | @move c' pc' hs hu hholds hfrom hto hguarded =>
    refine h.replace hmode hs hu ⟨?_, fun guard hg => ?_, fun id name zone hz hzone hid => ?_⟩ ?_
      (hothers hfrom.1) (fun _ _ ht => ht) fun _ _ => rfl
    · rintro _ ⟨⟩
      exact ⟨hlt.trans_le hu.uuid, hholds, fun _ => hactive hfrom.1⟩
    · obtain ⟨a, ha⟩ := hrelease hg
      exact absurd ha (hfrom.2 a)
    · rcases hguarded with hg | ⟨hsame, hg⟩
      · exact .inr (.inr (.inl ⟨_, rfl, hg⟩))
      · rcases (h.own n).zoned_before h.shared hu hsame hz hzone hid with
          hadm | hlost | ⟨th, hth, hgd⟩ | hgd
        · exact .inl hadm
        · exact .inr (.inl hlost)
        · rw [hthread] at hth
          cases hth
          exact .inl ((hg hgd).resolve_right (by simp [hz]))
        · exact .inr (.inr (.inr hgd))
    · rintro _ ⟨⟩
      rfl
  | reserve hpc hnone hholds =>
    rw [hpc] at hheld
    refine h.replace hmode (h.shared.reserve hnone) (untouched_reserve h.shared)
      ⟨?_, fun guard hg => ?_, fun id name zone hz => ?_⟩ ?_ ?_
      (fun _ _ ht => Finset.mem_insert_of_mem ht) fun _ _ => rfl
    · rintro _ ⟨⟩
      exact ⟨hlt, hholds, fun _ => Finset.mem_insert_self _ _⟩
    · obtain ⟨a, ha⟩ := hrelease hg
      rw [hpc] at ha
      cases ha
    · exact nomatch hheld.1.symm.trans hz
    · rintro _ ⟨⟩
      rfl
    · intro n' thread' _ hthread' hpc' heq
      refine ((h.own n').held thread' hthread').2.1.result_ne_none hpc' ?_
      rw [heq]
      exact hnone
  | @unguard name hpc =>
    rw [hpc] at hheld
    have hne : thread.pc ≠ .Reserve := by rw [hpc]; nofun
    show Inv w ⟨s.toCore, s.mode, s.active, update s.threads n _,
      update s.guards n (some ⟨name, none⟩)⟩
    refine h.replace hmode h.shared (Untouched.refl h.shared) ?_ ?_ (hothers hne)
      (fun _ _ ht => ht) fun n' hn => update_of_ne hn _ _
    · rw [update_self]
      refine ⟨?_, ?_, fun _ _ _ _ _ _ => .inr (.inr (.inr nofun))⟩
      · rintro _ ⟨⟩
        refine ⟨hlt, ?_, fun _ => hactive hne⟩
        show s.result thread.request.taskId ≠ none
        rw [hheld.1.result]
        nofun
      · rintro _ ⟨⟩
        refine ⟨hlt, fun id hid => ?_, ?_⟩
        · obtain ⟨name', hname, hk⟩ := hheld.2 id hid
          cases hname
          exact hk
        · rintro _ ⟨⟩
          exact ⟨false, rfl⟩
    · rintro _ ⟨⟩
      rfl
  | @leave attempted c' hpc hs hu hzone =>
    have hne : thread.pc ≠ .Reserve := by rw [hpc]; nofun
    show Inv w ⟨c', s.mode, s.active.erase _, update s.threads n none, s.guards⟩
    refine h.replace hmode hs hu ⟨fun _ hnone => (nomatch hnone), fun guard hg => ?_,
      fun id name zone hz hzone' hid => ?_⟩ (fun _ hnone => nomatch hnone) (hothers hne)
      (fun t hne' ht => Finset.mem_erase.mpr ⟨hne', ht⟩) fun _ _ => rfl
    · refine ⟨hlt.trans_le hu.uuid, fun id hid => ?_, fun _ hnone => nomatch hnone⟩
      exact (((h.own n).guarded guard hg).2.1 id (hzone.symm.trans hid)).stable hu
    · rcases (h.own n).zoned_before h.shared hu hzone hz hzone' hid with
        hadm | hlost | ⟨th, hth, hgd⟩ | hgd
      · exact .inl hadm
      · exact .inr (.inl hlost)
      · rw [hthread] at hth
        cases hth
        rw [hpc] at hgd
        exact hgd.elim
      · exact .inr (.inr (.inr hgd))
  | refuse hpc =>
    rw [hpc] at hheld
    refine ⟨h.shared, fun n' => ?_, fun n₁ n₂ th₁ th₂ h₁ h₂ => h.unique n₁ n₂ th₁ th₂
      (Transition.update_none_eq_some h₁).2 (Transition.update_none_eq_some h₂).2,
      fun hne => absurd hmode hne, h.recovering⟩
    show Own s.toCore s.active n' (update s.threads n none n') (s.guards n')
    by_cases hn : n' = n
    · subst hn
      rw [update_self]
      refine ⟨fun _ hnone => (nomatch hnone), fun guard hg => ?_,
        fun id name zone hz => nomatch hheld.1.symm.trans hz⟩
      obtain ⟨hlt, hknown, -⟩ := (h.own n').guarded guard hg
      exact ⟨hlt, hknown, fun _ hnone => nomatch hnone⟩
    · rw [update_of_ne hn]
      exact h.own n'

end Requests

/-! ## Everything else -/

section Others

variable {n : ℕ} {t : String} {c' : Core}

/-- What a process without a task or a request of its own leaves alone. -/
def Apart (c c' : Core) : Prop := ∀ n t, Untouched c n t c'

include h

/-- **A guard moves**, or goes when its zone is gone or lost. -/
lemma Inv.background {guard : Guard} {next : Option Guard} (hmode : s.mode = .Serving)
    (hguard : s.guards n = some guard) (hs : Shared w c') (hu : Apart s.toCore c')
    (hnext : ∀ g, next = some g → g.zoneName = guard.zoneName)
    (hgone : next = none → c'.zone guard.zoneName = none ∨ lost n c'.log = true) :
    Inv w ⟨c', s.mode, s.active, s.threads, update s.guards n next⟩ where
  shared := hs
  own n' := by
    have ho := (h.own n').apart h.shared (hu (n' + 1)) (Nat.ne_of_lt (Nat.lt_succ_self n'))
    show Own c' s.active n' (s.threads n') (update s.guards n next n')
    by_cases hn : n' = n
    · subst hn
      obtain ⟨hlt, hknown, hrelease⟩ := ho.guarded guard hguard
      rw [update_self]
      refine ⟨ho.held, fun g heq => ?_, fun id name zone hz hzone hid => ?_⟩
      · rw [hnext g heq]
        exact ⟨hlt, hknown, hrelease⟩
      · by_cases hnone : next = none
        · refine .inr (.inl ((hgone hnone).resolve_left fun hzone' => ?_))
          rw [(hknown id hz).name_eq name zone hzone hid, hzone'] at hzone
          cases hzone
        · exact .inr (.inr (.inr hnone))
    · rw [update_of_ne hn]
      exact ho
  unique := h.unique
  quiet hne := absurd hmode hne
  recovering todo stage heq := nomatch hmode.symm.trans heq

/-- **Recovery moves**, or ends the daemon, or lets it serve. -/
lemma Inv.quietly {mode : Mode} {active' : Finset String} (hmode : s.mode ≠ .Serving)
    (hs : Shared w c') (hu : ∀ n, Untouched s.toCore n t c')
    (hrec : ∀ todo stage, mode = .Recovering todo stage →
      Pending c' todo ∧ Recovers c' todo stage) :
    Inv w ⟨c', mode, active', s.threads, s.guards⟩ where
  shared := hs
  own n := by
    refine (h.own n).frame h.shared (hu (n + 1)) (Nat.ne_of_lt (Nat.lt_succ_self n))
      fun th hth => ?_
    rw [(h.quiet hmode).1 n] at hth
    cases hth
  unique n n' thread thread' hthread := by
    rw [(h.quiet hmode).1 n] at hthread
    cases hthread
  quiet _ := h.quiet hmode
  recovering := hrec

/-- The daemon is down, and nothing was written. -/
lemma Inv.shutDown (hmode : s.mode ≠ .Serving) : Inv w s.shutDown := by
  obtain ⟨hthreads, hguards⟩ := h.quiet hmode
  rw [State.shutDown, ← funext hthreads, ← funext hguards]
  exact h.quietly (t := "") hmode h.shared (fun _ => Untouched.refl h.shared) nofun

/-- **A step of a guard keeps the invariant.** -/
lemma Inv.guard {guard : Guard} {input : Input} (hmode : s.mode = .Serving)
    (hguard : s.guards n = some guard) : Inv w (stepGuard s n guard input) := by
  have hsame : Apart s.toCore s.toCore := fun _ _ => Untouched.refl h.shared
  have hkept : ∀ left g, some { guard with left := left } = some g →
      g.zoneName = guard.zoneName := by
    rintro left _ ⟨⟩
    rfl
  cases input with
  | Pass =>
    simp only [stepGuard]
    split
    · split
      · rename_i hnone
        exact h.background hmode hguard h.shared hsame (fun _ heq => nomatch heq)
          fun _ => .inl hnone
      · exact h.background hmode hguard h.shared hsame (hkept _) nofun
    · exact h.background hmode hguard h.shared.dropContainer
        (fun _ _ => untouched_dropContainer h.shared) (hkept _) nofun
    · refine h.background hmode hguard h.shared.dropZone (fun _ _ => untouched_dropZone h.shared)
        (fun _ heq => nomatch heq) fun _ => .inl ?_
      show (s.dropZone guard.zoneName).zone guard.zoneName = none
      rw [Core.zone_dropZone, if_pos rfl]
  | Fail =>
    refine h.background hmode hguard (h.shared.abandon (n := n))
      (fun _ _ => untouched_abandon h.shared) (fun _ heq => nomatch heq) fun _ => .inr ?_
    show (decide (n = n) || lost n s.log) = true
    simp
  | _ => exact h

/-- **Deleting a result** of a task that is not running. -/
lemma Inv.deleteResult (hmode : s.mode = .Serving) : Inv w (deleteSandboxResult s t) := by
  unfold deleteSandboxResult
  split_ifs with hrefuse
  · exact h
  · split
    · rename_i store hdelete
      obtain ⟨hrecord, -, rfl⟩ := Store.deleteResult_ok hdelete
      have hidle : t ∉ s.active := by
        simp only [Bool.or_eq_true, decide_eq_true_eq, not_or] at hrefuse
        exact hrefuse.1.1.2
      refine ⟨h.shared.forget hrecord, fun n => ?_, h.unique, fun hne => absurd hmode hne,
        fun todo stage heq => nomatch hmode.symm.trans heq⟩
      refine (h.own n).frame h.shared (untouched_forget h.shared (n := n + 1))
        (Nat.ne_of_lt (Nat.lt_succ_self n)) fun th hth hpc => ?_
      have hactive := ((h.own n).held th hth).2.2 hpc
      exact ⟨fun htask => hidle (htask ▸ hactive), hactive⟩
    · exact h

/-- **A new request** gets a number of its own. -/
lemma Inv.request {request : Request} (hmode : s.mode = .Serving) :
    Inv w ({ s with nextUuid := s.nextUuid + 1 }.goto s.nextUuid ⟨request, .Reserve⟩ .Reserve) := by
  have hother : ∀ n thread, update s.threads s.nextUuid
      (some (⟨request, .Reserve⟩ : Thread)) n = some thread → thread.pc ≠ .Reserve →
      s.threads n = some thread := by
    intro n thread heq hpc
    rcases Transition.update_eq_some heq with ⟨-, rfl⟩ | ⟨-, hold⟩
    · exact absurd rfl hpc
    · exact hold
  have hzone : zoneOf s.nextUuid s.log = none := by
    refine Option.eq_none_iff_forall_ne_some.mpr fun id hz => ?_
    exact absurd (h.shared.zoned_lt _ id hz).1 (Nat.lt_irrefl _)
  have hadmitted : admitted s.nextUuid s.log = false :=
    Bool.eq_false_iff.mpr fun ha => absurd (h.shared.admitted_lt _ ha) (Nat.lt_irrefl _)
  refine ⟨h.shared.bump, fun n => ?_, fun n n' thread thread' heq heq' hpc hpc' =>
    h.unique n n' thread thread' (hother n thread heq hpc) (hother n' thread' heq' hpc') hpc hpc',
    fun hne => absurd hmode hne, fun todo stage heq => nomatch hmode.symm.trans heq⟩
  show Own s.toCore.bump s.active n (update s.threads s.nextUuid _ n) (s.guards n)
  by_cases hn : n = s.nextUuid
  · subst hn
    rw [update_self]
    refine ⟨?_, fun guard hg => ?_, fun id name zone hz => nomatch hzone.symm.trans hz⟩
    · rintro _ ⟨⟩
      exact ⟨Nat.lt_succ_self _, ⟨hzone, hadmitted⟩, fun hpc => absurd rfl hpc⟩
    · exact absurd ((h.own _).guarded guard hg).1 (Nat.lt_irrefl _)
  · rw [update_of_ne hn]
    exact (h.own n).apart h.shared (fun t => untouched_bump h.shared) hn

/-- **A crash** cuts every request off from its zone. -/
lemma Inv.crash : Inv w (s.shutDown.note .Crashed) where
  shared := h.shared.crash
  own n := by
    refine ⟨fun _ heq => (nomatch (heq : none = some _)),
      fun _ heq => (nomatch (heq : none = some _)), fun id name zone hz _ _ => .inr (.inl ?_)⟩
    have hz' : zoneOf n s.log = some id := hz
    show ((zoneOf n s.log).isSome || lost n s.log) = true
    rw [hz']
    rfl
  unique _ _ _ _ heq := nomatch (heq : none = some _)
  quiet _ := ⟨fun _ => rfl, fun _ => rfl⟩
  recovering _ _ heq := nomatch (heq : Mode.Down = _)

end Others

/-! ## Recovery -/

section Recovery

variable {record : RecoveryRecord} {rest todo : List RecoveryRecord} {input : Input}

/-- What recovery reads from the store it may work with. -/
lemma holding_of_record (hs : Shared w s.toCore) (hrecord : s.record record.taskId = some record) :
    Holding s.toCore record.taskId record where
  task := rfl
  durable := ⟨record, hrecord, .refl record⟩
  owns id container hcreated hc := by
    obtain ⟨-, stored, hstored, howns⟩ := hs.covered record.taskId id container hcreated hc
    rw [hrecord] at hstored
    cases hstored
    exact howns
  created id hid := hs.record_created record.taskId record id hrecord hid

/-- The records stay as they were. -/
lemma Pending.congr {c c' : Core} (h : Pending c todo) (heq : c'.record = c.record) :
    Pending c' todo :=
  ⟨fun record hmem => by rw [heq]; exact h.stored record hmem,
    fun t record hrecord => h.complete t record (by rw [← heq]; exact hrecord), h.nodup⟩

/-- The first record is done with. -/
lemma Pending.finish {c : Core} (h : Pending c (record :: rest)) :
    Pending (c.finish record.taskId) rest where
  stored r hmem := by
    have hne : r.taskId ≠ record.taskId := by
      intro heq
      have hnodup := h.nodup
      rw [map_cons, nodup_cons] at hnodup
      exact hnodup.1 (heq ▸ mem_map_of_mem hmem)
    rw [Core.record_finish, if_neg hne]
    exact h.stored r (mem_cons_of_mem _ hmem)
  complete t r hr := by
    rw [Core.record_finish] at hr
    split_ifs at hr with hne
    rcases mem_cons.mp (h.complete t r hr) with rfl | hmem
    · have hkey : r.taskId = t := c.store.recovery_key t r hr
      exact absurd hkey.symm hne
    · exact hmem
  nodup := (nodup_cons.mp h.nodup).2

include h

lemma Inv.recoverGoto {stage : RecoverStage} (hmode : s.mode ≠ .Serving)
    (hpending : Pending s.toCore todo) (hrec : Recovers s.toCore todo stage) :
    Inv w (s.recovering todo stage) :=
  h.quietly (t := "") hmode h.shared (fun _ => Untouched.refl h.shared) fun _ _ heq => by
    cases heq
    exact ⟨hpending, hrec⟩

/-- Recovery takes up a record. -/
lemma Inv.recoverNext (hne : s.mode ≠ .Serving) (hpending : Pending s.toCore todo) :
    Inv w (stepRecover w s todo .Next .Pass) := by
  simp only [stepRecover]
  split
  · exact h.quietly (t := "") hne h.shared (fun _ => Untouched.refl h.shared)
      fun _ _ heq => nomatch heq
  · rename_i record rest
    have hh := holding_of_record h.shared (hpending.stored record mem_cons_self)
    split
    · exact h.shutDown hne
    · rename_i hempty
      split
      · exact h.shutDown hne
      · exact h.recoverGoto hne hpending hempty
      · rename_i container others hcontainers
        obtain ⟨hc, howns⟩ := (Store.mem_taskContainers hcontainers container).mp
          mem_cons_self
        exact h.recoverGoto hne hpending ⟨hempty, copyOk_of_owns h.shared hh hc howns, nofun⟩
    · rename_i byte bytes hresult
      exact h.recoverGoto hne hpending ⟨⟨_, hresult, by simp⟩, trivial⟩

variable (hne : s.mode ≠ .Serving) (hpending : Pending s.toCore (record :: rest))

include hne hpending

/-- Recovery looks at the container. -/
lemma Inv.recoverInspect {container : Container} {seen : Option Container}
    (hrec : Recovers s.toCore (record :: rest) (.Inspect container seen)) :
    Inv w (stepRecover w s (record :: rest) (.Inspect container seen) input) := by
  obtain ⟨hempty, hcopy, hseen⟩ := hrec
  have hh := holding_of_record h.shared (hpending.stored record mem_cons_self)
  cases input with
  | Fail => exact h.shutDown hne
  | Pass => exact h.recoverGoto hne hpending hempty
  | Look =>
    exact h.recoverGoto hne hpending ⟨hempty, hcopy, fun other hother =>
      hcopy.reread h.shared hh (Option.mem_def.mp hother)⟩
  | Persist state =>
    cases seen with
    | none => exact h
    | some copy =>
      have hok := hseen copy rfl
      have hs' : Shared w (s.persist { copy with state := state }) :=
        (persist_copy (n := 0) h.shared hh hok).1
      have hu : ∀ n, Untouched s.toCore n record.taskId
          (s.persist { copy with state := state }) :=
        fun _ => (persist_copy h.shared hh hok).2
      exact h.quietly hne hs' hu fun _ _ heq => by
        cases heq
        exact ⟨hpending.congr rfl, hempty, hcopy.frame (hu 0), nofun⟩
  | _ => exact h

/-- Recovery seals a result for an interrupted task. -/
lemma Inv.recoverSave {found : Bool} :
    Inv w (stepRecover w s (record :: rest) (.Save found) input) := by
  cases input with
  | Fail => exact h.shutDown hne
  | Logs logs =>
    simp only [stepRecover]
    split
    · exact h.shutDown hne
    · rename_i sealed hsealed
      split
      · rename_i store hsave
        obtain ⟨hbytes, hempty, rfl⟩ := Store.saveResult_ok hsave
        have hsigned : Signed w.signer record.taskId (w.signer.encode sealed) :=
          sealBoundedResult_signed hsealed
        refine h.quietly hne (h.shared.save hempty hbytes hsigned)
          (fun _ => untouched_save h.shared) fun _ _ heq => ?_
        cases heq
        refine ⟨hpending.congr rfl, ⟨w.signer.encode sealed, ?_, hbytes⟩, trivial⟩
        show (s.save record.taskId (w.signer.encode sealed)).result record.taskId = _
        rw [Core.result_save, if_pos rfl]
      · exact h.shutDown hne
  | _ => exact h

omit h hne hpending in
lemma stepRecover_clean {stage : Cleanup} :
    stepRecover w s (record :: rest) (.Clean stage) input =
      match cleanupStep s.store record stage input with
      | .Goto store stage =>
        { s with store := store }.recovering (record :: rest) (.Clean stage)
      | .Failed => s.shutDown
      | .Finished store => { s with store := store }.recovering rest .Next := by
  cases input with
  | Fail => simp only [stepRecover, cleanupStep]
  | _ => rfl

/-- Recovery cleans up after a task. -/
lemma Inv.recoverClean {stage : Cleanup}
    (hrec : Recovers s.toCore (record :: rest) (.Clean stage)) :
    Inv w (stepRecover w s (record :: rest) (.Clean stage) input) := by
  obtain ⟨⟨bytes, hresult, hbytes⟩, hclean⟩ := hrec
  have hh := holding_of_record h.shared (hpending.stored record mem_cons_self)
  rw [stepRecover_clean]
  split
  · rename_i store stage' hstep
    have hgoto := fun n => cleanupStep_goto (n := n) h.shared hh hclean hstep
    obtain ⟨hs', -, -, hclean', hresults, hrecovery⟩ := hgoto 0
    refine h.quietly hne hs' (fun n => (hgoto n).2.1) fun _ _ heq => ?_
    cases heq
    refine ⟨hpending.congr ?_, ⟨bytes, ?_, hbytes⟩, hclean'⟩
    · exact funext fun t => congrArg (AList.lookup t) hrecovery
    · show store.results.lookup _ = some bytes
      rw [hresults]
      exact hresult
  · exact h.shutDown hne
  · rename_i store hstep
    obtain ⟨hcore, hs'⟩ := cleanupStep_finished h.shared hh hclean hstep
    refine h.quietly hne (hcore ▸ hs') (fun n => hcore ▸ untouched_finish h.shared)
      fun _ _ heq => ?_
    cases heq
    exact ⟨hcore ▸ hpending.finish, trivial⟩

omit hne hpending in
/-- **A step of recovery keeps the invariant.** -/
lemma Inv.recover {stage : RecoverStage} (hmode : s.mode = .Recovering todo stage) :
    Inv w (stepRecover w s todo stage input) := by
  have hne : s.mode ≠ .Serving := by rw [hmode]; nofun
  obtain ⟨hpending, hrec⟩ := h.recovering _ _ hmode
  cases stage with
  | Next =>
    cases input with
    | Pass => exact h.recoverNext hne hpending
    | Fail => exact h.shutDown hne
    | _ => exact h
  | _ =>
    cases todo with
    | nil => exact hrec.elim
    | cons record rest =>
      first
      | exact h.recoverInspect hne hpending hrec
      | exact h.recoverSave hne hpending
      | exact h.recoverClean hne hpending hrec

end Recovery

/-! ## Every event -/

/-- **Every event keeps the invariant.** -/
theorem step_inv (s : State) (e : Event) (h : Inv w s) : Inv w (step w s e) := by
  cases e with
  | Crash => exact h.crash
  | Boot =>
    simp only [step]
    split
    · rename_i hmode
      exact h.recoverGoto (by rw [hmode]; nofun)
        ⟨fun _ hmem => Store.mem_recoveryRecords.mp hmem,
          fun t record hrecord => Store.mem_recoveryRecords.mpr (by
            rw [s.store.recovery_key t record hrecord]
            exact hrecord), Store.nodup_recoveryRecords⟩ trivial
    · exact h
  | Recover input =>
    simp only [step]
    split
    · rename_i hmode
      exact h.recover hmode
    · exact h
  | Request request =>
    simp only [step]
    split
    · rename_i hmode
      exact h.request hmode
    · exact h
  | Thread n input =>
    simp only [step]
    split
    · rename_i thread hmode hthread
      obtain ⟨hlt, hheld, -⟩ := (h.own n).held thread hthread
      exact h.stepped hmode hthread (stepThread_spec h.shared hlt hheld)
    · exact h
  | Guard n input =>
    simp only [step]
    split
    · rename_i guard hmode hguard
      exact h.guard hmode hguard
    · exact h
  | DeleteResult t =>
    simp only [step]
    split
    · rename_i hmode
      exact h.deleteResult hmode
    · exact h

/-! ## Runs -/

/-- An identifier of the host is below its next one. -/
lemma Host.lt_nextUuid {host : Host} {id : ℕ} (h : id ∈ host.metadata.listZones.map Zone.id ++
      (host.metadata.listContainers none).map Container.id) : id < host.nextUuid := by
  unfold Host.nextUuid
  generalize host.metadata.listZones.map Zone.id ++
    (host.metadata.listContainers none).map Container.id = ids at h
  refine Nat.lt_succ_of_le ?_
  induction ids with
  | nil => cases h
  | cons id' ids ih =>
    rcases mem_cons.mp h with rfl | hmem
    · exact le_max_left _ _
    · exact (ih hmem).trans (le_max_right _ _)

lemma init_shared (host : Host) : Shared w (init host).toCore where
  zone_used name zone hzone := by
    have hkey : zone.name = name := host.metadata.zone_key name zone hzone
    have hmem : zone ∈ host.metadata.listZones := Metadata.mem_listZones.mpr (hkey ▸ hzone)
    refine ⟨mem_toFinset.mpr (mem_map.mpr ⟨zone, hmem, hkey⟩), Host.lt_nextUuid ?_⟩
    exact mem_append_left _ (mem_map_of_mem hmem)
  zone_ids := host.zone_ids
  container_lt id container hc := by
    have hkey : container.id = id := host.metadata.container_key id container hc
    have hmem : container ∈ host.metadata.listContainers none :=
      Metadata.mem_listContainers.mpr ⟨hkey ▸ hc, rfl⟩
    exact hkey ▸ Host.lt_nextUuid (mem_append_right _ (mem_map_of_mem hmem))
  created_lt _ _ hcreated := nomatch hcreated
  record_result _ _ hrecord := nomatch hrecord
  record_known _ _ hrecord := nomatch hrecord
  record_created _ _ _ hrecord := nomatch hrecord
  covered _ _ _ hcreated := nomatch hcreated
  signed _ _ hresult := nomatch hresult
  attempted _ hattempted := nomatch hattempted
  disciplined := trivial
  reserved _ := rfl
  zoned_lt _ _ hz := nomatch hz
  admitted_lt _ ha := nomatch ha
  temp _ _ _ _ hz := nomatch hz

/-- A host without tasks. -/
lemma init_inv (host : Host) : Inv w (init host) where
  shared := init_shared host
  own _ := ⟨fun _ heq => (nomatch heq), fun _ heq => (nomatch heq), fun _ _ _ hz => nomatch hz⟩
  unique _ _ _ _ heq := nomatch heq
  quiet _ := ⟨fun _ => rfl, fun _ => rfl⟩
  recovering _ _ heq := nomatch heq

/-- **The invariant holds after every run.** -/
theorem run_inv (host : Host) (es : List Event) : Inv w (Transition.run (step w) (init host) es) :=
  Transition.run_invariant step_inv (init_inv host) es

end Rauha.Sandbox
