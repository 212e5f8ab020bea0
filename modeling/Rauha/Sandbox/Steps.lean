import Rauha.Sandbox.Threads

/-!
# One step of a process

What a step of the clean-up, of a request and of a guard can do.  `stepThread_spec` is the
inversion lemma for requests: a step is ignored, or the request moves on and what it then stands on
holds, or it ends.  No later proof looks into the step functions of requests again.
-/

namespace Rauha.Sandbox

variable {w : World} {c : Core} {n : ℕ} {t : String} {record : RecoveryRecord}

/-! ## A process and its own writes -/

section Own

variable {copy : Container} {state : ContainerState} {id : ℕ}

lemma Holding.dropContainer (h : Holding c t record) : Holding (c.dropContainer id) t record where
  task := h.task
  durable := h.durable
  owns id' container hcreated hc := by
    rw [Core.container_dropContainer] at hc
    split_ifs at hc
    exact h.owns id' container hcreated hc
  created := h.created

lemma Holding.dropZone {name : String} (h : Holding c t record) :
    Holding (c.dropZone name) t record := ⟨h.task, h.durable, h.owns, h.created⟩

lemma Holding.persist (h : Holding c t record) (hcopy : CopyOk c t record copy) :
    Holding (c.persist { copy with state := state }) t record where
  task := h.task
  durable := h.durable
  owns id' container hcreated hc := by
    rw [Core.container_persist] at hc
    split_ifs at hc with heq
    · cases hc
      subst heq
      exact (hcopy.owned t hcreated).2.2
    · exact h.owns id' container hcreated hc
  created := h.created

/-- **Writing back a copy.** -/
lemma persist_copy (hs : Shared w c) (h : Holding c t record) (hcopy : CopyOk c t record copy) :
    Shared w (c.persist { copy with state := state }) ∧
      Untouched c n t (c.persist { copy with state := state }) := by
  obtain ⟨stored, hstored, hm⟩ := h.durable
  refine ⟨hs.persist hcopy.lt fun t' hcreated => ?_,
    untouched_persist hs fun t' hcreated => (hcopy.owned t' hcreated).1⟩
  obtain ⟨rfl, hname, howns⟩ := hcopy.owned t' hcreated
  refine ⟨hname, stored, hstored, ?_⟩
  have hstored' : stored.owns copy = true := hm.owns howns (by rw [h.task]; exact hname)
  exact hstored'

/-- A container the record owns may be written back. -/
lemma copyOk_of_owns (hs : Shared w c) (h : Holding c t record)
    (hc : c.container copy.id = some copy) (howns : record.owns copy = true) :
    CopyOk c t record copy := by
  refine ⟨hs.container_lt _ _ hc, fun t' hcreated => ?_⟩
  have hname := (hs.covered t' copy.id copy hcreated hc).1
  have htask : t' = t := by
    rcases (owns_iff.mp howns).2 with hid | ⟨-, hname'⟩
    · have hcreated' := h.created copy.id hid
      rw [hcreated] at hcreated'
      exact Option.some.inj hcreated'
    · rw [hname, h.task] at hname'
      exact containerName_inj hname'
  exact ⟨htask, htask ▸ hname, howns⟩

/-- So may one that was read under the id of such a copy. -/
lemma CopyOk.reread {other : Container} (hs : Shared w c) (h : Holding c t record)
    (hcopy : CopyOk c t record copy) (hc : c.container copy.id = some other) :
    CopyOk c t record other := by
  have hid : other.id = copy.id := c.store.metadata.container_key copy.id other hc
  refine ⟨hid ▸ hcopy.lt, fun t' hcreated => ?_⟩
  rw [hid] at hcreated
  obtain ⟨rfl, -, -⟩ := hcopy.owned t' hcreated
  exact ⟨rfl, (hs.covered t' copy.id other hcreated hc).1, h.owns copy.id other hcreated hc⟩

/-- The container of the task, read under its own id. -/
lemma Holding.copyOk (hs : Shared w c) (h : Holding c t record) (hid : record.containerId = some id)
    (hc : c.container id = some copy) : copy.id = id ∧ CopyOk c t record copy := by
  have hkey : copy.id = id := c.store.metadata.container_key id copy hc
  have hcreated := h.created id hid
  exact ⟨hkey, copyOk_of_owns hs h (hkey ▸ hc) (h.owns id copy hcreated hc)⟩

end Own

/-! ## Cleaning up -/

section CleanUp

variable {stage stage' : Cleanup} {input : Input} {store : Store}

/-- **A step of the clean-up.** -/
lemma cleanupStep_goto (hs : Shared w c) (hh : Holding c t record) (h : Cleaning c t record stage)
    (hstep : cleanupStep c.store record stage input = .Goto store stage') :
    Shared w { c with store := store } ∧ Untouched c n t { c with store := store } ∧
      Holding { c with store := store } t record ∧
      Cleaning { c with store := store } t record stage' ∧
      store.results = c.store.results ∧ store.recovery = c.store.recovery := by
  have hstay : Shared w c ∧ Untouched c n t c ∧ Holding c t record ∧ Cleaning c t record stage ∧
      c.store.results = c.store.results ∧ c.store.recovery = c.store.recovery :=
    ⟨hs, .refl hs, hh, h, rfl, rfl⟩
  have hk := hh.known hs
  unfold cleanupStep at hstep
  split at hstep
  · cases hstep
  · -- the beginning
    split_ifs at hstep with hcleanup
    · split at hstep
      · rename_i hnone
        cases hstep
        refine ⟨hs, .refl hs, hh, fun _ name zone hzone hid => ?_, rfl, rfl⟩
        have hname := hk.name_eq name zone hzone hid
        rw [hname, show c.zone record.zoneName = none from hnone] at hzone
        cases hzone
      · split_ifs at hstep
        cases hstep
        exact ⟨hs, .refl hs, hh, hcleanup, rfl, rfl⟩
    · split at hstep
      · rename_i containers hcontainers
        cases hstep
        refine ⟨hs, .refl hs, hh, ⟨by simpa using hcleanup, fun copy hmem => ?_, nofun⟩, rfl, rfl⟩
        obtain ⟨hc, howns⟩ := (Store.mem_taskContainers hcontainers copy).mp hmem
        exact copyOk_of_owns hs hh hc howns
      · cases hstep
  · -- the containers of a zone, and then the zone
    cases hstep
    exact ⟨hs.dropContainer, untouched_dropContainer hs, hh.dropContainer, h, rfl, rfl⟩
  · cases hstep
    refine ⟨hs.dropZone, untouched_dropZone hs, hh.dropZone, fun _ name zone hzone hid => ?_,
      rfl, rfl⟩
    have hzone' : (c.dropZone record.zoneName).zone name = some zone := hzone
    rw [Core.zone_dropZone] at hzone'
    split_ifs at hzone' with hname
    exact hname (hk.name_eq name zone hzone' hid)
  · -- the containers of the task
    rename_i copy left seen
    cases hstep
    exact ⟨hs, .refl hs, hh, ⟨h.1, h.2.1, fun other hother =>
      (h.2.1 copy List.mem_cons_self).reread hs hh (Option.mem_def.mp hother)⟩, rfl, rfl⟩
  · rename_i left copy state
    cases hstep
    have hcopy := h.2.2 copy rfl
    obtain ⟨hs', hu⟩ : _ ∧ Untouched c n t (c.persist { copy with state := state }) :=
      persist_copy hs hh hcopy
    exact ⟨hs', hu, hh.persist hcopy, ⟨h.1, fun other hmem => (h.2.1 other hmem).frame hu, nofun⟩,
      rfl, rfl⟩
  · split_ifs at hstep
    cases hstep
    exact ⟨hs.dropContainer, untouched_dropContainer hs, hh.dropContainer,
      ⟨h.1, fun other hmem => (h.2.1 other (List.mem_cons_of_mem _ hmem)).frame
        (untouched_dropContainer (n := n) (t := t) hs), nofun⟩, rfl, rfl⟩
  · cases hstep
    refine ⟨hs, .refl hs, hh, fun hz => ?_, rfl, rfl⟩
    rw [h.1] at hz
    cases hz
  · -- nothing is left that the record owns
    split at hstep
    · rename_i hnone
      cases hstep
      refine ⟨hs, .refl hs, hh, ⟨h, fun id hcreated => ?_⟩, rfl, rfl⟩
      cases hc : c.container id with
      | none => rfl
      | some container =>
        have howns := hh.owns id container hcreated hc
        have hid : container.id = id := c.store.metadata.container_key id container hc
        have hmem := (Store.mem_taskContainers hnone container).mpr ⟨hid ▸ hc, howns⟩
        cases hmem
    · cases hstep
  · split at hstep <;> cases hstep
  · cases hstep
    exact hstay

lemma cleanupStep_eq_finished (h : cleanupStep c.store record stage input = .Finished store) :
    stage = .Finish ∧ c.store.finishRecovery record.taskId = .ok store := by
  unfold cleanupStep at h
  repeat' split at h
  all_goals cases h
  exact ⟨rfl, by assumption⟩

/-- **The end of the clean-up.** -/
lemma cleanupStep_finished (hs : Shared w c) (hh : Holding c t record)
    (h : Cleaning c t record stage)
    (hstep : cleanupStep c.store record stage input = .Finished store) :
    { c with store := store } = c.finish t ∧ Shared w (c.finish t) := by
  obtain ⟨rfl, hfinish⟩ := cleanupStep_eq_finished hstep
  obtain ⟨⟨bytes, hresult, hne⟩, rfl⟩ := Store.finishRecovery_ok hfinish
  obtain ⟨stored, hstored, hm⟩ := hh.durable
  rw [hh.task] at hresult ⊢
  refine ⟨rfl, hs.finish hresult hne h.2 fun r hr hcleanup => ?_⟩
  rw [hstored] at hr
  cases hr
  rw [hm.zoneId]
  exact h.1 (hm.cleanupZone ▸ hcleanup)

end CleanUp

/-! ## Requests -/

/-- At these points a zone that is not to be kept is looked after by the request itself. -/
def Guarded : Pc → Prop
  | .Verify _ | .Admit _ | .Unwind (some _) => True
  | _ => False

/-- **What a step of a request can do.** -/
inductive Stepped (w : World) (s : State) (n : ℕ) (thread : Thread) : State → Prop
  | stay : Stepped w s n thread s
  | move {c' : Core} {pc' : Pc} (hs : Shared w c')
      (hu : Untouched s.toCore n thread.request.taskId c') (hholds : Holds c' n thread.request pc')
      (hfrom : thread.pc ≠ .Reserve ∧ ∀ attempted, thread.pc ≠ .Release attempted)
      (hto : pc' ≠ .Reserve)
      (hguarded : Guarded pc' ∨ zoneOf n c'.log = zoneOf n s.log ∧
        (Guarded thread.pc → admitted n c'.log = true ∨ zoneOf n c'.log = none)) :
      Stepped w s n thread (({ s with toCore := c' } : State).goto n thread pc')
  | reserve (hpc : thread.pc = .Reserve) (hnone : s.result thread.request.taskId = none)
      (hholds : Holds (s.reserve thread.request.taskId) n thread.request .Resolve) :
      Stepped w s n thread
        (({ s with
            toCore := s.reserve thread.request.taskId
            active := insert thread.request.taskId s.active } : State).goto n thread .Resolve)
  | unguard {name : String} (hpc : thread.pc = .Unwind (some name)) :
      Stepped w s n thread
        ({ s with guards := Function.update s.guards n (some ⟨name, none⟩) }.goto n thread
          (.Release false))
  | leave {attempted : Bool} {c' : Core} (hpc : thread.pc = .Release attempted) (hs : Shared w c')
      (hu : Untouched s.toCore n thread.request.taskId c')
      (hzone : zoneOf n c'.log = zoneOf n s.log) :
      Stepped w s n thread
        (({ s with toCore := c' } : State).release n thread.request.taskId)
  | refuse (hpc : thread.pc = .Reserve) : Stepped w s n thread (s.exit n)

section Requests

variable {s : State} {thread : Thread} {pc : Pc} {input : Input}

/-- Moving on without a write. -/
lemma Stepped.goto {pc' : Pc} (hs : Shared w s.toCore)
    (hholds : Holds s.toCore n thread.request pc')
    (hfrom : thread.pc ≠ .Reserve ∧ ∀ attempted, thread.pc ≠ .Release attempted)
    (hto : pc' ≠ .Reserve)
    (hguarded : Guarded pc' ∨ zoneOf n s.log = zoneOf n s.log ∧
      (Guarded thread.pc → admitted n s.log = true ∨ zoneOf n s.log = none)) :
    Stepped w s n thread (s.goto n thread pc') :=
  .move hs (.refl hs) hholds hfrom hto hguarded

/-- A point at which a request need not think of its zone. -/
def Executing (pc : Pc) : Prop := (pc ≠ .Reserve ∧ ∀ a, pc ≠ .Release a) ∧ ¬Guarded pc

lemma Stepped.on {c' : Core} {pc' : Pc} (hexec : Executing thread.pc) (hs : Shared w c')
    (hu : Untouched s.toCore n thread.request.taskId c') (hholds : Holds c' n thread.request pc')
    (hto : pc' ≠ .Reserve) (hzone : zoneOf n c'.log = zoneOf n s.log) :
    Stepped w s n thread (({ s with toCore := c' } : State).goto n thread pc') :=
  .move hs hu hholds hexec.1 hto (.inr ⟨hzone, fun h => absurd h hexec.2⟩)

/-- An error before there is a zone. -/
lemma Stepped.unwind_none (hs : Shared w s.toCore) (hfresh : Fresh s.toCore n thread.request.taskId)
    (hfrom : thread.pc ≠ .Reserve ∧ ∀ a, thread.pc ≠ .Release a) (hzone : zoneOf n s.log = none) :
    Stepped w s n thread (s.goto n thread (.Unwind none)) := by
  refine .goto hs ⟨hfresh, fun id hid => ?_⟩ hfrom nofun (.inr ⟨rfl, fun _ => .inr hzone⟩)
  rw [hzone] at hid
  cases hid

/-- An error before admission: the guard goes off if the zone is to go with the request. -/
lemma Stepped.unwind {name : String} (hs : Shared w s.toCore) (hfresh : Fresh s.toCore n
    thread.request.taskId) (hfrom : thread.pc ≠ .Reserve ∧ ∀ a, thread.pc ≠ .Release a)
    (hzone : ∀ id, zoneOf n s.log = some id →
      thread.request.ownsZone = true ∧ Known s.toCore name id) :
    Stepped w s n thread (s.goto n thread (.Unwind (thread.armed name))) := by
  refine .goto hs ⟨hfresh, fun id hid => ?_⟩ hfrom nofun ?_
  · obtain ⟨howns, hk⟩ := hzone id hid
    exact ⟨name, by rw [Thread.armed, if_pos howns], hk⟩
  · cases hid : zoneOf n s.log with
    | none => exact .inr ⟨rfl, fun _ => .inr rfl⟩
    | some id =>
      refine .inl ?_
      rw [Thread.armed, if_pos (hzone id hid).1]
      trivial

lemma stepAdmission_spec (hs : Shared w s.toCore) (hn : n < s.nextUuid) (hpc : thread.pc = pc)
    (h : Holds s.toCore n thread.request pc) :
    Stepped w s n thread (stepAdmission w s n thread pc input) := by
  unfold stepAdmission
  split
  · -- the reservation
    simp only
    split_ifs
    · split
      · rename_i store hreserve
        obtain ⟨hnone, rfl⟩ := Store.reserveResult_ok hreserve
        refine .reserve hpc hnone ⟨⟨?_, ?_, if_pos rfl, h.2⟩, h.1⟩
        · exact AList.lookup_insert _
        · cases hr : (s.reserve thread.request.taskId).record thread.request.taskId with
          | none => rfl
          | some r => exact absurd hnone (hs.record_result _ r hr)
      · exact .refuse hpc
    · exact .refuse hpc
  · exact .refuse hpc
  · -- the temporary zone
    rename_i name net
    obtain ⟨hfresh, hnozone⟩ := h
    split
    · exact .stay
    · rename_i keepZone hchoice
      split_ifs with htaken hused hkeep
      · exact .unwind_none hs hfresh (by simp [hpc]) hnozone
      · exact .stay
      all_goals
        set zone : Zone := ⟨s.nextUuid, name, .NonGlobal, thread.request.policy, net⟩ with hzone
        have hs' : Shared w (s.createZone zone) := hs.createZone rfl hused
        have hu : Untouched s.toCore n thread.request.taskId (s.createZone zone) :=
          untouched_createZone hs rfl hused
        have hk : Known (s.createZone zone) zone.name zone.id := known_createZone hs rfl hused
      · refine .move hs' hu ⟨⟨hfresh.result, hfresh.record, hfresh.starts, hfresh.admitted⟩, hk,
          fun id hid => ?_⟩ (by simp [hpc]) nofun (Or.inl trivial)
        have hid' : zoneOf n s.log = some id := hid
        rw [hnozone] at hid'
        cases hid'
      · refine .move (hs'.zoned (Nat.lt_succ_of_lt hn) (Nat.lt_succ_self _) hfresh.admitted)
          ⟨hu.result, hu.record, hu.starts, fun n' hne => (if_neg (Ne.symm hne)), hu.admitted,
            hu.admitted_mono, hu.lost, hu.created, hu.created_new, hu.container, hu.uuid, hu.names,
            hu.zone⟩
          ⟨⟨hfresh.result, hfresh.record, hfresh.starts, hfresh.admitted⟩, hk.congr rfl rfl rfl,
            fun id hid => ?_⟩ (by simp [hpc]) nofun (Or.inl trivial)
        have hid' : (if n = n then some zone.id else zoneOf n s.log) = some id := hid
        rw [if_pos rfl] at hid'
        refine ⟨?_, Option.some.inj hid'⟩
        unfold Request.ownsZone
        rw [hchoice]
        simpa using hkeep
  · -- the named zone
    obtain ⟨hfresh, hnozone⟩ := h
    split
    · exact .stay
    · rename_i name hchoice
      split
      · rename_i zone hget
        have hzone : s.zone name = some zone := hget
        have hname := s.store.metadata.zone_key name zone hget
        refine .goto hs ⟨hfresh, ⟨?_, (hs.zone_used _ _ hzone).2, fun zone' hz => ?_,
          fun name' zone' hz heq => ?_⟩, fun id hid => ?_⟩ (by simp [hpc]) nofun (Or.inl trivial)
        · rw [hname]
          exact (hs.zone_used _ _ hzone).1
        · rw [hname, hzone] at hz
          cases hz
          rfl
        · rw [hname]
          exact hs.zone_ids name' name zone' zone hz hzone heq
        · rw [hnozone] at hid
          cases hid
      · exact .unwind_none hs hfresh (by simp [hpc]) hnozone
  · obtain ⟨hfresh, hnozone⟩ := h
    exact .unwind_none hs hfresh (by simp [hpc]) hnozone
  · -- the isolation check
    obtain ⟨hfresh, hk, hz⟩ := h
    split_ifs
    · exact .unwind hs hfresh (by simp [hpc]) fun id hid => ⟨(hz id hid).1, (hz id hid).2 ▸ hk⟩
    · exact .goto hs ⟨hfresh, hk, rfl, rfl, rfl, hz⟩ (by simp [hpc]) nofun (Or.inl trivial)
  · obtain ⟨hfresh, hk, hz⟩ := h
    exact .unwind hs hfresh (by simp [hpc]) fun id hid => ⟨(hz id hid).1, (hz id hid).2 ▸ hk⟩
  · -- the recovery record
    obtain ⟨hfresh, hk, htask, hid, hcl, hz⟩ := h
    have hunwind : ∀ id, zoneOf n s.log = some id →
        thread.request.ownsZone = true ∧ Known s.toCore _ id :=
      fun id hzid => ⟨hcl ▸ (hz id hzid).1, (hz id hzid).2 ▸ hk⟩
    split_ifs
    · split
      · rename_i record _ _ store hput
        obtain ⟨hempty, rfl⟩ := Store.putRecovery_ok hput
        have hs' := hs.commit hempty (htask ▸ hfresh.record) hk hid hn hz
        have hu : Untouched s.toCore n record.taskId _ := untouched_commit hs
        rw [htask] at hu
        have hgone : Gone s.toCore thread.request.taskId := fun id hcreated => by
          cases hc : s.container id with
          | none => rfl
          | some container =>
            obtain ⟨-, r, hr, -⟩ := hs.covered _ id container hcreated hc
            rw [hfresh.record] at hr
            cases hr
        refine .move hs' hu ⟨hfresh.result, hfresh.starts, ⟨htask, ⟨record, ?_, Matches.refl _⟩,
          fun id container hcreated hc => ?_, fun id hid' => ?_⟩, hid, hgone⟩ (by simp [hpc]) nofun
          (Or.inr ⟨rfl, fun _ => Or.inl ?_⟩)
        · rw [← htask]
          exact AList.lookup_insert _
        · have hnone := hgone id hcreated
          rw [show s.container id = some container from hc] at hnone
          cases hnone
        · rw [hid] at hid'
          cases hid'
        · show (decide (n = n) || Sandbox.admitted n s.log) = true
          simp
      · exact .unwind hs hfresh (by simp [hpc]) hunwind
    · exact .unwind hs hfresh (by simp [hpc]) hunwind
  · obtain ⟨hfresh, hk, htask, hid, hcl, hz⟩ := h
    exact .unwind hs hfresh (by simp [hpc])
      fun id hzid => ⟨hcl ▸ (hz id hzid).1, (hz id hzid).2 ▸ hk⟩
  · exact .stay

lemma stepExecution_spec (hs : Shared w s.toCore) (hexec : Executing thread.pc)
    (h : Holds s.toCore n thread.request pc) :
    Stepped w s n thread (stepExecution w s n thread pc input) := by
  have hsave : ∀ record : RecoveryRecord, s.result thread.request.taskId = some [] →
      Holding s.toCore thread.request.taskId record →
      Stepped w s n thread (s.goto n thread (.Save record)) := fun record hr hh =>
    .on hexec hs (.refl hs) ⟨hr, hh⟩ nofun rfl
  unfold stepExecution
  split
  · -- the container
    rename_i record
    obtain ⟨hr, hst, hh, hid, hgone⟩ := h
    split
    · exact hsave record hr hh
    · rename_i zone hget
      obtain ⟨stored, hstored, hm⟩ := hh.durable
      have hnone : stored.containerId = none := by
        rcases hm.containerId with heq | heq
        · rw [heq, hid]
        · exact heq
      have hzone : zone.id = record.zoneId := (hh.known hs).id_eq zone hget
      set container : Container :=
        ⟨s.nextUuid, containerName record.taskId, zone.id, .Created⟩ with hcontainer
      have howns : stored.owns container = true := owns_iff.mpr
        ⟨hzone.trans hm.zoneId.symm, .inr ⟨hnone, by rw [hm.task]⟩⟩
      have hs' : Shared w (s.createContainer record.taskId container) :=
        hs.createContainer rfl rfl (hh.task.symm ▸ hstored) howns
      have hu : Untouched s.toCore n thread.request.taskId
          (s.createContainer record.taskId container) := by
        rw [hh.task]
        exact untouched_createContainer hs rfl
      refine .on hexec hs' hu ⟨hr, hst, ⟨hh.task, ⟨stored, hstored, hm.task, hm.zoneName, hm.zoneId,
        hm.cleanupZone, .inr hnone⟩, fun id' container' hcreated hc => ?_, fun id' hid' => ?_⟩,
        rfl⟩ nofun rfl
      · have hc' : (s.persist container).container id' = some container' := hc
        rw [Core.container_persist] at hc'
        rcases (creator_createContainer _ _).mp hcreated with ⟨heq, -⟩ | ⟨hne, hold⟩
        · rw [if_pos heq] at hc'
          cases hc'
          exact owns_iff.mpr ⟨hzone, .inl rfl⟩
        · rw [if_neg hne, hgone id' hold] at hc'
          cases hc'
      · cases hid'
        exact (creator_createContainer _ _).mpr (.inl ⟨rfl, hh.task.symm⟩)
  · obtain ⟨hr, -, hh, -⟩ := h
    exact hsave _ hr hh
  · -- the id of the container goes on record
    rename_i record id manifestDigest digestVerified
    obtain ⟨hr, hst, hh, hid⟩ := h
    obtain ⟨stored, hstored, hm⟩ := hh.durable
    set noted : RecoveryRecord := { record with
      receipt := { record.receipt with
        manifestDigest := manifestDigest, digestVerified := digestVerified } } with hnoted
    have hheld : ∀ stored' c', Core.record c' thread.request.taskId = some stored' →
        Matches stored' noted → c'.log = s.log → c'.container = s.container →
        Holding c' thread.request.taskId noted := by
      intro stored' c' hstored' hm' hlog hcont
      refine ⟨hh.task, ⟨stored', hstored', hm'⟩, ?_, ?_⟩
      · rw [hlog, hcont]
        exact hh.owns
      · rw [hlog]
        exact hh.created
    simp only
    split
    · rename_i store hput
      obtain ⟨-, rfl⟩ := Store.putRecovery_ok hput
      have hs' : Shared w (s.put noted) := hs.put (hh.task.symm ▸ hstored) hm.zoneName.symm
        hm.zoneId.symm hm.cleanupZone.symm
        (fun id' hid' => (hh.created id' hid').trans (congrArg some hh.task.symm))
        (fun id' container hcreated hc =>
          hh.owns id' container (hcreated.trans (congrArg some hh.task)) hc)
      have hu : Untouched s.toCore n noted.taskId (s.put noted) := untouched_put hs
      rw [show noted.taskId = thread.request.taskId from hh.task] at hu
      refine .on hexec hs' hu ⟨hr, hst, hheld noted _ ?_ (.refl _) rfl rfl, hid⟩ nofun rfl
      show (s.put noted).record _ = some noted
      rw [Core.record_put, if_pos hh.task.symm]
    · exact hsave _ hr (hheld stored _ hstored ⟨hm.task, hm.zoneName, hm.zoneId, hm.cleanupZone,
        hm.containerId⟩ rfl rfl)
  · obtain ⟨hr, -, hh, -⟩ := h
    exact hsave _ hr hh
  · -- the one start
    rename_i record id
    obtain ⟨hr, hst, hh, hid⟩ := h
    split
    · exact hsave _ hr hh
    · rename_i copy hc
      obtain ⟨hkey, hcopy⟩ := hh.copyOk hs hid hc
      rw [show record.taskId = thread.request.taskId from hh.task]
      exact .on hexec (hs.start hst) (untouched_start hs)
        ⟨hr, ⟨hh.task, hh.durable, hh.owns, hh.created⟩, hkey ▸ hid, hcopy.lt, hcopy.owned⟩
        nofun rfl
  · rename_i record id
    obtain ⟨hr, hst, hh, hid⟩ := h
    split
    · exact hsave _ hr hh
    · rw [show record.taskId = thread.request.taskId from hh.task]
      exact .on hexec (hs.start hst) (untouched_start hs)
        ⟨hr, ⟨hh.task, hh.durable, hh.owns, hh.created⟩⟩ nofun rfl
  · obtain ⟨hr, -, hh, -⟩ := h
    exact hsave _ hr hh
  · -- the state of the container is written back
    obtain ⟨hr, hh, hid, hcopy⟩ := h
    obtain ⟨hs', hu⟩ := persist_copy (n := n) hs hh hcopy
    exact .on hexec hs' hu ⟨hr, hh.persist hcopy, hid, nofun⟩ nofun rfl
  · obtain ⟨hr, hh, -⟩ := h
    exact hsave _ hr hh
  · obtain ⟨hr, hh, hid, -⟩ := h
    exact .on hexec hs (.refl hs) ⟨hr, hh, hid, fun copy hc =>
      (hh.copyOk hs hid (Option.mem_def.mp hc)).2⟩
      nofun rfl
  · obtain ⟨hr, hh, hid, hseen⟩ := h
    have hcopy := hseen _ rfl
    obtain ⟨hs', hu⟩ := persist_copy (n := n) hs hh hcopy
    exact .on hexec hs' hu ⟨hr, hh.persist hcopy, hid, nofun⟩ nofun rfl
  · obtain ⟨hr, hh, -⟩ := h
    exact hsave _ hr hh
  · -- the result
    rename_i record result
    obtain ⟨hr, hh⟩ := h
    have hrelease : Stepped w s n thread (s.goto n thread (.Release true)) :=
      .on hexec hs (.refl hs) (ne_of_eq_of_ne hr nofun) nofun rfl
    split
    · exact hrelease
    · rename_i sealed hseal
      split
      · rename_i store hsaved
        obtain ⟨hne, hempty, rfl⟩ := Store.saveResult_ok hsaved
        have hsigned := sealBoundedResult_signed hseal
        rw [show record.receipt.taskId = thread.request.taskId from hh.task] at hsigned
        rw [show record.taskId = thread.request.taskId from hh.task]
        exact .on hexec (hs.save hr hne hsigned) (untouched_save hs)
          ⟨⟨_, AList.lookup_insert _, hne⟩, ⟨hh.task, hh.durable, hh.owns, hh.created⟩, trivial⟩
          nofun rfl
      · exact hrelease
  · obtain ⟨hr, -⟩ := h
    exact .on hexec hs (.refl hs) (ne_of_eq_of_ne hr nofun) nofun rfl
  · exact .stay

lemma stepEnd_spec (hs : Shared w s.toCore) (hpc : thread.pc = pc)
    (h : Holds s.toCore n thread.request pc) :
    Stepped w s n thread (stepEnd s n thread pc input) := by
  unfold stepEnd
  split
  · -- the clean-up
    obtain ⟨⟨bytes, hr, hne⟩, hh, hc⟩ := h
    split
    · rename_i store stage' hstep
      obtain ⟨hs', hu, hh', hc', hresults, -⟩ := cleanupStep_goto (n := n) hs hh hc hstep
      refine .on (by simp [hpc, Executing, Guarded]) hs' hu ⟨⟨bytes, ?_, hne⟩, hh', hc'⟩ nofun rfl
      show store.results.lookup _ = some bytes
      rw [hresults]
      exact hr
    · exact .on (by simp [hpc, Executing, Guarded]) hs (.refl hs)
        (ne_of_eq_of_ne hr nofun) nofun rfl
    · rename_i store hstep
      obtain ⟨heq, hs'⟩ := cleanupStep_finished hs hh hc hstep
      rw [← heq] at hs'
      refine .on (by simp [hpc, Executing, Guarded]) hs' (heq ▸ untouched_finish hs) ?_ nofun rfl
      rw [heq]
      show s.result _ ≠ none
      rw [hr]
      simp
  · obtain ⟨hfresh, hz⟩ := h
    exact .on (by simp [hpc, Executing, Guarded]) hs (.refl hs)
      (ne_of_eq_of_ne hfresh.result nofun) nofun rfl
  · exact .unguard hpc
  · -- the reservation is given back
    simp only
    split
    · rename_i store hdelete
      obtain ⟨hrecord, -, rfl⟩ := Store.deleteResult_ok hdelete
      exact .leave hpc (hs.forget hrecord) (untouched_forget hs) rfl
    · exact .leave hpc hs (.refl hs) rfl
  · exact .leave hpc hs (.refl hs) rfl
  · exact .leave hpc hs (.refl hs) rfl
  · exact .stay

/-- **The inversion lemma for requests.** -/
theorem stepThread_spec (hs : Shared w s.toCore) (hn : n < s.nextUuid)
    (h : Holds s.toCore n thread.request thread.pc) :
    Stepped w s n thread (stepThread w s n thread input) := by
  unfold stepThread
  split
  case h_11 | h_12 | h_13 => exact stepEnd_spec hs rfl h
  case h_1 | h_2 | h_3 | h_4 => exact stepAdmission_spec hs hn rfl h
  all_goals
    rename_i hpc
    exact stepExecution_spec hs (by simp [hpc, Executing, Guarded]) h

end Requests

end Rauha.Sandbox
