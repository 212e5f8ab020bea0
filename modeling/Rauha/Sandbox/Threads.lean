import Rauha.Sandbox.Writes

/-!
# Where a process stands

`Holds` says, for each point of `run_owned`, what is true of the rows of the request's own task.
It is stable under whatever other processes do (`Holds.frame`).  `Cleaning` does the same for the
clean-up that requests and recovery share.
-/

namespace Rauha.Sandbox

/-- The record in the store may be an earlier version of the one in memory, without the id of the
    container. -/
structure Matches (durable record : RecoveryRecord) : Prop where
  task : durable.taskId = record.taskId
  zoneName : durable.zoneName = record.zoneName
  zoneId : durable.zoneId = record.zoneId
  cleanupZone : durable.cleanupZone = record.cleanupZone
  containerId : durable.containerId = record.containerId ∨ durable.containerId = none

lemma Matches.refl (record : RecoveryRecord) : Matches record record :=
  ⟨rfl, rfl, rfl, rfl, .inl rfl⟩

lemma owns_iff {record : RecoveryRecord} {container : Container} :
    record.owns container = true ↔ container.zoneId = record.zoneId ∧
      (record.containerId = some container.id ∨
        record.containerId = none ∧ container.name = containerName record.taskId) := by
  unfold RecoveryRecord.owns
  cases record.containerId with
  | none => simp
  | some id =>
    simp only [Bool.and_eq_true, decide_eq_true_eq, Option.some.injEq, reduceCtorEq, false_and,
      or_false]
    exact and_congr_right fun _ => eq_comm

lemma Matches.owns {durable record : RecoveryRecord} {container : Container}
    (h : Matches durable record) (howns : record.owns container = true)
    (hname : container.name = containerName record.taskId) : durable.owns container = true := by
  rw [owns_iff] at howns ⊢
  refine ⟨howns.1.trans h.zoneId.symm, ?_⟩
  rcases h.containerId with heq | hnone
  · rw [heq, h.task]
    exact howns.2
  · exact .inr ⟨hnone, by rw [hname, h.task]⟩

/-- **An admitted process** of task `t` with the record it has in memory. -/
structure Holding (c : Core) (t : String) (record : RecoveryRecord) : Prop where
  task : record.taskId = t
  durable : ∃ stored, c.record t = some stored ∧ Matches stored record
  owns : ∀ id container, creator id c.log = some t → c.container id = some container →
    record.owns container = true
  created : ∀ id, record.containerId = some id → creator id c.log = some t

/-- A copy of a container that the process may write back. -/
structure CopyOk (c : Core) (t : String) (record : RecoveryRecord) (copy : Container) : Prop where
  lt : copy.id < c.nextUuid
  owned : ∀ t', creator copy.id c.log = some t' →
    t' = t ∧ copy.name = containerName t ∧ record.owns copy = true

/-- A request that has its reservation and nothing else. -/
structure Fresh (c : Core) (n : ℕ) (t : String) : Prop where
  result : c.result t = some []
  record : c.record t = none
  starts : startsSince t c.log = 0
  admitted : admitted n c.log = false

/-- Where the clean-up stands. -/
def Cleaning (c : Core) (t : String) (record : RecoveryRecord) : Cleanup → Prop
  | .Begin => True
  | .Zone _ => record.cleanupZone = true
  | .Containers left seen => record.cleanupZone = false ∧
      (∀ copy ∈ left, CopyOk c t record copy) ∧ ∀ copy ∈ seen, CopyOk c t record copy
  | .Check => record.cleanupZone = true → NoZone c record.zoneId
  | .Finish => (record.cleanupZone = true → NoZone c record.zoneId) ∧ Gone c t

/-- **What is true at each point of `run_owned`.** -/
def Holds (c : Core) (n : ℕ) (request : Request) : Pc → Prop
  | .Reserve => zoneOf n c.log = none ∧ admitted n c.log = false
  | .Resolve => Fresh c n request.taskId ∧ zoneOf n c.log = none
  | .Verify zone => Fresh c n request.taskId ∧ Known c zone.name zone.id ∧
      ∀ id, zoneOf n c.log = some id → request.ownsZone = true ∧ zone.id = id
  | .Admit record => Fresh c n request.taskId ∧ Known c record.zoneName record.zoneId ∧
      record.taskId = request.taskId ∧ record.containerId = none ∧
      record.cleanupZone = request.ownsZone ∧
      ∀ id, zoneOf n c.log = some id → record.cleanupZone = true ∧ record.zoneId = id
  | .Create record => c.result request.taskId = some [] ∧ startsSince request.taskId c.log = 0 ∧
      Holding c request.taskId record ∧ record.containerId = none ∧ Gone c request.taskId
  | .Note record id | .Start record id => c.result request.taskId = some [] ∧
      startsSince request.taskId c.log = 0 ∧ Holding c request.taskId record ∧
      record.containerId = some id
  | .Started record copy => c.result request.taskId = some [] ∧ Holding c request.taskId record ∧
      record.containerId = some copy.id ∧ CopyOk c request.taskId record copy
  | .Wait record id seen => c.result request.taskId = some [] ∧ Holding c request.taskId record ∧
      record.containerId = some id ∧ ∀ copy ∈ seen, CopyOk c request.taskId record copy
  | .Save record => c.result request.taskId = some [] ∧ Holding c request.taskId record
  | .Clean record stage => (∃ bytes, c.result request.taskId = some bytes ∧ bytes ≠ []) ∧
      Holding c request.taskId record ∧ Cleaning c request.taskId record stage
  | .Unwind armed => Fresh c n request.taskId ∧
      ∀ id, zoneOf n c.log = some id → ∃ name, armed = some name ∧ Known c name id
  | .Release _ => c.result request.taskId ≠ none

/-! ## Other processes -/

section Frame

variable {w : World} {c c' : Core} {n n₀ : ℕ} {t t₀ : String} {record : RecoveryRecord}

lemma Fresh.frame (h : Fresh c n t) (hu : Untouched c n₀ t₀ c') (hn : n ≠ n₀) (ht : t ≠ t₀) :
    Fresh c' n t :=
  ⟨(hu.result t ht).trans h.result, (hu.record t ht).trans h.record,
    (hu.starts t ht).trans h.starts, (hu.admitted n hn).trans h.admitted⟩

lemma Gone.frame (h : Gone c t) (hu : Untouched c n₀ t₀ c') (ht : t ≠ t₀) : Gone c' t := by
  intro id hcreated
  have hold := (hu.created t id (hu.created_new t id ht hcreated)).mp hcreated
  cases hc : c'.container id with
  | none => rfl
  | some container =>
    have hnone := h id hold
    rw [hu.container t id container ht hold hc] at hnone
    cases hnone

lemma Holding.frame (hs : Shared w c) (h : Holding c t record) (hu : Untouched c n₀ t₀ c')
    (ht : t ≠ t₀) : Holding c' t record where
  task := h.task
  durable := by
    rw [hu.record t ht]
    exact h.durable
  owns id container hcreated hc := by
    have hold := (hu.created t id (hu.created_new t id ht hcreated)).mp hcreated
    exact h.owns id container hold (hu.container t id container ht hold hc)
  created id hid := by
    have hold := h.created id hid
    exact (hu.created t id (hs.created_lt t id hold)).mpr hold

lemma CopyOk.frame {copy : Container} (h : CopyOk c t record copy) (hu : Untouched c n₀ t₀ c') :
    CopyOk c' t record copy :=
  ⟨lt_of_lt_of_le h.lt hu.uuid, fun t' hc => h.owned t' ((hu.created t' copy.id h.lt).mp hc)⟩

lemma Holding.known (hs : Shared w c) (h : Holding c t record) :
    Known c record.zoneName record.zoneId := by
  obtain ⟨stored, hstored, hm⟩ := h.durable
  rw [← hm.zoneName, ← hm.zoneId]
  exact hs.record_known t stored hstored

lemma Cleaning.frame {stage : Cleanup} (hs : Shared w c) (hh : Holding c t record)
    (h : Cleaning c t record stage) (hu : Untouched c n₀ t₀ c') (ht : t ≠ t₀) :
    Cleaning c' t record stage := by
  have hlt := (hh.known hs).lt
  cases stage with
  | Begin => trivial
  | Zone left => exact h
  | Containers left seen =>
    exact ⟨h.1, fun copy hmem => (h.2.1 copy hmem).frame hu,
      fun copy hmem => (h.2.2 copy hmem).frame hu⟩
  | Check => exact fun hz => (h hz).stable hlt hu
  | Finish => exact ⟨fun hz => (h.1 hz).stable hlt hu, h.2.frame hu ht⟩

/-- **Other processes do not disturb a request.** -/
lemma Holds.frame {request : Request} {pc : Pc} (hs : Shared w c) (h : Holds c n request pc)
    (hu : Untouched c n₀ t₀ c') (hn : n ≠ n₀) (ht : pc = .Reserve ∨ request.taskId ≠ t₀) :
    Holds c' n request pc := by
  by_cases hpc : pc = .Reserve
  · subst hpc
    exact ⟨(hu.zoneOf n hn).trans h.1, (hu.admitted n hn).trans h.2⟩
  replace ht := ht.resolve_left hpc
  cases pc with
  | Reserve => exact absurd rfl hpc
  | Resolve => exact ⟨h.1.frame hu hn ht, (hu.zoneOf n hn).trans h.2⟩
  | Verify zone =>
    exact ⟨h.1.frame hu hn ht, h.2.1.stable hu, by rw [hu.zoneOf n hn]; exact h.2.2⟩
  | Admit record =>
    obtain ⟨hf, hk, htask, hid, hcl, hz⟩ := h
    exact ⟨hf.frame hu hn ht, hk.stable hu, htask, hid, hcl, by rw [hu.zoneOf n hn]; exact hz⟩
  | Create record =>
    obtain ⟨hr, hst, hh, hid, hg⟩ := h
    exact ⟨(hu.result _ ht).trans hr, (hu.starts _ ht).trans hst, hh.frame hs hu ht, hid,
      hg.frame hu ht⟩
  | Note record id | Start record id =>
    obtain ⟨hr, hst, hh, hid⟩ := h
    exact ⟨(hu.result _ ht).trans hr, (hu.starts _ ht).trans hst, hh.frame hs hu ht, hid⟩
  | Started record copy =>
    obtain ⟨hr, hh, hid, hcopy⟩ := h
    exact ⟨(hu.result _ ht).trans hr, hh.frame hs hu ht, hid, hcopy.frame hu⟩
  | Wait record id seen =>
    obtain ⟨hr, hh, hid, hseen⟩ := h
    exact ⟨(hu.result _ ht).trans hr, hh.frame hs hu ht, hid,
      fun copy hmem => (hseen copy hmem).frame hu⟩
  | Save record => exact ⟨(hu.result _ ht).trans h.1, h.2.frame hs hu ht⟩
  | Clean record stage =>
    obtain ⟨hr, hh, hc⟩ := h
    exact ⟨by rw [hu.result _ ht]; exact hr, hh.frame hs hu ht, hc.frame hs hh hu ht⟩
  | Unwind armed =>
    refine ⟨h.1.frame hu hn ht, fun id hid => ?_⟩
    rw [hu.zoneOf n hn] at hid
    obtain ⟨name, harmed, hk⟩ := h.2 id hid
    exact ⟨name, harmed, hk.stable hu⟩
  | Release attempted =>
    show c'.result request.taskId ≠ none
    rw [hu.result _ ht]
    exact h

/-- A request past its reservation has a result, if only an empty one. -/
lemma Holds.result_ne_none {request : Request} {pc : Pc} (h : Holds c n request pc)
    (hpc : pc ≠ .Reserve) : c.result request.taskId ≠ none := by
  cases pc with
  | Reserve => exact absurd rfl hpc
  | Resolve | Verify zone | Admit record | Unwind armed => rw [h.1.result]; simp
  | Create record | Note record id | Start record id | Started record copy
  | Wait record id seen | Save record => rw [h.1]; simp
  | Clean record stage =>
    obtain ⟨⟨bytes, hr, -⟩, -⟩ := h
    rw [hr]
    simp
  | Release attempted => exact h

end Frame

end Rauha.Sandbox
