import Rauha.Library.Table
import Rauha.Sandbox.Invariant

/-!
# The writes of the service

Each write has a lemma that it keeps `Shared`, under a condition on the process that makes it, and
a lemma that it leaves the rest of the world alone.  The entry a write leaves in the log is part of
it where the invariant ties the two together.
-/

namespace Rauha.Sandbox

/-! ## Writes to the tables of results and records -/

section Writes

variable {w : World} {c : Core} {n : ℕ} {t : String} {store : Store} (h : Shared w c)

section Reserve

/-- `reserve_result`. -/
def Core.reserve (c : Core) (t : String) : Core :=
  { c with
    store := { c.store with results := c.store.results.insert t [] }
    log := .Reserved t :: c.log }

lemma Core.result_reserve (t' : String) :
    (c.reserve t).result t' = if t' = t then some [] else c.result t' :=
  Table.lookup_insert_ite _ _ _ _

include h

lemma Shared.reserve (hnone : c.result t = none) : Shared w (c.reserve t) :=
  { h with
    record_result := fun t' record hrecord => by
      rw [Core.result_reserve]
      split_ifs
      · simp
      · exact h.record_result t' record hrecord
    record_known := h.knows rfl rfl rfl
    signed := fun t' bytes hbytes hne => by
      rw [Core.result_reserve] at hbytes
      split_ifs at hbytes
      · cases hbytes
        exact absurd rfl hne
      · exact h.signed t' bytes hbytes hne
    attempted := fun t' hatt => by
      have hold := h.attempted t' hatt
      have hne : t' ≠ t := by
        rintro rfl
        exact hold.1 hnone
      rw [Core.result_reserve, if_neg hne]
      exact hold
    disciplined := ⟨h.disciplined, fun t' heq => by
      cases heq
      rw [h.reserved, hnone]
      rfl, nofun⟩
    reserved := fun t' => by
      rw [Core.result_reserve]
      show (decide (t = t') || reservedIn t' c.log) = _
      rw [h.reserved]
      by_cases heq : t' = t
      · simp [heq]
      · simp [heq, Ne.symm heq] }

lemma untouched_reserve : Untouched c n t (c.reserve t) :=
  { (.refl h : Untouched c n t c) with
    result := fun t' hne => by rw [Core.result_reserve, if_neg hne]
    starts := fun _ hne => if_neg (Ne.symm hne) }

end Reserve

section Forget

/-- `delete_result`. -/
def Core.forget (c : Core) (t : String) : Core :=
  { c with
    store := { c.store with results := c.store.results.erase t }
    log := .Deleted t :: c.log }

lemma Core.result_forget (t' : String) :
    (c.forget t).result t' = if t' = t then none else c.result t' :=
  Table.lookup_erase_ite _ _ _

include h

lemma Shared.forget (hrecord : c.record t = none) : Shared w (c.forget t) :=
  { h with
    record_result := fun t' record hr => by
      have hne : t' ≠ t := by
        rintro rfl
        rw [show (c.forget t').record t' = c.record t' from rfl, hrecord] at hr
        cases hr
      rw [Core.result_forget, if_neg hne]
      exact h.record_result t' record hr
    record_known := h.knows rfl rfl rfl
    signed := fun t' bytes hbytes hne => by
      rw [Core.result_forget] at hbytes
      split_ifs at hbytes
      exact h.signed t' bytes hbytes hne
    attempted := fun t' hatt => by
      have hatt' : (decide (t ≠ t') && Sandbox.attempted t' c.log) = true := hatt
      simp only [ne_eq, decide_not, Bool.and_eq_true, Bool.not_eq_eq_eq_not, Bool.not_true,
        decide_eq_false_iff_not] at hatt'
      rw [Core.result_forget, if_neg (Ne.symm hatt'.1)]
      exact h.attempted t' hatt'.2
    disciplined := ⟨h.disciplined, nofun, nofun⟩
    reserved := fun t' => by
      rw [Core.result_forget]
      show (decide (t ≠ t') && reservedIn t' c.log) = _
      rw [h.reserved]
      by_cases heq : t' = t
      · simp [heq]
      · simp [heq, Ne.symm heq] }

lemma untouched_forget : Untouched c n t (c.forget t) :=
  { (.refl h : Untouched c n t c) with
    result := fun t' hne => by rw [Core.result_forget, if_neg hne] }

end Forget

section Save

/-- `save_result`. -/
def Core.save (c : Core) (t : String) (bytes : List UInt8) : Core :=
  { c with store := { c.store with results := c.store.results.insert t bytes } }

variable {bytes : List UInt8}

lemma Core.result_save (t' : String) :
    (c.save t bytes).result t' = if t' = t then some bytes else c.result t' :=
  Table.lookup_insert_ite _ _ _ _

include h

lemma Shared.save (hempty : c.result t = some []) (hne : bytes ≠ [])
    (hsigned : Signed w.signer t bytes) : Shared w (c.save t bytes) :=
  { h with
    record_result := fun t' record hr => by
      rw [Core.result_save]
      split_ifs
      · simp
      · exact h.record_result t' record hr
    record_known := h.knows rfl rfl rfl
    signed := fun t' bytes' hbytes hne' => by
      rw [Core.result_save] at hbytes
      split_ifs at hbytes with heq
      · cases hbytes
        exact heq ▸ hsigned
      · exact h.signed t' bytes' hbytes hne'
    attempted := fun t' hatt => by
      rw [Core.result_save]
      split_ifs
      · exact ⟨by simp, fun h => absurd (Option.some.inj h) hne⟩
      · exact h.attempted t' hatt
    reserved := fun t' => by
      have hold : reservedIn t' c.log = _ := h.reserved t'
      rw [Core.result_save]
      split_ifs with heq
      · rw [heq, hempty] at hold
        rw [heq]
        exact hold
      · exact hold }

lemma untouched_save : Untouched c n t (c.save t bytes) :=
  { (.refl h : Untouched c n t c) with
    result := fun t' hne => by rw [Core.result_save, if_neg hne] }

end Save

/-! ## Recovery records -/

section Records

variable {record : RecoveryRecord}

/-- `put_recovery`. -/
def Core.put (c : Core) (record : RecoveryRecord) : Core :=
  { c with store := c.store.withRecord record }

/-- The first `put_recovery` of a request. -/
def Core.commit (c : Core) (n : ℕ) (record : RecoveryRecord) : Core :=
  { c.put record with log := .Admitted n record.taskId :: c.log }

/-- `finish_recovery`. -/
def Core.finish (c : Core) (t : String) : Core :=
  { c with store := c.store.withoutRecord t }

lemma Core.record_put (t' : String) :
    (c.put record).record t' = if t' = record.taskId then some record else c.record t' :=
  Table.lookup_insert_ite _ _ _ _

lemma Core.record_finish (t' : String) :
    (c.finish t).record t' = if t' = t then none else c.record t' :=
  Table.lookup_erase_ite _ _ _

lemma admitted_commit {n' : ℕ} : admitted n' (c.commit n record).log = true ↔
    n = n' ∨ admitted n' c.log = true := by
  show (decide (n = n') || admitted n' c.log) = true ↔ _
  simp

include h

lemma Shared.commit (hempty : c.result record.taskId = some [])
    (hnone : c.record record.taskId = none) (hknown : Known c record.zoneName record.zoneId)
    (hid : record.containerId = none) (hlt : n < c.nextUuid)
    (hzone : ∀ id, zoneOf n c.log = some id → record.cleanupZone = true ∧ record.zoneId = id) :
    Shared w (c.commit n record) := by
  have hrecord : ∀ t', (c.commit n record).record t' =
      if t' = record.taskId then some record else c.record t' := Core.record_put
  -- a record of another task is still there
  have hother : ∀ t' r, c.record t' = some r → (c.commit n record).record t' = some r := by
    intro t' r hr
    rw [hrecord, if_neg]
    · exact hr
    · rintro rfl
      rw [hnone] at hr
      cases hr
  exact { h with
    record_result := fun t' r hr => by
      rw [hrecord] at hr
      split_ifs at hr with heq
      · rw [heq, show (c.commit n record).result record.taskId = c.result record.taskId from rfl,
          hempty]
        simp
      · exact h.record_result t' r hr
    record_known := fun t' r hr => by
      rw [hrecord] at hr
      split_ifs at hr
      · cases hr
        exact hknown.congr rfl rfl rfl
      · exact (h.record_known t' r hr).congr rfl rfl rfl
    record_created := fun t' r id hr hr' => by
      rw [hrecord] at hr
      split_ifs at hr
      · cases hr
        rw [hid] at hr'
        cases hr'
      · exact h.record_created t' r id hr hr'
    covered := fun t' id container hcreated hcontainer => by
      obtain ⟨hname, r, hr, howns⟩ := h.covered t' id container hcreated hcontainer
      exact ⟨hname, r, hother t' r hr, howns⟩
    attempted := fun t' hatt => by
      have hatt' : (decide (record.taskId = t') || Sandbox.attempted t' c.log) = true := hatt
      rw [hrecord]
      by_cases heq : t' = record.taskId
      · rw [heq,
          show (c.commit n record).result record.taskId = c.result record.taskId from rfl, hempty]
        simp
      · rw [if_neg heq]
        refine h.attempted t' ?_
        simpa [Ne.symm heq] using hatt'
    disciplined := ⟨h.disciplined, nofun, nofun⟩
    admitted_lt := fun n' hadm => by
      rcases admitted_commit.mp hadm with rfl | hold
      · exact hlt
      · exact h.admitted_lt n' hold
    temp := fun n' id name zone hz hadm hzone' hid' => by
      rcases admitted_commit.mp hadm with rfl | hold
      · exact ⟨record.taskId, record, by rw [hrecord, if_pos rfl], hzone id hz⟩
      · obtain ⟨t', r, hr, hcover⟩ := h.temp n' id name zone hz hold hzone' hid'
        exact ⟨t', r, hother t' r hr, hcover⟩ }

lemma untouched_put : Untouched c n record.taskId (c.put record) :=
  { (.refl h : Untouched c n record.taskId c) with
    record := fun t' hne => by rw [Core.record_put, if_neg hne] }

lemma untouched_commit : Untouched c n record.taskId (c.commit n record) :=
  { untouched_put h with
    admitted := fun n' hne => by
      show (decide (n = n') || Sandbox.admitted n' c.log) = _
      simp [Ne.symm hne]
    admitted_mono := fun n' hadm => admitted_commit.mpr (.inr hadm) }

/-- A record is replaced by one for the same zone that owns whatever the task has created. -/
lemma Shared.put {old : RecoveryRecord} (hold : c.record record.taskId = some old)
    (hname : record.zoneName = old.zoneName) (hid : record.zoneId = old.zoneId)
    (hcleanup : record.cleanupZone = old.cleanupZone)
    (hcreated : ∀ id, record.containerId = some id → creator id c.log = some record.taskId)
    (howns : ∀ id container, creator id c.log = some record.taskId →
      c.container id = some container → record.owns container = true) :
    Shared w (c.put record) :=
  { h with
    record_result := fun t' r hr => by
      rw [Core.record_put] at hr
      split_ifs at hr with heq
      · rw [heq]
        exact h.record_result _ old hold
      · exact h.record_result t' r hr
    record_known := fun t' r hr => by
      rw [Core.record_put] at hr
      split_ifs at hr
      · cases hr
        rw [hname, hid]
        exact (h.record_known _ old hold).congr rfl rfl rfl
      · exact (h.record_known t' r hr).congr rfl rfl rfl
    record_created := fun t' r id hr hr' => by
      rw [Core.record_put] at hr
      split_ifs at hr with heq
      · cases hr
        exact heq ▸ hcreated id hr'
      · exact h.record_created t' r id hr hr'
    covered := fun t' id container hcreated' hcontainer => by
      obtain ⟨hname', r, hr, howns'⟩ := h.covered t' id container hcreated' hcontainer
      refine ⟨hname', ?_⟩
      rw [Core.record_put]
      split_ifs with heq
      · subst heq
        exact ⟨record, rfl, howns id container hcreated' hcontainer⟩
      · exact ⟨r, hr, howns'⟩
    attempted := fun t' hatt => by
      have hpast := h.attempted t' hatt
      rw [Core.record_put]
      refine ⟨hpast.1, fun hempty => ?_⟩
      split_ifs
      · simp
      · exact hpast.2 hempty
    temp := fun n' id name zone hz hadm hzone hid' => by
      obtain ⟨t', r, hr, hcover⟩ := h.temp n' id name zone hz hadm hzone hid'
      by_cases heq : t' = record.taskId
      · rw [heq, hold] at hr
        cases hr
        exact ⟨_, record, by rw [Core.record_put, if_pos rfl], by rw [hcleanup]; exact hcover.1,
          by rw [hid]; exact hcover.2⟩
      · exact ⟨t', r, by rw [Core.record_put, if_neg heq]; exact hr, hcover⟩ }

/-- A record goes once the result is there and nothing is left that it covers. -/
lemma Shared.finish {bytes : List UInt8} (hresult : c.result t = some bytes)
    (hne : bytes ≠ []) (hgone : Gone c t)
    (hzone : ∀ r, c.record t = some r → r.cleanupZone = true → NoZone c r.zoneId) :
    Shared w (c.finish t) := by
  have hsome : ∀ t' r, (c.finish t).record t' = some r → t' ≠ t ∧ c.record t' = some r := by
    intro t' r hr
    rw [Core.record_finish] at hr
    split_ifs at hr with heq
    exact ⟨heq, hr⟩
  exact { h with
    record_result := fun t' r hr => h.record_result t' r (hsome t' r hr).2
    record_known := fun t' r hr => (h.record_known t' r (hsome t' r hr).2).congr rfl rfl rfl
    record_created := fun t' r id hr => h.record_created t' r id (hsome t' r hr).2
    covered := fun t' id container hcreated hcontainer => by
      obtain ⟨hname, r, hr, howns⟩ := h.covered t' id container hcreated hcontainer
      have hne' : t' ≠ t := by
        rintro rfl
        have hnone := hgone id hcreated
        rw [show c.container id = some container from hcontainer] at hnone
        cases hnone
      exact ⟨hname, r, by rw [Core.record_finish, if_neg hne']; exact hr, howns⟩
    attempted := fun t' hatt => by
      have hpast := h.attempted t' hatt
      refine ⟨hpast.1, fun hempty => ?_⟩
      rw [Core.record_finish]
      split_ifs with heq
      · subst heq
        rw [show (c.finish t').result t' = c.result t' from rfl, hresult] at hempty
        exact absurd (Option.some.inj hempty) hne
      · exact hpast.2 hempty
    temp := fun n' id name zone hz hadm hzone' hid => by
      obtain ⟨t', r, hr, hcover⟩ := h.temp n' id name zone hz hadm hzone' hid
      have hne' : t' ≠ t := by
        rintro rfl
        exact hzone r hr hcover.1 name zone hzone' (hid.trans hcover.2.symm)
      exact ⟨t', r, by rw [Core.record_finish, if_neg hne']; exact hr, hcover⟩ }

lemma untouched_finish : Untouched c n t (c.finish t) :=
  { (.refl h : Untouched c n t c) with
    record := fun t' hne => by rw [Core.record_finish, if_neg hne] }

end Records

/-! ## Zones -/

section Zones

/-- A number is handed out. -/
def Core.bump (c : Core) : Core := { c with nextUuid := c.nextUuid + 1 }

/-- `put_zone` for a new zone. -/
def Core.createZone (c : Core) (zone : Zone) : Core :=
  { c with
    store := { c.store with metadata := c.store.metadata.putZone zone }
    names := insert zone.name c.names
    nextUuid := c.nextUuid + 1 }

def Core.note (c : Core) (entry : Entry) : Core := { c with log := entry :: c.log }

def Core.dropZone (c : Core) (name : String) : Core :=
  { c with store := { c.store with metadata := c.store.metadata.deleteZone name } }

variable {zone : Zone} {name : String}

lemma Core.zone_createZone (name' : String) :
    (c.createZone zone).zone name' = if name' = zone.name then some zone else c.zone name' :=
  Table.lookup_insert_ite _ _ _ _

lemma Core.zone_dropZone (name' : String) :
    (c.dropZone name).zone name' = if name' = name then none else c.zone name' :=
  Table.lookup_erase_ite _ _ _

include h

lemma untouched_bump : Untouched c n t c.bump :=
  { (.refl h : Untouched c n t c) with uuid := Nat.le_succ _ }

lemma Shared.bump : Shared w c.bump :=
  { h with
    zone_used := fun name zone hz =>
      (h.zone_used name zone hz).imp_right Nat.lt_succ_of_lt
    container_lt := fun id container hc => Nat.lt_succ_of_lt (h.container_lt id container hc)
    created_lt := fun t id hc => Nat.lt_succ_of_lt (h.created_lt t id hc)
    record_known := fun t record hr =>
      (h.record_known t record hr).stable (untouched_bump h (n := 0) (t := t))
    zoned_lt := fun n id hz => (h.zoned_lt n id hz).imp Nat.lt_succ_of_lt Nat.lt_succ_of_lt
    admitted_lt := fun n hadm => Nat.lt_succ_of_lt (h.admitted_lt n hadm) }

lemma untouched_createZone (hid : zone.id = c.nextUuid)
    (hname : zone.name ∉ c.names) : Untouched c n t (c.createZone zone) :=
  { (.refl h : Untouched c n t c) with
    uuid := Nat.le_succ _
    names := fun name hn => Finset.mem_insert_of_mem hn
    zone := fun name' zone' hz => by
      rw [Core.zone_createZone] at hz
      split_ifs at hz with heq
      · cases hz
        exact .inr ⟨heq ▸ hname, hid.ge⟩
      · exact .inl hz }

lemma Shared.createZone (hid : zone.id = c.nextUuid)
    (hname : zone.name ∉ c.names) : Shared w (c.createZone zone) := by
  have hu := untouched_createZone h hid hname (n := 0) (t := "")
  exact { h.bump with
    zone_used := fun name' zone' hz => by
      rcases hu.zone name' zone' hz with hold | ⟨hnew, -⟩
      · exact ⟨hu.names _ (h.zone_used name' zone' hold).1,
          Nat.lt_succ_of_lt (h.zone_used name' zone' hold).2⟩
      · rw [Core.zone_createZone] at hz
        split_ifs at hz with heq
        · cases hz
          exact ⟨heq ▸ Finset.mem_insert_self _ _, hid ▸ Nat.lt_succ_self _⟩
        · exact absurd (h.zone_used name' zone' hz).1 hnew
    zone_ids := fun name₁ name₂ zone₁ zone₂ h₁ h₂ heq => by
      rw [Core.zone_createZone] at h₁ h₂
      split_ifs at h₁ with hn₁ <;> split_ifs at h₂ with hn₂
      · rw [hn₁, hn₂]
      · cases h₁
        have := (h.zone_used name₂ zone₂ h₂).2
        omega
      · cases h₂
        have := (h.zone_used name₁ zone₁ h₁).2
        omega
      · exact h.zone_ids name₁ name₂ zone₁ zone₂ h₁ h₂ heq
    record_known := fun t record hr => (h.record_known t record hr).stable hu
    temp := fun n id name' zone' hz hadm hzone hid' => by
      rcases hu.zone name' zone' hzone with hold | ⟨-, hle⟩
      · exact h.temp n id name' zone' hz hadm hold hid'
      · have := (h.zoned_lt n id hz).2
        omega }

/-- The new zone is known. -/
lemma known_createZone (hid : zone.id = c.nextUuid)
    (hname : zone.name ∉ c.names) : Known (c.createZone zone) zone.name zone.id where
  used := Finset.mem_insert_self _ _
  lt := hid ▸ Nat.lt_succ_self _
  id_eq zone' hz := by
    rw [Core.zone_createZone, if_pos rfl] at hz
    cases hz
    rfl
  name_eq name' zone' hz heq :=
    (h.createZone hid hname).zone_ids name' zone.name zone' zone hz
      (by rw [Core.zone_createZone, if_pos rfl]) heq

lemma Shared.dropZone : Shared w (c.dropZone name) := by
  have hsome : ∀ name' zone', (c.dropZone name).zone name' = some zone' →
      c.zone name' = some zone' := by
    intro name' zone' hz
    rw [Core.zone_dropZone] at hz
    split_ifs at hz
    exact hz
  exact { h with
    zone_used := fun name' zone' hz => h.zone_used name' zone' (hsome _ _ hz)
    zone_ids := fun n₁ n₂ z₁ z₂ h₁ h₂ => h.zone_ids n₁ n₂ z₁ z₂ (hsome _ _ h₁) (hsome _ _ h₂)
    record_known := fun t record hr =>
      have hk := h.record_known t record hr
      ⟨hk.used, hk.lt, fun z hz => hk.id_eq z (hsome _ _ hz),
        fun n z hz => hk.name_eq n z (hsome _ _ hz)⟩
    temp := fun n id name' zone' hz hadm hzone =>
      h.temp n id name' zone' hz hadm (hsome _ _ hzone) }

lemma untouched_dropZone : Untouched c n t (c.dropZone name) :=
  { (.refl h : Untouched c n t c) with
    zone := fun name' zone' hz => by
      rw [Core.zone_dropZone] at hz
      split_ifs at hz
      exact .inl hz }

end Zones

/-! ## Entries that come without a write -/

section Notes

include h

/-- A temporary zone is put down to a request that has not been admitted. -/
lemma Shared.zoned {id : ℕ} (hn : n < c.nextUuid) (hid : id < c.nextUuid)
    (hadm : admitted n c.log = false) : Shared w (c.note (.Zoned n id)) :=
  { h with
    record_known := h.knows rfl rfl rfl
    disciplined := ⟨h.disciplined, nofun, nofun⟩
    zoned_lt := fun n' id' hz => by
      have hz' : (if n = n' then some id else zoneOf n' c.log) = some id' := hz
      split_ifs at hz' with heq
      · cases hz'
        exact ⟨heq ▸ hn, hid⟩
      · exact h.zoned_lt n' id' hz'
    temp := fun n' id' name zone hz hadm' => by
      have hz' : (if n = n' then some id else zoneOf n' c.log) = some id' := hz
      split_ifs at hz' with heq
      · subst heq
        rw [show admitted n (c.note (.Zoned n id)).log = admitted n c.log from rfl, hadm] at hadm'
        cases hadm'
      · exact h.temp n' id' name zone hz' hadm' }

/-- The first start of a reserved task. -/
lemma Shared.start (hnone : startsSince t c.log = 0) : Shared w (c.note (.Started t)) :=
  { h with
    record_known := h.knows rfl rfl rfl
    disciplined := ⟨h.disciplined, nofun, fun t' heq => by cases heq; exact hnone⟩ }

lemma untouched_start : Untouched c n t (c.note (.Started t)) :=
  { (.refl h : Untouched c n t c) with
    starts := fun _ hne => if_neg (Ne.symm hne) }

lemma Shared.crash : Shared w (c.note .Crashed) :=
  { h with
    record_known := h.knows rfl rfl rfl
    disciplined := ⟨h.disciplined, nofun, nofun⟩ }

lemma Shared.abandon : Shared w (c.note (.Abandoned n)) :=
  { h with
    record_known := h.knows rfl rfl rfl
    disciplined := ⟨h.disciplined, nofun, nofun⟩ }

lemma untouched_abandon {n₀ : ℕ} : Untouched c n₀ t (c.note (.Abandoned n)) :=
  { (.refl h : Untouched c n₀ t c) with
    lost := fun n' hlost => by
      show (decide (n = n') || Sandbox.lost n' c.log) = true
      rw [hlost, Bool.or_true] }

end Notes

/-! ## Containers -/

section Containers

variable {container : Container} {id : ℕ}

/-- `put_container`. -/
def Core.persist (c : Core) (container : Container) : Core :=
  { c with store := { c.store with metadata := c.store.metadata.putContainer container } }

def Core.createContainer (c : Core) (t : String) (container : Container) : Core :=
  { c.persist container with
    nextUuid := c.nextUuid + 1
    log := .Created t container.id :: c.log }

def Core.dropContainer (c : Core) (id : ℕ) : Core :=
  { c with store := { c.store with metadata := c.store.metadata.deleteContainer id } }

lemma Core.container_persist (id' : ℕ) :
    (c.persist container).container id' =
      if id' = container.id then some container else c.container id' :=
  Table.lookup_insert_ite _ _ _ _

lemma Core.container_dropContainer (id' : ℕ) :
    (c.dropContainer id).container id' = if id' = id then none else c.container id' :=
  Table.lookup_erase_ite _ _ _

include h

/-- A container is written back.  If a task created it, its record owns it. -/
lemma Shared.persist (hlt : container.id < c.nextUuid)
    (howns : ∀ t, creator container.id c.log = some t → container.name = containerName t ∧
      ∃ record, c.record t = some record ∧ record.owns container = true) :
    Shared w (c.persist container) :=
  { h with
    record_known := h.knows rfl rfl rfl
    container_lt := fun id' container' hc => by
      rw [Core.container_persist] at hc
      split_ifs at hc with heq
      · rw [heq]
        exact hlt
      · exact h.container_lt id' container' hc
    covered := fun t id' container' hcreated hc => by
      rw [Core.container_persist] at hc
      split_ifs at hc with heq
      · cases hc
        subst heq
        exact howns t hcreated
      · exact h.covered t id' container' hcreated hc }

/-- If a task created it, it is this one. -/
lemma untouched_persist (howner : ∀ t', creator container.id c.log = some t' → t' = t) :
    Untouched c n t (c.persist container) :=
  { (.refl h : Untouched c n t c) with
    container := fun t' id' container' hne hcreated hc => by
      rw [Core.container_persist] at hc
      split_ifs at hc with heq
      · subst heq
        exact absurd (howner t' hcreated) hne
      · exact hc }

omit h in
lemma creator_createContainer (t' : String) (id' : ℕ) :
    creator id' (c.createContainer t container).log = some t' ↔
      (id' = container.id ∧ t' = t) ∨ (id' ≠ container.id ∧ creator id' c.log = some t') := by
  show (if container.id = id' then some t else creator id' c.log) = some t' ↔ _
  by_cases heq : container.id = id'
  · simp [heq, eq_comm]
  · simp [heq, Ne.symm heq]

lemma untouched_createContainer (hid : container.id = c.nextUuid) :
    Untouched c n t (c.createContainer t container) :=
  { (.refl h : Untouched c n t c) with
    uuid := Nat.le_succ _
    created := fun t' id' hlt => by
      rw [creator_createContainer]
      have hne : id' ≠ container.id := by omega
      simp [hne]
    created_new := fun t' id' hne hcreated => by
      rcases (creator_createContainer t' id').mp hcreated with ⟨-, heq⟩ | ⟨-, hold⟩
      · exact absurd heq hne
      · exact h.created_lt t' id' hold
    container := fun t' id' container' hne hcreated hc => by
      have hc' : (c.persist container).container id' = some container' := hc
      have hlt := h.created_lt t' id' hcreated
      rw [Core.container_persist, if_neg (by omega)] at hc'
      exact hc' }

/-- A new container belongs to a task whose record owns it. -/
lemma Shared.createContainer {record : RecoveryRecord}
    (hid : container.id = c.nextUuid) (hname : container.name = containerName t)
    (hrecord : c.record t = some record) (howns : record.owns container = true) :
    Shared w (c.createContainer t container) := by
  have hu := untouched_createContainer (n := 0) (t := t) h hid
  exact { h.bump with
    container_lt := fun id' container' hc => by
      have hc' : (c.persist container).container id' = some container' := hc
      rw [Core.container_persist] at hc'
      split_ifs at hc' with heq
      · rw [heq, hid]
        exact Nat.lt_succ_self _
      · exact Nat.lt_succ_of_lt (h.container_lt id' container' hc')
    created_lt := fun t' id' hcreated => by
      rcases (creator_createContainer t' id').mp hcreated with ⟨heq, -⟩ | ⟨-, hold⟩
      · rw [heq, hid]
        exact Nat.lt_succ_self _
      · exact Nat.lt_succ_of_lt (h.created_lt t' id' hold)
    record_known := fun t' r hr => (h.record_known t' r hr).stable hu
    record_created := fun t' r id' hr hr' => by
      have hold := h.record_created t' r id' hr hr'
      exact (hu.created t' id' (h.created_lt t' id' hold)).mpr hold
    covered := fun t' id' container' hcreated hc => by
      have hc' : (c.persist container).container id' = some container' := hc
      rw [Core.container_persist] at hc'
      rcases (creator_createContainer t' id').mp hcreated with ⟨heq, rfl⟩ | ⟨hne, hold⟩
      · rw [if_pos heq] at hc'
        cases hc'
        exact ⟨hname, record, hrecord, howns⟩
      · rw [if_neg hne] at hc'
        exact h.covered t' id' container' hold hc'
    disciplined := ⟨h.disciplined, nofun, nofun⟩ }

lemma Shared.dropContainer : Shared w (c.dropContainer id) := by
  have hsome : ∀ id' container', (c.dropContainer id).container id' = some container' →
      c.container id' = some container' := by
    intro id' container' hc
    rw [Core.container_dropContainer] at hc
    split_ifs at hc
    exact hc
  exact { h with
    record_known := h.knows rfl rfl rfl
    container_lt := fun id' container' hc => h.container_lt id' container' (hsome _ _ hc)
    covered := fun t id' container' hcreated hc =>
      h.covered t id' container' hcreated (hsome _ _ hc) }

lemma untouched_dropContainer : Untouched c n t (c.dropContainer id) :=
  { (.refl h : Untouched c n t c) with
    container := fun t' id' container' _ _ hc => by
      rw [Core.container_dropContainer] at hc
      split_ifs at hc
      exact hc }

end Containers

end Writes

end Rauha.Sandbox
