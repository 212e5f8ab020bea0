import Rauha.Backend.Registry
import Rauha.Sandbox.Seal

/-!
# Results and recovery records

Two further tables of the metadata store.  A result that is present and empty is a reservation; a
recovery record is the write-ahead context of a task that may have been executed.  Each function is
one transaction: it commits as a whole or refuses and changes nothing.

The lemmas `reserveResult_ok` to `finishRecovery_ok` say what a transaction that went through found
and what it left.
-/

namespace Rauha.Sandbox

/-- The context of an admitted task. -/
structure RecoveryRecord where
  zoneName : String
  containerId : Option ℕ
  cleanupZone : Bool
  command : List String
  admission : PolicyAdmission
  receipt : ReceiptPayload
  deriving DecidableEq, Repr

namespace RecoveryRecord

/-- The task and the zone are those of the receipt. -/
abbrev taskId (self : RecoveryRecord) : String := self.receipt.taskId

abbrev zoneId (self : RecoveryRecord) : ℕ := self.receipt.zoneId

end RecoveryRecord

/-- The name of a task's container. -/
def containerName (taskId : String) : String := taskId ++ "-task"

lemma containerName_inj {a b : String} (h : containerName a = containerName b) : a = b := by
  unfold containerName at h
  have hlist := congrArg String.toList h
  rw [String.toList_append, String.toList_append, List.append_left_inj] at hlist
  exact String.toList_inj.mp hlist

/-- **Ownership**: a container of the record's zone with the id on record or, while there is none,
    with the task's container name. -/
def RecoveryRecord.owns (self : RecoveryRecord) (container : Container) : Bool :=
  container.zoneId = self.zoneId &&
    match self.containerId with
    | some id => container.id = id
    | none => container.name = containerName self.taskId

/-- **The metadata store.** -/
structure Store where
  metadata : Metadata
  results : AList fun _ : String => List UInt8
  recovery : AList fun _ : String => RecoveryRecord
  recovery_key : ∀ id record, recovery.lookup id = some record → record.taskId = id

namespace Store

lemma recovery_key_empty (id : String) (record : RecoveryRecord)
    (h : (∅ : AList fun _ : String => RecoveryRecord).lookup id = some record) :
    record.taskId = id := by
  simp at h

/-- Addition on `usize` that stops at the largest value. -/
def saturatingAdd (a b : ℕ) : ℕ := min (a + b) (2 ^ 64 - 1)

variable (self : Store)

def getResult (id : String) : Option (List UInt8) := self.results.lookup id

def hasRecovery (id : String) : Bool := (self.recovery.lookup id).isSome

def recoveryRecords : List RecoveryRecord := self.recovery.entries.map Sigma.snd

/-- What an entry counts for: its bytes, or the whole budget while it may still grow. -/
def charge (id : String) (bytes : List UInt8) : ℕ :=
  if bytes.isEmpty || self.hasRecovery id then maxResultBytes else bytes.length

def usedBytes : ℕ :=
  self.results.entries.foldl (fun used entry => saturatingAdd used (self.charge entry.1 entry.2)) 0

/-- `false` if the id is in use. -/
def reserveResult (id : String) (maxBytes : ℕ) : Except String (Bool × Store) :=
  if (self.getResult id).isSome then .ok (false, self)
  else if saturatingAdd self.usedBytes maxResultBytes ≤ maxBytes then
    .ok (true, { self with results := self.results.insert id [] })
  else .error
    "result capacity exhausted; delete retained results before starting another task"

def saveResult (id : String) (bytes : List UInt8) : Except String Store :=
  if bytes.isEmpty || maxResultBytes < bytes.length then .error "result exceeds wire budget"
  else if self.getResult id = some [] then .ok { self with results := self.results.insert id bytes }
  else .error "result reservation missing or already completed"

def deleteResult (id : String) : Except String (Bool × Store) :=
  if self.hasRecovery id then .error "task still requires recovery or cleanup"
  else if (self.getResult id).isSome then
    .ok (true, { self with results := self.results.erase id })
  else .ok (false, self)

def withRecord (record : RecoveryRecord) : Store :=
  { self with
    recovery := self.recovery.insert record.taskId record
    recovery_key := Table.named_insert self.recovery_key record }

def withoutRecord (id : String) : Store :=
  { self with
    recovery := self.recovery.erase id
    recovery_key := Table.named_erase self.recovery_key id }

/-- `size` is the length of the record's JSON text. -/
def putRecovery (size : RecoveryRecord → ℕ) (record : RecoveryRecord) : Except String Store :=
  if maxResultBytes < size record then .error "recovery context exceeds metadata budget"
  else if self.getResult record.taskId = some [] then .ok (self.withRecord record)
  else .error "recovery context requires an unfinished result reservation"

def finishRecovery (id : String) : Except String Store :=
  match self.getResult id with
  | some (_ :: _) => .ok (self.withoutRecord id)
  | _ => .error "cannot discard recovery context before result commit"

/-- The containers of a task; there must not be two. -/
def taskContainers (record : RecoveryRecord) : Except String (List Container) :=
  let containers := (self.metadata.listContainers (some record.zoneId)).filter fun container =>
    match record.containerId with
    | some id => container.id = id
    | none => container.name = containerName record.taskId
  if containers.length ≤ 1 then .ok containers else .error "ambiguous task container ownership"

/-! ## What the transactions do -/

section Specification

variable {self} {store : Store} {id : String} {bytes : List UInt8} {record : RecoveryRecord}

lemma reserveResult_ok {maxBytes : ℕ} (h : self.reserveResult id maxBytes = .ok (true, store)) :
    self.getResult id = none ∧ store = { self with results := self.results.insert id [] } := by
  unfold reserveResult at h
  split_ifs at h with hsome
  · cases h
  · cases h
    exact ⟨by simpa using hsome, rfl⟩

lemma saveResult_ok (h : self.saveResult id bytes = .ok store) :
    bytes ≠ [] ∧ self.getResult id = some [] ∧
      store = { self with results := self.results.insert id bytes } := by
  unfold saveResult at h
  split_ifs at h with hbytes hempty
  cases h
  refine ⟨fun hnil => ?_, hempty, rfl⟩
  simp [hnil] at hbytes

lemma deleteResult_ok (h : self.deleteResult id = .ok (true, store)) :
    self.recovery.lookup id = none ∧ self.getResult id ≠ none ∧
      store = { self with results := self.results.erase id } := by
  unfold deleteResult at h
  split_ifs at h with hrecord hsome
  · cases h
    exact ⟨by simpa [hasRecovery] using hrecord, Option.isSome_iff_ne_none.mp hsome, rfl⟩
  · cases h

lemma putRecovery_ok {size : RecoveryRecord → ℕ} (h : self.putRecovery size record = .ok store) :
    self.getResult record.taskId = some [] ∧ store = self.withRecord record := by
  unfold putRecovery at h
  split_ifs at h with hsize hempty
  cases h
  exact ⟨hempty, rfl⟩

lemma finishRecovery_ok (h : self.finishRecovery id = .ok store) :
    (∃ bytes, self.getResult id = some bytes ∧ bytes ≠ []) ∧ store = self.withoutRecord id := by
  unfold finishRecovery at h
  split at h
  · rename_i byte rest hresult
    cases h
    exact ⟨⟨_, hresult, by simp⟩, rfl⟩
  · cases h

/-- **The containers found are those the record owns.** -/
lemma mem_taskContainers {containers : List Container}
    (h : self.taskContainers record = .ok containers) (container : Container) :
    container ∈ containers ↔
      self.metadata.containers.lookup container.id = some container ∧
        record.owns container = true := by
  unfold taskContainers at h
  simp only at h
  split_ifs at h
  cases h
  rw [List.mem_filter, Metadata.mem_listContainers, RecoveryRecord.owns, Bool.and_eq_true]
  cases record.containerId <;> simp [and_assoc]

lemma mem_recoveryRecords :
    record ∈ self.recoveryRecords ↔ self.recovery.lookup record.taskId = some record := by
  unfold recoveryRecords
  rw [List.mem_map]
  constructor
  · rintro ⟨⟨id, r⟩, hmem, rfl⟩
    have hlookup := AList.mem_lookup_iff.mpr hmem
    rw [self.recovery_key id r hlookup]
    exact hlookup
  · intro h
    exact ⟨⟨record.taskId, record⟩, AList.mem_lookup_iff.mp h, rfl⟩

lemma nodup_recoveryRecords : (self.recoveryRecords.map RecoveryRecord.taskId).Nodup := by
  have hkeys : self.recoveryRecords.map RecoveryRecord.taskId = self.recovery.keys := by
    unfold recoveryRecords AList.keys List.keys
    rw [List.map_map]
    refine List.map_congr_left ?_
    rintro ⟨id, r⟩ hmem
    exact self.recovery_key id r (AList.mem_lookup_iff.mpr hmem)
  rw [hkeys]
  exact self.recovery.keys_nodup

end Specification

end Store

end Rauha.Sandbox
