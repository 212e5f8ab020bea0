import Rauha.Sandbox.Service
import Rauha.Shim.State

/-!
# Recovery at the start of the daemon

`recover_tasks` as one call from beginning to end: the records are worked on one after the other,
each with whatever the shims and the calls of the registry say meanwhile, and the first error ends
the daemon.

* `Outside`: which zones have a shim and processes, and the answers to the calls made for each task;
* `recoverTask`: one record, from the reserved result to the end of its clean-up;
* `Recoverable`: what has to be the case, in the state a record is met in, for its turn to succeed;
* `recovery_progress_iff`: recovery makes progress exactly if every record is recoverable at its
  turn.  One that is not, such as that of a task whose shim went with a reboot, is enough to keep
  the daemon from starting;
* `recoverTasks_leads`: where it makes progress, it goes through the steps of recovery that the
  system of `Service` takes.

The transactions of the store go through or refuse as they do in `Store`.
-/

namespace Rauha.Sandbox

open Shim (ShimResponse)
open Transition List

/-! ## The registry at start-up -/

inductive RecoverError where
  | ContainerNotFound (id : ℕ)
  | ZoneNotFound (zone : String)
  | ShimError (zone message : String)
  /-- The shim answers with something else than it was asked for. -/
  | Unexpected (zone : String) (response : ShimResponse)
  | Message (text : String)
  deriving DecidableEq, Repr

/-- What the calls made for one task come to: what the shim says about the state of its container
    when it is inspected, after a stop that failed and before the clean-up, and how stopping and
    deleting end. -/
structure Answers where
  inspected : Except String ShimResponse
  stopped : Except String Unit
  confirmed : Except String ShimResponse
  refreshed : Except String ShimResponse
  logs : CapturedLogs
  zoneDeleted : Except String Unit
  containerDeleted : Except String Unit
  /-- What a deletion that fails leaves. -/
  remains : Metadata

/-- **The host at daemon start**: zones whose shim can be connected to, processes in the zones, and
    the answers during the turn of each task. -/
structure Outside where
  shims : String → Except String Unit
  processes : String → ℕ
  answers : String → Answers

/-- What the daemon keeps.  Zones that could not be reconciled have no handle. -/
structure Recovery where
  store : Store
  handles : AList fun _ : String => ℕ

namespace Recovery

variable (s : Recovery)

def zoneNameForContainer (zoneId : ℕ) : Option String :=
  (s.handles.entries.find? (·.2 = zoneId)).map (·.1)

def withMetadata (metadata : Metadata) : Recovery :=
  { s with store := { s.store with metadata := metadata } }

/-- A container is written back as stopped. -/
def mark (container : Container) : Recovery :=
  s.withMetadata (s.store.metadata.putContainer { container with state := .Stopped })

end Recovery

/-- A call, and what follows if it returns without an error. -/
def andThen {α β : Type} (done : Except RecoverError α × Recovery)
    (next : α → Recovery → Except RecoverError β × Recovery) : Except RecoverError β × Recovery :=
  match done with
  | (.error e, s) => (.error e, s)
  | (.ok x, s) => next x s

/-- A call whose outcome is given. -/
def outcome (result : Except String Unit) (failed done : Recovery) :
    Except RecoverError Unit × Recovery :=
  match result with
  | .error e => (.error (.Message e), failed)
  | .ok () => (.ok (), done)

/-- A request to the shim of a zone. -/
def Outside.request (o : Outside) (zoneName : String) (answer : Except String ShimResponse) :
    Except RecoverError ShimResponse :=
  match o.shims zoneName, answer with
  | .error e, _ => .error (.ShimError zoneName e)
  | .ok (), .error e => .error (.ShimError zoneName e)
  | .ok (), .ok response => .ok response

section

variable (o : Outside) (a : Answers)

def getContainerState (answer : Except String ShimResponse) (id : ℕ) (s : Recovery) :
    Except RecoverError String × Recovery :=
  match s.store.metadata.containers.lookup id with
  | none => (.error (.ContainerNotFound id), s)
  | some container =>
    match s.zoneNameForContainer container.zoneId with
    | none => (.error (.ZoneNotFound (toString container.zoneId)), s)
    | some zoneName =>
      match o.request zoneName answer with
      | .error e => (.error e, s)
      | .ok (.State _ status _) =>
        (.ok status,
          if status = "stopped" ∧ container.state ≠ .Stopped then s.mark container else s)
      | .ok (.Error message) => (.error (.ShimError zoneName message), s)
      | .ok other => (.error (.Unexpected zoneName other), s)

/-- A deleted zone takes its containers along. -/
def deleteZone (zone : Zone) (s : Recovery) : Except RecoverError Unit × Recovery :=
  let ids := (s.store.metadata.listContainers (some zone.id)).map Container.id
  let metadata := (ids.foldl .deleteContainer s.store.metadata).deleteZone zone.name
  outcome a.zoneDeleted (s.withMetadata a.remains)
    { s.withMetadata metadata with handles := s.handles.erase zone.name }

/-! ## One record -/

/-- Each container is looked at once more, whatever comes of it, and deleted. -/
def deleteContainers : List Container → Recovery → Except RecoverError Unit × Recovery
  | [], s => (.ok (), s)
  | container :: rest, s =>
    let s := (getContainerState o a.refreshed container.id s).2
    andThen
      (outcome a.containerDeleted (s.withMetadata a.remains)
        (s.withMetadata (s.store.metadata.deleteContainer container.id)))
      fun _ s => deleteContainers rest s

/-- What a record stands for is removed. -/
def removeTask (record : RecoveryRecord) (s : Recovery) : Except RecoverError Unit × Recovery :=
  if record.cleanupZone then
    match s.store.metadata.getZone record.zoneName with
    | none => (.ok (), s)
    | some zone =>
      if zone.id = record.zoneId then deleteZone a zone s
      else (.error (.Message "recovery zone identity changed"), s)
  else
    match s.store.taskContainers record with
    | .error e => (.error (.Message e), s)
    | .ok containers => deleteContainers o a containers s

def cleanupRecoveredTask (record : RecoveryRecord) (s : Recovery) :
    Except RecoverError Unit × Recovery :=
  andThen (removeTask o a record s) fun _ s =>
    match s.store.taskContainers record with
    | .error e => (.error (.Message e), s)
    | .ok (_ :: _) => (.error (.Message "task container cleanup is incomplete"), s)
    | .ok [] =>
      match s.store.finishRecovery record.taskId with
      | .error e => (.error (.Message e), s)
      | .ok store => (.ok (), { s with store := store })

/-- The container of an interrupted task must not run any more.  Its exit may race the stop; then
    only a fresh confirmation of the shim lets recovery go on. -/
def settleContainer (container : Container) (s : Recovery) : Except RecoverError Unit × Recovery :=
  andThen (getContainerState o a.inspected container.id s) fun state s =>
    if state = "running" then
      match a.stopped with
      | .ok () => (.ok (), s.mark container)
      | .error e =>
        match getContainerState o a.confirmed container.id s with
        | (.ok "stopped", s) => (.ok (), s)
        | (_, s) => (.error (.Message e), s)
    else if state = "stopped" ∨ state = "created" then (.ok (), s)
    else (.error (.Message ("unknown recovered container state: " ++ state)), s)

variable (w : World)

def commitInterrupted (record : RecoveryRecord) (logs : Option CapturedLogs) (s : Recovery) :
    Except RecoverError Unit × Recovery :=
  match sealBoundedResult w.signer (interruptedResult record logs) record.receipt with
  | .error e => (.error (.Message e), s)
  | .ok sealed =>
    match s.store.saveResult record.taskId (w.signer.encode sealed) with
    | .error e => (.error (.Message e), s)
    | .ok store => (.ok (), { s with store := store })

/-- The result of an interrupted task is made up and saved. -/
def resolveInterrupted (record : RecoveryRecord) (s : Recovery) :
    Except RecoverError Unit × Recovery :=
  match s.store.taskContainers record with
  | .error e => (.error (.Message e), s)
  | .ok [] => commitInterrupted w record none s
  | .ok (container :: _) =>
    andThen (settleContainer o a container s) fun _ s =>
      commitInterrupted w record (some a.logs) s

end

section

variable (w : World) (o : Outside)

/-- **The turn of one record.** -/
def recoverTask (s : Recovery) (record : RecoveryRecord) : Except RecoverError Unit × Recovery :=
  let a := o.answers record.taskId
  match s.store.getResult record.taskId with
  | none =>
    (.error (.Message ("recovery record without reserved result: " ++ record.taskId)), s)
  | some [] =>
    andThen (resolveInterrupted o a w record s) fun _ s => cleanupRecoveredTask o a record s
  | some (_ :: _) => cleanupRecoveredTask o a record s

def recoverRecords : List RecoveryRecord → Recovery → Except RecoverError Unit × Recovery
  | [], s => (.ok (), s)
  | record :: rest, s =>
    andThen (recoverTask w o s record) fun _ s => recoverRecords rest s

/-- **Recovery.**  The daemon serves requests if it returns without an error. -/
def recoverTasks (s : Recovery) : Except RecoverError Unit × Recovery :=
  recoverRecords w o s.store.recoveryRecords s

end

/-! ## What has to be the case -/

section

variable (o : Outside) (a : Answers) (s : Recovery)

/-- What the shim of a container's zone says about its state, if the zone is known, has a shim, and
    the shim answers. -/
def Recovery.status (answer : Except String ShimResponse) (c : Container) : Option String :=
  match s.zoneNameForContainer c.zoneId with
  | none => none
  | some zoneName =>
    match o.request zoneName answer with
    | .ok (.State _ status _) => some status
    | _ => none

/-- **The workload is over**: the shim says so, or can stop it. -/
def Recovery.Settles (c : Container) : Prop :=
  s.status o a.inspected c = some "created" ∨ s.status o a.inspected c = some "stopped" ∨
    s.status o a.inspected c = some "running" ∧
      (a.stopped.isOk = true ∨ s.status o a.confirmed c = some "stopped")

/-- The interrupted task has a result that can be sealed and stored. -/
def Seals (w : World) (record : RecoveryRecord) (logs : Option CapturedLogs) : Prop :=
  ∃ sealed, sealBoundedResult w.signer (interruptedResult record logs) record.receipt = .ok sealed ∧
    w.signer.encode sealed ≠ [] ∧ (w.signer.encode sealed).length ≤ maxResultBytes

/-- What a record stands for can be removed. -/
def Recovery.Removes (record : RecoveryRecord) : Prop :=
  if record.cleanupZone then
    match s.store.metadata.getZone record.zoneName with
    | none => s.store.taskContainers record = .ok []
    | some zone => zone.id = record.zoneId ∧ a.zoneDeleted.isOk = true
  else
    match s.store.taskContainers record with
    | .error _ => False
    | .ok [] => True
    | .ok (_ :: _) => a.containerDeleted.isOk = true

/-- **A record is recoverable** in the state its turn starts from: its result is reserved; if there
    is only the reservation, the workload is over and the result can be sealed; and what it stands
    for can be removed. -/
def Recoverable (w : World) (s : Recovery) (record : RecoveryRecord) : Prop :=
  let a := o.answers record.taskId
  match s.store.getResult record.taskId with
  | none => False
  | some [] =>
    match s.store.taskContainers record with
    | .error _ => False
    | .ok [] => Seals w record none ∧ s.Removes a record
    | .ok (c :: _) => s.Settles o a c ∧ Seals w record (some a.logs) ∧ s.Removes a record
  | some (_ :: _) => s.Removes a record

/-- **No workload can be running**: the zone of the task has no shim and no process. -/
def Outside.Idle (record : RecoveryRecord) : Prop :=
  (o.shims record.zoneName).isOk = false ∧ o.processes record.zoneName = 0

/-- **Progress**: the daemon starts; every interrupted task whose workload cannot be running has its
    signed result; and a record is finished, or stays although its turn alone would have failed. -/
structure Progress (w : World) (s : Recovery) : Prop where
  starts : (recoverTasks w o s).1.isOk = true
  results : ∀ record ∈ s.store.recoveryRecords, s.store.getResult record.taskId = some [] →
    o.Idle record → ∃ logs sealed,
      sealBoundedResult w.signer (interruptedResult record logs) record.receipt = .ok sealed ∧
        (recoverTasks w o s).2.store.getResult record.taskId = some (w.signer.encode sealed)
  records : ∀ record ∈ s.store.recoveryRecords,
    (recoverTasks w o s).2.store.recovery.lookup record.taskId = none ∨
      (recoverTasks w o s).2.store.recovery.lookup record.taskId = some record ∧
        (recoverTask w o s record).1.isOk = false

end

/-! ## Steps of the service -/

/-- The service in the course of recovery. -/
def State.at (q : State) (s : Recovery) (todo : List RecoveryRecord) (stage : RecoverStage) :
    State :=
  { q with store := s.store }.recovering todo stage

/-- **Steps of recovery** lead from one state of the service to another. -/
abbrev Leads (w : World) : State → State → Prop :=
  Relation.ReflTransGen fun q q' => ∃ input, q' = step w q (.Recover input)

lemma Leads.next {w : World} {q q' : State} (input : Input)
    (h : Leads w (step w q (.Recover input)) q') : Leads w q q' :=
  .head ⟨input, rfl⟩ h

/-! ## The calls -/

@[simp] lemma isOk_ok {ε α : Type} (x : α) : (Except.ok x : Except ε α).isOk = true := rfl

@[simp] lemma isOk_error {ε α : Type} (e : ε) : (Except.error e : Except ε α).isOk = false := rfl

section

variable {α β : Type} {next : α → Recovery → Except RecoverError β × Recovery} {s : Recovery}

@[simp] lemma andThen_ok (x : α) : andThen (.ok x, s) next = next x s := rfl

@[simp] lemma andThen_error (e : RecoverError) : andThen (.error e, s) next = (.error e, s) := rfl

lemma andThen_assoc {γ : Type} {next' : β → Recovery → Except RecoverError γ × Recovery}
    (done : Except RecoverError α × Recovery) :
    andThen (andThen done next) next' = andThen done fun x s => andThen (next x s) next' := by
  rcases done with ⟨e | x, s⟩ <;> rfl

/-- **A call succeeds exactly if** `P` holds, and then leaves a state in `Q`. -/
def Turns (done : Except RecoverError α × Recovery) (P : Prop) (Q : Recovery → Prop) : Prop :=
  (done.1.isOk = true ↔ P) ∧ (P → Q done.2)

variable {done : Except RecoverError α × Recovery} {P P' : Prop} {Q Q' : Recovery → Prop}

lemma Turns.mono (h : Turns done P Q) (hP : P ↔ P') (hQ : ∀ s, Q s → Q' s) : Turns done P' Q' :=
  ⟨h.1.trans hP, fun hP' => hQ _ (h.2 (hP.mpr hP'))⟩

lemma Turns.andThen (h : Turns done P Q) (hnext : ∀ x s, Q s → Turns (next x s) P' Q') :
    Turns (andThen done next) (P ∧ P') Q' := by
  obtain ⟨hiff, hdone⟩ := h
  rcases done with ⟨e | x, s⟩
  · exact ⟨by simp [← hiff], fun hP => absurd (hiff.mpr hP.1) (by simp)⟩
  · have hP : P := hiff.mp rfl
    simpa [Turns, hP] using hnext x s (hdone hP)

end

section

variable {o : Outside} {a : Answers} {s : Recovery} {c : Container} {record : RecoveryRecord}
  {answer : Except String ShimResponse}

/-- The record of a container has become `state`, and nothing else has changed. -/
def Recovery.Became (s : Recovery) (c : Container) (state : ContainerState) (s' : Recovery) :
    Prop :=
  state = c.state ∧ s' = s ∨ state = .Stopped ∧ s' = s.mark c

/-- A container that the shim says has stopped is recorded as such. -/
lemma became_stopped : s.Became c .Stopped (if c.state ≠ .Stopped then s.mark c else s) := by
  split_ifs with hstate
  · exact .inr ⟨rfl, rfl⟩
  · exact .inl ⟨(not_not.mp hstate).symm, rfl⟩

/-- **What a query does**: it says what the shim says, and notes that a container has stopped. -/
lemma getContainerState_spec (answer : Except String ShimResponse)
    (hc : s.store.metadata.containers.lookup c.id = some c) :
    (∃ status, s.status o answer c = some status ∧ getContainerState o answer c.id s =
      (.ok status, if status = "stopped" ∧ c.state ≠ .Stopped then s.mark c else s)) ∨
    (s.status o answer c = none ∧ ∃ e, getContainerState o answer c.id s = (.error e, s)) := by
  unfold getContainerState Recovery.status
  simp only [hc]
  cases s.zoneNameForContainer c.zoneId with
  | none => exact .inr ⟨rfl, _, rfl⟩
  | some zoneName =>
    simp only
    cases o.request zoneName answer with
    | error e => exact .inr ⟨rfl, _, rfl⟩
    | ok response =>
      cases response with
      | State pid status exitCode => exact .inl ⟨status, rfl, rfl⟩
      | _ => exact .inr ⟨rfl, _, rfl⟩

lemma getContainerState_became (answer : Except String ShimResponse)
    (hc : s.store.metadata.containers.lookup c.id = some c) :
    ∃ state, s.Became c state (getContainerState o answer c.id s).2 := by
  rcases getContainerState_spec (o := o) answer hc with ⟨status, -, hget⟩ | ⟨-, e, hget⟩
  · rw [hget]
    by_cases hnews : status = "stopped" ∧ c.state ≠ .Stopped
    · exact ⟨.Stopped, .inr ⟨rfl, if_pos hnews⟩⟩
    · exact ⟨c.state, .inl ⟨rfl, if_neg hnews⟩⟩
  · exact ⟨c.state, .inl ⟨rfl, by rw [hget]⟩⟩

/-- **The workload of an interrupted task**: recovery goes on exactly if it is over. -/
lemma settleContainer_spec (hc : s.store.metadata.containers.lookup c.id = some c) :
    Turns (settleContainer o a c s) (s.Settles o a c) fun s' => ∃ state, s.Became c state s' := by
  unfold Turns settleContainer Recovery.Settles
  rcases getContainerState_spec (o := o) a.inspected hc with
    ⟨status, hstatus, hget⟩ | ⟨hstatus, e, hget⟩
  · simp only [hget, hstatus, Option.some.injEq, andThen_ok]
    by_cases hrunning : status = "running"
    · subst hrunning
      cases a.stopped with
      | ok u => simp [Recovery.Became]
      | error e =>
        simp only [String.reduceEq, false_and, if_false, if_true]
        rcases getContainerState_spec (o := o) a.confirmed hc with
          ⟨confirmed, hconfirmed, hagain⟩ | ⟨hconfirmed, e', hagain⟩
        · by_cases hstopped : confirmed = "stopped"
          · subst hstopped
            simp only [hagain, hconfirmed, true_and]
            exact ⟨by simp, fun _ => ⟨_, became_stopped⟩⟩
          · simp [hagain, hconfirmed, hstopped]
        · simp [hagain, hconfirmed]
    · by_cases hstopped : status = "stopped"
      · subst hstopped
        simp only [String.reduceEq, if_false, true_or, if_true, true_and]
        exact ⟨by simp, fun _ => ⟨_, became_stopped⟩⟩
      · by_cases hcreated : status = "created"
        · subst hcreated
          exact ⟨by simp, fun _ => ⟨c.state, .inl ⟨rfl, rfl⟩⟩⟩
        · simp [hrunning, hstopped, hcreated]
  · simp [hget, hstatus]

/-! ## The containers of a task -/

/-- Containers are listed once each. -/
lemma nodup_listContainers (metadata : Metadata) (zoneId : Option ℕ) :
    (metadata.listContainers zoneId).Nodup := by
  refine List.Nodup.filter _ (List.Nodup.of_map Container.id ?_)
  have hkeys : (metadata.containers.entries.map Sigma.snd).map Container.id =
      metadata.containers.keys := by
    rw [map_map]
    refine map_congr_left ?_
    rintro ⟨id, c⟩ hmem
    exact metadata.container_key id c (AList.mem_lookup_iff.mpr hmem)
  rw [hkeys]
  exact metadata.containers.keys_nodup

/-- The containers a record owns. -/
def Store.owned (store : Store) (record : RecoveryRecord) : List Container :=
  (store.metadata.listContainers (some record.zoneId)).filter record.owns

variable {store : Store}

/-- The containers that are looked up for a record are those it owns. -/
lemma taskContainers_eq :
    store.taskContainers record = if (store.owned record).length ≤ 1 then .ok (store.owned record)
      else .error "ambiguous task container ownership" := by
  unfold Store.taskContainers Store.owned
  rw [filter_congr (q := record.owns)]
  intro c hmem
  have hzone : c.zoneId = record.zoneId := by
    simpa using (Metadata.mem_listContainers.mp hmem).2
  simp only [RecoveryRecord.owns, hzone, decide_true, Bool.true_and]

lemma mem_owned : c ∈ store.owned record ↔
    store.metadata.containers.lookup c.id = some c ∧ record.owns c = true := by
  rw [Store.owned, mem_filter, Metadata.mem_listContainers, and_assoc]
  refine and_congr_right fun _ => and_iff_right_of_imp fun howns => ?_
  rw [RecoveryRecord.owns, Bool.and_eq_true] at howns
  simpa using howns.1

lemma taskContainers_nil
    (h : ∀ c, store.metadata.containers.lookup c.id = some c → record.owns c = false) :
    store.taskContainers record = .ok [] := by
  have hnil : store.owned record = [] := by
    refine eq_nil_iff_forall_not_mem.mpr fun c hmem => ?_
    obtain ⟨hc, howns⟩ := mem_owned.mp hmem
    rw [h c hc] at howns
    cases howns
  rw [taskContainers_eq, hnil]
  rfl

/-- A container that is the only one a record owns. -/
lemma taskContainers_singleton (hc : store.metadata.containers.lookup c.id = some c)
    (howns : record.owns c = true)
    (hunique : ∀ c', store.metadata.containers.lookup c'.id = some c' → record.owns c' = true →
      c'.id = c.id) : store.taskContainers record = .ok [c] := by
  have hnodup : (store.owned record).Nodup := (nodup_listContainers _ _).filter _
  have hsingleton : store.owned record = [c] := by
    refine perm_singleton.mp ((perm_ext_iff_of_nodup hnodup (nodup_singleton c)).mpr fun c' => ?_)
    rw [mem_owned, mem_singleton]
    constructor
    · rintro ⟨hc', howns'⟩
      rw [hunique c' hc' howns', hc] at hc'
      exact (Option.some.inj hc').symm
    · rintro rfl
      exact ⟨hc, howns⟩
  rw [taskContainers_eq, hsingleton]
  rfl

variable {rest : List Container}

/-- A record that owns a container owns no other one. -/
lemma taskContainers_cons (h : store.taskContainers record = .ok (c :: rest)) :
    rest = [] ∧ store.metadata.containers.lookup c.id = some c ∧ record.owns c = true ∧
      ∀ c', store.metadata.containers.lookup c'.id = some c' → record.owns c' = true → c' = c := by
  have hmem := Store.mem_taskContainers h
  have hrest : rest = [] := by
    rw [taskContainers_eq] at h
    split_ifs at h with hlength
    rw [Except.ok.inj h] at hlength
    exact length_eq_zero_iff.mp (by simpa using hlength)
  subst hrest
  obtain ⟨hc, howns⟩ := (hmem c).mp mem_cons_self
  exact ⟨rfl, hc, howns, fun c' hc' howns' => mem_singleton.mp ((hmem c').mpr ⟨hc', howns'⟩)⟩

lemma mark_lookup_self :
    (s.mark c).store.metadata.containers.lookup c.id = some { c with state := .Stopped } :=
  AList.lookup_insert _

variable {state : ContainerState} {s' : Recovery}

lemma Recovery.Became.lookup (h : s.Became c state s')
    (hc : s.store.metadata.containers.lookup c.id = some c) :
    s'.store.metadata.containers.lookup c.id = some { c with state := state } := by
  rcases h with ⟨rfl, rfl⟩ | ⟨rfl, rfl⟩
  · exact hc
  · exact mark_lookup_self

/-- The state of a container has no part in ownership. -/
lemma Recovery.Became.taskContainers (h : s.Became c state s')
    (hcs : s.store.taskContainers record = .ok (c :: rest)) :
    s'.store.taskContainers record = .ok [{ c with state := state }] := by
  obtain ⟨hrest, hc, howns, hunique⟩ := taskContainers_cons hcs
  refine taskContainers_singleton (h.lookup hc) howns fun c' hc' howns' => ?_
  rcases h with ⟨rfl, rfl⟩ | ⟨rfl, rfl⟩
  · rw [hunique c' hc' howns']
  · by_contra hne
    rw [hunique c' ((AList.lookup_insert_ne hne).symm.trans hc') howns'] at hne
    exact hne rfl

lemma lookup_foldl_deleteContainer (ids : List ℕ) (metadata : Metadata) (id : ℕ) :
    (ids.foldl .deleteContainer metadata).containers.lookup id =
      if id ∈ ids then none else metadata.containers.lookup id := by
  induction ids generalizing metadata with
  | nil => simp
  | cons first ids ih =>
    rw [foldl_cons, ih, Metadata.deleteContainer, Table.lookup_erase_ite]
    split_ifs <;> simp_all

/-- **Removal**: it succeeds and leaves no container exactly if all parts of it can be done. -/
lemma removeTask_spec :
    ((removeTask o a record s).1.isOk = true ∧
      (removeTask o a record s).2.store.taskContainers record = .ok []) ↔
      s.Removes a record := by
  unfold removeTask Recovery.Removes
  by_cases howner : record.cleanupZone = true
  · simp only [howner, if_true]
    cases hzone : s.store.metadata.getZone record.zoneName with
    | none => simp
    | some zone =>
      by_cases hid : zone.id = record.zoneId
      · simp only [hid, if_true, true_and, deleteZone, outcome]
        cases a.zoneDeleted with
        | error e => simp
        | ok u =>
          simp only [isOk_ok, true_and, iff_true]
          refine taskContainers_nil fun c hc => ?_
          by_contra howns
          have hmem : c.id ∉ (s.store.metadata.listContainers (some record.zoneId)).map
              Container.id ∧ s.store.metadata.containers.lookup c.id = some c := by
            have hc := (lookup_foldl_deleteContainer _ s.store.metadata c.id).symm.trans hc
            split_ifs at hc with hlisted
            exact ⟨hlisted, hc⟩
          refine hmem.1 (mem_map_of_mem ?_)
          exact mem_of_mem_filter (mem_owned.mpr ⟨hmem.2, by simpa using howns⟩)
      · simp [hid]
  · simp only [howner, if_false, Bool.false_eq_true]
    cases hcs : s.store.taskContainers record with
    | error e => simp
    | ok containers =>
      cases containers with
      | nil => simpa [deleteContainers] using hcs
      | cons c rest =>
        obtain ⟨rfl, hc, howns, -⟩ := taskContainers_cons hcs
        obtain ⟨state, hbecame⟩ := getContainerState_became (o := o) a.refreshed hc
        obtain ⟨-, -, -, hunique⟩ := taskContainers_cons (hbecame.taskContainers hcs)
        simp only [deleteContainers, outcome]
        cases a.containerDeleted with
        | error e => simp
        | ok u =>
          simp only [andThen_ok, isOk_ok, true_and, iff_true]
          refine taskContainers_nil fun c' hc' => ?_
          by_contra howns'
          by_cases hid : c'.id = c.id
          · rw [hid] at hc'
            exact absurd ((AList.lookup_erase _ _).symm.trans hc') (by simp)
          · have heq := hunique c' ((AList.lookup_erase_ne hid).symm.trans hc')
              (by simpa using howns')
            exact hid (by rw [heq])

variable {w : World} {q : State} {todo : List RecoveryRecord}

/-- The service notes what the shim says of a container. -/
lemma Recovery.Became.leads (h : s.Became c state s')
    (hc : s.store.metadata.containers.lookup c.id = some c) :
    Leads w (q.at s (record :: todo) (.Inspect c none))
      (q.at s' (record :: todo) (.Inspect c none)) ∧
    Leads w (q.at s (record :: todo) (.Clean (.Containers [c] none)))
      (q.at s' (record :: todo) (.Clean (.Containers [c] none))) := by
  rcases h with ⟨-, rfl⟩ | ⟨-, rfl⟩
  · exact ⟨.refl, .refl⟩
  · refine ⟨.next .Look (.next (.Persist .Stopped) ?_), .next .Look (.next (.Persist .Stopped) ?_)⟩
    all_goals
      simp only [step, State.at, State.recovering, stepRecover, cleanupStep, hc]
      exact .refl

lemma leads_zone (ids : List ℕ) (metadata : Metadata) :
    Leads w (q.at (s.withMetadata metadata) (record :: todo) (.Clean (.Zone ids)))
      (q.at (s.withMetadata ((ids.foldl .deleteContainer metadata).deleteZone record.zoneName))
        (record :: todo) (.Clean .Check)) := by
  induction ids generalizing metadata with
  | nil => exact .next .Pass .refl
  | cons id ids ih => exact .next .Pass (ih _)

/-- **Removal as steps** of the service. -/
lemma leads_removeTask (h : removeTask o a record s = (.ok (), s')) :
    Leads w (q.at s (record :: todo) (.Clean .Begin))
      (q.at s' (record :: todo) (.Clean .Check)) := by
  unfold removeTask at h
  refine .next .Pass ?_
  simp only [step, State.at, State.recovering, stepRecover, cleanupStep]
  by_cases howner : record.cleanupZone = true
  · simp only [howner, if_true] at h ⊢
    cases hzone : s.store.metadata.getZone record.zoneName with
    | none =>
      rw [hzone] at h
      cases h
      exact .refl
    | some zone =>
      simp only [hzone, deleteZone, outcome] at h ⊢
      rw [s.store.metadata.zone_key _ _ hzone] at h
      split at h
      · rename_i hid
        rw [if_pos hid]
        split at h
        · cases h
        · cases h
          exact leads_zone _ _
      · cases h
  · simp only [howner, if_false, Bool.false_eq_true] at h ⊢
    cases hcs : s.store.taskContainers record with
    | error e =>
      rw [hcs] at h
      cases h
    | ok containers =>
      simp only [hcs] at h ⊢
      cases containers with
      | nil =>
        cases h
        exact .next .Pass .refl
      | cons c rest =>
        obtain ⟨rfl, hc, -⟩ := taskContainers_cons hcs
        obtain ⟨state, hbecame⟩ := getContainerState_became (o := o) a.refreshed hc
        simp only [deleteContainers, outcome] at h
        split at h
        · cases h
        · cases h
          refine (hbecame.leads hc).2.trans (Leads.next .Pass ?_)
          simp only [step, State.at, State.recovering, stepRecover, cleanupStep,
            hbecame.lookup hc, Option.isSome_some, if_true]
          exact .next .Pass .refl

/-! ## What the calls leave alone -/

/-- Results and recovery records are as they were. -/
def Recovery.Kept (s s' : Recovery) : Prop :=
  s'.store.results = s.store.results ∧ s'.store.recovery = s.store.recovery

lemma Recovery.Became.kept (h : s.Became c state s') : s.Kept s' := by
  rcases h with ⟨-, rfl⟩ | ⟨-, rfl⟩ <;> exact ⟨rfl, rfl⟩

lemma getContainerState_kept (answer : Except String ShimResponse) (id : ℕ) :
    s.Kept (getContainerState o answer id s).2 := by
  unfold getContainerState
  repeat' split
  all_goals exact ⟨rfl, rfl⟩

lemma deleteContainers_kept (containers : List Container) :
    s.Kept (deleteContainers o a containers s).2 := by
  induction containers generalizing s with
  | nil => exact ⟨rfl, rfl⟩
  | cons c rest ih =>
    have hrefresh := getContainerState_kept (o := o) (s := s) a.refreshed c.id
    simp only [deleteContainers, outcome]
    cases a.containerDeleted with
    | error e => exact hrefresh
    | ok u => exact ⟨ih.1.trans hrefresh.1, ih.2.trans hrefresh.2⟩

lemma removeTask_kept : s.Kept (removeTask o a record s).2 := by
  unfold removeTask deleteZone outcome
  repeat' split
  all_goals first
    | exact ⟨rfl, rfl⟩
    | exact deleteContainers_kept _

/-! ## The turn of a record -/

/-- **The clean-up** of a task that has a result. -/
lemma cleanupRecoveredTask_spec {bytes : List UInt8} (hne : bytes ≠ [])
    (hresult : s.store.getResult record.taskId = some bytes) :
    Turns (cleanupRecoveredTask o a record s) (s.Removes a record) fun s' =>
      s'.store.results = s.store.results ∧
      s'.store.recovery = s.store.recovery.erase record.taskId ∧
      ∀ (q : State) todo,
        Leads w (q.at s (record :: todo) (.Clean .Begin)) (q.at s' todo .Next) := by
  have hkept : s.Kept (removeTask o a record s).2 := removeTask_kept
  rw [← removeTask_spec (o := o)]
  unfold Turns cleanupRecoveredTask
  rcases hcall : removeTask o a record s with ⟨result, s'⟩
  rw [hcall] at hkept
  cases result with
  | error e => simp
  | ok u =>
    simp only [andThen_ok, isOk_ok, true_and]
    cases hcs : s'.store.taskContainers record with
    | error e => simp
    | ok containers =>
      cases containers with
      | cons c rest => simp
      | nil =>
        obtain ⟨byte, rest, rfl⟩ := exists_cons_of_ne_nil hne
        have hresult' : s'.store.getResult record.taskId = some (byte :: rest) := by
          rw [Store.getResult, hkept.1]
          exact hresult
        simp only [Store.finishRecovery, hresult', isOk_ok, forall_const]
        refine ⟨trivial, hkept.1, ?_, fun q todo => (leads_removeTask hcall).trans ?_⟩
        · rw [← hkept.2]
          rfl
        · refine Leads.next .Pass (.next .Pass ?_)
          simp only [step, State.at, State.recovering, stepRecover, cleanupStep, hcs,
            Store.finishRecovery, hresult']
          exact .refl

/-- The result of an interrupted task is in the store. -/
def Recovery.Committed (w : World) (s : Recovery) (record : RecoveryRecord) : Prop :=
  ∃ logs sealed, w.signer.encode sealed ≠ [] ∧
    sealBoundedResult w.signer (interruptedResult record logs) record.receipt = .ok sealed ∧
      s.store.getResult record.taskId = some (w.signer.encode sealed)

lemma commitInterrupted_spec (logs : Option CapturedLogs)
    (hempty : s.store.getResult record.taskId = some []) :
    Turns (commitInterrupted w record logs s) (Seals w record logs) fun s' =>
      ∃ results, s' = { s with store := { s.store with results := results } } ∧
        s'.Committed w record ∧
        (∀ id, id ≠ record.taskId → results.lookup id = s.store.getResult id) ∧
        ∀ (q : State) todo, Leads w (q.at s (record :: todo) (.Save logs.isSome))
          (q.at s' (record :: todo) (.Clean .Begin)) := by
  unfold Turns commitInterrupted Seals
  cases hseal : sealBoundedResult w.signer (interruptedResult record logs) record.receipt with
  | error e => simp
  | ok sealed =>
    simp only [Except.ok.injEq, exists_eq_left', Store.saveResult, hempty, if_true,
      Bool.or_eq_true, List.isEmpty_iff, decide_eq_true_eq]
    split_ifs with hrefused
    · have hfits : ¬(w.signer.encode sealed ≠ [] ∧
          (w.signer.encode sealed).length ≤ maxResultBytes) := fun h =>
        hrefused.elim h.1 (Nat.not_lt.mpr h.2)
      exact ⟨by simpa using hfits, fun h => absurd h hfits⟩
    · rw [not_or] at hrefused
      refine ⟨by simpa using hrefused, fun _ => ⟨_, rfl, ⟨logs, sealed, hrefused.1, hseal, ?_⟩,
        fun id hid => AList.lookup_insert_ne hid, fun q todo => ?_⟩⟩
      · exact AList.lookup_insert _
      · have hlogs : (if logs.isSome then some (logs.getD ⟨[], [], []⟩) else none) = logs := by
          cases logs <;> rfl
        refine .next (.Logs (logs.getD ⟨[], [], []⟩)) ?_
        simp only [step, State.at, State.recovering, stepRecover, hlogs, hseal, Store.saveResult,
          hempty, if_true, hrefused, Bool.or_eq_true, List.isEmpty_iff, decide_eq_true_eq, or_self,
          if_false]
        exact .refl

/-- What a record stands for can be removed later if it can be removed now. -/
lemma Recovery.Became.removes {s₁ : Recovery} (h : s.Became c state s₁)
    (hcs : s.store.taskContainers record = .ok (c :: rest)) :
    s₁.Removes a record ↔ s.Removes a record := by
  have hcs₁ := h.taskContainers hcs
  have hzones : s₁.store.metadata.getZone = s.store.metadata.getZone := by
    rcases h with ⟨-, rfl⟩ | ⟨-, rfl⟩ <;> rfl
  unfold Recovery.Removes
  rw [hzones, hcs₁, hcs]
  simp only [Except.ok.injEq, reduceCtorEq]

/-- What a turn leaves: a result where there was none, no record, and everything of the other
    tasks. -/
structure TurnDone (w : World) (s : Recovery) (record : RecoveryRecord) (s' : Recovery) : Prop where
  result : s.store.getResult record.taskId = some [] → s'.Committed w record
  others : ∀ id, id ≠ record.taskId → s'.store.getResult id = s.store.getResult id
  recovery : s'.store.recovery = s.store.recovery.erase record.taskId

/-- Committing the result of an interrupted task and cleaning up after it. -/
lemma commit_cleanup (logs : Option CapturedLogs)
    (hempty : s.store.getResult record.taskId = some []) :
    Turns (andThen (commitInterrupted w record logs s) fun _ s => cleanupRecoveredTask o a record s)
      (Seals w record logs ∧ s.Removes a record) fun s' => TurnDone w s record s' ∧
        ∀ (q : State) todo,
          Leads w (q.at s (record :: todo) (.Save logs.isSome)) (q.at s' todo .Next) := by
  refine (commitInterrupted_spec logs hempty).andThen ?_
  rintro _ _ ⟨results, rfl, ⟨logs', sealed, hne, hseal, hresult⟩, hothers, hsave⟩
  refine (cleanupRecoveredTask_spec (w := w) hne hresult).mono .rfl ?_
  rintro s' ⟨hresults, hrecord, hclean⟩
  refine ⟨⟨fun _ => ⟨logs', sealed, hne, hseal, ?_⟩, fun id hid => ?_, hrecord⟩,
    fun q todo => (hsave q todo).trans (hclean q todo)⟩
  · rw [Store.getResult, hresults]
    exact hresult
  · rw [Store.getResult, hresults]
    exact hothers id hid

/-- **One turn**: it succeeds exactly if the record is recoverable. -/
lemma recoverTask_spec (w : World) (o : Outside) (s : Recovery) (record : RecoveryRecord) :
    Turns (recoverTask w o s record) (Recoverable o w s record) fun s' => TurnDone w s record s' ∧
      ∀ (q : State) todo, Leads w (q.at s (record :: todo) .Next) (q.at s' todo .Next) := by
  unfold recoverTask Recoverable
  cases hresult : s.store.getResult record.taskId with
  | none => simp [Turns]
  | some bytes =>
    cases bytes with
    | nil =>
      unfold resolveInterrupted
      cases hcs : s.store.taskContainers record with
      | error e => simp [Turns]
      | ok containers =>
        cases containers with
        | nil =>
          refine (commit_cleanup none hresult).mono .rfl fun s' hdone => ⟨hdone.1, fun q todo => ?_⟩
          refine .next .Pass ?_
          simp only [step, State.at, State.recovering, stepRecover, hresult, hcs]
          exact hdone.2 q todo
        | cons c rest =>
          obtain ⟨-, hc, -⟩ := taskContainers_cons hcs
          simp only [andThen_assoc]
          refine (settleContainer_spec hc).andThen ?_
          rintro _ s₁ ⟨state, hbecame⟩
          have hsame : ∀ id, s₁.store.getResult id = s.store.getResult id := by
            intro id
            rw [Store.getResult, hbecame.kept.1]
            rfl
          refine (commit_cleanup _ ((hsame record.taskId).trans hresult)).mono
            (and_congr_right fun _ => hbecame.removes hcs) ?_
          rintro s' ⟨⟨hcommitted, hothers, hrecovery⟩, hsteps⟩
          refine ⟨⟨fun _ => hcommitted ((hsame _).trans hresult),
            fun id hid => (hothers id hid).trans (hsame id), by rw [hrecovery, hbecame.kept.2]⟩,
            fun q todo => .next .Pass ?_⟩
          simp only [step, State.at, State.recovering, stepRecover, hresult, hcs]
          exact (hbecame.leads hc).1.trans (Leads.next .Pass (hsteps q todo))
    | cons byte bytes =>
      refine (cleanupRecoveredTask_spec (w := w) (cons_ne_nil byte bytes) hresult).mono .rfl ?_
      rintro s' ⟨hresults, hrecovery, hsteps⟩
      refine ⟨⟨by simp [hresult], fun id _ => ?_, hrecovery⟩, fun q todo => .next .Pass ?_⟩
      · rw [Store.getResult, hresults]
        rfl
      · simp only [step, State.at, State.recovering, stepRecover, hresult]
        exact hsteps q todo

/-! ## All records -/

/-- The state after the turn of a record. -/
def afterTurn (w : World) (o : Outside) (s : Recovery) (record : RecoveryRecord) : Recovery :=
  (recoverTask w o s record).2

variable (w o)

lemma recoverRecords_cons (s : Recovery) (record : RecoveryRecord) (rest : List RecoveryRecord)
    (hok : (recoverTask w o s record).1.isOk = true) :
    recoverRecords w o (record :: rest) s = recoverRecords w o rest (afterTurn w o s record) := by
  rw [recoverRecords, afterTurn]
  rcases hcall : recoverTask w o s record with ⟨e | u, s'⟩
  · rw [hcall] at hok
    cases hok
  · rfl

/-- **The loop** goes through exactly if every record is recoverable at its turn. -/
lemma recoverRecords_isOk (records : List RecoveryRecord) (s : Recovery) :
    (recoverRecords w o records s).1.isOk = true ↔
      Meets (afterTurn w o) (Recoverable o w) s records := by
  induction records generalizing s with
  | nil => simp [recoverRecords, Meets]
  | cons record rest ih =>
    obtain ⟨hiff, -⟩ := recoverTask_spec w o s record
    rw [Meets, ← hiff, recoverRecords, afterTurn]
    rcases recoverTask w o s record with ⟨e | u, s'⟩
    · simp
    · simpa using ih s'

/-- What the loop leaves if it goes through. -/
lemma recoverRecords_done (records : List RecoveryRecord)
    (hnodup : (records.map RecoveryRecord.taskId).Nodup) (s : Recovery)
    (hok : (recoverRecords w o records s).1.isOk = true) :
    (∀ id, id ∉ records.map RecoveryRecord.taskId →
      (recoverRecords w o records s).2.store.getResult id = s.store.getResult id) ∧
    (∀ id, s.store.recovery.lookup id = none →
      (recoverRecords w o records s).2.store.recovery.lookup id = none) ∧
    (∀ record ∈ records,
      (recoverRecords w o records s).2.store.recovery.lookup record.taskId = none ∧
      (s.store.getResult record.taskId = some [] →
        (recoverRecords w o records s).2.Committed w record)) ∧
    ∀ q : State,
      Leads w (q.at s records .Next) (q.at (recoverRecords w o records s).2 [] .Next) := by
  induction records generalizing s with
  | nil => simp [recoverRecords, Relation.ReflTransGen.refl]
  | cons record rest ih =>
    rw [map_cons, nodup_cons] at hnodup
    have hturn := ((recoverRecords_isOk o w _ s).mp hok).1
    obtain ⟨hiff, hdone⟩ := recoverTask_spec w o s record
    obtain ⟨⟨hresult, hothers, hrecovery⟩, hsteps⟩ := hdone hturn
    rw [recoverRecords_cons o w s record rest (hiff.mpr hturn)] at hok ⊢
    obtain ⟨hresults, hnone, hrecords, hrest⟩ := ih hnodup.2 (afterTurn w o s record) hok
    have hgone : (afterTurn w o s record).store.recovery.lookup record.taskId = none := by
      rw [afterTurn, hrecovery]
      exact AList.lookup_erase _ _
    refine ⟨fun id hid => ?_, fun id hid => hnone id ?_, ?_,
      fun q => (hsteps q rest).trans (hrest q)⟩
    · rw [map_cons, mem_cons, not_or] at hid
      exact (hresults id hid.2).trans (hothers id hid.1)
    · by_cases heq : id = record.taskId
      · rw [heq]
        exact hgone
      · rw [afterTurn, hrecovery, AList.lookup_erase_ne heq]
        exact hid
    · intro r hr
      rcases mem_cons.mp hr with rfl | hr
      · refine ⟨hnone _ hgone, fun hempty => ?_⟩
        obtain ⟨logs, sealed, hne, hseal, hstored⟩ := hresult hempty
        exact ⟨logs, sealed, hne, hseal, (hresults _ hnodup.1).trans hstored⟩
      · obtain ⟨hrecord, hcommitted⟩ := hrecords r hr
        refine ⟨hrecord, fun hempty => hcommitted ?_⟩
        refine (hothers r.taskId fun heq => hnodup.1 ?_).trans hempty
        exact heq ▸ mem_map_of_mem hr

end

/-- **Recovery as a part of the service.**  Where it makes progress, steps of recovery bring the
    service up on the same store. -/
theorem recoverTasks_leads {w : World} {o : Outside} {s : Recovery} (h : Progress o w s)
    {q : State} (hdown : q.mode = .Down) (hstore : q.store = s.store) :
    Leads w (step w q .Boot)
      { q with store := (recoverTasks w o s).2.store, mode := .Serving } := by
  obtain ⟨-, -, -, hsteps⟩ :=
    recoverRecords_done o w s.store.recoveryRecords Store.nodup_recoveryRecords s h.starts
  have hboot : step w q .Boot = q.at s s.store.recoveryRecords .Next := by
    simp only [step, hdown, State.at, State.recovering, ← hstore]
  rw [hboot]
  exact (hsteps q).trans (Leads.next .Pass .refl)

/-! ## After a reboot -/

namespace Rebooted

/-- A task that was interrupted in a zone of its own. -/
def record (taskId zoneName : String) (zoneId : ℕ) : RecoveryRecord where
  zoneName := zoneName
  containerId := none
  cleanupZone := true
  command := ["make"]
  admission := .Strict
  receipt := ⟨taskId, zoneId, "", false, "", "", none, none, none, [], [], default⟩

def zone (id : ℕ) (name : String) : Zone :=
  ⟨id, name, .NonGlobal, ⟨.Strict, [], ⟨.Isolated, [], [], []⟩, [], []⟩, none⟩

/-- Two tasks were admitted before the reboot; one of them had its container already. -/
def store : Store where
  metadata := ((Metadata.empty.putZone (zone 1 "zone-a")).putZone (zone 2 "zone-b")).putContainer
    ⟨7, "task-a-task", 1, .Running⟩
  results := ((∅ : AList fun _ : String => List UInt8).insert "task-a" []).insert "task-b" []
  recovery := ∅
  recovery_key := Store.recovery_key_empty

/-- Both zones have been reconciled. -/
def recovery : Recovery where
  store := (store.withRecord (record "task-b" "zone-b" 2)).withRecord (record "task-a" "zone-a" 1)
  handles := ((∅ : AList fun _ : String => ℕ).insert "zone-a" 1).insert "zone-b" 2

def world : World := plainWorld

end Rebooted

end Rauha.Sandbox
