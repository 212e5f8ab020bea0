import Rauha.Sandbox.Store

/-!
# The sandbox service

`run_owned`, `execute_task`, `delete_sandbox_result`, `recover_tasks` and what they leave running,
as a system of processes over one store.  Each request is a thread that stands at a point of
`run_owned` (`Pc`); one step takes it over the next call, which goes through or fails as the
`Input` says.  Steps of different threads interleave in any order, the daemon can crash between
any two of them, and recovery takes such steps as well.

* A failed transaction has changed nothing.  What a call returns besides (reports, logs, states
  the shim names) is part of the input, so every answer is considered.
* Metadata of a container is written back from a copy read earlier (`seen`), as the registry does.
* Locks on zones are left out, which only adds interleavings.  Reserving, releasing and deleting a
  result hold the lock of the active set throughout, and are one step each.
* Identifiers are numbers handed out once.  The random name of a temporary zone is assumed to be one
  that no zone ever had, or that of a zone which is there, and then it is refused.

The `log` records what happened, the latest first.  No step reads it.
-/

namespace Rauha.Sandbox

/-! ## Requests -/

/-- A zone made for the task, or one that is there. -/
inductive ZoneChoice where
  | Temporary (keepZone : Bool)
  | Named (name : String)
  deriving DecidableEq, Repr

/-- A request to run a task. -/
structure Request where
  taskId : String
  zone : ZoneChoice
  command : List String
  audit : Bool
  deriving DecidableEq, Repr

/-- What the daemon is configured with, and the parts of it that are left abstract: the JSON length
    of a record, the signer, and the hashes a receipt starts from. -/
structure World where
  resultsMaxBytes : ℕ
  recordSize : RecoveryRecord → ℕ
  signer : Signer
  recoveryReceipt : Request → ZonePolicy → List String → ReceiptPayload

/-- Lower-case digits. -/
def isHexDigit (c : Char) : Bool := ('0' ≤ c && c ≤ '9') || ('a' ≤ c && c ≤ 'f')

/-- `task-` and a UUID in its canonical form. -/
def validTaskId (id : String) : Bool :=
  match id.toList with
  | 't' :: 'a' :: 's' :: 'k' :: '-' :: uuid =>
    uuid.length = 36 && uuid.zipIdx.all fun (c, i) =>
      if i = 8 || i = 13 || i = 18 || i = 23 then c = '-' else isHexDigit c
  | _ => false

/-- The policy of a temporary zone. -/
def Request.policy (self : Request) : ZonePolicy :=
  ⟨if self.audit then .Audit else .Strict, [], ⟨.Isolated, [], [], []⟩, [], []⟩

/-- Whether the zone of a request is to be deleted with it. -/
def Request.ownsZone (self : Request) : Bool := self.zone = .Temporary false

/-- What is written before anything of the task is made. -/
def World.recoveryRecord (self : World) (request : Request) (zone : Zone)
    (unavailableControls : List String) : RecoveryRecord where
  zoneName := zone.name
  containerId := none
  cleanupZone := request.ownsZone
  command := request.command
  admission := zone.policy.admission
  receipt :=
    { self.recoveryReceipt request zone.policy unavailableControls with
      taskId := request.taskId
      zoneId := zone.id }

/-- The result of a task that was interrupted, before sealing. -/
def runtimeError (record : RecoveryRecord) : SandboxResult where
  taskId := record.taskId
  zoneId := record.zoneId
  command := record.command
  status := "runtime_error"
  exitCode := none
  stdout := []
  stderr := []
  durationMs := 0
  startedAt := ""
  finishedAt := ""
  events := []
  enforcementEvents := []
  admission := record.admission
  unavailableControls := record.receipt.unavailableControls
  receiptJson := ""
  receiptDsseJson := ""
  captureIssues := []

/-- A result with both receipts must fit a quarter of the budget before anything runs. -/
def World.validateRecoveryBudget (self : World) (record : RecoveryRecord) : Bool :=
  match sealBoundedResult self.signer (runtimeError record) record.receipt with
  | .ok result => (self.signer.encode result).length ≤ maxResultBytes / 4
  | .error _ => false

/-- The logs of a container, and what reading them met. -/
structure CapturedLogs where
  stdout : List Char
  stderr : List Char
  issues : List String
  deriving DecidableEq, Repr

/-- What recovery says about a task, with the logs if its container was found. -/
def interruptedResult (record : RecoveryRecord) (logs : Option CapturedLogs) : SandboxResult :=
  let issues := ["runtime.interrupted", "execution.outcome_unknown",
    "enforcement_events.recovery_gap"]
  let result := { runtimeError record with events := ["task.recovered"] }
  match logs with
  | some logs =>
    { result with
      stdout := logs.stdout
      stderr := logs.stderr
      captureIssues := issues ++ logs.issues ++ ["broker.recovery_gap"] }
  | none => { result with captureIssues := issues ++ ["output.unavailable_after_interruption"] }

/-! ## Processes -/

/-- What happens to the call a process stands before. -/
inductive Input where
  | Pass
  | Fail
  /-- The call reports an error although it took effect. -/
  | Late
  /-- A random zone name, and the network the zone gets. -/
  | Draw (name : String) (net : Option ZoneNetworkState)
  | Report (unavailableControls : List String) (isIsolated : Bool)
  | Image (manifestDigest : String) (digestVerified : Bool)
  /-- The metadata of a container is read. -/
  | Look
  /-- It is written back with another state. -/
  | Persist (state : ContainerState)
  | Outcome (result : SandboxResult)
  | Logs (logs : CapturedLogs)
  deriving DecidableEq, Repr

/-- The points of `cleanup_recovered_task`.  `Zone` is inside `delete_zone`, past the teardown in
    the backend. -/
inductive Cleanup where
  | Begin
  | Zone (left : List ℕ)
  | Containers (left : List Container) (seen : Option Container)
  | Check
  | Finish
  deriving DecidableEq, Repr

/-- The points of `run_owned`.  `Unwind` drops the zone guard, `Release` the active task. -/
inductive Pc where
  | Reserve
  | Resolve
  | Verify (zone : Zone)
  | Admit (record : RecoveryRecord)
  | Create (record : RecoveryRecord)
  | Note (record : RecoveryRecord) (id : ℕ)
  | Start (record : RecoveryRecord) (id : ℕ)
  | Started (record : RecoveryRecord) (copy : Container)
  | Wait (record : RecoveryRecord) (id : ℕ) (seen : Option Container)
  | Save (record : RecoveryRecord)
  | Clean (record : RecoveryRecord) (stage : Cleanup)
  | Unwind (armed : Option String)
  | Release (executionAttempted : Bool)
  deriving DecidableEq, Repr

/-- A request at work, and how far it is. -/
structure Thread where
  request : Request
  pc : Pc
  deriving DecidableEq, Repr

/-- The task a dropped zone guard leaves behind; `left` are the containers still to go. -/
structure Guard where
  zoneName : String
  left : Option (List ℕ)
  deriving DecidableEq, Repr

/-- The points of `recover_tasks` at one record. -/
inductive RecoverStage where
  | Next
  | Inspect (container : Container) (seen : Option Container)
  | Save (found : Bool)
  | Clean (stage : Cleanup)
  deriving DecidableEq, Repr

/-- Requests are served once recovery is through. -/
inductive Mode where
  | Down
  | Recovering (todo : List RecoveryRecord) (stage : RecoverStage)
  | Serving
  deriving DecidableEq, Repr

/-- What happened.  Requests go by their number, tasks by their id. -/
inductive Entry where
  | Reserved (taskId : String)
  | Deleted (taskId : String)
  | Zoned (request : ℕ) (zoneId : ℕ)
  | Admitted (request : ℕ) (taskId : String)
  | Created (taskId : String) (containerId : ℕ)
  | Started (taskId : String)
  | Abandoned (request : ℕ)
  | Crashed
  deriving DecidableEq, Repr

/-- What outlives the daemon: the store, and what only the proofs look at, which are the names and
    numbers used so far and the log. -/
structure Core where
  store : Store
  names : Finset String
  nextUuid : ℕ
  log : List Entry

/-- **The state of the system.**  All but its core is lost in a crash. -/
structure State extends Core where
  mode : Mode
  active : Finset String
  threads : ℕ → Option Thread
  guards : ℕ → Option Guard

namespace State

variable (self : State)

/-- The request goes on at `pc`. -/
def goto (n : ℕ) (thread : Thread) (pc : Pc) : State :=
  { self with threads := Function.update self.threads n (some { thread with pc := pc }) }

/-- The request is over. -/
def exit (n : ℕ) : State := { self with threads := Function.update self.threads n none }

def withMetadata (metadata : Metadata) : State :=
  { self with store := { self.store with metadata := metadata } }

/-- One more entry of the log. -/
def note (entry : Entry) : State := { self with log := entry :: self.log }

end State

/-! ## Cleaning up -/

/-- What a step of the clean-up comes to. -/
inductive CleanupMove where
  | Goto (store : Store) (stage : Cleanup)
  | Failed
  | Finished (store : Store)

/-- One step of `cleanup_recovered_task`. -/
def cleanupStep (store : Store) (record : RecoveryRecord) : Cleanup → Input → CleanupMove
  | _, .Fail => .Failed
  | .Begin, .Pass =>
    if record.cleanupZone then
      match store.metadata.getZone record.zoneName with
      | none => .Goto store .Check
      | some zone =>
        if zone.id = record.zoneId then
          .Goto store (.Zone ((store.metadata.listContainers (some zone.id)).map Container.id))
        else .Failed
    else
      match store.taskContainers record with
      | .ok containers => .Goto store (.Containers containers none)
      | .error _ => .Failed
  | .Zone (id :: left), .Pass =>
    .Goto { store with metadata := store.metadata.deleteContainer id } (.Zone left)
  | .Zone [], .Pass =>
    .Goto { store with metadata := store.metadata.deleteZone record.zoneName } .Check
  | .Containers (container :: left) _, .Look =>
    .Goto store
      (.Containers (container :: left) (store.metadata.containers.lookup container.id))
  | .Containers left (some copy), .Persist state =>
    .Goto { store with metadata := store.metadata.putContainer { copy with state := state } }
      (.Containers left none)
  | .Containers (container :: left) _, .Pass =>
    if (store.metadata.containers.lookup container.id).isSome then
      .Goto { store with metadata := store.metadata.deleteContainer container.id }
        (.Containers left none)
    else .Failed
  | .Containers [] _, .Pass => .Goto store .Check
  | .Check, .Pass =>
    match store.taskContainers record with
    | .ok [] => .Goto store .Finish
    | _ => .Failed
  | .Finish, .Pass =>
    match store.finishRecovery record.taskId with
    | .ok store => .Finished store
    | .error _ => .Failed
  | stage, _ => .Goto store stage

/-! ## Requests at work -/

section Steps

variable (w : World)

/-- The zone guard of a request, if it is armed. -/
def Thread.armed (self : Thread) (zoneName : String) : Option String :=
  if self.request.ownsZone then some zoneName else none

/-- Up to the recovery record: reservation, zone, isolation check. -/
def stepAdmission (s : State) (n : ℕ) (thread : Thread) : Pc → Input → State
  | .Reserve, .Pass =>
    let id := thread.request.taskId
    if validTaskId id then
      match s.store.reserveResult id w.resultsMaxBytes with
      | .ok (true, store) =>
        ({ s with store := store, active := insert id s.active }.note (.Reserved id)).goto n
          thread .Resolve
      | _ => s.exit n
    else s.exit n
  | .Reserve, .Fail => s.exit n
  | .Resolve, .Draw name net =>
    match thread.request.zone with
    | .Named _ => s
    | .Temporary keepZone =>
      if (s.store.metadata.getZone name).isSome then s.goto n thread (.Unwind none)
      -- a random name is not drawn twice
      else if name ∈ s.names then s
      else
        let zone : Zone := ⟨s.nextUuid, name, .NonGlobal, thread.request.policy, net⟩
        let s := { s.withMetadata (s.store.metadata.putZone zone) with
          names := insert name s.names, nextUuid := s.nextUuid + 1 }
        (if keepZone then s else s.note (.Zoned n zone.id)).goto n thread (.Verify zone)
  | .Resolve, .Pass =>
    match thread.request.zone with
    | .Temporary _ => s
    | .Named name =>
      match s.store.metadata.getZone name with
      | some zone => s.goto n thread (.Verify zone)
      | none => s.goto n thread (.Unwind none)
  | .Resolve, .Fail => s.goto n thread (.Unwind none)
  | .Verify zone, .Report unavailableControls isIsolated =>
    if zone.policy.admission = .Strict ∧ isIsolated = false then
      s.goto n thread (.Unwind (thread.armed zone.name))
    else s.goto n thread (.Admit (w.recoveryRecord thread.request zone unavailableControls))
  | .Verify zone, .Fail => s.goto n thread (.Unwind (thread.armed zone.name))
  | .Admit record, .Pass =>
    if w.validateRecoveryBudget record then
      match s.store.putRecovery w.recordSize record with
      | .ok store =>
        ({ s with store := store }.note (.Admitted n record.taskId)).goto n thread
          (.Create record)
      | .error _ => s.goto n thread (.Unwind (thread.armed record.zoneName))
    else s.goto n thread (.Unwind (thread.armed record.zoneName))
  | .Admit record, .Fail => s.goto n thread (.Unwind (thread.armed record.zoneName))
  | _, _ => s

/-- From the recovery record to the saved result: `execute_task` and sealing.  Whatever goes wrong
    in `execute_task`, a result is made of it. -/
def stepExecution (s : State) (n : ℕ) (thread : Thread) : Pc → Input → State
  | .Create record, .Pass =>
    match s.store.metadata.getZone record.zoneName with
    | none => s.goto n thread (.Save record)
    | some zone =>
      let container : Container :=
        ⟨s.nextUuid, containerName record.taskId, zone.id, .Created⟩
      (({ s.withMetadata (s.store.metadata.putContainer container) with
          nextUuid := s.nextUuid + 1 }).note (.Created record.taskId container.id)).goto n
        thread (.Note { record with containerId := some container.id } container.id)
  | .Create record, .Fail => s.goto n thread (.Save record)
  | .Note record id, .Image manifestDigest digestVerified =>
    let record := { record with
      receipt := { record.receipt with
        manifestDigest := manifestDigest, digestVerified := digestVerified } }
    match s.store.putRecovery w.recordSize record with
    | .ok store => { s with store := store }.goto n thread (.Start record id)
    | .error _ => s.goto n thread (.Save record)
  | .Note record _, .Fail => s.goto n thread (.Save record)
  | .Start record id, .Pass =>
    match s.store.metadata.containers.lookup id with
    | none => s.goto n thread (.Save record)
    | some copy => (s.note (.Started record.taskId)).goto n thread (.Started record copy)
  | .Start record id, .Late =>
    match s.store.metadata.containers.lookup id with
    | none => s.goto n thread (.Save record)
    | some _ => (s.note (.Started record.taskId)).goto n thread (.Save record)
  | .Start record _, .Fail => s.goto n thread (.Save record)
  | .Started record copy, .Pass =>
    (s.withMetadata (s.store.metadata.putContainer { copy with state := .Running })).goto n thread
      (.Wait record copy.id none)
  | .Started record _, .Fail => s.goto n thread (.Save record)
  | .Wait record id _, .Look =>
    s.goto n thread (.Wait record id (s.store.metadata.containers.lookup id))
  | .Wait record id (some copy), .Persist state =>
    (s.withMetadata (s.store.metadata.putContainer { copy with state := state })).goto n thread
      (.Wait record id none)
  | .Wait record _ _, .Pass => s.goto n thread (.Save record)
  | .Save record, .Outcome result =>
    match sealBoundedResult w.signer result record.receipt with
    | .error _ => s.goto n thread (.Release true)
    | .ok sealed =>
      match s.store.saveResult record.taskId (w.signer.encode sealed) with
      | .ok store => { s with store := store }.goto n thread (.Clean record .Begin)
      | .error _ => s.goto n thread (.Release true)
  | .Save _, .Fail => s.goto n thread (.Release true)
  | _, _ => s

/-- The task leaves the active set and the thread ends. -/
def State.release (s : State) (n : ℕ) (taskId : String) : State :=
  { s with active := s.active.erase taskId }.exit n

/-- Cleaning up after a saved result, and dropping what the request holds. -/
def stepEnd (s : State) (n : ℕ) (thread : Thread) : Pc → Input → State
  | .Clean record stage, input =>
    match cleanupStep s.store record stage input with
    | .Goto store stage => { s with store := store }.goto n thread (.Clean record stage)
    | .Failed => s.goto n thread (.Release true)
    | .Finished store => { s with store := store }.goto n thread (.Release true)
  | .Unwind none, .Pass => s.goto n thread (.Release false)
  | .Unwind (some zoneName), .Pass =>
    { s with guards := Function.update s.guards n (some ⟨zoneName, none⟩) }.goto n thread
      (.Release false)
  | .Release false, .Pass =>
    let id := thread.request.taskId
    match s.store.deleteResult id with
    | .ok (true, store) => ({ s with store := store }.note (.Deleted id)).release n id
    | _ => s.release n id
  | .Release true, .Pass => s.release n thread.request.taskId
  | .Release _, .Fail => s.release n thread.request.taskId
  | _, _ => s

/-- **One step of a request.** -/
def stepThread (s : State) (n : ℕ) (thread : Thread) (input : Input) : State :=
  match thread.pc with
  | .Reserve | .Resolve | .Verify _ | .Admit _ => stepAdmission w s n thread thread.pc input
  | .Create _ | .Note _ _ | .Start _ _ | .Started _ _ | .Wait _ _ _ | .Save _ =>
    stepExecution w s n thread thread.pc input
  | .Clean _ _ | .Unwind _ | .Release _ => stepEnd s n thread thread.pc input

/-- One step of the deletion a zone guard has started.  A failure is only logged. -/
def stepGuard (s : State) (n : ℕ) (guard : Guard) : Input → State
  | .Pass =>
    match guard.left with
    | none =>
      match s.store.metadata.getZone guard.zoneName with
      | none => { s with guards := Function.update s.guards n none }
      | some zone =>
        let left := (s.store.metadata.listContainers (some zone.id)).map Container.id
        { s with guards := Function.update s.guards n (some { guard with left := left }) }
    | some (id :: left) =>
      { s.withMetadata (s.store.metadata.deleteContainer id) with
        guards := Function.update s.guards n (some { guard with left := some left }) }
    | some [] =>
      { s.withMetadata (s.store.metadata.deleteZone guard.zoneName) with
        guards := Function.update s.guards n none }
  | .Fail => { s with guards := Function.update s.guards n none }.note (.Abandoned n)
  | _ => s

/-! ## Deleting results, recovery, and the daemon itself -/

/-- `delete_sandbox_result` refuses while anything of the task is left. -/
def deleteSandboxResult (s : State) (id : String) : State :=
  if !validTaskId id || id ∈ s.active || s.store.hasRecovery id ||
      (s.store.metadata.listContainers none).any (·.name = containerName id) then s
  else
    match s.store.deleteResult id with
    | .ok (true, store) => { s with store := store }.note (.Deleted id)
    | _ => s

/-- The daemon is gone, and with it every thread. -/
def State.shutDown (s : State) : State :=
  { s with mode := .Down, active := ∅, threads := fun _ => none, guards := fun _ => none }

def State.recovering (s : State) (todo : List RecoveryRecord) (stage : RecoverStage) : State :=
  { s with mode := .Recovering todo stage }

/-- One step of `recover_tasks`; an error ends the daemon. -/
def stepRecover (s : State) (todo : List RecoveryRecord) : RecoverStage → Input → State
  | _, .Fail => s.shutDown
  | .Next, .Pass =>
    match todo with
    | [] => { s with mode := .Serving }
    | record :: _ =>
      match s.store.getResult record.taskId with
      | none => s.shutDown
      | some [] =>
        match s.store.taskContainers record with
        | .error _ => s.shutDown
        | .ok [] => s.recovering todo (.Save false)
        | .ok (container :: _) => s.recovering todo (.Inspect container none)
      | some (_ :: _) => s.recovering todo (.Clean .Begin)
  | .Inspect container _, .Look =>
    s.recovering todo
      (.Inspect container (s.store.metadata.containers.lookup container.id))
  | .Inspect container (some copy), .Persist state =>
    (s.withMetadata (s.store.metadata.putContainer { copy with state := state })).recovering todo
      (.Inspect container none)
  | .Inspect _ _, .Pass => s.recovering todo (.Save true)
  | .Save found, .Logs logs =>
    match todo with
    | [] => s
    | record :: _ =>
      match sealBoundedResult w.signer
          (interruptedResult record (if found then some logs else none)) record.receipt with
      | .error _ => s.shutDown
      | .ok sealed =>
        match s.store.saveResult record.taskId (w.signer.encode sealed) with
        | .ok store => { s with store := store }.recovering todo (.Clean .Begin)
        | .error _ => s.shutDown
  | .Clean stage, input =>
    match todo with
    | [] => s
    | record :: rest =>
      match cleanupStep s.store record stage input with
      | .Goto store stage => { s with store := store }.recovering todo (.Clean stage)
      | .Failed => s.shutDown
      | .Finished store => { s with store := store }.recovering rest .Next
  | _, _ => s

/-- What can happen; a thread and its guard have the same number. -/
inductive Event where
  | Request (request : Request)
  | Thread (n : ℕ) (input : Input)
  | Guard (n : ℕ) (input : Input)
  | DeleteResult (taskId : String)
  | Crash
  | Boot
  | Recover (input : Input)
  deriving DecidableEq, Repr

/-- **One step of the system.**  Requests are served once recovery has returned. -/
def step (s : State) : Event → State
  | .Crash => s.shutDown.note .Crashed
  | .Boot =>
    match s.mode with
    | .Down => s.recovering s.store.recoveryRecords .Next
    | _ => s
  | .Recover input =>
    match s.mode with
    | .Recovering todo stage => stepRecover w s todo stage input
    | _ => s
  | .Request request =>
    match s.mode with
    | .Serving => { s with nextUuid := s.nextUuid + 1 }.goto s.nextUuid ⟨request, .Reserve⟩ .Reserve
    | _ => s
  | .Thread n input =>
    match s.mode, s.threads n with
    | .Serving, some thread => stepThread w s n thread input
    | _, _ => s
  | .Guard n input =>
    match s.mode, s.guards n with
    | .Serving, some guard => stepGuard s n guard input
    | _, _ => s
  | .DeleteResult id =>
    match s.mode with
    | .Serving => deleteSandboxResult s id
    | _ => s

end Steps

/-! ## The beginning -/

/-- **A host**: zones and containers of whatever origin, under identifiers of their own. -/
structure Host where
  metadata : Metadata
  zone_ids : ∀ name name' zone zone', metadata.getZone name = some zone →
    metadata.getZone name' = some zone' → zone.id = zone'.id → name = name'

/-- An identifier above all that are in use. -/
def Host.nextUuid (self : Host) : ℕ :=
  (self.metadata.listZones.map Zone.id ++
    (self.metadata.listContainers none).map Container.id).foldr max 0 + 1

/-- No task has been run yet, and the daemon is not up. -/
def init (host : Host) : State where
  store := ⟨host.metadata, ∅, ∅, Store.recovery_key_empty⟩
  names := (host.metadata.listZones.map Zone.name).toFinset
  nextUuid := host.nextUuid
  log := []
  mode := .Down
  active := ∅
  threads _ := none
  guards _ := none

/-- Small enough a world for every task to fit. -/
def plainWorld : World where
  resultsMaxBytes := 64 * 1024 * 1024
  recordSize record := record.zoneName.length + record.taskId.length
  signer :=
    { sign := ReceiptPayload.taskId
      verifies := fun _ => true
      signDsse := ReceiptPayload.taskId
      hashOutputs := SandboxResult.status
      encode := fun result => result.status.toList.map fun c => UInt8.ofNat c.toNat }
  recoveryReceipt request _ unavailableControls :=
    ⟨request.taskId, 0, "", false, "", "", none, none, none, unavailableControls, [], default⟩

end Rauha.Sandbox
