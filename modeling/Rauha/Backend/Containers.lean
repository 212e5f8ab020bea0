import Rauha.Backend.Registry
import Rauha.Shim.State

/-!
# Requests about one container

The daemon keeps a record of a container in its store; the process behind it belongs to the shim of
the zone.  A request reads the record, waits, asks the shim, and writes the whole record back.
Other requests run while it waits, so `World` holds the requests under way, each as a `Task` with
what it has read; an event carries one of them from one wait to the next.

* `Knows`: what the shim knows of the end of a process.  A container is started once and ends once,
  by what a request to the shim can do (`Shim.Step`);
* `container_record_iff`: exit codes are never lost, and a record that has been deleted stays
  deleted exactly if no answer of the shim is written back after the deletion.
-/

namespace Rauha.Containers

open Transition List
open Shim (ShimState ShimRequest ShimResponse WaitStatus)

/-! ## The daemon -/

/-- A container as it is persisted. -/
structure ContainerRecord extends Container where
  pid : Option ℕ
  startedAt : Option ℕ
  finishedAt : Option ℕ
  exitCode : Option ℤ
  deriving DecidableEq, Repr

/-- **A request under way**, by what it waits for and what it has read. -/
inductive Task where
  | start (read : ContainerRecord)
  | stop (read : ContainerRecord)
  /-- A query for the state waits for the table of zones. -/
  | stateZone (read : ContainerRecord)
  | stateShim (read : ContainerRecord)
  | stateAnswer (read : ContainerRecord) (response : ShimResponse)
  /-- A deletion stops the container first. -/
  | deleteStop (read : ContainerRecord)
  | deleteZone (read : ContainerRecord)
  | deleteHandle
  deriving DecidableEq, Repr

structure World where
  record : Option ContainerRecord
  /-- Whether the handle of the container is in the registry's cache. -/
  handle : Bool
  /-- The name under which the shim knows the container. -/
  shimId : String
  shim : ShimState
  tasks : List Task

/-- What the world answers to one request between two waits: whether the zone is known, the shim is
    reached and its response comes back, the store accepts the write and the logs can be removed;
    what the shim meets, and what the kernel says. -/
structure Env where
  zoneFound : Bool
  reached : Bool
  answered : Bool
  stored : Bool
  logsRemoved : Bool
  shim : Shim.Env
  dead : Bool
  now : ℕ

inductive Request where
  | start
  | stop
  | state
  | delete (force : Bool)

inductive Event where
  /-- A request comes in and runs to its first wait. -/
  | call (request : Request)
  /-- `getContainer` or `listContainers`, which do not wait. -/
  | get (env : Env)
  | resume (i : ℕ) (env : Env)
  /-- The shim handles the query of a task that waits for it. -/
  | answer (i : ℕ) (env : Env)
  | reap (polled : String → Bool)
  /-- A workload of the zone exits. -/
  | exit (id : String) (status : WaitStatus)

namespace World

variable (w : World) (env : Env)

def putContainer (container : ContainerRecord) : World :=
  if env.stored then { w with record := some container } else w

/-- The shim handles a request. -/
def ask (request : ShimRequest) : ShimResponse × ShimState :=
  Shim.handleRequest env.shim w.shim request

/-- What the shim did; if its response comes back and is the one expected, the record that follows
    from it is persisted.  With whether all of it succeeds. -/
def afterShim (done : ShimResponse × ShimState) (updated : ShimResponse → Option ContainerRecord) :
    Bool × World :=
  if env.answered then
    match updated done.1 with
    | some container => (env.stored, { w with shim := done.2 }.putContainer env container)
    | none => (false, { w with shim := done.2 })
  else (false, { w with shim := done.2 })

/-- From the wait of `start_container` to its end. -/
def startContainer (read : ContainerRecord) : Bool × World :=
  if w.handle && env.zoneFound && env.reached then
    w.afterShim env (w.ask env (.StartContainer w.shimId)) fun
      | .Created pid =>
        some { read with state := .Running, startedAt := some env.now, pid := some pid }
      | _ => none
  else (false, w)

/-- From the wait of `stop_container` to its end. -/
def stopContainer (read : ContainerRecord) : Bool × World :=
  if w.handle && env.zoneFound && env.reached then
    w.afterShim env (w.ask env (.StopContainer w.shimId 15)) fun
      | .Ok => some { read with state := .Stopped, finishedAt := some env.now }
      | _ => none
  else (false, w)

/-- Whether an answer of the shim is news. -/
def isNews (read : ContainerRecord) : ShimResponse → Bool
  | .State _ status exitCode =>
    status == "stopped" && (read.state != .Stopped || read.exitCode != exitCode)
  | _ => false

/-- What a query for the state does with the answer. -/
def persistState (read : ContainerRecord) (response : ShimResponse) : World :=
  match response with
  | .State _ _ exitCode =>
    if isNews read response then
      w.putContainer env
        { read with
          state := .Stopped
          finishedAt := some (read.finishedAt.getD env.now)
          exitCode := exitCode }
    else w
  | _ => w

/-- A deletion asks the shim, unless the zone is gone, and removes the logs. -/
def deleteFromShim : Bool × World :=
  if env.zoneFound then
    if env.reached then
      match w.ask env (.DeleteContainer w.shimId) with
      | (response, shim) =>
        (env.answered && response == .Ok && env.logsRemoved, { w with shim := shim })
    else (false, w)
  else (env.logsRemoved, w)

/-- Handle and record go together. -/
def deleteRecord : World :=
  { w with handle := false, record := if env.stored then none else w.record }

/-- `maybe_reap_container` on the record as it is. -/
def maybeReapContainer : World :=
  match w.record with
  | some read =>
    if read.state = .Running ∧ read.pid.any (0 < ·) ∧ env.dead then
      w.putContainer env { read with state := .Stopped, finishedAt := some env.now }
    else w
  | none => w

/-- A request up to its first wait. -/
def call : Request → List Task
  | .start => w.record.toList.map .start
  | .stop => w.record.toList.map .stop
  | .state => w.record.toList.map .stateZone
  | .delete force =>
    match w.record with
    | some read =>
      if read.state = .Running then
        if force then [.deleteStop read] else []
      else [.deleteZone read]
    | none => []

/-- From one wait to the next: the world after it, and the task if it goes on. -/
def resume : Task → World × List Task
  | .start read => ((w.startContainer env read).2, [])
  | .stop read => ((w.stopContainer env read).2, [])
  | .stateZone read => (w, if env.zoneFound then [.stateShim read] else [])
  | .stateShim read => (w, [.stateShim read])
  | .stateAnswer read response => (w.persistState env read response, [])
  | .deleteStop read =>
    ((w.stopContainer env read).2, if (w.stopContainer env read).1 then [.deleteZone read] else [])
  | .deleteZone _ =>
    ((w.deleteFromShim env).2, if (w.deleteFromShim env).1 then [.deleteHandle] else [])
  | .deleteHandle => (w.deleteRecord env, [])

/-- The shim answers, with what it knows now. -/
def answer : Task → List Task
  | .stateShim read =>
    if env.reached && env.answered then
      [.stateAnswer read (w.ask env (.GetState w.shimId)).1]
    else []
  | task => [task]

/-- Take a task out of the queue. -/
def without (i : ℕ) : World := { w with tasks := w.tasks.eraseIdx i }

/-- **One event.** -/
def step (w : World) : Event → World
  | .call request => { w with tasks := w.tasks ++ w.call request }
  | .get env => w.maybeReapContainer env
  | .resume i env =>
    match w.tasks[i]? with
    | some task =>
      let next := (w.without i).resume env task
      { next.1 with tasks := next.1.tasks ++ next.2 }
    | none => w
  | .answer i env =>
    match w.tasks[i]? with
    | some task => { w.without i with tasks := (w.without i).tasks ++ w.answer env task }
    | none => w
  | .reap polled => { w with shim := w.shim.reapChildren polled }
  | .exit id status => { w with shim := w.shim.exit id status }

/-- A container that has just been created, in a shim that may have others. -/
def created (container : Container) (pid : ℕ) (shim : ShimState) (specJson : String) : World where
  record := some { container with
    state := .Created, pid := some pid, startedAt := none, finishedAt := none, exitCode := none }
  handle := true
  shimId := toString container.id
  shim := shim.set (toString container.id) ⟨0, .Created, none, specJson, none⟩
  tasks := []

/-- An answer of the shim is written into the store. -/
def writesBack (w : World) : Event → Bool
  | .resume i env =>
    match w.tasks[i]? with
    | some (.stateAnswer read response) => isNews read response && env.stored
    | _ => false
  | _ => false

end World

/-! ## A process is started once and ends once -/

section Shim

variable {id : String} {s s' : ShimState} {known : Option ℤ} {code : ℤ} {env : Shim.Env}
  {e : Shim.Event}

/-- **What a shim knows** of the end of a process: nothing before it, and then the exit code. -/
def Knows (known : Option ℤ) (id : String) (s : ShimState) : Prop :=
  ∀ p, s.containers.lookup id = some p →
    (p.status = .Stopped ↔ known.isSome = true) ∧ p.exitCode = known

/-- An end that is known stays known. -/
def Evolves (id : String) (s s' : ShimState) : Prop :=
  ∀ known, Knows known id s → ∃ known', (known = none ∨ known' = known) ∧ Knows known' id s'

lemma Evolves.refl (id : String) (s : ShimState) : Evolves id s s :=
  fun known h => ⟨known, .inr rfl, h⟩

/-- **Whatever a shim does** but create the container. -/
lemma evolves_of_step (h : Shim.Step e id (s.containers.lookup id) (s'.containers.lookup id))
    (he : ∀ env specJson, e ≠ .Request env (.CreateContainer id specJson)) : Evolves id s s' := by
  intro known hknows
  unfold Knows at hknows ⊢
  generalize s.containers.lookup id = entry at h hknows
  generalize s'.containers.lookup id = entry' at h ⊢
  cases h with
  | absent => exact ⟨known, .inr rfl, nofun⟩
  | create hcreate => exact absurd hcreate (he _ _)
  | delete => exact ⟨known, .inr rfl, nofun⟩
  | start _ hcreated hrunning _ hcode _ =>
    obtain ⟨hstopped, hknown⟩ := hknows _ rfl
    rw [hcreated] at hstopped
    refine ⟨known, .inr rfl, ?_⟩
    rintro _ ⟨rfl⟩
    rw [hrunning, hcode]
    exact ⟨by simpa using hstopped, hknown⟩
  | @change p p' hchange =>
    obtain ⟨hstopped, hknown⟩ := hknows p rfl
    cases hchange with
    | stay hstatus _ hcode _ =>
      refine ⟨known, .inr rfl, ?_⟩
      rintro _ ⟨rfl⟩
      rw [hstatus, hcode]
      exact ⟨hstopped, hknown⟩
    | stop hrunning hafter hcode =>
      rw [hrunning] at hstopped
      refine ⟨p'.exitCode, .inl (by simpa using hstopped), ?_⟩
      rintro _ ⟨rfl⟩
      exact ⟨by simp [hafter, hcode], rfl⟩

lemma reapChildren_evolves (polled : String → Bool) : Evolves id s (s.reapChildren polled) := by
  refine evolves_of_step (e := .Reap polled) (Shim.reapChildren_step polled) ?_
  rintro env specJson ⟨⟩

lemma handleRequest_evolves {request : ShimRequest}
    (h : ∀ specJson, request ≠ .CreateContainer id specJson) :
    Evolves id s (Shim.handleRequest env s request).2 := by
  refine evolves_of_step (Shim.handleRequest_step rfl) ?_
  rintro env' specJson heq
  exact h specJson (Shim.Event.Request.inj heq).2

/-- **What has ended is not started again.** -/
lemma start_ended (h : Knows (some code) id s) :
    ∃ message, (Shim.handleRequest env s (.StartContainer id)).1 = .Error message := by
  simp only [Shim.handleRequest, ShimState.startContainer]
  cases hlookup : s.containers.lookup id with
  | none => exact ⟨_, rfl⟩
  | some p =>
    have hstopped := (h p hlookup).1.mpr rfl
    exact ⟨_, by simp only [hstopped]; rfl⟩

/-- **What has ended is not stopped again.** -/
lemma stop_ended {signal : ℤ} (h : Knows (some code) id s) :
    ∃ message, (Shim.handleRequest env s (.StopContainer id signal)).1 = .Error message := by
  simp only [Shim.handleRequest, ShimState.stopContainer]
  cases hsignal : (s.reapChildren env.polled).signalContainer env id with
  | error message => exact ⟨message, rfl⟩
  | ok _ =>
    obtain ⟨p, hlookup, hrunning⟩ := Shim.running_of_signalContainer hsignal
    obtain ⟨known', hknown, h'⟩ := reapChildren_evolves env.polled _ h
    obtain rfl := hknown.resolve_left (Option.some_ne_none _)
    have hstopped := (h' p hlookup).1.mpr rfl
    rw [hrunning] at hstopped
    cases hstopped

end Shim

/-! ## What one event can do -/

namespace Task

def read : Task → Option ContainerRecord
  | .start read | .stop read | .stateZone read | .stateShim read | .stateAnswer read _
  | .deleteStop read | .deleteZone read => some read
  | .deleteHandle => none

/-- The exit code a query has got for a container that has ended. -/
def ended : Task → Option (Option ℤ)
  | .stateAnswer _ (.State _ status exitCode) => if status = "stopped" then some exitCode else none
  | _ => none

end Task

namespace World

variable {w : World} {env : Env} {e : Event} {i : ℕ} {task : Task} {read : ContainerRecord}

@[simp] lemma putContainer_shim (container : ContainerRecord) :
    (w.putContainer env container).shim = w.shim := by
  unfold putContainer
  split_ifs <;> rfl

@[simp] lemma putContainer_shimId (container : ContainerRecord) :
    (w.putContainer env container).shimId = w.shimId := by
  unfold putContainer
  split_ifs <;> rfl

@[simp] lemma putContainer_handle (container : ContainerRecord) :
    (w.putContainer env container).handle = w.handle := by
  unfold putContainer
  split_ifs <;> rfl

@[simp] lemma putContainer_tasks (container : ContainerRecord) :
    (w.putContainer env container).tasks = w.tasks := by
  unfold putContainer
  split_ifs <;> rfl

variable {container r : ContainerRecord}

lemma putContainer_record (h : (w.putContainer env container).record = some r) :
    w.record = some r ∨ r = container := by
  unfold putContainer at h
  split_ifs at h
  · cases h
    exact .inr rfl
  · exact .inl h

lemma putContainer_kept (h : (w.putContainer env container).record = none) : w.record = none := by
  unfold putContainer at h
  split_ifs at h
  exact h

/-- **What requests can do** to the record, the handle and the shim; with whether an answer of the
    shim is written back. -/
structure Effect (ts : List Task) (w w' : World) (wrote : Bool) : Prop where
  handle : w'.handle = true → w.handle = true
  shimId : w'.shimId = w.shimId
  shim : Evolves w.shimId w.shim w'.shim
  gone : w'.record = none → w.record = none ∨ w'.handle = false
  written : wrote = true → w'.record ≠ none
  /-- The exit code of a record was there before; or a start or a stop, which it takes a process
      for, or a query has written it. -/
  record : ∀ r', w'.record = some r' →
    (∃ r, w.record = some r ∧ r'.exitCode = r.exitCode) ∨
    (∃ t ∈ ts, ∃ read, t.read = some read ∧ w.handle = true ∧
      (∀ c, ¬ Knows (some c) w.shimId w.shim) ∧ r'.exitCode = read.exitCode) ∨
    wrote = true ∧ ∃ t ∈ ts, t.ended = some r'.exitCode

variable {ts : List Task} {w' : World} {wrote : Bool}

lemma Effect.of_shim {shim : ShimState} (h : Evolves w.shimId w.shim shim) :
    Effect ts w { w with shim := shim } false :=
  ⟨id, rfl, h, .inl, nofun, fun r hr => .inl ⟨r, hr, rfl⟩⟩

lemma Effect.refl (w : World) : Effect ts w w false := .of_shim (.refl _ _)

lemma Effect.mono (h : Effect ts w w' wrote) (hts : ts ⊆ w.tasks) : Effect w.tasks w w' wrote where
  handle := h.handle
  shimId := h.shimId
  shim := h.shim
  gone := h.gone
  written := h.written
  record r' hr' := by
    rcases h.record r' hr' with hsame | ⟨t, ht, hread⟩ | ⟨hwrote, t, ht, hresponse⟩
    · exact .inl hsame
    · exact .inr (.inl ⟨t, hts ht, hread⟩)
    · exact .inr (.inr ⟨hwrote, t, hts ht, hresponse⟩)

/-- Whether a task writes the answer it has got. -/
def persists (env : Env) : Task → Bool
  | .stateAnswer read response => isNews read response && env.stored
  | _ => false

/-- **From one wait to the next.** -/
def Resumed (w w' : World) (env : Env) (task : Task) : Prop :=
  w'.tasks = w.tasks ∧ Effect [task] w w' (persists env task)

lemma Resumed.refl (w : World) (h : persists env task = false) : Resumed w w env task := by
  rw [Resumed, h]
  exact ⟨rfl, .refl w⟩

section Acted

variable (hread : task.read = some read) (hpersists : persists env task = false)

include hread hpersists

/-- A request to the shim that is refused once the process has ended. -/
lemma afterShim_resumed {done : ShimResponse × ShimState}
    {updated : ShimResponse → Option ContainerRecord} (hhandle : w.handle = true)
    (hshim : Evolves w.shimId w.shim done.2)
    (hended : ∀ c, Knows (some c) w.shimId w.shim → updated done.1 = none)
    (hcode : ∀ container, updated done.1 = some container → container.exitCode = read.exitCode) :
    Resumed w (w.afterShim env done updated).2 env task := by
  rw [Resumed, hpersists]
  unfold afterShim
  split_ifs
  · cases hupdated : updated done.1 with
    | none => exact ⟨rfl, .of_shim hshim⟩
    | some container =>
      have hnot : ∀ c, ¬ Knows (some c) w.shimId w.shim := by
        intro c h
        cases (hended c h).symm.trans hupdated
      refine ⟨by simp, by simp, by simp, by simpa using hshim,
        fun h => .inl (putContainer_kept (w := { w with shim := done.2 }) h), nofun,
        fun r hr => ?_⟩
      rcases putContainer_record hr with hsame | rfl
      · exact .inl ⟨r, hsame, rfl⟩
      · exact .inr (.inl ⟨task, mem_cons_self, read, hread, hhandle, hnot, hcode _ hupdated⟩)
  · exact ⟨rfl, .of_shim hshim⟩

lemma startContainer_resumed : Resumed w (w.startContainer env read).2 env task := by
  unfold startContainer
  split_ifs with hreached
  · simp only [Bool.and_eq_true] at hreached
    refine afterShim_resumed hread hpersists hreached.1.1 (handleRequest_evolves nofun)
      (fun c h => ?_) fun container h => ?_
    · obtain ⟨message, herror⟩ := start_ended h
      rw [ask, herror]
    · split at h <;> cases h
      rfl
  · exact .refl w hpersists

lemma stopContainer_resumed : Resumed w (w.stopContainer env read).2 env task := by
  unfold stopContainer
  split_ifs with hreached
  · simp only [Bool.and_eq_true] at hreached
    refine afterShim_resumed hread hpersists hreached.1.1 (handleRequest_evolves nofun)
      (fun c h => ?_) fun container h => ?_
    · obtain ⟨message, herror⟩ := stop_ended h
      rw [ask, herror]
    · split at h <;> cases h
      rfl
  · exact .refl w hpersists

end Acted

lemma persistState_resumed (read : ContainerRecord) (response : ShimResponse) :
    Resumed w (w.persistState env read response) env (.stateAnswer read response) := by
  cases response with
  | State pid status exitCode =>
    simp only [persistState]
    split_ifs with hnews
    · have hstopped : status = "stopped" := by
        simp only [isNews, Bool.and_eq_true, beq_iff_eq] at hnews
        exact hnews.1
      refine ⟨by simp, by simp, by simp, by simpa using .refl _ _,
        fun h => .inl (putContainer_kept h), fun hwrote => ?_, fun r' hr' => ?_⟩
      · simp only [persists, hnews, Bool.true_and] at hwrote
        simp [putContainer, hwrote]
      · by_cases hstored : env.stored = true
        · rw [putContainer, if_pos hstored] at hr'
          cases hr'
          refine .inr (.inr ⟨?_, _, mem_cons_self, if_pos hstopped⟩)
          rw [persists, hnews, hstored]
          rfl
        · rw [putContainer, if_neg hstored] at hr'
          exact .inl ⟨r', hr', rfl⟩
    · refine .refl w ?_
      rw [persists, Bool.eq_false_of_not_eq_true hnews]
      rfl
  | _ => exact .refl w rfl

lemma deleteFromShim_resumed (read : ContainerRecord) :
    Resumed w (w.deleteFromShim env).2 env (.deleteZone read) := by
  unfold deleteFromShim
  split_ifs
  · exact ⟨rfl, .of_shim (handleRequest_evolves nofun)⟩
  · exact .refl w rfl
  · exact .refl w rfl

lemma deleteRecord_resumed : Resumed w (w.deleteRecord env) env .deleteHandle := by
  refine ⟨rfl, fun h => absurd h Bool.false_ne_true, rfl, .refl _ _, fun _ => .inr rfl, nofun,
    fun r' hr' => ?_⟩
  simp only [deleteRecord] at hr'
  split_ifs at hr'
  exact .inl ⟨r', hr', rfl⟩

lemma resume_resumed (w : World) (env : Env) (task : Task) :
    Resumed w (w.resume env task).1 env task ∧
    ∀ t ∈ (w.resume env task).2, t.ended = none ∧ ∀ r, t.read = some r → task.read = some r := by
  cases task with
  | start read => exact ⟨startContainer_resumed rfl rfl, fun t ht => absurd ht not_mem_nil⟩
  | stop read => exact ⟨stopContainer_resumed rfl rfl, fun t ht => absurd ht not_mem_nil⟩
  | stateZone read =>
    refine ⟨.refl w rfl, fun t ht => ?_⟩
    simp only [resume] at ht
    split_ifs at ht
    · rw [mem_singleton.mp ht]
      exact ⟨rfl, fun r hr => hr⟩
    · cases ht
  | stateShim read =>
    refine ⟨.refl w rfl, fun t ht => ?_⟩
    rw [mem_singleton.mp ht]
    exact ⟨rfl, fun r hr => hr⟩
  | stateAnswer read response =>
    exact ⟨persistState_resumed read response, fun t ht => absurd ht not_mem_nil⟩
  | deleteStop read =>
    refine ⟨stopContainer_resumed rfl rfl, fun t ht => ?_⟩
    simp only [resume] at ht
    split_ifs at ht
    · rw [mem_singleton.mp ht]
      exact ⟨rfl, fun r hr => hr⟩
    · cases ht
  | deleteZone read =>
    refine ⟨deleteFromShim_resumed read, fun t ht => ?_⟩
    simp only [resume] at ht
    split_ifs at ht
    · rw [mem_singleton.mp ht]
      exact ⟨rfl, nofun⟩
    · cases ht
  | deleteHandle => exact ⟨deleteRecord_resumed, fun t ht => absurd ht not_mem_nil⟩

/-- What a request holds was read from the record or said by the shim. -/
def Held (w : World) (t : Task) : Prop :=
  (∀ r, t.read = some r → w.record = some r ∨ ∃ t₀ ∈ w.tasks, t₀.read = some r) ∧
    ∀ code, t.ended = some code →
      (∃ p, w.shim.containers.lookup w.shimId = some p ∧ p.status = .Stopped ∧
        p.exitCode = code) ∨ ∃ t₀ ∈ w.tasks, t₀.ended = some code

/-- **One event.**  Where what is known afterwards comes from. -/
structure Moved (w w' : World) (wrote : Bool) : Prop where
  effect : Effect w.tasks w w' wrote
  tasks : ∀ t ∈ w'.tasks, w.Held t

variable {t : Task}

lemma held_of_mem (ht : t ∈ w.tasks) : w.Held t :=
  ⟨fun _ hr => .inr ⟨t, ht, hr⟩, fun _ hp => .inr ⟨t, ht, hp⟩⟩

lemma tasks_without (ht : t ∈ (w.without i).tasks) : t ∈ w.tasks := mem_of_mem_eraseIdx ht

/-- A change of the tasks only. -/
lemma Moved.of_tasks {tasks : List Task} (h : ∀ t ∈ tasks, w.Held t) :
    Moved w { w with tasks := tasks } false :=
  ⟨⟨id, rfl, .refl _ _, .inl, nofun, fun r' hr' => .inl ⟨r', hr', rfl⟩⟩, h⟩

lemma Moved.refl (w : World) : Moved w w false := .of_tasks fun _ ht => held_of_mem ht

/-- A request that comes in has read the record. -/
lemma call_read (request : Request) (ht : t ∈ w.call request) :
    t.ended = none ∧ ∀ r, t.read = some r → w.record = some r := by
  have hmap : ∀ f : ContainerRecord → Task, (∀ r, (f r).read = some r ∧ (f r).ended = none) →
      t ∈ w.record.toList.map f → t.ended = none ∧ ∀ r, t.read = some r → w.record = some r := by
    intro f hf hmem
    obtain ⟨r, hr, rfl⟩ := mem_map.mp hmem
    rw [Option.mem_toList] at hr
    refine ⟨(hf r).2, fun r' hr' => ?_⟩
    rw [(hf r).1] at hr'
    rwa [← hr']
  cases request with
  | start => exact hmap .start (fun _ => ⟨rfl, rfl⟩) ht
  | stop => exact hmap .stop (fun _ => ⟨rfl, rfl⟩) ht
  | state => exact hmap .stateZone (fun _ => ⟨rfl, rfl⟩) ht
  | delete force =>
    cases hrecord : w.record with
    | none => simp [call, hrecord] at ht
    | some read =>
      simp only [call, hrecord] at ht
      split_ifs at ht
      · rw [mem_singleton.mp ht]
        exact ⟨rfl, fun r hr => hr⟩
      · cases ht
      · rw [mem_singleton.mp ht]
        exact ⟨rfl, fun r hr => hr⟩

lemma maybeReapContainer_moved : Moved w (w.maybeReapContainer env) false := by
  unfold maybeReapContainer
  cases hrecord : w.record with
  | none => exact .refl w
  | some read =>
    simp only
    split_ifs
    · refine ⟨⟨by simp, by simp, by simpa using .refl _ _, fun h => .inl (putContainer_kept h),
        nofun, fun r' hr' => .inl ?_⟩, fun t ht => held_of_mem (by simpa using ht)⟩
      rcases putContainer_record hr' with hsame | rfl
      · exact ⟨r', hsame, rfl⟩
      · exact ⟨read, hrecord, rfl⟩
    · exact .refl w

/-- What a task does while it is out of the queue. -/
lemma resume_moved (henv : w.tasks[i]? = some task) :
    Moved w { ((w.without i).resume env task).1 with
      tasks := ((w.without i).resume env task).1.tasks ++ ((w.without i).resume env task).2 }
      (persists env task) := by
  have htask : task ∈ w.tasks := mem_of_getElem? henv
  obtain ⟨⟨htasks, heffect⟩, hnext⟩ := resume_resumed (w.without i) env task
  have hself : Effect [task] w ((w.without i).resume env task).1 (persists env task) :=
    ⟨heffect.handle, heffect.shimId, heffect.shim, heffect.gone, heffect.written, heffect.record⟩
  have hall := hself.mono (by simpa using htask)
  refine ⟨⟨hall.handle, hall.shimId, hall.shim, hall.gone, hall.written, hall.record⟩,
    fun t ht => ?_⟩
  rcases mem_append.mp ht with hold | hnew
  · rw [htasks] at hold
    exact held_of_mem (tasks_without hold)
  · obtain ⟨hended, hread⟩ := hnext t hnew
    refine ⟨fun r hr => .inr ⟨task, htask, hread r hr⟩, fun code hcode => ?_⟩
    rw [hended] at hcode
    cases hcode

/-- An answer that a container has ended says what the shim knows. -/
lemma getState_ended {code : Option ℤ}
    (h : (Task.stateAnswer read (w.ask env (.GetState w.shimId)).1).ended = some code) :
    ∃ p, w.shim.containers.lookup w.shimId = some p ∧ p.status = .Stopped ∧ p.exitCode = code := by
  simp only [ask, Shim.handleRequest, ShimState.getState] at h
  cases hlookup : w.shim.containers.lookup w.shimId with
  | none =>
    rw [hlookup] at h
    cases h
  | some p =>
    rw [hlookup] at h
    simp only [Option.map_some, Task.ended] at h
    split_ifs at h with hstatus
    refine ⟨p, rfl, ?_, Option.some.inj h⟩
    revert hstatus
    cases p.status <;> decide

lemma answer_moved (henv : w.tasks[i]? = some task) :
    Moved w { w.without i with tasks := (w.without i).tasks ++ w.answer env task } false := by
  have htask : task ∈ w.tasks := mem_of_getElem? henv
  refine .of_tasks fun t ht => ?_
  rcases mem_append.mp ht with hold | hnew
  · exact held_of_mem (tasks_without hold)
  cases task with
  | stateShim read =>
    simp only [answer] at hnew
    split_ifs at hnew
    · rw [mem_singleton.mp hnew]
      exact ⟨fun r hr => .inr ⟨_, htask, hr⟩, fun code hcode => .inl (getState_ended hcode)⟩
    · cases hnew
  | _ =>
    rw [mem_singleton.mp hnew]
    exact held_of_mem htask

lemma step_moved (w : World) (e : Event) : Moved w (w.step e) (w.writesBack e) := by
  cases e with
  | call request =>
    refine .of_tasks fun t ht => ?_
    rcases mem_append.mp ht with hold | hnew
    · exact held_of_mem hold
    · obtain ⟨hended, hread⟩ := call_read request hnew
      refine ⟨fun r hr => .inl (hread r hr), fun code hcode => ?_⟩
      rw [hended] at hcode
      cases hcode
  | get env => exact maybeReapContainer_moved
  | resume i env =>
    cases henv : w.tasks[i]? with
    | none => simpa only [step, writesBack, henv] using .refl w
    | some task =>
      have hwrote : w.writesBack (.resume i env) = persists env task := by
        simp only [writesBack, henv]
        cases task <;> rfl
      rw [hwrote]
      simpa only [step, henv] using resume_moved henv
  | answer i env =>
    cases henv : w.tasks[i]? with
    | none => simpa only [step, writesBack, henv] using .refl w
    | some task => simpa only [step, writesBack, henv] using answer_moved henv
  | reap polled =>
    exact ⟨.of_shim (reapChildren_evolves polled), fun t ht => held_of_mem ht⟩
  | exit id status =>
    refine ⟨.of_shim (evolves_of_step (e := .Exit id status) (Shim.exit_step status) ?_),
      fun t ht => held_of_mem ht⟩
    rintro env specJson ⟨⟩

/-! ## Runs -/

/-- **Whoever knows how the process ended** knows what the shim does. -/
structure Agreed (known : Option ℤ) (w : World) : Prop where
  shim : Knows known w.shimId w.shim
  record : ∀ r, w.record = some r → r.exitCode = none ∨ r.exitCode = known
  tasks : ∀ t ∈ w.tasks, (∀ r, t.read = some r → r.exitCode = none ∨ r.exitCode = known) ∧
    ∀ code, t.ended = some code → known.isSome = true ∧ code = known

structure Inv (w : World) : Prop where
  handle : w.record = none → w.handle = false
  agreed : ∃ known, Agreed known w

variable {known : Option ℤ}

lemma Agreed.step (h : Agreed known w) (hmoved : Moved w w' wrote) :
    ∃ known', (known = none ∨ known' = known) ∧ Agreed known' w' := by
  obtain ⟨known', hknown, hshim⟩ := hmoved.effect.shim known h.shim
  have hlater : ∀ code, code = none ∨ code = known → code = none ∨ code = known' := by
    rcases hknown with rfl | rfl
    · exact fun _ hcode => .inl (hcode.elim id id)
    · exact fun _ => id
  refine ⟨known', hknown, hmoved.effect.shimId ▸ hshim, fun r' hr' => hlater _ ?_,
    fun t ht => ⟨fun r hr => hlater _ ?_, fun code hcode => ?_⟩⟩
  · rcases hmoved.effect.record r' hr' with ⟨r, hr, heq⟩ | ⟨t, ht, read, hread, -, -, heq⟩ |
      ⟨-, t, ht, hended⟩
    · rw [heq]
      exact h.record r hr
    · rw [heq]
      exact (h.tasks t ht).1 read hread
    · exact .inr ((h.tasks t ht).2 _ hended).2
  · rcases (hmoved.tasks t ht).1 r hr with hsame | ⟨t₀, ht₀, hr₀⟩
    · exact h.record r hsame
    · exact (h.tasks t₀ ht₀).1 r hr₀
  · have hold : known.isSome = true ∧ code = known := by
      rcases (hmoved.tasks t ht).2 code hcode with ⟨p, hlookup, hstopped, rfl⟩ | ⟨t₀, ht₀, hcode₀⟩
      · exact ⟨(h.shim p hlookup).1.mp hstopped, (h.shim p hlookup).2⟩
      · exact (h.tasks t₀ ht₀).2 code hcode₀
    rcases hknown with rfl | rfl
    · cases hold.1
    · exact hold

lemma Inv.step (h : Inv w) (e : Event) : Inv (w.step e) := by
  have hmoved := step_moved w e
  constructor
  · intro hnone
    rcases hmoved.effect.gone hnone with hbefore | hafter
    · by_contra hhandle
      have := h.handle hbefore
      rw [hmoved.effect.handle (Bool.eq_true_of_not_eq_false hhandle)] at this
      cases this
    · exact hafter
  · obtain ⟨known, hagreed⟩ := h.agreed
    obtain ⟨known', -, hagreed'⟩ := hagreed.step hmoved
    exact ⟨known', hagreed'⟩

/-- **Only an answer of the shim brings a record back.** -/
lemma Inv.reappears_iff (h : Inv w) (hnone : w.record = none) (e : Event) :
    (w.step e).record ≠ none ↔ w.writesBack e = true := by
  have heffect := (step_moved w e).effect
  constructor
  · intro hne
    obtain ⟨r', hr'⟩ := Option.ne_none_iff_exists'.mp hne
    rcases heffect.record r' hr' with ⟨r, hr, -⟩ | ⟨t, ht, read, hread, hhandle, -⟩ | ⟨hwrote, -⟩
    · rw [hnone] at hr
      cases hr
    · rw [h.handle hnone] at hhandle
      cases hhandle
    · exact hwrote
  · exact heffect.written

variable {code : ℤ}

/-- The exit code is known, and the record has it as long as there is one. -/
structure Recorded (code : ℤ) (w : World) : Prop where
  inv : Inv w
  ended : Agreed (some code) w
  record : ∀ r, w.record = some r → r.exitCode = some code

lemma Recorded.step (h : Recorded code w) (e : Event) : Recorded code (w.step e) := by
  have hmoved := step_moved w e
  obtain ⟨known', hknown, hended⟩ := h.ended.step hmoved
  obtain rfl := hknown.resolve_left nofun
  refine ⟨h.inv.step e, hended, fun r' hr' => ?_⟩
  rcases hmoved.effect.record r' hr' with ⟨r, hr, heq⟩ | ⟨t, ht, read, hread, -, hactive, -⟩ |
    ⟨-, t, ht, hcode⟩
  · exact heq.trans (h.record r hr)
  · exact absurd h.ended.shim (hactive code)
  · exact ((h.ended.tasks t ht).2 _ hcode).2

lemma Inv.recorded (h : Inv w) (hr : w.record = some r) (hcode : r.exitCode = some code) :
    Recorded code w := by
  obtain ⟨known, hagreed⟩ := h.agreed
  have hknown : known = some code := by
    rcases hagreed.record r hr with hnone | hsome
    · cases hnone.symm.trans hcode
    · exact hsome.symm.trans hcode
  refine ⟨h, hknown ▸ hagreed, fun r' hr' => ?_⟩
  rw [hr] at hr'
  cases hr'
  exact hcode

lemma inv_created (container : Container) (pid : ℕ) (shim : ShimState) (specJson : String) :
    Inv (created container pid shim specJson) := by
  refine ⟨nofun, none, fun p hp => ?_, ?_, fun t ht => absurd ht not_mem_nil⟩
  · cases hp.symm.trans (Shim.set_containers_self _)
    exact ⟨by simp, rfl⟩
  · rintro _ ⟨rfl⟩
    exact .inl rfl

/-- **The record never goes back**, at any two moments of a run: what has been deleted stays
    deleted, and an exit code stays the same. -/
structure NeverRegresses (start : World) (es : List Event) : Prop where
  deleted : ∀ before between after, es = before ++ between ++ after →
    (run step start before).record = none → (run step start (before ++ between)).record = none
  exitCode : ∀ before between after r r' code, es = before ++ between ++ after →
    (run step start before).record = some r → r.exitCode = some code →
    (run step start (before ++ between)).record = some r' → r'.exitCode = some code

/-- An answer of the shim is written back only if the container is still there. -/
def StillThere (w : World) (e : Event) : Prop := w.writesBack e = true → w.record ≠ none

/-- **Exit codes are kept**, whatever happens. -/
lemma exitCode_kept (h : Inv w) (es : List Event) {r' : ContainerRecord} (hr : w.record = some r)
    (hcode : r.exitCode = some code) (hr' : (run step w es).record = some r') :
    r'.exitCode = some code := by
  have hrecorded : Recorded code (run step w es) :=
    run_invariant (fun _ e h => h.step e) (h.recorded hr hcode) es
  exact hrecorded.record r' hr'

variable {es : List Event}

lemma stays_deleted (h : Inv w) (hnone : w.record = none) (hes : Meets step StillThere w es) :
    (run step w es).record = none := by
  have hinv : Inv (run step w es) ∧ (run step w es).record = none := by
    refine Meets.invariant (I := fun w => Inv w ∧ w.record = none) ?_ ⟨h, hnone⟩ hes
    rintro w e ⟨h, hnone⟩ hstill
    refine ⟨h.step e, ?_⟩
    by_contra hne
    exact hstill ((h.reappears_iff hnone e).mp hne) hnone
  exact hinv.2

/-- Every event of a run meets the condition, if no record comes back. -/
lemma meets_stillThere (h : Inv w)
    (hdeleted : ∀ before between after, es = before ++ between ++ after →
      (run step w before).record = none → (run step w (before ++ between)).record = none) :
    Meets step StillThere w es := by
  induction es generalizing w with
  | nil => trivial
  | cons e es ih =>
    refine ⟨fun hwrites hnone => ?_, ih (h.step e) fun before between after hes hnone => ?_⟩
    · exact (h.reappears_iff hnone e).mpr hwrites (hdeleted [] [e] es rfl hnone)
    · exact hdeleted (e :: before) between after (by rw [hes]; rfl) hnone

end World

open World

/-- **The record of a container**, over every run of requests, however they interleave: it never
    goes back exactly if no answer of the shim is written back after the container has been
    deleted. -/
theorem container_record_iff (container : Container) (pid : ℕ) (shim : ShimState)
    (specJson : String) (es : List Event) :
    NeverRegresses (created container pid shim specJson) es ↔
      Meets step StillThere (created container pid shim specJson) es := by
  have hinv := inv_created container pid shim specJson
  constructor
  · intro h
    exact meets_stillThere hinv h.deleted
  · intro hmeets
    have hbefore : ∀ before, Inv (run step (created container pid shim specJson) before) :=
      fun before => run_invariant (fun _ e h => h.step e) hinv before
    refine ⟨fun before between after hes hnone => ?_, ?_⟩
    · rw [hes, meets_append, meets_append] at hmeets
      rw [run_append]
      exact stays_deleted (hbefore before) hnone hmeets.1.2
    · intro before between after r r' code hes hr hcode hr'
      rw [run_append] at hr'
      exact exitCode_kept (hbefore before) between hr hcode hr'

/-! ### A container that comes back -/

/-- Everything works, and the process is found dead. -/
def calm : Env where
  zoneFound := true
  reached := true
  answered := true
  stored := true
  logsRemoved := true
  shim := Shim.sampleEnv
  dead := true
  now := 1

def fresh : World := created ⟨1, "c", 1, .Created⟩ 0 (.new "zone" "/") "spec"

/-- The container is started.  A query for its state has its answer, the process having ended, when
    the container is looked at, found dead, and deleted. -/
def deletedMeanwhile : List Event :=
  [.call .start, .resume 0 calm, .call .state, .resume 0 calm, .exit "1" (.Exited 0),
    .reap fun _ => true, .answer 0 calm, .get calm, .call (.delete false), .resume 1 calm,
    .resume 1 calm]

/-- **A deleted container comes back**, when the query goes on. -/
theorem deleted_container_reappears :
    (run step fresh deletedMeanwhile).record = none ∧
      (run step fresh (deletedMeanwhile ++ [.resume 0 calm])).record ≠ none := by
  decide

end Rauha.Containers
