import Rauha.Backend.Registry
import Rauha.Library.Transition

/-!
# Requests at the same time

Requests to the zone registry run as tasks that give way to each other where they wait.  Zones are
created and deleted one at a time, under a lock; everything else goes on meanwhile, and a request
may have read the record of a zone or a container long before it writes.

**The state.**  `World.mutation` is the task that holds the lock of zone mutations, so that there is
at most one.  The table of handles has readers and a writer: a deletion that is past its wait for
the table is the writer (`World.writing`), a container creation that waits for the table of
containers is a reader (`World.reading`).

**The argument.**  All that counts of the store is which id a zone name stands for and which zone a
container is in (`Metadata.zoneIdOf`, `Metadata.homeOf`).  A record that is written back does not
change either of them, if what was read is still true: for a container the shim guarantees that, for
a zone **nobody does**.  `registry_consistent` has it as a condition on the steps of a run.
-/

namespace Rauha

open List Function

namespace Metadata

variable (self : Metadata)

/-- The id of the zone of that name. -/
def zoneIdOf (name : String) : Option ℕ := (self.getZone name).map Zone.id

/-- The zone a container is recorded for. -/
def homeOf (id : ℕ) : Option ℕ := (self.containers.lookup id).map Container.zoneId

@[simp] lemma zoneIdOf_putZone (zone : Zone) :
    (self.putZone zone).zoneIdOf = update self.zoneIdOf zone.name (some zone.id) := by
  funext name
  by_cases h : name = zone.name
  · subst h
    simp [zoneIdOf]
  · simp [zoneIdOf, getZone_putZone_ne h, h]

@[simp] lemma zoneIdOf_deleteZone (name : String) :
    (self.deleteZone name).zoneIdOf = update self.zoneIdOf name none := by
  funext name'
  by_cases h : name' = name
  · subst h
    simp [zoneIdOf]
  · simp [zoneIdOf, getZone_deleteZone_ne h, h]

@[simp] lemma homeOf_putContainer (container : Container) :
    (self.putContainer container).homeOf =
      update self.homeOf container.id (some container.zoneId) := by
  funext id
  by_cases h : id = container.id
  · subst h
    simp [homeOf, putContainer]
  · simp [homeOf, putContainer, AList.lookup_insert_ne h, h]

@[simp] lemma homeOf_deleteContainer (id : ℕ) :
    (self.deleteContainer id).homeOf = update self.homeOf id none := by
  funext id'
  by_cases h : id' = id
  · subst h
    simp [homeOf, deleteContainer]
  · simp [homeOf, deleteContainer, AList.lookup_erase_ne h, h]

end Metadata

namespace Requests

open Transition

/-! ## Tasks -/

/-- **A request under way**, by what it waits for and what it has read. -/
inductive Task where
  /-- A creation waits for the lock of zone mutations. -/
  | createLock (name : String) (zoneType : ZoneType) (policy : ZonePolicy)
  | deleteLock (name : String) (force : Bool)
  /-- A policy waits for the table of handles. -/
  | applyHandles (zone : Zone) (policy : ZonePolicy)
  /-- A container creation has its layers prepared and waits for the table of handles. -/
  | containerHandles (zone : Zone) (name : String)
  /-- It has persisted the container and waits for the table of containers. -/
  | containerCached (id zoneId : ℕ)
  | start (read : Container)
  | stop (read : Container)
  /-- A container deletion stops the container first. -/
  | removeStop (read : Container)
  /-- It waits for the table of handles, to find the name of the zone. -/
  | removeZone (read : Container)
  /-- It waits for the table of containers. -/
  | removeCached (id : ℕ)
  deriving DecidableEq, Repr

/-- **The task that holds the lock of zone mutations.** -/
inductive Mutation where
  /-- The zone is persisted; its handle waits for the table of handles. -/
  | createHandle (zone : Zone)
  | deleteHandles (zone : Zone) (force : Bool)
  /-- The containers of the zone, and those that are still to be stopped. -/
  | deleteStop (zone : Zone) (handle : ℕ) (containers running : List Container)
  /-- The container whose record is gone already, and those whose record is not. -/
  | deleteContainers (zone : Zone) (id : ℕ) (rest : List Container)
  deriving DecidableEq, Repr

structure World where
  store : Metadata
  /-- The ids of the handles that are cached, by zone name. -/
  handles : AList fun _ : String => ℕ
  /-- The zones of the container handles that are cached. -/
  containerHandles : AList fun _ : ℕ => ℕ
  /-- The containers the shims know, each with the zone of its shim. -/
  shims : Finset (ℕ × ℕ)
  /-- The next id. -/
  fresh : ℕ
  mutation : Option Mutation
  tasks : List Task

inductive Request where
  | createZone (name : String) (zoneType : ZoneType) (policy : ZonePolicy)
  | deleteZone (name : String) (force : Bool)
  | applyPolicy (zoneName : String) (policy : ZonePolicy)
  | createContainer (zoneName name : String)
  | startContainer (id : ℕ)
  | stopContainer (id : ℕ)
  | deleteContainer (id : ℕ) (force : Bool)

/-- What the backend answers: whether it admits a policy and the shim does what it is asked for, and
    the network state of a new zone. -/
structure Env where
  accepted : Bool
  networkState : Option ZoneNetworkState

inductive Event where
  /-- A request comes in and runs to its first wait. -/
  | call (request : Request)
  | resume (i : ℕ) (env : Env)
  /-- The task that holds the lock of zone mutations goes on. -/
  | mutate

namespace World

variable (w : World) (env : Env)

/-- Somebody holds the table of handles for reading. -/
def reading : Bool :=
  w.tasks.any fun
    | .containerCached _ _ => true
    | _ => false

/-- Somebody holds the table of handles for writing. -/
def writing : Bool :=
  match w.mutation with
  | some (.deleteStop _ _ _ _) | some (.deleteContainers _ _ _) => true
  | _ => false

/-! ## Steps -/

/-- A request up to its first wait. -/
def call : Request → List Task
  | .createZone name zoneType policy =>
    match validateZoneName name with
    | .ok () => [.createLock name zoneType policy]
    | .error _ => []
  | .deleteZone name force => [.deleteLock name force]
  | .applyPolicy zoneName policy => (w.store.getZone zoneName).toList.map (.applyHandles · policy)
  | .createContainer zoneName name =>
    (w.store.getZone zoneName).toList.map (.containerHandles · name)
  | .startContainer id => (w.store.containers.lookup id).toList.map .start
  | .stopContainer id => (w.store.containers.lookup id).toList.map .stop
  | .deleteContainer id force =>
    match w.store.containers.lookup id with
    | some read =>
      if read.state = .Running then
        if force then [.removeStop read] else []
      else [.removeZone read]
    | none => []

/-- `create_zone` under the lock, up to its wait for the table of handles. -/
def createZone (name : String) (zoneType : ZoneType) (policy : ZonePolicy) : World :=
  match w.store.getZone name with
  | some _ => w
  | none =>
    let zone : Zone := ⟨w.fresh, name, zoneType, policy, env.networkState⟩
    { w with
      store := w.store.putZone zone
      fresh := w.fresh + 1
      mutation := some (.createHandle zone) }

/-- `delete_zone` under the lock, up to its wait for the table of handles. -/
def deleteZone (name : String) (force : Bool) : World :=
  match w.store.getZone name with
  | some zone => { w with mutation := some (.deleteHandles zone force) }
  | none => w

/-- The rest of `apply_policy`. -/
def applyPolicy (zone : Zone) (policy : ZonePolicy) : World :=
  match w.handles.lookup zone.name with
  | some _ =>
    if env.accepted then { w with store := w.store.putZone { zone with policy := policy } } else w
  | none => w

/-- `create_container`, up to its wait for the table of containers. -/
def createContainer (zone : Zone) (name : String) : World × List Task :=
  match w.handles.lookup zone.name with
  | some handle =>
    if env.accepted then
      ({ w with
          store := w.store.putContainer ⟨w.fresh, name, zone.id, .Created⟩
          shims := insert (w.fresh, handle) w.shims
          fresh := w.fresh + 1 },
        [.containerCached w.fresh handle])
    else (w, [])
  | none => (w, [])

/-- The shim of the zone of a container's handle is asked; the record goes back with the new state.
    With whether that succeeds. -/
def updateContainer (read : Container) (state : ContainerState) : Bool × World :=
  match w.containerHandles.lookup read.id with
  | some zoneId =>
    if (read.id, zoneId) ∈ w.shims ∧ env.accepted then
      (true, { w with store := w.store.putContainer { read with state := state } })
    else (false, w)
  | none => (false, w)

/-- A container deletion asks the shim of the zone, unless the zone has no handle. -/
def deleteFromShim (read : Container) : World × List Task :=
  if w.handles.entries.any (·.2 = read.zoneId) then
    if env.accepted then
      ({ w with shims := w.shims.erase (read.id, read.zoneId) }, [.removeCached read.id])
    else (w, [])
  else (w, [.removeCached read.id])

/-- From one wait to the next: the world after it and the task if it goes on, or nothing if what the
    task waits for is taken. -/
def resume : Task → Option (World × List Task)
  | .createLock name zoneType policy =>
    if w.mutation.isSome then none else some (w.createZone env name zoneType policy, [])
  | .deleteLock name force =>
    if w.mutation.isSome then none else some (w.deleteZone name force, [])
  | .applyHandles zone policy =>
    if w.writing then none else some (w.applyPolicy env zone policy, [])
  | .containerHandles zone name =>
    if w.writing then none else some (w.createContainer env zone name)
  | .containerCached id zoneId =>
    some ({ w with containerHandles := w.containerHandles.insert id zoneId }, [])
  | .start read => some ((w.updateContainer env read .Running).2, [])
  | .stop read => some ((w.updateContainer env read .Stopped).2, [])
  | .removeStop read =>
    some ((w.updateContainer env read .Stopped).2,
      if (w.updateContainer env read .Stopped).1 then [.removeZone read] else [])
  | .removeZone read => if w.writing then none else some (w.deleteFromShim env read)
  | .removeCached id =>
    some ({ w with
      containerHandles := w.containerHandles.erase id
      store := w.store.deleteContainer id }, [])

/-- The records of the containers go one by one, and that of the zone with its handle. -/
def forget (zone : Zone) : List Container → World
  | [] =>
    { w with
      store := w.store.deleteZone zone.name
      handles := w.handles.erase zone.name
      mutation := none }
  | container :: rest =>
    { w with
      store := w.store.deleteContainer container.id
      mutation := some (.deleteContainers zone container.id rest) }

/-- The next container to be stopped.  If there is none the backend destroys the zone, and its shim
    with it. -/
def stopNext (zone : Zone) (handle : ℕ) (containers : List Container) : List Container → World
  | [] => { w with shims := w.shims.filter (·.2 ≠ handle) }.forget zone containers
  | running => { w with mutation := some (.deleteStop zone handle containers running) }

/-- The task that holds the lock goes on, if it can. -/
def mutate : Mutation → World
  | .createHandle zone =>
    if w.reading then w
    else { w with handles := w.handles.insert zone.name zone.id, mutation := none }
  | .deleteHandles zone force =>
    if w.reading then w
    else
      match w.handles.lookup zone.name with
      | none => { w with mutation := none }
      | some handle =>
        let containers := w.store.listContainers (some zone.id)
        if containers ≠ [] ∧ force = false then { w with mutation := none }
        else w.stopNext zone handle containers (containers.filter (·.state = .Running))
  | .deleteStop zone handle containers running =>
    -- What the shim says is ignored.
    w.stopNext zone handle containers running.tail
  | .deleteContainers zone id rest =>
    { w with containerHandles := w.containerHandles.erase id }.forget zone rest

/-- Take a task out of the queue. -/
def without (i : ℕ) : World := { w with tasks := w.tasks.eraseIdx i }

/-- **One event.** -/
def step (w : World) : Event → World
  | .call request => { w with tasks := w.tasks ++ w.call request }
  | .resume i env =>
    match w.tasks[i]? with
    | some task =>
      match (w.without i).resume env task with
      | some (w', next) => { w' with tasks := w'.tasks ++ next }
      | none => w
    | none => w
  | .mutate =>
    match w.mutation with
    | some mutation => w.mutate mutation
    | none => w

/-! ## What is claimed -/

/-- **Handles and records agree.** -/
structure Consistent (w : World) : Prop where
  handle_zone : ∀ name id, w.handles.lookup name = some id →
    ∃ zone, w.store.getZone name = some zone ∧ zone.id = id
  zone_handle : ∀ name zone, w.store.getZone name = some zone → w.handles.lookup name = some zone.id
  container_zone : ∀ id container, w.store.containers.lookup id = some container →
    ∃ name zone, w.store.getZone name = some zone ∧ zone.id = container.zoneId

/-- No request is under way. -/
def Idle (w : World) : Prop := w.mutation = none ∧ w.tasks = []

/-- The registry with nothing to do: it is consistent, no id stands for two zones, every container
    of a shim has its record, and the next id is new. -/
structure Settled (w : World) : Prop extends w.Consistent where
  idle : w.Idle
  unique : ∀ name₁ name₂ id, w.store.zoneIdOf name₁ = some id → w.store.zoneIdOf name₂ = some id →
    name₁ = name₂
  shim_record : ∀ id zoneId, (id, zoneId) ∈ w.shims → w.store.homeOf id = some zoneId
  zone_lt : ∀ name id, w.store.zoneIdOf name = some id → id < w.fresh
  container_lt : ∀ id zoneId, w.store.homeOf id = some zoneId → id < w.fresh

/-- **The zone is still there.**  A request that is about to write with what it has read of a zone
    finds the zone of that id persisted under that name. -/
def Current (w : World) : Event → Prop
  | .resume i env =>
    match w.tasks[i]? with
    | some (.applyHandles zone _) | some (.containerHandles zone _) =>
      env.accepted → w.handles.lookup zone.name ≠ none →
        w.store.zoneIdOf zone.name = some zone.id
    | _ => True
  | _ => True

/-- The same of the task that goes on. -/
def TaskCurrent (w : World) (env : Env) : Task → Prop
  | .applyHandles zone _ | .containerHandles zone _ =>
    env.accepted → w.handles.lookup zone.name ≠ none → w.store.zoneIdOf zone.name = some zone.id
  | _ => True

/-! ## The invariant -/

/-- What a task relies on.  The record it has read need not be there any more, but it has not become
    that of a container elsewhere; and a deletion that is past the shim has no container there. -/
def TaskOk (w : World) : Task → Prop
  | .start read | .stop read | .removeStop read | .removeZone read =>
    read.id < w.fresh ∧ ∀ zoneId, w.store.homeOf read.id = some zoneId → zoneId = read.zoneId
  | .removeCached id => id < w.fresh ∧ ∀ zoneId, (id, zoneId) ∉ w.shims
  | _ => True

/-- The containers of a zone that is being deleted: all of them are listed, and none of another. -/
structure Listed (w : World) (zone : Zone) (containers : List Container) : Prop where
  persisted : w.store.zoneIdOf zone.name = some zone.id
  only : ∀ container ∈ containers, container.zoneId = zone.id ∧ w.TaskOk (.removeZone container)
  all : ∀ id, w.store.homeOf id = some zone.id → id ∈ containers.map Container.id

/-- What the task relies on that holds the lock of zone mutations. -/
def MutationOk (w : World) : Mutation → Prop
  | .createHandle zone =>
    w.store.zoneIdOf zone.name = some zone.id ∧ w.handles.lookup zone.name = none ∧
      ∀ id, w.store.homeOf id ≠ some zone.id
  | .deleteHandles zone _ => w.store.zoneIdOf zone.name = some zone.id
  | .deleteStop zone handle containers _ => w.Listed zone containers ∧ handle = zone.id
  | .deleteContainers zone _ rest => w.Listed zone rest ∧ ∀ id, (id, zone.id) ∉ w.shims

/-- The zone is persisted and its handle is not yet cached. -/
def Creating (w : World) (name : String) (id : ℕ) : Prop :=
  ∃ zone, w.mutation = some (.createHandle zone) ∧ zone.name = name ∧ zone.id = id

/-- **The invariant.** -/
structure Inv (w : World) : Prop where
  handle_zone : ∀ name id, w.handles.lookup name = some id → w.store.zoneIdOf name = some id
  zone_handle : ∀ name id, w.store.zoneIdOf name = some id →
    w.handles.lookup name = some id ∨ w.Creating name id
  container_zone : ∀ id zoneId, w.store.homeOf id = some zoneId →
    ∃ name, w.store.zoneIdOf name = some zoneId
  unique : ∀ name₁ name₂ id, w.store.zoneIdOf name₁ = some id → w.store.zoneIdOf name₂ = some id →
    name₁ = name₂
  shim_record : ∀ id zoneId, (id, zoneId) ∈ w.shims → w.store.homeOf id = some zoneId
  zone_lt : ∀ name id, w.store.zoneIdOf name = some id → id < w.fresh
  container_lt : ∀ id zoneId, w.store.homeOf id = some zoneId → id < w.fresh
  tasks : ∀ task ∈ w.tasks, w.TaskOk task
  mutation : ∀ mutation, w.mutation = some mutation → w.MutationOk mutation

variable {w w' : World} {env : Env}

lemma Settled.inv (h : w.Settled) : w.Inv where
  handle_zone name id hid := by
    obtain ⟨zone, hzone, rfl⟩ := h.handle_zone name id hid
    simp [Metadata.zoneIdOf, hzone]
  zone_handle name id hid := by
    obtain ⟨zone, hzone, rfl⟩ := Option.map_eq_some_iff.mp hid
    exact .inl (h.zone_handle name zone hzone)
  container_zone id zoneId hid := by
    obtain ⟨container, hcontainer, rfl⟩ := Option.map_eq_some_iff.mp hid
    obtain ⟨name, zone, hzone, hzoneId⟩ := h.container_zone id container hcontainer
    exact ⟨name, by simp [Metadata.zoneIdOf, hzone, hzoneId]⟩
  unique := h.unique
  shim_record := h.shim_record
  zone_lt := h.zone_lt
  container_lt := h.container_lt
  tasks := by simp [h.idle.2]
  mutation := by simp [h.idle.1]

lemma Inv.consistent (h : w.Inv) (hidle : w.Idle) : w.Consistent where
  handle_zone name id hid := Option.map_eq_some_iff.mp (h.handle_zone name id hid)
  zone_handle name zone hzone := by
    have hid : w.store.zoneIdOf name = some zone.id := by simp [Metadata.zoneIdOf, hzone]
    obtain hhandle | ⟨creating, hcreating, -⟩ := h.zone_handle name zone.id hid
    · exact hhandle
    · simp [hidle.1] at hcreating
  container_zone id container hcontainer := by
    have hid : w.store.homeOf id = some container.zoneId := by simp [Metadata.homeOf, hcontainer]
    obtain ⟨name, hname⟩ := h.container_zone id _ hid
    obtain ⟨zone, hzone, hzoneId⟩ := Option.map_eq_some_iff.mp hname
    exact ⟨name, zone, hzone, hzoneId⟩

/-! ### Steps that take away -/

/-- What the tasks see of a step: ids are not given out twice, and an old container does not come
    back. -/
structure Shrinks (w w' : World) : Prop where
  fresh : w.fresh ≤ w'.fresh
  home : ∀ id zoneId, id < w.fresh → w'.store.homeOf id = some zoneId →
    w.store.homeOf id = some zoneId
  shims : ∀ id zoneId, id < w.fresh → (id, zoneId) ∈ w'.shims → (id, zoneId) ∈ w.shims

variable {task : Task}

lemma TaskOk.mono (h : w.TaskOk task) (hmono : w.Shrinks w') : w'.TaskOk task := by
  cases task with
  | start read | stop read | removeStop read | removeZone read =>
    exact ⟨h.1.trans_le hmono.fresh, fun zoneId hid => h.2 zoneId (hmono.home _ _ h.1 hid)⟩
  | removeCached id =>
    exact ⟨h.1.trans_le hmono.fresh, fun zoneId hmem => h.2 zoneId (hmono.shims _ _ h.1 hmem)⟩
  | _ => trivial

/-- The zones and the handles stay as they are, and containers only go. -/
structure Frame (w w' : World) : Prop where
  zoneIdOf : w'.store.zoneIdOf = w.store.zoneIdOf
  handles : w'.handles = w.handles
  fresh : w'.fresh = w.fresh
  home : ∀ id zoneId, w'.store.homeOf id = some zoneId → w.store.homeOf id = some zoneId
  shims : w'.shims ⊆ w.shims

lemma Frame.rest (cached : AList fun _ : ℕ => ℕ) (mutation : Option Mutation) (tasks : List Task) :
    w.Frame { w with containerHandles := cached, mutation := mutation, tasks := tasks } :=
  ⟨rfl, rfl, rfl, fun _ _ hid => hid, Finset.Subset.rfl⟩

lemma Frame.shrinks (h : w.Frame w') : w.Shrinks w' :=
  ⟨h.fresh.ge, fun id zoneId _ => h.home id zoneId, fun _ _ _ hmem => h.shims hmem⟩

variable {zone : Zone} {containers : List Container}

lemma Listed.frame (h : w.Listed zone containers) (hframe : w.Frame w') :
    w'.Listed zone containers where
  persisted := hframe.zoneIdOf ▸ h.persisted
  only container hmem := ⟨(h.only container hmem).1, (h.only container hmem).2.mono hframe.shrinks⟩
  all id hid := h.all id (hframe.home id _ hid)

variable {mutation : Mutation}

lemma MutationOk.frame (h : w.MutationOk mutation) (hframe : w.Frame w') :
    w'.MutationOk mutation := by
  cases mutation with
  | createHandle zone =>
    refine ⟨hframe.zoneIdOf ▸ h.1, hframe.handles ▸ h.2.1, fun id hid => ?_⟩
    exact h.2.2 id (hframe.home id _ hid)
  | deleteHandles zone force => exact (congrFun hframe.zoneIdOf zone.name).trans h
  | deleteStop zone handle containers running =>
    exact ⟨h.1.frame hframe, h.2⟩
  | deleteContainers zone id rest =>
    exact ⟨h.1.frame hframe, fun id hmem => h.2 id (hframe.shims hmem)⟩

variable (h : w.Inv)

include h

lemma Inv.frame (hframe : w.Frame w') (hmutation : w'.mutation = w.mutation)
    (hrecord : ∀ id zoneId, (id, zoneId) ∈ w'.shims → w'.store.homeOf id = some zoneId)
    (htasks : ∀ task ∈ w'.tasks, task ∈ w.tasks ∨ w'.TaskOk task) : w'.Inv where
  handle_zone := by
    rw [hframe.handles, hframe.zoneIdOf]
    exact h.handle_zone
  zone_handle := by
    simp only [Creating, hframe.handles, hframe.zoneIdOf, hmutation]
    exact h.zone_handle
  container_zone id zoneId hid := by
    rw [hframe.zoneIdOf]
    exact h.container_zone id zoneId (hframe.home id zoneId hid)
  unique := by
    rw [hframe.zoneIdOf]
    exact h.unique
  shim_record := hrecord
  zone_lt := by
    rw [hframe.zoneIdOf, hframe.fresh]
    exact h.zone_lt
  container_lt id zoneId hid := hframe.fresh ▸ h.container_lt id zoneId (hframe.home id zoneId hid)
  tasks task htask := by
    obtain hold | hok := htasks task htask
    · exact (h.tasks task hold).mono hframe.shrinks
    · exact hok
  mutation mutation heq := (h.mutation mutation (hmutation ▸ heq)).frame hframe

variable {next : List Task}

lemma Inv.addTasks (hnext : ∀ task ∈ next, w.TaskOk task) :
    { w with tasks := w.tasks ++ next }.Inv := by
  refine h.frame (.rest _ _ _) rfl h.shim_record ?_
  intro task htask
  rw [mem_append] at htask
  exact htask.imp_right (hnext task)

lemma Inv.without (i : ℕ) : (w.without i).Inv := by
  refine h.frame (.rest _ _ _) rfl h.shim_record ?_
  intro task htask
  exact .inl (mem_of_mem_eraseIdx htask)

lemma Inv.call (request : Request) : ∀ task ∈ w.call request, w.TaskOk task := by
  have hread : ∀ {id read}, w.store.containers.lookup id = some read →
      w.TaskOk (.removeZone read) := by
    intro id read hread
    have hid : w.store.homeOf read.id = some read.zoneId := by
      rw [w.store.container_key id read hread]
      simp [Metadata.homeOf, hread]
    exact ⟨h.container_lt _ _ hid, fun zoneId hzone => Option.some.inj (hzone.symm.trans hid)⟩
  intro task htask
  cases request with
  | createZone name zoneType policy =>
    simp only [World.call] at htask
    split at htask
    · obtain rfl := mem_singleton.mp htask
      trivial
    · simp at htask
  | deleteZone name force =>
    obtain rfl := mem_singleton.mp htask
    trivial
  | applyPolicy zoneName policy =>
    obtain ⟨zone, -, rfl⟩ := mem_map.mp htask
    trivial
  | createContainer zoneName name =>
    obtain ⟨zone, -, rfl⟩ := mem_map.mp htask
    trivial
  | startContainer id =>
    obtain ⟨read, hmem, rfl⟩ := mem_map.mp htask
    exact hread (Option.mem_toList.mp hmem)
  | stopContainer id =>
    obtain ⟨read, hmem, rfl⟩ := mem_map.mp htask
    exact hread (Option.mem_toList.mp hmem)
  | deleteContainer id force =>
    simp only [World.call] at htask
    split at htask
    · rename_i read hlookup
      split_ifs at htask
      · obtain rfl := mem_singleton.mp htask
        exact hread hlookup
      · simp at htask
      · obtain rfl := mem_singleton.mp htask
        exact hread hlookup
    · simp at htask

/-! ### Tasks -/

variable {policy : ZonePolicy}

lemma Inv.applyPolicy (hcurrent : w.TaskCurrent env (.applyHandles zone policy)) :
    (w.applyPolicy env zone policy).Inv := by
  unfold World.applyPolicy
  cases hhandle : w.handles.lookup zone.name with
  | none => exact h
  | some handle =>
    split_ifs with haccepted
    · have hzone := hcurrent haccepted (by simp [hhandle])
      refine h.frame ⟨?_, rfl, rfl, fun _ _ hid => hid, Finset.Subset.rfl⟩ rfl h.shim_record
        fun _ => .inl
      simp [← hzone]
    · exact h

variable {read : Container}

/-- The record goes back as it was, but for the state: the container is at the shim still. -/
lemma updateContainer_store
    (htask : ∀ zoneId, w.store.homeOf read.id = some zoneId → zoneId = read.zoneId) (env : Env)
    (state : ContainerState) :
    ∃ store, (w.updateContainer env read state).2 = { w with store := store } ∧
      store.zoneIdOf = w.store.zoneIdOf ∧ store.homeOf = w.store.homeOf := by
  unfold World.updateContainer
  cases hhandle : w.containerHandles.lookup read.id with
  | none => exact ⟨w.store, rfl, rfl, rfl⟩
  | some zoneId =>
    simp only
    split_ifs with hshim
    · have hhome := h.shim_record _ _ hshim.1
      refine ⟨_, rfl, rfl, ?_⟩
      simp [← htask zoneId hhome, ← hhome]
    · exact ⟨w.store, rfl, rfl, rfl⟩

lemma Inv.updateContainer (htask : w.TaskOk (.removeZone read)) (env : Env)
    (state : ContainerState) :
    (w.updateContainer env read state).2.Inv ∧
      (w.updateContainer env read state).2.TaskOk (.removeZone read) := by
  obtain ⟨store, hw, hzone, hhome⟩ := updateContainer_store h htask.2 env state
  rw [hw]
  refine ⟨h.frame ⟨hzone, rfl, rfl, fun id zoneId hid => ?_, Finset.Subset.rfl⟩ rfl ?_
    fun _ => .inl, htask.1, ?_⟩
  · exact hhome ▸ hid
  · intro id zoneId hmem
    exact (congrFun hhome id).trans (h.shim_record id zoneId hmem)
  · intro zoneId hid
    exact htask.2 zoneId ((congrFun hhome read.id).symm.trans hid)

variable {id : ℕ}

/-- A container that is recorded has a zone with a handle, while the table can be read. -/
lemma Inv.handle_of_home {zoneId : ℕ} (hid : w.store.homeOf id = some zoneId) :
    ∃ name, w.handles.lookup name = some zoneId := by
  obtain ⟨name, hname⟩ := h.container_zone id zoneId hid
  obtain hhandle | ⟨zone, hcreating, -, rfl⟩ := h.zone_handle name zoneId hname
  · exact ⟨name, hhandle⟩
  · exact absurd hid ((h.mutation _ hcreating).2.2 id)

lemma Inv.deleteFromShim (htask : w.TaskOk (.removeZone read)) :
    (w.deleteFromShim env read).1.Inv ∧
      ∀ task ∈ (w.deleteFromShim env read).2, (w.deleteFromShim env read).1.TaskOk task := by
  unfold World.deleteFromShim
  split_ifs with hhandle haccepted
  · refine ⟨h.frame ⟨rfl, rfl, rfl, fun _ _ hid => hid, Finset.erase_subset _ _⟩ rfl ?_
      fun _ => .inl, ?_⟩
    · intro id zoneId hmem
      exact h.shim_record id zoneId (Finset.mem_of_mem_erase hmem)
    · intro task hmem
      obtain rfl := mem_singleton.mp hmem
      refine ⟨htask.1, fun zoneId hmem => ?_⟩
      obtain ⟨hne, hold⟩ := Finset.mem_erase.mp hmem
      exact hne (by rw [htask.2 zoneId (h.shim_record _ _ hold)])
  · exact ⟨h, by simp⟩
  · refine ⟨h, fun task hmem => ?_⟩
    obtain rfl := mem_singleton.mp hmem
    refine ⟨htask.1, fun zoneId hmem => hhandle ?_⟩
    have hhome := h.shim_record _ _ hmem
    obtain ⟨name, hname⟩ := h.handle_of_home hhome
    rw [any_eq_true]
    exact ⟨⟨name, zoneId⟩, AList.mem_lookup_iff.mp hname, by simp [htask.2 zoneId hhome]⟩

omit h in
lemma frame_deleteContainer (w : World) (cached : AList fun _ : ℕ => ℕ) (id : ℕ) :
    w.Frame { w with containerHandles := cached, store := w.store.deleteContainer id } := by
  refine ⟨rfl, rfl, rfl, fun id' zoneId hid => ?_, Finset.Subset.rfl⟩
  by_cases hne : id' = id
  · simp [hne] at hid
  · simpa [hne] using hid

lemma Inv.deleteRecord (hshims : ∀ zoneId, (id, zoneId) ∉ w.shims) (cached : AList fun _ : ℕ => ℕ) :
    { w with containerHandles := cached, store := w.store.deleteContainer id }.Inv := by
  refine h.frame (frame_deleteContainer w cached id) rfl ?_ fun _ => .inl
  intro id' zoneId hmem
  have hne : id' ≠ id := by
    rintro rfl
    exact hshims zoneId hmem
  simpa [hne] using h.shim_record id' zoneId hmem

variable {name : String}

lemma Inv.createContainer (hfree : w.writing = false)
    (hcurrent : w.TaskCurrent env (.containerHandles zone name)) :
    (w.createContainer env zone name).1.Inv := by
  unfold World.createContainer
  cases hhandle : w.handles.lookup zone.name with
  | none => exact h
  | some handle =>
    split_ifs with haccepted
    · have hzone := hcurrent haccepted (by simp [hhandle])
      obtain rfl : handle = zone.id :=
        Option.some.inj ((h.handle_zone _ _ hhandle).symm.trans hzone)
      have hold : ∀ id zoneId, w.store.homeOf id = some zoneId → id ≠ w.fresh :=
        fun id zoneId hid => (h.container_lt id zoneId hid).ne
      exact
        { h with
          container_zone := by
            intro id zoneId hid
            rw [Metadata.homeOf_putContainer] at hid
            obtain ⟨-, rfl⟩ | ⟨-, hid⟩ := update_eq_some hid
            · exact ⟨zone.name, hzone⟩
            · exact h.container_zone id zoneId hid
          shim_record := by
            intro id zoneId hmem
            obtain heq | hmem := Finset.mem_insert.mp hmem
            · obtain ⟨rfl, rfl⟩ := Prod.mk.inj heq
              simp
            · have hid := h.shim_record id zoneId hmem
              simpa [hold id zoneId hid] using hid
          zone_lt := fun name id hid => (h.zone_lt name id hid).trans (Nat.lt_succ_self _)
          container_lt := by
            intro id zoneId hid
            rw [Metadata.homeOf_putContainer] at hid
            obtain ⟨rfl, -⟩ | ⟨-, hid⟩ := update_eq_some hid
            · exact Nat.lt_succ_self _
            · exact (h.container_lt id zoneId hid).trans (Nat.lt_succ_self _)
          tasks := by
            intro task htask
            refine (h.tasks task htask).mono ⟨Nat.le_succ _, ?_, ?_⟩
            · intro id zoneId hlt hid
              rw [Metadata.homeOf_putContainer] at hid
              exact ((update_eq_some hid).resolve_left fun hnew => hlt.ne hnew.1).2
            · intro id zoneId hlt hmem
              refine (Finset.mem_insert.mp hmem).resolve_left fun heq => hlt.ne ?_
              exact (Prod.mk.inj heq).1
          mutation := by
            intro mutation hmutation
            have hok := h.mutation mutation hmutation
            cases mutation with
            | createHandle other =>
              refine ⟨hok.1, hok.2.1, fun id hid => ?_⟩
              rw [Metadata.homeOf_putContainer] at hid
              obtain ⟨-, hid⟩ | ⟨-, hid⟩ := update_eq_some hid
              · have hname := h.unique _ _ _ (hid ▸ hok.1) hzone
                rw [← hname, hok.2.1] at hhandle
                cases hhandle
              · exact hok.2.2 id hid
            | deleteHandles other force => exact hok
            | deleteStop other handle containers running =>
              simp [World.writing, show w.mutation = _ from hmutation] at hfree
            | deleteContainers other id rest =>
              simp [World.writing, show w.mutation = _ from hmutation] at hfree }
    · exact h

/-! ### The holder of the lock -/

lemma Inv.createZone {zoneType : ZoneType} (hfree : w.mutation = none) :
    (w.createZone env name zoneType policy).Inv := by
  unfold World.createZone
  cases hzone : w.store.getZone name with
  | some zone => exact h
  | none =>
    have hnone : w.store.zoneIdOf name = none := by simp [Metadata.zoneIdOf, hzone]
    have hkeep : ∀ name' id, w.store.zoneIdOf name' = some id →
        update w.store.zoneIdOf name (some w.fresh) name' = some id := by
      intro name' id hid
      have hne : name' ≠ name := by
        rintro rfl
        simp [hnone] at hid
      simpa [hne] using hid
    have hhandle : w.handles.lookup name = none := by
      rw [Option.eq_none_iff_forall_ne_some]
      intro id hid
      have hzone := h.handle_zone name id hid
      simp [hnone] at hzone
    exact
      { h with
        handle_zone := by
          intro name' id hid
          rw [Metadata.zoneIdOf_putZone]
          exact hkeep name' id (h.handle_zone name' id hid)
        zone_handle := by
          intro name' id hid
          rw [Metadata.zoneIdOf_putZone] at hid
          obtain ⟨rfl, rfl⟩ | ⟨-, hid⟩ := update_eq_some hid
          · exact .inr ⟨_, rfl, rfl, rfl⟩
          · obtain hhandle | ⟨zone, hcreating, -⟩ := h.zone_handle name' id hid
            · exact .inl hhandle
            · simp [hfree] at hcreating
        container_zone := by
          intro id zoneId hid
          obtain ⟨name', hname⟩ := h.container_zone id zoneId hid
          exact ⟨name', by rw [Metadata.zoneIdOf_putZone]; exact hkeep name' zoneId hname⟩
        unique := by
          intro name₁ name₂ id h₁ h₂
          rw [Metadata.zoneIdOf_putZone] at h₁ h₂
          obtain ⟨hname₁, hid₁⟩ | ⟨-, h₁⟩ := update_eq_some h₁ <;>
            obtain ⟨hname₂, hid₂⟩ | ⟨-, h₂⟩ := update_eq_some h₂
          · exact hname₁.trans hname₂.symm
          · exact absurd hid₁ (h.zone_lt _ _ h₂).ne
          · exact absurd hid₂ (h.zone_lt _ _ h₁).ne
          · exact h.unique _ _ _ h₁ h₂
        zone_lt := by
          intro name' id hid
          rw [Metadata.zoneIdOf_putZone] at hid
          obtain ⟨-, rfl⟩ | ⟨-, hid⟩ := update_eq_some hid
          · exact Nat.lt_succ_self _
          · exact (h.zone_lt name' id hid).trans (Nat.lt_succ_self _)
        container_lt := fun id zoneId hid =>
          (h.container_lt id zoneId hid).trans (Nat.lt_succ_self _)
        tasks := fun task htask =>
          (h.tasks task htask).mono ⟨Nat.le_succ _, fun _ _ _ hid => hid, fun _ _ _ hmem => hmem⟩
        mutation := by
          rintro _ ⟨rfl⟩
          refine ⟨by simp, hhandle, fun id hid => ?_⟩
          obtain ⟨name', hname⟩ := h.container_zone id _ hid
          exact absurd rfl (h.zone_lt name' _ hname).ne }

omit h in
/-- Every zone has a handle, unless one is being created. -/
def Complete (w : World) : Prop :=
  ∀ name id, w.store.zoneIdOf name = some id → w.handles.lookup name = some id

lemma Inv.complete (hcreate : ∀ zone, w.mutation ≠ some (.createHandle zone)) : w.Complete := by
  intro name id hid
  obtain hhandle | ⟨zone, hcreating, -⟩ := h.zone_handle name id hid
  · exact hhandle
  · exact absurd hcreating (hcreate zone)

/-- The lock changes hands, or its holder goes on to what it does next. -/
lemma Inv.setMutation (hcomplete : w.Complete) {mutation : Option Mutation}
    (hmutation : ∀ m, mutation = some m → w.MutationOk m) :
    { w with mutation := mutation }.Inv :=
  { h with
    zone_handle := fun name id hid => .inl (hcomplete name id hid)
    mutation := fun m hm => (hmutation m hm).frame (.rest _ _ _) }

lemma Inv.deleteZone {force : Bool} (hfree : w.mutation = none) :
    (w.deleteZone name force).Inv := by
  unfold World.deleteZone
  cases hzone : w.store.getZone name with
  | none => exact h
  | some zone =>
    refine h.setMutation (h.complete (by simp [hfree])) ?_
    rintro _ ⟨rfl⟩
    have hname := w.store.zone_key name zone hzone
    subst hname
    simp [MutationOk, Metadata.zoneIdOf, hzone]

lemma Inv.createHandle (hmutation : w.mutation = some (.createHandle zone)) :
    { w with handles := w.handles.insert zone.name zone.id, mutation := none }.Inv := by
  obtain ⟨hzone, -, hempty⟩ := h.mutation _ hmutation
  exact
    { h with
      handle_zone := by
        intro name id hid
        rcases Table.of_lookup_insert hid with ⟨rfl, rfl⟩ | ⟨-, hold⟩
        · exact hzone
        · exact h.handle_zone name id hold
      zone_handle := by
        intro name id hid
        left
        by_cases hne : name = zone.name
        · subst hne
          rw [AList.lookup_insert]
          exact hzone.symm.trans hid
        · rw [AList.lookup_insert_ne hne]
          obtain hhandle | ⟨other, hcreating, rfl, -⟩ := h.zone_handle name id hid
          · exact hhandle
          · rw [hmutation] at hcreating
            cases hcreating
            exact absurd rfl hne
      mutation := by simp }

lemma Inv.forget (hcomplete : w.Complete) (hlisted : w.Listed zone containers)
    (hshims : ∀ id, (id, zone.id) ∉ w.shims) : (w.forget zone containers).Inv := by
  cases containers with
  | nil =>
    rw [World.forget]
    exact
      { h with
        handle_zone := by
          intro name id hid
          obtain ⟨hne, hold⟩ := Table.of_lookup_erase hid
          simpa [hne] using h.handle_zone name id hold
        zone_handle := by
          intro name id hid
          rw [Metadata.zoneIdOf_deleteZone] at hid
          obtain ⟨hne, hid⟩ := update_none_eq_some hid
          left
          rw [AList.lookup_erase_ne hne]
          exact hcomplete name id hid
        container_zone := by
          intro id zoneId hid
          obtain ⟨name, hname⟩ := h.container_zone id zoneId hid
          have hne : name ≠ zone.name := by
            rintro rfl
            have hzone := Option.some.inj (hname.symm.trans hlisted.persisted)
            simpa using hlisted.all id (hzone ▸ hid)
          exact ⟨name, by simpa [hne] using hname⟩
        unique := by
          intro name₁ name₂ id h₁ h₂
          rw [Metadata.zoneIdOf_deleteZone] at h₁ h₂
          exact h.unique _ _ _ (update_none_eq_some h₁).2 (update_none_eq_some h₂).2
        zone_lt := by
          intro name id hid
          rw [Metadata.zoneIdOf_deleteZone] at hid
          exact h.zone_lt name id (update_none_eq_some hid).2
        tasks := fun task htask => (h.tasks task htask).mono
          ⟨le_rfl, fun _ _ _ hid => hid, fun _ _ _ hmem => hmem⟩
        mutation := by simp }
  | cons container rest =>
    obtain ⟨hzone, htask⟩ := hlisted.only container (by simp)
    have hgone : ∀ zoneId, (container.id, zoneId) ∉ w.shims := by
      intro zoneId hmem
      have hid := htask.2 zoneId (h.shim_record _ _ hmem)
      exact hshims container.id (by rw [← hzone, ← hid]; exact hmem)
    have hframe := frame_deleteContainer w w.containerHandles container.id
    refine (h.deleteRecord hgone w.containerHandles).setMutation hcomplete ?_
    rintro _ ⟨rfl⟩
    refine ⟨⟨hlisted.persisted, ?_, ?_⟩, hshims⟩
    · intro other hmem
      obtain ⟨hother, hok⟩ := hlisted.only other (mem_cons_of_mem _ hmem)
      exact ⟨hother, hok.mono hframe.shrinks⟩
    · intro id hid
      have hmem := hlisted.all id (hframe.home id _ hid)
      rw [map_cons, mem_cons] at hmem
      refine hmem.resolve_left ?_
      rintro rfl
      simp at hid

lemma Inv.stopNext (running : List Container) (hcomplete : w.Complete)
    (hlisted : w.Listed zone containers) : (w.stopNext zone zone.id containers running).Inv := by
  cases running with
  | nil =>
    have hframe : w.Frame { w with shims := w.shims.filter (·.2 ≠ zone.id) } :=
      ⟨rfl, rfl, rfl, fun _ _ hid => hid, Finset.filter_subset _ _⟩
    refine .forget (h.frame hframe rfl ?_ fun _ => .inl) hcomplete (hlisted.frame hframe) ?_
    · intro id zoneId hmem
      exact h.shim_record id zoneId (Finset.mem_filter.mp hmem).1
    · simp
  | cons container rest =>
    refine h.setMutation hcomplete ?_
    rintro _ ⟨rfl⟩
    exact ⟨hlisted, rfl⟩

lemma Inv.listed (hzone : w.store.zoneIdOf zone.name = some zone.id) :
    w.Listed zone (w.store.listContainers (some zone.id)) where
  persisted := hzone
  only container hmem := by
    obtain ⟨hlookup, hzoneId⟩ := Metadata.mem_listContainers.mp hmem
    have hid : w.store.homeOf container.id = some container.zoneId := by
      simp [Metadata.homeOf, hlookup]
    exact ⟨by simpa using hzoneId, h.container_lt _ _ hid,
      fun zoneId hother => Option.some.inj (hother.symm.trans hid)⟩
  all id hid := by
    obtain ⟨container, hlookup, hzoneId⟩ := Option.map_eq_some_iff.mp hid
    have hkey := w.store.container_key id container hlookup
    subst hkey
    exact mem_map_of_mem (Metadata.mem_listContainers.mpr ⟨hlookup, by simpa using hzoneId⟩)

lemma Inv.mutate (hmutation : w.mutation = some mutation) : (w.mutate mutation).Inv := by
  have hok := h.mutation mutation hmutation
  cases mutation with
  | createHandle zone =>
    simp only [World.mutate]
    split_ifs
    · exact h
    · exact h.createHandle hmutation
  | deleteHandles zone force =>
    have hcomplete := h.complete (by simp [hmutation])
    simp only [World.mutate]
    cases hhandle : w.handles.lookup zone.name with
    | none =>
      simp only
      split_ifs
      · exact h
      · exact h.setMutation hcomplete (by simp)
    | some handle =>
      obtain rfl : handle = zone.id := Option.some.inj ((h.handle_zone _ _ hhandle).symm.trans hok)
      split_ifs
      · exact h
      · exact h.setMutation hcomplete (by simp)
      · exact h.stopNext _ hcomplete (h.listed hok)
  | deleteStop zone handle containers running =>
    obtain ⟨hlisted, rfl⟩ := hok
    exact h.stopNext _ (h.complete (by simp [hmutation])) hlisted
  | deleteContainers zone id rest =>
    exact .forget (h.frame (.rest _ _ _) rfl h.shim_record fun _ => .inl)
      (h.complete (by simp [hmutation])) (hok.1.frame (.rest _ _ _)) hok.2

/-! ### Events -/

lemma Inv.resume (htask : w.TaskOk task) (hcurrent : w.TaskCurrent env task)
    (hw : w.resume env task = some (w', next)) :
    w'.Inv ∧ ∀ task ∈ next, w'.TaskOk task := by
  cases task with
  | createLock name zoneType policy =>
    simp only [World.resume] at hw
    split_ifs at hw with hlock
    cases hw
    exact ⟨h.createZone (by simpa using hlock), by simp⟩
  | deleteLock name force =>
    simp only [World.resume] at hw
    split_ifs at hw with hlock
    cases hw
    exact ⟨h.deleteZone (by simpa using hlock), by simp⟩
  | applyHandles zone policy =>
    simp only [World.resume] at hw
    split_ifs at hw
    cases hw
    exact ⟨h.applyPolicy hcurrent, by simp⟩
  | containerHandles zone name =>
    simp only [World.resume] at hw
    split_ifs at hw with hwriting
    obtain ⟨rfl, rfl⟩ := Prod.ext_iff.mp (Option.some.inj hw)
    refine ⟨h.createContainer (by simpa using hwriting) hcurrent, ?_⟩
    unfold World.createContainer
    split
    · split_ifs <;> simp [TaskOk]
    · simp
  | containerCached id zoneId =>
    cases hw
    exact ⟨h.frame (Frame.rest _ _ _) rfl h.shim_record fun _ => .inl, by simp⟩
  | start read =>
    cases hw
    exact ⟨(h.updateContainer htask env .Running).1, by simp⟩
  | stop read =>
    cases hw
    exact ⟨(h.updateContainer htask env .Stopped).1, by simp⟩
  | removeStop read =>
    cases hw
    obtain ⟨hinv, hok⟩ := h.updateContainer htask env .Stopped
    refine ⟨hinv, fun task hmem => ?_⟩
    split_ifs at hmem
    · obtain rfl := mem_singleton.mp hmem
      exact hok
    · simp at hmem
  | removeZone read =>
    simp only [World.resume] at hw
    split_ifs at hw
    obtain ⟨rfl, rfl⟩ := Prod.ext_iff.mp (Option.some.inj hw)
    exact h.deleteFromShim htask
  | removeCached id =>
    cases hw
    exact ⟨h.deleteRecord htask.2 _, by simp⟩

lemma Inv.step {e : Event} (hcurrent : w.Current e) : (w.step e).Inv := by
  cases e with
  | call request => exact h.addTasks (h.call request)
  | resume i env =>
    simp only [World.step]
    cases htask : w.tasks[i]? with
    | none => exact h
    | some task =>
      simp only
      cases hw : (w.without i).resume env task with
      | none => exact h
      | some result =>
        have hok := h.tasks task (mem_of_getElem? htask)
        have hread : w.TaskCurrent env task := by
          simp only [Current, htask] at hcurrent
          cases task <;> exact hcurrent
        obtain ⟨hinv, hnext⟩ := (h.without i).resume
          (hok.mono (Frame.rest _ _ _).shrinks) hread hw
        exact hinv.addTasks hnext
  | mutate =>
    simp only [World.step]
    cases hmutation : w.mutation with
    | none => exact h
    | some mutation => exact h.mutate hmutation

end World

open World

/-- **Handles and records agree** whenever no request is under way, in every run of which no request
    writes with what it has read of a zone that is not there any more. -/
theorem registry_consistent {w : World} (hstart : w.Settled) {es : List Event}
    (hes : Meets step Current w es) (hidle : (run step w es).Idle) :
    (run step w es).Consistent := by
  have hinv : (run step w es).Inv :=
    Meets.invariant (fun _ _ h hcurrent => .step h hcurrent) hstart.inv hes
  exact hinv.consistent hidle

/-! ### A zone that is deleted and created again -/

/-- The registry of a new daemon. -/
def World.new : World := ⟨.empty, ∅, ∅, ∅, 0, none, []⟩

attribute [local simp] World.new Metadata.empty Metadata.getZone Metadata.zoneIdOf
  Metadata.homeOf in
lemma settled_new : World.new.Settled where
  handle_zone := by simp
  zone_handle := by simp
  container_zone := by simp
  idle := ⟨rfl, rfl⟩
  unique := by simp
  shim_record := by simp
  zone_lt := by simp
  container_lt := by simp

/-- A policy that asks for nothing. -/
def quiet : ZonePolicy := ⟨.Audit, [], ⟨.Isolated, [], [], []⟩, [], []⟩

def answer : Env := ⟨true, none⟩

/-- A zone is created. -/
def create : List Event := [.call (.createZone "web" .NonGlobal quiet), .resume 0 answer, .mutate]

/-- It is deleted and created again, while one request waits. -/
def recreate : List Event :=
  [.call (.deleteZone "web" false), .resume 1 answer, .mutate,
    .call (.createZone "web" .NonGlobal quiet), .resume 1 answer, .mutate]

def applied : List Event := [.call (.applyPolicy "web" quiet), .resume 0 answer]

theorem registry_consistent_policy : (run step World.new (create ++ applied)).Consistent :=
  registry_consistent settled_new
    ⟨trivial, trivial, trivial, trivial, fun _ _ => by decide +kernel, trivial⟩
    (by unfold Idle; decide +kernel)

/-- **The old id comes back** with a request that has read it: a policy writes it into the record of
    the new zone, and a container is recorded for a zone that is gone. -/
theorem recreated_zone_mixed_up :
    let w := run step World.new
      (create ++ [.call (.applyPolicy "web" quiet)] ++ recreate ++ [.resume 0 answer])
    let w' := run step World.new
      (create ++ [.call (.createContainer "web" "db")] ++ recreate ++
        [.resume 0 answer, .resume 0 answer])
    (w.mutation = none ∧ w.tasks = [] ∧
      w.handles.lookup "web" = some 1 ∧ w.store.zoneIdOf "web" = some 0) ∧
    (w'.mutation = none ∧ w'.tasks = [] ∧ w'.store.homeOf 2 = some 0 ∧
      w'.store.zoneIdOf "web" = some 1) := by
  decide +kernel

end Requests

end Rauha
