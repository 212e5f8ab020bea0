import Rauha.Library.Table
import Rauha.Library.Transition

/-!
# The containers of a shim

A shim keeps the containers of its zone and carries out one request at a time.  It learns that a
workload has ended only when it looks: after every request, at the start of a stop or a deletion,
and while it waits for a workload that it has told to stop.

* `RuntimeProcess`: the init process of a container, with what polling and waiting for it say;
* `handleRequest`: all requests; what the runtime and the kernel answer is an `Env`;
* `step`: the main loop.  A request is handled, then exited workloads are reaped; workloads exit at
  any time.

`shim_lifecycle` says what every container goes through, whatever is requested in whichever order.
-/

namespace Rauha.Shim

open Transition

/-! ## Init processes -/

/-- How a process ended. -/
inductive WaitStatus where
  | Exited (code : ℤ)
  | Signaled (signal : ℤ)
  deriving DecidableEq, Repr

def WaitStatus.code : WaitStatus → ℤ
  | Exited code => code
  | Signaled signal => 128 + signal

inductive InitState where
  | Alive
  | Zombie (status : WaitStatus)
  | Gone
  deriving DecidableEq, Repr

/-- An OCI init process supervised by the shim. -/
structure RuntimeProcess where
  id : String
  init : InitState
  cleaned : Bool
  deriving DecidableEq, Repr

/-- What the shim sees of a process within a time: nothing, or that it is over, with the status it
    ends with if it was still alive. -/
inductive Wait where
  | Silent
  | Over (status : WaitStatus)
  deriving DecidableEq, Repr

/-- The two times of waiting, before and after the process is killed. -/
structure Grace where
  first : Wait
  second : Wait
  deriving DecidableEq, Repr

namespace RuntimeProcess

variable (r : RuntimeProcess)

def delete : RuntimeProcess := { r with cleaned := true }

/-- The exit code, once init has exited.  A poll can fail, and the status can have been collected
    already. -/
def tryWait (polled : Bool) : Option ℤ × RuntimeProcess :=
  if polled = false then (none, r)
  else
    match r.init with
    | .Alive => (none, r)
    | .Zombie status => (some status.code, { r with init := .Gone }.delete)
    | .Gone => (some 125, r.delete)

def waitUntil : Wait → Option ℤ × RuntimeProcess
  | .Silent => (none, r)
  | .Over status =>
    match r.init with
    | .Alive => (some status.code, { r with init := .Gone }.delete)
    | _ => r.tryWait true

def waitOrKill (grace : Grace) : ℤ × RuntimeProcess :=
  match r.waitUntil grace.first with
  | (some code, r) => (code, r)
  | (none, r) =>
    match r.waitUntil grace.second with
    | (code, r) => (code.getD (128 + 9), r.delete)

/-- The workload exits. -/
def exit (status : WaitStatus) : RuntimeProcess :=
  match r.init with
  | .Alive => { r with init := .Zombie status }
  | _ => r

end RuntimeProcess

/-! ## The table -/

inductive ContainerStatus where
  | Created
  | Running
  | Stopped
  deriving DecidableEq, Repr

instance : ToString ContainerStatus where
  toString
    | .Created => "created"
    | .Running => "running"
    | .Stopped => "stopped"

/-- A container process tracked by the shim. -/
structure ContainerProcess where
  pid : ℕ
  status : ContainerStatus
  exitCode : Option ℤ
  specJson : String
  runtime : Option RuntimeProcess
  deriving DecidableEq, Repr

def ContainerProcess.reap (polled : Bool) (p : ContainerProcess) : ContainerProcess :=
  if p.status ≠ .Running ∨ p.pid = 0 then p
  else
    match p.runtime with
    | none => p
    | some runtime =>
      match runtime.tryWait polled with
      | (none, runtime) => { p with runtime := some runtime }
      | (some code, runtime) =>
        { p with status := .Stopped, exitCode := some code, runtime := some runtime }

structure ShimState where
  zoneName : String
  rootfsRoot : String
  containers : AList fun _ : String => ContainerProcess
  shutdown : Bool

/-- The pid that crun reports for a container it has started. -/
structure InitPid where
  value : ℕ
  positive : 0 < value

/-- **The surroundings of one request**: whether crun starts the container, whether a signal can be
    sent, what polling and waiting say about each container, and how sessions are set up. -/
structure Env where
  crun : Except String InitPid
  sent : Except String Unit
  polled : String → Bool
  grace : String → Grace
  resized : Except String Unit
  execStarted : Except String Unit
  session : Except String String
  sessionId : String

namespace ShimState

variable (s : ShimState)

def new (zoneName rootfsRoot : String) : ShimState := ⟨zoneName, rootfsRoot, ∅, false⟩

def set (id : String) (p : ContainerProcess) : ShimState :=
  { s with containers := s.containers.insert id p }

def createContainer (id specJson : String) : Except String ℕ × ShimState :=
  match s.containers.lookup id with
  | some _ => (.error ("container " ++ id ++ " already exists"), s)
  | none => (.ok 0, s.set id ⟨0, .Created, none, specJson, none⟩)

/-- A start that fails leaves no process. -/
def startContainer (env : Env) (id : String) : Except String ℕ × ShimState :=
  match s.containers.lookup id with
  | none => (.error ("container " ++ id ++ " not found"), s)
  | some p =>
    if p.status ≠ .Created then
      (.error ("container " ++ id ++ " is " ++ toString p.status ++ ", cannot start"), s)
    else
      match env.crun with
      | .error e => (.error e, s)
      | .ok pid =>
        (.ok pid.value, s.set id
          { p with pid := pid.value, status := .Running, runtime := some ⟨id, .Alive, false⟩ })

def signalContainer (env : Env) (id : String) : Except String Unit :=
  match s.containers.lookup id with
  | none => .error ("container " ++ id ++ " not found")
  | some p =>
    if p.status ≠ .Running ∨ p.pid = 0 then .error ("container " ++ id ++ " is not running")
    else
      match p.runtime with
      | none => .error ("container " ++ id ++ " has no OCI runtime")
      | some _ => env.sent

def reapChildren (polled : String → Bool) : ShimState :=
  { s with containers := Table.mapRows (fun id p => p.reap (polled id)) s.containers }

def stopContainer (env : Env) (id : String) : Except String Unit × ShimState :=
  let s := s.reapChildren env.polled
  match s.signalContainer env id with
  | .error e => (.error e, s)
  | .ok _ =>
    match s.containers.lookup id with
    | none => (.error ("container " ++ id ++ " not found"), s)
    | some p =>
      match p.runtime with
      | none => (.error ("container " ++ id ++ " has no OCI runtime"), s)
      | some runtime =>
        match runtime.waitOrKill (env.grace id) with
        | (code, runtime) =>
          (.ok (), s.set id
            { p with status := .Stopped, exitCode := some code, runtime := some runtime })

def deleteContainer (env : Env) (id : String) : Except String Unit × ShimState :=
  let s := s.reapChildren env.polled
  if (s.containers.lookup id).any (·.status == .Running) then
    (.error ("container " ++ id ++ " is running"), s)
  else (.ok (), { s with containers := s.containers.erase id })

def getState (id : String) : Option (ℕ × String × Option ℤ) :=
  (s.containers.lookup id).map fun p => (p.pid, toString p.status, p.exitCode)

def specJson (id : String) : Option String := (s.containers.lookup id).map (·.specJson)

/-- How many containers are running, and how many there are. -/
def containerSummary : ℕ × ℕ :=
  ((s.containers.entries.filter fun e => e.2.status == .Running && 0 < e.2.pid).length,
    s.containers.entries.length)

def requestShutdown (env : Env) : ShimState :=
  { s with
    containers := Table.mapRows (fun id p =>
      { p with runtime := p.runtime.map fun r => (r.waitOrKill (env.grace id)).2 }) s.containers
    shutdown := true }

/-- The workload of a container exits. -/
def exit (id : String) (status : WaitStatus) : ShimState :=
  match s.containers.lookup id with
  | none => s
  | some p => s.set id { p with runtime := p.runtime.map (·.exit status) }

end ShimState

/-! ## Requests -/

inductive ShimRequest where
  | CreateContainer (id specJson : String)
  | StartContainer (id : String)
  | StopContainer (id : String) (signal : ℤ)
  | Signal (id : String) (signal : ℤ)
  | GetState (id : String)
  | Shutdown
  | GetStats
  | Attach (id : String) (pty : Bool)
  | Exec (id : String) (command env : List String) (pty : Bool)
  | ResizePty (id : String) (sessionId : Option String) (rows cols : ℕ)
  | DeleteContainer (id : String)
  deriving DecidableEq

inductive ShimResponse where
  | Ok
  | Created (pid : ℕ)
  | State (pid : ℕ) (status : String) (exitCode : Option ℤ)
  | Error (message : String)
  | Stats (cpuUsageNs memoryBytes pids containerCount networkRxBytes networkTxBytes : ℕ)
  | ExecReady (sessionId : Option String) (socketPath : String)
  deriving DecidableEq, Repr

/-- The answer to a request that reports success or an error. -/
def ShimResponse.ofExcept {α : Type} (ok : α → ShimResponse) : Except String α → ShimResponse
  | .ok a => ok a
  | .error message => .Error message

/-- Run a command in a running container; nothing is kept of it. -/
def exec (env : Env) (s : ShimState) (id : String) (pty : Bool) : ShimResponse :=
  if pty = false then .Error "non-PTY exec not yet supported"
  else
    match s.specJson id, s.getState id with
    | some _, some (initPid, status, _) =>
      if status ≠ "running" ∨ initPid = 0 then .Error ("container " ++ id ++ " is not running")
      else
        match env.execStarted with
        | .error e => .Error ("exec failed: " ++ e)
        | .ok _ =>
          match env.session with
          | .error e => .Error ("failed to create attach session: " ++ e)
          | .ok socketPath => .ExecReady (some env.sessionId) socketPath
    | _, _ => .Error ("container " ++ id ++ " not found")

def handleRequest (env : Env) (s : ShimState) : ShimRequest → ShimResponse × ShimState
  | .CreateContainer id specJson =>
    match s.createContainer id specJson with
    | (r, s) => (.ofExcept .Created r, s)
  | .StartContainer id =>
    match s.startContainer env id with
    | (r, s) => (.ofExcept .Created r, s)
  | .StopContainer id _ =>
    match s.stopContainer env id with
    | (r, s) => (.ofExcept (fun _ => .Ok) r, s)
  | .Signal id _ => (.ofExcept (fun _ => .Ok) (s.signalContainer env id), s)
  | .GetState id =>
    match s.getState id with
    | some (pid, status, exitCode) => (.State pid status exitCode, s)
    | none => (.Error ("container " ++ id ++ " not found"), s)
  | .Shutdown => (.Ok, s.requestShutdown env)
  | .DeleteContainer id =>
    match s.deleteContainer env id with
    | (r, s) => (.ofExcept (fun _ => .Ok) r, s)
  | .GetStats => (.Stats 0 0 s.containerSummary.1 s.containerSummary.2 0 0, s)
  | .ResizePty id none _ _ => (.Error ("missing PTY session id for container " ++ id), s)
  | .ResizePty _ (some _) _ _ => (.ofExcept (fun _ => .Ok) env.resized, s)
  | .Exec id _ _ pty => (exec env s id pty, s)
  | .Attach _ _ =>
    (.Error "attach to non-PTY container not supported — use `exec -it` instead", s)

/-! ## The main loop -/

inductive Phase where
  | Accepting
  | Reaping
  | Ended
  deriving DecidableEq, Repr

structure World where
  state : ShimState
  phase : Phase

/-- What happens: a request arrives, a connection or a message is broken, exited children are
    reaped, or a workload exits. -/
inductive Event where
  | Request (env : Env) (request : ShimRequest)
  | Broken
  | Reap (polled : String → Bool)
  | Exit (id : String) (status : WaitStatus)

namespace World

variable (w : World)

def start (zoneName rootfsRoot : String) : World := ⟨.new zoneName rootfsRoot, .Accepting⟩

/-- The answer to an event, if it is a request that is taken up. -/
def answer : Event → Option ShimResponse
  | .Request env request =>
    if w.phase = .Accepting then some (handleRequest env w.state request).1 else none
  | _ => none

/-- After a request that shuts the shim down, nothing is accepted any more. -/
def step (w : World) : Event → World
  | .Request env request =>
    if w.phase = .Accepting then
      match handleRequest env w.state request with
      | (response, state) =>
        ⟨state, if response = .Ok ∧ state.shutdown then .Ended else .Reaping⟩
    else w
  | .Broken => if w.phase = .Accepting then { w with phase := .Reaping } else w
  | .Reap polled =>
    if w.phase = .Reaping then ⟨w.state.reapChildren polled, .Accepting⟩ else w
  | .Exit id status => { w with state := w.state.exit id status }

end World

/-! ## Containers one by one

The requests leave all containers but one alone, apart from reaping.  `Change` says what one step
does to the entry of one container.
-/

/-- The fields of a container fit together. -/
structure ContainerProcess.Sound (p : ContainerProcess) : Prop where
  running : p.status = .Running → p.runtime.isSome = true ∧ p.pid ≠ 0
  stopped : p.exitCode.isSome = true ↔ p.status = .Stopped

/-- All containers of a shim are sound. -/
def ShimState.Sound (s : ShimState) : Prop :=
  ∀ id p, s.containers.lookup id = some p → p.Sound

/-- What becomes of a container while nobody but its workload acts on it. -/
inductive Change : ContainerProcess → ContainerProcess → Prop
  | stay {p p' : ContainerProcess} (hstatus : p'.status = p.status)
      (hpid : p'.pid = p.pid) (hcode : p'.exitCode = p.exitCode)
      (hruntime : p'.runtime.isSome = p.runtime.isSome) : Change p p'
  | stop {p p' : ContainerProcess} (hrunning : p.status = .Running)
      (hstopped : p'.status = .Stopped) (hcode : p'.exitCode.isSome = true) : Change p p'

/-- What an event does to the entry of a container. -/
inductive Step (e : Event) (id : String) : Option ContainerProcess → Option ContainerProcess → Prop
  | absent : Step e id none none
  | change {p p' : ContainerProcess} (h : Change p p') : Step e id (some p) (some p')
  | create {env : Env} {specJson : String} (he : e = .Request env (.CreateContainer id specJson)) :
      Step e id none (some ⟨0, .Created, none, specJson, none⟩)
  | start {env : Env} {p p' : ContainerProcess} (he : e = .Request env (.StartContainer id))
      (hcreated : p.status = .Created) (hrunning : p'.status = .Running) (hpid : p'.pid ≠ 0)
      (hcode : p'.exitCode = p.exitCode) (hruntime : p'.runtime.isSome = true) :
      Step e id (some p) (some p')
  | delete {env : Env} {p p' : ContainerProcess} (he : e = .Request env (.DeleteContainer id))
      (hreaped : p' = p.reap (env.polled id)) (hstatus : p'.status ≠ .Running) :
      Step e id (some p) none

section

variable {p p' : ContainerProcess} {s : ShimState} {id id' : String} {env : Env} {w : World}
  {e : Event}

lemma Change.refl : Change p p := .stay rfl rfl rfl rfl

lemma Change.sound (h : Change p p') (hp : p.Sound) : p'.Sound := by
  cases h with
  | stay hstatus hpid hcode hruntime =>
    constructor
    · rw [hstatus, hruntime, hpid]
      exact hp.running
    · rw [hstatus, hcode]
      exact hp.stopped
  | stop _ hstopped hcode => exact ⟨by simp [hstopped], by simp [hstopped, hcode]⟩

lemma reap_change (polled : Bool) (p : ContainerProcess) : Change p (p.reap polled) := by
  unfold ContainerProcess.reap
  split_ifs with hidle
  · exact .refl
  · have hrunning : p.status = .Running := by
      by_contra hne
      exact hidle (.inl hne)
    cases hruntime : p.runtime with
    | none => exact .refl
    | some runtime =>
      simp only
      rcases runtime.tryWait polled with ⟨code, runtime'⟩
      cases code with
      | none => exact .stay rfl rfl rfl (by rw [hruntime]; rfl)
      | some code => exact .stop hrunning rfl rfl

/-- What is running after reaping was running before. -/
lemma running_of_reap {polled : Bool} (h : (p.reap polled).status = .Running) :
    p.status = .Running := by
  cases reap_change polled p with
  | stay hstatus => rw [← hstatus, h]
  | stop hrunning => exact hrunning

/-- **Reaping**, seen from one container. -/
lemma reapChildren_step (polled : String → Bool) :
    Step e id (s.containers.lookup id) ((s.reapChildren polled).containers.lookup id) := by
  rw [ShimState.reapChildren, Table.lookup_mapRows]
  cases s.containers.lookup id with
  | none => exact .absent
  | some p => exact .change (reap_change _ p)

lemma Step.refl (entry : Option ContainerProcess) : Step e id entry entry := by
  cases entry with
  | none => exact .absent
  | some p => exact .change .refl

lemma set_containers_ne (h : id ≠ id') (p : ContainerProcess) :
    (s.set id' p).containers.lookup id = s.containers.lookup id :=
  AList.lookup_insert_ne h

lemma set_containers_self (p : ContainerProcess) : (s.set id p).containers.lookup id = some p :=
  AList.lookup_insert _

/-- The entry of one container is replaced. -/
lemma Step.set {entry : Option ContainerProcess}
    (hother : Step e id entry (s.containers.lookup id)) (h : id = id' → Step e id entry (some p)) :
    Step e id entry ((s.set id' p).containers.lookup id) := by
  by_cases hid : id = id'
  · rw [hid, set_containers_self, ← hid]
    exact h hid
  · rwa [set_containers_ne hid]

/-- **A start**, seen from one container. -/
lemma startContainer_step (he : e = .Request env (.StartContainer id')) :
    Step e id (s.containers.lookup id) ((s.startContainer env id').2.containers.lookup id) := by
  unfold ShimState.startContainer
  cases hlookup : s.containers.lookup id' with
  | none => exact .refl _
  | some p =>
    simp only
    split_ifs with hstatus
    · exact .refl _
    · cases env.crun with
      | error e => exact .refl _
      | ok pid =>
        refine .set (.refl _) ?_
        rintro rfl
        rw [hlookup]
        exact .start he (not_not.mp hstatus) rfl (Nat.pos_iff_ne_zero.mp pid.positive) rfl rfl

/-- A container that can be signalled is running. -/
lemma running_of_signalContainer (h : s.signalContainer env id = .ok ()) :
    ∃ p, s.containers.lookup id = some p ∧ p.status = .Running := by
  unfold ShimState.signalContainer at h
  cases hlookup : s.containers.lookup id with
  | none =>
    rw [hlookup] at h
    cases h
  | some p =>
    rw [hlookup] at h
    simp only at h
    split_ifs at h with hidle
    refine ⟨p, rfl, ?_⟩
    by_contra hne
    exact hidle (.inl hne)

/-- **A stop**, seen from one container: it is reaped, or told to stop and waited for. -/
lemma stopContainer_step :
    Step e id (s.containers.lookup id) ((s.stopContainer env id').2.containers.lookup id) := by
  have hreap : Step e id (s.containers.lookup id)
      ((s.reapChildren env.polled).containers.lookup id) := reapChildren_step env.polled
  unfold ShimState.stopContainer
  simp only
  cases hsignal : (s.reapChildren env.polled).signalContainer env id' with
  | error message => exact hreap
  | ok _ =>
    obtain ⟨p, hlookup, hrunning⟩ := running_of_signalContainer hsignal
    simp only [hlookup]
    cases p.runtime with
    | none => exact hreap
    | some runtime =>
      refine .set hreap ?_
      rintro rfl
      rw [ShimState.reapChildren, Table.lookup_mapRows] at hlookup
      obtain ⟨p₀, hp₀, rfl⟩ := Option.map_eq_some_iff.mp hlookup
      rw [hp₀]
      exact .change (.stop (running_of_reap hrunning) rfl rfl)

/-- **A deletion**, seen from one container. -/
lemma deleteContainer_step (he : e = .Request env (.DeleteContainer id')) :
    Step e id (s.containers.lookup id) ((s.deleteContainer env id').2.containers.lookup id) := by
  have hreap : Step e id (s.containers.lookup id)
      ((s.reapChildren env.polled).containers.lookup id) := reapChildren_step env.polled
  unfold ShimState.deleteContainer
  simp only
  split_ifs with hrunning
  · exact hreap
  · by_cases hid : id = id'
    · subst hid
      rw [AList.lookup_erase]
      cases hlookup : s.containers.lookup id with
      | none => exact .absent
      | some p =>
        refine .delete he rfl fun hstatus => hrunning ?_
        simp [ShimState.reapChildren, hlookup, hstatus]
    · rw [AList.lookup_erase_ne hid]
      exact hreap

/-- **A request**, seen from one container. -/
lemma handleRequest_step {request : ShimRequest} (he : e = .Request env request) :
    Step e id (s.containers.lookup id) ((handleRequest env s request).2.containers.lookup id) := by
  cases request with
  | CreateContainer id' specJson =>
    simp only [handleRequest, ShimState.createContainer]
    cases hlookup : s.containers.lookup id' with
    | some p => exact .refl _
    | none =>
      refine .set (.refl _) ?_
      rintro rfl
      rw [hlookup]
      exact .create he
  | StartContainer id' => exact startContainer_step he
  | StopContainer id' signal => exact stopContainer_step
  | DeleteContainer id' => exact deleteContainer_step he
  | Shutdown =>
    simp only [handleRequest, ShimState.requestShutdown, Table.lookup_mapRows]
    cases s.containers.lookup id with
    | none => exact .absent
    | some p => exact .change (.stay rfl rfl rfl (by simp))
  | GetState id' =>
    rw [handleRequest]
    split <;> exact .refl _
  | ResizePty id' sessionId rows cols => cases sessionId <;> exact .refl _
  | Signal id' signal => exact .refl _
  | GetStats => exact .refl _
  | Attach id' pty => exact .refl _
  | Exec id' command env' pty => exact .refl _

/-- An exit changes nothing that the shim knows. -/
lemma exit_step (status : WaitStatus) :
    Step e id (s.containers.lookup id) ((s.exit id' status).containers.lookup id) := by
  rw [ShimState.exit]
  cases hlookup : s.containers.lookup id' with
  | none => exact .refl _
  | some p =>
    refine .set (.refl _) ?_
    rintro rfl
    rw [hlookup]
    exact .change (.stay rfl rfl rfl (by simp))

/-- **An event of the main loop**, seen from one container. -/
lemma step_step (w : World) (e : Event) (id : String) :
    Step e id (w.state.containers.lookup id) ((w.step e).state.containers.lookup id) := by
  cases e with
  | Request env request =>
    rw [World.step]
    split_ifs
    · exact handleRequest_step rfl
    · exact .refl _
  | Broken =>
    rw [World.step]
    split_ifs <;> exact .refl _
  | Reap polled =>
    rw [World.step]
    split_ifs
    · exact reapChildren_step polled
    · exact .refl _
  | Exit id' status => exact exit_step status

/-! ## Whole runs -/

lemma step_sound (h : w.state.Sound) : (w.step e).state.Sound := by
  intro id p hp
  have hstep := step_step w e id
  rw [hp] at hstep
  cases hbefore : w.state.containers.lookup id with
  | none =>
    rw [hbefore] at hstep
    cases hstep with
    | create he => exact ⟨by simp, by simp⟩
  | some p₀ =>
    rw [hbefore] at hstep
    cases hstep with
    | change hchange => exact hchange.sound (h id p₀ hbefore)
    | start he hcreated hrunning hpid hcode hruntime =>
      refine ⟨fun _ => ⟨hruntime, hpid⟩, ?_⟩
      have hstopped := (h id p₀ hbefore).stopped
      rw [hcode, hstopped, hcreated, hrunning]
      simp

/-- **Every container of every run is sound.** -/
lemma run_sound (zoneName rootfsRoot : String) (es : List Event) :
    (run World.step (World.start zoneName rootfsRoot) es).state.Sound := by
  have hstart : (World.start zoneName rootfsRoot).state.Sound := by
    intro id p hp
    cases hp
  exact run_invariant (I := fun w : World => w.state.Sound) (fun _ _ h => step_sound h) hstart es

/-- A container has been started and is still there. -/
def Started (id : String) (w : World) : Prop :=
  ∃ p, w.state.containers.lookup id = some p ∧ p.status ≠ .Created

/-- An event removes a container. -/
def Removes (id : String) (w : World) (e : Event) : Prop :=
  (∃ env, e = .Request env (.DeleteContainer id)) ∧ w.state.containers.lookup id ≠ none ∧
    (w.step e).state.containers.lookup id = none

/-- An event starts a container. -/
def Starts (id : String) (w : World) (e : Event) : Prop :=
  (∃ env, e = .Request env (.StartContainer id)) ∧ ∃ pid, w.answer e = some (.Created pid)

/-- Only a deletion undoes a start. -/
lemma Started.step (h : Started id w) (hkept : ¬ Removes id w e) : Started id (w.step e) := by
  obtain ⟨p, hp, hstatus⟩ := h
  have hstep := step_step w e id
  rw [hp] at hstep
  cases hafter : (w.step e).state.containers.lookup id with
  | none =>
    rw [hafter] at hstep
    cases hstep with
    | delete he => exact absurd ⟨⟨_, he⟩, by simp [hp], hafter⟩ hkept
  | some p' =>
    rw [hafter] at hstep
    refine ⟨p', hafter, ?_⟩
    cases hstep with
    | change hchange =>
      cases hchange with
      | stay hsame => rwa [hsame]
      | stop _ hstopped => simp [hstopped]
    | start _ hcreated => exact absurd hcreated hstatus

lemma Started.run {es : List Event} (h : Started id w)
    (hkept : ¬ ∃ before e after, es = before ++ e :: after ∧
      Removes id (Transition.run .step w before) e) :
    Started id (Transition.run .step w es) := by
  induction es generalizing w with
  | nil => exact h
  | cons e es ih =>
    have hfirst : ¬ Removes id w e := fun hremoves => hkept ⟨[], e, es, rfl, hremoves⟩
    refine ih (h.step hfirst) ?_
    rintro ⟨before, e', after, rfl, hremoves⟩
    exact hkept ⟨e :: before, e', after, rfl, hremoves⟩

/-- A container is started when it is created, and has been started afterwards. -/
lemma Starts.spec (h : Starts id w e) :
    (∃ p, w.state.containers.lookup id = some p ∧ p.status = .Created) ∧
      Started id (w.step e) := by
  obtain ⟨⟨env, rfl⟩, pid, hanswer⟩ := h
  simp only [World.answer] at hanswer
  split_ifs at hanswer with hphase
  simp only [Started, World.step, if_pos hphase]
  simp only [handleRequest, ShimState.startContainer] at hanswer ⊢
  cases hlookup : w.state.containers.lookup id with
  | none =>
    rw [hlookup] at hanswer
    cases hanswer
  | some p =>
    rw [hlookup] at hanswer
    simp only at hanswer ⊢
    by_cases hcreated : p.status = .Created
    · rw [if_neg (not_not.mpr hcreated)] at hanswer ⊢
      cases hcrun : env.crun with
      | error message =>
        rw [hcrun] at hanswer
        cases hanswer
      | ok pid' => exact ⟨⟨p, rfl, hcreated⟩, _, set_containers_self _, by simp⟩
    · rw [if_pos hcreated] at hanswer
      cases hanswer

/-- A container has ended with a code and is still there. -/
def Ended (id : String) (code : ℤ) (w : World) : Prop :=
  ∃ p, w.state.containers.lookup id = some p ∧ p.exitCode = some code

lemma Ended.step {code : ℤ} (h : Ended id code w) (hs : w.state.Sound)
    (hkept : ¬ Removes id w e) : Ended id code (w.step e) := by
  obtain ⟨p, hp, hcode⟩ := h
  have hstopped : p.status = .Stopped := (hs id p hp).stopped.mp (by rw [hcode]; rfl)
  have hstep := step_step w e id
  generalize hafter : (w.step e).state.containers.lookup id = after at hstep
  rw [hp] at hstep
  cases hstep with
  | change hchange =>
    refine ⟨_, hafter, ?_⟩
    cases hchange with
    | stay _ _ hsame => rw [hsame, hcode]
    | stop hrunning => simp [hstopped] at hrunning
  | start _ hcreated => simp [hstopped] at hcreated
  | delete he => exact absurd ⟨⟨_, he⟩, by simp [hp], hafter⟩ hkept

end

lemma reapChildren_sound {s : ShimState} (hs : s.Sound) (polled : String → Bool) :
    (s.reapChildren polled).Sound := by
  intro id p hp
  rw [ShimState.reapChildren, Table.lookup_mapRows] at hp
  obtain ⟨p₀, hp₀, rfl⟩ := Option.map_eq_some_iff.mp hp
  exact (reap_change _ p₀).sound (hs id p₀ hp₀)

namespace World

def status (w : World) (id : String) : Option ContainerStatus :=
  (w.state.containers.lookup id).map (·.status)

end World

/-- A container that is running once exited workloads have been reaped is not deleted. -/
lemma delete_running {w : World} {env : Env} {id : String} {p : ContainerProcess}
    (hp : w.state.containers.lookup id = some p)
    (hrunning : (p.reap (env.polled id)).status = .Running) :
    (w.step (.Request env (.DeleteContainer id))).status id = some .Running := by
  have hreaped : (w.state.reapChildren env.polled).containers.lookup id =
      some (p.reap (env.polled id)) := by
    rw [ShimState.reapChildren, Table.lookup_mapRows, hp, Option.map_some]
  rw [World.step]
  split_ifs with hphase
  · have hkept : (handleRequest env w.state (.DeleteContainer id)).2 =
        w.state.reapChildren env.polled := by
      simp only [handleRequest, ShimState.deleteContainer, hreaped, Option.any_some, hrunning]
      rfl
    simp only [World.status, hkept, hreaped, Option.map_some, hrunning]
  · rw [World.status, hp, Option.map_some, running_of_reap hrunning]

/-- **The life of a container in a shim.**  After every run, that is every sequence of requests with
    any answers of the runtime and any workload exits in between:

    * the next event does to each container what `Step` says: its status moves along created,
      running, stopped, each move on its own occasion, and only a deletion removes it;
    * a running container has a runtime process and a pid, and exit codes go with being stopped;
    * a deletion removes only what is not running once exited workloads have been reaped;
    * between two successful starts of a container there is a deletion that removes it. -/
theorem shim_lifecycle (zoneName rootfsRoot : String) (es : List Event) :
    let w := run World.step (World.start zoneName rootfsRoot) es
    (∀ e id, Step e id (w.state.containers.lookup id)
      ((w.step e).state.containers.lookup id)) ∧
    (∀ id p, w.state.containers.lookup id = some p →
      (p.status = .Running → p.runtime.isSome = true ∧ p.pid ≠ 0) ∧
      (p.exitCode.isSome = true ↔ p.status = .Stopped)) ∧
    (∀ env id p, w.state.containers.lookup id = some p →
      (p.reap (env.polled id)).status = .Running →
      ((w.step (.Request env (.DeleteContainer id))).status id = some .Running)) ∧
    ∀ id before first between second after,
      es = before ++ first :: (between ++ second :: after) →
      Starts id (run World.step (World.start zoneName rootfsRoot) before) first →
      Starts id (run World.step (World.start zoneName rootfsRoot) (before ++ first :: between))
        second →
      ∃ mid e rest, between = mid ++ e :: rest ∧
        Removes id (run World.step (World.start zoneName rootfsRoot) (before ++ first :: mid))
          e := by
  refine ⟨fun e id => step_step _ e id, fun id p hp => ?_,
    fun env id p hp hrunning => ?_, ?_⟩
  · have hsound := run_sound zoneName rootfsRoot es id p hp
    exact ⟨hsound.running, hsound.stopped⟩
  · exact delete_running hp hrunning
  · rintro id before first between second after rfl hfirst hsecond
    by_contra hnone
    have hstarted : Started id (run World.step (World.start zoneName rootfsRoot)
        (before ++ first :: between)) := by
      rw [run_append]
      refine (Starts.spec hfirst).2.run ?_
      rintro ⟨mid, e, rest, rfl, hremoves⟩
      refine hnone ⟨mid, e, rest, rfl, ?_⟩
      rw [run_append]
      exact hremoves
    obtain ⟨p, hp, hstatus⟩ := hstarted
    obtain ⟨⟨p', hp', hcreated⟩, -⟩ := Starts.spec hsecond
    rw [hp] at hp'
    cases hp'
    exact hstatus hcreated

/-- Surroundings for evaluation, in which everything goes well. -/
def sampleEnv : Env where
  crun := .ok ⟨7, by decide⟩
  sent := .ok ()
  polled := fun _ => true
  grace := fun _ => ⟨.Silent, .Over (.Signaled 9)⟩
  resized := .ok ()
  execStarted := .ok ()
  session := .ok "/run/session"
  sessionId := "s"

def sampleRequest (request : ShimRequest) : List Event :=
  [.Request sampleEnv request, .Reap fun _ => true]

/-- A container is created and started, exits and is deleted, and one of its name is started. -/
def sampleRun : List Event :=
  sampleRequest (.CreateContainer "c" "spec") ++ sampleRequest (.StartContainer "c") ++
    .Exit "c" (.Exited 3) :: sampleRequest (.DeleteContainer "c") ++
    sampleRequest (.CreateContainer "c" "spec") ++ sampleRequest (.StartContainer "c")

/-- At the end of the run the container is running and cannot be deleted, and it has been deleted
    between its two starts. -/
theorem shim_lifecycle_restarted :
    let w := run World.step (World.start "z" "/rootfs") sampleRun
    ((⟨7, .Running, none, "spec", some ⟨"c", .Alive, false⟩⟩ : ContainerProcess).runtime.isSome =
        true ∧
      (w.step (.Request sampleEnv (.DeleteContainer "c"))).status "c" = some .Running) ∧
    ∃ mid e rest, (sampleRun.drop 3).take 6 = mid ++ e :: rest ∧
      Removes "c" (run World.step (World.start "z" "/rootfs")
        (sampleRun.take 2 ++ .Request sampleEnv (.StartContainer "c") :: mid)) e := by
  obtain ⟨-, hsound, hdelete, hstarts⟩ := shim_lifecycle "z" "/rootfs" sampleRun
  have hp : (run World.step (World.start "z" "/rootfs") sampleRun).state.containers.lookup "c" =
      some ⟨7, .Running, none, "spec", some ⟨"c", .Alive, false⟩⟩ := by decide +kernel
  refine ⟨⟨((hsound "c" _ hp).1 rfl).1, hdelete sampleEnv "c" _ hp (by decide +kernel)⟩, ?_⟩
  exact hstarts "c" (sampleRun.take 2) (.Request sampleEnv (.StartContainer "c"))
    ((sampleRun.drop 3).take 6) (.Request sampleEnv (.StartContainer "c")) (sampleRun.drop 10) rfl
    ⟨⟨_, rfl⟩, 7, by decide +kernel⟩ ⟨⟨_, rfl⟩, 7, by decide +kernel⟩

/-- **An exit code is final.**  After every run, the code that a container has ended with stays
    through all that follows, as long as no deletion removes the container. -/
theorem exit_code_final (zoneName rootfsRoot : String) (es more : List Event) {id : String}
    {code : ℤ} (h : Ended id code (run World.step (World.start zoneName rootfsRoot) es))
    (hmore : Meets World.step (fun w e => ¬ Removes id w e)
      (run World.step (World.start zoneName rootfsRoot) es) more) :
    Ended id code (run World.step (World.start zoneName rootfsRoot) (es ++ more)) := by
  rw [run_append]
  exact (Meets.invariant (I := fun w : World => w.state.Sound ∧ Ended id code w)
    (fun _ _ hI hkept => ⟨step_sound hI.1, hI.2.step hI.1 hkept⟩)
    ⟨run_sound zoneName rootfsRoot es, h⟩ hmore).2

/-- The container has exited with code 3; that it is started and stopped changes nothing. -/
theorem exit_code_final_restart :
    Ended "c" 3 (run World.step (World.start "z" "/rootfs")
      ((sampleRun.take 5 ++ sampleRequest (.GetState "c")) ++
        (sampleRequest (.StartContainer "c") ++ sampleRequest (.StopContainer "c" 15)))) := by
  refine exit_code_final "z" "/rootfs" _ _ ?_ ?_
  · exact ⟨⟨7, .Stopped, some 3, "spec", some ⟨"c", .Gone, true⟩⟩, by decide +kernel, rfl⟩
  · exact ⟨by rintro ⟨⟨env, ⟨⟩⟩, -⟩, by rintro ⟨⟨env, ⟨⟩⟩, -⟩, by rintro ⟨⟨env, ⟨⟩⟩, -⟩,
      by rintro ⟨⟨env, ⟨⟩⟩, -⟩, trivial⟩

end Rauha.Shim
