import Rauha.Backend.Containers

/-!
# Forced deletion

To delete a container with force the daemon reads its record, asks the shim to stop the container if
the record says that it is running, asks the shim to delete it, and then removes handle and record.
The workload goes its own way meanwhile: it can end before the record is read, before either request
arrives, or while the shim waits for it.

* `Exchange`: one request to the shim, with what happens there until it arrives;
* `stopContainer`, `deleteContainer`: the two methods of the registry;
* `forced_deletion_iff`: when the deletion goes through, for every timing.  The record decides
  whether the shim is asked to stop the container, and the shim refuses to stop what has ended.
-/

namespace Rauha.Shim

open Containers (ContainerRecord)
open Transition

/-! ## The two sides -/

inductive DeleteError where
  | ContainerNotFound (id : ℕ)
  | ShimError (zone message : String)
  | ContainerExecError (container message : String)
  /-- The shim answers with something else than it was asked for. -/
  | Unexpected (zone : String) (response : ShimResponse)
  | NotDeleted (response : ShimResponse)
  | BackendError (message : String)
  | MetadataError (message : String)
  deriving DecidableEq, Repr

/-- **One request to the shim**: what happens there until the request arrives, what the shim meets
    while it handles it, and whether connecting and reading the response succeed. -/
structure Exchange where
  gap : List Event
  env : Env
  reached : Except String Unit
  answered : Except String Unit

/-- A container: the daemon's record and handle of it, and the shim of its zone. -/
structure Managed where
  record : Option ContainerRecord
  handle : Bool
  shim : World

/-- The surroundings of a deletion. -/
structure Deletion where
  socketPath : String
  /-- The name of the zone in the table of the backend. -/
  backendZone : Option String
  /-- The name of the zone in the table of the registry. -/
  registryZone : Option String
  stop : Exchange
  delete : Exchange
  now : ℕ
  stored : Except String Unit
  logsRemoved : Except String Unit
  recordDeleted : Except String Unit

/-- Connect, send a request and read the response.  The shim takes up a request once it has reaped
    its children after the request before. -/
def World.sendRequest (x : Exchange) (socketPath : String) (request : ShimRequest) (w : World) :
    Except DeleteError ShimResponse × World :=
  let w := run .step w x.gap
  match x.reached with
  | .error e => (.error (.ShimError socketPath ("failed to connect to shim: " ++ e)), w)
  | .ok () =>
    let w := w.step (.Reap x.env.polled)
    match w.answer (.Request x.env request), x.answered with
    | none, _ =>
      (.error (.ShimError socketPath "failed to connect to shim: connection refused"), w)
    | some response, .ok () => (.ok response, w.step (.Request x.env request))
    | some _, .error e =>
      (.error (.ShimError socketPath ("failed to read response: " ++ e)),
        w.step (.Request x.env request))

namespace Managed

variable (c : Deletion) (id : ℕ) (m : Managed)

/-- The backend's part of stopping a container. -/
def backendStop (container : ContainerRecord) : Except DeleteError Unit × Managed :=
  match c.backendZone with
  | none =>
    (.error (.ShimError (toString container.zoneId) "zone not found for container"), m)
  | some zoneName =>
    match m.shim.sendRequest c.stop c.socketPath (.StopContainer (toString id) 15) with
    | (.error e, shim) => (.error e, { m with shim := shim })
    | (.ok .Ok, shim) => (.ok (), { m with shim := shim })
    | (.ok (.Error message), shim) =>
      (.error (.ContainerExecError (toString id) message), { m with shim := shim })
    | (.ok other, shim) => (.error (.Unexpected zoneName other), { m with shim := shim })

def stopContainer : Except DeleteError Unit × Managed :=
  match m.record with
  | none => (.error (.ContainerNotFound id), m)
  | some container =>
    if m.handle = false then (.error (.ContainerNotFound id), m)
    else
      match m.backendStop c id container with
      | (.error e, m) => (.error e, m)
      | (.ok (), m) =>
        match c.stored with
        | .error e => (.error (.MetadataError e), m)
        | .ok () =>
          (.ok (), { m with record := some { container with
            state := .Stopped, finishedAt := some c.now } })

/-- The shim's part of deleting a container; a zone that is not known has no shim to ask. -/
def shimDelete : Except DeleteError Unit × Managed :=
  match c.registryZone with
  | none => (.ok (), m)
  | some _ =>
    match m.shim.sendRequest c.delete c.socketPath (.DeleteContainer (toString id)) with
    | (.error e, shim) => (.error e, { m with shim := shim })
    | (.ok .Ok, shim) => (.ok (), { m with shim := shim })
    | (.ok response, shim) => (.error (.NotDeleted response), { m with shim := shim })

/-- Logs, handle and record. -/
def forget : Except DeleteError Unit × Managed :=
  match c.logsRemoved with
  | .error e => (.error (.BackendError ("cannot remove container logs: " ++ e)), m)
  | .ok () =>
    match c.recordDeleted with
    | .error e => (.error (.MetadataError e), { m with handle := false })
    | .ok () => (.ok (), { m with handle := false, record := none })

def deleteContainer (force : Bool) : Except DeleteError Unit × Managed :=
  match m.record with
  | none => (.error (.ContainerNotFound id), m)
  | some container =>
    match
      if container.state = .Running then
        if force then m.stopContainer c id
        else (.error (.BackendError ("container " ++ toString id ++
          " is running, use force to stop it first")), m)
      else (.ok (), m) with
    | (.error e, m) => (.error e, m)
    | (.ok (), m) =>
      match m.shimDelete c id with
      | (.error e, m) => (.error e, m)
      | (.ok (), m) => m.forget c

end Managed

/-! ## What is asked of the surroundings -/

/-- No request arrives meanwhile: workloads end, and the shim reaps them. -/
def Event.quiet : Event → Bool
  | .Request _ _ => false
  | _ => true

/-- The workload of a container ends. -/
def Event.exits (id : String) : Event → Bool
  | .Exit id' _ => id' == id
  | _ => false

structure Exchange.Responsive (x : Exchange) : Prop where
  quiet : ∀ e ∈ x.gap, e.quiet = true
  polled : ∀ id, x.env.polled id = true
  sent : x.env.sent = .ok ()
  reached : x.reached = .ok ()
  answered : x.answered = .ok ()

/-- **The shim is responsive**, and so are the daemon's store and file system. -/
structure Deletion.Responsive (c : Deletion) (m : Managed) : Prop where
  running : m.shim.phase ≠ .Ended ∧ m.shim.state.shutdown = false
  backendZone : c.backendZone.isSome = true
  registryZone : c.registryZone.isSome = true
  stop : c.stop.Responsive
  delete : c.delete.Responsive
  stored : c.stored = .ok ()
  logsRemoved : c.logsRemoved = .ok ()
  recordDeleted : c.recordDeleted = .ok ()

/-- The shim has a container as running, and its init process is alive. -/
def ContainerProcess.working (p : ContainerProcess) : Bool :=
  p.status == .Running && p.runtime.any (·.init == .Alive)

def ShimState.working (s : ShimState) (id : String) : Bool :=
  (s.containers.lookup id).any (·.working)

/-- **A container that is recorded as running is alive until the request to stop it is taken up; one
    that is not is over by the time of the request to delete it.** -/
def Deletion.Timely (c : Deletion) (id : ℕ) (container : ContainerRecord) (m : Managed) : Prop :=
  if container.state = .Running then
    m.handle = true ∧ m.shim.state.working (toString id) = true ∧
      c.stop.gap.any (Event.exits (toString id)) = false
  else
    m.shim.state.working (toString id) = false ∨
      c.delete.gap.any (Event.exits (toString id)) = true

/-- The container is nowhere any more. -/
def Managed.Absent (id : ℕ) (m : Managed) : Prop :=
  m.record = none ∧ m.handle = false ∧ m.shim.state.containers.lookup (toString id) = none

/-! ## The workload until a request is taken up -/

section

variable {p : ContainerProcess} {s : ShimState} {w : World} {e : Event} {id : String} {env : Env}
  {x : Exchange} {request : ShimRequest}

lemma RuntimeProcess.exit_init_ne (r : RuntimeProcess) (status : WaitStatus) :
    (r.exit status).init ≠ .Alive := by
  unfold RuntimeProcess.exit
  cases hinit : r.init with
  | Alive => simp
  | Zombie status' => simp [hinit]
  | Gone => simp [hinit]

/-- Reaping does not touch a process that is alive. -/
lemma reap_working (polled : Bool) : (p.reap polled).working = p.working := by
  unfold ContainerProcess.reap
  split_ifs with hidle
  · rfl
  · rw [not_or, not_not] at hidle
    cases hruntime : p.runtime with
    | none => rfl
    | some r =>
      simp only [ContainerProcess.working, hruntime, RuntimeProcess.tryWait, hidle.1]
      cases polled with
      | false => simp
      | true => cases hinit : r.init <;> simp [hinit] <;> rfl

/-- After a look at all processes, what is running is alive. -/
lemma reap_running (hp : p.Sound) : ((p.reap true).status == .Running) = p.working := by
  unfold ContainerProcess.reap ContainerProcess.working
  by_cases hrunning : p.status = .Running
  · obtain ⟨hruntime, hpid⟩ := hp.running hrunning
    obtain ⟨r, hr⟩ := Option.isSome_iff_exists.mp hruntime
    rw [if_neg (by simp [hrunning, hpid]), hr]
    simp only [RuntimeProcess.tryWait, hrunning]
    cases hinit : r.init <;> simp [hinit]
  · rw [if_pos (Or.inl hrunning)]
    simp [hrunning]

lemma reapChildren_working (polled : String → Bool) :
    (s.reapChildren polled).working id = s.working id := by
  rw [ShimState.working, ShimState.working, ShimState.reapChildren, Table.lookup_mapRows]
  cases s.containers.lookup id with
  | none => rfl
  | some p => exact reap_working _

lemma reapChildren_running (hs : s.Sound) {polled : String → Bool} (hpolled : polled id = true) :
    ((s.reapChildren polled).containers.lookup id).any (·.status == .Running) = s.working id := by
  rw [ShimState.working, ShimState.reapChildren, Table.lookup_mapRows]
  cases hlookup : s.containers.lookup id with
  | none => rfl
  | some p =>
    rw [Option.map_some, hpolled]
    exact reap_running (hs id p hlookup)

/-- A workload works until it ends. -/
lemma step_working (hquiet : e.quiet = true) :
    (w.step e).state.working id = (w.state.working id && !e.exits id) := by
  cases e with
  | Request env request => simp [Event.quiet] at hquiet
  | Broken =>
    rw [World.step]
    split_ifs <;> simp [Event.exits]
  | Reap polled =>
    rw [World.step]
    split_ifs
    · simp [Event.exits, reapChildren_working]
    · simp [Event.exits]
  | Exit id' status =>
    rw [World.step, ShimState.exit]
    by_cases hid : id' = id
    · subst hid
      cases hlookup : w.state.containers.lookup id' with
      | none => simp [ShimState.working, hlookup]
      | some p =>
        simp only [ShimState.working, set_containers_self, hlookup]
        cases hruntime : p.runtime <;>
          simp [ContainerProcess.working, Event.exits, hruntime, RuntimeProcess.exit_init_ne]
    · cases hlookup : w.state.containers.lookup id' with
      | none => simp [Event.exits, hid]
      | some p =>
        simp only [ShimState.working, set_containers_ne (Ne.symm hid)]
        simp [Event.exits, hid]

/-- A shim that goes on taking requests. -/
def World.Open (w : World) : Prop := w.phase ≠ .Ended ∧ w.state.shutdown = false

lemma step_open (hw : w.Open) (hquiet : e.quiet = true) : (w.step e).Open := by
  cases e with
  | Request env request => simp [Event.quiet] at hquiet
  | Broken =>
    rw [World.step]
    split_ifs
    · exact ⟨by simp, hw.2⟩
    · exact hw
  | Reap polled =>
    rw [World.step]
    split_ifs
    · exact ⟨by simp, hw.2⟩
    · exact hw
  | Exit id' status =>
    rw [World.step, ShimState.exit]
    cases w.state.containers.lookup id' with
    | none => exact hw
    | some p => exact hw

/-- **Until a request is taken up**: the shim stays open, and a workload works unless it ends. -/
lemma run_working (gap : List Event) (hquiet : ∀ e ∈ gap, e.quiet = true) (hw : w.Open)
    (hs : w.state.Sound) :
    (run World.step w gap).Open ∧ (run World.step w gap).state.Sound ∧
      ∀ id, (run World.step w gap).state.working id =
        (w.state.working id && !gap.any (Event.exits id)) := by
  induction gap generalizing w with
  | nil => exact ⟨hw, hs, fun id => by simp⟩
  | cons e gap ih =>
    have he := hquiet e List.mem_cons_self
    obtain ⟨hopen, hsound, hworking⟩ :=
      ih (fun e' he' => hquiet e' (List.mem_cons_of_mem _ he')) (step_open hw he) (step_sound hs)
    refine ⟨hopen, hsound, fun id => ?_⟩
    rw [run_cons, hworking id, step_working he, List.any_cons, Bool.not_or, Bool.and_assoc]

/-- **A responsive shim** takes up the request in a state where a workload works unless it has ended
    in the meantime, and stays open if the request is not to shut it down. -/
lemma sendRequest_spec (hx : x.Responsive) (hw : w.Open) (hs : w.state.Sound)
    (socketPath : String) (request : ShimRequest)
    (hkeeps : ∀ s, (handleRequest x.env s request).2.shutdown = s.shutdown) :
    ∃ (s : ShimState) (shim : World), s.Sound ∧
      (∀ id, s.working id = (w.state.working id && !x.gap.any (Event.exits id))) ∧
      w.sendRequest x socketPath request = (.ok (handleRequest x.env s request).1, shim) ∧
      shim.state = (handleRequest x.env s request).2 ∧ shim.Open ∧ shim.state.Sound := by
  obtain ⟨hopen, hsound, hworking⟩ := run_working x.gap hx.quiet hw hs
  have hquiet : (Event.Reap x.env.polled).quiet = true := rfl
  let w₁ := (run World.step w x.gap).step (.Reap x.env.polled)
  have hopen₁ : w₁.Open := step_open hopen hquiet
  have hsound₁ : w₁.state.Sound := step_sound hsound
  have hphase : w₁.phase = .Accepting := by
    cases hbefore : (run World.step w x.gap).phase with
    | Ended => exact absurd hbefore hopen.1
    | Accepting => simp [w₁, World.step, hbefore]
    | Reaping => simp [w₁, World.step, hbefore]
  refine ⟨w₁.state, w₁.step (.Request x.env request), hsound₁, fun id => ?_, ?_, ?_, ?_,
    step_sound hsound₁⟩
  · rw [step_working hquiet, hworking id]
    simp [Event.exits]
  · simp only [World.sendRequest, hx.reached, hx.answered, World.answer, w₁, hphase, if_true]
  · simp [World.step, hphase, hkeeps, hopen₁.2]
  · simp [World.Open, World.step, hphase, hkeeps, hopen₁.2]

/-! ## The two requests -/

/-- **A stop** is answered with success exactly if the container works, which it does not after. -/
lemma stopContainer_answer (hs : s.Sound) (hpolled : env.polled id = true)
    (hsent : env.sent = .ok ()) :
    ((s.stopContainer env id).1 = .ok () ↔ s.working id = true) ∧
    ((s.stopContainer env id).1 = .ok () → (s.stopContainer env id).2.working id = false) := by
  have hrunning := reapChildren_running hs hpolled
  have hsound := reapChildren_sound hs env.polled
  unfold ShimState.stopContainer ShimState.signalContainer
  generalize s.reapChildren env.polled = t at hrunning hsound
  rw [← hrunning]
  cases hlookup : t.containers.lookup id with
  | none => simp [hlookup]
  | some p =>
    by_cases hstatus : p.status = .Running
    · obtain ⟨hruntime, hpid⟩ := (hsound id p hlookup).running hstatus
      obtain ⟨r, hr⟩ := Option.isSome_iff_exists.mp hruntime
      simp only [hlookup, hstatus, hpid, hr, hsent, ne_eq, not_true_eq_false, or_self, if_false,
        Option.any_some, beq_self_eq_true, ShimState.working, set_containers_self]
      simp [ContainerProcess.working]
    · simp [hlookup, hstatus]

/-- **A deletion** is answered with success exactly if the container does not work; then it is
    gone. -/
lemma deleteContainer_answer (hs : s.Sound) (hpolled : env.polled id = true) :
    ((s.deleteContainer env id).1 = .ok () ↔ s.working id = false) ∧
    ((s.deleteContainer env id).1 = .ok () →
      (s.deleteContainer env id).2.containers.lookup id = none) := by
  have hrunning := reapChildren_running hs hpolled
  simp only [ShimState.deleteContainer]
  rw [← hrunning]
  split_ifs with hbusy
  · simp [hbusy]
  · simp [hbusy]

lemma stopContainer_shutdown : (s.stopContainer env id).2.shutdown = s.shutdown := by
  simp only [ShimState.stopContainer]
  split
  · rfl
  · split
    · rfl
    · split <;> rfl

lemma deleteContainer_shutdown : (s.deleteContainer env id).2.shutdown = s.shutdown := by
  simp only [ShimState.deleteContainer]
  split_ifs <;> rfl

/-- **Asking to stop**: success means that the container worked until the request was taken up. -/
lemma sendStop_spec (hx : x.Responsive) (hw : w.Open) (hs : w.state.Sound) (socketPath : String)
    (signal : ℤ) :
    ∃ (result : Except String Unit) (shim : World),
      w.sendRequest x socketPath (.StopContainer id signal) =
        (.ok (.ofExcept (fun _ => .Ok) result), shim) ∧
      (result = .ok () ↔ w.state.working id = true ∧ x.gap.any (Event.exits id) = false) ∧
      (result = .ok () → shim.Open ∧ shim.state.Sound ∧ shim.state.working id = false) := by
  obtain ⟨s, shim, hsound, hworking, hsend, hstate, hopen, hafter⟩ := sendRequest_spec hx hw hs
    socketPath (.StopContainer id signal) fun _ => stopContainer_shutdown
  obtain ⟨hok, hgone⟩ := stopContainer_answer hsound (hx.polled id) hx.sent
  refine ⟨(s.stopContainer x.env id).1, shim, hsend, ?_, fun h => ⟨hopen, hafter, hstate ▸ hgone h⟩⟩
  rw [hok, hworking, Bool.and_eq_true, Bool.not_eq_true']

/-- **Asking to delete**: success means that the container did not work when the request was taken
    up, and that it is gone. -/
lemma sendDelete_spec (hx : x.Responsive) (hw : w.Open) (hs : w.state.Sound) (socketPath : String) :
    ∃ (result : Except String Unit) (shim : World),
      w.sendRequest x socketPath (.DeleteContainer id) =
        (.ok (.ofExcept (fun _ => .Ok) result), shim) ∧
      (result = .ok () ↔ w.state.working id = false ∨ x.gap.any (Event.exits id) = true) ∧
      (result = .ok () → shim.state.containers.lookup id = none) := by
  obtain ⟨s, shim, hsound, hworking, hsend, hstate, -⟩ := sendRequest_spec hx hw hs socketPath
    (.DeleteContainer id) fun _ => deleteContainer_shutdown
  obtain ⟨hok, hgone⟩ := deleteContainer_answer hsound (hx.polled id)
  refine ⟨(s.deleteContainer x.env id).1, shim, hsend, ?_, fun h => hstate ▸ hgone h⟩
  rw [hok, hworking, Bool.and_eq_false_iff, Bool.not_eq_false']

end

/-! ## The deletion -/

section

variable {c : Deletion} {m : Managed} (id : ℕ) {container : ContainerRecord}

/-- A container that is no longer in use is deleted. -/
lemma shimDelete_spec (hzone : c.registryZone.isSome = true) (hx : c.delete.Responsive)
    (hw : m.shim.Open) (hs : m.shim.state.Sound) :
    ∃ shim : World, (m.shimDelete c id).2 = { m with shim := shim } ∧
      ((m.shimDelete c id).1 = .ok () ↔ m.shim.state.working (toString id) = false ∨
        c.delete.gap.any (Event.exits (toString id)) = true) ∧
      ((m.shimDelete c id).1 = .ok () →
        shim.state.containers.lookup (toString id) = none) := by
  obtain ⟨zoneName, hzoneName⟩ := Option.isSome_iff_exists.mp hzone
  obtain ⟨result, shim, hsend, hok, hgone⟩ := sendDelete_spec hx hw hs c.socketPath
  refine ⟨shim, ?_⟩
  rw [← hok]
  simp only [Managed.shimDelete, hzoneName, hsend]
  cases result with
  | ok u => exact ⟨rfl, ⟨fun _ => rfl, fun _ => rfl⟩, fun _ => hgone rfl⟩
  | error message => exact ⟨rfl, ⟨nofun, nofun⟩, nofun⟩

/-- A container that works is stopped, if the daemon has its handle. -/
lemma stopContainer_spec (hc : c.Responsive m) (hs : m.shim.state.Sound)
    (hrecord : m.record = some container) :
    ((m.stopContainer c id).1 = .ok () ↔ m.handle = true ∧
      m.shim.state.working (toString id) = true ∧
        c.stop.gap.any (Event.exits (toString id)) = false) ∧
      ((m.stopContainer c id).1 = .ok () →
        (m.stopContainer c id).2.shim.Open ∧ (m.stopContainer c id).2.shim.state.Sound ∧
          (m.stopContainer c id).2.shim.state.working (toString id) = false) := by
  obtain ⟨zoneName, hzone⟩ := Option.isSome_iff_exists.mp hc.backendZone
  obtain ⟨result, shim, hsend, hok, hgone⟩ := sendStop_spec hc.stop hc.running hs c.socketPath 15
  rw [← hok]
  simp only [Managed.stopContainer, Managed.backendStop, hrecord, hzone, hsend, hc.stored]
  cases m.handle with
  | false => exact ⟨⟨nofun, nofun⟩, nofun⟩
  | true =>
    cases result with
    | ok u => exact ⟨⟨fun _ => ⟨rfl, rfl⟩, fun _ => rfl⟩, fun _ => hgone rfl⟩
    | error message => exact ⟨⟨nofun, nofun⟩, nofun⟩

/-- With the container gone from the shim, nothing stands in the way of the rest. -/
lemma forget_spec (hlogs : c.logsRemoved = .ok ()) (hrecord : c.recordDeleted = .ok ()) :
    m.forget c = (.ok (), { m with handle := false, record := none }) := by
  simp [Managed.forget, hlogs, hrecord]

/-- The last two parts of a deletion. -/
lemma finish_spec (hc : c.Responsive m) {m' : Managed} (hw : m'.shim.Open)
    (hs : m'.shim.state.Sound) {done : Except DeleteError Unit × Managed}
    (hdone : done = match m'.shimDelete c id with
      | (.error e, m) => (.error e, m)
      | (.ok (), m) => m.forget c) :
    (done.1 = .ok () ∧ done.2.Absent id) ↔ m'.shim.state.working (toString id) = false ∨
      c.delete.gap.any (Event.exits (toString id)) = true := by
  obtain ⟨shim, hshim, hok, hgone⟩ := shimDelete_spec id hc.registryZone hc.delete hw hs
  rw [← hok, hdone]
  rcases hcall : m'.shimDelete c id with ⟨result, m''⟩
  rw [hcall] at hshim hgone
  cases result with
  | error e => simp
  | ok u =>
    simp only [forget_spec hc.logsRemoved hc.recordDeleted, Managed.Absent, true_and, iff_true]
    rw [show m''.shim = shim from congrArg Managed.shim hshim]
    exact hgone rfl

end

/-- **When a forced deletion goes through.**  The shim has run in any way before; shim and daemon
    answer, and no other request comes in between.  The deletion succeeds and leaves nothing of the
    container exactly if a container that is recorded as running is alive until the request to stop
    it is taken up, and one that is not is over by the time of the request to delete it. -/
theorem forced_deletion_iff (zoneName rootfsRoot : String) (history : List Event) (c : Deletion)
    (id : ℕ) (m : Managed) (container : ContainerRecord)
    (hshim : m.shim = run .step (.start zoneName rootfsRoot) history)
    (hrecord : m.record = some container) (hc : c.Responsive m) :
    ((m.deleteContainer c id true).1 = .ok () ∧ (m.deleteContainer c id true).2.Absent id) ↔
      c.Timely id container m := by
  have hs : m.shim.state.Sound := hshim ▸ run_sound zoneName rootfsRoot history
  unfold Managed.deleteContainer Deletion.Timely
  rw [hrecord]
  by_cases hrunning : container.state = .Running
  · obtain ⟨hok, hstopped⟩ := stopContainer_spec id hc hs hrecord
    simp only [hrunning, if_true]
    rw [← hok]
    rcases hcall : m.stopContainer c id with ⟨result, m'⟩
    rw [hcall] at hstopped
    cases result with
    | error e => simp
    | ok u =>
      obtain ⟨hopen, hsound, hworking⟩ := hstopped rfl
      have hfinish := finish_spec id hc hopen hsound rfl
      simp only [hworking, true_or, iff_true] at hfinish
      simpa using hfinish
  · simp only [hrunning, if_false]
    exact finish_spec id hc hc.running hs rfl

/-! ## Two deletions -/

namespace Deletion

/-- A request that meets no obstacle, with the workloads that end before it. -/
def exchange (gap : List Event) : Exchange where
  gap := gap
  env := ⟨.ok ⟨4711, by decide⟩, .ok (), fun _ => true, fun _ => ⟨.Over (.Signaled 15), .Silent⟩,
    .ok (), .ok (), .ok "", ""⟩
  reached := .ok ()
  answered := .ok ()

/-- A deletion that meets no obstacle. -/
def smooth (beforeStop beforeDelete : List Event) : Deletion :=
  ⟨"shim-web.sock", some "web", some "web", exchange beforeStop, exchange beforeDelete, 0, .ok (),
    .ok (), .ok ()⟩

/-- A container that has been started, recorded as running. -/
def container : ContainerRecord :=
  ⟨⟨1, "app", 1, .Running⟩, some 4711, some 0, none, none⟩

/-- The shim has created and started the container. -/
def history : List Event :=
  [.Request (exchange []).env (.CreateContainer "1" ""), .Reap fun _ => true,
    .Request (exchange []).env (.StartContainer "1"), .Reap fun _ => true]

def managed : Managed := ⟨some container, true, run .step (.start "web" "") history⟩

lemma exchange_responsive {gap : List Event} (h : ∀ e ∈ gap, e.quiet = true) :
    (exchange gap).Responsive :=
  ⟨h, fun _ => rfl, rfl, rfl, rfl⟩

lemma smooth_responsive {beforeStop beforeDelete : List Event}
    (hstop : ∀ e ∈ beforeStop, e.quiet = true) (hdelete : ∀ e ∈ beforeDelete, e.quiet = true) :
    (smooth beforeStop beforeDelete).Responsive managed where
  running := ⟨by decide, by decide⟩
  backendZone := rfl
  registryZone := rfl
  stop := exchange_responsive hstop
  delete := exchange_responsive hdelete
  stored := rfl
  logsRemoved := rfl
  recordDeleted := rfl

end Deletion

/-- A workload that runs until it is stopped. -/
theorem forced_deletion_running :
    (Deletion.managed.deleteContainer (.smooth [] []) 1 true).1 = .ok () ∧
      (Deletion.managed.deleteContainer (.smooth [] []) 1 true).2.Absent 1 :=
  (forced_deletion_iff "web" "" Deletion.history (.smooth [] []) 1 Deletion.managed
    Deletion.container rfl rfl
    (Deletion.smooth_responsive (List.forall_mem_nil _) (List.forall_mem_nil _))).mpr
    ⟨rfl, by decide, rfl⟩

/-- **A workload that ends before the request to stop it arrives** cannot be deleted, with force or
    not: the shim refuses to stop it. -/
theorem forced_deletion_ended :
    (Deletion.smooth [.Exit "1" (.Exited 0)] []).Responsive Deletion.managed ∧
      (Deletion.managed.deleteContainer (.smooth [.Exit "1" (.Exited 0)] []) 1 true).1 =
        .error (.ContainerExecError "1" "container 1 is not running") := by
  refine ⟨Deletion.smooth_responsive (by decide) (List.forall_mem_nil _), ?_⟩
  decide

end Rauha.Shim
