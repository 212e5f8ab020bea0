import Rauha.Shim.State

/-!
# Stopped means gone

A shim that has told a container to stop waits for its init process, kills it, and waits once more.
What it does after the second time is the same whether the process has ended or not: the container
is recorded as stopped, with the code of a process that was killed.

An observer beside the shim (`Watch`) notes how each init process really ends.  The invariant
`Recorded` relates what the shim keeps of a container to the observer's note: a running container's
process has not been waited for yet, and the exit code of a stopped one is the code of its process.
Every event keeps it, apart from a stop whose two waits see nothing (`Noticed`); `stopped_is_gone`
is the statement for whole runs.
-/

namespace Rauha.Shim

open Transition

/-! ## The observer -/

/-- The status that a process ends with while it is waited for. -/
def Grace.ending : Grace → Option WaitStatus
  | ⟨.Over status, _⟩ => some status
  | ⟨.Silent, .Over status⟩ => some status
  | ⟨.Silent, .Silent⟩ => none

/-- The init process of a container, as long as it lives. -/
def ShimState.alive (s : ShimState) (id : String) : Bool :=
  (s.containers.lookup id).any fun p => p.runtime.any fun r => r.init == .Alive

/-- A stop request gets as far as waiting for the container. -/
def ShimState.awaits (s : ShimState) (env : Env) (id : String) : Bool :=
  ((s.reapChildren env.polled).signalContainer env id).toOption.isSome

/-- What the observer notes: how the process of a container ended, if it has. -/
abbrev Endings := String → Option WaitStatus

def Endings.note (endings : Endings) (id : String) (ending : Option WaitStatus) : Endings :=
  Function.update endings id (ending.or (endings id))

/-- The events at which a process begins or ends. -/
def observe (w : World) (endings : Endings) : Event → Endings
  | .Exit id status => if w.state.alive id then endings.note id (some status) else endings
  | .Request env request =>
    if w.phase = .Accepting then
      match request with
      | .StartContainer id =>
        match (w.state.startContainer env id).1 with
        | .ok _ => Function.update endings id none
        | .error _ => endings
      | .StopContainer id _ =>
        if w.state.awaits env id ∧ w.state.alive id then endings.note id (env.grace id).ending
        else endings
      | .Shutdown => fun id =>
        if w.state.alive id then (env.grace id).ending.or (endings id) else endings id
      | _ => endings
    else endings
  | _ => endings

/-- A shim and its observer. -/
structure Watch where
  world : World
  endings : Endings

namespace Watch

def start (zoneName rootfsRoot : String) : Watch := ⟨.start zoneName rootfsRoot, fun _ => none⟩

def step (w : Watch) (e : Event) : Watch := ⟨w.world.step e, observe w.world w.endings e⟩

end Watch

/-- **A stop notices the end of the process**: if it comes to waiting, one of the two waits sees
    it. -/
def Noticed (w : Watch) (e : Event) : Prop :=
  (match e with
  | .Request env (.StopContainer id _) =>
    !w.world.state.awaits env id || env.grace id != ⟨.Silent, .Silent⟩
  | _ => true) = true

instance (w : Watch) (e : Event) : Decidable (Noticed w e) :=
  inferInstanceAs (Decidable (_ = true))

/-! ## What is recorded of one container -/

/-- What the shim keeps of a container, against what the observer noted.  `ended` says that the shim
    takes no more requests: it then no longer records the end of processes. -/
structure Recorded (ended : Prop) (ending : Option WaitStatus) (p : ContainerProcess) : Prop where
  running : p.status = .Running → ∃ r, p.runtime = some r ∧
    (∀ status, r.init = .Zombie status → ending = some status) ∧ (¬ ended → r.init ≠ .Gone)
  stopped : p.status = .Stopped → ∃ r status, p.runtime = some r ∧ r.init ≠ .Alive ∧
    ending = some status ∧ p.exitCode = some status.code

section

variable {p : ContainerProcess} {r r' : RuntimeProcess} {ended : Prop}
  {ending : Option WaitStatus}

/-- What is recorded while requests are taken is recorded afterwards. -/
lemma Recorded.weaken (h : Recorded False ending p) : Recorded ended ending p where
  running hrunning := by
    obtain ⟨r, hr, hzombie, hgone⟩ := h.running hrunning
    exact ⟨r, hr, hzombie, fun _ => hgone not_false⟩
  stopped := h.stopped

/-- Nothing is recorded yet of a container that was not started. -/
lemma Recorded.created (h : p.status = .Created) : Recorded ended ending p :=
  ⟨fun hrunning => by simp [h] at hrunning, fun hstopped => by simp [h] at hstopped⟩

variable {polled : Bool}

/-- A process that polling finds to be over has left its status. -/
lemma tryWait_some {code : ℤ} (h : r.tryWait polled = (some code, r')) (hgone : r.init ≠ .Gone) :
    ∃ status, r.init = .Zombie status ∧ code = status.code ∧ r'.init = .Gone := by
  unfold RuntimeProcess.tryWait at h
  split_ifs at h with hpolled
  · simp at h
  · cases hinit : r.init with
    | Alive => simp [hinit] at h
    | Zombie status =>
      simp only [hinit, Prod.mk.injEq, Option.some.injEq] at h
      refine ⟨status, rfl, h.1.symm, ?_⟩
      rw [← h.2]
      rfl
    | Gone => exact absurd hinit hgone

lemma tryWait_none (h : r.tryWait polled = (none, r')) : r' = r := by
  unfold RuntimeProcess.tryWait at h
  split_ifs at h with hpolled
  · simp only [Prod.mk.injEq, true_and] at h
    exact h.symm
  · cases hinit : r.init <;> simp [hinit] at h
    exact h.symm

/-- Reaping records the code that the process ended with. -/
lemma Recorded.reap (h : Recorded False ending p) (polled : Bool) :
    Recorded False ending (p.reap polled) := by
  unfold ContainerProcess.reap
  split_ifs with hidle
  · exact h
  · rw [not_or, not_not] at hidle
    obtain ⟨r, hr, hzombie, hgone⟩ := h.running hidle.1
    simp only [hr]
    rcases hwait : r.tryWait polled with ⟨code, r'⟩
    cases code with
    | none =>
      have hsame := tryWait_none hwait
      subst hsame
      exact ⟨fun _ => ⟨r', rfl, hzombie, hgone⟩, fun hstopped => by
        simp [hidle.1] at hstopped⟩
    | some code =>
      obtain ⟨status, hinit, hcode, hr'⟩ := tryWait_some hwait (hgone not_false)
      refine ⟨fun hrunning => by simp at hrunning, fun _ => ⟨r', status, rfl, ?_,
        hzombie status hinit, by rw [hcode]⟩⟩
      simp [hr']

/-- The end of the workload is noted while the process lives. -/
lemma Recorded.exit (h : Recorded ended ending p) (status : WaitStatus) :
    Recorded ended (if p.runtime.any (·.init == .Alive) then (some status).or ending else ending)
      { p with runtime := p.runtime.map (·.exit status) } where
  running hrunning := by
    obtain ⟨r, hr, hzombie, hgone⟩ := h.running hrunning
    refine ⟨r.exit status, by simp [hr], ?_⟩
    cases hinit : r.init with
    | Alive => simp [RuntimeProcess.exit, hr, hinit]
    | Zombie status' =>
      have hnoted := hzombie status' hinit
      simp [RuntimeProcess.exit, hr, hinit, hnoted]
    | Gone =>
      refine ⟨by simp [RuntimeProcess.exit, hinit], fun hnot => absurd hinit (hgone hnot)⟩
  stopped hstopped := by
    obtain ⟨r, noted, hr, hdead, hnoted, hcode⟩ := h.stopped hstopped
    have hsame : r.exit status = r := by
      unfold RuntimeProcess.exit
      cases hinit : r.init with
      | Alive => exact absurd hinit hdead
      | Zombie status' => rfl
      | Gone => rfl
    refine ⟨r, noted, by simp [hr, hsame], hdead, ?_, hcode⟩
    simp [hr, hdead, hnoted]

section

attribute [local simp] RuntimeProcess.waitOrKill RuntimeProcess.waitUntil RuntimeProcess.tryWait
  RuntimeProcess.delete

/-- **Waiting that notices the end** returns the code of the process, whether it had ended before or
    ends now. -/
lemma waitOrKill_noticed {grace : Grace} (hgone : r.init ≠ .Gone)
    (hnoticed : grace ≠ ⟨.Silent, .Silent⟩)
    (hzombie : ∀ status, r.init = .Zombie status → ending = some status) :
    ∃ status, (if r.init = .Alive then grace.ending.or ending else ending) = some status ∧
      (r.waitOrKill grace).1 = status.code ∧ (r.waitOrKill grace).2.init = .Gone := by
  obtain ⟨first, second⟩ := grace
  cases hinit : r.init with
  | Gone => exact absurd hinit hgone
  | Alive =>
    cases first with
    | Over status => exact ⟨status, by simp [Grace.ending], by simp [hinit], by simp [hinit]⟩
    | Silent =>
      cases second with
      | Over status => exact ⟨status, by simp [Grace.ending], by simp [hinit], by simp [hinit]⟩
      | Silent => exact absurd rfl hnoticed
  | Zombie status =>
    refine ⟨status, by simpa using hzombie status hinit, ?_⟩
    cases first with
    | Over _ => simp [hinit]
    | Silent =>
      cases second with
      | Over _ => simp [hinit]
      | Silent => exact absurd rfl hnoticed

/-- What waiting leaves of a process, noticed or not. -/
lemma waitOrKill_init (grace : Grace) :
    ((r.waitOrKill grace).2.init = .Gone ∨ (r.waitOrKill grace).2.init = r.init) ∧
      ((r.waitOrKill grace).2.init = .Alive → r.init = .Alive) := by
  obtain ⟨first, second⟩ := grace
  cases first <;> cases second <;> cases hinit : r.init <;> simp [hinit]

end

/-- A shim that shuts down waits for every process, and records nothing. -/
lemma Recorded.shutdown (h : Recorded False ending p) (grace : Grace) :
    Recorded True (if p.runtime.any (·.init == .Alive) then grace.ending.or ending else ending)
      { p with runtime := p.runtime.map fun r => (r.waitOrKill grace).2 } where
  running hrunning := by
    obtain ⟨r, hr, hzombie, -⟩ := h.running hrunning
    refine ⟨(r.waitOrKill grace).2, by simp [hr], fun status hleft => ?_, fun hnot =>
      absurd trivial hnot⟩
    have hinit : r.init = .Zombie status := by
      rcases (waitOrKill_init (r := r) grace).1 with hgone | hsame
      · simp [hgone] at hleft
      · rw [← hsame, hleft]
    simp [hr, hinit, hzombie status hinit]
  stopped hstopped := by
    obtain ⟨r, noted, hr, hdead, hnoted, hcode⟩ := h.stopped hstopped
    refine ⟨(r.waitOrKill grace).2, noted, by simp [hr], ?_, ?_, hcode⟩
    · exact fun halive => hdead ((waitOrKill_init grace).2 halive)
    · simp [hr, hdead, hnoted]

/-! ## Events -/

variable {w : Watch} {s : ShimState} {env : Env} {id : String} {e : Event}

/-- The records of a shim. -/
def ShimState.Recorded (ended : Prop) (s : ShimState) (endings : Endings) : Prop :=
  ∀ id p, s.containers.lookup id = some p → Shim.Recorded ended (endings id) p

/-- **The invariant.** -/
def Watch.Recorded (w : Watch) : Prop :=
  w.world.state.Recorded (w.world.phase = .Ended) w.endings

variable {endings : Endings}

lemma recorded_reapChildren (h : s.Recorded False endings) (polled : String → Bool) :
    (s.reapChildren polled).Recorded False endings := by
  intro id p hp
  rw [ShimState.reapChildren, Table.lookup_mapRows] at hp
  obtain ⟨p₀, hp₀, rfl⟩ := Option.map_eq_some_iff.mp hp
  exact (h id p₀ hp₀).reap (polled id)

lemma recorded_set {endings' : Endings} (h : s.Recorded ended endings)
    (hp : Shim.Recorded ended (endings' id) p)
    (hothers : ∀ id', id' ≠ id → endings' id' = endings id') :
    (s.set id p).Recorded ended endings' := by
  intro id' p' hp'
  by_cases hid : id' = id
  · subst hid
    rw [set_containers_self] at hp'
    cases hp'
    exact hp
  · rw [set_containers_ne hid] at hp'
    rw [hothers id' hid]
    exact h id' p' hp'

/-- A process lives on while exited ones are reaped. -/
lemma alive_reapChildren (polled : String → Bool) :
    (s.reapChildren polled).alive id = s.alive id := by
  simp only [ShimState.alive, ShimState.reapChildren, Table.lookup_mapRows]
  cases s.containers.lookup id with
  | none => rfl
  | some p =>
    simp only [Option.map_some, Option.any_some, ContainerProcess.reap]
    split_ifs with hidle
    · rfl
    · cases hruntime : p.runtime with
      | none => simp [hruntime]
      | some r =>
        simp only [RuntimeProcess.tryWait]
        split_ifs with hpolled
        · simp
        · cases hinit : r.init <;> simp [hinit, RuntimeProcess.delete]

/-- **A stop** that notices the end records it. -/
lemma recorded_stopContainer (h : s.Recorded False endings)
    (hnoticed : s.awaits env id = true → env.grace id ≠ ⟨.Silent, .Silent⟩) :
    (s.stopContainer env id).2.Recorded False
      (if s.awaits env id ∧ s.alive id then endings.note id (env.grace id).ending
        else endings) := by
  have hreaped := recorded_reapChildren h env.polled
  have halive : (s.reapChildren env.polled).alive id = s.alive id := alive_reapChildren env.polled
  unfold ShimState.awaits at hnoticed ⊢
  unfold ShimState.stopContainer
  generalize s.reapChildren env.polled = t at hreaped halive hnoticed
  simp only
  cases hsignal : t.signalContainer env id with
  | error message => simpa [Except.toOption] using hreaped
  | ok _ =>
    have hgrace : env.grace id ≠ ⟨.Silent, .Silent⟩ := hnoticed (by rw [hsignal]; rfl)
    obtain ⟨p, hlookup, hrunning⟩ := running_of_signalContainer hsignal
    obtain ⟨r, hr, hzombie, hgone⟩ := (hreaped id p hlookup).running hrunning
    have hlives : s.alive id = (r.init == .Alive) := by
      rw [← halive, ShimState.alive, hlookup]
      simp [hr]
    obtain ⟨status, hending, hcode, hinit⟩ := waitOrKill_noticed (hgone not_false) hgrace hzombie
    simp only [hlookup, hr, hlives]
    refine recorded_set hreaped ?_ ?_
    · refine ⟨fun hrun => by simp at hrun, fun _ => ⟨_, status, rfl, by simp [hinit], ?_, ?_⟩⟩
      · rw [← hending]
        by_cases hnow : r.init = .Alive <;>
          simp [hnow, Except.toOption, Endings.note]
      · rw [hcode]
    · intro id' hid
      split_ifs <;> simp [Endings.note, hid]

/-- **A shutdown.** -/
lemma recorded_requestShutdown (h : s.Recorded False endings) :
    (s.requestShutdown env).Recorded True fun id =>
      if s.alive id then (env.grace id).ending.or (endings id) else endings id := by
  intro id p hp
  simp only [ShimState.requestShutdown, Table.lookup_mapRows] at hp
  obtain ⟨p₀, hp₀, rfl⟩ := Option.map_eq_some_iff.mp hp
  have halive : s.alive id = p₀.runtime.any (·.init == .Alive) := by
    rw [ShimState.alive, hp₀, Option.any_some]
  simp only [halive]
  exact (h id p₀ hp₀).shutdown (env.grace id)

/-- **A request**, taken up by a shim whose records are right. -/
lemma recorded_request {request : ShimRequest} (h : s.Recorded False endings)
    (hnoticed : ∀ id signal, request = .StopContainer id signal → s.awaits env id = true →
      env.grace id ≠ ⟨.Silent, .Silent⟩) (hrequest : request ≠ .Shutdown) :
    (handleRequest env s request).2.Recorded False
      (observe ⟨s, .Accepting⟩ endings (.Request env request)) := by
  cases request with
  | CreateContainer id specJson =>
    simp only [handleRequest, ShimState.createContainer, observe]
    cases s.containers.lookup id with
    | some p => exact h
    | none => exact recorded_set h (Recorded.created rfl) fun _ _ => rfl
  | StartContainer id =>
    simp only [handleRequest, ShimState.startContainer, observe]
    cases hlookup : s.containers.lookup id with
    | none => exact h
    | some p =>
      simp only
      by_cases hcreated : p.status = .Created
      · rw [if_neg (not_not.mpr hcreated)]
        cases env.crun with
        | error message => exact h
        | ok pid =>
          refine recorded_set h ⟨fun _ => ⟨_, rfl, by simp, by simp⟩, by simp⟩ ?_
          intro id' hid
          exact Function.update_of_ne hid _ _
      · rw [if_pos hcreated]
        exact h
  | StopContainer id signal =>
    exact recorded_stopContainer h (hnoticed id signal rfl)
  | DeleteContainer id =>
    simp only [handleRequest, ShimState.deleteContainer, observe]
    have hreaped := recorded_reapChildren h env.polled
    split_ifs
    · exact hreaped
    · exact fun id' p hp => hreaped id' p (Table.of_lookup_erase hp).2
  | Shutdown => exact absurd rfl hrequest
  | GetState id =>
    simp only [handleRequest, observe]
    cases s.getState id <;> exact h
  | ResizePty id sessionId rows cols => cases sessionId <;> exact h
  | Signal id signal => exact h
  | GetStats => exact h
  | Attach id pty => exact h
  | Exec id command env' pty => exact h

attribute [local simp] Watch.Recorded Watch.step World.step observe

/-- **Every event keeps the records right**, if a stop among them notices the end. -/
lemma Watch.Recorded.step (h : w.Recorded) (hnoticed : Noticed w e) : (w.step e).Recorded := by
  obtain ⟨⟨s, phase⟩, endings⟩ := w
  cases e with
  | Request env request =>
    by_cases hphase : phase = .Accepting
    · subst hphase
      have htaking : s.Recorded False endings := by simpa using h
      by_cases hshutdown : request = .Shutdown
      · subst hshutdown
        have hrecorded : (s.requestShutdown env).Recorded True _ := recorded_requestShutdown htaking
        simpa [handleRequest, ShimState.requestShutdown] using hrecorded
      · have hstop : ∀ id signal, request = .StopContainer id signal →
            s.awaits env id = true → env.grace id ≠ ⟨.Silent, .Silent⟩ := by
          rintro id signal rfl hawaits
          simpa [Noticed, hawaits] using hnoticed
        have hrecorded := recorded_request htaking hstop hshutdown
        exact fun id p hp => (hrecorded id p (by simpa using hp)).weaken
    · simpa [hphase] using h
  | Broken => by_cases hphase : phase = .Accepting <;> simpa [hphase] using h
  | Reap polled =>
    by_cases hphase : phase = .Reaping
    · subst hphase
      have htaking : s.Recorded False endings := by simpa using h
      simpa using recorded_reapChildren htaking polled
    · simpa [hphase] using h
  | Exit id status =>
    simp only [Watch.Recorded, Watch.step, World.step, ShimState.exit, observe]
    cases hlookup : s.containers.lookup id with
    | none => simpa [ShimState.alive, hlookup] using h
    | some p =>
      have hexit := (h id p hlookup).exit status
      refine recorded_set h ?_ fun id' hid => ?_
      · have halive : s.alive id = p.runtime.any (·.init == .Alive) := by
          simp [ShimState.alive, hlookup]
        rw [← halive] at hexit
        split_ifs with hnow
        · simpa [Endings.note, hnow] using hexit
        · simpa [hnow] using hexit
      · split_ifs <;> simp [Endings.note, hid]

lemma Watch.Recorded.run {es : List Event} (h : w.Recorded)
    (hnoticed : Meets .step Noticed w es) : (Transition.run .step w es).Recorded :=
  hnoticed.invariant (I := Watch.Recorded) (fun _ _ hrecorded hstep => hrecorded.step hstep) h

/-- A stop that is answered with success leaves a stopped container. -/
lemma stopped_of_answer {signal : ℤ}
    (h : w.world.answer (.Request env (.StopContainer id signal)) = some .Ok) :
    (w.step (.Request env (.StopContainer id signal))).world.status id = some .Stopped := by
  simp only [World.answer] at h
  split_ifs at h with hphase
  simp only [Option.some.injEq, handleRequest, ShimState.stopContainer] at h
  simp only [Watch.step, World.step, if_pos hphase, World.status, handleRequest,
    ShimState.stopContainer]
  cases hsignal : (w.world.state.reapChildren env.polled).signalContainer env id with
  | error message => simp [hsignal, ShimResponse.ofExcept] at h
  | ok _ =>
    obtain ⟨p, hlookup, hrunning⟩ := running_of_signalContainer hsignal
    simp only [hsignal, hlookup] at h ⊢
    cases hruntime : p.runtime with
    | none => simp [hruntime, ShimResponse.ofExcept] at h
    | some r => simp [set_containers_self]

end

/-- The init process of a container has exited, and its exit code is recorded. -/
def Watch.Gone (w : Watch) (id : String) : Prop :=
  ∃ p r status, w.world.state.containers.lookup id = some p ∧ p.runtime = some r ∧
    r.init ≠ .Alive ∧ w.endings id = some status ∧ p.exitCode = some status.code

/-- **Stopped means gone.**  In every run whose stops notice the end of the processes they wait for,
    a container whose status is stopped has an init process that has exited, with the code that is
    recorded; and so has one right after a stop of it was answered with success. -/
theorem stopped_is_gone (zoneName rootfsRoot : String) (es : List Event)
    (hnoticed : Meets Watch.step Noticed (Watch.start zoneName rootfsRoot) es) :
    let w := run Watch.step (Watch.start zoneName rootfsRoot) es
    (∀ id, w.world.status id = some .Stopped → w.Gone id) ∧
    ∀ env id signal, Noticed w (.Request env (.StopContainer id signal)) →
      w.world.answer (.Request env (.StopContainer id signal)) = some .Ok →
      (w.step (.Request env (.StopContainer id signal))).Gone id := by
  intro w
  have hstart : (Watch.start zoneName rootfsRoot).Recorded := by
    intro id p hp
    cases hp
  have hrecorded : w.Recorded := hstart.run hnoticed
  have hgone : ∀ v : Watch, v.Recorded → ∀ id, v.world.status id = some .Stopped → v.Gone id := by
    intro v hv id hstatus
    obtain ⟨p, hp, hstopped⟩ := Option.map_eq_some_iff.mp hstatus
    obtain ⟨r, status, hr, hdead, hending, hcode⟩ := (hv id p hp).stopped hstopped
    exact ⟨p, r, status, hp, hr, hdead, hending, hcode⟩
  refine ⟨hgone w hrecorded, fun env id signal hstop hanswer => ?_⟩
  exact hgone _ (hrecorded.step hstop) id (stopped_of_answer hanswer)

/-- Both waits of this stop run out. -/
def unkillableEnv : Env := { sampleEnv with grace := fun _ => ⟨.Silent, .Silent⟩ }

/-- **A stop of a process that does not die** is answered with success and recorded, while the
    process lives. -/
theorem stopped_but_alive :
    let before := run Watch.step (Watch.start "z" "/rootfs")
      (sampleRequest (.CreateContainer "c" "spec") ++ sampleRequest (.StartContainer "c"))
    let w := before.step (.Request unkillableEnv (.StopContainer "c" 15))
    before.world.answer (.Request unkillableEnv (.StopContainer "c" 15)) = some .Ok ∧
      w.world.status "c" = some .Stopped ∧ w.world.state.alive "c" = true ∧ ¬ w.Gone "c" := by
  intro before w
  have halive : w.world.state.containers.lookup "c" =
      some ⟨7, .Stopped, some 137, "spec", some ⟨"c", .Alive, true⟩⟩ := by decide +kernel
  refine ⟨by decide +kernel, by decide +kernel, by decide +kernel, ?_⟩
  rintro ⟨p, r, status, hp, hr, hdead, -⟩
  rw [halive] at hp
  cases hp
  cases hr
  exact hdead rfl

/-- A container that exits while it is waited for. -/
theorem stopped_is_gone_killed :
    (run Watch.step (Watch.start "z" "/rootfs")
      (sampleRequest (.CreateContainer "c" "spec") ++ sampleRequest (.StartContainer "c") ++
        sampleRequest (.StopContainer "c" 15))).Gone "c" :=
  (stopped_is_gone "z" "/rootfs"
    (sampleRequest (.CreateContainer "c" "spec") ++ sampleRequest (.StartContainer "c") ++
      sampleRequest (.StopContainer "c" 15)) (by decide +kernel)).1 "c" (by decide +kernel)

end Rauha.Shim
