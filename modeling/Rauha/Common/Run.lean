import Mathlib.Tactic

/-!
# The life cycle of a run

`reduce` folds the events of a journal into the state of a run.  Ten kinds of events move it, from
one set of states each and from one emitter each; the other kinds of the catalogue are recorded and
leave the state alone; a kind that is not in the catalogue is reported as unknown.

`Traced` is what the state says about the past: which life cycle events came last, and that the run
was created first.  It is kept by every transition (`Traced.next`), and the results about accepted
runs are read off it.
-/

namespace Rauha.Run

open List

inductive RunState where
  | Preparing
  | Running
  | Waiting
  | Frozen
  | Delegated
  | Proving
  | Review
  | Accepted
  | Discarded
  deriving DecidableEq, Repr

inductive Emitter where
  | Supervisor
  | Custodian
  | Broker
  | Reducer
  deriving DecidableEq, Repr

/-- The kinds that move a run. -/
inductive Lifecycle where
  | RunCreated
  | SandboxReady
  | RunWaiting
  | RunResumed
  | RunFrozen
  | RunDelegated
  | ProofStarted
  | ProofFinished
  | RunAccepted
  | RunDiscarded
  deriving DecidableEq, Repr

def Lifecycle.text : Lifecycle → String
  | .RunCreated => "run.created"
  | .SandboxReady => "sandbox.ready"
  | .RunWaiting => "run.waiting"
  | .RunResumed => "run.resumed"
  | .RunFrozen => "run.frozen"
  | .RunDelegated => "run.delegated"
  | .ProofStarted => "proof.started"
  | .ProofFinished => "proof.finished"
  | .RunAccepted => "run.accepted"
  | .RunDiscarded => "run.discarded"

/-- What a kind is for: it moves the run, it is recorded from one emitter, or it is not known. -/
inductive Kind where
  | lifecycle (kind : Lifecycle)
  | recorded (source : Emitter)
  | unknown
  deriving DecidableEq, Repr

def lifecycleKinds : List Lifecycle :=
  [.RunCreated, .SandboxReady, .RunWaiting, .RunResumed, .RunFrozen, .RunDelegated, .ProofStarted,
    .ProofFinished, .RunAccepted, .RunDiscarded]

def custodianKinds : List String :=
  ["supervisor.claimed", "supervisor.released", "sandbox.materialized", "sandbox.destroyed",
    "capability.granted", "capability.revoked", "checkpoint.sealed", "witness.attached",
    "witness.observation", "witness.loss", "receipt.sealed", "journal.compacted"]

def brokerKinds : List String :=
  ["effect.requested", "effect.executing", "effect.succeeded", "effect.failed", "effect.uncertain",
    "effect.reconciled"]

def supervisorKinds : List String :=
  ["effect.authorized", "child.finished", "human.asked", "human.answered"]

/-- The event catalogue. -/
def classify (kind : String) : Kind :=
  match lifecycleKinds.find? fun known => known.text = kind with
  | some known => .lifecycle known
  | none =>
    if kind ∈ custodianKinds then .recorded .Custodian
    else if kind ∈ brokerKinds then .recorded .Broker
    else if kind ∈ supervisorKinds then .recorded .Supervisor
    else if kind = "journal.unknown_event" then .recorded .Reducer
    else .unknown

structure Reduction where
  state : Option RunState
  unknownEvent : Option String
  deriving DecidableEq, Repr

structure ProtocolError where
  state : Option RunState
  kind : String
  emitter : Emitter
  deriving DecidableEq, Repr

/-- Who may move a run in a state, and where to. -/
def transition : Option RunState → Lifecycle → Option (Emitter × RunState)
  | none, .RunCreated => some (.Supervisor, .Preparing)
  | some .Preparing, .SandboxReady => some (.Custodian, .Running)
  | some .Running, .RunWaiting => some (.Supervisor, .Waiting)
  | some .Waiting, .RunResumed => some (.Supervisor, .Running)
  | some .Frozen, .RunResumed => some (.Supervisor, .Running)
  | some .Delegated, .RunResumed => some (.Supervisor, .Running)
  | some .Preparing, .RunFrozen => some (.Custodian, .Frozen)
  | some .Running, .RunFrozen => some (.Custodian, .Frozen)
  | some .Waiting, .RunFrozen => some (.Custodian, .Frozen)
  | some .Delegated, .RunFrozen => some (.Custodian, .Frozen)
  | some .Proving, .RunFrozen => some (.Custodian, .Frozen)
  | some .Running, .RunDelegated => some (.Supervisor, .Delegated)
  | some .Waiting, .RunDelegated => some (.Supervisor, .Delegated)
  | some .Running, .ProofStarted => some (.Supervisor, .Proving)
  | some .Waiting, .ProofStarted => some (.Supervisor, .Proving)
  | some .Delegated, .ProofStarted => some (.Supervisor, .Proving)
  | some .Proving, .ProofFinished => some (.Supervisor, .Review)
  | some .Review, .RunAccepted => some (.Supervisor, .Accepted)
  | some _, .RunDiscarded => some (.Supervisor, .Discarded)
  | _, _ => none

def terminal (state : Option RunState) : Prop := state = some .Accepted ∨ state = some .Discarded

instance (state : Option RunState) : Decidable (terminal state) :=
  inferInstanceAs (Decidable (_ ∨ _))

/-- One event; `none` is the state before `run.created`. -/
def reduce (state : Option RunState) (kind : String) (emitter : Emitter) :
    Except ProtocolError Reduction :=
  if terminal state ∧ kind ≠ "receipt.sealed" ∧ kind ≠ "journal.compacted" then
    .error ⟨state, kind, emitter⟩
  else
    match classify kind with
    | .unknown => .ok ⟨state, some kind⟩
    | .recorded source =>
      if emitter ≠ source ∨ state = none then .error ⟨state, kind, emitter⟩
      else .ok ⟨state, none⟩
    | .lifecycle known =>
      match transition state known with
      | none => .error ⟨state, kind, emitter⟩
      | some (source, next) =>
        if emitter ≠ source ∨ (state = none ∧ kind ≠ "run.created") then
          .error ⟨state, kind, emitter⟩
        else .ok ⟨some next, none⟩

structure Event where
  kind : String
  emitter : Emitter
  deriving DecidableEq, Repr

/-- The events of a journal from a state on, up to the first that is refused. -/
def replayFrom : Option RunState → List Event → Except ProtocolError (Option RunState)
  | state, [] => .ok state
  | state, event :: rest =>
    match reduce state event.kind event.emitter with
    | .ok reduction => replayFrom reduction.state rest
    | .error e => .error e

def replay (journal : List Event) : Except ProtocolError (Option RunState) :=
  replayFrom none journal

def isLifecycle (event : Event) : Bool := event.kind ∈ lifecycleKinds.map Lifecycle.text

/-! ## One event -/

lemma classify_text (known : Lifecycle) : classify known.text = .lifecycle known := by
  cases known <;> decide

variable {state state' : Option RunState} {journal : List Event} {event : Event}
  {seen : List Lifecycle}

lemma classify_lifecycle {kind : String} {known : Lifecycle}
    (h : classify kind = .lifecycle known) : kind = known.text := by
  unfold classify at h
  cases hfind : lifecycleKinds.find? fun known => known.text = kind with
  | some found =>
    rw [hfind] at h
    cases h
    have htext := List.find?_some hfind
    exact (of_decide_eq_true htext).symm
  | none =>
    rw [hfind] at h
    simp only at h
    split_ifs at h

lemma mem_lifecycleKinds (known : Lifecycle) : known ∈ lifecycleKinds := by
  cases known <;> decide

lemma isLifecycle_iff :
    isLifecycle event = true ↔ ∃ known, classify event.kind = .lifecycle known := by
  simp only [isLifecycle, decide_eq_true_eq, mem_map]
  constructor
  · rintro ⟨known, -, htext⟩
    exact ⟨known, by rw [← htext, classify_text]⟩
  · rintro ⟨known, hknown⟩
    exact ⟨known, mem_lifecycleKinds known, (classify_lifecycle hknown).symm⟩

lemma isLifecycle_eq_false (h : ∀ known, classify event.kind ≠ .lifecycle known) :
    isLifecycle event = false :=
  Bool.eq_false_iff.mpr fun hlife => (isLifecycle_iff.mp hlife).elim h

/-- **What an accepted event does**: one that is not of the life cycle nothing, and one that is its
    transition, from its emitter and out of a state that is not terminal. -/
lemma reduce_ok {reduction : Reduction}
    (h : reduce state event.kind event.emitter = .ok reduction) :
    (isLifecycle event = false ∧ reduction.state = state) ∨
    ∃ known next, event.kind = known.text ∧ transition state known = some (event.emitter, next) ∧
      ¬ terminal state ∧ reduction.state = some next := by
  unfold reduce at h
  by_cases hguard : terminal state ∧ event.kind ≠ "receipt.sealed" ∧
      event.kind ≠ "journal.compacted"
  · rw [if_pos hguard] at h
    cases h
  · rw [if_neg hguard] at h
    cases hkind : classify event.kind with
    | unknown =>
      rw [hkind] at h
      cases h
      left
      exact ⟨isLifecycle_eq_false (by simp [hkind]), rfl⟩
    | recorded source =>
      rw [hkind] at h
      simp only at h
      split_ifs at h
      cases h
      left
      exact ⟨isLifecycle_eq_false (by simp [hkind]), rfl⟩
    | lifecycle known =>
      right
      rw [hkind] at h
      cases hmove : transition state known with
      | none => simp [hmove] at h
      | some move =>
        obtain ⟨source, next⟩ := move
        simp only [hmove] at h
        split_ifs at h with hrefused
        cases h
        have htext := classify_lifecycle hkind
        refine ⟨known, next, htext, ?_, fun hterminal => ?_, rfl⟩
        · rw [hmove, not_not.mp fun hne => hrefused (.inl hne)]
        · refine hguard ⟨hterminal, ?_⟩
          rw [htext]
          cases known <;> decide

/-! ## Journals -/

lemma replayFrom_append {journal rest : List Event} :
    replayFrom state (journal ++ rest) =
      match replayFrom state journal with
      | .ok state' => replayFrom state' rest
      | .error e => .error e := by
  induction journal generalizing state with
  | nil => rfl
  | cons event journal ih =>
    simp only [cons_append, replayFrom]
    cases reduce state event.kind event.emitter with
    | ok reduction => exact ih
    | error e => rfl

/-- One event of an accepted journal, and the rest of it. -/
lemma replayFrom_cons (h : replayFrom state (event :: journal) = .ok state') :
    ∃ reduction, reduce state event.kind event.emitter = .ok reduction ∧
      replayFrom reduction.state journal = .ok state' := by
  rw [replayFrom] at h
  cases hreduce : reduce state event.kind event.emitter with
  | ok reduction =>
    rw [hreduce] at h
    exact ⟨reduction, rfl, h⟩
  | error e =>
    rw [hreduce] at h
    cases h

/-- **Terminal states are absorbing.** -/
lemma replayFrom_terminal (hterminal : terminal state) (h : replayFrom state journal = .ok state') :
    state' = state := by
  induction journal with
  | nil =>
    cases h
    rfl
  | cons event journal ih =>
    obtain ⟨reduction, hreduce, hrest⟩ := replayFrom_cons h
    rcases reduce_ok hreduce with ⟨-, hstate⟩ | ⟨_, _, -, -, hnot, -⟩
    · rw [hstate] at hrest
      exact ih hrest
    · exact absurd hterminal hnot

/-- **Only life cycle events count.**  Without the others the journal leads to the same state. -/
lemma replayFrom_filter (h : replayFrom state journal = .ok state') :
    replayFrom state (journal.filter isLifecycle) = .ok state' := by
  induction journal generalizing state with
  | nil => exact h
  | cons event journal ih =>
    obtain ⟨reduction, hreduce, hrest⟩ := replayFrom_cons h
    rcases reduce_ok hreduce with ⟨hnot, hstate⟩ | ⟨known, next, htext, -, -, -⟩
    · rw [filter_cons_of_neg (by simp [hnot])]
      rw [hstate] at hrest
      exact ih hrest
    · have hlife : isLifecycle event = true :=
        isLifecycle_iff.mpr ⟨known, by rw [htext, classify_text]⟩
      rw [filter_cons_of_pos hlife, replayFrom, hreduce]
      exact ih hrest

/-! ## What the state says about the past -/

/-- The life cycle events a run in this state has seen. -/
def Traced (state : Option RunState) (seen : List Lifecycle) : Prop :=
  match state with
  | none => seen = []
  | some .Proving => ∃ start, seen = .RunCreated :: start ++ [.ProofStarted]
  | some .Review => ∃ start, seen = .RunCreated :: start ++ [.ProofStarted, .ProofFinished]
  | some .Accepted =>
    ∃ start, seen = .RunCreated :: start ++ [.ProofStarted, .ProofFinished, .RunAccepted]
  | some _ => ∃ start, seen = .RunCreated :: start

/-- A run that exists was created first. -/
lemma Traced.created {state : RunState} (h : Traced (some state) seen) :
    ∃ start, seen = .RunCreated :: start := by
  cases state <;> obtain ⟨start, rfl⟩ := h <;> exact ⟨_, rfl⟩

lemma Traced.next (h : Traced state seen) {known : Lifecycle} {emitter : Emitter} {next : RunState}
    (hmove : transition state known = some (emitter, next)) :
    Traced (some next) (seen ++ [known]) := by
  cases state with
  | none =>
    cases known <;> cases hmove
    exact ⟨[], by rw [show seen = [] from h]; rfl⟩
  | some state =>
    obtain ⟨start, hstart⟩ := h.created
    -- the two transitions that need more of the past than the creation
    by_cases hproof : (state = .Proving ∧ known = .ProofFinished) ∨
        (state = .Review ∧ known = .RunAccepted)
    · rcases hproof with ⟨rfl, rfl⟩ | ⟨rfl, rfl⟩ <;> cases hmove <;>
        obtain ⟨start, rfl⟩ := h <;> exact ⟨start, by simp⟩
    · rw [hstart]
      cases state <;> cases known <;> cases hmove <;>
        first
        | exact ⟨start, rfl⟩
        | exact ⟨start ++ [_], rfl⟩
        | exact absurd (by simp) hproof

/-- The life cycle events of a journal. -/
def lifecycles (journal : List Event) : List String :=
  (journal.filter isLifecycle).map Event.kind

lemma replayFrom_traced (hseen : Traced state seen) (h : replayFrom state journal = .ok state') :
    ∃ more, lifecycles journal = more.map Lifecycle.text ∧ Traced state' (seen ++ more) := by
  induction journal generalizing state seen with
  | nil =>
    cases h
    exact ⟨[], rfl, by rwa [append_nil]⟩
  | cons event journal ih =>
    obtain ⟨reduction, hreduce, hrest⟩ := replayFrom_cons h
    rcases reduce_ok hreduce with ⟨hnot, hstate⟩ | ⟨known, next, htext, hmove, -, hstate⟩
    · rw [hstate] at hrest
      obtain ⟨more, hmore, htraced⟩ := ih hseen hrest
      exact ⟨more, by simpa [lifecycles, hnot] using hmore, htraced⟩
    · have hlife : isLifecycle event = true :=
        isLifecycle_iff.mpr ⟨known, by rw [htext, classify_text]⟩
      rw [hstate] at hrest
      obtain ⟨more, hmore, htraced⟩ := ih (hseen.next hmove) hrest
      refine ⟨known :: more, ?_, by simpa using htraced⟩
      rw [lifecycles, filter_cons_of_pos hlife, map_cons, map_cons, htext]
      exact congrArg _ hmore

/-- **Freezing is the custodian's.** -/
lemma reduce_frozen {reduction : Reduction}
    (h : reduce state event.kind event.emitter = .ok reduction) (hstate : state ≠ some .Frozen)
    (hfrozen : reduction.state = some .Frozen) : event = ⟨"run.frozen", .Custodian⟩ := by
  rcases reduce_ok h with ⟨-, heq⟩ | ⟨known, next, htext, hmove, -, heq⟩
  · exact absurd (heq.symm.trans hfrozen) hstate
  · rw [hfrozen] at heq
    cases heq
    obtain ⟨kind, emitter⟩ := event
    have hknown : known = .RunFrozen ∧ emitter = .Custodian := by
      cases state with
      | none => cases known <;> cases hmove
      | some state => cases state <;> cases known <;> cases hmove <;> exact ⟨rfl, rfl⟩
    obtain ⟨rfl, rfl⟩ := hknown
    rw [show kind = _ from htext]
    rfl

/-- **Run life cycle safety.**  In every journal that is accepted: a terminal state stays; an
    accepted run was created and its last life cycle events are the start of the proof, its end and
    the acceptance; a run is frozen only by the custodian's event; and the events that are not of
    the life cycle can be left out. -/
theorem run_lifecycle_safe :
    (∀ journal rest state state', replay journal = .ok state → terminal state →
      replay (journal ++ rest) = .ok state' → state' = state) ∧
    (∀ journal, replay journal = .ok (some .Accepted) → ∃ start, lifecycles journal =
      "run.created" :: start ++ ["proof.started", "proof.finished", "run.accepted"]) ∧
    (∀ journal event state, replay journal = .ok state → state ≠ some .Frozen →
      replay (journal ++ [event]) = .ok (some .Frozen) → event = ⟨"run.frozen", .Custodian⟩) ∧
    (∀ journal state, replay journal = .ok state →
      replay (journal.filter isLifecycle) = .ok state) := by
  refine ⟨fun journal rest state state' h hterminal hrest => ?_, fun journal h => ?_,
    fun journal event state h hstate hevent => ?_, fun journal state h => replayFrom_filter h⟩
  · rw [replay, replayFrom_append, show replayFrom none journal = _ from h] at hrest
    exact replayFrom_terminal hterminal hrest
  · obtain ⟨more, hmore, start, hstart⟩ := replayFrom_traced (show Traced none [] from rfl) h
    rw [nil_append] at hstart
    refine ⟨start.map Lifecycle.text, ?_⟩
    rw [hmore, hstart]
    simp [Lifecycle.text]
  · rw [replay, replayFrom_append, show replayFrom none journal = _ from h] at hevent
    obtain ⟨reduction, hreduce, hend⟩ := replayFrom_cons hevent
    exact reduce_frozen hreduce hstate (Except.ok.inj hend)

/-- A run that is proved and accepted, with an unknown event on the way. -/
def acceptedJournal : List Event :=
  [⟨"run.created", .Supervisor⟩, ⟨"sandbox.ready", .Custodian⟩, ⟨"effect.billed", .Broker⟩,
    ⟨"proof.started", .Supervisor⟩, ⟨"proof.finished", .Supervisor⟩, ⟨"run.accepted", .Supervisor⟩]

theorem run_lifecycle_safe_accepted :
    replay acceptedJournal = .ok (some .Accepted) ∧
    (∃ start, lifecycles acceptedJournal =
      "run.created" :: start ++ ["proof.started", "proof.finished", "run.accepted"]) ∧
    replay (acceptedJournal.filter isLifecycle) = .ok (some .Accepted) := by
  have h : replay acceptedJournal = .ok (some .Accepted) := by decide +kernel
  exact ⟨h, run_lifecycle_safe.2.1 _ h, run_lifecycle_safe.2.2.2 _ _ h⟩

end Rauha.Run
