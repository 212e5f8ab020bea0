import Rauha.Library.Transition

/-!
# One shim for a zone

A creation of a container looks for a shim on the socket of the zone and, if none answers, removes
the socket, spawns a shim and waits for its socket to appear.  Creations in one zone share a lock,
so their steps interleave with each other and with those of the shims, which remove the socket as
well before they bind their own.

* `Creator`, `ShimProcess`: how far a creation and a shim have come;
* `step`: one step of either; a probe may go unanswered because the shim is busy;
* `one_shim_per_zone`: all is well as long as a probe is answered unless there is no shim at all and
  nobody else is about to spawn one.
-/

namespace Rauha.Spawning

open Transition Function

/-- The points of `ensure_shim`, and the request that follows it. -/
inductive Pc where
  | Probe
  | RemoveStale
  | Spawn
  | Wait
  | Create
  deriving DecidableEq, Repr

structure Creator where
  container : String
  pc : Pc
  deriving DecidableEq, Repr

inductive Phase where
  | Starting
  | Binding
  | Listening
  deriving DecidableEq, Repr

/-- A live shim, and the containers it tracks. -/
structure ShimProcess where
  phase : Phase
  containers : List String
  deriving DecidableEq, Repr

/-- **A zone**: its live shims by number, the shim that the socket leads to, dead or alive, the
    creations under way, and the containers whose creation has returned. -/
structure World where
  shims : ℕ → Option ShimProcess
  spawned : ℕ
  socket : Option ℕ
  creators : ℕ → Option Creator
  created : List String

/-- What comes of the call that a creation stands before. -/
inductive Input where
  | Pass
  | Fail
  /-- The shim has carried out the request, but its answer does not arrive. -/
  | Lost
  deriving DecidableEq, Repr

inductive Event where
  | Call (k : ℕ) (container : String)
  | Creator (k : ℕ) (input : Input)
  | Shim (n : ℕ)
  deriving DecidableEq, Repr

namespace World

variable (w : World)

/-- The shim that answers on the socket. -/
def answering : Option (ℕ × ShimProcess) :=
  w.socket.bind fun n => (w.shims n).bind fun p =>
    if p.phase = .Listening then some (n, p) else none

def goto (k : ℕ) (creator : Creator) (pc : Pc) : World :=
  { w with creators := Function.update w.creators k (some { creator with pc := pc }) }

def exit (k : ℕ) : World := { w with creators := Function.update w.creators k none }

def setShim (n : ℕ) (p : Option ShimProcess) : World :=
  { w with shims := Function.update w.shims n p }

/-- A creation goes on.  Waiting ends when the socket is there, whoever made it, or with a
    timeout. -/
def stepCreator (k : ℕ) (creator : Creator) (input : Input) : World :=
  match creator.pc with
  | .Probe =>
    if w.answering.isSome ∧ input = .Pass then w.goto k creator .Create
    else w.goto k creator .RemoveStale
  | .RemoveStale => { w with socket := none }.goto k creator .Spawn
  | .Spawn =>
    if input = .Pass then
      ({ w with spawned := w.spawned + 1 }.setShim w.spawned (some ⟨.Starting, []⟩)).goto k
        creator .Wait
    else w.exit k
  | .Wait =>
    if w.socket.isSome then w.goto k creator .Create
    else if input = .Pass then w else w.exit k
  | .Create =>
    match w.answering, input with
    | none, _ => w.exit k
    | some _, .Fail => w.exit k
    | some (n, p), .Lost =>
      (w.setShim n (some { p with containers := creator.container :: p.containers })).exit k
    | some (n, p), .Pass =>
      ({ w with created := creator.container :: w.created }.setShim n
        (some { p with containers := creator.container :: p.containers })).exit k

/-- A shim comes up.  It cannot bind a socket that is there, and gives up. -/
def stepShim (n : ℕ) (p : ShimProcess) : World :=
  match p.phase with
  | .Starting => { w with socket := none }.setShim n (some { p with phase := .Binding })
  | .Binding =>
    if w.socket.isSome then w.setShim n none
    else { w with socket := some n }.setShim n (some { p with phase := .Listening })
  | .Listening => w

/-- **One step.** -/
def step : Event → World
  | .Call k container =>
    match w.creators k with
    | some _ => w
    | none =>
      { w with creators := Function.update w.creators k (some ⟨container, .Probe⟩) }
  | .Creator k input =>
    match w.creators k with
    | some creator => w.stepCreator k creator input
    | none => w
  | .Shim n =>
    match w.shims n with
    | some p => w.stepShim n p
    | none => w

/-- A creation that has found no shim and has not spawned one yet. -/
def spawning (k : ℕ) : Prop :=
  ∃ creator, w.creators k = some creator ∧ (creator.pc = .RemoveStale ∨ creator.pc = .Spawn)

/-- **A probe is answered**, unless there is no live shim and no other creation is about to spawn
    one. -/
def Orderly : Event → Prop
  | .Creator k input => (w.creators k).map Creator.pc = some .Probe →
      (w.answering.isSome ∧ input = .Pass) ∨ (∀ n, w.shims n = none) ∧ ∀ j, ¬ w.spawning j
  | _ => True

/-- **One shim**: at most one is alive, one that tracks containers has the socket, and what has been
    created is known to the shim on the socket. -/
structure OneShim : Prop where
  unique : ∀ m n p q, w.shims m = some p → w.shims n = some q → m = n
  reachable : ∀ n p, w.shims n = some p → p.containers ≠ [] → w.answering = some (n, p)
  known : ∀ container ∈ w.created, ∃ n p, w.answering = some (n, p) ∧ container ∈ p.containers

/-- A table of at most one shim. -/
def only (one : Option (ℕ × ShimProcess)) (n : ℕ) : Option ShimProcess :=
  one.bind fun x => if n = x.1 then some x.2 else none

/-- **Before the first call**: there is a shim with its containers, or none, and then perhaps a
    socket that a shim has left. -/
def start (running : Option (List String)) (stale : Bool) : World where
  shims := only (running.map fun containers => (0, ⟨.Listening, containers⟩))
  spawned := 1
  socket := if running.isSome || stale then some 0 else none
  creators _ := none
  created := running.getD []

/-! ## The invariant -/

variable {n : ℕ} {p : ShimProcess}

lemma only_eq_some {one : Option (ℕ × ShimProcess)} : only one n = some p ↔ one = some (n, p) := by
  rcases one with _ | ⟨m, q⟩
  · simp [only]
  · simp [only, Prod.ext_iff, eq_comm]

lemma update_only_none (n : ℕ) (p : ShimProcess) :
    update (only none) n (some p) = only (some (n, p)) := by
  funext m
  simp [only, update_apply]

lemma update_only_some (n : ℕ) (p : ShimProcess) (q : Option ShimProcess) :
    update (only (some (n, p))) n q = only (q.map (n, ·)) := by
  funext m
  cases q <;> by_cases hm : m = n <;> simp [only, hm]

variable (one : Option (ℕ × ShimProcess))

/-- **What holds between the steps of an orderly run**, with the one shim there can be. -/
structure Inv : Prop where
  shims : w.shims = only one
  fresh : ∀ n p, one = some (n, p) → n < w.spawned
  listening : ∀ n p, one = some (n, p) → p.phase = .Listening → w.socket = some n
  young : ∀ n p, one = some (n, p) → p.phase ≠ .Listening → p.containers = [] ∧ w.created = []
  alone : ∀ k, w.spawning k → one = none
  single : ∀ j k, w.spawning j → w.spawning k → j = k
  known : ∀ container ∈ w.created, ∃ n p, one = some (n, p) ∧ container ∈ p.containers

variable {w one}

lemma answering_eq_some :
    w.answering = some (n, p) ↔ w.socket = some n ∧ w.shims n = some p ∧ p.phase = .Listening := by
  unfold answering
  cases hsocket : w.socket with
  | none => simp
  | some m =>
    cases hshim : w.shims m with
    | none =>
      simp only [Option.bind_some, hshim, Option.bind_none, reduceCtorEq, Option.some.injEq,
        false_iff, not_and]
      rintro rfl
      simp [hshim]
    | some q =>
      simp only [Option.bind_some, hshim, Option.some.injEq, Option.ite_none_right_eq_some,
        Prod.mk.injEq]
      constructor
      · rintro ⟨hphase, rfl, rfl⟩
        exact ⟨rfl, hshim, hphase⟩
      · rintro ⟨rfl, hq, hphase⟩
        rw [hshim, Option.some.injEq] at hq
        exact ⟨hq ▸ hphase, rfl, hq⟩

lemma start_inv (running : Option (List String)) (stale : Bool) :
    (start running stale).Inv (running.map fun containers => (0, ⟨.Listening, containers⟩)) := by
  have hquiet : ∀ k, ¬ (start running stale).spawning k := by
    rintro k ⟨creator, hk, -⟩
    cases hk
  cases running with
  | none =>
    exact ⟨rfl, nofun, nofun, nofun, fun _ _ => rfl, fun j _ hj => absurd hj (hquiet j), nofun⟩
  | some containers =>
    refine ⟨rfl, ?_, ?_, ?_, fun k hk => absurd hk (hquiet k),
      fun j _ hj => absurd hj (hquiet j), fun c hc => ⟨0, _, rfl, hc⟩⟩
    · rintro _ _ ⟨rfl⟩
      exact Nat.zero_lt_one
    · rintro _ _ ⟨rfl⟩ -
      rfl
    · rintro _ _ ⟨rfl⟩ hne
      exact absurd rfl hne

lemma Inv.answering (h : w.Inv one) (hone : one = some (n, p)) (hphase : p.phase = .Listening) :
    w.answering = some (n, p) :=
  answering_eq_some.mpr ⟨h.listening n p hone hphase,
    by rw [h.shims]; exact only_eq_some.mpr hone, hphase⟩

lemma Inv.oneShim (h : w.Inv one) : w.OneShim where
  unique m n p q hp hq := by
    rw [h.shims, only_eq_some] at hp hq
    rw [hp] at hq
    cases hq
    rfl
  reachable n p hp hne := by
    rw [h.shims, only_eq_some] at hp
    refine h.answering hp ?_
    by_contra hphase
    exact hne (h.young n p hp hphase).1
  known container hmem := by
    obtain ⟨n, p, hone, hcontainer⟩ := h.known container hmem
    refine ⟨n, p, h.answering hone ?_, hcontainer⟩
    by_contra hphase
    simp [(h.young n p hone hphase).2] at hmem

/-! ## Steps -/

variable {k : ℕ}

/-- Only the creation that takes the step can start spawning, and only if nobody else is. -/
lemma Inv.creators (h : w.Inv one) {c : Option Creator}
    (hk : (∀ creator, c = some creator → creator.pc ≠ .RemoveStale ∧ creator.pc ≠ .Spawn) ∨
      one = none ∧ ∀ j, j ≠ k → ¬ w.spawning j) :
    Inv { w with creators := update w.creators k c } one := by
  have hold : ∀ j, spawning { w with creators := update w.creators k c } j →
      j = k ∧ one = none ∧ (∀ j, j ≠ k → ¬ w.spawning j) ∨ j ≠ k ∧ w.spawning j := by
    rintro j ⟨creator, hj, hpc⟩
    by_cases hjk : j = k
    · subst hjk
      simp only [update_self] at hj
      exact .inl ⟨rfl, hk.resolve_left fun hnot => absurd hpc (not_or.mpr (hnot creator hj))⟩
    · simp only [update_of_ne hjk] at hj
      exact .inr ⟨hjk, creator, hj, hpc⟩
  refine ⟨h.shims, h.fresh, h.listening, h.young, fun j hj => ?_, fun i j hi hj => ?_, h.known⟩
  · rcases hold j hj with ⟨-, hnone, -⟩ | ⟨-, hspawning⟩
    · exact hnone
    · exact h.alone j hspawning
  · rcases hold i hi with ⟨rfl, -, hothers⟩ | ⟨hne, hi'⟩ <;>
      rcases hold j hj with ⟨hjk, -, hothers'⟩ | ⟨hne', hj'⟩
    · exact hjk.symm
    · exact absurd hj' (hothers j hne')
    · exact absurd hi' (hothers' i hne)
    · exact h.single i j hi' hj'

/-- A shim that answers takes up one more container. -/
lemma Inv.track (h : w.Inv one) (hp : w.answering = some (n, p)) (container : String)
    (created : List String) (hcreated : ∀ c ∈ created, c = container ∨ c ∈ w.created) :
    Inv { w.setShim n (some { p with containers := container :: p.containers }) with
      created := created } (some (n, { p with containers := container :: p.containers })) := by
  obtain ⟨hsocket, hshim, hphase⟩ := answering_eq_some.mp hp
  rw [h.shims, only_eq_some] at hshim
  subst hshim
  refine ⟨?_, ?_, ?_, ?_, fun k hk => ?_, h.single, fun c hc => ⟨n, _, rfl, ?_⟩⟩
  · simp only [setShim, h.shims, update_only_some, Option.map_some]
  · rintro _ _ ⟨rfl⟩
    exact h.fresh n p rfl
  · rintro _ _ ⟨rfl⟩ -
    exact hsocket
  · rintro _ _ ⟨rfl⟩ hne
    exact absurd hphase hne
  · cases h.alone k hk
  · rcases hcreated c hc with rfl | hc
    · exact List.mem_cons_self
    · obtain ⟨_, _, ⟨rfl⟩, hmem⟩ := h.known c hc
      exact List.mem_cons_of_mem _ hmem

lemma Inv.stepCreator (h : w.Inv one) {creator : Creator} {input : Input}
    (hk : w.creators k = some creator) (horderly : w.Orderly (.Creator k input)) :
    ∃ one, (w.stepCreator k creator input).Inv one := by
  have hspawning : creator.pc = .RemoveStale ∨ creator.pc = .Spawn →
      one = none ∧ ∀ j, j ≠ k → ¬ w.spawning j := fun hpc =>
    ⟨h.alone k ⟨creator, hk, hpc⟩, fun j hjk hj => hjk (h.single j k hj ⟨creator, hk, hpc⟩)⟩
  unfold World.stepCreator
  cases hpc : creator.pc with
  | Probe =>
    simp only
    split_ifs with hanswered
    · exact ⟨one, h.creators (.inl (by rintro _ ⟨rfl⟩; simp))⟩
    · obtain ⟨hnone, hothers⟩ := (horderly (by rw [hk, ← hpc]; rfl)).resolve_left hanswered
      refine ⟨one, h.creators (.inr ⟨?_, fun j _ => hothers j⟩)⟩
      by_contra hsome
      obtain ⟨⟨n, p⟩, hone⟩ := Option.ne_none_iff_exists'.mp hsome
      have hshim := only_eq_some.mpr hone
      rw [← h.shims, hnone n] at hshim
      cases hshim
  | RemoveStale =>
    obtain ⟨rfl, hothers⟩ := hspawning (.inl hpc)
    exact ⟨none, .creators (w := { w with socket := none })
      ⟨h.shims, h.fresh, nofun, h.young, h.alone, h.single, h.known⟩ (.inr ⟨rfl, hothers⟩)⟩
  | Spawn =>
    obtain ⟨rfl, hothers⟩ := hspawning (.inr hpc)
    have hnil : w.created = [] := List.eq_nil_iff_forall_not_mem.mpr fun c hc => by
      obtain ⟨_, _, hone, -⟩ := h.known c hc
      cases hone
    have hnobody : ∀ j, ¬ spawning (({ w with spawned := w.spawned + 1 }.setShim w.spawned
        (some ⟨.Starting, []⟩)).goto k creator .Wait) j := by
      rintro j ⟨other, hj, hotherpc⟩
      by_cases hjk : j = k
      · subst hjk
        simp only [goto, update_self, Option.some.injEq] at hj
        subst hj
        simp at hotherpc
      · simp only [goto, update_of_ne hjk] at hj
        exact hothers j hjk ⟨other, hj, hotherpc⟩
    simp only
    split_ifs
    · refine ⟨some (w.spawned, ⟨.Starting, []⟩), ?_, ?_, ?_, ?_,
        fun j hj => absurd hj (hnobody j), fun j _ hj => absurd hj (hnobody j), fun c hc => ?_⟩
      · simp only [goto, setShim, h.shims, update_only_none]
      · rintro _ _ ⟨rfl⟩
        exact Nat.lt_succ_self _
      · rintro _ _ ⟨rfl⟩ hphase
        cases hphase
      · rintro _ _ ⟨rfl⟩ -
        exact ⟨rfl, hnil⟩
      · simp [goto, setShim, hnil] at hc
    · exact ⟨none, h.creators (.inl nofun)⟩
  | Wait =>
    simp only
    split_ifs
    · exact ⟨one, h.creators (.inl (by rintro _ ⟨rfl⟩; simp))⟩
    · exact ⟨one, h⟩
    · exact ⟨one, h.creators (.inl nofun)⟩
  | Create =>
    simp only
    split
    · exact ⟨one, h.creators (.inl nofun)⟩
    · exact ⟨one, h.creators (.inl nofun)⟩
    · rename_i n p hanswering
      exact ⟨_, (h.track hanswering creator.container w.created fun c hc => .inr hc).creators
        (.inl nofun)⟩
    · rename_i n p hanswering
      exact ⟨_, (h.track hanswering creator.container _ fun c hc =>
        List.mem_cons.mp hc).creators (.inl nofun)⟩

/-- A shim comes up; it listens once it has the socket. -/
lemma Inv.comesUp (h : w.Inv (some (n, p))) (hyoung : p.phase ≠ .Listening) {phase : Phase}
    {socket : Option ℕ} (hsocket : phase = .Listening → socket = some n) :
    Inv ({ w with socket := socket }.setShim n (some { p with phase := phase }))
      (some (n, { p with phase := phase })) := by
  obtain ⟨hcontainers, hnil⟩ := h.young n p rfl hyoung
  refine ⟨?_, ?_, ?_, ?_, fun k hk => ?_, h.single, fun c hc => ?_⟩
  · simp only [setShim, h.shims, update_only_some, Option.map_some]
  · rintro _ _ ⟨rfl⟩
    exact h.fresh n p rfl
  · rintro _ _ ⟨rfl⟩
    exact hsocket
  · rintro _ _ ⟨rfl⟩ -
    exact ⟨hcontainers, hnil⟩
  · cases h.alone k hk
  · simp [setShim, hnil] at hc

lemma Inv.stepShim (h : w.Inv (some (n, p))) : ∃ one, (w.stepShim n p).Inv one := by
  unfold World.stepShim
  cases hphase : p.phase with
  | Starting => exact ⟨_, h.comesUp (by simp [hphase]) nofun⟩
  | Binding =>
    obtain ⟨hcontainers, hnil⟩ := h.young n p rfl (by simp [hphase])
    simp only
    split_ifs with hsocket
    · refine ⟨none, ?_, nofun, nofun, nofun, fun _ _ => rfl, h.single, fun c hc => ?_⟩
      · simp only [setShim, h.shims, update_only_some, Option.map_none]
      · simp [setShim, hnil] at hc
    · exact ⟨_, h.comesUp (by simp [hphase]) fun _ => rfl⟩
  | Listening => exact ⟨_, h⟩

/-- **One step** of an orderly run. -/
lemma Inv.step (h : w.Inv one) {e : Event} (horderly : w.Orderly e) :
    ∃ one, (w.step e).Inv one := by
  cases e with
  | Call k container =>
    simp only [World.step]
    split
    · exact ⟨one, h⟩
    · exact ⟨one, h.creators (.inl (by rintro _ ⟨rfl⟩; simp))⟩
  | Creator k input =>
    simp only [World.step]
    split
    · rename_i creator hk
      exact h.stepCreator hk horderly
    · exact ⟨one, h⟩
  | Shim n =>
    simp only [World.step]
    split
    · rename_i p hp
      rw [h.shims, only_eq_some] at hp
      subst hp
      exact h.stepShim
    · exact ⟨one, h⟩

end World

/-- **One shim for a zone.**  Whatever creations are called for and however their steps interleave
    with those of the shims: if every probe is answered, unless there is no live shim and no other
    creation is about to spawn one, then at most one shim is alive, it is never cut off from its
    socket while it tracks containers, and it knows every container that has been created. -/
theorem one_shim_per_zone (running : Option (List String)) (stale : Bool) (es : List Event)
    (horderly : Meets .step World.Orderly (.start running stale) es) :
    (run World.step (World.start running stale) es).OneShim := by
  obtain ⟨one, h⟩ := Meets.invariant (I := fun w => ∃ one, w.Inv one)
    (fun _ _ ⟨_, h⟩ horderly => h.step horderly) ⟨_, World.start_inv running stale⟩ horderly
  exact h.oneShim

/-- A creation that finds a socket nobody listens on. -/
def firstCreation : List Event :=
  [.Call 0 "a", .Creator 0 .Pass, .Creator 0 .Pass, .Creator 0 .Pass, .Shim 1, .Shim 1,
    .Creator 0 .Pass, .Creator 0 .Pass]

theorem one_shim_first_creation :
    (run World.step (World.start none true) firstCreation).created = ["a"] ∧
      (run World.step (World.start none true) firstCreation).OneShim := by
  refine ⟨rfl, one_shim_per_zone none true firstCreation ⟨trivial, fun _ => .inr ⟨fun _ => rfl, ?_⟩,
    nofun, nofun, trivial, trivial, nofun, nofun, trivial⟩⟩
  rintro j ⟨creator, hj, hpc⟩
  by_cases hj0 : j = 0
  · subst hj0
    cases hj
    simp at hpc
  · simp [World.step, World.start, hj0] at hj

/-- Two creations that both find no shim. -/
def racingCreations : List Event :=
  [.Call 0 "a", .Call 1 "b", .Creator 0 .Pass, .Creator 1 .Pass, .Creator 0 .Pass, .Creator 0 .Pass,
    .Shim 1, .Shim 1, .Creator 0 .Pass, .Creator 0 .Pass, .Creator 1 .Pass, .Creator 1 .Pass,
    .Shim 2, .Shim 2, .Creator 1 .Pass, .Creator 1 .Pass]

/-- **The second creation removes the socket of the first one's shim** and spawns another: both live
    on, and the container that was created first is out of reach. -/
theorem two_shims_race :
    (run World.step (World.start none false) racingCreations).created = ["b", "a"] ∧
      (run World.step (World.start none false) racingCreations).shims 1 =
        some ⟨.Listening, ["a"]⟩ ∧
      (run World.step (World.start none false) racingCreations).answering =
        some (2, ⟨.Listening, ["b"]⟩) ∧
      ¬ (run World.step (World.start none false) racingCreations).OneShim := by
  refine ⟨rfl, rfl, rfl, fun h => ?_⟩
  cases h.unique 1 2 _ _ rfl rfl

end Rauha.Spawning
