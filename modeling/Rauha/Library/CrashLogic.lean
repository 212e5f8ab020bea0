import Mathlib.Tactic

/-!
# Programs whose calls can fail or be cut short

A small program logic for code that talks to an unreliable environment.  A program is a state
transformer that consults a **plan**: one `Fate` per call it makes, saying whether the call goes
through, reports an error part of the way, or is where the machine stops.  Quantifying over plans
therefore quantifies over every point at which the code can fail or be killed.

* `Prog`: the programs, a monad, so that code with early returns is written in `do` notation;
* `Prog.call`: the one primitive that consults the plan, with its two common forms `Prog.query`
  (a call that only looks) and `Prog.atomic` (all of its effect or none);
* `Prog.judged`: a call whose verdict is given by name, for code whose failing step matters;
  `Prog.attempt`, `Prog.ignore` and `Prog.mapError` for code that handles errors;
* `Triple`: a Hoare triple with three postconditions, for a normal return, an error return and
  a cut.  The rules ending in `_at` start from one given state; with `Triple.bind_at` a proof
  about a program applies them in the order of its statements;
* `Prog.writeFile`: a write of a whole file that may be refused or break off;
* `Respects`: two runs from related states, for what a program does not read;
* `Runs`: what a program does when no call is disturbed, with the same rules read forwards.
-/

namespace CrashLogic

/-- What a sequence has returned comes from what its first part returned. -/
lemma ok_of_bind {ε α β : Type} {x : Except ε α} {f : α → Except ε β} {b : β}
    (h : x >>= f = .ok b) : ∃ a, x = .ok a ∧ f a = .ok b := by
  cases x with
  | error e => cases h
  | ok a => exact ⟨a, rfl, h⟩

/-- What the environment does with one call.  The number says how much of the call's effect has
    taken place when it fails or the machine stops. -/
inductive Fate where
  | pass
  | fail (n : ℕ)
  | stop (n : ℕ)
  deriving Repr, DecidableEq

/-- How a program ended: with a value, with an error, or not at all. -/
inductive Outcome (ε α : Type) where
  | done (a : α)
  | failed (e : ε)
  | stopped
  deriving Repr, DecidableEq

/-- What becomes of one particular call, where that is given by name and not by a plan: it goes
    through, reports an error, or the machine stops before it. -/
inductive Verdict where
  | ok
  | err
  | cut
  deriving Repr, DecidableEq

/-- **Programs** over a state `σ`, with errors `ε` and results `α`.  A plan that has run out lets
    every further call pass. -/
def Prog (σ ε α : Type) : Type :=
  List Fate → σ → Outcome ε α × List Fate × σ

variable {σ ε α β : Type}

namespace Prog

def ret (a : α) : Prog σ ε α := fun plan s => (.done a, plan, s)

def andThen (c : Prog σ ε α) (f : α → Prog σ ε β) : Prog σ ε β := fun plan s =>
  match c plan s with
  | (.done a, plan', s') => f a plan' s'
  | (.failed e, plan', s') => (.failed e, plan', s')
  | (.stopped, plan', s') => (.stopped, plan', s')

instance : Monad (Prog σ ε) where
  pure := ret
  bind := andThen

/-- Return with an error. -/
def raise (e : ε) : Prog σ ε α := fun plan s => (.failed e, plan, s)

/-- An early return: with the error if the condition holds, and otherwise on. -/
def failIf (p : Prop) [Decidable p] (e : ε) : Prog σ ε Unit := if p then raise e else ret ()

/-- Read the state. -/
def getState : Prog σ ε σ := fun plan s => (.done s, plan, s)

/-- Update memory; nothing outside the program is involved, so this step has no fate. -/
def update (f : σ → σ) : Prog σ ε Unit := fun plan s => (.done (), plan, f s)

/-- The result of a computation that involves nothing outside the program. -/
def ofExcept : Except ε α → Prog σ ε α
  | .ok a => ret a
  | .error e => raise e

/-- **A call to the environment.**  `act` is what it does when it goes through (which may be an
    orderly refusal), `part n` the state when it is disturbed after `n` units of its effect, and
    `e` the error then reported. -/
def call (act : σ → Except ε α × σ) (part : ℕ → σ → σ) (e : ε) : Prog σ ε α := fun plan s =>
  match plan with
  | .fail n :: plan' => (.failed e, plan', part n s)
  | .stop n :: plan' => (.stopped, plan', part n s)
  | .pass :: plan' =>
    match act s with
    | (.ok a, s') => (.done a, plan', s')
    | (.error e', s') => (.failed e', plan', s')
  | [] =>
    match act s with
    | (.ok a, s') => (.done a, [], s')
    | (.error e', s') => (.failed e', [], s')

/-- A call that only looks; disturbed, it has done nothing. -/
def query (f : σ → Except ε α) (e : ε) : Prog σ ε α := call (fun s => (f s, s)) (fun _ s => s) e

/-- The state after an update that may be refused. -/
def settle (s : σ) : Except ε (α × σ) → σ
  | .ok (_, s') => s'
  | .error _ => s

/-- A call that takes effect as a whole or not at all. -/
def atomic (f : σ → Except ε (α × σ)) (e : ε) : Prog σ ε α :=
  call (fun s => ((f s).map Prod.fst, settle s (f s)))
    (fun n s => if n = 0 then s else settle s (f s)) e

/-- A call whose verdict is known: `f` is its effect, and it has none unless it goes through. -/
def judged (v : Verdict) (e : ε) (f : σ → σ) : Prog σ ε Unit := fun plan s =>
  match v with
  | .ok => (.done (), plan, f s)
  | .err => (.failed e, plan, s)
  | .cut => (.stopped, plan, s)

/-- Hand an error over as a value; a cut stays one. -/
def attempt {ε' : Type} (c : Prog σ ε α) : Prog σ ε' (Except ε α) := fun plan s =>
  match c plan s with
  | (.done a, plan', s') => (.done (.ok a), plan', s')
  | (.failed e, plan', s') => (.done (.error e), plan', s')
  | (.stopped, plan', s') => (.stopped, plan', s')

/-- Run a program for its effect, whether it fails or not. -/
def ignore {ε' : Type} (c : Prog σ ε α) : Prog σ ε' Unit := attempt c >>= fun _ => ret ()

def mapError {ε' : Type} (g : ε → ε') (c : Prog σ ε α) : Prog σ ε' α := fun plan s =>
  match c plan s with
  | (.done a, plan', s') => (.done a, plan', s')
  | (.failed e, plan', s') => (.failed (g e), plan', s')
  | (.stopped, plan', s') => (.stopped, plan', s')

/-- A program over a part of the state. -/
def zoom {τ : Type} (get : σ → τ) (set : σ → τ → σ) (c : Prog τ ε α) : Prog σ ε α := fun plan s =>
  match c plan (get s) with
  | (o, plan', t) => (o, plan', set s t)

lemma mapError_eq_ok {ε' : Type} {x : Except ε α} {g : ε → ε'} {a : α} :
    x.mapError g = .ok a ↔ x = .ok a := by
  cases x <;> simp [Except.mapError]

lemma bind_assoc {γ : Type} (c : Prog σ ε α) (f : α → Prog σ ε β) (g : β → Prog σ ε γ) :
    (c >>= f >>= g) = c >>= fun a => f a >>= g := by
  funext plan s
  show andThen (andThen c f) g plan s = andThen c (fun a => andThen (f a) g) plan s
  unfold andThen
  rcases c plan s with ⟨o, plan', s'⟩
  cases o <;> rfl

end Prog

/-! ## Triples -/

/-- **The triple.**  From a state in `P`, under every plan, `c` ends in `Q a` when it returns `a`,
    in `E e` when it returns the error `e`, and in `C` when it is cut. -/
def Triple (P : σ → Prop) (c : Prog σ ε α) (Q : α → σ → Prop) (E : ε → σ → Prop)
    (C : σ → Prop) : Prop :=
  ∀ plan s, P s →
    match c plan s with
    | (.done a, _, s') => Q a s'
    | (.failed e, _, s') => E e s'
    | (.stopped, _, s') => C s'

/-- **One promise for every other end**: `c` returns in `Q`, or leaves `S`, failed or cut. -/
abbrev Attempts (P : σ → Prop) (c : Prog σ ε α) (Q : α → σ → Prop) (S : σ → Prop) : Prop :=
  Triple P c Q (fun _ => S) S

/-- One promise for every end. -/
abbrev Ends (P : σ → Prop) (c : Prog σ ε α) (S : σ → Prop) : Prop := Attempts P c (fun _ => S) S

variable {s : σ} {e : ε} {c : Prog σ ε α} {a : α} {f : σ → σ} {x : Except ε α} {p : Prop}

variable {R : Unit → σ → Prop} {act : σ → Except ε α × σ} {part : ℕ → σ → σ} {v : Verdict}

namespace Triple

variable {P : σ → Prop} {Q Q' : α → σ → Prop} {E E' : ε → σ → Prop} {C C' : σ → Prop}

lemma pure (h : ∀ s, P s → Q a s) : Triple P (Pure.pure a : Prog σ ε α) Q E C :=
  fun _ s hs => h s hs

lemma raise (h : ∀ s, P s → E e s) : Triple P (.raise e : Prog σ ε α) Q E C := fun _ s hs => h s hs

lemma update (h : ∀ s, P s → R () (f s)) : Triple P (.update f : Prog σ ε Unit) R E C :=
  fun _ s hs => h s hs

lemma getState {R : σ → σ → Prop} (h : ∀ s, P s → R s s) :
    Triple P (.getState : Prog σ ε σ) R E C :=
  fun _ s hs => h s hs

lemma ofExcept (hok : ∀ a s, x = .ok a → P s → Q a s) (herr : ∀ e s, x = .error e → P s → E e s) :
    Triple P (.ofExcept x) Q E C := by
  cases x with
  | ok a => exact pure fun s hs => hok a s rfl hs
  | error e => exact raise fun s hs => herr e s rfl hs

/-- **Sequencing.**  An error or a cut of the first program is one of the whole. -/
lemma bind {f : α → Prog σ ε β} {R : β → σ → Prop} (hc : Triple P c Q E C)
    (hf : ∀ a, Triple (Q a) (f a) R E C) : Triple P (c >>= f) R E C := by
  intro plan s hs
  have h := hc plan s hs
  show match Prog.andThen c f plan s with
    | (.done a, _, s') => R a s'
    | (.failed e, _, s') => E e s'
    | (.stopped, _, s') => C s'
  unfold Prog.andThen
  rcases hrun : c plan s with ⟨o, plan', s'⟩
  rw [hrun] at h
  cases o with
  | done a => exact hf a plan' s' h
  | failed e => exact h
  | stopped => exact h

lemma conseq (hc : Triple P c Q' E' C') (hQ : ∀ a s, Q' a s → Q a s)
    (hE : ∀ e s, E' e s → E e s) (hC : ∀ s, C' s → C s) : Triple P c Q E C := by
  intro plan s hs
  have h := hc plan s hs
  rcases hrun : c plan s with ⟨o, plan', s'⟩
  rw [hrun] at h
  cases o with
  | done a => exact hQ a s' h
  | failed e => exact hE e s' h
  | stopped => exact hC s' h

lemma post (hc : Triple P c Q' E C) (hQ : ∀ a s, Q' a s → Q a s) : Triple P c Q E C :=
  hc.conseq hQ (fun _ _ h => h) fun _ h => h

lemma weaken (hc : Attempts P c Q' C') (hQ : ∀ a s, Q' a s → Q a s) (hC : ∀ s, C' s → C s) :
    Attempts P c Q C :=
  hc.conseq hQ (fun _ => hC) hC

lemma of_attempts (hc : Attempts P c Q C) (hE : ∀ e s, C s → E e s) : Triple P c Q E C :=
  hc.conseq (fun _ _ h => h) hE fun _ h => h

/-- What two triples say about one program. -/
lemma and (h : Triple P c Q E C) (h' : Triple P c Q' E' C') :
    Triple P c (fun a s => Q a s ∧ Q' a s) (fun e s => E e s ∧ E' e s) (fun s => C s ∧ C' s) := by
  intro plan s hs
  have hrun := h plan s hs
  have hrun' := h' plan s hs
  rcases hc : c plan s with ⟨o, plan', s'⟩
  rw [hc] at hrun hrun'
  cases o <;> exact ⟨hrun, hrun'⟩

/-- **The rule for calls**: what it does when it goes through, and what every disturbed prefix
    of its effect leaves behind. -/
lemma call (hact : ∀ s, P s → match act s with
      | (.ok a, s') => Q a s'
      | (.error e', s') => E e' s') (hfail : ∀ n s, P s → E e (part n s))
    (hstop : ∀ n s, P s → C (part n s)) : Triple P (.call act part e) Q E C := by
  intro plan s hs
  have h := hact s hs
  unfold Prog.call
  cases plan with
  | nil =>
    simp only
    rcases hrun : act s with ⟨r, s'⟩
    rw [hrun] at h
    cases r <;> exact h
  | cons fate plan' =>
    cases fate with
    | pass =>
      simp only
      rcases hrun : act s with ⟨r, s'⟩
      rw [hrun] at h
      cases r <;> exact h
    | fail n => exact hfail n s hs
    | stop n => exact hstop n s hs

/-- It is enough to look at one starting state at a time. -/
lemma of_forall (h : ∀ s, P s → Triple (· = s) c Q E C) : Triple P c Q E C :=
  fun plan s hs => h s hs plan s rfl

/-- **Sequencing, one state at a time**: what is left to prove of `c` is that the rest of the
    program does its part wherever `c` returns. -/
lemma bind_at {f : α → Prog σ ε β} {R : β → σ → Prop}
    (h : Triple (· = s) c (fun a s' => Triple (· = s') (f a) R E C) E C) :
    Triple (· = s) (c >>= f) R E C :=
  bind h fun _ => of_forall fun _ hs => hs

/-- **Sequencing by a property** `M` of what the first program returns and leaves. -/
lemma seq_at {f : α → Prog σ ε β} {R : β → σ → Prop} (M : α → σ → Prop)
    (hc : Triple (· = s) c M E C) (hf : ∀ a s', M a s' → Triple (· = s') (f a) R E C) :
    Triple (· = s) (c >>= f) R E C :=
  bind_at (hc.post hf)

lemma pure_at (h : Q a s) : Triple (· = s) (Pure.pure a : Prog σ ε α) Q E C :=
  pure fun _ hs => hs ▸ h

lemma update_at (h : R () (f s)) : Triple (· = s) (.update f : Prog σ ε Unit) R E C :=
  update fun _ hs => hs ▸ h

lemma ofExcept_at (hok : ∀ a, x = .ok a → Q a s) (hE : ∀ e, x = .error e → E e s) :
    Triple (· = s) (.ofExcept x) Q E C :=
  ofExcept (fun a _ hx hs => hs ▸ hok a hx) fun e _ hx hs => hs ▸ hE e hx

lemma query_at {f : σ → Except ε α} (hok : ∀ a, f s = .ok a → Q a s) (hC : C s) :
    Attempts (· = s) (.query f e) Q C := by
  refine call ?_ (fun _ _ hs => hs ▸ hC) (fun _ _ hs => hs ▸ hC)
  rintro _ rfl
  cases hf : f _ with
  | ok a => exact hok a hf
  | error e' => exact hC

lemma atomic_at {f : σ → Except ε (α × σ)} (hok : ∀ a s', f s = .ok (a, s') → Q a s') (hC : C s)
    (hC' : ∀ a s', f s = .ok (a, s') → C s') : Attempts (· = s) (.atomic f e) Q C := by
  -- a disturbed call has left the old state or the new one
  have hpart : ∀ n : ℕ, C (if n = 0 then s else Prog.settle s (f s)) := by
    intro n
    split_ifs
    · exact hC
    · cases hf : f s with
      | ok r => exact hC' r.1 r.2 hf
      | error e' => exact hC
  refine call ?_ (fun n _ hs => hs ▸ hpart n) (fun n _ hs => hs ▸ hpart n)
  rintro _ rfl
  cases hf : f _ with
  | ok r => exact hok r.1 r.2 hf
  | error e' => exact hC

lemma failIf_at {_ : Decidable p} (hE : ∀ e, E e s) (hR : ¬p → R () s) :
    Triple (· = s) (.failIf p e : Prog σ ε Unit) R E C := by
  unfold Prog.failIf
  split_ifs with h
  · exact raise fun _ hs => hs ▸ hE e
  · exact pure_at (hR h)

lemma failIf_at_of_not {_ : Decidable p} (hp : ¬p) (hR : R () s) :
    Triple (· = s) (.failIf p e : Prog σ ε Unit) R E C := by
  rw [Prog.failIf, if_neg hp]
  exact pure_at hR

lemma raise_at (h : E e s) : Triple (· = s) (.raise e : Prog σ ε α) Q E C :=
  raise fun _ hs => hs ▸ h

lemma getState_at {R : σ → σ → Prop} (h : R s s) : Triple (· = s) (.getState : Prog σ ε σ) R E C :=
  getState fun _ hs => hs ▸ h

lemma judged_at (hok : v = .ok → R () (f s)) (hE : v = .err → E e s) (hC : v = .cut → C s) :
    Triple (· = s) (.judged v e f) R E C := by
  rintro plan _ rfl
  cases v with
  | ok => exact hok rfl
  | err => exact hE rfl
  | cut => exact hC rfl

lemma attempt_at {ε' : Type} {F : ε' → σ → Prop} {R : Except ε α → σ → Prop}
    (h : Triple (· = s) c (fun a => R (.ok a)) (fun e => R (.error e)) C) :
    Triple (· = s) (.attempt c : Prog σ ε' (Except ε α)) R F C := by
  rintro plan _ rfl
  have hrun := h plan _ rfl
  unfold Prog.attempt
  rcases hc : c plan _ with ⟨o, plan', s'⟩
  rw [hc] at hrun
  cases o <;> exact hrun

lemma ignore_at {ε' : Type} {F : ε' → σ → Prop}
    (h : Triple (· = s) c (fun _ => R ()) (fun _ => R ()) C) :
    Triple (· = s) (.ignore c : Prog σ ε' Unit) R F C :=
  bind_at (attempt_at (conseq h (fun _ _ hR => pure_at hR)
    (fun _ _ hR => pure_at hR) fun _ hC => hC))

lemma mapError_at {ε' : Type} {F : ε' → σ → Prop} {g : ε → ε'}
    (h : Triple (· = s) c Q (fun e => F (g e)) C) : Triple (· = s) (.mapError g c) Q F C := by
  rintro plan _ rfl
  have hrun := h plan _ rfl
  unfold Prog.mapError
  rcases hc : c plan _ with ⟨o, plan', s'⟩
  rw [hc] at hrun
  cases o <;> exact hrun

lemma zoom_at {τ : Type} {get : σ → τ} {set : σ → τ → σ} {c : Prog τ ε α}
    (h : Triple (· = get s) c (fun a t => Q a (set s t)) (fun e t => E e (set s t))
      (fun t => C (set s t))) : Triple (· = s) (.zoom get set c) Q E C := by
  rintro plan _ rfl
  have hrun := h plan _ rfl
  unfold Prog.zoom
  rcases hc : c plan _ with ⟨o, plan', t⟩
  rw [hc] at hrun
  cases o <;> exact hrun

/-- What a triple says about the state a program leaves, however it ends. -/
lemma final (h : Ends P c C) (plan : List Fate) (hs : P s) : C (c plan s).2.2 := by
  have hrun := h plan s hs
  rcases hc : c plan s with ⟨o, plan', s'⟩
  rw [hc] at hrun
  cases o <;> exact hrun

/-- What a triple says about a program that returned. -/
lemma of_done (h : Triple P c Q E C) {plan : List Fate} (hs : P s)
    (hdone : (c plan s).1 = .done a) : Q a (c plan s).2.2 := by
  have hrun := h plan s hs
  rcases hc : c plan s with ⟨o, plan', s'⟩
  rw [hc] at hrun hdone
  cases hdone
  exact hrun

end Triple

/-! ## Writing a whole file

A write that opens a file, cuts it to nothing and writes its new content.  It may be refused, and it
may break off when a part of the content is there. -/

/-- What becomes of one write of a file.  A write that does not go through, with an error or because
    the machine stops, has not opened the file or has left that much of the content. -/
inductive WriteFate where
  | done
  | failed (written : Option ℕ)
  | cut (written : Option ℕ)
  deriving Repr, DecidableEq

/-- The file after the write. -/
def WriteFate.leaves {γ : Type} (fate : WriteFate) (old : Option (List γ)) (data : List γ) :
    Option (List γ) :=
  match fate with
  | .done => some data
  | .failed none | .cut none => old
  | .failed (some n) | .cut (some n) => some (data.take n)

/-- Write a file, given how the state holds it. -/
def Prog.writeFile {γ : Type} (fate : WriteFate) (get : σ → Option (List γ))
    (set : σ → Option (List γ) → σ) (data : List γ) (e : ε) : Prog σ ε Unit := do
  .update fun s => set s (fate.leaves (get s) data)
  match fate with
  | .done => .ret ()
  | .failed _ => .raise e
  | .cut _ => .judged .cut e id

variable {fate : WriteFate} {E : ε → σ → Prop} {C : σ → Prop}

lemma Triple.writeFile_at {γ : Type} {get : σ → Option (List γ)} {set : σ → Option (List γ) → σ}
    {data : List γ} (hdone : fate = .done → R () (set s (some data)))
    (hfailed : ∀ w, fate = .failed w → E e (set s (fate.leaves (get s) data)))
    (hcut : ∀ w, fate = .cut w → C (set s (fate.leaves (get s) data))) :
    Triple (· = s) (.writeFile fate get set data e) R E C := by
  refine bind_at (update_at ?_)
  cases fate with
  | done => exact pure_at (hdone rfl)
  | failed w => exact raise_at (hfailed w rfl)
  | cut w => exact judged_at (by simp) (by simp) fun _ => hcut w rfl

/-! ## Two runs -/

/-- **Two runs** of a program from related states end alike, in related states: what the relation
    leaves open does not matter to the program. -/
def Respects (R : σ → σ → Prop) (c : Prog σ ε α) : Prop :=
  ∀ plan s t, R s t → (c plan s).1 = (c plan t).1 ∧ (c plan s).2.1 = (c plan t).2.1 ∧
    R (c plan s).2.2 (c plan t).2.2

namespace Respects

variable {R : σ → σ → Prop}

lemma pure : Respects R (Pure.pure a : Prog σ ε α) := fun _ _ _ h => ⟨rfl, rfl, h⟩

lemma raise : Respects R (.raise e : Prog σ ε α) := fun _ _ _ h => ⟨rfl, rfl, h⟩

lemma update (hf : ∀ s t, R s t → R (f s) (f t)) :
    Respects R (.update f : Prog σ ε Unit) := fun _ s t h => ⟨rfl, rfl, hf s t h⟩

lemma judged (hf : ∀ s t, R s t → R (f s) (f t)) : Respects R (.judged v e f) := by
  intro plan s t h
  cases v with
  | ok => exact ⟨rfl, rfl, hf s t h⟩
  | err => exact ⟨rfl, rfl, h⟩
  | cut => exact ⟨rfl, rfl, h⟩

lemma bind {f : α → Prog σ ε β} (hc : Respects R c) (hf : ∀ a, Respects R (f a)) :
    Respects R (c >>= f) := by
  intro plan s t h
  have hrun := hc plan s t h
  simp only [Bind.bind, Prog.andThen]
  rcases hs : c plan s with ⟨r, plan₁, s₁⟩
  rcases ht : c plan t with ⟨r', plan₂, t₁⟩
  rw [hs, ht] at hrun
  obtain ⟨rfl, rfl, hR⟩ : r = r' ∧ plan₁ = plan₂ ∧ R s₁ t₁ := hrun
  cases r with
  | done a => exact hf a plan₁ s₁ t₁ hR
  | failed e => exact ⟨rfl, rfl, hR⟩
  | stopped => exact ⟨rfl, rfl, hR⟩

/-- What a program reads from its state has to be the same in related states. -/
lemma getState_bind {f : σ → Prog σ ε β} (hf : ∀ s, Respects R (f s))
    (hread : ∀ s t, R s t → f s = f t) : Respects R (.getState >>= f) := by
  intro plan s t h
  have hs : (.getState >>= f) plan s = f s plan s := rfl
  have ht : (.getState >>= f) plan t = f s plan t := by
    rw [hread s t h]
    rfl
  rw [hs, ht]
  exact hf s plan s t h

lemma writeFile {γ : Type} {get : σ → Option (List γ)} {set : σ → Option (List γ) → σ}
    {data : List γ} (hget : ∀ s t, R s t → get s = get t)
    (hset : ∀ s t file, R s t → R (set s file) (set t file)) :
    Respects R (.writeFile fate get set data e) := by
  refine bind (update fun s t h => ?_) fun _ => ?_
  · rw [hget s t h]
    exact hset s t _ h
  · cases fate with
    | done => exact pure
    | failed w => exact raise
    | cut w => exact judged fun _ _ h => h

end Respects

/-! ## Undisturbed runs -/

/-- **An undisturbed run**: with no call disturbed, `c` started in `s` returns `a` in `s'`. -/
def Runs (c : Prog σ ε α) (s : σ) (a : α) (s' : σ) : Prop :=
  c [] s = (.done a, [], s')

namespace Runs

variable {s s' s'' : σ} {a : α} {b : β}

lemma pure : Runs (Pure.pure a : Prog σ ε α) s a s := rfl

lemma update : Runs (.update f : Prog σ ε Unit) s () (f s) := rfl

lemma getState : Runs (.getState : Prog σ ε σ) s s s := rfl

lemma ofExcept (h : x = .ok a) : Runs (.ofExcept x) s a s := by
  subst h; rfl

lemma bind {f : α → Prog σ ε β} (hc : Runs c s a s') (hf : Runs (f a) s' b s'') :
    Runs (c >>= f) s b s'' := by
  show Prog.andThen c f [] s = _
  unfold Prog.andThen
  rw [show c [] s = _ from hc]
  exact hf

lemma call (h : act s = (.ok a, s')) : Runs (Prog.call act part e) s a s' := by
  simp [Runs, Prog.call, h]

lemma query {f : σ → Except ε α} (h : f s = .ok a) : Runs (.query f e) s a s := call (by rw [h])

lemma atomic {f : σ → Except ε (α × σ)} (h : f s = .ok (a, s')) : Runs (.atomic f e) s a s' :=
  call (by rw [h]; rfl)

lemma failIf {_ : Decidable p} (hp : ¬p) : Runs (.failIf p e : Prog σ ε Unit) s () s := by
  unfold Prog.failIf
  rw [if_neg hp]
  rfl

/-- What a triple says about an undisturbed run. -/
lemma post {P : σ → Prop} {Q : α → σ → Prop} (hr : Runs c s a s') (ht : Triple P c Q E C)
    (hP : P s) : Q a s' := by
  have h := ht [] s hP
  rw [show c [] s = _ from hr] at h
  exact h

/-- An undisturbed run, from how it ended. -/
lemma of_done (h : (c [] s).1 = .done a ∧ (c [] s).2.1 = []) : Runs c s a (c [] s).2.2 :=
  Prod.ext h.1 (Prod.ext h.2 rfl)

end Runs

end CrashLogic
