import Rauha.Library.CrashLogic

/-!
# Framing

`Keeps g c` says that the program `c` leaves the part `g` of the state alone, however it ends.  It
is closed under every way of putting programs together, so it holds of a program as soon as it
holds of the calls in it.  `Keeps.triple_at` brings it into a proof with triples.

`Returns s c Q` says what holds when `c`, started in `s`, returns; nothing is asked of it otherwise.
-/

namespace CrashLogic

variable {σ τ ε ε' α β : Type} {g : σ → τ}

/-- **A program that leaves `g` alone.** -/
def Keeps (g : σ → τ) (c : Prog σ ε α) : Prop := ∀ plan s, g (c plan s).2.2 = g s

variable {a : α} {e : ε} {f : σ → σ} {x : Except ε α} {v : Verdict} {R : Unit → σ → Prop}

namespace Keeps

lemma pure : Keeps g (Pure.pure a : Prog σ ε α) := fun _ _ => rfl

lemma raise : Keeps g (.raise e : Prog σ ε α) := fun _ _ => rfl

lemma getState : Keeps g (.getState : Prog σ ε σ) := fun _ _ => rfl

lemma update (h : ∀ s, g (f s) = g s) : Keeps g (.update f : Prog σ ε Unit) := fun _ s => h s

lemma ofExcept : Keeps g (.ofExcept x : Prog σ ε α) := by
  cases x with
  | ok a => exact pure
  | error e => exact raise

variable {p : Prop}

lemma failIf {_ : Decidable p} : Keeps g (.failIf p e : Prog σ ε Unit) := by
  unfold Prog.failIf
  split_ifs
  · exact raise
  · exact pure

lemma judged (h : ∀ s, g (f s) = g s) : Keeps g (.judged v e f) := by
  intro plan s
  cases v with
  | ok => exact h s
  | err => rfl
  | cut => rfl

variable {c : Prog σ ε α}

lemma bind {f : α → Prog σ ε β} (hc : Keeps g c) (hf : ∀ a, Keeps g (f a)) : Keeps g (c >>= f) := by
  intro plan s
  have hfirst := hc plan s
  show g (Prog.andThen c f plan s).2.2 = g s
  unfold Prog.andThen
  rcases hrun : c plan s with ⟨o, plan', s'⟩
  rw [hrun] at hfirst
  cases o with
  | done a => exact (hf a plan' s').trans hfirst
  | failed e => exact hfirst
  | stopped => exact hfirst

lemma attempt (hc : Keeps g c) : Keeps g (.attempt c : Prog σ ε' (Except ε α)) := by
  intro plan s
  have hrun := hc plan s
  unfold Prog.attempt
  rcases h : c plan s with ⟨o, plan', s'⟩
  rw [h] at hrun
  cases o <;> exact hrun

lemma ignore (hc : Keeps g c) : Keeps g (.ignore c : Prog σ ε' Unit) :=
  bind (attempt hc) fun _ => pure

lemma ite {_ : Decidable p} {c' : Prog σ ε α} (hc : Keeps g c) (hc' : Keeps g c') :
    Keeps g (if p then c else c') := by
  split_ifs
  · exact hc
  · exact hc'

/-- A program over a part of the state, which leaves of that part what `g` sees of it. -/
lemma zoom {ρ υ : Type} {get : σ → ρ} {set : σ → ρ → σ} {h : ρ → υ} {c : Prog ρ ε α}
    (hc : Keeps h c) (hset : ∀ s t, h t = h (get s) → g (set s t) = g s) :
    Keeps g (.zoom get set c) := by
  intro plan s
  exact hset s _ (hc plan (get s))

variable {s : σ} {C : σ → Prop}

/-- **The frame rule**: a program that leaves `g` alone establishes what holds of every state with
    the same `g`. -/
lemma triple_at {Q : α → σ → Prop} {E : ε → σ → Prop} (hc : Keeps g c)
    (hQ : ∀ a s', g s' = g s → Q a s') (hE : ∀ e s', g s' = g s → E e s')
    (hC : ∀ s', g s' = g s → C s') : Triple (· = s) c Q E C := by
  intro plan s₀ hs
  subst hs
  have hrun := hc plan s₀
  rcases h : c plan s₀ with ⟨o, plan', s'⟩
  rw [h] at hrun
  cases o with
  | done a => exact hQ a s' hrun
  | failed e => exact hE e s' hrun
  | stopped => exact hC s' hrun

/-- One that is run for its effect does not fail. -/
lemma ignore_at {E : ε' → σ → Prop} (hc : Keeps g c) (hR : ∀ s', g s' = g s → R () s')
    (hC : ∀ s', g s' = g s → C s') : Triple (· = s) (.ignore c : Prog σ ε' Unit) R E C :=
  .ignore_at (hc.triple_at (fun _ => hR) (fun _ => hR) hC)

end Keeps

/-! ## Programs that return -/

/-- **What holds if a program returns.** -/
def Returns (s : σ) (c : Prog σ ε α) (Q : α → σ → Prop) : Prop :=
  Triple (· = s) c Q (fun _ _ => True) fun _ => True

namespace Returns

variable {s : σ} {c : Prog σ ε α} {Q Q' : α → σ → Prop}

lemma raise : Returns s (.raise e : Prog σ ε α) Q := .raise_at trivial

lemma ofExcept (h : ∀ a, x = .ok a → Q a s) : Returns s (.ofExcept x) Q :=
  .ofExcept_at h fun _ _ => trivial

lemma judged (h : v = .ok → R () (f s)) : Returns s (.judged v e f) R :=
  .judged_at h (fun _ => trivial) fun _ => trivial

lemma mono (hc : Returns s c Q) (h : ∀ a s', Q a s' → Q' a s') : Returns s c Q' := .post hc h

/-- A program that leaves `g` alone. -/
lemma of_keeps (hc : Keeps g c) (h : ∀ a s', g s' = g s → Q a s') : Returns s c Q :=
  hc.triple_at h (fun _ _ _ => trivial) fun _ _ => trivial

/-- One that is run for its effect. -/
lemma ignore_of_keeps (hc : Keeps g c) (h : ∀ s', g s' = g s → R () s') :
    Returns s (.ignore c : Prog σ ε' Unit) R :=
  hc.ignore_at h fun _ _ => trivial

/-- An error is handled, whatever the state. -/
lemma attempt {R : Except ε α → σ → Prop} (hok : Returns s c fun a s' => R (.ok a) s')
    (herror : ∀ e s', R (.error e) s') : Returns s (.attempt c : Prog σ ε' (Except ε α)) R :=
  .attempt_at (.conseq hok (fun _ _ h => h) (fun e s' _ => herror e s')
    fun _ h => h)

/-- A program of which nothing is known. -/
lemma any (h : ∀ a s', Q a s') : Returns s c Q := by
  intro plan s' _
  split
  · exact h _ _
  · trivial
  · trivial

lemma all {ι : Sort*} {R : ι → α → σ → Prop} (h : ∀ i, Returns s c (R i)) :
    Returns s c fun a s' => ∀ i, R i a s' := by
  intro plan s' hs
  split
  · rename_i a plan' s'' hrun
    intro i
    have hi := h i plan s' hs
    rw [hrun] at hi
    exact hi
  · trivial
  · trivial

end Returns

end CrashLogic
