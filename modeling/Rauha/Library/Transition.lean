import Mathlib.Tactic

/-!
# Runs of a deterministic system

A system is a step function on states, driven by a list of events.  `run_invariant` is the
induction every safety property of a run goes through: it holds at the start and one step keeps
it.  `Meets` restricts the runs to those whose every step satisfies a condition on the state it
starts from and its event; `Meets.invariant` is the same induction for them.
-/

namespace Transition

open Function

variable {σ ε : Type} (step : σ → ε → σ)

/-- The state after a list of events. -/
def run (s : σ) (es : List ε) : σ := es.foldl step s

/-- Every step of the run from `s` meets `G`. -/
def Meets (G : σ → ε → Prop) : σ → List ε → Prop
  | _, [] => True
  | s, e :: es => G s e ∧ Meets G (step s e) es

instance (G : σ → ε → Prop) [∀ s e, Decidable (G s e)] :
    ∀ s es, Decidable (Meets step G s es)
  | _, [] => .isTrue trivial
  | s, e :: es =>
    have := instDecidableMeets G (step s e) es
    inferInstanceAs (Decidable (G s e ∧ Meets step G (step s e) es))

variable {step}

@[simp] lemma run_nil (s : σ) : run step s [] = s := rfl

@[simp] lemma run_cons (s : σ) (e : ε) (es : List ε) :
    run step s (e :: es) = run step (step s e) es := rfl

lemma run_append (s : σ) (es fs : List ε) : run step s (es ++ fs) = run step (run step s es) fs :=
  List.foldl_append

variable {I : σ → Prop} {s : σ}

/-- **Invariants**: what holds at the start and is kept by every step holds after every run. -/
theorem run_invariant (hstep : ∀ s e, I s → I (step s e)) (h : I s) (es : List ε) :
    I (run step s es) := by
  induction es generalizing s with
  | nil => exact h
  | cons e es ih => exact ih (hstep s e h)

/-- **Monotonicity**: a preorder that every step from a good state climbs is climbed by a run. -/
theorem run_mono {R : σ → σ → Prop} (hrefl : ∀ s, R s s) (htrans : ∀ a b c, R a b → R b c → R a c)
    (hstep : ∀ s e, I s → I (step s e)) (hmono : ∀ s e, I s → R s (step s e)) (h : I s)
    (es : List ε) : R s (run step s es) := by
  induction es generalizing s with
  | nil => exact hrefl s
  | cons e es ih => exact htrans _ _ _ (hmono s e h) (ih (hstep s e h))

variable {G : σ → ε → Prop} {es : List ε}

/-- Invariants of the runs whose steps all meet `G`. -/
theorem Meets.invariant (hstep : ∀ s e, I s → G s e → I (step s e)) (h : I s)
    (hG : Meets step G s es) : I (run step s es) := by
  induction es generalizing s with
  | nil => exact h
  | cons e es ih => exact ih (hstep s e h hG.1) hG.2

lemma meets_append {fs : List ε} :
    Meets step G s (es ++ fs) ↔ Meets step G s es ∧ Meets step G (run step s es) fs := by
  induction es generalizing s with
  | nil => simp [Meets]
  | cons e es ih => simp only [List.cons_append, Meets, run_cons, ih, and_assoc]

/-! ## Tables in a state -/

variable {κ ν : Type} [DecidableEq κ] {f : κ → Option ν} {a x : κ} {b y : ν}

/-- What a table has after an entry was put in. -/
lemma update_eq_some (h : update f a (some b) x = some y) :
    x = a ∧ y = b ∨ x ≠ a ∧ f x = some y := by
  by_cases hx : x = a
  · rw [hx, update_self] at h
    exact .inl ⟨hx, (Option.some.inj h).symm⟩
  · rw [update_of_ne hx] at h
    exact .inr ⟨hx, h⟩

/-- What a table has after an entry was taken out. -/
lemma update_none_eq_some (h : update f a none x = some y) : x ≠ a ∧ f x = some y := by
  by_cases hx : x = a
  · rw [hx, update_self] at h
    cases h
  · exact ⟨hx, by rwa [update_of_ne hx] at h⟩

end Transition
