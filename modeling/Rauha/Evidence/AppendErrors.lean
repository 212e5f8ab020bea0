import Rauha.Evidence.CrashSafety

/-!
# Appends that fail

An append fails in one of two ways, told apart by its checks.  If these refuse it, nothing has
happened at all.  If they pass, writing has started: the handle is of no use any more, and opening
the journal anew finds the head from before or the one that was about to be published.
-/

namespace Rauha

open Storage CrashLogic

namespace Evidence

variable {τ : Type} {C : Codec τ} {w w' : World τ} {j : Journal} {m : Value} {kind : String}
  {epoch : UInt64} {body : Value} {now : τ}

/-- A handle that writing has failed on refuses every append, before it touches anything. -/
lemma append_of_writeFailed (hj : j.writeFailed = true) (plan : List Fate) :
    ∃ x, j.append C kind epoch body now plan w = (.failed x, plan, w) := by
  cases hst : j.stage C kind epoch body now with
  | error x => exact ⟨x, append_of_stage_error hst plan w⟩
  | ok st =>
    obtain ⟨-, hfailed, -⟩ := stage_inv hst
    rw [hj] at hfailed
    cases hfailed

/-- What is left of the machine after the handle is gone: it was closed, or power failed. -/
inductive Left (w : World τ) : World τ → Prop
  | close : Left w { w with journal := none }
  | powerCut (pick : ℕ) (tail : ℕ → Bytes) (kept : Bool) : Left w (w.powerCut pick tail kept)

/-- What a safe disk is opened as, closed or after a power cut. -/
lemma Left.opened {log : ℕ} {A : Option (List (Entry τ)) → Prop} (hC : C.Lawful) (hleft : Left w w')
    (h : Safe C w.disk m log {log} A) {plan plan' : List Fate} {w'' : World τ}
    (hopen : Journal.«open» C plan w' = (.done (), plan', w'')) :
    ∃ j es, w''.journal = some j ∧ A (some es) ∧ j.head = headOf C m es := by
  have ht := open_triple hC w' plan w' rfl
  rw [hopen] at ht
  obtain ⟨hpresent, -, j, es, ho, rfl⟩ := ht
  have hsafe : Safe C w'.disk m log {log} A := by
    cases hleft with
    | close => exact h
    | powerCut pick tail kept =>
      unfold World.powerCut at hpresent ⊢
      split_ifs at hpresent ⊢
      exact h.powerCut pick tail
  obtain ⟨hA, -, hcur⟩ := hsafe.opened hC ho
  exact ⟨j, es, rfl, hA, hcur.head⟩

/-- **Appends that fail**, on every handle there can be: refused by the checks, the machine is as it
    was and the plan has not been looked at; otherwise the handle refuses every append from then on,
    and opening the journal anew gives the old or the new head. -/
theorem append_errors (hC : C.Lawful) (events : List (Event τ)) (kind : String) (epoch : UInt64)
    (body : Value) (now : τ) (plan : List Fate) :
    let w := (Transition.run (Observed.step C) Observed.start events).world
    ∀ j, w.journal = some j →
      (∀ x, j.stage C kind epoch body now = .error x →
        j.append C kind epoch body now plan w = (.failed x, plan, w)) ∧
      ∀ st x plan' w', j.stage C kind epoch body now = .ok st →
        j.append C kind epoch body now plan w = (.failed x, plan', w') →
        ∃ j', w'.journal = some j' ∧
          (∀ kind epoch body now plan w, ∃ x, j'.append C kind epoch body now plan w =
            (.failed x, plan, w)) ∧
          ∀ left, Left w' left → ∀ plan plan' w'',
            Journal.«open» C plan left = (.done (), plan', w'') →
              ∃ j'', w''.journal = some j'' ∧ (j''.head = j.head ∨ j''.head = st.next) := by
  intro w j hj
  refine ⟨fun x hx => append_of_stage_error hx plan w, fun st x plan' w' hst hrun => ?_⟩
  have hfailed : j.writeFailed = false := (stage_inv hst).2.1
  rcases consistent_run hC events with ⟨-, hw⟩ | ⟨m, log, he⟩
  · rw [show w.journal = none from hw.journal] at hj
    cases hj
  · obtain ⟨-, hcur⟩ := he.handle j hj
    obtain ⟨-, hcur⟩ := hcur hfailed
    have hnext := (stage_ok hC hcur.holds.committed.toAdmissible hcur.head hst).2.2.2.2.2.2.2.1
    have htriple : Triple (· = w) (j.append C kind epoch body now) _ _ _ := append_triple hC hcur
    have ht := htriple plan w rfl
    rw [hrun] at ht
    rcases ht with ⟨herror, -⟩ | ⟨st', hst', d, rfl, hsafe, -⟩
    · rw [hst] at herror
      cases herror
    · rw [hst] at hst'
      cases hst'
      refine ⟨_, rfl, fun _ _ _ _ _ _ => append_of_writeFailed rfl _, ?_⟩
      intro left hleft plan plan' w'' hopen
      obtain ⟨j'', es, hj'', hes, hhead⟩ := hleft.opened hC hsafe hopen
      refine ⟨j'', hj'', ?_⟩
      rcases hes with hes | hes <;> cases hes
      · exact Or.inl (hhead.trans hcur.head.symm)
      · exact Or.inr (hhead.trans hnext.symm)

/-- The second half of a record cannot be written. -/
theorem append_errors_torn :
    let w := (Transition.run (Observed.step sampleCodec) Observed.start
      [.Create emptyObject []]).world
    ∃ j x plan w', w.journal = some j ∧
      j.append sampleCodec "run.started" 1 emptyObject "2026-01-01T00:00:00Z" [.pass, .fail 5] w =
        (.failed x, plan, w') ∧
      ∃ j', w'.journal = some j' ∧ ∀ kind epoch body now plan w, ∃ x,
        j'.append sampleCodec kind epoch body now plan w = (.failed x, plan, w) := by
  intro w
  have hfails : (w.journal.any fun j =>
      (j.stage sampleCodec "run.started" 1 emptyObject "2026-01-01T00:00:00Z").isOk &&
        match (j.append sampleCodec "run.started" 1 emptyObject "2026-01-01T00:00:00Z"
          [.pass, .fail 5] w).1 with
        | .failed _ => true
        | _ => false) = true := by decide +kernel
  obtain ⟨j, hj, hstage⟩ := (Option.any_eq_true _ _).mp hfails
  rw [Bool.and_eq_true] at hstage
  have herrors := append_errors sampleCodec_lawful [.Create emptyObject []]
    "run.started" 1 emptyObject "2026-01-01T00:00:00Z" [.pass, .fail 5] j hj
  rcases hst : j.stage sampleCodec "run.started" 1 emptyObject "2026-01-01T00:00:00Z" with _ | st
  · rw [hst] at hstage
    cases hstage.1
  · rcases hrun : j.append sampleCodec "run.started" 1 emptyObject "2026-01-01T00:00:00Z"
      [.pass, .fail 5] w with ⟨_ | x | _, plan, w'⟩
    · rw [hrun] at hstage
      cases hstage.2
    · obtain ⟨j', hj', hrefused, -⟩ := herrors.2 st x plan w' hst hrun
      exact ⟨j, x, plan, w', hj, hrun, j', hj', hrefused⟩
    · rw [hrun] at hstage
      cases hstage.2

end Evidence

end Rauha
