import Rauha.Backend.Restart

/-!
# One rule for each call

What a call of the backend needs to establish a postcondition, in terms of its verdict and of the
state it finds.  Proofs about the operations apply these rules in the order of the statements.
-/

namespace Rauha

open CrashLogic Triple

namespace Backend

variable {env : Env} {op : Op} {name : String} {s : Linux}

/-! ## Calls -/

section Calls

variable {α : Type} {Q : α → Linux → Prop} {R : Unit → Linux → Prop}
  {E : RauhaError → Linux → Prop} {K : Linux → Prop}

lemma osCall_at {site : Site} {e : RauhaError} {f : Linux → Linux}
    (hok : env.verdict op name site = .ok → R () (f s))
    (hE : env.verdict op name site = .err → E e s) (hK : K s) :
    Triple (· = s) (osCall env op name site e f) R E K :=
  judged_at hok hE fun _ => hK

lemma cgroupIdForZone_at {Q : ℕ → Linux → Prop}
    (hok : ∀ cg, env.verdict op name .StatCgroup = .ok → s.slice.get name = some cg → Q cg.ino s)
    (hE : ∀ e, env.verdict op name .StatCgroup = .err ∨ s.slice.get name = none → E e s)
    (hK : K s) : Triple (· = s) (cgroupIdForZone env op name) Q E K := by
  refine bind_at (osCall_at (fun hv => ?_) (fun hv => hE _ (.inl hv)) hK)
  refine bind_at (getState_at ?_)
  refine ofExcept_at ?_ ?_
  · intro ino h
    simp only [id] at h
    split at h
    · rename_i cg hcg
      cases h
      exact hok cg hv hcg
    · cases h
  · intro e h
    simp only [id] at h
    split at h
    · cases h
    · rename_i hnone
      exact hE e (.inr hnone)

lemma createZoneCgroup_at {Q : ℕ → Linux → Prop} (hnone : s.slice.get name = none)
    (hok : env.verdict op name .MakeCgroup = .ok → env.verdict op name .StatCgroup = .ok →
      Q s.slice.nextIno { s with slice := s.slice.mkdir name })
    (hE : ∀ e, env.verdict op name .MakeCgroup = .err → E e s)
    (hE' : ∀ e, env.verdict op name .StatCgroup = .err →
      E e { s with slice := s.slice.mkdir name })
    (hK : K s) (hK' : K { s with slice := s.slice.mkdir name }) :
    Triple (· = s) (createZoneCgroup env op name) Q E K := by
  refine bind_at (getState_at ?_)
  refine bind_at (failIf_at_of_not (by simp [hnone]) ?_)
  refine bind_at (osCall_at (fun hm => ?_) (fun hm => hE _ hm) hK)
  refine cgroupIdForZone_at ?_ ?_ hK'
  · intro cg hv hcg
    rw [Slice.get_mkdir] at hcg
    cases hcg
    exact hok hm hv
  · rintro e (hv | hcg)
    · exact hE' e hv
    · rw [Slice.get_mkdir] at hcg
      cases hcg

lemma applyResources_at {cg : Cgroup} (hcg : s.slice.get name = some cg)
    (hok : env.verdict op name .WriteLimits = .ok → R () s)
    (hE : ∀ e, env.verdict op name .WriteLimits = .err → E e s) (hK : K s) :
    Triple (· = s) (applyResources env op name) R E K := by
  refine bind_at (getState_at ?_)
  refine bind_at (failIf_at_of_not (by simp [hcg]) ?_)
  exact osCall_at hok (hE _) hK

lemma zoneHasProcesses_at {site : Site} {cg : Cgroup} {Q : Bool → Linux → Prop}
    (hcg : s.slice.get name = some cg)
    (hok : env.verdict op name site = .ok → Q (decide (cg.procs ≠ [])) s)
    (hE : ∀ e, env.verdict op name site = .err → E e s) (hK : K s) :
    Triple (· = s) (zoneHasProcesses env op name site) Q E K := by
  refine bind_at (osCall_at (fun hv => ?_) (hE _) hK)
  refine bind_at (getState_at ?_)
  refine ofExcept_at ?_ ?_ <;> (intro x h; simp only [id, hcg] at h; cases h)
  exact hok hv

lemma mayHaveProcesses_at {cg : Cgroup} {Q : Bool → Linux → Prop} (hcg : s.slice.get name = some cg)
    (hlive : env.verdict op name .ReadProcs = .err ∨ cg.procs ≠ [] → Q true s)
    (hdead : env.verdict op name .ReadProcs = .ok → cg.procs = [] → Q false s) (hK : K s) :
    Triple (· = s) (mayHaveProcesses env op name) Q E K := by
  refine bind_at (attempt_at (zoneHasProcesses_at hcg ?_ ?_ hK))
  · intro hv
    refine pure_at ?_
    by_cases hp : cg.procs = []
    · simpa [hp] using hdead hv hp
    · simpa [hp] using hlive (.inr hp)
  · intro e hv
    exact pure_at (hlive (.inl hv))

/-- What keeps a drain from succeeding in a cgroup with processes or unreadable. -/
def DrainFails (env : Env) (op : Op) (name : String) (cg : Cgroup) : Prop :=
  env.verdict op name .DrainReadProcs = .err ∨ (cg.procs ≠ [] ∧
    (env.verdict op name .KillCgroup = .err ∨ env.verdict op name .PollProcs = .err ∨
      cg.procs.filter (env.survives name) ≠ []))

/-- **Draining.**  It returns only if no process is left; otherwise some may be gone. -/
lemma drainZone_at {cg : Cgroup} (hcg : s.slice.get name = some cg)
    (hempty : cg.procs = [] → ¬DrainFails env op name cg → R () s)
    (hdrained : cg.procs.filter (env.survives name) = [] → ¬DrainFails env op name cg →
      R () { s with slice := s.slice.kill name (env.survives name) })
    (hE : ∀ e, E e s)
    (hE' : ∀ e, E e { s with slice := s.slice.kill name (env.survives name) })
    (hK : K s) (hK' : K { s with slice := s.slice.kill name (env.survives name) }) :
    Triple (· = s) (drainZone env op name) R E K := by
  refine bind_at (getState_at ?_)
  simp only [hcg]
  refine bind_at (zoneHasProcesses_at hcg ?_ (fun e _ => hE e) hK)
  intro hread
  by_cases hp : cg.procs = []
  · simp only [hp, ne_eq, not_true_eq_false, decide_false]
    exact pure_at (hempty hp (by simp [DrainFails, hread, hp]))
  · simp only [ne_eq, hp, not_false_eq_true, decide_true]
    refine bind_at (osCall_at (fun hkill => ?_) (fun _ => hE _) hK)
    refine bind_at
      (zoneHasProcesses_at (Slice.get_kill hcg) ?_ (fun e _ => hE' e) hK')
    intro hpoll
    refine failIf_at (fun e => hE' e) ?_
    intro hl
    have hnone : cg.procs.filter (env.survives name) = [] := by simpa using hl
    exact hdrained hnone (by simp [DrainFails, hread, hkill, hpoll, hnone])

end Calls

end Backend

end Rauha
