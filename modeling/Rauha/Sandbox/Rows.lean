import Rauha.Sandbox.System

/-!
# The rows of a task

What one step of the system does to the result, the recovery record and the log, whatever the state
it starts from.  `step_write` is the list of the transactions there are; that a result stays once it
is there (`Write.result`) and that records go only at the end of a clean-up
(`step_record_removed`) are read off it.
-/

namespace Rauha.Sandbox

/-- **The transactions on results and records.**  `F` holds of tasks whose clean-up is through. -/
inductive Write (F : String → Prop) (c : Core) : Core → Prop
  | keep {c' : Core} (hresults : c'.store.results = c.store.results)
      (hrecovery : c'.store.recovery = c.store.recovery)
      (hlog : ∃ newer, c'.log = newer ++ c.log) : Write F c c'
  | reserve (t : String) (h : c.result t = none) : Write F c (c.reserve t)
  | forget (t : String) : Write F c (c.forget t)
  | save (t : String) (bytes : List UInt8) (h : c.result t = some []) : Write F c (c.save t bytes)
  | put (record : RecoveryRecord) : Write F c (c.put record)
  | commit (n : ℕ) (record : RecoveryRecord) : Write F c (c.commit n record)
  | finish (t : String) (h : F t) : Write F c (c.finish t)

variable {w : World} {s : State} {n : ℕ} {thread : Thread} {pc : Pc} {input : Input}

section Reading

variable {F : String → Prop} {c c' : Core} {t : String}

lemma Write.mono {G : String → Prop} (hFG : ∀ t, F t → G t) (h : Write F c c') : Write G c c' := by
  cases h with
  | keep hresults hrecovery hlog => exact .keep hresults hrecovery hlog
  | reserve t h => exact .reserve t h
  | forget t => exact .forget t
  | save t bytes h => exact .save t bytes h
  | put record => exact .put record
  | commit n record => exact .commit n record
  | finish t h => exact .finish t (hFG t h)

/-- The log only grows. -/
lemma Write.log (h : Write F c c') : ∃ newer, c'.log = newer ++ c.log := by
  cases h with
  | keep _ _ hlog => exact hlog
  | reserve t _ => exact ⟨[.Reserved t], rfl⟩
  | forget t => exact ⟨[.Deleted t], rfl⟩
  | commit n record => exact ⟨[.Admitted n record.taskId], rfl⟩
  | save | put | finish => exact ⟨[], rfl⟩

/-- **A result stays** until it is deleted. -/
lemma Write.result {bytes : List UInt8} (h : Write F c c') (hresult : c.result t = some bytes)
    (hne : bytes ≠ []) : c'.result t = some bytes ∨ c'.log = .Deleted t :: c.log := by
  cases h with
  | keep hresults _ _ => exact .inl (by rw [Core.result, hresults]; exact hresult)
  | reserve t' hnone =>
    rw [Core.result_reserve]
    split_ifs with heq
    · rw [heq, hnone] at hresult
      cases hresult
    · exact .inl hresult
  | forget t' =>
    rw [Core.result_forget]
    split_ifs with heq
    · exact .inr (by rw [heq]; rfl)
    · exact .inl hresult
  | save t' bytes' hempty =>
    rw [Core.result_save]
    split_ifs with heq
    · rw [heq, hempty] at hresult
      cases hresult
      exact absurd rfl hne
    · exact .inl hresult
  | put | commit | finish => exact .inl hresult

/-- **A record goes** only when the clean-up is through. -/
lemma Write.record_removed (h : Write F c c') (hrecord : c.record t ≠ none)
    (hnone : c'.record t = none) : F t ∧ c' = c.finish t := by
  cases h with
  | keep _ hrecovery _ =>
    rw [Core.record, hrecovery] at hnone
    exact absurd hnone hrecord
  | reserve | forget | save => exact absurd hnone hrecord
  | put record =>
    rw [Core.record_put] at hnone
    split_ifs at hnone
    exact absurd hnone hrecord
  | commit n record =>
    have hnone' : (c.put record).record t = none := hnone
    rw [Core.record_put] at hnone'
    split_ifs at hnone'
    exact absurd hnone' hrecord
  | finish t' hF =>
    rw [Core.record_finish] at hnone
    split_ifs at hnone with heq
    · subst heq
      exact ⟨hF, rfl⟩
    · exact absurd hnone hrecord

end Reading

/-! ## Requests -/

lemma stepAdmission_write {F : String → Prop} :
    Write F s.toCore (stepAdmission w s n thread pc input).toCore := by
  have hkeep : Write F s.toCore s.toCore := .keep rfl rfl ⟨[], rfl⟩
  unfold stepAdmission
  split
  · simp only
    split_ifs
    · split
      · rename_i store hreserve
        obtain ⟨hnone, rfl⟩ := Store.reserveResult_ok hreserve
        exact .reserve _ hnone
      · exact hkeep
    · exact hkeep
  · exact hkeep
  · split
    · exact hkeep
    · simp only
      split_ifs
      · exact hkeep
      · exact hkeep
      · exact .keep rfl rfl ⟨[], rfl⟩
      · exact .keep rfl rfl ⟨[_], rfl⟩
  · split
    · exact hkeep
    · split <;> exact hkeep
  · exact hkeep
  · split_ifs <;> exact hkeep
  · exact hkeep
  · split_ifs
    · split
      · rename_i store hput
        obtain ⟨-, rfl⟩ := Store.putRecovery_ok hput
        exact .commit n _
      · exact hkeep
    · exact hkeep
  · exact hkeep
  · exact hkeep

lemma stepExecution_write {F : String → Prop} :
    Write F s.toCore (stepExecution w s n thread pc input).toCore := by
  have hkeep : Write F s.toCore s.toCore := .keep rfl rfl ⟨[], rfl⟩
  have hmetadata : ∀ metadata, Write F s.toCore (s.withMetadata metadata).toCore :=
    fun _ => .keep rfl rfl ⟨[], rfl⟩
  unfold stepExecution
  split
  · split
    · exact hkeep
    · exact .keep rfl rfl ⟨[_], rfl⟩
  · exact hkeep
  · simp only
    split
    · rename_i store hput
      obtain ⟨-, rfl⟩ := Store.putRecovery_ok hput
      exact .put _
    · exact hkeep
  · exact hkeep
  · split
    · exact hkeep
    · exact .keep rfl rfl ⟨[_], rfl⟩
  · split
    · exact hkeep
    · exact .keep rfl rfl ⟨[_], rfl⟩
  · exact hkeep
  · exact hmetadata _
  · exact hkeep
  · exact hkeep
  · exact hmetadata _
  · exact hkeep
  · split
    · exact hkeep
    · split
      · rename_i store hsave
        obtain ⟨-, hempty, rfl⟩ := Store.saveResult_ok hsave
        exact .save _ _ hempty
      · exact hkeep
  · exact hkeep
  · exact hkeep

section CleanUp

variable {F : String → Prop} {c : Core} {record : RecoveryRecord} {stage stage' : Cleanup}
  {store : Store}

/-- A step of the clean-up touches metadata only, -/
lemma cleanupStep_write (hstep : cleanupStep c.store record stage input = .Goto store stage') :
    Write F c { c with store := store } := by
  unfold cleanupStep at hstep
  repeat' split at hstep
  all_goals first | cases hstep; exact .keep rfl rfl ⟨[], rfl⟩ | cases hstep

/-- and discards the record at its end. -/
lemma cleanupStep_discards (hF : stage = .Finish → F record.taskId)
    (hstep : cleanupStep c.store record stage input = .Finished store) :
    Write F c { c with store := store } := by
  obtain ⟨hstage, hfinish⟩ := cleanupStep_eq_finished hstep
  obtain ⟨-, rfl⟩ := Store.finishRecovery_ok hfinish
  exact .finish _ (hF hstage)

end CleanUp

/-- The tasks a request may discard the record of. -/
def Thread.finishing (self : Thread) (t : String) : Prop :=
  ∃ record, self.pc = .Clean record .Finish ∧ record.taskId = t

lemma stepEnd_write :
    Write thread.finishing s.toCore (stepEnd s n thread thread.pc input).toCore := by
  have hkeep : Write thread.finishing s.toCore s.toCore := .keep rfl rfl ⟨[], rfl⟩
  unfold stepEnd
  split
  · rename_i record stage hpc
    split
    · rename_i store stage' hstep
      exact cleanupStep_write hstep
    · exact hkeep
    · rename_i store hstep
      exact cleanupStep_discards (fun hfinish => ⟨record, hfinish ▸ hpc, rfl⟩) hstep
  · exact hkeep
  · exact hkeep
  · simp only
    split
    · rename_i store hdelete
      obtain ⟨-, -, rfl⟩ := Store.deleteResult_ok hdelete
      exact .forget _
    · exact hkeep
  all_goals exact hkeep

lemma stepThread_write :
    Write thread.finishing s.toCore (stepThread w s n thread input).toCore := by
  unfold stepThread
  split
  all_goals first
    | exact stepAdmission_write
    | exact stepExecution_write
    | exact stepEnd_write

/-! ## Recovery, and everything else -/

section Recovery

variable {todo : List RecoveryRecord} {stage : RecoverStage}

/-- The tasks recovery may discard the record of. -/
def Mode.finishing (self : Mode) (t : String) : Prop :=
  ∃ record rest, self = .Recovering (record :: rest) (.Clean .Finish) ∧ record.taskId = t

lemma stepRecover_write :
    Write (Mode.Recovering todo stage).finishing s.toCore
      (stepRecover w s todo stage input).toCore := by
  have hkeep : Write (Mode.Recovering todo stage).finishing s.toCore s.toCore :=
    .keep rfl rfl ⟨[], rfl⟩
  unfold stepRecover
  split
  · exact hkeep
  · split
    · exact hkeep
    · split
      · exact hkeep
      · split <;> exact hkeep
      · exact hkeep
  · exact hkeep
  · exact .keep rfl rfl ⟨[], rfl⟩
  · exact hkeep
  · split
    · exact hkeep
    · split
      · exact hkeep
      · split
        · rename_i store hsave
          obtain ⟨-, hempty, rfl⟩ := Store.saveResult_ok hsave
          exact .save _ _ hempty
        · exact hkeep
  · split
    · exact hkeep
    · rename_i record rest
      split
      · rename_i store stage' hstep
        exact cleanupStep_write hstep
      · exact hkeep
      · rename_i store hstep
        exact cleanupStep_discards (fun hfinish => ⟨record, rest, by rw [hfinish], rfl⟩) hstep
  · exact hkeep

/-- **Recovery starts nothing**, reserves nothing and deletes no result. -/
lemma stepRecover_log : (stepRecover w s todo stage input).log = s.log := by
  unfold stepRecover
  repeat' split
  all_goals rfl

end Recovery

/-- The tasks whose clean-up is through when the event comes. -/
def State.finishing (s : State) : Event → String → Prop
  | .Thread n _, t => ∃ thread, s.threads n = some thread ∧ thread.finishing t
  | .Recover _, t => s.mode.finishing t
  | _, _ => False

/-- **What a step writes.** -/
lemma step_write (s : State) (e : Event) : Write (s.finishing e) s.toCore (step w s e).toCore := by
  have hkeep : Write (s.finishing e) s.toCore s.toCore := .keep rfl rfl ⟨[], rfl⟩
  cases e with
  | Crash => exact .keep rfl rfl ⟨[_], rfl⟩
  | Boot =>
    simp only [step]
    split <;> exact hkeep
  | Recover input =>
    simp only [step]
    split
    · rename_i hmode
      exact stepRecover_write.mono fun t ht => show s.mode.finishing t from hmode ▸ ht
    · exact hkeep
  | Request request =>
    simp only [step]
    split
    · exact .keep rfl rfl ⟨[], rfl⟩
    · exact hkeep
  | Thread n input =>
    simp only [step]
    split
    · rename_i thread _ hthread
      exact stepThread_write.mono fun t ht => ⟨thread, hthread, ht⟩
    · exact hkeep
  | Guard n input =>
    simp only [step]
    split
    · unfold stepGuard
      repeat' split
      all_goals first | exact hkeep | exact .keep rfl rfl ⟨[], rfl⟩ | exact .keep rfl rfl ⟨[_], rfl⟩
    · exact hkeep
  | DeleteResult t =>
    simp only [step]
    split
    · unfold deleteSandboxResult
      split_ifs
      · exact hkeep
      · split
        · rename_i store hdelete
          obtain ⟨-, -, rfl⟩ := Store.deleteResult_ok hdelete
          exact .forget t
        · exact hkeep
    · exact hkeep

end Rauha.Sandbox
