import Rauha.Sandbox.AtMostOnce

/-!
# Every attempted task ends with a result

When `recover_tasks` returns, every task that was ever admitted, and whose result nobody deleted,
has a signed result, no recovery record and no container; a further recovery finds nothing to do.
A record goes only once what it stands for is gone.
-/

namespace Rauha.Sandbox

open Transition

variable {w : World} {s : State}

/-! ## When recovery returns -/

/-- Recovery returns when it has no record left. -/
lemma stepRecover_serving {todo : List RecoveryRecord} {stage : RecoverStage} {input : Input}
    (hmode : s.mode = .Recovering todo stage)
    (hserving : (stepRecover w s todo stage input).mode = .Serving) :
    todo = [] ∧ stepRecover w s todo stage input = { s with mode := .Serving } := by
  have hne : s.mode ≠ .Serving := by rw [hmode]; nofun
  unfold stepRecover at hserving ⊢
  repeat' split at hserving
  all_goals first
    | exact ⟨rfl, rfl⟩
    | exact absurd hserving hne
    | cases hserving

/-- **No record is left** in a state that recovery returns in. -/
lemma Inv.recovered {input : Input} (h : Inv w s) (hrec : s.mode ≠ .Serving)
    (hserving : (step w s (.Recover input)).mode = .Serving) :
    step w s (.Recover input) = { s with mode := .Serving } ∧ ∀ t, s.record t = none := by
  cases hmode : s.mode with
  | Recovering todo stage =>
    have hstep : step w s (.Recover input) = stepRecover w s todo stage input := by
      simp only [step, hmode]
    rw [hstep] at hserving ⊢
    obtain ⟨rfl, heq⟩ := stepRecover_serving hmode hserving
    refine ⟨heq, fun t => ?_⟩
    cases hrecord : s.record t with
    | none => rfl
    | some record => cases (h.recovering _ _ hmode).1.complete t record hrecord
  | Down =>
    have hstep : step w s (.Recover input) = s := by simp only [step, hmode]
    rw [hstep, hmode] at hserving
    cases hserving
  | Serving => exact absurd hmode hrec

/-- **A settled task**: a signed result, no record, no container. -/
structure Settled (w : World) (c : Core) (t : String) : Prop where
  result : ∃ bytes, c.result t = some bytes ∧ bytes ≠ [] ∧ Signed w.signer t bytes
  record : c.record t = none
  gone : Gone c t

lemma Shared.settled {c : Core} {t : String} (h : Shared w c) (hrecord : c.record t = none)
    (hattempted : Sandbox.attempted t c.log = true) : Settled w c t where
  result := by
    obtain ⟨hsome, hempty⟩ := h.attempted t hattempted
    obtain ⟨bytes, hresult⟩ := Option.ne_none_iff_exists'.mp hsome
    have hne : bytes ≠ [] := by
      rintro rfl
      exact hempty hresult hrecord
    exact ⟨bytes, hresult, hne, h.signed t bytes hresult hne⟩
  record := hrecord
  gone id hcreated := by
    cases hc : c.container id with
    | none => rfl
    | some container =>
      obtain ⟨-, record, hsome, -⟩ := h.covered t id container hcreated hc
      rw [hrecord] at hsome
      cases hsome

/-! ## Recovering again -/

/-- A crash, a start, or a step of recovery. -/
def Event.restarts : Event → Bool
  | .Crash | .Boot | .Recover _ => true
  | _ => false

/-- The store is as it was, without a record, and recovery has nothing to do. -/
structure Idle (store : Store) (s : State) : Prop where
  store_eq : s.store = store
  records : store.recoveryRecords = []
  mode : ∀ todo stage, s.mode = .Recovering todo stage → todo = [] ∧ stage = .Next

lemma Idle.step {store : Store} (e : Event) (he : e.restarts = true) (h : Idle store s) :
    Idle store (step w s e) := by
  cases e with
  | Crash => exact ⟨h.store_eq, h.records, fun _ _ heq => by cases heq⟩
  | Boot =>
    simp only [Sandbox.step]
    split
    · refine ⟨h.store_eq, h.records, fun todo stage heq => ?_⟩
      cases heq
      exact ⟨h.store_eq ▸ h.records, rfl⟩
    · exact h
  | Recover input =>
    simp only [Sandbox.step]
    split
    · rename_i todo stage hmode
      obtain ⟨rfl, rfl⟩ := h.mode _ _ hmode
      cases input with
      | Pass | Fail => exact ⟨h.store_eq, h.records, fun _ _ heq => by cases heq⟩
      | _ => exact h
    · exact h
  | Request | Thread | Guard | DeleteResult => cases he

/-- **A further recovery changes nothing**, crash and try again as it may. -/
lemma run_idle {store : Store} (es : List Event) (hes : ∀ e ∈ es, e.restarts = true)
    (h : Idle store s) : Idle store (run (step w) s es) := by
  induction es generalizing s with
  | nil => exact h
  | cons e es ih =>
    exact ih (fun e' he' => hes e' (List.mem_cons_of_mem _ he'))
      (h.step e (hes e List.mem_cons_self))

/-! ## When a record goes -/

/-- **A record goes last.** -/
lemma Inv.record_removed (h : Inv w s) {e : Event} {t : String} {record : RecoveryRecord}
    (hrecord : s.record t = some record) (hnone : (step w s e).record t = none) :
    Gone s.toCore t ∧ (record.cleanupZone = true → NoZone s.toCore record.zoneId) := by
  obtain ⟨hfinishing, -⟩ := (step_write (w := w) s e).record_removed (by rw [hrecord]; nofun) hnone
  cases e with
  | Thread n input =>
    obtain ⟨thread, hthread, held, hpc, htask⟩ := hfinishing
    have hholds := ((h.own n).held thread hthread).2.1
    rw [hpc] at hholds
    obtain ⟨-, hh, hzone, hgone⟩ := hholds
    have ht : thread.request.taskId = t := hh.task.symm.trans htask
    obtain ⟨stored, hstored, hm⟩ := hh.durable
    rw [ht, hrecord] at hstored
    cases hstored
    refine ⟨ht ▸ hgone, fun hcleanup => ?_⟩
    rw [hm.zoneId]
    exact hzone (hm.cleanupZone ▸ hcleanup)
  | Recover input =>
    obtain ⟨held, rest, hmode, htask⟩ := hfinishing
    obtain ⟨hpending, -, hzone, hgone⟩ := h.recovering _ _ hmode
    have hstored := hpending.stored held List.mem_cons_self
    rw [htask, hrecord] at hstored
    cases hstored
    exact ⟨htask ▸ hgone, hzone⟩
  | Crash | Boot | Request | Guard | DeleteResult => exact hfinishing.elim

/-! ## The result -/

/-- **Every attempted task ends with a durable result.**  In a state in which `recover_tasks`
    returns, each attempted task is settled and restarting again leaves the store alone; and in
    every state a record goes only after the containers and the zone it covers. -/
theorem attempted_tasks_settle (w : World) (host : Host) (es : List Event) :
    let s := run (step w) (init host) es
    (∀ input, s.mode ≠ .Serving → (step w s (.Recover input)).mode = .Serving →
      (∀ t, attempted t s.log = true → Settled w (step w s (.Recover input)).toCore t) ∧
      ∀ fs : List Event, (∀ e ∈ fs, e.restarts = true) →
        (run (step w) (step w s (.Recover input)) fs).store = (step w s (.Recover input)).store) ∧
    ∀ e t record, s.record t = some record → (step w s e).record t = none →
      Gone s.toCore t ∧ (record.cleanupZone = true → NoZone s.toCore record.zoneId) := by
  intro s
  have hinv : Inv w s := run_inv host es
  refine ⟨fun input hmode hserving => ?_, fun e t record => hinv.record_removed⟩
  obtain ⟨heq, hrecords⟩ := hinv.recovered hmode hserving
  rw [heq]
  refine ⟨fun t hattempted => hinv.shared.settled (hrecords t) hattempted, fun fs hfs => ?_⟩
  have hidle : Idle s.store { s with mode := .Serving } := by
    refine ⟨rfl, List.eq_nil_iff_forall_not_mem.mpr fun record hmem => ?_, nofun⟩
    have hsome := Store.mem_recoveryRecords.mp hmem
    rw [show s.store.recovery.lookup record.taskId = none from hrecords _] at hsome
    cases hsome
  exact (run_idle fs hfs hidle).store_eq

/-- Recovery of the task the daemon died over, up to its last step. -/
def recoveringRun : List Event :=
  startedRun ++ [.Boot, .Recover .Pass, .Recover .Pass, .Recover (.Logs ⟨[], [], []⟩),
    .Recover .Pass, .Recover .Pass, .Recover .Pass, .Recover .Pass, .Recover .Pass]

/-- The task the daemon died over is settled when recovery returns. -/
theorem attempted_tasks_settle_recoveringRun :
    Settled plainWorld
      (step plainWorld (run (step plainWorld) (init emptyHost) recoveringRun)
        (.Recover .Pass)).toCore sampleTask :=
  ((attempted_tasks_settle plainWorld emptyHost recoveringRun).1 .Pass (by decide +kernel)
    (by decide +kernel)).1 sampleTask (by decide +kernel)

end Rauha.Sandbox
