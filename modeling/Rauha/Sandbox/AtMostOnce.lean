import Rauha.Sandbox.Rows

/-!
# Tasks are executed at most once

For every run of the system, with any interleaving of requests, deletions, crashes and recoveries:
between a reservation and the deletion that follows it the container of a task is started at most
once, recovery starts nothing, and a result that is there stays as it is.
-/

namespace Rauha.Sandbox

open Transition

variable {w : World}

/-- The result is there, or its deletion is among what the log has gained since. -/
def Kept (t : String) (bytes : List UInt8) (older : List Entry) (s : State) : Prop :=
  ∃ newer, s.log = newer ++ older ∧ (Entry.Deleted t ∉ newer → s.result t = some bytes)

lemma Kept.step {t : String} {bytes : List UInt8} {older : List Entry} (hne : bytes ≠ [])
    (s : State) (e : Event) (h : Kept t bytes older s) : Kept t bytes older (step w s e) := by
  obtain ⟨newer, hlog, hkept⟩ := h
  have hwrite := step_write (w := w) s e
  obtain ⟨newer', hlog'⟩ := hwrite.log
  refine ⟨newer' ++ newer, by rw [hlog', hlog, List.append_assoc], fun hnot => ?_⟩
  rw [List.mem_append, not_or] at hnot
  rcases hwrite.result (hkept hnot.2) hne with hsame | hdeleted
  · exact hsame
  · have hnewer : newer' = [Entry.Deleted t] :=
      List.append_cancel_right (hlog'.symm.trans hdeleted)
    exact absurd (hnewer ▸ List.mem_singleton_self _) hnot.1

/-- **A result stays along a run**, as long as it is not deleted. -/
lemma run_kept {t : String} {bytes : List UInt8} (hne : bytes ≠ []) {s : State}
    (hresult : s.result t = some bytes) (es : List Event) :
    Kept t bytes s.log (run (step w) s es) :=
  run_invariant (.step hne) ⟨[], rfl, fun _ => hresult⟩ es

/-- **At most once.**  `mid` is any stretch of the log from a reservation of `t` on that has no
    deletion of its result. -/
theorem tasks_run_at_most_once (w : World) (host : Host) (es : List Event) (t : String) :
    let s := run (step w) (init host) es
    (∀ newer mid older, s.log = newer ++ (mid ++ Entry.Reserved t :: older) →
      Entry.Deleted t ∉ mid → mid.count (.Started t) ≤ 1) ∧
    (∀ input, (step w s (.Recover input)).log = s.log) ∧
    ∀ bytes, s.result t = some bytes → bytes ≠ [] → ∀ fs,
      Kept t bytes s.log (run (step w) s fs) := by
  intro s
  refine ⟨fun newer mid older hlog hnot => ?_, fun input => ?_, fun bytes hresult hne fs => ?_⟩
  · have hdisciplined : Disciplined s.log := (run_inv host es).shared.disciplined
    rw [hlog] at hdisciplined
    exact hdisciplined.starts_le_one hnot
  · simp only [step]
    split
    · exact stepRecover_log
    · rfl
  · exact run_kept hne hresult fs

/-! ## A run -/

def emptyHost : Host := ⟨.empty, fun _ _ _ _ h => by cases h⟩

def sampleTask : String := "task-00000000-0000-4000-8000-000000000000"

/-- A daemon comes up and a task with a temporary zone is admitted. -/
def admittedRun : List Event :=
  [.Boot, .Recover .Pass, .Request ⟨sampleTask, .Temporary false, ["true"], false⟩,
    .Thread 1 .Pass, .Thread 1 (.Draw "sandbox-0" none), .Thread 1 (.Report [] true),
    .Thread 1 .Pass]

/-- Its container is started, and the daemon dies over it. -/
def startedRun : List Event :=
  admittedRun ++ [.Thread 1 .Pass, .Thread 1 (.Image "sha256:0" true), .Thread 1 .Pass, .Crash]

/-- The one start of a task that the daemon died over. -/
theorem tasks_run_at_most_once_startedRun :
    [Entry.Crashed, .Started sampleTask, .Created sampleTask 3, .Admitted 1 sampleTask,
      .Zoned 1 2].count (.Started sampleTask) ≤ 1 :=
  (tasks_run_at_most_once plainWorld emptyHost startedRun sampleTask).1 [] _ []
    (by decide +kernel) (by decide +kernel)

end Rauha.Sandbox
