import Rauha.Sandbox.Recovered

/-!
# Temporary zones

A temporary zone is created before the recovery record that covers it is written.  From the record
on, the zone is deleted before the record goes, so a recovery that returns has left none of them
behind.  Before that, the zone is looked after by the request and then by its guard, both of which
die with the daemon: a crash in between leaves the zone for explicit cleanup.
-/

namespace Rauha.Sandbox

open Transition

variable {w : World} {s : State}

/-- **The zone of an admitted request is covered** by a durable record as long as it is there. -/
lemma Inv.covers (h : Inv w s) {n id : ℕ} {name : String} {zone : Zone}
    (hz : zoneOf n s.log = some id) (hzone : s.zone name = some zone) (hid : zone.id = id)
    (hadm : admitted n s.log = true) :
    ∃ t record, s.record t = some record ∧ record.cleanupZone = true ∧ record.zoneId = id :=
  h.shared.temp n id name zone hz hadm hzone hid

/-- **Who looks after a temporary zone.**  The zone of an admitted request is covered by a record,
    and gone once recovery returns.  One whose request was never admitted is guarded by the request
    itself, or is being deleted, or was lost to a crash or to a failed deletion. -/
theorem temp_zones_looked_after (w : World) (host : Host) (es : List Event) (n id : ℕ)
    (name : String) (zone : Zone) :
    let s := run (step w) (init host) es
    zoneOf n s.log = some id → s.zone name = some zone → zone.id = id →
      (admitted n s.log = true →
        (∃ t record, s.record t = some record ∧ record.cleanupZone = true ∧ record.zoneId = id) ∧
        ∀ input, s.mode ≠ .Serving → (step w s (.Recover input)).mode ≠ .Serving) ∧
      (admitted n s.log = false →
        lost n s.log = true ∨ (∃ thread, s.threads n = some thread ∧ Guarded thread.pc) ∨
          s.guards n ≠ none) := by
  intro s hz hzone hid
  have hinv : Inv w s := run_inv host es
  refine ⟨fun hadm => ?_, fun hadm => ?_⟩
  · obtain ⟨t, record, hrecord, hcleanup, heq⟩ := hinv.covers hz hzone hid hadm
    refine ⟨⟨t, record, hrecord, hcleanup, heq⟩, fun input hmode hserving => ?_⟩
    rw [(hinv.recovered hmode hserving).2 t] at hrecord
    cases hrecord
  · rcases (hinv.own n).zoned id name zone hz hzone hid with hadm' | hrest
    · rw [hadm] at hadm'
      cases hadm'
    · exact hrest

/-- The zone of an admitted task is on record. -/
theorem temp_zones_looked_after_admittedRun :
    let s := run (step plainWorld) (init emptyHost) admittedRun
    ∃ t record, s.record t = some record ∧ record.cleanupZone = true ∧ record.zoneId = 2 :=
  ((temp_zones_looked_after plainWorld emptyHost admittedRun 1 2 "sandbox-0"
    ⟨2, "sandbox-0", .NonGlobal, ⟨.Strict, [], ⟨.Isolated, [], [], []⟩, [], []⟩, none⟩
    (by decide +kernel) (by decide +kernel) rfl).1 (by decide +kernel)).1

/-- A daemon dies between the creation of a temporary zone and the record of its task, comes up
    again, and recovers. -/
def unrecordedRun : List Event :=
  [.Boot, .Recover .Pass, .Request ⟨sampleTask, .Temporary false, ["true"], false⟩,
    .Thread 1 .Pass, .Thread 1 (.Draw "sandbox-0" none), .Crash, .Boot, .Recover .Pass]

/-- **A temporary zone is left behind**: recovery has returned, no request is executing, and the
    zone is still there without a record. -/
theorem temp_zone_left_behind :
    let s := run (step plainWorld) (init emptyHost) unrecordedRun
    s.mode = .Serving ∧ zoneOf 1 s.log = some 2 ∧ s.threads 1 = none ∧ s.guards 1 = none ∧
      (s.zone "sandbox-0").map Zone.id = some 2 ∧ s.store.recoveryRecords = [] := by
  refine ⟨by decide +kernel, by decide +kernel, by decide +kernel, by decide +kernel,
    by decide +kernel, by decide +kernel⟩

/-- **Nothing of a task is out of sight.**  After every run, a container that was created for a task
    and is still there has the task's name and is owned by its recovery record, with a result
    reserved; a stored result is signed for its task; and no two requests in progress hold one
    reservation. -/
theorem tasks_accounted_for (w : World) (host : Host) (es : List Event) :
    let s := run (step w) (init host) es
    (∀ t id container, creator id s.log = some t → s.container id = some container →
      container.name = containerName t ∧ s.result t ≠ none ∧
        ∃ record, s.record t = some record ∧ record.owns container = true) ∧
    (∀ t bytes, s.result t = some bytes → bytes ≠ [] → Signed w.signer t bytes) ∧
    ∀ n n' thread thread', s.threads n = some thread → s.threads n' = some thread' →
      thread.pc ≠ .Reserve → thread'.pc ≠ .Reserve →
      thread.request.taskId = thread'.request.taskId → n = n' := by
  intro s
  have hinv : Inv w s := run_inv host es
  refine ⟨fun t id container hcreator hcontainer => ?_, hinv.shared.signed, hinv.unique⟩
  obtain ⟨hname, record, hrecord, howns⟩ := hinv.shared.covered t id container hcreator hcontainer
  exact ⟨hname, hinv.shared.record_result t record hrecord, record, hrecord, howns⟩

end Rauha.Sandbox
