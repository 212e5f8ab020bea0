import Rauha.Common.Zone
import Rauha.Library.Transition

/-!
# Concurrent policy updates of one zone

`apply_policy` reads the record of the zone, has the backend load the policy, and writes the record
back with the policy in it.  It holds a lock that any number of such calls can hold, so the calls
interleave: between the backend and the store of one call, another call can go through both.

The backend ends up with the policy it accepted last, the store with the one that was written last.
`persisted_policy_accepted` says when these are the same.
-/

namespace Rauha.PolicyUpdates

open Transition

/-- A call, with the record it has read and the policy it applies. -/
structure Update where
  zone : Zone
  policy : ZonePolicy
  deriving DecidableEq, Repr

/-- The record it writes back. -/
def Update.record (update : Update) : Zone := { update.zone with policy := update.policy }

structure World where
  persisted : Zone
  /-- The policy the backend accepted last. -/
  accepted : ZonePolicy
  /-- The calls that have read the record. -/
  waiting : List Update
  /-- The calls whose policy has been accepted, in that order, and whose record is not written. -/
  reloaded : List Update
  deriving DecidableEq, Repr

inductive Event where
  | getZone (policy : ZonePolicy)
  /-- The backend loads the policy of a call, or refuses it and the call returns. -/
  | hotReloadPolicy (i : ℕ) (admitted : Bool)
  | putZone (i : ℕ)

namespace World

def step (w : World) : Event → World
  | .getZone policy => { w with waiting := w.waiting ++ [⟨w.persisted, policy⟩] }
  | .hotReloadPolicy i admitted =>
    match w.waiting[i]? with
    | some update =>
      if admitted then
        { w with
          waiting := w.waiting.eraseIdx i
          accepted := update.policy
          reloaded := w.reloaded ++ [update] }
      else { w with waiting := w.waiting.eraseIdx i }
    | none => w
  | .putZone i =>
    match w.reloaded[i]? with
    | some update =>
      { w with persisted := update.record, reloaded := w.reloaded.eraseIdx i }
    | none => w

/-- A zone with no call under way. -/
def settled (zone : Zone) : World := ⟨zone, zone.policy, [], []⟩

/-- The records are written in the order in which the policies were accepted: no other call is
    between the backend and the store for longer. -/
def InOrder (_ : World) : Event → Prop
  | .putZone i => i = 0
  | _ => True

/-- The backend has the policy of the call that it accepted last; once that is written, it is the
    persisted one. -/
def Latest (w : World) : Prop :=
  w.accepted = (w.reloaded.getLast?.map Update.policy).getD w.persisted.policy

lemma Latest.step {w : World} {e : Event} (h : Latest w) (horder : w.InOrder e) :
    Latest (w.step e) := by
  cases e with
  | getZone policy => exact h
  | hotReloadPolicy i admitted =>
    simp only [World.step]
    cases hupdate : w.waiting[i]? with
    | none => exact h
    | some update =>
      simp only
      split_ifs
      · simp [Latest]
      · exact h
  | putZone i =>
    obtain rfl : i = 0 := horder
    simp only [World.step]
    cases hreloaded : w.reloaded with
    | nil => exact h
    | cons update rest =>
      rw [Latest, hreloaded] at h
      cases rest with
      | nil => exact h
      | cons next rest =>
        have hlast := List.getLast?_eq_some_getLast (List.cons_ne_nil next rest)
        rw [List.getLast?_cons_cons, hlast] at h
        change w.accepted = ((next :: rest).getLast?.map _).getD _
        rw [hlast]
        exact h

end World

open World

/-- **The persisted policy is the enforced one**, whenever no call is between the backend and the
    store, in every run that writes the records in the order of acceptance. -/
theorem persisted_policy_accepted (zone : Zone) {es : List Event}
    (hes : Meets step InOrder (settled zone) es)
    (hdone : (run step (settled zone) es).reloaded = []) :
    (run step (settled zone) es).persisted.policy = (run step (settled zone) es).accepted := by
  have hstart : Latest (settled zone) := rfl
  have hlatest : Latest (run step (settled zone) es) :=
    Meets.invariant (fun _ _ h horder => h.step horder) hstart hes
  rw [Latest, hdone] at hlatest
  exact hlatest.symm

/-! ### Two calls at once -/

def hostPolicy (writablePaths : List String) : ZonePolicy :=
  ⟨.Audit, [], ⟨.Host, [], [], []⟩, writablePaths, []⟩

def hostZone : Zone := ⟨1, "web", .NonGlobal, hostPolicy [], none⟩

theorem persisted_policy_accepted_twice :
    (run step (settled hostZone) [.getZone (hostPolicy ["/a"]), .getZone (hostPolicy ["/b"]),
      .hotReloadPolicy 0 true, .hotReloadPolicy 0 true, .putZone 0, .putZone 0]).persisted.policy =
      hostPolicy ["/b"] :=
  persisted_policy_accepted hostZone ⟨trivial, trivial, trivial, trivial, rfl, rfl, trivial⟩ rfl

/-- **The wrong policy is persisted** when the second call overtakes the first. -/
theorem overtaken_policy_persisted :
    let w := run step (settled hostZone)
      [.getZone (hostPolicy ["/a"]), .getZone (hostPolicy ["/b"]),
        .hotReloadPolicy 0 true, .hotReloadPolicy 0 true, .putZone 1, .putZone 0]
    w.waiting = [] ∧ w.reloaded = [] ∧ w.persisted.policy = hostPolicy ["/a"] ∧
      w.accepted = hostPolicy ["/b"] ∧ hostPolicy ["/a"] ≠ hostPolicy ["/b"] := by
  decide

end Rauha.PolicyUpdates
