import Rauha.Backend.Host
import Rauha.Library.Framing

/-!
# What the calls leave alone

A call of the backend changes cgroups, or interfaces, or one of the maps.  Each rule here says which
part that is: the call keeps every view of the state that does not look at it.
-/

namespace Rauha.Backend

open CrashLogic

variable {site : Site} {e : RauhaError}

section Linux

variable {env : Env} {op : Op} {name : String} {τ : Type} {g : Linux → τ}

lemma osCall_keeps {f : Linux → Linux} (h : ∀ s, g (f s) = g s) :
    Keeps g (osCall env op name site e f) := .judged h

/-! ## Cgroups -/

lemma cgroupIdForZone_keeps : Keeps g (cgroupIdForZone env op name) :=
  .bind (osCall_keeps fun _ => rfl) fun _ => .bind .getState fun _ => .ofExcept

lemma createZoneCgroup_keeps (h : ∀ s slice, g { s with slice := slice } = g s) :
    Keeps g (createZoneCgroup env op name) :=
  .bind .getState fun _ => .bind .failIf fun _ =>
    .bind (osCall_keeps fun s => h s _) fun _ => cgroupIdForZone_keeps

lemma destroyZoneCgroup_keeps (h : ∀ s slice, g { s with slice := slice } = g s) :
    Keeps g (destroyZoneCgroup env op name) := by
  refine .bind .getState fun self => ?_
  cases self.slice.get name with
  | none => exact .pure
  | some cg => exact .bind .failIf fun _ => osCall_keeps fun s => h s _

lemma zoneHasProcesses_keeps : Keeps g (zoneHasProcesses env op name site) :=
  .bind (osCall_keeps fun _ => rfl) fun _ => .bind .getState fun _ => .ofExcept

lemma drainZone_keeps (h : ∀ s slice, g { s with slice := slice } = g s) :
    Keeps g (drainZone env op name) := by
  refine .bind .getState fun self => ?_
  cases self.slice.get name with
  | none => exact .pure
  | some cg =>
    refine .bind zoneHasProcesses_keeps fun live => ?_
    cases live with
    | false => exact .pure
    | true =>
      exact .bind (osCall_keeps fun s => h s _) fun _ =>
        .bind zoneHasProcesses_keeps fun _ => .failIf

/-! ## Network -/

lemma createNetns_keeps (h : ∀ s netns, g { s with netns := netns } = g s) :
    Keeps g (createNetns env op name) := osCall_keeps fun s => h s _

lemma destroyNetns_keeps (h : ∀ s netns, g { s with netns := netns } = g s) :
    Keeps g (destroyNetns env op name) :=
  .bind .getState fun _ => .ite (osCall_keeps fun s => h s _) .pure

lemma createVethPair_keeps (h : ∀ s veths, g { s with veths := veths } = g s) :
    Keeps g (createVethPair env op name) := by
  refine .bind (osCall_keeps fun s => h s _) fun _ =>
    .bind (.attempt (osCall_keeps fun _ => rfl)) fun configured => ?_
  cases configured with
  | ok => exact .pure
  | error e =>
    exact .bind (.ignore (osCall_keeps fun s => h s _)) fun _ => .raise

lemma destroyVethPair_keeps (h : ∀ s veths, g { s with veths := veths } = g s) :
    Keeps g (destroyVethPair env op name) :=
  .bind .getState fun _ => .ite (osCall_keeps fun s => h s _) .pure

lemma allocateIp_keeps (h : ∀ s a, g { s with ipAllocator := a } = g s) : Keeps g allocateIp :=
  .bind .getState fun _ => .bind .ofExcept fun _ =>
    .bind (.update fun s => h s _) fun _ => .pure

end Linux

section Host

variable {cfg : HostConfig} {env : HostEnv} {op : Op} {name : String} {τ : Type} {g : Host → τ}

variable {f : Host → Host}

lemma hostCall_keeps (h : ∀ s, g (f s) = g s) :
    Keeps g (hostCall env op name site e f) := .judged h

lemma partCall_keeps {part : Host → Host} (hf : ∀ s, g (f s) = g s)
    (hpart : ∀ s, g (part s) = g s) : Keeps g (partCall env op name site e f part) := by
  intro plan s
  unfold partCall
  cases env.verdict op name site with
  | ok => exact hf s
  | err => exact hpart s
  | cut => exact hpart s

variable {control : String}

lemma recordDegradation_keeps (h : ∀ s degraded, g { s with zoneDegradations := degraded } = g s) :
    Keeps g (recordDegradation name control) := .update fun s => h s _

lemma orDegrade_keeps {admission : PolicyAdmission} {c : HostM Unit}
    (h : ∀ s degraded, g { s with zoneDegradations := degraded } = g s) (hc : Keeps g c) :
    Keeps g (orDegrade name admission control c) := by
  refine .bind (.attempt hc) fun outcome => ?_
  cases outcome with
  | ok => exact .pure
  | error e =>
    cases admission with
    | Strict => exact .raise
    | Audit => exact recordDegradation_keeps h

lemma applyNftablesForZone_keeps {policy : FullPolicy}
    (hdegraded : ∀ s degraded, g { s with zoneDegradations := degraded } = g s)
    (hrules : ∀ s rules, g { s with rules := rules } = g s) :
    Keeps g (applyNftablesForZone cfg env op name policy) :=
  orDegrade_keeps hdegraded <| .bind
    (.bind .ofExcept fun _ => .bind (.update fun s => hrules s _) fun _ =>
      hostCall_keeps fun s => hrules s _)
    fun _ => .update fun s => hdegraded s _

lemma applyLimits_keeps {resources : ResourcePolicy}
    (h : ∀ s limits, g { s with limits := limits } = g s) :
    Keeps g (applyLimits env op name resources) := by
  have hwrite : ∀ writes s, g (writeLimits name writes s) = g s := by
    intro writes s
    unfold writeLimits
    cases s.slice.get name with
    | some cg => exact h s _
    | none => rfl
  exact .bind .getState fun _ => .bind .failIf fun _ =>
    partCall_keeps (hwrite _) (hwrite _)

lemma releaseIp_keeps {net : Option ZoneNetworkState}
    (h : ∀ s a, g { s with ipAllocator := a } = g s) : Keeps g (Host.releaseIp net) := by
  cases net with
  | none => exact .pure
  | some net => exact .update fun s => h s _

end Host

end Rauha.Backend
