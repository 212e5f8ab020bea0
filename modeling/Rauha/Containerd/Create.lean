import Rauha.Backend.Registry
import Rauha.Network.Endpoint
import Rauha.Sandbox.Seal

/-!
# Tasks of the containerd shim

`RauhaShim` turns containerd's task calls into requests to the daemon: a sandbox becomes a zone, and
a container of the sandbox a container in that zone.  A request may be refused, or be carried out
with its answer lost.  `made` remembers what the daemon has made for an id.

The name of a zone is made from twelve bytes of the sandbox id, so pods are kept apart exactly if
their ids have such a beginning and no common one (`pods_apart_iff`).
-/

namespace Rauha.Containerd

open Sandbox List Function

/-- What the shim keeps about a task.  A sandbox has no id at the daemon. -/
structure ContainerState where
  rauhaId : Option ℕ
  zoneName : String
  isSandbox : Bool

/-- The shim of a pod; `client` says whether there is a connection to the daemon. -/
structure RauhaShim where
  client : Bool
  containers : String → Option ContainerState
  zoneName : Option String

/-- The zones and containers of the daemon. -/
structure Daemon where
  zones : String → Option ℕ
  containers : ℕ → Option (String × Rauha.ContainerState)
  next : ℕ

/-- A zone or a container, with the zone it is in. -/
inductive Object where
  | Zone (name : String) (uuid : ℕ)
  | Container (zone : String) (uuid : ℕ)

def Object.zone : Object → String
  | .Zone name _ | .Container name _ => name

def Object.uuid : Object → ℕ
  | .Zone _ uuid | .Container _ uuid => uuid

/-- The object is there. -/
def Daemon.Has (d : Daemon) : Object → Prop
  | .Zone name uuid => d.zones name = some uuid
  | .Container _ uuid => d.containers uuid ≠ none

/-- The shim and the daemon, with what has been made for each id. -/
structure World where
  shim : RauhaShim
  daemon : Daemon
  made : String → List Object

/-- The error a create call returns. -/
inductive Error where
  | Other (message : String)

/-- What becomes of a request. -/
inductive Rpc where
  | Done
  | Lost (e : String)
  | Refused (e : String)

/-- The daemon does what it is asked. -/
def Rpc.carried : Rpc → Bool
  | .Refused _ => false
  | _ => true

/-- What the shim hears of it. -/
def Rpc.answer : Rpc → Except String Unit
  | .Done => .ok ()
  | .Lost e | .Refused e => .error e

/-- What a call meets. -/
structure Env where
  connects : Except String Unit
  rpc : Rpc

/-- The annotations of a bundle, if they can be read, and its specification. -/
structure Bundle where
  annotations : Option (Option String × Option String)
  spec : Except String Unit

/-! ## The calls -/

/-- The connection to the daemon, made if needed. -/
def RauhaShim.getClient (shim : RauhaShim) (env : Env) : Except Error RauhaShim :=
  if shim.client then .ok shim
  else
    match env.connects with
    | .error e => .error (.Other ("failed to connect to rauhad: " ++ e))
    | .ok () => .ok { shim with client := true }

/-- A zone name from the first twelve bytes of an id, which panics inside a character. -/
def zoneNameForSandbox (sandboxId : String) : Option String :=
  (if 12 < byteLength sandboxId.toList then takeBytes 12 sandboxId.toList
    else some sandboxId.toList).map fun short => "k8s-" ++ String.ofList short

/-- Whether a bundle is that of a sandbox, and the sandbox it names. -/
def readContainerType (bundle : Bundle) : Bool × Option String :=
  match bundle.annotations with
  | none => (false, none)
  | some (containerType, sandboxId) => (containerType = some "sandbox", sandboxId)

/-- The zone of a task: `none` is a panic. -/
def zoneOf (shim : RauhaShim) (id : String) (bundle : Bundle) : Option (Option String) :=
  match readContainerType bundle with
  | (true, _) => (zoneNameForSandbox id).map some
  | (false, some sandboxId) => (zoneNameForSandbox sandboxId).map some
  | (false, none) => some shim.zoneName

namespace World

variable (w : World) (env : Env) (id : String)

/-- What the shim keeps about the task. -/
def setTask (state : Option ContainerState) : World :=
  { w with shim := { w.shim with containers := Function.update w.shim.containers id state } }

/-- The daemon makes an object for a task. -/
def make (o : Object) (daemon : Daemon) : World :=
  { w with
    daemon := { daemon with next := daemon.next + 1 }
    made := Function.update w.made id (o :: w.made id) }

/-- The request for a zone. -/
def createZone (name : String) : Except String Unit × World :=
  if w.daemon.zones name ≠ none then (.error "already exists", w)
  else if env.rpc.carried then
    (env.rpc.answer, w.make id (.Zone name w.daemon.next)
      { w.daemon with zones := Function.update w.daemon.zones name (some w.daemon.next) })
  else (env.rpc.answer, w)

/-- The request for a container in a zone. -/
def createContainer (zone : String) : Except String Unit × World :=
  if w.daemon.zones zone = none then (.error "not found", w)
  else if env.rpc.carried then
    (env.rpc.answer, w.make id (.Container zone w.daemon.next)
      { w.daemon with
        containers := Function.update w.daemon.containers w.daemon.next (some (zone, .Created)) })
  else (env.rpc.answer, w)

/-- **`create`**: a zone for a sandbox, and a container for anything else; `none` is a panic. -/
def create (bundle : Bundle) : Option (Except Error Unit) × World :=
  match w.shim.getClient env with
  | .error e => (some (.error e), w)
  | .ok shim =>
    let w := { w with shim := shim }
    match zoneOf shim id bundle with
    | none => (none, w)
    | some none => (some (.error (.Other "no sandbox zone")), w)
    | some (some zone) =>
      if (readContainerType bundle).1 then
        match w.createZone env id zone with
        | (.error e, w) => (some (.error (.Other ("zone create failed: " ++ e))), w)
        | (.ok (), w) =>
          (some (.ok ()), { w with shim := { w.shim with zoneName := some zone } }.setTask id
            (some ⟨none, zone, true⟩))
      else
        match bundle.spec with
        | .error e => (some (.error (.Other e)), w)
        | .ok () =>
          match w.createContainer env id zone with
          | (.error e, w) => (some (.error (.Other ("container create failed: " ++ e))), w)
          | (.ok (), w') =>
            (some (.ok ()), w'.setTask id (some ⟨some w.daemon.next, zone, false⟩))

end World

/-- Neither the shim nor the daemon has anything. -/
def initial : World where
  shim := ⟨false, fun _ => none, none⟩
  daemon := ⟨fun _ => none, fun _ => none, 0⟩
  made := fun _ => []

/-! ## What a create call does -/

/-- The shim can tell the daemon about the object. -/
def ContainerState.Names (state : ContainerState) : Object → Prop
  | .Zone name _ => state.isSandbox = true ∧ state.zoneName = name
  | .Container _ uuid => state.isSandbox = false ∧ state.rauhaId = some uuid

/-- A create call makes nothing, or one object for its task, which it notes if the answer comes. -/
inductive Creates (w : World) (env : Env) (id : String) (bundle : Bundle) :
    Option (Except Error Unit) × World → Prop
  | keep {answer : Option (Except Error Unit)} {shim : RauhaShim}
      (hshim : shim.containers = w.shim.containers)
      (hclient : w.shim.client = true → shim.client = true)
      (hpanic : answer = none → ∃ shim, zoneOf shim id bundle = none) :
      Creates w env id bundle (answer, { w with shim := shim })
  | make {answer : Except Error Unit} {shim : RauhaShim} {o : Object} {daemon : Daemon}
      (hzone : ∃ shim, zoneOf shim id bundle = some (some o.zone))
      (huuid : o.uuid = w.daemon.next) (hnext : daemon.next = w.daemon.next)
      (hhas : ∀ o', o'.uuid < w.daemon.next → daemon.Has o' → w.daemon.Has o')
      (hclient : shim.client = true)
      (hshim : (∃ e, env.rpc = .Lost e) ∧ shim.containers = w.shim.containers ∨
        ∃ state, shim.containers = Function.update w.shim.containers id (some state) ∧
          state.Names o) :
      Creates w env id bundle (some answer, { w.make id o daemon with shim := shim })

lemma getClient_ok {shim shim' : RauhaShim} {env : Env} (h : shim.getClient env = .ok shim') :
    shim'.containers = shim.containers ∧ shim'.client = true := by
  unfold RauhaShim.getClient at h
  split at h
  · cases h
    exact ⟨rfl, by assumption⟩
  · split at h <;> cases h
    exact ⟨rfl, rfl⟩

section

variable {w : World} {zone : String} {o : Object}

lemma has_of_zones (hlt : o.uuid < w.daemon.next) (h : Daemon.Has { w.daemon with
    zones := update w.daemon.zones zone (some w.daemon.next) } o) : w.daemon.Has o := by
  cases o with
  | Zone name uuid =>
    simp only [Daemon.Has, update_apply] at h
    split_ifs at h
    · cases h
      exact absurd hlt (Nat.lt_irrefl _)
    · exact h
  | Container _ uuid => exact h

lemma has_of_containers {c : Option (String × Rauha.ContainerState)}
    (hlt : o.uuid < w.daemon.next) (h : Daemon.Has { w.daemon with
      containers := update w.daemon.containers w.daemon.next c } o) :
    w.daemon.Has o := by
  cases o with
  | Zone name uuid => exact h
  | Container _ uuid =>
    have hne : uuid ≠ w.daemon.next := Nat.ne_of_lt hlt
    simp only [Daemon.Has] at h
    rwa [update_of_ne hne] at h

/-- **Every create call** is of this form. -/
lemma create_creates (w : World) (env : Env) (id : String) (bundle : Bundle) :
    Creates w env id bundle (w.create env id bundle) := by
  unfold World.create
  cases hclient : w.shim.getClient env with
  | error e => exact .keep rfl (fun h => h) nofun
  | ok shim =>
    obtain ⟨hshim, hclient⟩ := getClient_ok hclient
    have hnoted : ∀ state, update shim.containers id state =
        update w.shim.containers id state := fun _ => by rw [hshim]
    simp only
    split
    · rename_i hpanic
      exact .keep hshim (fun _ => hclient) fun _ => ⟨shim, hpanic⟩
    · exact .keep hshim (fun _ => hclient) nofun
    · rename_i zone hzone
      split_ifs
      · unfold World.createZone
        cases hrpc : env.rpc <;> simp only [Rpc.carried, Rpc.answer] <;> split_ifs
        any_goals first | contradiction | exact .keep hshim (fun _ => hclient) nofun
        · exact .make ⟨shim, hzone⟩ rfl rfl (fun _ => has_of_zones) hclient
            (Or.inr ⟨_, hnoted _, rfl, rfl⟩)
        · exact .make ⟨shim, hzone⟩ rfl rfl (fun _ => has_of_zones) hclient
            (Or.inl ⟨⟨_, hrpc⟩, hshim⟩)
      · cases bundle.spec with
        | error e => exact .keep hshim (fun _ => hclient) nofun
        | ok _ =>
          unfold World.createContainer
          cases hrpc : env.rpc <;> simp only [Rpc.carried, Rpc.answer] <;> split_ifs
          any_goals first | contradiction | exact .keep hshim (fun _ => hclient) nofun
          · exact .make ⟨shim, hzone⟩ rfl rfl (fun _ => has_of_containers) hclient
              (Or.inr ⟨_, hnoted _, rfl, rfl⟩)
          · exact .make ⟨shim, hzone⟩ rfl rfl (fun _ => has_of_containers) hclient
              (Or.inl ⟨⟨_, hrpc⟩, hshim⟩)

end

/-! ## Pods -/

section Pods

variable {p q text : List Char} {id a b zone : String}

@[simp] lemma byteLength_nil : byteLength [] = 0 := rfl

@[simp] lemma byteLength_cons {c : Char} : byteLength (c :: p) = c.utf8Size + byteLength p := rfl

lemma eq_of_byteLength_le (hp : p <+: q) (h : byteLength q ≤ byteLength p) : p = q := by
  obtain ⟨r, rfl⟩ := hp
  cases r with
  | nil => rw [append_nil]
  | cons c r =>
    have hpos := c.utf8Size_pos
    simp only [byteLength, map_append, sum_append, map_cons, sum_cons] at h
    omega

/-- The beginning of a text in bytes, if it ends with a character. -/
lemma takeBytes_spec {n : ℕ} :
    takeBytes n text = some p ↔
      p <+: text ∧ (byteLength p = n ∨ p = text ∧ byteLength text < n) := by
  fun_induction takeBytes n text generalizing p with
  | case1 text =>
    rw [Option.some.injEq]
    constructor
    · rintro rfl
      exact ⟨List.nil_prefix, .inl rfl⟩
    · rintro ⟨-, h | ⟨-, h⟩⟩
      · exact eq_of_byteLength_le List.nil_prefix h.le
      · omega
  | case2 n =>
    rw [Option.some.injEq, prefix_nil]
    exact ⟨fun h => ⟨h.symm, .inr ⟨h.symm, Nat.succ_pos n⟩⟩, fun h => h.1.symm⟩
  | case3 n c text hc ih =>
    rw [Option.map_eq_some_iff, prefix_cons_iff]
    constructor
    · rintro ⟨p, hp, rfl⟩
      obtain ⟨hstart, h | ⟨rfl, h⟩⟩ := ih.mp hp
      · exact ⟨.inr ⟨p, rfl, hstart⟩, .inl (by rw [byteLength_cons]; omega)⟩
      · exact ⟨.inr ⟨p, rfl, hstart⟩, .inr ⟨rfl, by rw [byteLength_cons]; omega⟩⟩
    · rintro ⟨rfl | ⟨p, rfl, hstart⟩, h⟩
      · simp at h
      · refine ⟨p, ih.mpr ⟨hstart, ?_⟩, rfl⟩
        simp only [byteLength_cons, List.cons.injEq, true_and] at h
        exact h.imp (by omega) fun h => ⟨h.1, by omega⟩
  | case4 n c text hc =>
    refine ⟨nofun, fun ⟨hp, h⟩ => ?_⟩
    rcases prefix_cons_iff.mp hp with rfl | ⟨p, rfl, -⟩
    · simp at h
    · simp only [byteLength_cons, List.cons.injEq, true_and] at h
      omega

/-- The part of an id that goes into the name of its zone. -/
def Short (id : String) (p : List Char) : Prop :=
  p <+: id.toList ∧ (byteLength p = 12 ∨ p = id.toList ∧ byteLength p ≤ 12)

lemma zoneNameForSandbox_eq :
    zoneNameForSandbox id = some zone ↔ ∃ p, Short id p ∧ "k8s-" ++ String.ofList p = zone := by
  rw [zoneNameForSandbox, Option.map_eq_some_iff]
  refine exists_congr fun p => and_congr_left fun _ => ?_
  split_ifs with h
  · rw [takeBytes_spec]
    refine and_congr_right fun _ => or_congr_right ⟨fun ⟨hp, _⟩ => ⟨hp, by omega⟩, ?_⟩
    rintro ⟨rfl, hle⟩
    omega
  · rw [Option.some.injEq]
    constructor
    · rintro rfl
      exact ⟨prefix_refl _, .inr ⟨rfl, by omega⟩⟩
    · rintro ⟨hp, hlen | ⟨hp, -⟩⟩
      · exact (eq_of_byteLength_le hp (by omega)).symm
      · exact hp.symm

/-- A task of a pod: the sandbox itself, or a container whose annotation names it. -/
def Belongs (sandboxId id : String) (bundle : Bundle) : Prop :=
  (readContainerType bundle).1 = true ∧ id = sandboxId ∨
    readContainerType bundle = (false, some sandboxId)

/-- No create call for a task of the pod panics, and what it makes is in this zone. -/
def Places (sandboxId zone : String) : Prop :=
  ∀ (w : World) env id bundle, Belongs sandboxId id bundle → (w.create env id bundle).1 ≠ none ∧
    ∀ o ∈ (w.create env id bundle).2.made id, o ∈ w.made id ∨ o.zone = zone

lemma zoneOf_of_belongs {shim : RauhaShim} {bundle : Bundle} (h : Belongs a id bundle) :
    zoneOf shim id bundle = (zoneNameForSandbox a).map some := by
  rw [zoneOf]
  rcases h with ⟨htype, rfl⟩ | htype
  · split <;> simp_all
  · rw [htype]

lemma places_iff : Places a zone ↔ zoneNameForSandbox a = some zone := by
  constructor
  · intro h
    obtain ⟨hcalm, hmade⟩ := h initial ⟨.ok (), .Done⟩ a ⟨some (some "sandbox", none), .ok ()⟩
      (Or.inl ⟨rfl, rfl⟩)
    cases hname : zoneNameForSandbox a with
    | none => simp [World.create, RauhaShim.getClient, zoneOf, readContainerType, initial, hname]
        at hcalm
    | some name =>
      have hzone := hmade (.Zone name 0) (by
        simp [World.create, RauhaShim.getClient, zoneOf, readContainerType, initial, hname,
          World.createZone, Rpc.carried, Rpc.answer, World.make, World.setTask])
      rcases hzone with hold | hzone
      · cases hold
      · rw [show name = zone from hzone]
  · intro h w env id bundle hpod
    have hzone := fun shim => @zoneOf_of_belongs _ _ shim _ hpod
    simp only [h, Option.map_some] at hzone
    have hcreate := create_creates w env id bundle
    generalize w.create env id bundle = result at hcreate ⊢
    cases hcreate with
    | keep _ _ hpanic =>
      refine ⟨fun hnone => ?_, fun o ho => Or.inl ho⟩
      obtain ⟨shim, hshim⟩ := hpanic hnone
      rw [hzone] at hshim
      cases hshim
    | make hmade =>
      obtain ⟨shim, hshim⟩ := hmade
      refine ⟨nofun, fun o ho => ?_⟩
      simp only [World.make, update_self] at ho
      rcases mem_cons.mp ho with rfl | hold
      · rw [hzone] at hshim
        cases hshim
        exact Or.inr rfl
      · exact Or.inl hold

/-- **Two pods are kept apart** exactly if neither id has a character across its twelfth byte, and
    they have no twelve bytes in common. -/
theorem pods_apart_iff (a b : String) (hne : a ≠ b) :
    (∃ x y, x ≠ y ∧ Places a x ∧ Places b y) ↔ (∃ p, Short a p) ∧ (∃ p, Short b p) ∧
      ¬∃ p, byteLength p = 12 ∧ p <+: a.toList ∧ p <+: b.toList := by
  simp only [places_iff, zoneNameForSandbox_eq]
  constructor
  · rintro ⟨_, _, hdiffer, ⟨p, hp, rfl⟩, ⟨q, hq, rfl⟩⟩
    refine ⟨⟨p, hp⟩, ⟨q, hq⟩, fun ⟨r, hr, ha, hb⟩ => hdiffer ?_⟩
    have hunique : ∀ {id p}, Short id p → r <+: id.toList → r = p := by
      rintro id p ⟨hp, hlen⟩ hr'
      have hle : byteLength p ≤ byteLength r := by omega
      rcases List.prefix_or_prefix_of_prefix hr' hp with h | h
      · exact eq_of_byteLength_le h hle
      · rcases hlen with hlen | ⟨rfl, -⟩
        · exact (eq_of_byteLength_le h (by omega)).symm
        · exact eq_of_byteLength_le hr' hle
    rw [← hunique hp ha, ← hunique hq hb]
  · rintro ⟨⟨p, hp⟩, ⟨q, hq⟩, hnone⟩
    refine ⟨_, _, fun heq => ?_, ⟨p, hp, rfl⟩, ⟨q, hq, rfl⟩⟩
    obtain rfl : p = q := by simpa using congrArg String.toList heq
    rcases hp.2, hq.2 with ⟨h | ⟨h, -⟩, h' | ⟨h', -⟩⟩
    · exact hnone ⟨p, h, hp.1, hq.1⟩
    · exact hnone ⟨p, h, hp.1, hq.1⟩
    · exact hnone ⟨p, h', hp.1, hq.1⟩
    · exact hne (String.toList_inj.mp (h.symm.trans h'))

end Pods

/-- Two ids as containerd makes them, with different beginnings. -/
theorem pods_apart_ids :
    ∃ x y, x ≠ y ∧ Places "4f53cda18c2baa0c0354bb5f9a3ecbe5ed12ab4d8e11ba873c2f11161202b945" x ∧
      Places "9f86d081884c7d659a2feaa0c55ad015a3bf4f1b2b0b822cd15d6c15b0f00a08" y := by
  refine (pods_apart_iff _ _ (by decide)).mpr
    ⟨⟨"4f53cda18c2b".toList, by decide, .inl (by decide)⟩,
      ⟨"9f86d081884c".toList, by decide, .inl (by decide)⟩, ?_⟩
  rintro ⟨p, hlength, ⟨r, hr⟩, ⟨r', hr'⟩⟩
  cases p with
  | nil => cases hlength
  | cons c p =>
    have hfirst : c = '4' := (List.cons.inj hr).1
    have hsecond : c = '9' := (List.cons.inj hr').1
    exact absurd (hfirst.symm.trans hsecond) (by decide)

/-- Two ids that agree on twelve bytes share a zone, and one with a character across the twelfth
    byte makes the shim panic. -/
theorem pods_share_zone :
    zoneNameForSandbox "0123456789abc" = zoneNameForSandbox "0123456789abd" ∧
      zoneNameForSandbox "0123456789abc" = some "k8s-0123456789ab" ∧
      zoneNameForSandbox "0123456789aé" = none := by
  decide +kernel

end Rauha.Containerd
