import Rauha.Sandbox.History

/-!
# What holds of the store

`Shared` is the invariant of the part of the state that outlives the daemon.  Its heart is
`covered`: a container that some task created, and that is still there, is one the recovery record
of that task owns.  `temp` says the same of temporary zones.

`Untouched` is what a process leaves alone while it moves: the rows of other tasks and the marks of
other requests.
-/

namespace Rauha.Sandbox

namespace Core

variable (c : Core)

def result (t : String) : Option (List UInt8) := c.store.results.lookup t

def record (t : String) : Option RecoveryRecord := c.store.recovery.lookup t

def zone (name : String) : Option Zone := c.store.metadata.getZone name

def container (id : ℕ) : Option Container := c.store.metadata.containers.lookup id

end Core

/-- A zone that was there once: whatever has its name has its id, and the other way round. -/
structure Known (c : Core) (name : String) (id : ℕ) : Prop where
  used : name ∈ c.names
  lt : id < c.nextUuid
  id_eq : ∀ zone, c.zone name = some zone → zone.id = id
  name_eq : ∀ name' zone, c.zone name' = some zone → zone.id = id → name' = name

/-- The zone is gone for good. -/
def NoZone (c : Core) (id : ℕ) : Prop := ∀ name zone, c.zone name = some zone → zone.id ≠ id

/-- No container the task created is left. -/
def Gone (c : Core) (t : String) : Prop := ∀ id, creator id c.log = some t → c.container id = none

/-- **The invariant of the store.** -/
structure Shared (w : World) (c : Core) : Prop where
  zone_used : ∀ name zone, c.zone name = some zone → name ∈ c.names ∧ zone.id < c.nextUuid
  zone_ids : ∀ name name' zone zone', c.zone name = some zone → c.zone name' = some zone' →
    zone.id = zone'.id → name = name'
  container_lt : ∀ id container, c.container id = some container → id < c.nextUuid
  created_lt : ∀ t id, creator id c.log = some t → id < c.nextUuid
  record_result : ∀ t record, c.record t = some record → c.result t ≠ none
  record_known : ∀ t record, c.record t = some record → Known c record.zoneName record.zoneId
  record_created : ∀ t record id, c.record t = some record → record.containerId = some id →
    creator id c.log = some t
  covered : ∀ t id container, creator id c.log = some t → c.container id = some container →
    container.name = containerName t ∧ ∃ record, c.record t = some record ∧ record.owns container
  signed : ∀ t bytes, c.result t = some bytes → bytes ≠ [] → Signed w.signer t bytes
  attempted : ∀ t, attempted t c.log = true →
    c.result t ≠ none ∧ (c.result t = some [] → c.record t ≠ none)
  disciplined : Disciplined c.log
  reserved : ∀ t, reservedIn t c.log = (c.result t).isSome
  zoned_lt : ∀ n id, zoneOf n c.log = some id → n < c.nextUuid ∧ id < c.nextUuid
  admitted_lt : ∀ n, admitted n c.log = true → n < c.nextUuid
  temp : ∀ n id name zone, zoneOf n c.log = some id → admitted n c.log = true →
    c.zone name = some zone → zone.id = id →
    ∃ t record, c.record t = some record ∧ record.cleanupZone = true ∧ record.zoneId = id

/-- **What a process of task `t` and request `n` leaves alone** on the way from `c` to `c'`. -/
structure Untouched (c : Core) (n : ℕ) (t : String) (c' : Core) : Prop where
  result : ∀ t', t' ≠ t → c'.result t' = c.result t'
  record : ∀ t', t' ≠ t → c'.record t' = c.record t'
  starts : ∀ t', t' ≠ t → startsSince t' c'.log = startsSince t' c.log
  zoneOf : ∀ n', n' ≠ n → zoneOf n' c'.log = zoneOf n' c.log
  admitted : ∀ n', n' ≠ n → admitted n' c'.log = admitted n' c.log
  admitted_mono : ∀ n', Sandbox.admitted n' c.log = true → Sandbox.admitted n' c'.log = true
  lost : ∀ n', lost n' c.log = true → lost n' c'.log = true
  created : ∀ t' id, id < c.nextUuid → (creator id c'.log = some t' ↔ creator id c.log = some t')
  created_new : ∀ t' id, t' ≠ t → creator id c'.log = some t' → id < c.nextUuid
  container : ∀ t' id container, t' ≠ t → creator id c.log = some t' →
    c'.container id = some container → c.container id = some container
  uuid : c.nextUuid ≤ c'.nextUuid
  names : ∀ name, name ∈ c.names → name ∈ c'.names
  zone : ∀ name zone, c'.zone name = some zone →
    c.zone name = some zone ∨ (name ∉ c.names ∧ c.nextUuid ≤ zone.id)

section Stability

variable {c c' : Core} {n : ℕ} {t : String} {name : String} {id : ℕ}

lemma Known.congr (h : Known c name id) (hnames : c'.names = c.names)
    (huuid : c'.nextUuid = c.nextUuid) (hzones : c'.zone = c.zone) : Known c' name id :=
  ⟨hnames ▸ h.used, huuid ▸ h.lt, hzones ▸ h.id_eq, hzones ▸ h.name_eq⟩

/-- The zones of the records are known as long as the zones are left alone. -/
lemma Shared.knows {w : World} (h : Shared w c) (hnames : c'.names = c.names)
    (huuid : c'.nextUuid = c.nextUuid) (hzones : c'.zone = c.zone) :
    ∀ t record, c.record t = some record → Known c' record.zoneName record.zoneId :=
  fun t record hr => (h.record_known t record hr).congr hnames huuid hzones

/-- New zones have new ids. -/
lemma Untouched.zone_old {zone : Zone} (hu : Untouched c n t c') (hlt : id < c.nextUuid)
    (hzone : c'.zone name = some zone) (heq : zone.id = id) : c.zone name = some zone := by
  rcases hu.zone name zone hzone with hold | ⟨-, hle⟩
  · exact hold
  · omega

lemma Known.stable (h : Known c name id) (hu : Untouched c n t c') : Known c' name id where
  used := hu.names name h.used
  lt := lt_of_lt_of_le h.lt hu.uuid
  id_eq zone hzone := by
    rcases hu.zone name zone hzone with hold | ⟨hnew, -⟩
    · exact h.id_eq zone hold
    · exact absurd h.used hnew
  name_eq name' zone hzone heq := h.name_eq name' zone (hu.zone_old h.lt hzone heq) heq

lemma NoZone.stable (h : NoZone c id) (hlt : id < c.nextUuid) (hu : Untouched c n t c') :
    NoZone c' id := fun name zone hzone heq => h name zone (hu.zone_old hlt hzone heq) heq

lemma Untouched.refl {w : World} (h : Shared w c) : Untouched c n t c where
  result _ _ := rfl
  record _ _ := rfl
  starts _ _ := rfl
  zoneOf _ _ := rfl
  admitted _ _ := rfl
  admitted_mono _ h := h
  lost _ h := h
  created _ _ _ := Iff.rfl
  created_new t' id _ hid := h.created_lt t' id hid
  container _ _ _ _ _ h := h
  uuid := le_refl _
  names _ h := h
  zone _ _ h := Or.inl h

end Stability

end Rauha.Sandbox
