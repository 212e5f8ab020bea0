import Rauha.Oci.Pull

/-!
# The image in a receipt

A sandbox run makes its container from the layers of an image, and looks the digest of the image up
afterwards, by the same reference.  The receipt names the digest that was found then.  Pulls and
removals go on meanwhile, so that the reference can have moved.

Every read of a file is a step of its own (`Task.advance`): a run reads the link and the manifest
for the layers, and later the link, the manifest and the config for the digest.  In between,
anything can happen to the store, to other runs and to the daemon.

`receipt_names_image`: the receipt names the image that ran in every run in which the link that a
task reads for the second time still leads to the manifest its container was made from, and this can
be read with its config.
-/

namespace Rauha.Admission

open Oci Transition

/-- What a receipt says about the image. -/
structure ImageAdmission where
  reference : List Char
  manifestDigest : List Char
  digestVerified : Bool
  deriving DecidableEq, Repr

/-- The caller has pinned a digest, and it is the one that was found. -/
def imageDigestPinned (reference : List Char) (manifestDigest : Option (List Char)) : Bool :=
  match manifestDigest with
  | none => false
  | some manifestDigest =>
    match ImageReference.parse reference with
    | .error _ => false
    | .ok parsed => parsed.digest = some manifestDigest

/-! ## Reading step by step -/

/-- The digest that a reference is linked to: the first read of `getManifest`. -/
def readLink (faults : Faults) (s : Content) (canonical : List Char) :
    Except IoError (Option Digest) :=
  match s.links (safeName canonical) with
  | none => .ok none
  | some digestStr =>
    if faults.readLink = false then .error .Os
    else
      match Digest.parse (Text.trim digestStr) with
      | none => .error .CorruptManifestReference
      | some digest => .ok (some digest)

/-- The digest a reference leads to, with every reason not to have one left aside. -/
def linkedDigest (faults : Faults) (s : Content) (image : List Char) : Option Digest :=
  match ImageReference.parse image with
  | .error _ => none
  | .ok reference =>
    match readLink faults s reference.toStringCanonical with
    | .ok (some digest) => some digest
    | _ => none

/-- The bytes of a manifest that can be read and parsed. -/
def readManifest (svc : Service) (faults : Faults) (s : Content) (digest : Digest) :
    Option (Bytes × OciManifest) :=
  match s.getBlob faults digest with
  | .error _ => none
  | .ok bytes =>
    match svc.serde.manifest bytes with
    | .error _ => none
    | .ok manifest => some (bytes, manifest)

/-- The config of a manifest can be read. -/
def configReadable (svc : Service) (faults : Faults) (s : Content) (manifest : OciManifest) :
    Bool :=
  match Digest.parse manifest.config.digest with
  | none => false
  | some digest =>
    match s.getBlob faults digest with
    | .error _ => false
    | .ok bytes =>
      match svc.serde.config bytes with
      | .error _ => false
      | .ok _ => true

/-! ## Runs -/

/-- How far a run has come. -/
inductive Phase where
  | Creating
  | LinkRead (digest : Digest)
  | Created
  | LookingUp (digest : Digest)
  | ManifestRead (bytes : Bytes) (manifest : OciManifest)
  | Recorded
  | Running
  | Over
  deriving DecidableEq

/-- What a run hears of a request: that it was carried out, that it was not, or nothing, after it
    was. -/
inductive Reply where
  | Ok
  | Refused
  | Lost
  deriving DecidableEq, Repr

/-- A sandbox run.  `mounted` is the manifest whose layers were mounted, `record` the admission in
    the recovery record in memory and `persisted` the one on disk. -/
structure Task where
  image : List Char
  phase : Phase
  mounted : Option Bytes
  record : ImageAdmission
  persisted : ImageAdmission
  started : Bool
  receipt : Option ImageAdmission
  deriving DecidableEq

namespace Task

/-- A run begins with a record that names no digest yet. -/
def new (image : List Char) : Task :=
  ⟨image, .Creating, none, ⟨image, [], false⟩, ⟨image, [], false⟩, false, none⟩

variable (svc : Service)

/-- The digest that was found goes into the record; the run ends if it cannot be stored. -/
def recordImage (stored : Bool) (found : Option Digest) (t : Task) : Task :=
  let record : ImageAdmission :=
    { reference := t.image
      manifestDigest := (found.map Digest.text).getD []
      digestVerified := imageDigestPinned t.image (found.map Digest.text) }
  if stored then { t with record := record, persisted := record, phase := .Recorded }
  else { t with record := record, phase := .Over }

/-- **The next step of a run.**  `reply` is what comes of what it asks of others: making the
    container, storing the record, starting the container. -/
def advance (faults : Faults) (reply : Reply) (s : Content) (t : Task) : Task :=
  match t.phase with
  | .Creating =>
    match linkedDigest faults s t.image with
    | none => { t with phase := .Over }
    | some digest => { t with phase := .LinkRead digest }
  | .LinkRead digest =>
    match readManifest svc faults s digest with
    | none => { t with phase := .Over }
    | some (bytes, _) =>
      if reply = .Ok then { t with phase := .Created, mounted := some bytes }
      else { t with phase := .Over }
  | .Created =>
    match linkedDigest faults s t.image with
    | none => t.recordImage (reply = .Ok) none
    | some digest => { t with phase := .LookingUp digest }
  | .LookingUp digest =>
    match readManifest svc faults s digest with
    | none => t.recordImage (reply = .Ok) none
    | some (bytes, manifest) => { t with phase := .ManifestRead bytes manifest }
  | .ManifestRead bytes manifest =>
    t.recordImage (reply = .Ok)
      (if configReadable svc faults s manifest then some (.fromData svc.sha bytes)
        else none)
  | .Recorded =>
    match reply with
    | .Ok => { t with phase := .Running, started := true }
    | .Refused => { t with phase := .Over }
    | .Lost => { t with phase := .Over, started := true }
  | .Running => { t with phase := .Over }
  | .Over => { t with receipt := t.receipt.or (some t.record) }

/-- The daemon has stopped and recovers the run from what is on disk. -/
def recover (t : Task) : Task :=
  { t with phase := .Over, record := t.persisted, receipt := t.receipt.or (some t.persisted) }

end Task

structure World where
  store : Content
  tasks : List Task

/-- What happens: an operation on the store, a new run, the next step of a run, or a crash. -/
inductive Event where
  | Store (e : Oci.Event)
  | Run (image : List Char)
  | Advance (i : ℕ) (faults : Faults) (reply : Reply)
  | Crash

def step (svc : Service) (w : World) : Event → World
  | .Store e => { w with store := Oci.step svc w.store e }
  | .Run image => { w with tasks := w.tasks ++ [.new image] }
  | .Advance i faults reply =>
    { w with tasks := w.tasks.modify i fun t => t.advance svc faults reply w.store }
  | .Crash => { w with tasks := w.tasks.map .recover }

/-- The receipt of a run names the image that ran. -/
def Task.NamesImage (svc : Service) (t : Task) : Prop :=
  t.started = true → ∀ receipt, t.receipt = some receipt →
    ∃ bytes, t.mounted = some bytes ∧
      receipt.manifestDigest = (Digest.fromData svc.sha bytes).text ∧
      (receipt.digestVerified = true → ∃ reference, ImageReference.parse t.image = .ok reference ∧
        reference.digest = some (Digest.fromData svc.sha bytes).text)

/-- **The reference has not moved**: what a run reads for the second time is the manifest that its
    container was made from, and its config can be read. -/
def Task.unmoved (svc : Service) (faults : Faults) (s : Content) (t : Task) : Bool :=
  match t.phase with
  | .Created => t.mounted.any fun bytes =>
    linkedDigest faults s t.image = some (.fromData svc.sha bytes)
  | .LookingUp digest => (readManifest svc faults s digest).any fun found =>
    .fromData svc.sha found.1 = digest
  | .ManifestRead _ manifest => configReadable svc faults s manifest
  | _ => true

def Unmoved (svc : Service) (w : World) : Event → Prop
  | .Advance i faults _ => (w.tasks[i]?).all (·.unmoved svc faults w.store) = true
  | _ => True

instance (svc : Service) (w : World) : ∀ e, Decidable (Unmoved svc w e)
  | .Advance _ _ _ => inferInstanceAs (Decidable (_ = _))
  | .Store _ => .isTrue trivial
  | .Run _ => .isTrue trivial
  | .Crash => .isTrue trivial

/-! ## What a run keeps -/

section

variable {svc : Service} {t : Task} {w : World} {e : Event}

/-- An admission names the image that was mounted. -/
def Task.Names (svc : Service) (t : Task) (admission : ImageAdmission) : Prop :=
  ∃ bytes, t.mounted = some bytes ∧
    admission.manifestDigest = (Digest.fromData svc.sha bytes).text ∧
    (admission.digestVerified = true → ∃ reference,
      ImageReference.parse t.image = .ok reference ∧
      reference.digest = some (Digest.fromData svc.sha bytes).text)

/-- What holds of a run whose reference does not move. -/
structure Task.Inv (svc : Service) (t : Task) : Prop where
  looking : ∀ digest, t.phase = .LookingUp digest → ∃ bytes, t.mounted = some bytes ∧
    digest = .fromData svc.sha bytes
  read : ∀ found manifest, t.phase = .ManifestRead found manifest → ∃ bytes,
    t.mounted = some bytes ∧ Digest.fromData svc.sha found = Digest.fromData svc.sha bytes
  named : t.phase = .Recorded ∨ t.started = true →
    t.Names svc t.record ∧ t.Names svc t.persisted
  running : t.started = true → t.phase = .Running ∨ t.phase = .Over
  sealed : ∀ receipt, t.receipt = some receipt →
    t.phase = .Over ∧ (t.started = true → t.Names svc receipt)

lemma Task.inv_new (image : List Char) : (Task.new image).Inv svc := by
  refine ⟨?_, ?_, ?_, ?_, ?_⟩ <;> simp [Task.new]

/-- Nothing has been started or sealed. -/
def Task.Idle (t : Task) : Prop := t.started = false ∧ t.receipt = none

lemma Task.Inv.no_receipt (h : t.Inv svc) (hover : t.phase ≠ .Over) : t.receipt = none := by
  cases hreceipt : t.receipt with
  | none => rfl
  | some receipt => exact absurd (h.sealed receipt hreceipt).1 hover

/-- A run whose record does not name the image is idle. -/
lemma Task.Inv.idle (h : t.Inv svc) (hphase : t.phase ≠ .Running) (hover : t.phase ≠ .Over) :
    t.Idle := by
  refine ⟨?_, h.no_receipt hover⟩
  cases hstarted : t.started with
  | false => rfl
  | true => exact absurd (h.running hstarted) (by simp [hphase, hover])

lemma Task.Inv.of_idle {t' : Task} (hidle : t'.Idle)
    (hlooking : ∀ digest, t'.phase = .LookingUp digest → ∃ bytes, t'.mounted = some bytes ∧
      digest = Digest.fromData svc.sha bytes)
    (hread : ∀ found manifest, t'.phase = .ManifestRead found manifest → ∃ bytes,
      t'.mounted = some bytes ∧ Digest.fromData svc.sha found = Digest.fromData svc.sha bytes)
    (hphase : t'.phase ≠ .Recorded) : t'.Inv svc := by
  refine ⟨hlooking, hread, ?_, ?_, ?_⟩
  · rintro (hrecorded | htrue)
    · exact absurd hrecorded hphase
    · rw [hidle.1] at htrue
      cases htrue
  · intro htrue
    rw [hidle.1] at htrue
    cases htrue
  · intro receipt hsome
    rw [hidle.2] at hsome
    cases hsome

/-- **The record** names the image if the digest found is that of the mounted manifest. -/
lemma recordImage_inv {bytes : Bytes} {stored : Bool} (hidle : t.Idle)
    (hmounted : t.mounted = some bytes) :
    (t.recordImage stored (some (Digest.fromData svc.sha bytes))).Inv svc := by
  unfold Task.recordImage
  cases stored with
  | false => exact .of_idle hidle (by simp) (by simp) (by simp)
  | true =>
    have hpinned : imageDigestPinned t.image (some (Digest.fromData svc.sha bytes).text) = true →
        ∃ reference, ImageReference.parse t.image = .ok reference ∧
          reference.digest = some (Digest.fromData svc.sha bytes).text := by
      intro h
      unfold imageDigestPinned at h
      cases hparse : ImageReference.parse t.image with
      | error e =>
        rw [hparse] at h
        cases h
      | ok reference =>
        rw [hparse] at h
        exact ⟨reference, rfl, by simpa using h⟩
    simp only [if_true, Option.map_some, Option.getD_some]
    refine ⟨by simp, by simp, fun _ => ?_, by simp [hidle.1], by simp [hidle.2]⟩
    exact ⟨⟨bytes, hmounted, rfl, hpinned⟩, bytes, hmounted, rfl, hpinned⟩

/-- **One step of a run.** -/
lemma Task.Inv.advance (h : t.Inv svc) {faults : Faults} {reply : Reply} {s : Content}
    (hunmoved : t.unmoved svc faults s = true) : (t.advance svc faults reply s).Inv svc := by
  unfold Task.unmoved at hunmoved
  unfold Task.advance
  cases hphase : t.phase with
  | Creating =>
    have hidle := h.idle (by simp [hphase]) (by simp [hphase])
    simp only
    cases linkedDigest faults s t.image <;>
      exact Task.Inv.of_idle hidle (by simp) (by simp) (by simp)
  | LinkRead digest =>
    have hidle := h.idle (by simp [hphase]) (by simp [hphase])
    simp only
    cases readManifest svc faults s digest with
    | none => exact Task.Inv.of_idle hidle (by simp) (by simp) (by simp)
    | some found =>
      cases reply <;> exact Task.Inv.of_idle hidle (by simp) (by simp) (by simp)
  | Created =>
    have hidle := h.idle (by simp [hphase]) (by simp [hphase])
    rw [hphase] at hunmoved
    obtain ⟨bytes, hmounted, hlink⟩ := (Option.any_eq_true _ _).mp hunmoved
    rw [decide_eq_true_eq] at hlink
    simp only [hlink]
    refine Task.Inv.of_idle hidle ?_ (by simp) (by simp)
    rintro digest ⟨⟩
    exact ⟨bytes, hmounted, rfl⟩
  | LookingUp digest =>
    have hidle := h.idle (by simp [hphase]) (by simp [hphase])
    rw [hphase] at hunmoved
    obtain ⟨found, hfound, hdigest⟩ := (Option.any_eq_true _ _).mp hunmoved
    rw [decide_eq_true_eq] at hdigest
    obtain ⟨bytes, hmounted, hlooking⟩ := h.looking digest hphase
    simp only [hfound]
    refine Task.Inv.of_idle hidle (by simp) ?_ (by simp)
    rintro found' manifest ⟨⟩
    exact ⟨bytes, hmounted, hdigest.trans hlooking⟩
  | ManifestRead found manifest =>
    have hidle := h.idle (by simp [hphase]) (by simp [hphase])
    rw [hphase] at hunmoved
    obtain ⟨bytes, hmounted, hread⟩ := h.read found manifest hphase
    have hconfig : configReadable svc faults s manifest = true := hunmoved
    simp only [hconfig, if_true, hread]
    exact recordImage_inv hidle hmounted
  | Recorded =>
    have hidle := h.idle (by simp [hphase]) (by simp [hphase])
    cases reply with
    | Refused => exact Task.Inv.of_idle hidle (by simp) (by simp) (by simp)
    | Ok | Lost =>
      exact ⟨by simp, by simp, fun _ => h.named (Or.inl hphase), by simp, by simp [hidle.2]⟩
  | Running =>
    have hreceipt := h.no_receipt (by simp [hphase])
    refine ⟨by simp, by simp, fun hor => ?_, by simp, by simp [hreceipt]⟩
    exact h.named (Or.inr (hor.resolve_left (by simp)))
  | Over =>
    simp only
    refine ⟨by simp, by simp, fun hor => ?_, by simp, ?_⟩
    · exact h.named (Or.inr (hor.resolve_left (by simp)))
    · intro receipt hsome
      refine ⟨rfl, fun hstarted => ?_⟩
      cases hold : t.receipt with
      | none =>
        rw [hold] at hsome
        cases hsome
        exact (h.named (Or.inr hstarted)).1
      | some old =>
        rw [hold] at hsome
        cases hsome
        exact (h.sealed receipt hold).2 hstarted

/-- **A crash**: what is recovered was on disk before the container was started. -/
lemma Task.Inv.recover (h : t.Inv svc) : t.recover.Inv svc := by
  refine ⟨by simp [Task.recover], by simp [Task.recover], ?_, by simp [Task.recover], ?_⟩
  · intro hor
    have hnamed := (h.named (Or.inr (hor.resolve_left (by simp [Task.recover])))).2
    exact ⟨hnamed, hnamed⟩
  · intro receipt hsome
    refine ⟨rfl, fun hstarted => ?_⟩
    cases hold : t.receipt with
    | none =>
      rw [Task.recover, hold] at hsome
      cases hsome
      exact (h.named (Or.inr hstarted)).2
    | some old =>
      rw [Task.recover, hold] at hsome
      cases hsome
      exact (h.sealed receipt hold).2 hstarted

lemma step_inv (hw : ∀ t ∈ w.tasks, t.Inv svc) (hunmoved : Unmoved svc w e) :
    ∀ t ∈ (step svc w e).tasks, t.Inv svc := by
  cases e with
  | Store e => exact hw
  | Run image =>
    intro t ht
    rcases List.mem_append.mp ht with ht | ht
    · exact hw t ht
    · rw [List.mem_singleton.mp ht]
      exact Task.inv_new image
  | Crash =>
    intro t ht
    obtain ⟨t₀, ht₀, rfl⟩ := List.mem_map.mp ht
    exact (hw t₀ ht₀).recover
  | Advance i faults reply =>
    intro t ht
    obtain ⟨j, hj⟩ := List.mem_iff_getElem?.mp ht
    simp only [step, List.getElem?_modify] at hj
    obtain ⟨t₀, ht₀, rfl⟩ := Option.map_eq_some_iff.mp hj
    have hinv := hw t₀ (List.mem_of_getElem? ht₀)
    by_cases hij : i = j
    · subst hij
      simp only [if_true]
      refine hinv.advance ?_
      simpa [Unmoved, ht₀] using hunmoved
    · simp only [if_neg hij]
      exact hinv

end

/-- **The receipt names the image that ran.**  In every run of the daemon in which no reference
    moves between the two times that a task reads it, the receipt of a task whose container was
    started carries the digest of the manifest whose layers were mounted, and says that it was
    verified only if the caller has pinned that digest. -/
theorem receipt_names_image (svc : Service) (s : Content) (es : List Event)
    (h : Meets (step svc) (Unmoved svc) ⟨s, []⟩ es) :
    ∀ t ∈ (run (step svc) ⟨s, []⟩ es).tasks, t.NamesImage svc := by
  have hinv : ∀ t ∈ (run (step svc) ⟨s, []⟩ es).tasks, t.Inv svc :=
    Meets.invariant (I := fun w : World => ∀ t ∈ w.tasks, t.Inv svc)
      (fun _ _ hw hunmoved => step_inv hw hunmoved) (by simp) h
  exact fun t ht hstarted receipt hreceipt => ((hinv t ht).sealed receipt hreceipt).2 hstarted

/-- A service for evaluation: any bytes are a manifest of one layer, which is its config too. -/
def taggedService : Service where
  sha := .sample
  arch := []
  serde :=
    { manifest := fun _ => .ok ⟨2, [], ⟨[], (Digest.fromData .sample [2]).text, 1⟩,
        [⟨[], (Digest.fromData .sample [2]).text, 1⟩]⟩
      index := fun _ => .error []
      config := fun _ => .ok () }

def taggedRegistry (manifest : Bytes) : Registry where
  manifest := .ok manifest
  platform := fun _ => .error (.ContentError [])
  blob := fun _ => .ok [2]

/-- The tag is pulled while it leads to the given manifest. -/
def pulls (manifest : Bytes) : Event :=
  .Store ⟨.Pull (taggedRegistry manifest) "reg.io/app:1".toList, .clean⟩

def steps (n : ℕ) : List Event := List.replicate n (.Advance 0 .clean .Ok)

/-- The image is pulled, and a run of it goes from its beginning to its end. -/
theorem receipt_names_image_undisturbed :
    let w := run (step taggedService) ⟨Content.empty, []⟩
      (pulls [7] :: .Run "reg.io/app:1".toList :: steps 8)
    ∃ t ∈ w.tasks, t.started = true ∧ t.receipt ≠ none ∧ t.NamesImage taggedService := by
  obtain ⟨t, ht, hstarted, hreceipt⟩ : ∃ t ∈ (run (step taggedService) ⟨Content.empty, []⟩
      (pulls [7] :: .Run "reg.io/app:1".toList :: steps 8)).tasks,
      t.started = true ∧ t.receipt ≠ none := by decide +kernel
  exact ⟨t, ht, hstarted, hreceipt, receipt_names_image taggedService Content.empty
    (pulls [7] :: .Run "reg.io/app:1".toList :: steps 8) (by decide +kernel) t ht⟩

/-- **A receipt for an image that did not run.**  The tag moves after the layers have been listed
    and before the digest is looked up. -/
theorem receipt_names_other_image :
    let w := run (step taggedService) ⟨Content.empty, []⟩
      (pulls [7] :: .Run "reg.io/app:1".toList :: steps 2 ++ pulls [9] :: steps 6)
    ∃ t ∈ w.tasks, t.started = true ∧ t.mounted = some [7] ∧
      t.receipt = some ⟨"reg.io/app:1".toList, (Digest.fromData Sha256.sample [9]).text, false⟩ ∧
      Digest.fromData Sha256.sample [9] ≠ Digest.fromData Sha256.sample [7] := by
  decide +kernel

end Rauha.Admission
