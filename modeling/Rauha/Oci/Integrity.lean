import Rauha.Oci.Pull

/-!
# What a stored blob is worth

A blob is trusted because its file exists.  The file is written in place, so a write that breaks off
leaves a file whose content is not what its name says, and no later operation looks at the content
again (`broken_write_trusted`).

As long as every write of a blob leaves all of it or nothing, files and names agree along every run,
crashes and reopened stores included, and a pull that returns has left every blob of its manifest
in order (`blobs_intact`).
-/

namespace Rauha.Oci

open CrashLogic Transition Triple

/-- Every blob is what its name says. -/
def Intact (svc : Service) (s : Content) : Prop :=
  ∀ digest bytes, s.blobs digest = some bytes → .fromData svc.sha bytes = digest

/-- A write of a blob leaves the whole blob or no file. -/
def Faults.Unbroken (faults : Faults) : Prop :=
  ∀ data, (faults.blob data).leaves none data = none ∨
    (faults.blob data).leaves none data = some data

/-- What an operation does to the blobs: they stay in order, and none disappears. -/
structure Extends (svc : Service) (s s' : Content) : Prop where
  intact : Intact svc s'
  keeps : ∀ digest, s.hasBlob digest = true → s'.hasBlob digest = true

section

variable {svc : Service} {faults : Faults} {registry : Registry} {s s' s'' : Content}

lemma Extends.refl (h : Intact svc s) : Extends svc s s := ⟨h, fun _ hd => hd⟩

lemma Extends.trans (h : Extends svc s s') (h' : Extends svc s' s'') : Extends svc s s'' :=
  ⟨h'.intact, fun digest hd => h'.keeps digest (h.keeps digest hd)⟩

lemma Extends.setLink (h : Extends svc s s') (name : List Char) (file : Option (List Char)) :
    Extends svc s (s'.setLink name file) :=
  ⟨h.intact, h.keeps⟩

lemma Extends.entry (h : Extends svc s s') {entry : OciDescriptor}
    (he : ∃ digest, Digest.parse entry.digest = some digest ∧ s.hasBlob digest = true) :
    ∃ digest, Digest.parse entry.digest = some digest ∧ s'.hasBlob digest = true := by
  obtain ⟨digest, hparse, hblob⟩ := he
  exact ⟨digest, hparse, h.keeps digest hblob⟩

lemma storeBlob_extends (hs : Intact svc s) (hwhole : faults.Unbroken) (data : Bytes) :
    Extends svc s (storeBlob svc.sha faults s data) := by
  unfold storeBlob
  split_ifs with hblob
  · exact .refl hs
  · refine ⟨fun digest bytes hbytes => ?_, fun digest hd => ?_⟩
    · rw [Content.setBlob_blobs, Function.update_apply] at hbytes
      split_ifs at hbytes with heq
      · rcases hwhole data with hleft | hleft
        · rw [hleft] at hbytes
          cases hbytes
        · rw [hleft] at hbytes
          rw [heq, ← Option.some.inj hbytes]
      · exact hs digest bytes hbytes
    · have hne : digest ≠ .fromData svc.sha data := fun heq => hblob (heq ▸ hd)
      simpa only [Content.hasBlob, Content.setBlob_blobs, Function.update_of_ne hne] using hd

lemma hasBlob_storeBlob {data : Bytes}
    (h : s.hasBlob (.fromData svc.sha data) = true ∨ faults.blob data = .done) :
    (storeBlob svc.sha faults s data).hasBlob (.fromData svc.sha data) = true := by
  unfold storeBlob
  split_ifs with hblob
  · exact hblob
  · rw [h.resolve_left hblob]
    simp [Content.hasBlob, WriteFate.leaves]

/-- **The blobs are extended**, however the program ends; `Q` holds if it returns. -/
def Extending {ε α : Type} (svc : Service) (s : Content) (c : Prog Content ε α)
    (Q : α → Content → Prop) : Prop :=
  Triple (· = s) c (fun a s' => Extends svc s s' ∧ Q a s') (fun _ s' => Extends svc s s')
    (Extends svc s)

section Extending

variable {ε α β : Type} {c : Prog Content ε α} {Q : α → Content → Prop}

lemma Extending.after (hc : Extending svc s' c Q) (h : Extends svc s s') :
    Triple (· = s') c (fun a s'' => Extends svc s s'' ∧ Q a s'') (fun _ s'' => Extends svc s s'')
      (Extends svc s) :=
  hc.conseq (fun _ _ h' => ⟨h.trans h'.1, h'.2⟩) (fun _ _ h' => h.trans h') fun _ h' => h.trans h'

lemma Extending.bind {f : α → Prog Content ε β} {R : β → Content → Prop} (hc : Extending svc s c Q)
    (hf : ∀ a s', Extends svc s s' → Q a s' → Extending svc s' (f a) R) :
    Extending svc s (c >>= f) R :=
  Triple.bind hc fun a => .of_forall fun s' h => (hf a s' h.1 h.2).after h.1

lemma Extending.final (hc : Extending svc s c Q) : Extends svc s (c [] s).2.2 :=
  Triple.final (hc.post fun _ _ h => h.1) [] rfl

end Extending

/-! ## One lemma for each operation -/

section Operations

variable (hs : Intact svc s) (hwhole : faults.Unbroken)

include hs hwhole

lemma putBlob_extends (data : Bytes) :
    Extending svc s (putBlob svc.sha faults data) fun digest s' =>
      digest = .fromData svc.sha data ∧ s'.hasBlob digest = true :=
  putBlob_at (fun h => ⟨storeBlob_extends hs hwhole data, rfl, hasBlob_storeBlob h⟩)
    (fun _ _ _ => storeBlob_extends hs hwhole data)
    (fun _ _ _ => storeBlob_extends hs hwhole data)

lemma putManifest_extends (reference : List Char) (manifest : Bytes) :
    Extending svc s (putManifest svc.sha faults reference manifest) fun _ _ => True := by
  refine (putBlob_extends hs hwhole manifest).bind fun digest s' h _ => ?_
  have hrefl := Extends.refl h.intact
  refine bind_at (.writeFile_at ?_ ?_ ?_)
  · exact fun _ => pure_at ⟨hrefl.setLink _ _, trivial⟩
  · exact fun _ _ => hrefl.setLink _ _
  · exact fun _ _ => hrefl.setLink _ _

lemma pullManifest_extends (reference : ImageReference) :
    Extending svc s (pullManifest svc faults registry reference) fun _ _ => True := by
  refine bind_at (ofExcept_at (fun body _ => ?_) fun _ _ => .refl hs)
  refine bind_at (mapError_at ?_)
  refine .post (putManifest_extends hs hwhole _ body) ?_
  rintro _ s' ⟨h, -⟩
  exact ofExcept_at (fun _ _ => ⟨h, trivial⟩) fun _ _ => h

lemma pullBlob_extends (digest : Digest) :
    Extending svc s (pullBlob svc faults registry digest) fun _ s' => s'.hasBlob digest = true := by
  refine bind_at (getState_at ?_)
  split_ifs with hblob
  · exact pure_at ⟨.refl hs, hblob⟩
  · refine bind_at (ofExcept_at (fun bytes _ => ?_) fun _ _ => .refl hs)
    refine bind_at (failIf_at (fun _ => .refl hs) fun hvalid => ?_)
    refine bind_at (mapError_at ?_)
    refine .post (putBlob_extends hs hwhole bytes) ?_
    rintro _ s' ⟨h, rfl, hnew⟩
    have heq : .fromData svc.sha bytes = digest := by
      simpa [Digest.validate] using hvalid
    exact pure_at ⟨h, heq ▸ hnew⟩

lemma pullEntry_extends (referenceStr what : List Char) (entry : OciDescriptor) :
    Extending svc s (pullEntry svc faults registry referenceStr what entry) fun _ s' =>
      ∃ digest, Digest.parse entry.digest = some digest ∧ s'.hasBlob digest = true := by
  unfold pullEntry
  cases hparse : Digest.parse entry.digest with
  | none => exact raise_at (Extends.refl hs)
  | some digest =>
    refine Triple.post (pullBlob_extends hs hwhole digest) ?_
    exact fun _ s' h => ⟨h.1, digest, rfl, h.2⟩

lemma pullLayers_extends (referenceStr : List Char) (layers : List OciDescriptor) :
    Extending svc s (pullLayers svc faults registry referenceStr layers) fun _ s' =>
      ∀ layer ∈ layers,
        ∃ digest, Digest.parse layer.digest = some digest ∧ s'.hasBlob digest = true := by
  induction layers generalizing s with
  | nil => exact pure_at ⟨.refl hs, by simp⟩
  | cons layer layers ih =>
    refine (pullEntry_extends hs hwhole referenceStr _ layer).bind fun _ s₁ h₁ hlayer => ?_
    refine Triple.post (ih h₁.intact) ?_
    rintro _ s₂ ⟨h₂, hlayers⟩
    exact ⟨h₂, List.forall_mem_cons.mpr ⟨h₂.entry hlayer, hlayers⟩⟩

lemma pullFromRegistry_extends (referenceStr : List Char) (reference : ImageReference)
    {cached : Option OciManifest}
    (hcached : ∀ m, cached = some m → s.manifestBlobsPresent m = true) :
    Extending svc s (pullFromRegistry svc faults registry referenceStr reference cached)
      fun manifest s' => s'.manifestBlobsPresent manifest = true := by
  refine bind_at (attempt_at ?_)
  refine Triple.conseq (pullManifest_extends hs hwhole reference) ?_ ?_ fun _ h => h
  · rintro manifest s₁ ⟨h₁, -⟩
    refine Extending.after ?_ h₁
    refine (pullEntry_extends h₁.intact hwhole referenceStr _ manifest.config).bind ?_
    intro _ s₂ h₂ hconfig
    refine (pullLayers_extends h₂.intact hwhole referenceStr manifest.layers).bind ?_
    intro _ s₃ h₃ hlayers
    exact pure_at ⟨.refl h₃.intact, manifestBlobsPresent_iff.mpr
      (List.forall_mem_cons.mpr ⟨h₃.entry hconfig, hlayers⟩)⟩
  · intro e s₁ h₁
    cases cached with
    | none => exact raise_at h₁
    | some m =>
      refine pure_at ⟨h₁, manifestBlobsPresent_iff.mpr fun entry hentry => ?_⟩
      exact h₁.entry (manifestBlobsPresent_iff.mp (hcached m rfl) entry hentry)

lemma pull_extends (referenceStr : List Char) :
    Extending svc s (pull svc faults registry referenceStr) fun manifest s' =>
      s'.manifestBlobsPresent manifest = true := by
  have hrefl := Extends.refl hs
  refine bind_at (ofExcept_at (fun reference _ => ?_) fun _ _ => hrefl)
  refine bind_at (getState_at ?_)
  refine bind_at (ofExcept_at (fun bytes _ => ?_) fun _ _ => hrefl)
  -- what the cache offers is complete
  have hcached : ∀ m, s.cached svc bytes = some m → s.manifestBlobsPresent m = true := by
    intro m hm
    obtain ⟨-, -, -, h⟩ := cached_eq_some.mp hm
    exact h
  cases hpin : reference.digest with
  | none => exact pullFromRegistry_extends hs hwhole referenceStr reference hcached
  | some digest =>
    cases hm : s.cached svc bytes with
    | none => exact pullFromRegistry_extends hs hwhole referenceStr reference (by simp)
    | some m => exact pure_at ⟨hrefl, hcached m hm⟩

omit hwhole in
lemma removeImage_extends (referenceStr : List Char) :
    Extending svc s (removeImage faults referenceStr) fun _ _ => True := by
  have hrefl := Extends.refl hs
  refine bind_at (ofExcept_at (fun reference _ => ?_) fun _ _ => hrefl)
  refine bind_at (getState_at ?_)
  split_ifs
  · exact judged_at (fun _ => ⟨hrefl.setLink _ _, trivial⟩) (fun _ => hrefl) fun _ => hrefl
  · exact pure_at ⟨hrefl, trivial⟩

end Operations

/-! ## Runs -/

lemma step_intact (s : Content) (e : Event) (hs : Intact svc s) (hwhole : e.faults.Unbroken) :
    Intact svc (step svc s e) := by
  obtain ⟨op, faults⟩ := e
  have hfinal : Extends svc s (step svc s ⟨op, faults⟩) := by
    cases op with
    | PutBlob data => exact (putBlob_extends hs hwhole data).final
    | PutManifest reference manifest =>
      exact (putManifest_extends hs hwhole reference manifest).final
    | PullBlob registry digest => exact (pullBlob_extends hs hwhole digest).final
    | Pull registry referenceStr => exact (pull_extends hs hwhole referenceStr).final
    | RemoveImage referenceStr => exact (removeImage_extends hs referenceStr).final
  exact hfinal.intact

end

/-- **Files and names agree.**  In every run whose writes of blobs leave all of the blob or nothing,
    whatever fails or is cut short otherwise, a blob that is there reads as bytes of its digest; and
    a pull that returns then has left every blob of its manifest there and in order. -/
theorem blobs_intact (svc : Service) (es : List Event)
    (h : Meets (step svc) (fun _ e => e.faults.Unbroken) Content.empty es) :
    let s := run (step svc) Content.empty es
    (∀ digest, s.hasBlob digest = true →
      ∃ bytes, s.getBlob Faults.clean digest = .ok bytes ∧
        Digest.fromData svc.sha bytes = digest) ∧
    ∀ faults registry referenceStr manifest, faults.Unbroken →
      (pull svc faults registry referenceStr [] s).1 = .done manifest →
      ∀ entry ∈ manifest.entries, ∃ digest bytes, Digest.parse entry.digest = some digest ∧
        (pull svc faults registry referenceStr [] s).2.2.blobs digest = some bytes ∧
        Digest.fromData svc.sha bytes = digest := by
  intro s
  have hs : Intact svc s :=
    Meets.invariant (I := Intact svc) (fun s e hs he => step_intact s e hs he)
      (fun _ _ hbytes => by cases hbytes) h
  refine ⟨fun digest hblob => ?_, ?_⟩
  · obtain ⟨bytes, hbytes⟩ := Option.isSome_iff_exists.mp hblob
    exact ⟨bytes, by rw [Content.getBlob, hbytes]; rfl, hs digest bytes hbytes⟩
  · intro faults registry referenceStr manifest hwhole hdone entry hentry
    obtain ⟨hextends, hpresent⟩ := Triple.of_done (pull_extends hs hwhole referenceStr) rfl hdone
    obtain ⟨digest, hparse, hblob⟩ := manifestBlobsPresent_iff.mp hpresent entry hentry
    obtain ⟨bytes, hbytes⟩ := Option.isSome_iff_exists.mp hblob
    exact ⟨digest, bytes, hparse, hbytes, hextends.intact digest bytes hbytes⟩

/-! ## A write that breaks off -/

/-- A reader for evaluation: every document is one manifest, without layers, whose config is the
    document `[2]`. -/
def sampleService : Service where
  sha := .sample
  arch := "amd64".toList
  serde :=
    { manifest := fun _ => .ok
        { schemaVersion := 2
          mediaType := []
          config := ⟨[], (Digest.fromData .sample [2]).text, 1⟩
          layers := [] }
      index := fun _ => .error []
      config := fun _ => .ok () }

def sampleRegistry : Registry where
  manifest := .ok [7]
  platform := fun _ => .error (.ContentError [])
  blob := fun _ => .ok [2]

/-- A manifest is stored, and the machine stops in the middle of writing its link. -/
def sampleCut : Event :=
  ⟨.PutManifest "reg.io/app:1".toList [7], { Faults.clean with link := .cut (some 3) }⟩

/-- The stored manifest is in order after that, and so is the config that a later pull fetches. -/
theorem blobs_intact_after_cut :
    let s := run (step sampleService) .empty [sampleCut]
    let pulled := pull sampleService .clean sampleRegistry "reg.io/app:2".toList [] s
    (∃ bytes, s.getBlob .clean (.fromData .sample [7]) = .ok bytes ∧
      Digest.fromData .sample bytes = Digest.fromData .sample [7]) ∧
    ∃ digest bytes, pulled.2.2.blobs digest = some bytes ∧
      .fromData .sample bytes = digest := by
  have h := blobs_intact sampleService [sampleCut] (show _ ∧ _ from ⟨fun _ => Or.inr rfl, trivial⟩)
  refine ⟨h.1 _ (by decide +kernel), ?_⟩
  obtain ⟨digest, bytes, -, hbytes, hdigest⟩ := h.2 .clean sampleRegistry
    "reg.io/app:2".toList
    ⟨2, [], ⟨[], (Digest.fromData .sample [2]).text, 1⟩, []⟩
    (fun _ => .inr rfl) (by decide +kernel) _ (List.mem_cons_self ..)
  exact ⟨digest, bytes, hbytes, hdigest⟩

/-- **A broken write is trusted.**  The blob `[1, 2]` is written and the write breaks off after one
    byte.  From then on the blob is taken to be there, pulling it again succeeds without a look at
    the file, and reading it gives other bytes. -/
theorem broken_write_trusted :
    let digest := .fromData .sample [1, 2]
    let broken : Event := ⟨.PutBlob [1, 2], { Faults.clean with blob := fun _ => .cut (some 1) }⟩
    let again : Event :=
      ⟨.PullBlob { sampleRegistry with blob := fun _ => .ok [1, 2] } digest, .clean⟩
    let s := run (step sampleService) .empty [broken, again]
    s.hasBlob digest = true ∧ s.getBlob .clean digest = .ok [1] ∧
      .fromData .sample [1] ≠ digest := by
  refine ⟨?_, ?_, ?_⟩ <;> decide +kernel

end Rauha.Oci
