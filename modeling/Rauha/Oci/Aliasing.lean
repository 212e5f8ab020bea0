import Rauha.Oci.Rootfs

/-!
# Which references share their files

The link of a manifest and the directory of an image are found by the flattened canonical form of
the reference.  Every operation for one reference leaves the link and the directory of another one
alone and does not depend on them, provided the two have different file names
(`references_separate_iff`); the canonical forms being different is not enough.

The keys of the layers are an exception: a manifest may list a digest such as `sha256:../../x`,
and looking for the mark of that layer leads out of the directory of the image.  Nothing is said
about images with such layers (`NamesLayers`).
-/

namespace Rauha.Oci

open CrashLogic FileTree Function

/-- The files of the service: the content store, and the directories of the images by name. -/
structure Store where
  content : Content
  images : List Char → ImageDir

def Store.empty : Store := ⟨.empty, fun _ => .empty⟩

/-- Two stores differ at most in the link and the image directory of a name. -/
structure Store.AgreesApart (name : List Char) (s t : Store) : Prop where
  blobs : s.content.blobs = t.content.blobs
  links : ∀ m, m ≠ name → s.content.links m = t.content.links m
  images : ∀ m, m ≠ name → s.images m = t.images m

/-- An operation for one reference. -/
inductive ImageOp where
  | PutManifest (manifest : Bytes)
  | GetManifest
  | RemoveImage
  | PrepareLayers
  | PrepareBaseRootfs

/-- What an operation returns. -/
inductive Reply where
  | Stored (r : Outcome IoError Digest)
  | Manifest (r : Except IoError (Option Bytes))
  | Removed (r : Outcome Error Unit)
  | Layers (r : Except Error (List (List Char)))
  | Rootfs (r : Except Error Unit)

section

variable (u : Unpacker) (svc : Service) (elsewhere : Store → List Char → List Char → Bool)
  (faults : Faults)

/-- Carry out an operation for a reference, given as it was written and as it was read.  What the
    keys of an image find that are paths depends on all files there are. -/
def perform (referenceStr : List Char) (reference : ImageReference) (op : ImageOp) (s : Store) :
    Reply × Store :=
  let canonical := reference.toStringCanonical
  let name := safeName canonical
  match op with
  | .PutManifest manifest =>
    let result := putManifest svc.sha faults canonical manifest [] s.content
    (.Stored result.1, { s with content := result.2.2 })
  | .GetManifest => (.Manifest (s.content.getManifest faults canonical), s)
  | .RemoveImage =>
    let result := removeImage faults referenceStr [] s.content
    (.Removed result.1, { s with content := result.2.2 })
  | .PrepareLayers =>
    let result := prepareImageLayers u s.content (elsewhere s name) svc faults referenceStr
      (s.images name)
    (.Layers result.1, { s with images := Function.update s.images name result.2 })
  | .PrepareBaseRootfs =>
    let result := prepareBaseRootfs u s.content svc faults referenceStr (s.images name)
    (.Rootfs result.1, { s with images := Function.update s.images name result.2 })

end

/-- The layers of the image have keys that are names. -/
def NamesLayers (svc : Service) (faults : Faults) (referenceStr : List Char) (s : Content) : Prop :=
  ∀ digests, layerDigests svc faults s referenceStr = .ok digests →
    ∀ digest ∈ digests, isName (digestKey digest) = true

/-- **An operation keeps clear of a name**: it leaves the link and the image directory of that name
    as they are, and they make no difference to what it returns or does elsewhere.  This is asked of
    stores with some content. -/
def KeepsClear (name : List Char) (content : Content → Prop) (f : Store → Reply × Store) : Prop :=
  ∀ s, content s.content →
    (f s).2.content.links name = s.content.links name ∧ (f s).2.images name = s.images name ∧
    ∀ t, Store.AgreesApart name s t → (f s).1 = (f t).1 ∧ Store.AgreesApart name (f s).2 (f t).2

/-! ## Operations on the content store -/

section

variable {name : List Char} {sha : Sha256} {faults : Faults}

/-- Two content stores differ at most in the link of a name. -/
def Content.AgreesApart (name : List Char) (s t : Content) : Prop :=
  s.blobs = t.blobs ∧ ∀ m, m ≠ name → s.links m = t.links m

lemma Content.AgreesApart.setLink {s t : Content} (h : Content.AgreesApart name s t)
    (m : List Char) (file : Option (List Char)) :
    Content.AgreesApart name (s.setLink m file) (t.setLink m file) := by
  refine ⟨h.1, fun m' hm' => ?_⟩
  simp only [Content.setLink_links, update_apply]
  split_ifs
  · rfl
  · exact h.2 m' hm'

lemma putManifest_respects {reference : List Char} (hname : safeName reference ≠ name)
    (manifest : Bytes) :
    Respects (Content.AgreesApart name) (putManifest sha faults reference manifest) := by
  refine .bind ?_ fun digest => .bind ?_ fun _ => .pure
  · refine .getState_bind (fun s => ?_) fun s t h => ?_
    · simp only
      split_ifs
      · exact .pure
      · refine .bind (.writeFile (fun s t h => ?_) fun s t file h => ?_)
          fun _ => .pure
        · rw [h.1]
        · exact ⟨by simp only [Content.setBlob_blobs, h.1], h.2⟩
    · have hblob : ∀ digest, s.hasBlob digest = t.hasBlob digest := fun digest => by
        rw [Content.hasBlob, Content.hasBlob, h.1]
      simp only [hblob]
  · exact .writeFile (fun s t h => h.2 _ hname) fun s t file h => h.setLink _ file

lemma putManifest_links {reference : List Char} (hname : safeName reference ≠ name)
    (manifest : Bytes) (s : Content) :
    (putManifest sha faults reference manifest [] s).2.2.links name = s.links name := by
  have hkeep : ∀ s' : Content, s'.links = s.links → ∀ file,
      (s'.setLink (safeName reference) file).links name = s.links name := by
    intro s' hs' file
    rw [Content.setLink_links, update_of_ne (.symm hname), hs']
  have htriple : Triple (· = s) (putManifest sha faults reference manifest)
      (fun _ s' => s'.links name = s.links name) (fun _ s' => s'.links name = s.links name)
      (fun s' => s'.links name = s.links name) := by
    refine .bind_at (putBlob_at (fun _ => ?_) (fun w _ _ => ?_) fun w _ _ => ?_)
    · refine .bind_at (.writeFile_at (fun _ => .pure_at ?_) (fun w _ => ?_)
        fun w _ => ?_) <;> exact hkeep _ (storeBlob_links _) _
    · rw [storeBlob_links]
    · rw [storeBlob_links]
  exact htriple.final [] rfl

variable {u : Unpacker} {svc : Service} {s t : Content}

lemma getManifest_congr (h : Content.AgreesApart name s t) {canonical : List Char}
    (hname : safeName canonical ≠ name) :
    s.getManifest faults canonical = t.getManifest faults canonical := by
  simp only [Content.getManifest, Content.getBlob, h.2 _ hname, h.1]

lemma unpackLayers_congr (h : s.blobs = t.blobs) (host : Host) (layers : List (List Char)) :
    unpackLayers u s host layers = unpackLayers u t host layers := by
  induction layers generalizing host with
  | nil => rfl
  | cons layer layers ih => simp only [unpackLayers, h, ih]

/-- Layers whose keys are names do not depend on what is elsewhere. -/
lemma prepareLayers_congr (h : s.blobs = t.blobs) (elsewhere elsewhere' : List Char → Bool)
    (d : LayersDir) (layers : List (List Char))
    (hlayers : ∀ layer ∈ layers, isName (digestKey layer) = true) :
    prepareLayers u s elsewhere d layers = prepareLayers u t elsewhere' d layers := by
  induction layers generalizing d with
  | nil => rfl
  | cons layer layers ih =>
    obtain ⟨hlayer, hlayers⟩ := List.forall_mem_cons.mp hlayers
    simp only [prepareLayers, LayersDir.marked, hlayer, if_true, h, ih _ hlayers]

variable {referenceStr : List Char} {reference : ImageReference}
  (hparse : ImageReference.parse referenceStr = .ok reference)

include hparse

/-- The removal of an image whose reference can be read. -/
lemma removeImage_of_parse :
    removeImage faults referenceStr =
      (.getState >>= fun s =>
        if (s.links (safeName reference.toStringCanonical)).isSome then
          .judged faults.remove
            (.ContentError ("failed to remove manifest ref: ".toList ++ IoError.Os.display))
            fun s => s.setLink (safeName reference.toStringCanonical) none
        else pure ()) := by
  rw [removeImage, parseReference, hparse]
  rfl

variable (hname : safeName reference.toStringCanonical ≠ name)

include hname

lemma removeImage_respects :
    Respects (Content.AgreesApart name) (removeImage faults referenceStr) := by
  rw [removeImage_of_parse hparse]
  refine Respects.getState_bind (fun s => ?_) fun s t h => ?_
  · split_ifs
    · exact Respects.judged fun s t h => h.setLink _ none
    · exact Respects.pure
  · rw [h.2 _ hname]

lemma removeImage_links (s : Content) :
    (removeImage faults referenceStr [] s).2.2.links name = s.links name := by
  have htriple : Triple (· = s) (removeImage faults referenceStr)
      (fun _ s' => s'.links name = s.links name) (fun _ s' => s'.links name = s.links name)
      (fun s' => s'.links name = s.links name) := by
    rw [removeImage_of_parse hparse]
    refine Triple.bind_at (Triple.getState_at ?_)
    split_ifs
    · refine Triple.judged_at (fun _ => ?_) (fun _ => rfl) fun _ => rfl
      rw [Content.setLink_links, update_of_ne (Ne.symm hname)]
    · exact Triple.pure_at rfl
  exact htriple.final [] rfl

/-! ## Operations on image directories -/

lemma layerDigests_congr (h : Content.AgreesApart name s t) :
    layerDigests svc faults s referenceStr = layerDigests svc faults t referenceStr := by
  have hparse' : parseReference referenceStr = .ok reference := by
    rw [parseReference, hparse]
    rfl
  have hmanifest : s.getManifest faults reference.toStringCanonical =
      t.getManifest faults reference.toStringCanonical := getManifest_congr h hname
  simp only [layerDigests, loadManifest, hparse', bind, Except.bind, hmanifest]

lemma prepareImageLayers_congr (h : Content.AgreesApart name s t)
    (hkeys : NamesLayers svc faults referenceStr s) (elsewhere elsewhere' : List Char → Bool)
    (d : ImageDir) :
    prepareImageLayers u s elsewhere svc faults referenceStr d =
      prepareImageLayers u t elsewhere' svc faults referenceStr d := by
  rw [prepareImageLayers, prepareImageLayers, ← layerDigests_congr hparse hname h]
  cases hdigests : layerDigests svc faults s referenceStr with
  | error e => rfl
  | ok digests =>
    simp only [prepareLayers_congr h.1 elsewhere elsewhere' d.layers digests (hkeys _ hdigests)]

lemma prepareBaseRootfs_congr (h : Content.AgreesApart name s t) (d : ImageDir) :
    prepareBaseRootfs u s svc faults referenceStr d =
      prepareBaseRootfs u t svc faults referenceStr d := by
  simp only [prepareBaseRootfs, prepareRootfs, layerDigests_congr hparse hname h,
    unpackLayers_congr h.1]

end

/-! ## Separation -/

section

variable {u : Unpacker} {svc : Service} {elsewhere : Store → List Char → List Char → Bool}
  {faults : Faults} {name : List Char} {P : Content → Prop}

lemma Store.AgreesApart.content {s t : Store} (h : Store.AgreesApart name s t) :
    Content.AgreesApart name s.content t.content := ⟨h.blobs, h.links⟩

/-- A program on the content store that respects the name keeps clear of it. -/
lemma keepsClear_of_respects {ε α : Type} {c : Prog Content ε α} (reply : Outcome ε α → Reply)
    (hc : Respects (Content.AgreesApart name) c)
    (hlinks : ∀ s, (c [] s).2.2.links name = s.links name) :
    KeepsClear name P fun s =>
      (reply (c [] s.content).1, { s with content := (c [] s.content).2.2 }) := by
  refine fun s _ => ⟨hlinks s.content, rfl, fun t h => ?_⟩
  obtain ⟨hreply, -, hcontent⟩ := hc [] _ _ h.content
  exact ⟨congrArg reply hreply, hcontent.1, hcontent.2, h.images⟩

/-- An operation on the directory of another name keeps clear of the name. -/
lemma keepsClear_of_congr {β : Type} {name' : List Char} {f : Store → ImageDir → β × ImageDir}
    (reply : β → Reply) (hname : name' ≠ name)
    (hf : ∀ s t d, P s.content → Content.AgreesApart name s.content t.content → f s d = f t d) :
    KeepsClear name P fun s =>
      (reply (f s (s.images name')).1,
        { s with images := update s.images name' (f s (s.images name')).2 }) := by
  refine fun s hs => ⟨rfl, update_of_ne (.symm hname) _ _, fun t h => ?_⟩
  have heq : f s (s.images name') = f t (t.images name') := by
    rw [hf _ _ _ hs h.content, h.images name' hname]
  refine ⟨congrArg (fun r => reply r.1) heq, h.blobs, h.links, fun m hm => ?_⟩
  simp only [heq, update_apply]
  split_ifs
  · rfl
  · exact h.images m hm

/-- **Operations for one reference keep clear of another name.** -/
lemma perform_keepsClear {referenceStr : List Char} {reference : ImageReference}
    (hparse : ImageReference.parse referenceStr = .ok reference)
    (hname : safeName reference.toStringCanonical ≠ name) (op : ImageOp) :
    KeepsClear name (NamesLayers svc faults referenceStr)
      (perform u svc elsewhere faults referenceStr reference op) := by
  cases op with
  | PutManifest manifest =>
    exact keepsClear_of_respects Reply.Stored (putManifest_respects hname manifest)
      (putManifest_links hname manifest)
  | GetManifest =>
    exact fun s _ => ⟨rfl, rfl, fun t h =>
      ⟨congrArg Reply.Manifest (getManifest_congr h.content hname), h⟩⟩
  | RemoveImage =>
    exact keepsClear_of_respects Reply.Removed (removeImage_respects hparse hname)
      (removeImage_links hparse hname)
  | PrepareLayers =>
    exact keepsClear_of_congr Reply.Layers hname fun s t d hs h =>
      prepareImageLayers_congr hparse hname h hs _ _ d
  | PrepareBaseRootfs =>
    exact keepsClear_of_congr Reply.Rootfs hname fun s t d _ h =>
      prepareBaseRootfs_congr hparse hname h d

end

/-- **When references do not alias.**  The operations for one reference keep clear of the link and
    the image directory of another one if and only if their canonical forms differ in more than
    slashes, colons and underscores.  The layers of the image have keys that are names. -/
theorem references_separate_iff (u : Unpacker) (svc : Service)
    (elsewhere : Store → List Char → List Char → Bool) (a b : List Char)
    (ra rb : ImageReference) (ha : ImageReference.parse a = .ok ra)
    (_hb : ImageReference.parse b = .ok rb) :
    (∀ faults op, KeepsClear (safeName rb.toStringCanonical) (NamesLayers svc faults a)
      (perform u svc elsewhere faults a ra op)) ↔
      ¬ List.Forall₂ Alike ra.toStringCanonical rb.toStringCanonical := by
  rw [← safeName_eq_iff]
  constructor
  · -- with one name, storing a manifest for one reference links it for the other
    intro h hname
    have hnone : NamesLayers svc Faults.clean a Store.empty.content := by
      intro digests hdigests
      rw [layerDigests, loadManifest, parseReference, ha] at hdigests
      cases hdigests
    have hlink := (h Faults.clean (.PutManifest []) Store.empty hnone).1
    rw [← hname] at hlink
    have hput : (perform u svc elsewhere Faults.clean a ra (.PutManifest [])
        Store.empty).2.content.links (safeName ra.toStringCanonical) =
          some (Digest.fromData svc.sha []).text := by
      simp only [perform]
      exact Function.update_self _ _ _
    rw [hput] at hlink
    cases hlink
  · exact fun hname faults op => perform_keepsClear ha hname op

/-- A service and an unpacker for evaluation. -/
def plainService : Service where
  sha := .sample
  arch := []
  serde := ⟨fun _ => .error [], fun _ => .error [], fun _ => .ok ()⟩

def plainUnpacker : Unpacker := ⟨plantingTar, fun _ => []⟩

def taggedReference (repository tag : String) : ImageReference :=
  ⟨"reg.io".toList, repository.toList, tag.toList, none⟩

/-- Two references of one repository with different tags are kept apart. -/
theorem references_separate_iff_tags :
    ¬ List.Forall₂ Alike (taggedReference "app" "1").toStringCanonical
        (taggedReference "app" "2").toStringCanonical ∧
    ∀ faults op, KeepsClear (safeName (taggedReference "app" "2").toStringCanonical)
      (NamesLayers plainService faults "reg.io/app:1".toList)
      (perform plainUnpacker plainService (fun _ _ _ => true) faults "reg.io/app:1".toList
        (taggedReference "app" "1") op) := by
  have hiff := references_separate_iff plainUnpacker plainService (fun _ _ _ => true)
    "reg.io/app:1".toList "reg.io/app:2".toList (taggedReference "app" "1")
    (taggedReference "app" "2") (by decide +kernel) (by decide +kernel)
  have hdiffer : ¬ List.Forall₂ Alike (taggedReference "app" "1").toStringCanonical
      (taggedReference "app" "2").toStringCanonical := by
    rw [← safeName_eq_iff]
    decide +kernel
  exact ⟨hdiffer, hiff.mpr hdiffer⟩

/-- **Two images, one link.**  The references `reg.io/a/b:1` and `reg.io/a_b:1` have different
    canonical forms.  Once a manifest is stored for the first, the second reads it, and removing the
    second removes it. -/
theorem references_alias :
    let first := taggedReference "a/b" "1"
    let second := taggedReference "a_b" "1"
    let stored := (perform plainUnpacker plainService (fun _ _ _ => false) Faults.clean
      "reg.io/a/b:1".toList first (.PutManifest [7]) Store.empty).2
    let removed := (perform plainUnpacker plainService (fun _ _ _ => false) Faults.clean
      "reg.io/a_b:1".toList second .RemoveImage stored).2
    ImageReference.parse "reg.io/a/b:1".toList = .ok first ∧
    ImageReference.parse "reg.io/a_b:1".toList = .ok second ∧
    first.toStringCanonical ≠ second.toStringCanonical ∧
    stored.content.getManifest Faults.clean second.toStringCanonical = .ok (some [7]) ∧
    removed.content.getManifest Faults.clean first.toStringCanonical = .ok none := by
  refine ⟨?_, ?_, ?_, ?_, ?_⟩ <;> decide +kernel

end Rauha.Oci
