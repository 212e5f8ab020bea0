import Rauha.Library.Transition
import Rauha.Oci.Content

/-!
# Pulling images

`pull` looks for a complete image in the store, asks the registry for the manifest, links it, and
then fetches its config and its layers.  What the registry answers is a `Registry`, one for each
pull: any bytes or any error, request by request.  What `serde_json` makes of bytes is a `Serde`.

The operations on the store are the events of a system whose state is the files (`step`): every
sequence of them, with any answers of the registries and any faults of the disk, is a run.
-/

namespace Rauha.Oci

open CrashLogic

/-! ## Documents -/

structure OciDescriptor where
  mediaType : List Char
  digest : List Char
  size : ℕ
  deriving DecidableEq, Repr

structure OciManifest where
  schemaVersion : ℕ
  mediaType : List Char
  config : OciDescriptor
  layers : List OciDescriptor
  deriving DecidableEq, Repr

structure OciPlatform where
  architecture : List Char
  os : List Char
  deriving DecidableEq, Repr

structure OciPlatformManifest where
  mediaType : List Char
  digest : List Char
  size : ℕ
  platform : Option OciPlatform
  deriving DecidableEq, Repr

structure OciIndex where
  schemaVersion : ℕ
  manifests : List OciPlatformManifest
  deriving DecidableEq, Repr

/-- **The reading of documents**: a document or the text of an error. -/
structure Serde where
  manifest : Bytes → Except (List Char) OciManifest
  index : Bytes → Except (List Char) OciIndex
  config : Bytes → Except (List Char) Unit

/-- What the service is built with: the hash, the reader, and the architecture it runs on. -/
structure Service where
  sha : Sha256
  serde : Serde
  arch : List Char

inductive Error where
  | ImagePullError (reference message : List Char)
  | ContentError (message : List Char)
  | RootfsError (message : List Char)
  | ImageNotFound (reference : List Char)
  deriving DecidableEq, Repr

/-- **The answers of a registry** to one pull: to the request for the manifest, to the one for a
    platform's manifest, and to those for blobs. -/
structure Registry where
  manifest : Except Error Bytes
  platform : List Char → Except Error Bytes
  blob : Digest → Except Error Bytes

def OciManifest.entries (m : OciManifest) : List OciDescriptor := m.config :: m.layers

/-! ## The manifest -/

def verifyManifestDigest (svc : Service) (expected : Option (List Char)) (body : Bytes)
    (reference : List Char) : Except Error Unit :=
  match expected with
  | none => .ok ()
  | some expected =>
    match Digest.parse expected with
    | none => .error (.ImagePullError reference ("invalid manifest digest: ".toList ++ expected))
    | some digest =>
      if digest.validate svc.sha body then .ok ()
      else
        .error (.ImagePullError reference
          ("manifest digest mismatch for ".toList ++ digest.text))

def OciPlatformManifest.isFor (os arch : List Char) (m : OciPlatformManifest) : Bool :=
  match m.platform with
  | none => false
  | some p => p.os == os && p.architecture == arch

/-- The entry for the platform, or else the one for the most common platform. -/
def selectPlatform (svc : Service) (index : OciIndex) : Option OciPlatformManifest :=
  (index.manifests.find? (OciPlatformManifest.isFor "linux".toList svc.arch)).or
    (index.manifests.find? (OciPlatformManifest.isFor "linux".toList "amd64".toList))

/-- The manifest bytes that the registry offers for a reference.  A document that is no manifest is
    read as an index, and then the entry selected from it is fetched by its digest. -/
def fetchManifest (svc : Service) (registry : Registry) (reference : ImageReference) :
    Except Error Bytes := do
  let canonical := reference.toStringCanonical
  let body ← registry.manifest
  verifyManifestDigest svc reference.digest body canonical
  match svc.serde.manifest body with
  | .ok _ => pure body
  | .error _ =>
    let index ← (svc.serde.index body).mapError fun e =>
      .ImagePullError canonical
        ("invalid manifest JSON (not a manifest or index): ".toList ++ e)
    match selectPlatform svc index with
    | none =>
      throw (.ImagePullError canonical
        ("no manifest for platform linux/".toList ++ svc.arch ++ " in index".toList))
    | some entry =>
      let manifestBody ← registry.platform entry.digest
      verifyManifestDigest svc (some entry.digest) manifestBody canonical
      pure manifestBody

section

variable (svc : Service) (faults : Faults) (registry : Registry)

/-- Pull and store a manifest, returning it parsed.  A single manifest has been parsed before it is
    stored, the manifest of a platform is parsed afterwards. -/
def pullManifest (reference : ImageReference) : Prog Content Error OciManifest := do
  let canonical := reference.toStringCanonical
  let body ← .ofExcept (fetchManifest svc registry reference)
  let _ ← .mapError
    (fun e => .ContentError ("failed to store manifest: ".toList ++ e.display))
    (putManifest svc.sha faults canonical body)
  .ofExcept ((svc.serde.manifest body).mapError fun e =>
    .ImagePullError canonical ("invalid platform manifest JSON: ".toList ++ e))

/-! ## The blobs -/

/-- Pull and store a blob, unless it is there already. -/
def pullBlob (digest : Digest) : Prog Content Error Unit := do
  let s ← .getState
  if s.hasBlob digest then pure ()
  else do
    let bytes ← .ofExcept (registry.blob digest)
    .failIf (digest.validate svc.sha bytes = false)
      (.ContentError ("digest mismatch for ".toList ++ digest.text))
    let _ ← .mapError
      (fun e => .ContentError ("failed to store blob: ".toList ++ e.display))
      (putBlob svc.sha faults bytes)
    pure ()

/-- Pull the blob of a descriptor; `what` it is for goes into the error. -/
def pullEntry (referenceStr what : List Char) (entry : OciDescriptor) :
    Prog Content Error Unit :=
  match Digest.parse entry.digest with
  | none =>
    .raise (.ImagePullError referenceStr
      ("invalid ".toList ++ what ++ " digest: ".toList ++ entry.digest))
  | some digest => pullBlob svc faults registry digest

def pullLayers (referenceStr : List Char) : List OciDescriptor → Prog Content Error Unit
  | [] => pure ()
  | layer :: layers => do
    pullEntry svc faults registry referenceStr "layer".toList layer
    pullLayers referenceStr layers

end

/-! ## Images in the store -/

namespace Content

def manifestBlobsPresent (s : Content) (manifest : OciManifest) : Bool :=
  manifest.entries.all fun entry =>
    match Digest.parse entry.digest with
    | none => false
    | some digest => s.hasBlob digest

/-- The manifest among the bytes linked to a reference, if it is one and its blobs are there. -/
def cached (svc : Service) (s : Content) (bytes : Option Bytes) : Option OciManifest :=
  match bytes with
  | none => none
  | some bytes =>
    match svc.serde.manifest bytes with
    | .error _ => none
    | .ok manifest => if s.manifestBlobsPresent manifest then some manifest else none

end Content

section

variable {svc : Service} {s : Content}

lemma manifestBlobsPresent_iff {manifest : OciManifest} :
    s.manifestBlobsPresent manifest = true ↔ ∀ entry ∈ manifest.entries,
      ∃ digest, Digest.parse entry.digest = some digest ∧ s.hasBlob digest = true := by
  rw [Content.manifestBlobsPresent, List.all_eq_true]
  refine forall₂_congr fun entry _ => ?_
  cases Digest.parse entry.digest <;> simp

lemma cached_eq_some {bytes : Option Bytes} {manifest : OciManifest} :
    s.cached svc bytes = some manifest ↔ ∃ b, bytes = some b ∧
      svc.serde.manifest b = .ok manifest ∧ s.manifestBlobsPresent manifest = true := by
  unfold Content.cached
  cases bytes with
  | none => simp
  | some b =>
    cases hparse : svc.serde.manifest b with
    | error e => simp [hparse]
    | ok m =>
      simp only [Option.some.injEq, exists_eq_left', hparse, Except.ok.injEq]
      split_ifs with h
      · constructor
        · rintro ⟨⟩
          exact ⟨rfl, h⟩
        · rintro ⟨rfl, -⟩
          rfl
      · simp only [false_iff, not_and]
        rintro rfl
        exact h

end

section

variable (svc : Service) (faults : Faults)

def parseReference (referenceStr : List Char) : Except Error ImageReference :=
  (ImageReference.parse referenceStr).mapError fun e => .ImagePullError referenceStr e

/-- The part of a pull that asks the registry; the cache stands in when there is no manifest to be
    had. -/
def pullFromRegistry (registry : Registry) (referenceStr : List Char) (reference : ImageReference)
    (cached : Option OciManifest) : Prog Content Error OciManifest := do
  let answer ← .attempt (pullManifest svc faults registry reference)
  match answer, cached with
  | .error error, none => .raise error
  | .error _, some manifest => pure manifest
  | .ok manifest, _ => do
    pullEntry svc faults registry referenceStr "config".toList manifest.config
    pullLayers svc faults registry referenceStr manifest.layers
    pure manifest

/-- Pull an image from a registry, storing its blobs.  A digest cannot move, so that a complete
    cache is final for it. -/
def pull (registry : Registry) (referenceStr : List Char) : Prog Content Error OciManifest := do
  let reference ← .ofExcept (parseReference referenceStr)
  let s ← .getState
  let bytes ← .ofExcept ((s.getManifest faults reference.toStringCanonical).mapError fun e =>
    .ContentError ("failed to read cached manifest: ".toList ++ e.display))
  match reference.digest, s.cached svc bytes with
  | some _, some manifest => pure manifest
  | _, cached => pullFromRegistry svc faults registry referenceStr reference cached

/-- Remove the link of an image; the blobs stay. -/
def removeImage (referenceStr : List Char) : Prog Content Error Unit := do
  let reference ← .ofExcept (parseReference referenceStr)
  let name := safeName reference.toStringCanonical
  let s ← .getState
  if (s.links name).isSome then
    .judged faults.remove
      (.ContentError ("failed to remove manifest ref: ".toList ++ IoError.Os.display))
      fun s => s.setLink name none
  else pure ()

/-- The manifest of a stored image, its bytes included. -/
def loadManifest (s : Content) (referenceStr : List Char) (missing : Error) :
    Except Error (Bytes × OciManifest) := do
  let reference ← parseReference referenceStr
  match s.getManifest faults reference.toStringCanonical with
  | .error e => throw (.ContentError ("failed to read manifest: ".toList ++ e.display))
  | .ok none => throw missing
  | .ok (some bytes) =>
    match svc.serde.manifest bytes with
    | .error e => throw (.ContentError ("corrupt manifest: ".toList ++ e))
    | .ok manifest => pure (bytes, manifest)

/-- The digests of the layers of a stored image. -/
def layerDigests (s : Content) (referenceStr : List Char) : Except Error (List (List Char)) := do
  let (_, manifest) ← loadManifest svc faults s referenceStr
    (.ImagePullError referenceStr "image not pulled — run `rauha image pull` first".toList)
  pure (manifest.layers.map OciDescriptor.digest)

end

/-! ## Runs of the store -/

/-- An operation on the store. -/
inductive Op where
  | PutBlob (data : Bytes)
  | PutManifest (reference : List Char) (manifest : Bytes)
  | PullBlob (registry : Registry) (digest : Digest)
  | Pull (registry : Registry) (referenceStr : List Char)
  | RemoveImage (referenceStr : List Char)

/-- An operation and what becomes of its reads and writes. -/
structure Event where
  op : Op
  faults : Faults

/-- The files after an operation, whether it returned, failed or was cut short. -/
def step (svc : Service) (s : Content) (e : Event) : Content :=
  match e.op with
  | .PutBlob data => (putBlob svc.sha e.faults data [] s).2.2
  | .PutManifest reference manifest => (putManifest svc.sha e.faults reference manifest [] s).2.2
  | .PullBlob registry digest => (pullBlob svc e.faults registry digest [] s).2.2
  | .Pull registry referenceStr => (pull svc e.faults registry referenceStr [] s).2.2
  | .RemoveImage referenceStr => (removeImage e.faults referenceStr [] s).2.2

end Rauha.Oci
