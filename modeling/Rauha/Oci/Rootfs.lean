import Rauha.Oci.Layers

/-!
# Root file systems of images

Two ways to a root file system.  `prepareRootfs` unpacks all layers in order into one directory;
`prepareBaseRootfs` does so once for each image.  `prepareLayers` unpacks each layer into a
directory of its own, named after the beginning of its digest, and `doOverlayMount` stacks these
directories.

A directory that layers are unpacked into is a file system of its own here, with the directory as
its root.  The name of a layer's directory is made from a digest that has not been checked yet, so
it may be a path that leads out of the directory of the image: what such a key finds is a parameter,
`elsewhere`.
-/

namespace Rauha.Oci

open FileTree

/-- How the bytes of a layer are read as an archive, and how its entries are written. -/
structure Unpacker where
  tar : Tar
  archiveOf : Bytes → List (Except Error TarEntry × Troubles)

section

variable (u : Unpacker) (s : Content)

/-- Unpack the blob of a layer into a directory. -/
def unpackBlob (blob : Bytes) (host : Host) : Except Error Unit × Host :=
  unpackLayer u.tar [] host (u.archiveOf blob)

/-! ## One directory for all layers -/

/-- Unpack layers in order. -/
def unpackLayers : Host → List (List Char) → Except Error Unit × Host
  | host, [] => (.ok (), host)
  | host, layer :: layers =>
    match Digest.parse layer with
    | none => (.error (.RootfsError ("invalid layer digest: ".toList ++ layer)), host)
    | some digest =>
      match s.blobs digest with
      | none =>
        (.error (.RootfsError ("failed to open layer blob ".toList ++ digest.text)), host)
      | some blob =>
        match unpackBlob u blob host with
        | (.error e, host) => (.error e, host)
        | (.ok _, host) => unpackLayers host layers

/-- Unpack the layers of an image into a directory. -/
def prepareRootfs (svc : Service) (faults : Faults) (referenceStr : List Char) (host : Host) :
    Except Error Unit × Host :=
  match layerDigests svc faults s referenceStr with
  | .error e => (.error e, host)
  | .ok layers => unpackLayers u s host layers

/-! ## One directory for each layer -/

/-- The directory `layers` of an image: a directory for each key, and the marks of those that are
    complete. -/
structure LayersDir where
  dirs : List Char → Option Host
  marks : List Char → Bool

namespace LayersDir

def setDir (d : LayersDir) (key : List Char) (host : Host) : LayersDir :=
  { d with dirs := Function.update d.dirs key (some host) }

def mark (d : LayersDir) (key : List Char) : LayersDir :=
  { d with marks := Function.update d.marks key true }

end LayersDir

/-- The name of the directory of a layer: the first twelve digits of its digest. -/
def digestKey (digestStr : List Char) : List Char :=
  if "sha256:".toList <+: digestStr then (digestStr.drop 7).take 12 else digestStr.take 12

/-- A key that names a file in the directory itself. -/
def isName (key : List Char) : Bool := key.all fun c => decide (c ≠ '/' ∧ c ≤ 'z')

/-- The keys of digests are names. -/
lemma isName_digestKey {digestStr : List Char} {digest : Digest}
    (h : Digest.parse digestStr = some digest) : isName (digestKey digestStr) = true := by
  have htext := Digest.parse_eq_some.mp h
  subst htext
  refine List.all_eq_true.mpr fun c hc => decide_eq_true ?_
  rw [digestKey, if_pos digest.isSha256] at hc
  have hdigit := List.all_eq_true.mp digest.hex_digits c (List.mem_of_mem_take hc)
  refine ⟨?_, le_z_of_isAsciiHexdigit hdigit⟩
  rintro rfl
  exact absurd hdigit (by decide)

variable (elsewhere : List Char → Bool)

/-- Whether there is a mark for a key. -/
def LayersDir.marked (d : LayersDir) (key : List Char) : Bool :=
  if isName key then d.marks key else elsewhere key

/-- Unpack each layer that is not complete yet, and return the directories from the bottom up. -/
def prepareLayers : LayersDir → List (List Char) → Except Error (List (List Char)) × LayersDir
  | d, [] => (.ok [], d)
  | d, digestStr :: rest =>
    let key := digestKey digestStr
    if d.marked elsewhere key then
      match prepareLayers d rest with
      | (.error e, d) => (.error e, d)
      | (.ok keys, d) => (.ok (key :: keys), d)
    else
      match Digest.parse digestStr with
      | none => (.error (.RootfsError ("invalid layer digest: ".toList ++ digestStr)), d)
      | some digest =>
        -- what a broken extraction has left is removed first
        match s.blobs digest with
        | none =>
          (.error (.RootfsError ("failed to open layer blob ".toList ++ digest.text)),
            d.setDir key .empty)
        | some blob =>
          match unpackBlob u blob .empty with
          | (.error e, host) => (.error e, d.setDir key host)
          | (.ok _, host) =>
            match prepareLayers ((d.setDir key host).mark key) rest with
            | (.error e, d) => (.error e, d)
            | (.ok keys, d) => (.ok (key :: keys), d)

/-- **The overlay**: the layers below the container's own directory, which is empty at first.  The
    kernel refuses to stack a directory on itself. -/
def doOverlayMount (d : LayersDir) (keys : List (List Char)) :
    Except Error (List Name → Option (Node Name Bytes)) :=
  if keys = [] then .error (.RootfsError "no layers to mount".toList)
  else if ¬ keys.Nodup then .error (.RootfsError "overlayfs mount failed".toList)
  else
    .ok (view (.empty :: (keys.map fun key => (d.dirs key).getD .empty).reverse))

/-! ## The directory of an image -/

/-- The directory of an image: the layers, the root file system, the one being extracted, and the
    mark that it is complete. -/
structure ImageDir where
  layers : LayersDir
  rootfs : Option Host
  extracting : Option Host
  complete : Bool

def ImageDir.empty : ImageDir := ⟨⟨fun _ => none, fun _ => false⟩, none, none, false⟩

/-- Unpack an image into its directory, unless that is complete.  It is unpacked beside and moved
    into place. -/
def prepareBaseRootfs (svc : Service) (faults : Faults) (referenceStr : List Char) (d : ImageDir) :
    Except Error Unit × ImageDir :=
  if d.complete then (.ok (), d)
  else
    match prepareRootfs u s svc faults referenceStr .empty with
    | (.error e, host) => (.error e, { d with extracting := some host })
    | (.ok _, host) =>
      (.ok (), { d with rootfs := some host, extracting := none, complete := true })

/-- Unpack the layers of an image into its directory. -/
def prepareImageLayers (svc : Service) (faults : Faults) (referenceStr : List Char)
    (d : ImageDir) : Except Error (List (List Char)) × ImageDir :=
  match layerDigests svc faults s referenceStr with
  | .error e => (.error e, d)
  | .ok digests =>
    match prepareLayers u s elsewhere d.layers digests with
    | (r, layers) => (r, { d with layers := layers })

end

end Rauha.Oci
