import Rauha.Library.CrashLogic
import Rauha.Oci.Reference

/-!
# The content store

Blobs by digest, and links from references to the digests of their manifests.  Both are files:
`blobs/sha256/{hex}` holds a blob, `manifests/{name}.json` the digest of a manifest, where the name
is the flattened canonical form of the reference (`safeName`).

A file is written in place.  `Faults` says what becomes of the writes of one operation; nothing but
the files is kept, so a store that is opened again after a crash goes on from the files as they
are.
-/

namespace Rauha.Oci

open CrashLogic List Function

abbrev Bytes := List UInt8

/-! ## Digests -/

def isAsciiHexdigit (c : Char) : Bool :=
  ('0' ≤ c && c ≤ '9') || ('a' ≤ c && c ≤ 'f') || ('A' ≤ c && c ≤ 'F')

lemma le_z_of_isAsciiHexdigit {c : Char} (h : isAsciiHexdigit c = true) : c ≤ 'z' := by
  simp only [isAsciiHexdigit, Bool.or_eq_true, Bool.and_eq_true, decide_eq_true_eq] at h
  rcases h with (h | h) | h <;> exact Char.le_trans h.2 (by decide)

/-- A digest in the form `sha256:{hex}`. -/
structure Digest where
  text : List Char
  isSha256 : "sha256:".toList <+: text
  hex_length : (text.drop 7).length = 64
  hex_digits : (text.drop 7).all isAsciiHexdigit = true
  deriving DecidableEq

/-- **SHA-256** in hexadecimal. -/
structure Sha256 where
  hex : Bytes → List Char
  hex_length : ∀ data, (hex data).length = 64
  hex_digits : ∀ data, (hex data).all isAsciiHexdigit = true

/-- A stand-in that can be evaluated: the bytes themselves, cut or filled up to length. -/
def Sha256.sample : Sha256 where
  hex data := (data.flatMap (fun b => [Nat.digitChar (b.toNat / 16), Nat.digitChar (b.toNat % 16)])
    ++ List.replicate 64 '0').take 64
  hex_length data := by simp
  hex_digits data := by
    have hdigit : ∀ n < 16, isAsciiHexdigit (Nat.digitChar n) = true := by decide
    refine all_eq_true.mpr fun c hc => ?_
    rcases mem_append.mp (mem_of_mem_take hc) with hc | hc
    · obtain ⟨b, -, hb⟩ := mem_flatMap.mp hc
      have hlt := b.toNat_lt
      rcases mem_cons.mp hb with rfl | hb
      · exact hdigit _ (by omega)
      · rw [mem_singleton.mp hb]
        exact hdigit _ (by omega)
    · rw [eq_of_mem_replicate hc]
      decide

variable {digest : Digest} {n : ℕ}

namespace Digest

def parse (s : List Char) : Option Digest :=
  if h : "sha256:".toList <+: s ∧ (s.drop 7).length = 64 ∧
      (s.drop 7).all isAsciiHexdigit = true then
    some ⟨s, h.1, h.2.1, h.2.2⟩
  else none

def fromData (sha : Sha256) (data : Bytes) : Digest where
  text := "sha256:".toList ++ sha.hex data
  isSha256 := prefix_append _ _
  hex_length := sha.hex_length data
  hex_digits := sha.hex_digits data

def validate (sha : Sha256) (digest : Digest) (data : Bytes) : Bool :=
  fromData sha data = digest

lemma parse_eq_some {s : List Char} : parse s = some digest ↔ digest.text = s := by
  unfold parse
  constructor
  · intro h
    split_ifs at h
    cases h
    rfl
  · rintro rfl
    rw [dif_pos ⟨digest.isSha256, digest.hex_length, digest.hex_digits⟩]

lemma parse_text (digest : Digest) : parse digest.text = some digest := parse_eq_some.mpr rfl

lemma text_eq (digest : Digest) : digest.text = "sha256:".toList ++ digest.text.drop 7 := by
  obtain ⟨rest, hrest⟩ := digest.isSha256
  rw [← hrest]
  rfl

lemma length_text (digest : Digest) : digest.text.length = 71 := by
  rw [text_eq, length_append, digest.hex_length]
  rfl

/-- A part of a digest is none. -/
lemma parse_take (h : n < 71) : parse (digest.text.take n) = none := by
  cases hparse : parse (digest.text.take n) with
  | none => rfl
  | some d =>
    have hlength := d.length_text
    rw [parse_eq_some.mp hparse, length_take, length_text] at hlength
    omega

lemma isWhitespace_of_mem_text {c : Char} (hc : c ∈ digest.text) : Text.isWhitespace c = false := by
  rw [text_eq] at hc
  rcases mem_append.mp hc with hc | hc
  · have hall : "sha256:".toList.all (!Text.isWhitespace ·) = true := by decide
    simpa using all_eq_true.mp hall c hc
  · have hhex := all_eq_true.mp digest.hex_digits c hc
    exact Text.of_le_z (q := fun c => isAsciiHexdigit c = true → Text.isWhitespace c = false)
      (by decide) (le_z_of_isAsciiHexdigit hhex) hhex

/-- Nothing is trimmed off a digest, or off a part of one. -/
lemma trim_take (digest : Digest) (n : ℕ) : Text.trim (digest.text.take n) = digest.text.take n :=
  Text.trim_of_forall fun _ hc => isWhitespace_of_mem_text (mem_of_mem_take hc)

lemma trim_text (digest : Digest) : Text.trim digest.text = digest.text :=
  Text.trim_of_forall fun _ hc => isWhitespace_of_mem_text hc

end Digest

/-! ## The store -/

/-- The files of the store: the blobs by digest, the links by file name. -/
structure Content where
  blobs : Digest → Option Bytes
  links : List Char → Option (List Char)

/-- What becomes of the writes and reads of one operation on the store. -/
structure Faults where
  blob : Bytes → WriteFate
  link : WriteFate
  remove : Verdict
  readLink : Bool
  readBlob : Bool

/-- No fault at all. -/
def Faults.clean : Faults := ⟨fun _ => .done, .done, .ok, true, true⟩

inductive IoError where
  | Os
  | NotFound
  | CorruptManifestReference
  deriving DecidableEq, Repr

namespace IoError

def display : IoError → List Char
  | Os => "input/output error".toList
  | NotFound => "No such file or directory".toList
  | CorruptManifestReference => "corrupt manifest reference".toList

end IoError

namespace Content

def empty : Content := ⟨fun _ => none, fun _ => none⟩

def setBlob (s : Content) (digest : Digest) (file : Option Bytes) : Content :=
  { s with blobs := Function.update s.blobs digest file }

def setLink (s : Content) (name : List Char) (file : Option (List Char)) : Content :=
  { s with links := Function.update s.links name file }

@[simp] lemma setBlob_blobs (s : Content) (digest : Digest) (file : Option Bytes) :
    (s.setBlob digest file).blobs = update s.blobs digest file := rfl

@[simp] lemma setLink_links (s : Content) (name : List Char) (file : Option (List Char)) :
    (s.setLink name file).links = update s.links name file := rfl

def hasBlob (s : Content) (digest : Digest) : Bool := (s.blobs digest).isSome

/-- Read a blob by digest. -/
def getBlob (faults : Faults) (s : Content) (digest : Digest) : Except IoError Bytes :=
  match s.blobs digest with
  | none => .error .NotFound
  | some data => if faults.readBlob then .ok data else .error .Os

/-- The manifest bytes for a reference. -/
def getManifest (faults : Faults) (s : Content) (reference : List Char) :
    Except IoError (Option Bytes) :=
  match s.links (safeName reference) with
  | none => .ok none
  | some digestStr =>
    if faults.readLink = false then .error .Os
    else
      match Digest.parse (Text.trim digestStr) with
      | none => .error .CorruptManifestReference
      | some digest => (s.getBlob faults digest).map some

variable {s : Content} {reference : List Char}

/-- What is read through a link that was written as a whole. -/
lemma getManifest_of_link (h : s.links (safeName reference) = some digest.text) :
    s.getManifest .clean reference = (s.getBlob .clean digest).map some := by
  simp only [getManifest, h, Digest.trim_text, Digest.parse_text]
  rfl

/-- A link that was written in part cannot be read. -/
lemma getManifest_of_part (hn : n < 71)
    (h : s.links (safeName reference) = some (digest.text.take n)) :
    s.getManifest .clean reference = .error .CorruptManifestReference := by
  simp only [getManifest, h, Digest.trim_take, Digest.parse_take hn]
  rfl

/-- A read that goes through reads what is there. -/
lemma getManifest_of_ok {faults : Faults} {bytes : Option Bytes}
    (h : s.getManifest faults reference = .ok bytes) :
    s.getManifest .clean reference = .ok bytes := by
  unfold getManifest at h ⊢
  cases hlink : s.links (safeName reference) with
  | none =>
    rw [hlink] at h
    exact h
  | some text =>
    rw [hlink] at h
    simp only at h ⊢
    split_ifs at h
    rw [if_neg (by simp [Faults.clean])]
    cases hparse : Digest.parse (Text.trim text) with
    | none =>
      rw [hparse] at h
      cases h
    | some digest =>
      rw [hparse] at h
      simp only [getBlob] at h ⊢
      cases hblob : s.blobs digest with
      | none =>
        rw [hblob] at h
        cases h
      | some data =>
        rw [hblob] at h
        simp only at h ⊢
        split_ifs at h
        · exact h
        · cases h

end Content

section

variable (sha : Sha256) (faults : Faults)

/-- Store a blob, returning its digest. -/
def putBlob (data : Bytes) : Prog Content IoError Digest := do
  let s ← .getState
  let digest := .fromData sha data
  if s.hasBlob digest then pure digest
  else do
    .writeFile (faults.blob data) (fun s => s.blobs digest) (fun s => s.setBlob digest) data .Os
    pure digest

/-- Store a manifest and link it to a reference name. -/
def putManifest (reference : List Char) (manifest : Bytes) : Prog Content IoError Digest := do
  let digest ← putBlob sha faults manifest
  .writeFile faults.link (fun s => s.links (safeName reference))
    (fun s => s.setLink (safeName reference)) digest.text .Os
  pure digest

end

/-! ## What the operations do -/

section

variable {sha : Sha256} {faults : Faults} {s : Content} {E : IoError → Content → Prop}
  {C : Content → Prop}

/-- The store after a write of a blob: unchanged if the blob was there. -/
def storeBlob (sha : Sha256) (faults : Faults) (s : Content) (data : Bytes) : Content :=
  if s.hasBlob (.fromData sha data) then s
  else s.setBlob (.fromData sha data) ((faults.blob data).leaves none data)

@[simp] lemma storeBlob_links (data : Bytes) : (storeBlob sha faults s data).links = s.links := by
  unfold storeBlob
  split_ifs <;> rfl

lemma putBlob_at {R : Digest → Content → Prop} {data : Bytes}
    (hdone : (s.hasBlob (.fromData sha data) = true ∨ faults.blob data = .done) →
      R (.fromData sha data) (storeBlob sha faults s data))
    (hfailed : ∀ w, s.hasBlob (.fromData sha data) = false → faults.blob data = .failed w →
      E .Os (storeBlob sha faults s data))
    (hcut : ∀ w, s.hasBlob (.fromData sha data) = false → faults.blob data = .cut w →
      C (storeBlob sha faults s data)) :
    Triple (· = s) (putBlob sha faults data) R E C := by
  refine .bind_at (.getState_at ?_)
  by_cases hblob : s.hasBlob (.fromData sha data) = true
  · simp only [hblob, if_true]
    refine .pure_at ?_
    have h := hdone (.inl hblob)
    rwa [storeBlob, if_pos hblob] at h
  · have hnone : s.blobs (.fromData sha data) = none := by
      simpa [Content.hasBlob] using hblob
    simp only [storeBlob, if_neg hblob] at hdone hfailed hcut
    rw [if_neg hblob]
    refine .bind_at (.writeFile_at ?_ ?_ ?_)
    · intro hfate
      refine .pure_at ?_
      have h := hdone (.inr hfate)
      rwa [hfate] at h
    · intro w hfate
      rw [hnone]
      exact hfailed w (Bool.eq_false_iff.mpr hblob) hfate
    · intro w hfate
      rw [hnone]
      exact hcut w (Bool.eq_false_iff.mpr hblob) hfate

end

end Rauha.Oci
