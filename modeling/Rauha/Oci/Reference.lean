import Rauha.Library.Text

/-!
# Image references

How an image reference is read, what its canonical form is, and under which file name the store
keeps what belongs to it.  The file name is the canonical form with `/` and `:` written as `_`, so
different canonical forms can get one name; `safeName_eq_iff` says exactly which.

The `@` in front of a digest survives the renaming.  Hence references of one file name are pinned to
the same digest or not pinned at all (`digest_of_safeName_eq`), as far as their digests are ones.
-/

namespace Rauha.Oci

open List

/-- A parsed image reference. -/
structure ImageReference where
  registry : List Char
  repository : List Char
  tag : List Char
  digest : Option (List Char)
  deriving DecidableEq, Repr

namespace ImageReference

def dockerHub : List Char := "registry-1.docker.io".toList

/-- What stands in front of the first `@`, and the digest behind it. -/
def splitDigest (input : List Char) : Except (List Char) (List Char × Option (List Char)) :=
  match Text.splitOnce '@' input with
  | none => .ok (input, none)
  | some (nameTag, digest) =>
    if "sha256:".toList <+: digest then .ok (nameTag, some digest)
    else .error ("unsupported digest algorithm: ".toList ++ digest)

/-- The name and the tag. -/
def splitTag (nameTag : List Char) : List Char × List Char :=
  match Text.rsplitOnce ':' nameTag with
  | none => (nameTag, "latest".toList)
  | some (name, tag) =>
    -- a colon up to the last slash belongs to a port number
    let lastSlash := ((Text.rsplitOnce '/' nameTag).map fun parts => parts.1.length).getD 0
    if lastSlash < name.length then (name, tag) else (nameTag, "latest".toList)

def isRegistry (firstPart : List Char) : Bool :=
  firstPart.contains '.' || firstPart.contains ':' || firstPart == "localhost".toList

/-- The registry and the repository. -/
def splitRegistry (name : List Char) : List Char × List Char :=
  match Text.splitOnce '/' name with
  | none => (dockerHub, "library/".toList ++ name)
  | some (firstPart, rest) =>
    if isRegistry firstPart then (firstPart, rest) else (dockerHub, name)

def normalizeRegistry (registry : List Char) : List Char :=
  if registry = "docker.io".toList ∨ registry = "index.docker.io".toList then dockerHub
  else registry

def parse (input : List Char) : Except (List Char) ImageReference :=
  if Text.trim input = [] then .error "empty image reference".toList
  else
    match splitDigest (Text.trim input) with
    | .error message => .error message
    | .ok (nameTag, digest) =>
      .ok
        { registry := normalizeRegistry (splitRegistry (splitTag nameTag).1).1
          repository := (splitRegistry (splitTag nameTag).1).2
          tag := (splitTag nameTag).2
          digest := digest }

def toStringCanonical (r : ImageReference) : List Char :=
  match r.digest with
  | some digest => r.registry ++ '/' :: r.repository ++ '@' :: digest
  | none => r.registry ++ '/' :: r.repository ++ ':' :: r.tag

end ImageReference

open ImageReference

/-- The name of the files and directories that belong to a reference. -/
def safeName (canonical : List Char) : List Char :=
  canonical.map fun c => if c = '/' ∨ c = ':' then '_' else c

/-! ## Which names coincide -/

/-- Characters that the file name does not tell apart. -/
def Alike (c d : Char) : Prop := c = d ∨ c ∈ ['/', ':', '_'] ∧ d ∈ ['/', ':', '_']

variable {c : Char}

lemma alike_iff {d : Char} :
    (if c = '/' ∨ c = ':' then '_' else c) = (if d = '/' ∨ d = ':' then '_' else d) ↔
      Alike c d := by
  simp only [Alike, mem_cons, not_mem_nil, or_false]
  split_ifs with hc hd hd <;> grind

variable {a b : List Char}

/-- **Two texts have one file name** if and only if they have one length and differ only where both
    have a slash, a colon or an underscore. -/
lemma safeName_eq_iff : safeName a = safeName b ↔ List.Forall₂ Alike a b := by
  induction a generalizing b with
  | nil => cases b <;> simp [safeName]
  | cons c a ih =>
    cases b with
    | nil => simp [safeName]
    | cons d b =>
      simp only [safeName, map_cons, List.cons.injEq, forall₂_cons]
      rw [alike_iff]
      exact and_congr_right fun _ => ih

lemma safeName_append (a b : List Char) : safeName (a ++ b) = safeName a ++ safeName b := map_append

lemma safeName_at (a : List Char) : safeName ('@' :: a) = '@' :: safeName a := rfl

lemma at_mem_safeName : '@' ∈ safeName a ↔ '@' ∈ a := by
  simp only [safeName, mem_map]
  constructor
  · rintro ⟨c, hc, hat⟩
    split_ifs at hat with hsep
    · exact absurd hat (by decide)
    · exact hat ▸ hc
  · intro h
    exact ⟨'@', h, by decide⟩

/-- A text without separators is the only one of its file name. -/
lemma eq_of_safeName_eq (ha : ∀ c ∈ a, c ∉ ['/', ':', '_']) (h : safeName a = safeName b) :
    a = b := by
  induction a generalizing b with
  | nil => exact (map_eq_nil_iff.mp h.symm).symm
  | cons c a ih =>
    obtain ⟨d, b, hcd, hrest, rfl⟩ := forall₂_cons_left_iff.mp (safeName_eq_iff.mp h)
    have hc : c ∉ ['/', ':', '_'] := ha c (by simp)
    have heq : c = d := hcd.resolve_right fun hsep => hc hsep.1
    rw [heq, ih (fun x hx => ha x (mem_cons_of_mem _ hx)) (safeName_eq_iff.mpr hrest)]

/-! ## Where the at sign stands -/

variable {nameTag : List Char}

lemma splitTag_subset (hc : c ∉ nameTag) (hlatest : c ∉ "latest".toList) :
    c ∉ (splitTag nameTag).1 ∧ c ∉ (splitTag nameTag).2 := by
  unfold splitTag
  cases hsplit : Text.rsplitOnce ':' nameTag with
  | none => exact ⟨hc, hlatest⟩
  | some parts =>
    have hparts : c ∉ parts.1 ∧ c ∉ parts.2 :=
      ⟨fun h => hc (Text.mem_of_rsplitOnce hsplit (.inl h)),
        fun h => hc (Text.mem_of_rsplitOnce hsplit (.inr h))⟩
    simp only
    split_ifs
    · exact hparts
    · exact ⟨hc, hlatest⟩

lemma splitRegistry_subset {name : List Char} (hc : c ∉ name) (hhub : c ∉ dockerHub)
    (hlibrary : c ∉ "library/".toList) :
    c ∉ (splitRegistry name).1 ∧ c ∉ (splitRegistry name).2 := by
  unfold splitRegistry
  cases hsplit : Text.splitOnce '/' name with
  | none => exact ⟨hhub, fun h => (mem_append.mp h).elim hlibrary hc⟩
  | some parts =>
    have hname := (Text.splitOnce_eq_some hsplit).2
    simp only
    split_ifs
    · refine ⟨fun h => hc ?_, fun h => hc ?_⟩
      · rw [hname]
        exact mem_append_left _ h
      · rw [hname]
        exact mem_append_right _ (mem_cons_of_mem _ h)
    · exact ⟨hhub, hc⟩

/-- **An accepted reference** has its only `@` in front of its digest, which names the algorithm. -/
structure Accepted (r : ImageReference) : Prop where
  registry : '@' ∉ r.registry
  repository : '@' ∉ r.repository
  tag : '@' ∉ r.tag
  digest : ∀ digest, r.digest = some digest → "sha256:".toList <+: digest

variable {input : List Char}

lemma splitDigest_ok {digest : Option (List Char)} (h : splitDigest input = .ok (nameTag, digest)) :
    '@' ∉ nameTag ∧ ∀ d, digest = some d → "sha256:".toList <+: d := by
  unfold splitDigest at h
  cases hsplit : Text.splitOnce '@' input with
  | none =>
    rw [hsplit] at h
    cases h
    exact ⟨Text.splitOnce_eq_none hsplit, fun d hd => by cases hd⟩
  | some parts =>
    rw [hsplit] at h
    simp only at h
    split_ifs at h with hsha
    cases h
    refine ⟨(Text.splitOnce_eq_some hsplit).1, fun d hd => ?_⟩
    cases hd
    exact hsha

variable {r : ImageReference}

theorem accepted_of_parse (h : parse input = .ok r) : Accepted r := by
  unfold parse at h
  split_ifs at h with hempty
  cases hsplit : splitDigest (Text.trim input) with
  | error message =>
    rw [hsplit] at h
    cases h
  | ok parts =>
    rw [hsplit] at h
    cases h
    obtain ⟨hnameTag, hdigest⟩ := splitDigest_ok hsplit
    have htag := splitTag_subset hnameTag (by decide)
    have hregistry := splitRegistry_subset htag.1 (by decide) (by decide)
    refine ⟨?_, hregistry.2, htag.2, hdigest⟩
    simp only [normalizeRegistry]
    split_ifs
    · decide
    · exact hregistry.1

variable {digest : List Char}

namespace Accepted

variable {r : ImageReference}

lemma name_at (h : Accepted r) : '@' ∉ r.registry ++ '/' :: r.repository := by
  simp only [mem_append, mem_cons, not_or]
  exact ⟨h.registry, by decide, h.repository⟩

lemma canonical_pinned (hpin : r.digest = some digest) :
    r.toStringCanonical = (r.registry ++ '/' :: r.repository) ++ '@' :: digest := by
  rw [toStringCanonical, hpin]

/-- The canonical form of a tag has no `@`. -/
lemma canonical_tag (h : Accepted r) (htag : r.digest = none) : '@' ∉ r.toStringCanonical := by
  rw [toStringCanonical, htag]
  simp only [mem_append, mem_cons, not_or]
  exact ⟨⟨h.registry, by decide, h.repository⟩, by decide, h.tag⟩

/-- What the file name says about the digest of a pinned reference: it stands behind the first
    `@`. -/
lemma splitOnce_safeName (h : Accepted r) (hpin : r.digest = some digest) :
    Text.splitOnce '@' (safeName r.toStringCanonical) =
      some (safeName (r.registry ++ '/' :: r.repository), safeName digest) := by
  rw [canonical_pinned hpin, safeName_append, safeName_at]
  exact Text.splitOnce_append (at_mem_safeName.not.mpr h.name_at) _

end Accepted

/-- **References of one file name are pinned alike.** -/
theorem digest_of_safeName_eq {r' : ImageReference} (h : Accepted r) (h' : Accepted r')
    (hpin : r.digest = some digest)
    (hname : safeName r.toStringCanonical = safeName r'.toStringCanonical) :
    ∃ digest', r'.digest = some digest' ∧ safeName digest = safeName digest' := by
  cases hpin' : r'.digest with
  | none =>
    -- the name of a tag has no `@`
    have hat : '@' ∉ safeName r.toStringCanonical := by
      rw [hname]
      exact at_mem_safeName.not.mpr (h'.canonical_tag hpin')
    refine absurd ?_ hat
    rw [(Text.splitOnce_eq_some (h.splitOnce_safeName hpin)).2]
    simp
  | some digest' =>
    refine ⟨digest', rfl, ?_⟩
    have hsplit := h.splitOnce_safeName hpin
    rw [hname, h'.splitOnce_safeName hpin'] at hsplit
    exact (Prod.ext_iff.mp (Option.some.inj hsplit)).2.symm

end Rauha.Oci
