import Rauha.Library.FileTree
import Rauha.Library.Utf8
import Rauha.Oci.Pull

/-!
# Unpacking a layer

A layer is an archive whose entries are unpacked one after the other into a directory.  Entries with
special names are **whiteouts**: they remove a name, or everything in a directory, and are not
unpacked themselves.

Whiteouts delete paths of the host that are computed from names in the archive, in a tree that the
archive has planted symbolic links in.  `whiteoutParent` therefore walks from the target directory
one component at a time and stops at everything that is no directory.  What it returns leads to
itself (`whiteoutParent_physical`), so that whatever is removed lies below the target; from this,
`unpackLayer_contained` says that no archive reaches out of the target directory.

The archive library writes what is no whiteout; `Tar.Contained` is what is assumed about it.
-/

namespace Rauha.Oci

open FileTree List

/-- A file name is any sequence of bytes. -/
abbrev Name := List UInt8

abbrev Host := Tree Name Bytes

def ascii (text : String) : Name := Utf8.encode text.toList

/-! ## Paths in archives -/

def componentOf (part : Name) : Option (Component Name) :=
  if part = [] ∨ part = ascii "." then none
  else if part = ascii ".." then some .ParentDir
  else some (.Normal part)

/-- The components of a path. -/
def components (path : Name) : List (Component Name) :=
  let parts := path.splitOn 47
  let lead : List (Component Name) :=
    if path.head? = some 47 then [.RootDir]
    else if parts.head? = some (ascii ".") then [.CurDir]
    else []
  lead ++ parts.filterMap componentOf

inductive EntryKind where
  | Directory
  | Regular (data : Bytes)
  | Symlink (target : Name)
  | Link (target : Name)
  | Char (major minor : ℕ)
  | Block (major minor : ℕ)
  | Fifo
  deriving DecidableEq, Repr

structure TarEntry where
  path : Name
  kind : EntryKind
  deriving DecidableEq, Repr

def display (path : Name) : List Char := Utf8.decodeLossy path

def displayParts (path : List Name) : List Char := display ([47].intercalate path)

def invalidLayerPath (path reason : List Char) : Error :=
  .RootfsError ("unsafe layer path ".toList ++ path ++ ": ".toList ++ reason)

/-- The plain names of a path, unless it climbs or starts at the root. -/
def normalParts : List (Component Name) → Option (List Name)
  | [] => some []
  | .Normal part :: rest => (normalParts rest).map (part :: ·)
  | .CurDir :: rest => normalParts rest
  | _ :: _ => none

def cleanLayerPath (path : Name) : Except Error (List Name) :=
  match normalParts (components path) with
  | none => .error (invalidLayerPath (display path) "path escapes the rootfs".toList)
  | some [] => .error (invalidLayerPath (display path) "path is empty".toList)
  | some clean => .ok clean

inductive Whiteout where
  | Opq
  | File (original : Name)
  deriving DecidableEq, Repr

/-- Whether a name is that of a whiteout; a name that is no text is none. -/
def whiteoutOf (name : Name) : Option Whiteout :=
  if Utf8.encode (Utf8.decodeLossy name) ≠ name then none
  else if name = ascii ".wh..wh..opq" then some .Opq
  else if ascii ".wh." <+: name then some (.File (name.drop 4))
  else none

/-! ## Removing -/

/-- Which of the system calls for one entry fail.  A removal of a directory that fails has removed
    some of it. -/
structure Troubles where
  canonicalize : Bool
  stat : List (Component Name) → Bool
  readDir : Bool
  dirEntry : Name → Bool
  removeFile : List (Component Name) → Bool
  removeDirAll : List (Component Name) → Option (List Name → Bool)

def Troubles.none : Troubles :=
  ⟨false, fun _ => false, false, fun _ => false, fun _ => false, fun _ => .none⟩

section

variable (host : Host) (troubles : Troubles)

/-- Walk down from a directory, refusing everything that is no directory. -/
def parentFrom (relative : List Name) : List Name → List Name → Except Error (Option (List Name))
  | current, [] => .ok (some current)
  | current, part :: rest =>
    let next := current ++ [part]
    if troubles.stat (next.map .Normal) then
      .error (.RootfsError ("failed to inspect whiteout parent ".toList ++ displayParts next))
    else
      match locate host (next.map .Normal) with
      | .error .ENOENT => .ok none
      | .error _ =>
        .error (.RootfsError ("failed to inspect whiteout parent ".toList ++ displayParts next))
      | .ok p =>
        match host.lookup p with
        | none => .ok none
        | some (.symlink _) =>
          .error (invalidLayerPath (displayParts relative)
            "whiteout parent is a symlink".toList)
        | some (.dir _) => parentFrom relative next rest
        | some _ =>
          .error (invalidLayerPath (displayParts relative)
            "whiteout parent is not a directory".toList)

/-- Resolve an existing whiteout parent without following links of the image. -/
def whiteoutParent (target : List (Component Name)) (relative : List Name) :
    Except Error (Option (List Name)) :=
  if troubles.canonicalize then .error (.RootfsError "failed to resolve rootfs".toList)
  else
    match resolve host target with
    | .error _ => .error (.RootfsError "failed to resolve rootfs".toList)
    | .ok root => parentFrom host troubles relative root relative

/-- Remove a file, a link or a whole directory, if it is there. -/
def removePath (path : List (Component Name)) : Except Error Unit × Host :=
  if troubles.stat path then
    (.error (.RootfsError "failed to inspect whiteout target".toList), host)
  else
    match locate host path with
    | .error .ENOENT => (.ok (), host)
    | .error _ => (.error (.RootfsError "failed to inspect whiteout target".toList), host)
    | .ok p =>
      match host.lookup p with
      | none => (.ok (), host)
      | some node =>
        if node.isDir then
          match troubles.removeDirAll path with
          | none => (.ok (), host.removeTree p)
          | some removed =>
            (.error (.RootfsError "failed to apply whiteout".toList),
              host.prune fun q => decide (p <+: q) && removed q)
        else if troubles.removeFile path then
          (.error (.RootfsError "failed to apply whiteout".toList), host)
        else (.ok (), host.prune fun q => decide (q = p))

end

/-- Remove the entries of a directory, one after the other. -/
def removeEntries (troubles : Troubles) (path : List Name) :
    Host → List Name → Except Error Unit × Host
  | host, [] => (.ok (), host)
  | host, name :: names =>
    if troubles.dirEntry name then
      (.error (.RootfsError "failed to read opaque whiteout entry".toList), host)
    else
      match removePath host troubles (path.map .Normal ++ [.Normal name]) with
      | (.error e, host) => (.error e, host)
      | (.ok _, host) => removeEntries troubles path host names

def clearDirectory (host : Host) (troubles : Troubles) (path : List Name) :
    Except Error Unit × Host :=
  if troubles.readDir then
    (.error (.RootfsError "failed to read opaque whiteout directory".toList), host)
  else
    match resolve host (path.map .Normal) with
    | .error _ =>
      (.error (.RootfsError "failed to read opaque whiteout directory".toList), host)
    | .ok p => removeEntries troubles path host (host.children p)

/-! ## Unpacking -/

/-- **The archive library**: how it writes one entry below a target directory. -/
structure Tar where
  unpackIn : Host → List (Component Name) → TarEntry → Except (List Char) Unit × Host

/-- The name behind a whiteout has to be one plain name. -/
def isPlain (original : Name) : Bool :=
  original ≠ [] && original ≠ ascii "." && original ≠ ascii ".." && !original.contains 47

section

variable (tar : Tar) (target : List (Component Name))

def unpackEntry (host : Host) (troubles : Troubles) (entry : TarEntry) :
    Except Error Unit × Host :=
  match cleanLayerPath entry.path with
  | .error e => (.error e, host)
  | .ok path =>
    match path.getLast?.bind whiteoutOf with
    | some .Opq =>
      match whiteoutParent host troubles target path.dropLast with
      | .error e => (.error e, host)
      | .ok none => (.ok (), host)
      | .ok (some fullParent) => clearDirectory host troubles fullParent
    | some (.File original) =>
      if isPlain original = false then
        (.error (invalidLayerPath (displayParts path) "invalid whiteout target".toList), host)
      else
        match whiteoutParent host troubles target path.dropLast with
        | .error e => (.error e, host)
        | .ok none => (.ok (), host)
        | .ok (some fullParent) =>
          removePath host troubles (fullParent.map .Normal ++ components original)
    | none =>
      match tar.unpackIn host target entry with
      | (.error message, host) =>
        (.error (.RootfsError
          ("failed to unpack ".toList ++ displayParts path ++ ": ".toList ++ message)), host)
      | (.ok _, host) => (.ok (), host)

/-- Unpack a layer into a directory.  An archive that cannot be read on ends it with an error. -/
def unpackLayer (host : Host) : List (Except Error TarEntry × Troubles) → Except Error Unit × Host
  | [] => (.ok (), host)
  | (.error e, _) :: _ => (.error e, host)
  | (.ok entry, troubles) :: rest =>
    match unpackEntry tar target host troubles entry with
    | (.error e, host) => (.error e, host)
    | (.ok _, host) => unpackLayer host rest

end

/-! ## Containment -/

/-- Nothing changes outside a directory, and the directory stays. -/
def Within (T : List Name) (host host' : Host) : Prop :=
  ∀ q, ¬ (T <+: q ∧ q ≠ T) → host'.lookup q = host.lookup q

/-- **The archive library stays inside its target**, whether it succeeds or not. -/
def Tar.Contained (tar : Tar) : Prop :=
  ∀ host target entry T, resolve host target = .ok T →
    Within T host (tar.unpackIn host target entry).2

/-- A path leads to a directory whatever the directory holds. -/
def Leads (host : Host) (target : List (Component Name)) (T : List Name) : Prop :=
  ∀ host', Within T host host' → resolve host' target = .ok T

section

variable {host host' host'' : Host} {troubles : Troubles} {T p : List Name}
  {target : List (Component Name)}

lemma Within.refl : Within T host host := fun _ _ => rfl

lemma Within.trans (h : Within T host host') (h' : Within T host' host'') : Within T host host'' :=
  fun q hq => (h' q hq).trans (h q hq)

/-- A change below a directory inside is one below the outer directory. -/
lemma Within.mono (hT : T <+: p) (h : Within p host host') : Within T host host' := by
  intro q hq
  refine h q fun hinner => hq ⟨hT.trans hinner.1, fun heq => hinner.2 ?_⟩
  -- `q = T` lies at or above `p`
  rw [heq] at hinner ⊢
  exact (hT.eq_of_length_le hinner.1.length_le)

lemma Within.physical (h : Within T host host') (hT : Physical host T) : Physical host' T :=
  hT.congr fun q hq => h q fun hinner =>
    hinner.2 (hq.eq_of_length_le hinner.1.length_le)

lemma Leads.resolve (h : Leads host target T) : resolve host target = .ok T := h host .refl

lemma Leads.of_within (h : Leads host target T) (hw : Within T host host') : Leads host' target T :=
  fun host'' hw' => h host'' (hw.trans hw')

/-- A directory leads to itself by its own path. -/
lemma leads_of_physical (h : Physical host T) : Leads host (T.map .Normal) T :=
  fun _ hw => resolve_of_physical (hw.physical h)

/-- Removing nodes below a name in a directory. -/
lemma within_prune {n : Name} {f : List Name → Bool}
    (hf : ∀ q, f q = true → p ++ [n] <+: q) : Within p host (host.prune f) := by
  intro q hq
  by_cases hnil : q = []
  · rw [hnil]
    rfl
  · rw [Tree.lookup_prune hnil, if_neg]
    intro hfq
    have hpre := hf q hfq
    refine hq ⟨(prefix_append p [n]).trans hpre, fun heq => ?_⟩
    have hlength := hpre.length_le
    rw [heq, length_append] at hlength
    simp at hlength

/-- **What is removed** is below the name that was asked for. -/
lemma removePath_within (hp : Physical host p) (n : Name) :
    Within p host (removePath host troubles (p.map .Normal ++ [.Normal n])).2 := by
  unfold removePath
  by_cases hstat : troubles.stat (p.map .Normal ++ [.Normal n]) = true
  · rw [if_pos hstat]
    exact .refl
  · rw [if_neg hstat, locate_of_physical hp]
    simp only
    cases host.lookup (p ++ [n]) with
    | none => exact .refl
    | some node =>
      cases troubles.removeDirAll (p.map .Normal ++ [.Normal n]) with
      | none =>
        simp only
        split_ifs
        · exact within_prune (n := n) fun q hq => by simpa using hq
        · exact .refl
        · exact within_prune (n := n) fun q hq => by rw [decide_eq_true_eq.mp hq]
      | some removed =>
        simp only
        split_ifs
        · refine within_prune (n := n) fun q hq => ?_
          simp only [Bool.and_eq_true, decide_eq_true_eq] at hq
          exact hq.1
        · exact .refl
        · exact within_prune (n := n) fun q hq => by rw [decide_eq_true_eq.mp hq]

lemma removeEntries_within (names : List Name) (hp : Physical host p) :
    Within p host (removeEntries troubles p host names).2 := by
  induction names generalizing host with
  | nil => exact .refl
  | cons name names ih =>
    have hremove : Within p host
        (removePath host troubles (p.map .Normal ++ [.Normal name])).2 :=
      removePath_within hp name
    rw [removeEntries]
    split_ifs
    · exact .refl
    · rcases hrun : removePath host troubles (p.map .Normal ++ [.Normal name]) with ⟨r, host₁⟩
      rw [hrun] at hremove ⊢
      cases r with
      | error e => exact hremove
      | ok _ => exact hremove.trans (ih (hremove.physical hp))

lemma clearDirectory_within (hp : Physical host p) :
    Within p host (clearDirectory host troubles p).2 := by
  unfold clearDirectory
  split_ifs
  · exact .refl
  · rw [resolve_of_physical hp]
    exact removeEntries_within _ hp

/-! ### The parent of a whiteout -/

lemma parentFrom_physical {relative current rest : List Name} (hcurrent : Physical host current)
    (h : parentFrom host troubles relative current rest = .ok (some p)) :
    current <+: p ∧ Physical host p := by
  induction rest generalizing current with
  | nil =>
    cases h
    exact ⟨prefix_refl _, hcurrent⟩
  | cons part rest ih =>
    rw [parentFrom] at h
    split_ifs at h
    rw [map_append, map_cons, map_nil, locate_of_physical hcurrent] at h
    simp only at h
    cases hnode : host.lookup (current ++ [part]) with
    | none =>
      rw [hnode] at h
      cases h
    | some node =>
      rw [hnode] at h
      cases node with
      | dir masks =>
        obtain ⟨hpre, hphysical⟩ := ih (hcurrent.concat hnode) h
        exact ⟨(prefix_append _ _).trans hpre, hphysical⟩
      | file content => cases h
      | symlink link => cases h
      | device major minor => cases h

/-- **The parent of a whiteout** is a directory below the target that leads to itself. -/
lemma whiteoutParent_physical {relative : List Name} (htarget : resolve host target = .ok T)
    (hT : Physical host T)
    (h : whiteoutParent host troubles target relative = .ok (some p)) :
    T <+: p ∧ Physical host p := by
  unfold whiteoutParent at h
  split_ifs at h
  rw [htarget] at h
  exact parentFrom_physical hT h

/-- A plain name is one component. -/
lemma components_of_isPlain {original : Name} (h : isPlain original = true) :
    components original = [.Normal original] := by
  simp only [isPlain, ne_eq, Bool.and_eq_true, decide_eq_true_eq, Bool.not_eq_true',
    contains_eq_mem, decide_eq_false_iff_not] at h
  obtain ⟨⟨⟨hne, hdot⟩, hdots⟩, hslash⟩ := h
  have hsplit : original.splitOn 47 = [original] :=
    splitOnP_eq_singleton fun x hx => by
      rw [beq_eq_false_iff_ne]
      exact fun hx47 => hslash (hx47 ▸ hx)
  have hhead : original.head? ≠ some 47 := fun hhead => hslash (mem_of_mem_head? hhead)
  have hone : componentOf original = some (.Normal original) := by
    rw [componentOf, if_neg (by simp [hne, hdot]), if_neg hdots]
  simp only [components, hsplit, if_neg hhead, List.head?_cons, Option.some.injEq, if_neg hdot,
    nil_append, filterMap_cons, hone, filterMap_nil]

/-! ### One entry, and all of them -/

variable {tar : Tar}

lemma unpackEntry_within (htar : tar.Contained) (hleads : Leads host target T)
    (hT : Physical host T) (entry : TarEntry) :
    Within T host (unpackEntry tar target host troubles entry).2 := by
  unfold unpackEntry
  cases cleanLayerPath entry.path with
  | error e => exact .refl
  | ok path =>
    simp only
    cases path.getLast?.bind whiteoutOf with
    | none =>
      have hunpack := htar host target entry T hleads.resolve
      rcases hrun : tar.unpackIn host target entry with ⟨r, host₁⟩
      rw [hrun] at hunpack
      cases r <;> simpa only [hrun] using hunpack
    | some whiteout =>
      cases hparent : whiteoutParent host troubles target path.dropLast with
      | error e =>
        cases whiteout with
        | Opq => exact .refl
        | File original =>
          simp only
          split_ifs <;> exact .refl
      | ok parent =>
        cases parent with
        | none =>
          cases whiteout with
          | Opq => exact .refl
          | File original =>
            simp only
            split_ifs <;> exact .refl
        | some p =>
          obtain ⟨hpre, hp⟩ := whiteoutParent_physical hleads.resolve hT hparent
          cases whiteout with
          | Opq => exact (clearDirectory_within hp).mono hpre
          | File original =>
            simp only
            split_ifs with hplain
            · exact .refl
            · rw [components_of_isPlain (Bool.not_eq_false _ |>.mp hplain)]
              exact (removePath_within hp original).mono hpre

lemma unpackLayer_within (htar : tar.Contained) (hleads : Leads host target T)
    (hT : Physical host T) (archive : List (Except Error TarEntry × Troubles)) :
    Within T host (unpackLayer tar target host archive).2 := by
  induction archive generalizing host with
  | nil => exact .refl
  | cons item rest ih =>
    obtain ⟨entry, troubles⟩ := item
    cases entry with
    | error e => exact .refl
    | ok entry =>
      have hentry : Within T host (unpackEntry tar target host troubles entry).2 :=
        unpackEntry_within htar hleads hT entry
      rw [unpackLayer]
      rcases hrun : unpackEntry tar target host troubles entry with ⟨r, host₁⟩
      rw [hrun] at hentry
      cases r with
      | error e => exact hentry
      | ok _ => exact hentry.trans (ih (hleads.of_within hentry) (hentry.physical hT))

end

/-- **Extraction is contained.**  Whatever an archive holds and whichever calls fail, unpacking it
    into a directory leaves every path that is not below the directory as it was, and the directory
    itself in place. -/
theorem unpackLayer_contained (tar : Tar) (htar : tar.Contained) (host : Host)
    (target : List (Component Name)) (T : List Name) (masks : Bool)
    (hleads : Leads host target T) (hdir : host.lookup T = some (.dir masks))
    (archive : List (Except Error TarEntry × Troubles)) :
    (∀ q, ¬ T <+: q →
      (unpackLayer tar target host archive).2.lookup q = host.lookup q) ∧
    (unpackLayer tar target host archive).2.lookup T = some (.dir masks) := by
  have hwithin := unpackLayer_within htar hleads (physical_of_resolve hleads.resolve hdir) archive
  exact ⟨fun q hq => hwithin q fun h => hq h.1, (hwithin T fun h => h.2 rfl).trans hdir⟩

/-- An archive library for evaluation: it plants a symbolic link `l` to the root in the target,
    whatever the entry. -/
def plantingTar : Tar where
  unpackIn host target _ :=
    match resolve host target with
    | .error _ => (.error [], host)
    | .ok T => (.ok (), host.set (T ++ [ascii "l"]) (.symlink [.RootDir]))

lemma plantingTar_contained : plantingTar.Contained := by
  intro host target entry T hT q hq
  simp only [plantingTar, hT]
  rw [Tree.lookup_set (by simp), if_neg]
  rintro rfl
  exact hq ⟨prefix_append _ _, by simp⟩

/-- A host with a directory `t` to unpack into and a directory `b` beside it. -/
def sampleHost : Host :=
  ⟨[([ascii "t"], .dir false), ([ascii "b"], .dir false),
    ([ascii "b", ascii "x"], .file [1])]⟩

/-- A link to the root is planted, a whiteout through it is refused: what is beside the target
    stays. -/
theorem unpackLayer_contained_planted :
    let archive := [(.ok ⟨ascii "l", .Symlink (ascii "/")⟩, Troubles.none),
      (.ok ⟨ascii "l/b/.wh.x", .Regular []⟩, Troubles.none)]
    (unpackLayer plantingTar [.Normal (ascii "t")] sampleHost archive).2.lookup
        [ascii "b", ascii "x"] = sampleHost.lookup [ascii "b", ascii "x"] ∧
    (unpackLayer plantingTar [.Normal (ascii "t")] sampleHost archive).2.lookup [ascii "t"] =
      some (.dir false) := by
  have hphysical : Physical sampleHost [ascii "t"] :=
    Physical.nil.concat (show sampleHost.lookup ([] ++ [ascii "t"]) = some (.dir false) by
      decide +kernel)
  have h := unpackLayer_contained plantingTar plantingTar_contained sampleHost
    [.Normal (ascii "t")] [ascii "t"] false (leads_of_physical hphysical) (by decide +kernel)
    [(.ok ⟨ascii "l", .Symlink (ascii "/")⟩, Troubles.none),
      (.ok ⟨ascii "l/b/.wh.x", .Regular []⟩, Troubles.none)]
  exact ⟨h.1 _ (by decide +kernel), h.2⟩

end Rauha.Oci
