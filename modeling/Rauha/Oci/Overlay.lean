import Rauha.Library.Layering
import Rauha.Oci.Rootfs

/-!
# The overlay and the image

An image can be unpacked into one directory, or layer by layer and stacked as an overlay.  The two
are compared here.

An entry of an archive is a change to the tree that it is unpacked into (`changeOf`).  For whiteouts
the change is read off the code (`unpackEntry_spec`); what the archive library does is a parameter
(`Tar.Performs`), since it follows the links on the way to an entry and needs the target of a hard
link, both of which depend on the tree.

A layer that is unpacked alone keeps what it writes, but what it removes from the layers below it is
lost: nothing of a whiteout is left in the directory of the layer.  With `FileTree.view_eq_iff` this
gives the exact condition under which the overlay is the image (`overlay_eq_rootfs_iff`), for images
whose entries are not led elsewhere by links of the layers below (`SteadyLayers`): every layer can
be unpacked alone, none is there twice, and no path is removed by a layer and left by one further
down.
-/

namespace Rauha.Oci

open FileTree List

/-! ## Entries as changes -/

/-- **What the archive library does**: in every tree an entry is one change or it is refused. -/
structure Tar.Performs (tar : Tar) (change : Host → TarEntry → Option (Action Name Bytes)) :
    Prop where
  plain : ∀ {host entry a}, change host entry = some a → a.Plain
  done : ∀ {host entry a}, change host entry = some a →
    ∃ host', tar.unpackIn host [] entry = (.ok (), host') ∧ After host a host'
  refused : ∀ {host entry}, change host entry = none →
    ∃ e, (tar.unpackIn host [] entry).1 = .error e

/-- There is something on the way to a directory that is none. -/
def Blocked (host : Host) (dir : List Name) : Prop :=
  ∃ q node, q <+: dir ∧ host.lookup q = some node ∧ node.isDir = false

instance (host : Host) (dir : List Name) : Decidable (Blocked host dir) :=
  decidable_of_iff (dir.inits.any fun q => (host.lookup q).any fun node => !node.isDir) <| by
    simp [Blocked, Option.any_eq_true]

/-- The change that an entry stands for in a tree, if it can be unpacked there. -/
def changeOf (change : Host → TarEntry → Option (Action Name Bytes)) (host : Host)
    (entry : TarEntry) : Option (Action Name Bytes) :=
  match cleanLayerPath entry.path with
  | .error _ => none
  | .ok path =>
    match path.getLast?.bind whiteoutOf with
    | some .Opq => if Blocked host path.dropLast then none else some (.Clear path.dropLast)
    | some (.File original) =>
      if isPlain original = false ∨ Blocked host path.dropLast then none
      else some (.Remove (path.dropLast ++ [original]))
    | none => change host entry

section

variable {tar : Tar} {change : Host → TarEntry → Option (Action Name Bytes)}
  {a : Action Name Bytes} {host host' : Host} {p : List Name}

lemma plain_of_changeOf (htar : tar.Performs change) {entry : TarEntry}
    (h : changeOf change host entry = some a) : a.Plain := by
  unfold changeOf at h
  split at h
  · cases h
  · split at h
    · split_ifs at h
      cases h
      trivial
    · split_ifs at h
      cases h
      exact concat_ne_nil _ _
    · exact htar.plain h

/-! ## Whiteouts -/

lemma not_blocked_of_physical (h : Physical host p) : ¬ Blocked host p := by
  rintro ⟨q, node, hq, hnode, hdir⟩
  obtain ⟨masks, hmasks⟩ := h q hq
  rw [hnode] at hmasks
  cases hmasks
  cases hdir

/-- What the walk to the parent of a whiteout finds. -/
lemma parentFrom_spec (relative : List Name) {current : List Name} (rest : List Name)
    (hcurrent : Physical host current) :
    match parentFrom host .none relative current rest with
    | .ok (some p) => p = current ++ rest ∧ Physical host p
    | .ok none => ∃ r, r <+: current ++ rest ∧ host.lookup r = none ∧
        ∀ q, q <+: r → q ≠ r → ∃ masks, host.lookup q = some (.dir masks)
    | .error _ => Blocked host (current ++ rest) := by
  induction rest generalizing current with
  | nil => exact ⟨(append_nil current).symm, hcurrent⟩
  | cons part rest ih =>
    have happend : current ++ part :: rest = current ++ [part] ++ rest := by simp
    have hpre : current ++ [part] <+: current ++ part :: rest := by
      rw [happend]
      exact prefix_append _ _
    rw [parentFrom, map_append, map_cons, map_nil, locate_of_physical hcurrent]
    simp only
    cases hnode : host.lookup (current ++ [part]) with
    | none =>
      refine ⟨current ++ [part], hpre, hnode, fun q hq hne => hcurrent q ?_⟩
      exact (prefix_concat_iff.mp hq).resolve_left hne
    | some node =>
      cases node with
      | dir masks =>
        rw [happend]
        exact ih (hcurrent.concat hnode)
      | file content => exact ⟨_, _, hpre, hnode, rfl⟩
      | symlink target => exact ⟨_, _, hpre, hnode, rfl⟩
      | device major minor => exact ⟨_, _, hpre, hnode, rfl⟩

variable (hshaped : host.Shaped)

include hshaped

/-- **The parent of a whiteout**: an error if the way is blocked, and otherwise the directory, or
    nothing if it is not there. -/
lemma whiteoutParent_spec (relative : List Name) :
    (Blocked host relative ∧ ∃ e, whiteoutParent host .none [] relative = .error e) ∨
    (¬ Blocked host relative ∧ host.lookup relative = none ∧
      whiteoutParent host .none [] relative = .ok none) ∨
    (¬ Blocked host relative ∧ Physical host relative ∧
      whiteoutParent host .none [] relative = .ok (some relative)) := by
  have hparent : whiteoutParent host .none [] relative =
      parentFrom host .none relative [] relative := rfl
  have hspec := parentFrom_spec relative relative (.nil (t := host))
  rw [hparent]
  cases hresult : parentFrom host .none relative [] relative with
  | error e =>
    rw [hresult] at hspec
    exact .inl ⟨hspec, e, rfl⟩
  | ok parent =>
    rw [hresult] at hspec
    cases parent with
    | some p =>
      obtain ⟨rfl, hphysical⟩ := hspec
      exact .inr (.inr ⟨not_blocked_of_physical hphysical, hphysical, rfl⟩)
    | none =>
      obtain ⟨r, hpre, hnone, habove⟩ := hspec
      refine .inr (.inl ⟨?_, ?_, rfl⟩)
      · -- nothing is above `r` but directories, and nothing at all is below it
        rintro ⟨q, node, hq, hnode, hdir⟩
        rcases List.prefix_or_prefix_of_prefix hq hpre with hqr | hrq
        · by_cases heq : q = r
          · rw [heq, hnone] at hnode
            cases hnode
          · obtain ⟨masks, hmasks⟩ := habove q hqr heq
            rw [hnode] at hmasks
            cases hmasks
            cases hdir
        · rw [hshaped.none_from hnone hrq] at hnode
          cases hnode
      · exact hshaped.none_from hnone hpre

/-- Removing a name in a directory is the change of that name. -/
lemma removePath_spec (hp : Physical host p) (n : Name) :
    ∃ host', removePath host .none (p.map .Normal ++ [.Normal n]) = (.ok (), host') ∧
      After host (.Remove (p ++ [n])) host' := by
  have hne : p ++ [n] ≠ [] := concat_ne_nil _ _
  rw [removePath, locate_of_physical hp]
  simp only
  cases hnode : host.lookup (p ++ [n]) with
  | none =>
    refine ⟨host, rfl, fun q => ?_⟩
    rw [Action.touch]
    split_ifs with hpre
    · exact hshaped.none_from hnode hpre
    · rfl
  | some node =>
    cases hdir : node.isDir with
    | true =>
      refine ⟨host.removeTree (p ++ [n]), by simp [Troubles.none, hdir], fun q => ?_⟩
      rw [Tree.lookup_removeTree hne, Action.touch]
      split_ifs <;> rfl
    | false =>
      refine ⟨host.prune fun q => decide (q = p ++ [n]), by simp [Troubles.none, hdir], fun q => ?_⟩
      have hnot : ∀ masks, host.lookup (p ++ [n]) ≠ some (.dir masks) := by
        rintro masks hmasks
        rw [hnode] at hmasks
        cases hmasks
        cases hdir
      by_cases hroot : q = []
      · subst hroot
        rw [Action.touch, if_neg (by simp)]
        rfl
      · rw [Tree.lookup_prune hroot, Action.touch]
        by_cases hpre : p ++ [n] <+: q
        · rw [if_pos hpre]
          by_cases heq : q = p ++ [n]
          · simp [heq]
          · -- what is no directory has nothing below it
            simp [heq, hshaped.none_below hnot hpre (.symm heq)]
        · have heq : q ≠ p ++ [n] := fun h => hpre (h ▸ prefix_refl _)
          simp [heq, if_neg hpre]

/-- Removing names in a directory, one after the other. -/
lemma removeEntries_spec (names : List Name) (hp : Physical host p) :
    ∃ host', removeEntries .none p host names = (.ok (), host') ∧
      ∀ q, ((∃ n ∈ names, p ++ [n] <+: q) → host'.lookup q = none) ∧
        ((¬ ∃ n ∈ names, p ++ [n] <+: q) → host'.lookup q = host.lookup q) := by
  induction names generalizing host with
  | nil => exact ⟨host, rfl, fun q => ⟨by simp, fun _ => rfl⟩⟩
  | cons name names ih =>
    obtain ⟨host₁, hrun, hafter⟩ := removePath_spec hshaped hp name
    have hwithin : Within p host
        (removePath host .none (p.map .Normal ++ [.Normal name])).2 :=
      removePath_within hp name
    rw [hrun] at hwithin
    have hshaped₁ : host₁.Shaped :=
      hshaped.after (show Action.Plain (.Remove (p ++ [name])) from concat_ne_nil _ _) hafter
    obtain ⟨host₂, hrest, hlookup⟩ := ih hshaped₁ (hwithin.physical hp)
    refine ⟨host₂, ?_, fun q => ⟨?_, ?_⟩⟩
    · rw [removeEntries, hrun]
      exact hrest
    · rintro ⟨n, hn, hpre⟩
      by_cases hlater : ∃ n ∈ names, p ++ [n] <+: q
      · exact (hlookup q).1 hlater
      · rw [(hlookup q).2 hlater, hafter q]
        rcases mem_cons.mp hn with rfl | hn
        · rw [Action.touch, if_pos hpre]
          rfl
        · exact absurd ⟨n, hn, hpre⟩ hlater
    · intro hnot
      have hlater : ¬ ∃ n ∈ names, p ++ [n] <+: q := by
        rintro ⟨n, hn, hpre⟩
        exact hnot ⟨n, mem_cons_of_mem _ hn, hpre⟩
      rw [(hlookup q).2 hlater, hafter q, Action.touch,
        if_neg fun hpre => hnot ⟨name, mem_cons_self, hpre⟩]
      rfl

/-- Clearing a directory is the change of that name. -/
lemma clearDirectory_spec (hp : Physical host p) :
    ∃ host', clearDirectory host .none p = (.ok (), host') ∧
      After host (.Clear p) host' := by
  obtain ⟨host', hrun, hlookup⟩ := removeEntries_spec hshaped (host.children p) hp
  refine ⟨host', ?_, fun q => ?_⟩
  · rw [clearDirectory, resolve_of_physical hp]
    exact hrun
  · rw [Action.touch]
    split_ifs with hbelow
    · obtain ⟨⟨r, rfl⟩, hne⟩ := hbelow
      cases r with
      | nil => exact absurd (append_nil p) hne
      | cons n r =>
        have hpre : p ++ [n] <+: p ++ n :: r := ⟨r, by simp⟩
        by_cases hchild : n ∈ host.children p
        · exact (hlookup _).1 ⟨n, hchild, hpre⟩
        · -- a name that is not there has nothing below it
          have hnone : host.lookup (p ++ [n]) = none := by
            cases hnode : host.lookup (p ++ [n]) with
            | none => rfl
            | some node => exact absurd (Tree.mem_children.mpr (by rw [hnode]; rfl)) hchild
          rw [(hlookup _).2]
          · exact hshaped.none_from hnone hpre
          · rintro ⟨m, hm, hpre'⟩
            have hmn : m = n := by simpa using (prefix_append_right_inj p).mp hpre'
            exact hchild (hmn ▸ hm)
    · refine (hlookup q).2 ?_
      rintro ⟨n, -, hpre⟩
      refine hbelow ⟨(prefix_append p [n]).trans hpre, ?_⟩
      rintro rfl
      simpa using hpre.length_le

/-! ## Archives -/

/-- **Unpacking an entry** does what its change says, if it has one. -/
lemma unpackEntry_spec (htar : tar.Performs change) (entry : TarEntry) :
    match changeOf change host entry with
    | some a => ∃ host', unpackEntry tar [] host .none entry = (.ok (), host') ∧ After host a host'
    | none => ∃ e, (unpackEntry tar [] host .none entry).1 = .error e := by
  unfold changeOf unpackEntry
  cases hclean : cleanLayerPath entry.path with
  | error e => exact ⟨e, rfl⟩
  | ok path =>
    simp only
    cases hwhiteout : path.getLast?.bind whiteoutOf with
    | none =>
      simp only
      cases hchange : change host entry with
      | none =>
        obtain ⟨e, he⟩ := htar.refused hchange
        rcases hrun : tar.unpackIn host [] entry with ⟨r, host'⟩
        rw [hrun] at he
        cases he
        exact ⟨_, rfl⟩
      | some a =>
        obtain ⟨host', hrun, hafter⟩ := htar.done hchange
        exact ⟨host', by rw [hrun], hafter⟩
    | some whiteout =>
      have hparent := whiteoutParent_spec hshaped path.dropLast
      cases whiteout with
      | Opq =>
        rcases hparent with ⟨hblocked, e, he⟩ | ⟨hfree, hnone, hok⟩ | ⟨hfree, hphysical, hok⟩
        · simp only [if_pos hblocked, he]
          exact ⟨e, rfl⟩
        · simp only [if_neg hfree, hok]
          refine ⟨host, rfl, fun q => ?_⟩
          rw [Action.touch]
          split_ifs with hbelow
          · exact hshaped.none_from hnone hbelow.1
          · rfl
        · simp only [if_neg hfree, hok]
          exact clearDirectory_spec hshaped hphysical
      | File original =>
        cases hplain : isPlain original with
        | false =>
          simp only [hplain, true_or, if_true]
          exact ⟨_, rfl⟩
        | true =>
          simp only [hplain, Bool.true_eq_false, false_or, if_false]
          rcases hparent with ⟨hblocked, e, he⟩ | ⟨hfree, hnone, hok⟩ | ⟨hfree, hphysical, hok⟩
          · simp only [if_pos hblocked, he]
            exact ⟨e, rfl⟩
          · simp only [if_neg hfree, hok]
            refine ⟨host, rfl, fun q => ?_⟩
            rw [Action.touch]
            split_ifs with hbelow
            · exact hshaped.none_from hnone ((prefix_append _ _).trans hbelow)
            · rfl
          · simp only [if_neg hfree, hok, components_of_isPlain hplain]
            exact removePath_spec hshaped hphysical original

omit hshaped in
/-- An archive without troubles. -/
def calm (entries : List (Except Error TarEntry)) : List (Except Error TarEntry × Troubles) :=
  entries.map fun entry => (entry, .none)

variable (tar change) in
omit hshaped in
/-- The changes of an archive, as far as it can be unpacked. -/
def changesFrom : Host → List (Except Error TarEntry) → List (Action Name Bytes)
  | host, .ok entry :: rest =>
    match changeOf change host entry with
    | none => []
    | some a => a :: changesFrom (unpackEntry tar [] host .none entry).2 rest
  | _, _ => []

variable (tar change) in
omit hshaped in
/-- **Unpacking alone does the same**: an entry that can be unpacked alone is the same change there
    as in the tree of the layers below.  No link leads it elsewhere in one of them. -/
def Steady : Host → Host → List (Except Error TarEntry) → Prop
  | host, alone, .ok entry :: rest =>
    ∀ a, changeOf change alone entry = some a → changeOf change host entry = some a ∧
      Steady (unpackEntry tar [] host .none entry).2 (unpackEntry tar [] alone .none entry).2 rest
  | _, _, _ => True

variable {entries : List (Except Error TarEntry)}

/-- **Unpacking one more entry**: it stands for a change. -/
lemma unpackLayer_cons (htar : tar.Performs change) {entry : Except Error TarEntry}
    (h : unpackLayer tar [] host (calm (entry :: entries)) = (.ok (), host')) :
    ∃ item a host₁, entry = .ok item ∧ changeOf change host item = some a ∧
      unpackEntry tar [] host .none item = (.ok (), host₁) ∧ After host a host₁ ∧ host₁.Shaped ∧
      unpackLayer tar [] host₁ (calm entries) = (.ok (), host') := by
  rw [calm, map_cons] at h
  cases entry with
  | error e => cases h
  | ok item =>
    rw [unpackLayer] at h
    have hspec := unpackEntry_spec hshaped htar item
    cases hchange : changeOf change host item with
    | none =>
      rw [hchange] at hspec
      obtain ⟨e, he⟩ := hspec
      rcases hrun : unpackEntry tar [] host .none item with ⟨r, host₁⟩
      rw [hrun] at h he
      cases he
      cases h
    | some a =>
      rw [hchange] at hspec
      obtain ⟨host₁, hrun, hafter⟩ := hspec
      rw [hrun] at h
      exact ⟨item, a, host₁, rfl, hchange, hrun, hafter,
        hshaped.after (plain_of_changeOf htar hchange) hafter, h⟩

/-- **Unpacking a layer** does what its last words say. -/
lemma unpackLayer_spec (htar : tar.Performs change)
    (h : unpackLayer tar [] host (calm entries) = (.ok (), host')) :
    host'.Shaped ∧
      ∀ p, host'.lookup p =
        (fate (changesFrom tar change host entries) p).getD (host.lookup p) := by
  induction entries generalizing host with
  | nil =>
    cases h
    exact ⟨hshaped, fun p => rfl⟩
  | cons entry entries ih =>
    obtain ⟨item, a, host₁, rfl, hchange, hrun, hafter, hshaped₁, hrest⟩ :=
      unpackLayer_cons hshaped htar h
    obtain ⟨hshaped', hlookup⟩ := ih hshaped₁ hrest
    refine ⟨hshaped', fun p => ?_⟩
    rw [hlookup p, hafter p, changesFrom, hchange, hrun]
    simp only [fate_cons]
    cases fate (changesFrom tar change host₁ entries) p <;> simp

/-- The changes of a layer that does the same alone. -/
lemma Steady.changesFrom_eq (htar : tar.Performs change) {alone alone' : Host}
    (halone : alone.Shaped) (h : unpackLayer tar [] host (calm entries) = (.ok (), host'))
    (hrun : unpackLayer tar [] alone (calm entries) = (.ok (), alone'))
    (hsteady : Steady tar change host alone entries) :
    changesFrom tar change host entries = changesFrom tar change alone entries := by
  induction entries generalizing host alone with
  | nil => rfl
  | cons entry entries ih =>
    obtain ⟨item, a, host₁, rfl, hchange, hunpack, -, hshaped₁, hrest⟩ :=
      unpackLayer_cons hshaped htar h
    obtain ⟨item', b, alone₁, hitem, hchange', hunpack', -, halone₁, hrest'⟩ :=
      unpackLayer_cons halone htar hrun
    cases hitem
    obtain ⟨hsame, hnext⟩ := hsteady b hchange'
    cases hchange.symm.trans hsame
    rw [hunpack, hunpack'] at hnext
    simp only [changesFrom, hchange, hchange', hunpack, hunpack']
    rw [ih hshaped₁ halone₁ hrest hrest' hnext]

omit hshaped in
lemma plain_of_mem_changesFrom (htar : tar.Performs change)
    (h : a ∈ changesFrom tar change host entries) : a.Plain := by
  induction entries generalizing host with
  | nil => cases h
  | cons entry entries ih =>
    cases entry with
    | error e => cases h
    | ok item =>
      rw [changesFrom] at h
      cases hchange : changeOf change host item with
      | none =>
        rw [hchange] at h
        cases h
      | some b =>
        rw [hchange] at h
        rcases mem_cons.mp h with rfl | h
        · exact plain_of_changeOf htar hchange
        · exact ih h

end

/-! ## Images -/

/-- The unpacker that reads archives with `entriesOf`, none of whose calls fail. -/
def calmUnpacker (tar : Tar) (entriesOf : Bytes → List (Except Error TarEntry)) : Unpacker where
  tar := tar
  archiveOf blob := calm (entriesOf blob)

section

variable (tar : Tar) (change : Host → TarEntry → Option (Action Name Bytes))
  (entriesOf : Bytes → List (Except Error TarEntry)) (s : Content)

/-- The changes of a layer of an image, unpacked alone. -/
def layerChanges (layer : List Char) : List (Action Name Bytes) :=
  match (Digest.parse layer).bind s.blobs with
  | none => []
  | some blob => changesFrom tar change .empty (entriesOf blob)

/-- What a layer is when it is unpacked alone. -/
def Unpacks (layer : List Char) (host : Host) : Prop :=
  ∃ digest blob, Digest.parse layer = some digest ∧ s.blobs digest = some blob ∧
    unpackBlob (calmUnpacker tar entriesOf) blob .empty = (.ok (), host)

/-- Each layer does the same alone as over the layers below it. -/
def SteadyLayers : Host → List (List Char) → Prop
  | _, [] => True
  | host, layer :: layers =>
    match (Digest.parse layer).bind s.blobs with
    | none => True
    | some blob =>
      Steady tar change host .empty (entriesOf blob) ∧
        SteadyLayers (unpackBlob (calmUnpacker tar entriesOf) blob host).2 layers

/-- **The directory of a layer is that of no other layer**: layers of the image with the same key
    are the same, and what is marked complete is complete. -/
structure Keyed (d : LayersDir) (layers : List (List Char)) : Prop where
  key_inj : ∀ l ∈ layers, ∀ l' ∈ layers, digestKey l = digestKey l' → l = l'
  marked : ∀ l ∈ layers, d.marks (digestKey l) = true →
    ∃ host, d.dirs (digestKey l) = some host ∧ Unpacks tar entriesOf s l host

variable {tar change entriesOf s}

variable {layer : List Char} (htar : tar.Performs change)

include htar

lemma plain_layerChanges {a : Action Name Bytes}
    (h : a ∈ layerChanges tar change entriesOf s layer) : a.Plain := by
  unfold layerChanges at h
  split at h
  · cases h
  · exact plain_of_mem_changesFrom htar h

lemma Unpacks.holds {host : Host} (h : Unpacks tar entriesOf s layer host) :
    Holds host (layerChanges tar change entriesOf s layer) := by
  obtain ⟨digest, blob, hparse, hblob, hrun⟩ := h
  rw [layerChanges, hparse, Option.bind_some, hblob]
  exact (unpackLayer_spec Tree.shaped_empty htar hrun).2

variable {layers : List (List Char)}

omit htar in
/-- Unpacking one more layer. -/
lemma unpackLayers_cons {u : Unpacker} {host T : Host}
    (h : unpackLayers u s host (layer :: layers) = (.ok (), T)) :
    ∃ digest blob host₁, Digest.parse layer = some digest ∧ s.blobs digest = some blob ∧
      unpackBlob u blob host = (.ok (), host₁) ∧ unpackLayers u s host₁ layers = (.ok (), T) := by
  rw [unpackLayers] at h
  cases hparse : Digest.parse layer with
  | none =>
    rw [hparse] at h
    cases h
  | some digest =>
    rw [hparse] at h
    simp only at h
    cases hblob : s.blobs digest with
    | none =>
      rw [hblob] at h
      cases h
    | some blob =>
      rw [hblob] at h
      simp only at h
      rcases hrun : unpackBlob u blob host with ⟨r, host₁⟩
      rw [hrun] at h
      cases r with
      | error e => cases h
      | ok _ => exact ⟨digest, blob, host₁, rfl, hblob, hrun, h⟩

omit htar in
/-- The digests of layers that have been unpacked can be read. -/
lemma parses_of_unpackLayers {u : Unpacker} {host T : Host}
    (h : unpackLayers u s host layers = (.ok (), T)) :
    ∀ layer ∈ layers, ∃ digest, Digest.parse layer = some digest := by
  induction layers generalizing host with
  | nil => simp
  | cons layer layers ih =>
    obtain ⟨digest, blob, host₁, hparse, -, -, hrest⟩ := unpackLayers_cons h
    exact forall_mem_cons.mpr ⟨⟨digest, hparse⟩, ih hrest⟩

/-- **Unpacking the layers in order** gives the last words of all of them. -/
lemma unpackLayers_spec {host T : Host} (hshaped : host.Shaped)
    (h : unpackLayers (calmUnpacker tar entriesOf) s host layers = (.ok (), T))
    (hsteady : SteadyLayers tar change entriesOf s host layers)
    (halone : ∀ layer ∈ layers, ∃ alone, Unpacks tar entriesOf s layer alone) (p : List Name) :
    T.lookup p =
      (fate (layers.map (layerChanges tar change entriesOf s)).flatten p).getD (host.lookup p) := by
  induction layers generalizing host with
  | nil =>
    cases h
    rfl
  | cons layer layers ih =>
    obtain ⟨digest, blob, host₁, hparse, hblob, hrun, hrest⟩ := unpackLayers_cons h
    rw [SteadyLayers, hparse, Option.bind_some, hblob] at hsteady
    obtain ⟨hsteady, hsteadyRest⟩ := hsteady
    obtain ⟨⟨alone, digest', blob', hparse', hblob', hrun'⟩, haloneRest⟩ :=
      forall_mem_cons.mp halone
    cases hparse.symm.trans hparse'
    cases hblob.symm.trans hblob'
    rw [hrun] at hsteadyRest
    obtain ⟨hshaped₁, hlookup₁⟩ := unpackLayer_spec hshaped htar hrun
    have hchanges : layerChanges tar change entriesOf s layer =
        changesFrom tar change host (entriesOf blob) := by
      rw [layerChanges, hparse, Option.bind_some, hblob]
      exact (hsteady.changesFrom_eq hshaped htar Tree.shaped_empty hrun hrun').symm
    rw [ih hshaped₁ hrest hsteadyRest haloneRest, hlookup₁ p, map_cons, flatten_cons, fate_append,
      hchanges]
    cases fate (layers.map (layerChanges tar change entriesOf s)).flatten p <;> simp

variable {d : LayersDir} {elsewhere : List Char → Bool}

omit htar in
/-- A layer with a key of its own that has been unpacked alone can be marked. -/
lemma Keyed.mark {all : List (List Char)} (hkeyed : Keyed tar entriesOf s d all)
    (hlayer : layer ∈ all) {alone : Host} (halone : Unpacks tar entriesOf s layer alone) :
    Keyed tar entriesOf s ((d.setDir (digestKey layer) alone).mark (digestKey layer)) all := by
  refine ⟨hkeyed.key_inj, fun l hl hmarked => ?_⟩
  by_cases hkey : digestKey l = digestKey layer
  · -- the layer with this key is the one just unpacked
    cases hkeyed.key_inj l hl layer hlayer hkey
    exact ⟨alone, by simp [LayersDir.mark, LayersDir.setDir], halone⟩
  · have hold : d.marks (digestKey l) = true := by
      simpa [LayersDir.mark, LayersDir.setDir, hkey] using hmarked
    obtain ⟨host, hdir, hhost⟩ := hkeyed.marked l hl hold
    exact ⟨host, by simpa [LayersDir.mark, LayersDir.setDir, hkey] using hdir, hhost⟩

omit htar in
/-- **Preparing the layers** leaves each in the directory of its key, if all can be unpacked alone,
    and otherwise fails. -/
lemma prepareLayers_spec {all : List (List Char)} (hsub : ∀ l ∈ layers, l ∈ all)
    (hparse : ∀ l ∈ layers, ∃ digest, Digest.parse l = some digest)
    (hkeyed : Keyed tar entriesOf s d all) :
    match prepareLayers (calmUnpacker tar entriesOf) s elsewhere d layers with
    | (.ok keys, d') => keys = layers.map digestKey ∧
        (∀ key, d.marks key = true → d'.marks key = true) ∧ Keyed tar entriesOf s d' all ∧
        ∀ l ∈ layers, d'.marks (digestKey l) = true
    | (.error _, _) => ∃ l ∈ layers, ∀ alone, ¬ Unpacks tar entriesOf s l alone := by
  induction layers generalizing d with
  | nil => exact ⟨rfl, fun _ h => h, hkeyed, by simp⟩
  | cons layer layers ih =>
    have hsub' : ∀ l ∈ layers, l ∈ all := fun l hl => hsub l (mem_cons_of_mem _ hl)
    obtain ⟨⟨digest, hdigest⟩, hparse'⟩ := forall_mem_cons.mp hparse
    rw [prepareLayers]
    simp only [LayersDir.marked, isName_digestKey hdigest, if_true]
    by_cases hmark : d.marks (digestKey layer) = true
    · rw [if_pos hmark]
      have hrest := ih hsub' hparse' hkeyed
      rcases hrun : prepareLayers (calmUnpacker tar entriesOf) s elsewhere d layers with
        ⟨_ | keys, d'⟩
      · rw [hrun] at hrest
        obtain ⟨l, hl, hfails⟩ := hrest
        exact ⟨l, mem_cons_of_mem _ hl, hfails⟩
      · rw [hrun] at hrest
        obtain ⟨rfl, hmono, hkeyed', hmarks⟩ := hrest
        exact ⟨rfl, hmono, hkeyed', forall_mem_cons.mpr ⟨hmono _ hmark, hmarks⟩⟩
    · rw [if_neg hmark, hdigest]
      simp only
      -- a layer that cannot be unpacked alone ends it
      have hfails (h : ∀ blob, s.blobs digest = some blob → ∀ alone,
          unpackBlob (calmUnpacker tar entriesOf) blob .empty ≠ (.ok (), alone)) :
          ∃ l ∈ layer :: layers, ∀ alone, ¬ Unpacks tar entriesOf s l alone := by
        refine ⟨layer, mem_cons_self, ?_⟩
        rintro alone ⟨digest', blob, hdigest', hblob, hrun⟩
        cases hdigest.symm.trans hdigest'
        exact h blob hblob alone hrun
      cases hblob : s.blobs digest with
      | none => exact hfails (by simp [hblob])
      | some blob =>
        simp only
        rcases hrun : unpackBlob (calmUnpacker tar entriesOf) blob .empty with ⟨_ | _, alone⟩
        · refine hfails ?_
          rintro blob' hblob' alone' hrun'
          cases hblob.symm.trans hblob'
          rw [hrun] at hrun'
          cases hrun'
        · simp only
          have hkeyed₁ := hkeyed.mark (hsub layer mem_cons_self)
            ⟨digest, blob, hdigest, hblob, hrun⟩
          have hrest := ih hsub' hparse' hkeyed₁
          rcases hrun' : prepareLayers (calmUnpacker tar entriesOf) s elsewhere
            ((d.setDir (digestKey layer) alone).mark (digestKey layer)) layers with ⟨_ | keys, d'⟩
          · rw [hrun'] at hrest
            obtain ⟨l, hl, hfails⟩ := hrest
            exact ⟨l, mem_cons_of_mem _ hl, hfails⟩
          · rw [hrun'] at hrest
            obtain ⟨rfl, hmono, hkeyed', hmarks⟩ := hrest
            refine ⟨rfl, fun key hkey => hmono key ?_, hkeyed',
              forall_mem_cons.mpr ⟨hmono _ (by simp [LayersDir.mark]), hmarks⟩⟩
            by_cases heq : key = digestKey layer
            · simp [LayersDir.mark, heq]
            · simpa [LayersDir.mark, LayersDir.setDir, heq] using hkey

/-- The union of prepared layers agrees with the last words of the layers where nothing is
    resurrected. -/
lemma view_layers_iff {T : Host}
    (hdirs : ∀ l ∈ layers, ∃ host, d.dirs (digestKey l) = some host ∧
      Unpacks tar entriesOf s l host)
    (hT : ∀ p, T.lookup p = (fate (layers.map (layerChanges tar change entriesOf s)).flatten p).getD
      (Tree.empty.lookup p)) :
    (∀ p, view (Tree.empty ::
        ((layers.map digestKey).map fun key => (d.dirs key).getD Tree.empty).reverse) p =
          T.lookup p) ↔
      ∀ p, ¬ Resurrects (layers.map (layerChanges tar change entriesOf s)).reverse p := by
  have hholds : List.Forall₂ Holds
      ((layers.map digestKey).map fun key => (d.dirs key).getD Tree.empty).reverse
      (layers.map (layerChanges tar change entriesOf s)).reverse := by
    rw [map_map]
    refine forall₂_reverse_iff.mpr ?_
    rw [forall₂_map_left_iff, forall₂_map_right_iff, forall₂_same]
    intro l hl
    obtain ⟨host, hdir, hunpacks⟩ := hdirs l hl
    simpa [hdir] using hunpacks.holds htar
  have hplain : ∀ layer ∈ (layers.map (layerChanges tar change entriesOf s)).reverse, ∀ a ∈ layer,
      a.Plain := by
    intro layer hlayer a ha
    obtain ⟨l, -, rfl⟩ := mem_map.mp (mem_reverse.mp hlayer)
    exact plain_layerChanges htar ha
  refine forall_congr' fun p => ?_
  rw [hT p, fate_flatten]
  by_cases hp : p = []
  · -- the root is always there
    subst hp
    have hroot := not_resurrects_root hplain
    simp only [hroot, not_false_eq_true, iff_true]
    rw [← fate_flatten, ← hT []]
    rfl
  · have hupper : view (Tree.empty ::
        ((layers.map digestKey).map fun key => (d.dirs key).getD Tree.empty).reverse) p =
        view ((layers.map digestKey).map fun key => (d.dirs key).getD Tree.empty).reverse p := by
      have hempty : Holds (Tree.empty : Host) [] := fun _ => rfl
      refine (view_cons _ hempty (by simp) hp).2.2 ?_ (by simp [fate])
      rintro ⟨q, node, -, -, hq, -⟩
      cases hq
    rw [hupper, Tree.lookup_empty hp]
    exact view_eq_iff hholds hplain hp

end

/-- **When the overlay is the image.**  The layers of an image that can be unpacked into one
    directory can be prepared and mounted as an overlay, and the overlay shows at every path what is
    in that directory, if and only if the image has layers, none of them twice, each can be unpacked
    alone, and no path is resurrected: removed by the last layer that mentions it, with nothing else
    in its way, and left by a layer below. -/
theorem overlay_eq_rootfs_iff (tar : Tar) (change : Host → TarEntry → Option (Action Name Bytes))
    (htar : tar.Performs change) (entriesOf : Bytes → List (Except Error TarEntry))
    (svc : Service) (faults : Faults) (s : Content) (elsewhere : List Char → Bool)
    (referenceStr : List Char) (layers : List (List Char)) (d : ImageDir) (T : Host)
    (hlayers : layerDigests svc faults s referenceStr = .ok layers)
    (hkeyed : Keyed tar entriesOf s d.layers layers)
    (hrootfs : prepareRootfs (calmUnpacker tar entriesOf) s svc faults referenceStr Tree.empty =
      (.ok (), T))
    (hsteady : SteadyLayers tar change entriesOf s Tree.empty layers) :
    (∃ keys d' shown,
      prepareImageLayers (calmUnpacker tar entriesOf) s elsewhere svc faults referenceStr d =
        (.ok keys, d') ∧
      doOverlayMount d'.layers keys = .ok shown ∧ ∀ p, shown p = T.lookup p) ↔
    layers ≠ [] ∧ layers.Nodup ∧ (∀ layer ∈ layers, ∃ alone, Unpacks tar entriesOf s layer alone) ∧
      ∀ p, ¬ Resurrects (layers.map (layerChanges tar change entriesOf s)).reverse p := by
  rw [prepareRootfs, hlayers] at hrootfs
  have hspec := @prepareLayers_spec _ _ _ _ _ elsewhere _ (fun _ h => h)
    (parses_of_unpackLayers hrootfs) hkeyed
  have hnodup : (layers.map digestKey).Nodup ↔ layers.Nodup :=
    ⟨Nodup.of_map _, fun h => h.map_on hkeyed.key_inj⟩
  rw [prepareImageLayers, hlayers]
  simp only
  rcases hrun : prepareLayers (calmUnpacker tar entriesOf) s elsewhere d.layers layers with
    ⟨e | keys, d'⟩
  · rw [hrun] at hspec
    obtain ⟨l, hl, hfails⟩ := hspec
    constructor
    · rintro ⟨keys, d'', shown, hprepared, -⟩
      cases hprepared
    · rintro ⟨-, -, halone, -⟩
      obtain ⟨alone, h⟩ := halone l hl
      exact absurd h (hfails alone)
  · rw [hrun] at hspec
    obtain ⟨rfl, -, hkeyed', hmarks⟩ := hspec
    have hdirs : ∀ l ∈ layers, ∃ host, d'.dirs (digestKey l) = some host ∧
        Unpacks tar entriesOf s l host := fun l hl => hkeyed'.marked l hl (hmarks l hl)
    have halone : ∀ l ∈ layers, ∃ alone, Unpacks tar entriesOf s l alone := fun l hl => by
      obtain ⟨host, -, hhost⟩ := hdirs l hl
      exact ⟨host, hhost⟩
    have hview := view_layers_iff htar hdirs
      (unpackLayers_spec htar Tree.shaped_empty hrootfs hsteady halone)
    constructor
    · rintro ⟨keys, d'', shown, hprepared, hmount, hshown⟩
      cases hprepared
      rw [doOverlayMount] at hmount
      split_ifs at hmount with hempty hdup
      cases hmount
      exact ⟨fun h => hempty (by rw [h]; rfl), hnodup.mp hdup, halone,
        hview.mp hshown⟩
    · rintro ⟨hne, hdup, -, hno⟩
      refine ⟨_, _, _, rfl, ?_, hview.mpr hno⟩
      rw [doOverlayMount, if_neg (by simpa using hne), if_neg (not_not.mpr (hnodup.mpr hdup))]

/-! ## An image with a whiteout -/

/-- What is written for an entry; a hard link is a second name of the file that is there. -/
def nodeOf (host : Host) : EntryKind → Option (Node Name Bytes)
  | .Directory => some (.dir false)
  | .Symlink target => some (.symlink (components target))
  | .Link target =>
    match cleanLayerPath target with
    | .error _ => none
    | .ok path =>
      match host.lookup path with
      | some (.file data) => some (.file data)
      | _ => none
  | .Regular data => some (.file data)
  | .Char _ _ | .Block _ _ | .Fifo => some (.file [])

/-- An entry is written at its path, if there are only directories on the way. -/
def exactChange (host : Host) (entry : TarEntry) : Option (Action Name Bytes) :=
  match cleanLayerPath entry.path with
  | .error _ => none
  | .ok path =>
    if Blocked host path.dropLast then none else (nodeOf host entry.kind).map (.Write path)

/-- **An archive library that writes exactly the entries** at their paths. -/
def exactTar : Tar where
  unpackIn host _ entry :=
    match exactChange host entry with
    | some (.Write path node) => (.ok (), host.write path node)
    | _ => (.error "cannot be written".toList, host)

lemma cleanLayerPath_ne_nil {path : Name} {clean : List Name}
    (h : cleanLayerPath path = .ok clean) : clean ≠ [] := by
  unfold cleanLayerPath at h
  rcases hparts : normalParts (components path) with _ | _ | ⟨part, rest⟩ <;> rw [hparts] at h <;>
    cases h
  exact cons_ne_nil _ _

lemma nodeOf_plain {host : Host} {kind : EntryKind} {node : Node Name Bytes}
    (h : nodeOf host kind = some node) :
    (node.isDir = true → node = .dir false) ∧ node ≠ .device 0 0 := by
  cases kind <;> simp only [nodeOf] at h <;> (try split at h) <;> (try split at h) <;> cases h <;>
    simp [Node.isDir]

lemma exactChange_eq_some {host : Host} {entry : TarEntry} {a : Action Name Bytes}
    (h : exactChange host entry = some a) :
    ∃ path node, a = .Write path node ∧ a.Plain := by
  unfold exactChange at h
  split at h
  · cases h
  · next path hclean =>
    split_ifs at h
    obtain ⟨node, hnode, rfl⟩ := Option.map_eq_some_iff.mp h
    exact ⟨path, node, rfl, cleanLayerPath_ne_nil hclean, nodeOf_plain hnode⟩

lemma exactTar_performs : exactTar.Performs exactChange where
  plain h := by
    obtain ⟨_, _, -, hplain⟩ := exactChange_eq_some h
    exact hplain
  done h := by
    obtain ⟨path, node, rfl, hplain⟩ := exactChange_eq_some h
    exact ⟨_, by simp only [exactTar, h], Tree.after_write hplain.1⟩
  refused h := ⟨"cannot be written".toList, by simp only [exactTar, h]⟩

/-- Archives for evaluation, by their first byte: a file `f`, a whiteout of it, and a file `g`. -/
def sampleEntries : Bytes → List (Except Error TarEntry)
  | 1 :: _ => [.ok ⟨ascii "f", .Regular [9]⟩]
  | 2 :: _ => [.ok ⟨ascii ".wh.f", .Regular []⟩]
  | _ => [.ok ⟨ascii "g", .Regular [9]⟩]

def sampleUnpacker : Unpacker := calmUnpacker exactTar sampleEntries

/-- A service whose manifests are lists of layers, one byte for each. -/
def layeredService : Service where
  sha := .sample
  arch := "amd64".toList
  serde :=
    { manifest := fun bytes => .ok
        { schemaVersion := 2
          mediaType := []
          config := ⟨[], [], 0⟩
          layers := bytes.map fun b => ⟨[], (Digest.fromData .sample [b]).text, 1⟩ }
      index := fun _ => .error []
      config := fun _ => .ok () }

/-- A store with three layers and the manifest of an image. -/
def layeredStore (manifest : Bytes) : Content :=
  let put := fun (s : Content) (data : Bytes) =>
    s.setBlob (.fromData .sample data) (some data)
  ([[1], [2], [3], manifest].foldl put .empty).setLink
    "reg.io_app_1".toList (some (Digest.fromData .sample manifest).text)

/-- What is at a path in the overlay of a sample image. -/
def sampleOverlay (manifest : Bytes) (p : List Name) : Option (Node Name Bytes) :=
  match prepareImageLayers sampleUnpacker (layeredStore manifest) (fun _ => false) layeredService
      .clean "reg.io/app:1".toList .empty with
  | (.error _, _) => none
  | (.ok keys, d) =>
    match doOverlayMount d.layers keys with
    | .error _ => none
    | .ok shown => shown p

/-- What is at a path in the root file system of a sample image. -/
def sampleRootfs (manifest : Bytes) : Except Error Unit × Host :=
  prepareRootfs sampleUnpacker (layeredStore manifest) layeredService .clean
    "reg.io/app:1".toList .empty

/-- What one written node removes is what it covers. -/
lemma covers_of_fate_write {path p : List Name} {node : Node Name Bytes}
    (h : fate [.Write path node] p = some none) : Covers [.Write path node] p := by
  simp only [fate, foldl_cons, foldl_nil, Option.or_none, Action.touch] at h
  split_ifs at h with heq hpre hbelow
  · cases h
  · cases h
  · exact ⟨path, node, hbelow.1, fun h => heq h.symm, by simp [fate, Action.touch], hbelow.2⟩

/-- An image whose second layer adds a file: the overlay is the image. -/
theorem overlay_eq_rootfs_iff_added :
    ∃ keys d' shown,
      prepareImageLayers sampleUnpacker (layeredStore [1, 3]) (fun _ => false) layeredService
        Faults.clean "reg.io/app:1".toList ImageDir.empty = (.ok keys, d') ∧
      doOverlayMount d'.layers keys = .ok shown ∧
      ∀ p, shown p = (sampleRootfs [1, 3]).2.lookup p := by
  have hsteady : SteadyLayers exactTar exactChange sampleEntries (layeredStore [1, 3]) Tree.empty
      ([[1], [3]].map fun data => (Digest.fromData Sha256.sample data).text) := by
    refine ⟨fun a h => ⟨h, trivial⟩, fun a h => ⟨?_, trivial⟩, trivial⟩
    rw [← h]
    decide +kernel
  refine (overlay_eq_rootfs_iff exactTar exactChange exactTar_performs sampleEntries layeredService
    Faults.clean (layeredStore [1, 3]) (fun _ => false) "reg.io/app:1".toList _ ImageDir.empty
    (sampleRootfs [1, 3]).2 (by decide +kernel) ⟨by decide +kernel, fun _ _ h => by cases h⟩
    (Prod.ext (by decide +kernel) rfl) hsteady).mpr ⟨by simp, by decide +kernel, ?_, ?_⟩
  · intro layer hlayer
    obtain ⟨data, hdata, rfl⟩ := mem_map.mp hlayer
    refine ⟨(unpackBlob sampleUnpacker data .empty).2, .fromData .sample data, data,
      Digest.parse_text _, ?_, Prod.ext ?_ rfl⟩ <;>
    · rcases mem_pair.mp hdata with rfl | rfl <;> decide +kernel
  · have hchanges : ([[1], [3]].map fun data => (Digest.fromData Sha256.sample data).text).map
        (layerChanges exactTar exactChange sampleEntries (layeredStore [1, 3])) =
        [[.Write [ascii "f"] (.file [9])], [.Write [ascii "g"] (.file [9])]] := by
      decide +kernel
    rw [hchanges]
    rintro p ⟨above, layer, mid, lower, below, hstack, -, hnone, hfree, -⟩
    have hmem : layer ∈ [[.Write [ascii "g"] (.file [9])], [.Write [ascii "f"] (.file [9])]] := by
      rw [show [[Action.Write [ascii "g"] (.file [9])], [.Write [ascii "f"] (.file [9])]] =
        above ++ layer :: (mid ++ lower :: below) from hstack]
      simp
    rcases mem_pair.mp hmem with rfl | rfl <;> exact hfree (covers_of_fate_write hnone)

/-- **A deleted file comes back.**  The second layer of an image removes the file of the first: it
    is not in the root file system, but in the overlay. -/
theorem deleted_file_in_overlay :
    (sampleRootfs [1, 2]).1 = .ok () ∧ (sampleRootfs [1, 2]).2.lookup [ascii "f"] = none ∧
      sampleOverlay [1, 2] [ascii "f"] = some (.file [9]) := by
  refine ⟨?_, ?_, ?_⟩ <;> decide +kernel

end Rauha.Oci
