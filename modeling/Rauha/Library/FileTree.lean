import Mathlib.Tactic

/-!
# File trees

A file system as the nodes at its paths, with what a kernel does with the paths that programs hand
to it.

* `Tree`: finitely many nodes by path; the root is always there.  `set`, `prune` and `removeTree`
  change it, and `lookup` says what is at a path afterwards;
* `walk`: the resolution of a path, following symbolic links wherever they lead; `locate` does not
  follow the last component.  `Physical` paths are those that lead to themselves
  (`walk_of_physical`), which is what makes a path safe to use;
* `view`: the union of several trees, with whiteouts and masking directories.
-/

namespace FileTree

open List

/-- One component of a path as programs write it. -/
inductive Component (ν : Type) where
  | Normal (name : ν)
  | CurDir
  | ParentDir
  | RootDir
  deriving DecidableEq, Repr

/-- What is at a path.  A directory may carry the mark that it masks what lies below it in a union;
    the device `0/0` is a whiteout there. -/
inductive Node (ν α : Type) where
  | dir (masks : Bool)
  | file (content : α)
  | symlink (target : List (Component ν))
  | device (major minor : ℕ)
  deriving DecidableEq, Repr

namespace Node

variable {ν α : Type}

def isDir : Node ν α → Bool
  | dir _ => true
  | _ => false

end Node

/-- A file system, by the nodes at its paths. -/
structure Tree (ν α : Type) where
  nodes : List (List ν × Node ν α)

namespace Tree

variable {ν α : Type} [DecidableEq ν] (t : Tree ν α)

def empty : Tree ν α := ⟨[]⟩

/-- The node at a path. -/
def lookup (p : List ν) : Option (Node ν α) :=
  if p = [] then some (.dir false) else (t.nodes.find? fun e => e.1 = p).map Prod.snd

def set (p : List ν) (node : Node ν α) : Tree ν α := ⟨(p, node) :: t.nodes⟩

/-- Without the nodes at the paths that `f` picks. -/
def prune (f : List ν → Bool) : Tree ν α := ⟨t.nodes.filter fun e => !f e.1⟩

/-- Without a path and everything below it. -/
def removeTree (p : List ν) : Tree ν α := t.prune fun q => decide (p <+: q)

/-- The names in a directory. -/
def children (p : List ν) : List ν :=
  (t.nodes.filterMap fun e => if e.1.dropLast = p then e.1.getLast? else none).dedup

variable {t}

@[simp] lemma lookup_nil : t.lookup [] = some (.dir false) := rfl

lemma lookup_empty {p : List ν} (hp : p ≠ []) : (empty : Tree ν α).lookup p = none := by
  rw [lookup, if_neg hp]
  rfl

lemma lookup_set {p q : List ν} {node : Node ν α} (hp : p ≠ []) :
    (t.set p node).lookup q = if q = p then some node else t.lookup q := by
  unfold lookup
  by_cases hq : q = []
  · subst hq
    rw [if_pos rfl, if_neg (Ne.symm hp), if_pos rfl]
  · rw [if_neg hq, if_neg hq]
    by_cases heq : q = p
    · subst heq
      simp [set]
    · rw [if_neg heq, set, List.find?_cons_of_neg (by simpa using Ne.symm heq)]

lemma lookup_prune {f : List ν → Bool} {q : List ν} (hq : q ≠ []) :
    (t.prune f).lookup q = if f q then none else t.lookup q := by
  unfold lookup prune
  rw [if_neg hq, if_neg hq, List.find?_filter]
  split_ifs with hf
  · rw [Option.map_eq_none_iff, List.find?_eq_none]
    rintro e -
    simp only [Bool.not_eq_true', decide_eq_true_eq, not_and]
    rintro hnot rfl
    rw [hf] at hnot
    cases hnot
  · congr 2
    funext e
    by_cases heq : e.1 = q
    · simp [heq, hf]
    · simp [heq]

lemma lookup_removeTree {p q : List ν} (hp : p ≠ []) :
    (t.removeTree p).lookup q = if p <+: q then none else t.lookup q := by
  by_cases hq : q = []
  · subst hq
    rw [lookup_nil, lookup_nil, if_neg (by simpa using hp)]
  · rw [removeTree, lookup_prune hq]
    simp

lemma mem_children {p : List ν} {n : ν} :
    n ∈ t.children p ↔ (t.lookup (p ++ [n])).isSome = true := by
  simp only [children, mem_dedup, mem_filterMap, lookup, append_eq_nil_iff,
    cons_ne_self, and_false, if_false, Option.isSome_map, List.find?_isSome]
  refine exists_congr fun e => and_congr_right fun _ => ?_
  rw [decide_eq_true_eq]
  constructor
  · intro h
    split_ifs at h with hdrop
    obtain ⟨q, hq⟩ := List.getLast?_eq_some_iff.mp h
    rw [hq, dropLast_concat] at hdrop
    rw [hq, hdrop]
  · intro h
    rw [h]
    simp

/-- **Prefix closure**: what is there lies in a directory. -/
def Shaped (t : Tree ν α) : Prop :=
  ∀ p n, (t.lookup (p ++ [n])).isSome = true → ∃ masks, t.lookup p = some (.dir masks)

lemma shaped_empty : (empty : Tree ν α).Shaped := by
  intro p n h
  rw [lookup_empty (by simp)] at h
  cases h

/-- Everything above what is there is a directory. -/
lemma Shaped.dir_of_prefix (h : t.Shaped) {p q : List ν} (hq : (t.lookup q).isSome = true)
    (hpre : p <+: q) (hne : p ≠ q) : ∃ masks, t.lookup p = some (.dir masks) := by
  obtain ⟨r, rfl⟩ := hpre
  induction r using List.reverseRecOn with
  | nil => exact absurd (append_nil p).symm hne
  | append_singleton r n ih =>
    rw [← append_assoc] at hq
    obtain ⟨masks, hdir⟩ := h _ _ hq
    by_cases hr : r = []
    · subst hr
      rw [append_nil] at hdir
      exact ⟨masks, hdir⟩
    · exact ih (by rw [hdir]; rfl) (by simpa using hr)

/-- Below what is no directory there is nothing. -/
lemma Shaped.none_below (h : t.Shaped) {p q : List ν} (hp : ∀ masks, t.lookup p ≠ some (.dir masks))
    (hpre : p <+: q) (hne : p ≠ q) : t.lookup q = none := by
  cases hq : t.lookup q with
  | none => rfl
  | some node =>
    obtain ⟨masks, hdir⟩ := h.dir_of_prefix (by rw [hq]; rfl) hpre hne
    exact absurd hdir (hp masks)

lemma Shaped.none_from (h : t.Shaped) {p q : List ν} (hp : t.lookup p = none) (hpq : p <+: q) :
    t.lookup q = none := by
  by_cases heq : p = q
  · rw [← heq, hp]
  · exact h.none_below (by simp [hp]) hpq heq

end Tree

/-! ## Paths -/

inductive Errno where
  | ENOENT
  | ENOTDIR
  | ELOOP
  | EIO
  deriving DecidableEq, Repr

section

variable {ν α : Type} [DecidableEq ν]

/-- Resolve a path from a directory; `follow` goes on at a symbolic link. -/
def walkWith (follow : List ν → List (Component ν) → Except Errno (List ν)) (t : Tree ν α) :
    List ν → List (Component ν) → Except Errno (List ν)
  | cur, [] => .ok cur
  | _, .RootDir :: rest => walkWith follow t [] rest
  | cur, .CurDir :: rest => walkWith follow t cur rest
  | cur, .ParentDir :: rest => walkWith follow t cur.dropLast rest
  | cur, .Normal n :: rest =>
    match t.lookup (cur ++ [n]) with
    | none => .error .ENOENT
    | some (.dir _) => walkWith follow t (cur ++ [n]) rest
    | some (.symlink target) => follow cur (target ++ rest)
    | some _ => if rest = [] then .ok (cur ++ [n]) else .error .ENOTDIR

/-- Resolve a path, following so many symbolic links. -/
def walk (t : Tree ν α) : ℕ → List ν → List (Component ν) → Except Errno (List ν)
  | 0 => walkWith (fun _ _ => .error .ELOOP) t
  | links + 1 => walkWith (walk t links) t

/-- Resolve an absolute path, its last component included. -/
def resolve (t : Tree ν α) (path : List (Component ν)) : Except Errno (List ν) := walk t 40 [] path

/-- Where the last component of a path is, not following it. -/
def locate (t : Tree ν α) (path : List (Component ν)) : Except Errno (List ν) :=
  match path.getLast? with
  | some (.Normal n) =>
    match resolve t path.dropLast with
    | .error e => .error e
    | .ok p =>
      match t.lookup p with
      | some (.dir _) => .ok (p ++ [n])
      | _ => .error .ENOTDIR
  | _ => resolve t path

/-- The path and everything above it are directories, so that the path leads to itself. -/
def Physical (t : Tree ν α) (p : List ν) : Prop :=
  ∀ q, q <+: p → ∃ masks, t.lookup q = some (.dir masks)

variable {t t' : Tree ν α} {p : List ν}

lemma Physical.nil : Physical t [] := fun q hq => by
  rw [prefix_nil.mp hq]
  exact ⟨false, rfl⟩

lemma Physical.dir (h : Physical t p) : ∃ masks, t.lookup p = some (.dir masks) :=
  h p (prefix_refl p)

lemma Physical.of_prefix {q : List ν} (h : Physical t p) (hq : q <+: p) : Physical t q :=
  fun r hr => h r (hr.trans hq)

lemma Physical.concat {n : ν} (h : Physical t p) {masks : Bool}
    (hn : t.lookup (p ++ [n]) = some (.dir masks)) : Physical t (p ++ [n]) := by
  intro q hq
  rcases prefix_concat_iff.mp hq with rfl | hq
  · exact ⟨masks, hn⟩
  · exact h q hq

lemma Physical.congr (h : Physical t p) (heq : ∀ q, q <+: p → t'.lookup q = t.lookup q) :
    Physical t' p := fun q hq => by
  rw [heq q hq]
  exact h q hq

lemma walkWith_of_physical {follow : List ν → List (Component ν) → Except Errno (List ν)}
    {cur : List ν} (h : Physical t (cur ++ p)) :
    walkWith follow t cur (p.map .Normal) = .ok (cur ++ p) := by
  induction p generalizing cur with
  | nil => simp [walkWith]
  | cons n p ih =>
    have hcons : cur ++ n :: p = cur ++ [n] ++ p := by simp
    obtain ⟨masks, hdir⟩ := h (cur ++ [n]) (by rw [hcons]; exact prefix_append _ _)
    rw [map_cons, walkWith, hdir]
    simp only
    rw [hcons] at h ⊢
    exact ih h

/-- **A physical path resolves to itself**, whatever links there are elsewhere. -/
lemma resolve_of_physical (h : Physical t p) : resolve t (p.map .Normal) = .ok p := by
  have hwalk : walkWith (walk t 39) t [] (p.map .Normal) = .ok ([] ++ p) := walkWith_of_physical h
  exact hwalk

/-- What a walk from a physical directory arrives at lies in a physical directory. -/
lemma walkWith_above {follow : List ν → List (Component ν) → Except Errno (List ν)}
    (hfollow : ∀ cur path p, Physical t cur → follow cur path = .ok p →
      ∀ q, q <+: p → q ≠ p → ∃ masks, t.lookup q = some (.dir masks))
    {cur : List ν} {path : List (Component ν)} (hcur : Physical t cur)
    (h : walkWith follow t cur path = .ok p) :
    ∀ q, q <+: p → q ≠ p → ∃ masks, t.lookup q = some (.dir masks) := by
  induction path generalizing cur with
  | nil =>
    cases h
    exact fun q hq _ => hcur q hq
  | cons c rest ih =>
    cases c with
    | RootDir => exact ih .nil h
    | CurDir => exact ih hcur h
    | ParentDir => exact ih (hcur.of_prefix (List.dropLast_prefix _)) h
    | Normal n =>
      rw [walkWith] at h
      -- a node that ends the walk lies in `cur`
      have hend : cur ++ [n] = p → ∀ q, q <+: p → q ≠ p →
          ∃ masks, t.lookup q = some (.dir masks) := by
        rintro rfl q hq hne
        exact hcur q ((prefix_concat_iff.mp hq).resolve_left hne)
      cases hnode : t.lookup (cur ++ [n]) with
      | none =>
        rw [hnode] at h
        cases h
      | some node =>
        rw [hnode] at h
        cases node with
        | dir masks => exact ih (hcur.concat hnode) h
        | symlink target => exact hfollow cur _ p hcur h
        | file content =>
          simp only at h
          split_ifs at h
          exact hend (Except.ok.inj h)
        | device major minor =>
          simp only at h
          split_ifs at h
          exact hend (Except.ok.inj h)

/-- **A directory that a path resolves to is physical.** -/
lemma physical_of_resolve {path : List (Component ν)} (h : resolve t path = .ok p)
    {masks : Bool} (hdir : t.lookup p = some (.dir masks)) : Physical t p := by
  have habove : ∀ links cur (path : List (Component ν)) p, Physical t cur →
      walk t links cur path = .ok p →
      ∀ q, q <+: p → q ≠ p → ∃ masks, t.lookup q = some (.dir masks) := by
    intro links
    induction links with
    | zero =>
      intro cur path p hcur h
      exact walkWith_above (fun _ _ _ _ hloop => by cases hloop) hcur h
    | succ links ih => exact fun cur path p hcur h => walkWith_above ih hcur h
  intro q hq
  by_cases hne : q = p
  · exact hne ▸ ⟨masks, hdir⟩
  · exact habove 40 [] path p .nil h q hq hne

lemma locate_of_physical (h : Physical t p) (n : ν) :
    locate t (p.map .Normal ++ [.Normal n]) = .ok (p ++ [n]) := by
  obtain ⟨masks, hdir⟩ := h.dir
  rw [locate, List.getLast?_concat, dropLast_concat, resolve_of_physical h]
  simp only [hdir]

end

/-! ## Unions -/

section

variable {ν α : Type} [DecidableEq ν]

/-- A path has a non-directory or a masking directory above it. -/
def Tree.hides (t : Tree ν α) (p : List ν) : Bool :=
  p.inits.any fun q => decide (q ≠ p) &&
    match t.lookup q with
    | none => false
    | some (.dir masks) => masks
    | some _ => true

/-- **The union** of several trees, the topmost one first: the topmost node at a path is seen, and
    what lies below it is seen through directories only. -/
def view : List (Tree ν α) → List ν → Option (Node ν α)
  | [], p => if p = [] then some (.dir false) else none
  | t :: below, p =>
    match t.lookup p with
    | some (.device 0 0) => none
    | some node => some node
    | none => if t.hides p then none else view below p

lemma Tree.hides_iff {t : Tree ν α} {p : List ν} :
    t.hides p = true ↔ ∃ q node, q <+: p ∧ q ≠ p ∧ t.lookup q = some node ∧
      node ≠ .dir false := by
  simp only [Tree.hides, any_eq_true, mem_inits, Bool.and_eq_true, decide_eq_true_eq]
  constructor
  · rintro ⟨q, hpre, hne, hnode⟩
    cases hq : t.lookup q with
    | none =>
      rw [hq] at hnode
      cases hnode
    | some node =>
      refine ⟨q, node, hpre, hne, hq, ?_⟩
      rintro rfl
      rw [hq] at hnode
      cases hnode
  · rintro ⟨q, node, hpre, hne, hq, hnode⟩
    refine ⟨q, hpre, hne, ?_⟩
    rw [hq]
    cases node with
    | dir masks =>
      cases masks with
      | true => rfl
      | false => exact absurd rfl hnode
    | file content => rfl
    | symlink target => rfl
    | device major minor => rfl

end

end FileTree
