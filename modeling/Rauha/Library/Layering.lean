import Rauha.Library.FileTree

/-!
# Layers of changes

A layer is a list of changes to a file tree.  There are two ways to put layers together: apply them
to one tree, one after the other, or apply each to an empty tree of its own and take the union.

* `touch` is what one change says about a path, `fate` the last word of a layer on it, and
  `lastWord` that of a whole stack; `After.foldl` says that the last word is what one finds in the
  end;
* a layer applied to an empty tree has lost what it says about paths that are not there: the union
  sees a removal only where something stands in the way (`Covers`);
* **`view_eq_iff`**: at a path, the union agrees with the last word unless the path is
  **resurrected** (`Resurrects`), removed by a layer that nothing covers and left by one below.
-/

namespace FileTree

open List Option

variable {ν α : Type} [DecidableEq ν]

/-- A change to a file tree. -/
inductive Action (ν α : Type) where
  | Write (path : List ν) (node : Node ν α)
  | Remove (path : List ν)
  | Clear (dir : List ν)
  deriving DecidableEq

namespace Action

/-- The root is neither written nor removed, and no marks or devices of unions are written. -/
def Plain : Action ν α → Prop
  | Write path node =>
    path ≠ [] ∧ (node.isDir = true → node = .dir false) ∧ node ≠ .device 0 0
  | Remove path => path ≠ []
  | Clear _ => True

/-- What a change says about a path: what is there afterwards, or nothing at all. -/
def touch : Action ν α → List ν → Option (Option (Node ν α))
  | Write path node, p =>
    if p = path then some (some node)
    else if p <+: path then some (some (.dir false))
    else if path <+: p ∧ node.isDir = false then some none
    else none
  | Remove path, p => if path <+: p then some none else none
  | Clear dir, p => if dir <+: p ∧ p ≠ dir then some none else none

end Action

open FileTree.Action

/-- A tree after a change. -/
def After (t : Tree ν α) (a : Action ν α) (t' : Tree ν α) : Prop :=
  ∀ p, t'.lookup p = (touch a p).getD (t.lookup p)

/-- **The last word** of a layer on a path. -/
def fate (layer : List (Action ν α)) (p : List ν) : Option (Option (Node ν α)) :=
  layer.foldl (fun word a => (touch a p).or word) none

/-- The last word of a stack of layers, the topmost one first. -/
def lastWord (stack : List (List (Action ν α))) (p : List ν) : Option (Option (Node ν α)) :=
  stack.foldr (fun layer word => (fate layer p).or word) none

/-- A layer leaves something in the way to a path that is no directory. -/
def Covers (layer : List (Action ν α)) (p : List ν) : Prop :=
  ∃ q node, q <+: p ∧ q ≠ p ∧ fate layer q = some (some node) ∧ node.isDir = false

/-- **A path comes back**: the last layer that mentions it removes it, with nothing in the way, and
    a layer further down leaves it there. -/
def Resurrects (stack : List (List (Action ν α))) (p : List ν) : Prop :=
  ∃ above layer mid lower below, stack = above ++ layer :: (mid ++ lower :: below) ∧
    (∀ a ∈ above, fate a p = none) ∧ fate layer p = some none ∧ ¬ Covers layer p ∧
    (∀ m ∈ mid, ¬ Covers m p) ∧ ∃ node, fate lower p = some (some node)

/-! ## One change -/

namespace Tree

/-- The directories above a path are made. -/
def makeParents (t : Tree ν α) (path : List ν) : Tree ν α :=
  (path.inits.filter fun q => decide (q ≠ [] ∧ q ≠ path)).foldl
    (fun t q => t.set q (.dir false)) t

/-- Write a node: a directory merges with the one that is there, everything else replaces it. -/
def write (t : Tree ν α) (path : List ν) (node : Node ν α) : Tree ν α :=
  let t := t.makeParents path
  if node.isDir then t.set path node else (t.removeTree path).set path node

variable {t t' : Tree ν α}

lemma lookup_foldl_set (paths : List (List ν)) (hpaths : ∀ q ∈ paths, q ≠ []) (p : List ν) :
    (paths.foldl (fun t q => t.set q (.dir false)) t).lookup p =
      if p ∈ paths then some (.dir false) else t.lookup p := by
  induction paths generalizing t with
  | nil => simp
  | cons q paths ih =>
    rw [foldl_cons, ih fun r hr => hpaths r (mem_cons_of_mem _ hr),
      lookup_set (hpaths q mem_cons_self)]
    by_cases hmem : p ∈ paths
    · simp [hmem]
    · by_cases heq : p = q
      · simp [heq]
      · simp [hmem, heq]

lemma lookup_makeParents (path p : List ν) :
    (t.makeParents path).lookup p =
      if p <+: path ∧ p ≠ path then some (.dir false) else t.lookup p := by
  rw [makeParents, lookup_foldl_set _ fun q hq => by simp at hq; exact hq.2.1]
  by_cases hp : p = []
  · subst hp
    simp
  · simp [hp]

/-- **Writing** is what a change says it is. -/
lemma after_write {path : List ν} {node : Node ν α} (hpath : path ≠ []) :
    After t (.Write path node) (t.write path node) := by
  intro p
  unfold write touch
  by_cases heq : p = path
  · subst heq
    cases hdir : node.isDir <;> simp [lookup_set hpath]
  · cases hdir : node.isDir with
    | true =>
      simp only [if_true, lookup_set hpath, if_neg heq, lookup_makeParents]
      by_cases hpre : p <+: path <;> simp [hpre, heq, hdir]
    | false =>
      simp only [Bool.false_eq_true, if_false, lookup_set hpath, if_neg heq,
        lookup_removeTree hpath, lookup_makeParents]
      by_cases hpre : p <+: path
      · have hnot : ¬ path <+: p := fun h => heq (hpre.eq_of_length_le h.length_le)
        simp [hpre, heq, hnot]
      · by_cases hbelow : path <+: p <;> simp [hpre, hbelow, hdir]

/-- A change leaves the tree prefix-closed. -/
lemma Shaped.after {a : Action ν α} (ha : a.Plain) (ht : t.Shaped) (h : After t a t') :
    t'.Shaped := by
  intro p n hsome
  rw [h] at hsome
  rw [h p]
  -- what the change leaves alone above what it leaves alone was a directory
  have hdir (hchild : touch a (p ++ [n]) = none) (hself : touch a p = none) :
      ∃ masks, (touch a p).getD (t.lookup p) = some (.dir masks) := by
    rw [hchild, getD_none] at hsome
    rw [hself, getD_none]
    exact ht p n hsome
  have hup : p <+: p ++ [n] := prefix_append p [n]
  cases a with
  | Remove path =>
    by_cases hpre : path <+: p ++ [n]
    · simp [touch, hpre] at hsome
    · exact hdir (if_neg hpre) (if_neg fun h => hpre (h.trans hup))
  | Clear dir =>
    by_cases hpre : dir <+: p ++ [n] ∧ p ++ [n] ≠ dir
    · simp [touch, hpre] at hsome
    · refine hdir (if_neg hpre) (if_neg fun h => hpre ⟨h.1.trans hup, fun heq => h.2 ?_⟩)
      exact ((heq ▸ hup : p <+: dir).eq_of_length_le h.1.length_le)
  | Write path node =>
    obtain ⟨-, hplain, -⟩ := ha
    by_cases hself : p = path
    · subst hself
      cases hnode : node.isDir with
      | true =>
        rw [hplain hnode]
        exact ⟨false, by simp [touch]⟩
      | false =>
        have hnot : ¬ p ++ [n] <+: p := fun hpre => by simpa using hpre.length_le
        simp [touch, hnode, hnot] at hsome
    · by_cases hpre : p <+: path
      · exact ⟨false, by simp [touch, hself, hpre]⟩
      · have hchild : p ++ [n] ≠ path := fun heq => hpre (heq ▸ hup)
        have hchildpre : ¬ p ++ [n] <+: path := fun h => hpre (hup.trans h)
        by_cases hbelow : path <+: p ++ [n] ∧ node.isDir = false
        · simp [touch, hchild, hchildpre, hbelow] at hsome
        · refine hdir (by simp only [touch, if_neg hchild, if_neg hchildpre, if_neg hbelow]) ?_
          have hnot : ¬ (path <+: p ∧ node.isDir = false) := fun h =>
            hbelow ⟨h.1.trans hup, h.2⟩
          simp only [touch, if_neg hself, if_neg hpre, if_neg hnot]

end Tree

/-! ## Layers -/

section

variable {layer layer' : List (Action ν α)} {a : Action ν α} {p q : List ν}

lemma foldl_touch (layer : List (Action ν α)) (word : Option (Option (Node ν α))) (p : List ν) :
    layer.foldl (fun word a => (touch a p).or word) word = (fate layer p).or word := by
  induction layer using List.reverseRecOn with
  | nil => simp [fate]
  | append_singleton layer a ih =>
    rw [fate, foldl_append, foldl_append, ih]
    simp [fate, Option.or_assoc]

lemma fate_append : fate (layer ++ layer') p = (fate layer' p).or (fate layer p) := by
  rw [fate, foldl_append, foldl_touch]
  rfl

lemma fate_cons : fate (a :: layer) p = (fate layer p).or (touch a p) := by
  rw [fate, foldl_cons, foldl_touch, or_none]

lemma fate_concat : fate (layer ++ [a]) p = (touch a p).or (fate layer p) := by
  rw [fate_append, fate_cons]
  simp [fate]

lemma fate_flatten (layers : List (List (Action ν α))) (p : List ν) :
    fate layers.flatten p = lastWord layers.reverse p := by
  induction layers using List.reverseRecOn with
  | nil => rfl
  | append_singleton layers layer ih =>
    rw [flatten_append, fate_append, ih, reverse_append]
    simp [lastWord]

/-- The root is never removed. -/
lemma fate_root (hplain : ∀ a ∈ layer, a.Plain) : fate layer [] ≠ some none := by
  induction layer using List.reverseRecOn with
  | nil => simp [fate]
  | append_singleton layer a ih =>
    have hlayer := ih fun b hb => hplain b (mem_append_left _ hb)
    have ha := hplain a (by simp)
    rw [fate_concat]
    cases a with
    | Write path node => simp [touch, Ne.symm ha.1]
    | Remove path => simpa [touch, prefix_nil, show path ≠ [] from ha] using hlayer
    | Clear dir =>
      have hnot : ¬ (dir <+: [] ∧ [] ≠ dir) := fun h => h.2 (prefix_nil.mp h.1).symm
      rw [touch, if_neg hnot]
      simpa using hlayer

/-- **What is covered has been removed**, by the layer that covers it. -/
lemma fate_of_covers (h : Covers layer p) : fate layer p = some none := by
  obtain ⟨q, node, hpre, hne, hq, hnode⟩ := h
  induction layer using List.reverseRecOn with
  | nil => cases hq
  | append_singleton layer a ih =>
    rw [fate_concat] at hq ⊢
    cases a with
    | Remove path =>
      by_cases hpath : path <+: q
      · simp [touch, hpath] at hq
      · rw [touch, if_neg hpath, none_or] at hq
        rw [ih hq, touch]
        split_ifs <;> rfl
    | Clear dir =>
      by_cases hdir : dir <+: q ∧ q ≠ dir
      · simp [touch, hdir] at hq
      · rw [touch, if_neg hdir, none_or] at hq
        rw [ih hq, touch]
        split_ifs <;> rfl
    | Write path n =>
      have hstrict : ¬ p <+: q := fun h => hne (hpre.eq_of_length_le h.length_le)
      by_cases heq : q = path
      · -- the node in the way is written last
        subst heq
        have hn : n = node := by simpa [touch] using hq
        subst hn
        simp [touch, Ne.symm hne, hstrict, hpre, hnode]
      · by_cases hq' : q <+: path
        · rw [touch, if_neg heq, if_pos hq', some_or] at hq
          cases hq
          cases hnode
        · have hp : ¬ p <+: path := fun h => hq' (hpre.trans h)
          have hpath : p ≠ path := fun h => hp (h ▸ prefix_refl _)
          by_cases hbelow : path <+: q ∧ n.isDir = false
          · simp [touch, heq, hq', hbelow] at hq
          · rw [touch, if_neg heq, if_neg hq', if_neg hbelow, none_or] at hq
            rw [ih hq, touch, if_neg hpath, if_neg hp]
            split_ifs <;> rfl

/-- A node that a layer leaves was written by it, or is a directory. -/
lemma fate_node (hplain : ∀ a ∈ layer, a.Plain) {node : Node ν α}
    (h : fate layer p = some (some node)) :
    (node.isDir = true → node = .dir false) ∧ node ≠ .device 0 0 := by
  induction layer using List.reverseRecOn with
  | nil => cases h
  | append_singleton layer a ih =>
    have hlayer := ih fun b hb => hplain b (mem_append_left _ hb)
    have ha := hplain a (by simp)
    rw [fate_concat] at h
    cases htouch : touch a p with
    | none =>
      rw [htouch, none_or] at h
      exact hlayer h
    | some word =>
      rw [htouch, some_or] at h
      cases h
      cases a with
      | Write path n =>
        rw [touch] at htouch
        split_ifs at htouch <;> cases htouch
        · exact ha.2
        · exact ⟨fun _ => rfl, by simp⟩
      | Remove path =>
        rw [touch] at htouch
        split_ifs at htouch
        cases htouch
      | Clear dir =>
        rw [touch] at htouch
        split_ifs at htouch
        cases htouch

end

/-! ## Stacks -/

section

variable {stack : List (List (Action ν α))} {trees : List (Tree ν α)} {p : List ν}

/-- A tree holds what a layer leaves, and nothing else. -/
def Holds (t : Tree ν α) (layer : List (Action ν α)) : Prop :=
  ∀ p, t.lookup p = (fate layer p).getD (Tree.empty.lookup p)

lemma Holds.hides_iff {t : Tree ν α} {layer : List (Action ν α)} (h : Holds t layer)
    (hplain : ∀ a ∈ layer, a.Plain) : t.hides p = true ↔ Covers layer p := by
  rw [Tree.hides_iff]
  constructor
  · rintro ⟨q, node, hpre, hne, hq, hnode⟩
    refine ⟨q, node, hpre, hne, ?_⟩
    rw [h q] at hq
    cases hfate : fate layer q with
    | none =>
      -- only the root is there without a word about it
      rw [hfate, getD_none] at hq
      by_cases hroot : q = []
      · rw [hroot, Tree.lookup_nil] at hq
        exact absurd (Option.some.inj hq).symm hnode
      · rw [Tree.lookup_empty hroot] at hq
        cases hq
    | some word =>
      rw [hfate, getD_some] at hq
      subst hq
      refine ⟨rfl, ?_⟩
      cases hdir : node.isDir with
      | false => rfl
      | true => exact absurd ((fate_node hplain hfate).1 hdir) hnode
  · rintro ⟨q, node, hpre, hne, hq, hnode⟩
    refine ⟨q, node, hpre, hne, by rw [h q, hq, getD_some], ?_⟩
    rintro rfl
    cases hnode

/-- What the union shows at a path, one layer after the other. -/
lemma view_cons (trees : List (Tree ν α)) {t : Tree ν α} {layer : List (Action ν α)}
    (h : Holds t layer) (hplain : ∀ a ∈ layer, a.Plain) (hp : p ≠ []) :
    (∀ node, fate layer p = some (some node) → view (t :: trees) p = some node) ∧
    (Covers layer p → view (t :: trees) p = none) ∧
    (¬ Covers layer p → (∀ node, fate layer p ≠ some (some node)) →
      view (t :: trees) p = view trees p) := by
  have hlookup := h p
  rw [Tree.lookup_empty hp] at hlookup
  refine ⟨fun node hfate => ?_, fun hcovers => ?_, fun hcovers hnode => ?_⟩
  · rw [hfate, getD_some] at hlookup
    rw [view, hlookup]
    cases node with
    | device major minor =>
      have hne := (fate_node hplain hfate).2
      cases major <;> cases minor <;> first | rfl | exact absurd rfl hne
    | dir masks => rfl
    | file content => rfl
    | symlink target => rfl
  · rw [fate_of_covers hcovers, getD_some] at hlookup
    rw [view, hlookup]
    simp only
    rw [if_pos ((h.hides_iff hplain).mpr hcovers)]
  · have hnone : t.lookup p = none := by
      rw [hlookup]
      cases hfate : fate layer p with
      | none => rfl
      | some word =>
        cases word with
        | none => rfl
        | some node => exact absurd hfate (hnode node)
    rw [view, hnone]
    simp only
    rw [if_neg fun hhides => hcovers ((h.hides_iff hplain).mp hhides)]

/-- The union shows a path if a layer leaves it and no layer above covers it. -/
lemma view_ne_none_iff (hholds : List.Forall₂ Holds trees stack)
    (hplain : ∀ layer ∈ stack, ∀ a ∈ layer, a.Plain) (hp : p ≠ []) :
    view trees p ≠ none ↔ ∃ mid lower below, stack = mid ++ lower :: below ∧
      (∀ m ∈ mid, ¬ Covers m p) ∧ ∃ node, fate lower p = some (some node) := by
  induction hholds with
  | nil => simp [view, hp]
  | @cons t layer trees stack h hrest ih =>
    obtain ⟨hleft, hcovered, hthrough⟩ := view_cons (p := p) trees h (hplain layer mem_cons_self) hp
    have hrest' := ih fun l hl => hplain l (mem_cons_of_mem _ hl)
    by_cases hnode : ∃ node, fate layer p = some (some node)
    · obtain ⟨node, hnode⟩ := hnode
      rw [hleft node hnode]
      exact ⟨fun _ => ⟨[], layer, stack, rfl, by simp, node, hnode⟩, fun _ => by simp⟩
    · -- the layer is not the one that leaves the path
      have hcons : (∃ mid lower below, layer :: stack = mid ++ lower :: below ∧
          (∀ m ∈ mid, ¬ Covers m p) ∧ ∃ node, fate lower p = some (some node)) ↔
          ¬ Covers layer p ∧ ∃ mid lower below, stack = mid ++ lower :: below ∧
            (∀ m ∈ mid, ¬ Covers m p) ∧ ∃ node, fate lower p = some (some node) := by
        constructor
        · rintro ⟨mid, lower, below, heq, hmid, hlower⟩
          cases mid with
          | nil =>
            cases heq
            exact absurd hlower hnode
          | cons m mid =>
            cases heq
            exact ⟨hmid _ mem_cons_self, mid, lower, below, rfl,
              fun m hm => hmid m (mem_cons_of_mem _ hm), hlower⟩
        · rintro ⟨hlayer, mid, lower, below, rfl, hmid, hlower⟩
          exact ⟨layer :: mid, lower, below, rfl, by simpa using ⟨hlayer, hmid⟩, hlower⟩
      rw [hcons]
      by_cases hcovers : Covers layer p
      · rw [hcovered hcovers]
        simp [hcovers]
      · rw [hthrough hcovers fun node hfate => hnode ⟨node, hfate⟩, hrest']
        simp [hcovers]

/-- **The union agrees with the last word** exactly where nothing is resurrected. -/
theorem view_eq_iff (hholds : List.Forall₂ Holds trees stack)
    (hplain : ∀ layer ∈ stack, ∀ a ∈ layer, a.Plain) (hp : p ≠ []) :
    view trees p = (lastWord stack p).getD none ↔ ¬ Resurrects stack p := by
  induction hholds with
  | nil =>
    simp only [view, if_neg hp, lastWord, foldr_nil, getD_none, true_iff]
    rintro ⟨above, layer, mid, lower, below, heq, -⟩
    simp at heq
  | @cons t layer trees stack h hrest ih =>
    have hplain' : ∀ l ∈ stack, ∀ a ∈ l, a.Plain := fun l hl =>
      hplain l (mem_cons_of_mem _ hl)
    obtain ⟨hleft, hcovered, hthrough⟩ := view_cons (p := p) trees h (hplain layer mem_cons_self) hp
    have hword : lastWord (layer :: stack) p = (fate layer p).or (lastWord stack p) := rfl
    -- a path that comes back either was removed by this layer or not mentioned by it
    have hhead : Resurrects (layer :: stack) p ↔
        (fate layer p = some none ∧ ¬ Covers layer p ∧ view trees p ≠ none) ∨
        (fate layer p = none ∧ Resurrects stack p) := by
      rw [view_ne_none_iff hrest hplain' hp]
      constructor
      · rintro ⟨above, l, mid, lower, below, heq, habove, hl, hcov, hmid, hlower⟩
        cases above with
        | nil =>
          cases heq
          exact .inl ⟨hl, hcov, mid, lower, below, rfl, hmid, hlower⟩
        | cons a above =>
          cases heq
          exact .inr ⟨habove _ mem_cons_self, above, l, mid, lower, below, rfl,
            fun a ha => habove a (mem_cons_of_mem _ ha), hl, hcov, hmid, hlower⟩
      · rintro (⟨hl, hcov, mid, lower, below, rfl, hmid, hlower⟩ |
          ⟨hl, above, l, mid, lower, below, rfl, habove, hrest⟩)
        · exact ⟨[], layer, mid, lower, below, rfl, by simp, hl, hcov, hmid, hlower⟩
        · exact ⟨layer :: above, l, mid, lower, below, rfl, by simpa using ⟨hl, habove⟩, hrest⟩
    rw [hhead, hword]
    cases hfate : fate layer p with
    | none =>
      have hcov : ¬ Covers layer p := fun hcov => by
        rw [fate_of_covers hcov] at hfate
        cases hfate
      rw [hthrough hcov (by simp [hfate]), none_or, ih hplain']
      simp
    | some word =>
      cases word with
      | some node =>
        rw [hleft node hfate]
        simp
      | none =>
        by_cases hcov : Covers layer p
        · rw [hcovered hcov]
          simp [hcov]
        · rw [hthrough hcov (by simp [hfate])]
          simp [hcov]

/-- Nothing resurrects the root. -/
lemma not_resurrects_root (hplain : ∀ layer ∈ stack, ∀ a ∈ layer, a.Plain) :
    ¬ Resurrects stack [] := by
  rintro ⟨above, layer, mid, lower, below, rfl, -, hlayer, -⟩
  exact fate_root (hplain layer (by simp)) hlayer

end

end FileTree
