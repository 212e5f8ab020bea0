import Mathlib.Data.Set.Function
import Mathlib.Tactic

/-!
# Hash chains

Items that each carry the digest of the item before them.  If digests are injective on the items
that may occur, **the tip and the length determine the whole chain** (`eq_of_tip_eq`): compare the
last items, whose digests are the tips, then what stands before them.
-/

namespace HashChain

variable {α δ : Type} (digest prev : α → δ)

/-- Every item carries the digest of the one before it, the first one carries `root`. -/
def Chained : δ → List α → Prop
  | _, [] => True
  | root, a :: as => prev a = root ∧ Chained (digest a) as

/-- The digest a next item would have to carry. -/
def tip (root : δ) (as : List α) : δ := as.foldl (fun _ a => digest a) root

variable {digest prev}

lemma tip_append_singleton (root : δ) (as : List α) (a : α) :
    tip digest root (as ++ [a]) = digest a := by
  simp [tip]

lemma chained_append_singleton {root : δ} {as : List α} {a : α} :
    Chained digest prev root (as ++ [a]) ↔
      Chained digest prev root as ∧ prev a = tip digest root as := by
  induction as generalizing root with
  | nil => simp [Chained, tip]
  | cons b as ih =>
    have htip : tip digest root (b :: as) = tip digest (digest b) as := rfl
    simp only [List.cons_append, Chained, ih, htip]
    tauto

/-- The `prev` fields of a chain are the root and the digests of all items but the last. -/
lemma chained_iff_map_prev {root : δ} {as : List α} :
    Chained digest prev root as ↔ as.map prev = (root :: as.map digest).take as.length := by
  induction as generalizing root with
  | nil => simp [Chained]
  | cons a as ih => simp [Chained, ih]

/-- **The tip determines the chain**, among chains of one length. -/
theorem eq_of_tip_eq {S : Set α} (hinj : Set.InjOn digest S) {root : δ} {as bs : List α}
    (has : Chained digest prev root as) (hbs : Chained digest prev root bs)
    (haS : ∀ a ∈ as, a ∈ S) (hbS : ∀ b ∈ bs, b ∈ S) (hlen : as.length = bs.length)
    (htip : tip digest root as = tip digest root bs) : as = bs := by
  induction as using List.reverseRecOn generalizing bs with
  | nil => exact (List.length_eq_zero_iff.mp hlen.symm).symm
  | append_singleton as a ih =>
    -- the other chain has a last item too, and it has the same digest
    obtain ⟨bs, b, rfl⟩ : ∃ bs' b, bs = bs' ++ [b] := by
      refine List.eq_nil_or_concat' bs |>.resolve_left ?_
      rintro rfl
      simp at hlen
    rw [tip_append_singleton, tip_append_singleton] at htip
    have hab : a = b := hinj (haS a (by simp)) (hbS b (by simp)) htip
    subst hab
    obtain ⟨has, hprev⟩ := chained_append_singleton.mp has
    obtain ⟨hbs, hprev'⟩ := chained_append_singleton.mp hbs
    have hrest : as = bs := by
      refine ih has hbs (fun x hx => haS x ?_) (fun x hx => hbS x ?_) ?_ (hprev.symm.trans hprev')
      · exact List.mem_append_left _ hx
      · exact List.mem_append_left _ hx
      · simpa using hlen
    rw [hrest]

end HashChain
