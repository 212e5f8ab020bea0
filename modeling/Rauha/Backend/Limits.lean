import Rauha.Backend.Host

/-!
# The limits of a zone

From the words of a policy to the files of a cgroup.  `memorySize` is the number a memory size
stands for and `weight` the weight of a number of shares, as natural numbers; the code computes both
in machine words.  `limits_exact_iff` says when they agree: as long as neither product leaves the
words, or what is left of the shares is clamped to the highest weight all the same.
-/

namespace Rauha.Backend

/-- The powers that the units of a memory size stand for. -/
def unitPowers : List (String × ℕ) :=
  [("Gi", 2 ^ 30), ("Mi", 2 ^ 20), ("Ki", 2 ^ 10), ("G", 10 ^ 9), ("M", 10 ^ 6)]

/-- The number before the unit, times the unit. -/
def memorySize (s : String) : Option ℕ :=
  let s := Text.trim s.toList
  let (digits, unit) := (unitPowers.findSome? fun u =>
    (Text.stripSuffix u.1.toList s).map (·, u.2)).getD (s, 1)
  (Text.parseUnsigned (2 ^ 64 - 1) digits).map (· * unit)

def weight (shares : ℕ) : ℕ := max 1 (min 10000 (shares * 100 / 1024))

/-- The files of a cgroup when `apply_resources` has gone through. -/
def applied (resources : ResourcePolicy) (l : Limits) : Limits :=
  (limitWrites resources).foldl (fun l write => write l) l

/-- **Exact limits**: `memory.max` is the size the text stands for, with `max` for 0 and for the
    largest word only; and `cpu.weight` is the weight of the shares. -/
structure Exact (r : PolicyFileResources) (resources : ResourcePolicy) (l : Limits) : Prop where
  memoryMax : ∀ s ∈ r.memoryLimit, ∃ n, memorySize s = some n ∧
    l.memoryMax.map UInt64.toNat = if n = 0 ∨ n = 2 ^ 64 - 1 then none else some n
  cpuWeight : 0 < resources.cpuShares.toNat → l.cpuWeight.toNat = weight resources.cpuShares.toNat

/-- The product of the shares is a word, or what is left of it is too large for the clamp. -/
def Weighable (shares : UInt64) : Prop :=
  shares.toNat * 100 < 2 ^ 64 ∨ 10240000 ≤ shares.toNat * 100 % 2 ^ 64

variable {shares v : UInt64} {s : String} {n : ℕ}

lemma toNat_clamp (q : UInt64) : (max 1 (min 10000 q)).toNat = max 1 (min 10000 q.toNat) := by
  show UInt64.toNat (if 1 ≤ (if 10000 ≤ q then 10000 else q) then
    (if 10000 ≤ q then 10000 else q) else 1) = _
  simp only [UInt64.le_iff_toNat_le]
  split_ifs <;> simp_all
  omega

lemma sharesToWeight_exact_iff (h : 0 < shares.toNat) :
    (sharesToWeight shares).toNat = weight shares.toNat ↔ Weighable shares := by
  have hne : shares ≠ 0 := fun hzero => absurd h (by rw [hzero]; decide)
  have hquot : (shares * 100 / 1024).toNat = shares.toNat * 100 % 2 ^ 64 / 1024 := by
    rw [UInt64.toNat_div, UInt64.toNat_mul]
    rfl
  rw [sharesToWeight, if_neg hne, toNat_clamp, hquot, weight, Weighable]
  by_cases hlt : shares.toNat * 100 < 2 ^ 64
  · rw [Nat.mod_eq_of_lt hlt]
    exact iff_of_true rfl (.inl hlt)
  · omega

/-- An accepted size is what its text stands for, up to whole words. -/
lemma parseMemorySize_ok (h : parseMemorySize s = .ok v) :
    ∃ n, memorySize s = some n ∧ v.toNat = n % 2 ^ 64 := by
  have hsize : ∀ {digits unit}, parseSize digits unit = .ok v → ∃ n,
      (Text.parseUnsigned (2 ^ 64 - 1) digits).map (· * unit.toNat) = some n ∧
        v.toNat = n % 2 ^ 64 := by
    intro digits unit hparse
    unfold parseSize at hparse
    split at hparse
    · rename_i n hn
      cases hparse
      exact ⟨_, by rw [hn]; rfl, by rw [UInt64.toNat_mul, UInt64.toNat_ofNat', Nat.mod_mul_mod]⟩
    · cases hparse
  -- the units of the code are these powers
  have hpowers : unitPowers = memoryUnits.map fun u => (u.1, u.2.toNat) := by decide
  unfold parseMemorySize at h
  unfold memorySize
  simp only [hpowers, List.findSome?_map, Function.comp_def] at h ⊢
  have hunits : ∀ text : List Char, (memoryUnits.findSome? fun u =>
      (Text.stripSuffix u.1.toList text).map (·, u.2.toNat)) = (memoryUnits.findSome? fun u =>
        (Text.stripSuffix u.1.toList text).map (·, u.2)).map fun p => (p.1, p.2.toNat) := by
    intro text
    rw [List.map_findSome?]
    simp [Function.comp_def]
  rw [hunits]
  split at h
  all_goals
    rename_i hunit
    rw [hunit]
    exact hsize h

/-- A word is written as the number it was made from exactly if that number is a word. -/
lemma limitOf_exact_iff (hv : v.toNat = n % 2 ^ 64) :
    (limitOf v).map UInt64.toNat = (if n = 0 ∨ n = 2 ^ 64 - 1 then none else some n) ↔
      n < 2 ^ 64 := by
  have hzero : v = 0 ↔ v.toNat = 0 := UInt64.toNat_inj.symm
  have htop : v = 0xffffffffffffffff ↔ v.toNat = 2 ^ 64 - 1 := UInt64.toNat_inj.symm
  simp only [limitOf, hzero, htop, hv]
  split_ifs <;> simp [hv] <;> omega

/-- **Resource limits.**  For every accepted section the limits that are written are exact if and
    only if the memory size is a word and the shares can be weighed; and of shares that can be
    weighed, more have no smaller weight. -/
theorem limits_exact_iff {r : PolicyFileResources} {resources : ResourcePolicy}
    (h : toResourcePolicy (some r) = .ok resources) (l : Limits) :
    (Exact r resources (applied resources l) ↔
      (∀ s ∈ r.memoryLimit, ∀ n, memorySize s = some n → n < 2 ^ 64) ∧
        Weighable resources.cpuShares) ∧
    ∀ shares shares' : UInt64, 0 < shares.toNat → Weighable shares → Weighable shares' →
      shares ≤ shares' → sharesToWeight shares ≤ sharesToWeight shares' := by
  refine ⟨?_, fun shares shares' hpos hs hs' hle => ?_⟩
  · have hweight : (0 < resources.cpuShares.toNat → (sharesToWeight resources.cpuShares).toNat =
        weight resources.cpuShares.toNat) ↔ Weighable resources.cpuShares := by
      by_cases hpos : 0 < resources.cpuShares.toNat
      · rw [← sharesToWeight_exact_iff hpos]
        exact forall_prop_of_true hpos
      · exact iff_of_true (fun h => absurd h hpos) (.inl (by omega))
    have hmemory : ∀ s ∈ r.memoryLimit, ∃ n, memorySize s = some n ∧
        resources.memoryLimit.toNat = n % 2 ^ 64 := by
      intro s hs
      simp only [toResourcePolicy, Option.mem_def.mp hs, parseMemoryLimit] at h
      cases hparse : parseMemorySize s with
      | error e => rw [hparse] at h; cases h
      | ok v => rw [hparse] at h; cases h; exact parseMemorySize_ok hparse
    refine ⟨fun hexact => ⟨fun s hs n hn => ?_, hweight.mp hexact.cpuWeight⟩,
      fun hfits => ⟨fun s hs => ?_, hweight.mpr hfits.2⟩⟩
    · obtain ⟨m, hm, hv⟩ := hmemory s hs
      obtain ⟨m', hm', hmax⟩ := hexact.memoryMax s hs
      cases hm.symm.trans hm'
      cases hm.symm.trans hn
      exact (limitOf_exact_iff hv).mp hmax
    · obtain ⟨m, hm, hv⟩ := hmemory s hs
      exact ⟨m, hm, (limitOf_exact_iff hv).mpr (hfits.1 s hs m hm)⟩
  · have hle := UInt64.le_iff_toNat_le.mp hle
    rw [UInt64.le_iff_toNat_le, (sharesToWeight_exact_iff hpos).mpr hs,
      (sharesToWeight_exact_iff (hpos.trans_le hle)).mpr hs', weight, weight]
    omega

/-- Two gibibytes and the default shares. -/
theorem limits_exact_two_gibibytes :
    Exact ⟨none, some "2Gi", none, none⟩ ⟨1024, 2147483648, 100, 256⟩
      (applied ⟨1024, 2147483648, 100, 256⟩ .initial) := by
  refine (limits_exact_iff (by decide +kernel) _).1.mpr ⟨?_, Or.inl (by decide)⟩
  rintro s ⟨⟩ n hn
  have hsize : memorySize "2Gi" = some 2147483648 := by decide +kernel
  cases hsize.symm.trans hn
  decide

/-- **Limits that wrap around**: 2³⁴ gibibytes are accepted and written as no limit at all, and the
    highest number of shares as the smallest weight. -/
theorem huge_limits_wrap :
    toResourcePolicy (some ⟨some 184467440737095517, some "17179869184Gi", none, none⟩) =
      .ok ⟨184467440737095517, 0, 100, 256⟩ ∧
    (applied ⟨184467440737095517, 0, 100, 256⟩ .initial).memoryMax = none ∧
    memorySize "17179869184Gi" = some (2 ^ 64) ∧
    sharesToWeight 184467440737095517 = 1 ∧ weight 184467440737095517 = 10000 := by
  decide +kernel

end Rauha.Backend
