import Rauha.Evidence.Opening

/-!
# What the medium holds

The invariant behind crash safety, on the disk alone.  A directory state `f` **holds** a committed
sequence `es` (`Holds`) if its head, manifest and log files durably contain what `es` requires;
it is **sound** (`Sound`) if what it holds is allowed, where holding no head at all is one of the
things that may be allowed (`none`); and a disk is **safe** (`Safe`) if every directory state a
power cut can bring back is sound.

Each system call that the journal makes keeps a disk safe, under the condition it is made in:
these are the lemmas `Safe.create`, `Safe.write`, `Safe.sync`, `Safe.rename` and `Safe.syncDir`,
with `Safe.powerCut` for the crash itself.  The set `S` names the inodes that are still being
written: no head or manifest in use is among them.
-/

namespace Rauha

open Storage CrashLogic

namespace Evidence

variable {τ : Type} {C : Codec τ}

variable (C) in
/-- A manifest and a list of entries that a journal can consist of. -/
structure Admissible (m : Value) (es : List (Entry τ)) : Prop where
  object : m.isObject = true
  manifest : record C m = .ok (lineOf C m)
  linked : Linked C 0 (digest C m) es
  size : (logOf C es).length < 2 ^ 64

variable (C) in
/-- And the head that commits them has a record. -/
structure Committed (m : Value) (es : List (Entry τ)) : Prop extends Admissible C m es where
  head : record C (headOf C m es) = .ok (lineOf C (headOf C m es))

namespace Admissible

variable {m : Value} {es : List (Entry τ)}

lemma length_lt (h : Admissible C m es) : es.length < 2 ^ 64 := by
  have hlt := h.linked.length_lt (by omega)
  omega

lemma toNat_sequence (h : Admissible C m es) : (headOf C m es).sequence.toNat = es.length :=
  UInt64.toNat_ofNat_of_lt' h.length_lt

lemma toNat_journalBytes (h : Admissible C m es) :
    (headOf C m es).journalBytes.toNat = (logOf C es).length :=
  UInt64.toNat_ofNat_of_lt' h.size

lemma verified (h : Admissible C m es) {data : Bytes} (hlog : logOf C es <+: data) :
    Verified C (headOf C m es) data es :=
  ⟨h.linked, h.toNat_sequence, rfl, h.toNat_journalBytes, hlog⟩

end Admissible

variable (C) in
/-- The directory state `f` durably holds the sequence `es` under the manifest `m`, with its log
    in the inode `log`. -/
structure Holds (d : Disk FileName) (m : Value) (log : ℕ) (S : Set ℕ) (f : FileName → Option ℕ)
    (es : List (Entry τ)) : Prop where
  committed : Committed C m es
  head : ∃ i, f .Head = some i ∧ i ∉ S ∧ d.Settled i (lineOf C (headOf C m es))
  manifest : ∃ i, f .ManifestJson = some i ∧ i ∉ S ∧ d.Settled i (lineOf C m)
  logName : f .JournalJsonl = some log
  keeps : d.Keeps log (logOf C es)

variable (C) in
/-- What has been published in `f`, or that nothing has been, is allowed. -/
def Sound (d : Disk FileName) (m : Value) (log : ℕ) (S : Set ℕ)
    (A : Option (List (Entry τ)) → Prop) (f : FileName → Option ℕ) : Prop :=
  (A none ∧ f .Head = none) ∨ ∃ es, A (some es) ∧ Holds C d m log S f es

variable (C) in
/-- **Safety of a disk**: every directory state that a power cut can bring back is sound. -/
def Safe (d : Disk FileName) (m : Value) (log : ℕ) (S : Set ℕ)
    (A : Option (List (Entry τ)) → Prop) : Prop :=
  ∀ f ∈ d.dirs, Sound C d m log S A f

variable {d : Disk FileName} {m : Value} {log : ℕ} {S T : Set ℕ}
  {A B : Option (List (Entry τ)) → Prop} {f g : FileName → Option ℕ} {es : List (Entry τ)}

/-! ## One directory state, many disks -/

/-- A disk on which everything settled or kept on `d` outside `S` and `log` still is. -/
structure Preserves (d d' : Disk FileName) (log : ℕ) (S : Set ℕ) : Prop where
  settled : ∀ {i bytes}, i ∉ S → d.Settled i bytes → d'.Settled i bytes
  keeps : ∀ {bytes}, d.Keeps log bytes → d'.Keeps log bytes

lemma Holds.mono {d' : Disk FileName} (h : Holds C d m log S f es) (hd : Preserves d d' log S)
    (hhead : g .Head = f .Head) (hmanifest : g .ManifestJson = f .ManifestJson)
    (hlog : g .JournalJsonl = f .JournalJsonl) : Holds C d' m log S g es := by
  obtain ⟨hc, ⟨i, hi, hiS, hsi⟩, ⟨k, hk, hkS, hsk⟩, hl, hkeeps⟩ := h
  exact ⟨hc, ⟨i, hhead.trans hi, hiS, hd.settled hiS hsi⟩,
    ⟨k, hmanifest.trans hk, hkS, hd.settled hkS hsk⟩, hlog.trans hl, hd.keeps hkeeps⟩

lemma Sound.mono {d' : Disk FileName} (h : Sound C d m log S A f) (hd : Preserves d d' log S)
    (hhead : g .Head = f .Head) (hmanifest : g .ManifestJson = f .ManifestJson)
    (hlog : g .JournalJsonl = f .JournalJsonl) : Sound C d' m log S A g := by
  rcases h with ⟨hA, h⟩ | ⟨es, hA, h⟩
  · exact .inl ⟨hA, hhead.trans h⟩
  · exact .inr ⟨es, hA, h.mono hd hhead hmanifest hlog⟩

lemma Safe.mono {d' : Disk FileName} (h : Safe C d m log S A) (hd : Preserves d d' log S)
    (hdirs : ∀ f ∈ d'.dirs, f ∈ d.dirs) : Safe C d' m log S A :=
  fun f hf => (h f (hdirs f hf)).mono hd rfl rfl rfl

/-- What is allowed may grow, and fewer inodes may be in the writing. -/
lemma Safe.weaken (h : Safe C d m log S A) (hA : ∀ x, A x → B x) (hT : T ⊆ S) :
    Safe C d m log T B := by
  intro f hf
  rcases h f hf with ⟨hn, h⟩ | ⟨es, hes, hc, ⟨i, hi, hiS, hsi⟩, ⟨k, hk, hkS, hsk⟩, hl, hkeeps⟩
  · exact .inl ⟨hA none hn, h⟩
  · exact .inr ⟨es, hA _ hes, hc, ⟨i, hi, fun h => hiS (hT h), hsi⟩,
      ⟨k, hk, fun h => hkS (hT h), hsk⟩, hl, hkeeps⟩

/-! ## System calls keep a disk safe -/

lemma preserves_create (name : FileName) : Preserves d (d.create name) log S :=
  ⟨fun _ h => h.create, fun h => h.create⟩

lemma preserves_write {i : ℕ} (bytes : Bytes) (hi : i ∈ S) : Preserves d (d.write i bytes) log S :=
  ⟨fun hk h => h.write fun hki => hk (hki ▸ hi), fun h => h.write⟩

lemma preserves_sync (i : ℕ) : Preserves d (d.sync i) log S := ⟨fun _ h => h.sync, fun h => h.sync⟩

lemma preserves_rename (a b : FileName) : Preserves d (d.rename a b) log S :=
  ⟨fun _ h => h.rename, fun h => h.rename⟩

lemma preserves_syncDir : Preserves d d.syncDir log S := ⟨fun _ h => h.syncDir, fun h => h.syncDir⟩

lemma preserves_powerCut (pick : ℕ) (tail : ℕ → Bytes) : Preserves d (d.powerCut pick tail) log S :=
  ⟨fun _ h => h.powerCut pick tail, fun h => h.powerCut pick tail⟩

variable (h : Safe C d m log S A)

include h

/-- A new file under a name that the journal's readers do not look at.  Its inode is new, so it
    may be counted among those being written. -/
lemma Safe.create {name : FileName} (h1 : name ≠ .Head)
    (h2 : name ≠ .ManifestJson) (h3 : name ≠ .JournalJsonl) :
    Safe C (d.create name) m log (insert d.fresh S) A := by
  have hsound : ∀ f ∈ d.dirs, Sound C (d.create name) m log (insert d.fresh S) A f := by
    intro f hf
    rcases h f hf with hnone | ⟨es, hA, hc, ⟨i, hi, hiS, hsi⟩, ⟨k, hk, hkS, hsk⟩, hl, hkeeps⟩
    · exact .inl hnone
    · have hne : ∀ {x}, x ∉ S → x < d.fresh → x ∉ insert d.fresh S := by
        rintro x hxS hx (rfl | hxS')
        · exact lt_irrefl _ hx
        · exact hxS hxS'
      exact .inr ⟨es, hA, hc, ⟨i, hi, hne hiS hsi.1, hsi.create⟩,
        ⟨k, hk, hne hkS hsk.1, hsk.create⟩, hl, hkeeps.create⟩
  intro f hf
  rw [Disk.dirs_create, List.mem_cons] at hf
  rcases hf with rfl | hf
  · -- the new state differs from the present one in `name` only
    refine (hsound d.dir d.dir_mem_dirs).mono ⟨fun _ h => h, fun h => h⟩ ?_ ?_ ?_
    · rw [Function.update_of_ne (.symm h1)]
    · rw [Function.update_of_ne (.symm h2)]
    · rw [Function.update_of_ne (.symm h3)]
  · exact hsound f hf

lemma Safe.write {i : ℕ} (bytes : Bytes) (hi : i ∈ S) : Safe C (d.write i bytes) m log S A :=
  h.mono (preserves_write bytes hi) fun _ hf => hf

lemma Safe.sync (i : ℕ) : Safe C (d.sync i) m log S A := h.mono (preserves_sync i) fun _ hf => hf

lemma Safe.syncDir : Safe C d.syncDir m log S A := by
  refine h.mono preserves_syncDir fun f hf => ?_
  rw [Disk.dirs_syncDir, List.mem_singleton] at hf
  rw [hf]
  exact d.dir_mem_dirs

lemma Safe.powerCut (pick : ℕ) (tail : ℕ → Bytes) : Safe C (d.powerCut pick tail) m log S A := by
  refine h.mono (preserves_powerCut pick tail) fun f hf => ?_
  obtain ⟨g, hg, hdirs⟩ := d.dirs_powerCut pick tail
  rw [hdirs, List.mem_singleton] at hf
  rw [hf]
  exact hg

lemma safe_withLock : Safe C (withLock d) m log S A := by
  unfold withLock
  split_ifs
  · exact h
  · exact (h.create (by decide) (by decide) (by decide)).weaken (fun _ h => h)
      (Set.subset_insert _ _)

/-- **Publishing**: renaming a settled head over the old one is safe if what it commits is
    allowed and the rest of it is in place. -/
lemma Safe.rename {i k : ℕ} (hnext : d.dir .HeadNext = some i) (hiS : i ∉ T)
    (hT : T ⊆ S) (hi : d.Settled i (lineOf C (headOf C m es)))
    (hmanifest : d.dir .ManifestJson = some k) (hkT : k ∉ T) (hk : d.Settled k (lineOf C m))
    (hlog : d.dir .JournalJsonl = some log) (hkeeps : d.Keeps log (logOf C es))
    (hc : Committed C m es) (hA : A (some es)) :
    Safe C (d.rename .HeadNext .Head) m log T A ∧
      Holds C (d.rename .HeadNext .Head) m log T (d.rename .HeadNext .Head).dir es := by
  have hnew : Holds C (d.rename .HeadNext .Head) m log T (d.rename .HeadNext .Head).dir es := by
    refine ⟨hc, ⟨i, ?_, hiS, hi.rename⟩, ⟨k, ?_, hkT, hk.rename⟩, ?_, hkeeps.rename⟩
    · simpa [Disk.rename] using hnext
    · simpa [Disk.rename] using hmanifest
    · simpa [Disk.rename] using hlog
  refine ⟨?_, hnew⟩
  intro f hf
  rw [Disk.dirs_rename, List.mem_cons] at hf
  rcases hf with rfl | hf
  · exact .inr ⟨es, hA, hnew⟩
  · exact (h.weaken (fun _ h => h) hT f hf).mono (preserves_rename _ _) rfl rfl rfl

end Evidence

end Rauha
