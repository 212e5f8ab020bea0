import Rauha.Evidence.Opening
import Rauha.Evidence.TextCodec

/-!
# Tamper evidence

What the three files of a Run have to be for `open` and `replay` to succeed, and how much of them
one head fixes.

* `Accepts` is the condition, in terms of the bytes of the files and the entries they hold;
* `accepts_iff_opens` identifies it with what `open` checks;
* `Accepts.unique`: with a collision-free digest, the head file leaves room for one manifest and
  one committed prefix only.  The digest chain is compared from its tip
  (`HashChain.eq_of_tip_eq`); canonical records turn equal values into equal bytes.
-/

namespace Rauha

open Storage CrashLogic

namespace Evidence

variable {τ : Type} {C : Codec τ}

/-- A Run directory with given bytes in its files, and nobody holding the lock. -/
def runDirectory (mb lb hb : Bytes) : World τ where
  present := true
  linked := true
  disk := {
    body := fun i =>
      match i with
      | 0 => .whole mb
      | 1 => .whole lb
      | 2 => .whole hb
      | _ => .empty
    fresh := 4
    dir := fun name =>
      match name with
      | .ManifestJson => some 0
      | .JournalJsonl => some 1
      | .Head => some 2
      | .WriterLock => some 3
      | .HeadNext => none
    older := [] }
  journal := none
  delivered := []

variable (C) in
/-- **The files `mb`, `lb` and `hb` form a journal** with manifest `m`, head `h` and committed
    entries `es`. -/
structure Accepts (mb lb hb : Bytes) (m : Value) (h : JournalHead) (es : List (Entry τ)) :
    Prop where
  /-- Manifest and head are canonical records. -/
  manifest : record C m = .ok mb
  head : record C h = .ok hb
  /-- The manifest is an object, and the head has its digest. -/
  object : m.isObject = true
  manifest_digest : h.manifestSha256 = digest C m
  /-- The committed bytes exist and are the entries' canonical lines. -/
  committed : h.journalBytes.toNat ≤ lb.length
  lines : lb.take h.journalBytes.toNat = (es.map (lineOf C)).flatten
  entries : ∀ e ∈ es, validKind e.kind = true ∧ e.body.isObject = true ∧
    record C e = .ok (lineOf C e)
  /-- Sequence numbers count from one, and `prev` fields chain from the manifest's digest. -/
  seqs : es.map (fun e => e.seq.toNat) = List.range' 1 es.length
  prevs : es.map Entry.prev = (digest C m :: es.map (digest C)).take es.length
  /-- The head names the number of entries and the last digest. -/
  sequence : h.sequence.toNat = es.length
  root : (digest C m :: es.map (digest C)).getLast? = some h.journalRoot

lemma getLast?_cons_map_digest (root : String) (es : List (Entry τ)) :
    (root :: es.map (digest C)).getLast? = some (rootFrom C root es) := by
  induction es generalizing root with
  | nil => rfl
  | cons e es ih =>
    rw [List.map_cons, List.getLast?_cons_cons, ih]
    rfl

/-- The handle `open` makes of the files. -/
def handleOf (lb : Bytes) (m : Value) (h : JournalHead) : Journal :=
  ⟨1, m, h, lb.length - h.journalBytes.toNat, false⟩

/-- The acceptance condition is what `open` checks. -/
lemma accepts_iff_opens {mb lb hb : Bytes} {m : Value} {h : JournalHead} {es : List (Entry τ)} :
    Accepts C mb lb hb m h es ↔
      Opens C (runDirectory mb lb hb : World τ).disk (handleOf lb m h) es := by
  constructor
  · rintro ⟨hm, hh, hobj, hdig, hlen, hlines, hentries, hseqs, hprevs, hseq, hroot⟩
    have hlog : logOf C es = lb.take h.journalBytes.toNat := hlines.symm
    refine ⟨⟨0, rfl, hm⟩, hobj, ⟨2, rfl, hh⟩, hdig.symm, rfl, ⟨?_, hseq, ?_, ?_, ?_⟩, rfl, rfl⟩
    · show Linked C 0 h.manifestSha256 es
      rw [hdig]
      exact linked_iff.mpr ⟨hseqs, hprevs, hentries⟩
    · rw [getLast?_cons_map_digest, ← hdig] at hroot
      exact (Option.some.inj hroot).symm
    · rw [hlog, List.length_take]
      exact (min_eq_left hlen).symm
    · rw [hlog]
      exact List.take_prefix _ _
  · rintro ⟨⟨mi, hmi, hm⟩, hobj, ⟨hi, hhi, hh⟩, hdig, -, hv, -, -⟩
    cases hmi
    cases hhi
    have hlinked : Linked C 0 (digest C m) es := by
      have := hv.linked
      rwa [← hdig] at this
    obtain ⟨hseqs, hprevs, hentries⟩ := linked_iff.mp hlinked
    refine ⟨hm, hh, hobj, hdig.symm, ?_, hv.take_eq, hentries, hseqs, hprevs, hv.sequence, ?_⟩
    · have hle := hv.log.length_le
      rw [← hv.bytes] at hle
      exact hle
    · have hroot := hv.root
      rw [← hdig] at hroot
      rw [getLast?_cons_map_digest]
      exact congrArg some hroot.symm

/-- **One head, one manifest, one committed prefix.** -/
lemma Accepts.unique (hC : C.Lawful) (hH : C.CollisionFree) {mb lb mb' lb' hb : Bytes}
    {m m' : Value} {h h' : JournalHead} {es es' : List (Entry τ)}
    (ha : Accepts C mb lb hb m h es) (ha' : Accepts C mb' lb' hb m' h' es') :
    mb = mb' ∧ lb.take h.journalBytes.toNat = lb'.take h'.journalBytes.toNat := by
  have hhead : h = h' := record_inj hC Serde.lawful_head ha.head ha'.head
  subst hhead
  have hm : m = m' :=
    digest_inj hC Serde.lawful_value hH ha.manifest ha'.manifest
      (ha.manifest_digest.symm.trans ha'.manifest_digest)
  subst hm
  have hmb : mb = mb' := Except.ok.inj (ha.manifest.symm.trans ha'.manifest)
  -- the entries on both sides chain from the manifest's digest to the head's root
  have hinj : Set.InjOn (digest C) {e : Entry τ | record C e = .ok (lineOf C e)} := by
    intro e he f hf hef
    exact digest_inj hC (Serde.lawful_entry hC) hH he hf hef
  have hroot := ha.root.trans ha'.root.symm
  rw [getLast?_cons_map_digest, getLast?_cons_map_digest] at hroot
  have hes : es = es' := by
    refine HashChain.eq_of_tip_eq hinj (HashChain.chained_iff_map_prev.mpr ha.prevs)
      (HashChain.chained_iff_map_prev.mpr ha'.prevs) (fun e he => (ha.entries e he).2.2)
      (fun e he => (ha'.entries e he).2.2) ?_ (Option.some.inj hroot)
    rw [← ha.sequence, ← ha'.sequence]
  subst hes
  exact ⟨hmb, ha.lines.trans ha'.lines.symm⟩

/-! ## Opening and then replaying -/

variable (C) in
/-- Open the directory and replay the journal. -/
def openAndReplay : JournalM τ Unit := do
  Journal.«open» C
  let w ← .getState
  match w.journal with
  | some j => j.replay C
  | none => pure ()

section Files

variable {mb lb hb : Bytes} {m : Value} {h : JournalHead} {es : List (Entry τ)}

/-- The machine when the journal in `mb`, `lb`, `hb` has been opened. -/
def opened (mb lb hb : Bytes) (m : Value) (h : JournalHead) : World τ :=
  { runDirectory mb lb hb with
    disk := (runDirectory mb lb hb : World τ).disk.syncDir, journal := some (handleOf lb m h) }

lemma open_accepts_triple (hC : C.Lawful) :
    Attempts (· = runDirectory mb lb hb) (Journal.«open» C)
      (fun _ w' => ∃ m h es, Accepts C mb lb hb m h es ∧ w' = opened mb lb hb m h)
      (fun w' => w'.delivered = []) := by
  have hquiet : ∀ w' : World τ, OnlyLocked (runDirectory mb lb hb) w' → w'.delivered = [] := by
    rintro w' (rfl | rfl | rfl) <;> rfl
  refine Triple.weaken (open_triple hC _) ?_ hquiet
  rintro _ w' ⟨-, -, j, es, hopens, rfl⟩
  have hlock : withLock (runDirectory mb lb hb : World τ).disk
      = (runDirectory mb lb hb : World τ).disk := rfl
  rw [hlock] at hopens ⊢
  obtain ⟨log, m, h, tail, failed⟩ := j
  have hlog : log = 1 := (Option.some.inj hopens.log).symm
  subst hlog
  have htail : tail = lb.length - h.journalBytes.toNat := hopens.tail
  have hfailed : failed = false := hopens.writable
  subst htail hfailed
  exact ⟨m, h, es, accepts_iff_opens.mpr hopens, rfl⟩

lemma open_accepts_runs (hC : C.Lawful) (ha : Accepts C mb lb hb m h es) :
    Runs (Journal.«open» C) (runDirectory mb lb hb) () (opened mb lb hb m h) :=
  open_runs hC rfl rfl (accepts_iff_opens.mp ha)

lemma Accepts.verified (ha : Accepts C mb lb hb m h es) : Verified C h lb es :=
  (accepts_iff_opens.mp ha).verified

lemma openAndReplay_runs (hC : C.Lawful) (ha : Accepts C mb lb hb m h es) :
    Runs (openAndReplay C) (runDirectory mb lb hb) ()
      { (opened mb lb hb m h : World τ) with delivered := es } := by
  have hreplay : Runs ((handleOf lb m h).replay C) (opened mb lb hb m h) ()
      { (opened mb lb hb m h : World τ) with delivered := [] ++ es } :=
    replay_runs (i := 1) hC rfl ha.verified
  exact .bind (open_accepts_runs hC ha) (.bind .getState hreplay)

variable (C mb lb hb) in
/-- What the visitor may have been shown when opening and replaying went wrong. -/
def ShownOnlyVerified (w' : World τ) : Prop :=
  w'.delivered = [] ∨ ∃ m h es, Accepts C mb lb hb m h es ∧ w'.delivered <+: es

lemma openAndReplay_triple (hC : C.Lawful) :
    Attempts (· = runDirectory mb lb hb) (openAndReplay C)
      (fun _ w' => ∃ m h es, Accepts C mb lb hb m h es ∧ w'.delivered = es)
      (ShownOnlyVerified C mb lb hb) := by
  refine Triple.bind_at (Triple.weaken (open_accepts_triple hC) ?_ fun _ h => Or.inl h)
  rintro _ _ ⟨m, h, es, ha, rfl⟩
  refine Triple.bind_at (Triple.getState ?_)
  rintro _ rfl
  have hes : ∀ {i es'}, (opened mb lb hb m h : World τ).disk.dir .JournalJsonl = some i →
      Verified C h ((opened mb lb hb m h : World τ).disk.body i).data es' → es' = es := by
    intro i es' hi hv
    cases hi
    exact Verified.unique hC hv ha.verified
  have hpartly : ∀ w', PartlyReplayed C (handleOf lb m h) (opened mb lb hb m h) w' →
      ShownOnlyVerified C mb lb hb w' := by
    rintro w' (rfl | ⟨i, es', fs, hi, hv, hfs, rfl⟩)
    · exact Or.inl rfl
    · rw [hes hi hv] at hfs
      exact Or.inr ⟨m, h, es, ha, hfs⟩
  refine Triple.weaken (replay_triple hC) ?_ hpartly
  rintro _ w' ⟨i, es', hi, hv, rfl⟩
  exact ⟨m, h, es, ha, hes hi hv⟩

end Files

/-- **Tamper evidence.**  For all bytes in the three files:

    * `open` succeeds if and only if they form a journal, and so does `open` followed by `replay`,
      which then delivers exactly the journal's entries;
    * under every plan, the visitor is shown nothing unless the files form a journal, and then
      entries of it only, each once and in order, and all of them when `replay` returns;
    * the same holds for `replay` on a handle whose files have been changed behind its back;
    * one head file admits one manifest and one committed prefix, if the digest is
      collision-free. -/
theorem journal_tamper_evident (hC : C.Lawful) :
    (∀ mb lb hb : Bytes,
      ((∃ w', Runs (Journal.«open» C) (runDirectory mb lb hb) () w') ↔
        ∃ m h es, Accepts C mb lb hb m h es) ∧
      ((∃ w', Runs (openAndReplay C) (runDirectory mb lb hb) () w') ↔
        ∃ m h es, Accepts C mb lb hb m h es) ∧
      (∀ w', Runs (openAndReplay C) (runDirectory mb lb hb) () w' →
        ∃ m h es, Accepts C mb lb hb m h es ∧ w'.delivered = es) ∧
      ∀ plan, let (outcome, _, w') := openAndReplay C plan (runDirectory mb lb hb)
        ShownOnlyVerified C mb lb hb w' ∧
          (outcome = .done () → ∃ m h es, Accepts C mb lb hb m h es ∧ w'.delivered = es)) ∧
    (∀ (j : Journal) (mb lb hb : Bytes),
      ((∃ w', Runs (j.replay C) (runDirectory mb lb hb) () w') ↔ ∃ es, Verified C j.head lb es) ∧
      ∀ plan, let (outcome, _, w') := j.replay C plan (runDirectory mb lb hb)
        (w'.delivered = [] ∨ ∃ es, Verified C j.head lb es ∧ w'.delivered <+: es) ∧
          (outcome = .done () → ∃ es, Verified C j.head lb es ∧ w'.delivered = es)) ∧
    (C.CollisionFree → ∀ mb lb mb' lb' hb m m' h h' es es', Accepts C mb lb hb m h es →
      Accepts C mb' lb' hb m' h' es' →
        mb = mb' ∧ lb.take h.journalBytes.toNat = lb'.take h'.journalBytes.toNat) := by
  refine ⟨?_, ?_, ?_⟩
  · intro mb lb hb
    refine ⟨⟨?_, ?_⟩, ⟨?_, ?_⟩, ?_, ?_⟩
    · rintro ⟨w', hrun⟩
      obtain ⟨m, h, es, ha, -⟩ := hrun.post (open_accepts_triple hC) rfl
      exact ⟨m, h, es, ha⟩
    · rintro ⟨m, h, es, ha⟩
      exact ⟨_, open_accepts_runs hC ha⟩
    · rintro ⟨w', hrun⟩
      obtain ⟨m, h, es, ha, -⟩ := hrun.post (openAndReplay_triple hC) rfl
      exact ⟨m, h, es, ha⟩
    · rintro ⟨m, h, es, ha⟩
      exact ⟨_, openAndReplay_runs hC ha⟩
    · intro w' hrun
      exact hrun.post (openAndReplay_triple hC) rfl
    · intro plan
      have ht := openAndReplay_triple hC plan (runDirectory mb lb hb) rfl
      rcases hrun : openAndReplay C plan (runDirectory mb lb hb) with ⟨o, plan', w'⟩
      rw [hrun] at ht
      cases o with
      | done _ =>
        obtain ⟨m, h, es, ha, hw⟩ := ht
        exact ⟨Or.inr ⟨m, h, es, ha, hw ▸ List.prefix_refl _⟩, fun _ => ⟨m, h, es, ha, hw⟩⟩
      | failed e => exact ⟨ht, fun h => by cases h⟩
      | stopped => exact ⟨ht, fun h => by cases h⟩
  · intro j mb lb hb
    refine ⟨⟨?_, ?_⟩, ?_⟩
    · rintro ⟨w', hrun⟩
      obtain ⟨i, es, hi, hv, -⟩ := hrun.post (replay_triple hC) rfl
      cases hi
      exact ⟨es, hv⟩
    · rintro ⟨es, hv⟩
      exact ⟨_, replay_runs (i := 1) hC rfl hv⟩
    · intro plan
      have htriple : Triple (· = runDirectory mb lb hb) (j.replay C) _ _ _ := replay_triple hC
      have ht := htriple plan _ rfl
      rcases hrun : j.replay C plan (runDirectory mb lb hb) with ⟨o, plan', w'⟩
      rw [hrun] at ht
      have hpartly : PartlyReplayed C j (runDirectory mb lb hb) w' →
          w'.delivered = [] ∨ ∃ es, Verified C j.head lb es ∧ w'.delivered <+: es := by
        rintro (rfl | ⟨i, es, fs, hi, hv, hfs, rfl⟩)
        · exact Or.inl rfl
        · cases hi
          exact Or.inr ⟨es, hv, hfs⟩
      cases o with
      | done _ =>
        obtain ⟨i, es, hi, hv, rfl⟩ := ht
        cases hi
        exact ⟨Or.inr ⟨es, hv, List.prefix_refl _⟩, fun _ => ⟨es, hv, rfl⟩⟩
      | failed e => exact ⟨hpartly ht, fun h => by cases h⟩
      | stopped => exact ⟨hpartly ht, fun h => by cases h⟩
  · intro hH mb lb mb' lb' hb m m' h h' es es' ha ha'
    exact Accepts.unique hC hH ha ha'

/-- The files of a journal with one entry. -/
theorem journal_tamper_evident_sample :
    sampleCodec.Lawful ∧ sampleCodec.CollisionFree ∧ ∃ m h es,
      Accepts sampleCodec (lineOf sampleCodec emptyObject) (logOf sampleCodec [sampleEntry])
        (lineOf sampleCodec (headOf sampleCodec emptyObject [sampleEntry])) m h es := by
  refine ⟨sampleCodec_lawful, recordedHash_injective, ?_⟩
  obtain ⟨-, hreplay, -, -⟩ := (journal_tamper_evident sampleCodec_lawful).1
    (lineOf sampleCodec emptyObject) (logOf sampleCodec [sampleEntry])
    (lineOf sampleCodec (headOf sampleCodec emptyObject [sampleEntry]))
  exact hreplay.mp ⟨_, Runs.of_done (by decide +kernel)⟩

end Evidence

end Rauha
