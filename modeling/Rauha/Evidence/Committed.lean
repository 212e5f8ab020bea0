import Rauha.Evidence.Journal
import Rauha.Library.HashChain

/-!
# Committed sequences, and what `scan` accepts

A committed journal is a manifest `m` and a list of entries `es`; everything in the files is a
function of the two: the log is `logOf es`, one line per entry, and the head is `headOf m es`.
`Linked` is the condition the entries have to meet: consecutive sequence numbers, each entry
carrying the digest of the one before it (the first one that of the manifest), a namespaced kind,
an object body and a record within the limit.

`scan_triple` and `scan_runs` say together that **`scan` succeeds exactly on such logs**: on any
other it fails, and under every plan a visitor sees a prefix of the entries at most.
-/

namespace Rauha

open Storage CrashLogic Triple List

namespace Evidence

variable {τ : Type} (C : Codec τ)

/-! ## Entries on a line each -/

/-- The line that `record` writes for a value. -/
def lineOf {α : Type} [Serde C α] (a : α) : Bytes := C.toVec (canonical C a) ++ [newline]

/-- The committed bytes of a list of entries. -/
def logOf (es : List (Entry τ)) : Bytes := (es.map (lineOf C)).flatten

/-- The chain's root after `es`, starting from `root`. -/
def rootFrom (root : String) (es : List (Entry τ)) : String := HashChain.tip (digest C) root es

/-- **The chain condition**, `n` entries and the digest `root` standing before the list. -/
def Linked : ℕ → String → List (Entry τ) → Prop
  | _, _, [] => True
  | n, root, e :: es =>
    e.seq.toNat = n + 1 ∧ e.prev = root ∧ validKind e.kind = true ∧ e.body.isObject = true ∧
      record C e = .ok (lineOf C e) ∧ Linked (n + 1) (digest C e) es

/-- The head that commits `es` under the manifest `m`. -/
def headOf (m : Value) (es : List (Entry τ)) : JournalHead where
  manifestSha256 := digest C m
  sequence := UInt64.ofNat es.length
  journalRoot := rootFrom C (digest C m) es
  journalBytes := UInt64.ofNat (logOf C es).length

variable {C}

variable {root : String} {es fs : List (Entry τ)} {n : ℕ}

lemma lineOf_of_record {α : Type} [Serde C α] (hC : C.Lawful) (hα : Serde.Lawful C α) {a : α}
    {bytes : Bytes} (h : record C a = .ok bytes) : bytes = lineOf C a :=
  ((record_ok_iff hC hα).mp h).1

@[simp] lemma logOf_nil : logOf C [] = [] := rfl

lemma logOf_cons (e : Entry τ) (es : List (Entry τ)) :
    logOf C (e :: es) = lineOf C e ++ logOf C es := rfl

lemma logOf_append (es fs : List (Entry τ)) : logOf C (es ++ fs) = logOf C es ++ logOf C fs := by
  simp [logOf]

@[simp] lemma rootFrom_cons (root : String) (e : Entry τ) (es : List (Entry τ)) :
    rootFrom C root (e :: es) = rootFrom C (digest C e) es := rfl

lemma rootFrom_append_singleton (root : String) (es : List (Entry τ)) (e : Entry τ) :
    rootFrom C root (es ++ [e]) = digest C e :=
  HashChain.tip_append_singleton root es e

lemma linked_append :
    Linked C n root (es ++ fs) ↔
      Linked C n root es ∧ Linked C (n + es.length) (rootFrom C root es) fs := by
  induction es generalizing n root with
  | nil => simp [Linked, rootFrom, HashChain.tip]
  | cons e es ih =>
    have hlen : n + 1 + es.length = n + (e :: es).length := by
      simp only [length_cons]
      omega
    simp only [cons_append, Linked, ih, rootFrom_cons, hlen]
    tauto

/-- Sequence numbers are machine words, so a chain is shorter than their range. -/
lemma Linked.length_lt (h : Linked C n root es) (hn : n < 2 ^ 64) : n + es.length < 2 ^ 64 := by
  induction es generalizing n root with
  | nil => simpa using hn
  | cons e es ih =>
    have hseq : e.seq.toNat = n + 1 := h.1
    have hlt : e.seq.toNat < 2 ^ 64 := e.seq.toNat_lt
    have := ih h.2.2.2.2.2 (by omega)
    rw [length_cons]
    omega

/-- The sequence numbers of a chain are consecutive. -/
lemma Linked.map_seq (h : Linked C n root es) :
    es.map (fun e => e.seq.toNat) = List.range' (n + 1) es.length := by
  induction es generalizing n root with
  | nil => rfl
  | cons e es ih =>
    rw [map_cons, length_cons, List.range'_succ, h.1, ih h.2.2.2.2.2]

lemma Linked.chained (h : Linked C n root es) :
    HashChain.Chained (digest C) Entry.prev root es := by
  induction es generalizing n root with
  | nil => trivial
  | cons e es ih => exact ⟨h.2.1, ih h.2.2.2.2.2⟩

/-- No two entries of a chain are equal. -/
lemma Linked.nodup (h : Linked C n root es) : es.Nodup := by
  have hmap : (es.map fun e => e.seq.toNat).Nodup := by
    rw [h.map_seq]
    exact nodup_range'
  exact .of_map _ hmap

lemma Linked.mem (h : Linked C n root es) {e : Entry τ} (he : e ∈ es) :
    validKind e.kind = true ∧ e.body.isObject = true ∧ record C e = .ok (lineOf C e) := by
  induction es generalizing n root with
  | nil => cases he
  | cons e' es ih =>
    rcases mem_cons.mp he with rfl | he
    · exact ⟨h.2.2.1, h.2.2.2.1, h.2.2.2.2.1⟩
    · exact ih h.2.2.2.2.2 he

/-- The chain condition, read field by field. -/
lemma linked_iff :
    Linked C n root es ↔
      es.map (fun e => e.seq.toNat) = List.range' (n + 1) es.length ∧
      es.map Entry.prev = (root :: es.map (digest C)).take es.length ∧
      ∀ e ∈ es, validKind e.kind = true ∧ e.body.isObject = true ∧
        record C e = .ok (lineOf C e) := by
  constructor
  · intro h
    exact ⟨h.map_seq, HashChain.chained_iff_map_prev.mp h.chained, fun e he => h.mem he⟩
  · rintro ⟨hseq, hprev, hall⟩
    induction es generalizing n root with
    | nil => trivial
    | cons e es ih =>
      rw [map_cons, length_cons, List.range'_succ, List.cons.injEq] at hseq
      rw [map_cons, length_cons, take_succ_cons, List.cons.injEq] at hprev
      obtain ⟨hkind, hbody, hrec⟩ := hall e (by simp)
      refine ⟨hseq.1, hprev.1, hkind, hbody, hrec, ih hseq.2 hprev.2 fun e' he' => ?_⟩
      exact hall e' (mem_cons_of_mem _ he')

lemma isLine_lineOf (hC : C.Lawful) (e : Entry τ) : Lines.IsLine newline (lineOf C e) :=
  ⟨_, rfl, hC.no_newline _⟩

/-- Cutting the log into lines gives the entries' lines back. -/
lemma splitLines_logOf (hC : C.Lawful) (es : List (Entry τ)) :
    Lines.splitLines newline (logOf C es) = es.map (lineOf C) := by
  refine Lines.splitLines_flatten fun line hline => ?_
  obtain ⟨e, -, rfl⟩ := mem_map.mp hline
  exact isLine_lineOf hC e

/-- Entries with records are determined by their lines. -/
lemma eq_of_map_lineOf_eq (hC : C.Lawful) (hes : ∀ e ∈ es, record C e = .ok (lineOf C e))
    (hfs : ∀ f ∈ fs, record C f = .ok (lineOf C f)) (h : es.map (lineOf C) = fs.map (lineOf C)) :
    es = fs := by
  induction es generalizing fs with
  | nil =>
    cases fs with
    | nil => rfl
    | cons f fs => simp at h
  | cons e es ih =>
    cases fs with
    | nil => simp at h
    | cons f fs =>
      rw [map_cons, map_cons, List.cons.injEq] at h
      have hef : e = f := by
        have he := hes e (by simp)
        have hf := hfs f (by simp)
        rw [← h.1] at hf
        exact record_inj hC (Serde.lawful_entry hC) he hf
      have hrest := ih (fun e' he' => hes e' (mem_cons_of_mem _ he'))
        (fun f' hf' => hfs f' (mem_cons_of_mem _ hf')) h.2
      rw [hef, hrest]

/-- **A log is the log of one chain only.** -/
lemma eq_of_logOf_eq (hC : C.Lawful) {n k : ℕ} {root root' : String} (hes : Linked C n root es)
    (hfs : Linked C k root' fs) (h : logOf C es = logOf C fs) : es = fs := by
  have hlines : es.map (lineOf C) = fs.map (lineOf C) := by
    rw [← splitLines_logOf hC es, ← splitLines_logOf hC fs, h]
  exact eq_of_map_lineOf_eq hC (fun e he => (hes.mem he).2.2) (fun f hf => (hfs.mem hf).2.2) hlines

/-! ## The scanning loop -/

/-- The machine after a visitor has been shown `es`. -/
def shown (visitor : Entry τ → World τ → World τ) (es : List (Entry τ)) (w : World τ) : World τ :=
  es.foldl (fun w e => visitor e w) w

@[simp] lemma shown_noop (es : List (Entry τ)) (w : World τ) : shown (fun _ w => w) es w = w := by
  induction es generalizing w with
  | nil => rfl
  | cons e es ih => exact ih w

lemma shown_deliver (es : List (Entry τ)) (w : World τ) :
    shown Journal.deliver es w = { w with delivered := w.delivered ++ es } := by
  induction es generalizing w with
  | nil => simp [shown]
  | cons e es ih =>
    have hstep : shown Journal.deliver (e :: es) w
        = shown Journal.deliver es (Journal.deliver e w) := rfl
    rw [hstep, ih]
    simp [Journal.deliver]

variable (C) in
/-- What a scan of `lines` that did not return has done: a visitor has seen the entries of some
    of the first lines. -/
def SeenSome (visitor : Entry τ → World τ → World τ) (lines : List Bytes) (w w' : World τ) : Prop :=
  ∃ es, es.map (lineOf C) <+: lines ∧ (∀ e ∈ es, record C e = .ok (lineOf C e)) ∧
    w' = shown visitor es w

lemma seenSome_nil (visitor : Entry τ → World τ → World τ) (lines : List Bytes) (w : World τ) :
    SeenSome C visitor lines w w :=
  ⟨[], List.nil_prefix, by simp, rfl⟩

lemma checkedAdd_one {a s : UInt64} : checkedAdd a 1 = some s ↔ s.toNat = a.toNat + 1 := by
  rw [checkedAdd_eq_some_iff]
  have hone : (1 : UInt64).toNat = 1 := rfl
  have hlt := s.toNat_lt
  constructor
  · rintro ⟨h, rfl⟩
    rw [UInt64.toNat_add, hone]
    exact Nat.mod_eq_of_lt (by omega)
  · intro h
    refine ⟨by omega, UInt64.toNat_inj.mp ?_⟩
    rw [UInt64.toNat_add, hone, h]
    exact Nat.mod_eq_of_lt (by omega)

lemma checkEntry_ok_iff {e : Entry τ} {seq : UInt64} :
    checkEntry e seq root = .ok () ↔
      e.seq = seq ∧ e.prev = root ∧ validKind e.kind = true ∧ e.body.isObject = true := by
  unfold checkEntry
  split_ifs with h1 h2
  · simp only [false_iff]
    rintro ⟨hseq, hprev, -⟩
    exact h1.elim (fun h => h hseq) (fun h => h hprev)
  · simp only [false_iff]
    rintro ⟨-, -, hkind, hbody⟩
    simp [hkind, hbody] at h2
  · have hkb : validKind e.kind = true ∧ e.body.isObject = true := by
      simpa using h2
    exact iff_of_true rfl ⟨by tauto, by tauto, hkb.1, hkb.2⟩

/-- On the lines of a chain the loop runs to the end. -/
lemma scanLines_runs (hC : C.Lawful) (visitor : Entry τ → World τ → World τ) {seq : UInt64} (k : ℕ)
    (w : World τ) (h : Linked C seq.toNat root es) :
    ∃ seq' : UInt64, seq'.toNat = seq.toNat + es.length ∧
      Runs (scanLines C visitor (es.map (lineOf C)) seq root k) w
        (seq', rootFrom C root es, k + (logOf C es).length) (shown visitor es w) := by
  induction es generalizing seq root k w with
  | nil => exact ⟨seq, rfl, Runs.bind (Runs.query rfl) Runs.pure⟩
  | cons e es ih =>
    obtain ⟨hseq, hprev, hkind, hbody, hrec, hrest⟩ := h
    rw [← hseq] at hrest
    obtain ⟨seq', hseq', hrun⟩ := ih (k + (lineOf C e).length) (visitor e w) hrest
    refine ⟨seq', by rw [hseq', hseq, length_cons]; omega, ?_⟩
    have hlen := (record_length hC (Serde.lawful_entry hC) hrec).2
    have hline : Runs (readLine (lineOf C e)) w (lineOf C e) w := Runs.query (if_neg (by omega))
    have hparse := (parseRecord_ok_iff hC (Serde.lawful_entry hC)).mpr hrec
    have hnext : okOr (checkedAdd seq 1) "sequence overflow" = .ok e.seq := by
      rw [checkedAdd_one.mpr hseq]
      rfl
    have hcheck : checkEntry e e.seq root = .ok () :=
      checkEntry_ok_iff.mpr ⟨rfl, hprev, hkind, hbody⟩
    have htotal : k + (logOf C (e :: es)).length
        = k + (lineOf C e).length + (logOf C es).length := by
      rw [logOf_cons, length_append]
      omega
    rw [htotal]
    exact Runs.bind hline <| Runs.bind (Runs.ofExcept hparse) <|
      Runs.bind (Runs.ofExcept hnext) <| Runs.bind (Runs.ofExcept hcheck) <|
      Runs.bind Runs.update hrun

/-- **And it returns on nothing else**, whatever the plan. -/
lemma scanLines_triple (hC : C.Lawful) (visitor : Entry τ → World τ → World τ)
    (lines : List Bytes) (seq : UInt64) (root : String) (k : ℕ) (w : World τ) :
    Attempts (· = w) (scanLines C visitor lines seq root k)
      (fun r w' => ∃ es, lines = es.map (lineOf C) ∧ Linked C seq.toNat root es ∧
        r.1.toNat = seq.toNat + es.length ∧ r.2.1 = rootFrom C root es ∧
        r.2.2 = k + (logOf C es).length ∧ w' = shown visitor es w)
      (SeenSome C visitor lines w) := by
  induction lines generalizing seq root k w with
  | nil =>
    have hnone := seenSome_nil (C := C) visitor [] w
    refine bind_at (query_at ?_ hnone)
    intro _ _
    exact pure_at ⟨[], rfl, trivial, rfl, rfl, rfl, rfl⟩
  | cons line lines ih =>
    have hnone := seenSome_nil (C := C) visitor (line :: lines) w
    refine bind_at (query_at ?_ hnone)
    intro bytes hbytes
    split_ifs at hbytes with hlen
    cases hbytes
    refine bind_at (ofExcept_at ?_ fun _ _ => hnone)
    intro e hparse
    have hrec := (parseRecord_ok_iff hC (Serde.lawful_entry hC)).mp hparse
    have hline : lineOf C e = line := ((record_ok_iff hC (Serde.lawful_entry hC)).mp hrec).1.symm
    refine bind_at (ofExcept_at ?_ fun _ _ => hnone)
    intro next hnext
    have hnext : next.toNat = seq.toNat + 1 := by
      refine checkedAdd_one.mp ?_
      cases hadd : checkedAdd seq 1 with
      | none => rw [hadd] at hnext; cases hnext
      | some s => rw [hadd] at hnext; cases hnext; rfl
    refine bind_at (ofExcept_at ?_ fun _ _ => hnone)
    intro _ hcheck
    obtain ⟨hseq, hprev, hkind, hbody⟩ := checkEntry_ok_iff.mp hcheck
    refine bind_at (update_at ?_)
    have hmore : ∀ w', SeenSome C visitor lines (visitor e w) w' →
        SeenSome C visitor (line :: lines) w w' := by
      rintro w' ⟨es, hpre, hes, hw⟩
      refine ⟨e :: es, ?_, ?_, hw⟩
      · rw [map_cons, hline]
        exact cons_prefix_cons.mpr ⟨rfl, hpre⟩
      · rintro e' (_ | ⟨_, he'⟩)
        · rw [hline]
          exact hrec
        · exact hes e' he'
    -- the rest of the lines, from the state in which the visitor has seen this entry
    refine Triple.weaken (ih next (digest C e) (k + line.length) (visitor e w)) ?_ hmore
    rintro r w' ⟨es, rfl, hlinked, hr1, hr2, hr3, hw⟩
    refine ⟨e :: es, by rw [map_cons, hline], ?_, ?_, hr2, ?_, hw⟩
    · rw [hnext] at hlinked
      exact ⟨by rw [hseq, hnext], hprev, hkind, hbody, by rw [hline]; exact hrec, hlinked⟩
    · rw [hr1, hnext, length_cons]
      omega
    · rw [hr3, logOf_cons, length_append, hline]
      omega

/-! ## Scanning a log under a head -/

variable (C) in
/-- **What a head vouches for**: `data` starts with the log of the chain `es`, and the head counts
    it, measures it and names its root. -/
structure Verified (h : JournalHead) (data : Bytes) (es : List (Entry τ)) : Prop where
  linked : Linked C 0 h.manifestSha256 es
  sequence : h.sequence.toNat = es.length
  root : h.journalRoot = rootFrom C h.manifestSha256 es
  bytes : h.journalBytes.toNat = (logOf C es).length
  log : logOf C es <+: data

namespace Verified

variable {h : JournalHead} {data : Bytes} {es fs : List (Entry τ)}

lemma take_eq (hv : Verified C h data es) : data.take h.journalBytes.toNat = logOf C es := by
  rw [hv.bytes]
  exact (prefix_iff_eq_take.mp hv.log).symm

/-- A head vouches for one chain at most. -/
lemma unique (hC : C.Lawful) (hv : Verified C h data es) (hv' : Verified C h data fs) : es = fs :=
  eq_of_logOf_eq hC hv.linked hv'.linked (hv.take_eq.symm.trans hv'.take_eq)

end Verified

section Scan

variable {self : Journal} {w : World τ} {i : ℕ} {es : List (Entry τ)}

lemma scan_runs (hC : C.Lawful) (visitor : Entry τ → World τ → World τ)
    (hdir : w.disk.dir .JournalJsonl = some i)
    (hv : Verified C self.head (w.disk.body i).data es) :
    Runs (scan C self visitor) w () (shown visitor es w) := by
  have hzero : Linked C (0 : UInt64).toNat self.head.manifestSha256 es := hv.linked
  obtain ⟨seq, hseq, hrun⟩ := scanLines_runs hC visitor 0 w hzero
  have hsequence : seq = self.head.sequence := by
    refine UInt64.toNat_inj.mp ?_
    rw [hseq, hv.sequence]
    exact Nat.zero_add _
  have hlines : Lines.splitLines newline ((w.disk.body i).data.take self.head.journalBytes.toNat)
      = es.map (lineOf C) := by
    rw [hv.take_eq, splitLines_logOf hC]
  rw [← hlines] at hrun
  refine Runs.bind (Runs.query (by rw [hdir])) ?_
  refine Runs.bind (Runs.query rfl) (Runs.bind hrun ?_)
  refine Runs.failIf ?_
  simp [hsequence, hv.root, hv.bytes]

variable (C self w) in
/-- What a scan that did not return has shown the visitor. -/
def PartlyScanned (visitor : Entry τ → World τ → World τ) (w' : World τ) : Prop :=
  w' = w ∨ ∃ i, w.disk.dir .JournalJsonl = some i ∧ SeenSome C visitor
    (Lines.splitLines newline ((w.disk.body i).data.take self.head.journalBytes.toNat)) w w'

/-- Which is nothing if the visitor does not look. -/
lemma PartlyScanned.noop {w' : World τ} (h : PartlyScanned C self w (fun _ w => w) w') :
    w' = w := by
  rcases h with rfl | ⟨_, _, _, _, _, rfl⟩
  · rfl
  · exact shown_noop _ _

lemma scan_triple (hC : C.Lawful) (visitor : Entry τ → World τ → World τ) :
    Attempts (· = w) (scan C self visitor)
      (fun _ w' => ∃ i es, w.disk.dir .JournalJsonl = some i ∧
        Verified C self.head (w.disk.body i).data es ∧ w' = shown visitor es w)
      (PartlyScanned C self w visitor) := by
  refine bind_at (query_at ?_ (Or.inl rfl))
  intro i hi
  have hdir : w.disk.dir .JournalJsonl = some i := by
    cases hd : w.disk.dir .JournalJsonl with
    | none => rw [hd] at hi; cases hi
    | some k => rw [hd] at hi; cases hi; rfl
  refine bind_at (query_at ?_ (Or.inl rfl))
  intro data hdata
  cases hdata
  refine bind_at (Triple.weaken (scanLines_triple hC visitor _ _ _ _ w) ?_
    fun _ h => Or.inr ⟨i, hdir, h⟩)
  rintro ⟨seq, root, consumed⟩ w' ⟨es, hlines, hlinked, hseq, hroot, hconsumed, rfl⟩
  have hlog : logOf C es = (w.disk.body i).data.take self.head.journalBytes.toNat := by
    rw [← Lines.flatten_splitLines newline (List.take _ _), hlines]
    rfl
  have hsome : PartlyScanned C self w visitor (shown visitor es w) :=
    Or.inr ⟨i, hdir, es, hlines ▸ prefix_refl _, fun e he => (hlinked.mem he).2.2, rfl⟩
  refine failIf_at (fun _ => hsome) fun hne => ?_
  simp only [not_or, not_not] at hne
  obtain ⟨hs, hr, hk⟩ := hne
  refine ⟨i, es, hdir, ⟨hlinked, ?_, ?_, ?_, ?_⟩, rfl⟩
  · rw [← hs, hseq]
    exact Nat.zero_add _
  · rw [← hr]
    exact hroot
  · rw [← hk]
    simpa using hconsumed
  · rw [hlog]
    exact List.take_prefix _ _

end Scan

end Evidence

end Rauha
