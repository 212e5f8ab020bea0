import Rauha.Evidence.Committed

/-!
# Opening and replaying a journal

`Opens` lists what `Journal.open` checks, file by file.  `open_triple` and `open_runs` say that it
returns a handle exactly when all of it holds, and that an `open` that does not return has at most
created the lock file.  `replay_triple` says that a visitor is shown nothing unless the whole
committed prefix has passed, and then only entries of it, in order.
-/

namespace Rauha

open Storage CrashLogic Triple

namespace Evidence

variable {τ : Type} {C : Codec τ}

variable (C) in
/-- **The condition for opening** a directory `d` as the handle `j`, with `es` committed. -/
structure Opens (d : Disk FileName) (j : Journal) (es : List (Entry τ)) : Prop where
  manifest : ∃ i, d.dir .ManifestJson = some i ∧ record C j.manifest = .ok (d.body i).data
  object : j.manifest.isObject = true
  head : ∃ i, d.dir .Head = some i ∧ record C j.head = .ok (d.body i).data
  digest_eq : digest C j.manifest = j.head.manifestSha256
  log : d.dir .JournalJsonl = some j.log
  verified : Verified C j.head (d.body j.log).data es
  tail : j.tailBytes = (d.body j.log).data.length - j.head.journalBytes.toNat
  writable : j.writeFailed = false

variable {j : Journal} {es : List (Entry τ)}

/-- What an `open` that did not return has done at most. -/
def OnlyLocked (w w' : World τ) : Prop :=
  w' = w ∨ w' = { w with disk := withLock w.disk } ∨
    w' = { w with disk := (withLock w.disk).syncDir }

section Calls

variable {w : World τ} {K : World τ → Prop}

open Sys

variable {name : FileName}

lemma openFile_at {Q : ℕ → World τ → Prop} (hok : ∀ i, w.disk.dir name = some i → Q i w)
    (hK : K w) : Attempts (· = w) (openFile name) Q K := by
  refine query_at ?_ hK
  intro i hi
  cases hd : w.disk.dir name with
  | none => rw [hd] at hi; cases hi
  | some k => rw [hd] at hi; cases hi; exact hok _ hd

variable {i : ℕ}

lemma readToEnd_at {Q : Bytes → World τ → Prop} (hok : Q (w.disk.body i).data w) (hK : K w) :
    Attempts (· = w) (readToEnd i) Q K := by
  refine query_at ?_ hK
  intro bytes hbytes
  cases hbytes
  exact hok

lemma readRecordFile_at {α : Type} [Serde C α] (hC : C.Lawful) (hα : Serde.Lawful C α)
    {Q : α → World τ → Prop}
    (hok : ∀ a i, w.disk.dir name = some i → record C a = .ok (w.disk.body i).data → Q a w)
    (hK : K w) : Attempts (· = w) (readRecordFile C α name) Q K := by
  refine bind_at (openFile_at ?_ hK)
  intro i hi
  refine bind_at (readToEnd_at ?_ hK)
  refine ofExcept_at ?_ fun _ _ => hK
  intro a ha
  exact hok a i hi ((readRecord_ok_iff hC hα).mp ha)

lemma readRecordFile_runs {α : Type} [Serde C α] (hC : C.Lawful) (hα : Serde.Lawful C α) {a : α}
    (hi : w.disk.dir name = some i) (ha : record C a = .ok (w.disk.body i).data) :
    Runs (readRecordFile C α name) w a w := by
  refine .bind (.query (by rw [hi])) (.bind (.query rfl) ?_)
  exact .ofExcept ((readRecord_ok_iff hC hα).mpr ha)

variable {ok : World τ → Bool} {f : World τ → World τ} {Q : Unit → World τ → Prop}

lemma updateIf_at (hok : ok w = true → Q () (f w)) (hK : K w) (hK' : ok w = true → K (f w)) :
    Attempts (· = w) (updateIf ok f) Q K := by
  have hcases : ∀ (a : Unit) w', (if ok w then Except.ok ((), f w) else .error Error.Io)
      = .ok (a, w') → ok w = true ∧ w' = f w := by
    intro a w' h
    split_ifs at h with hw
    cases h
    exact ⟨hw, rfl⟩
  refine atomic_at ?_ hK ?_
  · intro a w' h
    obtain ⟨hw, rfl⟩ := hcases a w' h
    exact hok hw
  · intro a w' h
    obtain ⟨hw, rfl⟩ := hcases a w' h
    exact hK' hw

lemma updateIf_runs (h : ok w = true) : Runs (updateIf ok f) w () (f w) := .atomic (if_pos h)

lemma openDirectory_at (hok : w.present = true → Q () w) (hK : K w) :
    Attempts (· = w) openDirectory Q K := by
  refine query_at ?_ hK
  intro _ h
  split_ifs at h with hp
  exact hok hp

lemma lock_at (hok : w.journal = none → Q () { w with disk := withLock w.disk }) (hK : K w)
    (hK' : K { w with disk := withLock w.disk }) : Attempts (· = w) lock Q K := by
  refine bind_at (updateIf_at ?_ hK fun _ => hK')
  intro _
  refine query_at ?_ hK'
  intro _ h
  split_ifs at h with hj
  exact hok (Option.not_isSome_iff_eq_none.mp hj)

lemma lock_runs (h : w.journal = none) : Runs lock w () { w with disk := withLock w.disk } := by
  refine .bind (updateIf_runs rfl) (.query ?_)
  rw [if_neg]
  simp [h]

end Calls

/-! ## `open` -/

/-- **`open` returns only what it has checked**, under every plan. -/
lemma open_triple (hC : C.Lawful) (w : World τ) :
    Attempts (· = w) (Journal.«open» C)
      (fun _ w' => w.present = true ∧ w.journal = none ∧ ∃ j es, Opens C (withLock w.disk) j es ∧
        w' = { w with disk := (withLock w.disk).syncDir, journal := some j })
      (OnlyLocked w) := by
  have hsame : OnlyLocked w w := .inl rfl
  have hlocked : OnlyLocked w { w with disk := withLock w.disk } := .inr (.inl rfl)
  have hsynced : OnlyLocked w { w with disk := (withLock w.disk).syncDir } := .inr (.inr rfl)
  refine bind_at (openDirectory_at ?_ hsame)
  intro hpresent
  refine bind_at (lock_at ?_ hsame hlocked)
  intro hjournal
  refine bind_at (readRecordFile_at hC Serde.lawful_value ?_ hlocked)
  intro m mi hmi hm
  refine bind_at (failIf_at (fun _ => hlocked) ?_)
  intro hobj
  refine bind_at (readRecordFile_at hC Serde.lawful_head ?_ hlocked)
  intro h hi hhi hh
  refine bind_at (failIf_at (fun _ => hlocked) ?_)
  intro hdig
  refine bind_at (openFile_at ?_ hlocked)
  intro log hlog
  refine bind_at (readToEnd_at ?_ hlocked)
  refine bind_at (failIf_at (fun _ => hlocked) ?_)
  intro _
  refine bind_at (.weaken (scan_triple hC _) ?_ fun w' h => h.noop ▸ hlocked)
  rintro _ _ ⟨i, es, hdir, hv, rfl⟩
  rw [shown_noop]
  have hi : i = log := Option.some.inj (hdir.symm.trans hlog)
  subst hi
  refine bind_at (updateIf_at ?_ hlocked fun _ => hsynced)
  intro _
  refine update_at ⟨hpresent, hjournal, _, es, ?_, rfl⟩
  exact ⟨⟨mi, hmi, hm⟩, by simpa using hobj, ⟨hi, hhi, hh⟩, not_not.mp hdig, hlog, hv, rfl, rfl⟩

/-- **And it returns whenever the checks pass** and no call is disturbed. -/
lemma open_runs (hC : C.Lawful) {w : World τ} (hpresent : w.present = true)
    (hjournal : w.journal = none) (h : Opens C (withLock w.disk) j es) :
    Runs (Journal.«open» C) w ()
      { w with disk := (withLock w.disk).syncDir, journal := some j } := by
  obtain ⟨⟨mi, hmi, hm⟩, hobj, ⟨hi, hhi, hh⟩, hdig, hlog, hv, htail, hwritable⟩ := h
  obtain ⟨log, m, head, tail, failed⟩ := j
  simp only at hm hobj hh hdig hlog hv htail hwritable
  have hlen : ¬((withLock w.disk).body log).data.length < head.journalBytes.toNat := by
    have := hv.log.length_le
    rw [hv.bytes]
    omega
  refine .bind (.query (if_pos hpresent)) (.bind (lock_runs hjournal) ?_)
  refine .bind (readRecordFile_runs hC Serde.lawful_value hmi hm) ?_
  refine .bind (.failIf (by simp [hobj])) ?_
  refine .bind (readRecordFile_runs hC Serde.lawful_head hhi hh) ?_
  refine .bind (.failIf (not_not.mpr hdig)) ?_
  refine .bind (.query (a := log) (by rw [hlog])) (.bind (.query rfl) ?_)
  refine .bind (.failIf hlen) ?_
  have hscan : Runs (scan C ⟨log, m, head, tail, failed⟩ fun _ w => w)
      { w with disk := withLock w.disk } () _ := scan_runs hC (fun _ w => w) hlog hv
  rw [shown_noop] at hscan
  rw [← htail, ← hwritable]
  exact .bind hscan (.bind (updateIf_runs rfl) .update)

/-! ## `replay` -/

section Replay

variable {self : Journal} {w : World τ} {i : ℕ} {es : List (Entry τ)}

lemma replay_runs (hC : C.Lawful) (hdir : w.disk.dir .JournalJsonl = some i)
    (hv : Verified C self.head (w.disk.body i).data es) :
    Runs (self.replay C) w () { w with delivered := w.delivered ++ es } := by
  have hfirst := scan_runs hC (fun _ w => w) hdir hv
  rw [shown_noop] at hfirst
  have hsecond := scan_runs hC Journal.deliver hdir hv
  rw [shown_deliver] at hsecond
  exact .bind hfirst hsecond

variable (C) in
/-- What a `replay` that did not return has done: nothing, or shown the visitor the first few
    entries of a prefix that had passed as a whole. -/
def PartlyReplayed (self : Journal) (w w' : World τ) : Prop :=
  w' = w ∨ ∃ i es fs, w.disk.dir .JournalJsonl = some i ∧
    Verified C self.head (w.disk.body i).data es ∧ fs <+: es ∧
    w' = { w with delivered := w.delivered ++ fs }

/-- The entries of the first lines of a chain's log are its first entries. -/
lemma prefix_of_map_lineOf_prefix (hC : C.Lawful) {fs : List (Entry τ)}
    (hes : ∀ e ∈ es, record C e = .ok (lineOf C e)) (hfs : ∀ f ∈ fs, record C f = .ok (lineOf C f))
    (h : fs.map (lineOf C) <+: es.map (lineOf C)) : fs <+: es := by
  have htake : fs.map (lineOf C) = (es.take fs.length).map (lineOf C) := by
    rw [List.map_take, ← List.length_map (lineOf C)]
    exact List.prefix_iff_eq_take.mp h
  have heq : fs = es.take fs.length :=
    eq_of_map_lineOf_eq hC hfs (fun e he => hes e (List.mem_of_mem_take he)) htake
  rw [heq]
  exact List.take_prefix _ _

/-- **The visitor sees verified entries only**, in order, and all of them if `replay` returns. -/
lemma replay_triple (hC : C.Lawful) :
    Attempts (· = w) (self.replay C)
      (fun _ w' => ∃ i es, w.disk.dir .JournalJsonl = some i ∧
        Verified C self.head (w.disk.body i).data es ∧
        w' = { w with delivered := w.delivered ++ es })
      (PartlyReplayed C self w) := by
  -- the first pass shows nothing to anybody
  refine bind_at (.weaken (scan_triple hC _) ?_ fun w' h => .inl h.noop)
  rintro _ _ ⟨i, es, hdir, hv, rfl⟩
  rw [shown_noop]
  refine .weaken (scan_triple hC _) ?_ ?_
  · rintro _ _ ⟨i', es', hdir', hv', rfl⟩
    exact ⟨i', es', hdir', hv', shown_deliver es' w⟩
  · rintro w' (rfl | ⟨i', hdir', fs, hpre, hfs, rfl⟩)
    · exact .inl rfl
    · have hi : i' = i := Option.some.inj (hdir'.symm.trans hdir)
      subst hi
      rw [hv.take_eq, splitLines_logOf hC] at hpre
      refine .inr ⟨i', es, fs, hdir, hv, ?_, shown_deliver fs w⟩
      exact prefix_of_map_lineOf_prefix hC (fun e he => (hv.linked.mem he).2.2) hfs hpre

end Replay

end Evidence

end Rauha
