import Rauha.Evidence.Durable

/-!
# What `append` and `create` do to the medium

One specification for each writing operation, under every plan.

* `stage_ok`: an append that passes its checks continues the chain: its entry is the next one, and
  the head it is going to publish is the head of the longer sequence;
* `publishHead_triple`: the directory ends up holding the new sequence, or stays safe;
* `append_triple`: an append that returns has committed its entry; one that does not leaves a disk
  on which the old sequence or the longer one is found;
* `create_triple`: the same for a new journal and the empty sequence.
-/

namespace Rauha

open Storage CrashLogic List Function

namespace Evidence

variable {τ : Type} {C : Codec τ} {w : World τ} {j : Journal} {m : Value} {es : List (Entry τ)}
  {kind : String} {epoch : UInt64} {body : Value} {now : τ}

/-! ## Staging -/

variable {st : Staged τ}

lemma okOr_ok_iff {α : Type} {x : Option α} {msg : String} {a : α} :
    okOr x msg = .ok a ↔ x = some a := by
  cases x <;> simp [okOr]

/-- The checks of `append`, one by one. -/
lemma stage_inv (h : j.stage C kind epoch body now = .ok st) :
    body.doc.depth ≤ maxInputDepth ∧ j.writeFailed = false ∧ j.tailBytes = 0 ∧
      validKind kind = true ∧ body.isObject = true ∧
      ∃ seq bytes total, checkedAdd j.head.sequence 1 = some seq ∧
        record C (⟨seq, now, kind, epoch, j.head.journalRoot, body⟩ : Entry τ) = .ok bytes ∧
        checkedAdd j.head.journalBytes (UInt64.ofNat bytes.length) = some total ∧
        st = ⟨⟨seq, now, kind, epoch, j.head.journalRoot, body⟩, bytes,
          ⟨j.head.manifestSha256, seq,
            digest C (⟨seq, now, kind, epoch, j.head.journalRoot, body⟩ : Entry τ), total⟩⟩ := by
  obtain ⟨b, hb, h⟩ := ok_of_bind h
  obtain ⟨rfl, hdepth⟩ := boundedInput_ok_iff.mp hb
  dsimp only at h
  split at h
  · cases h
  rename_i hw
  split at h
  · cases h
  rename_i ht
  split at h
  · cases h
  rename_i hk
  obtain ⟨seq, hs, h⟩ := ok_of_bind h
  obtain ⟨bytes, hr, h⟩ := ok_of_bind h
  obtain ⟨total, hn, h⟩ := ok_of_bind h
  cases h
  simp only [Bool.or_eq_true, not_or, Bool.not_eq_true, Bool.not_eq_false'] at hk
  exact ⟨hdepth, by simpa using hw, not_not.mp ht, by simpa using hk.1, by simpa using hk.2, seq,
    bytes, total, okOr_ok_iff.mp hs, hr, okOr_ok_iff.mp hn, rfl⟩

/-- **A staged entry continues the chain.** -/
lemma stage_ok (hC : C.Lawful) (hes : Admissible C m es) (hhead : j.head = headOf C m es)
    (h : j.stage C kind epoch body now = .ok st) :
    j.writeFailed = false ∧ j.tailBytes = 0 ∧
      st.entry.ts = now ∧ st.entry.kind = kind ∧ st.entry.epoch = epoch ∧ st.entry.body = body ∧
      st.bytes = lineOf C st.entry ∧ st.next = headOf C m (es ++ [st.entry]) ∧
      Admissible C m (es ++ [st.entry]) := by
  obtain ⟨-, hw, ht, hkind, hbody, seq, bytes, total, hseq, hrec, htotal, rfl⟩ := stage_inv h
  set e : Entry τ := ⟨seq, now, kind, epoch, j.head.journalRoot, body⟩ with he
  have hbytes : bytes = lineOf C e := lineOf_of_record hC (Serde.lawful_entry hC) hrec
  subst hbytes
  -- the counters of the new head are those of the longer sequence
  have hseqNat : seq.toNat = es.length + 1 := by
    rw [checkedAdd_one.mp hseq, hhead, hes.toNat_sequence]
  have hlenLine : (lineOf C e).length ≤ maxRecordBytes :=
    (record_length hC (Serde.lawful_entry hC) hrec).2
  have hlineNat : (UInt64.ofNat (lineOf C e).length).toNat = (lineOf C e).length := by
    refine UInt64.toNat_ofNat_of_lt' ?_
    have hmax : maxRecordBytes < UInt64.size := by decide
    omega
  have hlog : logOf C (es ++ [e]) = logOf C es ++ lineOf C e := by
    rw [logOf_append, logOf_cons, logOf_nil, append_nil]
  obtain ⟨hfit, hsum⟩ := checkedAdd_eq_some_iff.mp htotal
  rw [hhead, hes.toNat_journalBytes, hlineNat] at hfit
  have hsize : (logOf C (es ++ [e])).length < 2 ^ 64 := by
    rw [hlog, length_append]
    exact hfit
  have hlinked : Linked C 0 (digest C m) (es ++ [e]) := by
    refine linked_append.mpr ⟨hes.linked, ?_, ?_, hkind, hbody, hrec, trivial⟩
    · rw [Nat.zero_add]
      exact hseqNat
    · show j.head.journalRoot = _
      rw [hhead]
      rfl
  refine ⟨hw, ht, rfl, rfl, rfl, rfl, rfl, ?_, ⟨hes.object, hes.manifest, hlinked, hsize⟩⟩
  have hseqEq : seq = UInt64.ofNat (es ++ [e]).length := by
    rw [length_append, length_singleton, ← hseqNat, UInt64.ofNat_toNat]
  have htotalEq : total = UInt64.ofNat (logOf C (es ++ [e])).length := by
    rw [← hsum, hhead, hlog, length_append, UInt64.ofNat_add]
    rfl
  rw [headOf, ← hseqEq, ← htotalEq, rootFrom_append_singleton, hhead]
  rfl

open Triple

/-! ## Calls that write -/

variable {name : FileName}

section Calls

open Sys

variable {K : World τ → Prop} {i : ℕ} {Q : Unit → World τ → Prop}

lemma writeAll_at {bytes : Bytes} (hok : Q () { w with disk := w.disk.write i bytes })
    (hK : ∀ n, K { w with disk := w.disk.write i (bytes.take n) }) :
    Attempts (· = w) (writeAll i bytes) Q K := by
  refine .call ?_ ?_ ?_
  · rintro _ rfl
    exact hok
  all_goals
    rintro n _ rfl
    exact hK n

lemma newFile_at {Q : ℕ → World τ → Prop}
    (hok : w.disk.dir name = none → Q w.disk.fresh { w with disk := w.disk.create name })
    (hK : K w) (hK' : K { w with disk := w.disk.create name }) :
    Attempts (· = w) (newFile name) Q K := by
  have hcases : ∀ (i : ℕ) w', (if (w.disk.dir name).isSome then Except.error Error.Io
      else .ok (w.disk.fresh, { w with disk := w.disk.create name })) = .ok (i, w') →
      w.disk.dir name = none ∧ i = w.disk.fresh ∧ w' = { w with disk := w.disk.create name } := by
    intro i w' h
    split_ifs at h with hsome
    cases h
    exact ⟨Option.not_isSome_iff_eq_none.mp hsome, rfl, rfl⟩
  refine atomic_at ?_ hK ?_
  · intro i w' h
    obtain ⟨hnone, rfl, rfl⟩ := hcases i w' h
    exact hok hnone
  · intro i w' h
    obtain ⟨-, -, rfl⟩ := hcases i w' h
    exact hK'

lemma syncAll_at (hok : Q () { w with disk := w.disk.sync i }) (hK : K w)
    (hK' : K { w with disk := w.disk.sync i }) : Attempts (· = w) (syncAll i) Q K :=
  updateIf_at (fun _ => hok) hK fun _ => hK'

lemma syncDirectory_at (hok : Q () { w with disk := w.disk.syncDir }) (hK : K w)
    (hK' : K { w with disk := w.disk.syncDir }) : Attempts (· = w) syncDirectory Q K :=
  updateIf_at (fun _ => hok) hK fun _ => hK'

lemma rename_at {a b : FileName} (hok : Q () { w with disk := w.disk.rename a b }) (hK : K w)
    (hK' : K { w with disk := w.disk.rename a b }) : Attempts (· = w) (rename a b) Q K :=
  updateIf_at (fun _ => hok) hK fun _ => hK'

end Calls

/-! ## Publishing a head -/

variable {log k : ℕ} {A : Option (List (Entry τ)) → Prop}

variable (C) in
/-- What may have become of the disk while a head was being published: it is safe, and the log has
    not been touched. -/
def StaysSafe (m : Value) (log : ℕ) (A : Option (List (Entry τ)) → Prop) (w w' : World τ) : Prop :=
  ∃ d, w' = { w with disk := d } ∧ Safe C d m log {log} A ∧ d.body log = w.disk.body log

attribute [local simp] Disk.create Disk.write Disk.sync Disk.syncDir

/-- **Publishing** the head of `es`, whose log is durable already. -/
lemma publishHead_triple (hC : C.Lawful) (hsafe : Safe C w.disk m log {log} A)
    (hes : Admissible C m es) (hA : A (some es)) (hmanifest : w.disk.dir .ManifestJson = some k)
    (hk : k ≠ log) (hkm : w.disk.Settled k (lineOf C m))
    (hlog : w.disk.dir .JournalJsonl = some log) (hkeeps : w.disk.Keeps log (logOf C es)) :
    Attempts (· = w) (publishHead C (headOf C m es))
      (fun _ w' => ∃ d, w' = { w with disk := d } ∧ d.older = [] ∧
        Holds C d m log {log} d.dir es ∧ d.body log = w.disk.body log)
      (StaysSafe C m log A w) := by
  set d := w.disk with hd
  have hne : log ≠ d.fresh := Nat.ne_of_lt hkeeps.1
  have hbody : ∀ x : Body, update d.body d.fresh x log = d.body log := fun x => by
    rw [update_of_ne hne]
  have h0 : StaysSafe C m log A w w := ⟨d, rfl, hsafe, rfl⟩
  -- a new file called `head.next`
  have hsafe1 : Safe C (d.create .HeadNext) m log (insert d.fresh {log}) A :=
    hsafe.create (by decide) (by decide) (by decide)
  have hsub : ({log} : Set ℕ) ⊆ insert d.fresh {log} := Set.subset_insert _ _
  have h1 : StaysSafe C m log A w { w with disk := d.create .HeadNext } :=
    ⟨_, rfl, hsafe1.weaken (fun _ h => h) hsub, hbody _⟩
  refine bind_at (newFile_at ?_ h0 h1)
  intro hnone
  refine bind_at (ofExcept_at ?_ (fun _ _ => h1))
  intro bytes hrec
  have hbytes : bytes = lineOf C (headOf C m es) := lineOf_of_record hC Serde.lawful_head hrec
  have hcommitted : Committed C m es := ⟨hes, hbytes ▸ hrec⟩
  subst hbytes
  -- its contents
  have h2 : ∀ bs : Bytes, Safe C ((d.create .HeadNext).write d.fresh bs) m log
      (insert d.fresh {log}) A := fun bs => hsafe1.write bs (Set.mem_insert _ _)
  have hbody2 : ∀ bs : Bytes, ((d.create .HeadNext).write d.fresh bs).body log = d.body log :=
    fun bs => by simp only [Disk.write, Disk.create, update_of_ne hne]
  have h2' : ∀ bs : Bytes, StaysSafe C m log A w
      { w with disk := (d.create .HeadNext).write d.fresh bs } := fun bs =>
    ⟨_, rfl, (h2 bs).weaken (fun _ h => h) hsub, hbody2 bs⟩
  refine bind_at (writeAll_at ?_ fun n => h2' _)
  set d2 := (d.create .HeadNext).write d.fresh (lineOf C (headOf C m es)) with hd2
  have h3 : Safe C (d2.sync d.fresh) m log (insert d.fresh {log}) A := (h2 _).sync _
  have hbody3 : (d2.sync d.fresh).body log = d.body log := by
    simp only [hd2, Disk.sync, Disk.write, Disk.create, update_of_ne hne]
  have h3' : StaysSafe C m log A w { w with disk := d2.sync d.fresh } :=
    ⟨_, rfl, h3.weaken (fun _ h => h) hsub, hbody3⟩
  refine bind_at (syncAll_at ?_ (h2' _) h3')
  -- the rename makes it the head
  have hsettled : (d2.sync d.fresh).Settled d.fresh (lineOf C (headOf C m es)) := by
    refine Disk.settled_sync (Nat.lt_succ_self _) ?_
    simp [hd2, Body.empty]
  have hkd : k ≠ d.fresh := Nat.ne_of_lt hkm.1
  obtain ⟨h4, hholds⟩ := h3.rename (T := {log}) (k := k) (i := d.fresh)
    (by simp [hd2]) (fun h => hne h.symm) hsub hsettled
    (by simpa [hd2] using hmanifest) hk
    ((hkm.create.write hkd).sync) (by simpa [hd2] using hlog)
    (hkeeps.create.write.sync) hcommitted hA
  have h4' : StaysSafe C m log A w
      { w with disk := (d2.sync d.fresh).rename .HeadNext .Head } := ⟨_, rfl, h4, hbody3⟩
  refine bind_at (rename_at ?_ h3' h4')
  have h5' : StaysSafe C m log A w
      { w with disk := ((d2.sync d.fresh).rename .HeadNext .Head).syncDir } :=
    ⟨_, rfl, h4.syncDir, hbody3⟩
  refine syncDirectory_at ?_ h4' h5'
  exact ⟨_, rfl, rfl, hholds.mono preserves_syncDir rfl rfl rfl, hbody3⟩

/-! ## Appending -/

variable (C) in
/-- **A handle in working order**: the directory holds exactly the sequence `es` that its head
    names, durably, and the log has `tailBytes` more bytes. -/
structure Current (d : Disk FileName) (j : Journal) (m : Value) (es : List (Entry τ)) : Prop where
  manifest : j.manifest = m
  head : j.head = headOf C m es
  safe : Safe C d m j.log {j.log} (· = some es)
  tail : (d.body j.log).data.length = (logOf C es).length + j.tailBytes

variable {d : Disk FileName}

lemma Current.holds (h : Current C d j m es) : Holds C d m j.log {j.log} d.dir es := by
  rcases h.safe d.dir d.dir_mem_dirs with ⟨hnone, -⟩ | ⟨fs, hfs, hholds⟩
  · cases hnone
  · cases hfs
    exact hholds

/-- A directory that has just been synced is found again as it is. -/
lemma safe_of_holds (holder : d.older = []) (h : Holds C d m log {log} d.dir es) :
    Safe C d m log {log} (· = some es) := by
  intro f hf
  rw [Disk.dirs, holder, mem_singleton] at hf
  rw [hf]
  exact .inr ⟨es, rfl, h⟩

variable (C) in
/-- What an append of `e` leaves that does not return after it has started to write. -/
def Interrupted (m : Value) (es : List (Entry τ)) (e : Entry τ) (j : Journal) (w w' : World τ) :
    Prop :=
  ∃ d, w' = { w with disk := d, journal := some { j with writeFailed := true } } ∧
    Safe C d m j.log {j.log} (fun x => x = some es ∨ x = some (es ++ [e])) ∧
    (w.disk.body j.log).data <+: (d.body j.log).data

/-- **The specification of `append`**, under every plan. -/
lemma append_triple (hC : C.Lawful) (hcur : Current C w.disk j m es) :
    Triple (· = w) (j.append C kind epoch body now)
      (fun e w' => ∃ st, j.stage C kind epoch body now = .ok st ∧ e = st.entry ∧ ∃ d,
        w' = { w with
          disk := d, journal := some { j with head := st.next, writeFailed := false } } ∧
        Current C d { j with head := st.next, writeFailed := false } m (es ++ [e]) ∧
        (w.disk.body j.log).data <+: (d.body j.log).data)
      (fun x w' => (j.stage C kind epoch body now = .error x ∧ w' = w) ∨
        ∃ st, j.stage C kind epoch body now = .ok st ∧ Interrupted C m es st.entry j w w')
      (fun w' => ∃ st, j.stage C kind epoch body now = .ok st ∧
        Interrupted C m es st.entry j w w') := by
  refine bind_at (ofExcept_at ?_ fun x hx => Or.inl ⟨hx, rfl⟩)
  intro st hst
  obtain ⟨hfailed, htail, -, -, -, -, hbytes, hnext, hadm⟩ :=
    stage_ok hC hcur.holds.committed.toAdmissible hcur.head hst
  set d := w.disk with hd
  set A : Option (List (Entry τ)) → Prop :=
    fun x => x = some es ∨ x = some (es ++ [st.entry]) with hA
  have hsafe : Safe C d m j.log {j.log} A := hcur.safe.weaken (fun _ h => Or.inl h) (subset_refl _)
  have hlogdir := hcur.holds.logName
  have hkeeps := hcur.holds.keeps
  -- every disk below is reached by writing to the log, and leaves it longer
  let Grown (d' : Disk FileName) : Prop :=
    Safe C d' m j.log {j.log} A ∧ (d.body j.log).data <+: (d'.body j.log).data
  have hstop : ∀ d', Grown d' → ∃ st', j.stage C kind epoch body now = .ok st' ∧
      Interrupted C m es st'.entry j w
        { w with disk := d', journal := some { j with writeFailed := true } } :=
    fun d' h => ⟨st, hst, d', rfl, h⟩
  have hwrite : ∀ (d' : Disk FileName) (bs : Bytes), Grown d' → Grown (d'.write j.log bs) :=
    fun d' bs h => ⟨h.1.write bs rfl, h.2.trans (by simp)⟩
  refine Triple.of_attempts ?_ fun _ _ => Or.inr
  refine bind_at (update_at ?_)
  have h0 : Grown d := ⟨hsafe, prefix_rfl⟩
  refine bind_at (writeAll_at ?_ fun n => hstop _ (hwrite d _ h0))
  set d1 := d.write j.log (st.bytes.take (st.bytes.length / 2)) with hd1
  have h1 : Grown d1 := hwrite d _ h0
  refine bind_at (writeAll_at ?_ fun n => hstop _ (hwrite d1 _ h1))
  set d2 := d1.write j.log (st.bytes.drop (st.bytes.length / 2)) with hd2
  have h2 : Grown d2 := hwrite d1 _ h1
  have hdata3 : ((d2.sync j.log).body j.log).data = (d.body j.log).data ++ st.bytes := by
    simp [hd2, hd1, append_assoc]
  have h3 : Grown (d2.sync j.log) := ⟨h2.1.sync _, by rw [hdata3]; exact prefix_append _ _⟩
  refine bind_at (syncAll_at ?_ (hstop _ h2) (hstop _ h3))
  -- the whole line is durable: the head may be published
  have hdata : (d.body j.log).data = logOf C es := by
    have hlen := hcur.tail
    rw [htail, Nat.add_zero] at hlen
    exact (hkeeps.prefix_data.eq_of_length hlen.symm).symm
  have hlogOf : (d.body j.log).data ++ st.bytes = logOf C (es ++ [st.entry]) := by
    rw [hdata, hbytes, logOf_append, logOf_cons, logOf_nil, append_nil]
  have hsettled : (d2.sync j.log).Settled j.log (logOf C (es ++ [st.entry])) := by
    refine Disk.settled_sync hkeeps.1 ?_
    rw [← hlogOf]
    simp [hd2, hd1, append_assoc]
  obtain ⟨k, hk, hkS, hkm⟩ := hcur.holds.manifest
  have hpub := publishHead_triple hC (w := { w with
      disk := d2.sync j.log, journal := some { j with writeFailed := true } })
    h3.1 hadm (Or.inr rfl) hk hkS (((hkm.write hkS).write hkS).sync) hlogdir hsettled.keeps
  rw [← hnext] at hpub
  refine bind_at (Triple.weaken hpub ?_ ?_)
  · rintro _ _ ⟨d', rfl, holder, hholds, hbody⟩
    have hdata' : (d'.body j.log).data = logOf C (es ++ [st.entry]) := by
      rw [hbody, ← hlogOf]
      exact hdata3
    refine bind_at (update_at (pure_at ⟨st, hst, rfl, d', rfl, ?_, ?_⟩))
    · refine ⟨hcur.manifest, hnext, safe_of_holds holder hholds, ?_⟩
      show (d'.body j.log).data.length = _ + j.tailBytes
      rw [hdata', htail, Nat.add_zero]
    · rw [hdata', ← hlogOf]
      exact prefix_append _ _
  · rintro _ ⟨d', rfl, hs, hbody⟩
    refine hstop d' ⟨hs, ?_⟩
    rw [hbody]
    exact h3.2

/-! ## Creating -/

/-- Nothing has been published yet, in any state of the directory. -/
def NoHead (d : Disk FileName) : Prop := ∀ f ∈ d.dirs, f .Head = none

namespace NoHead

lemma safe (h : NoHead d) (m : Value) (log : ℕ) {A : Option (List (Entry τ)) → Prop} (hA : A none) :
    Safe C d m log {log} A :=
  fun f hf => .inl ⟨hA, h f hf⟩

lemma create (h : NoHead d) (hname : name ≠ .Head) : NoHead (d.create name) := by
  intro f hf
  rw [Disk.dirs_create, mem_cons] at hf
  rcases hf with rfl | hf
  · rw [update_of_ne (.symm hname)]
    exact h d.dir d.dir_mem_dirs
  · exact h f hf

lemma write (h : NoHead d) (i : ℕ) (bytes : Bytes) : NoHead (d.write i bytes) := h

lemma sync (h : NoHead d) (i : ℕ) : NoHead (d.sync i) := h

lemma syncDir (h : NoHead d) : NoHead d.syncDir := by
  intro f hf
  rw [Disk.dirs_syncDir, mem_singleton] at hf
  rw [hf]
  exact h d.dir d.dir_mem_dirs

lemma withLock (h : NoHead d) : NoHead (withLock d) := by
  unfold Evidence.withLock
  split_ifs
  · exact h
  · exact h.create (by decide)

end NoHead

/-- While a journal is being created, it is empty or has not been published. -/
def Unborn (x : Option (List (Entry τ))) : Prop := x = none ∨ x = some []

variable (C) in
/-- What a creation that did not return leaves: nothing new, or a directory that holds the empty
    sequence if it holds any. -/
def Begun (w w' : World τ) : Prop :=
  w' = w ∨ w.present = false ∧ ∃ d linked, w' = { w with present := true, linked, disk := d } ∧
    (linked = false → NoHead d) ∧ ∃ m log, Safe C d m log {log} Unborn

/-- **The specification of `create`**, under every plan. -/
lemma create_triple (hC : C.Lawful) (w : World τ) :
    Attempts (· = w) (Journal.create C m)
      (fun _ w' => w.present = false ∧ w.journal = none ∧ ∃ d log,
        w' = { w with
          present := true, linked := true, disk := d,
          journal := some ⟨log, m, headOf C m [], 0, false⟩ } ∧
        Current C d ⟨log, m, headOf C m [], 0, false⟩ m [])
      (Begun C w) := by
  have h0 : Begun C w w := Or.inl rfl
  refine bind_at (ofExcept_at ?_ fun _ _ => h0)
  intro v hv
  obtain ⟨rfl, -⟩ := boundedInput_ok_iff.mp hv
  refine bind_at (failIf_at (fun _ => h0) ?_)
  intro hobj
  refine bind_at (ofExcept_at ?_ fun _ _ => h0)
  intro bytes hrec
  have hbytes : bytes = lineOf C m := lineOf_of_record hC Serde.lawful_value hrec
  subst hbytes
  have hadm : Admissible C m [] := ⟨by simpa using hobj, hrec, trivial, by simp⟩
  -- as long as there is no head, any disk will do
  have hbegun : ∀ d linked, w.present = false → NoHead d →
      Begun C w { w with present := true, linked, disk := d } := fun d linked hpresent hd =>
    Or.inr ⟨hpresent, d, linked, rfl, fun _ => hd, m, 0, hd.safe m 0 (Or.inl rfl)⟩
  have hempty : NoHead Disk.empty := by
    intro f hf
    rw [Disk.dirs, Disk.empty, mem_singleton] at hf
    rw [hf]
  refine bind_at (updateIf_at ?_ h0 fun h => hbegun _ _ (by simpa using h) hempty)
  intro hpresent
  replace hpresent : w.present = false := by simpa using hpresent
  have hbegun := fun d linked => hbegun d linked hpresent
  have hb1 := hbegun _ true hempty
  refine bind_at (updateIf_at ?_ (hbegun _ false hempty) fun _ => hb1)
  intro _
  refine bind_at (openDirectory_at ?_ hb1)
  intro _
  have hlock := hempty.withLock
  have hb2 := hbegun _ true hlock
  refine bind_at (lock_at ?_ hb1 hb2)
  intro hjournal
  set d0 := withLock Disk.empty with hd0
  -- the manifest
  have hn1 : NoHead (d0.create .ManifestJson) := hlock.create (by decide)
  refine bind_at (newFile_at ?_ hb2 (hbegun _ true hn1))
  intro _
  refine bind_at (writeAll_at ?_ fun n => hbegun _ true (hn1.write _ _))
  refine bind_at (syncAll_at ?_ (hbegun _ true (hn1.write _ _))
    (hbegun _ true ((hn1.write _ _).sync _)))
  set d1 := ((d0.create .ManifestJson).write d0.fresh (lineOf C m)).sync d0.fresh with hd1
  have hn2 : NoHead d1 := (hn1.write _ _).sync _
  have hsettled : d1.Settled d0.fresh (lineOf C m) := by
    refine Disk.settled_sync (Nat.lt_succ_self _) ?_
    simp [Body.empty]
  have hmdir : d1.dir .ManifestJson = some d0.fresh := by
    simp [hd1]
  -- the log
  have hn3 : NoHead (d1.create .JournalJsonl) := hn2.create (by decide)
  refine bind_at (newFile_at ?_ (hbegun _ true hn2) (hbegun _ true hn3))
  intro _
  refine bind_at (syncAll_at ?_ (hbegun _ true hn3) (hbegun _ true (hn3.sync _)))
  refine bind_at (syncDirectory_at ?_ (hbegun _ true (hn3.sync _))
    (hbegun _ true (hn3.sync _).syncDir))
  set d2 := ((d1.create .JournalJsonl).sync d1.fresh).syncDir with hd2
  have hn4 : NoHead d2 := (hn3.sync _).syncDir
  have hsettled2 : d2.Settled d0.fresh (lineOf C m) := (hsettled.create.sync).syncDir
  have hmdir2 : d2.dir .ManifestJson = some d0.fresh := by
    simpa [hd2] using hmdir
  have hldir : d2.dir .JournalJsonl = some d1.fresh := by
    simp [hd2]
  have hdata : (d2.body d1.fresh).data = [] := by
    simp [hd2, Body.empty]
  have hkeeps : d2.Keeps d1.fresh (logOf C ([] : List (Entry τ))) :=
    ⟨Nat.lt_succ_self _, List.nil_prefix⟩
  have hne : d0.fresh ≠ d1.fresh := Nat.ne_of_lt (Nat.lt_succ_self d0.fresh)
  -- the first head
  have hpub := publishHead_triple hC (w := { w with present := true, linked := true, disk := d2 })
    (hn4.safe m d1.fresh (A := Unborn) (Or.inl rfl)) hadm (Or.inr rfl) hmdir2 hne hsettled2 hldir
    hkeeps
  refine bind_at (Triple.weaken hpub ?_ ?_)
  swap
  · rintro w' ⟨d, rfl, hsafe, -⟩
    exact Or.inr ⟨hpresent, d, true, rfl, fun h => (by cases h), m, d1.fresh, hsafe⟩
  rintro _ _ ⟨d, rfl, holder, hholds, hbody⟩
  refine update_at ⟨hpresent, hjournal, d, d1.fresh, rfl, rfl, rfl, safe_of_holds holder hholds, ?_⟩
  show (d.body d1.fresh).data.length = _
  rw [hbody]
  simp [hdata]

end Evidence

end Rauha
