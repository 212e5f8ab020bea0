import Rauha.Evidence.System
import Rauha.Evidence.Tamper

/-!
# Crash safety and round trips of the Run journal

The two results about whole lives of a journal, both read off the invariant `Consistent`.

* `journal_crash_safe`: whatever was interrupted where, a later successful `open` exposes the
  acknowledged entries, at most one more, and never a changed byte; bytes beyond the head are
  neither read nor overwritten, and block appends;
* `journal_round_trip`: the writer never commits what the reader rejects.
-/

namespace Rauha

open Storage CrashLogic Function

namespace Evidence

variable {τ : Type} (C : Codec τ)

/-- The machine with other bytes in its log file. -/
def World.withLog (w : World τ) (data : Bytes) : World τ :=
  match w.disk.dir .JournalJsonl with
  | some i =>
    { w with disk := { w.disk with body := Function.update w.disk.body i (.whole data) } }
  | none => w

/-- **What a successful `open` exposes**, given what was known (`h`) when it was called on `w`; it
    left the machine `w'` with the handle `j`. -/
structure Exposure (h : History τ) (w w' : World τ) (j : Journal) : Prop where
  /-- Every append that returned, exactly once and in call order. -/
  acked : h.acked.Sublist (exposed C w')
  once : (exposed C w').Nodup
  /-- The previously committed sequence, extended by the append in flight at most. -/
  extends_committed : exposed C w' = h.committed ∨
    ∃ e, h.inflight = some e ∧ exposed C w' = h.committed ++ [e]
  /-- The committed bytes are in the file, the old ones in front, and the head measures them. -/
  bytes : logOf C h.committed <+: logOf C (exposed C w') ∧
    j.head.journalBytes.toNat = (logOf C (exposed C w')).length ∧
    ∃ data, w'.disk.read .JournalJsonl = some data ∧ w.disk.read .JournalJsonl = some data ∧
      logOf C (exposed C w') <+: data ∧ j.tailBytes = data.length - j.head.journalBytes.toNat
  /-- The bytes after them are not looked at: any others give the same result. -/
  blind : ∀ data, logOf C (exposed C w') <+: data → ∃ w'' j',
    Runs (Journal.«open» C) (w.withLog data) () w'' ∧ w''.journal = some j' ∧
      j'.manifest = j.manifest ∧ j'.head = j.head ∧ exposed C w'' = exposed C w'

variable {C}

variable {data : Bytes}

section Holds

variable {d : Disk FileName} {m : Value} {log : ℕ} {S : Set ℕ} {es : List (Entry τ)}

lemma Holds.withLock (h : Holds C d m log S d.dir es) :
    Holds C (withLock d) m log S (withLock d).dir es := by
  unfold Evidence.withLock
  split_ifs
  · exact h
  · refine h.mono (preserves_create _) ?_ ?_ ?_
    all_goals simp [Disk.create]

/-- A directory holds its sequence whatever stands behind it in the log. -/
lemma Holds.withLog {w : World τ} (h : Holds C w.disk m log {log} w.disk.dir es)
    (hdata : logOf C es <+: data) :
    Holds C (w.withLog data).disk m log {log} (w.withLog data).disk.dir es := by
  obtain ⟨hc, ⟨i, hi, hiS, hsi⟩, ⟨k, hk, hkS, hsk⟩, hl, hkeeps⟩ := h
  have hdisk : (w.withLog data).disk
      = { w.disk with body := update w.disk.body log (Body.whole data) } := by
    simp only [World.withLog, hl]
  rw [hdisk]
  have hother : ∀ {x bytes}, x ∉ ({log} : Set ℕ) → w.disk.Settled x bytes →
      Disk.Settled { w.disk with body := update w.disk.body log (.whole data) } x
        bytes := by
    intro x bytes hx hs
    have hne : x ≠ log := hx
    refine ⟨hs.1, ?_⟩
    simp only [update_of_ne hne]
    exact hs.2
  refine ⟨hc, ⟨i, hi, hiS, hother hiS hsi⟩, ⟨k, hk, hkS, hother hkS hsk⟩, hl, hkeeps.1, ?_⟩
  simpa [Body.durable, Body.whole] using hdata

end Holds

/-! ## Crash safety -/

variable {s : Observed τ} {j : Journal}

/-- What the invariant says when an `open` finds the sequence `es`. -/
lemma Consistent.found (hC : C.Lawful) (hs : Consistent C s) {es : List (Entry τ)}
    (hp : s.world.present = true) (ho : Opens C (withLock s.world.disk) j es) :
    (∃ m log, Holds C s.world.disk m log {log} s.world.disk.dir es) ∧
      s.history.acked.Sublist es ∧ s.history.Allowed (some es) := by
  -- in both phases the disk is safe, so what is found is allowed
  have hfound : ∀ {m log A}, Safe C s.world.disk m log {log} A →
      A (some es) ∧ Holds C s.world.disk m log {log} s.world.disk.dir es := by
    intro m log A hsafe
    rcases hsafe s.world.disk.dir (Disk.dir_mem_dirs _) with ⟨-, hnone⟩ | ⟨fs, hA, hholds⟩
    · obtain ⟨i, hi, -⟩ := ho.head
      have hlock : (withLock s.world.disk).dir .Head = none := by
        unfold withLock
        split_ifs
        · exact hnone
        · simpa [Disk.create] using hnone
      rw [hlock] at hi
      cases hi
    · obtain ⟨rfl, -⟩ := hholds.withLock.opens_unique hC ho
      exact ⟨hA, hholds⟩
  rcases hs with ⟨hh, hw⟩ | ⟨m, log, he⟩
  · obtain ⟨m, log, hsafe⟩ := hw.safe hp
    obtain ⟨hA, hholds⟩ := hfound hsafe
    refine ⟨⟨m, log, hholds⟩, ?_, ?_⟩
    · rw [hh]
      exact List.nil_sublist _
    · rw [hh]
      rcases hA with hA | hA
      · cases hA
      · exact .inl hA
  · obtain ⟨hA, hholds⟩ := hfound he.safe
    refine ⟨⟨m, log, hholds⟩, ?_, hA⟩
    rcases hA with hA | ⟨e, -, hA⟩
    · rw [Option.some.inj hA]
      exact he.acked
    · rw [Option.some.inj hA]
      exact he.acked.trans (List.sublist_append_left _ _)

lemma Consistent.exposure (hC : C.Lawful) (hs : Consistent C s) {plan plan' : List Fate}
    {w' : World τ} (hrun : Journal.«open» C plan s.world = (.done (), plan', w')) :
    ∃ j, w'.journal = some j ∧ Exposure C s.history s.world w' j := by
  have ht := open_triple hC s.world plan s.world rfl
  rw [hrun] at ht
  obtain ⟨hp, hj, j, es, ho, rfl⟩ := ht
  obtain ⟨⟨m, log, hholds⟩, hacked, hallowed⟩ := hs.found hC hp ho
  have hexp := exposed_eq
    (w := { s.world with disk := (withLock s.world.disk).syncDir, journal := some j })
    hC rfl ho.log ho.verified
  obtain ⟨-, hhandle⟩ := hholds.withLock.opens_unique hC ho
  have hlog : j.log = log := by rw [hhandle]; rfl
  have hbody : (withLock s.world.disk).body j.log = s.world.disk.body j.log := by
    rw [hlog]
    exact withLock_body _ hholds.keeps.1
  refine ⟨j, rfl, ?_, ?_, ?_, ⟨?_, ?_, (s.world.disk.body j.log).data, ?_, ?_, ?_, ?_⟩, ?_⟩
  · rw [hexp]
    exact hacked
  · rw [hexp]
    exact ho.verified.linked.nodup
  · rw [hexp]
    rcases hallowed with h | ⟨e, he, h⟩
    · exact .inl (Option.some.inj h)
    · exact .inr ⟨e, he, Option.some.inj h⟩
  · rw [hexp]
    rcases hallowed with h | ⟨e, -, h⟩
    · rw [Option.some.inj h]
    · rw [Option.some.inj h, logOf_append]
      exact List.prefix_append _ _
  · rw [hexp]
    exact ho.verified.bytes
  · show ((withLock s.world.disk).dir .JournalJsonl).map _ = _
    rw [ho.log]
    exact congrArg (fun b : Body => some b.data) hbody
  · show (s.world.disk.dir .JournalJsonl).map _ = _
    rw [hholds.logName, hlog]
    rfl
  · rw [hexp, ← hbody]
    exact ho.verified.log
  · rw [ho.tail, hbody]
  · intro data hdata
    rw [hexp] at hdata
    have hopens := (hholds.withLog hdata).withLock.opens
    have hpresent : (s.world.withLog data).present = true := by
      simp only [World.withLog, hholds.logName]
      exact hp
    have hjournal : (s.world.withLog data).journal = none := by
      simp only [World.withLog, hholds.logName]
      exact hj
    refine ⟨_, _, open_runs hC hpresent hjournal hopens, rfl, ?_, ?_, ?_⟩
    · rw [hhandle]
      rfl
    · rw [hhandle]
      rfl
    · rw [hexp]
      exact exposed_eq hC rfl hopens.log hopens.verified

/-- The committed sequence is in the log file, durably or not, and the file only grows while the
    machine runs. -/
lemma Consistent.log_grows (hC : C.Lawful) (hs : Consistent C s) (hm : s.history.manifest.isSome) :
    ∃ data, s.world.disk.read .JournalJsonl = some data ∧ logOf C s.history.committed <+: data ∧
      ∀ ev, (∀ pick tail kept, ev ≠ .PowerCut pick tail kept) →
        ∃ data', (s.step C ev).world.disk.read .JournalJsonl = some data' ∧ data <+: data' := by
  rcases hs with ⟨hh, -⟩ | ⟨m, log, he⟩
  · rw [hh] at hm
    cases hm
  · have hread : ∀ {w h}, Established C w h m log →
        w.disk.read .JournalJsonl = some (w.disk.body log).data := by
      intro w h he
      obtain ⟨es, -, hholds⟩ := he.holds
      show (w.disk.dir .JournalJsonl).map _ = _
      rw [hholds.logName]
      rfl
    refine ⟨_, hread he, ?_, fun ev hev => ?_⟩
    · obtain ⟨es, hA, hholds⟩ := he.holds
      refine .trans ?_ hholds.keeps.prefix_data
      rcases hA with hA | ⟨e, -, hA⟩
      · rw [Option.some.inj hA]
      · rw [Option.some.inj hA, logOf_append]
        exact List.prefix_append _ _
    · obtain ⟨he', -, hgrow⟩ := he.step hC ev
      exact ⟨_, hread he', hgrow hev⟩

lemma Consistent.committed_grows (hC : C.Lawful) (hs : Consistent C s) (ev : Event τ) :
    s.history.committed <+: (s.step C ev).history.committed := by
  rcases hs with ⟨hh, -⟩ | ⟨m, log, he⟩
  · rw [hh]
    exact List.nil_prefix
  · exact (he.step hC ev).2.1

/-- As long as there are bytes beyond the head, an append is refused and changes nothing. -/
lemma Consistent.tail_blocks (hs : Consistent C s) (hj : s.world.journal = some j)
    (hdata : s.world.disk.read .JournalJsonl = some data)
    (htail : j.head.journalBytes.toNat < data.length) (kind : String) (epoch : UInt64)
    (body : Value) (now : τ) (plan : List Fate) :
    ∃ x, j.append C kind epoch body now plan s.world = (.failed x, plan, s.world) := by
  cases hst : j.stage C kind epoch body now with
  | error x => exact ⟨x, append_of_stage_error hst plan s.world⟩
  | ok st =>
    exfalso
    obtain ⟨-, hfailed, hzero, -⟩ := stage_inv hst
    rcases hs with ⟨-, hw⟩ | ⟨m, log, he⟩
    · rw [hw.journal] at hj
      cases hj
    · obtain ⟨rfl, hcur⟩ := he.handle j hj
      obtain ⟨-, hcur⟩ := hcur hfailed
      have hread : s.world.disk.read .JournalJsonl = some (s.world.disk.body j.log).data := by
        show (s.world.disk.dir .JournalJsonl).map _ = _
        rw [hcur.holds.logName]
        rfl
      have hlen := hcur.tail
      rw [hzero, ← Option.some.inj (hdata.symm.trans hread)] at hlen
      rw [hcur.head, hcur.holds.committed.toNat_journalBytes] at htail
      omega

/-- **Crash safety of the Run journal.**  After every run of a single writer, with every call of it
    failing, cut short or followed by a power cut wherever the plans say:

    * every `open` that succeeds exposes what `Exposure` describes;
    * what is committed is only ever added to, and while the machine runs the log file is too;
    * while the log has bytes beyond the head, every append is refused and changes nothing. -/
theorem journal_crash_safe (hC : C.Lawful) (events : List (Event τ)) :
    let s := Transition.run (Observed.step C) Observed.start events
    (∀ plan plan' w', Journal.«open» C plan s.world = (.done (), plan', w') →
      ∃ j, w'.journal = some j ∧ Exposure C s.history s.world w' j) ∧
    (∀ more, s.history.committed <+:
      (Transition.run (Observed.step C) s more).history.committed) ∧
    (s.history.manifest.isSome → ∃ data, s.world.disk.read .JournalJsonl = some data ∧
      logOf C s.history.committed <+: data ∧
      ∀ ev, (∀ pick tail kept, ev ≠ .PowerCut pick tail kept) →
        ∃ data', (s.step C ev).world.disk.read .JournalJsonl = some data' ∧ data <+: data') ∧
    (∀ j data, s.world.journal = some j → s.world.disk.read .JournalJsonl = some data →
      j.head.journalBytes.toNat < data.length → ∀ kind epoch body now plan,
        ∃ x, j.append C kind epoch body now plan s.world = (.failed x, plan, s.world)) := by
  intro s
  have hs : Consistent C s := consistent_run hC events
  refine ⟨?_, ?_, hs.log_grows hC, ?_⟩
  · intro plan plan' w' hrun
    exact hs.exposure hC hrun
  · intro more
    exact Transition.run_mono (I := Consistent C)
      (R := fun s s' => s.history.committed <+: s'.history.committed)
      (fun _ => List.prefix_refl _) (fun _ _ _ => List.IsPrefix.trans)
      (fun s ev hs => hs.step hC s ev) (fun s ev hs => hs.committed_grows hC ev) hs more
  · intro j data hj hdata htail kind epoch body now plan
    exact hs.tail_blocks hj hdata htail kind epoch body now plan

/-- A second append dies halfway through its line. -/
def cutAppend : List (Event String) :=
  [.Create emptyObject [], .Append "run.started" 1 emptyObject "2026-01-01T00:00:00Z" [],
    .Append "run.ended" 1 emptyObject "2026-01-01T00:00:01Z" [.pass, .stop 5]]

lemma cutAppend_history :
    let s := Transition.run (Observed.step sampleCodec) Observed.start cutAppend
    s.history.acked.length = 1 ∧ s.history.manifest.isSome = true := by
  decide +kernel

theorem journal_crash_safe_cut :
    let s := Transition.run (Observed.step sampleCodec) Observed.start cutAppend
    s.history.acked.length = 1 ∧ ∃ w' j,
      Runs (Journal.«open» sampleCodec) s.world () w' ∧ w'.journal = some j ∧
        Exposure sampleCodec s.history s.world w' j := by
  intro s
  have hopen : Runs (Journal.«open» sampleCodec) s.world () _ := Runs.of_done (by decide +kernel)
  obtain ⟨j, hj, hexp⟩ :=
    (journal_crash_safe sampleCodec_lawful cutAppend).1 _ _ _ hopen
  exact ⟨cutAppend_history.1, _, j, hopen, hj, hexp⟩

/-! ## Round trips -/

variable (C) in
/-- Every append is accepted or refused: none is cut short.  Everything else may be disturbed. -/
def Settles (s : Observed τ) : Event τ → Prop
  | .Append kind epoch body now plan => ∀ j, s.world.journal = some j →
      (∃ e plan' w', j.append C kind epoch body now plan s.world = (.done e, plan', w')) ∨
        ∃ x, j.stage C kind epoch body now = .error x
  | _ => True

instance (s : Observed τ) (ev : Event τ) : Decidable (Settles C s ev) :=
  match ev with
  | .Append kind epoch body now plan =>
    match hj : s.world.journal with
    | none => .isTrue fun j h => by rw [hj] at h; cases h
    | some j =>
      match hrun : j.append C kind epoch body now plan s.world,
        hst : j.stage C kind epoch body now with
      | (.done e, plan', w'), _ => .isTrue fun i h => by
        obtain rfl : j = i := Option.some.inj (hj.symm.trans h)
        exact .inl ⟨e, plan', w', hrun⟩
      | _, .error x => .isTrue fun i h => by
        obtain rfl : j = i := Option.some.inj (hj.symm.trans h)
        exact .inr ⟨x, hst⟩
      | (.failed _, _, _), .ok _ => .isFalse fun h => by
        rcases h j hj with ⟨e, plan', w', h⟩ | ⟨x, h⟩
        · rw [hrun] at h; cases h
        · rw [hst] at h; cases h
      | (.stopped, _, _), .ok _ => .isFalse fun h => by
        rcases h j hj with ⟨e, plan', w', h⟩ | ⟨x, h⟩
        · rw [hrun] at h; cases h
        · rw [hst] at h; cases h
  | .Create _ _ => .isTrue trivial
  | .Open _ => .isTrue trivial
  | .Replay _ => .isTrue trivial
  | .Close => .isTrue trivial
  | .PowerCut _ _ _ => .isTrue trivial

/-- Without an append cut short, what is committed is what was acknowledged. -/
lemma committed_eq_acked (hC : C.Lawful) (ev : Event τ)
    (hs : Consistent C s ∧ s.history.committed = s.history.acked ∧ s.history.inflight = none)
    (hG : Settles C s ev) :
    Consistent C (s.step C ev) ∧ (s.step C ev).history.committed = (s.step C ev).history.acked ∧
      (s.step C ev).history.inflight = none := by
  obtain ⟨hs, heq, hin⟩ := hs
  refine ⟨hs.step hC s ev, ?_⟩
  cases ev with
  | Create manifest plan =>
    simp only [Observed.step, History.next]
    split <;> exact ⟨heq, hin⟩
  | Open plan =>
    simp only [Observed.step, History.next]
    split
    · rename_i u plan' w' hrun
      obtain ⟨j, -, hexp⟩ := hs.exposure hC hrun
      rcases hexp.extends_committed with h | ⟨e, he, -⟩
      · exact ⟨h.trans heq, rfl⟩
      · rw [hin] at he
        cases he
    · exact ⟨heq, hin⟩
  | Append kind epoch body now plan =>
    simp only [Observed.step, History.next]
    split
    · exact ⟨heq, hin⟩
    · rename_i j hj
      rcases hG j hj with ⟨e, plan', w', hrun⟩ | ⟨x, hx⟩
      · rw [hrun]
        exact ⟨by rw [heq], hin⟩
      · rw [append_of_stage_error hx, hx]
        exact ⟨heq, hin⟩
  | Replay plan => exact ⟨heq, hin⟩
  | Close => exact ⟨heq, hin⟩
  | PowerCut pick tail kept => exact ⟨heq, hin⟩

/-- **The writer never commits what the reader rejects.**  After every run in which appends are
    accepted or refused, closing the journal, opening it and replaying it succeeds.  The replay
    delivers the accepted inputs in order, each with its kind, epoch and body, numbered from one
    and chained from the digest of the manifest that `create` was given. -/
theorem journal_round_trip (hC : C.Lawful) (events : List (Event τ))
    (hG : Transition.Meets (Observed.step C) (Settles C) Observed.start events) :
    let s := Transition.run (Observed.step C) Observed.start events
    ∀ m, s.history.manifest = some m → ∃ w' j,
      Runs (openAndReplay C) { s.world with journal := none, delivered := [] } () w' ∧
      w'.journal = some j ∧ j.manifest = m ∧ j.head = headOf C m w'.delivered ∧
      w'.delivered = s.history.acked ∧
      w'.delivered.map (fun e => (e.kind, e.epoch, e.body)) = s.history.inputs ∧
      w'.delivered.map (fun e => e.seq.toNat) = List.range' 1 w'.delivered.length ∧
      w'.delivered.map Entry.prev
        = (digest C m :: w'.delivered.map (digest C)).take w'.delivered.length := by
  intro s m hm
  obtain ⟨hs, heq, hin⟩ : Consistent C s ∧ s.history.committed = s.history.acked ∧
      s.history.inflight = none :=
    Transition.Meets.invariant (fun s ev => committed_eq_acked hC ev)
      ⟨consistent_start, rfl, rfl⟩ hG
  rcases hs with ⟨hh, -⟩ | ⟨m', log, he⟩
  · rw [hh] at hm
    cases hm
  obtain rfl : m = m' := Option.some.inj (hm.symm.trans he.manifest)
  obtain ⟨es, hA, hholds⟩ := he.holds
  obtain rfl : es = s.history.acked := by
    rcases hA with hA | ⟨e, hsome, -⟩
    · exact (Option.some.inj hA).trans heq
    · rw [hin] at hsome
      cases hsome
  -- open what the directory holds, then replay it
  have hopens := hholds.withLock.opens
  have hopen := open_runs (w := { s.world with journal := none, delivered := [] }) hC he.present rfl
    hopens
  have hreplay := replay_runs (w := { s.world with
      disk := (withLock s.world.disk).syncDir,
      journal := some (handleFor C (withLock s.world.disk) m log s.history.acked),
      delivered := [] }) hC hopens.log hopens.verified
  obtain ⟨hseqs, hprevs, -⟩ := linked_iff.mp hholds.committed.linked
  exact ⟨_, _, Runs.bind hopen (Runs.bind Runs.getState hreplay), rfl, rfl, rfl, rfl, he.inputs,
    hseqs, hprevs⟩

/-- An accepted append and a refused one. -/
def settledAppends : List (Event String) :=
  [.Create emptyObject [], .Append "run.started" 1 emptyObject "2026-01-01T00:00:00Z" [],
    .Append "started" 1 emptyObject "2026-01-01T00:00:01Z" []]

theorem journal_round_trip_settled :
    let s := Transition.run (Observed.step sampleCodec) Observed.start settledAppends
    ∃ w', Runs (openAndReplay sampleCodec) { s.world with journal := none, delivered := [] } () w' ∧
      w'.delivered = s.history.acked ∧ s.history.acked.length = 1 := by
  intro s
  obtain ⟨hsettles, hsome, hlength⟩ : Transition.Meets (Observed.step sampleCodec)
      (Settles sampleCodec) Observed.start settledAppends ∧ s.history.manifest.isSome = true ∧
        s.history.acked.length = 1 := by
    decide +kernel
  obtain ⟨m, hm⟩ := Option.isSome_iff_exists.mp hsome
  obtain ⟨w', j, hrun, -, -, -, hacked, -⟩ :=
    journal_round_trip sampleCodec_lawful settledAppends hsettles m hm
  exact ⟨w', hrun, hacked, hlength⟩

/-- **No crash makes a journal unreadable.**  After every run, whatever was cut short in it, a
    journal that a caller was told of opens and replays: the entries last known to be committed,
    and at most the one in flight after them. -/
theorem journal_reopens (hC : C.Lawful) (events : List (Event τ)) (m : Value)
    (hm : (Transition.run (Observed.step C) Observed.start events).history.manifest = some m) :
    let s := Transition.run (Observed.step C) Observed.start events
    ∃ w' j, Runs (openAndReplay C) { s.world with journal := none, delivered := [] } () w' ∧
      w'.journal = some j ∧ j.manifest = m ∧ s.history.Allowed (some w'.delivered) := by
  intro s
  rcases consistent_run hC events with ⟨hh, -⟩ | ⟨m', log, he⟩
  · rw [hh] at hm
    cases hm
  obtain rfl : m = m' := Option.some.inj (hm.symm.trans he.manifest)
  obtain ⟨es, hallowed, hholds⟩ := he.holds
  have hopens := hholds.withLock.opens
  exact ⟨_, _, Runs.bind (open_runs hC he.present rfl hopens) (Runs.bind Runs.getState
    (replay_runs hC hopens.log hopens.verified)), rfl, rfl, hallowed⟩

/-- The append that is cut short has left a line of which nobody knows. -/
theorem journal_reopens_cut :
    let s := Transition.run (Observed.step sampleCodec) Observed.start cutAppend
    ∃ w', Runs (openAndReplay sampleCodec) { s.world with journal := none, delivered := [] } () w' ∧
      s.history.Allowed (some w'.delivered) := by
  intro s
  obtain ⟨m, hm⟩ := Option.isSome_iff_exists.mp cutAppend_history.2
  obtain ⟨w', -, hrun, -, -, hallowed⟩ := journal_reopens sampleCodec_lawful cutAppend m hm
  exact ⟨w', hrun, hallowed⟩

end Evidence

end Rauha
