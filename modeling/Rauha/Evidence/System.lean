import Rauha.Evidence.Writing
import Rauha.Library.Transition

/-!
# A journal over its whole life

The system: one writer at a time that creates, opens, appends, replays and closes, every call of it
under a plan of its own, with the process dying where a plan says so and power cuts in between.
Beside the machine a `History` is kept of what callers know: the appends that returned, the
sequence last known to be committed, and the append that was cut short since, if any.

`Consistent` ties the two together, and `Consistent.step` is the step lemma: whatever happens, every
directory state that can be found later holds the committed sequence, or that sequence and the one
entry in flight.
-/

namespace Rauha

open Storage CrashLogic

namespace Evidence

/-- What can happen next. -/
inductive Event (τ : Type) where
  | Create (manifest : Value) (plan : List Fate)
  | Open (plan : List Fate)
  | Append (kind : String) (epoch : UInt64) (body : Value) (now : τ) (plan : List Fate)
  | Replay (plan : List Fate)
  | Close
  /-- Power fails: `pick` and `tail` say what the medium is found with, `kept` whether a directory
      survives that its parent has not been synced for. -/
  | PowerCut (pick : ℕ) (tail : ℕ → Bytes) (kept : Bool)

variable {τ : Type} (C : Codec τ)

/-- A program that is cut takes its process with it; the lock goes too. -/
def afterRun {α : Type} : Outcome Error α × List Fate × World τ → World τ
  | (.stopped, _, w) => { w with journal := none }
  | (.done _, _, w) => w
  | (.failed _, _, w) => w

def World.powerCut (w : World τ) (pick : ℕ) (tail : ℕ → Bytes) (kept : Bool) : World τ :=
  if w.present && (w.linked || kept) then
    { w with linked := true, disk := w.disk.powerCut pick tail, journal := none }
  else { w with present := false, linked := false, disk := .empty, journal := none }

def World.step (w : World τ) : Event τ → World τ
  | .Create manifest plan => afterRun (Journal.create C manifest plan w)
  | .Open plan => afterRun (Journal.«open» C plan w)
  | .Append kind epoch body now plan =>
    match w.journal with
    | some j => afterRun (j.append C kind epoch body now plan w)
    | none => w
  | .Replay plan =>
    match w.journal with
    | some j => afterRun (j.replay C plan w)
    | none => w
  | .Close => { w with journal := none }
  | .PowerCut pick tail kept => w.powerCut pick tail kept

/-- **What a handle exposes**: the entries that replaying it delivers. -/
def exposed (w : World τ) : List (Entry τ) :=
  match w.journal with
  | some j => (j.replay C [] { w with delivered := [] }).2.2.delivered
  | none => []

/-- What callers know. -/
structure History (τ : Type) where
  /-- The manifest, once a `create` or an `open` has returned. -/
  manifest : Option Value
  /-- The inputs of the appends that returned, and their entries, in call order. -/
  inputs : List (String × UInt64 × Value)
  acked : List (Entry τ)
  /-- The committed sequence as last seen, and the append cut short since then. -/
  committed : List (Entry τ)
  inflight : Option (Entry τ)

namespace History

def start : History τ := ⟨none, [], [], [], none⟩

/-- What is learnt from an event that meets the machine `w`. -/
def next (w : World τ) (h : History τ) : Event τ → History τ
  | .Create manifest plan =>
    match Journal.create C manifest plan w with
    | (.done _, _, _) => { h with manifest := some manifest }
    | _ => h
  | .Open plan =>
    match Journal.«open» C plan w with
    | (.done _, _, w') =>
      { h with
        manifest := w'.journal.map Journal.manifest, committed := exposed C w',
        inflight := none }
    | _ => h
  | .Append kind epoch body now plan =>
    match w.journal with
    | none => h
    | some j =>
      match j.append C kind epoch body now plan w with
      | (.done e, _, _) =>
        { h with
          inputs := h.inputs ++ [(kind, epoch, body)], acked := h.acked ++ [e],
          committed := h.committed ++ [e] }
      | _ =>
        match j.stage C kind epoch body now with
        | .ok st => { h with inflight := some st.entry }
        | .error _ => h
  | _ => h

/-- The sequences that may be found from now on. -/
def Allowed (h : History τ) (x : Option (List (Entry τ))) : Prop :=
  x = some h.committed ∨ ∃ e, h.inflight = some e ∧ x = some (h.committed ++ [e])

end History

/-- The machine and what is known about it. -/
structure Observed (τ : Type) where
  world : World τ
  history : History τ

namespace Observed

def start : Observed τ := ⟨.blank, .start⟩

def step (s : Observed τ) (ev : Event τ) : Observed τ :=
  ⟨s.world.step C ev, s.history.next C s.world ev⟩

end Observed

/-! ## The invariant -/

/-- Once a journal exists: the medium holds what is allowed, and an unharmed handle describes
    exactly what is committed. -/
structure Established (w : World τ) (h : History τ) (m : Value) (log : ℕ) : Prop where
  manifest : h.manifest = some m
  present : w.present = true
  linked : w.linked = true
  acked : h.acked.Sublist h.committed
  inputs : h.acked.map (fun e => (e.kind, e.epoch, e.body)) = h.inputs
  safe : Safe C w.disk m log {log} h.Allowed
  handle : ∀ j, w.journal = some j → j.log = log ∧
    (j.writeFailed = false → h.inflight = none ∧ Current C w.disk j m h.committed)

/-- Before that: no caller has been told of a journal, and none is to be found but an empty one,
    which needs a directory that its parent has been synced for. -/
structure Waiting (w : World τ) : Prop where
  journal : w.journal = none
  safe : w.present = true → ∃ m log, Safe C w.disk m log {log} Unborn
  unlinked : w.present = true → w.linked = false → NoHead w.disk

/-- **The invariant**: nothing has been acknowledged yet, or the journal is established. -/
def Consistent (s : Observed τ) : Prop :=
  (s.history = .start ∧ Waiting C s.world) ∨ ∃ m log, Established C s.world s.history m log

variable {C}

lemma consistent_start : Consistent C (.start : Observed τ) :=
  .inl ⟨rfl, rfl, fun h => (by cases h), fun h => (by cases h)⟩

/-! ## What opening finds -/

section Opening

variable {d : Disk FileName} {m : Value} {log : ℕ} {S : Set ℕ} {es es' : List (Entry τ)}
  {j : Journal} {w : World τ}

/-- The handle that opening the sequence `es` gives. -/
def handleFor (C : Codec τ) (d : Disk FileName) (m : Value) (log : ℕ) (es : List (Entry τ)) :
    Journal :=
  ⟨log, m, headOf C m es, (d.body log).data.length - (headOf C m es).journalBytes.toNat, false⟩

lemma Holds.opens (h : Holds C d m log S d.dir es) : Opens C d (handleFor C d m log es) es := by
  obtain ⟨hc, ⟨i, hi, -, hsi⟩, ⟨k, hk, -, hsk⟩, hl, hkeeps⟩ := h
  refine ⟨⟨k, hk, ?_⟩, hc.object, ⟨i, hi, ?_⟩, rfl, hl, hc.verified hkeeps.prefix_data, rfl, rfl⟩
  · rw [hsk.2.1]
    exact hc.manifest
  · rw [hsi.2.1]
    exact hc.head

/-- **A directory that holds a sequence opens as that sequence only.** -/
lemma Holds.opens_unique (hC : C.Lawful) (h : Holds C d m log S d.dir es)
    (ho : Opens C d j es') : es' = es ∧ j = handleFor C d m log es := by
  obtain ⟨hc, ⟨i, hi, -, hsi⟩, ⟨k, hk, -, hsk⟩, hl, hkeeps⟩ := h
  obtain ⟨⟨k', hk', hrm⟩, -, ⟨i', hi', hrh⟩, -, hl', hv, htail, hfailed⟩ := ho
  obtain rfl : k = k' := Option.some.inj (hk.symm.trans hk')
  obtain rfl : i = i' := Option.some.inj (hi.symm.trans hi')
  rw [hsk.2.1] at hrm
  rw [hsi.2.1] at hrh
  have hm : j.manifest = m := record_inj hC Serde.lawful_value hrm hc.manifest
  have hh : j.head = headOf C m es := record_inj hC Serde.lawful_head hrh hc.head
  have hlog : j.log = log := Option.some.inj (hl'.symm.trans hl)
  rw [hh, hlog] at hv htail
  refine ⟨hv.unique hC (hc.verified hkeeps.prefix_data), ?_⟩
  cases j
  simp_all [handleFor]

variable {i : ℕ}

lemma exposed_eq (hC : C.Lawful) (hj : w.journal = some j)
    (hdir : w.disk.dir .JournalJsonl = some i) (hv : Verified C j.head (w.disk.body i).data es) :
    exposed C w = es := by
  have hrun : Runs (j.replay C) { w with delivered := [] } ()
      { w with delivered := [] ++ es } := replay_runs hC hdir hv
  have hexposed : exposed C w = (j.replay C [] { w with delivered := [] }).2.2.delivered := by
    simp only [exposed, hj]
  rw [hexposed, show j.replay C [] { w with delivered := [] } = _ from hrun]
  rfl

lemma withLock_body (d : Disk FileName) (hi : i < d.fresh) : (withLock d).body i = d.body i := by
  unfold withLock
  split_ifs
  · rfl
  · simp only [Disk.create, Function.update_of_ne (Nat.ne_of_lt hi)]

/-- What a safe disk opens as: one of the allowed sequences, which the handle then describes. -/
lemma Safe.opened (hC : C.Lawful) {A : Option (List (Entry τ)) → Prop}
    (h : Safe C d m log {log} A) (ho : Opens C (withLock d) j es) :
    A (some es) ∧ j.log = log ∧ Current C (withLock d).syncDir j m es := by
  rcases safe_withLock h (withLock d).dir (Disk.dir_mem_dirs _) with ⟨-, hnone⟩ | ⟨fs, hA, hholds⟩
  · obtain ⟨i, hi, -⟩ := ho.head
    rw [hnone] at hi
    cases hi
  · obtain ⟨rfl, rfl⟩ := hholds.opens_unique hC ho
    have hsync := hholds.mono (preserves_syncDir (S := {log})) rfl rfl rfl
    refine ⟨hA, rfl, rfl, rfl, safe_of_holds rfl hsync, ?_⟩
    have hlen := hholds.keeps.prefix_data.length_le
    show ((withLock d).body log).data.length = _ +
      (((withLock d).body log).data.length - (headOf C m es).journalBytes.toNat)
    rw [hholds.committed.toNat_journalBytes]
    omega

end Opening

/-! ## Steps -/

section Steps

variable {w : World τ} {h : History τ} {m : Value} {log : ℕ}

/-- An append that is refused touches nothing. -/
lemma append_of_stage_error {j : Journal} {kind : String} {epoch : UInt64} {body : Value} {now : τ}
    {x : Error} (hx : j.stage C kind epoch body now = .error x) (plan : List Fate) (w : World τ) :
    j.append C kind epoch body now plan w = (.failed x, plan, w) := by
  show Prog.andThen (.ofExcept (j.stage C kind epoch body now)) _ plan w = _
  rw [hx]
  rfl

variable {w' : World τ}

/-- What a step does to an established journal: it stays one, what is committed is only added to,
    and so is the log, unless power fails. -/
structure Advances (C : Codec τ) (w : World τ) (h : History τ) (m : Value) (log : ℕ) (w' : World τ)
    (h' : History τ) : Prop where
  established : Established C w' h' m log
  committed : h.committed <+: h'.committed
  log : (w.disk.body log).data <+: (w'.disk.body log).data

/-- Nothing has been learnt and the log has not been touched. -/
lemma Advances.same (he : Established C w' h m log) (hbody : w'.disk.body log = w.disk.body log) :
    Advances C w h m log w' h :=
  ⟨he, List.prefix_refl _, by rw [hbody]⟩

/-- Losing the handle loses nothing else. -/
lemma Established.drop (he : Established C w h m log) :
    Established C { w with journal := none } h m log :=
  ⟨he.manifest, he.present, he.linked, he.acked, he.inputs, he.safe, fun _ h => by cases h⟩

lemma Advances.drop {h' : History τ} (ha : Advances C w h m log w' h') :
    Advances C w h m log { w' with journal := none } h' :=
  ⟨ha.established.drop, ha.committed, ha.log⟩

section

variable (he : Established C w h m log)

include he

/-- The disk changes by a lock file or a directory sync at most. -/
lemma Established.onlyLocked (hw : OnlyLocked w w') : Established C w' h m log := by
  have hkeep : ∀ d, Safe C d m log {log} h.Allowed →
      (∀ A, Safe C w.disk m log {log} A → Safe C d m log {log} A) →
      (∀ i, i < w.disk.fresh → d.body i = w.disk.body i) →
      Established C { w with disk := d } h m log := by
    intro d hsafe hall hbody
    refine ⟨he.manifest, he.present, he.linked, he.acked, he.inputs, hsafe, ?_⟩
    intro j hj
    obtain ⟨rfl, hcur⟩ := he.handle j hj
    refine ⟨rfl, fun hf => ?_⟩
    obtain ⟨hin, hcur⟩ := hcur hf
    refine ⟨hin, hcur.manifest, hcur.head, hall _ hcur.safe, ?_⟩
    rw [hbody _ hcur.holds.keeps.1]
    exact hcur.tail
  rcases hw with rfl | rfl | rfl
  · exact he
  · exact hkeep _ (safe_withLock he.safe) (fun A hA => safe_withLock hA) fun i hi =>
      withLock_body _ hi
  · exact hkeep _ (safe_withLock he.safe).syncDir (fun A hA => (safe_withLock hA).syncDir)
      fun i hi => withLock_body _ hi

/-- Something allowed is on the disk as it is now. -/
lemma Established.holds : ∃ es, h.Allowed (some es) ∧ Holds C w.disk m log {log} w.disk.dir es := by
  rcases he.safe w.disk.dir w.disk.dir_mem_dirs with ⟨hnone, -⟩ | hsome
  · rcases hnone with hnone | ⟨_, -, hnone⟩ <;> cases hnone
  · exact hsome

lemma Established.advances_onlyLocked (hw : OnlyLocked w w') : Advances C w h m log w' h := by
  obtain ⟨es, -, hholds⟩ := he.holds
  refine .same (he.onlyLocked hw) ?_
  rcases hw with rfl | rfl | rfl
  · rfl
  · exact withLock_body _ hholds.keeps.1
  · exact withLock_body _ hholds.keeps.1

/-- A second creation in the same place is refused. -/
lemma Established.create (hC : C.Lawful) (manifest : Value) (plan : List Fate) :
    Advances C w h m log (w.step C (.Create manifest plan))
      (h.next C w (.Create manifest plan)) := by
  have hsame : Advances C w h m log w h := .same he rfl
  have hbegun : ∀ w', Begun C w w' → w' = w := by
    rintro w' (hw | ⟨hp, -⟩)
    · exact hw
    · rw [he.present] at hp
      cases hp
  have ht := create_triple (m := manifest) hC w plan w rfl
  simp only [World.step, History.next]
  rcases hrun : Journal.create C manifest plan w with ⟨o, plan', w'⟩
  rw [hrun] at ht
  cases o with
  | done _ =>
    have hp := ht.1
    rw [he.present] at hp
    cases hp
  | failed e =>
    rw [hbegun w' ht]
    exact hsame
  | stopped =>
    rw [hbegun w' ht]
    exact hsame.drop

lemma Established.open (hC : C.Lawful) (plan : List Fate) :
    Advances C w h m log (w.step C (.Open plan)) (h.next C w (.Open plan)) := by
  have ht := open_triple hC w plan w rfl
  simp only [World.step, History.next]
  rcases hrun : Journal.«open» C plan w with ⟨o, plan', w'⟩
  rw [hrun] at ht
  cases o with
  | done _ =>
    obtain ⟨-, -, j, es, ho, rfl⟩ := ht
    obtain ⟨hA, hlog, hcur⟩ := he.safe.opened hC ho
    obtain ⟨fs, -, hholds⟩ := he.holds
    have hexp := exposed_eq (w := { w with disk := (withLock w.disk).syncDir, journal := some j })
      hC rfl ho.log ho.verified
    -- the committed sequence is a prefix of whatever is allowed
    have hpre : h.committed <+: es := by
      rcases hA with hA | ⟨e, -, hA⟩
      · rw [Option.some.inj hA]
      · rw [Option.some.inj hA]
        exact List.prefix_append _ _
    simp only [afterRun, hexp]
    subst hlog
    refine ⟨⟨congrArg some hcur.manifest, he.present, he.linked, he.acked.trans hpre.sublist,
      he.inputs, ?_, ?_⟩, hpre, ?_⟩
    · exact hcur.safe.weaken (fun x hx => .inl hx) (subset_refl _)
    · intro j' hj'
      cases hj'
      exact ⟨rfl, fun _ => ⟨rfl, hcur⟩⟩
    · show _ <+: ((withLock w.disk).body j.log).data
      rw [withLock_body _ hholds.keeps.1]
  | failed e => exact he.advances_onlyLocked ht
  | stopped => exact (he.advances_onlyLocked ht).drop

lemma Established.append (hC : C.Lawful) (kind : String)
    (epoch : UInt64) (body : Value) (now : τ) (plan : List Fate) :
    Advances C w h m log (w.step C (.Append kind epoch body now plan))
      (h.next C w (.Append kind epoch body now plan)) := by
  have hsame : Advances C w h m log w h := .same he rfl
  cases hj : w.journal with
  | none =>
    simp only [World.step, History.next, hj]
    exact hsame
  | some j =>
    simp only [World.step, History.next, hj]
    cases hst : j.stage C kind epoch body now with
    | error x =>
      rw [append_of_stage_error hst]
      exact hsame
    | ok st =>
      obtain ⟨-, hfailed, -⟩ := stage_inv hst
      obtain ⟨rfl, hcur⟩ := he.handle j hj
      obtain ⟨hin, hcur⟩ := hcur hfailed
      obtain ⟨-, -, -, hkind, hepoch, hbody, -, -, -⟩ :=
        stage_ok hC hcur.holds.committed.toAdmissible hcur.head hst
      have htriple : Triple (· = w) (j.append C kind epoch body now) _ _ _ := append_triple hC hcur
      have ht := htriple plan w rfl
      -- an append cut short leaves its entry in flight
      have hcut : ∀ w', Interrupted C m h.committed st.entry j w w' →
          Advances C w h m j.log w' { h with inflight := some st.entry } := by
        rintro w' ⟨d, rfl, hsafe, hgrow⟩
        refine ⟨⟨he.manifest, he.present, he.linked, he.acked, he.inputs, ?_, ?_⟩,
          List.prefix_refl _, hgrow⟩
        · refine hsafe.weaken (fun x hx => ?_) (subset_refl _)
          exact hx.imp id fun hx => ⟨st.entry, rfl, hx⟩
        · intro j' hj'
          cases hj'
          exact ⟨rfl, fun hf => by cases hf⟩
      rcases hrun : j.append C kind epoch body now plan w with ⟨o, plan', w'⟩
      rw [hrun] at ht
      cases o with
      | done e =>
        obtain ⟨st', hst', rfl, d, rfl, hcur', hgrow⟩ := ht
        obtain rfl : st' = st := Except.ok.inj (hst'.symm.trans hst)
        refine ⟨⟨he.manifest, he.present, he.linked, ?_, ?_, ?_, ?_⟩, ?_, hgrow⟩
        · exact he.acked.append (.refl _)
        · rw [List.map_append, he.inputs]
          simp [hkind, hepoch, hbody]
        · exact hcur'.safe.weaken (fun x hx => .inl hx) (subset_refl _)
        · intro j' hj'
          cases hj'
          exact ⟨rfl, fun _ => ⟨hin, hcur'⟩⟩
        · exact List.prefix_append _ _
      | failed x =>
        rcases ht with ⟨hx, -⟩ | ⟨st', hst', hint⟩
        · rw [hst] at hx
          cases hx
        · obtain rfl : st' = st := Except.ok.inj (hst'.symm.trans hst)
          exact hcut w' hint
      | stopped =>
        obtain ⟨st', hst', hint⟩ := ht
        obtain rfl : st' = st := Except.ok.inj (hst'.symm.trans hst)
        exact (hcut w' hint).drop

lemma Established.replay (hC : C.Lawful) (plan : List Fate) :
    Advances C w h m log (w.step C (.Replay plan)) (h.next C w (.Replay plan)) := by
  have hshown : ∀ es, Advances C w h m log { w with delivered := es } h := fun es =>
    .same ⟨he.manifest, he.present, he.linked, he.acked, he.inputs, he.safe, he.handle⟩ rfl
  have hpartly : ∀ j w', PartlyReplayed C j w w' → Advances C w h m log w' h := by
    rintro j w' (rfl | ⟨i, es, fs, -, -, -, rfl⟩)
    · exact hshown w'.delivered
    · exact hshown _
  cases hj : w.journal with
  | none =>
    simp only [World.step, History.next, hj]
    exact hshown w.delivered
  | some j =>
    simp only [World.step, History.next, hj]
    have htriple : Triple (· = w) (j.replay C) _ _ _ := replay_triple hC
    have ht := htriple plan w rfl
    rcases hrun : j.replay C plan w with ⟨o, plan', w'⟩
    rw [hrun] at ht
    cases o with
    | done _ =>
      obtain ⟨i, es, -, -, rfl⟩ := ht
      exact hshown _
    | failed e => exact hpartly j w' ht
    | stopped => exact (hpartly j w' ht).drop

/-- Power may fail at any time. -/
lemma Established.powerCut (pick : ℕ) (tail : ℕ → Bytes)
    (kept : Bool) : Established C (w.powerCut pick tail kept) h m log := by
  unfold World.powerCut
  rw [he.present, he.linked]
  simp only [Bool.true_or, Bool.and_self, if_true]
  exact ⟨he.manifest, rfl, rfl, he.acked, he.inputs, he.safe.powerCut pick tail,
    fun _ hj => by cases hj⟩

/-- **The step lemma for an established journal.** -/
lemma Established.step (hC : C.Lawful) (ev : Event τ) :
    Established C (w.step C ev) (h.next C w ev) m log ∧ h.committed <+: (h.next C w ev).committed ∧
      ((∀ pick tail kept, ev ≠ .PowerCut pick tail kept) →
        (w.disk.body log).data <+: ((w.step C ev).disk.body log).data) := by
  have hadv : ∀ {w' h'}, Advances C w h m log w' h' →
      Established C w' h' m log ∧ h.committed <+: h'.committed ∧
        ((∀ pick tail kept, ev ≠ .PowerCut pick tail kept) →
          (w.disk.body log).data <+: (w'.disk.body log).data) :=
    fun ha => ⟨ha.established, ha.committed, fun _ => ha.log⟩
  cases ev with
  | Create manifest plan => exact hadv (he.create hC manifest plan)
  | Open plan => exact hadv (he.open hC plan)
  | Append kind epoch body now plan => exact hadv (he.append hC kind epoch body now plan)
  | Replay plan => exact hadv (he.replay hC plan)
  | Close => exact hadv (Advances.same he.drop rfl)
  | PowerCut pick tail kept =>
    exact ⟨he.powerCut pick tail kept, List.prefix_refl _, fun h => absurd rfl (h pick tail kept)⟩

end

/-! ### Before anything has been acknowledged -/

section

variable (hw : Waiting C w)

include hw

lemma Waiting.begun (hb : Begun C w w') : Waiting C w' := by
  rcases hb with rfl | ⟨-, d, linked, rfl, hhead, m, log, hsafe⟩
  · exact hw
  · exact ⟨hw.journal, fun _ => ⟨m, log, hsafe⟩, fun _ => hhead⟩

lemma Waiting.onlyLocked (ho : OnlyLocked w w') : Waiting C w' := by
  rcases ho with rfl | rfl | rfl
  · exact hw
  · refine ⟨hw.journal, fun hp => ?_, fun hp hl => (hw.unlinked hp hl).withLock⟩
    obtain ⟨m, log, hsafe⟩ := hw.safe hp
    exact ⟨m, log, safe_withLock hsafe⟩
  · refine ⟨hw.journal, fun hp => ?_, fun hp hl => (hw.unlinked hp hl).withLock.syncDir⟩
    obtain ⟨m, log, hsafe⟩ := hw.safe hp
    exact ⟨m, log, (safe_withLock hsafe).syncDir⟩

lemma Waiting.drop : Waiting C { w with journal := none } := ⟨rfl, hw.safe, hw.unlinked⟩

lemma Waiting.consistent : Consistent C ⟨w, .start⟩ := .inl ⟨rfl, hw⟩

lemma Waiting.create (hC : C.Lawful) (manifest : Value) (plan : List Fate) :
    Consistent C (.step C ⟨w, .start⟩ (.Create manifest plan)) := by
  have ht := create_triple (m := manifest) hC w plan w rfl
  simp only [Observed.step, World.step, History.next]
  rcases hrun : Journal.create C manifest plan w with ⟨o, plan', w'⟩
  rw [hrun] at ht
  cases o with
  | done _ =>
    obtain ⟨-, -, d, log, rfl, hcur⟩ := ht
    refine .inr ⟨manifest, log, rfl, rfl, rfl, .refl _, rfl, ?_, ?_⟩
    · exact hcur.safe.weaken (fun x hx => .inl hx) (subset_refl _)
    · intro j hj
      cases hj
      exact ⟨rfl, fun _ => ⟨rfl, hcur⟩⟩
  | failed e => exact (hw.begun ht).consistent
  | stopped => exact (hw.begun ht).drop.consistent

lemma Waiting.open (hC : C.Lawful) (plan : List Fate) :
    Consistent C (.step C ⟨w, .start⟩ (.Open plan)) := by
  have ht := open_triple hC w plan w rfl
  simp only [Observed.step, World.step, History.next]
  rcases hrun : Journal.«open» C plan w with ⟨o, plan', w'⟩
  rw [hrun] at ht
  cases o with
  | done _ =>
    obtain ⟨hp, -, j, es, ho, rfl⟩ := ht
    obtain ⟨m, log, hsafe⟩ := hw.safe hp
    obtain ⟨hA, rfl, hcur⟩ := hsafe.opened hC ho
    have hes : es = [] := by
      rcases hA with hA | hA
      · cases hA
      · exact Option.some.inj hA
    subst hes
    -- a directory that could still vanish has no head to open
    have hlinked : w.linked = true := by
      by_contra hl
      obtain ⟨i, hi, -⟩ := ho.head
      have hnone := (hw.unlinked hp (by simpa using hl)).withLock
      rw [hnone _ (Disk.dir_mem_dirs _)] at hi
      cases hi
    have hexp := exposed_eq (w := { w with disk := (withLock w.disk).syncDir, journal := some j })
      hC rfl ho.log ho.verified
    simp only [afterRun, hexp]
    refine .inr ⟨m, j.log, congrArg some hcur.manifest, hp, hlinked, .refl _, rfl, ?_, ?_⟩
    · exact hcur.safe.weaken (fun x hx => .inl hx) (subset_refl _)
    · intro j' hj'
      cases hj'
      exact ⟨rfl, fun _ => ⟨rfl, hcur⟩⟩
  | failed e => exact (hw.onlyLocked ht).consistent
  | stopped => exact (hw.onlyLocked ht).drop.consistent

lemma Waiting.powerCut (pick : ℕ) (tail : ℕ → Bytes) (kept : Bool) :
    Waiting C (w.powerCut pick tail kept) := by
  unfold World.powerCut
  split_ifs with hcut
  · refine ⟨rfl, fun hp => ?_, fun _ hl => by cases hl⟩
    obtain ⟨m, log, hsafe⟩ := hw.safe hp
    exact ⟨m, log, hsafe.powerCut pick tail⟩
  · exact ⟨rfl, fun hp => (by cases hp), fun hp => (by cases hp)⟩

end

lemma Consistent.step (hC : C.Lawful) (s : Observed τ) (ev : Event τ) (hs : Consistent C s) :
    Consistent C (s.step C ev) := by
  rcases hs with ⟨hh, hw⟩ | ⟨m, log, he⟩
  · obtain ⟨w, h⟩ := s
    simp only at hh hw
    subst hh
    cases ev with
    | Create manifest plan => exact hw.create hC manifest plan
    | Open plan => exact hw.open hC plan
    | Append kind epoch body now plan =>
      simp only [Observed.step, World.step, History.next, hw.journal]
      exact hw.consistent
    | Replay plan =>
      simp only [Observed.step, World.step, History.next, hw.journal]
      exact hw.consistent
    | Close => exact hw.drop.consistent
    | PowerCut pick tail kept => exact (hw.powerCut pick tail kept).consistent
  · exact Or.inr ⟨m, log, (he.step hC ev).1⟩

end Steps

/-- **The invariant holds along every run.** -/
theorem consistent_run (hC : C.Lawful) (events : List (Event τ)) :
    Consistent C (Transition.run (.step C) .start events) :=
  Transition.run_invariant (fun s ev hs => hs.step hC s ev) consistent_start events

end Evidence

end Rauha
