import Rauha.Evidence.TextCodec
import Rauha.Library.Lines
import Rauha.Library.Text
import Rauha.Shim.Output

/-!
# The record of decisions

The broker writes a line of JSON for every decision to a bounded log.  When a sandbox has ended the
daemon reads the log, up to a limit of its own, with a reader and a schema of its own, and lists the
issues it has met: what it returns is taken for all there was if there are none.

**The writer.**  `DecisionLog` numbers the decisions and hands them to a `BoundedLog` as whole
records.  It can fail to open, stop after an error, be dropped, and be killed at any call.

**The reader.**  `readDecisionsCapped` looks for the marker first and reads the log later, so that
the writer may have gone on in between.

`broker_evidence_iff` says when the reader can be trusted: always, but for a log that is complete
and cannot be opened.
-/

namespace Rauha.Decisions

open CrashLogic Transition Output List

/-! ## Records -/

/-- What is to be recorded: the arguments of `record`, and the time at which it is called. -/
structure Decision where
  tsMs : UInt64
  id : UInt64
  syscall : String
  tid : UInt32
  path : List UInt8
  errno : Int32
  reason : Option String
  deriving DecidableEq, Repr

structure Record where
  seq : UInt64
  tsMs : UInt64
  notifId : UInt64
  tid : UInt32
  syscall : String
  path : String
  decision : String
  errno : Int32
  reason : Option String
  deriving DecidableEq, Repr

def Decision.toRecord (d : Decision) (seq : UInt64) : Record where
  seq := seq
  tsMs := d.tsMs
  notifId := d.id
  tid := d.tid
  syscall := d.syscall
  path := String.ofList (Utf8.decodeLossy d.path)
  decision := if d.reason.isSome then "denied" else "granted"
  errno := d.errno
  reason := d.reason

lemma errno_bound (n : Int32) : (-n.toInt - 1).toNat < 2 ^ 63 := by
  have := n.le_toInt
  omega

def ofI32 (n : Int32) : JsonNumber :=
  if 0 ≤ n.toInt then .posInt (UInt64.ofNat n.toInt.toNat)
  else .negInt ⟨(-n.toInt - 1).toNat, errno_bound n⟩

def ofOption : Option String → Json
  | none => .null
  | some s => .string s

def Record.toJson (r : Record) : Json :=
  .object [
    ("seq", .number (.posInt r.seq)),
    ("ts_ms", .number (.posInt r.tsMs)),
    ("notif_id", .number (.posInt r.notifId)),
    ("tid", .number (.posInt r.tid.toUInt64)),
    ("syscall", .string r.syscall),
    ("path", .string r.path),
    ("decision", .string r.decision),
    ("errno", .number (ofI32 r.errno)),
    ("reason", ofOption r.reason)]

variable (J : JsonFormat Evidence.readerDepth)

/-- The line of a record. -/
def Record.text (r : Record) : List Char := J.write r.toJson ++ ['\n']

/-! ## The writer -/

/-- `file` says whether there is a log, and `session` what is on disk and whether the process still
    runs. -/
structure DecisionLog where
  session : Session
  file : Bool
  seq : UInt64
  disabled : Bool

namespace DecisionLog

/-- Open a log, if its size is configured right. -/
def openLog (limit : Option UInt64) (plan : List Fate) (dir : BoundedLog) : DecisionLog :=
  match limit with
  | none => ⟨⟨dir, true⟩, false, 0, true⟩
  | some limit =>
    match BoundedLog.openLog limit.toNat plan dir with
    | (.done (), _, log) => ⟨⟨log, true⟩, true, 0, false⟩
    | (.failed _, _, log) => ⟨⟨log, true⟩, false, 0, true⟩
    | (.stopped, _, log) => ⟨⟨log, false⟩, false, 0, true⟩

def record (log : DecisionLog) (d : Decision) (fate : Fate) : DecisionLog :=
  if !log.session.running || !log.file || log.disabled then log
  else
    let seq := log.seq + 1
    let line := Utf8.encode ((d.toRecord seq).text J)
    { log with
      session := log.session.write ⟨line, true, fate⟩
      seq := seq
      disabled :=
        match BoundedLog.write line true [fate] log.session.log with
        | (.failed _, _) => true
        | _ => false }

def drop (log : DecisionLog) (plan : List Fate) : DecisionLog :=
  if log.file then { log with session := log.session.finish plan, file := false } else log

end DecisionLog

inductive Event where
  | record (d : Decision) (fate : Fate)
  | drop (plan : List Fate)

def step (log : DecisionLog) : Event → DecisionLog
  | .record d fate => log.record J d fate
  | .drop plan => log.drop plan

/-- The decisions that are handed to a log before it is dropped. -/
def submitted : List Event → List Decision
  | [] => []
  | .record d _ :: es => d :: submitted es
  | .drop _ :: _ => []

/-- Decisions with their numbers. -/
def records (ds : List Decision) : List Record :=
  ds.mapIdx fun i d => d.toRecord (UInt64.ofNat (i + 1))

/-- **The decisions recorded**; without a log none is. -/
def recorded (log : DecisionLog) (es : List Event) : List Record :=
  if log.file then records (submitted es) else []

/-! ## The reader -/

structure BrokerDecision where
  seq : UInt64
  tsMs : UInt64
  notifId : UInt64
  tid : UInt32
  syscall : String
  path : String
  decision : String
  errno : Int64
  reason : Option String
  deriving DecidableEq, Repr

/-- A record, as it is to be read. -/
def Record.toBrokerDecision (r : Record) : BrokerDecision where
  seq := r.seq
  tsMs := r.tsMs
  notifId := r.notifId
  tid := r.tid
  syscall := r.syscall
  path := r.path
  decision := r.decision
  errno := r.errno.toInt64
  reason := r.reason

def asU32 : Json → Option UInt32
  | .number (.posInt n) => if n.toNat < 2 ^ 32 then some n.toUInt32 else none
  | _ => none

def asI64 : Json → Option Int64
  | .number (.posInt n) => if n.toNat < 2 ^ 63 then some (.ofInt n.toNat) else none
  | .number (.negInt m) => some (.ofInt (-(m.val + 1)))
  | _ => none

def asOption : Json → Option (Option String)
  | .null => some none
  | j => (Evidence.asStr j).map some

/-- The value of a field, if it is there; it must not be there twice. -/
def uniqueField (name : String) (fields : List (String × Json)) : Option (Option Json) :=
  match fields.filter fun f => f.1 = name with
  | [] => some none
  | [f] => some (some f.2)
  | _ => none

def requiredField (name : String) (fields : List (String × Json)) : Option Json :=
  (uniqueField name fields).bind id

/-- The fields in the order of declaration: fields of other names are skipped, and only `reason` may
    be missing. -/
def fieldsOf : Json → Option (List Json)
  | .object fields => do
    let values ← ["seq", "ts_ms", "notif_id", "tid", "syscall", "path", "decision",
      "errno"].mapM fun name => requiredField name fields
    let reason ← uniqueField "reason" fields
    some (values ++ [reason.getD .null])
  | .array items => some items
  | _ => none

def BrokerDecision.ofJson (j : Json) : Option BrokerDecision := do
  match ← fieldsOf j with
  | [seq, tsMs, notifId, tid, syscall, path, decision, errno, reason] =>
    some {
      seq := ← Evidence.asU64 seq
      tsMs := ← Evidence.asU64 tsMs
      notifId := ← Evidence.asU64 notifId
      tid := ← asU32 tid
      syscall := ← Evidence.asStr syscall
      path := ← Evidence.asStr path
      decision := ← Evidence.asStr decision
      errno := ← asI64 errno
      reason := ← asOption reason }
  | _ => none

def BrokerDecision.fromStr (line : List Char) : Option BrokerDecision :=
  (J.read line).bind BrokerDecision.ofJson

/-- A line without its end. -/
def stripLine (piece : List Char) : List Char :=
  match Text.stripSuffix ['\n'] piece with
  | none => piece
  | some line => (Text.stripSuffix ['\r'] line).getD line

def lines (text : List Char) : List (List Char) := (Lines.splitLines '\n' text).map stripLine

/-- What goes wrong when the log is read. -/
inductive ReadFault where
  | none
  | openFailed
  | readFailed
  deriving DecidableEq, Repr

/-- The bytes that are looked at; one more than the limit is read. -/
def preview (maxBytes : UInt64) (content : List UInt8) : Bool × List UInt8 :=
  let bytes := content.take (min (maxBytes.toNat + 1) (2 ^ 64 - 1))
  (decide (maxBytes.toNat < bytes.length), bytes.take maxBytes.toNat)

def parseLines (bytes : List UInt8) : List (Option BrokerDecision) :=
  ((lines (Utf8.decodeLossy bytes)).filter (· ≠ [])).map (BrokerDecision.fromStr J)

/-- The issues and the decisions; `marker` is whether the marker is there, and `file` is what is
    found when the log is opened. -/
def readDecisionsCapped (maxBytes : UInt64) (marker : Bool) (file : Option (List UInt8))
    (fault : ReadFault) : List String × List BrokerDecision :=
  let issues := if marker then ["broker.storage_incomplete"] else []
  match if fault = .openFailed then none else file with
  | none => (issues, [])
  | some content =>
    if fault = .readFailed then (issues ++ ["broker.read_failed"], [])
    else
      let (truncated, bytes) := preview maxBytes content
      let issues := if truncated then issues ++ ["broker.preview_truncated"] else issues
      let parsed := parseLines J bytes
      (if none ∈ parsed then issues ++ ["broker.malformed_records"] else issues,
        parsed.filterMap id)

/-- **What the daemon is to be told** of the decisions recorded: the first of them, in the order of
    their numbers, and that there is an issue if some are missing. -/
structure Faithful (recorded : List Record) (result : List String × List BrokerDecision) :
    Prop where
  head : ∃ k, result.2 = (recorded.take k).map Record.toBrokerDecision
  ordered : (result.2.map (·.seq)).Pairwise (· < ·)
  told : result.2.length < recorded.length → result.1 ≠ []

/-! ## One line -/

lemma asI64_ofI32 (n : Int32) : asI64 (.number (ofI32 n)) = some n.toInt64 := by
  have hlow := n.le_toInt
  have hhigh := n.toInt_lt
  have hsame : .ofInt n.toInt = n.toInt64 := by
    rw [← Int64.toInt_inj, Int64.toInt_ofInt_of_le (by omega) (by omega), Int32.toInt_toInt64]
  unfold ofI32
  split_ifs with hsign
  · have hnat : (UInt64.ofNat n.toInt.toNat).toNat = n.toInt.toNat := by
      rw [UInt64.toNat_ofNat']
      omega
    rw [asI64, hnat, if_pos (by omega), ← hsame, Int.toNat_of_nonneg hsign]
  · have hint : -(((-n.toInt - 1).toNat : ℤ) + 1) = n.toInt := by omega
    rw [asI64, hint, hsame]

lemma asU32_toUInt64 (n : UInt32) : asU32 (.number (.posInt n.toUInt64)) = some n := by
  have := n.toNat_lt
  rw [asU32, UInt32.toNat_toUInt64, if_pos (by omega), UInt32.toUInt32_toUInt64]

lemma asOption_ofOption (reason : Option String) : asOption (ofOption reason) = some reason := by
  cases reason <;> rfl

/-- **A record reads back.** -/
lemma ofJson_toJson (r : Record) : BrokerDecision.ofJson r.toJson = some r.toBrokerDecision := by
  have hfields : fieldsOf r.toJson = some [.number (.posInt r.seq), .number (.posInt r.tsMs),
      .number (.posInt r.notifId), .number (.posInt r.tid.toUInt64), .string r.syscall,
      .string r.path, .string r.decision, .number (ofI32 r.errno), ofOption r.reason] := rfl
  rw [BrokerDecision.ofJson, hfields]
  simp [Evidence.asU64, Evidence.asStr, asU32_toUInt64, asI64_ofI32, asOption_ofOption,
    Record.toBrokerDecision]

lemma depth_toJson (r : Record) : r.toJson.depth ≤ Evidence.readerDepth := by
  have hreason : (ofOption r.reason).depth = 0 := by cases r.reason <;> rfl
  simp [Record.toJson, Json.depth, Json.depthFields, hreason, Evidence.readerDepth]

lemma fromStr_write (r : Record) :
    BrokerDecision.fromStr J (J.write r.toJson) = some r.toBrokerDecision := by
  rw [BrokerDecision.fromStr, J.read_write _ (depth_toJson r)]
  exact ofJson_toJson r

variable {J}

variable {r : Record} {part more : List Char}

/-- **Of part of a record nothing is read.** -/
lemma fromStr_cut (h : J.write r.toJson = part ++ more) (hmore : more ≠ []) :
    BrokerDecision.fromStr J part = none := by
  rw [BrokerDecision.fromStr, J.read_cut h hmore]
  rfl

/-- Nor if it is cut inside a character. -/
lemma fromStr_marked (h : J.write r.toJson = part ++ more) :
    BrokerDecision.fromStr J (part ++ [Utf8.replacement]) = none := by
  rw [BrokerDecision.fromStr, J.read_marked h]
  rfl

lemma isLine_text (r : Record) : Lines.IsLine '\n' (r.text J) := ⟨_, rfl, J.newline_notMem _⟩

/-- A written line ends in its line end only. -/
lemma stripLine_text (r : Record) : stripLine (r.text J) = J.write r.toJson := by
  have hend : Text.stripSuffix ['\n'] (r.text J) = some (J.write r.toJson) :=
    Text.stripSuffix_append _ _
  have hlast : Text.stripSuffix ['\r'] (J.write r.toJson) = none := by
    rw [Text.stripSuffix, if_neg]
    rintro ⟨pre, hpre⟩
    exact J.return_notMem r.toJson (by simp [← hpre])
  simp only [stripLine, hend, hlast, Option.getD_none]

lemma stripLine_of_notMem {piece : List Char} (h : '\n' ∉ piece) : stripLine piece = piece := by
  rw [stripLine, Text.stripSuffix, if_neg]
  rintro ⟨pre, rfl⟩
  exact h (by simp)

/-- The lines of whole records, and of what follows them. -/
lemma map_fromStr_lines (rs : List Record) {tail : List Char} (htail : '\n' ∉ tail) :
    ((lines ((rs.map (Record.text J)).flatten ++ tail)).filter (· ≠ [])).map
        (BrokerDecision.fromStr J) =
      rs.map (fun r => some r.toBrokerDecision) ++
        if tail = [] then [] else [BrokerDecision.fromStr J tail] := by
  have hlines : ∀ line ∈ rs.map (Record.text J), Lines.IsLine '\n' line := by
    intro line hline
    obtain ⟨r, -, rfl⟩ := mem_map.mp hline
    exact isLine_text r
  rw [lines, Lines.splitLines_flatten_append hlines htail, map_append, map_map,
    filter_append, map_append]
  congr 1
  · rw [filter_eq_self.mpr, map_map]
    · refine map_congr_left fun r _ => ?_
      rw [Function.comp_apply, Function.comp_apply, stripLine_text, fromStr_write]
    · intro line hline
      obtain ⟨r, -, rfl⟩ := mem_map.mp hline
      rw [Function.comp_apply, stripLine_text]
      exact decide_eq_true (J.write_ne_nil (depth_toJson r))
  · split_ifs with hnil
    · rfl
    · simp [stripLine_of_notMem htail, hnil]

/-! ## The beginning of a log -/

/-- The text of a whole log. -/
def logText (J : JsonFormat Evidence.readerDepth) (rs : List Record) : List Char :=
  (rs.map (Record.text J)).flatten

lemma filterMap_some (rs : List Record) :
    (rs.map fun r => some r.toBrokerDecision).filterMap id = rs.map Record.toBrokerDecision := by
  simp [filterMap_map]

/-- **A log that is read as a whole** gives all its records. -/
lemma parseLines_all (rs : List Record) :
    (parseLines J (Utf8.encode (logText J rs))).filterMap id = rs.map Record.toBrokerDecision := by
  have h := @map_fromStr_lines J rs [] (by simp)
  rw [append_nil] at h
  rw [parseLines, Utf8.decodeLossy_encode, logText, h, if_pos rfl, append_nil, filterMap_some]

/-- What is read of the line that is cut: nothing, or the record if only the end is missing. -/
lemma fromStr_part {mark : List Char} (hline : r.text J = part ++ more) (hmore : more ≠ [])
    (hmark : mark = [] ∨ mark = [Utf8.replacement]) :
    BrokerDecision.fromStr J (part ++ mark) = none ∨
      BrokerDecision.fromStr J (part ++ mark) = some r.toBrokerDecision := by
  obtain ⟨init, last, rfl⟩ := (eq_nil_or_concat' more).resolve_left hmore
  rw [← append_assoc] at hline
  obtain ⟨htext, -⟩ := append_inj' hline rfl
  rcases hmark with rfl | rfl
  · rw [append_nil]
    by_cases hinit : init = []
    · subst hinit
      rw [append_nil] at htext
      exact .inr (htext ▸ fromStr_write J r)
    · exact .inl (fromStr_cut htext hinit)
  · exact .inl (fromStr_marked htext)

variable {rs : List Record} {bytes : List UInt8}

/-- **The beginning of a log** gives the first of its records. -/
lemma parseLines_cut {more : List UInt8} (h : Utf8.encode (logText J rs) = bytes ++ more)
    (hmore : more ≠ []) :
    ∃ k, (parseLines J bytes).filterMap id = (rs.take k).map Record.toBrokerDecision := by
  obtain ⟨cs, c, cs', hcut, hdecoded⟩ := Utf8.decodeLossy_cut h hmore
  obtain ⟨mark, hmark, hdecoded⟩ : ∃ mark, (mark = [] ∨ mark = [Utf8.replacement]) ∧
      Utf8.decodeLossy bytes = cs ++ mark := by
    rcases hdecoded with heq | heq
    · exact ⟨[], .inl rfl, by rw [heq, append_nil]⟩
    · exact ⟨[Utf8.replacement], .inr rfl, heq⟩
  obtain ⟨before, line, after, part, rest, hlines, rfl, hline, hrest⟩ :=
    Lines.flatten_cut hcut (cons_ne_nil _ _)
  obtain ⟨rs₁, rs₂, rfl, rfl, hafter⟩ := map_eq_append_iff.mp hlines
  obtain ⟨r, rs₂, rfl, rfl, -⟩ := map_eq_cons_iff.mp hafter
  have hpart : '\n' ∉ part ++ mark := by
    have hin := (isLine_text r).notMem_part hline hrest
    rcases hmark with rfl | rfl
    · rwa [append_nil]
    · simpa using ⟨hin, by decide⟩
  have htake : ∀ k, (rs₁ ++ r :: rs₂).take (rs₁.length + k) = rs₁ ++ (r :: rs₂).take k :=
    fun k => take_length_add_append k
  rw [parseLines, hdecoded, append_assoc, map_fromStr_lines rs₁ hpart]
  split_ifs with hnil
  · exact ⟨rs₁.length + 0, by rw [htake]; simp⟩
  · rcases fromStr_part hline hrest hmark with hread | hread
    · exact ⟨rs₁.length + 0, by rw [hread]; simp⟩
    · exact ⟨rs₁.length + 1, by rw [htake, hread]; simp⟩

/-- Every decision is read from at least one byte. -/
lemma length_parseLines_le (bytes : List UInt8) :
    ((parseLines J bytes).filterMap id).length ≤ bytes.length :=
  calc ((parseLines J bytes).filterMap id).length
      ≤ (parseLines J bytes).length := length_filterMap_le _ _
    _ ≤ (lines (Utf8.decodeLossy bytes)).length := by
        rw [parseLines, length_map]
        exact length_filter_le _ _
    _ ≤ (Utf8.decodeLossy bytes).length := by
        rw [lines, length_map]
        exact Lines.length_splitLines_le _ _
    _ ≤ bytes.length := Utf8.length_decodeLossy_le bytes

/-! ## The log in use -/

lemma records_concat (ds : List Decision) (d : Decision) :
    records (ds ++ [d]) = records ds ++ [d.toRecord (UInt64.ofNat (ds.length + 1))] :=
  mapIdx_concat

/-- The bytes of the log of these decisions. -/
def logBytes (J : JsonFormat Evidence.readerDepth) (ds : List Decision) : List UInt8 :=
  Utf8.encode (logText J (records ds))

lemma logBytes_concat (ds : List Decision) (d : Decision) :
    logBytes J (ds ++ [d]) = logBytes J ds ++
      Utf8.encode ((d.toRecord (UInt64.ofNat (ds.length + 1))).text J) := by
  simp [logBytes, logText, records_concat, Utf8.encode]

/-- **A log to which the decisions have been handed.**  Once it is disabled it is incomplete, and
    until then the number of decisions is the last number given. -/
structure InUse (J : JsonFormat Evidence.readerDepth) (limit : ℕ) (ds : List Decision)
    (log : DecisionLog) : Prop where
  file : log.file = true
  keeps : ∃ file, Session.Keeps limit (logBytes J ds) file log.session
  disabled : log.session.running = true → log.disabled = true → log.session.log.incomplete = true
  seq : log.session.running = true → log.disabled = false → log.seq = UInt64.ofNat ds.length

variable {limit : ℕ} {ds : List Decision} {log : DecisionLog}

variable {files : BoundedLog}

/-- A write that fails leaves the log incomplete. -/
lemma incomplete_of_failed {fate : Fate} {e rest}
    (h : BoundedLog.write bytes true [fate] files = (.failed e, rest)) :
    rest.2.incomplete = true := by
  rw [BoundedLog.write_eq] at h
  cases fate with
  | pass => cases h
  | fail n =>
    cases h
    rfl
  | stop n => cases h

lemma InUse.record (h : InUse J limit ds log) (d : Decision) (fate : Fate) :
    InUse J limit (ds ++ [d]) (log.record J d fate) := by
  obtain ⟨file, hkeeps⟩ := h.keeps
  rw [DecisionLog.record]
  by_cases hrunning : log.session.running = true
  · by_cases hdisabled : log.disabled = true
    · rw [if_pos (by simp [hdisabled])]
      refine ⟨h.file, ⟨file, ?_⟩, h.disabled, fun _ hno => ?_⟩
      · rw [logBytes_concat]
        exact hkeeps.extend (fun hr => h.disabled hr hdisabled) _
      · rw [hdisabled] at hno
        cases hno
    · rw [if_neg (by simp [hrunning, h.file, hdisabled])]
      have hseq : log.seq + 1 = UInt64.ofNat (ds.length + 1) := by
        rw [h.seq hrunning (by simpa using hdisabled)]
        simp
      obtain ⟨part, hkeeps', -⟩ := hkeeps.write
        ⟨Utf8.encode ((d.toRecord (log.seq + 1)).text J), true, fate⟩
      refine ⟨h.file, ⟨file ++ part, ?_⟩, ?_, fun _ _ => ?_⟩
      · rw [logBytes_concat, ← hseq]
        exact hkeeps'
      · intro _ hfailed
        rcases hrun : BoundedLog.write (Utf8.encode ((d.toRecord (log.seq + 1)).text J)) true [fate]
            log.session.log with ⟨o, rest⟩
        simp only [hrun] at hfailed
        cases o with
        | failed e =>
          have hincomplete := incomplete_of_failed hrun
          simpa [Session.write, Session.perform, hrunning, hrun] using hincomplete
        | done u => cases hfailed
        | stopped => cases hfailed
      · rw [length_append]
        exact hseq
  · rw [if_pos (by simp [hrunning])]
    refine ⟨h.file, ⟨file, ?_⟩, fun hr => absurd hr hrunning, fun hr => absurd hr hrunning⟩
    rw [logBytes_concat]
    exact hkeeps.extend (fun hr => absurd hr hrunning) _

lemma InUse.marker (h : InUse J limit ds log) : log.session.log.marker = true := by
  obtain ⟨file, hkeeps⟩ := h.keeps
  exact hkeeps.left.marker

lemma InUse.copied (h : InUse J limit ds log) : Copied limit (logBytes J ds) log.session.log := by
  obtain ⟨file, hkeeps⟩ := h.keeps
  simpa using hkeeps.left.copied []

lemma InUse.drop (h : InUse J limit ds log) (plan : List Fate) :
    Copied limit (logBytes J ds) (log.drop plan).session.log ∧ (log.drop plan).file = false := by
  obtain ⟨file, hkeeps⟩ := h.keeps
  obtain ⟨hfile, hcomplete⟩ := hkeeps.finish plan
  rw [DecisionLog.drop, if_pos h.file]
  exact ⟨⟨file, hfile, hkeeps.left.head, hkeeps.left.bounded, hcomplete⟩, rfl⟩

/-- Without a log nothing happens. -/
lemma run_of_no_file (h : log.file = false) (es : List Event) : run (step J) log es = log := by
  have hstep : ∀ e, step J log e = log := by
    rintro (⟨d, fate⟩ | ⟨plan⟩)
    · show log.record J d fate = log
      rw [DecisionLog.record, if_pos (by simp [h])]
    · show log.drop plan = log
      rw [DecisionLog.drop, if_neg (by simp [h])]
  induction es with
  | nil => rfl
  | cons e es ih => rw [run_cons, hstep, ih]

/-- **Any run** of a log: it is still in use, or it has been dropped and is handed nothing any
    more. -/
lemma InUse.later (h : InUse J limit ds log) (es : List Event) :
    InUse J limit (ds ++ submitted es) (run (step J) log es) ∧
        (∀ more, submitted (es ++ more) = submitted es ++ submitted more) ∨
      (Copied limit (logBytes J (ds ++ submitted es)) (run (step J) log es).session.log ∧
          (run (step J) log es).file = false) ∧
        ∀ more, submitted (es ++ more) = submitted es := by
  induction es generalizing log ds with
  | nil => exact .inl ⟨by simpa [submitted] using h, fun more => rfl⟩
  | cons e es ih =>
    cases e with
    | record d fate =>
      have hrest := ih (h.record d fate)
      simp only [append_assoc, singleton_append] at hrest
      refine hrest.imp (fun hr => ⟨hr.1, fun more => ?_⟩) fun hr => ⟨hr.1, fun more => ?_⟩
      · rw [cons_append, submitted, submitted, hr.2, cons_append]
      · rw [cons_append, submitted, submitted, hr.2]
    | drop plan =>
      obtain ⟨hcopied, hgone⟩ := h.drop plan
      have hsame : Transition.run (step J) log (.drop plan :: es) = log.drop plan := by
        exact run_of_no_file hgone es
      rw [hsame, submitted, append_nil]
      exact .inr ⟨⟨hcopied, hgone⟩, fun more => rfl⟩

/-- **What the reader finds**, of a marker that is looked for before the log is opened. -/
lemma InUse.found (h : InUse J limit [] log) (es more : List Event) :
    Copied limit (logBytes J (submitted (es ++ more)))
      { (run (step J) log (es ++ more)).session.log with
        marker := (run (step J) log es).session.log.marker } := by
  rcases h.later es with ⟨hinUse, -⟩ | ⟨⟨hcopied, hgone⟩, hsubmitted⟩
  · obtain ⟨file, hfile, hhead, hbound, -⟩ : Copied limit (logBytes J (submitted (es ++ more)))
        (Transition.run (step J) log (es ++ more)).session.log := by
      rcases h.later (es ++ more) with ⟨hlater, -⟩ | ⟨⟨hlater, -⟩, -⟩
      · exact hlater.copied
      · exact hlater
    refine ⟨file, hfile, hhead, hbound, fun hno => ?_⟩
    rw [hinUse.marker] at hno
    cases hno
  · rw [hsubmitted more, run_append, run_of_no_file hgone more]
    exact hcopied

/-! ## What the reader returns -/

lemma records_getElem_seq {k i : ℕ} (h : i < ((records ds).take k).length) :
    (((records ds).take k).get ⟨i, h⟩).seq = UInt64.ofNat (i + 1) := by
  simp [records, Decision.toRecord]

/-- The first records are in the order of their numbers, as long as these do not wrap around. -/
lemma pairwise_seq (k : ℕ)
    (h : (((records ds).take k).map Record.toBrokerDecision).length < 2 ^ 64) :
    ((((records ds).take k).map Record.toBrokerDecision).map (·.seq)).Pairwise (· < ·) := by
  rw [length_map] at h
  rw [map_map, pairwise_map, pairwise_iff_getElem]
  intro i j hi hj hij
  have hseq : ∀ n (hn : n < ((records ds).take k).length),
      (((records ds).take k)[n].seq).toNat = n + 1 := by
    intro n hn
    rw [show ((records ds).take k)[n].seq = UInt64.ofNat (n + 1) from records_getElem_seq hn,
      UInt64.toNat_ofNat', Nat.mod_eq_of_lt (by omega)]
  show ((records ds).take k)[i].seq < ((records ds).take k)[j].seq
  rw [UInt64.lt_iff_toNat_lt, hseq, hseq]
  omega

/-- The bytes that are looked at: all of them, or there is more. -/
lemma preview_eq (maxBytes : UInt64) {content : List UInt8} (h : content.length < 2 ^ 64) :
    preview maxBytes content =
      (decide (maxBytes.toNat < content.length), content.take maxBytes.toNat) := by
  have hmax := maxBytes.toNat_lt
  rw [preview, take_take, length_take]
  congr 1
  · rw [decide_eq_decide]
    omega
  · by_cases hle : maxBytes.toNat ≤ min (maxBytes.toNat + 1) (2 ^ 64 - 1)
    · rw [min_eq_left hle]
    · omega

/-- **What is returned of a log that is read.** -/
lemma faithful_of_read (h : Copied limit (logBytes J ds) files) (hlimit : limit < 2 ^ 64)
    (maxBytes : UInt64) :
    Faithful (records ds)
      (readDecisionsCapped J maxBytes files.marker files.file .none) := by
  obtain ⟨file, hfile, ⟨more, hall⟩, hbound, hcomplete⟩ := h
  have hlength : file.length < 2 ^ 64 := by omega
  simp only [readDecisionsCapped, hfile, preview_eq maxBytes hlength, reduceCtorEq, if_false]
  have hparse : ∃ k, (parseLines J (file.take maxBytes.toNat)).filterMap id =
      ((records ds).take k).map Record.toBrokerDecision := by
    have hcut : logBytes J ds = file.take maxBytes.toNat ++ (file.drop maxBytes.toNat ++ more) := by
      rw [← append_assoc, take_append_drop, hall]
    by_cases hrest : file.drop maxBytes.toNat ++ more = []
    · rw [hrest, append_nil] at hcut
      rw [← hcut, logBytes, parseLines_all]
      exact ⟨(records ds).length, by rw [take_length]⟩
    · exact parseLines_cut hcut hrest
  obtain ⟨k, hk⟩ := hparse
  refine ⟨⟨k, hk⟩, ?_, ?_⟩
  · have hle := (@length_parseLines_le J (file.take maxBytes.toNat)).trans
      (length_take_le' _ _)
    show (((parseLines J (file.take maxBytes.toNat)).filterMap id).map (·.seq)).Pairwise (· < ·)
    rw [hk] at hle ⊢
    exact pairwise_seq k (by omega)
  · intro hless
    -- with no marker and nothing cut off, the reader has all there is
    cases hmarker : files.marker with
    | true => split_ifs <;> simp_all
    | false =>
      by_cases hcut : maxBytes.toNat < file.length
      · split_ifs <;> simp_all
      · rw [take_of_length_le (by omega), hcomplete hmarker, logBytes, parseLines_all,
          length_map] at hless
        exact absurd hless (lt_irrefl _)

/-- The first result of a reader that reads nothing. -/
lemma faithful_nil_iff {issues : List String} :
    Faithful rs (issues, []) ↔ rs = [] ∨ issues ≠ [] := by
  constructor
  · intro h
    by_cases hnil : rs = []
    · exact .inl hnil
    · exact .inr (h.told (length_pos_iff.mpr hnil))
  · rintro (rfl | hissues)
    · exact ⟨⟨0, rfl⟩, .nil, fun h => absurd h (lt_irrefl _)⟩
    · exact ⟨⟨0, rfl⟩, .nil, fun _ => hissues⟩

/-- A log that could not be opened is not there, or empty and marked. -/
lemma openLog_file (limit : Option UInt64) (plan : List Fate) {dir : BoundedLog}
    (hnew : dir.file = none) :
    (∃ l : UInt64, InUse J l.toNat [] (DecisionLog.openLog limit plan dir)) ∨
      (DecisionLog.openLog limit plan dir).file = false ∧
        ∀ content ∈ (DecisionLog.openLog limit plan dir).session.log.file, content = [] := by
  cases limit with
  | none =>
    refine .inr ⟨rfl, ?_⟩
    show ∀ content ∈ dir.file, content = []
    rw [hnew]
    nofun
  | some l =>
    obtain ⟨o, rest, files, hrun, hcases⟩ := @BoundedLog.openLog_cases dir l.toNat plan
    rw [DecisionLog.openLog]
    simp only [hrun]
    rcases hcases with ⟨rfl, hopen⟩ | ⟨hne, hfile⟩
    · left
      refine ⟨l, rfl, ⟨[], hopen.left, fun _ => hopen⟩, ?_, fun _ _ => rfl⟩
      rintro - ⟨⟩
    · right
      have hempty : ∀ content ∈ files.file, content = [] := by
        rcases hfile with hsame | ⟨hsame, -⟩
        · rw [hsame, hnew]
          nofun
        · rw [hsame]
          rintro _ ⟨rfl⟩
          rfl
      cases o with
      | done u => exact absurd rfl hne
      | failed e => exact ⟨rfl, hempty⟩
      | stopped => exact ⟨rfl, hempty⟩

/-- **Broker evidence.**  In a new directory a log is opened, or not, and decisions are handed to
    it; it is dropped or killed, or neither.  The daemon looks for the marker at some moment, and at
    the same or a later one it reads the log.  What it returns is the first of the decisions
    recorded, and if some are missing there is an issue: except that there is none for a log that is
    complete and cannot be opened. -/
theorem broker_evidence_iff (limit : Option UInt64) (plan : List Fate) (marked : Bool)
    (es more : List Event) (maxBytes : UInt64) (fault : ReadFault) :
    let start := DecisionLog.openLog limit plan ⟨none, marked, 0, false⟩
    let marker := (run (step J) start es).session.log.marker
    Faithful (recorded start (es ++ more))
        (readDecisionsCapped J maxBytes marker
          (run (step J) start (es ++ more)).session.log.file fault) ↔
      fault ≠ .openFailed ∨ marker = true ∨ recorded start (es ++ more) = [] := by
  intro start marker
  rcases @openLog_file J limit plan ⟨none, marked, 0, false⟩ rfl with ⟨l, hinUse⟩ | ⟨hnone, hempty⟩
  · have hrecorded : recorded start (es ++ more) = records (submitted (es ++ more)) := by
      rw [recorded, if_pos hinUse.file]
    have hfound := hinUse.found es more
    rw [hrecorded]
    cases fault with
    | none => exact iff_of_true (faithful_of_read hfound l.toNat_lt maxBytes) (.inl nofun)
    | openFailed =>
      show Faithful _ (if marker then ["broker.storage_incomplete"] else [], []) ↔ _
      rw [faithful_nil_iff]
      cases marker <;> simp
    | readFailed =>
      obtain ⟨file, hfile, -⟩ := hfound
      have hfile' : (run (step J) start (es ++ more)).session.log.file = some file := hfile
      have hresult : readDecisionsCapped J maxBytes marker (some file) .readFailed =
          ((if marker then ["broker.storage_incomplete"] else []) ++ ["broker.read_failed"],
            []) := rfl
      rw [hfile', hresult, faithful_nil_iff]
      exact iff_of_true (.inr (by simp)) (.inl nofun)
  · have hrecorded : recorded start (es ++ more) = [] := by
      rw [recorded, if_neg (by simp [start, hnone])]
    rw [hrecorded, run_of_no_file hnone]
    refine iff_of_true ?_ (.inr (.inr rfl))
    have hnothing : ∃ issues, readDecisionsCapped J maxBytes marker start.session.log.file fault =
        (issues, []) := by
      cases hfile : start.session.log.file with
      | none => cases fault <;> exact ⟨_, rfl⟩
      | some content =>
        rw [hempty content hfile]
        cases fault with
        | none =>
          have hpreview : preview maxBytes [] = (false, []) := by simp [preview]
          simp only [readDecisionsCapped, hpreview, reduceCtorEq, if_false]
          exact ⟨_, rfl⟩
        | openFailed => exact ⟨_, rfl⟩
        | readFailed => exact ⟨_, rfl⟩
    obtain ⟨issues, hissues⟩ := hnothing
    rw [hissues]
    exact faithful_nil_iff.mpr (.inl rfl)

/-- One denial is recorded and the log finished; the daemon has no descriptor left to open it with,
    and returns nothing, without an issue. -/
theorem unopened_log_silent :
    let d : Decision := ⟨0, 7, "openat", 42, [47, 120], 1, some "not read-only"⟩
    let start := .openLog (some 1000) [] ⟨none, false, 0, false⟩
    let es := [.record d .pass, .drop []]
    let log := run (step Evidence.sampleFormat) start es
    let result := readDecisionsCapped Evidence.sampleFormat 1000 log.session.log.marker
      log.session.log.file .openFailed
    recorded start es = [d.toRecord 1] ∧ log.session.log.file ≠ none ∧ result = ([], []) ∧
      ¬ Faithful (recorded start es) result := by
  intro d start es log result
  have hrecorded : recorded start es = [d.toRecord 1] := by decide +kernel
  have hresult : result = ([], []) := by decide +kernel
  refine ⟨hrecorded, by decide +kernel, hresult, ?_⟩
  rw [hrecorded, hresult, faithful_nil_iff]
  simp

end Rauha.Decisions
