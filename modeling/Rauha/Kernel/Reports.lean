import Mathlib.Data.List.AList
import Rauha.Broker.Decisions
import Rauha.Kernel.Hooks
import Rauha.Library.Transition

/-!
# From the hooks to the receipt

An event that a hook emits goes into a ring buffer.  The daemon reads the buffer from time to time,
brings each event into the form of the evidence (`normalizeEnforcementEvent`) and broadcasts it.  A
task that runs in a zone is subscribed to the broadcast; at its end the events of its zone are
picked out (`drainEnforcementCapture`), the decisions of the syscall broker are added, and all are
counted for the receipt (`enforcementTotals`).

* `Found`: what a hook can find for a caller.  Every hook but the one for sockets reports a denial
  when it denies, and nothing when it allows;
* `step`: hook invocations with any map contents, readings of the buffer, and what the broker's
  tailer broadcasts;
* `denials_reported`: reports are right except for connections; and the denials counted for a task
  are the refusals of its zone in every run without connections, failing hooks and brokered denials.
-/

namespace Rauha.Kernel

open Transition List

/-! ## Invocations -/

/-- An invocation of a hook, with what the hook can read of its arguments. -/
inductive Call where
  | FileOpen (file : Option ℕ)
  | BprmCheck (bprm : Option (Option ℕ))
  | PtraceCheck (target : Option (Option ℕ))
  | TaskKill (target : Option (Option ℕ))
  | CgroupAttach (dst : Destination)
  | Capable (cap : Int32)
  | SocketConnect
  deriving DecidableEq

section

variable (maps : Maps) (cgroup : ℕ)

/-- What the hook decides before its answer is made; `none` is the error path. -/
def ruling : Call → Option Ruling
  | .FileOpen file => tryFileOpen maps cgroup file
  | .BprmCheck bprm => tryBprmCheck maps cgroup bprm
  | .PtraceCheck target => tryPtraceCheck maps cgroup target
  | .TaskKill target => checkCrossZoneTaskAccess maps .TaskKill cgroup target
  | .CgroupAttach dst => tryCgroupAttach maps cgroup dst
  | .Capable cap => tryCapable maps cgroup cap
  | .SocketConnect => trySocketConnect maps cgroup

def respond : Call → Answer
  | .FileOpen file => fileOpen maps cgroup file
  | .BprmCheck bprm => bprmCheckSecurity maps cgroup bprm
  | .PtraceCheck target => ptraceAccessCheck maps cgroup target
  | .TaskKill target => taskKill maps cgroup target
  | .CgroupAttach dst => cgroupAttachTask maps cgroup dst
  | .Capable cap => capable maps cgroup cap
  | .SocketConnect => socketConnect maps cgroup

/-- The zone that a caller is confined to. -/
def zoneOf : Option UInt32 :=
  (maps.membership cgroup).bind fun info =>
    if info.flags &&& zoneFlagGlobal ≠ 0 then none else some info.zoneId

/-- A connection from a zone, which is reported and allowed. -/
def Audited (call : Call) : Prop := call = .SocketConnect ∧ (zoneOf maps cgroup).isSome = true

/-- A refusal on the error path. -/
def Fails (call : Call) : Prop := ruling maps cgroup call = none

instance (call : Call) : Decidable (Audited maps cgroup call) := inferInstanceAs (Decidable (_ ∧ _))

instance (call : Call) : Decidable (Fails maps cgroup call) := inferInstanceAs (Decidable (_ = _))

/-- **An invocation is reported as it was answered**: a denial is reported exactly if the hook has
    denied by policy, an error exactly if it failed. -/
def Reported (call : Call) : Prop :=
  ((∃ e ∈ (respond maps cgroup call).events, e.decision = .Deny) ↔
    ∃ r, ruling maps cgroup call = some r ∧ (respond maps cgroup call).allowed = false) ∧
  ((∃ e ∈ (respond maps cgroup call).events, e.decision = .Error) ↔ ruling maps cgroup call = none)

/-- An operation of a task in the zone `z` is refused. -/
def Refused (z : UInt32) (call : Call) : Prop :=
  (maps.membership cgroup).map (·.zoneId) = some z ∧ (respond maps cgroup call).allowed = false

instance (z : UInt32) (call : Call) : Decidable (Refused maps cgroup z call) :=
  inferInstanceAs (Decidable (_ ∧ _))

end

/-- **What a hook finds** for a caller that is confined to a zone, or is not. -/
inductive Found (call : Call) (zone : Option UInt32) : Option Ruling → Prop
  | pass (hcall : call = .SocketConnect → zone = none) : Found call zone (some .pass)
  | deny {z : UInt32} (hook : Hook) (target : UInt32) (context : ℕ) (hzone : zone = some z)
      (hcall : call ≠ .SocketConnect) : Found call zone (some (denyWith hook z target context))
  | audit {z : UInt32} (hzone : zone = some z) (hcall : call = .SocketConnect) :
      Found call zone (some { denyWith .SocketConnect z 0 0 with allowed := true })
  | fail {z : UInt32} (hzone : zone = some z) (hcall : call ≠ .SocketConnect) :
      Found call zone none

section

variable {maps : Maps} {cgroup : ℕ} {call : Call} {caller : ZoneInfoKernel}

lemma zoneOf_eq_some {z : UInt32} : zoneOf maps cgroup = some z ↔
    ∃ caller, maps.membership cgroup = some caller ∧ ¬ caller.flags &&& zoneFlagGlobal ≠ 0 ∧
      caller.zoneId = z := by
  simp [zoneOf, Option.bind_eq_some_iff]

/-- The check of an inode passes or denies. -/
lemma checkInode_found (hook : Hook) (ino : ℕ) (hcall : call ≠ .SocketConnect) :
    Found call (some caller.zoneId) (some (checkInode maps hook caller ino)) := by
  unfold checkInode
  cases maps.inodeZone ino with
  | none => exact .pass fun h => absurd h hcall
  | some fileZoneId =>
    simp only
    split_ifs
    · exact .pass fun h => absurd h hcall
    · exact .pass fun h => absurd h hcall
    · exact .deny hook _ _ rfl hcall

lemma checkInode_found_map (hook : Hook) (file : Option ℕ) (hcall : call ≠ .SocketConnect) :
    Found call (some caller.zoneId) (file.map (checkInode maps hook caller)) := by
  cases file with
  | none => exact .fail rfl hcall
  | some ino => exact checkInode_found hook ino hcall

/-- The check of a task passes or denies. -/
lemma checkCrossZoneTaskAccess_found (hook : Hook) (target : Option (Option ℕ))
    (h : maps.membership cgroup = some caller) (hglobal : ¬ caller.flags &&& zoneFlagGlobal ≠ 0)
    (hcall : call ≠ .SocketConnect) :
    Found call (some caller.zoneId) (checkCrossZoneTaskAccess maps hook cgroup target) := by
  unfold checkCrossZoneTaskAccess
  rw [h]
  simp only
  rw [if_neg hglobal]
  cases target with
  | none => exact .pass fun h => absurd h hcall
  | some target =>
    simp only
    cases lookupTaskZone maps target with
    | none => exact .deny hook _ _ rfl hcall
    | some info =>
      simp only
      split_ifs
      · exact .pass fun h => absurd h hcall
      · exact .deny hook _ _ rfl hcall

/-- A caller that is confined to no zone passes. -/
lemma ruling_of_zoneOf_none (h : zoneOf maps cgroup = none) :
    ruling maps cgroup call = some .pass := by
  cases hmember : maps.membership cgroup with
  | none =>
    cases call <;> simp only [ruling, tryFileOpen, tryBprmCheck, tryPtraceCheck,
      checkCrossZoneTaskAccess, tryCgroupAttach, tryCapable, trySocketConnect, hmember]
  | some caller =>
    have hglobal : caller.flags &&& zoneFlagGlobal ≠ 0 := by simpa [zoneOf, hmember] using h
    cases call <;> simp only [ruling, tryFileOpen, tryBprmCheck, tryPtraceCheck,
      checkCrossZoneTaskAccess, tryCgroupAttach, tryCapable, trySocketConnect, hmember,
      if_pos hglobal]

/-- **Every hook** finds one of these. -/
lemma ruling_found (maps : Maps) (cgroup : ℕ) (call : Call) :
    Found call (zoneOf maps cgroup) (ruling maps cgroup call) := by
  cases hzone : zoneOf maps cgroup with
  | none =>
    rw [ruling_of_zoneOf_none hzone]
    exact .pass fun _ => rfl
  | some z =>
    obtain ⟨caller, hmember, hglobal, rfl⟩ := zoneOf_eq_some.mp hzone
    by_cases hcall : call = .SocketConnect
    · subst hcall
      simp only [ruling, trySocketConnect, hmember, if_neg hglobal]
      exact .audit rfl rfl
    have hpass : Found call (some caller.zoneId) (some .pass) := .pass fun h => absurd h hcall
    have hdeny (hook : Hook) (target : UInt32) (context : ℕ) : Found call (some caller.zoneId)
        (some (denyWith hook caller.zoneId target context)) := .deny hook target context rfl hcall
    have htask (hook : Hook) (target : Option (Option ℕ)) :=
      checkCrossZoneTaskAccess_found hook target hmember hglobal hcall
    cases call with
    | FileOpen file =>
      simp only [ruling, tryFileOpen, hmember, if_neg hglobal]
      exact checkInode_found_map _ file hcall
    | BprmCheck bprm =>
      simp only [ruling, tryBprmCheck, hmember, if_neg hglobal]
      cases bprm with
      | none => exact hpass
      | some file => exact checkInode_found_map _ file hcall
    | TaskKill target => exact htask _ target
    | PtraceCheck target =>
      simp only [ruling, tryPtraceCheck, hmember, if_neg hglobal]
      cases maps.policy caller.zoneId with
      | none => exact htask _ target
      | some policy =>
        simp only
        split_ifs
        · exact hpass
        · exact htask _ target
    | CgroupAttach dst =>
      simp only [ruling, tryCgroupAttach, hmember, if_neg hglobal]
      cases dst with
      | Absent => exact hpass
      | Unreadable => exact .fail rfl hcall
      | At dstCgroup =>
        simp only
        cases maps.membership dstCgroup with
        | none => exact hdeny _ _ _
        | some info =>
          simp only
          split_ifs
          · exact hpass
          · exact hdeny _ _ _
    | Capable cap =>
      simp only [ruling, tryCapable, hmember, if_neg hglobal]
      split_ifs
      · exact hdeny _ _ _
      · cases maps.policy caller.zoneId with
        | none => exact hdeny _ _ _
        | some policy =>
          simp only
          split_ifs
          · exact hpass
          · exact hdeny _ _ _
    | SocketConnect => exact absurd rfl hcall

/-- The answer that is made of a ruling. -/
lemma respond_some {r : Ruling} (h : ruling maps cgroup call = some r) :
    (respond maps cgroup call).allowed = r.allowed ∧
      (respond maps cgroup call).events = r.events := by
  cases call <;>
    simp only [ruling] at h <;>
    simp only [respond, fileOpen, bprmCheckSecurity, ptraceAccessCheck, taskKill,
      cgroupAttachTask, capable, socketConnect, h, conclude, and_self]

/-- The answer of a hook that fails. -/
lemma respond_none (h : ruling maps cgroup call = none) (hcall : call ≠ .SocketConnect) :
    (respond maps cgroup call).allowed = false ∧
      ∃ hook, (respond maps cgroup call).events = [⟨hook, .Error, 0, 0, 0⟩] := by
  cases call <;>
    simp only [ruling] at h <;>
    simp only [respond, fileOpen, bprmCheckSecurity, ptraceAccessCheck, taskKill,
      cgroupAttachTask, capable, h, conclude, List.cons.injEq, and_true,
      EnforcementEvent.mk.injEq, exists_eq']
  exact absurd rfl hcall

/-- **Reports are right, except for connections.** -/
lemma reported_iff (maps : Maps) (cgroup : ℕ) (call : Call) :
    Reported maps cgroup call ↔ ¬ Audited maps cgroup call := by
  have hfound := ruling_found maps cgroup call
  unfold Reported Audited
  generalize hr : ruling maps cgroup call = r at hfound
  cases hfound with
  | pass hcall =>
    obtain ⟨hallowed, hevents⟩ := respond_some hr
    rw [hallowed, hevents]
    have haudit : ¬ (call = .SocketConnect ∧ (zoneOf maps cgroup).isSome = true) := by
      rintro ⟨hsocket, hzone⟩
      rw [hcall hsocket] at hzone
      cases hzone
    simp [Ruling.pass, haudit]
  | deny hook target context hzone hcall =>
    obtain ⟨hallowed, hevents⟩ := respond_some hr
    rw [hallowed, hevents]
    simp [denyWith, hcall]
  | audit hzone hcall =>
    obtain ⟨hallowed, hevents⟩ := respond_some hr
    rw [hallowed, hevents]
    simp [denyWith, hcall, hzone]
  | fail hzone hcall =>
    obtain ⟨hallowed, hook, hevents⟩ := respond_none hr hcall
    rw [hevents]
    simp [hcall]

end

/-! ## Events in the form of the evidence -/

inductive Severity where
  | Info
  | Warn
  | Error
  deriving DecidableEq, Repr

inductive FieldValue where
  | String (value : String)
  | U64 (value : ℕ)
  | I64 (value : ℤ)
  deriving DecidableEq, Repr

structure FalseEvent where
  event : String
  level : Severity
  zoneId : String
  resource : Option String
  fields : List (String × FieldValue)
  deriving DecidableEq, Repr

def FalseEvent.field (e : FalseEvent) (key : String) : Option FieldValue := e.fields.lookup key

def hookName : Hook → String
  | .FileOpen => "file_open"
  | .BprmCheck => "bprm_check"
  | .PtraceCheck => "ptrace_access_check"
  | .TaskKill => "task_kill"
  | .CgroupAttach => "cgroup_attach_task"
  | .Capable => "capable"
  | .SocketConnect => "socket_connect"

def eventNameFor (hook : Hook) (decision : Decision) : String :=
  if decision = .Error then "pipeline.shed"
  else
    match hook with
    | .FileOpen => "zone.file.denied"
    | .BprmCheck => "zone.exec.denied"
    | .PtraceCheck => "zone.ptrace.denied"
    | .TaskKill => "zone.signal.denied"
    | .CgroupAttach => "zone.escape.cgroup_attach"
    | .SocketConnect => "zone.net.denied"
    | .Capable => "zone.mount.denied"

def severityForEvent (eventName : String) : Severity :=
  if eventName = "zone.escape.cgroup_attach" then .Error
  else if eventName ∈ ["zone.file.denied", "zone.exec.denied", "zone.ptrace.denied",
      "zone.signal.denied", "zone.mount.denied", "zone.ipc.denied", "zone.net.denied"] then .Warn
  else .Info

def resourceFor (hook : Hook) (context : ℕ) : String :=
  match hook with
  | .FileOpen | .BprmCheck => "inode:" ++ toString context
  | .CgroupAttach => "cgroup:" ++ toString context
  | .SocketConnect => "socket:" ++ toString context
  | _ => "kernel-object:unknown"

def decisionName : Decision → String
  | .Allow => "allow"
  | .Deny => "deny"
  | .Error => "error"

def normalizeEnforcementEvent (event : EnforcementEvent) : FalseEvent :=
  let eventName := eventNameFor event.hook event.decision
  { event := eventName
    level := if event.decision = .Error then .Error else severityForEvent eventName
    zoneId :=
      if event.callerZone = 0 then "zone-unassigned" else "zone-" ++ toString event.callerZone
    resource := some (resourceFor event.hook event.context)
    fields := [("hook", .String (hookName event.hook)),
      ("decision", .String (decisionName event.decision)),
      ("caller_zone", .U64 event.callerZone.toNat), ("target_zone", .U64 event.targetZone.toNat),
      ("context", .U64 event.context)] }

def granted (decision : Decisions.BrokerDecision) : Bool := decision.decision = "granted"

def brokerDecisionEvent (decision : Decisions.BrokerDecision) (zone : String)
    (callerZone : UInt32) : FalseEvent where
  event :=
    if granted decision then "zone.syscall.brokered.granted" else "zone.syscall.brokered.denied"
  level := if granted decision then .Info else .Warn
  zoneId := zone
  resource := some ("path:" ++ decision.path)
  fields := [("hook", .String "seccomp_notify"),
    ("decision", .String (if granted decision then "allow" else "deny")),
    ("caller_zone", .U64 callerZone.toNat), ("syscall", .String decision.syscall),
    ("errno", .I64 decision.errno.toInt), ("seq", .U64 decision.seq.toNat),
    ("reason", .String (decision.reason.getD "")), ("ts_ms", .U64 decision.tsMs.toNat)]

/-! ## The capture of a task -/

/-- A subscription to the broadcast: what is waiting, and how much has been overrun. -/
structure Receiver where
  queue : List FalseEvent
  missed : ℕ

namespace Receiver

def new : Receiver := ⟨[], 0⟩

/-- How many events wait for a subscriber at most. -/
def capacity : ℕ := 1024

/-- An event is broadcast; the oldest one makes way if there is no room. -/
def send (rx : Receiver) (e : FalseEvent) : Receiver :=
  if rx.queue.length < capacity then { rx with queue := rx.queue ++ [e] }
  else ⟨rx.queue.tail ++ [e], rx.missed + 1⟩

end Receiver

/-- The decisions of the broker come with the result from its log; those on the broadcast are left
    out. -/
def enforcementEventMatches (e : FalseEvent) (kernelZoneId : Option UInt32) : Bool :=
  if e.field "hook" = some (.String "seccomp_notify") then false
  else
    match kernelZoneId with
    | none => false
    | some zid => e.field "caller_zone" = some (.U64 zid.toNat)

structure EnforcementEventSummary where
  hook : String
  action : String
  decision : String
  sourceZone : String
  targetZone : Option String
  object : Option String
  deriving DecidableEq, Repr

def projectEnforcementEvent (e : FalseEvent) : EnforcementEventSummary :=
  let stringField := fun key =>
    match e.field key with
    | some (.String s) => some s
    | _ => none
  { hook := (stringField "hook").getD ""
    action := e.event
    decision := (stringField "decision").getD ""
    sourceZone := e.zoneId
    targetZone :=
      match e.field "target_zone" with
      | some (.U64 z) => if z = 0 then none else some ("zone-" ++ toString z)
      | _ => none
    object := e.resource }

/-- The events of a zone that have arrived, and the number of those that were lost. -/
def drainEnforcementCapture (rx : Receiver) (kernelZoneId : Option UInt32) :
    List EnforcementEventSummary × ℕ :=
  ((rx.queue.filter (enforcementEventMatches · kernelZoneId)).map projectEnforcementEvent,
    rx.missed)

structure EnforcementTotals where
  allow : ℕ
  deny : ℕ
  error : ℕ
  dropped : ℕ
  deriving DecidableEq, Repr

def countDecisions (decisions : List String) : AList fun _ : String => ℕ :=
  decisions.foldl (fun counts d => counts.insert d ((counts.lookup d).getD 0 + 1)) ∅

def enforcementTotals (decisions : List String) (dropped : ℕ) : EnforcementTotals :=
  let counts := countDecisions decisions
  ⟨(counts.lookup "allow").getD 0, (counts.lookup "deny").getD 0, (counts.lookup "error").getD 0,
    dropped⟩

/-- **The totals of a task**: the events of its zone, and then the decisions of the broker. -/
def taskTotals (rx : Receiver) (kernelZoneId : Option UInt32) (zoneLabel : String)
    (decisions : List Decisions.BrokerDecision) : EnforcementTotals :=
  let captured := drainEnforcementCapture rx kernelZoneId
  let events := captured.1 ++ decisions.map fun d =>
    projectEnforcementEvent (brokerDecisionEvent d zoneLabel (kernelZoneId.getD 0))
  enforcementTotals (events.map (·.decision)) captured.2

/-! ## The system -/

/-- The maps, the events that the daemon has not read yet, and the subscription of a task. -/
structure World where
  maps : Maps
  ring : List EnforcementEvent
  rx : Receiver

/-- What happens while a task runs: a hook is invoked, with the ring buffer full or not; the daemon
    changes the maps or reads the buffer; a decision of a broker is broadcast. -/
inductive Event where
  | Invoke (cgroup : ℕ) (call : Call) (full : Bool)
  | Update (maps : Maps)
  | Read
  | Broadcast (decision : Decisions.BrokerDecision) (zone : String) (callerZone : UInt32)

namespace World

def step (w : World) : Event → World
  | .Invoke cgroup call full =>
    if full then w else { w with ring := w.ring ++ (respond w.maps cgroup call).events }
  | .Update maps => { w with maps := maps }
  | .Read =>
    { w with ring := [], rx := (w.ring.map normalizeEnforcementEvent).foldl .send w.rx }
  | .Broadcast decision zone callerZone =>
    { w with rx := w.rx.send (brokerDecisionEvent decision zone callerZone) }

/-- How many operations of a zone are refused in a run. -/
def refusals (z : UInt32) : World → List Event → ℕ
  | _, [] => 0
  | w, e :: es =>
    (match e with
      | .Invoke cgroup call _ => if Refused w.maps cgroup z call then 1 else 0
      | _ => 0) + refusals z (w.step e) es

/-- **Nothing is dropped**: there is room in the ring buffer and in the queue of the subscriber. -/
def NotDropped (w : World) : Event → Prop
  | .Invoke _ _ full => full = false
  | .Update _ => True
  | .Read => w.rx.queue.length + w.ring.length ≤ Receiver.capacity
  | .Broadcast _ _ _ => w.rx.queue.length < Receiver.capacity

/-- No task of the zone connects a socket, and no hook fails for one. -/
def Faithful (z : UInt32) (w : World) : Event → Prop
  | .Invoke cgroup call _ => zoneOf w.maps cgroup = some z →
      ¬ Audited w.maps cgroup call ∧ ¬ Fails w.maps cgroup call
  | _ => True

end World

/-! ## Counting -/

/-- A report of a denial in a zone, as the hooks emit it. -/
def deniesIn (z : UInt32) (e : EnforcementEvent) : Bool :=
  e.callerZone = z && e.decision = .Deny

/-- A report of a denial in a zone, as it is broadcast and counted. -/
def countsIn (z : UInt32) (e : FalseEvent) : Bool :=
  enforcementEventMatches e (some z) && (projectEnforcementEvent e).decision == "deny"

section

variable {z : UInt32} {w : World} {e : Event}

lemma countsIn_normalize (e : EnforcementEvent) :
    countsIn z (normalizeEnforcementEvent e) = deniesIn z e := by
  have hhook : hookName e.hook ≠ "seccomp_notify" := by cases e.hook <;> decide
  have hdecision : (projectEnforcementEvent (normalizeEnforcementEvent e)).decision =
      decisionName e.decision := rfl
  have hname : (decisionName e.decision == "deny") = decide (e.decision = .Deny) := by
    cases e.decision <;> decide
  have hfirst : (normalizeEnforcementEvent e).field "hook" = some (.String (hookName e.hook)) := rfl
  have hcaller : (normalizeEnforcementEvent e).field "caller_zone" =
      some (.U64 e.callerZone.toNat) := rfl
  have hzone : decide (e.callerZone.toNat = z.toNat) = decide (e.callerZone = z) := by
    simp [UInt32.toNat_inj]
  simp only [countsIn, enforcementEventMatches, hfirst, hcaller, hdecision, hname, deniesIn,
    Option.some.injEq, FieldValue.String.injEq, hhook, if_false, FieldValue.U64.injEq, hzone]

lemma countsIn_broker (d : Decisions.BrokerDecision) (zone : String) (callerZone : UInt32) :
    countsIn z (brokerDecisionEvent d zone callerZone) = false := rfl

lemma lookup_foldl_count (decisions : List String) (counts : AList fun _ : String => ℕ)
    (d : String) :
    ((decisions.foldl (fun counts d => counts.insert d ((counts.lookup d).getD 0 + 1))
      counts).lookup d).getD 0 = (counts.lookup d).getD 0 + decisions.count d := by
  induction decisions generalizing counts with
  | nil => simp
  | cons first decisions ih =>
    rw [foldl_cons, ih]
    by_cases h : d = first
    · subst h
      rw [AList.lookup_insert, Option.getD_some, count_cons_self]
      omega
    · rw [AList.lookup_insert_ne h, count_cons_of_ne (.symm h)]

lemma enforcementTotals_deny (decisions : List String) (dropped : ℕ) :
    (enforcementTotals decisions dropped).deny = decisions.count "deny" := by
  have h := lookup_foldl_count decisions ∅ "deny"
  rw [AList.lookup_empty, Option.getD_none, Nat.zero_add] at h
  exact h

/-- The denials that are counted for a task. -/
lemma taskTotals_deny (rx : Receiver) (zoneLabel : String)
    {decisions : List Decisions.BrokerDecision} (hgranted : ∀ d ∈ decisions, granted d = true) :
    (taskTotals rx (some z) zoneLabel decisions).deny = rx.queue.countP (countsIn z) := by
  simp only [taskTotals, enforcementTotals_deny, drainEnforcementCapture, map_append,
    map_map, count_append]
  have hbroker : List.count "deny" (decisions.map ((·.decision) ∘ fun d =>
      projectEnforcementEvent (brokerDecisionEvent d zoneLabel ((some z).getD 0)))) = 0 := by
    rw [count_eq_zero]
    intro hmem
    obtain ⟨d, hd, hdeny⟩ := mem_map.mp hmem
    have hname : (projectEnforcementEvent (brokerDecisionEvent d zoneLabel
        ((some z).getD 0))).decision = if granted d then "allow" else "deny" := rfl
    rw [Function.comp_apply, hname, hgranted d hd] at hdeny
    exact absurd hdeny (by decide)
  rw [hbroker, List.count, countP_map, countP_filter]
  refine countP_congr fun e _ => ?_
  simp [countsIn, and_comm]

lemma send_of_room {rx : Receiver} {e : FalseEvent} (h : rx.queue.length < Receiver.capacity) :
    rx.send e = { rx with queue := rx.queue ++ [e] } := if_pos h

lemma foldl_send_of_room {rx : Receiver} {events : List FalseEvent}
    (h : rx.queue.length + events.length ≤ Receiver.capacity) :
    events.foldl .send rx = { rx with queue := rx.queue ++ events } := by
  induction events generalizing rx with
  | nil => simp
  | cons e events ih =>
    rw [length_cons] at h
    rw [foldl_cons, send_of_room (by omega), ih (by simp; omega)]
    simp

/-- **The reports of one invocation**: one for the zone if the operation was refused, as long as it
    is no connection and the hook does not fail. -/
lemma countP_events {cgroup : ℕ} {call : Call} {full : Bool}
    (h : World.Faithful z w (.Invoke cgroup call full)) :
    (respond w.maps cgroup call).events.countP (deniesIn z) =
      if Refused w.maps cgroup z call then 1 else 0 := by
  have hfound := ruling_found w.maps cgroup call
  -- whoever is confined to a zone is a member of it
  have hmember {z' : UInt32} (hzone : zoneOf w.maps cgroup = some z') :
      (w.maps.membership cgroup).map (·.zoneId) = some z' := by
    obtain ⟨caller, hcaller, -, rfl⟩ := zoneOf_eq_some.mp hzone
    rw [hcaller, Option.map_some]
  generalize hr : ruling w.maps cgroup call = r at hfound
  cases hfound with
  | pass hcall =>
    obtain ⟨hallowed, hevents⟩ := respond_some hr
    rw [hevents, if_neg fun hrefused => by rw [Refused, hallowed] at hrefused; cases hrefused.2]
    rfl
  | @deny z' hook target context hzone hcall =>
    obtain ⟨hallowed, hevents⟩ := respond_some hr
    have hiff : Refused w.maps cgroup z call ↔ z' = z := by
      rw [Refused, hmember hzone, hallowed]
      simp [denyWith]
    rw [hevents]
    by_cases hz : z' = z <;> simp [denyWith, deniesIn, hz, hiff]
  | @audit z' hzone hcall =>
    obtain ⟨hallowed, hevents⟩ := respond_some hr
    have hz : z' ≠ z := by
      rintro rfl
      exact (h hzone).1 ⟨hcall, by rw [hzone]; rfl⟩
    rw [hevents, if_neg fun hrefused => by rw [Refused, hallowed] at hrefused; cases hrefused.2]
    simp [denyWith, deniesIn, hz]
  | @fail z' hzone hcall =>
    obtain ⟨hallowed, hook, hevents⟩ := respond_none hr hcall
    have hz : z' ≠ z := by
      rintro rfl
      exact (h hzone).2 hr
    have hnot : ¬ Refused w.maps cgroup z call := fun hrefused => by
      rw [Refused, hmember hzone] at hrefused
      exact hz (Option.some.inj hrefused.1)
    rw [hevents, if_neg hnot]
    simp [deniesIn]

/-- The denials reported for a zone, on their way or arrived. -/
def World.reported (z : UInt32) (w : World) : ℕ :=
  w.rx.queue.countP (countsIn z) + w.ring.countP (deniesIn z)

/-- **One step**: the reports grow by the refusals. -/
lemma step_reported (hkept : w.NotDropped e) (hfaithful : World.Faithful z w e) :
    (w.step e).reported z = w.reported z + World.refusals z w [e] := by
  cases e with
  | Invoke cgroup call full =>
    have hfull : full = false := hkept
    subst hfull
    simp only [World.step, World.reported, World.refusals, Bool.false_eq_true, if_false,
      countP_append, countP_events hfaithful]
    omega
  | Update maps => rfl
  | Read =>
    have hroom : w.rx.queue.length + (w.ring.map normalizeEnforcementEvent).length ≤
        Receiver.capacity := by
      rw [length_map]
      exact hkept
    have hcount : (w.ring.map normalizeEnforcementEvent).countP (countsIn z) =
        w.ring.countP (deniesIn z) := by
      rw [countP_map]
      exact countP_congr fun e _ => by rw [Function.comp_apply, countsIn_normalize]
    simp only [World.step, World.reported, World.refusals, foldl_send_of_room hroom,
      countP_append, hcount, countP_nil]
  | Broadcast decision zone callerZone =>
    have hroom : w.rx.queue.length < Receiver.capacity := hkept
    simp [World.step, World.reported, World.refusals, send_of_room hroom, countP_append,
      countsIn_broker]

/-- **A whole run.** -/
lemma run_reported {es : List Event}
    (h : Meets .step (fun w e => w.NotDropped e ∧ World.Faithful z w e) w es) :
    (run .step w es).reported z = w.reported z + World.refusals z w es := by
  induction es generalizing w with
  | nil => rfl
  | cons e es ih =>
    obtain ⟨⟨hkept, hfaithful⟩, hrest⟩ := h
    rw [run_cons, ih hrest, step_reported hkept hfaithful]
    simp only [World.refusals]
    omega

end

/-- **Denials reported and denials enforced.**  An invocation of a hook is reported as it was
    answered, exactly if it is no connection from a zone.  For a task in the zone `z`: in every run
    in which no event is dropped, no task of the zone connects a socket and no hook fails for one,
    with nothing of the zone waiting to be read when the capture begins and when it ends and no
    denial among the broker's decisions, the denials in the receipt are the refusals. -/
theorem denials_reported (z : UInt32) :
    (∀ maps cgroup call, Reported maps cgroup call ↔ ¬ Audited maps cgroup call) ∧
    ∀ (w : World) (es : List Event) (zoneLabel : String)
      (decisions : List Decisions.BrokerDecision),
      w.rx = .new → w.ring.countP (deniesIn z) = 0 →
      Meets .step (fun w e => w.NotDropped e ∧ World.Faithful z w e) w es →
      (run .step w es).ring.countP (deniesIn z) = 0 →
      (∀ d ∈ decisions, granted d = true) →
      (taskTotals (run .step w es).rx (some z) zoneLabel decisions).deny =
        World.refusals z w es := by
  refine ⟨reported_iff, fun w es zoneLabel decisions hrx hring hmeets hread hgranted => ?_⟩
  have hreported := run_reported hmeets
  rw [World.reported, World.reported, hread, hring, hrx] at hreported
  rw [taskTotals_deny _ _ hgranted]
  simpa [Receiver.new] using hreported

/-- Maps for evaluation: the cgroup 7 is in zone 1, the inode 5 belongs to zone 2. -/
def sampleMaps : Maps where
  membership := fun cgroup => if cgroup = 7 then some ⟨1, 0⟩ else none
  policy := fun _ => none
  inodeZone := fun ino => if ino = 5 then some 2 else none
  comms := ∅

def sampleWorld : World := ⟨sampleMaps, [], .new⟩

/-- A file of another zone is opened, and the refusal is counted. -/
theorem denials_reported_file :
    (taskTotals (run .step sampleWorld [.Invoke 7 (.FileOpen (some 5)) false, .Read]).rx
      (some 1) "zone-1" []).deny =
    World.refusals 1 sampleWorld [.Invoke 7 (.FileOpen (some 5)) false, .Read] :=
  (denials_reported 1).2 sampleWorld [.Invoke 7 (.FileOpen (some 5)) false, .Read] "zone-1" [] rfl
    rfl ⟨⟨rfl, fun _ => by decide⟩, ⟨show _ ≤ _ by decide, trivial⟩, trivial⟩ rfl (by simp)

/-- **A connection is reported as denied and goes through.** -/
theorem connection_counted_as_denial :
    (respond sampleMaps 7 .SocketConnect).allowed = true ∧
    (∃ e ∈ (respond sampleMaps 7 .SocketConnect).events, e.decision = .Deny) ∧
    (taskTotals (run .step sampleWorld [.Invoke 7 .SocketConnect false, .Read]).rx (some 1)
      "zone-1" []).deny = 1 ∧
    World.refusals 1 sampleWorld [.Invoke 7 .SocketConnect false, .Read] = 0 := by
  decide +kernel

/-! ## What an answer depends on -/

/-- The maps with no policy but that of the caller's zone, and no pairs but those from it. -/
def Maps.seenBy (maps : Maps) (cgroup : ℕ) : Maps :=
  let z := (maps.membership cgroup).elim 0 (·.zoneId)
  { maps with
    policy := fun z' => if z' = z then maps.policy z else none
    comms := maps.comms.filter (·.1 = z) }

attribute [local simp] respond fileOpen tryFileOpen bprmCheckSecurity tryBprmCheck
  ptraceAccessCheck tryPtraceCheck taskKill checkCrossZoneTaskAccess lookupTaskZone
  cgroupAttachTask tryCgroupAttach capable tryCapable socketConnect trySocketConnect

/-- **Other zones do not matter.**  What any hook answers a task, and what it reports, depends on
    the policy of the task's own zone and on the pairs from it, whatever other zones may do. -/
theorem respond_seenBy (maps : Maps) (cgroup : ℕ) (call : Call) :
    respond (maps.seenBy cgroup) cgroup call = respond maps cgroup call := by
  have hmember : (maps.seenBy cgroup).membership = maps.membership := rfl
  cases hcaller : maps.membership cgroup with
  | none => cases call <;> simp [hmember, hcaller]
  | some caller =>
    have hpairs : isCrossZoneAllowed (maps.seenBy cgroup) caller.zoneId =
        isCrossZoneAllowed maps caller.zoneId := by
      funext dst
      simp [isCrossZoneAllowed, Maps.seenBy, hcaller]
    have hinode (hook : Hook) :
        checkInode (maps.seenBy cgroup) hook caller = checkInode maps hook caller := by
      funext ino
      simp only [checkInode, hpairs]
      rfl
    have hpolicy : (maps.seenBy cgroup).policy caller.zoneId = maps.policy caller.zoneId := by
      simp [Maps.seenBy, hcaller]
    cases call <;> simp [hmember, hcaller, hpairs, hinode, hpolicy]

end Rauha.Kernel
