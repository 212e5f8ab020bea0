import Rauha.Sandbox.Service

/-!
# Reading the log

The log has the latest entry first.  `reservedIn`, `startsSince` and `attempted` fold it into what
is currently true of a task, `creator`, `zoneOf`, `admitted` and `lost` into what is known of
containers and requests.  `Disciplined` says that at every point of the log a task was reserved
only when it was not, and started only when it had not been since.  `Disciplined.starts_le_one`
turns that into the statement about any stretch of the log.
-/

namespace Rauha.Sandbox

/-- The task is reserved: it has been, and not deleted since. -/
def reservedIn (t : String) : List Entry → Bool
  | [] => false
  | .Reserved t' :: older => t' = t || reservedIn t older
  | .Deleted t' :: older => t' ≠ t && reservedIn t older
  | _ :: older => reservedIn t older

/-- The number of starts since the latest reservation. -/
def startsSince (t : String) : List Entry → ℕ
  | [] => 0
  | .Reserved t' :: older => if t' = t then 0 else startsSince t older
  | .Started t' :: older => if t' = t then startsSince t older + 1 else startsSince t older
  | _ :: older => startsSince t older

/-- **Attempted**: a recovery record was written for the task, and its result not deleted since. -/
def attempted (t : String) : List Entry → Bool
  | [] => false
  | .Admitted _ t' :: older => t' = t || attempted t older
  | .Deleted t' :: older => t' ≠ t && attempted t older
  | _ :: older => attempted t older

/-- The task that created a container. -/
def creator (id : ℕ) : List Entry → Option String
  | [] => none
  | .Created t id' :: older => if id' = id then some t else creator id older
  | _ :: older => creator id older

/-- The temporary zone of a request, unless it is kept. -/
def zoneOf (n : ℕ) : List Entry → Option ℕ
  | [] => none
  | .Zoned n' id :: older => if n' = n then some id else zoneOf n older
  | _ :: older => zoneOf n older

/-- **Admitted**: the request has committed its recovery record. -/
def admitted (n : ℕ) : List Entry → Bool
  | [] => false
  | .Admitted n' _ :: older => n' = n || admitted n older
  | _ :: older => admitted n older

/-- The zone of a request was cut off from it, by a crash or by a guard that failed. -/
def lost (n : ℕ) : List Entry → Bool
  | [] => false
  | .Crashed :: older => (zoneOf n older).isSome || lost n older
  | .Abandoned n' :: older => n' = n || lost n older
  | _ :: older => lost n older

/-- No reservation on top of another, and no second start. -/
def Disciplined : List Entry → Prop
  | [] => True
  | entry :: older => Disciplined older ∧
      (∀ t, entry = .Reserved t → reservedIn t older = false) ∧
      (∀ t, entry = .Started t → startsSince t older = 0)

variable {t : String}

lemma Disciplined.of_append {newer older : List Entry} (h : Disciplined (newer ++ older)) :
    Disciplined older := by
  induction newer with
  | nil => exact h
  | cons entry newer ih => exact ih h.1

/-- From a reservation on, until a deletion, the task stays reserved. -/
lemma reservedIn_append {mid older : List Entry} (h : Entry.Deleted t ∉ mid) :
    reservedIn t (mid ++ Entry.Reserved t :: older) = true := by
  induction mid with
  | nil => simp [reservedIn]
  | cons entry mid ih =>
    rw [List.mem_cons, not_or] at h
    have ih := ih h.2
    cases entry <;> simp_all [reservedIn]
    exact fun heq => h.1 heq.symm

/-- So there is no other reservation in between, and the starts are counted. -/
lemma count_started {mid older : List Entry} (hlog : Disciplined (mid ++ Entry.Reserved t :: older))
    (h : Entry.Deleted t ∉ mid) :
    mid.count (.Started t) = startsSince t (mid ++ Entry.Reserved t :: older) := by
  induction mid with
  | nil => simp [startsSince]
  | cons entry mid ih =>
    rw [List.mem_cons, not_or] at h
    have hrest := ih hlog.1 h.2
    have hopen : reservedIn t (mid ++ Entry.Reserved t :: older) = true := reservedIn_append h.2
    cases entry with
    | Reserved t' =>
      have hne : t' ≠ t := by
        rintro rfl
        have hclosed : reservedIn t' (mid ++ Entry.Reserved t' :: older) = false := hlog.2.1 t' rfl
        rw [hopen] at hclosed
        cases hclosed
      simp [startsSince, hne, hrest]
    | Started t' =>
      by_cases heq : t' = t
      · subst heq
        simp [startsSince, hrest]
      · simp [startsSince, heq, hrest]
    | _ => simpa [startsSince] using hrest

/-- **At most one start** in any stretch from a reservation on without a deletion. -/
lemma Disciplined.starts_le_one {newer mid older : List Entry}
    (hlog : Disciplined (newer ++ (mid ++ Entry.Reserved t :: older)))
    (h : Entry.Deleted t ∉ mid) : mid.count (.Started t) ≤ 1 := by
  have hmid := hlog.of_append
  clear hlog
  induction mid with
  | nil => simp
  | cons entry mid ih =>
    rw [List.mem_cons, not_or] at h
    by_cases hentry : entry = .Started t
    · -- this start finds none since the reservation
      subst hentry
      have hnone : startsSince t (mid ++ Entry.Reserved t :: older) = 0 := hmid.2.2 t rfl
      rw [← count_started hmid.1 h.2] at hnone
      simp [hnone]
    · rw [List.count_cons_of_ne hentry]
      exact ih h.2 hmid.1

end Rauha.Sandbox
