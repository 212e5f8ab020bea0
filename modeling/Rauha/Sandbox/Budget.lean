import Rauha.Library.Table
import Rauha.Library.Transition
import Rauha.Sandbox.Store

/-!
# The budget of the result store

The transactions on results and recovery records, called in any order with any arguments.  A call
that reports an error, its own or one of the database, has its transaction dropped.

The budget counts a result that is empty or has a recovery record with the whole of what it may
grow to, so saving a result and finishing a recovery only ever free budget.  The sum that
`reserve_result` compares with the limit is taken with an addition that stops at the largest
`usize`; for every smaller limit that makes no difference (`usedBytes_eq`).
-/

namespace Rauha.Sandbox

open Transition Table

/-- The calls on results and recovery records. -/
inductive Call where
  | ReserveResult (id : String)
  | SaveResult (id : String) (bytes : List UInt8)
  | PutRecovery (record : RecoveryRecord)
  | FinishRecovery (id : String)
  | DeleteResult (id : String)
  deriving DecidableEq, Repr

/-- A call, and the error of the database if it reports one. -/
structure Attempt where
  call : Call
  fault : Option String
  deriving DecidableEq, Repr

namespace Store

section Calls

variable (size : RecoveryRecord → ℕ) (maxBytes : ℕ) (self : Store)

/-- The transaction of a call, with what it answers. -/
def transaction : Call → Except String (Bool × Store)
  | .ReserveResult id => self.reserveResult id maxBytes
  | .SaveResult id bytes => (self.saveResult id bytes).map (true, ·)
  | .PutRecovery record => (self.putRecovery size record).map (true, ·)
  | .FinishRecovery id => (self.finishRecovery id).map (true, ·)
  | .DeleteResult id => self.deleteResult id

/-- The answer of an attempt. -/
def answer (attempt : Attempt) : Except String Bool :=
  match attempt.fault with
  | some error => .error error
  | none => (self.transaction size maxBytes attempt.call).map Prod.fst

/-- What is left in the store: the transaction is committed, or dropped. -/
def after (attempt : Attempt) : Store :=
  match attempt.fault, self.transaction size maxBytes attempt.call with
  | none, .ok (_, store) => store
  | _, _ => self

end Calls

/-- What the results are charged in total. -/
def cost (self : Store) : ℕ := weight self.charge self.results

variable {size : RecoveryRecord → ℕ} {maxBytes : ℕ} {self store : Store} {id : String}

/-! ## The sum the code takes -/

/-- The largest `usize`. -/
def usizeMax : ℕ := 2 ^ 64 - 1

lemma foldl_saturatingAdd {γ : Type} (f : γ → ℕ) (entries : List γ) (start : ℕ)
    (hstart : start ≤ usizeMax) :
    entries.foldl (fun used entry => saturatingAdd used (f entry)) start =
      min (start + (entries.map f).sum) usizeMax := by
  induction entries generalizing start with
  | nil => simpa using hstart
  | cons entry entries ih =>
    have hnext : saturatingAdd start (f entry) ≤ usizeMax := min_le_right _ _
    rw [List.foldl_cons, ih _ hnext, List.map_cons, List.sum_cons]
    unfold saturatingAdd usizeMax at *
    omega

/-- **The sum is exact** up to the largest `usize`. -/
lemma usedBytes_eq : self.usedBytes = min self.cost usizeMax := by
  have hsum := foldl_saturatingAdd
    (fun entry : Sigma fun _ : String => List UInt8 => self.charge entry.1 entry.2)
    self.results.entries 0 (Nat.zero_le _)
  rw [Nat.zero_add] at hsum
  exact hsum

lemma reserve_fits (hlimit : maxBytes < usizeMax)
    (h : saturatingAdd self.usedBytes maxResultBytes ≤ maxBytes) :
    self.cost + maxResultBytes ≤ maxBytes := by
  rw [usedBytes_eq] at h
  unfold saturatingAdd usizeMax at *
  omega

/-! ## The invariant -/

/-- **What holds of the two tables.** -/
structure Balanced (maxBytes : ℕ) (store : Store) : Prop where
  cost_le : maxBytes < usizeMax → store.cost ≤ maxBytes
  /-- A record has a slot. -/
  slot : ∀ id record, store.recovery.lookup id = some record → store.getResult id ≠ none
  small : ∀ id bytes, store.getResult id = some bytes → bytes.length ≤ maxResultBytes

/-- A new slot is charged with the whole of what it may grow to. -/
lemma cost_reserved (hnone : self.getResult id = none) :
    cost { self with results := self.results.insert id [] } = maxResultBytes + self.cost := by
  have hcharge : charge { self with results := self.results.insert id [] } = self.charge := rfl
  have hempty : self.charge id [] = maxResultBytes := by simp [charge]
  unfold cost
  rw [hcharge, weight_insert, weight_erase_of_none hnone, hempty]

variable {answer : Bool}

section

variable (h : Balanced maxBytes self)

include h

lemma Balanced.reserve
    (hok : self.reserveResult id maxBytes = .ok (answer, store)) : Balanced maxBytes store := by
  unfold reserveResult at hok
  split_ifs at hok with hsome hfits
  · cases hok
    exact h
  · cases hok
    have hnone : self.results.lookup id = none := by simpa [getResult] using hsome
    refine ⟨fun hlimit => ?_, fun id' record hrecord => ?_, fun id' bytes hresult => ?_⟩
    · have hle := reserve_fits hlimit hfits
      rw [cost_reserved hnone]
      omega
    · by_cases hid : id' = id
      · subst hid
        exact absurd hnone (h.slot id' record hrecord)
      · show (self.results.insert id []).lookup id' ≠ none
        rw [AList.lookup_insert_ne hid]
        exact h.slot id' record hrecord
    · rcases Table.of_lookup_insert hresult with ⟨-, rfl⟩ | ⟨-, hold⟩
      · exact Nat.zero_le _
      · exact h.small id' bytes hold

variable {bytes : List UInt8}

/-- Saving a result frees what it does not need. -/
lemma Balanced.save (hok : self.saveResult id bytes = .ok store) : Balanced maxBytes store := by
  have hlen : bytes.length ≤ maxResultBytes := by
    unfold saveResult at hok
    split_ifs at hok with hbytes
    simp only [Bool.or_eq_true, decide_eq_true_eq, not_or, not_lt] at hbytes
    exact hbytes.2
  obtain ⟨-, hempty, rfl⟩ := saveResult_ok hok
  have hsmall : ∀ id' bytes', (self.results.insert id bytes).lookup id' = some bytes' →
      bytes'.length ≤ maxResultBytes := by
    intro id' bytes' hresult
    rcases Table.of_lookup_insert hresult with ⟨-, rfl⟩ | ⟨-, hold⟩
    · exact hlen
    · exact h.small id' bytes' hold
  refine ⟨fun hlimit => ?_, fun id' record hrecord => ?_, hsmall⟩
  · refine le_trans ?_ (h.cost_le hlimit)
    show weight self.charge (self.results.insert id bytes) ≤ weight self.charge self.results
    rw [weight_insert, weight_of_lookup hempty]
    have hle : self.charge id bytes ≤ maxResultBytes := by
      unfold charge
      split_ifs
      · exact le_refl _
      · exact hlen
    exact Nat.add_le_add_right hle _
  · by_cases hid : id' = id
    · subst hid
      show (self.results.insert id' bytes).lookup id' ≠ none
      rw [AList.lookup_insert]
      exact Option.some_ne_none bytes
    · show (self.results.insert id bytes).lookup id' ≠ none
      rw [AList.lookup_insert_ne hid]
      exact h.slot id' record hrecord

/-- A record is charged with the slot it is for, which is empty. -/
lemma Balanced.put {record : RecoveryRecord}
    (hok : self.putRecovery size record = .ok store) : Balanced maxBytes store := by
  obtain ⟨hempty, rfl⟩ := putRecovery_ok hok
  refine ⟨fun hlimit => le_trans (weight_mono fun id bytes hresult => ?_) (h.cost_le hlimit),
    fun id r hr => ?_, h.small⟩
  · by_cases hid : id = record.taskId
    · subst hid
      have hempty' : self.results.lookup record.taskId = some bytes := hresult
      rw [show self.results.lookup record.taskId = some [] from hempty] at hempty'
      cases hempty'
      exact le_refl _
    · have hsame : (self.withRecord record).hasRecovery id = self.hasRecovery id := by
        show ((self.recovery.insert record.taskId record).lookup id).isSome = _
        rw [AList.lookup_insert_ne hid]
        rfl
      unfold charge
      rw [hsame]
  · rcases Table.of_lookup_insert hr with ⟨rfl, -⟩ | ⟨-, hold⟩
    · show self.getResult record.taskId ≠ none
      rw [hempty]
      nofun
    · exact h.slot id r hold

/-- Without its record a result is charged with its own length. -/
lemma Balanced.finish (hok : self.finishRecovery id = .ok store) : Balanced maxBytes store := by
  obtain ⟨-, rfl⟩ := finishRecovery_ok hok
  refine ⟨fun hlimit => le_trans (weight_mono fun id' bytes hresult => ?_) (h.cost_le hlimit),
    fun id' record hrecord => ?_, h.small⟩
  · have hless : (self.withoutRecord id).hasRecovery id' = true → self.hasRecovery id' = true := by
      intro hsome
      have hsome' : ((self.recovery.erase id).lookup id').isSome = true := hsome
      by_cases hid : id' = id
      · rw [hid, AList.lookup_erase] at hsome'
        cases hsome'
      · rw [AList.lookup_erase_ne hid] at hsome'
        exact hsome'
    unfold charge
    split_ifs with hnew hold hold
    · exact le_refl _
    · simp only [Bool.or_eq_true, not_or] at hnew hold
      exact absurd hnew (not_or.mpr ⟨hold.1, fun hsome => hold.2 (hless hsome)⟩)
    · exact h.small id' bytes hresult
    · exact le_refl _
  · exact h.slot id' record (Table.of_lookup_erase hrecord).2

/-- A result without a record may go. -/
lemma Balanced.delete
    (hok : self.deleteResult id = .ok (answer, store)) : Balanced maxBytes store := by
  unfold deleteResult at hok
  split_ifs at hok with hrecord hsome
  · cases hok
    have hnone : self.recovery.lookup id = none := by simpa [hasRecovery] using hrecord
    refine ⟨fun hlimit => le_trans weight_erase_le (h.cost_le hlimit), fun id' record hr => ?_,
      fun id' bytes hresult => ?_⟩
    · have hid : id' ≠ id := by
        rintro rfl
        rw [show self.recovery.lookup id' = some record from hr] at hnone
        cases hnone
      show (self.results.erase id).lookup id' ≠ none
      rw [AList.lookup_erase_ne hid]
      exact h.slot id' record hr
    · exact h.small id' bytes (Table.of_lookup_erase hresult).2
  · cases hok
    exact h

omit h in
/-- What a transaction without an answer of its own says. -/
lemma map_answer_ok {result : Except String Store}
    (h : result.map (true, ·) = .ok (answer, store)) : answer = true ∧ result = .ok store := by
  cases result with
  | error e => cases h
  | ok s =>
    cases h
    exact ⟨rfl, rfl⟩

variable {call : Call}

lemma Balanced.transaction (hok : self.transaction size maxBytes call = .ok (answer, store)) :
    Balanced maxBytes store := by
  cases call with
  | ReserveResult id => exact h.reserve hok
  | SaveResult id bytes => exact h.save (map_answer_ok hok).2
  | PutRecovery record => exact h.put (map_answer_ok hok).2
  | FinishRecovery id => exact h.finish (map_answer_ok hok).2
  | DeleteResult id => exact h.delete hok

end

/-- **Every attempt keeps the invariant.** -/
lemma Balanced.after (self : Store) (attempt : Attempt) (h : Balanced maxBytes self) :
    Balanced maxBytes (self.after size maxBytes attempt) := by
  unfold Store.after
  split
  · rename_i hok
    exact h.transaction hok
  · exact h

/-! ## What a call answers, and what it changes -/

variable {attempt : Attempt}

/-- A transaction is committed with its answer, or the store is as it was. -/
lemma after_cases (size : RecoveryRecord → ℕ) (maxBytes : ℕ) (self : Store) (attempt : Attempt) :
    (∃ answer, self.transaction size maxBytes attempt.call =
        .ok (answer, self.after size maxBytes attempt) ∧
        self.answer size maxBytes attempt = .ok answer) ∨
      self.after size maxBytes attempt = self ∧ ∃ error, self.answer size maxBytes attempt =
        .error error := by
  unfold Store.after answer
  cases hfault : attempt.fault with
  | some error => exact .inr ⟨rfl, error, rfl⟩
  | none =>
    cases hok : self.transaction size maxBytes attempt.call with
    | error error => exact .inr ⟨rfl, error, rfl⟩
    | ok result => exact .inl ⟨result.1, rfl, rfl⟩

/-- **A result stays** unless a deletion of it goes through. -/
lemma transaction_result (hok : self.transaction size maxBytes call = .ok (answer, store))
    (hresult : self.getResult id = some bytes) (hne : bytes ≠ []) :
    store.getResult id = some bytes ∨ call = .DeleteResult id ∧ answer = true := by
  cases call with
  | ReserveResult id' =>
    have hok' : self.reserveResult id' maxBytes = .ok (answer, store) := hok
    cases answer with
    | true =>
      obtain ⟨hnone, rfl⟩ := reserveResult_ok hok'
      have hid : id ≠ id' := by
        rintro rfl
        rw [hnone] at hresult
        cases hresult
      exact .inl ((AList.lookup_insert_ne hid).trans hresult)
    | false =>
      unfold reserveResult at hok'
      split_ifs at hok'
      · cases hok'
        exact .inl hresult
      · cases hok'
  | SaveResult id' bytes' =>
    obtain ⟨-, hempty, rfl⟩ := saveResult_ok (map_answer_ok hok).2
    have hid : id ≠ id' := by
      rintro rfl
      rw [hempty] at hresult
      cases hresult
      exact hne rfl
    exact .inl ((AList.lookup_insert_ne hid).trans hresult)
  | PutRecovery record =>
    obtain ⟨-, rfl⟩ := putRecovery_ok (map_answer_ok hok).2
    exact .inl hresult
  | FinishRecovery id' =>
    obtain ⟨-, rfl⟩ := finishRecovery_ok (map_answer_ok hok).2
    exact .inl hresult
  | DeleteResult id' =>
    have hok' : self.deleteResult id' = .ok (answer, store) := hok
    cases answer with
    | true =>
      by_cases hid : id = id'
      · exact .inr ⟨by rw [hid], rfl⟩
      · obtain ⟨-, -, rfl⟩ := deleteResult_ok hok'
        exact .inl ((AList.lookup_erase_ne hid).trans hresult)
    | false =>
      unfold deleteResult at hok'
      split_ifs at hok'
      · cases hok'
      · cases hok'
        exact .inl hresult

/-! ## The result -/

/-- A store without results. -/
def fresh (metadata : Metadata) : Store := ⟨metadata, ∅, ∅, recovery_key_empty⟩

lemma balanced_fresh (metadata : Metadata) : Balanced maxBytes (fresh metadata) :=
  ⟨fun _ => Nat.zero_le _, (fun _ _ h => nomatch h), (fun _ _ h => nomatch h)⟩

/-- **The result store**, after any attempts from an empty one: its cost is within the limit,
    records have slots, results stay until they are deleted, a slot with a record is not deleted, a
    recovery is finished only over a result, and a call that reports an error changes nothing. -/
theorem result_store_keeps_budget (size : RecoveryRecord → ℕ) (maxBytes : ℕ) (metadata : Metadata)
    (attempts : List Attempt) :
    let s := run (.after size maxBytes) (fresh metadata) attempts
    (maxBytes < usizeMax → s.cost ≤ maxBytes) ∧
    (∀ id record, s.recovery.lookup id = some record → s.getResult id ≠ none) ∧
    (∀ id bytes attempt, s.getResult id = some bytes → bytes ≠ [] →
      (s.after size maxBytes attempt).getResult id = some bytes ∨
        attempt.call = .DeleteResult id ∧ s.answer size maxBytes attempt = .ok true) ∧
    (∀ id attempt, s.hasRecovery id = true → attempt.call = .DeleteResult id →
      ∃ error, s.answer size maxBytes attempt = .error error) ∧
    (∀ id attempt answer, attempt.call = .FinishRecovery id →
      s.answer size maxBytes attempt = .ok answer →
      ∃ bytes, s.getResult id = some bytes ∧ bytes ≠ []) ∧
    ∀ attempt error, s.answer size maxBytes attempt = .error error →
      s.after size maxBytes attempt = s := by
  intro s
  have hbalanced : Balanced maxBytes s := run_invariant .after (balanced_fresh metadata) _
  refine ⟨hbalanced.cost_le, hbalanced.slot, fun id bytes attempt hresult hne => ?_,
    fun id attempt hrecord hcall => ?_, fun id attempt answer hcall hanswer => ?_,
    fun attempt error hanswer => ?_⟩
  · rcases after_cases size maxBytes s attempt with
      ⟨answer, hok, hanswer⟩ | ⟨hsame, -⟩
    · rcases transaction_result hok hresult hne with hstays | ⟨hcall, rfl⟩
      · exact .inl hstays
      · exact .inr ⟨hcall, hanswer⟩
    · exact .inl (by rw [hsame]; exact hresult)
  · rcases after_cases size maxBytes s attempt with
      ⟨answer, hok, -⟩ | ⟨-, herror⟩
    · rw [hcall] at hok
      simp [Store.transaction, deleteResult, hrecord] at hok
    · exact herror
  · rcases after_cases size maxBytes s attempt with
      ⟨answer', hok, -⟩ | ⟨-, error, herror⟩
    · rw [hcall] at hok
      exact (finishRecovery_ok (map_answer_ok hok).2).1
    · rw [herror] at hanswer
      cases hanswer
  · rcases after_cases size maxBytes s attempt with
      ⟨answer', -, hok⟩ | ⟨hsame, -⟩
    · rw [hok] at hanswer
      cases hanswer
    · exact hsame

/-- A reservation within the budget. -/
theorem result_store_keeps_budget_reserved :
    (run (.after (fun _ => 0) maxResultBytes) (fresh .empty)
      [⟨.ReserveResult "one", none⟩, ⟨.ReserveResult "two", none⟩]).cost ≤ maxResultBytes :=
  (result_store_keeps_budget (fun _ => 0) maxResultBytes .empty
    [⟨.ReserveResult "one", none⟩, ⟨.ReserveResult "two", none⟩]).1 (by decide)

/-! ## The largest limit -/

/-- As many ids as wanted. -/
def idOf (i : ℕ) : String := String.ofList (List.replicate i 'a')

lemma idOf_injective {i j : ℕ} (h : idOf i = idOf j) : i = j := by
  have hlist := congrArg (fun id => id.toList.length) h
  simpa [idOf] using hlist

def reservations (n : ℕ) : List Attempt :=
  (List.range n).map fun i => ⟨.ReserveResult (idOf i), none⟩

/-- **Nothing is refused** at the largest limit. -/
lemma reserveResult_unlimited (hnone : self.getResult id = none) :
    self.reserveResult id usizeMax =
      .ok (true, { self with results := self.results.insert id [] }) := by
  have hfits : saturatingAdd self.usedBytes maxResultBytes ≤ usizeMax := min_le_right _ _
  unfold reserveResult
  rw [hnone, if_neg (by simp), if_pos hfits]

lemma cost_reservations (n : ℕ) :
    let s := run (.after size usizeMax) (fresh .empty) (reservations n)
    s.cost = n * maxResultBytes ∧ ∀ i, n ≤ i → s.getResult (idOf i) = none := by
  induction n with
  | zero => exact ⟨(Nat.zero_mul _).symm, fun _ _ => rfl⟩
  | succ n ih =>
    obtain ⟨hcost, hfree⟩ := ih
    have hlist : reservations (n + 1) = reservations n ++ [⟨.ReserveResult (idOf n), none⟩] := by
      simp [reservations, List.range_succ]
    simp only [hlist, run_append, run_cons, run_nil]
    set s := run (.after size usizeMax) (fresh .empty) (reservations n) with hs
    have hnone : s.getResult (idOf n) = none := hfree n (le_refl n)
    have hafter : s.after size usizeMax ⟨.ReserveResult (idOf n), none⟩ =
        { s with results := s.results.insert (idOf n) [] } := by
      simp only [Store.after, transaction, reserveResult_unlimited hnone]
    rw [hafter]
    refine ⟨?_, fun i hi => ?_⟩
    · rw [cost_reserved hnone, hcost, Nat.succ_mul, Nat.add_comm]
    · have hne : idOf i ≠ idOf n := fun heq => by
        have := idOf_injective heq
        omega
      exact (AList.lookup_insert_ne hne).trans (hfree i (by omega))

/-- **The largest limit is exceeded.**  The sum stops at the largest `usize`, so at that limit there
    is always room for one more. -/
theorem largest_limit_exceeded :
    usizeMax < (run (.after (fun _ => 0) usizeMax) (fresh .empty)
      (reservations (2 ^ 42 + 1))).cost := by
  rw [(cost_reservations (2 ^ 42 + 1)).1]
  norm_num [usizeMax, maxResultBytes]

end Store

end Rauha.Sandbox
