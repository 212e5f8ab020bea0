import Rauha.Sandbox.Sealability

/-!
# A result that fits

What the rounds of `sealBoundedResult` do to a result, whatever it is.  `Shortened` relates it to
what is left of it after some rounds.  Signing (`Shortened.sealOnce`) and giving something up
(`Shortened.shrink`) keep the relation, and every round gives up something (`weight_shrink_lt`).
-/

namespace Rauha.Sandbox

open List

/-- **What is left of a result**: beginnings of its streams and enforcement events, with an issue
    for each of them that is shorter.  Only the receipts are others. -/
structure Shortened (result sealed : SandboxResult) : Prop where
  stdout : sealed.stdout <+: result.stdout
  stderr : sealed.stderr <+: result.stderr
  enforcementEvents : sealed.enforcementEvents <+: result.enforcementEvents
  captureIssues : ∀ issue, issue ∈ sealed.captureIssues ↔
    issue ∈ result.captureIssues ∨
      issue = "stdout.preview_truncated" ∧ sealed.stdout ≠ result.stdout ∨
      issue = "stderr.preview_truncated" ∧ sealed.stderr ≠ result.stderr ∨
      issue = "enforcement_events.preview_truncated" ∧
        sealed.enforcementEvents ≠ result.enforcementEvents
  rest : { sealed with
    stdout := result.stdout
    stderr := result.stderr
    enforcementEvents := result.enforcementEvents
    captureIssues := result.captureIssues
    receiptJson := result.receiptJson
    receiptDsseJson := result.receiptDsseJson } = result

variable {signer : Signer} {result r sealed smaller : SandboxResult} {payload : ReceiptPayload}

lemma Shortened.refl : Shortened result result :=
  ⟨prefix_refl _, prefix_refl _, prefix_refl _,
    fun issue => by simp, rfl⟩

lemma Shortened.sealOnce (h : Shortened result r) :
    Shortened result (sealOnce signer r payload).1 :=
  ⟨h.stdout, h.stderr, h.enforcementEvents,
    fun issue => mem_sortDedup.trans (h.captureIssues issue), h.rest⟩

lemma truncateUtf8_prefix (text : List Char) (maxBytes : ℕ) :
    truncateUtf8 text maxBytes <+: text := by
  induction text generalizing maxBytes with
  | nil => exact prefix_refl _
  | cons c rest ih =>
    unfold truncateUtf8
    split_ifs
    · exact cons_prefix_cons.mpr ⟨rfl, ih _⟩
    · exact List.nil_prefix

/-- What is cut off a beginning makes it shorter than the whole. -/
lemma ne_of_prefix {α : Type} {p q whole : List α} (hp : p <+: q) (hq : q <+: whole) (hne : p ≠ q) :
    p ≠ whole := by
  rintro rfl
  exact hne (hp.eq_of_length_le hq.length_le)

lemma Shortened.shrink (h : Shortened result r) (hshrink : shrink r = some smaller) :
    Shortened result smaller := by
  have hless := weight_shrink_lt hshrink
  unfold Sandbox.shrink at hshrink
  split_ifs at hshrink with hevents htexts hlarger <;> cases hshrink
  · have hcut := List.take_prefix (r.enforcementEvents.length / 2) r.enforcementEvents
    have hne := ne_of_prefix hcut h.enforcementEvents fun heq => by simp [weight, heq] at hless
    refine ⟨h.stdout, h.stderr, hcut.trans h.enforcementEvents, fun issue => ?_, h.rest⟩
    rw [mem_append, h.captureIssues, mem_singleton]
    tauto
  · have hcut := truncateUtf8_prefix r.stdout (byteLength r.stdout / 2)
    have hne := ne_of_prefix hcut h.stdout fun heq => by simp [weight, heq] at hless
    refine ⟨hcut.trans h.stdout, h.stderr, h.enforcementEvents, fun issue => ?_, h.rest⟩
    rw [mem_append, h.captureIssues, mem_singleton]
    tauto
  · have hcut := truncateUtf8_prefix r.stderr (byteLength r.stderr / 2)
    have hne := ne_of_prefix hcut h.stderr fun heq => by simp [weight, heq] at hless
    refine ⟨h.stdout, hcut.trans h.stderr, h.enforcementEvents, fun issue => ?_, h.rest⟩
    rw [mem_append, h.captureIssues, mem_singleton]
    tauto

/-! ## When nothing is left to give up -/

/-- **A result without its output and its enforcement events**, and with the issues that say so. -/
def bare (result : SandboxResult) : SandboxResult :=
  { result with
    stdout := []
    stderr := []
    enforcementEvents := []
    captureIssues := result.captureIssues ++
      (if result.stdout = [] then [] else ["stdout.preview_truncated"]) ++
      (if result.stderr = [] then [] else ["stderr.preview_truncated"]) ++
      (if result.enforcementEvents = [] then [] else ["enforcement_events.preview_truncated"]) }

/-- Issues are sorted by what they are, not by where they stood. -/
lemma sortDedup_congr {l m : List String} (h : ∀ issue, issue ∈ l ↔ issue ∈ m) :
    sortDedup l = sortDedup m := by
  have hsorted : ∀ issues : List String, (sortDedup issues).Pairwise (· ≤ ·) := by
    intro issues
    rw [sortDedup_eq]
    exact (pairwise_mergeSort_le issues).sublist (dedup_sublist _)
  have hperm : (sortDedup l).Perm (sortDedup m) :=
    (perm_ext_iff_of_nodup (sortDedup_nodup l) (sortDedup_nodup m)).mpr fun issue => by
      rw [mem_sortDedup, mem_sortDedup, h]
  exact hperm.eq_of_pairwise (fun a b _ _ => String.le_antisymm) (hsorted l) (hsorted m)

/-- Signing changes the outputs and the issues of a payload, and nothing else. -/
def SamePayload (p q : ReceiptPayload) : Prop :=
  { p with outputsSha256 := q.outputsSha256, captureIssues := q.captureIssues } = q

lemma SamePayload.context {p q : ReceiptPayload} (h : SamePayload p q) : p.context = q.context := by
  rw [← h]

/-- A round does not look at the receipts of the last one, nor at the order of the issues. -/
lemma sealOnce_congr {self : ReceiptSigner} {p q : ReceiptPayload} (hpayload : SamePayload p q)
    {issues : List String} (hissues : sortDedup r.captureIssues = sortDedup issues)
    (json dsse : String) :
    (sealOnce self.signer r p).1 = (sealOnce self.signer { r with
      captureIssues := issues, receiptJson := json, receiptDsseJson := dsse } q).1 := by
  have hpayload' : (sealOnce self.signer r p).2 = (sealOnce self.signer { r with
      captureIssues := issues, receiptJson := json, receiptDsseJson := dsse } q).2 := by
    simp only [sealOnce]
    rw [← hpayload, hissues]
    rfl
  have hsealed : ∀ (r : SandboxResult) (p : ReceiptPayload), (sealOnce self.signer r p).1 =
      { r with
        captureIssues := sortDedup r.captureIssues
        receiptJson := self.sign (sealOnce self.signer r p).2
        receiptDsseJson := self.signDsse (sealOnce self.signer r p).2 } := fun _ _ => rfl
  rw [hsealed, hsealed, ← hpayload', hissues]

/-- **What is left when nothing can be given up** is determined by the result. -/
lemma Shortened.sealOnce_bare {self : ReceiptSigner} {p q : ReceiptPayload} (h : Shortened result r)
    (hnone : Sandbox.shrink (Sandbox.sealOnce self.signer r p).1 = none)
    (hpayload : SamePayload p q) :
    (Sandbox.sealOnce self.signer r p).1 = (Sandbox.sealOnce self.signer (bare result) q).1 := by
  obtain ⟨hstdout, hstderr, hevents⟩ :
      r.stdout = [] ∧ r.stderr = [] ∧ r.enforcementEvents = [] := by
    unfold Sandbox.shrink at hnone
    split_ifs at hnone with hevents htexts
    rw [not_or, not_not, not_not] at htexts
    exact ⟨htexts.1, htexts.2, not_not.mp hevents⟩
  have hissues : sortDedup r.captureIssues = sortDedup (bare result).captureIssues := by
    refine sortDedup_congr fun issue => ?_
    rw [h.captureIssues, hstdout, hstderr, hevents]
    simp only [bare, mem_append, ne_eq, @eq_comm _ []]
    split_ifs <;> simp_all [or_assoc]
  have hbare : bare result = { r with
      captureIssues := (bare result).captureIssues
      receiptJson := result.receiptJson
      receiptDsseJson := result.receiptDsseJson } := by
    have hrest := h.rest
    clear h hnone hissues
    rcases r with ⟨⟩
    rcases result with ⟨⟩
    simp_all [bare]
  rw [hbare]
  exact sealOnce_congr hpayload hissues _ _

/-- **The rounds**: what comes out fits, or nothing is left to give up. -/
lemma sealLoop_spec {self : ReceiptSigner} {fuel : ℕ} {q : ReceiptPayload}
    (hschema : q.context.schema = executionReceiptSchema) (hpayload : SamePayload payload q)
    (h : Shortened result r) (hfuel : weight r < fuel) :
    (∃ sealed, sealLoop self.signer fuel r payload = .ok sealed ∧ Shortened result sealed ∧
      (self.encode sealed).length ≤ maxResultBytes) ∨
    sealLoop self.signer fuel r payload = .error "sandbox result metadata exceeds the wire budget" ∧
      maxResultBytes < (self.encode (sealOnce self.signer (bare result) q).1).length := by
  induction fuel generalizing r payload with
  | zero => omega
  | succ fuel ih =>
    have hverified : ¬ self.signer.verifies (sealOnce self.signer r payload).2 = false := by
      have htrue : self.verify (sealOnce self.signer r payload).2 = true := by
        rw [verify_eq, decide_eq_true_eq, ← hschema, ← hpayload.context]
        rfl
      rw [show self.signer.verifies (sealOnce self.signer r payload).2 = true from htrue]
      nofun
    have hsigned : Shortened result (sealOnce self.signer r payload).1 := h.sealOnce
    rw [sealLoop]
    simp only [if_neg hverified]
    by_cases hsize : (self.signer.encode (sealOnce self.signer r payload).1).length ≤ maxResultBytes
    · rw [if_pos hsize]
      exact .inl ⟨_, rfl, hsigned, hsize⟩
    · rw [if_neg hsize]
      cases hshrink : shrink (sealOnce self.signer r payload).1 with
      | none =>
        refine .inr ⟨rfl, ?_⟩
        rw [← h.sealOnce_bare hshrink hpayload]
        exact Nat.lt_of_not_le hsize
      | some smaller =>
        have hless : weight smaller < weight (sealOnce self.signer r payload).1 :=
          weight_shrink_lt hshrink
        have hsame : weight (sealOnce self.signer r payload).1 = weight r := rfl
        exact ih hpayload (hsigned.shrink hshrink) (by omega)

/-- The payload that the rounds start with. -/
def filled (result : SandboxResult) (payload : ReceiptPayload) : ReceiptPayload :=
  { payload with
    status := result.status
    exitCode := result.exitCode
    startedAt := if result.startedAt = "" then none else some result.startedAt
    finishedAt := if result.finishedAt = "" then none else some result.finishedAt
    unavailableControls := result.unavailableControls }

/-- **Bounded sealing**, for payloads of the current schema.  A result that fits is sealed as it is.
    Otherwise what comes out is what is left of it, and fits; or there is an error, and even without
    output and enforcement events the result does not fit. -/
theorem seal_bounded (self : ReceiptSigner) (result : SandboxResult) (payload : ReceiptPayload)
    (hschema : payload.context.schema = executionReceiptSchema) :
    let full := (sealOnce self.signer result (filled result payload)).1
    let least := (sealOnce self.signer (bare result) (filled result payload)).1
    ((self.encode full).length ≤ maxResultBytes →
      sealBoundedResult self.signer result payload = .ok full) ∧
    ((∃ sealed, sealBoundedResult self.signer result payload = .ok sealed ∧
        Shortened result sealed ∧ (self.encode sealed).length ≤ maxResultBytes) ∨
      sealBoundedResult self.signer result payload =
          .error "sandbox result metadata exceeds the wire budget" ∧
        maxResultBytes < (self.encode least).length) := by
  intro full least
  refine ⟨fun hfits => ?_, ?_⟩
  · have hverifies : self.signer.verifies (sealOnce self.signer result (filled result payload)).2 =
        true := by
      refine (verify_eq _).trans ?_
      rw [decide_eq_true_eq, ← hschema]
      rfl
    show sealLoop self.signer (weight result + 1) result (filled result payload) = .ok full
    rw [sealLoop]
    simp only [hverifies, Bool.true_eq_false, if_false]
    exact if_pos hfits
  · exact sealLoop_spec (q := filled result payload) hschema rfl .refl
      (Nat.lt_succ_self (weight result))

/-- An interrupted task whose result fits. -/
theorem seal_bounded_sample :
    sampleReceipt.context.schema = executionReceiptSchema ∧
    ∃ sealed, sealBoundedResult sampleSigner.signer (runtimeError sampleRecord) sampleReceipt =
      .ok sealed ∧ Shortened (runtimeError sampleRecord) sealed := by
  refine ⟨rfl, ?_⟩
  rcases (seal_bounded sampleSigner (runtimeError sampleRecord) sampleReceipt rfl).2 with
    ⟨sealed, hok, hshort, -⟩ | ⟨herror, -⟩
  · exact ⟨sealed, hok, hshort⟩
  · have hadmitted := validateRecoveryBudget_sample
    rw [World.validateRecoveryBudget, show sampleWorld.signer = sampleSigner.signer from rfl,
      show sampleRecord.receipt = sampleReceipt from rfl, herror] at hadmitted
    cases hadmitted

end Rauha.Sandbox
