import Mathlib.Data.List.Destutter
import Rauha.Evidence.TextCodec
import Rauha.Library.Lines
import Rauha.Library.Wire
import Rauha.Oci.Content
import Rauha.Sandbox.Service

/-!
# Admission implies sealability

Before anything runs, a result with both receipts is sealed for the task as if it had been
interrupted, and must fit a quarter of the wire budget.  What recovery seals later is larger: it
carries an event, what was wrong with the capture, whatever output was logged, and by then perhaps
the digest of the image; and all but the output is there three times, once of it in base 64 inside
a text inside the message.

`ReceiptSigner` is for any encodings with the laws of `Encodings`.  `recovered_result_seals` is the
claim of the budget: a record that was admitted can be sealed after any interruption.  The argument
has two halves.  The loop gives up bytes of output until there are none (`sealLoop_ok`), and with no
output left the message exceeds the one that was measured by a constant (`length_encode_le`), since
the issues that can be reported are fifteen in all.
-/

namespace Rauha.Sandbox

open Wire List

/-! ## Reading the logs -/

inductive LogContent where
  | Unavailable
  | ReadFailed
  | Bytes (bytes : List UInt8)
  deriving DecidableEq, Repr

/-- A log file, and whether the mark of an incomplete one stands beside it. -/
structure LogFile where
  incomplete : Bool
  content : LogContent
  deriving DecidableEq, Repr

def truncationMarker (stream : String) (maxBytes : ℕ) : List Char :=
  ("\n[rauha: " ++ stream ++ " truncated after " ++ toString maxBytes ++ " bytes]\n").toList

def readTextCapped (file : LogFile) (stream : String) (maxBytes : ℕ) : List Char × List String :=
  let storage := if file.incomplete then [stream ++ ".storage_incomplete"] else []
  match file.content with
  | .Unavailable => ([], storage ++ [stream ++ ".unavailable"])
  | .ReadFailed => ([], storage ++ [stream ++ ".read_failed"])
  | .Bytes bytes =>
    let truncated := maxBytes < bytes.length
    let bytes := bytes.take maxBytes
    let text := Utf8.decodeLossy bytes
    -- The lossy reader hands out a text of its own exactly when it replaced something.
    let invalid := if Utf8.encode text = bytes then [] else [stream ++ ".invalid_utf8"]
    if truncated ∨ maxBytes < byteLength text then
      let marker := truncationMarker stream maxBytes
      (truncateUtf8 text (maxBytes - byteLength marker) ++
          (if byteLength marker ≤ maxBytes then marker else []),
        storage ++ (invalid ++ [stream ++ ".preview_truncated"]))
    else (text, storage ++ invalid)

def readAllCapped (stdout stderr : LogFile) (maxBytesPerStream : ℕ) : CapturedLogs :=
  let out := readTextCapped stdout "stdout" maxBytesPerStream
  let err := readTextCapped stderr "stderr" maxBytesPerStream
  ⟨out.1, err.1, out.2 ++ err.2⟩

/-- What can be wrong with the capture of a stream. -/
def streamIssues (stream : String) : List String :=
  [stream ++ ".storage_incomplete", stream ++ ".unavailable", stream ++ ".read_failed",
    stream ++ ".invalid_utf8", stream ++ ".preview_truncated"]

/-- What recovery can report. -/
def recoveryIssues : List String :=
  ["runtime.interrupted", "execution.outcome_unknown", "enforcement_events.recovery_gap",
    "broker.recovery_gap", "output.unavailable_after_interruption"] ++
    (streamIssues "stdout" ++ streamIssues "stderr")

lemma readTextCapped_issues (file : LogFile) (stream : String) (maxBytes : ℕ) :
    (readTextCapped file stream maxBytes).2 ⊆ streamIssues stream := by
  unfold readTextCapped
  cases file.content with
  | Unavailable => cases file.incomplete <;> simp [streamIssues]
  | ReadFailed => cases file.incomplete <;> simp [streamIssues]
  | Bytes bytes =>
    simp only
    split <;> (dsimp only; split_ifs) <;> simp [streamIssues]

/-- **The log reader reports what it can report.** -/
lemma readAllCapped_issues (stdout stderr : LogFile) (maxBytes : ℕ) :
    (readAllCapped stdout stderr maxBytes).issues ⊆ recoveryIssues := by
  have hout := readTextCapped_issues stdout "stdout" maxBytes
  have herr := readTextCapped_issues stderr "stderr" maxBytes
  exact subset_append_of_subset_right _ (append_subset.mpr
    ⟨subset_append_of_subset_left _ hout, subset_append_of_subset_right _ herr⟩)

/-! ## Receipts and results on the wire -/

def executionReceiptSchema : String := "rauha.execution-receipt.v1"

def admissionStr : PolicyAdmission → String
  | .Strict => "strict"
  | .Audit => "audit"

/-- **The daemon's signer**: an Ed25519 key with SHA-256, the encodings of receipts and messages,
    and what stands in a message besides the fields of the model.  Texts of other events and the
    encoding of enforcement events are open. -/
structure ReceiptSigner extends Encodings where
  sha256 : List UInt8 → List UInt8
  sha256_length : ∀ bytes, (sha256 bytes).length = 32
  signBytes : List UInt8 → List UInt8
  signBytes_length : ∀ bytes, (signBytes bytes).length = 64
  verifyingKey : List UInt8
  verifyingKey_length : verifyingKey.length = 32
  verifyStrict : List UInt8 → List UInt8 → Bool
  /-- A signature of the key verifies under the key. -/
  verifyStrict_signBytes : ∀ bytes, verifyStrict bytes (signBytes bytes) = true
  zoneText : ℕ → String
  /-- When an event happened, in RFC 3339. -/
  timestamp : String → String
  timestamp_length : ∀ kind, (Utf8.encode (timestamp kind).toList).length ≤ 38
  describe : String → String
  enforcementEvent : String → List UInt8

def utf8 (s : String) : List UInt8 := Utf8.encode s.toList

/-- An integer of 32 bits in a document. -/
def jsonInt : ℤ → JsonNumber
  | .ofNat n => .posInt (UInt64.ofNat n)
  | .negSucc m => .negInt ⟨m % 2 ^ 63, Nat.mod_lt m (Nat.two_pow_pos 63)⟩

def jsonOption {α : Type} (f : α → Json) : Option α → Json
  | some a => f a
  | none => .null

def jsonStrings (texts : List String) : Json := .array (texts.map .string)

/-- The manifest digest without its algorithm. -/
def digestHex (manifestDigest : String) : String :=
  if "sha256:".toList.isPrefixOf manifestDigest.toList then
    String.ofList (manifestDigest.toList.drop 7)
  else manifestDigest

/-- A list of texts that is left out when it is empty. -/
def issuesField (issues : List String) : List (String × Json) :=
  if issues = [] then [] else [("capture_issues", jsonStrings issues)]

namespace ReceiptSigner

variable (self : ReceiptSigner)

/-- The bytes of a document. -/
def jsonBytes (j : Json) : List UInt8 := Utf8.encode (self.json j)

def payloadJson (payload : ReceiptPayload) : Json :=
  let context := payload.context
  .object
    ([("schema", .string context.schema),
      ("task_id", .string payload.taskId),
      ("zone_id", .string (self.zoneText payload.zoneId)),
      ("image", .object
        [("reference", .string context.reference),
          ("manifest_digest", .string payload.manifestDigest),
          ("digest_verified", .bool payload.digestVerified)]),
      ("policy_sha256", .string context.policySha256),
      ("inputs_sha256", .string context.inputsSha256),
      ("outputs_sha256", .string payload.outputsSha256),
      ("status", .string payload.status),
      ("exit_code", jsonOption (fun code => .number (jsonInt code)) payload.exitCode),
      ("started_at", jsonOption .string payload.startedAt),
      ("finished_at", jsonOption .string payload.finishedAt),
      ("enforcement", .object
        [("allow", .number (.posInt context.allow)),
          ("deny", .number (.posInt context.deny)),
          ("error", .number (.posInt context.error)),
          ("dropped", .number (.posInt context.dropped))]),
      ("unavailable_controls", jsonStrings payload.unavailableControls)] ++
      issuesField payload.captureIssues)

def sign (payload : ReceiptPayload) : String :=
  String.ofList <| self.json <| .object
    [("payload", self.payloadJson payload),
      ("public_key", .string (String.ofList (self.hex self.verifyingKey))),
      ("signature", .string (String.ofList (self.hex
        (self.signBytes (self.jsonBytes (self.payloadJson payload))))))]

/-- The check of a receipt that was just signed. -/
def verify (payload : ReceiptPayload) : Bool :=
  payload.context.schema = executionReceiptSchema &&
    self.verifyStrict (self.jsonBytes (self.payloadJson payload))
      (self.signBytes (self.jsonBytes (self.payloadJson payload)))

def statementFromPayload (payload : ReceiptPayload) : Json :=
  .object
    [("_type", .string "https://in-toto.io/Statement/v1"),
      ("subject", .array
        [.object
          [("name", .string payload.context.reference),
            ("digest", .object [("sha256", .string (digestHex payload.manifestDigest))])]]),
      ("predicateType", .string "https://rauha.dev/execution/v0"),
      ("predicate", self.payloadJson payload)]

def dssePayloadType : String := "application/vnd.in-toto+json"

/-- What a DSSE signature is over. -/
def pae (payloadType : String) (payload : List UInt8) : List UInt8 :=
  utf8 "DSSEv1 " ++ utf8 (toString (utf8 payloadType).length) ++ utf8 " " ++ utf8 payloadType ++
    utf8 " " ++ utf8 (toString payload.length) ++ utf8 " " ++ payload

def keyid : String := String.ofList ("sha256:".toList ++ self.hex (self.sha256 self.verifyingKey))

def signDsse (payload : ReceiptPayload) : String :=
  let raw := self.jsonBytes (self.statementFromPayload payload)
  String.ofList <| self.json <| .object
    [("payloadType", .string dssePayloadType),
      ("payload", .string (String.ofList (self.base64 raw))),
      ("signatures", .array
        [.object
          [("keyid", .string self.keyid),
            ("sig", .string (String.ofList (self.base64
              (self.signBytes (pae dssePayloadType raw)))))]])]

def hashOutputs (result : SandboxResult) : String :=
  let outputs := self.jsonBytes <| .object
    [("exit_code", jsonOption (fun code => .number (jsonInt code)) result.exitCode),
      ("salt", .string result.taskId),
      ("status", .string result.status),
      ("stderr", .string (String.ofList result.stderr)),
      ("stdout", .string (String.ofList result.stdout))]
  String.ofList ("sha256:".toList ++ self.hex (self.sha256 outputs))

def eventMessage (kind : String) : String :=
  if kind = "task.recovered" then
    "daemon interrupted before result commit; command was not replayed; effects may have occurred"
  else self.describe kind

def encodeEvent (kind : String) : List UInt8 :=
  self.field 1 (utf8 (self.timestamp kind)) ++ self.field 2 (utf8 kind) ++
    self.field 3 (utf8 (self.eventMessage kind))

/-- A field for every text. -/
def repeated (tag : ℕ) (texts : List String) : List UInt8 :=
  texts.flatMap fun text => self.message tag (utf8 text)

/-- The message, field by field in the order of their tags. -/
def encode (result : SandboxResult) : List UInt8 :=
  self.field 1 (utf8 result.taskId) ++ self.field 2 (utf8 (self.zoneText result.zoneId)) ++
    self.repeated 3 result.command ++ self.field 4 (utf8 result.status) ++
    (result.exitCode.elim [] fun code => self.number 5 (code % 2 ^ 64).toNat) ++
    self.field 6 (Utf8.encode result.stdout) ++ self.field 7 (Utf8.encode result.stderr) ++
    (if result.durationMs = 0 then [] else self.number 8 result.durationMs.toNat) ++
    self.field 9 (utf8 result.startedAt) ++ self.field 10 (utf8 result.finishedAt) ++
    (result.events.flatMap fun kind => self.message 11 (self.encodeEvent kind)) ++
    (result.enforcementEvents.flatMap fun event =>
      self.message 12 (self.enforcementEvent event)) ++
    self.field 13 (utf8 (admissionStr result.admission)) ++
    self.repeated 14 result.unavailableControls ++ self.field 15 (utf8 result.receiptJson) ++
    self.field 16 (utf8 result.receiptDsseJson) ++ self.repeated 17 result.captureIssues

def signer : Signer where
  sign := self.sign
  verifies := self.verify
  signDsse := self.signDsse
  hashOutputs := self.hashOutputs
  encode := self.encode

end ReceiptSigner

/-! ### What is signed -/

lemma utf8_injective : Function.Injective utf8 := by
  intro s t h
  have hdecoded := congrArg Utf8.decodeLossy h
  rw [utf8, utf8, Utf8.decodeLossy_encode, Utf8.decodeLossy_encode] at hdecoded
  exact String.toList_injective hdecoded

/-- A length is followed by a blank, which is no part of it. -/
lemma isLine_length (n : ℕ) : Lines.IsLine 32 (utf8 (toString n) ++ utf8 " ") := by
  refine ⟨_, rfl, fun hmem => ?_⟩
  obtain ⟨c, hc, hblank⟩ := Utf8.mem_encode_of_lt (by decide) hmem
  rw [Nat.toString_eq_repr, Nat.toList_repr] at hc
  have hdigit := Nat.isDigit_of_mem_toDigits (by decide) (by decide) hc
  obtain rfl : c = ' ' := Char.toNat_inj.mp hblank
  revert hdigit
  decide

lemma length_inj {m n : ℕ} {a b : List UInt8}
    (h : utf8 (toString m) ++ utf8 " " ++ a = utf8 (toString n) ++ utf8 " " ++ b) :
    m = n ∧ a = b := by
  obtain ⟨hlength, hrest⟩ := (isLine_length m).append_inj (isLine_length n) h
  have hdigits := congrArg String.toList (utf8_injective (append_cancel_right hlength))
  rw [Nat.toString_eq_repr, Nat.toString_eq_repr, Nat.toList_repr, Nat.toList_repr] at hdigits
  have hnumber := congrArg (Nat.ofDigitChars 10 · 0) hdigits
  simp only [Nat.ofDigitChars_ten_toDigits] at hnumber
  exact ⟨hnumber, hrest⟩

/-- **What is signed has one reading.**  Type and payload can contain blanks and digits: their
    lengths come first, and end at a blank. -/
theorem pae_inj (payloadType payloadType' : String) (payload payload' : List UInt8) :
    ReceiptSigner.pae payloadType payload = ReceiptSigner.pae payloadType' payload' ↔
      payloadType = payloadType' ∧ payload = payload' := by
  constructor
  · intro h
    simp only [ReceiptSigner.pae, append_assoc, append_cancel_left_eq] at h
    rw [← append_assoc, ← append_assoc (utf8 (toString (utf8 payloadType').length))] at h
    obtain ⟨hlength, hrest⟩ := length_inj h
    obtain ⟨htype, hrest⟩ := append_inj hrest hlength
    rw [append_cancel_left_eq, ← append_assoc, ← append_assoc] at hrest
    exact ⟨utf8_injective htype, (length_inj hrest).2⟩
  · rintro ⟨rfl, rfl⟩
    rfl

/-! ## What is added -/

/-- A receipt of the record before or after the container was created, at which point the digest of
    the image is noted. -/
def Noted (admitted noted : RecoveryRecord) : Prop :=
  noted = admitted ∨ ∃ (id : ℕ) (manifestDigest : String) (digestVerified : Bool),
    (manifestDigest = "" ∨ ∃ digest : Oci.Digest, manifestDigest = String.ofList digest.text) ∧
    noted = { admitted with
      containerId := some id
      receipt := { admitted.receipt with
        manifestDigest := manifestDigest, digestVerified := digestVerified } }

lemma pairwise_mergeSort_le (issues : List String) :
    (issues.mergeSort fun a b => decide (a ≤ b)).Pairwise (· ≤ ·) := by
  have hsorted : (issues.mergeSort fun a b => decide (a ≤ b)).Pairwise
      fun a b => decide (a ≤ b) = true :=
    pairwise_mergeSort (fun a b c hab hbc => by
        simp only [decide_eq_true_eq] at hab hbc ⊢
        exact String.le_trans hab hbc)
      (fun a b => by simpa using String.le_total a b) issues
  exact hsorted.imp of_decide_eq_true

lemma sortDedup_eq (issues : List String) :
    sortDedup issues = (issues.mergeSort fun a b => decide (a ≤ b)).dedup :=
  (pairwise_mergeSort_le issues).destutter_eq_dedup

variable {issues : List String}

lemma mem_sortDedup {issue : String} : issue ∈ sortDedup issues ↔ issue ∈ issues := by
  rw [sortDedup_eq, mem_dedup, mem_mergeSort]

lemma sortDedup_nodup (issues : List String) : (sortDedup issues).Nodup := by
  rw [sortDedup_eq]
  exact nodup_dedup _

/-- A list without repetitions weighs no more than a list that has all of it. -/
lemma sum_map_le_of_nodup {l m : List String} (hnodup : l.Nodup) (hsub : l ⊆ m) (f : String → ℕ) :
    (l.map f).sum ≤ (m.map f).sum := by
  obtain ⟨k, hperm, hsublist⟩ := hnodup.subperm hsub
  calc (l.map f).sum = (k.map f).sum := (hperm.map f).sum_eq.symm
    _ ≤ (m.map f).sum := (hsublist.map f).sum_le_sum fun _ _ => Nat.zero_le _

section Growth

variable (E : Encodings)

/-- Noting a digest adds at most its length, with or without the algorithm. -/
structure DigestGrows (old new : String) : Prop where
  quoted_le : E.quoted new ≤ E.quoted old + 71
  quoted_hex_le : E.quoted (digestHex new) ≤ E.quoted (digestHex old) + 71

variable {E} {old new : String}

lemma DigestGrows.of_le (hnew : E.quoted new ≤ 73) (hhex : E.quoted (digestHex new) ≤ 73) :
    DigestGrows E old new := by
  have hold := E.two_le_quoted old
  have holdHex := E.two_le_quoted (digestHex old)
  constructor <;> omega

lemma isPlain_sha256 {text : List Char} (h : ∀ c ∈ text, isPlain c = true) :
    ∀ c ∈ "sha256:".toList ++ text, isPlain c = true :=
  forall_mem_append.mpr ⟨all_eq_true.mp (by decide), h⟩

lemma isPlain_digest (digest : Oci.Digest) : ∀ c ∈ digest.text, isPlain c = true := by
  rw [digest.text_eq]
  refine isPlain_sha256 fun c hc => ?_
  have hhex := all_eq_true.mp digest.hex_digits c hc
  exact Text.of_le_z (q := fun c => Oci.isAsciiHexdigit c = true → isPlain c = true) (by decide)
    (Oci.le_z_of_isAsciiHexdigit hhex) hhex

lemma digestGrows_digest (digest : Oci.Digest) :
    DigestGrows E old (String.ofList digest.text) := by
  have hplain := isPlain_digest digest
  refine .of_le ?_ ?_
  · rw [E.quoted_plain hplain, digest.length_text]
  · have hhex : digestHex (String.ofList digest.text) = String.ofList (digest.text.drop 7) := by
      simp only [digestHex, String.toList_ofList]
      exact if_pos (List.isPrefixOf_iff_prefix.mpr digest.isSha256)
    rw [hhex, E.quoted_plain fun c hc => hplain c (mem_of_mem_drop hc), digest.hex_length]
    omega

variable {admitted noted : RecoveryRecord}

lemma Noted.receipt (E : Encodings) (h : Noted admitted noted) :
    noted.command = admitted.command ∧ noted.admission = admitted.admission ∧
    ∃ (manifestDigest : String) (digestVerified : Bool),
      DigestGrows E admitted.receipt.manifestDigest manifestDigest ∧
      noted.receipt = { admitted.receipt with
        manifestDigest := manifestDigest, digestVerified := digestVerified } := by
  rcases h with rfl | ⟨id, manifestDigest, digestVerified, hdigest, rfl⟩
  · exact ⟨rfl, rfl, _, _, ⟨Nat.le_add_right _ _, Nat.le_add_right _ _⟩, rfl⟩
  · refine ⟨rfl, rfl, manifestDigest, digestVerified, ?_, rfl⟩
    rcases hdigest with rfl | ⟨digest, rfl⟩
    · have hempty : E.quoted "" = 2 := E.quoted_literal "" rfl
      have hhex : digestHex "" = "" := by decide
      exact .of_le (by omega) (by rw [hhex]; omega)
    · exact digestGrows_digest digest

/-! ### Receipts -/

variable (self : ReceiptSigner) {outputs outputs₀ : String}

/-- The payload an interrupted task is sealed with. -/
def interruptedPayload (receipt : ReceiptPayload) (outputsSha256 : String)
    (captureIssues : List String) : ReceiptPayload :=
  { receipt with
    status := "runtime_error"
    exitCode := none
    startedAt := none
    finishedAt := none
    outputsSha256 := outputsSha256
    captureIssues := captureIssues }

/-- The issues of a recovery take at most what all of them take. -/
lemma sum_issuesField_le (hnodup : issues.Nodup) (hsub : issues ⊆ recoveryIssues) :
    ((issuesField issues).map self.fieldSize).sum ≤ 403 := by
  have hkey : self.quoted "capture_issues" = 16 := self.quoted_literal _ (by decide)
  have hplain : ∀ issue ∈ recoveryIssues, self.quoted issue + 1 = issue.toList.length + 3 := by
    intro issue hissue
    have hall : ∀ issue ∈ recoveryIssues, issue.toList.all isPlain = true := by decide
    rw [self.quoted_literal issue (hall issue hissue)]
  have hcatalog : (recoveryIssues.map fun issue => self.quoted issue + 1).sum = 384 := by
    rw [map_congr_left hplain]
    decide
  have hsum := sum_map_le_of_nodup hnodup hsub fun issue => self.quoted issue + 1
  cases issues with
  | nil => simp [issuesField]
  | cons issue rest =>
    have hsize : self.size (jsonStrings (issue :: rest)) =
        ((issue :: rest).map fun issue => self.quoted issue + 1).sum + 1 := by
      rw [jsonStrings, map_cons, self.size_array, ← map_cons, map_map]
      rfl
    simp only [issuesField, if_neg (cons_ne_nil _ _), map_cons, map_nil,
      sum_cons, sum_nil, Encodings.fieldSize, hkey, hsize]
    rw [map_cons, sum_cons] at hsum
    omega

variable {old new : ReceiptPayload}

/-- A later payload of the same task: the image was noted, there are other outputs, and issues. -/
inductive Later : (old new : ReceiptPayload) → Prop
  | mk (receipt : ReceiptPayload) {digest outputs outputs₀ : String} (verified : Bool)
      {issues : List String}
      (digest_grows : DigestGrows self.toEncodings receipt.manifestDigest digest)
      (quoted_outputs : self.quoted outputs = self.quoted outputs₀) (nodup : issues.Nodup)
      (subset : issues ⊆ recoveryIssues) :
      Later (interruptedPayload receipt outputs₀ [])
        (interruptedPayload { receipt with manifestDigest := digest, digestVerified := verified }
          outputs issues)

variable {self}

lemma size_payloadJson_le (h : Later self old new) :
    self.size (self.payloadJson new) ≤ self.size (self.payloadJson old) + 475 := by
  obtain ⟨receipt, verified, hgrows, houtputs, hnodup, hsub⟩ := h
  have hissues := sum_issuesField_le self hnodup hsub
  have hdigest := hgrows.quoted_le
  have hverified := self.size_bool_le verified receipt.digestVerified
  have hnone : issuesField [] = [] := rfl
  simp only [ReceiptSigner.payloadJson, interruptedPayload, cons_append, nil_append,
    Encodings.size_object, map_cons, map_nil, sum_cons, sum_nil, Encodings.fieldSize,
    Encodings.size_string, hnone]
  omega

lemma length_utf8_json (j : Json) :
    (utf8 (String.ofList (self.json j))).length = self.size j := by
  rw [utf8, String.toList_ofList]
  rfl

lemma quoted_hex (bytes : List UInt8) :
    self.quoted (String.ofList (self.hex bytes)) = 2 * bytes.length + 2 := by
  rw [self.quoted_plain (self.hex_plain bytes), self.hex_length]

lemma quoted_base64 (bytes : List UInt8) :
    self.quoted (String.ofList (self.base64 bytes)) = 4 * ((bytes.length + 2) / 3) + 2 := by
  rw [self.quoted_plain (self.base64_plain bytes), self.base64_length]

lemma quoted_sha256 (bytes : List UInt8) :
    self.quoted (String.ofList ("sha256:".toList ++ self.hex bytes)) = 2 * bytes.length + 9 := by
  have hlength : "sha256:".toList.length = 7 := by decide
  rw [self.quoted_plain (isPlain_sha256 (self.hex_plain bytes)), length_append, self.hex_length]
  omega

/-- **A signed receipt is its payload and a constant.** -/
lemma length_sign (payload : ReceiptPayload) :
    (utf8 (self.sign payload)).length = self.size (self.payloadJson payload) + 235 := by
  have hpayload : self.quoted "payload" = 9 := self.quoted_literal _ (by decide)
  have hkey : self.quoted "public_key" = 12 := self.quoted_literal _ (by decide)
  have hsignature : self.quoted "signature" = 11 := self.quoted_literal _ (by decide)
  simp only [ReceiptSigner.sign, length_utf8_json, Encodings.size_object, map_cons, map_nil,
    sum_cons, sum_nil, Encodings.fieldSize, Encodings.size_string, quoted_hex,
    self.signBytes_length, self.verifyingKey_length, hpayload, hkey, hsignature]
  omega

lemma size_statement (payload : ReceiptPayload) :
    self.size (self.statementFromPayload payload) =
      self.size (self.payloadJson payload) + self.quoted payload.context.reference +
        self.quoted (digestHex payload.manifestDigest) + 148 := by
  have htype : self.quoted "_type" = 7 := self.quoted_literal _ (by decide)
  have hsubject : self.quoted "subject" = 9 := self.quoted_literal _ (by decide)
  have hname : self.quoted "name" = 6 := self.quoted_literal _ (by decide)
  have hdigest : self.quoted "digest" = 8 := self.quoted_literal _ (by decide)
  have hsha : self.quoted "sha256" = 8 := self.quoted_literal _ (by decide)
  have hpredicateType : self.quoted "predicateType" = 15 := self.quoted_literal _ (by decide)
  have hpredicate : self.quoted "predicate" = 11 := self.quoted_literal _ (by decide)
  have hstatement : self.quoted "https://in-toto.io/Statement/v1" = 33 :=
    self.quoted_literal _ (by decide)
  have hexecution : self.quoted "https://rauha.dev/execution/v0" = 32 :=
    self.quoted_literal _ (by decide)
  simp only [ReceiptSigner.statementFromPayload, Encodings.size_object, Encodings.size_array,
    map_cons, map_nil, sum_cons, sum_nil, Encodings.fieldSize, Encodings.size_string, htype,
    hsubject, hname, hdigest, hsha, hpredicateType, hpredicate, hstatement, hexecution]
  omega

/-- **An envelope is four thirds of its statement and a constant.** -/
lemma length_signDsse (payload : ReceiptPayload) :
    (utf8 (self.signDsse payload)).length =
      4 * ((self.size (self.statementFromPayload payload) + 2) / 3) + 255 := by
  have hpayloadType : self.quoted "payloadType" = 13 := self.quoted_literal _ (by decide)
  have hdsse : self.quoted ReceiptSigner.dssePayloadType = 30 := self.quoted_literal _ (by decide)
  have hpayload : self.quoted "payload" = 9 := self.quoted_literal _ (by decide)
  have hsignatures : self.quoted "signatures" = 12 := self.quoted_literal _ (by decide)
  have hkeyidKey : self.quoted "keyid" = 7 := self.quoted_literal _ (by decide)
  have hsig : self.quoted "sig" = 5 := self.quoted_literal _ (by decide)
  have hkeyid : self.quoted self.keyid = 73 := by
    refine (quoted_sha256 (self.sha256 _)).trans ?_
    rw [self.sha256_length]
  have hraw : (self.jsonBytes (self.statementFromPayload payload)).length =
      self.size (self.statementFromPayload payload) := rfl
  simp only [ReceiptSigner.signDsse, length_utf8_json, Encodings.size_object,
    Encodings.size_array, map_cons, map_nil, sum_cons, sum_nil, Encodings.fieldSize,
    Encodings.size_string, quoted_base64, self.signBytes_length, hpayloadType, hdsse, hpayload,
    hsignatures, hkeyidKey, hsig, hkeyid, hraw]
  omega

lemma length_sign_le (h : Later self old new) :
    (utf8 (self.sign new)).length ≤ (utf8 (self.sign old)).length + 475 := by
  rw [length_sign, length_sign]
  exact Nat.add_le_add_right (size_payloadJson_le h) 235

/-- **In base 64, what is added counts for four thirds.** -/
lemma length_signDsse_le (h : Later self old new) :
    (utf8 (self.signDsse new)).length ≤ (utf8 (self.signDsse old)).length + 732 := by
  have hpayload : self.size (self.payloadJson new) ≤ self.size (self.payloadJson old) + 475 :=
    size_payloadJson_le h
  have hhex : self.quoted (digestHex new.manifestDigest) ≤
      self.quoted (digestHex old.manifestDigest) + 71 := by
    obtain ⟨_, _, hgrows, _, _, _⟩ := h
    exact hgrows.quoted_hex_le
  have hcontext : new.context = old.context := by
    obtain ⟨_, _, _, _, _, _⟩ := h
    rfl
  rw [length_signDsse, length_signDsse, size_statement, size_statement, hcontext]
  omega

/-! ### Messages -/

lemma quoted_hashOutputs (result : SandboxResult) : self.quoted (self.hashOutputs result) = 73 := by
  refine (quoted_sha256 (self.sha256 _)).trans ?_
  rw [self.sha256_length]

lemma length_repeated (tag : ℕ) (texts : List String) :
    (self.repeated tag texts).length =
      (texts.map fun text => (self.message tag (utf8 text)).length).sum := by
  rw [ReceiptSigner.repeated, length_flatMap]

lemma length_repeated_issues_le (hnodup : issues.Nodup) (hsub : issues ⊆ recoveryIssues) :
    (self.repeated 17 issues).length ≤ 384 := by
  have hshort : ∀ issue ∈ recoveryIssues,
      (self.message 17 (utf8 issue)).length = (utf8 issue).length + 3 := by
    intro issue hissue
    have hall : ∀ issue ∈ recoveryIssues, (utf8 issue).length < 128 := by decide
    have htag : varintSize (17 * 8 + 2) = 2 := by decide +kernel
    rw [self.message_length, htag, varintSize_of_lt (hall issue hissue)]
    omega
  have hcatalog : (recoveryIssues.map fun issue =>
      (self.message 17 (utf8 issue)).length).sum = 384 := by
    rw [map_congr_left hshort]
    decide
  rw [length_repeated]
  exact (sum_map_le_of_nodup hnodup hsub _).trans hcatalog.le

lemma length_recovered_event_le :
    (self.message 11 (self.encodeEvent "task.recovered")).length ≤ 609 := by
  have htime : (self.field 1 (utf8 (self.timestamp "task.recovered"))).length ≤ 2 * 38 + 3 :=
    self.length_field_le_of_le (by norm_num) (self.timestamp_length "task.recovered")
  have hkind : (self.field 2 (utf8 "task.recovered")).length ≤ 2 * 14 + 3 :=
    self.length_field_le_of_le (by norm_num) (by decide)
  have hmessage :
      (self.field 3 (utf8 (self.eventMessage "task.recovered"))).length ≤ 2 * 92 + 3 := by
    refine self.length_field_le_of_le (by norm_num) ?_
    rw [ReceiptSigner.eventMessage, if_pos rfl]
    decide
  refine self.length_message_le (d := 303) (by norm_num) ?_
  rw [ReceiptSigner.encodeEvent, length_append, length_append]
  omega

/-- The message of an interrupted task. -/
def interrupted (record : RecoveryRecord) (stdout stderr : List Char) (issues events : List String)
    (receiptJson receiptDsseJson : String) : SandboxResult :=
  { runtimeError record with
    stdout := stdout
    stderr := stderr
    events := events
    captureIssues := issues
    receiptJson := receiptJson
    receiptDsseJson := receiptDsseJson }

/-- That message as it is sealed, and its payload. -/
def sealedInterrupted (self : ReceiptSigner) (record : RecoveryRecord) (stdout stderr : List Char)
    (issues events : List String) (outputs : String) : SandboxResult × ReceiptPayload :=
  let payload := interruptedPayload record.receipt outputs issues
  (interrupted record stdout stderr issues events (self.sign payload) (self.signDsse payload),
    payload)

/-- **With no output left, the message is larger by a constant.** -/
lemma length_encode_le (self : ReceiptSigner) (hnoted : Noted admitted noted)
    (houtputs : self.quoted outputs = self.quoted outputs₀) (hnodup : issues.Nodup)
    (hsub : issues ⊆ recoveryIssues) :
    (self.encode (sealedInterrupted self noted [] [] issues ["task.recovered"] outputs).1).length ≤
      (self.encode (sealedInterrupted self admitted [] [] [] [] outputs₀).1).length + 4096 := by
  obtain ⟨hcommand, hadmission, digest, verified, hdigest, hreceipt⟩ :=
    hnoted.receipt self.toEncodings
  simp only [sealedInterrupted]
  set new := interruptedPayload noted.receipt outputs issues with hnew
  set old := interruptedPayload admitted.receipt outputs₀ []
  have hlater : Later self old new := by
    rw [hnew, hreceipt]
    exact .mk _ _ hdigest houtputs hnodup hsub
  have hsign : (utf8 (self.sign new)).length ≤ (utf8 (self.sign old)).length + 475 :=
    length_sign_le hlater
  have hdsse : (utf8 (self.signDsse new)).length ≤ (utf8 (self.signDsse old)).length + 732 :=
    length_signDsse_le hlater
  have hreceiptField : (self.field 15 (utf8 (self.sign new))).length ≤
      (self.field 15 (utf8 (self.sign old))).length + 2 * 475 + varintSize (15 * 8 + 2) + 1 :=
    self.length_field_le hsign
  have hdsseField : (self.field 16 (utf8 (self.signDsse new))).length ≤
      (self.field 16 (utf8 (self.signDsse old))).length + 2 * 732 + varintSize (16 * 8 + 2) + 1 :=
    self.length_field_le hdsse
  have htag : varintSize (15 * 8 + 2) = 1 := varintSize_of_lt (by norm_num)
  have htag' : varintSize (16 * 8 + 2) ≤ 2 := varintSize_le_two (by norm_num)
  have hissues : (self.repeated 17 issues).length ≤ 384 := length_repeated_issues_le hnodup hsub
  have hevent : (self.message 11 (self.encodeEvent "task.recovered")).length ≤ 609 :=
    length_recovered_event_le
  simp only [ReceiptSigner.encode, interrupted, runtimeError, hcommand, hadmission, hreceipt,
    RecoveryRecord.taskId, RecoveryRecord.zoneId, length_append, flatMap_cons,
    flatMap_nil, append_nil]
  omega

end Growth

/-! ## The loop -/

/-- What the loop can still give up. -/
def weight (result : SandboxResult) : ℕ :=
  result.enforcementEvents.length + byteLength result.stdout + byteLength result.stderr

lemma byteLength_pos {text : List Char} (h : text ≠ []) : 0 < byteLength text := by
  cases text with
  | nil => exact absurd rfl h
  | cons c rest =>
    have hpos := c.utf8Size_pos
    simp only [byteLength, map_cons, sum_cons]
    omega

lemma byteLength_truncateUtf8_le (text : List Char) (maxBytes : ℕ) :
    byteLength (truncateUtf8 text maxBytes) ≤ maxBytes := by
  induction text generalizing maxBytes with
  | nil => simp [truncateUtf8, byteLength]
  | cons c rest ih =>
    have hrest := ih (maxBytes - c.utf8Size)
    simp only [byteLength] at hrest
    unfold truncateUtf8
    split_ifs with hfits
    · simp only [byteLength, map_cons, sum_cons]
      omega
    · simp [byteLength]

variable {result smaller : SandboxResult}

lemma weight_shrink_lt (h : shrink result = some smaller) : weight smaller < weight result := by
  unfold shrink at h
  split_ifs at h with hevents htexts hlarger
  · cases h
    have hpos := length_pos_iff.mpr hevents
    simp only [weight, length_take]
    omega
  · cases h
    have htruncated := byteLength_truncateUtf8_le result.stdout (byteLength result.stdout / 2)
    have hpos : 0 < byteLength result.stdout := by
      rcases htexts with hout | herr
      · exact byteLength_pos hout
      · exact (byteLength_pos herr).trans_le hlarger
    simp only [weight]
    omega
  · cases h
    have htruncated := byteLength_truncateUtf8_le result.stderr (byteLength result.stderr / 2)
    simp only [weight]
    omega

variable {payload : ReceiptPayload}

/-- **The loop ends with a message that fits**, if an invariant of its rounds has the receipts
    verify and the message fit once nothing can be given up. -/
lemma sealLoop_ok {signer : Signer} (Inv : SandboxResult → ReceiptPayload → Prop)
    (hverify : ∀ result payload, Inv result payload →
      signer.verifies (sealOnce signer result payload).2 = true)
    (hround : ∀ result payload smaller, Inv result payload →
      shrink (sealOnce signer result payload).1 = some smaller →
        Inv smaller (sealOnce signer result payload).2)
    (hfits : ∀ result payload, Inv result payload →
      shrink (sealOnce signer result payload).1 = none →
        (signer.encode (sealOnce signer result payload).1).length ≤ maxResultBytes) {fuel : ℕ}
    (hinv : Inv result payload) (hfuel : weight result < fuel) :
    ∃ sealed, sealLoop signer fuel result payload = .ok sealed ∧
      (signer.encode sealed).length ≤ maxResultBytes := by
  induction fuel generalizing result payload with
  | zero => omega
  | succ fuel ih =>
    unfold sealLoop
    have hverified : ¬ signer.verifies (sealOnce signer result payload).2 = false := by
      rw [hverify result payload hinv]
      simp
    simp only [if_neg hverified]
    split_ifs with hsize
    · exact ⟨_, rfl, hsize⟩
    · cases hshrink : shrink (sealOnce signer result payload).1 with
      | none => exact absurd (hfits result payload hinv hshrink) hsize
      | some smaller =>
        have hless : weight smaller < weight (sealOnce signer result payload).1 :=
          weight_shrink_lt hshrink
        have hsame : weight (sealOnce signer result payload).1 = weight result := rfl
        exact ih (hround result payload smaller hinv hshrink) (by omega)

/-! ## Recovery -/

section Recovery

variable {self : ReceiptSigner} {admitted noted : RecoveryRecord}

/-- What the rounds over an interrupted task have in common. -/
def Interrupted (noted : RecoveryRecord) (result : SandboxResult) (payload : ReceiptPayload) :
    Prop :=
  ∃ (stdout stderr : List Char) (issues : List String) (receiptJson receiptDsseJson : String)
    (outputs : String) (reported : List String),
    issues ⊆ recoveryIssues ∧
    result = interrupted noted stdout stderr issues ["task.recovered"] receiptJson
      receiptDsseJson ∧
    payload = interruptedPayload noted.receipt outputs reported

lemma verify_eq (payload : ReceiptPayload) :
    self.verify payload =
      decide (payload.context.schema = executionReceiptSchema) := by
  rw [ReceiptSigner.verify, self.verifyStrict_signBytes, Bool.and_true]

lemma sealOnce_interrupted (self : ReceiptSigner) (noted : RecoveryRecord)
    (stdout stderr : List Char) (issues events : List String)
    (receiptJson receiptDsseJson outputs : String) (reported : List String) :
    ∃ hashed, self.quoted hashed = 73 ∧
      sealOnce self.signer
          (interrupted noted stdout stderr issues events receiptJson receiptDsseJson)
          (interruptedPayload noted.receipt outputs reported) =
        sealedInterrupted self noted stdout stderr (sortDedup issues) events hashed :=
  ⟨_, quoted_hashOutputs _, rfl⟩

/-- A round signs what it finds, with the issues sorted and told once. -/
lemma Interrupted.sealOnce (self : ReceiptSigner) (h : Interrupted noted result payload) :
    ∃ (stdout stderr : List Char) (issues : List String) (hashed : String),
      issues.Nodup ∧ issues ⊆ recoveryIssues ∧ self.quoted hashed = 73 ∧
      Sandbox.sealOnce self.signer result payload =
        sealedInterrupted self noted stdout stderr issues ["task.recovered"] hashed := by
  obtain ⟨stdout, stderr, issues, json, dsse, outputs, reported, hissues, rfl, rfl⟩ := h
  obtain ⟨hashed, hquoted, honce⟩ :=
    sealOnce_interrupted self noted stdout stderr issues ["task.recovered"] json dsse outputs
      reported
  exact ⟨stdout, stderr, sortDedup issues, hashed, sortDedup_nodup issues,
    fun _ h => hissues (mem_sortDedup.mp h), hquoted, honce⟩

variable {stdout stderr : List Char} {receiptJson receiptDsseJson : String}

lemma shrink_interrupted {reported : List String} (hissues : issues ⊆ recoveryIssues)
    (hpayload : payload = interruptedPayload noted.receipt outputs reported)
    (h : shrink (interrupted noted stdout stderr issues ["task.recovered"] receiptJson
      receiptDsseJson) = some smaller) : Interrupted noted smaller payload := by
  have hnone : ¬ (interrupted noted stdout stderr issues ["task.recovered"] receiptJson
      receiptDsseJson).enforcementEvents ≠ [] := by
    simp [interrupted, runtimeError]
  have hmore : ∀ issue ∈ recoveryIssues, issues ++ [issue] ⊆ recoveryIssues := fun issue hissue =>
    append_subset.mpr ⟨hissues, by simpa using hissue⟩
  rw [shrink] at h
  split_ifs at h with htexts hlarger
  · cases h
    exact ⟨_, stderr, _, receiptJson, receiptDsseJson, outputs, reported,
      hmore "stdout.preview_truncated" (by decide), rfl, hpayload⟩
  · cases h
    exact ⟨stdout, _, _, receiptJson, receiptDsseJson, outputs, reported,
      hmore "stderr.preview_truncated" (by decide), rfl, hpayload⟩

lemma shrink_interrupted_none {events : List String}
    (h : shrink (interrupted noted stdout stderr issues events receiptJson receiptDsseJson) =
      none) : stdout = [] ∧ stderr = [] := by
  unfold shrink at h
  split_ifs at h with hevents htexts
  simpa [interrupted] using htexts

/-- **What is measured before anything runs**: the message as it would be sealed at once. -/
lemma validateRecoveryBudget_iff {w : World} (hsigner : w.signer = self.signer)
    (admitted : RecoveryRecord) :
    ∃ outputs₀, self.quoted outputs₀ = 73 ∧
      (w.validateRecoveryBudget admitted = true ↔
        admitted.receipt.context.schema = executionReceiptSchema ∧
        (self.encode (sealedInterrupted self admitted [] [] [] [] outputs₀).1).length ≤
          maxResultBytes / 4) := by
  obtain ⟨outputs₀, hquoted, honce⟩ := sealOnce_interrupted self admitted [] [] [] [] "" ""
    admitted.receipt.outputsSha256 admitted.receipt.captureIssues
  have hloop : sealBoundedResult self.signer (runtimeError admitted) admitted.receipt =
      sealLoop self.signer 1 (interrupted admitted [] [] [] [] "" "")
        (interruptedPayload admitted.receipt admitted.receipt.outputsSha256
          admitted.receipt.captureIssues) := rfl
  have hnone : sortDedup [] = [] := by simp [sortDedup]
  have hverify : self.signer.verifies (sealedInterrupted self admitted [] [] [] [] outputs₀).2 =
      decide (admitted.receipt.context.schema = executionReceiptSchema) := verify_eq _
  refine ⟨outputs₀, hquoted, ?_⟩
  rw [World.validateRecoveryBudget, hsigner, hloop, sealLoop, honce, hnone]
  simp only [hverify]
  by_cases hschema : admitted.receipt.context.schema = executionReceiptSchema
  · simp only [hschema, decide_true, Bool.true_eq_false, if_false, true_and]
    split_ifs with hfits
    · exact decide_eq_true_iff
    · have hstuck : shrink (sealedInterrupted self admitted [] [] [] [] outputs₀).1 = none := by
        simp [shrink, sealedInterrupted, interrupted, runtimeError]
      simp only [hstuck, Bool.false_eq_true, false_iff]
      exact fun hle => hfits (hle.trans (Nat.div_le_self _ _))
  · simp [hschema]

/-- **What recovery starts from.** -/
lemma interrupted_interruptedResult {logs : Option CapturedLogs}
    (hlogs : ∀ captured ∈ logs, captured.issues ⊆ recoveryIssues) :
    Interrupted noted (interruptedResult noted logs)
      (interruptedPayload noted.receipt noted.receipt.outputsSha256
        noted.receipt.captureIssues) := by
  cases logs with
  | none =>
    exact ⟨[], [], _, "", "", _, _, by decide, rfl, rfl⟩
  | some captured =>
    have hcaptured := hlogs captured rfl
    refine ⟨captured.stdout, captured.stderr, _, "", "", _, _, ?_, rfl, rfl⟩
    exact append_subset.mpr ⟨append_subset.mpr ⟨by decide, hcaptured⟩, by decide⟩

/-- **Admission implies sealability.**  If the budget check admits a record, then what recovery
    builds from it, before or after the image was noted, for any logged texts and for any issues
    the log reader reports, is sealed: it fits on the wire, and its receipts are signatures for the
    task. -/
theorem recovered_result_seals (w : World) (self : ReceiptSigner) (hsigner : w.signer = self.signer)
    (admitted noted : RecoveryRecord) (hadmitted : w.validateRecoveryBudget admitted = true)
    (hnoted : Noted admitted noted) (logs : Option CapturedLogs)
    (hlogs : ∀ captured ∈ logs, ∃ (stdout stderr : LogFile) (maxBytes : ℕ),
      captured.issues = (readAllCapped stdout stderr maxBytes).issues) :
    ∃ sealed,
      sealBoundedResult w.signer (interruptedResult noted logs) noted.receipt = .ok sealed ∧
      (w.signer.encode sealed).length ≤ maxResultBytes ∧
      Signed w.signer noted.taskId (w.signer.encode sealed) := by
  obtain ⟨outputs₀, hquoted₀, hvalidate⟩ := validateRecoveryBudget_iff hsigner admitted
  obtain ⟨hschema, hmeasured⟩ := hvalidate.mp hadmitted
  have hcontext : noted.receipt.context = admitted.receipt.context := by
    obtain ⟨-, -, digest, verified, -, hreceipt⟩ := hnoted.receipt self.toEncodings
    rw [hreceipt]
  have hissues : ∀ captured ∈ logs, captured.issues ⊆ recoveryIssues := by
    intro captured hcaptured
    obtain ⟨stdout, stderr, maxBytes, heq⟩ := hlogs captured hcaptured
    rw [heq]
    exact readAllCapped_issues stdout stderr maxBytes
  have hstart : Interrupted noted (interruptedResult noted logs)
      (interruptedPayload noted.receipt noted.receipt.outputsSha256
        noted.receipt.captureIssues) := interrupted_interruptedResult hissues
  have hloop : sealBoundedResult self.signer (interruptedResult noted logs) noted.receipt =
      sealLoop self.signer (weight (interruptedResult noted logs) + 1)
        (interruptedResult noted logs) (interruptedPayload noted.receipt
          noted.receipt.outputsSha256 noted.receipt.captureIssues) := by
    cases logs <;> rfl
  suffices hsealed : ∃ sealed,
      sealBoundedResult w.signer (interruptedResult noted logs) noted.receipt = .ok sealed ∧
      (w.signer.encode sealed).length ≤ maxResultBytes by
    obtain ⟨sealed, hok, hfits⟩ := hsealed
    exact ⟨sealed, hok, hfits, sealBoundedResult_signed hok⟩
  rw [hsigner, hloop]
  refine sealLoop_ok (Interrupted noted) ?_ ?_ ?_ hstart (Nat.lt_succ_self _)
  · intro result payload hinv
    obtain ⟨stdout, stderr, issues, hashed, -, -, -, honce⟩ := hinv.sealOnce self
    have hverified : self.verify (interruptedPayload noted.receipt hashed issues) = true := by
      rw [verify_eq, decide_eq_true_eq, ← hschema, ← hcontext]
      rfl
    rw [honce]
    exact hverified
  · intro result payload smaller hinv hshrink
    obtain ⟨stdout, stderr, issues, hashed, -, hsub, -, honce⟩ := hinv.sealOnce self
    rw [honce] at hshrink ⊢
    exact shrink_interrupted hsub rfl hshrink
  · intro result payload hinv hshrink
    obtain ⟨stdout, stderr, issues, hashed, hnodup, hsub, hquoted, honce⟩ := hinv.sealOnce self
    rw [honce] at hshrink ⊢
    obtain ⟨rfl, rfl⟩ := shrink_interrupted_none hshrink
    have hlarger := length_encode_le self hnoted (hquoted.trans hquoted₀.symm) hnodup hsub
    have hbudget : maxResultBytes / 4 + 4096 ≤ maxResultBytes := by decide
    exact hlarger.trans ((Nat.add_le_add_right hmeasured 4096).trans hbudget)

/-- A signer that can be evaluated. -/
def sampleSigner : ReceiptSigner where
  toEncodings := blankEncodings
  sha256 _ := List.replicate 32 0
  sha256_length _ := length_replicate
  signBytes _ := List.replicate 64 1
  signBytes_length _ := length_replicate
  verifyingKey := List.replicate 32 2
  verifyingKey_length := length_replicate
  verifyStrict _ _ := true
  verifyStrict_signBytes _ := rfl
  zoneText _ := "zone"
  timestamp _ := "2026-01-01T00:00:00+00:00"
  timestamp_length _ := by decide
  describe kind := kind
  enforcementEvent _ := []

def sampleReceipt : ReceiptPayload :=
  ⟨"task-1", 0, "", false, "", "", none, none, none, [], [],
    ⟨executionReceiptSchema, "alpine", "", "", 0, 0, 0, 0⟩⟩

def sampleWorld : World where
  resultsMaxBytes := maxResultBytes
  recordSize _ := 0
  signer := sampleSigner.signer
  recoveryReceipt _ _ _ := sampleReceipt

def sampleRecord : RecoveryRecord := ⟨"zone", none, true, ["sh"], .Strict, sampleReceipt⟩

lemma size_payloadJson_sample (h : sampleSigner.quoted outputs₀ = 73) :
    sampleSigner.size
      (sampleSigner.payloadJson (interruptedPayload sampleReceipt outputs₀ [])) ≤ 1000 := by
  have hlength : outputs₀.toList.length = 71 := by
    have hsize : sampleSigner.quoted outputs₀ = outputs₀.toList.length + 2 := textSize_replicate _
    omega
  have hsize : ∀ j, sampleSigner.size j = jsonSize j := fun j => textSize_replicate _
  have hnone : issuesField [] = [] := rfl
  rw [hsize]
  simp only [ReceiptSigner.payloadJson, interruptedPayload, append_nil, hnone, jsonSize, fieldsSize,
    hlength]
  decide

/-- **The sample is admitted**: both receipts take a few thousand bytes. -/
lemma validateRecoveryBudget_sample : sampleWorld.validateRecoveryBudget sampleRecord = true := by
  have hsigner : sampleWorld.signer = sampleSigner.signer := rfl
  obtain ⟨outputs₀, hquoted, hvalidate⟩ := validateRecoveryBudget_iff hsigner sampleRecord
  have hpayload := size_payloadJson_sample hquoted
  refine hvalidate.mpr ⟨rfl, ?_⟩
  have hreceipt : sampleRecord.receipt = sampleReceipt := rfl
  rw [sealedInterrupted, hreceipt]
  generalize hold : interruptedPayload sampleReceipt outputs₀ [] = old at hpayload
  have hsign : (utf8 (sampleSigner.sign old)).length ≤ 1235 := by
    rw [length_sign]
    exact Nat.add_le_add_right hpayload 235
  have hdsse : (utf8 (sampleSigner.signDsse old)).length ≤ 1799 := by
    have hreference : sampleSigner.quoted old.context.reference = 8 := by
      rw [← hold]
      exact sampleSigner.quoted_literal "alpine" (by decide)
    have hhex : sampleSigner.quoted (digestHex old.manifestDigest) = 2 := by
      rw [← hold]
      exact sampleSigner.quoted_literal "" rfl
    rw [length_signDsse, size_statement]
    omega
  have hfields := sampleSigner.length_field_le_of_le (show 15 < 2047 by norm_num) hsign
  have hfields' := sampleSigner.length_field_le_of_le (show 16 < 2047 by norm_num) hdsse
  have hshort : ∀ tag text, tag < 2047 → (utf8 text).length ≤ 13 →
      (sampleSigner.field tag (utf8 text)).length ≤ 29 ∧
        (sampleSigner.message tag (utf8 text)).length ≤ 29 := fun _ _ htag h =>
    ⟨sampleSigner.length_field_le_of_le htag h, sampleSigner.length_message_le htag h⟩
  have htask := hshort 1 "task-1" (by norm_num) (by decide)
  have hzone := hshort 2 "zone" (by norm_num) (by decide)
  have hcommand := hshort 3 "sh" (by norm_num) (by decide)
  have hstatus := hshort 4 "runtime_error" (by norm_num) (by decide)
  have hadmission := hshort 13 "strict" (by norm_num) (by decide)
  have hempty : ∀ tag, sampleSigner.field tag (utf8 "") = [] ∧
      sampleSigner.field tag (Utf8.encode []) = [] := fun tag => ⟨rfl, rfl⟩
  have hbudget : maxResultBytes / 4 = 1048576 := by decide
  simp only [ReceiptSigner.encode, interrupted, runtimeError, RecoveryRecord.taskId,
    ReceiptSigner.repeated, sampleRecord, sampleReceipt, Option.elim_none, if_true, hempty,
    flatMap_nil, flatMap_cons, append_nil, admissionStr, length_append]
  show _ + (sampleSigner.field 2 (utf8 "zone")).length + _ + _ + _ + _ + _ ≤ _
  omega

/-- A log that could not be read to its end, after the image could not be inspected. -/
theorem recovered_result_seals_read_failed :
    let noted := { sampleRecord with containerId := some 3 }
    let logs := readAllCapped ⟨true, .ReadFailed⟩ ⟨false, .Bytes [104, 105]⟩ 8
    ∃ sealed,
      sealBoundedResult sampleWorld.signer (interruptedResult noted (some logs)) sampleReceipt =
        .ok sealed ∧
      (sampleWorld.signer.encode sealed).length ≤ maxResultBytes ∧
      Signed sampleWorld.signer "task-1" (sampleWorld.signer.encode sealed) :=
  recovered_result_seals sampleWorld sampleSigner rfl sampleRecord
    { sampleRecord with containerId := some 3 } validateRecoveryBudget_sample
    (.inr ⟨3, "", false, .inl rfl, rfl⟩) _
    fun _ hcaptured => ⟨_, _, _, congrArg CapturedLogs.issues (Option.some.inj hcaptured).symm⟩

end Recovery

end Rauha.Sandbox
