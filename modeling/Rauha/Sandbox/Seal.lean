import Rauha.Common.Zone

/-!
# Sealing a result

A result is sealed by signing a receipt over it, in two encodings, and is cut down until it fits on
the wire.  Signing, hashing and the wire encoding are those of the daemon's `Signer`.

`sealBoundedResult_signed` is what the rest of the development uses: a sealed result carries the
signatures over a payload that names its task.
-/

namespace Rauha.Sandbox

/-- The wire ceiling. -/
def maxResultBytes : ℕ := 4 * 1024 * 1024

/-- The fields of a receipt that sealing passes through: the schema, the reference of the image,
    what the task was given, and the counts of enforcement decisions. -/
structure ReceiptContext where
  schema : String
  reference : String
  policySha256 : String
  inputsSha256 : String
  allow : UInt64
  deny : UInt64
  error : UInt64
  dropped : UInt64
  deriving DecidableEq, Inhabited, Repr

/-- What a receipt commits to. -/
structure ReceiptPayload where
  taskId : String
  zoneId : ℕ
  manifestDigest : String
  digestVerified : Bool
  outputsSha256 : String
  status : String
  exitCode : Option ℤ
  startedAt : Option String
  finishedAt : Option String
  unavailableControls : List String
  captureIssues : List String
  context : ReceiptContext
  deriving DecidableEq, Repr

/-- A result on the wire.  Texts are kept as their characters. -/
structure SandboxResult where
  taskId : String
  zoneId : ℕ
  command : List String
  status : String
  exitCode : Option ℤ
  stdout : List Char
  stderr : List Char
  durationMs : UInt64
  startedAt : String
  finishedAt : String
  events : List String
  enforcementEvents : List String
  admission : PolicyAdmission
  unavailableControls : List String
  receiptJson : String
  receiptDsseJson : String
  captureIssues : List String
  deriving DecidableEq, Repr

/-- The daemon's signing key and the encodings it uses. -/
structure Signer where
  /-- The JSON text of the signed receipt, and whether that receipt verifies. -/
  sign : ReceiptPayload → String
  verifies : ReceiptPayload → Bool
  signDsse : ReceiptPayload → String
  /-- The hash of salt, status, exit code and both streams. -/
  hashOutputs : SandboxResult → String
  encode : SandboxResult → List UInt8

def byteLength (text : List Char) : ℕ := (text.map Char.utf8Size).sum

/-- The longest prefix of whole characters within `maxBytes`. -/
def truncateUtf8 : List Char → ℕ → List Char
  | [], _ => []
  | c :: rest, maxBytes =>
    if c.utf8Size ≤ maxBytes then c :: truncateUtf8 rest (maxBytes - c.utf8Size) else []

/-- Sorted and without repetitions. -/
def sortDedup (issues : List String) : List String :=
  (issues.mergeSort fun a b => decide (a ≤ b)).destutter (· ≠ ·)

variable (signer : Signer)

/-- One round: both signatures over the payload as it stands. -/
def sealOnce (result : SandboxResult) (payload : ReceiptPayload) : SandboxResult × ReceiptPayload :=
  let result := { result with captureIssues := sortDedup result.captureIssues }
  let payload := { payload with
    captureIssues := result.captureIssues, outputsSha256 := signer.hashOutputs result }
  ({ result with receiptJson := signer.sign payload, receiptDsseJson := signer.signDsse payload },
    payload)

/-- What is given up when a result is too large, if there is anything left to give up. -/
def shrink (result : SandboxResult) : Option SandboxResult :=
  if result.enforcementEvents ≠ [] then
    some { result with
      enforcementEvents := result.enforcementEvents.take (result.enforcementEvents.length / 2)
      captureIssues := result.captureIssues ++ ["enforcement_events.preview_truncated"] }
  else if result.stdout ≠ [] ∨ result.stderr ≠ [] then
    if byteLength result.stderr ≤ byteLength result.stdout then
      some { result with
        stdout := truncateUtf8 result.stdout (byteLength result.stdout / 2)
        captureIssues := result.captureIssues ++ ["stdout.preview_truncated"] }
    else
      some { result with
        stderr := truncateUtf8 result.stderr (byteLength result.stderr / 2)
        captureIssues := result.captureIssues ++ ["stderr.preview_truncated"] }
  else none

/-- The loop; `fuel` bounds the number of rounds. -/
def sealLoop : ℕ → SandboxResult → ReceiptPayload → Except String SandboxResult
  | 0, _, _ => .error "sandbox result metadata exceeds the wire budget"
  | fuel + 1, result, payload =>
    let (result, payload) := sealOnce signer result payload
    if signer.verifies payload = false then .error "receipt does not verify"
    else if (signer.encode result).length ≤ maxResultBytes then .ok result
    else
      match shrink result with
      | some result => sealLoop fuel result payload
      | none => .error "sandbox result metadata exceeds the wire budget"

/-- Every round gives up an event or a byte, so the rounds are counted by what there is. -/
def sealBoundedResult (result : SandboxResult) (payload : ReceiptPayload) :
    Except String SandboxResult :=
  sealLoop signer
    (result.enforcementEvents.length + byteLength result.stdout + byteLength result.stderr + 1)
    result
    { payload with
      status := result.status
      exitCode := result.exitCode
      startedAt := if result.startedAt = "" then none else some result.startedAt
      finishedAt := if result.finishedAt = "" then none else some result.finishedAt
      unavailableControls := result.unavailableControls }

/-- **Signed for a task**: the bytes of a result whose receipts are signatures, in both forms, over
    a verifying payload that names the task and the outputs delivered. -/
def Signed (taskId : String) (bytes : List UInt8) : Prop :=
  ∃ (result : SandboxResult) (payload : ReceiptPayload),
    bytes = signer.encode result ∧ payload.taskId = taskId ∧ signer.verifies payload = true ∧
      result.receiptJson = signer.sign payload ∧ result.receiptDsseJson = signer.signDsse payload ∧
      payload.captureIssues = result.captureIssues

variable {signer}

lemma sealLoop_signed {fuel : ℕ} {result sealed : SandboxResult} {payload : ReceiptPayload}
    (h : sealLoop signer fuel result payload = .ok sealed) :
    Signed signer payload.taskId (signer.encode sealed) := by
  induction fuel generalizing result payload with
  | zero => cases h
  | succ fuel ih =>
    unfold sealLoop at h
    simp only at h
    split_ifs at h with hverify hfits
    · cases h
      exact ⟨_, (sealOnce signer result payload).2, rfl, rfl, by simpa using hverify, rfl, rfl, rfl⟩
    · split at h
      · have hsigned := ih h
        exact hsigned
      · cases h

/-- **A sealed result is signed.** -/
lemma sealBoundedResult_signed {result sealed : SandboxResult} {payload : ReceiptPayload}
    (h : sealBoundedResult signer result payload = .ok sealed) :
    Signed signer payload.taskId (signer.encode sealed) :=
  (sealLoop_signed h :)

end Rauha.Sandbox
