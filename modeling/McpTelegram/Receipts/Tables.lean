import McpTelegram.Foundations.SqlUpdate
import McpTelegram.Safety.Record

/-!
# The native write receipts

`folder_command_receipts` and `contact_operation_receipts`: one row for each native write, under the
operation key of the request.  A receipt is born before any attempt, is bound to at most one
physical attempt, takes one wire outcome and is then verified against a later observation.  Columns
that no statement reads back (`created_at`, `updated_at`) are left out.
-/

namespace McpTelegram

open Foundations

/-- What a receipt function raises. -/
inductive ReceiptError
  | valueError (text : String)
  | typeError
  | integrityError
  deriving DecidableEq

/-- The values of the two `outcome` columns. -/
inductive ReceiptOutcome
  | pending
  | acknowledged
  | rejected
  | unknown
  | unchanged
  | notSent
  deriving DecidableEq

/-- `TelegramAuthScope`. -/
structure TelegramAuthScope where
  accountId : ℤ
  dcId : ℤ
  authKeyId : ℤ
  deriving DecidableEq

/-! ## Folder receipts -/

/-- The values of `folder_command_receipts.verification`. -/
inductive FolderVerification
  | pending
  | unavailable
  | exhausted
  | matched
  | mismatched
  | notRequired
  deriving DecidableEq

/-- A column that may be `NULL` is compared as SQL compares it under `IS`. -/
instance : LawfulBEq (Option FolderVerification) := inferInstance

/-- A row of `folder_command_receipts`. -/
structure FolderReceipt where
  accountId : ℤ
  operationKey : String
  dcId : ℤ
  keyId : ℤ
  action : String
  operationFingerprint : String
  expectedVersion : String
  permitIssued : Bool := false
  preclaimRejected : Bool := false
  target : ℤ
  semanticFingerprint : String
  bindingRevision : ℤ
  terminalRevision : ℕ := 0
  attemptId : Option String := none
  outcome : ReceiptOutcome
  verification : Option FolderVerification
  verificationAttempts : ℤ := 0
  verificationDeadline : Option ℤ
  nextVerificationAt : Option ℤ := none
  dispatchOrder : Option ℕ := none
  beforeImage : Option String
  intendedDefinition : Option String
  deriving DecidableEq

namespace FolderReceipt

/-- `outcome IN ('acknowledged','rejected','unknown')`. -/
def settled (row : FolderReceipt) : Bool :=
  row.outcome ∈ [.acknowledged, .rejected, .unknown]

/-- The second half of the reservation check of `insert_operation`:
`COALESCE(verification,'pending') IN ('pending','unavailable')`. -/
def outstanding (row : FolderReceipt) : Bool :=
  row.verification.getD .pending ∈ [.pending, .unavailable]

/-- The receipt is pending, or settled with its verification outstanding. -/
def unresolved (row : FolderReceipt) : Bool :=
  row.outcome = .pending || row.settled && row.outstanding

/-- The receipt has a verification result. -/
def verified (row : FolderReceipt) : Bool :=
  row.verification ∈ [some .matched, some .mismatched]

/-- The primary key. -/
def primaryKey (row : FolderReceipt) : ℤ × String := (row.accountId, row.operationKey)

end FolderReceipt

/-! ## Contact receipts -/

/-- The values of `contact_operation_receipts.verification`. -/
inductive ContactVerification
  | pending
  | verified
  | mismatch
  | observedAfterUnknown
  | unavailable
  | inconclusive
  deriving DecidableEq

/-- The two keys of `result_json`. -/
structure ContactResult where
  verificationFingerprint : Option String
  verificationReason : Option String := none
  deriving DecidableEq

/-- A row of `contact_operation_receipts`. -/
structure ContactReceipt where
  accountId : ℤ
  dcId : ℤ
  keyId : ℤ
  operationKey : String
  requestFingerprint : String
  semanticFingerprint : String
  expectedVersion : String
  action : String
  entityId : ℤ
  bindingRevision : ℤ
  terminalRevision : ℕ := 0
  terminalObservationOrder : Option ℕ := none
  attemptId : Option String := none
  outcome : ReceiptOutcome
  verification : ContactVerification
  verificationOrder : Option ℕ
  resultJson : ContactResult
  deriving DecidableEq

namespace ContactReceipt

/-- The condition of `peer_quarantined`. -/
def unresolved (row : ContactReceipt) : Bool :=
  row.outcome = .pending || row.outcome = .unknown && row.verification ≠ .observedAfterUnknown

/-- The receipt has a verification result. -/
def verified (row : ContactReceipt) : Bool :=
  row.verification ∈ [.verified, .mismatch, .observedAfterUnknown]

/-- `verification IN ('pending','unavailable','inconclusive')`. -/
def outstanding (row : ContactReceipt) : Bool :=
  row.verification ∈ [.pending, .unavailable, .inconclusive]

/-- The primary key. -/
def primaryKey (row : ContactReceipt) : ℤ × String := (row.accountId, row.operationKey)

end ContactReceipt

/-! ## The store -/

/-- The part of `sync.db` that the receipt functions read and write: the two tables and
`canonical_observation_sequence`. -/
structure ReceiptStore where
  folders : List FolderReceipt := []
  contacts : List ContactReceipt := []
  sequence : ℕ := 0
  deriving DecidableEq

namespace ReceiptStore

/-- `allocate_observation_order`: the order is the sequence after the call. -/
def allocateObservationOrder (db : ReceiptStore) : ReceiptStore :=
  { db with sequence := db.sequence + 1 }

/-- An `UPDATE` of the folder table. -/
def updateFolders (condition : FolderReceipt → Bool) (change : FolderReceipt → FolderReceipt)
    (db : ReceiptStore) : ReceiptStore :=
  { db with folders := updateWhere condition change db.folders }

/-- An `UPDATE` of the contact table. -/
def updateContacts (condition : ContactReceipt → Bool) (change : ContactReceipt → ContactReceipt)
    (db : ReceiptStore) : ReceiptStore :=
  { db with contacts := updateWhere condition change db.contacts }

end ReceiptStore

end McpTelegram
