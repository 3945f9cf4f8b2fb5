import McpTelegram.Receipts.Tables

/-!
# Contact receipts

The statements of `contacts/receipts.py` and `_reject_unclaimed` of `contacts/commands.py`.  Each
function is one write transaction, or runs in the one of its caller: where it raises, the store
stays as it was.
-/

namespace McpTelegram

open Foundations

/-- `_values`: the binding must be one of a contact. -/
def contactBinding (binding : NativeWriteReceiptBinding) : Except ReceiptError Unit :=
  if binding.domain = .contact then .ok () else .error (.valueError "invalid contact binding")

/-- `_WHERE`. -/
def ContactReceipt.boundBy (binding : NativeWriteReceiptBinding) (row : ContactReceipt) : Bool :=
  row.accountId = binding.accountId && row.operationKey = binding.operationKey &&
    row.dcId = binding.dcId && row.keyId = binding.keyId && row.action = binding.action &&
    row.entityId = binding.target && row.semanticFingerprint = binding.semanticFingerprint &&
    row.bindingRevision = binding.bindingRevision

/-! ## Attempts and wire outcomes -/

/-- `bind_attempt`. -/
def bindContactAttempt (binding : NativeWriteReceiptBinding) (attemptId : String)
    (db : ReceiptStore) : Except ReceiptError ReceiptStore := do
  contactBinding binding
  let condition := fun row : ContactReceipt =>
    row.boundBy binding && row.outcome = .pending &&
      (row.attemptId = none || row.attemptId = some attemptId)
  if attemptId = "" ∨ db.contacts.countP condition ≠ 1 then
    .error (.valueError "contact receipt binding mismatch")
  else .ok (db.updateContacts condition fun row => { row with attemptId := some attemptId })

/-- The receipt that the binding and its attempt own. -/
def ContactReceipt.ownedBy (binding : NativeWriteReceiptBinding) (attemptId : String)
    (row : ContactReceipt) : Bool :=
  row.boundBy binding && row.attemptId = some attemptId

/-- The assignments of `_terminal` and of `recover_interrupted_operations`. -/
def ContactReceipt.settle (outcome : ReceiptOutcome) (order : ℕ) (row : ContactReceipt) :
    ContactReceipt :=
  { row with
    outcome := outcome
    terminalRevision := row.terminalRevision + 1
    terminalObservationOrder := some order }

/-- `_terminal`. -/
def terminalContact (binding : NativeWriteReceiptBinding) (attemptId : String)
    (outcome : ReceiptOutcome) (db : ReceiptStore) : Except ReceiptError (ReceiptStore × Bool) := do
  contactBinding binding
  match db.contacts.find? (·.ownedBy binding attemptId) with
  | none => .ok (db, false)
  | some row =>
    if row.outcome ∉ [.pending, .acknowledged, .unknown, .rejected] then .ok (db, false)
    else if row.outcome ≠ .pending then .ok (db, true)
    else
      let condition := fun row : ContactReceipt =>
        row.ownedBy binding attemptId && row.outcome = .pending
      .ok (db.allocateObservationOrder.updateContacts condition
          (·.settle outcome (db.sequence + 1)),
        db.contacts.countP condition = 1)

/-- `record_wire_outcome`. -/
def recordContactOutcome (binding : NativeWriteReceiptBinding) (attemptId : String)
    (outcome : ReceiptOutcome) (db : ReceiptStore) : Except ReceiptError ReceiptStore :=
  if outcome ∉ [.acknowledged, .unknown, .rejected] then
    .error (.valueError "invalid contact outcome")
  else do
    let (settled, changed) ← terminalContact binding attemptId outcome db
    if changed then .ok settled else .error (.valueError "contact receipt outcome mismatch")

/-- `recover_binding`. -/
def recoverContactBinding (binding : NativeWriteReceiptBinding) (attemptId : String)
    (db : ReceiptStore) : Except ReceiptError (ReceiptStore × Bool) :=
  terminalContact binding attemptId .unknown db

/-- A pending receipt of an authorization scope. -/
def ContactReceipt.interrupted (scope : TelegramAuthScope) (row : ContactReceipt) : Bool :=
  row.outcome = .pending && row.accountId = scope.accountId && row.dcId = scope.dcId &&
    row.keyId = scope.authKeyId

/-- `recover_interrupted_operations`. -/
def recoverContacts (scope : TelegramAuthScope) (db : ReceiptStore) : ReceiptStore × ℕ :=
  if db.contacts.any (·.interrupted scope) then
    (db.allocateObservationOrder.updateContacts (·.interrupted scope)
        (·.settle .unknown (db.sequence + 1)),
      db.contacts.countP (·.interrupted scope))
  else (db, 0)

/-- The row of an account and an operation key. -/
def ContactReceipt.keyed (accountId : ℤ) (operationKey : String) (row : ContactReceipt) : Bool :=
  row.accountId = accountId && row.operationKey = operationKey

/-- `_reject_unclaimed`. -/
def rejectUnclaimed (binding : NativeWriteReceiptBinding) (db : ReceiptStore) : ReceiptStore :=
  db.updateContacts
    (fun row => row.keyed binding.accountId binding.operationKey && row.outcome = .pending &&
      row.attemptId = none)
    (fun row =>
      { row with
        outcome := .rejected
        terminalRevision := row.terminalRevision + 1 })

/-! ## Reservation -/

/-- `peer_quarantined`: the answer for the table of contact notes is given. -/
def peerQuarantined (accountId entityId : ℤ) (notes : Bool) (db : ReceiptStore) : Bool :=
  db.contacts.any (fun row => row.accountId = accountId && row.entityId = entityId &&
    row.unresolved) || notes

/-- `_existing_operation`. -/
def existingOperation (binding : NativeWriteReceiptBinding) (fingerprint : String)
    (db : ReceiptStore) : Except ReceiptError (Option ReceiptOutcome) :=
  match db.contacts.filter (·.operationKey = binding.operationKey) with
  | [] => .ok none
  | [row] =>
    if row.accountId = binding.accountId ∧ row.requestFingerprint = fingerprint then
      .ok (some row.outcome)
    else .error (.valueError "operation_conflict")
  | _ => .error (.valueError "operation_conflict")

/-- `_check_no_op`: `check` is the answer of the check of a no-op, if there is one. -/
def checkNoOp (unchanged : Bool) (check : Option Bool) (order : Option ℕ) :
    Except ReceiptError Unit :=
  if unchanged ∧ (check ≠ some true ∨ order.getD 0 = 0) then
    .error (.valueError "contact_state_changed")
  else .ok ()

/-- The `CHECK` constraints of the table. -/
def ContactReceipt.checks (row : ContactReceipt) : Bool :=
  0 < row.accountId && 1 ≤ row.operationKey.length && row.operationKey.length ≤ 128 &&
    row.requestFingerprint.length = 64 && row.semanticFingerprint.length = 64 &&
    row.expectedVersion.length = 64 && row.action ∈ ["create", "update", "delete"] &&
    0 < row.entityId && row.outcome ≠ .notSent

/-- The arguments of `reserve_operation` besides the binding. -/
structure ContactReservation where
  fingerprint : String
  expectedVersion : String
  verificationFingerprint : String
  unchanged : Bool := false
  noOpCheck : Option Bool := none
  noOpOrder : Option ℕ := none
  deriving DecidableEq

/-- The receipt that `reserve_operation` inserts. -/
def newContactReceipt (binding : NativeWriteReceiptBinding) (request : ContactReservation) :
    ContactReceipt where
  accountId := binding.accountId
  operationKey := binding.operationKey
  dcId := binding.dcId
  keyId := binding.keyId
  action := binding.action
  entityId := binding.target
  semanticFingerprint := binding.semanticFingerprint
  bindingRevision := binding.bindingRevision
  requestFingerprint := request.fingerprint
  expectedVersion := request.expectedVersion
  outcome := if request.unchanged then .unchanged else .pending
  verification := if request.unchanged then .verified else .pending
  verificationOrder := if request.unchanged then request.noOpOrder else none
  resultJson := ⟨some request.verificationFingerprint, none⟩

/-- `reserve_operation`; `notes` is the quarantine of the peer by the table of contact notes. -/
def reserveContactOperation (binding : NativeWriteReceiptBinding) (request : ContactReservation)
    (notes : Bool) (db : ReceiptStore) :
    Except ReceiptError (ReceiptStore × Bool × ReceiptOutcome) :=
  if request.fingerprint.length ≠ 64 ∨ request.expectedVersion.length ≠ 64 ∨
      request.verificationFingerprint.length ≠ 64 then
    .error (.valueError "invalid contact operation")
  else do
    match ← existingOperation binding request.fingerprint db with
    | some outcome => .ok (db, false, outcome)
    | none =>
      if peerQuarantined binding.accountId binding.target notes db then
        .error (.valueError "contact_outcome_unresolved")
      else do
        checkNoOp request.unchanged request.noOpCheck request.noOpOrder
        contactBinding binding
        let row := newContactReceipt binding request
        if row.checks then .ok ({ db with contacts := db.contacts ++ [row] }, true, row.outcome)
        else .error .integrityError

/-! ## Verification -/

/-- The part of `ContactCommandState` that the receipts read. -/
structure ContactCommandState where
  membership : Option Bool
  firstName : Option String
  lastName : Option String
  observationOrder : Option ℕ
  deriving DecidableEq

/-- The assignments of a verification. -/
def ContactReceipt.verify (result : ContactVerification) (order : ℕ) (row : ContactReceipt) :
    ContactReceipt :=
  { row with
    verification := result
    verificationOrder := some order
    resultJson := { row.resultJson with verificationReason := none } }

/-- An unknown receipt of the entity that an observation of an order releases. -/
def ContactReceipt.releasable (accountId entityId : ℤ) (order : ℕ) (row : ContactReceipt) : Bool :=
  row.accountId = accountId && row.entityId = entityId && row.outcome = .unknown &&
    row.verification ≠ .observedAfterUnknown && row.terminalObservationOrder.any (· < order)

/-- `refine_unknown_for_observation`; `guard` is the answer of the guard. -/
def refineUnknown (accountId entityId : ℤ) (order : ℕ) (state : ContactCommandState)
    (guard : Bool) (db : ReceiptStore) : ReceiptStore × ℕ :=
  if state.observationOrder ≠ some order ∨ ¬ guard then (db, 0)
  else
    (db.updateContacts (·.releasable accountId entityId order)
        (·.verify .observedAfterUnknown order),
      db.contacts.countP (·.releasable accountId entityId order))

/-- An acknowledged receipt whose verification is outstanding. -/
def ContactReceipt.awaiting (row : ContactReceipt) : Bool :=
  row.outcome = .acknowledged && row.outstanding

/-- `record_verification`; the guard is asked before the transaction and inside it. -/
def recordVerification (binding : NativeWriteReceiptBinding) (order : ℕ)
    (result : ContactVerification) (guard guardInside : Bool) (db : ReceiptStore) :
    Except ReceiptError (ReceiptStore × Bool) :=
  if result ∉ [.verified, .mismatch] ∨ ¬ guard ∨ ¬ guardInside then .ok (db, false)
  else do
    contactBinding binding
    let condition := fun row : ContactReceipt =>
      row.boundBy binding && row.awaiting && row.terminalObservationOrder.any (· < order)
    .ok (db.updateContacts condition (·.verify result order), db.contacts.countP condition = 1)

section Observation

-- `contact_fingerprint`, a digest of its arguments
variable (contactFingerprint : String → ℤ → String → String → String → String)

/-- `_observation_matches`. -/
def observationMatches (state : ContactCommandState) (action : String) (entityId : ℤ)
    (result : ContactResult) : Option Bool :=
  if action = "delete" then some (state.membership = some false)
  else if state.membership = some false then some false
  else
    match state.membership, state.firstName, state.lastName, result.verificationFingerprint with
    | some true, some first, some last, some expected =>
      if expected.length = 64 then
        some (contactFingerprint action entityId first last "" = expected)
      else none
    | _, _, _, _ => none

/-- An acknowledged receipt of the entity that an observation of an order may refine. -/
def ContactReceipt.refinable (accountId entityId : ℤ) (order : ℕ) (row : ContactReceipt) : Bool :=
  row.accountId = accountId && row.entityId = entityId && row.awaiting &&
    row.terminalObservationOrder.any (· < order)

/-- The loop of `refine_acknowledged_for_observation`. -/
def refineAwaiting (accountId entityId : ℤ) (order : ℕ) (state : ContactCommandState) :
    List ContactReceipt → ReceiptStore → ℕ → ReceiptStore × ℕ
  | [], db, count => (db, count)
  | row :: rest, db, count =>
    match observationMatches contactFingerprint state row.action entityId row.resultJson with
    | none => refineAwaiting accountId entityId order state rest db count
    | some matched =>
      let condition := fun other : ContactReceipt =>
        other.keyed accountId row.operationKey && other.awaiting
      refineAwaiting accountId entityId order state rest
        (db.updateContacts condition (·.verify (if matched then .verified else .mismatch) order))
        (count + db.contacts.countP condition)

/-- `refine_acknowledged_for_observation`. -/
def refineAcknowledged (accountId entityId : ℤ) (order : ℕ) (state : ContactCommandState)
    (guard : Bool) (db : ReceiptStore) : ReceiptStore × ℕ :=
  if state.observationOrder ≠ some order ∨ ¬ guard then (db, 0)
  else
    refineAwaiting contactFingerprint accountId entityId order state
      (db.contacts.filter (·.refinable accountId entityId order)) db 0

end Observation

end McpTelegram
