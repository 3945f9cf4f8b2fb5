import McpTelegram.Receipts.Tables

/-!
# Folder receipts

The statements of `folders/command_receipts.py` and of the receipt helpers of `folders/commands.py`.
Each function is one write transaction: where it raises, the store stays as it was.
-/

namespace McpTelegram

open Foundations

/-- `_binding_values`: the binding must be one of a folder. -/
def folderBinding (binding : NativeWriteReceiptBinding) : Except ReceiptError Unit :=
  if binding.domain = .folder then .ok ()
  else .error (.valueError "invalid folder receipt binding")

/-- `_BINDING_WHERE`.  `key_id` is stored as text, which identifies the same integers. -/
def FolderReceipt.boundBy (binding : NativeWriteReceiptBinding) (row : FolderReceipt) : Bool :=
  row.accountId = binding.accountId && row.operationKey = binding.operationKey &&
    row.dcId = binding.dcId && row.keyId = binding.keyId && row.action = binding.action &&
    row.target = binding.target && row.semanticFingerprint = binding.semanticFingerprint &&
    row.bindingRevision = binding.bindingRevision

/-- An `UPDATE` that raises unless it changes exactly one row. -/
def casFolders (text : String) (condition : FolderReceipt → Bool)
    (change : FolderReceipt → FolderReceipt) (db : ReceiptStore) :
    Except ReceiptError ReceiptStore :=
  if db.folders.countP condition = 1 then .ok (db.updateFolders condition change)
  else .error (.valueError text)

/-! ## Attempts and wire outcomes -/

/-- `bind_attempt`. -/
def bindFolderAttempt (binding : NativeWriteReceiptBinding) (attemptId : String)
    (db : ReceiptStore) : Except ReceiptError ReceiptStore :=
  if attemptId = "" then .error (.valueError "invalid folder attempt")
  else do
    folderBinding binding
    casFolders "folder receipt binding mismatch"
      (fun row => row.boundBy binding && row.outcome = .pending &&
        (row.attemptId = none || row.attemptId = some attemptId))
      (fun row => { row with attemptId := some attemptId }) db

/-- The assignments by which `record_wire_outcome` and `recover_binding` settle a receipt: only the
first of them changes the outcome. -/
def FolderReceipt.settle (outcome : ReceiptOutcome) (order : Option ℕ) (now delay : ℤ)
    (row : FolderReceipt) : FolderReceipt :=
  { row with
    outcome := if row.outcome = .pending then outcome else row.outcome
    terminalRevision := row.terminalRevision + if row.outcome = .pending then 1 else 0
    dispatchOrder := row.dispatchOrder <|> order
    verificationDeadline := row.verificationDeadline <|> some (now + 900)
    nextVerificationAt :=
      if row.outcome = .pending then some (now + delay) else row.nextVerificationAt }

/-- The receipt that the binding and its attempt own. -/
def FolderReceipt.ownedBy (binding : NativeWriteReceiptBinding) (attemptId : String)
    (row : FolderReceipt) : Bool :=
  row.boundBy binding && row.attemptId = some attemptId

/-- The outcomes that a settling statement may meet. -/
def FolderReceipt.settleable (row : FolderReceipt) : Bool := row.outcome = .pending || row.settled

/-- The order that a settling statement assigns: a fresh one for a pending receipt. -/
def ReceiptStore.terminalOrder (outcome : ReceiptOutcome) (db : ReceiptStore) :
    ReceiptStore × Option ℕ :=
  if outcome = .pending then (db.allocateObservationOrder, some (db.sequence + 1)) else (db, none)

/-- `record_wire_outcome`. -/
def recordFolderOutcome (binding : NativeWriteReceiptBinding) (attemptId : String)
    (outcome : ReceiptOutcome) (now : ℤ) (db : ReceiptStore) :
    Except ReceiptError ReceiptStore :=
  if outcome ∉ [.acknowledged, .rejected, .unknown] then
    .error (.valueError "invalid folder outcome")
  else do
    folderBinding binding
    match db.folders.find? (·.ownedBy binding attemptId) with
    | none => .error (.valueError "folder receipt outcome mismatch")
    | some row =>
      let (allocated, order) := db.terminalOrder row.outcome
      casFolders "folder receipt outcome mismatch"
        (fun row => row.ownedBy binding attemptId && row.settleable)
        (·.settle outcome order now 5) allocated

/-- `recover_binding`. -/
def recoverFolderBinding (binding : NativeWriteReceiptBinding) (attemptId : String) (now : ℤ)
    (db : ReceiptStore) : Except ReceiptError (ReceiptStore × Bool) :=
  if attemptId = "" then .error (.valueError "invalid folder receipt recovery")
  else do
    folderBinding binding
    match db.folders.find? (·.ownedBy binding attemptId) with
    | none => .ok (db, false)
    | some row =>
      let (allocated, order) := db.terminalOrder row.outcome
      let condition := fun row : FolderReceipt =>
        row.ownedBy binding attemptId && row.settleable
      .ok (allocated.updateFolders condition (·.settle .unknown order now 0),
        db.folders.countP condition = 1)

/-- A pending receipt of an authorization scope. -/
def FolderReceipt.interrupted (scope : TelegramAuthScope) (row : FolderReceipt) : Bool :=
  row.accountId = scope.accountId && row.dcId = scope.dcId && row.keyId = scope.authKeyId &&
    row.outcome = .pending

/-- The assignments of `recover_interrupted_operations`. -/
def FolderReceipt.recover (order : ℕ) (now : ℤ) (row : FolderReceipt) : FolderReceipt :=
  { row with
    outcome := .unknown
    terminalRevision := row.terminalRevision + 1
    verification := some .pending
    dispatchOrder := some order
    verificationDeadline := row.verificationDeadline <|> some (now + 900)
    nextVerificationAt := some now }

/-- `recover_interrupted_operations`. -/
def recoverFolders (scope : TelegramAuthScope) (now : ℤ) (db : ReceiptStore) :
    ReceiptStore × ℕ :=
  if db.folders.any (·.interrupted scope) then
    (db.allocateObservationOrder.updateFolders (·.interrupted scope)
        (·.recover (db.sequence + 1) now),
      db.folders.countP (·.interrupted scope))
  else (db, 0)

/-! ## Reservation and its marks -/

/-- The receipts that block a new one: same target, or both create. -/
def FolderReceipt.rivals (binding : NativeWriteReceiptBinding) (row : FolderReceipt) : Bool :=
  row.accountId = binding.accountId &&
    (row.target = binding.target || binding.action = "create" && row.action = "create")

/-- `outcome IN ('pending','unknown','acknowledged','rejected')` and an outstanding verification. -/
def FolderReceipt.blocks (row : FolderReceipt) : Bool := row.settleable && row.outstanding

/-- The receipt that `insert_operation` inserts. -/
def newFolderReceipt (binding : NativeWriteReceiptBinding)
    (operationFingerprint expectedVersion : String) (before intended : Option String) (now : ℤ) :
    FolderReceipt where
  accountId := binding.accountId
  operationKey := binding.operationKey
  dcId := binding.dcId
  keyId := binding.keyId
  action := binding.action
  target := binding.target
  semanticFingerprint := binding.semanticFingerprint
  bindingRevision := binding.bindingRevision
  operationFingerprint := operationFingerprint
  expectedVersion := expectedVersion
  outcome := .pending
  verification := some .pending
  beforeImage := before
  intendedDefinition := intended
  verificationDeadline := some (now + 900)

/-- `insert_operation`. -/
def insertFolderOperation (binding : NativeWriteReceiptBinding)
    (operationFingerprint expectedVersion : String) (before intended : Option String) (now : ℤ)
    (db : ReceiptStore) : Except ReceiptError ReceiptStore := do
  folderBinding binding
  if db.folders.any (fun row => row.rivals binding && row.blocks) then
    .error (.valueError "folder target has an unresolved operation")
  else if (binding.accountId, binding.operationKey) ∈ db.folders.map (·.primaryKey) then
    .error .integrityError
  else
    .ok { db with
      folders := db.folders ++
        [newFolderReceipt binding operationFingerprint expectedVersion before intended now] }

/-- `_issue_folder_permit`; `catalog` is `folder_catalog_version`. -/
def issueFolderPermit (binding : NativeWriteReceiptBinding) (version : String)
    (catalog : Option String) (db : ReceiptStore) : Except ReceiptError (ReceiptStore × Bool) :=
  if catalog ≠ some version then .ok (db, false)
  else do
    folderBinding binding
    let condition := fun row : FolderReceipt =>
      row.boundBy binding && row.expectedVersion = version && row.outcome = .pending &&
        !row.permitIssued
    .ok (db.updateFolders condition (fun row => { row with permitIssued := true }),
      db.folders.countP condition = 1)

/-- `_mark_unchanged`. -/
def markUnchanged (binding : NativeWriteReceiptBinding) (version : String) (guard : Bool)
    (catalog : Option String) (db : ReceiptStore) : Except ReceiptError ReceiptStore := do
  folderBinding binding
  casFolders "folder receipt changed"
    (fun row => row.boundBy binding && row.outcome = .pending && row.attemptId = none)
    (fun row =>
      { row with
        outcome := if guard && catalog = some version then .unchanged else .notSent
        verification := some .notRequired }) db

/-- The receipts that `_mark_not_sent` changes. -/
def FolderReceipt.unsendable (binding : NativeWriteReceiptBinding) (row : FolderReceipt) : Bool :=
  row.boundBy binding && row.outcome ∈ [.pending, .rejected]

/-- The assignments of `_mark_not_sent`. -/
def FolderReceipt.unsend (row : FolderReceipt) : FolderReceipt :=
  { row with
    outcome := if row.outcome = .pending then .notSent else row.outcome
    verification := some .notRequired
    preclaimRejected := true }

/-- `_mark_not_sent`. -/
def markNotSent (binding : NativeWriteReceiptBinding) (db : ReceiptStore) :
    Except ReceiptError ReceiptStore := do
  folderBinding binding
  casFolders "folder receipt changed" (·.unsendable binding) (·.unsend) db

/-- `_mark_unbound_not_sent`. -/
def markUnboundNotSent (binding : NativeWriteReceiptBinding) (db : ReceiptStore) :
    Except ReceiptError ReceiptStore := do
  folderBinding binding
  .ok (db.updateFolders
    (fun row => row.boundBy binding && row.outcome = .pending && row.attemptId = none)
    (fun row =>
      { row with
        outcome := .notSent
        verification := some .notRequired
        preclaimRejected := true }))

/-! ## Verification -/

/-- What a reservation reads of a receipt. -/
structure ReservedVerification where
  operationKey : String
  target : ℤ
  dispatchOrder : Option ℕ
  action : String
  intendedDefinition : Option String
  verificationAttempts : ℤ
  deriving DecidableEq

/-- The columns of the reserving `SELECT`. -/
def FolderReceipt.reserved (row : FolderReceipt) : ReservedVerification where
  operationKey := row.operationKey
  target := row.target
  dispatchOrder := row.dispatchOrder
  action := row.action
  intendedDefinition := row.intendedDefinition
  verificationAttempts := row.verificationAttempts

/-- A pending verification whose attempts or time have run out.  The statement does not look at the
outcome, as the `SELECT` after it does. -/
def FolderReceipt.expired (accountId now : ℤ) (row : FolderReceipt) : Bool :=
  row.accountId = accountId && row.verification = some .pending &&
    (3 ≤ row.verificationAttempts || row.verificationDeadline.any (· ≤ now))

/-- The condition of the reserving `SELECT`. -/
def FolderReceipt.reservable (accountId : ℤ) (operationKey : Option String) (now : ℤ)
    (force : Bool) (row : FolderReceipt) : Bool :=
  row.accountId = accountId && row.verification = some .pending && row.settled &&
    row.verificationAttempts < 3 && row.verificationDeadline.any (now < ·) &&
    operationKey.all (row.operationKey = ·) && (force || row.nextVerificationAt.any (· ≤ now))

/-- `ORDER BY next_verification_at,operation_key`, where `NULL` comes first. -/
def FolderReceipt.before (row row' : FolderReceipt) : Bool :=
  match row.nextVerificationAt, row'.nextVerificationAt with
  | none, some _ => true
  | some _, none => false
  | none, none => row.operationKey ≤ row'.operationKey
  | some next, some next' =>
    next < next' || next = next' && row.operationKey ≤ row'.operationKey

/-- The assignments that reserve a verification. -/
def FolderReceipt.reserve (now : ℤ) (row : FolderReceipt) : FolderReceipt :=
  { row with
    verificationAttempts := row.verificationAttempts + 1
    nextVerificationAt := some (now + if row.verificationAttempts = 0 then 5 else 30) }

/-- The row of an account and an operation key. -/
def FolderReceipt.keyed (accountId : ℤ) (operationKey : String) (row : FolderReceipt) : Bool :=
  row.accountId = accountId && row.operationKey = operationKey

/-- `_reserve_folder_verification`. -/
def reserveFolderVerification (accountId : ℤ) (operationKey : Option String) (now : ℤ)
    (force : Bool) (db : ReceiptStore) : ReceiptStore × List ReservedVerification :=
  let expired := db.updateFolders (·.expired accountId now)
    (fun row => { row with verification := some .exhausted })
  let rows := ((expired.folders.filter (·.reservable accountId operationKey now force)).insertionSort
    (fun row row' => row.before row')).map (·.reserved)
  (rows.foldl (fun db reserved =>
    db.updateFolders (·.keyed accountId reserved.operationKey) (·.reserve now)) expired, rows)

/-- The result of comparing the catalogue with what the receipt intended. -/
def verificationResult (action : String) (intended actual : Option String) : FolderVerification :=
  if (if action = "delete" then actual = none else actual = intended) then .matched
  else .mismatched

/-- The loop of `_finish_folder_verification`; `rules` are the encoded definitions. -/
def finishReceipts (accountId : ℤ) (observationOrder : ℕ) (rules : ℤ → Option String) :
    List ReservedVerification → ReceiptStore → Bool → Except ReceiptError (ReceiptStore × Bool)
  | [], db, changed => .ok (db, changed)
  | reserved :: rest, db, changed =>
    match reserved.dispatchOrder with
    | none => .error .typeError
    | some dispatchOrder =>
      if observationOrder ≤ dispatchOrder then
        finishReceipts accountId observationOrder rules rest db changed
      else
        let condition := fun row : FolderReceipt =>
          row.keyed accountId reserved.operationKey && row.verification = some .pending
        let result := verificationResult reserved.action reserved.intendedDefinition
          (rules reserved.target)
        finishReceipts accountId observationOrder rules rest
          (db.updateFolders condition (fun row => { row with verification := some result }))
          (changed || db.folders.countP condition = 1)

/-- `_finish_folder_verification`. -/
def finishFolderVerification (accountId : ℤ) (receipts : List ReservedVerification)
    (observationOrder : ℕ) (guard : Bool) (catalog : Option String) (rules : ℤ → Option String)
    (db : ReceiptStore) : Except ReceiptError (ReceiptStore × Bool) :=
  if !guard || catalog = none then .ok (db, false)
  else finishReceipts accountId observationOrder rules receipts db false

/-- `_release_folder_verification`. -/
def releaseFolderVerification (accountId : ℤ) (receipts : List ReservedVerification) (now : ℤ)
    (db : ReceiptStore) : ReceiptStore :=
  receipts.foldl (fun db reserved =>
    db.updateFolders
      (fun row => row.keyed accountId reserved.operationKey &&
        row.verification = some .pending &&
        row.verificationAttempts = reserved.verificationAttempts + 1)
      (fun row =>
        { row with
          verificationAttempts := row.verificationAttempts - 1
          nextVerificationAt := some (now + 5) })) db

/-- A receipt that an observation of an order may refine. -/
def FolderReceipt.refinable (accountId : ℤ) (observationOrder : ℕ) (row : FolderReceipt) : Bool :=
  row.accountId = accountId && row.dispatchOrder.any (· < observationOrder) && row.settled &&
    row.verification ∈ [some .pending, some .unavailable, some .exhausted]

/-- The comparison of `refine_from_observation`: a definition that is not there matches a deletion
only. -/
def refinedResult (action : String) (intended actual : Option String) : FolderVerification :=
  if (if action = "delete" then actual = none else actual = intended ∧ actual ≠ none) then .matched
  else .mismatched

/-- `refine_from_observation`. -/
def refineFolders (accountId : ℤ) (observationOrder : ℕ) (definitions : ℤ → Option String)
    (complete : Bool) (affectedFolderId : Option ℤ) (db : ReceiptStore) : ReceiptStore :=
  let rows := db.folders.filter (·.refinable accountId observationOrder)
  rows.foldl (fun db row =>
    if !complete && affectedFolderId ≠ some row.target then db
    else
      let result := refinedResult row.action row.intendedDefinition (definitions row.target)
      db.updateFolders (·.keyed accountId row.operationKey)
        (fun row => { row with verification := some result })) db

end McpTelegram
