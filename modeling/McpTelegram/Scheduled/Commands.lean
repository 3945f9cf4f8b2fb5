import McpTelegram.Foundations.Table
import McpTelegram.Foundations.Run
import McpTelegram.Scheduled.Fence

/-!
# Scheduled commands

`scheduled_commands.py`: the receipts of scheduled mutations and the owner that executes a command
under the lock of its dialog.  An execution is cut at its awaits; every cut is an action of its own,
so that other executions, the writers of the mirror and a crash may come between.  The gateway is
assumed to await the current check and to send only under a valid permit, once for each budget.
-/

namespace McpTelegram

open Foundations

/-! ## Commands -/

/-- The actions of a scheduled command. -/
inductive ScheduledAction
  | create
  | update
  | cancel
  deriving DecidableEq

/-- `ScheduledCommand`.  The last two fields are what `_parse_command` has checked: only the
creation of a message has no queue id and no version. -/
structure ScheduledCommand where
  action : ScheduledAction
  accountId : ℤ
  dialogId : ℤ
  topicId : Option ℤ := none
  operationKey : String
  scheduledMessageId : Option ℤ := none
  expectedVersion : Option String := none
  text : Option String := none
  scheduleAtUtc : Option ℤ := none
  repeatPeriodSeconds : Option ℤ := none
  repeatWasSupplied : Bool := false
  dropFormatting : Bool := false
  created : action = .create → scheduledMessageId = none ∧ expectedVersion = none
  selected : action ≠ .create → scheduledMessageId ≠ none ∧ expectedVersion ≠ none

/-- The owner of the receipt of a command. -/
def ScheduledCommand.key (command : ScheduledCommand) : ℤ × String :=
  (command.accountId, command.operationKey)

/-! ## Receipts -/

/-- The values of `scheduled_operation_receipts.outcome`. -/
inductive ScheduledOutcome
  | pending
  | acknowledged
  | unchanged
  | unknown
  | rejected
  deriving DecidableEq

/-- The extra keys of the result of a failed dispatch. -/
structure ScheduledFailure where
  error : String
  message : String
  requiredAction : String
  deriving DecidableEq

/-- The result of a command; `_result`.  `schedule_at_utc` is kept as a timestamp. -/
structure ScheduledResult where
  ok : Bool
  action : ScheduledAction
  operationKey : String
  accountId : ℤ
  dialogId : ℤ
  scheduledMessageId : Option ℤ
  outcome : ScheduledOutcome
  mutationDispatched : Option Bool
  acknowledged : Option Bool
  receiptPersisted : Bool := true
  currentIsOperationConfirmation : Bool
  scheduleAtUtc : Option ℤ
  failure : Option ScheduledFailure := none
  deriving DecidableEq

/-- `_result`. -/
def scheduledResult (command : ScheduledCommand) (outcome : ScheduledOutcome)
    (dispatched acknowledged : Option Bool) (rowConfirmed : Bool)
    (scheduledMessageId : Option ℤ := none) : ScheduledResult where
  ok := outcome ∈ [.acknowledged, .unchanged, .unknown]
  action := command.action
  operationKey := command.operationKey
  accountId := command.accountId
  dialogId := command.dialogId
  scheduledMessageId := (scheduledMessageId.filter (· ≠ 0)).or command.scheduledMessageId
  outcome := outcome
  mutationDispatched := dispatched
  acknowledged := acknowledged
  currentIsOperationConfirmation := rowConfirmed
  scheduleAtUtc := command.scheduleAtUtc

/-- A row of `scheduled_operation_receipts`; the empty result `{}` is no result. -/
structure ScheduledReceipt where
  requestFingerprint : String
  action : ScheduledAction
  dialogId : ℤ
  scheduledMessageId : Option ℤ
  randomId : Option ℤ
  expectedVersion : Option String
  outcome : ScheduledOutcome := .pending
  mutationDispatched : Option Bool := none
  result : Option ScheduledResult := none
  updatedAt : ℤ
  deriving DecidableEq

/-- The receipts by account and operation key. -/
abbrev ScheduledReceipts := Dictionary (ℤ × String) ScheduledReceipt

section Receipts

-- `ScheduledCommand.fingerprint`, a digest of all fields of the command
variable (fingerprint : ScheduledCommand → String)

/-- The receipt that `prepare_scheduled_operation` inserts. -/
def newScheduledReceipt (command : ScheduledCommand) (randomId : Option ℤ) (now : ℤ) :
    ScheduledReceipt where
  requestFingerprint := fingerprint command
  action := command.action
  dialogId := command.dialogId
  scheduledMessageId := command.scheduledMessageId
  randomId := randomId
  expectedVersion := command.expectedVersion
  updatedAt := now

/-- `_prepare_receipt`: the receipt that the key already has, the conflict of another intent, or a
new receipt. -/
inductive PreparedReceipt
  | existing (receipt : ScheduledReceipt)
  | conflict
  | created (receipts : ScheduledReceipts)

/-- `_prepare_receipt` with `prepare_scheduled_operation`. -/
def prepareReceipt (command : ScheduledCommand) (randomId : Option ℤ) (now : ℤ)
    (receipts : ScheduledReceipts) : PreparedReceipt :=
  match receipts.lookup command.key with
  | some receipt =>
    if receipt.requestFingerprint = fingerprint command then .existing receipt else .conflict
  | none =>
    .created (receipts.insert command.key (newScheduledReceipt fingerprint command randomId now))

/-- The assignments of `finish_scheduled_operation`, which only a pending receipt takes. -/
def ScheduledReceipt.finish (outcome : ScheduledOutcome) (dispatched : Option Bool)
    (result : ScheduledResult) (scheduledMessageId : Option ℤ) (now : ℤ)
    (receipt : ScheduledReceipt) : ScheduledReceipt :=
  if receipt.outcome = .pending then
    { receipt with
      outcome := outcome
      mutationDispatched := dispatched
      result := some result
      scheduledMessageId := scheduledMessageId.or receipt.scheduledMessageId
      updatedAt := now }
  else receipt

/-- The assignments of `settle_interrupted_scheduled_operations`. -/
def ScheduledReceipt.settle (now : ℤ) (receipt : ScheduledReceipt) : ScheduledReceipt :=
  if receipt.outcome = .pending then
    { receipt with
      outcome := .unknown
      mutationDispatched := none
      result := none
      updatedAt := now }
  else receipt

/-- `settle_interrupted_scheduled_operations`. -/
def settleInterrupted (accountId now : ℤ) (receipts : ScheduledReceipts) : ScheduledReceipts :=
  Dictionary.mapValues receipts fun key receipt =>
    if key.1 = accountId then receipt.settle now else receipt

/-- The answer to a command. -/
inductive ScheduledAnswer
  | result (result : ScheduledResult)
  | refused (code : String)
  deriving DecidableEq

/-- `_duplicate`: the stored result, and the unknown outcome where there is none. -/
def duplicateAnswer (command : ScheduledCommand) (receipt : ScheduledReceipt) : ScheduledAnswer :=
  if receipt.requestFingerprint = fingerprint command then
    .result (receipt.result.getD (scheduledResult command .unknown none none false))
  else .refused "operation_conflict"

end Receipts

/-! ## Permits -/

/-- `ScheduledMutationIntent`. -/
structure ScheduledMutationIntent where
  accountId : ℤ
  dialogId : ℤ
  action : ScheduledAction
  operationKey : String
  requestFingerprint : String
  expectedObservationOrder : ℕ
  scheduledMessageId : Option ℤ
  scheduleAtUtc : Option ℤ
  randomId : Option ℤ
  deriving DecidableEq

/-- `ScheduledMutationToken`. -/
structure PermitToken where
  accountId : ℤ
  target : PermitTarget
  invalidated : Bool := false
  deriving DecidableEq

/-- `is_valid_for`. -/
def PermitToken.isValidFor (token : PermitToken) (intent : ScheduledMutationIntent) : Bool :=
  !token.invalidated && token.accountId = intent.accountId &&
    token.target = (intent.dialogId, intent.scheduledMessageId)

/-- The token after some invalidations. -/
def PermitToken.invalidate (invalidations : List PermitInvalidation) (token : PermitToken) :
    PermitToken :=
  { token with
    invalidated := token.invalidated || invalidations.any (·.hits token.target) }

/-! ## Executions -/

/-- A dispatch between the receipt and the end of the client call. -/
structure ScheduledDispatch where
  intent : ScheduledMutationIntent
  responseOrder : ℕ
  attempts : ℕ := 0
  token : Option PermitToken := none
  deriving DecidableEq

/-- What a response proves about the queue. -/
inductive ResponseEvidence
  | message (message : QueueMessage)
  | removal (messages : List ℤ) (sentMessages : Option (List ℤ))
  deriving DecidableEq

/-- The receipt transition that an execution is about to write. -/
structure ReceiptEnding where
  outcome : ScheduledOutcome
  dispatched : Option Bool
  result : ScheduledResult
  scheduledMessageId : Option ℤ := none
  deriving DecidableEq

/-- Where an execution is. -/
inductive ExecutionPhase
  /-- It holds the lock of its dialog. -/
  | started
  /-- Its key had no receipt. -/
  | admitted
  /-- The queue was read. -/
  | planned (row : Option ScheduledRow) (coverageOrder : ℕ)
  /-- There is nothing to change; the receipt is about to be written. -/
  | persisting (randomId : Option ℤ)
  /-- The receipt is written and the client is called. -/
  | dispatching (dispatch : ScheduledDispatch)
  /-- The client has answered; the evidence is about to be applied. -/
  | responded (dispatch : ScheduledDispatch) (resultingId : Option ℤ) (evidence : ResponseEvidence)
  /-- The receipt is about to be finished. -/
  | finishing (ending : ReceiptEnding)
  deriving DecidableEq

/-- An execution of a command. -/
structure ScheduledExecution where
  command : ScheduledCommand
  phase : ExecutionPhase := .started

/-- The permit of an execution after some invalidations. -/
def ScheduledExecution.invalidate (invalidations : List PermitInvalidation)
    (execution : ScheduledExecution) : ScheduledExecution :=
  match execution.phase with
  | .dispatching dispatch =>
    { execution with
      phase := .dispatching
        { dispatch with token := dispatch.token.map (·.invalidate invalidations) } }
  | _ => execution

/-- A physical send. -/
structure SentRpc where
  execution : ℕ
  key : ℤ × String
  requestFingerprint : String
  randomId : Option ℤ
  deriving DecidableEq

/-- The daemon: its verified account, the mirror, the receipts and the executions in flight.  The
last three fields record what happened: the sends, the answers, and which execution created the
receipt of a key. -/
structure CommandWorld where
  accountId : ℤ
  store : ScheduledStore := {}
  boundAccount : Option ℤ := none
  accessLost : ℤ → Bool := fun _ => false
  receipts : ScheduledReceipts := ∅
  sequence : ℕ := 0
  executions : Table ℕ ScheduledExecution := fun _ => none
  nextId : ℕ := 0
  locked : List (ℤ × ℤ) := []
  sent : List SentRpc := []
  answers : List (ℕ × ScheduledAnswer) := []
  owner : Table (ℤ × String) ℕ := fun _ => none

namespace CommandWorld

/-- An execution goes on. -/
def advance (w : CommandWorld) (id : ℕ) (command : ScheduledCommand) (phase : ExecutionPhase) :
    CommandWorld :=
  { w with executions := w.executions.put id ⟨command, phase⟩ }

/-- An execution ends and releases its lock. -/
def leave (w : CommandWorld) (id : ℕ) (command : ScheduledCommand) : CommandWorld :=
  { w with
    executions := w.executions.drop id
    locked := w.locked.erase (command.accountId, command.dialogId) }

/-- An execution ends with an answer. -/
def answer (w : CommandWorld) (id : ℕ) (command : ScheduledCommand) (answer : ScheduledAnswer) :
    CommandWorld :=
  { w.leave id command with answers := (id, answer) :: w.answers }

theorem advance_executions (w : CommandWorld) (id : ℕ) (command : ScheduledCommand)
    (phase : ExecutionPhase) (other : ℕ) : (w.advance id command phase).executions other =
      if other = id then some ⟨command, phase⟩ else w.executions other :=
  Table.put_apply _ _ _ _

theorem leave_executions (w : CommandWorld) (id : ℕ) (command : ScheduledCommand) (other : ℕ) :
    (w.leave id command).executions other = if other = id then none else w.executions other :=
  Table.drop_apply _ _ _

/-- Permits are invalidated. -/
def invalidate (w : CommandWorld) (invalidations : List PermitInvalidation) : CommandWorld :=
  { w with executions := fun id => (w.executions id).map (·.invalidate invalidations) }

/-- A writer of the mirror runs with the fence. -/
def write (stemText : Option String → String) (w : CommandWorld) (operation : ScheduledOperation) :
    CommandWorld :=
  { w.invalidate (w.store.invalidations stemText operation) with
    store := w.store.perform stemText operation }

/-- `_current_state` with `_require_scheduled_account` and `_current_scheduled_item`. -/
def currentState (w : CommandWorld) (command : ScheduledCommand) :
    Except String (Option ScheduledRow × ℕ) :=
  if w.boundAccount ≠ some command.accountId then .error "account_state_unknown"
  else
    match (w.store.reconciliation.lookup command.dialogId).filter
      (fun _ => !w.accessLost command.dialogId) with
    | none => .error "scheduled_state_unknown"
    | some state =>
      if state.acquisitionBlock ≠ none then .error "scheduled_state_unavailable"
      else if state.coverageState = .unknown ∨ state.authorizationPending then
        .error "scheduled_state_unknown"
      else if state.coverageState ≠ .complete then .error "scheduled_state_unavailable"
      else if state.snapshotObservationOrder.getD 0 = 0 then .error "scheduled_state_invalid"
      else
        match command.scheduledMessageId with
        | none => .ok (none, state.snapshotObservationOrder.getD 0)
        | some messageId =>
          match w.store.rows.lookup (command.dialogId, messageId) with
          | none => .error "scheduled_message_unavailable"
          | some row =>
            if row.messageState ≠ .scheduled ∨ row.observationOrder = none then
              .error "scheduled_message_unavailable"
            else .ok (some row, state.snapshotObservationOrder.getD 0)

end CommandWorld

end McpTelegram
