import McpTelegram.Scheduled.Commands

/-!
# Steps of scheduled commands

The executions of `ScheduledCommandOwner`, cut at their awaits, beside the writers of the mirror,
the changes of a dialog's state, a crash and the settlement after it.
-/

namespace McpTelegram

open Foundations

/-- What `_build_request` answers. -/
inductive BuiltRequest
  | refused (code : String)
  | nothing
  | request
  deriving DecidableEq

/-- How the client call may fail: `ScheduledWriteRejected`, a definite refusal by Telegram, or any
other error or cancellation. -/
inductive DispatchError
  | writeRejected (code : String)
  | definite
  | indefinite
  deriving DecidableEq

/-- The actions of the daemon. -/
inductive CommandAction
  /-- `execute` takes the lock of the dialog. -/
  | start (command : ScheduledCommand)
  /-- The duplicate check and the access check. -/
  | read (id : ℕ) (accessible : Bool)
  /-- The peer is resolved and the queue is read. -/
  | plan (id : ℕ) (peer : Bool)
  /-- The request is built and its receipt is written. -/
  | prepare (id : ℕ) (now random : ℤ) (built : BuiltRequest)
  /-- The receipt of an unchanged item is written. -/
  | persist (id : ℕ) (now : ℤ)
  /-- The gateway awaits the check. -/
  | revalidate (id : ℕ)
  /-- The gateway sends. -/
  | send (id : ℕ)
  /-- The client call fails. -/
  | fail (id : ℕ) (error : DispatchError)
  /-- The client call answers. -/
  | respond (id : ℕ) (evidence : Option ResponseEvidence)
  /-- The evidence is applied, or its projection fails. -/
  | project (id : ℕ) (now : ℤ) (fails : Bool)
  /-- The receipt is finished, or its write fails. -/
  | finish (id : ℕ) (now : ℤ) (fails : Bool)
  /-- The execution is cancelled or raises. -/
  | abandon (id : ℕ)
  /-- A writer of the mirror: an event, a snapshot. -/
  | mirror (operation : ScheduledOperation)
  /-- The state of a dialog changes otherwise. -/
  | reconcile (dialogId : ℤ) (state : ReconciliationState)
  /-- The access to a dialog changes. -/
  | access (dialogId : ℤ) (lost : Bool)
  /-- The account of the queue changes. -/
  | bindAccount (account : Option ℤ)
  /-- Permits are invalidated for another reason. -/
  | revoke (invalidation : PermitInvalidation)
  /-- The process ends, and the next one is verified for an account. -/
  | crash (accountId : ℤ)
  /-- `settle_interrupted_scheduled_operations` of the next process. -/
  | settle (now : ℤ)

section Steps

variable (fingerprint : ScheduledCommand → String)
variable (version : ℤ → ℤ → ℤ → ℕ → String)
variable (stemText : Option String → String)

/-- `_validate_current_item`: nothing, or the code of the refusal. -/
def currentItemRefusal (command : ScheduledCommand) (row : Option ScheduledRow) : Option String :=
  match command.action, row with
  | .create, _ => none
  | _, none => some "preflight_unavailable"
  | _, some row =>
    if command.expectedVersion ≠ some (version command.accountId command.dialogId
        (command.scheduledMessageId.getD 0) (row.observationOrder.getD 0)) then
      some "version_conflict"
    else if command.topicId ≠ none ∧
        row.body.bind (·.forumTopicId) ≠ command.topicId then some "topic_mismatch"
    else none

/-- The time that `_validated_schedule_time` tests. -/
def scheduleTime (command : ScheduledCommand) (row : Option ScheduledRow) : Option ℤ :=
  command.scheduleAtUtc.or
    (if command.action = .update then row.bind fun row => row.body.bind (·.scheduledAt) else none)

/-- `_validated_schedule_time` refuses. -/
def scheduleTooSoon (command : ScheduledCommand) (row : Option ScheduledRow) (now : ℤ) : Bool :=
  command.action ≠ .cancel && !(scheduleTime command row).any (now + 60 ≤ ·)

/-- The random id of a command: `secrets.randbits(63) or 1`. -/
def commandRandomId (command : ScheduledCommand) (random : ℤ) : Option ℤ :=
  if command.action = .create then some (if random = 0 then 1 else random) else none

/-- `_mutation_intent`. -/
def mutationIntent (command : ScheduledCommand) (row : Option ScheduledRow) (coverageOrder : ℕ)
    (randomId : Option ℤ) : ScheduledMutationIntent where
  accountId := command.accountId
  dialogId := command.dialogId
  action := command.action
  operationKey := command.operationKey
  requestFingerprint := fingerprint command
  expectedObservationOrder := (row.map fun row => row.observationOrder.getD 0).getD coverageOrder
  scheduledMessageId := command.scheduledMessageId
  scheduleAtUtc :=
    if command.action = .cancel then none else some ((scheduleTime command row).getD 0)
  randomId := randomId

/-- The validation of `_revalidation_check`: nothing, or the code of `ScheduledWriteRejected`. -/
def revalidationRefusal (w : CommandWorld) (command : ScheduledCommand)
    (intent : ScheduledMutationIntent) : Option String :=
  if !(w.receipts.lookup command.key).any (fun receipt =>
      receipt.outcome = .pending && receipt.requestFingerprint = fingerprint command) then
    some "scheduled_receipt_changed"
  else
    match w.currentState command with
    | .error code => some code
    | .ok (row, coverageOrder) =>
      if (row.map fun row => row.observationOrder.getD 0).getD coverageOrder ≠
            intent.expectedObservationOrder ∨
          row.any (·.messageState ≠ .scheduled) then
        some "scheduled_version_changed"
      else none

/-- What `_dispatch_error` writes. -/
def failureEnding (command : ScheduledCommand) (attempts : ℕ) (error : DispatchError) :
    ReceiptEnding :=
  let dispatched : Bool := match error with
    | .writeRejected _ => false
    | _ => 0 < attempts
  let outcome : ScheduledOutcome := if dispatched ∧ error ≠ .definite then .unknown else .rejected
  let failure : ScheduledFailure :=
    if outcome = .unknown then
      ⟨"mutation_outcome_unknown",
        "Telegram may have applied this scheduled change, but no acknowledgment was received.",
        "Read the local scheduled queue; do not retry this operation key."⟩
    else
      ⟨match error with
        | .writeRejected code => code
        | _ => "mutation_rejected",
        "The scheduled change was rejected before confirmation.",
        "Read the local scheduled queue before starting a new operation."⟩
  { outcome := outcome
    dispatched := some dispatched
    result :=
      { scheduledResult command outcome (some dispatched) (if dispatched then none else some false)
          false with
        failure := some failure } }

/-- The queue id of an answered command; `_correlated_response`. -/
def resultingId (command : ScheduledCommand) (evidence : Option ResponseEvidence) : Option ℤ :=
  if command.action = .create then
    match evidence with
    | some (.message message) => some message.id
    | _ => none
  else command.scheduledMessageId

/-- What `_dispatch_success` writes. -/
def successEnding (command : ScheduledCommand) (resulting : Option ℤ) (confirmed : Bool) :
    ReceiptEnding where
  outcome := .acknowledged
  dispatched := some true
  result := scheduledResult command .acknowledged (some true) (some true) confirmed resulting
  scheduledMessageId := resulting

/-- The write by which `_apply_cancellation` and `_apply_message` apply the evidence. -/
def responseOperation (command : ScheduledCommand) (evidence : ResponseEvidence) (now : ℤ)
    (order : ℕ) : Option ScheduledOperation :=
  match command.action, evidence with
  | .cancel, .removal messages sentMessages =>
    command.scheduledMessageId.bind fun messageId =>
      if messageId ∈ messages then
        some (.removed command.dialogId [messageId]
          (sentMessages.bind fun sent => sent[messages.idxOf messageId]?).toList now order)
      else none
  | .cancel, .message _ => none
  | .update, .message message =>
    if some message.id = command.scheduledMessageId then
      some (.upsert command.dialogId message now true order)
    else none
  | .create, .message message => some (.upsert command.dialogId message now true order)
  | _, .removal _ _ => none

/-- The message whose row `_response_row_confirmed` reads. -/
def confirmedMessage (command : ScheduledCommand) : ResponseEvidence → Option ℤ
  | .message message => some message.id
  | .removal _ _ => command.scheduledMessageId

/-- `_response_row_confirmed`. -/
def responseConfirmed (store : ScheduledStore) (command : ScheduledCommand)
    (evidence : ResponseEvidence) (order : ℕ) : Bool :=
  ((confirmedMessage command evidence).bind fun messageId =>
    store.rows.lookup (command.dialogId, messageId)).any fun row =>
      row.messageState = (if command.action = .cancel then .cancelled else .scheduled) &&
        row.observationOrder = some order

namespace CommandWorld

/-- The receipt of a command is created by an execution. -/
def createReceipt (w : CommandWorld) (id : ℕ) (command : ScheduledCommand)
    (receipts : ScheduledReceipts) : CommandWorld :=
  { w with
    receipts := receipts
    sequence := w.sequence + 1
    owner := w.owner.put command.key id }

/-- The actions of one execution, by where it is. -/
def executionStep (w : CommandWorld) (id : ℕ) (command : ScheduledCommand) :
    ExecutionPhase → CommandAction → Option CommandWorld
  | .started, .read _ accessible =>
    match w.receipts.lookup command.key with
    | some receipt => some (w.answer id command (duplicateAnswer fingerprint command receipt))
    | none =>
      if accessible then some (w.advance id command .admitted)
      else some (w.answer id command (.refused "scheduled_state_unavailable"))
  | .admitted, .plan _ peer =>
    if !peer then some (w.answer id command (.refused "peer_unavailable"))
    else
      match w.currentState command with
      | .error code => some (w.answer id command (.refused code))
      | .ok (row, coverageOrder) =>
        match currentItemRefusal version command row with
        | some code => some (w.answer id command (.refused code))
        | none => some (w.advance id command (.planned row coverageOrder))
  | .planned row coverageOrder, .prepare _ now random built =>
    if scheduleTooSoon command row now then
      some (w.answer id command (.refused "schedule_too_soon"))
    else
      let randomId := commandRandomId command random
      match built with
      | .refused code => some (w.answer id command (.refused code))
      | .nothing => some (w.advance id command (.persisting randomId))
      | .request =>
        match prepareReceipt fingerprint command randomId now w.receipts with
        | .existing receipt =>
          some (w.answer id command (duplicateAnswer fingerprint command receipt))
        | .conflict => some (w.answer id command (.refused "operation_conflict"))
        | .created receipts =>
          some ((w.createReceipt id command receipts).advance id command (.dispatching
            { intent := mutationIntent fingerprint command row coverageOrder randomId
              responseOrder := w.sequence + 1 }))
  | .persisting randomId, .persist _ now =>
    let ending : ReceiptEnding :=
      { outcome := .unchanged
        dispatched := some false
        result := scheduledResult command .unchanged (some false) none false }
    match prepareReceipt fingerprint command randomId now w.receipts with
    | .existing _ => some (w.advance id command (.finishing ending))
    | .conflict => some (w.answer id command (.refused "operation_conflict"))
    | .created receipts =>
      some ((w.createReceipt id command receipts).advance id command (.finishing ending))
  | .dispatching dispatch, .revalidate _ =>
    match revalidationRefusal fingerprint w command dispatch.intent with
    | some code =>
      some (w.advance id command
        (.finishing (failureEnding command dispatch.attempts (.writeRejected code))))
    | none =>
      some (w.advance id command (.dispatching
        { dispatch with
          token := some
            { accountId := command.accountId
              target := (command.dialogId, command.scheduledMessageId) } }))
  | .dispatching dispatch, .send _ =>
    if dispatch.attempts < 1 ∧ dispatch.token.any (·.isValidFor dispatch.intent) then
      some { w.advance id command (.dispatching { dispatch with attempts := dispatch.attempts + 1 })
        with
        sent := ⟨id, command.key, fingerprint command, dispatch.intent.randomId⟩ :: w.sent }
    else none
  | .dispatching dispatch, .fail _ error =>
    some (w.advance id command (.finishing (failureEnding command dispatch.attempts error)))
  | .dispatching dispatch, .respond _ evidence =>
    if dispatch.attempts = 0 then none
    else
      match evidence with
      | none =>
        some (w.advance id command (.finishing
          (successEnding command (resultingId command none) false)))
      | some proof =>
        some (w.advance id command (.responded dispatch (resultingId command evidence) proof))
  | .responded dispatch resulting evidence, .project _ now fails =>
    match responseOperation command evidence now dispatch.responseOrder with
    | none =>
      some (w.advance id command (.finishing (successEnding command resulting false)))
    | some operation =>
      if fails then
        some (w.advance id command (.finishing (successEnding command resulting false)))
      else
        let written := w.write stemText operation
        some (written.advance id command (.finishing (successEnding command resulting
          (responseConfirmed written.store command evidence dispatch.responseOrder))))
  | .finishing ending, .finish _ now fails =>
    let answered := w.answer id command
      (.result { ending.result with receiptPersisted := !fails })
    if fails then some answered
    else
      some { answered with
        receipts := Dictionary.modify w.receipts command.key
          (·.finish ending.outcome ending.dispatched ending.result ending.scheduledMessageId now) }
  | _, .abandon _ => some (w.leave id command)
  | _, _ => none

/-- The execution that an action is about. -/
def actor : CommandAction → Option ℕ
  | .read id _ | .plan id _ | .prepare id _ _ _ | .persist id _ | .revalidate id | .send id
  | .fail id _ | .respond id _ | .project id _ _ | .finish id _ _ | .abandon id => some id
  | _ => none

/-- One action of the daemon. -/
def step (w : CommandWorld) (action : CommandAction) : Option CommandWorld :=
  match action with
  | .start command =>
    if command.accountId ≠ w.accountId ∨ (command.accountId, command.dialogId) ∈ w.locked then none
    else
      some { w.advance w.nextId command .started with
        nextId := w.nextId + 1
        locked := (command.accountId, command.dialogId) :: w.locked }
  | .mirror operation => some (w.write stemText operation)
  | .reconcile dialogId state =>
    some { w with
      store := { w.store with reconciliation := w.store.reconciliation.insert dialogId state } }
  | .access dialogId lost =>
    some { w with
      accessLost := fun other => if other = dialogId then lost else w.accessLost other }
  | .bindAccount account => some { w with boundAccount := account }
  | .revoke invalidation => some (w.invalidate [invalidation])
  | .crash accountId =>
    some { w with accountId := accountId, executions := fun _ => none, locked := [] }
  | .settle now => some { w with receipts := settleInterrupted w.accountId now w.receipts }
  | action =>
    (actor action).bind fun id =>
      (w.executions id).bind fun execution =>
        executionStep fingerprint version stemText w id execution.command execution.phase action

end CommandWorld

end Steps

end McpTelegram
