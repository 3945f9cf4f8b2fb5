import McpTelegram.Demand.Work

/-!
# One slice on the coordinator state of its revision

A slice starts with the synchronous part of `_execute_slice`, up to the call of the adapter, and
ends with the handler of what the adapter returned or raised.  What the clocks, the gates and
`_prepare_durable_retry` answer in between is given from outside.
-/

namespace McpTelegram

/-- What `_execute_slice` reads before it calls the adapter: the clock readings in the order of the
calls, the gate, and the deadlines of the retry authorizations. -/
structure SliceReadings where
  /-- The deadline clock at the creation of the invocation. -/
  createdAt : ℚ
  transientAt : ℚ
  transientGate : Option RpcGate := none
  activation : Option ℚ := none
  activatedAt : ℚ
  resumedAt : ℚ
  resumeGate : Option RpcGate := none
  resumption : Option ℚ := none
  authorizedAt : ℚ
  authorization : Option ℚ := none

/-- A committed revision or the kind of another outcome: `SliceOutcomeKind` with the fact that only
progress and terminal outcomes commit. -/
inductive SliceOutcomeKind where
  | progressed | terminal | deferred | retryableFailure | stale | noProgress
  deriving DecidableEq

/-- The text of an outcome kind. -/
def SliceOutcomeKind.value : SliceOutcomeKind → String
  | progressed => "progressed"
  | terminal => "terminal"
  | deferred => "deferred"
  | retryableFailure => "retryable_failure"
  | stale => "stale"
  | noProgress => "no_progress"

/-- `SliceOutcome`. -/
structure SliceOutcome where
  selected : WorkRevision
  kind : SliceOutcomeKind
  committedRevision : Option String := none
  deriving DecidableEq

/-- `committed_revision_for`. -/
def SliceOutcome.committedRevisionFor (outcome : SliceOutcome) (selected : WorkRevision) :
    Option String :=
  if outcome.selected = selected then outcome.committedRevision else none

/-- `_committed_outcome`. -/
def SliceOutcome.committed (outcome : SliceOutcome) (selected : WorkRevision) : Bool :=
  (outcome.kind = .progressed ∨ outcome.kind = .terminal) ∧
    (outcome.committedRevisionFor selected).isSome

/-- What the adapter of a slice returns or raises. -/
inductive SliceResult where
  /-- A returned value; `none` when it is no `SliceOutcome`. -/
  | outcome (outcome : Option SliceOutcome)
  /-- `TelegramRpcAdmissionDeferred`, `TelegramRpcMethodRecoveryPending` or
  `TelegramRpcThrottled`. -/
  | gate (gate : RpcGate)
  /-- `RpcAdmissionSaturatedError`. -/
  | saturated
  /-- `RpcAttemptBudgetExhaustedError`. -/
  | budgetExhausted
  /-- `RpcReadTimeoutError`. -/
  | readTimeout
  /-- `RpcAdmissionExpiredError`. -/
  | admissionExpired
  /-- Any other exception. -/
  | failure (isTimeout : Bool) (rootAttempts : ℕ)
  /-- `RpcAdmissionClosedError`. -/
  | admissionClosed
  | cancelled
  deriving DecidableEq

/-- What a handler reads: the clock and the gate. -/
structure HandlerReadings where
  now : ℚ
  /-- `_rpc_eligibility` as a deferred outcome and a failed read budget ask for it. -/
  asked : Option RpcGate := none
  /-- `_rpc_eligibility` as `_handle_throttle` asks for it. -/
  hint : Option RpcGate := none
  /-- Whether the gates changed while the slice ran. -/
  generationChanged : Bool := false

/-- What a handler does: the entries it leaves, whether it calls `_release_ready_gate_waits`, and
what it changes after that call. -/
structure Handled where
  work : WorkState
  releaseReady : Bool := false
  afterRelease : WorkState → WorkState := id

namespace WorkState

/-! ## Starting -/

/-- The stored invocation, or a new one with the full allowance. -/
def invocationOr (work : WorkState) (limit cell : ℕ) (deadline : ℚ) : DemandInvocation :=
  work.invocation.getD { budget := { limit }, deadline := some deadline, cell }

/-- `_activate_transient_retry`. -/
def activateTransientRetry (readings : SliceReadings) (allowance : ℕ) (timeout : ℚ)
    (invocation : DemandInvocation) : DemandInvocation :=
  let budget := invocation.budget
  let authorization := if budget.exhausted then readings.activation else none
  match authorization.filter (readings.activatedAt < ·) with
  | some deadline => { invocation with deadline := some deadline }
  | none =>
    if budget.readBudgetFailureMethod.isSome then invocation
    else
      { invocation with
        budget :=
          { budget with
            limit :=
              if budget.exhausted then budget.attempts + allowance
              else budget.attempts + min (budget.limit - budget.attempts) allowance }
        deadline := some (readings.activatedAt + timeout) }

/-- `_resume_gate_wait` on the invocation. -/
def resumeGateWait (readings : SliceReadings) (timeout : ℚ) (released : Bool)
    (invocation : DemandInvocation) : DemandInvocation :=
  if released = false ∨ invocation.budget.exhausted ∨
      invocation.deadline.all (readings.resumedAt < ·) ∨ readings.resumeGate.isSome then
    invocation
  else
    match readings.resumption.filter (readings.resumedAt < ·) with
    | some deadline => { invocation with deadline := some deadline }
    | none => { invocation with deadline := some (readings.resumedAt + timeout) }

/-- `_authorize_invocation`: the entries, and the invocation when the slice may run. -/
def authorizeInvocation (readings : SliceReadings) (timeout : ℚ) (work : WorkState)
    (invocation : DemandInvocation) : WorkState × Option DemandInvocation :=
  let deadline := invocation.deadline.getD (readings.authorizedAt + timeout)
  let invocation := { invocation with deadline := some deadline }
  if invocation.budget.exhausted = false ∧ readings.authorizedAt < deadline then
    ({ work with invocation := some invocation }, some invocation)
  else
    match readings.authorization.filter (readings.authorizedAt < ·) with
    | some deadline =>
      let invocation := { invocation with deadline := some deadline }
      ({ work with invocation := some invocation }, some invocation)
    | none =>
      ({ work with invocation := some invocation }.park "retry_not_authorized" none, none)

/-- The end of the synchronous part of `_execute_slice`. -/
def resumeAndAuthorize (readings : SliceReadings) (timeout : ℚ) (work : WorkState)
    (invocation : DemandInvocation) : WorkState × Option DemandInvocation :=
  authorizeInvocation readings timeout { work with releasedGateWait := false }
    (resumeGateWait readings timeout work.releasedGateWait invocation)

/-- `_execute_slice` up to the call of the adapter: the entries, and the invocation to run. -/
def executeSlice (readings : SliceReadings) (limit cell : ℕ) (timeout : ℚ) (work : WorkState) :
    WorkState × Option DemandInvocation :=
  let invocation := work.invocationOr limit cell (readings.createdAt + timeout)
  let work := { work with invocation := some invocation }
  match work.transientWait with
  | none => resumeAndAuthorize readings timeout work invocation
  | some deadline =>
    if readings.transientAt < deadline ∨ readings.transientGate.isSome then (work, none)
    else
      resumeAndAuthorize readings timeout { work with transientWait := none }
        (activateTransientRetry readings limit timeout invocation)

/-! ## Ending -/

/-- The adapter's own accounting: the budget it leaves, and the method forgotten after an
attempt. -/
def accountAttempts (work : WorkState) (before after : DemandInvocation) : WorkState :=
  { work with
    invocation :=
      work.invocation.map fun invocation =>
        if invocation.cell = before.cell then { invocation with budget := after.budget }
        else invocation
    method := if before.budget.attempts < after.budget.attempts then none else work.method }

/-- `_handle_capacity_deferred`. -/
def handleCapacityDeferred (readings : HandlerReadings) (work : WorkState) : Handled where
  work := work.park "admission_saturated" none
  releaseReady := readings.generationChanged

/-- `_handle_deferred` on an exception of a gate. -/
def handleDeferredGate (readings : HandlerReadings) (budget : RpcAttemptBudget)
    (work : WorkState) : RpcGate → Handled
  | .admissionDeferred methodKey _ eligibleAt reason =>
    let work := work.setMethod (textOr methodKey (work.methodForWork (some budget) none))
    if reason = some "capacity" then work.handleCapacityDeferred readings
    else { work := work.park (methodWaitReason reason "admission_deferred") eligibleAt }
  | .methodRecoveryPending methodKey reason =>
    { work := (work.setMethod (some methodKey)).park
        (methodWaitReason (some reason) "method_recovery_pending") none }
  | .throttled _ => { work }

/-- `_handle_throttle`. -/
def handleThrottle (readings : HandlerReadings) (budget : RpcAttemptBudget)
    (retryAfterSeconds : Option ℕ) (work : WorkState) : Handled :=
  let method := work.methodForWork (some budget) none
  match readings.hint with
  | some (.admissionDeferred methodKey hasGeneration eligibleAt reason) =>
    { work.handleDeferredGate readings budget
        (.admissionDeferred methodKey hasGeneration eligibleAt reason) with
      afterRelease := fun work =>
        work.strengthenThrottleWait readings.now retryAfterSeconds (reason = some "capacity") }
  | some (.methodRecoveryPending methodKey reason) =>
    work.handleDeferredGate readings budget (.methodRecoveryPending methodKey reason)
  | some (.throttled hinted) =>
    let parked := work.parkThrottle readings.now method retryAfterSeconds
    if hinted = none ∨ retryAfterSeconds ≠ none then
      { work := parked.parkThrottle readings.now method hinted }
    else { work := parked }
  | none => { work := work.parkThrottle readings.now method retryAfterSeconds }

/-- `_handle_deferred` or `_handle_throttle` on an exception of a gate. -/
def handleGate (readings : HandlerReadings) (budget : RpcAttemptBudget) (work : WorkState) :
    RpcGate → Handled
  | .throttled retryAfterSeconds => work.handleThrottle readings budget retryAfterSeconds
  | gate => work.handleDeferredGate readings budget gate

/-- `_park_read_budget_failure`. -/
def parkReadBudgetFailure (readings : HandlerReadings) (budget : RpcAttemptBudget)
    (method : String) (work : WorkState) : Handled :=
  let work := work.setMethod (some method)
  match readings.asked with
  | some gate => work.handleGate readings budget gate
  | none => { work := work.park "method_recovery_pending" none, releaseReady := true }

/-- `_handle_pacing_deferred` on an exhausted budget, a read timeout or an expired admission. -/
def handlePacingDeferred (readings : HandlerReadings) (budget : RpcAttemptBudget)
    (readBudget : Bool) (reason : String) (work : WorkState) : Handled :=
  match budget.readBudgetFailureMethod with
  | some method =>
    if readBudget then work.parkReadBudgetFailure readings budget method
    else { work := work.exclude reason }
  | none => { work := work.exclude reason }

/-- `_handle_outcome`. -/
def handleOutcome (readings : HandlerReadings) (budget : RpcAttemptBudget)
    (selected : WorkRevision) (work : WorkState) : Option SliceOutcome → Handled
  | none => { work := work.exclude "invalid_slice_outcome" }
  | some outcome =>
    if outcome.selected ≠ selected then { work := work.exclude "invalid_slice_outcome" }
    else if outcome.committed selected then { work := {} }
    else if outcome.kind = .retryableFailure then
      { work := work.scheduleTransientRetry readings.now }
    else if outcome.kind = .deferred then
      match readings.asked with
      | some gate => work.handleGate readings budget gate
      | none => { work := work.exclude outcome.kind.value }
    else { work := work.exclude outcome.kind.value }

/-- The handlers of `_run_invocation`; the two ways of a closed admission and a cancellation leave
the entries as they are. -/
def handleResult (readings : HandlerReadings) (budget : RpcAttemptBudget)
    (selected : WorkRevision) (work : WorkState) : SliceResult → Handled
  | .outcome outcome => work.handleOutcome readings budget selected outcome
  | .gate gate => work.handleGate readings budget gate
  | .saturated => work.handleCapacityDeferred readings
  | .budgetExhausted =>
    work.handlePacingDeferred readings budget true "attempt_budget_exhausted"
  | .readTimeout => work.handlePacingDeferred readings budget true "admission_expired"
  | .admissionExpired => work.handlePacingDeferred readings budget false "admission_expired"
  | .failure isTimeout rootAttempts =>
    if isTimeout = true ∧ rootAttempts = 0 then
      { work := work.scheduleTransientRetry readings.now }
    else
      { work :=
          work.exclude (if isTimeout then "deadline_exceeded" else "unclassified_failure") }
  | .admissionClosed | .cancelled => { work }

end WorkState

end McpTelegram
