import McpTelegram.Hydration.Queue

/-!
# Hydration batches

The batches of `fact_hydration.py` over the queue: `_start_batch`, the refund of obsolete
observations, the handler of each failure and the application of a result.  The state carries an
account beside the tables, which no function reads: how often the queued row of an identity was
started and refunded since its insertion, and which batch started and refunded which job.
-/

namespace McpTelegram

open Foundations

/-- The tables, and the account of the starts and refunds. -/
structure HydrationLedger where
  store : MessageStore := {}
  /-- The starts of the queued row of an identity since its insertion. -/
  starts : JobIdentity → ℕ := fun _ => 0
  /-- The refunds of the queued row of an identity since its insertion. -/
  refunds : JobIdentity → ℕ := fun _ => 0
  /-- The starts of all batches. -/
  started : List (ℕ × JobIdentity) := []
  /-- The refunds of all batches. -/
  refunded : List (ℕ × JobIdentity) := []

/-- Work that a producer queues: every caller of `enqueue` passes `attempts=0` and leaves
`terminal` at its default. -/
structure QueuedWork where
  identity : JobIdentity
  dueAt : ℤ
  messageSentAt : ℤ
  priority : HydrationPriority

/-- The row of queued work. -/
def QueuedWork.row (work : QueuedWork) : HydrationJobRow where
  dueAt := work.dueAt
  messageSentAt := work.messageSentAt
  priority := work.priority.toInt

/-- The writes of the other components to the queue and to the observations of messages. -/
inductive QueueWrite where
  | enqueue (work : QueuedWork)
  | enqueueRepair (work : QueuedWork)
  | remove (identity : JobIdentity)
  | removeActive (identity : JobIdentity)
  | removeActiveForDialog (dialogId : ℤ)
  | removeForMessage (key : MessageKey)
  | recordObservations (accepted : List ExtractedMessage) (source : ReactionAggregateSource)
  | recordDeletions (dialogId : ℤ) (messageIds : List ℤ)
  | recordNonchannelDeletions (messageIds : List ℤ) (deletedAt : ℤ)

namespace HydrationLedger

variable (ledger : HydrationLedger)

/-- An inserted row has a fresh account. -/
def openAccount (identity : JobIdentity) : HydrationLedger :=
  if ledger.store.job identity = none then
    { ledger with
      starts := Function.update ledger.starts identity 0
      refunds := Function.update ledger.refunds identity 0 }
  else ledger

/-- A write to the tables. -/
def write : QueueWrite → HydrationLedger
  | .enqueue work =>
    { ledger.openAccount work.identity with
      store := ledger.store.enqueue work.identity.1 work.identity.2 work.row }
  | .enqueueRepair work =>
    { ledger.openAccount work.identity with
      store := ledger.store.enqueueRepair work.identity work.row }
  | .remove identity => { ledger with store := ledger.store.removeJob identity.1 identity.2 }
  | .removeActive identity =>
    { ledger with store := ledger.store.removeActiveJob identity.1 identity.2 }
  | .removeActiveForDialog dialogId =>
    { ledger with store := ledger.store.removeActiveForDialog dialogId }
  | .removeForMessage key => { ledger with store := ledger.store.removeForMessage key }
  | .recordObservations accepted source =>
    { ledger with store := ledger.store.recordMessageObservations accepted source }
  | .recordDeletions dialogId messageIds =>
    { ledger with store := (ledger.store.recordMessageDeletions dialogId messageIds).2 }
  | .recordNonchannelDeletions messageIds deletedAt =>
    { ledger with store := ledger.store.recordNonchannelDeletions messageIds deletedAt }

/-- `start`, for a batch. -/
def start (batch : ℕ) (job : HydrationJob) : Option HydrationJob × HydrationLedger :=
  match ledger.store.startJob job with
  | (none, _) => (none, ledger)
  | (some current, store) =>
    (some current,
      { ledger with
        store
        starts := Function.update ledger.starts job.identity (ledger.starts job.identity + 1)
        started := ledger.started ++ [(batch, job.identity)] })

/-- A refund, for a batch: the account changes when a row did. -/
def refund (batch : ℕ) (identity : JobIdentity) (result : Bool × MessageStore) : HydrationLedger :=
  if result.1 then
    { ledger with
      store := result.2
      refunds := Function.update ledger.refunds identity (ledger.refunds identity + 1)
      refunded := ledger.refunded ++ [(batch, identity)] }
  else ledger

/-- `requeue_undispatched`, for a batch. -/
def requeueUndispatched (batch : ℕ) (job : HydrationJob) (dueAt : ℤ) : HydrationLedger :=
  ledger.refund batch job.identity (ledger.store.requeueUndispatched job dueAt)

/-- `requeue_not_applied`, for a batch. -/
def requeueNotApplied (batch : ℕ) (job : HydrationJob) (dueAt : ℤ) : HydrationLedger :=
  ledger.refund batch job.identity (ledger.store.requeueNotApplied job dueAt)

/-- `mark_terminal`. -/
def markTerminal (job : HydrationJob) (outcome : HydrationOutcome) : HydrationLedger :=
  { ledger with store := (ledger.store.markTerminal job outcome).2 }

/-- `reschedule`. -/
def reschedule (job : HydrationJob) (dueAt : ℤ) (outcome : HydrationOutcome) : HydrationLedger :=
  { ledger with store := (ledger.store.reschedule job dueAt outcome).2 }

/-- `remove`. -/
def remove (job : HydrationJob) : HydrationLedger :=
  { ledger with store := ledger.store.removeJob job.kind job.key }

/-! ## Starting a batch -/

/-- One round of the loop of `_start_batch`: the job joins the started ones, or is dropped as
ineligible, as gone, or because its attempts are used up. -/
def startRound (maxAttempts : ℕ) (eligible : HydrationJob → Bool) (batch : ℕ)
    (state : List HydrationJob × HydrationLedger) (job : HydrationJob) :
    List HydrationJob × HydrationLedger :=
  let (started, ledger) := state
  if eligible job = false then (started, ledger.remove job)
  else
    match ledger.start batch job with
    | (none, ledger) => (started, ledger)
    | (some current, ledger) =>
      if maxAttempts < current.attempts then (started, ledger.markTerminal current .exhausted)
      else (started ++ [current], ledger)

/-- `_start_batch`: the started jobs, and the order of the observation to come.  The boundary of the
reaction aggregates is left out. -/
def startBatch (maxAttempts : ℕ) (eligible : HydrationJob → Bool) (batch : ℕ)
    (jobs : List HydrationJob) : List HydrationJob × Option ℤ × HydrationLedger :=
  let (started, ledger) := jobs.foldl (startRound maxAttempts eligible batch) ([], ledger)
  if started = [] then (started, none, ledger)
  else
    let (order, store) := ledger.store.allocateObservationOrder
    (started, some order, { ledger with store })

/-! ## After the request -/

/-- The body of `_requeue_obsolete_observations`. -/
def requeueObsoleteObservations (batch : ℕ) (order : ℤ) (jobs : List HydrationJob) :
    HydrationLedger :=
  jobs.foldl (fun ledger job =>
    if ledger.store.hydrationObservationCurrent job.key (some order) then ledger
    else ledger.requeueNotApplied batch job job.dueAt) ledger

/-- `_media_job_leased`. -/
def mediaJobLeased (job : HydrationJob) : Bool :=
  (ledger.store.job job.identity).any fun row => decide (row.LeasedBy job)

/-- `_current_jobs`. -/
def currentJobs (order : ℤ) (jobs : List HydrationJob) : List HydrationJob :=
  jobs.filter fun job =>
    (job.kind != .mediaMetadata || ledger.mediaJobLeased job) &&
      ledger.store.hydrationObservationCurrent job.key (some order)

/-- `_leased_media_jobs`: the jobs that are leased and eligible; a leased job that is not eligible
any more leaves the queue. -/
def leasedMediaJobs (eligible : HydrationJob → Bool) (jobs : List HydrationJob) :
    List HydrationJob × HydrationLedger :=
  jobs.foldl (fun (current, ledger) job =>
    if ledger.mediaJobLeased job = false then (current, ledger)
    else if eligible job then (current ++ [job], ledger)
    else (current, ledger.remove job)) ([], ledger)

/-- `_release_undispatched`, with `None` for the time that the job was due. -/
def releaseUndispatched (batch : ℕ) (jobs : List HydrationJob) (dueAt : Option ℤ) :
    HydrationLedger :=
  jobs.foldl (fun ledger job => ledger.requeueUndispatched batch job (dueAt.getD job.dueAt)) ledger

/-- `_reschedule_or_drop`, as `_finish_applied` calls it. -/
def rescheduleOrDrop (maxAttempts : ℕ) (jobs : List HydrationJob) (dueAt : ℤ)
    (outcome : HydrationOutcome) : HydrationLedger :=
  jobs.foldl (fun ledger job =>
    if maxAttempts ≤ job.attempts then ledger.markTerminal job .exhausted
    else ledger.reschedule job dueAt outcome) ledger

end HydrationLedger

/-- The failures of a request, as `_handle_batch_error` tells them apart. -/
inductive HydrationFailure where
  /-- The errors that `_handle_admission_rejection` takes. -/
  | admissionRejected
  /-- `TelegramRpcThrottled`: whether the batch runs under an attempt budget, and whether that
  budget counted a dispatch. -/
  | throttled (budgeted dispatched : Bool)
  /-- `RpcAdmissionClosedError`. -/
  | admissionClosed
  /-- `ACCESS_LOST_ERRORS`, with the dialogs whose loss the access lifecycle accepts. -/
  | accessLost (accepted : ℤ → Bool)
  /-- Any other error: whether it is a terminal one for the handler. -/
  | requestError (terminal : Bool)

/-- The result of a request, as the two handlers read it. -/
inductive HydrationResult where
  /-- A media response: what its publication writes, the messages that were accepted, whether the
  response is one at all, the messages it holds, and the transcription that
  `enqueue_transcription_for_hydrated_media` queues for a message. -/
  | media (published : List QueueWrite) (accepted : ℤ → Bool) (valid : Bool)
      (response : ℤ → Bool) (transcribable : ℤ → Option QueuedWork)
      (eligible : HydrationJob → Bool)
  /-- A transcription that is still pending. -/
  | transcriptionPending
  /-- A transcription without text or identifier. -/
  | transcriptionInvalid
  /-- A transcription, with the answer of `apply_message_transcription_if_absent`. -/
  | transcription (applied : TranscriptionOutcome)

/-- The handler that a result comes from. -/
def HydrationResult.kind : HydrationResult → HydrationKind
  | media .. => .mediaMetadata
  | transcriptionPending | transcriptionInvalid | transcription _ => .transcription

namespace HydrationLedger

variable (ledger : HydrationLedger)

/-- `_handle_batch_error`.  A throttled request refunds its jobs only under a budget that counted no
dispatch; `effectiveNow` is the clock after the request. -/
def handleBatchError (batch : ℕ) (order : ℤ) (started : List HydrationJob) (effectiveNow : ℤ) :
    HydrationFailure → HydrationLedger
  | .admissionRejected =>
    ledger.releaseUndispatched batch (ledger.currentJobs order started) none
  | .throttled budgeted dispatched =>
    if budgeted = true ∧ dispatched = false then
      ledger.releaseUndispatched batch (ledger.currentJobs order started) none
    else ledger
  | .admissionClosed =>
    ledger.releaseUndispatched batch (ledger.currentJobs order started) (some effectiveNow)
  | .accessLost accepted =>
    ((ledger.currentJobs order started).map fun job => job.key.dialogId).dedup.foldl
      (fun ledger dialogId =>
        if accepted dialogId then ledger.write (.removeActiveForDialog dialogId) else ledger) ledger
  | .requestError true =>
    (ledger.currentJobs order started).foldl
      (fun ledger job => ledger.markTerminal job .terminalError) ledger
  | .requestError false =>
    (ledger.currentJobs order started).foldl
      (fun ledger job => ledger.requeueNotApplied batch job job.dueAt) ledger

/-- `_drop_unavailable_media`. -/
def dropUnavailableMedia (batch : ℕ) (superseded : MessageKey → Bool) (job : HydrationJob) :
    HydrationLedger :=
  if superseded job.key then ledger.requeueNotApplied batch job job.dueAt
  else ledger.markTerminal job .terminalError

/-- One round of the loop of the media handler's `apply`. -/
def applyMedia (batch : ℕ) (valid : Bool) (response accepted : ℤ → Bool)
    (transcribable : ℤ → Option QueuedWork) (superseded : MessageKey → Bool)
    (job : HydrationJob) : HydrationLedger :=
  if valid = false ∨ response job.key.messageId = false then
    ledger.dropUnavailableMedia batch superseded job
  else if accepted job.key.messageId = false then ledger.requeueNotApplied batch job job.dueAt
  else
    match transcribable job.key.messageId with
    | none => ledger.remove job
    | some work => (ledger.remove job).write (.enqueue work)

/-- `_apply_batch_result` with `handler.apply` and `_finish_applied`.  A transcription job leaves the
queue whatever `apply_message_transcription_if_absent` answers. -/
def applyBatchResult (maxAttempts : ℕ) (batch : ℕ) (order : ℤ) (started : List HydrationJob)
    (retryAt : ℤ) : HydrationResult → HydrationLedger
  | .media published accepted valid response transcribable eligible =>
    let (current, ledger) := ledger.leasedMediaJobs eligible started
    let ledger := published.foldl write ledger
    let superseded := fun key => !ledger.store.hydrationObservationCurrent key (some order)
    current.foldl (fun ledger job =>
      ledger.applyMedia batch valid response accepted transcribable superseded job) ledger
  | .transcriptionPending =>
    ledger.rescheduleOrDrop maxAttempts (ledger.currentJobs order started) retryAt .telegramPending
  | .transcriptionInvalid =>
    match ledger.currentJobs order started with
    | [] => ledger
    | job :: _ => ledger.markTerminal job .terminalError
  | .transcription _ =>
    match ledger.currentJobs order started with
    | [] => ledger
    | job :: _ => ledger.remove job

end HydrationLedger

end McpTelegram
