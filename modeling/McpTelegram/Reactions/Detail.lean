import McpTelegram.Reactions.Aggregates

/-!
# Reactor detail

`reactions/detail.py`: one page of the reactors of a message is fetched at a time and committed
under a compare-and-set on the generation, the status and the offset.  What `refresh_one` does before
the fetch and what it does after it are two functions, since other writers run in between.
-/

namespace McpTelegram

/-- `GatewayFailureKind`. -/
inductive GatewayFailureKind where
  | floodWait | accessLost | transient | invalidTarget
  deriving DecidableEq

/-- The value of a kind. -/
def GatewayFailureKind.value : GatewayFailureKind → String
  | floodWait => "flood_wait"
  | accessLost => "access_lost"
  | transient => "transient"
  | invalidTarget => "invalid_target"

/-- `GatewayFailure`, as far as it is read. -/
structure GatewayFailure where
  kind : GatewayFailureKind
  retryable : Bool
  retryAfter : Option ℤ := none
  deriving DecidableEq

/-- `ReactionDetailPage`. -/
structure ReactionDetailPage where
  events : List ReactionEvent
  nextOffset : Option String
  deriving DecidableEq

/-- `ReactionDetailFetchResult`. -/
structure ReactionDetailFetchResult where
  page : Option ReactionDetailPage := none
  failure : Option GatewayFailure := none
  deriving DecidableEq

/-- `ReactionDetailPolicy`, which refuses a delay below 1. -/
structure ReactionDetailPolicy where
  unavailableRetrySeconds : ℕ+ := 600

/-- The values of `ReactionDetailResult.status`; the last stands for the failed assertion on a
result with neither a page nor a failure. -/
inductive DetailOutcome where
  | cancelled | staleWriter | ineligible | partialPages | complete | unavailable | assertion
  deriving DecidableEq

/-- `ReactionDetailResult`.  A committed revision is the pair that the source prints. -/
structure ReactionDetailResult where
  status : DetailOutcome
  fetchedPages : ℕ := 0
  nextOffset : Option String := none
  failureKind : Option String := none
  retryAfter : Option ℤ := none
  committedRevision : Option (ℕ × String) := none
  committedTerminal : Bool := false
  deriving DecidableEq

/-- `_ExpectedDetailState` for the message. -/
structure ExpectedDetailState where
  requestedGeneration : ℕ
  aggregateGeneration : Option ℕ
  status : DetailStatus
  offset : Option String
  stagedCount : ℕ
  deriving DecidableEq

/-- `matches_request`. -/
def ExpectedDetailState.matchesRequest (state : ExpectedDetailState) (generation : ℕ)
    (offset : Option String) : Bool :=
  (state.aggregateGeneration = none || state.aggregateGeneration = some generation) &&
    state.offset = offset

/-- `_positive_retry_after`. -/
def GatewayFailure.positiveRetryAfter (failure : Option GatewayFailure) : Option ℤ :=
  (failure.bind (·.retryAfter)).filter (0 < ·)

/-- `_is_terminal_failure`. -/
def GatewayFailure.isTerminalFailure (failure : Option GatewayFailure) : Bool :=
  match failure with
  | none => false
  | some failure => !failure.retryable &&
      (failure.kind = .invalidTarget || failure.kind = .accessLost)

/-- `_failure_status`. -/
def DetailStatus.failureStatus (stagedCount : ℕ) (expectedStatus : DetailStatus)
    (terminal : Bool) : DetailStatus :=
  if terminal then .unavailable
  else if stagedCount > 0 ∧ expectedStatus = .partialPages then .partialPages else .unavailable

/-- The result that shows a status. -/
def DetailStatus.outcome : DetailStatus → DetailOutcome
  | partialPages => .partialPages
  | complete => .complete
  | stale | unavailable => .unavailable

/-- `_failure_next_attempt_at`. -/
def ReactionDetailPolicy.failureNextAttemptAt (policy : ReactionDetailPolicy) (when : ℤ)
    (retryAfter : Option ℤ) (terminal : Bool) : Option ℤ :=
  if terminal then none
  else some (when + retryAfter.getD (policy.unavailableRetrySeconds : ℕ))

namespace ReactionStore

variable (store : ReactionStore)

/-- `_expected_state`. -/
def expectedState (generation : ℕ) : ExpectedDetailState :=
  { requestedGeneration := generation
    aggregateGeneration := store.status.map (·.aggregateGeneration)
    status := (store.status.map (·.status)).getD .stale
    offset := store.status.bind (·.nextOffset)
    stagedCount := (store.status.map (·.stagedCount)).getD 0 }

/-- `refresh_one` up to the fetch: what it expects to find again, or its result. -/
def beginRefresh (cancelled : Bool) (generation : ℕ) (offset : Option String) :
    Except ReactionDetailResult ExpectedDetailState :=
  if cancelled then .error { status := .cancelled }
  else if store.state.bind (·.canSeeList) = some false then
    .error { status := .unavailable, failureKind := some "visibility_unavailable" }
  else
    let state := store.expectedState generation
    if state.matchesRequest generation offset then .ok state
    else .error { status := .staleWriter }

/-- `_cas_status`. -/
def casStatus (generation : ℕ) (status : DetailStatus) (offset : Option String) : Bool :=
  match store.status with
  | none => status = .stale && offset = none && store.state.any (·.generation = generation)
  | some row => row.aggregateGeneration = generation && row.status = status &&
      row.nextOffset = offset

/-- `_ensure_status`. -/
def ensureStatus (generation : ℕ) (when : ℤ) : ReactionStore :=
  match store.status with
  | some _ => store
  | none =>
    { store with
      status := some
        { aggregateGeneration := generation, detailGeneration := 0, displayGeneration := 0
          publishedGeneration := 0, checkedAt := when, status := .stale, returnedCount := 0
          stagedCount := 0, nextOffset := none, nextAttemptAt := some when
          failureKind := none } }

/-- The guarded update of the status row; `none` when it updates no row. -/
def updateStatus (generation : ℕ) (status : DetailStatus) (offset : Option String)
    (change : DetailStatusRow → DetailStatusRow) : Option ReactionStore :=
  match store.status with
  | none => none
  | some row =>
    if row.aggregateGeneration = generation ∧ row.status = status ∧ row.nextOffset = offset then
      some { store with status := some (change row) }
    else none

/-- The staging of the events of a page. -/
def stageEvents (generation : ℕ) (when : ℤ) (stagedCount : ℕ) (events : List ReactionEvent) :
    ReactionStore :=
  { store with
    events := store.events ++ events.mapIdx fun index event =>
      { event, fetchedAt := when, detailGeneration := generation
        pageOrdinal := stagedCount + index, displayGeneration := 0 } }

/-- The publication of a generation: its rows are displayed, displayed rows of others go. -/
def publishEvents (generation : ℕ) : ReactionStore :=
  { store with
    events := (store.events.map fun row =>
        if row.detailGeneration = generation then { row with displayGeneration := generation }
        else row).filter
      fun row => ¬(row.displayGeneration > 0 ∧ row.detailGeneration ≠ generation) }

/-- `_persist_page_locked`. -/
def persistPageLocked (eligible : Bool) (generation : ℕ) (expectedStatus : DetailStatus)
    (expectedOffset : Option String) (events : List ReactionEvent) (nextOffset : Option String)
    (when : ℤ) : ReactionDetailResult × ReactionStore :=
  if !eligible then ({ status := .ineligible }, store)
  else if !store.casStatus generation expectedStatus expectedOffset then
    ({ status := .staleWriter }, store)
  else
    let ensured := store.ensureStatus generation when
    let stagedCount := (ensured.status.map (·.stagedCount)).getD 0
    let staged := ensured.stageEvents generation when stagedCount events
    let total := stagedCount + events.length
    match nextOffset with
    | none =>
      let settled := (staged.publishEvents generation).updateStatus generation expectedStatus
        expectedOffset fun row =>
          { row with
            detailGeneration := generation, displayGeneration := generation
            publishedGeneration := generation, checkedAt := when, status := .complete
            returnedCount := total, stagedCount := 0, nextOffset := none, nextAttemptAt := none
            failureKind := none }
      match settled with
      | none => ({ status := .staleWriter }, store)
      | some settled =>
        ({ status := .complete, fetchedPages := 1
           committedRevision := some (generation, "complete"), committedTerminal := true },
          settled)
    | some next =>
      let settled := staged.updateStatus generation expectedStatus expectedOffset fun row =>
        { row with
          detailGeneration := generation, checkedAt := when, status := .partialPages
          returnedCount := total, stagedCount := total, nextOffset := some next
          nextAttemptAt := some when, failureKind := none }
      match settled with
      | none => ({ status := .staleWriter }, store)
      | some settled =>
        ({ status := .partialPages, fetchedPages := 1, nextOffset := some next
           committedRevision := some (generation, next) }, settled)

/-- `_persist_failure_locked`. -/
def persistFailureLocked (policy : ReactionDetailPolicy) (eligible : Bool) (generation : ℕ)
    (expectedStatus : DetailStatus) (expectedOffset : Option String) (stagedCount : ℕ)
    (failure : Option GatewayFailure) (when : ℤ) (failureKind : Option String) :
    ReactionDetailResult × ReactionStore :=
  let kind := failureKind.getD ((failure.map (·.kind.value)).getD "unavailable")
  let retryAfter := GatewayFailure.positiveRetryAfter failure
  let terminal := GatewayFailure.isTerminalFailure failure
  let status := DetailStatus.failureStatus stagedCount expectedStatus terminal
  let nextAttemptAt := policy.failureNextAttemptAt when retryAfter terminal
  if !eligible then ({ status := .ineligible }, store)
  else if !store.casStatus generation expectedStatus expectedOffset then
    ({ status := .staleWriter }, store)
  else
    let cleared : ReactionStore :=
      if terminal then
        { store with
          events := store.events.filter fun row =>
            ¬(row.detailGeneration = generation ∧ row.displayGeneration = 0) }
      else store
    let settled := (cleared.ensureStatus generation when).updateStatus generation expectedStatus
      expectedOffset fun row =>
        { row with
          checkedAt := when, status := status, nextAttemptAt := nextAttemptAt
          nextOffset := if terminal then none else expectedOffset
          stagedCount := if terminal then 0 else stagedCount
          failureKind := some kind }
    match settled with
    | none => ({ status := .staleWriter }, store)
    | some settled =>
      ({ status := status.outcome, nextOffset := if terminal then none else expectedOffset
         failureKind := some kind, retryAfter := retryAfter }, settled)

/-- `_persist_fetch_result`. -/
def persistFetchResult (policy : ReactionDetailPolicy) (eligible : Bool)
    (state : ExpectedDetailState) (fetched : ReactionDetailFetchResult) (when : ℤ) :
    ReactionDetailResult × ReactionStore :=
  match fetched.failure, fetched.page with
  | some failure, _ =>
    store.persistFailureLocked policy eligible state.requestedGeneration state.status state.offset
      state.stagedCount (some failure) when none
  | none, none => ({ status := .assertion }, store)
  | none, some page =>
    if page.nextOffset ≠ none ∧ page.nextOffset = state.offset then
      store.persistFailureLocked policy eligible state.requestedGeneration state.status
        state.offset state.stagedCount none when (some "non_advancing_offset")
    else
      store.persistPageLocked eligible state.requestedGeneration state.status state.offset
        page.events page.nextOffset when

/-- `refresh_one` after the fetch. -/
def settleRefresh (policy : ReactionDetailPolicy) (cancelled eligible : Bool)
    (state : ExpectedDetailState) (fetched : ReactionDetailFetchResult) (when : ℤ) :
    ReactionDetailResult × ReactionStore :=
  if cancelled then ({ status := .cancelled }, store)
  else store.persistFetchResult policy eligible state fetched when

end ReactionStore

end McpTelegram
