import Mathlib.Data.String.Basic
import McpTelegram.Messages.Contracts

/-!
# Reactions of a message

`reactions/contracts.py` and the rows that the reaction persistence keeps for one message.  Every
statement of the source names the message it is about, so the tables are kept for one message:
its aggregate counters, the state of its aggregate, the status of its reactor detail, and the
individual reactions in the order of their `event_id`.
-/

namespace McpTelegram

/-- The value of a source. -/
def ReactionAggregateSource.value : ReactionAggregateSource → String
  | legacy => "legacy"
  | background => "background"
  | history => "history"
  | delta => "delta"
  | realtimeMessage => "realtime_message"
  | messageEdit => "message_edit"
  | rawUpdate => "raw_update"

/-- `ReactionObservationBoundary`.  The tables refuse a sequence below 1. -/
structure ReactionObservationBoundary where
  observedAt : ℤ
  sourceRank : ℤ
  sequence : ℕ+
  source : String
  deriving DecidableEq

namespace ReactionObservationBoundary

/-- The fields of a boundary in the order in which they are compared. -/
def fields (boundary : ReactionObservationBoundary) : ℤ ×ₗ ℤ ×ₗ ℕ+ ×ₗ String :=
  toLex (boundary.observedAt, toLex (boundary.sourceRank, toLex (boundary.sequence,
    boundary.source)))

theorem fields_injective : Function.Injective fields := by
  rintro ⟨observedAt, sourceRank, sequence, source⟩ ⟨_, _, _, _⟩ h
  simpa [fields] using h

/-- `order=True`: boundaries are compared field by field. -/
instance : LinearOrder ReactionObservationBoundary := LinearOrder.lift' fields fields_injective

end ReactionObservationBoundary

/-- `ReactionAggregate`. -/
structure ReactionAggregate where
  emoji : String
  count : ℤ
  deriving DecidableEq

/-- `ReactionEvent`. -/
structure ReactionEvent where
  reactorId : Option ℤ
  emoji : String
  reactedAt : Option ℤ
  deriving DecidableEq

/-- The values of `message_reaction_event_status.status`. -/
inductive DetailStatus where
  | stale | partialPages | complete | unavailable
  deriving DecidableEq

/-- The row of `message_reaction_aggregate_state`. -/
structure AggregateState where
  generation : ℕ
  boundary : ReactionObservationBoundary
  aggregateRowCount : ℕ
  canSeeList : Option Bool
  deriving DecidableEq

/-- The row of `message_reaction_event_status`. -/
structure DetailStatusRow where
  aggregateGeneration : ℕ
  detailGeneration : ℕ
  displayGeneration : ℕ
  publishedGeneration : ℕ
  checkedAt : ℤ
  status : DetailStatus
  returnedCount : ℕ
  stagedCount : ℕ
  nextOffset : Option String
  nextAttemptAt : Option ℤ
  failureKind : Option String
  deriving DecidableEq

/-- A row of `message_reaction_events`. -/
structure ReactionEventRow where
  event : ReactionEvent
  fetchedAt : ℤ
  detailGeneration : ℕ
  pageOrdinal : ℕ
  displayGeneration : ℕ
  deriving DecidableEq

/-- What is stored about the reactions of one message; `nextSequence` is the counter that all
messages share. -/
structure ReactionStore where
  reactions : List ReactionAggregate := []
  state : Option AggregateState := none
  status : Option DetailStatusRow := none
  events : List ReactionEventRow := []
  nextSequence : ℕ := 0
  deriving DecidableEq

/-- The arguments of `apply_aggregate_observation`, and the clock that it reads. -/
structure AggregateObservation where
  aggregates : List ReactionAggregate
  source : ReactionAggregateSource
  observedAt : Option ℤ
  observationSequence : Option ℕ+
  canSeeList : Option Bool := none
  now : ℤ := 0

end McpTelegram
