import McpTelegram.Drafts.Contracts
import McpTelegram.Foundations.Dictionary
import McpTelegram.Foundations.Table
import McpTelegram.Messages.Media

/-!
# Draft rows

The tables of the draft projection, and the functions of `drafts/sqlite_projection.py` that turn an
observation into the columns of a row and compare rows.  The JSON columns are kept as the values
that `json.dumps` is applied to: equal values are equal columns.
-/

namespace McpTelegram

open Foundations

/-- `draft_current.state`. -/
inductive DraftRowState where
  | present | empty | cleared
  deriving DecidableEq

/-- `draft_current.source_kind`. -/
inductive DraftSourceKind where
  | realtimePresent | realtimeEmpty | snapshotPresent | snapshotEmpty | snapshotAbsence
  deriving DecidableEq

/-- The object in `reply_to_json`. -/
structure DraftReplyTo where
  monoforum : Option DraftReference
  quote : Option DraftReference
  reply : Option DraftReference
  story : Option DraftReference
  deriving DecidableEq

/-- The columns that `_row_matches` compares. -/
structure DraftContent where
  state : DraftRowState
  text : Option String := none
  entities : Option (List DraftEntity) := none
  replyTo : Option DraftReplyTo := none
  media : Option DraftReference := none
  suggestedPost : Option DraftReference := none
  richMessage : Option DraftReference := none
  effectId : Option ℤ := none
  noWebpage : Option Bool := none
  invertMedia : Option Bool := none
  compositionComplete : Bool := true
  normalizationVersion : ℕ := 1
  deriving DecidableEq

/-- `_CURRENT_VALUE_COLUMNS`. -/
structure DraftValues where
  content : DraftContent
  sourceKind : DraftSourceKind
  sourceObservedAt : ℕ
  sourceOrderAt : Option ℕ
  observationStartedAt : ℕ
  observationCompletedAt : ℕ
  restorePayload : Option (List UInt8) := none
  semanticFingerprint : Option String := none
  restoreReason : Option String := none
  deriving DecidableEq

/-- A row of `draft_current`. -/
structure DraftRow where
  values : DraftValues
  projectionRevision : ℕ
  deriving DecidableEq

/-- The row of `draft_projection_runtime`. -/
structure DraftRuntime where
  accountId : Option ℤ := none
  projectionRevision : ℕ := 0
  recoveryDueAt : Option ℕ := none
  recoveryClaimedAt : Option ℕ := none
  recoveryFailureCount : ℕ := 0
  deriving DecidableEq

/-- A row of `draft_sync_state`. -/
structure DraftSyncState where
  status : DraftSyncStatus
  coverageStatus : DraftCoverageStatus
  observationCompletedAt : Option ℕ := none
  reason : Option String := none
  sourceOrderFloor : Option ℕ := none
  deriving DecidableEq

/-- A row of `draft_versions`. -/
structure DraftVersion where
  historyId : ℕ
  scope : DraftScope
  sourceRevision : ℕ
  state : DraftRowState
  text : Option String
  restorePayload : Option (List UInt8)
  semanticFingerprint : Option String
  restoreReason : Option String
  sourceObservedAt : ℕ
  sourceOrderAt : Option ℕ
  archivedAt : ℕ
  deriving DecidableEq

/-- A row of `draft_operation_receipts`, without the time of its creation.  The result is the object
that `json.loads` reads from the stored text. -/
structure DraftReceipt where
  scope : DraftScope
  operationKey : String
  requestFingerprint : String
  outcome : String
  backupHistoryId : Option ℕ
  result : List (String × Json)
  updatedAt : ℕ

/-- The draft tables.  The rows of `draft_versions` are in the order of their ids. -/
structure DraftStore where
  runtime : Option DraftRuntime := none
  syncState : Table ℤ DraftSyncState := fun _ => none
  uncertainty : Dictionary DraftScope ℕ := ∅
  current : Dictionary DraftScope DraftRow := ∅
  versions : List DraftVersion := []
  nextHistoryId : ℕ := 1
  receipts : Dictionary (ℤ × String) DraftReceipt := ∅

/-- What the projection is given: the retry schedule, which rows the size checks of the table
accept, SHA-256 in hexadecimal, and the size of an encoded result. -/
structure DraftEnv where
  retryDelaysSeconds : List ℕ := [1, 2, 4, 8, 16, 32, 60]
  fits : DraftValues → Bool := fun _ => true
  sha256Hex : String → String := id
  encodedSize : List (String × Json) → ℕ := fun _ => 0

/-- What a call reads from outside the draft tables: the clock and the lost peers. -/
structure DraftReads where
  now : ℕ
  accessLost : ℤ → Bool := fun _ => false

/-! ## Rows of observations -/

/-- `_source_order`. -/
def sourceOrder (observation : DraftObservation) (override : Option ℤ) :
    Except DraftError (Option ℕ) :=
  match override.or observation.telegramSourceOrderAt with
  | none => .ok none
  | some value => (asUnix value).map some

/-- `_source_kind`. -/
def sourceKind (observation : DraftObservation) : DraftSourceKind :=
  match observation.source, observation.disposition with
  | .realtime, .present => .realtimePresent
  | .realtime, .tombstone => .realtimeEmpty
  | .snapshot, .present => .snapshotPresent
  | .snapshot, .tombstone => .snapshotEmpty

/-- The content columns of `_present_row`. -/
def presentContent (composition : DraftComposition) : DraftContent :=
  { state := .present
    text := some composition.text
    entities := some composition.entities
    replyTo := some
      { monoforum := composition.monoforum, quote := composition.quote
        reply := composition.reply, story := composition.story }
    media := composition.media
    suggestedPost := composition.suggestedPost
    richMessage := composition.rich
    effectId := composition.effectId
    noWebpage := composition.noWebpage
    invertMedia := composition.invertMedia
    compositionComplete := composition.completeness = .complete }

/-- The content columns of `_row_values`. -/
def rowContent (observation : DraftObservation) : Except DraftError DraftContent :=
  match observation.disposition, observation.composition with
  | .tombstone, _ => .ok { state := .empty }
  | .present, some composition => .ok (presentContent composition)
  | .present, none => .error (.value "present draft observation is missing its composition")

/-- `_row_values`, with `_snapshot_values`. -/
def rowValues (observation : DraftObservation) (kind : DraftSourceKind)
    (completedAt : Option ℕ) (sourceOrderOverride : Option ℤ) : Except DraftError DraftValues := do
  let observedAt ← asUnix observation.observedAt
  let content ← rowContent observation
  let sourceOrderAt ← sourceOrder observation sourceOrderOverride
  return {
    content := content
    sourceKind := kind
    sourceObservedAt := observedAt
    sourceOrderAt := sourceOrderAt
    observationStartedAt := observedAt
    observationCompletedAt := completedAt.getD observedAt
    restorePayload := observation.restoreSnapshot.map (·.payload)
    semanticFingerprint := observation.restoreSnapshot.map (·.semanticFingerprint)
    restoreReason := observation.restoreSnapshot.bind (·.restoreReason) }

/-- `_cleared_row`. -/
def clearedRow (observedAt : ℕ) (sourceOrderAt : Option ℕ) : DraftValues :=
  { content := { state := .cleared }
    sourceKind := .snapshotAbsence
    sourceObservedAt := observedAt
    sourceOrderAt := sourceOrderAt
    observationStartedAt := observedAt
    observationCompletedAt := observedAt }

/-- `_row_matches`. -/
def rowMatches (existing candidate : DraftValues) : Bool :=
  if existing.content.state = .present ∧ candidate.content.state = .present ∧
      existing.semanticFingerprint ≠ none ∧
      existing.semanticFingerprint ≠ candidate.semanticFingerprint then false
  else existing.content = candidate.content

/-- `_newer_than`. -/
def newerThan (existing : Option DraftValues) (candidate : DraftValues) : Bool :=
  match existing with
  | none => true
  | some existing =>
    match existing.sourceOrderAt, candidate.sourceOrderAt with
    | some old, some new => decide (old ≤ new)
    | _, _ => true

/-- `_authoritative_order`. -/
def authoritativeOrder (observation : DraftObservation) (snapshotOrder : ℤ) :
    Except DraftError ℤ :=
  match observation.telegramSourceOrderAt with
  | none => .ok snapshotOrder
  | some rowOrder => do
    if (← asUnix rowOrder) < (← asUnix snapshotOrder) then return snapshotOrder
    return rowOrder

/-- The loop of `_deduplicate_snapshot`, with the observations that are kept so far. -/
def deduplicate (kept : List DraftObservation) :
    List DraftObservation → Except DraftError (Option (List DraftObservation))
  | [] => .ok (some kept)
  | observation :: rest =>
    match kept.find? (·.scope = observation.scope) with
    | none => deduplicate (kept ++ [observation]) rest
    | some existing => do
      let old ← rowValues existing (sourceKind existing) none none
      let new ← rowValues observation (sourceKind observation) none none
      if rowMatches old new then deduplicate kept rest else return none

/-- `_deduplicate_snapshot`. -/
def deduplicateSnapshot (observations : List DraftObservation) :
    Except DraftError (Option (List DraftObservation)) :=
  deduplicate [] observations

/-- `_validate_snapshot_inputs`. -/
def validateSnapshotInputs (observations : List DraftObservation) (coverage : SnapshotCoverage) :
    Except DraftError Unit :=
  if observations.all fun observation =>
      observation.scope.accountId = coverage.accountId && observation.source = .snapshot then .ok ()
  else .error (.value
    "snapshot observations must belong to the covered account and snapshot source")

end McpTelegram
