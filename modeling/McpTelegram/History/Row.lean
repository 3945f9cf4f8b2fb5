import McpTelegram.Foundations.Run

/-!
# The history of one dialog

The columns of a dialog's row in `synced_dialogs` that the full-history backfill and the forward gap
fill read and write, the enrollment of `full_history_enrollment`, and the operations on them in
`history_enrollment.py`, `access_lifecycle`, `own_only.py`, `sync_worker.py` and `delta_sync.py`.
Each definition is one transaction.
-/

namespace McpTelegram

open Foundations

/-! ## The row -/

/-- `SyncStatus`. -/
inductive HistoryStatus where
  | notSynced | syncing | synced | ownOnly | fragment | accessLost
  deriving DecidableEq

/-- `synced_dialogs.topic_attribution_state`; `pending` is its value `partial`. -/
inductive TopicAttribution where
  | unknown | pending | complete
  deriving DecidableEq

/-- The row of a dialog with the defaults of its table. -/
structure HistoryRow where
  status : HistoryStatus
  syncProgress : Option ℤ := some 0
  totalMessages : Option ℕ := none
  historyDepthComplete : Bool := false
  lastSyncedAt : Option ℤ := none
  lastDeltaCheckedAt : Option ℤ := none
  topicAttributionVersion : ℕ := 0
  topicAttributionState : TopicAttribution := .unknown
  deltaMessageId : Option ℤ := none
  deltaRefreshRequestedAt : Option ℤ := none
  deltaRefreshGeneration : ℕ := 0
  deriving DecidableEq

/-- What is stored about the history of the dialog. -/
structure HistoryTables where
  row : Option HistoryRow := none
  /-- `full_history_enrollment.enabled`. -/
  intent : Option Bool := none
  /-- The number under `delta_completion_generation` in `daemon_state`. -/
  completionGeneration : ℕ := 0
  /-- The messages that `insert_messages_with_fts` was given, in their order. -/
  inserted : List ℤ := []
  deriving DecidableEq

namespace HistoryRow

/-- `COALESCE(sync_progress,0)`. -/
def progress (row : HistoryRow) : ℤ := row.syncProgress.getD 0

/-- `COALESCE(delta_message_id,0)`. -/
def cursor (row : HistoryRow) : ℤ := row.deltaMessageId.getD 0

/-- `request_delta_refresh`. -/
def requestDeltaRefresh (row : HistoryRow) (now : ℤ) : HistoryRow :=
  { row with
    deltaRefreshRequestedAt := some now
    deltaRefreshGeneration := row.deltaRefreshGeneration + 1 }

end HistoryRow

namespace HistoryTables

/-- `full_history_enabled`. -/
def fullHistoryEnabled (tables : HistoryTables) : Bool := tables.intent = some true

/-- The cursor of the backfill; a dialog without a row has none. -/
def progress (tables : HistoryTables) : ℤ := tables.row.elim 0 HistoryRow.progress

/-- A change of the row, if there is one. -/
def updateRow (tables : HistoryTables) (change : HistoryRow → HistoryRow) : HistoryTables :=
  { tables with row := tables.row.map change }

/-! ## Enrollment -/

/-- `TOPIC_ATTRIBUTION_EXTRACTOR_VERSION`. -/
def topicAttributionExtractorVersion : ℕ := 2

/-- What `enable_history` does to the row. -/
def enableRow (now : ℤ) : Option HistoryRow → Option HistoryRow
  | none => some { status := .notSynced }
  | some row =>
    some <|
      match row.status with
      | .synced =>
        if row.topicAttributionVersion ≠ topicAttributionExtractorVersion ∨
            row.topicAttributionState ≠ .complete then
          { row with status := .syncing, syncProgress := some 0 }
        else row.requestDeltaRefresh now
      | .notSynced | .ownOnly | .fragment => { row with status := .syncing }
      | .syncing | .accessLost => row

/-- `enable_history`. -/
def enableHistory (tables : HistoryTables) (now : ℤ) : HistoryTables :=
  { tables with intent := some true, row := enableRow now tables.row }

/-- `disable_history`. -/
def disableHistory (tables : HistoryTables) : HistoryTables :=
  let disabled := { tables with intent := some false }
  disabled.updateRow fun row =>
    { row with
      status := if row.status = .syncing then .notSynced else row.status
      deltaRefreshRequestedAt := none }

/-- `ensure_automatic_dm_enrollment`. -/
def ensureAutomaticDmEnrollment (tables : HistoryTables) (now : ℤ) : HistoryTables :=
  match tables.intent with
  | some _ => tables
  | none =>
    (tables.enableHistory now).updateRow fun row =>
      { row with status := if row.status = .notSynced then .syncing else row.status }

/-- `record_automatic_group_decision`. -/
def recordAutomaticGroupDecision (tables : HistoryTables) (enabled : Bool)
    (totalMessages : Option ℕ) : HistoryTables :=
  match tables.intent with
  | some _ => tables
  | none =>
    let decided := { tables with intent := some enabled }
    if enabled then { decided with row := some (tables.row.getD { status := .syncing }) }
    else
      match totalMessages with
      | none => decided
      | some total =>
        { decided with
          row :=
            match tables.row with
            | none => some { status := .notSynced, totalMessages := some total }
            | some row => some { row with totalMessages := some total } }

/-- The `INSERT OR IGNORE` of `own_only.py`. -/
def enrollOwnOnly (tables : HistoryTables) : HistoryTables :=
  { tables with row := some (tables.row.getD { status := .ownOnly }) }

/-! ## Access -/

/-- `_mark_access_lost_state`. -/
def markAccessLost (tables : HistoryTables) (refreshGeneration : Option ℕ) : HistoryTables :=
  { tables with
    row :=
      match tables.row with
      | none => some { status := .accessLost }
      | some row =>
        some
          { row with
            status := .accessLost
            deltaRefreshRequestedAt :=
              if refreshGeneration.all (· = row.deltaRefreshGeneration) then none
              else row.deltaRefreshRequestedAt } }

/-- `restore_access_after_revalidation` after its fence. -/
def restoreAccess (tables : HistoryTables) (totalMessages : Option ℕ) : HistoryTables :=
  tables.updateRow fun row =>
    { row with
      status := if tables.fullHistoryEnabled then .syncing else .notSynced
      deltaRefreshRequestedAt := none
      totalMessages := if totalMessages.isSome then totalMessages else row.totalMessages }

end HistoryTables

/-! ## Pages of the backfill -/

/-- The messages of the dialog at one moment; Telegram numbers them from one. -/
structure DialogMessages where
  ids : List ℤ
  ids_pos : ∀ id ∈ ids, 0 < id

/-- A fetched page of the backfill with the cursor that it was requested with. -/
structure BackfillPage where
  before : ℤ
  ids : List ℤ
  /-- `next_before_message_id`. -/
  next : Option ℤ
  totalMessages : Option ℕ
  deriving DecidableEq

/-- `MESSAGE_HISTORY_PAGE_SIZE`. -/
def messageHistoryPageSize : ℕ := 100

/-- What `fetch_page(before)` answers: the newest messages before the cursor, and the least of them
as the next cursor. -/
def DialogMessages.pageBefore (messages : DialogMessages) (before : ℤ) (total : Option ℕ) :
    BackfillPage :=
  let older := messages.ids.filter fun id => before = 0 ∨ id < before
  let page := (older.insertionSort (· ≥ ·)).take messageHistoryPageSize
  { before
    ids := page
    next := page.getLast?
    totalMessages := if before = 0 then total else none }

namespace HistoryTables

/-- `_begin_topic_attribution_pass`. -/
def beginTopicAttributionPass (before : ℤ) (row : HistoryRow) : HistoryRow :=
  if before ≠ 0 then row
  else
    { row with
      topicAttributionVersion := topicAttributionExtractorVersion
      topicAttributionState := .pending }

/-- `_complete_topic_attribution_pass`. -/
def completeTopicAttributionPass (row : HistoryRow) : HistoryRow :=
  if row.topicAttributionVersion = topicAttributionExtractorVersion ∧
      row.topicAttributionState = .pending then
    { row with topicAttributionState := .complete }
  else row

/-- The conditions that `_UPDATE_PROGRESS_SQL` and `_UPDATE_PROGRESS_DONE_SQL` share. -/
def acceptsPage (tables : HistoryTables) (before : ℤ) (row : HistoryRow) : Bool :=
  (row.status = .notSynced || row.status = .syncing) && row.progress = before &&
    tables.fullHistoryEnabled

/-- `_store_terminal_page_locked`; `none` for a page that is not accepted. -/
def storeTerminalPage (tables : HistoryTables) (page : BackfillPage) (now : ℤ) :
    Option HistoryTables :=
  match tables.row with
  | none => none
  | some row =>
    if tables.acceptsPage page.before row then
      some
        { tables with
          row := some <| completeTopicAttributionPass <| beginTopicAttributionPass page.before
            { row with
              syncProgress := some page.before
              status := .synced
              totalMessages := page.totalMessages.or row.totalMessages
              lastSyncedAt := some now
              historyDepthComplete := true } }
    else none

/-- `_store_continuation_page_locked`; `none` for a page that is not accepted. -/
def storeContinuationPage (tables : HistoryTables) (page : BackfillPage) (newProgress : ℤ) :
    Option HistoryTables :=
  match tables.row with
  | none => none
  | some row =>
    if tables.acceptsPage page.before row then
      some
        { tables with
          row := some <| beginTopicAttributionPass page.before
            { row with
              syncProgress := some newProgress
              status := .syncing
              totalMessages := page.totalMessages.or row.totalMessages }
          inserted := tables.inserted ++ page.ids }
    else none

/-- The baseline that the first page of a pass gives to the gap fill. -/
def seedDeltaBaseline (page : BackfillPage) (tables : HistoryTables) : HistoryTables :=
  if page.before = 0 then
    tables.updateRow fun row =>
      { row with deltaMessageId := row.deltaMessageId.or (some (page.ids.max?.getD 0)) }
  else tables

/-- `_store_batch_page_locked`; `none` for a page that is not accepted. -/
def storeBatchPage (tables : HistoryTables) (page : BackfillPage) (now : ℤ) :
    Option HistoryTables :=
  match page.next with
  | none => (tables.storeTerminalPage page now).map (seedDeltaBaseline page)
  | some newProgress => (tables.storeContinuationPage page newProgress).map (seedDeltaBaseline page)

/-- The row of a partly covered dialog that joins the backfill. -/
def restartPartialCoverage (tables : HistoryTables) : HistoryTables :=
  tables.updateRow fun row =>
    if row.status = .ownOnly ∨ row.status = .fragment then
      { row with status := .syncing, syncProgress := some 0 }
    else row

/-- `_finalize_automatic_group_page`: the tables, and whether the page was accepted. -/
def finalizeAutomaticGroupPage (tables : HistoryTables) (page : BackfillPage) (eligible : Bool)
    (maxMessages : ℕ) (now : ℤ) : HistoryTables × Bool :=
  let store (joined : HistoryTables) : HistoryTables × Bool :=
    match joined.storeBatchPage page now with
    | some stored => (stored, true)
    | none => (joined, false)
  match tables.intent with
  | some enabled => if enabled then store tables.restartPartialCoverage else (tables, false)
  | none =>
    if eligible && tables.row.all (fun row => row.status ≠ .accessLost && row.status ≠ .synced) then
      let accepted := page.totalMessages.any (· ≤ maxMessages)
      let decided := tables.recordAutomaticGroupDecision accepted page.totalMessages
      if accepted then store decided.restartPartialCoverage else (decided, false)
    else (tables, false)

end HistoryTables

/-! ## Slices of the gap fill -/

/-- A fetched page of the gap fill with what its slice read before. -/
structure GapPage where
  cursor : ℤ
  generation : ℕ
  /-- The completion generation of the selected revision; a recovery has none. -/
  completionGeneration : Option ℕ
  rows : List ℤ
  complete : Bool
  deriving DecidableEq

/-- `_DELTA_SLICE_MESSAGE_LIMIT`. -/
def deltaSliceMessageLimit : ℕ := 100

namespace DialogMessages

/-- The messages behind a cursor in their order. -/
def after (messages : DialogMessages) (cursor : ℤ) : List ℤ :=
  (messages.ids.filter (cursor < ·)).insertionSort (· ≤ ·)

/-- What `fetch_page(after)` answers: a front part of the messages behind the cursor, complete only
if that is all of them. -/
def pageAfter (messages : DialogMessages) (cursor : ℤ) (length : ℕ) (exhausted : Bool) :
    List ℤ × Bool :=
  let rows := (messages.after cursor).take (min length messageHistoryPageSize)
  (rows, exhausted && rows.length = (messages.after cursor).length)

end DialogMessages

namespace HistoryTables

/-- `_delta_selection_is_current`. -/
def deltaSelectionIsCurrent (tables : HistoryTables) (page : GapPage) : Bool :=
  tables.row.any (fun row =>
      row.cursor = page.cursor && row.deltaRefreshGeneration = page.generation) &&
    page.completionGeneration.all (· = tables.completionGeneration)

/-- `_stamp_delta_checkpoint`. -/
def stampDeltaCheckpoint (tables : HistoryTables) (checkedAt : ℤ) (generation : ℕ) :
    HistoryTables :=
  match tables.row with
  | none => tables
  | some row =>
    if tables.fullHistoryEnabled then
      { tables with
        row := some
          { row with
            lastSyncedAt := some checkedAt
            lastDeltaCheckedAt := some checkedAt
            deltaRefreshRequestedAt :=
              if row.deltaRefreshGeneration = generation then none else row.deltaRefreshRequestedAt }
        completionGeneration := tables.completionGeneration + 1 }
    else tables

/-- `_persist_delta_continuation`. -/
def persistDeltaContinuation (tables : HistoryTables) (continuationRequired : Bool) (now : ℤ)
    (generation : ℕ) : HistoryTables :=
  if continuationRequired then
    tables.updateRow fun row =>
      if row.deltaRefreshRequestedAt = none then row.requestDeltaRefresh now else row
  else tables.stampDeltaCheckpoint now generation

/-- `continuation_required` of `_commit_delta_slice`. -/
def continuationRequired (page : GapPage) : Bool :=
  !page.complete || page.rows.length = deltaSliceMessageLimit

/-- `_commit_delta_transaction`; `none` for a slice that is stale. -/
def commitDelta (tables : HistoryTables) (page : GapPage) (recoveryCurrent : Bool) (now : ℤ) :
    Option HistoryTables :=
  if tables.deltaSelectionIsCurrent page = false then none
  else if tables.fullHistoryEnabled = false then none
  else if page.completionGeneration = none ∧ recoveryCurrent = false then none
  else
    let inserted := { tables with inserted := tables.inserted ++ page.rows }
    let moved := inserted.updateRow fun row =>
      { row with deltaMessageId := some (max row.cursor (page.rows.max?.getD 0)) }
    some (moved.persistDeltaContinuation (continuationRequired page) now page.generation)

end HistoryTables

end McpTelegram
