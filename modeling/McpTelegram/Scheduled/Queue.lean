import McpTelegram.Foundations.SqlCondition
import McpTelegram.Foundations.KeysetPaging
import McpTelegram.Navigation.Tokens
import McpTelegram.Scheduled.Store
import Mathlib.Data.Prod.Lex
import Mathlib.Order.WithBot

/-!
# The scheduled queue, page by page

`build_scheduled_global_list_query` of `reading/scheduled_projection.py` and `_list_scheduled_queue`
of `reading/service.py`.  The `WHERE` clause is the list of its tokens, joined and sliced as the
source does with its strings.  A navigation string is read back as the token that it was made from,
so it is that token here.
-/

namespace McpTelegram

open Foundations

/-- A selected row of `scheduled_messages` under its primary key. -/
abbrev QueueRow := Σ _ : ℤ × ℤ, ScheduledRow

namespace QueueRow

variable (row : QueueRow)

/-- `dialog_id`. -/
def dialogId : ℤ := row.1.1

/-- `message_id`. -/
def messageId : ℤ := row.1.2

/-- `scheduled_at`. -/
def scheduledAt : Option ℤ := row.2.body.bind ScheduledBody.scheduledAt

/-- `sender_id`. -/
def senderId : Option ℤ := row.2.body.bind ScheduledBody.senderId

/-- `sender_first_name`. -/
def senderFirstName : Option String := row.2.body.bind ScheduledBody.senderFirstName

/-- `forum_topic_id`. -/
def forumTopicId : Option ℤ := row.2.body.bind ScheduledBody.forumTopicId

/-- `scheduled_at IS NOT NULL`. -/
def dated : ℤ := if row.scheduledAt.isSome then 1 else 0

/-- `scheduled_at` as a sort key: a null comes first. -/
def timeKey : WithBot ℤ := row.scheduledAt

/-- The columns of the `ORDER BY` clause. -/
def sortKey : ℤ ×ₗ WithBot ℤ ×ₗ ℤ ×ₗ ℤ :=
  toLex (row.dated, toLex (row.timeKey, toLex (row.dialogId, row.messageId)))

end QueueRow

/-! ## The query -/

/-- The expressions that the query compares. -/
inductive QueueColumn where
  | dated | scheduledAt | dialogId | messageId | senderId | forumTopicId
  deriving DecidableEq

/-- The comparisons of the query. -/
inductive QueueComparison where
  | eq | gt | lt | ge
  deriving DecidableEq

/-- A comparison of the `WHERE` clause with its bound parameter. -/
inductive QueueTest where
  /-- `sm.message_state IN ('scheduled', 'unknown_missing')`. -/
  | pending
  /-- `sm.sender_first_name LIKE :sender_name_pattern ESCAPE '\' COLLATE NOCASE`. -/
  | named (pattern : String)
  | compare (column : QueueColumn) (comparison : QueueComparison) (parameter : Option ℤ)
  deriving DecidableEq

/-- The value of an expression. -/
def QueueColumn.read (row : QueueRow) : QueueColumn → Option ℤ
  | dated => some row.dated
  | scheduledAt => row.scheduledAt
  | dialogId => some row.dialogId
  | messageId => some row.messageId
  | senderId => row.senderId
  | forumTopicId => row.forumTopicId

/-- A comparison of two integers. -/
def QueueComparison.holds : QueueComparison → ℤ → ℤ → Bool
  | eq, a, b => a = b
  | gt, a, b => b < a
  | lt, a, b => a < b
  | ge, a, b => b ≤ a

/-- The value of a test; `like` is the operator of the database, with the pattern first. -/
def QueueTest.value (like : String → String → Bool) (row : QueueRow) : QueueTest → Option Bool
  | pending => some (row.2.messageState = .scheduled ∨ row.2.messageState = .unknownMissing)
  | named pattern => row.senderFirstName.map (like pattern)
  | compare column comparison parameter =>
    (column.read row).bind fun a => parameter.map fun b => comparison.holds a b

/-- `_escape_like`. -/
def escapeLike (value : String) : String :=
  String.ofList (value.toList.flatMap fun c =>
    if c = '\\' ∨ c = '%' ∨ c = '_' then ['\\', c] else [c])

/-- The filters of a request, and its limit. -/
structure QueueRequest where
  limit : ℕ
  senderId : Option ℤ := none
  senderName : Option String := none
  topicId : Option ℤ := none
  sinceUtc : Option ℤ := none
  untilUtc : Option ℤ := none

/-- One comparison of a column. -/
def columnTest (column : QueueColumn) (comparison : QueueComparison) (parameter : Option ℤ) :
    SqlToken QueueTest :=
  .atom (.compare column comparison parameter)

/-- `_scheduled_global_anchor_clause`. -/
def scheduledGlobalAnchorClause (direction : HistoryDirection) (anchorBucket : ℤ)
    (anchorScheduledAt : Option ℤ) (anchorDialogId anchorMessageId : ℤ) :
    List (SqlToken QueueTest) :=
  let comparison : QueueComparison := if direction = .oldest then .gt else .lt
  let dialogAfter := columnTest .dialogId comparison (some anchorDialogId)
  let messageAfter := columnTest .messageId comparison (some anchorMessageId)
  let timeAfter := columnTest .scheduledAt comparison anchorScheduledAt
  let sameBucketAfter :=
    [.opening, dialogAfter, .or, .opening, columnTest .dialogId .eq (some anchorDialogId), .and,
      messageAfter, .closing, .closing]
  let sameBucket :=
    if anchorBucket = 0 then sameBucketAfter
    else
      -- `same_bucket_after[1:-1]` has lost the parentheses around its `OR`
      [.opening, timeAfter, .or, .opening, columnTest .scheduledAt .eq anchorScheduledAt, .and] ++
        (sameBucketAfter.drop 1).dropLast ++ [.closing, .closing]
  [.opening, columnTest .dated comparison (some anchorBucket), .or, .opening,
    columnTest .dated .eq (some anchorBucket), .and] ++ sameBucket ++ [.closing, .closing]

/-- The clauses of the filters. -/
def filterClauses (request : QueueRequest) (dialogId : Option ℤ) :
    List (List (SqlToken QueueTest)) :=
  (dialogId.map fun id => [columnTest .dialogId .eq (some id)]).toList ++
    (match request.senderId, request.senderName with
      | some senderId, _ => [[columnTest .senderId .eq (some senderId)]]
      | none, some senderName => [[.atom (.named ("%" ++ escapeLike senderName ++ "%"))]]
      | none, none => []) ++
    (request.topicId.map fun id => [columnTest .forumTopicId .eq (some id)]).toList ++
    (request.sinceUtc.map fun time => [columnTest .scheduledAt .ge (some time)]).toList ++
    (request.untilUtc.map fun time => [columnTest .scheduledAt .lt (some time)]).toList

/-- The `WHERE` clause of `build_scheduled_global_list_query`. -/
def queueWhere (request : QueueRequest) (dialogId : Option ℤ) (direction : HistoryDirection)
    (anchor : Option ScheduledQueueNavigationToken) : List (SqlToken QueueTest) :=
  joinAnd ([.atom .pending] :: (filterClauses request dialogId ++
    (anchor.map fun token => scheduledGlobalAnchorClause direction token.timeBucket
      token.scheduledAt token.anchorDialogId token.messageId).toList))

/-- The `ORDER BY` clause: whether a row does not come after another one. -/
def queueOrder (direction : HistoryDirection) (row row' : QueueRow) : Bool :=
  match direction with
  | .oldest => row.sortKey ≤ row'.sortKey
  | .newest => row'.sortKey ≤ row.sortKey

/-! ## The listing -/

/-- What a listing reads besides its request: the mirror, whether its coverage is known, the account
and the projection of a row. -/
structure ScheduledQueue where
  rows : Dictionary (ℤ × ℤ) ScheduledRow
  available : Bool
  accountId : ℤ
  /-- `_scheduled_filter_fingerprint`. -/
  fingerprint : QueueRequest → String
  /-- The bytes of the projected row. -/
  rowBytes : QueueRow → ℕ
  /-- `draft_response_budget_bytes`. -/
  responseBudget : ℤ
  /-- `LIKE` of the database. -/
  like : String → String → Bool

/-- The part of an answer that the traversal reads, and the account of its truncation. -/
structure QueuePage where
  messages : List QueueRow
  nextNavigation : Option ScheduledQueueNavigationToken
  direction : HistoryDirection
  hasMore : Bool
  isTruncated : Bool
  hiddenCount : ℕ

/-- The rows of a page in the order of the traversal. -/
def QueuePage.traversed (page : QueuePage) : List QueueRow :=
  match page.direction with
  | .oldest => page.messages
  | .newest => page.messages.reverse

/-- The loop of `_bound_scheduled_queue_rows` after some rows with some bytes. -/
def boundRows (rowBytes : QueueRow → ℕ) (budget : ℤ) : Bool → ℕ → List QueueRow →
    List QueueRow × Bool
  | _, _, [] => ([], false)
  | started, payload, row :: rows =>
    if started ∧ budget < payload + rowBytes row then ([], true)
    else
      let (bounded, truncated) := boundRows rowBytes budget true (payload + rowBytes row) rows
      (row :: bounded, truncated)

namespace ScheduledQueue

variable (queue : ScheduledQueue) (request : QueueRequest) (dialogId : Option ℤ)

/-- The read scope of a listing. -/
def readScope : QueueReadScope := if dialogId.isSome then .dialog else .allDialogs

/-- The rows that the statement selects, in its order; a clause that does not parse raises. -/
def execute (direction : HistoryDirection) (limit : ℕ)
    (anchor : Option ScheduledQueueNavigationToken) : Navigation (List QueueRow) :=
  match parse (queueWhere request dialogId direction anchor) with
  | none => .error "syntax error"
  | some condition =>
    .ok (((queue.rows.entries.filter fun row =>
      condition.Holds (QueueTest.value queue.like row)).mergeSort (queueOrder direction)).take limit)

/-- `_read_scheduled_queue_rows`. -/
def readScheduledQueueRows (direction : HistoryDirection)
    (anchor : Option ScheduledQueueNavigationToken) : Navigation (List QueueRow) :=
  if queue.available then queue.execute request dialogId direction (request.limit + 1) anchor
  else .ok []

/-- `_bound_scheduled_queue_rows`. -/
def boundScheduledQueueRows (rows : List QueueRow) : List QueueRow × Bool :=
  boundRows queue.rowBytes queue.responseBudget false 0 rows

/-- The token of `_scheduled_queue_next_navigation`. -/
def nextToken (direction : HistoryDirection) (last : QueueRow) : ScheduledQueueNavigationToken where
  accountId := queue.accountId
  readScope := readScope dialogId
  dialogId := dialogId
  direction := direction
  filterFingerprint := queue.fingerprint request
  timeBucket := if last.scheduledAt = none then 0 else 1
  scheduledAt := last.scheduledAt
  anchorDialogId := last.dialogId
  messageId := last.messageId

/-- `_scheduled_queue_next_navigation`: the encoder checks the token. -/
def scheduledQueueNextNavigation (direction : HistoryDirection) (last : QueueRow) :
    Navigation ScheduledQueueNavigationToken :=
  let token := queue.nextToken request dialogId direction last
  token.validate.map fun _ => token

/-- `_bind_scheduled_queue_navigation`: the decoder checks the token again. -/
def bindScheduledQueueNavigation (direction : HistoryDirection)
    (navigation : Option ScheduledQueueNavigationToken) :
    Navigation (Option ScheduledQueueNavigationToken × HistoryDirection) :=
  match navigation with
  | none => .ok (none, direction)
  | some token => do
    token.validate
    refuseIf (token.accountId ≠ queue.accountId ∨ token.readScope ≠ readScope dialogId ∨
        token.dialogId ≠ dialogId ∨ token.filterFingerprint ≠ queue.fingerprint request)
      "Navigation token belongs to a different account, scope, direction, or filter."
    return (some token, token.direction)

/-- The `response_shape` phase of `_list_scheduled_queue`, after the rows have been read. -/
def shapePage (direction : HistoryDirection) (rawRows : List QueueRow) : Navigation QueuePage := do
  let selected := rawRows.take request.limit
  let (boundedRows, budgetTruncated) := queue.boundScheduledQueueRows selected
  let hasMore := decide (request.limit < rawRows.length) || budgetTruncated
  let last := (if budgetTruncated then selected.take boundedRows.length else selected).getLast?
  let nextNavigation ←
    match last with
    | some last =>
      if hasMore then (queue.scheduledQueueNextNavigation request dialogId direction last).map some
      else .ok none
    | none => .ok none
  return {
    messages := if direction = .oldest then boundedRows else boundedRows.reverse
    nextNavigation
    direction
    hasMore
    isTruncated := budgetTruncated
    hiddenCount := if budgetTruncated then selected.length - boundedRows.length else 0 }

/-- `_list_scheduled_queue`, for a known account.  Without a navigation, or with one of its words,
the listing starts in the given direction. -/
def listScheduledQueue (direction : HistoryDirection)
    (navigation : Option ScheduledQueueNavigationToken) : Navigation QueuePage := do
  let (anchor, direction) ←
    queue.bindScheduledQueueNavigation request dialogId direction navigation
  let rawRows ← queue.readScheduledQueueRows request dialogId direction anchor
  queue.shapePage request dialogId direction rawRows

/-- The rows of a page with the navigation to the next one. -/
def page (direction : HistoryDirection) (navigation : Option ScheduledQueueNavigationToken) :
    Navigation (List QueueRow × Option ScheduledQueueNavigationToken) :=
  (queue.listScheduledQueue request dialogId direction navigation).map fun page =>
    (page.traversed, page.nextNavigation)

end ScheduledQueue

/-! ## The matching rows -/

/-- The sender filter of a request lets the row through. -/
def QueueRow.hasSender (like : String → String → Bool) (row : QueueRow) :
    Option ℤ → Option String → Bool
  | some senderId, _ => row.senderId = some senderId
  | none, some senderName => row.senderFirstName.any (like ("%" ++ escapeLike senderName ++ "%"))
  | none, none => true

/-- The filters of a request let the row through. -/
def QueueRow.selected (like : String → String → Bool) (request : QueueRequest)
    (dialogId : Option ℤ) (row : QueueRow) : Bool :=
  (row.2.messageState = .scheduled || row.2.messageState = .unknownMissing) &&
  dialogId.all (row.dialogId = ·) &&
  row.hasSender like request.senderId request.senderName &&
  request.topicId.all (row.forumTopicId = some ·) &&
  request.sinceUtc.all (fun time => row.scheduledAt.any (time ≤ ·)) &&
  request.untilUtc.all (fun time => row.scheduledAt.any (· < time))

/-- The rows that a listing should visit, in the order of the query. -/
def ScheduledQueue.matchingRows (queue : ScheduledQueue) (request : QueueRequest)
    (dialogId : Option ℤ) (direction : HistoryDirection) : List QueueRow :=
  (queue.rows.entries.filter (QueueRow.selected queue.like request dialogId)).mergeSort
    (queueOrder direction)

/-- A row comes before another one in the order of the query. -/
def QueueRow.Before (direction : HistoryDirection) (row row' : QueueRow) : Prop :=
  match direction with
  | .oldest => row.sortKey < row'.sortKey
  | .newest => row'.sortKey < row.sortKey

instance (direction : HistoryDirection) (row row' : QueueRow) :
    Decidable (row.Before direction row') :=
  match direction with
  | .oldest => inferInstanceAs (Decidable (row.sortKey < row'.sortKey))
  | .newest => inferInstanceAs (Decidable (row'.sortKey < row.sortKey))

/-- The message id of a row lies beyond that of another one. -/
def QueueRow.Beyond (direction : HistoryDirection) (row row' : QueueRow) : Prop :=
  match direction with
  | .oldest => row.messageId < row'.messageId
  | .newest => row'.messageId < row.messageId

instance (direction : HistoryDirection) (row row' : QueueRow) :
    Decidable (row.Beyond direction row') :=
  match direction with
  | .oldest => inferInstanceAs (Decidable (row.messageId < row'.messageId))
  | .newest => inferInstanceAs (Decidable (row'.messageId < row.messageId))

end McpTelegram
