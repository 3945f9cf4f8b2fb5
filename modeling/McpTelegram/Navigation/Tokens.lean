import McpTelegram.Messages.Media

/-!
# Continuation tokens

The token types of `pagination.py`, the shape that each family asks of its tokens, and the payload
that it encodes.  Integers are Python integers; a value of a `Literal` type is a constructor.
-/

namespace McpTelegram

/-- `HistoryDirection`. -/
inductive HistoryDirection where
  | newest | oldest
  deriving DecidableEq

/-- The text of a direction. -/
def HistoryDirection.value : HistoryDirection → String
  | newest => "newest"
  | oldest => "oldest"

/-- `NavigationKind`. -/
inductive NavigationKind where
  | history | search
  deriving DecidableEq

/-- The text of a kind. -/
def NavigationKind.value : NavigationKind → String
  | history => "history"
  | search => "search"

/-- `NavigationToken`. -/
structure NavigationToken where
  kind : NavigationKind
  value : Option ℤ
  dialogId : ℤ
  topicId : Option ℤ := none
  query : Option String := none
  direction : Option HistoryDirection := none
  sentAt : Option ℤ := none
  messageState : Option String := none
  unread : Bool := false
  sinceUtc : Option ℤ := none
  untilUtc : Option ℤ := none
  draftKey : Option String := none
  draftFingerprint : Option String := none
  scheduledMessageId : Option ℤ := none
  scheduledSentAt : Option ℤ := none
  deriving DecidableEq

/-- `read_scope` of a scheduled queue token. -/
inductive QueueReadScope where
  | dialog | allDialogs
  deriving DecidableEq

/-- The text of a read scope. -/
def QueueReadScope.value : QueueReadScope → String
  | dialog => "dialog"
  | allDialogs => "all_dialogs"

/-- `ScheduledQueueNavigationToken`. -/
structure ScheduledQueueNavigationToken where
  accountId : ℤ
  readScope : QueueReadScope
  dialogId : Option ℤ
  direction : HistoryDirection
  filterFingerprint : String
  timeBucket : ℤ
  scheduledAt : Option ℤ
  anchorDialogId : ℤ
  messageId : ℤ
  deriving DecidableEq

/-- `AccountTraceGroupBy`. -/
inductive AccountTraceGroupBy where
  | timeline | dialog
  deriving DecidableEq

/-- The text of a grouping. -/
def AccountTraceGroupBy.value : AccountTraceGroupBy → String
  | timeline => "timeline"
  | dialog => "dialog"

/-- `AccountTraceView`. -/
inductive AccountTraceView where
  | dialogs | messages
  deriving DecidableEq

/-- The text of a view. -/
def AccountTraceView.value : AccountTraceView → String
  | dialogs => "dialogs"
  | messages => "messages"

/-- `AccountTraceNavigationToken`, and the request with the same fields that is encoded. -/
structure AccountTraceNavigationToken where
  targetUserId : ℤ
  sentAt : ℤ
  dialogId : ℤ
  messageId : ℤ
  groupBy : AccountTraceGroupBy
  view : AccountTraceView := .messages
  exactDialogId : Option ℤ := none
  exactTopicId : Option ℤ := none
  sentAfter : Option String := none
  sentBefore : Option String := none
  scopeDialogIds : Option (List ℤ) := none
  deriving DecidableEq

/-- `AccountTraceNavigationContext`. -/
structure AccountTraceNavigationContext where
  expectedTargetUserId : ℤ
  expectedGroupBy : AccountTraceGroupBy
  expectedView : AccountTraceView := .messages
  expectedExactDialogId : Option ℤ := none
  expectedExactTopicId : Option ℤ := none
  expectedSentAfter : Option String := none
  expectedSentBefore : Option String := none

/-- `ProfileNavigationToken`. -/
structure ProfileNavigationToken where
  account : ℤ
  entity : ℤ
  sectionName : String
  sourceKind : String
  generation : ℤ := 0
  scan : ℤ := 0
  fingerprint : String := ""
  lastKey : String := ""
  watermark : ℤ := 0
  version : ℤ := 1
  deriving DecidableEq

/-- `DialogDirectoryNavigationToken`. -/
structure DialogDirectoryNavigationToken where
  accountId : ℤ
  fingerprint : String
  lastDialogId : ℤ
  upperDialogId : ℤ
  deriving DecidableEq

/-- The `ValueError` of a refused token. -/
abbrev Navigation (α : Type) := Except String α

/-- `if condition: raise ValueError(message)`. -/
def refuseIf (condition : Prop) [Decidable condition] (message : String) : Navigation Unit :=
  if condition then .error message else .ok ()

/-! ## History and search -/

namespace NavigationToken

variable (navigation : NavigationToken)

/-- The accepted message states. -/
def messageStates : List String := ["sent", "scheduled", "draft", "all"]

/-- `_validate_navigation_time_range`. -/
def validateTimeRange : Navigation Unit :=
  match navigation.sinceUtc, navigation.untilUtc with
  | some sinceUtc, some untilUtc =>
    refuseIf (untilUtc ≤ sinceUtc)
      "Invalid navigation token: since_utc must be earlier than until_utc"
  | _, _ => .ok ()

/-- `_validate_navigation_state`. -/
def validateState : Navigation Unit :=
  refuseIf (¬ navigation.messageState.any (· ∈ messageStates))
    "Invalid navigation token: message_state must be sent, scheduled, draft, or all"

/-- `_validate_search_navigation`. -/
def validateSearch : Navigation Unit := do
  refuseIf (navigation.unread = true)
    "Invalid navigation token: search cursor cannot bind unread mode"
  refuseIf (navigation.query = none) "Invalid navigation token: search cursor requires query"
  refuseIf (navigation.value = none) "Invalid navigation token: search cursor requires offset"
  refuseIf (navigation.topicId ≠ none ∨ navigation.direction ≠ none ∨ navigation.sentAt ≠ none ∨
      navigation.draftKey ≠ none ∨ navigation.draftFingerprint ≠ none ∨
      navigation.scheduledMessageId ≠ none ∨ navigation.scheduledSentAt ≠ none)
    "Invalid navigation token: search cursor contains history-only state"

/-- `_validate_all_scheduled_position`. -/
def validateAllScheduledPosition : Navigation Unit := do
  refuseIf (navigation.scheduledSentAt ≠ none ∧ navigation.scheduledMessageId = none)
    "Invalid navigation token: all cursor scheduled timestamp requires an id"
  refuseIf (navigation.scheduledMessageId.any (· ≤ 0))
    "Invalid navigation token: all cursor scheduled id must be positive"

/-- `_validate_all_history_cursor`. -/
def validateAllHistory : Navigation Unit := do
  refuseIf (navigation.value.isNone ≠ navigation.sentAt.isNone)
    "Invalid navigation token: all cursor sent position requires id and timestamp"
  navigation.validateAllScheduledPosition
  refuseIf (navigation.draftKey ≠ none ∧ navigation.draftFingerprint = none)
    "Invalid navigation token: all cursor draft position requires fingerprint"
  refuseIf (navigation.value = none ∧ navigation.scheduledMessageId = none ∧
      navigation.draftKey = none)
    "Invalid navigation token: all cursor requires at least one stream position"

/-- `_validate_draft_cursor`. -/
def validateDraft : Navigation Unit := do
  refuseIf (navigation.messageState ≠ some "draft")
    "Invalid navigation token: draft cursor requires draft message_state"
  refuseIf (navigation.draftKey = none ∨ navigation.draftFingerprint = none ∨
      navigation.value ≠ none)
    "Invalid navigation token: draft cursor requires key and fingerprint without message id"
  refuseIf (navigation.scheduledMessageId ≠ none ∨ navigation.scheduledSentAt ≠ none)
    "Invalid navigation token: draft cursor contains scheduled state"

/-- `_validate_history_navigation`. -/
def validateHistory : Navigation Unit := do
  refuseIf (navigation.query ≠ none)
    "Invalid navigation token: history cursor contains search-only query state"
  if navigation.messageState = some "all" then navigation.validateAllHistory
  else if navigation.draftKey ≠ none ∨ navigation.draftFingerprint ≠ none then
    navigation.validateDraft
  else
    refuseIf (navigation.value = none)
      "Invalid navigation token: history cursor requires message id"

/-- `_validate_navigation_shape`. -/
def validateShape : Navigation Unit := do
  navigation.validateTimeRange
  navigation.validateState
  match navigation.kind with
  | .search => navigation.validateSearch
  | .history => navigation.validateHistory

end NavigationToken

/-! ## Payloads -/

/-- An optional field of a payload. -/
def optionalField (key : String) (value : Option Json) : List (String × Json) :=
  (value.map fun value => (key, value)).toList

namespace NavigationToken

/-- `_optional_navigation_fields`. -/
def optionalFields (navigation : NavigationToken) : List (String × Json) :=
  optionalField "topic_id" (navigation.topicId.map .int) ++
    optionalField "query" (navigation.query.map .str) ++
    optionalField "direction" (navigation.direction.map fun direction => .str direction.value) ++
    optionalField "sent_at" (navigation.sentAt.map .int) ++
    optionalField "message_state" (navigation.messageState.map .str) ++
    optionalField "since_utc" (navigation.sinceUtc.map .int) ++
    optionalField "until_utc" (navigation.untilUtc.map .int) ++
    optionalField "draft_key" (navigation.draftKey.map .str) ++
    optionalField "draft_fingerprint" (navigation.draftFingerprint.map .str) ++
    optionalField "scheduled_message_id" (navigation.scheduledMessageId.map .int) ++
    optionalField "scheduled_sent_at" (navigation.scheduledSentAt.map .int) ++
    optionalField "unread"
      (if navigation.kind = .history then some (.bool navigation.unread) else none)

/-- The payload of `encode_navigation_token`. -/
def payload (navigation : NavigationToken) : List (String × Json) :=
  [("kind", .str navigation.kind.value), ("dialog_id", .int navigation.dialogId)] ++
    optionalField "value" (navigation.value.map .int) ++ navigation.optionalFields

end NavigationToken

namespace ScheduledQueueNavigationToken

/-- `_validate_scheduled_queue_navigation`. -/
def validate (token : ScheduledQueueNavigationToken) : Navigation Unit := do
  refuseIf (token.accountId ≤ 0 ∨ token.anchorDialogId = 0 ∨ token.messageId ≤ 0)
    "Invalid navigation token: account, dialog, and message ids must be valid"
  refuseIf (decide (token.readScope = .dialog) ≠ token.dialogId.isSome)
    "Invalid navigation token: dialog id does not match scheduled read scope"
  refuseIf (token.timeBucket ∉ [0, 1] ∨ decide (token.timeBucket = 0) ≠ token.scheduledAt.isNone)
    "Invalid navigation token: scheduled time does not match null bucket"
  refuseIf (token.filterFingerprint = "")
    "Invalid navigation token: missing scheduled filter fingerprint"

/-- The payload of `encode_scheduled_queue_navigation`. -/
def payload (token : ScheduledQueueNavigationToken) : List (String × Json) :=
  [("kind", .str "scheduled_queue"), ("account_id", .int token.accountId),
    ("read_scope", .str token.readScope.value), ("direction", .str token.direction.value),
    ("filter_fingerprint", .str token.filterFingerprint), ("time_bucket", .int token.timeBucket),
    ("anchor_dialog_id", .int token.anchorDialogId), ("message_id", .int token.messageId)] ++
    optionalField "dialog_id" (token.dialogId.map .int) ++
    optionalField "scheduled_at" (token.scheduledAt.map .int)

end ScheduledQueueNavigationToken

/-- The payload of `encode_account_trace_navigation`. -/
def AccountTraceNavigationToken.payload (request : AccountTraceNavigationToken) :
    List (String × Json) :=
  [("kind", .str "account_trace"), ("target_user_id", .int request.targetUserId),
    ("sent_at", .int request.sentAt), ("dialog_id", .int request.dialogId),
    ("message_id", .int request.messageId), ("group_by", .str request.groupBy.value),
    ("view", .str request.view.value)] ++
    optionalField "exact_dialog_id" (request.exactDialogId.map .int) ++
    optionalField "exact_topic_id" (request.exactTopicId.map .int) ++
    optionalField "sent_after" (request.sentAfter.map .str) ++
    optionalField "sent_before" (request.sentBefore.map .str) ++
    optionalField "scope_dialog_ids" (request.scopeDialogIds.map fun ids => .arr (ids.map .int))

/-- The payload of `encode_profile_navigation`. -/
def ProfileNavigationToken.payload (token : ProfileNavigationToken) : List (String × Json) :=
  [("kind", .str "profile"), ("account", .int token.account), ("entity", .int token.entity),
    ("section", .str token.sectionName), ("source_kind", .str token.sourceKind),
    ("generation", .int token.generation), ("scan", .int token.scan),
    ("fingerprint", .str token.fingerprint), ("last_key", .str token.lastKey),
    ("watermark", .int token.watermark), ("version", .int token.version)]

namespace DialogDirectoryNavigationToken

/-- `_valid_directory_fingerprint`. -/
def validFingerprint (value : String) : Bool :=
  value.length == 64 && value.toList.all fun c => c ∈ "0123456789abcdef".toList

/-- `_validate_dialog_directory_navigation`. -/
def validate (token : DialogDirectoryNavigationToken) : Navigation Unit := do
  refuseIf (token.accountId ≤ 0) "Invalid directory navigation account"
  refuseIf (¬ validFingerprint token.fingerprint) "Invalid directory navigation fingerprint"
  refuseIf (token.upperDialogId < token.lastDialogId) "Invalid directory navigation anchor"
  refuseIf (¬ (-2 ^ 63 ≤ token.lastDialogId ∧ token.lastDialogId < 2 ^ 63 ∧
      -2 ^ 63 ≤ token.upperDialogId ∧ token.upperDialogId < 2 ^ 63))
    "Invalid directory navigation anchor"

/-- The payload of `encode_dialog_directory_navigation`. -/
def payload (token : DialogDirectoryNavigationToken) : List (String × Json) :=
  [("kind", .str "dialog_directory"), ("version", .int 1), ("order", .str "dialog_id_asc"),
    ("account_id", .int token.accountId), ("fingerprint", .str token.fingerprint),
    ("last_dialog_id", .int token.lastDialogId), ("upper_dialog_id", .int token.upperDialogId)]

end DialogDirectoryNavigationToken

end McpTelegram
