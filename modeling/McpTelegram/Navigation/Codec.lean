import McpTelegram.Navigation.Tokens

/-!
# Encoding and decoding continuation tokens

The encoders and decoders of `pagination.py`.  JSON, base64 and the signature are parameters; what
the decoders check, and in which order, is defined here.
-/

namespace McpTelegram

/-- The functions behind a token string. -/
structure TokenCodec where
  /-- `json.dumps`. -/
  dumps : Json → String
  /-- `json.loads`; `none` when it raises. -/
  loads : String → Option Json
  /-- `base64.urlsafe_b64encode`. -/
  b64encode : String → String
  /-- `base64.urlsafe_b64decode`; `none` when it raises. -/
  b64decode : String → Option String
  /-- The first 16 hexadecimal digits of the HMAC under the secret of the process. -/
  mac : String → String

/-- `token.rpartition(".")`, without the separator; `none` when there is none. -/
def rpartitionDot (token : String) : Option (String × String) :=
  match token.toList.reverse.span (· ≠ '.') with
  | (_, []) => none
  | (mac, _ :: encoded) => some (String.ofList encoded.reverse, String.ofList mac.reverse)

namespace TokenCodec

variable (codec : TokenCodec)

/-- `_encode_payload`. -/
def encodePayload (payload : List (String × Json)) : String :=
  let data := codec.dumps (.obj payload)
  codec.b64encode data ++ "." ++ codec.mac data

/-- `_decode_payload`. -/
def decodePayload (token : String) : Navigation (List (String × Json)) :=
  match rpartitionDot token with
  | none => .error "Invalid navigation token: missing signature"
  | some (encoded, mac) =>
    match codec.b64decode encoded with
    | none => .error "Invalid navigation token"
    | some data =>
      if mac ≠ codec.mac data then .error "Invalid navigation token: signature mismatch"
      else
        match codec.loads data with
        | none => .error "Invalid navigation token"
        | some (.obj payload) => .ok payload
        | some _ => .error "Invalid navigation token: payload must be an object"

/-- The functions are correct on a payload: its text is parsed back, its bytes are decoded back, and
the signature is hexadecimal. -/
structure Restores (payload : List (String × Json)) : Prop where
  loads : codec.loads (codec.dumps (.obj payload)) = some (.obj payload)
  b64decode : codec.b64decode (codec.b64encode (codec.dumps (.obj payload))) =
    some (codec.dumps (.obj payload))
  mac : '.' ∉ (codec.mac (codec.dumps (.obj payload))).toList

end TokenCodec

/-! ## Fields -/

/-- `isinstance(value, int)`: a Boolean is an integer too. -/
def Json.asInt : Json → Option ℤ
  | .int n => some n
  | .bool b => some (if b then 1 else 0)
  | _ => none

/-- `type(value) is int`. -/
def Json.asStrictInt : Json → Option ℤ
  | .int n => some n
  | _ => none

/-- `isinstance(value, str)`. -/
def Json.asStr : Json → Option String
  | .str text => some text
  | _ => none

/-- `data.get(name)`, where an explicit null is `None` too. -/
def getField (data : List (String × Json)) (name : String) : Option Json :=
  match Json.get data name with
  | some .null => none
  | value => value

/-- A field that may be absent and must otherwise pass a type test. -/
def optionalOf {α : Type} (test : Json → Option α) (message : String)
    (data : List (String × Json)) (name : String) : Navigation (Option α) :=
  match getField data name with
  | none => .ok none
  | some value =>
    match test value with
    | some a => .ok (some a)
    | none => .error message

/-- A field that must pass a type test. -/
def requiredOf {α : Type} (test : Json → Option α) (message : String)
    (data : List (String × Json)) (name : String) : Navigation α :=
  match (getField data name).bind test with
  | some a => .ok a
  | none => .error message

/-- `_optional_int`, `_require_navigation_optional_int_field`. -/
def optionalInt (data : List (String × Json)) (name : String) : Navigation (Option ℤ) :=
  optionalOf Json.asInt s!"Invalid navigation token: {name} must be an integer when present" data name

/-- `_optional_str`, `_require_navigation_optional_str_field`. -/
def optionalStr (data : List (String × Json)) (name : String) : Navigation (Option String) :=
  optionalOf Json.asStr s!"Invalid navigation token: {name} must be a string when present" data name

/-- `_require_navigation_int_field`. -/
def requiredInt (data : List (String × Json)) (name : String) : Navigation ℤ :=
  requiredOf Json.asInt s!"Invalid navigation token: {name} must be an integer" data name

/-- `_scheduled_int`. -/
def scheduledInt (data : List (String × Json)) (name : String) : Navigation ℤ :=
  requiredOf Json.asStrictInt s!"Invalid navigation token: {name} must be an integer" data name

/-- `_scheduled_optional_int`. -/
def scheduledOptionalInt (data : List (String × Json)) (name : String) : Navigation (Option ℤ) :=
  optionalOf Json.asStrictInt s!"Invalid navigation token: {name} must be an integer when present"
    data name

/-- The direction of a text. -/
def HistoryDirection.parse : Json → Option HistoryDirection
  | .str "newest" => some .newest
  | .str "oldest" => some .oldest
  | _ => none

/-- The kind of a text. -/
def NavigationKind.parse : Json → Option NavigationKind
  | .str "history" => some .history
  | .str "search" => some .search
  | _ => none

/-- The read scope of a text. -/
def QueueReadScope.parse : Json → Option QueueReadScope
  | .str "dialog" => some .dialog
  | .str "all_dialogs" => some .allDialogs
  | _ => none

/-- The grouping of a text. -/
def AccountTraceGroupBy.parse : Json → Option AccountTraceGroupBy
  | .str "timeline" => some .timeline
  | .str "dialog" => some .dialog
  | _ => none

/-- The view of a text. -/
def AccountTraceView.parse : Json → Option AccountTraceView
  | .str "dialogs" => some .dialogs
  | .str "messages" => some .messages
  | _ => none

/-- The message state of a text. -/
def parseMessageState : Json → Option String
  | .str state => if state ∈ NavigationToken.messageStates then some state else none
  | _ => none

/-- The items of `_require_scope_dialog_ids`. -/
def parseScopeDialogIds : Json → Option (List ℤ)
  | .arr items => if 2 < items.length then none else items.mapM Json.asInt
  | _ => none

/-- The value of the kind field. -/
def hasKind (data : List (String × Json)) (kind : String) : Bool :=
  match Json.get data "kind" with
  | some (.str text) => text == kind
  | _ => false

/-! ## The five families -/

/-- The fields that `decode_navigation_token` reads. -/
def readNavigationToken (data : List (String × Json)) : Navigation NavigationToken := do
  let kind ← requiredOf NavigationKind.parse
    "Invalid navigation token: kind must be history or search" data "kind"
  let value ← optionalInt data "value"
  let dialogId ← requiredInt data "dialog_id"
  let topicId ← optionalInt data "topic_id"
  let query ← optionalStr data "query"
  let direction ← optionalOf HistoryDirection.parse
    "Invalid navigation token: direction must be newest or oldest when present" data "direction"
  let sentAt ← optionalInt data "sent_at"
  let messageState ← optionalOf parseMessageState
    "Invalid navigation token: message_state must be sent, scheduled, draft, or all when present"
    data "message_state"
  let sinceUtc ← optionalInt data "since_utc"
  let untilUtc ← optionalInt data "until_utc"
  let draftKey ← optionalStr data "draft_key"
  let draftFingerprint ← optionalStr data "draft_fingerprint"
  let scheduledMessageId ← optionalInt data "scheduled_message_id"
  let scheduledSentAt ← optionalInt data "scheduled_sent_at"
  let unread :=
    match Json.get data "unread" with
    | some (.bool unread) => unread
    | _ => false
  return { kind, value, dialogId, topicId, query, direction, sentAt, messageState, unread, sinceUtc,
           untilUtc, draftKey, draftFingerprint, scheduledMessageId, scheduledSentAt }

/-- The checks of `decode_navigation_token` on the unread field. -/
def checkUnread (data : List (String × Json)) (kind : NavigationKind) : Navigation Unit :=
  match kind, Json.get data "unread" with
  | .history, some (.bool _) => .ok ()
  | .history, _ =>
    .error "Invalid navigation token: history cursor requires boolean unread binding"
  | .search, none => .ok ()
  | .search, some _ =>
    .error "Invalid navigation token: search cursor contains history-only unread binding"

/-- The fields that `decode_scheduled_queue_navigation` reads. -/
def readScheduledQueueNavigation (data : List (String × Json)) :
    Navigation ScheduledQueueNavigationToken := do
  refuseIf (hasKind data "scheduled_queue" = false)
    "Invalid navigation token: kind must be scheduled_queue"
  let accountId ← scheduledInt data "account_id"
  let dialogId ← scheduledOptionalInt data "dialog_id"
  let direction ← requiredOf HistoryDirection.parse "not a valid HistoryDirection" data "direction"
  let timeBucket ← scheduledInt data "time_bucket"
  let scheduledAt ← scheduledOptionalInt data "scheduled_at"
  let anchorDialogId ← scheduledInt data "anchor_dialog_id"
  let messageId ← scheduledInt data "message_id"
  let readScope ← requiredOf QueueReadScope.parse
    "Invalid navigation token: read_scope must be dialog or all_dialogs" data "read_scope"
  let filterFingerprint ← requiredOf Json.asStr
    "Invalid navigation token: missing scheduled filter fingerprint" data "filter_fingerprint"
  return { accountId, readScope, dialogId, direction, filterFingerprint, timeBucket, scheduledAt,
           anchorDialogId, messageId }

/-- `decode_account_trace_navigation` after `_decode_payload`. -/
def readAccountTraceNavigation (data : List (String × Json))
    (context : AccountTraceNavigationContext) : Navigation AccountTraceNavigationToken := do
  refuseIf (hasKind data "account_trace" = false) "Navigation token is not for account_trace"
  let targetUserId ← requiredInt data "target_user_id"
  refuseIf (targetUserId ≠ context.expectedTargetUserId)
    "Navigation token belongs to another account"
  let groupBy ← requiredOf AccountTraceGroupBy.parse
    "Invalid navigation token: group_by must be timeline or dialog" data "group_by"
  refuseIf (groupBy ≠ context.expectedGroupBy) "Navigation token belongs to another group_by"
  let view ←
    match Json.get data "view" with
    | none => .ok .messages
    | some value =>
      match AccountTraceView.parse value with
      | some view => .ok view
      | none => .error "Invalid navigation token: view must be dialogs or messages"
  refuseIf (view ≠ context.expectedView) "Navigation token belongs to another view"
  let sentAt ← requiredInt data "sent_at"
  let dialogId ← requiredInt data "dialog_id"
  let messageId ← requiredInt data "message_id"
  let exactDialogId ← optionalInt data "exact_dialog_id"
  refuseIf (exactDialogId ≠ context.expectedExactDialogId)
    "Navigation token belongs to another dialog scope"
  let exactTopicId ← optionalInt data "exact_topic_id"
  refuseIf (exactTopicId ≠ context.expectedExactTopicId)
    "Navigation token belongs to another topic scope"
  let sentAfter ← optionalStr data "sent_after"
  refuseIf (sentAfter ≠ context.expectedSentAfter)
    "Navigation token belongs to another sent_after"
  let sentBefore ← optionalStr data "sent_before"
  refuseIf (sentBefore ≠ context.expectedSentBefore)
    "Navigation token belongs to another sent_before"
  let scopeDialogIds ← optionalOf parseScopeDialogIds
    "Invalid navigation token: scope_dialog_ids must have at most 2 elements" data
    "scope_dialog_ids"
  return { targetUserId, sentAt, dialogId, messageId, groupBy, view, exactDialogId, exactTopicId,
           sentAfter, sentBefore, scopeDialogIds }

/-- The names of the integers of a profile token. -/
def profileIntegers : List String :=
  ["account", "entity", "generation", "scan", "watermark", "version"]

/-- The names of the texts of a profile token. -/
def profileStrings : List String := ["section", "source_kind", "fingerprint", "last_key"]

/-- `set(data) != set(names)`. -/
def sameKeys (data : List (String × Json)) (names : List String) : Bool :=
  (data.all fun pair => pair.1 ∈ names) && names.all fun name => (Json.get data name).isSome

/-- A nonnegative integer that is no Boolean. -/
def Json.asCount (value : Json) : Option ℤ := value.asStrictInt.filter (0 ≤ ·)

/-- A number of a profile token. -/
def profileNumber : List (String × Json) → String → Navigation ℤ :=
  requiredOf Json.asCount "Invalid profile navigation number"

/-- A text of a profile token. -/
def profileText : List (String × Json) → String → Navigation String :=
  requiredOf Json.asStr "Invalid profile navigation text"

/-- `decode_profile_navigation` after `_decode_payload`. -/
def readProfileNavigation (data : List (String × Json)) (account entity : ℤ)
    (sectionName : String) : Navigation ProfileNavigationToken := do
  let payload := data.filter fun pair => pair.1 ≠ "kind"
  refuseIf (hasKind data "profile" = false ∨
      (Json.get payload "version").bind Json.asInt ≠ some 1)
    "Unsupported profile navigation"
  refuseIf (sameKeys payload (profileIntegers ++ profileStrings) = false)
    "Invalid profile navigation fields"
  let token : ProfileNavigationToken :=
    { account := ← profileNumber payload "account"
      entity := ← profileNumber payload "entity"
      generation := ← profileNumber payload "generation"
      scan := ← profileNumber payload "scan"
      watermark := ← profileNumber payload "watermark"
      version := ← profileNumber payload "version"
      sectionName := ← profileText payload "section"
      sourceKind := ← profileText payload "source_kind"
      fingerprint := ← profileText payload "fingerprint"
      lastKey := ← profileText payload "last_key" }
  refuseIf (¬ (token.account = account ∧ token.entity = entity ∧ token.sectionName = sectionName))
    "Profile navigation belongs to another account, entity, or section"
  return token

/-- The keys of a directory token. -/
def directoryKeys : List String :=
  ["kind", "version", "order", "account_id", "fingerprint", "last_dialog_id", "upper_dialog_id"]

/-- `decode_dialog_directory_navigation` after `_decode_payload`. -/
def readDialogDirectoryNavigation (data : List (String × Json)) :
    Navigation DialogDirectoryNavigationToken := do
  refuseIf (sameKeys data directoryKeys = false) "Invalid directory navigation fields"
  refuseIf (hasKind data "dialog_directory" = false ∨
      (Json.get data "version").bind Json.asStrictInt ≠ some 1 ∨
      (Json.get data "order").bind Json.asStr ≠ some "dialog_id_asc")
    "Invalid directory navigation kind or version"
  let accountId ← requiredOf Json.asStrictInt "Invalid directory navigation account" data
    "account_id"
  let fingerprint ← requiredOf Json.asStr "Invalid directory navigation fingerprint" data
    "fingerprint"
  let lastDialogId ← requiredOf Json.asStrictInt "Invalid directory navigation anchor" data
    "last_dialog_id"
  let upperDialogId ← requiredOf Json.asStrictInt "Invalid directory navigation anchor" data
    "upper_dialog_id"
  return { accountId, fingerprint, lastDialogId, upperDialogId }

namespace TokenCodec

variable (codec : TokenCodec)

/-- `encode_navigation_token`. -/
def encodeNavigationToken (navigation : NavigationToken) : Navigation String := do
  navigation.validateShape
  return codec.encodePayload navigation.payload

/-- `decode_navigation_token`. -/
def decodeNavigationToken (token : String) : Navigation NavigationToken := do
  let data ← codec.decodePayload token
  let navigation ← readNavigationToken data
  navigation.validateShape
  checkUnread data navigation.kind
  return navigation

/-- `encode_scheduled_queue_navigation`. -/
def encodeScheduledQueueNavigation (token : ScheduledQueueNavigationToken) :
    Navigation String := do
  token.validate
  return codec.encodePayload token.payload

/-- `decode_scheduled_queue_navigation`. -/
def decodeScheduledQueueNavigation (value : String) :
    Navigation ScheduledQueueNavigationToken := do
  let data ← codec.decodePayload value
  let token ← readScheduledQueueNavigation data
  token.validate
  return token

/-- `encode_account_trace_navigation`. -/
def encodeAccountTraceNavigation (request : AccountTraceNavigationToken) : Navigation String :=
  .ok (codec.encodePayload request.payload)

/-- `decode_account_trace_navigation`. -/
def decodeAccountTraceNavigation (token : String) (context : AccountTraceNavigationContext) :
    Navigation AccountTraceNavigationToken := do
  let data ← codec.decodePayload token
  readAccountTraceNavigation data context

/-- `encode_profile_navigation`. -/
def encodeProfileNavigation (token : ProfileNavigationToken) : Navigation String :=
  .ok (codec.encodePayload token.payload)

/-- `decode_profile_navigation`. -/
def decodeProfileNavigation (value : String) (account entity : ℤ) (sectionName : String) :
    Navigation ProfileNavigationToken := do
  let data ← codec.decodePayload value
  readProfileNavigation data account entity sectionName

/-- `encode_dialog_directory_navigation`. -/
def encodeDialogDirectoryNavigation (token : DialogDirectoryNavigationToken) :
    Navigation String := do
  token.validate
  return codec.encodePayload token.payload

/-- `decode_dialog_directory_navigation`. -/
def decodeDialogDirectoryNavigation (token : String) :
    Navigation DialogDirectoryNavigationToken := do
  refuseIf (2048 < token.length) "Invalid directory navigation token"
  let data ← codec.decodePayload token
  let result ← readDialogDirectoryNavigation data
  result.validate
  return result

end TokenCodec

end McpTelegram
