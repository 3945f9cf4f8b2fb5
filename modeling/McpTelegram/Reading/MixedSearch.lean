import Mathlib.Data.Prod.Lex
import Mathlib.Data.String.Basic
import McpTelegram.Scheduled.Store
import McpTelegram.Foundations.MergedStreams
import McpTelegram.Messages.Contracts
import McpTelegram.Navigation.Tokens

/-!
# Search over sent and scheduled messages

`_search_messages_for_state` of `reading/service.py` with the message state `all`: the first rows of
the sent and of the scheduled stream, each in the order of its own query, are merged by
`_merge_search_results`, and the page is cut out of the merged rows.
-/

namespace McpTelegram

open Foundations

/-! ## The index -/

/-- What the search reads of a sent message. -/
structure SentMessage where
  key : MessageKey
  sentAt : ℤ
  deriving DecidableEq

/-- The text of a state. -/
def ScheduledState.text : ScheduledState → String
  | scheduled => "scheduled"
  | unknownMissing => "unknown_missing"
  | cancelled => "cancelled"
  | published => "published"

/-- What the search reads of a scheduled message. -/
structure ScheduledMessage where
  key : MessageKey
  scheduledAt : Option ℤ
  messageState : ScheduledState
  deriving DecidableEq

/-- The index: the two tables with their primary keys, the rows of the two full-text tables that
match a text, and whether the scheduled mirror is there and its account coverage is known. -/
structure SearchIndex where
  messages : List SentMessage
  sentHits : String → List MessageKey
  scheduledMessages : List ScheduledMessage
  scheduledHits : String → List MessageKey
  scheduledKnown : Bool
  messages_nodup : (messages.map (·.key)).Nodup
  scheduled_nodup : (scheduledMessages.map (·.key)).Nodup

/-- `_SearchMessagesRequest` with the message state `all`, its dialog resolved (0 for all dialogs),
its query stemmed, and its limit clamped to at least one. -/
structure SearchRequest where
  dialogId : ℤ
  query : String
  limit : ℕ
  offset : ℕ
  navigation : Option NavigationToken := none
  sinceUtc : Option ℤ := none
  untilUtc : Option ℤ := none
  limit_pos : 0 < limit

/-- A row of the result. -/
structure SearchRow where
  dialogId : ℤ
  messageId : ℤ
  sentAt : Option ℤ
  messageState : String
  deriving DecidableEq

/-! ## The two streams -/

section Streams

variable (index : SearchIndex) (stem : String → String) (request : SearchRequest)

/-- The conditions on the dialog and on the time. -/
def SearchRequest.accepts (row : SearchRow) : Bool :=
  (request.dialogId == 0 || row.dialogId == request.dialogId) &&
    request.sinceUtc.all (fun sinceUtc => row.sentAt.any (sinceUtc ≤ ·)) &&
    request.untilUtc.all (fun untilUtc => row.sentAt.any (· < untilUtc))

/-- The row of a sent message. -/
def SentMessage.row (message : SentMessage) : SearchRow :=
  ⟨message.key.dialogId, message.key.messageId, some message.sentAt, "sent"⟩

/-- The row of a scheduled message. -/
def ScheduledMessage.row (message : ScheduledMessage) : SearchRow :=
  ⟨message.key.dialogId, message.key.messageId, message.scheduledAt, message.messageState.text⟩

/-- The rows of `_FTS_SCOPED_QUERY_BODY_SQL` and `_FTS_GLOBAL_QUERY_BODY_SQL`, without doubles. -/
def sentRows : List SearchRow :=
  (((index.sentHits (stem request.query)).flatMap fun hit =>
    (index.messages.filter fun message => message.key = hit).map SentMessage.row).filter
      request.accepts).dedup

/-- The rows of `build_scheduled_search_query`, without doubles. -/
def scheduledRows : List SearchRow :=
  (((index.scheduledHits (stem request.query)).flatMap fun hit =>
    (index.scheduledMessages.filter fun message => message.key = hit ∧
      (message.messageState = .scheduled ∨ message.messageState = .unknownMissing)).map
        ScheduledMessage.row).filter request.accepts).dedup

/-- A time as the queries order it: a missing one comes first. -/
def queryTime : Option ℤ → WithBot ℤ
  | none => ⊥
  | some time => (time : WithBot ℤ)

/-- The order of both queries: the greatest of these keys comes first. -/
def queryKey (row : SearchRow) : (WithBot ℤ ×ₗ ℤ ×ₗ ℤ)ᵒᵈ :=
  OrderDual.toDual (toLex (queryTime row.sentAt, toLex (row.messageId, row.dialogId)))

/-- `ORDER BY … LIMIT :limit OFFSET :offset`. -/
def queryPage (rows : List SearchRow) (limit offset : ℕ) : List SearchRow :=
  ((greatestFirst queryKey rows).drop offset).take limit

/-- The rows of `_search_messages_global_result` and `_search_messages_scoped_result`. -/
def searchSent (limit offset : ℕ) : List SearchRow :=
  queryPage (sentRows index stem request) limit offset

/-- The rows of `_scheduled_search_for_mixed`. -/
def scheduledSearchForMixed (limit offset : ℕ) : List SearchRow :=
  if index.scheduledKnown then queryPage (scheduledRows index stem request) limit offset else []

end Streams

/-! ## Merging -/

/-- The key under which a row is kept once. -/
def SearchRow.identity (row : SearchRow) : ℤ × String × ℤ :=
  (row.dialogId, row.messageState, row.messageId)

/-- The values of a dictionary from the identities to the rows: a later row replaces an earlier one
in its place. -/
def uniqueRows (rows : List SearchRow) : List SearchRow :=
  rows.foldl (fun kept row =>
    if row.identity ∈ kept.map SearchRow.identity then
      kept.map fun other => if other.identity = row.identity then row else other
    else kept ++ [row]) []

/-- The order of the merged rows, by `sent_at or 0`: the greatest of these keys comes first. -/
def mergeKey (row : SearchRow) : (ℤ ×ₗ ℤ ×ₗ ℤ ×ₗ String)ᵒᵈ :=
  OrderDual.toDual (toLex (row.sentAt.getD 0, toLex (row.messageId,
    toLex (row.dialogId, row.messageState))))

/-- `_merge_search_results`: the page, and the token of the next one before it is encoded. -/
def mergeSearchResults (sent scheduled : List SearchRow) (request : SearchRequest) :
    List SearchRow × Option NavigationToken :=
  let rows := greatestFirst mergeKey (uniqueRows (sent ++ scheduled))
  let page := (rows.drop request.offset).take request.limit
  (page,
    if page.length = request.limit then
      some
        { kind := .search
          value := some ((request.offset + request.limit : ℕ) : ℤ)
          dialogId := request.dialogId
          query := some request.query
          messageState := some "all"
          sinceUtc := request.sinceUtc
          untilUtc := request.untilUtc }
    else none)

/-- `_search_navigation_context_error`. -/
def searchNavigationContextError (navigation : NavigationToken) (request : SearchRequest) :
    Option String :=
  if navigation.kind ≠ .search then
    some ("Navigation token is for " ++ navigation.kind.value ++ ", not search")
  else if navigation.query ≠ some request.query then
    some "Navigation token belongs to a different search query"
  else if navigation.messageState ≠ some "all" then
    some "Navigation token belongs to another message_state, not 'all'"
  else if navigation.dialogId ≠ request.dialogId then
    some "Navigation token belongs to another dialog"
  else if navigation.sinceUtc ≠ request.sinceUtc ∨ navigation.untilUtc ≠ request.untilUtc then
    some "Navigation token belongs to a different time range"
  else none

/-- `_bind_search_navigation` of a decoded token.  Tokens are signed, so their offsets are those
that the code has issued, which are not negative. -/
def bindSearchNavigation (request : SearchRequest) : Except String SearchRequest :=
  match request.navigation with
  | none => .ok request
  | some navigation =>
    match searchNavigationContextError navigation request with
    | some message => .error message
    | none =>
      match navigation.value with
      | none => .error "Search navigation token is missing its offset."
      | some offset => .ok { request with offset := offset.toNat }

section Search

variable (index : SearchIndex) (stem : String → String)

/-- `_search_messages_for_state` with the message state `all`. -/
def searchMessagesForState (request : SearchRequest) :
    Except String (List SearchRow × Option NavigationToken) :=
  match bindSearchNavigation request with
  | .error message => .error message
  | .ok request =>
    let limit := request.offset + request.limit
    .ok (mergeSearchResults (searchSent index stem request limit 0)
      (scheduledSearchForMixed index stem request limit 0) request)

/-- All rows that match: those of the scheduled stream as far as the coverage is known. -/
def matchingRows (request : SearchRequest) : List SearchRow :=
  sentRows index stem request ++
    if index.scheduledKnown then scheduledRows index stem request else []

end Search

/-! ## The rows of the streams -/

section Rows

variable {index : SearchIndex} {stem : String → String} {request : SearchRequest}
variable {rows : List SearchRow} {row row' : SearchRow}

theorem eq_of_key {α : Type*} {rows : List α} {key : α → MessageKey} (hnodup : (rows.map key).Nodup)
    {row row' : α} (h : row ∈ rows) (h' : row' ∈ rows) (hkey : key row = key row') : row = row' :=
  List.inj_on_of_nodup_map hnodup h h' hkey

/-- The rows of sent messages. -/
theorem mem_sentRows (h : row ∈ sentRows index stem request) :
    ∃ message ∈ index.messages, row = message.row := by
  obtain ⟨hmem, -⟩ := List.mem_filter.mp (List.mem_dedup.mp h)
  obtain ⟨hit, -, hrow⟩ := List.mem_flatMap.mp hmem
  obtain ⟨message, hmessage, rfl⟩ := List.mem_map.mp hrow
  exact ⟨message, (List.mem_filter.mp hmessage).1, rfl⟩

/-- The rows of scheduled messages. -/
theorem mem_scheduledRows (h : row ∈ scheduledRows index stem request) :
    ∃ message ∈ index.scheduledMessages,
      (message.messageState = .scheduled ∨ message.messageState = .unknownMissing) ∧
        row = message.row := by
  obtain ⟨hmem, -⟩ := List.mem_filter.mp (List.mem_dedup.mp h)
  obtain ⟨hit, -, hrow⟩ := List.mem_flatMap.mp hmem
  obtain ⟨message, hmessage, rfl⟩ := List.mem_map.mp hrow
  obtain ⟨hin, hcondition⟩ := List.mem_filter.mp hmessage
  exact ⟨message, hin, (of_decide_eq_true hcondition).2, rfl⟩

/-- A key is its two numbers. -/
theorem messageKey_ext {key key' : MessageKey} (hdialog : key.dialogId = key'.dialogId)
    (hmessage : key.messageId = key'.messageId) : key = key' := by
  cases key
  cases key'
  simp_all

/-- Two rows of sent messages have two places. -/
theorem sentRows_place (h : row ∈ sentRows index stem request)
    (h' : row' ∈ sentRows index stem request) (hmessage : row.messageId = row'.messageId)
    (hdialog : row.dialogId = row'.dialogId) : row = row' := by
  obtain ⟨message, hin, rfl⟩ := mem_sentRows h
  obtain ⟨message', hin', rfl⟩ := mem_sentRows h'
  rw [eq_of_key index.messages_nodup hin hin' (messageKey_ext hdialog hmessage)]

/-- Two rows of scheduled messages have two places. -/
theorem scheduledRows_place (h : row ∈ scheduledRows index stem request)
    (h' : row' ∈ scheduledRows index stem request) (hmessage : row.messageId = row'.messageId)
    (hdialog : row.dialogId = row'.dialogId) : row = row' := by
  obtain ⟨message, hin, -, rfl⟩ := mem_scheduledRows h
  obtain ⟨message', hin', -, rfl⟩ := mem_scheduledRows h'
  rw [eq_of_key index.scheduled_nodup hin hin' (messageKey_ext hdialog hmessage)]

/-- The state of a row tells the streams apart. -/
theorem state_ne (h : row ∈ sentRows index stem request)
    (h' : row' ∈ scheduledRows index stem request) : row.messageState ≠ row'.messageState := by
  obtain ⟨message, -, rfl⟩ := mem_sentRows h
  obtain ⟨message', -, hstate, rfl⟩ := mem_scheduledRows h'
  change "sent" ≠ message'.messageState.text
  rcases hstate with hstate | hstate
  · rw [hstate]
    decide
  · rw [hstate]
    decide

/-- The matching rows have distinct identities. -/
theorem nodup_matchingRows : ((matchingRows index stem request).map SearchRow.identity).Nodup := by
  have hidentity : ∀ {row row' : SearchRow}, row.identity = row'.identity →
      row.messageState = row'.messageState ∧ row.messageId = row'.messageId ∧
        row.dialogId = row'.dialogId := by
    intro row row' heq
    rw [SearchRow.identity, SearchRow.identity, Prod.mk.injEq, Prod.mk.injEq] at heq
    exact ⟨heq.2.1, heq.2.2, heq.1⟩
  have hsent : ((sentRows index stem request).map SearchRow.identity).Nodup := by
    refine List.Nodup.map_on (fun row h row' h' heq => ?_) (List.nodup_dedup _)
    exact sentRows_place h h' (hidentity heq).2.1 (hidentity heq).2.2
  have hscheduled : ((scheduledRows index stem request).map SearchRow.identity).Nodup := by
    refine List.Nodup.map_on (fun row h row' h' heq => ?_) (List.nodup_dedup _)
    exact scheduledRows_place h h' (hidentity heq).2.1 (hidentity heq).2.2
  rw [matchingRows]
  split
  · rw [List.map_append]
    refine List.nodup_append.mpr ⟨hsent, hscheduled, fun key hkey key' hkey' => ?_⟩
    rintro rfl
    obtain ⟨row, hrow, rfl⟩ := List.mem_map.mp hkey
    obtain ⟨row', hrow', heq⟩ := List.mem_map.mp hkey'
    exact state_ne hrow hrow' (hidentity heq).1.symm
  · rw [List.append_nil]
    exact hsent

/-- The merge key tells more than the identity. -/
theorem identity_of_mergeKey (h : mergeKey row = mergeKey row') : row.identity = row'.identity := by
  have h := congrArg ofLex (OrderDual.toDual_inj.mp h)
  rw [ofLex_toLex, ofLex_toLex, Prod.mk.injEq] at h
  have h := congrArg ofLex h.2
  rw [ofLex_toLex, ofLex_toLex, Prod.mk.injEq] at h
  have hrest := congrArg ofLex h.2
  rw [ofLex_toLex, ofLex_toLex, Prod.mk.injEq] at hrest
  rw [SearchRow.identity, SearchRow.identity, h.1, hrest.1, hrest.2]

/-- Rows with distinct identities have distinct merge keys. -/
theorem nodup_mergeKey (h : (rows.map SearchRow.identity).Nodup) : (rows.map mergeKey).Nodup :=
  List.pairwise_map.mpr ((List.pairwise_map.mp h).imp fun hne heq => hne (identity_of_mergeKey heq))

/-- Rows with distinct identities are all kept. -/
theorem uniqueRows_of_nodup (h : (rows.map SearchRow.identity).Nodup) : uniqueRows rows = rows := by
  induction rows using List.reverseRecOn with
  | nil => rfl
  | append_singleton rows row ih =>
    rw [List.map_append, List.map_singleton, List.nodup_append] at h
    rw [uniqueRows, List.foldl_concat, ← uniqueRows, ih h.1, if_neg]
    exact fun hmem => h.2.2 _ hmem _ (List.mem_singleton_self _) rfl

/-! ## The two orders -/

/-- The order of the queries, taken apart. -/
theorem queryKey_lt_iff :
    queryKey row' < queryKey row ↔ queryTime row.sentAt < queryTime row'.sentAt ∨
      queryTime row.sentAt = queryTime row'.sentAt ∧ (row.messageId < row'.messageId ∨
        row.messageId = row'.messageId ∧ row.dialogId < row'.dialogId) := by
  rw [queryKey, queryKey, OrderDual.toDual_lt_toDual, Prod.Lex.toLex_lt_toLex,
    Prod.Lex.toLex_lt_toLex]

/-- The order of the merge, taken apart. -/
theorem mergeKey_lt_iff :
    mergeKey row' < mergeKey row ↔ row.sentAt.getD 0 < row'.sentAt.getD 0 ∨
      row.sentAt.getD 0 = row'.sentAt.getD 0 ∧ (row.messageId < row'.messageId ∨
        row.messageId = row'.messageId ∧ (row.dialogId < row'.dialogId ∨
          row.dialogId = row'.dialogId ∧ row.messageState < row'.messageState)) := by
  rw [mergeKey, mergeKey, OrderDual.toDual_lt_toDual, Prod.Lex.toLex_lt_toLex,
    Prod.Lex.toLex_lt_toLex, Prod.Lex.toLex_lt_toLex]

/-- Where every time is present or positive, the orders of the times agree. -/
theorem queryTime_lt_iff {time time' : Option ℤ} (h : time = none → ∀ t ∈ time', 0 < t)
    (h' : time' = none → ∀ t ∈ time, 0 < t) :
    (queryTime time < queryTime time' ↔ time.getD 0 < time'.getD 0) ∧
      (queryTime time = queryTime time' ↔ time.getD 0 = time'.getD 0) := by
  cases time with
  | none =>
    cases time' with
    | none => simp
    | some t' =>
      have hpos := h rfl t' rfl
      have hlt : (⊥ : WithBot ℤ) < (t' : WithBot ℤ) := WithBot.bot_lt_coe t'
      exact ⟨iff_of_true hlt hpos, iff_of_false hlt.ne hpos.ne⟩
  | some t =>
    cases time' with
    | none =>
      have hpos := h' rfl t rfl
      have hlt : (⊥ : WithBot ℤ) < (t : WithBot ℤ) := WithBot.bot_lt_coe t
      exact ⟨iff_of_false (lt_asymm hlt) (lt_asymm hpos), iff_of_false hlt.ne' hpos.ne'⟩
    | some t' => exact ⟨WithBot.coe_lt_coe, WithBot.coe_inj⟩

/-- Sorted by the query or by the merge, rows of one stream come in one order. -/
theorem greatestFirst_queryKey (hidentity : (rows.map SearchRow.identity).Nodup)
    (hplace : ∀ row ∈ rows, ∀ row' ∈ rows, row.messageId = row'.messageId →
      row.dialogId = row'.dialogId → row = row')
    (htimes : ∀ row ∈ rows, ∀ row' ∈ rows, row.sentAt = none → ∀ t ∈ row'.sentAt, 0 < t) :
    greatestFirst queryKey rows = greatestFirst mergeKey rows := by
  have hmerge := nodup_mergeKey hidentity
  have hquery : (rows.map queryKey).Nodup := by
    refine List.Nodup.map_on (fun row h row' h' heq => ?_) hidentity.of_map
    have heq := congrArg ofLex (OrderDual.toDual_inj.mp heq)
    rw [ofLex_toLex, ofLex_toLex, Prod.mk.injEq] at heq
    have hrest := congrArg ofLex heq.2
    rw [ofLex_toLex, ofLex_toLex, Prod.mk.injEq] at hrest
    exact hplace row h row' h' hrest.1 hrest.2
  have hperm := (greatestFirst_perm queryKey rows).trans (greatestFirst_perm mergeKey rows).symm
  refine hperm.eq_of_pairwise (fun row row' _ _ h h' => absurd h (lt_asymm h')) ?_
    (greatestFirst_pairwise mergeKey hmerge)
  refine List.Pairwise.imp_of_mem ?_ (greatestFirst_pairwise queryKey hquery)
  intro row row' hrow hrow' hlt
  have hrow := (greatestFirst_perm queryKey rows).subset hrow
  have hrow' := (greatestFirst_perm queryKey rows).subset hrow'
  obtain ⟨htimeLt, htimeEq⟩ :=
    queryTime_lt_iff (htimes row hrow row' hrow') (htimes row' hrow' row hrow)
  rw [queryKey_lt_iff] at hlt
  rw [mergeKey_lt_iff]
  rcases hlt with hlt | ⟨htime, hmessage | ⟨hmessage, hdialog⟩⟩
  · exact Or.inl (htimeLt.mp hlt)
  · exact Or.inr ⟨htimeEq.mp htime, Or.inl hmessage⟩
  · exact Or.inr ⟨htimeEq.mp htime, Or.inr ⟨hmessage, Or.inl hdialog⟩⟩

end Rows

/-! ## A page -/

section Page

variable {index : SearchIndex} {stem : String → String} {request : SearchRequest}

/-- No matching scheduled row without a time meets one whose time is not positive. -/
def ScheduledTimesPositive (index : SearchIndex) (stem : String → String)
    (request : SearchRequest) : Prop :=
  ∀ row ∈ scheduledRows index stem request, ∀ row' ∈ scheduledRows index stem request,
    row.sentAt = none → ∀ t ∈ row'.sentAt, 0 < t

/-- The matching rows in the order of the merge. -/
def orderedRows (index : SearchIndex) (stem : String → String) (request : SearchRequest) :
    List SearchRow :=
  greatestFirst mergeKey (matchingRows index stem request)

/-- The first rows of the merged pages are the first matching rows. -/
theorem take_merged (htimes : ScheduledTimesPositive index stem request) (n : ℕ) :
    (greatestFirst mergeKey (uniqueRows (searchSent index stem request n 0 ++
        scheduledSearchForMixed index stem request n 0))).take n =
      (orderedRows index stem request).take n := by
  have hall : ((matchingRows index stem request).map SearchRow.identity).Nodup :=
    nodup_matchingRows
  have hsent : searchSent index stem request n 0 =
      (greatestFirst mergeKey (sentRows index stem request)).take n := by
    rw [searchSent, queryPage, List.drop_zero, greatestFirst_queryKey]
    · exact hall.sublist ((List.sublist_append_left _ _).map _)
    · exact fun row h row' h' => sentRows_place h h'
    · intro row h row' h' hnone
      obtain ⟨message, -, rfl⟩ := mem_sentRows h
      cases hnone
  rw [orderedRows]
  rw [matchingRows] at hall ⊢
  set scheduled := if index.scheduledKnown then scheduledRows index stem request else []
    with hscheduledEq
  have hscheduled : scheduledSearchForMixed index stem request n 0 =
      (greatestFirst mergeKey scheduled).take n := by
    rw [scheduledSearchForMixed, hscheduledEq]
    split
    · rename_i hknown
      rw [hscheduledEq, if_pos hknown] at hall
      rw [queryPage, List.drop_zero, greatestFirst_queryKey]
      · exact hall.sublist ((List.sublist_append_right _ _).map _)
      · exact fun row h row' h' => scheduledRows_place h h'
      · exact htimes
    · exact List.take_nil.symm
  have hsub : ((greatestFirst mergeKey (sentRows index stem request)).take n ++
      (greatestFirst mergeKey scheduled).take n).Subperm
        (sentRows index stem request ++ scheduled) :=
    List.Subperm.trans ((List.take_sublist _ _).append (List.take_sublist _ _)).subperm
      ((greatestFirst_perm mergeKey _).append (greatestFirst_perm mergeKey _)).subperm
  obtain ⟨part, hperm, hpart⟩ := hsub
  have hunique := (hperm.map SearchRow.identity).nodup_iff.mp (hall.sublist (hpart.map _))
  rw [hsent, hscheduled, uniqueRows_of_nodup hunique]
  exact take_greatestFirst_append mergeKey (nodup_mergeKey hall) n

/-- A page is a slice of the matching rows. -/
theorem mergeSearchResults_page (htimes : ScheduledTimesPositive index stem request) :
    (mergeSearchResults (searchSent index stem request (request.offset + request.limit) 0)
        (scheduledSearchForMixed index stem request (request.offset + request.limit) 0)
        request).1 =
      ((orderedRows index stem request).drop request.offset).take request.limit := by
  have hslice : ∀ rows : List SearchRow, (rows.drop request.offset).take request.limit =
      (rows.take (request.offset + request.limit)).drop request.offset := by
    intro rows
    rw [List.drop_take, Nat.add_sub_cancel_left]
  rw [mergeSearchResults]
  dsimp only
  rw [hslice, hslice, take_merged htimes]

/-- The token of the page from an offset on. -/
def searchToken (request : SearchRequest) (offset : ℕ) : NavigationToken where
  kind := .search
  value := some (offset : ℤ)
  dialogId := request.dialogId
  query := some request.query
  messageState := some "all"
  sinceUtc := request.sinceUtc
  untilUtc := request.untilUtc

/-- What the search answers from an offset on. -/
theorem searchMessagesForState_eq (htimes : ScheduledTimesPositive index stem request) (offset : ℕ)
    (navigation : Option NavigationToken) (hoffset : navigation = none ∧ request.offset = offset ∨
      navigation = some (searchToken request offset)) :
    searchMessagesForState index stem { request with navigation } =
      .ok (((orderedRows index stem request).drop offset).take request.limit,
        if (((orderedRows index stem request).drop offset).take request.limit).length =
            request.limit then some (searchToken request (offset + request.limit)) else none) := by
  have hbind : ∃ navigation', bindSearchNavigation { request with navigation } =
      .ok { request with navigation := navigation', offset } := by
    rcases hoffset with ⟨rfl, rfl⟩ | rfl
    · exact ⟨none, rfl⟩
    · refine ⟨some (searchToken request offset), ?_⟩
      simp [bindSearchNavigation, searchNavigationContextError, searchToken]
  obtain ⟨navigation', hbind⟩ := hbind
  rw [searchMessagesForState, hbind]
  dsimp only
  have hpage := @mergeSearchResults_page index stem
    { request with navigation := navigation', offset } htimes
  have hresult : ∀ (sent scheduled : List SearchRow) (request : SearchRequest),
      mergeSearchResults sent scheduled request =
        ((mergeSearchResults sent scheduled request).1,
          if (mergeSearchResults sent scheduled request).1.length = request.limit then
            some (searchToken request (request.offset + request.limit)) else none) :=
    fun _ _ _ => rfl
  rw [hresult, hpage]
  rfl

/-- The search from a token on, or from the start. -/
def searchPage (index : SearchIndex) (stem : String → String) (request : SearchRequest)
    (navigation : Option NavigationToken) :
    Except String (List SearchRow × Option NavigationToken) :=
  searchMessagesForState index stem { request with navigation }

/-- From an offset on, the pages are the rest of the matching rows. -/
theorem follow_searchPage (htimes : ScheduledTimesPositive index stem request) {fuel offset : ℕ}
    (hfuel : (orderedRows index stem request).length - offset < fuel)
    {navigation : Option NavigationToken} (hoffset : navigation = none ∧ request.offset = offset ∨
      navigation = some (searchToken request offset)) :
    follow (searchPage index stem request) fuel navigation =
      some ((orderedRows index stem request).drop offset) := by
  induction fuel generalizing offset navigation with
  | zero => exact absurd hfuel (Nat.not_lt_zero _)
  | succ fuel ih =>
    have hlimit := request.limit_pos
    rw [follow, searchPage, searchMessagesForState_eq htimes offset navigation hoffset]
    by_cases hfull : (((orderedRows index stem request).drop offset).take request.limit).length =
        request.limit
    · rw [if_pos hfull]
      rw [List.length_take, List.length_drop] at hfull
      dsimp only
      rw [ih (by omega) (Or.inr rfl), Option.map_some, ← List.drop_drop,
        List.take_append_drop]
    · rw [if_neg hfull]
      rw [List.length_take, List.length_drop] at hfull
      dsimp only
      rw [List.take_of_length_le]
      rw [List.length_drop]
      omega

end Page

/-- Mixed search pages are slices of one ordering of the matching rows, so that following the tokens
visits every matching row exactly once. -/
theorem mixed_search_slices {index : SearchIndex} {stem : String → String}
    {request : SearchRequest} (htimes : ScheduledTimesPositive index stem request) :
    ∃ rows : List SearchRow, rows.Perm (matchingRows index stem request) ∧
      ((matchingRows index stem request).map SearchRow.identity).Nodup ∧
      rows.Pairwise (fun row row' => row.sentAt.getD 0 < row'.sentAt.getD 0 ∨
        row.sentAt.getD 0 = row'.sentAt.getD 0 ∧ (row.messageId < row'.messageId ∨
          row.messageId = row'.messageId ∧ (row.dialogId < row'.dialogId ∨
            row.dialogId = row'.dialogId ∧ row.messageState < row'.messageState))) ∧
      (∀ offset, ∃ next, searchMessagesForState index stem
        { request with offset, navigation := none } =
          .ok ((rows.drop offset).take request.limit, next)) ∧
      Visits (searchPage index stem { request with offset := 0 }) rows := by
  refine ⟨orderedRows index stem request, greatestFirst_perm mergeKey _, nodup_matchingRows,
    (greatestFirst_pairwise mergeKey (nodup_mergeKey nodup_matchingRows)).imp mergeKey_lt_iff.mp,
    fun offset => ?_, ?_⟩
  · exact ⟨_, @searchMessagesForState_eq index stem { request with offset } htimes offset none
      (Or.inl ⟨rfl, rfl⟩)⟩
  · exact ⟨_, @follow_searchPage index stem { request with offset := 0 } htimes _ 0
      (Nat.lt_succ_self _) none (Or.inl ⟨rfl, rfl⟩)⟩

/-- An index with one scheduled message without a time, and one at the given time. -/
def scheduledPairIndex (time : ℤ) : SearchIndex where
  messages := []
  sentHits _ := []
  scheduledMessages := [⟨⟨1, 9⟩, none, .scheduled⟩, ⟨⟨1, 4⟩, some time, .scheduled⟩]
  scheduledHits _ := [⟨1, 9⟩, ⟨1, 4⟩]
  scheduledKnown := true
  messages_nodup := List.nodup_nil
  scheduled_nodup := by simp

/-- A request for the first row. -/
def firstRowRequest : SearchRequest where
  dialogId := 0
  query := "text"
  limit := 1
  offset := 0
  limit_pos := Nat.one_pos

/-- The scheduled message without a time comes before the one at a positive time. -/
theorem mixed_search_slices_pair : ∃ rows : List SearchRow,
    rows.Perm (matchingRows (scheduledPairIndex 7) id firstRowRequest) ∧
      Visits (searchPage (scheduledPairIndex 7) id { firstRowRequest with offset := 0 }) rows := by
  have htimes : ScheduledTimesPositive (scheduledPairIndex 7) id firstRowRequest := by
    unfold ScheduledTimesPositive
    decide
  obtain ⟨rows, hperm, -, -, -, hvisits⟩ := mixed_search_slices htimes
  exact ⟨rows, hperm, hvisits⟩

/-- At the time -5 the first page is not the first row: the query puts the message without a time
first, and the merge after it. -/
theorem mixed_search_misses_early_time :
    (searchMessagesForState (scheduledPairIndex (-5)) id firstRowRequest).map Prod.fst =
        .ok [⟨1, 9, none, "scheduled"⟩] ∧
      (orderedRows (scheduledPairIndex (-5)) id firstRowRequest).take 1 =
        [⟨1, 4, some (-5), "scheduled"⟩] := by
  decide

end McpTelegram
