import McpTelegram.Trace.Store

/-!
# The two views of an account trace

`_build_trace_account_query_result` of `daemon_account_trace.py`: the pages of the messages view
and of the dialogs view, and the counts of the two authorship bases.  The pages of a view are
followed through `next_navigation`, which is written to a payload and read back by the decoder of
`pagination.py` with what the request expects.
-/

namespace McpTelegram

open Foundations

/-! ## The request -/

/-- `_TraceAccountQueryContext` without the view and the navigation. -/
structure TraceQueryContext where
  targetUserId : ℤ
  selfId : Option ℤ
  postAuthorAliases : List String
  directChatExcluded : Bool
  groupBy : AccountTraceGroupBy
  limit : ℕ
  exactDialogId : Option ℤ
  exactTopicId : Option ℤ
  sentAfter : Option String
  sentBefore : Option String
  sentAfterTs : Option ℤ
  sentBeforeTs : Option ℤ
  scopeDialogIds : Option (List ℤ)
  /-- `_clamp(limit, 1, 200)`. -/
  limit_pos : 1 ≤ limit
  /-- `_resolve_trace_account_signature_scope`: the channel, and its discussion if it is known. -/
  scope_bounded : ∀ ids, scopeDialogIds = some ids → ids.length ≤ 2

namespace TraceQueryContext

variable (context : TraceQueryContext)

/-- `_trace_query_rows`, up to the view. -/
def query (scopeDialogIds : Option (List ℤ)) (navigation : Option TracePosition) (limit : ℕ) :
    TraceMessageQueryRequest where
  targetUserId := context.targetUserId
  selfId := context.selfId
  limit := limit
  postAuthorAliases := context.postAuthorAliases
  exactDialogId := context.exactDialogId
  exactTopicId := context.exactTopicId
  sentAfterTs := context.sentAfterTs
  sentBeforeTs := context.sentBeforeTs
  navigation := navigation
  scopeDialogIds := scopeDialogIds
  directChatExcluded := context.directChatExcluded

/-- What the decoder is told to expect. -/
def expected (view : AccountTraceView) : AccountTraceNavigationContext where
  expectedTargetUserId := context.targetUserId
  expectedGroupBy := context.groupBy
  expectedView := view
  expectedExactDialogId := context.exactDialogId
  expectedExactTopicId := context.exactTopicId
  expectedSentAfter := context.sentAfter
  expectedSentBefore := context.sentBefore

/-- The token that ends at a position. -/
def token (view : AccountTraceView) (scopeDialogIds : Option (List ℤ)) (last : TracePosition) :
    AccountTraceNavigationToken where
  targetUserId := context.targetUserId
  sentAt := last.sentAt
  dialogId := last.dialogId
  messageId := last.messageId
  groupBy := context.groupBy
  view := view
  exactDialogId := context.exactDialogId
  exactTopicId := context.exactTopicId
  sentAfter := context.sentAfter
  sentBefore := context.sentBefore
  scopeDialogIds := scopeDialogIds

end TraceQueryContext

/-- The position of a row of the messages view. -/
def TraceEvidence.position (row : TraceEvidence) : TracePosition :=
  ⟨row.message.sentAt, row.message.dialogId, row.message.messageId⟩

/-- The position of a row of the dialogs view. -/
def TraceDialogSummary.position (row : TraceDialogSummary) : TracePosition :=
  ⟨row.lastMessageAt, row.dialogId, 0⟩

/-! ## Pages -/

/-- `_trace_next_navigation`. -/
def traceNextNavigation {α : Type} (next : α → AccountTraceNavigationToken) (rows selected : List α)
    (limit : ℕ) : Option AccountTraceNavigationToken :=
  if rows.length ≤ limit then none else selected.getLast?.map next

namespace TraceQueryContext

variable (context : TraceQueryContext) (store : TraceStore)

/-- The rows of a view and the next navigation, for a scope and a navigation. -/
def selectPage {α : Type} (view : AccountTraceView)
    (fetch : TraceMessageQueryRequest → List α) (position : α → TracePosition)
    (scopeDialogIds : Option (List ℤ)) (navigation : Option TracePosition) :
    List α × Option AccountTraceNavigationToken :=
  let rows := fetch (context.query scopeDialogIds navigation (context.limit + 1))
  let selected := rows.take context.limit
  (selected, traceNextNavigation
    (fun row => context.token view scopeDialogIds (position row)) rows selected context.limit)

/-- A page of a view.  A continuation takes its scope from the token. -/
def page {α : Type} (view : AccountTraceView) (fetch : TraceMessageQueryRequest → List α)
    (position : α → TracePosition) :
    Option AccountTraceNavigationToken →
      Navigation (List α × Option AccountTraceNavigationToken)
  | none => .ok (context.selectPage view fetch position context.scopeDialogIds none)
  | some token =>
    (readAccountTraceNavigation token.payload (context.expected view)).map fun decoded =>
      context.selectPage view fetch position decoded.scopeDialogIds
        (some ⟨decoded.sentAt, decoded.dialogId, decoded.messageId⟩)

/-- A page of the messages view. -/
def messagesPage := context.page .messages (·.evidencePage store) TraceEvidence.position

/-- A page of the dialogs view. -/
def dialogsPage := context.page .dialogs (·.dialogSummaryPage store) TraceDialogSummary.position

end TraceQueryContext

/-- `_trace_authorship_basis_counts` of the messages view: the number of rows of a basis, which the
dictionary leaves out when it is zero. -/
def messagesBasisCount (basis : AuthorshipBasis) (rows : List TraceEvidence) : ℤ :=
  rows.countP (·.authorshipBasis = basis)

/-- `_trace_authorship_basis_counts` of the dialogs view. -/
def dialogsBasisCount (basis : AuthorshipBasis) (rows : List TraceDialogSummary) : ℤ :=
  let signatureCount := (rows.map (·.signatureMessageCount)).sum
  let totalCount := (rows.map (·.messageCount)).sum
  match basis with
  | .effectiveSenderId => totalCount - signatureCount
  | .postAuthorSignature => signatureCount

/-! ## Following a view -/

section Follow

variable {context : TraceQueryContext} {store : TraceStore} {α : Type}

theorem read_token (view : AccountTraceView) (position : TracePosition) :
    readAccountTraceNavigation (context.token view context.scopeDialogIds position).payload
        (context.expected view) =
      .ok (context.token view context.scopeDialogIds position) :=
  AccountTraceNavigationToken.read_payload.mpr context.scope_bounded

/-- A page is the limited form of the rows that are fetched. -/
theorem selectPage_limited (view : AccountTraceView) (fetch : TraceMessageQueryRequest → List α)
    (position : α → TracePosition) (navigation : Option TracePosition) :
    (.ok (context.selectPage view fetch position context.scopeDialogIds navigation) :
        Navigation (List α × Option AccountTraceNavigationToken)) =
      limited context.limit
        (fun row => .ok (context.token view context.scopeDialogIds (position row)))
        (fetch (context.query context.scopeDialogIds navigation (context.limit + 1))) := by
  rw [TraceQueryContext.selectPage, limited, traceNextNavigation]
  rcases hlast : ((fetch (context.query context.scopeDialogIds navigation
      (context.limit + 1))).take context.limit).getLast? with _ | last
  · simp
  · dsimp only
    split_ifs with hfits
    · rfl
    · rfl

/-- A view whose rows are sorted by a key, of which the position of a row is the value, is followed
through all of its rows. -/
theorem follow_view {κ : Type*} [LinearOrder κ] {view : AccountTraceView}
    {fetch : TraceMessageQueryRequest → List α} {position : α → TracePosition} (key : α → κ)
    {rows : List α} (hkeys : (rows.map key).Nodup)
    (hfirst : fetch (context.query context.scopeDialogIds none (context.limit + 1)) =
      (greatestFirst key rows).take (context.limit + 1)) (hnext : ∀ last ∈ rows,
      fetch (context.query context.scopeDialogIds (some (position last)) (context.limit + 1)) =
        (greatestFirst key (rows.filter fun row => key row < key last)).take
          (context.limit + 1)) :
    ∃ fuel pages, followPages (context.page view fetch position) fuel none = some pages ∧
      pages.flatten = greatestFirst key rows := by
  have hvisits : Visits (context.page view fetch position) (greatestFirst key rows) := by
    refine visits_greatestFirst key hkeys context.limit_pos
      (fun row => context.token view context.scopeDialogIds (position row)) ?_ fun last hlast => ?_
    · rw [TraceQueryContext.page, selectPage_limited, hfirst]
    · rw [TraceQueryContext.page, read_token, ← hnext last hlast]
      exact selectPage_limited view fetch position (some (position last))
  obtain ⟨fuel, hfollow⟩ := hvisits
  rw [follow_eq_flatten] at hfollow
  obtain ⟨pages, hpages, hflatten⟩ := Option.map_eq_some_iff.mp hfollow
  exact ⟨fuel, pages, hpages, hflatten⟩

end Follow

/-! ## What the views return -/

section Views

variable (context : TraceQueryContext) (store : TraceStore)

/-- The query of the trace, without a navigation. -/
def TraceQueryContext.whole : TraceMessageQueryRequest :=
  context.query context.scopeDialogIds none (context.limit + 1)

/-- The messages view is complete: the pages hold each matching message once, the latest first. -/
structure MessagesComplete (pages : List (List TraceEvidence)) : Prop where
  descending : (pages.flatten.map TraceEvidence.message).Pairwise fun m m' => m'.order < m.order
  mem_iff : ∀ m, m ∈ pages.flatten.map TraceEvidence.message ↔
    m ∈ store.messages ∧ m.Matches context.whole

/-- The dialogs view summarises rows: one summary for each of their dialogs, with the number and the
bounds of the dialog's rows. -/
structure Summarises (rows : List TraceEvidence) (pages : List (List TraceDialogSummary)) :
    Prop where
  once : (pages.flatten.map TraceDialogSummary.dialogId).Nodup
  mem_iff : ∀ dialogId, dialogId ∈ pages.flatten.map TraceDialogSummary.dialogId ↔
    ∃ row ∈ rows, row.message.dialogId = dialogId
  count : ∀ summary ∈ pages.flatten,
    summary.messageCount = rows.countP (·.message.dialogId = summary.dialogId)
  first : ∀ summary ∈ pages.flatten, IsLeast
    {sentAt | ∃ row ∈ rows, row.message.dialogId = summary.dialogId ∧ row.message.sentAt = sentAt}
    summary.firstMessageAt
  last : ∀ summary ∈ pages.flatten, IsGreatest
    {sentAt | ∃ row ∈ rows, row.message.dialogId = summary.dialogId ∧ row.message.sentAt = sentAt}
    summary.lastMessageAt

/-- The two views, followed to their ends, are complete. -/
structure ViewsComplete (messages : List (List TraceEvidence))
    (dialogs : List (List TraceDialogSummary)) : Prop where
  messagesPages : ∃ fuel, followPages (context.messagesPage store) fuel none = some messages
  dialogsPages : ∃ fuel, followPages (context.dialogsPage store) fuel none = some dialogs
  complete : MessagesComplete context store messages
  summarises : Summarises messages.flatten dialogs

/-- Besides, they agree on the authorship bases. -/
structure ViewsAgree (messages : List (List TraceEvidence))
    (dialogs : List (List TraceDialogSummary)) : Prop
    extends ViewsComplete context store messages dialogs where
  basis : ∀ basis, (messages.map (messagesBasisCount basis)).sum =
    (dialogs.map (dialogsBasisCount basis)).sum

end Views

section Agreement

variable {context : TraceQueryContext} {store : TraceStore}
variable {pages : List (List TraceEvidence)} {dialogs : List (List TraceDialogSummary)}

/-- Following the messages view. -/
theorem follow_messages :
    ∃ fuel pages, followPages (context.messagesPage store) fuel none = some pages ∧
      pages.flatten =
        greatestFirst TraceEvidence.order (context.whole.evidenceRows store) := by
  refine follow_view TraceEvidence.order context.whole.evidenceRows_keys ?_ fun last hlast => ?_
  · exact TraceMessageQueryRequest.evidencePage_none rfl
  · exact TraceMessageQueryRequest.evidencePage_some rfl

/-- Following the dialogs view. -/
theorem follow_dialogs :
    ∃ fuel pages, followPages (context.dialogsPage store) fuel none = some pages ∧
      pages.flatten =
        greatestFirst TraceDialogSummary.order (context.whole.dialogSummaries store) := by
  refine follow_view TraceDialogSummary.order context.whole.dialogSummaries_keys ?_
    fun last hlast => ?_
  · exact TraceMessageQueryRequest.dialogSummaryPage_none rfl
  · exact TraceMessageQueryRequest.dialogSummaryPage_some rfl

/-- The rows of the messages view are the matching messages. -/
theorem evidenceRows_message :
    (context.whole.evidenceRows store).map TraceEvidence.message =
      context.whole.matchingMessages store := by
  rw [TraceMessageQueryRequest.evidenceRows, List.map_map]
  exact List.map_id _

/-- The messages view is complete. -/
theorem messages_complete
    (hpages : pages.flatten = greatestFirst TraceEvidence.order (context.whole.evidenceRows store)) :
    MessagesComplete context store pages where
  descending := by
    rw [hpages, List.pairwise_map]
    exact greatestFirst_pairwise TraceEvidence.order context.whole.evidenceRows_keys
  mem_iff m := by
    have hperm := (greatestFirst_perm TraceEvidence.order
      (context.whole.evidenceRows store)).map TraceEvidence.message
    rw [hpages, hperm.mem_iff, evidenceRows_message,
      TraceMessageQueryRequest.mem_matchingMessages]

/-- `MIN` of a group that is not empty. -/
theorem isLeast_min? {times : List ℤ} (h : times ≠ []) :
    IsLeast {time | time ∈ times} (times.min?.getD 0) := by
  obtain ⟨time, htime⟩ := Option.isSome_iff_exists.mp (List.isSome_min?_of_ne_nil h)
  rw [htime, Option.getD_some]
  exact List.min?_eq_some_iff.mp htime

/-- `MAX` of a group that is not empty. -/
theorem isGreatest_max? {times : List ℤ} (h : times ≠ []) :
    IsGreatest {time | time ∈ times} (times.max?.getD 0) := by
  obtain ⟨time, htime⟩ := Option.isSome_iff_exists.mp (List.isSome_max?_of_ne_nil h)
  rw [htime, Option.getD_some]
  exact List.max?_eq_some_iff.mp htime

/-- A dialog of the rows, and the times of its rows, in the matching messages. -/
theorem summary_times {dialogId sentAt : ℤ}
    (hpages : pages.flatten = greatestFirst TraceEvidence.order (context.whole.evidenceRows store)) :
    (∃ row ∈ pages.flatten, row.message.dialogId = dialogId ∧ row.message.sentAt = sentAt) ↔
      sentAt ∈ ((context.whole.matchingMessages store).filter
        (·.dialogId = dialogId)).map TraceMessage.sentAt := by
  rw [hpages, List.mem_map]
  simp only [(greatestFirst_perm _ _).mem_iff, List.mem_filter, decide_eq_true_iff,
    ← evidenceRows_message, List.mem_map]
  constructor
  · rintro ⟨row, hrow, hdialog, hsent⟩
    exact ⟨row.message, ⟨⟨row, hrow, rfl⟩, hdialog⟩, hsent⟩
  · rintro ⟨_, ⟨⟨row, hrow, rfl⟩, hdialog⟩, hsent⟩
    exact ⟨row, hrow, hdialog, hsent⟩

/-- A summary is that of a dialog with a matching message. -/
theorem mem_dialogSummaries {summary : TraceDialogSummary} :
    summary ∈ context.whole.dialogSummaries store ↔
      (∃ m ∈ context.whole.matchingMessages store, m.dialogId = summary.dialogId) ∧
        summary = context.whole.dialogSummary store summary.dialogId := by
  rw [TraceMessageQueryRequest.dialogSummaries, List.mem_map]
  constructor
  · rintro ⟨dialogId, hdialog, rfl⟩
    rw [List.mem_dedup, List.mem_map] at hdialog
    exact ⟨hdialog, rfl⟩
  · rintro ⟨hdialog, hsummary⟩
    refine ⟨summary.dialogId, ?_, hsummary.symm⟩
    rw [List.mem_dedup, List.mem_map]
    exact hdialog

/-- The dialogs view summarises the messages view. -/
theorem dialogs_summarise
    (hpages : pages.flatten = greatestFirst TraceEvidence.order (context.whole.evidenceRows store))
    (hdialogs : dialogs.flatten =
      greatestFirst TraceDialogSummary.order (context.whole.dialogSummaries store)) :
    Summarises pages.flatten dialogs := by
  have hmem : ∀ summary, summary ∈ dialogs.flatten ↔
      summary ∈ context.whole.dialogSummaries store := fun summary => by
    rw [hdialogs, (greatestFirst_perm _ _).mem_iff]
  have hperm := (greatestFirst_perm TraceDialogSummary.order
    (context.whole.dialogSummaries store)).map TraceDialogSummary.dialogId
  have hmessage : ∀ dialogId, (∃ row ∈ pages.flatten, row.message.dialogId = dialogId) ↔
      ∃ m ∈ context.whole.matchingMessages store, m.dialogId = dialogId := fun dialogId => by
    simp only [hpages, (greatestFirst_perm _ _).mem_iff, ← evidenceRows_message, List.mem_map,
      exists_exists_and_eq_and]
  -- the group of a summary is not empty, so its bounds are attained
  have hgroup : ∀ summary ∈ dialogs.flatten,
      ((context.whole.matchingMessages store).filter
        (·.dialogId = summary.dialogId)).map TraceMessage.sentAt ≠ [] := by
    intro summary hsummary
    obtain ⟨⟨m, hm, hdialog⟩, -⟩ := mem_dialogSummaries.mp ((hmem summary).mp hsummary)
    exact List.ne_nil_of_mem (List.mem_map_of_mem
      (List.mem_filter.mpr ⟨hm, decide_eq_true hdialog⟩))
  refine ⟨?_, fun dialogId => ?_, fun summary hsummary => ?_, fun summary hsummary => ?_,
    fun summary hsummary => ?_⟩
  · rw [hdialogs, hperm.nodup_iff]
    exact TraceMessageQueryRequest.dialogSummaries_dialogIds
  · rw [hdialogs, hperm.mem_iff, hmessage, TraceMessageQueryRequest.dialogSummaries, List.map_map]
    have hsame : TraceDialogSummary.dialogId ∘ context.whole.dialogSummary store = id := rfl
    rw [hsame, List.map_id, List.mem_dedup, List.mem_map]
  · obtain ⟨-, heq⟩ := mem_dialogSummaries.mp ((hmem summary).mp hsummary)
    rw [heq, hpages, (greatestFirst_perm _ _).countP_eq]
    rw [TraceMessageQueryRequest.dialogSummary, ← evidenceRows_message, List.filter_map,
      List.length_map, ← List.countP_eq_length_filter]
    rfl
  · obtain ⟨-, heq⟩ := mem_dialogSummaries.mp ((hmem summary).mp hsummary)
    rw [heq]
    simp only [summary_times hpages]
    exact isLeast_min? (hgroup summary hsummary)
  · obtain ⟨-, heq⟩ := mem_dialogSummaries.mp ((hmem summary).mp hsummary)
    rw [heq]
    simp only [summary_times hpages]
    exact isGreatest_max? (hgroup summary hsummary)

/-! ## The authorship bases -/

/-- The counts of the pages of messages add up to those of all rows. -/
theorem sum_messagesBasisCount (basis : AuthorshipBasis) (pages : List (List TraceEvidence)) :
    (pages.map (messagesBasisCount basis)).sum = messagesBasisCount basis pages.flatten := by
  induction pages with
  | nil => rfl
  | cons rows pages ih =>
    rw [List.map_cons, List.sum_cons, ih, List.flatten_cons]
    simp only [messagesBasisCount, List.countP_append, Nat.cast_add]

/-- The counts of the pages of dialogs add up to those of all summaries. -/
theorem sum_dialogsBasisCount (basis : AuthorshipBasis) (pages : List (List TraceDialogSummary)) :
    (pages.map (dialogsBasisCount basis)).sum = dialogsBasisCount basis pages.flatten := by
  induction pages with
  | nil => cases basis <;> rfl
  | cons rows pages ih =>
    rw [List.map_cons, List.sum_cons, ih, List.flatten_cons]
    cases basis with
    | effectiveSenderId =>
      simp only [dialogsBasisCount, List.map_append, List.sum_append]
      ring
    | postAuthorSignature => simp only [dialogsBasisCount, List.map_append, List.sum_append]

/-- The groups of a list count what the list counts. -/
theorem sum_countP_groups {β γ : Type} [DecidableEq γ] (f : β → γ) (p : β → Bool) {keys : List γ}
    (hkeys : keys.Nodup) (items : List β) (hmem : ∀ item ∈ items, f item ∈ keys) :
    (keys.map fun key => ((items.filter (f · = key)).countP p : ℤ)).sum = items.countP p := by
  induction keys generalizing items with
  | nil =>
    have hnil : items = [] :=
      List.eq_nil_iff_forall_not_mem.mpr fun item hitem => List.not_mem_nil (hmem item hitem)
    rw [hnil]
    rfl
  | cons key keys ih =>
    rw [List.nodup_cons] at hkeys
    have hrest := ih hkeys.2 (items.filter fun item => !decide (f item = key))
      fun item hitem => by
        rw [List.mem_filter, Bool.not_eq_true', decide_eq_false_iff_not] at hitem
        exact (List.mem_cons.mp (hmem item hitem.1)).resolve_left hitem.2
    have hsame : ∀ key' ∈ keys,
        (((items.filter fun item => !decide (f item = key)).filter (f · = key')).countP p : ℤ) =
          (items.filter (f · = key')).countP p := by
      intro key' hkey'
      rw [List.filter_filter]
      congr 2
      refine List.filter_congr fun item _ => ?_
      have hne : f item = key' → f item ≠ key := fun h h' => hkeys.1 (h' ▸ h.symm ▸ hkey')
      by_cases h : f item = key'
      · simp [h, h ▸ hne h]
      · simp [h]
    rw [List.map_congr_left hsame] at hrest
    rw [List.map_cons, List.sum_cons, hrest, List.countP_eq_countP_filter_add items p (f · = key),
      Nat.cast_add]

/-- The messages view counts a basis by the sender of a message. -/
theorem messagesBasisCount_rows (rows : List TraceEvidence)
    (hperm : rows.Perm (context.whole.evidenceRows store)) (basis : AuthorshipBasis) :
    messagesBasisCount basis rows =
      (context.whole.matchingMessages store).countP fun m =>
        (context.whole.evidenceRow store m).authorshipBasis = basis := by
  rw [messagesBasisCount, hperm.countP_eq, TraceMessageQueryRequest.evidenceRows, List.countP_map]
  rfl

/-- The dialogs view counts a basis by the signature of a message. -/
theorem dialogsBasisCount_rows (rows : List TraceDialogSummary)
    (hperm : rows.Perm (context.whole.dialogSummaries store)) (basis : AuthorshipBasis) :
    dialogsBasisCount basis rows =
      (context.whole.matchingMessages store).countP fun m =>
        (if m.postAuthor = none then AuthorshipBasis.effectiveSenderId
          else .postAuthorSignature) = basis := by
  have hmem : ∀ m ∈ context.whole.matchingMessages store,
      m.dialogId ∈ ((context.whole.matchingMessages store).map TraceMessage.dialogId).dedup :=
    fun m hm => List.mem_dedup.mpr (List.mem_map_of_mem hm)
  have htotal : (rows.map (·.messageCount)).sum =
      (context.whole.matchingMessages store).length := by
    rw [(hperm.map _).sum_eq, TraceMessageQueryRequest.dialogSummaries, List.map_map]
    have hcount := sum_countP_groups TraceMessage.dialogId (fun _ => true) (List.nodup_dedup _)
      (context.whole.matchingMessages store) hmem
    simp only [List.countP_true] at hcount
    exact hcount
  have hsignature : (rows.map (·.signatureMessageCount)).sum =
      (context.whole.matchingMessages store).countP (·.postAuthor.isSome) := by
    rw [(hperm.map _).sum_eq, TraceMessageQueryRequest.dialogSummaries, List.map_map]
    exact sum_countP_groups TraceMessage.dialogId (·.postAuthor.isSome) (List.nodup_dedup _)
      (context.whole.matchingMessages store) hmem
  cases basis with
  | effectiveSenderId =>
    have hsplit : (context.whole.matchingMessages store).length = _ :=
      List.length_eq_countP_add_countP fun m : TraceMessage => m.postAuthor.isSome
    have hnone : (context.whole.matchingMessages store).countP
        (fun m => decide (¬ m.postAuthor.isSome = true)) =
        (context.whole.matchingMessages store).countP fun m =>
          decide ((if m.postAuthor = none then AuthorshipBasis.effectiveSenderId
            else .postAuthorSignature) = .effectiveSenderId) := by
      refine List.countP_congr fun m _ => ?_
      cases m.postAuthor <;> simp
    rw [dialogsBasisCount, htotal, hsignature]
    omega
  | postAuthorSignature =>
    rw [dialogsBasisCount, hsignature]
    congr 1
    refine List.countP_congr fun m _ => ?_
    cases m.postAuthor <;> simp

/-- A test that is implied by another one counts as much exactly when it implies the other one. -/
theorem countP_eq_iff {β : Type} {p q : β → Bool} {items : List β}
    (h : ∀ item ∈ items, p item = true → q item = true) :
    items.countP q = items.countP p ↔ ∀ item ∈ items, q item = true → p item = true := by
  have hsplit := List.countP_eq_countP_filter_add items q p
  have hfirst : (items.filter p).countP q = items.countP p := by
    rw [List.countP_filter]
    refine List.countP_congr fun item hitem => ?_
    rw [Bool.and_eq_true]
    exact ⟨fun hboth => hboth.2, fun hp => ⟨h item hitem hp, hp⟩⟩
  rw [hsplit, hfirst, Nat.add_eq_left, List.countP_eq_zero]
  simp only [List.mem_filter, Bool.not_eq_true', and_imp]
  refine forall₂_congr fun item _ => ?_
  cases p item <;> cases q item <;> simp

/-- What is not counted for one basis is counted for the other. -/
theorem countP_signature {β : Type} (f : β → AuthorshipBasis) (items : List β) :
    items.length = items.countP (fun item => f item = .effectiveSenderId) +
      items.countP fun item => f item = .postAuthorSignature := by
  rw [List.length_eq_countP_add_countP fun item => decide (f item = .effectiveSenderId)]
  congr 1
  refine List.countP_congr fun item _ => ?_
  cases f item <;> simp

/-- Two ways to name a basis count alike when they count the senders alike. -/
theorem countP_basis_iff {β : Type} {f g : β → AuthorshipBasis} {items : List β} :
    (∀ basis, items.countP (fun item => f item = basis) =
      items.countP fun item => g item = basis) ↔
      items.countP (fun item => f item = .effectiveSenderId) =
        items.countP fun item => g item = .effectiveSenderId := by
  constructor
  · intro h
    exact h .effectiveSenderId
  · intro h basis
    cases basis with
    | effectiveSenderId => exact h
    | postAuthorSignature =>
      have hf := countP_signature f items
      have hg := countP_signature g items
      omega

/-- The senders are counted alike exactly when no matching message of the target is signed. -/
theorem countP_sender_iff :
    (context.whole.matchingMessages store).countP
        (fun m => (context.whole.evidenceRow store m).authorshipBasis = .effectiveSenderId) =
      ((context.whole.matchingMessages store).countP fun m =>
        (if m.postAuthor = none then AuthorshipBasis.effectiveSenderId
          else .postAuthorSignature) = .effectiveSenderId) ↔
    ∀ m ∈ context.whole.matchingMessages store,
      m.effectiveSenderId context.selfId = some context.targetUserId → m.postAuthor = none := by
  have hrow : ∀ m : TraceMessage,
      decide ((context.whole.evidenceRow store m).authorshipBasis = .effectiveSenderId) = true ↔
        m.effectiveSenderId context.selfId = some context.targetUserId := by
    intro m
    rw [decide_eq_true_iff]
    change (if _ then _ else _) = _ ↔ _
    split_ifs with h
    · exact iff_of_true rfl h
    · exact iff_of_false nofun h
  have hunsigned : ∀ m : TraceMessage,
      decide ((if m.postAuthor = none then AuthorshipBasis.effectiveSenderId
        else .postAuthorSignature) = .effectiveSenderId) = true ↔ m.postAuthor = none := by
    intro m
    cases m.postAuthor <;> simp
  rw [countP_eq_iff]
  · simp only [hrow, hunsigned]
  · -- a matching message without a signature is sent by the target
    intro m hm hnone
    rw [hunsigned] at hnone
    rw [hrow]
    obtain ⟨-, hmatches⟩ := TraceMessageQueryRequest.mem_matchingMessages.mp hm
    refine hmatches.authored.resolve_right ?_
    rintro ⟨signature, -, hsome⟩
    rw [hnone] at hsome
    cases hsome

/-- The counts of the bases agree exactly when no message of the target carries a signature. -/
theorem basis_agree_iff {messages : List (List TraceEvidence)} (hmessages : messages.flatten =
      greatestFirst TraceEvidence.order (context.whole.evidenceRows store))
    (hdialogs : dialogs.flatten =
      greatestFirst TraceDialogSummary.order (context.whole.dialogSummaries store)) :
    (∀ basis, (messages.map (messagesBasisCount basis)).sum =
        (dialogs.map (dialogsBasisCount basis)).sum) ↔
      ∀ m ∈ store.messages, m.Matches context.whole →
        m.effectiveSenderId context.selfId = some context.targetUserId → m.postAuthor = none := by
  have hrows := greatestFirst_perm TraceEvidence.order (context.whole.evidenceRows store)
  have hsummaries :=
    greatestFirst_perm TraceDialogSummary.order (context.whole.dialogSummaries store)
  simp only [sum_messagesBasisCount, sum_dialogsBasisCount, hmessages, hdialogs,
    messagesBasisCount_rows _ hrows, dialogsBasisCount_rows _ hsummaries, Nat.cast_inj]
  rw [countP_basis_iff, countP_sender_iff]
  simp only [TraceMessageQueryRequest.mem_matchingMessages, and_imp]

/-- In every store, and for every request, the two views end and are complete.  Their authorship
bases agree if and only if no message of the trace that the target has sent carries a signature:
the messages view counts such a message by its sender, the dialogs view by its signature. -/
theorem account_trace_views_agree_iff (context : TraceQueryContext) (store : TraceStore) :
    (∃ messages dialogs, ViewsComplete context store messages dialogs) ∧
      ((∃ messages dialogs, ViewsAgree context store messages dialogs) ↔
        ∀ m ∈ store.messages, m.Matches context.whole →
          m.effectiveSenderId context.selfId = some context.targetUserId →
            m.postAuthor = none) := by
  obtain ⟨fuel, messages, hmessages, hrows⟩ := @follow_messages context store
  obtain ⟨fuel', dialogs, hdialogs, hsummaries⟩ :=
    @follow_dialogs context store
  have hcomplete : ViewsComplete context store messages dialogs :=
    { messagesPages := ⟨fuel, hmessages⟩
      dialogsPages := ⟨fuel', hdialogs⟩
      complete := messages_complete hrows
      summarises := dialogs_summarise hrows hsummaries }
  refine ⟨⟨messages, dialogs, hcomplete⟩, ?_⟩
  rw [← basis_agree_iff hrows hsummaries]
  constructor
  · rintro ⟨messages', dialogs', hagree⟩
    obtain ⟨_, hmessages'⟩ := hagree.messagesPages
    obtain ⟨_, hdialogs'⟩ := hagree.dialogsPages
    obtain rfl := followPages_unique hmessages hmessages'
    obtain rfl := followPages_unique hdialogs hdialogs'
    exact hagree.basis
  · intro hbasis
    exact ⟨messages, dialogs, { hcomplete with basis := hbasis }⟩

/-- One message in a channel, sent by the target and signed. -/
def signedStore : TraceStore where
  messages := [{
    dialogId := -1000, messageId := 7, sentAt := 100, text := some "news", senderId := some 5
    mediaKind := none, mediaPayload := none, forumTopicId := none, out := 0, isService := 0
    postAuthor := some "Editor", isDeleted := 0 }]
  topicTitle _ _ := none
  keys := by decide

/-- A trace of the sender. -/
def signedContext : TraceQueryContext where
  targetUserId := 5
  selfId := none
  postAuthorAliases := []
  directChatExcluded := true
  groupBy := .timeline
  limit := 50
  exactDialogId := none
  exactTopicId := none
  sentAfter := none
  sentBefore := none
  sentAfterTs := none
  sentBeforeTs := none
  scopeDialogIds := none
  limit_pos := by decide
  scope_bounded := nofun

/-- The messages view counts the signed message of the target by its sender, the dialogs view by its
signature. -/
theorem signed_message_disagrees :
    ¬ ∃ messages dialogs, ViewsAgree signedContext signedStore messages dialogs := by
  rintro ⟨messages, dialogs, hagree⟩
  obtain ⟨_, hmessages⟩ := hagree.messagesPages
  obtain ⟨_, hdialogs⟩ := hagree.dialogsPages
  have hrow : followPages (signedContext.messagesPage signedStore) 1 none =
      some [signedContext.whole.evidenceRows signedStore] := by rfl
  have hsummary : followPages (signedContext.dialogsPage signedStore) 1 none =
      some [signedContext.whole.dialogSummaries signedStore] := by rfl
  obtain rfl := followPages_unique hrow hmessages
  obtain rfl := followPages_unique hsummary hdialogs
  have hbasis := hagree.basis .effectiveSenderId
  revert hbasis
  decide

end Agreement

end McpTelegram
