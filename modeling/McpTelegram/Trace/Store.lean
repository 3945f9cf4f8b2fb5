import McpTelegram.Foundations.KeysetOrder
import McpTelegram.Navigation.RoundTrip

/-!
# The queries of an account trace

`account_trace_sqlite.py`: the candidate queries, the scope and the bounds, the evidence query and
the dialog summary query.  A row of `messages` has the columns that they read; a column that may be
`NULL` is an `Option`.  The dialog's title and type, which are constants of the statements, are
left out.
-/

namespace McpTelegram

open Foundations

/-! ## Rows -/

/-- A row of `messages`. -/
structure TraceMessage where
  dialogId : ℤ
  messageId : ℤ
  sentAt : ℤ
  text : Option String
  senderId : Option ℤ
  mediaKind : Option String
  mediaPayload : Option String
  forumTopicId : Option ℤ
  out : ℤ
  isService : ℤ
  postAuthor : Option String
  isDeleted : ℤ
  deriving DecidableEq

/-- The primary key. -/
def TraceMessage.key (message : TraceMessage) : ℤ × ℤ := (message.dialogId, message.messageId)

/-- The columns of `ORDER BY m.sent_at DESC, m.dialog_id DESC, m.message_id DESC`. -/
def TraceMessage.order (message : TraceMessage) : ℤ ×ₗ ℤ ×ₗ ℤ :=
  toLex (message.sentAt, toLex (message.dialogId, message.messageId))

/-- The tables that a trace reads. -/
structure TraceStore where
  messages : List TraceMessage
  /-- The title of a topic, by the primary key of `topic_metadata`. -/
  topicTitle : ℤ → ℤ → Option String
  /-- The primary key of `messages`. -/
  keys : (messages.map TraceMessage.key).Nodup

/-- `navigation` of a query: where the page before ended. -/
structure TracePosition where
  sentAt : ℤ
  dialogId : ℤ
  messageId : ℤ

/-- `TraceMessageQueryRequest`. -/
structure TraceMessageQueryRequest where
  targetUserId : ℤ
  selfId : Option ℤ
  limit : ℕ
  postAuthorAliases : List String := []
  exactDialogId : Option ℤ := none
  exactTopicId : Option ℤ := none
  sentAfterTs : Option ℤ := none
  sentBeforeTs : Option ℤ := none
  navigation : Option TracePosition := none
  scopeDialogIds : Option (List ℤ) := none
  directChatExcluded : Bool := false

/-- `_EFFECTIVE_SENDER_ID_EXPR`. -/
def TraceMessage.effectiveSenderId (selfId : Option ℤ) (message : TraceMessage) : Option ℤ :=
  message.senderId.or
    (if message.isService = 1 then none
    else if 0 < message.dialogId ∧ message.out = 1 then selfId
    else if 0 < message.dialogId ∧ message.out = 0 then some message.dialogId
    else none)

/-- `authorship_basis`. -/
inductive AuthorshipBasis
  | effectiveSenderId | postAuthorSignature
  deriving DecidableEq

/-- The condition of the navigation. -/
def TracePosition.admits (nav : TracePosition) (m : TraceMessage) : Bool :=
  m.sentAt < nav.sentAt ∨ (m.sentAt = nav.sentAt ∧ m.dialogId < nav.dialogId) ∨
    (m.sentAt = nav.sentAt ∧ m.dialogId = nav.dialogId ∧ m.messageId < nav.messageId)

namespace TraceMessageQueryRequest

variable (request : TraceMessageQueryRequest)

/-! ## Candidates -/

/-- `_trace_candidate_queries`: the conditions of the queries that are joined by `UNION`. -/
def traceCandidateQueries : List (TraceMessage → Bool) :=
  let queries : List (TraceMessage → Bool) := [
    fun m : TraceMessage =>
      m.isDeleted = 0 ∧ m.isService = 0 ∧ m.senderId = some request.targetUserId,
    fun m : TraceMessage =>
      m.isDeleted = 0 ∧ m.isService = 0 ∧ m.senderId = none ∧
        0 < m.dialogId ∧ m.out = 0 ∧ m.dialogId = request.targetUserId,
    fun m : TraceMessage =>
      m.isDeleted = 0 ∧ m.isService = 0 ∧ m.senderId = none ∧
        0 < m.dialogId ∧ m.out = 1 ∧ request.selfId = some request.targetUserId]
  let signed : TraceMessage → Bool := fun m =>
    m.isDeleted = 0 ∧ m.isService = 0 ∧
      ∃ signature ∈ request.postAuthorAliases, m.postAuthor = some signature
  if request.postAuthorAliases = [] then queries else queries ++ [signed]

/-- `candidate_messages`. -/
def candidateMessages (store : TraceStore) : List (ℤ × ℤ) :=
  (request.traceCandidateQueries.flatMap fun query =>
    (store.messages.filter query).map TraceMessage.key).dedup

/-- The candidates joined with their messages. -/
def joinedMessages (store : TraceStore) : List TraceMessage :=
  (request.candidateMessages store).flatMap fun key =>
    store.messages.filter (·.key = key)

/-! ## Scope and bounds -/

/-- `_apply_trace_query_scope`. -/
def applyTraceQueryScope (m : TraceMessage) : Bool :=
  match request.scopeDialogIds with
  | some (id :: ids) => m.dialogId ∈ id :: ids
  | _ =>
    request.exactDialogId.all (m.dialogId = ·) &&
      (!request.directChatExcluded || m.dialogId ≠ request.targetUserId)

/-- `_apply_trace_query_bounds`, with the condition of the navigation apart. -/
def applyTraceQueryBounds (m : TraceMessage) : Bool :=
  request.exactTopicId.all (m.forumTopicId = some ·) &&
    (request.sentAfterTs.all (· ≤ m.sentAt) && request.sentBeforeTs.all (m.sentAt ≤ ·))

/-- `matching_messages`: the joined messages in scope and within the bounds. -/
def matchingMessages (store : TraceStore) : List TraceMessage :=
  (request.joinedMessages store).filter fun m =>
    request.applyTraceQueryScope m && request.applyTraceQueryBounds m

end TraceMessageQueryRequest

/-! ## Evidence -/

/-- A row of the evidence query. -/
structure TraceEvidence where
  message : TraceMessage
  topicTitle : Option String
  effectiveSenderId : Option ℤ
  authorshipBasis : AuthorshipBasis
  deriving DecidableEq

/-- The columns of `ORDER BY`. -/
def TraceEvidence.order (row : TraceEvidence) : ℤ ×ₗ ℤ ×ₗ ℤ := row.message.order

/-- A row of the summary query. -/
structure TraceDialogSummary where
  dialogId : ℤ
  messageCount : ℤ
  firstMessageAt : ℤ
  lastMessageAt : ℤ
  signatureMessageCount : ℤ
  deriving DecidableEq

/-- The columns of `ORDER BY last_message_at DESC, mm.dialog_id DESC`. -/
def TraceDialogSummary.order (row : TraceDialogSummary) : ℤ ×ₗ ℤ :=
  toLex (row.lastMessageAt, row.dialogId)

/-- The condition of `HAVING`. -/
def TracePosition.having (nav : TracePosition) (row : TraceDialogSummary) : Bool :=
  row.lastMessageAt < nav.sentAt ∨
    (row.lastMessageAt = nav.sentAt ∧ row.dialogId < nav.dialogId)

namespace TraceMessageQueryRequest

variable (request : TraceMessageQueryRequest)

/-- The `SELECT` of `build_evidence_query`. -/
def evidenceRow (store : TraceStore) (m : TraceMessage) : TraceEvidence where
  message := m
  topicTitle := (m.forumTopicId.bind (store.topicTitle m.dialogId)).or
    (if m.forumTopicId = some 1 then some "General" else none)
  effectiveSenderId := m.effectiveSenderId request.selfId
  authorshipBasis :=
    if m.effectiveSenderId request.selfId = some request.targetUserId then .effectiveSenderId
    else .postAuthorSignature

/-- `evidence_page`. -/
def evidencePage (store : TraceStore) : List TraceEvidence :=
  let selected := (request.matchingMessages store).filter fun m =>
    request.navigation.all (·.admits m)
  (greatestFirst TraceEvidence.order (selected.map (request.evidenceRow store))).take request.limit

/-! ## Dialog summaries -/

/-- The aggregates of one group of `GROUP BY mm.dialog_id`. -/
def dialogSummary (store : TraceStore) (dialogId : ℤ) : TraceDialogSummary :=
  let group := (request.matchingMessages store).filter (·.dialogId = dialogId)
  { dialogId
    messageCount := group.length
    firstMessageAt := ((group.map TraceMessage.sentAt).min?).getD 0
    lastMessageAt := ((group.map TraceMessage.sentAt).max?).getD 0
    signatureMessageCount := group.countP (·.postAuthor.isSome) }

/-- The groups. -/
def dialogSummaries (store : TraceStore) : List TraceDialogSummary :=
  ((request.matchingMessages store).map TraceMessage.dialogId).dedup.map
    (request.dialogSummary store)

/-- `dialog_summary_page`. -/
def dialogSummaryPage (store : TraceStore) : List TraceDialogSummary :=
  let selected := (request.dialogSummaries store).filter fun row =>
    request.navigation.all (·.having row)
  (greatestFirst TraceDialogSummary.order selected).take request.limit

end TraceMessageQueryRequest

/-! ## What the queries select -/

/-- The messages that a trace is about: undeleted, not service messages, in scope and within the
bounds, sent by the target or signed with one of its aliases. -/
structure TraceMessage.Matches (request : TraceMessageQueryRequest) (m : TraceMessage) : Prop where
  undeleted : m.isDeleted = 0
  notService : m.isService = 0
  inScope : request.applyTraceQueryScope m = true
  inBounds : request.applyTraceQueryBounds m = true
  authored : m.effectiveSenderId request.selfId = some request.targetUserId ∨
    ∃ signature ∈ request.postAuthorAliases, m.postAuthor = some signature

namespace TraceMessageQueryRequest

variable {request : TraceMessageQueryRequest} {store : TraceStore} {m : TraceMessage}

/-- The sender of a message that is no service message. -/
theorem effectiveSenderId_eq {selfId : Option ℤ} {target : ℤ} (hservice : m.isService = 0) :
    m.effectiveSenderId selfId = some target ↔
      m.senderId = some target ∨ m.senderId = none ∧ 0 < m.dialogId ∧
        (m.out = 0 ∧ m.dialogId = target ∨ m.out = 1 ∧ selfId = some target) := by
  rw [TraceMessage.effectiveSenderId]
  cases hsender : m.senderId with
  | some sender => simp
  | none =>
    rw [Option.none_or, if_neg (by omega)]
    split_ifs with hout hin
    · simp [hout]
    · simp [hin]
    · simp only [false_or, true_and, false_iff]
      rintro ⟨hdialog, ⟨hzero, -⟩ | ⟨hone, -⟩⟩
      · exact hin ⟨hdialog, hzero⟩
      · exact hout ⟨hdialog, hone⟩

/-- A message is selected by a candidate query exactly when it is authored. -/
theorem candidate_iff :
    (∃ query ∈ request.traceCandidateQueries, query m = true) ↔
      m.isDeleted = 0 ∧ m.isService = 0 ∧
        (m.effectiveSenderId request.selfId = some request.targetUserId ∨
          ∃ signature ∈ request.postAuthorAliases, m.postAuthor = some signature) := by
  by_cases hlive : m.isDeleted = 0 ∧ m.isService = 0
  · rw [effectiveSenderId_eq hlive.2, traceCandidateQueries]
    split_ifs with haliases
    · simp only [List.mem_cons, List.not_mem_nil, or_false, exists_eq_or_imp, exists_eq_left,
        decide_eq_true_iff, haliases, hlive, false_and, exists_false, true_and]
      tauto
    · simp only [List.mem_append, List.mem_cons, List.not_mem_nil, or_false, or_assoc,
        exists_eq_or_imp, exists_eq_left, decide_eq_true_iff, hlive, true_and]
      tauto
  · refine iff_of_false ?_ fun h => hlive ⟨h.1, h.2.1⟩
    rintro ⟨query, hquery, htrue⟩
    rw [traceCandidateQueries] at hquery
    split_ifs at hquery <;>
      simp only [List.mem_append, List.mem_cons, List.not_mem_nil, or_false] at hquery
    · rcases hquery with rfl | rfl | rfl <;>
        exact hlive (by rw [decide_eq_true_iff] at htrue; exact ⟨htrue.1, htrue.2.1⟩)
    · rcases hquery with (rfl | rfl | rfl) | rfl <;>
        exact hlive (by rw [decide_eq_true_iff] at htrue; exact ⟨htrue.1, htrue.2.1⟩)

/-- A message is joined exactly when it is stored and selected by a candidate query: a key names
one message. -/
theorem mem_joinedMessages :
    m ∈ request.joinedMessages store ↔
      m ∈ store.messages ∧ ∃ query ∈ request.traceCandidateQueries, query m = true := by
  rw [joinedMessages, List.mem_flatMap]
  constructor
  · rintro ⟨key, hkey, hm⟩
    rw [List.mem_filter, decide_eq_true_iff] at hm
    rw [candidateMessages, List.mem_dedup, List.mem_flatMap] at hkey
    obtain ⟨query, hquery, hkey⟩ := hkey
    obtain ⟨m', hm', rfl⟩ := List.mem_map.mp hkey
    rw [List.mem_filter] at hm'
    obtain rfl := List.inj_on_of_nodup_map store.keys hm.1 hm'.1 hm.2
    exact ⟨hm.1, query, hquery, hm'.2⟩
  · rintro ⟨hm, query, hquery, htrue⟩
    refine ⟨m.key, ?_, List.mem_filter.mpr ⟨hm, decide_eq_true rfl⟩⟩
    rw [candidateMessages, List.mem_dedup, List.mem_flatMap]
    exact ⟨query, hquery, List.mem_map_of_mem (List.mem_filter.mpr ⟨hm, htrue⟩)⟩

/-- The union names no message twice. -/
theorem joinedMessages_keys : ((request.joinedMessages store).map TraceMessage.key).Nodup := by
  rw [joinedMessages, List.map_flatMap, List.nodup_flatMap]
  refine ⟨fun key _ => store.keys.sublist (List.filter_sublist.map TraceMessage.key), ?_⟩
  have hkeys : (request.candidateMessages store).Nodup := List.nodup_dedup _
  refine hkeys.imp fun {key key'} hne => ?_
  rw [Function.onFun, List.disjoint_left]
  intro found hfound hfound'
  obtain ⟨m, hm, rfl⟩ := List.mem_map.mp hfound
  obtain ⟨m', hm', hsame⟩ := List.mem_map.mp hfound'
  rw [List.mem_filter, decide_eq_true_iff] at hm hm'
  exact hne (hm.2.symm.trans (hsame.symm.trans hm'.2))

/-- The matching messages are the stored ones that match. -/
theorem mem_matchingMessages :
    m ∈ request.matchingMessages store ↔ m ∈ store.messages ∧ m.Matches request := by
  rw [matchingMessages, List.mem_filter, mem_joinedMessages, candidate_iff, Bool.and_eq_true]
  constructor
  · rintro ⟨⟨hm, hdeleted, hservice, hauthored⟩, hscope, hbounds⟩
    exact ⟨hm, hdeleted, hservice, hscope, hbounds, hauthored⟩
  · rintro ⟨hm, h⟩
    exact ⟨⟨hm, h.undeleted, h.notService, h.authored⟩, h.inScope, h.inBounds⟩

theorem matchingMessages_keys : ((request.matchingMessages store).map TraceMessage.key).Nodup :=
  joinedMessages_keys.sublist (List.filter_sublist.map TraceMessage.key)

/-! ## Pages -/

variable (request store)

/-- The rows of the evidence query without a navigation and a limit. -/
def evidenceRows : List TraceEvidence :=
  (request.matchingMessages store).map (request.evidenceRow store)

variable {request store}

/-- The order of the rows of evidence names each of them. -/
theorem evidenceRows_keys : ((request.evidenceRows store).map TraceEvidence.order).Nodup := by
  have hnodup := (@matchingMessages_keys request store).of_map
  rw [evidenceRows, List.map_map, List.nodup_map_iff_inj_on hnodup]
  intro m hm m' hm' hsame
  have hkey : m.key = m'.key := by
    have horder : m.order = m'.order := hsame
    simp only [TraceMessage.order, toLex_inj, Prod.mk.injEq] at horder
    exact Prod.ext horder.2.1 horder.2.2
  exact List.inj_on_of_nodup_map matchingMessages_keys hm hm' hkey

/-- Two messages in the lexicographic order of the columns. -/
theorem order_lt_iff {m m' : TraceMessage} :
    m.order < m'.order ↔
      (⟨m'.sentAt, m'.dialogId, m'.messageId⟩ : TracePosition).admits m = true := by
  rw [TraceMessage.order, TraceMessage.order, TracePosition.admits, decide_eq_true_iff,
    Prod.Lex.toLex_lt_toLex, Prod.Lex.toLex_lt_toLex]
  dsimp only
  tauto

/-- The first page of evidence. -/
theorem evidencePage_none (hnavigation : request.navigation = none) :
    request.evidencePage store =
      (greatestFirst TraceEvidence.order (request.evidenceRows store)).take request.limit := by
  rw [evidencePage, hnavigation, evidenceRows]
  simp only [Option.all_none, List.filter_true]

/-- The page of evidence below a message. -/
theorem evidencePage_some {m : TraceMessage}
    (hnavigation : request.navigation = some ⟨m.sentAt, m.dialogId, m.messageId⟩) :
    request.evidencePage store =
      (greatestFirst TraceEvidence.order
        ((request.evidenceRows store).filter fun row => row.order < m.order)).take
          request.limit := by
  rw [evidencePage, hnavigation, evidenceRows, List.filter_map]
  congr 4
  refine funext fun m' => ?_
  rw [Option.all_some, Bool.eq_iff_iff, ← order_lt_iff]
  exact decide_eq_true_iff.symm

/-- A dialog is summarised once. -/
theorem dialogSummaries_dialogIds :
    ((request.dialogSummaries store).map TraceDialogSummary.dialogId).Nodup := by
  rw [dialogSummaries, List.map_map]
  have hsame : TraceDialogSummary.dialogId ∘ request.dialogSummary store = id := rfl
  rw [hsame, List.map_id]
  exact List.nodup_dedup _

/-- The order of the summaries names each of them. -/
theorem dialogSummaries_keys :
    ((request.dialogSummaries store).map TraceDialogSummary.order).Nodup := by
  have hnodup := @dialogSummaries_dialogIds request store
  refine List.Nodup.map_on (fun row hrow row' hrow' hsame => ?_) hnodup.of_map
  simp only [TraceDialogSummary.order, toLex_inj, Prod.mk.injEq] at hsame
  exact List.inj_on_of_nodup_map hnodup hrow hrow' hsame.2

/-- The first page of summaries. -/
theorem dialogSummaryPage_none (hnavigation : request.navigation = none) :
    request.dialogSummaryPage store =
      (greatestFirst TraceDialogSummary.order (request.dialogSummaries store)).take
        request.limit := by
  rw [dialogSummaryPage, hnavigation]
  simp only [Option.all_none, List.filter_true]

/-- The page of summaries below a summary. -/
theorem dialogSummaryPage_some {last : TraceDialogSummary} {messageId : ℤ}
    (hnavigation : request.navigation = some ⟨last.lastMessageAt, last.dialogId, messageId⟩) :
    request.dialogSummaryPage store =
      (greatestFirst TraceDialogSummary.order
        ((request.dialogSummaries store).filter fun row => row.order < last.order)).take
          request.limit := by
  rw [dialogSummaryPage, hnavigation]
  congr 3
  refine funext fun row => ?_
  rw [Option.all_some, TracePosition.having, TraceDialogSummary.order, TraceDialogSummary.order,
    decide_eq_decide, Prod.Lex.toLex_lt_toLex]

end TraceMessageQueryRequest

end McpTelegram
