import McpTelegram.Foundations.Dictionary

/-!
# The scheduled queue mirror

`scheduled_messages.py`: the rows of scheduled messages, their full-text rows, the publication
evidence and the reconciliation state of a dialog.  Every function runs in the write transaction of
its caller.  The mutation fences that the functions invalidate live outside the database and are
left out.
-/

namespace McpTelegram

open Foundations

/-- `scheduled_messages.message_state`. -/
inductive ScheduledState where
  | scheduled | unknownMissing | cancelled | published
  deriving DecidableEq

/-- `scheduled_messages.visibility`. -/
inductive ScheduledVisibility where
  | authorOnly | chatVisible | unknown
  deriving DecidableEq

/-- The columns that `_scheduled_params` takes from a message. -/
structure ScheduledBody where
  scheduledAt : Option ℤ := none
  text : Option String := none
  senderId : Option ℤ := none
  senderFirstName : Option String := none
  mediaKind : Option String := none
  mediaPayload : Option String := none
  formattingEntities : Option String := none
  serviceAction : Option String := none
  replyToMsgId : Option ℤ := none
  forumTopicId : Option ℤ := none
  editDate : Option ℤ := none
  groupedId : Option ℤ := none
  replyToPeerId : Option ℤ := none
  out : Bool := true
  isService : Bool := false
  postAuthor : Option String := none
  scheduleRepeatPeriod : Option ℤ := none
  hasRichMessage : Option Bool := none
  invertMedia : Option Bool := none
  videoProcessingPending : Option Bool := none
  deriving DecidableEq

/-- A row of `scheduled_messages`.  A tombstone that was never upserted has no body. -/
structure ScheduledRow where
  body : Option ScheduledBody := none
  messageState : ScheduledState
  visibility : ScheduledVisibility := .authorOnly
  unpublished : Bool := true
  unseen : Bool := true
  publicationHintMessageId : Option ℤ := none
  publishedMessageId : Option ℤ := none
  publicationVerifiedAt : Option ℤ := none
  publishedAt : Option ℤ := none
  deletedAt : Option ℤ := none
  firstSeenAt : ℤ
  updatedAt : ℤ
  observationOrder : Option ℕ := none
  deriving DecidableEq

/-- A row of `scheduled_publication_evidence`. -/
structure PublicationEvidence where
  publishedAt : Option ℤ
  verifiedAt : ℤ
  deriving DecidableEq

/-- The values of `coverage_state`. -/
inductive ScheduledCoverage where
  | unknown | complete | inaccessible | unsupported
  deriving DecidableEq

/-- A row of `scheduled_reconciliation_state`. -/
structure ReconciliationState where
  repairDueAt : Option ℤ := none
  discoveryDueAt : Option ℤ := none
  dirtySince : Option ℤ := none
  dirtyGeneration : ℕ := 0
  updatedAt : ℤ
  coverageState : ScheduledCoverage := .unknown
  coverageReason : Option String := none
  snapshotObservationOrder : Option ℕ := none
  baselineObservedAt : Option ℤ := none
  authorizationPending : Bool := false
  directoryGeneration : Option ℤ := none
  acquisitionBlock : Option String := none
  deriving DecidableEq

/-- The tables of the mirror.  A row of the full-text table is a key with the stemmed text. -/
structure ScheduledStore where
  rows : Dictionary (ℤ × ℤ) ScheduledRow := ∅
  fts : List ((ℤ × ℤ) × String) := []
  evidence : Dictionary (ℤ × ℤ) PublicationEvidence := ∅
  reconciliation : Dictionary ℤ ReconciliationState := ∅
  lastSnapshotAt : Option ℤ := none
  nextRetryAt : Option ℤ := none

/-- A message of the queue, as `extract_message_row` reads it. -/
structure QueueMessage where
  id : ℤ
  extractedScheduledAt : Option ℤ := none
  sentAt : Option ℤ := none
  /-- The other columns; the schedule date of this record is not read. -/
  content : ScheduledBody := {}
  deriving DecidableEq

/-- What a snapshot reads of other tables: the lost peers and the published directory. -/
structure ScheduledReads where
  accessLost : ℤ → Bool := fun _ => false
  publishedGeneration : Option ℤ := none

/-- `scheduled_at` in `_scheduled_params`: a date of zero counts as no date. -/
def QueueMessage.scheduledAt (message : QueueMessage) : Option ℤ :=
  message.extractedScheduledAt.or (message.sentAt.filter (· ≠ 0))

/-- `_scheduled_params`. -/
def QueueMessage.body (message : QueueMessage) : ScheduledBody :=
  { message.content with scheduledAt := message.scheduledAt }

/-- The date that `upsert_scheduled_message` tests: `or` skips a date of zero. -/
def QueueMessage.effectiveDate (message : QueueMessage) : Option ℤ :=
  (message.extractedScheduledAt.filter (· ≠ 0)).or message.sentAt

namespace ScheduledStore

variable (stemText : Option String → String) (reads : ScheduledReads) (store : ScheduledStore)

/-! ## Reconciliation state -/

/-- The reconciliation row that an event leaves; `_mark_scheduled_dialog_dirty`. -/
def dirtied (now : ℤ) : Option ReconciliationState → ReconciliationState
  | none =>
    { discoveryDueAt := some now, dirtySince := some now, dirtyGeneration := 1, updatedAt := now
      coverageReason := some "baseline_unknown" }
  | some state =>
    let failed := state.coverageReason.any (·.startsWith "scheduled_failure:")
    let terminal := state.coverageState = .inaccessible ∨ state.coverageState = .unsupported
    { state with
      repairDueAt := if failed ∧ state.repairDueAt.isSome then some now else state.repairDueAt
      discoveryDueAt :=
        if failed ∧ state.repairDueAt = none then some now
        else if state.coverageState ≠ .complete then state.discoveryDueAt.or (some now)
        else state.discoveryDueAt
      coverageState := if terminal then .unknown else state.coverageState
      coverageReason :=
        if failed then some "scheduled_event_after_failure"
        else if terminal then some "scheduled_event_after_terminal_coverage"
        else state.coverageReason
      dirtySince := state.dirtySince.or (some now)
      dirtyGeneration := state.dirtyGeneration + 1
      updatedAt := now }

/-- `_mark_scheduled_dialog_dirty`. -/
def markDialogDirty (dialogId now : ℤ) : ScheduledStore :=
  { store with
    reconciliation := store.reconciliation.insert dialogId
      (dirtied now (store.reconciliation.lookup dialogId)) }

/-- The order of the last snapshot of a dialog. -/
def snapshotOrder (dialogId : ℤ) : ℕ :=
  ((store.reconciliation.lookup dialogId).bind (·.snapshotObservationOrder)).getD 0

/-- The order of the last observation of a row. -/
def rowOrder (dialogId messageId : ℤ) : ℕ :=
  ((store.rows.lookup (dialogId, messageId)).bind (·.observationOrder)).getD 0

/-- `_scheduled_observation_current`. -/
def observationCurrent (dialogId messageId : ℤ) (observationOrder : ℕ) : Bool :=
  (store.rows.lookup (dialogId, messageId)).map (·.messageState) ≠ some .published &&
    max (store.rowOrder dialogId messageId) (store.snapshotOrder dialogId) < observationOrder

/-! ## Rows -/

/-- A change of the row of a message, if there is one. -/
def updateRow (dialogId messageId : ℤ) (change : ScheduledRow → ScheduledRow) : ScheduledStore :=
  { store with rows := Dictionary.modify store.rows (dialogId, messageId) change }

/-- `_DELETE_SCHEDULED_FTS_SQL`. -/
def deleteFts (dialogId messageId : ℤ) : ScheduledStore :=
  { store with fts := store.fts.filter (·.1 ≠ (dialogId, messageId)) }

/-- The row that `_UPSERT_SCHEDULED_SQL` leaves for a message. -/
def upsertedRow (body : ScheduledBody) (now : ℤ) (existing : Option ScheduledRow) : ScheduledRow :=
  { body := some body, messageState := .scheduled, firstSeenAt := (existing.map (·.firstSeenAt)).getD now
    updatedAt := now, observationOrder := existing.bind (·.observationOrder) }

/-- `upsert_scheduled_message`. -/
def upsertScheduledMessage (dialogId : ℤ) (message : QueueMessage) (now : ℤ) (markDirty : Bool)
    (order : ℕ) : ScheduledStore :=
  if message.effectiveDate = none then store
  else if !store.observationCurrent dialogId message.id order then store
  else
    let existing := store.rows.lookup (dialogId, message.id)
    if existing.map (·.messageState) = some .published then store
    else
      let row := { upsertedRow message.body now existing with observationOrder := some order }
      let store := { store with rows := store.rows.insert (dialogId, message.id) row }
      let store := store.deleteFts dialogId message.id
      let store := { store with
        fts := store.fts ++ [((dialogId, message.id), stemText message.content.text)] }
      if markDirty then store.markDialogDirty dialogId now else store

/-- A row that waits for the evidence of a published message. -/
def awaits (dialogId publishedMessageId : ℤ) (key : ℤ × ℤ) (row : ScheduledRow) : Bool :=
  key.1 = dialogId && row.publicationHintMessageId = some publishedMessageId &&
    row.messageState = .unknownMissing

/-- The row after its publication. -/
def publishedRow (publishedMessageId now : ℤ) (evidence : PublicationEvidence)
    (row : ScheduledRow) : ScheduledRow :=
  { row with
    messageState := .published, visibility := .chatVisible, unpublished := false, unseen := false
    publishedMessageId := some publishedMessageId
    publicationVerifiedAt := some evidence.verifiedAt, publishedAt := evidence.publishedAt
    updatedAt := now }

/-- `_reconcile_scheduled_publication`, without its count. -/
def reconcilePublication (dialogId publishedMessageId now : ℤ) : ScheduledStore :=
  match store.evidence.lookup (dialogId, publishedMessageId) with
  | none => store
  | some evidence =>
    let waiting (key : ℤ × ℤ) : Bool :=
      (store.rows.lookup key).any (awaits dialogId publishedMessageId key)
    let settled := { store with
      rows := Dictionary.mapValues store.rows fun key row =>
        if awaits dialogId publishedMessageId key row then
          publishedRow publishedMessageId now evidence row
        else row
      fts := store.fts.filter fun entry => !waiting entry.1 }
    if Dictionary.any store.rows (awaits dialogId publishedMessageId) then
      settled.markDialogDirty dialogId now
    else settled

/-- `verify_scheduled_publication`. -/
def verifyPublication (dialogId publishedMessageId : ℤ) (publishedAt : Option ℤ) (now : ℤ) :
    ScheduledStore :=
  let stored :=
    match store.evidence.lookup (dialogId, publishedMessageId) with
    | none => { publishedAt, verifiedAt := now }
    | some evidence => { evidence with publishedAt := evidence.publishedAt.or publishedAt }
  reconcilePublication
    { store with evidence := store.evidence.insert (dialogId, publishedMessageId) stored }
    dialogId publishedMessageId now

/-- The row of `_INSERT_SCHEDULED_TOMBSTONE_SQL`. -/
def tombstone (now : ℤ) (hint : Option ℤ) : ScheduledRow :=
  { messageState := if hint.isSome then .unknownMissing else .cancelled
    firstSeenAt := now, updatedAt := now
    deletedAt := if hint.isSome then none else some now
    publicationHintMessageId := hint }

/-- A row after a removal without a publication hint. -/
def cancelledRow (now : ℤ) (row : ScheduledRow) : ScheduledRow :=
  if row.messageState = .published then row
  else
    { row with
      messageState := .cancelled, unpublished := true, unseen := true, deletedAt := some now
      updatedAt := now }

/-- A row after a removal with a publication hint. -/
def hintedRow (hint now : ℤ) (row : ScheduledRow) : ScheduledRow :=
  if row.messageState = .published then row
  else
    { row with
      messageState := .unknownMissing, unpublished := true, unseen := true
      publicationHintMessageId := some hint, deletedAt := none, updatedAt := now }

/-- The body of the loop of `_apply_scheduled_removals` for a current observation. -/
def removeOne (dialogId messageId : ℤ) (hint : Option ℤ) (now : ℤ) (order : ℕ) : ScheduledStore :=
  let store := { store with
    rows := Dictionary.setDefault store.rows (dialogId, messageId) (tombstone now hint) }
  let ordered (row : ScheduledRow) : ScheduledRow := { row with observationOrder := some order }
  match hint with
  | none =>
    ((store.updateRow dialogId messageId (cancelledRow now)).updateRow dialogId messageId
      ordered).deleteFts dialogId messageId
  | some hint =>
    ((store.updateRow dialogId messageId (hintedRow hint now)).reconcilePublication dialogId hint
      now).updateRow dialogId messageId ordered

/-- `_apply_scheduled_removals`: the hints run along with the ids and may be fewer. -/
def applyRemovals (dialogId now : ℤ) (order : ℕ) :
    Bool × ScheduledStore → List ℤ → List ℤ → Bool × ScheduledStore
  | state, [], _ => state
  | (changed, store), messageId :: messageIds, hints =>
    if store.observationCurrent dialogId messageId order then
      applyRemovals dialogId now order
        (true, store.removeOne dialogId messageId hints.head? now order) messageIds hints.tail
    else applyRemovals dialogId now order (changed, store) messageIds hints.tail

/-- `mark_scheduled_messages_removed`. -/
def markRemoved (dialogId : ℤ) (messageIds sentMessageIds : List ℤ) (now : ℤ) (order : ℕ) :
    ScheduledStore :=
  let (changed, store) := applyRemovals dialogId now order (false, store) messageIds sentMessageIds
  if changed then store.markDialogDirty dialogId now else store

/-- A row that `mark_missing_from_snapshot` marks. -/
def missingRow (now : ℤ) (order : ℕ) (row : ScheduledRow) : ScheduledRow :=
  { row with
    messageState := .unknownMissing, unpublished := true, unseen := true, updatedAt := now
    observationOrder := some order }

/-- `mark_missing_from_snapshot`, without its count. -/
def markMissing (dialogId : ℤ) (messageIds : List ℤ) (now : ℤ) (order : ℕ) : ScheduledStore :=
  let accepted := messageIds.filter fun messageId =>
    store.observationCurrent dialogId messageId order
  { store with
    rows := Dictionary.mapValues store.rows fun key row =>
      if key.1 = dialogId ∧ row.messageState = .scheduled ∧ key.2 ∈ accepted then
        missingRow now order row
      else row }

/-! ## Snapshots -/

/-- `_snapshot_message_ids`. -/
def snapshotMessageIds (snapshot : List QueueMessage) : List ℤ :=
  (snapshot.map (·.id)).filter (· ≠ 0)

/-- `_missing_scheduled_ids`. -/
def missingScheduledIds (dialogId : ℤ) (snapshotIds : List ℤ) : List ℤ :=
  (store.rows.entries.filter fun entry =>
    entry.1.1 = dialogId ∧ entry.2.messageState = .scheduled ∧ entry.1.2 ∉ snapshotIds).map (·.1.2)

/-- `_upsert_snapshot_messages`. -/
def upsertSnapshotMessages (dialogId : ℤ) (snapshot : List QueueMessage) (now : ℤ) (order : ℕ) :
    ScheduledStore :=
  snapshot.foldl (fun store message =>
    if message.id ≠ 0 then store.upsertScheduledMessage stemText dialogId message now false order
    else store) store

/-- `_scheduled_available_sql`. -/
def available (dialogId : ℤ) (state : ReconciliationState) : Bool :=
  state.acquisitionBlock = none && !reads.accessLost dialogId

/-- The reconciliation row after a snapshot. -/
def completedState (now : ℤ) (order : ℕ) (state : ReconciliationState) : ReconciliationState :=
  { state with
    repairDueAt := none, discoveryDueAt := none, dirtySince := none, updatedAt := now
    snapshotObservationOrder := some order, baselineObservedAt := some now
    coverageState := .complete, coverageReason := none, authorizationPending := false
    directoryGeneration := reads.publishedGeneration }

/-- `_apply_snapshot`: nothing where the snapshot is outdated. -/
def applySnapshot (dialogId : ℤ) (generation : ℕ) (snapshot : List QueueMessage) (now : ℤ)
    (order : ℕ) : Option ScheduledStore :=
  match store.reconciliation.lookup dialogId with
  | none => none
  | some state =>
    if !available reads dialogId state ∨ state.dirtyGeneration ≠ generation ∨
        order ≤ state.snapshotObservationOrder.getD 0 then none
    else
      let missingIds := store.missingScheduledIds dialogId (snapshotMessageIds snapshot)
      let upserted := store.upsertSnapshotMessages stemText dialogId snapshot now order
      let marked := upserted.markMissing dialogId missingIds now order
      some { marked with
        reconciliation := Dictionary.modify marked.reconciliation dialogId fun state =>
          if state.dirtyGeneration = generation then completedState reads now order state else state
        nextRetryAt := none
        lastSnapshotAt := some now }

end ScheduledStore

end McpTelegram
