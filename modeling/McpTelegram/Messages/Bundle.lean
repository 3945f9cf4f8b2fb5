import McpTelegram.Messages.Store

/-!
# Persisting message bundles

`messages/sqlite_bundle.py` and the job policy of `messages/sqlite_hydration_jobs.py`: an
observation of a message is accepted or not, and an accepted one replaces the row of the message,
its entities, its forward header and its row in the search index.  Reactions, membership signals
and the observers of image sources are written to places that nothing here reads, and are left out.
-/

namespace McpTelegram

open Foundations

/-! ## Acceptance -/

/-- `edit_date or 0`. -/
def StoredMessage.version (message : StoredMessage) : ℤ := message.editDate.getD 0

/-- `_stored_message_deleted`. -/
def storedMessageDeleted (state : Option ObservationRow) (current : Option MessageRow) : Bool :=
  state.any (·.isDeleted) || current.any (·.isDeleted)

/-- `_follows_stored_observation`. -/
def followsStoredObservation (state : Option ObservationRow) (order : Option ℤ)
    (sourceRank : ℤ) : Bool :=
  match state with
  | none => true
  | some state =>
    match order with
    | some order =>
      if order ≠ state.observationOrder then decide (state.observationOrder < order)
      else decide (state.sourceRank ≤ sourceRank)
    | none => decide (state.sourceRank ≤ sourceRank)

/-- `accepted_by_key[key] = item`: a known key keeps its place. -/
def setAccepted (accepted : List ExtractedMessage) (item : ExtractedMessage) :
    List ExtractedMessage :=
  if accepted.any fun prior => prior.key = item.key then
    accepted.map fun prior => if prior.key = item.key then item else prior
  else accepted ++ [item]

/-- `(edit_date or 0, observation_order or 0)` of an item is at least that of a prior one. -/
def supersedes (item prior : ExtractedMessage) : Bool :=
  decide (prior.message.version < item.message.version) ||
    decide (prior.message.version = item.message.version) &&
      decide (prior.observationOrder.getD 0 ≤ item.observationOrder.getD 0)

namespace MessageStore

variable (store : MessageStore)

/-- `_is_current_observation`. -/
def isCurrentObservation (item : ExtractedMessage) (source : ReactionAggregateSource) : Bool :=
  if store.hasNonchannelDeletion item.key then false
  else
    let state := store.observations item.key
    let current := store.messages item.key
    if storedMessageDeleted state current then false
    else
      match current with
      | none => followsStoredObservation state item.observationOrder source.rank
      | some current =>
        if item.message.version < current.message.version then false
        else if current.message.editDate.isSome ∧
            current.message.version < item.message.version then true
        else followsStoredObservation state item.observationOrder source.rank

/-- `_accepted_message_bundles`. -/
def acceptedMessageBundles (extracted : List ExtractedMessage) (source : ReactionAggregateSource) :
    List ExtractedMessage :=
  extracted.foldl (fun accepted item =>
    if store.isCurrentObservation item source then
      match accepted.find? fun prior => prior.key = item.key with
      | none => setAccepted accepted item
      | some prior => if supersedes item prior then setAccepted accepted item else accepted
    else accepted) []

end MessageStore

/-! ## Media that was received later than the body -/

/-- The columns of `messages` that `_received_body_unchanged` compares. -/
structure MessageBody where
  text : Option String
  editDate : Option ℤ
  formattingEntities : Option String
  serviceAction : Option String
  replyToMsgId : Option ℤ
  forumTopicId : Option ℤ
  groupedId : Option ℤ
  replyToPeerId : Option ℤ
  isService : ℤ
  postAuthor : Option String
  deriving DecidableEq

/-- The body of a message. -/
def StoredMessage.body (message : StoredMessage) : MessageBody where
  text := message.text
  editDate := message.editDate
  formattingEntities := message.formattingEntities
  serviceAction := message.serviceAction
  replyToMsgId := message.replyToMsgId
  forumTopicId := message.forumTopicId
  groupedId := message.groupedId
  replyToPeerId := message.replyToPeerId
  isService := message.isService
  postAuthor := message.postAuthor

namespace MessageStore

variable (store : MessageStore)

/-- `_received_body_unchanged`.  The source sorts both lists of entities by all their columns before
it compares them, so it compares them up to their order. -/
def receivedBodyUnchanged (item : ExtractedMessage) : Bool :=
  item.message.editDate.isSome &&
    match store.messages item.key with
    | none => false
    | some row =>
      decide (row.message.body = item.message.body) &&
        decide ((store.entities item.key).Perm item.entities) &&
        decide (store.forwards item.key = item.forward)

/-- `_preserve_newer_received_media`, without the request to invalidate the image source. -/
def preserveNewerReceivedMedia (item : ExtractedMessage) : ExtractedMessage :=
  match store.messages item.key, store.imageSources item.key with
  | some current, some source =>
    let stored := (store.observations item.key).map (·.observationOrder)
    let item :=
      if stored.isSome && store.receivedBodyUnchanged item then
        { item with bodyObservationOrder := stored }
      else item
    if item.observationOrder.all fun order => source.observationOrder ≤ order then item
    else if stored = some source.observationOrder ∧ current.message.editDate.isSome ∧
        item.message.editDate.any fun date => current.message.version < date then
      { item with mediaObservationOrder := some source.observationOrder }
    else
      { item with
        message := { item.message with
          mediaKind := current.message.mediaKind
          mediaPayload := current.message.mediaPayload }
        privatePhotoId := source.photoId
        privatePhotoEligible := source.eligible
        mediaObservationOrder := some source.observationOrder }
  | _, _ => item

/-- One round of `_record_message_observations`. -/
def recordMessageObservation (source : ReactionAggregateSource) (fallback : ℤ)
    (item : ExtractedMessage) : MessageStore :=
  let sequence := item.observationOrder.getD fallback
  let order := item.bodyObservationOrder.getD sequence
  let row : ObservationRow :=
    match store.observations item.key with
    | none => { observationOrder := order, sourceRank := source.rank }
    | some row =>
      { row with
        sourceRank :=
          if row.observationOrder < order then source.rank
          else if order = row.observationOrder then max row.sourceRank source.rank
          else row.sourceRank
        observationOrder := max row.observationOrder order }
  { store with
    observations := store.observations.put item.key row
    imageSources := store.imageSources.put item.key
      { photoId := item.privatePhotoId
        observationOrder := item.mediaObservationOrder.getD sequence
        eligible := item.privatePhotoEligible } }

/-- `_record_message_observations`. -/
def recordMessageObservations (accepted : List ExtractedMessage)
    (source : ReactionAggregateSource) : MessageStore :=
  let (fallback, store) :=
    if accepted.any fun item => item.observationOrder.isNone then store.allocateObservationOrder
    else (0, store)
  accepted.foldl (fun store item => store.recordMessageObservation source fallback item) store

end MessageStore

/-! ## Texts of transcriptions -/

/-- `str.isspace` of one character. -/
def isSpaceChar (c : Char) : Bool :=
  c.toNat ∈ [9, 10, 11, 12, 13, 28, 29, 30, 31, 32, 133, 160, 5760, 8232, 8233, 8239, 8287,
      12288] ||
    decide (8192 ≤ c.toNat ∧ c.toNat ≤ 8202)

/-- `str.strip`. -/
def strip (text : String) : String :=
  String.ofList (((text.toList.dropWhile isSpaceChar).reverse.dropWhile isSpaceChar).reverse)

/-- `_StoredPageFact`, without the columns of the membership signals. -/
structure StoredPageFact where
  present : Bool
  text : Option String
  /-- The stemmed text of the index row whose key matches. -/
  indexedText : Option String
  transcription : Option String

namespace MessageStore

/-- `_read_stored_page` for one message. -/
def storedPageFact (store : MessageStore) (key : MessageKey) : StoredPageFact where
  present := (store.messages key).isSome
  text := (store.readMessageText key).join
  indexedText := (store.fts.find? fun row => row.key = key).map (·.stemmedText)
  transcription := (store.transcriptions key).map (·.text)

end MessageStore

/-- `_FACT_HYDRATION_EMPTY_KINDS`. -/
def factHydrationEmptyKinds : List String := ["contact", "other"]

/-- `_preserve_transcribed_texts` for one item. -/
def preserveTranscribedText (facts : MessageKey → StoredPageFact) (item : ExtractedMessage) :
    ExtractedMessage :=
  if item.message.text.any fun text => strip text ≠ "" then item
  else if ¬ item.message.mediaKind.any fun kind =>
      kind ∈ factHydrationEmptyKinds ∨ kind = "voice" then item
  else
    match (facts item.key).text with
    | some text => if text = "" then item
      else { item with message := { item.message with text := some text } }
    | none => item

/-- What `_overlay_message_transcriptions` does with one item: the item, and whether the stored
transcription is deleted. -/
def overlayMessageTranscription (env : MessageEnv) (facts : MessageKey → StoredPageFact)
    (item : ExtractedMessage) : ExtractedMessage × Bool :=
  match (facts item.key).transcription with
  | none => (item, false)
  | some text =>
    let kind := item.message.mediaKind
    let payload := item.message.mediaPayload
    if env.isCanonicalMediaPair kind payload &&
        isTranscribableTelegramMedia (env.decodeMediaFact kind payload) then
      ({ item with message := { item.message with text := some text } }, false)
    else if (kind = none ∧ payload = none) ∨ env.isCanonicalMediaPair kind payload then (item, true)
    else (item, false)

namespace MessageStore

/-- The store and the page facts after the deletions of `_overlay_message_transcriptions`. -/
def dropTranscriptions (env : MessageEnv) (store : MessageStore)
    (facts : MessageKey → StoredPageFact) (items : List ExtractedMessage) :
    MessageStore × (MessageKey → StoredPageFact) :=
  items.foldl (fun (store, facts) item =>
    if (overlayMessageTranscription env facts item).2 then
      ({ store with transcriptions := store.transcriptions.drop item.key },
        Function.update facts item.key { facts item.key with transcription := none })
    else (store, facts)) (store, facts)

end MessageStore

/-! ## Hydration jobs -/

namespace MessageStore

variable (env : MessageEnv) (reads : MessageReads) (store : MessageStore)

/-- `media_fact_hydration_eligible`. -/
def mediaFactHydrationEligible (key : MessageKey) : Bool :=
  reads.factHydrationEligible key.dialogId &&
    match store.messages key with
    | none => false
    | some row =>
      !row.isDeleted &&
        match row.message.mediaKind, row.message.mediaPayload with
        | some kind, some payload =>
          decide (kind ∈ factHydrationEmptyKinds) && payload == "{}" ||
            kind == "video" && env.sqlValid payload && env.sqlType payload == "object" &&
              (env.sqlTypeAt payload "$.round_message").isNone
        | _, _ => false

/-- `transcription_hydration_eligible`. -/
def transcriptionHydrationEligible (key : MessageKey) : Bool :=
  match store.messages key with
  | none => false
  | some row =>
    !row.isDeleted &&
      env.transcribableMediaSql row.message.mediaKind row.message.mediaPayload &&
      (store.transcriptions key).isNone &&
      reads.factHydrationEligible key.dialogId &&
      env.isTranscribableMediaPair row.message.mediaKind row.message.mediaPayload

/-- `_reconcile_media_hydration_job`. -/
def reconcileMediaHydrationJob (message : StoredMessage) (existing : Bool) : MessageStore :=
  let unresolved :=
    (message.mediaKind.any fun kind => kind ∈ factHydrationEmptyKinds) &&
      message.mediaPayload == some "{}"
  if unresolved && store.mediaFactHydrationEligible env reads message.key then
    store.enqueue .mediaMetadata message.key
      { dueAt := reads.now, messageSentAt := message.sentAt
        priority := HydrationPriority.backfill.toInt }
  else if unresolved && existing then store.removeActiveJob .mediaMetadata message.key
  else if !unresolved && existing then store.removeJob .mediaMetadata message.key
  else store

/-- `_reconcile_transcription_hydration_job`. -/
def reconcileTranscriptionHydrationJob (message : StoredMessage) (priority : HydrationPriority)
    (existing transcriptionExists : Bool) : MessageStore :=
  if env.isTranscribableMediaPair message.mediaKind message.mediaPayload &&
      !transcriptionExists then
    if store.transcriptionHydrationEligible env reads message.key then
      store.enqueue .transcription message.key
        { dueAt := reads.now, messageSentAt := message.sentAt, priority := priority.toInt }
    else if existing then store.removeActiveJob .transcription message.key
    else store
  else if existing then store.removeJob .transcription message.key
  else store

/-- `reconcile_fact_hydration_job`, with the jobs that were there before the page was written. -/
def reconcileFactHydrationJob (before : MessageStore) (facts : MessageKey → StoredPageFact)
    (priority : HydrationPriority) (item : ExtractedMessage) : MessageStore :=
  let message := item.message
  let store := store.reconcileMediaHydrationJob env reads message
    (before.jobs .mediaMetadata message.key).isSome
  store.reconcileTranscriptionHydrationJob env reads message priority
    (before.jobs .transcription message.key).isSome (facts message.key).transcription.isSome

/-! ## Writing a page -/

/-- `_fts_refresh_needed`. -/
def ftsRefreshNeeded (fact : StoredPageFact) (text : Option String) (stemmed : String) : Bool :=
  !fact.present || fact.text ≠ text || fact.indexedText ≠ some stemmed

/-- `_write_message_rows_and_fts`. -/
def writeMessageRowsAndFts (before : MessageStore) (facts : MessageKey → StoredPageFact)
    (priority : HydrationPriority) (items : List ExtractedMessage) : MessageStore :=
  let store := items.foldl (fun store item => store.insertMessage item) store
  let changed := items.filter fun item =>
    ftsRefreshNeeded (facts item.key) item.message.text (env.stemText item.message.text)
  let store := changed.foldl (fun store item => store.deleteFts item.key) store
  let store := changed.foldl (fun store item =>
    store.insertFts item.key (env.stemText item.message.text)) store
  items.foldl (fun store item =>
    store.reconcileFactHydrationJob env reads before facts priority item) store

/-- `INSERT OR REPLACE INTO message_entities`; the key of a row is its place and its type. -/
def insertEntity (rows : List EntityRecord) (entity : EntityRecord) : List EntityRecord :=
  rows.filter (fun row =>
    ¬ (row.offset = entity.offset ∧ row.length = entity.length ∧ row.type = entity.type)) ++
      [entity]

/-- `_delete_entity_and_forward_projections` and `_insert_entity_and_forward_projections`. -/
def replaceEntitiesAndForwards (items : List ExtractedMessage) : MessageStore :=
  items.foldl (fun store item =>
    { store with
      entities := Function.update store.entities item.key (item.entities.foldl insertEntity [])
      forwards := Function.update store.forwards item.key item.forward }) store

/-- `insert_messages_with_fts`: the number of accepted keys and the store. -/
def insertMessagesWithFts (extracted : List ExtractedMessage) (source : ReactionAggregateSource)
    (priority : HydrationPriority) : Except MessageError (ℕ × MessageStore) :=
  let accepted := store.acceptedMessageBundles extracted source
  if accepted = [] then .ok (0, store)
  else
    let accepted := accepted.map store.preserveNewerReceivedMedia
    if accepted.any fun item => ¬ item.message.ValidJob then .error .invalidJob
    else
      let facts := store.storedPageFact
      let written := store.recordMessageObservations accepted source
      let preserved := accepted.map (preserveTranscribedText facts)
      let projected := preserved.map fun item => (overlayMessageTranscription env facts item).1
      let (written, facts) := written.dropTranscriptions env facts preserved
      let written := written.writeMessageRowsAndFts env reads store facts priority projected
      .ok (projected.length, written.replaceEntitiesAndForwards projected)

/-! ## Edits -/

/-- `_SELECT_HUMAN_DM_MESSAGE_SQL`. -/
def isHumanDmMessage (key : MessageKey) : Bool :=
  match store.messages key with
  | none => false
  | some row =>
    row.message.out == 0 && row.message.isService == 0 &&
      row.message.senderId == some key.dialogId && reads.userDialog key.dialogId

/-- `_NEXT_VERSION_SQL`. -/
def nextVersion (key : MessageKey) : ℕ := ((store.versions key).map (·.version)).foldr max 0 + 1

/-- `persist_edited_message`: the version that was kept and the store. -/
def persistEditedMessage (item : ExtractedMessage) (editDate : Option ℤ)
    (priority : HydrationPriority) (source : ReactionAggregateSource) :
    Except MessageError (Option ℕ × MessageStore) :=
  if !store.isCurrentObservation item source then .ok (none, store)
  else
    match store.readMessageText item.key with
    | none => .ok (none, store)
    | some oldText =>
      if oldText = item.message.text ∨ ¬ store.isHumanDmMessage reads item.key then
        (store.insertMessagesWithFts env reads [item] source priority).map fun result =>
          (none, result.2)
      else
        let version := store.nextVersion item.key
        let store : MessageStore := { store with
          versions := Function.update store.versions item.key
            (store.versions item.key ++ [⟨version, oldText, editDate⟩]) }
        (store.insertMessagesWithFts env reads [item] source priority).map fun result =>
          (some version, result.2)

/-! ## Deletions -/

/-- `_validated_message_ids`. -/
def validatedMessageIds (messageIds : List ℤ) : List ℤ :=
  (messageIds.filter fun messageId => 0 < messageId).eraseDups

/-- `record_nonchannel_deletions`. -/
def recordNonchannelDeletions (messageIds : List ℤ) (deletedAt : ℤ) : MessageStore :=
  (validatedMessageIds messageIds).foldl (fun store messageId =>
    match store.nonchannelDeletions messageId with
    | some _ => store
    | none =>
      { store with nonchannelDeletions := store.nonchannelDeletions.put messageId deletedAt }) store

/-- The statement of `record_message_deletions` for one message. -/
def recordDeletion (order : ℤ) (key : MessageKey) : MessageStore :=
  let row : ObservationRow :=
    match store.observations key with
    | none => { observationOrder := order, isDeleted := true }
    | some row => { row with observationOrder := order, isDeleted := true }
  { store with observations := store.observations.put key row }

/-- `record_message_deletions`: the valid identifiers and the store. -/
def recordMessageDeletions (dialogId : ℤ) (messageIds : List ℤ) : List ℤ × MessageStore :=
  let ids := validatedMessageIds messageIds
  let pending := ids.filter fun messageId =>
    ¬ (store.observations ⟨dialogId, messageId⟩).any (·.isDeleted)
  if pending = [] then (ids, store)
  else
    let (order, store) := store.allocateObservationOrder
    (ids, pending.foldl (fun store messageId => store.recordDeletion order ⟨dialogId, messageId⟩)
      store)

/-- `mark_message_deleted`: whether the state of the message changed, and the store. -/
def markMessageDeleted (key : MessageKey) (deletedAt : ℤ) : Bool × MessageStore :=
  let (ids, store) := store.recordMessageDeletions key.dialogId [key.messageId]
  if ids = [] then (false, store)
  else
    match store.messages key with
    | some row =>
      if row.isDeleted then (false, store.deleteFts key)
      else
        let store := { store with
          messages := store.messages.put key
            { row with isDeleted := true, deletedAt := some deletedAt } }
        (true, (store.deleteFts key).removeForMessage key)
    | none => (false, store.deleteFts key)

/-! ## Received messages -/

/-- The columns that `_persist_received_message` reads when both rows of the message are there. -/
def receivedState (key : MessageKey) : Option (ℤ × Option ℤ) :=
  match store.observations key, store.messages key with
  | some state, some row => some (state.observationOrder, row.message.editDate)
  | _, _ => none

/-- `_received_body_superseded`. -/
def receivedBodySuperseded (state : Option (ℤ × Option ℤ)) (item : ExtractedMessage) : Bool :=
  match state, item.observationOrder with
  | some (stored, storedVersion), some order =>
    if stored ≤ order then false
    else
      match storedVersion, item.message.editDate with
      | some storedVersion, some version => decide (version ≤ storedVersion)
      | _, _ => true
  | _, _ => false

/-- `_received_message_eligible`. -/
def receivedMessageEligible (received : ReceivedMessage) (order : ℤ)
    (expectedDialogId : Option ℤ) (revalidatedAccess : Bool) : Bool :=
  let dialogId := received.bundle.key.dialogId
  if expectedDialogId.any (· ≠ dialogId) then false
  else
    match reads.status dialogId with
    | none => false
    | some status =>
      if status = "access_lost" then
        revalidatedAccess && expectedDialogId == some dialogId &&
          reads.enabled dialogId == some 1 &&
          decide ((reads.accessFacts dialogId).Perm
            [("access_state", order), ("access_recovery_witness", order)])
      else if reads.enabled dialogId = some 1 then true
      else
        status == "own_only" && received.outgoing == some true &&
          (store.messages received.bundle.key).all fun row => row.message.out ≠ 0

/-- `_persist_received_message`: what it returns, and the store. -/
def persistReceivedMessage (item : ExtractedMessage) : Except MessageError (ℕ × MessageStore) :=
  if store.hasNonchannelDeletion item.key then .ok (0, store)
  else if receivedBodySuperseded (store.receivedState item.key) item then .ok (0, store)
  else
    match store.readMessageText item.key with
    | some text =>
      if text ≠ item.message.text then
        (store.persistEditedMessage env reads item item.message.editDate .foreground
          .messageEdit).map fun (version, written) =>
          (if version.isSome ∨ written.readMessageText item.key = some item.message.text then 1
            else 0, written)
      else store.insertMessagesWithFts env reads [item] .history .foreground
    | none => store.insertMessagesWithFts env reads [item] .history .foreground

/-- `persist_received_messages`: the number of published messages and the store. -/
def persistReceivedMessages (batch : ReceivedBatch) : Except MessageError (ℕ × MessageStore) :=
  if !batch.claimedBefore ∨ reads.boundAccount ≠ some batch.accountId then .error .scopeChanged
  else do
    let (accepted, store) ← batch.messages.foldlM (fun (accepted, store) received =>
      if receivedMessageEligible reads store received batch.observationOrder
          batch.expectedDialogId batch.revalidatedAccess then
        (persistReceivedMessage env reads store
          { received.bundle with observationOrder := some batch.observationOrder }).map
          fun (written, store) => (accepted + written, store)
      else .ok (accepted, store)) (0, store)
    if !batch.claimedAfter then .error .scopeChanged else .ok (accepted, store)

end MessageStore

end McpTelegram
