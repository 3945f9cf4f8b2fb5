import Mathlib.Data.List.DropRight
import McpTelegram.Messages.MediaPairs
import McpTelegram.Messages.Single

/-!
# A transcription and its message, in either order

The final transcription of a voice message may come before the message, where it is staged, or
after it, where it is applied.  Both orders lead to one state of the message, `ShowsTranscription`:
its text is the text of the stored transcription, its index row follows that text, and no
transcription job is left.  Inserting the same body once more keeps that state.
-/

namespace McpTelegram

open Foundations

variable {order : ℤ} {row : TranscriptionRow} {key : MessageKey}

/-! ## The text of an event -/

theorem dropWhile_reverse_dropWhile {p : Char → Bool} (l : List Char) (h : l.dropWhile p = l) :
    ((l.reverse.dropWhile p).reverse).dropWhile p = (l.reverse.dropWhile p).reverse := by
  cases hkept : (l.reverse.dropWhile p).reverse with
  | nil => rfl
  | cons c rest =>
    -- the first character that is kept is the first character of `l`
    obtain ⟨tail, htail⟩ : (c :: rest) <+: l := by
      rw [← hkept, ← List.reverse_suffix, List.reverse_reverse]
      exact List.dropWhile_suffix p
    have hhead : p c = false := by
      rw [← htail, List.cons_append] at h
      by_contra hp
      rw [List.dropWhile_cons_of_pos (by simpa using hp)] at h
      have hlength := (List.dropWhile_suffix (l := rest ++ tail) p).length_le
      rw [h, List.length_cons] at hlength
      omega
    rw [List.dropWhile_cons_of_neg (by simp [hhead])]

/-- A stripped text stays as it is. -/
theorem strip_strip (text : String) : strip (strip text) = strip text := by
  have hfront := dropWhile_reverse_dropWhile (text.toList.dropWhile isSpaceChar)
    (List.dropWhile_idempotent isSpaceChar text.toList)
  rw [strip, strip, String.toList_ofList, hfront, List.reverse_reverse, List.dropWhile_idempotent]

namespace MessageStore

/-! ## The state that both orders reach -/

/-- The message of a key shows a transcription: it has the media of the pair, its text is that of
the stored transcription, the index follows, and no transcription job is queued. -/
structure ShowsTranscription (env : MessageEnv) (key : MessageKey)
    (media : Option String × Option String) (row : TranscriptionRow) (store : MessageStore) :
    Prop where
  message : ∃ stored, store.messages key = some stored ∧ stored.message.text = some row.text ∧
    (stored.message.mediaKind, stored.message.mediaPayload) = media
  transcription : store.transcriptions key = some row
  fts : store.ftsRows key = [⟨key, env.stemText (some row.text)⟩]
  job : store.jobs .transcription key = none

/-- The row of an event, under the order it is delivered with. -/
def eventRow (event : Transcription) (order : ℤ) : TranscriptionRow where
  text := strip event.transcribedText
  transcriptionId := event.transcriptionId
  receivedAt := event.receivedAt
  observationOrder := some order

/-- The row that is stored after an event: the new one, unless the old one has its order or a
later one. -/
def winningRow (old : Option TranscriptionRow) (event : Transcription) (order : ℤ) :
    TranscriptionRow :=
  match old with
  | none => eventRow event order
  | some row => if row.observationOrder.getD 0 < order then eventRow event order else row

section Insert

variable {env : MessageEnv} {reads : MessageReads} {store : MessageStore}
  {item : ExtractedMessage} {source : ReactionAggregateSource} {priority : HydrationPriority}

variable {row : TranscriptionRow}

/-- The media of a bundle stay when the stored message, if there is one, has the same. -/
theorem preserveNewerReceivedMedia_media (hmedia : ∀ stored, store.messages item.key = some stored →
    (stored.message.mediaKind, stored.message.mediaPayload) =
      (item.message.mediaKind, item.message.mediaPayload)) :
    ((store.preserveNewerReceivedMedia item).message.mediaKind,
      (store.preserveNewerReceivedMedia item).message.mediaPayload) =
        (item.message.mediaKind, item.message.mediaPayload) := by
  rw [preserveNewerReceivedMedia]
  split
  · next current _ hcurrent _ =>
    have hsame := hmedia current hcurrent
    dsimp only
    split_ifs
    all_goals first | rfl | exact hsame
  · rfl

/-- A bundle whose transcription is stored is written with the text of the transcription. -/
theorem projectedBundle_transcribed (hmedia : ∀ stored, store.messages item.key = some stored →
      (stored.message.mediaKind, stored.message.mediaPayload) =
        (item.message.mediaKind, item.message.mediaPayload))
    (hcanonical : env.isCanonicalMediaPair item.message.mediaKind item.message.mediaPayload = true)
    (htranscribable : isTranscribableTelegramMedia
      (env.decodeMediaFact item.message.mediaKind item.message.mediaPayload) = true)
    (hrow : store.transcriptions item.key = some row) :
    (store.projectedBundle env item).2 = false ∧
      (store.projectedBundle env item).1.message.text = some row.text ∧
      ((store.projectedBundle env item).1.message.mediaKind,
        (store.projectedBundle env item).1.message.mediaPayload) =
          (item.message.mediaKind, item.message.mediaPayload) := by
  have hkept := preserveNewerReceivedMedia_media hmedia
  obtain ⟨hkind, hpayload⟩ := Prod.mk.inj hkept
  obtain ⟨text, hpreserved⟩ := preserveTranscribedText_rest
    (store.preserveNewerReceivedMedia item) store.storedPageFact
  have hkey := preserveNewerReceivedMedia_key store item
  have hfact : (store.storedPageFact item.key).transcription = some row.text := by
    rw [storedPageFact, hrow]
    rfl
  have hoverlay : store.projectedBundle env item =
      ({ store.preserveNewerReceivedMedia item with
        message := { (store.preserveNewerReceivedMedia item).message with
          text := some row.text } }, false) := by
    have hlooked : (store.storedPageFact (preserveTranscribedText store.storedPageFact
        (store.preserveNewerReceivedMedia item)).key).transcription = some row.text := by
      rw [preserveTranscribedText_key, hkey]
      exact hfact
    rw [projectedBundle, overlayMessageTranscription, hlooked, hpreserved]
    dsimp only
    rw [hkind, hpayload, hcanonical, htranscribable]
    exact if_pos rfl
  rw [hoverlay]
  exact ⟨rfl, rfl, hkept⟩

theorem removeJob_jobs (store : MessageStore) (kind : HydrationKind) (key : MessageKey) :
    (store.removeJob kind key).jobs =
      Function.update store.jobs kind ((store.jobs kind).drop key) := rfl

theorem enqueue_jobs_of_ne (store : MessageStore) {kind other : HydrationKind} (key : MessageKey)
    (job : HydrationJobRow) (h : other ≠ kind) :
    (store.enqueue kind key job).jobs other = store.jobs other := by
  simp only [enqueue, Function.update_of_ne h]

/-- The media job of a message leaves the transcription jobs alone. -/
theorem reconcileMediaHydrationJob_transcription (store : MessageStore) (message : StoredMessage)
    (existing : Bool) : (store.reconcileMediaHydrationJob env reads message existing).jobs
      .transcription = store.jobs .transcription := by
  have hne : HydrationKind.transcription ≠ HydrationKind.mediaMetadata := by decide
  have hremove : ∀ key, (store.removeJob .mediaMetadata key).jobs .transcription =
      store.jobs .transcription := by
    intro key
    rw [removeJob_jobs, Function.update_of_ne hne]
  rw [reconcileMediaHydrationJob]
  split_ifs
  · rw [enqueue_jobs_of_ne _ _ _ hne]
  · rw [removeActiveJob]
    split
    · split_ifs
      · rfl
      · exact hremove _
    · rfl
  · exact hremove _
  · rfl

/-- A message with a stored transcription is left without a transcription job. -/
theorem reconcileFactHydrationJob_transcribed {before : MessageStore}
    {facts : MessageKey → StoredPageFact} (hjobs : store.jobs = before.jobs)
    (hfact : (facts item.key).transcription.isSome = true) :
    (store.reconcileFactHydrationJob env reads before facts priority item).jobs .transcription
      item.key = none := by
  rw [reconcileFactHydrationJob]
  generalize hmedia : store.reconcileMediaHydrationJob env reads item.message _ = settled
  have hsame : settled.jobs .transcription = before.jobs .transcription := by
    rw [← hmedia, reconcileMediaHydrationJob_transcription, hjobs]
  rw [reconcileTranscriptionHydrationJob, show facts item.message.key = facts item.key from rfl,
    hfact, Bool.not_true, Bool.and_false, if_neg Bool.false_ne_true]
  split_ifs with hexisting
  · rw [removeJob_jobs, Function.update_self]
    exact (Table.drop_apply _ _ _).trans (if_pos rfl)
  · rw [hsame]
    exact Option.not_isSome_iff_eq_none.mp hexisting

/-- Inserting a bundle whose transcription is stored. -/
theorem insert_showsTranscription {written : MessageStore}
    (hwritten : Inserted env reads store item source priority written)
    (hmedia : ∀ stored, store.messages item.key = some stored →
      (stored.message.mediaKind, stored.message.mediaPayload) =
        (item.message.mediaKind, item.message.mediaPayload))
    (hfts : ∀ stored, store.messages item.key = some stored →
      store.ftsRows item.key = [⟨item.key, env.stemText stored.message.text⟩])
    (hcanonical : env.isCanonicalMediaPair item.message.mediaKind item.message.mediaPayload = true)
    (htranscribable : isTranscribableTelegramMedia
      (env.decodeMediaFact item.message.mediaKind item.message.mediaPayload) = true)
    (hrow : store.transcriptions item.key = some row) :
    ShowsTranscription env item.key (item.message.mediaKind, item.message.mediaPayload) row
      written := by
  obtain ⟨hkeep, htext, hpair⟩ :=
    projectedBundle_transcribed hmedia hcanonical htranscribable hrow
  have htranscriptions : written.transcriptions = store.transcriptions := by
    rw [hwritten.transcriptions, hkeep, if_neg Bool.false_ne_true]
  refine ⟨⟨_, by rw [hwritten.messages, Table.put_self], htext, hpair⟩, ?_, ?_, ?_⟩
  · rw [htranscriptions, hrow]
  · rw [hwritten.fts, htext]
    split_ifs with hrefresh
    · rfl
    · -- the stored row has the text that would be written
      rw [ftsRefreshNeeded, Bool.or_eq_true, Bool.or_eq_true, not_or, not_or] at hrefresh
      obtain ⟨⟨hpresent, hsame⟩, -⟩ := hrefresh
      cases hstored : store.messages item.key with
      | none => simp [storedPageFact, hstored] at hpresent
      | some stored =>
        have hold : stored.message.text = some row.text := by
          simpa [storedPageFact, readMessageText, hstored] using hsame
        rw [hfts stored hstored, hold]
  · obtain ⟨base, facts, -, -, hjobs, hfact, hqueue⟩ := hwritten.jobs
    have hkey := store.projectedBundle_key env item
    rw [hqueue, ← hkey]
    refine reconcileFactHydrationJob_transcribed hjobs ?_
    rw [hkey, hfact, htranscriptions, hrow]
    rfl

end Insert

/-! ## What an event does -/

section Event

variable (env : MessageEnv) (reads : MessageReads) (store : MessageStore) (event : Transcription)
variable {old : Option TranscriptionRow} {media : Option String × Option String}
    {stored : MessageRow}

/-- The order under which an event is stored. -/
def eventOrder (reads : MessageReads) (store : MessageStore) : ℤ :=
  (store.deliveredObservationOrder reads).1

/-- Taking the order of an event changes nothing but the sequence. -/
theorem deliveredObservationOrder_spec : ∃ sequence,
    store.deliveredObservationOrder reads =
      (eventOrder reads store, { store with sequence := sequence }) := by
  rw [eventOrder, deliveredObservationOrder]
  cases reads.delivered with
  | some order => exact ⟨store.sequence, rfl⟩
  | none => exact ⟨store.sequence + 1, rfl⟩

/-- An event with a text is stored unless a later one is there. -/
theorem upsert_spec (htext : strip event.transcribedText ≠ "") : ∃ sequence,
    store.upsertMessageTranscription reads
        { event with transcribedText := strip event.transcribedText } none =
      if (store.transcriptions event.key).all fun row =>
          row.observationOrder.getD 0 < eventOrder reads store then
        (true, { store with
          sequence := sequence
          transcriptions := store.transcriptions.put event.key
            (eventRow event (eventOrder reads store)) })
      else (false, { store with sequence := sequence }) := by
  obtain ⟨sequence, hdelivered⟩ := deliveredObservationOrder_spec reads store
  refine ⟨sequence, ?_⟩
  simp only [upsertMessageTranscription, strip_strip, if_neg htext, hdelivered, eventRow]

/-- The row after an event that was stored. -/
theorem winningRow_of_all (h : old.all fun row => row.observationOrder.getD 0 < order) :
    winningRow old event order = eventRow event order := by
  cases old with
  | none => rfl
  | some row => exact if_pos (by simpa using h)

/-- The row after an event that came too late. -/
theorem winningRow_of_not_all (h : ¬ old.all fun row => row.observationOrder.getD 0 < order) :
    old = some (winningRow old event order) := by
  cases old with
  | none => simp at h
  | some row => exact congrArg some (if_neg (by simpa using h)).symm

/-- An event for a message that was neither stored nor deleted is staged. -/
theorem stage_spec (hmessage : store.messages event.key = none)
    (hobserved : store.observations event.key = none)
    (hlive : store.hasNonchannelDeletion event.key = false)
    (htext : strip event.transcribedText ≠ "") :
    ∃ staged, store.stageMessageTranscription reads event = staged ∧
      staged.2.messages = store.messages ∧ staged.2.observations = store.observations ∧
      staged.2.nonchannelDeletions = store.nonchannelDeletions ∧
      staged.2.transcriptions event.key =
        some (winningRow (store.transcriptions event.key) event (eventOrder reads store)) := by
  have hcurrent : store.hydrationObservationCurrent event.key none = true := by
    rw [hydrationObservationCurrent, hlive, hobserved]
    rfl
  obtain ⟨sequence, hupsert⟩ := upsert_spec reads store event htext
  refine ⟨_, rfl, ?_⟩
  rw [stageMessageTranscription, hcurrent, readMessageText, hmessage]
  simp only [Bool.not_true, Bool.false_eq_true, if_false, Option.map_none, Option.isSome_none,
    or_false, if_neg htext]
  rw [hupsert]
  split_ifs with hall
  · refine ⟨rfl, rfl, rfl, ?_⟩
    rw [winningRow_of_all event hall]
    exact Table.put_self _ _ _
  · exact ⟨rfl, rfl, rfl, winningRow_of_not_all event hall⟩

/-- Replacing the text of a stored message by that of its transcription. -/
theorem projectTranscription_shows (hstored : store.messages key = some stored)
    (hmedia : (stored.message.mediaKind, stored.message.mediaPayload) = media)
    (hkeys : store.ftsKeys key = true)
    (hfts : store.ftsRows key = [⟨key, env.stemText stored.message.text⟩])
    (hrow : store.transcriptions key = some row) :
    ShowsTranscription env key media row (store.projectTranscription env key row.text) := by
  have hread : store.readMessageText key = some stored.message.text := by
    rw [readMessageText, hstored]
    rfl
  have hjob : ∀ store : MessageStore,
      (store.removeJob .transcription key).jobs .transcription key = none := by
    intro store
    rw [removeJob_jobs, Function.update_self]
    exact (Table.drop_apply _ _ _).trans (if_pos rfl)
  rw [projectTranscription, hread]
  dsimp only
  rw [persistTranscribedText]
  split_ifs with hsame
  · exact ⟨⟨stored, hstored, hsame, hmedia⟩, hrow, hsame ▸ hfts, hjob _⟩
  · have hupdate : store.updateMessageText key row.text = { store with
        messages := store.messages.put key
          { stored with message := { stored.message with text := some row.text } } } := by
      rw [updateMessageText, hstored]
    generalize hdeleted : (store.updateMessageText key row.text).deleteFts key = deleted
    obtain ⟨hmessages, -, -, -⟩ := deleted.insertFts_rest key (env.stemText (some row.text))
    refine ⟨⟨{ stored with message := { stored.message with text := some row.text } }, ?_, rfl,
      hmedia⟩, ?_, ?_, hjob _⟩
    · refine (congrFun hmessages key).trans ?_
      rw [← hdeleted, hupdate]
      exact Table.put_self _ _ _
    · have hkept : (deleted.insertFts key (env.stemText (some row.text))).transcriptions =
          deleted.transcriptions := by
        rw [insertFts]
        split_ifs <;> rfl
      refine (congrFun hkept key).trans ?_
      rw [← hdeleted, hupdate]
      exact hrow
    · have hdeletedKeys : deleted.ftsKeys key = true := by
        rw [← hdeleted, hupdate]
        exact hkeys
      change (deleted.insertFts key (env.stemText (some row.text))).ftsRows key = _
      rw [ftsRows_insertFts _ _ _ _ hdeletedKeys, if_pos rfl, ← hdeleted, ftsRows_deleteFts,
        if_pos rfl, List.nil_append]

/-- An event for a live message with transcribable media is applied. -/
theorem apply_shows {state : ObservationRow} (hstored : store.messages event.key = some stored)
    (hdeleted : stored.isDeleted = false)
    (hmedia : (stored.message.mediaKind, stored.message.mediaPayload) = media)
    (hpair : env.isTranscribableMediaPair media.1 media.2 = true)
    (hobserved : store.observations event.key = some state) (hstate : state.isDeleted = false)
    (hlive : store.hasNonchannelDeletion event.key = false) (hkeys : store.ftsKeys event.key = true)
    (hfts : store.ftsRows event.key = [⟨event.key, env.stemText stored.message.text⟩])
    (hold : ∀ row, store.transcriptions event.key = some row →
      ShowsTranscription env event.key media row store) (htext : strip event.transcribedText ≠ "") :
    ShowsTranscription env event.key media
      (winningRow (store.transcriptions event.key) event (eventOrder reads store))
      (store.applyMessageTranscription env reads event).2 := by
  have hcurrent : store.hydrationObservationCurrent event.key none = true := by
    rw [hydrationObservationCurrent, hlive, hobserved]
    simp [hstate]
  have hread : (store.messageMedia event.key).any (fun media =>
      env.isTranscribableMediaPair media.1 media.2) = true := by
    rw [messageMedia, hstored]
    simp only [hdeleted, Bool.false_eq_true, if_false, hmedia, Option.any_some, hpair]
  obtain ⟨sequence, hupsert⟩ := upsert_spec reads store event htext
  rw [applyMessageTranscription, hcurrent]
  simp only [Bool.not_true, Bool.false_eq_true, if_false, if_neg htext, hread, not_true_eq_false]
  rw [hupsert]
  split_ifs with hall
  · rw [winningRow_of_all event hall]
    exact projectTranscription_shows env _ hstored hmedia hkeys hfts (Table.put_self _ _ _)
  · have hrow := winningRow_of_not_all event hall
    obtain ⟨hmessage, htranscription, hrows, hjob⟩ := hold _ hrow
    exact ⟨hmessage, htranscription, hrows, hjob⟩

end Event

/-! ## Inserting the same body again -/

/-- The call inserts a bundle with the text and the media of `item` for the same message. -/
def Reinserts (item : ExtractedMessage) : MessageReads × MessageOperation → Prop
  | (_, .insertMessages [again] _ _) => again.key = item.key ∧
    again.message.text = item.message.text ∧ again.message.mediaKind = item.message.mediaKind ∧
    again.message.mediaPayload = item.message.mediaPayload
  | _ => False

section Again

variable {env : MessageEnv} {store : MessageStore} {item : ExtractedMessage}
  {row : TranscriptionRow} {call : MessageReads × MessageOperation}

/-- Inserting the body again keeps the transcription. -/
theorem reinsert_shows
    (hcanonical : env.isCanonicalMediaPair item.message.mediaKind item.message.mediaPayload = true)
    (htranscribable : isTranscribableTelegramMedia
      (env.decodeMediaFact item.message.mediaKind item.message.mediaPayload) = true)
    (hcall : Reinserts item call)
    (h : ShowsTranscription env item.key (item.message.mediaKind, item.message.mediaPayload) row
      store) :
    ShowsTranscription env item.key (item.message.mediaKind, item.message.mediaPayload) row
      (store.step env call) := by
  unfold Reinserts at hcall
  split at hcall
  · next reads again source priority =>
    obtain ⟨hkey, -, hkind, hpayload⟩ := hcall
    rw [step]
    by_cases hcurrent : store.isCurrentObservation again source
    · by_cases hvalid : again.message.ValidJob
      · obtain ⟨written, hinsert, hwritten⟩ :=
          insertMessagesWithFts_single env reads store again source priority hcurrent hvalid
        rw [hinsert, commit]
        rw [← hkey, ← hkind, ← hpayload] at h ⊢
        rw [← hkind, ← hpayload] at hcanonical htranscribable
        obtain ⟨stored, hstored, htext, hmedia⟩ := h.message
        refine insert_showsTranscription hwritten ?_ ?_ hcanonical htranscribable h.transcription
        · intro other hother
          obtain rfl := Option.some.inj (hstored.symm.trans hother)
          exact hmedia
        · intro other hother
          obtain rfl := Option.some.inj (hstored.symm.trans hother)
          rw [h.fts, htext]
      · rw [insertMessagesWithFts_invalid env reads store again source priority hcurrent hvalid]
        exact h
    · rw [insertMessagesWithFts_rejected env reads store again source priority hcurrent]
      exact h
  · exact hcall.elim

/-- Inserting the body any number of times keeps the transcription. -/
theorem reinserts_show
    (hcanonical : env.isCanonicalMediaPair item.message.mediaKind item.message.mediaPayload = true)
    (htranscribable : isTranscribableTelegramMedia
      (env.decodeMediaFact item.message.mediaKind item.message.mediaPayload) = true)
    {later : List (MessageReads × MessageOperation)} (hlater : ∀ call ∈ later, Reinserts item call)
    (h : ShowsTranscription env item.key (item.message.mediaKind, item.message.mediaPayload) row
      store) :
    ShowsTranscription env item.key (item.message.mediaKind, item.message.mediaPayload) row
      (later.foldl (step env) store) :=
  List.foldlRecOn (motive := fun reached : MessageStore => ShowsTranscription env item.key
    (item.message.mediaKind, item.message.mediaPayload) row reached) later (step env) h
    fun _ hreached call hcall => reinsert_shows hcanonical htranscribable (hlater call hcall) hreached

end Again

theorem ShowsTranscription.text {env : MessageEnv} {media : Option String × Option String}
    {store : MessageStore} (h : ShowsTranscription env key media row store) :
    store.readMessageText key = some (some row.text) := by
  obtain ⟨stored, hstored, htext, -⟩ := h.message
  rw [readMessageText, hstored, Option.map_some, htext]

/-! ## Both orders -/

/-- Two stores agree about the text, the index row, the transcription and the transcription job of
a message. -/
structure SameTranscription (key : MessageKey) (first second : MessageStore) : Prop where
  text : first.readMessageText key = second.readMessageText key
  fts : first.ftsRows key = second.ftsRows key
  transcription : first.transcriptions key = second.transcriptions key
  job : first.jobs .transcription key = second.jobs .transcription key

section Orders

variable {env : MessageEnv} {store : MessageStore} {event : Transcription}
  {item : ExtractedMessage}

/-- For a message whose deletion is recorded, both orders change nothing. -/
theorem orders_deleted (env : MessageEnv) (hkey : item.key = event.key)
    (hdeleted : store.DeletionRecorded event.key) (eventReads reads : MessageReads)
    (source : ReactionAggregateSource) (priority : HydrationPriority) :
    (store.stageMessageTranscription eventReads event).2 = store ∧
      store.insertMessagesWithFts env reads [item] source priority = .ok (0, store) ∧
      (store.applyMessageTranscription env eventReads event).2 = store := by
  have hcurrent : store.hydrationObservationCurrent event.key none = false := by
    by_contra h
    exact hydrationObservationCurrent_live (by simpa using h) hdeleted
  refine ⟨?_, ?_, ?_⟩
  · rw [stageMessageTranscription, hcurrent]
    rfl
  · refine insertMessagesWithFts_rejected env reads store item source priority fun h => ?_
    exact (isCurrentObservation_live h).1 (hkey ▸ hdeleted)
  · rw [applyMessageTranscription, hcurrent]
    rfl

/-- A bundle for a message that was neither stored nor deleted is current. -/
theorem isCurrentObservation_new (source : ReactionAggregateSource)
    (hmessage : store.messages item.key = none) (hobserved : store.observations item.key = none)
    (hlive : store.hasNonchannelDeletion item.key = false) :
    store.isCurrentObservation item source = true := by
  rw [isCurrentObservation, hlive, hobserved, hmessage]
  rfl

/-- The observation row that a first bundle leaves is not deleted. -/
theorem recordMessageObservations_new (source : ReactionAggregateSource)
    (hobserved : store.observations item.key = none) :
    ∃ state, (store.recordMessageObservations [item] source).observations item.key = some state ∧
      state.isDeleted = false := by
  rw [recordMessageObservations]
  split_ifs
  · exact ⟨_, recordMessageObservation_new store.allocateObservationOrder.2 item source _ hobserved,
      rfl⟩
  · exact ⟨_, recordMessageObservation_new store item source _ hobserved, rfl⟩

/-- The event is staged first. -/
theorem stage_then_insert (eventReads reads : MessageReads) (source : ReactionAggregateSource)
    (priority : HydrationPriority) (hkey : item.key = event.key)
    (hmessage : store.messages event.key = none) (hobserved : store.observations event.key = none)
    (hlive : store.hasNonchannelDeletion event.key = false) (hvalid : item.message.ValidJob)
    (hcanonical : env.isCanonicalMediaPair item.message.mediaKind item.message.mediaPayload = true)
    (htranscribable : isTranscribableTelegramMedia
      (env.decodeMediaFact item.message.mediaKind item.message.mediaPayload) = true)
    (htext : strip event.transcribedText ≠ "") :
    ∃ result, (store.stageMessageTranscription eventReads event).2.insertMessagesWithFts env reads
        [item] source priority = .ok result ∧
      ShowsTranscription env event.key (item.message.mediaKind, item.message.mediaPayload)
        (winningRow (store.transcriptions event.key) event (eventOrder eventReads store))
        result.2 := by
  obtain ⟨staged, hstaged, hmessages, hobservations, hnonchannel, hrow⟩ :=
    stage_spec eventReads store event hmessage hobserved hlive htext
  rw [hstaged]
  rw [← hkey] at hmessage hobserved hlive hrow ⊢
  have hnone : staged.2.messages item.key = none := by rw [hmessages, hmessage]
  have hcurrent : staged.2.isCurrentObservation item source = true := by
    refine isCurrentObservation_new source hnone (by rw [hobservations, hobserved]) ?_
    rw [hasNonchannelDeletion, hnonchannel]
    exact hlive
  obtain ⟨written, hinsert, hwritten⟩ :=
    insertMessagesWithFts_single env reads staged.2 item source priority hcurrent hvalid
  refine ⟨(1, written), hinsert, insert_showsTranscription hwritten ?_ ?_ hcanonical
    htranscribable hrow⟩
  all_goals
    intro stored hstored
    rw [hnone] at hstored
    cases hstored

/-- The message comes first. -/
theorem insert_then_apply (eventReads reads : MessageReads) (source : ReactionAggregateSource)
    (priority : HydrationPriority) (hkey : item.key = event.key)
    (hmessage : store.messages event.key = none) (hobserved : store.observations event.key = none)
    (hlive : store.hasNonchannelDeletion event.key = false) (hvalid : item.message.ValidJob)
    (hcanonical : env.isCanonicalMediaPair item.message.mediaKind item.message.mediaPayload = true)
    (htranscribable : isTranscribableTelegramMedia
      (env.decodeMediaFact item.message.mediaKind item.message.mediaPayload) = true)
    (hpair : env.isTranscribableMediaPair item.message.mediaKind item.message.mediaPayload = true)
    (htext : strip event.transcribedText ≠ "")
    (horder : eventReads.delivered ≠ none ∨ item.observationOrder ≠ none) :
    ∃ result, store.insertMessagesWithFts env reads [item] source priority = .ok result ∧
      ShowsTranscription env event.key (item.message.mediaKind, item.message.mediaPayload)
        (winningRow (store.transcriptions event.key) event (eventOrder eventReads store))
        (result.2.applyMessageTranscription env eventReads event).2 := by
  rw [← hkey] at hmessage hobserved hlive
  have hcurrent := isCurrentObservation_new source hmessage hobserved hlive
  obtain ⟨written, hinsert, hwritten⟩ :=
    insertMessagesWithFts_single env reads store item source priority hcurrent hvalid
  refine ⟨(1, written), hinsert, ?_⟩
  have hkept : store.preserveNewerReceivedMedia item = item := by
    rw [preserveNewerReceivedMedia, hmessage]
  have hvacuous : ∀ p : MessageRow → Prop, ∀ stored, store.messages item.key = some stored →
      p stored := by
    intro p stored hstored
    rw [hmessage] at hstored
    cases hstored
  -- the transcription that was there already, if any, is shown by the message
  have hshown : ∀ row, store.transcriptions item.key = some row →
      ShowsTranscription env item.key (item.message.mediaKind, item.message.mediaPayload) row
        written := fun row hrow => insert_showsTranscription hwritten (hvacuous _) (hvacuous _)
          hcanonical htranscribable hrow
  have hsame : written.transcriptions item.key = store.transcriptions item.key := by
    cases hrow : store.transcriptions item.key with
    | some row => exact (hshown row hrow).transcription
    | none =>
      rw [hwritten.transcriptions]
      split_ifs
      · exact (Table.drop_apply _ _ _).trans (if_pos rfl)
      · exact hrow
  obtain ⟨text, hprojected⟩ := store.projectedBundle_rest env item
  rw [hkept] at hprojected
  have hrows : written.ftsRows item.key =
      [⟨item.key, env.stemText (store.projectedBundle env item).1.message.text⟩] := by
    rw [hwritten.fts, if_pos]
    simp [ftsRefreshNeeded, storedPageFact, hmessage]
  obtain ⟨state, hstate, hstateLive⟩ := recordMessageObservations_new source hobserved
  have hwrittenOrder : eventOrder eventReads written = eventOrder eventReads store := by
    rw [eventOrder, eventOrder, deliveredObservationOrder, deliveredObservationOrder]
    rcases horder with hdelivered | hordered
    · obtain ⟨order, hdelivered⟩ := Option.ne_none_iff_exists'.mp hdelivered
      rw [hdelivered]
    · obtain ⟨order, hordered⟩ := Option.ne_none_iff_exists'.mp hordered
      have hsequence : written.sequence = store.sequence := by
        rw [hwritten.sequence, hkept, recordMessageObservations_ordered _ _ _ hordered]
        rfl
      cases eventReads.delivered with
      | some _ => rfl
      | none =>
        rw [allocateObservationOrder, allocateObservationOrder]
        exact congrArg (· + 1) hsequence
  have hstored : written.messages event.key = some (rowOf (store.projectedBundle env item).1) := by
    rw [← hkey, hwritten.messages, Table.put_self]
  have hmedia : ((rowOf (store.projectedBundle env item).1).message.mediaKind,
      (rowOf (store.projectedBundle env item).1).message.mediaPayload) =
        (item.message.mediaKind, item.message.mediaPayload) := by
    rw [rowOf, hprojected]
  have hwrittenLive : written.hasNonchannelDeletion event.key = false := by
    rw [← hkey, hasNonchannelDeletion, hwritten.nonchannel]
    exact hlive
  have hwrittenState : written.observations event.key = some state := by
    rw [← hkey, hwritten.observations, hkept, hstate]
  rw [hkey] at hrows hshown hsame
  rw [← hwrittenOrder, ← hsame]
  exact apply_shows env eventReads written event hstored rfl hmedia hpair hwrittenState hstateLive
    hwrittenLive (hkey ▸ hwritten.ftsKeys) hrows (fun row hrow => hshown row (hsame ▸ hrow)) htext

end Orders

/-- Staging the transcription and inserting the message leaves the same text, index row,
transcription and job as inserting the message and applying the transcription, and inserting the
body again keeps the text. -/
theorem transcription_commutes (env : MessageEnv) (store : MessageStore) (event : Transcription)
    (item : ExtractedMessage) (hkey : item.key = event.key)
    (hmessage : store.messages event.key = none)
    (hobserved : ∀ state, store.observations event.key = some state → state.isDeleted = true)
    (hvalid : item.message.ValidJob)
    (hcanonical : env.isCanonicalMediaPair item.message.mediaKind item.message.mediaPayload = true)
    (hpair : env.isTranscribableMediaPair item.message.mediaKind item.message.mediaPayload = true)
    (hreads : env.ReadsBack item.message.mediaKind item.message.mediaPayload)
    (htext : strip event.transcribedText ≠ "") (eventReads : MessageReads)
    (horder : eventReads.delivered ≠ none ∨ item.observationOrder ≠ none)
    (reads reads' : MessageReads) (source source' : ReactionAggregateSource)
    (priority priority' : HydrationPriority) :
    ∃ staged inserted,
      (store.stageMessageTranscription eventReads event).2.insertMessagesWithFts env reads [item]
        source priority = .ok staged ∧
      store.insertMessagesWithFts env reads' [item] source' priority' = .ok inserted ∧
      SameTranscription event.key staged.2
        (inserted.2.applyMessageTranscription env eventReads event).2 ∧
      (¬ store.DeletionRecorded event.key →
        ShowsTranscription env event.key (item.message.mediaKind, item.message.mediaPayload)
          (winningRow (store.transcriptions event.key) event (eventOrder eventReads store))
          staged.2) ∧
      ∀ later : List (MessageReads × MessageOperation), (∀ call ∈ later, Reinserts item call) →
        (later.foldl (step env) staged.2).readMessageText event.key =
          staged.2.readMessageText event.key ∧
        (later.foldl (step env) (inserted.2.applyMessageTranscription env eventReads
            event).2).readMessageText event.key =
          (inserted.2.applyMessageTranscription env eventReads event).2.readMessageText
            event.key := by
  have htranscribable := JsonText.transcribable_of_pair hcanonical hreads hpair
  by_cases hdeleted : store.DeletionRecorded event.key
  · obtain ⟨hstaged, hinsert, happlied⟩ :=
      orders_deleted env hkey hdeleted eventReads reads source priority
    obtain ⟨-, hinsert', -⟩ := orders_deleted env hkey hdeleted eventReads reads' source' priority'
    refine ⟨(0, store), (0, store), by rw [hstaged, hinsert], hinsert', ?_, absurd hdeleted, ?_⟩
    · rw [happlied]
      exact ⟨rfl, rfl, rfl, rfl⟩
    · intro later _
      have hkept := ((@run_respects env store later).kept event.key hdeleted).message
      have hread : (later.foldl (step env) store).readMessageText event.key =
          store.readMessageText event.key := by
        simpa only [Option.map_map, Function.comp_def, readMessageText] using
          congrArg (Option.map StoredMessage.text) hkept
      rw [happlied]
      exact ⟨hread, hread⟩
  · obtain ⟨hnotDeleted, hlive⟩ := not_or.mp hdeleted
    have hnone : store.observations event.key = none := by
      cases hstate : store.observations event.key with
      | none => rfl
      | some state =>
        rw [hstate, Option.any_some] at hnotDeleted
        exact absurd (hobserved state hstate) hnotDeleted
    rw [Bool.not_eq_true] at hlive
    obtain ⟨staged, hstaged, hfirst⟩ := stage_then_insert eventReads reads source priority hkey
      hmessage hnone hlive hvalid hcanonical htranscribable htext
    obtain ⟨inserted, hinserted, hsecond⟩ := insert_then_apply eventReads reads' source' priority'
      hkey hmessage hnone hlive hvalid hcanonical htranscribable hpair htext horder
    refine ⟨staged, inserted, hstaged, hinserted, ⟨?_, ?_, ?_, ?_⟩, fun _ => hfirst, ?_⟩
    · rw [hfirst.text, hsecond.text]
    · rw [hfirst.fts, hsecond.fts]
    · rw [hfirst.transcription, hsecond.transcription]
    · rw [hfirst.job, hsecond.job]
    · intro later hlater
      rw [hfirst.text, hsecond.text]
      rw [← hkey] at hfirst hsecond ⊢
      exact ⟨(reinserts_show hcanonical htranscribable hlater hfirst).text,
        (reinserts_show hcanonical htranscribable hlater hsecond).text⟩

/-- The payload of a voice message of three seconds. -/
def voicePayload : String := "\x7b\"duration\":3\x7d"

/-- The JSON functions on the payload of the voice message; a text is one word. -/
def voiceEnv : MessageEnv where
  words text := [text]
  stemWords := id
  parse text := if text = voicePayload then some (.obj [("duration", .int 3)]) else none
  print
    | .obj [("duration", .int 3)] => voicePayload
    | _ => "null"
  sqlValid text := text == voicePayload
  sqlType _ := "object"
  sqlTypeAt _ _ := none

/-- A voice message without a caption. -/
def voiceItem (order : Option ℤ) : ExtractedMessage where
  message := { key := ⟨7, 5⟩, sentAt := 10, text := some "", editDate := none
               mediaKind := some "voice", mediaPayload := some voicePayload }
  observationOrder := order

/-- Its transcription. -/
def voiceEvent : Transcription := ⟨⟨7, 5⟩, " good morning ", 3, 60⟩

/-- The codec reads back what it printed for the voice message. -/
theorem voice_readsBack : voiceEnv.ReadsBack (some "voice") (some voicePayload) := by
  intro fact hfact
  have hload : voiceEnv.decodeMediaFact (some "voice") (some voicePayload) =
      some ⟨"voice", [("duration", .int 3)]⟩ := rfl
  obtain rfl := Option.some.inj (hload.symm.trans hfact)
  rfl

/-- The transcription of the voice message is delivered under order 40, before or after it. -/
theorem transcription_commutes_sample :
    ∃ staged inserted,
      (stageMessageTranscription { delivered := some 40 } {} voiceEvent).2.insertMessagesWithFts
        voiceEnv sampleReads [voiceItem none] .history .foreground = .ok staged ∧
      insertMessagesWithFts voiceEnv sampleReads {} [voiceItem none] .history .foreground =
        .ok inserted ∧
      SameTranscription ⟨7, 5⟩ staged.2
        (inserted.2.applyMessageTranscription voiceEnv { delivered := some 40 } voiceEvent).2 ∧
      staged.2.readMessageText ⟨7, 5⟩ = some (some "good morning") := by
  obtain ⟨staged, inserted, hstaged, hinserted, hsame, hshows, -⟩ :=
    transcription_commutes voiceEnv {} voiceEvent (voiceItem none) rfl rfl
      (fun _ h => nomatch h) (by decide) (by decide +kernel) (by decide +kernel) voice_readsBack
      (by decide +kernel) { delivered := some 40 } (Or.inl (Option.some_ne_none _)) sampleReads
      sampleReads .history .history .foreground .foreground
  refine ⟨staged, inserted, hstaged, hinserted, hsame, ?_⟩
  refine (hshows ?_).text.trans ?_
  · rintro (h | h)
    · cases h
    · exact absurd h (by decide)
  · exact congrArg (fun text => some (some text)) (by decide +kernel)

/-- The store after staging the transcription and inserting the message. -/
def stagedThenInserted (eventReads : MessageReads) (store : MessageStore)
    (item : ExtractedMessage) : Option MessageStore :=
  ((store.stageMessageTranscription eventReads voiceEvent).2.insertMessagesWithFts voiceEnv
    sampleReads [item] .history .foreground).toOption.map (·.2)

/-- The store after inserting the message and applying the transcription. -/
def insertedThenApplied (eventReads : MessageReads) (store : MessageStore)
    (item : ExtractedMessage) : Option MessageStore :=
  (store.insertMessagesWithFts voiceEnv sampleReads [item] .history .foreground).toOption.map
    fun result => (result.2.applyMessageTranscription voiceEnv eventReads voiceEvent).2

/-- The observation order of the stored transcription. -/
def transcriptionOrder (store : Option MessageStore) : Option (Option ℤ) :=
  (store.bind (·.transcriptions ⟨7, 5⟩)).map (·.observationOrder)

/-- Without a delivered order and without an order of the bundle, the two rows carry different
orders; and under a live observation row without a message, one order stores the transcription and
the other does not. -/
theorem transcription_orders_differ :
    transcriptionOrder (stagedThenInserted sampleReads {} (voiceItem none)) = some (some 1) ∧
    transcriptionOrder (insertedThenApplied sampleReads {} (voiceItem none)) = some (some 2) ∧
    transcriptionOrder (stagedThenInserted { delivered := some 40 }
      { observations := Table.put (fun _ => none) ⟨7, 5⟩ { observationOrder := 9 } }
      (voiceItem (some 5))) = some (some 40) ∧
    transcriptionOrder (insertedThenApplied { delivered := some 40 }
      { observations := Table.put (fun _ => none) ⟨7, 5⟩ { observationOrder := 9 } }
      (voiceItem (some 5))) = none := by
  refine ⟨?_, ?_, ?_, ?_⟩
  all_goals decide +kernel

end MessageStore

end McpTelegram
