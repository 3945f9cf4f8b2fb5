import McpTelegram.Messages.Operations
import McpTelegram.Messages.Transcribed

/-!
# The history of edits

`persist_edited_message` keeps the stored text of an incoming message of a private chat as a
version when the text of the bundle differs from it.  What is stored afterwards is not always the
text of the bundle: a blank text of a medium gives way to the stored one, and a stored
transcription takes the place of the text of its medium.  So the versions are exactly the changes
of the stored text as long as these two rules agree with the comparison
(`edit_history_exact`); their numbers have no gaps in any case.
-/

namespace McpTelegram

open Foundations

variable {count : ℕ}

/-- A row of `conversation_history_events`, with the columns that an edit fills. -/
structure HistoryEventRow where
  kind : String
  occurredAt : ℤ
  timeBasis : String
  key : MessageKey
  version : Option ℕ
  deriving DecidableEq

namespace MessageStore

section Definitions

variable (env : MessageEnv) (reads : MessageReads) (store : MessageStore)

/-- `_INSERT_HUMAN_DM_EDIT_ALERT_SQL`, with the unique index of the edits. -/
def insertEditAlert (events : List HistoryEventRow) (key : MessageKey) (version : ℕ)
    (editDate : ℤ) : List HistoryEventRow :=
  if ¬ store.isHumanDmMessage reads key then events
  else if events.any fun event => event.kind = "edit" ∧ event.key = key ∧
      event.version = some version then events
  else events ++ [⟨"edit", editDate, "telegram", key, some version⟩]

/-- `persist_edited_message` with the table of the history events: the alert follows the nested
insertion. -/
def persistEditedMessageEvents (events : List HistoryEventRow) (item : ExtractedMessage)
    (editDate : Option ℤ) (priority : HydrationPriority) (source : ReactionAggregateSource) :
    Except MessageError (Option ℕ × MessageStore × List HistoryEventRow) :=
  (store.persistEditedMessage env reads item editDate priority source).map
    fun (version, written) =>
      match version, editDate with
      | some version, some editDate =>
        (some version, written, written.insertEditAlert reads events item.key version editDate)
      | version, _ => (version, written, events)

/-- What a call leaves when it records the change of the stored text, and nothing else. -/
structure RecordsChange (events : List HistoryEventRow) (key : MessageKey) (editDate : Option ℤ)
    (version : Option ℕ) (written : MessageStore) (newEvents : List HistoryEventRow) : Prop where
  /-- A version number is returned just when the stored text has changed. -/
  returned : version.isSome ↔ written.readMessageText key ≠ store.readMessageText key
  /-- The version is one row with the next number and the text before the call. -/
  added : ∀ number, version = some number → number = store.nextVersion key ∧
    ∃ oldText, store.readMessageText key = some oldText ∧
      written.versions = Function.update store.versions key
        (store.versions key ++ [⟨number, oldText, editDate⟩])
  /-- Without a version nothing is recorded. -/
  unchanged : version = none → written.versions = store.versions ∧ newEvents = events

/-- The text of the stored transcription, where it takes the place of the text of the bundle. -/
def overlaidText (item : ExtractedMessage) : Option String :=
  let message := (store.preserveNewerReceivedMedia item).message
  if env.isCanonicalMediaPair message.mediaKind message.mediaPayload &&
      isTranscribableTelegramMedia (env.decodeMediaFact message.mediaKind message.mediaPayload) then
    (store.transcriptions item.key).map (·.text)
  else none

/-- A blank text of a medium whose stored text is kept. -/
def KeepsStoredText (item : ExtractedMessage) : Prop :=
  let message := (store.preserveNewerReceivedMedia item).message
  ¬ (item.message.text.any fun text => strip text ≠ "") ∧
    (message.mediaKind.any fun kind => kind ∈ factHydrationEmptyKinds ∨ kind = "voice") ∧
    ∃ text, store.readMessageText item.key = some (some text) ∧ text ≠ ""

/-- The two rules that replace the text of a bundle agree with the comparison of that text and the
stored one, or the bundle is not current. -/
def RewritesAgree (item : ExtractedMessage) (source : ReactionAggregateSource) : Prop :=
  store.isCurrentObservation item source = true →
    ∀ oldText, store.readMessageText item.key = some oldText →
      match store.overlaidText env item with
      | some text => some text = oldText ↔ item.message.text = oldText
      | none => store.KeepsStoredText item → item.message.text = oldText

end Definitions

/-! ## The text that is stored -/

section StoredText

variable (env : MessageEnv) (store : MessageStore) (item : ExtractedMessage)

/-- The media are settled before the text, so the text of the bundle is still its own. -/
theorem preserveNewerReceivedMedia_text :
    (store.preserveNewerReceivedMedia item).message.text = item.message.text := by
  obtain ⟨kind, payload, hmessage⟩ := store.preserveNewerReceivedMedia_message item
  rw [hmessage]

/-- The overlay puts the text of the stored transcription in the place of the text of transcribable
media. -/
theorem overlayMessageTranscription_text (facts : MessageKey → StoredPageFact) :
    (overlayMessageTranscription env facts item).1.message.text =
      if env.isCanonicalMediaPair item.message.mediaKind item.message.mediaPayload &&
          isTranscribableTelegramMedia
            (env.decodeMediaFact item.message.mediaKind item.message.mediaPayload) then
        ((facts item.key).transcription.map some).getD item.message.text
      else item.message.text := by
  rw [overlayMessageTranscription]
  cases (facts item.key).transcription with
  | none => split_ifs <;> rfl
  | some text =>
    dsimp only
    split_ifs <;> rfl

/-- The text that is stored is that of the transcription, or that of the bundle after blank texts
were filled. -/
theorem projectedBundle_text : (store.projectedBundle env item).1.message.text =
    ((store.overlaidText env item).map some).getD
      (preserveTranscribedText store.storedPageFact
        (store.preserveNewerReceivedMedia item)).message.text := by
  obtain ⟨text, hpreserved⟩ := preserveTranscribedText_rest
    (store.preserveNewerReceivedMedia item) store.storedPageFact
  have hfact : (store.storedPageFact item.key).transcription =
      (store.transcriptions item.key).map (·.text) := rfl
  rw [projectedBundle, overlayMessageTranscription_text, preserveTranscribedText_key,
    preserveNewerReceivedMedia_key, hfact, hpreserved, overlaidText]
  dsimp only
  split_ifs
  · rfl
  · rfl

/-- A blank text of a medium is filled with the stored one. -/
theorem preserveTranscribedText_text_kept (h : store.KeepsStoredText item) :
    some (preserveTranscribedText store.storedPageFact
      (store.preserveNewerReceivedMedia item)).message.text = store.readMessageText item.key := by
  obtain ⟨hblank, hkind, text, hstored, hne⟩ := h
  have hfact : (store.storedPageFact item.key).text = some text := by
    rw [storedPageFact, hstored]
    rfl
  rw [preserveTranscribedText, preserveNewerReceivedMedia_text, preserveNewerReceivedMedia_key,
    if_neg hblank, if_neg (not_not.mpr hkind), hfact, hstored]
  dsimp only
  rw [if_neg hne]

/-- Any other text stays as it is. -/
theorem preserveTranscribedText_text_own (h : ¬ store.KeepsStoredText item) :
    (preserveTranscribedText store.storedPageFact
      (store.preserveNewerReceivedMedia item)).message.text = item.message.text := by
  have hown := store.preserveNewerReceivedMedia_text item
  rw [preserveTranscribedText, hown, preserveNewerReceivedMedia_key]
  split_ifs with htext hkind
  · exact hown
  · have hnone : ∀ text, (store.storedPageFact item.key).text = some text → text = "" := by
      intro text hstored
      by_contra hne
      exact h ⟨htext, hkind, text, Option.join_eq_some_iff.mp hstored, hne⟩
    cases hfact : (store.storedPageFact item.key).text with
    | none => exact hown
    | some text =>
      dsimp only
      rw [if_pos (hnone text hfact)]
      exact hown
  · exact hown

end StoredText

/-! ## One edit -/

section Edit

variable {env : MessageEnv} {reads : MessageReads} {store written : MessageStore}
  {item : ExtractedMessage} {editDate : Option ℤ} {priority : HydrationPriority}
  {source : ReactionAggregateSource} {version : Option ℕ}

/-- A current bundle that is inserted leaves its text, and the versions as they were. -/
theorem insertMessagesWithFts_text
    (h : store.insertMessagesWithFts env reads [item] source priority = .ok (count, written))
    (hcurrent : store.isCurrentObservation item source = true) :
    written.readMessageText item.key = some (store.projectedBundle env item).1.message.text ∧
      written.versions = store.versions := by
  by_cases hvalid : item.message.ValidJob
  · obtain ⟨inserted, hinsert, hinserted⟩ :=
      insertMessagesWithFts_single env reads store item source priority hcurrent hvalid
    obtain rfl := (Prod.mk.inj (Except.ok.inj (hinsert.symm.trans h))).2
    refine ⟨?_, hinserted.versions⟩
    rw [readMessageText, hinserted.messages, Table.put_self]
    rfl
  · rw [insertMessagesWithFts_invalid env reads store item source priority hcurrent hvalid] at h
    cases h

/-- What an edit does to the text and the versions of an incoming message of a private chat. -/
inductive EditCase (env : MessageEnv) (store : MessageStore) (item : ExtractedMessage)
    (editDate : Option ℤ) (source : ReactionAggregateSource) :
    Option ℕ → MessageStore → Prop
  | rejected (hcurrent : store.isCurrentObservation item source = false) :
      EditCase env store item editDate source none store
  | unchanged {written : MessageStore} {oldText : Option String}
      (hcurrent : store.isCurrentObservation item source = true)
      (hstored : store.readMessageText item.key = some oldText)
      (htext : item.message.text = oldText)
      (hwritten : written.readMessageText item.key =
        some (store.projectedBundle env item).1.message.text)
      (hversions : written.versions = store.versions) :
      EditCase env store item editDate source none written
  | changed {written : MessageStore} {oldText : Option String}
      (hcurrent : store.isCurrentObservation item source = true)
      (hstored : store.readMessageText item.key = some oldText)
      (htext : item.message.text ≠ oldText)
      (hwritten : written.readMessageText item.key =
        some (store.projectedBundle env item).1.message.text)
      (hversions : written.versions = Function.update store.versions item.key
        (store.versions item.key ++ [⟨store.nextVersion item.key, oldText, editDate⟩])) :
      EditCase env store item editDate source (some (store.nextVersion item.key)) written

/-- An edit of an incoming message of a private chat is one of the cases. -/
theorem persistEditedMessage_cases (hhuman : store.isHumanDmMessage reads item.key = true)
    (h : store.persistEditedMessage env reads item editDate priority source =
      .ok (version, written)) : EditCase env store item editDate source version written := by
  rw [persistEditedMessage] at h
  split at h
  · rename_i hcurrent
    cases h
    exact .rejected (by simpa using hcurrent)
  · rename_i hcurrent
    have hcurrent : store.isCurrentObservation item source = true := by simpa using hcurrent
    split at h
    · rename_i hmissing
      rw [isHumanDmMessage] at hhuman
      rw [readMessageText, Option.map_eq_none_iff] at hmissing
      rw [hmissing] at hhuman
      cases hhuman
    · rename_i oldText hstored
      split at h
      · rename_i hsame
        have htext : item.message.text = oldText := by
          rcases hsame with hsame | hother
          · exact hsame.symm
          · exact absurd hhuman hother
        obtain ⟨⟨count, inserted⟩, hinsert, hresult⟩ := except_map_eq_ok.mp h
        cases hresult
        obtain ⟨hwritten, hversions⟩ := insertMessagesWithFts_text hinsert hcurrent
        exact .unchanged hcurrent hstored htext hwritten hversions
      · rename_i hdifferent
        obtain ⟨⟨count, inserted⟩, hinsert, hresult⟩ := except_map_eq_ok.mp h
        cases hresult
        -- the new version is not read by the insertion
        obtain ⟨hwritten, hversions⟩ := insertMessagesWithFts_text hinsert hcurrent
        exact .changed hcurrent hstored (fun h => hdifferent (.inl h.symm)) hwritten hversions

/-- The stored text changes under the rules just as it would without them. -/
theorem rewritesAgree_iff {oldText : Option String}
    (hcurrent : store.isCurrentObservation item source = true)
    (hstored : store.readMessageText item.key = some oldText) :
    store.RewritesAgree env item source ↔
      ((store.projectedBundle env item).1.message.text = oldText ↔
        item.message.text = oldText) := by
  have hunfold : store.RewritesAgree env item source ↔
      match store.overlaidText env item with
      | some text => some text = oldText ↔ item.message.text = oldText
      | none => store.KeepsStoredText item → item.message.text = oldText := by
    refine ⟨fun h => h hcurrent oldText hstored, fun h _ other hother => ?_⟩
    obtain rfl := Option.some.inj (hstored.symm.trans hother)
    exact h
  rw [hunfold, projectedBundle_text]
  cases store.overlaidText env item with
  | some text => rfl
  | none =>
    dsimp only [Option.map_none, Option.getD_none]
    by_cases hkeeps : store.KeepsStoredText item
    · have hkept := store.preserveTranscribedText_text_kept item hkeeps
      rw [hstored] at hkept
      rw [Option.some.inj hkept]
      simp [hkeeps]
    · rw [store.preserveTranscribedText_text_own item hkeeps]
      simp [hkeeps]

/-- An edit records the change of the stored text just when the rules agree. -/
theorem recordsChange_iff {events newEvents : List HistoryEventRow}
    (hhuman : store.isHumanDmMessage reads item.key = true)
    (h : store.persistEditedMessageEvents env reads events item editDate priority source =
      .ok (version, written, newEvents)) :
    store.RecordsChange events item.key editDate version written newEvents ↔
      store.RewritesAgree env item source := by
  obtain ⟨⟨kept, inserted⟩, hedit, hresult⟩ := except_map_eq_ok.mp h
  have hcase := persistEditedMessage_cases hhuman hedit
  obtain ⟨rfl, rfl, hevents⟩ : kept = version ∧ inserted = written ∧
      (version = none → newEvents = events) := by
    cases kept with
    | none =>
      cases hresult
      exact ⟨rfl, rfl, fun _ => rfl⟩
    | some number =>
      cases editDate with
      | none =>
        cases hresult
        exact ⟨rfl, rfl, fun h => by cases h⟩
      | some date =>
        cases hresult
        exact ⟨rfl, rfl, fun h => by cases h⟩
  cases hcase with
  | rejected hcurrent =>
    refine iff_of_true ⟨by simp, by simp, fun _ => ⟨rfl, hevents rfl⟩⟩ ?_
    intro hother
    rw [hcurrent] at hother
    cases hother
  | unchanged hcurrent hstored htext hwritten hversions =>
    rw [rewritesAgree_iff hcurrent hstored]
    constructor
    · intro hrecords
      have hreturned := hrecords.returned
      rw [hwritten, hstored] at hreturned
      simpa [htext] using hreturned
    · intro hagree
      refine ⟨?_, by simp, fun _ => ⟨hversions, hevents rfl⟩⟩
      rw [hwritten, hstored]
      simpa [htext] using hagree
  | changed hcurrent hstored htext hwritten hversions =>
    rw [rewritesAgree_iff hcurrent hstored]
    constructor
    · intro hrecords
      have hreturned := hrecords.returned
      rw [hwritten, hstored] at hreturned
      simpa [htext] using hreturned
    · intro hagree
      refine ⟨?_, ?_, by simp⟩
      · rw [hwritten, hstored]
        simpa [htext] using hagree
      · rintro number ⟨⟩
        exact ⟨rfl, _, hstored, hversions⟩

end Edit

/-! ## Operations that leave the versions alone -/

section Versions

variable {env : MessageEnv} {reads : MessageReads} {store written : MessageStore}
  {source : ReactionAggregateSource} {priority : HydrationPriority}

/-- A loop over statements that leave the versions alone leaves them alone. -/
theorem foldl_versions {α : Type} {f : MessageStore → α → MessageStore}
    (h : ∀ store a, (f store a).versions = store.versions) (items : List α)
    (store : MessageStore) : (items.foldl f store).versions = store.versions := by
  induction items generalizing store with
  | nil => rfl
  | cons a items ih => exact (ih (f store a)).trans (h store a)

theorem recordMessageObservations_versions (accepted : List ExtractedMessage) :
    (store.recordMessageObservations accepted source).versions = store.versions := by
  rw [recordMessageObservations_rest]

theorem dropTranscriptions_versions (facts : MessageKey → StoredPageFact)
    (items : List ExtractedMessage) :
    (store.dropTranscriptions env facts items).1.versions = store.versions := by
  rw [dropTranscriptions]
  induction items generalizing store facts with
  | nil => rfl
  | cons item items ih =>
    rw [List.foldl_cons]
    dsimp only
    split_ifs
    · exact ih _
    · exact ih _

theorem insertFts_versions (key : MessageKey) (stemmed : String) :
    (store.insertFts key stemmed).versions = store.versions := by
  rw [insertFts]
  split_ifs <;> rfl

theorem writeMessageRowsAndFts_versions (before : MessageStore)
    (facts : MessageKey → StoredPageFact) (items : List ExtractedMessage) :
    (store.writeMessageRowsAndFts env reads before facts priority items).versions =
      store.versions := by
  rw [writeMessageRowsAndFts]
  have hreconcile : ∀ (store : MessageStore) (item : ExtractedMessage),
      (store.reconcileFactHydrationJob env reads before facts priority item).versions =
        store.versions := by
    intro store item
    rw [reconcileFactHydrationJob_onlyJobs env reads store before facts priority item]
  rw [foldl_versions hreconcile, foldl_versions fun _ _ => insertFts_versions _ _]
  refine (foldl_versions ?_ _ _).trans (foldl_versions ?_ _ _)
  · intro store item
    rfl
  · intro store item
    rfl

/-- An insertion leaves the versions alone. -/
theorem insertMessagesWithFts_versions {extracted : List ExtractedMessage}
    (h : store.insertMessagesWithFts env reads extracted source priority = .ok (count, written)) :
    written.versions = store.versions := by
  rw [insertMessagesWithFts] at h
  dsimp only at h
  split at h
  · cases h
    rfl
  · split at h
    · cases h
    · cases h
      rw [replaceEntitiesAndForwards]
      refine (foldl_versions ?_ _ _).trans ?_
      · intro store item
        rfl
      · rw [writeMessageRowsAndFts_versions, dropTranscriptions_versions,
          recordMessageObservations_versions]

theorem recordMessageDeletions_versions (dialogId : ℤ) (messageIds : List ℤ) :
    (store.recordMessageDeletions dialogId messageIds).2.versions = store.versions := by
  rw [recordMessageDeletions]
  dsimp only
  split_ifs
  · rfl
  · refine (foldl_versions ?_ _ store.allocateObservationOrder.2).trans rfl
    intro store messageId
    rfl

theorem recordNonchannelDeletions_versions (messageIds : List ℤ) (deletedAt : ℤ) :
    (store.recordNonchannelDeletions messageIds deletedAt).versions = store.versions := by
  rw [recordNonchannelDeletions]
  refine foldl_versions (fun store messageId => ?_) _ _
  cases store.nonchannelDeletions messageId <;> rfl

theorem markMessageDeleted_versions (key : MessageKey) (deletedAt : ℤ) :
    (store.markMessageDeleted key deletedAt).2.versions = store.versions := by
  have hrecorded := @recordMessageDeletions_versions store key.dialogId [key.messageId]
  rw [markMessageDeleted]
  dsimp only
  split_ifs
  · exact hrecorded
  · split
    · split_ifs
      · exact hrecorded
      · exact hrecorded
    · exact hrecorded

theorem upsertMessageTranscription_versions (event : Transcription) (order : Option ℤ) :
    (store.upsertMessageTranscription reads event order).2.versions = store.versions := by
  have hdelivered : (store.deliveredObservationOrder reads).2.versions = store.versions := by
    rw [deliveredObservationOrder]
    cases reads.delivered <;> rfl
  unfold upsertMessageTranscription
  cases order with
  | some order =>
    dsimp only
    split_ifs <;> rfl
  | none =>
    dsimp only
    split_ifs
    · rfl
    · exact hdelivered
    · exact hdelivered

theorem upserted_versions {event : Transcription} {order : Option ℤ}
    {upserted : Bool × MessageStore}
    (h : store.upsertMessageTranscription reads event order = upserted) :
    upserted.2.versions = store.versions :=
  h ▸ upsertMessageTranscription_versions event order

theorem projectTranscription_versions (key : MessageKey) (text : String) :
    (store.projectTranscription env key text).versions = store.versions := by
  rw [projectTranscription]
  cases store.readMessageText key with
  | none => rfl
  | some oldText =>
    change (store.persistTranscribedText env key oldText text).versions = store.versions
    rw [persistTranscribedText]
    split_ifs
    · rfl
    · rw [insertFts_versions, deleteFts, updateMessageText]
      cases store.messages key <;> rfl

/-- The three writers of a transcription leave the versions alone. -/
theorem applyMessageTranscription_versions (event : Transcription) :
    (store.applyMessageTranscription env reads event).2.versions = store.versions := by
  rw [applyMessageTranscription]
  dsimp only
  split_ifs
  · rfl
  · rfl
  · split
    next upserted hupsert => exact upserted_versions hupsert
    next upserted hupsert =>
      exact (projectTranscription_versions _ _).trans (upserted_versions hupsert)
  · rfl

theorem applyMessageTranscriptionIfAbsent_versions (event : Transcription) (order : Option ℤ) :
    (store.applyMessageTranscriptionIfAbsent env reads event order).2.versions =
      store.versions := by
  rw [applyMessageTranscriptionIfAbsent]
  dsimp only
  split_ifs
  · rfl
  · rfl
  · rfl
  · rfl
  · split
    next upserted hupsert => exact upserted_versions hupsert
    next upserted hupsert =>
      exact (projectTranscription_versions _ _).trans (upserted_versions hupsert)

theorem stageMessageTranscription_versions (event : Transcription) :
    (store.stageMessageTranscription reads event).2.versions = store.versions := by
  rw [stageMessageTranscription]
  dsimp only
  split_ifs
  · rfl
  · rfl
  · split
    next upserted hupsert => exact upserted_versions hupsert
    next upserted hupsert =>
      exact (upserted_versions hupsert : (true, upserted).2.versions = store.versions)

end Versions

/-! ## The numbers of the versions -/

/-- The versions of every message are numbered from one without gaps. -/
def Numbered (store : MessageStore) : Prop :=
  ∀ key, (store.versions key).map (·.version) = List.range' 1 (store.versions key).length

/-- The greatest number of a list without gaps is its length. -/
theorem foldr_max_range' (count floor : ℕ) :
    (List.range' 1 count).foldr max floor = max count floor := by
  induction count generalizing floor with
  | zero => simp
  | succ count ih =>
    rw [List.range'_concat, List.foldr_append]
    change (List.range' 1 count).foldr max (max (1 + 1 * count) floor) = _
    rw [ih]
    omega

/-- The next version has the next number. -/
theorem Numbered.nextVersion {store : MessageStore} (h : store.Numbered) (key : MessageKey) :
    store.nextVersion key = (store.versions key).length + 1 := by
  rw [MessageStore.nextVersion, h key, foldr_max_range', Nat.max_zero]

section Runs

variable {env : MessageEnv} {reads : MessageReads} {store written : MessageStore}

/-- A store with the same versions is numbered like them. -/
theorem Numbered.of_versions (h : store.Numbered) (hsame : written.versions = store.versions) :
    written.Numbered := by
  intro key
  rw [hsame]
  exact h key

/-- An edit keeps the numbering. -/
theorem Numbered.persistEdited (h : store.Numbered) {item : ExtractedMessage} {editDate : Option ℤ}
    {priority : HydrationPriority} {source : ReactionAggregateSource} {version : Option ℕ}
    (hedit : store.persistEditedMessage env reads item editDate priority source =
      .ok (version, written)) : written.Numbered := by
  rw [persistEditedMessage] at hedit
  split at hedit
  · cases hedit
    exact h
  · split at hedit
    · cases hedit
      exact h
    · rename_i oldText hstored
      split at hedit
      · obtain ⟨⟨count, inserted⟩, hinsert, hresult⟩ := except_map_eq_ok.mp hedit
        cases hresult
        exact h.of_versions (insertMessagesWithFts_versions hinsert)
      · obtain ⟨⟨count, inserted⟩, hinsert, hresult⟩ := except_map_eq_ok.mp hedit
        cases hresult
        have hversions := insertMessagesWithFts_versions hinsert
        intro key
        rw [hversions]
        dsimp only
        by_cases hkey : key = item.key
        · subst hkey
          rw [Function.update_self, List.map_append, h item.key, h.nextVersion item.key,
            List.length_append, List.map_singleton, List.length_singleton, List.range'_concat]
          dsimp only
          congr 2
          omega
        · rw [Function.update_of_ne hkey]
          exact h key

/-- A received message keeps the numbering. -/
theorem Numbered.persistReceived (h : store.Numbered) {item : ExtractedMessage}
    (hreceived : store.persistReceivedMessage env reads item = .ok (count, written)) :
    written.Numbered := by
  rw [persistReceivedMessage] at hreceived
  split at hreceived
  · cases hreceived
    exact h
  · split at hreceived
    · cases hreceived
      exact h
    · split at hreceived
      · split at hreceived
        · obtain ⟨⟨version, edited⟩, hedit, hresult⟩ := except_map_eq_ok.mp hreceived
          cases hresult
          exact h.persistEdited hedit
        · exact h.of_versions (insertMessagesWithFts_versions hreceived)
      · exact h.of_versions (insertMessagesWithFts_versions hreceived)

/-- A batch of received messages keeps the numbering. -/
theorem Numbered.persistReceivedAll (h : store.Numbered) {batch : ReceivedBatch}
    (hreceived : store.persistReceivedMessages env reads batch = .ok (count, written)) :
    written.Numbered := by
  rw [persistReceivedMessages] at hreceived
  split at hreceived
  · cases hreceived
  obtain ⟨⟨accepted, last⟩, hloop, hresult⟩ := except_bind_eq_ok.mp hreceived
  dsimp only at hresult
  split at hresult
  · cases hresult
  cases hresult
  refine foldlM_ok_invariant (I := fun reached : ℕ × MessageStore => reached.2.Numbered)
    ?_ h hloop
  rintro ⟨accepted, store⟩ received ⟨accepted', store'⟩ - hstore hround
  dsimp only at hround
  split at hround
  · obtain ⟨⟨count, persisted⟩, hpersist, hresult⟩ := except_map_eq_ok.mp hround
    cases hresult
    exact Numbered.persistReceived hstore hpersist
  · cases hround
    exact hstore

/-- Every operation keeps the numbering. -/
theorem Numbered.step (h : store.Numbered) (call : MessageReads × MessageOperation) :
    (store.step env call).Numbered := by
  obtain ⟨reads, operation⟩ := call
  cases operation with
  | insertMessages extracted source priority =>
    unfold MessageStore.step commit
    dsimp only
    split
    · rename_i hinsert
      exact h.of_versions (insertMessagesWithFts_versions hinsert)
    · exact h
  | persistEdited item editDate priority source =>
    unfold MessageStore.step commit
    dsimp only
    split
    · rename_i hedit
      exact h.persistEdited hedit
    · exact h
  | persistReceived batch =>
    unfold MessageStore.step commit
    dsimp only
    split
    · rename_i hreceived
      exact h.persistReceivedAll hreceived
    · exact h
  | markDeleted key deletedAt => exact h.of_versions (markMessageDeleted_versions key deletedAt)
  | recordDeletions dialogId messageIds =>
    exact h.of_versions (recordMessageDeletions_versions dialogId messageIds)
  | recordNonchannelDeletions messageIds deletedAt =>
    exact h.of_versions (recordNonchannelDeletions_versions messageIds deletedAt)
  | applyTranscription event => exact h.of_versions (applyMessageTranscription_versions event)
  | applyTranscriptionIfAbsent event order =>
    exact h.of_versions (applyMessageTranscriptionIfAbsent_versions event order)
  | stageTranscription event => exact h.of_versions (stageMessageTranscription_versions event)

/-- The versions are numbered in every state that is reached. -/
theorem numbered_after (env : MessageEnv) (calls : List (MessageReads × MessageOperation)) :
    (after env calls).Numbered :=
  List.foldlRecOn (motive := MessageStore.Numbered) calls (MessageStore.step env)
    (fun _ => rfl) fun _ h call _ => h.step call

end Runs

/-! ## The history and the changes of the text -/

/-- An edit of an incoming message of a private chat that returns records the change of the stored
text. -/
def EditRecords (env : MessageEnv) (store : MessageStore) (reads : MessageReads)
    (item : ExtractedMessage) (editDate : Option ℤ) (priority : HydrationPriority)
    (source : ReactionAggregateSource) : Prop :=
  store.isHumanDmMessage reads item.key = true → ∀ events version written newEvents,
    store.persistEditedMessageEvents env reads events item editDate priority source =
      .ok (version, written, newEvents) →
    store.RecordsChange events item.key editDate version written newEvents

/-- Every edit of a run meets a condition in the state that it finds. -/
def EveryEdit (env : MessageEnv)
    (P : MessageStore → MessageReads → ExtractedMessage → Option ℤ → HydrationPriority →
      ReactionAggregateSource → Prop) (calls : List (MessageReads × MessageOperation)) : Prop :=
  ∀ before reads item editDate priority source rest,
    calls = before ++ (reads, .persistEdited item editDate priority source) :: rest →
      P (after env before) reads item editDate priority source

/-- In every run the versions of a message are numbered from one without gaps, and if the rules that
replace the text of a bundle agree with the comparison of that text and the stored one at every
edit, then every edit records the change of the stored text.  At one edit in any state, that they
agree is just what it takes. -/
theorem edit_history_exact (env : MessageEnv) :
    (∀ calls : List (MessageReads × MessageOperation), (after env calls).Numbered ∧
      (EveryEdit env (fun store _ item _ _ source => store.RewritesAgree env item source) calls →
        EveryEdit env (EditRecords env) calls)) ∧
    ∀ (store written : MessageStore) (reads : MessageReads)
      (events newEvents : List HistoryEventRow) (item : ExtractedMessage) (editDate : Option ℤ)
      (priority : HydrationPriority) (source : ReactionAggregateSource) (version : Option ℕ),
      store.isHumanDmMessage reads item.key = true →
      store.persistEditedMessageEvents env reads events item editDate priority source =
        .ok (version, written, newEvents) →
      (store.RecordsChange events item.key editDate version written newEvents ↔
        store.RewritesAgree env item source) := by
  refine ⟨fun calls => ⟨numbered_after env calls, ?_⟩, ?_⟩
  · intro hagree before reads item editDate priority source rest hsplit hhuman events version
      written newEvents hedit
    exact (recordsChange_iff hhuman hedit).mpr
      (hagree before reads item editDate priority source rest hsplit)
  · intro store written reads events newEvents item editDate priority source version hhuman hedit
    exact recordsChange_iff hhuman hedit

/-- A private chat whose peer is a user. -/
def privateReads : MessageReads := { delivered := some 40, userDialog := fun _ => true }

/-- A message of the peer. -/
def incomingItem (text : String) (media : Option String × Option String)
    (editDate : Option ℤ) : ExtractedMessage where
  message := { key := ⟨7, 5⟩, sentAt := 10, text := some text, senderId := some 7, editDate
               mediaKind := media.1, mediaPayload := media.2 }

/-- The text of a message is edited. -/
theorem edit_history_exact_sample : ∃ version written newEvents,
    (after voiceEnv [(privateReads, .insertMessages [incomingItem "early" (none, none) none]
      .realtimeMessage .foreground)]).persistEditedMessageEvents voiceEnv privateReads []
        (incomingItem "late" (none, none) (some 20)) (some 20) .foreground .messageEdit =
      .ok (version, written, newEvents) ∧
    (after voiceEnv [(privateReads, .insertMessages [incomingItem "early" (none, none) none]
      .realtimeMessage .foreground)]).RecordsChange [] ⟨7, 5⟩ (some 20) version written
        newEvents := by
  generalize hstore : after voiceEnv [(privateReads, .insertMessages
    [incomingItem "early" (none, none) none] .realtimeMessage .foreground)] = store
  have hhuman : store.isHumanDmMessage privateReads ⟨7, 5⟩ = true := by
    rw [← hstore]
    decide +kernel
  have hreturns : (store.persistEditedMessageEvents voiceEnv privateReads []
      (incomingItem "late" (none, none) (some 20)) (some 20) .foreground
        .messageEdit).toBool = true := by
    rw [← hstore]
    decide +kernel
  cases hedit : store.persistEditedMessageEvents voiceEnv privateReads []
      (incomingItem "late" (none, none) (some 20)) (some 20) .foreground .messageEdit with
  | error error =>
    rw [hedit] at hreturns
    cases hreturns
  | ok result =>
    refine ⟨result.1, result.2.1, result.2.2, rfl, ((edit_history_exact voiceEnv).2 store result.2.1
      privateReads [] result.2.2 (incomingItem "late" (none, none) (some 20)) (some 20) .foreground
      .messageEdit result.1 hhuman hedit).mpr ?_⟩
    have hmissing : store.overlaidText voiceEnv (incomingItem "late" (none, none) (some 20)) =
        none := by
      rw [← hstore]
      decide +kernel
    intro hcurrent oldText hstored
    rw [hmissing]
    rintro ⟨hblank, -⟩
    exact absurd (by decide +kernel) hblank

/-- A voice message is stored and transcribed, and comes again with a new edit date and without a
caption.  Its stored text stays, and yet it is kept as a version of its own. -/
theorem edit_keeps_unchanged_text : let calls : List (MessageReads × MessageOperation) :=
      [(privateReads, .insertMessages [incomingItem "" (some "voice", some voicePayload) none]
        .realtimeMessage .foreground), (privateReads, .applyTranscription voiceEvent)]
    (after voiceEnv calls).isHumanDmMessage privateReads ⟨7, 5⟩ = true ∧
    (after voiceEnv calls).readMessageText ⟨7, 5⟩ = some (some "good morning") ∧
    (((after voiceEnv calls).persistEditedMessageEvents voiceEnv privateReads []
      (incomingItem "" (some "voice", some voicePayload) (some 20)) (some 20) .foreground
        .messageEdit).toOption.map fun result =>
          (result.1, result.2.1.readMessageText ⟨7, 5⟩, result.2.2)) =
      some (some 1, some (some "good morning"),
        [⟨"edit", 20, "telegram", ⟨7, 5⟩, some 1⟩]) := by
  decide +kernel

end MessageStore

end McpTelegram
