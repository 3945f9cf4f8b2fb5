import McpTelegram.Messages.Bundle

/-!
# Transcriptions

`messages/sqlite_hydration.py`: a final transcription is stored for its message, replaces the text
of the message when the message is there, and waits for the message when it is not.
-/

namespace McpTelegram

open Foundations

/-- What a final transcription event or the transcription worker reports. -/
structure Transcription where
  key : MessageKey
  transcribedText : String
  transcriptionId : ℤ
  receivedAt : ℤ

/-- The answers of `apply_message_transcription_if_absent`. -/
inductive TranscriptionOutcome where
  | notApplied | alreadyApplied | applied
  deriving DecidableEq

namespace MessageStore

variable (env : MessageEnv) (reads : MessageReads) (store : MessageStore)

/-- `hydration_observation_current`. -/
def hydrationObservationCurrent (key : MessageKey) (observationOrder : Option ℤ) : Bool :=
  if store.hasNonchannelDeletion key then false
  else
    match store.observations key with
    | none => true
    | some row =>
      !row.isDeleted && observationOrder.all fun order => row.observationOrder ≤ order

/-- `upsert_message_transcription`. -/
def upsertMessageTranscription (event : Transcription) (observationOrder : Option ℤ) :
    Bool × MessageStore :=
  let text := strip event.transcribedText
  if text = "" then (false, store)
  else
    let (order, store) :=
      match observationOrder with
      | some order => (order, store)
      | none => store.deliveredObservationOrder reads
    if (store.transcriptions event.key).all fun row => row.observationOrder.getD 0 < order then
      (true, { store with
        transcriptions := store.transcriptions.put event.key
          { text, transcriptionId := event.transcriptionId, receivedAt := event.receivedAt
            observationOrder := some order } })
    else (false, store)

/-- `_UPDATE_MESSAGE_TEXT_SQL`. -/
def updateMessageText (key : MessageKey) (text : String) : MessageStore :=
  match store.messages key with
  | none => store
  | some row =>
    { store with
      messages := store.messages.put key
        { row with message := { row.message with text := some text } } }

/-- `persist_transcribed_text`. -/
def persistTranscribedText (key : MessageKey) (oldText : Option String) (transcribed : String) :
    MessageStore :=
  if oldText = some transcribed then store
  else
    ((store.updateMessageText key transcribed).deleteFts key).insertFts key
      (env.stemText (some transcribed))

/-- `_remove_transcription_hydration_job`. -/
def removeTranscriptionHydrationJob (key : MessageKey) : MessageStore :=
  store.removeJob .transcription key

/-- `_SELECT_MESSAGE_MEDIA_SQL`. -/
def messageMedia (key : MessageKey) : Option (Option String × Option String) :=
  match store.messages key with
  | none => none
  | some row =>
    if row.isDeleted then none else some (row.message.mediaKind, row.message.mediaPayload)

/-- What the two writers of a transcription do once it was accepted: the text of the message
follows, and its job is removed. -/
def projectTranscription (key : MessageKey) (text : String) : MessageStore :=
  let store :=
    match store.readMessageText key with
    | none => store
    | some oldText => store.persistTranscribedText env key oldText text
  store.removeTranscriptionHydrationJob key

/-- `apply_message_transcription`. -/
def applyMessageTranscription (event : Transcription) : Bool × MessageStore :=
  if !store.hydrationObservationCurrent event.key none then (false, store)
  else
    let text := strip event.transcribedText
    if text = "" then (false, store)
    else if ¬ (store.messageMedia event.key).any fun media =>
        env.isTranscribableMediaPair media.1 media.2 then (false, store)
    else
      match store.upsertMessageTranscription reads { event with transcribedText := text } none with
      | (false, store) => (false, store)
      | (true, store) => (true, store.projectTranscription env event.key text)

/-- `stage_message_transcription`. -/
def stageMessageTranscription (event : Transcription) : Bool × MessageStore :=
  if !store.hydrationObservationCurrent event.key none then (false, store)
  else
    let text := strip event.transcribedText
    if text = "" ∨ (store.readMessageText event.key).isSome then (false, store)
    else
      match store.upsertMessageTranscription reads { event with transcribedText := text } none with
      | (false, store) => (false, store)
      | (true, store) => (true, store.removeTranscriptionHydrationJob event.key)

/-- The row that `apply_message_transcription_if_absent` looks for. -/
def absentTranscriptionEligible (key : MessageKey) : Bool :=
  reads.factHydrationEligible key.dialogId && (store.transcriptions key).isNone &&
    (store.messageMedia key).any fun media =>
      env.transcribableMediaSql media.1 media.2 && env.isTranscribableMediaPair media.1 media.2

/-- `apply_message_transcription_if_absent`. -/
def applyMessageTranscriptionIfAbsent (event : Transcription) (observationOrder : Option ℤ) :
    TranscriptionOutcome × MessageStore :=
  if !store.hydrationObservationCurrent event.key observationOrder then (.notApplied, store)
  else
    let text := strip event.transcribedText
    if text = "" then (.notApplied, store)
    else if !store.absentTranscriptionEligible env reads event.key then
      (if (store.transcriptions event.key).isSome then .alreadyApplied else .notApplied, store)
    else
      match store.upsertMessageTranscription reads { event with transcribedText := text }
          observationOrder with
      | (false, store) => (.notApplied, store)
      | (true, store) => (.applied, store.projectTranscription env event.key text)

end MessageStore

end McpTelegram
