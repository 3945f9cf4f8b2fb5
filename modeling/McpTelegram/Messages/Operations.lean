import McpTelegram.Messages.Hydration

/-!
# Runs of the message store

The operations that write bodies, tombstones, transcriptions and the search index, each as one
transaction on the store, and the runs they form.
-/

namespace McpTelegram

open Foundations

/-- An operation on the message store. -/
inductive MessageOperation where
  | insertMessages (extracted : List ExtractedMessage) (source : ReactionAggregateSource)
      (priority : HydrationPriority)
  | persistEdited (item : ExtractedMessage) (editDate : Option ℤ) (priority : HydrationPriority)
      (source : ReactionAggregateSource)
  | persistReceived (batch : ReceivedBatch)
  | markDeleted (key : MessageKey) (deletedAt : ℤ)
  | recordDeletions (dialogId : ℤ) (messageIds : List ℤ)
  | recordNonchannelDeletions (messageIds : List ℤ) (deletedAt : ℤ)
  | applyTranscription (event : Transcription)
  | applyTranscriptionIfAbsent (event : Transcription) (observationOrder : Option ℤ)
  | stageTranscription (event : Transcription)

namespace MessageStore

/-- The store after a call that may raise: the transaction of a call that raises is rolled back. -/
def commit {α : Type} (store : MessageStore) (result : Except MessageError (α × MessageStore)) :
    MessageStore :=
  match result with
  | .ok (_, store) => store
  | .error _ => store

/-- One operation, with what it reads from outside the store. -/
def step (env : MessageEnv) (store : MessageStore) (call : MessageReads × MessageOperation) :
    MessageStore :=
  match call with
  | (reads, .insertMessages extracted source priority) =>
    store.commit (store.insertMessagesWithFts env reads extracted source priority)
  | (reads, .persistEdited item editDate priority source) =>
    store.commit (store.persistEditedMessage env reads item editDate priority source)
  | (reads, .persistReceived batch) =>
    store.commit (store.persistReceivedMessages env reads batch)
  | (_, .markDeleted key deletedAt) => (store.markMessageDeleted key deletedAt).2
  | (_, .recordDeletions dialogId messageIds) =>
    (store.recordMessageDeletions dialogId messageIds).2
  | (_, .recordNonchannelDeletions messageIds deletedAt) =>
    store.recordNonchannelDeletions messageIds deletedAt
  | (reads, .applyTranscription event) => (store.applyMessageTranscription env reads event).2
  | (reads, .applyTranscriptionIfAbsent event observationOrder) =>
    (store.applyMessageTranscriptionIfAbsent env reads event observationOrder).2
  | (reads, .stageTranscription event) => (store.stageMessageTranscription reads event).2

/-- The store that a list of operations reaches from the empty store. -/
def after (env : MessageEnv) (calls : List (MessageReads × MessageOperation)) : MessageStore :=
  calls.foldl (step env) {}

end MessageStore

/-- The operation records a deletion that covers the message of a key. -/
def MessageOperation.RecordsDeletion (operation : MessageOperation) (key : MessageKey) : Prop :=
  match operation with
  | .markDeleted marked _ => marked = key ∧ 0 < key.messageId
  | .recordDeletions dialogId messageIds =>
    dialogId = key.dialogId ∧ key.messageId ∈ messageIds ∧ 0 < key.messageId
  | .recordNonchannelDeletions messageIds _ =>
    isChannelPeerId key.dialogId = false ∧ key.messageId ∈ messageIds ∧ 0 < key.messageId
  | _ => False

end McpTelegram
