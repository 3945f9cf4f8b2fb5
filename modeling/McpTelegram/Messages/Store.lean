import McpTelegram.Foundations.Table
import McpTelegram.Messages.Contracts
import McpTelegram.Messages.Media

/-!
# The tables of the message store

The tables that the message persistence reads and writes, the primitive statements on them, and
what it reads from tables that other parts of the program own.  `messages_fts` is kept as a list of
rows, so that "exactly one row" is something to prove.
-/

namespace McpTelegram

open Foundations

/-- A row of `messages`. -/
structure MessageRow where
  message : StoredMessage
  replyCount : ℤ
  isDeleted : Bool := false
  deletedAt : Option ℤ := none

/-- A row of `message_observations`. -/
structure ObservationRow where
  observationOrder : ℤ
  isDeleted : Bool := false
  sourceRank : ℤ := 0

/-- A row of `message_image_sources`. -/
structure ImageSourceRow where
  photoId : Option ℤ
  observationOrder : ℤ
  eligible : Bool

/-- A row of `message_versions` written for a Telegram edit. -/
structure VersionRow where
  version : ℕ
  oldText : Option String
  editDate : Option ℤ

/-- A row of `message_transcriptions`. -/
structure TranscriptionRow where
  text : String
  transcriptionId : ℤ
  receivedAt : ℤ
  observationOrder : Option ℤ

/-- A row of `messages_fts`, found through the key of its message in `message_fts_keys`. -/
structure FtsRow where
  key : MessageKey
  stemmedText : String

/-- The kinds of `hydration_jobs`. -/
inductive HydrationKind where
  | mediaMetadata | transcription
  deriving DecidableEq

/-- A row of `hydration_jobs`. -/
structure HydrationJobRow where
  dueAt : ℤ
  attempts : ℕ := 0
  messageSentAt : ℤ
  priority : ℤ
  terminal : Bool := false
  lastOutcome : String := "queued"

/-- The tables.  `sequence` is `canonical_observation_sequence`, and `ftsKeys` tells for which
messages `message_fts_keys` has a row. -/
structure MessageStore where
  messages : Table MessageKey MessageRow := fun _ => none
  observations : Table MessageKey ObservationRow := fun _ => none
  imageSources : Table MessageKey ImageSourceRow := fun _ => none
  entities : MessageKey → List EntityRecord := fun _ => []
  forwards : Table MessageKey ForwardRecord := fun _ => none
  versions : MessageKey → List VersionRow := fun _ => []
  transcriptions : Table MessageKey TranscriptionRow := fun _ => none
  nonchannelDeletions : Table ℤ ℤ := fun _ => none
  ftsKeys : MessageKey → Bool := fun _ => false
  fts : List FtsRow := []
  jobs : HydrationKind → Table MessageKey HydrationJobRow := fun _ _ => none
  sequence : ℤ := 0

/-- What the message persistence takes from outside: the word pattern and the stemmer behind
`stem_text`, and the JSON functions. -/
structure MessageEnv extends JsonText where
  /-- `_WORD_RE.findall`. -/
  words : String → List String
  /-- `_russian_stemmer.stemWords`. -/
  stemWords : List String → List String

/-- What one call reads besides the tables of the store. -/
structure MessageReads where
  /-- `int(time.time())`. -/
  now : ℤ := 0
  /-- The `observation_order` of the update that is being delivered. -/
  delivered : Option ℤ := none
  /-- `synced_dialogs.status`. -/
  status : ℤ → Option String := fun _ => none
  /-- `full_history_enrollment.enabled`. -/
  enabled : ℤ → Option ℤ := fun _ => none
  /-- The dialog is a user in `dialogs` and in `entities`. -/
  userDialog : ℤ → Bool := fun _ => false
  /-- The rows of `dialog_fact_observations` for the two access fields. -/
  accessFacts : ℤ → List (String × ℤ) := fun _ => []
  /-- `bound_profile_account`. -/
  boundAccount : Option ℤ := none

/-- What a call of the message persistence raises. -/
inductive MessageError where
  /-- `HydrationJob` rejects the identity or the time of a message. -/
  | invalidJob
  /-- `ReceivedMessageScopeChangedError`. -/
  | scopeChanged
  deriving DecidableEq

/-- `stem_text`. -/
def MessageEnv.stemText (env : MessageEnv) (text : Option String) : String :=
  match text with
  | none => ""
  | some text =>
    if text = "" then ""
    else
      let words := env.words text
      if words = [] then "" else " ".intercalate (env.stemWords words)

/-- `fact_hydration_eligible`. -/
def MessageReads.factHydrationEligible (reads : MessageReads) (dialogId : ℤ) : Bool :=
  (reads.status dialogId == some "syncing" || reads.status dialogId == some "synced") &&
    reads.enabled dialogId == some 1

namespace MessageStore

variable (store : MessageStore)

/-- `allocate_observation_order`. -/
def allocateObservationOrder : ℤ × MessageStore :=
  (store.sequence + 1, { store with sequence := store.sequence + 1 })

/-- `delivered_observation_order`. -/
def deliveredObservationOrder (reads : MessageReads) : ℤ × MessageStore :=
  match reads.delivered with
  | some order => (order, store)
  | none => store.allocateObservationOrder

/-- `read_message_text`, with `None` for a message that was not found. -/
def readMessageText (key : MessageKey) : Option (Option String) :=
  (store.messages key).map (·.message.text)

/-- `has_nonchannel_deletion`. -/
def hasNonchannelDeletion (key : MessageKey) : Bool :=
  if isChannelPeerId key.dialogId then false else (store.nonchannelDeletions key.messageId).isSome

/-- `DELETE_FTS_SQL`. -/
def deleteFts (key : MessageKey) : MessageStore :=
  { store with fts := store.fts.filter fun row => row.key ≠ key }

/-- `INSERT_FTS_SQL`. -/
def insertFts (key : MessageKey) (stemmed : String) : MessageStore :=
  if store.ftsKeys key then { store with fts := store.fts ++ [⟨key, stemmed⟩] } else store

/-- `_INSERT_MESSAGE_SQL`, with the trigger that adds the row of `message_fts_keys`. -/
def insertMessage (item : ExtractedMessage) : MessageStore :=
  { store with
    messages := store.messages.put item.key
      { message := item.message, replyCount := item.replyCount }
    ftsKeys := Function.update store.ftsKeys item.key true }

/-! ## The hydration queue -/

/-- `HydrationQueueRepository.enqueue`. -/
def enqueue (kind : HydrationKind) (key : MessageKey) (job : HydrationJobRow) : MessageStore :=
  let row :=
    match store.jobs kind key with
    | none => job
    | some row =>
      { row with
        dueAt :=
          if row.terminal = false ∧ row.attempts = 0 ∧ row.lastOutcome = "queued" ∧
              job.dueAt < row.dueAt then job.dueAt
          else row.dueAt
        messageSentAt := max row.messageSentAt job.messageSentAt
        priority := max row.priority job.priority }
  { store with jobs := Function.update store.jobs kind ((store.jobs kind).put key row) }

/-- `HydrationQueueRepository.remove`. -/
def removeJob (kind : HydrationKind) (key : MessageKey) : MessageStore :=
  { store with jobs := Function.update store.jobs kind ((store.jobs kind).drop key) }

/-- `HydrationQueueRepository.remove_active`. -/
def removeActiveJob (kind : HydrationKind) (key : MessageKey) : MessageStore :=
  match store.jobs kind key with
  | some row => if row.terminal then store else store.removeJob kind key
  | none => store

/-- `HydrationQueueRepository.remove_for_message`. -/
def removeForMessage (key : MessageKey) : MessageStore :=
  { store with jobs := fun kind => (store.jobs kind).drop key }

end MessageStore

/-- The identity and the time that `HydrationJob` accepts. -/
def StoredMessage.ValidJob (message : StoredMessage) : Prop :=
  message.key.dialogId ≠ 0 ∧ 0 < message.key.messageId ∧ 0 ≤ message.sentAt

instance : DecidablePred StoredMessage.ValidJob := fun _ => instDecidableAnd

end McpTelegram
