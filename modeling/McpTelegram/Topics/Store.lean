import McpTelegram.Foundations.Dictionary

/-!
# Topic facts

`topics/sqlite_repository.py` and the tombstones of `topics/catalog.py`.  Every field of a topic has
the order of the observation that set it, and the membership has another one.
-/

namespace McpTelegram

open Foundations

/-- A value of a column without a declared range. -/
inductive SqlValue where
  | null
  | integer (value : ℤ)
  | text (value : String)
  deriving DecidableEq

/-- The columns that `_apply` writes, each with an order column of its own. -/
inductive TopicField where
  | title | iconEmojiId | iconColor | pinned | hidden | date
  deriving DecidableEq

/-- A row of `topic_metadata`, without the columns of the message lookup. -/
structure TopicRow where
  isGeneral : Bool := false
  isDeleted : Bool := false
  updatedAt : ℤ
  snapshotAt : Option ℤ := none
  observationOrder : ℕ
  catalogPresent : Bool
  seenGeneration : ℕ := 0
  membershipOrder : ℕ
  iconEmoji : Option String := none
  value : TopicField → SqlValue := fun _ => .null
  fieldOrder : TopicField → ℕ := fun _ => 0
  /-- The bits of `known_fields`. -/
  knownFields : TopicField → Bool := fun _ => false

/-- A topic, by dialog and identifier. -/
abbrev TopicKey := ℤ × ℤ

/-- The table `topic_metadata`. -/
abbrev TopicStore := Dictionary TopicKey TopicRow

/-- The fields of one observation: `dict[str, object]` in insertion order. -/
abbrev TopicFields := List (TopicField × SqlValue)

/-- `TopicFact`. -/
structure TopicFact where
  topicId : ℤ
  title : String
  iconEmojiId : Option ℤ := none
  iconEmoji : Option String := none
  iconColor : Option ℤ := none
  date : Option ℤ := none
  isGeneral : Bool := false
  hidden : Option Bool := none
  pinned : Option Bool := none

/-- `int(value)` of a Boolean. -/
def flagValue (value : Bool) : SqlValue := .integer (if value then 1 else 0)

/-- An optional integer as a column value. -/
def optionalValue : Option ℤ → SqlValue
  | none => .null
  | some value => .integer value

/-- `icon_emoji_id or None`. -/
def iconValue (iconEmojiId : ℤ) : SqlValue := if iconEmojiId = 0 then .null else .integer iconEmojiId

/-- A field that is observed only when it has a value. -/
def observedField {α : Type} (field : TopicField) (value : α → SqlValue) (observed : Option α) :
    TopicFields :=
  (observed.map fun a => (field, value a)).toList

namespace TopicRow

variable (row : TopicRow)

/-- The row that `_apply` inserts. -/
def inserted (now : ℤ) (order : ℕ) : TopicRow where
  updatedAt := now
  snapshotAt := some now
  observationOrder := order
  catalogPresent := true
  membershipOrder := order

/-- The `UPDATE` of one field.  A changed icon forgets its emoji. -/
def setField (order : ℕ) (field : TopicField × SqlValue) : TopicRow :=
  if row.fieldOrder field.1 < order then
    { row with
      value := Function.update row.value field.1 field.2
      fieldOrder := Function.update row.fieldOrder field.1 order
      knownFields := Function.update row.knownFields field.1 true
      iconEmoji :=
        if field.1 = .iconEmojiId ∧ row.value .iconEmojiId ≠ field.2 then none
        else row.iconEmoji }
  else row

/-- The `UPDATE` of the membership. -/
def join (now : ℤ) (order : ℕ) : TopicRow :=
  if row.membershipOrder < order then
    { row with
      isDeleted := false
      catalogPresent := true
      membershipOrder := order
      updatedAt := now
      snapshotAt := some now
      observationOrder := max row.observationOrder order }
  else row

/-- `_apply` on the row that is there after its insertion: a deleted topic ignores what is not newer
than its deletion. -/
def observe (fields : TopicFields) (now : ℤ) (order : ℕ) : TopicRow :=
  if row.isDeleted = true ∧ order ≤ row.membershipOrder then row
  else (fields.foldl (fun row field => row.setField order field) row).join now order

/-- The tombstone that `_apply_page_topics` inserts for a topic without a row. -/
def tombstone (now : ℤ) (order generation : ℕ) : TopicRow where
  isDeleted := true
  updatedAt := now
  observationOrder := order
  catalogPresent := false
  seenGeneration := generation
  membershipOrder := order

/-- The tombstone update of a row that is there. -/
def bury (order generation : ℕ) : TopicRow :=
  if row.membershipOrder < order then
    { row with
      isDeleted := true
      catalogPresent := false
      membershipOrder := order
      observationOrder := max row.observationOrder order
      seenGeneration := generation }
  else row

end TopicRow

namespace TopicStore

variable (store : TopicStore)

/-- `_apply`. -/
def applyFields (key : TopicKey) (fields : TopicFields) (now : ℤ) (order : ℕ) : TopicStore :=
  store.insert key (((store.lookup key).getD (.inserted now order)).observe fields now order)

/-- The fields of a topic of a page. -/
def factFields (topic : TopicFact) : TopicFields :=
  [(.title, .text topic.title), (.iconEmojiId, optionalValue topic.iconEmojiId)] ++
    observedField .hidden flagValue topic.hidden ++
    observedField .iconColor .integer topic.iconColor ++
    observedField .date .integer topic.date ++ observedField .pinned flagValue topic.pinned

/-- The last `UPDATE` of `upsert_topics`. -/
def setIconEmoji (key : TopicKey) (topic : TopicFact) (order : ℕ) : TopicStore :=
  Dictionary.modify store key fun row =>
    if row.fieldOrder .iconEmojiId = order ∧ row.isDeleted = false then
      { row with iconEmoji := topic.iconEmoji.or row.iconEmoji, isGeneral := topic.isGeneral }
    else row

/-- One round of `upsert_topics`. -/
def upsertTopic (dialogId : ℤ) (now : ℤ) (order : ℕ) (topic : TopicFact) : TopicStore :=
  setIconEmoji (applyFields store (dialogId, topic.topicId) (factFields topic) now order)
    (dialogId, topic.topicId) topic order

/-- `upsert_topics` under a given order. -/
def upsertTopics (dialogId : ℤ) (topics : List TopicFact) (now : ℤ) (order : ℕ) : TopicStore :=
  topics.foldl (fun store topic => upsertTopic store dialogId now order topic) store

/-- `apply_topic_create`. -/
def applyTopicCreate (key : TopicKey) (title : String) (iconEmojiId iconColor date : Option ℤ)
    (observedAt : ℤ) (order : ℕ) : TopicStore :=
  applyFields store key
    ([(.title, .text title), (.iconColor, optionalValue iconColor)] ++
      observedField .iconEmojiId iconValue iconEmojiId ++ observedField .date .integer date)
    observedAt order

/-- `apply_topic_edit`. -/
def applyTopicEdit (key : TopicKey) (title : Option String) (iconEmojiId : Option ℤ)
    (hidden : Option Bool) (observedAt : ℤ) (order : ℕ) : TopicStore :=
  let fields := observedField .title .text title ++
    observedField .iconEmojiId iconValue iconEmojiId ++ observedField .hidden flagValue hidden
  if fields = [] then store else applyFields store key fields observedAt order

/-- `apply_topic_pin`. -/
def applyTopicPin (key : TopicKey) (pinned : Bool) (observedAt : ℤ) (order : ℕ) : TopicStore :=
  applyFields store key [(.pinned, flagValue pinned)] observedAt order

/-- The `UPDATE` of `apply_topic_pins`: the other live topics of the dialog are not pinned. -/
def unpinOthers (dialogId : ℤ) (pinned : List ℤ) (observedAt : ℤ) (order : ℕ) : TopicStore :=
  Dictionary.mapValues store fun key row =>
    if key.1 = dialogId ∧ row.isDeleted = false ∧ row.fieldOrder .pinned < order ∧
        key.2 ∉ pinned then
      { row with
        value := Function.update row.value .pinned (flagValue false)
        fieldOrder := Function.update row.fieldOrder .pinned order
        knownFields := Function.update row.knownFields .pinned true
        updatedAt := observedAt
        snapshotAt := some observedAt
        observationOrder := max row.observationOrder order }
    else row

/-- `apply_topic_pins`. -/
def applyTopicPins (dialogId : ℤ) (pinned : List ℤ) (observedAt : ℤ) (order : ℕ) : TopicStore :=
  pinned.foldl (fun store topicId =>
    applyTopicPin store (dialogId, topicId) true observedAt order)
    (unpinOthers store dialogId pinned observedAt order)

/-- The topic is live and in the catalog, the test that `_has_unknown_topic` makes of each topic. -/
def isKnown (key : TopicKey) : Bool :=
  (store.lookup key).any fun row => !row.isDeleted && row.catalogPresent

/-- The tombstone of a topic that a page calls deleted. -/
def buryTopic (key : TopicKey) (now : ℤ) (order generation : ℕ) : TopicStore :=
  match store.lookup key with
  | none => store.insert key (.tombstone now order generation)
  | some row => store.insert key (row.bury order generation)

end TopicStore

end McpTelegram
