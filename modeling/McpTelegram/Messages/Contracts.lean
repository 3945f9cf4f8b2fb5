import Mathlib.Tactic

/-!
# Message bundles

`message_contracts.py`: the bundle of rows that one observation of a message is extracted to, and
the sources that may report one.  A record of a bundle belongs to the message of the bundle, so the
key of the message is kept once.
-/

namespace McpTelegram

/-- The primary key of a message. -/
structure MessageKey where
  dialogId : ℤ
  messageId : ℤ
  deriving DecidableEq

/-- `CHANNEL_PEER_ID_OFFSET`. -/
def channelPeerIdOffset : ℤ := 10 ^ 12

/-- `is_channel_peer_id`. -/
def isChannelPeerId (value : ℤ) : Bool := decide (value < -channelPeerIdOffset)

/-- `StoredMessage`. -/
structure StoredMessage where
  key : MessageKey
  sentAt : ℤ
  text : Option String
  senderId : Option ℤ := none
  senderFirstName : Option String := none
  replyToMsgId : Option ℤ := none
  forumTopicId : Option ℤ := none
  editDate : Option ℤ
  groupedId : Option ℤ := none
  replyToPeerId : Option ℤ := none
  out : ℤ := 0
  isService : ℤ := 0
  postAuthor : Option String := none
  mediaKind : Option String := none
  mediaPayload : Option String := none
  formattingEntities : Option String := none
  serviceAction : Option String := none
  deriving DecidableEq

/-- `EntityRecord`. -/
structure EntityRecord where
  offset : ℤ
  length : ℤ
  type : String
  value : Option String
  deriving DecidableEq

/-- `ForwardRecord`. -/
structure ForwardRecord where
  fwdFromPeerId : Option ℤ
  fwdFromName : Option String
  fwdDate : Option ℤ
  fwdChannelPost : Option ℤ
  deriving DecidableEq

/-- `ExtractedMessage`. -/
structure ExtractedMessage where
  message : StoredMessage
  replyCount : ℤ := 0
  observationOrder : Option ℤ := none
  mediaObservationOrder : Option ℤ := none
  bodyObservationOrder : Option ℤ := none
  privatePhotoId : Option ℤ := none
  privatePhotoEligible : Bool := true
  entities : List EntityRecord := []
  forward : Option ForwardRecord := none
  deriving DecidableEq

/-- The key of the message of a bundle. -/
def ExtractedMessage.key (item : ExtractedMessage) : MessageKey := item.message.key

/-- `ReceivedMessage`. -/
structure ReceivedMessage where
  bundle : ExtractedMessage
  outgoing : Option Bool

/-- The arguments of `persist_received_messages`; `accountId` is the account of the scope, and the
two answers of `claim_scope` are given. -/
structure ReceivedBatch where
  messages : List ReceivedMessage
  accountId : ℤ
  claimedBefore : Bool
  claimedAfter : Bool
  observationOrder : ℤ
  expectedDialogId : Option ℤ
  revalidatedAccess : Bool

/-- `ReactionAggregateSource`. -/
inductive ReactionAggregateSource where
  | legacy | background | history | delta | realtimeMessage | messageEdit | rawUpdate
  deriving DecidableEq

/-- `ReactionAggregateSource.rank`. -/
def ReactionAggregateSource.rank : ReactionAggregateSource → ℤ
  | legacy => 0
  | background => 10
  | history => 20
  | delta => 30
  | realtimeMessage => 40
  | messageEdit => 50
  | rawUpdate => 60

/-- `HydrationPriority`. -/
inductive HydrationPriority where
  | backfill | foreground
  deriving DecidableEq

/-- The number of a priority. -/
def HydrationPriority.toInt : HydrationPriority → ℤ
  | backfill => 0
  | foreground => 1

end McpTelegram
