import McpTelegram.Topics.Catalog
import McpTelegram.Foundations.Run

/-!
# Runs of the topic catalog

The scan of one dialog among the realtime events of `event_handlers.py` and revision bumps.  The
world keeps the scans that `begin_page` has issued, so that a page may answer any of them, and a
record of the accepted pages, which no operation reads.
-/

namespace McpTelegram

open Foundations

/-- An accepted page: the scan that it answers, and whether it completed the scan. -/
structure AcceptedPage where
  scan : TopicScan
  page : TopicPage
  complete : Bool

/-- The cursor that the next page starts from. -/
def AcceptedPage.next (accepted : AcceptedPage) : Option TopicCursor :=
  if accepted.complete then none else accepted.page.nextCursor

/-- The catalog, the scans that were issued and the pages that were accepted. -/
structure TopicWorld where
  catalog : TopicCatalog := {}
  issued : List TopicScan := []
  accepted : List AcceptedPage := []

/-- An operation on the topics of the dialog.  A realtime event brings the observation order of its
delivery, or takes a fresh one. -/
inductive TopicOperation where
  | beginPage
  | applyPage (scan : TopicScan) (page : TopicPage) (now : ℤ)
  | fail (scan : TopicScan) (reason : String) (retryAt : Option ℤ)
  | notApplicable (scan : TopicScan)
  | request (reason : String)
  /-- Another dialog takes an observation order. -/
  | elsewhere
  | capability (delivered : Option ℕ) (capable : Bool)
  /-- The answer of `refresh` under the order that it reserved. -/
  | snapshot (order : ℕ) (topics : List TopicFact) (now : ℤ)
  | create (delivered : Option ℕ) (topicId : ℤ) (title : String)
      (iconEmojiId iconColor date : Option ℤ) (observedAt : ℤ)
  | edit (delivered : Option ℕ) (topicId : ℤ) (title : Option String) (iconEmojiId : Option ℤ)
      (hidden : Option Bool) (observedAt : ℤ)
  | pin (delivered : Option ℕ) (topicId : ℤ) (pinned : Bool) (observedAt : ℤ)
  | pins (delivered : Option ℕ) (pinned : List ℤ) (observedAt : ℤ)

namespace TopicCatalog

variable (catalog : TopicCatalog)

/-- `delivered_observation_order`. -/
def deliveredOrder (delivered : Option ℕ) : ℕ × TopicCatalog :=
  match delivered with
  | some order => (order, catalog)
  | none => catalog.allocate

/-- The topics written by a realtime event. -/
def write (f : TopicStore → TopicStore) : TopicCatalog := { catalog with topics := f catalog.topics }

/-- `_handle_topic_message_action` for a created topic. -/
def handleCreate (dialogId : ℤ) (delivered : Option ℕ) (topicId : ℤ) (title : String)
    (iconEmojiId iconColor date : Option ℤ) (observedAt : ℤ) : TopicCatalog :=
  let (order, catalog) := catalog.deliveredOrder delivered
  let catalog := catalog.request "topic_changed"
  if topicId ≤ 0 then catalog
  else catalog.write fun topics =>
    topics.applyTopicCreate (dialogId, topicId) title iconEmojiId iconColor date observedAt order

/-- `_handle_topic_edit_action`. -/
def handleEdit (dialogId : ℤ) (delivered : Option ℕ) (topicId : ℤ) (title : Option String)
    (iconEmojiId : Option ℤ) (hidden : Option Bool) (observedAt : ℤ) : TopicCatalog :=
  let (order, catalog) := catalog.deliveredOrder delivered
  let catalog :=
    if TopicStore.isKnown catalog.topics (dialogId, topicId) then catalog
    else catalog.request "topic_changed"
  catalog.write fun topics =>
    topics.applyTopicEdit (dialogId, topicId) title iconEmojiId hidden observedAt order

/-- The transaction of `on_raw_forum_topic_pinned`. -/
def handlePin (dialogId : ℤ) (delivered : Option ℕ) (topicId : ℤ) (pinned : Bool)
    (observedAt : ℤ) : TopicCatalog :=
  let (order, catalog) := catalog.deliveredOrder delivered
  let missing := !TopicStore.isKnown catalog.topics (dialogId, topicId)
  let catalog := catalog.write fun topics =>
    topics.applyTopicPin (dialogId, topicId) pinned observedAt order
  if missing then catalog.request "topic_pin_changed" else catalog

/-- The transaction of `on_raw_forum_topics_pinned`. -/
def handlePins (dialogId : ℤ) (delivered : Option ℕ) (pinned : List ℤ) (observedAt : ℤ) :
    TopicCatalog :=
  let (order, catalog) := catalog.deliveredOrder delivered
  let missing := pinned.any fun topicId => !TopicStore.isKnown catalog.topics (dialogId, topicId)
  let catalog := catalog.write fun topics => topics.applyTopicPins dialogId pinned observedAt order
  if missing then catalog.request "topic_pins_changed" else catalog

end TopicCatalog

namespace TopicWorld

/-- The world after the answer of `apply_page_outcome`. -/
def record (world : TopicWorld) (scan : TopicScan) (page : TopicPage)
    (outcome : TopicCatalog.PageOutcome) (catalog : TopicCatalog) : TopicWorld :=
  if outcome.accepted then
    { world with
      catalog
      accepted := world.accepted ++ [{ scan, page, complete := outcome.complete }] }
  else { world with catalog }

/-- The world after an operation.  A page answers a scan that was issued; a raised error leaves the
world as it was. -/
def perform (dialogId : ℤ) (world : TopicWorld) : TopicOperation → Option TopicWorld
  | .beginPage =>
    match world.catalog.beginPage with
    | (none, catalog) => some { world with catalog }
    | (some scan, catalog) => some { world with catalog, issued := world.issued ++ [scan] }
  | .applyPage scan page now =>
    if scan ∈ world.issued then
      match world.catalog.applyPageOutcome dialogId scan page now with
      | .error _ => some world
      | .ok (outcome, catalog) => some (world.record scan page outcome catalog)
    else none
  | .fail scan reason retryAt => some { world with catalog := world.catalog.fail scan reason retryAt }
  | .notApplicable scan => some { world with catalog := world.catalog.markNotApplicable scan }
  | .request reason => some { world with catalog := world.catalog.request reason }
  | .elsewhere => some { world with catalog := world.catalog.allocate.2 }
  | .capability delivered capable =>
    let (order, catalog) := world.catalog.deliveredOrder delivered
    some { world with catalog := catalog.observeCapability capable order }
  | .snapshot order topics now =>
    some { world with
      catalog := world.catalog.write fun store => store.upsertTopics dialogId topics now order }
  | .create delivered topicId title iconEmojiId iconColor date observedAt =>
    some { world with
      catalog :=
        world.catalog.handleCreate dialogId delivered topicId title iconEmojiId iconColor date
          observedAt }
  | .edit delivered topicId title iconEmojiId hidden observedAt =>
    some { world with
      catalog :=
        world.catalog.handleEdit dialogId delivered topicId title iconEmojiId hidden observedAt }
  | .pin delivered topicId pinned observedAt =>
    some { world with
      catalog := world.catalog.handlePin dialogId delivered topicId pinned observedAt }
  | .pins delivered pinned observedAt =>
    some { world with
      catalog := world.catalog.handlePins dialogId delivered pinned observedAt }

/-- The accepted pages of a generation. -/
def pages (world : TopicWorld) (generation : ℕ) : List AcceptedPage :=
  world.accepted.filter fun accepted => accepted.scan.generation = generation

end TopicWorld

end McpTelegram
