import McpTelegram.Topics.Store

/-!
# The topic catalog

The durable enumeration of `topics/catalog.py` for one dialog: the scan state, the start of a page,
and the application of the server's answer.  The reaction boundary of a scan is left out.
-/

namespace McpTelegram

open Foundations

/-- `TopicCursor`. -/
structure TopicCursor where
  offsetDate : Option ℤ := none
  offsetId : ℤ := 0
  offsetTopic : ℤ := 0
  deriving DecidableEq

/-- `TopicPage`, without its messages. -/
structure TopicPage where
  topics : List TopicFact
  count : ℤ
  orderByCreateDate : Bool
  nextCursor : Option TopicCursor
  deletedIds : List ℤ := []

/-- `TopicScan`. -/
structure TopicScan where
  generation : ℕ
  revision : ℕ
  observationOrder : ℕ
  cursor : TopicCursor
  deriving DecidableEq

/-- A row of `topic_catalog_state`. -/
structure TopicCatalogState where
  revision : ℕ := 1
  scanRevision : Option ℕ := none
  generation : Option ℕ := none
  completedAt : Option ℤ := none
  pending : Bool := true
  applicable : Option Bool := none
  capabilityObservationOrder : ℕ := 0
  reason : Option String := none
  retryAt : Option ℤ := none
  cursor : TopicCursor := {}
  expectedCount : Option ℤ := none
  orderByCreateDate : Option Bool := none
  cursors : List TopicCursor := []

/-- The topics and the scan state of one dialog, and `canonical_observation_sequence`. -/
structure TopicCatalog where
  topics : TopicStore := ∅
  state : Option TopicCatalogState := none
  sequence : ℕ := 0

/-- The identifiers on a page. -/
def TopicPage.ids (page : TopicPage) : List ℤ :=
  page.topics.map TopicFact.topicId ++ page.deletedIds

/-- `set(ids)` joined with the identifiers that were seen, as a list without doubles. -/
def unionIds (seen ids : List ℤ) : List ℤ := (seen ++ ids).dedup

namespace TopicCatalogState

variable (state : TopicCatalogState)

/-- `_validate_traversal` and `_validate_page`, with the reason of the `TopicSourceUnavailableError`
that they raise. -/
def validatePage (page : TopicPage) (seen : List ℤ) : Except String Unit :=
  if page.count < 0 ∨ state.expectedCount.any (· ≠ page.count) then .error "topic_count_changed"
  else if state.orderByCreateDate.any (· ≠ page.orderByCreateDate) then
    .error "topic_order_changed"
  else if page.nextCursor.any (· ∈ state.cursors) then .error "topic_cursor_repeated"
  else if ¬ page.ids.Nodup ∨ (page.ids ≠ [] ∧ ∀ id ∈ page.ids, id ∈ seen) then
    .error "topic_page_repeated"
  else if page.count < (unionIds seen page.ids).length ∨
      (page.ids = [] ∧ (seen.length : ℤ) ≠ page.count) then .error "topic_count_inconsistent"
  else .ok ()

/-- `_reset_scan`. -/
def resetScan : TopicCatalogState :=
  { state with
    generation := none
    scanRevision := none
    cursor := {}
    expectedCount := none
    orderByCreateDate := none
    cursors := [] }

/-- The state after an accepted page that is not the last one. -/
def advance (page : TopicPage) (next : TopicCursor) (order : ℕ) : TopicCatalogState :=
  { state with
    expectedCount := some page.count
    orderByCreateDate := some page.orderByCreateDate
    cursor := next
    cursors := state.cursors ++ [next]
    applicable :=
      if state.capabilityObservationOrder < order then some true else state.applicable
    capabilityObservationOrder := max state.capabilityObservationOrder order
    retryAt := none }

/-- The state of `_complete` before the scan is reset. -/
def finish (now : ℤ) (order : ℕ) : TopicCatalogState :=
  { state with
    completedAt := some now
    pending := false
    reason := none
    applicable := some true
    capabilityObservationOrder := max state.capabilityObservationOrder order }

end TopicCatalogState

namespace TopicCatalog

variable (catalog : TopicCatalog) (dialogId : ℤ)

/-- `allocate_observation_order`. -/
def allocate : ℕ × TopicCatalog :=
  (catalog.sequence + 1, { catalog with sequence := catalog.sequence + 1 })

/-- `request`. -/
def request (reason : String) : TopicCatalog :=
  { catalog with
    state := some
      (match catalog.state with
      | none => { reason := some reason }
      | some state =>
        { state with
          revision := state.revision + 1
          pending := true
          reason := some reason
          retryAt := none }) }

/-- `bootstrap`, for an enrolled dialog. -/
def bootstrap : TopicCatalog :=
  { catalog with state := some (catalog.state.getD { reason := some "bootstrap" }) }

/-- The scan that `begin_page` starts or goes on with, before it allocates the order of the page. -/
def openScan (state : TopicCatalogState) : ℕ × ℕ × TopicCatalogState × TopicCatalog :=
  let state :=
    if state.generation.isSome ∧ state.scanRevision ≠ some state.revision then state.resetScan
    else state
  match state.generation, state.scanRevision with
  | some generation, some revision =>
    (generation, revision, state, { catalog with state := some state })
  | _, _ =>
    let (generation, catalog) := catalog.allocate
    let state :=
      { state with generation := some generation, scanRevision := some state.revision }
    (generation, state.revision, state, { catalog with state := some state })

/-- `begin_page`, for a dialog whose acquisition is allowed. -/
def beginPage : Option TopicScan × TopicCatalog :=
  let catalog := catalog.bootstrap
  match catalog.state with
  | none => (none, catalog)
  | some state =>
    if state.pending = false then (none, catalog)
    else
      let (generation, revision, state, catalog) := catalog.openScan state
      let (observationOrder, catalog) := catalog.allocate
      (some { generation, revision, observationOrder, cursor := state.cursor }, catalog)

/-- The topics of the dialog that the generation has seen. -/
def seen (generation : ℕ) : List ℤ :=
  (catalog.topics.entries.filter fun entry =>
    entry.1.1 = dialogId ∧ entry.2.seenGeneration = generation).map fun entry => entry.1.2

/-- `UPDATE topic_metadata SET seen_generation=?`. -/
def markSeen (topics : TopicStore) (generation : ℕ) (topicId : ℤ) : TopicStore :=
  Dictionary.modify topics (dialogId, topicId) fun row => { row with seenGeneration := generation }

/-- The writes of `_apply_page_topics`. -/
def writePage (scan : TopicScan) (page : TopicPage) (now : ℤ) : TopicStore :=
  let topics := TopicStore.upsertTopics catalog.topics dialogId page.topics now
    scan.observationOrder
  let topics := page.ids.foldl (fun topics topicId =>
    markSeen dialogId topics scan.generation topicId) topics
  let topics := page.deletedIds.foldl (fun topics topicId =>
    TopicStore.buryTopic topics (dialogId, topicId) now scan.observationOrder scan.generation)
    topics
  page.deletedIds.foldl (fun topics topicId =>
    markSeen dialogId topics scan.generation topicId) topics

/-- The `UPDATE` of `_complete`: topics that the generation has not seen are absent, unless their
membership is at least as new as the page. -/
def retireUnseen (topics : TopicStore) (generation order : ℕ) : TopicStore :=
  Dictionary.mapValues topics fun key row =>
    if key.1 = dialogId ∧ row.seenGeneration ≠ generation ∧ row.membershipOrder < order then
      { row with catalogPresent := false, membershipOrder := order }
    else row

/-- What `apply_page_outcome` answers. -/
structure PageOutcome where
  accepted : Bool := false
  complete : Bool := false
  deriving DecidableEq

/-- `apply_page_outcome`, for a dialog whose acquisition is allowed; a raised error carries its
reason, and the savepoint is rolled back. -/
def applyPageOutcome (scan : TopicScan) (page : TopicPage) (now : ℤ) :
    Except String (PageOutcome × TopicCatalog) :=
  match catalog.state with
  | none => .ok ({}, catalog)
  | some state =>
    if state.generation ≠ some scan.generation ∨ state.cursor ≠ scan.cursor then
      .ok ({}, catalog)
    else if state.revision ≠ scan.revision then
      .ok ({}, { catalog with
        topics := TopicStore.upsertTopics catalog.topics dialogId page.topics now
          scan.observationOrder })
    else do
      let seen := catalog.seen dialogId scan.generation
      state.validatePage page seen
      let topics := catalog.writePage dialogId scan page now
      if (unionIds seen page.ids).length = page.count then
        return ({ accepted := true, complete := true },
          { catalog with
            topics := retireUnseen dialogId topics scan.generation scan.observationOrder
            state := some (state.finish now scan.observationOrder).resetScan })
      else
        match page.nextCursor with
        | none => throw "topic_cursor_missing"
        | some next =>
          return ({ accepted := true },
            { catalog with topics, state := some (state.advance page next scan.observationOrder) })

/-- The reasons after which a failed page starts the scan again. -/
def restartScanReasons : List String :=
  ["topic_count_changed", "topic_order_changed", "topic_page_repeated",
    "topic_count_inconsistent", "topic_cursor_repeated", "topic_cursor_missing"]

/-- `fail`, for a dialog whose acquisition is allowed. -/
def fail (scan : TopicScan) (reason : String) (retryAt : Option ℤ) : TopicCatalog :=
  match catalog.state with
  | none => catalog
  | some state =>
    if state.generation ≠ some scan.generation then catalog
    else if reason = "source_access_unavailable" then
      if state.revision = scan.revision ∧
          state.capabilityObservationOrder ≤ scan.observationOrder then
        { catalog with
          state := some
            { state with
              reason := some reason
              retryAt := none
              capabilityObservationOrder := scan.observationOrder } }
      else catalog
    else
      let state := { state with reason := some reason, retryAt }
      { catalog with
        state := some (if reason ∈ restartScanReasons then state.resetScan else state) }

/-- `mark_not_applicable_outcome`, for a dialog whose acquisition is allowed. -/
def markNotApplicable (scan : TopicScan) : TopicCatalog :=
  match catalog.state with
  | none => catalog
  | some state =>
    if state.generation ≠ some scan.generation then catalog
    else
      let state :=
        if state.revision = scan.revision ∧
            state.capabilityObservationOrder ≤ scan.observationOrder then
          { state with
            applicable := some false
            pending := false
            reason := some "not_topic_capable"
            retryAt := none
            capabilityObservationOrder := scan.observationOrder }
        else state
      { catalog with state := some state.resetScan }

/-- `observe_capability`, for an enrolled dialog. -/
def observeCapability (capable : Bool) (order : ℕ) : TopicCatalog :=
  let state := catalog.state.getD {}
  let catalog := { catalog with state := some state }
  if order ≤ state.capabilityObservationOrder then catalog
  else
    let observed :=
      { state with applicable := some capable, capabilityObservationOrder := order }
    let changed := state.applicable ≠ some capable ∨
      state.reason = some "source_access_unavailable"
    if changed then
      let state := (({ catalog with state := some observed } : TopicCatalog).request
        "topic_capability_changed").state.getD {}
      let state := state.resetScan
      { catalog with
        state := some
          (if capable then state
          else { state with pending := false, reason := some "not_topic_capable" }) }
    else { catalog with state := some observed }

end TopicCatalog

end McpTelegram
