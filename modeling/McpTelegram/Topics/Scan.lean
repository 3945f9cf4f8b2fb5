import McpTelegram.Topics.Pages
import McpTelegram.Foundations.Failing

/-!
# The enumeration of the topics of a dialog

A generation marks the topics of its accepted pages, and each page before the last one has a topic
that no earlier page of the generation had.  So the pages of a generation are at most one more than
the topics that they promise.  Everything else that happens to the dialog leaves the scan, or starts
it again.
-/

namespace McpTelegram

open Foundations

variable {state state' : TopicCatalogState} {catalog catalog' : TopicCatalog}

/-! ## What leaves a scan in place -/

namespace TopicCatalogState

/-- No generation is open. -/
structure Idle (state : TopicCatalogState) : Prop where
  generation : state.generation = none
  scanRevision : state.scanRevision = none
  cursors : state.cursors = []

/-- Two states are at the same point of one scan. -/
structure SameScan (state state' : TopicCatalogState) : Prop where
  generation : state'.generation = state.generation
  scanRevision : state'.scanRevision = state.scanRevision
  cursors : state'.cursors = state.cursors
  expectedCount : state'.expectedCount = state.expectedCount

/-- The revision never falls, and the scan stays where it is or is given up. -/
structure Follows (state state' : TopicCatalogState) : Prop where
  revision : state.revision ≤ state'.revision
  scan : state'.Idle ∨ state.SameScan state'

theorem Follows.refl (state : TopicCatalogState) : state.Follows state :=
  ⟨le_rfl, Or.inr ⟨rfl, rfl, rfl, rfl⟩⟩

theorem Follows.trans {state'' : TopicCatalogState} (h : state.Follows state')
    (h' : state'.Follows state'') : state.Follows state'' := by
  refine ⟨h.revision.trans h'.revision, ?_⟩
  rcases h'.scan with hidle | hsame'
  · exact Or.inl hidle
  · rcases h.scan with hidle | hsame
    · exact Or.inl ⟨hsame'.generation.trans hidle.generation,
        hsame'.scanRevision.trans hidle.scanRevision, hsame'.cursors.trans hidle.cursors⟩
    · exact Or.inr ⟨hsame'.generation.trans hsame.generation,
        hsame'.scanRevision.trans hsame.scanRevision, hsame'.cursors.trans hsame.cursors,
        hsame'.expectedCount.trans hsame.expectedCount⟩

theorem resetScan_follows (h : state.revision ≤ state'.revision) : state.Follows state'.resetScan :=
  ⟨h, Or.inl ⟨rfl, rfl, rfl⟩⟩

end TopicCatalogState

namespace TopicCatalog

/-- The scan state, which an `INSERT` starts from its defaults. -/
def row (catalog : TopicCatalog) : TopicCatalogState := catalog.state.getD {}

/-- A change that leaves the scan of the dialog in place, or gives it up. -/
structure Quiet (catalog catalog' : TopicCatalog) : Prop where
  seenAt : ∀ key, catalog'.topics.seenAt key = catalog.topics.seenAt key
  sequence : catalog.sequence ≤ catalog'.sequence
  row : catalog.row.Follows catalog'.row
  kept : catalog'.state = none → catalog.state = none

namespace Quiet

theorem refl (catalog : TopicCatalog) : Quiet catalog catalog :=
  ⟨fun _ => rfl, le_rfl, .refl _, id⟩

theorem trans {catalog'' : TopicCatalog} (h : Quiet catalog catalog')
    (h' : Quiet catalog' catalog'') : Quiet catalog catalog'' :=
  ⟨fun key => (h'.seenAt key).trans (h.seenAt key), h.sequence.trans h'.sequence,
    h.row.trans h'.row, fun hnone => h.kept (h'.kept hnone)⟩

/-- A write of the scan state alone. -/
theorem of_state (h : catalog.row.Follows state) :
    Quiet catalog { catalog with state := some state } :=
  ⟨fun _ => rfl, le_rfl, h, fun hnone => absurd hnone (Option.some_ne_none _)⟩

end Quiet

variable (catalog : TopicCatalog)

theorem quiet_allocate : Quiet catalog catalog.allocate.2 :=
  ⟨fun _ => rfl, Nat.le_succ _, .refl _, id⟩

theorem quiet_deliveredOrder (delivered : Option ℕ) :
    Quiet catalog (catalog.deliveredOrder delivered).2 := by
  cases delivered with
  | none => exact quiet_allocate catalog
  | some order => exact .refl catalog

theorem quiet_request (reason : String) : Quiet catalog (catalog.request reason) := by
  refine Quiet.of_state ?_
  rw [row]
  cases catalog.state with
  | none => exact ⟨le_rfl, Or.inl ⟨rfl, rfl, rfl⟩⟩
  | some state => exact ⟨Nat.le_succ _, Or.inr ⟨rfl, rfl, rfl, rfl⟩⟩

theorem quiet_bootstrap : Quiet catalog catalog.bootstrap := by
  refine Quiet.of_state ?_
  rw [row]
  cases catalog.state with
  | none => exact ⟨le_rfl, Or.inl ⟨rfl, rfl, rfl⟩⟩
  | some state => exact .refl state

theorem quiet_write {f : TopicStore → TopicStore}
    (hf : ∀ key, (f catalog.topics).seenAt key = catalog.topics.seenAt key) :
    Quiet catalog (catalog.write f) :=
  ⟨hf, le_rfl, .refl _, id⟩

theorem quiet_fail (scan : TopicScan) (reason : String) (retryAt : Option ℤ) :
    Quiet catalog (catalog.fail scan reason retryAt) := by
  rw [fail]
  split
  next => exact .refl catalog
  next state hstate =>
    have hrow : catalog.row = state := by rw [row, hstate, Option.getD_some]
    split_ifs
    · exact .refl catalog
    · refine Quiet.of_state ?_
      rw [hrow]
      exact ⟨le_rfl, Or.inr ⟨rfl, rfl, rfl, rfl⟩⟩
    · exact .refl catalog
    · refine Quiet.of_state ?_
      rw [hrow]
      exact TopicCatalogState.resetScan_follows le_rfl
    · refine Quiet.of_state ?_
      rw [hrow]
      exact ⟨le_rfl, Or.inr ⟨rfl, rfl, rfl, rfl⟩⟩

theorem quiet_markNotApplicable (scan : TopicScan) :
    Quiet catalog (catalog.markNotApplicable scan) := by
  rw [markNotApplicable]
  split
  next => exact .refl catalog
  next state hstate =>
    have hrow : catalog.row = state := by rw [row, hstate, Option.getD_some]
    split_ifs
    · exact .refl catalog
    all_goals
      refine Quiet.of_state ?_
      rw [hrow]
      exact TopicCatalogState.resetScan_follows le_rfl

theorem quiet_observeCapability (capable : Bool) (order : ℕ) :
    Quiet catalog (catalog.observeCapability capable order) := by
  simp only [observeCapability]
  split_ifs
  · exact Quiet.of_state (.refl _)
  · exact Quiet.of_state (TopicCatalogState.resetScan_follows (Nat.le_succ _))
  · exact Quiet.of_state ⟨Nat.le_succ _, Or.inl ⟨rfl, rfl, rfl⟩⟩
  · exact Quiet.of_state ⟨le_rfl, Or.inr ⟨rfl, rfl, rfl, rfl⟩⟩

section Events

variable (dialogId : ℤ) (delivered : Option ℕ) (topicId : ℤ) (iconEmojiId : Option ℤ)
  (observedAt : ℤ)

theorem quiet_handleCreate (title : String) (iconColor date : Option ℤ) :
    Quiet catalog (catalog.handleCreate dialogId delivered topicId title iconEmojiId iconColor date
      observedAt) := by
  have hrequest := (quiet_deliveredOrder catalog delivered).trans (quiet_request _ "topic_changed")
  simp only [handleCreate]
  split_ifs
  · exact hrequest
  · exact hrequest.trans (quiet_write _ fun key => TopicStore.applyTopicCreate_seenAt ..)

theorem quiet_handleEdit (title : Option String) (hidden : Option Bool) :
    Quiet catalog (catalog.handleEdit dialogId delivered topicId title iconEmojiId hidden
      observedAt) := by
  have hdelivered := quiet_deliveredOrder catalog delivered
  simp only [handleEdit]
  split_ifs
  · exact hdelivered.trans (quiet_write _ fun key => TopicStore.applyTopicEdit_seenAt ..)
  · exact (hdelivered.trans (quiet_request _ _)).trans
      (quiet_write _ fun key => TopicStore.applyTopicEdit_seenAt ..)

theorem quiet_handlePin (pinned : Bool) :
    Quiet catalog (catalog.handlePin dialogId delivered topicId pinned observedAt) := by
  have hwrite := (quiet_deliveredOrder catalog delivered).trans
    (quiet_write (f := fun topics => topics.applyTopicPin (dialogId, topicId) pinned observedAt
      (catalog.deliveredOrder delivered).1) _ fun key => TopicStore.applyTopicPin_seenAt ..)
  simp only [handlePin]
  split_ifs
  · exact hwrite.trans (quiet_request _ _)
  · exact hwrite

theorem quiet_handlePins (pinned : List ℤ) :
    Quiet catalog (catalog.handlePins dialogId delivered pinned observedAt) := by
  have hwrite := (quiet_deliveredOrder catalog delivered).trans
    (quiet_write (f := fun topics => topics.applyTopicPins dialogId pinned observedAt
      (catalog.deliveredOrder delivered).1) _ fun key => TopicStore.applyTopicPins_seenAt ..)
  simp only [handlePins]
  split_ifs
  · exact hwrite.trans (quiet_request _ _)
  · exact hwrite

end Events

/-! ## The start of a page -/

/-- What `begin_page` does: nothing that a scan could see, or a page of the open generation, or the
first page of a fresh one. -/
theorem beginPage_cases {scan : Option TopicScan} (h : catalog.beginPage = (scan, catalog')) :
    (scan = none ∧ Quiet catalog catalog') ∨
    (∃ state generation, catalog.bootstrap.state = some state ∧
      state.generation = some generation ∧ state.scanRevision = some state.revision ∧
      scan = some
        { generation
          revision := state.revision
          observationOrder := catalog.sequence + 1
          cursor := state.cursor } ∧
      catalog' = { catalog with state := some state, sequence := catalog.sequence + 1 }) ∨
    (∃ state, catalog.row.Follows state ∧ state.generation = none ∧
      scan = some
        { generation := catalog.sequence + 1
          revision := state.revision
          observationOrder := catalog.sequence + 2
          cursor := state.cursor } ∧
      catalog' =
        { catalog with
          state := some
            { state with
              generation := some (catalog.sequence + 1)
              scanRevision := some state.revision }
          sequence := catalog.sequence + 2 }) := by
  have hbootstrap := quiet_bootstrap catalog
  obtain ⟨state, hstate⟩ : ∃ state, catalog.bootstrap.state = some state := ⟨_, rfl⟩
  have hrow : catalog.row.Follows state := by
    have hfollows := hbootstrap.row
    rwa [row, row, hstate] at hfollows
  rw [beginPage] at h
  simp only [hstate] at h
  split_ifs at h with hpending
  · obtain ⟨rfl, rfl⟩ := Prod.mk.inj h
    exact Or.inl ⟨rfl, hbootstrap⟩
  · by_cases houtdated : state.generation.isSome ∧ state.scanRevision ≠ some state.revision
    · simp only [openScan, if_pos houtdated, TopicCatalogState.resetScan, allocate] at h
      obtain ⟨rfl, rfl⟩ := Prod.mk.inj h
      exact Or.inr (Or.inr ⟨state.resetScan, hrow.trans (TopicCatalogState.resetScan_follows le_rfl),
        rfl, rfl, rfl⟩)
    · simp only [openScan, if_neg houtdated] at h
      cases hgeneration : state.generation with
      | none =>
        simp only [hgeneration, allocate] at h
        obtain ⟨rfl, rfl⟩ := Prod.mk.inj h
        exact Or.inr (Or.inr ⟨state, hrow, hgeneration, rfl, rfl⟩)
      | some generation =>
        have hrevision : state.scanRevision = some state.revision := by
          by_contra hne
          exact houtdated ⟨by rw [hgeneration]; rfl, hne⟩
        simp only [hgeneration, hrevision, allocate] at h
        obtain ⟨rfl, rfl⟩ := Prod.mk.inj h
        exact Or.inr (Or.inl ⟨state, generation, hstate, hgeneration, hrevision, rfl, rfl⟩)

/-- A page that is not begun. -/
theorem beginPage_none (h : catalog.beginPage = (none, catalog')) : Quiet catalog catalog' := by
  rcases beginPage_cases catalog h with ⟨-, hquiet⟩ | ⟨_, _, -, -, -, hscan, -⟩ |
    ⟨_, -, -, hscan, -⟩
  · exact hquiet
  all_goals exact absurd hscan.symm (Option.some_ne_none _)

/-! ## The answer to a page -/

/-- What the checks of a page promise. -/
structure PageValid (state : TopicCatalogState) (page : TopicPage) (seen : List ℤ) : Prop where
  nonneg : 0 ≤ page.count
  count : ∀ count, state.expectedCount = some count → count = page.count
  cursor : ∀ next, page.nextCursor = some next → next ∉ state.cursors
  nodup : page.ids.Nodup
  progress : page.ids = [] ∨ ∃ id ∈ page.ids, id ∉ seen
  bounded : ((unionIds seen page.ids).length : ℤ) ≤ page.count
  exhausted : page.ids = [] → (seen.length : ℤ) = page.count

theorem validatePage_ok {page : TopicPage} {seen : List ℤ} {u : Unit}
    (h : state.validatePage page seen = .ok u) : PageValid state page seen := by
  rw [TopicCatalogState.validatePage] at h
  split_ifs at h with hcount horder hcursor hrepeated hbounded
  push Not at hcount hrepeated hbounded
  obtain ⟨hnonneg, hexpected⟩ := hcount
  refine ⟨hnonneg, fun count hcount => ?_, fun next hnext hmem => ?_, hrepeated.1, ?_, hbounded.1,
    hbounded.2⟩
  · rw [hcount] at hexpected
    simpa using hexpected
  · rw [hnext] at hcursor
    exact hcursor (by simpa using hmem)
  · by_cases hnil : page.ids = []
    · exact Or.inl hnil
    · exact Or.inr (hrepeated.2 hnil)

/-- The scan is the open one, at its current cursor and under the current revision. -/
structure Owns (state : TopicCatalogState) (scan : TopicScan) : Prop where
  generation : state.generation = some scan.generation
  revision : state.revision = scan.revision
  cursor : state.cursor = scan.cursor

section Answer

variable {catalog} {dialogId : ℤ} {scan : TopicScan} {page : TopicPage} {now : ℤ}
  {outcome : PageOutcome} {catalog' : TopicCatalog}

/-- An answer that is accepted is the answer to the open scan; any other one leaves it. -/
theorem applyPageOutcome_cases
    (h : catalog.applyPageOutcome dialogId scan page now = .ok (outcome, catalog')) :
    (outcome = {} ∧ catalog'.state = catalog.state ∧ Quiet catalog catalog') ∨
    ∃ state, catalog.state = some state ∧ Owns state scan ∧
      PageValid state page (catalog.seen dialogId scan.generation) ∧
      ((outcome = { accepted := true, complete := true } ∧
          ((unionIds (catalog.seen dialogId scan.generation) page.ids).length : ℤ) = page.count ∧
          catalog' =
            { catalog with
              topics := retireUnseen dialogId (catalog.writePage dialogId scan page now)
                scan.generation scan.observationOrder
              state := some (state.finish now scan.observationOrder).resetScan }) ∨
        ∃ next, outcome = { accepted := true } ∧ page.nextCursor = some next ∧
          ((unionIds (catalog.seen dialogId scan.generation) page.ids).length : ℤ) ≠ page.count ∧
          catalog' =
            { catalog with
              topics := catalog.writePage dialogId scan page now
              state := some (state.advance page next scan.observationOrder) }) := by
  rw [applyPageOutcome] at h
  cases hstate : catalog.state with
  | none =>
    simp only [hstate] at h
    obtain ⟨rfl, rfl⟩ := Prod.mk.inj (Except.ok.inj h)
    exact Or.inl ⟨rfl, hstate, .refl catalog⟩
  | some state =>
    simp only [hstate] at h
    split_ifs at h with hstale hrevision hcount
    · obtain ⟨rfl, rfl⟩ := Prod.mk.inj (Except.ok.inj h)
      exact Or.inl ⟨rfl, hstate, .refl catalog⟩
    · obtain ⟨rfl, rfl⟩ := Prod.mk.inj (Except.ok.inj h)
      exact Or.inl ⟨rfl, rfl, hstate ▸ quiet_write (f := fun topics => topics.upsertTopics dialogId
        page.topics now scan.observationOrder) catalog fun key =>
          TopicStore.upsertTopics_seenAt ..⟩
    · push Not at hstale hrevision
      obtain ⟨u, hvalid, h⟩ := except_bind_eq_ok.mp h
      obtain ⟨rfl, rfl⟩ := Prod.mk.inj (Except.ok.inj h)
      exact Or.inr ⟨state, rfl, ⟨hstale.1, hrevision, hstale.2⟩, validatePage_ok hvalid,
        Or.inl ⟨rfl, hcount, rfl⟩⟩
    · push Not at hstale hrevision
      obtain ⟨u, hvalid, h⟩ := except_bind_eq_ok.mp h
      cases hnext : page.nextCursor with
      | none =>
        simp only [hnext] at h
        cases h
      | some next =>
        simp only [hnext] at h
        obtain ⟨rfl, rfl⟩ := Prod.mk.inj (Except.ok.inj h)
        exact Or.inr ⟨state, rfl, ⟨hstale.1, hrevision, hstale.2⟩, validatePage_ok hvalid,
          Or.inr ⟨next, rfl, rfl, hcount, rfl⟩⟩

end Answer

end TopicCatalog

end McpTelegram
