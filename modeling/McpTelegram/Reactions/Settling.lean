import McpTelegram.Reactions.Detail

/-!
# Settling a call

What `refresh_one` leaves of a message when it commits: nothing changes unless the row still is what
the call expects, and a page or a failure that is accepted does one of four things to the status row
and to the displayed and the staged rows.
-/

namespace McpTelegram

namespace ReactionStore

variable (store : ReactionStore)
variable {generation : ℕ} {status : DetailStatus} {offset : Option String}

/-- The rows that readers may see. -/
def displayedRows : List ReactionEventRow :=
  store.events.filter fun row => row.displayGeneration ≠ 0

/-- The rows of the acquisition that is under way. -/
def stagedRows : List ReactionEventRow :=
  store.events.filter fun row => row.displayGeneration = 0

/-! ## What a commit does -/

@[simp] theorem ensureStatus_state (generation : ℕ) (when : ℤ) :
    (store.ensureStatus generation when).state = store.state := by
  rw [ensureStatus]
  cases store.status <;> rfl

theorem ensureStatus_of_some {row : DetailStatusRow} (h : store.status = some row)
    (generation : ℕ) (when : ℤ) : store.ensureStatus generation when = store := by
  rw [ensureStatus, h]

theorem casStatus_of_some {row : DetailStatusRow} (h : store.status = some row) :
    store.casStatus generation status offset = true ↔ row.aggregateGeneration = generation ∧
      row.status = status ∧ row.nextOffset = offset := by
  simp [casStatus, h, and_assoc]

theorem updateStatus_of_some (row : DetailStatusRow) (h : store.status = some row)
    (hcas : row.aggregateGeneration = generation ∧ row.status = status ∧ row.nextOffset = offset)
    (change : DetailStatusRow → DetailStatusRow) :
    store.updateStatus generation status offset change =
      some { store with status := some (change row) } := by
  rw [updateStatus, h]
  exact if_pos hcas

/-- The rows of a page as they are staged. -/
def pageRows (generation : ℕ) (when : ℤ) (stagedCount : ℕ) (events : List ReactionEvent) :
    List ReactionEventRow :=
  events.mapIdx fun index event =>
    { event, fetchedAt := when, detailGeneration := generation
      pageOrdinal := stagedCount + index, displayGeneration := 0 }

/-- A call whose page is about to be committed: not cancelled, eligible, with a page, and the row is
as the call expects it. -/
structure Commits (cancelled eligible : Bool) (state : ExpectedDetailState)
    (fetched : ReactionDetailFetchResult) (page : ReactionDetailPage) : Prop where
  running : cancelled = false
  eligible : eligible = true
  fetched : fetched.failure = none ∧ fetched.page = some page
  matching : store.casStatus state.requestedGeneration state.status state.offset = true

/-- What a settled call leaves of a store with a status row. -/
inductive Settled (row : DetailStatusRow) (cancelled eligible : Bool) (state : ExpectedDetailState)
    (fetched : ReactionDetailFetchResult) : ReactionDetailResult → ReactionStore → Prop where
  /-- Nothing is changed. -/
  | unchanged (result : ReactionDetailResult) (hresult : result.fetchedPages = 0) :
      Settled row cancelled eligible state fetched result store
  /-- A failure, after which the acquisition goes on. -/
  | failed (result : ReactionDetailResult) (after : DetailStatusRow)
      (hresult : result.fetchedPages = 0) (hstatus : after.status ≠ .complete)
      (hgeneration : after.aggregateGeneration = row.aggregateGeneration)
      (hdisplay : after.displayGeneration = row.displayGeneration)
      (hoffset : after.nextOffset = row.nextOffset) :
      Settled row cancelled eligible state fetched result { store with status := some after }
  /-- A failure that ends the acquisition. -/
  | terminated (result : ReactionDetailResult) (after : DetailStatusRow)
      (hresult : result.fetchedPages = 0) (hstatus : after.status ≠ .complete)
      (hgeneration : after.aggregateGeneration = row.aggregateGeneration)
      (hdisplay : after.displayGeneration = row.displayGeneration)
      (hoffset : after.nextOffset = none) :
      Settled row cancelled eligible state fetched result
        { store with
          status := some after
          events := store.events.filter fun event =>
            ¬(event.detailGeneration = row.aggregateGeneration ∧ event.displayGeneration = 0) }
  /-- A page that is not the last one. -/
  | staged (result : ReactionDetailResult) (page : ReactionDetailPage) (next : String)
      (after : DetailStatusRow) (when : ℤ) (stagedCount : ℕ)
      (hcommits : store.Commits cancelled eligible state fetched page)
      (hpage : page.nextOffset = some next) (hresult : result.fetchedPages = 1)
      (hstatus : after.status ≠ .complete)
      (hgeneration : after.aggregateGeneration = row.aggregateGeneration)
      (hdisplay : after.displayGeneration = row.displayGeneration)
      (hoffset : after.nextOffset = some next) :
      Settled row cancelled eligible state fetched result
        { store.stageEvents row.aggregateGeneration when stagedCount page.events with
          status := some after }
  /-- The last page. -/
  | published (result : ReactionDetailResult) (page : ReactionDetailPage)
      (after : DetailStatusRow) (when : ℤ) (stagedCount : ℕ)
      (hcommits : store.Commits cancelled eligible state fetched page)
      (hpage : page.nextOffset = none) (hresult : result.fetchedPages = 1)
      (hgeneration : after.aggregateGeneration = row.aggregateGeneration)
      (hdisplay : after.displayGeneration = row.aggregateGeneration)
      (hoffset : after.nextOffset = none) :
      Settled row cancelled eligible state fetched result
        { (store.stageEvents row.aggregateGeneration when stagedCount page.events).publishEvents
            row.aggregateGeneration with
          status := some after }

variable {store} {row : DetailStatusRow} {cancelled eligible : Bool} {state : ExpectedDetailState}
  {fetched : ReactionDetailFetchResult}

theorem Settled.ofFailure (hrow : store.status = some row) (policy : ReactionDetailPolicy)
    (failure : Option GatewayFailure) (when : ℤ) (failureKind : Option String) :
    store.Settled row cancelled eligible state fetched
      (store.persistFailureLocked policy eligible state.requestedGeneration state.status
        state.offset state.stagedCount failure when failureKind).1
      (store.persistFailureLocked policy eligible state.requestedGeneration state.status
        state.offset state.stagedCount failure when failureKind).2 := by
  rw [persistFailureLocked]
  cases eligible with
  | false => exact .unchanged _ rfl
  | true =>
    by_cases hcas : store.casStatus state.requestedGeneration state.status state.offset = true
    · obtain ⟨hgeneration, hstatus, hoffset⟩ := (store.casStatus_of_some hrow).mp hcas
      simp only [hcas, Bool.not_true, Bool.false_eq_true, if_false]
      cases hterminal : GatewayFailure.isTerminalFailure failure with
      | true =>
        simp only [if_true]
        rw [ensureStatus_of_some _ (by exact hrow),
          updateStatus_of_some _ row ?_ ⟨hgeneration, hstatus, hoffset⟩]
        · rw [← hgeneration]
          exact .terminated _ _ rfl (by simp [DetailStatus.failureStatus]) rfl rfl rfl
        · exact hrow
      | false =>
        simp only [Bool.false_eq_true, if_false]
        rw [ensureStatus_of_some _ hrow,
          updateStatus_of_some _ row hrow ⟨hgeneration, hstatus, hoffset⟩]
        refine .failed _ _ rfl ?_ rfl rfl hoffset.symm
        simp only [DetailStatus.failureStatus, Bool.false_eq_true, if_false]
        split <;> decide
    · simp only [hcas, Bool.not_true, Bool.not_false, Bool.false_eq_true, if_false, if_true]
      exact .unchanged _ rfl

theorem Settled.ofPage (hrow : store.status = some row) (when : ℤ) {page : ReactionDetailPage}
    (hrunning : cancelled = false) (hfetched : fetched.failure = none ∧ fetched.page = some page) :
    store.Settled row cancelled eligible state fetched
      (store.persistPageLocked eligible state.requestedGeneration state.status state.offset
        page.events page.nextOffset when).1
      (store.persistPageLocked eligible state.requestedGeneration state.status state.offset
        page.events page.nextOffset when).2 := by
  rw [persistPageLocked]
  cases eligible with
  | false => exact .unchanged _ rfl
  | true =>
    by_cases hcas : store.casStatus state.requestedGeneration state.status state.offset = true
    · have hmatch := (store.casStatus_of_some hrow).mp hcas
      obtain ⟨hgeneration, hstatus, hoffset⟩ := hmatch
      have hcommits : store.Commits cancelled true state fetched page :=
        ⟨hrunning, rfl, hfetched, hcas⟩
      simp only [hcas, Bool.not_true, Bool.false_eq_true, if_false]
      rw [ensureStatus_of_some _ hrow]
      cases hnext : page.nextOffset with
      | none =>
        simp only
        rw [updateStatus_of_some _ row ?_ ⟨hgeneration, hstatus, hoffset⟩]
        · rw [← hgeneration]
          exact .published _ page _ when _ hcommits hnext rfl rfl rfl rfl
        · exact hrow
      | some next =>
        simp only
        rw [updateStatus_of_some _ row ?_ ⟨hgeneration, hstatus, hoffset⟩]
        · rw [← hgeneration]
          exact .staged _ page next _ when _ hcommits hnext rfl (by simp) rfl rfl rfl
        · exact hrow
    · simp only [hcas, Bool.not_true, Bool.not_false, Bool.false_eq_true, if_false, if_true]
      exact .unchanged _ rfl

/-- The ways in which a call is settled. -/
theorem settleRefresh_settled (hrow : store.status = some row) (policy : ReactionDetailPolicy)
    (when : ℤ) :
    store.Settled row cancelled eligible state fetched
      (store.settleRefresh policy cancelled eligible state fetched when).1
      (store.settleRefresh policy cancelled eligible state fetched when).2 := by
  rw [settleRefresh]
  cases hcancelled : cancelled with
  | true => exact .unchanged _ rfl
  | false =>
    simp only [Bool.false_eq_true, if_false]
    rw [persistFetchResult]
    cases hfailure : fetched.failure with
    | some failure => exact .ofFailure hrow policy (some failure) when none
    | none =>
      cases hpage : fetched.page with
      | none => exact .unchanged _ rfl
      | some page =>
        simp only
        split
        · exact .ofFailure hrow policy none when (some "non_advancing_offset")
        · exact .ofPage hrow when rfl ⟨hfailure, hpage⟩

/-- A call that finds the row changed, or a call that is cancelled or not eligible, changes
nothing. -/
theorem settleRefresh_of_not_matching (policy : ReactionDetailPolicy) (when : ℤ)
    (h : store.casStatus state.requestedGeneration state.status state.offset ≠ true) :
    (store.settleRefresh policy cancelled eligible state fetched when).2 = store := by
  have hfailure : ∀ failure failureKind, (store.persistFailureLocked policy eligible
      state.requestedGeneration state.status state.offset state.stagedCount failure when
      failureKind).2 = store := by
    intro failure failureKind
    rw [persistFailureLocked]
    cases eligible <;> simp [h]
  rw [settleRefresh]
  split
  · rfl
  · rw [persistFetchResult]
    split
    · exact hfailure _ _
    · rfl
    · split
      · exact hfailure _ _
      · rw [persistPageLocked]
        cases eligible <;> simp [h]

/-! ## Displayed and staged rows -/

theorem pageRows_event (generation : ℕ) (when : ℤ) (stagedCount : ℕ) (events : List ReactionEvent) :
    (pageRows generation when stagedCount events).map (·.event) = events := by
  apply List.ext_getElem
  · simp [pageRows]
  · simp [pageRows]

theorem pageRows_spec {when : ℤ} {stagedCount : ℕ} {events : List ReactionEvent}
    {row : ReactionEventRow} (h : row ∈ pageRows generation when stagedCount events) :
    row.detailGeneration = generation ∧ row.displayGeneration = 0 := by
  obtain ⟨index, hindex, rfl⟩ := List.mem_mapIdx.mp h
  exact ⟨rfl, rfl⟩

variable (store)

theorem displayedRows_stageEvents (generation : ℕ) (when : ℤ) (stagedCount : ℕ)
    (events : List ReactionEvent) :
    (store.stageEvents generation when stagedCount events).displayedRows = store.displayedRows := by
  have hnone : (pageRows generation when stagedCount events).filter
      (fun row => row.displayGeneration ≠ 0) = [] := by
    rw [List.filter_eq_nil_iff]
    intro row hrow
    simp [(pageRows_spec hrow).2]
  rw [displayedRows, displayedRows]
  change ((store.events ++ pageRows generation when stagedCount events).filter _) = _
  rw [List.filter_append, hnone, List.append_nil]

theorem stagedRows_stageEvents (generation : ℕ) (when : ℤ) (stagedCount : ℕ)
    (events : List ReactionEvent) :
    (store.stageEvents generation when stagedCount events).stagedRows =
      store.stagedRows ++ pageRows generation when stagedCount events := by
  have hall : (pageRows generation when stagedCount events).filter
      (fun row => row.displayGeneration = 0) = pageRows generation when stagedCount events := by
    rw [List.filter_eq_self]
    intro row hrow
    simp [(pageRows_spec hrow).2]
  rw [stagedRows, stagedRows]
  change ((store.events ++ pageRows generation when stagedCount events).filter _) = _
  rw [List.filter_append, hall]

/-- Among rows of which exactly the staged ones are of a generation, publishing it displays the
staged ones and drops the others. -/
theorem filter_publish {rows : List ReactionEventRow}
    (h : ∀ row ∈ rows, row.displayGeneration = 0 ↔ row.detailGeneration = generation) :
    ((rows.map fun row =>
        if row.detailGeneration = generation then { row with displayGeneration := generation }
        else row).filter
      fun row => ¬(row.displayGeneration > 0 ∧ row.detailGeneration ≠ generation)) =
      (rows.filter fun row => row.displayGeneration = 0).map
        fun row => { row with displayGeneration := generation } := by
  induction rows with
  | nil => rfl
  | cons row rest ih =>
    have hrest := ih fun other hother => h other (List.mem_cons_of_mem _ hother)
    have hrow := h row List.mem_cons_self
    rw [List.map_cons]
    by_cases hstaged : row.displayGeneration = 0
    · have hgeneration := hrow.mp hstaged
      rw [if_pos hgeneration, List.filter_cons_of_pos (by simp [hgeneration]), hrest,
        List.filter_cons_of_pos (by simp [hstaged]), List.map_cons]
    · have hgeneration := fun heq => hstaged (hrow.mpr heq)
      rw [if_neg hgeneration, List.filter_cons_of_neg (by simp; omega), hrest,
        List.filter_cons_of_neg (by simp [hstaged])]

variable {store}

/-- A last page publishes the staged rows and its own, when nothing of its generation is displayed
yet. -/
theorem publishEvents_events (when : ℤ) (stagedCount : ℕ) (events : List ReactionEvent)
    (hstaged : ∀ row ∈ store.stagedRows, row.detailGeneration = generation)
    (hdisplayed : ∀ row ∈ store.displayedRows, row.detailGeneration ≠ generation) :
    ((store.stageEvents generation when stagedCount events).publishEvents generation).events =
      (store.stagedRows ++ pageRows generation when stagedCount events).map
        fun row => { row with displayGeneration := generation } := by
  rw [publishEvents]
  simp only
  rw [filter_publish]
  · exact congrArg _ (stagedRows_stageEvents store generation when stagedCount events)
  · intro row hrow
    rcases List.mem_append.mp hrow with hrow | hrow
    · constructor
      · intro hzero
        exact hstaged row (List.mem_filter.mpr ⟨hrow, by simpa using hzero⟩)
      · intro hgeneration
        by_contra hzero
        exact hdisplayed row (List.mem_filter.mpr ⟨hrow, by simpa using hzero⟩) hgeneration
    · obtain ⟨hgeneration, hzero⟩ := pageRows_spec hrow
      exact iff_of_true hzero hgeneration

end ReactionStore

end McpTelegram
