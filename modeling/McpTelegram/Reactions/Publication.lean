import McpTelegram.Foundations.Run
import McpTelegram.Reactions.Settling

/-!
# Publication of the reactor detail

The aggregate writers and any number of calls of `refresh_one` run one message.  What is displayed
is nothing or one whole acquisition: the pages from the null offset to the null offset, committed one
after the other within one generation.  Each staged row belongs to the acquisition that is under
way, which is what an observation or a terminal failure discards.

The compare-and-set accepts a call that starts on a complete row of its generation.  The rows that
this generation displays already are not deleted when the last page of such a call is committed, so
the results are about the runs in which no call publishes a generation a second time.
-/

namespace McpTelegram

variable {policy : ReactionDetailPolicy}

/-! ## Acquisitions -/

/-- A page that was committed: for which generation, from which offset, and what it brought. -/
structure CommittedPage where
  generation : ℕ
  offset : Option String
  events : List ReactionEvent
  nextOffset : Option String
  deriving DecidableEq

/-- The pages of a generation from the null offset up to the next offset. -/
inductive Acquired (generation : ℕ) : List CommittedPage → Option String → Prop where
  | start : Acquired generation [] none
  | next {pages : List CommittedPage} {offset : Option String} (h : Acquired generation pages offset)
      (events : List ReactionEvent) (nextOffset : String) :
      Acquired generation (pages ++ [⟨generation, offset, events, some nextOffset⟩]) nextOffset

/-- A whole acquisition: its last page has no next offset. -/
def Acquisition (generation : ℕ) (pages : List CommittedPage) : Prop :=
  ∃ first offset events, Acquired generation first offset ∧
    pages = first ++ [⟨generation, offset, events, none⟩]

/-- The events of pages, in page order. -/
def pageEvents (pages : List CommittedPage) : List ReactionEvent := pages.flatMap (·.events)

@[simp] theorem pageEvents_append (pages pages' : List CommittedPage) :
    pageEvents (pages ++ pages') = pageEvents pages ++ pageEvents pages' :=
  List.flatMap_append

@[simp] theorem pageEvents_singleton (page : CommittedPage) : pageEvents [page] = page.events := by
  simp [pageEvents]

/-- All pages of an acquisition but the last have a next offset. -/
theorem Acquired.nextOffset_ne_none {generation : ℕ} {pages : List CommittedPage}
    {offset : Option String} (h : Acquired generation pages offset) :
    ∀ page ∈ pages, page.nextOffset ≠ none := by
  induction h with
  | start => simp
  | next h events next ih =>
    intro page hpage
    rcases List.mem_append.mp hpage with hpage | hpage
    · exact ih page hpage
    · rw [List.mem_singleton.mp hpage]
      simp

/-! ## The system -/

/-- One message with its calls of `refresh_one` that wait for a page.  The pages that were
committed are recorded for the statements; no operation reads them. -/
structure DetailWorld where
  store : ReactionStore := {}
  calls : List ExpectedDetailState := []
  pages : List CommittedPage := []

/-- What can happen: an aggregate observation, the start of a call, and its end with whatever was
fetched, at any time. -/
inductive DetailAction where
  | observe (observation : AggregateObservation)
  | start (cancelled : Bool) (generation : ℕ) (offset : Option String)
  | settle (call : ℕ) (cancelled eligible : Bool) (fetched : ReactionDetailFetchResult) (when : ℤ)

/-- The page that a call with this result has committed. -/
def committedPage (state : ExpectedDetailState) (fetched : ReactionDetailFetchResult)
    (result : ReactionDetailResult) : List CommittedPage :=
  match fetched.page with
  | none => []
  | some page =>
    if result.fetchedPages = 1 then
      [⟨state.requestedGeneration, state.offset, page.events, page.nextOffset⟩]
    else []

/-- One step.  A call that does not exist does not end. -/
def detailStep (policy : ReactionDetailPolicy) (world : DetailWorld) :
    DetailAction → Option DetailWorld
  | .observe observation =>
    some { world with store := (world.store.applyAggregateObservation observation).2 }
  | .start cancelled generation offset =>
    match world.store.beginRefresh cancelled generation offset with
    | .error _ => some world
    | .ok state => some { world with calls := world.calls ++ [state] }
  | .settle call cancelled eligible fetched when =>
    match world.calls[call]? with
    | none => none
    | some state =>
      let settled := world.store.settleRefresh policy cancelled eligible state fetched when
      some
        { store := settled.2, calls := world.calls.eraseIdx call
          pages := world.pages ++ committedPage state fetched settled.1 }

/-- The step commits the last page of a call although rows of its generation are displayed. -/
def Republishes (world : DetailWorld) : DetailAction → Prop
  | .observe _ => False
  | .start _ _ _ => False
  | .settle call cancelled eligible fetched _ => ∃ state page, world.calls[call]? = some state ∧
      world.store.Commits cancelled eligible state fetched page ∧ page.nextOffset = none ∧
      ∃ row ∈ world.store.displayedRows, row.detailGeneration = state.requestedGeneration

/-! ## The invariant -/

namespace ReactionStore

variable (store : ReactionStore)

/-- Nothing is stored about the reactions of the message. -/
structure Untouched : Prop where
  status : store.status = none
  state : store.state = none
  events : store.events = []

/-- What holds of a message with an aggregate, after the given committed pages. -/
structure Published (pages : List CommittedPage) (row : DetailStatusRow) (state : AggregateState) :
    Prop where
  statusRow : store.status = some row
  stateRow : store.state = some state
  /-- The detail row is the row of the current generation. -/
  generation : row.aggregateGeneration = state.generation
  positive : 0 < state.generation
  /-- Displayed rows are rows of the generation that the detail row names. -/
  displayed : ∀ event ∈ store.displayedRows, event.displayGeneration = row.displayGeneration ∧
    event.detailGeneration = row.displayGeneration
  /-- Staged rows are rows of the current generation. -/
  staged : ∀ event ∈ store.stagedRows, event.detailGeneration = row.aggregateGeneration
  /-- What is displayed is nothing or one acquisition. -/
  shown : store.displayedRows = [] ∨ ∃ acquisition, acquisition <:+: pages ∧
    Acquisition row.displayGeneration acquisition ∧
      store.displayedRows.map (·.event) = pageEvents acquisition
  /-- What is staged are the pages up to the offset of the row. -/
  pending : ∃ acquired, acquired <:+ pages ∧
    Acquired row.aggregateGeneration acquired row.nextOffset ∧
      store.stagedRows.map (·.event) = pageEvents acquired
  complete : row.status = .complete → row.displayGeneration = row.aggregateGeneration

variable {store} {pages : List CommittedPage} {row : DetailStatusRow} {state : AggregateState}

/-- A message without individual reactions. -/
theorem Published.empty (hstatus : store.status = some row) (hstate : store.state = some state)
    (hevents : store.events = []) (hgeneration : row.aggregateGeneration = state.generation)
    (hpositive : 0 < state.generation) (hoffset : row.nextOffset = none)
    (hcomplete : row.status = .complete → row.displayGeneration = row.aggregateGeneration) :
    store.Published pages row state := by
  have hdisplayed : store.displayedRows = [] := by rw [displayedRows, hevents, List.filter_nil]
  have hstaged : store.stagedRows = [] := by rw [stagedRows, hevents, List.filter_nil]
  refine ⟨hstatus, hstate, hgeneration, hpositive, ?_, ?_, Or.inl hdisplayed, ?_, hcomplete⟩
  · simp [hdisplayed]
  · simp [hstaged]
  · exact ⟨[], List.nil_suffix, hoffset ▸ .start, by rw [hstaged]; rfl⟩

/-- An invalidation keeps what is displayed and drops what is staged. -/
theorem Published.invalidated (h : store.Published pages row state) {after : ReactionStore}
    {row' : DetailStatusRow} {state' : AggregateState} (hstatus : after.status = some row')
    (hstate : after.state = some state')
    (hevents : after.events = store.events.filter fun event => event.displayGeneration ≠ 0)
    (hgeneration : row'.aggregateGeneration = state'.generation) (hpositive : 0 < state'.generation)
    (hdisplay : row'.displayGeneration = row.displayGeneration) (hoffset : row'.nextOffset = none)
    (hstale : row'.status ≠ .complete) : after.Published pages row' state' := by
  have hdisplayed : after.displayedRows = store.displayedRows := by
    rw [displayedRows, hevents, List.filter_filter]
    simp [displayedRows]
  have hstaged : after.stagedRows = [] := by
    rw [stagedRows, hevents, List.filter_filter, List.filter_eq_nil_iff]
    simp
  refine ⟨hstatus, hstate, hgeneration, hpositive, ?_, ?_, ?_, ?_, fun hc => absurd hc hstale⟩
  · rw [hdisplayed, hdisplay]
    exact h.displayed
  · simp [hstaged]
  · rw [hdisplayed, hdisplay]
    exact h.shown
  · exact ⟨[], List.nil_suffix, hoffset ▸ .start, by rw [hstaged]; rfl⟩

/-! ## Observations -/

/-- A replacement of an untouched or a published message. -/
theorem replacedBy_published (aggregates : List ReactionAggregate) (generation : ℕ)
    (boundary : ReactionObservationBoundary) (visibility : Option Bool)
    (h : store.Untouched ∨ ∃ row state, store.Published pages row state) :
    ∃ row, (store.replacedBy aggregates (generation + 1) boundary visibility).Published pages row
      ⟨generation + 1, boundary, aggregates.length, visibility⟩ := by
  rw [replacedBy]
  split
  · exact ⟨_, .empty rfl rfl rfl rfl (Nat.succ_pos _) rfl (by simp)⟩
  · rw [finishDetailForAggregate]
    split
    · rcases h with h | ⟨row, state, h⟩
      · rw [invalidateDetail]
        simp only [replaceProjection, storeAggregateState, h.status, h.events]
        exact ⟨_, .empty rfl rfl rfl rfl (Nat.succ_pos _) rfl (by simp)⟩
      · rw [invalidateDetail]
        simp only [replaceProjection, storeAggregateState, h.statusRow]
        exact ⟨_, h.invalidated rfl rfl rfl rfl (Nat.succ_pos _) (by simp) rfl (by simp)⟩
    · exact ⟨_, .empty rfl rfl rfl rfl (Nat.succ_pos _) rfl (fun _ => rfl)⟩

/-- An observation keeps the invariant. -/
theorem applyAggregateObservation_published (observation : AggregateObservation)
    (h : store.Untouched ∨ ∃ row state, store.Published pages row state) :
    ∃ row state,
      (store.applyAggregateObservation observation).2.Published pages row state := by
  obtain ⟨nextSequence, ⟨state, hstate, -, heq⟩ | ⟨state, hstate, -, -, heq⟩ | ⟨-, heq⟩⟩ :=
    store.applyAggregateObservation_cases observation
  · rw [heq]
    rcases h with h | ⟨row, state', h⟩
    · simp [h.state] at hstate
    · exact ⟨row, state', h.statusRow, h.stateRow, h.generation, h.positive, h.displayed, h.staged,
        h.shown, h.pending, h.complete⟩
  · rw [heq]
    rcases h with h | ⟨row, state', h⟩
    · simp [h.state] at hstate
    · obtain rfl := Option.some_inj.mp (h.stateRow.symm.trans hstate)
      rw [updateIdenticalObservation, finishIdenticalDetail]
      split
      · refine ⟨_, { state' with boundary := store.boundaryOf observation }, .empty rfl ?_ rfl rfl
          h.positive rfl (fun _ => rfl)⟩
        simp only [markEmptyDetailTerminal, hstate, Option.map_some]
      · refine ⟨row, { state' with boundary := store.boundaryOf observation }, h.statusRow, ?_,
          h.generation, h.positive, h.displayed, h.staged, h.shown, h.pending, h.complete⟩
        simp only [hstate, Option.map_some]
  · rw [heq]
    refine ⟨_, _, (replacedBy_published _ _ _ _ ?_).choose_spec⟩
    rcases h with h | ⟨row, state', h⟩
    · exact Or.inl ⟨h.status, h.state, h.events⟩
    · exact Or.inr ⟨row, state', h.statusRow, h.stateRow, h.generation, h.positive, h.displayed,
        h.staged, h.shown, h.pending, h.complete⟩

/-! ## Calls -/

section Settle

variable {cancelled eligible : Bool} {expected : ExpectedDetailState}
  {fetched : ReactionDetailFetchResult} {result : ReactionDetailResult} {after : ReactionStore}

variable {row' : DetailStatusRow}

/-- A call without a committed page. -/
theorem committedPage_none (h : result.fetchedPages = 0) :
    committedPage expected fetched result = [] := by
  rw [committedPage]
  cases fetched.page with
  | none => rfl
  | some page => simp [h]

/-- The page that is committed starts where the row stands. -/
theorem Published.committedPage_some (h : store.Published pages row state)
    {page : ReactionDetailPage} (hcommits : store.Commits cancelled eligible expected fetched page)
    (hresult : result.fetchedPages = 1) :
    committedPage expected fetched result =
      [⟨row.aggregateGeneration, row.nextOffset, page.events, page.nextOffset⟩] := by
  obtain ⟨hgeneration, -, hoffset⟩ := (store.casStatus_of_some h.statusRow).mp hcommits.matching
  rw [committedPage, hcommits.fetched.2, hgeneration, hoffset]
  simp [hresult]

/-- A failure keeps the rows, or drops those that are staged. -/
theorem Published.failed (h : store.Published pages row state) (hstatus : row'.status ≠ .complete)
    (hgeneration : row'.aggregateGeneration = row.aggregateGeneration)
    (hdisplay : row'.displayGeneration = row.displayGeneration)
    (hoffset : row'.nextOffset = row.nextOffset) :
    Published { store with status := some row' } pages row' state := by
  refine ⟨rfl, h.stateRow, hgeneration.trans h.generation, h.positive, ?_, ?_, ?_, ?_,
    fun hc => absurd hc hstatus⟩
  · rw [hdisplay]
    exact h.displayed
  · rw [hgeneration]
    exact h.staged
  · rw [hdisplay]
    exact h.shown
  · rw [hgeneration, hoffset]
    exact h.pending

theorem Published.terminated (h : store.Published pages row state)
    (hstatus : row'.status ≠ .complete)
    (hgeneration : row'.aggregateGeneration = row.aggregateGeneration)
    (hdisplay : row'.displayGeneration = row.displayGeneration) (hoffset : row'.nextOffset = none) :
    Published
      { store with
        status := some row'
        events := store.events.filter fun event =>
          ¬(event.detailGeneration = row.aggregateGeneration ∧ event.displayGeneration = 0) }
      pages row' state := by
  refine h.invalidated rfl h.stateRow ?_ (hgeneration.trans h.generation) h.positive hdisplay
    hoffset hstatus
  apply List.filter_congr
  intro event hevent
  by_cases hzero : event.displayGeneration = 0
  · have hcurrent := h.staged event (List.mem_filter.mpr ⟨hevent, by simpa using hzero⟩)
    simp [hzero, hcurrent]
  · simp [hzero]

/-- A page that is not the last one is staged behind those of its acquisition. -/
theorem Published.stagedPage (h : store.Published pages row state) (when : ℤ) (stagedCount : ℕ)
    (events : List ReactionEvent) (next : String) (hstatus : row'.status ≠ .complete)
    (hgeneration : row'.aggregateGeneration = row.aggregateGeneration)
    (hdisplay : row'.displayGeneration = row.displayGeneration)
    (hoffset : row'.nextOffset = some next) :
    Published
      { store.stageEvents row.aggregateGeneration when stagedCount events with status := some row' }
      (pages ++ [⟨row.aggregateGeneration, row.nextOffset, events, some next⟩]) row' state := by
  have hdisplayed := displayedRows_stageEvents store row.aggregateGeneration when stagedCount events
  have hstaged := stagedRows_stageEvents store row.aggregateGeneration when stagedCount events
  refine ⟨rfl, h.stateRow, hgeneration.trans h.generation, h.positive, ?_, ?_, ?_, ?_,
    fun hc => absurd hc hstatus⟩
  · change ∀ event ∈ (store.stageEvents _ _ _ _).displayedRows, _
    rw [hdisplayed, hdisplay]
    exact h.displayed
  · change ∀ event ∈ (store.stageEvents _ _ _ _).stagedRows, _
    rw [hstaged, hgeneration]
    intro event hevent
    rcases List.mem_append.mp hevent with hevent | hevent
    · exact h.staged event hevent
    · exact (pageRows_spec hevent).1
  · change (store.stageEvents _ _ _ _).displayedRows = [] ∨ ∃ acquisition, _ ∧ _ ∧
      (store.stageEvents _ _ _ _).displayedRows.map (·.event) = pageEvents acquisition
    rw [hdisplayed, hdisplay]
    rcases h.shown with hnone | ⟨acquisition, hinfix, hrest⟩
    · exact Or.inl hnone
    · exact Or.inr ⟨acquisition, hinfix.trans (List.prefix_append _ _).isInfix, hrest⟩
  · obtain ⟨acquired, ⟨before, rfl⟩, hacquired, hevents⟩ := h.pending
    refine ⟨acquired ++ [⟨row.aggregateGeneration, row.nextOffset, events, some next⟩],
      ⟨before, by simp⟩, ?_, ?_⟩
    · rw [hgeneration, hoffset]
      exact hacquired.next events next
    · change (store.stageEvents _ _ _ _).stagedRows.map (·.event) = _
      rw [hstaged, List.map_append, hevents, pageRows_event, pageEvents_append,
        pageEvents_singleton]

/-- The last page displays its acquisition, when nothing of the generation is displayed. -/
theorem Published.lastPage (h : store.Published pages row state) (when : ℤ) (stagedCount : ℕ)
    (events : List ReactionEvent)
    (hfresh : ∀ event ∈ store.displayedRows, event.detailGeneration ≠ row.aggregateGeneration)
    (hgeneration : row'.aggregateGeneration = row.aggregateGeneration)
    (hdisplay : row'.displayGeneration = row.aggregateGeneration) (hoffset : row'.nextOffset = none) :
    Published
      { (store.stageEvents row.aggregateGeneration when stagedCount events).publishEvents
          row.aggregateGeneration with status := some row' }
      (pages ++ [⟨row.aggregateGeneration, row.nextOffset, events, none⟩]) row' state := by
  have hevents := publishEvents_events when stagedCount events h.staged hfresh
  have hpositive : row.aggregateGeneration ≠ 0 := by
    rw [h.generation]
    exact h.positive.ne'
  generalize hafter : { (store.stageEvents row.aggregateGeneration when stagedCount
    events).publishEvents row.aggregateGeneration with status := some row' } = after
  have hrows : after.events = (store.stagedRows ++
      pageRows row.aggregateGeneration when stagedCount events).map
        fun event => { event with displayGeneration := row.aggregateGeneration } := by
    rw [← hafter]
    exact hevents
  have hdisplayed : after.displayedRows = after.events := by
    rw [displayedRows, List.filter_eq_self, hrows]
    intro event hevent
    obtain ⟨_, -, rfl⟩ := List.mem_map.mp hevent
    simpa using hpositive
  have hstaged : after.stagedRows = [] := by
    rw [stagedRows, List.filter_eq_nil_iff, hrows]
    intro event hevent
    obtain ⟨_, -, rfl⟩ := List.mem_map.mp hevent
    simpa using hpositive
  obtain ⟨acquired, ⟨before, rfl⟩, hacquired, hpending⟩ := h.pending
  refine ⟨by rw [← hafter], by rw [← hafter]; exact h.stateRow, hgeneration.trans h.generation,
    h.positive, ?_, by simp [hstaged], Or.inr ?_, ?_, fun _ => hdisplay.trans hgeneration.symm⟩
  · rw [hdisplayed, hrows, hdisplay]
    intro event hevent
    obtain ⟨source, hsource, rfl⟩ := List.mem_map.mp hevent
    refine ⟨rfl, ?_⟩
    rcases List.mem_append.mp hsource with hsource | hsource
    · exact h.staged source hsource
    · exact (pageRows_spec hsource).1
  · refine ⟨acquired ++ [⟨row.aggregateGeneration, row.nextOffset, events, none⟩],
      List.IsSuffix.isInfix ⟨before, by simp⟩, ?_, ?_⟩
    · rw [hdisplay]
      exact ⟨acquired, row.nextOffset, events, hacquired, rfl⟩
    · rw [hdisplayed, hrows, List.map_map]
      change (store.stagedRows ++ pageRows _ _ _ _).map (·.event) = _
      rw [List.map_append, hpending, pageRows_event, pageEvents_append, pageEvents_singleton]
  · exact ⟨[], List.nil_suffix, hoffset ▸ .start, by rw [hstaged]; rfl⟩

/-- A settled call keeps the invariant, unless it publishes a generation again. -/
theorem Published.settled (h : store.Published pages row state)
    (hsettled : store.Settled row cancelled eligible expected fetched result after)
    (hfresh : ∀ page, store.Commits cancelled eligible expected fetched page →
      page.nextOffset = none →
      ∀ event ∈ store.displayedRows, event.detailGeneration ≠ expected.requestedGeneration) :
    ∃ row', after.Published (pages ++ committedPage expected fetched result) row' state := by
  cases hsettled with
  | unchanged hresult =>
    rw [committedPage_none hresult, List.append_nil]
    exact ⟨row, h⟩
  | failed row' hresult hstatus hgeneration hdisplay hoffset =>
    rw [committedPage_none hresult, List.append_nil]
    exact ⟨row', h.failed hstatus hgeneration hdisplay hoffset⟩
  | terminated row' hresult hstatus hgeneration hdisplay hoffset =>
    rw [committedPage_none hresult, List.append_nil]
    exact ⟨row', h.terminated hstatus hgeneration hdisplay hoffset⟩
  | staged page next row' when stagedCount hcommits hpage hresult hstatus hgeneration
      hdisplay hoffset =>
    rw [h.committedPage_some hcommits hresult, hpage]
    exact ⟨row', h.stagedPage when stagedCount page.events next hstatus hgeneration hdisplay hoffset⟩
  | published page row' when stagedCount hcommits hpage hresult hgeneration hdisplay
      hoffset =>
    rw [h.committedPage_some hcommits hresult, hpage]
    have hrequested := ((store.casStatus_of_some h.statusRow).mp hcommits.matching).1
    refine ⟨row', h.lastPage when stagedCount page.events ?_ hgeneration hdisplay hoffset⟩
    rw [hrequested]
    exact hfresh page hcommits hpage

end Settle

end ReactionStore

/-! ## Runs -/

/-- What holds in every state of a run that publishes no generation twice. -/
def DetailWorld.Invariant (world : DetailWorld) : Prop :=
  world.store.Untouched ∨ ∃ row state, world.store.Published world.pages row state

/-- An untouched message accepts no call. -/
theorem ReactionStore.Untouched.settle {store : ReactionStore} (h : store.Untouched)
    {cancelled eligible : Bool} {state : ExpectedDetailState} {fetched : ReactionDetailFetchResult}
    {when : ℤ} : (store.settleRefresh policy cancelled eligible state fetched when).2 = store := by
  apply ReactionStore.settleRefresh_of_not_matching
  simp [ReactionStore.casStatus, h.status, h.state]

/-- One step keeps the invariant. -/
theorem DetailWorld.Invariant.step {world after : DetailWorld} {action : DetailAction}
    (h : world.Invariant) (hfresh : ¬Republishes world action)
    (hstep : detailStep policy world action = some after) : after.Invariant := by
  cases action with
  | observe observation =>
    obtain rfl := Option.some_inj.mp hstep
    exact Or.inr (ReactionStore.applyAggregateObservation_published observation h)
  | start cancelled generation offset =>
    rw [detailStep] at hstep
    split at hstep
    all_goals
      obtain rfl := Option.some_inj.mp hstep
      exact h
  | settle call cancelled eligible fetched when =>
    rw [detailStep] at hstep
    cases hcall : world.calls[call]? with
    | none => simp [hcall] at hstep
    | some state =>
      rw [hcall] at hstep
      obtain rfl := Option.some_inj.mp hstep
      rcases h with h | ⟨row, aggregate, h⟩
      · left
        rw [h.settle]
        exact h
      · right
        have hsettled := @ReactionStore.settleRefresh_settled world.store row cancelled eligible
          state fetched h.statusRow policy when
        obtain ⟨row', h'⟩ := h.settled hsettled fun page hcommits hlast event hevent hgeneration =>
          hfresh ⟨state, page, hcall, hcommits, hlast, event, hevent, hgeneration⟩
        exact ⟨row', aggregate, h'⟩

/-- What is displayed is nothing or the pages of one acquisition, among those that were
committed. -/
def DetailWorld.AllOrNothing (world : DetailWorld) : Prop :=
  world.store.displayedRows = [] ∨ ∃ generation acquisition, acquisition <:+: world.pages ∧
    Acquisition generation acquisition ∧
      world.store.displayedRows.map (·.event) = pageEvents acquisition ∧
        ∀ event ∈ world.store.displayedRows, event.detailGeneration = generation

/-- A complete detail is one of the current generation, and so is what it displays. -/
def DetailWorld.CompleteIsCurrent (world : DetailWorld) : Prop :=
  ∀ row, world.store.status = some row → row.status = .complete →
    ∃ state, world.store.state = some state ∧ row.aggregateGeneration = state.generation ∧
      row.displayGeneration = state.generation ∧
      ∀ event ∈ world.store.displayedRows, event.detailGeneration = state.generation

/-- Staged rows are those of the acquisition under way in the current generation: none is left of
an older generation or of an acquisition that was given up. -/
def DetailWorld.StagedIsCurrent (world : DetailWorld) : Prop :=
  world.store.stagedRows = [] ∨ ∃ row state acquired, world.store.status = some row ∧
    world.store.state = some state ∧ acquired <:+ world.pages ∧
      Acquired state.generation acquired row.nextOffset ∧
      world.store.stagedRows.map (·.event) = pageEvents acquired ∧
      ∀ event ∈ world.store.stagedRows, event.detailGeneration = state.generation

/-- The one page that lists the reactor of a message. -/
def oneReactor : ReactionDetailFetchResult :=
  { page := some { events := [⟨some 9, "👍", none⟩], nextOffset := none } }

/-- A reaction is observed, and a call fetches its reactor. -/
def refreshedOnce : List DetailAction :=
  [.observe { aggregates := [⟨"👍", 1⟩], source := .history, observedAt := some 1
              observationSequence := some ⟨1, Nat.one_pos⟩ },
   .start false 1 none, .settle 0 false true oneReactor 2]

end McpTelegram
