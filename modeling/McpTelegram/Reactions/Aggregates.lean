import McpTelegram.Reactions.Store

/-!
# Aggregate observations

`reactions/persistence.py` on a database with the aggregate and the detail tables: an observation
of the counters of a message is applied when its boundary is above the stored one.
-/

namespace McpTelegram

namespace ReactionStore

variable (store : ReactionStore)

/-- `allocate_observation_boundary`. -/
def allocateObservationBoundary (source : ReactionAggregateSource) (observedAt : Option ℤ)
    (now : ℤ) : ReactionObservationBoundary × ReactionStore :=
  ({ observedAt := observedAt.getD now, sourceRank := source.rank
     sequence := store.nextSequence.succPNat, source := source.value },
    { store with nextSequence := store.nextSequence + 1 })

/-- `_boundary_from_values`. -/
def boundaryFromValues (observation : AggregateObservation) :
    ReactionObservationBoundary × ReactionStore :=
  match observation.observedAt, observation.observationSequence with
  | some observedAt, some sequence =>
    ({ observedAt, sourceRank := observation.source.rank, sequence
       source := observation.source.value }, store)
  | _, _ => store.allocateObservationBoundary observation.source observation.observedAt
      observation.now

/-- `_accepted_generation`. -/
def acceptedGeneration (existing : Option AggregateState)
    (boundary : ReactionObservationBoundary) : Option (ℕ × ℕ) :=
  match existing with
  | none => some (0, 1)
  | some state =>
    if boundary ≤ state.boundary then none else some (state.generation, state.generation + 1)

/-- `_stored_visibility`. -/
def storedVisibility (existing : Option AggregateState) : Option Bool :=
  existing.bind (·.canSeeList)

/-- `_projection_matches`: both lists are sorted before they are compared. -/
def projectionMatches (aggregates : List ReactionAggregate) : Bool :=
  decide (store.reactions.Perm aggregates)

/-- `_INSERT_REACTION_SQL`: the key of a row is its emoji. -/
def insertReaction (rows : List ReactionAggregate) (aggregate : ReactionAggregate) :
    List ReactionAggregate :=
  rows.filter (fun row => row.emoji ≠ aggregate.emoji) ++ [aggregate]

/-- `_replace_projection`. -/
def replaceProjection (aggregates : List ReactionAggregate) : ReactionStore :=
  { store with reactions := aggregates.foldl insertReaction [] }

/-- `_store_aggregate_state`. -/
def storeAggregateState (generation : ℕ) (boundary : ReactionObservationBoundary)
    (aggregateCount : ℕ) (canSeeList : Option Bool) : ReactionStore :=
  { store with
    state := some { generation, boundary, aggregateRowCount := aggregateCount, canSeeList } }

/-- `_mark_empty_detail_terminal`. -/
def markEmptyDetailTerminal (generation : ℕ) (now : ℤ) : ReactionStore :=
  { store with
    events := []
    status := some
      { aggregateGeneration := generation, detailGeneration := generation
        displayGeneration := generation, publishedGeneration := generation, checkedAt := now
        status := .complete, returnedCount := 0, stagedCount := 0, nextOffset := none
        nextAttemptAt := none, failureKind := none } }

/-- `_mark_hidden_detail_terminal`. -/
def markHiddenDetailTerminal (generation : ℕ) (now : ℤ) : ReactionStore :=
  let store := store.markEmptyDetailTerminal generation now
  { store with
    status := store.status.map fun row =>
      { row with status := .unavailable, failureKind := some "visibility_unavailable" } }

/-- `_invalidate_detail`. -/
def invalidateDetail (generation : ℕ) (now : ℤ) : ReactionStore :=
  let displayGeneration := (store.status.map (·.displayGeneration)).getD 0
  let fresh : DetailStatusRow :=
    { aggregateGeneration := generation, detailGeneration := 0
      displayGeneration := displayGeneration, publishedGeneration := 0, checkedAt := now
      status := .stale, returnedCount := 0, stagedCount := 0, nextOffset := none
      nextAttemptAt := some now, failureKind := none }
  { store with
    events := store.events.filter fun row => row.displayGeneration ≠ 0
    status := some <|
      match store.status with
      | none => fresh
      | some row =>
        { fresh with
          displayGeneration := max row.displayGeneration displayGeneration
          publishedGeneration := max row.publishedGeneration 0 } }

/-- `_finish_detail_for_aggregate`. -/
def finishDetailForAggregate (generation : ℕ) (now : ℤ) (aggregates : List ReactionAggregate) :
    ReactionStore :=
  if aggregates ≠ [] then store.invalidateDetail generation now
  else store.markEmptyDetailTerminal generation now

/-- `_finish_identical_detail`. -/
def finishIdenticalDetail (generation : ℕ) (now : ℤ) (aggregates : List ReactionAggregate) :
    ReactionStore :=
  if aggregates = [] then store.markEmptyDetailTerminal generation now else store

/-- `_update_identical_observation`. -/
def updateIdenticalObservation (generation : ℕ) (boundary : ReactionObservationBoundary)
    (aggregates : List ReactionAggregate) : ReactionStore :=
  finishIdenticalDetail
    { store with state := store.state.map fun state => { state with boundary := boundary } }
    generation boundary.observedAt aggregates

/-- `apply_aggregate_observation`: whether the observation was accepted, and the store. -/
def applyAggregateObservation (observation : AggregateObservation) : Bool × ReactionStore :=
  let aggregates := observation.aggregates
  let (boundary, store) := store.boundaryFromValues observation
  match acceptedGeneration store.state boundary with
  | none => (false, store)
  | some (previousGeneration, generation) =>
    let previousVisibility := storedVisibility store.state
    let visibility := observation.canSeeList.or previousVisibility
    if store.state.isSome ∧ visibility = previousVisibility ∧ store.projectionMatches aggregates
    then (true, store.updateIdenticalObservation previousGeneration boundary aggregates)
    else
      let store := (store.replaceProjection aggregates).storeAggregateState generation boundary
        aggregates.length visibility
      if visibility = some false ∧ aggregates ≠ [] then
        (true, store.markHiddenDetailTerminal generation boundary.observedAt)
      else (true, store.finishDetailForAggregate generation boundary.observedAt aggregates)

/-! ## What an observation does -/

/-- The boundary of an observation: its own, or one that is allocated for it. -/
def boundaryOf (observation : AggregateObservation) : ReactionObservationBoundary :=
  (store.boundaryFromValues observation).1

/-- Reading a boundary changes the counter of sequences at most. -/
theorem boundaryFromValues_eq (observation : AggregateObservation) :
    ∃ nextSequence, store.boundaryFromValues observation =
      (store.boundaryOf observation, { store with nextSequence := nextSequence }) := by
  rw [boundaryOf, boundaryFromValues]
  split
  · exact ⟨store.nextSequence, rfl⟩
  · exact ⟨store.nextSequence + 1, rfl⟩

/-- An observation with an instant and a sequence brings its boundary with it. -/
theorem boundaryOf_explicit (other : ReactionStore) {observation : AggregateObservation}
    (h : observation.observedAt ≠ none ∧ observation.observationSequence ≠ none) :
    store.boundaryOf observation = other.boundaryOf observation := by
  obtain ⟨observedAt, hobserved⟩ := Option.ne_none_iff_exists'.mp h.1
  obtain ⟨sequence, hsequence⟩ := Option.ne_none_iff_exists'.mp h.2
  simp only [boundaryOf, boundaryFromValues, hobserved, hsequence]

/-- The store after an accepted observation that shows something else than what is stored. -/
def replacedBy (aggregates : List ReactionAggregate) (generation : ℕ)
    (boundary : ReactionObservationBoundary) (visibility : Option Bool) : ReactionStore :=
  let store := (store.replaceProjection aggregates).storeAggregateState generation boundary
    aggregates.length visibility
  if visibility = some false ∧ aggregates ≠ [] then
    store.markHiddenDetailTerminal generation boundary.observedAt
  else store.finishDetailForAggregate generation boundary.observedAt aggregates

/-- The three ways of an observation: it is stale, it shows what is stored, or it replaces it. -/
theorem applyAggregateObservation_cases (observation : AggregateObservation) :
    ∃ nextSequence, let boundary := store.boundaryOf observation
      let base := { store with nextSequence := nextSequence }
      (∃ state, store.state = some state ∧ boundary ≤ state.boundary ∧
        store.applyAggregateObservation observation = (false, base)) ∨
      (∃ state, store.state = some state ∧ state.boundary < boundary ∧
        store.reactions.Perm observation.aggregates ∧
        store.applyAggregateObservation observation = (true,
          base.updateIdenticalObservation state.generation boundary observation.aggregates)) ∨
      ((∀ state, store.state = some state → state.boundary < boundary) ∧
        store.applyAggregateObservation observation = (true,
          base.replacedBy observation.aggregates
            ((store.state.map (·.generation)).getD 0 + 1) boundary
            (observation.canSeeList.or (storedVisibility store.state)))) := by
  obtain ⟨nextSequence, hboundary⟩ := store.boundaryFromValues_eq observation
  refine ⟨nextSequence, ?_⟩
  rw [applyAggregateObservation, hboundary]
  cases hstate : store.state with
  | none =>
    refine Or.inr (Or.inr ⟨by simp, ?_⟩)
    simp only [acceptedGeneration, replacedBy, Option.map_none, Option.getD_none,
      Option.isSome_none, Bool.false_eq_true, false_and, if_false]
    split <;> rfl
  | some state =>
    by_cases hle : store.boundaryOf observation ≤ state.boundary
    · refine Or.inl ⟨state, rfl, hle, ?_⟩
      simp only [acceptedGeneration, if_pos hle]
    · have hlt := not_le.mp hle
      simp only [acceptedGeneration, if_neg hle, Option.map_some, Option.getD_some]
      split
      · rename_i hsame
        refine Or.inr (Or.inl ⟨state, rfl, hlt, ?_, rfl⟩)
        exact of_decide_eq_true hsame.2.2
      · refine Or.inr (Or.inr ⟨by rintro _ ⟨⟩; exact hlt, ?_⟩)
        rw [replacedBy]
        split <;> rfl

end ReactionStore

end McpTelegram
