import McpTelegram.Foundations.LastWriter
import McpTelegram.Reactions.Aggregates

/-!
# Aggregates converge

Whatever the order in which the observations of a message arrive, the stored counters are those of
the observation with the greatest boundary.  The counters and the boundary follow the last writer
among the observations that were applied; generations only grow, and the detail is always the
detail of the current generation.
-/

namespace McpTelegram

namespace ReactionStore

variable (store : ReactionStore)
variable {state : AggregateState} {boundary : ReactionObservationBoundary}

/-- `apply_aggregate_observation` for one observation after the other. -/
def applyEach (observations : List AggregateObservation) : ReactionStore :=
  observations.foldl (fun store observation => (store.applyAggregateObservation observation).2)
    store

/-- Each observation with the boundary that it has when its turn comes. -/
def bounded : ReactionStore → List AggregateObservation →
    List (ReactionObservationBoundary × AggregateObservation)
  | _, [] => []
  | store, observation :: rest =>
    (store.boundaryOf observation, observation) ::
      bounded (store.applyAggregateObservation observation).2 rest

/-- The generation of the aggregate, 0 before the first observation. -/
def generation : ℕ := (store.state.map (·.generation)).getD 0

/-- What one step may do to the generation. -/
structure GenerationStep (after : ReactionStore) : Prop where
  never_decreases : store.generation ≤ after.generation
  displayed : ¬after.reactions.Perm store.reactions → store.generation < after.generation
  visibility : storedVisibility after.state ≠ storedVisibility store.state →
    store.generation < after.generation
  detail : ∀ status, after.status = some status →
    ∃ state, after.state = some state ∧ status.aggregateGeneration = state.generation

theorem applyEach_append (observations : List AggregateObservation)
    (observation : AggregateObservation) :
    store.applyEach (observations ++ [observation]) =
      ((store.applyEach observations).applyAggregateObservation observation).2 := by
  rw [applyEach, List.foldl_append, List.foldl_cons, List.foldl_nil, applyEach]

theorem bounded_append (observations : List AggregateObservation)
    (observation : AggregateObservation) :
    store.bounded (observations ++ [observation]) = store.bounded observations ++
      [((store.applyEach observations).boundaryOf observation, observation)] := by
  induction observations generalizing store with
  | nil => rfl
  | cons first rest ih =>
    rw [List.cons_append, bounded, bounded, ih, List.cons_append]
    rfl

/-- Observations that bring their boundaries have them in every order. -/
theorem bounded_explicit (other : ReactionStore) {observations : List AggregateObservation}
    (h : ∀ observation ∈ observations,
      observation.observedAt ≠ none ∧ observation.observationSequence ≠ none) :
    store.bounded observations =
      observations.map fun observation => (other.boundaryOf observation, observation) := by
  induction observations generalizing store with
  | nil => rfl
  | cons first rest ih =>
    rw [bounded, ih _ fun observation hmem => h observation (List.mem_cons_of_mem _ hmem),
      store.boundaryOf_explicit other (h first List.mem_cons_self)]
    rfl

/-! ## One observation -/

/-- Inserting counters with different emojis keeps each of them. -/
theorem foldl_insertReaction {rows aggregates : List ReactionAggregate}
    (h : ((rows ++ aggregates).map (·.emoji)).Nodup) :
    aggregates.foldl insertReaction rows = rows ++ aggregates := by
  induction aggregates generalizing rows with
  | nil => simp
  | cons aggregate rest ih =>
    have hkeep : insertReaction rows aggregate = rows ++ [aggregate] := by
      rw [insertReaction, List.filter_eq_self.mpr]
      intro row hrow
      rw [List.map_append, List.map_cons] at h
      have hne := (List.nodup_append.mp h).2.2 row.emoji (List.mem_map_of_mem hrow)
        aggregate.emoji List.mem_cons_self
      rwa [decide_eq_true_eq]
    rw [List.foldl_cons, hkeep, ih (by simpa using h)]
    simp

/-- The detail row after a replacement is a row of the new generation. -/
theorem replacedBy_spec (aggregates : List ReactionAggregate) (generation : ℕ)
    (boundary : ReactionObservationBoundary) (visibility : Option Bool) :
    let after := store.replacedBy aggregates generation boundary visibility
    after.reactions = aggregates.foldl insertReaction [] ∧
      after.state = some ⟨generation, boundary, aggregates.length, visibility⟩ ∧
      ∃ status, after.status = some status ∧ status.aggregateGeneration = generation := by
  intro after
  refine ⟨?_, ?_, ?_⟩
  · simp only [after, replacedBy]
    split
    · rfl
    · rw [finishDetailForAggregate]
      split <;> rfl
  · simp only [after, replacedBy]
    split
    · rfl
    · rw [finishDetailForAggregate]
      split <;> rfl
  · simp only [after, replacedBy]
    split
    · exact ⟨_, rfl, rfl⟩
    · rw [finishDetailForAggregate]
      split
      · rw [invalidateDetail]
        cases (storeAggregateState _ _ _ _ _).status with
        | none => exact ⟨_, rfl, rfl⟩
        | some row => exact ⟨_, rfl, rfl⟩
      · exact ⟨_, rfl, rfl⟩

/-- What is stored after the observations of which the given one is the last writer. -/
structure Holds (last : Option (ReactionObservationBoundary × AggregateObservation)) : Prop where
  /-- Nothing came in yet. -/
  fresh : last = none → store.state = none
  /-- The counters and the boundary are those of the last writer. -/
  held : ∀ stamped, last = some stamped → store.reactions.Perm stamped.2.aggregates ∧
    store.state.map (·.boundary) = some stamped.1
  /-- The detail row belongs to the current generation. -/
  detail : last ≠ none → ∀ status, store.status = some status →
    status.aggregateGeneration = store.generation

variable {store} {last : Option (ReactionObservationBoundary × AggregateObservation)}
  {observation : AggregateObservation}

/-- With a state row there is a last writer, and the row has its boundary. -/
theorem Holds.of_state (h : store.Holds last) (hstate : store.state = some state) :
    ∃ stamped, last = some stamped ∧ state.boundary = stamped.1 ∧
      store.reactions.Perm stamped.2.aggregates := by
  cases hlast : last with
  | none => simp [h.fresh hlast] at hstate
  | some stamped =>
    obtain ⟨hreactions, hboundary⟩ := h.held stamped hlast
    rw [hstate] at hboundary
    exact ⟨stamped, rfl, Option.some_inj.mp hboundary, hreactions⟩

/-- A stale observation changes nothing that counts. -/
theorem Holds.stale (h : store.Holds last) (hstate : store.state = some state)
    (hle : boundary ≤ state.boundary) (nextSequence : ℕ) :
    Holds { store with nextSequence := nextSequence }
        (Foundations.newer Prod.fst last (boundary, observation)) ∧
      store.GenerationStep { store with nextSequence := nextSequence } := by
  obtain ⟨stamped, rfl, hboundary, hreactions⟩ := h.of_state hstate
  rw [hboundary] at hle
  rw [Foundations.newer]
  simp only [if_pos hle]
  constructor
  · exact ⟨h.fresh, h.held, h.detail⟩
  · refine ⟨le_rfl, fun hne => absurd (List.Perm.refl _) hne, fun hne => absurd rfl hne, ?_⟩
    intro status hstatus
    refine ⟨state, hstate, ?_⟩
    rw [h.detail (by simp) status hstatus, generation, hstate]
    rfl

/-- An observation that shows what is stored moves the boundary on and nothing else. -/
theorem Holds.identical (h : store.Holds last) (hstate : store.state = some state)
    (hlt : state.boundary < boundary) (hsame : store.reactions.Perm observation.aggregates)
    (nextSequence : ℕ) :
    Holds (updateIdenticalObservation { store with nextSequence := nextSequence }
        state.generation boundary observation.aggregates)
        (Foundations.newer Prod.fst last (boundary, observation)) ∧
      store.GenerationStep (updateIdenticalObservation
        { store with nextSequence := nextSequence } state.generation boundary
        observation.aggregates) := by
  obtain ⟨stamped, rfl, hboundary, -⟩ := h.of_state hstate
  rw [hboundary] at hlt
  rw [Foundations.newer]
  simp only [if_neg (not_le.mpr hlt)]
  generalize hafter : updateIdenticalObservation { store with nextSequence := nextSequence }
    state.generation boundary observation.aggregates = after
  have hfields : after.reactions = store.reactions ∧
      after.state = some { state with boundary := boundary } ∧
      ∀ status, after.status = some status → status.aggregateGeneration = state.generation := by
    subst hafter
    rw [updateIdenticalObservation, finishIdenticalDetail]
    split
    · refine ⟨rfl, by rw [markEmptyDetailTerminal, hstate]; rfl, ?_⟩
      rintro status ⟨⟩
      rfl
    · refine ⟨rfl, by simp only [hstate, Option.map_some], fun status hstatus => ?_⟩
      rw [h.detail (by simp) status hstatus, generation, hstate]
      rfl
  obtain ⟨hreactions, hnew, hstatus⟩ := hfields
  have hgeneration : after.generation = store.generation := by
    rw [generation, generation, hnew, hstate]
    rfl
  constructor
  · refine ⟨by simp, ?_, fun _ status hrow => ?_⟩
    · rintro _ ⟨⟩
      exact ⟨hreactions ▸ hsame, by rw [hnew]; rfl⟩
    · rw [hstatus status hrow, generation, hnew]
      rfl
  · refine ⟨hgeneration.ge, fun hne => absurd ?_ hne, fun hne => absurd ?_ hne, ?_⟩
    · rw [hreactions]
    · rw [hnew, hstate]
      rfl
    · exact fun status hrow => ⟨_, hnew, hstatus status hrow⟩

/-- A replacement opens the next generation. -/
theorem Holds.replaced (h : store.Holds last)
    (hlt : ∀ state, store.state = some state → state.boundary < boundary)
    (hemojis : (observation.aggregates.map (·.emoji)).Nodup) (nextSequence : ℕ)
    (visibility : Option Bool) :
    Holds (replacedBy { store with nextSequence := nextSequence } observation.aggregates
        (store.generation + 1) boundary visibility)
        (Foundations.newer Prod.fst last (boundary, observation)) ∧
      store.GenerationStep (replacedBy { store with nextSequence := nextSequence }
        observation.aggregates (store.generation + 1) boundary visibility) := by
  have hlast : Foundations.newer Prod.fst last (boundary, observation) =
      some (boundary, observation) := by
    cases hlast : last with
    | none => rfl
    | some stamped =>
      obtain ⟨state, hstate, hboundary⟩ :=
        Option.map_eq_some_iff.mp (h.held stamped hlast).2
      have hgt := hlt state hstate
      rw [hboundary] at hgt
      rw [Foundations.newer]
      exact if_neg (not_le.mpr hgt)
  obtain ⟨hreactions, hnew, status, hstatus, hdetail⟩ :=
    replacedBy_spec { store with nextSequence := nextSequence } observation.aggregates
      (store.generation + 1) boundary visibility
  rw [foldl_insertReaction (by simpa using hemojis), List.nil_append] at hreactions
  rw [hlast]
  generalize replacedBy { store with nextSequence := nextSequence } observation.aggregates
    (store.generation + 1) boundary visibility = after at *
  have hgeneration : after.generation = store.generation + 1 := by
    rw [generation, hnew]
    rfl
  constructor
  · refine ⟨by simp, ?_, fun _ row hrow => ?_⟩
    · rintro _ ⟨⟩
      exact ⟨by rw [hreactions], by rw [hnew]; rfl⟩
    · rw [hstatus] at hrow
      rw [← Option.some_inj.mp hrow, hdetail, hgeneration]
  · have hgrows : store.generation < after.generation := hgeneration ▸ Nat.lt_succ_self _
    refine ⟨hgrows.le, fun _ => hgrows, fun _ => hgrows, fun row hrow => ?_⟩
    rw [hstatus] at hrow
    exact ⟨_, hnew, by rw [← Option.some_inj.mp hrow, hdetail]⟩

/-- One observation moves the last writer on, and the generation with it. -/
theorem Holds.step (h : store.Holds last)
    (hemojis : (observation.aggregates.map (·.emoji)).Nodup) :
    (store.applyAggregateObservation observation).2.Holds
        (Foundations.newer Prod.fst last (store.boundaryOf observation, observation)) ∧
      store.GenerationStep (store.applyAggregateObservation observation).2 := by
  obtain ⟨nextSequence, ⟨state, hstate, hle, heq⟩ | ⟨state, hstate, hlt, hsame, heq⟩ | ⟨hlt, heq⟩⟩ :=
    store.applyAggregateObservation_cases observation
  · rw [heq]
    exact h.stale hstate hle nextSequence
  · rw [heq]
    exact h.identical hstate hlt hsame nextSequence
  · rw [heq]
    exact h.replaced hlt hemojis nextSequence _

/-! ## A run of observations -/

/-- After any observations, what is stored is what the last writer of them showed. -/
theorem holds_applyEach (hstate : store.state = none) {order : List AggregateObservation}
    (hemojis : ∀ observation ∈ order, (observation.aggregates.map (·.emoji)).Nodup) :
    (store.applyEach order).Holds (Foundations.newest Prod.fst (store.bounded order)) := by
  induction order using List.reverseRecOn with
  | nil => exact ⟨fun _ => hstate, by simp [bounded, Foundations.newest], by
      simp [bounded, Foundations.newest]⟩
  | append_singleton order observation ih =>
    have hbefore := ih fun other hmem => hemojis other (List.mem_append_left _ hmem)
    rw [applyEach_append, bounded_append, Foundations.newest_append]
    exact (hbefore.step (hemojis observation (by simp))).1

/-- Aggregates are last-writer-wins.  From a message without an aggregate, in every order of the
observations the counters and the boundary are in the end those of the observation with the
greatest boundary; every step keeps the generation or moves it up, up whenever the counters or the
visibility change, and leaves a detail row of the current generation.  Observations that bring
their boundaries end the same in every other order. -/
theorem aggregates_converge (store : ReactionStore) (hstate : store.state = none)
    (order : List AggregateObservation)
    (hemojis : ∀ observation ∈ order, (observation.aggregates.map (·.emoji)).Nodup)
    (hdistinct : ((store.bounded order).map Prod.fst).Nodup)
    {greatest : ReactionObservationBoundary × AggregateObservation}
    (hmem : greatest ∈ store.bounded order)
    (hgreatest : ∀ stamped ∈ store.bounded order, stamped.1 ≤ greatest.1) :
    (store.applyEach order).reactions.Perm greatest.2.aggregates ∧
      (store.applyEach order).state.map (·.boundary) = some greatest.1 ∧
      (∀ before observation after, order = before ++ observation :: after →
        (store.applyEach before).GenerationStep (store.applyEach (before ++ [observation]))) ∧
      ∀ other : List AggregateObservation, other.Perm order →
        (∀ observation ∈ order,
          observation.observedAt ≠ none ∧ observation.observationSequence ≠ none) →
        (store.applyEach other).reactions.Perm greatest.2.aggregates ∧
          (store.applyEach other).state.map (·.boundary) = some greatest.1 := by
  have hnewest := Foundations.newest_eq_some Prod.fst hdistinct hmem hgreatest
  have hheld := (holds_applyEach hstate hemojis).held greatest hnewest
  refine ⟨hheld.1, hheld.2, ?_, ?_⟩
  · rintro before observation after rfl
    rw [applyEach_append]
    refine ((holds_applyEach hstate fun other hother => ?_).step ?_).2
    · exact hemojis other (List.mem_append_left _ hother)
    · exact hemojis observation (by simp)
  · intro other hperm hexplicit
    have hbounded : (store.bounded other).Perm (store.bounded order) := by
      rw [store.bounded_explicit store hexplicit, store.bounded_explicit store
        fun observation hother => hexplicit observation (hperm.mem_iff.mp hother)]
      exact hperm.map _
    have hother := holds_applyEach hstate fun observation hmem =>
      hemojis observation (hperm.mem_iff.mp hmem)
    rw [Foundations.newest_perm Prod.fst hdistinct hbounded] at hother
    exact hother.held greatest hnewest

/-- An edit and an older page of history, which arrives later. -/
def editThenHistory : List AggregateObservation :=
  [{ aggregates := [⟨"👍", 2⟩, ⟨"🔥", 1⟩], source := .messageEdit, observedAt := some 20
     observationSequence := some 2 },
   { aggregates := [⟨"👍", 1⟩], source := .history, observedAt := some 10
     observationSequence := some 1 }]

/-- The counters of the edit stay, in either order. -/
theorem aggregates_converge_sample :
    (applyEach {} editThenHistory).reactions.Perm [⟨"👍", 2⟩, ⟨"🔥", 1⟩] ∧
      (applyEach {} editThenHistory.reverse).reactions.Perm [⟨"👍", 2⟩, ⟨"🔥", 1⟩] := by
  have h := @aggregates_converge {} rfl editThenHistory (by decide +kernel) (by decide +kernel)
    (⟨20, 50, 2, "message_edit"⟩, editThenHistory.head (by decide)) List.mem_cons_self
    (by decide +kernel)
  exact ⟨h.1, (h.2.2.2 editThenHistory.reverse (List.reverse_perm _) (by decide +kernel)).1⟩

end ReactionStore

end McpTelegram
