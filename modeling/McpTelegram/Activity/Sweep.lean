import Mathlib.Tactic

/-!
# One search of own messages in a peer

`sweep_peer_once` of `activity_peer_sweep.py`: it resolves the peer, prepares the observation,
searches a page, and commits the rows of the page in a transaction that first asks its caller
whether the page is still accepted.  The caller and the search are parameters: a page is the list of
the ids that the search answered.  Identities, membership counts and the order of the observation
are left out.
-/

namespace McpTelegram

variable {accept : Bool} {lowest : ℕ}

/-- `SkipReason`. -/
inductive SkipReason
  | none
  | accessSkip
  | historyFloor
  | floodWait
  deriving DecidableEq

/-- `SweepResult`. -/
structure SweepResult where
  fetchedIds : List ℕ := []
  persisted : ℕ := 0
  minId : Option ℕ := none
  maxId : Option ℕ := none
  skipReason : SkipReason := .none
  floodWaitSeconds : Option ℤ := none
  genuinelyNew : ℕ := 0
  accepted : Bool := true
  deriving DecidableEq

/-- `SweepResult([], 0, None, None, completed=False, accepted=False)`. -/
def SweepResult.notAccepted : SweepResult := { accepted := false }

/-- `_access_skip_result`. -/
def SweepResult.accessSkip : SweepResult := { skipReason := .accessSkip }

/-- `_flood_wait_result`. -/
def SweepResult.floodWait (seconds : ℤ) : SweepResult :=
  { skipReason := .floodWait, floodWaitSeconds := some seconds }

/-- `_sweep_page_result`. -/
def sweepPageResult (batch : List ℕ) (extracted genuinelyNew : ℕ) : SweepResult :=
  if batch = [] then { skipReason := .historyFloor }
  else
    { fetchedIds := batch
      persisted := extracted
      minId := batch.min?
      maxId := batch.max?
      genuinelyNew := genuinelyNew }

/-- What the resolution of the peer comes to. -/
inductive ResolveOutcome
  /-- `capture_image_scope` answers nothing. -/
  | scopeMissing
  | resolved
  /-- `None`, or an error that is taken for a lost session. -/
  | skipped
  | budgetExhausted

/-- What the search comes to. -/
inductive SearchOutcome
  | page (ids : List ℕ)
  | throttled (seconds : ℤ)
  /-- A timeout, or an error without a meaning of its own. -/
  | skipped
  | accessLost
  | budgetExhausted

/-- What goes wrong on its own account while the page is persisted. -/
inductive PersistFault
  | none
  | scopeChanged
  | extraction
  | failure

/-- Where a call of `sweep_peer_once` is. -/
inductive SweepPhase
  | resolving
  | preparing
  | searching
  /-- `_observe_search_access_loss`. -/
  | losing
  | persisting (batch : List ℕ)
  | returned (result : SweepResult)
  /-- `RpcAttemptBudgetExhaustedError`. -/
  | budgetExhausted

/-- What happens next in a call. -/
inductive SweepEvent
  | resolve (outcome : ResolveOutcome)
  | prepare
  | search (outcome : SearchOutcome)
  | recordLoss
  | persist (fault : PersistFault) (extracted genuinelyNew : ℕ)

/-- What a step of a call does: its next phase, the page whose rows it commits, and whether it
records that the access is lost. -/
structure SweepMove where
  phase : SweepPhase
  rows : List ℕ := []
  lost : Bool := false

/-- One step of a call, with the answer of `accept_page` in the transaction of the step. -/
def sweepStep (accept : Bool) : SweepPhase → SweepEvent → Option SweepMove
  | .resolving, .resolve .scopeMissing => some { phase := .returned .notAccepted }
  | .resolving, .resolve .resolved => some { phase := .preparing }
  | .resolving, .resolve .skipped => some { phase := .returned .accessSkip }
  | .resolving, .resolve .budgetExhausted => some { phase := .budgetExhausted }
  | .preparing, .prepare =>
    some { phase := if accept then .searching else .returned .notAccepted }
  | .searching, .search (.page ids) => some { phase := .persisting ids }
  | .searching, .search (.throttled seconds) => some { phase := .returned (.floodWait seconds) }
  | .searching, .search .skipped => some { phase := .returned .accessSkip }
  | .searching, .search .accessLost => some { phase := .losing }
  | .searching, .search .budgetExhausted => some { phase := .budgetExhausted }
  | .losing, .recordLoss => some { phase := .returned .accessSkip, lost := accept }
  | .persisting batch, .persist fault extracted genuinelyNew =>
    match fault with
    | .scopeChanged => some { phase := .returned .notAccepted }
    | .failure => some { phase := .returned .accessSkip }
    | .extraction => some { phase := .returned (if accept then .accessSkip else .notAccepted) }
    | .none =>
      if accept then
        some { phase := .returned (sweepPageResult batch extracted genuinelyNew), rows := batch }
      else some { phase := .returned .notAccepted }
  | _, _ => none

/-- The phases without a page: a sweep that goes on to its search, or one that ends without it. -/
inductive SweepPhase.Pageless : SweepPhase → Prop
  | preparing : Pageless .preparing
  | searching : Pageless .searching
  | losing : Pageless .losing
  | budgetExhausted : Pageless .budgetExhausted
  | notAccepted : Pageless (.returned .notAccepted)
  | accessSkip : Pageless (.returned .accessSkip)
  | floodWait (seconds : ℤ) : Pageless (.returned (.floodWait seconds))

/-- What a step of a sweep may do: a page is searched, or its rows are committed with the answer of
`accept_page`, or there is no page. -/
inductive SweepMoves (accept : Bool) : SweepPhase → SweepEvent → SweepMove → Prop
  | searched (ids : List ℕ) :
      SweepMoves accept .searching (.search (.page ids)) { phase := .persisting ids }
  | committed (haccept : accept = true) (batch : List ℕ) (extracted genuinelyNew : ℕ) :
      SweepMoves accept (.persisting batch) (.persist .none extracted genuinelyNew)
        { phase := .returned (sweepPageResult batch extracted genuinelyNew), rows := batch }
  | pageless (before phase : SweepPhase) (event : SweepEvent) (lost : Bool)
      (hpageless : phase.Pageless) : SweepMoves accept before event { phase := phase, lost := lost }

variable {phase : SweepPhase} {event : SweepEvent} {move : SweepMove}

/-- A step of a sweep. -/
theorem sweepMoves_of_step (h : sweepStep accept phase event = some move) :
    SweepMoves accept phase event move := by
  have hpageless : ∀ {before after : SweepPhase} {event : SweepEvent} {lost : Bool},
      after.Pageless → SweepMoves accept before event { phase := after, lost := lost } :=
    fun hpageless => .pageless _ _ _ _ hpageless
  unfold sweepStep at h
  split at h
  · obtain rfl := Option.some.inj h
    exact hpageless .notAccepted
  · obtain rfl := Option.some.inj h
    exact hpageless .preparing
  · obtain rfl := Option.some.inj h
    exact hpageless .accessSkip
  · obtain rfl := Option.some.inj h
    exact hpageless .budgetExhausted
  · obtain rfl := Option.some.inj h
    cases accept with
    | true => exact hpageless .searching
    | false => exact hpageless .notAccepted
  · obtain rfl := Option.some.inj h
    exact .searched _
  · obtain rfl := Option.some.inj h
    exact hpageless (.floodWait _)
  · obtain rfl := Option.some.inj h
    exact hpageless .accessSkip
  · obtain rfl := Option.some.inj h
    exact hpageless .losing
  · obtain rfl := Option.some.inj h
    exact hpageless .budgetExhausted
  · obtain rfl := Option.some.inj h
    exact hpageless .accessSkip
  · split at h
    · obtain rfl := Option.some.inj h
      exact hpageless .notAccepted
    · obtain rfl := Option.some.inj h
      exact hpageless .accessSkip
    · obtain rfl := Option.some.inj h
      cases accept with
      | true => exact hpageless .accessSkip
      | false => exact hpageless .notAccepted
    · split_ifs at h with haccept
      · obtain rfl := Option.some.inj h
        exact .committed haccept _ _ _
      · obtain rfl := Option.some.inj h
        exact hpageless .notAccepted
  · cases h

/-- Rows are committed only with the answer of `accept_page`. -/
theorem accept_of_rows (h : sweepStep accept phase event = some move) (hrows : move.rows ≠ []) :
    accept = true := by
  cases sweepMoves_of_step h with
  | searched | pageless => exact absurd rfl hrows
  | committed haccept batch extracted genuinelyNew => exact haccept

/-- `_BACKFILL_BATCH_LIMIT`. -/
def backfillBatchLimit : ℕ := 100

/-- The ids that a search with an offset and a minimum is about. -/
def InRange (offset floor id : ℕ) : Prop := floor < id ∧ (offset = 0 ∨ id < offset)

instance (offset floor id : ℕ) : Decidable (InRange offset floor id) :=
  inferInstanceAs (Decidable (_ ∧ _))

/-- A page of a search: the newest of the own messages in its range, up to the limit, and all of
them when it has fewer than `short` messages. -/
structure SearchPage (own : List ℕ) (offset floor short : ℕ) (ids : List ℕ) : Prop where
  range : ∀ id ∈ ids, id ∈ own ∧ InRange offset floor id
  newest : ∀ id ∈ own, InRange offset floor id → id ∈ ids ∨ ∀ seen ∈ ids, id < seen
  limit : ids.length ≤ backfillBatchLimit
  all : ids.length < short → ∀ id ∈ own, InRange offset floor id → id ∈ ids

instance (own : List ℕ) (offset floor short : ℕ) (ids : List ℕ) :
    Decidable (SearchPage own offset floor short ids) :=
  decidable_of_iff ((∀ id ∈ ids, id ∈ own ∧ InRange offset floor id) ∧
    (∀ id ∈ own, InRange offset floor id → id ∈ ids ∨ ∀ seen ∈ ids, id < seen) ∧
    ids.length ≤ backfillBatchLimit ∧
    (ids.length < short → ∀ id ∈ own, InRange offset floor id → id ∈ ids))
    ⟨fun ⟨range, newest, limit, all⟩ => ⟨range, newest, limit, all⟩,
      fun ⟨range, newest, limit, all⟩ => ⟨range, newest, limit, all⟩⟩

/-- The answer of a search is a page of the own messages. -/
def SweepEvent.Honest (own : List ℕ) (offset floor short : ℕ) : SweepEvent → Prop
  | .search (.page ids) => SearchPage own offset floor short ids
  | _ => True

instance (own : List ℕ) (offset floor short : ℕ) :
    ∀ event : SweepEvent, Decidable (event.Honest own offset floor short)
  | .search (.page ids) => inferInstanceAs (Decidable (SearchPage own offset floor short ids))
  | .search (.throttled _) | .search .skipped | .search .accessLost | .search .budgetExhausted
  | .resolve _ | .prepare | .recordLoss | .persist _ _ _ => .isTrue trivial

/-! ## What a call keeps

A set of messages `kept` that were there all the time, and the messages `committed` so far.
-/

/-- Every kept message from an offset on is committed; offset 0 promises nothing. -/
def Above (kept committed : List ℕ) (offset : ℕ) : Prop :=
  ∀ id ∈ kept, offset ≠ 0 → offset ≤ id → id ∈ committed

/-- A page leaves no kept message out between its lowest id and the offset, and only kept messages
below it. -/
structure Leaves (kept : List ℕ) (offset floor short : ℕ) (ids : List ℕ) : Prop where
  range : ∀ id ∈ ids, InRange offset floor id
  newest : ∀ id ∈ kept, InRange offset floor id → id ∈ ids ∨ ∀ seen ∈ ids, id < seen
  all : ids.length < short → ∀ id ∈ kept, InRange offset floor id → id ∈ ids

section Keep

variable {own kept kept' committed committed' ids : List ℕ} {offset floor short : ℕ}

/-- A page of the own messages is one of the kept ones. -/
theorem SearchPage.leaves (h : SearchPage own offset floor short ids) (hkept : kept ⊆ own) :
    Leaves kept offset floor short ids where
  range id hmem := (h.range id hmem).2
  newest id hmem hrange := h.newest id (hkept hmem) hrange
  all hshort id hmem hrange := h.all hshort id (hkept hmem) hrange

/-- With fewer messages kept a page leaves no more out. -/
theorem Leaves.mono (h : Leaves kept offset floor short ids) (hkept : kept' ⊆ kept) :
    Leaves kept' offset floor short ids where
  range := h.range
  newest id hmem hrange := h.newest id (hkept hmem) hrange
  all hshort id hmem hrange := h.all hshort id (hkept hmem) hrange

theorem Above.mono (h : Above kept committed offset) (hkept : kept' ⊆ kept)
    (hcommitted : committed ⊆ committed') : Above kept' committed' offset :=
  fun id hmem hoffset hle => hcommitted (h id (hkept hmem) hoffset hle)

/-- The lowest id of a page whose rows are committed is the next offset: what lies above the floor
and from it on is committed. -/
theorem Leaves.above_min (h : Leaves kept offset floor short ids)
    (habove : ∀ id ∈ kept, floor < id → offset ≠ 0 → offset ≤ id → id ∈ committed)
    (hids : ids ⊆ committed) (hmin : ids.min? = some lowest) :
    ∀ id ∈ kept, floor < id → lowest ≤ id → id ∈ committed := by
  intro id hmem hfloor hle
  by_cases hrange : offset = 0 ∨ id < offset
  · rcases h.newest id hmem ⟨hfloor, hrange⟩ with hpage | hbelow
    · exact hids hpage
    · have hlowest := hbelow lowest (List.min?_mem hmin)
      omega
  · rw [not_or, Nat.not_lt] at hrange
    exact habove id hmem hfloor hrange.1 hrange.2

theorem Leaves.min_range (h : Leaves kept offset floor short ids) (hmin : ids.min? = some lowest) :
    InRange offset floor lowest :=
  h.range lowest (List.min?_mem hmin)

end Keep

end McpTelegram
