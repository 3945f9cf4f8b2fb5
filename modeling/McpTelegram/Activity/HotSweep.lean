import McpTelegram.Activity.Sweep
import McpTelegram.Foundations.Table

/-!
# The hot sweep of a peer

`activity_hot_sweep.py` for one peer of `activity_dialog_state`: a window goes from the newest own
message down to `hot_cursor`, a slice a page, and its offset and maximum are kept in the row until
the window is drained.  A step is one transaction of the writer, or one answer of Telegram; a slice
may end between any two of them.  The columns that only say when the next slice is due, and the
diagnostics, are left out.
-/

namespace McpTelegram

open Foundations

/-- The hot columns of a row. -/
structure HotRow where
  cursor : Option ℕ
  pageOffsetId : Option ℕ
  windowMaxId : Option ℕ
  windowHadNew : Bool
  lastSyncAt : Option ℤ
  emptyStreak : ℕ

/-- `_HotWindowState`, without the dialog. -/
structure HotWindowState where
  committedCursor : ℕ
  pageOffsetId : ℕ
  windowMaxId : ℕ
  hadNew : Bool
  lastSyncAt : Option ℤ
  emptyStreak : ℕ
  deriving DecidableEq

/-- What `_hot_revision` puts into the revision. -/
structure HotRevision where
  committedCursor : ℕ
  pageOffsetId : ℕ
  windowMaxId : ℕ
  hadNew : Bool
  emptyStreak : ℕ
  deriving DecidableEq

/-- `_hot_revision`. -/
def HotWindowState.revision (state : HotWindowState) : HotRevision :=
  ⟨state.committedCursor, state.pageOffsetId, state.windowMaxId, state.hadNew, state.emptyStreak⟩

/-- `_is_hot_page_drained`. -/
def SweepResult.drained (result : SweepResult) : Bool :=
  result.skipReason = .historyFloor ∨ result.fetchedIds.length < backfillBatchLimit

namespace HotRow

/-- The cursor, 0 for a peer that was never swept. -/
def committedCursor (row : HotRow) : ℕ := row.cursor.getD 0

/-- The comparison of `_hot_state_matches`. -/
def Matches (row : HotRow) (state : HotWindowState) : Prop :=
  row.committedCursor = state.committedCursor ∧ row.pageOffsetId = some state.pageOffsetId ∧
    row.windowMaxId = some state.windowMaxId ∧ row.windowHadNew = state.hadNew ∧
    row.lastSyncAt = state.lastSyncAt ∧ row.emptyStreak = state.emptyStreak

instance (row : HotRow) (state : HotWindowState) : Decidable (row.Matches state) :=
  inferInstanceAs (Decidable (_ ∧ _))

/-- The update of `_begin_hot_window`. -/
def opened (row : HotRow) : HotRow :=
  { row with
    pageOffsetId := some 0, windowMaxId := some row.committedCursor, windowHadNew := false }

/-- The state that `_begin_hot_window` answers. -/
def windowState (row : HotRow) : HotWindowState :=
  match row.pageOffsetId, row.windowMaxId with
  | some pageOffsetId, some windowMaxId =>
    ⟨row.committedCursor, pageOffsetId, windowMaxId, row.windowHadNew, row.lastSyncAt,
      row.emptyStreak⟩
  | _, _ => ⟨row.committedCursor, 0, row.committedCursor, false, row.lastSyncAt, row.emptyStreak⟩

/-- `_save_hot_window_progress`. -/
def progressed (row : HotRow) (pageOffsetId windowMaxId : ℕ) (hadNew : Bool) : HotRow :=
  { row with
    pageOffsetId := some pageOffsetId, windowMaxId := some windowMaxId, windowHadNew := hadNew }

/-- `_save_hot_completed_state`. -/
def completed (row : HotRow) (hotCursor : ℕ) (completionAt : ℤ) (genuinelyNew : Bool) : HotRow where
  cursor := some hotCursor
  pageOffsetId := none
  windowMaxId := none
  windowHadNew := false
  lastSyncAt := some completionAt
  emptyStreak :=
    if genuinelyNew = true ∧ row.committedCursor < hotCursor then 0 else row.emptyStreak + 1

end HotRow

/-- Where a slice is.  A slice that has read its state records how often the window had changed
then. -/
inductive HotSlice
  /-- `_validate_hot_page`. -/
  | validating (selected : HotRevision)
  /-- `_prepare_hot_page`. -/
  | preparing (selected : HotRevision)
  | sweeping (readAt : ℕ) (state : HotWindowState) (phase : SweepPhase)
  /-- Before `_persist_hot_page_result`. -/
  | persisting (readAt : ℕ) (state : HotWindowState) (result : SweepResult) (stopped : Bool)

/-- The state.  Besides the row, the access, the shutdown event, the own messages on Telegram and
the slices, it records how often the window has changed, the messages that were there ever since the
window was opened, the ids of the pages committed in it, and its first page. -/
structure HotWorld where
  row : HotRow
  lost : Bool
  shutdown : Bool
  own : List ℕ
  slices : Table ℕ HotSlice
  changes : ℕ
  kept : List ℕ
  committed : List ℕ
  first : List ℕ

/-- A step. -/
inductive HotAction
  | start (id : ℕ) (selected : HotRevision)
  | validate (id : ℕ)
  | prepare (id : ℕ)
  | sweep (id : ℕ) (event : SweepEvent)
  /-- The page is fetched, and the shutdown event read. -/
  | fetched (id : ℕ)
  | persist (id : ℕ) (clock : ℤ)
  /-- A slice ends with an exception. -/
  | drop (id : ℕ)
  | crash
  | shutdown
  | lose
  | restore
  | receive (message : ℕ)
  | delete (message : ℕ)

namespace HotWorld

variable (world : HotWorld)

/-- `_hot_state_matches`. -/
def stateMatches (state : HotWindowState) : Bool :=
  world.row.Matches state ∧ world.lost = false

/-- `_begin_hot_window` of a peer that is not lost: the row is opened if it has no window. -/
def beginWindow : HotWorld :=
  match world.row.pageOffsetId with
  | some _ => world
  | none =>
    { world with
      row := world.row.opened
      changes := world.changes + 1
      kept := world.own
      committed := []
      first := [] }

/-- The first page of a window is the one that was searched without an offset. -/
def firstPage (state : HotWindowState) (result : SweepResult) : List ℕ :=
  if state.pageOffsetId = 0 then result.fetchedIds else world.first

/-- `_persist_hot_page_result`. -/
def persistPage (state : HotWindowState) (result : SweepResult) (stopped : Bool) (clock : ℤ) :
    HotWorld :=
  let maxSeen := max state.windowMaxId (result.maxId.getD 0)
  let hadNew := state.hadNew || decide (0 < result.genuinelyNew)
  if world.stateMatches state = false then world
  else if result.floodWaitSeconds.isSome ∨ result.skipReason = .accessSkip then world
  else if result.drained ∧ stopped = false then
    { world with
      row := world.row.completed maxSeen clock hadNew
      changes := world.changes + 1
      first := world.firstPage state result }
  else
    match result.minId with
    | none => world
    | some minId =>
      { world with
        row := world.row.progressed minId maxSeen hadNew
        changes := world.changes + 1
        first := world.firstPage state result }

/-- The effects of a step of a sweep. -/
def move (id readAt : ℕ) (state : HotWindowState) (move : SweepMove) : HotWorld :=
  { world with
    slices := world.slices.put id (.sweeping readAt state move.phase)
    committed := world.committed ++ move.rows
    lost := world.lost || move.lost }

/-- One step, if it can be taken.  A search answers a page that is short only when no message is
left. -/
def step (world : HotWorld) : HotAction → Option HotWorld
  | .start id selected =>
    match world.slices id with
    | some _ => none
    | none =>
      if world.shutdown then none
      else some { world with slices := world.slices.put id (.validating selected) }
  | .validate id =>
    match world.slices id with
    | some (.validating selected) =>
      if world.lost then some { world with slices := world.slices.drop id }
      else
        let begun := world.beginWindow
        if world.row.windowState.revision = selected then
          some { begun with slices := world.slices.put id (.preparing selected) }
        else some { begun with slices := world.slices.drop id }
    | _ => none
  | .prepare id =>
    match world.slices id with
    | some (.preparing selected) =>
      if world.lost then some { world with slices := world.slices.drop id }
      else
        let begun := world.beginWindow
        if world.shutdown = false ∧ world.row.windowState.revision = selected then
          some { begun with
            slices := world.slices.put id
              (.sweeping begun.changes world.row.windowState .resolving) }
        else some { begun with slices := world.slices.drop id }
    | _ => none
  | .sweep id event =>
    match world.slices id with
    | some (.sweeping readAt state phase) =>
      if event.Honest world.own state.pageOffsetId state.committedCursor backfillBatchLimit then
        (sweepStep (world.stateMatches state) phase event).map (world.move id readAt state)
      else none
    | _ => none
  | .fetched id =>
    match world.slices id with
    | some (.sweeping readAt state (.returned result)) =>
      if result.accepted = false ∨ result.floodWaitSeconds.isSome then
        some { world with slices := world.slices.drop id }
      else
        some { world with
          slices := world.slices.put id (.persisting readAt state result world.shutdown) }
    | some (.sweeping _ _ .budgetExhausted) =>
      some { world with slices := world.slices.drop id }
    | _ => none
  | .persist id clock =>
    match world.slices id with
    | some (.persisting _ state result stopped) =>
      some { world.persistPage state result stopped clock with slices := world.slices.drop id }
    | _ => none
  | .drop id => some { world with slices := world.slices.drop id }
  | .crash => some { world with slices := fun _ => none, shutdown := false }
  | .shutdown => some { world with shutdown := true }
  | .lose => some { world with lost := true }
  | .restore => some { world with lost := false }
  | .receive message =>
    if 0 < message then some { world with own := message :: world.own } else none
  | .delete message =>
    some { world with
      own := world.own.filter (· ≠ message), kept := world.kept.filter (· ≠ message) }

/-- A peer that was never swept. -/
def initial : HotWorld where
  row := ⟨none, none, none, false, none, 0⟩
  lost := false
  shutdown := false
  own := []
  slices _ := none
  changes := 0
  kept := []
  committed := []
  first := []

end HotWorld

end McpTelegram
