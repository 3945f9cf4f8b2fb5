import McpTelegram.History.Row

/-!
# Backfill and gap fill of one dialog at work

The world holds the tables, the pages that backfill workers have fetched and not yet stored, the
slices of the gap fill that are under way, and the record of the accepted backfill pages.  A pass of
the backfill begins with an accepted page that was requested without a cursor.  A step is one
transaction or one request.  Workers may hold any number of pages and slices at once, and a crash
takes all of them away.
-/

namespace McpTelegram

open Foundations

/-- Where a slice of the gap fill is. -/
inductive GapSlice where
  /-- Selected by the coordinator, with the completion generation of the revision. -/
  | selected (completionGeneration : Option ℕ)
  /-- The slice has read its cursor and its refresh generation. -/
  | started (completionGeneration : Option ℕ) (cursor : ℤ) (generation : ℕ)
  /-- The page came, with the messages that the dialog had at the request. -/
  | fetched (page : GapPage) (present : List ℤ)
  deriving DecidableEq

/-- The state of one dialog and of the workers on it. -/
structure HistoryWorld where
  tables : HistoryTables := {}
  backfill : List BackfillPage := []
  accepted : List BackfillPage := []
  slices : List GapSlice := []
  deriving DecidableEq

/-- One transaction, one request, or a crash. -/
inductive HistoryStep where
  | enable (now : ℤ)
  | disable
  | enrollDm (now : ℤ)
  | enrollOwnOnly
  | accessLost (refreshGeneration : Option ℕ)
  | restoreAccess (totalMessages : Option ℕ)
  | requestRefresh (now : ℤ)
  /-- A backfill worker requests a page with a cursor that it has read at some time. -/
  | fetchBackfill (before : ℤ) (messages : DialogMessages) (total : Option ℕ)
  /-- It stores its page; the scope may have changed before or after the writes. -/
  | storeBackfill (index : ℕ) (scopeCurrent : Bool) (now : ℤ)
  | storeAutomatic (index : ℕ) (scopeCurrent : Bool) (eligible : Bool) (maxMessages : ℕ) (now : ℤ)
  /-- The coordinator selects a slice of the gap fill, or the recovery of access runs one. -/
  | selectGap (recovery : Bool)
  | startGap (index : ℕ)
  | fetchGap (index : ℕ) (messages : DialogMessages) (length : ℕ) (exhausted : Bool)
  | commitGap (index : ℕ) (recoveryCurrent : Bool) (now : ℤ)
  /-- A slice ends with an error. -/
  | dropGap (index : ℕ)
  | crash

namespace HistoryWorld

/-- The pages since the last one without a cursor. -/
def lastPass (accepted : List BackfillPage) : List BackfillPage :=
  accepted.foldl (fun pass page => if page.before = 0 then [page] else pass ++ [page]) []

/-- A stored page leaves the hands of its worker; an accepted one is recorded.  A change of the scope
takes the transaction back. -/
def store (world : HistoryWorld) (index : ℕ) (page : BackfillPage) (scopeCurrent : Bool)
    (stored : HistoryTables × Bool) : HistoryWorld :=
  let rest := { world with backfill := world.backfill.eraseIdx index }
  if scopeCurrent then
    { rest with
      tables := stored.1
      accepted := if stored.2 then world.accepted ++ [page] else world.accepted }
  else rest

/-- The step function. -/
def perform (world : HistoryWorld) : HistoryStep → Option HistoryWorld
  | .enable now => some { world with tables := world.tables.enableHistory now }
  | .disable => some { world with tables := world.tables.disableHistory }
  | .enrollDm now => some { world with tables := world.tables.ensureAutomaticDmEnrollment now }
  | .enrollOwnOnly => some { world with tables := world.tables.enrollOwnOnly }
  | .accessLost refreshGeneration =>
    some { world with tables := world.tables.markAccessLost refreshGeneration }
  | .restoreAccess totalMessages => some { world with tables := world.tables.restoreAccess totalMessages }
  | .requestRefresh now =>
    some { world with tables := world.tables.updateRow fun row => row.requestDeltaRefresh now }
  | .fetchBackfill before messages total =>
    let page := messages.pageBefore before total
    -- a cursor that did not move backwards is an error of the page
    if 0 < before ∧ page.next.any (before ≤ ·) then some world
    else some { world with backfill := world.backfill ++ [page] }
  | .storeBackfill index scopeCurrent now =>
    world.backfill[index]?.map fun page =>
      world.store index page scopeCurrent <|
        match world.tables.storeBatchPage page now with
        | some stored => (stored, true)
        | none => (world.tables, false)
  | .storeAutomatic index scopeCurrent eligible maxMessages now =>
    world.backfill[index]?.bind fun page =>
      -- the automatic group asks for a first page only
      if page.before = 0 ∧ page.totalMessages.isSome then
        some <| world.store index page scopeCurrent <|
          world.tables.finalizeAutomaticGroupPage page eligible maxMessages now
      else none
  | .selectGap recovery =>
    let completionGeneration := if recovery then none else some world.tables.completionGeneration
    some { world with slices := world.slices ++ [.selected completionGeneration] }
  | .startGap index =>
    match world.slices[index]?, world.tables.row with
    | some (.selected completionGeneration), some row =>
      if world.tables.fullHistoryEnabled then
        some
          { world with
            slices := world.slices.set index
              (.started completionGeneration row.cursor row.deltaRefreshGeneration) }
      else some { world with slices := world.slices.eraseIdx index }
    | _, _ => none
  | .fetchGap index messages length exhausted =>
    match world.slices[index]? with
    | some (.started completionGeneration cursor generation) =>
      let fetched := messages.pageAfter cursor length exhausted
      some
        { world with
          slices := world.slices.set index
            (.fetched
              { cursor, generation, completionGeneration
                rows := fetched.1, complete := fetched.2 } messages.ids) }
    | _ => none
  | .commitGap index recoveryCurrent now =>
    match world.slices[index]? with
    | some (.fetched page _) =>
      let rest := { world with slices := world.slices.eraseIdx index }
      some <|
        match world.tables.commitDelta page recoveryCurrent now with
        | some tables => { rest with tables }
        | none => rest
    | _ => none
  | .dropGap index => some { world with slices := world.slices.eraseIdx index }
  | .crash => some { world with backfill := [], slices := [] }

end HistoryWorld

end McpTelegram
