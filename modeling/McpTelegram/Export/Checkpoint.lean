import Mathlib.Tactic
import Mathlib.Data.List.AList
import McpTelegram.Foundations.Run

/-!
# The export checkpoint and the paginated loops that fill it

`chat_export_checkpoint.py` keeps the saved records and the resume cursors of an export in one
SQLite file, and `chat_export_cli.py` fills it with two paginated loops, `history_peer` and
`admin_log`.  The loops are one definition, `PageLoop`, at two sets of values.

A process that runs the export is a sequence of small steps between two commits to the file, so
that an interruption may come between any two of them.
-/

namespace McpTelegram

open Foundations

/-- The `kind` column of the records. -/
inductive RecordKind
  | message
  | admin
  deriving DecidableEq

/-- The primary key of the records. -/
structure RecordKey where
  kind : RecordKind
  peer : ℤ
  id : ℕ
  deriving DecidableEq

/-- The two loops of an export: `history_peer` for each peer, and `admin_log`. -/
inductive Track
  | history (peer : ℤ)
  | adminLog
  deriving DecidableEq

/-- The keys of the state table that the loops use: `history:⟨peer⟩` and `admin` for the cursor,
the same with `:done` for the end. -/
inductive StateKey
  | cursor (track : Track)
  | done (track : Track)
  deriving DecidableEq

/-- The JSON values of these keys. -/
inductive StateValue
  | identifier (id : ℕ)
  | flag (value : Bool)
  deriving DecidableEq

/-- `Checkpoint`: the two tables, each with a primary key. -/
structure Checkpoint where
  state : AList fun _ : StateKey => StateValue
  records : AList fun _ : RecordKey => String

namespace Checkpoint

/-- `save`: one transaction that replaces the record and its cursor. -/
def save (c : Checkpoint) (key : RecordKey) (payload : String) (cursorKey : StateKey) :
    Checkpoint where
  state := c.state.insert cursorKey (.identifier key.id)
  records := c.records.insert key payload

/-- `mark`. -/
def mark (c : Checkpoint) (key : StateKey) (value : StateValue) : Checkpoint :=
  { c with state := c.state.insert key value }

/-- `state(key) or 0`. -/
def cursor (c : Checkpoint) (track : Track) : ℕ :=
  match c.state.lookup (.cursor track) with
  | some (.identifier id) => id
  | _ => 0

/-- Whether `state(key + ":done")` is true. -/
def isDone (c : Checkpoint) (track : Track) : Bool :=
  match c.state.lookup (.done track) with
  | some (.flag value) => value
  | some (.identifier id) => id ≠ 0
  | none => false

end Checkpoint

/-- What a page of the daemon carries for the loops: the identifiers of its items, the `done` flag,
`next_before_id` when present, and whether its status is `unavailable` (read by `admin_log` only).
-/
structure Page where
  items : List ℕ
  done : Bool
  nextBeforeId : Option ℕ
  unavailable : Bool := false
  deriving DecidableEq

/-- `_ordered_id`. -/
def orderedId (identifier before : ℕ) (upper : Option ℕ) : Except String ℕ :=
  if identifier = 0 ∨ (before ≠ 0 ∧ identifier ≥ before) then
    .error "Export pagination out of order"
  else if upper.any (identifier > ·) then .error "History pagination out of frozen boundary"
  else .ok identifier

/-- `_advance`. -/
def advance (page : Page) (incoming last : ℕ) (upper : Option ℕ) : Except String ℕ :=
  match page.nextBeforeId with
  | none => .error "Malformed export response: expected nonnegative integer"
  | some nextBefore =>
    if nextBefore = 0 ∨ (incoming ≠ 0 ∧ nextBefore ≥ incoming) then
      .error "Export pagination stalled"
    else if last ≠ 0 ∧ nextBefore > last then
      .error "Export pagination skipped delivered messages"
    else if upper.any (nextBefore > ·) then .error "Export pagination out of frozen boundary"
    else .ok nextBefore

/-- The values in which the two paginated loops differ. -/
structure PageLoop where
  kind : RecordKind
  peer : ℤ
  upper : Option ℕ
  minimum : ℕ
  escaped : String
  readsStatus : Bool

/-- What an export has fixed before its loops start, all of it saved in the checkpoint: the group,
`upper_id` of each peer, and the boundaries of the incremental base. -/
structure ExportPlan where
  dialogId : ℤ
  upperId : ℤ → ℕ
  boundary : ℤ → ℕ
  adminMax : ℕ

namespace ExportPlan

/-- `history_peer`. -/
def historyPeer (plan : ExportPlan) (peer : ℤ) : PageLoop where
  kind := .message
  peer := peer
  upper := some (plan.upperId peer)
  minimum := plan.boundary peer
  escaped := "History escaped incremental boundary"
  readsStatus := false

/-- `admin_log`. -/
def adminLog (plan : ExportPlan) : PageLoop where
  kind := .admin
  peer := plan.dialogId
  upper := none
  minimum := plan.adminMax
  escaped := "Admin log escaped incremental boundary"
  readsStatus := true

/-- The loop of a track. -/
def loop (plan : ExportPlan) : Track → PageLoop
  | .history peer => plan.historyPeer peer
  | .adminLog => plan.adminLog

end ExportPlan

namespace PageLoop

/-- The record key of an item. -/
def key (l : PageLoop) (id : ℕ) : RecordKey := ⟨l.kind, l.peer, id⟩

/-- The items the loop goes through: none of an unavailable admin log. -/
def itemsOf (l : PageLoop) (page : Page) : List ℕ :=
  if l.readsStatus && page.unavailable then [] else page.items

/-- Whether the page ends the loop. -/
def ends (l : PageLoop) (page : Page) : Bool := (l.readsStatus && page.unavailable) || page.done

/-- The checks on one item: the new value of `last`. -/
def accept (l : PageLoop) (identifier last : ℕ) : Except String ℕ :=
  match orderedId identifier last l.upper with
  | .error message => .error message
  | .ok last => if last ≤ l.minimum then .error l.escaped else .ok last

end PageLoop

/-- Where a process is: outside the loops, before a request, or among the items of a page, with the
items still to come. -/
inductive Fetch
  | idle
  | requesting (track : Track) (before : ℕ)
  | delivering (track : Track) (page : Page) (before last : ℕ) (rest : List ℕ)
  deriving DecidableEq

/-- The file and the process. -/
structure ExportWorld where
  checkpoint : Checkpoint
  fetch : Fetch

/-- The events of an export.  `item` carries the enriched payload of the next item; an enrichment
that fails is an `interrupt`, as is a crash, a signal or a malformed response. -/
inductive ExportEvent
  | enter (track : Track)
  | page (page : Page)
  | item (payload : String)
  | finish
  | interrupt

namespace ExportWorld

/-- One event.  A failed check raises: the process ends and the file stays. -/
def step (plan : ExportPlan) (w : ExportWorld) : ExportEvent → Option ExportWorld
  | .enter track =>
    match w.fetch with
    | .idle =>
      if w.checkpoint.isDone track then some w
      else some { w with fetch := .requesting track (w.checkpoint.cursor track) }
    | _ => none
  | .page page =>
    match w.fetch with
    | .requesting track before =>
      some { w with
        fetch := .delivering track page before before ((plan.loop track).itemsOf page) }
    | _ => none
  | .item payload =>
    match w.fetch with
    | .delivering track page before last (identifier :: rest) =>
      match (plan.loop track).accept identifier last with
      | .error _ => some { w with fetch := .idle }
      | .ok last => some {
          checkpoint := w.checkpoint.save ((plan.loop track).key last) payload (.cursor track)
          fetch := .delivering track page before last rest }
    | _ => none
  | .finish =>
    match w.fetch with
    | .delivering track page before last [] =>
      if (plan.loop track).ends page then
        some { checkpoint := w.checkpoint.mark (.done track) (.flag true), fetch := .idle }
      else
        match advance page before last (plan.loop track).upper with
        | .error _ => some { w with fetch := .idle }
        | .ok before => some {
            checkpoint := w.checkpoint.mark (.cursor track) (.identifier before)
            fetch := .requesting track before }
    | _ => none
  | .interrupt => some { w with fetch := .idle }

end ExportWorld

end McpTelegram
