import McpTelegram.Foundations.Dictionary
import McpTelegram.Foundations.Run

/-!
# The scan for deleted direct messages

`DmDeletionReconciliationDemandAdapter` of `delta_sync.py` with the checkpoint of
`sync_read_model.py`.  A slice is a sequence of transactions around one request: it starts or reads
the scan, selects a page, claims it, verifies it at Telegram, and commits or takes back its claim.
Between any two of them the tables change in any way, and the process may die; the next process
first runs `prepare_dm_deletion_reconciliation`.
-/

namespace McpTelegram

open Foundations

/-! ## The tables -/

/-- The columns of `messages` that the scan reads. -/
structure DmMessageRow where
  sentAt : ℤ
  isDeleted : Bool := false
  deriving DecidableEq

/-- The tables that the scan reads. -/
structure DmTables where
  messages : Dictionary (ℤ × ℤ) DmMessageRow := ∅
  /-- `synced_dialogs.status`. -/
  syncStatus : Dictionary ℤ String := ∅
  /-- `full_history_enrollment.enabled`. -/
  enrolled : Dictionary ℤ Bool := ∅
  /-- `entities.type`. -/
  entityType : Dictionary ℤ String := ∅
  /-- `dialogs.hidden`. -/
  hidden : Dictionary ℤ ℤ := ∅
  /-- Telegram numbers messages from one. -/
  messages_pos : ∀ key, messages.lookup key ≠ none → 0 < key.2

namespace DmTables

/-- `_DM_GAP_SCAN_RPC_CHUNK`. -/
def chunk : ℕ := 100

/-- The conditions of `_SELECT_DM_GAP_DIALOGS_SQL`. -/
def eligible (tables : DmTables) (dialogId : ℤ) : Bool :=
  tables.syncStatus.lookup dialogId = some "synced" &&
    tables.enrolled.lookup dialogId = some true &&
    (tables.entityType.lookup dialogId = some "user" ||
      tables.entityType.lookup dialogId = some "bot") &&
    tables.hidden.lookup dialogId ≠ some 1

/-- `_dm_gap_scan_dialog_ids`. -/
def dialogIds (tables : DmTables) : List ℤ :=
  (tables.syncStatus.keys.filter tables.eligible).insertionSort (· ≤ ·)

/-- The conditions of `_dm_gap_scan_page_ids` without its limit. -/
def due (tables : DmTables) (dialogId scanStartedAt messageCursor messageId : ℤ) : Bool :=
  (tables.messages.lookup (dialogId, messageId)).any (fun row =>
    !row.isDeleted && row.sentAt < scanStartedAt) && messageCursor < messageId

/-- `_dm_gap_scan_page_ids`. -/
def pageIds (tables : DmTables) (dialogId scanStartedAt messageCursor : ℤ) : List ℤ :=
  ((((tables.messages.keys.filter fun key => key.1 = dialogId).map Prod.snd).filter
    (tables.due dialogId scanStartedAt messageCursor)).insertionSort (· ≤ ·)).take chunk

end DmTables

/-! ## The checkpoint -/

/-- `DmDeletionCheckpoint.status`. -/
inductive DmScanStatus where
  | running | idle | verifying | suspended
  deriving DecidableEq

/-- `DmDeletionCheckpoint`. -/
structure DmDeletionCheckpoint where
  status : DmScanStatus
  generation : ℕ
  scanStartedAt : ℤ
  dialogIdCursor : Option ℤ
  messageCursor : ℤ
  nextRunAt : ℤ
  /-- Whether the checkpoint carries the current policy version; a legacy one carries none. -/
  currentPolicy : Bool := true
  reason : Option String := none
  stateChangedAt : Option ℤ := none
  deriving DecidableEq

namespace DmDeletionCheckpoint

/-- `_DM_GAP_SCAN_PERIOD_S`. -/
def period : ℤ := 7 * 24 * 60 * 60

/-- `_validate_dm_deletion_checkpoint` as `encode_dm_deletion_checkpoint` calls it. -/
def valid (state : DmDeletionCheckpoint) : Bool :=
  0 < state.generation && 0 ≤ state.scanStartedAt && 0 ≤ state.messageCursor &&
    0 ≤ state.nextRunAt && state.dialogIdCursor.all (0 < ·) &&
    !(0 < state.messageCursor && state.dialogIdCursor.isNone) &&
    !(state.status = .idle && (state.dialogIdCursor.isSome || state.messageCursor ≠ 0)) &&
    !((state.status = .running || state.status = .verifying) && state.nextRunAt ≠ 0) &&
    !(state.status ≠ .suspended && state.reason.isSome) &&
    state.reason.all (fun reason =>
      reason ∈ ["legacy_generation_review", "interrupted", "account_throttle"]) &&
    !(state.status = .suspended && state.reason.isNone) &&
    state.stateChangedAt.any (0 ≤ ·)

/-- What `decode_dm_deletion_checkpoint` accepts: a legacy record is running or idle, and carries
neither a reason nor a change time. -/
def decodes (state : DmDeletionCheckpoint) : Bool :=
  if state.currentPolicy then state.valid
  else
    (state.status = .running || state.status = .idle) && state.stateChangedAt.isNone &&
      { state with stateChangedAt := some 0 }.valid

/-- `_dm_scan_transition`: another status at the same place. -/
def transition (state : DmDeletionCheckpoint) (status : DmScanStatus) (reason : Option String)
    (changedAt : ℤ) : DmDeletionCheckpoint :=
  { state with status, reason, currentPolicy := true, stateChangedAt := some changedAt }

/-- The state of `prepare_dm_deletion_reconciliation`. -/
def prepared (state : DmDeletionCheckpoint) (changedAt : ℤ) : DmDeletionCheckpoint :=
  if state.currentPolicy = false then
    if state.status = .running then
      state.transition .suspended (some "legacy_generation_review") changedAt
    else state.transition state.status none changedAt
  else if state.status = .verifying then
    state.transition .suspended (some "interrupted") changedAt
  else state

/-- The first state of a generation. -/
def first (generation : ℕ) (now : ℤ) : DmDeletionCheckpoint where
  status := .running
  generation := generation
  scanStartedAt := now
  dialogIdCursor := none
  messageCursor := 0
  nextRunAt := 0
  stateChangedAt := some now

/-- The running state at a position. -/
def moved (state : DmDeletionCheckpoint) (dialogId messageCursor now : ℤ) :
    DmDeletionCheckpoint where
  status := .running
  generation := state.generation
  scanStartedAt := state.scanStartedAt
  dialogIdCursor := some dialogId
  messageCursor := messageCursor
  nextRunAt := 0
  stateChangedAt := some now

/-- The state of `_complete_scan`. -/
def completed (state : DmDeletionCheckpoint) (now : ℤ) : DmDeletionCheckpoint where
  status := .idle
  generation := state.generation
  scanStartedAt := state.scanStartedAt
  dialogIdCursor := none
  messageCursor := 0
  nextRunAt := now + period
  stateChangedAt := some now

/-- `_next_dialog`. -/
def nextDialog (state : DmDeletionCheckpoint) (dialogIds : List ℤ) : Option ℤ :=
  if 0 < state.messageCursor ∧ state.dialogIdCursor.any (· ∈ dialogIds) then state.dialogIdCursor
  else dialogIds.find? fun candidate => state.dialogIdCursor.all (· < candidate)

end DmDeletionCheckpoint

/-! ## A slice -/

/-- What the verification of a page ends with.  A deferral comes with the number of attempts that
were dispatched. -/
inductive DmPageOutcome where
  | success
  | deferred (attempts : ℕ)
  | throttled
  | failed
  deriving DecidableEq

/-- Where a slice is between its transactions. -/
inductive DmSlice where
  /-- After `_start_scan`. -/
  | started (state : DmDeletionCheckpoint)
  /-- After `_select_page`. -/
  | selected (state : DmDeletionCheckpoint) (dialogId : ℤ) (page : List ℤ)
  /-- After `_claim_page`. -/
  | claimed (state : DmDeletionCheckpoint) (dialogId : ℤ) (page : List ℤ)
  /-- After a successful verification. -/
  | verified (state : DmDeletionCheckpoint) (dialogId : ℤ) (page : List ℤ)
  /-- After a deferral without a dispatch. -/
  | unsent (state : DmDeletionCheckpoint)
  /-- After a throttle. -/
  | throttled (state : DmDeletionCheckpoint)
  deriving DecidableEq

/-- A page given to the scanner. -/
structure DmDispatch where
  generation : ℕ
  dialogId : ℤ
  page : List ℤ
  /-- The attempt was proven to have made no dispatch. -/
  unsent : Bool
  deriving DecidableEq

/-- A verified page. -/
structure DmCommit where
  generation : ℕ
  dialogId : ℤ
  page : List ℤ
  deriving DecidableEq

/-- The stored checkpoint, the tables, the slice under way, and the record of what was dispatched
and committed. -/
structure DmScanWorld where
  tables : DmTables
  checkpoint : Option DmDeletionCheckpoint
  slice : Option DmSlice := none
  dispatches : List DmDispatch := []
  commits : List DmCommit := []

/-- One transaction, one request, or the end of a process. -/
inductive DmScanStep where
  /-- Any write of other components. -/
  | write (tables : DmTables)
  | start (now : ℤ)
  | select (now : ℤ)
  | claim (now : ℤ)
  | verify (outcome : DmPageOutcome)
  /-- The last transaction of the slice: the commit, or what its error handler stores. -/
  | settle (now : ℤ)
  /-- The slice dies, or the transaction that it is in fails. -/
  | abandon
  /-- The process dies, and the next one starts. -/
  | restart (now : ℤ)

namespace DmScanWorld

/-- `_start_scan`: the stored state afterwards, and the state to go on with. -/
def startScan (checkpoint : Option DmDeletionCheckpoint) (now : ℤ) :
    Option DmDeletionCheckpoint × Option DmDeletionCheckpoint :=
  let fresh (generation : ℕ) : Option DmDeletionCheckpoint × Option DmDeletionCheckpoint :=
    if (DmDeletionCheckpoint.first generation now).valid then
      (some (.first generation now), some (.first generation now))
    else (checkpoint, none)
  match checkpoint with
  | none => fresh 1
  | some state =>
    if state.status = .idle ∧ state.nextRunAt ≤ now then fresh (state.generation + 1)
    else if state.status = .running ∧ state.currentPolicy then (checkpoint, some state)
    else (checkpoint, none)

/-- `_write_transition`: the new state replaces the expected one, if it is stored and the new one is
valid. -/
def writeTransition (world : DmScanWorld) (expected state : DmDeletionCheckpoint) :
    Option DmScanWorld :=
  if world.checkpoint = some expected ∧ state.valid then some { world with checkpoint := some state }
  else none

/-- A transition, and the slice after it; the slice ends if the transition is refused. -/
def transitionOrEnd (world : DmScanWorld) (expected state : DmDeletionCheckpoint)
    (slice : Option DmSlice) : DmScanWorld :=
  match world.writeTransition expected state with
  | some world => { world with slice }
  | none => { world with slice := none }

/-- `_select_page` after `_start_scan`. -/
def selectPage (world : DmScanWorld) (state : DmDeletionCheckpoint) (now : ℤ) : DmScanWorld :=
  match state.nextDialog world.tables.dialogIds with
  | none => world.transitionOrEnd state (state.completed now) none
  | some dialogId =>
    let messageCursor := if state.dialogIdCursor = some dialogId then state.messageCursor else 0
    let page := world.tables.pageIds dialogId state.scanStartedAt messageCursor
    if page = [] then world.transitionOrEnd state (state.moved dialogId 0 now) none
    else { world with slice := some (.selected state dialogId page) }

/-- The slice after the verification of its page. -/
def afterVerify (state : DmDeletionCheckpoint) (dialogId : ℤ) (page : List ℤ) :
    DmPageOutcome → Option DmSlice
  | .success => some (.verified state dialogId page)
  | .deferred attempts => if attempts = 0 then some (.unsent state) else none
  | .throttled => some (.throttled state)
  | .failed => none

/-- The step relation, as a function. -/
def perform (world : DmScanWorld) : DmScanStep → Option DmScanWorld
  | .write tables => some { world with tables }
  | .start now =>
    match world.slice with
    | none =>
      let started := startScan world.checkpoint now
      some { world with checkpoint := started.1, slice := started.2.map .started }
    | some _ => none
  | .select now =>
    match world.slice with
    | some (.started state) => some (world.selectPage state now)
    | _ => none
  | .claim now =>
    match world.slice with
    | some (.selected state dialogId page) =>
      let claimed := state.transition .verifying none now
      some (world.transitionOrEnd state claimed (some (.claimed claimed dialogId page)))
    | _ => none
  | .verify outcome =>
    match world.slice with
    | some (.claimed state dialogId page) =>
      some
        { world with
          slice := afterVerify state dialogId page outcome
          dispatches :=
            world.dispatches ++
              [{ generation := state.generation, dialogId, page, unsent := outcome = .deferred 0 }] }
    | _ => none
  | .settle now =>
    match world.slice with
    | some (.verified state dialogId page) =>
      match world.writeTransition state (state.moved dialogId (page.getLastD 0) now) with
      | some world =>
        some
          { world with
            slice := none
            commits := world.commits ++ [{ generation := state.generation, dialogId, page }] }
      | none => some { world with slice := none }
    | some (.unsent state) =>
      some (world.transitionOrEnd state (state.transition .running none now) none)
    | some (.throttled state) =>
      some
        (world.transitionOrEnd state
          (state.transition .suspended (some "account_throttle") now) none)
    | _ => none
  | .abandon => some { world with slice := none }
  | .restart now =>
    some
      { world with
        slice := none
        checkpoint :=
          world.checkpoint.map fun state =>
            if (state.prepared now).valid then state.prepared now else state }

end DmScanWorld

end McpTelegram
