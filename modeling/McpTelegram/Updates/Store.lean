import McpTelegram.Foundations.Dictionary
import McpTelegram.Foundations.LongestSuffix
import McpTelegram.Updates.Ring

/-!
# The raw update store

`telegram_update_store.py`: bounded SQLite retention for raw Telegram update diagnostics.  The store
is the table `raw_telegram_updates` together with the values that `daemon_state` holds under
`_PREFIX`; every function is one transaction, so a raised error leaves the store as it was.
-/

namespace McpTelegram

open Foundations

/-- `MAX_PAYLOAD_BYTES`. -/
def maxPayloadBytes : ℕ := 64 * 1024 * 1024

/-- `MAX_ROWS`. -/
def maxRows : ℕ := 65536

/-- What the table needs from JSON: SQLite's `json_valid`, and the rendering of the trace
identifiers of a record. -/
structure UpdateJson where
  valid : String → Bool
  render : List String → String

/-- A row of `raw_telegram_updates`. -/
structure UpdateRow where
  id : ℕ
  record : UpdateRecord
  deriving DecidableEq

/-- `(observed_at_ms, id)`, the order in which rows are evicted. -/
def UpdateRow.key (row : UpdateRow) : ℤ ×ₗ ℕ := toLex (row.record.observedAtMs, row.id)

/-- The values under `_PREFIX`.  A key without a row is `none`; the keys `snapshot.<key>` and
`total.<key>` are the entries of two maps. -/
structure UpdateState where
  generation : Option ℤ := none
  accountId : Option ℤ := none
  resetReason : Option String := none
  runtimeId : Option String := none
  runOpen : Option ℤ := none
  unknownTailRuns : Option ℕ := none
  dbEvictedCapacity : Option ℕ := none
  snapshot : Dictionary String ℤ := ∅
  total : Dictionary String ℤ := ∅
  pendingRecords : Option ℤ := none
  pendingBytes : Option ℤ := none
  lastFlushMs : Option ℤ := none

/-- The table, whose rows are listed by `id`, and the state.  `nextId` is the next value of the
`AUTOINCREMENT` key. -/
structure UpdateStore where
  rows : List UpdateRow := []
  nextId : ℕ := 1
  state : UpdateState := {}

/-- What a call of the store raises. -/
inductive UpdateStoreError where
  /-- `ValueError("invalid verified account")` -/
  | invalidAccount
  /-- `ValueError("batch belongs to a different runtime")` -/
  | differentRuntime
  /-- A `CHECK` of the table fails. -/
  | integrity
  /-- `assert cutoff is not None` fails. -/
  | assertion
  deriving DecidableEq

/-- The arguments of `write_update_batch`. -/
structure UpdateBatch where
  records : List UpdateRecord
  nowMs : ℤ
  counters : Dictionary String ℤ
  expectedGeneration : ℤ
  runtimeId : String

namespace UpdateState

/-- `int(_state(conn, "total." + key) or 0)`. -/
def totalOf (state : UpdateState) (key : String) : ℤ := (state.total.lookup key).getD 0

/-- `int(_state(conn, "snapshot." + key) or 0)`. -/
def snapshotOf (state : UpdateState) (key : String) : ℤ := (state.snapshot.lookup key).getD 0

/-- `_is_generation`. -/
def isGeneration (state : UpdateState) (expectedGeneration : ℤ) : Bool :=
  state.accountId.isSome && state.generation == some expectedGeneration

/-- `_add_evictions` for `unknown_tail_runs`. -/
def addUnknownTailRuns (state : UpdateState) (count : ℕ) : UpdateState :=
  if count = 0 then state
  else { state with unknownTailRuns := some (state.unknownTailRuns.getD 0 + count) }

/-- `_add_evictions` for `db_evicted_capacity`. -/
def addEvictedCapacity (state : UpdateState) (count : ℕ) : UpdateState :=
  if count = 0 then state
  else { state with dbEvictedCapacity := some (state.dbEvictedCapacity.getD 0 + count) }

/-- `_add_evictions` for `total.<key>`. -/
def addTotal (state : UpdateState) (key : String) (count : ℤ) : UpdateState :=
  if count = 0 then state
  else { state with total := state.total.insert key (state.totalOf key + count) }

/-- The part of `write_update_batch` that folds one counter into the state. -/
def setCounter (state : UpdateState) (key : String) (value : ℤ) : UpdateState :=
  if key = "pending_records" then { state with pendingRecords := some value }
  else if key = "pending_bytes" then { state with pendingBytes := some value }
  else
    let previous := state.snapshotOf key
    let state := state.addTotal key (max 0 (value - previous))
    { state with snapshot := state.snapshot.insert key (max previous value) }

/-- The loop over `counters.items()`. -/
def setCounters (state : UpdateState) (counters : Dictionary String ℤ) : UpdateState :=
  counters.entries.foldl (fun state entry => state.setCounter entry.1 entry.2) state

end UpdateState

/-- The payload bytes of a list of rows. -/
def rowBytes (rows : List UpdateRow) : ℕ := (rows.map fun row => row.record.payloadBytes).sum

/-- The rows meet both bounds. -/
def WithinCapacity (rows : List UpdateRow) : Prop :=
  rows.length ≤ maxRows ∧ rowBytes rows ≤ maxPayloadBytes

instance : DecidablePred WithinCapacity := fun _ => instDecidableAnd

/-- `ORDER BY observed_at_ms, id`. -/
def byTime (rows : List UpdateRow) : List UpdateRow :=
  rows.insertionSort fun a b => a.key ≤ b.key

/-- The loop of `_prune_capacity` that looks for the cutoff. -/
def pruneCutoff : List UpdateRow → ℤ → ℤ → Option (ℤ ×ₗ ℕ)
  | [], _, _ => none
  | row :: rows, count, size =>
    let count := count - 1
    let size := size - row.record.payloadBytes
    if count ≤ maxRows ∧ size ≤ maxPayloadBytes then some row.key else pruneCutoff rows count size

/-- The `CHECK` constraints of the table. -/
def UpdateJson.admissible (json : UpdateJson) (record : UpdateRecord) : Bool :=
  json.valid record.payloadJson &&
    decide (record.payloadBytes ≤ 4194304) &&
    decide (record.payloadBytes = record.payloadJson.utf8ByteSize) &&
    json.valid (json.render record.traceIds)

namespace UpdateStore

/-- `_clear`. -/
def clear (store : UpdateStore) (generation : ℤ) (reason : String) : UpdateStore :=
  { store with
    rows := []
    state := { generation := some generation, resetReason := some reason } }

/-- `bind_verified_account`: the generation, whether the account changed, and the store. -/
def bindVerifiedAccount (store : UpdateStore) (accountId : ℤ) :
    Except UpdateStoreError ((ℤ × Bool) × UpdateStore) :=
  if accountId ≤ 0 then .error .invalidAccount
  else
    let generation := store.state.generation.getD 0
    let changed := store.state.accountId.isSome && store.state.accountId != some accountId
    if changed then
      let store := store.clear (generation + 1) "account_changed"
      .ok ((generation + 1, true),
        { store with state := { store.state with accountId := some accountId } })
    else if generation = 0 then
      .ok ((1, false),
        { store with
          state := { store.state with generation := some 1, accountId := some accountId } })
    else
      .ok ((generation, false),
        { store with state := { store.state with accountId := some accountId } })

/-- `reset_updates`: the new generation and the store. -/
def resetUpdates (store : UpdateStore) (reason : String) : ℤ × UpdateStore :=
  let generation := store.state.generation.getD 0 + 1
  (generation, store.clear generation reason)

/-- `begin_update_run`. -/
def beginUpdateRun (store : UpdateStore) (runtimeId : String) (expectedGeneration : ℤ) :
    Bool × UpdateStore :=
  if !store.state.isGeneration expectedGeneration then (false, store)
  else if store.state.runtimeId = some runtimeId then (true, store)
  else
    let state :=
      if store.state.runtimeId.isSome && store.state.runOpen == some 1 then
        store.state.addUnknownTailRuns 1
      else store.state
    (true, { store with
      state := { state with snapshot := ∅, runtimeId := some runtimeId, runOpen := some 1 } })

/-- `end_update_run`. -/
def endUpdateRun (store : UpdateStore) (runtimeId : String) (expectedGeneration : ℤ) :
    Bool × UpdateStore :=
  if !store.state.isGeneration expectedGeneration || store.state.runtimeId != some runtimeId then
    (false, store)
  else (true, { store with state := { store.state with runOpen := some 0 } })

/-- One `INSERT … ON CONFLICT(runtime_id,sequence) DO NOTHING`. -/
def insertRecord (json : UpdateJson) (store : UpdateStore) (record : UpdateRecord) :
    Except UpdateStoreError UpdateStore :=
  if !json.admissible record then .error .integrity
  else if store.rows.any fun row =>
      row.record.runtimeId = record.runtimeId ∧ row.record.sequence = record.sequence then
    .ok store
  else
    .ok { store with
      rows := store.rows ++ [⟨store.nextId, record⟩]
      nextId := store.nextId + 1 }

/-- The `executemany` of `write_update_batch`. -/
def insertRecords (json : UpdateJson) (store : UpdateStore) (records : List UpdateRecord) :
    Except UpdateStoreError UpdateStore :=
  records.foldlM (insertRecord json) store

/-- `_prune_capacity`. -/
def pruneCapacity (store : UpdateStore) (insertedCount : ℕ) :
    Except UpdateStoreError UpdateStore :=
  if insertedCount = 0 then .ok store
  else if WithinCapacity store.rows then .ok store
  else
    match pruneCutoff (byTime store.rows) store.rows.length (rowBytes store.rows) with
    | none => .error .assertion
    | some cutoff =>
      let kept := store.rows.filter fun row => cutoff < row.key
      .ok { store with
        rows := kept
        state := store.state.addEvictedCapacity (store.rows.length - kept.length) }

/-- The three conditions under which `write_update_batch` goes on. -/
def accepts (store : UpdateStore) (batch : UpdateBatch) : Bool :=
  store.state.isGeneration batch.expectedGeneration &&
    store.state.runtimeId == some batch.runtimeId && store.state.runOpen == some 1

/-- `write_update_batch`. -/
def writeUpdateBatch (json : UpdateJson) (store : UpdateStore) (batch : UpdateBatch) :
    Except UpdateStoreError (Bool × UpdateStore) :=
  if !store.accepts batch then .ok (false, store)
  else if batch.records.any fun record => record.runtimeId ≠ batch.runtimeId then
    .error .differentRuntime
  else do
    let inserted ← store.insertRecords json batch.records
    let pruned ← inserted.pruneCapacity (inserted.rows.length - store.rows.length)
    .ok (true, { pruned with
      state := { pruned.state.setCounters batch.counters with lastFlushMs := some batch.nowMs } })

end UpdateStore

/-! ## Runs of the store -/

/-- A call of the store. -/
inductive UpdateStoreCall where
  | write (batch : UpdateBatch)
  | bind (accountId : ℤ)
  | reset (reason : String)
  | beginRun (runtimeId : String) (expectedGeneration : ℤ)
  | endRun (runtimeId : String) (expectedGeneration : ℤ)

/-- The counters that the committed batches of one run reported, the latest first. -/
abbrev ReportedRun := List (Dictionary String ℤ)

/-- The store with the history of its runs.  `runs` are the runs since the state was last cleared,
the current one first; `clearedRuns` are those whose counters a clear deleted. -/
structure UpdateStoreWorld where
  store : UpdateStore := {}
  runs : List ReportedRun := []
  clearedRuns : List ReportedRun := []

namespace UpdateStoreWorld

/-- The history after the state was cleared. -/
def forget (w : UpdateStoreWorld) (store : UpdateStore) : UpdateStoreWorld :=
  { store, runs := [], clearedRuns := w.runs ++ w.clearedRuns }

/-- The history after a committed batch. -/
def report (w : UpdateStoreWorld) (store : UpdateStore) (counters : Dictionary String ℤ) :
    UpdateStoreWorld :=
  match w.runs with
  | [] => { w with store, runs := [[counters]] }
  | run :: runs => { w with store, runs := (counters :: run) :: runs }

/-- One call.  A call that raises was rolled back. -/
def step (json : UpdateJson) (w : UpdateStoreWorld) : UpdateStoreCall → UpdateStoreWorld
  | .write batch =>
    match w.store.writeUpdateBatch json batch with
    | .ok (true, store) => w.report store batch.counters
    | .ok (false, store) => { w with store }
    | .error _ => w
  | .bind accountId =>
    match w.store.bindVerifiedAccount accountId with
    | .ok ((_, true), store) => w.forget store
    | .ok ((_, false), store) => { w with store }
    | .error _ => w
  | .reset reason => w.forget (w.store.resetUpdates reason).2
  | .beginRun runtimeId expectedGeneration =>
    let store := (w.store.beginUpdateRun runtimeId expectedGeneration).2
    if w.store.state.runtimeId = store.state.runtimeId then { w with store }
    else { w with store, runs := [] :: w.runs }
  | .endRun runtimeId expectedGeneration =>
    { w with store := (w.store.endUpdateRun runtimeId expectedGeneration).2 }

/-- The state that a sequence of calls reaches from the empty store. -/
def after (json : UpdateJson) (calls : List UpdateStoreCall) : UpdateStoreWorld :=
  calls.foldl (step json) {}

end UpdateStoreWorld

/-- The counters whose last value is stored as it is. -/
def IsGauge (key : String) : Prop := key = "pending_records" ∨ key = "pending_bytes"

/-- The largest value that a run reported for a counter, or 0 if it reported none above. -/
def largestReported (key : String) (run : ReportedRun) : ℤ :=
  (run.map fun counters => (counters.lookup key).getD 0).foldr max 0

end McpTelegram
