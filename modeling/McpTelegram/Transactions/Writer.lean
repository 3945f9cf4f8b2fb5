import McpTelegram.Transactions.Units

/-!
# The SQLite writer

`SQLiteWriter` of `sqlite_writer.py`: `run` and `aclose` on the event loop, and the worker thread
with its connection.  A step is what one thread does without being seen by the other one: a
section under `_state_lock`, one call on the queue, one callback of the loop, or one call of
`_execute`, which settles the future of the callback at its end.  A cancelled `run` leaves the line
for a slot when its task resumes, and changes nothing once its callback is admitted.  The access
state that `_reconcile_peer_access` reads is left out, as are the diagnostics.
-/

namespace McpTelegram

open Foundations

variable {δ : Type*}

/-! ## One callback -/

/-- How a callback ends. -/
inductive CallbackEnd
  | returned
  | raised (contract : Bool)
  | awaitable
  | threadBound

/-- A callback: what it makes of the connection, and how it ends. -/
abbrev WriteCallback (δ : Type*) := Connection ℕ δ → Connection ℕ δ × CallbackEnd

/-- What raises on its own account while a callback is executed. -/
structure ExecuteFaults where
  checkBefore : Bool := false
  checkAfter : Bool := false
  rollback : Bool := false
  guardRead : Bool := false
  guardRestore : Bool := false

/-- `_check_idle`: the error, `true` for a `SQLiteWriterContractError`. -/
def checkIdle (fault : Bool) (conn : Connection ℕ δ) : Except Bool Unit :=
  if fault then .error false
  else
    match conn.inTransaction with
    | none => .error false
    | some true => .error true
    | some false => if conn.queryOnly then .ok () else .error true

/-- `_recover`: the connection, and whether the failure is fatal. -/
def recover (faults : ExecuteFaults) (conn : Connection ℕ δ) (contract : Bool) :
    Connection ℕ δ × Bool :=
  match conn.inTransaction with
  | none => (conn.close, true)
  | some busy =>
    match (if busy then orRaise faults.rollback conn.rollback else some conn) with
    | none => (conn.close, true)
    | some conn =>
      match orRaise (faults.guardRead || faults.guardRestore) (conn.setQueryOnly true) with
      | none => (conn.close, true)
      | some restored =>
        if contract ∨ busy ∨ conn.queryOnly = false then (restored.close, true)
        else (restored, false)

/-- What `_execute` does to the connection. -/
structure Execution (δ : Type*) where
  conn : Connection ℕ δ
  /-- The callback was called. -/
  called : Bool
  /-- The future has an exception. -/
  failed : Bool
  fatal : Bool

/-- `_execute` without `_retire`. -/
def execute (faults : ExecuteFaults) (callback : WriteCallback δ) (conn : Connection ℕ δ) :
    Execution δ :=
  let failure (called : Bool) (conn : Connection ℕ δ) (contract : Bool) : Execution δ :=
    let recovered := recover faults conn contract
    ⟨recovered.1, called, true, recovered.2⟩
  match checkIdle faults.checkBefore conn with
  | .error contract => failure false conn contract
  | .ok _ =>
    match callback conn with
    | (after, .raised contract) => failure true after contract
    | (after, .awaitable) => failure true after true
    | (after, .threadBound) => failure true after true
    | (after, .returned) =>
      match checkIdle faults.checkAfter after with
      | .error contract => failure true after contract
      | .ok _ => ⟨after, true, false, false⟩

/-! ## The writer -/

/-- A call of `run`. -/
structure WriteCall (δ : Type*) where
  id : ℕ
  callback : WriteCallback δ

/-- A call in the line for a slot of the semaphore, whose task has not resumed yet. -/
structure SlotWaiter (δ : Type*) where
  call : WriteCall δ
  /-- The future has a result. -/
  granted : Bool
  /-- The task was cancelled. -/
  cancelled : Bool

/-- `fut.done()`: cancelling the task cancels a future without a result. -/
def SlotWaiter.done (waiter : SlotWaiter δ) : Bool := waiter.granted || waiter.cancelled

/-- `not fut.cancelled()`. -/
def SlotWaiter.live (waiter : SlotWaiter δ) : Bool := waiter.granted || !waiter.cancelled

/-- Where the worker thread is. -/
inductive WorkerPhase (δ : Type*)
  /-- `open_runtime_sync_db`. -/
  | opening
  /-- `self._queue.get()`. -/
  | waiting
  /-- `_execute` of a call that was taken from the queue. -/
  | running (call : WriteCall δ)
  /-- The future of the call is settled, and its slot is held. -/
  | settled (fatal : Bool)
  /-- After `_retire`; the slot is held. -/
  | retired
  /-- The `except` branch of `_work`. -/
  | failing
  /-- `_finish_worker`. -/
  | finishing
  | finished

/-- The writer.  Besides its own state, it records which calls were made and which of them were
admitted, refused or cancelled in the line, which callbacks were executed on which connection, and
the futures that were settled, `true` for an exception. -/
structure WriterWorld (δ : Type*) where
  free : ℕ
  waiters : List (SlotWaiter δ)
  /-- `call_soon_threadsafe(self._slots.release)` that the loop has not called yet. -/
  releases : ℕ
  /-- The queue; `none` is `_STOP`. -/
  queue : List (Option (WriteCall δ))
  closed : Bool
  /-- `_fatal_error` is set. -/
  fatal : Bool
  failureFuture : Bool
  closedFuture : Bool
  worker : WorkerPhase δ
  conn : Connection ℕ δ
  called : List ℕ
  admitted : List ℕ
  refused : List ℕ
  left : List ℕ
  executed : List (ℕ × Connection ℕ δ)
  settled : List (ℕ × Bool)

/-- A step. -/
inductive WriterAction (δ : Type*)
  /-- A task calls `run`. -/
  | run (call : WriteCall δ)
  /-- A task whose future is done resumes. -/
  | resume (id : ℕ)
  /-- A task is cancelled. -/
  | cancel (id : ℕ)
  /-- The loop calls a scheduled release. -/
  | release
  /-- A task calls `aclose`. -/
  | aclose
  /-- The worker opens its connection, or fails to. -/
  | openConnection (fault : Bool)
  /-- The worker takes the next item; a stop comes with its checkpoint. -/
  | take (checkpointFault : Bool)
  | execute (faults : ExecuteFaults)
  | retire
  | scheduleRelease
  /-- The `except` branch of `_work`. -/
  | fail
  | finishWorker

/-- `_wake_next` of the semaphore, at most so many times: the waiters, the first of those that wait
granted, and the slots that are left. -/
def wakeNext : ℕ → List (SlotWaiter δ) → List (SlotWaiter δ) × ℕ
  | slots, [] => ([], slots)
  | 0, waiters => (waiters, 0)
  | slots + 1, waiter :: waiters =>
    if waiter.done then
      let woken := wakeNext (slots + 1) waiters
      (waiter :: woken.1, woken.2)
    else
      let woken := wakeNext slots waiters
      ({ waiter with granted := true } :: woken.1, woken.2)

namespace WriterWorld

variable (world : WriterWorld δ)

/-- `_slots.release()`, which wakes one waiter. -/
def releaseSlot : WriterWorld δ :=
  let woken := wakeNext 1 world.waiters
  { world with waiters := woken.1, free := world.free + woken.2 }

/-- The section of `run` under the lock, for a call that has a slot. -/
def submit (call : WriteCall δ) : WriterWorld δ :=
  if world.closed ∨ world.fatal then
    { world.releaseSlot with refused := world.refused ++ [call.id] }
  else
    { world with
      queue := world.queue ++ [some call]
      admitted := world.admitted ++ [call.id] }

/-- `run` until it is admitted, refused or waits. -/
def runCall (call : WriteCall δ) : WriterWorld δ :=
  if world.free = 0 ∨ ∃ waiter ∈ world.waiters, waiter.live = true then
    { world with waiters := world.waiters ++ [⟨call, false, false⟩] }
  else { world with free := world.free - 1 }.submit call

/-- A waiter leaves the line, and wakes as many others as there are slots. -/
def leaveLine (id : ℕ) : WriterWorld δ :=
  let woken := wakeNext world.free (world.waiters.eraseP (·.call.id = id))
  { world with waiters := woken.1, free := woken.2 }

/-- A task resumes in the line.  A cancelled one gives a slot that it was granted back. -/
def resume (id : ℕ) : Option (WriterWorld δ) :=
  match world.waiters.find? (·.call.id = id) with
  | none => none
  | some waiter =>
    if waiter.cancelled then
      let free := if waiter.granted then world.free + 1 else world.free
      some ({ world with free := free, left := world.left ++ [id] }.leaveLine id)
    else if waiter.granted then some ((world.leaveLine id).submit waiter.call)
    else none

/-- A task is cancelled in the line. -/
def cancel (id : ℕ) : WriterWorld δ :=
  { world with
    waiters := world.waiters.map fun waiter =>
      if waiter.call.id = id then { waiter with cancelled := true } else waiter }

/-- `_request_close`. -/
def requestClose : WriterWorld δ :=
  if world.closed then world
  else if world.fatal then { world with closed := true }
  else { world with closed := true, queue := world.queue ++ [none] }

/-- `_set_failure` and `_fail_pending`, under the lock. -/
def failPending : WriterWorld δ :=
  let pending := world.queue.filterMap id
  { world with
    fatal := true
    failureFuture := true
    queue := []
    settled := world.settled ++ pending.map fun call => (call.id, true)
    releases := world.releases + pending.length }

/-- The worker takes an item. -/
def take (checkpointFault : Bool) : Option (WriterWorld δ) :=
  match world.queue with
  | [] => none
  | none :: queue =>
    some { world with
      queue := queue, worker := if checkpointFault then .failing else .finishing }
  | some call :: queue => some { world with queue := queue, worker := .running call }

/-- `_execute` of the call that was taken. -/
def executeCall (faults : ExecuteFaults) (call : WriteCall δ) : WriterWorld δ :=
  let execution := execute faults call.callback world.conn
  { world with
    conn := execution.conn
    worker := .settled execution.fatal
    executed := if execution.called then world.executed ++ [(call.id, world.conn)]
      else world.executed
    settled := world.settled ++ [(call.id, execution.failed)] }

/-- One step, if it can be taken.  The call of `run` is a new one. -/
def step : WriterAction δ → Option (WriterWorld δ)
  | .run call =>
    if call.id ∈ world.admitted ∨ call.id ∈ world.refused ∨
        call.id ∈ world.waiters.map (·.call.id) then none
    else some ({ world with called := world.called ++ [call.id] }.runCall call)
  | .resume id => world.resume id
  | .cancel id => some (world.cancel id)
  | .release =>
    match world.releases with
    | 0 => none
    | releases + 1 => some { world with releases := releases }.releaseSlot
  | .aclose => some world.requestClose
  | .openConnection fault =>
    match world.worker with
    | .opening => some { world with worker := if fault then .failing else .waiting }
    | _ => none
  | .take checkpointFault =>
    match world.worker with
    | .waiting => world.take checkpointFault
    | _ => none
  | .execute faults =>
    match world.worker with
    | .running call => some (world.executeCall faults call)
    | _ => none
  | .retire =>
    match world.worker with
    | .settled true => some { world.failPending with worker := .retired }
    | _ => none
  | .scheduleRelease =>
    match world.worker with
    | .settled false => some { world with worker := .waiting, releases := world.releases + 1 }
    | .retired => some { world with worker := .finishing, releases := world.releases + 1 }
    | _ => none
  | .fail =>
    match world.worker with
    | .failing => some { world.failPending with worker := .finishing }
    | _ => none
  | .finishWorker =>
    match world.worker with
    | .finishing =>
      some { world with worker := .finished, closedFuture := true, conn := world.conn.close }
    | _ => none

/-- A writer with its slots, before its worker opens a connection on a database. -/
def initial (capacity : ℕ) (database : δ) : WriterWorld δ where
  free := capacity
  waiters := []
  releases := 0
  queue := []
  closed := false
  fatal := false
  failureFuture := false
  closedFuture := false
  worker := .opening
  conn := ⟨database, none, true, false⟩
  called := []
  admitted := []
  refused := []
  left := []
  executed := []
  settled := []

end WriterWorld

end McpTelegram
