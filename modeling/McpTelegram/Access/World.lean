import McpTelegram.Access.Tokens
import McpTelegram.Foundations.Run
import McpTelegram.Transactions.Writer

/-!
# Peer access beside the writer

The access state that is bound to the connection of `SQLiteWriter`, and the steps that change the
two.  Any thread captures tokens and invalidates the scope; a claim changes nothing.  The worker
thread executes one callback after the other: `revoke_peer` and the writes of
`_mark_access_lost_state` and `restore_access_after_revalidation`, every other write of a status,
and the calls on the connection that `sync_transactions.py` makes; then `_execute` checks or
recovers the connection, and `reconcile` reads the status of one dirty dialog after the other.  What
holds the lock of the access state is one step.
-/

namespace McpTelegram

open Foundations

namespace SyncedDialogs

variable (dialogs : SyncedDialogs) (dialogId : ℤ)

/-- The write of `_mark_access_lost_state`. -/
def markLost : SyncedDialogs := dialogs.insert dialogId .accessLost

/-- `restore_access_status`. -/
def restoreStatus (enabled : Bool) : SyncedDialogs :=
  dialogs.modify dialogId fun _ => if enabled then .syncing else .notSynced

/-- A write of the status of one dialog, or the removal of its row. -/
def setStatus (status : Option HistoryStatus) : SyncedDialogs :=
  match status with
  | none => dialogs.erase dialogId
  | some status => dialogs.insert dialogId status

end SyncedDialogs

/-! ## The state -/

/-- Where the worker thread is. -/
inductive WriterTurn
  /-- Between two operations; whether `reconcile` has read every status after the last one. -/
  | idle (reconciled : Bool)
  | callback
  /-- In `unbind`, which has removed the binding. -/
  | unbinding
  /-- Before `_reconcile_peer_access`. -/
  | settled
  /-- In the loop of `reconcile`, with the dialogs that remain, and whether a read has failed. -/
  | reconciling (remaining : List ℤ) (failed : Bool)
  /-- The same, with the status that was read for a dialog. -/
  | applying (dialogId : ℤ) (status : Option HistoryStatus) (remaining : List ℤ) (failed : Bool)
  | retired

/-- The access state, whether it is bound to the connection, and the connection. -/
structure AccessWorld where
  access : PeerAccess
  bound : Bool
  conn : Connection ℕ SyncedDialogs
  turn : WriterTurn

/-- The calls on the connection that write nothing of their own. -/
inductive ConnectionCall
  | start
  | savepoint (name : ℕ)
  | rollbackTo (name : ℕ)
  | release (name : ℕ)
  | commit
  | rollback
  | setQueryOnly (queryOnly : Bool)
  | close

/-- The connection after a call, unless it raises. -/
def ConnectionCall.apply (call : ConnectionCall) (conn : Connection ℕ SyncedDialogs) :
    Option (Connection ℕ SyncedDialogs) :=
  match call with
  | .start => conn.start
  | .savepoint name => conn.savepoint name
  | .rollbackTo name => conn.rollbackTo name
  | .release name => conn.release name
  | .commit => conn.commit
  | .rollback => conn.rollback
  | .setQueryOnly queryOnly => conn.setQueryOnly queryOnly
  | .close => some conn.close

/-- A step. -/
inductive AccessAction
  /-- Some thread calls `capture`. -/
  | capture (scope : Option TelegramAuthScope) (targets : List ℤ) (exempt : Option ℤ)
  /-- Some thread calls `invalidate_scope`. -/
  | invalidateScope
  /-- `_execute` checks the connection and calls the callback. -/
  | operate (faults : ExecuteFaults)
  | call (call : ConnectionCall)
  /-- `_mark_access_lost_state`, whose write may raise. -/
  | markAccessLost (dialogId : ℤ) (fault : Bool)
  /-- `restore_access_after_revalidation` behind the check of its witness; its write may raise. -/
  | restoreAccess (dialogId : ℤ) (enabled : Bool) (fault : Bool)
  /-- Any other write of a status. -/
  | writeStatus (dialogId : ℤ) (status : Option HistoryStatus)
  /-- The callback removes the binding. -/
  | unbind
  /-- It closes the access state. -/
  | closeAccess
  /-- The callback ends. -/
  | finish (faults : ExecuteFaults) (ending : CallbackEnd)
  /-- `reconcile` lists the dirty dialogs, in any order. -/
  | startReconcile (order : List ℤ)
  | readStatus (fault : Bool)
  | applyStatus
  | endReconcile
  /-- `reconcile` raises as a whole. -/
  | abandonReconcile

namespace AccessWorld

variable (world : AccessWorld)

/-- `revoke_peer`. -/
def revokePeer (dialogId : ℤ) : AccessWorld :=
  if world.bound then { world with access := world.access.revoke dialogId } else world

/-- A write that may raise on its own account. -/
def tryWrite (fault : Bool) (f : SyncedDialogs → SyncedDialogs) : AccessWorld :=
  { world with conn := (orRaise fault (world.conn.write f)).getD world.conn }

/-- The dialogs that `reconcile_peers` finds dirty. -/
def dirtyIds : Finset ℤ := if world.bound then world.access.dirty else ∅

/-- What `_recover` leaves. -/
def recovered (result : Connection ℕ SyncedDialogs × Bool) : AccessWorld :=
  { world with conn := result.1, turn := if result.2 then .retired else .settled }

/-- `_execute` after its callback. -/
def finishCallback (faults : ExecuteFaults) (ending : CallbackEnd) : AccessWorld :=
  match ending with
  | .raised contract => world.recovered (recover faults world.conn contract)
  | .awaitable => world.recovered (recover faults world.conn true)
  | .threadBound => world.recovered (recover faults world.conn true)
  | .returned =>
    match checkIdle faults.checkAfter world.conn with
    | .error contract => world.recovered (recover faults world.conn contract)
    | .ok _ => { world with turn := .settled }

/-- What a callback does in one step. -/
def callbackStep : AccessAction → Option AccessWorld
  | .call call => (call.apply world.conn).map fun conn => { world with conn := conn }
  | .markAccessLost dialogId fault =>
    some ((world.revokePeer dialogId).tryWrite fault fun dialogs => dialogs.markLost dialogId)
  | .restoreAccess dialogId enabled fault =>
    let revoked := if world.conn.view.Lost dialogId then world.revokePeer dialogId else world
    some (revoked.tryWrite fault fun dialogs => dialogs.restoreStatus dialogId enabled)
  | .writeStatus dialogId status =>
    some (world.tryWrite false fun dialogs => dialogs.setStatus dialogId status)
  | .unbind => if world.bound then some { world with bound := false, turn := .unbinding } else none
  | .finish faults ending => some (world.finishCallback faults ending)
  | _ => none

/-- One step, if it can be taken. -/
def step : AccessAction → Option AccessWorld
  | .capture scope targets exempt =>
    match world.access.capture scope targets exempt with
    | none => some world
    | some (_, access) => some { world with access := access }
  | .invalidateScope => some { world with access := world.access.invalidateScope }
  | .operate faults =>
    match world.turn with
    | .idle _ =>
      match checkIdle faults.checkBefore world.conn with
      | .error contract => some (world.recovered (recover faults world.conn contract))
      | .ok _ => some { world with turn := .callback }
    | _ => none
  | .closeAccess =>
    match world.turn with
    | .unbinding => some { world with access := world.access.unbind, turn := .callback }
    | _ => none
  | .startReconcile order =>
    match world.turn with
    | .settled =>
      if order.Nodup ∧ order.toFinset = world.dirtyIds then
        some { world with turn := .reconciling order false }
      else none
    | _ => none
  | .readStatus fault =>
    match world.turn with
    | .reconciling (dialogId :: remaining) failed =>
      if fault then some { world with turn := .reconciling remaining true }
      else
        some { world with
          turn := .applying dialogId (world.conn.view.lookup dialogId) remaining failed }
    | _ => none
  | .applyStatus =>
    match world.turn with
    | .applying dialogId status remaining failed =>
      some { world with
        access := world.access.reconcileStatus dialogId status
        turn := .reconciling remaining failed }
    | _ => none
  | .endReconcile =>
    match world.turn with
    | .reconciling [] failed => some { world with turn := .idle !failed }
    | _ => none
  | .abandonReconcile =>
    match world.turn with
    | .settled | .reconciling _ _ | .applying _ _ _ _ => some { world with turn := .idle false }
    | _ => none
  | action =>
    match world.turn with
    | .callback => world.callbackStep action
    | _ => none

/-- The access state bound to a connection on a database, after the operation that bound it. -/
def initial (scope : TelegramAuthScope) (dialogs : SyncedDialogs) : AccessWorld where
  access := PeerAccess.bind { scope := scope } dialogs
  bound := true
  conn := ⟨dialogs, none, true, false⟩
  turn := .idle true

end AccessWorld

end McpTelegram
