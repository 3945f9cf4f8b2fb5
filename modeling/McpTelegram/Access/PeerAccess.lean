import McpTelegram.Foundations.Dictionary
import McpTelegram.History.Row
import McpTelegram.Receipts.Tables

/-!
# Peer access

`ScopeCell` of `image_authorization.py` and `PeerAccess` of `peer_access.py`.  A cell shows a scope
or nothing and counts its changes; a token remembers the count and the scope of the cell that it was
captured from, and can be claimed while the cell still shows them.  `PeerAccess` has two cells for
every target, one of them for the probes that are exempt from a denial.  A cell is identified by its
family and its target, since none is ever removed.
-/

namespace McpTelegram

open Foundations

/-! ## Cells -/

/-- The identity of a cell. -/
structure CellKey where
  probe : Bool
  target : ℤ
  deriving DecidableEq

/-- `ScopeToken`. -/
structure ScopeToken where
  generation : ℕ
  scope : TelegramAuthScope
  owner : CellKey
  deriving DecidableEq

/-- `ScopeCell`. -/
structure ScopeCell where
  generation : ℕ := 0
  scope : Option TelegramAuthScope := none
  changes : Finset ℕ := ∅
  nextChange : ℕ := 0

namespace ScopeCell

variable (cell : ScopeCell)

/-- `capture` of the cell with a key. -/
def capture (key : CellKey) : Option ScopeToken :=
  match cell.scope with
  | none => none
  | some scope => if cell.changes.Nonempty then none else some ⟨cell.generation, scope, key⟩

/-- `claim`, on the owner of the token. -/
def claim (token : ScopeToken) : Bool :=
  cell.changes = ∅ ∧ token.generation = cell.generation ∧ some token.scope = cell.scope

/-- `publish`: whether no change is open. -/
def publish (scope : Option TelegramAuthScope) : Bool × ScopeCell :=
  if cell.changes.Nonempty then (false, cell)
  else if scope ≠ cell.scope then
    (true, { cell with generation := cell.generation + 1, scope := scope })
  else (true, cell)

end ScopeCell

/-! ## The access state -/

/-- The statuses of `synced_dialogs`. -/
abbrev SyncedDialogs := Dictionary ℤ HistoryStatus

namespace SyncedDialogs

/-- The dialog has the status `access_lost`. -/
def Lost (dialogs : SyncedDialogs) (dialogId : ℤ) : Prop :=
  dialogs.lookup dialogId = some .accessLost

instance (dialogs : SyncedDialogs) (dialogId : ℤ) : Decidable (dialogs.Lost dialogId) :=
  inferInstanceAs (Decidable (_ = _))

/-- The dialogs with the status `access_lost`. -/
def lostIds (dialogs : SyncedDialogs) : Finset ℤ :=
  (dialogs.keys.filter fun dialogId => dialogs.Lost dialogId).toFinset

end SyncedDialogs

/-- `PeerAccess`. -/
structure PeerAccess where
  scope : TelegramAuthScope
  cells : Dictionary ℤ ScopeCell := ∅
  probeCells : Dictionary ℤ ScopeCell := ∅
  denied : Finset ℤ := ∅
  dirty : Finset ℤ := ∅
  closed : Bool := false

namespace PeerAccess

variable (access : PeerAccess)

/-- What `bind` reads. -/
def bind (dialogs : SyncedDialogs) : PeerAccess := { access with denied := dialogs.lostIds }

/-- `publish(None)` on every cell. -/
def publishNone : PeerAccess :=
  { access with
    cells := access.cells.mapValues fun _ cell => (cell.publish none).2
    probeCells := access.probeCells.mapValues fun _ cell => (cell.publish none).2 }

/-- `unbind`, after the binding is gone. -/
def unbind : PeerAccess := { access.publishNone with closed := true }

/-- The cells of a family. -/
def family (probe : Bool) : Dictionary ℤ ScopeCell :=
  bif probe then access.probeCells else access.cells

/-- The cell with a key. -/
def cellOf (key : CellKey) : Option ScopeCell := (access.family key.probe).lookup key.target

/-- The cell with a key, in its family. -/
def setCell (key : CellKey) (cell : ScopeCell) : PeerAccess :=
  if key.probe then { access with probeCells := access.probeCells.insert key.target cell }
  else { access with cells := access.cells.insert key.target cell }

/-- A token of a target is allowed. -/
def Allowed (exempt : Option ℤ) (target : ℤ) : Prop :=
  target ∉ access.denied ∨ (some target = exempt ∧ target ∉ access.dirty)

instance (exempt : Option ℤ) (target : ℤ) : Decidable (access.Allowed exempt target) :=
  inferInstanceAs (Decidable (_ ∨ _))

/-- `_refresh_scope`, or the `PeerAccessRejectedError`. -/
def refreshScope (scope : Option TelegramAuthScope) : Option PeerAccess :=
  match scope with
  | none => none
  | some scope =>
    if access.closed ∨ scope.accountId ≠ access.scope.accountId then none
    else if scope ≠ access.scope then some { access.publishNone with scope := scope }
    else some access

/-- One turn of the loop of `capture`. -/
def captureTarget (exempt : Option ℤ) (target : ℤ) : Option ScopeToken × PeerAccess :=
  let key : CellKey := ⟨some target = exempt, target⟩
  let cell := ((access.cellOf key).getD {}).publish
    (if access.Allowed exempt target then some access.scope else none)
  (cell.2.capture key, access.setCell key cell.2)

/-- The loop of `capture`. -/
def captureTargets (exempt : Option ℤ) :
    PeerAccess → List ℤ → List (Option ScopeToken) × PeerAccess
  | access, [] => ([], access)
  | access, target :: targets =>
    let first := access.captureTarget exempt target
    let rest := captureTargets exempt first.2 targets
    (first.1 :: rest.1, rest.2)

/-- `capture`, or the `PeerAccessRejectedError`. -/
def capture (scope : Option TelegramAuthScope) (targets : List ℤ) (exempt : Option ℤ) :
    Option (List (Option ScopeToken) × PeerAccess) :=
  (access.refreshScope scope).map fun access => captureTargets exempt access targets

/-- `claim` of the cell that owns the token. -/
def claimToken (token : ScopeToken) : Bool :=
  match access.cellOf token.owner with
  | none => false
  | some cell => cell.claim token

/-- `claim`. -/
def claim (tokens : List (Option ScopeToken)) : Bool :=
  !access.closed && tokens.all fun token =>
    match token with
    | none => false
    | some token => token.scope = access.scope && access.claimToken token

/-- `revoke`. -/
def revoke (dialogId : ℤ) : PeerAccess :=
  { access with
    dirty := insert dialogId access.dirty
    denied := insert dialogId access.denied
    cells := access.cells.modify dialogId fun cell => (cell.publish none).2
    probeCells := access.probeCells.modify dialogId fun cell => (cell.publish none).2 }

/-- `invalidate_scope`. -/
def invalidateScope : PeerAccess := access.publishNone

/-- What `reconcile` does with the status that it read. -/
def reconcileStatus (dialogId : ℤ) (status : Option HistoryStatus) : PeerAccess :=
  { access with
    denied := if status = some .accessLost then insert dialogId access.denied
      else access.denied.erase dialogId
    dirty := access.dirty.erase dialogId }

end PeerAccess

end McpTelegram
