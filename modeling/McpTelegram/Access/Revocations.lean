import McpTelegram.Access.World
import McpTelegram.Transactions.WriterSteps

/-!
# Revocations are linearizable

In every reachable state a dialog that is not dirty is denied exactly when every copy of its status
on the connection is `access_lost`, and the dirty dialogs are denied.  Only a revocation makes a
dialog dirty, and only the reconciled status of that dialog makes it clean again.  A token is live
from its capture on, and every step that revokes its target, changes the scope or closes the access
state spends it.
-/

namespace McpTelegram

open Foundations

variable {enabled : Bool} {target : ℤ} {claimed : List (Option ScopeToken)}

namespace AccessWorld

variable {later : PeerAccess} {faults : ExecuteFaults} {contract fault : Bool}
    {revoked : AccessWorld} {f : SyncedDialogs → SyncedDialogs}

/-! ## The invariant -/

/-- Where the worker thread is, against the connection, the binding and the dirty dialogs. -/
def TurnInv (world : AccessWorld) : Prop :=
  match world.turn with
  | .idle reconciled => world.bound = true ∧ world.conn.transaction = none ∧
      (reconciled = true → world.access.dirty = ∅)
  | .callback => world.bound = true
  | .unbinding => True
  | .settled => world.bound = true ∧ world.conn.transaction = none
  | .reconciling remaining failed => world.bound = true ∧ world.conn.transaction = none ∧
      (failed = false → ∀ dialogId ∈ world.access.dirty, dialogId ∈ remaining)
  | .applying dialogId status remaining failed =>
      world.bound = true ∧ world.conn.transaction = none ∧
        status = world.conn.database.lookup dialogId ∧
        (failed = false → ∀ dirtyId ∈ world.access.dirty, dirtyId ∈ dialogId :: remaining)
  | .retired => True

/-- The status of every dialog that is not dirty is known. -/
def Known (world : AccessWorld) : Prop :=
  ∀ dialogId ∉ world.access.dirty, ∀ copy ∈ world.conn.copies,
    SyncedDialogs.Lost copy dialogId ↔ dialogId ∈ world.access.denied

/-- The invariant of the cells and of the dirty dialogs. -/
structure AccessInv (world : AccessWorld) : Prop where
  quiet : world.access.Quiet
  dirtyDenied : world.access.dirty ⊆ world.access.denied
  turn : world.access.closed = false → world.TurnInv

variable {world next : AccessWorld} {action : AccessAction} {dialogId : ℤ}

/-! ## Actions -/

/-- `revoke_peer` is called for a dialog. -/
def Revokes (dialogId : ℤ) (world : AccessWorld) (action : AccessAction) : Prop :=
  match action with
  | .markAccessLost revoked _ => revoked = dialogId
  | .restoreAccess revoked _ _ => revoked = dialogId ∧ world.conn.view.Lost dialogId
  | _ => False

/-- The status of a dialog is reconciled. -/
def Reconciles (dialogId : ℤ) (world : AccessWorld) (action : AccessAction) : Prop :=
  match action, world.turn with
  | .applyStatus, .applying reconciled _ _ _ => reconciled = dialogId
  | _, _ => False

/-- The scope changes: a capture with another scope of the account is not refused. -/
def ChangesScope (world : AccessWorld) (action : AccessAction) : Prop :=
  match action with
  | .capture scope _ _ =>
    scope ≠ some world.access.scope ∧ (world.access.refreshScope scope).isSome = true
  | _ => False

/-- What ends the life of the tokens of a target. -/
def Disturbs (dialogId : ℤ) (world : AccessWorld) (action : AccessAction) : Prop :=
  Revokes dialogId world action ∨ ChangesScope world action ∨ action = .invalidateScope ∨
    action = .closeAccess

/-- A status enters or leaves `access_lost` through `_mark_access_lost_state` and
`restore_access_after_revalidation` only. -/
def LossByLifecycle (world : AccessWorld) (action : AccessAction) : Prop :=
  match action with
  | .writeStatus dialogId status => status = some .accessLost ↔ world.conn.view.Lost dialogId
  | _ => True

/-! ## One step -/

/-- What a step can do. -/
inductive Steps (world : AccessWorld) : AccessAction → AccessWorld → Prop
  | refused {scope : Option TelegramAuthScope} {targets : List ℤ} {exempt : Option ℤ}
      (h : world.access.capture scope targets exempt = none) :
      Steps world (.capture scope targets exempt) world
  | captured {scope : Option TelegramAuthScope} {targets : List ℤ} {exempt : Option ℤ}
      {tokens : List (Option ScopeToken)} {access : PeerAccess}
      (h : world.access.capture scope targets exempt = some (tokens, access)) :
      Steps world (.capture scope targets exempt) { world with access := access }
  | invalidated :
      Steps world .invalidateScope { world with access := world.access.invalidateScope }
  | entered {faults : ExecuteFaults} {reconciled : Bool} (hturn : world.turn = .idle reconciled) :
      Steps world (.operate faults) { world with turn := .callback }
  | unentered {faults : ExecuteFaults} {reconciled contract : Bool}
      (hturn : world.turn = .idle reconciled) :
      Steps world (.operate faults) (world.recovered (recover faults world.conn contract))
  | called {call : ConnectionCall} {conn : Connection ℕ SyncedDialogs}
      (hturn : world.turn = .callback) (h : call.apply world.conn = some conn) :
      Steps world (.call call) { world with conn := conn }
  | marked {dialogId : ℤ} {fault : Bool} (hturn : world.turn = .callback) :
      Steps world (.markAccessLost dialogId fault)
        ((world.revokePeer dialogId).tryWrite fault fun dialogs => dialogs.markLost dialogId)
  | restored {dialogId : ℤ} {enabled fault : Bool} (hturn : world.turn = .callback)
      (hlost : world.conn.view.Lost dialogId) :
      Steps world (.restoreAccess dialogId enabled fault)
        ((world.revokePeer dialogId).tryWrite fault fun dialogs =>
          dialogs.restoreStatus dialogId enabled)
  | unrestored {dialogId : ℤ} {enabled fault : Bool} (hturn : world.turn = .callback)
      (hlost : ¬ world.conn.view.Lost dialogId) :
      Steps world (.restoreAccess dialogId enabled fault)
        (world.tryWrite fault fun dialogs => dialogs.restoreStatus dialogId enabled)
  | wrote {dialogId : ℤ} {status : Option HistoryStatus} (hturn : world.turn = .callback) :
      Steps world (.writeStatus dialogId status)
        (world.tryWrite false fun dialogs => dialogs.setStatus dialogId status)
  | unbound (hturn : world.turn = .callback) :
      Steps world .unbind { world with bound := false, turn := .unbinding }
  | closed (hturn : world.turn = .unbinding) :
      Steps world .closeAccess { world with access := world.access.unbind, turn := .callback }
  | failed {faults : ExecuteFaults} {ending : CallbackEnd} {contract : Bool}
      (hturn : world.turn = .callback) :
      Steps world (.finish faults ending) (world.recovered (recover faults world.conn contract))
  | returned {faults : ExecuteFaults} {ending : CallbackEnd} (hturn : world.turn = .callback)
      (hidle : world.conn.transaction = none) :
      Steps world (.finish faults ending) { world with turn := .settled }
  | listed {order : List ℤ} (hturn : world.turn = .settled)
      (horder : order.toFinset = world.dirtyIds) :
      Steps world (.startReconcile order) { world with turn := .reconciling order false }
  | unread {fault failed : Bool} {dialogId : ℤ} {remaining : List ℤ}
      (hturn : world.turn = .reconciling (dialogId :: remaining) failed) :
      Steps world (.readStatus fault) { world with turn := .reconciling remaining true }
  | read {fault failed : Bool} {dialogId : ℤ} {remaining : List ℤ}
      (hturn : world.turn = .reconciling (dialogId :: remaining) failed) :
      Steps world (.readStatus fault)
        { world with
          turn := .applying dialogId (world.conn.view.lookup dialogId) remaining failed }
  | applied {dialogId : ℤ} {status : Option HistoryStatus} {remaining : List ℤ} {failed : Bool}
      (hturn : world.turn = .applying dialogId status remaining failed) :
      Steps world .applyStatus
        { world with
          access := world.access.reconcileStatus dialogId status
          turn := .reconciling remaining failed }
  | ended {failed : Bool} (hturn : world.turn = .reconciling [] failed) :
      Steps world .endReconcile { world with turn := .idle !failed }
  | abandoned (hturn : world.TurnInv → world.bound = true ∧ world.conn.transaction = none) :
      Steps world .abandonReconcile { world with turn := .idle false }

/-- A step of a callback. -/
theorem steps_of_callbackStep (hturn : world.turn = .callback)
    (h : world.callbackStep action = some next) : Steps world action next := by
  unfold callbackStep at h
  split at h
  next call =>
    obtain ⟨conn, hconn, rfl⟩ := Option.map_eq_some_iff.mp h
    exact .called hturn hconn
  next dialogId fault =>
    obtain rfl := Option.some.inj h
    exact .marked hturn
  next dialogId enabled fault =>
    obtain rfl := Option.some.inj h
    by_cases hlost : world.conn.view.Lost dialogId
    · rw [if_pos hlost]
      exact .restored hturn hlost
    · rw [if_neg hlost]
      exact .unrestored hturn hlost
  next dialogId status =>
    obtain rfl := Option.some.inj h
    exact .wrote hturn
  next =>
    split_ifs at h
    obtain rfl := Option.some.inj h
    exact .unbound hturn
  next faults ending =>
    obtain rfl := Option.some.inj h
    unfold finishCallback
    cases ending with
    | raised | awaitable | threadBound => exact .failed hturn
    | returned =>
      rcases hcheck : checkIdle faults.checkAfter world.conn with contract | ⟨⟩
      · exact .failed hturn
      · exact .returned hturn (guarded_of_checkIdle hcheck).1.2
  next => cases h

/-- Every step does one of these. -/
theorem steps_of_step (h : world.step action = some next) : Steps world action next := by
  unfold step at h
  split at h
  next scope targets exempt =>
    split at h
    next hcapture =>
      obtain rfl := Option.some.inj h
      exact .refused hcapture
    next tokens access hcapture =>
      obtain rfl := Option.some.inj h
      exact .captured hcapture
  next =>
    obtain rfl := Option.some.inj h
    exact .invalidated
  next faults =>
    split at h
    next reconciled hturn =>
      split at h
      next contract hcheck =>
        obtain rfl := Option.some.inj h
        exact .unentered hturn
      next hcheck =>
        obtain rfl := Option.some.inj h
        exact .entered hturn
    next => cases h
  next =>
    split at h
    next hturn =>
      obtain rfl := Option.some.inj h
      exact .closed hturn
    next => cases h
  next order =>
    split at h
    next hturn =>
      split_ifs at h with horder
      obtain rfl := Option.some.inj h
      exact .listed hturn horder.2
    next => cases h
  next fault =>
    split at h
    next dialogId remaining failed hturn =>
      split_ifs at h
      · obtain rfl := Option.some.inj h
        exact .unread hturn
      · obtain rfl := Option.some.inj h
        exact .read hturn
    next => cases h
  next =>
    split at h
    next dialogId status remaining failed hturn =>
      obtain rfl := Option.some.inj h
      exact .applied hturn
    next => cases h
  next =>
    split at h
    next failed hturn =>
      obtain rfl := Option.some.inj h
      exact .ended hturn
    next => cases h
  next =>
    have hquit (hturn : world.TurnInv → world.bound = true ∧ world.conn.transaction = none)
        (h : some { world with turn := .idle false } = some next) :
        Steps world .abandonReconcile next := by
      obtain rfl := Option.some.inj h
      exact .abandoned hturn
    split at h
    next hturn => exact hquit (fun hinv => by rw [TurnInv, hturn] at hinv; exact hinv) h
    next hturn =>
      exact hquit (fun hinv => by rw [TurnInv, hturn] at hinv; exact ⟨hinv.1, hinv.2.1⟩) h
    next hturn =>
      exact hquit (fun hinv => by rw [TurnInv, hturn] at hinv; exact ⟨hinv.1, hinv.2.1⟩) h
    next => cases h
  next =>
    split at h
    next hturn => exact steps_of_callbackStep hturn h
    next => cases h

/-! ## The access state in one step -/

/-- How a step moves the access state. -/
inductive Moves (world : AccessWorld) (action : AccessAction) (later : PeerAccess) : Prop
  | same (h : later = world.access)
  | captured (scope : Option TelegramAuthScope) (targets : List ℤ) (exempt : Option ℤ)
      (tokens : List (Option ScopeToken)) (haction : action = .capture scope targets exempt)
      (h : world.access.capture scope targets exempt = some (tokens, later))
  | invalidated (haction : action = .invalidateScope) (h : later = world.access.invalidateScope)
  | revoked (dialogId : ℤ) (hrevokes : Revokes dialogId world action)
      (h : later = world.access.revoke dialogId)
  | closed (haction : action = .closeAccess) (h : later = world.access.unbind)
  | reconciled (dialogId : ℤ) (status : Option HistoryStatus)
      (hreconciles : Reconciles dialogId world action)
      (h : later = world.access.reconcileStatus dialogId status)

/-- Revoking a peer revokes it in the access state, or finds no binding. -/
theorem revokePeer_access (world : AccessWorld) (dialogId : ℤ) :
    (world.revokePeer dialogId).access =
      if world.bound then world.access.revoke dialogId else world.access := by
  unfold revokePeer
  split_ifs <;> rfl

/-- Revoking a peer leaves the connection and the binding. -/
theorem revokePeer_rest (world : AccessWorld) (dialogId : ℤ) :
    (world.revokePeer dialogId).conn = world.conn ∧
      (world.revokePeer dialogId).bound = world.bound ∧
      (world.revokePeer dialogId).turn = world.turn := by
  unfold revokePeer
  split_ifs <;> exact ⟨rfl, rfl, rfl⟩

/-- Every step moves the access state in one of these ways. -/
theorem Steps.moves (h : Steps world action next) : Moves world action next.access := by
  have hrevoke (dialogId : ℤ) (hrevokes : Revokes dialogId world action) :
      Moves world action (world.revokePeer dialogId).access := by
    rw [revokePeer_access]
    split_ifs
    · exact .revoked dialogId hrevokes rfl
    · exact .same rfl
  cases h with
  | refused | entered | unentered | called | unrestored | wrote | unbound | failed | returned
  | listed | unread | read | ended | abandoned => exact .same rfl
  | captured h => exact .captured _ _ _ _ rfl h
  | invalidated => exact .invalidated rfl rfl
  | marked hturn => exact hrevoke _ rfl
  | restored hturn hlost => exact hrevoke _ ⟨rfl, hlost⟩
  | closed hturn => exact .closed rfl rfl
  | @applied dialogId status remaining failed hturn =>
    have hreconciles : Reconciles dialogId world .applyStatus := by
      unfold Reconciles
      rw [hturn]
    exact .reconciled dialogId status hreconciles rfl

/-- Every step moves the access state on. -/
theorem Moves.advances (h : Moves world action later) : world.access.Advances later := by
  cases h with
  | same h => exact h ▸ .refl _
  | captured scope targets exempt tokens haction h => exact (PeerAccess.capture_spec h).advances
  | invalidated haction h => exact h ▸ PeerAccess.advances_publishNone _
  | revoked dialogId hrevokes h => exact h ▸ PeerAccess.advances_revoke _ _
  | closed haction h => exact h ▸ PeerAccess.advances_unbind _
  | reconciled dialogId status hreconciles h => exact h ▸ PeerAccess.advances_reconcileStatus _ _ _

/-- The dirty dialogs stay denied. -/
theorem Moves.dirtyDenied (h : Moves world action later)
    (hdirty : world.access.dirty ⊆ world.access.denied) : later.dirty ⊆ later.denied := by
  cases h with
  | same h => exact h ▸ hdirty
  | captured scope targets exempt tokens haction h =>
    have hspec := PeerAccess.capture_spec h
    rw [hspec.dirty, hspec.denied]
    exact hdirty
  | invalidated haction h => exact h ▸ hdirty
  | revoked dialogId hrevokes h =>
    rw [h]
    exact Finset.insert_subset_insert dialogId hdirty
  | closed haction h => exact h ▸ hdirty
  | reconciled dialogId status hreconciles h =>
    rw [h]
    intro id hid
    obtain ⟨hne, hmem⟩ := Finset.mem_erase.mp hid
    change id ∈ if status = some .accessLost then insert dialogId world.access.denied
      else world.access.denied.erase dialogId
    split_ifs
    · exact Finset.mem_insert_of_mem (hdirty hmem)
    · exact Finset.mem_erase.mpr ⟨hne, hdirty hmem⟩

/-- A step that revokes a dialog revokes it in a bound access state. -/
theorem access_of_revokes (h : Steps world action next) (hrevokes : Revokes dialogId world action)
    (hbound : world.bound = true) : next.access = world.access.revoke dialogId := by
  have hrevoke (revoked : ℤ) (fault : Bool) (f : SyncedDialogs → SyncedDialogs) :
      ((world.revokePeer revoked).tryWrite fault f).access = world.access.revoke revoked := by
    change (world.revokePeer revoked).access = world.access.revoke revoked
    rw [revokePeer_access, if_pos hbound]
  cases h with
  | marked hturn =>
    obtain rfl := hrevokes
    exact hrevoke _ _ _
  | restored hturn hlost =>
    obtain ⟨rfl, -⟩ := hrevokes
    exact hrevoke _ _ _
  | unrestored hturn hlost =>
    obtain ⟨rfl, hlost'⟩ := hrevokes
    exact absurd hlost' hlost
  | _ => exact hrevokes.elim

/-- A revocation makes its dialog dirty. -/
theorem dirty_of_revokes (h : Steps world action next) (hrevokes : Revokes dialogId world action)
    (hbound : world.bound = true) : dialogId ∈ next.access.dirty := by
  rw [access_of_revokes h hrevokes hbound]
  exact Finset.mem_insert_self dialogId _

/-- A revocation in an open access state is made in a callback, which has the binding. -/
theorem bound_of_revokes (h : Steps world action next) (hinv : world.TurnInv)
    (hrevokes : Revokes dialogId world action) : world.bound = true := by
  cases h with
  | marked hturn | restored hturn | unrestored hturn =>
    unfold TurnInv at hinv
    rw [hturn] at hinv
    exact hinv
  | _ => exact hrevokes.elim

/-- Only its reconciliation makes a dialog clean. -/
theorem Moves.dirty (h : Moves world action later) (hdirty : dialogId ∈ world.access.dirty)
    (hreconciles : ¬ Reconciles dialogId world action) : dialogId ∈ later.dirty := by
  cases h with
  | same h => exact h ▸ hdirty
  | captured scope targets exempt tokens haction h =>
    rw [(PeerAccess.capture_spec h).dirty]
    exact hdirty
  | invalidated haction h => exact h ▸ hdirty
  | revoked revokedId hrevokes h =>
    rw [h]
    exact Finset.mem_insert_of_mem hdirty
  | closed haction h => exact h ▸ hdirty
  | reconciled reconciledId status hreconciled h =>
    rw [h]
    refine Finset.mem_erase.mpr ⟨?_, hdirty⟩
    rintro rfl
    exact hreconciles hreconciled

/-- Only its revocation makes a dialog dirty. -/
theorem Moves.clean (h : Moves world action later) (hclean : dialogId ∉ world.access.dirty)
    (hrevokes : ¬ Revokes dialogId world action) : dialogId ∉ later.dirty := by
  cases h with
  | same h => exact h ▸ hclean
  | captured scope targets exempt tokens haction h =>
    rw [(PeerAccess.capture_spec h).dirty]
    exact hclean
  | invalidated haction h => exact h ▸ hclean
  | revoked revokedId hrevoked h =>
    rw [h]
    refine Finset.mem_insert.not.mpr (not_or.mpr ⟨?_, hclean⟩)
    rintro rfl
    exact hrevokes hrevoked
  | closed haction h => exact h ▸ hclean
  | reconciled reconciledId status hreconciled h =>
    rw [h]
    exact fun hmem => hclean (Finset.mem_of_mem_erase hmem)

/-! ## The worker thread in one step -/

/-- The connection after a recovery has no transaction, and the worker retires or goes on. -/
theorem turnInv_recovered (hbound : world.bound = true) :
    (world.recovered (recover faults world.conn contract)).TurnInv := by
  have hrecovered := @recover_spec _ faults world.conn contract
  unfold TurnInv recovered
  cases (recover faults world.conn contract).2 with
  | true => trivial
  | false => exact ⟨hbound, hrecovered.transaction⟩

/-- In a callback the invariant asks for the binding only. -/
theorem turnInv_of_callback (hturn : world.turn = .callback) (hbound : world.bound = true) :
    world.TurnInv := by
  unfold TurnInv
  rw [hturn]
  exact hbound

/-- In a callback the access state is bound. -/
theorem TurnInv.bound_of_callback (hinv : world.TurnInv) (hturn : world.turn = .callback) :
    world.bound = true := by
  unfold TurnInv at hinv
  rw [hturn] at hinv
  exact hinv

/-- The invariant of the worker thread looks at the dirty dialogs of the access state only. -/
theorem TurnInv.of_dirty (hinv : world.TurnInv) {access : PeerAccess}
    (hdirty : access.dirty = world.access.dirty) : { world with access := access }.TurnInv := by
  unfold TurnInv at hinv ⊢
  rw [← hdirty] at hinv
  exact hinv

/-- A write of a callback keeps the invariant of the worker thread. -/
theorem turnInv_written (hturn : revoked.turn = world.turn) (hbound : revoked.bound = world.bound)
    (hcallback : world.turn = .callback) (hinv : world.TurnInv) :
    (revoked.tryWrite fault f).TurnInv :=
  turnInv_of_callback (hturn.trans hcallback) (hbound.trans (hinv.bound_of_callback hcallback))

/-- Every step that leaves the access state open keeps the invariant of the worker thread. -/
theorem Steps.turnInv (h : Steps world action next) (hinv : world.TurnInv)
    (hopen : next.access.closed = false) : next.TurnInv := by
  cases h with
  | refused h => exact hinv
  | captured h => exact hinv.of_dirty (PeerAccess.capture_spec h).dirty
  | invalidated => exact hinv.of_dirty rfl
  | entered hturn =>
    rw [TurnInv, hturn] at hinv
    exact hinv.1
  | unentered hturn =>
    rw [TurnInv, hturn] at hinv
    exact turnInv_recovered hinv.1
  | called hturn h => exact turnInv_of_callback hturn (hinv.bound_of_callback hturn)
  | marked hturn | restored hturn =>
    obtain ⟨-, hbound, hsame⟩ := revokePeer_rest world _
    exact turnInv_written hsame hbound hturn hinv
  | unrestored hturn | wrote hturn => exact turnInv_written rfl rfl hturn hinv
  | unbound hturn => trivial
  | closed hturn => cases hopen
  | failed hturn => exact turnInv_recovered (hinv.bound_of_callback hturn)
  | returned hturn hidle => exact ⟨hinv.bound_of_callback hturn, hidle⟩
  | listed hturn horder =>
    rw [TurnInv, hturn] at hinv
    refine ⟨hinv.1, hinv.2, fun _ dialogId hdirty => ?_⟩
    rw [dirtyIds, if_pos hinv.1] at horder
    exact List.mem_toFinset.mp (horder ▸ hdirty)
  | unread hturn =>
    rw [TurnInv, hturn] at hinv
    exact ⟨hinv.1, hinv.2.1, nofun⟩
  | read hturn =>
    rw [TurnInv, hturn] at hinv
    exact ⟨hinv.1, hinv.2.1, by rw [Connection.view_of_none hinv.2.1], hinv.2.2⟩
  | applied hturn =>
    rw [TurnInv, hturn] at hinv
    refine ⟨hinv.1, hinv.2.1, fun hfailed dirtyId hdirty => ?_⟩
    obtain ⟨hne, hmem⟩ := Finset.mem_erase.mp hdirty
    exact (List.mem_cons.mp (hinv.2.2.2 hfailed dirtyId hmem)).resolve_left hne
  | @ended failed hturn =>
    rw [TurnInv, hturn] at hinv
    refine ⟨hinv.1, hinv.2.1, fun hreconciled => ?_⟩
    refine Finset.eq_empty_of_forall_notMem fun dialogId hdirty => ?_
    cases failed with
    | true => cases hreconciled
    | false => exact absurd (hinv.2.2 rfl dialogId hdirty) List.not_mem_nil
  | abandoned hturn => exact ⟨(hturn hinv).1, (hturn hinv).2, nofun⟩

/-- An access state that has moved on and is open was open before. -/
theorem wasOpen_of_advances (h : world.access.Advances next.access)
    (hopen : next.access.closed = false) : world.access.closed = false :=
  Bool.eq_false_iff.mpr fun hclosed => Bool.false_ne_true (hopen.symm.trans (h.closed hclosed))

/-- Every step keeps the invariant. -/
theorem Steps.inv (h : Steps world action next) (hinv : world.AccessInv) : next.AccessInv where
  quiet := h.moves.advances.quiet hinv.quiet
  dirtyDenied := h.moves.dirtyDenied hinv.dirtyDenied
  turn hopen := h.turnInv (hinv.turn (wasOpen_of_advances h.moves.advances hopen)) hopen

/-- The bound access state has the invariant. -/
theorem initial_inv (scope : TelegramAuthScope) (dialogs : SyncedDialogs) :
    (initial scope dialogs).AccessInv where
  quiet key cell hcell := by
    obtain ⟨probe, target⟩ := key
    cases probe <;> cases hcell
  dirtyDenied := Finset.empty_subset _
  turn _ := ⟨rfl, rfl, fun _ => rfl⟩

/-! ## The statuses in one step -/

/-- The dialogs with the status `access_lost` are those that `bind` reads. -/
theorem mem_lostIds {dialogs : SyncedDialogs} :
    dialogId ∈ dialogs.lostIds ↔ dialogs.Lost dialogId := by
  rw [SyncedDialogs.lostIds, List.mem_toFinset, List.mem_filter, decide_eq_true_iff]
  refine and_iff_right_of_imp fun hlost => ?_
  exact AList.mem_keys.mp (AList.lookup_isSome.mp (by rw [hlost]; rfl))

/-- The statuses are known after a step whose connection shows old copies only. -/
theorem Known.of_copies (hknown : world.Known) (hdirty : next.access.dirty = world.access.dirty)
    (hdenied : next.access.denied = world.access.denied)
    (hcopies : next.conn.copies ⊆ world.conn.copies) : next.Known := by
  intro dialogId hclean copy hcopy
  rw [hdenied]
  exact hknown dialogId (hdirty ▸ hclean) copy (hcopies hcopy)

/-- The statuses are known after a write that moves no clean dialog in or out of `access_lost`. -/
theorem Known.tryWrite (hknown : revoked.Known) (hf : ∀ dialogId ∉ revoked.access.dirty,
      (f revoked.conn.view).Lost dialogId ↔ revoked.conn.view.Lost dialogId) :
    (revoked.tryWrite fault f).Known := by
  intro dialogId hclean copy hcopy
  change copy ∈ ((orRaise fault (revoked.conn.write f)).getD revoked.conn).copies at hcopy
  change copy.Lost dialogId ↔ dialogId ∈ revoked.access.denied
  cases hwrite : orRaise fault (revoked.conn.write f) with
  | none =>
    rw [hwrite] at hcopy
    exact hknown dialogId hclean copy hcopy
  | some conn =>
    rw [hwrite] at hcopy
    rcases Connection.write_copies (orRaise_eq_some.mp hwrite).2 copy hcopy with hold | rfl
    · exact hknown dialogId hclean copy hold
    · rw [hf dialogId hclean]
      exact hknown dialogId hclean _ Connection.view_mem_copies

/-- The statuses are known after a revocation. -/
theorem Known.revokePeer (hknown : world.Known) (dialogId : ℤ) :
    (world.revokePeer dialogId).Known := by
  unfold AccessWorld.revokePeer
  split_ifs
  · intro other hclean copy hcopy
    obtain ⟨hne, hother⟩ := not_or.mp (Finset.mem_insert.not.mp hclean)
    exact (hknown other hother copy hcopy).trans (Finset.mem_insert.trans (or_iff_right hne)).symm
  · exact hknown

/-- A recovered connection shows the database only. -/
theorem Known.recovered (hknown : world.Known) :
    (world.recovered (recover faults world.conn contract)).Known := by
  have hrecovered := @recover_spec _ faults world.conn contract
  exact hknown.of_copies rfl rfl
    (Connection.copies_of_ended hrecovered.database hrecovered.transaction)

/-- A call on the connection shows old copies only. -/
theorem ConnectionCall.apply_copies {call : ConnectionCall}
    {conn later : Connection ℕ SyncedDialogs} (h : call.apply conn = some later) :
    later.copies ⊆ conn.copies := by
  cases call with
  | start => exact Connection.start_copies h
  | savepoint name => exact Connection.savepoint_copies h
  | rollbackTo name => exact Connection.rollbackTo_copies h
  | release name => exact Connection.release_copies h
  | commit => exact Connection.commit_copies h
  | rollback => exact Connection.rollback_copies h
  | setQueryOnly queryOnly => exact (Connection.setQueryOnly_copies h) ▸ List.Subset.refl _
  | close =>
    obtain rfl := Option.some.inj h
    exact Connection.copies_of_ended rfl rfl

section Writes

variable {dialogs : SyncedDialogs} {other : ℤ}

/-- Marking a dialog leaves the others. -/
theorem lost_markLost_of_ne (hne : other ≠ dialogId) :
    (dialogs.markLost dialogId).Lost other ↔ dialogs.Lost other := by
  rw [SyncedDialogs.Lost, SyncedDialogs.markLost, Dictionary.lookup_insert_eq, if_neg hne]
  rfl

/-- A restored dialog is not lost. -/
theorem not_lost_restoreStatus : ¬ (dialogs.restoreStatus dialogId enabled).Lost dialogId := by
  rw [SyncedDialogs.Lost, SyncedDialogs.restoreStatus, Dictionary.lookup_modify, if_pos rfl]
  intro hlost
  obtain ⟨status, -, hstatus⟩ := Option.map_eq_some_iff.mp hlost
  cases enabled <;> cases hstatus

/-- Restoring a dialog leaves the others. -/
theorem lost_restoreStatus_of_ne (hne : other ≠ dialogId) :
    (dialogs.restoreStatus dialogId enabled).Lost other ↔ dialogs.Lost other := by
  rw [SyncedDialogs.Lost, SyncedDialogs.restoreStatus, Dictionary.lookup_modify, if_neg hne]
  rfl

/-- A written status. -/
theorem lost_setStatus {status : Option HistoryStatus} :
    (dialogs.setStatus dialogId status).Lost other ↔
      if other = dialogId then status = some .accessLost else dialogs.Lost other := by
  cases status with
  | none =>
    rw [SyncedDialogs.Lost, SyncedDialogs.setStatus, Dictionary.lookup_erase_eq]
    split_ifs <;> exact Iff.rfl
  | some status =>
    rw [SyncedDialogs.Lost, SyncedDialogs.setStatus, Dictionary.lookup_insert_eq]
    split_ifs <;> exact Iff.rfl

end Writes

/-- A clean dialog is another one than that just revoked. -/
theorem ne_of_notMem_dirty (hbound : world.bound = true) {other : ℤ}
    (hclean : other ∉ (world.revokePeer dialogId).access.dirty) : other ≠ dialogId := by
  rintro rfl
  rw [revokePeer_access, if_pos hbound] at hclean
  exact hclean (Finset.mem_insert_self other _)

/-- A step that leaves the access state open keeps the statuses known. -/
theorem Steps.known (h : Steps world action next) (hinv : world.TurnInv) (hknown : world.Known)
    (hlifecycle : LossByLifecycle world action) : next.Known := by
  cases h with
  | refused | entered | unbound | returned | listed | unread | read | ended | abandoned =>
    exact hknown.of_copies rfl rfl (List.Subset.refl _)
  | captured h =>
    have hspec := PeerAccess.capture_spec h
    exact hknown.of_copies hspec.dirty hspec.denied (List.Subset.refl _)
  | invalidated => exact hknown.of_copies rfl rfl (List.Subset.refl _)
  | unentered hturn => exact hknown.recovered
  | called hturn h => exact hknown.of_copies rfl rfl (ConnectionCall.apply_copies h)
  | marked hturn =>
    refine (hknown.revokePeer _).tryWrite fun other hclean => ?_
    exact lost_markLost_of_ne (ne_of_notMem_dirty (hinv.bound_of_callback hturn) hclean)
  | restored hturn hlost =>
    refine (hknown.revokePeer _).tryWrite fun other hclean => ?_
    exact lost_restoreStatus_of_ne (ne_of_notMem_dirty (hinv.bound_of_callback hturn) hclean)
  | @unrestored dialogId enabled fault hturn hlost =>
    refine hknown.tryWrite fun other hclean => ?_
    by_cases hother : other = dialogId
    · rw [hother]
      exact iff_of_false not_lost_restoreStatus hlost
    · exact lost_restoreStatus_of_ne hother
  | @wrote dialogId status hturn =>
    refine hknown.tryWrite fun other hclean => ?_
    rw [lost_setStatus]
    split_ifs with hother
    · rw [hother]
      exact hlifecycle
    · rfl
  | closed hturn => exact hknown.of_copies rfl rfl (List.Subset.refl _)
  | failed hturn => exact hknown.recovered
  | @applied dialogId status remaining failed hturn =>
    -- The status was read from the database, which is the only copy now.
    rw [TurnInv, hturn] at hinv
    obtain ⟨-, hidle, hstatus, -⟩ := hinv
    intro other hclean copy hcopy
    change copy ∈ world.conn.copies at hcopy
    change copy.Lost other ↔ other ∈ if status = some .accessLost
      then insert dialogId world.access.denied else world.access.denied.erase dialogId
    by_cases hother : other = dialogId
    · rw [Connection.copies_of_none hidle, List.mem_singleton] at hcopy
      rw [hother, hcopy, SyncedDialogs.Lost, ← hstatus]
      split_ifs with hlost
      · exact iff_of_true hlost (Finset.mem_insert_self dialogId _)
      · exact iff_of_false hlost (Finset.notMem_erase dialogId _)
    · have hold := hknown other (fun hdirty => hclean (Finset.mem_erase.mpr ⟨hother, hdirty⟩))
        copy hcopy
      rw [hold]
      split_ifs
      · exact (Finset.mem_insert.trans (or_iff_right hother)).symm
      · exact (Finset.mem_erase.trans (and_iff_right hother)).symm

/-! ## Runs -/

section Runs

variable {actions : List AccessAction} {token : ScopeToken}

/-- Every run keeps the invariant. -/
theorem run_inv (hinv : world.AccessInv) (h : run step world actions = some next) :
    next.AccessInv :=
  run_invariant (fun _ _ _ hinv hstep => (steps_of_step hstep).inv hinv) hinv h

/-- Every run moves the access state on. -/
theorem run_advances (h : run step world actions = some next) : world.access.Advances next.access :=
  run_trans (R := fun world next => world.access.Advances next.access)
    (fun world => .refl world.access) (fun h h' => h.trans h')
    (fun _ _ _ hstep => (steps_of_step hstep).moves.advances) h

/-- A disturbing step spends the live tokens of the target. -/
theorem spent_of_disturbs (h : Steps world action next) (hinv : world.AccessInv)
    (hlive : world.access.Live token) (hdisturbs : Disturbs token.owner.target world action) :
    next.access.Spent token := by
  by_cases hclosed : next.access.closed = true
  · exact Or.inl hclosed
  have hopen := wasOpen_of_advances h.moves.advances (Bool.eq_false_iff.mpr hclosed)
  rcases hdisturbs with hrevokes | hscope | rfl | rfl
  · rw [access_of_revokes h hrevokes (bound_of_revokes h (hinv.turn hopen) hrevokes)]
    exact hlive.revoke hinv.quiet
  · cases h with
    | refused h =>
      rw [PeerAccess.capture, Option.map_eq_none_iff] at h
      rw [ChangesScope, h] at hscope
      exact absurd hscope.2 Bool.false_ne_true
    | captured h => exact (PeerAccess.capture_spec h).spent hinv.quiet hscope.1 token hlive
    | _ => exact hscope.elim
  · cases h with
    | invalidated => exact hlive.publishNone hinv.quiet
  · cases h with
    | closed hturn => exact Or.inl rfl

/-- Nothing disturbs the target of a token between the time when it is live and its claim. -/
theorem along_of_claim (hinv : world.AccessInv) (hlive : world.access.Live token)
    (h : run step world actions = some next) (hmem : some token ∈ claimed)
    (hclaim : next.access.claim claimed = true) :
    Along step (fun world action => ¬ Disturbs token.owner.target world action) world actions := by
  induction actions generalizing world with
  | nil => trivial
  | cons action actions ih =>
    obtain ⟨middle, hstep, hrest⟩ := run_cons_eq_some.mp h
    have hsteps := steps_of_step hstep
    rw [along_cons hstep]
    refine ⟨fun hdisturbs => ?_, ih (hsteps.inv hinv) (hlive.advances hsteps.moves.advances) hrest⟩
    have hspent := (spent_of_disturbs hsteps hinv hlive hdisturbs).advances (run_advances hrest)
    exact Bool.false_ne_true ((hspent.claim_eq_false hmem).symm.trans hclaim)

/-- A dirty dialog stays dirty until its status is reconciled. -/
theorem dirty_of_run (hdirty : dialogId ∈ world.access.dirty)
    (halong : Along step (fun world action => ¬ Reconciles dialogId world action) world actions)
    (h : run step world actions = some next) : dialogId ∈ next.access.dirty :=
  run_along (I := fun world => dialogId ∈ world.access.dirty)
    (fun _ _ _ hdirty hnot hstep => (steps_of_step hstep).moves.dirty hdirty hnot) hdirty halong h

/-- A clean dialog stays clean until it is revoked. -/
theorem clean_of_run (hclean : dialogId ∉ world.access.dirty)
    (halong : Along step (fun world action => ¬ Revokes dialogId world action) world actions)
    (h : run step world actions = some next) : dialogId ∉ next.access.dirty :=
  run_along (I := fun world => dialogId ∉ world.access.dirty)
    (fun _ _ _ hclean hnot hstep => (steps_of_step hstep).moves.clean hclean hnot) hclean halong h

/-- While statuses are lost and restored by the lifecycle only, they are known. -/
theorem known_of_run (hinv : world.AccessInv) (hknown : world.access.closed = false → world.Known)
    (halong : Along step LossByLifecycle world actions) (h : run step world actions = some next) :
    next.access.closed = false → next.Known := by
  have hboth := run_along
    (I := fun world => world.AccessInv ∧ (world.access.closed = false → world.Known))
    (fun world action next hboth hlifecycle hstep => ?_) ⟨hinv, hknown⟩ halong h
  · exact hboth.2
  · have hsteps := steps_of_step hstep
    refine ⟨hsteps.inv hboth.1, fun hopen => ?_⟩
    have hwasOpen := wasOpen_of_advances hsteps.moves.advances hopen
    exact hsteps.known (hboth.1.turn hwasOpen) (hboth.2 hwasOpen) hlifecycle

/-- The statuses are known when the access state is bound. -/
theorem initial_known (scope : TelegramAuthScope) (dialogs : SyncedDialogs) :
    (initial scope dialogs).Known := by
  intro dialogId _ copy hcopy
  rw [Connection.copies_of_none rfl, List.mem_singleton] at hcopy
  rw [hcopy]
  exact mem_lostIds.symm

end Runs

/-! ## The contract -/

section Contract

variable {scope : TelegramAuthScope} {dialogs : SyncedDialogs} {actions : List AccessAction}
variable {active : Option TelegramAuthScope} {targets : List ℤ} {exempt : Option ℤ}
    {tokens : List (Option ScopeToken)} {access : PeerAccess} {token : Option ScopeToken}

/-- A claimed set of tokens is undisturbed since its capture, and its targets were allowed then. -/
theorem undisturbed_of_claim (hinv : world.AccessInv)
    (hcapture : world.access.capture active targets exempt = some (tokens, access))
    (h : run step { world with access := access } actions = some next) (hclaimed : tokens ⊆ claimed)
    (hclaim : next.access.claim claimed = true) (htarget : target ∈ targets) :
    Along step (fun world action => ¬ Disturbs target world action)
        { world with access := access } actions ∧
      world.access.Allowed exempt target := by
  have hspec := PeerAccess.capture_spec hcapture
  obtain ⟨token, htoken⟩ := hspec.exists_token htarget
  have hmem := hclaimed (List.of_mem_zip htoken).2
  cases token with
  | none => exact absurd hmem (PeerAccess.none_notMem_of_claim hclaim)
  | some token =>
    obtain ⟨rfl, hlive⟩ := hspec.live _ token htoken
    have hstep : step world (.capture active targets exempt) =
        some { world with access := access } := by rw [step, hcapture]
    have hnext := (steps_of_step hstep).inv hinv
    exact ⟨along_of_claim hnext hlive h hmem hclaim, (hspec.isSome hinv.quiet _ _ htoken).mp rfl⟩

/-- From a revocation to its reconciliation a capture yields no token. -/
theorem none_of_revokes {last : AccessWorld} (hinv : world.AccessInv)
    (hrevokes : Revokes dialogId world action) (hstep : step world action = some next)
    (h : run step next actions = some last)
    (halong : Along step (fun world action => ¬ Reconciles dialogId world action) next actions)
    (hcapture : last.access.capture active targets exempt = some (tokens, access))
    (htoken : (dialogId, token) ∈ targets.zip tokens) : token = none := by
  have hspec := PeerAccess.capture_spec hcapture
  have hsteps := steps_of_step hstep
  have hlast := run_inv (hsteps.inv hinv) h
  have hopen := wasOpen_of_advances (hsteps.moves.advances.trans (run_advances h)) hspec.wasOpen
  have hbound := bound_of_revokes hsteps (hinv.turn hopen) hrevokes
  have hdirty := dirty_of_run (dirty_of_revokes hsteps hrevokes hbound) halong h
  cases token with
  | none => rfl
  | some token =>
    rcases (hspec.isSome hlast.quiet _ _ htoken).mp rfl with hdenied | ⟨-, hclean⟩
    · exact absurd (hlast.dirtyDenied hdirty) hdenied
    · exact absurd hdirty hclean

/-- Once every status is reconciled, a capture follows the committed status of a target that is not
revoked. -/
theorem isSome_iff_not_lost (hinv : world.AccessInv)
    (hknown : world.access.closed = false → world.Known) (hturn : world.turn = .idle true)
    (h : run step world actions = some next) (hlifecycle : Along step LossByLifecycle world actions)
    (hnot : Along step (fun world action => ¬ Revokes target world action) world actions)
    (hcapture : next.access.capture active targets exempt = some (tokens, access))
    (hexempt : some target ≠ exempt) (htoken : (target, token) ∈ targets.zip tokens) :
    token.isSome = true ↔ ¬ next.conn.database.Lost target := by
  have hspec := PeerAccess.capture_spec hcapture
  have hturnInv := hinv.turn (wasOpen_of_advances (run_advances h) hspec.wasOpen)
  rw [TurnInv, hturn] at hturnInv
  have hclean : target ∉ world.access.dirty := by
    rw [hturnInv.2.2 rfl]
    exact Finset.notMem_empty target
  have hstatus := known_of_run hinv hknown hlifecycle h hspec.wasOpen target
    (clean_of_run hclean hnot h) _ Connection.database_mem_copies
  rw [hspec.isSome (run_inv hinv h).quiet _ _ htoken, PeerAccess.Allowed, hstatus]
  exact or_iff_left fun hprobe => hexempt hprobe.1

/-- From every reachable state: a claim succeeds only if nothing has disturbed the targets since
their tokens were captured, and they were allowed then; from a revocation to its reconciliation no
capture yields a token; and from a successful `reconcile` on, as long as a target is not revoked, a
capture that does not exempt it yields a token exactly if its committed status is not
`access_lost`. -/
theorem access_tokens_linearizable (hrun : run step (initial scope dialogs) actions = some world) :
    (∀ active targets exempt tokens access,
      world.access.capture active targets exempt = some (tokens, access) →
      ∀ later last claimed, run step { world with access := access } later = some last →
        tokens ⊆ claimed → last.access.claim claimed = true →
        ∀ target ∈ targets,
          Along step (fun world action => ¬ Disturbs target world action)
            { world with access := access } later ∧
          (target ∉ world.access.denied ∨
            (some target = exempt ∧ target ∉ world.access.dirty))) ∧
    (∀ dialogId action next, Revokes dialogId world action → step world action = some next →
      ∀ later last, run step next later = some last →
        Along step (fun world action => ¬ Reconciles dialogId world action) next later →
        ∀ active targets exempt tokens access,
          last.access.capture active targets exempt = some (tokens, access) →
          ∀ token, (dialogId, token) ∈ targets.zip tokens → token = none) ∧
    (Along step LossByLifecycle (initial scope dialogs) actions → world.turn = .idle true →
      ∀ target later last, run step world later = some last →
        Along step LossByLifecycle world later →
        Along step (fun world action => ¬ Revokes target world action) world later →
        ∀ active targets exempt tokens access,
          last.access.capture active targets exempt = some (tokens, access) →
          some target ≠ exempt → ∀ token, (target, token) ∈ targets.zip tokens →
            (token.isSome = true ↔ ¬ last.conn.database.Lost target)) := by
  have hinv := run_inv (initial_inv scope dialogs) hrun
  refine ⟨?_, ?_, ?_⟩
  · intro active targets exempt tokens access hcapture later last claimed hlater hclaimed hclaim
      target htarget
    exact undisturbed_of_claim hinv hcapture hlater hclaimed hclaim htarget
  · intro dialogId action next hrevokes hstep later last hlater halong active targets exempt tokens
      access hcapture token htoken
    exact none_of_revokes hinv hrevokes hstep hlater halong hcapture htoken
  · intro halong hturn target later last hlater hlifecycle hnot active targets exempt tokens access
      hcapture hexempt token htoken
    have hknown := known_of_run (initial_inv scope dialogs) (fun _ => initial_known scope dialogs)
      halong hrun
    exact isSome_iff_not_lost hinv hknown hturn hlater hlifecycle hnot hcapture hexempt htoken

/-- A callback that marks dialog 7 lost and commits, and the `reconcile` after it. -/
def lossOperation : List AccessAction :=
  [.operate {}, .call (.setQueryOnly false), .call .start, .call (.savepoint 0),
    .markAccessLost 7 false, .call (.release 0), .call .commit, .call (.setQueryOnly true),
    .finish {} .returned, .startReconcile [7], .readStatus false, .applyStatus, .endReconcile]

/-- After an operation that loses dialog 7, a capture yields a token exactly if the committed status
is not `access_lost`. -/
theorem access_tokens_linearizable_loss :
    ∃ world, run step (initial ⟨1, 2, 3⟩ ((∅ : SyncedDialogs).insert 7 .synced)) lossOperation =
        some world ∧
      ∀ active targets exempt tokens access,
        world.access.capture active targets exempt = some (tokens, access) →
        some 7 ≠ exempt → ∀ token, (7, token) ∈ targets.zip tokens →
          (token.isSome = true ↔ ¬ world.conn.database.Lost 7) := by
  have hsome : (run step (initial ⟨1, 2, 3⟩ ((∅ : SyncedDialogs).insert 7 .synced))
      lossOperation).map turn = some (.idle true) := rfl
  obtain ⟨world, hrun, hturn⟩ := Option.map_eq_some_iff.mp hsome
  have halong : Along step LossByLifecycle
      (initial ⟨1, 2, 3⟩ ((∅ : SyncedDialogs).insert 7 .synced)) lossOperation :=
    along_of_forall (by simp [lossOperation, LossByLifecycle])
  exact ⟨world, hrun, fun active targets exempt tokens access hcapture hexempt =>
    (access_tokens_linearizable hrun).2.2 halong hturn 7 [] world rfl trivial trivial active targets
      exempt tokens access hcapture hexempt⟩

end Contract

end AccessWorld

end McpTelegram
