import McpTelegram.Drafts.Projection
import McpTelegram.Foundations.Failing

/-!
# What the bookkeeping leaves alone

Claims, recovery requests, uncertainty marks and the binding of an account write the runtime row,
the sync states and the uncertainty table.  They keep every draft row, the history, the receipts
and the revision counter, and no order floor goes down.
-/

namespace McpTelegram

open Foundations

/-- An order that may be absent does not go down. -/
def OrderLe (before after : Option ℕ) : Prop := ∀ order ∈ before, ∃ order' ∈ after, order ≤ order'

theorem OrderLe.refl (order : Option ℕ) : OrderLe order order := fun _ h => ⟨_, h, le_rfl⟩

theorem OrderLe.trans {a b c : Option ℕ} (h : OrderLe a b) (h' : OrderLe b c) : OrderLe a c := by
  intro order horder
  obtain ⟨order', horder', hle⟩ := h order horder
  obtain ⟨order'', horder'', hle'⟩ := h' order' horder'
  exact ⟨order'', horder'', hle.trans hle'⟩

theorem OrderLe.none (order : Option ℕ) : OrderLe none order := by
  intro _ h
  cases h

namespace DraftStore

variable {change : DraftSyncState → DraftSyncState} {runtime : DraftRuntime} {reason : String}

/-- The counter of revisions. -/
def revisionCounter (store : DraftStore) : ℕ :=
  (store.runtime.map (·.projectionRevision)).getD 0

/-- The rows, the history, the receipts and the counter are the same, and no floor went down. -/
structure SameRows (before after : DraftStore) : Prop where
  current : after.current = before.current
  versions : after.versions = before.versions
  nextHistoryId : after.nextHistoryId = before.nextHistoryId
  receipts : after.receipts = before.receipts
  counter : after.revisionCounter = before.revisionCounter
  floor : ∀ account, OrderLe (before.sourceOrderFloor account) (after.sourceOrderFloor account)

theorem SameRows.refl (store : DraftStore) : SameRows store store :=
  ⟨rfl, rfl, rfl, rfl, rfl, fun _ => OrderLe.refl _⟩

theorem SameRows.trans {a b c : DraftStore} (h : SameRows a b) (h' : SameRows b c) : SameRows a c :=
  ⟨h'.current.trans h.current, h'.versions.trans h.versions,
    h'.nextHistoryId.trans h.nextHistoryId, h'.receipts.trans h.receipts,
    h'.counter.trans h.counter, fun account => (h.floor account).trans (h'.floor account)⟩

variable {env : DraftEnv} {reads : DraftReads} {store after : DraftStore}

section UpdateSyncState

variable (store) (accountId : ℤ) (change : DraftSyncState → DraftSyncState)

@[simp] theorem updateSyncState_runtime :
    (store.updateSyncState accountId change).runtime = store.runtime := by
  rw [updateSyncState]
  split <;> rfl

@[simp] theorem updateSyncState_uncertainty :
    (store.updateSyncState accountId change).uncertainty = store.uncertainty := by
  rw [updateSyncState]
  split <;> rfl

@[simp] theorem updateSyncState_current :
    (store.updateSyncState accountId change).current = store.current := by
  rw [updateSyncState]
  split <;> rfl

@[simp] theorem updateSyncState_versions :
    (store.updateSyncState accountId change).versions = store.versions := by
  rw [updateSyncState]
  split <;> rfl

@[simp] theorem updateSyncState_nextHistoryId :
    (store.updateSyncState accountId change).nextHistoryId = store.nextHistoryId := by
  rw [updateSyncState]
  split <;> rfl

@[simp] theorem updateSyncState_receipts :
    (store.updateSyncState accountId change).receipts = store.receipts := by
  rw [updateSyncState]
  split <;> rfl

/-- The sync states after an update. -/
theorem updateSyncState_apply (account : ℤ) :
    (store.updateSyncState accountId change).syncState account =
      if account = accountId then (store.syncState accountId).map change
      else store.syncState account := by
  rw [updateSyncState]
  split
  next h =>
    split_ifs with haccount
    · rw [haccount, h]
      rfl
    · rfl
  next state h =>
    simp only
    rw [Table.put_apply, h, Option.map_some]

end UpdateSyncState

/-- An update of a sync state that does not lower the floor. -/
theorem sameRows_updateSyncState (store : DraftStore) (accountId : ℤ)
    (h : ∀ state, OrderLe state.sourceOrderFloor (change state).sourceOrderFloor) :
    SameRows store (store.updateSyncState accountId change) := by
  refine ⟨by simp, by simp, by simp, by simp, by simp [revisionCounter], fun account => ?_⟩
  rw [sourceOrderFloor, sourceOrderFloor, updateSyncState_apply]
  split_ifs with haccount
  · rw [haccount]
    cases store.syncState accountId with
    | none => exact OrderLe.none _
    | some state => exact h state
  · exact OrderLe.refl _

theorem sameRows_markScopeUncertain (store : DraftStore) (scope : DraftScope) (observedAt : ℕ) :
    SameRows store (store.markScopeUncertain scope observedAt) :=
  ⟨rfl, rfl, rfl, rfl, rfl, fun _ => OrderLe.refl _⟩

theorem sameRows_clearScopeUncertainty (store : DraftStore) (scope : DraftScope) :
    SameRows store (store.clearScopeUncertainty scope) :=
  ⟨rfl, rfl, rfl, rfl, rfl, fun _ => OrderLe.refl _⟩

/-- A new runtime row with the same counter. -/
theorem sameRows_runtime (store : DraftStore)
    (h : runtime.projectionRevision = store.revisionCounter) :
    SameRows store { store with runtime := some runtime } :=
  ⟨rfl, rfl, rfl, rfl, h, fun _ => OrderLe.refl _⟩

theorem revisionCounter_of_some (h : store.runtime = some runtime) :
    store.revisionCounter = runtime.projectionRevision := by
  rw [revisionCounter, h]
  rfl

/-! ## Recovery -/

/-- What the recovery of the bound account depends on: the runtime row and the status of its
account. -/
structure RecoveryView where
  account : Option ℤ
  due : Option ℕ
  claim : Option ℕ
  status : Option DraftSyncStatus
  deriving DecidableEq

/-- The recovery of the bound account. -/
def recovery (store : DraftStore) : RecoveryView :=
  let account := store.runtime.bind (·.accountId)
  { account
    due := store.runtime.bind (·.recoveryDueAt)
    claim := store.runtime.bind (·.recoveryClaimedAt)
    status := account.bind fun account => (store.syncState account).map (·.status) }

/-- The recovery in another status. -/
def RecoveryView.withStatus (view : RecoveryView) (status : DraftSyncStatus) : RecoveryView :=
  { view with status := view.status.map fun _ => status }

/-- The recovery is due at a time, and no run has the claim. -/
def RecoveryView.request (view : RecoveryView) (dueAt : ℕ) : RecoveryView :=
  { view with due := some dueAt, claim := none }.withStatus .recoveryNeeded

/-- An update of the sync state of the bound account that sets the status. -/
theorem recovery_updateSyncState (status : DraftSyncStatus) {accountId : ℤ}
    (haccount : store.recovery.account = some accountId)
    (hstatus : ∀ state, (change state).status = status) :
    (store.updateSyncState accountId change).recovery = store.recovery.withStatus status := by
  simp only [recovery] at haccount
  simp only [recovery, RecoveryView.withStatus, updateSyncState_runtime, haccount,
    Option.bind_some, updateSyncState_apply, if_pos, Option.map_map]
  cases store.syncState accountId with
  | none => rfl
  | some state => simp [hstatus state]

/-- An update of a sync state that leaves the status alone. -/
theorem recovery_updateSyncState_of_eq (store : DraftStore) (accountId : ℤ)
    (hstatus : ∀ state, (change state).status = state.status) :
    (store.updateSyncState accountId change).recovery = store.recovery := by
  have hstate : ∀ account, ((store.updateSyncState accountId change).syncState account).map
      (·.status) = (store.syncState account).map (·.status) := by
    intro account
    rw [updateSyncState_apply]
    split_ifs with haccount
    · rw [haccount]
      cases store.syncState accountId with
      | none => rfl
      | some state => simp [hstatus state]
    · rfl
  simp only [recovery, updateSyncState_runtime, hstate]

/-- What an accepted recovery request leaves. -/
structure Armed (before after : DraftStore) : Prop where
  rows : SameRows before after
  uncertainty : after.uncertainty = before.uncertainty
  recovery : ∃ dueAt, after.recovery = before.recovery.request dueAt

theorem setRecoveryNeeded_ok {observedAt dueAt failureCount : ℕ} {expected : Option ℕ}
    (hexpected : expected = none ∨ store.runtime.bind (·.recoveryClaimedAt) = expected)
    {result : Bool × DraftStore}
    (h : store.setRecoveryNeeded reason observedAt dueAt failureCount expected = .ok result) :
    Armed store result.2 := by
  rw [setRecoveryNeeded] at h
  split at h
  · cases h
  · cases hruntime : store.runtime with
    | none => simp [hruntime] at h
    | some runtime =>
      rw [hruntime] at h
      simp only at h
      split at h
      · cases h
      · rename_i accountId haccount
        rw [hruntime, Option.bind_some] at hexpected
        rw [if_pos hexpected] at h
        obtain rfl := Except.ok.inj h
        change Armed store (updateSyncState _ accountId _)
        have hsame : SameRows store
            { store with
              runtime := some
                { runtime with
                  recoveryDueAt := some dueAt, recoveryClaimedAt := none
                  recoveryFailureCount := failureCount } } :=
          sameRows_runtime store (revisionCounter_of_some hruntime).symm
        refine ⟨hsame.trans (sameRows_updateSyncState _ _ fun _ => OrderLe.refl _), ?_, dueAt, ?_⟩
        · rw [updateSyncState_uncertainty]
        · refine (recovery_updateSyncState .recoveryNeeded ?_ ?_).trans ?_
          · exact haccount
          · exact fun _ => rfl
          · simp [DraftStore.recovery, RecoveryView.request, hruntime]

/-- A recovery request that does not raise is accepted. -/
theorem invalidateRecoveryClaim_ok {observedAt : ℕ}
    (h : store.invalidateRecoveryClaim env reason observedAt = .ok after) : Armed store after := by
  rw [invalidateRecoveryClaim] at h
  cases hruntime : store.runtime with
  | none => simp [hruntime] at h
  | some runtime =>
    rw [hruntime] at h
    simp only at h
    cases hclaim : runtime.recoveryClaimedAt with
    | none =>
      rw [hclaim] at h
      obtain ⟨result, hresult, rfl⟩ := except_map_eq_ok.mp h
      exact setRecoveryNeeded_ok (Or.inl rfl) hresult
    | some claim =>
      rw [hclaim] at h
      simp only at h
      split at h
      · cases h
      · obtain ⟨result, hresult, rfl⟩ := except_map_eq_ok.mp h
        refine setRecoveryNeeded_ok (Or.inr ?_) hresult
        rw [hruntime, Option.bind_some, hclaim]

theorem markRecoveryNeeded_ok {observedAt : ℤ}
    (h : store.markRecoveryNeeded env reason observedAt = .ok after) : Armed store after := by
  obtain ⟨instant, -, h⟩ := except_bind_eq_ok.mp h
  exact invalidateRecoveryClaim_ok h

end DraftStore

end McpTelegram
