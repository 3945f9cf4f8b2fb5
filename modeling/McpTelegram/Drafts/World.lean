import McpTelegram.Drafts.Outcomes
import McpTelegram.Foundations.Run

/-!
# Runs of the draft projection

The public operations of the projection, each with what it reads from outside, and what a binding,
a claim and a release do when they return.
-/

namespace McpTelegram

open Foundations

variable {claimToken : ℕ} {restored : Bool}

/-- An operation on the projection. -/
inductive DraftOperation where
  | bindAccount (accountId : ℤ)
  | applyRealtime (observation : DraftObservation)
  | applySnapshot (observations : List DraftObservation) (coverage : SnapshotCoverage)
      (claimToken : ℕ)
  | markRecoveryNeeded (reason : String) (observedAt : ℤ)
  | claimRecovery (now : ℤ)
  | claimMutationPreflight (now : ℤ)
  | releaseRecoveryClaim (claimToken : ℕ) (dueAt : ℤ)

/-- What an operation returns. -/
inductive DraftReturn where
  | nothing
  | applied (result : DraftApplyResult)
  | claimed (token : Option ℕ)
  | released (restored : Bool)
  deriving DecidableEq

namespace DraftStore

variable {now dueAt : ℤ} {token : Option ℕ}

/-- One operation. -/
def perform (env : DraftEnv) (reads : DraftReads) (store : DraftStore) :
    DraftOperation → Except DraftError (DraftReturn × DraftStore)
  | .bindAccount accountId => (store.bindAccount reads accountId).map fun after => (.nothing, after)
  | .applyRealtime observation =>
    (store.applyRealtime env reads observation).map fun returned => (.applied returned.1, returned.2)
  | .applySnapshot observations coverage claimToken =>
    (store.applySnapshot env reads observations coverage claimToken).map fun returned =>
      (.applied returned.1, returned.2)
  | .markRecoveryNeeded reason observedAt =>
    (store.markRecoveryNeeded env reason observedAt).map fun after => (.nothing, after)
  | .claimRecovery now =>
    (store.claimRecovery now).map fun returned => (.claimed returned.1, returned.2)
  | .claimMutationPreflight now =>
    (store.claimMutationPreflight env now).map fun returned => (.claimed returned.1, returned.2)
  | .releaseRecoveryClaim claimToken dueAt =>
    (store.releaseRecoveryClaim claimToken dueAt).map fun returned =>
      (.released returned.1, returned.2)

/-- The store after an operation: one that raises is rolled back. -/
def commit (env : DraftEnv) (store : DraftStore) (call : DraftReads × DraftOperation) :
    DraftStore :=
  match store.perform env call.1 call.2 with
  | .ok (_, after) => after
  | .error _ => store

/-- The store after a list of operations. -/
def performEach (env : DraftEnv) (store : DraftStore)
    (calls : List (DraftReads × DraftOperation)) : DraftStore :=
  calls.foldl (commit env) store

variable {env : DraftEnv} {reads : DraftReads} {store after : DraftStore}

/-! ## Binding, claiming and releasing -/

theorem sameRows_bindAccount {accountId : ℤ} (h : store.bindAccount reads accountId = .ok after) :
    SameRows store after := by
  have hfloor : ∀ account, OrderLe (store.sourceOrderFloor account)
      ((store.syncState.put accountId ((store.syncState accountId).getD
        { status := .unknown, coverageStatus := .unknown }) account).bind
          (·.sourceOrderFloor)) := by
    intro account
    rw [sourceOrderFloor, Table.put_apply]
    split_ifs with haccount
    · rw [haccount]
      cases store.syncState accountId with
      | none => exact OrderLe.none _
      | some state => exact OrderLe.refl _
    · exact OrderLe.refl _
  have hcounter : (store.runtime.getD {}).projectionRevision = store.revisionCounter := by
    rw [revisionCounter]
    cases store.runtime <;> rfl
  unfold bindAccount at h
  split at h
  · cases h
  · simp only at h
    split at h
    · obtain rfl := Except.ok.inj h
      refine SameRows.trans ?_ (sameRows_updateSyncState _ _ fun _ => OrderLe.refl _)
      exact ⟨rfl, rfl, rfl, rfl, hcounter, hfloor⟩
    · obtain rfl := Except.ok.inj h
      exact ⟨rfl, rfl, rfl, rfl, hcounter, hfloor⟩

/-- A claim is granted when the recovery is due, or nothing changes. -/
theorem claimRecovery_ok (h : store.claimRecovery now = .ok (token, after)) :
    (token = none ∧ after = store) ∨ ∃ instant runtime accountId, token = some instant ∧
      store.runtime = some runtime ∧ runtime.accountId = some accountId ∧
      after = ({ store with
          runtime := some
            { runtime with
              recoveryDueAt := none, recoveryClaimedAt := some instant } }).updateSyncState
        accountId fun state => { state with status := .recovering, coverageStatus := .incomplete } := by
  obtain ⟨instant, -, h⟩ := except_bind_eq_ok.mp h
  cases hruntime : store.runtime with
  | none =>
    rw [hruntime] at h
    obtain ⟨rfl, rfl⟩ := Prod.mk.inj (Except.ok.inj h)
    exact Or.inl ⟨rfl, rfl⟩
  | some runtime =>
    rw [hruntime] at h
    simp only at h
    split at h
    · rename_i accountId dueAt haccount hdue
      split at h
      · obtain ⟨rfl, rfl⟩ := Prod.mk.inj (Except.ok.inj h)
        exact Or.inl ⟨rfl, rfl⟩
      · obtain ⟨rfl, rfl⟩ := Prod.mk.inj (Except.ok.inj h)
        exact Or.inr ⟨instant, runtime, accountId, rfl, rfl, haccount, rfl⟩
    · obtain ⟨rfl, rfl⟩ := Prod.mk.inj (Except.ok.inj h)
      exact Or.inl ⟨rfl, rfl⟩

/-- A preflight is refused under a claim; otherwise it requests a recovery and claims it. -/
theorem claimMutationPreflight_ok (h : store.claimMutationPreflight env now = .ok (token, after)) :
    (token = none ∧ after = store) ∨
      ∃ middle, Armed store middle ∧ middle.claimRecovery now = .ok (token, after) := by
  obtain ⟨instant, -, h⟩ := except_bind_eq_ok.mp h
  split at h
  · obtain ⟨rfl, rfl⟩ := Prod.mk.inj (Except.ok.inj h)
    exact Or.inl ⟨rfl, rfl⟩
  · obtain ⟨middle, hmark, h⟩ := except_bind_eq_ok.mp h
    exact Or.inr ⟨middle, markRecoveryNeeded_ok hmark, h⟩

/-- A release restores the due time of the claim that it names, or nothing changes. -/
theorem releaseRecoveryClaim_ok
    (h : store.releaseRecoveryClaim claimToken dueAt = .ok (restored, after)) :
    (after = store ∧ store.runtime.bind (·.recoveryClaimedAt) ≠ some claimToken) ∨
      ∃ due runtime released, store.runtime = some runtime ∧
        released = { store with
          runtime := some { runtime with recoveryDueAt := some due, recoveryClaimedAt := none } } ∧
        ((runtime.accountId = none ∧ after = released) ∨
          ∃ accountId, runtime.accountId = some accountId ∧
            after = released.updateSyncState accountId fun state =>
              { state with status := .recoveryNeeded, coverageStatus := .unknown }) := by
  obtain ⟨due, -, h⟩ := except_bind_eq_ok.mp h
  cases hruntime : store.runtime with
  | none =>
    rw [hruntime] at h
    obtain ⟨rfl, rfl⟩ := Prod.mk.inj (Except.ok.inj h)
    exact Or.inl ⟨rfl, by simp⟩
  | some runtime =>
    rw [hruntime] at h
    simp only at h
    split at h
    · rename_i hclaim
      obtain ⟨rfl, rfl⟩ := Prod.mk.inj (Except.ok.inj h)
      exact Or.inl ⟨rfl, by simpa using hclaim⟩
    · split at h
      · rename_i hunbound
        obtain ⟨rfl, rfl⟩ := Prod.mk.inj (Except.ok.inj h)
        exact Or.inr ⟨due, runtime, _, rfl, rfl, Or.inl ⟨hunbound, rfl⟩⟩
      · rename_i accountId haccount
        obtain ⟨rfl, rfl⟩ := Prod.mk.inj (Except.ok.inj h)
        exact Or.inr ⟨due, runtime, _, rfl, rfl, Or.inr ⟨accountId, haccount, rfl⟩⟩

theorem sameRows_claimRecovery (h : store.claimRecovery now = .ok (token, after)) :
    SameRows store after := by
  rcases claimRecovery_ok h with ⟨-, rfl⟩ | ⟨instant, runtime, accountId, -, hruntime, -, rfl⟩
  · exact SameRows.refl _
  · refine SameRows.trans ?_ (sameRows_updateSyncState _ _ fun _ => OrderLe.refl _)
    exact sameRows_runtime store (revisionCounter_of_some hruntime).symm

theorem sameRows_claimMutationPreflight
    (h : store.claimMutationPreflight env now = .ok (token, after)) : SameRows store after := by
  rcases claimMutationPreflight_ok h with ⟨-, rfl⟩ | ⟨middle, harmed, hclaim⟩
  · exact SameRows.refl _
  · exact harmed.rows.trans (sameRows_claimRecovery hclaim)

theorem sameRows_releaseRecoveryClaim
    (h : store.releaseRecoveryClaim claimToken dueAt = .ok (restored, after)) :
    SameRows store after := by
  rcases releaseRecoveryClaim_ok h with
    ⟨rfl, -⟩ | ⟨due, runtime, released, hruntime, rfl, ⟨-, rfl⟩ | ⟨accountId, -, rfl⟩⟩
  · exact SameRows.refl _
  · exact sameRows_runtime store (revisionCounter_of_some hruntime).symm
  · refine SameRows.trans ?_ (sameRows_updateSyncState _ _ fun _ => OrderLe.refl _)
    exact sameRows_runtime store (revisionCounter_of_some hruntime).symm

end DraftStore

end McpTelegram
