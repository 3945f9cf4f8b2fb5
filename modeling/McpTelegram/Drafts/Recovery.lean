import McpTelegram.Drafts.Order

/-!
# Recovery of the drafts

A snapshot run claims the recovery, fetches all drafts and publishes them under its token.  An
observation that arrives in between takes the claim away and makes the recovery due again, so the
run that is overtaken publishes nothing.  The recovery of the bound account is a view of four
values, and each operation changes it in one of a few ways.
-/

namespace McpTelegram

open Foundations

variable {claimToken : ℕ} {now accountId : ℤ} {token : Option ℕ}

/-- An observation that overtakes a snapshot run: it advanced, or it was rejected as ambiguous. -/
def DraftApplyResult.overtakes (result : DraftApplyResult) : Bool :=
  (result.accepted && result.decision = .advanced) || (!result.accepted && result.ambiguous)

namespace DraftStore

variable {env : DraftEnv} {reads : DraftReads} {store after : DraftStore}
variable {scope : DraftScope} {candidate : DraftValues} {result : DraftApplyResult}

/-! ## What the operations do to the recovery -/

theorem published_recovery {runtime : DraftRuntime} (scope : DraftScope) (values : DraftValues)
    (now : ℕ) (hruntime : store.runtime = some runtime) :
    (store.published runtime scope values now).recovery = store.recovery := by
  have hpublished : (store.published runtime scope values now).runtime =
      some { runtime with projectionRevision := runtime.projectionRevision + 1 } := rfl
  simp only [recovery, hpublished, published_syncState, hruntime, Option.bind_some]

/-- One scope of a snapshot leaves the recovery alone. -/
theorem ScopeSettled.recovery_eq (h : ScopeSettled reads scope candidate store after) :
    after.recovery = store.recovery := by
  cases h with
  | older h => rfl
  | refreshed row hrow hnewer hmatches => rfl
  | published runtime hruntime haccount hnewer hdiffers =>
    exact published_recovery scope candidate reads.now hruntime

theorem recoveryClaimActive_eq_false (h : store.recoveryClaimActive = false) :
    store.recovery.claim = none := by
  simpa [recoveryClaimActive, recovery] using h

theorem recoveryPending_eq_false (h : store.recoveryPending = false) :
    store.recovery.due = none ∧ store.recovery.claim = none := by
  rw [recoveryPending] at h
  rw [recovery]
  cases hruntime : store.runtime with
  | none => exact ⟨rfl, rfl⟩
  | some runtime =>
    rw [hruntime] at h
    simpa using h

theorem recoveryPending_eq (store : DraftStore) : store.recoveryPending =
    (store.recovery.due.isSome || store.recovery.claim.isSome) := by
  rw [recoveryPending, recovery]
  cases store.runtime <;> rfl

theorem RecoveryView.withStatus_ne (view : RecoveryView) {status other : DraftSyncStatus}
    (h : status ≠ other) : (view.withStatus status).status ≠ some other := by
  rw [RecoveryView.withStatus]
  cases view.status <;> simp [h]

/-- What an observation does to the recovery: nothing, and then it overtakes no claim; it requests
the recovery; or, with no recovery pending, the account is ready. -/
theorem RealtimeOutcome.recovery_eq (hbound : store.recovery.account = some scope.accountId)
    (h : RealtimeOutcome env reads scope candidate store result after) :
    (after.recovery = store.recovery ∧
        (result.overtakes = true → store.recovery.claim = none)) ∨
      (∃ dueAt, after.recovery = store.recovery.request dueAt) ∨
      store.recovery.claim = none ∧ after.recovery = store.recovery.withStatus .ready := by
  cases h with
  | kept hdecision hambiguous =>
    refine Or.inl ⟨rfl, fun hovertakes => ?_⟩
    simp only [DraftApplyResult.overtakes] at hovertakes
    cases haccepted : result.accepted <;> simp_all
  | requested marked after hmarked hrecovery harmed hdecision =>
    obtain ⟨dueAt, hdue⟩ := harmed.recovery
    exact Or.inr (Or.inl ⟨dueAt, by rw [hdue, hrecovery]⟩)
  | refreshed middle row hunclaimed hadvances hrow hmatches haccepted =>
    rcases hunclaimed with ⟨-, harmed⟩ | ⟨hinactive, rfl⟩
    · exact Or.inr (Or.inl harmed.recovery)
    · exact Or.inl ⟨rfl, fun _ => recoveryClaimActive_eq_false hinactive⟩
  | published middle after runtime hunclaimed hadvances hdiffers hruntime haccount haccepted
      hafter =>
    have hpublished := published_recovery scope candidate reads.now hruntime
    rcases hafter with rfl | ⟨hpending, rfl⟩
    · rcases hunclaimed with ⟨-, harmed⟩ | ⟨hinactive, rfl⟩
      · obtain ⟨dueAt, hdue⟩ := harmed.recovery
        exact Or.inr (Or.inl ⟨dueAt, by rw [hpublished, hdue]⟩)
      · exact Or.inl ⟨hpublished, fun _ => recoveryClaimActive_eq_false hinactive⟩
    · have hnotPending := recoveryPending_eq_false hpending
      rw [hpublished] at hnotPending
      have hmiddle : middle = store := by
        rcases hunclaimed with ⟨-, harmed⟩ | ⟨-, rfl⟩
        · obtain ⟨dueAt, hdue⟩ := harmed.recovery
          rw [hdue] at hnotPending
          exact absurd hnotPending.1 (Option.some_ne_none dueAt)
        · rfl
      rw [hmiddle] at hpublished hnotPending
      refine Or.inr (Or.inr ⟨hnotPending.2, ?_⟩)
      rw [hmiddle, recovery_updateSyncState .ready (by rw [hpublished, hbound]) fun _ => rfl,
        hpublished]

/-- What a snapshot does to the recovery.  It is accepted and completes it; or it changes nothing at
all; or some scope stays uncertain, and then the recovery stays as it is. -/
theorem applySnapshot_recovery {observations : List DraftObservation} {coverage : SnapshotCoverage}
    (h : store.applySnapshot env reads observations coverage claimToken = .ok (result, after)) :
    (result.accepted = true ∧
      after.recovery = { store.recovery with due := none, claim := none }.withStatus .ready) ∨
    (result.accepted = false ∧ after = store) ∨
    result.accepted = false ∧ result.decision = .snapshotScopeUncertain ∧
      after.hasScopeUncertainty reads coverage.accountId = true ∧
      after.recovery = store.recovery := by
  rcases applySnapshot_ok h with ⟨rfl, haccepted, -⟩ | ⟨sourceOrderAt, deduplicated, changed,
    changed', middle, middle', instant, hclaim, hbound, -, -, hrows, habsences, -, hmark, hdecision⟩
  · exact Or.inr (Or.inl ⟨haccepted, rfl⟩)
  · have hview : middle'.recovery = store.recovery := by
      refine snapshot_invariant (I := fun other => other.recovery = store.recovery) ?_ ?_ rfl
        hrows habsences
      · exact fun _ _ _ _ hother hsettled => hsettled.recovery_eq.trans hother
      · exact fun _ _ _ hother hsettled => hsettled.recovery_eq.trans hother
    have haccount : middle'.recovery.account = some coverage.accountId := by
      rw [hview]
      exact hbound
    have hclaimed : middle'.recovery.claim = some claimToken := by
      rw [hview]
      exact of_decide_eq_true hclaim
    unfold markSnapshotComplete at hmark
    split at hmark
    · rename_i huncertain
      obtain ⟨haccepted, rfl⟩ := Prod.mk.inj hmark
      refine Or.inr (Or.inr ⟨haccepted, hdecision haccepted, ?_, ?_⟩)
      · rw [hasScopeUncertainty, updateSyncState_uncertainty]
        exact huncertain
      · refine (recovery_updateSyncState_of_eq middle' _ ?_).trans hview
        exact fun _ => rfl
    · cases hruntime : middle'.runtime with
      | none =>
        rw [recovery, hruntime] at haccount
        cases haccount
      | some runtime =>
        rw [hruntime] at hmark
        have hmatches : runtime.recoveryClaimedAt = some claimToken := by
          simpa [recovery, hruntime] using hclaimed
        simp only [hmatches, if_pos] at hmark
        obtain ⟨haccepted, rfl⟩ := Prod.mk.inj hmark
        refine Or.inl ⟨haccepted, ?_⟩
        have hboundRuntime : runtime.accountId = some coverage.accountId := by
          simpa [recovery, hruntime] using haccount
        refine (recovery_updateSyncState .ready ?_ fun _ => rfl).trans ?_
        · exact hboundRuntime
        · rw [← hview]
          simp [recovery, hruntime, RecoveryView.withStatus]

/-- A claim is refused, or it takes the recovery over. -/
theorem claimRecovery_recovery (h : store.claimRecovery now = .ok (token, after)) :
    (token = none ∧ after.recovery = store.recovery) ∨
      after.recovery = { store.recovery with due := none, claim := token }.withStatus
        .recovering := by
  rcases claimRecovery_ok h with ⟨rfl, rfl⟩ | ⟨instant, runtime, accountId, rfl, hruntime,
    haccount, rfl⟩
  · exact Or.inl ⟨rfl, rfl⟩
  · refine Or.inr ((recovery_updateSyncState .recovering ?_ fun _ => rfl).trans ?_)
    · exact haccount
    · simp [recovery, hruntime, RecoveryView.withStatus]

/-- A release does nothing, or it makes the recovery due. -/
theorem releaseRecoveryClaim_recovery {dueAt : ℤ} {restored : Bool}
    (h : store.releaseRecoveryClaim claimToken dueAt = .ok (restored, after)) :
    after.recovery = store.recovery ∨ ∃ dueAt, after.recovery = store.recovery.request dueAt := by
  rcases releaseRecoveryClaim_ok h with
    ⟨rfl, -⟩ | ⟨due, runtime, released, hruntime, rfl, ⟨hunbound, rfl⟩ | ⟨accountId, haccount, rfl⟩⟩
  · exact Or.inl rfl
  · refine Or.inr ⟨due, ?_⟩
    simp [recovery, hruntime, hunbound, RecoveryView.request, RecoveryView.withStatus]
  · refine Or.inr ⟨due, (recovery_updateSyncState .recoveryNeeded ?_ fun _ => rfl).trans ?_⟩
    · exact haccount
    · simp [recovery, hruntime, RecoveryView.request, RecoveryView.withStatus]

/-- The account was in recovery when it was bound, and nothing that the binding looks at makes a
recovery due. -/
def carriesRecovery (store : DraftStore) (reads : DraftReads) (accountId : ℤ) : Bool :=
  (store.syncState accountId).any (·.status = .recoveryNeeded) &&
    !store.legacyOrderPending accountId && !store.hasScopeUncertainty reads accountId

/-- A binding leaves no claim, and it makes the recovery due unless it carries it over. -/
theorem bindAccount_recovery (h : store.bindAccount reads accountId = .ok after) :
    after.recovery.claim = none ∧ after.recovery.status.isSome = true ∧
      (after.recovery.status = some .recoveryNeeded → after.recovery.due = none →
        store.carriesRecovery reads accountId = true) := by
  unfold bindAccount at h
  split at h
  · cases h
  · simp only at h
    split at h
    · obtain rfl := Except.ok.inj h
      simp [recovery, updateSyncState_apply]
    · rename_i hidle
      obtain rfl := Except.ok.inj h
      rw [Bool.not_eq_true, Bool.or_eq_false_iff] at hidle
      obtain ⟨hlegacy, huncertain⟩ := hidle
      refine ⟨rfl, by simp [recovery], fun hstatus _ => ?_⟩
      simp only [recovery, Option.bind_some, Table.put_self, Option.map_some,
        Option.some_inj] at hstatus
      cases hstate : store.syncState accountId with
      | none => simp [hstate] at hstatus
      | some state =>
        rw [hstate, Option.getD_some] at hstatus
        have hfloor : (store.legacyOrderPending accountId) = false := by
          simpa [legacyOrderPending, sourceOrderFloor, hstate] using hlegacy
        have hmarks : store.hasScopeUncertainty reads accountId = false := huncertain
        simp [carriesRecovery, hstate, hstatus, hfloor, hmarks]

end DraftStore

/-! ## The world of a snapshot owner -/

/-- The store, and what has happened since the run in flight claimed and since the last binding. -/
structure DraftWorld where
  store : DraftStore
  /-- The token of the snapshot run in flight. -/
  run : Option ℕ := none
  /-- Since the run claimed, an observation overtook it or a recovery was requested. -/
  disturbed : Bool := false
  /-- The last binding carried a recovery over, and none has been pending since. -/
  carried : Bool := false

/-- What happens: an operation, or the run in flight ends without another call. -/
inductive DraftAction where
  | operate (reads : DraftReads) (operation : DraftOperation)
  | leave

namespace DraftWorld

open DraftStore

variable {view : RecoveryView} {store : DraftStore}

/-- The run in flight has ended. -/
def ended (world : DraftWorld) : DraftWorld := { world with run := none, disturbed := false }

/-- The world with another store. -/
def advance (world : DraftWorld) (after : DraftStore) : DraftWorld :=
  { world with store := after, carried := world.carried && !after.recoveryPending }

/-- One step.  A binding follows a crash, so no run survives it.  A claim needs that no run is in
flight, and a run publishes and releases under its own token.  What raises is rolled back. -/
def step (env : DraftEnv) (world : DraftWorld) : DraftAction → Option DraftWorld
  | .leave => some world.ended
  | .operate reads (.bindAccount accountId) =>
    match world.store.bindAccount reads accountId with
    | .ok after =>
      some { store := after, carried := world.store.carriesRecovery reads accountId }
    | .error _ => some world.ended
  | .operate reads (.applyRealtime observation) =>
    match world.store.applyRealtime env reads observation with
    | .ok (result, after) =>
      some { world.advance after with disturbed := world.disturbed || result.overtakes }
    | .error _ => some world
  | .operate reads (.applySnapshot observations coverage claimToken) =>
    if world.run = some claimToken then
      match world.store.applySnapshot env reads observations coverage claimToken with
      | .ok (result, after) =>
        some (if result.accepted then (world.advance after).ended else world.advance after)
      | .error _ => some world
    else none
  | .operate _ (.markRecoveryNeeded reason observedAt) =>
    match world.store.markRecoveryNeeded env reason observedAt with
    | .ok after => some { world.advance after with disturbed := true }
    | .error _ => some world
  | .operate _ (.claimRecovery now) =>
    if world.run = none then
      match world.store.claimRecovery now with
      | .ok (token, after) => some { world.advance after with run := token, disturbed := false }
      | .error _ => some world
    else none
  | .operate _ (.claimMutationPreflight now) =>
    if world.run = none then
      match world.store.claimMutationPreflight env now with
      | .ok (token, after) => some { world.advance after with run := token, disturbed := false }
      | .error _ => some world
    else none
  | .operate _ (.releaseRecoveryClaim claimToken dueAt) =>
    if world.run = some claimToken then
      match world.store.releaseRecoveryClaim claimToken dueAt with
      | .ok (_, after) => some (world.advance after).ended
      | .error _ => some world
    else none

/-- The invariant of a world whose account was bound. -/
structure Recoverable (world : DraftWorld) : Prop where
  /-- A claimed recovery is under way. -/
  claimed : world.store.recovery.claim ≠ none → world.store.recovery.status ≠ some .recoveryNeeded
  /-- The claim of a run that was overtaken is gone. -/
  overtaken : world.run ≠ none → world.disturbed = true → world.store.recovery.claim = none
  /-- A recovery that is needed is due, or it was carried over. -/
  due : world.store.recovery.status = some .recoveryNeeded →
    world.store.recovery.due ≠ none ∨ world.carried = true

variable {env : DraftEnv} {world world' : DraftWorld}

theorem recoverable_of_unclaimed (hclaim : world.store.recovery.claim = none)
    (hdue : world.store.recovery.status = some .recoveryNeeded →
      world.store.recovery.due ≠ none ∨ world.carried = true) : Recoverable world :=
  ⟨fun h => absurd hclaim h, fun _ _ => hclaim, hdue⟩

theorem recoverable_of_request (h : ∃ dueAt, world.store.recovery = view.request dueAt) :
    Recoverable world := by
  obtain ⟨dueAt, h⟩ := h
  refine recoverable_of_unclaimed (by rw [h]; rfl) fun _ => Or.inl ?_
  rw [h]
  exact Option.some_ne_none dueAt

theorem recoverable_of_ready (hclaim : view.claim = none)
    (h : world.store.recovery = view.withStatus .ready) : Recoverable world := by
  refine recoverable_of_unclaimed (by rw [h]; exact hclaim) fun hneeded => ?_
  rw [h] at hneeded
  exact absurd hneeded (view.withStatus_ne (by decide))

/-- A step that leaves the recovery alone keeps the invariant. -/
theorem Recoverable.kept (h : Recoverable world)
    (hrecovery : world'.store.recovery = world.store.recovery)
    (hcarried : world'.carried = (world.carried && !world'.store.recoveryPending))
    (hovertaken : world'.run ≠ none → world'.disturbed = true → world.store.recovery.claim = none) :
    Recoverable world' := by
  refine ⟨?_, ?_, ?_⟩
  · rw [hrecovery]
    exact h.claimed
  · rw [hrecovery]
    exact hovertaken
  · intro hneeded
    rw [hcarried, recoveryPending_eq]
    rw [hrecovery] at hneeded ⊢
    have hclaim : world.store.recovery.claim = none :=
      not_not.mp fun hclaim => h.claimed hclaim hneeded
    cases hdue : world.store.recovery.due with
    | some dueAt => exact Or.inl (Option.some_ne_none dueAt)
    | none =>
      rcases h.due hneeded with hsome | hcarried
      · exact absurd hdue hsome
      · exact Or.inr (by simp [hcarried, hclaim])

theorem Recoverable.ended (h : Recoverable world) : Recoverable world.ended :=
  ⟨h.claimed, fun hrun => absurd rfl hrun, h.due⟩

/-- A claim of the recovery keeps the invariant. -/
theorem Recoverable.claim (h : Recoverable world) {after : DraftStore}
    (hclaim : world.store.claimRecovery now = .ok (token, after)) :
    Recoverable { world.advance after with run := token, disturbed := false } := by
  rcases claimRecovery_recovery hclaim with ⟨-, hkept⟩ | hclaimed
  · exact h.kept hkept rfl fun _ hfalse => Bool.noConfusion hfalse
  · have hstatus : after.recovery.status ≠ some .recoveryNeeded := by
      rw [hclaimed]
      exact RecoveryView.withStatus_ne _ (by decide)
    exact ⟨fun _ => hstatus, fun _ hfalse => Bool.noConfusion hfalse,
      fun hneeded => absurd hneeded hstatus⟩

/-- Every step keeps the invariant. -/
theorem Recoverable.step (h : Recoverable world) {action : DraftAction}
    (hstep : step env world action = some world') : Recoverable world' := by
  cases action with
  | leave =>
    obtain rfl := Option.some_inj.mp hstep
    exact h.ended
  | operate reads operation =>
    cases operation with
    | bindAccount accountId =>
      simp only [DraftWorld.step] at hstep
      split at hstep
      · rename_i after hbind
        obtain rfl := Option.some_inj.mp hstep
        obtain ⟨hclaim, -, hcarries⟩ := bindAccount_recovery hbind
        exact recoverable_of_unclaimed hclaim fun hneeded =>
          or_iff_not_imp_left.mpr fun hdue => hcarries hneeded (not_not.mp hdue)
      · obtain rfl := Option.some_inj.mp hstep
        exact h.ended
    | applyRealtime observation =>
      simp only [DraftWorld.step] at hstep
      split at hstep
      · rename_i result after happly
        obtain rfl := Option.some_inj.mp hstep
        obtain ⟨candidate, -, hbound, houtcome⟩ := applyRealtime_outcome happly
        rcases houtcome.recovery_eq hbound with ⟨hkept, hovertakes⟩ | hrequest | ⟨hclaim, hready⟩
        · refine h.kept hkept rfl fun hrun hdisturbed => ?_
          rcases Bool.or_eq_true _ _ ▸ hdisturbed with hbefore | hnow
          · exact h.overtaken hrun hbefore
          · exact hovertakes hnow
        · exact recoverable_of_request hrequest
        · exact recoverable_of_ready hclaim hready
      · obtain rfl := Option.some_inj.mp hstep
        exact h
    | applySnapshot observations coverage claimToken =>
      simp only [DraftWorld.step] at hstep
      split at hstep
      · split at hstep
        · rename_i result after happly
          obtain rfl := Option.some_inj.mp hstep
          rcases applySnapshot_recovery happly with ⟨haccepted, hready⟩ | ⟨haccepted, rfl⟩ |
            ⟨haccepted, -, -, hkept⟩
          · rw [haccepted, if_pos rfl]
            exact recoverable_of_ready rfl hready
          · rw [haccepted]
            exact h.kept rfl rfl h.overtaken
          · rw [haccepted]
            exact h.kept hkept rfl h.overtaken
        · obtain rfl := Option.some_inj.mp hstep
          exact h
      · cases hstep
    | markRecoveryNeeded reason observedAt =>
      simp only [DraftWorld.step] at hstep
      split at hstep
      · rename_i after hmark
        obtain rfl := Option.some_inj.mp hstep
        exact recoverable_of_request (markRecoveryNeeded_ok hmark).recovery
      · obtain rfl := Option.some_inj.mp hstep
        exact h
    | claimRecovery now =>
      simp only [DraftWorld.step] at hstep
      split at hstep
      · split at hstep
        · rename_i token after hclaim
          obtain rfl := Option.some_inj.mp hstep
          exact h.claim hclaim
        · obtain rfl := Option.some_inj.mp hstep
          exact h
      · cases hstep
    | claimMutationPreflight now =>
      simp only [DraftWorld.step] at hstep
      split at hstep
      · split at hstep
        · rename_i token after hclaim
          obtain rfl := Option.some_inj.mp hstep
          rcases claimMutationPreflight_ok hclaim with ⟨-, rfl⟩ | ⟨middle, harmed, hclaim⟩
          · exact h.kept rfl rfl fun _ hfalse => Bool.noConfusion hfalse
          · have hmiddle : Recoverable { world with store := middle } :=
              recoverable_of_request harmed.recovery
            exact hmiddle.claim hclaim
        · obtain rfl := Option.some_inj.mp hstep
          exact h
      · cases hstep
    | releaseRecoveryClaim claimToken dueAt =>
      simp only [DraftWorld.step] at hstep
      split at hstep
      · split at hstep
        · rename_i restored after hrelease
          obtain rfl := Option.some_inj.mp hstep
          rcases releaseRecoveryClaim_recovery hrelease with hkept | hrequest
          · exact h.kept hkept rfl fun hrun => absurd rfl hrun
          · exact recoverable_of_request hrequest
        · obtain rfl := Option.some_inj.mp hstep
          exact h
      · cases hstep

/-! ## Runs -/

/-- The first binding of a run establishes the invariant, whatever store it finds. -/
theorem recoverable_of_bind {reads : DraftReads} (haccount : accountId ≠ 0)
    (hstep : step env { store } (.operate reads (.bindAccount accountId)) = some world) :
    Recoverable world := by
  simp only [DraftWorld.step] at hstep
  split at hstep
  · rename_i after hbind
    obtain rfl := Option.some_inj.mp hstep
    obtain ⟨hclaim, -, hcarries⟩ := bindAccount_recovery hbind
    exact recoverable_of_unclaimed hclaim fun hneeded =>
      or_iff_not_imp_left.mpr fun hdue => hcarries hneeded (not_not.mp hdue)
  · rename_i error hbind
    rw [bindAccount, if_neg haccount] at hbind
    simp only at hbind
    split at hbind <;> cases hbind

/-- A run whose claim is gone publishes nothing: its snapshot raises or is superseded, and the
store stays as it is. -/
theorem applySnapshot_superseded {token : ℕ} (hclaim : store.recovery.claim = none)
    (reads : DraftReads) (observations : List DraftObservation) (coverage : SnapshotCoverage) :
    store.applySnapshot env reads observations coverage token = (do
      validateSnapshotInputs observations coverage
      store.requireActiveAccount coverage.accountId
      return ({ accepted := false, decision := .snapshotSuperseded }, store)) := by
  have hmatches : store.claimMatches token = false := by
    have hnone : store.runtime.bind (·.recoveryClaimedAt) = none := hclaim
    simp [claimMatches, hnone]
  rw [applySnapshot]
  simp only [hmatches, Bool.not_false, if_true]

/-- The snapshot runs of an owner, of which at most one is in flight, from any store that a binding
opens.  A run that was overtaken publishes nothing: its snapshot leaves the whole store as it is and
is not accepted.  A snapshot that is not accepted leaves the whole store as it is, unless a scope
of its account is still uncertain after the rows were settled; then the claim, the due time and the
status stay.  A recovery that is needed is due or claimed by the run in flight, unless the last
binding carried it over and no recovery has been pending since. -/
theorem recovery_not_lost {reads : DraftReads} {store : DraftStore} {accountId : ℤ}
    {actions : List DraftAction} (haccount : accountId ≠ 0)
    (h : Foundations.run (step env) { store }
      (.operate reads (.bindAccount accountId) :: actions) = some world) :
    (∀ token, world.run = some token → world.disturbed = true →
      ∀ reads observations coverage,
        world.store.commit env (reads, .applySnapshot observations coverage token) = world.store ∧
        ∀ result after, world.store.applySnapshot env reads observations coverage token =
          .ok (result, after) → result.accepted = false ∧ after = world.store) ∧
    (∀ token reads observations coverage result after,
      world.store.applySnapshot env reads observations coverage token = .ok (result, after) →
      result.accepted = false → after = world.store ∨
        result.decision = .snapshotScopeUncertain ∧
          after.hasScopeUncertainty reads coverage.accountId = true ∧
          after.recovery = world.store.recovery) ∧
    (world.store.recovery.status = some .recoveryNeeded →
      world.store.recovery.due ≠ none ∨
        (∃ token, world.run = some token ∧ world.store.recovery.claim = some token) ∨
        world.carried = true) := by
  have hsound : Recoverable world := by
    obtain ⟨bound, hbind, hrest⟩ := run_cons_eq_some.mp h
    exact run_invariant (I := Recoverable) (fun _ _ _ hbefore hstep => hbefore.step hstep)
      (recoverable_of_bind haccount hbind) hrest
  refine ⟨?_, ?_, ?_⟩
  · intro token hrun hdisturbed reads observations coverage
    have hclaim := hsound.overtaken (by simp [hrun]) hdisturbed
    have hkeeps : ∀ result after, world.store.applySnapshot env reads observations coverage token =
        .ok (result, after) → result.accepted = false ∧ after = world.store := by
      intro result after happly
      rw [applySnapshot_superseded hclaim] at happly
      obtain ⟨_, -, happly⟩ := except_bind_eq_ok.mp happly
      obtain ⟨_, -, happly⟩ := except_bind_eq_ok.mp happly
      obtain ⟨rfl, rfl⟩ := Prod.mk.inj (Except.ok.inj happly)
      exact ⟨rfl, rfl⟩
    refine ⟨?_, hkeeps⟩
    rw [commit]
    split
    · rename_i returned after hperform
      obtain ⟨⟨result, applied⟩, happly, heq⟩ := except_map_eq_ok.mp hperform
      obtain rfl := (Prod.mk.inj heq).2
      exact (hkeeps result applied happly).2
    · rfl
  · intro token reads observations coverage result after happly hrejected
    rcases applySnapshot_recovery happly with ⟨haccepted, -⟩ | ⟨-, hsame⟩ |
      ⟨-, hdecision, huncertain, hkept⟩
    · rw [haccepted] at hrejected
      cases hrejected
    · exact Or.inl hsame
    · exact Or.inr ⟨hdecision, huncertain, hkept⟩
  · intro hneeded
    rcases hsound.due hneeded with hdue | hcarried
    · exact Or.inl hdue
    · exact Or.inr (Or.inr hcarried)

/-! ## A partial snapshot and a second binding -/

/-- A scope whose order becomes uncertain. -/
def uncertainScope : DraftScope := { accountId := 100, dialogId := 217 }

/-- A scope that the snapshot omits. -/
def omittedScope : DraftScope := { accountId := 100, dialogId := 218 }

/-- A draft of a scope. -/
def sampleDraft (scope : DraftScope) (date : ℤ) : DraftObservation :=
  { scope, disposition := .present, source := .realtime, observedAt := 60
    composition := some { text := "draft", date := some date } }

/-- An undated tombstone. -/
def sampleTombstone (scope : DraftScope) : DraftObservation :=
  { scope, disposition := .tombstone, source := .realtime, observedAt := 60 }

/-- The envelope of an empty snapshot. -/
def sampleCoverage (order : ℤ) : SnapshotCoverage :=
  { accountId := 100, responseComplete := true, updateCount := 0, sourceOrderAt := some order }

/-- The clock of the samples. -/
def sampleReads : DraftReads := { now := 60 }

/-- An undated tombstone leaves a scope uncertain, and a run claims the recovery. -/
def partialRun : List DraftAction :=
  [.operate sampleReads (.bindAccount 100),
    .operate sampleReads (.applyRealtime (sampleDraft uncertainScope 50)),
    .operate sampleReads (.applyRealtime (sampleTombstone uncertainScope)),
    .operate sampleReads (.applyRealtime (sampleDraft omittedScope 10)),
    .operate sampleReads (.claimRecovery 60)]

/-- The process restarts before a requested recovery is claimed. -/
def reboundRun : List DraftAction :=
  [.operate sampleReads (.bindAccount 100),
    .operate sampleReads (.markRecoveryNeeded "startup" 60),
    .operate sampleReads (.bindAccount 100)]

/-- A snapshot that is not accepted clears the draft of an omitted scope, and a second binding
leaves a needed recovery neither due nor claimed. -/
theorem partial_publication_and_rebinding :
    (∃ world result after, Foundations.run (step {}) { store := {} } partialRun = some world ∧
      world.store.applySnapshot {} sampleReads [] (sampleCoverage 40) 60 = .ok (result, after) ∧
      result.accepted = false ∧
      after.rowForScope omittedScope ≠ world.store.rowForScope omittedScope) ∧
    ∃ world, Foundations.run (step {}) { store := {} } reboundRun = some world ∧
      world.store.recovery.status = some .recoveryNeeded ∧
      world.store.recovery.due = none ∧ world.store.recovery.claim = none := by
  refine ⟨⟨_, _, _, rfl, rfl, rfl, ?_⟩, _, rfl, rfl, rfl, rfl⟩
  decide +kernel

/-- A run that an observation overtakes. -/
def overtakenRun : List DraftAction :=
  [.operate sampleReads (.bindAccount 100),
    .operate sampleReads (.markRecoveryNeeded "startup" 60),
    .operate sampleReads (.claimRecovery 60),
    .operate sampleReads (.applyRealtime (sampleDraft omittedScope 10))]

theorem recovery_not_lost_sample :
    ∃ world, Foundations.run (step {}) { store := {} } overtakenRun = some world ∧
      world.store.commit {} (sampleReads, .applySnapshot [] (sampleCoverage 40) 60) =
        world.store := by
  have hrun : ∃ world, Foundations.run (step {}) { store := {} } overtakenRun = some world :=
    Option.isSome_iff_exists.mp (by decide +kernel)
  obtain ⟨world, hworld⟩ := hrun
  have hstate : (Foundations.run (step {}) { store := {} } overtakenRun).map
      (fun world => (world.run, world.disturbed)) = some (some 60, true) := by decide +kernel
  rw [hworld, Option.map_some, Option.some.injEq, Prod.mk.injEq] at hstate
  exact ⟨world, hworld, ((recovery_not_lost (by decide) hworld).1 60 hstate.1 hstate.2
    sampleReads [] (sampleCoverage 40)).1⟩

end DraftWorld

end McpTelegram
