import McpTelegram.Drafts.History

/-!
# The draft projection

`drafts/sqlite_projection.py`.  Every public function of the source runs in one savepoint: when it
raises, nothing of what it wrote stays.
-/

namespace McpTelegram

open Foundations

namespace DraftStore

variable (env : DraftEnv) (reads : DraftReads) (store : DraftStore)

/-! ## Reading -/

/-- `_require_active_account`. -/
def requireActiveAccount (accountId : ℤ) : Except DraftError Unit :=
  if store.runtime.bind (·.accountId) = some accountId then .ok ()
  else .error (.accountFence "draft projection account is not bound to this runtime")

/-- `_source_order_floor`. -/
def sourceOrderFloor (accountId : ℤ) : Option ℕ :=
  (store.syncState accountId).bind (·.sourceOrderFloor)

/-- The stored row of a scope; `_row_for_scope`. -/
def rowForScope (scope : DraftScope) : Option DraftValues :=
  (store.current.lookup scope).map (·.values)

/-- `_effective_order`. -/
def effectiveOrder (existing : Option DraftValues) (accountId : ℤ) : Option ℕ :=
  match store.sourceOrderFloor accountId, existing.bind (·.sourceOrderAt) with
  | some floor, some current => some (max floor current)
  | some floor, none => some floor
  | none, current => current

/-- `_legacy_order_pending`. -/
def legacyOrderPending (accountId : ℤ) : Bool :=
  store.sourceOrderFloor accountId = none && store.current.any fun scope row =>
    scope.accountId = accountId && row.values.sourceOrderAt = none

/-- `_scope_order_uncertain`. -/
def scopeOrderUncertain (scope : DraftScope) : Bool := (store.uncertainty.lookup scope).isSome

/-- `_has_scope_uncertainty`. -/
def hasScopeUncertainty (accountId : ℤ) : Bool :=
  store.uncertainty.any fun scope _ =>
    scope.accountId = accountId && !reads.accessLost scope.dialogId

/-- `_recovery_pending`. -/
def recoveryPending : Bool :=
  store.runtime.any fun runtime =>
    runtime.recoveryDueAt.isSome || runtime.recoveryClaimedAt.isSome

/-- `_recovery_claim_active`. -/
def recoveryClaimActive : Bool := (store.runtime.bind (·.recoveryClaimedAt)).isSome

/-- `_claim_matches`. -/
def claimMatches (claimToken : ℕ) : Bool :=
  store.runtime.bind (·.recoveryClaimedAt) = some claimToken

/-- `recovery_revision`. -/
def recoveryRevision (accountId : ℤ) : Option (Option DraftSyncStatus × ℕ) :=
  match store.runtime with
  | none => none
  | some runtime =>
    if runtime.accountId = some accountId then
      some ((store.syncState accountId).map (·.status), runtime.projectionRevision)
    else none

/-! ## Writing the bookkeeping -/

/-- An `UPDATE` of the sync state of an account, which changes nothing where there is no row. -/
def updateSyncState (accountId : ℤ) (change : DraftSyncState → DraftSyncState) : DraftStore :=
  match store.syncState accountId with
  | none => store
  | some state => { store with syncState := store.syncState.put accountId (change state) }

/-- `_mark_scope_uncertain`. -/
def markScopeUncertain (scope : DraftScope) (observedAt : ℕ) : DraftStore :=
  { store with uncertainty := store.uncertainty.insert scope observedAt }

/-- `_clear_scope_uncertainty`. -/
def clearScopeUncertainty (scope : DraftScope) : DraftStore :=
  { store with uncertainty := store.uncertainty.erase scope }

/-- `bind_account`. -/
def bindAccount (accountId : ℤ) : Except DraftError DraftStore :=
  if accountId = 0 then .error (.value "account_id must be a non-zero integer")
  else
    let runtime := store.runtime.getD {}
    let runtime :=
      { runtime with
        accountId := some accountId, recoveryDueAt := none, recoveryClaimedAt := none
        recoveryFailureCount := 0 }
    let bound : DraftStore :=
      { store with
        runtime := some runtime
        syncState := store.syncState.put accountId ((store.syncState accountId).getD
          { status := .unknown, coverageStatus := .unknown }) }
    let legacyPending := bound.legacyOrderPending accountId
    let scopeUncertain := bound.hasScopeUncertainty reads accountId
    if legacyPending || scopeUncertain then
      let reason := if legacyPending then "legacy_order_pending" else "scope_order_uncertain"
      let bound :=
        { bound with
          runtime := some
            { runtime with recoveryDueAt := some reads.now, recoveryClaimedAt := none } }
      .ok (bound.updateSyncState accountId fun state =>
        { state with
          status := .recoveryNeeded, coverageStatus := .unknown, reason := some reason
          observationCompletedAt := some reads.now })
    else .ok bound

/-- `_set_recovery_needed`. -/
def setRecoveryNeeded (reason : String) (observedAt dueAt failureCount : ℕ)
    (expectedClaimToken : Option ℕ) : Except DraftError (Bool × DraftStore) :=
  if reason = "" ∨ reason.length > 256 then
    .error (.value
      "draft recovery reason must be a non-empty string of at most 256 characters")
  else
    match store.runtime with
    | none => .error (.accountFence "draft recovery requires a bound account")
    | some runtime =>
      match runtime.accountId with
      | none => .error (.accountFence "draft recovery requires a bound account")
      | some accountId =>
        if expectedClaimToken = none ∨ runtime.recoveryClaimedAt = expectedClaimToken then
          let armed :=
            { store with
              runtime := some
                { runtime with
                  recoveryDueAt := some dueAt, recoveryClaimedAt := none
                  recoveryFailureCount := failureCount } }
          .ok (true, armed.updateSyncState accountId fun state =>
            { state with
              status := .recoveryNeeded, coverageStatus := .unknown, reason := some reason
              observationCompletedAt := some observedAt })
        else .ok (false, store)

/-- `_invalidate_recovery_claim`. -/
def invalidateRecoveryClaim (reason : String) (observedAt : ℕ) : Except DraftError DraftStore :=
  match store.runtime with
  | none => .error (.accountFence "draft recovery requires a bound account")
  | some runtime =>
    match runtime.recoveryClaimedAt with
    | none =>
      (store.setRecoveryNeeded reason observedAt (runtime.recoveryDueAt.getD observedAt)
        runtime.recoveryFailureCount none).map (·.2)
    | some claim =>
      if env.retryDelaysSeconds = [] then
        .error (.runtime "draft recovery retry schedule is empty")
      else
        let failureCount :=
          min (runtime.recoveryFailureCount + 1) (env.retryDelaysSeconds.length - 1)
        (store.setRecoveryNeeded reason observedAt
          (observedAt + env.retryDelaysSeconds.getD failureCount 0) failureCount
          (some claim)).map (·.2)

/-- `mark_recovery_needed`. -/
def markRecoveryNeeded (reason : String) (observedAt : ℤ) : Except DraftError DraftStore := do
  store.invalidateRecoveryClaim env reason (← asUnix observedAt)

/-- `claim_recovery`. -/
def claimRecovery (now : ℤ) : Except DraftError (Option ℕ × DraftStore) := do
  let now ← asUnix now
  match store.runtime with
  | none => return (none, store)
  | some runtime =>
    match runtime.accountId, runtime.recoveryDueAt with
    | some accountId, some dueAt =>
      if now < dueAt then return (none, store)
      let claimed :=
        { store with
          runtime := some
            { runtime with recoveryDueAt := none, recoveryClaimedAt := some now } }
      return (some now, claimed.updateSyncState accountId fun state =>
        { state with status := .recovering, coverageStatus := .incomplete })
    | _, _ => return (none, store)

/-- `claim_mutation_preflight`. -/
def claimMutationPreflight (now : ℤ) : Except DraftError (Option ℕ × DraftStore) := do
  let nowInt ← asUnix now
  if store.recoveryClaimActive then return (none, store)
  let store ← store.markRecoveryNeeded env "draft_mutation_preflight" nowInt
  store.claimRecovery now

/-- `release_recovery_claim`. -/
def releaseRecoveryClaim (claimToken : ℕ) (dueAt : ℤ) : Except DraftError (Bool × DraftStore) := do
  let due ← asUnix dueAt
  match store.runtime with
  | none => return (false, store)
  | some runtime =>
    if runtime.recoveryClaimedAt ≠ some claimToken then return (false, store)
    let released :=
      { store with
        runtime := some { runtime with recoveryDueAt := some due, recoveryClaimedAt := none } }
    match runtime.accountId with
    | none => return (true, released)
    | some accountId =>
      return (true, released.updateSyncState accountId fun state =>
        { state with status := .recoveryNeeded, coverageStatus := .unknown })

/-! ## Writing rows -/

/-- `_next_revision`. -/
def nextRevision : Except DraftError (ℕ × DraftStore) :=
  match store.runtime with
  | none => .error (.runtime "draft projection runtime row is missing")
  | some runtime =>
    .ok (runtime.projectionRevision + 1,
      { store with
        runtime := some
          { runtime with projectionRevision := runtime.projectionRevision + 1 } })

/-- `_upsert_current`. -/
def upsertCurrent (scope : DraftScope) (values : DraftValues) (revision : ℕ) :
    Except DraftError DraftStore := do
  let (_, store) ← store.archiveCurrentDraft scope reads.now
  if !env.fits values then throw .integrity
  let store := { store with current := store.current.insert scope ⟨values, revision⟩ }
  return store.trimDraftHistory scope

/-- The row after `_refresh_source_order`. -/
def refreshed (row : DraftRow) (candidate : DraftValues) : DraftRow :=
  { row with
    values :=
      { row.values with
        sourceObservedAt := candidate.sourceObservedAt
        sourceOrderAt := candidate.sourceOrderAt
        restorePayload := candidate.restorePayload
        semanticFingerprint := candidate.semanticFingerprint
        restoreReason := candidate.restoreReason } }

/-- `_refresh_source_order`. -/
def refreshSourceOrder (scope : DraftScope) (candidate : DraftValues) :
    Except DraftError DraftStore :=
  match store.current.lookup scope with
  | none => .ok store
  | some row =>
    if env.fits (refreshed row candidate).values then
      .ok { store with current := store.current.insert scope (refreshed row candidate) }
    else .error .integrity

/-- A row published under the next revision. -/
def publishRow (scope : DraftScope) (values : DraftValues) : Except DraftError (ℕ × DraftStore) := do
  let (revision, store) ← store.nextRevision
  return (revision, ← store.upsertCurrent env reads scope values revision)

/-! ## Realtime observations -/

/-- `_publish_realtime`. -/
def publishRealtime (scope : DraftScope) (candidate : DraftValues) :
    Except DraftError (DraftApplyResult × DraftStore) := do
  let (revision, store) ← store.publishRow env reads scope candidate
  let result : DraftApplyResult :=
    { accepted := true, revision := some revision, publicationChanged := true
      decision := .advanced }
  if store.recoveryPending then return (result, store)
  return (result, store.updateSyncState scope.accountId fun state => { state with status := .ready })

/-- `_classify_missing_order`. -/
def classifyMissingOrder (existing : Option DraftRow) (contentEqual : Bool)
    (observation : DraftObservation) (observedAt : ℕ) :
    Except DraftError (DraftApplyResult × DraftStore) :=
  match existing, contentEqual with
  | some row, true =>
    let result : DraftApplyResult :=
      { accepted := true, ambiguous := observation.disposition = .tombstone
        revision := some row.projectionRevision, decision := .missingSourceOrder }
    if observation.disposition = .tombstone then do
      let store ← (store.markScopeUncertain observation.scope observedAt).invalidateRecoveryClaim
        env "missing_source_order" observedAt
      return (result, store)
    else return (result, store)
  | _, _ => do
    let marked :=
      if observation.disposition = .tombstone then
        store.markScopeUncertain observation.scope observedAt
      else store
    let store ← marked.invalidateRecoveryClaim env "missing_source_order" observedAt
    return ({ accepted := false, ambiguous := true, decision := .missingSourceOrder }, store)

/-- `_classify_non_advancing_order`. -/
def classifyNonAdvancingOrder (existing : Option DraftRow) (contentEqual : Bool)
    (incomingOrder effectiveOrder observedAt : ℕ) :
    Except DraftError (DraftApplyResult × DraftStore) := do
  if incomingOrder < effectiveOrder then
    return ({ accepted := false, revision := existing.map (·.projectionRevision)
              decision := .stale }, store)
  match existing, contentEqual with
  | some row, true =>
    return ({ accepted := true, revision := some row.projectionRevision, decision := .duplicate },
      store)
  | _, _ =>
    let store ← store.invalidateRecoveryClaim env "equal_order_conflict" observedAt
    return ({ accepted := false, ambiguous := true, decision := .equalOrderConflict }, store)

/-- `_classify_realtime_order`. -/
def classifyRealtimeOrder (existing : Option DraftRow) (candidate : DraftValues)
    (observation : DraftObservation) :
    Except DraftError (Option (DraftApplyResult × DraftStore)) :=
  let contentEqual := existing.any fun row => rowMatches row.values candidate
  match candidate.sourceOrderAt with
  | none =>
    (store.classifyMissingOrder env existing contentEqual observation
      candidate.sourceObservedAt).map some
  | some incomingOrder =>
    match store.effectiveOrder (existing.map (·.values)) observation.scope.accountId with
    | none => .ok none
    | some effectiveOrder =>
      if effectiveOrder < incomingOrder then .ok none
      else
        (store.classifyNonAdvancingOrder env existing contentEqual incomingOrder effectiveOrder
          candidate.sourceObservedAt).map some

/-- `apply_realtime` once the order of the observation is found to advance. -/
def applyAdvancing (existing : Option DraftRow) (candidate : DraftValues)
    (observation : DraftObservation) : Except DraftError (DraftApplyResult × DraftStore) := do
  let observedAt := candidate.sourceObservedAt
  if observation.ambiguity then
    let store ← store.invalidateRecoveryClaim env "ambiguous_realtime" observedAt
    return ({ accepted := false, ambiguous := true, decision := .ambiguousRealtime }, store)
  if store.legacyOrderPending observation.scope.accountId then
    let store ← store.invalidateRecoveryClaim env "legacy_order_pending" observedAt
    return ({ accepted := false, ambiguous := true, decision := .legacyOrderPending }, store)
  let store ←
    if store.recoveryClaimActive then
      store.invalidateRecoveryClaim env "snapshot_in_flight" observedAt
    else pure store
  match existing with
  | some row =>
    if rowMatches row.values candidate then
      let store ← store.refreshSourceOrder env observation.scope candidate
      return ({ accepted := true, revision := some row.projectionRevision, decision := .advanced },
        store)
    store.publishRealtime env reads observation.scope candidate
  | none => store.publishRealtime env reads observation.scope candidate

/-- `apply_realtime`. -/
def applyRealtime (observation : DraftObservation) :
    Except DraftError (DraftApplyResult × DraftStore) := do
  if observation.source ≠ .realtime then
    throw (.value "apply_realtime requires a realtime observation")
  store.requireActiveAccount observation.scope.accountId
  let existing := store.current.lookup observation.scope
  let candidate ← rowValues observation (sourceKind observation) none none
  if store.scopeOrderUncertain observation.scope then
    let store ← store.invalidateRecoveryClaim env "scope_order_uncertain" candidate.sourceObservedAt
    return ({ accepted := false, ambiguous := true, decision := .scopeOrderUncertain }, store)
  match ← store.classifyRealtimeOrder env existing candidate observation with
  | some ordered => return ordered
  | none => store.applyAdvancing env reads existing candidate observation

/-! ## Snapshots -/

/-- What a snapshot does with the row that it has for a scope: the common part of the two loops. -/
def settleCandidate (scope : DraftScope) (candidate : DraftValues) (changed : Option ℕ) :
    Except DraftError (Option ℕ × DraftStore) := do
  let current := store.current.lookup scope
  if !newerThan (current.map (·.values)) candidate then return (changed, store)
  if current.any fun row => rowMatches row.values candidate then
    let store ← store.refreshSourceOrder env scope candidate
    return (changed, store.clearScopeUncertainty scope)
  let (revision, store) ← store.publishRow env reads scope candidate
  return (some revision, store.clearScopeUncertainty scope)

/-- The body of the loop of `_apply_snapshot_observations`. -/
def applySnapshotRow (sourceOrderAt : ℤ) (completedAt : ℕ) (state : Option ℕ × DraftStore)
    (observation : DraftObservation) : Except DraftError (Option ℕ × DraftStore) := do
  let order ← authoritativeOrder observation sourceOrderAt
  let candidate ← rowValues observation (sourceKind observation) (some completedAt) (some order)
  state.2.settleCandidate env reads observation.scope candidate state.1

/-- `_apply_snapshot_observations`. -/
def applySnapshotObservations (observations : List DraftObservation) (sourceOrderAt : ℤ)
    (completedAt : ℕ) : Except DraftError (Option ℕ × DraftStore) :=
  observations.foldlM (applySnapshotRow env reads sourceOrderAt completedAt) (none, store)

/-- The scopes of the account whose dialogs are not lost, in the order of the primary key. -/
def visibleScopes (accountId : ℤ) (scopes : List DraftScope) : List DraftScope :=
  (scopes.filter fun scope =>
      scope.accountId = accountId && !reads.accessLost scope.dialogId).insertionSort
    fun scope other => scope.key ≤ other.key

/-- The body of the first loop of `_infer_snapshot_absences`. -/
def inferAbsence (observed : List DraftScope) (cleared : DraftValues)
    (state : Option ℕ × DraftStore) (scope : DraftScope) :
    Except DraftError (Option ℕ × DraftStore) :=
  if scope ∈ observed then .ok state
  else state.2.settleCandidate env reads scope cleared state.1

/-- The body of the second loop of `_infer_snapshot_absences`. -/
def inferUncertain (observed : List DraftScope) (cleared : DraftValues)
    (state : Option ℕ × DraftStore) (scope : DraftScope) :
    Except DraftError (Option ℕ × DraftStore) := do
  if scope ∉ observed ∧ state.2.current.lookup scope = none then
    let (revision, store) ← state.2.publishRow env reads scope cleared
    return (some revision, store.clearScopeUncertainty scope)
  return state

/-- `_infer_snapshot_absences`. -/
def inferSnapshotAbsences (accountId : ℤ) (observations : List DraftObservation)
    (sourceOrderAt : ℤ) (completedAt : ℕ) (changed : Option ℕ) :
    Except DraftError (Option ℕ × DraftStore) := do
  let cleared := clearedRow completedAt (some (← asUnix sourceOrderAt))
  let observed := observations.map (·.scope)
  let state ← (visibleScopes reads accountId store.current.keys).foldlM
    (inferAbsence env reads observed cleared) (changed, store)
  (visibleScopes reads accountId state.2.uncertainty.keys).foldlM
    (inferUncertain env reads observed cleared) state

/-- `_mark_snapshot_complete`. -/
def markSnapshotComplete (accountId : ℤ) (completedAt claimToken sourceOrderAt : ℕ) :
    Bool × DraftStore :=
  if store.hasScopeUncertainty reads accountId then
    (false, store.updateSyncState accountId fun state =>
      { state with
        observationCompletedAt := some completedAt
        sourceOrderFloor := some (max (state.sourceOrderFloor.getD 0) sourceOrderAt) })
  else
    match store.runtime with
    | none => (false, store)
    | some runtime =>
      if runtime.recoveryClaimedAt = some claimToken then
        let settled :=
          { store with
            runtime := some
              { runtime with
                recoveryDueAt := none, recoveryClaimedAt := none, recoveryFailureCount := 0 } }
        (true, settled.updateSyncState accountId fun state =>
          { state with
            status := .ready, coverageStatus := .complete
            observationCompletedAt := some completedAt
            sourceOrderFloor := some (max (state.sourceOrderFloor.getD 0) sourceOrderAt)
            reason := none })
      else (false, store)

/-- The end of `apply_snapshot`, for observations without double scopes. -/
def publishSnapshot (observations : List DraftObservation) (accountId sourceOrderAt : ℤ)
    (claimToken : ℕ) : Except DraftError (DraftApplyResult × DraftStore) := do
  let (changed, store) ← store.applySnapshotObservations env reads observations sourceOrderAt
    reads.now
  let (changed, store) ← store.inferSnapshotAbsences env reads accountId observations
    sourceOrderAt reads.now changed
  let (complete, store) :=
    store.markSnapshotComplete reads accountId reads.now claimToken (← asUnix sourceOrderAt)
  if complete then
    return ({ accepted := true, revision := changed, decision := .authoritative
              workRevision := some (store.recoveryRevision accountId) }, store)
  return ({ accepted := false, ambiguous := true, revision := changed
            decision := .snapshotScopeUncertain }, store)

/-- The envelope of a snapshot is below the floor of the account. -/
def snapshotStale (accountId sourceOrderAt : ℤ) : Except DraftError Bool :=
  match store.sourceOrderFloor accountId with
  | none => .ok false
  | some floor => (asUnix sourceOrderAt).map fun order => decide (order < floor)

/-- `apply_snapshot`. -/
def applySnapshot (observations : List DraftObservation) (coverage : SnapshotCoverage)
    (claimToken : ℕ) : Except DraftError (DraftApplyResult × DraftStore) := do
  validateSnapshotInputs observations coverage
  store.requireActiveAccount coverage.accountId
  if !store.claimMatches claimToken then
    return ({ accepted := false, decision := .snapshotSuperseded }, store)
  match coverage.sourceOrderAt with
  | none => return ({ accepted := false, ambiguous := true, decision := .snapshotInvalid }, store)
  | some sourceOrderAt =>
    if !coverage.authoritative then
      return ({ accepted := false, ambiguous := true, decision := .snapshotInvalid }, store)
    if ← store.snapshotStale coverage.accountId sourceOrderAt then
      return ({ accepted := false, ambiguous := true, decision := .snapshotStale }, store)
    match ← deduplicateSnapshot observations with
    | none => return ({ accepted := false, ambiguous := true, decision := .snapshotConflict }, store)
    | some observations =>
      store.publishSnapshot env reads observations coverage.accountId sourceOrderAt claimToken

end DraftStore

end McpTelegram
