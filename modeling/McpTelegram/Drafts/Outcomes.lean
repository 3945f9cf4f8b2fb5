import McpTelegram.Drafts.Bookkeeping

/-!
# Outcomes of the draft operations

What an operation that returned has done to the store.  A realtime observation leaves the rows
alone, or it advances the order of its scope and either refreshes the row or publishes a new one; a
snapshot settles one scope after the other.
-/

namespace McpTelegram

open Foundations

namespace DraftStore

variable {env : DraftEnv} {reads : DraftReads} {store after : DraftStore}
variable {scope : DraftScope} {observations : List DraftObservation}

/-! ## Publishing and refreshing a row -/

/-- The store after the current row of a scope was copied to the history. -/
def displace (store : DraftStore) (scope : DraftScope) (now : ℕ) : DraftStore :=
  match store.current.lookup scope with
  | none => store
  | some row => (store.insertVersion scope row now).2.trimDraftHistory scope

theorem archiveCurrentDraft_ok {now : ℕ} {result : Option ℕ × DraftStore}
    (h : store.archiveCurrentDraft scope now = .ok result) :
    0 < scope.accountId ∧ store.runtime.bind (·.accountId) = some scope.accountId ∧
      result.2 = store.displace scope now := by
  obtain ⟨_, haccount, h⟩ := except_bind_eq_ok.mp h
  unfold requireAccount at haccount
  split at haccount
  · cases haccount
  · rename_i hbound
    push Not at hbound
    refine ⟨hbound.1, hbound.2, ?_⟩
    rw [displace]
    cases hrow : store.current.lookup scope with
    | none =>
      simp only [hrow] at h
      obtain rfl := Except.ok.inj h
      rfl
    | some row =>
      simp only [hrow] at h
      obtain rfl := Except.ok.inj h
      rfl

/-- A copy to the history leaves the other tables alone. -/
theorem displace_eq (store : DraftStore) (scope : DraftScope) (now : ℕ) :
    store.displace scope now =
      { store with
        versions := (store.displace scope now).versions
        nextHistoryId := (store.displace scope now).nextHistoryId } := by
  rw [displace]
  split
  · rfl
  · rw [insertVersion]
    split <;> rfl

/-- A copy to the history does not read the runtime row. -/
theorem displace_runtime (store : DraftStore) (scope : DraftScope) (now : ℕ)
    (runtime : Option DraftRuntime) :
    displace { store with runtime := runtime } scope now =
      { store.displace scope now with runtime := runtime } := by
  simp only [displace]
  split
  · rfl
  · simp only [insertVersion]
    split <;> rfl

/-- The store after a row was published. -/
def published (store : DraftStore) (runtime : DraftRuntime) (scope : DraftScope)
    (values : DraftValues) (now : ℕ) : DraftStore :=
  let revision := runtime.projectionRevision + 1
  let displaced := store.displace scope now
  trimDraftHistory
    { displaced with
      runtime := some { runtime with projectionRevision := revision }
      current := store.current.insert scope ⟨values, revision⟩ } scope

/-- What publishing a row does. -/
theorem publishRow_ok {values : DraftValues} {revision : ℕ}
    (h : store.publishRow env reads scope values = .ok (revision, after)) :
    ∃ runtime, store.runtime = some runtime ∧ revision = runtime.projectionRevision + 1 ∧
      0 < scope.accountId ∧ after = store.published runtime scope values reads.now := by
  obtain ⟨⟨revision', store'⟩, hrevision, h⟩ := except_bind_eq_ok.mp h
  obtain ⟨after', hupsert, h⟩ := except_bind_eq_ok.mp h
  obtain ⟨rfl, rfl⟩ := Prod.mk.inj (Except.ok.inj h)
  rw [nextRevision] at hrevision
  cases hruntime : store.runtime with
  | none => simp [hruntime] at hrevision
  | some runtime =>
    rw [hruntime] at hrevision
    obtain ⟨rfl, rfl⟩ := Prod.mk.inj (Except.ok.inj hrevision)
    obtain ⟨⟨_, archived⟩, harchive, hupsert⟩ := except_bind_eq_ok.mp hupsert
    obtain ⟨hpositive, -, hdisplaced⟩ := archiveCurrentDraft_ok harchive
    simp only at hupsert hdisplaced
    split at hupsert
    · obtain ⟨_, hthrow, -⟩ := except_bind_eq_ok.mp hupsert
      cases hthrow
    · obtain rfl := Except.ok.inj hupsert
      refine ⟨runtime, rfl, rfl, hpositive, ?_⟩
      rw [hdisplaced, displace_runtime, published]
      have hcurrent : (store.displace scope reads.now).current = store.current := by
        rw [displace_eq]
      simp only [hcurrent]

/-- What refreshing a row does. -/
theorem refreshSourceOrder_ok {candidate : DraftValues} {row : DraftRow}
    (hrow : store.current.lookup scope = some row)
    (h : store.refreshSourceOrder env scope candidate = .ok after) :
    after = { store with current := store.current.insert scope (refreshed row candidate) } := by
  rw [refreshSourceOrder, hrow] at h
  simp only at h
  split at h
  · exact (Except.ok.inj h).symm
  · cases h

/-! ## Realtime observations -/

/-- The store before an advancing observation is written: an active claim was invalidated. -/
def Unclaimed (store middle : DraftStore) : Prop :=
  (store.recoveryClaimActive = true ∧ Armed store middle) ∨
    (store.recoveryClaimActive = false ∧ middle = store)

/-- The order of an observation is above the floor and above the order of its scope. -/
def Advances (store : DraftStore) (scope : DraftScope) (candidate : DraftValues) : Prop :=
  ∃ order, candidate.sourceOrderAt = some order ∧
    ∀ effective, store.effectiveOrder (store.rowForScope scope) scope.accountId = some effective →
      effective < order

/-- What `apply_realtime` does when it returns. -/
inductive RealtimeOutcome (env : DraftEnv) (reads : DraftReads) (scope : DraftScope)
    (candidate : DraftValues) (store : DraftStore) : DraftApplyResult → DraftStore → Prop where
  /-- Nothing is written. -/
  | kept (result : DraftApplyResult) (hdecision : result.decision ≠ .advanced)
      (hambiguous : result.accepted = false → result.ambiguous = false) :
      RealtimeOutcome env reads scope candidate store result store
  /-- A recovery is requested, and the scope may become uncertain. -/
  | requested (result : DraftApplyResult) (marked after : DraftStore)
      (hmarked : SameRows store marked) (hrecovery : marked.recovery = store.recovery)
      (harmed : Armed marked after)
      (hdecision : result.decision ≠ .advanced) :
      RealtimeOutcome env reads scope candidate store result after
  /-- The row shows the content already and gets the new order. -/
  | refreshed (result : DraftApplyResult) (middle : DraftStore) (row : DraftRow)
      (hunclaimed : Unclaimed store middle) (hadvances : Advances store scope candidate)
      (hrow : store.current.lookup scope = some row)
      (hmatches : rowMatches row.values candidate = true)
      (haccepted : result.accepted = true) :
      RealtimeOutcome env reads scope candidate store result
        { middle with current := middle.current.insert scope (refreshed row candidate) }
  /-- A new row is published. -/
  | published (result : DraftApplyResult) (middle after : DraftStore) (runtime : DraftRuntime)
      (hunclaimed : Unclaimed store middle) (hadvances : Advances store scope candidate)
      (hdiffers : ∀ row, store.current.lookup scope = some row →
        rowMatches row.values candidate = false)
      (hruntime : middle.runtime = some runtime) (haccount : 0 < scope.accountId)
      (haccepted : result.accepted = true)
      (hafter : after = middle.published runtime scope candidate reads.now ∨
        ((middle.published runtime scope candidate reads.now).recoveryPending = false ∧
          after = (middle.published runtime scope candidate reads.now).updateSyncState
            scope.accountId fun state => { state with status := .ready })) :
      RealtimeOutcome env reads scope candidate store result after

section Realtime

variable {observation : DraftObservation} {candidate : DraftValues} {result : DraftApplyResult}
variable {scope : DraftScope} {middle : DraftStore} {observedAt : ℕ} {existing : Option DraftRow}
    {contentEqual : Bool}

/-- A recovery request in the middle of a call. -/
theorem RealtimeOutcome.ofRequest {marked : DraftStore} {reason : String}
    {returned : DraftApplyResult} (hmarked : SameRows store marked)
    (hrecovery : marked.recovery = store.recovery) (hdecision : returned.decision ≠ .advanced)
    (h : (do
      let store ← marked.invalidateRecoveryClaim env reason observedAt
      pure (returned, store) : Except DraftError (DraftApplyResult × DraftStore)) =
        .ok (result, after)) : RealtimeOutcome env reads scope candidate store result after := by
  obtain ⟨armed, harmed, h⟩ := except_bind_eq_ok.mp h
  obtain ⟨rfl, rfl⟩ := Prod.mk.inj (Except.ok.inj h)
  exact .requested _ marked _ hmarked hrecovery (invalidateRecoveryClaim_ok harmed) hdecision

theorem publishRealtime_outcome (hunclaimed : Unclaimed store middle)
    (hadvances : Advances store scope candidate)
    (hdiffers : ∀ row, store.current.lookup scope = some row →
      rowMatches row.values candidate = false)
    (h : middle.publishRealtime env reads scope candidate = .ok (result, after)) :
    RealtimeOutcome env reads scope candidate store result after := by
  obtain ⟨⟨revision, stored⟩, hpublish, h⟩ := except_bind_eq_ok.mp h
  obtain ⟨runtime, hruntime, -, haccount, rfl⟩ := publishRow_ok hpublish
  simp only at h
  split at h
  · obtain ⟨rfl, rfl⟩ := Prod.mk.inj (Except.ok.inj h)
    exact .published _ middle _ runtime hunclaimed hadvances hdiffers hruntime haccount rfl
      (Or.inl rfl)
  · rename_i hpending
    obtain ⟨rfl, rfl⟩ := Prod.mk.inj (Except.ok.inj h)
    exact .published _ middle _ runtime hunclaimed hadvances hdiffers hruntime haccount rfl
      (Or.inr ⟨by simpa using hpending, rfl⟩)

/-- An observation that advances, once there is no active claim: its row is refreshed if it has the
same values, and published otherwise. -/
theorem refreshOrPublish_outcome (hunclaimed : Unclaimed store middle)
    (hadvances : Advances store observation.scope candidate)
    (h : (match store.current.lookup observation.scope with
      | some row =>
        if rowMatches row.values candidate then (do
          let store ← middle.refreshSourceOrder env observation.scope candidate
          pure ({ accepted := true, revision := some row.projectionRevision
                  decision := .advanced }, store))
        else middle.publishRealtime env reads observation.scope candidate
      | none => middle.publishRealtime env reads observation.scope candidate) =
        Except.ok (result, after)) :
    RealtimeOutcome env reads observation.scope candidate store result after := by
  have hcurrent : middle.current = store.current := by
    rcases hunclaimed with ⟨-, harmed⟩ | ⟨-, rfl⟩
    · exact harmed.rows.current
    · rfl
  split at h
  · rename_i row hrow
    split at h
    · rename_i hmatches
      obtain ⟨stored, hrefresh, h⟩ := except_bind_eq_ok.mp h
      obtain ⟨rfl, rfl⟩ := Prod.mk.inj (Except.ok.inj h)
      rw [← hcurrent] at hrow
      rw [refreshSourceOrder_ok hrow hrefresh]
      exact .refreshed _ middle row hunclaimed hadvances (hcurrent ▸ hrow) hmatches rfl
    · rename_i hmatches
      refine publishRealtime_outcome hunclaimed hadvances (fun other hother => ?_) h
      rw [hrow] at hother
      obtain rfl := Option.some_inj.mp hother
      simpa using hmatches
  · rename_i hrow
    refine publishRealtime_outcome hunclaimed hadvances (fun other hother => ?_) h
    rw [hrow] at hother
    cases hother

theorem applyAdvancing_outcome (hadvances : Advances store observation.scope candidate)
    (h : store.applyAdvancing env reads (store.current.lookup observation.scope) candidate
      observation = .ok (result, after)) :
    RealtimeOutcome env reads observation.scope candidate store result after := by
  rw [applyAdvancing] at h
  simp only at h
  split at h
  · exact .ofRequest (SameRows.refl store) rfl (by simp) h
  · split at h
    · exact .ofRequest (SameRows.refl store) rfl (by simp) h
    · split at h
      · rename_i hactive
        obtain ⟨middle, harmed, h⟩ := except_bind_eq_ok.mp h
        exact refreshOrPublish_outcome (Or.inl ⟨hactive, invalidateRecoveryClaim_ok harmed⟩)
          hadvances h
      · rename_i hactive
        exact refreshOrPublish_outcome (Or.inr ⟨by simpa using hactive, rfl⟩) hadvances h

theorem classifyMissingOrder_outcome
    (h : store.classifyMissingOrder env existing contentEqual observation observedAt =
      .ok (result, after)) : RealtimeOutcome env reads scope candidate store result after := by
  unfold classifyMissingOrder at h
  split at h
  · split at h
    · exact .ofRequest (sameRows_markScopeUncertain store _ _) rfl (by simp) h
    · obtain ⟨rfl, rfl⟩ := Prod.mk.inj (Except.ok.inj h)
      exact .kept _ (by simp) (by simp)
  · refine .ofRequest ?_ ?_ (by simp) h
    · split
      · exact sameRows_markScopeUncertain store _ _
      · exact SameRows.refl store
    · split <;> rfl

theorem classifyNonAdvancingOrder_outcome {incomingOrder effectiveOrder : ℕ}
    (h : store.classifyNonAdvancingOrder env existing contentEqual incomingOrder effectiveOrder
      observedAt = .ok (result, after)) :
    RealtimeOutcome env reads scope candidate store result after := by
  unfold classifyNonAdvancingOrder at h
  split at h
  · obtain ⟨rfl, rfl⟩ := Prod.mk.inj (Except.ok.inj h)
    exact .kept _ (by simp) (by simp)
  · split at h
    · obtain ⟨rfl, rfl⟩ := Prod.mk.inj (Except.ok.inj h)
      exact .kept _ (by simp) (by simp)
    · exact .ofRequest (SameRows.refl store) rfl (by simp) h

/-- An observation whose order is not classified advances. -/
theorem classifyRealtimeOrder_none
    (h : store.classifyRealtimeOrder env (store.current.lookup observation.scope) candidate
      observation = .ok none) : Advances store observation.scope candidate := by
  unfold classifyRealtimeOrder at h
  cases horder : candidate.sourceOrderAt with
  | none =>
    rw [horder] at h
    obtain ⟨_, -, h⟩ := except_map_eq_ok.mp h
    cases h
  | some order =>
    rw [horder] at h
    simp only at h
    refine ⟨order, horder, fun effective heffective => ?_⟩
    rw [rowForScope] at heffective
    rw [heffective] at h
    simp only at h
    split at h
    · assumption
    · obtain ⟨_, -, h⟩ := except_map_eq_ok.mp h
      cases h

theorem classifyRealtimeOrder_some
    (h : store.classifyRealtimeOrder env existing candidate observation =
      .ok (some (result, after))) :
    RealtimeOutcome env reads scope candidate store result after := by
  unfold classifyRealtimeOrder at h
  split at h
  · obtain ⟨ordered, hclassify, heq⟩ := except_map_eq_ok.mp h
    obtain rfl := Option.some_inj.mp heq
    exact classifyMissingOrder_outcome hclassify
  · split at h
    · cases h
    · split at h
      · cases h
      · obtain ⟨ordered, hclassify, heq⟩ := except_map_eq_ok.mp h
        obtain rfl := Option.some_inj.mp heq
        exact classifyNonAdvancingOrder_outcome hclassify

/-- What `apply_realtime` does when it returns. -/
theorem applyRealtime_outcome
    (h : store.applyRealtime env reads observation = .ok (result, after)) :
    ∃ candidate, rowValues observation (sourceKind observation) none none = .ok candidate ∧
      store.runtime.bind (·.accountId) = some observation.scope.accountId ∧
      RealtimeOutcome env reads observation.scope candidate store result after := by
  rw [applyRealtime] at h
  simp only at h
  split at h
  · obtain ⟨_, hthrow, -⟩ := except_bind_eq_ok.mp h
    cases hthrow
  · obtain ⟨_, hactive, h⟩ := except_bind_eq_ok.mp h
    obtain ⟨candidate, hcandidate, h⟩ := except_bind_eq_ok.mp h
    have hbound : store.runtime.bind (·.accountId) = some observation.scope.accountId := by
      unfold requireActiveAccount at hactive
      split at hactive
      · assumption
      · cases hactive
    refine ⟨candidate, hcandidate, hbound, ?_⟩
    split at h
    · exact .ofRequest (SameRows.refl store) rfl (by simp) h
    · obtain ⟨ordered, hclassify, h⟩ := except_bind_eq_ok.mp h
      cases ordered with
      | some ordered =>
        obtain rfl := Except.ok.inj h
        exact classifyRealtimeOrder_some hclassify
      | none => exact applyAdvancing_outcome (classifyRealtimeOrder_none hclassify) h

end Realtime

/-! ## Snapshots -/

/-- What a snapshot does with one scope. -/
inductive ScopeSettled (reads : DraftReads) (scope : DraftScope) (candidate : DraftValues)
    (store : DraftStore) : DraftStore → Prop where
  /-- The stored order is above the one of the snapshot. -/
  | older (h : newerThan (store.rowForScope scope) candidate = false) :
      ScopeSettled reads scope candidate store store
  | refreshed (row : DraftRow) (hrow : store.current.lookup scope = some row)
      (hnewer : newerThan (store.rowForScope scope) candidate = true)
      (hmatches : rowMatches row.values candidate = true) :
      ScopeSettled reads scope candidate store
        (clearScopeUncertainty
          { store with current := store.current.insert scope (refreshed row candidate) } scope)
  | published (runtime : DraftRuntime) (hruntime : store.runtime = some runtime)
      (haccount : 0 < scope.accountId)
      (hnewer : newerThan (store.rowForScope scope) candidate = true)
      (hdiffers : ∀ row, store.current.lookup scope = some row →
        rowMatches row.values candidate = false) :
      ScopeSettled reads scope candidate store
        ((store.published runtime scope candidate reads.now).clearScopeUncertainty scope)

section Snapshot

variable {scope : DraftScope} {candidate : DraftValues} {changed : Option ℕ}
  {result : Option ℕ × DraftStore}

variable {observation : DraftObservation} {cleared : DraftValues} {state : Option ℕ × DraftStore}
    {observed : List DraftScope}

theorem settleCandidate_settled
    (h : store.settleCandidate env reads scope candidate changed = .ok result) :
    ScopeSettled reads scope candidate store result.2 := by
  unfold settleCandidate at h
  simp only at h
  split at h
  · rename_i holder
    obtain rfl := Except.ok.inj h
    exact .older (by simpa [rowForScope] using holder)
  · rename_i hnewer
    have hnewer : newerThan (store.rowForScope scope) candidate = true := by
      simpa [rowForScope] using hnewer
    split at h
    · rename_i hmatches
      obtain ⟨stored, hrefresh, h⟩ := except_bind_eq_ok.mp h
      obtain rfl := Except.ok.inj h
      cases hrow : store.current.lookup scope with
      | none => simp [hrow] at hmatches
      | some row =>
        rw [hrow] at hmatches
        rw [refreshSourceOrder_ok hrow hrefresh]
        exact .refreshed row hrow hnewer hmatches
    · rename_i hdiffers
      obtain ⟨⟨revision, stored⟩, hpublish, h⟩ := except_bind_eq_ok.mp h
      obtain ⟨runtime, hruntime, -, haccount, rfl⟩ := publishRow_ok hpublish
      obtain rfl := Except.ok.inj h
      refine .published runtime hruntime haccount hnewer fun row hrow => ?_
      rw [hrow] at hdiffers
      simpa using hdiffers

/-- The order of an observed row is the overriding one. -/
theorem rowValues_order {kind : DraftSourceKind} {completedAt : Option ℕ} {order : ℤ}
    {values : DraftValues} (h : rowValues observation kind completedAt (some order) = .ok values) :
    ∃ instant, asUnix order = .ok instant ∧ values.sourceOrderAt = some instant := by
  obtain ⟨observedAt, -, h⟩ := except_bind_eq_ok.mp h
  obtain ⟨content, -, h⟩ := except_bind_eq_ok.mp h
  obtain ⟨sourceOrderAt, horder, h⟩ := except_bind_eq_ok.mp h
  obtain rfl := Except.ok.inj h
  obtain ⟨instant, hinstant, rfl⟩ := except_map_eq_ok.mp horder
  exact ⟨instant, hinstant, rfl⟩

/-- What a snapshot does with one observed row. -/
theorem applySnapshotRow_settled {sourceOrderAt : ℤ} {completedAt : ℕ}
    (h : applySnapshotRow env reads sourceOrderAt completedAt state observation = .ok result) :
    ∃ candidate order instant, authoritativeOrder observation sourceOrderAt = .ok order ∧
      asUnix order = .ok instant ∧ candidate.sourceOrderAt = some instant ∧
      ScopeSettled reads observation.scope candidate state.2 result.2 := by
  obtain ⟨order, horder, h⟩ := except_bind_eq_ok.mp h
  obtain ⟨candidate, hcandidate, h⟩ := except_bind_eq_ok.mp h
  obtain ⟨instant, hinstant, hsource⟩ := rowValues_order hcandidate
  exact ⟨candidate, order, instant, horder, hinstant, hsource, settleCandidate_settled h⟩

/-- What a snapshot does with a scope that it does not show. -/
theorem inferAbsence_settled (h : inferAbsence env reads observed cleared state scope = .ok result) :
    result = state ∨ scope ∉ observed ∧ ScopeSettled reads scope cleared state.2 result.2 := by
  rw [inferAbsence] at h
  split at h
  · exact Or.inl (Except.ok.inj h).symm
  · exact Or.inr ⟨by assumption, settleCandidate_settled h⟩

/-- What a snapshot does with an uncertain scope that has no row. -/
theorem inferUncertain_settled
    (h : inferUncertain env reads observed cleared state scope = .ok result) :
    result = state ∨ state.2.current.lookup scope = none ∧ scope ∉ observed ∧
      ScopeSettled reads scope cleared state.2 result.2 := by
  rw [inferUncertain] at h
  split at h
  · rename_i hmissing
    obtain ⟨⟨revision, stored⟩, hpublish, h⟩ := except_bind_eq_ok.mp h
    obtain ⟨runtime, hruntime, -, haccount, rfl⟩ := publishRow_ok hpublish
    obtain rfl := Except.ok.inj h
    refine Or.inr ⟨hmissing.2, hmissing.1, .published runtime hruntime haccount ?_ ?_⟩
    · rw [rowForScope, hmissing.2]
      rfl
    · intro row hrow
      rw [hmissing.2] at hrow
      cases hrow
  · exact Or.inl (Except.ok.inj h).symm

end Snapshot

/-- The three loops of a snapshot keep what each round keeps. -/
theorem snapshot_invariant {I : DraftStore → Prop} {accountId sourceOrderAt : ℤ} {completedAt : ℕ}
    {changed changed' : Option ℕ} {middle : DraftStore}
    (hobserved : ∀ {store after observation candidate order instant}, observation ∈ observations →
      authoritativeOrder observation sourceOrderAt = .ok order → asUnix order = .ok instant →
      candidate.sourceOrderAt = some instant → I store →
      ScopeSettled reads observation.scope candidate store after → I after)
    (habsent : ∀ {store after scope candidate instant}, scope ∉ observations.map (·.scope) →
      asUnix sourceOrderAt = .ok instant → candidate.sourceOrderAt = some instant → I store →
      ScopeSettled reads scope candidate store after → I after) (hstore : I store)
    (hrows : store.applySnapshotObservations env reads observations sourceOrderAt completedAt =
      .ok (changed, middle))
    (habsences : middle.inferSnapshotAbsences env reads accountId observations sourceOrderAt
      completedAt changed = .ok (changed', after)) : I after := by
  have hmiddle : I middle := by
    refine @foldlM_ok_invariant DraftError DraftObservation (Option ℕ × DraftStore)
      (fun state => I state.2) _ _ (fun {state observation state'} hmem hstate hround => ?_) _ _
      hstore hrows
    obtain ⟨candidate, order, instant, horder, hinstant, hsource, hsettled⟩ :=
      applySnapshotRow_settled hround
    exact hobserved hmem horder hinstant hsource hstate hsettled
  obtain ⟨instant, hinstant, habsences⟩ := except_bind_eq_ok.mp habsences
  obtain ⟨state, hfirst, hsecond⟩ := except_bind_eq_ok.mp habsences
  have hknown : I state.2 := by
    refine @foldlM_ok_invariant DraftError DraftScope (Option ℕ × DraftStore)
      (fun state => I state.2) _ _ (fun {round scope round'} hmem hround hstep => ?_) _ _
      hmiddle hfirst
    rcases inferAbsence_settled hstep with rfl | ⟨hunseen, hsettled⟩
    · exact hround
    · exact habsent hunseen hinstant rfl hround hsettled
  refine @foldlM_ok_invariant DraftError DraftScope (Option ℕ × DraftStore)
    (fun state => I state.2) _ _ (fun {round scope round'} hmem hround hstep => ?_) _ _
    hknown hsecond
  rcases inferUncertain_settled hstep with rfl | ⟨-, hunseen, hsettled⟩
  · exact hround
  · exact habsent hunseen hinstant rfl hround hsettled

/-- What `apply_snapshot` does when it returns: it is rejected, or it settles all scopes and then
completes or leaves the account uncertain. -/
theorem applySnapshot_ok {coverage : SnapshotCoverage} {claimToken : ℕ} {result : DraftApplyResult}
    (h : store.applySnapshot env reads observations coverage claimToken = .ok (result, after)) :
    (after = store ∧ result.accepted = false ∧ result.decision ≠ .snapshotScopeUncertain) ∨
    ∃ sourceOrderAt deduplicated changed changed' middle middle' instant,
      store.claimMatches claimToken = true ∧
      store.runtime.bind (·.accountId) = some coverage.accountId ∧
      coverage.sourceOrderAt = some sourceOrderAt ∧
      deduplicateSnapshot observations = .ok (some deduplicated) ∧
      store.applySnapshotObservations env reads deduplicated sourceOrderAt reads.now =
        .ok (changed, middle) ∧
      middle.inferSnapshotAbsences env reads coverage.accountId deduplicated sourceOrderAt
        reads.now changed = .ok (changed', middle') ∧
      asUnix sourceOrderAt = .ok instant ∧
      (result.accepted, after) =
        middle'.markSnapshotComplete reads coverage.accountId reads.now claimToken instant ∧
      (result.accepted = false → result.decision = .snapshotScopeUncertain) := by
  obtain ⟨_, hvalid, h⟩ := except_bind_eq_ok.mp h
  obtain ⟨_, hactive, h⟩ := except_bind_eq_ok.mp h
  have hbound : store.runtime.bind (·.accountId) = some coverage.accountId := by
    unfold requireActiveAccount at hactive
    split at hactive
    · assumption
    · cases hactive
  split at h
  · obtain ⟨rfl, rfl⟩ := Prod.mk.inj (Except.ok.inj h)
    exact Or.inl ⟨rfl, rfl, by simp⟩
  · rename_i hclaim
    split at h
    · obtain ⟨rfl, rfl⟩ := Prod.mk.inj (Except.ok.inj h)
      exact Or.inl ⟨rfl, rfl, by simp⟩
    · rename_i sourceOrderAt hsource
      split at h
      · obtain ⟨rfl, rfl⟩ := Prod.mk.inj (Except.ok.inj h)
        exact Or.inl ⟨rfl, rfl, by simp⟩
      · obtain ⟨stale, -, h⟩ := except_bind_eq_ok.mp h
        split at h
        · obtain ⟨rfl, rfl⟩ := Prod.mk.inj (Except.ok.inj h)
          exact Or.inl ⟨rfl, rfl, by simp⟩
        · obtain ⟨deduplicated, hdeduplicated, h⟩ := except_bind_eq_ok.mp h
          cases deduplicated with
          | none =>
            obtain ⟨rfl, rfl⟩ := Prod.mk.inj (Except.ok.inj h)
            exact Or.inl ⟨rfl, rfl, by simp⟩
          | some deduplicated =>
            obtain ⟨⟨changed, middle⟩, hrows, h⟩ := except_bind_eq_ok.mp h
            obtain ⟨⟨changed', middle'⟩, habsences, h⟩ := except_bind_eq_ok.mp h
            obtain ⟨instant, hinstant, h⟩ := except_bind_eq_ok.mp h
            refine Or.inr ⟨sourceOrderAt, deduplicated, changed, changed', middle, middle',
              instant, by simpa using hclaim, hbound, hsource, hdeduplicated, hrows, habsences,
              hinstant, ?_⟩
            simp only at h
            cases hmark : middle'.markSnapshotComplete reads coverage.accountId reads.now
              claimToken instant with
            | mk complete marked =>
              rw [hmark] at h
              cases complete with
              | true =>
                obtain ⟨rfl, rfl⟩ := Prod.mk.inj (Except.ok.inj h)
                exact ⟨rfl, by simp⟩
              | false =>
                obtain ⟨rfl, rfl⟩ := Prod.mk.inj (Except.ok.inj h)
                exact ⟨rfl, by simp⟩

end DraftStore

end McpTelegram
