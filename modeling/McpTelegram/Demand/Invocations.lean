import McpTelegram.Demand.Superseded

/-!
# The invocations of a run

Outside of the scans only the start of a slice makes an invocation, and it does so for the revision
that the status of its kind selects.  So the invocations of every reachable world belong to
different keys (`InvocationsInvariant`), and there are at most as many as keys were reported.
-/

namespace McpTelegram

open Foundations

namespace WorkState

/-! ## Handlers -/

/-- A handler makes no invocation. -/
structure Settles (work : WorkState) (handled : Handled) : Prop where
  settles : handled.work.invocation.isSome = true → work.invocation.isSome = true
  after : ∀ other, (handled.afterRelease other).invocation = other.invocation

theorem parkThrottle_invocation (work : WorkState) (now : ℚ) (method : Option String)
    (retryAfterSeconds : Option ℕ) :
    (work.parkThrottle now method retryAfterSeconds).invocation = work.invocation := by
  cases retryAfterSeconds <;> rfl

/-- A stronger throttle keeps the invocation. -/
theorem strengthenThrottleWait_invocation (work : WorkState) (now : ℚ)
    (retryAfterSeconds : Option ℕ) (capacity : Bool) :
    (work.strengthenThrottleWait now retryAfterSeconds capacity).invocation = work.invocation := by
  unfold strengthenThrottleWait
  split_ifs
  · rfl
  · cases retryAfterSeconds <;> rfl

variable {work : WorkState} (readings : HandlerReadings) (budget : RpcAttemptBudget)

theorem settles_of_eq {handled : Handled} (h : handled.work.invocation = work.invocation)
    (hafter : handled.afterRelease = id) : Settles work handled :=
  ⟨fun hsome => h ▸ hsome, fun _ => by rw [hafter]; rfl⟩

/-- `_handle_deferred` on a gate. -/
theorem handleDeferredGate_settles (gate : RpcGate) :
    Settles work (work.handleDeferredGate readings budget gate) := by
  cases gate with
  | admissionDeferred methodKey hasGeneration eligibleAt reason =>
    dsimp only [handleDeferredGate]
    split_ifs
    · exact settles_of_eq rfl rfl
    · exact settles_of_eq rfl rfl
  | methodRecoveryPending | throttled => exact settles_of_eq rfl rfl

/-- `_handle_throttle`. -/
theorem handleThrottle_settles (retryAfterSeconds : Option ℕ) :
    Settles work (work.handleThrottle readings budget retryAfterSeconds) := by
  unfold handleThrottle
  split
  · refine ⟨(handleDeferredGate_settles readings budget _).settles, fun other => ?_⟩
    exact strengthenThrottleWait_invocation _ _ _ _
  · exact handleDeferredGate_settles readings budget _
  · dsimp only
    split_ifs
    · refine settles_of_eq ?_ rfl
      rw [parkThrottle_invocation, parkThrottle_invocation]
    · exact settles_of_eq (parkThrottle_invocation _ _ _ _) rfl
  · exact settles_of_eq (parkThrottle_invocation _ _ _ _) rfl

/-- A gate of either kind. -/
theorem handleGate_settles (gate : RpcGate) :
    Settles work (work.handleGate readings budget gate) := by
  cases gate with
  | admissionDeferred methodKey hasGeneration eligibleAt reason =>
    exact handleDeferredGate_settles readings budget
      (.admissionDeferred methodKey hasGeneration eligibleAt reason)
  | methodRecoveryPending methodKey reason =>
    exact handleDeferredGate_settles readings budget (.methodRecoveryPending methodKey reason)
  | throttled retryAfterSeconds => exact handleThrottle_settles readings budget _

/-- `_handle_pacing_deferred`. -/
theorem handlePacingDeferred_settles (readBudget : Bool) (reason : String) :
    Settles work (work.handlePacingDeferred readings budget readBudget reason) := by
  unfold handlePacingDeferred
  split
  · split_ifs
    · unfold parkReadBudgetFailure
      dsimp only
      split
      · obtain ⟨hsettles, hafter⟩ := @handleGate_settles (work.setMethod _) readings budget _
        exact ⟨hsettles, hafter⟩
      · exact settles_of_eq rfl rfl
    · exact settles_of_eq rfl rfl
  · exact settles_of_eq rfl rfl

/-- The handlers of a slice make no invocation. -/
theorem handleResult_settles (selected : WorkRevision) (result : SliceResult) :
    Settles work (work.handleResult readings budget selected result) := by
  cases result with
  | outcome outcome =>
    cases outcome with
    | none => exact settles_of_eq rfl rfl
    | some outcome =>
      dsimp only [handleResult, handleOutcome]
      split_ifs
      · exact settles_of_eq rfl rfl
      · exact ⟨fun hsome => absurd hsome Bool.false_ne_true, fun _ => rfl⟩
      · exact settles_of_eq rfl rfl
      · split
        · exact handleGate_settles readings budget _
        · exact settles_of_eq rfl rfl
      · exact settles_of_eq rfl rfl
  | gate gate => exact handleGate_settles readings budget gate
  | saturated | admissionClosed | cancelled => exact settles_of_eq rfl rfl
  | budgetExhausted | readTimeout => exact handlePacingDeferred_settles readings budget true _
  | admissionExpired => exact handlePacingDeferred_settles readings budget false _
  | failure isTimeout rootAttempts =>
    dsimp only [handleResult]
    split_ifs <;> exact settles_of_eq rfl rfl

end WorkState

open DemandCoordinator

namespace DemandWorld

variable {c : DemandCoordinator} {keys : Finset WorkKey} {world world' : DemandWorld}
variable {outcome : SliceOutcome} {selected : WorkRevision} {readings : ScanReadings}
    {safetyScanSeconds : ℚ} {step : DemandStep}

/-! ## The steps on the coordinator -/

/-- Open gates keep the invocations. -/
theorem releaseReadyGateWaits_invoked (c : DemandCoordinator) (now : WorkRevision → ℚ)
    (eligible : WorkRevision → Option String → Bool) (revision : WorkRevision) :
    (c.releaseReadyGateWaits now eligible).Invoked revision ↔ c.Invoked revision := by
  rw [Invoked, releaseReadyGateWaits, workOf_mapWork _ fun _ => rfl]
  split_ifs <;> rfl

/-- A change of the gates keeps the invocations. -/
theorem eligibilityChanged_invoked (c : DemandCoordinator) (methodKey : Option String)
    (now : WorkRevision → ℚ) (eligible : WorkRevision → Option String → Bool)
    (revision : WorkRevision) :
    (c.eligibilityChanged methodKey now eligible).Invoked revision ↔ c.Invoked revision := by
  cases methodKey with
  | none =>
    exact releaseReadyGateWaits_invoked
      { c with eligibilityGeneration := c.eligibilityGeneration + 1 } now eligible revision
  | some methodKey =>
    have hopen : (c.eligibilityChanged (some methodKey) now eligible).workOf revision =
        ({ c with eligibilityGeneration := c.eligibilityGeneration + 1 }.mapWork
          fun revision work =>
            if work.eligibilityWait.isSome ∧ work.waitReady (now revision) ∧
                work.methodForWork work.budget none = some methodKey then
              work.releaseGateWait
            else work).workOf revision := rfl
    rw [Invoked, hopen, workOf_mapWork _ fun _ => rfl]
    split_ifs <;> rfl

/-- The end of a slice makes no invocation. -/
theorem handleSlice_invoked (slice : RunningSlice) (result : SliceResult)
    (readings : FinishReadings) {revision : WorkRevision}
    (h : (handleSlice c slice result readings).Invoked revision) : c.Invoked revision := by
  unfold handleSlice at h
  dsimp only at h
  obtain ⟨hsettles, hafter⟩ := @WorkState.handleResult_settles
    ((c.workOf slice.selected).accountAttempts slice.invocation
      { slice.invocation with budget := readings.budget })
    { readings.handler with generationChanged := slice.generation ≠ c.eligibilityGeneration }
    readings.budget slice.selected result
  generalize ((c.workOf slice.selected).accountAttempts _ _).handleResult _ _ _ _ = handled
    at h hsettles hafter
  have hbefore : (c.updateWork slice.selected fun _ => handled.work).Invoked revision := by
    rw [Invoked, workOf_updateWork] at h
    by_cases hready : handled.releaseReady = true
    · rw [if_pos hready] at h
      rw [← releaseReadyGateWaits_invoked _ readings.releaseAt readings.eligible revision]
      split_ifs at h with hone
      · rw [hone]
        rwa [hafter] at h
      · exact h
    · rw [if_neg hready] at h
      split_ifs at h with hone
      · rw [hone]
        rwa [hafter] at h
      · exact h
  rw [Invoked, workOf_updateWork] at hbefore
  split_ifs at hbefore with hone
  · have hsome := hsettles hbefore
    rw [Invoked, hone]
    rwa [WorkState.accountAttempts, Option.isSome_map] at hsome
  · exact hbefore

/-- The end of a slice changes no status. -/
theorem handleSlice_statuses (c : DemandCoordinator) (slice : RunningSlice) (result : SliceResult)
    (readings : FinishReadings) : (handleSlice c slice result readings).statuses = c.statuses := by
  dsimp only [handleSlice]
  split_ifs <;> rfl

/-- A committed outcome of the revision leaves nothing of it. -/
theorem handleSlice_committed (c : DemandCoordinator) (slice : RunningSlice)
    (readings : FinishReadings) (hselected : outcome.selected = slice.selected)
    (hcommitted : outcome.committed slice.selected = true) :
    (handleSlice c slice (.outcome (some outcome)) readings).workOf slice.selected = {} := by
  unfold handleSlice
  dsimp only [WorkState.handleResult, WorkState.handleOutcome]
  rw [if_neg (not_not_intro hselected), if_pos hcommitted]
  dsimp only
  rw [if_neg Bool.false_ne_true, workOf_updateWork, if_pos rfl, workOf_updateWork, if_pos rfl]
  rfl

/-- The start of a slice makes an invocation of its own revision only. -/
theorem executeSlice_invoked (c : DemandCoordinator) (kind : DemandKind) (selected : WorkRevision)
    (readings : SliceReadings) {revision : WorkRevision} (hne : revision ≠ selected) :
    (executeSlice c kind selected readings).1.Invoked revision ↔ c.Invoked revision := by
  have hwork : (executeSlice c kind selected readings).1.workOf revision = c.workOf revision :=
    (workOf_updateWork c selected revision fun _ =>
      ((c.workOf selected).executeSlice readings (kind.maxRpcAttemptsPerSlice.getD 0) c.nextCell
        kind.admissionTimeoutSeconds).1).trans (if_neg hne)
  rw [Invoked, hwork]
  rfl

/-! ## Every step -/

/-- What holds of the invocations in every reachable world. -/
structure InvocationsInvariant (keys : Finset WorkKey) (world : DemandWorld) : Prop where
  single : world.coordinator.SingleInvocations keys
  /-- The kind of a retained task that did not start yet still selects its revision. -/
  created : ∀ kind selected, .created kind selected ∈ world.retained →
    world.coordinator.retainedKind kind = true ∧
      world.coordinator.selectedOf kind = some selected

/-- The retained tasks that did not start yet are those of before. -/
def CreatedBefore (world world' : DemandWorld) : Prop :=
  ∀ kind selected, .created kind selected ∈ world'.retained →
    .created kind selected ∈ world.retained ∧
      world'.coordinator.retainedRevision = world.coordinator.retainedRevision

/-- A step that leaves the statuses and keeps the invocations single. -/
theorem InvocationsInvariant.of_single (h : InvocationsInvariant keys world)
    (hsingle : world'.coordinator.SingleInvocations keys)
    (hstatuses : world'.coordinator.statuses = world.coordinator.statuses)
    (hcreated : CreatedBefore world world') : InvocationsInvariant keys world' where
  single := hsingle
  created kind selected hmem := by
    obtain ⟨hold, hretained⟩ := hcreated kind selected hmem
    rw [selectedOf_congr hstatuses, retainedKind, hretained]
    exact h.created kind selected hold

/-- A step that makes no invocation and leaves the statuses. -/
theorem InvocationsInvariant.fewer (h : InvocationsInvariant keys world)
    (hfewer : ∀ revision, world'.coordinator.Invoked revision → world.coordinator.Invoked revision)
    (hstatuses : world'.coordinator.statuses = world.coordinator.statuses)
    (hcreated : CreatedBefore world world') : InvocationsInvariant keys world' :=
  h.of_single (h.single.fewer hfewer fun kind => Or.inr (selectedOf_congr hstatuses kind))
    hstatuses hcreated

/-- The start of a slice of a selected revision. -/
theorem InvocationsInvariant.execute (h : InvocationsInvariant keys world) {kind : DemandKind}
    {readings : SliceReadings} (hselected : world.coordinator.selectedOf kind = some selected)
    (hwork : world'.coordinator.workOf =
      (executeSlice world.coordinator kind selected readings).1.workOf)
    (hstatuses : world'.coordinator.statuses = world.coordinator.statuses)
    (hcreated : CreatedBefore world world') : InvocationsInvariant keys world' := by
  refine h.of_single (h.single.start hselected (fun revision hne => ?_) hstatuses) hstatuses
    hcreated
  rw [Invoked, hwork]
  exact (executeSlice_invoked world.coordinator kind selected readings hne).mp

/-- The keys of the work that the adapters report in the scan of a step are among those given. -/
def Reports (keys : Finset WorkKey) (world : DemandWorld) (step : DemandStep) : Prop :=
  ∀ c readings, world.scanOf step = some (c, readings) → ∀ kind ∈ durableDemandOrder,
    c.Asks readings.observedAt kind → ∀ revision ∈ reported (readings.answers kind),
      revision.key ∈ keys

/-- A scan keeps the invocations single and the retained task selected. -/
theorem InvocationsInvariant.scan {clearOffers : Bool} (h : InvocationsInvariant keys world)
    (hown : OwnKinds readings) (hqueue : world.coordinator.QueueInvariant)
    (hknown : ∀ kind ∈ durableDemandOrder, world.coordinator.Asks readings.observedAt kind →
      ∀ revision ∈ reported (readings.answers kind), revision.key ∈ keys)
    (hscan : world.coordinator.scan safetyScanSeconds readings clearOffers = some c) :
    InvocationsInvariant keys { world with coordinator := c } where
  single := h.single.scan hown hqueue hknown hscan
  created kind selected hmem := by
    obtain ⟨hretained, hselected⟩ := h.created kind selected hmem
    rw [selectedOf, scan_retained_status hown hqueue hscan hretained, retainedKind,
      (scan_result hown hqueue hscan).retained]
    exact ⟨hretained, hselected⟩

/-- Before the scan of a pass a retained task that is done is harvested. -/
theorem InvocationsInvariant.beforeScan (h : InvocationsInvariant keys world)
    (hworld : WorldInvariant world) : InvocationsInvariant keys world.beforeScan := by
  unfold DemandWorld.beforeScan harvestRetained
  split
  next failed retained hretained =>
    have hone : (RetainedTask.done failed :: retained).length ≤ 1 := hretained ▸ hworld.retainedOne
    have hnil : retained = [] := by
      rw [List.length_cons] at hone
      exact List.length_eq_zero_iff.mp (by omega)
    subst hnil
    exact h.fewer (fun _ => id) rfl fun _ _ hmem => nomatch hmem
  next => exact h.fewer (fun _ => id) rfl fun _ _ hmem => ⟨hmem, rfl⟩

/-- The run loop after a scan. -/
theorem InvocationsInvariant.selectAndRun {readings : PumpReadings}
    (h : InvocationsInvariant keys world) (hqueue : world.coordinator.QueueInvariant) :
    InvocationsInvariant keys (world.selectAndRun safetyScanSeconds readings) := by
  unfold DemandWorld.selectAndRun
  split
  next => exact h.fewer (fun _ => id) rfl fun _ _ hmem => ⟨hmem, rfl⟩
  next kind c hpop =>
    obtain ⟨-, -, -, hstatuses, hwork, hretained, -⟩ := popReady_result hqueue hpop
    have hpopped : InvocationsInvariant keys { world with coordinator := c } := by
      refine h.fewer (fun revision => ?_) hstatuses fun _ _ hmem => ⟨hmem, hretained⟩
      rw [Invoked, hwork]
      exact id
    split
    next => exact hpopped.fewer (fun _ => id) rfl fun _ _ hmem => ⟨hmem, rfl⟩
    next selected hselected =>
      have hselected : c.selectedOf kind = some selected := hselected
      dsimp only
      split_ifs with hretain hbusy
      · exact hpopped.fewer (fun _ => id) rfl fun _ _ hmem => ⟨hmem, rfl⟩
      · refine ⟨hpopped.single.fewer (fun _ => id) fun _ => Or.inr rfl, ?_⟩
        intro other current hmem
        obtain ⟨rfl, rfl⟩ := RetainedTask.created.inj (List.mem_singleton.mp hmem)
        refine ⟨?_, hselected⟩
        rw [retainedKind, Option.any_some, (hpopped.single.status _ _ hselected).1]
        exact decide_eq_true rfl
      · split
        next c' hexecute =>
          obtain rfl : (executeSlice c kind selected readings.slice).1 = c' := by rw [hexecute]
          exact hpopped.execute hselected rfl rfl fun _ _ hmem => ⟨hmem, rfl⟩
        next c' slice hexecute =>
          obtain rfl : (executeSlice c kind selected readings.slice).1 = c' := by rw [hexecute]
          exact hpopped.execute hselected rfl rfl fun _ _ hmem => ⟨hmem, rfl⟩

/-- A pass of the run loop. -/
theorem InvocationsInvariant.pumpPass {readings : PumpReadings}
    (h : InvocationsInvariant keys world) (hworld : WorldInvariant world)
    (hpump : world.pump ≠ .awaitingSlice) (hstopped : world.pump ≠ .stopped)
    (hown : OwnKinds readings.scan) (hreports : Reports keys world (.pump readings))
    (hpass : world.pumpPass safetyScanSeconds readings = some world') :
    InvocationsInvariant keys world' := by
  obtain ⟨hbefore, -⟩ := beforeScan_invariant hworld hpump hstopped
  have hstart := h.beforeScan hworld
  unfold DemandWorld.pumpPass at hpass
  split_ifs at hpass with hshutdown
  · cases hpass
    exact h.fewer (fun _ => id) rfl fun _ _ hmem => ⟨hmem, rfl⟩
  · dsimp only at hpass
    split_ifs at hpass with hfailed
    · cases hpass
      exact hstart
    · obtain ⟨c, hscan, rfl⟩ := Option.map_eq_some_iff.mp hpass
      have hscanOf : world.scanOf (.pump readings) =
          some (world.beforeScan.coordinator, readings.scan) := by
        rw [scanOf, if_neg (not_or.mpr ⟨hshutdown, hfailed⟩)]
      have hscanned := hstart.scan hown hbefore.queue (hreports _ _ hscanOf) hscan
      exact hscanned.selectAndRun (scan_result hown hbefore.queue hscan).invariant

/-- What an ended slice does besides its handler. -/
theorem afterResult_coordinator (world : DemandWorld) (result : SliceResult) :
    (world.afterResult result).coordinator.workOf = world.coordinator.workOf ∧
      (world.afterResult result).coordinator.statuses = world.coordinator.statuses ∧
      (world.afterResult result).coordinator.retainedRevision =
        world.coordinator.retainedRevision ∧
      (world.afterResult result).retained = world.retained := by
  unfold afterResult
  split
  · split_ifs <;> exact ⟨rfl, rfl, rfl, rfl⟩
  · exact ⟨rfl, rfl, rfl, rfl⟩

/-- The end of a slice. -/
theorem InvocationsInvariant.finish (h : InvocationsInvariant keys world) (slice : RunningSlice)
    (result : SliceResult) (readings : FinishReadings) {before : DemandWorld}
    (hcoordinator : world'.coordinator = (before.afterResult result).coordinator)
    (hwork : before.coordinator.workOf =
      (handleSlice world.coordinator slice result readings).workOf)
    (hstatuses : before.coordinator.statuses =
      (handleSlice world.coordinator slice result readings).statuses)
    (hretained : before.coordinator.retainedRevision =
      (handleSlice world.coordinator slice result readings).retainedRevision)
    (hcreated : ∀ kind selected, .created kind selected ∈ world'.retained →
      .created kind selected ∈ world.retained) : InvocationsInvariant keys world' := by
  obtain ⟨hwork', hstatuses', hretained', -⟩ := afterResult_coordinator before result
  have hfields := (handleSlice_fields world.coordinator slice result readings).2.2.2.1
  refine h.fewer (fun revision hrevision => ?_) ?_ fun kind selected hmem =>
    ⟨hcreated kind selected hmem, ?_⟩
  · refine @handleSlice_invoked _ slice result readings revision ?_
    rwa [hcoordinator, Invoked, hwork', hwork] at hrevision
  · rw [hcoordinator, hstatuses', hstatuses, handleSlice_statuses]
  · rw [hcoordinator, hretained', hretained, hfields]

/-- Every step keeps the invocations single. -/
theorem InvocationsInvariant.perform (h : InvocationsInvariant keys world)
    (hworld : WorldInvariant world) (hown : Owned step) (hreports : Reports keys world step)
    (hstep : DemandWorld.perform safetyScanSeconds world step = some world') :
    InvocationsInvariant keys world' := by
  cases step with
  | offer kind =>
    dsimp only [DemandWorld.perform] at hstep
    split_ifs at hstep
    · cases hstep
      exact h
    · cases hstep
      have hoffer : (world.coordinator.offer kind).workOf = world.coordinator.workOf ∧
          (world.coordinator.offer kind).statuses = world.coordinator.statuses := by
        unfold offer
        split_ifs <;> exact ⟨rfl, rfl⟩
      refine h.fewer (fun revision => ?_) hoffer.2 fun _ _ hmem =>
        ⟨hmem, (offer_fields world.coordinator kind).2.2.2.1⟩
      rw [Invoked, hoffer.1]
      exact id
  | eligibilityChanged methodKey now eligible =>
    cases hstep
    refine h.fewer (fun revision =>
      (eligibilityChanged_invoked world.coordinator methodKey now eligible revision).mp) ?_
      fun _ _ hmem => ⟨hmem,
        (eligibilityChanged_fields world.coordinator methodKey now eligible).2.2.2.1⟩
    cases methodKey <;> rfl
  | scan readings clearOffers =>
    obtain ⟨c, hscan, rfl⟩ := Option.map_eq_some_iff.mp hstep
    exact h.scan hown hworld.queue (hreports _ _ rfl) hscan
  | pump readings =>
    dsimp only [DemandWorld.perform] at hstep
    split_ifs at hstep with hmay
    obtain ⟨hpump, hstopped⟩ := mayPass_pump hmay
    exact h.pumpPass hworld hpump hstopped hown hreports hstep
  | beginRetained readings =>
    dsimp only [DemandWorld.perform] at hstep
    unfold DemandWorld.beginRetained at hstep
    split at hstep
    next kind selected retained hcreated =>
      obtain ⟨-, hselected⟩ := h.created kind selected (hcreated ▸ List.mem_cons_self)
      split at hstep
      next c hexecute =>
        obtain rfl : (executeSlice world.coordinator kind selected readings).1 = c := by
          rw [hexecute]
        cases hstep
        refine h.execute hselected rfl rfl fun other current hmem => ⟨?_, rfl⟩
        rw [hcreated]
        exact List.mem_cons_of_mem _ ((List.mem_cons.mp hmem).resolve_left RetainedTask.noConfusion)
      next c slice hexecute =>
        obtain rfl : (executeSlice world.coordinator kind selected readings).1 = c := by
          rw [hexecute]
        cases hstep
        refine h.execute hselected rfl rfl fun other current hmem => ⟨?_, rfl⟩
        rw [hcreated]
        exact List.mem_cons_of_mem _ ((List.mem_cons.mp hmem).resolve_left RetainedTask.noConfusion)
    next => cases hstep
  | finishInline result readings =>
    dsimp only [DemandWorld.perform] at hstep
    unfold DemandWorld.finishInline at hstep
    split at hstep
    next => cases hstep
    next slice inline hinline =>
      cases hstep
      refine h.finish slice result readings rfl ?_ ?_ ?_ fun _ _ hmem => ?_
      iterate 3 rfl
      change _ ∈ (afterResult _ _).retained at hmem
      rwa [(afterResult_coordinator _ result).2.2.2] at hmem
  | finishRetained result readings =>
    dsimp only [DemandWorld.perform] at hstep
    unfold DemandWorld.finishRetained at hstep
    split at hstep
    next slice retained hslice =>
      cases hstep
      refine h.finish slice result readings rfl ?_ ?_ ?_ fun _ _ hmem => ?_
      iterate 3 rfl
      rw [hslice]
      exact List.mem_cons_of_mem _ ((List.mem_cons.mp hmem).resolve_left RetainedTask.noConfusion)
    next => cases hstep
  | stopRetained =>
    dsimp only [DemandWorld.perform] at hstep
    unfold DemandWorld.stopRetained at hstep
    split at hstep
    next => cases hstep
    next =>
      split_ifs at hstep
      cases hstep
      exact h.fewer (fun _ => id) rfl fun _ _ hmem => absurd hmem List.not_mem_nil
  | requestShutdown =>
    cases hstep
    exact h.fewer (fun _ => id) rfl fun _ _ hmem => ⟨hmem, rfl⟩

/-! ## Runs -/

/-- Nothing has an invocation at first. -/
theorem invocationsInvariant_initial (keys : Finset WorkKey) : InvocationsInvariant keys {} where
  single :=
    { apart := fun _ _ hfirst => nomatch hfirst
      known := fun _ hrevision => nomatch hrevision
      status := fun _ _ hselected => nomatch hselected }
  created _ _ hmem := nomatch hmem

/-- Every run keeps the invocations single. -/
theorem run_invocationsInvariant {steps : List DemandStep} (h : InvocationsInvariant keys world)
    (hworld : WorldInvariant world) (hown : ∀ step ∈ steps, Owned step)
    (hreports : Along (DemandWorld.perform safetyScanSeconds) (Reports keys) world steps)
    (hrun : run (DemandWorld.perform safetyScanSeconds) world steps = some world') :
    InvocationsInvariant keys world' := by
  induction steps generalizing world with
  | nil => exact (Option.some.inj hrun) ▸ h
  | cons step steps ih =>
    obtain ⟨next, hstep, hrest⟩ := run_cons_eq_some.mp hrun
    obtain ⟨hfirst, hlater⟩ := (along_cons hstep).mp hreports
    have hstepOwn := hown step List.mem_cons_self
    exact ih (h.perform hworld hstepOwn hfirst hstep) (perform_turn hworld hstepOwn hstep).1
      (fun other hmem => hown other (List.mem_cons_of_mem _ hmem)) hlater hrest

/-- The revision of a slice that a step ends with a committed outcome. -/
def commits (world : DemandWorld) : DemandStep → Option WorkRevision
  | .finishInline (.outcome (some outcome)) _ =>
    match world.inline with
    | slice :: _ => if outcome.committed slice.selected then some slice.selected else none
    | [] => none
  | .finishRetained (.outcome (some outcome)) _ =>
    match world.retained with
    | .running slice :: _ => if outcome.committed slice.selected then some slice.selected else none
    | _ => none
  | _ => none

/-- A committed outcome is about the revision of the slice. -/
theorem selected_of_committed (h : outcome.committed selected = true) :
    outcome.selected = selected := by
  by_contra hne
  rw [SliceOutcome.committed, SliceOutcome.committedRevisionFor, if_neg hne] at h
  exact absurd (of_decide_eq_true h).2 Bool.false_ne_true

/-- After a committed outcome nothing is left of the revision. -/
theorem perform_commits (hcommits : world.commits step = some selected)
    (hstep : perform safetyScanSeconds world step = some world') :
    world'.coordinator.workOf selected = {} := by
  unfold commits at hcommits
  split at hcommits
  next outcome readings =>
    split at hcommits
    next slice inline hinline =>
      split_ifs at hcommits with hcommitted
      cases hcommits
      dsimp only [perform] at hstep
      unfold finishInline at hstep
      rw [hinline] at hstep
      cases hstep
      exact handleSlice_committed world.coordinator slice readings
        (selected_of_committed hcommitted) hcommitted
    next => cases hcommits
  next outcome readings =>
    split at hcommits
    next slice retained hretained =>
      split_ifs at hcommits with hcommitted
      cases hcommits
      dsimp only [perform] at hstep
      unfold finishRetained at hstep
      rw [hretained] at hstep
      cases hstep
      exact handleSlice_committed world.coordinator slice readings
        (selected_of_committed hcommitted) hcommitted
    next => cases hcommits
  next => cases hcommits

/-- The scan of a step starts in a sound queue. -/
theorem queueInvariant_of_scanOf (hworld : WorldInvariant world)
    (hscanOf : world.scanOf step = some (c, readings))
    (hstep : perform safetyScanSeconds world step = some world') : c.QueueInvariant := by
  cases step with
  | scan readings clearOffers =>
    cases hscanOf
    exact hworld.queue
  | pump readings =>
    dsimp only [perform] at hstep
    split_ifs at hstep with hmay
    obtain ⟨hpump, hstopped⟩ := mayPass_pump hmay
    dsimp only [scanOf] at hscanOf
    split_ifs at hscanOf
    cases hscanOf
    exact (beforeScan_invariant hworld hpump hstopped).1.queue
  | offer | eligibilityChanged | beginRetained | finishInline | finishRetained | stopRetained
  | requestShutdown => cases hscanOf

/-- The adapters of the scan of a step report work of their own kind. -/
theorem ownKinds_of_scanOf (hown : Owned step) (hscanOf : world.scanOf step = some (c, readings)) :
    OwnKinds readings := by
  unfold scanOf at hscanOf
  split at hscanOf
  · cases hscanOf
    exact hown
  · split_ifs at hscanOf
    cases hscanOf
    exact hown
  · cases hscanOf

/-- Superseded work.  In every reachable world each key has at most one revision with an
invocation, and only keys have one that an adapter has reported.  After a scan in which the adapter
of a kind reported work, the revision of a key that it reported last is the only one with an
invocation, and the others that had one and were not reported are in none of the maps.  After a
committed outcome nothing is left of its revision. -/
theorem superseded_invocations_forgotten (safetyScanSeconds : ℚ) (keys : Finset WorkKey)
    (steps : List DemandStep) (world : DemandWorld) (hown : ∀ step ∈ steps, Owned step)
    (hreports : Along (perform safetyScanSeconds) (Reports keys) {} steps)
    (hrun : run (perform safetyScanSeconds) {} steps = some world) :
    (∀ revisions : Finset WorkRevision,
      (∀ revision ∈ revisions, world.coordinator.Invoked revision) →
        Set.InjOn WorkRevision.key revisions ∧ revisions.image WorkRevision.key ⊆ keys ∧
          revisions.card ≤ keys.card) ∧
    ∀ step world', Owned step → perform safetyScanSeconds world step = some world' →
      (∀ c readings clearOffers c', world.scanOf step = some (c, readings) →
        c.scan safetyScanSeconds readings clearOffers = some c' →
        ∀ kind ∈ durableDemandOrder, c.Asks readings.observedAt kind →
        ∀ selected, Latest selected (reported (readings.answers kind)) →
        ∀ other ≠ selected, other.key = selected.key →
          ¬ c'.Invoked other ∧
            (c.Invoked other → other ∉ reported (readings.answers kind) →
              c'.workOf other = {})) ∧
      ∀ selected, world.commits step = some selected → world'.coordinator.workOf selected = {} := by
  have hworld := run_worldInvariant worldInvariant_initial hown hrun
  have h := run_invocationsInvariant (invocationsInvariant_initial keys) worldInvariant_initial hown
    hreports hrun
  refine ⟨fun revisions hinvoked => ?_, fun step world' hstepOwn hstep => ⟨?_, ?_⟩⟩
  · have hinj : Set.InjOn WorkRevision.key revisions := fun first hfirst second hsecond =>
      h.single.apart first second (hinvoked first hfirst) (hinvoked second hsecond)
    have hsub : revisions.image WorkRevision.key ⊆ keys := by
      intro key hkey
      obtain ⟨revision, hrevision, rfl⟩ := Finset.mem_image.mp hkey
      exact h.single.known revision (hinvoked revision hrevision)
    refine ⟨hinj, hsub, ?_⟩
    rw [← Finset.card_image_of_injOn hinj]
    exact Finset.card_le_card hsub
  · intro c readings clearOffers c' hscanOf hscan kind hkind hasks selected hlatest other hne hkey
    exact scan_latest (ownKinds_of_scanOf hstepOwn hscanOf)
      (queueInvariant_of_scanOf hworld hscanOf hstep) hscan hkind hasks hlatest hne hkey
  · intro selected hcommits
    exact perform_commits hcommits hstep

/-- The revision that the sample pass selects. -/
def sampleRevision : WorkRevision := ⟨⟨.fullSyncPage, 1, "7"⟩, "a"⟩

/-- The statement on a pass and the end of its slice. -/
theorem superseded_invocations_forgotten_sample : ∃ world world' : DemandWorld,
    run (perform 60) {} [samplePass] = some world ∧
    perform 60 world sampleFinish = some world' ∧
    world.coordinator.Invoked sampleRevision ∧
    world'.coordinator.workOf sampleRevision = {} ∧
    ∀ revisions : Finset WorkRevision,
      (∀ revision ∈ revisions, world.coordinator.Invoked revision) → revisions.card ≤ 1 := by
  have hfacts : (run (perform 60) {} [samplePass]).map (fun world =>
      (decide (world.coordinator.Invoked sampleRevision), world.commits sampleFinish,
        (perform 60 world sampleFinish).isSome)) = some (true, some sampleRevision, true) := by
    decide +kernel
  obtain ⟨world, hworld, hfacts⟩ := Option.map_eq_some_iff.mp hfacts
  obtain ⟨hinvoked, hrest⟩ := Prod.mk.inj hfacts
  obtain ⟨hcommits, hsome⟩ := Prod.mk.inj hrest
  obtain ⟨world', hfinish⟩ := Option.isSome_iff_exists.mp hsome
  have hown : ∀ step ∈ [samplePass], Owned step := by
    intro step hmem
    rw [List.mem_singleton.mp hmem]
    exact sampleScan_own
  have hreports : Along (perform 60) (Reports {sampleRevision.key}) {} [samplePass] := by
    refine ⟨fun c readings hscan kind _ _ revision hmem => ?_, fun _ _ => trivial⟩
    rw [samplePass, scanOf, if_neg (by decide +kernel)] at hscan
    obtain ⟨rfl, rfl⟩ := Prod.mk.inj (Option.some.inj hscan)
    unfold sampleScan at hmem
    dsimp only at hmem
    split_ifs at hmem
    · rw [Finset.mem_singleton, List.mem_singleton.mp hmem]
      rfl
    · cases hmem
  obtain ⟨hbound, hsteps⟩ :=
    superseded_invocations_forgotten 60 {sampleRevision.key} [samplePass] world hown hreports hworld
  exact ⟨world, world', hworld, hfinish, of_decide_eq_true hinvoked,
    (hsteps sampleFinish world' trivial hfinish).2 sampleRevision hcommits,
    fun revisions hinv => (hbound revisions hinv).2.2⟩

/-- A scan in which the adapter of the full synchronization gives these answers and the others have
no work. -/
def scanAnswering (answers : List StatusReading) : DemandStep :=
  .scan
    { observedAt := 10
      expiredAt := 10
      transientAt := fun _ => 10
      answers := fun kind =>
        if kind = .fullSyncPage then answers else [{ answer := some none, now := 10 }] }
    true

/-- An answer that selects a revision. -/
def answerSelecting (selected : WorkRevision) (gate : Option RpcGate) : StatusReading where
  answer := some (some { releaseAt := 0, selected := some selected })
  now := 10
  gate := gate

/-- A revision that waits behind a gate without an invocation stays in the maps after a scan in
which its adapter reports another revision of its key; and a revision with an invocation stays there
after a scan in which the adapters report nothing at all. -/
theorem superseded_work_remains :
    (run (perform 60) {}
        [scanAnswering [answerSelecting sampleRevision (some (.methodRecoveryPending "m" "")),
            { answer := some none, now := 10 }],
          scanAnswering [answerSelecting { sampleRevision with revision := "b" } none]]).map
      (fun world => (world.coordinator.workOf sampleRevision).excluded) = some true ∧
    (run (perform 60) {}
        [samplePass,
          .finishInline .saturated
            { handler := { now := 10 }, budget := { limit := 1 }
              releaseAt := fun _ => 10, eligible := fun _ _ => true },
          scanAnswering [{ answer := some none, now := 10 }]]).map
      (fun world => decide (world.coordinator.Invoked sampleRevision)) = some true := by
  constructor <;> decide +kernel

end DemandWorld

end McpTelegram
