import McpTelegram.Scheduler.Consumers

/-!
# The coordinator state of one work revision

`telegram_demand_coordinator.py` keeps eight maps from work revisions: `_invocations`,
`_excluded`, `_exclusion_reasons`, `_eligibility_waits`, `_released_gate_waits`,
`_transient_waits`, `_transient_stages` and `_revision_methods`.  Its handlers change the entries
of one revision at a time, so that a `WorkState` holds what the eight maps say of one revision and
each handler is a function of it.  `_retry_candidate` of a budget is left out, because the
coordinator never reads it.
-/

namespace McpTelegram

/-! ## Contracts -/

/-- `RETAINED_DEMAND_KINDS`. -/
def retainedDemandKinds : List DemandKind := [.entityProfileRefresh]

/-- `DURABLE_DEMAND_ORDER`. -/
def durableDemandOrder : List DemandKind :=
  [.selfProfileMaintenance, .entityProfileRefresh, .deltaGapFill, .dmDeletionReconciliation,
    .deltaAccessProbe, .hotActivityPage, .liveHydrationBatch, .fullSyncDmEnrollment,
    .fullSyncPage, .dialogBootstrap, .dialogLightReconciliation, .archiveBackfill,
    .archiveIncremental, .coldPeerPage, .backfillHydrationBatch, .folderSnapshot,
    .contactCatalogue, .topicSnapshot, .messageFactRefresh, .readReceiptBatch, .scheduledRepair,
    .scheduledDiscovery, .messageImageAcquisition, .draftSnapshot, .linkedChatRefresh]

theorem durableDemandOrder_nodup : durableDemandOrder.Nodup := by decide

/-- `max_rpc_attempts_per_slice` of a demand contract. -/
def DemandKind.maxRpcAttemptsPerSlice : DemandKind → Option ℕ
  | .operatorAuth | .fullSyncDmEnrollment | .dialogBootstrap | .messageImageAcquisition => some 32
  | .telethonConnectionBootstrap | .messageFactRefresh | .readReceiptBatch | .scheduledRepair
  | .scheduledDiscovery => some 16
  | .dialogLightReconciliation => some 8
  | .topicSnapshot | .noteCommand => some 4
  | .draftMutation | .folderCommand | .contactCommand => some 3
  | .hotActivityPage | .liveHydrationBatch | .coldPeerPage | .backfillHydrationBatch
  | .folderSnapshot | .selfProfileMaintenance => some 2
  | .operatorLogout | .entityProfileRefresh | .deltaGapFill | .dmDeletionReconciliation
  | .deltaAccessProbe | .fullSyncPage | .archiveBackfill | .archiveIncremental | .contactCatalogue
  | .draftSnapshot | .scheduledMutation | .linkedChatRefresh => some 1
  | _ => none

/-- `admission_timeout_seconds` of a demand contract. -/
def DemandKind.admissionTimeoutSeconds (kind : DemandKind) : ℚ :=
  match kind.serviceClass with
  | .interactive => 15
  | .liveSync => 60
  | .background => 900

/-- `backoff_seconds(RecoveryCause.TRANSIENT, failure_stage)`: the base 30 and the cap 1800, whose
bit length is 11. -/
def transientBackoffSeconds (failureStage : ℕ) : ℕ := min (30 <<< min failureStage 11) 1800

/-! ## Identities and answers -/

/-- `WorkKey`. -/
structure WorkKey where
  demandKind : DemandKind
  accountId : ℕ
  target : String
  deriving DecidableEq

/-- `WorkRevision`. -/
structure WorkRevision where
  key : WorkKey
  revision : String
  deriving DecidableEq

/-- `DemandStatus`. -/
structure DemandStatus where
  releaseAt : ℚ
  freshnessDeadline : Option ℚ := none
  selected : Option WorkRevision := none
  requestMethod : Option String := none
  deriving DecidableEq

/-- `is_ready`. -/
def DemandStatus.isReady (status : DemandStatus) (now : ℚ) : Bool := status.releaseAt ≤ now

/-- An exception of the gates.  A throttle without a finite wait is latched; of the generation of
a deferral only its presence is read. -/
inductive RpcGate where
  | admissionDeferred (methodKey : Option String) (hasGeneration : Bool)
      (eligibleAt : Option ℚ) (reason : Option String)
  | methodRecoveryPending (methodKey reason : String)
  | throttled (retryAfterSeconds : Option ℕ)
  deriving DecidableEq

/-- `RpcAttemptBudget`. -/
structure RpcAttemptBudget where
  limit : ℕ
  attempts : ℕ := 0
  lastMethod : Option String := none
  readBudgetFailureMethod : Option String := none
  deriving DecidableEq

/-- `exhausted`. -/
def RpcAttemptBudget.exhausted (budget : RpcAttemptBudget) : Bool := budget.limit ≤ budget.attempts

/-- `_Invocation`; `cell` tells one object from the others. -/
structure DemandInvocation where
  budget : RpcAttemptBudget
  deadline : Option ℚ
  cell : ℕ
  deriving DecidableEq

/-- `a or b` on optional strings: the empty string is false too. -/
def textOr (a b : Option String) : Option String :=
  match a with
  | none | some "" => b
  | some text => some text

/-- `_method_wait_reason`. -/
def methodWaitReason (reason : Option String) (default : String) : String :=
  match reason with
  | some "read_budget_retry" => "read_budget_retry"
  | some "method_mixed_retry" => "method_mixed_retry"
  | _ => default

/-! ## The entries of one revision -/

/-- What the eight maps hold of one revision. -/
structure WorkState where
  /-- `_invocations`. -/
  invocation : Option DemandInvocation := none
  /-- `_excluded`. -/
  excluded : Bool := false
  /-- `_exclusion_reasons`. -/
  exclusionReason : Option String := none
  /-- `_eligibility_waits`: the outer option says whether the map has the revision. -/
  eligibilityWait : Option (Option ℚ) := none
  /-- `_released_gate_waits`. -/
  releasedGateWait : Bool := false
  /-- `_transient_waits`. -/
  transientWait : Option ℚ := none
  /-- `_transient_stages`. -/
  transientStage : Option ℕ := none
  /-- `_revision_methods`. -/
  method : Option String := none
  deriving DecidableEq

namespace WorkState

/-- The reasons whose release is marked in `_released_gate_waits`. -/
def gateReasons : List String :=
  ["admission_deferred", "admission_saturated", "flood_wait", "method_recovery_pending",
    "read_budget_retry", "method_mixed_retry"]

/-- `_release_gate_wait`. -/
def releaseGateWait (work : WorkState) : WorkState :=
  { work with
    releasedGateWait :=
      work.releasedGateWait ||
        (work.eligibilityWait.isSome && work.exclusionReason.any fun r => r ∈ gateReasons)
    eligibilityWait := none
    excluded := false
    exclusionReason := none }

/-- `_transient_ready`. -/
def transientReady (work : WorkState) (now : ℚ) : Bool := work.transientWait.getD 0 ≤ now

/-- `_wait_ready`: the transient backoff and the deadline of the gate have passed. -/
def waitReady (work : WorkState) (now : ℚ) : Bool :=
  work.transientReady now &&
    match work.eligibilityWait with
    | some (some deadline) => deadline ≤ now
    | _ => true

/-- One turn of `_prepare_expired_gate_waits`. -/
def prepareExpiredGateWait (now : ℚ) (work : WorkState) : WorkState :=
  match work.eligibilityWait with
  | some (some eligibleAt) =>
    if eligibleAt ≤ now ∧ work.transientWait.all (fun deadline => deadline ≤ now) then
      work.releaseGateWait
    else work
  | _ => work

/-- One turn of the loop of `scan` over the transient waits. -/
def expireTransientWait (now : ℚ) (work : WorkState) : WorkState :=
  match work.transientWait with
  | some eligibleAt =>
    if eligibleAt ≤ now ∧ work.eligibilityWait = none then
      { work with excluded := false, exclusionReason := none }
    else work
  | none => work

/-- `_method_for_work`, with the budget of the invocation. -/
def methodForWork (work : WorkState) (budget : Option RpcAttemptBudget)
    (advisory : Option String) : Option String :=
  textOr (textOr work.method (budget.bind RpcAttemptBudget.lastMethod)) advisory

/-- The budget of the stored invocation. -/
def budget (work : WorkState) : Option RpcAttemptBudget :=
  work.invocation.map DemandInvocation.budget

/-- The revision excluded with a reason. -/
def exclude (work : WorkState) (reason : String) : WorkState :=
  { work with excluded := true, exclusionReason := some reason }

/-- The revision parked behind a gate. -/
def park (work : WorkState) (reason : String) (eligibleAt : Option ℚ) : WorkState :=
  { work.exclude reason with eligibilityWait := some eligibleAt }

/-- `self._revision_methods[selected] = method`, unless there is no method. -/
def setMethod (work : WorkState) (method : Option String) : WorkState :=
  { work with method := method.or work.method }

/-- `_park_throttle`. -/
def parkThrottle (work : WorkState) (now : ℚ) (method : Option String)
    (retryAfterSeconds : Option ℕ) : WorkState :=
  let work := work.setMethod method
  match retryAfterSeconds with
  | none => work.park "flood_wait" none
  | some seconds =>
    work.park "flood_wait" (some (max ((work.eligibilityWait.bind id).getD 0) (now + seconds)))

/-- `_strengthen_throttle_wait`. -/
def strengthenThrottleWait (work : WorkState) (now : ℚ) (retryAfterSeconds : Option ℕ)
    (capacity : Bool) : WorkState :=
  if work.eligibilityWait.bind id = none ∧ capacity = false then work
  else
    match retryAfterSeconds with
    | none => work.park "flood_wait" none
    | some seconds =>
      work.park "flood_wait" (some (max ((work.eligibilityWait.bind id).getD 0) (now + seconds)))

/-- `_schedule_transient_retry`. -/
def scheduleTransientRetry (work : WorkState) (now : ℚ) : WorkState :=
  let stage := work.transientStage.getD 0
  { work.exclude "retryable_failure" with
    transientStage := some (stage + 1)
    transientWait := some (now + transientBackoffSeconds stage) }

/-! ## The answer of a status -/

/-- `_park_method_deferral`. -/
def parkMethodDeferral (work : WorkState) (limit cell : ℕ) (method methodKey : Option String)
    (hasGeneration : Bool) (eligibleAt : Option ℚ) (reason : Option String) : WorkState :=
  let invocation :=
    if hasGeneration then
      work.invocation.or (some { budget := { limit }, deadline := none, cell })
    else work.invocation
  let work := { work with invocation }.setMethod (textOr methodKey method)
  work.park (methodWaitReason reason "admission_deferred") eligibleAt

/-- `_eligibility_status` for a ready status, up to the release time of the answer: the gate
answered for the method of the revision. -/
def meetGate (work : WorkState) (limit cell : ℕ) (now : ℚ) (requestMethod : Option String) :
    Option RpcGate → WorkState
  | none => { work with eligibilityWait := none }
  | some (.admissionDeferred methodKey hasGeneration eligibleAt reason) =>
    work.parkMethodDeferral limit cell (work.methodForWork work.budget requestMethod) methodKey
      hasGeneration eligibleAt reason
  | some (.methodRecoveryPending methodKey reason) =>
    (work.setMethod (some methodKey)).park
      (methodWaitReason (some reason) "method_recovery_pending") none
  | some (.throttled retryAfterSeconds) =>
    work.parkThrottle now (work.methodForWork work.budget requestMethod) retryAfterSeconds

end WorkState

end McpTelegram
