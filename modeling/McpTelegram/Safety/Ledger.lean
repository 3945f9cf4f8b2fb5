import McpTelegram.Safety.Record

/-!
# The operations of the safety ledger

`TelegramRpcSafetyLedger` of `telegram_rpc.py`.  Every operation is split as the source splits it
around `_commit`: what it does to the fields of the ledger before the save, the record that it
proposes to save (or the error that it raises), and what it does to the ledger once the record is
saved.  All clock readings of one call happen at one instant.
-/

namespace McpTelegram

open Foundations

/-- What one call reads from outside the ledger: both clocks, the canonical owners of the store,
whether other calls are still in flight, and the identifiers that `uuid.uuid4().hex` draws. -/
structure Moment where
  monotonic : ℚ
  utc : ℚ
  owners : Option ℤ × Option ℤ
  operationsPending : Bool
  uuid : ℕ → String

/-- Every canonical owner meets a condition. -/
def Moment.allOwners (now : Moment) (p : Option ℤ → Bool) : Bool := p now.owners.1 && p now.owners.2

/-- The exceptions of the ledger with their texts. -/
inductive LedgerError
  | valueError (message : String)
  | runtimeError (message : String)
  | throttled (detail : String)
  | keyError

/-- The fields of a ledger whose record could be read. -/
structure SafetyLedger where
  bootId : String
  run : String
  record : SafetyRecord
  claimed : List String := []
  storageFailed : Bool := false
  startupHold : Option Protection := none
  readScopeValid : Bool := false
  authenticationAuthorized : Bool := false
  autoResumeEnabled : Bool := false
  autoResumeRebased : Bool := false

namespace SafetyLedger

/-! ## Reading the ledger -/

/-- `_recovery_floor`. -/
def recoveryFloor (self : SafetyLedger) (floor : SafetyFloor) : RecoveryFloor where
  untilMonotonic := floor.untilMonotonic
  untilUtc := floor.untilUtc
  remainingSeconds := floor.remainingSeconds
  sameBoot := floor.bootId = self.bootId

/-- `_floor_release_at`. -/
def floorReleaseAt (self : SafetyLedger) (now : Moment) (floor : SafetyFloor) : ℚ :=
  recoveryFloorReleaseAt (self.recoveryFloor floor) now.monotonic now.utc

/-- `floor_deadline`. -/
def floorDeadline (self : SafetyLedger) (now : Moment) : ℚ :=
  self.floorReleaseAt now self.record.floor

/-- `protection_reason`. -/
def protectionReason (self : SafetyLedger) : Option Protection :=
  if self.storageFailed then some .safetyStorageFailure
  else self.startupHold.or self.record.protection

/-- `require_writable`. -/
def requireWritable (self : SafetyLedger) (authOnly : Bool) : Except LedgerError Unit :=
  if authOnly then
    if self.authenticationAuthorized ∧ self.storageFailed = false then .ok ()
    else .error (.runtimeError "authentication authorization is not active")
  else if self.protectionReason ≠ none then
    .error (.throttled "Telegram outbound safety protection is active")
  else .ok ()

/-- The reasons that name a scope this ledger does not own. -/
def scopeMismatch : List Protection := [.safetyAuthScopeMismatch, .safetyCanonicalOwnerMismatch]

/-- `verified_account_id`. -/
def verifiedAccountId (self : SafetyLedger) : Option ℤ :=
  if self.readScopeValid = false then none
  else if self.startupHold.any (· ∈ scopeMismatch) || self.record.protection.any (· ∈ scopeMismatch)
  then none
  else if self.record.transition.any fun transition =>
      transition.purpose = .logout && transition.phase = .logoutConfirmed then none
  else if self.record.scope.stage = .verified then self.record.scope.accountId
  else none

/-- `_rebase_floor`. -/
def rebaseFloor (self : SafetyLedger) (now : Moment) (floor : SafetyFloor) : SafetyFloor :=
  if floor.bootId ≠ self.bootId then
    let remaining := max (max floor.remainingSeconds (floor.untilUtc - now.utc)) 0
    { bootId := self.bootId
      untilMonotonic := now.monotonic + remaining
      untilUtc := max floor.untilUtc (now.utc + remaining)
      remainingSeconds := remaining }
  else floor

/-- The floor that holds for a delay from now on. -/
def freshFloor (self : SafetyLedger) (now : Moment) (delay : ℚ) : SafetyFloor where
  bootId := self.bootId
  untilMonotonic := now.monotonic + delay
  untilUtc := now.utc + delay
  remainingSeconds := delay

/-! ## Automatic recovery -/

/-- `_auto_resume_outcomes_settled`. -/
def autoResumeOutcomesSettled (record : SafetyRecord) : Bool :=
  Dictionary.all record.intents fun _ intent =>
    !intentBlocks intent record.scope ||
      (intent.scope = record.scope.binding && rpcEffect intent.method = .nonmutatingRead)

/-- The protections under which an automatic recovery may act. -/
def autoResumeAllowed : List Protection :=
  [.unresolvedOutboundOutcome, .recoveryTrialIncomplete, .recoveryTrialFailed,
    .floodWaitCircuitOpen, .transportUnavailable]

/-- `_auto_resume_scope_safe`. -/
def autoResumeScopeSafe (self : SafetyLedger) (now : Moment) (record : SafetyRecord)
    (allowClaimed : Bool) : Bool :=
  !self.storageFailed && self.verifiedAccountId.isSome &&
    (allowClaimed || self.claimed.isEmpty) && self.startupHold.all (· ∈ autoResumeAllowed) &&
    record.protection.all (· ∈ autoResumeAllowed) && record.transition.isNone &&
    now.allOwners (fun owner => owner = none || owner = record.scope.accountId) &&
    autoResumeOutcomesSettled record

/-- The mode of `_auto_recovery_identity`. -/
def autoRecoveryMode (record : SafetyRecord) : RecoveryMode :=
  match record.recovery with
  | none => .none
  | some trial => if trial.automatic.isSome then .auto else .manual

/-- The phase of `_auto_recovery_identity`. -/
def autoRecoveryPhase (record : SafetyRecord) : RecoveryPhase :=
  match record.recovery with
  | none => .none
  | some trial => trial.state

/-- The run of `_auto_recovery_identity`. -/
def autoRecoveryRun (self : SafetyLedger) (record : SafetyRecord) : RecoveryRun :=
  match record.recovery.bind (·.consumedRun) with
  | none => .absent
  | some consumedRun => if consumedRun = self.run then .current else .other

/-- `_auto_owner_pending`. -/
def autoOwnerPending (self : SafetyLedger) (now : Moment) (record : SafetyRecord) : Bool :=
  !self.claimed.isEmpty ||
    (Dictionary.any record.intents fun _ intent =>
      intent.phase = .prepared && intent.run = self.run) ||
    now.operationsPending

/-- `_auto_observed_cause`. -/
def autoObservedCause (self : SafetyLedger) (record : SafetyRecord)
    (cause : Option RecoveryCause) : Option RecoveryCause :=
  match cause with
  | some cause => some cause
  | none =>
    if record.protection = some .floodWaitCircuitOpen then some .floodWait
    else if record.protection = some .transportUnavailable then some .transient
    else if (Dictionary.any record.intents fun _ intent =>
        intentBlocks intent record.scope && (intent.phase = .unknown || intent.run ≠ self.run)) ||
        self.startupHold = some .unresolvedOutboundOutcome then some .readUncertainty
    else none

/-- `_auto_transition_cause`. -/
def autoTransitionCause (self : SafetyLedger) (record : SafetyRecord) (event : RecoveryEvent)
    (cause : Option RecoveryCause) : Option RecoveryCause :=
  let interrupted := record.recovery.any fun trial =>
    trial.state = .consumed && trial.consumedRun ≠ some self.run
  if event = .due ∨ (event = .startupReconcile ∧ interrupted) then
    record.recovery.bind fun trial => trial.automatic.map (·.cause)
  else self.autoObservedCause record cause

/-- `_auto_record_due`. -/
def autoRecordDue (self : SafetyLedger) (now : Moment) (record : SafetyRecord) : Bool :=
  match record.recovery with
  | none => false
  | some trial =>
    match trial.automatic.bind (·.scheduledDue) with
    | none => false
    | some due =>
      trial.state = .waiting && trial.scope = record.scope &&
        max (self.floorReleaseAt now record.floor) (self.floorReleaseAt now due) ≤ now.monotonic

/-- `_auto_transition_safe`. -/
def autoTransitionSafe (self : SafetyLedger) (now : Moment) (record : SafetyRecord)
    (event : RecoveryEvent) : Bool :=
  let safe := self.autoResumeScopeSafe now record true
  if safe = false ∨ event ≠ .stabilityConfirmed then safe
  else
    self.protectionReason = none && self.floorReleaseAt now record.floor ≤ now.monotonic

/-- What a caller of `_decide_auto_transition` reports. -/
structure AutoReport where
  cause : Option RecoveryCause := none
  quiesced : Bool := false
  stabilityConfirmed : Bool := false
  lifecycleAvailable : Bool := true

/-- `_auto_recovery_snapshot`. -/
def autoRecoverySnapshot (self : SafetyLedger) (now : Moment) (record : SafetyRecord)
    (event : RecoveryEvent) (report : AutoReport) : RecoverySnapshot where
  phase := autoRecoveryPhase record
  mode := autoRecoveryMode record
  run := self.autoRecoveryRun record
  cause := self.autoTransitionCause record event report.cause
  safe := self.autoTransitionSafe now record event
  ownerPending := self.autoOwnerPending now record
  quiesced := report.quiesced
  due := self.autoRecordDue now record
  floodBudgetAvailable :=
    match record.recovery.bind (·.automatic) with
    | none => true
    | some automatic => automatic.attemptsByPolicy.floodWait < autoResumeDelays
  stabilityConfirmed := report.stabilityConfirmed
  enabled := self.autoResumeEnabled
  lifecycleAvailable := report.lifecycleAvailable

/-- `_decide_auto_transition`. -/
def decideAutoTransition (self : SafetyLedger) (now : Moment) (record : SafetyRecord)
    (event : RecoveryEvent) (report : AutoReport) : RecoveryDecision :=
  decideAutoRecovery (self.autoRecoverySnapshot now record event report) event

/-- `_new_auto_episode`. -/
def newAutoEpisode (now : Moment) (cause : RecoveryCause) : AutomaticRecovery where
  episodeId := now.uuid 0
  policyVersion := 1
  cause := cause
  attemptsTotal := 0
  attemptsByPolicy := {}
  failureStages := {}
  quietAnchor := none
  scheduledDue := none
  boundIntentIds := []
  lastTransitionKey := none

/-- The condition of `_exhaust_auto_if_needed`. -/
def autoExhausted (automatic : AutomaticRecovery) (cause : RecoveryCause) : Bool :=
  cause = .floodWait && autoResumeDelays ≤ automatic.attemptsByPolicy.floodWait

/-- `_exhaust_auto_if_needed`, when its condition holds. -/
def exhaustAuto (record : SafetyRecord) (trial : RecoveryTrial) (automatic : AutomaticRecovery)
    (observedFlood : Bool) : SafetyRecord :=
  { record with
    recovery := some { trial with state := .exhausted, automatic := some automatic }
    protection :=
      some (if observedFlood then .automaticResumeExhausted else .automaticResumeBudgetSpent) }

/-- `_strengthen_auto_flood`. -/
def strengthenAutoFlood (self : SafetyLedger) (now : Moment) (record : SafetyRecord)
    (trial : RecoveryTrial) (automatic : AutomaticRecovery) : SafetyRecord :=
  let automatic := { automatic with cause := .floodWait }
  if autoExhausted automatic .floodWait then exhaustAuto record trial automatic true
  else if trial.state = .waiting then
    match automatic.scheduledDue with
    | none => record -- `_valid_automatic_state`: a waiting trial is scheduled
    | some due =>
      let deadline := self.floorReleaseAt now due
      let delay := max (backoffSeconds .floodWait automatic.failureStages.floodWait : ℚ)
        (deadline - now.monotonic)
      { record with
        recovery := some { trial with
          automatic := some { automatic with scheduledDue := some (self.freshFloor now delay) } } }
  else { record with recovery := some { trial with automatic := some automatic } }

/-- `_advance_auto_episode`, when the previous trial was consumed or succeeded. -/
def advanceAutoEpisode (self : SafetyLedger) (now : Moment) (record : SafetyRecord)
    (trial : RecoveryTrial) (automatic : AutomaticRecovery) (cause : RecoveryCause) :
    AutomaticRecovery :=
  { automatic with
    failureStages :=
      if trial.state = .consumed ∧ self.autoResumeScopeSafe now record true then
        automatic.failureStages.increment automatic.cause
      else automatic.failureStages
    cause := cause
    quietAnchor := none
    boundIntentIds := [] }

/-- The protection that a scheduled recovery leaves for its cause. -/
def autoProtection : RecoveryCause → Protection
  | .floodWait => .floodWaitCircuitOpen
  | .transient => .transportUnavailable
  | .readUncertainty => .unresolvedOutboundOutcome

/-- The new fencing trial of `_schedule_auto_resume`. -/
def fenceAuto (now : Moment) (record : SafetyRecord) (automatic : AutomaticRecovery)
    (cause : RecoveryCause) : SafetyRecord :=
  { record with
    generation := now.uuid 1
    protection := some (autoProtection cause)
    recovery := some {
      generation := now.uuid 1
      state := .fencing
      scope := record.scope
      consumedRun := none
      acknowledgedProtection := none
      automatic := some automatic } }

/-- `_schedule_auto_resume`. -/
def scheduleAutoResume (self : SafetyLedger) (now : Moment) (record : SafetyRecord)
    (cause : RecoveryCause) (observedFlood : Bool) : SafetyRecord :=
  match record.recovery with
  | none => fenceAuto now record (newAutoEpisode now cause) cause
  | some trial =>
    if trial.state = .exhausted then record
    else
      match trial.automatic with
      | none => fenceAuto now record (newAutoEpisode now cause) cause
      | some automatic =>
        if trial.state = .consumed ∨ trial.state = .succeeded then
          let automatic := self.advanceAutoEpisode now record trial automatic cause
          if autoExhausted automatic cause then
            { exhaustAuto record trial automatic observedFlood with generation := now.uuid 1 }
          else fenceAuto now record automatic cause
        else if cause = .floodWait then self.strengthenAutoFlood now record trial automatic
        else record

/-- `_apply_auto_fence`. -/
def applyAutoFence (self : SafetyLedger) (now : Moment) (record : SafetyRecord)
    (event : RecoveryEvent) (cause : Option RecoveryCause) (observedFlood : Bool) : SafetyRecord :=
  let fallback := ((record.recovery.bind (·.automatic)).map (·.cause)).getD .readUncertainty
  self.scheduleAutoResume now record ((self.autoTransitionCause record event cause).getD fallback)
    observedFlood

/-- `_settle_auto_fencing`. -/
def settleAutoFencing (self : SafetyLedger) (now : Moment) (record : SafetyRecord)
    (trial : RecoveryTrial) (automatic : AutomaticRecovery) : SafetyRecord :=
  if trial.state ≠ .fencing ∨ self.autoResumeScopeSafe now record false = false then record
  else
    let delay : ℚ := backoffSeconds automatic.cause (automatic.failureStages.get automatic.cause)
    let delay :=
      match automatic.scheduledDue with
      | none => delay
      | some prior => max delay (self.floorReleaseAt now prior - now.monotonic)
    { record with
      recovery := some { trial with
        state := .waiting
        automatic := some { automatic with
          quietAnchor := some (self.freshFloor now 0)
          scheduledDue := some (self.freshFloor now delay) } } }

/-- The blocking intents of a record. -/
def blockingIds (record : SafetyRecord) : List String :=
  (record.intents.entries.filter fun entry => intentBlocks entry.2 record.scope).map (·.1)

/-- The claims of every method episode dropped. -/
def dropClaims (methods : Dictionary String MethodEpisode) : Dictionary String MethodEpisode :=
  Dictionary.mapValues methods fun _ episode => { episode with claim := none }

/-- `_consume_auto_record`. -/
def consumeAutoRecord (self : SafetyLedger) (now : Moment) (record : SafetyRecord)
    (trial : RecoveryTrial) (automatic : AutomaticRecovery) : SafetyRecord :=
  { record with
    intents := Dictionary.mapValues record.intents fun _ intent =>
      if intentBlocks intent record.scope then
        { intent with
          phase := .unknown
          policyRecovery := some {
            policyVersion := 1
            episodeId := automatic.episodeId
            grantGeneration := trial.generation
            scope := intent.scope } }
      else intent
    methods := dropClaims record.methods
    recovery := some { trial with
      state := .consumed
      consumedRun := some self.run
      automatic := some { automatic with
        attemptsByPolicy := automatic.attemptsByPolicy.increment automatic.cause
        attemptsTotal := automatic.attemptsTotal + 1
        boundIntentIds := blockingIds record } }
    generation := now.uuid 2
    protection := none }

/-- `_assert_auto_transition_phase`. -/
def assertAutoTransitionPhase (record : SafetyRecord) (decision : RecoveryDecision) :
    Except LedgerError SafetyRecord :=
  if autoRecoveryPhase record = decision.nextPhase then .ok record
  else .error (.runtimeError "automatic recovery transition disagrees with its decision")

/-- A change of an automatic trial; without one the source raises a `KeyError`. -/
def withAutomatic (record : SafetyRecord)
    (change : RecoveryTrial → AutomaticRecovery → SafetyRecord) :
    Except LedgerError SafetyRecord :=
  match record.recovery with
  | none => .error .keyError
  | some trial =>
    match trial.automatic with
    | none => .error .keyError
    | some automatic => .ok (change trial automatic)

/-- `_apply_auto_transition`. -/
def applyAutoTransition (self : SafetyLedger) (now : Moment) (record : SafetyRecord)
    (decision : RecoveryDecision) (event : RecoveryEvent) (cause : Option RecoveryCause)
    (observedFlood : Bool) : Except LedgerError SafetyRecord :=
  match decision.command with
  | .noop | .wait | .reject => .ok record
  | .armFence | .strengthenFlood =>
    assertAutoTransitionPhase (self.applyAutoFence now record event cause observedFlood) decision
  | .setWait =>
    (withAutomatic record (self.settleAutoFencing now record)).bind
      (assertAutoTransitionPhase · decision)
  | .consume =>
    (withAutomatic record (self.consumeAutoRecord now record)).bind
      (assertAutoTransitionPhase · decision)
  | .markSuccess =>
    (withAutomatic record fun trial _ =>
      { record with recovery := some { trial with state := .succeeded }, protection := none }).bind
      (assertAutoTransitionPhase · decision)
  | .reset => assertAutoTransitionPhase { record with recovery := none } decision

/-- `_transition_auto_owned`. -/
def transitionAutoOwned (self : SafetyLedger) (now : Moment) (record : SafetyRecord)
    (event : RecoveryEvent) (report : AutoReport) (observedFlood : Bool) :
    Except LedgerError SafetyRecord :=
  self.applyAutoTransition now record (self.decideAutoTransition now record event report) event
    report.cause observedFlood

end SafetyLedger

end McpTelegram
