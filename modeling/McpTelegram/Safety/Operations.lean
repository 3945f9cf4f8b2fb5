import McpTelegram.Safety.Ledger

/-!
# The operations of the safety ledger

Each operation of `TelegramRpcSafetyLedger` as the change that it hands to `_commit`, and
`SafetyLedger.call`, which puts around each change what the operation does to the fields of the
ledger before the save and after it.
-/

namespace McpTelegram

open Foundations

/-- The arguments of `prepare`. -/
structure PrepareRequest where
  attemptId : String
  method : String
  transportIdentity : Option (ℤ × Option ℤ) := none
  authOnly : Bool := false
  auxBootstrap : Option AuxBootstrap := none
  nativeBinding : Option NativeWriteReceiptBinding := none

/-- The reasons of a scoped read failure. -/
inductive ReadFailureReason
  | attemptBudgetExhausted
  | senderTimeout
  deriving DecidableEq

/-- The disposition of a failed read in the episode of its method. -/
def ReadFailureReason.retry (reason : ReadFailureReason) (methodGeneration : String) : ReadRetry :=
  match reason with
  | .attemptBudgetExhausted => .attemptBudgetExhausted methodGeneration
  | .senderTimeout => .senderTimeout methodGeneration

/-- The arguments of `complete`. -/
structure Completion where
  attemptId : String
  knownOutcome : Bool
  floorUntilUtc : Option ℚ := none
  circuitOpen : Bool := false
  actualFlood : Bool := false
  methodGeneration : Option String := none
  methodSuccess : Bool := false
  recoveryCause : Option RecoveryCause := none
  scopedReadFailure : Bool := false
  readFailureReason : ReadFailureReason := .attemptBudgetExhausted
  shutdownReadCandidate : Bool := false

namespace SafetyLedger

/-- The owners of the store are unknown or the account of the scope. -/
def ownersMatch (now : Moment) (scope : SafetyScope) : Bool :=
  now.allOwners fun owner => owner = none || owner = scope.accountId

/-- The protection of an unresolved outcome is dropped once nothing blocks. -/
def clearUnresolved (record : SafetyRecord) : SafetyRecord :=
  if record.protection = some .unresolvedOutboundOutcome ∧ record.unresolved = false then
    { record with protection := none }
  else record

/-! ## Attempts -/

/-- The intent that `prepare` writes, before provenance is attached. -/
def preparedIntent (self : SafetyLedger) (request : PrepareRequest) (record : SafetyRecord) :
    SafetyIntent :=
  let identity := request.transportIdentity.getD (record.scope.dcId, record.scope.keyId)
  let previous := (record.transition.map (·.origin)).getD record.scope
  { method := request.method
    run := self.run
    phase := .prepared
    scope := ⟨identity.1, identity.2, previous.accountId⟩ }

/-- `attach_aux` in `prepare`. -/
def attachAux (attemptId : String) (intent : SafetyIntent) (scope : SafetyScope) :
    Option AuxBootstrap → Except LedgerError SafetyIntent
  | none => .ok intent
  | some provenance =>
    let attached := { intent with auxBootstrap := some provenance }
    if scope.stage ≠ .verified ∨ provenance.mainScope ≠ scope.binding then
      .error (.valueError "auxiliary bootstrap does not own the verified main scope")
    else if provenance.contained then
      .error (.valueError "auxiliary bootstrap must start uncontained")
    else if provenance.lock.any (·.1.valid) = false then
      .error (.valueError "auxiliary bootstrap requires a pinned session lock")
    else if provenance.lock.any (validAuxLockOwner ·.2) = false then
      .error (.valueError "auxiliary bootstrap requires a session lock owner")
    else if validSafetyIntent attemptId attached = false then
      .error (.valueError "invalid auxiliary bootstrap provenance")
    else .ok attached

/-- The native receipt that `prepare` attaches. -/
def attachNative (attemptId : String) (intent : SafetyIntent) :
    Option NativeWriteReceiptBinding → Except LedgerError SafetyIntent
  | none => .ok intent
  | some binding =>
    let attached := { intent with nativeWriteReceiptOwner := some ⟨binding, false⟩ }
    if validSafetyIntent attemptId attached = false then
      .error (.valueError "invalid native receipt provenance")
    else .ok attached

/-- `_check_attempt_consistency`. -/
def attemptChanged (existing : Option SafetyIntent) (intent : SafetyIntent) (bound : Bool) :
    Bool := bound && existing.any (· ≠ intent)

/-- `add` in `prepare`. -/
def prepare (self : SafetyLedger) (now : Moment) (record : SafetyRecord)
    (request : PrepareRequest) : Except LedgerError SafetyRecord :=
  match attachAux request.attemptId (self.preparedIntent request record) record.scope
      request.auxBootstrap with
  | .error error => .error error
  | .ok intent =>
    match attachNative request.attemptId intent request.nativeBinding with
    | .error error => .error error
    | .ok intent =>
      if attemptChanged (record.intents.lookup request.attemptId) intent
          (request.auxBootstrap.isSome || request.nativeBinding.isSome) then
        .error (.valueError "outbound attempt identity changed")
      else .ok { record with
        intents := Dictionary.setDefault record.intents request.attemptId intent
        floor := self.rebaseFloor now record.floor }

/-- An intent of a native receipt that is unknown but contained. -/
def containedNative (intent : SafetyIntent) (native : NativeReceiptOwner) : SafetyIntent :=
  { intent with
    phase := .unknown
    nativeWriteReceiptOwner := some { native with contained := true } }

/-- The scope of the record is verified, at rest, and the one the intent was prepared for. -/
def ownsScope (now : Moment) (record : SafetyRecord) (intent : SafetyIntent) : Bool :=
  record.scope.stage = .verified && intent.scope = record.scope.binding &&
    record.transition.isNone && ownersMatch now record.scope

/-- `contain` in `contain_native`. -/
def containNative (now : Moment) (record : SafetyRecord) (attemptId : String)
    (binding : NativeWriteReceiptBinding) : Except LedgerError SafetyRecord :=
  match record.intents.lookup attemptId with
  | none => .error (.valueError "native receipt does not own the outbound attempt")
  | some intent =>
    match intent.nativeWriteReceiptOwner with
    | none => .error (.valueError "native receipt does not own the outbound attempt")
    | some native =>
      if native.binding = binding ∧ intent.phase ∈ [.prepared, .unknown] ∧
          ownsScope now record intent then
        let contained := { record with
          intents := record.intents.insert attemptId (containedNative intent native) }
        .ok { clearUnresolved contained with generation := now.uuid 3 }
      else .error (.valueError "native receipt does not own the outbound attempt")

/-! ## Method episodes -/

/-- `_record_method_flood`. -/
def recordMethodFlood (self : SafetyLedger) (now : Moment) (previous : Option MethodEpisode) :
    MethodEpisode :=
  let prior := previous.filter (·.state = .live)
  let count := (prior.map (·.consecutiveActualFloods)).getD 0 + 1
  let delay : ℚ := backoffSeconds .floodWait (count - 1)
  let remaining :=
    match prior with
    | none => delay
    | some prior => max delay (self.floorReleaseAt now prior.floor - now.monotonic)
  { state := .live
    generation := now.uuid 4
    consecutiveActualFloods := count
    consecutiveReadBudgetFailures := (previous.map (·.consecutiveReadBudgetFailures)).getD 0
    floor := self.freshFloor now remaining
    claim := none }

/-- `_settle_method`. -/
def settleMethod (self : SafetyLedger) (tlobjects : TlObjects) (now : Moment)
    (record : SafetyRecord) (attemptId : String) (actualFlood : Bool) (generation : Option String)
    (success : Bool) : SafetyRecord :=
  match record.intents.lookup attemptId with
  | none => record
  | some intent =>
    if intent.run ≠ self.run then record
    else
      let episode := record.methods.lookup intent.method
      if actualFlood ∧ attemptId ∈ self.claimed ∧ validMethodKey tlobjects intent.method then
        { record with
          methods := record.methods.insert intent.method (self.recordMethodFlood now episode) }
      else
        match episode with
        | none => record
        | some episode =>
          if episode.claim = some ⟨attemptId, self.run⟩ then
            let settled :=
              if success ∧ some episode.generation = generation then
                { episode with
                  state := .recovered
                  consecutiveActualFloods := 0
                  consecutiveReadBudgetFailures := 0
                  claim := none }
              else { episode with claim := none }
            { record with methods := record.methods.insert intent.method settled }
          else record

/-- The episode that `_settle_read_budget_failure` writes. -/
def readFailureEpisode (self : SafetyLedger) (now : Moment) (previous : Option MethodEpisode) :
    MethodEpisode :=
  let count := (previous.map (·.consecutiveReadBudgetFailures)).getD 0 + 1
  let delay : ℚ := backoffSeconds .readUncertainty (count - 1)
  let delay :=
    match previous with
    | none => delay
    | some previous => max delay (self.floorReleaseAt now previous.floor - now.monotonic)
  { state := .live
    generation := now.uuid 5
    consecutiveActualFloods := (previous.map (·.consecutiveActualFloods)).getD 0
    consecutiveReadBudgetFailures := count
    floor := self.freshFloor now delay
    claim := none }

/-- `_settle_read_budget_failure`. -/
def settleReadBudgetFailure (self : SafetyLedger) (now : Moment) (record : SafetyRecord)
    (attemptId : String) (reason : ReadFailureReason) : Except LedgerError SafetyRecord :=
  match record.intents.lookup attemptId with
  | none => .error .keyError
  | some intent =>
    if attemptId ∉ self.claimed ∨ intent.run ≠ self.run then
      .error (.valueError "read failure does not own a claimed attempt")
    else if record.scope.stage ≠ .verified ∨ record.transition.isSome ∨
        intent.scope ≠ record.scope.binding then
      .error (.valueError "read failure no longer owns the verified account scope")
    else
      let episode := self.readFailureEpisode now (record.methods.lookup intent.method)
      .ok { record with
        methods := record.methods.insert intent.method episode
        intents := record.intents.insert attemptId { intent with
          phase := .unknown
          readRetry := some (reason.retry episode.generation) } }

/-! ## Completion -/

/-- `_require_native_settlement`. -/
def nativeSettlement (self : SafetyLedger) (now : Moment) (record : SafetyRecord)
    (attemptId : String) (binding : NativeWriteReceiptBinding) :
    Option (SafetyIntent × NativeReceiptOwner) :=
  match record.intents.lookup attemptId with
  | none => none
  | some intent =>
    match intent.nativeWriteReceiptOwner with
    | none => none
    | some native =>
      if intent.run = self.run ∧ intent.phase = .prepared ∧ native.binding = binding ∧
          ownsScope now record intent ∧ attemptId ∈ self.claimed then some (intent, native)
      else none

/-- `settle` in `complete_native_unknown`. -/
def completeNativeUnknown (self : SafetyLedger) (tlobjects : TlObjects) (now : Moment)
    (record : SafetyRecord) (attemptId : String) (binding : NativeWriteReceiptBinding)
    (methodGeneration : Option String) : Except LedgerError SafetyRecord :=
  match self.nativeSettlement now record attemptId binding with
  | none => .error (.valueError "native outcome does not match the claimed attempt")
  | some (intent, native) =>
    let settled := self.settleMethod tlobjects now record attemptId false methodGeneration false
    .ok { settled with
      intents := settled.intents.insert attemptId (containedNative intent native)
      generation := now.uuid 3 }

/-- `_retains_unknown_intent`. -/
def retainsUnknownIntent (prior : SafetyIntent) : Bool :=
  isContainedAux prior ||
    (prior.phase = .unknown &&
      (prior.nativeWriteReceiptOwner.isSome || prior.readRetry.isSome))

/-- `_mark_unknown_intent`. -/
def markUnknownIntent (now : Moment) (record : SafetyRecord) (attemptId : String)
    (intent : SafetyIntent) : SafetyRecord :=
  { record with
    intents := record.intents.insert attemptId { intent with phase := .unknown }
    protection :=
      if (record.protection = none ∨ record.protection = some .unresolvedOutboundOutcome) ∧
          autoRecoveryPhase record ≠ .exhausted then some .unresolvedOutboundOutcome
      else record.protection
    generation := now.uuid 6 }

/-- `_settle_intent`. -/
def settleIntent (self : SafetyLedger) (now : Moment) (record : SafetyRecord) (attemptId : String)
    (knownOutcome : Bool) : Except LedgerError SafetyRecord :=
  match record.intents.lookup attemptId with
  | none => .ok record
  | some prior =>
    if prior.run ≠ self.run then
      .error (.valueError "completion does not own this outbound intent")
    else if retainsUnknownIntent prior then .ok record
    else if knownOutcome ∨ (attemptId ∉ self.claimed ∧ prior.phase = .prepared) then
      .ok { record with intents := record.intents.erase attemptId }
    else .ok (markUnknownIntent now record attemptId prior)

/-- The floor that `_extend_floor` writes. -/
def extendedFloor (self : SafetyLedger) (now : Moment) (floor : SafetyFloor) (untilUtc : ℚ) :
    SafetyFloor :=
  let remaining := max 0 (untilUtc - now.utc)
  { bootId := self.bootId
    untilUtc := max floor.untilUtc untilUtc
    untilMonotonic := max (self.floorDeadline now) (now.monotonic + remaining)
    remainingSeconds := max (max 0 (self.floorDeadline now - now.monotonic)) remaining }

/-- `_extend_floor`. -/
def extendFloor (self : SafetyLedger) (now : Moment) (record : SafetyRecord) (untilUtc : ℚ) :
    Except LedgerError SafetyRecord :=
  if untilUtc < 0 then .error (.valueError "invalid safety floor")
  else .ok { record with floor := self.extendedFloor now record.floor untilUtc }

/-- `_settle_restriction`. -/
def settleRestriction (self : SafetyLedger) (now : Moment) (record : SafetyRecord)
    (floorUntilUtc : ℚ) : Except LedgerError SafetyRecord :=
  (self.extendFloor now record floorUntilUtc).map fun record =>
    if record.transition.any (·.purpose = .authentication) then
      { record with protection := some .authenticationTrialFailed, generation := now.uuid 7 }
    else record

/-- The open circuit of `complete` and of `record_floor`. -/
def openCircuit (now : Moment) (record : SafetyRecord) (circuitOpen : Bool) : SafetyRecord :=
  if circuitOpen ∧ autoRecoveryPhase record ≠ .exhausted then
    { record with protection := some .floodWaitCircuitOpen, generation := now.uuid 8 }
  else record

/-- `_ordinary_method_floor_only`. -/
def ordinaryMethodFloorOnly (trial : Option RecoveryTrial) (knownFlood circuitOpen : Bool)
    (cause : Option RecoveryCause) : Bool :=
  knownFlood && !circuitOpen && cause.isNone &&
    trial.all fun trial => trial.automatic.isNone && trial.state = .succeeded

/-- `_invalidate_recovery_trial`. -/
def invalidateRecoveryTrial (self : SafetyLedger) (now : Moment) (record : SafetyRecord)
    (knownFlood : Bool) (cause : Option RecoveryCause) : Except LedgerError SafetyRecord :=
  let selected := if knownFlood then .floodWait else cause.getD .readUncertainty
  let automatic :=
    self.transitionAutoOwned now record .failureSettled { cause := some selected } knownFlood
  match record.recovery with
  | none => automatic
  | some trial =>
    if trial.automatic.isSome ∨ trial.state = .succeeded then automatic
    else if trial.state = .authorized then .ok { record with generation := now.uuid 9 }
    else if trial.state = .consumed then
      .ok { record with
        recovery := some { trial with state := .failed }
        protection := some .recoveryTrialFailed
        generation := now.uuid 9 }
    else .ok record

/-- `settle_recovery` in `complete`. -/
def settleRecovery (self : SafetyLedger) (now : Moment) (record : SafetyRecord)
    (completion : Completion) : Except LedgerError SafetyRecord :=
  let knownFlood := completion.knownOutcome && completion.floorUntilUtc.isSome
  if completion.scopedReadFailure ∨ completion.shutdownReadCandidate then .ok record
  else if ordinaryMethodFloorOnly record.recovery knownFlood completion.circuitOpen
      completion.recoveryCause then .ok record
  else if (completion.knownOutcome = false ∧ completion.attemptId ∈ self.claimed) ∨
      completion.floorUntilUtc.isSome ∨ completion.recoveryCause.isSome then
    self.invalidateRecoveryTrial now record knownFlood completion.recoveryCause
  else .ok record

/-- The part of `settle` in `complete` that settles the intent. -/
def settleOutcome (self : SafetyLedger) (now : Moment) (record : SafetyRecord)
    (completion : Completion) : Except LedgerError SafetyRecord :=
  if completion.scopedReadFailure then
    self.settleReadBudgetFailure now record completion.attemptId completion.readFailureReason
  else self.settleIntent now record completion.attemptId completion.knownOutcome

/-- The part of `settle` in `complete` that extends the floor. -/
def settleFloor (self : SafetyLedger) (now : Moment) (record : SafetyRecord)
    (completion : Completion) : Except LedgerError SafetyRecord :=
  match completion.floorUntilUtc with
  | none => .ok record
  | some floorUntilUtc => self.settleRestriction now record floorUntilUtc

/-- `settle` in `complete`. -/
def complete (self : SafetyLedger) (tlobjects : TlObjects) (now : Moment) (record : SafetyRecord)
    (completion : Completion) : Except LedgerError SafetyRecord :=
  let settled := self.settleMethod tlobjects now record completion.attemptId completion.actualFlood
    completion.methodGeneration completion.methodSuccess
  (self.settleOutcome now settled completion).bind fun record =>
    (self.settleFloor now record completion).bind fun record =>
      self.settleRecovery now (openCircuit now record completion.circuitOpen) completion

/-- `update` in `record_floor`. -/
def recordFloor (self : SafetyLedger) (now : Moment) (record : SafetyRecord) (untilUtc : ℚ)
    (circuitOpen : Bool) : Except LedgerError SafetyRecord :=
  (self.extendFloor now record untilUtc).bind fun extended =>
    let opened := openCircuit now extended circuitOpen
    if ordinaryMethodFloorOnly record.recovery true circuitOpen none then .ok opened
    else self.invalidateRecoveryTrial now opened true none

/-! ## Shutdown -/

/-- `_owned_shutdown_read`. -/
def ownedShutdownRead (self : SafetyLedger) (intent : SafetyIntent) (scope : IntentScope) : Bool :=
  intent.run = self.run && intent.phase = .unknown && intent.scope = scope &&
    rpcEffect intent.method = .nonmutatingRead

/-- The loop over the attempts of `contain_shutdown_reads`. -/
def containReads (self : SafetyLedger) (scope : IntentScope) :
    List String → Dictionary String SafetyIntent →
      Except LedgerError (Dictionary String SafetyIntent)
  | [], intents => .ok intents
  | attemptId :: attempts, intents =>
    match intents.lookup attemptId with
    | none => .error (.valueError "shutdown read intent does not match the owned attempt")
    | some intent =>
      if self.ownedShutdownRead intent scope then
        self.containReads scope attempts
          (intents.insert attemptId { intent with readRetry := some .cleanShutdown })
      else .error (.valueError "shutdown read intent does not match the owned attempt")

/-- `contain` in `contain_shutdown_reads`. -/
def containShutdownReads (self : SafetyLedger) (now : Moment) (record : SafetyRecord)
    (attempts : List String) (clearIntroducedHold : Bool) : Except LedgerError SafetyRecord :=
  if self.readScopeValid = false ∨ record.scope.stage ≠ .verified ∨ record.transition.isSome then
    .error (.valueError "shutdown read scope is no longer verified")
  else if self.claimed ≠ [] ∨ ownersMatch now record.scope = false then
    .error (.valueError "shutdown read owners are not quiescent")
  else
    (self.containReads record.scope.binding attempts record.intents).map fun intents =>
      let contained := { record with intents := intents }
      if clearIntroducedHold then clearUnresolved contained else contained

/-! ## Recovery -/

/-- The reasons that `authorize_recovery` may lift. -/
def recoverable : List Protection :=
  [.unresolvedOutboundOutcome, .recoveryTrialIncomplete, .recoveryTrialFailed,
    .floodWaitCircuitOpen, .transportUnavailable, .invalidAccountIdentity,
    .authenticationTrialFailed, .automaticResumeExhausted, .automaticResumeBudgetSpent]

/-- `authorize_recovery`. -/
def authorizeRecovery (self : SafetyLedger) (now : Moment) (record : SafetyRecord)
    (expectedGeneration : String) (acknowledged : Bool) : Except LedgerError SafetyRecord :=
  if acknowledged = false ∨ self.verifiedAccountId.isNone ∨ self.storageFailed then
    .error (.valueError "recovery requires acknowledged verified safety scope")
  else if self.protectionReason.any (· ∈ recoverable) = false then
    .error (.valueError "account safety recovery is not available")
  else if self.floorDeadline now > now.monotonic then
    .error (.valueError "known Telegram restriction has not elapsed")
  else if record.generation ≠ expectedGeneration then
    .error (.valueError "stale account protection generation")
  else if record.recovery.any fun prior =>
      prior.state = .authorized && prior.generation = record.generation then
    .error (.valueError "account recovery is already authorized")
  else
    .ok { record with
      generation := now.uuid 10
      recovery := some {
        generation := now.uuid 10
        state := .authorized
        scope := record.scope
        consumedRun := none
        acknowledgedProtection := self.protectionReason
        automatic := none } }

/-- The blocking intents of a consumed manual recovery are acknowledged. -/
def acknowledgeBlocking (record : SafetyRecord) : Dictionary String SafetyIntent :=
  Dictionary.mapValues record.intents fun _ intent =>
    if intentBlocks intent record.scope then { intent with phase := .acknowledgedUnknown }
    else intent

/-- `consume` in `consume_recovery`, for the trial of the record. -/
def consumeRecovery (self : SafetyLedger) (now : Moment) (record : SafetyRecord)
    (trial : RecoveryTrial) : Except LedgerError SafetyRecord :=
  if self.storageFailed ∨ self.verifiedAccountId.isNone ∨ self.floorDeadline now > now.monotonic
  then .error (.valueError "recovery cannot override a current restriction or invalid scope")
  else if trial.state ≠ .authorized ∨ trial.scope ≠ record.scope ∨
      trial.generation ≠ record.generation then
    .error (.valueError "invalid recovery authorization")
  else
    .ok { record with
      recovery := some { trial with state := .consumed, consumedRun := some self.run }
      generation := now.uuid 11
      intents := acknowledgeBlocking record
      methods := dropClaims record.methods
      protection := none }

/-- `finish` in `finish_recovery`. -/
def finishRecovery (self : SafetyLedger) (now : Moment) (record : SafetyRecord)
    (accountId : ℤ) : Except LedgerError SafetyRecord :=
  if self.protectionReason ≠ none ∨ self.record.unresolved ∨
      self.floorDeadline now > now.monotonic then
    .error (.valueError "recovery remains restricted or uncertain")
  else
    match record.recovery with
    | none => .error (.valueError "recovery trial identity is not current")
    | some trial =>
      if trial.state ≠ .consumed ∨ trial.consumedRun ≠ some self.run ∨
          record.scope.accountId ≠ some accountId then
        .error (.valueError "recovery trial identity is not current")
      else if trial.automatic.isSome then
        let decision := self.decideAutoTransition now record .trialSuccess {}
        if decision.command = .markSuccess then
          self.applyAutoTransition now record decision .trialSuccess none false
        else .error (.valueError "recovery trial identity is not current")
      else .ok { record with recovery := some { trial with state := .succeeded }, protection := none }

/-- `fail` in `fail_recovery`. -/
def failRecovery (self : SafetyLedger) (now : Moment) (record : SafetyRecord) : SafetyRecord :=
  match record.recovery with
  | none => record
  | some trial =>
    if trial.state = .consumed ∧ trial.consumedRun = some self.run then
      { record with
        recovery := some { trial with state := .failed }
        protection := some .recoveryTrialFailed
        generation := now.uuid 12 }
    else record

/-- `fail` in `fail_automatic_recovery`. -/
def failAutomaticRecovery (self : SafetyLedger) (now : Moment) (record : SafetyRecord)
    (cause : Option RecoveryCause) : Except LedgerError SafetyRecord :=
  match record.recovery.bind (·.automatic) with
  | none => .ok record
  | some automatic =>
    self.transitionAutoOwned now record .failureSettled
      { cause := some (cause.getD automatic.cause) } false

/-- `_auto_maintenance_event`. -/
def autoMaintenanceEvent (self : SafetyLedger) (startup : Bool) : RecoveryEvent :=
  if startup ∨ (autoRecoveryMode self.record = .auto ∧ autoRecoveryPhase self.record = .consumed ∧
      self.autoRecoveryRun self.record = .other) then .startupReconcile
  else .failureObserved

/-- `consume` in `consume_auto_resume`: nothing changes unless the trial is due. -/
def consumeAutoResume (self : SafetyLedger) (now : Moment) (record : SafetyRecord)
    (lifecycleAvailable : Bool) : Except LedgerError SafetyRecord :=
  let decision := self.decideAutoTransition now record .due
    { lifecycleAvailable := lifecycleAvailable }
  if decision.command = .consume then
    self.applyAutoTransition now record decision .due none false
  else .ok record

end SafetyLedger

/-! ## Calls -/

/-- The calls of the ledger.  `maintain_auto_resume` is a sequence of `persistAutoRebase`,
`maintainAutoFence` and `autoQuiesceIfReady`, and `consume_auto_resume` may start with
`persistAutoRebase`; each of them saves on its own. -/
inductive SafetyOperation
  | prepare (request : PrepareRequest)
  | markClaimed (attemptId : String) (authOnly : Bool)
  | complete (completion : Completion)
  | completeNativeUnknown (attemptId : String) (binding : NativeWriteReceiptBinding)
    (methodGeneration : Option String)
  | containNative (attemptId : String) (binding : NativeWriteReceiptBinding)
  | containShutdownReads (attempts : List String) (clearIntroducedHold : Bool)
  | recordFloor (untilUtc : ℚ) (circuitOpen : Bool)
  | authorizeRecovery (expectedGeneration : String) (acknowledged : Bool)
  | consumeRecovery
  | finishRecovery (accountId : ℤ)
  | failRecovery
  | failAutomaticRecovery (cause : Option RecoveryCause)
  | configureAutoResume (enabled : Bool)
  | persistAutoRebase (consuming : Bool)
  | maintainAutoFence (cause : Option RecoveryCause) (quiesced startup : Bool)
  | autoQuiesceIfReady
  | consumeAutoResume (lifecycleAvailable stillAvailable : Bool)
  | resetAutoResume

/-- A call of the ledger around its save. -/
structure SafetyCall where
  /-- The ledger when the save starts. -/
  ledger : SafetyLedger
  /-- What the call hands to `_commit`, if it gets there: a record, or the error of its change. -/
  proposal : Option (Except LedgerError SafetyRecord) := none
  /-- What the call does to the ledger once the record is saved. -/
  settle : SafetyLedger → SafetyLedger := id

namespace SafetyLedger

/-- The hold of an unresolved outcome is dropped once nothing blocks. -/
def clearHold (self : SafetyLedger) : SafetyLedger :=
  if self.startupHold = some .unresolvedOutboundOutcome ∧ self.record.unresolved = false then
    { self with startupHold := none }
  else self

/-- `self._startup_hold = None` after a consumed recovery. -/
def clearStartupHold (self : SafetyLedger) : SafetyLedger := { self with startupHold := none }

/-- The automatic trial of the ledger is due. -/
def autoResumeDue (self : SafetyLedger) (now : Moment) (lifecycleAvailable : Bool) : Bool :=
  (self.decideAutoTransition now self.record .due
    { lifecycleAvailable := lifecycleAvailable }).command = .consume

/-- The hold that `complete` sets before it saves. -/
def holdOutcome (self : SafetyLedger) (completion : Completion) : SafetyLedger :=
  if completion.knownOutcome = false ∧ completion.attemptId ∈ self.claimed ∧
      completion.scopedReadFailure = false ∧
      (completion.shutdownReadCandidate = false ∨ self.startupHold = none) then
    { self with startupHold := some .unresolvedOutboundOutcome }
  else self

/-- The hold leaves the record alone. -/
@[simp] theorem holdOutcome_record (self : SafetyLedger) (completion : Completion) :
    (self.holdOutcome completion).record = self.record := by
  unfold holdOutcome
  split_ifs <;> rfl

/-- The hold leaves the boot alone. -/
@[simp] theorem holdOutcome_bootId (self : SafetyLedger) (completion : Completion) :
    (self.holdOutcome completion).bootId = self.bootId := by
  unfold holdOutcome
  split_ifs <;> rfl

/-- `self._claimed.discard(settled_attempt)`. -/
def discardClaim (attemptId : String) (self : SafetyLedger) : SafetyLedger :=
  { self with claimed := self.claimed.filter (· ≠ attemptId) }

/-- `require_writable` does not raise. -/
def writable (self : SafetyLedger) (authOnly : Bool) : Bool :=
  match self.requireWritable authOnly with
  | .ok _ => true
  | .error _ => false

/-- An operation of the ledger. -/
def call (self : SafetyLedger) (tlobjects : TlObjects) (now : Moment) :
    SafetyOperation → SafetyCall
  | .prepare request =>
    if self.writable request.authOnly then ⟨self, some (self.prepare now self.record request), id⟩
    else ⟨self, none, id⟩
  | .markClaimed attemptId authOnly =>
    if self.writable authOnly ∧ attemptId ∈ self.record.intents then
      ⟨{ self with claimed := attemptId :: self.claimed }, none, id⟩
    else ⟨self, none, id⟩
  | .complete completion =>
    ⟨self.holdOutcome completion,
      some ((self.holdOutcome completion).complete tlobjects now self.record completion),
      discardClaim completion.attemptId⟩
  | .completeNativeUnknown attemptId binding methodGeneration =>
    ⟨self, some (self.completeNativeUnknown tlobjects now self.record attemptId binding
      methodGeneration), discardClaim attemptId⟩
  | .containNative attemptId binding =>
    ⟨self, some (containNative now self.record attemptId binding), clearHold⟩
  | .containShutdownReads attempts clearIntroducedHold =>
    ⟨self, some (self.containShutdownReads now self.record attempts clearIntroducedHold),
      if clearIntroducedHold then clearHold else id⟩
  | .recordFloor untilUtc circuitOpen =>
    ⟨self, some (self.recordFloor now self.record untilUtc circuitOpen), id⟩
  | .authorizeRecovery expectedGeneration acknowledged =>
    ⟨self, some (self.authorizeRecovery now self.record expectedGeneration acknowledged), id⟩
  | .consumeRecovery =>
    match self.record.recovery with
    | none => ⟨self, none, id⟩
    | some trial =>
      if trial.automatic.isSome ∨ trial.state ≠ .authorized then ⟨self, none, id⟩
      else ⟨self, some (self.consumeRecovery now self.record trial), clearStartupHold⟩
  | .finishRecovery accountId =>
    ⟨self, some (self.finishRecovery now self.record accountId), id⟩
  | .failRecovery => ⟨self, some (.ok (self.failRecovery now self.record)), id⟩
  | .failAutomaticRecovery cause =>
    ⟨self, some (self.failAutomaticRecovery now self.record cause), id⟩
  | .configureAutoResume enabled => ⟨{ self with autoResumeEnabled := enabled }, none, id⟩
  | .persistAutoRebase consuming =>
    if self.autoResumeRebased ∧ (consuming ∨
        (self.autoResumeEnabled ∧ self.autoResumeScopeSafe now self.record true)) then
      ⟨self, some (.ok self.record), fun self => { self with autoResumeRebased := false }⟩
    else ⟨self, none, id⟩
  | .maintainAutoFence cause quiesced startup =>
    let event := self.autoMaintenanceEvent startup
    let report : AutoReport := { cause := cause, quiesced := quiesced }
    if (self.decideAutoTransition now self.record event report).command ∈
        [.armFence, .strengthenFlood] then
      ⟨self, some (self.transitionAutoOwned now self.record event report false), id⟩
    else ⟨self, none, id⟩
  | .autoQuiesceIfReady =>
    if (self.decideAutoTransition now self.record .quiesced { quiesced := true }).command =
        .setWait then
      ⟨self, some (self.transitionAutoOwned now self.record .quiesced { quiesced := true } false),
        id⟩
    else ⟨self, none, id⟩
  | .consumeAutoResume lifecycleAvailable stillAvailable =>
    if self.autoResumeDue now lifecycleAvailable then
      ⟨self, some (self.consumeAutoResume now self.record stillAvailable),
        if self.autoResumeDue now stillAvailable then clearStartupHold else id⟩
    else ⟨self, none, id⟩
  | .resetAutoResume =>
    ⟨self, some (self.transitionAutoOwned now self.record .stabilityConfirmed
      { stabilityConfirmed := true } false), id⟩

end SafetyLedger

end McpTelegram
