import Mathlib.Tactic

/-!
# The policy of automatic recovery

`telegram_rpc_recovery.py`: the backoff delays, the release time of a persisted floor, and the
table that decides each step of the automatic recovery.  Checks of the Python types of the arguments
are left out.
-/

namespace McpTelegram

/-- `RecoveryCause`. -/
inductive RecoveryCause
  | floodWait
  | transient
  | readUncertainty
  deriving DecidableEq

/-- `_BACKOFF`: the base and the cap of a cause. -/
def RecoveryCause.backoff : RecoveryCause → ℕ × ℕ
  | .floodWait => (3600, 86400)
  | .transient => (30, 1800)
  | .readUncertainty => (300, 3600)

/-- `backoff_seconds`. -/
def backoffSeconds (cause : RecoveryCause) (failureStage : ℕ) : ℕ :=
  min (cause.backoff.1 <<< min failureStage cause.backoff.2.size) cause.backoff.2

/-- `RecoveryFloor`. -/
structure RecoveryFloor where
  untilMonotonic : ℚ
  untilUtc : ℚ
  remainingSeconds : ℚ
  sameBoot : Bool

/-- `recovery_floor_release_at`. -/
def recoveryFloorReleaseAt (floor : RecoveryFloor) (nowMonotonic nowUtc : ℚ) : ℚ :=
  let utcRemaining := max 0 (floor.untilUtc - nowUtc)
  if floor.sameBoot then max floor.untilMonotonic (nowMonotonic + utcRemaining)
  else nowMonotonic + max utcRemaining floor.remainingSeconds

/-- `RecoveryPhase`. -/
inductive RecoveryPhase
  | none
  | authorized
  | fencing
  | waiting
  | consumed
  | succeeded
  | failed
  | exhausted
  deriving DecidableEq

/-- `RecoveryMode`. -/
inductive RecoveryMode
  | none
  | manual
  | auto
  deriving DecidableEq

/-- `RecoveryRun`. -/
inductive RecoveryRun
  | current
  | other
  | absent
  deriving DecidableEq

/-- `RecoveryEvent`. -/
inductive RecoveryEvent
  | failureSettled
  | failureObserved
  | startupReconcile
  | quiesced
  | due
  | trialSuccess
  | stabilityConfirmed
  deriving DecidableEq

/-- `RecoveryCommand`. -/
inductive RecoveryCommand
  | noop
  | wait
  | reject
  | armFence
  | strengthenFlood
  | setWait
  | consume
  | markSuccess
  | reset
  deriving DecidableEq

/-- `RecoveryReason`. -/
inductive RecoveryReason
  | healthy
  | failure
  | interruptedTrial
  | pendingOwner
  | notQuiesced
  | hardHold
  | disabled
  | lifecycleUnavailable
  | notDue
  | ready
  | floodBudgetSpent
  | alreadyFenced
  | trialInProgress
  | invalidEvent
  | wrongRun
  | notStable
  | stable
  | manualHold
  | exhausted
  | legacyHold
  | floodStrengthened
  | trialSucceeded
  deriving DecidableEq

/-- `RecoverySnapshot`. -/
structure RecoverySnapshot where
  phase : RecoveryPhase
  mode : RecoveryMode
  run : RecoveryRun
  cause : Option RecoveryCause
  safe : Bool
  ownerPending : Bool
  quiesced : Bool
  due : Bool
  floodBudgetAvailable : Bool
  stabilityConfirmed : Bool
  enabled : Bool
  lifecycleAvailable : Bool

/-- `RecoveryDecision`. -/
structure RecoveryDecision where
  nextPhase : RecoveryPhase
  command : RecoveryCommand
  reason : RecoveryReason

/-- `_Rule`. -/
inductive RecoveryRule
  | arm
  | activeFailure
  | hold
  | consumedFailure
  | consumedObserved
  | consumedStartup
  | quiesce
  | due
  | success
  | stability
  | reject
  deriving DecidableEq

/-- `_RULE_ROWS`. -/
def recoveryRule : RecoveryPhase → RecoveryEvent → RecoveryRule
  | .none, .failureSettled | .none, .failureObserved | .none, .startupReconcile => .arm
  | .authorized, .failureSettled | .authorized, .failureObserved
    | .authorized, .startupReconcile => .hold
  | .fencing, .failureSettled => .activeFailure
  | .fencing, .failureObserved | .fencing, .startupReconcile => .hold
  | .fencing, .quiesced => .quiesce
  | .waiting, .failureSettled => .activeFailure
  | .waiting, .failureObserved | .waiting, .startupReconcile => .hold
  | .waiting, .due => .due
  | .consumed, .failureSettled => .consumedFailure
  | .consumed, .failureObserved => .consumedObserved
  | .consumed, .startupReconcile => .consumedStartup
  | .consumed, .trialSuccess => .success
  | .succeeded, .failureSettled | .succeeded, .failureObserved
    | .succeeded, .startupReconcile => .arm
  | .succeeded, .stabilityConfirmed => .stability
  | .failed, .failureSettled | .failed, .failureObserved | .failed, .startupReconcile => .hold
  | .exhausted, .failureSettled | .exhausted, .failureObserved
    | .exhausted, .startupReconcile => .hold
  | _, _ => .reject

namespace RecoverySnapshot

/-- `_decision` in the phase of the snapshot. -/
def decision (s : RecoverySnapshot) (command : RecoveryCommand) (reason : RecoveryReason) :
    RecoveryDecision := ⟨s.phase, command, reason⟩

/-- `_guard`. -/
def guard (s : RecoverySnapshot) (barrier : Bool) : Option RecoveryReason :=
  if s.safe = false then some .hardHold
  else if s.enabled = false then some .disabled
  else if s.lifecycleAvailable = false then some .lifecycleUnavailable
  else if barrier ∧ s.ownerPending then some .pendingOwner
  else none

/-- `_mode_hold`. -/
def modeHold (s : RecoverySnapshot) : Option RecoveryReason :=
  if s.mode = .manual ∧ s.phase ≠ .succeeded then some .manualHold
  else if s.mode = .none ∧ s.phase ≠ .none then some .legacyHold
  else if s.mode = .auto ∧ s.phase = .none then some .legacyHold
  else none

/-- `_failure_precondition`. -/
def failurePrecondition (s : RecoverySnapshot) (rule : RecoveryRule) (interrupted : Bool) :
    Option RecoveryDecision :=
  if rule = .consumedFailure ∧ s.run ≠ .current then some (s.decision .wait .wrongRun)
  else if (rule = .consumedObserved ∨ rule = .consumedStartup) ∧ interrupted = false then
    some (s.decision .wait .trialInProgress)
  else if interrupted = false ∧ s.cause = none then some (s.decision .noop .healthy)
  else none

/-- `_failure_decision`. -/
def failureDecision (s : RecoverySnapshot) (rule : RecoveryRule) : RecoveryDecision :=
  let interrupted := rule = .consumedStartup ∧ s.run = .other
  match s.failurePrecondition rule interrupted with
  | some preliminary => preliminary
  | none =>
    match s.guard false with
    | some hold => s.decision .wait hold
    | none =>
      if s.cause = some .floodWait ∧ s.floodBudgetAvailable = false then
        ⟨.exhausted, .armFence, .floodBudgetSpent⟩
      else ⟨.fencing, .armFence, if interrupted then .interruptedTrial else .failure⟩

/-- `_strengthen_decision`. -/
def strengthenDecision (s : RecoverySnapshot) : RecoveryDecision :=
  if s.cause ≠ some .floodWait then s.decision .wait .alreadyFenced
  else
    match s.guard false with
    | some hold => s.decision .wait hold
    | none =>
      if s.floodBudgetAvailable = false then ⟨.exhausted, .strengthenFlood, .floodBudgetSpent⟩
      else s.decision .strengthenFlood .floodStrengthened

/-- `_quiesce_decision`. -/
def quiesceDecision (s : RecoverySnapshot) : RecoveryDecision :=
  match s.guard true with
  | some hold => s.decision .wait hold
  | none =>
    if s.quiesced = false then s.decision .wait .notQuiesced else ⟨.waiting, .setWait, .ready⟩

/-- `_due_decision`. -/
def dueDecision (s : RecoverySnapshot) : RecoveryDecision :=
  match s.guard true with
  | some hold => s.decision .wait hold
  | none =>
    if s.cause = some .floodWait ∧ s.floodBudgetAvailable = false then
      s.decision .wait .floodBudgetSpent
    else if s.due = false then s.decision .wait .notDue
    else ⟨.consumed, .consume, .ready⟩

/-- `_success_decision`. -/
def successDecision (s : RecoverySnapshot) : RecoveryDecision :=
  if s.run ≠ .current then s.decision .reject .wrongRun
  else
    match s.guard true with
    | some hold => s.decision .wait hold
    | none =>
      if s.cause ≠ none then s.decision .reject .failure
      else ⟨.succeeded, .markSuccess, .trialSucceeded⟩

/-- `_stability_decision`. -/
def stabilityDecision (s : RecoverySnapshot) : RecoveryDecision :=
  match s.guard true with
  | some hold => s.decision .wait hold
  | none =>
    if s.cause ≠ none then s.decision .reject .failure
    else if s.stabilityConfirmed = false then s.decision .wait .notStable
    else ⟨.none, .reset, .stable⟩

/-- `_decide_auto_action`, behind the holds of `_decide_rule`. -/
def autoAction (s : RecoverySnapshot) (action : RecoverySnapshot → RecoveryDecision) :
    RecoveryDecision :=
  match s.modeHold with
  | some hold => s.decision .wait hold
  | none => if s.mode ≠ .auto then s.decision .wait .manualHold else action s

/-- `_decide_rule`. -/
def decideRule (s : RecoverySnapshot) : RecoveryRule → RecoveryDecision
  | .reject => s.decision .reject .invalidEvent
  | .hold =>
    match s.modeHold with
    | some hold => s.decision .wait hold
    | none => s.decision .wait
        (if s.phase = .exhausted then .exhausted
          else if s.phase = .fencing ∨ s.phase = .waiting then .alreadyFenced else .legacyHold)
  | .activeFailure => s.autoAction strengthenDecision
  | .quiesce => s.autoAction quiesceDecision
  | .due => s.autoAction dueDecision
  | .success => s.autoAction successDecision
  | .stability => s.autoAction stabilityDecision
  | rule =>
    match s.modeHold with
    | some hold => s.decision .wait hold
    | none => s.failureDecision rule

end RecoverySnapshot

/-- `decide_auto_recovery`. -/
def decideAutoRecovery (s : RecoverySnapshot) (event : RecoveryEvent) : RecoveryDecision :=
  s.decideRule (recoveryRule s.phase event)

end McpTelegram
