import McpTelegram.Foundations.Run
import McpTelegram.Safety.Operations

/-!
# Runs of the safety ledger

The store, the process that owns it and the clocks of the host.  A run is any sequence of ledger
operations whose saves succeed, fail or are cut off by a crash, of crashes and reloads, of time that
passes while the UTC clock jumps, and of reboots.  The compare-and-set of the store is atomic: a
save that failed or was cut off either replaced the whole stored record or left it as it was.
-/

namespace McpTelegram

open Foundations

/-! ## Loading -/

/-- What the constructor of a ledger reads besides the clocks; `none` is a read that raises. -/
structure LoadReads where
  dcId : ℤ
  keyId : Option ℤ
  run : String
  /-- The stored text can be read and decoded. -/
  readable : Bool := true
  /-- `load_legacy_until_utc`. -/
  legacyUntilUtc : Option (Option ℚ) := some none
  /-- `canonical_owners`. -/
  owners : Option (Option ℤ × Option ℤ) := some (none, none)
  /-- `uuid.uuid4().hex`. -/
  generation : String := run

/-- `_load_legacy_floor`: a negative deadline raises. -/
def LoadReads.legacyFloor (reads : LoadReads) : Option (Option ℚ) :=
  reads.legacyUntilUtc.filter fun legacy => legacy.all (0 ≤ ·)

/-- `_initialize_record`. -/
def initializeRecord (bootId : String) (utc : ℚ) (reads : LoadReads) (legacy : Option ℚ) :
    SafetyRecord where
  generation := reads.generation
  scope := {
    stage := if reads.keyId.isSome then .transportOnly else .keyPending
    dcId := reads.dcId
    keyId := reads.keyId
    accountId := none }
  floor := {
    bootId := bootId
    untilMonotonic := 0
    untilUtc := legacy.getD 0
    remainingSeconds := max 0 (legacy.getD 0 - utc) }
  intents := ∅
  protection := none
  recovery := none
  transition := none
  methods := ∅

/-- `_load` forgets that a native receipt contained its intent. -/
def uncontain (intent : SafetyIntent) : SafetyIntent :=
  { intent with
    nativeWriteReceiptOwner :=
      intent.nativeWriteReceiptOwner.map fun owner => { owner with contained := false } }

/-- The stored record with its native receipts uncontained. -/
def uncontainRecord (record : SafetyRecord) : SafetyRecord :=
  { record with intents := Dictionary.mapValues record.intents fun _ intent => uncontain intent }

/-- `_scope_startup_hold`; `none` when the read of the owners raises. -/
def scopeStartupHold (scope : SafetyScope) (reads : LoadReads) : Option (Option Protection) :=
  if (scope.dcId, scope.keyId) ≠ (reads.dcId, reads.keyId) then
    some (some .safetyAuthScopeMismatch)
  else if scope.stage = .verified then
    reads.owners.map fun owners =>
      if (owners.1.isSome && owners.1 ≠ scope.accountId) ||
          (owners.2.isSome && owners.2 ≠ scope.accountId) then
        some .safetyCanonicalOwnerMismatch
      else none
  else some none

namespace SafetyLedger

/-- `_restore_startup_protection`. -/
def restoreStartupProtection (self : SafetyLedger) : SafetyLedger :=
  let hold := self.startupHold
  let hold := if self.record.unresolved then hold.or (some .unresolvedOutboundOutcome) else hold
  let hold :=
    if self.record.transition.isSome then hold.or (some .transportTransitionIncomplete) else hold
  let hold :=
    if (self.record.recovery.any fun trial => trial.state = .consumed) ∧
        hold.any (· ∈ scopeMismatch) = false then some .recoveryTrialIncomplete
    else hold
  { self with
    readScopeValid := self.startupHold = none && self.record.scope.stage = .verified
    startupHold := hold }

/-- `_rebase_floor` on a method episode. -/
def rebaseEpisode (self : SafetyLedger) (now : Moment) (episode : MethodEpisode) :
    MethodEpisode := { episode with floor := self.rebaseFloor now episode.floor }

/-- `_rebase_floor` on the floors of an automatic trial. -/
def rebaseAutomatic (self : SafetyLedger) (now : Moment) (automatic : AutomaticRecovery) :
    AutomaticRecovery :=
  { automatic with
    scheduledDue := automatic.scheduledDue.map (self.rebaseFloor now)
    quietAnchor := automatic.quietAnchor.map (self.rebaseFloor now) }

/-- Some floor of the automatic trial belongs to another boot. -/
def automaticFromOtherBoot (self : SafetyLedger) (automatic : AutomaticRecovery) : Bool :=
  automatic.scheduledDue.any (·.bootId ≠ self.bootId) ||
    automatic.quietAnchor.any (·.bootId ≠ self.bootId)

/-- `_rebase_safety_record`, with the legacy floor that was read. -/
def rebaseSafetyRecord (self : SafetyLedger) (now : Moment) (legacy : Option ℚ) : SafetyLedger :=
  let floor := self.record.floor
  let floor := { floor with untilUtc := max floor.untilUtc (legacy.getD 0) }
  { self with
    record := { self.record with
      floor := self.rebaseFloor now floor
      methods := Dictionary.mapValues self.record.methods fun _ => self.rebaseEpisode now
      recovery := self.record.recovery.map fun trial =>
        { trial with automatic := trial.automatic.map (self.rebaseAutomatic now) } }
    autoResumeRebased := (self.record.recovery.bind (·.automatic)).any self.automaticFromOtherBoot }

/-- The constructor raised after the record was read. -/
def failStartup (self : SafetyLedger) : SafetyLedger :=
  { self with
    storageFailed := true
    startupHold := self.startupHold.or (some .invalidSafetyReceipt) }

end SafetyLedger

/-! ## The world -/

/-- The process that owns the store: none, one whose record could not be read, or a ledger. -/
inductive SafetyProcess
  | down
  | unreadable
  | up (ledger : SafetyLedger)

/-- The store, the process and the clocks. -/
structure SafetyWorld where
  stored : Option SafetyRecord
  process : SafetyProcess := .down
  bootId : String
  monotonic : ℚ
  utc : ℚ

/-- What becomes of a save: it succeeds, it raises, or the process crashes.  In the last two cases
the stored record was replaced or not. -/
inductive SaveOutcome
  | saved
  | raised (replaced : Bool)
  | crashed (replaced : Bool)

/-- What an operation reads besides the clocks. -/
structure Surroundings where
  owners : Option ℤ × Option ℤ := (none, none)
  operationsPending : Bool := false
  uuid : ℕ → String

/-- A call outside `SafetyOperation`, such as `verify_account`, `bind_key`, `begin_authentication`
or `prepare_method_trial`.  It may leave anything in the fields that such calls write; no call
outside `SafetyOperation` writes a floor, or whether a method episode is live. -/
structure OtherCall where
  generation : String
  scope : SafetyScope
  intents : Dictionary String SafetyIntent
  protection : Option Protection
  recovery : Option RecoveryTrial
  transition : Option SafetyTransition
  claims : String → MethodEpisode → Option MethodClaim
  startupHold : Option Protection
  readScopeValid : Bool
  authenticationAuthorized : Bool

/-- The record that a call outside `SafetyOperation` saves. -/
def OtherCall.record (other : OtherCall) (record : SafetyRecord) : SafetyRecord where
  generation := other.generation
  scope := other.scope
  floor := record.floor
  intents := other.intents
  protection := other.protection
  recovery := other.recovery
  transition := other.transition
  methods := Dictionary.mapValues record.methods fun method episode =>
    { episode with claim := other.claims method episode }

/-- A call outside `SafetyOperation` around its save. -/
def OtherCall.call (other : OtherCall) (ledger : SafetyLedger) : SafetyCall where
  ledger := { ledger with
    startupHold := other.startupHold
    readScopeValid := other.readScopeValid
    authenticationAuthorized := other.authenticationAuthorized }
  proposal := some (.ok (other.record ledger.record))

/-- The steps of a run. -/
inductive SafetyEvent
  /-- The ledger runs an operation. -/
  | operate (operation : SafetyOperation) (surroundings : Surroundings) (outcome : SaveOutcome)
  /-- The ledger runs a call outside `SafetyOperation`. -/
  | operateOther (other : OtherCall) (outcome : SaveOutcome)
  /-- A new process loads its ledger. -/
  | load (reads : LoadReads)
  /-- The process ends. -/
  | crash
  /-- Time passes, and the UTC clock shows `utc`. -/
  | tick (elapsed utc : ℚ)
  /-- The host restarts, with clocks that have nothing to do with the old ones. -/
  | reboot (bootId : String) (monotonic utc : ℚ)

/-- An event within one boot. -/
def SafetyEvent.SameBoot : SafetyEvent → Prop
  | .reboot _ _ _ => False
  | _ => True

namespace SafetyWorld

/-- The instant at which an operation runs. -/
def moment (w : SafetyWorld) (surroundings : Surroundings) : Moment where
  monotonic := w.monotonic
  utc := w.utc
  owners := surroundings.owners
  operationsPending := surroundings.operationsPending
  uuid := surroundings.uuid

/-- The instant at which a ledger is loaded. -/
def loadMoment (w : SafetyWorld) (reads : LoadReads) : Moment :=
  w.moment { owners := reads.owners.getD (none, none), uuid := fun _ => reads.generation }

/-- `_load` on a new store. -/
def loadNew (tlobjects : TlObjects) (w : SafetyWorld) (reads : LoadReads) : SafetyProcess :=
  match reads.legacyFloor, reads.owners with
  | some legacy, some owners =>
    let ledger : SafetyLedger :=
      { bootId := w.bootId, run := reads.run, record := initializeRecord w.bootId w.utc reads legacy }
    if validateSafetyRecord tlobjects ledger.record = false then .up ledger.failStartup
    else if reads.keyId.isNone ∧ (owners.1.isSome ∨ owners.2.isSome) then
      .up { ledger with startupHold := some .newKeyConflictsWithOwnedState }
    else .up ledger
  | _, _ => .unreadable

/-- The ledger that `_load` builds on a stored record before anything can raise. -/
def loadLedger (w : SafetyWorld) (reads : LoadReads) (record : SafetyRecord) : SafetyLedger :=
  { bootId := w.bootId, run := reads.run, record := uncontainRecord record }

/-- `_load` on a stored record. -/
def loadStored (tlobjects : TlObjects) (w : SafetyWorld) (reads : LoadReads)
    (record : SafetyRecord) : SafetyProcess :=
  if reads.readable = false ∨ validateSafetyRecord tlobjects record = false then .unreadable
  else
    let ledger := w.loadLedger reads record
    match scopeStartupHold record.scope reads with
    | none => .up ledger.failStartup
    | some hold =>
      let ledger := { ledger with startupHold := hold }.restoreStartupProtection
      match reads.legacyFloor with
      | none => .up ledger.failStartup
      | some legacy => .up (ledger.rebaseSafetyRecord (w.loadMoment reads) legacy)

/-- The constructor of the ledger. -/
def loadProcess (tlobjects : TlObjects) (w : SafetyWorld) (reads : LoadReads) : SafetyProcess :=
  match w.stored with
  | none => if reads.readable then w.loadNew tlobjects reads else .unreadable
  | some record => w.loadStored tlobjects reads record

/-- The record that a save leaves in the store. -/
def SaveOutcome.stored (outcome : SaveOutcome) (old : Option SafetyRecord) (new : SafetyRecord) :
    Option SafetyRecord :=
  match outcome with
  | .saved | .raised true | .crashed true => some new
  | .raised false | .crashed false => old

/-- `_operation_done`: claims without an intent are forgotten. -/
def pruneClaims (ledger : SafetyLedger) : SafetyLedger :=
  { ledger with claimed := ledger.claimed.filter (· ∈ ledger.record.intents) }

/-- The process after a save of a record. -/
def SaveOutcome.process (outcome : SaveOutcome) (ledger : SafetyLedger) (new : SafetyRecord)
    (settle : SafetyLedger → SafetyLedger) : SafetyProcess :=
  match outcome with
  | .saved => .up (pruneClaims (settle { ledger with record := new }))
  | .raised _ => .up { ledger with storageFailed := true }
  | .crashed _ => .down

/-- `_commit` of a call: nothing is saved when the storage failed before, when the change raises,
and when the changed record is invalid. -/
def commit (tlobjects : TlObjects) (w : SafetyWorld) (call : SafetyCall) (outcome : SaveOutcome) :
    SafetyWorld :=
  match call.proposal with
  | some (.ok record) =>
    if call.ledger.storageFailed = false ∧ validateSafetyRecord tlobjects record then
      { w with
        stored := SaveOutcome.stored outcome w.stored record
        process := SaveOutcome.process outcome call.ledger record call.settle }
    else { w with process := .up call.ledger }
  | _ => { w with process := .up call.ledger }

/-- A boot identifier that no floor of the store carries. -/
def newBoot (stored : Option SafetyRecord) (bootId : String) : Bool :=
  stored.all fun record =>
    record.floor.bootId ≠ bootId &&
      Dictionary.all record.methods fun _ episode => episode.floor.bootId ≠ bootId

/-- No intent of the store was prepared by the run. -/
def newRun (stored : Option SafetyRecord) (run : String) : Bool :=
  stored.all fun record => Dictionary.all record.intents fun _ intent => intent.run ≠ run

/-- A step of a run.  A ledger is loaded when no process owns the store, under a run that no stored
intent belongs to; without a readable record every operation raises. -/
def step (tlobjects : TlObjects) (w : SafetyWorld) : SafetyEvent → Option SafetyWorld
  | .operate operation surroundings outcome =>
    match w.process with
    | .up ledger =>
      some (w.commit tlobjects (ledger.call tlobjects (w.moment surroundings) operation) outcome)
    | .unreadable => some w
    | .down => none
  | .operateOther other outcome =>
    match w.process with
    | .up ledger => some (w.commit tlobjects (other.call ledger) outcome)
    | .unreadable => some w
    | .down => none
  | .load reads =>
    match w.process with
    | .down =>
      if newRun w.stored reads.run then some { w with process := w.loadProcess tlobjects reads }
      else none
    | _ => none
  | .crash => some { w with process := .down }
  | .tick elapsed utc =>
    if 0 ≤ elapsed then some { w with monotonic := w.monotonic + elapsed, utc := utc } else none
  | .reboot bootId monotonic utc =>
    if bootId ≠ w.bootId ∧ newBoot w.stored bootId then
      some { w with
        process := .down
        bootId := bootId
        monotonic := monotonic
        utc := utc }
    else none

end SafetyWorld

end McpTelegram
