import McpTelegram.Demand.Slices
import McpTelegram.Foundations.Dictionary
import Mathlib.Data.Finset.Basic

/-!
# The demand coordinator

The state of `TelegramDemandCoordinator` with its synchronous methods: `offer`,
`eligibility_changed`, `scan`, and the parts of a slice before and after the adapter runs.  A scan
is given the answers of the adapters as one list for each kind, in the order of the questions of
`_scan_available_kind`, each with the clock and the gate that its handling reads.
-/

namespace McpTelegram

open Foundations

/-- The state of the coordinator.  The eight maps from revisions are `work`. -/
structure DemandCoordinator where
  queue : List DemandKind := []
  queued : Finset DemandKind := ∅
  queuedSince : Dictionary DemandKind ℚ := ∅
  statuses : Dictionary DemandKind DemandStatus := ∅
  authoritativeReady : Finset DemandKind := ∅
  offered : Finset DemandKind := ∅
  activeKind : Option DemandKind := none
  activeRevision : Option WorkRevision := none
  retainedRevision : Option WorkRevision := none
  nextReleaseAt : Option ℚ := none
  statusFailedUntil : Dictionary DemandKind ℚ := ∅
  work : Dictionary WorkRevision WorkState := ∅
  eligibilityGeneration : ℕ := 0
  wake : Bool := false
  /-- The identity of the next invocation object. -/
  nextCell : ℕ := 0

/-- One answer of an adapter: `none` when `status` raised. -/
structure StatusReading where
  answer : Option (Option DemandStatus)
  now : ℚ
  gate : Option RpcGate := none

/-- What a scan reads: `now` of the caller, the deadline clock of the two release loops, and the
answers of each adapter. -/
structure ScanReadings where
  observedAt : ℚ
  expiredAt : ℚ
  transientAt : WorkRevision → ℚ
  answers : DemandKind → List StatusReading

namespace DemandCoordinator

/-- What the eight maps hold of a revision. -/
def workOf (c : DemandCoordinator) (revision : WorkRevision) : WorkState :=
  (c.work.lookup revision).getD {}

/-- `revision in self._excluded`. -/
def isExcluded (c : DemandCoordinator) (revision : WorkRevision) : Bool :=
  (c.workOf revision).excluded

/-- The entries of one revision changed. -/
def updateWork (c : DemandCoordinator) (revision : WorkRevision) (f : WorkState → WorkState) :
    DemandCoordinator :=
  { c with work := c.work.insert revision (f (c.workOf revision)) }

/-- The entries of every revision changed, each on its own. -/
def mapWork (c : DemandCoordinator) (f : WorkRevision → WorkState → WorkState) :
    DemandCoordinator :=
  { c with work := Dictionary.mapValues c.work f }

/-! ## Offers and gates -/

/-- `_retained_kind`. -/
def retainedKind (c : DemandCoordinator) (kind : DemandKind) : Bool :=
  c.retainedRevision.any fun revision => revision.key.demandKind = kind

/-- `offer` of a running coordinator. -/
def offer (c : DemandCoordinator) (kind : DemandKind) : DemandCoordinator :=
  if kind ∈ c.offered ∨ kind ∈ c.queued ∨ c.activeKind = some kind ∨ c.retainedKind kind then c
  else { c with offered := insert kind c.offered, wake := true }

/-- `_release_ready_gate_waits`: `eligible` says whether `_rpc_eligibility` answers `None` for the
method of a revision, and `now` when it is asked about it. -/
def releaseReadyGateWaits (c : DemandCoordinator) (now : WorkRevision → ℚ)
    (eligible : WorkRevision → Option String → Bool) : DemandCoordinator :=
  c.mapWork fun revision work =>
    if work.eligibilityWait.isSome ∧ work.waitReady (now revision) ∧
        eligible revision (work.methodForWork work.budget none) then
      work.releaseGateWait
    else work

/-- `eligibility_changed`. -/
def eligibilityChanged (c : DemandCoordinator) (methodKey : Option String)
    (now : WorkRevision → ℚ) (eligible : WorkRevision → Option String → Bool) :
    DemandCoordinator :=
  let c := { c with eligibilityGeneration := c.eligibilityGeneration + 1 }
  let c :=
    match methodKey with
    | none => c.releaseReadyGateWaits now eligible
    | some methodKey =>
      c.mapWork fun revision work =>
        if work.eligibilityWait.isSome ∧ work.waitReady (now revision) ∧
            work.methodForWork work.budget none = some methodKey then
          work.releaseGateWait
        else work
  { c with wake := true }

/-! ## Scanning -/

/-- `_remove_queued`. -/
def removeQueued (c : DemandCoordinator) (kind : DemandKind) : DemandCoordinator :=
  if kind ∈ c.queued then
    { c with
      queued := c.queued.erase kind
      queue := c.queue.erase kind
      queuedSince := c.queuedSince.erase kind }
  else c

/-- The kind is not ready: out of `_authoritative_ready` and of the queue. -/
def setNotReady (c : DemandCoordinator) (kind : DemandKind) : DemandCoordinator :=
  { c with authoritativeReady := c.authoritativeReady.erase kind }.removeQueued kind

/-- The kind is ready: in `_authoritative_ready`, and in the queue unless it runs. -/
def setReady (c : DemandCoordinator) (kind : DemandKind) (observedAt : ℚ) : DemandCoordinator :=
  if kind ∉ c.queued ∧ c.activeKind ≠ some kind then
    { c with
      authoritativeReady := insert kind c.authoritativeReady
      queue := c.queue ++ [kind]
      queued := insert kind c.queued
      queuedSince := c.queuedSince.insert kind observedAt }
  else { c with authoritativeReady := insert kind c.authoritativeReady }

/-- `_prune_revised_invocations`: the superseded revisions are those with an invocation. -/
def pruneRevisedInvocations (c : DemandCoordinator) (selected : WorkRevision) :
    DemandCoordinator :=
  c.mapWork fun revision work =>
    if work.invocation.isSome ∧ revision.key = selected.key ∧ revision ≠ selected then {} else work

/-- `_gate_release`. -/
def gateRelease (status : DemandStatus) (eligibleAt : Option ℚ) (observedAt now : ℚ) :
    DemandStatus :=
  match eligibleAt with
  | none => status
  | some eligibleAt =>
    { status with releaseAt := max status.releaseAt (observedAt + max 0 (eligibleAt - now)) }

/-- The status that `_eligibility_status` leaves behind a gate. -/
def gatedStatus (status : DemandStatus) (observedAt now : ℚ) : Option RpcGate → DemandStatus
  | some (.admissionDeferred _ _ eligibleAt _) => gateRelease status eligibleAt observedAt now
  | _ => status

/-- `_apply_status` on a status. -/
def applySome (c : DemandCoordinator) (kind : DemandKind) (status : DemandStatus)
    (observedAt : ℚ) (reading : StatusReading) : DemandCoordinator :=
  let c := { c with statuses := c.statuses.insert kind status }
  match status.selected with
  | none => c.setNotReady kind
  | some selected =>
    let c := c.pruneRevisedInvocations selected
    if c.isExcluded selected then c.setNotReady kind
    else if status.isReady observedAt = false then c.setNotReady kind
    else
      let limit := kind.maxRpcAttemptsPerSlice.getD 0
      let c :=
        c.updateWork selected fun work =>
          work.meetGate limit c.nextCell reading.now status.requestMethod reading.gate
      let c :=
        { c with
          nextCell := c.nextCell + 1
          statuses :=
            c.statuses.insert kind (gatedStatus status observedAt reading.now reading.gate) }
      if reading.gate.isSome then c.setNotReady kind else c.setReady kind observedAt

/-- `_apply_status` on `None`. -/
def applyNone (c : DemandCoordinator) (kind : DemandKind) : DemandCoordinator :=
  { c with statuses := c.statuses.erase kind }.setNotReady kind

/-- `_record_status_failure`. -/
def recordStatusFailure (c : DemandCoordinator) (safetyScanSeconds : ℚ) (kind : DemandKind)
    (observedAt : ℚ) : DemandCoordinator :=
  { c with
    statusFailedUntil := c.statusFailedUntil.insert kind (observedAt + safetyScanSeconds)
    statuses := c.statuses.erase kind }.setNotReady kind

/-- `self._status_failed_until.pop(kind, None)`. -/
def clearFailure (c : DemandCoordinator) (kind : DemandKind) : DemandCoordinator :=
  { c with statusFailedUntil := c.statusFailedUntil.erase kind }

/-- Whether `_scan_available_kind` asks again: the revision was not excluded when the adapter
was asked and is excluded now. -/
def asksAgain (before after : DemandCoordinator) (status : DemandStatus) : Bool :=
  status.selected.any fun selected => after.isExcluded selected && !before.isExcluded selected

/-- `_scan_available_kind` with its error handler; `none` when the answers are not those of one
scan. -/
def scanAvailableKind (safetyScanSeconds : ℚ) (kind : DemandKind) (observedAt : ℚ) :
    DemandCoordinator → List StatusReading → Option DemandCoordinator
  | _, [] => none
  | c, reading :: rest =>
    match reading.answer with
    | none =>
      if rest = [] then some (c.recordStatusFailure safetyScanSeconds kind observedAt) else none
    | some none => if rest = [] then some ((c.applyNone kind).clearFailure kind) else none
    | some (some status) =>
      let after := c.applySome kind status observedAt reading
      if asksAgain c after status then
        scanAvailableKind safetyScanSeconds kind observedAt after rest
      else if rest = [] then some (after.clearFailure kind)
      else none

/-- `_scan_kind`. -/
def scanKind (safetyScanSeconds observedAt : ℚ) (c : DemandCoordinator) (kind : DemandKind)
    (readings : List StatusReading) : Option DemandCoordinator :=
  if c.retainedKind kind then some (c.removeQueued kind)
  else if (c.statusFailedUntil.lookup kind).any (observedAt < ·) then some c
  else scanAvailableKind safetyScanSeconds kind observedAt c readings

/-- `_recompute_next_release`. -/
def recomputeNextRelease (c : DemandCoordinator) (now : ℚ) : DemandCoordinator :=
  { c with
    nextReleaseAt :=
      ((c.statuses.entries.map fun entry => entry.2.releaseAt) ++
          c.statusFailedUntil.entries.map fun entry => entry.2).filter (now < ·) |>.min? }

/-- `scan` before the adapters are asked: the two release loops. -/
def releaseExpired (c : DemandCoordinator) (readings : ScanReadings) : DemandCoordinator :=
  (c.mapWork fun _ work => work.prepareExpiredGateWait readings.expiredAt).mapWork
    fun revision work => work.expireTransientWait (readings.transientAt revision)

/-- The loop of `scan` over the kinds. -/
def scanKinds (safetyScanSeconds : ℚ) (readings : ScanReadings) :
    DemandCoordinator → List DemandKind → Option DemandCoordinator
  | c, [] => some c
  | c, kind :: kinds =>
    (scanKind safetyScanSeconds readings.observedAt c kind (readings.answers kind)).bind
      fun c => scanKinds safetyScanSeconds readings c kinds

/-- `scan`. -/
def scan (safetyScanSeconds : ℚ) (c : DemandCoordinator) (readings : ScanReadings)
    (clearOffers : Bool) : Option DemandCoordinator :=
  let c := c.releaseExpired readings
  let c := if clearOffers then { c with offered := ∅ } else c
  (scanKinds safetyScanSeconds readings c durableDemandOrder).map fun c =>
    c.recomputeNextRelease readings.observedAt

/-- The statuses among the answers are about the kind's own work. -/
def OwnAnswers (kind : DemandKind) (readings : List StatusReading) : Prop :=
  ∀ reading ∈ readings, ∀ status, reading.answer = some (some status) →
    ∀ selected, status.selected = some selected → selected.key.demandKind = kind

/-- The adapters answer with work of their own kind. -/
def OwnKinds (readings : ScanReadings) : Prop := ∀ kind, OwnAnswers kind (readings.answers kind)

/-- The first status that the scan reads for a kind, hence the only one, is ready and ungated: the
kind is not retained, its failures are over, and its adapter answers a ready status whose revision
is not excluded and whose gate is open. -/
def AnswersReady (c : DemandCoordinator) (kind : DemandKind) (observedAt : ℚ)
    (readings : List StatusReading) : Prop :=
  c.retainedKind kind = false ∧ (c.statusFailedUntil.lookup kind).any (observedAt < ·) = false ∧
    ∃ reading rest status selected, readings = reading :: rest ∧
      reading.answer = some (some status) ∧ status.selected = some selected ∧
        status.isReady observedAt = true ∧ c.isExcluded selected = false ∧ reading.gate = none

/-- The kind is ready at a scan. -/
def ReadyAt (c : DemandCoordinator) (kind : DemandKind) (readings : ScanReadings) : Prop :=
  (c.releaseExpired readings).AnswersReady kind readings.observedAt (readings.answers kind)

/-- `_pop_ready`. -/
def popReady (c : DemandCoordinator) : Option (DemandKind × DemandCoordinator) :=
  match c.queue with
  | [] => none
  | kind :: queue => some (kind, { c with queue, queued := c.queued.erase kind })

/-! ## Waiting -/

/-- `MIN_WAIT_SECONDS`. -/
def minWaitSeconds : ℚ := 1 / 1000

/-- The finite deadlines of the temporary holds. -/
def holdDeadlines (c : DemandCoordinator) : List ℚ :=
  (c.work.entries.filterMap fun entry => entry.2.eligibilityWait.bind id) ++
    c.work.entries.filterMap fun entry => entry.2.transientWait

/-- `_wait_delay`: `now` is the clock of the scan, `monotonicNow` the deadline clock. -/
def waitDelay (safetyScanSeconds : ℚ) (c : DemandCoordinator) (now monotonicNow : ℚ) : ℚ :=
  let boundary := (c.nextReleaseAt.elim (now + safetyScanSeconds) (min (now + safetyScanSeconds)))
  max minWaitSeconds
    (((c.holdDeadlines.filter (monotonicNow < ·)).map (· - monotonicNow)).foldl min
      (boundary - now))

end DemandCoordinator

end McpTelegram
