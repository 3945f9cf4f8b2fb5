import McpTelegram.Demand.Coordinator
import McpTelegram.Foundations.Run

/-!
# The pump and its slices

A world is a coordinator with its run loop and the slices whose adapter is running.  The loop and
the retained task interleave at the awaits: a pass of the loop ends in a sleep, in the start of a
retained task or in the call of an adapter, and the next one begins when the sleep is over, at
once, or when that adapter returned.  Offers, gate changes, direct scans and the request to stop
come at any time between two passes.
-/

namespace McpTelegram

open Foundations

/-- Where the run loop is: `stopped` when it ended, `looping` at its head. -/
inductive PumpPoint where
  | looping
  | sleeping (wakeAt : ℚ)
  | awaitingSlice
  | stopped
  deriving DecidableEq

/-- A slice whose adapter is running. -/
structure RunningSlice where
  kind : DemandKind
  selected : WorkRevision
  invocation : DemandInvocation
  /-- `_SLICE_GENERATION`. -/
  generation : ℕ
  deriving DecidableEq

/-- A retained task that the run loop did not harvest yet. -/
inductive RetainedTask where
  | created (kind : DemandKind) (selected : WorkRevision)
  | running (slice : RunningSlice)
  | done (failed : Bool)
  deriving DecidableEq

/-- One call of `_execute_slice` by the run loop, with what was excluded when the kind was
popped. -/
structure Selection where
  kind : DemandKind
  selected : WorkRevision
  excluded : Bool
  deriving DecidableEq

/-- The coordinator, its run loop and its slices; both kinds of slices are lists, so that their
number is a fact and not a shape. -/
structure DemandWorld where
  coordinator : DemandCoordinator := {}
  pump : PumpPoint := .looping
  shutdown : Bool := false
  inline : List RunningSlice := []
  retained : List RetainedTask := []
  /-- The calls of `_execute_slice`, in their order. -/
  selections : List Selection := []

/-- What a pass of the run loop reads. -/
structure PumpReadings where
  scan : ScanReadings
  slice : SliceReadings
  /-- The deadline clock of `_wait_delay`, and the one at which the sleep starts. -/
  waitAt : ℚ

/-- What the end of a slice reads. -/
structure FinishReadings where
  handler : HandlerReadings
  /-- The budget that the adapter leaves. -/
  budget : RpcAttemptBudget
  releaseAt : WorkRevision → ℚ
  eligible : WorkRevision → Option String → Bool

/-- One synchronous step. -/
inductive DemandStep where
  | offer (kind : DemandKind)
  | eligibilityChanged (methodKey : Option String) (now : WorkRevision → ℚ)
      (eligible : WorkRevision → Option String → Bool)
  | scan (readings : ScanReadings) (clearOffers : Bool)
  /-- A pass of the run loop. -/
  | pump (readings : PumpReadings)
  /-- The retained task starts. -/
  | beginRetained (readings : SliceReadings)
  | finishInline (result : SliceResult) (readings : FinishReadings)
  | finishRetained (result : SliceResult) (readings : FinishReadings)
  /-- The end of the run loop. -/
  | stopRetained
  | requestShutdown

namespace DemandWorld

/-- `_execute_slice` up to the call of the adapter. -/
def executeSlice (c : DemandCoordinator) (kind : DemandKind) (selected : WorkRevision)
    (readings : SliceReadings) : DemandCoordinator × Option RunningSlice :=
  let started :=
    (c.workOf selected).executeSlice readings (kind.maxRpcAttemptsPerSlice.getD 0) c.nextCell
      kind.admissionTimeoutSeconds
  ({ c.updateWork selected fun _ => started.1 with
      queuedSince := c.queuedSince.erase kind
      nextCell := c.nextCell + 1 },
    started.2.map fun invocation =>
      { kind, selected, invocation, generation := c.eligibilityGeneration })

/-- `_harvest_retained`: the error of a finished task ends the run. -/
def harvestRetained (world : DemandWorld) : DemandWorld :=
  match world.retained with
  | .done failed :: retained =>
    { world with
      retained
      coordinator := { world.coordinator with retainedRevision := none }
      pump := if failed then .stopped else world.pump }
  | _ => world

/-- The run loop after the scan. -/
def selectAndRun (safetyScanSeconds : ℚ) (world : DemandWorld) (readings : PumpReadings) :
    DemandWorld :=
  match world.coordinator.popReady with
  | none =>
    { world with
      pump := .sleeping
        (readings.waitAt +
          world.coordinator.waitDelay safetyScanSeconds readings.scan.observedAt
            readings.waitAt) }
  | some (kind, coordinator) =>
    match (coordinator.statuses.lookup kind).bind DemandStatus.selected with
    | none => { world with coordinator, pump := .stopped }
    | some selected =>
      let selections :=
        world.selections ++ [{ kind, selected, excluded := coordinator.isExcluded selected }]
      if kind ∈ retainedDemandKinds then
        if world.retained ≠ [] then { world with coordinator, pump := .stopped }
        else
          { world with
            coordinator := { coordinator with retainedRevision := some selected }
            retained := [.created kind selected]
            selections
            pump := .looping }
      else
        match executeSlice coordinator kind selected readings.slice with
        | (coordinator, none) => { world with coordinator, selections, pump := .looping }
        | (coordinator, some slice) =>
          { world with
            coordinator :=
              { coordinator with activeKind := some kind, activeRevision := some selected }
            inline := world.inline ++ [slice]
            selections
            pump := .awaitingSlice }

/-- The world in which a pass of the run loop scans. -/
def beforeScan (world : DemandWorld) : DemandWorld :=
  { world with coordinator := { world.coordinator with wake := false } }.harvestRetained

/-- A pass of the run loop. -/
def pumpPass (safetyScanSeconds : ℚ) (world : DemandWorld) (readings : PumpReadings) :
    Option DemandWorld :=
  if world.shutdown then some { world with pump := .stopped }
  else
    let world := world.beforeScan
    if world.pump = .stopped then some world
    else
      (world.coordinator.scan safetyScanSeconds readings.scan true).map fun coordinator =>
        { world with coordinator }.selectAndRun safetyScanSeconds readings

/-- Whether the run loop may go on at a time of the deadline clock. -/
def mayPass (world : DemandWorld) (now : ℚ) : Bool :=
  match world.pump with
  | .looping => true
  | .sleeping wakeAt => world.coordinator.wake || world.shutdown || wakeAt ≤ now
  | .awaitingSlice | .stopped => false

/-- The coordinator after the handler of a slice. -/
def handleSlice (c : DemandCoordinator) (slice : RunningSlice) (result : SliceResult)
    (readings : FinishReadings) : DemandCoordinator :=
  let after := { slice.invocation with budget := readings.budget }
  let work := (c.workOf slice.selected).accountAttempts slice.invocation after
  let handler :=
    { readings.handler with generationChanged := slice.generation ≠ c.eligibilityGeneration }
  let handled := work.handleResult handler readings.budget slice.selected result
  let c := c.updateWork slice.selected fun _ => handled.work
  let c := if handled.releaseReady then c.releaseReadyGateWaits readings.releaseAt readings.eligible
    else c
  c.updateWork slice.selected handled.afterRelease

/-- Whether the result of a slice ends the task that runs it: a cancellation, and a closed
admission unless a shutdown is on its way. -/
def endsTask (world : DemandWorld) : SliceResult → Bool
  | .cancelled => true
  | .admissionClosed => !world.shutdown
  | _ => false

/-- A closed admission requests the shutdown. -/
def afterResult (world : DemandWorld) : SliceResult → DemandWorld
  | .admissionClosed =>
    if world.shutdown then world
    else { world with shutdown := true, coordinator := { world.coordinator with wake := true } }
  | _ => world

/-- The adapter of the inline slice returned: its handler, and the `finally` of the run loop. -/
def finishInline (world : DemandWorld) (result : SliceResult) (readings : FinishReadings) :
    Option DemandWorld :=
  match world.inline with
  | [] => none
  | slice :: inline =>
    let coordinator :=
      { handleSlice world.coordinator slice result readings with
        activeKind := none
        activeRevision := none }
    some
      { afterResult { world with coordinator, inline } result with
        pump := if world.endsTask result then .stopped else .looping }

/-- The adapter of the retained slice returned; the end of its task wakes the run loop. -/
def finishRetained (world : DemandWorld) (result : SliceResult) (readings : FinishReadings) :
    Option DemandWorld :=
  match world.retained with
  | .running slice :: retained =>
    let coordinator :=
      { handleSlice world.coordinator slice result readings with wake := true }
    some
      { afterResult { world with coordinator } result with
        retained := .done (world.endsTask result) :: retained }
  | _ => none

/-- The retained task starts; without an adapter call it is done. -/
def beginRetained (world : DemandWorld) (readings : SliceReadings) : Option DemandWorld :=
  match world.retained with
  | .created kind selected :: retained =>
    match executeSlice world.coordinator kind selected readings with
    | (coordinator, none) =>
      some
        { world with
          coordinator := { coordinator with wake := true }
          retained := .done false :: retained }
    | (coordinator, some slice) =>
      some { world with coordinator, retained := .running slice :: retained }
  | _ => none

/-- `_stop_retained` at the end of the run loop, once the cancelled task is over. -/
def stopRetained (world : DemandWorld) : Option DemandWorld :=
  match world.retained with
  | .running _ :: _ => none
  | _ =>
    if world.pump = .stopped then
      some
        { world with
          retained := []
          coordinator :=
            { world.coordinator with retainedRevision := none, activeKind := none } }
    else none

/-- The step relation, as a function. -/
def perform (safetyScanSeconds : ℚ) (world : DemandWorld) : DemandStep → Option DemandWorld
  | .offer kind =>
    if world.pump = .stopped ∨ kind ∉ durableDemandOrder then some world
    else some { world with coordinator := world.coordinator.offer kind }
  | .eligibilityChanged methodKey now eligible =>
    some
      { world with coordinator := world.coordinator.eligibilityChanged methodKey now eligible }
  | .scan readings clearOffers =>
    (world.coordinator.scan safetyScanSeconds readings clearOffers).map fun coordinator =>
      { world with coordinator }
  | .pump readings =>
    if world.mayPass readings.scan.expiredAt then world.pumpPass safetyScanSeconds readings
    else none
  | .beginRetained readings => world.beginRetained readings
  | .finishInline result readings => world.finishInline result readings
  | .finishRetained result readings => world.finishRetained result readings
  | .stopRetained => world.stopRetained
  | .requestShutdown =>
    some
      { world with shutdown := true, coordinator := { world.coordinator with wake := true } }

/-- The adapters of a step answer with work of their own kind: `DurableDemandAdapter` is a view
over the state that one demand kind owns. -/
def Owned : DemandStep → Prop
  | .scan readings _ => DemandCoordinator.OwnKinds readings
  | .pump readings => DemandCoordinator.OwnKinds readings.scan
  | _ => True

/-- The scan that a step makes, if it makes one. -/
def scanOf (world : DemandWorld) : DemandStep → Option (DemandCoordinator × ScanReadings)
  | .scan readings _ => some (world.coordinator, readings)
  | .pump readings =>
    if world.shutdown ∨ world.beforeScan.pump = .stopped then none
    else some (world.beforeScan.coordinator, readings.scan)
  | _ => none

/-- If the step scans, the kind is ready and ungated there. -/
def ScansReady (kind : DemandKind) (world : DemandWorld) (step : DemandStep) : Prop :=
  ∀ c readings, world.scanOf step = some (c, readings) → c.ReadyAt kind readings

/-- Whether a step is a pass of the run loop. -/
def isPass : DemandStep → Bool
  | .pump _ => true
  | _ => false

end DemandWorld

end McpTelegram
