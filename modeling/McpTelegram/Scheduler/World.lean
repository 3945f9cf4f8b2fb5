import McpTelegram.Foundations.Run
import McpTelegram.Scheduler.Core

/-!
# Runs of the admission scheduler

The scheduler together with what surrounds it: the clock and the other outside readings, the
dispatcher task, the timers, and the callers of `admit`.  An event is one callback of the event
loop, or a change of the outside.  `SchedulerWorld.step` answers `none` for an event that cannot
happen, such as a timer that is not due.
-/

namespace McpTelegram

open Foundations

/-- The events of a run.  Those that carry a ticket are about a ticket that `admit` accepted. -/
inductive SchedulerEvent
  /-- The clock moves on. -/
  | advance (now : ℚ)
  /-- The transport becomes ready or unready. -/
  | setReady (ready : Bool)
  /-- `release_at` or `deferral` changes, and `notify_eligibility_changed` is called. -/
  | eligibilityChanged (releaseAt : RpcScope → Option ℚ) (deferral : RpcScope → Bool)
  /-- A caller calls `admit`. -/
  | admitScope (scope : RpcScope)
  /-- A caller that waits for its ticket is cancelled. -/
  | callerCancelled (t : AdmissionTicket)
  /-- The cancelled caller runs `_cancel_ticket`. -/
  | cancelTicket (t : AdmissionTicket)
  /-- A caller whose future is done leaves `admit`. -/
  | callerResumed (t : AdmissionTicket)
  /-- The expiry timer of a ticket fires. -/
  | expireTimer (t : AdmissionTicket)
  /-- `expire_due` is called. -/
  | expireDue
  /-- The release timer fires. -/
  | releaseReady
  /-- The dispatcher goes on behind `readiness.wait()`. -/
  | dispatcherReady
  /-- The dispatcher goes on behind `limiter.acquire()`. -/
  | dispatcherLimited
  /-- The readiness or the limiter raises in the dispatcher. -/
  | dispatcherFailed
  /-- The cancellation of the dispatcher at shutdown is delivered. -/
  | dispatcherCancelled
  /-- `record_dispatch` is called. -/
  | recordDispatch (admission : RpcAdmission)
  /-- `complete` is called. -/
  | complete (admission : RpcAdmission)
  /-- `close` starts the shutdown. -/
  | startShutdown
  /-- The shutdown task drains the queues. -/
  | drainShutdown

/-- A run's state.  Beside the scheduler and the outside readings it keeps the history that the
properties are about: the slots that were released, the granted writes with their times (both with
the newest first), whether the shutdown has drained the queues, and the turns of the two cursors
(with the oldest first). -/
structure SchedulerWorld where
  scheduler : AdmissionScheduler := {}
  env : Environment
  released : List ℕ := []
  writes : List (ℕ × ℚ) := []
  drained : Bool := false
  classTurns : List (Turn RpcServiceClass) := []
  sourceTurns : RpcServiceClass → List (Turn TelegramRpcSource) := fun _ => []

namespace AdmissionScheduler

variable (policy : SchedulerPolicy) (env : Environment)

/-- Whether a source has a dispatchable ticket. -/
def sourceReady (s : AdmissionScheduler) (source : TelegramRpcSource) : Bool :=
  (s.queues source).any (s.canDispatch policy env)

/-- Whether a service class has a dispatchable ticket. -/
def classReady (s : AdmissionScheduler) (c : RpcServiceClass) : Bool :=
  (sourceCycle c).any (s.sourceReady policy env)

/-- The end of `_acquire_dispatch_capacity` behind `readiness.wait()`: the dispatcher goes on to
the limiter, or finishes. -/
def acquireDispatchCapacity (s : AdmissionScheduler) : AdmissionScheduler :=
  let s := (s.pruneDone).expireDue env
  if s.closed ∨ s.hasDispatchable policy env = false then
    let s := { s with dispatcher := .idle }
    if s.closed = false ∧ s.hasDispatchable policy env then s.ensureDispatcher policy env else s
  else { s with dispatcher := .waitingLimiter }

end AdmissionScheduler

namespace SchedulerWorld

/-- A new scheduler. -/
def init (env : Environment) : SchedulerWorld := { env := env }

/-- The sequences whose slots a step released. -/
def releasedBy (s : AdmissionScheduler) (sequence : ℕ) : List ℕ :=
  if (s.active.lookup sequence).isSome then [sequence] else []

/-- Record a successful selection made in the state `before`. -/
def recordTurns (policy : SchedulerPolicy) (w : SchedulerWorld) (before : AdmissionScheduler) :
    SchedulerWorld :=
  match before.selectTicket policy w.env with
  | (none, _) => w
  | (some t, after) =>
    let c := t.scope.serviceClass
    { w with
      classTurns := w.classTurns ++ [{
        before := before.fairIndex
        after := after.fairIndex
        picked := c
        ready := before.classReady policy w.env }]
      sourceTurns := Function.update w.sourceTurns c (w.sourceTurns c ++ [{
        before := before.sourceIndices c
        after := after.sourceIndices c
        picked := t.scope.source
        ready := before.sourceReady policy w.env }]) }

/-- One event. -/
def step (policy : SchedulerPolicy) (w : SchedulerWorld) : SchedulerEvent → Option SchedulerWorld
  | .advance now =>
    if w.env.now ≤ now then some { w with env := { w.env with now := now } } else none
  | .setReady ready => some { w with env := { w.env with ready := ready } }
  | .eligibilityChanged releaseAt deferral =>
    let env := { w.env with releaseAt := releaseAt, deferral := deferral }
    some { w with
      env := env
      scheduler := w.scheduler.notifyEligibilityChanged policy env }
  | .admitScope scope => some { w with scheduler := (w.scheduler.admitScope policy w.env scope).2 }
  | .callerCancelled t =>
    if t ∈ w.scheduler.accepted ∧ (w.scheduler.cells t.sequence).caller = .waiting then
      some { w with
        scheduler := (w.scheduler.resolve t .cancelled).modifyCell t.sequence fun cell =>
          { cell with caller := .cancelling } }
    else none
  | .cancelTicket t =>
    if t ∈ w.scheduler.accepted ∧ (w.scheduler.cells t.sequence).caller = .cancelling then
      some { w with
        scheduler := (w.scheduler.cancelTicket t).modifyCell t.sequence fun cell =>
          { cell with caller := .returned }
        released :=
          if (w.scheduler.cells t.sequence).state = .dispatched then
            releasedBy w.scheduler t.sequence ++ w.released
          else w.released }
    else none
  | .callerResumed t =>
    if t ∈ w.scheduler.accepted ∧ (w.scheduler.cells t.sequence).caller = .waiting ∧
        (w.scheduler.cells t.sequence).future ≠ .pending then
      some { w with
        scheduler := w.scheduler.modifyCell t.sequence fun cell =>
          { cell with caller := .returned } }
    else none
  | .expireTimer t =>
    if t ∈ w.scheduler.accepted ∧ (w.scheduler.cells t.sequence).timer = true ∧
        t.deadline ≤ w.env.now then
      some { w with scheduler := (w.scheduler.expireTicket t).cancelTimer t }
    else none
  | .expireDue => some { w with scheduler := w.scheduler.expireDue w.env }
  | .releaseReady =>
    if w.scheduler.releaseHandle.any (· ≤ w.env.now) then
      some { w with scheduler := w.scheduler.notifyEligibilityChanged policy w.env }
    else none
  | .dispatcherReady =>
    if w.scheduler.dispatcher = .waitingReady then
      some { w with scheduler := w.scheduler.acquireDispatchCapacity policy w.env }
    else none
  | .dispatcherLimited =>
    if w.scheduler.dispatcher = .waitingLimiter then
      if w.env.ready then
        let before := w.scheduler.prepareSelection w.env
        let w' := if before.closed then w else w.recordTurns policy before
        some { w' with
          scheduler := { w.scheduler.dispatchOneReadyTicket policy w.env with
            dispatcher := .waitingReady } }
      else some { w with scheduler := { w.scheduler with dispatcher := .waitingReady } }
    else none
  | .dispatcherFailed =>
    if w.scheduler.dispatcher = .idle then none
    else some { w with scheduler := { w.scheduler.startShutdown with dispatcher := .idle } }
  | .dispatcherCancelled =>
    if w.drained then
      some { w with scheduler := { w.scheduler with dispatcher := .idle } }
    else none
  | .recordDispatch admission =>
    let (granted, scheduler) := w.scheduler.recordDispatch policy w.env admission
    some { w with
      scheduler := scheduler
      writes := if granted then (admission.sequence, w.env.now) :: w.writes else w.writes }
  | .complete admission =>
    some { w with
      scheduler := w.scheduler.complete policy w.env admission
      released := releasedBy w.scheduler admission.sequence ++ w.released }
  | .startShutdown => some { w with scheduler := w.scheduler.startShutdown }
  | .drainShutdown =>
    if w.scheduler.closed ∧ w.scheduler.shutdownPending then
      some { w with scheduler := w.scheduler.drainShutdown, drained := true }
    else none

/-! ## A small instance -/

/-- A scope of an MCP tool call. -/
def sampleScope : RpcScope where
  source := .mcpInteractive
  serviceClass := .interactive
  requestMethod := some "messages.GetHistory"

/-- A clock at zero, nothing held back, and a ready transport. -/
def sampleEnvironment : Environment where
  now := 0
  releaseAt _ := some 0
  deferral _ := false
  ready := true

end SchedulerWorld

end McpTelegram
