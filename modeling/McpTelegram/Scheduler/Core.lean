import Mathlib.Data.List.AList
import McpTelegram.Foundations.RoundRobin
import McpTelegram.Scheduler.Consumers

/-!
# The RPC admission scheduler

`telegram_rpc_scheduler.py`: bounded weighted-fair admission in front of the account limiter.  The
state is `AdmissionScheduler`, and every method that changes it is a function on it.  A method of
the source never awaits while it holds the scheduler's lock, so the lock is never contended and a
method body is one step; within one step the clock is read at one instant, `Environment.now`.

Times are rational numbers of seconds and `none` is the infinite release time.  Log messages,
observers and pressure episodes are left out: nothing else reads them.  So is
`owns_capacity_slot`, which `admit` sets to `True` for every ticket.
-/

namespace McpTelegram

open Foundations

/-! ## Scopes, tickets and attempts -/

/-- `TelegramRpcScope`, as far as admission reads it. -/
structure RpcScope where
  source : TelegramRpcSource
  serviceClass : RpcServiceClass
  deadline : Option ℚ := none
  demandKind : Option DemandKind := none
  sourceOutstandingLimit : Option ℕ := none
  requestMethod : Option String := none
  deriving DecidableEq

/-- The demand kind of a scope, by the legacy table when it names none. -/
def RpcScope.kind (scope : RpcScope) : DemandKind :=
  scope.demandKind.getD scope.source.legacyDemandKind

/-- `RpcAdmission`. -/
structure RpcAdmission where
  source : TelegramRpcSource
  serviceClass : RpcServiceClass
  waitSeconds : ℚ
  sequence : ℕ
  demandKind : Option DemandKind
  requestMethod : Option String
  deriving DecidableEq

/-- `_TicketState`. -/
inductive TicketState
  | queued
  | dispatched
  | expired
  | cancelled
  | closed
  | deferred
  deriving DecidableEq

/-- The future of a ticket. -/
inductive FutureState
  | pending
  | result (admission : RpcAdmission)
  | exception
  | cancelled
  deriving DecidableEq

/-- The task that called `admit`: it awaits the future, or a cancellation was delivered to it and
`_cancel_ticket` is about to run, or it has left `admit`. -/
inductive CallerPhase
  | waiting
  | cancelling
  | returned
  deriving DecidableEq

/-- `_AdmissionTicket`: the fields that never change. -/
structure AdmissionTicket where
  sequence : ℕ
  scope : RpcScope
  enqueuedAt : ℚ
  deadline : ℚ
  deriving DecidableEq

/-- The fields of a ticket that change, with the history of two of them: every value its state was
assigned, and every outcome its future was given. -/
structure TicketCell where
  state : TicketState := .queued
  future : FutureState := .pending
  timer : Bool := false
  caller : CallerPhase := .waiting
  routes : List TicketState := []
  resolutions : List FutureState := []
  deriving DecidableEq

/-- `_ActiveAttempt`. -/
structure ActiveAttempt where
  scope : RpcScope
  dispatchRecorded : Bool := false
  deriving DecidableEq

/-- The dispatcher task: none or finished, before `readiness.wait()`, or in `limiter.acquire()`. -/
inductive Dispatcher
  | idle
  | waitingReady
  | waitingLimiter
  deriving DecidableEq

/-- The settings of the scheduler: `TelegramRpcSchedulerPolicy` and `minimum_spacing_seconds`. -/
structure SchedulerPolicy where
  weight : RpcServiceClass → ℕ
  capacity : RpcServiceClass → ℤ
  deadlineSeconds : RpcServiceClass → ℚ
  minimumSpacingSeconds : ℚ
  weight_pos : ∀ c, 0 < weight c
  capacity_pos : ∀ c, 0 < capacity c
  spacing_pos : 0 < minimumSpacingSeconds

/-- What a step reads from outside: the clock, `release_at`, `deferral` and `readiness.probe`. -/
structure Environment where
  now : ℚ
  releaseAt : RpcScope → Option ℚ
  deferral : RpcScope → Bool
  ready : Bool

/-- `TelegramRpcAdmissionScheduler`.  `accepted` lists every ticket ever queued. -/
structure AdmissionScheduler where
  queues : TelegramRpcSource → List AdmissionTicket := fun _ => []
  cells : ℕ → TicketCell := fun _ => {}
  sourceIndices : RpcServiceClass → ℕ := fun _ => 0
  activeCounts : RpcServiceClass → ℤ := fun _ => 0
  activeSourceCounts : TelegramRpcSource → ℤ := fun _ => 0
  active : AList fun _ : ℕ => ActiveAttempt := ∅
  fairIndex : ℕ := 0
  sequence : ℕ := 0
  nextWriteAt : ℚ := 0
  releaseHandle : Option ℚ := none
  dispatcher : Dispatcher := .idle
  closed : Bool := false
  shutdownPending : Bool := false
  accepted : List AdmissionTicket := []

/-! ## The fair cycle -/

/-- `_source_cycles`. -/
def sourceCycle (c : RpcServiceClass) : List TelegramRpcSource :=
  TelegramRpcSource.all.filter (·.serviceClass = c)

/-- `preference` in `_build_fair_cycle`. -/
def classPreference : RpcServiceClass → ℤ
  | .interactive => 0
  | .liveSync => -1
  | .background => -2

/-- `max(RpcServiceClass, key=...)` in `_build_fair_cycle`: the first class with the greatest score
and preference. -/
def selectClass (scores : RpcServiceClass → ℤ) : RpcServiceClass :=
  let better (a b : RpcServiceClass) : RpcServiceClass :=
    if scores a < scores b ∨ (scores a = scores b ∧ classPreference a < classPreference b) then b
    else a
  better (better .interactive .liveSync) .background

namespace SchedulerPolicy

/-- The `math.gcd` of the weights. -/
def divisor (policy : SchedulerPolicy) : ℕ :=
  Nat.gcd (Nat.gcd (policy.weight .interactive) (policy.weight .liveSync))
    (policy.weight .background)

/-- `normalized` in `_build_fair_cycle`. -/
def normalized (policy : SchedulerPolicy) (c : RpcServiceClass) : ℕ :=
  policy.weight c / policy.divisor

/-- `total` in `_build_fair_cycle`. -/
def total (policy : SchedulerPolicy) : ℕ :=
  policy.normalized .interactive + policy.normalized .liveSync + policy.normalized .background

/-- `_build_fair_cycle`: smooth weighted round robin over the service classes. -/
def fairCycle (policy : SchedulerPolicy) : List RpcServiceClass :=
  smoothCycle (fun c => (policy.normalized c : ℤ)) policy.total selectClass policy.total 0

/-- The defaults of `TelegramRpcSchedulerConfig`, with the spacing of the default call budget. -/
def default : SchedulerPolicy where
  weight
    | .interactive => 6
    | .liveSync => 3
    | .background => 1
  capacity
    | .interactive => 64
    | .liveSync => 256
    | .background => 512
  deadlineSeconds
    | .interactive => 15
    | .liveSync => 60
    | .background => 900
  minimumSpacingSeconds := 60 / 30
  weight_pos c := by cases c <;> decide
  capacity_pos c := by cases c <;> decide
  spacing_pos := by norm_num

end SchedulerPolicy

/-! ## Scope contracts -/

/-- The exceptions of `admit`, with their messages. -/
inductive AdmissionError
  | value (message : String)
  | expired (message : String)
  | closed (message : String)
  | saturated (message : String)
  deriving DecidableEq

/-- `_validate_scope_contract`: the message of the error it raises, if any. -/
def validateScopeContract (scope : RpcScope) : Option String :=
  if scope.requestMethod = none ∨ scope.requestMethod = some "" then
    some "physical RPC admission requires a canonical request_method"
  else if scope.source ≠ scope.kind.source ∨ scope.serviceClass ≠ scope.kind.serviceClass then
    some "Telegram RPC scope conflicts with its code-owned demand contract"
  else if scope.sourceOutstandingLimit.any (· ≠ scope.kind.sourceOutstandingLimit) then
    some "Telegram RPC scope cannot override its source outstanding limit"
  else none

/-- The deadline that `admit` gives a ticket. -/
def admissionDeadline (policy : SchedulerPolicy) (now : ℚ) (scope : RpcScope) : ℚ :=
  let configured := now + policy.deadlineSeconds scope.serviceClass
  let deadline :=
    match scope.deadline with
    | none => configured
    | some d => if d = 0 then configured else d
  if scope.demandKind = some .folderCommand ∨ scope.demandKind = some .noteCommand then
    min (min deadline (now + 15)) configured
  else deadline

namespace AdmissionScheduler

/-! ## Depths and eligibility -/

/-- All queued tickets, in the order of the queues. -/
def allQueued (s : AdmissionScheduler) : List AdmissionTicket :=
  TelegramRpcSource.all.flatMap s.queues

/-- The number of queued tickets of a class. -/
def queuedDepth (s : AdmissionScheduler) (c : RpcServiceClass) : ℤ :=
  ((sourceCycle c).map fun source => ((s.queues source).length : ℤ)).sum

/-- `_outstanding_depth`. -/
def outstandingDepth (s : AdmissionScheduler) (c : RpcServiceClass) : ℤ :=
  s.queuedDepth c + s.activeCounts c

/-- `_source_outstanding_depth`. -/
def sourceOutstandingDepth (s : AdmissionScheduler) (source : TelegramRpcSource) : ℤ :=
  (s.queues source).length + s.activeSourceCounts source

/-- `max(_next_write_at, release_at(ticket.scope))`. -/
def eligibleAt (env : Environment) (s : AdmissionScheduler) (t : AdmissionTicket) : Option ℚ :=
  (env.releaseAt t.scope).map (max s.nextWriteAt)

/-- `_ticket_can_dispatch_locked`. -/
def canDispatch (policy : SchedulerPolicy) (env : Environment) (s : AdmissionScheduler)
    (t : AdmissionTicket) : Bool :=
  s.activeCounts t.scope.serviceClass < policy.capacity t.scope.serviceClass &&
    (s.eligibleAt env t).any (· ≤ env.now)

/-- `_has_dispatchable_ticket_locked`. -/
def hasDispatchable (policy : SchedulerPolicy) (env : Environment) (s : AdmissionScheduler) :
    Bool :=
  s.allQueued.any (s.canDispatch policy env)

/-! ## Leaving the queue -/

/-- Change the cell of a ticket. -/
def modifyCell (s : AdmissionScheduler) (sequence : ℕ) (f : TicketCell → TicketCell) :
    AdmissionScheduler :=
  { s with cells := Function.update s.cells sequence (f (s.cells sequence)) }

/-- Assign `ticket.state`. -/
def assignState (s : AdmissionScheduler) (t : AdmissionTicket) (state : TicketState) :
    AdmissionScheduler :=
  s.modifyCell t.sequence fun cell =>
    { cell with state := state, routes := state :: cell.routes }

/-- `_cancel_timer`. -/
def cancelTimer (s : AdmissionScheduler) (t : AdmissionTicket) : AdmissionScheduler :=
  s.modifyCell t.sequence fun cell => { cell with timer := false }

/-- Give the future an outcome, unless it is done. -/
def resolve (s : AdmissionScheduler) (t : AdmissionTicket) (outcome : FutureState) :
    AdmissionScheduler :=
  s.modifyCell t.sequence fun cell =>
    if cell.future = .pending then
      { cell with future := outcome, resolutions := outcome :: cell.resolutions }
    else cell

/-- `_remove_ticket_locked`. -/
def removeTicket (s : AdmissionScheduler) (t : AdmissionTicket) : AdmissionScheduler :=
  { s with
    queues := Function.update s.queues t.scope.source ((s.queues t.scope.source).erase t) }

/-- `_expire_ticket`. -/
def expireTicket (s : AdmissionScheduler) (t : AdmissionTicket) : AdmissionScheduler :=
  if (s.cells t.sequence).state ≠ .queued then s
  else ((s.assignState t .expired).removeTicket t).resolve t .exception

/-- `_expire_due_tickets`. -/
def expireDue (env : Environment) (s : AdmissionScheduler) : AdmissionScheduler :=
  let due := s.allQueued.filter fun t =>
    (s.cells t.sequence).state = .queued ∧ t.deadline ≤ env.now
  due.foldl expireTicket s

/-- One ticket of `_defer_held_tickets`. -/
def deferTicket (env : Environment) (s : AdmissionScheduler) (t : AdmissionTicket) :
    AdmissionScheduler :=
  if env.deferral t.scope = false ∨ (s.cells t.sequence).state ≠ .queued then s
  else (((s.assignState t .deferred).cancelTimer t).removeTicket t).resolve t .exception

/-- `_defer_held_tickets`. -/
def deferHeldTickets (env : Environment) (s : AdmissionScheduler) : AdmissionScheduler :=
  s.allQueued.foldl (deferTicket env) s

/-- One ticket of `_close_queued_tickets_locked`. -/
def closeTicket (s : AdmissionScheduler) (t : AdmissionTicket) : AdmissionScheduler :=
  let s := s.removeTicket t
  if (s.cells t.sequence).state ≠ .queued then s
  else ((s.assignState t .closed).cancelTimer t).resolve t .exception

/-- `_close_queued_tickets_locked`. -/
def closeQueuedTickets (s : AdmissionScheduler) : AdmissionScheduler :=
  s.allQueued.foldl closeTicket s

/-- `_prune_done_locked`. -/
def pruneDone (s : AdmissionScheduler) : AdmissionScheduler :=
  { s with
    queues := fun source => (s.queues source).filter fun t =>
      (s.cells t.sequence).state = .queued ∧ (s.cells t.sequence).future = .pending }

/-! ## Active attempts -/

/-- `_release_active_capacity`. -/
def releaseActiveCapacity (s : AdmissionScheduler) (attempt : ActiveAttempt) :
    AdmissionScheduler :=
  { s with
    activeCounts := Function.update s.activeCounts attempt.scope.serviceClass
      (s.activeCounts attempt.scope.serviceClass - 1)
    activeSourceCounts := Function.update s.activeSourceCounts attempt.scope.source
      (s.activeSourceCounts attempt.scope.source - 1) }

/-- Pop an attempt and release its slot, if it is active. -/
def popActive (s : AdmissionScheduler) (sequence : ℕ) : AdmissionScheduler :=
  match s.active.lookup sequence with
  | none => s
  | some attempt =>
    { s with active := s.active.erase sequence }.releaseActiveCapacity attempt

/-- `_cancel_ticket`. -/
def cancelTicket (s : AdmissionScheduler) (t : AdmissionTicket) : AdmissionScheduler :=
  if (s.cells t.sequence).state = .queued then
    ((s.assignState t .cancelled).cancelTimer t).removeTicket t
  else if (s.cells t.sequence).state = .dispatched then s.popActive t.sequence
  else s

/-- `_activate_ticket_locked`. -/
def activateTicket (env : Environment) (s : AdmissionScheduler) (t : AdmissionTicket) :
    AdmissionScheduler :=
  let s := (s.assignState t .dispatched).cancelTimer t
  let s := { s with
    active := s.active.insert t.sequence { scope := t.scope }
    activeCounts := Function.update s.activeCounts t.scope.serviceClass
      (s.activeCounts t.scope.serviceClass + 1)
    activeSourceCounts := Function.update s.activeSourceCounts t.scope.source
      (s.activeSourceCounts t.scope.source + 1) }
  s.resolve t (.result {
    source := t.scope.source
    serviceClass := t.scope.serviceClass
    waitSeconds := max 0 (env.now - t.enqueuedAt)
    sequence := t.sequence
    demandKind := t.scope.demandKind
    requestMethod := t.scope.requestMethod })

/-- `_clear_active_locked`. -/
def clearActive (s : AdmissionScheduler) : AdmissionScheduler :=
  { s with active := ∅, activeCounts := fun _ => 0, activeSourceCounts := fun _ => 0 }

/-! ## The release timer and the dispatcher -/

/-- `_schedule_release_locked`.  The event loop is bound before the first ticket is queued, and
without a ticket there is nothing to schedule. -/
def scheduleRelease (env : Environment) (s : AdmissionScheduler) : AdmissionScheduler :=
  if s.closed then s
  else
    let releases := (s.allQueued.filter fun t => (s.cells t.sequence).state = .queued).filterMap
      (s.eligibleAt env)
    match (releases.filter (env.now < ·)).min? with
    | none => s
    | some release =>
      if s.releaseHandle.all (release < ·) then { s with releaseHandle := some release } else s

/-- `_ensure_dispatcher_locked`. -/
def ensureDispatcher (policy : SchedulerPolicy) (env : Environment) (s : AdmissionScheduler) :
    AdmissionScheduler :=
  if s.closed then s
  else
    let s := s.deferHeldTickets env
    if s.hasDispatchable policy env ∧ s.dispatcher = .idle then
      { s with dispatcher := .waitingReady }
    else s.scheduleRelease env

/-- `notify_eligibility_changed`, and `_release_ready`: the handle is gone in both. -/
def notifyEligibilityChanged (policy : SchedulerPolicy) (env : Environment)
    (s : AdmissionScheduler) : AdmissionScheduler :=
  { s with releaseHandle := none }.ensureDispatcher policy env

/-! ## Admission -/

/-- Append a new ticket to its queue, with its expiry timer armed. -/
def enqueue (s : AdmissionScheduler) (t : AdmissionTicket) : AdmissionScheduler :=
  { s with
    sequence := t.sequence
    queues := Function.update s.queues t.scope.source (s.queues t.scope.source ++ [t])
    cells := Function.update s.cells t.sequence { timer := true }
    accepted := t :: s.accepted }

/-- `admit`, up to the point where it awaits the future. -/
def admitScope (policy : SchedulerPolicy) (env : Environment) (s : AdmissionScheduler)
    (scope : RpcScope) : Except AdmissionError AdmissionTicket × AdmissionScheduler :=
  match validateScopeContract scope with
  | some message => (.error (.value message), s)
  | none =>
    let deadline := admissionDeadline policy env.now scope
    if deadline ≤ env.now then
      (.error (.expired "Telegram RPC admission deadline elapsed"), s)
    else if s.closed then
      (.error (.closed "Telegram RPC admission scheduler is closed"), s)
    else
      let s := s.pruneDone
      if s.sourceOutstandingDepth scope.source ≥ scope.kind.sourceOutstandingLimit then
        (.error (.saturated
          (scope.source.value ++ " Telegram RPC source outstanding capacity is full")), s)
      else if s.outstandingDepth scope.serviceClass ≥ policy.capacity scope.serviceClass then
        (.error (.saturated
          (scope.serviceClass.value ++ " Telegram RPC outstanding capacity is full")), s)
      else
        let t : AdmissionTicket := ⟨s.sequence + 1, scope, env.now, deadline⟩
        (.ok t, (s.enqueue t).ensureDispatcher policy env)

/-- `complete`. -/
def complete (policy : SchedulerPolicy) (env : Environment) (s : AdmissionScheduler)
    (admission : RpcAdmission) : AdmissionScheduler :=
  match s.active.lookup admission.sequence with
  | none => s
  | some _ =>
    let s := s.popActive admission.sequence
    if s.closed = false ∧ s.hasDispatchable policy env then s.ensureDispatcher policy env else s

/-- `record_dispatch`: whether the write is granted. -/
def recordDispatch (policy : SchedulerPolicy) (env : Environment) (s : AdmissionScheduler)
    (admission : RpcAdmission) : Bool × AdmissionScheduler :=
  match s.active.lookup admission.sequence with
  | none => (false, s)
  | some attempt =>
    if attempt.dispatchRecorded then (false, s)
    else if s.closed ∨ env.ready = false ∨ env.now < s.nextWriteAt ∨
        (env.releaseAt attempt.scope).all (env.now < ·) then (false, s)
    else if attempt.scope.requestMethod ≠ admission.requestMethod then (false, s)
    else
      let s := { s with
        active := s.active.insert admission.sequence { attempt with dispatchRecorded := true }
        nextWriteAt := env.now + policy.minimumSpacingSeconds }
      (true, s.scheduleRelease env)

/-! ## Selection -/

/-- The loop of `_select_source_ticket_locked`, with the number of sources still to look at. -/
def selectSourceLoop (policy : SchedulerPolicy) (env : Environment) (c : RpcServiceClass) :
    ℕ → AdmissionScheduler → Option AdmissionTicket × AdmissionScheduler
  | 0, s => (none, s)
  | n + 1, s =>
    let index := s.sourceIndices c
    match (sourceCycle c)[index]? with
    | none => (none, s)
    | some source =>
      let queue := (s.queues source).dropWhile fun t => (s.cells t.sequence).state ≠ .queued
      let s := { s with
        sourceIndices := Function.update s.sourceIndices c ((index + 1) % (sourceCycle c).length)
        queues := Function.update s.queues source queue }
      match queue.find? (s.canDispatch policy env) with
      | some t =>
        (some t, { s with queues := Function.update s.queues source (queue.erase t) })
      | none => selectSourceLoop policy env c n s

/-- `_select_source_ticket_locked`. -/
def selectSourceTicket (policy : SchedulerPolicy) (env : Environment) (c : RpcServiceClass)
    (s : AdmissionScheduler) : Option AdmissionTicket × AdmissionScheduler :=
  selectSourceLoop policy env c (sourceCycle c).length s

/-- The loop of `_select_ticket_locked`, with the number of positions still to look at. -/
def selectTicketLoop (policy : SchedulerPolicy) (env : Environment) :
    ℕ → AdmissionScheduler → Option AdmissionTicket × AdmissionScheduler
  | 0, s => (none, s)
  | n + 1, s =>
    match policy.fairCycle[s.fairIndex]? with
    | none => (none, s)
    | some c =>
      let s := { s with fairIndex := (s.fairIndex + 1) % policy.fairCycle.length }
      match selectSourceTicket policy env c s with
      | (some t, s) => (some t, s)
      | (none, s) => selectTicketLoop policy env n s

/-- `_select_ticket_locked`. -/
def selectTicket (policy : SchedulerPolicy) (env : Environment) (s : AdmissionScheduler) :
    Option AdmissionTicket × AdmissionScheduler :=
  selectTicketLoop policy env policy.fairCycle.length s

/-- What `_dispatch_one_ready_ticket` does before it selects. -/
def prepareSelection (env : Environment) (s : AdmissionScheduler) : AdmissionScheduler :=
  ((s.deferHeldTickets env).pruneDone).expireDue env

/-- `_dispatch_one_ready_ticket`, called with the transport ready. -/
def dispatchOneReadyTicket (policy : SchedulerPolicy) (env : Environment)
    (s : AdmissionScheduler) : AdmissionScheduler :=
  let s := s.prepareSelection env
  if s.closed ∨ env.ready = false then s
  else
    match s.selectTicket policy env with
    | (none, s) => s
    | (some t, s) => s.activateTicket env t

/-! ## Shutdown -/

/-- `_start_shutdown`. -/
def startShutdown (s : AdmissionScheduler) : AdmissionScheduler :=
  if s.closed then s
  else { s with closed := true, shutdownPending := true, releaseHandle := none }

/-- `_drain_shutdown`, up to the point where it awaits the cancelled tasks. -/
def drainShutdown (s : AdmissionScheduler) : AdmissionScheduler :=
  { s.closeQueuedTickets.clearActive with shutdownPending := false }

end AdmissionScheduler

end McpTelegram
