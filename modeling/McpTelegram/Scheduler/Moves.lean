import McpTelegram.Scheduler.World

/-!
# What the scheduler can do to a ticket

Around ten methods of the scheduler move a ticket, drop it or release its slot, several of them in
loops over all queues.  `Move` lists once what any of them can do in one go, guards included, and
this file shows that every event of a run is a sequence of moves (`step_moves`).  The invariants of
the scheduler are then proved of a move.
-/

namespace McpTelegram

open Foundations Relation

/-- The cell of a ticket that leaves the queue for `state`. -/
def TicketCell.leave (cell : TicketCell) (state : TicketState) (keepTimer : Bool)
    (outcome : Option FutureState) : TicketCell :=
  let cell := { cell with
    state := state, routes := state :: cell.routes, timer := keepTimer && cell.timer }
  match outcome with
  | none => cell
  | some outcome =>
    if cell.future = .pending then
      { cell with future := outcome, resolutions := outcome :: cell.resolutions }
    else cell

/-- What happens to a cell apart from its state: a cancelled caller, a fired timer. -/
structure TicketCell.Touched (cell cell' : TicketCell) : Prop where
  state_eq : cell'.state = cell.state
  routes_eq : cell'.routes = cell.routes
  timer_eq : cell.state = .queued → cell'.timer = cell.timer
  future_eq : (cell'.future = cell.future ∧ cell'.resolutions = cell.resolutions) ∨
    (cell.future = .pending ∧ cell'.future ≠ .pending ∧
      cell'.resolutions = cell'.future :: cell.resolutions)
  caller_eq : cell.state = .queued →
    cell'.caller = .cancelling ∨ (cell'.caller = cell.caller ∧ cell'.future = cell.future)

namespace AdmissionScheduler

/-- A ticket leaves the queue for a state other than `dispatched`. -/
def leave (s : AdmissionScheduler) (t : AdmissionTicket) (state : TicketState) (keepTimer : Bool)
    (outcome : Option FutureState) : AdmissionScheduler :=
  { s with
    cells := Function.update s.cells t.sequence
      ((s.cells t.sequence).leave state keepTimer outcome)
    queues := Function.update s.queues t.scope.source ((s.queues t.scope.source).erase t) }

/-- Two states that differ in the cursors, the pacing, the timer, the dispatcher or the shutdown
only, and a shutdown is not taken back. -/
structure SameTickets (s s' : AdmissionScheduler) : Prop where
  queues_eq : s'.queues = s.queues
  cells_eq : s'.cells = s.cells
  active_eq : s'.active = s.active
  activeCounts_eq : s'.activeCounts = s.activeCounts
  activeSourceCounts_eq : s'.activeSourceCounts = s.activeSourceCounts
  sequence_eq : s'.sequence = s.sequence
  accepted_eq : s'.accepted = s.accepted
  closed_of : s.closed = true → s'.closed = true

/-- One thing that can happen to the tickets. -/
inductive Move (policy : SchedulerPolicy) (s : AdmissionScheduler) : AdmissionScheduler → Prop
  /-- A queued ticket expires, or is cancelled, deferred or closed. -/
  | leave (t : AdmissionTicket) (state : TicketState) (keepTimer : Bool)
      (outcome : Option FutureState) (houtcome : outcome ≠ some .pending)
      (haccepted : t ∈ s.accepted) (hqueued : (s.cells t.sequence).state = .queued)
      (hstate : state ≠ .queued) : Move policy s (s.leave t state keepTimer outcome)
  /-- Tickets whose future is done, or that are not queued any more, drop out of their queue. -/
  | drop (queues : TelegramRpcSource → List AdmissionTicket)
      (hsub : ∀ source, (queues source).Sublist (s.queues source))
      (hdone : ∀ source, ∀ t ∈ s.queues source, t ∉ queues source →
        (s.cells t.sequence).state ≠ .queued ∨ (s.cells t.sequence).future ≠ .pending) :
      Move policy s { s with queues := queues }
  /-- A queued ticket becomes an active attempt. -/
  | activate (env : Environment) (t : AdmissionTicket) (hopen : s.closed = false)
      (hmem : t ∈ s.queues t.scope.source) :
      Move policy s ((s.removeTicket t).activateTicket env t)
  /-- A new ticket is queued. -/
  | enqueue (t : AdmissionTicket) (hsequence : t.sequence = s.sequence + 1)
      (hclass : t.scope.serviceClass = t.scope.source.serviceClass)
      (hroom : s.outstandingDepth t.scope.serviceClass < policy.capacity t.scope.serviceClass) :
      Move policy s (s.enqueue t)
  /-- An active attempt ends. -/
  | pop (sequence : ℕ) : Move policy s (s.popActive sequence)
  /-- An active attempt is granted its write. -/
  | grant (sequence : ℕ) (attempt : ActiveAttempt)
      (hlookup : s.active.lookup sequence = some attempt) :
      Move policy s { s with
        active := s.active.insert sequence { attempt with dispatchRecorded := true } }
  /-- The shutdown forgets the active attempts. -/
  | clear : Move policy s s.clearActive
  /-- Something happens to a cell apart from its state. -/
  | touch (t : AdmissionTicket) (f : TicketCell → TicketCell)
      (hf : (s.cells t.sequence).Touched (f (s.cells t.sequence))) :
      Move policy s (s.modifyCell t.sequence f)
  /-- The tickets stay as they are. -/
  | keep (s' : AdmissionScheduler) (h : SameTickets s s') : Move policy s s'

/-- A sequence of moves. -/
abbrev Moves (policy : SchedulerPolicy) : AdmissionScheduler → AdmissionScheduler → Prop :=
  ReflTransGen (Move policy)

variable {policy : SchedulerPolicy} {env : Environment}

theorem Moves.of_same {s s' : AdmissionScheduler} (h : SameTickets s s') : Moves policy s s' :=
  .single (.keep s' h)

/-- Moves along a loop over tickets. -/
theorem moves_foldl {f : AdmissionScheduler → AdmissionTicket → AdmissionScheduler}
    (hf : ∀ s t, t ∈ s.accepted → Moves policy s (f s t))
    (haccepted : ∀ s t, (f s t).accepted = s.accepted) (ts : List AdmissionTicket)
    (s : AdmissionScheduler) (hts : ∀ t ∈ ts, t ∈ s.accepted) : Moves policy s (ts.foldl f s) := by
  induction ts generalizing s with
  | nil => exact .refl
  | cons t ts ih =>
    refine (hf s t (hts t List.mem_cons_self)).trans (ih (f s t) fun u hu => ?_)
    rw [haccepted]
    exact hts u (List.mem_cons_of_mem _ hu)

/-! ## The methods as single updates -/

/-- `_expire_ticket` in one update. -/
theorem expireTicket_eq (s : AdmissionScheduler) (t : AdmissionTicket)
    (h : (s.cells t.sequence).state = .queued) :
    s.expireTicket t = s.leave t .expired true (some .exception) := by
  rw [expireTicket, if_neg (not_not.mpr h), leave, TicketCell.leave]
  simp [assignState, modifyCell, removeTicket, resolve]

/-- `_defer_held_tickets` on a queued ticket that is deferred. -/
theorem deferTicket_eq (s : AdmissionScheduler) (t : AdmissionTicket)
    (hdeferral : env.deferral t.scope = true) (h : (s.cells t.sequence).state = .queued) :
    s.deferTicket env t = s.leave t .deferred false (some .exception) := by
  rw [deferTicket, if_neg (by simp [hdeferral, h]), leave, TicketCell.leave]
  simp [assignState, modifyCell, removeTicket, resolve, cancelTimer]

/-- `_close_queued_tickets_locked` on a queued ticket. -/
theorem closeTicket_eq (s : AdmissionScheduler) (t : AdmissionTicket)
    (h : (s.cells t.sequence).state = .queued) :
    s.closeTicket t = s.leave t .closed false (some .exception) := by
  have hsame : ((s.removeTicket t).cells t.sequence).state = .queued := h
  simp only [closeTicket, hsame, ne_eq, not_true, if_false, leave, TicketCell.leave]
  simp [assignState, modifyCell, removeTicket, resolve, cancelTimer]

/-- `_cancel_ticket` on a queued ticket. -/
theorem cancelTicket_eq (s : AdmissionScheduler) (t : AdmissionTicket)
    (h : (s.cells t.sequence).state = .queued) :
    s.cancelTicket t = s.leave t .cancelled false none := by
  rw [cancelTicket, if_pos h, leave, TicketCell.leave]
  simp [assignState, modifyCell, removeTicket, cancelTimer]

end AdmissionScheduler

end McpTelegram
