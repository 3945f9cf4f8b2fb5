import McpTelegram.Scheduler.Slots

/-!
# Wakeups

A queued ticket waits for the dispatcher or for the release timer.  The invariant `Awake` says that
each ticket in a queue is covered by one of them.  Every event keeps it but one: when the release
timer fires, or a change of eligibility is reported, the timer is gone, and if the dispatcher is
started then `_ensure_dispatcher_locked` does not arm it again for the tickets that have to wait
longer (`lost_wakeup`).  In the runs without such an event no wakeup is lost (`no_lost_wakeup`).
-/

namespace McpTelegram

open Foundations Relation

namespace AdmissionScheduler

variable {policy : SchedulerPolicy} {env : Environment} {s s' : AdmissionScheduler}
variable {t : AdmissionTicket}

/-! ## Queued tickets along moves -/

/-- No accepted ticket is forgotten. -/
theorem Move.accepted_subset (hmove : Move policy s s') : s.accepted ⊆ s'.accepted := by
  cases hmove with
  | enqueue t => exact List.subset_cons_self t s.accepted
  | pop n =>
    have haccepted : (s.popActive n).accepted = s.accepted :=
      congrArg Control.accepted (control_popActive s n)
    rw [haccepted]
    exact List.Subset.refl _
  | keep s' hsame =>
    rw [hsame.accepted_eq]
    exact List.Subset.refl _
  | _ => exact List.Subset.refl _

/-- A move puts no ticket into a queue that was accepted before. -/
theorem Move.mem_allQueued (hmove : Move policy s s') (h : s.Valid policy) (ht : t ∈ s'.allQueued)
    (haccepted : t ∈ s.accepted) : t ∈ s.allQueued := by
  obtain ⟨source, hmem⟩ := AdmissionScheduler.mem_allQueued.mp ht
  refine AdmissionScheduler.mem_allQueued.mpr ⟨source, ?_⟩
  cases hmove with
  | leave => exact (h.mem_removeTicket.mp hmem).1
  | drop queues hsub => exact (hsub source).subset hmem
  | activate => exact (h.mem_removeTicket.mp hmem).1
  | enqueue u hsequence =>
    by_cases hsource : source = u.scope.source
    · subst hsource
      have hmem : t ∈ s.queues u.scope.source ++ [u] := by
        simpa [AdmissionScheduler.enqueue] using hmem
      rcases List.mem_append.mp hmem with hmem | hmem
      · exact hmem
      · -- the new ticket was not accepted before
        obtain rfl := List.mem_singleton.mp hmem
        have hle := (h.sequence_le haccepted).2
        omega
    · simpa [AdmissionScheduler.enqueue, Function.update_of_ne hsource] using hmem
  | pop n =>
    unfold popActive at hmem
    split at hmem
    · exact hmem
    · exact hmem
  | keep s' hsame => exact hsame.queues_eq ▸ hmem
  | _ => exact hmem

/-- Moves put no ticket into a queue that was accepted before. -/
theorem Moves.mem_allQueued (hmoves : Moves policy s s') (h : s.Valid policy)
    (ht : t ∈ s'.allQueued) (haccepted : t ∈ s.accepted) : t ∈ s.allQueued := by
  have hboth : s.accepted ⊆ s'.accepted ∧ (t ∈ s'.allQueued → t ∈ s.allQueued) := by
    clear ht
    induction hmoves with
    | refl => exact ⟨List.Subset.refl _, id⟩
    | tail hbefore hmove ih =>
      refine ⟨List.Subset.trans ih.1 hmove.accepted_subset, fun ht => ih.2 ?_⟩
      exact hmove.mem_allQueued (Moves.valid hbefore h) ht (ih.1 haccepted)
  exact hboth.2 ht

/-! ## The capacity test -/

/-- A queued ticket passes the capacity test: it occupies a place itself. -/
theorem Valid.capacity_lt (h : s.Valid policy) (ht : t ∈ s.allQueued) :
    s.activeCounts t.scope.serviceClass < policy.capacity t.scope.serviceClass := by
  obtain ⟨source, hmem⟩ := mem_allQueued.mp ht
  obtain ⟨-, hclass⟩ := h.scopes source t hmem
  have hone : (1 : ℤ) ≤ (s.queues source).length := by
    exact_mod_cast List.length_pos_of_mem hmem
  have hle : ((s.queues source).length : ℤ) ≤ s.queuedDepth t.scope.serviceClass := by
    refine List.single_le_sum (fun depth hdepth => ?_) _
      (List.mem_map_of_mem (mem_sourceCycle.mpr hclass.symm))
    obtain ⟨other, -, rfl⟩ := List.mem_map.mp hdepth
    exact Int.natCast_nonneg _
  have hcapacity := h.capacity t.scope.serviceClass
  rw [outstandingDepth] at hcapacity
  omega

/-- So a queued ticket is dispatchable as soon as it is eligible. -/
theorem Valid.hasDispatchable (h : s.Valid policy) (ht : t ∈ s.allQueued) {e : ℚ}
    (heligible : s.eligibleAt env t = some e) (he : e ≤ env.now) :
    s.hasDispatchable policy env = true := by
  refine List.any_eq_true.mpr ⟨t, ht, ?_⟩
  simp [canDispatch, h.capacity_lt ht, heligible, he]

/-! ## Covered tickets -/

/-- If the ticket will become eligible, then the release timer is armed for no later, or the
dispatcher is alive and the ticket is eligible already. -/
def Covered (env : Environment) (s : AdmissionScheduler) (t : AdmissionTicket) : Prop :=
  ∀ e, s.eligibleAt env t = some e →
    (∃ release, s.releaseHandle = some release ∧ release ≤ e) ∨
      (s.dispatcher ≠ .idle ∧ e ≤ env.now)

/-- Unless the scheduler is closed, every ticket in a queue is covered. -/
def Awake (env : Environment) (s : AdmissionScheduler) : Prop :=
  s.closed = false → ∀ t ∈ s.allQueued, s.Covered env t

theorem eligibleAt_congr (h : s'.nextWriteAt = s.nextWriteAt) (t : AdmissionTicket) :
    s'.eligibleAt env t = s.eligibleAt env t := by
  rw [eligibleAt, eligibleAt, h]

/-- Moves that leave the timer, the pacing and the accepted tickets alone, and do not end the
dispatcher, keep every ticket covered. -/
theorem Awake.of_moves (hawake : s.Awake env) (h : s.Valid policy) (hmoves : Moves policy s s')
    (haccepted : s'.accepted = s.accepted) (hnext : s'.nextWriteAt = s.nextWriteAt)
    (hhandle : s'.releaseHandle = s.releaseHandle) (hclosed : s'.closed = s.closed)
    (hdispatcher : s.dispatcher ≠ .idle → s'.dispatcher ≠ .idle) : s'.Awake env := by
  intro hopen t ht e he
  have hmem : t ∈ s.accepted := haccepted ▸ (hmoves.valid h).allQueued_accepted ht
  rw [eligibleAt_congr hnext] at he
  rw [hclosed] at hopen
  have hqueue := Moves.mem_allQueued hmoves h ht hmem
  rcases hawake hopen t hqueue e he with ⟨release, hrelease, hle⟩ | ⟨halive, hle⟩
  · exact Or.inl ⟨release, hhandle.trans hrelease, hle⟩
  · exact Or.inr ⟨hdispatcher halive, hle⟩

/-- Moves of the tickets only keep every ticket covered. -/
theorem Awake.of_control (hawake : s.Awake env) (h : s.Valid policy)
    (hmoves : Moves policy s s') (hcontrol : s'.control = s.control) : s'.Awake env :=
  hawake.of_moves h hmoves (congrArg Control.accepted hcontrol)
    (congrArg Control.nextWriteAt hcontrol) (congrArg Control.releaseHandle hcontrol)
    (congrArg Control.closed hcontrol)
    fun halive => (congrArg Control.dispatcher hcontrol).trans_ne halive

/-- A closed scheduler wakes nobody. -/
theorem awake_of_closed (hclosed : s.closed = true) : s.Awake env := fun hopen => by
  rw [hclosed] at hopen
  cases hopen

/-- `_schedule_release_locked` covers every ticket that has to wait. -/
theorem scheduleRelease_spec (env : Environment) (hopen : s.closed = false)
    (hqueued : s.AllQueued) :
    ∃ handle, s.scheduleRelease env = { s with releaseHandle := handle } ∧
      ∀ t ∈ s.allQueued, ∀ e, s.eligibleAt env t = some e → env.now < e →
        ∃ release, handle = some release ∧ release ≤ e := by
  have hreleases : ∀ t ∈ s.allQueued, ∀ e, s.eligibleAt env t = some e → env.now < e →
      e ∈ ((s.allQueued.filter fun t => (s.cells t.sequence).state = .queued).filterMap
        (s.eligibleAt env)).filter (env.now < ·) := by
    intro t ht e he hlater
    obtain ⟨source, hmem⟩ := mem_allQueued.mp ht
    refine List.mem_filter.mpr ⟨List.mem_filterMap.mpr ⟨t, ?_, he⟩, by simpa using hlater⟩
    exact List.mem_filter.mpr ⟨ht, by simpa using hqueued source t hmem⟩
  unfold scheduleRelease
  rw [if_neg (by rw [hopen]; exact Bool.false_ne_true)]
  dsimp only
  split
  · rename_i hnone
    rw [List.min?_eq_none_iff] at hnone
    rw [hnone] at hreleases
    exact ⟨s.releaseHandle, rfl, fun t ht e he hlater => absurd (hreleases t ht e he hlater)
      List.not_mem_nil⟩
  · rename_i earliest hsome
    obtain ⟨-, hleast⟩ := List.min?_eq_some_iff.mp hsome
    split_ifs with hreplace
    · exact ⟨some earliest, rfl, fun t ht e he hlater =>
        ⟨earliest, rfl, hleast e (hreleases t ht e he hlater)⟩⟩
    · -- the timer that is armed already is not later than the earliest release
      obtain ⟨release, hhandle, hle⟩ : ∃ release, s.releaseHandle = some release ∧
          release ≤ earliest := by
        cases hhandle : s.releaseHandle with
        | none => simp [hhandle] at hreplace
        | some release => exact ⟨release, rfl, by simpa [hhandle] using hreplace⟩
      exact ⟨s.releaseHandle, rfl, fun t ht e he hlater =>
        ⟨release, hhandle, hle.trans (hleast e (hreleases t ht e he hlater))⟩⟩

/-- When `_ensure_dispatcher_locked` starts the dispatcher, every ticket that has to wait longer is
covered by the timer. -/
def StartsCovered (policy : SchedulerPolicy) (env : Environment) (s : AdmissionScheduler) : Prop :=
  let s := s.deferHeldTickets env
  s.closed = false → s.hasDispatchable policy env = true → s.dispatcher = .idle →
    ∀ t ∈ s.allQueued, ∀ e, s.eligibleAt env t = some e →
      (∃ release, s.releaseHandle = some release ∧ release ≤ e) ∨ e ≤ env.now

/-- Then `_ensure_dispatcher_locked` covers every ticket. -/
theorem ensureDispatcher_awake (h : s.Valid policy) (hstarts : s.StartsCovered policy env) :
    (s.ensureDispatcher policy env).Awake env := by
  by_cases hclosed : s.closed = true
  · rw [ensureDispatcher, if_pos hclosed]
    exact awake_of_closed hclosed
  · have hvalid := (deferHeldTickets_moves env h).valid h
    have hcontrol := control_deferHeldTickets env s
    have hopen : (s.deferHeldTickets env).closed = false := by
      rw [show (s.deferHeldTickets env).closed = s.closed from congrArg Control.closed hcontrol]
      simpa using hclosed
    rw [ensureDispatcher, if_neg hclosed]
    dsimp only
    split_ifs with hstart
    · intro _ t ht e he
      rcases hstarts hopen hstart.1 hstart.2 t ht e he with hcovered | hle
      · exact Or.inl hcovered
      · exact Or.inr ⟨by simp, hle⟩
    · obtain ⟨handle, heq, hcovered⟩ := scheduleRelease_spec env hopen hvalid.queued
      rw [heq]
      intro _ t ht e he
      by_cases hle : e ≤ env.now
      · -- an eligible ticket is dispatchable, so the dispatcher was not started as it is alive
        have hdispatchable := hvalid.hasDispatchable ht he hle
        exact Or.inr ⟨fun hidle => hstart ⟨hdispatchable, hidle⟩, hle⟩
      · exact Or.inl (hcovered t ht e he (not_le.mp hle))

/-- `_ensure_dispatcher_locked` keeps every ticket covered. -/
theorem Awake.ensureDispatcher (hawake : s.Awake env) (h : s.Valid policy) :
    (s.ensureDispatcher policy env).Awake env := by
  have hdeferred := hawake.of_control h (deferHeldTickets_moves _ h)
    (control_deferHeldTickets env s)
  refine ensureDispatcher_awake h fun hopen _ _ t ht e he => ?_
  rcases hdeferred hopen t ht e he with hcovered | ⟨-, hle⟩
  · exact Or.inl hcovered
  · exact Or.inr hle

/-! ## The methods -/

/-- `admit` keeps every ticket covered: when the dispatcher is started for an older ticket, then the
timer is due, and covers the new one as well. -/
theorem Awake.admitScope (hawake : s.Awake env) (h : s.Valid policy) (scope : RpcScope) :
    (s.admitScope policy env scope).2.Awake env := by
  have hpruned := hawake.of_control h (pruneDone_moves _ s) (control_pruneDone s)
  have hvalid := (pruneDone_moves policy s).valid h
  rcases s.admitScope_cases policy env scope with heq | heq |
    ⟨t, hsequence, rfl, -, heq, hopen, hclass, hroom⟩
  · rw [heq]
    exact hawake
  · rw [heq]
    exact hpruned
  · rw [heq]
    have hmove : Move policy s.pruneDone (s.pruneDone.enqueue t) :=
      .enqueue t hsequence hclass hroom
    have hvalid' := hmove.valid hvalid
    have hdefer := deferHeldTickets_moves env hvalid'
    have hcontrol := control_deferHeldTickets env (s.pruneDone.enqueue t)
    refine ensureDispatcher_awake hvalid' fun _ hdispatchable hidle => ?_
    have hhandle : ((s.pruneDone.enqueue t).deferHeldTickets env).releaseHandle =
        s.pruneDone.releaseHandle := congrArg Control.releaseHandle hcontrol
    have hnext : ((s.pruneDone.enqueue t).deferHeldTickets env).nextWriteAt =
        s.pruneDone.nextWriteAt := congrArg Control.nextWriteAt hcontrol
    have hdispatcher : ((s.pruneDone.enqueue t).deferHeldTickets env).dispatcher =
        s.pruneDone.dispatcher := congrArg Control.dispatcher hcontrol
    have haccepted : ((s.pruneDone.enqueue t).deferHeldTickets env).accepted =
        t :: s.pruneDone.accepted := congrArg Control.accepted hcontrol
    rw [hdispatcher] at hidle
    -- a ticket that was queued before is covered by the timer, as there is no dispatcher
    have hold : ∀ u ∈ ((s.pruneDone.enqueue t).deferHeldTickets env).allQueued, u ≠ t →
        ∀ e, ((s.pruneDone.enqueue t).deferHeldTickets env).eligibleAt env u = some e →
          ∃ release, s.pruneDone.releaseHandle = some release ∧ release ≤ e := by
      intro u hu hut e he
      have hmem : u ∈ t :: s.pruneDone.accepted :=
        haccepted ▸ (hdefer.valid hvalid').allQueued_accepted hu
      have hmem' := (List.mem_cons.mp hmem).resolve_left hut
      have hqueue := hmove.mem_allQueued hvalid (Moves.mem_allQueued hdefer hvalid' hu hmem) hmem'
      rw [eligibleAt_congr hnext] at he
      exact (hpruned hopen u hqueue e he).resolve_right fun halive => halive.1 hidle
    intro u hu e he
    rw [hhandle]
    by_cases hut : u = t
    · by_cases hle : e ≤ env.now
      · exact Or.inr hle
      · obtain ⟨v, hv, hcan⟩ := List.any_eq_true.mp hdispatchable
        simp only [canDispatch, Bool.and_eq_true, Option.any_eq_true, decide_eq_true_eq] at hcan
        obtain ⟨-, e', he', hle'⟩ := hcan
        have hvt : v ≠ t := by
          rintro rfl
          subst hut
          rw [he] at he'
          obtain rfl := Option.some.inj he'
          exact hle hle'
        obtain ⟨release, hrelease, hearly⟩ := hold v hv hvt e' he'
        exact Or.inl ⟨release, hrelease, by linarith⟩
    · exact Or.inl (hold u hu hut e he)

/-- A granted write arms the timer for every ticket that it makes wait. -/
theorem Awake.recordDispatch (hawake : s.Awake env) (h : s.Valid policy)
    (admission : RpcAdmission) : (s.recordDispatch policy env admission).2.Awake env := by
  rcases s.recordDispatch_cases policy env admission with heq |
    ⟨attempt, -, -, hopen, -, -, heq⟩
  · rw [heq]
    exact hawake
  · obtain ⟨handle, hschedule, hcovered⟩ := scheduleRelease_spec env (s := { s with
      active := s.active.insert admission.sequence { attempt with dispatchRecorded := true }
      nextWriteAt := env.now + policy.minimumSpacingSeconds }) hopen h.queued
    rw [heq, hschedule]
    intro _ t ht e he
    refine Or.inl (hcovered t ht e he ?_)
    obtain ⟨release, -, rfl⟩ := Option.map_eq_some_iff.mp he
    have hspacing := policy.spacing_pos
    exact lt_max_of_lt_left (by linarith)

/-- The dispatcher ends only when every ticket left is covered by the timer. -/
theorem Awake.acquireDispatchCapacity (hawake : s.Awake env) (h : s.Valid policy) :
    (s.acquireDispatchCapacity policy env).Awake env := by
  have hprune := pruneDone_moves policy s
  have hmoves : Moves policy s ((s.pruneDone).expireDue env) :=
    hprune.trans (expireDue_moves _ (hprune.valid h))
  have hbefore := hawake.of_control h hmoves (by simp)
  have hvalid := hmoves.valid h
  unfold AdmissionScheduler.acquireDispatchCapacity
  dsimp only
  generalize (s.pruneDone).expireDue env = before at hbefore hvalid
  split_ifs with hstop hagain
  · exact absurd hagain.2 (by
      rcases hstop with hclosed | hnone
      · rw [hclosed] at hagain
        exact absurd hagain.1 (by simp)
      · exact fun hsome => absurd (hnone.symm.trans hsome) (by simp))
  · intro hopen t ht e he
    rcases hbefore hopen t ht e he with hcovered | ⟨-, hle⟩
    · exact Or.inl hcovered
    · exact absurd ⟨hopen, hvalid.hasDispatchable ht he hle⟩ hagain
  · exact hbefore.of_moves hvalid (Moves.of_same ⟨rfl, rfl, rfl, rfl, rfl, rfl, rfl, id⟩) rfl rfl
      rfl rfl fun _ => by simp

end AdmissionScheduler

/-! ## Runs -/

namespace SchedulerWorld

open AdmissionScheduler

variable {policy : SchedulerPolicy}

/-- The release timer and a change of eligibility start the dispatcher only when no other ticket
has to wait longer. -/
def StartsCovered (policy : SchedulerPolicy) (w : SchedulerWorld) : SchedulerEvent → Prop
  | .eligibilityChanged releaseAt deferral =>
    AdmissionScheduler.StartsCovered policy
      { w.env with releaseAt := releaseAt, deferral := deferral }
      { w.scheduler with releaseHandle := none }
  | .releaseReady =>
    AdmissionScheduler.StartsCovered policy w.env { w.scheduler with releaseHandle := none }
  | _ => True

/-- Every such event keeps every ticket covered. -/
theorem step_awake {w w' : SchedulerWorld} {event : SchedulerEvent} (h : w.Sound policy)
    (hhistory : w.SlotHistory) (hawake : w.scheduler.Awake w.env)
    (hstarts : w.StartsCovered policy event) (hstep : step policy w event = some w') :
    w'.scheduler.Awake w'.env := by
  cases event with
  | advance now =>
    simp only [step] at hstep
    split_ifs at hstep with hnow
    obtain rfl := Option.some.inj hstep
    intro hopen t ht e he
    rcases hawake hopen t ht e he with hcovered | ⟨halive, hle⟩
    · exact Or.inl hcovered
    · exact Or.inr ⟨halive, hle.trans hnow⟩
  | setReady ready =>
    obtain rfl := Option.some.inj hstep
    exact hawake
  | eligibilityChanged releaseAt deferral =>
    obtain rfl := Option.some.inj hstep
    exact ensureDispatcher_awake (h.valid.keep ⟨rfl, rfl, rfl, rfl, rfl, rfl, rfl, id⟩) hstarts
  | releaseReady =>
    simp only [step] at hstep
    split_ifs at hstep
    obtain rfl := Option.some.inj hstep
    exact ensureDispatcher_awake (h.valid.keep ⟨rfl, rfl, rfl, rfl, rfl, rfl, rfl, id⟩) hstarts
  | admitScope scope =>
    obtain rfl := Option.some.inj hstep
    exact hawake.admitScope h.valid scope
  | recordDispatch admission =>
    obtain rfl := Option.some.inj hstep
    exact hawake.recordDispatch h.valid admission
  | complete admission =>
    obtain rfl := Option.some.inj hstep
    have hpop := hawake.of_control h.valid (.single (.pop admission.sequence))
      (control_popActive w.scheduler _)
    rcases complete_eq policy w.env w.scheduler admission with heq | heq
    · exact heq ▸ hpop
    · exact heq ▸ hpop.ensureDispatcher (h.valid.pop _)
  | expireDue =>
    obtain rfl := Option.some.inj hstep
    exact hawake.of_control h.valid (expireDue_moves _ h.valid) (control_expireDue _)
  | callerCancelled t | callerResumed t =>
    have hmoves := step_moves h.valid h.cursors hstep
    simp only [step] at hstep
    split_ifs at hstep
    obtain rfl := Option.some.inj hstep
    exact hawake.of_control h.valid hmoves rfl
  | cancelTicket t =>
    have hmoves := step_moves h.valid h.cursors hstep
    have hcontrol := control_cancelTicket w.scheduler t
    simp only [step] at hstep
    split_ifs at hstep
    all_goals
      obtain rfl := Option.some.inj hstep
      exact hawake.of_control h.valid hmoves hcontrol
  | expireTimer t =>
    have hmoves := step_moves h.valid h.cursors hstep
    have hcontrol := control_expireTicket w.scheduler t
    simp only [step] at hstep
    split_ifs at hstep
    obtain rfl := Option.some.inj hstep
    exact hawake.of_control h.valid hmoves hcontrol
  | dispatcherReady =>
    simp only [step] at hstep
    split_ifs at hstep
    obtain rfl := Option.some.inj hstep
    exact hawake.acquireDispatchCapacity h.valid
  | dispatcherLimited =>
    have hmoves := step_moves h.valid h.cursors hstep
    have henv := (dispatcherLimited_history hstep).2.2.2
    rw [henv]
    obtain ⟨i, indices, hcontrol⟩ :=
      control_dispatchOneReadyTicket w.env h.valid h.cursors
    simp only [step] at hstep
    split_ifs at hstep
    all_goals obtain rfl := Option.some.inj hstep
    · exact hawake.of_moves h.valid hmoves (congrArg Control.accepted hcontrol)
        (congrArg Control.nextWriteAt hcontrol) (congrArg Control.releaseHandle hcontrol)
        (congrArg Control.closed hcontrol) fun _ => by simp
    · exact hawake.of_moves h.valid hmoves (congrArg Control.accepted hcontrol)
        (congrArg Control.nextWriteAt hcontrol) (congrArg Control.releaseHandle hcontrol)
        (congrArg Control.closed hcontrol) fun _ => by simp
    · exact hawake.of_moves h.valid hmoves rfl rfl rfl rfl fun _ => by simp
  | startShutdown =>
    obtain rfl := Option.some.inj hstep
    exact awake_of_closed (closed_startShutdown _)
  | dispatcherFailed =>
    simp only [step] at hstep
    split_ifs at hstep
    obtain rfl := Option.some.inj hstep
    exact awake_of_closed (closed_startShutdown _)
  | dispatcherCancelled =>
    simp only [step] at hstep
    split_ifs at hstep with hdrained
    obtain rfl := Option.some.inj hstep
    exact awake_of_closed (hhistory.drained hdrained).closed
  | drainShutdown =>
    have hmoves := step_moves h.valid h.cursors hstep
    simp only [step] at hstep
    split_ifs at hstep with hclosed
    obtain rfl := Option.some.inj hstep
    exact awake_of_closed (closed_moves hclosed.1 hmoves)

/-- The accepted tickets that are queued. -/
def queuedTickets (w : SchedulerWorld) : List AdmissionTicket :=
  w.scheduler.accepted.filter fun t => (w.scheduler.cells t.sequence).state = .queued

/-- No callback is pending: no caller is about to cancel its ticket or to leave `admit`, no expiry
timer is due, and the release timer is not due. -/
def Quiescent (w : SchedulerWorld) : Prop :=
  (∀ t ∈ w.scheduler.accepted,
    (w.scheduler.cells t.sequence).caller ≠ .cancelling ∧
    ((w.scheduler.cells t.sequence).caller = .waiting →
      (w.scheduler.cells t.sequence).future = .pending) ∧
    ((w.scheduler.cells t.sequence).timer = true → w.env.now < t.deadline)) ∧
  ∀ release ∈ w.scheduler.releaseHandle, w.env.now < release

/-- Somebody is going to look at the queued tickets again, if there is one who can be released: the
dispatcher is alive, or the release timer is armed for no later than the earliest release. -/
def HasWakeup (w : SchedulerWorld) : Prop :=
  w.scheduler.closed = true ∨ w.scheduler.dispatcher ≠ .idle ∨
    (∃ release ∈ w.scheduler.releaseHandle, ∀ t ∈ w.queuedTickets,
      ∀ e ∈ w.scheduler.eligibleAt w.env t, release ≤ e) ∨
    ∀ t ∈ w.queuedTickets, w.env.releaseAt t.scope = none

instance (w : SchedulerWorld) : Decidable w.Quiescent := instDecidableAnd

instance (w : SchedulerWorld) : Decidable w.HasWakeup := instDecidableOr

/-- In a quiescent state every queued ticket is in its queue. -/
theorem Quiescent.mem_allQueued {w : SchedulerWorld} (hquiet : w.Quiescent) (h : w.Sound policy)
    {t : AdmissionTicket} (ht : t ∈ w.queuedTickets) : t ∈ w.scheduler.allQueued := by
  obtain ⟨haccepted, hqueued⟩ := List.mem_filter.mp ht
  have hpresent := h.valid.present t haccepted (by simpa using hqueued) (hquiet.1 t haccepted).1
  exact AdmissionScheduler.mem_allQueued.mpr ⟨_, hpresent.1⟩

/-- Two methods that are held back until the times 5 and 10. -/
def floodedEnvironment : Environment where
  now := 0
  releaseAt scope := if scope.requestMethod = some "messages.GetHistory" then some 5 else some 10
  deferral _ := false
  ready := true

/-- Two tickets for the two methods are admitted. -/
def floodedEvents : List SchedulerEvent :=
  [.admitScope sampleScope,
    .admitScope { sampleScope with requestMethod := some "messages.Search" }]

/-- The first ticket is released and dispatched, and its request is given up before it is
written. -/
def abandonedEvents : List SchedulerEvent :=
  floodedEvents ++ [.advance 5, .releaseReady, .dispatcherReady, .dispatcherLimited,
    .dispatcherReady,
    .callerResumed ⟨1, sampleScope, 0, 15⟩,
    .complete ⟨.mcpInteractive, .interactive, 5, 1, none, some "messages.GetHistory"⟩]

end SchedulerWorld

end McpTelegram
