import McpTelegram.Scheduler.Pace

/-!
# The outstanding bound

The scheduler bounds what each service class has queued and in flight (`outstanding_bound`).  The
bound is a part of `AdmissionScheduler.Valid`; what this file adds is that a slot is released once:
a slot that was released stays gone, whatever happens later.
-/

namespace McpTelegram

open Foundations Relation

namespace SchedulerWorld

open AdmissionScheduler

variable {policy : SchedulerPolicy}
variable {s s' : AdmissionScheduler} {n : ℕ} {env : Environment} {admission : RpcAdmission}
    {w w' : SchedulerWorld} {event : SchedulerEvent}

/-! ## Released slots -/

/-- Ticket `n` was dispatched, and `p` holds of its attempt as long as that is active. -/
structure Dispatched (p : ActiveAttempt → Prop) (s : AdmissionScheduler) (n : ℕ) : Prop where
  le : n ≤ s.sequence
  state : (s.cells n).state = .dispatched
  attempt : ∀ attempt, s.active.lookup n = some attempt → p attempt

/-- The slot of a ticket is gone: it was dispatched and is not active any more. -/
abbrev Gone : AdmissionScheduler → ℕ → Prop := Dispatched fun _ => False

/-- A slot that is gone is not active. -/
theorem Dispatched.notMem (hgone : Gone s n) : n ∉ s.active := by
  intro hmem
  obtain ⟨attempt, hlookup⟩ := Option.isSome_iff_exists.mp (AList.lookup_isSome.mpr hmem)
  exact hgone.attempt attempt hlookup

/-- What holds of the attempt of a dispatched ticket stays so, when a granted write does not change
it: only a queued ticket is activated. -/
theorem Dispatched.move {p : ActiveAttempt → Prop}
    (hp : ∀ attempt, p attempt → p { attempt with dispatchRecorded := true })
    (hn : Dispatched p s n) (h : s.Valid policy) (hmove : Move policy s s') :
    Dispatched p s' n := by
  obtain ⟨hle, hstate, hattempt⟩ := hn
  cases hmove with
  | leave t state keepTimer outcome _ _ hqueued _ =>
    have hne : n ≠ t.sequence := by
      rintro rfl
      rw [hqueued] at hstate
      cases hstate
    refine ⟨hle, ?_, hattempt⟩
    simpa [AdmissionScheduler.leave, Function.update_of_ne hne] using hstate
  | drop => exact ⟨hle, hstate, hattempt⟩
  | activate env t _ hmem =>
    have hne : n ≠ t.sequence := by
      rintro rfl
      rw [h.queued _ t hmem] at hstate
      cases hstate
    rw [activateTicket_eq]
    refine ⟨hle, ?_, fun attempt hlookup => hattempt attempt ?_⟩
    · simpa [AdmissionScheduler.leave, Function.update_of_ne hne] using hstate
    · rwa [AList.lookup_insert_ne hne] at hlookup
  | enqueue t hsequence =>
    have hne : n ≠ t.sequence := by omega
    refine ⟨?_, ?_, hattempt⟩
    · simp only [AdmissionScheduler.enqueue]
      omega
    · simpa [AdmissionScheduler.enqueue, Function.update_of_ne hne] using hstate
  | pop m =>
    unfold popActive
    split
    · exact ⟨hle, hstate, hattempt⟩
    · refine ⟨hle, hstate, fun attempt hlookup => hattempt attempt ?_⟩
      by_cases hne : n = m
      · subst hne
        exact absurd hlookup (by simp [releaseActiveCapacity])
      · exact (AList.lookup_erase_ne hne).symm.trans hlookup
  | grant m attempt hlookup =>
    refine ⟨hle, hstate, fun attempt' hlookup' => ?_⟩
    by_cases hne : n = m
    · subst hne
      rw [AList.lookup_insert] at hlookup'
      obtain rfl := Option.some.inj hlookup'
      exact hp attempt (hattempt attempt hlookup)
    · rw [AList.lookup_insert_ne hne] at hlookup'
      exact hattempt attempt' hlookup'
  | clear => exact ⟨hle, hstate, fun attempt hlookup => by simp [clearActive] at hlookup⟩
  | touch t f hf =>
    refine ⟨hle, ?_, hattempt⟩
    by_cases hne : n = t.sequence
    · subst hne
      simp only [modifyCell, Function.update_self, hf.state_eq, hstate]
    · simpa [modifyCell, Function.update_of_ne hne] using hstate
  | keep s' hsame =>
    exact ⟨hsame.sequence_eq ▸ hle, hsame.cells_eq ▸ hstate, hsame.active_eq ▸ hattempt⟩

/-- The same along moves. -/
theorem Dispatched.moves {p : ActiveAttempt → Prop}
    (hp : ∀ attempt, p attempt → p { attempt with dispatchRecorded := true })
    (hn : Dispatched p s n) (h : s.Valid policy) (hmoves : Moves policy s s') :
    Dispatched p s' n := by
  induction hmoves with
  | refl => exact hn
  | tail hbefore hmove ih => exact ih.move hp (Moves.valid hbefore h) hmove

theorem Dispatched.gone_moves (hgone : Gone s n) (h : s.Valid policy) (hmoves : Moves policy s s') :
    Gone s' n :=
  hgone.moves (fun _ => id) h hmoves

/-- The slot of a popped attempt is gone. -/
theorem gone_popActive (h : s.Valid policy) (hn : n ∈ s.active) : Gone (s.popActive n) n := by
  obtain ⟨hstate, hle⟩ := h.dispatched n hn
  obtain ⟨attempt, hlookup⟩ := Option.isSome_iff_exists.mp (AList.lookup_isSome.mpr hn)
  unfold popActive
  rw [hlookup]
  exact ⟨hle, hstate, fun attempt hsome => by simp [releaseActiveCapacity] at hsome⟩

/-! ## Completion -/

/-- Ensuring a dispatcher leaves the active attempts alone. -/
theorem active_ensureDispatcher (s : AdmissionScheduler) :
    (s.ensureDispatcher policy env).active = s.active := by
  obtain ⟨handle, dispatcher, heq | heq⟩ := ensureDispatcher_eq policy env s
  · rw [heq]
  · rw [heq]
    exact active_deferHeldTickets s

/-- `complete` does nothing for an admission that is not active. -/
theorem complete_of_notMem (h : admission.sequence ∉ s.active) :
    s.complete policy env admission = s := by
  have hlookup : s.active.lookup admission.sequence = none := AList.lookup_eq_none.mpr h
  unfold complete
  rw [hlookup]

/-- `complete` ends the attempt of its admission, and may start the dispatcher. -/
theorem complete_eq (policy : SchedulerPolicy) (env : Environment) (s : AdmissionScheduler)
    (admission : RpcAdmission) :
    s.complete policy env admission = s.popActive admission.sequence ∨
      s.complete policy env admission =
        (s.popActive admission.sequence).ensureDispatcher policy env := by
  unfold complete
  split
  · rename_i hlookup
    refine Or.inl ?_
    rw [popActive, hlookup]
  · dsimp only
    split
    · exact Or.inr rfl
    · exact Or.inl rfl

/-- After `complete` the admission is not active. -/
theorem notMem_complete (s : AdmissionScheduler) (admission : RpcAdmission) :
    admission.sequence ∉ (s.complete policy env admission).active := by
  have hpop : admission.sequence ∉ (s.popActive admission.sequence).active := by
    unfold popActive
    split
    · exact AList.lookup_eq_none.mp (by assumption)
    · exact fun hmem => (AList.mem_erase.mp hmem).1 rfl
  rcases complete_eq policy env s admission with heq | heq
  · rw [heq]
    exact hpop
  · rw [heq, active_ensureDispatcher]
    exact hpop

/-- After `complete` the slot of an active admission is gone. -/
theorem gone_complete (h : s.Valid policy) (hn : admission.sequence ∈ s.active) :
    Gone (s.complete policy env admission) admission.sequence := by
  have hpop := gone_popActive h hn
  rcases complete_eq policy env s admission with heq | heq
  · rw [heq]
    exact hpop
  · rw [heq]
    have hvalid := h.pop admission.sequence
    exact hpop.gone_moves hvalid (ensureDispatcher_moves hvalid)

/-- `_start_shutdown` closes the scheduler. -/
theorem closed_startShutdown (s : AdmissionScheduler) : s.startShutdown.closed = true := by
  unfold startShutdown
  split
  · assumption
  · rfl

/-- A shutdown is not taken back. -/
theorem closed_move (hclosed : s.closed = true) (hmove : Move policy s s') : s'.closed = true := by
  cases hmove with
  | pop m => exact (congrArg Control.closed (control_popActive s m)).trans hclosed
  | keep s' hsame => exact hsame.closed_of hclosed
  | _ => exact hclosed

/-- A shutdown is not taken back along moves. -/
theorem closed_moves (hclosed : s.closed = true) (hmoves : Moves policy s s') :
    s'.closed = true := by
  induction hmoves with
  | refl => exact hclosed
  | tail _ hmove ih => exact closed_move ih hmove

/-- A scheduler that the shutdown has drained: closed, and without active attempts. -/
structure Drained (s : AdmissionScheduler) : Prop where
  closed : s.closed = true
  empty : ∀ n, n ∉ s.active

/-- A drained scheduler stays drained: nothing is activated when it is closed. -/
theorem Drained.move (h : Drained s) (hmove : Move policy s s') : Drained s' := by
  obtain ⟨hclosed, hempty⟩ := h
  refine ⟨closed_move hclosed hmove, ?_⟩
  cases hmove with
  | leave | drop | enqueue | touch => exact hempty
  | activate env t hopen =>
    rw [hclosed] at hopen
    cases hopen
  | pop m =>
    unfold popActive
    split
    · exact hempty
    · exact fun n hmem => hempty n (AList.mem_erase.mp hmem).2
  | grant m attempt hlookup =>
    exact absurd (AList.lookup_isSome.mp (by rw [hlookup]; rfl)) (hempty m)
  | clear => exact AList.notMem_empty
  | keep s' hsame => exact hsame.active_eq ▸ hempty

/-- A drained scheduler stays drained along moves. -/
theorem Drained.moves (h : Drained s) (hmoves : Moves policy s s') : Drained s' := by
  induction hmoves with
  | refl => exact h
  | tail _ hmove ih => exact ih.move hmove

/-- What a run knows about the slots it has released. -/
structure SlotHistory (w : SchedulerWorld) : Prop where
  released : ∀ n ∈ w.released, Gone w.scheduler n
  drained : w.drained = true → Drained w.scheduler

/-- A selection changes the scheduler and the turns only. -/
theorem dispatcherLimited_history (hstep : step policy w .dispatcherLimited = some w') :
    w'.released = w.released ∧ w'.writes = w.writes ∧ w'.drained = w.drained ∧
      w'.env = w.env := by
  simp only [step] at hstep
  obtain ⟨classTurns, sourceTurns, hrecord⟩ :=
    recordTurns_eq policy w (w.scheduler.prepareSelection w.env)
  rw [hrecord] at hstep
  split_ifs at hstep
  all_goals
    obtain rfl := Option.some.inj hstep
    exact ⟨rfl, rfl, rfl, rfl⟩

/-- What an event adds to the released slots was active before it and is gone after it. -/
theorem step_released (h : w.Sound policy) (hstep : step policy w event = some w')
    (hn : n ∈ w'.released) : n ∈ w.released ∨ (n ∈ w.scheduler.active ∧ Gone w'.scheduler n) := by
  have hreleased : ∀ m, n ∈ releasedBy w.scheduler m ++ w.released →
      n ∈ w.released ∨ (n = m ∧ n ∈ w.scheduler.active) := by
    intro m hmem
    rcases List.mem_append.mp hmem with hmem | hmem
    · unfold releasedBy at hmem
      split at hmem
      · rename_i hsome
        obtain rfl := List.mem_singleton.mp hmem
        exact Or.inr ⟨rfl, AList.lookup_isSome.mp hsome⟩
      · cases hmem
    · exact Or.inl hmem
  cases event with
  | complete admission =>
    obtain rfl := Option.some.inj hstep
    rcases hreleased admission.sequence hn with hold | ⟨rfl, hactive⟩
    · exact Or.inl hold
    · exact Or.inr ⟨hactive, gone_complete h.valid hactive⟩
  | cancelTicket t =>
    simp only [step] at hstep
    split_ifs at hstep with ht hdispatched
    · obtain rfl := Option.some.inj hstep
      rcases hreleased t.sequence hn with hold | ⟨rfl, hactive⟩
      · exact Or.inl hold
      · have hcancel : w.scheduler.cancelTicket t = w.scheduler.popActive t.sequence := by
          rw [cancelTicket, if_neg (by rw [hdispatched]; simp), if_pos hdispatched]
        have hgone := gone_popActive h.valid hactive
        rw [← hcancel] at hgone
        have hmoves : Moves policy w.scheduler (w.scheduler.cancelTicket t) :=
          cancelTicket_moves _ t ht.1
        have hvalid := hmoves.valid h.valid
        exact Or.inr ⟨hactive, hgone.gone_moves hvalid
          (callerReturned_moves _ t (state_cancelTicket _ t))⟩
    · obtain rfl := Option.some.inj hstep
      exact Or.inl hn
  | dispatcherLimited =>
    exact Or.inl ((dispatcherLimited_history hstep).1 ▸ hn)
  | admitScope | setReady | eligibilityChanged | expireDue | recordDispatch | startShutdown =>
    obtain rfl := Option.some.inj hstep
    exact Or.inl hn
  | _ =>
    simp only [step] at hstep
    split_ifs at hstep
    obtain rfl := Option.some.inj hstep
    exact Or.inl hn

/-- Every event keeps what is known about the released slots. -/
theorem step_slotHistory (h : w.Sound policy) (hhistory : w.SlotHistory)
    (hstep : step policy w event = some w') : w'.SlotHistory := by
  have hmoves := step_moves h.valid h.cursors hstep
  refine ⟨fun n hn => ?_, fun hdrained => ?_⟩
  · rcases step_released h hstep hn with hold | ⟨-, hgone⟩
    · exact (hhistory.released n hold).gone_moves h.valid hmoves
    · exact hgone
  · by_cases hbefore : w.drained = true
    · exact (hhistory.drained hbefore).moves hmoves
    · cases event with
      | drainShutdown =>
        simp only [step] at hstep
        split_ifs at hstep with hclosed
        obtain rfl := Option.some.inj hstep
        have hsame : w.scheduler.closeQueuedTickets.closed = w.scheduler.closed :=
          congrArg Control.closed (control_closeQueuedTickets w.scheduler)
        exact ⟨hsame.trans hclosed.1, AList.notMem_empty⟩
      | dispatcherLimited =>
        exact absurd ((dispatcherLimited_history hstep).2.2.1 ▸ hdrained) hbefore
      | admitScope | setReady | eligibilityChanged | expireDue | recordDispatch | startShutdown
        | complete =>
        obtain rfl := Option.some.inj hstep
        exact absurd hdrained hbefore
      | _ =>
        simp only [step] at hstep
        split_ifs at hstep
        all_goals
          obtain rfl := Option.some.inj hstep
          exact absurd hdrained hbefore

/-- What is known about the released slots holds in every state of every run. -/
theorem run_slotHistory {events : List SchedulerEvent}
    (hrun : run (step policy) (init env) events = some w) : w.Sound policy ∧ w.SlotHistory := by
  refine run_invariant (I := fun w => w.Sound policy ∧ w.SlotHistory)
    (fun w event w' h hstep => ?_) ⟨init_sound env, ?_, ?_⟩ hrun
  · exact ⟨step_sound w event w' h.1 hstep, step_slotHistory h.1 h.2 hstep⟩
  · exact fun n hn => absurd hn List.not_mem_nil
  · exact fun hdrained => absurd hdrained Bool.false_ne_true

/-! ## The bound -/

/-- In every reachable state no service class has more queued and active attempts than its
capacity, the slot counts are the numbers of active attempts and never negative, and `complete`
changes nothing when it is called again, for a slot that `complete` or a cancellation released, or
after the shutdown cleared the tables. -/
theorem outstanding_bound {env : Environment} {events : List SchedulerEvent} {w : SchedulerWorld}
    (hrun : run (step policy) (init env) events = some w) :
    (∀ c, 0 ≤ w.scheduler.queuedDepth c ∧ 0 ≤ w.scheduler.activeCounts c ∧
      w.scheduler.queuedDepth c + w.scheduler.activeCounts c ≤ policy.capacity c ∧
      w.scheduler.activeCounts c = w.scheduler.activeWhere (·.serviceClass = c)) ∧
    (∀ source, 0 ≤ w.scheduler.activeSourceCounts source ∧
      w.scheduler.activeSourceCounts source = w.scheduler.activeWhere (·.source = source)) ∧
    ∀ env' admission,
      (∀ env'', (w.scheduler.complete policy env' admission).complete policy env'' admission =
        w.scheduler.complete policy env' admission) ∧
      (admission.sequence ∈ w.released →
        w.scheduler.complete policy env' admission = w.scheduler) ∧
      (w.drained = true → w.scheduler.complete policy env' admission = w.scheduler) := by
  obtain ⟨⟨hvalid, -⟩, hhistory⟩ := run_slotHistory hrun
  refine ⟨fun c => ⟨?_, ?_, hvalid.capacity c, hvalid.classCounts c⟩,
    fun source => ⟨?_, hvalid.sourceCounts source⟩, fun env' admission => ⟨?_, ?_, ?_⟩⟩
  · refine List.sum_nonneg fun depth hdepth => ?_
    obtain ⟨source, -, rfl⟩ := List.mem_map.mp hdepth
    exact Int.natCast_nonneg _
  · rw [hvalid.classCounts c]
    exact Int.natCast_nonneg _
  · rw [hvalid.sourceCounts source]
    exact Int.natCast_nonneg _
  · exact fun env'' => complete_of_notMem (notMem_complete _ admission)
  · exact fun hreleased => complete_of_notMem (hhistory.released _ hreleased).notMem
  · exact fun hdrained => complete_of_notMem ((hhistory.drained hdrained).empty _)

/-- Two tickets are admitted, and the first is dispatched and completed. -/
def sampleEvents : List SchedulerEvent :=
  [.admitScope sampleScope, .admitScope sampleScope, .dispatcherReady, .dispatcherLimited,
    .complete ⟨.mcpInteractive, .interactive, 0, 1, none, some "messages.GetHistory"⟩]

/-- In the state after `sampleEvents` one ticket is queued, and completing the first admission again
changes nothing. -/
theorem outstanding_bound_sample :
    ∃ w, run (step .default) (init sampleEnvironment) sampleEvents = some w ∧
      w.released = [1] ∧ w.scheduler.queuedDepth .interactive = 1 ∧
      w.scheduler.activeCounts .interactive = w.scheduler.activeWhere
        (·.serviceClass = .interactive) := by
  have hrun : ∃ w, run (step .default) (init sampleEnvironment) sampleEvents = some w :=
    Option.isSome_iff_exists.mp (by decide +kernel)
  obtain ⟨w, hw⟩ := hrun
  have hqueued : (run (step .default) (init sampleEnvironment) sampleEvents).map
      (fun w => (w.released, w.scheduler.queuedDepth .interactive)) = some ([1], 1) := by
    decide +kernel
  rw [hw, Option.map_some, Option.some.injEq, Prod.mk.injEq] at hqueued
  exact ⟨w, hw, hqueued.1, hqueued.2, ((outstanding_bound hw).1 _).2.2.2⟩

end SchedulerWorld

end McpTelegram
