import McpTelegram.Scheduler.Valid

/-!
# What each method of the scheduler does

One lemma for each method: that it is a sequence of moves, and which of the fields beside the
tickets it leaves alone.  `selectTicket_spec` describes the two nested cursors as scans of their
cycles.  At the end `step_moves` collects the methods into the events of a run.
-/

namespace McpTelegram

open Foundations Relation

namespace AdmissionScheduler

variable {policy : SchedulerPolicy} {env : Environment} {s : AdmissionScheduler}

/-! ## The fields beside the tickets -/

/-- What most methods leave alone: the fields of the scheduler beside the tickets, and which tickets
there are. -/
structure Control where
  accepted : List AdmissionTicket
  fairIndex : ℕ
  sourceIndices : RpcServiceClass → ℕ
  nextWriteAt : ℚ
  releaseHandle : Option ℚ
  dispatcher : Dispatcher
  closed : Bool
  shutdownPending : Bool

/-- These fields of a scheduler. -/
def control (s : AdmissionScheduler) : Control :=
  ⟨s.accepted, s.fairIndex, s.sourceIndices, s.nextWriteAt, s.releaseHandle, s.dispatcher, s.closed,
    s.shutdownPending⟩

/-- A loop over tickets leaves alone what each of its rounds leaves alone. -/
theorem control_foldl {f : AdmissionScheduler → AdmissionTicket → AdmissionScheduler}
    (hf : ∀ s t, (f s t).control = s.control) (ts : List AdmissionTicket)
    (s : AdmissionScheduler) : (ts.foldl f s).control = s.control := by
  induction ts generalizing s with
  | nil => rfl
  | cons t ts ih => rw [List.foldl_cons, ih, hf]

@[simp] theorem control_expireTicket (s : AdmissionScheduler) (t : AdmissionTicket) :
    (s.expireTicket t).control = s.control := by
  unfold expireTicket
  split <;> rfl

@[simp] theorem control_expireDue (s : AdmissionScheduler) :
    (s.expireDue env).control = s.control := control_foldl control_expireTicket _ s

@[simp] theorem control_deferTicket (s : AdmissionScheduler) (t : AdmissionTicket) :
    (s.deferTicket env t).control = s.control := by
  unfold deferTicket
  split <;> rfl

@[simp] theorem control_deferHeldTickets (env : Environment) (s : AdmissionScheduler) :
    (s.deferHeldTickets env).control = s.control := control_foldl control_deferTicket _ s

/-- Deferring tickets leaves the active attempts alone. -/
theorem active_deferHeldTickets (s : AdmissionScheduler) :
    (s.deferHeldTickets env).active = s.active := by
  unfold deferHeldTickets
  generalize s.allQueued = ts
  induction ts generalizing s with
  | nil => rfl
  | cons t ts ih =>
    rw [List.foldl_cons, ih]
    unfold deferTicket
    split <;> rfl

@[simp] theorem control_pruneDone (s : AdmissionScheduler) : s.pruneDone.control = s.control := rfl

@[simp] theorem control_popActive (s : AdmissionScheduler) (n : ℕ) :
    (s.popActive n).control = s.control := by
  unfold popActive
  split <;> rfl

@[simp] theorem control_cancelTicket (s : AdmissionScheduler) (t : AdmissionTicket) :
    (s.cancelTicket t).control = s.control := by
  unfold cancelTicket
  split
  · rfl
  · split
    · exact control_popActive s _
    · rfl

@[simp] theorem control_closeTicket (s : AdmissionScheduler) (t : AdmissionTicket) :
    (s.closeTicket t).control = s.control := by
  unfold closeTicket
  dsimp only
  split <;> rfl

@[simp] theorem control_closeQueuedTickets (s : AdmissionScheduler) :
    s.closeQueuedTickets.control = s.control := control_foldl control_closeTicket _ s

/-- `_schedule_release_locked` changes the timer only. -/
theorem scheduleRelease_eq (env : Environment) (s : AdmissionScheduler) :
    ∃ handle, s.scheduleRelease env = { s with releaseHandle := handle } := by
  unfold scheduleRelease
  split
  · exact ⟨s.releaseHandle, rfl⟩
  · dsimp only
    split
    · exact ⟨s.releaseHandle, rfl⟩
    · split
      · exact ⟨_, rfl⟩
      · exact ⟨s.releaseHandle, rfl⟩

/-- `_ensure_dispatcher_locked` defers tickets and changes the timer and the dispatcher only. -/
theorem ensureDispatcher_eq (policy : SchedulerPolicy) (env : Environment)
    (s : AdmissionScheduler) :
    ∃ handle dispatcher, s.ensureDispatcher policy env = s ∨
      s.ensureDispatcher policy env =
        { s.deferHeldTickets env with releaseHandle := handle, dispatcher := dispatcher } := by
  unfold ensureDispatcher
  split
  · exact ⟨none, .idle, Or.inl rfl⟩
  · dsimp only
    split
    · exact ⟨(s.deferHeldTickets env).releaseHandle, .waitingReady, Or.inr rfl⟩
    · obtain ⟨handle, heq⟩ := scheduleRelease_eq env (s.deferHeldTickets env)
      exact ⟨handle, (s.deferHeldTickets env).dispatcher, Or.inr heq⟩

/-! ## Methods as moves -/

/-- Every queued ticket of a valid scheduler was accepted. -/
theorem Valid.allQueued_accepted (h : s.Valid policy) {t : AdmissionTicket}
    (ht : t ∈ s.allQueued) : t ∈ s.accepted := by
  obtain ⟨source, hmem⟩ := mem_allQueued.mp ht
  exact h.accepted source t hmem

theorem expireTicket_moves (s : AdmissionScheduler) (t : AdmissionTicket) (ht : t ∈ s.accepted) :
    Moves policy s (s.expireTicket t) := by
  by_cases hqueued : (s.cells t.sequence).state = .queued
  · rw [expireTicket_eq s t hqueued]
    exact .single (.leave t _ _ _ (by simp) ht hqueued (by simp))
  · rw [expireTicket, if_pos hqueued]

theorem expireDue_moves (env : Environment) (h : s.Valid policy) :
    Moves policy s (s.expireDue env) := by
  refine moves_foldl expireTicket_moves (fun s t => ?_) _ s fun t ht =>
    h.allQueued_accepted (List.mem_filter.mp ht).1
  unfold expireTicket
  split <;> rfl

theorem deferHeldTickets_moves (env : Environment) (h : s.Valid policy) :
    Moves policy s (s.deferHeldTickets env) := by
  refine moves_foldl (fun s t ht => ?_) (fun s t => ?_) _ s fun t ht => h.allQueued_accepted ht
  · by_cases hkeep : env.deferral t.scope = false ∨ (s.cells t.sequence).state ≠ .queued
    · rw [deferTicket, if_pos hkeep]
    · push Not at hkeep
      rw [deferTicket_eq s t (by simpa using hkeep.1) hkeep.2]
      exact .single (.leave t _ _ _ (by simp) ht hkeep.2 (by simp))
  · unfold deferTicket
    split <;> rfl

/-- Removing a ticket that is not queued is a move. -/
theorem removeTicket_moves (s : AdmissionScheduler) (t : AdmissionTicket)
    (hstate : (s.cells t.sequence).state ≠ .queued) : Moves policy s (s.removeTicket t) := by
  refine .single (.drop _ (removeTicket_sublist s t) fun source u hu hnot => Or.inl ?_)
  obtain rfl : u = t := by
    by_contra hne
    by_cases hsource : source = t.scope.source
    · subst hsource
      exact hnot (by simpa using (List.mem_erase_of_ne hne).mpr hu)
    · exact hnot (by simpa [Function.update_of_ne hsource] using hu)
  exact hstate

theorem closeQueuedTickets_moves (h : s.Valid policy) : Moves policy s s.closeQueuedTickets := by
  refine moves_foldl (fun s t ht => ?_) (fun s t => ?_) _ s fun t ht => h.allQueued_accepted ht
  · by_cases hqueued : (s.cells t.sequence).state = .queued
    · rw [closeTicket_eq s t hqueued]
      exact .single (.leave t _ _ _ (by simp) ht hqueued (by simp))
    · have hsame : s.closeTicket t = s.removeTicket t := if_pos hqueued
      rw [hsame]
      exact removeTicket_moves s t hqueued
  · unfold closeTicket
    dsimp only
    split <;> rfl

theorem pruneDone_moves (policy : SchedulerPolicy) (s : AdmissionScheduler) :
    Moves policy s s.pruneDone := by
  refine .single (.drop _ (fun source => List.filter_sublist) fun source t ht hnot => ?_)
  by_contra hboth
  push Not at hboth
  exact hnot (List.mem_filter.mpr ⟨ht, by simpa using hboth⟩)

theorem cancelTicket_moves (s : AdmissionScheduler) (t : AdmissionTicket) (ht : t ∈ s.accepted) :
    Moves policy s (s.cancelTicket t) := by
  by_cases hqueued : (s.cells t.sequence).state = .queued
  · rw [cancelTicket_eq s t hqueued]
    exact .single (.leave t _ _ _ (by simp) ht hqueued (by simp))
  · rw [cancelTicket, if_neg hqueued]
    split
    · exact .single (.pop t.sequence)
    · exact .refl

theorem scheduleRelease_moves (s : AdmissionScheduler) :
    Moves policy s (s.scheduleRelease env) := by
  obtain ⟨handle, heq⟩ := scheduleRelease_eq env s
  rw [heq]
  exact .of_same ⟨rfl, rfl, rfl, rfl, rfl, rfl, rfl, id⟩

theorem ensureDispatcher_moves (h : s.Valid policy) :
    Moves policy s (s.ensureDispatcher policy env) := by
  obtain ⟨handle, dispatcher, heq | heq⟩ := ensureDispatcher_eq policy env s
  · rw [heq]
  · rw [heq]
    exact (deferHeldTickets_moves _ h).trans
      (Moves.of_same ⟨rfl, rfl, rfl, rfl, rfl, rfl, rfl, id⟩)

theorem notifyEligibilityChanged_moves (h : s.Valid policy) :
    Moves policy s (s.notifyEligibilityChanged policy env) := by
  have hsame : SameTickets s { s with releaseHandle := none } :=
    ⟨rfl, rfl, rfl, rfl, rfl, rfl, rfl, id⟩
  exact (Moves.of_same hsame).trans (ensureDispatcher_moves (h.keep hsame))

/-- A scope that passes `_validate_scope_contract` has the class of its source. -/
theorem serviceClass_of_validate {scope : RpcScope} (h : validateScopeContract scope = none) :
    scope.serviceClass = scope.source.serviceClass := by
  unfold validateScopeContract at h
  split_ifs at h with h1 h2 h3
  push Not at h2
  rw [h2.2, h2.1]
  rfl

/-- What `admit` does: nothing to the tickets, or a prune, or a prune and a new ticket of a class
that has room, and then `_ensure_dispatcher_locked`. -/
theorem admitScope_cases (policy : SchedulerPolicy) (env : Environment) (s : AdmissionScheduler)
    (scope : RpcScope) :
    (s.admitScope policy env scope).2 = s ∨ (s.admitScope policy env scope).2 = s.pruneDone ∨
      ∃ t : AdmissionTicket, t.sequence = s.sequence + 1 ∧ t.scope = scope ∧
        (s.admitScope policy env scope).1 = .ok t ∧
        (s.admitScope policy env scope).2 = (s.pruneDone.enqueue t).ensureDispatcher policy env ∧
        s.closed = false ∧ scope.serviceClass = scope.source.serviceClass ∧
        s.pruneDone.outstandingDepth scope.serviceClass < policy.capacity scope.serviceClass := by
  unfold admitScope
  cases hvalidate : validateScopeContract scope with
  | some message => exact Or.inl rfl
  | none =>
    dsimp only
    split_ifs with h1 h2 h3 h4
    · exact Or.inl rfl
    · exact Or.inl rfl
    · exact Or.inr (Or.inl rfl)
    · exact Or.inr (Or.inl rfl)
    · exact Or.inr (Or.inr ⟨_, rfl, rfl, rfl, rfl, by simpa using h2,
        serviceClass_of_validate hvalidate, not_le.mp h4⟩)

theorem admitScope_moves (h : s.Valid policy) (scope : RpcScope) :
    Moves policy s (s.admitScope policy env scope).2 := by
  rcases s.admitScope_cases policy env scope with heq | heq |
    ⟨t, hsequence, rfl, -, heq, -, hclass, hroom⟩
  · rw [heq]
  · rw [heq]
    exact pruneDone_moves _ s
  · rw [heq]
    have hpruned := (pruneDone_moves policy s).valid h
    have hqueued : Moves policy s.pruneDone (s.pruneDone.enqueue t) :=
      .single (.enqueue t hsequence hclass hroom)
    exact ((pruneDone_moves _ s).trans hqueued).trans
      (ensureDispatcher_moves (hqueued.valid hpruned))

theorem complete_moves (h : s.Valid policy) (admission : RpcAdmission) :
    Moves policy s (s.complete policy env admission) := by
  unfold complete
  split
  · exact .refl
  · have hpop : Moves policy s (s.popActive admission.sequence) := .single (.pop _)
    dsimp only
    split
    · exact hpop.trans (ensureDispatcher_moves (hpop.valid h))
    · exact hpop

/-- What `record_dispatch` checks before it grants a write, and what it does then. -/
theorem recordDispatch_cases (policy : SchedulerPolicy) (env : Environment)
    (s : AdmissionScheduler) (admission : RpcAdmission) :
    s.recordDispatch policy env admission = (false, s) ∨
      ∃ attempt, s.active.lookup admission.sequence = some attempt ∧
        attempt.dispatchRecorded = false ∧ s.closed = false ∧ env.ready = true ∧
        s.nextWriteAt ≤ env.now ∧
        s.recordDispatch policy env admission =
          (true, scheduleRelease env { s with
            active := s.active.insert admission.sequence { attempt with dispatchRecorded := true }
            nextWriteAt := env.now + policy.minimumSpacingSeconds }) := by
  unfold recordDispatch
  cases hlookup : s.active.lookup admission.sequence with
  | none => exact Or.inl rfl
  | some attempt =>
    dsimp only
    split_ifs with h1 h2 h3
    · exact Or.inl rfl
    · exact Or.inl rfl
    · exact Or.inl rfl
    · push Not at h2
      exact Or.inr ⟨attempt, rfl, by simpa using h1, by simpa using h2.1, by simpa using h2.2.1,
        h2.2.2.1, rfl⟩

theorem recordDispatch_moves (s : AdmissionScheduler) (admission : RpcAdmission) :
    Moves policy s (s.recordDispatch policy env admission).2 := by
  rcases s.recordDispatch_cases policy env admission with heq |
    ⟨attempt, hlookup, -, -, -, -, heq⟩
  · rw [heq]
  · rw [heq]
    have hgrant : Moves policy s { s with
        active := s.active.insert admission.sequence { attempt with dispatchRecorded := true } } :=
      .single (.grant _ attempt hlookup)
    have hpaced : Moves policy s { s with
        active := s.active.insert admission.sequence { attempt with dispatchRecorded := true }
        nextWriteAt := env.now + policy.minimumSpacingSeconds } :=
      hgrant.trans (Moves.of_same ⟨rfl, rfl, rfl, rfl, rfl, rfl, rfl, id⟩)
    exact hpaced.trans (scheduleRelease_moves _)

/-! ## Selection -/

/-- The cursors point into their cycles. -/
structure CursorsInRange (policy : SchedulerPolicy) (s : AdmissionScheduler) : Prop where
  fair : s.fairIndex < policy.fairCycle.length
  source : ∀ c, s.sourceIndices c < (sourceCycle c).length

/-- Only queued tickets are in the queues. -/
def AllQueued (s : AdmissionScheduler) : Prop :=
  ∀ source, ∀ t ∈ s.queues source, (s.cells t.sequence).state = .queued

/-- `_select_source_ticket_locked` scans the cycle of its class for a source with a dispatchable
ticket, and takes the first such ticket. -/
theorem selectSourceLoop_spec (policy : SchedulerPolicy) (env : Environment) (c : RpcServiceClass)
    (n : ℕ) (hqueued : s.AllQueued) :
    ∃ j, (scan (sourceCycle c) (s.sourceReady policy env) n (s.sourceIndices c) = (none, j) ∧
        selectSourceLoop policy env c n s =
          (none, { s with sourceIndices := Function.update s.sourceIndices c j })) ∨
      ∃ source t,
        scan (sourceCycle c) (s.sourceReady policy env) n (s.sourceIndices c) = (some source, j) ∧
        t ∈ s.queues source ∧ s.canDispatch policy env t = true ∧
        selectSourceLoop policy env c n s = (some t, { s with
          sourceIndices := Function.update s.sourceIndices c j
          queues := Function.update s.queues source ((s.queues source).erase t) }) := by
  induction n generalizing s with
  | zero => exact ⟨s.sourceIndices c, Or.inl ⟨rfl, by rw [Function.update_eq_self]; rfl⟩⟩
  | succ n ih =>
    rw [selectSourceLoop, scan]
    cases hsource : (sourceCycle c)[s.sourceIndices c]? with
    | none => exact ⟨s.sourceIndices c, Or.inl ⟨rfl, by rw [Function.update_eq_self]⟩⟩
    | some source =>
      have hkeep : (s.queues source).dropWhile
          (fun t => decide ((s.cells t.sequence).state ≠ .queued)) = s.queues source := by
        cases hlist : s.queues source with
        | nil => rfl
        | cons t ts =>
          have := hqueued source t (hlist ▸ List.mem_cons_self)
          simp [this]
      dsimp only
      rw [hkeep, Function.update_eq_self]
      generalize hnext : (s.sourceIndices c + 1) % (sourceCycle c).length = next
      have hsame : ∀ t, canDispatch policy env { s with
          sourceIndices := Function.update s.sourceIndices c next } t =
          s.canDispatch policy env t := fun _ => rfl
      cases hfind : (s.queues source).find? (canDispatch policy env { s with
          sourceIndices := Function.update s.sourceIndices c next }) with
      | some t =>
        have hmem := List.mem_of_find?_eq_some hfind
        have hcan := List.find?_some hfind
        rw [hsame] at hcan
        have hready : s.sourceReady policy env source = true :=
          List.any_eq_true.mpr ⟨t, hmem, hcan⟩
        exact ⟨next, Or.inr ⟨source, t, by rw [hready]; rfl, hmem, hcan, rfl⟩⟩
      | none =>
        have hready : s.sourceReady policy env source = false :=
          List.any_eq_false.mpr fun t ht => by
            simpa [hsame] using List.find?_eq_none.mp hfind t ht
        obtain ⟨j, ⟨hscan, hloop⟩ | ⟨source', t, hscan, hmem, hcan, hloop⟩⟩ :=
          ih (s := { s with sourceIndices := Function.update s.sourceIndices c next }) hqueued
        · change scan _ (s.sourceReady policy env) n (Function.update s.sourceIndices c next c) = _
            at hscan
          rw [Function.update_self] at hscan
          refine ⟨j, Or.inl ⟨by rw [hready]; exact hscan, ?_⟩⟩
          rw [hloop, Function.update_idem]
        · change scan _ (s.sourceReady policy env) n (Function.update s.sourceIndices c next c) = _
            at hscan
          rw [Function.update_self] at hscan
          refine ⟨j, Or.inr ⟨source', t, by rw [hready]; exact hscan, hmem, hcan, ?_⟩⟩
          rw [hloop, Function.update_idem]

/-- When the class is not ready, `_select_source_ticket_locked` changes nothing; otherwise it scans
the cycle of the class. -/
theorem selectSourceTicket_spec (policy : SchedulerPolicy) (env : Environment) (c : RpcServiceClass)
    (hqueued : s.AllQueued) (hcursor : s.sourceIndices c < (sourceCycle c).length) :
    (s.classReady policy env c = false ∧ selectSourceTicket policy env c s = (none, s)) ∨
      (s.classReady policy env c = true ∧ ∃ source t j,
        scan (sourceCycle c) (s.sourceReady policy env) (sourceCycle c).length
          (s.sourceIndices c) = (some source, j) ∧
        t ∈ s.queues source ∧ s.canDispatch policy env t = true ∧
        selectSourceTicket policy env c s = (some t, { s with
          sourceIndices := Function.update s.sourceIndices c j
          queues := Function.update s.queues source ((s.queues source).erase t) })) := by
  obtain ⟨j, ⟨hscan, hloop⟩ | ⟨source, t, hscan, hmem, hcan, hloop⟩⟩ :=
    selectSourceLoop_spec policy env c (sourceCycle c).length hqueued
  · obtain ⟨rfl, hnone⟩ := scan_length_none hcursor hscan
    refine Or.inl ⟨List.any_eq_false.mpr fun source hmem => by simp [hnone source hmem], ?_⟩
    rw [selectSourceTicket, hloop, Function.update_eq_self]
  · obtain ⟨hready, m, -, skipped, hupcoming, -⟩ := scan_some hcursor hscan
    have hsource : source.serviceClass = c := by
      have hin : source ∈ upcoming (sourceCycle c) (m + 1) (s.sourceIndices c) := by
        rw [hupcoming]
        simp
      exact mem_sourceCycle.mp (mem_of_mem_upcoming hin)
    exact Or.inr ⟨List.any_eq_true.mpr ⟨source, mem_sourceCycle.mpr hsource, hready⟩,
      source, t, j, hscan, hmem, hcan, hloop⟩

/-- `_select_ticket_locked` scans the fair cycle for a class with a dispatchable ticket, and the
cycle of that class for a source with one; it takes the ticket and moves these two cursors. -/
theorem selectTicketLoop_spec (policy : SchedulerPolicy) (env : Environment) (n : ℕ)
    (hqueued : s.AllQueued) (hcursor : ∀ c, s.sourceIndices c < (sourceCycle c).length) :
    ∃ i, (scan policy.fairCycle (s.classReady policy env) n s.fairIndex = (none, i) ∧
        selectTicketLoop policy env n s = (none, { s with fairIndex := i })) ∨
      ∃ c source t j,
        scan policy.fairCycle (s.classReady policy env) n s.fairIndex = (some c, i) ∧
        scan (sourceCycle c) (s.sourceReady policy env) (sourceCycle c).length
          (s.sourceIndices c) = (some source, j) ∧
        t ∈ s.queues source ∧ s.canDispatch policy env t = true ∧
        selectTicketLoop policy env n s = (some t, { s with
          fairIndex := i
          sourceIndices := Function.update s.sourceIndices c j
          queues := Function.update s.queues source ((s.queues source).erase t) }) := by
  induction n generalizing s with
  | zero => exact ⟨s.fairIndex, Or.inl ⟨rfl, rfl⟩⟩
  | succ n ih =>
    rw [selectTicketLoop, scan]
    cases hclass : policy.fairCycle[s.fairIndex]? with
    | none => exact ⟨s.fairIndex, Or.inl ⟨rfl, rfl⟩⟩
    | some c =>
      dsimp only
      generalize (s.fairIndex + 1) % policy.fairCycle.length = next
      rcases selectSourceTicket_spec policy env
        (s := { s with fairIndex := next }) c hqueued (hcursor c) with
        ⟨hready, hselect⟩ | ⟨hready, source, t, j, hscan, hmem, hcan, hselect⟩
      · have hready' : s.classReady policy env c = false := hready
        rw [hselect, hready']
        obtain ⟨i, ⟨hscan, hloop⟩ | ⟨c', source, t, j, hscan, hsource, hmem, hcan, hloop⟩⟩ :=
          ih (s := { s with fairIndex := next }) hqueued hcursor
        · exact ⟨i, Or.inl ⟨hscan, hloop⟩⟩
        · exact ⟨i, Or.inr ⟨c', source, t, j, hscan, hsource, hmem, hcan, hloop⟩⟩
      · have hready' : s.classReady policy env c = true := hready
        rw [hselect, hready']
        exact ⟨next, Or.inr ⟨c, source, t, j, rfl, hscan, hmem, hcan, rfl⟩⟩

/-- What `_select_ticket_locked` answers. -/
theorem selectTicket_spec (env : Environment) (hqueued : s.AllQueued)
    (hcursor : s.CursorsInRange policy) :
    selectTicket policy env s = (none, s) ∨
      ∃ c source t i j,
        scan policy.fairCycle (s.classReady policy env) policy.fairCycle.length s.fairIndex =
          (some c, i) ∧
        scan (sourceCycle c) (s.sourceReady policy env) (sourceCycle c).length
          (s.sourceIndices c) = (some source, j) ∧
        t ∈ s.queues source ∧ s.canDispatch policy env t = true ∧
        selectTicket policy env s = (some t, { s with
          fairIndex := i
          sourceIndices := Function.update s.sourceIndices c j
          queues := Function.update s.queues source ((s.queues source).erase t) }) := by
  obtain ⟨i, ⟨hscan, hloop⟩ | ⟨c, source, t, j, hscan, hsource, hmem, hcan, hloop⟩⟩ :=
    selectTicketLoop_spec policy env policy.fairCycle.length hqueued
      hcursor.source
  · obtain ⟨rfl, -⟩ := scan_length_none hcursor.fair hscan
    exact Or.inl hloop
  · exact Or.inr ⟨c, source, t, i, j, hscan, hsource, hmem, hcan, hloop⟩

/-- What holds before a selection. -/
theorem Valid.prepareSelection (h : s.Valid policy) (env : Environment) :
    Moves policy s (s.prepareSelection env) := by
  have hdefer := deferHeldTickets_moves env h
  have hprune := pruneDone_moves policy (s.deferHeldTickets env)
  exact (hdefer.trans hprune).trans (expireDue_moves _ (hprune.valid (hdefer.valid h)))

theorem control_prepareSelection (env : Environment) (s : AdmissionScheduler) :
    (s.prepareSelection env).control = s.control := by
  simp [AdmissionScheduler.prepareSelection]

/-- The selected ticket is taken from its queue, and only cursors move besides. -/
theorem dispatchOneReadyTicket_moves (h : s.Valid policy) (hcursor : s.CursorsInRange policy) :
    Moves policy s (s.dispatchOneReadyTicket policy env) := by
  have hprepare := h.prepareSelection env
  have hvalid := hprepare.valid h
  have hcontrol := control_prepareSelection env s
  have hfair : (s.prepareSelection env).fairIndex = s.fairIndex :=
    congrArg Control.fairIndex hcontrol
  have hsources : (s.prepareSelection env).sourceIndices = s.sourceIndices :=
    congrArg Control.sourceIndices hcontrol
  have hcursor' : (s.prepareSelection env).CursorsInRange policy :=
    ⟨hfair ▸ hcursor.fair, hsources ▸ hcursor.source⟩
  unfold dispatchOneReadyTicket
  dsimp only
  split
  · exact hprepare
  · rename_i hgo
    generalize s.prepareSelection env = before at hprepare hvalid hcursor' hgo
    rcases selectTicket_spec env hvalid.queued hcursor' with
      heq | ⟨c, source, t, i, j, -, -, hmem, -, heq⟩
    · rw [heq]
      exact hprepare
    · rw [heq]
      obtain ⟨rfl, -⟩ := hvalid.scopes source t hmem
      have hmoved : Moves policy before { before with
          fairIndex := i, sourceIndices := Function.update before.sourceIndices c j } :=
        Moves.of_same ⟨rfl, rfl, rfl, rfl, rfl, rfl, rfl, id⟩
      have hopen : before.closed = false := by simpa using (not_or.mp hgo).1
      exact (hprepare.trans hmoved).trans (.single (.activate env t hopen hmem))

theorem acquireDispatchCapacity_moves (h : s.Valid policy) :
    Moves policy s (s.acquireDispatchCapacity policy env) := by
  have hprune := pruneDone_moves policy s
  have hexpire := hprune.trans (expireDue_moves env (hprune.valid h))
  unfold acquireDispatchCapacity
  dsimp only
  generalize (s.pruneDone).expireDue env = before at hexpire
  have hidle : Moves policy s { before with dispatcher := .idle } :=
    hexpire.trans (Moves.of_same ⟨rfl, rfl, rfl, rfl, rfl, rfl, rfl, id⟩)
  split
  · split
    · exact hidle.trans (ensureDispatcher_moves (hidle.valid h))
    · exact hidle
  · exact hexpire.trans (Moves.of_same ⟨rfl, rfl, rfl, rfl, rfl, rfl, rfl, id⟩)

theorem startShutdown_same (s : AdmissionScheduler) : SameTickets s s.startShutdown := by
  unfold startShutdown
  split
  · exact ⟨rfl, rfl, rfl, rfl, rfl, rfl, rfl, id⟩
  · exact ⟨rfl, rfl, rfl, rfl, rfl, rfl, rfl, fun _ => rfl⟩

theorem drainShutdown_moves (h : s.Valid policy) : Moves policy s s.drainShutdown := by
  have hclear : Moves policy s s.closeQueuedTickets.clearActive :=
    (closeQueuedTickets_moves h).trans (.single .clear)
  exact hclear.trans (Moves.of_same ⟨rfl, rfl, rfl, rfl, rfl, rfl, rfl, id⟩)

end AdmissionScheduler

/-! ## Events -/

namespace SchedulerWorld

open AdmissionScheduler

variable {policy : SchedulerPolicy}

/-- Recording the turns of a selection changes the history only. -/
theorem recordTurns_eq (policy : SchedulerPolicy) (w : SchedulerWorld)
    (before : AdmissionScheduler) :
    ∃ classTurns sourceTurns, w.recordTurns policy before =
      { w with classTurns := classTurns, sourceTurns := sourceTurns } := by
  unfold recordTurns
  split
  · exact ⟨w.classTurns, w.sourceTurns, rfl⟩
  · exact ⟨_, _, rfl⟩

/-- A cancelled caller touches its ticket in nothing but the future and the caller. -/
theorem callerCancelled_moves (s : AdmissionScheduler) (t : AdmissionTicket) :
    Moves policy s ((s.resolve t .cancelled).modifyCell t.sequence fun cell =>
      { cell with caller := .cancelling }) := by
  have heq : ((s.resolve t .cancelled).modifyCell t.sequence fun cell =>
      { cell with caller := .cancelling }) = s.modifyCell t.sequence fun cell =>
        if cell.future = .pending then
          { cell with
            future := .cancelled, resolutions := .cancelled :: cell.resolutions,
            caller := .cancelling }
        else { cell with caller := .cancelling } := by
    simp only [resolve, modifyCell, Function.update_self, Function.update_idem]
    split <;> rfl
  rw [heq]
  refine .single (.touch t _ ?_)
  by_cases hpending : (s.cells t.sequence).future = .pending
  · simp only [hpending, if_true]
    exact ⟨rfl, rfl, fun _ => rfl, Or.inr ⟨hpending, by simp, rfl⟩, fun _ => Or.inl rfl⟩
  · simp only [hpending, if_false]
    exact ⟨rfl, rfl, fun _ => rfl, Or.inl ⟨rfl, rfl⟩, fun _ => Or.inl rfl⟩

/-- A caller that leaves `admit` touches its ticket in nothing but the caller, once the ticket is
not queued any more. -/
theorem callerReturned_moves (s : AdmissionScheduler) (t : AdmissionTicket)
    (hstate : (s.cells t.sequence).state ≠ .queued) :
    Moves policy s (s.modifyCell t.sequence fun cell => { cell with caller := .returned }) :=
  .single (.touch t _ ⟨rfl, rfl, fun _ => rfl, Or.inl ⟨rfl, rfl⟩,
    fun hqueued => absurd hqueued hstate⟩)

/-- A fired timer of a ticket that is not queued touches nothing but the timer. -/
theorem cancelTimer_moves (s : AdmissionScheduler) (t : AdmissionTicket)
    (hstate : (s.cells t.sequence).state ≠ .queued) : Moves policy s (s.cancelTimer t) :=
  .single (.touch t _ ⟨rfl, rfl, fun hqueued => absurd hqueued hstate, Or.inl ⟨rfl, rfl⟩,
    fun _ => Or.inr ⟨rfl, rfl⟩⟩)

/-- `_cancel_ticket` and `_expire_ticket` leave no ticket queued. -/
theorem state_cancelTicket (s : AdmissionScheduler) (t : AdmissionTicket) :
    ((s.cancelTicket t).cells t.sequence).state ≠ .queued := by
  by_cases hqueued : (s.cells t.sequence).state = .queued
  · rw [cancelTicket_eq s t hqueued]
    simp [AdmissionScheduler.leave, state_leave]
  · rw [cancelTicket, if_neg hqueued]
    split
    · unfold popActive
      split
      · exact hqueued
      · exact hqueued
    · exact hqueued

theorem state_expireTicket (s : AdmissionScheduler) (t : AdmissionTicket) :
    ((s.expireTicket t).cells t.sequence).state ≠ .queued := by
  by_cases hqueued : (s.cells t.sequence).state = .queued
  · rw [expireTicket_eq s t hqueued]
    simp [AdmissionScheduler.leave, state_leave]
  · rw [expireTicket, if_pos hqueued]
    exact hqueued

/-- Every event is a sequence of moves. -/
theorem step_moves {w w' : SchedulerWorld} {event : SchedulerEvent}
    (h : w.scheduler.Valid policy) (hcursor : w.scheduler.CursorsInRange policy)
    (hstep : step policy w event = some w') : Moves policy w.scheduler w'.scheduler := by
  cases event with
  | advance now =>
    simp only [step] at hstep
    split_ifs at hstep
    obtain rfl := Option.some.inj hstep
    exact .refl
  | setReady ready =>
    obtain rfl := Option.some.inj hstep
    exact .refl
  | eligibilityChanged releaseAt deferral =>
    obtain rfl := Option.some.inj hstep
    exact notifyEligibilityChanged_moves h
  | admitScope scope =>
    obtain rfl := Option.some.inj hstep
    exact admitScope_moves h scope
  | callerCancelled t =>
    simp only [step] at hstep
    split_ifs at hstep
    obtain rfl := Option.some.inj hstep
    exact callerCancelled_moves _ t
  | cancelTicket t =>
    simp only [step] at hstep
    split_ifs at hstep with ht
    all_goals
      obtain rfl := Option.some.inj hstep
      exact (cancelTicket_moves _ t ht.1).trans
        (callerReturned_moves _ t (state_cancelTicket _ t))
  | callerResumed t =>
    simp only [step] at hstep
    split_ifs at hstep with ht
    obtain rfl := Option.some.inj hstep
    refine callerReturned_moves _ t fun hqueued => ?_
    -- a queued ticket whose caller waits has its future pending
    have hpresent := h.present t ht.1 hqueued (by rw [ht.2.1]; simp)
    exact ht.2.2 hpresent.2
  | expireTimer t =>
    simp only [step] at hstep
    split_ifs at hstep with ht
    obtain rfl := Option.some.inj hstep
    exact (expireTicket_moves _ t ht.1).trans (cancelTimer_moves _ t (state_expireTicket _ t))
  | expireDue =>
    obtain rfl := Option.some.inj hstep
    exact expireDue_moves _ h
  | releaseReady =>
    simp only [step] at hstep
    split_ifs at hstep
    obtain rfl := Option.some.inj hstep
    exact notifyEligibilityChanged_moves h
  | dispatcherReady =>
    simp only [step] at hstep
    split_ifs at hstep
    obtain rfl := Option.some.inj hstep
    exact acquireDispatchCapacity_moves h
  | dispatcherLimited =>
    simp only [step] at hstep
    split_ifs at hstep
    all_goals
      obtain rfl := Option.some.inj hstep
    · exact (dispatchOneReadyTicket_moves h hcursor).trans
        (Moves.of_same ⟨rfl, rfl, rfl, rfl, rfl, rfl, rfl, id⟩)
    · exact (dispatchOneReadyTicket_moves h hcursor).trans
        (Moves.of_same ⟨rfl, rfl, rfl, rfl, rfl, rfl, rfl, id⟩)
    · exact Moves.of_same ⟨rfl, rfl, rfl, rfl, rfl, rfl, rfl, id⟩
  | dispatcherFailed =>
    simp only [step] at hstep
    split_ifs at hstep
    obtain rfl := Option.some.inj hstep
    exact (Moves.of_same (startShutdown_same _)).trans
      (Moves.of_same ⟨rfl, rfl, rfl, rfl, rfl, rfl, rfl, id⟩)
  | dispatcherCancelled =>
    simp only [step] at hstep
    split_ifs at hstep
    obtain rfl := Option.some.inj hstep
    exact Moves.of_same ⟨rfl, rfl, rfl, rfl, rfl, rfl, rfl, id⟩
  | recordDispatch admission =>
    obtain rfl := Option.some.inj hstep
    exact recordDispatch_moves _ admission
  | complete admission =>
    obtain rfl := Option.some.inj hstep
    exact complete_moves h admission
  | startShutdown =>
    obtain rfl := Option.some.inj hstep
    exact Moves.of_same (startShutdown_same _)
  | drainShutdown =>
    simp only [step] at hstep
    split_ifs at hstep
    obtain rfl := Option.some.inj hstep
    exact drainShutdown_moves h

end SchedulerWorld

end McpTelegram
