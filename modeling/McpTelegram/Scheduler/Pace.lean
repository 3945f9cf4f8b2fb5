import McpTelegram.Scheduler.Steps

/-!
# The cursors and the pacing

Beside the tickets the scheduler keeps two cursors, which only a selection moves, and the time of
the next write, which only a granted write moves.  `SchedulerWorld.Sound` is the invariant of a run
that everything else builds on: the tickets are valid, and the cursors point into their cycles.
-/

namespace McpTelegram

open Foundations Relation

/-! ## The fair cycle -/

namespace SchedulerPolicy

/-- The chosen class has the greatest score. -/
theorem le_selectClass (scores : RpcServiceClass → ℤ) (c : RpcServiceClass) :
    scores c ≤ scores (selectClass scores) := by
  unfold selectClass
  dsimp only
  cases c <;> split_ifs <;> omega

theorem divisor_pos (policy : SchedulerPolicy) : 0 < policy.divisor :=
  Nat.gcd_pos_of_pos_right _ (policy.weight_pos .background)

/-- The divisor divides every weight. -/
theorem divisor_dvd (policy : SchedulerPolicy) (c : RpcServiceClass) :
    policy.divisor ∣ policy.weight c := by
  cases c with
  | interactive => exact (Nat.gcd_dvd_left _ _).trans (Nat.gcd_dvd_left _ _)
  | liveSync => exact (Nat.gcd_dvd_left _ _).trans (Nat.gcd_dvd_right _ _)
  | background => exact Nat.gcd_dvd_right _ _

/-- The normalized weights are positive. -/
theorem normalized_pos (policy : SchedulerPolicy) (c : RpcServiceClass) : 0 < policy.normalized c :=
  Nat.div_pos (Nat.le_of_dvd (policy.weight_pos c) (policy.divisor_dvd c)) policy.divisor_pos

@[simp] theorem length_fairCycle (policy : SchedulerPolicy) :
    policy.fairCycle.length = policy.total := length_smoothCycle _ _

/-- The fair cycle is not empty. -/
theorem fairCycle_pos (policy : SchedulerPolicy) : 0 < policy.fairCycle.length := by
  rw [length_fairCycle, total]
  have := policy.normalized_pos .interactive
  omega

/-- A sum over the service classes. -/
theorem sum_classes (f : RpcServiceClass → ℤ) :
    ∑ c, f c = f .interactive + f .liveSync + f .background := by
  have huniv : (Finset.univ : Finset RpcServiceClass) =
      {.interactive, .liveSync, .background} := rfl
  rw [huniv, Finset.sum_insert (by decide), Finset.sum_insert (by decide), Finset.sum_singleton]
  ring

/-- The normalized weights add up to the total. -/
theorem sum_normalized (policy : SchedulerPolicy) :
    ∑ c, (policy.normalized c : ℤ) = (policy.total : ℤ) := by
  rw [sum_classes, total]
  push_cast
  ring

/-- Every class occurs in the fair cycle as often as its normalized weight says. -/
theorem count_fairCycle (policy : SchedulerPolicy) (c : RpcServiceClass) :
    policy.fairCycle.count c = policy.normalized c := by
  have hcount := count_smoothCycle policy.sum_normalized
    (fun x => by exact_mod_cast policy.normalized_pos x) le_selectClass c
  exact_mod_cast hcount

/-- The scores after the first `k` rounds of the fair cycle. -/
def scoresAfter (policy : SchedulerPolicy) (k : ℕ) : RpcServiceClass → ℤ :=
  (smoothRound (fun c => (policy.normalized c : ℤ)) policy.total selectClass)^[k] 0

/-- The scores say how far the occurrences of a class in a prefix are from its share. -/
theorem scoresAfter_eq (policy : SchedulerPolicy) {k : ℕ} (hk : k ≤ policy.total)
    (c : RpcServiceClass) :
    policy.scoresAfter k c =
      k * policy.normalized c - policy.total * (policy.fairCycle.take k).count c := by
  rw [scoresAfter, smoothCycle_scores, fairCycle, take_smoothCycle hk, Pi.zero_apply, zero_add]

/-- No score is a total below zero or two totals above it. -/
theorem scoresAfter_bounds (policy : SchedulerPolicy) (k : ℕ) (c : RpcServiceClass) :
    -(policy.total : ℤ) < policy.scoresAfter k c ∧ policy.scoresAfter k c < 2 * policy.total := by
  obtain ⟨hsum, hlower⟩ := smoothRound_iterate policy.sum_normalized
    (fun x => by exact_mod_cast policy.normalized_pos x) le_selectClass c k
  rw [sum_classes] at hsum
  have hinteractive := hlower .interactive
  have hliveSync := hlower .liveSync
  have hbackground := hlower .background
  rw [scoresAfter]
  -- the scores add up to zero, so one is at most two totals above it
  cases c with
  | interactive => exact ⟨hinteractive, by omega⟩
  | liveSync => exact ⟨hliveSync, by omega⟩
  | background => exact ⟨hbackground, by omega⟩

/-- The fair cycle is smooth: every class occurs as often as its weight says, in every prefix its
lag and its burst are bounded, and the scores end level. -/
theorem fairCycle_smooth (policy : SchedulerPolicy) :
    policy.fairCycle.length = policy.total ∧
    (∀ c, policy.fairCycle.count c = policy.normalized c) ∧
    (∀ k ≤ policy.total, ∀ c,
      -(policy.total : ℤ) <
          k * policy.normalized c - policy.total * (policy.fairCycle.take k).count c ∧
        (k : ℤ) * policy.normalized c - policy.total * (policy.fairCycle.take k).count c <
          2 * policy.total) ∧
    policy.scoresAfter policy.total = 0 := by
  refine ⟨policy.length_fairCycle, policy.count_fairCycle, fun k hk c => ?_, ?_⟩
  · rw [← policy.scoresAfter_eq hk]
    exact policy.scoresAfter_bounds k c
  · funext c
    rw [policy.scoresAfter_eq le_rfl, List.take_of_length_le policy.length_fairCycle.le,
      count_fairCycle, Pi.zero_apply, sub_self]

end SchedulerPolicy

theorem sourceCycle_pos (c : RpcServiceClass) : 0 < (sourceCycle c).length := by
  cases c <;> decide

/-! ## The cursors -/

namespace AdmissionScheduler

variable {policy : SchedulerPolicy} {env : Environment}
variable {s s' : AdmissionScheduler}

/-- The two cursors. -/
def cursors (s : AdmissionScheduler) : ℕ × (RpcServiceClass → ℕ) := (s.fairIndex, s.sourceIndices)

/-- The two cursors and the time of the next write. -/
def pace (s : AdmissionScheduler) : (ℕ × (RpcServiceClass → ℕ)) × ℚ := (s.cursors, s.nextWriteAt)

/-- What leaves the fields beside the tickets alone leaves the cursors and the pacing alone. -/
theorem pace_of_control (h : s'.control = s.control) : s'.pace = s.pace :=
  congrArg (fun control => ((control.fairIndex, control.sourceIndices), control.nextWriteAt)) h

theorem cursors_of_pace (h : s'.pace = s.pace) :
    s'.cursors = s.cursors := congrArg Prod.fst h

@[simp] theorem pace_ensureDispatcher (s : AdmissionScheduler) :
    (s.ensureDispatcher policy env).pace = s.pace := by
  obtain ⟨handle, dispatcher, heq | heq⟩ := ensureDispatcher_eq policy env s
  · rw [heq]
  · have hdefer := pace_of_control (control_deferHeldTickets env s)
    rw [heq]
    exact hdefer

@[simp] theorem pace_admitScope (s : AdmissionScheduler) (scope : RpcScope) :
    (s.admitScope policy env scope).2.pace = s.pace := by
  rcases s.admitScope_cases policy env scope with heq | heq |
    ⟨t, -, -, -, heq, -⟩
  · rw [heq]
  · rw [heq]
    rfl
  · rw [heq, pace_ensureDispatcher]
    rfl

@[simp] theorem pace_complete (s : AdmissionScheduler) (admission : RpcAdmission) :
    (s.complete policy env admission).pace = s.pace := by
  unfold complete
  split
  · rfl
  · dsimp only
    split
    · rw [pace_ensureDispatcher]
      exact pace_of_control (control_popActive s _)
    · exact pace_of_control (control_popActive s _)

@[simp] theorem cursors_recordDispatch (s : AdmissionScheduler) (admission : RpcAdmission) :
    (s.recordDispatch policy env admission).2.cursors = s.cursors := by
  rcases s.recordDispatch_cases policy env admission with heq |
    ⟨attempt, -, -, -, -, -, heq⟩
  · rw [heq]
  · rw [heq]
    obtain ⟨handle, hschedule⟩ := scheduleRelease_eq env { s with
      active := s.active.insert admission.sequence { attempt with dispatchRecorded := true }
      nextWriteAt := env.now + policy.minimumSpacingSeconds }
    rw [hschedule]
    rfl

@[simp] theorem pace_acquireDispatchCapacity (s : AdmissionScheduler) :
    (s.acquireDispatchCapacity policy env).pace = s.pace := by
  have hpace : ((s.pruneDone).expireDue env).pace = s.pace :=
    pace_of_control (by simp)
  unfold acquireDispatchCapacity
  dsimp only
  split_ifs
  · rw [pace_ensureDispatcher]
    exact hpace
  · exact hpace
  · exact hpace

@[simp] theorem pace_startShutdown (s : AdmissionScheduler) : s.startShutdown.pace = s.pace := by
  unfold startShutdown
  split <;> rfl

/-- Cursors that are where they were are still in range. -/
theorem CursorsInRange.of_cursors (h : s.CursorsInRange policy) (heq : s'.cursors = s.cursors) :
    s'.CursorsInRange policy := by
  obtain ⟨hfair, hsource⟩ := Prod.ext_iff.mp heq
  exact ⟨by rw [show s'.fairIndex = s.fairIndex from hfair]; exact h.fair,
    fun c => by rw [show s'.sourceIndices = s.sourceIndices from hsource]; exact h.source c⟩

/-- The cursor that a successful scan leaves is in range. -/
theorem scan_lt {α : Type*} {cycle : List α} {ready : α → Bool} {n i j : ℕ} {x : α}
    (hi : i < cycle.length) (h : scan cycle ready n i = (some x, j)) : j < cycle.length := by
  obtain ⟨-, m, hj, -⟩ := scan_some hi h
  rw [hj]
  exact Nat.mod_lt _ (by omega)

/-- What `_dispatch_one_ready_ticket` does to the cursors: nothing when it selects no ticket, and
otherwise the class cursor and the source cursor of one class move as in a scan of their cycles. -/
theorem dispatchOneReadyTicket_cursors (env : Environment) (h : s.Valid policy)
    (hcursor : s.CursorsInRange policy) :
    ((s.dispatchOneReadyTicket policy env).cursors = s.cursors ∧
        ((s.prepareSelection env).closed = true ∨ env.ready = false ∨
          ((s.prepareSelection env).selectTicket policy env).1 = none)) ∨
      ∃ c source t i j after, (s.prepareSelection env).closed = false ∧ env.ready = true ∧
        t.scope.source = source ∧ t.scope.serviceClass = c ∧
        scan policy.fairCycle ((s.prepareSelection env).classReady policy env)
          policy.fairCycle.length s.fairIndex = (some c, i) ∧
        scan (sourceCycle c) ((s.prepareSelection env).sourceReady policy env)
          (sourceCycle c).length (s.sourceIndices c) = (some source, j) ∧
        (s.prepareSelection env).selectTicket policy env = (some t, after) ∧
        after.cursors = (i, Function.update s.sourceIndices c j) ∧
        (s.dispatchOneReadyTicket policy env).cursors =
          (i, Function.update s.sourceIndices c j) := by
  have hvalid := (h.prepareSelection env).valid h
  have hcontrol := cursors_of_pace (pace_of_control (control_prepareSelection env s))
  have hfair : (s.prepareSelection env).fairIndex = s.fairIndex := congrArg Prod.fst hcontrol
  have hsources : (s.prepareSelection env).sourceIndices = s.sourceIndices :=
    congrArg Prod.snd hcontrol
  have hcursor' := hcursor.of_cursors hcontrol
  unfold dispatchOneReadyTicket
  dsimp only
  split
  · rename_i hstop
    exact Or.inl ⟨hcontrol, by tauto⟩
  · rename_i hgo
    push Not at hgo
    rcases selectTicket_spec env hvalid.queued hcursor' with
      heq | ⟨c, source, t, i, j, hscan, hsource, hmem, -, heq⟩
    · rw [heq]
      exact Or.inl ⟨hcontrol, Or.inr (Or.inr rfl)⟩
    · rw [hfair] at hscan
      rw [hsources] at hsource heq
      have hin : source ∈ sourceCycle c := by
        obtain ⟨-, m, -, skipped, hupcoming, -⟩ := scan_some (hcursor.source c) hsource
        exact mem_of_mem_upcoming (n := m + 1) (by rw [hupcoming]; simp)
      obtain ⟨hscope, hclass⟩ := hvalid.scopes source t hmem
      refine Or.inr ⟨c, source, t, i, j, _, by simpa using hgo.1, by simpa using hgo.2, hscope,
        hclass.trans (mem_sourceCycle.mp hin), hscan, hsource, heq, rfl, ?_⟩
      rw [heq]
      rfl

/-- A selection moves the cursors, and leaves alone everything else beside the tickets. -/
theorem control_dispatchOneReadyTicket (env : Environment) (h : s.Valid policy)
    (hcursor : s.CursorsInRange policy) :
    ∃ i indices, (s.dispatchOneReadyTicket policy env).control =
      { s.control with fairIndex := i, sourceIndices := indices } := by
  have hvalid := (h.prepareSelection env).valid h
  have hcontrol := control_prepareSelection env s
  have hcursor' := hcursor.of_cursors (cursors_of_pace (pace_of_control hcontrol))
  unfold dispatchOneReadyTicket
  dsimp only
  split
  · exact ⟨s.fairIndex, s.sourceIndices, hcontrol⟩
  · rcases selectTicket_spec env hvalid.queued hcursor' with
      heq | ⟨c, source, t, i, j, -, -, -, -, heq⟩
    · rw [heq]
      exact ⟨s.fairIndex, s.sourceIndices, hcontrol⟩
    · rw [heq]
      refine ⟨i, Function.update (s.prepareSelection env).sourceIndices c j, ?_⟩
      rw [← hcontrol]
      rfl

end AdmissionScheduler

/-! ## Runs -/

namespace SchedulerWorld

open AdmissionScheduler

variable {policy : SchedulerPolicy}
variable {w w' : SchedulerWorld} {event : SchedulerEvent}

/-- What holds of the scheduler in every state of a run. -/
structure Sound (policy : SchedulerPolicy) (w : SchedulerWorld) : Prop where
  valid : w.scheduler.Valid policy
  cursors : w.scheduler.CursorsInRange policy

/-- Only a selection moves the cursors, and only a granted write moves the time of the next one. -/
theorem step_pace (hstep : step policy w event = some w') (hlimited : event ≠ .dispatcherLimited)
    (hrecord : ∀ admission, event ≠ .recordDispatch admission) :
    w'.scheduler.pace = w.scheduler.pace ∧ w'.classTurns = w.classTurns ∧
      w'.sourceTurns = w.sourceTurns := by
  cases event with
  | dispatcherLimited => exact absurd rfl hlimited
  | recordDispatch admission => exact absurd rfl (hrecord admission)
  | drainShutdown =>
    simp only [step] at hstep
    split_ifs at hstep
    obtain rfl := Option.some.inj hstep
    have hclose := pace_of_control (control_closeQueuedTickets w.scheduler)
    exact ⟨hclose, rfl, rfl⟩
  | expireDue =>
    obtain rfl := Option.some.inj hstep
    exact ⟨pace_of_control (control_expireDue _), rfl, rfl⟩
  | cancelTicket t =>
    simp only [step] at hstep
    split_ifs at hstep
    all_goals
      obtain rfl := Option.some.inj hstep
      have hcancel := pace_of_control (control_cancelTicket w.scheduler t)
      exact ⟨hcancel, rfl, rfl⟩
  | expireTimer t =>
    simp only [step] at hstep
    split_ifs at hstep
    obtain rfl := Option.some.inj hstep
    have hexpire := pace_of_control (control_expireTicket w.scheduler t)
    exact ⟨hexpire, rfl, rfl⟩
  | eligibilityChanged releaseAt deferral =>
    obtain rfl := Option.some.inj hstep
    exact ⟨pace_ensureDispatcher _, rfl, rfl⟩
  | releaseReady =>
    simp only [step] at hstep
    split_ifs at hstep
    obtain rfl := Option.some.inj hstep
    exact ⟨pace_ensureDispatcher _, rfl, rfl⟩
  | admitScope scope =>
    obtain rfl := Option.some.inj hstep
    exact ⟨pace_admitScope _ scope, rfl, rfl⟩
  | complete admission =>
    obtain rfl := Option.some.inj hstep
    exact ⟨pace_complete _ admission, rfl, rfl⟩
  | startShutdown =>
    obtain rfl := Option.some.inj hstep
    exact ⟨pace_startShutdown _, rfl, rfl⟩
  | dispatcherFailed =>
    simp only [step] at hstep
    split_ifs at hstep
    obtain rfl := Option.some.inj hstep
    exact ⟨pace_startShutdown _, rfl, rfl⟩
  | dispatcherReady =>
    simp only [step] at hstep
    split_ifs at hstep
    obtain rfl := Option.some.inj hstep
    exact ⟨pace_acquireDispatchCapacity _, rfl, rfl⟩
  | setReady ready =>
    obtain rfl := Option.some.inj hstep
    exact ⟨rfl, rfl, rfl⟩
  | advance | callerCancelled | callerResumed | dispatcherCancelled =>
    simp only [step] at hstep
    split_ifs at hstep
    obtain rfl := Option.some.inj hstep
    exact ⟨rfl, rfl, rfl⟩

/-- Only a selection moves the cursors. -/
theorem step_cursors (hstep : step policy w event = some w') (hevent : event ≠ .dispatcherLimited) :
    w'.scheduler.cursors = w.scheduler.cursors ∧ w'.classTurns = w.classTurns ∧
      w'.sourceTurns = w.sourceTurns := by
  by_cases hrecord : ∃ admission, event = .recordDispatch admission
  · obtain ⟨admission, rfl⟩ := hrecord
    obtain rfl := Option.some.inj hstep
    exact ⟨cursors_recordDispatch _ admission, rfl, rfl⟩
  · push Not at hrecord
    obtain ⟨hpace, hturns⟩ := step_pace hstep hevent hrecord
    exact ⟨cursors_of_pace hpace, hturns⟩

/-- Only a granted write moves the time of the next one. -/
theorem step_nextWriteAt (h : w.Sound policy) (hstep : step policy w event = some w')
    (hevent : ∀ admission, event ≠ .recordDispatch admission) :
    w'.scheduler.nextWriteAt = w.scheduler.nextWriteAt := by
  by_cases hlimited : event = .dispatcherLimited
  · subst hlimited
    simp only [step] at hstep
    split_ifs at hstep
    all_goals obtain rfl := Option.some.inj hstep
    · obtain ⟨i, indices, hcontrol⟩ := control_dispatchOneReadyTicket _ h.valid h.cursors
      exact congrArg Control.nextWriteAt hcontrol
    · obtain ⟨i, indices, hcontrol⟩ := control_dispatchOneReadyTicket _ h.valid h.cursors
      exact congrArg Control.nextWriteAt hcontrol
    · rfl
  · exact congrArg Prod.snd (step_pace hstep hlimited hevent).1

/-- What the dispatcher does behind the limiter: the cursors stay and no turn is recorded, or the
selection is recorded as a turn of the class cursor and one of the source cursor of that class. -/
theorem dispatcherLimited_turns (h : w.Sound policy)
    (hstep : step policy w .dispatcherLimited = some w') :
    (w'.scheduler.cursors = w.scheduler.cursors ∧ w'.classTurns = w.classTurns ∧
        w'.sourceTurns = w.sourceTurns) ∨
      ∃ (turn : Turn RpcServiceClass) (sourceTurn : Turn TelegramRpcSource),
        turn.Fits policy.fairCycle ∧ sourceTurn.Fits (sourceCycle turn.picked) ∧
        turn.before = w.scheduler.fairIndex ∧
        sourceTurn.before = w.scheduler.sourceIndices turn.picked ∧
        w'.scheduler.cursors = (turn.after,
          Function.update w.scheduler.sourceIndices turn.picked sourceTurn.after) ∧
        w'.classTurns = w.classTurns ++ [turn] ∧
        w'.sourceTurns = Function.update w.sourceTurns turn.picked
          (w.sourceTurns turn.picked ++ [sourceTurn]) := by
  simp only [step] at hstep
  by_cases hphase : w.scheduler.dispatcher = .waitingLimiter
  · rw [if_pos hphase] at hstep
    by_cases hready : w.env.ready = true
    · rw [if_pos hready] at hstep
      obtain rfl := Option.some.inj hstep
      rcases dispatchOneReadyTicket_cursors w.env h.valid h.cursors with
        ⟨hcursors, hnone⟩ | ⟨c, source, t, i, j, after, hopen, -, hscope, hclass, hscan, hsource,
          hselect, hafter, hcursors⟩
      · have hrecord : (if (w.scheduler.prepareSelection w.env).closed = true then w
            else w.recordTurns policy (w.scheduler.prepareSelection w.env)) = w := by
          split
          · rfl
          · rename_i hclosed
            have hselect : ((w.scheduler.prepareSelection w.env).selectTicket policy w.env).1 =
                none := by
              rcases hnone with h1 | h1 | h1
              · exact absurd h1 hclosed
              · rw [hready] at h1
                cases h1
              · exact h1
            unfold recordTurns
            split
            · rfl
            · rename_i heq
              rw [heq] at hselect
              cases hselect
        rw [hrecord]
        exact Or.inl ⟨hcursors, rfl, rfl⟩
      · have hbefore := cursors_of_pace
          (pace_of_control (control_prepareSelection w.env w.scheduler))
        have hfair : (w.scheduler.prepareSelection w.env).fairIndex = w.scheduler.fairIndex :=
          congrArg Prod.fst hbefore
        have hsources : (w.scheduler.prepareSelection w.env).sourceIndices =
            w.scheduler.sourceIndices := congrArg Prod.snd hbefore
        have hi : after.fairIndex = i := congrArg Prod.fst hafter
        have hj : after.sourceIndices c = j := by
          have hcursor : after.sourceIndices c =
              Function.update w.scheduler.sourceIndices c j c :=
            congrFun (congrArg Prod.snd hafter) c
          rwa [Function.update_self] at hcursor
        subst hclass
        rw [if_neg (by rw [hopen]; exact Bool.false_ne_true), recordTurns, hselect]
        refine Or.inr ⟨_, _, ⟨?_, ?_⟩, ⟨?_, ?_⟩, hfair, congrFun hsources _, ?_, rfl, rfl⟩
        · exact hfair ▸ h.cursors.fair
        · rw [hfair, hscan, hi]
        · exact hsources ▸ h.cursors.source _
        · rw [hsources, hsource, hscope, hj]
        · rw [hi, hj]
          exact hcursors
    · rw [if_neg hready] at hstep
      obtain rfl := Option.some.inj hstep
      exact Or.inl ⟨rfl, rfl, rfl⟩
  · rw [if_neg hphase] at hstep
    cases hstep

/-- Every event keeps the scheduler sound. -/
theorem step_sound (w : SchedulerWorld) (event : SchedulerEvent) (w' : SchedulerWorld)
    (h : w.Sound policy) (hstep : step policy w event = some w') : w'.Sound policy := by
  refine ⟨(step_moves h.valid h.cursors hstep).valid h.valid, ?_⟩
  by_cases hevent : event = .dispatcherLimited
  · subst hevent
    rcases dispatcherLimited_turns h hstep with ⟨hcursors, -⟩ |
      ⟨turn, sourceTurn, hfits, hsourceFits, -, -, hcursors, -⟩
    · exact h.cursors.of_cursors hcursors
    · have hfair : w'.scheduler.fairIndex = turn.after := congrArg Prod.fst hcursors
      have hsource : w'.scheduler.sourceIndices = Function.update w.scheduler.sourceIndices
          turn.picked sourceTurn.after := congrArg Prod.snd hcursors
      refine ⟨hfair ▸ scan_lt hfits.1 hfits.2, fun c => ?_⟩
      rw [hsource]
      by_cases hc : c = turn.picked
      · subst hc
        rw [Function.update_self]
        exact scan_lt hsourceFits.1 hsourceFits.2
      · rw [Function.update_of_ne hc]
        exact h.cursors.source c
  · exact h.cursors.of_cursors (step_cursors hstep hevent).1

/-- A new scheduler is sound. -/
theorem init_sound (env : Environment) : (init env).Sound policy := by
  refine ⟨⟨?_, ?_, ?_, ?_, rfl, ?_, fun _ => rfl, fun _ => rfl, ?_, ?_, ?_, ?_⟩,
    ⟨policy.fairCycle_pos, sourceCycle_pos⟩⟩
  · rintro source t ⟨⟩
  · rintro source t ⟨⟩
  · rintro source t ⟨⟩
  · exact fun _ => List.nodup_nil
  · exact fun n hn => absurd hn (AList.notMem_empty n)
  · intro c
    have hzero : (init env).scheduler.outstandingDepth c = 0 := by
      simp [init, outstandingDepth, queuedDepth]
    rw [hzero]
    exact (policy.capacity_pos c).le
  · exact fun n => ⟨Or.inl ⟨rfl, rfl⟩, Or.inl ⟨rfl, rfl⟩⟩
  · rintro t ⟨⟩
  · rintro t ⟨⟩

theorem run_sound {env : Environment} {events : List SchedulerEvent}
    (hrun : run (step policy) (init env) events = some w) : w.Sound policy :=
  run_invariant step_sound (init_sound env) hrun

end SchedulerWorld

end McpTelegram
