import McpTelegram.Scheduler.Slots

/-!
# Tickets settle once, admissions write once

Timers, cancelled callers, the dispatcher, deferral and the shutdown race for the same ticket.
`settles_once` says that exactly one of them gets it, and that granted writes are paced: no
admission is granted two, none after the shutdown started, and none after its slot was released.
-/

namespace McpTelegram

open Foundations Relation

namespace SchedulerWorld

open AdmissionScheduler

variable {policy : SchedulerPolicy}
variable {s : AdmissionScheduler} {env : Environment} {admission : RpcAdmission}
    {w w' : SchedulerWorld} {event : SchedulerEvent} {events : List SchedulerEvent}

/-! ## Granted writes -/

/-- The admission was granted its write: its attempt has it recorded, or is not active any more. -/
abbrev Claimed : AdmissionScheduler → ℕ → Prop := Dispatched (·.dispatchRecorded = true)

theorem Dispatched.claimed_moves {s' : AdmissionScheduler} {n : ℕ} (hclaimed : Claimed s n)
    (h : s.Valid policy) (hmoves : Moves policy s s') : Claimed s' n :=
  hclaimed.moves (fun _ _ => rfl) h hmoves

/-- What `record_dispatch` needs to grant a write. -/
theorem recordDispatch_granted (hgranted : (s.recordDispatch policy env admission).1 = true) :
    s.closed = false ∧ ¬ Gone s admission.sequence ∧ ¬ Claimed s admission.sequence ∧
      s.nextWriteAt ≤ env.now := by
  rcases s.recordDispatch_cases policy env admission with heq |
    ⟨attempt, hlookup, hunrecorded, hopen, -, hpaced, -⟩
  · rw [heq] at hgranted
    cases hgranted
  · refine ⟨hopen, fun hgone => hgone.attempt attempt hlookup, fun hclaimed => ?_, hpaced⟩
    have hrecorded := hclaimed.attempt attempt hlookup
    rw [hunrecorded] at hrecorded
    cases hrecorded

/-- What `record_dispatch` leaves behind when it grants a write. -/
theorem recordDispatch_claims (h : s.Valid policy)
    (hgranted : (s.recordDispatch policy env admission).1 = true) :
    Claimed (s.recordDispatch policy env admission).2 admission.sequence ∧
      (s.recordDispatch policy env admission).2.nextWriteAt =
        env.now + policy.minimumSpacingSeconds := by
  rcases s.recordDispatch_cases policy env admission with heq |
    ⟨attempt, hlookup, -, -, -, -, heq⟩
  · rw [heq] at hgranted
    cases hgranted
  · obtain ⟨hstate, hle⟩ := h.dispatched _ (AList.lookup_isSome.mp (by rw [hlookup]; rfl))
    obtain ⟨handle, hschedule⟩ := scheduleRelease_eq env { s with
      active := s.active.insert admission.sequence { attempt with dispatchRecorded := true }
      nextWriteAt := env.now + policy.minimumSpacingSeconds }
    rw [heq, hschedule]
    refine ⟨⟨hle, hstate, fun attempt' hlookup' => ?_⟩, rfl⟩
    rw [AList.lookup_insert] at hlookup'
    obtain rfl := Option.some.inj hlookup'
    rfl

/-- What a run knows about the writes it has granted. -/
structure WriteHistory (policy : SchedulerPolicy) (w : SchedulerWorld) : Prop where
  /-- The pacing floor is a spacing behind every write. -/
  paced : ∀ write ∈ w.writes, write.2 + policy.minimumSpacingSeconds ≤ w.scheduler.nextWriteAt
  /-- Every two writes are a spacing apart. -/
  spaced : w.writes.Pairwise fun later earlier =>
    earlier.2 + policy.minimumSpacingSeconds ≤ later.2
  /-- No admission wrote twice. -/
  nodup : (w.writes.map (·.1)).Nodup
  /-- Every write is claimed. -/
  claimed : ∀ write ∈ w.writes, Claimed w.scheduler write.1

/-- Only `record_dispatch` grants writes. -/
theorem step_writes (hstep : step policy w event = some w')
    (hevent : ∀ admission, event ≠ .recordDispatch admission) : w'.writes = w.writes := by
  cases event with
  | recordDispatch admission => exact absurd rfl (hevent admission)
  | dispatcherLimited => exact (dispatcherLimited_history hstep).2.1
  | admitScope | setReady | eligibilityChanged | expireDue | complete | startShutdown =>
    obtain rfl := Option.some.inj hstep
    rfl
  | _ =>
    simp only [step] at hstep
    split_ifs at hstep
    all_goals
      obtain rfl := Option.some.inj hstep
      rfl

/-- Every event keeps what is known about the granted writes. -/
theorem step_writeHistory (h : w.Sound policy) (hhistory : w.WriteHistory policy)
    (hstep : step policy w event = some w') : w'.WriteHistory policy := by
  have hmoves := step_moves h.valid h.cursors hstep
  have hclaimed : ∀ write ∈ w.writes, Claimed w'.scheduler write.1 := fun write hwrite =>
    (hhistory.claimed write hwrite).claimed_moves h.valid hmoves
  by_cases hrecord : ∃ admission, event = .recordDispatch admission
  · obtain ⟨admission, rfl⟩ := hrecord
    have hscheduler : w'.scheduler = (w.scheduler.recordDispatch policy w.env admission).2 :=
      (congrArg SchedulerWorld.scheduler (Option.some.inj hstep)).symm
    have hwrites : w'.writes =
        if (w.scheduler.recordDispatch policy w.env admission).1 then
          (admission.sequence, w.env.now) :: w.writes else w.writes :=
      (congrArg SchedulerWorld.writes (Option.some.inj hstep)).symm
    by_cases hgranted : (w.scheduler.recordDispatch policy w.env admission).1 = true
    · obtain ⟨-, -, hnew, hpaced⟩ := recordDispatch_granted hgranted
      obtain ⟨hnewClaimed, hnext⟩ := recordDispatch_claims h.valid hgranted
      rw [← hscheduler] at hnewClaimed hnext
      rw [if_pos hgranted] at hwrites
      have hold : ∀ write ∈ w.writes, write.2 + policy.minimumSpacingSeconds ≤ w.env.now :=
        fun write hwrite => (hhistory.paced write hwrite).trans hpaced
      refine ⟨?_, ?_, ?_, ?_⟩ <;> rw [hwrites]
      · intro write hwrite
        rw [hnext]
        rcases List.mem_cons.mp hwrite with rfl | hwrite
        · exact le_rfl
        · have hspacing := policy.spacing_pos
          have hbefore := hold write hwrite
          linarith
      · exact List.pairwise_cons.mpr ⟨hold, hhistory.spaced⟩
      · refine List.nodup_cons.mpr ⟨fun hmem => ?_, hhistory.nodup⟩
        obtain ⟨write, hwrite, heq⟩ := List.mem_map.mp hmem
        have heq : write.1 = admission.sequence := heq
        exact hnew (heq ▸ hhistory.claimed write hwrite)
      · intro write hwrite
        rcases List.mem_cons.mp hwrite with rfl | hwrite
        · exact hnewClaimed
        · exact hclaimed write hwrite
    · rw [if_neg hgranted] at hwrites
      have hsame : w'.scheduler = w.scheduler := by
        rw [hscheduler]
        rcases w.scheduler.recordDispatch_cases policy w.env admission with
          heq | ⟨attempt, -, -, -, -, -, heq⟩
        · rw [heq]
        · rw [heq] at hgranted
          exact absurd rfl hgranted
      exact ⟨by rw [hwrites, hsame]; exact hhistory.paced, hwrites ▸ hhistory.spaced,
        hwrites ▸ hhistory.nodup, by rw [hwrites]; exact hclaimed⟩
  · push Not at hrecord
    have hwrites := step_writes hstep hrecord
    have hnext := step_nextWriteAt h hstep hrecord
    exact ⟨by rw [hwrites, hnext]; exact hhistory.paced, hwrites ▸ hhistory.spaced,
      hwrites ▸ hhistory.nodup, by rw [hwrites]; exact hclaimed⟩

/-- What is known about the granted writes holds in every state of every run. -/
theorem run_writeHistory (hrun : run (step policy) (init env) events = some w) :
    w.Sound policy ∧ w.WriteHistory policy := by
  refine run_invariant (I := fun w => w.Sound policy ∧ w.WriteHistory policy)
    (fun w event w' h hstep => ?_) ⟨init_sound env, ?_, ?_, ?_, ?_⟩ hrun
  · exact ⟨step_sound w event w' h.1 hstep, step_writeHistory h.1 h.2 hstep⟩
  · exact fun write hwrite => absurd hwrite List.not_mem_nil
  · exact List.Pairwise.nil
  · exact List.nodup_nil
  · exact fun write hwrite => absurd hwrite List.not_mem_nil

/-- After an event that starts the shutdown the scheduler is closed for good. -/
theorem closed_of_shutdown (hrun : run (step policy) (init env) events = some w)
    (hshutdown : .startShutdown ∈ events ∨ .dispatcherFailed ∈ events) :
    w.scheduler.closed = true := by
  obtain ⟨event, hmem, hevent⟩ :
      ∃ event ∈ events, event = .startShutdown ∨ event = .dispatcherFailed := by
    rcases hshutdown with hmem | hmem
    · exact ⟨_, hmem, Or.inl rfl⟩
    · exact ⟨_, hmem, Or.inr rfl⟩
  obtain ⟨before, after, rfl⟩ := List.append_of_mem hmem
  rw [run_append, Option.bind_eq_some_iff] at hrun
  obtain ⟨w₁, hbefore, hrest⟩ := hrun
  obtain ⟨w₂, hstep, hafter⟩ := run_cons_eq_some.mp hrest
  have hclosed₂ : w₂.scheduler.closed = true := by
    rcases hevent with rfl | rfl
    · obtain rfl := Option.some.inj hstep
      exact closed_startShutdown _
    · simp only [step] at hstep
      split_ifs at hstep
      obtain rfl := Option.some.inj hstep
      exact closed_startShutdown _
  have hsound₂ := step_sound w₁ event w₂ (run_sound hbefore) hstep
  refine (run_invariant (I := fun w => w.Sound policy ∧ w.scheduler.closed = true)
    (fun w event w' h hstep => ?_) ⟨hsound₂, hclosed₂⟩ hafter).2
  exact ⟨step_sound w event w' h.1 hstep,
    closed_moves h.2 (step_moves h.1.valid h.1.cursors hstep)⟩

/-! ## Tickets -/

/-- The expiry timer of a queued ticket fires once its deadline is reached, and settles it. -/
theorem expireTimer_settles (h : w.Sound policy) {t : AdmissionTicket}
    (ht : t ∈ w.scheduler.accepted) (hqueued : (w.scheduler.cells t.sequence).state = .queued)
    {now : ℚ} (hnow : w.env.now ≤ now) (hdeadline : t.deadline ≤ now) :
    ∃ w', run (step policy) w [.advance now, .expireTimer t] = some w' ∧
      (w'.scheduler.cells t.sequence).state = .expired := by
  have htimer := h.valid.timer t ht hqueued
  refine ⟨{ w with
    env := { w.env with now := now }
    scheduler := (w.scheduler.expireTicket t).cancelTimer t }, ?_, ?_⟩
  · simp only [run_cons, run_nil, step, if_pos hnow, Option.bind_some, ht, htimer, hdeadline,
      and_self, if_true]
  · simp only [cancelTimer, modifyCell, Function.update_self, expireTicket_eq _ t hqueued,
      AdmissionScheduler.leave, state_leave]

/-- Every accepted ticket leaves the queue at most once, by the one route that its state names, and
its future is resolved at most once; a ticket still queued has its timer armed, so that at its
deadline it leaves at the latest.  Only a ticket whose route is `dispatched` has ever had a slot or
a write.  Every two granted writes are a spacing apart and belong to different admissions, and no
write is granted after the shutdown started, to an admission that has written, or after its slot
was released. -/
theorem settles_once {env : Environment} {events : List SchedulerEvent} {w : SchedulerWorld}
    (hrun : run (step policy) (init env) events = some w) :
    (∀ t ∈ w.scheduler.accepted,
      (w.scheduler.cells t.sequence).routes =
        (if (w.scheduler.cells t.sequence).state = .queued then []
          else [(w.scheduler.cells t.sequence).state]) ∧
      (w.scheduler.cells t.sequence).resolutions.length ≤ 1 ∧
      ((w.scheduler.cells t.sequence).state = .queued → ∀ now, w.env.now ≤ now →
        t.deadline ≤ now → ∃ w', run (step policy) w [.advance now, .expireTimer t] = some w' ∧
          (w'.scheduler.cells t.sequence).state = .expired)) ∧
    (∀ n, n ∈ w.scheduler.active ∨ n ∈ w.released ∨ n ∈ w.writes.map (·.1) →
      (w.scheduler.cells n).routes = [.dispatched]) ∧
    w.writes.Pairwise (fun later earlier =>
      earlier.2 + policy.minimumSpacingSeconds ≤ later.2 ∧ earlier.1 ≠ later.1) ∧
    ∀ env' admission, (w.scheduler.recordDispatch policy env' admission).1 = true →
      .startShutdown ∉ events ∧ .dispatcherFailed ∉ events ∧
        admission.sequence ∉ w.released ∧ admission.sequence ∉ w.writes.map (·.1) := by
  obtain ⟨hsound, hslots⟩ := run_slotHistory hrun
  obtain ⟨-, hwrites⟩ := run_writeHistory hrun
  have hroute : ∀ n, (w.scheduler.cells n).state = .dispatched →
      (w.scheduler.cells n).routes = [.dispatched] := by
    intro n hstate
    rcases (hsound.valid.settled n).route with ⟨hqueued, -⟩ | ⟨-, hroutes⟩
    · rw [hqueued] at hstate
      cases hstate
    · rw [hroutes, hstate]
  refine ⟨fun t ht => ⟨?_, ?_, ?_⟩, ?_, ?_, ?_⟩
  · rcases (hsound.valid.settled t.sequence).route with ⟨hqueued, hroutes⟩ | ⟨hleft, hroutes⟩
    · rw [if_pos hqueued, hroutes]
    · rw [if_neg hleft, hroutes]
  · rcases (hsound.valid.settled t.sequence).resolution with ⟨-, hnone⟩ | ⟨-, hone⟩
    · rw [hnone]
      exact Nat.zero_le 1
    · rw [hone]
      exact Nat.le_refl 1
  · exact fun hqueued now hnow hdeadline => expireTimer_settles hsound ht hqueued hnow hdeadline
  · rintro n (hactive | hreleased | hwritten)
    · exact hroute n (hsound.valid.dispatched n hactive).1
    · exact hroute n (hslots.released n hreleased).state
    · obtain ⟨write, hwrite, rfl⟩ := List.mem_map.mp hwritten
      exact hroute _ (hwrites.claimed write hwrite).state
  · have hdistinct : w.writes.Pairwise fun later earlier => later.1 ≠ earlier.1 :=
      List.pairwise_map.mp hwrites.nodup
    exact hwrites.spaced.imp₂ (fun _ _ hspaced hne => ⟨hspaced, hne.symm⟩) hdistinct
  · intro env' admission hgranted
    obtain ⟨hopen, hgone, hclaimed, -⟩ := recordDispatch_granted hgranted
    have hno : ¬ (.startShutdown ∈ events ∨ .dispatcherFailed ∈ events) := fun hshutdown => by
      rw [closed_of_shutdown hrun hshutdown] at hopen
      cases hopen
    obtain ⟨hstart, hfailed⟩ := not_or.mp hno
    refine ⟨hstart, hfailed, fun hreleased => hgone (hslots.released _ hreleased),
      fun hwritten => ?_⟩
    obtain ⟨write, hwrite, heq⟩ := List.mem_map.mp hwritten
    exact hclaimed (heq ▸ hwrites.claimed write hwrite)

/-- Two tickets are dispatched, and write at the times 2 and 4. -/
def writingEvents : List SchedulerEvent :=
  [.admitScope sampleScope, .admitScope sampleScope, .dispatcherReady, .dispatcherLimited,
    .dispatcherReady, .dispatcherLimited, .advance 2,
    .recordDispatch ⟨.mcpInteractive, .interactive, 0, 1, none, some "messages.GetHistory"⟩,
    .advance 4,
    .recordDispatch ⟨.mcpInteractive, .interactive, 0, 2, none, some "messages.GetHistory"⟩]

/-- The two writes of `writingEvents` are a spacing apart. -/
theorem settles_once_sample :
    ∃ w, run (step .default) (init sampleEnvironment) writingEvents = some w ∧
      w.writes = [(2, 4), (1, 2)] ∧
      w.writes.Pairwise (fun later earlier =>
        earlier.2 + SchedulerPolicy.default.minimumSpacingSeconds ≤ later.2 ∧
          earlier.1 ≠ later.1) := by
  have hrun : ∃ w, run (step .default) (init sampleEnvironment) writingEvents = some w :=
    Option.isSome_iff_exists.mp (by decide +kernel)
  obtain ⟨w, hw⟩ := hrun
  have hwrites : (run (step .default) (init sampleEnvironment) writingEvents).map (·.writes) =
      some [(2, 4), (1, 2)] := by
    decide +kernel
  rw [hw, Option.map_some, Option.some.injEq] at hwrites
  exact ⟨w, hw, hwrites, (settles_once hw).2.2.1⟩

end SchedulerWorld

end McpTelegram
