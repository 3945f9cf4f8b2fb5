import McpTelegram.Foundations.Run
import McpTelegram.Transactions.WriterSteps

/-!
# Runs of the writer

What the invariant says about every run: the calls, the slots, the end after a failure, and the end
after `aclose`.
-/

namespace McpTelegram

open Foundations

variable {δ : Type*}
variable {action : WriterAction δ}

/-! ## What a step leaves -/

/-- The worker will not execute a callback any more. -/
inductive Over : WorkerPhase δ → Prop
  | settled : Over (.settled true)
  | retired : Over .retired
  | failing : Over .failing
  | finishing : Over .finishing
  | finished : Over .finished

/-- The actions of the worker thread. -/
def WriterAction.ofWorker : WriterAction δ → Bool
  | .run _ | .resume _ | .cancel _ | .release | .aclose => false
  | _ => true

/-- How many steps the worker takes at most from a phase, with nothing in the queue. -/
def WorkerPhase.rank : WorkerPhase δ → ℕ
  | .opening => 3
  | .waiting => 0
  | .running _ => 4
  | .settled _ => 3
  | .retired => 2
  | .failing => 2
  | .finishing => 1
  | .finished => 0

/-- How many steps the worker takes at most. -/
def WriterWorld.workLeft (world : WriterWorld δ) : ℕ := 5 * world.queue.length + world.worker.rank

/-- Where a call is: admitted, refused, cancelled in the line, or in the line. -/
def WriterWorld.Accounted (world : WriterWorld δ) (id : ℕ) : Prop :=
  id ∈ world.admitted ∨ id ∈ world.refused ∨ id ∈ world.left ∨ id ∈ world.waiters.map (·.call.id)

/-- What a step of the event loop leaves: the worker, its connection and what it has done, and, of a
writer that is closed or has failed, the admitted calls and the queue. -/
structure LoopStep (world next : WriterWorld δ) : Prop where
  worker : next.worker = world.worker
  executed : next.executed = world.executed
  fatal : next.fatal = world.fatal
  closed : world.closed = true → next.closed = true
  queue : world.closed = true ∨ world.fatal = true → next.queue = world.queue
  admitted : world.closed = true ∨ world.fatal = true → next.admitted = world.admitted

/-- What a step of the worker leaves, and that its work gets less. -/
structure WorkerStep (world next : WriterWorld δ) : Prop where
  closed : next.closed = world.closed
  fatal : world.fatal = true → next.fatal = true
  admitted : next.admitted = world.admitted
  called : next.called = world.called
  refused : next.refused = world.refused
  left : next.left = world.left
  waiters : next.waiters = world.waiters
  ended : Over world.worker → Over next.worker ∧ next.executed = world.executed
  work : next.workLeft < world.workLeft

section Steps

variable {world next last : WriterWorld δ} {call : WriteCall δ} {id : ℕ}

/-- A call with a slot is admitted or refused. -/
theorem LoopStep.submit : LoopStep world (world.submit call) := by
  unfold WriterWorld.submit
  split_ifs with hgone
  · exact ⟨rfl, rfl, rfl, fun h => h, fun _ => rfl, fun _ => rfl⟩
  · exact ⟨rfl, rfl, rfl, fun h => h, fun h => absurd h hgone, fun h => absurd h hgone⟩

/-- A step of the event loop. -/
theorem loopStep_of_step (haction : action.ofWorker = false) (h : world.step action = some next) :
    LoopStep world next := by
  have hsame : ∀ {next : WriterWorld δ}, next.worker = world.worker →
      next.executed = world.executed → next.fatal = world.fatal → next.closed = world.closed →
      next.queue = world.queue → next.admitted = world.admitted → LoopStep world next :=
    fun hworker hexecuted hfatal hclosed hqueue hadmitted =>
      ⟨hworker, hexecuted, hfatal, fun h => hclosed.trans h, fun _ => hqueue, fun _ => hadmitted⟩
  cases action with
  | run call =>
    unfold WriterWorld.step at h
    dsimp only at h
    split_ifs at h
    obtain rfl := Option.some.inj h
    unfold WriterWorld.runCall
    split_ifs
    · exact hsame rfl rfl rfl rfl rfl rfl
    · have hsubmit := @LoopStep.submit δ { world with
        called := world.called ++ [call.id], free := world.free - 1 } call
      exact ⟨hsubmit.worker, hsubmit.executed, hsubmit.fatal, hsubmit.closed, hsubmit.queue,
        hsubmit.admitted⟩
  | resume id =>
    unfold WriterWorld.step WriterWorld.resume at h
    dsimp only at h
    split at h
    · cases h
    · split_ifs at h
      · obtain rfl := Option.some.inj h
        exact hsame rfl rfl rfl rfl rfl rfl
      · obtain rfl := Option.some.inj h
        exact hsame rfl rfl rfl rfl rfl rfl
      · obtain rfl := Option.some.inj h
        have hsubmit := @LoopStep.submit δ (world.leaveLine id)
        exact ⟨hsubmit.worker, hsubmit.executed, hsubmit.fatal, hsubmit.closed, hsubmit.queue,
          hsubmit.admitted⟩
  | cancel id =>
    obtain rfl := Option.some.inj h
    exact hsame rfl rfl rfl rfl rfl rfl
  | release =>
    unfold WriterWorld.step at h
    dsimp only at h
    split at h
    · cases h
    · obtain rfl := Option.some.inj h
      exact hsame rfl rfl rfl rfl rfl rfl
  | aclose =>
    obtain rfl := Option.some.inj h
    unfold WriterWorld.requestClose
    split_ifs with hclosed hfatal
    · exact hsame rfl rfl rfl rfl rfl rfl
    · exact ⟨rfl, rfl, rfl, fun _ => rfl, fun _ => rfl, fun _ => rfl⟩
    · exact ⟨rfl, rfl, rfl, fun _ => rfl, fun hgone => absurd hgone (not_or.mpr ⟨hclosed, hfatal⟩),
        fun _ => rfl⟩
  | openConnection | take | execute | retire | scheduleRelease | fail | finishWorker =>
    cases haction

/-- A step of the worker. -/
theorem workerStep_of_step (haction : action.ofWorker = true) (h : world.step action = some next) :
    WorkerStep world next := by
  cases action with
  | run | resume | cancel | release | aclose => cases haction
  | openConnection fault =>
    unfold WriterWorld.step at h
    dsimp only at h
    split at h
    · next hworker =>
      obtain rfl := Option.some.inj h
      refine ⟨rfl, fun h => h, rfl, rfl, rfl, rfl, rfl, fun hover => ?_, ?_⟩
      · rw [hworker] at hover
        cases hover
      · rw [WriterWorld.workLeft, WriterWorld.workLeft, hworker]
        cases fault with
        | true => exact Nat.add_lt_add_left (by decide : 2 < 3) _
        | false => exact Nat.add_lt_add_left (by decide : 0 < 3) _
    · cases h
  | take checkpointFault =>
    unfold WriterWorld.step WriterWorld.take at h
    dsimp only at h
    split at h
    · next hworker =>
      have hnot : ¬ Over world.worker := by
        rw [hworker]
        exact nofun
      split at h
      · cases h
      · next queue hqueue =>
        obtain rfl := Option.some.inj h
        refine ⟨rfl, fun h => h, rfl, rfl, rfl, rfl, rfl, fun hover => absurd hover hnot, ?_⟩
        rw [WriterWorld.workLeft, WriterWorld.workLeft, hworker, hqueue, List.length_cons]
        cases checkpointFault with
        | true =>
          change 5 * queue.length + 2 < 5 * (queue.length + 1) + 0
          omega
        | false =>
          change 5 * queue.length + 1 < 5 * (queue.length + 1) + 0
          omega
      · next call queue hqueue =>
        obtain rfl := Option.some.inj h
        refine ⟨rfl, fun h => h, rfl, rfl, rfl, rfl, rfl, fun hover => absurd hover hnot, ?_⟩
        rw [WriterWorld.workLeft, WriterWorld.workLeft, hworker, hqueue, List.length_cons]
        change 5 * queue.length + 4 < 5 * (queue.length + 1) + 0
        omega
    · cases h
  | execute faults =>
    unfold WriterWorld.step at h
    dsimp only at h
    split at h
    · next hworker =>
      obtain rfl := Option.some.inj h
      refine ⟨rfl, fun h => h, rfl, rfl, rfl, rfl, rfl, fun hover => ?_, ?_⟩
      · rw [hworker] at hover
        cases hover
      · rw [WriterWorld.workLeft, WriterWorld.workLeft, hworker]
        exact Nat.add_lt_add_left (by decide : 3 < 4) _
    · cases h
  | retire =>
    unfold WriterWorld.step at h
    dsimp only at h
    split at h
    · next hworker =>
      obtain rfl := Option.some.inj h
      refine ⟨rfl, fun _ => rfl, rfl, rfl, rfl, rfl, rfl, fun _ => ⟨.retired, rfl⟩, ?_⟩
      rw [WriterWorld.workLeft, WriterWorld.workLeft, hworker]
      change 5 * 0 + 2 < 5 * world.queue.length + 3
      omega
    · cases h
  | scheduleRelease =>
    unfold WriterWorld.step at h
    dsimp only at h
    split at h
    · next hworker =>
      obtain rfl := Option.some.inj h
      refine ⟨rfl, fun h => h, rfl, rfl, rfl, rfl, rfl, fun hover => ?_, ?_⟩
      · rw [hworker] at hover
        cases hover
      · rw [WriterWorld.workLeft, WriterWorld.workLeft, hworker]
        exact Nat.add_lt_add_left (by decide : 0 < 3) _
    · next hworker =>
      obtain rfl := Option.some.inj h
      refine ⟨rfl, fun h => h, rfl, rfl, rfl, rfl, rfl, fun _ => ⟨.finishing, rfl⟩, ?_⟩
      rw [WriterWorld.workLeft, WriterWorld.workLeft, hworker]
      exact Nat.add_lt_add_left (by decide : 1 < 2) _
    · cases h
  | fail =>
    unfold WriterWorld.step at h
    dsimp only at h
    split at h
    · next hworker =>
      obtain rfl := Option.some.inj h
      refine ⟨rfl, fun _ => rfl, rfl, rfl, rfl, rfl, rfl, fun _ => ⟨.finishing, rfl⟩, ?_⟩
      rw [WriterWorld.workLeft, WriterWorld.workLeft, hworker]
      change 5 * 0 + 1 < 5 * world.queue.length + 2
      omega
    · cases h
  | finishWorker =>
    unfold WriterWorld.step at h
    dsimp only at h
    split at h
    · next hworker =>
      obtain rfl := Option.some.inj h
      refine ⟨rfl, fun h => h, rfl, rfl, rfl, rfl, rfl, fun _ => ⟨.finished, rfl⟩, ?_⟩
      rw [WriterWorld.workLeft, WriterWorld.workLeft, hworker]
      exact Nat.add_lt_add_left (by decide : 0 < 1) _
    · cases h

/-- The line after a waiter has left. -/
theorem mem_leaveLine {free id' : ℕ} {left : List ℕ} (id : ℕ)
    (h : id' ∈ world.waiters.map (·.call.id)) : id' = id ∨
      id' ∈ (WriterWorld.leaveLine { world with free := free, left := left } id).waiters.map
        (·.call.id) := by
  have hcalls := (wakeNext_spec free (world.waiters.eraseP (·.call.id = id))).2.1
  have hids : (wakeNext free (world.waiters.eraseP (·.call.id = id))).1.map (·.call.id) =
      (world.waiters.eraseP (·.call.id = id)).map (·.call.id) := by
    have hmap := congrArg (List.map WriteCall.id) hcalls
    rw [List.map_map, List.map_map] at hmap
    exact hmap
  rw [or_iff_not_imp_left]
  intro hne
  rw [WriterWorld.leaveLine]
  simp only [hids]
  obtain ⟨waiter', hmem, rfl⟩ := List.mem_map.mp h
  exact List.mem_map_of_mem ((List.mem_eraseP_of_neg (by simpa using hne)).mpr hmem)

/-- A call with a slot is accounted for. -/
theorem accounted_submit : (world.submit call).Accounted call.id := by
  unfold WriterWorld.submit
  split_ifs
  · exact .inr (.inl (List.mem_append_right _ (List.mem_singleton_self _)))
  · exact .inl (List.mem_append_right _ (List.mem_singleton_self _))

/-- Waking a waiter keeps the calls of the line. -/
theorem mem_wakeNext {slots : ℕ} {waiters : List (SlotWaiter δ)}
    (h : id ∈ waiters.map (·.call.id)) : id ∈ (wakeNext slots waiters).1.map (·.call.id) := by
  have hmap := congrArg (List.map WriteCall.id) (wakeNext_spec slots waiters).2.1
  rw [List.map_map, List.map_map] at hmap
  exact (congrArg (id ∈ ·) hmap).mpr h

/-- The other calls stay accounted for. -/
theorem WriterWorld.Accounted.submit (h : world.Accounted id) :
    (world.submit call).Accounted id := by
  unfold WriterWorld.submit
  split_ifs
  · rcases h with h | h | h | h
    · exact .inl h
    · exact .inr (.inl (List.mem_append_left _ h))
    · exact .inr (.inr (.inl h))
    · exact .inr (.inr (.inr (mem_wakeNext h)))
  · exact h.imp_left (List.mem_append_left _)

/-- Every call that was made is accounted for. -/
def WriterWorld.AllAccounted (world : WriterWorld δ) : Prop :=
  ∀ id ∈ world.called, world.Accounted id

/-- A step keeps the calls accounted for. -/
theorem WriterWorld.AllAccounted.step (h : world.AllAccounted)
    (hstep : world.step action = some next) : next.AllAccounted := by
  rcases haction : action.ofWorker with _ | _
  · cases action with
    | run call =>
      unfold WriterWorld.step at hstep
      dsimp only at hstep
      split_ifs at hstep
      obtain rfl := Option.some.inj hstep
      unfold WriterWorld.runCall
      split_ifs
      · intro id hmem
        rcases List.mem_append.mp hmem with hbefore | hsame
        · rcases h id hbefore with h | h | h | h
          · exact .inl h
          · exact .inr (.inl h)
          · exact .inr (.inr (.inl h))
          · refine .inr (.inr (.inr ?_))
            exact (congrArg (id ∈ ·) List.map_append).mpr (List.mem_append_left _ h)
        · refine .inr (.inr (.inr ?_))
          rw [List.mem_singleton.mp hsame]
          exact List.mem_map_of_mem (List.mem_append_right _ (List.mem_singleton_self _))
      · intro id hmem
        have hcalled : (WriterWorld.submit { world with
            called := world.called ++ [call.id], free := world.free - 1 } call).called =
              world.called ++ [call.id] := by
          unfold WriterWorld.submit
          split_ifs <;> rfl
        rw [hcalled] at hmem
        rcases List.mem_append.mp hmem with hbefore | hsame
        · exact WriterWorld.Accounted.submit (h id hbefore)
        · rw [List.mem_singleton.mp hsame]
          exact accounted_submit
    | resume id =>
      unfold WriterWorld.step WriterWorld.resume at hstep
      dsimp only at hstep
      -- a cancelled call is recorded as it leaves, a granted one is admitted or refused
      have hleft : ∀ (free : ℕ), (WriterWorld.leaveLine { world with
          free := free, left := world.left ++ [id] } id).AllAccounted := by
        intro free id' hmem
        rcases h id' hmem with h | h | h | h
        · exact .inl h
        · exact .inr (.inl h)
        · exact .inr (.inr (.inl (List.mem_append_left _ h)))
        · rcases mem_leaveLine id h with rfl | h
          · exact .inr (.inr (.inl (List.mem_append_right _ (List.mem_singleton_self _))))
          · exact .inr (.inr (.inr h))
      split at hstep
      · cases hstep
      · next waiter hfind =>
        split_ifs at hstep
        · obtain rfl := Option.some.inj hstep
          exact hleft _
        · obtain rfl := Option.some.inj hstep
          exact hleft _
        · obtain rfl := Option.some.inj hstep
          have hid : waiter.call.id = id := by simpa using List.find?_some hfind
          intro id' hmem
          have hcalled : ((world.leaveLine id).submit waiter.call).called = world.called := by
            unfold WriterWorld.submit
            split_ifs <;> rfl
          rw [hcalled] at hmem
          by_cases hsame : id' = id
          · rw [hsame, ← hid]
            exact accounted_submit
          · refine WriterWorld.Accounted.submit ?_
            refine (h id' hmem).imp_right (.imp_right (.imp_right fun hline => ?_))
            exact (mem_leaveLine id hline).resolve_left hsame
    | cancel id =>
      obtain rfl := Option.some.inj hstep
      intro id' hcalled
      refine (h id' hcalled).imp_right (.imp_right (.imp_right fun hline => ?_))
      obtain ⟨waiter, hmem, rfl⟩ := List.mem_map.mp hline
      refine List.mem_map.mpr ⟨_, List.mem_map_of_mem hmem, ?_⟩
      split_ifs <;> rfl
    | release =>
      unfold WriterWorld.step at hstep
      dsimp only at hstep
      split at hstep
      · cases hstep
      · obtain rfl := Option.some.inj hstep
        intro id hmem
        exact (h id hmem).imp_right (.imp_right (.imp_right mem_wakeNext))
    | aclose =>
      obtain rfl := Option.some.inj hstep
      unfold WriterWorld.requestClose
      split_ifs <;> exact h
    | openConnection | take | execute | retire | scheduleRelease | fail | finishWorker =>
      cases haction
  · have hworker := workerStep_of_step haction hstep
    intro id hmem
    rw [hworker.called] at hmem
    have haccounted := h id hmem
    rw [WriterWorld.Accounted, hworker.admitted, hworker.refused, hworker.left, hworker.waiters]
    exact haccounted

/-- The worker of a writer that is closed or has failed is not stuck before its end. -/
theorem worker_enabled {capacity : ℕ} (h : WriterInv capacity world)
    (hgone : world.closed = true ∨ world.fatal = true) (hopen : world.closedFuture ≠ true) :
    ∃ action : WriterAction δ, action.ofWorker = true ∧ (world.step action).isSome = true := by
  have hfinished : world.worker ≠ .finished := fun hworker => hopen (h.closed.mpr hworker)
  rcases hworker : world.worker with _ | _ | call | fatal | _ | _ | _ | _
  · refine ⟨.openConnection false, rfl, ?_⟩
    rw [WriterWorld.step, hworker]
    rfl
  · refine ⟨.take false, rfl, ?_⟩
    rw [WriterWorld.step, hworker]
    cases h.shape with
    | accepting hclosed hfatal _ _ _ =>
      rw [hclosed, hfatal] at hgone
      rcases hgone with hgone | hgone <;> cases hgone
    | closing _ _ calls hqueue _ =>
      dsimp only
      rw [WriterWorld.take, hqueue]
      cases calls <;> rfl
    | stopped _ _ _ hended | failed _ _ hended =>
      rw [hworker] at hended
      rcases hended with hsame | hending
      · cases hsame
      · cases hending
  · refine ⟨.execute {}, rfl, ?_⟩
    rw [WriterWorld.step, hworker]
    rfl
  · cases fatal with
    | false =>
      refine ⟨.scheduleRelease, rfl, ?_⟩
      rw [WriterWorld.step, hworker]
      rfl
    | true =>
      refine ⟨.retire, rfl, ?_⟩
      rw [WriterWorld.step, hworker]
      rfl
  · refine ⟨.scheduleRelease, rfl, ?_⟩
    rw [WriterWorld.step, hworker]
    rfl
  · refine ⟨.fail, rfl, ?_⟩
    rw [WriterWorld.step, hworker]
    rfl
  · refine ⟨.finishWorker, rfl, ?_⟩
    rw [WriterWorld.step, hworker]
    rfl
  · exact absurd hworker hfinished

end Steps

/-! ## Runs -/

section Runs

variable {capacity : ℕ} {database : δ} {world last : WriterWorld δ}
  {actions more : List (WriterAction δ)}

/-- Once the worker executes nothing more, no run executes anything. -/
theorem run_over (hover : Over world.worker) (h : run WriterWorld.step world more = some last) :
    Over last.worker ∧ last.executed = world.executed := by
  refine run_invariant (I := fun world' : WriterWorld δ =>
    Over world'.worker ∧ world'.executed = world.executed) ?_ ⟨hover, rfl⟩ h
  rintro world action next ⟨hover, hexecuted⟩ hstep
  rcases haction : action.ofWorker with _ | _
  · have hloop := loopStep_of_step haction hstep
    exact ⟨hloop.worker ▸ hover, hloop.executed.trans hexecuted⟩
  · have hworker := (workerStep_of_step haction hstep).ended hover
    exact ⟨hworker.1, hworker.2.trans hexecuted⟩

/-- Once the writer is closed or has failed, a run admits nothing and every step of the worker takes
from the work that is left. -/
theorem run_gone (hgone : world.closed = true ∨ world.fatal = true)
    (h : run WriterWorld.step world more = some last) :
    last.admitted = world.admitted ∧ (world.closed = true → last.closed = true) ∧
      (world.fatal = true → last.fatal = true) ∧
      more.countP WriterAction.ofWorker + last.workLeft ≤ world.workLeft := by
  induction more generalizing world with
  | nil =>
    obtain rfl : world = last := by simpa using h
    exact ⟨rfl, fun hclosed => hclosed, fun hfatal => hfatal, by simp⟩
  | cons action more ih =>
    obtain ⟨next, hstep, hrest⟩ := run_cons_eq_some.mp h
    rcases haction : action.ofWorker with _ | _
    · have hloop := loopStep_of_step haction hstep
      have hnext : next.closed = true ∨ next.fatal = true :=
        hgone.imp hloop.closed fun hfatal => hloop.fatal.trans hfatal
      obtain ⟨hadmitted, hclosed, hfatal, hwork⟩ := ih hnext hrest
      refine ⟨hadmitted.trans (hloop.admitted hgone), fun h => hclosed (hloop.closed h),
        fun h => hfatal (hloop.fatal.trans h), ?_⟩
      have hsame : next.workLeft = world.workLeft := by
        rw [WriterWorld.workLeft, WriterWorld.workLeft, hloop.queue hgone, hloop.worker]
      rw [List.countP_cons_of_neg (by rw [haction]; exact Bool.false_ne_true)]
      omega
    · have hworker := workerStep_of_step haction hstep
      have hnext : next.closed = true ∨ next.fatal = true :=
        hgone.imp (fun hclosed => hworker.closed.trans hclosed) hworker.fatal
      obtain ⟨hadmitted, hclosed, hfatal, hwork⟩ := ih hnext hrest
      refine ⟨hadmitted.trans hworker.admitted, fun h => hclosed (hworker.closed.trans h),
        fun h => hfatal (hworker.fatal h), ?_⟩
      have hless := hworker.work
      rw [List.countP_cons_of_pos haction]
      omega

/-- A new writer. -/
theorem WriterInv.initial : WriterInv capacity (WriterWorld.initial capacity database) where
  shape := .accepting rfl rfl [] rfl .opening
  slots := rfl
  line := by
    rintro ⟨waiter, hmem, -⟩
    cases hmem
  order := rfl
  admitted := List.nodup_nil
  waiting := List.nodup_nil
  fresh := nofun
  executed := List.Sublist.refl _
  unexecuted := nofun
  guarded := nofun
  failure := rfl
  closed := ⟨nofun, nofun⟩

/-- The work of a writer is conserved: its calls, its slots, its end after a failure and its end
after `aclose`. -/
structure WorkConserved (capacity : ℕ) (world : WriterWorld δ) : Prop where
  /-- The admitted calls, in their order: the settled ones, the running one and the queued ones. -/
  order : world.admitted =
    world.settled.map Prod.fst ++ world.running ++ world.queued.map WriteCall.id
  once : world.admitted.Nodup
  /-- Callbacks are executed at most once and in the order of admission. -/
  executed : (world.executed.map Prod.fst).Sublist world.admitted
  guarded : ∀ execution ∈ world.executed, IdleGuarded execution.2
  /-- A call that is settled without an execution failed. -/
  unexecuted : ∀ result ∈ world.settled, result.1 ∉ world.executed.map Prod.fst → result.2 = true
  /-- The slots are free, or with a call that was granted one, a queued call, the worker, or a
  scheduled release. -/
  slots : world.free + world.granted + world.queued.length + world.held + world.releases = capacity
  /-- A failed execution without a commit leaves the database. -/
  unchanged : ∀ call faults next, world.worker = .running call →
    world.step (.execute faults) = some next →
    next.settled = world.settled ++ [(call.id, true)] →
    (call.callback world.conn).1.database = world.conn.database →
      next.conn.database = world.conn.database
  /-- After a fatal outcome, or the stop, no callback is executed. -/
  ended : Over world.worker → ∀ more last, run WriterWorld.step world more = some last →
    last.executed = world.executed
  /-- A failed writer: `wait_failed` completes, what was queued is settled, and later calls are
  refused unless they are cancelled or wait in the line. -/
  failed : world.fatal = true → world.failureFuture = true ∧ Over world.worker ∧
    world.admitted = world.settled.map Prod.fst ∧
    ∀ more last, run WriterWorld.step world more = some last →
      last.fatal = true ∧ last.admitted = world.admitted ∧
      ∀ id ∈ last.called, id ∉ world.admitted →
        id ∈ last.refused ∨ id ∈ last.left ∨ id ∈ last.waiters.map (·.call.id)
  /-- Nobody waits for ever on a writer that has ended. -/
  served : world.worker = .finished → world.releases = 0 →
    (∀ waiter ∈ world.waiters, waiter.done = false) → world.waiters = []
  /-- After `aclose` the worker gets to its end in a bounded number of steps, and admits nothing. -/
  closing : world.closed = true → ∀ more last, run WriterWorld.step world more = some last →
    last.admitted = world.admitted ∧
    more.countP WriterAction.ofWorker + last.workLeft ≤ world.workLeft ∧
    (last.closedFuture ≠ true →
      ∃ action : WriterAction δ, action.ofWorker = true ∧ (last.step action).isSome = true)
  /-- `aclose` returns after every admitted call has settled. -/
  closed : world.closedFuture = true → world.admitted = world.settled.map Prod.fst

/-- A writer that has ended has nothing in the queue. -/
theorem WriterInv.ended (h : WriterInv capacity world)
    (hended : Ending world.worker) : world.queue = [] := by
  cases h.shape with
  | accepting _ _ _ _ hworking | closing _ _ _ _ hworking => exact absurd hended hworking.not_ending
  | stopped _ _ hqueue | failed _ hqueue => exact hqueue

/-- A writer that has failed has nothing in the queue, and its worker executes nothing more. -/
theorem WriterInv.failed (h : WriterInv capacity world) (hfatal : world.fatal = true) :
    world.queue = [] ∧ Over world.worker ∧ world.running = [] := by
  cases h.shape with
  | accepting _ hlive | closing _ hlive | stopped _ hlive =>
    rw [hfatal] at hlive
    cases hlive
  | failed _ hqueue hended =>
    refine ⟨hqueue, ?_⟩
    rw [WriterWorld.running]
    rcases hended with hretired | hending
    · rw [hretired]
      exact ⟨.retired, rfl⟩
    · generalize world.worker = worker at hending
      cases hending with
      | finishing => exact ⟨.finishing, rfl⟩
      | finished => exact ⟨.finished, rfl⟩

theorem WriterInv.run (h : WriterInv capacity world)
    (hrun : run WriterWorld.step world more = some last) : WriterInv capacity last :=
  run_invariant (fun _ _ _ hinv hstep => hinv.step hstep) h hrun

/-- With nothing running and nothing in the queue, every admitted call is settled. -/
theorem WriterInv.settled (h : WriterInv capacity world) (hqueue : world.queue = [])
    (hrunning : world.running = []) : world.admitted = world.settled.map Prod.fst := by
  have horder := h.order
  rw [WriterWorld.queued, hqueue, hrunning, List.append_nil] at horder
  exact horder.trans (List.append_nil _)

/-- In every run the writer conserves its work. -/
theorem writer_conserves_work (hcapacity : 0 < capacity)
    (hrun : run WriterWorld.step (WriterWorld.initial capacity database) actions = some world) :
    WorkConserved capacity world := by
  have h : WriterInv capacity world := WriterInv.initial.run hrun
  have haccounted : world.AllAccounted :=
    run_invariant (fun _ _ _ hinv hstep => hinv.step hstep)
      (fun _ hmem => absurd hmem List.not_mem_nil) hrun
  refine
    { order := h.order
      once := h.admitted
      executed := ?_
      guarded := h.guarded
      unexecuted := h.unexecuted
      slots := h.slots
      unchanged := ?_
      ended := fun hover more last hmore => (run_over hover hmore).2
      failed := ?_
      served := ?_
      closing := ?_
      closed := ?_ }
  · rw [h.order, List.append_assoc]
    exact h.executed.trans (List.sublist_append_left _ _)
  · intro call faults next hworker hstep hfailed hsame
    rw [WriterWorld.step, hworker] at hstep
    obtain rfl := Option.some.inj hstep
    have hresult := List.append_cancel_left hfailed
    have hexecution : (execute faults call.callback world.conn).failed = true :=
      congrArg Prod.snd (List.cons.inj hresult).1
    exact execute_spec.unchanged hexecution fun _ => hsame
  · intro hfatal
    obtain ⟨hqueue, hover, hrunning⟩ := h.failed hfatal
    refine ⟨h.failure.trans hfatal, hover, h.settled hqueue hrunning, ?_⟩
    intro more last hmore
    obtain ⟨hadmitted, -, hkept, -⟩ := run_gone (.inr hfatal) hmore
    refine ⟨hkept hfatal, hadmitted, fun id hcalled hnew => ?_⟩
    have hlast : last.AllAccounted :=
      run_invariant (fun _ _ _ hinv hstep => hinv.step hstep) haccounted hmore
    refine (hlast id hcalled).resolve_left ?_
    rw [hadmitted]
    exact hnew
  · intro hfinished hreleases hdone
    have hslots := h.slots
    have hqueue := h.ended (hfinished ▸ .finished)
    by_contra hwaiting
    obtain ⟨waiter, waiters, hsplit⟩ := List.exists_cons_of_ne_nil hwaiting
    have hmem : waiter ∈ world.waiters := hsplit ▸ List.mem_cons_self
    have hgranted : world.granted = 0 := by
      rw [WriterWorld.granted, List.countP_eq_zero]
      intro waiter hmem hgranted
      cases (hdone waiter hmem).symm.trans (SlotWaiter.done_of_granted hgranted)
    rcases h.line ⟨waiter, hmem, hdone waiter hmem⟩ with hfree | ⟨waiter', hmem', hdone'⟩
    · rw [hfree, hgranted, WriterWorld.queued, hqueue, WriterWorld.held, hfinished,
        hreleases] at hslots
      change 0 = capacity at hslots
      omega
    · cases (hdone waiter' hmem').symm.trans hdone'
  · intro hclosed more last hmore
    obtain ⟨hadmitted, hkept, -, hwork⟩ := run_gone (.inl hclosed) hmore
    exact ⟨hadmitted, hwork, worker_enabled (h.run hmore) (.inl (hkept hclosed))⟩
  · intro hclosed
    have hfinished := h.closed.mp hclosed
    refine h.settled (h.ended (hfinished ▸ .finished)) ?_
    rw [WriterWorld.running, hfinished]

/-- A callback that leaves a transaction open, with another call in the queue. -/
theorem writer_conserves_work_fatal :
    ∃ world : WriterWorld ℕ, WorkConserved 2 world ∧ world.closedFuture = true ∧
      world.admitted = [1, 2] ∧ world.executed.map Prod.fst = [1] ∧
      world.settled = [(1, true), (2, true)] := by
  let callback : WriteCallback ℕ := fun conn =>
    ({ conn with transaction := some ⟨7, []⟩ }, .returned)
  let actions : List (WriterAction ℕ) := [.run ⟨1, callback⟩, .run ⟨2, callback⟩,
    .openConnection false, .take false, .execute {}, .retire, .scheduleRelease, .finishWorker]
  have hcapacity : 0 < 2 := by decide
  exact ⟨_, @writer_conserves_work ℕ 2 0 _ actions hcapacity rfl, rfl, rfl, rfl, rfl⟩

/-- The free slots, the queued calls and the one that the worker holds are not the capacity while
the release of a slot is scheduled. -/
theorem slots_on_their_way :
    ∃ (actions : List (WriterAction ℕ)) (world : WriterWorld ℕ),
      run WriterWorld.step (WriterWorld.initial 1 0) actions = some world ∧
      world.free + world.queued.length + world.held ≠ 1 := by
  let actions : List (WriterAction ℕ) := [.run ⟨1, fun conn => (conn, .returned)⟩,
    .openConnection false, .take false, .execute {}, .scheduleRelease]
  exact ⟨actions, _, rfl, by decide⟩

end Runs

end McpTelegram
