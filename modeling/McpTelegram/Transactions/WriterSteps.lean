import McpTelegram.Transactions.Atomic
import McpTelegram.Transactions.Writer

/-!
# The writer conserves its work

The invariant of the writer: where its slots are, what of the admitted calls is settled, running and
queued, and how the queue looks while the writer accepts work, while it closes, and after it has
stopped or failed.  Every step keeps it.
-/

namespace McpTelegram

open Foundations

variable {δ : Type*}
variable {busy : Bool} {waiter : SlotWaiter δ}

/-! ## One callback -/

section Execution

variable {faults : ExecuteFaults} {callback : WriteCallback δ} {conn : Connection ℕ δ}
  {contract : Bool}

/-- A connection on which a callback may be called. -/
def IdleGuarded (conn : Connection ℕ δ) : Prop := conn.Idle ∧ conn.queryOnly = true

/-- An open connection says whether it is in a transaction. -/
theorem inTransaction_eq_some (h : conn.inTransaction = some busy) :
    conn.closed = false ∧ conn.transaction.isSome = busy := by
  unfold Connection.inTransaction at h
  split_ifs at h with hclosed
  exact ⟨Bool.eq_false_iff.mpr hclosed, Option.some.inj h⟩

/-- The check passes on a guarded connection only. -/
theorem guarded_of_checkIdle {fault : Bool} (h : checkIdle fault conn = .ok ()) :
    IdleGuarded conn := by
  cases fault with
  | true => cases h
  | false =>
    rw [checkIdle, if_neg Bool.false_ne_true] at h
    rcases hbusy : conn.inTransaction with _ | _ | _
    · rw [hbusy] at h
      cases h
    · obtain ⟨hopen, hnone⟩ := inTransaction_eq_some hbusy
      rw [hbusy] at h
      dsimp only at h
      split_ifs at h with hguard
      exact ⟨⟨hopen, Option.not_isSome_iff_eq_none.mp (by simp [hnone])⟩, hguard⟩
    · rw [hbusy] at h
      cases h

/-- A rollback of a busy connection. -/
theorem rollback_spec {rolled : Connection ℕ δ} (hbusy : conn.inTransaction = some busy)
    (h : (if busy then orRaise faults.rollback conn.rollback else some conn) = some rolled) :
    rolled.Idle ∧ rolled.database = conn.database := by
  obtain ⟨hopen, hsome⟩ := inTransaction_eq_some hbusy
  cases busy with
  | true =>
    obtain ⟨-, hrollback⟩ := orRaise_eq_some.mp h
    rw [Connection.rollback, if_neg (by simp [hopen])] at hrollback
    obtain rfl := Option.some.inj hrollback
    exact ⟨⟨hopen, rfl⟩, rfl⟩
  | false =>
    obtain rfl := Option.some.inj h
    exact ⟨⟨hopen, Option.not_isSome_iff_eq_none.mp (by simp [hsome])⟩, rfl⟩

/-- What recovery makes of a connection: closed after a fatal failure, guarded otherwise, and with
the same database. -/
structure Recovered (conn : Connection ℕ δ) (recovered : Connection ℕ δ × Bool) : Prop where
  fatal : recovered.2 = true → recovered.1.closed = true
  guarded : recovered.2 = false → IdleGuarded recovered.1
  transaction : recovered.1.transaction = none
  database : recovered.1.database = conn.database

/-- A connection that recovery closes. -/
theorem Recovered.close {conn closing : Connection ℕ δ}
    (h : closing.database = conn.database) : Recovered conn (closing.close, true) where
  fatal _ := rfl
  guarded := nofun
  transaction := rfl
  database := h

/-- Recovery. -/
theorem recover_spec : Recovered conn (recover faults conn contract) := by
  unfold recover
  rcases hbusy : conn.inTransaction with _ | busy
  · exact .close rfl
  dsimp only
  rcases hrolled : (if busy then orRaise faults.rollback conn.rollback else some conn)
    with _ | rolled
  · exact .close rfl
  obtain ⟨hidle, hdatabase⟩ := rollback_spec hbusy hrolled
  dsimp only
  rcases hrestored : orRaise (faults.guardRead || faults.guardRestore) (rolled.setQueryOnly true)
    with _ | restored
  · exact .close hdatabase
  obtain ⟨-, hset⟩ := orRaise_eq_some.mp hrestored
  rw [Connection.setQueryOnly, if_neg (by simp [hidle.1])] at hset
  obtain rfl := Option.some.inj hset
  dsimp only
  split_ifs with hfatal
  · exact .close hdatabase
  · exact
      { fatal := fun hfatal => absurd hfatal Bool.false_ne_true
        guarded := fun _ => ⟨⟨hidle.1, hidle.2⟩, rfl⟩
        transaction := hidle.2
        database := hdatabase }

/-- What one execution does: the callback is called on a guarded connection only, the connection is
guarded after it or closed by a fatal failure, and a failure without a commit leaves the
database. -/
structure Executed (callback : WriteCallback δ) (conn : Connection ℕ δ)
    (execution : Execution δ) : Prop where
  called : execution.called = true → IdleGuarded conn
  uncalled : execution.called = false → execution.failed = true
  guarded : execution.fatal = false → IdleGuarded execution.conn
  fatal : execution.fatal = true → execution.conn.closed = true ∧ execution.failed = true
  unchanged : execution.failed = true →
    (execution.called = true → (callback conn).1.database = conn.database) →
      execution.conn.database = conn.database

/-- A failure of the callback. -/
theorem executed_of_recover {after : Connection ℕ δ}
    (hcalled : IdleGuarded conn) (hafter : (callback conn).1 = after) :
    Executed callback conn
      ⟨(recover faults after contract).1, true, true, (recover faults after contract).2⟩ where
  called _ := hcalled
  uncalled := nofun
  guarded h := recover_spec.guarded h
  fatal h := ⟨recover_spec.fatal h, rfl⟩
  unchanged _ hsame := by
    rw [← hsame rfl, hafter]
    exact recover_spec.database

/-- An execution. -/
theorem execute_spec : Executed callback conn (execute faults callback conn) := by
  unfold execute
  rcases hbefore : checkIdle faults.checkBefore conn with contract | ⟨⟩
  · exact
      { called := nofun
        uncalled := fun _ => rfl
        guarded := fun h => recover_spec.guarded h
        fatal := fun h => ⟨recover_spec.fatal h, rfl⟩
        unchanged := fun _ _ => recover_spec.database }
  have hguarded := guarded_of_checkIdle hbefore
  dsimp only
  rcases hcallback : callback conn with ⟨after, _ | contract | _ | _⟩
  · dsimp only
    rcases hcheck : checkIdle faults.checkAfter after with contract | ⟨⟩
    · exact executed_of_recover hguarded (by rw [hcallback])
    · exact
        { called := fun _ => hguarded
          uncalled := nofun
          guarded := fun _ => guarded_of_checkIdle hcheck
          fatal := nofun
          unchanged := nofun }
  all_goals exact executed_of_recover hguarded (by rw [hcallback])

end Execution

/-! ## The line for the slots -/

section Line

theorem SlotWaiter.done_of_granted (h : waiter.granted = true) : waiter.done = true := by
  rw [SlotWaiter.done, h, Bool.true_or]

/-- Waking keeps the slots, the calls and their order, and leaves a slot only when nobody waits. -/
theorem wakeNext_spec (slots : ℕ) (waiters : List (SlotWaiter δ)) :
    (wakeNext slots waiters).2 + (wakeNext slots waiters).1.countP (·.granted) =
        slots + waiters.countP (·.granted) ∧
      (wakeNext slots waiters).1.map SlotWaiter.call = waiters.map SlotWaiter.call ∧
      ((wakeNext slots waiters).2 = 0 ∨
        ∀ waiter ∈ (wakeNext slots waiters).1, waiter.done = true) := by
  fun_induction wakeNext slots waiters with
  | case1 slots => simp
  | case2 => simp
  | case3 slots waiter waiters hdone woken ih =>
    obtain ⟨hslots, hcalls, hline⟩ := ih
    refine ⟨?_, ?_, ?_⟩
    · simp only [List.countP_cons, woken]
      omega
    · rw [List.map_cons, List.map_cons, hcalls]
    · refine hline.imp_right fun hall waiter' hmem => ?_
      rcases List.mem_cons.mp hmem with rfl | hmem
      · exact hdone
      · exact hall waiter' hmem
  | case4 slots waiter waiters hdone woken ih =>
    obtain ⟨hslots, hcalls, hline⟩ := ih
    have hwaits : waiter.granted = false :=
      Bool.eq_false_iff.mpr fun hgranted => hdone (SlotWaiter.done_of_granted hgranted)
    refine ⟨?_, ?_, ?_⟩
    · simp only [List.countP_cons, hwaits, if_true, Bool.false_eq_true, if_false, woken]
      omega
    · rw [List.map_cons, List.map_cons, hcalls]
    · refine hline.imp_right fun hall waiter' hmem => ?_
      rcases List.mem_cons.mp hmem with rfl | hmem
      · rfl
      · exact hall waiter' hmem

/-- Waking once leaves one waiting only beside one that is done. -/
theorem wakeNext_one (waiters : List (SlotWaiter δ)) :
    (∃ waiter ∈ (wakeNext 1 waiters).1, waiter.done = false) →
      ∃ waiter ∈ (wakeNext 1 waiters).1, waiter.done = true := by
  obtain ⟨hslots, -, hline⟩ := wakeNext_spec 1 waiters
  rintro ⟨waiter, hmem, hwaits⟩
  rcases hline with hzero | hall
  · rw [hzero, zero_add] at hslots
    have hpos : 0 < (wakeNext 1 waiters).1.countP (·.granted) := by omega
    obtain ⟨waiter', hmem', hgranted⟩ := List.countP_pos_iff.mp hpos
    exact ⟨waiter', hmem', SlotWaiter.done_of_granted hgranted⟩
  · rw [hall waiter hmem] at hwaits
    cases hwaits

end Line

/-! ## The invariant -/

namespace WriterWorld

/-- The calls in the queue. -/
def queued (world : WriterWorld δ) : List (WriteCall δ) := world.queue.filterMap id

/-- The call that is being executed. -/
def running (world : WriterWorld δ) : List ℕ :=
  match world.worker with
  | .running call => [call.id]
  | _ => []

/-- The slots that the worker holds. -/
def held (world : WriterWorld δ) : ℕ :=
  match world.worker with
  | .running _ | .settled _ | .retired => 1
  | _ => 0

/-- The slots that were granted to calls that have not resumed. -/
def granted (world : WriterWorld δ) : ℕ := world.waiters.countP (·.granted)

end WriterWorld

/-- The worker before it stops or fails. -/
inductive Working : WorkerPhase δ → Prop
  | opening : Working .opening
  | waiting : Working .waiting
  | running (call : WriteCall δ) : Working (.running call)
  | settled (fatal : Bool) : Working (.settled fatal)
  | failing : Working .failing

/-- The worker at its end. -/
inductive Ending : WorkerPhase δ → Prop
  | finishing : Ending .finishing
  | finished : Ending .finished

/-- A worker at work is not at its end. -/
theorem Working.not_ending {worker : WorkerPhase δ} (h : Working worker) : ¬ Ending worker := by
  intro hending
  cases hending <;> cases h

/-- How the queue and the worker are: the writer accepts work, or closes with the stop as the last
item, or the worker has taken the stop, or it has failed. -/
inductive WriterShape (world : WriterWorld δ) : Prop
  | accepting (hclosed : world.closed = false) (hfatal : world.fatal = false)
      (calls : List (WriteCall δ)) (hqueue : world.queue = calls.map some)
      (hworker : Working world.worker)
  | closing (hclosed : world.closed = true) (hfatal : world.fatal = false)
      (calls : List (WriteCall δ)) (hqueue : world.queue = calls.map some ++ [none])
      (hworker : Working world.worker)
  | stopped (hclosed : world.closed = true) (hfatal : world.fatal = false)
      (hqueue : world.queue = []) (hworker : world.worker = .failing ∨ Ending world.worker)
  | failed (hfatal : world.fatal = true) (hqueue : world.queue = [])
      (hworker : world.worker = .retired ∨ Ending world.worker)

/-- The invariant of the writer. -/
structure WriterInv (capacity : ℕ) (world : WriterWorld δ) : Prop where
  shape : WriterShape world
  slots : world.free + world.granted + world.queued.length + world.held + world.releases = capacity
  /-- Nobody waits beside a free slot unless a task that resumes in the line will wake it. -/
  line : (∃ waiter ∈ world.waiters, waiter.done = false) →
    world.free = 0 ∨ ∃ waiter ∈ world.waiters, waiter.done = true
  order : world.admitted =
    world.settled.map Prod.fst ++ world.running ++ world.queued.map WriteCall.id
  admitted : world.admitted.Nodup
  waiting : (world.waiters.map (·.call.id)).Nodup
  fresh : ∀ waiter ∈ world.waiters, waiter.call.id ∉ world.admitted
  executed : (world.executed.map Prod.fst).Sublist (world.settled.map Prod.fst)
  /-- A call that is settled without an execution failed. -/
  unexecuted : ∀ result ∈ world.settled, result.1 ∉ world.executed.map Prod.fst → result.2 = true
  guarded : ∀ execution ∈ world.executed, IdleGuarded execution.2
  failure : world.failureFuture = world.fatal
  closed : world.closedFuture = true ↔ world.worker = .finished

section Steps

variable {capacity : ℕ} {world next : WriterWorld δ}
variable {free releases capacity' id : ℕ} {call : WriteCall δ} {worker : WorkerPhase δ}

/-- The shape is one of the queue, the worker and the two flags. -/
theorem WriterShape.congr (h : WriterShape world) (hclosed : next.closed = world.closed)
    (hfatal : next.fatal = world.fatal) (hqueue : next.queue = world.queue)
    (hworker : next.worker = world.worker) : WriterShape next := by
  cases h with
  | accepting hopen hlive calls hcalls hworking =>
    exact .accepting (hclosed.trans hopen) (hfatal.trans hlive) calls (hqueue.trans hcalls)
      (hworker ▸ hworking)
  | closing hshut hlive calls hcalls hworking =>
    exact .closing (hclosed.trans hshut) (hfatal.trans hlive) calls (hqueue.trans hcalls)
      (hworker ▸ hworking)
  | stopped hshut hlive hempty hended =>
    exact .stopped (hclosed.trans hshut) (hfatal.trans hlive) (hqueue.trans hempty)
      (hworker ▸ hended)
  | failed hdead hempty hended =>
    exact .failed (hfatal.trans hdead) (hqueue.trans hempty) (hworker ▸ hended)

/-- The line changes: nothing else does, and no call joins it.  A slot that a call has in its hands
is not counted, so the slots may change with the line. -/
theorem WriterInv.changeLine (h : WriterInv capacity world) {waiters : List (SlotWaiter δ)}
    {refused left : List ℕ} (hslots : free + waiters.countP (·.granted) + releases + capacity =
      world.free + world.granted + world.releases + capacity')
    (hline : (∃ waiter ∈ waiters, waiter.done = false) →
      free = 0 ∨ ∃ waiter ∈ waiters, waiter.done = true)
    (hcalls : (waiters.map SlotWaiter.call).Sublist (world.waiters.map SlotWaiter.call)) :
    WriterInv capacity' { world with
      waiters := waiters
      free := free
      releases := releases
      refused := refused
      left := left } := by
  have hids : ∀ (waiters : List (SlotWaiter δ)), waiters.map (·.call.id) =
      (waiters.map SlotWaiter.call).map WriteCall.id := fun waiters => (List.map_map).symm
  refine
    { shape := h.shape.congr rfl rfl rfl rfl
      slots := ?_
      line := hline
      order := h.order
      admitted := h.admitted
      waiting := ?_
      fresh := ?_
      executed := h.executed
      unexecuted := h.unexecuted
      guarded := h.guarded
      failure := h.failure
      closed := h.closed }
  · have hsame := h.slots
    change free + waiters.countP (·.granted) + world.queued.length + world.held + releases = _
    omega
  · rw [hids]
    have hnodup := h.waiting
    rw [hids] at hnodup
    exact hnodup.sublist (hcalls.map WriteCall.id)
  · intro waiter hmem
    obtain ⟨waiter', hmem', hsame⟩ :=
      List.mem_map.mp (hcalls.subset (List.mem_map_of_mem hmem))
    rw [← hsame]
    exact h.fresh waiter' hmem'

/-- A slot comes back to the line. -/
theorem WriterInv.releaseSlot (h : WriterInv capacity world) (refused : List ℕ) :
    WriterInv (capacity + 1) { world.releaseSlot with refused := refused } := by
  obtain ⟨hslots, hcalls, -⟩ := wakeNext_spec 1 world.waiters
  refine h.changeLine ?_ (fun hwaits => .inr (wakeNext_one world.waiters hwaits)) ?_
  · change world.free + (wakeNext 1 world.waiters).2 +
        (wakeNext 1 world.waiters).1.countP (·.granted) + world.releases + capacity =
      world.free + world.waiters.countP (·.granted) + world.releases + (capacity + 1)
    omega
  · change ((wakeNext 1 world.waiters).1.map SlotWaiter.call).Sublist _
    rw [hcalls]

/-- A waiter leaves the line, with its slot if it was granted one. -/
theorem WriterInv.leaveLine (left : List ℕ) (h : WriterInv capacity world)
    (hfind : world.waiters.find? (·.call.id = id) = some waiter)
    (hslots : free + capacity = world.free + (if waiter.granted then 1 else 0) + capacity') :
    WriterInv capacity' (WriterWorld.leaveLine { world with free := free, left := left } id) ∧
      id ∉ (WriterWorld.leaveLine { world with free := free, left := left } id).waiters.map
        (·.call.id) ∧
      waiter.call.id = id := by
  obtain ⟨hid, front, back, hsplit, hfront⟩ := List.find?_eq_some_iff_append.mp hfind
  rw [decide_eq_true_iff] at hid
  have herase : world.waiters.eraseP (·.call.id = id) = front ++ back := by
    rw [hsplit, List.eraseP_append_right _ (by simpa using hfront),
      List.eraseP_cons_of_pos (by simpa using hid)]
  obtain ⟨hwoken, hcalls, hline⟩ := wakeNext_spec free (front ++ back)
  have hcount : world.waiters.countP (·.granted) =
      (front ++ back).countP (·.granted) + (if waiter.granted then 1 else 0) := by
    rw [hsplit, List.countP_append, List.countP_append, List.countP_cons]
    omega
  have hsub : (front ++ back).Sublist world.waiters := by
    rw [hsplit]
    exact (List.Sublist.refl front).append (List.sublist_cons_self waiter back)
  have hwaiting := h.waiting
  have hids : (wakeNext free (front ++ back)).1.map (·.call.id) =
      (front ++ back).map (·.call.id) := by
    have hmap := congrArg (List.map WriteCall.id) hcalls
    rw [List.map_map, List.map_map] at hmap
    exact hmap
  refine ⟨?_, ?_, hid⟩
  · rw [WriterWorld.leaveLine]
    simp only [herase]
    refine h.changeLine ?_ (fun hwaits => ?_) ?_
    · change _ + _ + _ + _ = _ + world.waiters.countP _ + _ + _
      omega
    · refine hline.imp_right fun hall => ?_
      obtain ⟨waiter', hmem, hwait⟩ := hwaits
      rw [hall waiter' hmem] at hwait
      cases hwait
    · rw [hcalls]
      exact hsub.map SlotWaiter.call
  · rw [WriterWorld.leaveLine]
    simp only [herase, hids]
    rw [hsplit, List.map_append, List.map_cons] at hwaiting
    have hmiddle := (List.nodup_middle.mp hwaiting)
    rw [List.nodup_cons, hid, ← List.map_append] at hmiddle
    exact hmiddle.1

/-- A call with a slot in its hands is admitted or refused. -/
theorem WriterInv.submit (h : WriterInv capacity world) (hnew : call.id ∉ world.admitted)
    (hline : call.id ∉ world.waiters.map (·.call.id)) :
    WriterInv (capacity + 1) (world.submit call) := by
  unfold WriterWorld.submit
  split_ifs with hclosed
  · exact h.releaseSlot _
  rw [not_or, Bool.not_eq_true, Bool.not_eq_true] at hclosed
  cases h.shape with
  | closing hshut | stopped hshut =>
    rw [hclosed.1] at hshut
    cases hshut
  | failed hfatal _ _ =>
    rw [hclosed.2] at hfatal
    cases hfatal
  | accepting hopen hfatal calls hqueue hworker =>
    have hqueued : ({ world with
        queue := world.queue ++ [some call]
        admitted := world.admitted ++ [call.id] } : WriterWorld δ).queued =
          world.queued ++ [call] := by
      rw [WriterWorld.queued, WriterWorld.queued, List.filterMap_append]
      rfl
    refine
      { shape := .accepting hopen hfatal (calls ++ [call]) ?_ hworker
        slots := ?_
        line := h.line
        order := ?_
        admitted := ?_
        waiting := h.waiting
        fresh := ?_
        executed := h.executed
        unexecuted := h.unexecuted
        guarded := h.guarded
        failure := h.failure
        closed := h.closed }
    · rw [List.map_append, ← hqueue]
      rfl
    · have hsame := h.slots
      rw [hqueued, List.length_append, List.length_singleton]
      change world.free + world.granted + _ + world.held + world.releases = _
      omega
    · rw [hqueued, List.map_append, ← List.append_assoc]
      exact congrArg (· ++ [call.id]) h.order
    · rw [List.nodup_append_comm]
      exact List.nodup_cons.mpr ⟨hnew, h.admitted⟩
    · intro waiter hmem hadmitted
      rcases List.mem_append.mp hadmitted with hbefore | hsame
      · exact h.fresh waiter hmem hbefore
      · rw [← List.mem_singleton.mp hsame] at hline
        exact hline (List.mem_map_of_mem hmem)

/-- A new call. -/
theorem WriterInv.runCall (h : WriterInv capacity world) (hnew : call.id ∉ world.admitted)
    (hline : call.id ∉ world.waiters.map (·.call.id)) :
    WriterInv capacity (world.runCall call) := by
  unfold WriterWorld.runCall
  split_ifs with hlocked
  · refine
      { shape := h.shape.congr rfl rfl rfl rfl
        slots := ?_
        line := ?_
        order := h.order
        admitted := h.admitted
        waiting := ?_
        fresh := ?_
        executed := h.executed
        unexecuted := h.unexecuted
        guarded := h.guarded
        failure := h.failure
        closed := h.closed }
    · have hsame := h.slots
      have hgranted : (world.waiters ++ [(⟨call, false, false⟩ : SlotWaiter δ)]).countP
          (·.granted) = world.granted := by
        rw [List.countP_append]
        rfl
      change world.free + (world.waiters ++ [(⟨call, false, false⟩ : SlotWaiter δ)]).countP
        (·.granted) + _ + _ + _ = _
      rw [hgranted]
      exact hsame
    · -- beside a free slot, the waiter that locks the line is done or waits with one that is
      rintro -
      rcases hlocked with hfree | ⟨waiter, hmem, hlive⟩
      · exact .inl hfree
      · rcases hdone : waiter.done with _ | _
        · refine (h.line ⟨waiter, hmem, hdone⟩).imp_right fun hother => ?_
          obtain ⟨waiter', hmem', hdone'⟩ := hother
          exact ⟨waiter', List.mem_append_left _ hmem', hdone'⟩
        · exact .inr ⟨waiter, List.mem_append_left _ hmem, hdone⟩
    · change ((world.waiters ++ [(⟨call, false, false⟩ : SlotWaiter δ)]).map (·.call.id)).Nodup
      rw [List.map_append, List.nodup_append_comm]
      exact List.nodup_cons.mpr ⟨hline, h.waiting⟩
    · intro waiter hmem
      rcases List.mem_append.mp hmem with hbefore | hsame
      · exact h.fresh waiter hbefore
      · rw [List.mem_singleton.mp hsame]
        exact hnew
  · rw [not_or, not_exists] at hlocked
    obtain ⟨capacity', rfl⟩ : ∃ capacity', capacity = capacity' + 1 := by
      have hsame := h.slots
      exact ⟨capacity - 1, by omega⟩
    have hfree := Nat.pos_of_ne_zero hlocked.1
    have hhand : WriterInv capacity' { world with free := world.free - 1 } := by
      refine h.changeLine ?_ (fun hwaits => ?_) (List.Sublist.refl _)
      · change world.free - 1 + world.granted + world.releases + _ = _
        omega
      · -- a waiter that is not done is live
        obtain ⟨waiter, hmem, hdone⟩ := hwaits
        rw [SlotWaiter.done, Bool.or_eq_false_iff] at hdone
        refine absurd ⟨hmem, ?_⟩ (hlocked.2 waiter)
        rw [SlotWaiter.live, hdone.2, Bool.not_false, Bool.or_true]
    exact hhand.submit hnew hline

/-- A task resumes in the line. -/
theorem WriterInv.resume (h : WriterInv capacity world) (hstep : world.resume id = some next) :
    WriterInv capacity next := by
  unfold WriterWorld.resume at hstep
  rcases hfind : world.waiters.find? (·.call.id = id) with _ | waiter
  · rw [hfind] at hstep
    cases hstep
  rw [hfind] at hstep
  dsimp only at hstep
  split_ifs at hstep with hcancelled hgranted hgranted
  · obtain rfl := Option.some.inj hstep
    exact (h.leaveLine _ hfind (by rw [if_pos hgranted])).1
  · obtain rfl := Option.some.inj hstep
    exact (h.leaveLine _ hfind (by rw [if_neg hgranted]; rfl)).1
  · obtain rfl := Option.some.inj hstep
    have hmem := List.mem_of_find?_eq_some hfind
    obtain ⟨capacity', rfl⟩ : ∃ capacity', capacity = capacity' + 1 := by
      have hsame := h.slots
      have hpos : 0 < world.granted := List.countP_pos_iff.mpr ⟨waiter, hmem, hgranted⟩
      exact ⟨capacity - 1, by omega⟩
    have hcount : world.free + (capacity' + 1) =
        world.free + (if waiter.granted then 1 else 0) + capacity' := by
      rw [if_pos hgranted]
      omega
    obtain ⟨hleft, hgone, rfl⟩ := h.leaveLine world.left hfind hcount
    exact hleft.submit (h.fresh waiter hmem) hgone

/-- A task is cancelled in the line. -/
theorem WriterInv.cancel (h : WriterInv capacity world) (id : ℕ) :
    WriterInv capacity (world.cancel id) := by
  let mark : SlotWaiter δ → SlotWaiter δ := fun waiter =>
    if waiter.call.id = id then { waiter with cancelled := true } else waiter
  have hcall : ∀ waiter, (mark waiter).call = waiter.call := by
    intro waiter
    simp only [mark]
    split_ifs <;> rfl
  have hgranted : ∀ waiter, (mark waiter).granted = waiter.granted := by
    intro waiter
    simp only [mark]
    split_ifs <;> rfl
  have hdone : ∀ waiter, waiter.done = true → (mark waiter).done = true := by
    intro waiter hdone
    simp only [mark]
    split_ifs
    · exact Bool.or_true _
    · exact hdone
  refine h.changeLine ?_ (fun hwaits => ?_) ?_
  · change world.free + (world.waiters.map mark).countP (·.granted) + _ + _ = _
    rw [List.countP_map, List.countP_congr fun waiter _ => by rw [Function.comp_apply, hgranted]]
    rfl
  · obtain ⟨marked, hmarked, hwait⟩ := hwaits
    obtain ⟨waiter, hmem, rfl⟩ := List.mem_map.mp hmarked
    have hwaited : waiter.done = false := by
      by_contra hnot
      rw [Bool.not_eq_false] at hnot
      rw [show (mark waiter).done = true from hdone waiter hnot] at hwait
      cases hwait
    refine (h.line ⟨waiter, hmem, hwaited⟩).imp_right fun hother => ?_
    obtain ⟨waiter', hmem', hdone'⟩ := hother
    exact ⟨mark waiter', List.mem_map_of_mem hmem', hdone waiter' hdone'⟩
  · change ((world.waiters.map mark).map SlotWaiter.call).Sublist _
    rw [List.map_map, List.map_congr_left fun waiter _ => by rw [Function.comp_apply, hcall]]

/-- A scheduled release is called. -/
theorem WriterInv.release (h : WriterInv capacity world) (hreleases : world.releases = releases + 1) :
    WriterInv capacity (WriterWorld.releaseSlot { world with releases := releases }) := by
  obtain ⟨capacity', rfl⟩ : ∃ capacity', capacity = capacity' + 1 := by
    have hsame := h.slots
    exact ⟨capacity - 1, by omega⟩
  have hhand : WriterInv capacity' { world with releases := releases } := by
    refine h.changeLine ?_ h.line (List.Sublist.refl _)
    change world.free + world.granted + releases + _ = _
    omega
  exact hhand.releaseSlot world.refused

/-- The writer is asked to close. -/
theorem WriterInv.requestClose (h : WriterInv capacity world) :
    WriterInv capacity world.requestClose := by
  unfold WriterWorld.requestClose
  split_ifs with hclosed hfatal
  · exact h
  · refine
      { h with
        shape := ?_ }
    cases h.shape with
    | accepting _ hfatal' _ _ _ =>
      rw [hfatal] at hfatal'
      cases hfatal'
    | closing hclosed' _ _ _ _ => exact absurd hclosed' hclosed
    | stopped hclosed' _ _ _ => exact absurd hclosed' hclosed
    | failed hfatal hqueue hworker => exact .failed hfatal hqueue hworker
  · have hqueued : ({ world with closed := true, queue := world.queue ++ [none] } :
        WriterWorld δ).queued = world.queued := by
      rw [WriterWorld.queued, WriterWorld.queued, List.filterMap_append]
      exact List.append_nil _
    refine
      { h with
        shape := ?_
        slots := ?_
        order := ?_ }
    · cases h.shape with
      | accepting _ hfatal calls hqueue hworker =>
        exact .closing rfl hfatal calls (by rw [hqueue]) hworker
      | closing hclosed' _ _ _ _ => exact absurd hclosed' hclosed
      | stopped hclosed' _ _ _ => exact absurd hclosed' hclosed
      | failed hfatal' _ _ => exact absurd hfatal' hfatal
    · rw [hqueued]
      exact h.slots
    · rw [hqueued]
      exact h.order

/-- A worker that is at work and not failing goes on with its work. -/
theorem WriterShape.goOn (h : WriterShape world) (hworking : Working world.worker)
    (hfailing : world.worker ≠ .failing) (hnext : Working worker)
    (hclosed : next.closed = world.closed) (hfatal : next.fatal = world.fatal)
    (hqueue : next.queue = world.queue) (hworker : next.worker = worker) : WriterShape next := by
  have hnotEnding : ¬ Ending world.worker := hworking.not_ending
  have hnotRetired : world.worker ≠ .retired := by
    intro hretired
    rw [hretired] at hworking
    cases hworking
  cases h with
  | accepting hopen hfatal' calls hqueue' _ =>
    exact .accepting (hclosed.trans hopen) (hfatal.trans hfatal') calls (hqueue.trans hqueue')
      (hworker ▸ hnext)
  | closing hshut hfatal' calls hqueue' _ =>
    exact .closing (hclosed.trans hshut) (hfatal.trans hfatal') calls (hqueue.trans hqueue')
      (hworker ▸ hnext)
  | stopped _ _ _ hworker' =>
    rcases hworker' with hsame | hending
    · exact absurd hsame hfailing
    · exact absurd hending hnotEnding
  | failed _ _ hworker' =>
    rcases hworker' with hsame | hending
    · exact absurd hsame hnotRetired
    · exact absurd hending hnotEnding

/-- The worker opens its connection. -/
theorem WriterInv.openConnection (h : WriterInv capacity world)
    (hworker : world.worker = .opening) (fault : Bool) :
    WriterInv capacity { world with worker := if fault then .failing else .waiting } := by
  have hnext : Working (if fault then (.failing : WorkerPhase δ) else .waiting) := by
    cases fault with
    | true => exact .failing
    | false => exact .waiting
  have hslots := h.slots
  have horder := h.order
  have hclosed := h.closed
  refine
    { h with
      shape := h.shape.goOn (hworker ▸ .opening) (by rw [hworker]; exact nofun) hnext
        rfl rfl rfl rfl
      slots := ?_
      order := ?_
      closed := ?_ }
  · rw [WriterWorld.held, hworker] at hslots
    cases fault <;> exact hslots
  · rw [WriterWorld.running, hworker] at horder
    cases fault <;> exact horder
  · rw [hclosed, hworker]
    cases fault <;> simp

/-- The worker takes an item. -/
theorem WriterInv.take (h : WriterInv capacity world) (hworker : world.worker = .waiting)
    {checkpointFault : Bool} (hstep : world.take checkpointFault = some next) :
    WriterInv capacity next := by
  have hslots := h.slots
  have horder := h.order
  have hclosed := h.closed
  rw [WriterWorld.held, hworker] at hslots
  rw [WriterWorld.running, hworker] at horder
  rw [hworker] at hclosed
  unfold WriterWorld.take at hstep
  rcases hqueue : world.queue with _ | ⟨_ | call, queue⟩
  · rw [hqueue] at hstep
    cases hstep
  · rw [hqueue] at hstep
    obtain rfl := Option.some.inj hstep
    -- the stop is the last item
    obtain ⟨hshut, hfatal, rfl⟩ : world.closed = true ∧ world.fatal = false ∧ queue = [] := by
      cases h.shape with
      | accepting _ _ calls hcalls _ =>
        rw [hcalls] at hqueue
        cases calls <;> cases hqueue
      | closing hshut hfatal calls hcalls _ =>
        rw [hcalls] at hqueue
        cases calls with
        | nil => exact ⟨hshut, hfatal, (List.cons.inj hqueue).2.symm⟩
        | cons call calls => cases (List.cons.inj hqueue).1
      | stopped _ _ hempty | failed _ hempty =>
        rw [hempty] at hqueue
        cases hqueue
    rw [WriterWorld.queued, hqueue] at hslots horder
    refine
      { h with
        shape := .stopped hshut hfatal rfl ?_
        slots := ?_
        order := ?_
        closed := ?_ }
    · cases checkpointFault with
      | true => exact .inl rfl
      | false => exact .inr .finishing
    · cases checkpointFault <;> exact hslots
    · cases checkpointFault <;> exact horder
    · rw [hclosed]
      cases checkpointFault <;> simp
  · rw [hqueue] at hstep
    obtain rfl := Option.some.inj hstep
    have hcall : world.queued = call :: queue.filterMap id := by
      rw [WriterWorld.queued, hqueue]
      rfl
    rw [hcall] at hslots horder
    refine
      { h with
        shape := ?_
        slots := ?_
        order := ?_
        closed := ?_ }
    · cases h.shape with
      | accepting hopen hfatal calls hcalls _ =>
        rw [hcalls] at hqueue
        cases calls with
        | nil => cases hqueue
        | cons first calls =>
          exact .accepting hopen hfatal calls (List.cons.inj hqueue).2.symm (.running call)
      | closing hshut hfatal calls hcalls _ =>
        rw [hcalls] at hqueue
        cases calls with
        | nil => cases (List.cons.inj hqueue).1
        | cons first calls =>
          exact .closing hshut hfatal calls (List.cons.inj hqueue).2.symm (.running call)
      | stopped _ _ hempty | failed _ hempty =>
        rw [hempty] at hqueue
        cases hqueue
    · rw [List.length_cons] at hslots
      change world.free + world.granted + (queue.filterMap id).length + 1 + world.releases = _
      omega
    · rw [List.append_nil, List.map_cons] at horder
      rw [horder]
      exact List.append_cons _ _ _
    · rw [hclosed]
      simp

/-- The worker executes the call that it has taken. -/
theorem WriterInv.executeCall (h : WriterInv capacity world)
    (hworker : world.worker = .running call) (faults : ExecuteFaults) :
    WriterInv capacity (world.executeCall faults call) := by
  have hslots := h.slots
  have horder := h.order
  have hclosed := h.closed
  rw [WriterWorld.held, hworker] at hslots
  rw [WriterWorld.running, hworker] at horder
  rw [hworker] at hclosed
  have hspec := @execute_spec δ faults call.callback world.conn
  refine
    { h with
      shape := h.shape.goOn (hworker ▸ .running call) (by rw [hworker]; exact nofun)
        (.settled _) rfl rfl rfl rfl
      slots := hslots
      order := ?_
      executed := ?_
      unexecuted := ?_
      guarded := ?_
      closed := ?_ }
  · change world.admitted = (world.settled ++ [(call.id, _)]).map Prod.fst ++ [] ++ _
    rw [List.append_nil, List.map_append]
    exact horder
  · unfold WriterWorld.executeCall
    dsimp only
    rw [List.map_append]
    split_ifs with hcalled
    · rw [List.map_append]
      exact h.executed.append (List.Sublist.refl _)
    · exact h.executed.trans (List.sublist_append_left _ _)
  · unfold WriterWorld.executeCall
    dsimp only
    intro result hmem hnot
    split_ifs at hnot with hcalled
    · rw [List.map_append, List.mem_append, not_or] at hnot
      rcases List.mem_append.mp hmem with hbefore | hsame
      · exact h.unexecuted result hbefore hnot.1
      · exact absurd (by rw [List.mem_singleton.mp hsame]; exact List.mem_singleton_self _) hnot.2
    · rcases List.mem_append.mp hmem with hbefore | hsame
      · exact h.unexecuted result hbefore hnot
      · rw [List.mem_singleton.mp hsame]
        exact hspec.uncalled (Bool.eq_false_iff.mpr hcalled)
  · unfold WriterWorld.executeCall
    dsimp only
    split_ifs with hcalled
    · intro execution hmem
      rcases List.mem_append.mp hmem with hbefore | hsame
      · exact h.guarded execution hbefore
      · rw [List.mem_singleton.mp hsame]
        exact hspec.called hcalled
    · exact h.guarded
  · rw [show (world.executeCall faults call).closedFuture = world.closedFuture from rfl, hclosed]
    exact ⟨nofun, nofun⟩

/-- The writer fails: what is queued is settled, and its slots are on their way. -/
theorem WriterInv.failPending (h : WriterInv capacity world) (hfinished : world.worker ≠ .finished)
    (hrunning : world.running = []) (hnext : worker = .retired ∨ worker = .finishing)
    (hheld : WriterWorld.held { world.failPending with worker := worker } = world.held) :
    WriterInv capacity { world.failPending with worker := worker } := by
  have hslots := h.slots
  have horder := h.order
  rw [hrunning, List.append_nil] at horder
  refine
    { shape := .failed rfl rfl ?_
      slots := ?_
      line := h.line
      order := ?_
      admitted := h.admitted
      waiting := h.waiting
      fresh := h.fresh
      executed := ?_
      unexecuted := ?_
      guarded := h.guarded
      failure := rfl
      closed := ?_ }
  · refine hnext.imp_right fun hfinishing => ?_
    rw [hfinishing]
    exact .finishing
  · rw [hheld]
    change world.free + world.granted + 0 + world.held +
      (world.releases + world.queued.length) = capacity
    omega
  · have hnone : WriterWorld.running { world.failPending with worker := worker } = [] := by
      rcases hnext with rfl | rfl <;> rfl
    rw [hnone, List.append_nil]
    change world.admitted = (world.settled ++ world.queued.map _).map Prod.fst ++ []
    rw [List.append_nil, List.map_append, List.map_map]
    exact horder
  · change (world.executed.map Prod.fst).Sublist ((world.settled ++ _).map Prod.fst)
    rw [List.map_append]
    exact h.executed.trans (List.sublist_append_left _ _)
  · intro result hmem hnot
    rcases List.mem_append.mp hmem with hbefore | hpending
    · exact h.unexecuted result hbefore hnot
    · obtain ⟨call, -, rfl⟩ := List.mem_map.mp hpending
      rfl
  · have hopen : world.closedFuture ≠ true := fun hclosed => hfinished (h.closed.mp hclosed)
    refine ⟨fun hclosed => absurd hclosed hopen, fun hlast => ?_⟩
    change worker = .finished at hlast
    rcases hnext with rfl | rfl <;> cases hlast

/-- The worker schedules the release of the slot it holds. -/
theorem WriterInv.scheduleRelease (h : WriterInv capacity world) (fatal : Bool)
    (hworker : world.worker = if fatal then .retired else .settled false) :
    WriterInv capacity { world with
      worker := if fatal then .finishing else .waiting
      releases := world.releases + 1 } := by
  have hslots := h.slots
  have horder := h.order
  have hclosed := h.closed
  rw [WriterWorld.held, hworker] at hslots
  rw [WriterWorld.running, hworker] at horder
  rw [hworker] at hclosed
  cases fatal with
  | false =>
    refine
      { h with
        shape := h.shape.goOn (hworker ▸ .settled false) (by rw [hworker]; exact nofun) .waiting
          rfl rfl rfl rfl
        slots := ?_
        order := horder
        closed := ?_ }
    · change world.free + world.granted + world.queued.length + 1 + world.releases = _ at hslots
      change world.free + world.granted + world.queued.length + 0 + (world.releases + 1) = _
      omega
    · exact hclosed.trans ⟨nofun, nofun⟩
  | true =>
    refine
      { h with
        shape := ?_
        slots := ?_
        order := horder
        closed := ?_ }
    · cases h.shape with
      | accepting _ _ _ _ hworking | closing _ _ _ _ hworking =>
        rw [hworker] at hworking
        cases hworking
      | stopped hshut hlive hempty hended =>
        rw [hworker] at hended
        rcases hended with hsame | hending
        · cases hsame
        · cases hending
      | failed hdead hempty _ => exact .failed hdead hempty (.inr .finishing)
    · change world.free + world.granted + world.queued.length + 1 + world.releases = _ at hslots
      change world.free + world.granted + world.queued.length + 0 + (world.releases + 1) = _
      omega
    · exact hclosed.trans ⟨nofun, nofun⟩

/-- The worker finishes. -/
theorem WriterInv.finishWorker (h : WriterInv capacity world)
    (hworker : world.worker = .finishing) (conn : Connection ℕ δ) :
    WriterInv capacity { world with worker := .finished, closedFuture := true, conn := conn } := by
  have hslots := h.slots
  have horder := h.order
  rw [WriterWorld.held, hworker] at hslots
  rw [WriterWorld.running, hworker] at horder
  refine
    { h with
      shape := ?_
      slots := hslots
      order := horder
      closed := ⟨fun _ => rfl, fun _ => rfl⟩ }
  cases h.shape with
  | accepting _ _ _ _ hworking =>
    rw [hworker] at hworking
    cases hworking
  | closing _ _ _ _ hworking =>
    rw [hworker] at hworking
    cases hworking
  | stopped hshut hlive hempty _ => exact .stopped hshut hlive hempty (.inr .finished)
  | failed hdead hempty _ => exact .failed hdead hempty (.inr .finished)

/-- A step keeps the invariant. -/
theorem WriterInv.step (h : WriterInv capacity world) {action : WriterAction δ}
    (hstep : world.step action = some next) : WriterInv capacity next := by
  cases action with
  | run call =>
    unfold WriterWorld.step at hstep
    dsimp only at hstep
    split_ifs at hstep with hold
    obtain rfl := Option.some.inj hstep
    rw [not_or, not_or] at hold
    have hcalled : WriterInv capacity { world with called := world.called ++ [call.id] } :=
      { h with shape := h.shape.congr rfl rfl rfl rfl }
    exact hcalled.runCall hold.1 hold.2.2
  | resume id => exact h.resume hstep
  | cancel id =>
    obtain rfl := Option.some.inj hstep
    exact h.cancel id
  | release =>
    unfold WriterWorld.step at hstep
    rcases hreleases : world.releases with _ | releases
    · rw [hreleases] at hstep
      cases hstep
    · rw [hreleases] at hstep
      obtain rfl := Option.some.inj hstep
      exact h.release hreleases
  | aclose =>
    obtain rfl := Option.some.inj hstep
    exact h.requestClose
  | openConnection fault =>
    unfold WriterWorld.step at hstep
    dsimp only at hstep
    split at hstep
    · next hworker =>
      obtain rfl := Option.some.inj hstep
      exact h.openConnection hworker fault
    · cases hstep
  | take checkpointFault =>
    unfold WriterWorld.step at hstep
    dsimp only at hstep
    split at hstep
    · next hworker => exact h.take hworker hstep
    · cases hstep
  | execute faults =>
    unfold WriterWorld.step at hstep
    dsimp only at hstep
    split at hstep
    · next hworker =>
      obtain rfl := Option.some.inj hstep
      exact h.executeCall hworker faults
    · cases hstep
  | retire =>
    unfold WriterWorld.step at hstep
    dsimp only at hstep
    split at hstep
    · next hworker =>
      obtain rfl := Option.some.inj hstep
      refine h.failPending (by rw [hworker]; exact nofun) ?_ (.inl rfl) ?_
      · rw [WriterWorld.running, hworker]
      · rw [WriterWorld.held, WriterWorld.held, hworker]
    · cases hstep
  | scheduleRelease =>
    unfold WriterWorld.step at hstep
    dsimp only at hstep
    split at hstep
    · next hworker =>
      obtain rfl := Option.some.inj hstep
      exact h.scheduleRelease false hworker
    · next hworker =>
      obtain rfl := Option.some.inj hstep
      exact h.scheduleRelease true hworker
    · cases hstep
  | fail =>
    unfold WriterWorld.step at hstep
    dsimp only at hstep
    split at hstep
    · next hworker =>
      obtain rfl := Option.some.inj hstep
      refine h.failPending (by rw [hworker]; exact nofun) ?_ (.inr rfl) ?_
      · rw [WriterWorld.running, hworker]
      · rw [WriterWorld.held, WriterWorld.held, hworker]
    · cases hstep
  | finishWorker =>
    unfold WriterWorld.step at hstep
    dsimp only at hstep
    split at hstep
    · next hworker =>
      obtain rfl := Option.some.inj hstep
      exact h.finishWorker hworker _
    · cases hstep

end Steps

end McpTelegram
