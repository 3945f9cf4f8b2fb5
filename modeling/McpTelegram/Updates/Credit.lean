import McpTelegram.Foundations.Run

/-!
# The credit between intake and differences

`UpdateIntakeQueue` and the credit of `GateMessageBox` in `telegram_update_admission.py`, and the
places of `telegram_rpc.py` that ask `intake_due`.  The queue holds vendor envelopes and the local
wakeup; its counter of the envelopes is what the message box looks at before it lets a difference
be requested.  A turn of the intake begins when a difference is claimed.  Its allowance is the
number of envelopes queued at the first one that is taken, and once that many were taken the
differences have the credit until the next claim.
-/

namespace McpTelegram

open Foundations

variable {ε ρ : Type*}

/-! ## The queue -/

/-- What is put into the queue: the wakeup object of the message box, or a vendor envelope. -/
inductive IntakeItem (ε : Type*)
  | wakeup
  | real (envelope : ε)

/-- The test `item is not self._wakeup`. -/
def IntakeItem.isReal : IntakeItem ε → Bool
  | .wakeup => false
  | .real _ => true

/-- `UpdateIntakeQueue`, with the oldest item first. -/
structure UpdateIntakeQueue (ε : Type*) where
  items : List (IntakeItem ε)
  realCount : ℤ

/-- The number of vendor envelopes in the queue. -/
def UpdateIntakeQueue.queued (queue : UpdateIntakeQueue ε) : ℕ :=
  queue.items.countP IntakeItem.isReal

/-- `put_nowait`.  `captured` is false when `capture_scope` raises, which comes before the item is
queued; what is done after `real_count` is raised cannot take that back. -/
def UpdateIntakeQueue.putNowait (queue : UpdateIntakeQueue ε) (item : IntakeItem ε)
    (captured : Bool) : UpdateIntakeQueue ε :=
  match item with
  | .wakeup => { queue with items := queue.items ++ [.wakeup] }
  | .real envelope =>
    if captured then
      { items := queue.items ++ [.real envelope], realCount := queue.realCount + 1 }
    else queue

/-! ## The message box -/

/-- The fields of `GateMessageBox` that keep the credit. -/
structure DifferenceCredit where
  differenceCredit : Bool
  intakeRemaining : Option ℤ

namespace DifferenceCredit

/-- The credit of a new message box. -/
def initial : DifferenceCredit := ⟨false, none⟩

/-- `intake_due`, with the intake queue in place. -/
def intakeDue (box : DifferenceCredit) (queue : UpdateIntakeQueue ε) : Bool :=
  0 < queue.realCount && !box.differenceCredit

/-- `difference_claimed`. -/
def differenceClaimed (_box : DifferenceCredit) : DifferenceCredit := ⟨false, none⟩

/-- `real_dequeued`. -/
def realDequeued (box : DifferenceCredit) (queuedCount : ℤ) : DifferenceCredit :=
  if box.differenceCredit then box
  else
    let remaining := box.intakeRemaining.getD queuedCount - 1
    ⟨remaining = 0, some remaining⟩

/-- `get_difference`; `request` is what the rest of its body answers. -/
def getDifference (box : DifferenceCredit) (queue : UpdateIntakeQueue ε) (request : Option ρ) :
    Option ρ :=
  if box.intakeDue queue then none else request

/-- `get_channel_difference`; `request` is what the rest of its body answers. -/
def getChannelDifference (box : DifferenceCredit) (queue : UpdateIntakeQueue ε)
    (request : Option ρ) : Option ρ :=
  if box.intakeDue queue then none else request

/-- `check_deadlines`; `⊤` is `math.inf`, and `deadline` is what the rest of its body answers. -/
def checkDeadlines (box : DifferenceCredit) (queue : UpdateIntakeQueue ε) (deadline : WithTop ℚ) :
    WithTop ℚ :=
  if box.intakeDue queue then ⊤ else deadline

/-- `_update_intake_blocks_owner` of an attempt that requests a difference, which stops its claim
in `claim_write`; `_difference_admission_deferral` asks the same before it is admitted. -/
def updateIntakeBlocksOwner (box : DifferenceCredit) (queue : UpdateIntakeQueue ε)
    (claimed : Bool) : Bool :=
  !claimed && box.intakeDue queue

end DifferenceCredit

/-! ## The two together -/

/-- What is seen of the turn since the last claim: the envelopes queued when the first one was
taken, that one included, and the envelopes that were taken. -/
structure IntakeTurn where
  allowance : Option ℕ
  consumed : ℕ

namespace IntakeTurn

/-- The turn after a claim, before anything is taken. -/
def begun : IntakeTurn := ⟨none, 0⟩

/-- An envelope is taken while `queued` of them are in the queue. -/
def consume (turn : IntakeTurn) (queued : ℕ) : IntakeTurn :=
  ⟨some (turn.allowance.getD queued), turn.consumed + 1⟩

/-- The allowance of the turn is consumed. -/
def Over (turn : IntakeTurn) : Prop := ∃ n, turn.allowance = some n ∧ n ≤ turn.consumed

/-- The turn goes on: its allowance stays once it is captured, and no consumed envelope is
forgotten. -/
def Extends (turn later : IntakeTurn) : Prop :=
  (∀ n, turn.allowance = some n → later.allowance = some n) ∧ turn.consumed ≤ later.consumed

theorem Extends.refl (turn : IntakeTurn) : turn.Extends turn := ⟨fun _ h => h, le_rfl⟩

variable {turn later : IntakeTurn}

theorem Extends.trans {last : IntakeTurn} (h : turn.Extends later) (h' : later.Extends last) :
    turn.Extends last :=
  ⟨fun n hn => h'.1 n (h.1 n hn), h.2.trans h'.2⟩

/-- Taking an envelope goes on with the turn. -/
theorem Extends.consume (turn : IntakeTurn) (queued : ℕ) : turn.Extends (turn.consume queued) := by
  refine ⟨fun n hn => ?_, Nat.le_succ _⟩
  rw [IntakeTurn.consume, hn, Option.getD_some]

/-- A turn that is over stays over while it goes on. -/
theorem Extends.over (h : turn.Extends later) (hover : turn.Over) : later.Over := by
  obtain ⟨n, hallowance, hle⟩ := hover
  exact ⟨n, h.1 n hallowance, hle.trans h.2⟩

end IntakeTurn

/-- The queue and the message box, with `on_real_dequeue` wired to `real_dequeued`, and what was
seen of the turn. -/
structure IntakeWorld (ε : Type*) where
  queue : UpdateIntakeQueue ε
  box : DifferenceCredit
  turn : IntakeTurn

/-- A call on the queue or on the box. -/
inductive IntakeAction (ε : Type*)
  | putNowait (item : IntakeItem ε) (captured : Bool)
  | getNowait
  | differenceClaimed

namespace IntakeWorld

/-- The world before the first call. -/
def initial : IntakeWorld ε := ⟨⟨[], 0⟩, .initial, .begun⟩

/-- `get_nowait`: the callback runs before the counter is lowered.  An empty queue raises. -/
def getNowait (world : IntakeWorld ε) : Option (IntakeItem ε × IntakeWorld ε) :=
  match world.queue.items with
  | [] => none
  | .wakeup :: items => some (.wakeup, { world with queue := { world.queue with items := items } })
  | .real envelope :: items =>
    some (.real envelope,
      { queue := { items := items, realCount := world.queue.realCount - 1 }
        box := world.box.realDequeued world.queue.realCount
        turn := world.turn.consume world.queue.queued })

/-- One call. -/
def step (world : IntakeWorld ε) : IntakeAction ε → Option (IntakeWorld ε)
  | .putNowait item captured =>
    some { world with queue := world.queue.putNowait item captured }
  | .getNowait => world.getNowait.map Prod.snd
  | .differenceClaimed =>
    some { world with box := world.box.differenceClaimed, turn := .begun }

/-- The intake waits for its turn to be served. -/
def intakeDue (world : IntakeWorld ε) : Bool := world.box.intakeDue world.queue

/-! ## What a call does -/

/-- What a call does: an item of the queue comes or goes, or a difference is claimed. -/
inductive Moved (world : IntakeWorld ε) (action : IntakeAction ε) (next : IntakeWorld ε) : Prop
  | refused (same : next = world)
  | wakeup (box : next.box = world.box) (turn : next.turn = world.turn)
      (count : next.queue.realCount = world.queue.realCount)
      (queued : next.queue.queued = world.queue.queued)
  | arrived (box : next.box = world.box) (turn : next.turn = world.turn)
      (count : next.queue.realCount = world.queue.realCount + 1)
      (queued : next.queue.queued = world.queue.queued + 1)
  | consumed (box : next.box = world.box.realDequeued world.queue.realCount)
      (turn : next.turn = world.turn.consume world.queue.queued)
      (count : next.queue.realCount = world.queue.realCount - 1)
      (queued : next.queue.queued + 1 = world.queue.queued)
  | claimed (claim : action = .differenceClaimed) (queue : next.queue = world.queue)
      (box : next.box = .initial) (turn : next.turn = .begun)

variable {world next : IntakeWorld ε} {action : IntakeAction ε}

/-- A put queues the item, or is refused before. -/
theorem moved_put {item : IntakeItem ε} {captured : Bool}
    (h : step world (.putNowait item captured) = some next) :
    Moved world (.putNowait item captured) next := by
  obtain rfl := Option.some.inj h
  cases item with
  | wakeup =>
    refine .wakeup rfl rfl rfl ?_
    simp [UpdateIntakeQueue.queued, UpdateIntakeQueue.putNowait, IntakeItem.isReal]
  | real envelope =>
    cases captured with
    | false => exact .refused rfl
    | true =>
      refine .arrived rfl rfl rfl ?_
      simp [UpdateIntakeQueue.queued, UpdateIntakeQueue.putNowait, IntakeItem.isReal]

/-- A get takes the oldest item. -/
theorem moved_get (h : step world .getNowait = some next) : Moved world .getNowait next := by
  obtain ⟨⟨items, count⟩, box, turn⟩ := world
  match items with
  | [] => cases h
  | .wakeup :: rest =>
    cases h
    refine .wakeup rfl rfl rfl ?_
    exact (List.countP_cons_of_neg (by simp [IntakeItem.isReal])).symm
  | .real envelope :: rest =>
    cases h
    refine .consumed rfl rfl rfl ?_
    exact (List.countP_cons_of_pos rfl).symm

/-- What one step does. -/
theorem step_moved (h : step world action = some next) : Moved world action next := by
  cases action with
  | putNowait item captured => exact moved_put h
  | getNowait => exact moved_get h
  | differenceClaimed =>
    obtain rfl := Option.some.inj h
    exact .claimed rfl rfl rfl rfl

/-! ## The invariant -/

/-- The counter counts the envelopes, and the credit is what is left of the allowance: what is
still owed to the intake waits in the queue. -/
structure Fair (world : IntakeWorld ε) : Prop where
  /-- The counter counts the envelopes. -/
  count : world.queue.realCount = world.queue.queued
  /-- Before the first envelope is taken, nothing is captured. -/
  untouched : world.turn.allowance = none → world.box = .initial ∧ world.turn.consumed = 0
  /-- The allowance of a turn that is not over is owed, and what is owed is in the queue. -/
  owed : ∀ n, world.turn.allowance = some n → world.turn.consumed < n →
    world.box = ⟨false, some (n - world.turn.consumed)⟩ ∧
      n ≤ world.turn.consumed + world.queue.queued
  /-- A turn that is over has the credit. -/
  granted : world.turn.Over → world.box.differenceCredit = true

/-- The first world. -/
theorem fair_initial : Fair (initial : IntakeWorld ε) where
  count := rfl
  untouched _ := ⟨rfl, rfl⟩
  owed n h := by cases h
  granted := by
    rintro ⟨n, h, -⟩
    cases h

/-- While the box and the turn stay and no envelope leaves, the invariant stays. -/
theorem Fair.arrive (h : Fair world) (hbox : next.box = world.box) (hturn : next.turn = world.turn)
    (hcount : next.queue.realCount = next.queue.queued)
    (hqueued : world.queue.queued ≤ next.queue.queued) : Fair next where
  count := hcount
  untouched := by
    rw [hbox, hturn]
    exact h.untouched
  owed n := by
    rw [hbox, hturn]
    intro hallowance hlt
    obtain ⟨howed, hle⟩ := h.owed n hallowance hlt
    exact ⟨howed, by omega⟩
  granted := by
    rw [hbox, hturn]
    exact h.granted

/-- While the turn is not over, the box counts down from the allowance, and an envelope is owed as
soon as one is queued. -/
theorem Fair.remaining (h : Fair world) (hover : ¬ world.turn.Over)
    (hpos : 0 < world.queue.queued) :
    world.box.differenceCredit = false ∧
      world.box.intakeRemaining.getD world.queue.realCount =
        (world.turn.allowance.getD world.queue.queued : ℤ) - world.turn.consumed ∧
      world.turn.consumed < world.turn.allowance.getD world.queue.queued ∧
      world.turn.allowance.getD world.queue.queued ≤
        world.turn.consumed + world.queue.queued := by
  cases hallowance : world.turn.allowance with
  | none =>
    obtain ⟨hbox, hconsumed⟩ := h.untouched hallowance
    rw [hbox, hconsumed, h.count]
    refine ⟨rfl, ?_, hpos, ?_⟩
    · simp [DifferenceCredit.initial]
    · simp
  | some n =>
    have hlt : world.turn.consumed < n := by
      by_contra hle
      exact hover ⟨n, hallowance, by omega⟩
    obtain ⟨hbox, hle⟩ := h.owed n hallowance hlt
    rw [hbox]
    exact ⟨rfl, rfl, hlt, hle⟩

/-- Taking an envelope keeps the invariant: it is the last one that is owed, or the rest of the
allowance stays owed. -/
theorem Fair.consume (h : Fair world)
    (hbox : next.box = world.box.realDequeued world.queue.realCount)
    (hturn : next.turn = world.turn.consume world.queue.queued)
    (hcount : next.queue.realCount = world.queue.realCount - 1)
    (hqueued : next.queue.queued + 1 = world.queue.queued) : Fair next := by
  have hreal : next.queue.realCount = next.queue.queued := by
    have := h.count
    omega
  by_cases hover : world.turn.Over
  · have hcredit := h.granted hover
    have hover' : next.turn.Over := hturn ▸ (IntakeTurn.Extends.consume _ _).over hover
    refine ⟨hreal, fun hnone => ?_, fun n hsome hlt => ?_, fun _ => ?_⟩
    · rw [hturn] at hnone
      cases hnone
    · obtain ⟨m, hm, hle⟩ := hover'
      obtain rfl := Option.some.inj (hsome.symm.trans hm)
      omega
    · rw [hbox, DifferenceCredit.realDequeued, if_pos hcredit]
      exact hcredit
  · obtain ⟨hcredit, hremaining, hlt, hle⟩ := h.remaining hover (by omega)
    have hafter : next.box =
        ⟨decide ((world.turn.allowance.getD world.queue.queued : ℤ) - world.turn.consumed - 1 = 0),
          some ((world.turn.allowance.getD world.queue.queued : ℤ) - world.turn.consumed - 1)⟩ := by
      rw [hbox, DifferenceCredit.realDequeued, if_neg (by simp [hcredit]), hremaining]
    refine ⟨hreal, fun hnone => ?_, fun n hsome hlt' => ?_, fun hover' => ?_⟩
    · rw [hturn] at hnone
      cases hnone
    · rw [hturn] at hsome hlt' ⊢
      obtain rfl := Option.some.inj hsome
      simp only [IntakeTurn.consume] at hlt' ⊢
      refine ⟨?_, by omega⟩
      rw [hafter]
      congr 1
      · exact decide_eq_false (by omega)
      · exact congrArg some (by push_cast; ring)
    · obtain ⟨n, hsome, hle'⟩ := hover'
      rw [hturn] at hsome hle'
      obtain rfl := Option.some.inj hsome
      simp only [IntakeTurn.consume] at hle'
      rw [hafter]
      exact decide_eq_true (by omega)

/-- A claim begins a turn. -/
theorem Fair.claim (h : Fair world) (hqueue : next.queue = world.queue)
    (hbox : next.box = .initial) (hturn : next.turn = .begun) : Fair next := by
  refine ⟨hqueue ▸ h.count, fun _ => ⟨hbox, by rw [hturn]; rfl⟩, fun n hsome => ?_, ?_⟩
  · rw [hturn] at hsome
    cases hsome
  · rintro ⟨n, hsome, -⟩
    rw [hturn] at hsome
    cases hsome

/-- Every step keeps the invariant. -/
theorem fair_step (h : Fair world) (hstep : step world action = some next) : Fair next := by
  cases step_moved hstep with
  | refused same => exact same ▸ h
  | wakeup box turn count queued =>
    exact h.arrive box turn (by rw [count, queued, h.count]) queued.ge
  | arrived box turn count queued =>
    exact h.arrive box turn (by rw [count, queued, h.count]; rfl) (by omega)
  | consumed box turn count queued => exact h.consume box turn count queued
  | claimed _ queue box turn => exact h.claim queue box turn

variable {actions : List (IntakeAction ε)}

/-- Every run keeps the invariant. -/
theorem fair_run (h : run step initial actions = some world) : Fair world :=
  run_invariant (fun _ _ _ hfair hstep => fair_step hfair hstep) fair_initial h

/-! ## Intake and differences -/

/-- The intake is due while envelopes are queued and the turn is not over. -/
theorem Fair.intakeDue_iff (h : Fair world) :
    world.intakeDue = true ↔ 0 < world.queue.queued ∧ ¬ world.turn.Over := by
  rw [intakeDue, DifferenceCredit.intakeDue, Bool.and_eq_true, decide_eq_true_iff, h.count,
    Int.natCast_pos, Bool.not_eq_true']
  refine and_congr_right fun hpos => ⟨fun hcredit hover => ?_, fun hover => ?_⟩
  · rw [h.granted hover] at hcredit
    cases hcredit
  · exact (h.remaining hover hpos).1

/-- Without a claim, the allowance of a turn stays and no consumed envelope is forgotten. -/
theorem turn_step (hstep : step world action = some next) (hclaim : action ≠ .differenceClaimed) :
    world.turn.Extends next.turn := by
  cases step_moved hstep with
  | refused same => exact same ▸ .refl _
  | wakeup _ turn _ _ => exact turn ▸ .refl _
  | arrived _ turn _ _ => exact turn ▸ .refl _
  | consumed _ turn _ _ => exact turn ▸ .consume _ _
  | claimed claim _ _ _ => exact absurd claim hclaim

/-- So it is along every run without a claim. -/
theorem turn_run (hclaim : .differenceClaimed ∉ actions) (h : run step world actions = some next) :
    world.turn.Extends next.turn := by
  induction actions generalizing world with
  | nil =>
    obtain rfl : world = next := by simpa using h
    exact .refl _
  | cons action actions ih =>
    obtain ⟨after, hstep, hrest⟩ := run_cons_eq_some.mp h
    rw [List.mem_cons, not_or] at hclaim
    exact (turn_step hstep fun heq => hclaim.1 heq.symm).trans (ih hclaim.2 hrest)

/-- A difference is requested, admitted and claimed, and a deadline is answered, exactly when the
intake is not due. -/
theorem gate_of_due (world : IntakeWorld ε) (request : Option ρ) (deadline : WithTop ℚ) :
    world.box.getDifference world.queue request =
        (if world.intakeDue then none else request) ∧
      world.box.getChannelDifference world.queue request =
        (if world.intakeDue then none else request) ∧
      world.box.updateIntakeBlocksOwner world.queue false = world.intakeDue ∧
      world.box.checkDeadlines world.queue deadline =
        (if world.intakeDue then ⊤ else deadline) :=
  ⟨rfl, rfl, rfl, rfl⟩

/-- In every world that the calls reach, the counter counts the queued envelopes.  While envelopes
are queued, no difference is granted until as many envelopes were taken since the last claim as
were queued at the first of them; what arrives meanwhile does not add to them, and those still owed
are in the queue.  From then on, and while no envelope is queued, the intake blocks no difference
until the next claim. -/
theorem difference_credit_fair {actions : List (IntakeAction ε)} (request : Option ρ)
    (deadline : WithTop ℚ) (h : run step initial actions = some world) :
    world.queue.realCount = world.queue.queued ∧
      (world.intakeDue = true ↔ 0 < world.queue.queued ∧ ¬ world.turn.Over) ∧
      (world.intakeDue = true →
        world.box.getDifference world.queue request = none ∧
          world.box.getChannelDifference world.queue request = none ∧
          world.box.updateIntakeBlocksOwner world.queue false = true ∧
          world.box.checkDeadlines world.queue deadline = ⊤) ∧
      (world.intakeDue = false →
        world.box.getDifference world.queue request = request ∧
          world.box.getChannelDifference world.queue request = request ∧
          world.box.updateIntakeBlocksOwner world.queue false = false ∧
          world.box.checkDeadlines world.queue deadline = deadline) ∧
      (world.turn.allowance = none → world.turn.consumed = 0) ∧
      (∀ n, world.turn.allowance = some n → n ≤ world.turn.consumed + world.queue.queued) ∧
      ∀ more next, .differenceClaimed ∉ more → run step world more = some next →
        world.turn.Extends next.turn ∧ (world.turn.Over → next.intakeDue = false) := by
  have hfair := fair_run h
  obtain ⟨hdifference, hchannel, hblocks, hdeadlines⟩ := gate_of_due world request deadline
  rw [hdifference, hchannel, hblocks, hdeadlines]
  refine ⟨hfair.count, hfair.intakeDue_iff, fun hdue => ?_, fun hdue => ?_,
    fun hnone => (hfair.untouched hnone).2, fun n hsome => ?_, fun more next hclaim hmore => ?_⟩
  · rw [hdue]
    exact ⟨rfl, rfl, rfl, rfl⟩
  · rw [hdue]
    exact ⟨rfl, rfl, rfl, rfl⟩
  · by_cases hlt : world.turn.consumed < n
    · exact (hfair.owed n hsome hlt).2
    · omega
  · have hextends := turn_run hclaim hmore
    have hnext : Fair next :=
      run_invariant (fun _ _ _ hfair hstep => fair_step hfair hstep) hfair hmore
    refine ⟨hextends, fun hover => ?_⟩
    rw [Bool.eq_false_iff]
    exact fun hdue => (hnext.intakeDue_iff.mp hdue).2 (hextends.over hover)

/-- Two envelopes are queued when the first one is taken, a third one arrives before the second one
is, and a wakeup is taken on the way: the third one, and a fourth, block no difference. -/
theorem difference_credit_fair_sample :
    ∃ world : IntakeWorld ℕ,
      run step initial [.putNowait (.real 0) true, .putNowait .wakeup true,
        .putNowait (.real 1) true, .getNowait, .putNowait (.real 2) true, .getNowait,
        .getNowait] = some world ∧
      world.intakeDue = false ∧
      ∀ next, run step world [.putNowait (.real 3) true] = some next → next.intakeDue = false := by
  obtain ⟨world, hworld⟩ := Option.isSome_iff_exists.mp
    (show (run step (initial : IntakeWorld ℕ) [.putNowait (.real 0) true, .putNowait .wakeup true,
        .putNowait (.real 1) true, .getNowait, .putNowait (.real 2) true, .getNowait,
        .getNowait]).isSome = true by rfl)
  obtain ⟨-, hdue, -, -, -, -, hmore⟩ := difference_credit_fair (some ()) 0 hworld
  have hturn : world.turn = ⟨some 2, 2⟩ := by
    obtain rfl := Option.some.inj hworld
    rfl
  have hover : world.turn.Over := ⟨2, by rw [hturn], by rw [hturn]⟩
  refine ⟨world, hworld, ?_, fun next hnext => ?_⟩
  · rw [Bool.eq_false_iff]
    exact fun h => (hdue.mp h).2 hover
  · exact (hmore _ next (by simp) hnext).2 hover

end IntakeWorld

end McpTelegram
