import McpTelegram.Scheduler.Pace

/-!
# No starvation

`_select_ticket_locked` moves a cursor over the fair cycle, and `_select_source_ticket_locked` one
over the sources of the class it picked.  A run records both as turns of a round robin; here it is
shown that the record is what `Foundations.Recorded` asks for, from which the weighted guarantee
follows (`no_starvation`).
-/

namespace McpTelegram

open Foundations

variable {fairIndex : ℕ} {sourceIndices : RpcServiceClass → ℕ}

namespace SchedulerWorld

open AdmissionScheduler

variable {policy : SchedulerPolicy}

/-- A new scheduler, except that its cursors are anywhere on their cycles. -/
def initAt (env : Environment) (fairIndex : ℕ) (sourceIndices : RpcServiceClass → ℕ) :
    SchedulerWorld :=
  { init env with scheduler := { fairIndex := fairIndex, sourceIndices := sourceIndices } }

/-- A scheduler with its cursors on their cycles is sound. -/
theorem initAt_sound (env : Environment) (hfair : fairIndex < policy.fairCycle.length)
    (hsource : ∀ c, sourceIndices c < (sourceCycle c).length) :
    (initAt env fairIndex sourceIndices).Sound policy :=
  ⟨(init_sound env).valid.keep ⟨rfl, rfl, rfl, rfl, rfl, rfl, rfl, id⟩, ⟨hfair, hsource⟩⟩

/-- The recorded turns of both cursors are those of a round robin. -/
structure TurnHistory (policy : SchedulerPolicy) (w : SchedulerWorld) : Prop where
  classes : Recorded policy.fairCycle w.classTurns w.scheduler.fairIndex
  sources : ∀ c, Recorded (sourceCycle c) (w.sourceTurns c) (w.scheduler.sourceIndices c)

/-- Every event keeps the record. -/
theorem step_turnHistory {w w' : SchedulerWorld} {event : SchedulerEvent} (h : w.Sound policy)
    (hhistory : w.TurnHistory policy) (hstep : step policy w event = some w') :
    w'.TurnHistory policy := by
  have hkeep : w'.scheduler.cursors = w.scheduler.cursors → w'.classTurns = w.classTurns →
      w'.sourceTurns = w.sourceTurns → w'.TurnHistory policy := by
    intro hcursors hclasses hsources
    have hfair : w'.scheduler.fairIndex = w.scheduler.fairIndex := congrArg Prod.fst hcursors
    have hsource : w'.scheduler.sourceIndices = w.scheduler.sourceIndices :=
      congrArg Prod.snd hcursors
    exact ⟨by rw [hclasses, hfair]; exact hhistory.classes,
      by rw [hsources, hsource]; exact hhistory.sources⟩
  by_cases hevent : event = .dispatcherLimited
  · subst hevent
    rcases dispatcherLimited_turns h hstep with ⟨hcursors, hclasses, hsources⟩ |
      ⟨turn, sourceTurn, hfits, hsourceFits, hbefore, hsourceBefore, hcursors, hclasses, hsources⟩
    · exact hkeep hcursors hclasses hsources
    · have hfair : w'.scheduler.fairIndex = turn.after := congrArg Prod.fst hcursors
      have hsource : w'.scheduler.sourceIndices = Function.update w.scheduler.sourceIndices
          turn.picked sourceTurn.after := congrArg Prod.snd hcursors
      refine ⟨?_, fun c => ?_⟩
      · rw [hclasses, hfair]
        exact hhistory.classes.concat hfits hbefore
      · rw [hsources, hsource]
        by_cases hc : c = turn.picked
        · subst hc
          rw [Function.update_self, Function.update_self]
          exact (hhistory.sources _).concat hsourceFits hsourceBefore
        · -- the cursor of another class stays where it is, although its sources were scanned
          rw [Function.update_of_ne hc, Function.update_of_ne hc]
          exact hhistory.sources c
  · obtain ⟨hcursors, hclasses, hsources⟩ := step_cursors hstep hevent
    exact hkeep hcursors hclasses hsources

/-- The record of every run is that of a round robin. -/
theorem run_turnHistory {env : Environment} (hfair : fairIndex < policy.fairCycle.length)
    (hsource : ∀ c, sourceIndices c < (sourceCycle c).length) {events : List SchedulerEvent}
    {w : SchedulerWorld}
    (hrun : run (step policy) (initAt env fairIndex sourceIndices) events = some w) :
    w.TurnHistory policy := by
  refine (run_invariant (I := fun w => w.Sound policy ∧ w.TurnHistory policy)
    (fun w event w' h hstep => ?_) ⟨initAt_sound env hfair hsource, ?_⟩ hrun).2
  · exact ⟨step_sound w event w' h.1 hstep, step_turnHistory h.1 h.2 hstep⟩
  · exact ⟨recorded_nil _, fun c => recorded_nil _⟩

/-- Wherever the cursors start, in every window of consecutive selections as long as the fair cycle
a service class that always has a dispatchable ticket is picked at least as often as its weight,
divided by the divisor of the weights, says; and in every window of consecutive selections of a
class as long as the cycle of its sources, a source of the class that always has a dispatchable
ticket is picked.  Scans do not cost anyone a turn: each selection goes on where the last one of
the same cycle stopped. -/
theorem no_starvation {env : Environment} {fairIndex : ℕ} {sourceIndices : RpcServiceClass → ℕ}
    (hfair : fairIndex < policy.fairCycle.length)
    (hsource : ∀ c, sourceIndices c < (sourceCycle c).length)
    {events : List SchedulerEvent} {w : SchedulerWorld}
    (hrun : run (step policy) (initAt env fairIndex sourceIndices) events = some w) :
    (∀ c window, window <:+: w.classTurns → window.length = policy.fairCycle.length →
      (∀ t ∈ window, t.ready c = true) →
        policy.weight c / policy.divisor ≤ (window.map Turn.picked).count c) ∧
    (∀ c source window, source.serviceClass = c → window <:+: w.sourceTurns c →
      window.length = (sourceCycle c).length → (∀ t ∈ window, t.ready source = true) →
        source ∈ window.map Turn.picked) ∧
    Consecutive w.classTurns ∧ ∀ c, Consecutive (w.sourceTurns c) := by
  have hhistory := run_turnHistory hfair hsource hrun
  refine ⟨fun c window hwindow hlength hready => ?_,
    fun c source window hclass hwindow hlength hready => ?_,
    hhistory.classes.consecutive, fun c => (hhistory.sources c).consecutive⟩
  · have hcount := hhistory.classes.count_cycle_le hwindow hlength hready
    rwa [policy.count_fairCycle] at hcount
  · have hcount := (hhistory.sources c).count_cycle_le hwindow hlength hready
    have honce : 0 < (sourceCycle c).count source :=
      List.count_pos_iff.mpr (mem_sourceCycle.mpr hclass)
    exact List.count_pos_iff.mp (honce.trans_le hcount)

/-- The default policy with equal weights. -/
def equalWeights : SchedulerPolicy :=
  { SchedulerPolicy.default with weight := fun _ => 1, weight_pos := fun _ => Nat.one_pos }

/-- Three tickets of one class are admitted and dispatched. -/
def threeSelections : List SchedulerEvent :=
  [.admitScope sampleScope, .admitScope sampleScope, .admitScope sampleScope, .dispatcherReady,
    .dispatcherLimited, .dispatcherReady, .dispatcherLimited, .dispatcherReady,
    .dispatcherLimited]

/-- In the three selections of `threeSelections`, which start at the last position of the fair
cycle, the only class with tickets is picked. -/
theorem no_starvation_sample :
    ∃ w, run (step equalWeights) (initAt sampleEnvironment 2 fun _ => 0) threeSelections =
        some w ∧
      1 ≤ (w.classTurns.map Turn.picked).count .interactive := by
  have hrun : ∃ w, run (step equalWeights) (initAt sampleEnvironment 2 fun _ => 0)
      threeSelections = some w := Option.isSome_iff_exists.mp (by decide +kernel)
  obtain ⟨w, hw⟩ := hrun
  have hturns : (run (step equalWeights) (initAt sampleEnvironment 2 fun _ => 0)
      threeSelections).map (fun w => (w.classTurns.length,
        w.classTurns.all fun t => t.ready .interactive)) = some (3, true) := by
    decide +kernel
  rw [hw, Option.map_some, Option.some.injEq, Prod.mk.injEq, List.all_eq_true] at hturns
  exact ⟨w, hw, (no_starvation (by decide +kernel) (by decide +kernel) hw).1 .interactive
    w.classTurns List.infix_rfl hturns.1 hturns.2⟩

end SchedulerWorld

end McpTelegram
