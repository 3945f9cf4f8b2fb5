import McpTelegram.Demand.Queue

/-!
# The turns of the demand kinds

In every reachable world the ready queue is sound, nothing runs twice and no slice was started for
an excluded revision (`WorldInvariant`).  A kind that is ready at every scan advances in the queue
with each selection of another kind, so that it is selected at the latest after every other kind
was.
-/

namespace McpTelegram

open Foundations

namespace DemandCoordinator

/-- Serving the head of the queue. -/
theorem popReady_result {c c' : DemandCoordinator} {kind : DemandKind} (h : c.QueueInvariant)
    (hpop : c.popReady = some (kind, c')) :
    c.queue = kind :: c'.queue ∧ kind ∉ c'.queue ∧ c'.QueueInvariant ∧
      c'.statuses = c.statuses ∧ c'.workOf = c.workOf ∧
        c'.retainedRevision = c.retainedRevision ∧ c'.activeKind = c.activeKind := by
  unfold popReady at hpop
  split at hpop
  next => cases hpop
  next head queue hqueue =>
    cases hpop
    have hnodup : kind ∉ queue ∧ queue.Nodup := List.nodup_cons.mp (hqueue ▸ h.nodup)
    have hsub : ∀ other ∈ queue, other ∈ c.queue := fun other hmem => by
      rw [hqueue]
      exact List.mem_cons_of_mem _ hmem
    refine ⟨hqueue, hnodup.1, ⟨⟨hnodup.2, ?_, ?_⟩, ?_, ?_⟩, rfl, rfl, rfl, rfl⟩
    · intro other
      rw [Finset.mem_erase, h.queued, hqueue, List.mem_cons]
      constructor
      · rintro ⟨hne, hmem⟩
        exact hmem.resolve_left hne
      · intro hmem
        exact ⟨fun heq => hnodup.1 (heq ▸ hmem), Or.inr hmem⟩
    · exact fun other hmem => h.durable other (hsub other hmem)
    · exact fun other hfailed hmem => h.failedOut other hfailed (hsub other hmem)
    · exact fun other hretained hmem => h.retainedOut other hretained (hsub other hmem)

end DemandCoordinator

open DemandCoordinator

/-- What holds in every reachable world. -/
structure WorldInvariant (world : DemandWorld) : Prop where
  queue : world.coordinator.QueueInvariant
  retainedKnown : world.retained ≠ [] → ∃ revision,
    world.coordinator.retainedRevision = some revision ∧
      revision.key.demandKind ∈ retainedDemandKinds
  retainedOne : world.retained.length ≤ 1
  inlineOne : world.inline.length ≤ 1
  inlineAwaits : world.inline ≠ [] → world.pump = .awaitingSlice
  idle : world.pump ≠ .awaitingSlice → world.pump ≠ .stopped →
    world.coordinator.activeKind = none
  selections : ∀ selection ∈ world.selections, selection.excluded = false

namespace DemandWorld

variable {c : DemandCoordinator} {safetyScanSeconds : ℚ} {readings : PumpReadings}
    {result : SliceResult} {step : DemandStep} {steps : List DemandStep}

/-! ## Steps that leave the queue alone -/

theorem executeSlice_fields (c : DemandCoordinator) (kind : DemandKind) (selected : WorkRevision)
    (readings : SliceReadings) :
    (executeSlice c kind selected readings).1.queue = c.queue ∧
      (executeSlice c kind selected readings).1.queued = c.queued ∧
      (executeSlice c kind selected readings).1.statusFailedUntil = c.statusFailedUntil ∧
      (executeSlice c kind selected readings).1.retainedRevision = c.retainedRevision ∧
      (executeSlice c kind selected readings).1.activeKind = c.activeKind :=
  ⟨rfl, rfl, rfl, rfl, rfl⟩

/-- The end of a slice changes nothing that the queue depends on. -/
theorem handleSlice_fields (c : DemandCoordinator) (slice : RunningSlice) (result : SliceResult)
    (readings : FinishReadings) :
    (handleSlice c slice result readings).queue = c.queue ∧
      (handleSlice c slice result readings).queued = c.queued ∧
      (handleSlice c slice result readings).statusFailedUntil = c.statusFailedUntil ∧
      (handleSlice c slice result readings).retainedRevision = c.retainedRevision ∧
      (handleSlice c slice result readings).activeKind = c.activeKind := by
  dsimp only [handleSlice]
  split_ifs <;> exact ⟨rfl, rfl, rfl, rfl, rfl⟩

/-- An offer changes nothing that the queue depends on. -/
theorem offer_fields (c : DemandCoordinator) (kind : DemandKind) :
    (c.offer kind).queue = c.queue ∧ (c.offer kind).queued = c.queued ∧
      (c.offer kind).statusFailedUntil = c.statusFailedUntil ∧
      (c.offer kind).retainedRevision = c.retainedRevision ∧
      (c.offer kind).activeKind = c.activeKind := by
  unfold offer
  split_ifs <;> exact ⟨rfl, rfl, rfl, rfl, rfl⟩

theorem eligibilityChanged_fields (c : DemandCoordinator) (methodKey : Option String)
    (now : WorkRevision → ℚ) (eligible : WorkRevision → Option String → Bool) :
    (c.eligibilityChanged methodKey now eligible).queue = c.queue ∧
      (c.eligibilityChanged methodKey now eligible).queued = c.queued ∧
      (c.eligibilityChanged methodKey now eligible).statusFailedUntil = c.statusFailedUntil ∧
      (c.eligibilityChanged methodKey now eligible).retainedRevision = c.retainedRevision ∧
      (c.eligibilityChanged methodKey now eligible).activeKind = c.activeKind := by
  cases methodKey <;> exact ⟨rfl, rfl, rfl, rfl, rfl⟩

variable {world world' : DemandWorld}

/-- A new coordinator with the same queue, retained revision and running kind. -/
theorem withCoordinator (h : WorldInvariant world)
    (hfields : c.queue = world.coordinator.queue ∧ c.queued = world.coordinator.queued ∧
      c.statusFailedUntil = world.coordinator.statusFailedUntil ∧
      c.retainedRevision = world.coordinator.retainedRevision ∧
      c.activeKind = world.coordinator.activeKind) :
    WorldInvariant { world with coordinator := c } := by
  obtain ⟨hqueue, hqueued, hfailed, hretained, hactive⟩ := hfields
  refine ⟨h.queue.congr hqueue hqueued hfailed hretained, ?_, h.retainedOne, h.inlineOne,
    h.inlineAwaits, ?_, h.selections⟩
  · intro hne
    rw [hretained]
    exact h.retainedKnown hne
  · intro hawaiting hstopped
    rw [hactive]
    exact h.idle hawaiting hstopped

/-- Forgetting the retained revision. -/
theorem forgetRetained {c' : DemandCoordinator} (h : c.QueueInvariant) (hqueue : c'.queue = c.queue)
    (hqueued : c'.queued = c.queued) (hfailed : c'.statusFailedUntil = c.statusFailedUntil)
    (hnone : c'.retainedRevision = none) :
    c'.QueueInvariant where
  toQueueSound := h.toQueueSound.congr hqueue hqueued
  failedOut kind := by
    rw [FailedOut, hfailed, hqueue]
    exact h.failedOut kind
  retainedOut kind hkind := by
    rw [retainedKind, hnone] at hkind
    cases hkind

/-- A pass of the run loop starts at its head or after a sleep. -/
theorem mayPass_pump {now : ℚ} (h : world.mayPass now = true) :
    world.pump ≠ .awaitingSlice ∧ world.pump ≠ .stopped := by
  unfold mayPass at h
  constructor <;> intro hpump <;> rw [hpump] at h <;> cases h

/-- Harvesting a finished retained task, between two slices of the run loop. -/
theorem beforeScan_invariant (h : WorldInvariant world) (hpump : world.pump ≠ .awaitingSlice)
    (hstopped : world.pump ≠ .stopped) :
    WorldInvariant world.beforeScan ∧ world.beforeScan.pump ≠ .awaitingSlice ∧
      world.beforeScan.coordinator.queue = world.coordinator.queue ∧
        world.beforeScan.coordinator.activeKind = none ∧
          world.beforeScan.selections = world.selections := by
  have hidle : world.coordinator.activeKind = none := h.idle hpump hstopped
  have hinline : world.inline = [] := by
    by_contra hne
    exact hpump (h.inlineAwaits hne)
  unfold beforeScan harvestRetained
  split
  next failed retained hretained =>
    have hone : (RetainedTask.done failed :: retained).length ≤ 1 := hretained ▸ h.retainedOne
    have hnil : retained = [] := by
      rw [List.length_cons] at hone
      exact List.length_eq_zero_iff.mp (by omega)
    subst hnil
    refine ⟨⟨?_, fun hne => absurd rfl hne, Nat.zero_le _, h.inlineOne,
      fun hne => absurd hinline hne, fun _ _ => hidle, h.selections⟩, ?_, rfl, hidle, rfl⟩
    · exact forgetRetained h.queue rfl rfl rfl rfl
    · intro hawaiting
      cases failed
      · exact hpump hawaiting
      · cases hawaiting
  next => exact ⟨withCoordinator h ⟨rfl, rfl, rfl, rfl, rfl⟩, hpump, rfl, hidle, rfl⟩

/-! ## A selection -/

/-- What the run loop does after a scan: it sleeps because the queue is empty, or it selects the
head of the queue. -/
structure Selects (before after : DemandWorld) : Prop where
  invariant : WorldInvariant after
  selects : (before.coordinator.queue = [] ∧ after.selections = before.selections) ∨
    ∃ kind selected, before.coordinator.queue = kind :: after.coordinator.queue ∧
      after.pump ≠ .stopped ∧
      after.selections = before.selections ++ [{ kind, selected, excluded := false }]

/-- The run loop after a scan. -/
theorem selectAndRun_selects (h : WorldInvariant world)
    (hsettled : ∀ kind, world.coordinator.Settled kind)
    (hactive : world.coordinator.activeKind = none) (hinline : world.inline = []) :
    Selects world (world.selectAndRun safetyScanSeconds readings) := by
  unfold selectAndRun
  split
  next hpop =>
    have hqueue : world.coordinator.queue = [] := by
      unfold popReady at hpop
      split at hpop
      next hqueue => exact hqueue
      next => cases hpop
    exact ⟨⟨h.queue, h.retainedKnown, h.retainedOne, h.inlineOne, fun hne => absurd hinline hne,
      fun _ _ => hactive, h.selections⟩, Or.inl ⟨hqueue, rfl⟩⟩
  next kind c hpop =>
    obtain ⟨hqueue, hout, hinv, hstatuses, hworkOf, hretained, hidle⟩ :=
      popReady_result h.queue hpop
    obtain ⟨status, selected, hlookup, hselected, hkey, hexcluded⟩ :=
      hsettled kind (hqueue ▸ List.mem_cons_self)
    have hnot : c.isExcluded selected = false := by
      rw [isExcluded, hworkOf]
      exact hexcluded
    have hselections : ∀ selection ∈ world.selections ++
        [{ kind, selected, excluded := c.isExcluded selected }], selection.excluded = false := by
      intro selection hmem
      rcases List.mem_append.mp hmem with hmem | hmem
      · exact h.selections selection hmem
      · rw [List.mem_singleton.mp hmem]
        exact hnot
    rw [hstatuses, hlookup, Option.bind_some, hselected]
    dsimp only
    split_ifs with hretain hbusy
    · -- the only retained kind is out of the queue while its task lives
      exfalso
      obtain ⟨revision, hrevision, hkind⟩ := h.retainedKnown hbusy
      have hsame : revision.key.demandKind = kind := by
        rw [List.mem_singleton.mp hkind, List.mem_singleton.mp hretain]
      refine h.queue.retainedOut kind ?_ (hqueue ▸ List.mem_cons_self)
      rw [retainedKind, hrevision, Option.any_some, hsame]
      exact decide_eq_true rfl
    · refine ⟨⟨⟨hinv.toQueueSound.congr rfl rfl, hinv.failedOut, ?_⟩, ?_, Nat.le_refl 1,
        h.inlineOne,
        fun hne => absurd hinline hne, ?_, hselections⟩, Or.inr ⟨kind, selected, hqueue, ?_, ?_⟩⟩
      · intro other hother
        have hsame : kind = other := by
          simpa [retainedKind, hkey] using hother
        exact hsame ▸ hout
      · exact fun _ => ⟨selected, rfl, hkey ▸ hretain⟩
      · exact fun _ _ => hidle.trans hactive
      · intro hpump
        cases hpump
      · rw [hnot]
    · have hworld : WorldInvariant { world with coordinator := c } :=
        ⟨hinv, fun hne => hretained ▸ h.retainedKnown hne, h.retainedOne, h.inlineOne,
          h.inlineAwaits, fun _ _ => hidle.trans hactive, h.selections⟩
      split
      next c' hexecute =>
        have hc' : c' = (executeSlice c kind selected readings.slice).1 := by rw [hexecute]
        have hnext := withCoordinator hworld (hc' ▸ executeSlice_fields c kind selected _)
        refine ⟨⟨hnext.queue, hnext.retainedKnown, h.retainedOne, h.inlineOne,
          fun hne => absurd hinline hne, ?_, hselections⟩,
          Or.inr ⟨kind, selected, ?_, ?_, ?_⟩⟩
        · intro _ _
          rw [hc']
          exact hidle.trans hactive
        · rw [hc']
          exact hqueue
        · intro hpump
          cases hpump
        · rw [hnot]
      next c' slice hexecute =>
        have hc' : c' = (executeSlice c kind selected readings.slice).1 := by rw [hexecute]
        have hnext := withCoordinator hworld (hc' ▸ executeSlice_fields c kind selected _)
        refine ⟨⟨hnext.queue.congr rfl rfl rfl rfl, hnext.retainedKnown, h.retainedOne, ?_,
          fun _ => rfl, fun hne => absurd rfl hne, hselections⟩,
          Or.inr ⟨kind, selected, ?_, ?_, ?_⟩⟩
        · rw [hinline]
          exact Nat.le_refl 1
        · exact hc' ▸ hqueue
        · intro hpump
          cases hpump
        · rw [hnot]

/-- The retained kind does not depend on a scan, so a scan keeps the invariant. -/
theorem withScan (h : WorldInvariant world) {readings : ScanReadings}
    (hscan : ScanResult readings world.coordinator c) :
    WorldInvariant { world with coordinator := c } := by
  refine ⟨hscan.invariant, ?_, h.retainedOne, h.inlineOne, h.inlineAwaits, ?_, h.selections⟩
  · intro hne
    rw [hscan.retained]
    exact h.retainedKnown hne
  · intro hawaiting hstopped
    rw [hscan.active]
    exact h.idle hawaiting hstopped

/-- A pass of the run loop: it stops, or it scans and selects. -/
theorem pumpPass_selects (h : WorldInvariant world) (hpump : world.pump ≠ .awaitingSlice)
    (hstopped : world.pump ≠ .stopped) (hown : OwnKinds readings.scan)
    (hpass : world.pumpPass safetyScanSeconds readings = some world') :
    (world.scanOf (.pump readings) = none ∧ WorldInvariant world' ∧ world'.pump = .stopped ∧
        world'.coordinator.queue = world.coordinator.queue ∧
        world'.selections = world.selections) ∨
      ∃ c, world.scanOf (.pump readings) = some (world.beforeScan.coordinator, readings.scan) ∧
        ScanResult readings.scan world.beforeScan.coordinator c ∧
        Selects { world.beforeScan with coordinator := c } world' := by
  have hinline : world.inline = [] := by
    by_contra hne
    exact hpump (h.inlineAwaits hne)
  obtain ⟨hbefore, hawaiting, hqueue, hactive, hselections⟩ :=
    beforeScan_invariant h hpump hstopped
  unfold pumpPass at hpass
  split_ifs at hpass with hshutdown
  · cases hpass
    refine Or.inl ⟨by rw [scanOf, if_pos (Or.inl hshutdown)], ?_, rfl, rfl, rfl⟩
    exact ⟨h.queue, h.retainedKnown, h.retainedOne, h.inlineOne, fun hne => absurd hinline hne,
      fun _ hne => absurd rfl hne, h.selections⟩
  · dsimp only at hpass
    split_ifs at hpass with hfailed
    · cases hpass
      refine Or.inl ⟨by rw [scanOf, if_pos (Or.inr hfailed)], hbefore, hfailed, hqueue,
        hselections⟩
    · obtain ⟨c, hscan, rfl⟩ := Option.map_eq_some_iff.mp hpass
      have hresult := scan_result hown hbefore.queue hscan
      refine Or.inr ⟨c, by rw [scanOf, if_neg (not_or.mpr ⟨hshutdown, hfailed⟩)], hresult, ?_⟩
      refine selectAndRun_selects (withScan hbefore hresult) hresult.settled ?_ ?_
      · exact hresult.active.trans hactive
      · by_contra hne
        exact hawaiting (hbefore.inlineAwaits hne)

/-! ## Every step -/

/-- The end of a slice keeps the invariant, wherever the run loop goes on. -/
theorem afterResult_invariant (h : WorldInvariant world) (result : SliceResult) :
    WorldInvariant (world.afterResult result) ∧
      (world.afterResult result).coordinator.queue = world.coordinator.queue ∧
      (world.afterResult result).coordinator.activeKind = world.coordinator.activeKind ∧
      (world.afterResult result).inline = world.inline ∧
      (world.afterResult result).retained = world.retained ∧
      (world.afterResult result).pump = world.pump ∧
      (world.afterResult result).coordinator.retainedRevision =
        world.coordinator.retainedRevision ∧
      (world.afterResult result).selections = world.selections := by
  unfold afterResult
  split
  · split_ifs
    · exact ⟨h, rfl, rfl, rfl, rfl, rfl, rfl, rfl⟩
    · have hwake := withCoordinator h (c := { world.coordinator with wake := true })
        ⟨rfl, rfl, rfl, rfl, rfl⟩
      exact ⟨⟨hwake.queue, h.retainedKnown, h.retainedOne, h.inlineOne, h.inlineAwaits, h.idle,
        h.selections⟩, rfl, rfl, rfl, rfl, rfl, rfl, rfl⟩
  · exact ⟨h, rfl, rfl, rfl, rfl, rfl, rfl, rfl⟩

/-- The end of the inline slice. -/
theorem finishInline_invariant {readings : FinishReadings} (h : WorldInvariant world)
    (hfinish : world.finishInline result readings = some world') :
    WorldInvariant world' ∧ world'.coordinator.queue = world.coordinator.queue ∧
      world'.selections = world.selections := by
  unfold finishInline at hfinish
  split at hfinish
  next => cases hfinish
  next slice inline hinline =>
    cases hfinish
    have hone : (slice :: inline).length ≤ 1 := hinline ▸ h.inlineOne
    have hnil : inline = [] := by
      rw [List.length_cons] at hone
      exact List.length_eq_zero_iff.mp (by omega)
    subst hnil
    obtain ⟨hqueue, hqueued, hfailed, hretained, -⟩ :=
      handleSlice_fields world.coordinator slice result readings
    have hdone : WorldInvariant
        { world with
          coordinator :=
            { handleSlice world.coordinator slice result readings with
              activeKind := none
              activeRevision := none }
          inline := [] } :=
      ⟨h.queue.congr hqueue hqueued hfailed hretained,
        fun hne => by
          obtain ⟨revision, hrevision, hkind⟩ := h.retainedKnown hne
          exact ⟨revision, hretained.trans hrevision, hkind⟩,
        h.retainedOne, Nat.zero_le _, fun hne => absurd rfl hne, fun _ _ => rfl, h.selections⟩
    obtain ⟨hafter, hqueue', hactive', hinline', -, -, -, hselections'⟩ :=
      afterResult_invariant hdone result
    refine ⟨⟨hafter.queue, hafter.retainedKnown, hafter.retainedOne, hafter.inlineOne, ?_, ?_,
      hafter.selections⟩, hqueue'.trans hqueue, hselections'⟩
    · exact fun hne => absurd hinline' hne
    · exact fun _ _ => hactive'

/-- The end of the retained slice. -/
theorem finishRetained_invariant {readings : FinishReadings} (h : WorldInvariant world)
    (hfinish : world.finishRetained result readings = some world') :
    WorldInvariant world' ∧ world'.coordinator.queue = world.coordinator.queue ∧
      world'.selections = world.selections := by
  unfold finishRetained at hfinish
  split at hfinish
  next slice retained hslice =>
    cases hfinish
    have hfields := handleSlice_fields world.coordinator slice result readings
    have hdone := withCoordinator h
      (c := { handleSlice world.coordinator slice result readings with wake := true }) hfields
    obtain ⟨hafter, hqueue', -, -, -, -, hretained', hselections'⟩ :=
      afterResult_invariant hdone result
    have hne : world.retained ≠ [] := by
      rw [hslice]
      exact List.cons_ne_nil _ _
    refine ⟨⟨hafter.queue, fun _ => ?_, ?_, hafter.inlineOne, hafter.inlineAwaits, hafter.idle,
      hafter.selections⟩, hqueue'.trans hfields.1, hselections'⟩
    · obtain ⟨revision, hrevision, hkind⟩ := hdone.retainedKnown hne
      exact ⟨revision, hretained'.trans hrevision, hkind⟩
    · have hone := h.retainedOne
      rw [hslice] at hone
      exact hone
  next => cases hfinish

/-- The start of the retained task. -/
theorem beginRetained_invariant {readings : SliceReadings} (h : WorldInvariant world)
    (hbegin : world.beginRetained readings = some world') :
    WorldInvariant world' ∧ world'.coordinator.queue = world.coordinator.queue ∧
      world'.selections = world.selections := by
  unfold beginRetained at hbegin
  split at hbegin
  next kind selected retained hcreated =>
    have hne : world.retained ≠ [] := by
      rw [hcreated]
      exact List.cons_ne_nil _ _
    have hone := h.retainedOne
    rw [hcreated] at hone
    have hfields := executeSlice_fields world.coordinator kind selected readings
    split at hbegin
    next c hexecute =>
      have hc : c = (executeSlice world.coordinator kind selected readings).1 := by rw [hexecute]
      cases hbegin
      have hdone := withCoordinator h (c := { c with wake := true }) (hc ▸ hfields)
      exact ⟨⟨hdone.queue, fun _ => hdone.retainedKnown hne, hone, h.inlineOne, h.inlineAwaits,
        hdone.idle, h.selections⟩, hc ▸ hfields.1, rfl⟩
    next c slice hexecute =>
      have hc : c = (executeSlice world.coordinator kind selected readings).1 := by rw [hexecute]
      cases hbegin
      have hdone := withCoordinator h (hc ▸ hfields)
      exact ⟨⟨hdone.queue, fun _ => hdone.retainedKnown hne, hone, h.inlineOne, h.inlineAwaits,
        hdone.idle, h.selections⟩, hc ▸ hfields.1, rfl⟩
  next => cases hbegin

/-- The end of the run loop. -/
theorem stopRetained_invariant (h : WorldInvariant world)
    (hstop : world.stopRetained = some world') :
    WorldInvariant world' ∧ world'.coordinator.queue = world.coordinator.queue ∧
      world'.selections = world.selections ∧ world'.pump = world.pump := by
  unfold stopRetained at hstop
  split at hstop
  next => cases hstop
  next =>
    split_ifs at hstop with hstopped
    cases hstop
    exact ⟨⟨forgetRetained h.queue rfl rfl rfl rfl, fun hne => absurd rfl hne, Nat.zero_le _,
      h.inlineOne, h.inlineAwaits, fun _ hne => absurd hstopped hne, h.selections⟩, rfl, rfl, rfl⟩

/-- A step without a selection: every kind that is ready at it keeps its turn, and a pass of the
run loop without a selection ends it. -/
structure Waits (world : DemandWorld) (step : DemandStep) (world' : DemandWorld) : Prop where
  selections : world'.selections = world.selections
  turn : ∀ kind ∈ durableDemandOrder, ScansReady kind world step →
    KeepsTurn world.coordinator.queue world'.coordinator.queue kind ∧
      (isPass step = true → world'.pump = .stopped)
  stopped : world.pump = .stopped → world'.pump = .stopped

/-- A selection: a kind that is ready at it is selected or comes one place forward. -/
structure Serves (world : DemandWorld) (step : DemandStep) (world' : DemandWorld) : Prop where
  pass : isPass step = true
  running : world.pump ≠ .stopped
  served : ∃ kind selected,
    world'.selections = world.selections ++ [{ kind, selected, excluded := false }] ∧
      ∀ other ∈ durableDemandOrder, ScansReady other world step →
        kind = other ∨
          turnsLeft durableDemandOrder.length world'.coordinator.queue other + 1 ≤
            turnsLeft durableDemandOrder.length world.coordinator.queue other

/-- A step that leaves the queue, the selections and the stopped run loop as they are. -/
theorem waits_of_eq (hpass : isPass step = false)
    (hqueue : world'.coordinator.queue = world.coordinator.queue)
    (hselections : world'.selections = world.selections)
    (hstopped : world.pump = .stopped → world'.pump = .stopped) : Waits world step world' where
  selections := hselections
  turn kind _ _ := by
    refine ⟨hqueue ▸ KeepsTurn.refl _ _, ?_⟩
    rw [hpass]
    exact fun hfalse => absurd hfalse Bool.false_ne_true
  stopped := hstopped

/-- Every step keeps the invariant, and waits or serves. -/
theorem perform_turn (h : WorldInvariant world) (hown : Owned step)
    (hstep : perform safetyScanSeconds world step = some world') :
    WorldInvariant world' ∧ (Waits world step world' ∨ Serves world step world') := by
  cases step with
  | offer kind =>
    dsimp only [perform] at hstep
    split_ifs at hstep
    · cases hstep
      exact ⟨h, Or.inl (waits_of_eq rfl rfl rfl fun hs => hs)⟩
    · cases hstep
      have hfields := offer_fields world.coordinator kind
      exact ⟨withCoordinator h hfields, Or.inl (waits_of_eq rfl hfields.1 rfl fun hs => hs)⟩
  | eligibilityChanged methodKey now eligible =>
    cases hstep
    have hfields := eligibilityChanged_fields world.coordinator methodKey now eligible
    exact ⟨withCoordinator h hfields, Or.inl (waits_of_eq rfl hfields.1 rfl fun hs => hs)⟩
  | scan readings clearOffers =>
    obtain ⟨c, hscan, rfl⟩ := Option.map_eq_some_iff.mp hstep
    have hresult := scan_result hown h.queue hscan
    refine ⟨withScan h hresult, Or.inl ⟨rfl, ?_, fun hs => hs⟩⟩
    intro kind hkind hready
    exact ⟨(hresult.turn kind hkind (hready _ _ rfl)).1,
      fun hfalse => absurd hfalse Bool.false_ne_true⟩
  | pump readings =>
    dsimp only [perform] at hstep
    split_ifs at hstep with hmay
    obtain ⟨hpump, hstopped⟩ := mayPass_pump hmay
    obtain ⟨-, -, hqueue, hactive, hselections⟩ := beforeScan_invariant h hpump hstopped
    rcases pumpPass_selects h hpump hstopped hown hstep with
      ⟨-, hinv, hend, hqueue', hselections'⟩ | ⟨c, hscanOf, hresult, hinv, hselects⟩
    · refine ⟨hinv, Or.inl ⟨hselections', ?_, fun _ => hend⟩⟩
      exact fun kind _ _ => ⟨hqueue' ▸ KeepsTurn.refl _ _, fun _ => hend⟩
    · have hturns : ∀ kind ∈ durableDemandOrder, ScansReady kind world (.pump readings) →
          KeepsTurn world.coordinator.queue c.queue kind ∧ kind ∈ c.queue := by
        intro kind hkind hready
        obtain ⟨hturn, hin⟩ := hresult.turn kind hkind (hready _ _ hscanOf)
        refine ⟨hqueue ▸ hturn, hin ?_⟩
        rw [hactive]
        exact Option.some_ne_none kind |>.symm
      refine ⟨hinv, ?_⟩
      rcases hselects with ⟨hempty, hsame⟩ | ⟨kind, selected, hhead, -, hsame⟩
      · refine Or.inl ⟨hsame.trans hselections, ?_, fun hs => absurd hs hstopped⟩
        intro kind hkind hready
        have hin : kind ∈ c.queue := (hturns kind hkind hready).2
        have hnil : c.queue = [] := hempty
        rw [hnil] at hin
        exact absurd hin List.not_mem_nil
      · refine Or.inr ⟨rfl, hstopped, kind, selected, ?_, ?_⟩
        · rw [← hselections]
          exact hsame
        · intro other hother hready
          obtain ⟨hturn, hin⟩ := hturns other hother hready
          have hcons : c.queue = kind :: world'.coordinator.queue := hhead
          by_cases hne : kind = other
          · exact Or.inl hne
          · refine Or.inr ?_
            rw [turnsLeft_tail (hcons ▸ hin) hne, ← hcons]
            exact turnsLeft_mono hturn hresult.invariant.length_le
  | beginRetained readings =>
    obtain ⟨hinv, hqueue, hselections⟩ := beginRetained_invariant h hstep
    refine ⟨hinv, Or.inl (waits_of_eq rfl hqueue hselections ?_)⟩
    intro hs
    dsimp only [perform] at hstep
    unfold beginRetained at hstep
    split at hstep
    · split at hstep <;> cases hstep <;> exact hs
    · cases hstep
  | finishInline result readings =>
    obtain ⟨hinv, hqueue, hselections⟩ := finishInline_invariant h hstep
    refine ⟨hinv, Or.inl (waits_of_eq rfl hqueue hselections ?_)⟩
    intro hs
    exfalso
    dsimp only [perform] at hstep
    unfold finishInline at hstep
    split at hstep
    next => cases hstep
    next hinline =>
      have hawaiting := h.inlineAwaits (by rw [hinline]; exact List.cons_ne_nil _ _)
      rw [hs] at hawaiting
      cases hawaiting
  | finishRetained result readings =>
    obtain ⟨hinv, hqueue, hselections⟩ := finishRetained_invariant h hstep
    refine ⟨hinv, Or.inl (waits_of_eq rfl hqueue hselections ?_)⟩
    intro hs
    dsimp only [perform] at hstep
    unfold finishRetained at hstep
    split at hstep
    · cases hstep
      unfold afterResult
      split
      · split_ifs <;> exact hs
      · exact hs
    · cases hstep
  | stopRetained =>
    obtain ⟨hinv, hqueue, hselections, hpump⟩ := stopRetained_invariant h hstep
    exact ⟨hinv, Or.inl (waits_of_eq rfl hqueue hselections fun hs => hpump.trans hs)⟩
  | requestShutdown =>
    cases hstep
    have hwake := withCoordinator h (c := { world.coordinator with wake := true })
      ⟨rfl, rfl, rfl, rfl, rfl⟩
    refine ⟨⟨hwake.queue, hwake.retainedKnown, hwake.retainedOne, hwake.inlineOne,
      hwake.inlineAwaits, hwake.idle, hwake.selections⟩, Or.inl (waits_of_eq rfl rfl rfl ?_)⟩
    exact fun hs => hs

/-! ## Runs -/

/-- The first world. -/
theorem worldInvariant_initial : WorldInvariant {} where
  queue :=
    { nodup := List.nodup_nil
      queued := fun kind => by simp
      durable := fun _ hmem => absurd hmem List.not_mem_nil
      failedOut := fun _ _ hmem => absurd hmem List.not_mem_nil
      retainedOut := fun _ _ hmem => absurd hmem List.not_mem_nil }
  retainedKnown hne := absurd rfl hne
  retainedOne := Nat.zero_le _
  inlineOne := Nat.zero_le _
  inlineAwaits hne := absurd rfl hne
  idle _ _ := rfl
  selections _ hmem := absurd hmem List.not_mem_nil

/-- Every run keeps the invariant. -/
theorem run_worldInvariant (h : WorldInvariant world) (hown : ∀ step ∈ steps, Owned step)
    (hrun : run (perform safetyScanSeconds) world steps = some world') : WorldInvariant world' := by
  induction steps generalizing world with
  | nil => exact (Option.some.inj hrun) ▸ h
  | cons step steps ih =>
    obtain ⟨next, hstep, hrest⟩ := run_cons_eq_some.mp hrun
    refine ih (perform_turn h (hown step List.mem_cons_self) hstep).1 ?_ hrest
    exact fun other hmem => hown other (List.mem_cons_of_mem _ hmem)

/-- The run loop does not start again. -/
theorem run_stopped (h : WorldInvariant world) (hown : ∀ step ∈ steps, Owned step)
    (hrun : run (perform safetyScanSeconds) world steps = some world')
    (hstopped : world.pump = .stopped) : world'.pump = .stopped := by
  induction steps generalizing world with
  | nil => exact (Option.some.inj hrun) ▸ hstopped
  | cons step steps ih =>
    obtain ⟨next, hstep, hrest⟩ := run_cons_eq_some.mp hrun
    obtain ⟨hinv, hwaits | hserves⟩ := perform_turn h (hown step List.mem_cons_self) hstep
    · refine ih hinv ?_ hrest (hwaits.stopped hstopped)
      exact fun other hmem => hown other (List.mem_cons_of_mem _ hmem)
    · exact absurd hstopped hserves.running

/-- What a run does to a kind that is ready at each of its scans. -/
structure TurnTaken (kind : DemandKind) (world : DemandWorld) (steps : List DemandStep)
    (world' : DemandWorld) : Prop where
  /-- Unless the run loop ends, each of its passes selects a kind. -/
  passes : ∃ selections : List Selection, world'.selections = world.selections ++ selections ∧
    (selections.length = steps.countP isPass ∨ world'.pump = .stopped) ∧
    (turnsLeft durableDemandOrder.length world.coordinator.queue kind ≤ selections.length →
      kind ∈ (selections.take
        (turnsLeft durableDemandOrder.length world.coordinator.queue kind)).map Selection.kind)

/-- A ready kind is selected as soon as everybody before it was. -/
theorem run_turn {kind : DemandKind} (h : WorldInvariant world) (hkind : kind ∈ durableDemandOrder)
    (hown : ∀ step ∈ steps, Owned step)
    (hrun : run (perform safetyScanSeconds) world steps = some world')
    (hready : Along (perform safetyScanSeconds) (ScansReady kind) world steps) :
    TurnTaken kind world steps world' := by
  induction steps generalizing world with
  | nil =>
    obtain rfl : world = world' := Option.some.inj hrun
    refine ⟨[], (List.append_nil _).symm, Or.inl rfl, ?_⟩
    intro hle
    exfalso
    have hpos : 0 < turnsLeft durableDemandOrder.length world.coordinator.queue kind := by
      unfold turnsLeft
      split_ifs
      · exact Nat.succ_pos _
      · exact List.length_pos_of_mem hkind
    rw [List.length_nil] at hle
    omega
  | cons step steps ih =>
    obtain ⟨next, hstep, hrest⟩ := run_cons_eq_some.mp hrun
    obtain ⟨hfirst, hlater⟩ := (along_cons hstep).mp hready
    obtain ⟨hinv, hturn⟩ := perform_turn h (hown step List.mem_cons_self) hstep
    have hown' : ∀ other ∈ steps, Owned other :=
      fun other hmem => hown other (List.mem_cons_of_mem _ hmem)
    obtain ⟨selections, hselections, hpasses, htaken⟩ := ih hinv hown' hrest hlater
    rcases hturn with hwaits | hserves
    · obtain ⟨hkeeps, hend⟩ := hwaits.turn kind hkind hfirst
      have hle := turnsLeft_mono hkeeps hinv.queue.length_le
      refine ⟨selections, by rw [hselections, hwaits.selections], ?_, ?_⟩
      · by_cases hpass : isPass step = true
        · exact Or.inr (run_stopped hinv hown' hrest (hend hpass))
        · rw [List.countP_cons_of_neg hpass]
          exact hpasses
      · intro hlong
        have hmem := htaken (hle.trans hlong)
        exact List.map_subset _ (List.take_subset_take_left _ hle) hmem
    · obtain ⟨served, selected, hserved, hforward⟩ := hserves.served
      refine ⟨{ kind := served, selected, excluded := false } :: selections, ?_, ?_, ?_⟩
      · rw [hselections, hserved, List.append_assoc, List.singleton_append]
      · rw [List.countP_cons_of_pos hserves.pass, List.length_cons]
        rcases hpasses with hcount | hend
        · exact Or.inl (by rw [hcount])
        · exact Or.inr hend
      · intro hlong
        rw [List.length_cons] at hlong
        rcases hforward kind hkind hfirst with rfl | hforward
        · have hpos : 0 < turnsLeft durableDemandOrder.length world.coordinator.queue served := by
            unfold turnsLeft
            split_ifs
            · exact Nat.succ_pos _
            · exact List.length_pos_of_mem hkind
          obtain ⟨n, hn⟩ := Nat.exists_eq_succ_of_ne_zero hpos.ne'
          rw [hn, List.take_succ_cons, List.map_cons]
          exact List.mem_cons_self
        · have hmem := htaken (by omega)
          obtain ⟨n, hn⟩ := Nat.exists_eq_add_of_le hforward
          rw [hn, Nat.add_right_comm, List.take_succ_cons, List.map_cons]
          refine List.mem_cons_of_mem _ ?_
          exact List.map_subset _ (List.take_subset_take_left _ (Nat.le_add_right _ n)) hmem

/-- A scan in which one kind has ready work and the others have none. -/
def sampleScan : ScanReadings where
  observedAt := 10
  expiredAt := 10
  transientAt _ := 10
  answers kind :=
    if kind = .fullSyncPage then
      [{ answer := some (some { releaseAt := 0, selected := some ⟨⟨.fullSyncPage, 1, "7"⟩, "a"⟩ })
         now := 10 }]
    else [{ answer := some none, now := 10 }]

/-- A pass of the run loop with that scan. -/
def samplePass : DemandStep :=
  .pump
    { scan := sampleScan
      slice :=
        { createdAt := 10, transientAt := 10, activatedAt := 10, resumedAt := 10
          authorizedAt := 10 }
      waitAt := 10 }

/-- The end of the slice, with a committed revision. -/
def sampleFinish : DemandStep :=
  .finishInline (.outcome (some ⟨⟨⟨.fullSyncPage, 1, "7"⟩, "a"⟩, .progressed, some "b"⟩))
    { handler := { now := 10 }, budget := { limit := 1, attempts := 1 }
      releaseAt := fun _ => 10, eligible := fun _ _ => true }

/-- The sample scan is about the adapters' own work. -/
theorem sampleScan_own : OwnKinds sampleScan := by
  intro kind reading hmem status hanswer selected hselected
  unfold sampleScan at hmem
  dsimp only at hmem
  split_ifs at hmem with hkind
  · obtain rfl := List.mem_singleton.mp hmem
    obtain rfl := Option.some.inj (Option.some.inj hanswer)
    obtain rfl := Option.some.inj hselected
    exact hkind.symm
  · obtain rfl := List.mem_singleton.mp hmem
    cases Option.some.inj hanswer

end DemandWorld

end McpTelegram
