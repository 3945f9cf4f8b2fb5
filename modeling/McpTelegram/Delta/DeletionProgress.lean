import McpTelegram.Delta.DeletionPosition

/-!
# Progress of the scan for deleted direct messages

What a step can do to the stored checkpoint and to the slice, said once, and the invariants that
follow from it.  Inside a generation the cursors only move on.  A page that was given to the scanner
is passed, or its attempt made no dispatch, or the scan stands still for good.
-/

namespace McpTelegram

open Foundations

open DmDeletionCheckpoint (transition)

/-! ## What a step can do -/

namespace DmScanWorld

variable {world next : DmScanWorld}

/-- Every change that a step makes. -/
inductive Change (world : DmScanWorld) : DmScanWorld → Prop
  | write (tables : DmTables) : Change world { world with tables }
  | drop : Change world { world with slice := none }
  | begin (generation : ℕ) (now : ℤ) (hfree : world.slice = none)
      (hfresh : world.checkpoint = none ∧ generation = 1 ∨
        ∃ state, world.checkpoint = some state ∧ state.status = .idle ∧
          generation = state.generation + 1)
      (hvalid : (DmDeletionCheckpoint.first generation now).valid) :
      Change world
        { world with
          checkpoint := some (.first generation now)
          slice := some (.started (.first generation now)) }
  | resume (state : DmDeletionCheckpoint) (hfree : world.slice = none)
      (hstored : world.checkpoint = some state) (hrunning : state.status = .running)
      (hpolicy : state.currentPolicy = true) :
      Change world { world with slice := some (.started state) }
  | select (state : DmDeletionCheckpoint) (dialogId : ℤ) (page : List ℤ)
      (hslice : world.slice = some (.started state))
      (hnext : state.nextDialog world.tables.dialogIds = some dialogId)
      (hpage : page = world.tables.pageIds dialogId state.scanStartedAt
        (if state.dialogIdCursor = some dialogId then state.messageCursor else 0))
      (hne : page ≠ []) :
      Change world { world with slice := some (.selected state dialogId page) }
  | complete (state : DmDeletionCheckpoint) (now : ℤ)
      (hslice : world.slice = some (.started state))
      (hnext : state.nextDialog world.tables.dialogIds = none)
      (hvalid : (state.completed now).valid) :
      Change world { world with checkpoint := some (state.completed now), slice := none }
  | advance (state : DmDeletionCheckpoint) (dialogId now : ℤ)
      (hslice : world.slice = some (.started state))
      (hnext : state.nextDialog world.tables.dialogIds = some dialogId)
      (hempty : world.tables.pageIds dialogId state.scanStartedAt
        (if state.dialogIdCursor = some dialogId then state.messageCursor else 0) = [])
      (hvalid : (state.moved dialogId 0 now).valid) :
      Change world { world with checkpoint := some (state.moved dialogId 0 now), slice := none }
  | claim (state : DmDeletionCheckpoint) (dialogId : ℤ) (page : List ℤ) (now : ℤ)
      (hslice : world.slice = some (.selected state dialogId page))
      (hvalid : (state.transition .verifying none now).valid) :
      Change world
        { world with
          checkpoint := some (state.transition .verifying none now)
          slice := some (.claimed (state.transition .verifying none now) dialogId page) }
  | verify (state : DmDeletionCheckpoint) (dialogId : ℤ) (page : List ℤ) (outcome : DmPageOutcome)
      (hslice : world.slice = some (.claimed state dialogId page)) :
      Change world
        { world with
          slice := afterVerify state dialogId page outcome
          dispatches :=
            world.dispatches ++
              [{ generation := state.generation, dialogId, page, unsent := outcome = .deferred 0 }] }
  | commit (state : DmDeletionCheckpoint) (dialogId : ℤ) (page : List ℤ) (now : ℤ)
      (hslice : world.slice = some (.verified state dialogId page))
      (hvalid : (state.moved dialogId (page.getLastD 0) now).valid) :
      Change world
        { world with
          checkpoint := some (state.moved dialogId (page.getLastD 0) now)
          slice := none
          commits := world.commits ++ [{ generation := state.generation, dialogId, page }] }
  | restore (state : DmDeletionCheckpoint) (now : ℤ) (hslice : world.slice = some (.unsent state))
      (hvalid : (state.transition .running none now).valid) :
      Change world
        { world with checkpoint := some (state.transition .running none now), slice := none }
  | suspend (state : DmDeletionCheckpoint) (now : ℤ)
      (hslice : world.slice = some (.throttled state))
      (hvalid : (state.transition .suspended (some "account_throttle") now).valid) :
      Change world
        { world with
          checkpoint := some (state.transition .suspended (some "account_throttle") now)
          slice := none }
  | prepare (now : ℤ) :
      Change world
        { world with
          slice := none
          checkpoint :=
            world.checkpoint.map fun state =>
              if (state.prepared now).valid then state.prepared now else state }

/-- A transition ends the slice, or it finds the expected state and replaces it by a valid one. -/
theorem transitionOrEnd_cases (world : DmScanWorld) (expected state : DmDeletionCheckpoint)
    (slice : Option DmSlice) :
    world.transitionOrEnd expected state slice = { world with slice := none } ∨
      state.valid = true ∧
        world.transitionOrEnd expected state slice =
          { world with checkpoint := some state, slice } := by
  unfold transitionOrEnd writeTransition
  by_cases hready : world.checkpoint = some expected ∧ state.valid = true
  · right
    refine ⟨hready.2, ?_⟩
    rw [if_pos hready]
  · left
    rw [if_neg hready]

/-- A start begins a generation, resumes the stored one, or ends the slice. -/
theorem startScan_change (now : ℤ) (hfree : world.slice = none) :
    Change world
      { world with
        checkpoint := (startScan world.checkpoint now).1
        slice := (startScan world.checkpoint now).2.map .started } := by
  unfold startScan
  cases hstored : world.checkpoint with
  | none =>
    dsimp only
    split_ifs with hvalid
    · exact .begin 1 now hfree (Or.inl ⟨hstored, rfl⟩) hvalid
    · have hdrop : Change world { world with slice := none } := .drop
      rw [hstored] at hdrop
      exact hdrop
  | some state =>
    dsimp only
    have hdrop : Change world { world with slice := none } := .drop
    rw [hstored] at hdrop
    split_ifs with hidle hvalid hrunning
    · exact .begin (state.generation + 1) now hfree
        (Or.inr ⟨state, hstored, hidle.1, rfl⟩) hvalid
    · exact hdrop
    · have hresume := Change.resume state hfree hstored hrunning.1 hrunning.2
      rw [hstored] at hresume
      exact hresume
    · exact hdrop

/-- Every step makes one of the changes. -/
theorem change_of_perform {step : DmScanStep} (h : world.perform step = some next) :
    Change world next := by
  cases step with
  | write tables =>
    obtain rfl := Option.some.inj h
    exact .write tables
  | start now =>
    dsimp only [perform] at h
    split at h
    next hfree =>
      obtain rfl := Option.some.inj h
      exact startScan_change now hfree
    next => cases h
  | select now =>
    dsimp only [perform] at h
    split at h
    next state hslice =>
      obtain rfl := Option.some.inj h
      unfold selectPage
      split
      next hnext =>
        rcases world.transitionOrEnd_cases state (state.completed now) none with heq | ⟨hvalid, heq⟩
        · rw [heq]
          exact .drop
        · rw [heq]
          exact .complete state now hslice hnext hvalid
      next dialogId hnext =>
        dsimp only
        by_cases hempty : world.tables.pageIds dialogId state.scanStartedAt
            (if state.dialogIdCursor = some dialogId then state.messageCursor else 0) = []
        · rw [if_pos hempty]
          rcases world.transitionOrEnd_cases state (state.moved dialogId 0 now) none with
            heq | ⟨hvalid, heq⟩
          · rw [heq]
            exact .drop
          · rw [heq]
            exact .advance state dialogId now hslice hnext hempty hvalid
        · rw [if_neg hempty]
          exact .select state dialogId _ hslice hnext rfl hempty
    next => cases h
  | claim now =>
    dsimp only [perform] at h
    split at h
    next state dialogId page hslice =>
      obtain rfl := Option.some.inj h
      rcases world.transitionOrEnd_cases state (state.transition .verifying none now)
        (some (.claimed (state.transition .verifying none now) dialogId page)) with
        heq | ⟨hvalid, heq⟩
      · rw [heq]
        exact .drop
      · rw [heq]
        exact .claim state dialogId page now hslice hvalid
    next => cases h
  | verify outcome =>
    dsimp only [perform] at h
    split at h
    next state dialogId page hslice =>
      obtain rfl := Option.some.inj h
      exact .verify state dialogId page outcome hslice
    next => cases h
  | settle now =>
    dsimp only [perform] at h
    split at h
    next state dialogId page hslice =>
      unfold writeTransition at h
      split at h
      next hwritten =>
        split_ifs at hwritten with hready
        obtain rfl := Option.some.inj hwritten
        obtain rfl := Option.some.inj h
        exact .commit state dialogId page now hslice hready.2
      next =>
        obtain rfl := Option.some.inj h
        exact .drop
    next state hslice =>
      obtain rfl := Option.some.inj h
      rcases world.transitionOrEnd_cases state (state.transition .running none now) none with
        heq | ⟨hvalid, heq⟩
      · rw [heq]
        exact .drop
      · rw [heq]
        exact .restore state now hslice hvalid
    next state hslice =>
      obtain rfl := Option.some.inj h
      rcases world.transitionOrEnd_cases state
        (state.transition .suspended (some "account_throttle") now) none with heq | ⟨hvalid, heq⟩
      · rw [heq]
        exact .drop
      · rw [heq]
        exact .suspend state now hslice hvalid
    next => cases h
  | abandon =>
    obtain rfl := Option.some.inj h
    exact .drop
  | restart now =>
    obtain rfl := Option.some.inj h
    exact .prepare now

end DmScanWorld

/-! ## The slice agrees with the checkpoint -/

namespace DmSlice

/-- The state that a slice goes on with. -/
def state : DmSlice → DmDeletionCheckpoint
  | .started state | .selected state _ _ | .claimed state _ _ | .verified state _ _
  | .unsent state | .throttled state => state

/-- The status of that state. -/
def status : DmSlice → DmScanStatus
  | .started _ | .selected _ _ _ => .running
  | .claimed _ _ _ | .verified _ _ _ | .unsent _ | .throttled _ => .verifying

/-- The page of a slice. -/
def page : DmSlice → Option (ℤ × List ℤ)
  | .selected _ dialogId page | .claimed _ dialogId page | .verified _ dialogId page =>
    some (dialogId, page)
  | .started _ | .unsent _ | .throttled _ => none

end DmSlice

/-- A page of increasing messages that are all ahead of a state. -/
structure PageAhead (state : DmDeletionCheckpoint) (dialogId : ℤ) (page : List ℤ) : Prop where
  nonempty : page ≠ []
  increasing : page.Pairwise (· < ·)
  ahead : ∀ messageId ∈ page, 0 < messageId ∧ ¬ state.Passed dialogId messageId

namespace PageAhead

variable {state : DmDeletionCheckpoint} {dialogId messageId : ℤ} {page : List ℤ}

/-- The last message of a page is on it. -/
theorem last_mem (h : PageAhead state dialogId page) : page.getLastD 0 ∈ page := by
  rw [List.getLastD_eq_getLast?, List.getLast?_eq_some_getLast h.nonempty]
  exact List.getLast_mem h.nonempty

/-- The messages of a page end with the last one. -/
theorem le_last (h : PageAhead state dialogId page) (hmem : messageId ∈ page) :
    messageId ≤ page.getLastD 0 := by
  rw [List.getLastD_eq_getLast?, List.getLast?_eq_some_getLast h.nonempty]
  exact (h.increasing.imp le_of_lt).rel_getLast hmem

/-- What was passed before a page stays passed after it. -/
theorem passed_moved (h : PageAhead state dialogId page) {dialogId' messageId' now : ℤ}
    (hpassed : state.Passed dialogId' messageId') :
    (state.moved dialogId (page.getLastD 0) now).Passed dialogId' messageId' := by
  have hlt := DmDeletionCheckpoint.lt_of_passed hpassed (h.ahead _ h.last_mem).2
  rw [Prod.Lex.toLex_lt_toLex] at hlt
  rw [DmDeletionCheckpoint.passed_moved]
  exact hlt.imp id fun ⟨heq, hlt⟩ => ⟨heq, Or.inr hlt.le⟩

end PageAhead

namespace DmScanWorld

variable {world next : DmScanWorld}

/-- What holds between the checkpoint and the slice. -/
structure Sound (world : DmScanWorld) : Prop where
  decodes : ∀ state, world.checkpoint = some state → state.decodes = true
  held : ∀ slice, world.slice = some slice → world.checkpoint = some slice.state ∧
    slice.state.status = slice.status ∧ slice.state.currentPolicy = true
  ahead : ∀ slice dialogId page, world.slice = some slice → slice.page = some (dialogId, page) →
    PageAhead slice.state dialogId page

/-- A valid state of the current policy decodes. -/
theorem decodes_of_valid {state : DmDeletionCheckpoint} (hpolicy : state.currentPolicy = true)
    (hvalid : state.valid = true) : state.decodes = true := by
  rw [DmDeletionCheckpoint.decodes, if_pos hpolicy]
  exact hvalid

/-- A selected page is ahead of its state. -/
theorem pageAhead_select {tables : DmTables} {state : DmDeletionCheckpoint} {dialogId : ℤ}
    (hvalid : 0 ≤ state.messageCursor) (hnext : state.nextDialog tables.dialogIds = some dialogId)
    (hne : tables.pageIds dialogId state.scanStartedAt
      (if state.dialogIdCursor = some dialogId then state.messageCursor else 0) ≠ []) :
    PageAhead state dialogId (tables.pageIds dialogId state.scanStartedAt
      (if state.dialogIdCursor = some dialogId then state.messageCursor else 0)) := by
  refine ⟨hne, tables.pageIds_increasing _ _ _, fun messageId hmem => ?_⟩
  have hdue := DmTables.due_of_mem_pageIds hmem
  rw [DmTables.due, Bool.and_eq_true, decide_eq_true_eq] at hdue
  constructor
  · apply tables.messages_pos (dialogId, messageId)
    intro hnone
    rw [hnone] at hdue
    cases hdue.1
  · rintro ⟨cursor, hcursor, hplace⟩
    rcases (DmDeletionCheckpoint.nextDialog_spec hnext).2 with ⟨hsame, hpositive⟩ | hbehind
    · rw [hsame] at hcursor
      obtain rfl := Option.some.inj hcursor
      rw [if_pos hsame] at hdue
      omega
    · have hlt := hbehind cursor hcursor
      omega

/-- A stored valid state without a slice is sound. -/
theorem sound_stop {state : DmDeletionCheckpoint} (hstored : next.checkpoint = some state)
    (hslice : next.slice = none) (hpolicy : state.currentPolicy = true)
    (hvalid : state.valid = true) : next.Sound := by
  refine ⟨?_, ?_, ?_⟩
  · intro state' hstate
    rw [hstored] at hstate
    obtain rfl := Option.some.inj hstate
    exact decodes_of_valid hpolicy hvalid
  · intro slice hsome
    rw [hslice] at hsome
    cases hsome
  · intro slice dialogId page hsome
    rw [hslice] at hsome
    cases hsome

/-- A step keeps the slice and the checkpoint together. -/
theorem sound_change (hsound : world.Sound) (h : Change world next) : next.Sound := by
  have hcursor : ∀ state, world.slice = some (.started state) → 0 ≤ state.messageCursor := by
    intro state hslice
    obtain ⟨hstored, -, hpolicy⟩ := hsound.held _ hslice
    have hdecodes := hsound.decodes _ hstored
    rw [DmDeletionCheckpoint.decodes, if_pos hpolicy] at hdecodes
    exact DmDeletionCheckpoint.messageCursor_nonneg hdecodes
  cases h with
  | write tables => exact ⟨hsound.decodes, hsound.held, hsound.ahead⟩
  | drop =>
    exact ⟨hsound.decodes, fun slice hslice => (by cases hslice),
      fun slice _ _ hslice => (by cases hslice)⟩
  | begin generation now hfree hfresh hvalid =>
    refine ⟨?_, ?_, ?_⟩
    · rintro state hstate
      obtain rfl := Option.some.inj hstate
      exact decodes_of_valid rfl hvalid
    · rintro slice hslice
      obtain rfl := Option.some.inj hslice
      exact ⟨rfl, rfl, rfl⟩
    · rintro slice dialogId page hslice hpage
      obtain rfl := Option.some.inj hslice
      cases hpage
  | resume state hfree hstored hrunning hpolicy =>
    refine ⟨hsound.decodes, ?_, ?_⟩
    · rintro slice hslice
      obtain rfl := Option.some.inj hslice
      exact ⟨hstored, hrunning, hpolicy⟩
    · rintro slice dialogId page hslice hpage
      obtain rfl := Option.some.inj hslice
      cases hpage
  | select state dialogId page hslice hnext hpage hne =>
    refine ⟨hsound.decodes, ?_, ?_⟩
    · rintro slice hslice'
      obtain rfl := Option.some.inj hslice'
      exact hsound.held (.started state) hslice
    · rintro slice dialogId' page' hslice' hpage'
      obtain rfl := Option.some.inj hslice'
      obtain ⟨rfl, rfl⟩ := Prod.mk.inj (Option.some.inj hpage')
      rw [hpage] at hne ⊢
      exact pageAhead_select (hcursor state hslice) hnext hne
  | complete _ _ _ _ hvalid | advance _ _ _ _ _ _ hvalid | commit _ _ _ _ _ hvalid
  | restore _ _ _ hvalid | suspend _ _ _ hvalid => exact sound_stop rfl rfl rfl hvalid
  | claim state dialogId page now hslice hvalid =>
    refine ⟨?_, ?_, ?_⟩
    · rintro state' hstate
      obtain rfl := Option.some.inj hstate
      exact decodes_of_valid rfl hvalid
    · rintro slice hslice'
      obtain rfl := Option.some.inj hslice'
      exact ⟨rfl, rfl, rfl⟩
    · rintro slice dialogId' page' hslice' hpage'
      obtain rfl := Option.some.inj hslice'
      obtain ⟨rfl, rfl⟩ := Prod.mk.inj (Option.some.inj hpage')
      obtain ⟨hne, hincreasing, hahead⟩ := hsound.ahead _ _ _ hslice rfl
      exact ⟨hne, hincreasing, hahead⟩
  | verify state dialogId page outcome hslice =>
    have hheld := hsound.held _ hslice
    refine ⟨hsound.decodes, ?_, ?_⟩
    · rintro slice hslice'
      cases outcome with
      | success =>
        obtain rfl := Option.some.inj hslice'
        exact hheld
      | deferred attempts =>
        dsimp only [afterVerify] at hslice'
        split_ifs at hslice'
        obtain rfl := Option.some.inj hslice'
        exact hheld
      | throttled =>
        obtain rfl := Option.some.inj hslice'
        exact hheld
      | failed => cases hslice'
    · rintro slice dialogId' page' hslice' hpage'
      cases outcome with
      | success =>
        obtain rfl := Option.some.inj hslice'
        obtain ⟨rfl, rfl⟩ := Prod.mk.inj (Option.some.inj hpage')
        exact hsound.ahead (.claimed state dialogId page) dialogId page hslice rfl
      | deferred attempts =>
        dsimp only [afterVerify] at hslice'
        split_ifs at hslice'
        obtain rfl := Option.some.inj hslice'
        cases hpage'
      | throttled =>
        obtain rfl := Option.some.inj hslice'
        cases hpage'
      | failed => cases hslice'
  | prepare now =>
    refine ⟨?_, fun slice hslice => (by cases hslice), fun slice _ _ hslice => (by cases hslice)⟩
    rintro state' hstate
    obtain ⟨state, hstored, rfl⟩ := Option.map_eq_some_iff.mp hstate
    split_ifs with hvalid
    · by_cases hpolicy : (state.prepared now).currentPolicy = true
      · exact decodes_of_valid hpolicy hvalid
      · have hsame : state.prepared now = state := by
          unfold DmDeletionCheckpoint.prepared at hpolicy ⊢
          split_ifs at hpolicy ⊢ <;> simp_all [transition]
        rw [hsame]
        exact hsound.decodes state hstored
    · exact hsound.decodes state hstored

end DmScanWorld

end McpTelegram
