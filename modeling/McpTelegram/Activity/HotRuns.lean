import McpTelegram.Activity.HotSweep
import McpTelegram.Foundations.Run

/-!
# Runs of the hot sweep

The cursor, the empty streak and the offset of the window only ever go one way, so a state that was
read and has changed since never comes back: a slice whose state matches the row has read the
current one.  With that, a page is accepted for the window it was searched for, and the pages of a
window leave no kept message out between its offset and the newest of its first page.
-/

namespace McpTelegram

open Foundations

/-! ## Old states -/

/-- A state that the row has left behind: the cursor has gone up, or the streak has, or the offset
of the window has gone down. -/
inductive Stale (state : HotWindowState) (row : HotRow) : Prop
  | cursor (h : state.committedCursor < row.committedCursor)
  | streak (h : state.committedCursor = row.committedCursor)
      (h' : state.emptyStreak < row.emptyStreak)
  | offset (h : state.committedCursor = row.committedCursor)
      (h' : state.emptyStreak = row.emptyStreak) (offset : ℕ)
      (hoffset : row.pageOffsetId = some offset) (hzero : offset ≠ 0)
      (hdown : state.pageOffsetId = 0 ∨ offset < state.pageOffsetId)

section Stale

variable {state : HotWindowState} {row : HotRow} {minId maxSeen hotCursor : ℕ} {hadNew : Bool}
  {clock : ℤ}

/-- A state that was left behind does not match. -/
theorem Stale.not_matches (h : Stale state row) : ¬ row.Matches state := by
  rintro ⟨hcursor, hoffset, -, -, -, hstreak⟩
  cases h with
  | cursor h => omega
  | streak _ h => omega
  | offset _ _ offset hrow hzero hdown =>
    obtain rfl := Option.some.inj (hrow.symm.trans hoffset)
    omega

/-- Opening a window leaves every state behind that was. -/
theorem Stale.opened (h : Stale state row) (hclosed : row.pageOffsetId = none) :
    Stale state row.opened := by
  cases h with
  | cursor h => exact .cursor h
  | streak h h' => exact .streak h h'
  | offset _ _ offset hrow _ _ =>
    rw [hclosed] at hrow
    cases hrow

/-- A completed window leaves behind every state that was left behind or is the current one. -/
theorem Stale.completed (h : Stale state row ∨ row.Matches state)
    (hle : row.committedCursor ≤ hotCursor) :
    Stale state (row.completed hotCursor clock hadNew) := by
  have hstreak : row.committedCursor = hotCursor →
      (row.completed hotCursor clock hadNew).emptyStreak = row.emptyStreak + 1 := by
    intro hsame
    exact if_neg fun hnew => absurd hnew.2 (by omega)
  have hcursor : (row.completed hotCursor clock hadNew).committedCursor = hotCursor := rfl
  have hmove : state.committedCursor ≤ row.committedCursor →
      (state.committedCursor = row.committedCursor → state.emptyStreak ≤ row.emptyStreak) →
        Stale state (row.completed hotCursor clock hadNew) := by
    intro hold hstate
    rcases Nat.lt_or_ge state.committedCursor hotCursor with hlt | hge
    · exact .cursor hlt
    · have hsame : row.committedCursor = hotCursor := by omega
      refine .streak (by omega) ?_
      have hle := hstate (by omega)
      rw [hstreak hsame]
      omega
  rcases h with h | ⟨hcursor', -, -, -, -, hstreak'⟩
  · cases h with
    | cursor h => exact hmove (by omega) fun hsame => by omega
    | streak | offset => exact hmove (by omega) fun _ => by omega
  · exact hmove (by omega) fun _ => by omega

/-- Progress in a window leaves behind every state that was left behind or is the current one. -/
theorem Stale.progressed (h : Stale state row ∨ row.Matches state) {offset : ℕ}
    (hoffset : row.pageOffsetId = some offset) (hzero : minId ≠ 0)
    (hdown : offset = 0 ∨ minId < offset) : Stale state (row.progressed minId maxSeen hadNew) := by
  rcases h with h | ⟨hcursor, hrow, -, -, -, hstreak⟩
  · cases h with
    | cursor h => exact .cursor h
    | streak h h' => exact .streak h h'
    | offset h h' offset' hrow hzero' hdown' =>
      obtain rfl := Option.some.inj (hoffset.symm.trans hrow)
      refine .offset h h' minId rfl hzero ?_
      omega
  · obtain rfl := Option.some.inj (hoffset.symm.trans hrow)
    exact .offset hcursor.symm hstreak.symm minId rfl hzero hdown

end Stale

/-! ## The invariant -/

/-- What an open window has done: its offset, its maximum, its first page, and the pages that it has
committed. -/
structure WindowInv (world : HotWorld) (offset maxId : ℕ) : Prop where
  cursor : world.row.committedCursor ≤ maxId
  start : offset = 0 → maxId = world.row.committedCursor
  below : offset ≠ 0 → world.row.committedCursor < offset ∧ offset ≤ maxId ∧ maxId ∈ world.first
  covered : offset ≠ 0 → ∀ message ∈ world.kept, world.row.committedCursor < message →
    offset ≤ message → message ∈ world.committed

/-- A page that was accepted: it leaves no kept message out, and its rows are committed. -/
structure PageCommitted (kept committed : List ℕ) (state : HotWindowState) (result : SweepResult) :
    Prop where
  leaves : Leaves kept state.pageOffsetId state.committedCursor backfillBatchLimit result.fetchedIds
  committed : result.fetchedIds ⊆ committed
  minId : result.minId = result.fetchedIds.min?
  maxId : result.maxId = result.fetchedIds.max?
  floor : result.skipReason = .historyFloor → result.fetchedIds = []

/-- A result is one of an accepted page unless it says otherwise. -/
def ResultCovered (kept committed : List ℕ) (state : HotWindowState) (result : SweepResult) :
    Prop :=
  result.accepted = true → result.floodWaitSeconds.isSome = false →
    result.skipReason ≠ .accessSkip → PageCommitted kept committed state result

/-- What a phase of a sweep for the current window knows. -/
def HotPhaseCovered (kept committed : List ℕ) (state : HotWindowState) : SweepPhase → Prop
  | .persisting batch =>
    Leaves kept state.pageOffsetId state.committedCursor backfillBatchLimit batch
  | .returned result => ResultCovered kept committed state result
  | _ => True

/-- The state that a slice has read is the current one, or it was left behind. -/
structure ReadInv (world : HotWorld) (readAt : ℕ) (state : HotWindowState) : Prop where
  le : readAt ≤ world.changes
  current : readAt = world.changes → world.row.Matches state
  stale : readAt < world.changes → Stale state world.row

/-- The invariant of the hot sweep. -/
structure HotInv (world : HotWorld) : Prop where
  window : ∀ offset, world.row.pageOffsetId = some offset →
    ∃ maxId, world.row.windowMaxId = some maxId ∧ WindowInv world offset maxId
  sweeping : ∀ id readAt state phase, world.slices id = some (.sweeping readAt state phase) →
    ReadInv world readAt state ∧
      (readAt = world.changes → HotPhaseCovered world.kept world.committed state phase)
  persisting : ∀ id readAt state result stopped,
    world.slices id = some (.persisting readAt state result stopped) →
      ReadInv world readAt state ∧ result.accepted = true ∧
        (readAt = world.changes → ResultCovered world.kept world.committed state result)
  own : world.kept ⊆ world.own
  positive : ∀ message ∈ world.own, 0 < message

section Keep

variable {world next : HotWorld} {id readAt : ℕ} {state : HotWindowState} {phase : SweepPhase}
  {kept kept' committed committed' : List ℕ} {result : SweepResult}

variable {slices : Table ℕ HotSlice} {stopped : Bool} {event : SweepEvent} {selected : HotRevision}

/-- With fewer messages kept and more committed, a page stays accepted. -/
theorem ResultCovered.mono (h : ResultCovered kept committed state result) (hkept : kept' ⊆ kept)
    (hcommitted : committed ⊆ committed') : ResultCovered kept' committed' state result := by
  intro haccepted hflood hskip
  have hpage := h haccepted hflood hskip
  exact
    { hpage with
      leaves := hpage.leaves.mono hkept
      committed := List.Subset.trans hpage.committed hcommitted }

/-- The same of a phase. -/
theorem HotPhaseCovered.mono (h : HotPhaseCovered kept committed state phase) (hkept : kept' ⊆ kept)
    (hcommitted : committed ⊆ committed') : HotPhaseCovered kept' committed' state phase := by
  cases phase with
  | persisting batch => exact Leaves.mono h hkept
  | returned result => exact ResultCovered.mono h hkept hcommitted
  | resolving | preparing | searching | losing | budgetExhausted => trivial

/-- A step that leaves the row, and keeps fewer messages or commits more, and in which no slice goes
on. -/
theorem HotInv.mono (h : HotInv world) (hrow : next.row = world.row)
    (hchanges : next.changes = world.changes) (hfirst : next.first = world.first)
    (hslices : ∀ id slice, next.slices id = some slice → world.slices id = some slice ∨
      (∃ selected, slice = .validating selected) ∨ ∃ selected, slice = .preparing selected)
    (hkept : next.kept ⊆ world.kept) (hcommitted : world.committed ⊆ next.committed)
    (hown : next.kept ⊆ next.own) (hpositive : ∀ message ∈ next.own, 0 < message) :
    HotInv next := by
  have hread : ∀ {readAt state}, ReadInv world readAt state → ReadInv next readAt state := by
    rintro readAt state ⟨hle, hcurrent, hstale⟩
    rw [← hchanges, ← hrow] at *
    exact ⟨hle, hcurrent, hstale⟩
  refine
    { window := fun offset hoffset => ?_
      sweeping := fun id readAt state phase hslice => ?_
      persisting := fun id readAt state result stopped hslice => ?_
      own := hown
      positive := hpositive }
  · rw [hrow] at hoffset
    obtain ⟨maxId, hmax, hwindow⟩ := h.window offset hoffset
    refine ⟨maxId, hrow ▸ hmax, ?_⟩
    refine
      { cursor := hrow ▸ hwindow.cursor
        start := hrow ▸ hwindow.start
        below := ?_
        covered := fun hzero message hmem hcursor hle => ?_ }
    · rw [hrow, hfirst]
      exact hwindow.below
    · exact hcommitted (hwindow.covered hzero message (hkept hmem) (hrow ▸ hcursor) hle)
  · rcases hslices id _ hslice with hsame | ⟨selected, hnew⟩ | ⟨selected, hnew⟩
    · obtain ⟨hinv, hcovered⟩ := h.sweeping id readAt state phase hsame
      exact ⟨hread hinv, fun hcurrent =>
        (hcovered (hcurrent.trans hchanges)).mono hkept hcommitted⟩
    · cases hnew
    · cases hnew
  · rcases hslices id _ hslice with hsame | ⟨selected, hnew⟩ | ⟨selected, hnew⟩
    · obtain ⟨hinv, haccepted, hcovered⟩ := h.persisting id readAt state result stopped hsame
      exact ⟨hread hinv, haccepted, fun hcurrent =>
        (hcovered (hcurrent.trans hchanges)).mono hkept hcommitted⟩
    · cases hnew
    · cases hnew

/-- A step that changes the row and leaves behind every state that was read. -/
theorem HotInv.advance (h : HotInv world) (hchanges : next.changes = world.changes + 1)
    (hstale : ∀ state, Stale state world.row ∨ world.row.Matches state → Stale state next.row)
    (hslices : ∀ id slice, next.slices id = some slice → world.slices id = some slice ∨
      (∃ selected, slice = .validating selected) ∨ ∃ selected, slice = .preparing selected)
    (hwindow : ∀ offset, next.row.pageOffsetId = some offset →
      ∃ maxId, next.row.windowMaxId = some maxId ∧ WindowInv next offset maxId)
    (hown : next.kept ⊆ next.own) (hpositive : ∀ message ∈ next.own, 0 < message) :
    HotInv next := by
  have hread : ∀ {readAt state}, ReadInv world readAt state →
      ReadInv next readAt state ∧ readAt ≠ next.changes := by
    rintro readAt state ⟨hle, hcurrent, hold⟩
    have hne : readAt ≠ next.changes := by omega
    refine ⟨⟨by omega, fun hsame => absurd hsame hne, fun _ => hstale state ?_⟩, hne⟩
    rcases Nat.lt_or_eq_of_le hle with hlt | hsame
    · exact .inl (hold hlt)
    · exact .inr (hcurrent hsame)
  refine
    { window := hwindow
      sweeping := fun id readAt state phase hslice => ?_
      persisting := fun id readAt state result stopped hslice => ?_
      own := hown
      positive := hpositive }
  · rcases hslices id _ hslice with hsame | ⟨selected, hnew⟩ | ⟨selected, hnew⟩
    · obtain ⟨hinv, hne⟩ := hread (h.sweeping id readAt state phase hsame).1
      exact ⟨hinv, fun hcurrent => absurd hcurrent hne⟩
    · cases hnew
    · cases hnew
  · rcases hslices id _ hslice with hsame | ⟨selected, hnew⟩ | ⟨selected, hnew⟩
    · obtain ⟨hbefore, haccepted, -⟩ := h.persisting id readAt state result stopped hsame
      obtain ⟨hinv, hne⟩ := hread hbefore
      exact ⟨hinv, haccepted, fun hcurrent => absurd hcurrent hne⟩
    · cases hnew
    · cases hnew

/-- A state that matches the row was read since the window changed last. -/
theorem ReadInv.current_of_matches (h : ReadInv world readAt state)
    (hmatches : world.row.Matches state) : readAt = world.changes := by
  rcases Nat.lt_or_eq_of_le h.le with hlt | hsame
  · exact absurd hmatches (h.stale hlt).not_matches
  · exact hsame

/-! ## The window -/

/-- Opening the window, with the slices that the step leaves. -/
theorem HotInv.beginWindow (h : HotInv world)
    (hslices : ∀ id slice, slices id = some slice → world.slices id = some slice ∨
      (∃ selected, slice = .validating selected) ∨ ∃ selected, slice = .preparing selected) :
    HotInv { world.beginWindow with slices := slices } := by
  unfold HotWorld.beginWindow
  rcases hoffset : world.row.pageOffsetId with _ | offset
  · refine h.advance rfl (fun state hstate => ?_) hslices (fun offset hopen => ?_)
      (List.Subset.refl _) h.positive
    · rcases hstate with hstale | ⟨-, hmatches, -⟩
      · exact hstale.opened hoffset
      · rw [hoffset] at hmatches
        cases hmatches
    · obtain rfl : 0 = offset := Option.some.inj hopen
      exact ⟨_, rfl, Nat.le_refl _, fun _ => rfl, fun hzero => absurd rfl hzero,
        fun hzero => absurd rfl hzero⟩
  · exact h.mono rfl rfl rfl hslices (List.Subset.refl _) (List.Subset.refl _) h.own h.positive

/-- The state that is read matches the row. -/
theorem HotInv.beginWindow_matches (h : HotInv world) :
    world.beginWindow.row.Matches world.row.windowState := by
  unfold HotWorld.beginWindow HotRow.windowState
  rcases hoffset : world.row.pageOffsetId with _ | offset
  · exact ⟨rfl, rfl, rfl, rfl, rfl, rfl⟩
  · obtain ⟨maxId, hmax, -⟩ := h.window offset hoffset
    rw [hmax]
    exact ⟨rfl, hoffset, hmax, rfl, rfl, rfl⟩

/-- A slice that has read the state of the row. -/
theorem HotInv.read (h : HotInv world) (hmatches : world.row.Matches state) :
    HotInv { world with
      slices := world.slices.put id (.sweeping world.changes state .resolving) } where
  window offset hoffset := by
    obtain ⟨maxId, hmax, hwindow⟩ := h.window offset hoffset
    exact ⟨maxId, hmax, hwindow.cursor, hwindow.start, hwindow.below, hwindow.covered⟩
  sweeping id' readAt state' phase hslice := by
    dsimp only at hslice
    rw [Table.put_apply] at hslice
    split_ifs at hslice
    · obtain ⟨rfl, rfl, rfl⟩ := HotSlice.sweeping.inj (Option.some.inj hslice)
      exact ⟨⟨Nat.le_refl _, fun _ => hmatches, fun hlt => absurd hlt (Nat.lt_irrefl _)⟩,
        fun _ => trivial⟩
    · obtain ⟨hinv, hcovered⟩ := h.sweeping id' readAt state' phase hslice
      exact ⟨⟨hinv.le, hinv.current, hinv.stale⟩, hcovered⟩
  persisting id' readAt state' result stopped hslice := by
    dsimp only at hslice
    rw [Table.put_apply] at hslice
    split_ifs at hslice
    · cases hslice
    · obtain ⟨hinv, haccepted, hcovered⟩ := h.persisting id' readAt state' result stopped hslice
      exact ⟨⟨hinv.le, hinv.current, hinv.stale⟩, haccepted, hcovered⟩
  own := h.own
  positive := h.positive

/-! ## A page -/

/-- The page result of a batch whose rows are committed. -/
theorem covered_hotPageResult {batch : List ℕ} {extracted genuinelyNew : ℕ}
    (h : Leaves kept state.pageOffsetId state.committedCursor backfillBatchLimit batch) :
    ResultCovered kept (committed ++ batch) state
      (sweepPageResult batch extracted genuinelyNew) := by
  intro _ _ _
  unfold sweepPageResult
  split_ifs with hempty
  · rw [hempty] at h ⊢
    exact ⟨h, List.nil_subset _, rfl, rfl, fun _ => rfl⟩
  · exact ⟨h, List.subset_append_right _ _, rfl, rfl, nofun⟩

/-- A step of a sweep keeps what its phase knows. -/
theorem hotCovered_sweepStep {own : List ℕ} {accept : Bool} {move : SweepMove}
    (h : HotPhaseCovered kept committed state phase)
    (hstep : sweepStep accept phase event = some move)
    (hhonest : event.Honest own state.pageOffsetId state.committedCursor backfillBatchLimit)
    (hkept : kept ⊆ own) : HotPhaseCovered kept (committed ++ move.rows) state move.phase := by
  cases sweepMoves_of_step hstep with
  | searched ids => exact hhonest.leaves hkept
  | committed haccept batch extracted genuinelyNew => exact covered_hotPageResult h
  | pageless before phase event lost hpageless =>
    cases hpageless with
    | preparing | searching | losing | budgetExhausted => trivial
    | notAccepted => exact nofun
    | accessSkip => exact fun _ _ hskip => absurd rfl hskip
    | floodWait seconds => exact fun _ hflood => nomatch hflood

/-- The maximum that a page is saved with is the cursor, or is in the first page of the window. -/
theorem WindowInv.maxSeen {offset maxId : ℕ} (h : WindowInv world offset maxId)
    (hpage : PageCommitted kept committed state result) (hoffset : state.pageOffsetId = offset)
    (hcursor : state.committedCursor = world.row.committedCursor) :
    max maxId (result.maxId.getD 0) = world.row.committedCursor ∨
      max maxId (result.maxId.getD 0) ∈ world.firstPage state result := by
  rw [hpage.maxId]
  unfold HotWorld.firstPage
  rcases hmax : result.fetchedIds.max? with _ | highest
  · rw [Option.getD_none, Nat.max_zero]
    by_cases hzero : offset = 0
    · exact .inl (h.start hzero)
    · rw [if_neg (by rw [hoffset]; exact hzero)]
      exact .inr (h.below hzero).2.2
  · have hmem := List.max?_mem hmax
    obtain ⟨hfloor, hrange⟩ := hpage.leaves.range highest hmem
    rw [Option.getD_some]
    by_cases hzero : offset = 0
    · rw [if_pos (hoffset.trans hzero)]
      have hstart := h.start hzero
      rw [Nat.max_eq_right (by omega)]
      exact .inr hmem
    · obtain ⟨-, hle, hfirst⟩ := h.below hzero
      rw [if_neg (by rw [hoffset]; exact hzero), Nat.max_eq_left (by omega)]
      exact .inr hfirst

/-- The lowest id of an accepted page. -/
theorem PageCommitted.min_range {lowest : ℕ} (h : PageCommitted kept committed state result)
    (hmin : result.minId = some lowest) :
    state.committedCursor < lowest ∧ (state.pageOffsetId = 0 ∨ lowest < state.pageOffsetId) ∧
      ∃ highest, result.maxId = some highest ∧ lowest ≤ highest := by
  have hmin' : result.fetchedIds.min? = some lowest := h.minId.symm.trans hmin
  obtain ⟨hfloor, hrange⟩ := h.leaves.min_range hmin'
  have hmem := List.min?_mem hmin'
  obtain ⟨highest, hmax⟩ : ∃ highest, result.fetchedIds.max? = some highest :=
    Option.isSome_iff_exists.mp (List.isSome_max?_of_mem hmem)
  refine ⟨hfloor, hrange, highest, h.maxId.trans hmax, ?_⟩
  exact (List.max?_eq_some_iff.mp hmax).2 lowest hmem

/-! ## Saving a page -/

/-- What saving a page does to the row and the record. -/
inductive Saved (world : HotWorld) (state : HotWindowState) (result : SweepResult) (clock : ℤ) :
    HotWorld → Prop
  /-- The state has changed, or the page was not searched, or it is stopped before any message. -/
  | nothing : Saved world state result clock world
  | completed (hadNew : Bool) (hmatches : world.row.Matches state)
      (hflood : result.floodWaitSeconds.isSome = false) (hskip : result.skipReason ≠ .accessSkip)
      (hdrained : result.drained = true) :
      Saved world state result clock { world with
        row := world.row.completed (max state.windowMaxId (result.maxId.getD 0)) clock hadNew
        changes := world.changes + 1
        first := world.firstPage state result }
  | progressed (hadNew : Bool) (lowest : ℕ) (hmatches : world.row.Matches state)
      (hflood : result.floodWaitSeconds.isSome = false) (hskip : result.skipReason ≠ .accessSkip)
      (hmin : result.minId = some lowest) :
      Saved world state result clock { world with
        row := world.row.progressed lowest (max state.windowMaxId (result.maxId.getD 0)) hadNew
        changes := world.changes + 1
        first := world.firstPage state result }

theorem matches_of_stateMatches (h : world.stateMatches state = true) :
    world.row.Matches state ∧ world.lost = false := of_decide_eq_true h

/-- Saving a page. -/
theorem saved_persistPage (stopped : Bool) (clock : ℤ) :
    Saved world state result clock (world.persistPage state result stopped clock) := by
  unfold HotWorld.persistPage
  dsimp only
  split_ifs with hmatches hskip hdrained
  · exact .nothing
  · exact .nothing
  · rw [Bool.not_eq_false] at hmatches
    rw [not_or, Bool.not_eq_true] at hskip
    exact .completed _ (matches_of_stateMatches hmatches).1 hskip.1 hskip.2 hdrained.1
  · rw [Bool.not_eq_false] at hmatches
    rw [not_or, Bool.not_eq_true] at hskip
    split
    · exact .nothing
    · next lowest hmin =>
      exact .progressed _ lowest (matches_of_stateMatches hmatches).1 hskip.1 hskip.2 hmin

/-- The page of a slice whose state matches the row is one of the current window. -/
theorem HotInv.page (h : HotInv world)
    (hslice : world.slices id = some (.persisting readAt state result stopped))
    (hmatches : world.row.Matches state) (hflood : result.floodWaitSeconds.isSome = false)
    (hskip : result.skipReason ≠ .accessSkip) :
    PageCommitted world.kept world.committed state result ∧
      WindowInv world state.pageOffsetId state.windowMaxId := by
  obtain ⟨hread, haccepted, hcovered⟩ := h.persisting id readAt state result stopped hslice
  obtain ⟨maxId, hmax, hwindow⟩ := h.window state.pageOffsetId hmatches.2.1
  obtain rfl := Option.some.inj (hmatches.2.2.1.symm.trans hmax)
  exact ⟨hcovered (hread.current_of_matches hmatches) haccepted hflood hskip, hwindow⟩

/-- Saving a page keeps the invariant. -/
theorem HotInv.saved (h : HotInv world) {clock : ℤ}
    (hslice : world.slices id = some (.persisting readAt state result stopped))
    (hsaved : Saved world state result clock next) :
    HotInv { next with slices := world.slices.drop id } := by
  have hslices : ∀ id' slice, world.slices.drop id id' = some slice →
      world.slices id' = some slice ∨
        (∃ selected, slice = .validating selected) ∨ ∃ selected, slice = .preparing selected := by
    intro id' slice hdrop
    rw [Table.drop_apply] at hdrop
    split_ifs at hdrop
    exact .inl hdrop
  cases hsaved with
  | nothing =>
    exact h.mono rfl rfl rfl hslices (List.Subset.refl _) (List.Subset.refl _) h.own h.positive
  | completed hadNew hmatches hflood hskip hdrained =>
    obtain ⟨hpage, hwindow⟩ := h.page hslice hmatches hflood hskip
    have hcursor := hwindow.cursor
    refine h.advance rfl (fun state' hstate => ?_) hslices (fun offset hopen => by cases hopen)
      h.own h.positive
    exact Stale.completed hstate (by omega)
  | progressed hadNew lowest hmatches hflood hskip hmin =>
    obtain ⟨hpage, hwindow⟩ := h.page hslice hmatches hflood hskip
    obtain ⟨hfloor, hrange, highest, hmax, hle⟩ := hpage.min_range hmin
    have hsame : world.row.committedCursor = state.committedCursor := hmatches.1
    have hcursor := hwindow.cursor
    refine h.advance rfl (fun state' hstate => ?_) hslices (fun offset hopen => ?_) h.own h.positive
    · exact Stale.progressed hstate hmatches.2.1 (by omega) hrange
    · obtain rfl := Option.some.inj hopen
      refine ⟨_, rfl, ?_⟩
      have hseen := hwindow.maxSeen hpage rfl hsame.symm
      refine
        { cursor := ?_
          start := fun hzero => by omega
          below := fun _ => ⟨?_, ?_, ?_⟩
          covered := fun _ message hmem hcursor hle => ?_ }
      · change world.row.committedCursor ≤ max state.windowMaxId _
        omega
      · change world.row.committedCursor < lowest
        omega
      · rw [hmax, Option.getD_some]
        omega
      · refine hseen.resolve_left ?_
        rw [hmax, Option.getD_some]
        omega
      · refine hpage.leaves.above_min (fun id hmem hfloor hzero hle => ?_) hpage.committed
          (hpage.minId.symm.trans hmin) message hmem (hsame ▸ hcursor) hle
        exact hwindow.covered hzero id hmem (hsame ▸ hfloor) hle

/-- A drained window leaves no kept message above the cursor out. -/
theorem PageCommitted.drained (hpage : PageCommitted world.kept world.committed state result)
    (hwindow : WindowInv world state.pageOffsetId state.windowMaxId)
    (hsame : world.row.committedCursor = state.committedCursor) (hdrained : result.drained = true) :
    ∀ message ∈ world.kept, world.row.committedCursor < message → message ∈ world.committed := by
  have hshort : result.fetchedIds.length < backfillBatchLimit := by
    rcases of_decide_eq_true hdrained with hfloor | hshort
    · rw [hpage.floor hfloor]
      decide
    · exact hshort
  intro message hmem hcursor
  by_cases hrange : state.pageOffsetId = 0 ∨ message < state.pageOffsetId
  · exact hpage.committed (hpage.leaves.all hshort message hmem ⟨hsame ▸ hcursor, hrange⟩)
  · rw [not_or, Nat.not_lt] at hrange
    exact hwindow.covered hrange.1 message hmem hcursor hrange.2

/-! ## Steps -/

/-- A step of a sweep. -/
theorem HotInv.move (h : HotInv world)
    (hslice : world.slices id = some (.sweeping readAt state phase)) {move : SweepMove}
    (hhonest : event.Honest world.own state.pageOffsetId state.committedCursor backfillBatchLimit)
    (hstep : sweepStep (world.stateMatches state) phase event = some move) :
    HotInv (world.move id readAt state move) := by
  have hgrows : world.committed ⊆ world.committed ++ move.rows := List.subset_append_left _ _
  refine
    { window := fun offset hoffset => ?_
      sweeping := fun id' readAt' state' phase' hslice' => ?_
      persisting := fun id' readAt' state' result stopped hslice' => ?_
      own := h.own
      positive := h.positive }
  · obtain ⟨maxId, hmax, hwindow⟩ := h.window offset hoffset
    exact ⟨maxId, hmax, hwindow.cursor, hwindow.start, hwindow.below,
      fun hzero message hmem hcursor hle => hgrows (hwindow.covered hzero message hmem hcursor hle)⟩
  · change world.slices.put id _ id' = _ at hslice'
    rw [Table.put_apply] at hslice'
    split_ifs at hslice'
    · obtain ⟨rfl, rfl, rfl⟩ := HotSlice.sweeping.inj (Option.some.inj hslice')
      obtain ⟨hread, hcovered⟩ := h.sweeping id readAt state phase hslice
      exact ⟨⟨hread.le, hread.current, hread.stale⟩,
        fun hcurrent => hotCovered_sweepStep (hcovered hcurrent) hstep hhonest h.own⟩
    · obtain ⟨hread, hcovered⟩ := h.sweeping id' readAt' state' phase' hslice'
      exact ⟨⟨hread.le, hread.current, hread.stale⟩,
        fun hcurrent => (hcovered hcurrent).mono (List.Subset.refl _) hgrows⟩
  · change world.slices.put id _ id' = _ at hslice'
    rw [Table.put_apply] at hslice'
    split_ifs at hslice'
    · cases hslice'
    · obtain ⟨hread, haccepted, hcovered⟩ :=
        h.persisting id' readAt' state' result stopped hslice'
      exact ⟨⟨hread.le, hread.current, hread.stale⟩, haccepted,
        fun hcurrent => (hcovered hcurrent).mono (List.Subset.refl _) hgrows⟩

/-- A slice with an accepted page reads the shutdown event. -/
theorem HotInv.fetched (h : HotInv world) {stopped : Bool}
    (hslice : world.slices id = some (.sweeping readAt state (.returned result)))
    (haccepted : result.accepted = true) :
    HotInv { world with
      slices := world.slices.put id (.persisting readAt state result stopped) } where
  window offset hoffset := by
    obtain ⟨maxId, hmax, hwindow⟩ := h.window offset hoffset
    exact ⟨maxId, hmax, hwindow.cursor, hwindow.start, hwindow.below, hwindow.covered⟩
  sweeping id' readAt' state' phase hslice' := by
    dsimp only at hslice'
    rw [Table.put_apply] at hslice'
    split_ifs at hslice'
    · cases hslice'
    · obtain ⟨hread, hcovered⟩ := h.sweeping id' readAt' state' phase hslice'
      exact ⟨⟨hread.le, hread.current, hread.stale⟩, hcovered⟩
  persisting id' readAt' state' result' stopped' hslice' := by
    dsimp only at hslice'
    rw [Table.put_apply] at hslice'
    split_ifs at hslice'
    · obtain ⟨rfl, rfl, rfl, rfl⟩ := HotSlice.persisting.inj (Option.some.inj hslice')
      obtain ⟨hread, hcovered⟩ := h.sweeping id readAt state _ hslice
      exact ⟨⟨hread.le, hread.current, hread.stale⟩, haccepted, hcovered⟩
    · obtain ⟨hread, haccepted', hcovered⟩ :=
        h.persisting id' readAt' state' result' stopped' hslice'
      exact ⟨⟨hread.le, hread.current, hread.stale⟩, haccepted', hcovered⟩
  own := h.own
  positive := h.positive

/-- Slices that are dropped. -/
theorem slices_of_drop (id' : ℕ) (slice : HotSlice) (h : slices.drop id id' = some slice) :
    slices id' = some slice ∨
      (∃ selected, slice = .validating selected) ∨ ∃ selected, slice = .preparing selected := by
  rw [Table.drop_apply] at h
  split_ifs at h
  exact .inl h

/-- A slice that starts. -/
theorem slices_of_validating (id' : ℕ) (slice : HotSlice)
    (h : slices.put id (.validating selected) id' = some slice) :
    slices id' = some slice ∨
      (∃ selected, slice = .validating selected) ∨ ∃ selected, slice = .preparing selected := by
  rw [Table.put_apply] at h
  split_ifs at h
  · exact .inr (.inl ⟨selected, (Option.some.inj h).symm⟩)
  · exact .inl h

/-- A slice that is validated. -/
theorem slices_of_preparing (id' : ℕ) (slice : HotSlice)
    (h : slices.put id (.preparing selected) id' = some slice) :
    slices id' = some slice ∨
      (∃ selected, slice = .validating selected) ∨ ∃ selected, slice = .preparing selected := by
  rw [Table.put_apply] at h
  split_ifs at h
  · exact .inr (.inr ⟨selected, (Option.some.inj h).symm⟩)
  · exact .inl h

/-- A step keeps the invariant. -/
theorem HotInv.step (h : HotInv world) {action : HotAction}
    (hstep : world.step action = some next) : HotInv next := by
  have hsub : ∀ {list : List ℕ}, list ⊆ list := fun {list} => List.Subset.refl list
  unfold HotWorld.step at hstep
  cases action with
  | start id selected =>
    dsimp only at hstep
    split at hstep
    · cases hstep
    · split_ifs at hstep
      obtain rfl := Option.some.inj hstep
      exact h.mono rfl rfl rfl slices_of_validating hsub hsub h.own h.positive
  | validate id =>
    dsimp only at hstep
    split at hstep
    · split_ifs at hstep
      · obtain rfl := Option.some.inj hstep
        exact h.mono rfl rfl rfl slices_of_drop hsub hsub h.own h.positive
      · obtain rfl := Option.some.inj hstep
        exact h.beginWindow slices_of_preparing
      · obtain rfl := Option.some.inj hstep
        exact h.beginWindow slices_of_drop
    · cases hstep
  | prepare id =>
    dsimp only at hstep
    split at hstep
    · split_ifs at hstep
      · obtain rfl := Option.some.inj hstep
        exact h.mono rfl rfl rfl slices_of_drop hsub hsub h.own h.positive
      · obtain rfl := Option.some.inj hstep
        have hbegun : HotInv { world.beginWindow with slices := world.slices } :=
          h.beginWindow fun _ _ => .inl
        exact hbegun.read h.beginWindow_matches
      · obtain rfl := Option.some.inj hstep
        exact h.beginWindow slices_of_drop
    · cases hstep
  | sweep id event =>
    dsimp only at hstep
    split at hstep
    · next readAt state phase hslice =>
      split_ifs at hstep with hhonest
      obtain ⟨move, hmove, rfl⟩ := Option.map_eq_some_iff.mp hstep
      exact h.move hslice hhonest hmove
    · cases hstep
  | fetched id =>
    dsimp only at hstep
    split at hstep
    · next readAt state result hslice =>
      split_ifs at hstep with hend
      · obtain rfl := Option.some.inj hstep
        exact h.mono rfl rfl rfl slices_of_drop hsub hsub h.own h.positive
      · obtain rfl := Option.some.inj hstep
        rw [not_or, Bool.not_eq_false] at hend
        exact h.fetched hslice hend.1
    · obtain rfl := Option.some.inj hstep
      exact h.mono rfl rfl rfl slices_of_drop hsub hsub h.own h.positive
    · cases hstep
  | persist id clock =>
    dsimp only at hstep
    split at hstep
    · next readAt state result stopped hslice =>
      obtain rfl := Option.some.inj hstep
      exact h.saved hslice (saved_persistPage stopped clock)
    · cases hstep
  | drop id =>
    obtain rfl := Option.some.inj hstep
    exact h.mono rfl rfl rfl slices_of_drop hsub hsub h.own h.positive
  | crash =>
    obtain rfl := Option.some.inj hstep
    exact h.mono rfl rfl rfl (fun _ _ hslice => by cases hslice) hsub hsub h.own h.positive
  | shutdown | lose | restore =>
    obtain rfl := Option.some.inj hstep
    exact h.mono rfl rfl rfl (fun _ _ => .inl) hsub hsub h.own h.positive
  | receive message =>
    dsimp only at hstep
    split_ifs at hstep with hpositive
    obtain rfl := Option.some.inj hstep
    refine h.mono rfl rfl rfl (fun _ _ => .inl) hsub hsub
      (List.Subset.trans h.own (List.subset_cons_self _ _)) fun message' hmem => ?_
    rcases List.mem_cons.mp hmem with rfl | hbefore
    · exact hpositive
    · exact h.positive message' hbefore
  | delete message =>
    obtain rfl := Option.some.inj hstep
    exact h.mono rfl rfl rfl (fun _ _ => .inl) (List.filter_subset_self _) hsub
      (List.filter_subset _ h.own)
      fun message' hmem => h.positive message' (List.filter_subset_self _ hmem)

/-- A peer that was never swept. -/
theorem HotInv.initial : HotInv HotWorld.initial where
  window offset hoffset := by cases hoffset
  sweeping id readAt state phase hslice := by cases hslice
  persisting id readAt state result stopped hslice := by cases hslice
  own := List.Subset.refl _
  positive message hmem := absurd hmem List.not_mem_nil

end Keep

/-! ## What a step may do -/

/-- A slice that is about to write: it has a state, and the window as it was when it was read. -/
inductive Writes (world : HotWorld) : HotAction → ℕ → HotWindowState → Prop
  | sweep (id : ℕ) (event : SweepEvent) (readAt : ℕ) (state : HotWindowState) (phase : SweepPhase)
      (h : world.slices id = some (.sweeping readAt state phase)) :
      Writes world (.sweep id event) readAt state
  | persist (id : ℕ) (clock : ℤ) (readAt : ℕ) (state : HotWindowState) (result : SweepResult)
      (stopped : Bool) (h : world.slices id = some (.persisting readAt state result stopped)) :
      Writes world (.persist id clock) readAt state

/-- What a step of the hot sweep may do. -/
structure HotStepSafe (world : HotWorld) (action : HotAction) (next : HotWorld) : Prop where
  /-- The cursor never decreases. -/
  cursor : world.row.committedCursor ≤ next.row.committedCursor
  /-- Every message between the old cursor and the new one that was there ever since the window was
  opened is in a page committed in the window. -/
  covered : ∀ message ∈ world.kept, world.row.committedCursor < message →
    message ≤ next.row.committedCursor → message ∈ world.committed
  /-- A message that is newer than the first page of the window stays above the cursor. -/
  newer : ∀ message, world.row.committedCursor < message → (∀ seen ∈ next.first, seen < message) →
    next.row.committedCursor < message
  /-- A slice writes rows or the window only if the window is as it was when the slice read it. -/
  unchanged : ∀ readAt state, Writes world action readAt state →
    next.committed ≠ world.committed ∨ next.row ≠ world.row →
      readAt = world.changes ∧ world.row.Matches state
  /-- Every change of the window is counted. -/
  counted : next.row = world.row ∧ next.changes = world.changes ∨ next.changes = world.changes + 1
  /-- An open window changes with a saved page only. -/
  interrupted : next.row ≠ world.row → world.row.pageOffsetId = none ∨
    ∃ id clock, action = .persist id clock
  /-- A slice resumes the window at what the row says. -/
  resumed : ∀ id readAt state, action = .prepare id →
    next.slices id = some (.sweeping readAt state .resolving) →
      next.row.Matches state ∧ readAt = next.changes

section Safe

variable {world next : HotWorld} {id readAt : ℕ} {state : HotWindowState} {phase : SweepPhase}
  {result : SweepResult} {action : HotAction}

/-- A step that leaves the row and commits no rows. -/
theorem HotStepSafe.of_row (hrow : next.row = world.row) (hchanges : next.changes = world.changes)
    (hcommitted : next.committed = world.committed)
    (hresumed : ∀ id readAt state, action = .prepare id →
      next.slices id ≠ some (.sweeping readAt state .resolving)) :
    HotStepSafe world action next where
  cursor := by rw [hrow]
  covered message _ hcursor hle := by
    rw [hrow] at hle
    omega
  newer message hcursor _ := by
    rw [hrow]
    exact hcursor
  unchanged readAt state _ hwrites := by
    rcases hwrites with hne | hne
    · exact absurd hcommitted hne
    · exact absurd hrow hne
  counted := .inl ⟨hrow, hchanges⟩
  interrupted hne := absurd hrow hne
  resumed id readAt state haction hslice := absurd hslice (hresumed id readAt state haction)

/-- Opening the window. -/
theorem HotStepSafe.of_begin (hrow : next.row = world.beginWindow.row)
    (hchanges : next.changes = world.beginWindow.changes)
    (hwrites : ∀ readAt state, ¬ Writes world action readAt state)
    (hresumed : ∀ id readAt state, action = .prepare id →
      next.slices id = some (.sweeping readAt state .resolving) →
        next.row.Matches state ∧ readAt = next.changes) : HotStepSafe world action next := by
  have hbegin : world.beginWindow.row.committedCursor = world.row.committedCursor ∧
      (world.beginWindow.row = world.row ∧ world.beginWindow.changes = world.changes ∨
        world.row.pageOffsetId = none ∧ world.beginWindow.changes = world.changes + 1) := by
    unfold HotWorld.beginWindow
    rcases world.row.pageOffsetId with _ | offset
    · exact ⟨rfl, .inr ⟨rfl, rfl⟩⟩
    · exact ⟨rfl, .inl ⟨rfl, rfl⟩⟩
  obtain ⟨hcursor, hcases⟩ := hbegin
  refine
    { cursor := by rw [hrow, hcursor]
      covered := fun message _ hlt hle => ?_
      newer := fun message hlt _ => ?_
      unchanged := fun readAt state h => absurd h (hwrites readAt state)
      counted := ?_
      interrupted := fun hne => ?_
      resumed := hresumed }
  · rw [hrow, hcursor] at hle
    omega
  · rw [hrow, hcursor]
    exact hlt
  · rw [hrow, hchanges]
    exact hcases.imp_right And.right
  · rcases hcases with ⟨hsame, -⟩ | ⟨hnone, -⟩
    · exact absurd (hrow.trans hsame) hne
    · exact .inl hnone

/-- A step of a sweep writes rows only if the state still matches. -/
theorem HotInv.move_safe (h : HotInv world)
    (hslice : world.slices id = some (.sweeping readAt state phase)) {event : SweepEvent}
    {move : SweepMove} (hstep : sweepStep (world.stateMatches state) phase event = some move) :
    HotStepSafe world (.sweep id event) (world.move id readAt state move) where
  cursor := Nat.le_refl _
  covered message _ hcursor hle := absurd hle (Nat.not_le.mpr hcursor)
  newer message hcursor _ := hcursor
  unchanged readAt' state' hwrites hne := by
    cases hwrites with
    | sweep _ _ _ _ phase' hslice' =>
      obtain ⟨rfl, rfl, -⟩ := HotSlice.sweeping.inj (Option.some.inj (hslice.symm.trans hslice'))
      have hrows : move.rows ≠ [] := by
        rcases hne with hne | hne
        · intro hnil
          refine hne ?_
          change world.committed ++ move.rows = world.committed
          rw [hnil, List.append_nil]
        · exact absurd rfl hne
      have hmatches := (matches_of_stateMatches (accept_of_rows hstep hrows)).1
      exact ⟨(h.sweeping id readAt state phase hslice).1.current_of_matches hmatches, hmatches⟩
  counted := .inl ⟨rfl, rfl⟩
  interrupted hne := absurd rfl hne
  resumed _ _ _ haction := by cases haction

/-- Saving a page. -/
theorem HotInv.saved_safe (h : HotInv world) {stopped : Bool} {clock : ℤ}
    (hslice : world.slices id = some (.persisting readAt state result stopped))
    (hsaved : Saved world state result clock next) :
    HotStepSafe world (.persist id clock) { next with slices := world.slices.drop id } := by
  have hcurrent : world.row.Matches state → ∀ readAt' state',
      Writes world (.persist id clock) readAt' state' →
        readAt' = world.changes ∧ world.row.Matches state' := by
    intro hmatches readAt' state' hwrites
    cases hwrites with
    | persist _ _ _ _ result' stopped' hslice' =>
      obtain ⟨rfl, rfl, -, -⟩ :=
        HotSlice.persisting.inj (Option.some.inj (hslice.symm.trans hslice'))
      exact ⟨(h.persisting id readAt state result stopped hslice).1.current_of_matches hmatches,
        hmatches⟩
  cases hsaved with
  | nothing => exact .of_row rfl rfl rfl nofun
  | completed hadNew hmatches hflood hskip hdrained =>
    obtain ⟨hpage, hwindow⟩ := h.page hslice hmatches hflood hskip
    have hcursor := hwindow.cursor
    have hseen := hwindow.maxSeen hpage rfl hmatches.1.symm
    refine
      { cursor := ?_
        covered := fun message hmem hlt _ =>
          hpage.drained hwindow hmatches.1 hdrained message hmem hlt
        newer := fun message hlt hnewer => ?_
        unchanged := fun readAt' state' hwrites _ => hcurrent hmatches readAt' state' hwrites
        counted := .inr rfl
        interrupted := fun _ => .inr ⟨id, clock, rfl⟩
        resumed := nofun }
    · change world.row.committedCursor ≤ max state.windowMaxId _
      omega
    · change max state.windowMaxId (result.maxId.getD 0) < message
      rcases hseen with hsame | hmem
      · rw [hsame]
        exact hlt
      · exact hnewer _ hmem
  | progressed hadNew lowest hmatches hflood hskip hmin =>
    exact
      { cursor := Nat.le_refl _
        covered := fun message _ hlt hle => absurd hle (Nat.not_le.mpr hlt)
        newer := fun message hlt _ => hlt
        unchanged := fun readAt' state' hwrites _ => hcurrent hmatches readAt' state' hwrites
        counted := .inr rfl
        interrupted := fun _ => .inr ⟨id, clock, rfl⟩
        resumed := nofun }

/-- A step from a state with the invariant. -/
theorem HotInv.step_safe (h : HotInv world) (hstep : world.step action = some next) :
    HotStepSafe world action next := by
  unfold HotWorld.step at hstep
  cases action with
  | start id selected =>
    dsimp only at hstep
    split at hstep
    · cases hstep
    · split_ifs at hstep
      obtain rfl := Option.some.inj hstep
      exact .of_row rfl rfl rfl nofun
  | validate id =>
    dsimp only at hstep
    split at hstep
    · split_ifs at hstep
      · obtain rfl := Option.some.inj hstep
        exact .of_row rfl rfl rfl nofun
      all_goals
        obtain rfl := Option.some.inj hstep
        exact .of_begin rfl rfl nofun nofun
    · cases hstep
  | prepare id =>
    dsimp only at hstep
    have hdrop : ∀ id' readAt state, HotAction.prepare id = .prepare id' →
        world.slices.drop id id' ≠ some (.sweeping readAt state .resolving) := by
      intro id' readAt state haction hslice
      obtain rfl := HotAction.prepare.inj haction
      rw [Table.drop_apply, if_pos rfl] at hslice
      cases hslice
    split at hstep
    · split_ifs at hstep
      · obtain rfl := Option.some.inj hstep
        exact .of_row rfl rfl rfl hdrop
      · obtain rfl := Option.some.inj hstep
        refine .of_begin rfl rfl nofun fun id' readAt state haction hslice => ?_
        obtain rfl := HotAction.prepare.inj haction
        change world.slices.put id _ id = _ at hslice
        rw [Table.put_self] at hslice
        obtain ⟨rfl, rfl, -⟩ := HotSlice.sweeping.inj (Option.some.inj hslice)
        exact ⟨h.beginWindow_matches, rfl⟩
      · obtain rfl := Option.some.inj hstep
        exact .of_begin rfl rfl nofun fun id' readAt state haction hslice =>
          absurd hslice (hdrop id' readAt state haction)
    · cases hstep
  | sweep id event =>
    dsimp only at hstep
    split at hstep
    · next readAt state phase hslice =>
      split_ifs at hstep
      obtain ⟨move, hmove, rfl⟩ := Option.map_eq_some_iff.mp hstep
      exact h.move_safe hslice hmove
    · cases hstep
  | fetched id =>
    dsimp only at hstep
    split at hstep
    · split_ifs at hstep
      all_goals
        obtain rfl := Option.some.inj hstep
        exact .of_row rfl rfl rfl nofun
    · obtain rfl := Option.some.inj hstep
      exact .of_row rfl rfl rfl nofun
    · cases hstep
  | persist id clock =>
    dsimp only at hstep
    split at hstep
    · next readAt state result stopped hslice =>
      obtain rfl := Option.some.inj hstep
      exact h.saved_safe hslice (saved_persistPage stopped clock)
    · cases hstep
  | receive message =>
    dsimp only at hstep
    split_ifs at hstep
    obtain rfl := Option.some.inj hstep
    exact .of_row rfl rfl rfl nofun
  | drop | crash | shutdown | lose | restore | delete =>
    obtain rfl := Option.some.inj hstep
    exact .of_row rfl rfl rfl nofun

/-- In every run of the hot sweep of a peer, every step is safe. -/
theorem hot_windows_skip_nothing {actions : List HotAction}
    (hrun : run HotWorld.step HotWorld.initial actions = some world)
    (hstep : world.step action = some next) : HotStepSafe world action next := by
  have h : HotInv world :=
    run_invariant (fun _ _ _ hinv hstep => hinv.step hstep) HotInv.initial hrun
  exact h.step_safe hstep

/-- A window of one page, and a message that comes while the page is on its way. -/
theorem hot_windows_skip_nothing_page :
    ∃ world next : HotWorld, world.step (.persist 1 100) = some next ∧
      next.row.committedCursor = 5 ∧ world.own = [6, 5] ∧
      HotStepSafe world (.persist 1 100) next := by
  let actions : List HotAction := [.receive 5, .start 1 ⟨0, 0, 0, false, 0⟩, .validate 1,
    .prepare 1, .sweep 1 (.resolve .resolved), .sweep 1 .prepare, .sweep 1 (.search (.page [5])),
    .receive 6, .sweep 1 (.persist .none 1 1), .fetched 1]
  exact ⟨_, _, rfl, rfl, rfl, @hot_windows_skip_nothing _ _ _ actions rfl rfl⟩

end Safe

end McpTelegram
