import McpTelegram.History.Backfill

/-!
# The gap fill loses nothing

The cursor of the gap fill gets its first value from the backfill or from a slice, and only a slice
moves it afterwards.  A slice commits only if the cursor, the refresh generation and the completion
generation are still those that it read, so it inserts what was behind the stored cursor, and a
refresh that was requested after it had read its generation keeps it from committing.
-/

namespace McpTelegram

open Foundations

variable {page : GapPage} {now cursor : ℤ}

/-! ## What the transactions do to the gap fill -/

namespace HistoryTables

variable {tables stored : HistoryTables}

/-- The columns of the gap fill are kept, apart from a newer refresh generation. -/
structure KeepsGap (tables stored : HistoryTables) : Prop where
  row : ∀ row, tables.row = some row → ∃ row', stored.row = some row' ∧
    row'.deltaMessageId = row.deltaMessageId ∧
    row.deltaRefreshGeneration ≤ row'.deltaRefreshGeneration
  completion : stored.completionGeneration = tables.completionGeneration
  inserted : stored.inserted = tables.inserted

theorem KeepsGap.refl (tables : HistoryTables) : KeepsGap tables tables :=
  ⟨fun row hrow => ⟨row, hrow, rfl, le_rfl⟩, rfl, rfl⟩

/-- Keeping composes. -/
theorem KeepsGap.trans {between : HistoryTables} (h : KeepsGap tables between)
    (h' : KeepsGap between stored) : KeepsGap tables stored := by
  refine ⟨fun row hrow => ?_, h'.completion.trans h.completion, h'.inserted.trans h.inserted⟩
  obtain ⟨row', hrow', hdelta, hle⟩ := h.row row hrow
  obtain ⟨row'', hrow'', hdelta', hle'⟩ := h'.row row' hrow'
  exact ⟨row'', hrow'', hdelta'.trans hdelta, hle.trans hle'⟩

/-- A change of the row that leaves the columns of the gap fill alone keeps them. -/
theorem keepsGap_updateRow (tables : HistoryTables) {change : HistoryRow → HistoryRow}
    (hchange : ∀ row, (change row).deltaMessageId = row.deltaMessageId ∧
      row.deltaRefreshGeneration ≤ (change row).deltaRefreshGeneration) :
    KeepsGap tables (tables.updateRow change) := by
  refine ⟨fun row hrow => ⟨change row, ?_, hchange row⟩, rfl, rfl⟩
  rw [updateRow, hrow, Option.map_some]

/-- A decision about the enrollment alone keeps them. -/
theorem keepsGap_intent (tables : HistoryTables) (enabled : Bool) :
    KeepsGap tables { tables with intent := some enabled } :=
  ⟨fun row hrow => ⟨row, hrow, rfl, le_rfl⟩, rfl, rfl⟩

/-- Enabling keeps the columns of the gap fill. -/
theorem keepsGap_enableHistory (tables : HistoryTables) (now : ℤ) :
    KeepsGap tables (tables.enableHistory now) := by
  refine ⟨fun row hrow => ?_, rfl, rfl⟩
  rw [enableHistory, hrow]
  refine ⟨_, rfl, ?_⟩
  split
  · split_ifs
    · exact ⟨rfl, le_rfl⟩
    · exact ⟨rfl, Nat.le_succ _⟩
  all_goals exact ⟨rfl, le_rfl⟩

/-- Disabling keeps them. -/
theorem keepsGap_disableHistory (tables : HistoryTables) : KeepsGap tables tables.disableHistory :=
  (keepsGap_intent tables false).trans (keepsGap_updateRow _ fun _ => ⟨rfl, le_rfl⟩)

/-- Automatic enrollment keeps them. -/
theorem keepsGap_ensureAutomaticDmEnrollment (tables : HistoryTables) (now : ℤ) :
    KeepsGap tables (tables.ensureAutomaticDmEnrollment now) := by
  unfold ensureAutomaticDmEnrollment
  split
  · exact .refl tables
  · exact (keepsGap_enableHistory tables now).trans
      (keepsGap_updateRow _ fun _ => ⟨rfl, le_rfl⟩)

/-- The decision on an automatic group keeps them. -/
theorem keepsGap_recordAutomaticGroupDecision (tables : HistoryTables) (enabled : Bool)
    (totalMessages : Option ℕ) :
    KeepsGap tables (tables.recordAutomaticGroupDecision enabled totalMessages) := by
  unfold recordAutomaticGroupDecision
  split
  · exact .refl tables
  · dsimp only
    split_ifs
    · refine ⟨fun row hrow => ⟨row, ?_, rfl, le_rfl⟩, rfl, rfl⟩
      rw [hrow]
      rfl
    · split
      · exact keepsGap_intent tables enabled
      next total =>
        refine ⟨fun row hrow => ⟨{ row with totalMessages := some total }, ?_, rfl, le_rfl⟩,
          rfl, rfl⟩
        rw [hrow]

/-- An own-only row keeps them. -/
theorem keepsGap_enrollOwnOnly (tables : HistoryTables) : KeepsGap tables tables.enrollOwnOnly := by
  refine ⟨fun row hrow => ⟨row, ?_, rfl, le_rfl⟩, rfl, rfl⟩
  rw [enrollOwnOnly, hrow]
  rfl

/-- A loss of access keeps them. -/
theorem keepsGap_markAccessLost (tables : HistoryTables) (refreshGeneration : Option ℕ) :
    KeepsGap tables (tables.markAccessLost refreshGeneration) := by
  refine ⟨fun row hrow => ?_, rfl, rfl⟩
  rw [markAccessLost, hrow]
  exact ⟨_, rfl, rfl, le_rfl⟩

theorem keepsGap_restoreAccess (tables : HistoryTables) (totalMessages : Option ℕ) :
    KeepsGap tables (tables.restoreAccess totalMessages) :=
  keepsGap_updateRow _ fun _ => ⟨rfl, le_rfl⟩

/-- A thin dialog that joins the backfill keeps them. -/
theorem keepsGap_restartPartialCoverage (tables : HistoryTables) :
    KeepsGap tables tables.restartPartialCoverage := by
  refine keepsGap_updateRow _ fun row => ?_
  split_ifs <;> exact ⟨rfl, le_rfl⟩

/-- What a committed slice does. -/
structure CommittedGap (tables : HistoryTables) (page : GapPage) (stored : HistoryTables) :
    Prop where
  row : ∃ row row', tables.row = some row ∧ stored.row = some row' ∧ row.cursor = page.cursor ∧
    row.deltaRefreshGeneration = page.generation ∧
    row'.deltaMessageId = some (max row.cursor (page.rows.max?.getD 0)) ∧
    row.deltaRefreshGeneration ≤ row'.deltaRefreshGeneration ∧
    (page.complete = false → row'.deltaRefreshRequestedAt.isSome = true)
  enabled : tables.intent = some true
  current : page.completionGeneration.all (· = tables.completionGeneration) = true
  completion : tables.completionGeneration ≤ stored.completionGeneration
  inserted : stored.inserted = tables.inserted ++ page.rows

/-- A slice that is not stale is committed. -/
theorem committedGap_of_commitDelta {recoveryCurrent : Bool}
    (h : tables.commitDelta page recoveryCurrent now = some stored) :
    CommittedGap tables page stored := by
  unfold commitDelta at h
  split_ifs at h with hstale hdisabled hrecovery
  obtain rfl := Option.some.inj h
  rw [Bool.not_eq_false] at hstale hdisabled
  rw [deltaSelectionIsCurrent, Bool.and_eq_true] at hstale
  obtain ⟨hread, hcurrent⟩ := hstale
  obtain ⟨row, hrow⟩ : ∃ row, tables.row = some row := by
    cases hrow : tables.row with
    | none =>
      rw [hrow] at hread
      cases hread
    | some row => exact ⟨row, rfl⟩
  rw [hrow, Option.any_some, Bool.and_eq_true, decide_eq_true_eq, decide_eq_true_eq] at hread
  have hmoved : ({ tables with inserted := tables.inserted ++ page.rows }.updateRow fun row =>
      { row with deltaMessageId := some (max row.cursor (page.rows.max?.getD 0)) }) =
      { tables with
        inserted := tables.inserted ++ page.rows
        row := some
          { row with deltaMessageId := some (max row.cursor (page.rows.max?.getD 0)) } } := by
    rw [updateRow, hrow]
    rfl
  rw [hmoved]
  unfold persistDeltaContinuation
  by_cases hrequired : continuationRequired page = true
  · rw [if_pos hrequired]
    refine ⟨⟨row, _, hrow, rfl, hread.1, hread.2, ?_, ?_, fun _ => ?_⟩,
      of_decide_eq_true hdisabled, hcurrent, le_rfl, rfl⟩
    · dsimp only
      split_ifs <;> rfl
    · dsimp only
      split_ifs
      · exact Nat.le_succ _
      · exact le_rfl
    · dsimp only
      split_ifs with hnone
      · rfl
      · exact Option.isSome_iff_ne_none.mpr hnone
  · rw [if_neg hrequired]
    unfold stampDeltaCheckpoint
    dsimp only
    rw [if_pos (by exact hdisabled)]
    refine ⟨⟨row, _, hrow, rfl, hread.1, hread.2, rfl, le_rfl, fun hincomplete => ?_⟩,
      of_decide_eq_true hdisabled, hcurrent, Nat.le_succ _, rfl⟩
    rw [continuationRequired, hincomplete] at hrequired
    exact absurd rfl hrequired

/-- A page of the backfill keeps the refresh generation, and gives the cursor its first value at
most. -/
theorem keepsGap_finalizeAutomaticGroupPage (tables : HistoryTables) (page : BackfillPage)
    (eligible : Bool) (maxMessages : ℕ) (now : ℤ) :
    (∃ joined, KeepsGap tables joined ∧ Stored joined page (baselineOf page)
        (tables.finalizeAutomaticGroupPage page eligible maxMessages now).1) ∨
      KeepsGap tables (tables.finalizeAutomaticGroupPage page eligible maxMessages now).1 := by
  have hstore : ∀ joined, KeepsGap tables joined → ∀ stored,
      joined.storeBatchPage page now = some stored →
        ∃ joined', KeepsGap tables joined' ∧ Stored joined' page (baselineOf page) stored :=
    fun joined hkeeps stored hstored => ⟨joined, hkeeps, stored_of_storeBatchPage hstored⟩
  unfold finalizeAutomaticGroupPage
  dsimp only
  split
  · split_ifs
    · have hkeeps := keepsGap_restartPartialCoverage tables
      split
      · next stored hstored => exact Or.inl (hstore _ hkeeps stored hstored)
      · exact Or.inr hkeeps
    · exact Or.inr (.refl tables)
  · split_ifs
    · have hkeeps : KeepsGap tables (tables.recordAutomaticGroupDecision
          (page.totalMessages.any (· ≤ maxMessages)) page.totalMessages).restartPartialCoverage :=
        (keepsGap_recordAutomaticGroupDecision tables _ _).trans
          (keepsGap_restartPartialCoverage _)
      split
      · next stored hstored => exact Or.inl (hstore _ hkeeps stored hstored)
      · exact Or.inr hkeeps
    · exact Or.inr (keepsGap_recordAutomaticGroupDecision tables _ _)
    · exact Or.inr (.refl tables)

end HistoryTables

/-! ## Slices under way -/

namespace GapSlice

/-- What a slice has read of the refresh generation. -/
def generation : GapSlice → Option ℕ
  | .selected _ => none
  | .started _ _ generation => some generation
  | .fetched page _ => some page.generation

/-- A fetched page holds every message behind its cursor up to its last one. -/
def Sound : GapSlice → Prop
  | .fetched page present => (∀ id ∈ present, 0 < id) ∧ (∀ id ∈ page.rows, page.cursor < id) ∧
      ∀ id ∈ present, page.cursor < id → id ∈ page.rows ∨ ∀ row ∈ page.rows, row < id
  | _ => True

end GapSlice

/-- A fetched page is sound. -/
theorem sound_pageAfter {messages : DialogMessages} {generation : ℕ}
    {completionGeneration : Option ℕ} {length : ℕ} {exhausted : Bool} :
    GapSlice.Sound (.fetched
      { cursor, generation, completionGeneration
        rows := (messages.pageAfter cursor length exhausted).1
        complete := (messages.pageAfter cursor length exhausted).2 } messages.ids) := by
  have hmem : ∀ id, id ∈ messages.after cursor ↔ id ∈ messages.ids ∧ cursor < id := by
    intro id
    rw [DialogMessages.after, List.mem_insertionSort, List.mem_filter, decide_eq_true_eq]
  have hsorted : (messages.after cursor).Pairwise (· ≤ ·) :=
    List.pairwise_insertionSort (· ≤ ·) _
  refine ⟨messages.ids_pos, fun id hid => ((hmem id).mp (List.mem_of_mem_take hid)).2, ?_⟩
  intro id hid hbehind
  have hthere := (hmem id).mpr ⟨hid, hbehind⟩
  dsimp only [DialogMessages.pageAfter]
  rw [← List.take_append_drop (min length messageHistoryPageSize) (messages.after cursor)]
    at hthere hsorted
  by_cases htake : id ∈ (messages.after cursor).take (min length messageHistoryPageSize)
  · exact Or.inl htake
  · right
    intro row hrow
    have hdrop := (List.mem_append.mp hthere).resolve_left htake
    refine lt_of_le_of_ne ((List.pairwise_append.mp hsorted).2.2 row hrow id hdrop) ?_
    rintro rfl
    exact htake hrow

namespace HistoryWorld

variable {world next : HistoryWorld} {step : HistoryStep}
variable {index : ℕ} {recoveryCurrent : Bool} {present : List ℤ}

/-! ## What a step does to the gap fill -/

/-- The slices after a step are the old ones, except for sound ones that have read no generation, the
one that a slice had read before, or the stored one. -/
def SlicesFrom (world next : HistoryWorld) : Prop :=
  ∀ slice ∈ next.slices, slice ∈ world.slices ∨ slice.Sound ∧ (slice.generation = none ∨
    (∃ old ∈ world.slices, slice.generation = old.generation) ∨
    ∃ row, world.tables.row = some row ∧ slice.generation = some row.deltaRefreshGeneration)

/-- A step keeps the columns of the gap fill, stores a page of the backfill, or commits a slice. -/
inductive GapChange (world next : HistoryWorld) (step : HistoryStep) : Prop
  | keep (hkeeps : world.tables.KeepsGap next.tables) (hslices : SlicesFrom world next)
  | seed (page : BackfillPage) (joined : HistoryTables) (hstores : Stores step)
      (hkeeps : world.tables.KeepsGap joined)
      (hstored : joined.Stored page (HistoryTables.baselineOf page) next.tables)
      (hslices : next.slices = world.slices)
  | commit (index : ℕ) (page : GapPage) (present : List ℤ) (recoveryCurrent : Bool) (now : ℤ)
      (hstep : step = .commitGap index recoveryCurrent now)
      (hslice : world.slices[index]? = some (.fetched page present))
      (hcommitted : world.tables.CommittedGap page next.tables)
      (hslices : ∀ slice ∈ next.slices, slice ∈ world.slices)

/-- A stored page keeps the columns of the gap fill or gives the cursor its first value. -/
theorem gapChange_store {page : BackfillPage} {scopeCurrent : Bool} {stored : HistoryTables × Bool}
    (hstores : Stores step) (hstored : (∃ joined, world.tables.KeepsGap joined ∧
        joined.Stored page (HistoryTables.baselineOf page) stored.1) ∨
      world.tables.KeepsGap stored.1) :
    GapChange world (world.store index page scopeCurrent stored) step := by
  unfold store
  by_cases hscope : scopeCurrent = true
  · rw [if_pos hscope]
    rcases hstored with ⟨joined, hkeeps, hstored⟩ | hkeeps
    · exact .seed page joined hstores hkeeps hstored rfl
    · exact .keep hkeeps fun slice hslice => Or.inl hslice
  · rw [if_neg hscope]
    exact .keep (.refl _) fun slice hslice => Or.inl hslice

/-- Every step is one of the changes of the gap fill. -/
theorem gapChange_of_perform (h : world.perform step = some next) : GapChange world next step := by
  have hother : ∀ tables : HistoryTables, world.tables.KeepsGap tables →
      GapChange world { world with tables } step :=
    fun tables hkeeps => .keep hkeeps fun slice hslice => Or.inl hslice
  cases step with
  | enable now =>
    obtain rfl := Option.some.inj h
    exact hother _ (HistoryTables.keepsGap_enableHistory _ now)
  | disable =>
    obtain rfl := Option.some.inj h
    exact hother _ (HistoryTables.keepsGap_disableHistory _)
  | enrollDm now =>
    obtain rfl := Option.some.inj h
    exact hother _ (HistoryTables.keepsGap_ensureAutomaticDmEnrollment _ now)
  | enrollOwnOnly =>
    obtain rfl := Option.some.inj h
    exact hother _ (HistoryTables.keepsGap_enrollOwnOnly _)
  | accessLost refreshGeneration =>
    obtain rfl := Option.some.inj h
    exact hother _ (HistoryTables.keepsGap_markAccessLost _ _)
  | restoreAccess totalMessages =>
    obtain rfl := Option.some.inj h
    exact hother _ (HistoryTables.keepsGap_restoreAccess _ _)
  | requestRefresh now =>
    obtain rfl := Option.some.inj h
    exact hother _ (HistoryTables.keepsGap_updateRow _ fun row => ⟨rfl, Nat.le_succ _⟩)
  | fetchBackfill before messages total =>
    dsimp only [perform] at h
    split_ifs at h
    all_goals
      obtain rfl := Option.some.inj h
      exact .keep (.refl _) fun slice hslice => Or.inl hslice
  | storeBackfill index scopeCurrent now =>
    obtain ⟨page, hpage, rfl⟩ := Option.map_eq_some_iff.mp h
    refine gapChange_store (Or.inl ⟨index, scopeCurrent, now, rfl⟩) ?_
    cases hstored : world.tables.storeBatchPage page now with
    | some stored => exact Or.inl ⟨_, .refl _, HistoryTables.stored_of_storeBatchPage hstored⟩
    | none => exact Or.inr (.refl _)
  | storeAutomatic index scopeCurrent eligible maxMessages now =>
    obtain ⟨page, hpage, hsome⟩ := Option.bind_eq_some_iff.mp h
    split_ifs at hsome
    obtain rfl := Option.some.inj hsome
    exact gapChange_store (Or.inr ⟨index, scopeCurrent, eligible, maxMessages, now, rfl⟩)
      (HistoryTables.keepsGap_finalizeAutomaticGroupPage _ _ _ _ _)
  | selectGap recovery =>
    obtain rfl := Option.some.inj h
    refine .keep (.refl _) fun slice hslice => ?_
    rcases List.mem_append.mp hslice with hslice | hslice
    · exact Or.inl hslice
    · obtain rfl := List.mem_singleton.mp hslice
      exact Or.inr ⟨trivial, Or.inl rfl⟩
  | startGap index =>
    dsimp only [perform] at h
    split at h
    next completionGeneration row hslice hrow =>
      split_ifs at h
      · obtain rfl := Option.some.inj h
        refine .keep (.refl _) fun slice hslice => ?_
        rcases List.mem_or_eq_of_mem_set hslice with hslice | rfl
        · exact Or.inl hslice
        · exact Or.inr ⟨trivial, Or.inr (Or.inr ⟨row, hrow, rfl⟩)⟩
      · obtain rfl := Option.some.inj h
        exact .keep (.refl _) fun slice hslice => Or.inl (List.mem_of_mem_eraseIdx hslice)
    next => cases h
  | fetchGap index messages length exhausted =>
    dsimp only [perform] at h
    split at h
    next completionGeneration cursor generation hstarted =>
      obtain rfl := Option.some.inj h
      refine .keep (.refl _) fun slice hslice => ?_
      rcases List.mem_or_eq_of_mem_set hslice with hslice | rfl
      · exact Or.inl hslice
      · exact Or.inr ⟨sound_pageAfter,
          Or.inr (Or.inl ⟨_, List.mem_of_getElem? hstarted, rfl⟩)⟩
    next => cases h
  | commitGap index recoveryCurrent now =>
    dsimp only [perform] at h
    split at h
    next page present hslice =>
      obtain rfl := Option.some.inj h
      split
      next tables hcommitted =>
        exact .commit index page present recoveryCurrent now rfl hslice
          (HistoryTables.committedGap_of_commitDelta hcommitted)
          fun slice hslice => List.mem_of_mem_eraseIdx hslice
      next =>
        exact .keep (.refl _) fun slice hslice => Or.inl (List.mem_of_mem_eraseIdx hslice)
    next => cases h
  | dropGap index =>
    obtain rfl := Option.some.inj h
    exact .keep (.refl _) fun slice hslice => Or.inl (List.mem_of_mem_eraseIdx hslice)
  | crash =>
    obtain rfl := Option.some.inj h
    exact .keep (.refl _) fun slice hslice => absurd hslice List.not_mem_nil

/-- A row stays, and its refresh generation never goes back. -/
def GenerationGrows (world next : HistoryWorld) : Prop :=
  ∀ row, world.tables.row = some row → ∃ row', next.tables.row = some row' ∧
    row.deltaRefreshGeneration ≤ row'.deltaRefreshGeneration

/-- No step takes the refresh generation back. -/
theorem generationGrows_perform (world : HistoryWorld) (step : HistoryStep) (next : HistoryWorld)
    (h : world.perform step = some next) : GenerationGrows world next := by
  intro row hrow
  cases gapChange_of_perform h with
  | keep hkeeps hslices =>
    obtain ⟨row', hrow', -, hle⟩ := hkeeps.row row hrow
    exact ⟨row', hrow', hle⟩
  | seed page joined hstores hkeeps hstored hslices =>
    obtain ⟨row', hrow', -, hle⟩ := hkeeps.row row hrow
    obtain ⟨⟨before, after, hbefore, hafter, -, -, -, -, -, hgeneration⟩, -⟩ := hstored
    obtain rfl := Option.some.inj (hrow'.symm.trans hbefore)
    exact ⟨after, hafter, hgeneration ▸ hle⟩
  | commit index page present recoveryCurrent now hstep hslice hcommitted hslices =>
    obtain ⟨before, after, hbefore, hafter, -, -, -, hle, -⟩ := hcommitted.row
    obtain rfl := Option.some.inj (hrow.symm.trans hbefore)
    exact ⟨after, hafter, hle⟩

/-- The slices are sound and have read no generation that is still to come. -/
structure GapSound (world : HistoryWorld) : Prop where
  sound : ∀ slice ∈ world.slices, slice.Sound
  read : ∀ slice ∈ world.slices, ∀ generation, slice.generation = some generation →
    ∃ row, world.tables.row = some row ∧ generation ≤ row.deltaRefreshGeneration

/-- A step keeps the slices sound. -/
theorem gapSound_perform (world : HistoryWorld) (step : HistoryStep) (next : HistoryWorld)
    (hgap : world.GapSound) (h : world.perform step = some next) : next.GapSound := by
  have hgrows := generationGrows_perform world step next h
  have hfrom : SlicesFrom world next := by
    cases gapChange_of_perform h with
    | keep hkeeps hslices => exact hslices
    | seed page joined hstores hkeeps hstored hslices =>
      exact fun slice hslice => Or.inl (hslices ▸ hslice)
    | commit index page present recoveryCurrent now hstep hslice hcommitted hslices =>
      exact fun slice hslice => Or.inl (hslices slice hslice)
  have hread : ∀ slice ∈ world.slices, ∀ generation, slice.generation = some generation →
      ∃ row, next.tables.row = some row ∧ generation ≤ row.deltaRefreshGeneration := by
    intro slice hslice generation hgeneration
    obtain ⟨row, hrow, hle⟩ := hgap.read slice hslice generation hgeneration
    obtain ⟨row', hrow', hle'⟩ := hgrows row hrow
    exact ⟨row', hrow', hle.trans hle'⟩
  constructor
  · intro slice hslice
    rcases hfrom slice hslice with hold | ⟨hsound, -⟩
    · exact hgap.sound slice hold
    · exact hsound
  · intro slice hslice generation hgeneration
    rcases hfrom slice hslice with hold | ⟨-, hnone | ⟨old, hold, hsame⟩ | ⟨row, hrow, hsame⟩⟩
    · exact hread slice hold generation hgeneration
    · cases hnone.symm.trans hgeneration
    · exact hread old hold generation (hsame.symm.trans hgeneration)
    · obtain rfl := Option.some.inj (hsame.symm.trans hgeneration)
      exact hgrows row hrow

/-! ## The claims of the gap fill -/

/-- The cursor never goes back once it has a value. -/
theorem cursor_mono {row : HistoryRow} (h : world.perform step = some next)
    (hrow : world.tables.row = some row) (hcursor : row.deltaMessageId = some cursor) :
    ∃ row' cursor', next.tables.row = some row' ∧ row'.deltaMessageId = some cursor' ∧
      cursor ≤ cursor' := by
  cases gapChange_of_perform h with
  | keep hkeeps hslices =>
    obtain ⟨row', hrow', hdelta, -⟩ := hkeeps.row row hrow
    exact ⟨row', cursor, hrow', hdelta.trans hcursor, le_rfl⟩
  | seed page joined hstores hkeeps hstored hslices =>
    obtain ⟨row', hrow', hdelta, -⟩ := hkeeps.row row hrow
    obtain ⟨⟨before, after, hbefore, hafter, -, -, -, hbaseline, -⟩, -⟩ := hstored
    obtain rfl := Option.some.inj (hrow'.symm.trans hbefore)
    refine ⟨after, cursor, hafter, ?_, le_rfl⟩
    rw [hbaseline, hdelta, hcursor, HistoryTables.baselineOf]
    split_ifs <;> rfl
  | commit index page present recoveryCurrent now hstep hslice hcommitted hslices =>
    obtain ⟨before, after, hbefore, hafter, -, -, hdelta, -⟩ := hcommitted.row
    obtain rfl := Option.some.inj (hrow.symm.trans hbefore)
    refine ⟨after, _, hafter, hdelta, ?_⟩
    rw [HistoryRow.cursor, hcursor, Option.getD_some]
    exact le_max_left _ _

/-- A step that changes the cursor gives it its first value from the backfill, or commits a slice
that inserts every message up to the new cursor that was present at its request. -/
theorem cursor_moves {row row' : HistoryRow} (hgap : world.GapSound)
    (h : world.perform step = some next) (hrow : world.tables.row = some row)
    (hrow' : next.tables.row = some row') (hmoves : row'.deltaMessageId ≠ row.deltaMessageId) :
    (Stores step ∧ row.deltaMessageId = none) ∨
      ∃ index page present recoveryCurrent now, step = .commitGap index recoveryCurrent now ∧
        world.slices[index]? = some (.fetched page present) ∧ row.cursor = page.cursor ∧
        next.tables.inserted = world.tables.inserted ++ page.rows ∧
        ∀ id ∈ present, row.cursor < id → id ≤ row'.cursor → id ∈ page.rows := by
  cases gapChange_of_perform h with
  | keep hkeeps hslices =>
    obtain ⟨after, hafter, hdelta, -⟩ := hkeeps.row row hrow
    obtain rfl := Option.some.inj (hrow'.symm.trans hafter)
    exact absurd hdelta hmoves
  | seed page joined hstores hkeeps hstored hslices =>
    left
    obtain ⟨between, hbetween, hdelta, -⟩ := hkeeps.row row hrow
    obtain ⟨⟨before, after, hbefore, hafter, -, -, -, hbaseline, -⟩, -⟩ := hstored
    obtain rfl := Option.some.inj (hbetween.symm.trans hbefore)
    obtain rfl := Option.some.inj (hrow'.symm.trans hafter)
    refine ⟨hstores, ?_⟩
    cases hcursor : row.deltaMessageId with
    | none => rfl
    | some cursor =>
      refine absurd ?_ hmoves
      rw [hbaseline, hdelta, hcursor, HistoryTables.baselineOf]
      split_ifs <;> rfl
  | commit index page present recoveryCurrent now hstep hslice hcommitted hslices =>
    right
    obtain ⟨before, after, hbefore, hafter, hread, -, hdelta, -⟩ := hcommitted.row
    obtain rfl := Option.some.inj (hrow.symm.trans hbefore)
    obtain rfl := Option.some.inj (hrow'.symm.trans hafter)
    refine ⟨index, page, present, recoveryCurrent, now, hstep, hslice, hread, hcommitted.inserted,
      ?_⟩
    obtain ⟨hpositive, hbehind, hcovers⟩ := hgap.sound _ (List.mem_of_getElem? hslice)
    intro id hid hlt hle
    rw [HistoryRow.cursor, hdelta, Option.getD_some] at hle
    rcases hcovers id hid (hread ▸ hlt) with hmem | hlast
    · exact hmem
    · exfalso
      have hidPositive := hpositive id hid
      cases hmax : page.rows.max? with
      | none =>
        rw [hmax, Option.getD_none] at hle
        omega
      | some last =>
        have hlastMem := (List.max?_eq_some_iff.mp hmax).1
        have hafterLast := hlast last hlastMem
        rw [hmax, Option.getD_some] at hle
        omega

/-- The slice is not the one that its fences describe any more. -/
def Stale (world : HistoryWorld) (page : GapPage) : Prop :=
  world.tables.fullHistoryEnabled = false ∨
    (∀ row, world.tables.row = some row →
      row.cursor ≠ page.cursor ∨ row.deltaRefreshGeneration ≠ page.generation) ∨
    ∃ completion, page.completionGeneration = some completion ∧
      completion ≠ world.tables.completionGeneration

/-- A stale slice commits nothing. -/
theorem stale_commit (hslice : world.slices[index]? = some (.fetched page present))
    (hstale : world.Stale page)
    (h : world.perform (.commitGap index recoveryCurrent now) = some next) :
    next.tables = world.tables := by
  simp only [perform, hslice] at h
  obtain rfl := Option.some.inj h
  split
  next tables hcommitted =>
    exfalso
    have hdone := HistoryTables.committedGap_of_commitDelta hcommitted
    rcases hstale with hdisabled | hmoved | ⟨completion, hexpected, hne⟩
    · rw [HistoryTables.fullHistoryEnabled, hdone.enabled] at hdisabled
      exact absurd hdisabled (by decide)
    · obtain ⟨row, -, hrow, -, hcursor, hgeneration, -⟩ := hdone.row
      exact (hmoved row hrow).elim (fun hne => hne hcursor) fun hne => hne hgeneration
    · have hcurrent := hdone.current
      rw [hexpected, Option.all_some, decide_eq_true_eq] at hcurrent
      exact hne hcurrent
  next => rfl

/-- A committed slice with an incomplete page leaves a refresh pending. -/
theorem incomplete_commit (hslice : world.slices[index]? = some (.fetched page present))
    (hincomplete : page.complete = false)
    (h : world.perform (.commitGap index recoveryCurrent now) = some next) :
    next.tables = world.tables ∨
      ∃ row, next.tables.row = some row ∧ row.deltaRefreshRequestedAt.isSome = true := by
  simp only [perform, hslice] at h
  obtain rfl := Option.some.inj h
  split
  next tables hcommitted =>
    right
    obtain ⟨-, row, -, hrow, -, -, -, -, hpending⟩ :=
      (HistoryTables.committedGap_of_commitDelta hcommitted).row
    exact ⟨row, hrow, hpending hincomplete⟩
  next => exact Or.inl rfl

/-- The steps that finish the backfill of a dialog and select a slice of the gap fill. -/
def selectedSteps : List HistoryStep :=
  sampleSteps ++ [.storeBackfill 0 true 3, .selectGap false]

end HistoryWorld

end McpTelegram
