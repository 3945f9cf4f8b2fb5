import McpTelegram.History.World

/-!
# The full-history backfill is complete

The cursor of the backfill is moved by accepted pages only, apart from resets to zero.  An accepted
page was requested with the stored cursor, so no message that is there at every request falls between
two pages of a pass; and the row gets its status `synced` from the page that found nothing older.
-/

namespace McpTelegram

open Foundations

/-! ## What the transactions do to the cursor -/

namespace HistoryTables

variable {tables stored : HistoryTables} {page : BackfillPage}
variable {row row' : HistoryRow} {now : ℤ}

/-- The row says that the history is complete. -/
def Finished (tables : HistoryTables) : Prop :=
  ∃ row, tables.row = some row ∧ row.status = .synced

/-- Before the first accepted page the cursor is zero. -/
structure Fresh (tables : HistoryTables) : Prop where
  undecided : tables.intent = none → tables.progress = 0
  thin : ∀ row, tables.row = some row → row.status = .ownOnly ∨ row.status = .fragment →
    row.progress = 0
  nonneg : 0 ≤ tables.progress

/-- What enrollment and access do to the backfill: they keep its cursor or set it to zero, and they
finish nothing. -/
structure Carries (tables stored : HistoryTables) : Prop where
  progress : stored.progress = tables.progress ∨ stored.progress = 0 ∧ ¬ stored.Finished
  finished : stored.Finished → tables.Finished
  fresh : tables.Fresh → stored.Fresh

theorem Carries.refl (tables : HistoryTables) : Carries tables tables :=
  ⟨Or.inl rfl, id, id⟩

/-- Carrying on composes. -/
theorem Carries.trans {between : HistoryTables} (h : Carries tables between)
    (h' : Carries between stored) : Carries tables stored := by
  refine ⟨?_, h.finished ∘ h'.finished, h'.fresh ∘ h.fresh⟩
  rcases h'.progress with hsame | hreset
  · rcases h.progress with hsame' | ⟨hzero, hunfinished⟩
    · exact Or.inl (hsame.trans hsame')
    · exact Or.inr ⟨hsame.trans hzero, fun hfinished => hunfinished (h'.finished hfinished)⟩
  · exact Or.inr hreset

/-- A change of the row that keeps the cursor and neither finishes nor thins the dialog. -/
theorem carries_of_row (hrow : tables.row = some row) (hrow' : stored.row = some row')
    (hintent : stored.intent = none → tables.intent = none)
    (hprogress : row'.progress = row.progress ∨ row'.progress = 0 ∧ row'.status ≠ .synced)
    (hfinished : row'.status = .synced → row.status = .synced)
    (hthin : row'.status = .ownOnly ∨ row'.status = .fragment →
      row.status = .ownOnly ∨ row.status = .fragment) : Carries tables stored := by
  have hstored : stored.progress = row'.progress := by rw [HistoryTables.progress, hrow']; rfl
  have htables : tables.progress = row.progress := by rw [HistoryTables.progress, hrow]; rfl
  have hzero : row.progress = 0 → row'.progress = 0 := by
    intro hzero
    rcases hprogress with hsame | hreset
    · exact hsame.trans hzero
    · exact hreset.1
  refine ⟨?_, ?_, fun hfresh => ⟨?_, ?_, ?_⟩⟩
  · rw [hstored, htables]
    refine hprogress.imp id fun hreset => ⟨hreset.1, ?_⟩
    rintro ⟨row'', hrow'', hsynced⟩
    obtain rfl := Option.some.inj (hrow'.symm.trans hrow'')
    exact hreset.2 hsynced
  · rintro ⟨row'', hrow'', hsynced⟩
    obtain rfl := Option.some.inj (hrow'.symm.trans hrow'')
    exact ⟨row, hrow, hfinished hsynced⟩
  · intro hnone
    rw [hstored]
    exact hzero (htables ▸ hfresh.undecided (hintent hnone))
  · intro row'' hrow'' hstatus
    obtain rfl := Option.some.inj (hrow'.symm.trans hrow'')
    exact hzero (hfresh.thin row hrow (hthin hstatus))
  · rw [hstored]
    rcases hprogress with hsame | hreset
    · rw [hsame, ← htables]
      exact hfresh.nonneg
    · exact hreset.1.ge

/-- A new row starts at zero and unfinished. -/
theorem carries_of_new (hrow : tables.row = none) (hrow' : stored.row = some row')
    (hprogress : row'.progress = 0) (hunfinished : row'.status ≠ .synced) :
    Carries tables stored := by
  have hstored : stored.progress = row'.progress := by rw [HistoryTables.progress, hrow']; rfl
  have htables : tables.progress = 0 := by rw [HistoryTables.progress, hrow]; rfl
  refine ⟨Or.inl ?_, ?_, fun _ => ⟨fun _ => ?_, ?_, ?_⟩⟩
  · rw [hstored, htables, hprogress]
  · rintro ⟨row'', hrow'', hsynced⟩
    obtain rfl := Option.some.inj (hrow'.symm.trans hrow'')
    exact absurd hsynced hunfinished
  · exact hstored.trans hprogress
  · intro row'' hrow'' _
    obtain rfl := Option.some.inj (hrow'.symm.trans hrow'')
    exact hprogress
  · exact (hstored.trans hprogress).ge

/-- Without a row nothing but the enrollment can change. -/
theorem carries_of_none (hrow : tables.row = none) (hrow' : stored.row = none) :
    Carries tables stored := by
  have hstored : stored.progress = 0 := by rw [HistoryTables.progress, hrow']; rfl
  have htables : tables.progress = 0 := by rw [HistoryTables.progress, hrow]; rfl
  refine ⟨Or.inl (hstored.trans htables.symm), ?_, fun _ => ⟨fun _ => hstored, ?_, hstored.ge⟩⟩
  · rintro ⟨row, hsome, -⟩
    cases hsome.symm.trans hrow'
  · intro row hsome
    cases hsome.symm.trans hrow'

/-- Enabling carries the cursor on, or resets it. -/
theorem carries_enableHistory (tables : HistoryTables) (now : ℤ) :
    Carries tables (tables.enableHistory now) := by
  cases hrow : tables.row with
  | none =>
    have hrow' : (tables.enableHistory now).row = some { status := .notSynced } := by
      rw [enableHistory, hrow]
      rfl
    exact carries_of_new hrow hrow' rfl (by decide)
  | some row =>
    refine carries_of_row hrow (by rw [enableHistory, hrow]; rfl) (fun h => by cases h) ?_ ?_ ?_
    all_goals
      split <;> (try split_ifs) <;> simp_all [HistoryRow.progress, HistoryRow.requestDeltaRefresh]

/-- A change of the row in place that keeps the cursor and the status, or moves the status between
those that neither finish nor thin. -/
theorem carries_updateRow (tables : HistoryTables) {change : HistoryRow → HistoryRow}
    (hprogress : ∀ row, (change row).progress = row.progress ∨
      (change row).progress = 0 ∧ (change row).status ≠ .synced)
    (hstatus : ∀ row, (change row).status = row.status ∨ (change row).status = .notSynced ∨
      (change row).status = .syncing ∨ (change row).status = .accessLost) :
    Carries tables (tables.updateRow change) := by
  cases hrow : tables.row with
  | none => exact carries_of_none hrow (by rw [updateRow, hrow]; rfl)
  | some row =>
    refine carries_of_row hrow (by rw [updateRow, hrow]; rfl) id (hprogress row) ?_ ?_
    · intro hsynced
      rcases hstatus row with hsame | hother | hother | hother
      · exact hsame ▸ hsynced
      all_goals cases hother.symm.trans hsynced
    · intro hthin
      rcases hstatus row with hsame | hother | hother | hother
      · rw [hsame] at hthin
        exact hthin
      all_goals
        rw [hother] at hthin
        rcases hthin with hthin | hthin <;> cases hthin

/-- A decision about the enrollment alone. -/
theorem carries_intent (tables : HistoryTables) (enabled : Bool) :
    Carries tables { tables with intent := some enabled } := by
  cases hrow : tables.row with
  | none => exact carries_of_none hrow rfl
  | some row => exact carries_of_row hrow rfl (fun h => by cases h) (Or.inl rfl) id id

/-- Disabling carries the cursor on. -/
theorem carries_disableHistory (tables : HistoryTables) : Carries tables tables.disableHistory := by
  refine (carries_intent tables false).trans (carries_updateRow _ (fun row => Or.inl rfl) ?_)
  intro row
  dsimp only
  split_ifs
  · exact Or.inr (Or.inl rfl)
  · exact Or.inl rfl

/-- Automatic enrollment carries the cursor on, or resets it. -/
theorem carries_ensureAutomaticDmEnrollment (tables : HistoryTables) (now : ℤ) :
    Carries tables (tables.ensureAutomaticDmEnrollment now) := by
  unfold ensureAutomaticDmEnrollment
  split
  · exact .refl tables
  · refine (carries_enableHistory tables now).trans
      (carries_updateRow _ (fun row => Or.inl rfl) fun row => ?_)
    dsimp only
    split_ifs
    · exact Or.inr (Or.inr (Or.inl rfl))
    · exact Or.inl rfl

/-- A new row of its own, or the row that is there. -/
theorem carries_getD (tables : HistoryTables) {intent : Option Bool}
    (hintent : intent = none → tables.intent = none) (hprogress : row'.progress = 0)
    (hunfinished : row'.status ≠ .synced) :
    Carries tables { tables with intent, row := some (tables.row.getD row') } := by
  cases hrow : tables.row with
  | none => exact carries_of_new hrow rfl hprogress hunfinished
  | some row => exact carries_of_row hrow rfl hintent (Or.inl rfl) id id

/-- The decision on an automatic group carries the cursor on. -/
theorem carries_recordAutomaticGroupDecision (tables : HistoryTables) (enabled : Bool)
    (totalMessages : Option ℕ) :
    Carries tables (tables.recordAutomaticGroupDecision enabled totalMessages) := by
  unfold recordAutomaticGroupDecision
  split
  · exact .refl tables
  · dsimp only
    split_ifs
    · exact carries_getD tables (fun h => by cases h) rfl (by decide)
    · split
      · exact carries_intent tables enabled
      next total =>
        cases hrow : tables.row with
        | none => exact carries_of_new hrow rfl rfl (fun h => by cases h)
        | some row =>
          exact carries_of_row hrow rfl (fun h => by cases h) (Or.inl rfl) id id

theorem carries_enrollOwnOnly (tables : HistoryTables) : Carries tables tables.enrollOwnOnly :=
  carries_getD tables id rfl (by decide)

/-- A loss of access carries the cursor on. -/
theorem carries_markAccessLost (tables : HistoryTables) (refreshGeneration : Option ℕ) :
    Carries tables (tables.markAccessLost refreshGeneration) := by
  cases hrow : tables.row with
  | none =>
    exact carries_of_new hrow (by rw [markAccessLost, hrow]) rfl (by decide)
  | some row =>
    have hlost : ∃ row', (tables.markAccessLost refreshGeneration).row = some row' ∧
        row'.progress = row.progress ∧ row'.status = .accessLost := by
      rw [markAccessLost, hrow]
      exact ⟨_, rfl, rfl, rfl⟩
    obtain ⟨row', hrow', hprogress, hstatus⟩ := hlost
    refine carries_of_row hrow hrow' id (Or.inl hprogress) ?_ ?_
    · intro hsynced
      cases hstatus.symm.trans hsynced
    · rw [hstatus]
      rintro (hthin | hthin) <;> cases hthin

/-- A restored access carries the cursor on. -/
theorem carries_restoreAccess (tables : HistoryTables) (totalMessages : Option ℕ) :
    Carries tables (tables.restoreAccess totalMessages) := by
  refine carries_updateRow _ (fun row => Or.inl rfl) fun row => ?_
  dsimp only
  split_ifs
  · exact Or.inr (Or.inr (Or.inl rfl))
  · exact Or.inr (Or.inl rfl)

/-- A thin dialog that joins the backfill starts at zero. -/
theorem carries_restartPartialCoverage (tables : HistoryTables) :
    Carries tables tables.restartPartialCoverage := by
  refine carries_updateRow _ (fun row => ?_) fun row => ?_
  · split_ifs
    · exact Or.inr ⟨rfl, fun h => by cases h⟩
    · exact Or.inl rfl
  · split_ifs
    · exact Or.inr (Or.inr (Or.inl rfl))
    · exact Or.inl rfl

/-- A stamp of the gap fill leaves the backfill alone. -/
theorem carries_persistDeltaContinuation (tables : HistoryTables) (required : Bool) (now : ℤ)
    (generation : ℕ) : Carries tables (tables.persistDeltaContinuation required now generation) := by
  unfold persistDeltaContinuation
  split_ifs
  · refine carries_updateRow _ (fun row => ?_) fun row => ?_
    all_goals split_ifs <;> exact Or.inl rfl
  · unfold stampDeltaCheckpoint
    split
    · exact .refl tables
    next row hrow =>
      by_cases henabled : tables.fullHistoryEnabled = true
      · rw [if_pos henabled]
        exact carries_of_row hrow rfl id (Or.inl rfl) id id
      · rw [if_neg henabled]
        exact .refl tables

/-- A commit of the gap fill leaves the backfill alone. -/
theorem carries_commitDelta {gap : GapPage} {recoveryCurrent : Bool}
    (h : tables.commitDelta gap recoveryCurrent now = some stored) : Carries tables stored := by
  unfold commitDelta at h
  split_ifs at h
  obtain rfl := Option.some.inj h
  have hinserted : Carries tables { tables with inserted := tables.inserted ++ gap.rows } := by
    cases hrow : tables.row with
    | none => exact carries_of_none hrow rfl
    | some row => exact carries_of_row hrow rfl id (Or.inl rfl) id id
  have hmoved := @carries_updateRow { tables with inserted := tables.inserted ++ gap.rows }
    (fun row => { row with deltaMessageId := some (max row.cursor (gap.rows.max?.getD 0)) })
    (fun row => Or.inl rfl) fun row => Or.inl rfl
  exact (hinserted.trans hmoved).trans (carries_persistDeltaContinuation _ _ _ _)

/-! ## What an accepted page does -/

/-- The effect of an accepted page of the backfill, up to what it does to the baseline of the gap
fill. -/
structure Stored (tables : HistoryTables) (page : BackfillPage) (baseline : Option ℤ → Option ℤ)
    (stored : HistoryTables) : Prop where
  row : ∃ row row', tables.row = some row ∧ stored.row = some row' ∧ row.progress = page.before ∧
    row'.progress = page.next.getD page.before ∧
    row'.status = (if page.next.isSome then .syncing else .synced) ∧
    row'.deltaMessageId = baseline row.deltaMessageId ∧
    row'.deltaRefreshRequestedAt = row.deltaRefreshRequestedAt ∧
    row'.deltaRefreshGeneration = row.deltaRefreshGeneration
  intent : tables.intent = some true ∧ stored.intent = some true
  completion : stored.completionGeneration = tables.completionGeneration
  inserted : stored.inserted = tables.inserted ++ if page.next.isSome then page.ids else []

/-- The baseline that a page gives to the gap fill. -/
def baselineOf (page : BackfillPage) (delta : Option ℤ) : Option ℤ :=
  if page.before = 0 then delta.or (some (page.ids.max?.getD 0)) else delta

/-- The bookkeeping of topics leaves the cursors alone. -/
theorem beginTopicAttributionPass_same (before : ℤ) (row : HistoryRow) :
    (beginTopicAttributionPass before row).syncProgress = row.syncProgress ∧
      (beginTopicAttributionPass before row).status = row.status ∧
      (beginTopicAttributionPass before row).deltaMessageId = row.deltaMessageId ∧
      (beginTopicAttributionPass before row).deltaRefreshRequestedAt =
        row.deltaRefreshRequestedAt ∧
      (beginTopicAttributionPass before row).deltaRefreshGeneration =
        row.deltaRefreshGeneration := by
  unfold beginTopicAttributionPass
  split_ifs <;> exact ⟨rfl, rfl, rfl, rfl, rfl⟩

/-- The bookkeeping of topics leaves the cursors alone. -/
theorem completeTopicAttributionPass_same (row : HistoryRow) :
    (completeTopicAttributionPass row).syncProgress = row.syncProgress ∧
      (completeTopicAttributionPass row).status = row.status ∧
      (completeTopicAttributionPass row).deltaMessageId = row.deltaMessageId ∧
      (completeTopicAttributionPass row).deltaRefreshRequestedAt = row.deltaRefreshRequestedAt ∧
      (completeTopicAttributionPass row).deltaRefreshGeneration = row.deltaRefreshGeneration := by
  unfold completeTopicAttributionPass
  split_ifs <;> exact ⟨rfl, rfl, rfl, rfl, rfl⟩

/-- The baseline keeps the cursor of the backfill. -/
theorem Stored.seed (h : Stored tables page id stored) :
    Stored tables page (baselineOf page) (seedDeltaBaseline page stored) := by
  obtain ⟨⟨row, row', hrow, hrow', hbefore, hprogress, hstatus, hdelta, hrefresh⟩, hintent,
    hcompletion, hinserted⟩ := h
  by_cases hfirst : page.before = 0
  · have hseeded : (seedDeltaBaseline page stored).row =
        some { row' with deltaMessageId := row'.deltaMessageId.or (some (page.ids.max?.getD 0)) } := by
      rw [seedDeltaBaseline, if_pos hfirst, updateRow, hrow']
      rfl
    refine ⟨⟨row, _, hrow, hseeded, hbefore, hprogress, hstatus, ?_, hrefresh⟩, ?_, ?_, ?_⟩
    · rw [baselineOf, if_pos hfirst, hdelta]
      rfl
    all_goals rw [seedDeltaBaseline, if_pos hfirst]
    · exact hintent
    · exact hcompletion
    · exact hinserted
  · rw [seedDeltaBaseline, if_neg hfirst]
    refine ⟨⟨row, row', hrow, hrow', hbefore, hprogress, hstatus, ?_, hrefresh⟩, hintent,
      hcompletion, hinserted⟩
    rw [baselineOf, if_neg hfirst]
    exact hdelta

/-- The conditions of an accepted page. -/
theorem acceptsPage_spec {before : ℤ} (h : tables.acceptsPage before row = true) :
    row.progress = before ∧ tables.intent = some true := by
  simp only [acceptsPage, Bool.and_eq_true, decide_eq_true_eq, fullHistoryEnabled] at h
  exact ⟨h.1.2, h.2⟩

/-- An accepted page has its effect. -/
theorem stored_of_storeBatchPage (h : tables.storeBatchPage page now = some stored) :
    Stored tables page (baselineOf page) stored := by
  unfold storeBatchPage at h
  split at h
  next hnext =>
    obtain ⟨between, hbetween, rfl⟩ := Option.map_eq_some_iff.mp h
    refine Stored.seed ?_
    unfold storeTerminalPage at hbetween
    split at hbetween
    next => cases hbetween
    next row hrow =>
      split_ifs at hbetween with haccepts
      obtain rfl := Option.some.inj hbetween
      obtain ⟨hbefore, hintent⟩ := acceptsPage_spec haccepts
      refine ⟨⟨row, _, hrow, rfl, hbefore, ?_, ?_, ?_, ?_, ?_⟩, ⟨hintent, hintent⟩, rfl, ?_⟩
      · rw [HistoryRow.progress, (completeTopicAttributionPass_same _).1,
          (beginTopicAttributionPass_same _ _).1, hnext]
        rfl
      · rw [(completeTopicAttributionPass_same _).2.1, (beginTopicAttributionPass_same _ _).2.1,
          hnext]
        rfl
      · rw [(completeTopicAttributionPass_same _).2.2.1, (beginTopicAttributionPass_same _ _).2.2.1]
        rfl
      · rw [(completeTopicAttributionPass_same _).2.2.2.1,
          (beginTopicAttributionPass_same _ _).2.2.2.1]
      · rw [(completeTopicAttributionPass_same _).2.2.2.2,
          (beginTopicAttributionPass_same _ _).2.2.2.2]
      · rw [hnext, if_neg (by decide), List.append_nil]
  next newProgress hnext =>
    obtain ⟨between, hbetween, rfl⟩ := Option.map_eq_some_iff.mp h
    refine Stored.seed ?_
    unfold storeContinuationPage at hbetween
    split at hbetween
    next => cases hbetween
    next row hrow =>
      split_ifs at hbetween with haccepts
      obtain rfl := Option.some.inj hbetween
      obtain ⟨hbefore, hintent⟩ := acceptsPage_spec haccepts
      refine ⟨⟨row, _, hrow, rfl, hbefore, ?_, ?_, ?_, ?_, ?_⟩, ⟨hintent, hintent⟩, rfl, ?_⟩
      · rw [HistoryRow.progress, (beginTopicAttributionPass_same _ _).1, hnext]
        rfl
      · rw [(beginTopicAttributionPass_same _ _).2.1, hnext]
        rfl
      · rw [(beginTopicAttributionPass_same _ _).2.2.1]
        rfl
      · rw [(beginTopicAttributionPass_same _ _).2.2.2.1]
      · rw [(beginTopicAttributionPass_same _ _).2.2.2.2]
      · rw [hnext]
        rfl

/-- The decision on an automatic group keeps the cursor. -/
theorem progress_recordAutomaticGroupDecision (tables : HistoryTables) (enabled : Bool)
    (totalMessages : Option ℕ) :
    (tables.recordAutomaticGroupDecision enabled totalMessages).progress = tables.progress := by
  unfold recordAutomaticGroupDecision progress
  split
  · rfl
  · dsimp only
    split_ifs
    · cases tables.row <;> rfl
    · split
      · rfl
      · cases tables.row <;> rfl

/-- Before the first accepted page a restart of a thin dialog keeps the cursor. -/
theorem progress_restartPartialCoverage (hfresh : tables.Fresh) :
    tables.restartPartialCoverage.progress = tables.progress := by
  unfold restartPartialCoverage updateRow progress
  cases hrow : tables.row with
  | none => rfl
  | some row =>
    dsimp only [Option.map_some, Option.elim_some]
    split_ifs with hthin
    · exact (hfresh.thin row hrow hthin).symm
    · rfl

/-- The two ways in which the first page of an automatic group ends. -/
theorem finalizeAutomaticGroupPage_cases (tables : HistoryTables) (page : BackfillPage)
    (eligible : Bool) (maxMessages : ℕ) (now : ℤ) :
    (∃ joined, Carries tables joined ∧ joined.inserted = tables.inserted ∧
      (tables.Fresh → joined.progress = tables.progress) ∧
      (tables.finalizeAutomaticGroupPage page eligible maxMessages now).2 = true ∧
      Stored joined page (baselineOf page)
        (tables.finalizeAutomaticGroupPage page eligible maxMessages now).1) ∨
    (tables.finalizeAutomaticGroupPage page eligible maxMessages now).2 = false ∧
      Carries tables (tables.finalizeAutomaticGroupPage page eligible maxMessages now).1 ∧
      (tables.finalizeAutomaticGroupPage page eligible maxMessages now).1.inserted =
        tables.inserted := by
  unfold finalizeAutomaticGroupPage
  dsimp only
  split
  next enabled hintent =>
    split_ifs
    · have hcarries := carries_restartPartialCoverage tables
      cases hstored : tables.restartPartialCoverage.storeBatchPage page now with
      | some stored =>
        exact Or.inl ⟨_, hcarries, rfl, progress_restartPartialCoverage, rfl,
          stored_of_storeBatchPage hstored⟩
      | none => exact Or.inr ⟨rfl, hcarries, rfl⟩
    · exact Or.inr ⟨rfl, .refl tables, rfl⟩
  next hintent =>
    have hrecorded : ∀ enabled, (tables.recordAutomaticGroupDecision enabled
        page.totalMessages).inserted = tables.inserted := by
      intro enabled
      unfold recordAutomaticGroupDecision
      split
      · rfl
      · dsimp only
        split_ifs
        · rfl
        · split <;> rfl
    split_ifs with heligible haccepted
    · rw [haccepted]
      have hdecided := carries_recordAutomaticGroupDecision tables true page.totalMessages
      have hcarries := hdecided.trans (carries_restartPartialCoverage _)
      cases hstored : (tables.recordAutomaticGroupDecision true
          page.totalMessages).restartPartialCoverage.storeBatchPage page now with
      | some stored =>
        refine Or.inl ⟨_, hcarries, hrecorded true, fun hfresh => ?_, rfl,
          stored_of_storeBatchPage hstored⟩
        rw [progress_restartPartialCoverage (hdecided.fresh hfresh),
          progress_recordAutomaticGroupDecision]
      | none => exact Or.inr ⟨rfl, hcarries, hrecorded true⟩
    · exact Or.inr ⟨rfl, carries_recordAutomaticGroupDecision _ _ _, hrecorded _⟩
    · exact Or.inr ⟨rfl, .refl tables, rfl⟩

/-- A page that meets the conditions is accepted. -/
theorem storeBatchPage_ne_none (hrow : tables.row = some row)
    (haccepts : tables.acceptsPage page.before row = true) :
    tables.storeBatchPage page now ≠ none := by
  unfold storeBatchPage storeTerminalPage storeContinuationPage
  rw [hrow]
  dsimp only
  rw [haccepts]
  split <;> exact fun h => by cases h

/-- Before the first accepted page a dialog that joins the backfill is ready for it. -/
theorem storeBatchPage_restart (hrow : tables.row = some row) (hintent : tables.intent = some true)
    (hprogress : row.progress = 0) (hstatus : row.status ≠ .accessLost ∧ row.status ≠ .synced)
    (hfirst : page.before = 0) : tables.restartPartialCoverage.storeBatchPage page now ≠ none := by
  unfold restartPartialCoverage
  by_cases hthin : row.status = .ownOnly ∨ row.status = .fragment
  · have hrow' : (tables.updateRow fun row =>
        if row.status = .ownOnly ∨ row.status = .fragment then
          { row with status := .syncing, syncProgress := some 0 }
        else row).row = some { row with status := .syncing, syncProgress := some 0 } := by
      rw [updateRow, hrow, Option.map_some, if_pos hthin]
    refine storeBatchPage_ne_none hrow' ?_
    rw [acceptsPage, hfirst]
    simp [HistoryRow.progress, fullHistoryEnabled, updateRow, hintent]
  · have hrow' : (tables.updateRow fun row =>
        if row.status = .ownOnly ∨ row.status = .fragment then
          { row with status := .syncing, syncProgress := some 0 }
        else row).row = some row := by
      rw [updateRow, hrow, Option.map_some, if_neg hthin]
    refine storeBatchPage_ne_none hrow' ?_
    rw [not_or] at hthin
    rw [acceptsPage, hfirst, hprogress]
    cases hcase : row.status <;> simp_all [fullHistoryEnabled, updateRow]

/-- A first page of an automatic group that is not accepted changes nothing, or the group is
declined. -/
theorem finalizeAutomaticGroupPage_rejected (hfresh : tables.Fresh) {eligible : Bool}
    {maxMessages : ℕ} (hfirst : page.before = 0)
    (hrejected : (tables.finalizeAutomaticGroupPage page eligible maxMessages now).2 = false) :
    (tables.finalizeAutomaticGroupPage page eligible maxMessages now).1 = tables ∨
      tables.intent = none ∧ page.totalMessages.any (· ≤ maxMessages) = false ∧
        (tables.finalizeAutomaticGroupPage page eligible maxMessages now).1 =
          tables.recordAutomaticGroupDecision false page.totalMessages := by
  unfold finalizeAutomaticGroupPage at hrejected ⊢
  dsimp only at hrejected ⊢
  cases hintent : tables.intent with
  | some enabled =>
    rw [hintent] at hrejected
    dsimp only at hrejected ⊢
    left
    by_cases henabled : enabled = true
    · rw [if_pos henabled] at hrejected ⊢
      cases hstored : tables.restartPartialCoverage.storeBatchPage page now with
      | some stored =>
        rw [hstored] at hrejected
        cases hrejected
      | none =>
        dsimp only
        unfold restartPartialCoverage updateRow
        cases hrow : tables.row with
        | none =>
          rw [Option.map_none, ← hrow]
        | some row =>
          have hthin : ¬ (row.status = .ownOnly ∨ row.status = .fragment) := by
            intro hthin
            refine storeBatchPage_restart hrow (hintent.trans (congrArg some henabled))
              (hfresh.thin row hrow hthin) ?_ hfirst hstored
            rcases hthin with hthin | hthin <;> rw [hthin] <;> decide
          rw [Option.map_some, if_neg hthin, ← hrow]
    · rw [if_neg henabled]
  | none =>
    rw [hintent] at hrejected
    dsimp only at hrejected ⊢
    split_ifs at hrejected ⊢ with heligible haccepted
    · exfalso
      rw [haccepted] at hrejected
      rw [Bool.and_eq_true] at heligible
      have hdecided : ∃ row, (tables.recordAutomaticGroupDecision true page.totalMessages).row =
          some row ∧ row.progress = 0 ∧ row.status ≠ .accessLost ∧ row.status ≠ .synced := by
        have hzero := hfresh.undecided hintent
        unfold recordAutomaticGroupDecision
        rw [hintent]
        dsimp only
        rw [if_pos rfl]
        cases hrow : tables.row with
        | none => exact ⟨_, rfl, rfl, by decide, by decide⟩
        | some row =>
          rw [HistoryTables.progress, hrow] at hzero
          have hstatus := heligible.2
          rw [hrow, Option.all_some, Bool.and_eq_true, decide_eq_true_eq, decide_eq_true_eq]
            at hstatus
          exact ⟨row, rfl, hzero, hstatus⟩
      obtain ⟨row, hrow, hprogress, hstatus⟩ := hdecided
      have hintent' : (tables.recordAutomaticGroupDecision true page.totalMessages).intent =
          some true := by
        unfold recordAutomaticGroupDecision
        rw [hintent]
        rfl
      have hne : (tables.recordAutomaticGroupDecision true
          page.totalMessages).restartPartialCoverage.storeBatchPage page now ≠ none :=
        storeBatchPage_restart hrow hintent' hprogress hstatus hfirst
      cases hstored : (tables.recordAutomaticGroupDecision true
          page.totalMessages).restartPartialCoverage.storeBatchPage page now with
      | some stored =>
        rw [hstored] at hrejected
        cases hrejected
      | none => exact hne hstored
    · right
      have hdeclined := Bool.eq_false_iff.mpr haccepted
      rw [hdeclined]
      exact ⟨rfl, rfl, rfl⟩
    · exact Or.inl rfl

end HistoryTables

/-! ## Fetched pages -/

/-- What a fetched page says about the messages that are there at every request. -/
structure PageSound (constant : List ℤ) (page : BackfillPage) : Prop where
  next : ∀ cursor, page.next = some cursor → 0 < cursor ∧ (page.before = 0 ∨ cursor < page.before)
  ids : page.next = none → page.ids = []
  covers : ∀ id ∈ constant, page.before = 0 ∨ id < page.before →
    id ∈ page.ids ∨ ∃ cursor, page.next = some cursor ∧ id < cursor

/-- A fetched page is sound. -/
theorem pageSound_pageBefore {constant : List ℤ} {messages : DialogMessages} {before : ℤ}
    {total : Option ℕ} (hconstant : ∀ id ∈ constant, id ∈ messages.ids) :
    PageSound constant (messages.pageBefore before total) := by
  have hmem : ∀ id, id ∈ (messages.ids.filter fun id => before = 0 ∨ id < before).insertionSort
      (· ≥ ·) ↔ id ∈ messages.ids ∧ (before = 0 ∨ id < before) := by
    intro id
    rw [List.mem_insertionSort, List.mem_filter, decide_eq_true_eq]
  have hsorted : ((messages.ids.filter fun id => before = 0 ∨ id < before).insertionSort
      (· ≥ ·)).Pairwise (· ≥ ·) := List.pairwise_insertionSort (· ≥ ·) _
  unfold DialogMessages.pageBefore
  dsimp only
  generalize (messages.ids.filter fun id => before = 0 ∨ id < before).insertionSort (· ≥ ·) =
    sorted at hmem hsorted
  constructor
  · intro cursor hcursor
    have hlast := (hmem cursor).mp (List.mem_of_mem_take (List.mem_of_getLast? hcursor))
    exact ⟨messages.ids_pos cursor hlast.1, hlast.2⟩
  · intro hnone
    exact List.getLast?_eq_none_iff.mp hnone
  · intro id hid hbefore
    have hthere := (hmem id).mpr ⟨hconstant id hid, hbefore⟩
    rw [← List.take_append_drop messageHistoryPageSize sorted] at hthere hsorted
    rcases List.mem_append.mp hthere with htake | hdrop
    · exact Or.inl htake
    · have hne : sorted.take messageHistoryPageSize ≠ [] := by
        intro hnil
        rcases List.take_eq_nil_iff.mp hnil with hzero | hempty
        · exact absurd hzero (by decide)
        · rw [hempty, List.drop_nil] at hdrop
          exact absurd hdrop List.not_mem_nil
      have hlast := List.getLast_mem hne
      have hle := (List.pairwise_append.mp hsorted).2.2 _ hlast id hdrop
      rcases lt_or_eq_of_le hle with hlt | heq
      · exact Or.inr ⟨_, List.getLast?_eq_some_getLast hne, hlt⟩
      · rw [← heq] at hlast
        exact Or.inl hlast

namespace HistoryWorld

variable {page : BackfillPage}

/-- The pages of the last pass are accepted pages. -/
theorem mem_of_mem_lastPass {accepted : List BackfillPage} (h : page ∈ lastPass accepted) :
    page ∈ accepted := by
  induction accepted using List.reverseRecOn with
  | nil => exact h
  | append_singleton accepted last ih =>
    rw [lastPass, List.foldl_append] at h
    dsimp only [List.foldl_cons, List.foldl_nil] at h
    split_ifs at h
    · exact List.mem_append_right _ h
    · rcases List.mem_append.mp h with h | h
      · exact List.mem_append_left _ (ih h)
      · exact List.mem_append_right _ h

/-- An accepted page begins a pass or goes on with the last one. -/
theorem lastPass_append (accepted : List BackfillPage) (page : BackfillPage) :
    lastPass (accepted ++ [page]) =
      if page.before = 0 then [page] else lastPass accepted ++ [page] := by
  rw [lastPass, List.foldl_append]
  rfl

variable {world next : HistoryWorld} {step : HistoryStep} {constant : List ℤ}

/-! ## What a step does to the backfill -/

/-- A step stores an accepted page, or it carries the cursor on. -/
inductive BackfillChange (world next : HistoryWorld) (step : HistoryStep) : Prop
  | accept (page : BackfillPage) (joined : HistoryTables) (hpage : page ∈ world.backfill)
      (hcarries : world.tables.Carries joined) (hinserted : joined.inserted = world.tables.inserted)
      (hprogress : world.tables.Fresh → joined.progress = world.tables.progress)
      (hstored : joined.Stored page (HistoryTables.baselineOf page) next.tables)
      (haccepted : next.accepted = world.accepted ++ [page])
      (hbackfill : ∀ page ∈ next.backfill, page ∈ world.backfill)
  | carry (hcarries : world.tables.Carries next.tables) (haccepted : next.accepted = world.accepted)
      (hbackfill : ∀ page ∈ next.backfill, page ∈ world.backfill)
  | fetch (before : ℤ) (messages : DialogMessages) (total : Option ℕ)
      (hstep : step = .fetchBackfill before messages total) (htables : next.tables = world.tables) (haccepted : next.accepted = world.accepted)
      (hbackfill : ∀ page ∈ next.backfill,
        page ∈ world.backfill ∨ page = messages.pageBefore before total)

/-- A stored page is accepted, or the cursor is carried on. -/
theorem backfillChange_store {index : ℕ} {scopeCurrent : Bool} {stored : HistoryTables × Bool}
    (hpage : world.backfill[index]? = some page) (hstored : (∃ joined, world.tables.Carries joined ∧
        joined.inserted = world.tables.inserted ∧
        (world.tables.Fresh → joined.progress = world.tables.progress) ∧ stored.2 = true ∧
        joined.Stored page (HistoryTables.baselineOf page) stored.1) ∨
      stored.2 = false ∧ world.tables.Carries stored.1) :
    BackfillChange world (world.store index page scopeCurrent stored) step := by
  have hrest : ∀ page' ∈ world.backfill.eraseIdx index, page' ∈ world.backfill :=
    fun page' hmem => List.mem_of_mem_eraseIdx hmem
  unfold store
  by_cases hscope : scopeCurrent = true
  · rw [if_pos hscope]
    rcases hstored with ⟨joined, hcarries, hinserted, hprogress, htrue, hstored⟩ |
      ⟨hfalse, hcarries⟩
    · exact .accept page joined (List.mem_of_getElem? hpage) hcarries hinserted hprogress hstored
        (if_pos htrue) hrest
    · exact .carry hcarries (if_neg (by rw [hfalse]; decide)) hrest
  · rw [if_neg hscope]
    exact .carry (.refl _) rfl hrest

/-- Every step is one of the changes of the backfill. -/
theorem backfillChange_of_perform (h : world.perform step = some next) :
    BackfillChange world next step := by
  have hother : ∀ tables : HistoryTables, world.tables.Carries tables →
      BackfillChange world { world with tables } step :=
    fun tables hcarries => .carry hcarries rfl fun page hpage => hpage
  cases step with
  | enable now =>
    obtain rfl := Option.some.inj h
    exact hother _ (HistoryTables.carries_enableHistory _ now)
  | disable =>
    obtain rfl := Option.some.inj h
    exact hother _ (HistoryTables.carries_disableHistory _)
  | enrollDm now =>
    obtain rfl := Option.some.inj h
    exact hother _ (HistoryTables.carries_ensureAutomaticDmEnrollment _ now)
  | enrollOwnOnly =>
    obtain rfl := Option.some.inj h
    exact hother _ (HistoryTables.carries_enrollOwnOnly _)
  | accessLost refreshGeneration =>
    obtain rfl := Option.some.inj h
    exact hother _ (HistoryTables.carries_markAccessLost _ _)
  | restoreAccess totalMessages =>
    obtain rfl := Option.some.inj h
    exact hother _ (HistoryTables.carries_restoreAccess _ _)
  | requestRefresh now =>
    obtain rfl := Option.some.inj h
    exact hother _ (HistoryTables.carries_updateRow _ (fun row => Or.inl rfl) fun row => Or.inl rfl)
  | fetchBackfill before messages total =>
    dsimp only [perform] at h
    split_ifs at h
    · obtain rfl := Option.some.inj h
      exact .carry (.refl _) rfl fun page hpage => hpage
    · obtain rfl := Option.some.inj h
      refine .fetch before messages total rfl rfl rfl fun page hpage => ?_
      rcases List.mem_append.mp hpage with hpage | hpage
      · exact Or.inl hpage
      · exact Or.inr (List.mem_singleton.mp hpage)
  | storeBackfill index scopeCurrent now =>
    obtain ⟨page, hpage, rfl⟩ := Option.map_eq_some_iff.mp h
    refine backfillChange_store hpage ?_
    cases hstored : world.tables.storeBatchPage page now with
    | some stored =>
      exact Or.inl ⟨_, .refl _, rfl, fun _ => rfl, rfl,
        HistoryTables.stored_of_storeBatchPage hstored⟩
    | none => exact Or.inr ⟨rfl, .refl _⟩
  | storeAutomatic index scopeCurrent eligible maxMessages now =>
    obtain ⟨page, hpage, hsome⟩ := Option.bind_eq_some_iff.mp h
    split_ifs at hsome
    obtain rfl := Option.some.inj hsome
    refine backfillChange_store hpage ?_
    rcases world.tables.finalizeAutomaticGroupPage_cases page eligible maxMessages now with
      ⟨joined, hcarries, hinserted, hprogress, htrue, hstored⟩ | ⟨hfalse, hcarries, -⟩
    · exact Or.inl ⟨joined, hcarries, hinserted, hprogress, htrue, hstored⟩
    · exact Or.inr ⟨hfalse, hcarries⟩
  | selectGap | dropGap =>
    obtain rfl := Option.some.inj h
    exact .carry (.refl _) rfl fun page hpage => hpage
  | startGap index =>
    dsimp only [perform] at h
    split at h
    · split_ifs at h
      all_goals
        obtain rfl := Option.some.inj h
        exact .carry (.refl _) rfl fun page hpage => hpage
    · cases h
  | fetchGap index messages length exhausted =>
    dsimp only [perform] at h
    split at h
    · obtain rfl := Option.some.inj h
      exact .carry (.refl _) rfl fun page hpage => hpage
    · cases h
  | commitGap index recoveryCurrent now =>
    dsimp only [perform] at h
    split at h
    next page hslice =>
      obtain rfl := Option.some.inj h
      split
      next tables hcommitted =>
        exact .carry (HistoryTables.carries_commitDelta hcommitted) rfl fun page hpage => hpage
      next => exact .carry (.refl _) rfl fun page hpage => hpage
    next => cases h
  | crash =>
    obtain rfl := Option.some.inj h
    exact .carry (.refl _) rfl fun page hpage => absurd hpage List.not_mem_nil

/-! ## The invariant of the backfill -/

/-- Every constant message is behind the cursor or on an accepted page of the last pass. -/
structure Covering (constant : List ℤ) (world : HistoryWorld) : Prop where
  fresh : world.tables.Fresh
  fetched : ∀ page ∈ world.backfill, PageSound constant page
  accepted : ∀ page ∈ world.accepted, PageSound constant page
  covered : 0 < world.tables.progress → ∀ id ∈ constant, world.tables.progress ≤ id →
    ∃ page ∈ lastPass world.accepted, id ∈ page.ids
  finished : world.tables.Finished → ∀ id ∈ constant,
    ∃ page ∈ lastPass world.accepted, id ∈ page.ids
  ordered : 0 < world.tables.progress → ∀ page ∈ lastPass world.accepted, ∀ cursor,
    page.next = some cursor → world.tables.progress ≤ cursor
  distinct : (lastPass world.accepted).Pairwise fun earlier later =>
    earlier.next.isSome = true → later.next.isSome = true → earlier.before ≠ later.before

/-- Where only the tables and the pages in hand change, carrying the cursor on keeps the
invariant. -/
theorem covering_carry (hcovering : world.Covering constant)
    (hcarries : world.tables.Carries next.tables) (haccepted : next.accepted = world.accepted)
    (hfetched : ∀ page ∈ next.backfill, PageSound constant page) : next.Covering constant := by
  refine ⟨hcarries.fresh hcovering.fresh, hfetched, ?_, ?_, ?_, ?_, ?_⟩
  all_goals rw [haccepted]
  · exact hcovering.accepted
  · intro hpositive
    rcases hcarries.progress with hsame | ⟨hzero, -⟩
    · rw [hsame] at hpositive ⊢
      exact hcovering.covered hpositive
    · omega
  · intro hfinished
    exact hcovering.finished (hcarries.finished hfinished)
  · intro hpositive
    rcases hcarries.progress with hsame | ⟨hzero, -⟩
    · rw [hsame] at hpositive ⊢
      exact hcovering.ordered hpositive
    · omega
  · exact hcovering.distinct

/-- What an accepted page says about the cursor before and after it. -/
theorem progress_stored {joined stored : HistoryTables} {baseline : Option ℤ → Option ℤ}
    (h : joined.Stored page baseline stored) :
    joined.progress = page.before ∧ stored.progress = page.next.getD page.before := by
  obtain ⟨⟨row, row', hrow, hrow', hbefore, hprogress, -⟩, -⟩ := h
  rw [HistoryTables.progress, HistoryTables.progress, hrow, hrow']
  exact ⟨hbefore, hprogress⟩

/-- An accepted page keeps the invariant. -/
theorem covering_accept (hcovering : world.Covering constant) {joined : HistoryTables}
    (hpage : page ∈ world.backfill) (hprogress : joined.progress = world.tables.progress)
    (hstored : joined.Stored page (HistoryTables.baselineOf page) next.tables)
    (haccepted : next.accepted = world.accepted ++ [page])
    (hbackfill : ∀ page ∈ next.backfill, page ∈ world.backfill) : next.Covering constant := by
  have hsound := hcovering.fetched page hpage
  obtain ⟨hjoined, hnext⟩ := progress_stored hstored
  obtain ⟨⟨row, row', hrow, hrow', -, -, hstatus, -⟩, hintent, -, -⟩ := hstored
  have hbefore : world.tables.progress = page.before := hprogress.symm.trans hjoined
  have hnonneg : 0 ≤ page.before := hbefore ▸ hcovering.fresh.nonneg
  have hlast := lastPass_append world.accepted page
  have hself : page ∈ lastPass (world.accepted ++ [page]) := by
    rw [hlast]
    split_ifs
    · exact List.mem_singleton_self page
    · exact List.mem_append_right _ (List.mem_singleton_self page)
  -- a constant message at or behind the old cursor is on a page of the pass that goes on
  have hbehind : ∀ id ∈ constant, ¬ (page.before = 0 ∨ id < page.before) →
      ∃ page' ∈ lastPass (world.accepted ++ [page]), id ∈ page'.ids := by
    intro id hid hnot
    rw [not_or, not_lt] at hnot
    obtain ⟨page', hpage', hmem⟩ :=
      hcovering.covered (by omega) id hid (by omega)
    refine ⟨page', ?_, hmem⟩
    rw [hlast, if_neg hnot.1]
    exact List.mem_append_left _ hpage'
  refine ⟨⟨?_, ?_, ?_⟩, fun page' hpage' => hcovering.fetched page' (hbackfill page' hpage'), ?_, ?_,
    ?_, ?_, ?_⟩
  · intro hnone
    cases hintent.2.symm.trans hnone
  · intro row'' hrow'' hthin
    obtain rfl := Option.some.inj (hrow'.symm.trans hrow'')
    rw [hstatus] at hthin
    split_ifs at hthin <;> rcases hthin with hthin | hthin <;> cases hthin
  · rw [hnext]
    cases hcursor : page.next with
    | none => exact hnonneg
    | some cursor => exact (hsound.next cursor hcursor).1.le
  · rw [haccepted]
    intro page' hpage'
    rcases List.mem_append.mp hpage' with hpage' | hpage'
    · exact hcovering.accepted page' hpage'
    · obtain rfl := List.mem_singleton.mp hpage'
      exact hsound
  · rw [hnext, haccepted]
    intro hpositive id hid hle
    by_cases hahead : page.before = 0 ∨ id < page.before
    · rcases hsound.covers id hid hahead with hmem | ⟨cursor, hcursor, hlt⟩
      · exact ⟨page, hself, hmem⟩
      · rw [hcursor, Option.getD_some] at hle
        omega
    · exact hbehind id hid hahead
  · rw [haccepted]
    rintro ⟨row'', hrow'', hsynced⟩ id hid
    obtain rfl := Option.some.inj (hrow'.symm.trans hrow'')
    by_cases hahead : page.before = 0 ∨ id < page.before
    · rcases hsound.covers id hid hahead with hmem | ⟨cursor, hcursor, -⟩
      · exact ⟨page, hself, hmem⟩
      · rw [hstatus, hcursor] at hsynced
        cases hsynced
    · exact hbehind id hid hahead
  · rw [hnext, haccepted, hlast]
    intro hpositive page' hpage' cursor' hcursor'
    have hshrinks : page.before ≠ 0 → page.next.getD page.before ≤ page.before := by
      intro hne
      cases hcursor : page.next with
      | none => exact le_rfl
      | some cursor =>
        have hcursor'' := (hsound.next cursor hcursor).2
        rw [Option.getD_some]
        omega
    split_ifs at hpage' with hfirst
    · obtain rfl := List.mem_singleton.mp hpage'
      rw [hcursor', Option.getD_some]
    · rcases List.mem_append.mp hpage' with hpage' | hpage'
      · have hordered := hcovering.ordered (by omega) page' hpage' cursor' hcursor'
        exact (hshrinks hfirst).trans (hbefore ▸ hordered)
      · obtain rfl := List.mem_singleton.mp hpage'
        rw [hcursor', Option.getD_some]
  · rw [haccepted, hlast]
    split_ifs with hfirst
    · exact List.pairwise_singleton _ _
    · refine List.pairwise_append.mpr ⟨hcovering.distinct, List.pairwise_singleton _ _, ?_⟩
      intro earlier hearlier later hlater hsome _ hsame
      obtain rfl := List.mem_singleton.mp hlater
      obtain ⟨cursor, hcursor⟩ := Option.isSome_iff_exists.mp hsome
      have hordered := hcovering.ordered (by omega) earlier hearlier cursor hcursor
      have hearlier' :=
        (hcovering.accepted earlier (mem_of_mem_lastPass hearlier)).next cursor hcursor
      omega

/-- Every request finds the constant messages. -/
def Finds (constant : List ℤ) (_ : HistoryWorld) (step : HistoryStep) : Prop :=
  ∀ before messages total, step = .fetchBackfill before messages total →
    ∀ id ∈ constant, id ∈ messages.ids

/-- A step that finds the constant messages keeps the invariant. -/
theorem covering_perform (world : HistoryWorld) (step : HistoryStep) (next : HistoryWorld)
    (hcovering : world.Covering constant) (hfinds : Finds constant world step)
    (h : world.perform step = some next) : next.Covering constant := by
  cases backfillChange_of_perform h with
  | accept page joined hpage hcarries hinserted hprogress hstored haccepted hbackfill =>
    exact covering_accept hcovering hpage (hprogress hcovering.fresh) hstored haccepted hbackfill
  | carry hcarries haccepted hbackfill =>
    exact covering_carry hcovering hcarries haccepted
      fun page hpage => hcovering.fetched page (hbackfill page hpage)
  | fetch before messages total hstep htables haccepted hbackfill =>
    refine covering_carry hcovering (htables ▸ .refl _) haccepted fun page hpage => ?_
    rcases hbackfill page hpage with hpage | rfl
    · exact hcovering.fetched page hpage
    · exact pageSound_pageBefore (hfinds before messages total hstep)

/-- The invariant holds of a dialog that nothing is known of. -/
theorem covering_initial (constant : List ℤ) : Covering constant {} := by
  refine ⟨⟨fun _ => rfl, ?_, le_rfl⟩, ?_, ?_, ?_, ?_, ?_, List.Pairwise.nil⟩
  · intro row hrow
    cases hrow
  · intro page hpage
    exact absurd hpage List.not_mem_nil
  · intro page hpage
    exact absurd hpage List.not_mem_nil
  · intro hpositive
    exact absurd hpositive (lt_irrefl _)
  · rintro ⟨row, hrow, -⟩
    cases hrow
  · intro hpositive
    exact absurd hpositive (lt_irrefl _)

/-! ## The claims of a pass -/

/-- A step that stores a page. -/
def Stores (step : HistoryStep) : Prop :=
  (∃ index scopeCurrent now, step = .storeBackfill index scopeCurrent now) ∨
    ∃ index scopeCurrent eligible maxMessages now,
      step = .storeAutomatic index scopeCurrent eligible maxMessages now

/-- A page that is not accepted changes nothing, or the automatic group is declined. -/
theorem rejected_perform (hfresh : world.tables.Fresh) (hstores : Stores step)
    (h : world.perform step = some next) (hrejected : next.accepted = world.accepted) :
    next.tables = world.tables ∨ ∃ page ∈ world.backfill, world.tables.intent = none ∧
      next.tables = world.tables.recordAutomaticGroupDecision false page.totalMessages := by
  have hshort : ∀ page, world.accepted ++ [page] ≠ world.accepted := fun page hsame => by
    have hlength := congrArg List.length hsame
    rw [List.length_append, List.length_singleton] at hlength
    omega
  rcases hstores with ⟨index, scopeCurrent, now, rfl⟩ |
    ⟨index, scopeCurrent, eligible, maxMessages, now, rfl⟩
  · left
    obtain ⟨page, hpage, rfl⟩ := Option.map_eq_some_iff.mp h
    unfold store at hrejected ⊢
    by_cases hscope : scopeCurrent = true
    · rw [if_pos hscope] at hrejected ⊢
      cases hstored : world.tables.storeBatchPage page now with
      | some stored =>
        rw [hstored] at hrejected
        exact absurd hrejected (hshort page)
      | none => rfl
    · rw [if_neg hscope]
  · obtain ⟨page, hpage, hsome⟩ := Option.bind_eq_some_iff.mp h
    split_ifs at hsome with hfirst
    obtain rfl := Option.some.inj hsome
    unfold store at hrejected ⊢
    by_cases hscope : scopeCurrent = true
    · rw [if_pos hscope] at hrejected ⊢
      cases hresult : (world.tables.finalizeAutomaticGroupPage page eligible maxMessages now).2 with
      | true =>
        rw [hresult] at hrejected
        exact absurd hrejected (hshort page)
      | false =>
        rcases HistoryTables.finalizeAutomaticGroupPage_rejected hfresh hfirst.1 hresult with
          hsame | ⟨hintent, -, hdeclined⟩
        · exact Or.inl hsame
        · exact Or.inr ⟨page, List.mem_of_getElem? hpage, hintent, hdeclined⟩
    · rw [if_neg hscope]
      exact Or.inl rfl

/-- An accepted page was requested with the stored cursor; with messages it moves a positive cursor
down, and without it finishes the dialog. -/
theorem accepted_perform (hcovering : world.Covering constant)
    (h : world.perform step = some next) (haccepts : next.accepted ≠ world.accepted) :
    ∃ page ∈ world.backfill, next.accepted = world.accepted ++ [page] ∧
      world.tables.progress = page.before ∧
      next.tables.inserted = world.tables.inserted ++ page.ids ∧
      (∀ cursor, page.next = some cursor → next.tables.progress = cursor ∧ 0 < cursor ∧
        (0 < world.tables.progress → cursor < world.tables.progress)) ∧
      (page.next = none → page.ids = [] ∧ next.tables.progress = world.tables.progress ∧
        next.tables.Finished) := by
  cases backfillChange_of_perform h with
  | carry _ haccepted _ => exact absurd haccepted haccepts
  | fetch _ _ _ _ _ haccepted _ => exact absurd haccepted haccepts
  | accept page joined hpage hcarries hinserted hprogress hstored haccepted hbackfill =>
    have hsound := hcovering.fetched page hpage
    obtain ⟨hjoined, hnext⟩ := progress_stored hstored
    have hbefore := (hprogress hcovering.fresh).symm.trans hjoined
    refine ⟨page, hpage, haccepted, hbefore, ?_, ?_, ?_⟩
    · rw [hstored.inserted, hinserted]
      split_ifs with hsome
      · rfl
      · rw [hsound.ids (Option.not_isSome_iff_eq_none.mp hsome)]
    · intro cursor hcursor
      obtain ⟨hpositive, hless⟩ := hsound.next cursor hcursor
      rw [hnext, hcursor, Option.getD_some]
      refine ⟨rfl, hpositive, fun hold => ?_⟩
      omega
    · intro hnone
      obtain ⟨⟨row, row', hrow, hrow', -, -, hstatus, -⟩, -⟩ := hstored
      refine ⟨hsound.ids hnone, ?_, row', hrow', ?_⟩
      · rw [hnext, hnone, hbefore]
        rfl
      · rw [hstatus, hnone]
        rfl

/-- In every run whose requests find the constant messages: an accepted page was requested with the
stored cursor, its messages are inserted, a page with messages moves a positive cursor strictly down,
and an empty one keeps it and finishes the dialog; a page that is not accepted changes nothing,
apart from an automatic group that is declined; a finished dialog has every constant message on an
accepted page of the last pass; and no page with messages is accepted twice in a pass. -/
theorem full_history_backfill {steps : List HistoryStep} (h : run perform {} steps = some world)
    (hfinds : Along perform (Finds constant) {} steps) :
    (∀ step next, world.perform step = some next → next.accepted ≠ world.accepted →
      ∃ page ∈ world.backfill, next.accepted = world.accepted ++ [page] ∧
        world.tables.progress = page.before ∧
        next.tables.inserted = world.tables.inserted ++ page.ids ∧
        (∀ cursor, page.next = some cursor → next.tables.progress = cursor ∧ 0 < cursor ∧
          (0 < world.tables.progress → cursor < world.tables.progress)) ∧
        (page.next = none → page.ids = [] ∧ next.tables.progress = world.tables.progress ∧
          next.tables.Finished)) ∧
    (∀ step next, Stores step → world.perform step = some next →
      next.accepted = world.accepted →
      next.tables = world.tables ∨ ∃ page ∈ world.backfill, world.tables.intent = none ∧
        next.tables = world.tables.recordAutomaticGroupDecision false page.totalMessages) ∧
    (∀ row, world.tables.row = some row → row.status = .synced →
      ∀ id ∈ constant, ∃ page ∈ lastPass world.accepted, id ∈ page.ids) ∧
    (lastPass world.accepted).Pairwise fun earlier later => earlier.next.isSome = true →
      later.next.isSome = true → earlier.before ≠ later.before := by
  have hcovering : world.Covering constant := by
    exact run_along covering_perform (covering_initial constant) hfinds h
  refine ⟨?_, ?_, ?_, hcovering.distinct⟩
  · intro step next hstep haccepts
    exact accepted_perform hcovering hstep haccepts
  · intro step next hstores hstep hrejected
    exact rejected_perform hcovering.fresh hstores hstep hrejected
  · intro row hrow hsynced
    exact hcovering.finished ⟨row, hrow, hsynced⟩

/-- A dialog with one message. -/
def oneMessage : DialogMessages := ⟨[5], by decide⟩

/-- The steps that enroll a dialog with one message and read it up to its last page. -/
def sampleSteps : List HistoryStep :=
  [.enable 1, .fetchBackfill 0 oneMessage (some 1), .storeBackfill 0 true 2,
    .fetchBackfill 5 oneMessage none]

/-- The sample meets its condition. -/
theorem finds_sampleSteps : Along perform (Finds [5]) {} sampleSteps := by
  refine ⟨?_, fun _ _ => ⟨?_, fun _ _ => ⟨?_, fun _ _ => ⟨?_, fun _ _ => trivial⟩⟩⟩⟩
  all_goals
    intro before messages total hstep id hid
    cases hstep
  all_goals exact hid

/-- The run of one dialog with one message up to its last page. -/
theorem full_history_backfill_sample : ∃ world, run perform {} sampleSteps = some world ∧
    ((lastPass world.accepted).Pairwise fun earlier later => earlier.next.isSome = true →
      later.next.isSome = true → earlier.before ≠ later.before) ∧
    world.tables.progress = 5 := by
  obtain ⟨world, hworld⟩ := Option.isSome_iff_exists.mp
    (show (run perform {} sampleSteps).isSome = true by decide +kernel)
  have hprogress : (run perform {} sampleSteps).map (fun world => world.tables.progress) =
      some 5 := by
    decide +kernel
  rw [hworld, Option.map_some] at hprogress
  exact ⟨world, hworld, (full_history_backfill hworld finds_sampleSteps).2.2.2,
    Option.some.inj hprogress⟩

/-- The last page of a pass is accepted and keeps the positive cursor; after a loss of access and its
restoration it is accepted a second time in the same pass; and an automatic group that is too large
changes the row although its page is not accepted. -/
theorem last_page_keeps_cursor :
    (run perform {} sampleSteps).map
      (fun world => (world.tables.progress, world.accepted.length)) = some (5, 1) ∧
    (run perform {} (sampleSteps ++ [.storeBackfill 0 true 3])).map
      (fun world => (world.tables.progress, world.accepted.length)) = some (5, 2) ∧
    (run perform {} (sampleSteps ++
        [.storeBackfill 0 true 3, .accessLost none, .restoreAccess none,
          .fetchBackfill 5 oneMessage none, .storeBackfill 0 true 4])).map
      (fun world => (lastPass world.accepted).map BackfillPage.ids) = some [[5], [], []] ∧
    (run perform {} [.fetchBackfill 0 oneMessage (some 1), .storeAutomatic 0 true true 0 1]).map
      (fun world => (world.accepted, world.tables.intent)) = some ([], some false) := by
  refine ⟨?_, ?_, ?_, ?_⟩ <;> decide +kernel

end HistoryWorld

end McpTelegram
