import McpTelegram.Topics.Enumeration

/-!
# The completion of a scan

A page completes only the scan that is open under its own revision, and retires exactly the topics
that the generation has not seen and whose membership is older than the page.  A created topic bumps
the revision, so no scan that was open at that time completes.
-/

namespace McpTelegram

open Foundations

variable {bound : ℕ} {world world' : TopicWorld} {dialogId topicId observedAt : ℤ}
    {scan : TopicScan} {state : TopicCatalogState} {delivered : Option ℕ}
    {iconEmojiId iconColor date : Option ℤ}

/-! ## Scans before a creation -/

/-- Every scan of a generation up to a bound is under an old revision. -/
structure Superseded (bound : ℕ) (world : TopicWorld) : Prop where
  sequence : bound ≤ world.catalog.sequence
  present : world.catalog.state ≠ none
  issued : ∀ scan ∈ world.issued, scan.generation ≤ bound →
    scan.revision < world.catalog.row.revision
  opened : ∀ generation, world.catalog.row.generation = some generation → generation ≤ bound →
    ∀ revision, world.catalog.row.scanRevision = some revision →
      revision < world.catalog.row.revision

theorem Superseded.quiet (h : Superseded bound world)
    (hquiet : TopicCatalog.Quiet world.catalog world'.catalog)
    (hissued : world'.issued = world.issued) : Superseded bound world' := by
  refine ⟨h.sequence.trans hquiet.sequence, fun hnone => h.present (hquiet.kept hnone),
    fun scan hmem hle => ?_, fun generation hgeneration hle revision hrevision => ?_⟩
  · rw [hissued] at hmem
    exact (h.issued scan hmem hle).trans_le hquiet.row.revision
  · rcases hquiet.row.scan with hidle | hsame
    · rw [hidle.generation] at hgeneration
      exact absurd hgeneration.symm (Option.some_ne_none _)
    · rw [hsame.generation] at hgeneration
      rw [hsame.scanRevision] at hrevision
      exact (h.opened generation hgeneration hle revision hrevision).trans_le hquiet.row.revision

/-- The start of a page never continues a superseded scan. -/
theorem Superseded.beginPage (h : Superseded bound world)
    (hstep : world.perform dialogId .beginPage = some world') : Superseded bound world' := by
  simp only [TopicWorld.perform] at hstep
  split at hstep
  next catalog hbegin =>
    obtain rfl := Option.some.inj hstep
    exact h.quiet (TopicCatalog.beginPage_none _ hbegin) rfl
  next scan catalog hbegin =>
    obtain rfl := Option.some.inj hstep
    rcases TopicCatalog.beginPage_cases _ hbegin with ⟨hnone, -⟩ |
      ⟨state, generation, hbootstrap, hgeneration, hrevision, hscan, rfl⟩ |
      ⟨state, hfollows, hidle, hscan, rfl⟩
    · exact absurd hnone (Option.some_ne_none _)
    · obtain rfl := Option.some.inj hscan
      have hrow : world.catalog.row = state := by
        obtain ⟨state', hstate'⟩ := Option.ne_none_iff_exists'.mp h.present
        rw [TopicCatalog.bootstrap, hstate'] at hbootstrap
        rw [TopicCatalog.row, hstate']
        exact Option.some.inj hbootstrap
      have hnew : bound < generation := by
        refine not_le.mp fun hle => ?_
        have hlt := h.opened generation (by rw [hrow, hgeneration]) hle state.revision
          (by rw [hrow, hrevision])
        rw [hrow] at hlt
        exact lt_irrefl _ hlt
      refine ⟨h.sequence.trans (Nat.le_succ _), Option.some_ne_none _, fun scan hmem hle => ?_,
        fun generation' hgeneration' hle => ?_⟩
      · rcases List.mem_append.mp hmem with hmem | hmem
        · have hlt := h.issued scan hmem hle
          rwa [hrow] at hlt
        · rw [List.mem_singleton.mp hmem] at hle
          exact absurd hle (not_le.mpr hnew)
      · obtain rfl : generation = generation' :=
          Option.some.inj (hgeneration.symm.trans hgeneration')
        exact absurd hle (not_le.mpr hnew)
    · obtain rfl := Option.some.inj hscan
      have hnew : bound < world.catalog.sequence + 1 := Nat.lt_succ_of_le h.sequence
      refine ⟨h.sequence.trans (Nat.le_add_right _ _), Option.some_ne_none _,
        fun scan hmem hle => ?_, fun generation' hgeneration' hle => ?_⟩
      · rcases List.mem_append.mp hmem with hmem | hmem
        · exact (h.issued scan hmem hle).trans_le hfollows.revision
        · rw [List.mem_singleton.mp hmem] at hle
          exact absurd hle (not_le.mpr hnew)
      · obtain rfl : world.catalog.sequence + 1 = generation' := Option.some.inj hgeneration'
        exact absurd hle (not_le.mpr hnew)

/-- No page answers a superseded scan with an advance. -/
theorem Superseded.bound_lt (h : Superseded bound world) (hscan : scan ∈ world.issued)
    (hstate : world.catalog.state = some state) (howns : TopicCatalog.Owns state scan) :
    bound < scan.generation := by
  refine not_le.mp fun hle => ?_
  have hlt := h.issued scan hscan hle
  rw [TopicCatalog.row, hstate, Option.getD_some, howns.revision] at hlt
  exact lt_irrefl _ hlt

theorem Superseded.answer (h : Superseded bound world) (hscan : scan ∈ world.issued)
    {page : TopicPage} {now : ℤ} {outcome : TopicCatalog.PageOutcome} {catalog : TopicCatalog}
    (hanswer : world.catalog.applyPageOutcome dialogId scan page now = .ok (outcome, catalog)) :
    Superseded bound (world.record scan page outcome catalog) := by
  rcases TopicCatalog.applyPageOutcome_cases hanswer with ⟨rfl, -, hquiet⟩ |
    ⟨state, hstate, howns, -, hcases⟩
  · exact h.quiet hquiet rfl
  have hrow : world.catalog.row = state := by rw [TopicCatalog.row, hstate, Option.getD_some]
  have hnew := h.bound_lt hscan hstate howns
  have hissued : ∀ scan' ∈ world.issued, scan'.generation ≤ bound →
      scan'.revision < state.revision := by
    rw [← hrow]
    exact h.issued
  rcases hcases with ⟨rfl, -, rfl⟩ | ⟨next, rfl, -, -, rfl⟩
  · exact ⟨h.sequence, Option.some_ne_none _, hissued,
      fun _ hnone => absurd hnone.symm (Option.some_ne_none _)⟩
  · refine ⟨h.sequence, Option.some_ne_none _, hissued, fun generation hgeneration hle => ?_⟩
    obtain rfl : scan.generation = generation :=
      Option.some.inj (howns.generation.symm.trans hgeneration)
    exact absurd hle (not_le.mpr hnew)

theorem Superseded.step {operation : TopicOperation} (h : Superseded bound world)
    (hstep : world.perform dialogId operation = some world') : Superseded bound world' := by
  by_cases hbegin : operation = .beginPage
  · rw [hbegin] at hstep
    exact h.beginPage hstep
  by_cases happly : ∃ scan page now, operation = .applyPage scan page now
  · obtain ⟨scan, page, now, rfl⟩ := happly
    obtain ⟨hscan, rfl | ⟨outcome, catalog, hanswer, rfl⟩⟩ := perform_applyPage hstep
    · exact h
    · exact h.answer hscan hanswer
  · obtain ⟨hquiet, hissued, -⟩ := perform_quiet hbegin
      (fun scan page now heq => happly ⟨scan, page, now, heq⟩) hstep
    exact h.quiet hquiet hissued

/-- A created topic bumps the revision. -/
theorem handleCreate_state (catalog : TopicCatalog) (dialogId : ℤ) (delivered : Option ℕ)
    (topicId : ℤ) (title : String) (iconEmojiId iconColor date : Option ℤ) (observedAt : ℤ) :
    (catalog.handleCreate dialogId delivered topicId title iconEmojiId iconColor date
      observedAt).state = (catalog.request "topic_changed").state := by
  simp only [TopicCatalog.handleCreate]
  split_ifs <;> cases delivered <;> rfl

/-- After a creation every scan so far is under an old revision. -/
theorem Enumerated.superseded_of_create (h : Enumerated dialogId world) {title : String}
    (hstep : world.perform dialogId
      (.create delivered topicId title iconEmojiId iconColor date observedAt) = some world') :
    Superseded world.catalog.sequence world' := by
  obtain rfl := Option.some.inj hstep
  have hquiet := TopicCatalog.quiet_handleCreate world.catalog dialogId delivered topicId
    iconEmojiId observedAt title iconColor date
  have hstate := handleCreate_state world.catalog dialogId delivered topicId title iconEmojiId
    iconColor date observedAt
  refine ⟨hquiet.sequence, ?_, fun scan hmem _ => ?_, fun generation hgeneration _ => ?_⟩
  · rw [hstate]
    exact Option.some_ne_none _
  · rw [TopicCatalog.row, hstate, TopicCatalog.request]
    obtain ⟨-, hle⟩ := h.issued scan hmem
    cases hrow : world.catalog.state with
    | none => exact absurd (h.fresh hrow ▸ hmem) List.not_mem_nil
    | some state =>
      rw [TopicCatalog.row, hrow] at hle
      exact Nat.lt_succ_of_le hle
  · intro revision hrevision
    rw [TopicCatalog.row, hstate, TopicCatalog.request] at hgeneration hrevision ⊢
    have hle := h.scanRevision revision
    cases hrow : world.catalog.state with
    | none =>
      rw [hrow] at hgeneration
      exact absurd hgeneration.symm (Option.some_ne_none _)
    | some state =>
      rw [hrow] at hrevision
      rw [TopicCatalog.row, hrow] at hle
      exact Nat.lt_succ_of_le (hle hrevision)

/-! ## The completing page -/

/-- What a page does that completes a scan. -/
structure ScanCompleted (dialogId : ℤ) (world : TopicWorld) (scan : TopicScan) (page : TopicPage)
    (catalog : TopicCatalog) : Prop where
  /-- The scan is the open one, under the current revision. -/
  current : ∃ state, world.catalog.state = some state ∧ TopicCatalog.Owns state scan
  /-- Every page of the generation was read under the same revision. -/
  revision : ∀ accepted ∈ world.pages scan.generation, accepted.scan.revision = scan.revision
  /-- Among the topics that were present, exactly those with an older membership become absent that
  the page calls deleted or that the generation has not seen. -/
  absent : ∀ key row, world.catalog.topics.lookup key = some row → row.catalogPresent = true →
    ∃ row', catalog.topics.lookup key = some row' ∧
      (row'.catalogPresent = false ↔ key.1 = dialogId ∧
        row.membershipOrder < scan.observationOrder ∧
        (key.2 ∈ page.deletedIds ∨ key.2 ∉ topicIds (world.pages scan.generation) ++ page.ids))

section Completion

variable {dialogId : ℤ} {world : TopicWorld} {scan : TopicScan} {page : TopicPage} {now : ℤ}
  {catalog : TopicCatalog}

variable {outcome : TopicCatalog.PageOutcome}

/-- The membership of a topic that a page does not have. -/
theorem retired_iff (h : Enumerated dialogId world) {state : TopicCatalogState}
    (hstate : world.catalog.state = some state) (howns : TopicCatalog.Owns state scan)
    (hnodup : page.ids.Nodup) {key : TopicKey} {row : TopicRow}
    (hrow : world.catalog.topics.lookup key = some row) (hpresent : row.catalogPresent = true) :
    ∃ row', (TopicCatalog.retireUnseen dialogId (world.catalog.writePage dialogId scan page now)
        scan.generation scan.observationOrder).lookup key = some row' ∧
      (row'.catalogPresent = false ↔ key.1 = dialogId ∧
        row.membershipOrder < scan.observationOrder ∧
        (key.2 ∈ page.deletedIds ∨
          key.2 ∉ topicIds (world.pages scan.generation) ++ page.ids)) := by
  obtain ⟨-, -, -, htraversing⟩ := h.opened_of_owns hstate howns
  have hseen : (world.catalog.writePage dialogId scan page now).seenAt (dialogId, key.2) =
      scan.generation ↔ _ := marked_seenAt hnodup key.2
  obtain ⟨written, hwritten, habsent⟩ : ∃ written,
      (world.catalog.writePage dialogId scan page now).lookup key = some written ∧
        (written.catalogPresent = false ↔ _) :=
    TopicCatalog.writePage_absent world.catalog hnodup hrow hpresent
  rw [TopicCatalog.retireUnseen_lookup, hwritten, Option.map_some]
  refine ⟨_, rfl, ?_⟩
  by_cases hdialog : key.1 = dialogId
  · have hkey : (dialogId, key.2) = key := by rw [← hdialog]
    rw [hkey] at hseen
    have hmark : written.seenGeneration = scan.generation ↔
        key.2 ∈ topicIds (world.pages scan.generation) ++ page.ids := by
      have hwrittenSeen : (world.catalog.writePage dialogId scan page now).seenAt key =
          written.seenGeneration := by
        rw [TopicStore.seenAt, hwritten]
        rfl
      have hopened := htraversing.seen key.2
      rw [hkey] at hopened
      rw [← hwrittenSeen, hseen, hopened, List.mem_append]
    by_cases hmem : key.2 ∈ topicIds (world.pages scan.generation) ++ page.ids
    · rw [if_neg fun hretired => hretired.2.1 (hmark.mpr hmem), habsent]
      exact ⟨fun hall => ⟨hall.1, hall.2.2, Or.inl hall.2.1⟩,
        fun hall => ⟨hall.1, hall.2.2.resolve_right fun hnot => hnot hmem, hall.2.1⟩⟩
    · have hids : ¬ (key.1 = dialogId ∧ key.2 ∈ page.ids) := fun hids =>
        hmem (List.mem_append_right _ hids.2)
      obtain rfl : row = written := Option.some.inj (by
        rw [← hrow, ← hwritten, TopicCatalog.writePage_lookup_of_notMem _ hids])
      split_ifs with hretired
      · exact iff_of_true rfl ⟨hdialog, hretired.2.2, Or.inr hmem⟩
      · refine iff_of_false (by rw [hpresent]; exact Bool.noConfusion) fun hall => ?_
        exact hretired ⟨hdialog, fun hmarked => hmem (hmark.mp hmarked), hall.2.1⟩
  · rw [if_neg fun hretired => hdialog hretired.1, habsent]
    exact iff_of_false (fun hall => hdialog hall.1) fun hall => hdialog hall.1

/-- A completing page does what `ScanCompleted` says. -/
theorem Enumerated.completed (h : Enumerated dialogId world) (hscan : scan ∈ world.issued)
    (hanswer : world.catalog.applyPageOutcome dialogId scan page now = .ok (outcome, catalog))
    (hcomplete : outcome.complete = true) : ScanCompleted dialogId world scan page catalog := by
  rcases TopicCatalog.applyPageOutcome_cases hanswer with ⟨rfl, -, -⟩ |
    ⟨state, hstate, howns, hvalid, ⟨rfl, -, rfl⟩ | ⟨next, rfl, -, -, -⟩⟩
  · exact Bool.noConfusion hcomplete
  · obtain ⟨-, -, hissued, htraversing⟩ := h.opened_of_owns hstate howns
    refine ⟨⟨state, hstate, howns⟩, fun accepted hmem => ?_, fun key row hrow hpresent =>
      retired_iff h hstate howns hvalid.nodup hrow hpresent⟩
    have hrevision := (htraversing.revision accepted hmem).symm.trans (hissued scan hscan rfl)
    exact Option.some.inj hrevision
  · exact Bool.noConfusion hcomplete

/-- A page that does not answer the open scan under its own revision leaves the scan. -/
theorem outdated_answer
    (hanswer : world.catalog.applyPageOutcome dialogId scan page now = .ok (outcome, catalog))
    (hstale : ¬ ∃ state, world.catalog.state = some state ∧ TopicCatalog.Owns state scan) :
    outcome = {} ∧ catalog.state = world.catalog.state := by
  rcases TopicCatalog.applyPageOutcome_cases hanswer with ⟨rfl, hstate, -⟩ |
    ⟨state, hstate, howns, -⟩
  · exact ⟨rfl, hstate⟩
  · exact absurd ⟨state, hstate, howns⟩ hstale

end Completion

/-- Every scan that completes was opened after every creation of a topic so far. -/
theorem created_before {before after : List TopicOperation} {title : String} {earlier : TopicWorld}
    (hearlier : run (TopicWorld.perform dialogId) {} before = some earlier)
    (hafter : run (TopicWorld.perform dialogId) earlier
      (.create delivered topicId title iconEmojiId iconColor date observedAt :: after) = some world)
    (hscan : scan ∈ world.issued) (hstate : world.catalog.state = some state)
    (howns : TopicCatalog.Owns state scan) : earlier.catalog.sequence < scan.generation := by
  obtain ⟨created, hcreated, hrest⟩ := run_cons_eq_some.mp hafter
  have hsuperseded := (enumerated_run hearlier).superseded_of_create hcreated
  have hworld : Superseded earlier.catalog.sequence world :=
    run_invariant (fun _ _ _ hworld hstep => hworld.step hstep) hsuperseded hrest
  exact hworld.bound_lt hscan hstate howns

namespace TopicWorld

/-- A catalog with an old topic 9, whose first page has been accepted. -/
def sampleOperations : List TopicOperation :=
  [.snapshot 1 [{ topicId := 9, title := "old" }] 5, .elsewhere, .beginPage,
    .applyPage ⟨2, 1, 3, {}⟩
      { topics := [{ topicId := 1, title := "one" }], count := 2, orderByCreateDate := true,
        nextCursor := some { offsetTopic := 1 } } 6,
    .beginPage]

/-- The page that completes the scan of the sample. -/
def samplePage : TopicPage where
  topics := [{ topicId := 2, title := "two" }]
  count := 2
  orderByCreateDate := true
  nextCursor := none

end TopicWorld

end McpTelegram
