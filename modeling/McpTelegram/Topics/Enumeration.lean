import McpTelegram.Topics.Scan

/-!
# Runs of the enumeration

What holds of the accepted pages of every generation after any sequence of operations, and what the
page that completes a scan does to the catalog.
-/

namespace McpTelegram

open Foundations

variable {dialogId : ℤ} {world world' : TopicWorld} {scan : TopicScan} {operation : TopicOperation}

/-- The identifiers on some accepted pages. -/
def topicIds (pages : List AcceptedPage) : List ℤ := pages.flatMap fun accepted => accepted.page.ids

/-- The accepted pages of one generation, in order. -/
structure PagesSound (pages : List AcceptedPage) : Prop where
  /-- A page that is not the last one has a topic that no earlier page had. -/
  progress : ∀ earlier accepted later, pages = earlier ++ accepted :: later →
    accepted.complete = false → ∃ id ∈ accepted.page.ids, id ∉ topicIds earlier
  /-- No cursor comes twice. -/
  cursors : (pages.filterMap AcceptedPage.next).Nodup
  /-- There is at most one page more than the topics that any of them promises. -/
  bounded : ∀ accepted ∈ pages, (pages.length : ℤ) ≤ accepted.page.count + 1

/-- The open generation after its accepted pages. -/
structure Traversing (dialogId : ℤ) (topics : TopicStore) (state : TopicCatalogState)
    (generation : ℕ) (pages : List AcceptedPage) : Prop where
  seen : ∀ topicId, topics.seenAt (dialogId, topicId) = generation ↔ topicId ∈ topicIds pages
  cursors : state.cursors = pages.filterMap AcceptedPage.next
  expected : ∀ accepted ∈ pages, state.expectedCount = some accepted.page.count
  revision : ∀ accepted ∈ pages, state.scanRevision = some accepted.scan.revision
  short : ∀ accepted ∈ pages, (pages.length : ℤ) ≤ (topicIds pages).toFinset.card ∧
    ((topicIds pages).toFinset.card : ℤ) < accepted.page.count

/-! ## One page more -/

theorem topicIds_append (pages pages' : List AcceptedPage) :
    topicIds (pages ++ pages') = topicIds pages ++ topicIds pages' :=
  List.flatMap_append

theorem topicIds_singleton (accepted : AcceptedPage) : topicIds [accepted] = accepted.page.ids :=
  List.flatMap_singleton ..

theorem PagesSound.nil : PagesSound [] :=
  ⟨fun _ _ _ h => absurd h.symm (List.append_ne_nil_of_right_ne_nil _ (List.cons_ne_nil _ _)),
    List.nodup_nil, fun _ h => absurd h List.not_mem_nil⟩

section Append

variable {dialogId : ℤ} {topics topics' : TopicStore} {state state' : TopicCatalogState}
  {generation : ℕ} {pages : List AcceptedPage} {accepted : AcceptedPage} {seen : List ℤ}

/-- The topics seen are those of the accepted pages. -/
theorem Traversing.union_length (h : Traversing dialogId topics state generation pages)
    (accepted : AcceptedPage)
    (hseen : ∀ topicId, topicId ∈ seen ↔ topics.seenAt (dialogId, topicId) = generation) :
    (unionIds seen accepted.page.ids).length = (topicIds (pages ++ [accepted])).toFinset.card := by
  rw [TopicCatalog.unionIds_length, topicIds_append, topicIds_singleton]
  congr 1
  ext topicId
  simp only [List.toFinset_append, Finset.mem_union, List.mem_toFinset, hseen, h.seen]

/-- An accepted page keeps the record of its generation sound. -/
theorem PagesSound.append (h : PagesSound pages)
    (ht : Traversing dialogId topics state generation pages)
    (hseen : ∀ topicId, topicId ∈ seen ↔ topics.seenAt (dialogId, topicId) = generation)
    (hvalid : TopicCatalog.PageValid state accepted.page seen)
    (hprogress : accepted.complete = false → accepted.page.ids ≠ []) :
    PagesSound (pages ++ [accepted]) := by
  refine ⟨fun earlier page later hsplit hcomplete => ?_, ?_, fun page hpage => ?_⟩
  · rcases List.eq_nil_or_concat later with rfl | ⟨front, last, rfl⟩
    · obtain ⟨rfl, hlast⟩ := List.append_inj' hsplit rfl
      obtain rfl := (List.cons.inj hlast).1
      obtain ⟨id, hid, hnew⟩ := hvalid.progress.resolve_left (hprogress hcomplete)
      exact ⟨id, hid, fun hmem => hnew ((hseen id).mpr ((ht.seen id).mpr hmem))⟩
    · have hfront : pages ++ [accepted] = (earlier ++ page :: front) ++ [last] := by
        rw [hsplit, List.concat_eq_append, List.append_assoc, List.cons_append]
      exact h.progress earlier page front (List.append_inj' hfront rfl).1 hcomplete
  · rw [List.filterMap_append, List.nodup_append']
    refine ⟨h.cursors, ?_, fun next hmem hlast => ?_⟩
    · cases hnext : accepted.next with
      | none => simp [hnext]
      | some next => simp [hnext]
    · have hnext : accepted.next = some next := by simpa using hlast
      rw [← ht.cursors] at hmem
      rw [AcceptedPage.next] at hnext
      split_ifs at hnext
      exact hvalid.cursor next hnext hmem
  · have hcount : ∀ page' ∈ pages, (pages.length : ℤ) ≤ page'.page.count := fun page' hpage' =>
      ((ht.short page' hpage').1.trans_lt (ht.short page' hpage').2).le
    rw [List.length_append, List.length_singleton, Nat.cast_succ]
    rcases List.mem_append.mp hpage with hpage | hpage
    · exact add_le_add_left (hcount page hpage) 1
    · obtain rfl := List.mem_singleton.mp hpage
      refine add_le_add_left ?_ 1
      cases pages with
      | nil => exact hvalid.nonneg
      | cons first rest =>
        rw [← hvalid.count _ (ht.expected first List.mem_cons_self)]
        exact hcount first List.mem_cons_self

/-- An accepted page that is not the last one keeps the generation open. -/
theorem Traversing.advance (h : Traversing dialogId topics state generation pages)
    (accepted : AcceptedPage)
    (hseen : ∀ topicId, topicId ∈ seen ↔ topics.seenAt (dialogId, topicId) = generation)
    (hvalid : TopicCatalog.PageValid state accepted.page seen) (hnonempty : accepted.page.ids ≠ [])
    (hcount : ((unionIds seen accepted.page.ids).length : ℤ) ≠ accepted.page.count)
    (hrevision : state.scanRevision = some accepted.scan.revision) {next : TopicCursor}
    (hnext : accepted.next = some next)
    (hmarked : ∀ topicId, topics'.seenAt (dialogId, topicId) = generation ↔
      topics.seenAt (dialogId, topicId) = generation ∨ topicId ∈ accepted.page.ids) (order : ℕ) :
    Traversing dialogId topics' (state.advance accepted.page next order) generation
      (pages ++ [accepted]) := by
  have hunion := h.union_length accepted hseen
  obtain ⟨id, hid, hnew⟩ := hvalid.progress.resolve_left hnonempty
  have hcard : (topicIds pages).toFinset.card < (topicIds (pages ++ [accepted])).toFinset.card := by
    refine Finset.card_lt_card (Finset.ssubset_iff.mpr ⟨id, fun hmem => ?_, ?_⟩)
    · exact hnew ((hseen id).mpr ((h.seen id).mpr (List.mem_toFinset.mp hmem)))
    · intro topicId hmem
      rw [topicIds_append, topicIds_singleton, List.mem_toFinset, List.mem_append]
      rcases Finset.mem_insert.mp hmem with rfl | hmem
      · exact Or.inr hid
      · exact Or.inl (List.mem_toFinset.mp hmem)
  have hlt : ((topicIds (pages ++ [accepted])).toFinset.card : ℤ) < accepted.page.count := by
    rw [← hunion]
    exact lt_of_le_of_ne hvalid.bounded hcount
  have hsame : ∀ page ∈ pages, page.page.count = accepted.page.count := fun page hpage =>
    hvalid.count _ (h.expected page hpage)
  refine ⟨fun topicId => ?_, ?_, fun page hpage => ?_, fun page hpage => ?_, fun page hpage => ?_⟩
  · rw [hmarked, h.seen, topicIds_append, topicIds_singleton, List.mem_append]
  · rw [List.filterMap_append, ← h.cursors]
    simp [hnext, TopicCatalogState.advance]
  · rcases List.mem_append.mp hpage with hpage | hpage
    · rw [hsame page hpage]
      rfl
    · rw [List.mem_singleton.mp hpage]
      rfl
  · rcases List.mem_append.mp hpage with hpage | hpage
    · exact h.revision page hpage
    · rw [List.mem_singleton.mp hpage]
      exact hrevision
  · have hlength : ((pages ++ [accepted]).length : ℤ) ≤
        (topicIds (pages ++ [accepted])).toFinset.card := by
      have hpages : pages.length ≤ (topicIds pages).toFinset.card := by
        cases pages with
        | nil => exact Nat.zero_le _
        | cons first rest => exact_mod_cast (h.short first List.mem_cons_self).1
      rw [List.length_append, List.length_singleton]
      exact_mod_cast hpages.trans_lt hcard
    refine ⟨hlength, ?_⟩
    rcases List.mem_append.mp hpage with hpage | hpage
    · rw [hsame page hpage]
      exact hlt
    · rw [List.mem_singleton.mp hpage]
      exact hlt

end Append


/-! ## Runs -/

/-- What holds of the scan in every reachable world. -/
structure Enumerated (dialogId : ℤ) (world : TopicWorld) : Prop where
  rows : ∀ key, world.catalog.topics.seenAt key ≤ world.catalog.sequence
  log : ∀ accepted ∈ world.accepted, accepted.scan.generation ≤ world.catalog.sequence
  issued : ∀ scan ∈ world.issued,
    scan.generation ≤ world.catalog.sequence ∧ scan.revision ≤ world.catalog.row.revision
  fresh : world.catalog.state = none → world.issued = []
  scanRevision : ∀ revision, world.catalog.row.scanRevision = some revision →
    revision ≤ world.catalog.row.revision
  idle : world.catalog.row.generation = none → world.catalog.row.cursors = []
  opened : ∀ generation, world.catalog.row.generation = some generation →
    0 < generation ∧ generation ≤ world.catalog.sequence ∧
    (∀ scan ∈ world.issued, scan.generation = generation →
      world.catalog.row.scanRevision = some scan.revision) ∧
    Traversing dialogId world.catalog.topics world.catalog.row generation (world.pages generation)
  sound : ∀ generation, PagesSound (world.pages generation)

/-- The world before the first operation. -/
theorem Enumerated.initial (dialogId : ℤ) : Enumerated dialogId {} where
  rows _ := le_rfl
  log _ h := absurd h List.not_mem_nil
  issued _ h := absurd h List.not_mem_nil
  fresh _ := rfl
  scanRevision _ h := absurd h (Option.some_ne_none _).symm
  idle _ := rfl
  opened _ h := absurd h (Option.some_ne_none _).symm
  sound _ := PagesSound.nil

/-- The traversal of a generation does not depend on more than the marks and the scan state. -/
theorem Traversing.congr {topics topics' : TopicStore} {state state' : TopicCatalogState}
    {generation : ℕ} {pages : List AcceptedPage}
    (h : Traversing dialogId topics state generation pages) (hstate : state.SameScan state')
    (htopics : ∀ key, topics'.seenAt key = topics.seenAt key) :
    Traversing dialogId topics' state' generation pages where
  seen topicId := by rw [htopics, h.seen]
  cursors := hstate.cursors.trans h.cursors
  expected accepted hmem := hstate.expectedCount.trans (h.expected accepted hmem)
  revision accepted hmem := hstate.scanRevision.trans (h.revision accepted hmem)
  short := h.short

/-- What leaves the scan in place keeps the invariant. -/
theorem Enumerated.quiet (h : Enumerated dialogId world)
    (hquiet : TopicCatalog.Quiet world.catalog world'.catalog)
    (hissued : world'.issued = world.issued) (haccepted : world'.accepted = world.accepted) :
    Enumerated dialogId world' := by
  have hpages : ∀ generation, world'.pages generation = world.pages generation := fun _ => by
    rw [TopicWorld.pages, haccepted, TopicWorld.pages]
  refine ⟨fun key => ?_, fun accepted hmem => ?_, fun scan hmem => ?_, fun hnone => ?_,
    fun revision hrevision => ?_, fun hnone => ?_, fun generation hgeneration => ?_,
    fun generation => ?_⟩
  · rw [hquiet.seenAt]
    exact (h.rows key).trans hquiet.sequence
  · rw [haccepted] at hmem
    exact (h.log accepted hmem).trans hquiet.sequence
  · rw [hissued] at hmem
    obtain ⟨hgeneration, hrevision⟩ := h.issued scan hmem
    exact ⟨hgeneration.trans hquiet.sequence, hrevision.trans hquiet.row.revision⟩
  · rw [hissued]
    exact h.fresh (hquiet.kept hnone)
  · rcases hquiet.row.scan with hidle | hsame
    · rw [hidle.scanRevision] at hrevision
      exact absurd hrevision.symm (Option.some_ne_none _)
    · rw [hsame.scanRevision] at hrevision
      exact (h.scanRevision revision hrevision).trans hquiet.row.revision
  · rcases hquiet.row.scan with hidle | hsame
    · exact hidle.cursors
    · rw [hsame.generation] at hnone
      rw [hsame.cursors]
      exact h.idle hnone
  · rcases hquiet.row.scan with hidle | hsame
    · rw [hidle.generation] at hgeneration
      exact absurd hgeneration.symm (Option.some_ne_none _)
    · rw [hsame.generation] at hgeneration
      obtain ⟨hpos, hle, hissued', htraversing⟩ := h.opened generation hgeneration
      refine ⟨hpos, hle.trans hquiet.sequence, fun scan hmem hscan => ?_, ?_⟩
      · rw [hissued] at hmem
        rw [hsame.scanRevision]
        exact hissued' scan hmem hscan
      · rw [hpages]
        exact htraversing.congr hsame hquiet.seenAt
  · rw [hpages]
    exact h.sound generation

/-- The pages of a generation that has just been allocated. -/
theorem Enumerated.pages_fresh (h : Enumerated dialogId world) {generation : ℕ}
    (hfresh : world.catalog.sequence < generation) : world.pages generation = [] := by
  refine List.filter_eq_nil_iff.mpr fun accepted hmem hgeneration => ?_
  have hle := h.log accepted hmem
  rw [of_decide_eq_true hgeneration] at hle
  exact absurd hle (not_le.mpr hfresh)

/-- A further scan of the open generation, or of none. -/
theorem Enumerated.issue (h : Enumerated dialogId world) (hstate : world.catalog.state ≠ none)
    (hgeneration : scan.generation ≤ world.catalog.sequence)
    (hrevision : scan.revision ≤ world.catalog.row.revision)
    (hopened : world.catalog.row.generation = some scan.generation →
      world.catalog.row.scanRevision = some scan.revision) :
    Enumerated dialogId { world with issued := world.issued ++ [scan] } := by
  refine { h with issued := fun scan' hmem => ?_, fresh := fun hnone => absurd hnone hstate,
                  opened := fun generation hgeneration' => ?_ }
  · rcases List.mem_append.mp hmem with hmem | hmem
    · exact h.issued scan' hmem
    · rw [List.mem_singleton.mp hmem]
      exact ⟨hgeneration, hrevision⟩
  · obtain ⟨hpos, hle, hissued, htraversing⟩ := h.opened generation hgeneration'
    refine ⟨hpos, hle, fun scan' hmem hscan => ?_, htraversing⟩
    rcases List.mem_append.mp hmem with hmem | hmem
    · exact hissued scan' hmem hscan
    · obtain rfl := List.mem_singleton.mp hmem
      rw [← hscan] at hgeneration'
      exact hopened hgeneration'

/-- A fresh generation is opened. -/
theorem Enumerated.openGeneration {dialogId : ℤ} {world : TopicWorld}
    (h : Enumerated dialogId world) {state : TopicCatalogState} {generation sequence : ℕ}
    (hstate : world.catalog.state = some state) (hidle : state.generation = none)
    (hfresh : world.catalog.sequence < generation) (hle : generation ≤ sequence) :
    Enumerated dialogId
      { world with
        catalog :=
          { world.catalog with
            state := some
              { state with generation := some generation, scanRevision := some state.revision }
            sequence } } := by
  have hrow : world.catalog.row = state := by rw [TopicCatalog.row, hstate, Option.getD_some]
  have hsequence : world.catalog.sequence ≤ sequence := hfresh.le.trans hle
  refine ⟨fun key => (h.rows key).trans hsequence, fun accepted hmem =>
    (h.log accepted hmem).trans hsequence, fun scan hmem => ?_,
    fun hnone => absurd hnone (Option.some_ne_none _), fun revision hrevision => ?_,
    fun hnone => absurd hnone (Option.some_ne_none _), fun generation' hgeneration => ?_, h.sound⟩
  · obtain ⟨hgeneration, hrevision⟩ := h.issued scan hmem
    rw [hrow] at hrevision
    exact ⟨hgeneration.trans hsequence, hrevision⟩
  · exact (Option.some.inj hrevision).ge
  · obtain rfl : generation = generation' := Option.some.inj hgeneration
    refine ⟨(Nat.zero_le _).trans_lt hfresh, hle, fun scan hmem hscan => ?_, ?_⟩
    · have hold := (h.issued scan hmem).1
      rw [hscan] at hold
      exact absurd hold (not_le.mpr hfresh)
    · have hcursors : state.cursors = [] := by
        have hcursors := h.idle (by rw [hrow, hidle])
        rwa [hrow] at hcursors
      have hpages := h.pages_fresh hfresh
      have hpages' : ({ world with
          catalog :=
            { world.catalog with
              state := some
                { state with generation := some generation, scanRevision := some state.revision }
              sequence } } : TopicWorld).pages generation = [] := hpages
      rw [hpages']
      refine ⟨fun topicId => iff_of_false (fun hseen => ?_) List.not_mem_nil, hcursors,
        fun _ hmem => absurd hmem List.not_mem_nil, fun _ hmem => absurd hmem List.not_mem_nil,
        fun _ hmem => absurd hmem List.not_mem_nil⟩
      have hold := h.rows (dialogId, topicId)
      rw [hseen] at hold
      exact absurd hold (not_le.mpr hfresh)

/-- The scan that `begin_page` answers is the open one. -/
theorem beginPage_owns {catalog catalog' : TopicCatalog}
    (h : catalog.beginPage = (some scan, catalog')) :
    ∃ state, catalog'.state = some state ∧ TopicCatalog.Owns state scan := by
  rcases TopicCatalog.beginPage_cases catalog h with ⟨hnone, -⟩ |
    ⟨state, generation, -, hgeneration, -, hscan, rfl⟩ | ⟨state, -, -, hscan, rfl⟩
  · exact absurd hnone (Option.some_ne_none _)
  · obtain rfl := Option.some.inj hscan
    exact ⟨state, rfl, hgeneration, rfl, rfl⟩
  · obtain rfl := Option.some.inj hscan
    exact ⟨_, rfl, rfl, rfl, rfl⟩

/-- The start of a page keeps the invariant. -/
theorem Enumerated.beginPage (h : Enumerated dialogId world)
    (hstep : world.perform dialogId .beginPage = some world') : Enumerated dialogId world' := by
  simp only [TopicWorld.perform] at hstep
  split at hstep
  next catalog hbegin =>
    obtain rfl := Option.some.inj hstep
    exact h.quiet (TopicCatalog.beginPage_none _ hbegin) rfl rfl
  next scan catalog hbegin =>
    obtain rfl := Option.some.inj hstep
    rcases TopicCatalog.beginPage_cases _ hbegin with ⟨hnone, -⟩ |
      ⟨state, generation, hbootstrap, hgeneration, hrevision, hscan, rfl⟩ |
      ⟨state, hfollows, hidle, hscan, rfl⟩
    · exact absurd hnone (Option.some_ne_none _)
    · obtain rfl := Option.some.inj hscan
      have hquiet : TopicCatalog.Quiet world.catalog
          { world.catalog with state := some state, sequence := world.catalog.sequence + 1 } := by
        have hboot := TopicCatalog.quiet_bootstrap world.catalog
        refine ⟨fun _ => rfl, Nat.le_succ _, ?_, fun hnone => absurd hnone (Option.some_ne_none _)⟩
        have hrow := hboot.row
        rw [TopicCatalog.row, TopicCatalog.row, hbootstrap] at hrow
        exact hrow
      have hworld : Enumerated dialogId
          { world with
            catalog :=
              { world.catalog with
                state := some state
                sequence := world.catalog.sequence + 1 } } := h.quiet hquiet rfl rfl
      refine hworld.issue (Option.some_ne_none _) ?_ le_rfl fun _ => hrevision
      exact (hworld.opened generation hgeneration).2.1
    · obtain rfl := Option.some.inj hscan
      have hworld : Enumerated dialogId
          { world with catalog := { world.catalog with state := some state } } :=
        h.quiet (TopicCatalog.Quiet.of_state hfollows) rfl rfl
      have hopened := @Enumerated.openGeneration _ _ hworld state (world.catalog.sequence + 1)
        (world.catalog.sequence + 2) rfl hidle (Nat.lt_succ_self _) (Nat.le_succ _)
      exact hopened.issue (Option.some_ne_none _) (Nat.le_succ _) le_rfl fun _ => rfl

/-- The pages of a generation after a further page. -/
theorem pages_append (world : TopicWorld) (accepted : AcceptedPage) (catalog : TopicCatalog)
    (generation : ℕ) :
    ({ world with catalog, accepted := world.accepted ++ [accepted] } : TopicWorld).pages
        generation =
      if accepted.scan.generation = generation then world.pages generation ++ [accepted]
      else world.pages generation := by
  rw [TopicWorld.pages, TopicWorld.pages, List.filter_append]
  split_ifs with h
  · rw [List.filter_cons_of_pos (by rw [h]; exact decide_eq_true rfl), List.filter_nil]
  · rw [List.filter_cons_of_neg (by simpa using h), List.filter_nil, List.append_nil]

section Answer

variable {dialogId : ℤ} {world : TopicWorld} {scan : TopicScan} {page : TopicPage} {now : ℤ}
  {outcome : TopicCatalog.PageOutcome} {catalog : TopicCatalog} {state : TopicCatalogState}

/-- The open scan of the world, as the owner of an answer sees it. -/
theorem Enumerated.opened_of_owns (h : Enumerated dialogId world)
    (hstate : world.catalog.state = some state) (howns : TopicCatalog.Owns state scan) :
    0 < scan.generation ∧ scan.generation ≤ world.catalog.sequence ∧
      (∀ scan' ∈ world.issued, scan'.generation = scan.generation →
        state.scanRevision = some scan'.revision) ∧
      Traversing dialogId world.catalog.topics state scan.generation
        (world.pages scan.generation) := by
  have hrow : world.catalog.row = state := by rw [TopicCatalog.row, hstate, Option.getD_some]
  have hopened := h.opened scan.generation (by rw [hrow, howns.generation])
  rwa [hrow] at hopened

/-- The topics that a page marks. -/
theorem marked_seenAt (hnodup : page.ids.Nodup) (topicId : ℤ) :
    (world.catalog.writePage dialogId scan page now).seenAt (dialogId, topicId) =
        scan.generation ↔
      world.catalog.topics.seenAt (dialogId, topicId) = scan.generation ∨ topicId ∈ page.ids := by
  rw [TopicCatalog.writePage_seenAt _ hnodup]
  split_ifs with h
  · exact iff_of_true rfl (Or.inr h.2)
  · exact (or_iff_left fun hmem => h ⟨rfl, hmem⟩).symm

/-- The marks of a page stay below the sequence. -/
theorem Enumerated.marked_le (h : Enumerated dialogId world) (hnodup : page.ids.Nodup)
    (hscan : scan.generation ≤ world.catalog.sequence) (key : TopicKey) :
    (world.catalog.writePage dialogId scan page now).seenAt key ≤ world.catalog.sequence := by
  rw [TopicCatalog.writePage_seenAt _ hnodup]
  split_ifs
  · exact hscan
  · exact h.rows key

/-- An answer keeps the invariant. -/
theorem Enumerated.answer (h : Enumerated dialogId world) (hscan : scan ∈ world.issued)
    (hanswer : world.catalog.applyPageOutcome dialogId scan page now = .ok (outcome, catalog)) :
    Enumerated dialogId (world.record scan page outcome catalog) := by
  rcases TopicCatalog.applyPageOutcome_cases hanswer with ⟨rfl, -, hquiet⟩ |
    ⟨state, hstate, howns, hvalid, hcases⟩
  · exact h.quiet hquiet rfl rfl
  have hrow : world.catalog.row = state := by rw [TopicCatalog.row, hstate, Option.getD_some]
  obtain ⟨hpos, hle, hissued, htraversing⟩ := h.opened_of_owns hstate howns
  have hseen : ∀ topicId, topicId ∈ world.catalog.seen dialogId scan.generation ↔
      world.catalog.topics.seenAt (dialogId, topicId) = scan.generation := fun _ =>
    TopicCatalog.mem_seen hpos
  have hrevision := hissued scan hscan rfl
  have hlog : ∀ accepted ∈ world.accepted ++ [(⟨scan, page, outcome.complete⟩ : AcceptedPage)],
      accepted.scan.generation ≤ world.catalog.sequence := by
    intro accepted hmem
    rcases List.mem_append.mp hmem with hmem | hmem
    · exact h.log accepted hmem
    · rw [List.mem_singleton.mp hmem]
      exact hle
  have hissuedLe : ∀ scan' ∈ world.issued, scan'.generation ≤ world.catalog.sequence ∧
      scan'.revision ≤ state.revision := by
    rw [← hrow]
    exact h.issued
  rcases hcases with ⟨rfl, hcount, rfl⟩ | ⟨next, rfl, hnext, hcount, rfl⟩
  · rw [TopicWorld.record, if_pos rfl]
    refine ⟨fun key => ?_, hlog, hissuedLe, fun hnone => absurd hnone (Option.some_ne_none _),
      fun _ hnone => absurd hnone.symm (Option.some_ne_none _), fun _ => rfl,
      fun _ hnone => absurd hnone.symm (Option.some_ne_none _), fun generation => ?_⟩
    · rw [TopicCatalog.retireUnseen_seenAt]
      exact h.marked_le hvalid.nodup hle key
    · rw [pages_append]
      split_ifs with hgeneration
      · rw [← hgeneration]
        exact (h.sound scan.generation).append htraversing hseen hvalid
          fun hcomplete => Bool.noConfusion hcomplete
      · exact h.sound generation
  · have hnonempty : page.ids ≠ [] := by
      intro hnil
      refine hcount ?_
      rw [unionIds, hnil, List.append_nil, (TopicCatalog.seen_nodup _).dedup]
      exact hvalid.exhausted hnil
    rw [TopicWorld.record, if_pos rfl]
    refine ⟨fun key => h.marked_le hvalid.nodup hle key, hlog, hissuedLe,
      fun hnone => absurd hnone (Option.some_ne_none _), fun revision hrevision' => ?_,
      fun hnone => ?_, fun generation hgeneration => ?_, fun generation => ?_⟩
    · have hold := h.scanRevision revision
      rw [hrow] at hold
      exact hold hrevision'
    · exact absurd (hnone.symm.trans howns.generation).symm (Option.some_ne_none _)
    · obtain rfl : scan.generation = generation :=
        Option.some.inj (howns.generation.symm.trans hgeneration)
      refine ⟨hpos, hle, hissued, ?_⟩
      rw [pages_append, if_pos rfl]
      exact htraversing.advance ⟨scan, page, false⟩ hseen hvalid hnonempty hcount hrevision hnext
        (marked_seenAt hvalid.nodup) scan.observationOrder
    · rw [pages_append]
      split_ifs with hgeneration
      · rw [← hgeneration]
        exact (h.sound scan.generation).append htraversing hseen hvalid fun _ => hnonempty
      · exact h.sound generation

end Answer

/-- Every operation but the start of a page and an answer leaves the scan in place. -/
theorem perform_quiet (hbegin : operation ≠ .beginPage)
    (happly : ∀ scan page now, operation ≠ .applyPage scan page now)
    (hstep : world.perform dialogId operation = some world') :
    TopicCatalog.Quiet world.catalog world'.catalog ∧ world'.issued = world.issued ∧
      world'.accepted = world.accepted := by
  cases operation with
  | beginPage => exact absurd rfl hbegin
  | applyPage scan page now => exact absurd rfl (happly scan page now)
  | fail scan reason retryAt =>
    obtain rfl := Option.some.inj hstep
    exact ⟨TopicCatalog.quiet_fail .., rfl, rfl⟩
  | notApplicable scan =>
    obtain rfl := Option.some.inj hstep
    exact ⟨TopicCatalog.quiet_markNotApplicable .., rfl, rfl⟩
  | request reason =>
    obtain rfl := Option.some.inj hstep
    exact ⟨TopicCatalog.quiet_request .., rfl, rfl⟩
  | elsewhere =>
    obtain rfl := Option.some.inj hstep
    exact ⟨TopicCatalog.quiet_allocate _, rfl, rfl⟩
  | capability delivered capable =>
    obtain rfl := Option.some.inj hstep
    exact ⟨(TopicCatalog.quiet_deliveredOrder ..).trans (TopicCatalog.quiet_observeCapability ..),
      rfl, rfl⟩
  | snapshot order topics now =>
    obtain rfl := Option.some.inj hstep
    exact ⟨TopicCatalog.quiet_write (f := fun store => store.upsertTopics dialogId topics now order)
      _ fun key => TopicStore.upsertTopics_seenAt .., rfl, rfl⟩
  | create delivered topicId title iconEmojiId iconColor date observedAt =>
    obtain rfl := Option.some.inj hstep
    exact ⟨TopicCatalog.quiet_handleCreate .., rfl, rfl⟩
  | edit delivered topicId title iconEmojiId hidden observedAt =>
    obtain rfl := Option.some.inj hstep
    exact ⟨TopicCatalog.quiet_handleEdit .., rfl, rfl⟩
  | pin delivered topicId pinned observedAt =>
    obtain rfl := Option.some.inj hstep
    exact ⟨TopicCatalog.quiet_handlePin .., rfl, rfl⟩
  | pins delivered pinned observedAt =>
    obtain rfl := Option.some.inj hstep
    exact ⟨TopicCatalog.quiet_handlePins .., rfl, rfl⟩

/-- An answer to a scan that was issued, or a raised error. -/
theorem perform_applyPage {page : TopicPage} {now : ℤ}
    (hstep : world.perform dialogId (.applyPage scan page now) = some world') :
    scan ∈ world.issued ∧ (world' = world ∨ ∃ outcome catalog,
      world.catalog.applyPageOutcome dialogId scan page now = .ok (outcome, catalog) ∧
      world' = world.record scan page outcome catalog) := by
  simp only [TopicWorld.perform] at hstep
  split_ifs at hstep with hscan
  refine ⟨hscan, ?_⟩
  split at hstep
  next => exact Or.inl (Option.some.inj hstep).symm
  next outcome catalog hanswer => exact Or.inr ⟨outcome, catalog, hanswer, (Option.some.inj hstep).symm⟩

/-- Every operation keeps the invariant. -/
theorem Enumerated.step (h : Enumerated dialogId world)
    (hstep : world.perform dialogId operation = some world') : Enumerated dialogId world' := by
  by_cases hbegin : operation = .beginPage
  · rw [hbegin] at hstep
    exact h.beginPage hstep
  by_cases happly : ∃ scan page now, operation = .applyPage scan page now
  · obtain ⟨scan, page, now, rfl⟩ := happly
    obtain ⟨hscan, rfl | ⟨outcome, catalog, hanswer, rfl⟩⟩ := perform_applyPage hstep
    · exact h
    · exact h.answer hscan hanswer
  · obtain ⟨hquiet, hissued, haccepted⟩ := perform_quiet hbegin
      (fun scan page now heq => happly ⟨scan, page, now, heq⟩) hstep
    exact h.quiet hquiet hissued haccepted

/-- The invariant of every reachable world. -/
theorem enumerated_run {operations : List TopicOperation}
    (h : run (TopicWorld.perform dialogId) {} operations = some world) :
    Enumerated dialogId world :=
  run_invariant (fun _ _ _ hworld hstep => hworld.step hstep) (Enumerated.initial dialogId) h

end McpTelegram
