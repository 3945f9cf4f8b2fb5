import McpTelegram.Delta.DeletionOnce

/-!
# What a generation of the scan covers

A message that stays due in a dialog that stays eligible is followed from the start of a generation.
While it is ahead of the cursors no verified page has it; when they pass it, the one verified page
that takes them there has it.  So at the end of the generation it was verified exactly once.
-/

namespace McpTelegram

open Foundations

namespace DmScanWorld

variable {world next : DmScanWorld} {generation : ℕ} {scanStartedAt dialogId messageId : ℤ}
variable {state : DmDeletionCheckpoint} {now pageDialog : ℤ}
    {checkpoint : Option DmDeletionCheckpoint}

/-! ## The message that is followed -/

/-- The dialog is eligible, and the message is there, undeleted, and older than the scan. -/
def Stays (scanStartedAt dialogId messageId : ℤ) (world : DmScanWorld) : Prop :=
  world.tables.eligible dialogId = true ∧
    ∃ row, world.tables.messages.lookup (dialogId, messageId) = some row ∧
      row.isDeleted = false ∧ row.sentAt < scanStartedAt

/-- How many verified pages of a generation have the message. -/
def verifications (world : DmScanWorld) (generation : ℕ) (dialogId messageId : ℤ) : ℕ :=
  world.commits.countP fun commit =>
    commit.generation = generation ∧ commit.dialogId = dialogId ∧ messageId ∈ commit.page

/-- A message that stays and is ahead is due. -/
theorem due_of_ahead (hstays : Stays state.scanStartedAt dialogId messageId world)
    (hcursor : 0 ≤ state.messageCursor) (hahead : ¬ state.Passed dialogId messageId) :
    world.tables.due dialogId state.scanStartedAt
      (if state.dialogIdCursor = some dialogId then state.messageCursor else 0) messageId := by
  obtain ⟨-, row, hrow, hdeleted, hsent⟩ := hstays
  rw [DmTables.due, Bool.and_eq_true, decide_eq_true_eq, hrow]
  refine ⟨?_, ?_⟩
  · rw [Option.any_some, hdeleted, Bool.not_false, Bool.true_and]
    exact decide_eq_true hsent
  · split_ifs with hsame
    · by_contra hle
      exact hahead ⟨dialogId, hsame, Or.inr ⟨rfl, Or.inr (not_lt.mp hle)⟩⟩
    · apply world.tables.messages_pos (dialogId, messageId)
      rw [hrow]
      exact Option.some_ne_none row

/-- Either the cursors have passed the message and one verified page has it, or they have not and
none has it. -/
def Verified (world : DmScanWorld) (state : DmDeletionCheckpoint) (dialogId messageId : ℤ) :
    Prop :=
  state.Done dialogId messageId ∧ world.verifications state.generation dialogId messageId = 1 ∨
    ¬ state.Done dialogId messageId ∧ world.verifications state.generation dialogId messageId = 0

/-- The page of a slice does not jump over the message. -/
def Reaches (slice : DmSlice) (dialogId messageId : ℤ) : Prop :=
  ∀ pageDialog page, slice.page = some (pageDialog, page) →
    slice.state.Passed dialogId messageId ∨ pageDialog < dialogId ∨
      pageDialog = dialogId ∧ (messageId ∈ page ∨ ∀ other ∈ page, other < messageId)

/-- What is known about the message while its generation goes on. -/
structure Followed (world : DmScanWorld) (generation : ℕ)
    (scanStartedAt dialogId messageId : ℤ) : Prop where
  stored : ∃ state, world.checkpoint = some state ∧ generation ≤ state.generation ∧
    (generation = state.generation →
      state.scanStartedAt = scanStartedAt ∧ world.Verified state dialogId messageId ∧
        ∀ slice, world.slice = some slice → Reaches slice dialogId messageId)

/-- The verification of a page counts it if it has the message. -/
theorem verifications_commit {commit : DmCommit}
    (hcommits : next.commits = world.commits ++ [commit]) :
    next.verifications generation dialogId messageId =
      world.verifications generation dialogId messageId +
        if commit.generation = generation ∧ commit.dialogId = dialogId ∧ messageId ∈ commit.page
        then 1 else 0 := by
  rw [verifications, hcommits, List.countP_append, List.countP_singleton]
  simp only [decide_eq_true_eq]
  rfl

/-! ## One step -/

/-- A step that neither verifies a page nor passes the message keeps what is known of it. -/
theorem verified_same {state' : DmDeletionCheckpoint} (hfollows : state.Follows state')
    (hcommits : next.commits = world.commits)
    (hdone : state'.Done dialogId messageId → state.Done dialogId messageId)
    (hverified : world.Verified state dialogId messageId) :
    next.Verified state' dialogId messageId := by
  unfold Verified verifications
  rw [hcommits, hfollows.generation]
  exact hverified.imp (fun h => ⟨hfollows.done _ _ h.1, h.2⟩) (fun h => ⟨mt hdone h.1, h.2⟩)

/-- Preparation passes nothing. -/
theorem done_of_done_prepared (h : (state.prepared now).Done dialogId messageId) :
    state.Done dialogId messageId := by
  unfold DmDeletionCheckpoint.prepared at h
  split_ifs at h with hpolicy hrunning hverifying
  · exact h.imp (fun hidle => by cases hidle) id
  · exact h
  · exact h.imp (fun hidle => by cases hidle) id
  · exact h

/-- A selected page does not jump over a message that stays. -/
theorem reaches_select (hstays : Stays state.scanStartedAt dialogId messageId world)
    (hcursor : 0 ≤ state.messageCursor)
    (hnext : state.nextDialog world.tables.dialogIds = some pageDialog) :
    Reaches (.selected state pageDialog (world.tables.pageIds pageDialog state.scanStartedAt
      (if state.dialogIdCursor = some pageDialog then state.messageCursor else 0)))
      dialogId messageId := by
  intro pageDialog' page hpage
  obtain ⟨rfl, rfl⟩ := Prod.mk.inj (Option.some.inj hpage)
  by_cases hpassed : state.Passed dialogId messageId
  · exact Or.inl hpassed
  · right
    have hle := DmDeletionCheckpoint.nextDialog_le world.tables.dialogIds_sorted hcursor hnext
      (DmTables.mem_dialogIds hstays.1) hpassed
    rcases lt_or_eq_of_le hle with hlt | rfl
    · exact Or.inl hlt
    · exact Or.inr ⟨rfl, DmTables.mem_pageIds_or_gt (due_of_ahead hstays hcursor hpassed)⟩

/-- An empty page passes no message that stays. -/
theorem done_of_done_advance (hstays : Stays state.scanStartedAt dialogId messageId world)
    (hcursor : 0 ≤ state.messageCursor)
    (hnext : state.nextDialog world.tables.dialogIds = some pageDialog)
    (hempty : world.tables.pageIds pageDialog state.scanStartedAt
      (if state.dialogIdCursor = some pageDialog then state.messageCursor else 0) = [])
    (h : (state.moved pageDialog 0 now).Done dialogId messageId) :
    state.Done dialogId messageId := by
  rcases h with hidle | hpassed
  · cases hidle
  · right
    by_contra hahead
    have hle := DmDeletionCheckpoint.nextDialog_le world.tables.dialogIds_sorted hcursor hnext
      (DmTables.mem_dialogIds hstays.1) hahead
    rw [DmDeletionCheckpoint.passed_moved] at hpassed
    rcases hpassed with hlt | ⟨rfl, -⟩
    · exact absurd hlt (not_lt.mpr hle)
    · exact DmTables.not_due_of_pageIds_nil hempty (due_of_ahead hstays hcursor hahead)

/-- A verified page counts for the message exactly if it takes the cursors past it. -/
theorem verified_commit {page : List ℤ} (hverifying : state.status = .verifying)
    (hahead : PageAhead state pageDialog page)
    (hreaches : Reaches (.verified state pageDialog page) dialogId messageId)
    (hcommits : next.commits =
      world.commits ++ [{ generation := state.generation, dialogId := pageDialog, page }])
    (hverified : world.Verified state dialogId messageId) :
    next.Verified (state.moved pageDialog (page.getLastD 0) now) dialogId messageId := by
  have hfollows : state.Follows (state.moved pageDialog (page.getLastD 0) now) :=
    hahead.follows hverifying
  unfold Verified
  rw [verifications_commit hcommits]
  rcases hverified with ⟨hdone, hcount⟩ | ⟨hnot, hcount⟩
  · left
    refine ⟨hfollows.done _ _ hdone, ?_⟩
    have hother : ¬ (pageDialog = dialogId ∧ messageId ∈ page) := by
      rintro ⟨rfl, hmem⟩
      rcases hdone with hidle | hpassed
      · cases hidle.symm.trans hverifying
      · exact (hahead.ahead messageId hmem).2 hpassed
    rw [if_neg fun h => hother h.2]
    exact hcount
  · rcases hreaches pageDialog page rfl with hpassed | hlt | ⟨rfl, hmem | hbehind⟩
    · exact absurd (Or.inr hpassed) hnot
    · right
      constructor
      · rintro (hidle | hpassed)
        · cases hidle
        · rw [DmDeletionCheckpoint.passed_moved] at hpassed
          omega
      · rw [if_neg fun h => absurd h.2.1 hlt.ne]
        exact hcount
    · left
      refine ⟨Or.inr (hahead.passed hmem), ?_⟩
      rw [if_pos ⟨rfl, rfl, hmem⟩]
      exact congrArg (· + 1) hcount
    · right
      have hlast := hbehind _ hahead.last_mem
      have hpositive := (hahead.ahead _ hahead.last_mem).1
      constructor
      · rintro (hidle | hpassed)
        · cases hidle
        · rw [DmDeletionCheckpoint.passed_moved] at hpassed
          omega
      · rw [if_neg fun h => absurd (hbehind _ h.2.2) (lt_irrefl _)]
        exact hcount

/-- A step before which the message stays carries on what is known about it. -/
theorem followed_change (hsound : world.Sound)
    (hstays : Stays scanStartedAt dialogId messageId world)
    (hfollowed : world.Followed generation scanStartedAt dialogId messageId)
    (h : Change world next) : next.Followed generation scanStartedAt dialogId messageId := by
  refine ⟨reached_change hsound h ?_ hfollowed.stored⟩
  rintro state state' hstored hstored' hfollows ⟨rfl, hverified, hreaches⟩
  have hcursor : ∀ slice, world.slice = some slice → 0 ≤ state.messageCursor := by
    intro slice hslice
    obtain ⟨hheld, -, hpolicy⟩ := hsound.held _ hslice
    obtain rfl := Option.some.inj (hstored.symm.trans hheld)
    have hdecodes := hsound.decodes _ hstored
    rw [DmDeletionCheckpoint.decodes, if_pos hpolicy] at hdecodes
    exact DmDeletionCheckpoint.messageCursor_nonneg hdecodes
  refine ⟨hfollows.scanStartedAt, ?_⟩
  cases h with
  | write tables =>
    obtain rfl := Option.some.inj (hstored.symm.trans hstored')
    exact ⟨hverified, hreaches⟩
  | drop =>
    obtain rfl := Option.some.inj (hstored.symm.trans hstored')
    exact ⟨hverified, fun slice hslice => (by cases hslice)⟩
  | begin generation' now hfree hfresh hvalid =>
    obtain rfl := Option.some.inj hstored'
    have hsame : generation' = state.generation := hfollows.generation
    rcases hfresh with ⟨hnone, -⟩ | ⟨before, hbefore, -, hnewer⟩
    · cases hnone.symm.trans hstored
    · obtain rfl := Option.some.inj (hstored.symm.trans hbefore)
      omega
  | resume before hfree hbefore hrunning hpolicy =>
    obtain rfl := Option.some.inj (hstored.symm.trans hstored')
    refine ⟨hverified, ?_⟩
    intro slice hslice pageDialog page hpage
    obtain rfl := Option.some.inj hslice
    cases hpage
  | select before pageDialog page hslice hnext hpage hne =>
    obtain rfl := Option.some.inj (hstored.symm.trans hstored')
    obtain rfl := Option.some.inj (hstored.symm.trans (hsound.held _ hslice).1)
    refine ⟨hverified, ?_⟩
    intro slice hslice'
    obtain rfl := Option.some.inj hslice'
    rw [hpage]
    exact reaches_select hstays (hcursor _ hslice) hnext
  | complete before now hslice hnext hvalid =>
    obtain rfl := Option.some.inj (hstored.symm.trans (hsound.held _ hslice).1)
    obtain rfl := Option.some.inj hstored'
    refine ⟨verified_same hfollows rfl (fun _ => Or.inr ?_) hverified,
      fun slice hslice => (by cases hslice)⟩
    exact DmDeletionCheckpoint.passed_of_nextDialog_none (hcursor _ hslice) hnext
      (DmTables.mem_dialogIds hstays.1)
  | advance before pageDialog now hslice hnext hempty hvalid =>
    obtain rfl := Option.some.inj (hstored.symm.trans (hsound.held _ hslice).1)
    obtain rfl := Option.some.inj hstored'
    exact ⟨verified_same hfollows rfl
      (done_of_done_advance hstays (hcursor _ hslice) hnext hempty) hverified,
      fun slice hslice => (by cases hslice)⟩
  | claim before pageDialog page now hslice hvalid =>
    obtain rfl := Option.some.inj (hstored.symm.trans (hsound.held _ hslice).1)
    obtain rfl := Option.some.inj hstored'
    refine ⟨verified_same hfollows rfl (Or.imp (fun hidle => by cases hidle) id) hverified, ?_⟩
    intro slice hslice'
    obtain rfl := Option.some.inj hslice'
    exact hreaches (.selected state pageDialog page) hslice
  | verify before pageDialog page outcome hslice =>
    obtain rfl := Option.some.inj (hstored.symm.trans hstored')
    refine ⟨hverified, ?_⟩
    intro slice hslice'
    cases outcome with
    | success =>
      obtain rfl := Option.some.inj hslice'
      exact hreaches (.claimed before pageDialog page) hslice
    | deferred attempts =>
      dsimp only [afterVerify] at hslice'
      split_ifs at hslice'
      obtain rfl := Option.some.inj hslice'
      intro _ _ hpage
      cases hpage
    | throttled =>
      obtain rfl := Option.some.inj hslice'
      intro _ _ hpage
      cases hpage
    | failed => cases hslice'
  | commit before pageDialog page now hslice hvalid =>
    have hheld := hsound.held _ hslice
    obtain rfl := Option.some.inj (hstored.symm.trans hheld.1)
    obtain rfl := Option.some.inj hstored'
    exact ⟨verified_commit hheld.2.1 (hsound.ahead _ _ _ hslice rfl) (hreaches _ hslice) rfl
      hverified, fun slice hslice => (by cases hslice)⟩
  | restore _ _ hslice | suspend _ _ hslice =>
    obtain rfl := Option.some.inj (hstored.symm.trans (hsound.held _ hslice).1)
    obtain rfl := Option.some.inj hstored'
    exact ⟨verified_same hfollows rfl (Or.imp (fun hidle => by cases hidle) id) hverified,
      fun slice hslice => (by cases hslice)⟩
  | prepare now =>
    refine ⟨verified_same hfollows rfl (fun hdone => ?_) hverified,
      fun slice hslice => (by cases hslice)⟩
    obtain ⟨before, hbefore, rfl⟩ := Option.map_eq_some_iff.mp hstored'
    obtain rfl := Option.some.inj (hbefore.symm.trans hstored)
    split_ifs at hdone
    · exact done_of_done_prepared hdone
    · exact hdone

/-! ## Whole runs -/

/-- The three invariants together. -/
structure Kept (world : DmScanWorld) : Prop where
  sound : world.Sound
  commits : world.CommitsPassed
  dispatches : world.DispatchesAccounted

/-- A step keeps the invariants. -/
theorem kept_perform (world : DmScanWorld) (step : DmScanStep) (next : DmScanWorld)
    (hkept : world.Kept) (h : world.perform step = some next) : next.Kept := by
  have hchange := change_of_perform h
  exact ⟨sound_change hkept.sound hchange, commitsPassed_change hkept.sound hkept.commits hchange,
    dispatchesAccounted_change hkept.sound hkept.dispatches hchange⟩

/-- The invariants hold before the first step. -/
theorem kept_initial {tables : DmTables}
    (hdecodes : ∀ state, checkpoint = some state → state.decodes = true) :
    Kept { tables, checkpoint } := by
  refine ⟨⟨hdecodes, ?_, ?_⟩, ⟨?_, ?_, List.Pairwise.nil⟩, ⟨?_, ?_, List.Pairwise.nil⟩⟩
  · intro slice hslice
    cases hslice
  · intro slice dialogId page hslice
    cases hslice
  all_goals
    intro entry hentry
    exact absurd hentry List.not_mem_nil

/-- In every later state the scan is verifying or suspended. -/
def NeverRuns (world : DmScanWorld) : Prop :=
  ∀ later final, run perform world later = some final →
    ∃ state, final.checkpoint = some state ∧
      (state.status = .verifying ∨ state.status = .suspended)

/-- In every later state the scan is suspended. -/
def StaysSuspended (world : DmScanWorld) : Prop :=
  ∀ later final, run perform world later = some final →
    ∃ state, final.checkpoint = some state ∧ state.status = .suspended

/-- A stopped scan never runs. -/
theorem neverRuns_of_halted (h : world.Halted) : world.NeverRuns := by
  intro later final hrun
  have hhalted : final.Halted := run_invariant
    (fun _ _ _ hhalted hstep => halted_change (change_of_perform hstep) hhalted) h hrun
  exact hhalted.1

/-- A suspended scan stays suspended. -/
theorem staysSuspended_of_suspended (h : world.Suspended) : world.StaysSuspended := by
  intro later final hrun
  have hsuspended : final.Suspended := run_invariant
    (fun _ _ _ hsuspended hstep => suspended_change (change_of_perform hstep) hsuspended) h hrun
  exact hsuspended.2

/-- A page whose verification ends neither well nor without a dispatch stops the scan. -/
theorem halted_verify {outcome : DmPageOutcome} (hsound : world.Sound)
    (hsuccess : outcome ≠ .success) (hsent : outcome ≠ .deferred 0)
    (h : world.perform (.verify outcome) = some next) : next.Halted := by
  dsimp only [perform] at h
  split at h
  next state dialogId page hslice =>
    obtain rfl := Option.some.inj h
    obtain ⟨hstored, hstatus, -⟩ := hsound.held _ hslice
    refine ⟨⟨state, hstored, Or.inl hstatus⟩, ?_⟩
    cases outcome with
    | success => exact absurd rfl hsuccess
    | deferred attempts =>
      have hattempts : attempts ≠ 0 :=
        fun hzero => hsent (congrArg DmPageOutcome.deferred hzero)
      exact Or.inl (if_neg hattempts)
    | throttled => exact Or.inr ⟨state, rfl⟩
    | failed => exact Or.inl rfl
  next => cases h

/-- The next process suspends a scan that was verifying. -/
theorem suspended_restart (hsound : world.Sound) (hstored : world.checkpoint = some state)
    (hverifying : state.status = .verifying) (hnow : 0 ≤ now)
    (h : world.perform (.restart now) = some next) : next.Suspended := by
  obtain rfl := Option.some.inj h
  refine ⟨rfl, _, by rw [hstored]; rfl, ?_⟩
  have hdecodes := hsound.decodes state hstored
  have hpolicy : state.currentPolicy = true := by
    by_contra hlegacy
    rw [DmDeletionCheckpoint.decodes, if_neg hlegacy, hverifying] at hdecodes
    simp at hdecodes
  rw [DmDeletionCheckpoint.decodes, if_pos hpolicy] at hdecodes
  have hprepared : state.prepared now = state.transition .suspended (some "interrupted") now := by
    rw [DmDeletionCheckpoint.prepared, if_neg (by rw [hpolicy]; decide), if_pos hverifying]
  have hvalid := DmDeletionCheckpoint.valid_transition hdecodes hverifying
    (Or.inr ⟨rfl, Or.inl rfl⟩) hnow
  dsimp only
  rw [hprepared, if_pos hvalid]
  rfl

/-- The handler of a throttle suspends the scan. -/
theorem suspended_throttle (hsound : world.Sound) (hslice : world.slice = some (.throttled state))
    (hnow : 0 ≤ now) (h : world.perform (.settle now) = some next) : next.Suspended := by
  obtain ⟨hstored, hverifying, hpolicy⟩ := hsound.held _ hslice
  have hdecodes := hsound.decodes _ hstored
  rw [DmDeletionCheckpoint.decodes, if_pos hpolicy] at hdecodes
  have hvalid := DmDeletionCheckpoint.valid_transition hdecodes hverifying
    (Or.inr ⟨rfl, Or.inr rfl⟩) hnow
  simp only [perform, hslice] at h
  obtain rfl := Option.some.inj h
  unfold transitionOrEnd writeTransition
  rw [if_pos ⟨hstored, hvalid⟩]
  exact ⟨rfl, _, rfl, rfl⟩

/-- A start that changes the checkpoint begins a newer generation. -/
theorem startScan_begins (hbegins : (startScan checkpoint now).1 ≠ checkpoint) :
    ∃ generation, startScan checkpoint now =
        (some (.first generation now), some (.first generation now)) ∧
      ∀ state, checkpoint = some state → state.generation < generation := by
  unfold startScan at hbegins ⊢
  cases checkpoint with
  | none =>
    dsimp only at hbegins ⊢
    split_ifs at hbegins ⊢
    · exact ⟨1, rfl, fun state hstate => by cases hstate⟩
    · exact absurd rfl hbegins
  | some state =>
    dsimp only at hbegins ⊢
    split_ifs at hbegins ⊢
    · refine ⟨state.generation + 1, rfl, fun state' hstate => ?_⟩
      obtain rfl := Option.some.inj hstate
      exact Nat.lt_succ_self _
    all_goals exact absurd rfl hbegins

/-- A message is followed from the start of a generation. -/
theorem followed_start (hkept : world.Kept) (h : world.perform (.start now) = some next)
    (hbegins : next.checkpoint ≠ world.checkpoint) :
    ∃ generation, next.checkpoint = some (.first generation now) ∧
      next.Followed generation now dialogId messageId := by
  dsimp only [perform] at h
  split at h
  next hfree =>
    obtain rfl := Option.some.inj h
    obtain ⟨generation, hstart, hnewer⟩ := startScan_begins hbegins
    refine ⟨generation, by rw [hstart],
      ⟨.first generation now, by rw [hstart], le_rfl, fun _ => ?_⟩⟩
    refine ⟨rfl, Or.inr ⟨?_, ?_⟩, ?_⟩
    · rintro (hidle | hpassed)
      · cases hidle
      · exact DmDeletionCheckpoint.not_passed_first hpassed
    · refine List.countP_eq_zero.mpr fun commit hcommit hcounted => ?_
      obtain ⟨state, hstored, hle, -⟩ := hkept.commits.passed commit hcommit
      have hlt := hnewer state hstored
      have hsame : commit.generation = generation := (of_decide_eq_true hcounted).1
      omega
    · rw [hstart]
      intro slice hslice pageDialog page hpage
      obtain rfl := Option.some.inj hslice
      cases hpage
  next => cases h

/-- While the message stays, what is known about it is carried along a run. -/
theorem followed_run {later : List DmScanStep} {final : DmScanWorld} (hkept : world.Kept)
    (hfollowed : world.Followed generation scanStartedAt dialogId messageId) (hstays : Along perform
      (fun world _ => Stays scanStartedAt dialogId messageId world) world later)
    (h : run perform world later = some final) :
    final.Followed generation scanStartedAt dialogId messageId := by
  have hboth : final.Kept ∧ final.Followed generation scanStartedAt dialogId messageId := by
    refine run_along
      (I := fun world => world.Kept ∧ world.Followed generation scanStartedAt dialogId messageId)
      ?_ ⟨hkept, hfollowed⟩ hstays h
    rintro world step next ⟨hkept, hfollowed⟩ hstays hstep
    exact ⟨kept_perform world step next hkept hstep,
      followed_change hkept.sound hstays hfollowed (change_of_perform hstep)⟩
  exact hboth.2

/-- In every run the verified pages of a generation come in increasing positions; a message of a
dispatched page is dispatched again only if the earlier attempt made no dispatch; a page that is
interrupted or throttled leaves a scan that never runs again and is suspended by its handler or by
the next process; and when a generation returns to idle, each message that stayed was in exactly one
of its verified pages. -/
theorem dm_deletion_scan {tables : DmTables} {checkpoint : Option DmDeletionCheckpoint}
    (hdecodes : ∀ state, checkpoint = some state → state.decodes = true) {steps : List DmScanStep}
    {world : DmScanWorld} (h : run perform { tables, checkpoint } steps = some world) :
    (world.commits.Pairwise fun earlier later => earlier.generation = later.generation →
      earlier.position < later.position) ∧
    (world.dispatches.Pairwise fun earlier later => earlier.generation = later.generation →
      earlier.dialogId = later.dialogId →
      (∃ messageId, messageId ∈ earlier.page ∧ messageId ∈ later.page) →
      earlier.unsent = true) ∧
    (∀ dispatch ∈ world.dispatches, dispatch.page.Nodup) ∧
    (∀ state, world.checkpoint = some state → state.status = .verifying →
      (∀ outcome next, outcome ≠ .success → outcome ≠ .deferred 0 →
        world.perform (.verify outcome) = some next → next.NeverRuns) ∧
      (∀ next, world.perform .abandon = some next → next.NeverRuns) ∧
      (∀ claimed now next, world.slice = some (.throttled claimed) → 0 ≤ now →
        world.perform (.settle now) = some next → next.StaysSuspended) ∧
      (∀ now next, 0 ≤ now → world.perform (.restart now) = some next → next.StaysSuspended)) ∧
    (∀ now started later final dialogId messageId,
      world.perform (.start now) = some started → started.checkpoint ≠ world.checkpoint →
      Along perform (fun world _ => Stays now dialogId messageId world) started later →
      run perform started later = some final →
      ∃ first state, started.checkpoint = some first ∧ final.checkpoint = some state ∧
        (state.generation = first.generation → state.status = .idle →
          final.verifications first.generation dialogId messageId = 1)) := by
  have hkept : world.Kept := run_invariant kept_perform (kept_initial hdecodes) h
  refine ⟨hkept.commits.ordered, ?_, hkept.dispatches.nodup, ?_, ?_⟩
  · refine hkept.dispatches.apart.imp fun happart hgeneration hdialog hshared => ?_
    obtain ⟨messageId, hearlier, hlater⟩ := hshared
    by_contra hsent
    exact happart (Bool.eq_false_iff.mpr hsent) hgeneration hdialog messageId hearlier hlater
  · intro state hstored hverifying
    refine ⟨?_, ?_, ?_, ?_⟩
    · intro outcome next hsuccess hsent hstep
      exact neverRuns_of_halted (halted_verify hkept.sound hsuccess hsent hstep)
    · intro next hstep
      obtain rfl := Option.some.inj hstep
      exact neverRuns_of_halted ⟨⟨state, hstored, Or.inl hverifying⟩, Or.inl rfl⟩
    · intro claimed now next hslice hnow hstep
      exact staysSuspended_of_suspended (suspended_throttle hkept.sound hslice hnow hstep)
    · intro now next hnow hstep
      exact staysSuspended_of_suspended
        (suspended_restart hkept.sound hstored hverifying hnow hstep)
  · intro now started later final dialogId messageId hstart hbegins hstays hlater
    obtain ⟨generation, hfirst, hfollowed⟩ := followed_start hkept hstart hbegins
    have hkept' := kept_perform world _ started hkept hstart
    obtain ⟨state, hstored, -, hknown⟩ := (followed_run hkept' hfollowed hstays hlater).stored
    refine ⟨_, state, hfirst, hstored, fun hgeneration hidle => ?_⟩
    obtain ⟨-, hverified, -⟩ := hknown hgeneration.symm
    rcases hverified with ⟨-, hcount⟩ | ⟨hnot, -⟩
    · rw [hgeneration] at hcount
      exact hcount
    · exact absurd (Or.inl hidle) hnot

/-- One dialog with two messages. -/
def sampleTables : DmTables where
  messages := ((∅ : Dictionary (ℤ × ℤ) DmMessageRow).insert (5, 10) { sentAt := 1 }).insert (5, 11)
    { sentAt := 2 }
  syncStatus := (∅ : Dictionary ℤ String).insert 5 "synced"
  enrolled := (∅ : Dictionary ℤ Bool).insert 5 true
  entityType := (∅ : Dictionary ℤ String).insert 5 "user"
  messages_pos := by
    intro key hstored
    by_contra hnot
    have hne : key ≠ (5, 10) ∧ key ≠ (5, 11) := by
      constructor <;> rintro rfl <;> exact hnot (by decide)
    rw [Dictionary.lookup_insert_eq, if_neg hne.2, Dictionary.lookup_insert_eq, if_neg hne.1]
      at hstored
    exact hstored rfl

/-- A generation whose first request is throttled. -/
theorem dm_deletion_scan_sample : ∃ world,
    run perform { tables := sampleTables, checkpoint := none }
      [.start 100, .select 101, .claim 102, .verify (.deferred 0), .settle 103, .start 104,
        .select 105, .claim 106, .verify .success] = some world ∧
    world.dispatches.Pairwise (fun earlier later => earlier.generation = later.generation →
      earlier.dialogId = later.dialogId →
      (∃ messageId, messageId ∈ earlier.page ∧ messageId ∈ later.page) →
      earlier.unsent = true) ∧
    world.dispatches.length = 2 := by
  obtain ⟨world, hworld⟩ := Option.isSome_iff_exists.mp
    (show (run perform { tables := sampleTables, checkpoint := none }
      [.start 100, .select 101, .claim 102, .verify (.deferred 0), .settle 103, .start 104,
        .select 105, .claim 106, .verify .success]).isSome = true by decide +kernel)
  have hlength : (run perform { tables := sampleTables, checkpoint := none }
      [.start 100, .select 101, .claim 102, .verify (.deferred 0), .settle 103, .start 104,
        .select 105, .claim 106, .verify .success]).map (fun world => world.dispatches.length) =
      some 2 := by
    decide +kernel
  rw [hworld, Option.map_some] at hlength
  exact ⟨world, hworld, (dm_deletion_scan (fun state hstate => by cases hstate) hworld).2.1,
    Option.some.inj hlength⟩

end DmScanWorld

end McpTelegram
