import McpTelegram.Delta.DeletionProgress

/-!
# The scan asks once

The records of dispatched and verified pages against the cursors of the checkpoint.  A verified page
is passed by the cursors of its generation, so verified pages come in increasing positions.  A
dispatched page is passed, or is about to be, or the scan stands still; so a message is given to the
scanner again only if the earlier attempt made no dispatch.
-/

namespace McpTelegram

open Foundations

variable {state : DmDeletionCheckpoint}
variable {dialogId now : ℤ} {page : List ℤ} {state' : DmDeletionCheckpoint}

namespace DmDeletionCheckpoint

variable {state : DmDeletionCheckpoint}

/-- A generation has finished, or its cursors have passed a message. -/
def Done (state : DmDeletionCheckpoint) (dialogId messageId : ℤ) : Prop :=
  state.status = .idle ∨ state.Passed dialogId messageId

/-- The next state of the same generation, which passes no less. -/
structure Follows (state next : DmDeletionCheckpoint) : Prop where
  generation : next.generation = state.generation
  scanStartedAt : next.scanStartedAt = state.scanStartedAt
  done : ∀ dialogId messageId, state.Done dialogId messageId → next.Done dialogId messageId

theorem Follows.refl (state : DmDeletionCheckpoint) : Follows state state :=
  ⟨rfl, rfl, fun _ _ h => h⟩

theorem follows_transition {status : DmScanStatus} {reason : Option String} {changedAt : ℤ}
    (h : state.status = .idle → status = .idle) :
    Follows state (state.transition status reason changedAt) :=
  ⟨rfl, rfl, fun _ _ hdone => hdone.imp h id⟩

/-- Preparation keeps the place. -/
theorem follows_prepared (state : DmDeletionCheckpoint) (changedAt : ℤ) :
    Follows state (state.prepared changedAt) := by
  unfold prepared
  split_ifs with hpolicy hrunning hverifying
  · refine follows_transition fun hidle => ?_
    rw [hidle] at hrunning
    cases hrunning
  · exact follows_transition id
  · refine follows_transition fun hidle => ?_
    rw [hidle] at hverifying
    cases hverifying
  · exact .refl state

/-- An empty dialog moves the cursors on. -/
theorem follows_advance {dialogIds : List ℤ} (hrunning : state.status = .running)
    (hnext : state.nextDialog dialogIds = some dialogId) :
    Follows state (state.moved dialogId 0 now) := by
  refine ⟨rfl, rfl, fun dialogId' messageId hdone => Or.inr ?_⟩
  rw [passed_moved]
  rcases hdone with hidle | ⟨cursor, hcursor, hplace⟩
  · rw [hidle] at hrunning
    cases hrunning
  · have hle : cursor ≤ dialogId := by
      rcases (nextDialog_spec hnext).2 with ⟨hsame, -⟩ | hbehind
      · rw [hsame] at hcursor
        obtain rfl := Option.some.inj hcursor
        exact le_rfl
      · exact (hbehind cursor hcursor).le
    have hle' : dialogId' ≤ cursor := by
      rcases hplace with hlt | ⟨rfl, -⟩
      · exact hlt.le
      · exact le_rfl
    rcases lt_or_eq_of_le (hle'.trans hle) with hlt | heq
    · exact Or.inl hlt
    · exact Or.inr ⟨heq, Or.inl rfl⟩

end DmDeletionCheckpoint

/-- A verified page moves the cursors on. -/
theorem PageAhead.follows (h : PageAhead state dialogId page)
    (hverifying : state.status = .verifying) :
    state.Follows (state.moved dialogId (page.getLastD 0) now) := by
  refine ⟨rfl, rfl, fun dialogId' messageId hdone => Or.inr ?_⟩
  rcases hdone with hidle | hpassed
  · rw [hidle] at hverifying
    cases hverifying
  · exact h.passed_moved hpassed

/-- The messages of a verified page are passed. -/
theorem PageAhead.passed {messageId : ℤ} (h : PageAhead state dialogId page)
    (hmem : messageId ∈ page) :
    (state.moved dialogId (page.getLastD 0) now).Passed dialogId messageId := by
  rw [DmDeletionCheckpoint.passed_moved]
  exact Or.inr ⟨rfl, Or.inr (h.le_last hmem)⟩

namespace DmScanWorld

variable {world next : DmScanWorld}

/-! ## The stored state after a step -/

/-- A stored state follows the one before, or its generation is newer than any before. -/
theorem checkpoint_change (hsound : world.Sound) (h : Change world next)
    (hstate : next.checkpoint = some state') :
    (∃ state, world.checkpoint = some state ∧ state.Follows state') ∨
      ∀ state, world.checkpoint = some state → state.generation < state'.generation := by
  have hsame : next.checkpoint = world.checkpoint →
      ∃ state, world.checkpoint = some state ∧ state.Follows state' := by
    intro heq
    exact ⟨state', heq ▸ hstate, .refl state'⟩
  cases h with
  | write | drop | resume | select | verify => exact Or.inl (hsame rfl)
  | begin generation now hfree hfresh hvalid =>
    right
    obtain rfl := Option.some.inj hstate
    intro state hstored
    rcases hfresh with ⟨hnone, -⟩ | ⟨state', hstored', -, rfl⟩
    · rw [hnone] at hstored
      cases hstored
    · rw [hstored'] at hstored
      obtain rfl := Option.some.inj hstored
      exact Nat.lt_succ_self _
  | complete state now hslice hnext hvalid =>
    left
    obtain rfl := Option.some.inj hstate
    exact ⟨state, (hsound.held _ hslice).1, rfl, rfl, fun _ _ _ => Or.inl rfl⟩
  | advance state dialogId now hslice hnext hempty hvalid =>
    left
    obtain rfl := Option.some.inj hstate
    have hheld := hsound.held _ hslice
    exact ⟨state, hheld.1, DmDeletionCheckpoint.follows_advance hheld.2.1 hnext⟩
  | commit state dialogId page now hslice hvalid =>
    left
    obtain rfl := Option.some.inj hstate
    have hheld := hsound.held _ hslice
    exact ⟨state, hheld.1, (hsound.ahead _ _ _ hslice rfl).follows hheld.2.1⟩
  | claim | restore | suspend =>
    left
    obtain rfl := Option.some.inj hstate
    have hheld := hsound.held _ ‹world.slice = some _›
    refine ⟨_, hheld.1, DmDeletionCheckpoint.follows_transition fun hidle => ?_⟩
    cases hidle.symm.trans hheld.2.1
  | prepare now =>
    left
    obtain ⟨state, hstored, rfl⟩ := Option.map_eq_some_iff.mp hstate
    refine ⟨state, hstored, ?_⟩
    split_ifs
    · exact state.follows_prepared now
    · exact .refl state

/-- A checkpoint that is stored stays stored. -/
theorem checkpoint_none (h : Change world next) (hnone : next.checkpoint = none) :
    world.checkpoint = none := by
  cases h with
  | write | drop | resume | select | verify => exact hnone
  | begin | complete | advance | claim | commit | restore | suspend => cases hnone
  | prepare now => exact Option.map_eq_none_iff.mp hnone

/-- What was said about the states of a generation is carried on by a step. -/
theorem reached_change (hsound : world.Sound) (h : Change world next) {generation : ℕ}
    {P P' : DmDeletionCheckpoint → Prop}
    (hcarry : ∀ state state', world.checkpoint = some state → next.checkpoint = some state' →
      state.Follows state' → P state → P' state')
    (hreached : ∃ state, world.checkpoint = some state ∧ generation ≤ state.generation ∧
      (generation = state.generation → P state)) :
    ∃ state, next.checkpoint = some state ∧ generation ≤ state.generation ∧
      (generation = state.generation → P' state) := by
  obtain ⟨state, hstored, hle, hholds⟩ := hreached
  cases hstored' : next.checkpoint with
  | none =>
    rw [checkpoint_none h hstored'] at hstored
    cases hstored
  | some state' =>
    refine ⟨state', rfl, ?_⟩
    rcases checkpoint_change hsound h hstored' with ⟨before, hbefore, hfollows⟩ | hnewer
    · obtain rfl := Option.some.inj (hstored.symm.trans hbefore)
      rw [hfollows.generation]
      exact ⟨hle, fun hsame => hcarry state state' hstored hstored' hfollows (hholds hsame)⟩
    · have hlt := hnewer state hstored
      exact ⟨hle.trans hlt.le, fun hsame => absurd (hsame ▸ hle) (by omega)⟩

end DmScanWorld

/-! ## Verified pages -/

/-- The place that a verified page moves the cursors to. -/
def DmCommit.position (commit : DmCommit) : ℤ ×ₗ ℤ :=
  toLex (commit.dialogId, commit.page.getLastD 0)

namespace DmScanWorld

variable {world next : DmScanWorld}
variable {state : DmDeletionCheckpoint} {dialogId messageId : ℤ}

/-- The verified pages are passed, in their order. -/
structure CommitsPassed (world : DmScanWorld) : Prop where
  passed : ∀ commit ∈ world.commits, ∃ state, world.checkpoint = some state ∧
    commit.generation ≤ state.generation ∧ (commit.generation = state.generation →
      ∀ messageId ∈ commit.page, state.Done commit.dialogId messageId)
  last : ∀ commit ∈ world.commits, commit.page.getLastD 0 ∈ commit.page
  ordered : world.commits.Pairwise fun earlier later => earlier.generation = later.generation →
    earlier.position < later.position

/-- A step that verifies nothing keeps the verified pages passed. -/
theorem commitsPassed_same (hsound : world.Sound) (hpassed : world.CommitsPassed)
    (h : Change world next) (hsame : next.commits = world.commits) : next.CommitsPassed := by
  refine ⟨?_, ?_, ?_⟩
  · intro commit hcommit
    rw [hsame] at hcommit
    refine reached_change hsound h ?_ (hpassed.passed commit hcommit)
    intro state state' _ _ hfollows hdone messageId hmem
    exact hfollows.done _ _ (hdone messageId hmem)
  · rw [hsame]
    exact hpassed.last
  · rw [hsame]
    exact hpassed.ordered

/-- Every step keeps the verified pages passed. -/
theorem commitsPassed_change (hsound : world.Sound) (hpassed : world.CommitsPassed)
    (h : Change world next) : next.CommitsPassed := by
  by_cases hsame : next.commits = world.commits
  · exact commitsPassed_same hsound hpassed h hsame
  cases h with
  | commit state dialogId page now hslice hvalid =>
    have hchange := Change.commit state dialogId page now hslice hvalid
    obtain ⟨hstored, hstatus, -⟩ := hsound.held _ hslice
    have hahead : PageAhead state dialogId page := hsound.ahead _ _ _ hslice rfl
    refine ⟨?_, ?_, ?_⟩
    · intro commit hcommit
      rcases List.mem_append.mp hcommit with hcommit | hcommit
      · refine reached_change hsound hchange ?_ (hpassed.passed commit hcommit)
        intro state state' _ _ hfollows hdone messageId hmem
        exact hfollows.done _ _ (hdone messageId hmem)
      · obtain rfl := List.mem_singleton.mp hcommit
        refine ⟨_, rfl, le_rfl, fun _ messageId hmem => Or.inr ?_⟩
        exact hahead.passed hmem
    · intro commit hcommit
      rcases List.mem_append.mp hcommit with hcommit | hcommit
      · exact hpassed.last commit hcommit
      · obtain rfl := List.mem_singleton.mp hcommit
        exact hahead.last_mem
    · refine List.pairwise_append.mpr ⟨hpassed.ordered, List.pairwise_singleton _ _, ?_⟩
      intro earlier hearlier later hlater hgeneration
      obtain rfl := List.mem_singleton.mp hlater
      obtain ⟨stored, hstored', -, hdone⟩ := hpassed.passed earlier hearlier
      obtain rfl := Option.some.inj (hstored'.symm.trans hstored)
      rcases hdone hgeneration _ (hpassed.last earlier hearlier) with hidle | hplace
      · cases hidle.symm.trans hstatus
      · exact DmDeletionCheckpoint.lt_of_passed hplace (hahead.ahead _ hahead.last_mem).2
  | _ => exact absurd rfl hsame

/-! ## Dispatched pages -/

/-- The scan stands still: no slice goes on with its claim, and no new one starts. -/
def Halted (world : DmScanWorld) : Prop :=
  (∃ state, world.checkpoint = some state ∧
    (state.status = .verifying ∨ state.status = .suspended)) ∧
    (world.slice = none ∨ ∃ state, world.slice = some (.throttled state))

/-- A dispatched message is passed, or it is about to be, or the scan stands still. -/
def Accounted (world : DmScanWorld) (state : DmDeletionCheckpoint) (dialogId messageId : ℤ) :
    Prop :=
  state.Done dialogId messageId ∨ world.Halted ∨
    ∃ page, world.slice = some (.verified state dialogId page) ∧ messageId ∈ page

/-- Where no slice holds a dispatched page, the accounted messages are done. -/
theorem done_of_accounted {slice : DmSlice} (h : world.Accounted state dialogId messageId)
    (hslice : world.slice = some slice)
    (hverified : ∀ state dialogId page, slice ≠ .verified state dialogId page)
    (hthrottled : ∀ state, slice ≠ .throttled state) : state.Done dialogId messageId := by
  rcases h with hdone | ⟨-, hnone | ⟨state', hsome⟩⟩ | ⟨page, hsome, -⟩
  · exact hdone
  · cases hslice.symm.trans hnone
  · exact absurd (Option.some.inj (hslice.symm.trans hsome)) (hthrottled state')
  · exact absurd (Option.some.inj (hslice.symm.trans hsome)) (hverified _ _ _)

/-- Preparation does not set a stopped scan running. -/
theorem stopped_prepare {checkpoint : Option DmDeletionCheckpoint}
    (hstored : checkpoint = some state)
    (hstatus : state.status = .verifying ∨ state.status = .suspended) :
    ∃ state', (checkpoint.map fun state =>
        if (state.prepared now).valid then state.prepared now else state) = some state' ∧
      (state'.status = .verifying ∨ state'.status = .suspended) := by
  subst hstored
  refine ⟨_, rfl, ?_⟩
  dsimp only
  split_ifs
  · unfold DmDeletionCheckpoint.prepared
    split_ifs with hpolicy hrunning hverifying
    · rw [hrunning] at hstatus
      rcases hstatus with hstatus | hstatus <;> cases hstatus
    · exact hstatus
    · exact Or.inr rfl
    · exact hstatus
  · exact hstatus

/-- A step carries the account of a dispatched message on. -/
theorem accounted_change (hsound : world.Sound) (h : Change world next)
    (hstored : world.checkpoint = some state) (hstored' : next.checkpoint = some state')
    (hfollows : state.Follows state') (haccount : world.Accounted state dialogId messageId) :
    next.Accounted state' dialogId messageId := by
  have hcarry : state.Done dialogId messageId → next.Accounted state' dialogId messageId :=
    fun hdone => Or.inl (hfollows.done _ _ hdone)
  cases h with
  | write tables =>
    obtain rfl := Option.some.inj (hstored.symm.trans hstored')
    exact haccount
  | drop =>
    obtain rfl := Option.some.inj (hstored.symm.trans hstored')
    rcases haccount with hdone | ⟨hstatus, -⟩ | ⟨page, hslice, -⟩
    · exact hcarry hdone
    · exact Or.inr (Or.inl ⟨hstatus, Or.inl rfl⟩)
    · exact Or.inr (Or.inl ⟨⟨state, hstored, Or.inl (hsound.held _ hslice).2.1⟩, Or.inl rfl⟩)
  | begin generation now hfree hfresh hvalid =>
    obtain rfl := Option.some.inj hstored'
    rcases hfresh with ⟨hnone, -⟩ | ⟨before, hbefore, hidle, hnewer⟩
    · cases hnone.symm.trans hstored
    · obtain rfl := Option.some.inj (hstored.symm.trans hbefore)
      exact hcarry (Or.inl hidle)
  | resume before hfree hbefore hrunning hpolicy =>
    obtain rfl := Option.some.inj (hstored.symm.trans hbefore)
    rcases haccount with hdone | ⟨⟨before, hbefore', hstatus⟩, -⟩ | ⟨page, hslice, -⟩
    · exact hcarry hdone
    · obtain rfl := Option.some.inj (hbefore'.symm.trans hbefore)
      rw [hrunning] at hstatus
      rcases hstatus with hstatus | hstatus <;> cases hstatus
    · cases hslice.symm.trans hfree
  | select | complete | advance | claim | verify | restore =>
    exact hcarry (done_of_accounted haccount ‹world.slice = some _› (fun _ _ _ h => by cases h)
      (fun _ h => by cases h))
  | commit before dialogId' page now hslice hvalid =>
    obtain rfl := Option.some.inj hstored'
    rcases haccount with hdone | ⟨-, hnone | ⟨other, hsome⟩⟩ | ⟨page', hsome, hmem⟩
    · exact hcarry hdone
    · cases hslice.symm.trans hnone
    · cases hslice.symm.trans hsome
    · cases hslice.symm.trans hsome
      exact Or.inl (Or.inr ((hsound.ahead _ _ _ hslice rfl).passed hmem))
  | suspend before now hslice hvalid =>
    exact Or.inr (Or.inl ⟨⟨_, rfl, Or.inr rfl⟩, Or.inl rfl⟩)
  | prepare now =>
    rcases haccount with hdone | ⟨⟨before, hbefore, hstatus⟩, -⟩ | ⟨page, hslice, -⟩
    · exact hcarry hdone
    · exact Or.inr (Or.inl ⟨stopped_prepare hbefore hstatus, Or.inl rfl⟩)
    · have hheld := hsound.held _ hslice
      exact Or.inr (Or.inl ⟨stopped_prepare hheld.1 (Or.inl hheld.2.1), Or.inl rfl⟩)

/-- The dispatched pages are accounted for. -/
structure DispatchesAccounted (world : DmScanWorld) : Prop where
  accounted : ∀ dispatch ∈ world.dispatches, dispatch.unsent = false →
    ∃ state, world.checkpoint = some state ∧ dispatch.generation ≤ state.generation ∧
      (dispatch.generation = state.generation →
        ∀ messageId ∈ dispatch.page, world.Accounted state dispatch.dialogId messageId)
  nodup : ∀ dispatch ∈ world.dispatches, dispatch.page.Nodup
  apart : world.dispatches.Pairwise fun earlier later => earlier.unsent = false →
    earlier.generation = later.generation → earlier.dialogId = later.dialogId →
    ∀ messageId ∈ earlier.page, messageId ∉ later.page

/-- A step that dispatches nothing keeps the dispatched pages accounted for. -/
theorem dispatchesAccounted_same (hsound : world.Sound) (hdispatches : world.DispatchesAccounted)
    (h : Change world next) (hsame : next.dispatches = world.dispatches) :
    next.DispatchesAccounted := by
  refine ⟨?_, ?_, ?_⟩
  · intro dispatch hdispatch hsent
    rw [hsame] at hdispatch
    refine reached_change hsound h ?_ (hdispatches.accounted dispatch hdispatch hsent)
    intro state state' hstored hstored' hfollows haccount messageId hmem
    exact accounted_change hsound h hstored hstored' hfollows (haccount messageId hmem)
  · rw [hsame]
    exact hdispatches.nodup
  · rw [hsame]
    exact hdispatches.apart

/-- After the verification of its page a dispatch is accounted for. -/
theorem accounted_verify {outcome : DmPageOutcome} (hstored : next.checkpoint = some state)
    (hverifying : state.status = .verifying)
    (hslice : next.slice = afterVerify state dialogId page outcome) (hsent : outcome ≠ .deferred 0)
    (hmem : messageId ∈ page) : next.Accounted state dialogId messageId := by
  have hstopped : ∃ state, next.checkpoint = some state ∧
      (state.status = .verifying ∨ state.status = .suspended) := ⟨state, hstored, Or.inl hverifying⟩
  cases outcome with
  | success => exact Or.inr (Or.inr ⟨page, hslice, hmem⟩)
  | deferred attempts =>
    have hattempts : attempts ≠ 0 := fun hzero => hsent (congrArg DmPageOutcome.deferred hzero)
    rw [afterVerify, if_neg hattempts] at hslice
    exact Or.inr (Or.inl ⟨hstopped, Or.inl hslice⟩)
  | throttled => exact Or.inr (Or.inl ⟨hstopped, Or.inr ⟨state, hslice⟩⟩)
  | failed => exact Or.inr (Or.inl ⟨hstopped, Or.inl hslice⟩)

/-- Every step keeps the dispatched pages accounted for. -/
theorem dispatchesAccounted_change (hsound : world.Sound) (hdispatches : world.DispatchesAccounted)
    (h : Change world next) : next.DispatchesAccounted := by
  by_cases hsame : next.dispatches = world.dispatches
  · exact dispatchesAccounted_same hsound hdispatches h hsame
  cases h with
  | verify state dialogId page outcome hslice =>
    have hchange := Change.verify state dialogId page outcome hslice
    obtain ⟨hstored, hstatus, -⟩ := hsound.held _ hslice
    have hahead : PageAhead state dialogId page := hsound.ahead _ _ _ hslice rfl
    refine ⟨?_, ?_, ?_⟩
    · intro dispatch hdispatch hsent
      rcases List.mem_append.mp hdispatch with hdispatch | hdispatch
      · refine reached_change hsound hchange ?_ (hdispatches.accounted dispatch hdispatch hsent)
        intro before after hbefore hafter hfollows haccount messageId hmem
        exact accounted_change hsound hchange hbefore hafter hfollows (haccount messageId hmem)
      · obtain rfl := List.mem_singleton.mp hdispatch
        refine ⟨state, hstored, le_rfl, fun _ messageId hmem => ?_⟩
        exact accounted_verify hstored hstatus rfl (of_decide_eq_false hsent) hmem
    · intro dispatch hdispatch
      rcases List.mem_append.mp hdispatch with hdispatch | hdispatch
      · exact hdispatches.nodup dispatch hdispatch
      · obtain rfl := List.mem_singleton.mp hdispatch
        exact hahead.increasing.imp fun hlt => hlt.ne
    · refine List.pairwise_append.mpr ⟨hdispatches.apart, List.pairwise_singleton _ _, ?_⟩
      intro earlier hearlier later hlater hsent hgeneration hdialog messageId hmem hagain
      obtain rfl := List.mem_singleton.mp hlater
      obtain ⟨stored, hstored', -, haccount⟩ := hdispatches.accounted earlier hearlier hsent
      obtain rfl := Option.some.inj (hstored'.symm.trans hstored)
      have hdone := done_of_accounted (haccount hgeneration messageId hmem) hslice
        (fun _ _ _ h => by cases h) (fun _ h => by cases h)
      rcases hdone with hidle | hplace
      · cases hidle.symm.trans hstatus
      · rw [hdialog] at hplace
        exact (hahead.ahead messageId hagain).2 hplace
  | _ => exact absurd rfl hsame

/-! ## A stopped scan -/

/-- The scan is suspended. -/
def Suspended (world : DmScanWorld) : Prop :=
  world.slice = none ∧ ∃ state, world.checkpoint = some state ∧ state.status = .suspended

/-- A suspended scan stays suspended. -/
theorem suspended_change (h : Change world next) (hsuspended : world.Suspended) :
    next.Suspended := by
  obtain ⟨hslice, state, hstored, hstatus⟩ := hsuspended
  cases h with
  | write tables => exact ⟨hslice, state, hstored, hstatus⟩
  | drop => exact ⟨rfl, state, hstored, hstatus⟩
  | begin generation now hfree hfresh hvalid =>
    rcases hfresh with ⟨hnone, -⟩ | ⟨before, hbefore, hidle, -⟩
    · cases hnone.symm.trans hstored
    · obtain rfl := Option.some.inj (hstored.symm.trans hbefore)
      cases hidle.symm.trans hstatus
  | resume before hfree hbefore hrunning hpolicy =>
    obtain rfl := Option.some.inj (hstored.symm.trans hbefore)
    cases hrunning.symm.trans hstatus
  | prepare now =>
    refine ⟨rfl, _, by rw [hstored]; rfl, ?_⟩
    dsimp only
    split_ifs
    · unfold DmDeletionCheckpoint.prepared
      split_ifs with hpolicy hrunning
      · cases hrunning.symm.trans hstatus
      · exact hstatus
      · rfl
      · exact hstatus
    · exact hstatus
  | select _ _ _ hsome | complete _ _ hsome | advance _ _ _ hsome | claim _ _ _ _ hsome
  | verify _ _ _ _ hsome | commit _ _ _ _ hsome | restore _ _ hsome | suspend _ _ hsome =>
    cases hsome.symm.trans hslice

/-- A stopped scan stays stopped, and a suspended one suspended. -/
theorem halted_change (h : Change world next) (hhalted : world.Halted) : next.Halted := by
  obtain ⟨⟨state, hstored, hstatus⟩, hslice⟩ := hhalted
  have hstopped : ∀ slice : DmSlice, (∀ state, slice ≠ .throttled state) →
      world.slice ≠ some slice := by
    intro slice hne hsome
    rcases hslice with hnone | ⟨throttled, hthrottled⟩
    · cases hsome.symm.trans hnone
    · exact hne throttled (Option.some.inj (hsome.symm.trans hthrottled))
  cases h with
  | write tables => exact ⟨⟨state, hstored, hstatus⟩, hslice⟩
  | drop => exact ⟨⟨state, hstored, hstatus⟩, Or.inl rfl⟩
  | begin generation now hfree hfresh hvalid =>
    rcases hfresh with ⟨hnone, -⟩ | ⟨before, hbefore, hidle, -⟩
    · cases hnone.symm.trans hstored
    · obtain rfl := Option.some.inj (hstored.symm.trans hbefore)
      rw [hidle] at hstatus
      rcases hstatus with hstatus | hstatus <;> cases hstatus
  | resume before hfree hbefore hrunning hpolicy =>
    obtain rfl := Option.some.inj (hstored.symm.trans hbefore)
    rw [hrunning] at hstatus
    rcases hstatus with hstatus | hstatus <;> cases hstatus
  | suspend before now hsome hvalid => exact ⟨⟨_, rfl, Or.inr rfl⟩, Or.inl rfl⟩
  | prepare now => exact ⟨stopped_prepare hstored hstatus, Or.inl rfl⟩
  | select _ _ _ hsome | complete _ _ hsome | advance _ _ _ hsome | claim _ _ _ _ hsome
  | verify _ _ _ _ hsome | commit _ _ _ _ hsome | restore _ _ hsome =>
    exact absurd hsome (hstopped _ fun _ h => by cases h)

end DmScanWorld

end McpTelegram
