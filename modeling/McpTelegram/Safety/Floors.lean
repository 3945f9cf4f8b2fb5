import McpTelegram.Safety.Changes

/-!
# Restrictions are never shortened

A restriction of the account or of a method is kept in three coordinates: a monotonic deadline that
is valid in one boot, a UTC deadline, and the seconds that remained when it was written.  Every
operation and every reload only moves the release of a floor forward, whatever the UTC clock does.
-/

namespace McpTelegram

open Foundations

variable {bootId name : String}

/-! ## The release of a floor -/

namespace SafetyFloor

variable {floor : SafetyFloor}

/-- When a floor ends, as far as the UTC clock has no say in it: at its deadline in its own boot,
after its remaining seconds in another one. -/
def monotonicRelease (floor : SafetyFloor) (bootId : String) (monotonic : ℚ) : ℚ :=
  if floor.bootId = bootId then floor.untilMonotonic else monotonic + floor.remainingSeconds

theorem monotonicRelease_of_eq (monotonic : ℚ) (h : floor.bootId = bootId) :
    floor.monotonicRelease bootId monotonic = floor.untilMonotonic :=
  if_pos h

/-- The release of a floor of another boot is when its remaining seconds have passed. -/
theorem monotonicRelease_of_ne (monotonic : ℚ) (h : floor.bootId ≠ bootId) :
    floor.monotonicRelease bootId monotonic = monotonic + floor.remainingSeconds :=
  if_neg h

/-- The release never goes back while the monotonic clock does not. -/
theorem monotonicRelease_mono (floor : SafetyFloor) (bootId : String) {monotonic monotonic' : ℚ}
    (h : monotonic ≤ monotonic') :
    floor.monotonicRelease bootId monotonic ≤ floor.monotonicRelease bootId monotonic' := by
  unfold monotonicRelease
  split_ifs
  · exact le_rfl
  · gcongr

end SafetyFloor

namespace SafetyLedger

variable {self : SafetyLedger} {tlobjects : TlObjects} {now : Moment}
  {record record' : SafetyRecord}

variable {floor : SafetyFloor}

/-- `_floor_release_at` of a floor of this boot. -/
theorem floorReleaseAt_of_eq (h : floor.bootId = self.bootId) :
    self.floorReleaseAt now floor =
      max floor.untilMonotonic (now.monotonic + max 0 (floor.untilUtc - now.utc)) := by
  simp [floorReleaseAt, recoveryFloorReleaseAt, recoveryFloor, h]

/-- `_floor_release_at` of a floor of another boot. -/
theorem floorReleaseAt_of_ne (h : floor.bootId ≠ self.bootId) :
    self.floorReleaseAt now floor =
      now.monotonic + max (max 0 (floor.untilUtc - now.utc)) floor.remainingSeconds := by
  simp [floorReleaseAt, recoveryFloorReleaseAt, recoveryFloor, h]

/-- `_floor_release_at` is not before the release without the UTC clock. -/
theorem monotonicRelease_le_floorReleaseAt (self : SafetyLedger) (now : Moment)
    (floor : SafetyFloor) :
    floor.monotonicRelease self.bootId now.monotonic ≤ self.floorReleaseAt now floor := by
  by_cases h : floor.bootId = self.bootId
  · rw [floorReleaseAt_of_eq h, SafetyFloor.monotonicRelease_of_eq _ h]
    exact le_max_left _ _
  · rw [floorReleaseAt_of_ne h, SafetyFloor.monotonicRelease_of_ne _ h]
    exact add_le_add le_rfl (le_max_right _ _)

/-- `_floor_release_at` is not before the UTC deadline. -/
theorem utc_le_floorReleaseAt (self : SafetyLedger) (now : Moment) (floor : SafetyFloor) :
    now.monotonic + (floor.untilUtc - now.utc) ≤ self.floorReleaseAt now floor := by
  have hutc : now.monotonic + (floor.untilUtc - now.utc) ≤
      now.monotonic + max 0 (floor.untilUtc - now.utc) := by
    gcongr
    exact le_max_right _ _
  by_cases h : floor.bootId = self.bootId
  · rw [floorReleaseAt_of_eq h]
    exact hutc.trans (le_max_right _ _)
  · rw [floorReleaseAt_of_ne h]
    exact hutc.trans (add_le_add le_rfl (le_max_left _ _))

/-- `_rebase_floor` keeps a floor of this boot. -/
theorem rebaseFloor_of_eq (h : floor.bootId = self.bootId) :
    self.rebaseFloor now floor = floor := by
  rw [rebaseFloor, if_neg (not_not_intro h)]

/-- After `_rebase_floor` the floor belongs to this boot. -/
theorem rebaseFloor_bootId (floor : SafetyFloor) :
    (self.rebaseFloor now floor).bootId = self.bootId := by
  unfold rebaseFloor
  split_ifs with h
  · rfl
  · exact not_not.mp h

/-- `_rebase_floor` of a floor of another boot releases not before the UTC deadline. -/
theorem utc_le_rebaseFloor (h : floor.bootId ≠ self.bootId) :
    now.monotonic + (floor.untilUtc - now.utc) ≤ (self.rebaseFloor now floor).untilMonotonic := by
  rw [rebaseFloor, if_pos h]
  exact add_le_add le_rfl ((le_max_right _ _).trans (le_max_left _ _))

end SafetyLedger

/-! ## Stricter floors -/

/-- A floor restricts at least as long as another one, by UTC and without it. -/
structure Stricter (bootId : String) (monotonic : ℚ) (floor floor' : SafetyFloor) : Prop where
  utc : floor.untilUtc ≤ floor'.untilUtc
  release : floor.monotonicRelease bootId monotonic ≤ floor'.monotonicRelease bootId monotonic

namespace Stricter

variable {bootId : String} {monotonic : ℚ} {self : SafetyLedger} {now : Moment}
  {floor floor' floor'' : SafetyFloor}

theorem refl (floor : SafetyFloor) : Stricter bootId monotonic floor floor := ⟨le_rfl, le_rfl⟩

theorem trans (h : Stricter bootId monotonic floor floor') (h' : Stricter bootId monotonic floor' floor'') :
    Stricter bootId monotonic floor floor'' := ⟨h.utc.trans h'.utc, h.release.trans h'.release⟩

theorem monotonicRelease_fresh (self : SafetyLedger) (now : Moment) (delay : ℚ) :
    (self.freshFloor now delay).monotonicRelease self.bootId now.monotonic =
      now.monotonic + delay :=
  if_pos rfl

/-- A delay that covers a floor makes a stricter floor. -/
theorem fresh {delay : ℚ} (h : self.floorReleaseAt now floor - now.monotonic ≤ delay) :
    Stricter self.bootId now.monotonic floor (self.freshFloor now delay) := by
  have hutc := self.utc_le_floorReleaseAt now floor
  have hrelease := self.monotonicRelease_le_floorReleaseAt now floor
  refine ⟨?_, ?_⟩
  · show floor.untilUtc ≤ now.utc + delay
    linarith
  · rw [monotonicRelease_fresh]
    linarith

/-- `_extend_floor` makes the floor of the record stricter. -/
theorem extended (self : SafetyLedger) (now : Moment) (untilUtc : ℚ) :
    Stricter self.bootId now.monotonic self.record.floor
      (self.extendedFloor now self.record.floor untilUtc) := by
  have hboot : (self.extendedFloor now self.record.floor untilUtc).bootId = self.bootId := rfl
  refine ⟨le_max_left _ _, ?_⟩
  rw [SafetyFloor.monotonicRelease_of_eq _ hboot]
  exact (self.monotonicRelease_le_floorReleaseAt now self.record.floor).trans (le_max_left _ _)

/-- `_rebase_floor` makes a floor stricter. -/
theorem rebased (self : SafetyLedger) (now : Moment) (floor : SafetyFloor) :
    Stricter self.bootId now.monotonic floor (self.rebaseFloor now floor) := by
  by_cases h : floor.bootId = self.bootId
  · rw [SafetyLedger.rebaseFloor_of_eq h]
    exact refl floor
  · have hboot : (self.rebaseFloor now floor).bootId = self.bootId := self.rebaseFloor_bootId floor
    refine ⟨?_, ?_⟩
    · rw [SafetyLedger.rebaseFloor, if_pos h]
      exact le_max_left _ _
    · rw [SafetyFloor.monotonicRelease_of_ne _ h, SafetyFloor.monotonicRelease_of_eq _ hboot,
        SafetyLedger.rebaseFloor, if_pos h]
      exact add_le_add le_rfl ((le_max_left _ _).trans (le_max_left _ _))

end Stricter

/-! ## Restrictions -/

/-- What a floor restricts: the account, or a method. -/
inductive Restriction
  | account
  | method (name : String)

/-- The floor of a restriction.  A method has one as long as its episode is live. -/
def SafetyRecord.floorOf (record : SafetyRecord) : Restriction → Option SafetyFloor
  | .account => some record.floor
  | .method name => ((record.methods.lookup name).filter (·.state = .live)).map (·.floor)

/-- The floor of a method is the one of its live episode. -/
theorem floorOf_method {record : SafetyRecord} {floor : SafetyFloor} :
    record.floorOf (.method name) = some floor ↔
      ∃ episode, record.methods.lookup name = some episode ∧ episode.state = .live ∧
        episode.floor = floor := by
  simp only [SafetyRecord.floorOf, Option.map_eq_some_iff, Option.filter_eq_some_iff,
    decide_eq_true_eq, and_assoc]

/-- Every episode that meets a condition is kept with a stricter floor. -/
def EpisodesKept (bootId : String) (monotonic : ℚ) (p : MethodEpisode → Prop)
    (methods methods' : Dictionary String MethodEpisode) : Prop :=
  ∀ name episode, methods.lookup name = some episode → p episode →
    ∃ episode', methods'.lookup name = some episode' ∧
      Stricter bootId monotonic episode.floor episode'.floor

/-- The floor of the account and the floors of the live episodes are kept or get stricter. -/
structure FloorsKept (bootId : String) (monotonic : ℚ) (record record' : SafetyRecord) :
    Prop where
  account : Stricter bootId monotonic record.floor record'.floor
  methods : EpisodesKept bootId monotonic (·.state = .live) record.methods record'.methods

namespace SafetyLedger

variable {bootId : String} {monotonic : ℚ} {self : SafetyLedger} {tlobjects : TlObjects}
  {now : Moment} {record record' : SafetyRecord} {p : MethodEpisode → Prop}
  {methods methods' methods'' : Dictionary String MethodEpisode}

variable {completion : Completion}

/-- A change that keeps every floor as it is keeps every floor. -/
theorem episodesKept_of_floor
    (h : ∀ name, (methods'.lookup name).map (·.floor) = (methods.lookup name).map (·.floor)) :
    EpisodesKept bootId monotonic p methods methods' := by
  intro name episode hlookup _
  have hfloor := h name
  rw [hlookup, Option.map_some, Option.map_eq_some_iff] at hfloor
  obtain ⟨episode', hlookup', hfloor⟩ := hfloor
  exact ⟨episode', hlookup', hfloor ▸ Stricter.refl _⟩

theorem episodesKept_refl : EpisodesKept bootId monotonic p methods methods :=
  episodesKept_of_floor fun _ => rfl

/-- Dropping the claims of the episodes keeps their floors. -/
theorem episodesKept_dropClaims : EpisodesKept bootId monotonic p methods (dropClaims methods) := by
  refine episodesKept_of_floor fun name => ?_
  rw [dropClaims, Dictionary.lookup_mapValues, Option.map_map]
  rfl

/-- Writing a stricter floor for one method keeps every episode. -/
theorem episodesKept_insert {episode : MethodEpisode}
    (h : ∀ previous, methods.lookup name = some previous → p previous →
      Stricter bootId monotonic previous.floor episode.floor) :
    EpisodesKept bootId monotonic p methods (methods.insert name episode) := by
  intro name' previous hlookup hp
  rw [Dictionary.lookup_insert_eq]
  split_ifs with hname
  · subst hname
    exact ⟨episode, rfl, h previous hlookup hp⟩
  · exact ⟨previous, hlookup, Stricter.refl _⟩

/-- Changes that keep every episode may follow one that keeps some. -/
theorem episodesKept_trans (h : EpisodesKept bootId monotonic p methods methods')
    (h' : EpisodesKept bootId monotonic (fun _ => True) methods' methods'') :
    EpisodesKept bootId monotonic p methods methods'' := by
  intro name episode hlookup hp
  obtain ⟨episode', hlookup', hstricter⟩ := h name episode hlookup hp
  obtain ⟨episode'', hlookup'', hstricter'⟩ := h' name episode' hlookup' trivial
  exact ⟨episode'', hlookup'', hstricter.trans hstricter'⟩

theorem floorsKept_of_recoveryOnly (h : RecoveryOnly record record') :
    FloorsKept bootId monotonic record record' :=
  ⟨h.floor ▸ Stricter.refl _, h.methods ▸ episodesKept_refl⟩

/-! ## What the operations do to the floors -/

/-- `_settle_method` keeps every live floor or makes it stricter. -/
theorem settleMethod_kept (record : SafetyRecord) (attemptId : String) (actualFlood : Bool)
    (generation : Option String) (success : Bool) :
    EpisodesKept self.bootId now.monotonic (·.state = .live) record.methods
      (self.settleMethod tlobjects now record attemptId actualFlood generation success).methods := by
  unfold settleMethod
  split
  · exact episodesKept_refl
  · next intent _ =>
    dsimp only
    by_cases hrun : intent.run ≠ self.run
    · rw [if_pos hrun]
      exact episodesKept_refl
    · rw [if_neg hrun]
      split_ifs
      · refine episodesKept_insert fun previous hlookup hlive => ?_
        have hprior : (some previous).filter (fun episode => decide (episode.state = .live)) =
            some previous := by
          rw [Option.filter_some, if_pos (decide_eq_true hlive)]
        simp only [recordMethodFlood, hlookup, hprior]
        exact Stricter.fresh (le_max_right _ _)
      · split
        · exact episodesKept_refl
        · next episode hlookup =>
          split_ifs
          · refine episodesKept_insert fun previous hprevious _ => ?_
            obtain rfl := Option.some.inj (hprevious.symm.trans hlookup)
            exact Stricter.refl _
          · refine episodesKept_insert fun previous hprevious _ => ?_
            obtain rfl := Option.some.inj (hprevious.symm.trans hlookup)
            exact Stricter.refl _
          · exact episodesKept_refl

/-- The outcome part of `complete` leaves the floor of the account alone and keeps every episode. -/
theorem settleOutcome_kept (h : self.settleOutcome now record completion = .ok record') :
    record'.floor = record.floor ∧
      EpisodesKept self.bootId now.monotonic (fun _ => True) record.methods record'.methods := by
  unfold settleOutcome at h
  split_ifs at h
  · obtain ⟨intent, -, -, -, -, -, rfl⟩ := settleReadBudgetFailure_ok h
    refine ⟨rfl, episodesKept_insert fun previous hlookup _ => ?_⟩
    simp only [readFailureEpisode, hlookup]
    exact Stricter.fresh (le_max_right _ _)
  · rcases settleIntent_cases h with ⟨rfl, -⟩ | ⟨prior, -, -, ⟨rfl, -⟩ | ⟨rfl, -⟩⟩
    all_goals exact ⟨rfl, episodesKept_refl⟩

/-- `complete` keeps every floor. -/
theorem complete_kept (h : self.complete tlobjects now self.record completion = .ok record') :
    FloorsKept self.bootId now.monotonic self.record record' := by
  obtain ⟨settled, floor, hsettled, hguarded, hfloor⟩ := complete_ok h
  obtain ⟨hsame, hmethods⟩ := settleOutcome_kept hsettled
  have hrecord : settled.floor = self.record.floor := by rw [hsame, settleMethod_eq]
  refine ⟨?_, hguarded.methods ▸ episodesKept_trans (settleMethod_kept _ _ _ _ _) hmethods⟩
  rw [hguarded.floor]
  rcases hfloor with ⟨-, rfl⟩ | ⟨untilUtc, -, rfl⟩
  · rw [hrecord]
    exact Stricter.refl _
  · rw [hrecord]
    exact Stricter.extended self now untilUtc

/-- What any operation proposes to save keeps every floor. -/
theorem call_kept {operation : SafetyOperation}
    (h : (self.call tlobjects now operation).proposal = some (.ok record')) :
    FloorsKept self.bootId now.monotonic self.record record' := by
  cases operation with
  | prepare request =>
    simp only [call] at h
    split_ifs at h
    obtain ⟨intent, -, -, rfl⟩ := prepare_ok (Option.some.inj h)
    exact ⟨Stricter.rebased self now _, episodesKept_refl⟩
  | markClaimed =>
    simp only [call] at h
    split_ifs at h
  | complete completion =>
    have hcomplete : (self.holdOutcome completion).complete tlobjects now
        (self.holdOutcome completion).record completion = .ok record' := by
      rw [holdOutcome_record]
      exact Option.some.inj h
    simpa using complete_kept hcomplete
  | completeNativeUnknown attemptId binding methodGeneration =>
    obtain ⟨_, _, -, -, -, -, -, rfl⟩ := completeNativeUnknown_ok (Option.some.inj h)
    exact ⟨Stricter.refl _, settleMethod_kept _ _ _ _ _⟩
  | containNative attemptId binding =>
    obtain ⟨_, _, -, -, -, rfl⟩ := containNative_ok (Option.some.inj h)
    rw [clearUnresolved_eq]
    exact ⟨Stricter.refl _, episodesKept_refl⟩
  | containShutdownReads attempts clearIntroducedHold =>
    obtain ⟨-, -, intents, -, rfl⟩ := containShutdownReads_ok (Option.some.inj h)
    rw [clearUnresolved_eq]
    split_ifs
    all_goals exact ⟨Stricter.refl _, episodesKept_refl⟩
  | recordFloor untilUtc circuitOpen =>
    have hguarded := recordFloor_ok (Option.some.inj h)
    exact ⟨hguarded.floor ▸ Stricter.extended self now untilUtc,
      hguarded.methods ▸ episodesKept_refl⟩
  | authorizeRecovery =>
    exact floorsKept_of_recoveryOnly (authorizeRecovery_guarded (Option.some.inj h)).toRecoveryOnly
  | consumeRecovery =>
    simp only [call] at h
    split at h
    · cases h
    · split_ifs at h
      obtain rfl := consumeRecovery_ok (Option.some.inj h)
      exact ⟨Stricter.refl _, episodesKept_dropClaims⟩
  | finishRecovery =>
    exact floorsKept_of_recoveryOnly (finishRecovery_ok (Option.some.inj h)).2.1
  | failRecovery =>
    obtain rfl := Except.ok.inj (Option.some.inj h)
    exact floorsKept_of_recoveryOnly (failRecovery_guarded _).toRecoveryOnly
  | failAutomaticRecovery =>
    exact floorsKept_of_recoveryOnly
      (failAutomaticRecovery_guarded (Option.some.inj h)).toRecoveryOnly
  | configureAutoResume => cases h
  | persistAutoRebase =>
    simp only [call] at h
    split_ifs at h
    obtain rfl := Except.ok.inj (Option.some.inj h)
    exact ⟨Stricter.refl _, episodesKept_refl⟩
  | maintainAutoFence =>
    simp only [call] at h
    split_ifs at h
    exact floorsKept_of_recoveryOnly (maintainAutoFence_guarded (Option.some.inj h)).toRecoveryOnly
  | autoQuiesceIfReady =>
    simp only [call] at h
    split_ifs at h
    exact floorsKept_of_recoveryOnly
      (transitionAutoOwned_guarded (by decide) (by decide) (Option.some.inj h)).toRecoveryOnly
  | consumeAutoResume =>
    simp only [call] at h
    split_ifs at h
    all_goals
      rcases consumeAutoResume_cases (Option.some.inj h) with rfl | ⟨-, trial, automatic, rfl⟩
      · exact ⟨Stricter.refl _, episodesKept_refl⟩
      · exact ⟨Stricter.refl _, episodesKept_dropClaims⟩
  | resetAutoResume =>
    exact floorsKept_of_recoveryOnly
      (transitionAutoOwned_guarded (by decide) (by decide) (Option.some.inj h)).toRecoveryOnly

end SafetyLedger

end McpTelegram
