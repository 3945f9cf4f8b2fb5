import McpTelegram.Safety.Floors

/-!
# Restrictions over whole runs

The floors of the ledger and of the store through operations, crashes, reloads, jumps of the UTC
clock and reboots.  `restriction_never_shortened` bounds the deadline of the account and of every
live method episode from below in every later state.
-/

namespace McpTelegram

open Foundations

/-! ## Floors that a completion writes -/

namespace SafetyLedger

variable {self : SafetyLedger} {tlobjects : TlObjects} {now : Moment}
  {record record' record'' : SafetyRecord}

variable {completion : Completion}

/-- Every floor of a live episode is an old one or holds for a delay from now on. -/
def FreshFloors (self : SafetyLedger) (now : Moment) (record record' : SafetyRecord) : Prop :=
  ∀ name floor, record'.floorOf (.method name) = some floor →
    record.floorOf (.method name) = some floor ∨ ∃ delay, 0 ≤ delay ∧ floor = self.freshFloor now delay

/-- Unchanged episodes have old floors. -/
theorem freshFloors_of_methods (h : record'.methods = record.methods) :
    FreshFloors self now record record' := by
  intro name floor hfloor
  left
  rw [floorOf_method] at hfloor ⊢
  rwa [h] at hfloor

/-- Changes with fresh floors compose. -/
theorem FreshFloors.trans (h : FreshFloors self now record record')
    (h' : FreshFloors self now record' record'') : FreshFloors self now record record'' := by
  intro name floor hfloor
  rcases h' name floor hfloor with hold | hfresh
  · exact h name floor hold
  · exact Or.inr hfresh

/-- One written episode with an old or a fresh floor. -/
theorem freshFloors_insert {name : String} {episode : MethodEpisode}
    (h : episode.state = .live → record.floorOf (.method name) = some episode.floor ∨
      ∃ delay, 0 ≤ delay ∧ episode.floor = self.freshFloor now delay)
    (hmethods : record'.methods = record.methods.insert name episode) :
    FreshFloors self now record record' := by
  intro name' floor hfloor
  obtain ⟨episode', hlookup, hlive, rfl⟩ := floorOf_method.mp hfloor
  rw [hmethods, Dictionary.lookup_insert_eq] at hlookup
  split_ifs at hlookup with hname
  · obtain rfl := Option.some.inj hlookup
    subst hname
    exact h hlive
  · exact Or.inl (floorOf_method.mpr ⟨episode', hlookup, hlive, rfl⟩)

theorem backoff_nonneg (cause : RecoveryCause) (stage : ℕ) :
    (0 : ℚ) ≤ backoffSeconds cause stage := Nat.cast_nonneg _

/-- The floor of a flood is fresh. -/
theorem recordMethodFlood_floor (previous : Option MethodEpisode) :
    ∃ delay, 0 ≤ delay ∧ (self.recordMethodFlood now previous).floor =
      self.freshFloor now delay := by
  refine ⟨_, ?_, rfl⟩
  split
  · exact backoff_nonneg _ _
  · exact (backoff_nonneg _ _).trans (le_max_left _ _)

/-- The floor of a read failure is fresh. -/
theorem readFailureEpisode_floor (previous : Option MethodEpisode) :
    ∃ delay, 0 ≤ delay ∧ (self.readFailureEpisode now previous).floor =
      self.freshFloor now delay := by
  refine ⟨_, ?_, rfl⟩
  split
  · exact backoff_nonneg _ _
  · exact (backoff_nonneg _ _).trans (le_max_left _ _)

/-- `_settle_method` writes fresh floors only. -/
theorem settleMethod_fresh (record : SafetyRecord) (attemptId : String) (actualFlood : Bool)
    (generation : Option String) (success : Bool) :
    FreshFloors self now record
      (self.settleMethod tlobjects now record attemptId actualFlood generation success) := by
  unfold settleMethod
  split
  · exact freshFloors_of_methods rfl
  · next intent _ =>
    by_cases hrun : intent.run ≠ self.run
    · rw [if_pos hrun]
      exact freshFloors_of_methods rfl
    · rw [if_neg hrun]
      dsimp only
      split_ifs
      · exact freshFloors_insert (fun _ => Or.inr (recordMethodFlood_floor _)) rfl
      · split
        · exact freshFloors_of_methods rfl
        · next episode hlookup =>
          split_ifs
          · refine freshFloors_insert (fun hlive => ?_) rfl
            cases hlive
          · refine freshFloors_insert (fun hlive => Or.inl ?_) rfl
            exact floorOf_method.mpr ⟨episode, hlookup, hlive, rfl⟩
          · exact freshFloors_of_methods rfl

/-- The outcome part of `complete` writes fresh floors only. -/
theorem settleOutcome_fresh (h : self.settleOutcome now record completion = .ok record') :
    FreshFloors self now record record' := by
  unfold settleOutcome at h
  split_ifs at h
  · obtain ⟨intent, -, -, -, -, -, rfl⟩ := settleReadBudgetFailure_ok h
    exact freshFloors_insert (fun _ => Or.inr (readFailureEpisode_floor _)) rfl
  · rcases settleIntent_cases h with ⟨rfl, -⟩ | ⟨prior, -, -, ⟨rfl, -⟩ | ⟨rfl, -⟩⟩
    all_goals exact freshFloors_of_methods rfl

/-- `complete` writes fresh floors only. -/
theorem complete_fresh (h : self.complete tlobjects now record completion = .ok record') :
    FreshFloors self now record record' := by
  obtain ⟨settled, floor, hsettled, hguarded, -⟩ := complete_ok h
  exact ((settleMethod_fresh _ _ _ _ _).trans (settleOutcome_fresh hsettled)).trans
    (freshFloors_of_methods hguarded.methods)

end SafetyLedger

/-- Kept floors of one restriction get stricter. -/
theorem FloorsKept.floorOf {bootId : String} {monotonic : ℚ} {record record' : SafetyRecord}
    {restriction : Restriction} {floor floor' : SafetyFloor}
    (h : FloorsKept bootId monotonic record record')
    (hfloor : record.floorOf restriction = some floor)
    (hfloor' : record'.floorOf restriction = some floor') :
    Stricter bootId monotonic floor floor' := by
  cases restriction with
  | account =>
    obtain rfl := Option.some.inj hfloor
    obtain rfl := Option.some.inj hfloor'
    exact h.account
  | method name =>
    obtain ⟨episode, hlookup, hlive, rfl⟩ := floorOf_method.mp hfloor
    obtain ⟨episode', hlookup', -, rfl⟩ := floorOf_method.mp hfloor'
    obtain ⟨kept, hkept, hstricter⟩ := h.methods name episode hlookup hlive
    obtain rfl := Option.some.inj (hlookup'.symm.trans hkept)
    exact hstricter

namespace SafetyWorld

variable {tlobjects : TlObjects} {w w' : SafetyWorld} {restriction : Restriction}
variable {ledger : SafetyLedger} {untilUtc elapsed utc bound : ℚ} {reads : LoadReads}
    {record : SafetyRecord} {call : SafetyCall} {outcome : SaveOutcome} {event : SafetyEvent}
    {events : List SafetyEvent} {floor : SafetyFloor}

/-! ## Loading a floor -/

/-- `_load` only changes the receipts of the intents before anything can raise. -/
theorem loadLedger_floorOf (w : SafetyWorld) (reads : LoadReads) (record : SafetyRecord) :
    (w.loadLedger reads record).record.floorOf restriction = record.floorOf restriction := by
  cases restriction <;> rfl

/-- What a floor of a loaded record becomes. -/
structure LoadedFloor (w : SafetyWorld) (ledger : SafetyLedger) (floor floor' : SafetyFloor) :
    Prop where
  /-- It gets stricter. -/
  stricter : Stricter w.bootId w.monotonic floor floor'
  /-- A floor of another boot gets a deadline from both of its other coordinates, unless the load
  failed partway. -/
  rebased : floor.bootId ≠ w.bootId → ledger.storageFailed = false →
    floor'.bootId = w.bootId ∧ w.monotonic + (floor.untilUtc - w.utc) ≤ floor'.untilMonotonic

/-- A rebased floor, whose UTC deadline may have been raised before. -/
theorem loadedFloor_rebase (hboot : ledger.bootId = w.bootId) (reads : LoadReads)
    (floor : SafetyFloor) (hutc : floor.untilUtc ≤ untilUtc) :
    LoadedFloor w ledger floor
      (ledger.rebaseFloor (w.loadMoment reads) { floor with untilUtc := untilUtc }) := by
  have hraised : Stricter ledger.bootId w.monotonic floor { floor with untilUtc := untilUtc } :=
    ⟨hutc, le_rfl⟩
  have hrebased := Stricter.rebased ledger (w.loadMoment reads) { floor with untilUtc := untilUtc }
  refine ⟨hboot ▸ hraised.trans hrebased, fun hother _ => ⟨?_, ?_⟩⟩
  · exact (ledger.rebaseFloor_bootId _).trans hboot
  · have hforeign : ({ floor with untilUtc := untilUtc } : SafetyFloor).bootId ≠ ledger.bootId := by
      rw [hboot]
      exact hother
    have hdeadline := @SafetyLedger.utc_le_rebaseFloor ledger (w.loadMoment reads) _ hforeign
    refine le_trans ?_ hdeadline
    show w.monotonic + (floor.untilUtc - w.utc) ≤ w.monotonic + (untilUtc - w.utc)
    linarith

/-- The floors of a loaded ledger come from the floors of the stored record. -/
theorem loadStored_floors {reads : LoadReads} {record : SafetyRecord} {ledger : SafetyLedger}
    (h : w.loadStored tlobjects reads record = .up ledger) :
    ledger.bootId = w.bootId ∧ ∀ floor', ledger.record.floorOf restriction = some floor' →
      ∃ floor, record.floorOf restriction = some floor ∧ LoadedFloor w ledger floor floor' := by
  have hpartway : ∀ {loaded : SafetyLedger}, loaded.record = (w.loadLedger reads record).record →
      loaded.bootId = w.bootId → .up loaded.failStartup = SafetyProcess.up ledger →
      ledger.bootId = w.bootId ∧ ∀ floor', ledger.record.floorOf restriction = some floor' →
        ∃ floor, record.floorOf restriction = some floor ∧ LoadedFloor w ledger floor floor' := by
    intro loaded hrecord hboot hup
    obtain rfl := SafetyProcess.up.inj hup
    refine ⟨hboot, fun floor' hfloor' => ⟨floor', ?_, Stricter.refl _, ?_⟩⟩
    · rw [← loadLedger_floorOf w reads, ← hrecord]
      exact hfloor'
    · intro _ hfailed
      cases hfailed
  unfold loadStored at h
  split_ifs at h
  dsimp only at h
  split at h
  · exact hpartway (by rfl) (by rfl) h
  · split at h
    · exact hpartway (by rfl) (by rfl) h
    · next legacy hlegacy =>
      obtain rfl := SafetyProcess.up.inj h
      refine ⟨rfl, fun floor' hfloor' => ?_⟩
      cases restriction with
      | account =>
        refine ⟨record.floor, rfl, ?_⟩
        obtain rfl := Option.some.inj hfloor'
        exact loadedFloor_rebase rfl reads record.floor (le_max_left _ _)
      | method name =>
        obtain ⟨episode', hlookup, hlive, rfl⟩ := floorOf_method.mp hfloor'
        simp only [SafetyLedger.rebaseSafetyRecord, Dictionary.lookup_mapValues,
          Option.map_eq_some_iff] at hlookup
        obtain ⟨episode, hlookup, rfl⟩ := hlookup
        exact ⟨episode.floor, floorOf_method.mpr ⟨episode, hlookup, hlive, rfl⟩,
          loadedFloor_rebase rfl reads episode.floor le_rfl⟩

theorem loadStored_bootId (h : w.loadStored tlobjects reads record = .up ledger) :
    ledger.bootId = w.bootId :=
  (@loadStored_floors tlobjects w .account reads record ledger h).1

/-! ## Floors over one step -/

/-- The live ledger was loaded in the boot of the world. -/
def Booted (w : SafetyWorld) : Prop := ∀ ledger, w.process = .up ledger → ledger.bootId = w.bootId

/-- What holds of the floor of a restriction, wherever the world keeps it.  The store is not
empty. -/
structure Keeps (w : SafetyWorld) (restriction : Restriction) (p q : SafetyFloor → Prop) :
    Prop where
  /-- Something is stored. -/
  persisted : w.stored ≠ none
  /-- In the store. -/
  stored : ∀ record, w.stored = some record → ∀ floor, record.floorOf restriction = some floor →
    p floor
  /-- In the ledger. -/
  ledger : ∀ ledger, w.process = .up ledger →
    ∀ floor, ledger.record.floorOf restriction = some floor → q floor

/-- The episode of a method is live in the ledger; the account always has a floor. -/
def Live (w : SafetyWorld) (restriction : Restriction) : Prop :=
  ∀ ledger, w.process = .up ledger → ledger.record.floorOf restriction ≠ none

/-- A predicate of floors that stricter floors inherit. -/
def Inherited (w : SafetyWorld) (q : SafetyFloor → Prop) : Prop :=
  ∀ floor floor', Stricter w.bootId w.monotonic floor floor' → q floor → q floor'

variable {p q : SafetyFloor → Prop}

/-- A ledger with another record, up to flags and claims. -/
theorem floorOf_of_unsaved {process : SafetyProcess} (hunsaved : Unsaved process ledger)
    {ledger' : SafetyLedger} (hup : process = .up ledger') : ledger'.record = ledger.record := by
  rcases hunsaved with h | h | h
  all_goals rw [h] at hup
  · rw [← SafetyProcess.up.inj hup]
  · rw [← SafetyProcess.up.inj hup]
  · cases hup

/-- A commit that keeps the floors keeps what holds of them. -/
theorem commit_keeps (hkeeps : w.Keeps restriction p q) (hlive : w.Live restriction)
    (hq : w.Inherited q) (hqp : ∀ floor, q floor → p floor) (hprocess : w.process = .up ledger)
    (hrecord : call.ledger.record = ledger.record)
    (hsettle : ∀ ledger, (call.settle ledger).record = ledger.record)
    (hkept : ∀ record', call.proposal = some (.ok record') →
      FloorsKept w.bootId w.monotonic ledger.record record') :
    (w.commit tlobjects call outcome).Keeps restriction p q := by
  have hold : ∀ {process}, Unsaved process call.ledger → ∀ ledger', process = .up ledger' →
      ∀ floor, ledger'.record.floorOf restriction = some floor → q floor := by
    intro process hunsaved ledger' hup floor hfloor
    rw [floorOf_of_unsaved hunsaved hup, hrecord] at hfloor
    exact hkeeps.ledger ledger hprocess floor hfloor
  rcases commit_cases tlobjects w call outcome with ⟨hstored, hunsaved⟩ |
    ⟨record', hproposal, -, -, hstored, hprocess'⟩
  · exact ⟨hstored ▸ hkeeps.persisted, hstored ▸ hkeeps.stored, hold hunsaved⟩
  · have hnew : ∀ floor', record'.floorOf restriction = some floor' → q floor' := by
      intro floor' hfloor'
      obtain ⟨floor, hfloor⟩ := Option.ne_none_iff_exists'.mp (hlive ledger hprocess)
      exact hq floor floor' ((hkept record' hproposal).floorOf hfloor hfloor')
        (hkeeps.ledger ledger hprocess floor hfloor)
    refine ⟨?_, ?_, ?_⟩
    · rw [hstored]
      exact Option.some_ne_none record'
    · intro record hsaved floor hfloor
      obtain rfl := Option.some.inj (hstored.symm.trans hsaved)
      exact hqp floor (hnew floor hfloor)
    · rcases hprocess' with hsaved | hunsaved
      · intro ledger' hup floor hfloor
        obtain rfl := SafetyProcess.up.inj (hsaved.symm.trans hup)
        refine hnew floor ?_
        have hrecord' : (pruneClaims (call.settle { call.ledger with record := record' })).record =
            record' := hsettle _
        rwa [hrecord'] at hfloor
      · exact hold hunsaved

/-- A call outside `SafetyOperation` keeps every floor. -/
theorem otherCall_kept (other : OtherCall) (bootId : String) (monotonic : ℚ)
    (record : SafetyRecord) : FloorsKept bootId monotonic record (other.record record) := by
  refine ⟨Stricter.refl _, SafetyLedger.episodesKept_of_floor fun name => ?_⟩
  rw [OtherCall.record, Dictionary.lookup_mapValues, Option.map_map]
  rfl

/-- The clocks of the world do not move and the boot stays, in every step but a tick and a
reboot. -/
theorem step_clock (hstep : step tlobjects w event = some w')
    (htick : ∀ elapsed utc, event ≠ .tick elapsed utc) (hboot : event.SameBoot) :
    w'.bootId = w.bootId ∧ w'.monotonic = w.monotonic ∧ w'.utc = w.utc := by
  cases event with
  | operate | operateOther =>
    simp only [step] at hstep
    split at hstep
    · obtain rfl := Option.some.inj hstep
      exact commit_clock _ _ _ _
    · obtain rfl := Option.some.inj hstep
      exact ⟨rfl, rfl, rfl⟩
    · cases hstep
  | load reads =>
    simp only [step] at hstep
    split at hstep
    · split_ifs at hstep
      obtain rfl := Option.some.inj hstep
      exact ⟨rfl, rfl, rfl⟩
    · cases hstep
  | crash =>
    obtain rfl := Option.some.inj hstep
    exact ⟨rfl, rfl, rfl⟩
  | tick elapsed utc => exact absurd rfl (htick elapsed utc)
  | reboot => exact hboot.elim

/-- Every step but a tick and a reboot keeps what holds of the floors of a restriction. -/
theorem step_keeps (hstep : step tlobjects w event = some w')
    (htick : ∀ elapsed utc, event ≠ .tick elapsed utc) (hevent : event.SameBoot)
    (hbooted : w.Booted) (hkeeps : w.Keeps restriction p q) (hlive : w.Live restriction)
    (hq : w.Inherited q) (hqp : ∀ floor, q floor → p floor)
    (hload : ∀ reads, event = .load reads → ∀ record, w.stored = some record →
      ∀ floor, record.floorOf restriction = some floor → p floor → q floor) :
    w'.Keeps restriction p q := by
  cases event with
  | operate operation surroundings outcome =>
    simp only [step] at hstep
    split at hstep
    · next ledger hprocess =>
      obtain rfl := Option.some.inj hstep
      refine commit_keeps hkeeps hlive hq hqp hprocess
        (SafetyLedger.call_sameOwner operation).record
        (fun ledger => (SafetyLedger.settle_sameOwner operation ledger).record)
        fun record' hproposal => ?_
      have hkept := SafetyLedger.call_kept hproposal
      rwa [hbooted ledger hprocess] at hkept
    · obtain rfl := Option.some.inj hstep
      exact hkeeps
    · cases hstep
  | operateOther other outcome =>
    simp only [step] at hstep
    split at hstep
    · next ledger hprocess =>
      obtain rfl := Option.some.inj hstep
      refine commit_keeps hkeeps hlive hq hqp hprocess rfl (fun _ => rfl) fun record' hproposal => ?_
      obtain rfl := Except.ok.inj (Option.some.inj hproposal)
      exact otherCall_kept other _ _ _
    · obtain rfl := Option.some.inj hstep
      exact hkeeps
    · cases hstep
  | load reads =>
    simp only [step] at hstep
    split at hstep
    · split_ifs at hstep
      obtain rfl := Option.some.inj hstep
      refine ⟨hkeeps.persisted, hkeeps.stored, fun ledger hup floor' hfloor' => ?_⟩
      obtain ⟨record, hrecord⟩ := Option.ne_none_iff_exists'.mp hkeeps.persisted
      have hup : w.loadProcess tlobjects reads = .up ledger := hup
      rw [loadProcess, hrecord] at hup
      obtain ⟨floor, hfloor, hloaded⟩ := (loadStored_floors hup).2 floor' hfloor'
      exact hq floor floor' hloaded.stricter
        (hload reads rfl record hrecord floor hfloor (hkeeps.stored record hrecord floor hfloor))
    · cases hstep
  | crash =>
    obtain rfl := Option.some.inj hstep
    exact ⟨hkeeps.persisted, hkeeps.stored, fun _ hup => SafetyProcess.noConfusion hup⟩
  | tick elapsed utc => exact absurd rfl (htick elapsed utc)
  | reboot => exact hevent.elim

/-- Loading a ledger, and nothing else, starts one; it belongs to the boot of the world. -/
theorem step_booted (w : SafetyWorld) (event : SafetyEvent) (w' : SafetyWorld) (h : w.Booted)
    (hstep : step tlobjects w event = some w') : w'.Booted := by
  have hcommit : ∀ {ledger : SafetyLedger} {call : SafetyCall} {outcome : SaveOutcome},
      w.process = .up ledger → call.ledger.bootId = ledger.bootId →
      (∀ ledger, (call.settle ledger).bootId = ledger.bootId) →
      (w.commit tlobjects call outcome).Booted := by
    intro ledger call outcome hprocess hledger hsettle ledger' hup
    rw [(commit_clock tlobjects w call outcome).1, ← h ledger hprocess, ← hledger]
    have hunsaved : Unsaved (w.commit tlobjects call outcome).process call.ledger →
        ledger'.bootId = call.ledger.bootId := by
      rintro (hcase | hcase | hcase)
      all_goals rw [hcase] at hup
      · rw [← SafetyProcess.up.inj hup]
      · rw [← SafetyProcess.up.inj hup]
      · cases hup
    rcases commit_cases tlobjects w call outcome with ⟨-, hcase⟩ | ⟨_, -, -, -, -, hcase | hcase⟩
    · exact hunsaved hcase
    · rw [hcase] at hup
      obtain rfl := SafetyProcess.up.inj hup
      exact hsettle _
    · exact hunsaved hcase
  cases event with
  | operate operation surroundings outcome =>
    simp only [step] at hstep
    split at hstep
    · next ledger hprocess =>
      obtain rfl := Option.some.inj hstep
      exact hcommit hprocess (SafetyLedger.call_sameOwner operation).bootId
        fun ledger => (SafetyLedger.settle_sameOwner operation ledger).bootId
    · obtain rfl := Option.some.inj hstep
      exact h
    · cases hstep
  | operateOther other outcome =>
    simp only [step] at hstep
    split at hstep
    · next ledger hprocess =>
      obtain rfl := Option.some.inj hstep
      exact hcommit hprocess rfl fun _ => rfl
    · obtain rfl := Option.some.inj hstep
      exact h
    · cases hstep
  | load reads =>
    simp only [step] at hstep
    split at hstep
    · split_ifs at hstep
      obtain rfl := Option.some.inj hstep
      intro ledger hup
      have hup : w.loadProcess tlobjects reads = .up ledger := hup
      unfold loadProcess at hup
      split at hup
      · split_ifs at hup
        unfold loadNew at hup
        split at hup
        · dsimp only at hup
          split_ifs at hup
          all_goals exact (SafetyProcess.up.inj hup) ▸ rfl
        · cases hup
      · exact (loadStored_bootId hup)
    · cases hstep
  | crash =>
    obtain rfl := Option.some.inj hstep
    exact fun _ hup => SafetyProcess.noConfusion hup
  | tick elapsed utc =>
    simp only [step] at hstep
    split_ifs at hstep
    obtain rfl := Option.some.inj hstep
    exact h
  | reboot =>
    simp only [step] at hstep
    split_ifs at hstep
    obtain rfl := Option.some.inj hstep
    exact fun _ hup => SafetyProcess.noConfusion hup

/-! ## Restrictions over runs -/

/-- A world that some run reaches from a host without a process. -/
def Reachable (tlobjects : TlObjects) (w : SafetyWorld) : Prop :=
  ∃ start events, start.process = .down ∧ run (step tlobjects) start events = some w

/-- Every ledger of a reachable world belongs to its boot. -/
theorem Reachable.booted (h : w.Reachable tlobjects) : w.Booted := by
  obtain ⟨start, events, hdown, hrun⟩ := h
  refine run_invariant step_booted (fun ledger hup => ?_) hrun
  rw [hdown] at hup
  exact SafetyProcess.noConfusion hup

/-- Every floor of the restriction is released at a bound or later, without help of the UTC
clock. -/
def Withheld (w : SafetyWorld) (restriction : Restriction) (bound : ℚ) : Prop :=
  w.Keeps restriction (fun floor => bound ≤ floor.monotonicRelease w.bootId w.monotonic)
    fun floor => bound ≤ floor.monotonicRelease w.bootId w.monotonic

theorem inherited_release (w : SafetyWorld) (bound : ℚ) :
    w.Inherited fun floor => bound ≤ floor.monotonicRelease w.bootId w.monotonic :=
  fun _ _ hstricter hbound => hbound.trans hstricter.release

/-- What a tick leaves in place. -/
theorem step_tick (hstep : step tlobjects w (.tick elapsed utc) = some w') :
    w'.stored = w.stored ∧ w'.process = w.process ∧ w'.bootId = w.bootId ∧
      w.monotonic ≤ w'.monotonic := by
  simp only [step] at hstep
  split_ifs at hstep with helapsed
  obtain rfl := Option.some.inj hstep
  exact ⟨rfl, rfl, rfl, le_add_of_nonneg_right helapsed⟩

/-- A tick keeps what the monotonic clock cannot break. -/
theorem tick_keeps {p' q' : SafetyFloor → Prop}
    (hstep : step tlobjects w (.tick elapsed utc) = some w') (hkeeps : w.Keeps restriction p q)
    (hp : ∀ floor, p floor → p' floor) (hq : ∀ floor, q floor → q' floor) :
    w'.Keeps restriction p' q' := by
  obtain ⟨hstored, hprocess, -, -⟩ := step_tick hstep
  refine ⟨hstored ▸ hkeeps.persisted, fun record hrecord floor hfloor => ?_,
    fun ledger hup floor hfloor => ?_⟩
  · exact hp floor (hkeeps.stored record (hstored ▸ hrecord) floor hfloor)
  · exact hq floor (hkeeps.ledger ledger (hprocess ▸ hup) floor hfloor)

/-- A floor is not released earlier after a tick. -/
theorem tick_later (hstep : step tlobjects w (.tick elapsed utc) = some w') (floor : SafetyFloor)
    (hbound : bound ≤ floor.monotonicRelease w.bootId w.monotonic) :
    bound ≤ floor.monotonicRelease w'.bootId w'.monotonic := by
  obtain ⟨-, -, hboot, hmonotonic⟩ := step_tick hstep
  rw [hboot]
  exact hbound.trans (floor.monotonicRelease_mono _ hmonotonic)

/-- A step within the boot keeps a restriction withheld. -/
theorem step_withheld (hbooted : w.Booted) (hwithheld : w.Withheld restriction bound)
    (hlive : w.Live restriction) (hevent : event.SameBoot)
    (hstep : step tlobjects w event = some w') : w'.Withheld restriction bound := by
  by_cases htick : ∃ elapsed utc, event = .tick elapsed utc
  · obtain ⟨elapsed, utc, rfl⟩ := htick
    exact tick_keeps hstep hwithheld (tick_later hstep) (tick_later hstep)
  · push Not at htick
    obtain ⟨hboot, hmonotonic, -⟩ := step_clock hstep htick hevent
    have hkeeps := step_keeps hstep htick hevent hbooted hwithheld hlive
      (inherited_release w bound) (fun _ h => h) fun _ _ _ _ _ _ h => h
    rw [Withheld, hboot, hmonotonic]
    exact hkeeps

/-- The conditions under which the bounds are claimed: the boot stays, and the restriction does not
end before the step. -/
def Continuing (restriction : Restriction) (w : SafetyWorld) (event : SafetyEvent) : Prop :=
  w.Live restriction ∧ event.SameBoot

/-- A run within the boot keeps a restriction withheld. -/
theorem run_withheld (hbooted : w.Booted) (hwithheld : w.Withheld restriction bound)
    (halong : Along (step tlobjects) (Continuing restriction) w events)
    (hrun : run (step tlobjects) w events = some w') :
    w'.Booted ∧ w'.Withheld restriction bound := by
  refine run_along (I := fun w => w.Booted ∧ w.Withheld restriction bound)
    (fun w event w' h hcontinuing hstep => ?_) ⟨hbooted, hwithheld⟩ halong hrun
  exact ⟨step_booted w event w' h.1 hstep,
    step_withheld h.1 h.2 hcontinuing.1 hcontinuing.2 hstep⟩

/-- The instant of a world. -/
def clock (w : SafetyWorld) : Moment := w.moment { uuid := fun _ => "" }

/-- The deadline of a restriction: `floor_deadline`, or the release of the episode of a method.  It
is infinite when no record could be read, and there is none without a process or an episode. -/
def deadline (w : SafetyWorld) (restriction : Restriction) : Option (WithTop ℚ) :=
  match w.process with
  | .down => none
  | .unreadable => some ⊤
  | .up ledger => (ledger.record.floorOf restriction).map fun floor =>
      (ledger.floorReleaseAt w.clock floor : WithTop ℚ)

/-- A bound of the floors of the ledger bounds the deadline. -/
theorem le_deadline (h : ∀ ledger, w.process = .up ledger →
      ∀ floor, ledger.record.floorOf restriction = some floor →
        bound ≤ ledger.floorReleaseAt w.clock floor) :
    ∀ deadline ∈ w.deadline restriction, (bound : WithTop ℚ) ≤ deadline := by
  intro deadline hdeadline
  unfold SafetyWorld.deadline at hdeadline
  split at hdeadline
  · cases hdeadline
  · obtain rfl := Option.some.inj hdeadline
    exact le_top
  · next ledger hprocess =>
    obtain ⟨floor, hfloor, rfl⟩ := Option.map_eq_some_iff.mp hdeadline
    exact WithTop.coe_le_coe.mpr (h ledger hprocess floor hfloor)

/-- A ledger with late releases has a late deadline. -/
theorem Keeps.le_deadline (hbooted : w.Booted)
    (h : w.Keeps restriction p fun floor => bound ≤ floor.monotonicRelease w.bootId w.monotonic) :
    ∀ deadline ∈ w.deadline restriction, (bound : WithTop ℚ) ≤ deadline := by
  refine SafetyWorld.le_deadline fun ledger hup floor hfloor => ?_
  have hbound := h.ledger ledger hup floor hfloor
  have hrelease := ledger.monotonicRelease_le_floorReleaseAt w.clock floor
  rw [hbooted ledger hup] at hrelease
  exact hbound.trans hrelease

/-! ## Recording a restriction -/

/-- The restriction that an operation writes, with its UTC deadline, when it turns a record into
another one: the deadline that Telegram gave, or the one of a flood or of a failed read. -/
def Writes (restriction : Restriction) (operation : SafetyOperation)
    (record record' : SafetyRecord) (untilUtc : ℚ) : Prop :=
  match restriction, operation with
  | .account, .recordFloor until_ _ => until_ = untilUtc
  | .account, .complete completion => completion.floorUntilUtc = some untilUtc
  | .method name, .complete _ => ∃ floor, record'.floorOf (.method name) = some floor ∧
      record.floorOf (.method name) ≠ some floor ∧ floor.untilUtc = untilUtc
  | _, _ => False

/-- The event records a restriction: its record reaches the store, and the ledger goes on with it
or crashes. -/
def Records (tlobjects : TlObjects) (w : SafetyWorld) (restriction : Restriction)
    (event : SafetyEvent) (untilUtc : ℚ) : Prop :=
  ∃ ledger operation surroundings outcome record, w.process = .up ledger ∧
    event = .operate operation surroundings outcome ∧
    (outcome = .saved ∨ outcome = .crashed true) ∧
    (ledger.call tlobjects (w.moment surroundings) operation).proposal = some (.ok record) ∧
    ledger.storageFailed = false ∧ validateSafetyRecord tlobjects record = true ∧
    Writes restriction operation ledger.record record untilUtc

/-- The floor of a recorded restriction. -/
theorem writes_floor {operation : SafetyOperation} {now : Moment}
    (hproposal : (ledger.call tlobjects now operation).proposal = some (.ok record))
    (hwrites : Writes restriction operation ledger.record record untilUtc) :
    ∀ floor, record.floorOf restriction = some floor → untilUtc ≤ floor.untilUtc ∧
      now.monotonic + max 0 (untilUtc - now.utc) ≤
        floor.monotonicRelease ledger.bootId now.monotonic := by
  have hextended : ∀ self : SafetyLedger, self.bootId = ledger.bootId → ∀ old : SafetyFloor,
      untilUtc ≤ (self.extendedFloor now old untilUtc).untilUtc ∧
        now.monotonic + max 0 (untilUtc - now.utc) ≤
          (self.extendedFloor now old untilUtc).monotonicRelease ledger.bootId now.monotonic := by
    intro self hboot old
    refine ⟨le_max_right _ _, ?_⟩
    rw [SafetyFloor.monotonicRelease_of_eq _ (show _ = ledger.bootId from hboot)]
    exact le_max_right _ _
  intro floor hfloor
  cases restriction with
  | account =>
    obtain rfl := Option.some.inj hfloor
    cases operation with
    | recordFloor until_ circuitOpen =>
      obtain rfl : until_ = untilUtc := hwrites
      have hguarded := SafetyLedger.recordFloor_ok (Option.some.inj hproposal)
      rw [hguarded.floor]
      exact hextended ledger rfl _
    | complete completion =>
      obtain ⟨settled, floor, -, hguarded, hcase⟩ :=
        SafetyLedger.complete_ok (Option.some.inj hproposal)
      have hsome : completion.floorUntilUtc = some untilUtc := hwrites
      rcases hcase with ⟨hnone, -⟩ | ⟨until_, hsome', rfl⟩
      · rw [hsome] at hnone
        cases hnone
      · obtain rfl := Option.some.inj (hsome.symm.trans hsome')
        rw [hguarded.floor]
        exact hextended _ (ledger.holdOutcome_bootId completion) _
    | _ => exact hwrites.elim
  | method name =>
    cases operation with
    | complete completion =>
      obtain ⟨floor', hfloor', hnew, rfl⟩ := hwrites
      obtain rfl := Option.some.inj (hfloor.symm.trans hfloor')
      rcases SafetyLedger.complete_fresh (Option.some.inj hproposal) name _ hfloor with
        hold | ⟨delay, hdelay, rfl⟩
      · exact absurd hold hnew
      · refine ⟨le_rfl, ?_⟩
        have hboot := ledger.holdOutcome_bootId completion
        rw [SafetyFloor.monotonicRelease_of_eq _ (show _ = ledger.bootId from hboot)]
        show now.monotonic + max 0 (now.utc + delay - now.utc) ≤ now.monotonic + delay
        rw [add_sub_cancel_left, max_eq_right hdelay]
    | _ => exact hwrites.elim

/-- A commit that reaches the store, and is not followed by a failed save, puts its record
everywhere. -/
theorem keeps_of_commit (hproposal : call.proposal = some (.ok record))
    (hstorage : call.ledger.storageFailed = false)
    (hvalid : validateSafetyRecord tlobjects record = true)
    (houtcome : outcome = .saved ∨ outcome = .crashed true)
    (hsettle : ∀ ledger, (call.settle ledger).record = ledger.record)
    (hp : ∀ floor, record.floorOf restriction = some floor → p floor) :
    (w.commit tlobjects call outcome).Keeps restriction p p := by
  have hcommit : w.commit tlobjects call outcome = { w with
      stored := SaveOutcome.stored outcome w.stored record
      process := SaveOutcome.process outcome call.ledger record call.settle } := by
    rw [commit, hproposal]
    exact if_pos ⟨hstorage, hvalid⟩
  have hstored : (w.commit tlobjects call outcome).stored = some record := by
    rw [hcommit]
    rcases houtcome with rfl | rfl <;> rfl
  refine ⟨?_, fun record' hrecord' floor hfloor => ?_, fun ledger hup floor hfloor => ?_⟩
  · rw [hstored]
    exact Option.some_ne_none record
  · obtain rfl := Option.some.inj (hstored.symm.trans hrecord')
    exact hp floor hfloor
  · rw [hcommit] at hup
    rcases houtcome with rfl | rfl
    · obtain rfl := SafetyProcess.up.inj hup
      have hrecord : (pruneClaims (call.settle { call.ledger with record := record })).record =
          record := hsettle _
      rw [hrecord] at hfloor
      exact hp floor hfloor
    · exact SafetyProcess.noConfusion hup

/-- A recorded restriction is written wherever the world keeps a record. -/
theorem records_keeps (hbooted : w.Booted)
    (hrecords : w.Records tlobjects restriction event untilUtc)
    (hstep : step tlobjects w event = some w') :
    w'.Withheld restriction (w.monotonic + max 0 (untilUtc - w.utc)) ∧
      w'.Keeps restriction (fun floor => untilUtc ≤ floor.untilUtc)
        fun floor => untilUtc ≤ floor.untilUtc := by
  obtain ⟨ledger, operation, surroundings, outcome, record, hprocess, rfl, houtcome, hproposal,
    hstorage, hvalid, hwrites⟩ := hrecords
  have hfloor := writes_floor hproposal hwrites
  have howner : SafetyLedger.SameOwner ledger
      (ledger.call tlobjects (w.moment surroundings) operation).ledger :=
    ledger.call_sameOwner operation
  have hsettle : ∀ settled : SafetyLedger,
      ((ledger.call tlobjects (w.moment surroundings) operation).settle settled).record =
        settled.record := fun settled => (ledger.settle_sameOwner operation settled).record
  obtain ⟨hboot, hmonotonic, -⟩ := step_clock hstep nofun trivial
  simp only [step, hprocess] at hstep
  obtain rfl := Option.some.inj hstep
  rw [← howner.storageFailed] at hstorage
  rw [hbooted ledger hprocess] at hfloor
  refine ⟨?_, ?_⟩
  · rw [Withheld, hboot, hmonotonic]
    exact keeps_of_commit hproposal hstorage hvalid houtcome hsettle
      fun floor hsome => (hfloor floor hsome).2
  · exact keeps_of_commit hproposal hstorage hvalid houtcome hsettle
      fun floor hsome => (hfloor floor hsome).1

/-- The UTC deadline of a live restriction never goes back, not even over a reboot. -/
theorem run_utc (hbooted : w.Booted)
    (hkeeps : w.Keeps restriction (fun floor => untilUtc ≤ floor.untilUtc)
      fun floor => untilUtc ≤ floor.untilUtc)
    (halong : Along (step tlobjects) (fun w _ => w.Live restriction) w events)
    (hrun : run (step tlobjects) w events = some w') :
    w'.Keeps restriction (fun floor => untilUtc ≤ floor.untilUtc)
      fun floor => untilUtc ≤ floor.untilUtc := by
  refine (run_along (I := fun w => w.Booted ∧ w.Keeps restriction
    (fun floor => untilUtc ≤ floor.untilUtc) fun floor => untilUtc ≤ floor.untilUtc)
    (fun w event w' h hlive hstep => ⟨step_booted w event w' h.1 hstep, ?_⟩)
    ⟨hbooted, hkeeps⟩ halong hrun).2
  by_cases htick : ∃ elapsed utc, event = .tick elapsed utc
  · obtain ⟨elapsed, utc, rfl⟩ := htick
    exact tick_keeps hstep h.2 (fun _ hutc => hutc) fun _ hutc => hutc
  · push Not at htick
    by_cases hboot : event.SameBoot
    · exact step_keeps hstep htick hboot h.1 h.2 hlive
        (fun _ _ hstricter hutc => hutc.trans hstricter.utc) (fun _ hutc => hutc)
        fun _ _ _ _ _ _ hutc => hutc
    · cases event with
      | reboot bootId monotonic utc =>
        simp only [step] at hstep
        split_ifs at hstep
        obtain rfl := Option.some.inj hstep
        exact ⟨h.2.persisted, h.2.stored, fun _ hup => SafetyProcess.noConfusion hup⟩
      | _ => exact absurd trivial hboot

/-! ## Reloading a restriction -/

/-- The next load does not find a floor of another boot. -/
def FindsBoot (restriction : Restriction) (w : SafetyWorld) (event : SafetyEvent) : Prop :=
  ∀ reads, event = .load reads → ∀ record, w.stored = some record →
    ∀ floor, record.floorOf restriction = some floor → floor.bootId = w.bootId

/-- The ledger is withheld; a stored floor is so only if it was written in this boot. -/
def LedgerWithheld (w : SafetyWorld) (restriction : Restriction) (bound : ℚ) : Prop :=
  w.Keeps restriction
    (fun floor => floor.bootId = w.bootId →
      bound ≤ floor.monotonicRelease w.bootId w.monotonic)
    fun floor => bound ≤ floor.monotonicRelease w.bootId w.monotonic

/-- A run within the boot keeps the ledger withheld, as long as no load falls back to a floor of
another boot. -/
theorem run_ledgerWithheld (hbooted : w.Booted) (hwithheld : w.LedgerWithheld restriction bound)
    (halong : Along (step tlobjects)
      (fun w event => Continuing restriction w event ∧ FindsBoot restriction w event) w events)
    (hrun : run (step tlobjects) w events = some w') :
    w'.Booted ∧ w'.LedgerWithheld restriction bound := by
  refine run_along (I := fun w => w.Booted ∧ w.LedgerWithheld restriction bound)
    (fun w event w' h hcontinuing hstep => ⟨step_booted w event w' h.1 hstep, ?_⟩)
    ⟨hbooted, hwithheld⟩ halong hrun
  obtain ⟨⟨hlive, hevent⟩, hfinds⟩ := hcontinuing
  by_cases htick : ∃ elapsed utc, event = .tick elapsed utc
  · obtain ⟨elapsed, utc, rfl⟩ := htick
    have hboot := (step_tick hstep).2.2.1
    exact tick_keeps hstep h.2
      (fun floor hfloor hsame => tick_later hstep floor (hfloor (hsame.trans hboot)))
      (tick_later hstep)
  · push Not at htick
    obtain ⟨hboot, hmonotonic, -⟩ := step_clock hstep htick hevent
    have hkeeps := step_keeps hstep htick hevent h.1 h.2 hlive (inherited_release w bound)
      (fun _ hbound _ => hbound) fun reads hload record hrecord floor hfloor hstored =>
        hstored (hfinds reads hload record hrecord floor hfloor)
    rw [LedgerWithheld, hboot, hmonotonic]
    exact hkeeps

/-- A loaded floor is at least as strict as the stored one, and bounded by its UTC deadline. -/
theorem load_floor (hrecord : w.stored = some record)
    (hfloor : record.floorOf restriction = some floor)
    (hstep : step tlobjects w (.load reads) = some w') :
    w'.stored = some record ∧ w'.bootId = w.bootId ∧ w'.monotonic = w.monotonic ∧
      w'.utc = w.utc ∧ ∀ ledger, w'.process = .up ledger →
        ∀ floor', ledger.record.floorOf restriction = some floor' →
          LoadedFloor w ledger floor floor' := by
  obtain ⟨hboot, hmonotonic, hutc⟩ := step_clock hstep nofun trivial
  simp only [step] at hstep
  split at hstep
  · split_ifs at hstep
    obtain rfl := Option.some.inj hstep
    refine ⟨hrecord, hboot, hmonotonic, hutc, fun ledger hup floor' hfloor' => ?_⟩
    have hup : w.loadProcess tlobjects reads = .up ledger := hup
    rw [loadProcess, hrecord] at hup
    obtain ⟨found, hfound, hloaded⟩ := (loadStored_floors hup).2 floor' hfloor'
    obtain rfl := Option.some.inj (hfloor.symm.trans hfound)
    exact hloaded
  · cases hstep

/-- A load keeps a restriction withheld until the remaining seconds of a floor of another boot have
passed. -/
theorem load_withheld (hrecord : w.stored = some record)
    (hfloor : record.floorOf restriction = some floor) (hother : floor.bootId ≠ w.bootId)
    (hstep : step tlobjects w (.load reads) = some w') :
    w'.Withheld restriction (w.monotonic + floor.remainingSeconds) := by
  obtain ⟨hstored, hboot, hmonotonic, -, hloaded⟩ := load_floor hrecord hfloor hstep
  have hrelease := floor.monotonicRelease_of_ne w.monotonic hother
  rw [Withheld, hboot, hmonotonic]
  refine ⟨?_, fun record' hrecord' floor' hfloor' => ?_, fun ledger hup floor' hfloor' => ?_⟩
  · rw [hstored]
    exact Option.some_ne_none record
  · obtain rfl := Option.some.inj (hstored.symm.trans hrecord')
    obtain rfl := Option.some.inj (hfloor.symm.trans hfloor')
    exact hrelease.ge
  · exact hrelease.ge.trans (hloaded ledger hup floor' hfloor').stricter.release

/-- A load that does not fail partway withholds a restriction until its UTC deadline. -/
theorem load_ledgerWithheld (hrecord : w.stored = some record)
    (hfloor : record.floorOf restriction = some floor) (hother : floor.bootId ≠ w.bootId)
    (hstep : step tlobjects w (.load reads) = some w')
    (hcomplete : ∀ ledger, w'.process = .up ledger → ledger.storageFailed = false) :
    w'.LedgerWithheld restriction (w.monotonic + (floor.untilUtc - w.utc)) := by
  obtain ⟨hstored, hboot, hmonotonic, -, hloaded⟩ := load_floor hrecord hfloor hstep
  rw [LedgerWithheld, hboot, hmonotonic]
  refine ⟨?_, fun record' hrecord' floor' hfloor' hsame => ?_, fun ledger hup floor' hfloor' => ?_⟩
  · rw [hstored]
    exact Option.some_ne_none record
  · obtain rfl := Option.some.inj (hstored.symm.trans hrecord')
    obtain rfl := Option.some.inj (hfloor.symm.trans hfloor')
    exact absurd hsame hother
  · obtain ⟨hsame, hdeadline⟩ :=
      (hloaded ledger hup floor' hfloor').rebased hother (hcomplete ledger hup)
    rw [SafetyFloor.monotonicRelease_of_eq _ hsame]
    exact hdeadline

/-- Right after any load, the deadline is not before the UTC deadline of the stored floor. -/
theorem load_deadline (hrecord : w.stored = some record)
    (hfloor : record.floorOf restriction = some floor)
    (hstep : step tlobjects w (.load reads) = some w') :
    ∀ deadline ∈ w'.deadline restriction,
      ((w.monotonic + (floor.untilUtc - w.utc) : ℚ) : WithTop ℚ) ≤ deadline := by
  obtain ⟨-, -, hmonotonic, hutc, hloaded⟩ := load_floor hrecord hfloor hstep
  refine SafetyWorld.le_deadline fun ledger hup floor' hfloor' => ?_
  have hrelease := ledger.utc_le_floorReleaseAt w'.clock floor'
  have hlater := (hloaded ledger hup floor' hfloor').stricter.utc
  have hrelease : w'.monotonic + (floor'.untilUtc - w'.utc) ≤
      ledger.floorReleaseAt w'.clock floor' := hrelease
  rw [hmonotonic, hutc] at hrelease
  linarith

/-- A host with an empty store. -/
def sampleHost : SafetyWorld := { stored := none, bootId := "boot", monotonic := 0, utc := 100 }

/-- The first load of a ledger. -/
def sampleReads : LoadReads := { dcId := 2, keyId := some 7, run := "first" }

/-- The constructors that a sample run needs: none. -/
def sampleObjects : TlObjects := { size := 0, request := fun _ => none }

/-- The ledger of the sample host after its first load. -/
def sampleLedger : SafetyLedger :=
  { bootId := "boot", run := "first", record := initializeRecord "boot" 100 sampleReads none }

/-- The sample host after its first load. -/
def sampleWorld : SafetyWorld := { sampleHost with process := .up sampleLedger }

/-- The first load of the sample host. -/
theorem step_sampleLoad : step sampleObjects sampleHost (.load sampleReads) = some sampleWorld := by
  have hvalid : validateSafetyRecord sampleObjects sampleLedger.record ≠ false := by
    decide +kernel
  have hload : sampleHost.loadProcess sampleObjects sampleReads = .up sampleLedger :=
    (if_neg hvalid).trans (if_neg (by decide))
  show some { sampleHost with process := sampleHost.loadProcess sampleObjects sampleReads } = _
  rw [hload]
  rfl

/-- A recorded floor. -/
def sampleFloor : SafetyEvent :=
  .operate (.recordFloor 160 false) { uuid := fun _ => "id" } .saved

/-- The next process of the sample host. -/
def nextReads : LoadReads := { sampleReads with run := "second" }

/-- The sample world records a floor. -/
theorem sampleFloor_records : sampleWorld.Records sampleObjects .account sampleFloor 160 := by
  refine ⟨sampleLedger, _, _, _, _, rfl, rfl, Or.inl rfl, rfl, rfl, ?_, rfl⟩
  decide +kernel

/-- After the floor was recorded, time passes, UTC jumps ahead, and the process restarts. -/
def sampleRestart : List SafetyEvent := [.tick 10 5000, .crash, .load nextReads]

theorem account_live (w : SafetyWorld) : w.Live .account := fun _ _ => Option.some_ne_none _

end SafetyWorld

end McpTelegram
