import McpTelegram.Foundations.Failing
import McpTelegram.Safety.World

/-!
# What the operations change

Inversion lemmas for the operations of the ledger: what a change leaves alone, and what is known of
its record when it does not raise.  The automatic recovery only ever changes the generation, the
protection and the recovery trial of a record, except when it consumes its trial.
-/

namespace McpTelegram

open Foundations

variable {event : RecoveryEvent} {untilUtc : ℚ}

/-! ## Changes of the recovery alone -/

/-- A change of nothing but the generation, the protection and the recovery trial. -/
structure RecoveryOnly (record record' : SafetyRecord) : Prop where
  scope : record'.scope = record.scope
  floor : record'.floor = record.floor
  intents : record'.intents = record.intents
  transition : record'.transition = record.transition
  methods : record'.methods = record.methods

namespace RecoveryOnly

variable {record record' record'' : SafetyRecord}

theorem refl (record : SafetyRecord) : RecoveryOnly record record := ⟨rfl, rfl, rfl, rfl, rfl⟩

/-- Changes of the recovery alone compose. -/
theorem trans (h : RecoveryOnly record record') (h' : RecoveryOnly record' record'') :
    RecoveryOnly record record'' :=
  ⟨h'.scope.trans h.scope, h'.floor.trans h.floor, h'.intents.trans h.intents,
    h'.transition.trans h.transition, h'.methods.trans h.methods⟩

end RecoveryOnly

/-- Nothing protects the record, or only an unresolved outcome does. -/
def Unprotected (record : SafetyRecord) : Prop :=
  record.protection = none ∨ record.protection = some .unresolvedOutboundOutcome

/-- A change of the recovery alone that does not drop the protection, and that exhausts a trial only
under a protection of its own. -/
structure Guarded (record record' : SafetyRecord) : Prop extends RecoveryOnly record record' where
  guarded : record'.protection = none → record.protection = none
  exhausted : SafetyLedger.autoRecoveryPhase record' = .exhausted → Unprotected record' →
    SafetyLedger.autoRecoveryPhase record = .exhausted ∧ Unprotected record

namespace Guarded

variable {record record' record'' : SafetyRecord}

theorem refl (record : SafetyRecord) : Guarded record record :=
  ⟨.refl record, fun h => h, fun h h' => ⟨h, h'⟩⟩

/-- Guarded changes compose. -/
theorem trans (h : Guarded record record') (h' : Guarded record' record'') :
    Guarded record record'' := by
  refine ⟨h.toRecoveryOnly.trans h'.toRecoveryOnly, fun hnone => h.guarded (h'.guarded hnone),
    fun hphase hlow => ?_⟩
  obtain ⟨hphase', hlow'⟩ := h'.exhausted hphase hlow
  exact h.exhausted hphase' hlow'

end Guarded

/-- A command that neither consumes a trial nor marks its success. -/
def RecoveryCommand.Quiet (command : RecoveryCommand) : Prop :=
  command ≠ .consume ∧ command ≠ .markSuccess

namespace SafetyLedger

variable {self : SafetyLedger} {tlobjects : TlObjects} {now : Moment}
  {record record' : SafetyRecord}

variable {trial : RecoveryTrial}

/-! ## Automatic recovery -/

/-- A new fence protects. -/
theorem fenceAuto_guarded (now : Moment) (record : SafetyRecord) (automatic : AutomaticRecovery)
    (cause : RecoveryCause) : Guarded record (fenceAuto now record automatic cause) := by
  refine ⟨⟨rfl, rfl, rfl, rfl, rfl⟩, fun hnone => ?_, fun hphase => ?_⟩
  · cases hnone
  · cases hphase

/-- An exhausted trial protects. -/
theorem exhaustAuto_guarded (record : SafetyRecord) (trial : RecoveryTrial)
    (automatic : AutomaticRecovery) (observedFlood : Bool) :
    Guarded record (exhaustAuto record trial automatic observedFlood) := by
  refine ⟨⟨rfl, rfl, rfl, rfl, rfl⟩, fun hnone => ?_, fun _ hlow => ?_⟩
  · cases hnone
  · cases observedFlood <;> rcases hlow with hlow | hlow <;> cases hlow

/-- A change of the automatic part of a trial keeps its phase. -/
theorem guarded_of_automatic {automatic : Option AutomaticRecovery}
    (htrial : record.recovery = some trial) :
    Guarded record { record with recovery := some { trial with automatic := automatic } } := by
  refine ⟨⟨rfl, rfl, rfl, rfl, rfl⟩, fun hnone => hnone, fun hphase hlow => ⟨?_, hlow⟩⟩
  rw [autoRecoveryPhase, htrial]
  exact hphase

/-- `_strengthen_auto_flood` is guarded. -/
theorem strengthenAutoFlood_guarded (automatic : AutomaticRecovery)
    (htrial : record.recovery = some trial) :
    Guarded record (self.strengthenAutoFlood now record trial automatic) := by
  unfold strengthenAutoFlood
  dsimp only
  split_ifs
  · exact exhaustAuto_guarded record trial _ true
  · split
    · exact Guarded.refl record
    · exact guarded_of_automatic htrial
  · exact guarded_of_automatic htrial

/-- `_schedule_auto_resume` is guarded. -/
theorem scheduleAutoResume_guarded (record : SafetyRecord) (cause : RecoveryCause)
    (observedFlood : Bool) :
    Guarded record (self.scheduleAutoResume now record cause observedFlood) := by
  unfold scheduleAutoResume
  split
  · exact fenceAuto_guarded now record _ cause
  · next trial htrial =>
    by_cases hexhausted : trial.state = .exhausted
    · rw [if_pos hexhausted]
      exact Guarded.refl record
    · rw [if_neg hexhausted]
      split
      · exact fenceAuto_guarded now record _ cause
      · next automatic _ =>
        dsimp only
        split_ifs
        · have h := exhaustAuto_guarded record trial
            (self.advanceAutoEpisode now record trial automatic cause) observedFlood
          exact ⟨⟨h.scope, h.floor, h.intents, h.transition, h.methods⟩, h.guarded, h.exhausted⟩
        · exact fenceAuto_guarded now record _ cause
        · exact strengthenAutoFlood_guarded automatic htrial
        · exact Guarded.refl record

/-- `_apply_auto_fence` is guarded. -/
theorem applyAutoFence_guarded (record : SafetyRecord) (event : RecoveryEvent)
    (cause : Option RecoveryCause) (observedFlood : Bool) :
    Guarded record (self.applyAutoFence now record event cause observedFlood) :=
  scheduleAutoResume_guarded record _ observedFlood

/-- `_settle_auto_fencing` is guarded. -/
theorem settleAutoFencing_guarded (record : SafetyRecord) (trial : RecoveryTrial)
    (automatic : AutomaticRecovery) :
    Guarded record (self.settleAutoFencing now record trial automatic) := by
  unfold settleAutoFencing
  split_ifs
  · exact Guarded.refl record
  · refine ⟨⟨rfl, rfl, rfl, rfl, rfl⟩, fun hnone => hnone, fun hphase => ?_⟩
    cases hphase

/-- What `_apply_auto_transition` does to the record when it does not raise. -/
theorem applyAutoTransition_cases {decision : RecoveryDecision} {cause : Option RecoveryCause}
    {observedFlood : Bool}
    (h : self.applyAutoTransition now record decision event cause observedFlood = .ok record') :
    (decision.command.Quiet ∧ Guarded record record') ∨
      (decision.command = .consume ∧ ∃ trial automatic, record.recovery = some trial ∧
        trial.automatic = some automatic ∧
        record' = self.consumeAutoRecord now record trial automatic) ∨
      (decision.command = .markSuccess ∧ ∃ trial, record.recovery = some trial ∧
        record' = { record with
          recovery := some { trial with state := .succeeded }, protection := none }) := by
  have hassert : ∀ {changed : SafetyRecord},
      assertAutoTransitionPhase changed decision = .ok record' → changed = record' := by
    intro changed hchanged
    rw [assertAutoTransitionPhase] at hchanged
    split_ifs at hchanged
    exact Except.ok.inj hchanged
  have hautomatic : ∀ {change : RecoveryTrial → AutomaticRecovery → SafetyRecord},
      (withAutomatic record change).bind (assertAutoTransitionPhase · decision) = .ok record' →
      ∃ trial automatic, record.recovery = some trial ∧ trial.automatic = some automatic ∧
        record' = change trial automatic := by
    intro change hchange
    obtain ⟨changed, hwith, hphase⟩ := except_bind_eq_ok.mp hchange
    obtain rfl := hassert hphase
    unfold withAutomatic at hwith
    split at hwith
    · cases hwith
    · next trial htrial =>
      split at hwith
      · cases hwith
      · next automatic hauto => exact ⟨trial, automatic, htrial, hauto, (Except.ok.inj hwith).symm⟩
  unfold applyAutoTransition at h
  split at h
  iterate 3
    · next hcommand =>
      obtain rfl := Except.ok.inj h
      exact Or.inl ⟨hcommand ▸ ⟨nofun, nofun⟩, Guarded.refl record⟩
  iterate 2
    · next hcommand =>
      obtain rfl := hassert h
      exact Or.inl ⟨hcommand ▸ ⟨nofun, nofun⟩, applyAutoFence_guarded record event cause _⟩
  · next hcommand =>
    obtain ⟨trial, automatic, -, -, rfl⟩ := hautomatic h
    exact Or.inl ⟨hcommand ▸ ⟨nofun, nofun⟩, settleAutoFencing_guarded record trial automatic⟩
  · next hcommand =>
    obtain ⟨trial, automatic, htrial, hauto, rfl⟩ := hautomatic h
    exact Or.inr (Or.inl ⟨hcommand, trial, automatic, htrial, hauto, rfl⟩)
  · next hcommand =>
    obtain ⟨trial, automatic, htrial, -, rfl⟩ := hautomatic h
    exact Or.inr (Or.inr ⟨hcommand, trial, htrial, rfl⟩)
  · next hcommand =>
    obtain rfl := hassert h
    refine Or.inl ⟨hcommand ▸ ⟨nofun, nofun⟩, ⟨rfl, rfl, rfl, rfl, rfl⟩, fun hnone => hnone, ?_⟩
    exact nofun

end SafetyLedger

/-! ## The decisions of the policy -/

namespace RecoverySnapshot

variable (s : RecoverySnapshot)

theorem wait_quiet (reason : RecoveryReason) : (s.decision .wait reason).command.Quiet :=
  ⟨nofun, nofun⟩

theorem reject_quiet (reason : RecoveryReason) : (s.decision .reject reason).command.Quiet :=
  ⟨nofun, nofun⟩

/-- A settled or observed failure is quiet. -/
theorem failureDecision_quiet (rule : RecoveryRule) : (s.failureDecision rule).command.Quiet := by
  unfold failureDecision
  dsimp only
  split
  · next preliminary h =>
    unfold failurePrecondition at h
    split_ifs at h
    · exact Option.some.inj h ▸ s.wait_quiet _
    · exact Option.some.inj h ▸ s.wait_quiet _
    · exact Option.some.inj h ▸ ⟨nofun, nofun⟩
  · split
    · exact s.wait_quiet _
    · split_ifs
      all_goals exact ⟨nofun, nofun⟩

/-- A strengthened flood is quiet. -/
theorem strengthenDecision_quiet : s.strengthenDecision.command.Quiet := by
  unfold strengthenDecision
  by_cases hcause : s.cause ≠ some .floodWait
  · rw [if_pos hcause]
    exact s.wait_quiet _
  · rw [if_neg hcause]
    split
    · exact s.wait_quiet _
    · split_ifs
      · exact ⟨nofun, nofun⟩
      · exact ⟨nofun, nofun⟩

/-- A quiesced fence is quiet. -/
theorem quiesceDecision_quiet : s.quiesceDecision.command.Quiet := by
  unfold quiesceDecision
  split
  · exact s.wait_quiet _
  · split_ifs
    · exact s.wait_quiet _
    · exact ⟨nofun, nofun⟩

/-- A confirmed stability is quiet. -/
theorem stabilityDecision_quiet : s.stabilityDecision.command.Quiet := by
  unfold stabilityDecision
  split
  · exact s.wait_quiet _
  · split_ifs
    · exact s.reject_quiet _
    · exact s.wait_quiet _
    · exact ⟨nofun, nofun⟩

/-- An action behind the holds of `_decide_rule` is quiet when the action is. -/
theorem autoAction_quiet {action : RecoverySnapshot → RecoveryDecision}
    (h : (action s).command.Quiet) : (s.autoAction action).command.Quiet := by
  unfold autoAction
  split
  · exact s.wait_quiet _
  · split_ifs
    · exact s.wait_quiet _
    · exact h

/-- Only the rules of a due trial and of its success are not quiet. -/
theorem decideRule_quiet {rule : RecoveryRule} (hdue : rule ≠ .due) (hsuccess : rule ≠ .success) :
    (s.decideRule rule).command.Quiet := by
  unfold decideRule
  split
  · exact s.reject_quiet _
  · split
    · exact s.wait_quiet _
    · exact s.wait_quiet _
  · exact s.autoAction_quiet s.strengthenDecision_quiet
  · exact s.autoAction_quiet s.quiesceDecision_quiet
  · exact absurd rfl hdue
  · exact absurd rfl hsuccess
  · exact s.autoAction_quiet s.stabilityDecision_quiet
  · split
    · exact s.wait_quiet _
    · exact s.failureDecision_quiet _

/-- Every event but a due trial and its success is decided quietly. -/
theorem decideAutoRecovery_quiet (hdue : event ≠ .due) (hsuccess : event ≠ .trialSuccess) :
    (decideAutoRecovery s event).command.Quiet := by
  refine s.decideRule_quiet ?_ ?_
  all_goals cases hphase : s.phase <;> cases event <;> simp_all [recoveryRule]

/-- A snapshot that no hold of `_guard` stops is safe. -/
theorem safe_of_guard {barrier : Bool} (h : s.guard barrier = none) : s.safe = true := by
  unfold guard at h
  split_ifs at h with hsafe
  all_goals exact Bool.not_eq_false _ ▸ hsafe

/-- What is decided of a due trial: it is quiet, or it is consumed in a safe snapshot. -/
theorem dueDecision_cases :
    s.dueDecision.command.Quiet ∨ (s.dueDecision.command = .consume ∧ s.safe = true) := by
  unfold dueDecision
  split
  · exact Or.inl (s.wait_quiet _)
  · next hguard =>
    split_ifs
    · exact Or.inl (s.wait_quiet _)
    · exact Or.inl (s.wait_quiet _)
    · exact Or.inr ⟨rfl, s.safe_of_guard hguard⟩

/-- What is decided when a trial is due. -/
theorem decideAutoRecovery_due_cases : (decideAutoRecovery s .due).command.Quiet ∨
    ((decideAutoRecovery s .due).command = .consume ∧ s.safe = true) := by
  unfold decideAutoRecovery
  by_cases hphase : s.phase = .waiting
  · rw [hphase]
    show (s.autoAction dueDecision).command.Quiet ∨ _
    rcases s.dueDecision_cases with hquiet | ⟨hconsume, hsafe⟩
    · exact Or.inl (s.autoAction_quiet hquiet)
    · by_cases hcommand : (s.autoAction dueDecision).command.Quiet
      · exact Or.inl hcommand
      · refine Or.inr ⟨?_, hsafe⟩
        show (s.autoAction dueDecision).command = _
        unfold autoAction at hcommand ⊢
        split at hcommand
        · exact absurd (s.wait_quiet _) hcommand
        · split_ifs at hcommand ⊢
          · exact absurd (s.wait_quiet _) hcommand
          · exact hconsume
  · refine Or.inl (s.decideRule_quiet ?_ ?_)
    all_goals cases h : s.phase <;> simp_all [recoveryRule]

end RecoverySnapshot

/-! ## The recovery of the ledger -/

namespace SafetyLedger

variable {self : SafetyLedger} {tlobjects : TlObjects} {now : Moment}
  {record record' : SafetyRecord}

variable {attemptId : String} {report : AutoReport} {observedFlood : Bool}
    {cause : Option RecoveryCause} {completion : Completion} {binding : NativeWriteReceiptBinding}

/-- A protection is added, and the trial stays or leaves the exhausted phase. -/
theorem guarded_of_protection {generation : String} {protection : Protection}
    {recovery : Option RecoveryTrial}
    (hphase : autoRecoveryPhase { record with recovery := recovery } ≠ .exhausted) :
    Guarded record { record with
      generation := generation, protection := some protection, recovery := recovery } := by
  refine ⟨⟨rfl, rfl, rfl, rfl, rfl⟩, fun hnone => ?_, fun hexhausted => ?_⟩
  · cases hnone
  · exact absurd hexhausted hphase

/-- `_transition_auto_owned` is guarded for every event but a due trial and its success. -/
theorem transitionAutoOwned_guarded (hdue : event ≠ .due) (hsuccess : event ≠ .trialSuccess)
    (h : self.transitionAutoOwned now record event report observedFlood = .ok record') :
    Guarded record record' := by
  have hquiet : (self.decideAutoTransition now record event report).command.Quiet :=
    RecoverySnapshot.decideAutoRecovery_quiet _ hdue hsuccess
  rcases applyAutoTransition_cases h with ⟨-, hguarded⟩ | ⟨hcommand, -⟩ | ⟨hcommand, -⟩
  · exact hguarded
  · exact absurd hcommand hquiet.1
  · exact absurd hcommand hquiet.2

/-- `_invalidate_recovery_trial` is guarded. -/
theorem invalidateRecoveryTrial_guarded {knownFlood : Bool}
    (h : self.invalidateRecoveryTrial now record knownFlood cause = .ok record') :
    Guarded record record' := by
  unfold invalidateRecoveryTrial at h
  dsimp only at h
  generalize (if knownFlood then RecoveryCause.floodWait else cause.getD .readUncertainty) =
    selected at h
  split at h
  · exact transitionAutoOwned_guarded (by decide) (by decide) h
  · next trial htrial =>
    split_ifs at h
    · exact transitionAutoOwned_guarded (by decide) (by decide) h
    · obtain rfl := Except.ok.inj h
      exact ⟨⟨rfl, rfl, rfl, rfl, rfl⟩, fun hnone => hnone, fun hphase hlow => ⟨hphase, hlow⟩⟩
    · obtain rfl := Except.ok.inj h
      exact guarded_of_protection nofun
    · obtain rfl := Except.ok.inj h
      exact Guarded.refl record

/-- An open circuit is guarded. -/
theorem openCircuit_guarded (now : Moment) (record : SafetyRecord) (circuitOpen : Bool) :
    Guarded record (openCircuit now record circuitOpen) := by
  unfold openCircuit
  split_ifs with h
  · exact guarded_of_protection h.2
  · exact Guarded.refl record

/-- `settle_recovery` is guarded. -/
theorem settleRecovery_guarded (h : self.settleRecovery now record completion = .ok record') :
    Guarded record record' := by
  unfold settleRecovery at h
  dsimp only at h
  split_ifs at h
  · exact Except.ok.inj h ▸ Guarded.refl record
  · exact Except.ok.inj h ▸ Guarded.refl record
  · exact invalidateRecoveryTrial_guarded h
  · exact Except.ok.inj h ▸ Guarded.refl record

/-- `fail_recovery` is guarded. -/
theorem failRecovery_guarded (record : SafetyRecord) :
    Guarded record (self.failRecovery now record) := by
  unfold failRecovery
  split
  · exact Guarded.refl record
  · split_ifs
    · exact guarded_of_protection nofun
    · exact Guarded.refl record

/-- `fail_automatic_recovery` is guarded. -/
theorem failAutomaticRecovery_guarded
    (h : self.failAutomaticRecovery now record cause = .ok record') : Guarded record record' := by
  unfold failAutomaticRecovery at h
  split at h
  · exact Except.ok.inj h ▸ Guarded.refl record
  · exact transitionAutoOwned_guarded (by decide) (by decide) h

/-- `authorize_recovery` is guarded. -/
theorem authorizeRecovery_guarded {expectedGeneration : String} {acknowledged : Bool}
    (h : self.authorizeRecovery now record expectedGeneration acknowledged = .ok record') :
    Guarded record record' := by
  unfold authorizeRecovery at h
  split_ifs at h
  obtain rfl := Except.ok.inj h
  exact ⟨⟨rfl, rfl, rfl, rfl, rfl⟩, fun hnone => hnone, nofun⟩

/-- The event of a maintenance is an observed failure or a reconciliation. -/
theorem autoMaintenanceEvent_cases (self : SafetyLedger) (startup : Bool) :
    self.autoMaintenanceEvent startup = .startupReconcile ∨
      self.autoMaintenanceEvent startup = .failureObserved := by
  unfold autoMaintenanceEvent
  split_ifs
  · exact Or.inl rfl
  · exact Or.inr rfl

/-- `maintain_auto_resume` fences in a guarded way. -/
theorem maintainAutoFence_guarded {startup : Bool}
    (h : self.transitionAutoOwned now record (self.autoMaintenanceEvent startup) report
      observedFlood = .ok record') : Guarded record record' := by
  rcases self.autoMaintenanceEvent_cases startup with hevent | hevent
  all_goals exact transitionAutoOwned_guarded (by rw [hevent]; decide) (by rw [hevent]; decide) h

/-- `finish_recovery` succeeds only while nothing protects the account. -/
theorem finishRecovery_ok {accountId : ℤ}
    (h : self.finishRecovery now record accountId = .ok record') :
    self.protectionReason = none ∧ RecoveryOnly record record' ∧
      autoRecoveryPhase record' ≠ .exhausted := by
  unfold finishRecovery at h
  split_ifs at h with hblocked
  push Not at hblocked
  refine ⟨hblocked.1, ?_⟩
  split at h
  · cases h
  · next trial htrial =>
    split_ifs at h with hidentity hautomatic
    · dsimp only at h
      split_ifs at h with hsuccess
      rcases applyAutoTransition_cases h with ⟨hquiet, -⟩ | ⟨hcommand, -⟩ | ⟨-, trial, -, rfl⟩
      · exact absurd hsuccess hquiet.2
      · rw [hcommand] at hsuccess
        cases hsuccess
      · exact ⟨⟨rfl, rfl, rfl, rfl, rfl⟩, nofun⟩
    · obtain rfl := Except.ok.inj h
      exact ⟨⟨rfl, rfl, rfl, rfl, rfl⟩, nofun⟩

/-- A due trial is safe when its scope is. -/
theorem autoTransitionSafe_due (record : SafetyRecord) :
    self.autoTransitionSafe now record .due = self.autoResumeScopeSafe now record true := by
  unfold autoTransitionSafe
  exact if_pos (Or.inr (by decide))

/-- `consume_auto_resume` consumes its trial in a safe scope, or changes nothing. -/
theorem consumeAutoResume_cases {lifecycleAvailable : Bool}
    (h : self.consumeAutoResume now record lifecycleAvailable = .ok record') :
    record' = record ∨ (self.autoResumeScopeSafe now record true = true ∧
      ∃ trial automatic, record' = self.consumeAutoRecord now record trial automatic) := by
  unfold consumeAutoResume at h
  dsimp only at h
  split_ifs at h with hconsume
  · right
    rcases applyAutoTransition_cases h with ⟨hquiet, -⟩ | ⟨-, trial, automatic, -, -, rfl⟩ |
      ⟨hcommand, -⟩
    · exact absurd hconsume hquiet.1
    · refine ⟨?_, trial, automatic, rfl⟩
      rcases RecoverySnapshot.decideAutoRecovery_due_cases _ with hquiet | ⟨-, hsafe⟩
      · exact absurd hconsume hquiet.1
      · exact (autoTransitionSafe_due record).symm.trans hsafe
    · rw [hcommand] at hconsume
      cases hconsume
  · exact Or.inl (Except.ok.inj h).symm

/-! ## Floors of the account -/

/-- `_extend_floor` writes the floor and nothing else. -/
theorem extendFloor_ok (h : self.extendFloor now record untilUtc = .ok record') :
    record' = { record with floor := self.extendedFloor now record.floor untilUtc } := by
  unfold extendFloor at h
  split_ifs at h
  exact (Except.ok.inj h).symm

/-- The floor part of `complete` writes the floor, and then at most a protection. -/
theorem settleFloor_ok (h : self.settleFloor now record completion = .ok record') :
    ∃ floor, Guarded { record with floor := floor } record' ∧
      ((completion.floorUntilUtc = none ∧ floor = record.floor) ∨
        ∃ untilUtc, completion.floorUntilUtc = some untilUtc ∧
          floor = self.extendedFloor now record.floor untilUtc) := by
  unfold settleFloor at h
  split at h
  · next hnone =>
    obtain rfl := Except.ok.inj h
    exact ⟨record.floor, Guarded.refl record, Or.inl ⟨hnone, rfl⟩⟩
  · next untilUtc hsome =>
    refine ⟨_, ?_, Or.inr ⟨untilUtc, hsome, rfl⟩⟩
    obtain ⟨extended, hextended, rfl⟩ := except_map_eq_ok.mp h
    obtain rfl := extendFloor_ok hextended
    split_ifs
    · refine ⟨⟨rfl, rfl, rfl, rfl, rfl⟩, nofun, fun _ hlow => ?_⟩
      rcases hlow with hlow | hlow <;> cases hlow
    · exact Guarded.refl _

/-! ## Attempts -/

/-- `prepare` adds a prepared intent of this run unless the attempt has one, and rebases the floor
of the account. -/
theorem prepare_ok {request : PrepareRequest} (h : self.prepare now record request = .ok record') :
    ∃ intent, intent.run = self.run ∧ intent.phase = .prepared ∧ record' = { record with
      intents := Dictionary.setDefault record.intents request.attemptId intent
      floor := self.rebaseFloor now record.floor } := by
  unfold prepare at h
  split at h
  · cases h
  · next bound hbound =>
    split at h
    · cases h
    · next intent hintent =>
      split_ifs at h
      have haux : bound.run = self.run ∧ bound.phase = .prepared := by
        unfold attachAux at hbound
        split at hbound
        · obtain rfl := Except.ok.inj hbound
          exact ⟨rfl, rfl⟩
        · dsimp only at hbound
          split_ifs at hbound
          obtain rfl := Except.ok.inj hbound
          exact ⟨rfl, rfl⟩
      have hnative : intent.run = bound.run ∧ intent.phase = bound.phase := by
        unfold attachNative at hintent
        split at hintent
        · obtain rfl := Except.ok.inj hintent
          exact ⟨rfl, rfl⟩
        · dsimp only at hintent
          split_ifs at hintent
          obtain rfl := Except.ok.inj hintent
          exact ⟨rfl, rfl⟩
      exact ⟨intent, hnative.1.trans haux.1, hnative.2.trans haux.2, (Except.ok.inj h).symm⟩

/-- `contain_native` contains an intent of the verified scope. -/
theorem containNative_ok (h : containNative now record attemptId binding = .ok record') :
    ∃ intent native, record.intents.lookup attemptId = some intent ∧
      intent.nativeWriteReceiptOwner = some native ∧ ownsScope now record intent = true ∧
      record' = { clearUnresolved { record with
        intents := record.intents.insert attemptId (containedNative intent native) } with
        generation := now.uuid 3 } := by
  unfold containNative at h
  split at h
  · cases h
  · next intent hlookup =>
    split at h
    · cases h
    · next native hnative =>
      split_ifs at h with howned
      exact ⟨intent, native, hlookup, hnative, howned.2.2, (Except.ok.inj h).symm⟩

/-- `_settle_method` writes the method episodes and nothing else. -/
theorem settleMethod_eq (record : SafetyRecord) (attemptId : String) (actualFlood : Bool)
    (generation : Option String) (success : Bool) :
    self.settleMethod tlobjects now record attemptId actualFlood generation success =
      { record with methods :=
        (self.settleMethod tlobjects now record attemptId actualFlood generation
          success).methods } := by
  unfold settleMethod
  split
  · rfl
  · next intent _ =>
    by_cases hrun : intent.run ≠ self.run
    · rw [if_pos hrun]
    · rw [if_neg hrun]
      dsimp only
      split_ifs
      · rfl
      · split
        · rfl
        · split_ifs <;> rfl

/-- `complete_native_unknown` contains a claimed intent of this run. -/
theorem completeNativeUnknown_ok {methodGeneration : Option String}
    (h : self.completeNativeUnknown tlobjects now record attemptId binding methodGeneration =
      .ok record') :
    ∃ intent native, record.intents.lookup attemptId = some intent ∧
      intent.nativeWriteReceiptOwner = some native ∧ intent.run = self.run ∧
      ownsScope now record intent = true ∧ attemptId ∈ self.claimed ∧
      record' = { record with
        intents := record.intents.insert attemptId (containedNative intent native)
        generation := now.uuid 3
        methods := (self.settleMethod tlobjects now record attemptId false methodGeneration
          false).methods } := by
  unfold completeNativeUnknown at h
  split at h
  · cases h
  · next intent native hsettlement =>
    unfold nativeSettlement at hsettlement
    split at hsettlement
    · cases hsettlement
    · next prior hlookup =>
      split at hsettlement
      · cases hsettlement
      · next owner hnative =>
        split_ifs at hsettlement with howned
        obtain ⟨rfl, rfl⟩ := Prod.mk.inj (Option.some.inj hsettlement)
        refine ⟨_, _, hlookup, hnative, howned.1, howned.2.2.2.1, howned.2.2.2.2, ?_⟩
        rw [← Except.ok.inj h, settleMethod_eq]

/-- `_settle_read_budget_failure` fences the method and makes a claimed read repeatable. -/
theorem settleReadBudgetFailure_ok {reason : ReadFailureReason}
    (h : self.settleReadBudgetFailure now record attemptId reason = .ok record') :
    ∃ intent, record.intents.lookup attemptId = some intent ∧ attemptId ∈ self.claimed ∧
      intent.run = self.run ∧ record.scope.stage = .verified ∧
      intent.scope = record.scope.binding ∧
      record' = { record with
        methods := record.methods.insert intent.method
          (self.readFailureEpisode now (record.methods.lookup intent.method))
        intents := record.intents.insert attemptId { intent with
          phase := .unknown
          readRetry := some (reason.retry (now.uuid 5)) } } := by
  unfold settleReadBudgetFailure at h
  split at h
  · cases h
  · next intent hlookup =>
    split_ifs at h with hclaimed hscope
    push Not at hclaimed hscope
    exact ⟨intent, hlookup, hclaimed.1, hclaimed.2, hscope.1, hscope.2.2, (Except.ok.inj h).symm⟩

/-- `_settle_intent` leaves the record alone, forgets the intent, or marks it as unknown. -/
theorem settleIntent_cases {knownOutcome : Bool}
    (h : self.settleIntent now record attemptId knownOutcome = .ok record') :
    (record' = record ∧ ∀ prior, record.intents.lookup attemptId = some prior →
      prior.run = self.run ∧ retainsUnknownIntent prior = true) ∨
    ∃ prior, record.intents.lookup attemptId = some prior ∧ prior.run = self.run ∧
      ((record' = { record with intents := record.intents.erase attemptId } ∧
          (knownOutcome = true ∨ (attemptId ∉ self.claimed ∧ prior.phase = .prepared))) ∨
        (record' = markUnknownIntent now record attemptId prior ∧ knownOutcome = false ∧
          (attemptId ∈ self.claimed ∨ prior.phase ≠ .prepared))) := by
  unfold settleIntent at h
  split at h
  · next hlookup =>
    refine Or.inl ⟨(Except.ok.inj h).symm, fun prior hprior => ?_⟩
    rw [hlookup] at hprior
    cases hprior
  · next prior hlookup =>
    split_ifs at h with hrun hretains hforget
    · refine Or.inl ⟨(Except.ok.inj h).symm, fun prior' hprior => ?_⟩
      obtain rfl := Option.some.inj (hprior.symm.trans hlookup)
      exact ⟨not_not.mp hrun, hretains⟩
    · exact Or.inr ⟨prior, hlookup, not_not.mp hrun,
        Or.inl ⟨(Except.ok.inj h).symm, hforget⟩⟩
    · push Not at hforget
      refine Or.inr ⟨prior, hlookup, not_not.mp hrun,
        Or.inr ⟨(Except.ok.inj h).symm, Bool.not_eq_true _ ▸ hforget.1, ?_⟩⟩
      exact or_iff_not_imp_left.mpr hforget.2

/-- `complete` settles the method, then the outcome, then the floor; what follows is guarded. -/
theorem complete_ok (h : self.complete tlobjects now record completion = .ok record') :
    ∃ settled floor, self.settleOutcome now
        (self.settleMethod tlobjects now record completion.attemptId completion.actualFlood
          completion.methodGeneration completion.methodSuccess) completion = .ok settled ∧
      Guarded { settled with floor := floor } record' ∧
      ((completion.floorUntilUtc = none ∧ floor = settled.floor) ∨
        ∃ untilUtc, completion.floorUntilUtc = some untilUtc ∧
          floor = self.extendedFloor now settled.floor untilUtc) := by
  obtain ⟨settled, hsettled, h⟩ := except_bind_eq_ok.mp h
  obtain ⟨floored, hfloored, h⟩ := except_bind_eq_ok.mp h
  obtain ⟨floor, hguarded, hfloor⟩ := settleFloor_ok hfloored
  exact ⟨settled, floor, hsettled,
    (hguarded.trans (openCircuit_guarded now floored _)).trans (settleRecovery_guarded h), hfloor⟩

/-- `record_floor` extends the floor; what follows is guarded. -/
theorem recordFloor_ok {circuitOpen : Bool}
    (h : self.recordFloor now record untilUtc circuitOpen = .ok record') :
    Guarded { record with floor := self.extendedFloor now record.floor untilUtc } record' := by
  obtain ⟨extended, hextended, h⟩ := except_bind_eq_ok.mp h
  obtain rfl := extendFloor_ok hextended
  have hopened := openCircuit_guarded now
    { record with floor := self.extendedFloor now record.floor untilUtc } circuitOpen
  dsimp only at h
  split_ifs at h
  · exact Except.ok.inj h ▸ hopened
  · exact hopened.trans (invalidateRecoveryTrial_guarded h)

/-- `contain_shutdown_reads` works on a verified scope without claims. -/
theorem containShutdownReads_ok {attempts : List String} {clearIntroducedHold : Bool}
    (h : self.containShutdownReads now record attempts clearIntroducedHold = .ok record') :
    self.claimed = [] ∧ record.scope.stage = .verified ∧
      ∃ intents, self.containReads record.scope.binding attempts record.intents = .ok intents ∧
        record' = if clearIntroducedHold then clearUnresolved { record with intents := intents }
          else { record with intents := intents } := by
  unfold containShutdownReads at h
  split_ifs at h with hscope hclaimed hclear
  all_goals
    push Not at hscope hclaimed
    obtain ⟨intents, hintents, rfl⟩ := except_map_eq_ok.mp h
    refine ⟨hclaimed.1, hscope.2.1, intents, hintents, ?_⟩
  · rw [if_pos hclear]
  · rw [if_neg hclear]

/-- `consume_recovery` acknowledges what blocks and drops the protection. -/
theorem consumeRecovery_ok {trial : RecoveryTrial}
    (h : self.consumeRecovery now record trial = .ok record') :
    record' = { record with
      recovery := some { trial with state := .consumed, consumedRun := some self.run }
      generation := now.uuid 11
      intents := acknowledgeBlocking record
      methods := dropClaims record.methods
      protection := none } := by
  unfold consumeRecovery at h
  split_ifs at h
  exact (Except.ok.inj h).symm

/-- Dropping the protection of an unresolved outcome changes nothing else. -/
theorem clearUnresolved_eq (record : SafetyRecord) :
    clearUnresolved record = { record with protection := (clearUnresolved record).protection } := by
  unfold clearUnresolved
  split_ifs <;> rfl

/-! ## What a call does to the ledger itself -/

/-- A ledger that differs at most in its flags and its claims. -/
structure SameOwner (ledger ledger' : SafetyLedger) : Prop where
  record : ledger'.record = ledger.record
  bootId : ledger'.bootId = ledger.bootId
  run : ledger'.run = ledger.run
  storageFailed : ledger'.storageFailed = ledger.storageFailed

/-- Before its save, a call changes flags and claims only. -/
theorem call_sameOwner (operation : SafetyOperation) :
    SameOwner self (self.call tlobjects now operation).ledger := by
  cases operation
  all_goals simp only [call, holdOutcome]
  all_goals try split
  all_goals try split_ifs
  all_goals exact ⟨rfl, rfl, rfl, rfl⟩

/-- After its save, a call changes flags and claims only. -/
theorem settle_sameOwner (operation : SafetyOperation) (ledger : SafetyLedger) :
    SameOwner ledger ((self.call tlobjects now operation).settle ledger) := by
  have hclear : SameOwner ledger ledger.clearHold := by
    unfold clearHold
    split_ifs <;> exact ⟨rfl, rfl, rfl, rfl⟩
  cases operation
  all_goals simp only [call]
  all_goals try split
  all_goals try split_ifs
  all_goals first
    | exact hclear
    | exact ⟨rfl, rfl, rfl, rfl⟩

end SafetyLedger

namespace SafetyWorld

/-! ## What a commit leaves behind -/

/-- A ledger that saves nothing: it goes on, its storage failed, or its process ended. -/
def Unsaved (process : SafetyProcess) (ledger : SafetyLedger) : Prop :=
  process = .up ledger ∨ process = .up { ledger with storageFailed := true } ∨ process = .down

/-- What a commit does to the store and to the process. -/
theorem commit_cases (tlobjects : TlObjects) (w : SafetyWorld) (call : SafetyCall)
    (outcome : SaveOutcome) :
    ((w.commit tlobjects call outcome).stored = w.stored ∧
      Unsaved (w.commit tlobjects call outcome).process call.ledger) ∨
    ∃ record, call.proposal = some (.ok record) ∧ call.ledger.storageFailed = false ∧
      validateSafetyRecord tlobjects record = true ∧
      (w.commit tlobjects call outcome).stored = some record ∧
      ((w.commit tlobjects call outcome).process =
          .up (pruneClaims (call.settle { call.ledger with record := record })) ∨
        Unsaved (w.commit tlobjects call outcome).process call.ledger) := by
  unfold commit
  split
  · next record hproposal =>
    split_ifs with hsave
    · rcases outcome with _ | replaced | replaced
      · exact Or.inr ⟨record, hproposal, hsave.1, hsave.2, rfl, Or.inl rfl⟩
      · cases replaced with
        | false => exact Or.inl ⟨rfl, Or.inr (Or.inl rfl)⟩
        | true => exact Or.inr ⟨record, hproposal, hsave.1, hsave.2, rfl, Or.inr (Or.inr (Or.inl rfl))⟩
      · cases replaced with
        | false => exact Or.inl ⟨rfl, Or.inr (Or.inr rfl)⟩
        | true => exact Or.inr ⟨record, hproposal, hsave.1, hsave.2, rfl, Or.inr (Or.inr (Or.inr rfl))⟩
    · exact Or.inl ⟨rfl, Or.inl rfl⟩
  · exact Or.inl ⟨rfl, Or.inl rfl⟩

/-- A commit takes no time. -/
theorem commit_clock (tlobjects : TlObjects) (w : SafetyWorld) (call : SafetyCall)
    (outcome : SaveOutcome) :
    (w.commit tlobjects call outcome).bootId = w.bootId ∧
      (w.commit tlobjects call outcome).monotonic = w.monotonic ∧
      (w.commit tlobjects call outcome).utc = w.utc := by
  unfold commit
  split
  · split_ifs <;> exact ⟨rfl, rfl, rfl⟩
  · exact ⟨rfl, rfl, rfl⟩

end SafetyWorld

end McpTelegram
