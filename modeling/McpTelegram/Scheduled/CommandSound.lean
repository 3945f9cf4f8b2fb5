import McpTelegram.Scheduled.CommandInvariant

/-!
# Steps of scheduled commands keep the invariant

What the checks of a command prove, and that every action keeps the invariant and the receipts.
-/

namespace McpTelegram

open Foundations ScheduledStore

namespace CommandWorld

variable {fingerprint : ScheduledCommand → String} {version : ℤ → ℤ → ℤ → ℕ → String}
  {stemText : Option String → String} {w w' : CommandWorld} {id : ℕ} {command : ScheduledCommand}
  {phase phase' : ExecutionPhase}

variable {row : Option ScheduledRow} {coverageOrder : ℕ} {messageId now : ℤ} {randomId : Option ℤ}
    {action : CommandAction}

/-! ## What the checks prove -/

/-- The row that the current state of a command has selected. -/
theorem currentState_selected (hstate : w.currentState command = .ok (row, coverageOrder))
    (hmessage : command.scheduledMessageId = some messageId) :
    ∃ stored order, row = some stored ∧ stored.messageState = .scheduled ∧
      stored.observationOrder = some order ∧
        w.store.rows.lookup (command.dialogId, messageId) = some stored := by
  unfold currentState at hstate
  rw [hmessage] at hstate
  split at hstate
  · cases hstate
  split at hstate
  · cases hstate
  repeat
    split at hstate
    · cases hstate
  dsimp only at hstate
  split at hstate
  · cases hstate
  · rename_i stored hstored
    split at hstate
    · cases hstate
    · rename_i hselected
      obtain ⟨hscheduled, horder⟩ := not_or.mp hselected
      obtain ⟨order, horder⟩ := Option.ne_none_iff_exists'.mp horder
      cases hstate
      exact ⟨stored, order, rfl, not_not.mp hscheduled, horder, hstored⟩

/-- A command whose item is current names the order of its row. -/
theorem namesOrder_of_currentItem (coverageOrder : ℕ)
    (hitem : currentItemRefusal version command row = none) :
    NamesOrder version command
      ((row.map fun row => row.observationOrder.getD 0).getD coverageOrder) := by
  intro haction
  obtain ⟨messageId, hmessage⟩ := Option.ne_none_iff_exists'.mp (command.selected haction).1
  refine ⟨messageId, hmessage, ?_⟩
  unfold currentItemRefusal at hitem
  split at hitem
  · rename_i hcreate
    exact absurd hcreate haction
  · cases hitem
  · split at hitem
    · cases hitem
    · rename_i hversion
      rw [not_not.mp hversion, hmessage]
      rfl

/-- A permit is registered for a row that has the order of the intent. -/
theorem active_of_revalidated {intent : ScheduledMutationIntent}
    (hrefusal : revalidationRefusal fingerprint w command intent = none)
    (hmessage : command.scheduledMessageId = some messageId) :
    ActiveAt w.store (command.dialogId, messageId) intent.expectedObservationOrder := by
  unfold revalidationRefusal at hrefusal
  split at hrefusal
  · cases hrefusal
  split at hrefusal
  · cases hrefusal
  · rename_i row coverageOrder hstate
    split at hrefusal
    · cases hrefusal
    · rename_i hsame
      obtain ⟨stored, order, rfl, hscheduled, horder, hstored⟩ :=
        currentState_selected hstate hmessage
      obtain ⟨hsame, -⟩ := not_or.mp hsame
      rw [not_not, Option.map_some, Option.getD_some, horder, Option.getD_some] at hsame
      exact ⟨stored, hstored, hscheduled, by rw [horder, hsame]⟩

/-! ## Steps keep the invariant -/

/-- An execution moves to a phase that is neither planned nor a dispatch. -/
theorem ExecutionSound.move (h : ExecutionSound fingerprint version w id ⟨command, phase⟩)
    (hearly : phase'.early = true → phase.early = true)
    (hplanned : ∀ row coverageOrder, phase' ≠ .planned row coverageOrder)
    (hdispatching : ∀ dispatch, phase' ≠ .dispatching dispatch) :
    ExecutionSound fingerprint version w id ⟨command, phase'⟩ :=
  ⟨fun hphase => h.early (hearly hphase),
    fun row coverageOrder hphase => absurd hphase (hplanned row coverageOrder),
    fun dispatch hphase => absurd hphase (hdispatching dispatch)⟩

/-- An execution that goes on to finish its receipt. -/
theorem Sound.finishing (h : Sound fingerprint version w)
    (hexecution : w.executions id = some ⟨command, phase⟩) (ending : ReceiptEnding) :
    Sound fingerprint version (w.advance id command (.finishing ending)) :=
  h.advance hexecution ((h.executions id _ hexecution).move (fun hearly => by cases hearly)
    (fun _ _ hphase => by cases hphase) fun _ hphase => by cases hphase)

/-- A planned command that gets its receipt is about to be sent as planned. -/
theorem dispatch_sound (h : Sound fingerprint version w)
    (hexecution : w.executions id = some ⟨command, .planned row coverageOrder⟩) :
    ExecutionSound fingerprint version
      (w.createReceipt id command (w.receipts.insert command.key
        (newScheduledReceipt fingerprint command randomId now))) id
      ⟨command, .dispatching
        { intent := mutationIntent fingerprint command row coverageOrder randomId
          responseOrder := w.sequence + 1 }⟩ := by
  have hplanned := h.executions id _ hexecution
  refine ⟨fun hearly => Bool.noConfusion hearly, (fun _ _ hphase => by cases hphase),
    fun dispatch hphase => ?_⟩
  obtain rfl := (ExecutionPhase.dispatching.inj hphase).symm
  refine ⟨Table.put_self _ _ _, ⟨_, AList.lookup_insert _, rfl, rfl⟩, fun _ rpc hrpc hsame => ?_,
    ⟨rfl, rfl⟩, hplanned.planned row coverageOrder rfl, fun token htoken => by cases htoken⟩
  exact hplanned.early rfl rpc.key (hsame ▸ (h.sentOwned rpc hrpc).1)

/-- A permit is registered after a check. -/
theorem Sound.revalidate {dispatch : ScheduledDispatch} (h : Sound fingerprint version w)
    (hexecution : w.executions id = some ⟨command, .dispatching dispatch⟩)
    (hrefusal : revalidationRefusal fingerprint w command dispatch.intent = none)
    (token : PermitToken) :
    Sound fingerprint version
      (w.advance id command (.dispatching { dispatch with token := some token })) := by
  have hdispatch := (h.executions id _ hexecution).dispatching dispatch rfl
  refine h.advance hexecution ⟨fun hearly => Bool.noConfusion hearly,
    (fun _ _ hphase => by cases hphase), fun after hphase => ?_⟩
  obtain rfl := (ExecutionPhase.dispatching.inj hphase).symm
  exact ⟨hdispatch.owner, hdispatch.receipt, hdispatch.unsent, hdispatch.target, hdispatch.named,
    fun _ _ _ messageId hmessage => active_of_revalidated hrefusal hmessage⟩

/-- A receipt is finished. -/
theorem Sound.finishReceipt (h : Sound fingerprint version w) (ending : ReceiptEnding)
    (key : ℤ × String) (now : ℤ) :
    Sound fingerprint version { w with
      receipts := Dictionary.modify w.receipts key
        (·.finish ending.outcome ending.dispatched ending.result ending.scheduledMessageId
          now) } := by
  refine h.receipts (finish_last _ _ _ _ _ _ _) fun other => ?_
  rw [Dictionary.lookup_modify]
  split
  · rename_i hsame
    rw [hsame, Option.map_eq_none_iff]
  · exact Iff.rfl

/-- A receipt that is created keeps the other receipts and their creators. -/
theorem Sound.keeps_create (h : Sound fingerprint version w) (receipt : ScheduledReceipt)
    (hnew : w.receipts.lookup command.key = none) (phase' : ExecutionPhase) :
    Keeps w ((w.createReceipt id command (w.receipts.insert command.key receipt)).advance id command
      phase') := by
  refine ⟨insert_last receipt hnew, fun key creator hkey => ?_⟩
  show (w.owner.put command.key id) key = some creator
  rw [Table.put_of_ne, hkey]
  rintro rfl
  rw [(h.owned _).mp hnew] at hkey
  cases hkey

/-- What `prepareReceipt` has found. -/
theorem prepareReceipt_created {receipts : ScheduledReceipts}
    (h : prepareReceipt fingerprint command randomId now w.receipts = .created receipts) :
    w.receipts.lookup command.key = none ∧
      receipts = w.receipts.insert command.key
        (newScheduledReceipt fingerprint command randomId now) := by
  unfold prepareReceipt at h
  split at h
  · split at h
    · cases h
    · cases h
  · rename_i hnew
    cases h
    exact ⟨hnew, rfl⟩

/-- What an action of an execution does in a phase. -/
inductive ExecutionMove (fingerprint : ScheduledCommand → String)
    (version : ℤ → ℤ → ℤ → ℕ → String) (stemText : Option String → String) (w : CommandWorld)
    (id : ℕ) (command : ScheduledCommand) : ExecutionPhase → CommandWorld → Prop
  /-- The command is answered without a write. -/
  | answer {phase : ExecutionPhase} (answer : ScheduledAnswer) :
    ExecutionMove fingerprint version stemText w id command phase (w.answer id command answer)
  | admission : ExecutionMove fingerprint version stemText w id command .started
      (w.advance id command .admitted)
  | plan {row : Option ScheduledRow} (coverageOrder : ℕ)
    (hitem : currentItemRefusal version command row = none) :
    ExecutionMove fingerprint version stemText w id command .admitted
      (w.advance id command (.planned row coverageOrder))
  /-- There is nothing to send. -/
  | unchanged {row : Option ScheduledRow} {coverageOrder : ℕ} (randomId : Option ℤ) :
    ExecutionMove fingerprint version stemText w id command (.planned row coverageOrder)
      (w.advance id command (.persisting randomId))
  | dispatch {row : Option ScheduledRow} {coverageOrder : ℕ} (randomId : Option ℤ) (now : ℤ)
    (hnew : w.receipts.lookup command.key = none) :
    ExecutionMove fingerprint version stemText w id command (.planned row coverageOrder)
      ((w.createReceipt id command (w.receipts.insert command.key
        (newScheduledReceipt fingerprint command randomId now))).advance id command (.dispatching
          { intent := mutationIntent fingerprint command row coverageOrder randomId
            responseOrder := w.sequence + 1 }))
  /-- A receipt that is finished without a dispatch. -/
  | persist {phase : ExecutionPhase} (receipt : ScheduledReceipt) (ending : ReceiptEnding)
    (hnew : w.receipts.lookup command.key = none) :
    ExecutionMove fingerprint version stemText w id command phase
      ((w.createReceipt id command (w.receipts.insert command.key receipt)).advance id command
        (.finishing ending))
  | finishing {phase : ExecutionPhase} (ending : ReceiptEnding) :
    ExecutionMove fingerprint version stemText w id command phase
      (w.advance id command (.finishing ending))
  | revalidate {dispatch : ScheduledDispatch} (token : PermitToken)
    (hrefusal : revalidationRefusal fingerprint w command dispatch.intent = none) :
    ExecutionMove fingerprint version stemText w id command (.dispatching dispatch)
      (w.advance id command (.dispatching { dispatch with token := some token }))
  | send {dispatch : ScheduledDispatch} (hfirst : dispatch.attempts = 0) :
    ExecutionMove fingerprint version stemText w id command (.dispatching dispatch)
      { w.advance id command (.dispatching { dispatch with attempts := dispatch.attempts + 1 })
        with
        sent := ⟨id, command.key, fingerprint command, dispatch.intent.randomId⟩ :: w.sent }
  | respond {dispatch : ScheduledDispatch} (resulting : Option ℤ)
    (evidence : ResponseEvidence) :
    ExecutionMove fingerprint version stemText w id command (.dispatching dispatch)
      (w.advance id command (.responded dispatch resulting evidence))
  | project {dispatch : ScheduledDispatch} {resulting : Option ℤ} {evidence : ResponseEvidence}
    (operation : ScheduledOperation) (ending : ReceiptEnding) :
    ExecutionMove fingerprint version stemText w id command
      (.responded dispatch resulting evidence)
      ((w.write stemText operation).advance id command (.finishing ending))
  | finish {phase : ExecutionPhase} (ending : ReceiptEnding) (answer : ScheduledAnswer) (now : ℤ) :
    ExecutionMove fingerprint version stemText w id command phase
      { w.answer id command answer with
        receipts := Dictionary.modify w.receipts command.key
          (·.finish ending.outcome ending.dispatched ending.result ending.scheduledMessageId
            now) }
  | abandon {phase : ExecutionPhase} :
    ExecutionMove fingerprint version stemText w id command phase (w.leave id command)

/-- Every action of an execution is one of these moves. -/
theorem executionMove_of_step
    (hstep : executionStep fingerprint version stemText w id command phase action = some w') :
    ExecutionMove fingerprint version stemText w id command phase w' := by
  unfold executionStep at hstep
  split at hstep
  · -- the duplicate check and the access check
    split at hstep
    · cases hstep
      exact .answer _
    · split at hstep
      · cases hstep
        exact .admission
      · cases hstep
        exact .answer _
  · -- the queue is read
    split at hstep
    · cases hstep
      exact .answer _
    split at hstep
    · cases hstep
      exact .answer _
    · split at hstep
      · cases hstep
        exact .answer _
      · rename_i hitem
        cases hstep
        exact .plan _ hitem
  · -- the request is built
    split at hstep
    · cases hstep
      exact .answer _
    dsimp only at hstep
    split at hstep
    · cases hstep
      exact .answer _
    · cases hstep
      exact .unchanged _
    · split at hstep
      · cases hstep
        exact .answer _
      · cases hstep
        exact .answer _
      · rename_i hcreated
        obtain ⟨hnew, rfl⟩ := prepareReceipt_created hcreated
        cases hstep
        exact .dispatch _ _ hnew
  · -- the receipt of an unchanged item
    dsimp only at hstep
    split at hstep
    · cases hstep
      exact .finishing _
    · cases hstep
      exact .answer _
    · rename_i hcreated
      obtain ⟨hnew, rfl⟩ := prepareReceipt_created hcreated
      cases hstep
      exact .persist _ _ hnew
  · -- the check that the gateway awaits
    split at hstep
    · cases hstep
      exact .finishing _
    · rename_i hrefusal
      cases hstep
      exact .revalidate _ hrefusal
  · -- the send
    split at hstep
    · rename_i hpermit
      cases hstep
      exact .send (Nat.lt_one_iff.mp hpermit.1)
    · cases hstep
  · cases hstep
    exact .finishing _
  · -- the client call answers
    split at hstep
    · cases hstep
    split at hstep
    · cases hstep
      exact .finishing _
    · cases hstep
      exact .respond _ _
  · -- the evidence is applied
    split at hstep
    · cases hstep
      exact .finishing _
    split at hstep
    · cases hstep
      exact .finishing _
    · cases hstep
      exact .project _ _
  · -- the receipt is finished
    split at hstep
    · cases hstep
      exact .answer _
    · cases hstep
      exact .finish _ _ _
  · cases hstep
    exact .abandon
  · cases hstep

/-- A move of an execution keeps the invariant, the receipts and their creators. -/
theorem ExecutionMove.sound (h : Sound fingerprint version w)
    (hexecution : w.executions id = some ⟨command, phase⟩)
    (hmove : ExecutionMove fingerprint version stemText w id command phase w') :
    Sound fingerprint version w' ∧ Keeps w w' := by
  have hstill : ∀ {after : CommandWorld}, after.receipts = w.receipts → after.owner = w.owner →
      Keeps w after :=
    fun hreceipts howner => ⟨hreceipts ▸ ReceiptsLast.refl _, fun _ _ hkey => howner ▸ hkey⟩
  have hmoved : ∀ {phase' : ExecutionPhase}, (phase'.early = true → phase.early = true) →
      (∀ row coverageOrder, phase' ≠ .planned row coverageOrder) →
      (∀ dispatch, phase' ≠ .dispatching dispatch) →
      Sound fingerprint version (w.advance id command phase') := fun hearly hplanned hdispatching =>
    h.advance hexecution ((h.executions id _ hexecution).move hearly hplanned hdispatching)
  cases hmove with
  | answer answer => exact ⟨h.answer id command answer, hstill rfl rfl⟩
  | admission | unchanged =>
    exact ⟨hmoved (fun _ => rfl) (fun _ _ hphase => by cases hphase)
      (fun _ hphase => by cases hphase), hstill rfl rfl⟩
  | plan coverageOrder hitem =>
    refine ⟨h.advance hexecution ⟨fun _ => (h.executions id _ hexecution).early rfl,
      fun planned order hphase => ?_, fun _ hphase => by cases hphase⟩, hstill rfl rfl⟩
    obtain ⟨rfl, rfl⟩ := ExecutionPhase.planned.inj hphase
    exact namesOrder_of_currentItem coverageOrder hitem
  | dispatch randomId now hnew =>
    exact ⟨h.create _ hexecution hnew (dispatch_sound h hexecution), h.keeps_create _ hnew _⟩
  | persist receipt ending hnew =>
    exact ⟨h.create _ hexecution hnew ⟨(fun hearly => by cases hearly),
      (fun _ _ hphase => by cases hphase), fun _ hphase => by cases hphase⟩,
      h.keeps_create _ hnew _⟩
  | finishing ending => exact ⟨h.finishing hexecution ending, hstill rfl rfl⟩
  | revalidate token hrefusal =>
    exact ⟨h.revalidate hexecution hrefusal token, hstill rfl rfl⟩
  | send hfirst => exact ⟨h.send hexecution hfirst, hstill rfl rfl⟩
  | respond resulting evidence =>
    exact ⟨hmoved (fun hearly => by cases hearly) (fun _ _ hphase => by cases hphase)
      (fun _ hphase => by cases hphase), hstill rfl rfl⟩
  | project operation ending =>
    have hwritten : (w.write stemText operation).executions id = some ⟨command, _⟩ :=
      congrArg (Option.map _) hexecution
    exact ⟨(h.write operation).finishing hwritten ending, hstill rfl rfl⟩
  | finish ending answer now =>
    exact ⟨(h.answer id command answer).finishReceipt ending command.key now,
      ⟨finish_last _ _ _ _ _ _ _, fun _ _ hkey => hkey⟩⟩
  | abandon => exact ⟨h.leave _ _, hstill rfl rfl⟩

theorem executionStep_sound (h : Sound fingerprint version w)
    (hexecution : w.executions id = some ⟨command, phase⟩)
    (hstep : executionStep fingerprint version stemText w id command phase action = some w') :
    Sound fingerprint version w' ∧ Keeps w w' :=
  (executionMove_of_step hstep).sound h hexecution

/-- What an action about an execution has done. -/
theorem step_of_actor (hactor : actor action = some id)
    (hstep : step fingerprint version stemText w action = some w') :
    ∃ execution, w.executions id = some execution ∧
      executionStep fingerprint version stemText w id execution.command execution.phase action =
        some w' := by
  have hbind : ((actor action).bind fun id => (w.executions id).bind fun execution =>
      executionStep fingerprint version stemText w id execution.command execution.phase action) =
        some w' := by
    cases action with
    | start | mirror | reconcile | access | bindAccount | revoke | crash | settle => cases hactor
    | _ => exact hstep
  rw [hactor, Option.bind_some] at hbind
  exact Option.bind_eq_some_iff.mp hbind

/-- An execution starts. -/
theorem Sound.start (h : Sound fingerprint version w) (locked : List (ℤ × ℤ)) :
    Sound fingerprint version { w.advance w.nextId command .started with
      nextId := w.nextId + 1, locked := locked } where
  fresh id hid := by
    have hid : w.nextId + 1 ≤ id := hid
    refine ⟨?_, (h.fresh id (by omega)).2⟩
    show (w.advance w.nextId command .started).executions id = none
    rw [advance_executions, if_neg (by omega)]
    exact (h.fresh id (by omega)).1
  owned := h.owned
  executions id execution hexecution := by
    have hsome : (w.advance w.nextId command .started).executions id = some execution := hexecution
    rw [advance_executions] at hsome
    split at hsome
    · cases hsome
      exact ⟨fun _ => (h.fresh id (by omega)).2, (fun _ _ hphase => by cases hphase),
        fun _ hphase => by cases hphase⟩
    · exact (h.executions id execution hsome).transfer rfl (ReceiptsLast.refl _) rfl rfl
  sentOwned := h.sentOwned
  sentOnce := h.sentOnce
  hints := h.hints

/-- Every action keeps the invariant, the receipts and their creators. -/
theorem step_sound (h : Sound fingerprint version w)
    (hstep : step fingerprint version stemText w action = some w') :
    Sound fingerprint version w' ∧ Keeps w w' := by
  have hsame : ∀ {after : CommandWorld}, Alike w after → after.receipts = w.receipts →
      after.executions = w.executions →
        Sound fingerprint version after ∧ Keeps w after := by
    intro after halike hreceipts hexecutions
    refine ⟨h.alike halike (fun _ hnone => hexecutions ▸ hnone) fun id execution hexecution => ?_,
      halike.receipts, fun _ _ hkey => halike.owner ▸ hkey⟩
    rw [hexecutions] at hexecution
    exact (h.executions id execution hexecution).transfer halike.owner halike.receipts halike.sent
      halike.rows
  cases hactor : actor action with
  | some id =>
    obtain ⟨⟨command, phase⟩, hexecution, hstep⟩ := step_of_actor hactor hstep
    exact executionStep_sound h hexecution hstep
  | none =>
    cases action with
    | start command =>
      rw [step] at hstep
      split at hstep
      · cases hstep
      · cases hstep
        exact ⟨h.start _, ReceiptsLast.refl _, fun _ _ hkey => hkey⟩
    | mirror operation =>
      cases hstep
      exact ⟨h.write operation, ReceiptsLast.refl _, fun _ _ hkey => hkey⟩
    | reconcile dialogId state =>
      cases hstep
      exact hsame ⟨rfl, rfl, ReceiptsLast.refl _, fun _ => Iff.rfl, rfl, rfl, rfl⟩ rfl rfl
    | access dialogId lost =>
      cases hstep
      exact hsame ⟨rfl, rfl, ReceiptsLast.refl _, fun _ => Iff.rfl, rfl, rfl, rfl⟩ rfl rfl
    | bindAccount account =>
      cases hstep
      exact hsame ⟨rfl, rfl, ReceiptsLast.refl _, fun _ => Iff.rfl, rfl, rfl, rfl⟩ rfl rfl
    | revoke invalidation =>
      cases hstep
      exact ⟨h.invalidate h.hints fun _ _ _ hrow => Or.inl hrow, ReceiptsLast.refl _,
        fun _ _ hkey => hkey⟩
    | crash accountId =>
      cases hstep
      exact ⟨h.alike ⟨rfl, rfl, ReceiptsLast.refl _, fun _ => Iff.rfl, rfl, rfl, rfl⟩
        (fun _ _ => rfl) (fun _ _ hexecution => by cases hexecution), ReceiptsLast.refl _,
        fun _ _ hkey => hkey⟩
    | settle now =>
      cases hstep
      refine ⟨h.receipts (settle_last _ _ _) fun key => ?_, settle_last _ _ _,
        fun _ _ hkey => hkey⟩
      rw [settleInterrupted, Dictionary.lookup_mapValues, Option.map_eq_none_iff]
    | _ => cases hactor

/-- The daemon has no receipts and no rows at first. -/
theorem sound_init (accountId : ℤ) : Sound fingerprint version { accountId := accountId } where
  fresh _ _ := ⟨rfl, fun _ hkey => by cases hkey⟩
  owned key := ⟨fun _ => rfl, fun _ => AList.lookup_empty key⟩
  executions _ _ hexecution := by cases hexecution
  sentOwned _ hrpc := by cases hrpc
  sentOnce := List.nodup_nil
  hints := ⟨(fun _ _ hrow => by cases hrow), fun _ _ _ hrow => by cases hrow⟩

/-- The invariant holds along every run, which keeps the receipts and their creators. -/
theorem run_sound {actions : List CommandAction} (h : Sound fingerprint version w)
    (hrun : run (step fingerprint version stemText) w actions = some w') :
    Sound fingerprint version w' ∧ Keeps w w' :=
  run_invariant (I := fun after => Sound fingerprint version after ∧ Keeps w after)
    (fun _ _ _ hbefore hstep =>
      (step_sound hbefore.1 hstep).imp_right hbefore.2.trans) ⟨h, Keeps.refl w⟩ hrun

end CommandWorld

end McpTelegram
