import McpTelegram.Scheduled.CommandSound

/-!
# Runs of scheduled commands

A key is sent at most once, on the version that its command names, and a request whose receipt is
settled is answered from the receipt: an action leaves the executions alone that it is not about.
-/

namespace McpTelegram

open Foundations ScheduledStore

namespace CommandWorld

variable {fingerprint : ScheduledCommand → String} {version : ℤ → ℤ → ℤ → ℕ → String}
  {stemText : Option String → String} {w w' : CommandWorld} {id : ℕ} {command : ScheduledCommand}
  {phase : ExecutionPhase}

variable {execution' : Option ScheduledExecution} {action : CommandAction}
    {receipt : ScheduledReceipt} {execution : ScheduledExecution}

/-! ## What an execution does to the others -/

/-- Another execution stays where it is, but for its permit, or it is gone. -/
def Untouched (execution execution' : Option ScheduledExecution) : Prop :=
  execution' = none ∨ execution' = execution ∨
    ∃ invalidations, execution' = execution.map (·.invalidate invalidations)

/-- An execution that is gone stays away. -/
theorem Untouched.none (h : Untouched none execution') : execution' = none := by
  rcases h with hnone | hsame | ⟨_, hmap⟩
  · exact hnone
  · exact hsame
  · exact hmap

/-- An execution that has just started stays there or is gone. -/
theorem Untouched.started (h : Untouched (some ⟨command, .started⟩) execution') :
    execution' = some ⟨command, .started⟩ ∨ execution' = Option.none := by
  rcases h with hnone | hsame | ⟨_, hmap⟩
  · exact Or.inr hnone
  · exact Or.inl hsame
  · exact Or.inl hmap

/-- What the actions of one execution do to the others, to the creators and to the answers. -/
structure Frame (w : CommandWorld) (id : ℕ) (w' : CommandWorld) : Prop where
  nextId : w'.nextId = w.nextId
  others : ∀ other, other ≠ id → Untouched (w.executions other) (w'.executions other)
  creator : ∀ key other, other ≠ id → w'.owner key = some other → w.owner key = some other
  answers : w'.answers = w.answers ∨
    ∃ answer, w'.answers = (id, answer) :: w.answers ∧ w'.executions id = none

/-- An execution that goes on changes nothing else. -/
theorem Frame.advance (w : CommandWorld) (id : ℕ) (command : ScheduledCommand)
    (phase : ExecutionPhase) : Frame w id (w.advance id command phase) := by
  refine ⟨rfl, fun other hne => ?_, fun _ _ _ hkey => hkey, Or.inl rfl⟩
  rw [advance_executions, if_neg hne]
  exact Or.inr (Or.inl rfl)

/-- An execution that creates its receipt. -/
theorem Frame.create (w : CommandWorld) (id : ℕ) (command : ScheduledCommand)
    (receipts : ScheduledReceipts) (phase : ExecutionPhase) :
    Frame w id ((w.createReceipt id command receipts).advance id command phase) := by
  refine ⟨rfl, (Frame.advance w id command phase).others, fun key other hne hkey => ?_, Or.inl rfl⟩
  have hkey : (w.owner.put command.key id) key = some other := hkey
  rw [Table.put_apply] at hkey
  split at hkey
  · exact absurd (Option.some.inj hkey).symm hne
  · exact hkey

/-- An execution that ends. -/
theorem Frame.leave (w : CommandWorld) (id : ℕ) (command : ScheduledCommand) :
    Frame w id (w.leave id command) := by
  refine ⟨rfl, fun other hne => ?_, fun _ _ _ hkey => hkey, Or.inl rfl⟩
  rw [leave_executions, if_neg hne]
  exact Or.inr (Or.inl rfl)

/-- An execution that ends with an answer. -/
theorem Frame.answer (w : CommandWorld) (id : ℕ) (command : ScheduledCommand)
    (answer : ScheduledAnswer) : Frame w id (w.answer id command answer) := by
  refine ⟨rfl, (Frame.leave w id command).others, fun _ _ _ hkey => hkey,
    Or.inr ⟨answer, rfl, ?_⟩⟩
  show (w.leave id command).executions id = none
  rw [leave_executions, if_pos rfl]

/-- The moves of an execution leave the others where they are. -/
theorem ExecutionMove.frame
    (hmove : ExecutionMove fingerprint version stemText w id command phase w') : Frame w id w' := by
  cases hmove with
  | answer answer => exact Frame.answer w id command answer
  | admission | plan | unchanged | finishing | revalidate | respond =>
    exact Frame.advance w id command _
  | dispatch | persist => exact Frame.create w id command _ _
  | send hfirst =>
    exact ⟨rfl, (Frame.advance w id command _).others, fun _ _ _ hkey => hkey, Or.inl rfl⟩
  | project operation ending =>
    refine ⟨rfl, fun other hne => ?_, fun _ _ _ hkey => hkey, Or.inl rfl⟩
    rw [advance_executions, if_neg hne]
    exact Or.inr (Or.inr ⟨_, rfl⟩)
  | finish ending answer now =>
    have hanswer := Frame.answer w id command answer
    exact ⟨rfl, hanswer.others, fun _ _ _ hkey => hkey, hanswer.answers⟩
  | abandon => exact Frame.leave w id command

theorem executionStep_frame
    (hstep : executionStep fingerprint version stemText w id command phase action = some w') :
    Frame w id w' :=
  (executionMove_of_step hstep).frame

/-- What an action does to an execution that it is not about. -/
structure Aside (w : CommandWorld) (id : ℕ) (w' : CommandWorld) : Prop where
  nextId : w.nextId ≤ w'.nextId
  execution : id < w.nextId → Untouched (w.executions id) (w'.executions id)
  creator : ∀ key, w'.owner key = some id → w.owner key = some id
  answers : ∀ answer, (id, answer) ∈ w'.answers → (id, answer) ∈ w.answers

/-- Every action stays aside of the executions that it is not about. -/
theorem step_aside (hactor : actor action ≠ some id)
    (hstep : step fingerprint version stemText w action = some w') : Aside w id w' := by
  cases hacts : actor action with
  | some other =>
    obtain ⟨⟨command, phase⟩, -, hstep⟩ := step_of_actor hacts hstep
    have hframe := executionStep_frame hstep
    have hne : id ≠ other := fun hsame => hactor (hsame ▸ hacts)
    refine ⟨hframe.nextId.ge, fun _ => hframe.others id hne,
      fun key => hframe.creator key id hne, fun answer hanswer => ?_⟩
    rcases hframe.answers with hsame | ⟨added, hadded, -⟩
    · exact hsame ▸ hanswer
    · rw [hadded] at hanswer
      rcases List.mem_cons.mp hanswer with hhead | hanswer
      · exact absurd (congrArg Prod.fst hhead) hne
      · exact hanswer
  | none =>
    have hstill : Untouched (w.executions id) (w.executions id) := Or.inr (Or.inl rfl)
    cases action with
    | start command =>
      rw [step] at hstep
      split at hstep
      · cases hstep
      · cases hstep
        refine ⟨Nat.le_succ _, fun hbelow => ?_, fun _ hkey => hkey, fun _ hanswer => hanswer⟩
        show Untouched _ ((w.advance w.nextId command .started).executions id)
        rw [advance_executions, if_neg (by omega)]
        exact hstill
    | mirror | revoke =>
      cases hstep
      exact ⟨le_rfl, fun _ => Or.inr (Or.inr ⟨_, rfl⟩), fun _ hkey => hkey,
        fun _ hanswer => hanswer⟩
    | crash accountId =>
      cases hstep
      exact ⟨le_rfl, fun _ => Or.inl rfl, fun _ hkey => hkey, fun _ hanswer => hanswer⟩
    | reconcile | access | bindAccount | settle =>
      cases hstep
      exact ⟨le_rfl, fun _ => hstill, fun _ hkey => hkey, fun _ hanswer => hanswer⟩
    | _ => cases hacts

/-! ## Repeated requests -/

/-- Whoever has an answer has ended. -/
def Ended (w : CommandWorld) : Prop :=
  ∀ entry ∈ w.answers, entry.1 < w.nextId ∧ w.executions entry.1 = none

/-- Answers end executions. -/
theorem step_ended (h : Sound fingerprint version w) (hended : Ended w)
    (hstep : step fingerprint version stemText w action = some w') : Ended w' := by
  rintro ⟨id, answer⟩ hanswer
  by_cases hactor : actor action = some id
  · obtain ⟨execution, hexecution, hstep⟩ := step_of_actor hactor hstep
    have hframe := executionStep_frame hstep
    have hbelow : id < w.nextId := by
      by_contra habove
      rw [(h.fresh id (not_lt.mp habove)).1] at hexecution
      cases hexecution
    rcases hframe.answers with hsame | ⟨added, -, hnone⟩
    · have hold := (hended _ (hsame ▸ hanswer)).2
      rw [hexecution] at hold
      cases hold
    · exact ⟨hframe.nextId ▸ hbelow, hnone⟩
  · have haside := step_aside hactor hstep
    obtain ⟨hbelow, hnone⟩ := hended _ (haside.answers answer hanswer)
    have huntouched := haside.execution hbelow
    rw [show w.executions id = none from hnone] at huntouched
    exact ⟨lt_of_lt_of_le hbelow haside.nextId, huntouched.none⟩

/-- A request that found its receipt settled: it sends nothing, and its answer is the receipt's. -/
structure Repeats (fingerprint : ScheduledCommand → String) (w : CommandWorld) (id : ℕ)
    (command : ScheduledCommand) (receipt : ScheduledReceipt) : Prop where
  below : id < w.nextId
  unowned : ∀ key, w.owner key ≠ some id
  stored : w.receipts.lookup command.key = some receipt
  answered : (w.executions id = some ⟨command, .started⟩ ∧ ∀ answer, (id, answer) ∉ w.answers) ∨
    (w.executions id = none ∧
      ∀ answer, (id, answer) ∈ w.answers → answer = duplicateAnswer fingerprint command receipt)

/-- A request that found its receipt settled stays one. -/
theorem Repeats.step (h : Repeats fingerprint w id command receipt)
    (hsettled : receipt.outcome ≠ .pending) (hsound : Sound fingerprint version w)
    (hstep : CommandWorld.step fingerprint version stemText w action = some w') :
    Repeats fingerprint w' id command receipt := by
  have hreceipt : w'.receipts.lookup command.key = some receipt := by
    obtain ⟨receipt', hreceipt', -, -, hsame⟩ :=
      (step_sound hsound hstep).2.receipts.keeps _ _ h.stored
    rw [hreceipt', hsame hsettled]
  by_cases hactor : actor action = some id
  · obtain ⟨execution, hexecution, hstep⟩ := step_of_actor hactor hstep
    rcases h.answered with ⟨hstarted, hfresh⟩ | ⟨hnone, -⟩
    · obtain rfl := Option.some.inj (hstarted.symm.trans hexecution)
      dsimp only at hstep
      have hleft : (w.leave id command).executions id = none := by
        rw [leave_executions, if_pos rfl]
      cases action with
      | read other accessible =>
        rw [executionStep, h.stored] at hstep
        cases hstep
        refine ⟨h.below, h.unowned, hreceipt, Or.inr ⟨hleft, fun answer hanswer => ?_⟩⟩
        rcases List.mem_cons.mp hanswer with hhead | hold
        · exact congrArg Prod.snd hhead
        · exact absurd hold (hfresh answer)
      | abandon other =>
        rw [executionStep] at hstep
        cases hstep
        exact ⟨h.below, h.unowned, hreceipt,
          Or.inr ⟨hleft, fun answer hanswer => absurd hanswer (hfresh answer)⟩⟩
      | _ => cases hstep
    · rw [hnone] at hexecution
      cases hexecution
  · have haside := step_aside hactor hstep
    have huntouched := haside.execution h.below
    refine ⟨lt_of_lt_of_le h.below haside.nextId,
      fun key hkey => h.unowned key (haside.creator key hkey), hreceipt, ?_⟩
    rcases h.answered with ⟨hstarted, hfresh⟩ | ⟨hnone, hanswers⟩
    · rw [hstarted] at huntouched
      rcases huntouched.started with hstarted' | hgone
      · exact Or.inl ⟨hstarted', fun answer hanswer => hfresh answer (haside.answers _ hanswer)⟩
      · exact Or.inr ⟨hgone,
          fun answer hanswer => absurd (haside.answers _ hanswer) (hfresh answer)⟩
    · rw [hnone] at huntouched
      exact Or.inr ⟨huntouched.none, fun answer hanswer => hanswers _ (haside.answers _ hanswer)⟩

/-! ## Dispatches -/

/-- The keys of the sends are pairwise distinct. -/
theorem Sound.keys_nodup (h : Sound fingerprint version w) : (w.sent.map (·.key)).Nodup := by
  rw [List.Nodup, List.pairwise_map]
  refine (List.pairwise_map.mp h.sentOnce).imp_of_mem fun hfirst hsecond hne hsame => hne ?_
  have howner := (h.sentOwned _ hfirst).1
  rw [hsame, (h.sentOwned _ hsecond).1] at howner
  exact (Option.some.inj howner).symm

/-- A command that selects a row is sent when the row has the order that the command names. -/
theorem Sound.send_active (h : Sound fingerprint version w)
    (hexecution : w.executions id = some execution)
    (hstep : step fingerprint version stemText w (.send id) = some w')
    (haction : execution.command.action ≠ .create) :
    ∃ messageId order, execution.command.scheduledMessageId = some messageId ∧
      execution.command.expectedVersion =
          some (version execution.command.accountId execution.command.dialogId messageId order) ∧
        ActiveAt w.store (execution.command.dialogId, messageId) order := by
  obtain ⟨acting, hacting, hstep⟩ := step_of_actor rfl hstep
  obtain rfl := Option.some.inj (hexecution.symm.trans hacting)
  obtain ⟨command, phase⟩ := execution
  cases phase with
  | dispatching dispatch =>
    have hdispatch := (h.executions id _ hexecution).dispatching dispatch rfl
    rw [executionStep] at hstep
    split at hstep
    · rename_i hpermit
      obtain ⟨token, htoken, hvalid⟩ := (Option.any_eq_true _ _).mp hpermit.2
      obtain ⟨messageId, hmessage, hversion⟩ := hdispatch.named haction
      exact ⟨messageId, _, hmessage, hversion,
        hdispatch.permit token htoken hvalid messageId hmessage⟩
    · cases hstep
  | _ => cases hstep

/-- The evidence of a response leaves the rows that are not older than the reserved order. -/
theorem Sound.project_newer (h : Sound fingerprint version w) {dispatch : ScheduledDispatch}
    {resulting : Option ℤ} {evidence : ResponseEvidence} {now : ℤ} {fails : Bool}
    {key : ℤ × ℤ} {row : ScheduledRow}
    (hexecution : w.executions id = some ⟨command, .responded dispatch resulting evidence⟩)
    (hstep : step fingerprint version stemText w (.project id now fails) = some w')
    (hrow : NewerAt w.store key dispatch.responseOrder row) :
    w'.store.rows.lookup key = some row := by
  obtain ⟨acting, hacting, hstep⟩ := step_of_actor rfl hstep
  obtain rfl := Option.some.inj (hexecution.symm.trans hacting)
  dsimp only [executionStep] at hstep
  split at hstep
  · cases hstep
    exact hrow.1
  · rename_i operation hoperation
    split at hstep
    · cases hstep
      exact hrow.1
    · cases hstep
      exact responseOperation_newer h.hints hoperation hrow

/-- The requests whose receipt is settled stay so along a run. -/
theorem run_repeats {actions : List CommandAction} (hsound : Sound fingerprint version w)
    (hsettled : receipt.outcome ≠ .pending) (h : Repeats fingerprint w id command receipt)
    (hrun : run (CommandWorld.step fingerprint version stemText) w actions = some w') :
    Repeats fingerprint w' id command receipt :=
  (run_invariant (I := fun after =>
      Sound fingerprint version after ∧ Repeats fingerprint after id command receipt)
    (fun _ _ _ hbefore hstep => ⟨(step_sound hbefore.1 hstep).1,
      hbefore.2.step hsettled hbefore.1 hstep⟩) ⟨hsound, h⟩ hrun).2

/-- A send is one more send of the command's execution. -/
theorem send_sent (hexecution : w.executions id = some execution)
    (hstep : step fingerprint version stemText w (.send id) = some w') :
    ∃ randomId, w'.sent =
      ⟨id, execution.command.key, fingerprint execution.command, randomId⟩ :: w.sent := by
  obtain ⟨acting, hacting, hstep⟩ := step_of_actor rfl hstep
  obtain rfl := Option.some.inj (hexecution.symm.trans hacting)
  obtain ⟨command, phase⟩ := execution
  cases phase with
  | dispatching dispatch =>
    rw [executionStep] at hstep
    split at hstep
    · cases hstep
      exact ⟨_, rfl⟩
    · cases hstep
  | _ => cases hstep

end CommandWorld

/-! ## A command is dispatched at most once -/

section Dispatched

open CommandWorld

variable {fingerprint : ScheduledCommand → String} {version : ℤ → ℤ → ℤ → ℕ → String}
  {stemText : Option String → String}

/-- In every run, whatever executions, writers, failures and crashes it interleaves, each key is
sent at most once, with the random id and the intent of its receipt; an update or a cancellation is
sent while its row is scheduled under the order that its version names; a receipt changes only while
it is pending; a request that finds its receipt settled sends nothing and is answered from it, with
the unknown outcome where the settlement after a crash has left no result; and the evidence of a
response leaves the rows that are not older than the order of its receipt. -/
theorem scheduled_command_dispatched_once (accountId : ℤ) (actions later : List CommandAction)
    {w w' : CommandWorld}
    (hrun : run (step fingerprint version stemText) { accountId := accountId } actions = some w)
    (hlater : run (step fingerprint version stemText) w later = some w') :
    (w.sent.map (·.key)).Nodup ∧
    (∀ rpc ∈ w.sent, ∃ receipt, w.receipts.lookup rpc.key = some receipt ∧
      receipt.randomId = rpc.randomId ∧ receipt.requestFingerprint = rpc.requestFingerprint) ∧
    (∀ id execution next, w.executions id = some execution →
      step fingerprint version stemText w (.send id) = some next →
        (∃ randomId, next.sent =
          ⟨id, execution.command.key, fingerprint execution.command, randomId⟩ :: w.sent) ∧
        (execution.command.action ≠ .create →
          ∃ messageId order, execution.command.scheduledMessageId = some messageId ∧
            execution.command.expectedVersion = some
              (version execution.command.accountId execution.command.dialogId messageId order) ∧
            ActiveAt w.store (execution.command.dialogId, messageId) order)) ∧
    ReceiptsLast w.receipts w'.receipts ∧
    (∀ id command receipt, w.executions id = some ⟨command, .started⟩ →
      w.receipts.lookup command.key = some receipt → receipt.outcome ≠ .pending →
        (∀ rpc ∈ w'.sent, rpc.execution ≠ id) ∧
        ∀ answer, (id, answer) ∈ w'.answers →
          answer = if receipt.requestFingerprint = fingerprint command then
              .result (receipt.result.getD (scheduledResult command .unknown none none false))
            else .refused "operation_conflict") ∧
    (∀ key receipt, w.receipts.lookup key = some receipt →
      ∀ rpc ∈ w'.sent, rpc.key = key → rpc.requestFingerprint = receipt.requestFingerprint) ∧
    (∀ id now fails next command dispatch resulting evidence,
      w.executions id = some ⟨command, .responded dispatch resulting evidence⟩ →
      step fingerprint version stemText w (.project id now fails) = some next →
        ∀ key row, NewerAt w.store key dispatch.responseOrder row →
          next.store.rows.lookup key = some row) := by
  have hreached : Sound fingerprint version w ∧ Ended w :=
    run_invariant (I := fun after => Sound fingerprint version after ∧ Ended after)
      (fun _ _ _ hbefore hstep => ⟨(step_sound hbefore.1 hstep).1,
        step_ended hbefore.1 hbefore.2 hstep⟩)
      ⟨sound_init accountId, fun _ hanswer => by cases hanswer⟩ hrun
  obtain ⟨hsound, hended⟩ := hreached
  obtain ⟨hsound', hkeeps⟩ := run_sound hsound hlater
  refine ⟨hsound.keys_nodup, fun rpc hrpc => (hsound.sentOwned rpc hrpc).2,
    fun id execution next hexecution hstep => ⟨send_sent hexecution hstep,
      hsound.send_active hexecution hstep⟩,
    hkeeps.receipts, fun id command receipt hexecution hstored hsettled => ?_,
    fun key receipt hstored rpc hrpc hkey => ?_,
    fun id now fails next command dispatch resulting evidence hexecution hstep key row hrow =>
      hsound.project_newer hexecution hstep hrow⟩
  · have hbelow : id < w.nextId := by
      by_contra habove
      rw [(hsound.fresh id (not_lt.mp habove)).1] at hexecution
      cases hexecution
    have hrepeats : Repeats fingerprint w id command receipt := by
      refine ⟨hbelow, (hsound.executions id _ hexecution).early rfl, hstored,
        Or.inl ⟨hexecution, fun answer hanswer => ?_⟩⟩
      have hnone := (hended _ hanswer).2
      rw [show w.executions id = none from hnone] at hexecution
      cases hexecution
    have hlast := run_repeats hsound hsettled hrepeats hlater
    refine ⟨fun rpc hrpc hsame => hlast.unowned rpc.key (hsame ▸ (hsound'.sentOwned rpc hrpc).1),
      fun answer hanswer => ?_⟩
    rcases hlast.answered with ⟨-, hfresh⟩ | ⟨-, hanswers⟩
    · exact absurd hanswer (hfresh answer)
    · exact hanswers answer hanswer
  · obtain ⟨receipt', hreceipt', hfingerprint', -, -⟩ := hkeeps.receipts.keeps key receipt hstored
    obtain ⟨-, stored, hstored', -, hfingerprint⟩ := hsound'.sentOwned rpc hrpc
    rw [hkey, hreceipt'] at hstored'
    obtain rfl := Option.some.inj hstored'
    rw [← hfingerprint, hfingerprint']

end Dispatched

/-- The creation of a message. -/
def creationCommand : ScheduledCommand where
  action := .create
  accountId := 1
  dialogId := 7
  operationKey := "key"
  text := some "later"
  scheduleAtUtc := some 1000
  created _ := ⟨rfl, rfl⟩
  selected haction := absurd rfl haction

/-- A creation up to its receipt, in a dialog whose queue is known. -/
def creationActions : List CommandAction :=
  [.bindAccount (some 1),
    .reconcile 7 { updatedAt := 1, coverageState := .complete, snapshotObservationOrder := some 3 },
    .start creationCommand, .read 0 true, .plan 0 true, .prepare 0 10 5 .request]

/-- A daemon whose fingerprints are the keys takes an action. -/
def creationStep : CommandWorld → CommandAction → Option CommandWorld :=
  CommandWorld.step (fun command => command.operationKey) (fun _ _ _ _ => "version")
    fun text => text.getD ""

/-- A creation is sent once, and a second request of its key is answered and not sent. -/
theorem scheduled_command_dispatched_once_creation : ∃ w w',
    run creationStep { accountId := 1 } (creationActions ++
        [.revalidate 0, .send 0, .fail 0 .indefinite, .finish 0 11 false,
          .start creationCommand]) = some w ∧
      run creationStep w [.read 1 true] = some w' ∧ w'.sent.length = 1 ∧ w'.answers.length = 2 ∧
        ∀ rpc ∈ w'.sent, rpc.execution ≠ 1 := by
  refine ⟨_, _, rfl, rfl, rfl, rfl, ?_⟩
  have h := @scheduled_command_dispatched_once (fun command => command.operationKey)
    (fun _ _ _ _ => "version") (fun text => text.getD "") 1 (creationActions ++
      [.revalidate 0, .send 0, .fail 0 .indefinite, .finish 0 11 false, .start creationCommand])
    [.read 1 true] _ _ rfl rfl
  exact (h.2.2.2.2.1 1 creationCommand _ rfl rfl (by decide)).1

/-- A receipt that the settlement after a crash has closed has no result, and its request is
answered all the same. -/
theorem settled_receipt_counterexample : ¬ ∀ (actions later : List CommandAction)
    (w w' : CommandWorld) (id : ℕ) (command : ScheduledCommand) (receipt : ScheduledReceipt)
    (answer : ScheduledAnswer), run creationStep { accountId := 1 } actions = some w →
      run creationStep w later = some w' → w.executions id = some ⟨command, .started⟩ →
      w.receipts.lookup command.key = some receipt → receipt.outcome ≠ .pending →
      receipt.requestFingerprint = command.operationKey → (id, answer) ∈ w'.answers →
      ∃ result, receipt.result = some result ∧ answer = .result result := by
  intro h
  obtain ⟨result, hresult, -⟩ := h
    (creationActions ++ [.crash 1, .settle 12, .start creationCommand]) [.read 1 true] _ _ 1
    creationCommand _ _ rfl rfl rfl rfl (by decide) rfl (List.mem_singleton_self _)
  cases hresult

end McpTelegram
