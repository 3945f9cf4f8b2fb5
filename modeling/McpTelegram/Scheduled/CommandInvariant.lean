import McpTelegram.Scheduled.Responses

/-!
# What the executions of scheduled commands keep

Every receipt has one creator, the only execution that may send under its key, and it sends
once.  A valid permit says that the row is the planned one, since every writer invalidates the
permits of a row before it changes the row.
-/

namespace McpTelegram

open Foundations ScheduledStore

variable {fingerprint : ScheduledCommand → String} {version : ℤ → ℤ → ℤ → ℕ → String}
  {stemText : Option String → String}

/-! ## What receipts keep -/

/-- A receipt keeps its intent and its random id, and after it left `pending` it never changes. -/
structure ReceiptsLast (receipts receipts' : ScheduledReceipts) : Prop where
  keeps : ∀ key receipt, receipts.lookup key = some receipt →
    ∃ receipt', receipts'.lookup key = some receipt' ∧
      receipt'.requestFingerprint = receipt.requestFingerprint ∧
      receipt'.randomId = receipt.randomId ∧ (receipt.outcome ≠ .pending → receipt' = receipt)

theorem ReceiptsLast.refl (receipts : ScheduledReceipts) : ReceiptsLast receipts receipts :=
  ⟨fun _ receipt h => ⟨receipt, h, rfl, rfl, fun _ => rfl⟩⟩

/-- Lasting composes. -/
theorem ReceiptsLast.trans {receipts receipts' receipts'' : ScheduledReceipts}
    (h : ReceiptsLast receipts receipts') (h' : ReceiptsLast receipts' receipts'') :
    ReceiptsLast receipts receipts'' := by
  refine ⟨fun key receipt hreceipt => ?_⟩
  obtain ⟨next, hnext, hfingerprint, hrandom, hsettled⟩ := h.keeps key receipt hreceipt
  obtain ⟨last, hlast, hfingerprint', hrandom', hsettled'⟩ := h'.keeps key next hnext
  refine ⟨last, hlast, hfingerprint'.trans hfingerprint, hrandom'.trans hrandom, fun hout => ?_⟩
  obtain rfl := hsettled hout
  exact hsettled' hout

/-- Finishing a receipt. -/
theorem finish_last (receipts : ScheduledReceipts) (key : ℤ × String) (outcome : ScheduledOutcome)
    (dispatched : Option Bool) (result : ScheduledResult) (scheduledMessageId : Option ℤ)
    (now : ℤ) :
    ReceiptsLast receipts (Dictionary.modify receipts key
      (·.finish outcome dispatched result scheduledMessageId now)) := by
  refine ⟨fun other receipt hreceipt => ?_⟩
  rw [Dictionary.lookup_modify]
  split
  · rename_i hsame
    subst hsame
    rw [hreceipt, Option.map_some]
    refine ⟨receipt.finish outcome dispatched result scheduledMessageId now, rfl, ?_, ?_,
      fun hsettled => if_neg hsettled⟩
    all_goals
      unfold ScheduledReceipt.finish
      split <;> rfl
  · exact ⟨receipt, hreceipt, rfl, rfl, fun _ => rfl⟩

/-- Settling interrupted receipts. -/
theorem settle_last (accountId now : ℤ) (receipts : ScheduledReceipts) :
    ReceiptsLast receipts (settleInterrupted accountId now receipts) := by
  refine ⟨fun key receipt hreceipt => ?_⟩
  rw [settleInterrupted, Dictionary.lookup_mapValues, hreceipt, Option.map_some]
  split
  · refine ⟨receipt.settle now, rfl, ?_, ?_, fun hsettled => if_neg hsettled⟩
    all_goals
      unfold ScheduledReceipt.settle
      split <;> rfl
  · exact ⟨receipt, rfl, rfl, rfl, fun _ => rfl⟩

/-- Inserting a receipt under a new key. -/
theorem insert_last {receipts : ScheduledReceipts} {key : ℤ × String} (receipt : ScheduledReceipt)
    (hnew : receipts.lookup key = none) : ReceiptsLast receipts (receipts.insert key receipt) := by
  refine ⟨fun other old hold => ⟨old, ?_, rfl, rfl, fun _ => rfl⟩⟩
  rw [AList.lookup_insert_ne, hold]
  rintro rfl
  rw [hnew] at hold
  cases hold

/-! ## The invariant -/

/-- The phases before the receipt is written. -/
def ExecutionPhase.early : ExecutionPhase → Bool
  | .started | .admitted | .planned _ _ | .persisting _ => true
  | _ => false

/-- The expected version of a command names the order of a row of the queue. -/
def NamesOrder (version : ℤ → ℤ → ℤ → ℕ → String) (command : ScheduledCommand) (order : ℕ) : Prop :=
  command.action ≠ .create → ∃ messageId, command.scheduledMessageId = some messageId ∧
    command.expectedVersion =
      some (version command.accountId command.dialogId messageId order)

namespace CommandWorld

variable {execution : ScheduledExecution} {token : PermitToken} {intent : ScheduledMutationIntent}
    {invalidations : List PermitInvalidation}

/-- What holds of a dispatch. -/
structure DispatchSound (fingerprint : ScheduledCommand → String)
    (version : ℤ → ℤ → ℤ → ℕ → String) (w : CommandWorld) (id : ℕ) (command : ScheduledCommand)
    (dispatch : ScheduledDispatch) : Prop where
  /-- The execution created the receipt of its key. -/
  owner : w.owner command.key = some id
  /-- The receipt has the random id of the dispatch. -/
  receipt : ∃ receipt, w.receipts.lookup command.key = some receipt ∧
    receipt.randomId = dispatch.intent.randomId ∧ receipt.requestFingerprint = fingerprint command
  /-- Without an attempt nothing was sent. -/
  unsent : dispatch.attempts = 0 → ∀ rpc ∈ w.sent, rpc.execution ≠ id
  /-- The intent is about the target of the command. -/
  target : dispatch.intent.dialogId = command.dialogId ∧
    dispatch.intent.scheduledMessageId = command.scheduledMessageId
  /-- The order of the intent is the one that the version names. -/
  named : NamesOrder version command dispatch.intent.expectedObservationOrder
  /-- Under a valid permit the row has that order. -/
  permit : ∀ token, dispatch.token = some token → token.isValidFor dispatch.intent = true →
    ∀ messageId, command.scheduledMessageId = some messageId →
      ActiveAt w.store (command.dialogId, messageId) dispatch.intent.expectedObservationOrder

/-- What holds of an execution in flight. -/
structure ExecutionSound (fingerprint : ScheduledCommand → String)
    (version : ℤ → ℤ → ℤ → ℕ → String) (w : CommandWorld) (id : ℕ)
    (execution : ScheduledExecution) : Prop where
  /-- An early execution created no receipt. -/
  early : execution.phase.early = true → ∀ key, w.owner key ≠ some id
  /-- The planned row is the one that the version names. -/
  planned : ∀ row coverageOrder, execution.phase = .planned row coverageOrder →
    NamesOrder version execution.command
      ((row.map fun row => row.observationOrder.getD 0).getD coverageOrder)
  dispatching : ∀ dispatch, execution.phase = .dispatching dispatch →
    DispatchSound fingerprint version w id execution.command dispatch

/-- The invariant of the daemon. -/
structure Sound (fingerprint : ScheduledCommand → String) (version : ℤ → ℤ → ℤ → ℕ → String)
    (w : CommandWorld) : Prop where
  /-- Numbers that were not given out are in nobody's hands. -/
  fresh : ∀ id, w.nextId ≤ id → w.executions id = none ∧ ∀ key, w.owner key ≠ some id
  /-- The keys with receipts are the keys with creators. -/
  owned : ∀ key, w.receipts.lookup key = none ↔ w.owner key = none
  executions : ∀ id execution, w.executions id = some execution →
    ExecutionSound fingerprint version w id execution
  /-- Whoever sent created the receipt, and sent what it says. -/
  sentOwned : ∀ rpc ∈ w.sent, w.owner rpc.key = some rpc.execution ∧
    ∃ receipt, w.receipts.lookup rpc.key = some receipt ∧ receipt.randomId = rpc.randomId ∧
      receipt.requestFingerprint = rpc.requestFingerprint
  /-- Nobody sent twice. -/
  sentOnce : (w.sent.map (·.execution)).Nodup
  hints : w.store.HintsSettled

/-- What one action keeps: the receipts last, and creators stay. -/
structure Keeps (w w' : CommandWorld) : Prop where
  receipts : ReceiptsLast w.receipts w'.receipts
  owner : ∀ key id, w.owner key = some id → w'.owner key = some id

theorem Keeps.refl (w : CommandWorld) : Keeps w w := ⟨ReceiptsLast.refl _, fun _ _ h => h⟩

/-- Keeping composes. -/
theorem Keeps.trans {w w' w'' : CommandWorld} (h : Keeps w w') (h' : Keeps w' w'') : Keeps w w'' :=
  ⟨h.receipts.trans h'.receipts, fun key id hid => h'.owner key id (h.owner key id hid)⟩

variable {w w' : CommandWorld} {id : ℕ} {command : ScheduledCommand} {phase phase' : ExecutionPhase}

/-! ## One execution goes on or ends -/

/-- An execution is as sound in a world with the same creators, sends and rows, whose receipts
last. -/
theorem ExecutionSound.transfer (h : ExecutionSound fingerprint version w id execution)
    (howner : w'.owner = w.owner) (hreceipts : ReceiptsLast w.receipts w'.receipts)
    (hsent : w'.sent = w.sent) (hrows : w'.store.rows = w.store.rows) :
    ExecutionSound fingerprint version w' id execution where
  early hearly := by
    rw [howner]
    exact h.early hearly
  planned := h.planned
  dispatching dispatch hphase := by
    have hdispatch := h.dispatching dispatch hphase
    refine ⟨by rw [howner]; exact hdispatch.owner, ?_, by rw [hsent]; exact hdispatch.unsent,
      hdispatch.target, hdispatch.named, fun token htoken hvalid messageId hmessage => ?_⟩
    · obtain ⟨receipt, hreceipt, hrandom, hfingerprint⟩ := hdispatch.receipt
      obtain ⟨receipt', hreceipt', hfingerprint', hrandom', -⟩ :=
        hreceipts.keeps _ receipt hreceipt
      exact ⟨receipt', hreceipt', hrandom'.trans hrandom, hfingerprint'.trans hfingerprint⟩
    · exact (hdispatch.permit token htoken hvalid messageId hmessage).congr (by rw [hrows])

/-- The parts of the world that the invariant reads besides the executions are the same. -/
structure Alike (w w' : CommandWorld) : Prop where
  nextId : w'.nextId = w.nextId
  owner : w'.owner = w.owner
  receipts : ReceiptsLast w.receipts w'.receipts
  keys : ∀ key, w'.receipts.lookup key = none ↔ w.receipts.lookup key = none
  sent : w'.sent = w.sent
  rows : w'.store.rows = w.store.rows
  evidence : w'.store.evidence = w.store.evidence

/-- The invariant after a step that leaves the world alike and whose executions are sound. -/
theorem Sound.alike (h : Sound fingerprint version w) (halike : Alike w w')
    (hnone : ∀ id, w.executions id = none → w'.executions id = none)
    (hexecutions : ∀ id execution, w'.executions id = some execution →
      ExecutionSound fingerprint version w' id execution) : Sound fingerprint version w' where
  fresh id hid := by
    rw [halike.nextId] at hid
    rw [halike.owner]
    exact ⟨hnone id (h.fresh id hid).1, (h.fresh id hid).2⟩
  owned key := by
    rw [halike.owner, halike.keys]
    exact h.owned key
  executions := hexecutions
  sentOwned rpc hrpc := by
    rw [halike.sent] at hrpc
    obtain ⟨howner, receipt, hreceipt, hrandom, hfingerprint⟩ := h.sentOwned rpc hrpc
    obtain ⟨receipt', hreceipt', hfingerprint', hrandom', -⟩ :=
      halike.receipts.keeps rpc.key receipt hreceipt
    exact ⟨by rw [halike.owner]; exact howner, receipt', hreceipt', hrandom'.trans hrandom,
      hfingerprint'.trans hfingerprint⟩
  sentOnce := by
    rw [halike.sent]
    exact h.sentOnce
  hints := ⟨halike.rows ▸ h.hints.scheduled, halike.evidence ▸ halike.rows ▸ h.hints.waiting⟩

/-- One execution goes on, to a phase in which it is sound. -/
theorem Sound.advance (h : Sound fingerprint version w)
    (hexecution : w.executions id = some ⟨command, phase⟩)
    (hnew : ExecutionSound fingerprint version w id ⟨command, phase'⟩) :
    Sound fingerprint version (w.advance id command phase') := by
  refine h.alike ⟨rfl, rfl, ReceiptsLast.refl _, fun _ => Iff.rfl, rfl, rfl, rfl⟩
    (fun other hother => ?_) (fun other execution hother => ?_)
  · rw [advance_executions, if_neg]
    · exact hother
    · rintro rfl
      rw [hexecution] at hother
      cases hother
  · rw [advance_executions] at hother
    refine ExecutionSound.transfer ?_ rfl (ReceiptsLast.refl _) rfl rfl (w := w)
    split at hother
    · rename_i hsame
      subst hsame
      cases hother
      exact hnew
    · exact h.executions other execution hother

/-- One execution ends. -/
theorem Sound.leave (h : Sound fingerprint version w) (id : ℕ) (command : ScheduledCommand) :
    Sound fingerprint version (w.leave id command) := by
  refine h.alike ⟨rfl, rfl, ReceiptsLast.refl _, fun _ => Iff.rfl, rfl, rfl, rfl⟩
    (fun other hother => ?_) (fun other execution hother => ?_)
  · rw [leave_executions]
    split
    · rfl
    · exact hother
  · rw [leave_executions] at hother
    split at hother
    · cases hother
    · exact (h.executions other execution hother).transfer rfl (ReceiptsLast.refl _) rfl rfl

/-- One execution ends with an answer. -/
theorem Sound.answer (h : Sound fingerprint version w) (id : ℕ) (command : ScheduledCommand)
    (answer : ScheduledAnswer) : Sound fingerprint version (w.answer id command answer) := by
  have hleave := h.leave id command
  exact hleave.alike ⟨rfl, rfl, ReceiptsLast.refl _, fun _ => Iff.rfl, rfl, rfl, rfl⟩
    (fun _ hnone => hnone)
    (fun other execution hother =>
      (hleave.executions other execution hother).transfer rfl (ReceiptsLast.refl _) rfl rfl)

/-- Receipts change and last. -/
theorem Sound.receipts (h : Sound fingerprint version w) {receipts : ScheduledReceipts}
    (hlast : ReceiptsLast w.receipts receipts)
    (hkeys : ∀ key, receipts.lookup key = none ↔ w.receipts.lookup key = none) :
    Sound fingerprint version { w with receipts := receipts } :=
  h.alike ⟨rfl, rfl, hlast, hkeys, rfl, rfl, rfl⟩ (fun _ hnone => hnone)
    (fun other execution hother => (h.executions other execution hother).transfer rfl hlast rfl rfl)

/-! ## Writers and permits -/

theorem isValidFor_iff :
    token.isValidFor intent = true ↔ token.invalidated = false ∧
      token.accountId = intent.accountId ∧
        token.target = (intent.dialogId, intent.scheduledMessageId) := by
  simp [PermitToken.isValidFor, and_assoc]

/-- A permit that is valid after some invalidations was valid, and none of them meets it. -/
theorem isValidFor_invalidate :
    (token.invalidate invalidations).isValidFor intent = true ↔
      token.isValidFor intent = true ∧
        ∀ invalidation ∈ invalidations, ¬ invalidation.hits token.target = true := by
  rw [isValidFor_iff, isValidFor_iff, PermitToken.invalidate, Bool.or_eq_false_iff,
    List.any_eq_false]
  constructor
  · rintro ⟨⟨hvalid, hmissed⟩, haccount, htarget⟩
    exact ⟨⟨hvalid, haccount, htarget⟩, hmissed⟩
  · rintro ⟨⟨hvalid, haccount, htarget⟩, hmissed⟩
    exact ⟨⟨hvalid, hmissed⟩, haccount, htarget⟩

/-- What invalidations leave of a phase that is not a dispatch. -/
theorem invalidate_of_not_dispatching (h : ∀ dispatch, execution.phase ≠ .dispatching dispatch) :
    execution.invalidate invalidations = execution := by
  unfold ScheduledExecution.invalidate
  split
  · rename_i dispatch hphase
    exact absurd hphase (h dispatch)
  · rfl

/-- An execution stays sound when every row that is no longer active has its permits invalidated. -/
theorem ExecutionSound.invalidate (h : ExecutionSound fingerprint version w id execution)
    (howner : w'.owner = w.owner) (hreceipts : w'.receipts = w.receipts) (hsent : w'.sent = w.sent)
    (hactive : ∀ dialogId messageId order, ActiveAt w.store (dialogId, messageId) order →
      ActiveAt w'.store (dialogId, messageId) order ∨
        ∃ invalidation ∈ invalidations, invalidation.hits (dialogId, some messageId) = true) :
    ExecutionSound fingerprint version w' id (execution.invalidate invalidations) := by
  obtain ⟨command, phase⟩ := execution
  cases phase with
  | dispatching dispatch =>
    have hdispatch := h.dispatching dispatch rfl
    refine ⟨fun hearly => Bool.noConfusion hearly, (fun _ _ hphase => by cases hphase),
      fun after hphase => ?_⟩
    obtain rfl := (ExecutionPhase.dispatching.inj hphase).symm
    refine ⟨by rw [howner]; exact hdispatch.owner, by rw [hreceipts]; exact hdispatch.receipt,
      by rw [hsent]; exact hdispatch.unsent, hdispatch.target, hdispatch.named,
      fun token htoken hvalid messageId hmessage => ?_⟩
    obtain ⟨old, hold, rfl⟩ := Option.map_eq_some_iff.mp htoken
    obtain ⟨hvalid, hmissed⟩ := isValidFor_invalidate.mp hvalid
    refine (hactive _ _ _ (hdispatch.permit old hold hvalid messageId hmessage)).resolve_right ?_
    rintro ⟨invalidation, hmem, hhits⟩
    refine hmissed invalidation hmem ?_
    have hmessage : command.scheduledMessageId = some messageId := hmessage
    rw [(isValidFor_iff.mp hvalid).2.2, hdispatch.target.1, hdispatch.target.2]
    show invalidation.hits (command.dialogId, command.scheduledMessageId) = true
    rw [hmessage]
    exact hhits
  | started | admitted | planned _ _ | persisting _ | responded _ _ _ | finishing _ =>
    rw [invalidate_of_not_dispatching fun _ hphase => by cases hphase]
    exact ⟨fun hearly => by rw [howner]; exact h.early hearly, h.planned,
      fun _ hphase => by cases hphase⟩

/-- The invariant after a change of the rows whose permits are invalidated. -/
theorem Sound.invalidate (h : Sound fingerprint version w) {store : ScheduledStore}
    (hhints : store.HintsSettled)
    (hactive : ∀ dialogId messageId order, ActiveAt w.store (dialogId, messageId) order →
      ActiveAt store (dialogId, messageId) order ∨
        ∃ invalidation ∈ invalidations, invalidation.hits (dialogId, some messageId) = true) :
    Sound fingerprint version { w.invalidate invalidations with store := store } where
  fresh id hid := by
    refine ⟨?_, (h.fresh id hid).2⟩
    show (w.executions id).map _ = none
    rw [(h.fresh id hid).1, Option.map_none]
  owned := h.owned
  executions id execution hexecution := by
    obtain ⟨old, hold, rfl⟩ := Option.map_eq_some_iff.mp hexecution
    exact (h.executions id old hold).invalidate rfl rfl rfl hactive
  sentOwned := h.sentOwned
  sentOnce := h.sentOnce
  hints := hhints

theorem Sound.write (h : Sound fingerprint version w) (operation : ScheduledOperation) :
    Sound fingerprint version (w.write stemText operation) :=
  h.invalidate h.hints.perform fun _ _ _ hrow => perform_active hrow

/-! ## Creating a receipt and sending -/

/-- The receipt of a new key is created by an execution that created none. -/
theorem Sound.create (h : Sound fingerprint version w) (receipt : ScheduledReceipt)
    (hexecution : w.executions id = some ⟨command, phase⟩)
    (hnew : w.receipts.lookup command.key = none) (hphase : ExecutionSound fingerprint version
      (w.createReceipt id command (w.receipts.insert command.key receipt)) id
        ⟨command, phase'⟩) :
    Sound fingerprint version
      ((w.createReceipt id command (w.receipts.insert command.key receipt)).advance id command
        phase') := by
  have hunowned : w.owner command.key = none := (h.owned _).mp hnew
  have hbelow : id < w.nextId := by
    by_contra hid
    rw [(h.fresh id (not_lt.mp hid)).1] at hexecution
    cases hexecution
  have howner : ∀ key creator, w.owner key = some creator →
      (w.owner.put command.key id) key = some creator := by
    intro key creator hkey
    rw [Table.put_of_ne, hkey]
    rintro rfl
    rw [hunowned] at hkey
    cases hkey
  have hlast := insert_last receipt hnew
  refine ⟨fun other hother => ⟨?_, fun key => ?_⟩, fun key => ?_, fun other execution hother => ?_,
    fun rpc hrpc => ?_, h.sentOnce, h.hints⟩
  · have hid : w.nextId ≤ other := hother
    rw [advance_executions, if_neg (by omega)]
    exact (h.fresh other hid).1
  · have hid : w.nextId ≤ other := hother
    show (w.owner.put command.key id) key ≠ some other
    rw [Table.put_apply]
    split
    · exact fun hsame => by cases hsame; omega
    · exact (h.fresh other hid).2 key
  · show (w.receipts.insert command.key receipt).lookup key = none ↔
      (w.owner.put command.key id) key = none
    rw [Dictionary.lookup_insert_eq, Table.put_apply]
    split
    · simp
    · exact h.owned key
  · rw [advance_executions] at hother
    split at hother
    · rename_i hsame
      subst hsame
      cases hother
      exact hphase.transfer rfl (ReceiptsLast.refl _) rfl rfl
    · rename_i hne
      have hold := h.executions other execution hother
      refine ⟨fun hearly key => ?_, hold.planned, fun dispatch hdispatching => ?_⟩
      · show (w.owner.put command.key id) key ≠ some other
        rw [Table.put_apply]
        split
        · exact fun hsame => hne (Option.some.inj hsame).symm
        · exact hold.early hearly key
      · have hdispatch := hold.dispatching dispatch hdispatching
        obtain ⟨stored, hstored, hrandom, hfingerprint⟩ := hdispatch.receipt
        obtain ⟨stored', hstored', hfingerprint', hrandom', -⟩ := hlast.keeps _ stored hstored
        exact ⟨howner _ _ hdispatch.owner,
          ⟨stored', hstored', hrandom'.trans hrandom, hfingerprint'.trans hfingerprint⟩,
          hdispatch.unsent, hdispatch.target, hdispatch.named, hdispatch.permit⟩
  · obtain ⟨hcreator, stored, hstored, hrandom, hfingerprint⟩ := h.sentOwned rpc hrpc
    obtain ⟨stored', hstored', hfingerprint', hrandom', -⟩ := hlast.keeps _ stored hstored
    exact ⟨howner _ _ hcreator, stored', hstored', hrandom'.trans hrandom,
      hfingerprint'.trans hfingerprint⟩

/-- The world after a send. -/
def sendOf (fingerprint : ScheduledCommand → String) (w : CommandWorld) (id : ℕ)
    (command : ScheduledCommand) (dispatch : ScheduledDispatch) : CommandWorld :=
  { w.advance id command (.dispatching { dispatch with attempts := dispatch.attempts + 1 }) with
    sent := ⟨id, command.key, fingerprint command, dispatch.intent.randomId⟩ :: w.sent }

/-- An execution whose budget is not used sends. -/
theorem Sound.send {dispatch : ScheduledDispatch} (h : Sound fingerprint version w)
    (hexecution : w.executions id = some ⟨command, .dispatching dispatch⟩)
    (hbudget : dispatch.attempts = 0) :
    Sound fingerprint version (sendOf fingerprint w id command dispatch) := by
  have hdispatch := (h.executions id _ hexecution).dispatching dispatch rfl
  refine ⟨fun other hother => ⟨?_, (h.fresh other hother).2⟩, h.owned,
    fun other execution hother => ?_, fun rpc hrpc => ?_, ?_, h.hints⟩
  · show (w.advance id command _).executions other = none
    rw [advance_executions, if_neg, (h.fresh other hother).1]
    rintro rfl
    rw [(h.fresh other hother).1] at hexecution
    cases hexecution
  · have hsome : (w.advance id command (.dispatching
        { dispatch with attempts := dispatch.attempts + 1 })).executions other =
          some execution := hother
    rw [advance_executions] at hsome
    clear hother
    split at hsome
    · rename_i hsame
      subst hsame
      cases hsome
      refine ⟨fun hearly => Bool.noConfusion hearly, (fun _ _ hphase => by cases hphase),
        fun after hphase => ?_⟩
      obtain rfl := (ExecutionPhase.dispatching.inj hphase).symm
      exact ⟨hdispatch.owner, hdispatch.receipt,
        fun hzero => absurd hzero (Nat.succ_ne_zero _), hdispatch.target, hdispatch.named,
        hdispatch.permit⟩
    · rename_i hne
      have hold := h.executions other execution hsome
      refine ⟨hold.early, hold.planned, fun after hphase => ?_⟩
      have hafter := hold.dispatching after hphase
      refine ⟨hafter.owner, hafter.receipt, fun hzero rpc hrpc => ?_, hafter.target, hafter.named,
        hafter.permit⟩
      rcases List.mem_cons.mp hrpc with rfl | hrpc
      · exact fun hsame => hne hsame.symm
      · exact hafter.unsent hzero rpc hrpc
  · rcases List.mem_cons.mp hrpc with rfl | hrpc
    · exact ⟨hdispatch.owner, hdispatch.receipt⟩
    · exact h.sentOwned rpc hrpc
  · show (id :: w.sent.map (·.execution)).Nodup
    rw [List.nodup_cons]
    refine ⟨fun hmem => ?_, h.sentOnce⟩
    obtain ⟨rpc, hrpc, hsame⟩ := List.mem_map.mp hmem
    exact hdispatch.unsent hbudget rpc hrpc hsame

end CommandWorld

end McpTelegram
