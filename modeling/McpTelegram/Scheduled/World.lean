import McpTelegram.Scheduled.Store
import McpTelegram.Foundations.Run

/-!
# Runs of the scheduled mirror

The five writers of the mirror as operations, and what each of them does to one row.  A published
row is never touched again; any other row changes only under an observation that is current for it,
as a missing row, or by the evidence of its publication.
-/

namespace McpTelegram

open Foundations

/-- An operation on the mirror. -/
inductive ScheduledOperation where
  | upsert (dialogId : ℤ) (message : QueueMessage) (now : ℤ) (markDirty : Bool) (order : ℕ)
  | removed (dialogId : ℤ) (messageIds sentMessageIds : List ℤ) (now : ℤ) (order : ℕ)
  | verify (dialogId publishedMessageId : ℤ) (publishedAt : Option ℤ) (now : ℤ)
  | missing (dialogId : ℤ) (messageIds : List ℤ) (now : ℤ) (order : ℕ)
  | snapshot (reads : ScheduledReads) (dialogId : ℤ) (generation : ℕ)
      (messages : List QueueMessage) (now : ℤ) (order : ℕ)

namespace ScheduledStore

variable {order : ℕ}

/-- The store after an operation. -/
def perform (stemText : Option String → String) (store : ScheduledStore) :
    ScheduledOperation → ScheduledStore
  | .upsert dialogId message now markDirty order =>
    store.upsertScheduledMessage stemText dialogId message now markDirty order
  | .removed dialogId messageIds sentMessageIds now order =>
    store.markRemoved dialogId messageIds sentMessageIds now order
  | .verify dialogId publishedMessageId publishedAt now =>
    store.verifyPublication dialogId publishedMessageId publishedAt now
  | .missing dialogId messageIds now order => store.markMissing dialogId messageIds now order
  | .snapshot reads dialogId generation messages now order =>
    (store.applySnapshot stemText reads dialogId generation messages now order).getD store

variable {stemText : Option String → String} {store : ScheduledStore} {dialogId messageId : ℤ}
  {key : ℤ × ℤ} {row : ScheduledRow}

/-! ## Lookups after the writers -/

@[simp] theorem markDialogDirty_rows (store : ScheduledStore) (dialogId now : ℤ) :
    (store.markDialogDirty dialogId now).rows = store.rows := rfl

/-- Marking a dialog dirty keeps the order of its last snapshot. -/
@[simp] theorem markDialogDirty_snapshotOrder (store : ScheduledStore) (dialogId now other : ℤ) :
    (store.markDialogDirty dialogId now).snapshotOrder other = store.snapshotOrder other := by
  rw [snapshotOrder, snapshotOrder, markDialogDirty, Dictionary.lookup_insert_eq]
  split_ifs with hother
  · rw [hother]
    cases store.reconciliation.lookup dialogId <;> rfl
  · rfl

theorem observationCurrent_iff :
    store.observationCurrent dialogId messageId order = true ↔
      (∀ row, store.rows.lookup (dialogId, messageId) = some row → row.messageState ≠ .published) ∧
        store.rowOrder dialogId messageId < order ∧ store.snapshotOrder dialogId < order := by
  rw [observationCurrent, Bool.and_eq_true, decide_eq_true_iff, decide_eq_true_iff, max_lt_iff]
  refine and_congr_left fun _ => ?_
  cases store.rows.lookup (dialogId, messageId) <;> simp

/-- What an accepted upsert leaves. -/
structure Upserted (stemText : Option String → String) (dialogId : ℤ) (message : QueueMessage)
    (now : ℤ) (order : ℕ) (before after : ScheduledStore) : Prop where
  current : before.observationCurrent dialogId message.id order = true
  rows : after.rows = before.rows.insert (dialogId, message.id)
    { upsertedRow message.body now (before.rows.lookup (dialogId, message.id)) with
      observationOrder := some order }
  fts : after.fts = before.fts.filter (·.1 ≠ (dialogId, message.id)) ++
    [((dialogId, message.id), stemText message.body.text)]
  evidence : after.evidence = before.evidence
  snapshotOrder : ∀ other, after.snapshotOrder other = before.snapshotOrder other

/-- An upsert is ignored or accepted. -/
theorem upsert_spec (stemText : Option String → String) (store : ScheduledStore) (dialogId : ℤ)
    (message : QueueMessage) (now : ℤ) (markDirty : Bool) (order : ℕ) :
    store.upsertScheduledMessage stemText dialogId message now markDirty order = store ∨
      Upserted stemText dialogId message now order store
        (store.upsertScheduledMessage stemText dialogId message now markDirty order) := by
  unfold upsertScheduledMessage
  split
  · exact Or.inl rfl
  · split
    · exact Or.inl rfl
    · rename_i hcurrent
      simp only
      split
      · exact Or.inl rfl
      · have hcurrent : store.observationCurrent dialogId message.id order = true := by
          simpa using hcurrent
        split
        · exact Or.inr ⟨hcurrent, rfl, rfl, rfl, fun other => markDialogDirty_snapshotOrder _ _ _ _⟩
        · exact Or.inr ⟨hcurrent, rfl, rfl, rfl, fun _ => rfl⟩

/-- The rows after the evidence of a publication was applied. -/
theorem lookup_reconcile (store : ScheduledStore) (dialogId publishedMessageId now : ℤ)
    (key : ℤ × ℤ) :
    (store.reconcilePublication dialogId publishedMessageId now).rows.lookup key =
      match store.evidence.lookup (dialogId, publishedMessageId) with
      | none => store.rows.lookup key
      | some evidence => (store.rows.lookup key).map fun row =>
        if awaits dialogId publishedMessageId key row then
          publishedRow publishedMessageId now evidence row
        else row := by
  unfold reconcilePublication
  cases hstored : store.evidence.lookup (dialogId, publishedMessageId) with
  | none => rfl
  | some evidence =>
    simp only
    split
    · rw [markDialogDirty_rows, Dictionary.lookup_mapValues]
    · rw [Dictionary.lookup_mapValues]

@[simp] theorem reconcile_evidence (store : ScheduledStore) (dialogId publishedMessageId now : ℤ) :
    (store.reconcilePublication dialogId publishedMessageId now).evidence = store.evidence := by
  unfold reconcilePublication
  split
  · rfl
  · simp only
    split <;> rfl

@[simp] theorem reconcile_snapshotOrder (store : ScheduledStore)
    (dialogId publishedMessageId now other : ℤ) :
    (store.reconcilePublication dialogId publishedMessageId now).snapshotOrder other =
      store.snapshotOrder other := by
  unfold reconcilePublication
  split
  · rfl
  · simp only
    split
    · rw [markDialogDirty_snapshotOrder]
      rfl
    · rfl

/-- The rows after one change. -/
theorem lookup_updateRow (store : ScheduledStore) (dialogId messageId : ℤ)
    (change : ScheduledRow → ScheduledRow) (key : ℤ × ℤ) :
    (store.updateRow dialogId messageId change).rows.lookup key =
      if key = (dialogId, messageId) then (store.rows.lookup key).map change
      else store.rows.lookup key := by
  rw [updateRow, Dictionary.lookup_modify]
  split_ifs with hkey
  · rw [hkey]
  · rfl

/-- The row under which a removal is recorded. -/
def removalBase (store : ScheduledStore) (dialogId messageId now : ℤ) (hint : Option ℤ) :
    ScheduledRow :=
  (store.rows.lookup (dialogId, messageId)).getD (tombstone now hint)

/-- The row of a message after its removal under a current observation. -/
def removedRow (store : ScheduledStore) (dialogId messageId : ℤ) (hint : Option ℤ) (now : ℤ)
    (order : ℕ) : ScheduledRow :=
  let base := store.removalBase dialogId messageId now hint
  match hint with
  | none => { cancelledRow now base with observationOrder := some order }
  | some hint =>
    match store.evidence.lookup (dialogId, hint) with
    | none => { hintedRow hint now base with observationOrder := some order }
    | some evidence =>
      { publishedRow hint now evidence (hintedRow hint now base) with
        observationOrder := some order }

theorem removalBase_state (now : ℤ) (hint : Option ℤ)
    (hcurrent : store.observationCurrent dialogId messageId order = true) :
    (store.removalBase dialogId messageId now hint).messageState ≠ .published := by
  rw [removalBase]
  cases hrow : store.rows.lookup (dialogId, messageId) with
  | none =>
    rw [Option.getD_none, tombstone]
    split <;> simp
  | some row => exact (observationCurrent_iff.mp hcurrent).1 row hrow

/-- The rows after one removal. -/
theorem lookup_removeOne {now : ℤ} {hint : Option ℤ}
    (hcurrent : store.observationCurrent dialogId messageId order = true) (key : ℤ × ℤ) :
    (store.removeOne dialogId messageId hint now order).rows.lookup key =
      if key = (dialogId, messageId) then
        some (store.removedRow dialogId messageId hint now order)
      else match hint.bind fun hint => (store.evidence.lookup (dialogId, hint)).map (hint, ·) with
        | none => store.rows.lookup key
        | some (hint, evidence) => (store.rows.lookup key).map fun row =>
          if awaits dialogId hint key row then publishedRow hint now evidence row else row := by
  have hbase := removalBase_state now hint hcurrent
  cases hint with
  | none =>
    simp only [removeOne, deleteFts, lookup_updateRow, Dictionary.lookup_setDefault]
    split_ifs with hkey
    · rfl
    · rfl
  | some hint =>
    simp only [removeOne, lookup_updateRow, lookup_reconcile, Dictionary.lookup_setDefault]
    have hevidence : ∀ change, (updateRow { store with
        rows := Dictionary.setDefault store.rows (dialogId, messageId) (tombstone now (some hint)) }
        dialogId messageId change).evidence = store.evidence := fun _ => rfl
    rw [hevidence]
    cases hstored : store.evidence.lookup (dialogId, hint) with
    | none =>
      simp only [Option.bind_some, hstored, Option.map_none]
      split_ifs with hkey
      · simp only [removedRow, hstored, removalBase, Option.map_some]
      · rfl
    | some evidence =>
      simp only [Option.bind_some, hstored, Option.map_some]
      split_ifs with hkey
      · have hwaits : awaits dialogId hint key
            (hintedRow hint now (store.removalBase dialogId messageId now (some hint))) = true := by
          rw [hintedRow, if_neg hbase]
          simp [awaits, hkey]
        simp only [removalBase] at hwaits
        simp only [removedRow, hstored, removalBase, Option.map_some, hwaits, if_true]
      · rfl

@[simp] theorem removeOne_evidence (store : ScheduledStore) (dialogId messageId : ℤ)
    (hint : Option ℤ) (now : ℤ) (order : ℕ) :
    (store.removeOne dialogId messageId hint now order).evidence = store.evidence := by
  cases hint with
  | none => rfl
  | some hint => exact reconcile_evidence _ _ _ _

@[simp] theorem removeOne_snapshotOrder (store : ScheduledStore) (dialogId messageId : ℤ)
    (hint : Option ℤ) (now : ℤ) (order : ℕ) (other : ℤ) :
    (store.removeOne dialogId messageId hint now order).snapshotOrder other =
      store.snapshotOrder other := by
  cases hint with
  | none => rfl
  | some hint => exact reconcile_snapshotOrder _ _ _ _ _

/-! ## Operations as single writes -/

/-- The messages of a removal with their hints: the hints run along and may be fewer. -/
def removalPairs : List ℤ → List ℤ → List (ℤ × Option ℤ)
  | [], _ => []
  | messageId :: messageIds, hints =>
    (messageId, hints.head?) :: removalPairs messageIds hints.tail

end ScheduledStore

namespace ScheduledOperation

open ScheduledStore

/-- The operation upserts a message of a dialog under an order. -/
def Upserts (operation : ScheduledOperation) (dialogId : ℤ) (message : QueueMessage)
    (order : ℕ) : Prop :=
  match operation with
  | .upsert dialogId' message' _ _ order' => dialogId' = dialogId ∧ message' = message ∧ order' = order
  | .snapshot _ dialogId' _ messages _ order' =>
    dialogId' = dialogId ∧ message ∈ messages ∧ order' = order
  | _ => False

/-- The operation removes a message of a dialog, with a hint or without, under an order. -/
def Removes (operation : ScheduledOperation) (dialogId messageId : ℤ) (hint : Option ℤ)
    (order : ℕ) : Prop :=
  match operation with
  | .removed dialogId' messageIds hints _ order' =>
    dialogId' = dialogId ∧ (messageId, hint) ∈ removalPairs messageIds hints ∧ order' = order
  | _ => False

/-- The operation marks messages of a dialog as missing under an order. -/
def Misses (operation : ScheduledOperation) (dialogId : ℤ) (order : ℕ) : Prop :=
  match operation with
  | .missing dialogId' _ _ order' => dialogId' = dialogId ∧ order' = order
  | .snapshot _ dialogId' _ _ _ order' => dialogId' = dialogId ∧ order' = order
  | _ => False

/-- The operation is a snapshot of a dialog under an order. -/
def Completes (operation : ScheduledOperation) (dialogId : ℤ) (order : ℕ) : Prop :=
  match operation with
  | .snapshot _ dialogId' _ _ _ order' => dialogId' = dialogId ∧ order' = order
  | _ => False

end ScheduledOperation

namespace ScheduledStore

variable {dialogId : ℤ} {order : ℕ} {snapshot : List QueueMessage}

/-- A single write of an operation. -/
inductive Write (stemText : Option String → String) (operation : ScheduledOperation)
    (store : ScheduledStore) : ScheduledStore → Prop where
  | upserted {after : ScheduledStore} (dialogId : ℤ) (message : QueueMessage) (now : ℤ) (order : ℕ)
      (hop : operation.Upserts dialogId message order)
      (h : Upserted stemText dialogId message now order store after) :
      Write stemText operation store after
  | removed (dialogId messageId : ℤ) (hint : Option ℤ) (now : ℤ) (order : ℕ)
      (hop : operation.Removes dialogId messageId hint order)
      (hcurrent : store.observationCurrent dialogId messageId order = true) :
      Write stemText operation store (store.removeOne dialogId messageId hint now order)
  | verified (dialogId publishedMessageId : ℤ) (publishedAt : Option ℤ) (now : ℤ)
      (hop : operation = .verify dialogId publishedMessageId publishedAt now) :
      Write stemText operation store
        (store.verifyPublication dialogId publishedMessageId publishedAt now)
  | missing (dialogId : ℤ) (messageIds : List ℤ) (now : ℤ) (order : ℕ)
      (hop : operation.Misses dialogId order) :
      Write stemText operation store (store.markMissing dialogId messageIds now order)
  | dirtied (dialogId now : ℤ) :
      Write stemText operation store (store.markDialogDirty dialogId now)
  | completed {after : ScheduledStore} (dialogId : ℤ) (order : ℕ)
      (hop : operation.Completes dialogId order) (hrows : after.rows = store.rows)
      (hfts : after.fts = store.fts) (hevidence : after.evidence = store.evidence)
      (horder : ∀ other, after.snapshotOrder other =
        if other = dialogId then order else store.snapshotOrder other) :
      Write stemText operation store after

/-- Writes one after the other. -/
def Writes (stemText : Option String → String) (operation : ScheduledOperation) :
    ScheduledStore → ScheduledStore → Prop :=
  Relation.ReflTransGen (Write stemText operation)

variable {stemText : Option String → String} {store : ScheduledStore}
  {operation : ScheduledOperation}

/-- The loop of the removals as writes. -/
theorem applyRemovals_writes (stemText : Option String → String) (now : ℤ)
    {messageIds hints : List ℤ}
    (hop : ∀ messageId hint, (messageId, hint) ∈ removalPairs messageIds hints →
      operation.Removes dialogId messageId hint order) (changed : Bool) (store : ScheduledStore) :
    Writes stemText operation store
      (applyRemovals dialogId now order (changed, store) messageIds hints).2 := by
  induction messageIds generalizing hints changed store with
  | nil => exact Relation.ReflTransGen.refl
  | cons messageId messageIds ih =>
    have hrest : ∀ other hint, (other, hint) ∈ removalPairs messageIds hints.tail →
        operation.Removes dialogId other hint order := fun other hint hmem =>
      hop other hint (List.mem_cons_of_mem _ hmem)
    rw [applyRemovals]
    split
    · rename_i hcurrent
      refine Relation.ReflTransGen.head ?_ (ih hrest true _)
      exact .removed dialogId messageId hints.head? now order
        (hop messageId hints.head? List.mem_cons_self) hcurrent
    · exact ih hrest changed store

/-- The loop of the upserts of a snapshot as writes. -/
theorem upsertSnapshotMessages_writes (stemText : Option String → String) (now : ℤ)
    (hop : ∀ message ∈ snapshot, operation.Upserts dialogId message order) (store : ScheduledStore) :
    Writes stemText operation store
      (store.upsertSnapshotMessages stemText dialogId snapshot now order) := by
  rw [upsertSnapshotMessages]
  induction snapshot generalizing store with
  | nil => exact Relation.ReflTransGen.refl
  | cons message snapshot ih =>
    rw [List.foldl_cons]
    have hrest := ih fun other hmem => hop other (List.mem_cons_of_mem _ hmem)
    split_ifs with hid
    · rcases upsert_spec stemText store dialogId message now false order with hsame | hupserted
      · rw [hsame]
        exact hrest store
      · refine Relation.ReflTransGen.head ?_ (hrest _)
        exact .upserted dialogId message now order (hop message List.mem_cons_self) hupserted
    · exact hrest store

/-- The upserts of a snapshot do not mark the dialog dirty. -/
theorem upsertSnapshotMessages_reconciliation (stemText : Option String → String)
    (store : ScheduledStore) (dialogId : ℤ) (snapshot : List QueueMessage) (now : ℤ) (order : ℕ) :
    (store.upsertSnapshotMessages stemText dialogId snapshot now order).reconciliation =
      store.reconciliation := by
  rw [upsertSnapshotMessages]
  induction snapshot generalizing store with
  | nil => rfl
  | cons message snapshot ih =>
    rw [List.foldl_cons, ih]
    split
    · unfold upsertScheduledMessage
      split
      · rfl
      · split
        · rfl
        · simp only
          split <;> rfl
    · rfl

/-- What an accepted snapshot does: its upserts, its missing marks, and the new state of the
dialog. -/
theorem applySnapshot_ok {reads : ScheduledReads} {now : ℤ} {generation : ℕ}
    {after : ScheduledStore}
    (h : store.applySnapshot stemText reads dialogId generation snapshot now order = some after) :
    ∃ upserted, upserted = store.upsertSnapshotMessages stemText dialogId snapshot now order ∧
      store.snapshotOrder dialogId < order ∧
      (∃ state, store.reconciliation.lookup dialogId = some state ∧
        state.dirtyGeneration = generation) ∧
      after.rows = (upserted.markMissing dialogId (store.missingScheduledIds dialogId
        (snapshotMessageIds snapshot)) now order).rows ∧
      after.fts = upserted.fts ∧ after.evidence = upserted.evidence ∧
      ∀ other, after.snapshotOrder other =
        if other = dialogId then order else store.snapshotOrder other := by
  unfold applySnapshot at h
  cases hstate : store.reconciliation.lookup dialogId with
  | none => simp [hstate] at h
  | some state =>
    rw [hstate] at h
    simp only at h
    split at h
    · cases h
    · rename_i haccepted
      push Not at haccepted
      obtain ⟨-, hgeneration, horder⟩ := haccepted
      obtain rfl := Option.some_inj.mp h
      refine ⟨_, rfl, ?_, ⟨state, rfl, hgeneration⟩, rfl, rfl, rfl, fun other => ?_⟩
      · rw [snapshotOrder, hstate]
        exact horder
      · have hreconciliation := upsertSnapshotMessages_reconciliation stemText store dialogId
          snapshot now order
        simp only [snapshotOrder, markMissing, hreconciliation, Dictionary.lookup_modify]
        split_ifs with hother
        · rw [hstate, Option.map_some, Option.bind_some, if_pos hgeneration]
          rfl
        · rfl

/-- Every operation is a list of single writes. -/
theorem perform_writes (stemText : Option String → String) (store : ScheduledStore)
    (operation : ScheduledOperation) :
    Writes stemText operation store (store.perform stemText operation) := by
  cases operation with
  | upsert dialogId message now markDirty order =>
    rcases upsert_spec stemText store dialogId message now markDirty order with hsame | hupserted
    · rw [perform, hsame]
      exact Relation.ReflTransGen.refl
    · exact Relation.ReflTransGen.single
        (.upserted dialogId message now order ⟨rfl, rfl, rfl⟩ hupserted)
  | removed dialogId messageIds sentMessageIds now order =>
    have hloop := applyRemovals_writes stemText now (fun messageId hint hmem =>
      show ScheduledOperation.Removes (.removed dialogId messageIds sentMessageIds now order)
        dialogId messageId hint order from ⟨rfl, hmem, rfl⟩) false store
    rw [perform, markRemoved]
    cases hremoved : applyRemovals dialogId now order (false, store) messageIds sentMessageIds with
    | mk changed after =>
      rw [hremoved] at hloop
      cases changed with
      | true => exact hloop.tail (.dirtied dialogId now)
      | false => exact hloop
  | verify dialogId publishedMessageId publishedAt now =>
    exact Relation.ReflTransGen.single (.verified dialogId publishedMessageId publishedAt now rfl)
  | missing dialogId messageIds now order =>
    exact Relation.ReflTransGen.single (.missing dialogId messageIds now order ⟨rfl, rfl⟩)
  | snapshot reads dialogId generation messages now order =>
    rw [perform]
    cases happly : store.applySnapshot stemText reads dialogId generation messages now order with
    | none => exact Relation.ReflTransGen.refl
    | some after =>
      obtain ⟨upserted, rfl, -, -, hrows, hfts, hevidence, horder⟩ := applySnapshot_ok happly
      have hupserts := upsertSnapshotMessages_writes stemText now
        (fun message hmem => show ScheduledOperation.Upserts
          (.snapshot reads dialogId generation messages now order) dialogId message order
          from ⟨rfl, hmem, rfl⟩) store
      refine (hupserts.tail (.missing dialogId _ now order ⟨rfl, rfl⟩)).tail
        (.completed dialogId order ⟨rfl, rfl⟩ hrows hfts hevidence fun other => ?_)
      rw [Option.getD_some, horder]
      split_ifs
      · rfl
      · rw [snapshotOrder, snapshotOrder, markMissing, upsertSnapshotMessages_reconciliation]

/-- What every single write keeps, the operation keeps. -/
theorem perform_invariant {I : ScheduledStore → Prop}
    (hwrite : ∀ {before after}, I before → Write stemText operation before after → I after)
    (hstore : I store) : I (store.perform stemText operation) := by
  have hwrites := perform_writes stemText store operation
  generalize store.perform stemText operation = after at hwrites
  induction hwrites with
  | refl => exact hstore
  | tail _ hlast ih => exact hwrite ih hlast

end ScheduledStore

end McpTelegram
