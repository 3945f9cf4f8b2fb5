import McpTelegram.Scheduled.Mirror

/-!
# The mutation fence

`scheduled_write_fence.py`: a permit watches one target of the queue, and every writer of the mirror
invalidates the permits of what it is about to change, in the transaction that changes it.  All
writers and all permits of a process belong to its verified account.
-/

namespace McpTelegram

open Foundations

/-- The target of a permit: a dialog, and a message of its queue or, for a new message, none. -/
abbrev PermitTarget := ℤ × Option ℤ

/-- What a call of the fence invalidates: `invalidate_message`, `invalidate_dialog` and
`invalidate_account`. -/
inductive PermitInvalidation
  | message (dialogId messageId : ℤ)
  | dialog (dialogId : ℤ)
  | account
  deriving DecidableEq

/-- The invalidation meets a permit of a target. -/
def PermitInvalidation.hits (target : PermitTarget) : PermitInvalidation → Bool
  | .message dialogId messageId => target = (dialogId, some messageId)
  | .dialog dialogId => target.1 = dialogId
  | .account => true

namespace ScheduledStore

variable (store : ScheduledStore)
variable {after : ScheduledStore} {publishedMessageId now rowDialog rowMessage : ℤ}

/-! ## The invalidations of the writers -/

/-- `_mark_scheduled_dialog_dirty`: a dialog whose coverage is missing or terminal. -/
def dirtyInvalidations (dialogId : ℤ) : List PermitInvalidation :=
  match store.reconciliation.lookup dialogId with
  | none => [.dialog dialogId]
  | some state =>
    if state.coverageState = .inaccessible ∨ state.coverageState = .unsupported then
      [.dialog dialogId]
    else []

/-- `upsert_scheduled_message` with a fence. -/
def upsertInvalidations (dialogId : ℤ) (message : QueueMessage) (markDirty : Bool) (order : ℕ) :
    List PermitInvalidation :=
  if message.effectiveDate = none ∨ ¬ store.observationCurrent dialogId message.id order then []
  else
    .message dialogId message.id :: if markDirty then store.dirtyInvalidations dialogId else []

/-- `_reconcile_scheduled_publication`: the rows that wait for the evidence. -/
def reconcileInvalidations (dialogId publishedMessageId : ℤ) : List PermitInvalidation :=
  if store.evidence.lookup (dialogId, publishedMessageId) = none then []
  else
    let waiting := (store.rows.entries.filter fun entry =>
      awaits dialogId publishedMessageId entry.1 entry.2).map (·.1.2)
    waiting.map (.message dialogId) ++
      if waiting = [] then [] else store.dirtyInvalidations dialogId

/-- `_apply_scheduled_removals`: each current message, and what its hint reconciles. -/
def removalInvalidations (dialogId now : ℤ) (order : ℕ) : ScheduledStore → List ℤ → List ℤ →
    List PermitInvalidation
  | _, [], _ => []
  | store, messageId :: messageIds, hints =>
    if store.observationCurrent dialogId messageId order then
      let hinted := match hints.head? with
        | none => []
        | some hint =>
          ({ store with
            rows := Dictionary.setDefault store.rows (dialogId, messageId)
              (tombstone now (some hint)) }.updateRow dialogId messageId
                (hintedRow hint now)).reconcileInvalidations dialogId hint
      .message dialogId messageId :: hinted ++
        removalInvalidations dialogId now order
          (store.removeOne dialogId messageId hints.head? now order) messageIds hints.tail
    else removalInvalidations dialogId now order store messageIds hints.tail

/-- `mark_missing_from_snapshot` with a fence. -/
def missingInvalidations (dialogId : ℤ) (messageIds : List ℤ) (order : ℕ) :
    List PermitInvalidation :=
  (messageIds.filter fun messageId => store.observationCurrent dialogId messageId order).map
    (.message dialogId)

/-- What an operation on the mirror invalidates.  A snapshot invalidates its dialog and passes no
fence on. -/
def invalidations (stemText : Option String → String) : ScheduledOperation →
    List PermitInvalidation
  | .upsert dialogId message _ markDirty order =>
    store.upsertInvalidations dialogId message markDirty order
  | .removed dialogId messageIds sentMessageIds now order =>
    let (changed, after) :=
      applyRemovals dialogId now order (false, store) messageIds sentMessageIds
    removalInvalidations dialogId now order store messageIds sentMessageIds ++
      if changed then after.dirtyInvalidations dialogId else []
  | .verify dialogId publishedMessageId publishedAt now =>
    let stored :=
      match store.evidence.lookup (dialogId, publishedMessageId) with
      | none => { publishedAt, verifiedAt := now }
      | some evidence => { evidence with publishedAt := evidence.publishedAt.or publishedAt }
    { store with evidence := store.evidence.insert (dialogId, publishedMessageId) stored
      }.reconcileInvalidations dialogId publishedMessageId
  | .missing dialogId messageIds _ order => store.missingInvalidations dialogId messageIds order
  | .snapshot reads dialogId generation messages now order =>
    if (store.applySnapshot stemText reads dialogId generation messages now order).isSome then
      [.dialog dialogId]
    else []

variable {store} {stemText : Option String → String} {dialogId messageId : ℤ} {order : ℕ}
  {key : ℤ × ℤ}

/-! ## No watched row changes silently -/

/-- The row is scheduled and was last observed under an order. -/
def ActiveAt (store : ScheduledStore) (key : ℤ × ℤ) (order : ℕ) : Prop :=
  ∃ row, store.rows.lookup key = some row ∧ row.messageState = .scheduled ∧
    row.observationOrder = some order

/-- A row that is looked up the same is as active as it was. -/
theorem ActiveAt.congr (h : ActiveAt store key order)
    (hsame : after.rows.lookup key = store.rows.lookup key) : ActiveAt after key order := by
  obtain ⟨row, hrow, hstate, horder⟩ := h
  exact ⟨row, hsame.trans hrow, hstate, horder⟩

theorem not_awaits_of_scheduled {row : ScheduledRow} (hstate : row.messageState = .scheduled) :
    awaits dialogId publishedMessageId key row = false := by
  simp [awaits, hstate]

/-- Evidence of a publication changes no scheduled row. -/
theorem ActiveAt.of_map {evidence : PublicationEvidence} (h : ActiveAt store key order)
    (hmap : after.rows.lookup key = (store.rows.lookup key).map fun row =>
      if awaits dialogId publishedMessageId key row then
        publishedRow publishedMessageId now evidence row
      else row) : ActiveAt after key order := by
  obtain ⟨row, hrow, hstate, horder⟩ := h
  refine ⟨row, ?_, hstate, horder⟩
  rw [hmap, hrow, Option.map_some, not_awaits_of_scheduled hstate, if_neg (by simp)]

/-- The loop of the removals changes an active row only after invalidating its permits. -/
theorem applyRemovals_active {removalOrder : ℕ} {messageIds hints : List ℤ} {changed : Bool}
    {store : ScheduledStore} (h : ActiveAt store (rowDialog, rowMessage) order) :
    ActiveAt (applyRemovals dialogId now removalOrder (changed, store) messageIds hints).2
        (rowDialog, rowMessage) order ∨
      ∃ invalidation ∈ removalInvalidations dialogId now removalOrder store messageIds hints,
        invalidation.hits (rowDialog, some rowMessage) = true := by
  induction messageIds generalizing hints changed store with
  | nil => exact Or.inl h
  | cons messageId messageIds ih =>
    rw [applyRemovals, removalInvalidations]
    split
    · rename_i hcurrent
      by_cases hkey : (rowDialog, rowMessage) = (dialogId, messageId)
      · obtain ⟨rfl, rfl⟩ := Prod.mk.inj hkey
        exact Or.inr ⟨.message rowDialog rowMessage, by simp, by simp [PermitInvalidation.hits]⟩
      · have hrest : ActiveAt (store.removeOne dialogId messageId hints.head? now removalOrder)
            (rowDialog, rowMessage) order := by
          rcases lookup_removeOne_ne hints.head? now hcurrent hkey with hsame |
            ⟨published, evidence, -, hlookup⟩
          · exact h.congr hsame
          · exact h.of_map hlookup
        refine (ih hrest).imp id ?_
        rintro ⟨invalidation, hmem, hhits⟩
        exact ⟨invalidation, List.mem_append_right _ hmem, hhits⟩
    · exact ih h

/-- An operation changes an active row only after invalidating its permits. -/
theorem perform_active {operation : ScheduledOperation}
    (h : ActiveAt store (rowDialog, rowMessage) order) :
    ActiveAt (store.perform stemText operation) (rowDialog, rowMessage) order ∨
      ∃ invalidation ∈ store.invalidations stemText operation,
        invalidation.hits (rowDialog, some rowMessage) = true := by
  cases operation with
  | upsert dialogId message now markDirty upsertOrder =>
    rw [perform, invalidations]
    by_cases hkey : (rowDialog, rowMessage) = (dialogId, message.id)
    · obtain ⟨rfl, rfl⟩ := Prod.mk.inj hkey
      by_cases hignored : message.effectiveDate = none ∨
          ¬ store.observationCurrent rowDialog message.id upsertOrder
      · refine Or.inl (h.congr ?_)
        unfold upsertScheduledMessage
        split
        · rfl
        · rw [if_pos (by simpa using hignored.resolve_left ‹_›)]
      · refine Or.inr ⟨.message rowDialog message.id, ?_, by simp [PermitInvalidation.hits]⟩
        rw [upsertInvalidations, if_neg hignored]
        exact List.mem_cons_self
    · refine Or.inl (h.congr ?_)
      rcases upsert_spec stemText store dialogId message now markDirty upsertOrder with hsame |
        hupserted
      · rw [hsame]
      · rw [hupserted.rows, AList.lookup_insert_ne hkey]
  | removed dialogId messageIds sentMessageIds now removalOrder =>
    rw [perform, markRemoved, invalidations]
    have hloop : ActiveAt (applyRemovals dialogId now removalOrder (false, store) messageIds
          sentMessageIds).2 (rowDialog, rowMessage) order ∨
        ∃ invalidation ∈ removalInvalidations dialogId now removalOrder store messageIds
          sentMessageIds, invalidation.hits (rowDialog, some rowMessage) = true :=
      applyRemovals_active h
    cases hremoved : applyRemovals dialogId now removalOrder (false, store) messageIds
      sentMessageIds with
    | mk changed after =>
      rw [hremoved] at hloop
      refine hloop.imp (fun hactive => ?_) ?_
      · dsimp only
        split
        · exact hactive.congr rfl
        · exact hactive
      · rintro ⟨invalidation, hmem, hhits⟩
        exact ⟨invalidation, List.mem_append_left _ hmem, hhits⟩
  | verify dialogId publishedMessageId publishedAt now =>
    obtain ⟨evidence, -, hlookup⟩ := lookup_verify store dialogId publishedMessageId publishedAt now
      (rowDialog, rowMessage)
    exact Or.inl (h.of_map hlookup)
  | missing dialogId messageIds now missingOrder =>
    rw [perform, invalidations]
    obtain ⟨row, hrow, hstate, horder⟩ := h
    by_cases hmarked : rowDialog = dialogId ∧ rowMessage ∈ messageIds.filter fun messageId =>
        store.observationCurrent dialogId messageId missingOrder
    · obtain ⟨rfl, hmem⟩ := hmarked
      exact Or.inr ⟨.message rowDialog rowMessage, List.mem_map_of_mem hmem,
        by simp [PermitInvalidation.hits]⟩
    · refine Or.inl ⟨row, ?_, hstate, horder⟩
      rw [markMissing, Dictionary.lookup_mapValues, hrow, Option.map_some, if_neg]
      exact fun hmeets => hmarked ⟨hmeets.1, hmeets.2.2⟩
  | snapshot reads dialogId generation messages now snapshotOrder =>
    rw [perform, invalidations]
    cases happly : store.applySnapshot stemText reads dialogId generation messages now
      snapshotOrder with
    | none => exact Or.inl h
    | some after =>
      by_cases hdialog : rowDialog = dialogId
      · exact Or.inr ⟨.dialog dialogId, by simp, by simp [PermitInvalidation.hits, hdialog]⟩
      · obtain ⟨upserted, rfl, -, -, hrows, -⟩ := applySnapshot_ok happly
        refine Or.inl (h.congr ?_)
        rw [Option.getD_some, hrows, markMissing, Dictionary.lookup_mapValues,
          lookup_upsertSnapshotMessages (Or.inl hdialog)]
        cases store.rows.lookup (rowDialog, rowMessage) with
        | none => rfl
        | some row => rw [Option.map_some, if_neg fun hmeets => hdialog hmeets.1]

end ScheduledStore

end McpTelegram
