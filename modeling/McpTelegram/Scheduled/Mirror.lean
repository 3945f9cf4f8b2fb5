import McpTelegram.Scheduled.Publication

/-!
# The full-text rows of the mirror

A row with a body is searchable while its message may still be in the queue.  The one removal that
breaks this is a publication hint for a cancelled row: the row is pending again, and its full-text
row, deleted by the cancellation, is not written back.
-/

namespace McpTelegram

open Foundations

/-- The message may still be in the queue. -/
def ScheduledRow.pending (row : ScheduledRow) : Bool :=
  row.messageState = .scheduled || row.messageState = .unknownMissing

namespace ScheduledStore

variable {stemText : Option String → String} {store after : ScheduledStore}
  {operation : ScheduledOperation} {key : ℤ × ℤ} {row : ScheduledRow}

variable {messageId hint dialogId now : ℤ} {order generation : ℕ} {messageIds hints : List ℤ}
    {snapshot : List QueueMessage}

/-- The full-text rows of a message. -/
def ftsOf (store : ScheduledStore) (key : ℤ × ℤ) : List ((ℤ × ℤ) × String) :=
  store.fts.filter (·.1 = key)

/-- The full-text rows that a message should have. -/
def expectedFts (stemText : Option String → String) (key : ℤ × ℤ) (row : Option ScheduledRow) :
    List ((ℤ × ℤ) × String) :=
  match row.bind fun row => if row.pending then row.body else none with
  | some body => [(key, stemText body.text)]
  | none => []

/-- The full-text rows of a message are those that it should have. -/
def MirroredAt (stemText : Option String → String) (store : ScheduledStore) (key : ℤ × ℤ) : Prop :=
  store.ftsOf key = expectedFts stemText key (store.rows.lookup key)

/-- A row that is not pending has no full-text row. -/
theorem expectedFts_of_not_pending (h : row.pending = false) :
    expectedFts stemText key (some row) = [] := by
  rw [expectedFts, Option.bind_some, h]
  rfl

/-- The expectation depends on the body and on whether the row is pending. -/
theorem expectedFts_congr {other : ScheduledRow} (hbody : other.body = row.body)
    (hpending : other.pending = row.pending) :
    expectedFts stemText key (some other) = expectedFts stemText key (some row) := by
  rw [expectedFts, expectedFts, Option.bind_some, Option.bind_some, hbody, hpending]

theorem filter_other (entries : List ((ℤ × ℤ) × String)) (written key : ℤ × ℤ) :
    (entries.filter (·.1 ≠ written)).filter (·.1 = key) =
      if key = written then [] else entries.filter (·.1 = key) := by
  rw [List.filter_filter]
  split_ifs with hkey
  · rw [hkey, List.filter_eq_nil_iff]
    intro entry _ hentry
    simp at hentry
  · refine List.filter_congr fun entry _ => ?_
    by_cases hentry : entry.1 = key
    · simp [hentry, hkey]
    · simp [hentry]

/-- Evidence that is applied keeps a message mirrored, and it mirrors a row that waits for it. -/
theorem mirroredAt_reconcile (store : ScheduledStore) (dialogId publishedMessageId now : ℤ)
    (key : ℤ × ℤ) (h : MirroredAt stemText store key ∨
      store.evidence.lookup (dialogId, publishedMessageId) ≠ none ∧
        (store.rows.lookup key).any (awaits dialogId publishedMessageId key) = true) :
    MirroredAt stemText (store.reconcilePublication dialogId publishedMessageId now) key := by
  cases hevidence : store.evidence.lookup (dialogId, publishedMessageId) with
  | none =>
    have hsame : store.reconcilePublication dialogId publishedMessageId now = store := by
      rw [reconcilePublication, hevidence]
    rw [hsame]
    rcases h with h | ⟨h, -⟩
    · exact h
    · exact absurd hevidence h
  | some evidence =>
    have hfts : (store.reconcilePublication dialogId publishedMessageId now).ftsOf key =
        if (store.rows.lookup key).any (awaits dialogId publishedMessageId key) then []
        else store.ftsOf key := by
      rw [ftsOf, reconcilePublication, hevidence]
      simp only
      have hfilter : (store.fts.filter fun entry =>
          !(store.rows.lookup entry.1).any (awaits dialogId publishedMessageId entry.1)).filter
            (·.1 = key) =
          if (store.rows.lookup key).any (awaits dialogId publishedMessageId key) then []
          else store.ftsOf key := by
        rw [List.filter_filter]
        split_ifs with hwaits
        · rw [List.filter_eq_nil_iff]
          intro entry _ hentry
          simp only [Bool.and_eq_true, decide_eq_true_eq] at hentry
          rw [hentry.1, hwaits] at hentry
          simp at hentry
        · refine List.filter_congr fun entry _ => ?_
          by_cases hentry : entry.1 = key
          · rw [hentry]
            simp [Bool.not_eq_true _ ▸ hwaits]
          · simp [hentry]
      split
      · exact hfilter
      · exact hfilter
    rw [MirroredAt, hfts, lookup_reconcile, hevidence]
    cases hrow : store.rows.lookup key with
    | none =>
      rcases h with h | ⟨-, h⟩
      · rw [MirroredAt, hrow] at h
        simpa using h
      · rw [hrow] at h
        cases h
    | some row =>
      simp only [Option.any_some, Option.map_some]
      split_ifs with hwaits
      · exact (expectedFts_of_not_pending rfl).symm
      · rcases h with h | ⟨-, h⟩
        · rw [MirroredAt, hrow] at h
          exact h
        · rw [hrow, Option.any_some] at h
          exact absurd h hwaits

/-- A write that removes nothing keeps every message mirrored. -/
theorem Write.mirrored
    (hremoves : ∀ dialogId messageId hint order, ¬operation.Removes dialogId messageId hint order)
    (h : ∀ key, MirroredAt stemText store key) (hwrite : Write stemText operation store after)
    (key : ℤ × ℤ) : MirroredAt stemText after key := by
  cases hwrite with
  | upserted dialogId message now order hop hupserted =>
    rw [MirroredAt, ftsOf, hupserted.fts, hupserted.rows, List.filter_append, filter_other,
      Dictionary.lookup_insert_eq]
    split_ifs with hkey
    · simp [hkey, expectedFts, upsertedRow, ScheduledRow.pending]
    · have hne : (dialogId, message.id) ≠ key := fun heq => hkey heq.symm
      have hbefore := h key
      rw [MirroredAt, ftsOf] at hbefore
      simpa [hne] using hbefore
  | removed dialogId messageId hint now order hop hcurrent =>
    exact absurd hop (hremoves dialogId messageId hint order)
  | verified dialogId publishedMessageId publishedAt now hop =>
    exact mirroredAt_reconcile _ _ _ _ _ (Or.inl (h key))
  | missing dialogId messageIds now order hop =>
    rw [MirroredAt, markMissing, Dictionary.lookup_mapValues]
    refine (h key).trans ?_
    cases hrow : store.rows.lookup key with
    | none => rfl
    | some row =>
      rw [Option.map_some]
      split_ifs with hmarked
      · refine expectedFts_congr rfl ?_
        simp [ScheduledRow.pending, missingRow, hmarked.2.1]
      · rfl
  | dirtied dialogId now => exact h key
  | completed dialogId order hop hrows hfts hevidence horder =>
    rw [MirroredAt, ftsOf, hfts, hrows]
    exact h key

/-! ## Removals -/

/-- A hint for a cancelled row with a body comes after the evidence of the hinted message. -/
def HintsFit (store : ScheduledStore) (dialogId : ℤ) (messageIds hints : List ℤ)
    (order : ℕ) : Prop :=
  ∀ messageId hint, (messageId, some hint) ∈ removalPairs messageIds hints →
    ∀ row, store.rows.lookup (dialogId, messageId) = some row → row.messageState = .cancelled →
    row.body ≠ none → store.observationCurrent dialogId messageId order = true →
    store.evidence.lookup (dialogId, hint) ≠ none

theorem not_mem_removalPairs_nil (messageIds : List ℤ) :
    (messageId, some hint) ∉ removalPairs messageIds [] := by
  induction messageIds with
  | nil => exact List.not_mem_nil
  | cons other messageIds ih =>
    rw [removalPairs, List.mem_cons]
    rintro (heq | hmem)
    · simp at heq
    · exact ih hmem

/-- A removal that fits keeps every message mirrored. -/
theorem removeOne_mirrored {hint : Option ℤ}
    (hcurrent : store.observationCurrent dialogId messageId order = true)
    (hfits : ∀ hint', hint = some hint' → ∀ row,
      store.rows.lookup (dialogId, messageId) = some row → row.messageState = .cancelled →
      row.body ≠ none → store.evidence.lookup (dialogId, hint') ≠ none)
    (h : ∀ key, MirroredAt stemText store key) (key : ℤ × ℤ) :
    MirroredAt stemText (store.removeOne dialogId messageId hint now order) key := by
  have hbase := removalBase_state now hint hcurrent
  cases hint with
  | none =>
    rw [MirroredAt, lookup_removeOne hcurrent]
    have hfts : (store.removeOne dialogId messageId none now order).ftsOf key =
        if key = (dialogId, messageId) then [] else store.ftsOf key :=
      filter_other store.fts (dialogId, messageId) key
    rw [hfts]
    split_ifs with hkey
    · refine (expectedFts_of_not_pending ?_).symm
      rw [removedRow, cancelledRow, if_neg hbase]
      rfl
    · exact h key
  | some hint =>
    -- The store between the two updates of the row.
    let hinted := updateRow { store with
        rows := Dictionary.setDefault store.rows (dialogId, messageId) (tombstone now (some hint)) }
      dialogId messageId (hintedRow hint now)
    have hlookup : ∀ other, hinted.rows.lookup other =
        if other = (dialogId, messageId) then
          some (hintedRow hint now (store.removalBase dialogId messageId now (some hint)))
        else store.rows.lookup other := by
      intro other
      simp only [hinted, lookup_updateRow, Dictionary.lookup_setDefault]
      split_ifs <;> rfl
    have hbetween : MirroredAt stemText (hinted.reconcilePublication dialogId hint now) key := by
      refine mirroredAt_reconcile _ _ _ _ _ ?_
      by_cases hkey : key = (dialogId, messageId)
      · have hhinted : hintedRow hint now (store.removalBase dialogId messageId now (some hint)) =
            { store.removalBase dialogId messageId now (some hint) with
              messageState := .unknownMissing, unpublished := true, unseen := true
              publicationHintMessageId := some hint, deletedAt := none, updatedAt := now } :=
          if_neg hbase
        cases hevidence : store.evidence.lookup (dialogId, hint) with
        | some evidence =>
          refine Or.inr ⟨?_, ?_⟩
          · show store.evidence.lookup (dialogId, hint) ≠ none
            rw [hevidence]
            exact Option.some_ne_none evidence
          · rw [hlookup, if_pos hkey, Option.any_some, hhinted]
            exact awaits_iff.mpr ⟨by rw [hkey], rfl, rfl⟩
        | none =>
          left
          have hstored := h key
          rw [MirroredAt] at hstored ⊢
          refine hstored.trans ?_
          rw [hlookup, if_pos hkey, hkey, hhinted, removalBase]
          cases hrow : store.rows.lookup (dialogId, messageId) with
          | none => rfl
          | some row =>
            rw [Option.getD_some]
            by_cases hbody : row.body = none
            · simp [expectedFts, hbody]
            · refine expectedFts_congr rfl ?_
              have hnotPublished := (observationCurrent_iff.mp hcurrent).1 row hrow
              cases hstate : row.messageState with
              | scheduled => simp [ScheduledRow.pending, hstate]
              | unknownMissing => simp [ScheduledRow.pending, hstate]
              | cancelled => exact absurd hevidence (hfits hint rfl row hrow hstate hbody)
              | published => exact absurd hstate hnotPublished
      · left
        rw [MirroredAt, hlookup, if_neg hkey]
        exact h key
    have hafter : store.removeOne dialogId messageId (some hint) now order =
        (hinted.reconcilePublication dialogId hint now).updateRow dialogId messageId
          fun row => { row with observationOrder := some order } := rfl
    rw [hafter, MirroredAt, lookup_updateRow]
    refine hbetween.trans ?_
    split_ifs with hkey
    · cases (hinted.reconcilePublication dialogId hint now).rows.lookup key with
      | none => rfl
      | some row => exact expectedFts_congr rfl rfl
    · rfl

/-- After a hinted removal the rest of the update still fits: the rows that are cancelled now were
cancelled before. -/
theorem HintsFit.tail (hcurrent : store.observationCurrent dialogId messageId order = true)
    (h : HintsFit store dialogId (messageId :: messageIds) (hint :: hints) order) :
    HintsFit (store.removeOne dialogId messageId (some hint) now order) dialogId messageIds hints
      order := by
  intro other hint' hmem row hrow hstate hbody hcurrent'
  rw [removeOne_evidence]
  have hsame : store.rows.lookup (dialogId, other) = some row := by
    rw [lookup_removeOne hcurrent] at hrow
    split_ifs at hrow with hkey
    · obtain rfl := Option.some_inj.mp hrow
      have hbase := removalBase_state now (some hint) hcurrent
      rw [removedRow] at hstate
      simp only [hintedRow, if_neg hbase] at hstate
      split at hstate <;> cases hstate
    · split at hrow
      · exact hrow
      · rw [Option.map_eq_some_iff] at hrow
        obtain ⟨before, hbefore, rfl⟩ := hrow
        split_ifs at hstate ⊢
        · cases hstate
        · exact hbefore
  refine h other hint' (List.mem_cons_of_mem _ hmem) row hsame hstate hbody ?_
  rw [observationCurrent_iff] at hcurrent' ⊢
  rw [removeOne_snapshotOrder, rowOrder, hrow] at hcurrent'
  rw [rowOrder, hsame]
  refine ⟨fun found hfound => ?_, hcurrent'.2⟩
  obtain rfl := Option.some_inj.mp hfound
  rw [hstate]
  simp

/-- The loop of the removals keeps every message mirrored. -/
theorem applyRemovals_mirrored (changed : Bool)
    (hfits : HintsFit store dialogId messageIds hints order)
    (h : ∀ key, MirroredAt stemText store key) (key : ℤ × ℤ) :
    MirroredAt stemText (applyRemovals dialogId now order (changed, store) messageIds hints).2
      key := by
  induction messageIds generalizing hints changed store with
  | nil => exact h key
  | cons messageId messageIds ih =>
    rw [applyRemovals]
    split
    · rename_i hcurrent
      cases hints with
      | nil =>
        refine ih true (fun other hint hmem => absurd hmem (not_mem_removalPairs_nil _)) ?_
        exact removeOne_mirrored hcurrent (fun hint' hnone => by cases hnone) h
      | cons hint hints =>
        refine ih true (HintsFit.tail hcurrent hfits) ?_
        refine removeOne_mirrored hcurrent ?_ h
        rintro hint' ⟨⟩ row hrow hstate hbody
        exact hfits messageId hint List.mem_cons_self row hrow hstate hbody hcurrent
    · exact ih changed
        (fun other hint hmem => hfits other hint (List.mem_cons_of_mem _ hmem)) h

/-- The condition on an operation: its hints fit. -/
def OperationFits (store : ScheduledStore) : ScheduledOperation → Prop
  | .removed dialogId messageIds hints _ order => HintsFit store dialogId messageIds hints order
  | _ => True

/-- An operation that removes nothing keeps every message mirrored. -/
theorem perform_mirrored_of_not_removes
    (hremoves : ∀ dialogId messageId hint order, ¬operation.Removes dialogId messageId hint order)
    (h : ∀ key, MirroredAt stemText store key) :
    ∀ key, MirroredAt stemText (store.perform stemText operation) key :=
  perform_invariant (I := fun other => ∀ key, MirroredAt stemText other key)
    (fun hbefore hwrite => hwrite.mirrored hremoves hbefore) h

/-- An operation that fits keeps every message mirrored. -/
theorem perform_mirrored (hfits : OperationFits store operation)
    (h : ∀ key, MirroredAt stemText store key) (key : ℤ × ℤ) :
    MirroredAt stemText (store.perform stemText operation) key := by
  cases operation with
  | removed dialogId messageIds hints now order =>
    have hloop := @applyRemovals_mirrored stemText store dialogId now order messageIds hints false
      hfits h key
    rw [perform, markRemoved]
    cases happlied : applyRemovals dialogId now order (false, store) messageIds hints with
    | mk changed last =>
      rw [happlied] at hloop
      cases changed with
      | true => exact hloop
      | false => exact hloop
  | upsert | verify | missing | snapshot =>
    refine perform_mirrored_of_not_removes ?_ h key
    exact fun _ _ _ _ hop => hop

/-! ## Snapshots -/

/-- A message that a snapshot does not list keeps its row while the listed ones are upserted. -/
theorem lookup_upsertSnapshotMessages (h : key.1 ≠ dialogId ∨ key.2 ∉ snapshotMessageIds snapshot)
    (store : ScheduledStore) :
    (store.upsertSnapshotMessages stemText dialogId snapshot now order).rows.lookup key =
      store.rows.lookup key := by
  rw [upsertSnapshotMessages]
  induction snapshot generalizing store with
  | nil => rfl
  | cons message snapshot ih =>
    rw [List.foldl_cons]
    have hrest : key.1 ≠ dialogId ∨ key.2 ∉ snapshotMessageIds snapshot := by
      refine h.imp_right fun hnot hmem => hnot ?_
      rw [snapshotMessageIds, List.mem_filter] at hmem ⊢
      exact ⟨List.mem_cons_of_mem _ hmem.1, hmem.2⟩
    rw [ih hrest]
    split_ifs with hid
    · rcases upsert_spec stemText store dialogId message now false order with hsame | hupserted
      · rw [hsame]
      · rw [hupserted.rows, AList.lookup_insert_ne]
        rintro rfl
        rcases h with hdialog | hnot
        · exact hdialog rfl
        · refine hnot ?_
          rw [snapshotMessageIds, List.mem_filter]
          exact ⟨List.mem_cons_self, by simpa using hid⟩
    · rfl

/-- After an accepted snapshot a scheduled row of its dialog is in the snapshot, or its observation
is not older. -/
theorem applySnapshot_scheduled {reads : ScheduledReads}
    (h : store.applySnapshot stemText reads dialogId generation snapshot now order = some after)
    (hdialog : key.1 = dialogId) (hrow : after.rows.lookup key = some row)
    (hscheduled : row.messageState = .scheduled) :
    key.2 ∈ snapshotMessageIds snapshot ∨
      store.rows.lookup key = some row ∧ order ≤ row.observationOrder.getD 0 := by
  obtain ⟨upserted, rfl, hsnapshot, -, hrows, -, -, -⟩ := applySnapshot_ok h
  by_cases hlisted : key.2 ∈ snapshotMessageIds snapshot
  · exact Or.inl hlisted
  right
  have hkept := @lookup_upsertSnapshotMessages stemText key dialogId now order snapshot
    (Or.inr hlisted) store
  rw [hrows, markMissing, Dictionary.lookup_mapValues, hkept, Option.map_eq_some_iff] at hrow
  obtain ⟨before, hbefore, hmarked⟩ := hrow
  split_ifs at hmarked with hmissing
  · rw [← hmarked] at hscheduled
    cases hscheduled
  · subst hmarked
    refine ⟨hbefore, ?_⟩
    have hkey : key = (dialogId, key.2) := Prod.ext hdialog rfl
    have hmember : key.2 ∈ store.missingScheduledIds dialogId (snapshotMessageIds snapshot) := by
      rw [missingScheduledIds, List.mem_map]
      refine ⟨⟨key, before⟩, List.mem_filter.mpr ⟨Dictionary.mem_entries_iff.mpr hbefore, ?_⟩, rfl⟩
      simp [hdialog, hscheduled, hlisted]
    by_contra hlt
    refine hmissing ⟨hdialog, hscheduled, List.mem_filter.mpr ⟨hmember, ?_⟩⟩
    rw [observationCurrent_iff, ← hkey, rowOrder, ← hkey, hkept, hbefore]
    refine ⟨fun found hfound => ?_, by simpa using hlt, ?_⟩
    · obtain rfl := Option.some_inj.mp hfound
      rw [hscheduled]
      simp
    · rw [snapshotOrder, upsertSnapshotMessages_reconciliation]
      exact hsnapshot

/-- An outdated snapshot is not applied. -/
theorem applySnapshot_outdated (reads : ScheduledReads) (snapshot : List QueueMessage) (now : ℤ)
    (h : ∀ state, store.reconciliation.lookup dialogId = some state →
      state.dirtyGeneration ≠ generation ∨ order ≤ state.snapshotObservationOrder.getD 0) :
    store.applySnapshot stemText reads dialogId generation snapshot now order = none := by
  rw [applySnapshot]
  cases hstate : store.reconciliation.lookup dialogId with
  | none => rfl
  | some state => exact if_pos (Or.inr (h state hstate))

end ScheduledStore

/-! ## Runs -/

/-- The order of an operation, if it has one. -/
def ScheduledOperation.order? : ScheduledOperation → Option ℕ
  | .upsert _ _ _ _ order | .removed _ _ _ _ order | .missing _ _ _ order
  | .snapshot _ _ _ _ _ order => some order
  | .verify _ _ _ _ => none

/-- The order of a snapshot. -/
def ScheduledOperation.snapshotOrder? : ScheduledOperation → Option ℕ
  | .snapshot _ _ _ _ _ order => some order
  | _ => none

/-- The mirror, and the orders of the observations so far. -/
structure ScheduledWorld where
  store : ScheduledStore := {}
  used : List ℕ := []

namespace ScheduledWorld

open ScheduledStore

/-- One step.  The order of a snapshot was allocated for it alone; an update may be delivered more
than once. -/
def step (stemText : Option String → String) (world : ScheduledWorld)
    (operation : ScheduledOperation) : Option ScheduledWorld :=
  if operation.snapshotOrder?.any (· ∈ world.used) then none
  else some
    { store := world.store.perform stemText operation
      used := operation.order?.toList ++ world.used }

/-- The orders in the store are orders of observations. -/
def OrdersUsed (used : List ℕ) (store : ScheduledStore) : Prop :=
  ∀ key row, store.rows.lookup key = some row → ∀ order ∈ row.observationOrder, order ∈ used

theorem ordersUsed_write {stemText : Option String → String} {operation : ScheduledOperation}
    {store after : ScheduledStore} {used : List ℕ}
    (hoperation : ∀ order ∈ operation.order?, order ∈ used) (h : OrdersUsed used store)
    (hwrite : Write stemText operation store after) : OrdersUsed used after := by
  intro key row hrow
  have hpublished : ∀ {dialogId published now : ℤ} {evidence : PublicationEvidence},
      (store.rows.lookup key).map (fun row => if awaits dialogId published key row then
        publishedRow published now evidence row else row) = some row →
      ∀ order ∈ row.observationOrder, order ∈ used := by
    intro dialogId published now evidence hmap
    obtain ⟨before, hbefore, rfl⟩ := Option.map_eq_some_iff.mp hmap
    split_ifs
    · exact h key before hbefore
    · exact h key before hbefore
  cases hwrite with
  | upserted dialogId message now order hop hupserted =>
    rw [hupserted.rows, Dictionary.lookup_insert_eq] at hrow
    split_ifs at hrow with hkey
    · obtain rfl := Option.some_inj.mp hrow
      rintro _ ⟨⟩
      refine hoperation order ?_
      cases operation with
      | upsert => exact hop.2.2 ▸ rfl
      | snapshot => exact hop.2.2 ▸ rfl
      | removed => exact False.elim hop
      | verify => exact False.elim hop
      | missing => exact False.elim hop
    · exact h key row hrow
  | removed dialogId messageId hint now order hop hcurrent =>
    rw [lookup_removeOne hcurrent] at hrow
    split_ifs at hrow with hkey
    · obtain rfl := Option.some_inj.mp hrow
      have horder : (store.removedRow dialogId messageId hint now order).observationOrder =
          some order := by
        cases hint with
        | none => rfl
        | some hint =>
          rw [removedRow]
          split <;> rfl
      rw [horder]
      rintro _ ⟨⟩
      refine hoperation order ?_
      cases operation with
      | removed => exact hop.2.2 ▸ rfl
      | upsert => exact False.elim hop
      | snapshot => exact False.elim hop
      | verify => exact False.elim hop
      | missing => exact False.elim hop
    · split at hrow
      · exact h key row hrow
      · exact hpublished hrow
  | verified dialogId published publishedAt now hop =>
    obtain ⟨evidence, -, hlookup⟩ := lookup_verify store dialogId published publishedAt now key
    rw [hlookup] at hrow
    exact hpublished hrow
  | missing dialogId messageIds now order hop =>
    rw [markMissing, Dictionary.lookup_mapValues, Option.map_eq_some_iff] at hrow
    obtain ⟨before, hbefore, rfl⟩ := hrow
    split_ifs
    · rintro _ ⟨⟩
      refine hoperation order ?_
      cases operation with
      | missing => exact hop.2 ▸ rfl
      | snapshot => exact hop.2 ▸ rfl
      | upsert => exact False.elim hop
      | removed => exact False.elim hop
      | verify => exact False.elim hop
    · exact h key before hbefore
  | dirtied dialogId now => exact h key row hrow
  | completed dialogId order hop hrows hfts hevidence horder =>
    rw [hrows] at hrow
    exact h key row hrow

variable {stemText : Option String → String} {world world' : ScheduledWorld}
  {operation : ScheduledOperation} {operations : List ScheduledOperation}

theorem step_eq_some (h : step stemText world operation = some world') :
    world'.store = world.store.perform stemText operation ∧
      world'.used = operation.order?.toList ++ world.used := by
  rw [step] at h
  split_ifs at h
  obtain rfl := Option.some_inj.mp h
  exact ⟨rfl, rfl⟩

/-- Every run keeps the orders of its store among the orders that it used. -/
theorem ordersUsed_step (h : OrdersUsed world.used world.store)
    (hstep : step stemText world operation = some world') :
    OrdersUsed world'.used world'.store := by
  obtain ⟨hstore, hused⟩ := step_eq_some hstep
  rw [hstore, hused]
  refine perform_invariant (ordersUsed_write fun order horder => ?_) ?_
  · exact List.mem_append_left _ (Option.mem_toList.mpr horder)
  · exact fun key row hrow order horder => List.mem_append_right _ (h key row hrow order horder)

/-- The mirror over whole runs from the empty store.  Where every hint for a cancelled row with a body
comes after the evidence of the hinted message, each row with a body has exactly one full-text row,
of its stemmed text, while it is scheduled or missing, and none once it is cancelled or published.
After every accepted snapshot a scheduled row of the dialog is listed or has a higher order, and an
outdated snapshot changes nothing. -/
theorem mirror_invariant (stemText : Option String → String)
    (h : run (step stemText) {} operations = some world) :
    (Along (step stemText) (fun world operation => OperationFits world.store operation) {}
        operations →
      ∀ key row body, world.store.rows.lookup key = some row → row.body = some body →
        ((row.messageState = .scheduled ∨ row.messageState = .unknownMissing) →
          world.store.ftsOf key = [(key, stemText body.text)]) ∧
        ((row.messageState = .cancelled ∨ row.messageState = .published) →
          world.store.ftsOf key = [])) ∧
    (∀ reads dialogId generation snapshot now order after,
      order ∉ world.used →
      world.store.applySnapshot stemText reads dialogId generation snapshot now order = some after →
      ∀ key row, key.1 = dialogId → after.rows.lookup key = some row →
        row.messageState = .scheduled → key.2 ∈ snapshotMessageIds snapshot ∨
          ∃ order', row.observationOrder = some order' ∧ order < order') ∧
    ∀ reads dialogId generation snapshot now order,
      (∀ state, world.store.reconciliation.lookup dialogId = some state →
        state.dirtyGeneration ≠ generation ∨ order ≤ state.snapshotObservationOrder.getD 0) →
      world.store.perform stemText (.snapshot reads dialogId generation snapshot now order) =
        world.store := by
  refine ⟨?_, ?_, ?_⟩
  · intro hfits key row body hrow hbody
    have hmirrored : ∀ key, MirroredAt stemText world.store key := by
      refine run_along (I := fun world => ∀ key, MirroredAt stemText world.store key) ?_ ?_ hfits h
      · intro before operation after hbefore hfits hstep key
        rw [(step_eq_some hstep).1]
        exact perform_mirrored hfits hbefore key
      · exact fun _ => rfl
    have hstored := hmirrored key
    rw [MirroredAt, hrow] at hstored
    constructor
    · intro hstate
      rw [hstored, expectedFts, Option.bind_some, ScheduledRow.pending]
      rcases hstate with hstate | hstate <;> simp [hstate, hbody]
    · intro hstate
      rw [hstored, expectedFts_of_not_pending]
      rcases hstate with hstate | hstate <;> simp [ScheduledRow.pending, hstate]
  · intro reads dialogId generation snapshot now order after hfresh happly key row hdialog hrow
      hscheduled
    refine (applySnapshot_scheduled happly hdialog hrow hscheduled).imp_right ?_
    rintro ⟨hbefore, hle⟩
    have hused : OrdersUsed world.used world.store :=
      run_invariant (I := fun world => OrdersUsed world.used world.store)
        (fun _ _ _ hbefore hstep => ordersUsed_step hbefore hstep)
        (fun _ _ hrow => by cases hrow) h
    obtain ⟨-, -, hsnapshot, -⟩ := applySnapshot_ok happly
    cases horder : row.observationOrder with
    | none =>
      rw [horder, Option.getD_none] at hle
      omega
    | some order' =>
      refine ⟨order', rfl, ?_⟩
      rw [horder, Option.getD_some] at hle
      refine lt_of_le_of_ne hle ?_
      rintro rfl
      exact hfresh (hused key row hbefore order horder)
  · intro reads dialogId generation snapshot now order houtdated
    rw [perform, applySnapshot_outdated reads snapshot now houtdated, Option.getD_none]

/-- A cancelled message is removed once more, now with a hint. -/
def hintAfterCancellation : List ScheduledOperation :=
  [sampleUpsert, .removed 42 [11] [] 110 2, .removed 42 [11] [901] 120 3]

/-- The row is pending again, but it has no full-text row. -/
theorem hinted_row_not_searchable :
    (run (step fun text => text.getD "") {} hintAfterCancellation).map (fun world =>
      ((world.store.rows.lookup (42, 11)).map fun row => (row.messageState, row.body.isSome),
        world.store.ftsOf (42, 11))) = some (some (.unknownMissing, true), []) := by
  decide +kernel

theorem mirror_invariant_sample :
    ∃ world, run (step fun text => text.getD "") {} [sampleUpsert, sampleRemoval] = some world ∧
      world.store.ftsOf (42, 11) = [((42, 11), "draft")] := by
  have hrun : ∃ world, run (step fun text => text.getD "") {} [sampleUpsert, sampleRemoval] =
      some world := Option.isSome_iff_exists.mp (by decide +kernel)
  obtain ⟨world, hworld⟩ := hrun
  have hrow : (run (step fun text => text.getD "") {} [sampleUpsert, sampleRemoval]).map
      (fun world => (world.store.rows.lookup (42, 11)).map fun row =>
        (row.messageState, row.body)) =
      some (some (.unknownMissing, some sampleMessage.body)) := by decide +kernel
  rw [hworld, Option.map_some, Option.some.injEq, Option.map_eq_some_iff] at hrow
  obtain ⟨row, hlookup, hrow⟩ := hrow
  obtain ⟨hstate, hbody⟩ := Prod.mk.inj hrow
  refine ⟨world, hworld, ?_⟩
  have hfits : Along (step fun text => text.getD "")
      (fun world operation => OperationFits world.store operation) {}
      [sampleUpsert, sampleRemoval] := by
    refine ⟨trivial, fun middle hmiddle => ⟨?_, fun _ _ => trivial⟩⟩
    intro messageId hint hmem row hrow hcancelled
    have hscheduled : (run (step fun text => text.getD "") {} [sampleUpsert]).map
        (fun world => (world.store.rows.lookup (42, 11)).map (·.messageState)) =
        some (some .scheduled) := by decide +kernel
    simp only [removalPairs, List.mem_cons, Prod.mk.injEq, List.not_mem_nil, or_false] at hmem
    rw [run_cons, hmiddle, Option.bind_some, run_nil, Option.map_some, ← hmem.1, hrow] at hscheduled
    rw [Option.map_some, hcancelled] at hscheduled
    simp at hscheduled
  exact ((mirror_invariant _ hworld).1 hfits (42, 11) row _ hlookup hbody).1 (Or.inr hstate)

end ScheduledWorld

end McpTelegram
