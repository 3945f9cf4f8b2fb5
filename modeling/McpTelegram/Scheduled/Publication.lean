import McpTelegram.Scheduled.World

/-!
# Publication of scheduled messages

A removal names the message that a scheduled message may have become; the message itself brings the
evidence.  A published row is never touched again.  A row whose removal was applied with its hint
waits until the evidence arrives, whatever happens in between.
-/

namespace McpTelegram

open Foundations

namespace ScheduledStore

variable {stemText : Option String → String} {store after : ScheduledStore}
  {operation : ScheduledOperation} {key : ℤ × ℤ} {row : ScheduledRow}

variable {dialogId' now : ℤ} {pair : ℤ × ℤ} {operations : List ScheduledOperation}

theorem awaits_iff {dialogId publishedMessageId : ℤ} :
    awaits dialogId publishedMessageId key row = true ↔ key.1 = dialogId ∧
      row.publicationHintMessageId = some publishedMessageId ∧
      row.messageState = .unknownMissing := by
  simp [awaits, and_assoc]

/-- The rows after evidence was recorded and applied. -/
theorem lookup_verify (store : ScheduledStore) (dialogId publishedMessageId : ℤ)
    (publishedAt : Option ℤ) (now : ℤ) (key : ℤ × ℤ) :
    ∃ evidence, (store.verifyPublication dialogId publishedMessageId publishedAt now).evidence =
        store.evidence.insert (dialogId, publishedMessageId) evidence ∧
      (store.verifyPublication dialogId publishedMessageId publishedAt now).rows.lookup key =
        (store.rows.lookup key).map fun row =>
          if awaits dialogId publishedMessageId key row then
            publishedRow publishedMessageId now evidence row
          else row := by
  rw [verifyPublication]
  refine ⟨_, reconcile_evidence _ _ _ _, ?_⟩
  rw [lookup_reconcile, AList.lookup_insert]

/-- A single write leaves a published row alone. -/
theorem Write.published (h : Write stemText operation store after)
    (hrow : store.rows.lookup key = some row) (hpublished : row.messageState = .published) :
    after.rows.lookup key = some row := by
  have hwaits : ∀ dialogId publishedMessageId,
      awaits dialogId publishedMessageId key row = false := by
    intro dialogId publishedMessageId
    simp [awaits, hpublished]
  cases h with
  | upserted dialogId message now order hop h =>
    have hkey : key ≠ (dialogId, message.id) := by
      rintro rfl
      exact (observationCurrent_iff.mp h.current).1 row hrow hpublished
    rw [h.rows, AList.lookup_insert_ne hkey, hrow]
  | removed dialogId messageId hint now order hop hcurrent =>
    have hkey : key ≠ (dialogId, messageId) := by
      rintro rfl
      exact (observationCurrent_iff.mp hcurrent).1 row hrow hpublished
    rw [lookup_removeOne hcurrent, if_neg hkey, hrow]
    split
    · rfl
    · simp [hwaits]
  | verified dialogId publishedMessageId publishedAt now hop =>
    obtain ⟨evidence, -, hlookup⟩ := lookup_verify store dialogId publishedMessageId publishedAt
      now key
    rw [hlookup, hrow, Option.map_some, hwaits, if_neg Bool.false_ne_true]
  | missing dialogId messageIds now order hop =>
    simp [markMissing, hrow, hpublished]
  | dirtied dialogId now => exact hrow
  | completed dialogId order hop hrows hfts hevidence horder => rw [hrows, hrow]

/-- No operation changes a published row. -/
theorem perform_published (stemText : Option String → String) (operation : ScheduledOperation)
    (hrow : store.rows.lookup key = some row) (hpublished : row.messageState = .published) :
    (store.perform stemText operation).rows.lookup key = some row := by
  exact @perform_invariant stemText store operation (fun other => other.rows.lookup key = some row)
    (fun hlookup hwrite => hwrite.published hlookup hpublished) hrow

/-- Evidence is never dropped. -/
theorem Write.evidence (h : Write stemText operation store after)
    (hevidence : store.evidence.lookup pair ≠ none) : after.evidence.lookup pair ≠ none := by
  cases h with
  | upserted dialogId message now order hop h => rwa [h.evidence]
  | removed dialogId messageId hint now order hop hcurrent => rwa [removeOne_evidence]
  | verified dialogId publishedMessageId publishedAt now hop =>
    obtain ⟨evidence, hstored, -⟩ := lookup_verify store dialogId publishedMessageId publishedAt
      now (0, 0)
    rw [hstored, Dictionary.lookup_insert_eq]
    split_ifs
    · exact Option.some_ne_none evidence
    · exact hevidence
  | missing | dirtied => exact hevidence
  | completed dialogId order hop hrows hfts heq horder => rwa [heq]

/-! ## The removed message -/

/-- The row is published under an id. -/
def PublishedAs (publishedMessageId : ℤ) (row : ScheduledRow) : Prop :=
  row.messageState = .published ∧ row.publishedMessageId = some publishedMessageId

/-- Before the removal: no observation of the row or of the queue has reached its order, and the row
expects no other publication. -/
structure BeforeRemoval (dialogId messageId hint : ℤ) (order : ℕ) (store : ScheduledStore) :
    Prop where
  snapshot : store.snapshotOrder dialogId < order
  row : ∀ row, store.rows.lookup (dialogId, messageId) = some row → PublishedAs hint row ∨
    row.messageState ≠ .published ∧ row.observationOrder.getD 0 < order ∧
      (row.publicationHintMessageId = none ∨ row.publicationHintMessageId = some hint)

/-- After the removal: the row waits for its evidence, or it is published. -/
def AfterRemoval (dialogId messageId hint : ℤ) (order : ℕ) (store : ScheduledStore) : Prop :=
  ∃ row, store.rows.lookup (dialogId, messageId) = some row ∧ (PublishedAs hint row ∨
    row.messageState = .unknownMissing ∧ row.publicationHintMessageId = some hint ∧
      row.observationOrder = some order ∧ store.evidence.lookup (dialogId, hint) = none)

/-- What precedes the removal in the queue: everything that observes the message or the whole queue
has a lower order, and the message is removed with no other hint. -/
structure Precedes (dialogId messageId hint : ℤ) (order : ℕ) (operation : ScheduledOperation) :
    Prop where
  upserts : ∀ message order', operation.Upserts dialogId message order' → message.id = messageId →
    order' < order
  removes : ∀ hint' order', operation.Removes dialogId messageId hint' order' →
    order' < order ∧ (hint' = none ∨ hint' = some hint)
  misses : ∀ order', operation.Misses dialogId order' → order' < order

/-- What may follow the removal: nothing that has the message in the queue, or removes it, has a
higher order. -/
structure Follows (dialogId messageId : ℤ) (order : ℕ) (operation : ScheduledOperation) : Prop where
  upserts : ∀ message order', operation.Upserts dialogId message order' → message.id = messageId →
    order' ≤ order
  removes : ∀ hint' order', operation.Removes dialogId messageId hint' order' → order' ≤ order

variable {dialogId messageId hint : ℤ} {order : ℕ}

/-- Publishing a row that waits for the expected evidence, or leaving it alone. -/
theorem publishedAs_or_same (dialogId' publishedMessageId now : ℤ) (evidence : PublicationEvidence)
    (key : ℤ × ℤ) (hhint : row.publicationHintMessageId = none ∨ row.publicationHintMessageId = some hint) :
    (PublishedAs hint (if awaits dialogId' publishedMessageId key row then
        publishedRow publishedMessageId now evidence row else row)) ∨
      (if awaits dialogId' publishedMessageId key row then
        publishedRow publishedMessageId now evidence row else row) = row := by
  split_ifs with hwaits
  · obtain ⟨-, hwaits, -⟩ := awaits_iff.mp hwaits
    rcases hhint with hnone | hsome
    · rw [hnone] at hwaits
      cases hwaits
    · obtain rfl := Option.some_inj.mp (hwaits.symm.trans hsome)
      exact Or.inl ⟨rfl, rfl⟩
  · exact Or.inr rfl

/-- The row that a removal leaves for the message, when it carries the expected hint or none. -/
theorem removedRow_spec {hint' : Option ℤ} {now : ℤ} {order' : ℕ}
    (hrow : row = store.removedRow dialogId messageId hint' now order')
    (hcurrent : store.observationCurrent dialogId messageId order' = true)
    (hhint' : hint' = none ∨ hint' = some hint)
    (hstored : ∀ row, store.rows.lookup (dialogId, messageId) = some row →
      row.publicationHintMessageId = none ∨ row.publicationHintMessageId = some hint) :
    row.observationOrder = some order' ∧
      (row.publicationHintMessageId = none ∨ row.publicationHintMessageId = some hint) ∧
      (hint' = none → row.messageState = .cancelled) ∧
      (hint' = some hint → (PublishedAs hint row ∨ row.messageState = .unknownMissing ∧
        row.publicationHintMessageId = some hint ∧
        store.evidence.lookup (dialogId, hint) = none)) := by
  have hbase := removalBase_state now hint' hcurrent
  have hbaseHint : (store.removalBase dialogId messageId now hint').publicationHintMessageId =
      none ∨ (store.removalBase dialogId messageId now hint').publicationHintMessageId =
        some hint := by
    rw [removalBase]
    cases hrow : store.rows.lookup (dialogId, messageId) with
    | none => exact hhint'
    | some row => exact hstored row hrow
  rcases hhint' with rfl | rfl
  · rw [removedRow, cancelledRow, if_neg hbase] at hrow
    rw [hrow]
    exact ⟨rfl, hbaseHint, fun _ => rfl, fun h => absurd h (by simp)⟩
  · rw [removedRow] at hrow
    cases hevidence : store.evidence.lookup (dialogId, hint) with
    | none =>
      simp only [hevidence, hintedRow, if_neg hbase] at hrow
      rw [hrow]
      exact ⟨rfl, Or.inr rfl, fun h => absurd h (by simp), fun _ => Or.inr ⟨rfl, rfl, rfl⟩⟩
    | some evidence =>
      simp only [hevidence, publishedRow, hintedRow, if_neg hbase] at hrow
      rw [hrow]
      exact ⟨rfl, Or.inr rfl, fun h => absurd h (by simp), fun _ => Or.inl ⟨rfl, rfl⟩⟩

/-- The row of another message after one removal. -/
theorem lookup_removeOne_ne {messageId' : ℤ} {order' : ℕ} (hint' : Option ℤ) (now : ℤ)
    (hcurrent : store.observationCurrent dialogId' messageId' order' = true)
    (hne : key ≠ (dialogId', messageId')) :
    (store.removeOne dialogId' messageId' hint' now order').rows.lookup key = store.rows.lookup key ∨
      ∃ published evidence, store.evidence.lookup (dialogId', published) = some evidence ∧
        (store.removeOne dialogId' messageId' hint' now order').rows.lookup key =
          (store.rows.lookup key).map fun row =>
            if awaits dialogId' published key row then publishedRow published now evidence row
            else row := by
  rw [lookup_removeOne hcurrent, if_neg hne]
  cases hint' with
  | none => exact Or.inl rfl
  | some published =>
    cases hevidence : store.evidence.lookup (dialogId', published) with
    | none =>
      rw [Option.bind_some, hevidence]
      exact Or.inl rfl
    | some evidence =>
      rw [Option.bind_some, hevidence]
      exact Or.inr ⟨published, evidence, hevidence, rfl⟩

/-- What a row may become while its expectation stays. -/
theorem BeforeRemoval.row_published {dialogId' published now : ℤ} {evidence : PublicationEvidence}
    (h : PublishedAs hint row ∨ row.messageState ≠ .published ∧
      row.observationOrder.getD 0 < order ∧
      (row.publicationHintMessageId = none ∨ row.publicationHintMessageId = some hint)) :
    let after := if awaits dialogId' published key row then publishedRow published now evidence row
      else row
    PublishedAs hint after ∨ after.messageState ≠ .published ∧
      after.observationOrder.getD 0 < order ∧
      (after.publicationHintMessageId = none ∨ after.publicationHintMessageId = some hint) := by
  intro after
  rcases h with hpublished | ⟨hstate, horder, hhint⟩
  · have hwaits : awaits dialogId' published key row = false := by
      simp [awaits, hpublished.1]
    have hsame : after = row := by simp [after, hwaits]
    rw [hsame]
    exact Or.inl hpublished
  · rcases publishedAs_or_same dialogId' published now evidence key hhint with
      hpublished | hsame
    · exact Or.inl hpublished
    · have hsame : after = row := hsame
      rw [hsame]
      exact Or.inr ⟨hstate, horder, hhint⟩

/-- A write that precedes the removal keeps the message open for it.  Removals of other messages may
have any order. -/
theorem BeforeRemoval.write (h : BeforeRemoval dialogId messageId hint order store)
    (hupserts : ∀ message order', operation.Upserts dialogId message order' →
      message.id = messageId → order' < order)
    (hmisses : ∀ order', operation.Misses dialogId order' → order' < order)
    (hremoved : ∀ hint' order', operation.Removes dialogId messageId hint' order' →
      order' < order ∧ (hint' = none ∨ hint' = some hint))
    (hwrite : Write stemText operation store after) :
    BeforeRemoval dialogId messageId hint order after := by
  cases hwrite with
  | upserted dialogId' message now order' hop hupserted =>
    refine ⟨by rw [hupserted.snapshotOrder]; exact h.snapshot, fun row hrow => ?_⟩
    rw [hupserted.rows, Dictionary.lookup_insert_eq] at hrow
    split_ifs at hrow with hkey
    · obtain ⟨rfl, rfl⟩ := Prod.mk.inj hkey
      obtain rfl := Option.some_inj.mp hrow
      exact Or.inr ⟨by simp [upsertedRow], hupserts message order' hop rfl, Or.inl rfl⟩
    · exact h.row row hrow
  | removed dialogId' messageId' hint' now order' hop hcurrent =>
    refine ⟨by rw [removeOne_snapshotOrder]; exact h.snapshot, fun row hrow => ?_⟩
    by_cases hkey : (dialogId, messageId) = (dialogId', messageId')
    · obtain ⟨rfl, rfl⟩ := Prod.mk.inj hkey
      obtain ⟨hlt, hhint⟩ := hremoved hint' order' hop
      rw [lookup_removeOne hcurrent, if_pos rfl] at hrow
      obtain rfl := Option.some_inj.mp hrow
      have hstored : ∀ row, store.rows.lookup (dialogId, messageId) = some row →
          row.publicationHintMessageId = none ∨ row.publicationHintMessageId = some hint := by
        intro row hrow
        rcases h.row row hrow with hpublished | ⟨-, -, hhint⟩
        · exact absurd hpublished.1 ((observationCurrent_iff.mp hcurrent).1 row hrow)
        · exact hhint
      obtain ⟨horder, hrowHint, hcancelled, hhinted⟩ :=
        removedRow_spec rfl hcurrent hhint hstored
      rcases hhint with hnone | hsome
      · refine Or.inr ⟨?_, by rw [horder]; exact hlt, hrowHint⟩
        rw [hcancelled hnone]
        simp
      · rcases hhinted hsome with hpublished | ⟨hmissing, -, -⟩
        · exact Or.inl hpublished
        · refine Or.inr ⟨?_, by rw [horder]; exact hlt, hrowHint⟩
          rw [hmissing]
          simp
    · rcases lookup_removeOne_ne hint' now hcurrent hkey with hsame |
        ⟨published, evidence, -, hlookup⟩
      · exact h.row row (hsame ▸ hrow)
      · rw [hlookup, Option.map_eq_some_iff] at hrow
        obtain ⟨before, hbefore, rfl⟩ := hrow
        exact BeforeRemoval.row_published (h.row before hbefore)
  | verified dialogId' published publishedAt now hop =>
    refine ⟨by rw [verifyPublication, reconcile_snapshotOrder]; exact h.snapshot, fun row hrow => ?_⟩
    obtain ⟨evidence, -, hlookup⟩ := lookup_verify store dialogId' published publishedAt now
      (dialogId, messageId)
    rw [hlookup, Option.map_eq_some_iff] at hrow
    obtain ⟨before, hbefore, rfl⟩ := hrow
    exact BeforeRemoval.row_published (h.row before hbefore)
  | missing dialogId' messageIds now order' hop =>
    refine ⟨h.snapshot, fun row hrow => ?_⟩
    rw [markMissing, Dictionary.lookup_mapValues, Option.map_eq_some_iff] at hrow
    obtain ⟨before, hbefore, rfl⟩ := hrow
    split_ifs with hmarked
    · obtain ⟨hdialog, hstate, -⟩ := hmarked
      have hdialog : dialogId = dialogId' := hdialog
      rcases h.row before hbefore with hpublished | ⟨-, -, hhint⟩
      · rw [hpublished.1] at hstate
        cases hstate
      · exact Or.inr ⟨by simp [missingRow], hmisses order' (hdialog ▸ hop), hhint⟩
    · exact h.row before hbefore
  | dirtied dialogId' now =>
    exact ⟨by rw [markDialogDirty_snapshotOrder]; exact h.snapshot, h.row⟩
  | completed dialogId' order' hop hrows hfts hevidence horder =>
    refine ⟨?_, by rw [hrows]; exact h.row⟩
    rw [horder]
    split_ifs with hdialog
    · refine hmisses order' ?_
      rw [hdialog]
      cases operation <;> first | exact hop | exact hop.elim
    · exact h.snapshot

/-- A write that may follow the removal keeps the row waiting or publishes it. -/
theorem AfterRemoval.write (h : AfterRemoval dialogId messageId hint order store)
    (hfollows : Follows dialogId messageId order operation)
    (hwrite : Write stemText operation store after) :
    AfterRemoval dialogId messageId hint order after := by
  obtain ⟨row, hrow, hpublished | ⟨hstate, hhint, horder, hevidence⟩⟩ := h
  · exact ⟨row, hwrite.published hrow hpublished.1, Or.inl hpublished⟩
  have hrowOrder : store.rowOrder dialogId messageId = order := by
    rw [rowOrder, hrow, Option.bind_some, horder, Option.getD_some]
  cases hwrite with
  | upserted dialogId' message now order' hop hupserted =>
    have hkey : (dialogId, messageId) ≠ (dialogId', message.id) := by
      intro hkey
      obtain ⟨rfl, rfl⟩ := Prod.mk.inj hkey
      have hle := hfollows.upserts message order' hop rfl
      have hlt := (observationCurrent_iff.mp hupserted.current).2.1
      omega
    refine ⟨row, ?_, Or.inr ⟨hstate, hhint, horder, by rw [hupserted.evidence]; exact hevidence⟩⟩
    rw [hupserted.rows, AList.lookup_insert_ne hkey, hrow]
  | removed dialogId' messageId' hint' now order' hop hcurrent =>
    have hkey : (dialogId, messageId) ≠ (dialogId', messageId') := by
      intro hkey
      obtain ⟨rfl, rfl⟩ := Prod.mk.inj hkey
      have hle := hfollows.removes hint' order' hop
      have hlt := (observationCurrent_iff.mp hcurrent).2.1
      omega
    refine ⟨row, ?_, Or.inr ⟨hstate, hhint, horder, by rw [removeOne_evidence]; exact hevidence⟩⟩
    rcases lookup_removeOne_ne hint' now hcurrent hkey with hsame | ⟨published, evidence, hstored,
      hlookup⟩
    · rw [hsame, hrow]
    · rw [hlookup, hrow, Option.map_some]
      rw [if_neg]
      intro hwaits
      obtain ⟨rfl, hpublished, -⟩ := awaits_iff.mp hwaits
      obtain rfl := Option.some_inj.mp (hhint.symm.trans hpublished)
      rw [hevidence] at hstored
      cases hstored
  | verified dialogId' published publishedAt now hop =>
    obtain ⟨evidence, hstored, hlookup⟩ := lookup_verify store dialogId' published publishedAt now
      (dialogId, messageId)
    rw [hrow, Option.map_some] at hlookup
    refine ⟨_, hlookup, ?_⟩
    by_cases hpair : (dialogId, hint) = (dialogId', published)
    · obtain ⟨rfl, rfl⟩ := Prod.mk.inj hpair
      have hwaits : awaits dialogId hint (dialogId, messageId) row = true :=
        awaits_iff.mpr ⟨rfl, hhint, hstate⟩
      rw [if_pos hwaits]
      exact Or.inl ⟨rfl, rfl⟩
    · rw [if_neg]
      · refine Or.inr ⟨hstate, hhint, horder, ?_⟩
        rw [hstored, AList.lookup_insert_ne hpair]
        exact hevidence
      · intro hwaits
        obtain ⟨hdialog, hpublished, -⟩ := awaits_iff.mp hwaits
        exact hpair (Prod.ext hdialog (Option.some_inj.mp (hhint.symm.trans hpublished)))
  | missing dialogId' messageIds now order' hop =>
    refine ⟨row, ?_, Or.inr ⟨hstate, hhint, horder, hevidence⟩⟩
    simp [markMissing, hrow, hstate]
  | dirtied dialogId' now => exact ⟨row, hrow, Or.inr ⟨hstate, hhint, horder, hevidence⟩⟩
  | completed dialogId' order' hop hrows hfts heq hsnapshot =>
    exact ⟨row, by rw [hrows, hrow], Or.inr ⟨hstate, hhint, horder, by rw [heq]; exact hevidence⟩⟩

/-- The rest of the removals of one update leaves the row waiting or publishes it. -/
theorem AfterRemoval.removals {messageIds hints : List ℤ} (changed : Bool)
    (h : AfterRemoval dialogId messageId hint order store) :
    AfterRemoval dialogId messageId hint order
      (applyRemovals dialogId now order (changed, store) messageIds hints).2 := by
  have hwrites := applyRemovals_writes (fun text => text.getD "") now (fun other hint' hmem =>
    show ScheduledOperation.Removes (.removed dialogId messageIds hints now order) dialogId other
      hint' order from ⟨rfl, hmem, rfl⟩) changed store
  have hfollows : Follows dialogId messageId order
      (.removed dialogId messageIds hints now order) :=
    ⟨fun _ _ hop => hop.elim, fun _ _ hop => hop.2.2 ▸ le_rfl⟩
  generalize (applyRemovals dialogId now order (changed, store) messageIds hints).2 = last
    at hwrites
  induction hwrites with
  | refl => exact h
  | tail _ hwrite ih => exact ih.write hfollows hwrite

/-- The update that removes the message with its hint is applied, unless the row is published. -/
theorem applyRemovals_after {now : ℤ} {messageIds hints : List ℤ} (changed : Bool)
    (hcarries : (removalPairs messageIds hints).lookup messageId = some (some hint))
    (h : BeforeRemoval dialogId messageId hint order store) :
    AfterRemoval dialogId messageId hint order
      (applyRemovals dialogId now order (changed, store) messageIds hints).2 := by
  induction messageIds generalizing hints changed store with
  | nil => simp [removalPairs] at hcarries
  | cons other messageIds ih =>
    rw [removalPairs, List.lookup_cons] at hcarries
    rw [applyRemovals]
    by_cases hother : messageId = other
    · subst hother
      simp only [beq_self_eq_true, Option.some.injEq] at hcarries
      rw [hcarries]
      split
      · rename_i hcurrent
        refine AfterRemoval.removals true ?_
        have hstored : ∀ row, store.rows.lookup (dialogId, messageId) = some row →
            row.publicationHintMessageId = none ∨ row.publicationHintMessageId = some hint := by
          intro row hrow
          rcases h.row row hrow with hpublished | ⟨-, -, hhint⟩
          · exact absurd hpublished.1 ((observationCurrent_iff.mp hcurrent).1 row hrow)
          · exact hhint
        obtain ⟨horder, -, -, hhinted⟩ :=
          @removedRow_spec store _ dialogId messageId hint (some hint) now order rfl hcurrent
            (Or.inr rfl) hstored
        refine ⟨_, by rw [lookup_removeOne hcurrent, if_pos rfl], ?_⟩
        rcases hhinted rfl with hpublished | ⟨hstate, hhint, hevidence⟩
        · exact Or.inl hpublished
        · exact Or.inr ⟨hstate, hhint, horder, by rw [removeOne_evidence]; exact hevidence⟩
      · rename_i hstale
        refine AfterRemoval.removals changed ?_
        rw [observationCurrent_iff] at hstale
        cases hrow : store.rows.lookup (dialogId, messageId) with
        | none =>
          have hpos := (Nat.zero_le _).trans_lt h.snapshot
          exact absurd ⟨by simp [hrow], by simpa [rowOrder, hrow] using hpos, h.snapshot⟩ hstale
        | some row =>
          rcases h.row row hrow with hpublished | ⟨hstate, horder, -⟩
          · exact ⟨row, hrow, Or.inl hpublished⟩
          · refine absurd ⟨?_, by simpa [rowOrder, hrow] using horder, h.snapshot⟩ hstale
            intro other hother
            obtain rfl := Option.some_inj.mp (hrow.symm.trans hother)
            exact hstate
    · rw [show (messageId == other) = false by simpa using hother] at hcarries
      split
      · rename_i hcurrent
        refine ih true hcarries ?_
        have hop : ScheduledOperation.Removes (.removed dialogId [other] hints now order) dialogId
            other hints.head? order := ⟨rfl, List.mem_singleton.mpr rfl, rfl⟩
        have hwrite := @Write.removed (fun text => text.getD "")
          (.removed dialogId [other] hints now order) store dialogId other hints.head? now order hop
          hcurrent
        refine h.write ?_ ?_ ?_ hwrite
        · exact fun _ _ hop => False.elim hop
        · exact fun _ hop => False.elim hop
        rintro hint' order' ⟨-, hmem, -⟩
        simp only [removalPairs, List.mem_singleton, Prod.mk.injEq] at hmem
        exact absurd hmem.1 hother
      · exact ih changed hcarries h

/-! ## Runs -/

/-- The store after a list of operations. -/
def performEach (stemText : Option String → String) (store : ScheduledStore)
    (operations : List ScheduledOperation) : ScheduledStore :=
  operations.foldl (perform stemText) store

theorem performEach_beforeRemoval
    (hprecedes : ∀ operation ∈ operations, Precedes dialogId messageId hint order operation)
    (h : BeforeRemoval dialogId messageId hint order store) :
    BeforeRemoval dialogId messageId hint order (performEach stemText store operations) := by
  induction operations generalizing store with
  | nil => exact h
  | cons operation operations ih =>
    have hfirst := hprecedes operation List.mem_cons_self
    refine ih (fun other hmem => hprecedes other (List.mem_cons_of_mem _ hmem)) ?_
    exact perform_invariant (fun hbefore hwrite =>
      hbefore.write hfirst.upserts hfirst.misses hfirst.removes hwrite) h

theorem performEach_afterRemoval
    (hfollows : ∀ operation ∈ operations, Follows dialogId messageId order operation)
    (h : AfterRemoval dialogId messageId hint order store) :
    AfterRemoval dialogId messageId hint order (performEach stemText store operations) := by
  induction operations generalizing store with
  | nil => exact h
  | cons operation operations ih =>
    refine ih (fun other hmem => hfollows other (List.mem_cons_of_mem _ hmem)) ?_
    exact perform_invariant (fun hbefore hwrite =>
      hbefore.write (hfollows operation List.mem_cons_self) hwrite) h

/-- Evidence that was recorded in a run is there at its end. -/
theorem performEach_evidence (h : store.evidence.lookup pair ≠ none ∨
      ∃ publishedAt now, .verify pair.1 pair.2 publishedAt now ∈ operations) :
    (performEach stemText store operations).evidence.lookup pair ≠ none := by
  induction operations generalizing store with
  | nil =>
    rcases h with h | ⟨publishedAt, now, hmem⟩
    · exact h
    · cases hmem
  | cons operation operations ih =>
    refine ih ?_
    rcases h with h | ⟨publishedAt, now, hmem⟩
    · exact Or.inl (perform_invariant (I := fun other => other.evidence.lookup pair ≠ none)
        (fun hbefore hwrite => hwrite.evidence hbefore) h)
    · rcases List.mem_cons.mp hmem with rfl | hmem
      · left
        obtain ⟨evidence, hstored, -⟩ := lookup_verify store pair.1 pair.2 publishedAt now (0, 0)
        rw [perform, hstored, AList.lookup_insert]
        exact Option.some_ne_none evidence
      · exact Or.inr ⟨publishedAt, now, hmem⟩

/-- A scheduled message whose removal with a publication hint is applied before any observation of a
higher order reaches its row or its queue ends published under the hinted id once the evidence has
been processed, in whatever order the evidence, the snapshots and everything else arrive; and a
published row is never changed again. -/
theorem publication_settles (stemText : Option String → String)
    {before after : List ScheduledOperation} {messageIds sentMessageIds : List ℤ} {now : ℤ}
    (horder : 0 < order)
    (hcarries : (removalPairs messageIds sentMessageIds).lookup messageId = some (some hint))
    (hbefore : ∀ operation ∈ before, Precedes dialogId messageId hint order operation)
    (hafter : ∀ operation ∈ after, Follows dialogId messageId order operation)
    (hevidence : ∃ publishedAt now, .verify dialogId hint publishedAt now ∈ before ++ after) :
    (∃ row, (performEach stemText {} (before ++
        .removed dialogId messageIds sentMessageIds now order :: after)).rows.lookup
          (dialogId, messageId) = some row ∧
      row.messageState = .published ∧ row.publishedMessageId = some hint) ∧
    ∀ (store : ScheduledStore) (operation : ScheduledOperation) (key : ℤ × ℤ) (row : ScheduledRow),
      store.rows.lookup key = some row → row.messageState = .published →
      (store.perform stemText operation).rows.lookup key = some row := by
  refine ⟨?_, fun store operation key row hrow hpublished =>
    perform_published stemText operation hrow hpublished⟩
  have hopen : BeforeRemoval dialogId messageId hint order (performEach stemText {} before) := by
    refine performEach_beforeRemoval hbefore ⟨horder, ?_⟩
    intro row hrow
    cases hrow
  have hremoved : AfterRemoval dialogId messageId hint order
      ((performEach stemText {} before).perform stemText
        (.removed dialogId messageIds sentMessageIds now order)) := by
    have hloop := @applyRemovals_after _ dialogId messageId hint order now messageIds
      sentMessageIds false hcarries hopen
    rw [perform, markRemoved]
    cases happlied : applyRemovals dialogId now order (false, performEach stemText {} before)
      messageIds sentMessageIds with
    | mk changed last =>
      rw [happlied] at hloop
      obtain ⟨row, hrow, hafterwards⟩ := hloop
      cases changed with
      | true => exact ⟨row, hrow, hafterwards⟩
      | false => exact ⟨row, hrow, hafterwards⟩
  have hrun : performEach stemText {} (before ++
        .removed dialogId messageIds sentMessageIds now order :: after) =
      performEach stemText ((performEach stemText {} before).perform stemText
        (.removed dialogId messageIds sentMessageIds now order)) after := by
    rw [performEach, List.foldl_append, List.foldl_cons]
    rfl
  obtain ⟨row, hrow, hpublished | ⟨-, -, -, hnone⟩⟩ :=
    performEach_afterRemoval hafter hremoved
  · exact ⟨row, by rw [hrun, hrow], hpublished⟩
  · refine absurd hnone ?_
    rw [← hrun]
    refine performEach_evidence (Or.inr ?_)
    obtain ⟨publishedAt, instant, hmem⟩ := hevidence
    refine ⟨publishedAt, instant, ?_⟩
    rcases List.mem_append.mp hmem with hmem | hmem
    · exact List.mem_append_left _ hmem
    · exact List.mem_append_right _ (List.mem_cons_of_mem _ hmem)

/-- A scheduled message. -/
def sampleMessage : QueueMessage :=
  { id := 11, sentAt := some 500, content := { text := some "draft" } }

/-- The message enters the queue. -/
def sampleUpsert : ScheduledOperation := .upsert 42 sampleMessage 100 true 1

/-- It leaves the queue, and 901 may be what it became. -/
def sampleRemoval : ScheduledOperation := .removed 42 [11] [901] 110 2

/-- The empty queue, fetched after the removal was delivered. -/
def sampleSnapshot : ScheduledOperation := .snapshot {} 42 1 [] 120 3

/-- The published message arrives. -/
def sampleEvidence : ScheduledOperation := .verify 42 901 (some 500) 130

theorem publication_settles_sample :
    ∃ row, (performEach (fun text => text.getD "") {}
        ([sampleUpsert, sampleEvidence] ++ sampleRemoval :: [sampleSnapshot])).rows.lookup
          (42, 11) = some row ∧
      row.messageState = .published ∧ row.publishedMessageId = some 901 := by
  refine (@publication_settles 42 11 901 2 (fun text => text.getD "")
    [sampleUpsert, sampleEvidence] [sampleSnapshot] [11] [901] 110 (by decide) (by decide) ?_ ?_
    ⟨some 500, 130, by simp [sampleEvidence]⟩).1
  · intro operation hmem
    rcases List.mem_cons.mp hmem with rfl | hmem
    · refine ⟨?_, fun _ _ hop => False.elim hop, fun _ hop => False.elim hop⟩
      rintro message order' ⟨-, -, rfl⟩ -
      decide
    · obtain rfl := List.mem_singleton.mp hmem
      exact ⟨fun _ _ hop => False.elim hop, fun _ _ hop => False.elim hop,
        fun _ hop => False.elim hop⟩
  · intro operation hmem
    obtain rfl := List.mem_singleton.mp hmem
    refine ⟨?_, fun _ _ hop => False.elim hop⟩
    rintro message order' ⟨-, hmessage, -⟩
    cases hmessage

/-- Where the snapshot is applied before the removal that was delivered earlier, the hint is ignored
and the evidence finds no row; the same operations in the other order publish it. -/
theorem hint_behind_snapshot :
    (((performEach (fun text => text.getD "") {}
        [sampleUpsert, sampleSnapshot, sampleRemoval, sampleEvidence]).rows.lookup (42, 11)).map
      fun row => (row.messageState, row.publishedMessageId)) = some (.unknownMissing, none) ∧
    (((performEach (fun text => text.getD "") {}
        [sampleUpsert, sampleRemoval, sampleSnapshot, sampleEvidence]).rows.lookup (42, 11)).map
      fun row => (row.messageState, row.publishedMessageId)) = some (.published, some 901) := by
  constructor <;> decide +kernel

end ScheduledStore

end McpTelegram
