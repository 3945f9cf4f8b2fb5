import McpTelegram.Scheduled.CommandSteps

/-!
# Responses of scheduled commands

The evidence of a response is applied under the order that was reserved with the receipt.  A row
that was observed under a later order keeps what it has: the writers compare the orders, and a
publication hint in the response finds no other row that waits for known evidence.
-/

namespace McpTelegram

open Foundations ScheduledStore

variable {order : ℕ}

/-! ## Hints without evidence -/

namespace ScheduledStore

variable {dialogId now : ℤ} {key : ℤ × ℤ} {row : ScheduledRow}

/-- A scheduled row has no publication hint, and no waiting row has its evidence. -/
structure HintsSettled (store : ScheduledStore) : Prop where
  scheduled : ∀ key row, store.rows.lookup key = some row → row.messageState = .scheduled →
    row.publicationHintMessageId = none
  waiting : ∀ key row published, store.rows.lookup key = some row →
    row.publicationHintMessageId = some published → row.messageState = .unknownMissing →
      store.evidence.lookup (key.1, published) = none

variable {stemText : Option String → String} {operation : ScheduledOperation}
  {store after : ScheduledStore}

/-- The row that a removal leaves is not scheduled, and it waits only without evidence. -/
theorem removedRow_settled {dialogId messageId now : ℤ} {hint : Option ℤ} {order : ℕ}
    (hcurrent : store.observationCurrent dialogId messageId order = true) :
    (store.removedRow dialogId messageId hint now order).messageState ≠ .scheduled ∧
      ∀ published,
        (store.removedRow dialogId messageId hint now order).publicationHintMessageId =
            some published →
          (store.removedRow dialogId messageId hint now order).messageState = .unknownMissing →
            store.evidence.lookup (dialogId, published) = none := by
  have hbase := removalBase_state now hint hcurrent
  unfold removedRow
  cases hint with
  | none => simp [cancelledRow, hbase]
  | some hint =>
    dsimp only
    cases hevidence : store.evidence.lookup (dialogId, hint) with
    | none =>
      simp only [hintedRow, if_neg hbase]
      refine ⟨by simp, fun published hpublished _ => ?_⟩
      obtain rfl := Option.some_inj.mp hpublished
      exact hevidence
    | some evidence => simp [publishedRow]

/-- A row after evidence was applied is what it was, or it is published. -/
theorem published_or_same {published : ℤ} {evidence : PublicationEvidence}
    (hlookup : after.rows.lookup key = (store.rows.lookup key).map fun row =>
      if awaits dialogId published key row then publishedRow published now evidence row else row)
    (hrow : after.rows.lookup key = some row) :
    row.messageState = .published ∨
      store.rows.lookup key = some row ∧ awaits dialogId published key row = false := by
  rw [hlookup, Option.map_eq_some_iff] at hrow
  obtain ⟨old, hold, rfl⟩ := hrow
  cases hwaits : awaits dialogId published key old with
  | true => exact Or.inl rfl
  | false => exact Or.inr ⟨hold, hwaits⟩

/-- A single write keeps the hints settled. -/
theorem HintsSettled.write (h : store.HintsSettled)
    (hwrite : Write stemText operation store after) : after.HintsSettled := by
  cases hwrite with
  | upserted dialogId message now order hop hupserted =>
    constructor
    · intro key row hrow hstate
      rw [hupserted.rows, Dictionary.lookup_insert_eq] at hrow
      split at hrow
      · cases hrow
        rfl
      · exact h.scheduled key row hrow hstate
    · intro key row published hrow hhint hstate
      rw [hupserted.rows, Dictionary.lookup_insert_eq] at hrow
      rw [hupserted.evidence]
      split at hrow
      · cases hrow
        cases hstate
      · exact h.waiting key row published hrow hhint hstate
  | removed dialogId messageId hint now order hop hcurrent =>
    have hcases : ∀ key row, (store.removeOne dialogId messageId hint now order).rows.lookup key =
        some row → key = (dialogId, messageId) ∧
            row = store.removedRow dialogId messageId hint now order ∨
          row.messageState = .published ∨ store.rows.lookup key = some row := by
      intro key row hrow
      by_cases hkey : key = (dialogId, messageId)
      · rw [lookup_removeOne hcurrent, if_pos hkey] at hrow
        exact Or.inl ⟨hkey, (Option.some_inj.mp hrow).symm⟩
      · rcases lookup_removeOne_ne hint now hcurrent hkey with hsame |
          ⟨published, evidence, -, hlookup⟩
        · exact Or.inr (Or.inr (hsame ▸ hrow))
        · exact Or.inr ((published_or_same hlookup hrow).imp id And.left)
    have hremoved := @removedRow_settled store dialogId messageId now hint order hcurrent
    constructor
    · intro key row hrow hstate
      rcases hcases key row hrow with ⟨-, rfl⟩ | hpublished | hold
      · exact absurd hstate hremoved.1
      · rw [hpublished] at hstate
        cases hstate
      · exact h.scheduled key row hold hstate
    · intro key row published hrow hhint hstate
      rw [removeOne_evidence]
      rcases hcases key row hrow with ⟨rfl, rfl⟩ | hpublished | hold
      · exact hremoved.2 published hhint hstate
      · rw [hpublished] at hstate
        cases hstate
      · exact h.waiting key row published hold hhint hstate
  | verified dialogId published publishedAt now hop =>
    constructor
    · intro key row hrow hstate
      obtain ⟨evidence, -, hlookup⟩ := lookup_verify store dialogId published publishedAt now key
      rcases published_or_same hlookup hrow with hpublished | ⟨hold, -⟩
      · rw [hpublished] at hstate
        cases hstate
      · exact h.scheduled key row hold hstate
    · intro key row other hrow hhint hstate
      obtain ⟨evidence, hevidence, hlookup⟩ :=
        lookup_verify store dialogId published publishedAt now key
      rcases published_or_same hlookup hrow with hpublished | ⟨hold, hnot⟩
      · rw [hpublished] at hstate
        cases hstate
      · -- a row that waited for this evidence would be published now
        rw [hevidence, AList.lookup_insert_ne]
        · exact h.waiting key row other hold hhint hstate
        · rintro hpair
          obtain ⟨hdialog, rfl⟩ := Prod.mk.inj hpair
          rw [awaits_iff.mpr ⟨hdialog, hhint, hstate⟩] at hnot
          cases hnot
  | missing dialogId messageIds now order hop =>
    constructor
    · intro key row hrow hstate
      rw [markMissing, Dictionary.lookup_mapValues, Option.map_eq_some_iff] at hrow
      obtain ⟨old, hold, rfl⟩ := hrow
      split at hstate
      · cases hstate
      · rename_i hmarked
        rw [if_neg hmarked]
        exact h.scheduled key old hold hstate
    · intro key row published hrow hhint hstate
      rw [markMissing, Dictionary.lookup_mapValues, Option.map_eq_some_iff] at hrow
      obtain ⟨old, hold, rfl⟩ := hrow
      split at hhint
      · rename_i hmarked
        have hnone := h.scheduled key old hold hmarked.2.1
        rw [show (missingRow now order old).publicationHintMessageId =
          old.publicationHintMessageId from rfl, hnone] at hhint
        cases hhint
      · rename_i hmarked
        rw [if_neg hmarked] at hstate
        exact h.waiting key old published hold hhint hstate
  | dirtied dialogId now => exact ⟨h.scheduled, h.waiting⟩
  | completed dialogId order hop hrows hfts hevidence horder =>
    exact ⟨hrows ▸ h.scheduled, hevidence ▸ hrows ▸ h.waiting⟩

/-- The operations keep the hints settled. -/
theorem HintsSettled.perform (h : store.HintsSettled) :
    (store.perform stemText operation).HintsSettled :=
  perform_invariant (fun hbefore hwrite => HintsSettled.write hbefore hwrite) h

/-- The row was changed by an observation that is not older than an order. -/
def NewerAt (store : ScheduledStore) (key : ℤ × ℤ) (order : ℕ) (row : ScheduledRow) : Prop :=
  store.rows.lookup key = some row ∧ order ≤ row.observationOrder.getD 0

/-- An upsert under an order leaves the rows that are not older. -/
theorem upsert_newer {message : QueueMessage} {markDirty : Bool} (h : NewerAt store key order row) :
    (store.perform stemText (.upsert dialogId message now markDirty order)).rows.lookup key =
      some row := by
  rw [perform]
  rcases upsert_spec stemText store dialogId message now markDirty order with hsame | hupserted
  · rw [hsame, h.1]
  · rw [hupserted.rows, AList.lookup_insert_ne, h.1]
    rintro rfl
    have hlt := (observationCurrent_iff.mp hupserted.current).2.1
    rw [rowOrder, h.1, Option.bind_some] at hlt
    exact absurd h.2 (by omega)

/-- A removal of one message under an order leaves the rows that are not older. -/
theorem removed_newer {messageId : ℤ} {hints : List ℤ} (hsettled : store.HintsSettled)
    (h : NewerAt store key order row) :
    (store.perform stemText (.removed dialogId [messageId] hints now order)).rows.lookup key =
      some row := by
  have hloop : (applyRemovals dialogId now order (false, store) [messageId]
      hints).2.rows.lookup key = some row := by
    rw [applyRemovals]
    split
    · rename_i hcurrent
      rw [applyRemovals]
      have hkey : key ≠ (dialogId, messageId) := by
        rintro rfl
        have hlt := (observationCurrent_iff.mp hcurrent).2.1
        rw [rowOrder, h.1, Option.bind_some] at hlt
        exact absurd h.2 (by omega)
      rcases lookup_removeOne_ne hints.head? now hcurrent hkey with hsame |
        ⟨published, evidence, hevidence, hlookup⟩
      · rw [hsame, h.1]
      · -- a row whose evidence is known is not waiting any more
        rw [hlookup, h.1, Option.map_some, if_neg]
        intro hwaits
        obtain ⟨hdialog, hhint, hstate⟩ := awaits_iff.mp hwaits
        have hnone := hsettled.waiting key row published h.1 hhint hstate
        rw [hdialog, hevidence] at hnone
        cases hnone
    · rw [applyRemovals, h.1]
  rw [perform, markRemoved]
  cases hremoved : applyRemovals dialogId now order (false, store) [messageId] hints with
  | mk changed after =>
    rw [hremoved] at hloop
    dsimp only
    split
    · exact hloop
    · exact hloop

end ScheduledStore

/-- Applying the evidence of a response leaves the rows that are not older than its order. -/
theorem responseOperation_newer {stemText : Option String → String} {store : ScheduledStore}
    {command : ScheduledCommand} {evidence : ResponseEvidence} {now : ℤ}
    {operation : ScheduledOperation} {key : ℤ × ℤ} {row : ScheduledRow}
    (hsettled : store.HintsSettled)
    (hoperation : responseOperation command evidence now order = some operation)
    (h : NewerAt store key order row) :
    (store.perform stemText operation).rows.lookup key = some row := by
  unfold responseOperation at hoperation
  split at hoperation
  · obtain ⟨messageId, -, hoperation⟩ := Option.bind_eq_some_iff.mp hoperation
    split at hoperation
    · cases hoperation
      exact removed_newer hsettled h
    · cases hoperation
  · cases hoperation
  · split at hoperation
    · cases hoperation
      exact upsert_newer h
    · cases hoperation
  · cases hoperation
    exact upsert_newer h
  · cases hoperation

end McpTelegram
