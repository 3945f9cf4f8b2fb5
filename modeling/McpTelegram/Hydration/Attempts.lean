import McpTelegram.Hydration.Queue

/-!
# What the queue writers keep

An observation that was found obsolete stays obsolete under every write, a refund gives exactly one
attempt back, and every other writer keeps the attempts of the rows that it leaves.
-/

namespace McpTelegram

open Foundations

variable {key : MessageKey} {dueAt : ℤ} {job : HydrationJob}

namespace MessageStore

variable {store store' store'' : MessageStore}

/-! ## Obsolete observations -/

/-- What makes an observation obsolete. -/
theorem hydrationObservationCurrent_eq_false {order : ℤ} :
    store.hydrationObservationCurrent key (some order) = false ↔
      store.hasNonchannelDeletion key = true ∨ ∃ row, store.observations key = some row ∧
        (row.isDeleted = true ∨ order < row.observationOrder) := by
  rw [hydrationObservationCurrent]
  cases store.hasNonchannelDeletion key with
  | true => simp
  | false =>
    cases store.observations key with
    | none => simp
    | some row => cases hdeleted : row.isDeleted <;> simp [hdeleted]

/-- An obsolete observation stays obsolete. -/
def Outdates (store store' : MessageStore) : Prop :=
  ∀ key order, store.hydrationObservationCurrent key (some order) = false →
    store'.hydrationObservationCurrent key (some order) = false

theorem Outdates.refl (store : MessageStore) : Outdates store store := fun _ _ h => h

theorem Outdates.trans (h : Outdates store store') (h' : Outdates store' store'') :
    Outdates store store'' := fun key order hobsolete => h' key order (h key order hobsolete)

theorem Outdates.foldl {α : Type} {f : MessageStore → α → MessageStore}
    (h : ∀ store a, Outdates store (f store a)) (store : MessageStore) (as : List α) :
    Outdates store (as.foldl f store) := by
  induction as generalizing store with
  | nil => exact Outdates.refl store
  | cons a as ih => exact (h store a).trans (ih (f store a))

/-- The currency of an observation is read from two tables. -/
theorem hydrationObservationCurrent_congr (hobservations : store'.observations = store.observations)
    (hdeletions : store'.nonchannelDeletions = store.nonchannelDeletions) (key : MessageKey)
    (order : Option ℤ) :
    store'.hydrationObservationCurrent key order = store.hydrationObservationCurrent key order := by
  have hnonchannel : store'.hasNonchannelDeletion key = store.hasNonchannelDeletion key := by
    rw [hasNonchannelDeletion, hasNonchannelDeletion, hdeletions]
  rw [hydrationObservationCurrent, hydrationObservationCurrent, hnonchannel, hobservations]

theorem Outdates.of_tables (hobservations : store'.observations = store.observations)
    (hdeletions : store'.nonchannelDeletions = store.nonchannelDeletions) :
    Outdates store store' := fun key order h => by
  rwa [hydrationObservationCurrent_congr hobservations hdeletions]

theorem allocateObservationOrder_outdates (store : MessageStore) :
    Outdates store store.allocateObservationOrder.2 := Outdates.of_tables rfl rfl

/-- A written observation row that is deleted or at least as late as the stored one outdates. -/
theorem Outdates.of_put {row : ObservationRow}
    (hobservations : store'.observations = store.observations.put key row)
    (hdeletions : store'.nonchannelDeletions = store.nonchannelDeletions)
    (hrow : ∀ stored, store.observations key = some stored →
      row.isDeleted = true ∨
        row.isDeleted = stored.isDeleted ∧ stored.observationOrder ≤ row.observationOrder) :
    Outdates store store' := by
  intro other order h
  rw [hydrationObservationCurrent_eq_false] at h ⊢
  rcases h with hdeleted | ⟨stored, hstored, h⟩
  · exact Or.inl (by rwa [hasNonchannelDeletion, hdeletions])
  · refine Or.inr ?_
    rw [hobservations, Table.put_apply]
    by_cases hkey : other = key
    · subst hkey
      refine ⟨row, if_pos rfl, ?_⟩
      rcases hrow stored hstored with hrow | ⟨hdeleted, hlater⟩
      · exact Or.inl hrow
      · exact h.imp (fun h => hdeleted.trans h) fun h => h.trans_le hlater
    · exact ⟨stored, (if_neg hkey).trans hstored, h⟩

theorem recordMessageObservations_outdates (store : MessageStore) (accepted : List ExtractedMessage)
    (source : ReactionAggregateSource) :
    Outdates store (store.recordMessageObservations accepted source) := by
  have hround : ∀ (fallback : ℤ) (store : MessageStore) (item : ExtractedMessage),
      Outdates store (store.recordMessageObservation source fallback item) := by
    intro fallback store item
    refine Outdates.of_put rfl rfl fun stored hstored => Or.inr ?_
    rw [hstored]
    exact ⟨rfl, le_max_left _ _⟩
  rw [recordMessageObservations]
  split_ifs
  · exact (allocateObservationOrder_outdates store).trans (Outdates.foldl (hround _) _ _)
  · exact Outdates.foldl (hround _) _ _

theorem recordMessageDeletions_outdates (store : MessageStore) (dialogId : ℤ)
    (messageIds : List ℤ) : Outdates store (store.recordMessageDeletions dialogId messageIds).2 := by
  have hround : ∀ (order : ℤ) (store : MessageStore) (messageId : ℤ),
      Outdates store (store.recordDeletion order ⟨dialogId, messageId⟩) := by
    intro order store messageId
    refine Outdates.of_put rfl rfl fun stored hstored => Or.inl ?_
    rw [hstored]
  rw [recordMessageDeletions]
  dsimp only
  split_ifs
  · exact Outdates.refl store
  · exact (allocateObservationOrder_outdates store).trans (Outdates.foldl (hround _) _ _)

theorem recordNonchannelDeletions_outdates (store : MessageStore) (messageIds : List ℤ)
    (deletedAt : ℤ) : Outdates store (store.recordNonchannelDeletions messageIds deletedAt) := by
  rw [recordNonchannelDeletions]
  refine Outdates.foldl (fun store messageId key order h => ?_) store _
  split
  · exact h
  · rw [hydrationObservationCurrent_eq_false] at h ⊢
    refine h.imp_left fun hdeleted => ?_
    rw [hasNonchannelDeletion] at hdeleted ⊢
    split at hdeleted
    · cases hdeleted
    · rename_i hchannel
      rw [if_neg hchannel]
      change ((store.nonchannelDeletions.put messageId deletedAt) key.messageId).isSome = true
      rw [Table.put_apply]
      split
      · rfl
      · exact hdeleted

/-- The records of observations and deletions leave the queue as it is. -/
theorem foldl_jobs {α : Type} {f : MessageStore → α → MessageStore}
    (h : ∀ store a, (f store a).jobs = store.jobs) (store : MessageStore) (as : List α) :
    (as.foldl f store).jobs = store.jobs := by
  induction as generalizing store with
  | nil => rfl
  | cons a as ih => exact (ih (f store a)).trans (h store a)

@[simp] theorem recordMessageObservations_jobs (store : MessageStore)
    (accepted : List ExtractedMessage) (source : ReactionAggregateSource) :
    (store.recordMessageObservations accepted source).jobs = store.jobs := by
  rw [recordMessageObservations]
  split_ifs
  · refine (foldl_jobs ?_ store.allocateObservationOrder.2 accepted).trans rfl
    exact fun _ _ => rfl
  · refine foldl_jobs ?_ store accepted
    exact fun _ _ => rfl

@[simp] theorem recordMessageDeletions_jobs (store : MessageStore) (dialogId : ℤ)
    (messageIds : List ℤ) :
    (store.recordMessageDeletions dialogId messageIds).2.jobs = store.jobs := by
  rw [recordMessageDeletions]
  dsimp only
  split_ifs
  · rfl
  · refine (foldl_jobs ?_ store.allocateObservationOrder.2 _).trans rfl
    exact fun _ _ => rfl

@[simp] theorem recordNonchannelDeletions_jobs (store : MessageStore) (messageIds : List ℤ)
    (deletedAt : ℤ) : (store.recordNonchannelDeletions messageIds deletedAt).jobs = store.jobs := by
  rw [recordNonchannelDeletions]
  refine foldl_jobs (fun store messageId => ?_) store _
  split <;> rfl

/-! ## The tables that queue writers leave -/

/-- A queue writer leaves the two tables that make an observation obsolete. -/
def KeepsObservations (store store' : MessageStore) : Prop :=
  store'.observations = store.observations ∧
    store'.nonchannelDeletions = store.nonchannelDeletions

theorem removeActiveJob_tables (store : MessageStore) (identity : JobIdentity) :
    KeepsObservations store (store.removeActiveJob identity.1 identity.2) := by
  rw [removeActiveJob]
  split
  · split <;> exact ⟨rfl, rfl⟩
  · exact ⟨rfl, rfl⟩

theorem enqueueRepair_tables (store : MessageStore) (identity : JobIdentity)
    (row : HydrationJobRow) : KeepsObservations store (store.enqueueRepair identity row) := by
  rw [enqueueRepair]
  split <;> exact ⟨rfl, rfl⟩

theorem markTerminal_tables (store : MessageStore) (job : HydrationJob)
    (outcome : HydrationOutcome) : KeepsObservations store (store.markTerminal job outcome).2 := by
  rw [markTerminal]
  split <;> exact ⟨rfl, rfl⟩

theorem reschedule_tables (store : MessageStore) (job : HydrationJob) (dueAt : ℤ)
    (outcome : HydrationOutcome) :
    KeepsObservations store (store.reschedule job dueAt outcome).2 := by
  rw [reschedule]
  split
  · exact ⟨rfl, rfl⟩
  · split <;> exact ⟨rfl, rfl⟩

/-! ## The two refunds -/

/-- A refund gives one attempt of an active row back. -/
structure Refunds (store : MessageStore) (identity : JobIdentity) (store' : MessageStore)
    (row row' : HydrationJobRow) : Prop where
  stored : store.job identity = some row
  attempts : row'.attempts + 1 = row.attempts
  active : row.terminal = false
  terminal : row'.terminal = row.terminal
  written : store' = store.putJob identity row'

theorem requeueUndispatched_spec (h : (store.requeueUndispatched job dueAt).1 = true) :
    ∃ row row', Refunds store job.identity (store.requeueUndispatched job dueAt).2 row row' := by
  unfold requeueUndispatched at h ⊢
  split at h
  · cases h
  · rename_i row hrow
    split at h
    · rename_i hactive
      simp only [if_pos hactive]
      refine ⟨row, { row with
        attempts := row.attempts - 1
        dueAt
        lastOutcome := HydrationOutcome.temporaryFailure.value }, ?_⟩
      exact ⟨hrow, Nat.sub_add_cancel hactive.2, hactive.1, rfl, rfl⟩
    · cases h

theorem requeueNotApplied_spec (h : (store.requeueNotApplied job dueAt).1 = true) :
    ∃ row row', Refunds store job.identity (store.requeueNotApplied job dueAt).2 row row' := by
  unfold requeueNotApplied at h ⊢
  split at h
  · cases h
  · rename_i row hrow
    split at h
    · rename_i hleased
      simp only [if_pos hleased]
      refine ⟨row, { row with
        attempts := row.attempts - 1
        dueAt
        lastOutcome := HydrationOutcome.notApplied.value }, ?_⟩
      exact ⟨hrow, Nat.sub_add_cancel hleased.2, hleased.1.1, rfl, rfl⟩
    · cases h

/-! ## Writers that keep the attempts -/

/-- A writer keeps the attempts of every row that it leaves, and starts no terminal row again. -/
def KeepsAttempts (store store' : MessageStore) : Prop :=
  ∀ identity row', store'.job identity = some row' → ∃ row, store.job identity = some row ∧
    row'.attempts = row.attempts ∧ (row.terminal = true → row'.terminal = true)

theorem KeepsAttempts.refl (store : MessageStore) : KeepsAttempts store store :=
  fun _ row' h => ⟨row', h, rfl, id⟩

theorem KeepsAttempts.of_jobs (h : store'.jobs = store.jobs) : KeepsAttempts store store' := by
  intro identity row' hrow'
  rw [job, h] at hrow'
  exact ⟨row', hrow', rfl, id⟩

/-- An `UPDATE` that sets no attempts and ends no end. -/
theorem KeepsAttempts.of_put {identity : JobIdentity} {row row' : HydrationJobRow}
    (hstored : store.job identity = some row) (hattempts : row'.attempts = row.attempts)
    (hterminal : row.terminal = true → row'.terminal = true) :
    KeepsAttempts store (store.putJob identity row') := by
  intro other written hwritten
  rw [job_putJob] at hwritten
  split_ifs at hwritten with hother
  · obtain rfl := Option.some.inj hwritten
    subst hother
    exact ⟨row, hstored, hattempts, hterminal⟩
  · exact ⟨written, hwritten, rfl, id⟩

theorem removeJob_keepsAttempts (store : MessageStore) (identity : JobIdentity) :
    KeepsAttempts store (store.removeJob identity.1 identity.2) := by
  intro other row' hrow'
  rw [job_removeJob] at hrow'
  split_ifs at hrow'
  exact ⟨row', hrow', rfl, id⟩

theorem removeActiveJob_keepsAttempts (store : MessageStore) (identity : JobIdentity) :
    KeepsAttempts store (store.removeActiveJob identity.1 identity.2) := by
  rw [removeActiveJob]
  split
  · split
    · exact KeepsAttempts.refl store
    · exact removeJob_keepsAttempts store identity
  · exact KeepsAttempts.refl store

theorem removeActiveForDialog_keepsAttempts (store : MessageStore) (dialogId : ℤ) :
    KeepsAttempts store (store.removeActiveForDialog dialogId) := by
  intro identity row' hrow'
  exact ⟨row', Option.eq_some_of_filter_eq_some hrow', rfl, id⟩

theorem removeForMessage_keepsAttempts (store : MessageStore) (key : MessageKey) :
    KeepsAttempts store (store.removeForMessage key) := by
  intro identity row' hrow'
  change (store.jobs identity.1).drop key identity.2 = some row' at hrow'
  rw [Table.drop_apply] at hrow'
  split_ifs at hrow'
  exact ⟨row', hrow', rfl, id⟩

theorem markTerminal_keepsAttempts (store : MessageStore) (job : HydrationJob)
    (outcome : HydrationOutcome) : KeepsAttempts store (store.markTerminal job outcome).2 := by
  rw [markTerminal]
  split
  · exact KeepsAttempts.refl store
  · rename_i row hrow
    exact KeepsAttempts.of_put hrow rfl fun _ => rfl

theorem reschedule_keepsAttempts (store : MessageStore) (job : HydrationJob) (dueAt : ℤ)
    (outcome : HydrationOutcome) : KeepsAttempts store (store.reschedule job dueAt outcome).2 := by
  rw [reschedule]
  split
  · exact KeepsAttempts.refl store
  · rename_i row hrow
    split
    · exact KeepsAttempts.refl store
    · exact KeepsAttempts.of_put hrow rfl id

end MessageStore

end McpTelegram
