import McpTelegram.Messages.Hydration

/-!
# The attempts of hydration jobs

The writers of `hydration_queue.py` that start a queued job and answer the start: `start`,
`reschedule`, the two refunds, `mark_terminal` and the removals.  They work on the queue of the
message store; `last_error_code` is left out, because nothing reads it.
-/

namespace McpTelegram

open Foundations

/-- `_identity`: the primary key of `hydration_jobs`. -/
abbrev JobIdentity := HydrationKind × MessageKey

/-- `HydrationJob`: one row of the queue, as a caller holds it. -/
structure HydrationJob where
  kind : HydrationKind
  key : MessageKey
  dueAt : ℤ
  attempts : ℕ
  messageSentAt : ℤ
  priority : ℤ
  terminal : Bool
  deriving DecidableEq

/-- `_identity`. -/
def HydrationJob.identity (job : HydrationJob) : JobIdentity := (job.kind, job.key)

/-- `_job_from_row`. -/
def HydrationJobRow.toJob (row : HydrationJobRow) (identity : JobIdentity) : HydrationJob where
  kind := identity.1
  key := identity.2
  dueAt := row.dueAt
  attempts := row.attempts
  messageSentAt := row.messageSentAt
  priority := row.priority
  terminal := row.terminal

/-- `HydrationOutcome`. -/
inductive HydrationOutcome where
  | processing | notApplied | telegramPending | temporaryFailure | terminalError | exhausted
  deriving DecidableEq

/-- The text of an outcome in `last_outcome`. -/
def HydrationOutcome.value : HydrationOutcome → String
  | processing => "processing"
  | notApplied => "not_applied"
  | telegramPending => "telegram_pending"
  | temporaryFailure => "temporary_failure"
  | terminalError => "terminal_error"
  | exhausted => "exhausted"

/-- The row that a start leaves. -/
def HydrationJobRow.started (row : HydrationJobRow) : HydrationJobRow :=
  { row with
    attempts := row.attempts + 1
    lastOutcome := HydrationOutcome.processing.value }

/-- The row is still the one that the start of the job left. -/
def HydrationJobRow.LeasedBy (row : HydrationJobRow) (job : HydrationJob) : Prop :=
  row.terminal = false ∧ row.attempts = job.attempts ∧ row.dueAt = job.dueAt ∧
    row.lastOutcome = HydrationOutcome.processing.value

instance (row : HydrationJobRow) (job : HydrationJob) : Decidable (row.LeasedBy job) :=
  instDecidableAnd

namespace MessageStore

variable (store : MessageStore)

/-- The queue row of an identity. -/
def job (identity : JobIdentity) : Option HydrationJobRow := store.jobs identity.1 identity.2

/-- An `UPDATE` of the queue row of an identity. -/
def putJob (identity : JobIdentity) (row : HydrationJobRow) : MessageStore :=
  { store with
    jobs := Function.update store.jobs identity.1 ((store.jobs identity.1).put identity.2 row) }

/-- `HydrationQueueRepository.start`: the started job, if the row is there and active. -/
def startJob (job : HydrationJob) : Option HydrationJob × MessageStore :=
  match store.job job.identity with
  | none => (none, store)
  | some row =>
    if row.terminal then (none, store)
    else (some (row.started.toJob job.identity), store.putJob job.identity row.started)

/-- `HydrationQueueRepository.reschedule`: whether the row was there and active. -/
def reschedule (job : HydrationJob) (dueAt : ℤ) (outcome : HydrationOutcome) :
    Bool × MessageStore :=
  match store.job job.identity with
  | none => (false, store)
  | some row =>
    if row.terminal then (false, store)
    else (true, store.putJob job.identity { row with dueAt, lastOutcome := outcome.value })

/-- `HydrationQueueRepository.requeue_undispatched`: whether a start was refunded. -/
def requeueUndispatched (job : HydrationJob) (dueAt : ℤ) : Bool × MessageStore :=
  match store.job job.identity with
  | none => (false, store)
  | some row =>
    if row.terminal = false ∧ 0 < row.attempts then
      (true, store.putJob job.identity
        { row with
          attempts := row.attempts - 1
          dueAt
          lastOutcome := HydrationOutcome.temporaryFailure.value })
    else (false, store)

/-- `HydrationQueueRepository.requeue_not_applied`: whether a start was refunded. -/
def requeueNotApplied (job : HydrationJob) (dueAt : ℤ) : Bool × MessageStore :=
  match store.job job.identity with
  | none => (false, store)
  | some row =>
    if row.LeasedBy job ∧ 0 < row.attempts then
      (true, store.putJob job.identity
        { row with
          attempts := row.attempts - 1
          dueAt
          lastOutcome := HydrationOutcome.notApplied.value })
    else (false, store)

/-- `HydrationQueueRepository.mark_terminal`. -/
def markTerminal (job : HydrationJob) (outcome : HydrationOutcome) : Bool × MessageStore :=
  match store.job job.identity with
  | none => (false, store)
  | some row =>
    (true, store.putJob job.identity { row with terminal := true, lastOutcome := outcome.value })

/-- `HydrationQueueRepository.remove_active_for_dialog`. -/
def removeActiveForDialog (dialogId : ℤ) : MessageStore :=
  { store with
    jobs := fun kind key =>
      (store.jobs kind key).filter fun row => ¬ (key.dialogId = dialogId ∧ row.terminal = false) }

/-- The `INSERT OR IGNORE` of `_enqueue_repair_rows`. -/
def enqueueRepair (identity : JobIdentity) (row : HydrationJobRow) : MessageStore :=
  match store.job identity with
  | none => store.putJob identity row
  | some _ => store

/-! ## What the writers do to one row -/

variable {store : MessageStore} {identity other : JobIdentity}

theorem job_putJob (store : MessageStore) (identity other : JobIdentity) (row : HydrationJobRow) :
    (store.putJob identity row).job other =
      if other = identity then some row else store.job other := by
  obtain ⟨kind, key⟩ := identity
  obtain ⟨kind', key'⟩ := other
  change Function.update store.jobs kind ((store.jobs kind).put key row) kind' key' = _
  rw [Function.update_apply]
  by_cases hkind : kind' = kind
  · subst hkind
    simp [Table.put_apply, job]
  · rw [if_neg hkind, if_neg fun h => hkind (congrArg Prod.fst h), job]

theorem job_removeJob (store : MessageStore) (identity other : JobIdentity) :
    (store.removeJob identity.1 identity.2).job other =
      if other = identity then none else store.job other := by
  obtain ⟨kind, key⟩ := identity
  obtain ⟨kind', key'⟩ := other
  change Function.update store.jobs kind ((store.jobs kind).drop key) kind' key' = _
  rw [Function.update_apply]
  by_cases hkind : kind' = kind
  · subst hkind
    simp [Table.drop_apply, job]
  · rw [if_neg hkind, if_neg fun h => hkind (congrArg Prod.fst h), job]

/-- An enqueue inserts the job, or leaves the attempts and the end of the row that is there. -/
theorem job_enqueue (store : MessageStore) (identity other : JobIdentity) (row : HydrationJobRow) :
    ∃ written : HydrationJobRow,
      (store.enqueue identity.1 identity.2 row).job other =
          (if other = identity then some written else store.job other) ∧
        (store.job identity = none → written = row) ∧
        ∀ stored, store.job identity = some stored →
          written.attempts = stored.attempts ∧ written.terminal = stored.terminal := by
  refine ⟨_, job_putJob store identity other _, fun habsent => ?_, fun stored hstored => ?_⟩
  · rw [job] at habsent
    rw [habsent]
  · rw [job] at hstored
    rw [hstored]
    exact ⟨rfl, rfl⟩

/-- A repair inserts the job, or leaves the row that is there. -/
theorem job_enqueueRepair (store : MessageStore) (identity other : JobIdentity)
    (row : HydrationJobRow) :
    ∃ written : HydrationJobRow,
      (store.enqueueRepair identity row).job other =
          (if other = identity then some written else store.job other) ∧
        (store.job identity = none → written = row) ∧
        ∀ stored, store.job identity = some stored →
          written.attempts = stored.attempts ∧ written.terminal = stored.terminal := by
  rw [enqueueRepair]
  split
  · rename_i habsent
    refine ⟨row, job_putJob store identity other row, fun _ => rfl, fun stored hstored => ?_⟩
    rw [habsent] at hstored
    cases hstored
  · rename_i found hfound
    refine ⟨found, ?_, fun habsent => ?_, fun stored hstored => ?_⟩
    · split_ifs with hother
      · rw [hother, hfound]
      · rfl
    · rw [hfound] at habsent
      cases habsent
    · rw [hfound] at hstored
      obtain rfl := Option.some.inj hstored
      exact ⟨rfl, rfl⟩

end MessageStore

end McpTelegram
