import McpTelegram.Hydration.World
import McpTelegram.Hydration.Attempts

/-!
# The account of hydration attempts

In every reachable state the attempts of a queued job are its starts without its refunds, and they
stay within the limit.  A batch refunds each of its starts at most once: an observation that was
found obsolete stays obsolete, so the handler of the batch does not meet its job again.
-/

namespace McpTelegram

open Foundations MessageStore

/-! ## Balanced accounts -/

/-- The attempts of a row agree with the account, and stay within the limit: only a terminal row has
one attempt more than the limit. -/
structure InAccount (maxAttempts starts refunds : ℕ) (row : HydrationJobRow) : Prop where
  account : row.attempts + refunds = starts
  bounded : row.attempts ≤ maxAttempts + 1
  active : row.terminal = false → row.attempts ≤ maxAttempts

namespace HydrationLedger

variable {maxAttempts batch : ℕ} {ledger ledger' ledger'' : HydrationLedger}
  {identity : JobIdentity} {identities identities' : List JobIdentity}

variable {store : MessageStore}

/-- Every queued row agrees with its account. -/
def Balanced (maxAttempts : ℕ) (ledger : HydrationLedger) : Prop :=
  ∀ identity row, ledger.store.job identity = some row →
    InAccount maxAttempts (ledger.starts identity) (ledger.refunds identity) row

/-- A writer that keeps the attempts keeps the balance. -/
theorem Balanced.keep (h : ledger.Balanced maxAttempts) (hkeeps : KeepsAttempts ledger.store store) :
    ({ ledger with store } : HydrationLedger).Balanced maxAttempts := by
  intro identity row' hrow'
  obtain ⟨row, hrow, hattempts, hterminal⟩ := hkeeps identity row' hrow'
  have hbalanced := h identity row hrow
  refine ⟨hattempts ▸ hbalanced.account, hattempts ▸ hbalanced.bounded, fun hactive => ?_⟩
  rw [hattempts]
  refine hbalanced.active ?_
  cases hrowTerminal : row.terminal with
  | false => rfl
  | true => rw [hterminal hrowTerminal] at hactive; cases hactive

/-- Queued work opens an account, or leaves the attempts of the row that is there. -/
theorem Balanced.insert {work : QueuedWork} (h : ledger.Balanced maxAttempts)
    (hjob : ∀ other, ∃ written : HydrationJobRow,
      store.job other =
          (if other = work.identity then some written else ledger.store.job other) ∧
        (ledger.store.job work.identity = none → written = work.row) ∧
        ∀ stored, ledger.store.job work.identity = some stored →
          written.attempts = stored.attempts ∧ written.terminal = stored.terminal) :
    ({ ledger.openAccount work.identity with store } : HydrationLedger).Balanced maxAttempts := by
  intro other row hrow
  obtain ⟨written, hwritten, hfresh, hstored⟩ := hjob other
  replace hrow := hwritten.symm.trans hrow
  cases hold : ledger.store.job work.identity with
  | none =>
    rw [openAccount, if_pos hold]
    by_cases hother : other = work.identity
    · subst hother
      rw [if_pos rfl] at hrow
      obtain rfl := Option.some.inj hrow
      obtain rfl := hfresh hold
      dsimp only
      rw [Function.update_self, Function.update_self]
      exact ⟨rfl, Nat.zero_le _, fun _ => Nat.zero_le _⟩
    · rw [if_neg hother] at hrow
      dsimp only
      rw [Function.update_of_ne hother, Function.update_of_ne hother]
      exact h other row hrow
  | some stored =>
    rw [openAccount, if_neg (by rw [hold]; exact Option.some_ne_none stored)]
    by_cases hother : other = work.identity
    · subst hother
      rw [if_pos rfl] at hrow
      obtain rfl := Option.some.inj hrow
      obtain ⟨hattempts, hterminal⟩ := hstored stored hold
      have hbalanced := h work.identity stored hold
      exact ⟨hattempts ▸ hbalanced.account, hattempts ▸ hbalanced.bounded,
        fun hactive => hattempts ▸ hbalanced.active (hterminal ▸ hactive)⟩
    · rw [if_neg hother] at hrow
      exact h other row hrow

/-! ## Transactions that start nothing -/

/-- A transaction of a batch that starts nothing and refunds at most the named jobs, each once. -/
structure Moves (maxAttempts batch : ℕ) (identities : List JobIdentity)
    (ledger ledger' : HydrationLedger) : Prop where
  balanced : ledger.Balanced maxAttempts → ledger'.Balanced maxAttempts
  started : ledger'.started = ledger.started
  refunded : ∃ new : List JobIdentity, new.Sublist identities ∧
    ledger'.refunded = ledger.refunded ++ new.map (Prod.mk batch)
  outdates : Outdates ledger.store ledger'.store

theorem Moves.refl (ledger : HydrationLedger) : Moves maxAttempts batch [] ledger ledger :=
  ⟨id, rfl, ⟨[], List.Sublist.slnil, (List.append_nil _).symm⟩, Outdates.refl _⟩

theorem Moves.mono (h : Moves maxAttempts batch identities ledger ledger')
    (hsublist : identities.Sublist identities') :
    Moves maxAttempts batch identities' ledger ledger' := by
  obtain ⟨new, hnew, hrefunded⟩ := h.refunded
  exact ⟨h.balanced, h.started, ⟨new, hnew.trans hsublist, hrefunded⟩, h.outdates⟩

theorem Moves.trans (h : Moves maxAttempts batch identities ledger ledger')
    (h' : Moves maxAttempts batch identities' ledger' ledger'') :
    Moves maxAttempts batch (identities ++ identities') ledger ledger'' := by
  obtain ⟨new, hnew, hrefunded⟩ := h.refunded
  obtain ⟨new', hnew', hrefunded'⟩ := h'.refunded
  refine ⟨fun hbalanced => h'.balanced (h.balanced hbalanced), h'.started.trans h.started,
    ⟨new ++ new', hnew.append hnew', ?_⟩, h.outdates.trans h'.outdates⟩
  rw [hrefunded', hrefunded, List.map_append, List.append_assoc]

theorem Moves.foldl {α : Type} {f : HydrationLedger → α → HydrationLedger}
    {touched : α → List JobIdentity}
    (h : ∀ ledger a, Moves maxAttempts batch (touched a) ledger (f ledger a))
    (ledger : HydrationLedger) (as : List α) :
    Moves maxAttempts batch (as.flatMap touched) ledger (as.foldl f ledger) := by
  induction as generalizing ledger with
  | nil => exact Moves.refl ledger
  | cons a as ih => exact (h ledger a).trans (ih (f ledger a))

/-- A round over jobs, each of which may be refunded. -/
theorem Moves.foldl_jobs {f : HydrationLedger → HydrationJob → HydrationLedger}
    (h : ∀ ledger job, Moves maxAttempts batch [job.identity] ledger (f ledger job))
    (ledger : HydrationLedger) (jobs : List HydrationJob) :
    Moves maxAttempts batch (jobs.map HydrationJob.identity) ledger (jobs.foldl f ledger) := by
  rw [List.map_eq_flatMap]
  exact Moves.foldl h ledger jobs

/-- A round that refunds nothing. -/
theorem Moves.foldl_nil {α : Type} {f : HydrationLedger → α → HydrationLedger}
    (h : ∀ ledger a, Moves maxAttempts batch [] ledger (f ledger a)) (ledger : HydrationLedger)
    (as : List α) : Moves maxAttempts batch [] ledger (as.foldl f ledger) := by
  induction as generalizing ledger with
  | nil => exact Moves.refl ledger
  | cons a as ih => exact (h ledger a).trans (ih (f ledger a))

theorem Moves.keep (hkeeps : KeepsAttempts ledger.store store)
    (houtdates : Outdates ledger.store store) :
    Moves maxAttempts batch [] ledger { ledger with store } :=
  ⟨fun h => h.keep hkeeps, rfl, ⟨[], List.Sublist.slnil, (List.append_nil _).symm⟩, houtdates⟩

theorem openAccount_started (ledger : HydrationLedger) (identity : JobIdentity) :
    (ledger.openAccount identity).started = ledger.started ∧
      (ledger.openAccount identity).refunded = ledger.refunded := by
  rw [openAccount]
  split_ifs <;> exact ⟨rfl, rfl⟩

/-- A write of another component. -/
theorem write_moves (ledger : HydrationLedger) (write : QueueWrite) :
    Moves maxAttempts batch [] ledger (ledger.write write) := by
  cases write with
  | enqueue work =>
    obtain ⟨hstarted, hrefunded⟩ := openAccount_started ledger work.identity
    exact ⟨fun h => h.insert fun other => job_enqueue _ _ other _, hstarted,
      ⟨[], List.Sublist.slnil, hrefunded.trans (List.append_nil _).symm⟩,
      Outdates.of_tables rfl rfl⟩
  | enqueueRepair work =>
    obtain ⟨hstarted, hrefunded⟩ := openAccount_started ledger work.identity
    refine ⟨fun h => h.insert fun other => ?_, hstarted,
      ⟨[], List.Sublist.slnil, hrefunded.trans (List.append_nil _).symm⟩, ?_⟩
    · exact job_enqueueRepair _ _ other _
    · exact Outdates.of_tables (enqueueRepair_tables _ _ _).1 (enqueueRepair_tables _ _ _).2
  | remove identity =>
    exact Moves.keep (removeJob_keepsAttempts _ identity) (Outdates.of_tables rfl rfl)
  | removeActive identity =>
    exact Moves.keep (removeActiveJob_keepsAttempts _ identity)
      (Outdates.of_tables (removeActiveJob_tables _ _).1 (removeActiveJob_tables _ _).2)
  | removeActiveForDialog dialogId =>
    exact Moves.keep (removeActiveForDialog_keepsAttempts _ dialogId) (Outdates.of_tables rfl rfl)
  | removeForMessage key =>
    exact Moves.keep (removeForMessage_keepsAttempts _ key) (Outdates.of_tables rfl rfl)
  | recordObservations accepted source =>
    exact Moves.keep (KeepsAttempts.of_jobs (recordMessageObservations_jobs _ _ _))
      (recordMessageObservations_outdates _ accepted source)
  | recordDeletions dialogId messageIds =>
    exact Moves.keep (KeepsAttempts.of_jobs (recordMessageDeletions_jobs _ _ _))
      (recordMessageDeletions_outdates _ dialogId messageIds)
  | recordNonchannelDeletions messageIds deletedAt =>
    exact Moves.keep (KeepsAttempts.of_jobs (recordNonchannelDeletions_jobs _ _ _))
      (recordNonchannelDeletions_outdates _ messageIds deletedAt)

/-- A refund. -/
theorem refund_moves {result : Bool × MessageStore}
    (h : result.1 = true → ∃ row row', Refunds ledger.store identity result.2 row row') :
    Moves maxAttempts batch [identity] ledger (ledger.refund batch identity result) := by
  rw [refund]
  split
  · rename_i hdone
    obtain ⟨row, row', hrefunds⟩ := h hdone
    refine ⟨fun hbalanced other written hwritten => ?_, rfl,
      ⟨[identity], List.Sublist.refl _, rfl⟩, ?_⟩
    · dsimp only at hwritten ⊢
      rw [hrefunds.written, job_putJob] at hwritten
      by_cases hother : other = identity
      · subst hother
        rw [if_pos rfl] at hwritten
        obtain rfl := Option.some.inj hwritten
        rw [Function.update_self]
        have hrow := hbalanced other row hrefunds.stored
        have hattempts := hrefunds.attempts
        have haccount := hrow.account
        have hactive := hrow.active hrefunds.active
        exact ⟨by omega, by omega, fun _ => by omega⟩
      · rw [if_neg hother] at hwritten
        rw [Function.update_of_ne hother]
        exact hbalanced other written hwritten
    · dsimp only
      rw [hrefunds.written]
      exact Outdates.of_tables rfl rfl
  · exact (Moves.refl ledger).mono (List.nil_sublist _)

theorem requeueUndispatched_moves (ledger : HydrationLedger) (job : HydrationJob) (dueAt : ℤ) :
    Moves maxAttempts batch [job.identity] ledger
      (ledger.requeueUndispatched batch job dueAt) :=
  refund_moves requeueUndispatched_spec

theorem requeueNotApplied_moves (ledger : HydrationLedger) (job : HydrationJob) (dueAt : ℤ) :
    Moves maxAttempts batch [job.identity] ledger (ledger.requeueNotApplied batch job dueAt) :=
  refund_moves requeueNotApplied_spec

theorem markTerminal_moves (ledger : HydrationLedger) (job : HydrationJob)
    (outcome : HydrationOutcome) :
    Moves maxAttempts batch [] ledger (ledger.markTerminal job outcome) :=
  Moves.keep (markTerminal_keepsAttempts _ job outcome)
    (Outdates.of_tables (markTerminal_tables _ _ _).1 (markTerminal_tables _ _ _).2)

theorem reschedule_moves (ledger : HydrationLedger) (job : HydrationJob) (dueAt : ℤ)
    (outcome : HydrationOutcome) :
    Moves maxAttempts batch [] ledger (ledger.reschedule job dueAt outcome) :=
  Moves.keep (reschedule_keepsAttempts _ job dueAt outcome)
    (Outdates.of_tables (reschedule_tables _ _ _ _).1 (reschedule_tables _ _ _ _).2)

theorem remove_moves (ledger : HydrationLedger) (job : HydrationJob) :
    Moves maxAttempts batch [] ledger (ledger.remove job) :=
  Moves.keep (removeJob_keepsAttempts _ job.identity) (Outdates.of_tables rfl rfl)

/-! ## The transactions of a batch -/

theorem refund_current (ledger : HydrationLedger) (job : HydrationJob) (key : MessageKey)
    (order : Option ℤ) :
    (ledger.requeueNotApplied batch job job.dueAt).store.hydrationObservationCurrent key order =
      ledger.store.hydrationObservationCurrent key order := by
  rw [requeueNotApplied, refund]
  split
  · rename_i hdone
    obtain ⟨row, row', hrefunds⟩ := requeueNotApplied_spec hdone
    dsimp only
    rw [hrefunds.written]
    exact hydrationObservationCurrent_congr rfl rfl key order
  · rfl

/-- The obsolete observations are told apart before any of them is refunded. -/
theorem requeueObsoleteObservations_eq (ledger : HydrationLedger) (order : ℤ)
    (jobs : List HydrationJob) :
    ledger.requeueObsoleteObservations batch order jobs =
      (jobs.filter fun job =>
          !ledger.store.hydrationObservationCurrent job.key (some order)).foldl
        (fun ledger job => ledger.requeueNotApplied batch job job.dueAt) ledger := by
  induction jobs generalizing ledger with
  | nil => rfl
  | cons job jobs ih =>
    rw [requeueObsoleteObservations, List.foldl_cons, ← requeueObsoleteObservations, ih]
    cases hcurrent : ledger.store.hydrationObservationCurrent job.key (some order) with
    | true =>
      rw [if_pos rfl, List.filter_cons_of_neg (by simp [hcurrent])]
    | false =>
      rw [if_neg Bool.false_ne_true, List.filter_cons_of_pos (by simp [hcurrent]),
        List.foldl_cons]
      simp only [refund_current]

theorem requeueObsoleteObservations_moves (ledger : HydrationLedger) (order : ℤ)
    (jobs : List HydrationJob) :
    Moves maxAttempts batch
      ((jobs.filter fun job =>
        !ledger.store.hydrationObservationCurrent job.key (some order)).map HydrationJob.identity)
      ledger (ledger.requeueObsoleteObservations batch order jobs) := by
  rw [requeueObsoleteObservations_eq]
  exact Moves.foldl_jobs (fun ledger job => requeueNotApplied_moves ledger job job.dueAt) ledger _

theorem releaseUndispatched_moves (ledger : HydrationLedger) (jobs : List HydrationJob)
    (dueAt : Option ℤ) :
    Moves maxAttempts batch (jobs.map HydrationJob.identity) ledger
      (ledger.releaseUndispatched batch jobs dueAt) :=
  Moves.foldl_jobs (fun ledger job => requeueUndispatched_moves ledger job _) ledger jobs

/-- A failure handler refunds current jobs only, each of them at most once. -/
theorem handleBatchError_moves (ledger : HydrationLedger) (order : ℤ)
    (started : List HydrationJob) (effectiveNow : ℤ) (failure : HydrationFailure) :
    Moves maxAttempts batch ((ledger.currentJobs order started).map HydrationJob.identity) ledger
      (ledger.handleBatchError batch order started effectiveNow failure) := by
  cases failure with
  | admissionRejected => exact releaseUndispatched_moves ledger _ none
  | throttled budgeted dispatched =>
    rw [handleBatchError]
    split_ifs
    · exact releaseUndispatched_moves ledger _ none
    · exact (Moves.refl ledger).mono (List.nil_sublist _)
  | admissionClosed => exact releaseUndispatched_moves ledger _ (some effectiveNow)
  | accessLost accepted =>
    refine Moves.mono (Moves.foldl_nil (fun ledger dialogId => ?_) ledger _) (List.nil_sublist _)
    split_ifs
    · exact write_moves ledger _
    · exact Moves.refl ledger
  | requestError terminal =>
    cases terminal with
    | true =>
      exact Moves.mono
        (Moves.foldl_nil (fun ledger job => markTerminal_moves ledger job _) ledger _)
        (List.nil_sublist _)
    | false =>
      exact Moves.foldl_jobs (fun ledger job => requeueNotApplied_moves ledger job job.dueAt)
        ledger _

/-- The leased jobs are among the started ones. -/
theorem leasedMediaJobs_moves (eligible : HydrationJob → Bool) (jobs : List HydrationJob)
    (ledger : HydrationLedger) :
    (ledger.leasedMediaJobs eligible jobs).1.Sublist jobs ∧
      Moves maxAttempts batch [] ledger (ledger.leasedMediaJobs eligible jobs).2 := by
  suffices hgeneral : ∀ (current : List HydrationJob) (ledger : HydrationLedger),
      let final := jobs.foldl (fun pair job =>
        if pair.2.mediaJobLeased job = false then (pair.1, pair.2)
        else if eligible job then (pair.1 ++ [job], pair.2)
        else (pair.1, pair.2.remove job)) (current, ledger)
      (∃ kept : List HydrationJob, kept.Sublist jobs ∧ final.1 = current ++ kept) ∧
        Moves maxAttempts batch [] ledger final.2 by
    obtain ⟨⟨kept, hkept, hfinal⟩, hmoves⟩ := hgeneral [] ledger
    exact ⟨hfinal.symm ▸ hkept, hmoves⟩
  induction jobs with
  | nil => exact fun current ledger =>
      ⟨⟨[], List.Sublist.slnil, (List.append_nil _).symm⟩, Moves.refl ledger⟩
  | cons job jobs ih =>
    intro current ledger
    dsimp only
    rw [List.foldl_cons]
    dsimp only
    split_ifs with hleased heligible
    · obtain ⟨⟨kept, hkept, hfinal⟩, hmoves⟩ := ih current ledger
      exact ⟨⟨kept, hkept.cons job, hfinal⟩, hmoves⟩
    · obtain ⟨⟨kept, hkept, hfinal⟩, hmoves⟩ := ih (current ++ [job]) ledger
      refine ⟨⟨job :: kept, hkept.cons_cons job, ?_⟩, hmoves⟩
      rw [hfinal, List.append_assoc, List.singleton_append]
    · obtain ⟨⟨kept, hkept, hfinal⟩, hmoves⟩ := ih current (ledger.remove job)
      exact ⟨⟨kept, hkept.cons job, hfinal⟩, (remove_moves ledger job).trans hmoves⟩

theorem applyMedia_moves (ledger : HydrationLedger) (valid : Bool) (response accepted : ℤ → Bool)
    (transcribable : ℤ → Option QueuedWork) (superseded : MessageKey → Bool) (job : HydrationJob) :
    Moves maxAttempts batch [job.identity] ledger
      (ledger.applyMedia batch valid response accepted transcribable superseded job) := by
  rw [applyMedia, dropUnavailableMedia]
  split_ifs
  · exact requeueNotApplied_moves ledger job job.dueAt
  · exact (markTerminal_moves ledger job _).mono (List.nil_sublist _)
  · exact requeueNotApplied_moves ledger job job.dueAt
  · split
    · exact (remove_moves ledger job).mono (List.nil_sublist _)
    · exact ((remove_moves ledger job).trans (write_moves _ _)).mono (List.nil_sublist _)

theorem rescheduleOrDrop_moves (ledger : HydrationLedger) (jobs : List HydrationJob) (dueAt : ℤ)
    (outcome : HydrationOutcome) :
    Moves maxAttempts batch [] ledger
      (ledger.rescheduleOrDrop maxAttempts jobs dueAt outcome) := by
  refine Moves.foldl_nil (fun ledger job => ?_) ledger jobs
  split_ifs
  · exact markTerminal_moves ledger job _
  · exact reschedule_moves ledger job dueAt outcome

/-- A media result refunds started jobs, each at most once. -/
theorem applyBatchResult_moves (ledger : HydrationLedger) (order : ℤ)
    (started : List HydrationJob) (retryAt : ℤ) (result : HydrationResult) :
    Moves maxAttempts batch (started.map HydrationJob.identity) ledger
      (ledger.applyBatchResult maxAttempts batch order started retryAt result) := by
  cases result with
  | media published accepted valid response transcribable eligible =>
    have hleased : (ledger.leasedMediaJobs eligible started).1.Sublist started ∧
        Moves maxAttempts batch [] ledger (ledger.leasedMediaJobs eligible started).2 :=
      leasedMediaJobs_moves eligible started ledger
    have hpublished : Moves maxAttempts batch [] (ledger.leasedMediaJobs eligible started).2
        (published.foldl write (ledger.leasedMediaJobs eligible started).2) :=
      Moves.foldl_nil (fun ledger write => write_moves ledger write) _ published
    exact ((hleased.2.trans hpublished).trans (Moves.foldl_jobs
      (fun ledger job => applyMedia_moves ledger valid response accepted transcribable _ job)
      _ _)).mono (hleased.1.map _)
  | transcriptionPending =>
    exact (rescheduleOrDrop_moves ledger _ retryAt _).mono (List.nil_sublist _)
  | transcriptionInvalid =>
    refine Moves.mono ?_ (List.nil_sublist _)
    rw [applyBatchResult]
    split
    · exact Moves.refl ledger
    · exact markTerminal_moves ledger _ _
  | transcription applied =>
    refine Moves.mono ?_ (List.nil_sublist _)
    rw [applyBatchResult]
    split
    · exact Moves.refl ledger
    · exact remove_moves ledger _

/-- A transcription result refunds nothing. -/
theorem applyBatchResult_transcription (ledger : HydrationLedger) (order : ℤ)
    (started : List HydrationJob) (retryAt : ℤ) {result : HydrationResult}
    (hkind : result.kind = .transcription) :
    (ledger.applyBatchResult maxAttempts batch order started retryAt result).refunded =
      ledger.refunded := by
  have hnone : ∀ {ledger'}, Moves maxAttempts batch [] ledger ledger' →
      ledger'.refunded = ledger.refunded := by
    intro ledger' hmoves
    obtain ⟨new, hnew, hrefunded⟩ := hmoves.refunded
    rw [hrefunded, List.sublist_nil.mp hnew, List.map_nil, List.append_nil]
  cases result with
  | media => cases hkind
  | transcriptionPending => exact hnone (rescheduleOrDrop_moves ledger _ retryAt _)
  | transcriptionInvalid =>
    rw [applyBatchResult]
    split
    · rfl
    · exact hnone (markTerminal_moves ledger _ _)
  | transcription applied =>
    rw [applyBatchResult]
    split
    · rfl
    · exact hnone (remove_moves ledger _)

/-! ## The start of a batch -/

theorem toJob_identity (row : HydrationJobRow) (identity : JobIdentity) :
    (row.toJob identity).identity = identity := rfl

/-- A start takes an active row, and counts it. -/
structure Starts (maxAttempts batch : ℕ) (job current : HydrationJob)
    (ledger ledger' : HydrationLedger) : Prop where
  identity : current.identity = job.identity
  stored : ∃ row, ledger.store.job job.identity = some row ∧ row.terminal = false
  started : ledger'.started = ledger.started ++ [(batch, job.identity)]
  refunded : ledger'.refunded = ledger.refunded
  observations : KeepsObservations ledger.store ledger'.store
  others : ∀ other, other ≠ job.identity → ledger'.store.job other = ledger.store.job other
  /-- Once the exhausted job is terminal, the balance is kept. -/
  exhausted : maxAttempts < current.attempts → ledger.Balanced maxAttempts →
    (ledger'.markTerminal current .exhausted).Balanced maxAttempts
  balanced : ¬ maxAttempts < current.attempts → ledger.Balanced maxAttempts →
    ledger'.Balanced maxAttempts

theorem start_spec (ledger : HydrationLedger) (job : HydrationJob) :
    ledger.start batch job = (none, ledger) ∨ ∃ current ledger',
      ledger.start batch job = (some current, ledger') ∧
        Starts maxAttempts batch job current ledger ledger' := by
  cases hrow : ledger.store.job job.identity with
  | none => exact Or.inl (by rw [start, startJob, hrow])
  | some row =>
    cases hterminal : row.terminal with
    | true =>
      refine Or.inl ?_
      rw [start, startJob, hrow]
      dsimp only
      rw [if_pos hterminal]
    | false =>
      have hstart : ledger.start batch job = (some (row.started.toJob job.identity),
          { ledger with
            store := ledger.store.putJob job.identity row.started
            starts := Function.update ledger.starts job.identity (ledger.starts job.identity + 1)
            started := ledger.started ++ [(batch, job.identity)] }) := by
        rw [start, startJob, hrow]
        dsimp only
        rw [if_neg (by simp [hterminal])]
      refine Or.inr ⟨_, _, hstart, ⟨rfl, ⟨row, hrow, hterminal⟩, rfl, rfl, ⟨rfl, rfl⟩, ?_, ?_, ?_⟩⟩
      · intro other hother
        exact (job_putJob _ _ _ _).trans (if_neg hother)
      · intro hexhausted hbalanced other written hwritten
        have hself : (ledger.store.putJob job.identity row.started).job job.identity =
            some row.started := (job_putJob _ _ _ _).trans (if_pos rfl)
        simp only [markTerminal, MessageStore.markTerminal, toJob_identity, hself] at hwritten
        rw [job_putJob] at hwritten
        by_cases hother : other = job.identity
        · subst hother
          rw [if_pos rfl] at hwritten
          obtain rfl := Option.some.inj hwritten
          have hold := hbalanced job.identity row hrow
          have haccount := hold.account
          have hactive := hold.active hterminal
          refine ⟨?_, Nat.succ_le_succ hactive, fun h => absurd h (by simp)⟩
          simp only [markTerminal, Function.update_self, HydrationJobRow.started]
          omega
        · rw [if_neg hother, job_putJob, if_neg hother] at hwritten
          simp only [markTerminal, Function.update_of_ne hother]
          exact hbalanced other written hwritten
      · intro hlimit hbalanced other written hwritten
        dsimp only at hwritten ⊢
        rw [job_putJob] at hwritten
        by_cases hother : other = job.identity
        · subst hother
          rw [if_pos rfl] at hwritten
          obtain rfl := Option.some.inj hwritten
          have hold := hbalanced job.identity row hrow
          have haccount := hold.account
          have hactive := hold.active hterminal
          rw [Function.update_self]
          refine ⟨?_, Nat.succ_le_succ hactive, fun _ => not_lt.mp hlimit⟩
          simp only [HydrationJobRow.started]
          omega
        · rw [if_neg hother] at hwritten
          rw [Function.update_of_ne hother]
          exact hbalanced other written hwritten

/-- The identity has no active row. -/
def Closed (ledger : HydrationLedger) (identity : JobIdentity) : Prop :=
  ∀ row, ledger.store.job identity = some row → row.terminal = true

/-- What rounds of `_start_batch` over jobs leave. -/
structure StartRounds (maxAttempts batch : ℕ) (jobs : List HydrationJob)
    (state state' : List HydrationJob × HydrationLedger) : Prop where
  balanced : state.2.Balanced maxAttempts → state'.2.Balanced maxAttempts
  refunded : state'.2.refunded = state.2.refunded
  outdates : Outdates state.2.store state'.2.store
  jobs : ∃ kept new : List JobIdentity, kept.Sublist new ∧ new.Sublist
      (jobs.map HydrationJob.identity) ∧
    state'.1.map HydrationJob.identity = state.1.map HydrationJob.identity ++ kept ∧
    state'.2.started = state.2.started ++ new.map (Prod.mk batch)
  closed : ∀ identity, state.2.Closed identity → state'.2.Closed identity ∧
    ∀ n, (n, identity) ∈ state'.2.started → (n, identity) ∈ state.2.started

theorem StartRounds.trans {job : HydrationJob} {jobs : List HydrationJob}
    {state state' state'' : List HydrationJob × HydrationLedger}
    (h : StartRounds maxAttempts batch [job] state state')
    (h' : StartRounds maxAttempts batch jobs state' state'') :
    StartRounds maxAttempts batch (job :: jobs) state state'' := by
  obtain ⟨kept, new, hkept, hnew, hjobs, hstarted⟩ := h.jobs
  obtain ⟨kept', new', hkept', hnew', hjobs', hstarted'⟩ := h'.jobs
  refine ⟨fun hbalanced => h'.balanced (h.balanced hbalanced), h'.refunded.trans h.refunded,
    h.outdates.trans h'.outdates, ⟨kept ++ kept', new ++ new', hkept.append hkept', ?_, ?_, ?_⟩,
    fun identity hclosed => ?_⟩
  · simpa using hnew.append hnew'
  · rw [hjobs', hjobs, List.append_assoc]
  · rw [hstarted', hstarted, List.map_append, List.append_assoc]
  · obtain ⟨hclosed, hmem⟩ := h.closed identity hclosed
    obtain ⟨hclosed', hmem'⟩ := h'.closed identity hclosed
    exact ⟨hclosed', fun n hn => hmem n (hmem' n hn)⟩

theorem Closed.keep (h : ledger.Closed identity) (hkeeps : KeepsAttempts ledger.store store) :
    ({ ledger with store } : HydrationLedger).Closed identity := by
  intro row' hrow'
  obtain ⟨row, hrow, -, hterminal⟩ := hkeeps identity row' hrow'
  exact hterminal (h row hrow)

/-- One round. -/
theorem startRound_spec (eligible : HydrationJob → Bool) (job : HydrationJob)
    (state : List HydrationJob × HydrationLedger) :
    StartRounds maxAttempts batch [job] state
      (startRound maxAttempts eligible batch state job) := by
  obtain ⟨started, ledger⟩ := state
  have hnone : ∀ {ledger' : HydrationLedger}, Moves maxAttempts batch [] ledger ledger' →
      ledger'.refunded = ledger.refunded →
      (∀ identity, ledger.Closed identity → ledger'.Closed identity) →
      StartRounds maxAttempts batch [job] (started, ledger) (started, ledger') := by
    intro ledger' hmoves hrefunded hclosed
    refine ⟨hmoves.balanced, hrefunded, hmoves.outdates,
      ⟨[], [], List.Sublist.slnil, List.nil_sublist _, by simp, by simp [hmoves.started]⟩,
      fun identity h => ⟨hclosed identity h, fun n hn => ?_⟩⟩
    rwa [← hmoves.started]
  rw [startRound]
  split_ifs
  · exact hnone (remove_moves ledger job) rfl fun identity h =>
      h.keep (removeJob_keepsAttempts _ job.identity)
  · rcases @start_spec maxAttempts batch ledger job with
      hstart | ⟨current, ledger', hstart, hstarts⟩
    · rw [hstart]
      exact hnone (Moves.refl ledger) rfl fun _ h => h
    · rw [hstart]
      dsimp only
      have hclosed : ∀ identity, ledger.Closed identity → ledger'.Closed identity ∧
          ∀ n, (n, identity) ∈ ledger'.started → (n, identity) ∈ ledger.started := by
        intro identity h
        have hother : identity ≠ job.identity := by
          rintro rfl
          obtain ⟨row, hrow, hactive⟩ := hstarts.stored
          rw [h row hrow] at hactive
          cases hactive
        refine ⟨fun row hrow => h row ((hstarts.others identity hother).symm.trans hrow),
          fun n hn => ?_⟩
        rw [hstarts.started, List.mem_append, List.mem_singleton, Prod.mk.injEq] at hn
        exact hn.resolve_right fun h => hother h.2
      split_ifs with hlimit
      · refine ⟨hstarts.exhausted hlimit, hstarts.refunded,
          (Outdates.of_tables hstarts.observations.1 hstarts.observations.2).trans
            (@markTerminal_moves maxAttempts batch ledger' current .exhausted).outdates,
          ⟨[], [job.identity], List.nil_sublist _, List.Sublist.refl _, by simp,
            hstarts.started⟩, fun identity h => ?_⟩
        exact ⟨(hclosed identity h).1.keep (markTerminal_keepsAttempts _ _ _),
          (hclosed identity h).2⟩
      · exact ⟨hstarts.balanced hlimit, hstarts.refunded,
          Outdates.of_tables hstarts.observations.1 hstarts.observations.2,
          ⟨[job.identity], [job.identity], List.Sublist.refl _, List.Sublist.refl _,
            by simp [hstarts.identity], hstarts.started⟩, hclosed⟩

/-- All rounds. -/
theorem startRounds_spec (eligible : HydrationJob → Bool) (jobs : List HydrationJob)
    (state : List HydrationJob × HydrationLedger) :
    StartRounds maxAttempts batch jobs state
      (jobs.foldl (startRound maxAttempts eligible batch) state) := by
  induction jobs generalizing state with
  | nil =>
    exact ⟨id, rfl, Outdates.refl _,
      ⟨[], [], List.Sublist.slnil, List.Sublist.slnil, by simp, by simp⟩,
      fun identity h => ⟨h, fun n hn => hn⟩⟩
  | cons job jobs ih => exact (startRound_spec eligible job state).trans (ih _)

end HydrationLedger

end McpTelegram
