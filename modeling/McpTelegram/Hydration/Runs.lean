import McpTelegram.Hydration.Accounting

/-!
# Runs of the hydration worker

The account over whole runs: any interleaving of the writers with the transactions of any number of
batches.
-/

namespace McpTelegram

open Foundations MessageStore HydrationLedger

namespace HydrationWorld

variable {maxAttempts : ℕ} {world world' : HydrationWorld}
variable {ledger : HydrationLedger} {number : ℕ} {identities : List JobIdentity}
    {batch : FlyingBatch} {kind : HydrationKind} {started : List HydrationJob}

/-- A batch under way: its starts are on record, and a start that is refunded already belongs to an
obsolete observation. -/
structure Flies (ledger : HydrationLedger) (nextBatch number : ℕ) (batch : FlyingBatch) : Prop where
  issued : number < nextBatch
  distinct : (batch.started.map HydrationJob.identity).Nodup
  started : ∀ job ∈ batch.started, (number, job.identity) ∈ ledger.started
  refunded : ∀ job ∈ batch.started, (number, job.identity) ∈ ledger.refunded →
    batch.swept ≠ none ∧ (batch.kind = .mediaMetadata → batch.swept = some true) ∧
      ledger.store.hydrationObservationCurrent job.key (some batch.order) = false

/-- The invariant of the reachable worlds. -/
structure Accounted (maxAttempts : ℕ) (world : HydrationWorld) : Prop where
  balanced : world.ledger.Balanced maxAttempts
  startedNodup : world.ledger.started.Nodup
  refundedNodup : world.ledger.refunded.Nodup
  refunded_started : ∀ entry ∈ world.ledger.refunded, entry ∈ world.ledger.started
  started_lt : ∀ entry ∈ world.ledger.started, entry.1 < world.nextBatch
  flying : ∀ number batch, world.flying.lookup number = some batch →
    Flies world.ledger world.nextBatch number batch

/-- The empty queue is accounted for. -/
theorem accounted_empty : Accounted maxAttempts {} where
  balanced := fun _ _ h => absurd h (by simp [MessageStore.job])
  startedNodup := List.nodup_nil
  refundedNodup := List.nodup_nil
  refunded_started := fun _ h => absurd h List.not_mem_nil
  started_lt := fun _ h => absurd h List.not_mem_nil
  flying := fun _ _ h => absurd h (by simp)

/-- A transaction that starts nothing leaves the batches it does not refund for as they are. -/
theorem Flies.moves {ledger' : HydrationLedger} {nextBatch batchNumber : ℕ}
    (h : Flies ledger nextBatch number batch)
    (hmoves : Moves maxAttempts batchNumber identities ledger ledger')
    (hother : number ≠ batchNumber ∨ identities = []) : Flies ledger' nextBatch number batch := by
  refine ⟨h.issued, h.distinct, fun job hjob => hmoves.started ▸ h.started job hjob,
    fun job hjob hrefunded => ?_⟩
  obtain ⟨new, hnew, heq⟩ := hmoves.refunded
  have hold : (number, job.identity) ∈ ledger.refunded := by
    rw [heq, List.mem_append] at hrefunded
    refine hrefunded.resolve_right fun hmem => ?_
    obtain ⟨identity, hidentity, hpair⟩ := List.mem_map.mp hmem
    rcases hother with hne | rfl
    · exact hne (Prod.mk.inj hpair).1.symm
    · rw [List.sublist_nil.mp hnew] at hidentity
      cases hidentity
  obtain ⟨hswept, hmedia, hobsolete⟩ := h.refunded job hjob hold
  exact ⟨hswept, hmedia, hmoves.outdates _ _ hobsolete⟩

/-- A transaction of a batch that refunds fresh starts keeps the account. -/
theorem Accounted.moves (h : world.Accounted maxAttempts) {flying : Dictionary ℕ FlyingBatch}
    (hmoves : Moves maxAttempts number identities world.ledger ledger) (hnodup : identities.Nodup)
    (hstarted : ∀ identity ∈ identities, (number, identity) ∈ world.ledger.started)
    (hfresh : ∀ identity ∈ identities, (number, identity) ∉ world.ledger.refunded)
    (hflying : ∀ other batch, flying.lookup other = some batch →
      Flies ledger world.nextBatch other batch) :
    ({ world with ledger, flying } : HydrationWorld).Accounted maxAttempts := by
  obtain ⟨new, hnew, hrefunded⟩ := hmoves.refunded
  refine ⟨hmoves.balanced h.balanced, ?_, ?_, ?_, ?_, hflying⟩
  · rw [hmoves.started]
    exact h.startedNodup
  · rw [hrefunded, List.nodup_append']
    refine ⟨h.refundedNodup, (hnodup.sublist hnew).map (Prod.mk_right_injective number), ?_⟩
    intro entry hentry hmem
    obtain ⟨identity, hidentity, rfl⟩ := List.mem_map.mp hmem
    exact hfresh identity (hnew.subset hidentity) hentry
  · intro entry hentry
    rw [hmoves.started]
    rw [hrefunded, List.mem_append] at hentry
    rcases hentry with hentry | hentry
    · exact h.refunded_started entry hentry
    · obtain ⟨identity, hidentity, rfl⟩ := List.mem_map.mp hentry
      exact hstarted identity (hnew.subset hidentity)
  · intro entry hentry
    exact h.started_lt entry (hmoves.started ▸ hentry)

/-- The batches that remain when one has ended. -/
theorem Accounted.flies_erase (h : world.Accounted maxAttempts)
    (hmoves : Moves maxAttempts number identities world.ledger ledger) {other : ℕ}
    (hlookup : (world.flying.erase number).lookup other = some batch) :
    Flies ledger world.nextBatch other batch := by
  rw [Dictionary.lookup_erase_eq] at hlookup
  split_ifs at hlookup with hother
  exact (h.flying other batch hlookup).moves hmoves (Or.inl hother)

/-- The start of a batch. -/
theorem Accounted.startBatch (h : world.Accounted maxAttempts) {batch : HydrationBatch}
    {eligible : HydrationJob → Bool}
    (hstep : perform maxAttempts world (.startBatch batch eligible) = some world') :
    world'.Accounted maxAttempts := by
  have hrounds : StartRounds maxAttempts world.nextBatch batch.jobs ([], world.ledger)
      (batch.jobs.foldl (startRound maxAttempts eligible world.nextBatch) ([], world.ledger)) :=
    startRounds_spec eligible batch.jobs ([], world.ledger)
  rw [perform, HydrationLedger.startBatch] at hstep
  generalize batch.jobs.foldl (startRound maxAttempts eligible world.nextBatch)
    ([], world.ledger) = state at hrounds hstep
  obtain ⟨started, ledger⟩ := state
  obtain ⟨kept, new, hkept, hnew, hjobs, hstarted⟩ := hrounds.jobs
  have hrefunded := hrounds.refunded
  dsimp only at hjobs hstarted hrefunded
  rw [List.map_nil, List.nil_append] at hjobs
  have hfresh : ∀ identity, (world.nextBatch, identity) ∉ world.ledger.started := fun identity hmem =>
    absurd (h.started_lt _ hmem) (lt_irrefl _)
  have hnodup : ledger.started.Nodup := by
    rw [hstarted, List.nodup_append']
    refine ⟨h.startedNodup,
      (batch.distinct.sublist hnew).map (Prod.mk_right_injective world.nextBatch), ?_⟩
    intro entry hentry hmem
    obtain ⟨identity, -, rfl⟩ := List.mem_map.mp hmem
    exact hfresh identity hentry
  have hlt : ∀ entry ∈ ledger.started, entry.1 < world.nextBatch + 1 := by
    intro entry hentry
    rw [hstarted, List.mem_append] at hentry
    rcases hentry with hentry | hentry
    · exact Nat.lt_succ_of_lt (h.started_lt entry hentry)
    · obtain ⟨identity, -, rfl⟩ := List.mem_map.mp hentry
      exact Nat.lt_succ_self _
  have hmem : ∀ entry ∈ ledger.refunded, entry ∈ ledger.started := by
    intro entry hentry
    rw [hrefunded] at hentry
    rw [hstarted]
    exact List.mem_append_left _ (h.refunded_started entry hentry)
  have hflies : ∀ number batch, world.flying.lookup number = some batch →
      Flies ledger (world.nextBatch + 1) number batch := by
    intro number batch hlookup
    have hold := h.flying number batch hlookup
    refine ⟨Nat.lt_succ_of_lt hold.issued, hold.distinct, fun job hjob => ?_,
      fun job hjob hmem => ?_⟩
    · rw [hstarted]
      exact List.mem_append_left _ (hold.started job hjob)
    · rw [hrefunded] at hmem
      obtain ⟨hswept, hmedia, hobsolete⟩ := hold.refunded job hjob hmem
      exact ⟨hswept, hmedia, hrounds.outdates _ _ hobsolete⟩
  dsimp only at hstep
  by_cases hempty : started = []
  · rw [if_pos hempty] at hstep
    obtain rfl := Option.some.inj hstep
    refine ⟨hrounds.balanced h.balanced, hnodup, ?_, hmem, hlt, hflies⟩
    rw [hrefunded]
    exact h.refundedNodup
  · rw [if_neg hempty] at hstep
    obtain rfl := Option.some.inj hstep
    refine ⟨(hrounds.balanced h.balanced).keep (KeepsAttempts.of_jobs rfl), hnodup, ?_, hmem, hlt,
      fun number other hlookup => ?_⟩
    · dsimp only
      rw [hrefunded]
      exact h.refundedNodup
    · dsimp only at hlookup ⊢
      rw [Dictionary.lookup_insert_eq] at hlookup
      split_ifs at hlookup with hnumber
      · obtain rfl := Option.some.inj hlookup
        subst hnumber
        refine ⟨Nat.lt_succ_self _, ?_, fun job hjob => ?_, fun job hjob hrefund => ?_⟩
        · dsimp only
          rw [hjobs]
          exact batch.distinct.sublist (hkept.trans hnew)
        · dsimp only at hjob ⊢
          rw [hstarted]
          refine List.mem_append_right _ (List.mem_map_of_mem (hkept.subset ?_))
          rw [← hjobs]
          exact List.mem_map_of_mem hjob
        · dsimp only at hrefund
          rw [hrefunded] at hrefund
          exact absurd (h.refunded_started _ hrefund) (hfresh _)
      · have hold := hflies number other hlookup
        exact ⟨hold.issued, hold.distinct, hold.started, fun job hjob hrefund => by
          obtain ⟨hswept, hmedia, hobsolete⟩ := hold.refunded job hjob hrefund
          exact ⟨hswept, hmedia, allocateObservationOrder_outdates _ _ _ hobsolete⟩⟩

/-- The refund of the obsolete observations: none of them was refunded before. -/
theorem Accounted.requeueObsolete (h : world.Accounted maxAttempts) {order : ℤ}
    (hlookup : world.flying.lookup number = some ⟨kind, order, started, none⟩) (failed : Bool) :
    ({ world with
      ledger :=
        if failed = false ∧ kind = .mediaMetadata then world.ledger
        else world.ledger.requeueObsoleteObservations number order started
      flying := world.flying.insert number ⟨kind, order, started, some failed⟩ } :
      HydrationWorld).Accounted maxAttempts := by
  have hflies := h.flying number _ hlookup
  have hfresh : ∀ job ∈ started, (number, job.identity) ∉ world.ledger.refunded :=
    fun job hjob hrefunded => (hflies.refunded job hjob hrefunded).1 rfl
  split_ifs with hmedia
  · have hmoves : Moves maxAttempts number [] world.ledger world.ledger := Moves.refl world.ledger
    refine h.moves hmoves List.nodup_nil (fun _ h => absurd h List.not_mem_nil)
      (fun _ h => absurd h List.not_mem_nil) fun other batch hother => ?_
    rw [Dictionary.lookup_insert_eq] at hother
    split_ifs at hother with hnumber
    · obtain rfl := Option.some.inj hother
      subst hnumber
      exact ⟨hflies.issued, hflies.distinct, hflies.started,
        fun job hjob hrefunded => absurd hrefunded (hfresh job hjob)⟩
    · exact h.flying other batch hother
  · have hmoves := @requeueObsoleteObservations_moves maxAttempts number world.ledger order started
    obtain ⟨new, hnew, hrefunded⟩ := hmoves.refunded
    refine h.moves hmoves (hflies.distinct.sublist (List.filter_sublist.map _)) ?_ ?_
      fun other batch hother => ?_
    · intro identity hidentity
      obtain ⟨job, hjob, rfl⟩ := List.mem_map.mp hidentity
      exact hflies.started job (List.mem_filter.mp hjob).1
    · intro identity hidentity
      obtain ⟨job, hjob, rfl⟩ := List.mem_map.mp hidentity
      exact hfresh job (List.mem_filter.mp hjob).1
    · rw [Dictionary.lookup_insert_eq] at hother
      split_ifs at hother with hnumber
      · obtain rfl := Option.some.inj hother
        subst hnumber
        refine ⟨hflies.issued, hflies.distinct, fun job hjob => hmoves.started ▸
          hflies.started job hjob, fun job hjob hmem => ⟨Option.some_ne_none failed, ?_, ?_⟩⟩
        · intro hkind
          cases failed with
          | true => rfl
          | false => exact absurd ⟨rfl, hkind⟩ hmedia
        · rw [hrefunded, List.mem_append] at hmem
          replace hmem := hmem.resolve_left (hfresh job hjob)
          obtain ⟨identity, hidentity, hpair⟩ := List.mem_map.mp hmem
          obtain rfl := (Prod.mk.inj hpair).2
          obtain ⟨swept, hswept, hsame⟩ := List.mem_map.mp (hnew.subset hidentity)
          obtain ⟨-, hobsolete⟩ := List.mem_filter.mp hswept
          have hkey : swept.key = job.key := congrArg Prod.snd hsame
          rw [hkey, Bool.not_eq_true'] at hobsolete
          exact hmoves.outdates _ _ hobsolete
      · exact (h.flying other batch hother).moves hmoves (Or.inl hnumber)

/-- The result of a batch: a media batch had none of its starts refunded before. -/
theorem Accounted.applyResult (h : world.Accounted maxAttempts) {order : ℤ}
    {result : HydrationResult}
    (hlookup : world.flying.lookup number = some ⟨kind, order, started, some false⟩)
    (hkind : result.kind = kind) (retryAt : ℤ) :
    ({ world with
      ledger := world.ledger.applyBatchResult maxAttempts number order started retryAt result
      flying := world.flying.erase number } : HydrationWorld).Accounted maxAttempts := by
  have hflies := h.flying number _ hlookup
  have hmoves := @applyBatchResult_moves maxAttempts number world.ledger order started retryAt result
  cases kind with
  | mediaMetadata =>
    refine h.moves hmoves hflies.distinct ?_ ?_ fun other batch => h.flies_erase hmoves
    · intro identity hidentity
      obtain ⟨job, hjob, rfl⟩ := List.mem_map.mp hidentity
      exact hflies.started job hjob
    · intro identity hidentity hrefunded
      obtain ⟨job, hjob, rfl⟩ := List.mem_map.mp hidentity
      obtain ⟨-, hmedia, -⟩ := hflies.refunded job hjob hrefunded
      cases hmedia rfl
  | transcription =>
    have hnone := @applyBatchResult_transcription maxAttempts number world.ledger order started
      retryAt result hkind
    have hmoves : Moves maxAttempts number [] world.ledger
        (world.ledger.applyBatchResult maxAttempts number order started retryAt result) :=
      ⟨hmoves.balanced, hmoves.started,
        ⟨[], List.Sublist.slnil, hnone.trans (List.append_nil _).symm⟩, hmoves.outdates⟩
    exact h.moves hmoves List.nodup_nil (fun _ h => absurd h List.not_mem_nil)
      (fun _ h => absurd h List.not_mem_nil) fun other batch => h.flies_erase hmoves

/-- Every transaction keeps the account. -/
theorem perform_accounted (world : HydrationWorld) (step : HydrationStep) (world' : HydrationWorld)
    (h : world.Accounted maxAttempts) (hstep : perform maxAttempts world step = some world') :
    world'.Accounted maxAttempts := by
  cases step with
  | write write =>
    obtain rfl := Option.some.inj hstep
    have hmoves : Moves maxAttempts 0 [] world.ledger (world.ledger.write write) :=
      write_moves world.ledger write
    exact h.moves hmoves List.nodup_nil (fun _ h => absurd h List.not_mem_nil)
      (fun _ h => absurd h List.not_mem_nil)
      fun other batch hlookup => (h.flying other batch hlookup).moves hmoves (Or.inr rfl)
  | startBatch batch eligible => exact h.startBatch hstep
  | requeueObsolete number failed =>
    rw [perform] at hstep
    split at hstep
    · rename_i kind order started hlookup
      obtain rfl := Option.some.inj hstep
      exact h.requeueObsolete hlookup failed
    · cases hstep
  | handleError number failure effectiveNow =>
    rw [perform] at hstep
    split at hstep
    · rename_i kind order started hlookup
      obtain rfl := Option.some.inj hstep
      have hflies := h.flying number _ hlookup
      have hmoves : Moves maxAttempts number
          ((world.ledger.currentJobs order started).map HydrationJob.identity) world.ledger
          (world.ledger.handleBatchError number order started effectiveNow failure) :=
        handleBatchError_moves world.ledger order started effectiveNow failure
      refine h.moves hmoves ?_ ?_ ?_ fun other batch => h.flies_erase hmoves
      · exact hflies.distinct.sublist (List.filter_sublist.map _)
      · intro identity hidentity
        obtain ⟨job, hjob, rfl⟩ := List.mem_map.mp hidentity
        exact hflies.started job (List.mem_filter.mp hjob).1
      · intro identity hidentity hrefunded
        obtain ⟨job, hjob, rfl⟩ := List.mem_map.mp hidentity
        obtain ⟨hmem, hcurrent⟩ := List.mem_filter.mp hjob
        obtain ⟨-, -, hobsolete⟩ := hflies.refunded job hmem hrefunded
        rw [hobsolete, Bool.and_false] at hcurrent
        cases hcurrent
    · cases hstep
  | applyResult number result retryAt =>
    rw [perform] at hstep
    split at hstep
    · rename_i kind order started hlookup
      split_ifs at hstep with hkind
      obtain rfl := Option.some.inj hstep
      exact h.applyResult hlookup hkind retryAt
    · cases hstep
  | abandon number =>
    obtain rfl := Option.some.inj hstep
    have hmoves : Moves maxAttempts number [] world.ledger world.ledger := Moves.refl world.ledger
    exact h.moves hmoves List.nodup_nil (fun _ h => absurd h List.not_mem_nil)
      (fun _ h => absurd h List.not_mem_nil) fun other batch => h.flies_erase hmoves

theorem run_accounted {steps : List HydrationStep}
    (h : run (perform maxAttempts) {} steps = some world) : world.Accounted maxAttempts :=
  run_invariant perform_accounted accounted_empty h

/-- No transaction starts a terminal row. -/
theorem perform_started {step : HydrationStep} {identity : JobIdentity} {row : HydrationJobRow}
    (hstep : perform maxAttempts world step = some world')
    (hrow : world.ledger.store.job identity = some row) (hterminal : row.terminal = true)
    (hmem : (number, identity) ∈ world'.ledger.started) :
    (number, identity) ∈ world.ledger.started := by
  cases step with
  | write write =>
    obtain rfl := Option.some.inj hstep
    have hmoves : Moves maxAttempts 0 [] world.ledger (world.ledger.write write) :=
      write_moves world.ledger write
    exact hmoves.started ▸ hmem
  | startBatch batch eligible =>
    have hrounds : StartRounds maxAttempts world.nextBatch batch.jobs ([], world.ledger)
        (batch.jobs.foldl (startRound maxAttempts eligible world.nextBatch) ([], world.ledger)) :=
      startRounds_spec eligible batch.jobs ([], world.ledger)
    have hclosed : world.ledger.Closed identity := fun other hother => by
      rwa [Option.some.inj (hother.symm.trans hrow)]
    refine (hrounds.closed identity hclosed).2 number ?_
    rw [perform, HydrationLedger.startBatch] at hstep
    generalize batch.jobs.foldl (startRound maxAttempts eligible world.nextBatch)
      ([], world.ledger) = state at hstep ⊢
    obtain ⟨started, ledger⟩ := state
    dsimp only at hstep
    by_cases hempty : started = []
    · rw [if_pos hempty] at hstep
      obtain rfl := Option.some.inj hstep
      exact hmem
    · rw [if_neg hempty] at hstep
      obtain rfl := Option.some.inj hstep
      exact hmem
  | requeueObsolete number failed =>
    rw [perform] at hstep
    split at hstep
    · rename_i kind order started _
      obtain rfl := Option.some.inj hstep
      dsimp only at hmem
      split_ifs at hmem
      · exact hmem
      · exact (@requeueObsoleteObservations_moves maxAttempts _ _ order started).started ▸ hmem
    · cases hstep
  | handleError number failure effectiveNow =>
    rw [perform] at hstep
    split at hstep
    · rename_i kind order started _
      obtain rfl := Option.some.inj hstep
      exact (@handleBatchError_moves maxAttempts _ _ order started effectiveNow failure).started ▸
        hmem
    · cases hstep
  | applyResult number result retryAt =>
    rw [perform] at hstep
    split at hstep
    · rename_i kind order started _
      split_ifs at hstep
      obtain rfl := Option.some.inj hstep
      exact (applyBatchResult_moves _ order started retryAt result).started ▸ hmem
    · cases hstep
  | abandon number =>
    obtain rfl := Option.some.inj hstep
    exact hmem

/-- In every reachable state the attempts of each queued job are its starts without its refunds
since its insertion, between zero and one more than the limit.  A batch refunds each of its starts
at most once, queueing a job again lowers no attempts and ends no end, and no terminal row is
started. -/
theorem attempts_accounted (maxAttempts : ℕ) (steps : List HydrationStep) (world : HydrationWorld)
    (h : run (perform maxAttempts) {} steps = some world) :
    (∀ identity row, world.ledger.store.job identity = some row →
      row.attempts + world.ledger.refunds identity = world.ledger.starts identity ∧
        0 ≤ row.attempts ∧ row.attempts ≤ maxAttempts + 1) ∧
    world.ledger.refunded.Nodup ∧ world.ledger.started.Nodup ∧
    (∀ entry ∈ world.ledger.refunded, entry ∈ world.ledger.started) ∧
    (∀ (work : QueuedWork) (row : HydrationJobRow),
      world.ledger.store.job work.identity = some row →
        ∃ row', (world.ledger.write (.enqueue work)).store.job work.identity = some row' ∧
          row.attempts ≤ row'.attempts ∧ row'.terminal = row.terminal) ∧
    ∀ step world', perform maxAttempts world step = some world' →
      ∀ identity row, world.ledger.store.job identity = some row → row.terminal = true →
        ∀ number, (number, identity) ∈ world'.ledger.started →
          (number, identity) ∈ world.ledger.started := by
  have haccounted := run_accounted h
  refine ⟨fun identity row hrow => ?_, haccounted.refundedNodup, haccounted.startedNodup,
    haccounted.refunded_started, fun work row hrow => ?_, ?_⟩
  · have hbalanced := haccounted.balanced identity row hrow
    exact ⟨hbalanced.account, Nat.zero_le _, hbalanced.bounded⟩
  · obtain ⟨written, hwritten, -, hstored⟩ :=
      job_enqueue world.ledger.store work.identity work.identity work.row
    obtain ⟨hattempts, hterminal⟩ := hstored row hrow
    exact ⟨written, hwritten.trans (if_pos rfl), hattempts.ge, hterminal⟩
  · exact fun step world' hstep identity row hrow hterminal number hmem =>
      perform_started hstep hrow hterminal hmem

/-- The transcription of one message. -/
def sampleIdentity : JobIdentity := (.transcription, ⟨7, 5⟩)

/-- The queued job of that message. -/
def sampleWork : QueuedWork := ⟨sampleIdentity, 0, 0, .foreground⟩

/-- A batch with that job. -/
def sampleBatch : HydrationBatch where
  kind := .transcription
  jobs := [sampleWork.row.toJob sampleIdentity]
  sameKind := by decide
  distinct := by decide

/-- Two batches start the job.  The message is deleted while they wait; the later one refunds its
start as obsolete, and its failure handler finds no current job. -/
def sampleSteps : List HydrationStep :=
  [.write (.enqueue sampleWork), .startBatch sampleBatch fun _ => true,
    .startBatch sampleBatch fun _ => true, .write (.recordDeletions 7 [5]),
    .requeueObsolete 1 true, .handleError 1 .admissionRejected 9, .requeueObsolete 0 true]

theorem attempts_accounted_sample :
    ∃ world, run (perform 3) {} sampleSteps = some world ∧
      world.ledger.refunded = [(1, sampleIdentity)] ∧
      ∀ row, world.ledger.store.job sampleIdentity = some row →
        row.attempts + world.ledger.refunds sampleIdentity =
          world.ledger.starts sampleIdentity := by
  obtain ⟨world, hworld⟩ := Option.isSome_iff_exists.mp
    (show (run (perform 3) {} sampleSteps).isSome = true by decide +kernel)
  have hrefunded : (run (perform 3) {} sampleSteps).map (·.ledger.refunded) =
      some [(1, sampleIdentity)] := by decide +kernel
  rw [hworld, Option.map_some] at hrefunded
  exact ⟨world, hworld, Option.some.inj hrefunded, fun row hrow =>
    ((attempts_accounted 3 sampleSteps world hworld).1 sampleIdentity row hrow).1⟩

end HydrationWorld

end McpTelegram
