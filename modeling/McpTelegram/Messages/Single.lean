import McpTelegram.Messages.Deletion

/-!
# One bundle at a time

What `insert_messages_with_fts` leaves behind when it is called with a single bundle: nothing when
the bundle is not current (`insertMessagesWithFts_rejected`), and otherwise the rows that
`Inserted` lists (`insertMessagesWithFts_single`).
-/

namespace McpTelegram

open Foundations

namespace MessageStore

/-! ## Queue statements -/

/-- Nothing but the hydration queue differs. -/
def OnlyJobs (store store' : MessageStore) : Prop := store' = { store with jobs := store'.jobs }

theorem OnlyJobs.refl (store : MessageStore) : OnlyJobs store store := rfl

theorem OnlyJobs.of_jobs (store : MessageStore)
    (jobs : HydrationKind → Table MessageKey HydrationJobRow) :
    OnlyJobs store { store with jobs } := rfl

theorem OnlyJobs.trans {store store' store'' : MessageStore} (h : OnlyJobs store store')
    (h' : OnlyJobs store' store'') : OnlyJobs store store'' := by
  rw [OnlyJobs, h', h]

theorem removeActiveJob_onlyJobs (store : MessageStore) (kind : HydrationKind)
    (key : MessageKey) : OnlyJobs store (store.removeActiveJob kind key) := by
  rw [removeActiveJob]
  split
  · split_ifs
    · exact OnlyJobs.refl store
    · exact OnlyJobs.of_jobs store _
  · exact OnlyJobs.refl store

section Reconcile

variable (env : MessageEnv) (reads : MessageReads) (store : MessageStore)

theorem reconcileMediaHydrationJob_onlyJobs (message : StoredMessage) (existing : Bool) :
    OnlyJobs store (store.reconcileMediaHydrationJob env reads message existing) := by
  rw [reconcileMediaHydrationJob]
  split_ifs
  · exact OnlyJobs.of_jobs store _
  · exact removeActiveJob_onlyJobs store _ _
  · exact OnlyJobs.of_jobs store _
  · exact OnlyJobs.refl store

theorem reconcileTranscriptionHydrationJob_onlyJobs (message : StoredMessage)
    (priority : HydrationPriority) (existing transcribed : Bool) :
    OnlyJobs store (store.reconcileTranscriptionHydrationJob env reads message priority existing
      transcribed) := by
  rw [reconcileTranscriptionHydrationJob]
  split_ifs
  · exact OnlyJobs.of_jobs store _
  · exact removeActiveJob_onlyJobs store _ _
  · exact OnlyJobs.refl store
  · exact OnlyJobs.of_jobs store _
  · exact OnlyJobs.refl store

theorem reconcileFactHydrationJob_onlyJobs (before : MessageStore)
    (facts : MessageKey → StoredPageFact) (priority : HydrationPriority) (item : ExtractedMessage) :
    OnlyJobs store (store.reconcileFactHydrationJob env reads before facts priority item) :=
  (reconcileMediaHydrationJob_onlyJobs env reads store item.message _).trans
    (reconcileTranscriptionHydrationJob_onlyJobs env reads _ item.message priority _ _)

end Reconcile

/-! ## What a bundle keeps on its way into the tables -/

section Kept

variable (env : MessageEnv) (store : MessageStore) (item : ExtractedMessage)

/-- The media columns are all that `_preserve_newer_received_media` changes in a message. -/
theorem preserveNewerReceivedMedia_message :
    ∃ kind payload, (store.preserveNewerReceivedMedia item).message =
      { item.message with mediaKind := kind, mediaPayload := payload } := by
  rw [preserveNewerReceivedMedia]
  split
  · dsimp only
    split_ifs <;> exact ⟨_, _, rfl⟩
  · exact ⟨_, _, rfl⟩

theorem preserveNewerReceivedMedia_rest :
    (store.preserveNewerReceivedMedia item).replyCount = item.replyCount ∧
      (store.preserveNewerReceivedMedia item).observationOrder = item.observationOrder ∧
      (store.preserveNewerReceivedMedia item).entities = item.entities ∧
      (store.preserveNewerReceivedMedia item).forward = item.forward := by
  rw [preserveNewerReceivedMedia]
  split
  · dsimp only
    split_ifs <;> exact ⟨rfl, rfl, rfl, rfl⟩
  · exact ⟨rfl, rfl, rfl, rfl⟩

/-- The bundle that is written for an accepted one, and whether the stored transcription goes. -/
def projectedBundle : ExtractedMessage × Bool :=
  overlayMessageTranscription env store.storedPageFact
    (preserveTranscribedText store.storedPageFact (store.preserveNewerReceivedMedia item))

/-- Only the text is taken from the stored page. -/
theorem preserveTranscribedText_rest (facts : MessageKey → StoredPageFact) : ∃ text,
    preserveTranscribedText facts item = { item with message := { item.message with text } } := by
  rw [preserveTranscribedText]
  split
  · exact ⟨_, rfl⟩
  · split
    · exact ⟨_, rfl⟩
    · split
      · split <;> exact ⟨_, rfl⟩
      · exact ⟨_, rfl⟩

/-- Only the text changes after the media were settled. -/
theorem projectedBundle_rest : ∃ text, (store.projectedBundle env item).1 =
    { store.preserveNewerReceivedMedia item with
      message := { (store.preserveNewerReceivedMedia item).message with text } } := by
  rw [projectedBundle]
  obtain ⟨text, hpreserved⟩ := preserveTranscribedText_rest
    (store.preserveNewerReceivedMedia item) store.storedPageFact
  rw [hpreserved, overlayMessageTranscription]
  split
  · exact ⟨_, rfl⟩
  · dsimp only
    split_ifs <;> exact ⟨_, rfl⟩

/-- The identity of a bundle stays. -/
theorem projectedBundle_key : (store.projectedBundle env item).1.key = item.key := by
  rw [projectedBundle, overlayMessageTranscription_key, preserveTranscribedText_key,
    preserveNewerReceivedMedia_key]

theorem projectedBundle_entities : (store.projectedBundle env item).1.entities = item.entities := by
  obtain ⟨text, hprojected⟩ := store.projectedBundle_rest env item
  rw [hprojected]
  exact (store.preserveNewerReceivedMedia_rest item).2.2.1

theorem projectedBundle_forward : (store.projectedBundle env item).1.forward = item.forward := by
  obtain ⟨text, hprojected⟩ := store.projectedBundle_rest env item
  rw [hprojected]
  exact (store.preserveNewerReceivedMedia_rest item).2.2.2

end Kept

/-! ## The call with one bundle -/

section Single

variable (env : MessageEnv) (reads : MessageReads) (store : MessageStore) (item : ExtractedMessage)
  (source : ReactionAggregateSource) (priority : HydrationPriority)

theorem acceptedMessageBundles_single : store.acceptedMessageBundles [item] source =
    if store.isCurrentObservation item source then [item] else [] := rfl

/-- A bundle that is not current leaves the store as it was. -/
theorem insertMessagesWithFts_rejected (h : ¬ store.isCurrentObservation item source) :
    store.insertMessagesWithFts env reads [item] source priority = .ok (0, store) := by
  rw [insertMessagesWithFts, acceptedMessageBundles_single, if_neg h, if_pos rfl]

/-- A current bundle whose identity the queue rejects raises. -/
theorem insertMessagesWithFts_invalid (h : store.isCurrentObservation item source)
    (hinvalid : ¬ item.message.ValidJob) :
    store.insertMessagesWithFts env reads [item] source priority = .error .invalidJob := by
  obtain ⟨kind, payload, hmessage⟩ := store.preserveNewerReceivedMedia_message item
  have hkept : ¬ (store.preserveNewerReceivedMedia item).message.ValidJob := by
    rw [hmessage]
    exact hinvalid
  rw [insertMessagesWithFts, acceptedMessageBundles_single, if_pos h, if_neg (by simp)]
  simp only [List.map_cons, List.map_nil]
  rw [if_pos (by simpa using hkept)]

/-- What an accepted bundle leaves behind. -/
structure Inserted (written : MessageStore) : Prop where
  messages : written.messages =
    store.messages.put item.key (rowOf (store.projectedBundle env item).1)
  observations : written.observations =
    (store.recordMessageObservations [store.preserveNewerReceivedMedia item] source).observations
  imageSources : written.imageSources =
    (store.recordMessageObservations [store.preserveNewerReceivedMedia item] source).imageSources
  sequence : written.sequence =
    (store.recordMessageObservations [store.preserveNewerReceivedMedia item] source).sequence
  entities : written.entities =
    Function.update store.entities item.key (item.entities.foldl insertEntity [])
  forwards : written.forwards = Function.update store.forwards item.key item.forward
  versions : written.versions = store.versions
  transcriptions : written.transcriptions =
    if (store.projectedBundle env item).2 then store.transcriptions.drop item.key
    else store.transcriptions
  nonchannel : written.nonchannelDeletions = store.nonchannelDeletions
  ftsKeys : written.ftsKeys item.key = true
  /-- The index row is written again when the stored row or its index row would differ. -/
  fts : written.ftsRows item.key =
    if ftsRefreshNeeded (store.storedPageFact item.key)
        (store.projectedBundle env item).1.message.text
        (env.stemText (store.projectedBundle env item).1.message.text) then
      [⟨item.key, env.stemText (store.projectedBundle env item).1.message.text⟩]
    else store.ftsRows item.key
  /-- The queue was reconciled with the tables that were written. -/
  jobs : ∃ base : MessageStore, ∃ facts : MessageKey → StoredPageFact,
    base.messages = written.messages ∧ base.transcriptions = written.transcriptions ∧
      base.jobs = store.jobs ∧
      (facts item.key).transcription = (written.transcriptions item.key).map (·.text) ∧
      written.jobs = (base.reconcileFactHydrationJob env reads store facts priority
        (store.projectedBundle env item).1).jobs

theorem recordMessageObservations_rest (accepted : List ExtractedMessage) :
    store.recordMessageObservations accepted source =
      { store with
        observations := (store.recordMessageObservations accepted source).observations
        imageSources := (store.recordMessageObservations accepted source).imageSources
        sequence := (store.recordMessageObservations accepted source).sequence } := by
  have hfold : ∀ fallback : ℤ, ∀ store : MessageStore, ∃ observations imageSources,
      accepted.foldl (fun store item => store.recordMessageObservation source fallback item)
        store = { store with observations, imageSources } := by
    intro fallback
    induction accepted with
    | nil => exact fun store => ⟨_, _, rfl⟩
    | cons item accepted ih =>
      intro store
      obtain ⟨observations, imageSources, hrest⟩ :=
        ih (store.recordMessageObservation source fallback item)
      exact ⟨observations, imageSources, by rw [List.foldl_cons, hrest]; rfl⟩
  rw [recordMessageObservations]
  split_ifs
  · obtain ⟨observations, imageSources, h⟩ := hfold store.allocateObservationOrder.1
      store.allocateObservationOrder.2
    dsimp only [allocateObservationOrder] at h ⊢
    rw [h]
  · obtain ⟨observations, imageSources, h⟩ := hfold 0 store
    dsimp only
    rw [h]

/-- A bundle with an order of its own needs no new number. -/
theorem recordMessageObservations_ordered {order : ℤ} (h : item.observationOrder = some order) :
    store.recordMessageObservations [item] source =
      store.recordMessageObservation source 0 item := by
  rw [recordMessageObservations, if_neg (by simp [h])]
  rfl

/-- The first observation of a message opens its row. -/
theorem recordMessageObservation_new (fallback : ℤ) (h : store.observations item.key = none) :
    (store.recordMessageObservation source fallback item).observations item.key =
      some { observationOrder := item.bodyObservationOrder.getD (item.observationOrder.getD fallback)
             sourceRank := source.rank } := by
  rw [recordMessageObservation, h]
  exact Table.put_self _ _ _

/-- A later observation raises the order of the row, or leaves it. -/
theorem recordMessageObservation_known (fallback : ℤ) {row : ObservationRow}
    (h : store.observations item.key = some row) :
    (store.recordMessageObservation source fallback item).observations item.key =
      some { row with
        sourceRank :=
          if row.observationOrder <
              item.bodyObservationOrder.getD (item.observationOrder.getD fallback) then source.rank
          else if item.bodyObservationOrder.getD (item.observationOrder.getD fallback) =
              row.observationOrder then max row.sourceRank source.rank
          else row.sourceRank
        observationOrder := max row.observationOrder
          (item.bodyObservationOrder.getD (item.observationOrder.getD fallback)) } := by
  rw [recordMessageObservation, h]
  exact Table.put_self _ _ _

theorem recordMessageObservation_imageSource (fallback : ℤ) :
    (store.recordMessageObservation source fallback item).imageSources item.key ≠ none := by
  have hput : (store.recordMessageObservation source fallback item).imageSources item.key =
      some _ := Table.put_self _ _ _
  rw [hput]
  exact Option.some_ne_none _

theorem dropTranscriptions_single (facts : MessageKey → StoredPageFact) :
    store.dropTranscriptions env facts [item] =
      if (overlayMessageTranscription env facts item).2 then
        ({ store with transcriptions := store.transcriptions.drop item.key },
          Function.update facts item.key { facts item.key with transcription := none })
      else (store, facts) := rfl

/-- Writing one row: the row, its key and the index change before the queue is reconciled. -/
theorem writeMessageRowsAndFts_single (before : MessageStore)
    (facts : MessageKey → StoredPageFact) : ∃ fts,
    store.writeMessageRowsAndFts env reads before facts priority [item] =
      reconcileFactHydrationJob env reads
        { store with
          messages := store.messages.put item.key (rowOf item)
          ftsKeys := Function.update store.ftsKeys item.key true
          fts := fts } before facts priority item ∧
    (fts.filter fun row => row.key = item.key) =
      if ftsRefreshNeeded (facts item.key) item.message.text (env.stemText item.message.text) then
        [⟨item.key, env.stemText item.message.text⟩]
      else store.ftsRows item.key := by
  rw [writeMessageRowsAndFts, List.filter_singleton]
  cases ftsRefreshNeeded (facts item.key) item.message.text (env.stemText item.message.text) with
  | false => exact ⟨_, rfl, rfl⟩
  | true =>
    refine ⟨store.fts.filter (fun row => row.key ≠ item.key) ++
      [⟨item.key, env.stemText item.message.text⟩], ?_, ?_⟩
    · simp only [cond_true, List.foldl_cons, List.foldl_nil, insertFts, deleteFts, insertMessage,
        Function.update_self, if_true]
      rfl
    · have hold : (store.fts.filter fun row => row.key ≠ item.key).filter
          (fun row => row.key = item.key) = [] := by
        rw [List.filter_eq_nil_iff]
        intro row hrow
        simpa using (List.mem_filter.mp hrow).2
      rw [List.filter_append, hold, if_pos rfl]
      simp

/-- The tables and the page facts of one bundle after its transcription was dropped or kept. -/
theorem dropTranscriptions_single_spec {recorded : MessageStore}
    (htranscriptions : recorded.transcriptions = store.transcriptions) :
    ∃ facts : MessageKey → StoredPageFact,
      recorded.dropTranscriptions env store.storedPageFact
          [preserveTranscribedText store.storedPageFact (store.preserveNewerReceivedMedia item)] =
        ({ recorded with
          transcriptions := if (store.projectedBundle env item).2 then
            store.transcriptions.drop item.key else store.transcriptions }, facts) ∧
      (facts item.key).transcription = ((if (store.projectedBundle env item).2 then
        store.transcriptions.drop item.key else store.transcriptions) item.key).map (·.text) ∧
      ∀ text stemmed, ftsRefreshNeeded (facts item.key) text stemmed =
        ftsRefreshNeeded (store.storedPageFact item.key) text stemmed := by
  rw [dropTranscriptions_single, ← projectedBundle, preserveTranscribedText_key,
    preserveNewerReceivedMedia_key, ← htranscriptions]
  split_ifs
  · refine ⟨_, rfl, ?_, fun text stemmed => ?_⟩
    · rw [Function.update_self, Table.drop_apply, if_pos rfl]
      rfl
    · rw [Function.update_self]
      rfl
  · refine ⟨_, rfl, ?_, fun _ _ => rfl⟩
    rw [htranscriptions]
    rfl

/-- An accepted bundle whose identity the queue accepts is written. -/
theorem insertMessagesWithFts_single (h : store.isCurrentObservation item source)
    (hvalid : item.message.ValidJob) :
    ∃ written, store.insertMessagesWithFts env reads [item] source priority = .ok (1, written) ∧
      Inserted env reads store item source priority written := by
  obtain ⟨kind, payload, hmessage⟩ := store.preserveNewerReceivedMedia_message item
  have hkept : (store.preserveNewerReceivedMedia item).message.ValidJob := by
    rw [hmessage]
    exact hvalid
  rw [insertMessagesWithFts, acceptedMessageBundles_single, if_pos h, if_neg (by simp)]
  simp only [List.map_cons, List.map_nil]
  rw [if_neg (by simpa using hkept)]
  refine ⟨_, rfl, ?_⟩
  have hrecorded := recordMessageObservations_rest store source
    [store.preserveNewerReceivedMedia item]
  have htranscriptions : (store.recordMessageObservations [store.preserveNewerReceivedMedia item]
      source).transcriptions = store.transcriptions := by rw [hrecorded]
  obtain ⟨facts, hdropped, hfacts, hrefresh⟩ := dropTranscriptions_single_spec env store item htranscriptions
  rw [hdropped, ← projectedBundle]
  obtain ⟨fts, hwritten, hrows⟩ := writeMessageRowsAndFts_single env reads
    { store.recordMessageObservations [store.preserveNewerReceivedMedia item] source with
      transcriptions := if (store.projectedBundle env item).2 then
        store.transcriptions.drop item.key else store.transcriptions }
    (store.projectedBundle env item).1 priority store facts
  dsimp only
  rw [hwritten]
  generalize hbase : ({ store.recordMessageObservations [store.preserveNewerReceivedMedia item]
    source with
      messages := _
      transcriptions := _
      ftsKeys := _
      fts := fts } : MessageStore) = base
  generalize hreconciled : reconcileFactHydrationJob env reads base store facts priority
    (store.projectedBundle env item).1 = reconciled
  obtain ⟨jobs, rfl⟩ : ∃ jobs, reconciled = { base with jobs } :=
    ⟨_, hreconciled ▸ reconcileFactHydrationJob_onlyJobs env reads base store facts priority _⟩
  have hkey := store.projectedBundle_key env item
  have hbaseTranscriptions : base.transcriptions =
      if (store.projectedBundle env item).2 then store.transcriptions.drop item.key
      else store.transcriptions := by rw [← hbase]
  constructor
  · change base.messages = _
    rw [← hbase, hrecorded, hkey]
  · change base.observations = _
    rw [← hbase]
  · change base.imageSources = _
    rw [← hbase]
  · change base.sequence = _
    rw [← hbase]
  · change Function.update base.entities _ _ = _
    rw [← hbase, hrecorded, hkey, store.projectedBundle_entities env item]
  · change Function.update base.forwards _ _ = _
    rw [← hbase, hrecorded, hkey, store.projectedBundle_forward env item]
  · change base.versions = _
    rw [← hbase, hrecorded]
  · exact hbaseTranscriptions
  · change base.nonchannelDeletions = _
    rw [← hbase, hrecorded]
  · change base.ftsKeys item.key = true
    rw [← hbase, ← hkey]
    exact Function.update_self _ _ _
  · change (base.fts.filter fun row => row.key = item.key) = _
    rw [← hbase]
    rw [hkey, hrefresh] at hrows
    refine hrows.trans ?_
    congr 1
    rw [ftsRows, hrecorded]
    rfl
  · refine ⟨base, facts, rfl, rfl, by rw [← hbase, hrecorded], ?_,
      (congrArg MessageStore.jobs hreconciled).symm⟩
    change _ = (base.transcriptions item.key).map _
    rw [hfacts, hbaseTranscriptions]

end Single

end MessageStore

end McpTelegram
