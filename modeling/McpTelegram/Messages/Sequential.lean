import McpTelegram.Messages.Convergence

/-!
# A page of bundles and its bundles one by one

`insert_messages_with_fts` picks one bundle for every message of the page, the last one that is
greatest by edit date and observation order among the bundles that are current in the stored state,
and writes them together.  What it writes for a message depends on what was stored of that message
only, so it leaves the bodies, the index rows, the entities and the forward headers that inserting
the picked bundles one after the other leaves.  The observation rows are the same too, but for the
bundles without an order of their own: a page takes one order for all of them.
-/

namespace McpTelegram

open Foundations

namespace MessageStore

/-! ## What is stored of a message -/

/-- What an insertion reads of a message, and the evidence of deletions outside channels, is the
same in both stores. -/
structure SameAt (key : MessageKey) (store written : MessageStore) : Prop where
  messages : written.messages key = store.messages key
  observations : written.observations key = store.observations key
  imageSources : written.imageSources key = store.imageSources key
  entities : written.entities key = store.entities key
  forwards : written.forwards key = store.forwards key
  transcriptions : written.transcriptions key = store.transcriptions key
  fts : written.ftsRows key = store.ftsRows key
  nonchannel : written.nonchannelDeletions = store.nonchannelDeletions

section SameAt

variable {store written last : MessageStore} {item : ExtractedMessage} {key : MessageKey}

theorem SameAt.refl (key : MessageKey) (store : MessageStore) : SameAt key store store :=
  ⟨rfl, rfl, rfl, rfl, rfl, rfl, rfl, rfl⟩

/-- Two changes that leave a message alone leave it alone together. -/
theorem SameAt.trans (h : SameAt key store written) (h' : SameAt key written last) :
    SameAt key store last :=
  ⟨h'.messages.trans h.messages, h'.observations.trans h.observations,
    h'.imageSources.trans h.imageSources, h'.entities.trans h.entities,
    h'.forwards.trans h.forwards, h'.transcriptions.trans h.transcriptions, h'.fts.trans h.fts,
    h'.nonchannel.trans h.nonchannel⟩

/-- A bundle is current in one store when it is in the other. -/
theorem SameAt.current (h : SameAt item.key store written) (source : ReactionAggregateSource) :
    written.isCurrentObservation item source = store.isCurrentObservation item source := by
  rw [isCurrentObservation, isCurrentObservation, hasNonchannelDeletion, hasNonchannelDeletion,
    h.nonchannel, h.observations, h.messages]

/-- The media are settled alike. -/
theorem SameAt.media (h : SameAt item.key store written) :
    written.preserveNewerReceivedMedia item = store.preserveNewerReceivedMedia item := by
  rw [preserveNewerReceivedMedia, preserveNewerReceivedMedia, receivedBodyUnchanged,
    receivedBodyUnchanged, h.messages, h.imageSources, h.observations, h.entities, h.forwards]

/-- The page fact is the same. -/
theorem SameAt.fact (h : SameAt key store written) :
    written.storedPageFact key = store.storedPageFact key := by
  have hfound : ∀ store : MessageStore,
      (store.fts.find? fun row => row.key = key) = (store.ftsRows key).head? := by
    intro store
    rw [ftsRows, List.head?_filter]
  rw [storedPageFact, storedPageFact, readMessageText, readMessageText, hfound, hfound, h.messages,
    h.fts, h.transcriptions]

/-- The bundle that is written is the same. -/
theorem SameAt.projected (env : MessageEnv) (h : SameAt item.key store written) :
    written.projectedBundle env item = store.projectedBundle env item := by
  have hkept := preserveNewerReceivedMedia_key store item
  have hpreserved : preserveTranscribedText written.storedPageFact
      (store.preserveNewerReceivedMedia item) =
        preserveTranscribedText store.storedPageFact (store.preserveNewerReceivedMedia item) := by
    rw [preserveTranscribedText, preserveTranscribedText, hkept, h.fact]
  rw [projectedBundle, projectedBundle, h.media, hpreserved, overlayMessageTranscription,
    overlayMessageTranscription, preserveTranscribedText_key, hkept, h.fact]

end SameAt

/-! ## What a picked bundle leaves -/

/-- The observation row of a message after a bundle, under the order that stands in for a missing
one. -/
def observationAfter (store : MessageStore) (source : ReactionAggregateSource) (fallback : ℤ)
    (item : ExtractedMessage) : Option ObservationRow :=
  (store.recordMessageObservation source fallback
    (store.preserveNewerReceivedMedia item)).observations item.key

/-- What a bundle that is picked leaves of its message. -/
structure WrittenAt (env : MessageEnv) (store : MessageStore) (source : ReactionAggregateSource)
    (fallback : ℤ) (item : ExtractedMessage) (written : MessageStore) : Prop where
  messages : written.messages item.key = some (rowOf (store.projectedBundle env item).1)
  observations : written.observations item.key = store.observationAfter source fallback item
  entities : written.entities item.key = item.entities.foldl insertEntity []
  forwards : written.forwards item.key = item.forward
  fts : written.ftsRows item.key =
    if ftsRefreshNeeded (store.storedPageFact item.key)
        (store.projectedBundle env item).1.message.text
        (env.stemText (store.projectedBundle env item).1.message.text) then
      [⟨item.key, env.stemText (store.projectedBundle env item).1.message.text⟩]
    else store.ftsRows item.key

/-! ## The loops over a page -/

section Loops

variable {store : MessageStore} {source : ReactionAggregateSource} {fallback : ℤ}
  {items : List ExtractedMessage}

theorem recordMessageObservation_of_ne {item : ExtractedMessage} {key : MessageKey}
    (h : key ≠ item.key) :
    (store.recordMessageObservation source fallback item).observations key =
        store.observations key ∧
      (store.recordMessageObservation source fallback item).imageSources key =
        store.imageSources key :=
  ⟨Table.put_of_ne _ _ h, Table.put_of_ne _ _ h⟩

/-- What is recorded of a message depends on its own row. -/
theorem recordMessageObservation_congr {written : MessageStore} {item : ExtractedMessage}
    (h : written.observations item.key = store.observations item.key) :
    (written.recordMessageObservation source fallback item).observations item.key =
      (store.recordMessageObservation source fallback item).observations item.key := by
  have hself : ∀ store : MessageStore,
      (store.recordMessageObservation source fallback item).observations item.key =
        some _ := fun store => Table.put_self _ _ _
  rw [hself, hself, h]

/-- The messages that a page is not about keep their observations. -/
theorem foldl_record_of_notMem {key : MessageKey} (h : key ∉ items.map (·.key)) :
    (items.foldl (fun store item => store.recordMessageObservation source fallback item)
        store).observations key = store.observations key ∧
      (items.foldl (fun store item => store.recordMessageObservation source fallback item)
        store).imageSources key = store.imageSources key := by
  induction items generalizing store with
  | nil => exact ⟨rfl, rfl⟩
  | cons item items ih =>
    rw [List.map_cons, List.mem_cons, not_or] at h
    obtain ⟨hobservations, himageSources⟩ := @recordMessageObservation_of_ne store source fallback
      item key h.1
    obtain ⟨hrest, hrestSources⟩ :=
      @ih (store.recordMessageObservation source fallback item) h.2
    exact ⟨hrest.trans hobservations, hrestSources.trans himageSources⟩

/-- The messages of a page have their observations recorded. -/
theorem foldl_record_of_mem (hnodup : (items.map (·.key)).Nodup) {item : ExtractedMessage}
    (h : item ∈ items) :
    (items.foldl (fun store item => store.recordMessageObservation source fallback item)
        store).observations item.key =
      (store.recordMessageObservation source fallback item).observations item.key := by
  induction items generalizing store with
  | nil => cases h
  | cons first items ih =>
    rw [List.map_cons, List.nodup_cons] at hnodup
    rcases List.mem_cons.mp h with rfl | h
    · exact (foldl_record_of_notMem hnodup.1).1
    · have hne : item.key ≠ first.key := by
        intro heq
        exact hnodup.1 (heq ▸ List.mem_map_of_mem h)
      refine (ih hnodup.2 h).trans (recordMessageObservation_congr ?_)
      exact (recordMessageObservation_of_ne hne).1

/-- The messages that a page is not about keep their entities and their forward headers. -/
theorem replaceEntitiesAndForwards_of_notMem {key : MessageKey} (h : key ∉ items.map (·.key)) :
    (store.replaceEntitiesAndForwards items).entities key = store.entities key ∧
      (store.replaceEntitiesAndForwards items).forwards key = store.forwards key := by
  rw [replaceEntitiesAndForwards]
  induction items generalizing store with
  | nil => exact ⟨rfl, rfl⟩
  | cons item items ih =>
    rw [List.map_cons, List.mem_cons, not_or] at h
    rw [List.foldl_cons, (ih h.2).1, (ih h.2).2]
    exact ⟨Function.update_of_ne h.1 _ _, Function.update_of_ne h.1 _ _⟩

/-- The entities and the forward header of a message of the page. -/
theorem replaceEntitiesAndForwards_of_mem (hnodup : (items.map (·.key)).Nodup)
    {item : ExtractedMessage} (h : item ∈ items) :
    (store.replaceEntitiesAndForwards items).entities item.key =
        item.entities.foldl insertEntity [] ∧
      (store.replaceEntitiesAndForwards items).forwards item.key = item.forward := by
  induction items generalizing store with
  | nil => cases h
  | cons first items ih =>
    rw [List.map_cons, List.nodup_cons] at hnodup
    rcases List.mem_cons.mp h with rfl | h
    · obtain ⟨hentities, hforwards⟩ := @replaceEntitiesAndForwards_of_notMem
        (store.replaceEntitiesAndForwards [item]) items item.key hnodup.1
      refine ⟨hentities.trans (Function.update_self _ _ _),
        hforwards.trans (Function.update_self _ _ _)⟩
    · exact @ih (store.replaceEntitiesAndForwards [first]) hnodup.2 h

/-- The loops over the entities and the forward headers change no other table. -/
theorem replaceEntitiesAndForwards_rest : store.replaceEntitiesAndForwards items =
    { store with
      entities := (store.replaceEntitiesAndForwards items).entities
      forwards := (store.replaceEntitiesAndForwards items).forwards } := by
  have hloop : ∀ store : MessageStore, ∃ entities forwards,
      store.replaceEntitiesAndForwards items = { store with entities, forwards } := by
    induction items with
    | nil => exact fun store => ⟨store.entities, store.forwards, rfl⟩
    | cons item items ih =>
      intro store
      obtain ⟨entities, forwards, hrest⟩ := ih (store.replaceEntitiesAndForwards [item])
      exact ⟨entities, forwards, hrest⟩
  obtain ⟨entities, forwards, hrest⟩ := hloop store
  rw [hrest]

/-- The loop over the transcriptions changes no other table, and no transcription of a message that
the page is not about. -/
theorem dropTranscriptions_rest (env : MessageEnv) (facts : MessageKey → StoredPageFact) :
    (∃ transcriptions,
      (store.dropTranscriptions env facts items).1 = { store with transcriptions } ∧
      ∀ key, key ∉ items.map (·.key) → transcriptions key = store.transcriptions key) ∧
    ∀ key text stemmed,
      ftsRefreshNeeded ((store.dropTranscriptions env facts items).2 key) text stemmed =
        ftsRefreshNeeded (facts key) text stemmed := by
  rw [dropTranscriptions]
  induction items generalizing store facts with
  | nil => exact ⟨⟨store.transcriptions, rfl, fun _ _ => rfl⟩, fun _ _ _ => rfl⟩
  | cons item items ih =>
    rw [List.foldl_cons]
    dsimp only
    split_ifs
    · obtain ⟨⟨transcriptions, hstore, hrest⟩, hfacts⟩ := @ih
        { store with transcriptions := store.transcriptions.drop item.key }
        (Function.update facts item.key { facts item.key with transcription := none })
      refine ⟨⟨transcriptions, hstore, ?_⟩, ?_⟩
      · intro key hkey
        rw [List.map_cons, List.mem_cons, not_or] at hkey
        rw [hrest key hkey.2]
        exact (Table.drop_apply _ _ _).trans (if_neg hkey.1)
      · intro key text stemmed
        rw [hfacts, Function.update_apply]
        split_ifs with hkey
        · rw [hkey]
          rfl
        · rfl
    · obtain ⟨⟨transcriptions, hstore, hrest⟩, hfacts⟩ := @ih store facts
      refine ⟨⟨transcriptions, hstore, ?_⟩, hfacts⟩
      intro key hkey
      rw [List.map_cons, List.mem_cons, not_or] at hkey
      exact hrest key hkey.2

/-- Only the bodies, the index and the queue differ. -/
def OnlyPage (store written : MessageStore) : Prop :=
  written = { store with
    messages := written.messages, ftsKeys := written.ftsKeys, fts := written.fts
    jobs := written.jobs }

theorem OnlyPage.trans {written last : MessageStore} (h : OnlyPage store written)
    (h' : OnlyPage written last) : OnlyPage store last := by
  rw [OnlyPage, h', h]

theorem OnlyPage.of_jobs {written : MessageStore} (h : OnlyJobs store written) :
    OnlyPage store written := by
  rw [OnlyPage, h]

/-- A loop of such changes is such a change. -/
theorem OnlyPage.foldl {f : MessageStore → ExtractedMessage → MessageStore}
    (h : ∀ store item, OnlyPage store (f store item)) (items : List ExtractedMessage)
    (store : MessageStore) : OnlyPage store (items.foldl f store) := by
  induction items generalizing store with
  | nil => exact rfl
  | cons item items ih => exact (h store item).trans (ih (f store item))

/-- Writing a page touches the bodies, the index and the queue only. -/
theorem writeMessageRowsAndFts_onlyPage (env : MessageEnv) (reads : MessageReads)
    (before : MessageStore) (facts : MessageKey → StoredPageFact) (priority : HydrationPriority) :
    OnlyPage store (store.writeMessageRowsAndFts env reads before facts priority items) := by
  rw [writeMessageRowsAndFts]
  refine (OnlyPage.foldl ?_ _ _).trans ((OnlyPage.foldl ?_ _ _).trans ((OnlyPage.foldl ?_ _ _).trans
    (OnlyPage.foldl ?_ _ _)))
  · intro store item
    rfl
  · intro store item
    rfl
  · intro store item
    rw [insertFts]
    split_ifs <;> rfl
  · intro store item
    exact OnlyPage.of_jobs
      (reconcileFactHydrationJob_onlyJobs env reads store before facts priority item)

end Loops

/-! ## A page -/

/-- The order that stands in for a missing one on a page. -/
def pageOrder (store : MessageStore) (items : List ExtractedMessage) : ℤ :=
  if items.any fun item => item.observationOrder.isNone then store.sequence + 1 else 0

/-- What inserting a page leaves, when these are the bundles that were picked. -/
structure PageInserted (env : MessageEnv) (store : MessageStore) (source : ReactionAggregateSource)
    (accepted : List ExtractedMessage) (written : MessageStore) : Prop where
  wrote : ∀ item ∈ accepted,
    WrittenAt env store source (store.pageOrder accepted) item written
  kept : ∀ key, key ∉ accepted.map (·.key) → SameAt key store written
  nonchannel : written.nonchannelDeletions = store.nonchannelDeletions
  sequence : written.sequence =
    if accepted.any fun item => item.observationOrder.isNone then store.sequence + 1
    else store.sequence

section Page

variable {env : MessageEnv} {reads : MessageReads} {store written : MessageStore}
  {source : ReactionAggregateSource} {priority : HydrationPriority}
  {accepted extracted : List ExtractedMessage}

/-- The observations of the bundles of a page, with their media settled. -/
theorem recordMessageObservations_page (hnodup : (accepted.map (·.key)).Nodup) :
    (∀ item ∈ accepted, (store.recordMessageObservations
        (accepted.map store.preserveNewerReceivedMedia) source).observations item.key =
      store.observationAfter source (store.pageOrder accepted) item) ∧
    (∀ key, key ∉ accepted.map (·.key) →
      (store.recordMessageObservations (accepted.map store.preserveNewerReceivedMedia)
          source).observations key = store.observations key ∧
        (store.recordMessageObservations (accepted.map store.preserveNewerReceivedMedia)
          source).imageSources key = store.imageSources key) ∧
    (store.recordMessageObservations (accepted.map store.preserveNewerReceivedMedia)
        source).sequence =
      if accepted.any fun item => item.observationOrder.isNone then store.sequence + 1
      else store.sequence := by
  have hkeys : (accepted.map store.preserveNewerReceivedMedia).map (·.key) =
      accepted.map (·.key) := by
    rw [List.map_map]
    exact List.map_congr_left fun item _ => store.preserveNewerReceivedMedia_key item
  have hany : ((accepted.map store.preserveNewerReceivedMedia).any fun item =>
      item.observationOrder.isNone) = accepted.any fun item => item.observationOrder.isNone := by
    rw [List.any_map]
    congr 1
    funext item
    exact congrArg Option.isNone (store.preserveNewerReceivedMedia_rest item).2.1
  have hsequence : ∀ (items : List ExtractedMessage) (fallback : ℤ) (store : MessageStore),
      (items.foldl (fun store item => store.recordMessageObservation source fallback item)
        store).sequence = store.sequence := by
    intro items fallback
    induction items with
    | nil => exact fun store => rfl
    | cons item items ih =>
      exact fun store => ih (store.recordMessageObservation source fallback item)
  have hpage : store.recordMessageObservations (accepted.map store.preserveNewerReceivedMedia)
      source = (accepted.map store.preserveNewerReceivedMedia).foldl
        (fun written item =>
          written.recordMessageObservation source (store.pageOrder accepted) item)
        { store with
          sequence := if accepted.any fun item => item.observationOrder.isNone then
            store.sequence + 1 else store.sequence } := by
    rw [recordMessageObservations, hany, pageOrder]
    split_ifs
    · rfl
    · rfl
  rw [hpage]
  generalize hbase : ({ store with
    sequence := if accepted.any fun item => item.observationOrder.isNone then store.sequence + 1
      else store.sequence } : MessageStore) = base
  have hobservations : base.observations = store.observations := by rw [← hbase]
  have himageSources : base.imageSources = store.imageSources := by rw [← hbase]
  refine ⟨?_, ?_, ?_⟩
  · intro item hitem
    have hkept := @foldl_record_of_mem base source (store.pageOrder accepted)
      (accepted.map store.preserveNewerReceivedMedia) (hkeys ▸ hnodup)
      (store.preserveNewerReceivedMedia item) (List.mem_map_of_mem hitem)
    have hsame := @recordMessageObservation_congr store source (store.pageOrder accepted) base
      (store.preserveNewerReceivedMedia item) (congrFun hobservations _)
    rw [preserveNewerReceivedMedia_key] at hkept hsame
    exact hkept.trans hsame
  · intro key hkey
    obtain ⟨hrest, hrestSources⟩ := @foldl_record_of_notMem base source (store.pageOrder accepted)
      (accepted.map store.preserveNewerReceivedMedia) key (hkeys ▸ hkey)
    exact ⟨hrest.trans (congrFun hobservations key),
      hrestSources.trans (congrFun himageSources key)⟩
  · rw [hsequence, ← hbase]

/-- The bundles that are written for a page. -/
theorem projected_page (env : MessageEnv) (store : MessageStore)
    (accepted : List ExtractedMessage) :
    (((accepted.map store.preserveNewerReceivedMedia).map
        (preserveTranscribedText store.storedPageFact)).map fun item =>
      (overlayMessageTranscription env store.storedPageFact item).1) =
        accepted.map fun item => (store.projectedBundle env item).1 := by
  rw [List.map_map, List.map_map]
  rfl

/-- What the bundles of a page leave before the loop over the entities and the forward headers. -/
structure RowsInserted (env : MessageEnv) (store : MessageStore) (source : ReactionAggregateSource)
    (accepted : List ExtractedMessage) (page : MessageStore) : Prop where
  messages : ∀ item ∈ accepted,
    page.messages item.key = some (rowOf (store.projectedBundle env item).1)
  observations : ∀ item ∈ accepted,
    page.observations item.key = store.observationAfter source (store.pageOrder accepted) item
  fts : ∀ item ∈ accepted, page.ftsRows item.key =
    if ftsRefreshNeeded (store.storedPageFact item.key)
        (store.projectedBundle env item).1.message.text
        (env.stemText (store.projectedBundle env item).1.message.text) then
      [⟨item.key, env.stemText (store.projectedBundle env item).1.message.text⟩]
    else store.ftsRows item.key
  kept : ∀ key, key ∉ accepted.map (·.key) → SameAt key store page
  nonchannel : page.nonchannelDeletions = store.nonchannelDeletions
  sequence : page.sequence =
    if accepted.any fun item => item.observationOrder.isNone then store.sequence + 1
    else store.sequence

/-- The bundles that are written are about the messages of the page. -/
theorem projected_keys (env : MessageEnv) (store : MessageStore)
    (accepted : List ExtractedMessage) :
    (accepted.map fun item => (store.projectedBundle env item).1).map (·.key) =
      accepted.map (·.key) := by
  rw [List.map_map]
  exact List.map_congr_left fun item _ => store.projectedBundle_key env item

/-- The page before the loop over the entities and the forward headers. -/
theorem rowsInserted_page (hnodup : (accepted.map (·.key)).Nodup) :
    let recorded := store.recordMessageObservations
      (accepted.map store.preserveNewerReceivedMedia) source
    let dropped := recorded.dropTranscriptions env store.storedPageFact
      ((accepted.map store.preserveNewerReceivedMedia).map
        (preserveTranscribedText store.storedPageFact))
    RowsInserted env store source accepted
      (dropped.1.writeMessageRowsAndFts env reads store dropped.2 priority
        (accepted.map fun item => (store.projectedBundle env item).1)) := by
  dsimp only
  obtain ⟨hobservations, hrecordedRest, hsequence⟩ :=
    @recordMessageObservations_page store source accepted hnodup
  have hrecorded := recordMessageObservations_rest store source
    (accepted.map store.preserveNewerReceivedMedia)
  generalize store.recordMessageObservations (accepted.map store.preserveNewerReceivedMedia)
    source = recorded at hobservations hrecordedRest hsequence hrecorded ⊢
  have hpreservedKeys : ((accepted.map store.preserveNewerReceivedMedia).map
      (preserveTranscribedText store.storedPageFact)).map (·.key) = accepted.map (·.key) := by
    rw [List.map_map, List.map_map]
    refine List.map_congr_left fun item _ => ?_
    exact (preserveTranscribedText_key _ _).trans (preserveNewerReceivedMedia_key _ _)
  obtain ⟨⟨transcriptions, hdropped, htranscriptions⟩, hrefresh⟩ :=
    @dropTranscriptions_rest recorded ((accepted.map store.preserveNewerReceivedMedia).map
      (preserveTranscribedText store.storedPageFact)) env store.storedPageFact
  rw [hpreservedKeys] at htranscriptions
  generalize recorded.dropTranscriptions env store.storedPageFact
    ((accepted.map store.preserveNewerReceivedMedia).map
      (preserveTranscribedText store.storedPageFact)) = dropped at hdropped hrefresh ⊢
  have hprojectedKeys := projected_keys env store accepted
  have hpage := @writeMessageRowsAndFts_onlyPage dropped.1
    (accepted.map fun item => (store.projectedBundle env item).1) env reads store dropped.2 priority
  have hrows := @writeMessageRowsAndFts_spec env reads dropped.1 store dropped.2 priority
    (accepted.map fun item => (store.projectedBundle env item).1) (hprojectedKeys ▸ hnodup)
  generalize dropped.1.writeMessageRowsAndFts env reads store dropped.2 priority
    (accepted.map fun item => (store.projectedBundle env item).1) = page at hpage hrows ⊢
  have hpairs : ((accepted.map fun item => (store.projectedBundle env item).1).map
      fun item => (item.key, rowOf item)).map Prod.fst = accepted.map (·.key) := by
    rw [List.map_map]
    exact hprojectedKeys
  have hmessages : page.messages = store.messages.putAll
      ((accepted.map fun item => (store.projectedBundle env item).1).map
        fun item => (item.key, rowOf item)) := by
    rw [hrows.messages, hdropped, hrecorded]
  have hrowsBefore : ∀ key, dropped.1.ftsRows key = store.ftsRows key := by
    intro key
    rw [ftsRows, hdropped, hrecorded]
    rfl
  constructor
  case messages =>
    intro item hitem
    have hmem : (store.projectedBundle env item).1 ∈
        accepted.map fun item => (store.projectedBundle env item).1 :=
      List.mem_map_of_mem (f := fun item => (store.projectedBundle env item).1) hitem
    rw [hmessages, ← store.projectedBundle_key env item]
    exact Table.putAll_of_mem _ (hpairs ▸ hnodup)
      (List.mem_map_of_mem (f := fun item => (item.key, rowOf item)) hmem)
  case observations =>
    intro item hitem
    rw [hpage, hdropped]
    exact hobservations item hitem
  case fts =>
    intro item hitem
    have hpageRows := hrows.rows _
      (List.mem_map_of_mem (f := fun item => (store.projectedBundle env item).1) hitem)
    rw [store.projectedBundle_key env item, hrefresh, hrowsBefore] at hpageRows
    exact hpageRows
  case kept =>
    intro key hkey
    obtain ⟨hkeptObservations, hkeptSources⟩ := hrecordedRest key hkey
    have hfts := hrows.rest key (hprojectedKeys ▸ hkey)
    rw [hrowsBefore] at hfts
    have hkeptMessages : page.messages key = store.messages key := by
      rw [hmessages]
      exact Table.putAll_of_notMem _ (hpairs ▸ hkey)
    have hkeptTranscriptions := htranscriptions key hkey
    refine ⟨hkeptMessages, ?_, ?_, ?_, ?_, ?_, hfts, ?_⟩ <;> rw [hpage, hdropped]
    · exact hkeptObservations
    · exact hkeptSources
    · dsimp only
      rw [hrecorded]
    · dsimp only
      rw [hrecorded]
    · rw [hrecorded] at hkeptTranscriptions
      exact hkeptTranscriptions
    · dsimp only
      rw [hrecorded]
  case nonchannel =>
    rw [hpage, hdropped]
    dsimp only
    rw [hrecorded]
  case sequence =>
    rw [hpage, hdropped]
    exact hsequence

/-- The loop over the entities and the forward headers completes the page. -/
theorem RowsInserted.inserted {page : MessageStore}
    (h : RowsInserted env store source accepted page) (hnodup : (accepted.map (·.key)).Nodup) :
    PageInserted env store source accepted (page.replaceEntitiesAndForwards
      (accepted.map fun item => (store.projectedBundle env item).1)) := by
  have hkeys := projected_keys env store accepted
  have hrest := @replaceEntitiesAndForwards_rest page
    (accepted.map fun item => (store.projectedBundle env item).1)
  constructor
  · intro item hitem
    obtain ⟨hentities, hforwards⟩ := @replaceEntitiesAndForwards_of_mem page
      (accepted.map fun item => (store.projectedBundle env item).1) (hkeys ▸ hnodup) _
      (List.mem_map_of_mem (f := fun item => (store.projectedBundle env item).1) hitem)
    rw [store.projectedBundle_key env item] at hentities hforwards
    rw [store.projectedBundle_entities env item] at hentities
    rw [store.projectedBundle_forward env item] at hforwards
    refine ⟨?_, ?_, hentities, hforwards, ?_⟩ <;> rw [hrest]
    · exact h.messages item hitem
    · exact h.observations item hitem
    · exact h.fts item hitem
  · intro key hkey
    obtain ⟨hentities, hforwards⟩ := @replaceEntitiesAndForwards_of_notMem page
      (accepted.map fun item => (store.projectedBundle env item).1) key (hkeys ▸ hkey)
    have hkept := h.kept key hkey
    refine ⟨?_, ?_, ?_, hentities.trans hkept.entities, hforwards.trans hkept.forwards, ?_, ?_, ?_⟩
      <;> rw [hrest]
    · exact hkept.messages
    · exact hkept.observations
    · exact hkept.imageSources
    · exact hkept.transcriptions
    · exact hkept.fts
    · exact hkept.nonchannel
  · rw [hrest]
    exact h.nonchannel
  · rw [hrest]
    exact h.sequence

/-- A page whose bundles the queue accepts is written. -/
theorem insertMessagesWithFts_page {count : ℕ}
    (h : store.insertMessagesWithFts env reads extracted source priority = .ok (count, written)) :
    PageInserted env store source (store.acceptedMessageBundles extracted source) written := by
  obtain ⟨hnodup, -⟩ := store.acceptedMessageBundles_spec extracted source
  rw [insertMessagesWithFts] at h
  generalize store.acceptedMessageBundles extracted source = accepted at h hnodup ⊢
  dsimp only at h
  split at h
  · rename_i hempty
    cases h
    subst hempty
    exact ⟨by simp, fun key _ => SameAt.refl key store, rfl, rfl⟩
  · split at h
    · cases h
    · cases h
      rw [projected_page]
      exact (rowsInserted_page hnodup).inserted hnodup

/-- A page raises just when a bundle that was picked has an identity that the queue rejects. -/
theorem insertMessagesWithFts_returns :
    if ∀ item ∈ store.acceptedMessageBundles extracted source, item.message.ValidJob then
      ∃ result, store.insertMessagesWithFts env reads extracted source priority = .ok result
    else store.insertMessagesWithFts env reads extracted source priority = .error .invalidJob := by
  have hkept : ∀ item, (store.preserveNewerReceivedMedia item).message.ValidJob ↔
      item.message.ValidJob := by
    intro item
    obtain ⟨kind, payload, hmessage⟩ := store.preserveNewerReceivedMedia_message item
    rw [hmessage]
    exact Iff.rfl
  have hany : (((store.acceptedMessageBundles extracted source).map
      store.preserveNewerReceivedMedia).any fun item => ¬ item.message.ValidJob) = true ↔
        ¬ ∀ item ∈ store.acceptedMessageBundles extracted source, item.message.ValidJob := by
    rw [List.any_map, List.any_eq_true]
    simp only [Function.comp_apply, hkept, decide_eq_true_eq]
    push Not
    rfl
  rw [insertMessagesWithFts]
  dsimp only
  by_cases hempty : store.acceptedMessageBundles extracted source = []
  · rw [if_pos hempty, hempty, if_pos (by simp)]
    exact ⟨_, rfl⟩
  · rw [if_neg hempty]
    by_cases hvalid : ∀ item ∈ store.acceptedMessageBundles extracted source,
        item.message.ValidJob
    · rw [if_pos hvalid, if_neg fun h => hany.mp h hvalid]
      exact ⟨_, rfl⟩
    · rw [if_neg hvalid, if_pos (hany.mpr hvalid)]

end Page

/-! ## One bundle after the other -/

section Each

variable {env : MessageEnv} {reads : MessageReads} {store written last : MessageStore}
  {source : ReactionAggregateSource} {priority : HydrationPriority} {fallback : ℤ}
  {item : ExtractedMessage} {items : List ExtractedMessage}

/-- A bundle with an order of its own needs no other. -/
theorem WrittenAt.of_ordered (h : WrittenAt env store source fallback item written)
    (hordered : item.observationOrder ≠ none) (other : ℤ) :
    WrittenAt env store source other item written := by
  refine ⟨h.messages, h.observations.trans ?_, h.entities, h.forwards, h.fts⟩
  have horder := (store.preserveNewerReceivedMedia_rest item).2.1
  obtain ⟨order, hsome⟩ := Option.ne_none_iff_exists'.mp hordered
  rw [observationAfter, observationAfter, recordMessageObservation, recordMessageObservation,
    horder, hsome]
  rfl

/-- What a bundle leaves depends on what was stored of its message. -/
theorem WrittenAt.of_same (h : WrittenAt env written source fallback item last)
    (hsame : SameAt item.key store written) : WrittenAt env store source fallback item last := by
  refine ⟨?_, ?_, h.entities, h.forwards, ?_⟩
  · rw [h.messages, hsame.projected env]
  · rw [h.observations, observationAfter, observationAfter, hsame.media]
    have hkey := preserveNewerReceivedMedia_key store item
    have hcongr := @recordMessageObservation_congr store source fallback written
      (store.preserveNewerReceivedMedia item) (by rw [hkey]; exact hsame.observations)
    rw [hkey] at hcongr
    exact hcongr
  · rw [h.fts, hsame.fact, hsame.projected env, hsame.fts]

/-- What a bundle leaves stays when its message is left alone. -/
theorem WrittenAt.of_kept (h : WrittenAt env store source fallback item written)
    (hsame : SameAt item.key written last) : WrittenAt env store source fallback item last :=
  ⟨hsame.messages.trans h.messages, hsame.observations.trans h.observations,
    hsame.entities.trans h.entities, hsame.forwards.trans h.forwards, hsame.fts.trans h.fts⟩

/-- The calls of an insertion of one bundle after the other. -/
def eachCall (reads : MessageReads) (priority : HydrationPriority)
    (items : List ExtractedMessage) :
    List (MessageReads × HydrationPriority × ExtractedMessage) :=
  items.map fun item => (reads, priority, item)

/-- Inserting a bundle and then the others. -/
theorem insertEach_cons : store.insertEach env source (eachCall reads priority (item :: items)) =
    (store.insertMessagesWithFts env reads [item] source priority).bind fun result =>
      result.2.insertEach env source (eachCall reads priority items) := by
  rw [insertEach, eachCall, List.map_cons, List.foldlM_cons]
  dsimp only
  cases store.insertMessagesWithFts env reads [item] source priority with
  | error error => rfl
  | ok result => rfl

/-- What bundles of different messages leave when they are inserted one after the other. -/
structure EachInserted (env : MessageEnv) (store : MessageStore) (source : ReactionAggregateSource)
    (items : List ExtractedMessage) (written : MessageStore) : Prop where
  wrote : ∀ item ∈ items, ∃ fallback, WrittenAt env store source fallback item written ∧
    ((items.countP fun item => item.observationOrder.isNone) ≤ 1 → fallback = store.sequence + 1)
  kept : ∀ key, key ∉ items.map (·.key) → SameAt key store written

/-- A current bundle that the queue accepts, inserted alone. -/
theorem insertMessagesWithFts_alone (hcurrent : store.isCurrentObservation item source = true)
    (hvalid : item.message.ValidJob) : ∃ written,
    store.insertMessagesWithFts env reads [item] source priority = .ok (1, written) ∧
      PageInserted env store source [item] written := by
  obtain ⟨written, hinsert, -⟩ :=
    insertMessagesWithFts_single env reads store item source priority hcurrent hvalid
  have hpage := insertMessagesWithFts_page hinsert
  rw [acceptedMessageBundles_single, if_pos hcurrent] at hpage
  exact ⟨written, hinsert, hpage⟩

/-- Current bundles of different messages, inserted one after the other. -/
theorem insertEach_current (hnodup : (items.map (·.key)).Nodup)
    (hcurrent : ∀ item ∈ items, store.isCurrentObservation item source = true)
    (hvalid : ∀ item ∈ items, item.message.ValidJob) : ∃ written,
    store.insertEach env source (eachCall reads priority items) = .ok written ∧
      EachInserted env store source items written := by
  induction items generalizing store with
  | nil => exact ⟨store, rfl, by simp, fun key _ => SameAt.refl key store⟩
  | cons first items ih =>
    rw [List.map_cons, List.nodup_cons] at hnodup
    obtain ⟨middle, hinsert, hpage⟩ := @insertMessagesWithFts_alone env reads store source priority
      first (hcurrent first List.mem_cons_self) (hvalid first List.mem_cons_self)
    have hother : ∀ key, key ≠ first.key → SameAt key store middle := by
      intro key hne
      exact hpage.kept key (by simpa using hne)
    have hne : ∀ item ∈ items, item.key ≠ first.key := by
      intro item hitem heq
      exact hnodup.1 (heq ▸ List.mem_map_of_mem hitem)
    obtain ⟨written, heach, hinserted⟩ := @ih middle hnodup.2
      (fun item hitem => ((hother item.key (hne item hitem)).current source).trans
        (hcurrent item (List.mem_cons_of_mem _ hitem)))
      (fun item hitem => hvalid item (List.mem_cons_of_mem _ hitem))
    refine ⟨written, ?_, ?_, ?_⟩
    · rw [insertEach_cons, hinsert]
      exact heach
    · intro item hitem
      rcases List.mem_cons.mp hitem with rfl | hitem
      · -- the first bundle: the others leave its message alone
        have hwrote := (hpage.wrote item List.mem_cons_self).of_kept
          (hinserted.kept item.key hnodup.1)
        by_cases hordered : item.observationOrder = none
        · refine ⟨_, hwrote, fun _ => ?_⟩
          rw [pageOrder, if_pos (by simp [hordered])]
        · exact ⟨store.sequence + 1, hwrote.of_ordered hordered _, fun _ => rfl⟩
      · obtain ⟨fallback, hwrote, hfallback⟩ := hinserted.wrote item hitem
        have hwrote := hwrote.of_same (hother item.key (hne item hitem))
        by_cases hordered : item.observationOrder = none
        · refine ⟨fallback, hwrote, fun hcount => ?_⟩
          -- the only bundle without an order is this one, so the first one took no number
          have hone : 0 < items.countP fun item => item.observationOrder.isNone :=
            List.countP_pos_iff.mpr ⟨item, hitem, by simp [hordered]⟩
          rw [List.countP_cons] at hcount
          have hfirst : first.observationOrder.isNone = false := by
            by_contra hnone
            rw [if_pos (by simpa using hnone)] at hcount
            omega
          have hsequence : middle.sequence = store.sequence := by
            rw [hpage.sequence, if_neg (by simp [hfirst])]
          rw [hfallback (by omega), hsequence]
        · exact ⟨store.sequence + 1, hwrote.of_ordered hordered _, fun _ => rfl⟩
    · intro key hkey
      rw [List.map_cons, List.mem_cons, not_or] at hkey
      exact (hother key hkey.1).trans (hinserted.kept key hkey.2)

/-- An invalid bundle stops the insertion of one after the other. -/
theorem insertEach_invalid (hnodup : (items.map (·.key)).Nodup)
    (hcurrent : ∀ item ∈ items, store.isCurrentObservation item source = true)
    (hinvalid : ∃ item ∈ items, ¬ item.message.ValidJob) :
    store.insertEach env source (eachCall reads priority items) = .error .invalidJob := by
  induction items generalizing store with
  | nil => simp at hinvalid
  | cons first items ih =>
    rw [List.map_cons, List.nodup_cons] at hnodup
    rw [insertEach_cons]
    by_cases hfirst : first.message.ValidJob
    · obtain ⟨middle, hinsert, hpage⟩ := @insertMessagesWithFts_alone env reads store source
        priority first (hcurrent first List.mem_cons_self) hfirst
      rw [hinsert]
      refine ih hnodup.2 ?_ ?_
      · intro item hitem
        have hne : item.key ≠ first.key := by
          intro heq
          exact hnodup.1 (heq ▸ List.mem_map_of_mem hitem)
        have hsame : SameAt item.key store middle := hpage.kept item.key (by simpa using hne)
        exact (hsame.current source).trans (hcurrent item (List.mem_cons_of_mem _ hitem))
      · obtain ⟨item, hitem, hbad⟩ := hinvalid
        rcases List.mem_cons.mp hitem with rfl | hitem
        · exact absurd hfirst hbad
        · exact ⟨item, hitem, hbad⟩
    · rw [insertMessagesWithFts_invalid env reads store first source priority
        (hcurrent first List.mem_cons_self) hfirst]
      rfl

/-- Bundles that are not current leave nothing behind, so of bundles of different messages only the
current ones count. -/
theorem insertEach_filter (hnodup : (items.map (·.key)).Nodup) :
    store.insertEach env source (eachCall reads priority items) =
      store.insertEach env source (eachCall reads priority
        (items.filter fun item => store.isCurrentObservation item source)) := by
  induction items generalizing store with
  | nil => rfl
  | cons first items ih =>
    rw [List.map_cons, List.nodup_cons] at hnodup
    rw [insertEach_cons, List.filter_cons]
    by_cases hcurrent : store.isCurrentObservation first source = true
    · rw [if_pos hcurrent, insertEach_cons]
      cases hinsert : store.insertMessagesWithFts env reads [first] source priority with
      | error error => rfl
      | ok result =>
        have hpage := insertMessagesWithFts_page hinsert
        rw [acceptedMessageBundles_single, if_pos hcurrent] at hpage
        have hfilter : (items.filter fun item => result.2.isCurrentObservation item source) =
            items.filter fun item => store.isCurrentObservation item source := by
          refine List.filter_congr fun item hitem => ?_
          have hne : item.key ≠ first.key := by
            intro heq
            exact hnodup.1 (heq ▸ List.mem_map_of_mem hitem)
          have hsame : SameAt item.key store result.2 := hpage.kept item.key (by simpa using hne)
          exact hsame.current source
        have hrest := @ih result.2 hnodup.2
        rw [hfilter] at hrest
        exact hrest
    · rw [if_neg hcurrent, insertMessagesWithFts_rejected env reads store first source priority
        hcurrent]
      exact ih hnodup.2

end Each

/-! ## The bundle that is picked for a message -/

/-- Being superseded is transitive. -/
theorem supersedes_trans {first second third : ExtractedMessage} (h : supersedes second first)
    (h' : supersedes third second) : supersedes third first := by
  simp only [supersedes, Bool.or_eq_true, Bool.and_eq_true, decide_eq_true_eq] at *
  omega

/-- Of two bundles one supersedes the other. -/
theorem supersedes_total (first second : ExtractedMessage) :
    supersedes first second ∨ supersedes second first := by
  simp only [supersedes, Bool.or_eq_true, Bool.and_eq_true, decide_eq_true_eq]
  omega

/-- The bundle of a page that counts for its message: it is current, it supersedes the current
bundles of its message that come before it, and none of those that come after it supersedes it. -/
def Wins (store : MessageStore) (source : ReactionAggregateSource)
    (extracted : List ExtractedMessage) (item : ExtractedMessage) : Prop :=
  ∃ before after, extracted = before ++ item :: after ∧
    store.isCurrentObservation item source = true ∧
    (∀ other ∈ before, other.key = item.key → store.isCurrentObservation other source = true →
      supersedes item other) ∧
    ∀ other ∈ after, other.key = item.key → store.isCurrentObservation other source = true →
      ¬ supersedes other item

section Picked

variable {store : MessageStore} {source : ReactionAggregateSource}
  {accepted extracted : List ExtractedMessage} {item other : ExtractedMessage}

/-- After an entry was set, the others are those of the other messages. -/
theorem mem_setAccepted : other ∈ setAccepted accepted item ↔
    other = item ∨ other ∈ accepted ∧ other.key ≠ item.key := by
  rw [setAccepted]
  split_ifs with hany
  · obtain ⟨prior, hprior, hkey⟩ := List.any_eq_true.mp hany
    rw [List.mem_map]
    constructor
    · rintro ⟨candidate, hcandidate, rfl⟩
      split_ifs with hsame
      · exact .inl rfl
      · exact .inr ⟨hcandidate, hsame⟩
    · rintro (rfl | ⟨hmem, hne⟩)
      · exact ⟨prior, hprior, if_pos (by simpa using hkey)⟩
      · exact ⟨other, hmem, if_neg hne⟩
  · rw [List.mem_append, List.mem_singleton]
    constructor
    · rintro (hmem | rfl)
      · refine .inr ⟨hmem, fun hkey => hany ?_⟩
        exact List.any_eq_true.mpr ⟨other, hmem, by simpa using hkey⟩
      · exact .inl rfl
    · rintro (rfl | ⟨hmem, -⟩)
      · exact .inr rfl
      · exact .inl hmem

/-- One more bundle of a page. -/
theorem acceptedMessageBundles_concat :
    store.acceptedMessageBundles (extracted ++ [item]) source =
      if store.isCurrentObservation item source then
        match (store.acceptedMessageBundles extracted source).find? fun prior =>
            prior.key = item.key with
        | none => setAccepted (store.acceptedMessageBundles extracted source) item
        | some prior =>
          if supersedes item prior then
            setAccepted (store.acceptedMessageBundles extracted source) item
          else store.acceptedMessageBundles extracted source
      else store.acceptedMessageBundles extracted source := by
  rw [acceptedMessageBundles, List.foldl_append]
  rfl

/-- One more bundle takes the place of the entry that it supersedes. -/
theorem mem_acceptedMessageBundles_concat :
    other ∈ store.acceptedMessageBundles (extracted ++ [item]) source ↔
      (other ∈ store.acceptedMessageBundles extracted source ∧
        ¬ (store.isCurrentObservation item source = true ∧ item.key = other.key ∧
          supersedes item other)) ∨
      (other = item ∧ store.isCurrentObservation item source = true ∧
        ∀ prior ∈ store.acceptedMessageBundles extracted source, prior.key = item.key →
          supersedes item prior) := by
  obtain ⟨hnodup, -⟩ := store.acceptedMessageBundles_spec extracted source
  rw [acceptedMessageBundles_concat]
  generalize store.acceptedMessageBundles extracted source = accepted at hnodup ⊢
  have hunique : ∀ first ∈ accepted, ∀ second ∈ accepted, first.key = second.key →
      first = second := fun first hfirst second hsecond hkey =>
    List.inj_on_of_nodup_map hnodup hfirst hsecond hkey
  by_cases hcurrent : store.isCurrentObservation item source = true
  · rw [if_pos hcurrent]
    cases hfind : accepted.find? fun prior => prior.key = item.key with
    | none =>
      have hnone : ∀ prior ∈ accepted, prior.key ≠ item.key := by
        simpa using List.find?_eq_none.mp hfind
      dsimp only
      rw [mem_setAccepted]
      constructor
      · rintro (rfl | ⟨hmem, hne⟩)
        · exact .inr ⟨rfl, hcurrent, fun prior hprior hkey => absurd hkey (hnone prior hprior)⟩
        · exact .inl ⟨hmem, fun h => hne h.2.1.symm⟩
      · rintro (⟨hmem, -⟩ | ⟨rfl, -⟩)
        · exact .inr ⟨hmem, hnone other hmem⟩
        · exact .inl rfl
    | some prior =>
      have hprior : prior ∈ accepted := List.mem_of_find?_eq_some hfind
      have hkey : prior.key = item.key := by simpa using List.find?_some hfind
      dsimp only
      split_ifs with hsupersedes
      · rw [mem_setAccepted]
        constructor
        · rintro (rfl | ⟨hmem, hne⟩)
          · refine .inr ⟨rfl, hcurrent, fun second hsecond hsame => ?_⟩
            rwa [hunique second hsecond prior hprior (hsame.trans hkey.symm)]
          · exact .inl ⟨hmem, fun h => hne h.2.1.symm⟩
        · rintro (⟨hmem, hkept⟩ | ⟨rfl, -⟩)
          · refine .inr ⟨hmem, fun hsame => hkept ⟨hcurrent, hsame.symm, ?_⟩⟩
            rwa [hunique other hmem prior hprior (hsame.trans hkey.symm)]
          · exact .inl rfl
      · constructor
        · intro hmem
          refine .inl ⟨hmem, fun h => hsupersedes ?_⟩
          rw [hunique prior hprior other hmem (hkey.trans h.2.1)]
          exact h.2.2
        · rintro (⟨hmem, -⟩ | ⟨-, -, hall⟩)
          · exact hmem
          · exact absurd (hall prior hprior hkey) hsupersedes
  · rw [if_neg hcurrent]
    constructor
    · exact fun hmem => .inl ⟨hmem, fun h => hcurrent h.1⟩
    · rintro (⟨hmem, -⟩ | ⟨-, h, -⟩)
      · exact hmem
      · exact absurd h hcurrent

/-- A current bundle is superseded by the entry of its message. -/
theorem exists_accepted_of_current (h : other ∈ extracted)
    (hcurrent : store.isCurrentObservation other source = true) :
    ∃ entry ∈ store.acceptedMessageBundles extracted source, entry.key = other.key ∧
      supersedes entry other := by
  induction extracted using List.reverseRecOn with
  | nil => cases h
  | append_singleton extracted item ih =>
    obtain ⟨hnodup, -⟩ := store.acceptedMessageBundles_spec extracted source
    rcases List.mem_append.mp h with h | h
    · obtain ⟨entry, hentry, hkey, hsupersedes⟩ := ih h
      by_cases hreplaced : store.isCurrentObservation item source = true ∧ item.key = entry.key ∧
          supersedes item entry
      · obtain ⟨hitem, hsame, hnew⟩ := hreplaced
        refine ⟨item, mem_acceptedMessageBundles_concat.mpr (.inr ⟨rfl, hitem, ?_⟩),
          hsame.trans hkey, supersedes_trans hsupersedes hnew⟩
        intro prior hprior hpriorKey
        rwa [List.inj_on_of_nodup_map hnodup hprior hentry (hpriorKey.trans hsame)]
      · exact ⟨entry, mem_acceptedMessageBundles_concat.mpr (.inl ⟨hentry, hreplaced⟩), hkey,
          hsupersedes⟩
    · obtain rfl := List.mem_singleton.mp h
      by_cases hall : ∀ prior ∈ store.acceptedMessageBundles extracted source,
          prior.key = other.key → supersedes other prior
      · refine ⟨other, mem_acceptedMessageBundles_concat.mpr (.inr ⟨rfl, hcurrent, hall⟩), rfl, ?_⟩
        exact (supersedes_total other other).elim id id
      · push Not at hall
        obtain ⟨prior, hprior, hkey, hnot⟩ := hall
        refine ⟨prior, mem_acceptedMessageBundles_concat.mpr (.inl ⟨hprior, ?_⟩), hkey,
          (supersedes_total prior other).resolve_right hnot⟩
        exact fun h => hnot h.2.2

/-- The entries of a page are the bundles that win. -/
theorem mem_acceptedMessageBundles_iff :
    item ∈ store.acceptedMessageBundles extracted source ↔ store.Wins source extracted item := by
  induction extracted using List.reverseRecOn generalizing item with
  | nil =>
    constructor
    · intro h
      cases h
    · rintro ⟨before, after, hsplit, -⟩
      simp at hsplit
  | append_singleton extracted last ih =>
    rw [mem_acceptedMessageBundles_concat]
    constructor
    · rintro (⟨hmem, hkept⟩ | ⟨rfl, hcurrent, hall⟩)
      · obtain ⟨before, after, rfl, hitem, hbefore, hafter⟩ := ih.mp hmem
        refine ⟨before, after ++ [last], by simp, hitem, hbefore, ?_⟩
        intro other hother hkey hcurrent
        rcases List.mem_append.mp hother with hother | hother
        · exact hafter other hother hkey hcurrent
        · obtain rfl := List.mem_singleton.mp hother
          exact fun h => hkept ⟨hcurrent, hkey, h⟩
      · refine ⟨extracted, [], rfl, hcurrent, ?_, by simp⟩
        intro other hother hkey hother'
        obtain ⟨entry, hentry, hsame, hsupersedes⟩ := exists_accepted_of_current hother hother'
        exact supersedes_trans hsupersedes (hall entry hentry (hsame.trans hkey))
    · rintro ⟨before, after, hsplit, hitem, hbefore, hafter⟩
      rcases List.eq_nil_or_concat after with rfl | ⟨initial, final, rfl⟩
      · obtain ⟨rfl, hlast⟩ := List.append_inj' hsplit rfl
        obtain rfl : last = item := List.head_eq_of_cons_eq hlast
        refine .inr ⟨rfl, hitem, ?_⟩
        intro prior hprior hkey
        obtain ⟨first, second, rfl, hcurrent, -⟩ := ih.mp hprior
        exact hbefore prior (by simp) hkey hcurrent
      · have hassoc : extracted ++ [last] = (before ++ item :: initial) ++ [final] := by
          rw [hsplit, List.append_assoc, List.cons_append, List.concat_eq_append]
        obtain ⟨rfl, hlast⟩ := List.append_inj' hassoc rfl
        obtain rfl : last = final := List.head_eq_of_cons_eq hlast
        refine .inl ⟨ih.mpr ⟨before, initial, rfl, hitem, hbefore, ?_⟩, ?_⟩
        · intro other hother
          exact hafter other (by simp [hother])
        · rintro ⟨hcurrent, hkey, hsupersedes⟩
          exact hafter last (by simp) hkey hcurrent hsupersedes

/-- Of bundles of different messages every current one is picked. -/
theorem acceptedMessageBundles_of_nodup (hnodup : (extracted.map (·.key)).Nodup) :
    store.acceptedMessageBundles extracted source =
      extracted.filter fun item => store.isCurrentObservation item source := by
  induction extracted using List.reverseRecOn with
  | nil => rfl
  | append_singleton extracted item ih =>
    rw [List.map_append, List.nodup_append] at hnodup
    have hnew : ∀ prior ∈ extracted, prior.key ≠ item.key := by
      intro prior hprior
      exact hnodup.2.2 _ (List.mem_map_of_mem hprior) _ (by simp)
    rw [acceptedMessageBundles_concat, ih hnodup.1, List.filter_append]
    by_cases hcurrent : store.isCurrentObservation item source = true
    · have hnone : (extracted.filter fun item => store.isCurrentObservation item source).find?
          (fun prior => prior.key = item.key) = none := by
        rw [List.find?_eq_none]
        intro prior hprior
        simpa using hnew prior (List.mem_of_mem_filter hprior)
      have hany : ((extracted.filter fun item => store.isCurrentObservation item source).any
          fun prior => prior.key = item.key) = false := by
        rw [List.any_eq_false]
        intro prior hprior
        simpa using hnew prior (List.mem_of_mem_filter hprior)
      rw [if_pos hcurrent, hnone]
      dsimp only
      rw [setAccepted, hany, if_neg Bool.false_ne_true, List.filter_singleton, hcurrent]
      rfl
    · rw [if_neg hcurrent, List.filter_singleton, eq_false_of_ne_true hcurrent]
      exact (List.append_nil _).symm

end Picked

/-! ## The page and its bundles -/

/-- Two stores are alike in what a page writes.  The observation rows agree where the bundle of the
message has an order of its own, and everywhere when at most one bundle has none. -/
structure SamePage (accepted : List ExtractedMessage) (page each : MessageStore) : Prop where
  messages : each.messages = page.messages
  fts : ∀ key, each.ftsRows key = page.ftsRows key
  entities : each.entities = page.entities
  forwards : each.forwards = page.forwards
  ordered : ∀ key, (∀ item ∈ accepted, item.key = key → item.observationOrder ≠ none) →
    each.observations key = page.observations key
  observations : (accepted.countP fun item => item.observationOrder.isNone) ≤ 1 →
    each.observations = page.observations

section Result

variable {env : MessageEnv} {store page each : MessageStore} {source : ReactionAggregateSource}
  {accepted : List ExtractedMessage}

/-- The bundles of a page leave the same together and one after the other. -/
theorem samePage_of_inserted (hpage : PageInserted env store source accepted page)
    (heach : EachInserted env store source accepted each) : SamePage accepted page each := by
  have hcases : ∀ key, (∃ item ∈ accepted, item.key = key) ∨ key ∉ accepted.map (·.key) := by
    intro key
    by_cases hkey : key ∈ accepted.map (·.key)
    · exact .inl (List.mem_map.mp hkey)
    · exact .inr hkey
  have hpageOrder : ∀ item ∈ accepted, item.observationOrder = none →
      store.pageOrder accepted = store.sequence + 1 := by
    intro item hitem hnone
    rw [pageOrder, if_pos]
    exact List.any_eq_true.mpr ⟨item, hitem, by simp [hnone]⟩
  have hordered : ∀ item ∈ accepted, item.observationOrder ≠ none →
      each.observations item.key = page.observations item.key := by
    intro item hitem hne
    obtain ⟨fallback, hwrote, -⟩ := heach.wrote item hitem
    rw [((hpage.wrote item hitem).of_ordered hne fallback).observations, hwrote.observations]
  have hbody : ∀ key, each.messages key = page.messages key ∧
      each.ftsRows key = page.ftsRows key ∧ each.entities key = page.entities key ∧
      each.forwards key = page.forwards key := by
    intro key
    rcases hcases key with ⟨item, hitem, rfl⟩ | hkey
    · obtain ⟨fallback, hwrote, -⟩ := heach.wrote item hitem
      have htogether := hpage.wrote item hitem
      exact ⟨hwrote.messages.trans htogether.messages.symm, hwrote.fts.trans htogether.fts.symm,
        hwrote.entities.trans htogether.entities.symm,
        hwrote.forwards.trans htogether.forwards.symm⟩
    · have hkept := heach.kept key hkey
      have htogether := hpage.kept key hkey
      exact ⟨hkept.messages.trans htogether.messages.symm, hkept.fts.trans htogether.fts.symm,
        hkept.entities.trans htogether.entities.symm,
        hkept.forwards.trans htogether.forwards.symm⟩
  refine ⟨funext fun key => (hbody key).1, fun key => (hbody key).2.1,
    funext fun key => (hbody key).2.2.1, funext fun key => (hbody key).2.2.2, ?_, ?_⟩
  · intro key hall
    rcases hcases key with ⟨item, hitem, rfl⟩ | hkey
    · exact hordered item hitem (hall item hitem rfl)
    · rw [(heach.kept key hkey).observations, (hpage.kept key hkey).observations]
  · intro hcount
    funext key
    rcases hcases key with ⟨item, hitem, rfl⟩ | hkey
    · by_cases hnone : item.observationOrder = none
      · obtain ⟨fallback, hwrote, hfallback⟩ := heach.wrote item hitem
        rw [hwrote.observations, (hpage.wrote item hitem).observations, hfallback hcount,
          hpageOrder item hitem hnone]
      · exact hordered item hitem hnone
    · rw [(heach.kept key hkey).observations, (hpage.kept key hkey).observations]

end Result

/-- For every store and every page: the bundles that are picked are those that win, one for each
message, and inserting the page raises or leaves what inserting them one after the other does.  When
the bundles of the page are of different messages, they may as well all be inserted one after the
other. -/
theorem page_equals_each (env : MessageEnv) (reads : MessageReads) (store : MessageStore)
    (extracted : List ExtractedMessage) (source : ReactionAggregateSource)
    (priority : HydrationPriority) :
    ((store.acceptedMessageBundles extracted source).map (·.key)).Nodup ∧
    (∀ item, item ∈ store.acceptedMessageBundles extracted source ↔
      store.Wins source extracted item) ∧
    ((extracted.map (·.key)).Nodup →
      store.insertEach env source (eachCall reads priority extracted) =
        store.insertEach env source (eachCall reads priority
          (store.acceptedMessageBundles extracted source))) ∧
    match store.insertMessagesWithFts env reads extracted source priority with
    | .error error => store.insertEach env source (eachCall reads priority
        (store.acceptedMessageBundles extracted source)) = .error error
    | .ok (_, page) => ∃ each, store.insertEach env source (eachCall reads priority
        (store.acceptedMessageBundles extracted source)) = .ok each ∧
          SamePage (store.acceptedMessageBundles extracted source) page each := by
  obtain ⟨hnodup, hcurrent⟩ := store.acceptedMessageBundles_spec extracted source
  refine ⟨hnodup, fun item => mem_acceptedMessageBundles_iff, ?_, ?_⟩
  · intro hdifferent
    rw [insertEach_filter hdifferent, acceptedMessageBundles_of_nodup hdifferent]
  · have hreturns := @insertMessagesWithFts_returns env reads store source priority extracted
    split_ifs at hreturns with hvalid
    · obtain ⟨⟨count, page⟩, hinsert⟩ := hreturns
      rw [hinsert]
      obtain ⟨each, heach, hinserted⟩ := insertEach_current hnodup hcurrent hvalid
      exact ⟨each, heach, samePage_of_inserted (insertMessagesWithFts_page hinsert) hinserted⟩
    · rw [hreturns]
      refine insertEach_invalid hnodup hcurrent ?_
      push Not at hvalid
      exact hvalid

/-- Two messages, the second one without an order of its own. -/
def twoMessages : List ExtractedMessage :=
  [bodyItem "first" none 3,
    { message := { key := ⟨7, 6⟩, sentAt := 100, text := some "second", editDate := none } }]

/-- A page of two messages leaves what its two bundles leave. -/
theorem page_equals_each_two : (twoMessages.map (·.key)).Nodup ∧
    insertEach sampleEnv .history {} (eachCall sampleReads .backfill twoMessages) =
      insertEach sampleEnv .history {} (eachCall sampleReads .backfill
        (acceptedMessageBundles {} twoMessages .history)) :=
  ⟨by decide, (page_equals_each sampleEnv sampleReads {} twoMessages .history .backfill).2.2.1
    (by decide)⟩

/-- On one page a dated bundle wins over an undated one of a later observation, which it would not
replace if that one was stored; and two bundles without an order of their own get one order on a
page, and two orders one after the other. -/
theorem page_differs_from_each :
    ((insertMessagesWithFts sampleEnv sampleReads {}
        [bodyItem "late" none 10, bodyItem "early" (some 5) 5] .history .backfill).toOption.map
      fun page => page.2.readMessageText ⟨7, 5⟩) = some (some (some "early")) ∧
    ((insertEach sampleEnv .history {} (eachCall sampleReads .backfill
        [bodyItem "late" none 10, bodyItem "early" (some 5) 5])).toOption.map
      fun each => each.readMessageText ⟨7, 5⟩) = some (some (some "late")) ∧
    ((insertMessagesWithFts sampleEnv sampleReads {}
        (twoMessages.map fun item => { item with observationOrder := none }) .history
          .backfill).toOption.map
      fun page => (page.2.observations ⟨7, 6⟩).map (·.observationOrder)) = some (some 1) ∧
    ((insertEach sampleEnv .history {} (eachCall sampleReads .backfill
        (twoMessages.map fun item => { item with observationOrder := none }))).toOption.map
      fun each => (each.observations ⟨7, 6⟩).map (·.observationOrder)) = some (some 2) := by
  refine ⟨?_, ?_, ?_, ?_⟩
  all_goals decide +kernel

end MessageStore

end McpTelegram
