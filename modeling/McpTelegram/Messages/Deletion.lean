import McpTelegram.Foundations.Failing
import McpTelegram.Messages.Operations

/-!
# Deletion is terminal and the index follows the rows

Two facts that every operation respects: each message that is not deleted has one index row, the
stemmed text of its stored text, and a deleted one has none; and once the evidence of a deletion is
stored, the message keeps its body and gets no index row.
-/

namespace McpTelegram

open Foundations

namespace MessageStore

/-! ## The two facts -/

/-- The index rows of a message. -/
def ftsRows (store : MessageStore) (key : MessageKey) : List FtsRow :=
  store.fts.filter fun row => row.key = key

/-- Every stored message has exactly the index rows it should have. -/
def Indexed (env : MessageEnv) (store : MessageStore) : Prop :=
  ∀ key row, store.messages key = some row →
    store.ftsKeys key = true ∧
      store.ftsRows key = if row.isDeleted then [] else [⟨key, env.stemText row.message.text⟩]

/-- Evidence of a deletion of the message is stored. -/
def DeletionRecorded (store : MessageStore) (key : MessageKey) : Prop :=
  (store.observations key).any (·.isDeleted) = true ∨ store.hasNonchannelDeletion key = true

/-- The message of a key was not created, not rewritten, not restored and not indexed. -/
structure Kept (key : MessageKey) (store store' : MessageStore) : Prop where
  recorded : store'.DeletionRecorded key
  message : (store'.messages key).map (·.message) = (store.messages key).map (·.message)
  deleted : (store.messages key).any (·.isDeleted) = true →
    (store'.messages key).any (·.isDeleted) = true
  fts : (store'.ftsRows key).Sublist (store.ftsRows key)

/-- What every operation does: it keeps the index in step with the rows, and leaves alone every
message whose deletion is recorded. -/
structure Respects (env : MessageEnv) (store store' : MessageStore) : Prop where
  indexed : store.Indexed env → store'.Indexed env
  kept : ∀ key, store.DeletionRecorded key → Kept key store store'

variable {env : MessageEnv} {reads : MessageReads} {store store' store'' : MessageStore}
  {key : MessageKey}

theorem Respects.refl (env : MessageEnv) (store : MessageStore) : Respects env store store :=
  ⟨id, fun _ h => ⟨h, rfl, id, List.Sublist.refl _⟩⟩

theorem Respects.trans (h : Respects env store store') (h' : Respects env store' store'') :
    Respects env store store'' := by
  refine ⟨h'.indexed ∘ h.indexed, fun key hrecorded => ?_⟩
  have hfirst := h.kept key hrecorded
  have hsecond := h'.kept key hfirst.recorded
  exact ⟨hsecond.recorded, hsecond.message.trans hfirst.message,
    hsecond.deleted ∘ hfirst.deleted, hsecond.fts.trans hfirst.fts⟩

/-! ## Changes outside the bodies and the index -/

/-- A change that touches no message, no index row and no evidence of a deletion. -/
structure Aside (store store' : MessageStore) : Prop where
  messages : store'.messages = store.messages
  ftsKeys : store'.ftsKeys = store.ftsKeys
  fts : store'.fts = store.fts
  deleted : ∀ key, (store'.observations key).any (·.isDeleted) =
    (store.observations key).any (·.isDeleted)
  nonchannel : store'.nonchannelDeletions = store.nonchannelDeletions

theorem Aside.refl (store : MessageStore) : Aside store store := ⟨rfl, rfl, rfl, fun _ => rfl, rfl⟩

theorem Aside.trans (h : Aside store store') (h' : Aside store' store'') : Aside store store'' :=
  ⟨h'.messages.trans h.messages, h'.ftsKeys.trans h.ftsKeys, h'.fts.trans h.fts,
    fun key => (h'.deleted key).trans (h.deleted key), h'.nonchannel.trans h.nonchannel⟩

/-- A loop of changes aside is a change aside. -/
theorem Aside.foldl {α : Type} {f : MessageStore → α → MessageStore}
    (h : ∀ store a, Aside store (f store a)) (items : List α) (store : MessageStore) :
    Aside store (items.foldl f store) := by
  induction items generalizing store with
  | nil => exact Aside.refl store
  | cons a items ih => exact (h store a).trans (ih (f store a))

theorem Aside.recorded (h : Aside store store') (key : MessageKey) :
    store'.DeletionRecorded key ↔ store.DeletionRecorded key := by
  rw [DeletionRecorded, DeletionRecorded, h.deleted, hasNonchannelDeletion, hasNonchannelDeletion,
    h.nonchannel]

theorem Aside.respects (h : Aside store store') : Respects env store store' := by
  refine ⟨fun hindexed => ?_, fun key hrecorded => ⟨(h.recorded key).mpr hrecorded, ?_, ?_, ?_⟩⟩
  · rw [Indexed, h.messages, h.ftsKeys]
    simp only [ftsRows, h.fts]
    exact hindexed
  · rw [h.messages]
  · rw [h.messages]
    exact id
  · rw [ftsRows, h.fts]
    exact List.Sublist.refl _

theorem allocateObservationOrder_aside (store : MessageStore) :
    Aside store store.allocateObservationOrder.2 := ⟨rfl, rfl, rfl, fun _ => rfl, rfl⟩

theorem recordMessageObservation_aside (store : MessageStore) (source : ReactionAggregateSource)
    (fallback : ℤ) (item : ExtractedMessage) :
    Aside store (store.recordMessageObservation source fallback item) := by
  refine ⟨rfl, rfl, rfl, fun key => ?_, rfl⟩
  rw [recordMessageObservation]
  dsimp only
  rw [Table.put_apply]
  split_ifs with hkey
  · subst hkey
    cases hstate : store.observations item.key with
    | none => rfl
    | some row => rfl
  · rfl

theorem recordMessageObservations_aside (store : MessageStore) (accepted : List ExtractedMessage)
    (source : ReactionAggregateSource) :
    Aside store (store.recordMessageObservations accepted source) := by
  rw [recordMessageObservations]
  split_ifs
  · exact (allocateObservationOrder_aside store).trans
      (Aside.foldl (fun store item => recordMessageObservation_aside store source _ item) _ _)
  · exact Aside.foldl (fun store item => recordMessageObservation_aside store source _ item) _ _

theorem dropTranscriptions_aside (env : MessageEnv) (store : MessageStore)
    (facts : MessageKey → StoredPageFact) (items : List ExtractedMessage) :
    Aside store (store.dropTranscriptions env facts items).1 := by
  rw [dropTranscriptions]
  induction items generalizing store facts with
  | nil => exact Aside.refl store
  | cons item items ih =>
    rw [List.foldl_cons]
    dsimp only
    split_ifs
    · have hdrop : Aside store
          { store with transcriptions := store.transcriptions.drop item.key } :=
        ⟨rfl, rfl, rfl, fun _ => rfl, rfl⟩
      exact hdrop.trans (ih _ _)
    · exact ih _ _

theorem versions_aside (store : MessageStore) (versions : MessageKey → List VersionRow) :
    Aside store { store with versions } := ⟨rfl, rfl, rfl, fun _ => rfl, rfl⟩

theorem jobs_aside (store : MessageStore)
    (jobs : HydrationKind → Table MessageKey HydrationJobRow) :
    Aside store { store with jobs } := ⟨rfl, rfl, rfl, fun _ => rfl, rfl⟩

theorem removeActiveJob_aside (store : MessageStore) (kind : HydrationKind) (key : MessageKey) :
    Aside store (store.removeActiveJob kind key) := by
  rw [removeActiveJob]
  split
  · split_ifs
    · exact Aside.refl store
    · exact jobs_aside store _
  · exact Aside.refl store

theorem reconcileFactHydrationJob_aside (env : MessageEnv) (reads : MessageReads)
    (before : MessageStore) (facts : MessageKey → StoredPageFact) (priority : HydrationPriority)
    (store : MessageStore) (item : ExtractedMessage) :
    Aside store (store.reconcileFactHydrationJob env reads before facts priority item) := by
  have hmedia : ∀ existing, Aside store
      (store.reconcileMediaHydrationJob env reads item.message existing) := by
    intro existing
    rw [reconcileMediaHydrationJob]
    split_ifs
    · exact jobs_aside store _
    · exact removeActiveJob_aside store _ _
    · exact jobs_aside store _
    · exact Aside.refl store
  have htranscription : ∀ store : MessageStore, ∀ existing transcribed, Aside store
      (store.reconcileTranscriptionHydrationJob env reads item.message priority existing
        transcribed) := by
    intro store existing transcribed
    rw [reconcileTranscriptionHydrationJob]
    split_ifs
    · exact jobs_aside store _
    · exact removeActiveJob_aside store _ _
    · exact Aside.refl store
    · exact jobs_aside store _
    · exact Aside.refl store
  exact (hmedia _).trans (htranscription _ _ _)

theorem replaceEntitiesAndForwards_aside (store : MessageStore) (items : List ExtractedMessage) :
    Aside store (store.replaceEntitiesAndForwards items) := by
  rw [replaceEntitiesAndForwards]
  refine Aside.foldl (fun store item => ?_) items store
  exact ⟨rfl, rfl, rfl, fun _ => rfl, rfl⟩

end MessageStore

/-! ## Accepted bundles -/

/-- The list of keys only grows at its end. -/
theorem setAccepted_keys (accepted : List ExtractedMessage) (item : ExtractedMessage) :
    (setAccepted accepted item).map (·.key) =
      if item.key ∈ accepted.map (·.key) then accepted.map (·.key)
      else accepted.map (·.key) ++ [item.key] := by
  have hany : (accepted.any fun prior => prior.key = item.key) = true ↔
      item.key ∈ accepted.map (·.key) := by
    rw [List.any_eq_true, List.mem_map]
    simp only [decide_eq_true_eq]
  rw [setAccepted]
  by_cases h : item.key ∈ accepted.map (·.key)
  · rw [if_pos (hany.mpr h), if_pos h, List.map_map]
    refine List.map_congr_left fun prior _ => ?_
    rw [Function.comp_apply]
    split_ifs with hkey
    · exact hkey.symm
    · rfl
  · rw [if_neg (fun hfound => h (hany.mp hfound)), if_neg h, List.map_append]
    rfl

theorem setAccepted_mem {accepted : List ExtractedMessage} {item other : ExtractedMessage}
    (h : other ∈ setAccepted accepted item) : other = item ∨ other ∈ accepted := by
  rw [setAccepted] at h
  split_ifs at h
  · obtain ⟨prior, hprior, heq⟩ := List.mem_map.mp h
    split_ifs at heq
    · exact Or.inl heq.symm
    · exact Or.inr (heq ▸ hprior)
  · rcases List.mem_append.mp h with h | h
    · exact Or.inr h
    · exact Or.inl (List.mem_singleton.mp h)

namespace MessageStore

variable {env : MessageEnv} {reads : MessageReads} {store store' store'' : MessageStore}

/-- Accepted bundles are current, and no two of them are of one message. -/
theorem acceptedMessageBundles_spec (store : MessageStore) (extracted : List ExtractedMessage)
    (source : ReactionAggregateSource) :
    ((store.acceptedMessageBundles extracted source).map (·.key)).Nodup ∧
      ∀ item ∈ store.acceptedMessageBundles extracted source,
        store.isCurrentObservation item source = true := by
  rw [acceptedMessageBundles]
  refine List.foldlRecOn (motive := fun accepted : List ExtractedMessage =>
    (accepted.map (·.key)).Nodup ∧ ∀ item ∈ accepted, store.isCurrentObservation item source = true)
    (b := []) extracted _ ⟨List.nodup_nil, fun item hitem => absurd hitem List.not_mem_nil⟩ ?_
  rintro accepted ⟨hnodup, hcurrent⟩ item -
  have hset : store.isCurrentObservation item source = true →
      ((setAccepted accepted item).map (·.key)).Nodup ∧
        ∀ other ∈ setAccepted accepted item, store.isCurrentObservation other source = true := by
    intro hitem
    refine ⟨?_, fun other hother => ?_⟩
    · rw [setAccepted_keys]
      split_ifs with hkey
      · exact hnodup
      · exact List.nodup_append.mpr ⟨hnodup, List.nodup_singleton _, by
          rintro a ha b hb rfl
          exact hkey (List.mem_singleton.mp hb ▸ ha)⟩
    · rcases setAccepted_mem hother with rfl | hother
      · exact hitem
      · exact hcurrent other hother
  split_ifs with hitem
  · split
    · exact hset hitem
    · split_ifs
      · exact hset hitem
      · exact ⟨hnodup, hcurrent⟩
  · exact ⟨hnodup, hcurrent⟩

/-- A message whose deletion is recorded, or whose row is deleted, has no current observation. -/
theorem isCurrentObservation_live {item : ExtractedMessage} {source : ReactionAggregateSource}
    (h : store.isCurrentObservation item source = true) :
    ¬ store.DeletionRecorded item.key ∧
      (store.messages item.key).any (·.isDeleted) = false := by
  rw [isCurrentObservation] at h
  split_ifs at h with hnonchannel
  dsimp only at h
  split_ifs at h with hdeleted
  rw [storedMessageDeleted, Bool.or_eq_true, not_or] at hdeleted
  exact ⟨not_or.mpr ⟨hdeleted.1, hnonchannel⟩, Bool.not_eq_true _ ▸ hdeleted.2⟩

@[simp] theorem preserveNewerReceivedMedia_key (store : MessageStore) (item : ExtractedMessage) :
    (store.preserveNewerReceivedMedia item).key = item.key := by
  rw [preserveNewerReceivedMedia]
  split
  · dsimp only
    split_ifs <;> rfl
  · rfl

end MessageStore

@[simp] theorem preserveTranscribedText_key (facts : MessageKey → StoredPageFact)
    (item : ExtractedMessage) : (preserveTranscribedText facts item).key = item.key := by
  rw [preserveTranscribedText]
  split
  · rfl
  · split
    · rfl
    · split
      · split <;> rfl
      · rfl

@[simp] theorem overlayMessageTranscription_key (env : MessageEnv)
    (facts : MessageKey → StoredPageFact) (item : ExtractedMessage) :
    (overlayMessageTranscription env facts item).1.key = item.key := by
  rw [overlayMessageTranscription]
  split
  · rfl
  · dsimp only
    split_ifs <;> rfl

/-! ## Writing a page -/

namespace MessageStore

variable {env : MessageEnv} {reads : MessageReads} {store store' store'' : MessageStore}
variable {items changed : List ExtractedMessage} {item : ExtractedMessage} {key : MessageKey}
    {source : ReactionAggregateSource} {priority : HydrationPriority} {count : ℕ} {order : Option ℤ}
    {event : Transcription} {upserted : Bool × MessageStore} {messageIds : List ℤ}

/-- The row that a bundle becomes. -/
def rowOf (item : ExtractedMessage) : MessageRow :=
  { message := item.message, replyCount := item.replyCount }

theorem foldl_insertMessage (items : List ExtractedMessage) (store : MessageStore) :
    items.foldl (fun store item => store.insertMessage item) store =
      { store with
        messages := store.messages.putAll (items.map fun item => (item.key, rowOf item))
        ftsKeys := fun key => store.ftsKeys key || decide (key ∈ items.map (·.key)) } := by
  induction items generalizing store with
  | nil =>
    simp only [List.foldl_nil, List.map_nil, List.not_mem_nil, decide_false, Bool.or_false]
    rfl
  | cons item items ih =>
    rw [List.foldl_cons, ih]
    simp only [insertMessage, Table.putAll, List.map_cons, List.foldl_cons]
    congr 1
    funext key
    rw [Function.update_apply]
    by_cases hkey : key = item.key
    · simp [hkey]
    · simp [hkey]

theorem foldl_deleteFts (items : List ExtractedMessage) (store : MessageStore) :
    items.foldl (fun store item => store.deleteFts item.key) store =
      { store with fts := store.fts.filter fun row => row.key ∉ items.map (·.key) } := by
  induction items generalizing store with
  | nil =>
    have hall : store.fts.filter (fun row => decide (row.key ∉ [].map ExtractedMessage.key)) =
        store.fts := List.filter_eq_self.mpr fun row _ => by simp
    rw [List.foldl_nil, hall]
  | cons item items ih =>
    rw [List.foldl_cons, ih, deleteFts, List.filter_filter]
    congr 1
    refine List.filter_congr fun row _ => ?_
    simp only [List.map_cons, List.mem_cons, not_or, ← Bool.decide_and, and_comm]

theorem foldl_insertFts (env : MessageEnv) (items : List ExtractedMessage) (store : MessageStore)
    (hkeys : ∀ item ∈ items, store.ftsKeys item.key = true) :
    items.foldl (fun store item => store.insertFts item.key (env.stemText item.message.text))
        store =
      { store with
        fts := store.fts ++
          items.map fun item => ⟨item.key, env.stemText item.message.text⟩ } := by
  induction items generalizing store with
  | nil => rw [List.foldl_nil, List.map_nil, List.append_nil]
  | cons item items ih =>
    have hinsert : store.insertFts item.key (env.stemText item.message.text) =
        { store with fts := store.fts ++ [⟨item.key, env.stemText item.message.text⟩] } :=
      if_pos (hkeys item List.mem_cons_self)
    have hrest := ih
      { store with fts := store.fts ++ [⟨item.key, env.stemText item.message.text⟩] }
      fun other hother => hkeys other (List.mem_cons_of_mem _ hother)
    rw [List.foldl_cons, hinsert, hrest]
    simp only [List.map_cons, List.append_assoc, List.cons_append, List.nil_append]

/-- Among rows of different messages, one message has one row. -/
theorem filter_map_row (env : MessageEnv) (hnodup : (items.map (·.key)).Nodup) (h : item ∈ items) :
    (items.map fun item => (⟨item.key, env.stemText item.message.text⟩ : FtsRow)).filter
        (fun row => row.key = item.key) = [⟨item.key, env.stemText item.message.text⟩] := by
  induction items with
  | nil => cases h
  | cons first items ih =>
    rw [List.map_cons, List.nodup_cons] at hnodup
    rw [List.map_cons, List.filter_cons]
    rcases List.mem_cons.mp h with rfl | h
    · rw [if_pos (by simp), List.filter_eq_nil_iff.mpr]
      intro row hrow
      obtain ⟨other, hother, rfl⟩ := List.mem_map.mp hrow
      have hne : other.key ≠ item.key := fun heq => hnodup.1 (heq ▸ List.mem_map_of_mem hother)
      simpa using hne
    · have hne : first.key ≠ item.key := fun heq => hnodup.1 (heq ▸ List.mem_map_of_mem h)
      rw [if_neg (by simpa using hne), ih hnodup.2 h]

/-- The index rows after the rows of the changed messages were deleted and written again. -/
def refreshed (env : MessageEnv) (rows : List FtsRow) (changed : List ExtractedMessage) :
    List FtsRow :=
  (rows.filter fun row => row.key ∉ changed.map (·.key)) ++
    changed.map fun item => ⟨item.key, env.stemText item.message.text⟩

/-- A message that did not change keeps its index rows. -/
theorem filter_refreshed_of_notMem (env : MessageEnv) (rows : List FtsRow)
    (h : key ∉ changed.map (·.key)) :
    (refreshed env rows changed).filter (fun row => row.key = key) =
      rows.filter fun row => row.key = key := by
  have hnew : (changed.map fun item =>
      (⟨item.key, env.stemText item.message.text⟩ : FtsRow)).filter (fun row => row.key = key) =
        [] := by
    rw [List.filter_eq_nil_iff]
    intro row hrow
    obtain ⟨item, hitem, rfl⟩ := List.mem_map.mp hrow
    have hne : item.key ≠ key := fun heq => h (heq ▸ List.mem_map_of_mem hitem)
    simpa using hne
  rw [refreshed, List.filter_append, hnew, List.append_nil, List.filter_filter]
  refine List.filter_congr fun row _ => ?_
  by_cases hkey : row.key = key
  · simp [hkey, h]
  · simp [hkey]

/-- A message that changed has the index row that was written. -/
theorem filter_refreshed_of_mem (env : MessageEnv) (rows : List FtsRow)
    (hnodup : (changed.map (·.key)).Nodup) (h : item ∈ changed) :
    (refreshed env rows changed).filter (fun row => row.key = item.key) =
      [⟨item.key, env.stemText item.message.text⟩] := by
  have hold : (rows.filter fun row => row.key ∉ changed.map (·.key)).filter
      (fun row => row.key = item.key) = [] := by
    rw [List.filter_eq_nil_iff]
    intro row hrow hkey
    have hnot := (List.mem_filter.mp hrow).2
    rw [decide_eq_true_eq] at hnot hkey
    exact hnot (hkey ▸ List.mem_map_of_mem h)
  rw [refreshed, List.filter_append, hold, List.nil_append]
  exact filter_map_row env hnodup h

/-- What writing a page of different messages does to the bodies and to the index. -/
structure PageWritten (env : MessageEnv) (facts : MessageKey → StoredPageFact)
    (items : List ExtractedMessage) (store written : MessageStore) : Prop where
  messages : written.messages =
    store.messages.putAll (items.map fun item => (item.key, rowOf item))
  ftsKeys : ∀ key, written.ftsKeys key = (store.ftsKeys key || decide (key ∈ items.map (·.key)))
  deleted : ∀ key, (written.observations key).any (·.isDeleted) =
    (store.observations key).any (·.isDeleted)
  nonchannel : written.nonchannelDeletions = store.nonchannelDeletions
  rest : ∀ key, key ∉ items.map (·.key) → written.ftsRows key = store.ftsRows key
  rows : ∀ item ∈ items, written.ftsRows item.key =
    if ftsRefreshNeeded (facts item.key) item.message.text (env.stemText item.message.text) then
      [⟨item.key, env.stemText item.message.text⟩]
    else store.ftsRows item.key

theorem writeMessageRowsAndFts_spec (before : MessageStore) (facts : MessageKey → StoredPageFact)
    (priority : HydrationPriority) {items : List ExtractedMessage}
    (hnodup : (items.map (·.key)).Nodup) :
    PageWritten env facts items store
      (store.writeMessageRowsAndFts env reads before facts priority items) := by
  rw [writeMessageRowsAndFts, foldl_insertMessage, foldl_deleteFts]
  generalize hchanged : (items.filter fun item => ftsRefreshNeeded (facts item.key)
    item.message.text (env.stemText item.message.text)) = changed
  have hsub : changed.Sublist items := hchanged ▸ List.filter_sublist
  have hmem : ∀ item ∈ items, item ∈ changed ↔ ftsRefreshNeeded (facts item.key)
      item.message.text (env.stemText item.message.text) = true := by
    intro item hitem
    rw [← hchanged, List.mem_filter]
    exact and_iff_right hitem
  have hchangedNodup : (changed.map (·.key)).Nodup := hnodup.sublist (hsub.map _)
  rw [foldl_insertFts]
  rotate_left
  · intro item hitem
    dsimp only
    rw [decide_eq_true (List.mem_map_of_mem (hsub.subset hitem)), Bool.or_true]
  suffices hpage : ∀ written, Aside _ written → PageWritten env facts items store written from
    hpage _ (Aside.foldl (fun store item =>
      reconcileFactHydrationJob_aside env reads before facts priority store item) items _)
  intro written haside
  have hfts : ∀ key, written.ftsRows key =
      (refreshed env store.fts changed).filter fun row => row.key = key := by
    intro key
    rw [ftsRows, haside.fts, refreshed]
  refine ⟨haside.messages, fun key => congrFun haside.ftsKeys key, haside.deleted,
    haside.nonchannel, fun key hkey => ?_, fun item hitem => ?_⟩
  · rw [hfts]
    exact filter_refreshed_of_notMem env store.fts fun h => hkey ((hsub.map _).subset h)
  · rw [hfts]
    split_ifs with hrefresh
    · exact filter_refreshed_of_mem env store.fts hchangedNodup ((hmem item hitem).mpr hrefresh)
    · refine filter_refreshed_of_notMem env store.fts fun h => hrefresh ?_
      obtain ⟨other, hother, hkey⟩ := List.mem_map.mp h
      rw [← List.inj_on_of_nodup_map hnodup (hsub.subset hother) hitem hkey]
      exact (hmem other (hsub.subset hother)).mp hother

/-- Writing a page of live messages respects the index and every recorded deletion. -/
theorem PageWritten.respects {facts : MessageKey → StoredPageFact} {written : MessageStore}
    (h : PageWritten env facts items store written) (hnodup : (items.map (·.key)).Nodup)
    (hlive : ∀ item ∈ items, ¬ store.DeletionRecorded item.key ∧
      (store.messages item.key).any (·.isDeleted) = false)
    (hfacts : ∀ key, (facts key).present = (store.messages key).isSome ∧
      (facts key).text = (store.readMessageText key).join) : Respects env store written := by
  have hkeys : (items.map fun item => (item.key, rowOf item)).map Prod.fst =
      items.map (·.key) := by
    rw [List.map_map]
    rfl
  have hother : ∀ key, key ∉ items.map (·.key) → written.messages key = store.messages key := by
    intro key hkey
    rw [h.messages]
    exact Table.putAll_of_notMem _ (hkeys ▸ hkey)
  refine ⟨fun hindexed key row hrow => ?_, fun key hrecorded => ?_⟩
  · by_cases hkey : key ∈ items.map (·.key)
    · obtain ⟨item, hitem, rfl⟩ := List.mem_map.mp hkey
      have hput : written.messages item.key = some (rowOf item) := by
        rw [h.messages]
        exact Table.putAll_of_mem _ (hkeys ▸ hnodup)
          (List.mem_map_of_mem (f := fun item => (item.key, rowOf item)) hitem)
      obtain rfl : rowOf item = row := Option.some.inj (hput.symm.trans hrow)
      refine ⟨by rw [h.ftsKeys, decide_eq_true hkey, Bool.or_true], ?_⟩
      rw [h.rows item hitem]
      split_ifs with hrefresh hdeleted hdeleted
      · cases hdeleted
      · rfl
      · cases hdeleted
      · -- The page fact says that the stored row and its index row are what would be written.
        obtain ⟨hpresent, htext⟩ := hfacts item.key
        rw [ftsRefreshNeeded, Bool.or_eq_true, Bool.or_eq_true, not_or, not_or] at hrefresh
        have hsome : (store.messages item.key).isSome = true := by
          rw [← hpresent]
          simpa using hrefresh.1.1
        obtain ⟨old, hold⟩ := Option.isSome_iff_exists.mp hsome
        have hsame : old.message.text = item.message.text := by
          have hread : (store.readMessageText item.key).join = old.message.text := by
            rw [readMessageText, hold]
            rfl
          rw [← hread, ← htext]
          simpa using hrefresh.1.2
        have halive : old.isDeleted = false := by
          have hany := (hlive item hitem).2
          rwa [hold] at hany
        rw [(hindexed item.key old hold).2, halive, hsame]
        rfl
    · rw [hother key hkey] at hrow
      rw [h.ftsKeys, decide_eq_false hkey, Bool.or_false, h.rest key hkey]
      exact hindexed key row hrow
  · have hkey : key ∉ items.map (·.key) := by
      intro hmem
      obtain ⟨item, hitem, rfl⟩ := List.mem_map.mp hmem
      exact (hlive item hitem).1 hrecorded
    refine ⟨?_, by rw [hother key hkey], by rw [hother key hkey]; exact id, ?_⟩
    · rw [DeletionRecorded, h.deleted, hasNonchannelDeletion, h.nonchannel]
      exact hrecorded
    · rw [h.rest key hkey]

/-- The deletions of transcriptions leave what the page facts say about the body. -/
theorem dropTranscriptions_facts (env : MessageEnv) (store : MessageStore)
    (facts : MessageKey → StoredPageFact) (items : List ExtractedMessage) (key : MessageKey) :
    ((store.dropTranscriptions env facts items).2 key).present = (facts key).present ∧
      ((store.dropTranscriptions env facts items).2 key).text = (facts key).text := by
  rw [dropTranscriptions]
  induction items generalizing store facts with
  | nil => exact ⟨rfl, rfl⟩
  | cons item items ih =>
    rw [List.foldl_cons]
    dsimp only
    split_ifs
    · obtain ⟨hpresent, htext⟩ := ih
        { store with transcriptions := store.transcriptions.drop item.key }
        (Function.update facts item.key { facts item.key with transcription := none })
      rw [hpresent, htext, Function.update_apply]
      split_ifs with hkey
      · rw [hkey]
        exact ⟨rfl, rfl⟩
      · exact ⟨rfl, rfl⟩
    · exact ih store facts

/-- `insert_messages_with_fts` respects both facts. -/
theorem insertMessagesWithFts_respects {extracted : List ExtractedMessage}
    (h : store.insertMessagesWithFts env reads extracted source priority = .ok (count, store')) :
    Respects env store store' := by
  obtain ⟨hnodup, hcurrent⟩ := store.acceptedMessageBundles_spec extracted source
  rw [insertMessagesWithFts] at h
  split at h
  · obtain rfl := (Prod.mk.inj (Except.ok.inj h)).2
    exact Respects.refl env store
  dsimp only at h
  split at h
  · cases h
  · obtain rfl := (Prod.mk.inj (Except.ok.inj h)).2
    generalize store.acceptedMessageBundles extracted source = accepted at hnodup hcurrent ⊢
    generalize hitems : accepted.map store.preserveNewerReceivedMedia = items
    have hrecorded := recordMessageObservations_aside store items source
    generalize store.recordMessageObservations items source = recorded at hrecorded ⊢
    generalize hpreserved : items.map (preserveTranscribedText store.storedPageFact) = preserved
    have hdropped := dropTranscriptions_aside env recorded store.storedPageFact preserved
    have hfacts := dropTranscriptions_facts env recorded store.storedPageFact preserved
    generalize recorded.dropTranscriptions env store.storedPageFact preserved = dropped
      at hdropped hfacts ⊢
    generalize hprojected : (preserved.map fun item =>
      (overlayMessageTranscription env store.storedPageFact item).1) = projected
    have haside := hrecorded.trans hdropped
    have hkeys : projected.map (·.key) = accepted.map (·.key) := by
      rw [← hprojected, ← hpreserved, ← hitems]
      simp only [List.map_map, Function.comp_def, overlayMessageTranscription_key,
        preserveTranscribedText_key, preserveNewerReceivedMedia_key]
    have hlive : ∀ item ∈ projected, ¬ dropped.1.DeletionRecorded item.key ∧
        (dropped.1.messages item.key).any (·.isDeleted) = false := by
      intro item hitem
      obtain ⟨other, hother, hkey⟩ := List.mem_map.mp (hkeys ▸ List.mem_map_of_mem hitem)
      rw [← hkey, haside.recorded, haside.messages]
      exact isCurrentObservation_live (hcurrent other hother)
    have hread : ∀ key, (dropped.2 key).present = (dropped.1.messages key).isSome ∧
        (dropped.2 key).text = (dropped.1.readMessageText key).join := by
      intro key
      rw [readMessageText, haside.messages]
      exact hfacts key
    have hwritten : PageWritten env dropped.2 projected dropped.1
        (dropped.1.writeMessageRowsAndFts env reads store dropped.2 priority projected) :=
      writeMessageRowsAndFts_spec store dropped.2 priority (hkeys ▸ hnodup)
    have hpage := hwritten.respects (hkeys ▸ hnodup) hlive hread
    exact (haside.respects.trans hpage).trans
      (replaceEntitiesAndForwards_aside _ projected).respects

/-! ## The other operations -/

/-- `persist_edited_message` respects both facts. -/
theorem persistEditedMessage_respects {editDate : Option ℤ} {version : Option ℕ}
    (h : store.persistEditedMessage env reads item editDate priority source = .ok (version, store')) :
    Respects env store store' := by
  rw [persistEditedMessage] at h
  split at h
  · obtain rfl := (Prod.mk.inj (Except.ok.inj h)).2
    exact Respects.refl env store
  split at h
  · obtain rfl := (Prod.mk.inj (Except.ok.inj h)).2
    exact Respects.refl env store
  split at h
  · obtain ⟨result, hinsert, hresult⟩ := except_map_eq_ok.mp h
    obtain rfl := (Prod.mk.inj hresult).2
    exact insertMessagesWithFts_respects hinsert
  · obtain ⟨result, hinsert, hresult⟩ := except_map_eq_ok.mp h
    obtain rfl := (Prod.mk.inj hresult).2
    exact (versions_aside store _).respects.trans (insertMessagesWithFts_respects hinsert)

/-- `_persist_received_message` respects both facts. -/
theorem persistReceivedMessage_respects
    (h : store.persistReceivedMessage env reads item = .ok (count, store')) :
    Respects env store store' := by
  rw [persistReceivedMessage] at h
  split at h
  · obtain rfl := (Prod.mk.inj (Except.ok.inj h)).2
    exact Respects.refl env store
  split at h
  · obtain rfl := (Prod.mk.inj (Except.ok.inj h)).2
    exact Respects.refl env store
  split at h
  · split at h
    · obtain ⟨⟨version, written⟩, hedit, hresult⟩ := except_map_eq_ok.mp h
      obtain rfl := (Prod.mk.inj hresult).2
      exact persistEditedMessage_respects hedit
    · exact insertMessagesWithFts_respects h
  · exact insertMessagesWithFts_respects h

/-- `persist_received_messages` respects both facts. -/
theorem persistReceivedMessages_respects {batch : ReceivedBatch}
    (h : store.persistReceivedMessages env reads batch = .ok (count, store')) :
    Respects env store store' := by
  rw [persistReceivedMessages] at h
  split at h
  · cases h
  obtain ⟨⟨accepted, written⟩, hloop, h⟩ := except_bind_eq_ok.mp h
  dsimp only at h
  split at h
  · cases h
  obtain rfl := (Prod.mk.inj (Except.ok.inj h)).2
  refine foldlM_ok_rel (R := fun s t : ℕ × MessageStore => Respects env s.2 t.2)
    (fun s => Respects.refl env s.2) (fun h h' => h.trans h') ?_ hloop
  rintro ⟨accepted, store⟩ received ⟨accepted', store'⟩ hround
  dsimp only at hround
  split at hround
  · obtain ⟨⟨written, persisted⟩, hpersist, hresult⟩ := except_map_eq_ok.mp hround
    obtain rfl := (Prod.mk.inj hresult).2
    exact persistReceivedMessage_respects hpersist
  · obtain rfl := (Prod.mk.inj (Except.ok.inj hround)).2
    exact Respects.refl env store

/-- More evidence of deletions, with the bodies and the index left alone, respects both facts. -/
theorem respects_of_evidence (hmessages : store'.messages = store.messages)
    (hkeys : store'.ftsKeys = store.ftsKeys) (hfts : store'.fts = store.fts)
    (hrecorded : ∀ key, store.DeletionRecorded key → store'.DeletionRecorded key) :
    Respects env store store' := by
  refine ⟨fun hindexed => ?_, fun key h => ⟨hrecorded key h, by rw [hmessages], ?_, ?_⟩⟩
  · rw [Indexed, hmessages, hkeys]
    simp only [ftsRows, hfts]
    exact hindexed
  · rw [hmessages]
    exact id
  · rw [ftsRows, hfts]
    exact List.Sublist.refl _

theorem recordDeletion_respects (order : ℤ) (key : MessageKey) :
    Respects env store (store.recordDeletion order key) := by
  refine respects_of_evidence rfl rfl rfl fun other hrecorded => ?_
  rcases hrecorded with hdeleted | hnonchannel
  · refine Or.inl ?_
    rw [recordDeletion]
    dsimp only
    rw [Table.put_apply]
    split_ifs
    · cases store.observations key <;> rfl
    · exact hdeleted
  · exact Or.inr hnonchannel

/-- `record_message_deletions` respects both facts. -/
theorem recordMessageDeletions_respects (dialogId : ℤ) (messageIds : List ℤ) :
    Respects env store (store.recordMessageDeletions dialogId messageIds).2 := by
  rw [recordMessageDeletions]
  dsimp only
  split_ifs
  · exact Respects.refl env store
  · refine (allocateObservationOrder_aside store).respects.trans ?_
    refine List.foldlRecOn (motive := fun reached : MessageStore => Respects env _ reached)
      _ _ (Respects.refl env _) fun reached hreached messageId _ => ?_
    exact hreached.trans (recordDeletion_respects _ _)

/-- One round of `record_nonchannel_deletions`. -/
theorem recordNonchannelDeletion_respects (store : MessageStore) (messageId deletedAt : ℤ) :
    Respects env store (match store.nonchannelDeletions messageId with
      | some _ => store
      | none => { store with
          nonchannelDeletions := store.nonchannelDeletions.put messageId deletedAt }) := by
  split
  · exact Respects.refl env store
  · refine respects_of_evidence rfl rfl rfl fun key hrecorded => ?_
    rcases hrecorded with hdeleted | hnonchannel
    · exact Or.inl hdeleted
    · refine Or.inr ?_
      rw [hasNonchannelDeletion] at hnonchannel ⊢
      split_ifs at hnonchannel ⊢
      dsimp only
      rw [Table.put_apply]
      split_ifs
      · rfl
      · exact hnonchannel

/-- `record_nonchannel_deletions` respects both facts. -/
theorem recordNonchannelDeletions_respects (messageIds : List ℤ) (deletedAt : ℤ) :
    Respects env store (store.recordNonchannelDeletions messageIds deletedAt) := by
  rw [recordNonchannelDeletions]
  exact List.foldlRecOn (motive := fun reached : MessageStore => Respects env store reached)
    _ _ (Respects.refl env store) fun reached hreached messageId _ =>
      hreached.trans (recordNonchannelDeletion_respects reached messageId deletedAt)

/-- Removing the index rows of a message leaves those of the others. -/
theorem ftsRows_deleteFts (store : MessageStore) (key other : MessageKey) :
    (store.deleteFts key).ftsRows other = if other = key then [] else store.ftsRows other := by
  rw [ftsRows, deleteFts, List.filter_filter, ftsRows]
  split_ifs with hkey
  · rw [List.filter_eq_nil_iff]
    intro row _
    simp [hkey]
  · refine List.filter_congr fun row _ => ?_
    by_cases hrow : row.key = other
    · simp [hrow, hkey]
    · simp [hrow]

/-- A message that is tombstoned, and loses its index rows, respects both facts. -/
theorem tombstone_respects (key : MessageKey)
    (hother : ∀ other, other ≠ key → store'.messages other = store.messages other)
    (hbody : (store'.messages key).map (·.message) = (store.messages key).map (·.message))
    (hdead : ∀ row, store'.messages key = some row → row.isDeleted = true)
    (hkeys : store'.ftsKeys = store.ftsKeys) (hfts : store'.fts = (store.deleteFts key).fts)
    (hobservations : store'.observations = store.observations)
    (hnonchannel : store'.nonchannelDeletions = store.nonchannelDeletions) :
    Respects env store store' := by
  have hrows : ∀ other, store'.ftsRows other = if other = key then [] else store.ftsRows other := by
    intro other
    rw [ftsRows, hfts]
    exact ftsRows_deleteFts store key other
  refine ⟨fun hindexed other row hrow => ?_, fun other hrecorded => ⟨?_, ?_, ?_, ?_⟩⟩
  · rw [hkeys, hrows]
    by_cases hkey : other = key
    · subst hkey
      rw [hrow, Option.map_some] at hbody
      obtain ⟨old, hold, -⟩ := Option.map_eq_some_iff.mp hbody.symm
      rw [if_pos rfl, hdead row hrow]
      exact ⟨(hindexed other old hold).1, rfl⟩
    · rw [if_neg hkey]
      exact hindexed other row (hother other hkey ▸ hrow)
  · rw [DeletionRecorded, hobservations, hasNonchannelDeletion, hnonchannel]
    exact hrecorded
  · by_cases hkey : other = key
    · rw [hkey, hbody]
    · rw [hother other hkey]
  · intro hdeleted
    by_cases hkey : other = key
    · subst hkey
      cases hrow : store'.messages other with
      | none =>
        rw [hrow, Option.map_none] at hbody
        rw [Option.map_eq_none_iff.mp hbody.symm] at hdeleted
        cases hdeleted
      | some row => exact hdead row hrow
    · rw [hother other hkey]
      exact hdeleted
  · rw [hrows]
    split_ifs
    · exact List.nil_sublist _
    · exact List.Sublist.refl _

/-- `mark_message_deleted` respects both facts. -/
theorem markMessageDeleted_respects (key : MessageKey) (deletedAt : ℤ) :
    Respects env store (store.markMessageDeleted key deletedAt).2 := by
  have hrecord : Respects env store
      (store.recordMessageDeletions key.dialogId [key.messageId]).2 :=
    recordMessageDeletions_respects key.dialogId [key.messageId]
  rw [markMessageDeleted]
  generalize store.recordMessageDeletions key.dialogId [key.messageId] = recorded at hrecord ⊢
  obtain ⟨ids, recorded⟩ := recorded
  dsimp only at hrecord ⊢
  split
  · exact hrecord
  refine hrecord.trans ?_
  split
  next row hrow =>
    split_ifs with hdeleted
    · refine tombstone_respects key (fun _ _ => rfl) rfl (fun row' hrow' => ?_) rfl rfl rfl rfl
      obtain rfl : row = row' := Option.some.inj (hrow.symm.trans hrow')
      exact hdeleted
    · refine tombstone_respects key (fun other hkey => ?_) ?_ (fun row' hrow' => ?_) rfl rfl rfl rfl
      · exact Table.put_of_ne _ _ hkey
      · show (Table.put recorded.messages key _ key).map _ = _
        rw [Table.put_self, hrow]
        rfl
      · have hput : Table.put recorded.messages key _ key = some row' := hrow'
        rw [Table.put_self] at hput
        rw [← Option.some.inj hput]
  next hrow =>
    refine tombstone_respects key (fun _ _ => rfl) rfl (fun row' hrow' => ?_) rfl rfl rfl rfl
    cases hrow.symm.trans hrow'

/-! ## Transcriptions -/

/-- A transcription row is aside. -/
theorem upsertMessageTranscription_aside (event : Transcription) (observationOrder : Option ℤ) :
    Aside store (store.upsertMessageTranscription reads event observationOrder).2 := by
  have hput : ∀ (store : MessageStore) transcriptions,
      Aside store { store with transcriptions } := fun _ _ => ⟨rfl, rfl, rfl, fun _ => rfl, rfl⟩
  unfold upsertMessageTranscription
  dsimp only
  split
  · exact Aside.refl store
  cases observationOrder with
  | some order =>
    dsimp only
    split_ifs
    · exact hput _ _
    · exact Aside.refl store
  | none =>
    rw [deliveredObservationOrder]
    cases reads.delivered with
    | some order =>
      dsimp only
      split_ifs
      · exact hput _ _
      · exact Aside.refl store
    | none =>
      have hallocate := allocateObservationOrder_aside store
      generalize store.allocateObservationOrder = allocated at hallocate ⊢
      obtain ⟨order, allocated⟩ := allocated
      dsimp only at hallocate ⊢
      split_ifs
      · exact hallocate.trans (hput _ _)
      · exact hallocate

/-- An index row that is written joins the rows of its message. -/
theorem ftsRows_insertFts (store : MessageStore) (key other : MessageKey) (stemmed : String)
    (hkey : store.ftsKeys key = true) :
    (store.insertFts key stemmed).ftsRows other =
      store.ftsRows other ++ if other = key then [⟨key, stemmed⟩] else [] := by
  rw [insertFts, if_pos hkey, ftsRows, List.filter_append, ftsRows]
  congr 1
  split_ifs with hother
  · simp [hother]
  · simp [Ne.symm hother]

/-- Writing an index row changes nothing but the index. -/
theorem insertFts_rest (store : MessageStore) (key : MessageKey) (stemmed : String) :
    (store.insertFts key stemmed).messages = store.messages ∧
      (store.insertFts key stemmed).ftsKeys = store.ftsKeys ∧
      (store.insertFts key stemmed).observations = store.observations ∧
      (store.insertFts key stemmed).nonchannelDeletions = store.nonchannelDeletions := by
  rw [insertFts]
  split_ifs
  · exact ⟨rfl, rfl, rfl, rfl⟩
  · exact ⟨rfl, rfl, rfl, rfl⟩

/-- Rewriting the text of a live message, and its index row, respects both facts. -/
theorem persistTranscribedText_respects {oldText : Option String} (text : String)
    (hread : store.readMessageText key = some oldText)
    (hlive : ¬ store.DeletionRecorded key ∧ (store.messages key).any (·.isDeleted) = false) :
    Respects env store (store.persistTranscribedText env key oldText text) := by
  rw [persistTranscribedText]
  split_ifs
  · exact Respects.refl env store
  obtain ⟨row, hrow, -⟩ := Option.map_eq_some_iff.mp hread
  rw [hrow] at hlive
  generalize hupdated : (store.updateMessageText key text).deleteFts key = updated
  obtain ⟨hmessages, hkeys, hobservations, hnonchannel⟩ :=
    updated.insertFts_rest key (env.stemText (some text))
  have hupdate : store.updateMessageText key text = { store with
      messages := store.messages.put key
        { row with message := { row.message with text := some text } } } := by
    rw [updateMessageText, hrow]
  rw [hupdate] at hupdated
  have hput : ∀ other, updated.messages other = if other = key then
      some { row with message := { row.message with text := some text } }
      else store.messages other := by
    intro other
    rw [← hupdated]
    exact Table.put_apply _ _ _ _
  have hrows : ∀ other, updated.ftsRows other =
      if other = key then [] else store.ftsRows other := by
    intro other
    rw [← hupdated, ftsRows_deleteFts]
    rfl
  have hrest : updated.ftsKeys = store.ftsKeys ∧ updated.observations = store.observations ∧
      updated.nonchannelDeletions = store.nonchannelDeletions := by
    rw [← hupdated]
    exact ⟨rfl, rfl, rfl⟩
  refine ⟨fun hindexed other row' hrow' => ?_, fun other hrecorded => ?_⟩
  · have hfts : updated.ftsKeys key = true := hrest.1 ▸ (hindexed key row hrow).1
    rw [hmessages, hput] at hrow'
    rw [hkeys, hrest.1, ftsRows_insertFts _ _ _ _ hfts, hrows]
    by_cases hother : other = key
    · rw [if_pos hother] at hrow'
      rw [if_pos hother, if_pos hother, ← Option.some.inj hrow', hother]
      refine ⟨(hindexed key row hrow).1, ?_⟩
      have halive : row.isDeleted = false := hlive.2
      rw [halive]
      rfl
    · rw [if_neg hother] at hrow'
      rw [if_neg hother, if_neg hother, List.append_nil]
      exact hindexed other row' hrow'
  · have hother : other ≠ key := fun heq => hlive.1 (heq ▸ hrecorded)
    have hmessage : (updated.insertFts key (env.stemText (some text))).messages other =
        store.messages other := by
      rw [hmessages, hput, if_neg hother]
    refine ⟨?_, by rw [hmessage], by rw [hmessage]; exact id, ?_⟩
    · rw [DeletionRecorded, hobservations, hrest.2.1, hasNonchannelDeletion, hnonchannel,
        hrest.2.2]
      exact hrecorded
    · rw [ftsRows, insertFts]
      split_ifs
      · rw [List.filter_append, ← ftsRows, hrows, if_neg hother,
          List.filter_eq_nil_iff.mpr (by simpa using Ne.symm hother), List.append_nil]
      · rw [← ftsRows, hrows, if_neg hother]

/-- The text of a live message follows its transcription, and both facts stay. -/
theorem projectTranscription_respects (text : String)
    (hlive : ¬ store.DeletionRecorded key ∧ (store.messages key).any (·.isDeleted) = false) :
    Respects env store (store.projectTranscription env key text) := by
  rw [projectTranscription]
  refine Respects.trans ?_ (jobs_aside _ _).respects
  split
  · exact Respects.refl env store
  next oldText hread => exact persistTranscribedText_respects text hread hlive

/-- A current message has no recorded deletion. -/
theorem hydrationObservationCurrent_live (h : store.hydrationObservationCurrent key order = true) :
    ¬ store.DeletionRecorded key := by
  rw [hydrationObservationCurrent] at h
  split_ifs at h with hnonchannel
  rintro (hdeleted | hrecorded)
  · cases hstate : store.observations key with
    | none =>
      rw [hstate] at hdeleted
      cases hdeleted
    | some row =>
      rw [hstate] at h hdeleted
      dsimp only at h
      rw [Option.any_some] at hdeleted
      rw [hdeleted] at h
      cases h
  · exact hnonchannel hrecorded

/-- A message whose media was read is not deleted. -/
theorem messageMedia_live {p : Option String × Option String → Bool}
    (h : (store.messageMedia key).any p = true) :
    (store.messages key).any (·.isDeleted) = false := by
  rw [messageMedia] at h
  cases hrow : store.messages key with
  | none => rfl
  | some row =>
    rw [hrow] at h
    dsimp only at h
    split_ifs at h with hdeleted
    · cases h
    · exact Bool.not_eq_true _ ▸ hdeleted

theorem aside_of_upserted (h : store.upsertMessageTranscription reads event order = upserted) :
    Aside store upserted.2 :=
  h ▸ upsertMessageTranscription_aside event order

/-- A transcription that was accepted for a live message is projected respectfully. -/
theorem project_upserted_respects (text : String)
    (hupsert : store.upsertMessageTranscription reads event order = upserted)
    (hrecorded : ¬ store.DeletionRecorded key)
    (hdeleted : (store.messages key).any (·.isDeleted) = false) :
    Respects env store (upserted.2.projectTranscription env key text) := by
  have haside := aside_of_upserted hupsert
  refine haside.respects.trans (projectTranscription_respects text ⟨?_, ?_⟩)
  · rw [haside.recorded]
    exact hrecorded
  · rw [haside.messages]
    exact hdeleted

/-- `apply_message_transcription` respects both facts. -/
theorem applyMessageTranscription_respects (event : Transcription) :
    Respects env store (store.applyMessageTranscription env reads event).2 := by
  rw [applyMessageTranscription]
  split
  · exact Respects.refl env store
  next hcurrent =>
    dsimp only
    split
    · exact Respects.refl env store
    split
    · exact Respects.refl env store
    next hmedia =>
      have hrecorded := hydrationObservationCurrent_live (by simpa using hcurrent)
      have hdeleted := messageMedia_live (not_not.mp hmedia)
      split
      next written hupsert =>
        exact (aside_of_upserted hupsert).respects
      next written hupsert => exact project_upserted_respects _ hupsert hrecorded hdeleted

/-- `apply_message_transcription_if_absent` respects both facts. -/
theorem applyMessageTranscriptionIfAbsent_respects (event : Transcription)
    (observationOrder : Option ℤ) :
    Respects env store
      (store.applyMessageTranscriptionIfAbsent env reads event observationOrder).2 := by
  rw [applyMessageTranscriptionIfAbsent]
  split
  · exact Respects.refl env store
  next hcurrent =>
    dsimp only
    split
    · exact Respects.refl env store
    split
    · exact Respects.refl env store
    next heligible =>
      have hrecorded := hydrationObservationCurrent_live (by simpa using hcurrent)
      have hdeleted : (store.messages event.key).any (·.isDeleted) = false := by
        rw [Bool.not_eq_true', Bool.not_eq_false, absentTranscriptionEligible,
          Bool.and_eq_true] at heligible
        exact messageMedia_live heligible.2
      split
      next written hupsert => exact (aside_of_upserted hupsert).respects
      next written hupsert => exact project_upserted_respects _ hupsert hrecorded hdeleted

/-- `stage_message_transcription` respects both facts. -/
theorem stageMessageTranscription_respects (event : Transcription) :
    Respects env store (store.stageMessageTranscription reads event).2 := by
  rw [stageMessageTranscription]
  split
  · exact Respects.refl env store
  dsimp only
  split
  · exact Respects.refl env store
  split
  next written hupsert => exact (aside_of_upserted hupsert).respects
  next written hupsert => exact ((aside_of_upserted hupsert).trans (jobs_aside _ _)).respects

/-! ## Every run -/

/-- A call respects both facts when what it returns does; one that raises changes nothing. -/
theorem commit_respects {α : Type} {result : Except MessageError (α × MessageStore)}
    (h : ∀ a written, result = .ok (a, written) → Respects env store written) :
    Respects env store (store.commit result) := by
  cases result with
  | error e => exact Respects.refl env store
  | ok answer => exact h answer.1 answer.2 rfl

/-- Every operation respects both facts. -/
theorem step_respects (store : MessageStore) (call : MessageReads × MessageOperation) :
    Respects env store (store.step env call) := by
  obtain ⟨reads, operation⟩ := call
  cases operation with
  | insertMessages extracted source priority =>
    exact commit_respects fun _ _ hinsert => insertMessagesWithFts_respects hinsert
  | persistEdited item editDate priority source =>
    exact commit_respects fun _ _ hedit => persistEditedMessage_respects hedit
  | persistReceived batch =>
    exact commit_respects fun _ _ hreceive => persistReceivedMessages_respects hreceive
  | markDeleted key deletedAt => exact markMessageDeleted_respects key deletedAt
  | recordDeletions dialogId messageIds =>
    exact recordMessageDeletions_respects dialogId messageIds
  | recordNonchannelDeletions messageIds deletedAt =>
    exact recordNonchannelDeletions_respects messageIds deletedAt
  | applyTranscription event => exact applyMessageTranscription_respects event
  | applyTranscriptionIfAbsent event observationOrder =>
    exact applyMessageTranscriptionIfAbsent_respects event observationOrder
  | stageTranscription event => exact stageMessageTranscription_respects event

/-- Every run respects both facts. -/
theorem run_respects (store : MessageStore) (calls : List (MessageReads × MessageOperation)) :
    Respects env store (calls.foldl (step env) store) :=
  List.foldlRecOn (motive := fun reached : MessageStore => Respects env store reached) calls _
    (Respects.refl env store) fun reached hreached call _ =>
      hreached.trans (step_respects reached call)

/-- The identifiers that are recorded are the positive ones. -/
theorem mem_validatedMessageIds {messageId : ℤ} :
    messageId ∈ validatedMessageIds messageIds ↔ messageId ∈ messageIds ∧ 0 < messageId := by
  rw [validatedMessageIds, List.mem_eraseDups, List.mem_filter, decide_eq_true_eq]

/-- In a loop that respects both facts, evidence that one round stores is there at the end. -/
theorem recorded_of_round (env : MessageEnv) {α : Type} {f : MessageStore → α → MessageStore}
    {items : List α} {a : α} (hmem : a ∈ items) (store : MessageStore)
    (hrespects : ∀ store item, Respects env store (f store item))
    (hround : ∀ store, (f store a).DeletionRecorded key) :
    (items.foldl f store).DeletionRecorded key := by
  obtain ⟨front, behind, rfl⟩ := List.append_of_mem hmem
  rw [List.foldl_append, List.foldl_cons]
  have hbehind := List.foldlRecOn (motive := fun reached : MessageStore =>
    Respects env (f (front.foldl f store) a) reached) behind _ (Respects.refl env _)
    fun reached hreached item _ => hreached.trans (hrespects reached item)
  exact (hbehind.kept key (hround _)).recorded

theorem recordDeletion_recorded (store : MessageStore) (order : ℤ) (key : MessageKey) :
    (store.recordDeletion order key).DeletionRecorded key := by
  refine Or.inl ?_
  rw [recordDeletion]
  dsimp only
  rw [Table.put_self]
  cases store.observations key with
  | none => rfl
  | some row => rfl

/-- `record_message_deletions` stores the evidence that it is called with. -/
theorem recordMessageDeletions_recorded (env : MessageEnv) (store : MessageStore)
    (hmem : key.messageId ∈ messageIds) (hpos : 0 < key.messageId) :
    (store.recordMessageDeletions key.dialogId messageIds).2.DeletionRecorded key := by
  by_cases hdeleted : (store.observations key).any (·.isDeleted) = true
  · have hrespects : Respects env store
        (store.recordMessageDeletions key.dialogId messageIds).2 :=
      recordMessageDeletions_respects key.dialogId messageIds
    exact (hrespects.kept key (Or.inl hdeleted)).recorded
  · have hpending : key.messageId ∈ (validatedMessageIds messageIds).filter fun messageId =>
        ¬ (store.observations ⟨key.dialogId, messageId⟩).any (·.isDeleted) := by
      rw [List.mem_filter, mem_validatedMessageIds]
      exact ⟨⟨hmem, hpos⟩, by simpa using hdeleted⟩
    rw [recordMessageDeletions]
    dsimp only
    rw [if_neg (List.ne_nil_of_mem hpending)]
    exact recorded_of_round env hpending _
      (fun reached messageId => recordDeletion_respects _ _)
      fun reached => recordDeletion_recorded reached _ key

/-- `record_nonchannel_deletions` stores the evidence that it is called with. -/
theorem recordNonchannelDeletions_recorded (env : MessageEnv) (store : MessageStore) (deletedAt : ℤ)
    (hpeer : isChannelPeerId key.dialogId = false) (hmem : key.messageId ∈ messageIds)
    (hpos : 0 < key.messageId) :
    (store.recordNonchannelDeletions messageIds deletedAt).DeletionRecorded key := by
  rw [recordNonchannelDeletions]
  refine recorded_of_round env (mem_validatedMessageIds.mpr ⟨hmem, hpos⟩) store
    (fun reached messageId => recordNonchannelDeletion_respects reached messageId deletedAt)
    fun reached => ?_
  refine Or.inr ?_
  rw [hasNonchannelDeletion, if_neg (by rw [hpeer]; decide)]
  split
  next row hrow =>
    rw [hrow]
    rfl
  next =>
    dsimp only
    rw [Table.put_self, Option.isSome_some]

/-- An operation that records a deletion leaves its evidence. -/
theorem step_recorded (store : MessageStore) {reads : MessageReads} {operation : MessageOperation}
    (h : operation.RecordsDeletion key) :
    (store.step env (reads, operation)).DeletionRecorded key := by
  cases operation with
  | markDeleted marked deletedAt =>
    obtain ⟨rfl, hpos⟩ := h
    have hrecorded := recordMessageDeletions_recorded env store
      (List.mem_singleton_self marked.messageId) hpos
    rw [step, markMessageDeleted]
    generalize store.recordMessageDeletions marked.dialogId [marked.messageId] = recorded
      at hrecorded ⊢
    dsimp only at hrecorded ⊢
    split
    · exact hrecorded
    split
    · split_ifs
      · exact hrecorded
      · exact hrecorded
    · exact hrecorded
  | recordDeletions dialogId messageIds =>
    obtain ⟨rfl, hmem, hpos⟩ := h
    exact recordMessageDeletions_recorded env store hmem hpos
  | recordNonchannelDeletions messageIds deletedAt =>
    obtain ⟨hpeer, hmem, hpos⟩ := h
    exact recordNonchannelDeletions_recorded env store deletedAt hpeer hmem hpos
  | _ => exact h.elim

/-- Deletion is terminal and the index follows the rows.  In every reachable state a message that is
not deleted has exactly one index row, the stemmed text of its stored text, and a deleted one has
none.  And once an operation recorded a deletion that covers a message, whatever operations follow
do not create it, rewrite it, restore it or add an index row for it. -/
theorem deletion_terminal (env : MessageEnv) (calls : List (MessageReads × MessageOperation)) :
    (∀ key row, (after env calls).messages key = some row →
      (after env calls).ftsRows key =
        if row.isDeleted then [] else [⟨key, env.stemText row.message.text⟩]) ∧
    (∀ reads operation later key, operation.RecordsDeletion key →
      Kept key (after env (calls ++ [(reads, operation)]))
        (after env (calls ++ [(reads, operation)] ++ later))) := by
  refine ⟨fun key row hrow => ?_, fun reads operation later key hrecords => ?_⟩
  · have hindexed : (after env calls).Indexed env :=
      (run_respects {} calls).indexed fun key row hrow => by cases hrow
    exact (hindexed key row hrow).2
  · have hrecorded : (after env (calls ++ [(reads, operation)])).DeletionRecorded key := by
      rw [after, List.foldl_append, List.foldl_cons, List.foldl_nil]
      exact step_recorded _ hrecords
    have hlater : after env (calls ++ [(reads, operation)] ++ later) =
        later.foldl (step env) (after env (calls ++ [(reads, operation)])) :=
      List.foldl_append ..
    rw [hlater]
    exact (run_respects _ later).kept key hrecorded

/-- An environment for concrete runs: a text is one word, a stem is the word itself, and no text is
JSON. -/
def sampleEnv : MessageEnv where
  words text := [text]
  stemWords := id
  parse _ := none
  print _ := ""
  sqlValid _ := false
  sqlType _ := ""
  sqlTypeAt _ _ := none

/-- One observation of message 5 of dialog 7. -/
def sampleItem (text : String) (order : ℤ) : ExtractedMessage where
  message := { key := ⟨7, 5⟩, sentAt := 100, text := some text, editDate := none }
  observationOrder := some order

/-- A call that reads nothing from outside the store. -/
def sampleReads : MessageReads := {}

/-- The insertion of `sampleItem`. -/
def sampleInsert (text : String) (order : ℤ) : MessageReads × MessageOperation :=
  (sampleReads, .insertMessages [sampleItem text order] .history .backfill)

/-- The deletion of the message of `sampleItem`. -/
def sampleDeletion : MessageOperation := .markDeleted ⟨7, 5⟩ 200

/-- The message is stored, marked as deleted, and observed once more. -/
theorem deletion_terminal_sample :
    ((after sampleEnv ([sampleInsert "a" 1] ++ [(sampleReads, sampleDeletion)] ++
        [sampleInsert "b" 9])).messages ⟨7, 5⟩).map
      (fun row => (row.message.text, row.isDeleted)) = some (some "a", true) ∧
    Kept ⟨7, 5⟩ (after sampleEnv ([sampleInsert "a" 1] ++ [(sampleReads, sampleDeletion)]))
      (after sampleEnv ([sampleInsert "a" 1] ++ [(sampleReads, sampleDeletion)] ++
        [sampleInsert "b" 9])) := by
  have hrecords : sampleDeletion.RecordsDeletion ⟨7, 5⟩ := ⟨rfl, by decide⟩
  refine ⟨by decide +kernel, ?_⟩
  exact (deletion_terminal sampleEnv [sampleInsert "a" 1]).2 sampleReads sampleDeletion
    [sampleInsert "b" 9] ⟨7, 5⟩ hrecords

end MessageStore

end McpTelegram
