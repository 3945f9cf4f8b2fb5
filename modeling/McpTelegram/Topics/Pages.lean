import McpTelegram.Topics.World

/-!
# What a page does to the topics

The columns `seen_generation` and `catalog_present` of each topic after a page.  The events of a
topic leave its generation; a page marks exactly its own topics.
-/

namespace McpTelegram

open Foundations

variable {topic : TopicFact} {generation : ℕ} {topicId : ℤ} {key : TopicKey}

/-! ## One row -/

namespace TopicRow

variable (row : TopicRow)

theorem setField_kept (order : ℕ) (field : TopicField × SqlValue) :
    (row.setField order field).seenGeneration = row.seenGeneration ∧
      (row.setField order field).catalogPresent = row.catalogPresent := by
  rw [setField]
  split_ifs <;> exact ⟨rfl, rfl⟩

/-- The fields of an observation leave the generation and the presence. -/
theorem foldl_setField_kept (fields : TopicFields) (order : ℕ) :
    let row' := fields.foldl (fun row field => row.setField order field) row
    row'.seenGeneration = row.seenGeneration ∧ row'.catalogPresent = row.catalogPresent := by
  induction fields generalizing row with
  | nil => exact ⟨rfl, rfl⟩
  | cons field fields ih =>
    obtain ⟨hseen, hpresent⟩ := ih (row.setField order field)
    obtain ⟨hseen', hpresent'⟩ := setField_kept row order field
    exact ⟨hseen.trans hseen', hpresent.trans hpresent'⟩

/-- An observation leaves the generation of the topic. -/
@[simp] theorem observe_seenGeneration (fields : TopicFields) (now : ℤ) (order : ℕ) :
    (row.observe fields now order).seenGeneration = row.seenGeneration := by
  have hkept := (foldl_setField_kept row fields order).1
  rw [observe, join]
  split_ifs
  · rfl
  · exact hkept
  · exact hkept

/-- An observation never makes a topic absent. -/
theorem observe_catalogPresent (fields : TopicFields) (now : ℤ) (order : ℕ)
    (h : row.catalogPresent = true) : (row.observe fields now order).catalogPresent = true := by
  have hkept := (foldl_setField_kept row fields order).2
  rw [observe, join]
  split_ifs
  · exact h
  · rfl
  · exact hkept.trans h

/-- A topic is absent after its tombstone exactly when the tombstone is newer. -/
theorem bury_catalogPresent (order generation : ℕ) (h : row.catalogPresent = true) :
    (row.bury order generation).catalogPresent = false ↔ row.membershipOrder < order := by
  rw [bury]
  split_ifs with horder
  · exact iff_of_true rfl horder
  · exact iff_of_false (by rw [h]; exact Bool.noConfusion) horder

end TopicRow

/-! ## The generation of a topic -/

namespace TopicStore

variable (store : TopicStore)
variable {ids : List ℤ} {key : TopicKey} {topics : List TopicFact}

/-- The generation that has seen a topic last, or zero. -/
def seenAt (key : TopicKey) : ℕ := ((store.lookup key).map TopicRow.seenGeneration).getD 0

@[simp] theorem applyFields_seenAt (key key' : TopicKey) (fields : TopicFields) (now : ℤ)
    (order : ℕ) : (store.applyFields key fields now order).seenAt key' = store.seenAt key' := by
  rw [seenAt, seenAt, applyFields, Dictionary.lookup_insert_eq]
  split_ifs with hkey
  · rw [hkey, Option.map_some, TopicRow.observe_seenGeneration]
    cases store.lookup key with
    | none => rfl
    | some row => rfl
  · rfl

@[simp] theorem applyTopicCreate_seenAt (key key' : TopicKey) (title : String)
    (iconEmojiId iconColor date : Option ℤ) (observedAt : ℤ) (order : ℕ) :
    (store.applyTopicCreate key title iconEmojiId iconColor date observedAt order).seenAt key' =
      store.seenAt key' :=
  applyFields_seenAt ..

@[simp] theorem applyTopicEdit_seenAt (key key' : TopicKey) (title : Option String)
    (iconEmojiId : Option ℤ) (hidden : Option Bool) (observedAt : ℤ) (order : ℕ) :
    (store.applyTopicEdit key title iconEmojiId hidden observedAt order).seenAt key' =
      store.seenAt key' := by
  simp only [applyTopicEdit]
  split_ifs
  · rfl
  · exact applyFields_seenAt ..

@[simp] theorem applyTopicPin_seenAt (key key' : TopicKey) (pinned : Bool) (observedAt : ℤ)
    (order : ℕ) : (store.applyTopicPin key pinned observedAt order).seenAt key' =
      store.seenAt key' :=
  applyFields_seenAt ..

/-- A change of every row that leaves the generations. -/
theorem mapValues_seenAt {f : TopicKey → TopicRow → TopicRow}
    (hf : ∀ key row, (f key row).seenGeneration = row.seenGeneration) (key : TopicKey) :
    seenAt (Dictionary.mapValues store f) key = store.seenAt key := by
  rw [seenAt, seenAt, Dictionary.lookup_mapValues, Option.map_map]
  exact congrArg (fun o => o.getD 0) (Option.map_congr fun row _ => hf key row)

/-- Operations that leave the generations, one after the other. -/
theorem foldl_seenAt {ι : Type} {op : TopicStore → ι → TopicStore}
    (hop : ∀ store i key, (op store i).seenAt key = store.seenAt key) (is : List ι)
    (key : TopicKey) : (is.foldl op store).seenAt key = store.seenAt key := by
  induction is generalizing store with
  | nil => rfl
  | cons i is ih => rw [List.foldl_cons, ih, hop]

@[simp] theorem applyTopicPins_seenAt (dialogId : ℤ) (pinned : List ℤ) (observedAt : ℤ)
    (order : ℕ) (key : TopicKey) :
    (store.applyTopicPins dialogId pinned observedAt order).seenAt key = store.seenAt key := by
  rw [applyTopicPins, foldl_seenAt _ fun store _ key' => applyTopicPin_seenAt store _ key' ..]
  refine mapValues_seenAt store (fun key row => ?_) key
  split_ifs <;> rfl

/-- The row of a topic after a page with it. -/
def upsertedRow (now : ℤ) (order : ℕ) (topic : TopicFact) (row : Option TopicRow) : TopicRow :=
  let row := (row.getD (.inserted now order)).observe (factFields topic) now order
  if row.fieldOrder .iconEmojiId = order ∧ row.isDeleted = false then
    { row with iconEmoji := topic.iconEmoji.or row.iconEmoji, isGeneral := topic.isGeneral }
  else row

theorem upsertTopic_lookup (dialogId now : ℤ) (order : ℕ) (topic : TopicFact) (key : TopicKey) :
    (store.upsertTopic dialogId now order topic).lookup key =
      if key = (dialogId, topic.topicId) then some (upsertedRow now order topic (store.lookup key))
      else store.lookup key := by
  rw [upsertTopic, setIconEmoji, Dictionary.lookup_modify]
  split_ifs with hkey
  · rw [hkey, applyFields, AList.lookup_insert, Option.map_some]
    rfl
  · rw [applyFields, AList.lookup_insert_ne hkey]

theorem upsertedRow_seenGeneration (now : ℤ) (order : ℕ) (topic : TopicFact)
    (row : Option TopicRow) :
    (upsertedRow now order topic row).seenGeneration =
      (row.map TopicRow.seenGeneration).getD 0 := by
  have hrow : (upsertedRow now order topic row).seenGeneration =
      ((row.getD (.inserted now order)).observe (factFields topic) now order).seenGeneration := by
    simp only [upsertedRow]
    split_ifs <;> rfl
  rw [hrow, TopicRow.observe_seenGeneration]
  cases row <;> rfl

theorem upsertedRow_catalogPresent (now : ℤ) (order : ℕ) (topic : TopicFact) {row : TopicRow}
    (h : row.catalogPresent = true) :
    (upsertedRow now order topic (some row)).catalogPresent = true := by
  have hrow := TopicRow.observe_catalogPresent row (factFields topic) now order h
  simp only [upsertedRow, Option.getD_some]
  split_ifs <;> exact hrow

@[simp] theorem upsertTopics_seenAt (dialogId : ℤ) (topics : List TopicFact) (now : ℤ)
    (order : ℕ) (key : TopicKey) :
    (store.upsertTopics dialogId topics now order).seenAt key = store.seenAt key := by
  refine foldl_seenAt store (fun store topic key => ?_) topics key
  rw [seenAt, seenAt, upsertTopic_lookup]
  split_ifs
  · rw [Option.map_some, Option.getD_some, upsertedRow_seenGeneration]
  · rfl

/-- The row of a topic after a page that calls it deleted. -/
def buriedRow (now : ℤ) (order generation : ℕ) : Option TopicRow → TopicRow
  | none => .tombstone now order generation
  | some row => row.bury order generation

theorem buryTopic_lookup (key' key : TopicKey) (now : ℤ) (order generation : ℕ) :
    (store.buryTopic key' now order generation).lookup key =
      if key = key' then some (buriedRow now order generation (store.lookup key))
      else store.lookup key := by
  rw [buryTopic]
  split
  next h =>
    rw [Dictionary.lookup_insert_eq]
    split_ifs with hkey
    · rw [hkey, h]
      rfl
    · rfl
  next row h =>
    rw [Dictionary.lookup_insert_eq]
    split_ifs with hkey
    · rw [hkey, h]
      rfl
    · rfl

variable {dialogId now : ℤ} {order : ℕ}

theorem key_mem_map :
    key ∈ ids.map (fun topicId => (dialogId, topicId)) ↔ key.1 = dialogId ∧ key.2 ∈ ids := by
  rw [List.mem_map]
  constructor
  · rintro ⟨topicId, hmem, rfl⟩
    exact ⟨rfl, hmem⟩
  · rintro ⟨rfl, hmem⟩
    exact ⟨key.2, hmem, rfl⟩

theorem map_key_nodup (dialogId : ℤ) (h : ids.Nodup) :
    (ids.map fun topicId => (dialogId, topicId)).Nodup :=
  h.map fun _ _ h => (Prod.mk.inj h).2

/-- A snapshot leaves the topics that it does not have. -/
theorem upsertTopics_lookup_of_notMem
    (h : ¬ (key.1 = dialogId ∧ key.2 ∈ topics.map TopicFact.topicId)) :
    (store.upsertTopics dialogId topics now order).lookup key = store.lookup key := by
  have hmem : key ∉ topics.map fun topic => (dialogId, topic.topicId) := by
    intro hmem
    obtain ⟨topic, htopic, rfl⟩ := List.mem_map.mp hmem
    exact h ⟨rfl, List.mem_map_of_mem htopic⟩
  exact Dictionary.lookup_foldl_of_notMem
    (f := fun topic row => some (upsertedRow now order topic row))
    (fun store topic key => upsertTopic_lookup store dialogId now order topic key) hmem store

/-- A snapshot without doubles writes each of its topics once. -/
theorem upsertTopics_lookup_of_mem (hnodup : (topics.map TopicFact.topicId).Nodup)
    (h : topic ∈ topics) :
    (store.upsertTopics dialogId topics now order).lookup (dialogId, topic.topicId) =
      some (upsertedRow now order topic (store.lookup (dialogId, topic.topicId))) := by
  have hkeys := map_key_nodup dialogId hnodup
  rw [List.map_map] at hkeys
  exact Dictionary.lookup_foldl_of_mem
    (f := fun topic row => some (upsertedRow now order topic row))
    (fun store topic key => upsertTopic_lookup store dialogId now order topic key) hkeys h store

/-- Tombstones leave the other topics. -/
theorem foldl_buryTopic_lookup_of_notMem (h : ¬ (key.1 = dialogId ∧ key.2 ∈ ids)) :
    (ids.foldl (fun store topicId => store.buryTopic (dialogId, topicId) now order generation)
      store).lookup key = store.lookup key :=
  Dictionary.lookup_foldl_of_notMem (f := fun _ row => some (buriedRow now order generation row))
    (fun store topicId key => buryTopic_lookup store (dialogId, topicId) key now order generation)
    (fun hmem => h (key_mem_map.mp hmem)) store

/-- Each of several tombstones is written once. -/
theorem foldl_buryTopic_lookup_of_mem (hnodup : ids.Nodup) (h : topicId ∈ ids) :
    (ids.foldl (fun store topicId => store.buryTopic (dialogId, topicId) now order generation)
      store).lookup (dialogId, topicId) =
      some (buriedRow now order generation (store.lookup (dialogId, topicId))) :=
  Dictionary.lookup_foldl_of_mem (f := fun _ row => some (buriedRow now order generation row))
    (fun store topicId key => buryTopic_lookup store (dialogId, topicId) key now order generation)
    (map_key_nodup dialogId hnodup) h store

end TopicStore

/-! ## A page -/

namespace TopicCatalog

variable (catalog : TopicCatalog) {dialogId : ℤ} {scan : TopicScan} {page : TopicPage} {now : ℤ}

/-- The mark of a generation on a row. -/
def markRow (generation : ℕ) (row : TopicRow) : TopicRow := { row with seenGeneration := generation }

theorem markSeen_lookup (topics : TopicStore) (generation : ℕ) (topicId : ℤ) (key : TopicKey) :
    (markSeen dialogId topics generation topicId).lookup key =
      if key = (dialogId, topicId) then (topics.lookup key).map (markRow generation)
      else topics.lookup key := by
  rw [markSeen, Dictionary.lookup_modify]
  split_ifs with hkey
  · rw [hkey]
    rfl
  · rfl

/-- Marked topics. -/
theorem foldl_markSeen_lookup (topics : TopicStore) (generation : ℕ) (ids : List ℤ)
    (key : TopicKey) :
    (ids.foldl (fun topics topicId => markSeen dialogId topics generation topicId) topics).lookup
        key =
      if key.1 = dialogId ∧ key.2 ∈ ids then (topics.lookup key).map (markRow generation)
      else topics.lookup key := by
  induction ids generalizing topics with
  | nil => rw [if_neg fun h => List.not_mem_nil h.2, List.foldl_nil]
  | cons id ids ih =>
    rw [List.foldl_cons, ih, markSeen_lookup]
    obtain ⟨dialog, topicId⟩ := key
    by_cases hkey : (dialog, topicId) = (dialogId, id)
    · obtain ⟨rfl, rfl⟩ := Prod.mk.inj hkey
      have hmem : dialog = dialog ∧ topicId ∈ topicId :: ids := ⟨rfl, List.mem_cons_self⟩
      rw [if_pos rfl, Option.map_map, if_pos hmem]
      split_ifs <;> rfl
    · rw [if_neg hkey]
      have hmem : dialog = dialogId ∧ topicId ∈ id :: ids ↔ dialog = dialogId ∧ topicId ∈ ids := by
        rw [List.mem_cons]
        exact and_congr_right fun h => or_iff_right fun h' => hkey (by rw [h, h'])
      simp only [hmem]

/-- A page leaves the rows of every other topic. -/
theorem writePage_lookup_of_notMem (h : ¬ (key.1 = dialogId ∧ key.2 ∈ page.ids)) :
    (catalog.writePage dialogId scan page now).lookup key = catalog.topics.lookup key := by
  have htopics : ¬ (key.1 = dialogId ∧ key.2 ∈ page.topics.map TopicFact.topicId) := fun hmem =>
    h ⟨hmem.1, List.mem_append_left _ hmem.2⟩
  have hdeleted : ¬ (key.1 = dialogId ∧ key.2 ∈ page.deletedIds) := fun hmem =>
    h ⟨hmem.1, List.mem_append_right _ hmem.2⟩
  rw [writePage, foldl_markSeen_lookup, if_neg hdeleted,
    TopicStore.foldl_buryTopic_lookup_of_notMem _ hdeleted, foldl_markSeen_lookup, if_neg h,
    TopicStore.upsertTopics_lookup_of_notMem _ htopics]

/-- The row of a topic on a page. -/
theorem writePage_lookup_topic (hnodup : page.ids.Nodup) (h : topic ∈ page.topics) :
    (catalog.writePage dialogId scan page now).lookup (dialogId, topic.topicId) =
      some (markRow scan.generation (TopicStore.upsertedRow now scan.observationOrder topic
        (catalog.topics.lookup (dialogId, topic.topicId)))) := by
  obtain ⟨htopics, -, hdisjoint⟩ := List.nodup_append'.mp hnodup
  have hmem : topic.topicId ∈ page.topics.map TopicFact.topicId := List.mem_map_of_mem h
  have hdeleted : ¬ (dialogId = dialogId ∧ topic.topicId ∈ page.deletedIds) := fun h' =>
    hdisjoint hmem h'.2
  have hids : dialogId = dialogId ∧ topic.topicId ∈ page.ids :=
    ⟨rfl, List.mem_append_left _ hmem⟩
  rw [writePage, foldl_markSeen_lookup, if_neg hdeleted,
    TopicStore.foldl_buryTopic_lookup_of_notMem _ hdeleted, foldl_markSeen_lookup, if_pos hids,
    TopicStore.upsertTopics_lookup_of_mem _ htopics h, Option.map_some]

/-- The row of a topic that a page calls deleted. -/
theorem writePage_lookup_deleted (hnodup : page.ids.Nodup) (h : topicId ∈ page.deletedIds) :
    (catalog.writePage dialogId scan page now).lookup (dialogId, topicId) =
      some (markRow scan.generation (TopicStore.buriedRow now scan.observationOrder
        scan.generation
        ((catalog.topics.lookup (dialogId, topicId)).map (markRow scan.generation)))) := by
  obtain ⟨-, hdeleted, hdisjoint⟩ := List.nodup_append'.mp hnodup
  have htopics : ¬ (dialogId = dialogId ∧ topicId ∈ page.topics.map TopicFact.topicId) :=
    fun h' => hdisjoint h'.2 h
  have hids : dialogId = dialogId ∧ topicId ∈ page.ids := ⟨rfl, List.mem_append_right _ h⟩
  rw [writePage, foldl_markSeen_lookup, if_pos ⟨rfl, h⟩,
    TopicStore.foldl_buryTopic_lookup_of_mem _ hdeleted h, foldl_markSeen_lookup, if_pos hids,
    TopicStore.upsertTopics_lookup_of_notMem _ htopics, Option.map_some]

/-- A page marks exactly its own topics. -/
theorem writePage_seenAt (hnodup : page.ids.Nodup) (key : TopicKey) :
    (catalog.writePage dialogId scan page now).seenAt key =
      if key.1 = dialogId ∧ key.2 ∈ page.ids then scan.generation
      else catalog.topics.seenAt key := by
  split_ifs with h
  · obtain ⟨rfl, hmem⟩ := h
    rw [TopicStore.seenAt]
    rcases List.mem_append.mp hmem with hmem | hmem
    · obtain ⟨topic, htopic, hid⟩ := List.mem_map.mp hmem
      have hlookup : (catalog.writePage key.1 scan page now).lookup (key.1, topic.topicId) =
          some _ := writePage_lookup_topic catalog hnodup htopic
      rw [hid, Prod.mk.eta] at hlookup
      rw [hlookup]
      rfl
    · have hlookup : (catalog.writePage key.1 scan page now).lookup (key.1, key.2) = some _ :=
        writePage_lookup_deleted catalog hnodup hmem
      rw [Prod.mk.eta] at hlookup
      rw [hlookup]
      rfl
  · rw [TopicStore.seenAt, writePage_lookup_of_notMem catalog h, TopicStore.seenAt]

/-- Among the topics that are present, a page makes absent exactly those that it calls deleted and
that have no newer membership. -/
theorem writePage_absent (hnodup : page.ids.Nodup) {row : TopicRow}
    (hrow : catalog.topics.lookup key = some row) (hpresent : row.catalogPresent = true) :
    ∃ row', (catalog.writePage dialogId scan page now).lookup key = some row' ∧
      (row'.catalogPresent = false ↔ key.1 = dialogId ∧ key.2 ∈ page.deletedIds ∧
        row.membershipOrder < scan.observationOrder) := by
  obtain ⟨dialog, topicId⟩ := key
  by_cases h : dialog = dialogId ∧ topicId ∈ page.ids
  · obtain ⟨rfl, hmem⟩ := h
    rcases List.mem_append.mp hmem with hmem | hmem
    · obtain ⟨topic, htopic, rfl⟩ := List.mem_map.mp hmem
      have hpresent' := TopicStore.upsertedRow_catalogPresent now scan.observationOrder topic
        hpresent
      refine ⟨_, writePage_lookup_topic catalog hnodup htopic, iff_of_false ?_ ?_⟩
      · rw [hrow, markRow, hpresent']
        exact Bool.noConfusion
      · exact fun h => (List.nodup_append'.mp hnodup).2.2 hmem h.2.1
    · refine ⟨_, writePage_lookup_deleted catalog hnodup hmem, ?_⟩
      rw [hrow, Option.map_some, TopicStore.buriedRow, markRow]
      rw [TopicRow.bury_catalogPresent _ _ _ (show (markRow scan.generation row).catalogPresent =
        true from hpresent)]
      exact ⟨fun h => ⟨rfl, hmem, h⟩, fun h => h.2.2⟩
  · refine ⟨row, by rw [writePage_lookup_of_notMem catalog h, hrow], iff_of_false ?_ ?_⟩
    · rw [hpresent]
      exact Bool.noConfusion
    · exact fun h' => h ⟨h'.1, List.mem_append_right _ h'.2.1⟩

/-- The retirement of unseen topics on one row. -/
theorem retireUnseen_lookup (topics : TopicStore) (generation order : ℕ) (key : TopicKey) :
    (retireUnseen dialogId topics generation order).lookup key =
      (topics.lookup key).map fun row =>
        if key.1 = dialogId ∧ row.seenGeneration ≠ generation ∧ row.membershipOrder < order then
          { row with catalogPresent := false, membershipOrder := order }
        else row :=
  Dictionary.lookup_mapValues ..

@[simp] theorem retireUnseen_seenAt (topics : TopicStore) (generation order : ℕ) (key : TopicKey) :
    (retireUnseen dialogId topics generation order).seenAt key = topics.seenAt key := by
  refine TopicStore.mapValues_seenAt topics (fun key row => ?_) key
  split_ifs <;> rfl

/-! ## The topics that a generation has seen -/

variable {catalog}

theorem mem_seen (hpos : 0 < generation) :
    topicId ∈ catalog.seen dialogId generation ↔
      catalog.topics.seenAt (dialogId, topicId) = generation := by
  rw [seen, List.mem_map]
  constructor
  · rintro ⟨⟨⟨dialog, id⟩, row⟩, hmem, rfl⟩
    obtain ⟨hmem, hseen⟩ := List.mem_filter.mp hmem
    obtain ⟨hdialog, hgeneration⟩ := of_decide_eq_true hseen
    have hlookup := Dictionary.mem_entries_iff.mp hmem
    rw [← hdialog, TopicStore.seenAt, hlookup, Option.map_some, Option.getD_some, hgeneration]
  · intro hseen
    rw [TopicStore.seenAt] at hseen
    cases hrow : catalog.topics.lookup (dialogId, topicId) with
    | none =>
      rw [hrow] at hseen
      exact absurd hseen hpos.ne
    | some row =>
      rw [hrow, Option.map_some, Option.getD_some] at hseen
      exact ⟨⟨(dialogId, topicId), row⟩, List.mem_filter.mpr
        ⟨Dictionary.mem_entries_iff.mpr hrow, decide_eq_true ⟨rfl, hseen⟩⟩, rfl⟩

theorem seen_nodup (generation : ℕ) : (catalog.seen dialogId generation).Nodup := by
  have hkeys : (catalog.topics.entries.filter fun entry =>
      entry.1.1 = dialogId ∧ entry.2.seenGeneration = generation).NodupKeys :=
    catalog.topics.nodupKeys.sublist List.filter_sublist
  refine (List.pairwise_map.mpr ?_)
  refine (List.nodupKeys_iff_pairwise.mp hkeys).imp_of_mem ?_
  rintro ⟨⟨dialog, id⟩, row⟩ ⟨⟨dialog', id'⟩, row'⟩ hmem hmem' hne heq
  obtain ⟨rfl, -⟩ := of_decide_eq_true (List.mem_filter.mp hmem).2
  obtain ⟨rfl, -⟩ := of_decide_eq_true (List.mem_filter.mp hmem').2
  exact hne (Prod.ext rfl heq)

theorem unionIds_length (seen ids : List ℤ) :
    (unionIds seen ids).length = (seen ++ ids).toFinset.card :=
  (List.card_toFinset _).symm

end TopicCatalog

end McpTelegram
