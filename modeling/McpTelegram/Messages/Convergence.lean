import McpTelegram.Foundations.Revision
import McpTelegram.Messages.Single

/-!
# The order in which observations of a body arrive

Observations of one message arrive from history pages, edits and live updates in any order.  The
rows of the message then follow a register under two orders: Telegram's edit date and the local
observation order (`insert_mirrors`).  So the stored body ends as that of the newest observation,
whatever the order of arrival, just when that observation is not blocked (`body_convergence`).

* `body_after_undated`: an undated body that is stored is replaced by a later observation order
  only, so a dated edit that is known to be older by its local order is not taken up.
-/

namespace McpTelegram

open Foundations
open MessageStore (insertEntity rowOf)

/-! ## Entities of a bundle -/

/-- The primary key of an entity within its message. -/
def EntityRecord.place (entity : EntityRecord) : ℤ × ℤ × String :=
  (entity.offset, entity.length, entity.type)

/-- The entity rows that a bundle leaves. -/
def ExtractedMessage.entityRows (item : ExtractedMessage) : List EntityRecord :=
  item.entities.foldl insertEntity []

theorem insertEntity_places (rows : List EntityRecord) (entity : EntityRecord)
    (h : (rows.map (·.place)).Nodup) : ((insertEntity rows entity).map (·.place)).Nodup := by
  rw [insertEntity, List.map_append, List.map_singleton]
  refine List.Nodup.append (h.sublist (List.filter_sublist.map _)) (List.nodup_singleton _) ?_
  intro place hplace hentity
  obtain ⟨row, hrow, rfl⟩ := List.mem_map.mp hplace
  obtain ⟨hoffset, hlength, htype⟩ : row.offset = entity.offset ∧ row.length = entity.length ∧
      row.type = entity.type := by simpa [EntityRecord.place] using hentity
  simpa [hoffset, hlength, htype] using (List.mem_filter.mp hrow).2

/-- Entity rows stand at different places. -/
theorem entityRows_places (item : ExtractedMessage) : (item.entityRows.map (·.place)).Nodup :=
  List.foldlRecOn (motive := fun rows : List EntityRecord => (rows.map (·.place)).Nodup)
    item.entities insertEntity (b := []) List.nodup_nil
    fun rows hrows entity _ => insertEntity_places rows entity hrows

/-- Entities at different places are all kept. -/
theorem entityRows_of_places (item : ExtractedMessage) (h : (item.entities.map (·.place)).Nodup) :
    item.entityRows = item.entities := by
  suffices hrows : ∀ entities rows : List EntityRecord,
      ((rows ++ entities).map (·.place)).Nodup →
        entities.foldl insertEntity rows = rows ++ entities by
    exact hrows item.entities [] h
  intro entities
  induction entities with
  | nil => exact fun rows _ => (List.append_nil rows).symm
  | cons entity entities ih =>
    intro rows hnodup
    have hkeep : insertEntity rows entity = rows ++ [entity] := by
      rw [insertEntity, List.filter_eq_self.mpr]
      intro row hrow
      rw [List.map_append, List.map_cons] at hnodup
      have hne := (List.nodup_append.mp hnodup).2.2 row.place (List.mem_map_of_mem hrow)
        entity.place List.mem_cons_self
      rw [decide_eq_true_eq]
      rintro ⟨hoffset, hlength, htype⟩
      exact hne (by rw [EntityRecord.place, hoffset, hlength, htype, EntityRecord.place])
    rw [List.foldl_cons, hkeep, ih (rows ++ [entity]) (by simpa using hnodup)]
    simp

/-! ## A message as a register -/

/-- What `_received_body_unchanged` says of a bundle when the stored one is the other. -/
def ExtractedMessage.SameBody (item stored : ExtractedMessage) : Prop :=
  item.message.editDate ≠ none ∧ stored.message.body = item.message.body ∧
    stored.entityRows.Perm item.entities ∧ stored.forward = item.forward

/-- A bundle that shows what is stored has its entities at different places. -/
theorem ExtractedMessage.SameBody.entityRows {item stored : ExtractedMessage}
    (h : item.SameBody stored) : item.entityRows = item.entities := by
  refine entityRows_of_places item ?_
  rw [← (h.2.2.1.map (·.place)).nodup_iff]
  exact entityRows_places stored

/-- The edit date and the observation order of a bundle, and the columns that readers look at. -/
def bodyReader : RevisionReader ExtractedMessage (Option String × Option ℤ) where
  edit item := item.message.editDate
  order item := item.observationOrder.getD 0
  content item := (item.message.text, item.message.editDate)
  Same := ExtractedMessage.SameBody
  edit_of_same := by
    rintro item stored ⟨hdated, hbody, -⟩
    exact ⟨hdated, (congrArg MessageBody.editDate hbody).symm⟩
  content_of_same := by
    rintro item stored ⟨-, hbody, -⟩
    exact Prod.ext (congrArg MessageBody.text hbody).symm (congrArg MessageBody.editDate hbody).symm
  same_trans := by
    intro item stored first h h'
    refine ⟨h.1, h'.2.1.trans h.2.1, ?_, h'.2.2.2.trans h.2.2.2⟩
    have hrows := h.2.2.1
    rw [h'.entityRows] at hrows
    exact h'.2.2.1.trans hrows
  same_of_common := by
    intro item other first h h'
    refine ⟨h.1, h'.2.1.symm.trans h.2.1, ?_, h'.2.2.2.symm.trans h.2.2.2⟩
    rw [h'.entityRows]
    exact h'.2.2.1.symm.trans h.2.2.1
  edit_of_content := fun h => congrArg Prod.snd h

/-- An observation of a message as extraction returns it: with an observation order, without media,
and with an identity and a time that the hydration queue accepts. -/
structure BodyObservation (key : MessageKey) (item : ExtractedMessage) : Prop where
  key_eq : item.key = key
  ordered : item.observationOrder ≠ none
  kind : item.message.mediaKind = none
  payload : item.message.mediaPayload = none
  body : item.bodyObservationOrder = none
  valid : item.message.ValidJob

namespace MessageStore

/-- Nothing is known of a message: no row, no observation, no transcription, no deletion. -/
structure Unseen (store : MessageStore) (key : MessageKey) : Prop where
  messages : store.messages key = none
  observations : store.observations key = none
  transcriptions : store.transcriptions key = none
  nonchannel : store.hasNonchannelDeletion key = false

/-- The rows of a message are those of the bundle that is held, under the order in force. -/
structure Shows (source : ReactionAggregateSource) (key : MessageKey)
    (state : Register ExtractedMessage) (store : MessageStore) : Prop where
  plain : BodyObservation key state.held
  messages : store.messages key = some (rowOf state.held)
  observations : store.observations key =
    some { observationOrder := state.order, sourceRank := source.rank }
  imageSources : store.imageSources key ≠ none
  entities : store.entities key = state.held.entityRows
  forwards : store.forwards key = state.held.forward
  transcriptions : store.transcriptions key = none
  nonchannel : store.hasNonchannelDeletion key = false

/-- The rows of a message follow the register. -/
def Mirrors (source : ReactionAggregateSource) (key : MessageKey) :
    Option (Register ExtractedMessage) → MessageStore → Prop
  | none, store => store.Unseen key
  | some state, store => Shows source key state store

/-- The text and the edit date that are stored for a message. -/
def storedBody (store : MessageStore) (key : MessageKey) : Option (Option String × Option ℤ) :=
  (store.messages key).map fun row => (row.message.text, row.message.editDate)

/-- `insert_messages_with_fts` with one bundle after the other. -/
def insertEach (env : MessageEnv) (source : ReactionAggregateSource) (store : MessageStore)
    (calls : List (MessageReads × HydrationPriority × ExtractedMessage)) :
    Except MessageError MessageStore :=
  calls.foldlM (fun store (reads, priority, item) =>
    (store.insertMessagesWithFts env reads [item] source priority).map (·.2)) store

/-! ## Inserting follows the register -/

section Mirrors

variable (env : MessageEnv) (reads : MessageReads) (priority : HydrationPriority)
  {source : ReactionAggregateSource} {key : MessageKey} {store : MessageStore}
  {state : Register ExtractedMessage} {item : ExtractedMessage}

theorem withoutMedia {message : StoredMessage} (hkind : message.mediaKind = none)
    (hpayload : message.mediaPayload = none) :
    { message with mediaKind := none, mediaPayload := none } = message := by
  cases message
  cases hkind
  cases hpayload
  rfl

/-- A bundle without media, for a message without media or without a row, is written as it is. -/
theorem projectedBundle_plain (hitem : BodyObservation key item)
    (hmedia : ∀ row, store.messages key = some row →
      row.message.mediaKind = none ∧ row.message.mediaPayload = none)
    (htranscription : store.transcriptions key = none) :
    store.projectedBundle env item = (store.preserveNewerReceivedMedia item, false) ∧
      (store.preserveNewerReceivedMedia item).message = item.message := by
  obtain rfl := hitem.key_eq
  have hmessage : (store.preserveNewerReceivedMedia item).message = item.message := by
    rw [preserveNewerReceivedMedia]
    split
    · next current _ hcurrent _ =>
      obtain ⟨hkind, hpayload⟩ := hmedia current hcurrent
      rw [hkind, hpayload]
      dsimp only
      split_ifs
      all_goals first | rfl | exact withoutMedia hitem.kind hitem.payload
    · rfl
  refine ⟨?_, hmessage⟩
  have hpreserved : preserveTranscribedText store.storedPageFact
      (store.preserveNewerReceivedMedia item) = store.preserveNewerReceivedMedia item := by
    rw [preserveTranscribedText, hmessage, hitem.kind]
    split_ifs
    · rfl
    · simp at *
    · rfl
  have hfact : (store.storedPageFact item.key).transcription = none := by
    rw [storedPageFact, htranscription]
    rfl
  rw [projectedBundle, hpreserved, overlayMessageTranscription, preserveNewerReceivedMedia_key,
    hfact]

/-- The first observation of a message. -/
theorem insert_first (hitem : BodyObservation key item) (hstart : store.Unseen key) :
    ∃ result, store.insertMessagesWithFts env reads [item] source priority = .ok result ∧
      Mirrors source key (bodyReader.receive none item) result.2 := by
  obtain rfl := hitem.key_eq
  have hcurrent : store.isCurrentObservation item source = true := by
    rw [isCurrentObservation, hstart.nonchannel, hstart.observations, hstart.messages]
    rfl
  obtain ⟨written, hinsert, hwritten⟩ :=
    insertMessagesWithFts_single env reads store item source priority hcurrent hitem.valid
  obtain ⟨hprojected, hmessage⟩ := projectedBundle_plain env hitem
    (fun row hrow => by rw [hstart.messages] at hrow; cases hrow) hstart.transcriptions
  have hkept : store.preserveNewerReceivedMedia item = item := by
    rw [preserveNewerReceivedMedia, hstart.messages]
  rw [hkept] at hprojected
  obtain ⟨order, horder⟩ := Option.ne_none_iff_exists'.mp hitem.ordered
  refine ⟨(1, written), hinsert, hitem, ?_, ?_, ?_, ?_, ?_, ?_, ?_⟩
  · rw [hwritten.messages, hprojected, Table.put_self]
  · rw [hwritten.observations, hkept, recordMessageObservations_ordered _ _ _ horder,
      recordMessageObservation_new _ _ _ _ hstart.observations, hitem.body]
    rfl
  · rw [hwritten.imageSources, hkept, recordMessageObservations_ordered _ _ _ horder]
    exact recordMessageObservation_imageSource _ _ _ _
  · rw [hwritten.entities, Function.update_self]
    rfl
  · rw [hwritten.forwards, Function.update_self]
  · rw [hwritten.transcriptions, hprojected]
    exact hstart.transcriptions
  · rw [hasNonchannelDeletion, hwritten.nonchannel]
    exact hstart.nonchannel

/-- A bundle is current just when the register takes it up. -/
theorem isCurrentObservation_iff (hitem : BodyObservation key item)
    (hshows : Shows source key state store) :
    store.isCurrentObservation item source = true ↔ bodyReader.Accepts state item := by
  obtain rfl := hitem.key_eq
  obtain ⟨order, horder⟩ := Option.ne_none_iff_exists'.mp hitem.ordered
  have hread : bodyReader.order item = order := by
    change item.observationOrder.getD 0 = order
    rw [horder, Option.getD_some]
  have hfollows : followsStoredObservation
      (some { observationOrder := state.order, sourceRank := source.rank })
        item.observationOrder source.rank = true ↔ state.order ≤ bodyReader.order item := by
    rw [horder, hread]
    simp only [followsStoredObservation]
    split_ifs
    · rw [decide_eq_true_eq]
      omega
    · rw [decide_eq_true_eq]
      omega
  have hdated : state.held.message.editDate.isSome = true ↔ bodyReader.edit state.held ≠ none :=
    Option.isSome_iff_ne_none
  rw [isCurrentObservation, hshows.nonchannel, hshows.observations, hshows.messages,
    RevisionReader.Accepts, ← hfollows, ← hdated]
  change (if item.message.version < state.held.message.version then false
    else if state.held.message.editDate.isSome = true ∧
      state.held.message.version < item.message.version then true else _) = true ↔
    ¬ item.message.version < state.held.message.version ∧ _
  split_ifs with hbelow habove
  · exact iff_of_false id fun h => h.1 hbelow
  · exact iff_of_true rfl ⟨hbelow, Or.inl habove⟩
  · exact ⟨fun h => ⟨hbelow, Or.inr h⟩, fun h => h.2.resolve_left habove⟩

/-- The order that a taken up bundle carries for its body is the one in force when it shows what is
stored, and none otherwise. -/
theorem bodyOrder_kept (hitem : BodyObservation key item) (hshows : Shows source key state store) :
    (bodyReader.Same item state.held →
      (store.preserveNewerReceivedMedia item).bodyObservationOrder = some state.order) ∧
    (¬ bodyReader.Same item state.held →
      (store.preserveNewerReceivedMedia item).bodyObservationOrder = none) := by
  obtain rfl := hitem.key_eq
  have hsame : store.receivedBodyUnchanged item = true ↔ bodyReader.Same item state.held := by
    rw [receivedBodyUnchanged, hshows.messages, hshows.entities, hshows.forwards]
    change (_ && (decide (state.held.message.body = item.message.body) && _ && _)) = true ↔
      item.SameBody state.held
    simp only [Bool.and_eq_true, decide_eq_true_eq, ExtractedMessage.SameBody,
      Option.isSome_iff_ne_none, and_assoc]
  obtain ⟨source', hsource⟩ := Option.ne_none_iff_exists'.mp hshows.imageSources
  have hkept : (store.preserveNewerReceivedMedia item).bodyObservationOrder =
      if store.receivedBodyUnchanged item then some state.order else item.bodyObservationOrder := by
    rw [preserveNewerReceivedMedia, hshows.messages, hsource, hshows.observations]
    simp only [Option.map_some, Option.isSome_some, Bool.true_and]
    split_ifs <;> rfl
  rw [hkept, hitem.body]
  exact ⟨fun h => if_pos (hsame.mpr h), fun h => if_neg (mt hsame.mp h)⟩

/-- A bundle for a message whose rows follow the register. -/
theorem insert_next (hitem : BodyObservation key item) (hshows : Shows source key state store) :
    ∃ result, store.insertMessagesWithFts env reads [item] source priority = .ok result ∧
      Mirrors source key (bodyReader.receive (some state) item) result.2 := by
  classical
  by_cases haccepts : bodyReader.Accepts state item
  · have hcurrent := (isCurrentObservation_iff hitem hshows).mpr haccepts
    obtain rfl := hitem.key_eq
    obtain ⟨written, hinsert, hwritten⟩ :=
      insertMessagesWithFts_single env reads store item source priority hcurrent hitem.valid
    obtain ⟨hprojected, hmessage⟩ := projectedBundle_plain env hitem
      (fun row hrow => by
        obtain rfl := Option.some.inj (hshows.messages.symm.trans hrow)
        exact ⟨hshows.plain.kind, hshows.plain.payload⟩) hshows.transcriptions
    obtain ⟨hreplies, horders, -, -⟩ := store.preserveNewerReceivedMedia_rest item
    obtain ⟨order, horder⟩ := Option.ne_none_iff_exists'.mp hitem.ordered
    obtain ⟨hkeptSame, hkeptFresh⟩ := bodyOrder_kept hitem hshows
    have hkey := preserveNewerReceivedMedia_key store item
    refine ⟨(1, written), hinsert, ?_⟩
    rw [RevisionReader.receive, if_pos haccepts]
    refine ⟨hitem, ?_, ?_, ?_, ?_, ?_, ?_, ?_⟩
    · rw [hwritten.messages, hprojected, Table.put_self]
      simp only [rowOf, hmessage, hreplies]
    · have hrecorded := recordMessageObservation_known store (store.preserveNewerReceivedMedia item)
        source 0 (by rw [hkey]; exact hshows.observations)
      rw [hkey, horders] at hrecorded
      rw [hwritten.observations, recordMessageObservations_ordered _ _ _ (horders.trans horder),
        hrecorded]
      by_cases hsame : bodyReader.Same item state.held
      · rw [hkeptSame hsame, if_pos hsame, Option.getD_some, max_self, max_self, ite_self, ite_self]
      · rw [hkeptFresh hsame, if_neg hsame, Option.getD_none, max_self, ite_self, ite_self]
        rfl
    · have hrecorded := recordMessageObservation_imageSource store
        (store.preserveNewerReceivedMedia item) source 0
      rw [hkey] at hrecorded
      rwa [hwritten.imageSources, recordMessageObservations_ordered _ _ _ (horders.trans horder)]
    · rw [hwritten.entities, Function.update_self]
      rfl
    · rw [hwritten.forwards, Function.update_self]
    · rw [hwritten.transcriptions, hprojected]
      exact hshows.transcriptions
    · rw [hasNonchannelDeletion, hwritten.nonchannel]
      exact hshows.nonchannel
  · refine ⟨(0, store), insertMessagesWithFts_rejected env reads store item source priority
      (mt (isCurrentObservation_iff hitem hshows).mp haccepts), ?_⟩
    rw [RevisionReader.receive_rejected haccepts]
    exact hshows

/-- One more bundle: the rows follow the register. -/
theorem insert_mirrors {state : Option (Register ExtractedMessage)}
    (hitem : BodyObservation key item) (h : Mirrors source key state store) :
    ∃ result, store.insertMessagesWithFts env reads [item] source priority = .ok result ∧
      Mirrors source key (bodyReader.receive state item) result.2 := by
  cases state with
  | none => exact insert_first env reads priority hitem h
  | some state => exact insert_next env reads priority hitem h

/-- One bundle after the other: the rows follow the register. -/
theorem insertEach_mirrors (state : Option (Register ExtractedMessage))
    (calls : List (MessageReads × HydrationPriority × ExtractedMessage))
    (hcalls : ∀ call ∈ calls, BodyObservation key call.2.2) (h : Mirrors source key state store) :
    ∃ final, store.insertEach env source calls = .ok final ∧
      Mirrors source key ((calls.map (·.2.2)).foldl bodyReader.receive state) final := by
  induction calls generalizing store state with
  | nil => exact ⟨store, rfl, h⟩
  | cons call calls ih =>
    obtain ⟨reads, priority, item⟩ := call
    obtain ⟨result, hinsert, hmirrors⟩ := insert_mirrors env reads priority (hcalls _ List.mem_cons_self) h
    obtain ⟨final, hrest, hfinal⟩ :=
      ih _ (fun other hother => hcalls other (List.mem_cons_of_mem _ hother)) hmirrors
    refine ⟨final, ?_, hfinal⟩
    rw [insertEach, List.foldlM_cons]
    dsimp only
    rw [hinsert]
    exact hrest

end Mirrors

/-- The observations of one message without media, in any order of arrival, leave the text and the
edit date of the newest one, just when that one is not blocked. -/
theorem body_convergence (env : MessageEnv) (source : ReactionAggregateSource)
    (store : MessageStore) (key : MessageKey) (hstart : store.Unseen key)
    (items : List ExtractedMessage) (hitems : ∀ item ∈ items, BodyObservation key item)
    (hdistinct : (items.map (·.observationOrder)).Nodup) (newest : ExtractedMessage)
    (hnewest : bodyReader.Newest items newest) :
    (∀ calls : List (MessageReads × HydrationPriority × ExtractedMessage),
      (calls.map (·.2.2)).Perm items → ∃ final, store.insertEach env source calls = .ok final ∧
        final.storedBody key = some (newest.message.text, newest.message.editDate)) ↔
    ¬ bodyReader.Blocked items newest := by
  have horders : (items.map bodyReader.order).Nodup := by
    refine List.Nodup.map_on ?_ hdistinct.of_map
    intro item hitem other hother heq
    refine List.inj_on_of_nodup_map hdistinct hitem hother ?_
    obtain ⟨order, horder⟩ := Option.ne_none_iff_exists'.mp (hitems item hitem).ordered
    obtain ⟨order', horder'⟩ := Option.ne_none_iff_exists'.mp (hitems other hother).ordered
    change item.observationOrder.getD 0 = other.observationOrder.getD 0 at heq
    rw [horder, horder'] at heq ⊢
    exact congrArg some heq
  rw [← bodyReader.settles_iff_not_blocked hnewest horders]
  have hstored : ∀ state final, Mirrors source key (some state) final →
      final.storedBody key = some (bodyReader.content state.held) := by
    intro state final hmirrors
    rw [storedBody, Shows.messages hmirrors]
    rfl
  have hfollows : ∀ calls : List (MessageReads × HydrationPriority × ExtractedMessage),
      (calls.map (·.2.2)).Perm items → ∃ final, store.insertEach env source calls = .ok final ∧
        Mirrors source key (bodyReader.run (calls.map (·.2.2))) final := by
    intro calls hcalls
    exact insertEach_mirrors env none calls (fun call hcall => hitems _
      (hcalls.mem_iff.mp (List.mem_map_of_mem (f := fun call => call.2.2) hcall))) hstart
  constructor
  · intro h arrived harrived
    obtain ⟨calls, hcalls⟩ : ∃ calls : List (MessageReads × HydrationPriority × ExtractedMessage),
        calls.map (·.2.2) = arrived :=
      ⟨arrived.map fun item => ({}, .foreground, item), by simp [Function.comp_def]⟩
    obtain ⟨final, hinsert, hbody⟩ := h calls (hcalls ▸ harrived)
    obtain ⟨final', hinsert', hmirrors⟩ := hfollows calls (hcalls ▸ harrived)
    obtain rfl : final = final' := Except.ok.inj (hinsert.symm.trans hinsert')
    rw [hcalls] at hmirrors
    cases hrun : bodyReader.run arrived with
    | none =>
      rw [hrun] at hmirrors
      rw [storedBody, Unseen.messages hmirrors] at hbody
      cases hbody
    | some state =>
      rw [hrun] at hmirrors
      exact ⟨state, rfl, Option.some.inj ((hstored state final hmirrors).symm.trans hbody)⟩
  · intro h calls hcalls
    obtain ⟨state, hrun, hcontent⟩ := h _ hcalls
    obtain ⟨final, hinsert, hmirrors⟩ := hfollows calls hcalls
    refine ⟨final, hinsert, ?_⟩
    rw [hrun] at hmirrors
    rw [hstored state final hmirrors, hcontent]
    rfl

/-- An observation of message 5 of dialog 7. -/
def bodyItem (text : String) (editDate : Option ℤ) (order : ℤ) : ExtractedMessage where
  message := { key := ⟨7, 5⟩, sentAt := 10, text := some text, editDate := editDate }
  observationOrder := some order

theorem bodyItem_observation (text : String) (editDate : Option ℤ) (order : ℤ) :
    BodyObservation ⟨7, 5⟩ (bodyItem text editDate order) :=
  ⟨rfl, Option.some_ne_none _, rfl, rfl, rfl, by simp [StoredMessage.ValidJob, bodyItem]⟩

theorem unseen_empty : Unseen {} ⟨7, 5⟩ := ⟨rfl, rfl, rfl, by decide⟩

/-- Two edits, observed in the order in which they were made. -/
theorem body_convergence_sample :
    bodyReader.Newest [bodyItem "draft" (some 100) 1, bodyItem "final" (some 200) 2]
      (bodyItem "final" (some 200) 2) ∧
    ((∀ calls : List (MessageReads × HydrationPriority × ExtractedMessage),
      (calls.map (·.2.2)).Perm [bodyItem "draft" (some 100) 1, bodyItem "final" (some 200) 2] →
        ∃ final, insertEach sampleEnv .history {} calls = .ok final ∧
          final.storedBody ⟨7, 5⟩ = some (some "final", some 200)) ↔
      ¬ bodyReader.Blocked [bodyItem "draft" (some 100) 1, bodyItem "final" (some 200) 2]
        (bodyItem "final" (some 200) 2)) := by
  have hnewest : bodyReader.Newest [bodyItem "draft" (some 100) 1, bodyItem "final" (some 200) 2]
      (bodyItem "final" (some 200) 2) := by
    refine ⟨by simp, ?_, ?_⟩
    · decide
    · decide
  refine ⟨hnewest, body_convergence sampleEnv .history {} ⟨7, 5⟩ unseen_empty _ ?_ (by decide) _
    hnewest⟩
  intro item hitem
  rcases List.mem_pair.mp hitem with rfl | rfl
  · exact bodyItem_observation _ _ _
  · exact bodyItem_observation _ _ _

/-- A body without an edit date under order 30 is stored, and the edit of date 200 under order 10
comes after it: the edit is the newest observation, but it is not taken up. -/
theorem body_after_undated :
    bodyReader.Newest [bodyItem "first" none 30, bodyItem "edited" (some 200) 10]
      (bodyItem "edited" (some 200) 10) ∧
    ∃ final, insertEach sampleEnv .history {} [(sampleReads, .foreground, bodyItem "first" none 30),
        (sampleReads, .foreground, bodyItem "edited" (some 200) 10)] = .ok final ∧
      final.storedBody ⟨7, 5⟩ = some (some "first", none) := by
  refine ⟨⟨by simp, by decide, by decide⟩, _, rfl, ?_⟩
  decide +kernel

end MessageStore

end McpTelegram
