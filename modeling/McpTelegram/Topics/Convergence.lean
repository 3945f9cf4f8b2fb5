import McpTelegram.Topics.Store

/-!
# Convergence of topic facts

The events of one topic in any order.  Whether the topic is deleted depends on the newest event
alone, and so does each field whose newest event is newer than every deletion.  A field whose newest
event is older than a deletion is not determined: a deleted topic ignores it.
-/

namespace McpTelegram

open Foundations

/-- What an event observed of its topic. -/
inductive TopicEventBody where
  | create (title : String) (iconEmojiId iconColor date : Option ℤ)
  | edit (title : Option String) (iconEmojiId : Option ℤ) (hidden : Option Bool)
  | pin (pinned : Bool)
  | page (topic : TopicFact)
  /-- A page called the topic deleted. -/
  | pageDeletion (generation : ℕ)

/-- An event of one topic.  Observation orders start at one. -/
structure TopicEvent where
  order : ℕ
  now : ℤ
  body : TopicEventBody
  positive : 0 < order

namespace TopicEvent

/-- The fields that an event sets. -/
def fields (event : TopicEvent) : TopicFields :=
  match event.body with
  | .create title iconEmojiId iconColor date =>
    [(.title, .text title), (.iconColor, optionalValue iconColor)] ++
      observedField .iconEmojiId iconValue iconEmojiId ++ observedField .date .integer date
  | .edit title iconEmojiId hidden =>
    observedField .title .text title ++ observedField .iconEmojiId iconValue iconEmojiId ++
      observedField .hidden flagValue hidden
  | .pin pinned => [(.pinned, flagValue pinned)]
  | .page topic => TopicStore.factFields topic
  | .pageDeletion _ => []

/-- The value that an event sets a field to. -/
def sets (event : TopicEvent) (field : TopicField) : Option SqlValue := event.fields.lookup field

/-- The event is the deletion of the topic. -/
def isDeletion (event : TopicEvent) : Bool :=
  match event.body with
  | .pageDeletion _ => true
  | _ => false

/-- The event says something: an edit without a field is dropped. -/
def Effective (event : TopicEvent) : Prop := event.isDeletion = true ∨ event.fields ≠ []

/-- An event applied to the table. -/
def apply (key : TopicKey) (store : TopicStore) (event : TopicEvent) : TopicStore :=
  match event.body with
  | .create title iconEmojiId iconColor date =>
    TopicStore.applyTopicCreate store key title iconEmojiId iconColor date event.now event.order
  | .edit title iconEmojiId hidden =>
    TopicStore.applyTopicEdit store key title iconEmojiId hidden event.now event.order
  | .pin pinned => TopicStore.applyTopicPin store key pinned event.now event.order
  | .page topic =>
    TopicStore.upsertTopic store key.1 event.now event.order { topic with topicId := key.2 }
  | .pageDeletion generation => TopicStore.buryTopic store key event.now event.order generation

end TopicEvent

/-- The row of a topic after events of it, from an empty table. -/
def topicAfter (key : TopicKey) (events : List TopicEvent) : Option TopicRow :=
  (events.foldl (TopicEvent.apply key) ∅ : TopicStore).lookup key

/-! ## One row under one event -/

namespace TopicRow

theorem setField_isDeleted (row : TopicRow) (order : ℕ) (field : TopicField × SqlValue) :
    (row.setField order field).isDeleted = row.isDeleted ∧
      (row.setField order field).membershipOrder = row.membershipOrder := by
  rw [setField]
  split_ifs <;> exact ⟨rfl, rfl⟩

/-- The fields of an observation leave the membership. -/
theorem foldl_setField_membership (fields : TopicFields) (row : TopicRow) (order : ℕ) :
    (fields.foldl (fun row field => row.setField order field) row).isDeleted = row.isDeleted ∧
      (fields.foldl (fun row field => row.setField order field) row).membershipOrder =
        row.membershipOrder := by
  induction fields generalizing row with
  | nil => exact ⟨rfl, rfl⟩
  | cons field fields ih =>
    obtain ⟨hdeleted, hmembership⟩ := ih (row.setField order field)
    obtain ⟨hdeleted', hmembership'⟩ := setField_isDeleted row order field
    exact ⟨hdeleted.trans hdeleted', hmembership.trans hmembership'⟩

/-- An observation sets each of its fields that it is newer than. -/
theorem foldl_setField_value (fields : TopicFields) (row : TopicRow) (order : ℕ)
    (field : TopicField) :
    let row' := fields.foldl (fun row field => row.setField order field) row
    (∀ value, fields.lookup field = some value → row.fieldOrder field < order →
      row'.value field = value ∧ row'.fieldOrder field = order) ∧
    (fields.lookup field = none ∨ order ≤ row.fieldOrder field →
      row'.value field = row.value field ∧ row'.fieldOrder field = row.fieldOrder field) := by
  induction fields generalizing row with
  | nil => exact ⟨fun value h => absurd h (by simp), fun _ => ⟨rfl, rfl⟩⟩
  | cons first fields ih =>
    obtain ⟨name, first⟩ := first
    obtain ⟨hset, hkept⟩ := ih (row.setField order (name, first))
    rw [List.foldl_cons]
    by_cases hname : field = name
    · subst hname
      by_cases horder : row.fieldOrder field < order
      · have hrow : (row.setField order (field, first)).value field = first ∧
            (row.setField order (field, first)).fieldOrder field = order := by
          rw [setField, if_pos horder]
          exact ⟨Function.update_self .., Function.update_self ..⟩
        obtain ⟨hvalue, hfieldOrder⟩ := hkept (Or.inr hrow.2.ge)
        refine ⟨fun value hvalue' _ => ?_, fun hnone => ?_⟩
        · rw [List.lookup_cons_self] at hvalue'
          obtain rfl := Option.some.inj hvalue'
          exact ⟨hvalue.trans hrow.1, hfieldOrder.trans hrow.2⟩
        · rw [List.lookup_cons_self] at hnone
          exact absurd horder (not_lt.mpr (hnone.resolve_left (Option.some_ne_none _)))
      · have hrow : row.setField order (field, first) = row := if_neg horder
        rw [hrow] at hkept ⊢
        exact ⟨fun _ _ h => absurd h horder, fun _ => hkept (Or.inr (not_lt.mp horder))⟩
    · have hlookup : ((name, first) :: fields).lookup field = fields.lookup field := by
        rw [List.lookup_cons, beq_false_of_ne hname]
      have hrow : (row.setField order (name, first)).value field = row.value field ∧
          (row.setField order (name, first)).fieldOrder field = row.fieldOrder field := by
        by_cases horder : row.fieldOrder name < order
        · rw [setField, if_pos horder]
          exact ⟨Function.update_of_ne hname _ _, Function.update_of_ne hname _ _⟩
        · rw [setField, if_neg horder]
          exact ⟨rfl, rfl⟩
      rw [hlookup]
      rw [hrow.1, hrow.2] at hkept
      rw [hrow.2] at hset
      exact ⟨hset, hkept⟩

end TopicRow

/-! ## The facts of a topic -/

/-- The columns of a row that decide about later events. -/
structure TopicFacts where
  isDeleted : Bool := false
  membershipOrder : ℕ := 0
  value : TopicField → SqlValue := fun _ => .null
  fieldOrder : TopicField → ℕ := fun _ => 0

/-- The facts of a row; a topic without a row has none. -/
def factsOf : Option TopicRow → TopicFacts
  | none => {}
  | some row =>
    { isDeleted := row.isDeleted
      membershipOrder := row.membershipOrder
      value := row.value
      fieldOrder := row.fieldOrder }

/-- A write that is not ignored. -/
structure Observed (fields : TopicFields) (order : ℕ) (facts facts' : TopicFacts) : Prop where
  membership : facts'.membershipOrder = max facts.membershipOrder order
  isDeleted : facts'.isDeleted = if facts.membershipOrder < order then false else facts.isDeleted
  set : ∀ field value, fields.lookup field = some value → facts.fieldOrder field < order →
    facts'.value field = value ∧ facts'.fieldOrder field = order
  kept : ∀ field, fields.lookup field = none ∨ order ≤ facts.fieldOrder field →
    facts'.value field = facts.value field ∧ facts'.fieldOrder field = facts.fieldOrder field

/-- A deletion. -/
structure Buried (order : ℕ) (facts facts' : TopicFacts) : Prop where
  membership : facts'.membershipOrder = max facts.membershipOrder order
  isDeleted : facts'.isDeleted = if facts.membershipOrder < order then true else facts.isDeleted
  value : facts'.value = facts.value
  fieldOrder : facts'.fieldOrder = facts.fieldOrder

/-- A write to a row is ignored, or observed. -/
theorem observe_spec (row : TopicRow) (fields : TopicFields) (now : ℤ) (order : ℕ) :
    (row.isDeleted = true ∧ order ≤ row.membershipOrder ∧ row.observe fields now order = row) ∨
      Observed fields order (factsOf (some row)) (factsOf (some (row.observe fields now order))) := by
  by_cases hignored : row.isDeleted = true ∧ order ≤ row.membershipOrder
  · exact Or.inl ⟨hignored.1, hignored.2, if_pos hignored⟩
  · refine Or.inr ?_
    obtain ⟨hdeleted, hmembership⟩ := TopicRow.foldl_setField_membership fields row order
    have hvalue := TopicRow.foldl_setField_value fields row order
    rw [TopicRow.observe, if_neg hignored, TopicRow.join, hmembership]
    by_cases horder : row.membershipOrder < order
    · rw [if_pos horder]
      exact ⟨(max_eq_right horder.le).symm, (if_pos horder).symm, fun field => (hvalue field).1,
        fun field => (hvalue field).2⟩
    · rw [if_neg horder]
      exact ⟨hmembership.trans (max_eq_left (not_lt.mp horder)).symm,
        hdeleted.trans (if_neg horder).symm, fun field => (hvalue field).1,
        fun field => (hvalue field).2⟩

/-- What a write does to the facts of its topic. -/
def Written (fields : TopicFields) (order : ℕ) (facts facts' : TopicFacts) : Prop :=
  (facts.isDeleted = true ∧ order ≤ facts.membershipOrder ∧ facts' = facts) ∨
    Observed fields order facts facts'

/-- `_apply` writes, also where it inserts the row first. -/
theorem applyFields_written (store : TopicStore) (key : TopicKey) (fields : TopicFields) (now : ℤ)
    {order : ℕ} (horder : 0 < order) :
    ∃ row, (store.applyFields key fields now order).lookup key = some row ∧
      Written fields order (factsOf (store.lookup key)) (factsOf (some row)) := by
  refine ⟨_, AList.lookup_insert store, ?_⟩
  cases hrow : store.lookup key with
  | some row =>
    rcases observe_spec row fields now order with ⟨hdeleted, hmembership, heq⟩ | hobserved
    · exact Or.inl ⟨hdeleted, hmembership, by rw [Option.getD_some, heq]⟩
    · exact Or.inr hobserved
  | none =>
    rcases observe_spec (.inserted now order) fields now order with ⟨hdeleted, -, -⟩ | hobserved
    · cases hdeleted
    · refine Or.inr ⟨?_, ?_, hobserved.set, hobserved.kept⟩
      · exact hobserved.membership.trans ((max_self order).trans (max_eq_right horder.le).symm)
      · refine hobserved.isDeleted.trans ?_
        rw [if_pos (show (factsOf none).membershipOrder < order from horder)]
        exact if_neg (lt_irrefl order)

/-- `setIconEmoji` leaves the facts. -/
theorem setIconEmoji_facts (store : TopicStore) (key : TopicKey) (topic : TopicFact) (order : ℕ) :
    factsOf ((store.setIconEmoji key topic order).lookup key) = factsOf (store.lookup key) ∧
      ((store.setIconEmoji key topic order).lookup key).isSome = (store.lookup key).isSome := by
  rw [TopicStore.setIconEmoji, Dictionary.lookup_modify, if_pos rfl]
  cases store.lookup key with
  | none => exact ⟨rfl, rfl⟩
  | some row =>
    rw [Option.map_some]
    split_ifs <;> exact ⟨rfl, rfl⟩

/-- What an event does to the facts of its topic. -/
def Applied (event : TopicEvent) (facts facts' : TopicFacts) : Prop :=
  (¬ event.Effective ∧ facts' = facts) ∨
    (event.isDeletion = true ∧ Buried event.order facts facts') ∨
    (event.Effective ∧ event.isDeletion = false ∧ Written event.fields event.order facts facts')

/-- Every event changes the facts of its topic as it should, and an effective event leaves a row. -/
theorem apply_applied (key : TopicKey) (store : TopicStore) (event : TopicEvent) :
    Applied event (factsOf (store.lookup key)) (factsOf ((event.apply key store).lookup key)) ∧
      (event.Effective → ((event.apply key store).lookup key).isSome = true) ∧
      ((store.lookup key).isSome = true → ((event.apply key store).lookup key).isSome = true) := by
  obtain ⟨order, now, body, positive⟩ := event
  have hwrite : ∀ {store' : TopicStore} {event : TopicEvent}, event.isDeletion = false →
      event.Effective → (∃ row, store'.lookup key = some row ∧
        Written event.fields event.order (factsOf (store.lookup key)) (factsOf (some row))) →
      Applied event (factsOf (store.lookup key)) (factsOf (store'.lookup key)) ∧
        (event.Effective → (store'.lookup key).isSome = true) ∧
        ((store.lookup key).isSome = true → (store'.lookup key).isSome = true) := by
    rintro store' event hdeletion heffective ⟨row, hrow, hwritten⟩
    rw [hrow]
    exact ⟨Or.inr (Or.inr ⟨heffective, hdeletion, hwritten⟩), fun _ => rfl, fun _ => rfl⟩
  cases body with
  | create | pin =>
    exact hwrite rfl (Or.inr (by simp [TopicEvent.fields]))
      (applyFields_written store key _ now positive)
  | edit title iconEmojiId hidden =>
    by_cases hfields : TopicEvent.fields ⟨order, now, .edit title iconEmojiId hidden, positive⟩ = []
    · have hsame : TopicEvent.apply key store ⟨order, now, .edit title iconEmojiId hidden, positive⟩ =
          store := if_pos hfields
      have heffective : ¬ TopicEvent.Effective ⟨order, now, .edit title iconEmojiId hidden, positive⟩ :=
        fun h => h.elim (fun h => by cases h) fun h => h hfields
      rw [hsame]
      exact ⟨Or.inl ⟨heffective, rfl⟩, fun h => absurd h heffective, id⟩
    · have hsame : TopicEvent.apply key store ⟨order, now, .edit title iconEmojiId hidden, positive⟩ =
          store.applyFields key (TopicEvent.fields
            ⟨order, now, .edit title iconEmojiId hidden, positive⟩) now order := if_neg hfields
      rw [hsame]
      exact hwrite rfl (Or.inr hfields) (applyFields_written store key _ now positive)
  | page topic =>
    refine hwrite rfl (Or.inr (by simp [TopicEvent.fields, TopicStore.factFields])) ?_
    obtain ⟨row, hrow, hwritten⟩ := applyFields_written store key (TopicStore.factFields topic) now
      positive
    obtain ⟨hfacts, hsome⟩ := setIconEmoji_facts
      (store.applyFields key (TopicStore.factFields topic) now order) key
      { topic with topicId := key.2 } order
    rw [hrow] at hfacts hsome
    obtain ⟨row', hrow'⟩ := Option.isSome_iff_exists.mp hsome
    refine ⟨row', hrow', ?_⟩
    rw [hrow'] at hfacts
    rw [hfacts]
    exact hwritten
  | pageDeletion generation =>
    have hburied : ∀ {row row' : TopicRow}, row' = row.bury order generation →
        Buried order (factsOf (some row)) (factsOf (some row')) := by
      rintro row _ rfl
      rw [TopicRow.bury]
      by_cases horder : row.membershipOrder < order
      · rw [if_pos horder]
        exact ⟨(max_eq_right horder.le).symm, (if_pos horder).symm, rfl, rfl⟩
      · rw [if_neg horder]
        exact ⟨(max_eq_left (not_lt.mp horder)).symm, (if_neg horder).symm, rfl, rfl⟩
    have happly : TopicEvent.apply key store ⟨order, now, .pageDeletion generation, positive⟩ =
        store.buryTopic key now order generation := rfl
    rw [happly, TopicStore.buryTopic]
    cases hrow : store.lookup key with
    | none =>
      dsimp only
      rw [AList.lookup_insert]
      exact ⟨Or.inr (Or.inl ⟨rfl, (max_eq_right positive.le).symm, (if_pos positive).symm, rfl,
        rfl⟩), fun _ => rfl, fun _ => rfl⟩
    | some row =>
      dsimp only
      rw [AList.lookup_insert]
      exact ⟨Or.inr (Or.inl ⟨rfl, hburied rfl⟩), fun _ => rfl, fun _ => rfl⟩

/-! ## Runs of events -/

/-- An event that is not effective sets nothing, and neither does a deletion. -/
theorem sets_of_isDeletion {event : TopicEvent} (h : event.isDeletion = true) (field : TopicField) :
    event.sets field = none := by
  obtain ⟨order, now, body, positive⟩ := event
  cases body with
  | pageDeletion generation => rfl
  | create => cases h
  | edit => cases h
  | pin => cases h
  | page => cases h

theorem sets_of_not_effective {event : TopicEvent} (h : ¬ event.Effective) (field : TopicField) :
    event.sets field = none := by
  have hfields : event.fields = [] := by
    by_contra hfields
    exact h (Or.inr hfields)
  rw [TopicEvent.sets, hfields]
  rfl

/-- What the facts of a topic tell about the events that it has seen. -/
structure Known (events : List TopicEvent) (facts : TopicFacts) : Prop where
  membership : ∀ event ∈ events, event.Effective → event.order ≤ facts.membershipOrder
  newest : (facts.membershipOrder = 0 ∧ facts.isDeleted = false) ∨
    ∃ event ∈ events, event.Effective ∧ event.order = facts.membershipOrder ∧
      event.isDeletion = facts.isDeleted
  sound : ∀ field, (facts.fieldOrder field = 0 ∧ facts.value field = .null) ∨
    ∃ event ∈ events, event.sets field = some (facts.value field) ∧
      event.order = facts.fieldOrder field
  /-- A setter that is newer than every deletion is not forgotten. -/
  complete : ∀ event ∈ events, ∀ field, (event.sets field).isSome = true →
    (∀ deletion ∈ events, deletion.isDeletion = true → deletion.order < event.order) →
    event.order ≤ facts.fieldOrder field

section Known

variable {events : List TopicEvent} {event : TopicEvent} {facts facts' : TopicFacts}

/-- The setters that were seen before are kept as long as no field order goes down. -/
theorem Known.keptSetters (h : Known events facts)
    (hmono : ∀ field, facts.fieldOrder field ≤ facts'.fieldOrder field) :
    ∀ other ∈ events, ∀ field, (other.sets field).isSome = true →
      (∀ deletion ∈ events ++ [event], deletion.isDeletion = true →
        deletion.order < other.order) → other.order ≤ facts'.fieldOrder field :=
  fun other hother field hsets hdeletions => (h.complete other hother field hsets
    fun deletion hdeletion => hdeletions deletion (List.mem_append_left _ hdeletion)).trans
      (hmono field)

/-- A value that is kept was set by an event before. -/
theorem Known.keptValue (h : Known events facts) {field : TopicField}
    (hvalue : facts'.value field = facts.value field)
    (horder : facts'.fieldOrder field = facts.fieldOrder field) :
    (facts'.fieldOrder field = 0 ∧ facts'.value field = .null) ∨
      ∃ other ∈ events ++ [event], other.sets field = some (facts'.value field) ∧
        other.order = facts'.fieldOrder field := by
  rw [hvalue, horder]
  refine (h.sound field).imp id ?_
  rintro ⟨other, hother, hsets⟩
  exact ⟨other, List.mem_append_left _ hother, hsets⟩

/-- The membership after an event that is applied to it. -/
theorem Known.joined (h : Known events facts) {deleted : Bool} (heffective : event.Effective)
    (hdeletion : event.isDeletion = deleted)
    (hmembership : facts'.membershipOrder = max facts.membershipOrder event.order)
    (hdeleted : facts'.isDeleted = if facts.membershipOrder < event.order then deleted
      else facts.isDeleted) :
    (∀ other ∈ events ++ [event], other.Effective → other.order ≤ facts'.membershipOrder) ∧
      ∃ other ∈ events ++ [event], other.Effective ∧ other.order = facts'.membershipOrder ∧
        other.isDeletion = facts'.isDeleted := by
  constructor
  · intro other hother hothereffective
    rw [hmembership]
    rcases List.mem_append.mp hother with hother | hother
    · exact (h.membership other hother hothereffective).trans (le_max_left _ _)
    · rw [List.mem_singleton.mp hother]
      exact le_max_right _ _
  · by_cases horder : facts.membershipOrder < event.order
    · refine ⟨event, List.mem_append_right _ (List.mem_singleton_self event), heffective, ?_, ?_⟩
      · rw [hmembership, max_eq_right horder.le]
      · rw [hdeleted, if_pos horder, hdeletion]
    · rw [hmembership, max_eq_left (not_lt.mp horder), hdeleted, if_neg horder]
      rcases h.newest with ⟨hzero, -⟩ | ⟨other, hother, hnewest⟩
      · exact absurd (hzero ▸ event.positive) horder
      · exact ⟨other, List.mem_append_left _ hother, hnewest⟩

/-- An event that leaves the facts alone. -/
theorem Known.unchanged (h : Known events facts)
    (hmembership : event.Effective → event.order ≤ facts.membershipOrder)
    (hcomplete : ∀ field, (event.sets field).isSome = true →
      (∀ deletion ∈ events, deletion.isDeletion = true → deletion.order < event.order) →
      event.order ≤ facts.fieldOrder field) : Known (events ++ [event]) facts := by
  refine ⟨fun other hother heffective => ?_, h.newest.imp id ?_,
    fun field => h.keptValue rfl rfl, fun other hother field hsets hdeletions => ?_⟩
  · rcases List.mem_append.mp hother with hother | hother
    · exact h.membership other hother heffective
    · obtain rfl := List.mem_singleton.mp hother
      exact hmembership heffective
  · rintro ⟨other, hother, hnewest⟩
    exact ⟨other, List.mem_append_left _ hother, hnewest⟩
  · rcases List.mem_append.mp hother with hother | hother
    · exact h.keptSetters (fun _ => le_rfl) other hother field hsets hdeletions
    · obtain rfl := List.mem_singleton.mp hother
      exact hcomplete field hsets fun deletion hdeletion =>
        hdeletions deletion (List.mem_append_left _ hdeletion)

/-- A deletion. -/
theorem Known.buried (h : Known events facts) (hdeletion : event.isDeletion = true)
    (hburied : Buried event.order facts facts') : Known (events ++ [event]) facts' := by
  obtain ⟨hmembership, hnewest⟩ := h.joined (Or.inl hdeletion) hdeletion hburied.membership
    hburied.isDeleted
  refine ⟨hmembership, Or.inr hnewest, fun field => h.keptValue (by rw [hburied.value])
    (by rw [hburied.fieldOrder]), fun other hother field hsets hdeletions => ?_⟩
  rcases List.mem_append.mp hother with hother | hother
  · exact h.keptSetters (fun field => by rw [hburied.fieldOrder]) other hother field hsets
      hdeletions
  · rw [List.mem_singleton.mp hother, sets_of_isDeletion hdeletion] at hsets
    cases hsets

/-- A write sets a field or keeps it. -/
theorem Observed.set_or_kept {fields : TopicFields} {order : ℕ}
    (h : Observed fields order facts facts') (field : TopicField) :
    (∃ value, fields.lookup field = some value ∧ facts.fieldOrder field < order ∧
        facts'.value field = value ∧ facts'.fieldOrder field = order) ∨
      ((fields.lookup field = none ∨ order ≤ facts.fieldOrder field) ∧
        facts'.value field = facts.value field ∧
        facts'.fieldOrder field = facts.fieldOrder field) := by
  cases hsets : fields.lookup field with
  | none => exact Or.inr ⟨Or.inl rfl, h.kept field (Or.inl hsets)⟩
  | some value =>
    by_cases horder : facts.fieldOrder field < order
    · exact Or.inl ⟨value, rfl, horder, h.set field value hsets horder⟩
    · exact Or.inr ⟨Or.inr (not_lt.mp horder), h.kept field (Or.inr (not_lt.mp horder))⟩

/-- A write that is not ignored. -/
theorem Known.observed (h : Known events facts) (heffective : event.Effective)
    (hwrite : event.isDeletion = false)
    (hobserved : Observed event.fields event.order facts facts') :
    Known (events ++ [event]) facts' := by
  obtain ⟨hmembership, hnewest⟩ := h.joined heffective hwrite hobserved.membership
    hobserved.isDeleted
  refine ⟨hmembership, Or.inr hnewest, fun field => ?_,
    fun other hother field hsets hdeletions => ?_⟩
  · rcases hobserved.set_or_kept field with ⟨value, hsets, -, hvalue, horder⟩ | ⟨-, hvalue, horder⟩
    · refine Or.inr ⟨event, List.mem_append_right _ (List.mem_singleton_self event), ?_,
        horder.symm⟩
      rw [TopicEvent.sets, hsets, hvalue]
    · exact h.keptValue hvalue horder
  · rcases List.mem_append.mp hother with hother | hother
    · refine h.keptSetters (fun field => ?_) other hother field hsets hdeletions
      rcases hobserved.set_or_kept field with ⟨-, -, hlt, -, horder⟩ | ⟨-, -, horder⟩
      · rw [horder]
        exact hlt.le
      · exact horder.ge
    · rw [List.mem_singleton.mp hother] at hsets ⊢
      rcases hobserved.set_or_kept field with ⟨-, -, -, -, horder⟩ | ⟨hnone | hle, -, horder⟩
      · exact horder.ge
      · rw [TopicEvent.sets, hnone] at hsets
        cases hsets
      · rw [horder]
        exact hle

/-- One more event. -/
theorem Known.append (h : Known events facts) (happlied : Applied event facts facts') :
    Known (events ++ [event]) facts' := by
  rcases happlied with ⟨hineffective, rfl⟩ | ⟨hdeletion, hburied⟩ |
    ⟨heffective, hwrite, ⟨hdeleted, hlate, rfl⟩ | hobserved⟩
  · refine h.unchanged (fun heffective => absurd heffective hineffective) fun field hsets _ => ?_
    rw [sets_of_not_effective hineffective] at hsets
    cases hsets
  · exact h.buried hdeletion hburied
  · -- the newest event is a deletion, and this one is no newer
    have hdeletion : ∃ other ∈ events, other.order = facts'.membershipOrder ∧
        other.isDeletion = true := by
      rcases h.newest with ⟨-, hlive⟩ | ⟨other, hother, -, horder, hisDeletion⟩
      · rw [hdeleted] at hlive
        cases hlive
      · exact ⟨other, hother, horder, hisDeletion.trans hdeleted⟩
    obtain ⟨deletion, hmem, horder, hisDeletion⟩ := hdeletion
    refine h.unchanged (fun _ => hlate) fun field _ hdeletions => ?_
    have hlt := hdeletions deletion hmem hisDeletion
    rw [horder] at hlt
    exact absurd hlate (not_le.mpr hlt)
  · exact h.observed heffective hwrite hobserved

end Known

/-- After any events of a topic its facts are known, and it has a row once an event was effective. -/
theorem topicAfter_known (key : TopicKey) (events : List TopicEvent) :
    Known events (factsOf (topicAfter key events)) ∧
      ((∃ event ∈ events, event.Effective) → (topicAfter key events).isSome = true) := by
  induction events using List.reverseRecOn with
  | nil =>
    exact ⟨⟨fun _ h => absurd h List.not_mem_nil, Or.inl ⟨rfl, rfl⟩, fun _ => Or.inl ⟨rfl, rfl⟩,
      fun _ h => absurd h List.not_mem_nil⟩, fun ⟨_, h, _⟩ => absurd h List.not_mem_nil⟩
  | append_singleton events event ih =>
    have hstep : topicAfter key (events ++ [event]) =
        (event.apply key (events.foldl (TopicEvent.apply key) ∅)).lookup key := by
      rw [topicAfter, List.foldl_append]
      rfl
    obtain ⟨happlied, hfresh, hkept⟩ :=
      apply_applied key (events.foldl (TopicEvent.apply key) ∅) event
    rw [hstep]
    refine ⟨ih.1.append happlied, ?_⟩
    rintro ⟨other, hother, heffective⟩
    rcases List.mem_append.mp hother with hother | hother
    · exact hkept (ih.2 ⟨other, hother, heffective⟩)
    · rw [List.mem_singleton.mp hother] at heffective
      exact hfresh heffective

/-- The events of a topic in any arrangement: the topic is deleted exactly when its newest effective
event is a deletion, and each field holds the value of the newest event that set it, if that event
is newer than every deletion; a field that no event set stays empty. -/
theorem facts_converge (key : TopicKey) (events arrangement : List TopicEvent)
    (hdistinct : (events.map TopicEvent.order).Nodup) (hperm : arrangement.Perm events)
    (heffective : ∃ event ∈ events, event.Effective) :
    ∃ row, topicAfter key arrangement = some row ∧
      (∀ newest ∈ events, newest.Effective →
        (∀ event ∈ events, event.Effective → event.order ≤ newest.order) →
          row.isDeleted = newest.isDeletion) ∧
      (∀ field, ∀ newest ∈ events, ∀ value, newest.sets field = some value →
        (∀ event ∈ events, (event.sets field).isSome = true → event.order ≤ newest.order) →
        (∀ deletion ∈ events, deletion.isDeletion = true → deletion.order < newest.order) →
          row.value field = value) ∧
      ∀ field, (∀ event ∈ events, event.sets field = none) → row.value field = .null := by
  have hmem : ∀ event, event ∈ arrangement ↔ event ∈ events := fun event => hperm.mem_iff
  obtain ⟨hknown, hsome⟩ := topicAfter_known key arrangement
  obtain ⟨row, hrow⟩ := Option.isSome_iff_exists.mp (hsome (by
    obtain ⟨event, hevent, h⟩ := heffective
    exact ⟨event, (hmem event).mpr hevent, h⟩))
  rw [hrow] at hknown
  refine ⟨row, hrow, fun newest hnewest hneweffective hmax => ?_,
    fun field newest hnewest value hvalue hmax hdeletions => ?_, fun field hnone => ?_⟩
  · rcases hknown.newest with ⟨hzero, -⟩ | ⟨event, hevent, hevenEffective, horder, hdeletion⟩
    · have hle := hknown.membership newest ((hmem newest).mpr hnewest) hneweffective
      rw [hzero] at hle
      exact absurd newest.positive (not_lt.mpr hle)
    · have hle := hknown.membership newest ((hmem newest).mpr hnewest) hneweffective
      have hge := hmax event ((hmem event).mp hevent) hevenEffective
      have heq : event = newest := List.inj_on_of_nodup_map hdistinct ((hmem event).mp hevent) hnewest
        (le_antisymm hge (horder ▸ hle))
      exact hdeletion.symm.trans (congrArg _ heq)
  · have hle := hknown.complete newest ((hmem newest).mpr hnewest) field (by rw [hvalue]; rfl)
      fun deletion hdeletion => hdeletions deletion ((hmem deletion).mp hdeletion)
    rcases hknown.sound field with ⟨hzero, -⟩ | ⟨event, hevent, hsets, horder⟩
    · rw [hzero] at hle
      exact absurd newest.positive (not_lt.mpr hle)
    · have hge := hmax event ((hmem event).mp hevent) (by rw [hsets]; rfl)
      have heq : event = newest := List.inj_on_of_nodup_map hdistinct ((hmem event).mp hevent) hnewest
        (le_antisymm hge (horder ▸ hle))
      rw [heq, hvalue] at hsets
      exact (Option.some.inj hsets).symm
  · rcases hknown.sound field with ⟨-, hnull⟩ | ⟨event, hevent, hsets, -⟩
    · exact hnull
    · rw [hnone event ((hmem event).mp hevent)] at hsets
      cases hsets

/-- A topic is created, deleted and pinned again. -/
def sampleTopicEvents : List TopicEvent :=
  [⟨1, 10, .create "news" none none none, by decide⟩, ⟨2, 11, .pageDeletion 1, by decide⟩,
    ⟨3, 12, .pin true, by decide⟩]

/-- The creation arrives after the deletion. -/
def sampleArrangement : List TopicEvent :=
  [⟨2, 11, .pageDeletion 1, by decide⟩, ⟨1, 10, .create "news" none none none, by decide⟩,
    ⟨3, 12, .pin true, by decide⟩]

theorem facts_converge_sample :
    ∃ row, topicAfter (7, 5) sampleArrangement = some row ∧ row.isDeleted = false ∧
      row.value .pinned = .integer 1 := by
  obtain ⟨row, hrow, hdeleted, hvalue, -⟩ := facts_converge (7, 5) sampleTopicEvents
    sampleArrangement (by decide) (List.Perm.swap _ _ _)
    ⟨⟨3, 12, .pin true, by decide⟩, by simp [sampleTopicEvents], Or.inr (by simp [TopicEvent.fields])⟩
  refine ⟨row, hrow, ?_, ?_⟩
  · refine hdeleted ⟨3, 12, .pin true, by decide⟩ (by simp [sampleTopicEvents])
      (Or.inr (by simp [TopicEvent.fields])) ?_
    simp [sampleTopicEvents]
  · refine hvalue .pinned ⟨3, 12, .pin true, by decide⟩ (by simp [sampleTopicEvents]) _ rfl ?_ ?_
    · simp [sampleTopicEvents]
    · simp [sampleTopicEvents, TopicEvent.isDeletion]

/-- Two arrangements of the same events leave a live topic with different titles. -/
theorem title_depends_on_arrangement :
    sampleArrangement.Perm sampleTopicEvents ∧ (sampleTopicEvents.map TopicEvent.order).Nodup ∧
      (topicAfter (7, 5) sampleTopicEvents).map (fun row => (row.isDeleted, row.value .title)) =
        some (false, .text "news") ∧
      (topicAfter (7, 5) sampleArrangement).map (fun row => (row.isDeleted, row.value .title)) =
        some (false, .null) :=
  ⟨List.Perm.swap _ _ _, by decide, by decide, by decide⟩

end McpTelegram
