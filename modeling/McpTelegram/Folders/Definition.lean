import Mathlib.Data.Finset.Sort
import McpTelegram.Folders.JsonText
import McpTelegram.Folders.Membership

/-!
# The stored definition of a folder

`_encode_rule` and `_decode_rule` of `folders/sqlite_repository.py`: a rule is stored as the JSON
text of an object with eighteen keys, which `sort_keys=True` sorts, those of the title entities
too.  What comes back differs from the rule in the order of the pairs of its entities, which
`==` does not see.
-/

namespace McpTelegram

/-! ## Equality -/

/-- `==` of two entities: the order of the pairs does not matter. -/
def TitleEntity.Same (entity other : TitleEntity) : Prop := entity.pairs.Perm other.pairs

/-- `==` of two rules. -/
structure FolderRule.Same (rule other : FolderRule) : Prop where
  entities : List.Forall₂ TitleEntity.Same rule.titleEntities other.titleEntities
  rest : { rule with titleEntities := [] } = { other with titleEntities := [] }

/-! ## Encoding -/

/-- A value of an entity as JSON. -/
def EntityValue.json : EntityValue → Json
  | null => .null
  | bool value => .bool value
  | int value => .int value
  | str value => .str value

/-- An entity as JSON. -/
def TitleEntity.json (entity : TitleEntity) : Json :=
  .obj (entity.pairs.map fun pair => (pair.1, pair.2.json))

theorem DialogCategory.value_injective : Function.Injective DialogCategory.value := by
  intro category category' h
  cases category <;> cases category' <;> first | rfl | exact absurd h (by decide)

/-- Categories are sorted by their values. -/
instance : LinearOrder DialogCategory := LinearOrder.lift' _ DialogCategory.value_injective

/-- A number or `None`. -/
def optionalNumber : Option ℤ → Json
  | none => .null
  | some value => .int value

/-- A text or `None`. -/
def optionalText : Option String → Json
  | none => .null
  | some value => .str value

/-- The object that `_encode_rule` dumps. -/
def FolderRule.object (rule : FolderRule) : List (String × Json) :=
  [("id", .int rule.folderId),
    ("title", .str rule.title),
    ("namespace", .str rule.ruleNamespace),
    ("kind", .str rule.kind.value),
    ("position", optionalNumber rule.sourcePosition),
    ("include", .arr (rule.includedIds.map .int)),
    ("pins", .arr (rule.pinnedIds.map .int)),
    ("exclude", .arr (rule.excludedIds.map .int)),
    ("categories", .arr (rule.categories.sort.map fun category => .str category.value)),
    ("exclude_archived", .bool rule.excludeArchived),
    ("exclude_read", .bool rule.excludeRead),
    ("exclude_muted", .bool rule.excludeMuted),
    ("title_entities", .arr (rule.titleEntities.map TitleEntity.json)),
    ("title_noanimate", .bool rule.titleNoanimate),
    ("emoticon", optionalText rule.emoticon),
    ("color", optionalNumber rule.color),
    ("has_my_invites", .bool rule.hasMyInvites),
    ("complete", .bool rule.complete)]

/-- `_encode_rule`. -/
def encodeRule (rule : FolderRule) : String := (Json.obj rule.object).dumps

/-- `encode_folder_definition`. -/
def encodeFolderDefinition (rule : FolderRule) : String :=
  encodeRule { rule with sourcePosition := some 0 }

/-! ## Decoding -/

/-- An exception of `_decode_rule`. -/
inductive RuleError where
  | keyError (key : String)
  | valueError
  | typeError
  deriving DecidableEq

/-- `value[name]`. -/
def ruleField (value : List (String × Json)) (name : String) : Except RuleError Json :=
  match Json.get value name with
  | some field => .ok field
  | none => .error (.keyError name)

/-- `_as_int`. -/
def ruleInt : Json → Except RuleError ℤ
  | .int value => .ok value
  | .str text =>
    match text.toInt? with
    | some value => .ok value
    | none => .error .valueError
  | _ => .error .typeError

/-- A text; what `str` would make of another value is never stored, and is refused here. -/
def ruleText : Json → Except RuleError String
  | .str text => .ok text
  | _ => .error .typeError

/-- A truth value; what `bool` would make of another value is never stored, and is refused here. -/
def ruleBool : Json → Except RuleError Bool
  | .bool value => .ok value
  | _ => .error .typeError

/-- A value, or `None`. -/
def ruleOptional {α : Type} (read : Json → Except RuleError α) : Json → Except RuleError (Option α)
  | .null => .ok none
  | value => some <$> read value

/-- The items of an array. -/
def ruleItems {α : Type} (read : Json → Except RuleError α) : Json → Except RuleError (List α)
  | .arr items => items.mapM read
  | _ => .error .typeError

/-- `FolderRuleKind(text)`. -/
def FolderRuleKind.ofValue : String → Except RuleError FolderRuleKind
  | "filter" => .ok .filter
  | "chatlist" => .ok .chatlist
  | "default" => .ok .default
  | _ => .error .valueError

/-- `DialogCategory(text)`. -/
def DialogCategory.ofValue : String → Except RuleError DialogCategory
  | "contact" => .ok .contact
  | "non_contact" => .ok .nonContact
  | "bot" => .ok .bot
  | "group" => .ok .group
  | "broadcast" => .ok .broadcast
  | _ => .error .valueError

/-- A value of an entity. -/
def ruleEntityValue : Json → Except RuleError EntityValue
  | .null => .ok .null
  | .bool value => .ok (.bool value)
  | .int value => .ok (.int value)
  | .str value => .ok (.str value)
  | _ => .error .typeError

/-- An entity, with the `dict` that `json.loads` makes of it. -/
def ruleEntity : Json → Except RuleError TitleEntity
  | .obj pairs => do
    let values ← pairs.mapM fun pair => do return (pair.1, ← ruleEntityValue pair.2)
    if h : (values.map Prod.fst).Nodup then return ⟨values, h⟩ else .error .typeError
  | _ => .error .typeError

/-- The rule in a loaded object. -/
def FolderRule.ofObject (value : List (String × Json)) : Except RuleError FolderRule := do
  return {
    folderId := ← ruleInt (← ruleField value "id")
    title := ← ruleText (← ruleField value "title")
    ruleNamespace := ← ruleText (← ruleField value "namespace")
    kind := ← FolderRuleKind.ofValue (← ruleText (← ruleField value "kind"))
    sourcePosition := ← ruleOptional ruleInt (← ruleField value "position")
    includedIds := ← ruleItems ruleInt (← ruleField value "include")
    pinnedIds := ← ruleItems ruleInt (← ruleField value "pins")
    excludedIds := ← ruleItems ruleInt (← ruleField value "exclude")
    categories := (← (← ruleItems ruleText (← ruleField value "categories")).mapM
      DialogCategory.ofValue).toFinset
    excludeArchived := ← ruleBool (← ruleField value "exclude_archived")
    excludeRead := ← ruleBool (← ruleField value "exclude_read")
    excludeMuted := ← ruleBool (← ruleField value "exclude_muted")
    titleEntities := ← ruleItems ruleEntity (← ruleField value "title_entities")
    titleNoanimate := ← ruleBool (← ruleField value "title_noanimate")
    emoticon := ← ruleOptional ruleText (← ruleField value "emoticon")
    color := ← ruleOptional ruleInt (← ruleField value "color")
    hasMyInvites := ← ruleBool (← ruleField value "has_my_invites")
    complete := ← ruleBool (← ruleField value "complete") }

/-- `_decode_rule`, and `decode_folder_definition`. -/
def decodeFolderDefinition (raw : String) : Except RuleError FolderRule :=
  match Json.loads raw with
  | some (.obj value) => FolderRule.ofObject value
  | some _ => .error .typeError
  | none => .error .valueError

/-! ## What is read back -/

/-- Items that were written one by one are read one by one. -/
theorem mapM_map_eq_ok {α β γ : Type} {write : α → γ} {read : γ → Except RuleError β}
    {value : α → β} (h : ∀ item, read (write item) = .ok (value item)) (items : List α) :
    (items.map write).mapM read = .ok (items.map value) := by
  induction items with
  | nil => rfl
  | cons item items ih =>
    rw [List.map_cons, List.mapM_cons, h, ih]
    rfl

theorem mapM_map_self {α γ : Type} {write : α → γ} {read : γ → Except RuleError α}
    (h : ∀ item, read (write item) = .ok item) (items : List α) :
    (items.map write).mapM read = .ok items := by
  rw [mapM_map_eq_ok h, List.map_id']

/-- Sorting the items of an array. -/
theorem sortKeysItems_eq_map (items : List Json) :
    Json.sortKeysItems items = items.map Json.sortKeys := by
  induction items with
  | nil => rfl
  | cons item items ih => rw [Json.sortKeysItems, ih, List.map_cons]

/-- Sorting the values of an object. -/
theorem sortKeysPairs_eq_map (pairs : List (String × Json)) :
    Json.sortKeysPairs pairs = pairs.map fun pair => (pair.1, pair.2.sortKeys) := by
  induction pairs with
  | nil => rfl
  | cons pair pairs ih => rw [Json.sortKeysPairs, ih, List.map_cons]

/-- A field of a sorted object. -/
theorem ruleField_sorted {pairs : List (String × Json)} (hkeys : (pairs.map Prod.fst).Nodup)
    {name : String} {field : Json} (h : pairs.lookup name = some field) :
    ruleField ((Json.sortKeysPairs pairs).insertionSort fun p q => p.1 ≤ q.1) name =
      .ok field.sortKeys := by
  have hperm := List.perm_insertionSort (fun p q : String × Json => p.1 ≤ q.1)
    (Json.sortKeysPairs pairs)
  have hsorted : (((Json.sortKeysPairs pairs).insertionSort fun p q => p.1 ≤ q.1).map
      Prod.fst).Nodup := by
    rw [(hperm.map Prod.fst).nodup_iff, sortKeysPairs_eq_map, List.map_map]
    exact hkeys
  have hmem : (name, field.sortKeys) ∈
      (Json.sortKeysPairs pairs).insertionSort fun p q => p.1 ≤ q.1 := by
    rw [hperm.mem_iff, sortKeysPairs_eq_map]
    exact List.mem_map_of_mem (f := fun pair : String × Json => (pair.1, pair.2.sortKeys))
      (Json.mem_of_lookup h)
  rw [ruleField, Json.get, Json.lookup_of_mem hsorted hmem]

/-- An entity with its pairs in the order of their keys. -/
def TitleEntity.sorted (entity : TitleEntity) : TitleEntity where
  pairs := entity.pairs.insertionSort fun p q => p.1 ≤ q.1
  keys := ((List.perm_insertionSort _ entity.pairs).map Prod.fst).nodup_iff.mpr entity.keys

theorem TitleEntity.sorted_same (entity : TitleEntity) : entity.sorted.Same entity :=
  List.perm_insertionSort _ entity.pairs

/-- The rule with its entities sorted. -/
def FolderRule.sorted (rule : FolderRule) : FolderRule :=
  { rule with titleEntities := rule.titleEntities.map TitleEntity.sorted }

/-- Sorting does not change a rule. -/
theorem FolderRule.sorted_same (rule : FolderRule) : rule.sorted.Same rule := by
  refine ⟨?_, rfl⟩
  rw [sorted, List.forall₂_map_left_iff]
  exact List.forall₂_same.mpr fun entity _ => entity.sorted_same

/-! ### The fields -/

theorem ruleInt_int (value : ℤ) : ruleInt (Json.int value).sortKeys = .ok value := rfl

theorem ruleText_str (value : String) : ruleText (Json.str value).sortKeys = .ok value := rfl

theorem ruleBool_bool (value : Bool) : ruleBool (Json.bool value).sortKeys = .ok value := rfl

/-- A sorted entity is the object of the sorted entity. -/
theorem sortKeys_entity (entity : TitleEntity) : entity.json.sortKeys = entity.sorted.json := by
  have hvalue : ∀ value : EntityValue, value.json.sortKeys = value.json := by
    intro value
    cases value <;> rfl
  have hpairs : Json.sortKeysPairs (entity.pairs.map fun pair => (pair.1, pair.2.json)) =
      entity.pairs.map fun pair => (pair.1, pair.2.json) := by
    rw [sortKeysPairs_eq_map, List.map_map]
    exact List.map_congr_left fun pair _ => by rw [Function.comp_apply, hvalue]
  rw [TitleEntity.json, TitleEntity.json, Json.sortKeys, hpairs, TitleEntity.sorted]
  exact congrArg Json.obj (List.map_insertionSort (fun p q : String × EntityValue => p.1 ≤ q.1)
    (fun p q : String × Json => p.1 ≤ q.1) (fun pair => (pair.1, pair.2.json)) entity.pairs
    fun _ _ _ _ => Iff.rfl).symm

/-- An entity is read back. -/
theorem ruleEntity_json (entity : TitleEntity) : ruleEntity entity.json = .ok entity := by
  have hvalues : (entity.pairs.map fun pair => (pair.1, pair.2.json)).mapM
      (fun pair => do return (pair.1, ← ruleEntityValue pair.2)) = .ok entity.pairs := by
    refine mapM_map_self (fun pair => ?_) entity.pairs
    obtain ⟨key, value⟩ := pair
    cases value <;> rfl
  rw [TitleEntity.json, ruleEntity, hvalues]
  exact dif_pos entity.keys

/-- The entities are read back, with their pairs sorted. -/
theorem ruleItems_entities (entities : List TitleEntity) :
    ruleItems ruleEntity (Json.sortKeys (.arr (entities.map TitleEntity.json))) =
      .ok (entities.map TitleEntity.sorted) := by
  rw [Json.sortKeys, sortKeysItems_eq_map, List.map_map, ruleItems]
  refine mapM_map_eq_ok (fun entity => ?_) entities
  rw [Function.comp_apply, sortKeys_entity, ruleEntity_json]

/-- Integers are read back. -/
theorem ruleItems_ints (ids : List ℤ) :
    ruleItems ruleInt (Json.sortKeys (.arr (ids.map .int))) = .ok ids := by
  rw [Json.sortKeys, sortKeysItems_eq_map, List.map_map, ruleItems]
  exact mapM_map_self (fun id => ruleInt_int id) ids

/-- The values of the categories are read back. -/
theorem ruleItems_categories (categories : List DialogCategory) :
    ruleItems ruleText
        (Json.sortKeys (.arr (categories.map fun category => .str category.value))) =
      .ok (categories.map DialogCategory.value) := by
  rw [Json.sortKeys, sortKeysItems_eq_map, List.map_map, ruleItems]
  exact mapM_map_eq_ok (fun category => ruleText_str category.value) categories

theorem mapM_ofValue (categories : List DialogCategory) :
    (categories.map DialogCategory.value).mapM DialogCategory.ofValue = .ok categories :=
  mapM_map_self (fun category => by cases category <;> rfl) categories

theorem ruleOptional_number (value : Option ℤ) :
    ruleOptional ruleInt (optionalNumber value).sortKeys = .ok value := by
  cases value <;> rfl

theorem ruleOptional_text (value : Option String) :
    ruleOptional ruleText (optionalText value).sortKeys = .ok value := by
  cases value <;> rfl

theorem ofValue_kind (kind : FolderRuleKind) : FolderRuleKind.ofValue kind.value = .ok kind := by
  cases kind <;> rfl

/-- A rule comes back sorted from a dictionary that has its fields. -/
theorem ofObject_of_fields {rule : FolderRule} {value : List (String × Json)}
    (hfield : ∀ {name field}, rule.object.lookup name = some field →
      ruleField value name = .ok field.sortKeys) : FolderRule.ofObject value = .ok rule.sorted := by
  have hid := hfield (show rule.object.lookup "id" = _ from rfl)
  have htitle := hfield (show rule.object.lookup "title" = _ from rfl)
  have hnamespace := hfield (show rule.object.lookup "namespace" = _ from rfl)
  have hkind := hfield (show rule.object.lookup "kind" = _ from rfl)
  have hposition := hfield (show rule.object.lookup "position" = _ from rfl)
  have hinclude := hfield (show rule.object.lookup "include" = _ from rfl)
  have hpins := hfield (show rule.object.lookup "pins" = _ from rfl)
  have hexclude := hfield (show rule.object.lookup "exclude" = _ from rfl)
  have hcategories := hfield (show rule.object.lookup "categories" = _ from rfl)
  have harchived := hfield (show rule.object.lookup "exclude_archived" = _ from rfl)
  have hread := hfield (show rule.object.lookup "exclude_read" = _ from rfl)
  have hmuted := hfield (show rule.object.lookup "exclude_muted" = _ from rfl)
  have hentities := hfield (show rule.object.lookup "title_entities" = _ from rfl)
  have hnoanimate := hfield (show rule.object.lookup "title_noanimate" = _ from rfl)
  have hemoticon := hfield (show rule.object.lookup "emoticon" = _ from rfl)
  have hcolor := hfield (show rule.object.lookup "color" = _ from rfl)
  have hinvites := hfield (show rule.object.lookup "has_my_invites" = _ from rfl)
  have hcomplete := hfield (show rule.object.lookup "complete" = _ from rfl)
  rw [FolderRule.ofObject]
  simp only [hid, htitle, hnamespace, hkind, hposition, hinclude, hpins, hexclude, hcategories,
    harchived, hread, hmuted, hentities, hnoanimate, hemoticon, hcolor, hinvites, hcomplete,
    bind, Except.bind, pure, Except.pure, ruleItems_ints, ruleItems_categories, mapM_ofValue,
    ruleItems_entities, ruleOptional_number, ruleOptional_text, ruleInt_int, ruleText_str,
    ruleBool_bool, ofValue_kind, Finset.sort_toFinset]
  rfl

/-- The keys of the object are distinct. -/
theorem FolderRule.object_keys (rule : FolderRule) : (rule.object.map Prod.fst).Nodup := by
  show ["id", "title", "namespace", "kind", "position", "include", "pins", "exclude",
    "categories", "exclude_archived", "exclude_read", "exclude_muted", "title_entities",
    "title_noanimate", "emoticon", "color", "has_my_invites", "complete"].Nodup
  decide

/-- The object of a rule is plain. -/
theorem FolderRule.object_plain (rule : FolderRule) : (Json.obj rule.object).Plain := by
  have hints : ∀ ids : List ℤ, (Json.arr (ids.map .int)).Plain := fun ids =>
    Json.plainItems_iff.mpr fun _ hitem => by
      obtain ⟨_, -, rfl⟩ := List.mem_map.mp hitem
      trivial
  have hcategories : ∀ categories : List DialogCategory,
      (Json.arr (categories.map fun category => .str category.value)).Plain := fun categories =>
    Json.plainItems_iff.mpr fun _ hitem => by
      obtain ⟨_, -, rfl⟩ := List.mem_map.mp hitem
      trivial
  have hnumber : ∀ value, (optionalNumber value).Plain := fun value => by
    cases value <;> trivial
  have htext : ∀ value, (optionalText value).Plain := fun value => by
    cases value <;> trivial
  have hentity : ∀ entity : TitleEntity, entity.json.Plain := by
    intro entity
    refine ⟨?_, Json.plainPairs_iff.mpr fun _ hpair => ?_⟩
    · rw [List.map_map]
      exact entity.keys
    · obtain ⟨⟨key, value⟩, -, rfl⟩ := List.mem_map.mp hpair
      cases value <;> trivial
  have hentities : (Json.arr (rule.titleEntities.map TitleEntity.json)).Plain :=
    Json.plainItems_iff.mpr fun _ hitem => by
      obtain ⟨entity, -, rfl⟩ := List.mem_map.mp hitem
      exact hentity entity
  exact ⟨rule.object_keys, trivial, trivial, trivial, trivial, hnumber _, hints _, hints _, hints _,
    hcategories _, trivial, trivial, trivial, hentities, trivial, htext _, hnumber _, trivial,
    trivial, trivial⟩

/-- The text of a rule is read back as the sorted rule. -/
theorem decode_encodeRule (rule : FolderRule) :
    decodeFolderDefinition (encodeRule rule) = .ok rule.sorted := by
  rw [decodeFolderDefinition, encodeRule, Json.loads_dumps rule.object_plain, Json.sortKeys]
  exact ofObject_of_fields (ruleField_sorted rule.object_keys)

end McpTelegram
