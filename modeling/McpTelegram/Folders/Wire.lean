import McpTelegram.Folders.Definition
import McpTelegram.Safety.Record

/-!
# The wire request of a folder

`native_folder_request` of `folders/commands.py` builds the request of a command from the intended
rule, and `validate_folder_wire_request` builds it again from the stored definition and compares
the bytes.  The classes of Telethon are a parameter.  An entity is read by its keys alone, so that
the order of its pairs does not matter.
-/

namespace McpTelegram

variable {entity other : TitleEntity} {rule : FolderRule}

/-! ## The classes of Telethon -/

/-- A value that a constructor of an entity is given. -/
inductive EntityArgument (Date : Type) where
  | value (value : EntityValue)
  | date (date : Date)

/-- The classes of Telethon, and `datetime.fromisoformat`; `none` stands for an exception. -/
structure TelethonTypes (Peer Entity Date : Type) where
  /-- `user_id` and `access_hash` of an `InputPeerUser`; `none` for another peer. -/
  inputPeerUser : Peer → Option (ℤ × ℤ)
  /-- `callable(getattr(types, name, None))`. -/
  callable : String → Bool
  /-- The constructor of a name, applied to named arguments. -/
  construct : String → (String → Option (EntityArgument Date)) → Option Entity
  /-- `InputMessageEntityMentionName(start, length, InputUser(user_id, access_hash))`. -/
  mentionName : ℤ → ℤ → ℤ → ℤ → Entity
  /-- `isinstance(entity, TypeMessageEntity)`. -/
  isMessageEntity : Entity → Bool
  fromisoformat : String → Option Date

/-- `DialogFilter`. -/
structure DialogFilter (Peer Entity : Type) where
  id : ℤ
  title : String × List Entity
  pinnedPeers : List Peer
  includePeers : List Peer
  excludePeers : List Peer
  contacts : Bool
  nonContacts : Bool
  bots : Bool
  groups : Bool
  broadcasts : Bool
  excludeArchived : Bool
  excludeRead : Bool
  excludeMuted : Bool
  titleNoanimate : Bool
  emoticon : Option String
  color : Option ℤ

/-- `UpdateDialogFilterRequest`. -/
structure UpdateDialogFilterRequest (Peer Entity : Type) where
  id : ℤ
  filter : Option (DialogFilter Peer Entity)

namespace TitleEntity

variable (entity : TitleEntity)

/-- `entity.get(key)`. -/
def get (key : String) : Option EntityValue := entity.pairs.lookup key

/-- `entity.get(key)`, of the type `int`. -/
def getInt (key : String) : Option ℤ :=
  match entity.get key with
  | some (.int value) => some value
  | _ => none

/-- `entity.get("_")`, if it is a text. -/
def name : Option String :=
  match entity.get "_" with
  | some (.str name) => some name
  | _ => none

end TitleEntity

section Request

variable {Peer Entity Date : Type} (types : TelethonTypes Peer Entity Date)
  (resolve : ℤ → Option Peer)

/-! ## The title -/

/-- `len(char.encode("utf-16-le")) // 2`. -/
def utf16Units (char : Char) : ℤ := if char.toNat < 0x10000 then 1 else 2

/-- The boundaries of the title in UTF-16 units. -/
def titleBoundaries (title : String) : List ℤ := title.toList.scanl (fun offset char =>
  offset + utf16Units char) 0

/-- `_entity_constructor`: the name of the constructor. -/
def entityConstructor (entity : TitleEntity) : Except String String :=
  match entity.name with
  | some name =>
    if name.startsWith "MessageEntity" ∧ types.callable name ∧ name ≠ "MessageEntityUnknown" then
      .ok name
    else .error "unsupported title entity"
  | none => .error "unsupported title entity"

/-- `_entity_values`, which raises when a date cannot be read. -/
def entityValues (entity : TitleEntity) : Option (String → Option (EntityArgument Date)) :=
  let plain : String → Option (EntityArgument Date) := fun key =>
    if key = "_" then none else (entity.get key).map .value
  match entity.name, entity.get "date" with
  | some "MessageEntityFormattedDate", some (.str text) =>
    (types.fromisoformat text).map fun date => Function.update plain "date" (some (.date date))
  | _, _ => some plain

/-- `_mention_entity`. -/
def mentionEntity (entity : TitleEntity) (start length : ℤ) : Except String Entity :=
  match entity.getInt "user_id" with
  | some userId =>
    if userId ≤ 0 then .error "invalid title mention"
    else
      match (resolve userId).bind types.inputPeerUser with
      | some (peerId, accessHash) =>
        if peerId = userId then .ok (types.mentionName start length peerId accessHash)
        else .error "title mention peer unavailable"
      | none => .error "title mention peer unavailable"
  | none => .error "invalid title mention"

/-- `_title_entity`. -/
def titleEntity (boundaries : List ℤ) (entity : TitleEntity) : Except String Entity := do
  let constructor ← entityConstructor types entity
  match entity.getInt "offset", entity.getInt "length" with
  | some start, some length =>
    if length ≤ 0 ∨ start ∉ boundaries ∨ start + length ∉ boundaries then
      .error "unsupported title entity"
    else if constructor = "MessageEntityMentionName" then
      mentionEntity types resolve entity start length
    else
      match (entityValues types entity).bind (types.construct constructor) with
      | some entity => .ok entity
      | none => .error "unsupported title entity"
  | _, _ => .error "unsupported title entity"

/-- `_title_entities`. -/
def titleEntities (rule : FolderRule) : Except String (List Entity) := do
  let entities ← rule.titleEntities.mapM (titleEntity types resolve (titleBoundaries rule.title))
  if entities.all types.isMessageEntity then return entities
  else .error "unsupported title entity"

/-! ## The request -/

/-- `_input_peers`. -/
def inputPeers (ids : List ℤ) : Except String (List Peer) :=
  match ids.mapM resolve with
  | some peers => .ok peers
  | none => .error "peer access unavailable"

/-- `native_folder_request`. -/
def nativeFolderRequest (action : String) (target : ℤ) (rule : Option FolderRule) :
    Except String (UpdateDialogFilterRequest Peer Entity) := do
  if target < 2 then .error "invalid folder target"
  else if action = "delete" ∧ rule = none then return ⟨target, none⟩
  else
    match rule with
    | none => .error "invalid folder intent"
    | some rule =>
      if (action ≠ "create" ∧ action ≠ "update") ∨ rule.folderId ≠ target then
        .error "invalid folder intent"
      else if rule.complete = false ∨ rule.kind ≠ .filter then
        .error "folder definition cannot be safely edited"
      else do
        let entities ← titleEntities types resolve rule
        let pinned ← inputPeers resolve rule.pinnedIds
        let included ← inputPeers resolve rule.includedIds
        let excluded ← inputPeers resolve rule.excludedIds
        return {
          id := target
          filter := some {
            id := target
            title := (rule.title, entities)
            pinnedPeers := pinned
            includePeers := included
            excludePeers := excluded
            contacts := .contact ∈ rule.categories
            nonContacts := .nonContact ∈ rule.categories
            bots := .bot ∈ rule.categories
            groups := .group ∈ rule.categories
            broadcasts := .broadcast ∈ rule.categories
            excludeArchived := rule.excludeArchived
            excludeRead := rule.excludeRead
            excludeMuted := rule.excludeMuted
            titleNoanimate := rule.titleNoanimate
            emoticon := rule.emoticon
            color := rule.color } }

/-! ## The validation -/

/-- `_intent_shape_valid`. -/
def intentShapeValid (action : String) (before intended : Option String) : Bool :=
  if action = "delete" then before.isSome && intended.isNone
  else (action = "create" || action = "update") && intended.isSome

/-- The rule of the stored definition, if there is one. -/
def intendedRule : Option String → Except RuleError (Option FolderRule)
  | none => .ok none
  | some text => some <$> decodeFolderDefinition text

/-- `validate_folder_wire_request`.  `fingerprint` is `folder_intent_fingerprint`, and `bytes` the
serialization, `none` when it raises one of the exceptions that are caught; a `KeyError` is not. -/
def validateFolderWireRequest
    (fingerprint : String → ℤ → Option String → Option String → String)
    (bytes : UpdateDialogFilterRequest Peer Entity → Option (List UInt8))
    (binding : NativeWriteReceiptBinding) (request : UpdateDialogFilterRequest Peer Entity)
    (before intended : Option String) : Except RuleError Bool :=
  if binding.domain ≠ .folder then .ok false
  else if fingerprint binding.action binding.target before intended ≠
      binding.semanticFingerprint then .ok false
  else if intentShapeValid binding.action before intended = false then .ok false
  else
    match intendedRule intended with
    | .error (.keyError key) => .error (.keyError key)
    | .error _ => .ok false
    | .ok rule =>
      match nativeFolderRequest types resolve binding.action binding.target rule with
      | .error _ => .ok false
      | .ok expected =>
        match bytes expected, bytes request with
        | some expected, some request => .ok (expected = request)
        | _, _ => .ok false

/-! ## The order of the pairs -/

/-- In a list with distinct keys, a key is looked up to the value that it is paired with. -/
theorem lookup_eq_some_iff {pairs : List (String × EntityValue)}
    (hkeys : (pairs.map Prod.fst).Nodup) {key : String} {value : EntityValue} :
    pairs.lookup key = some value ↔ (key, value) ∈ pairs := by
  induction pairs with
  | nil => exact iff_of_false (fun h => nomatch h) List.not_mem_nil
  | cons pair pairs ih =>
    rw [List.map_cons, List.nodup_cons] at hkeys
    rw [List.lookup_cons, List.mem_cons]
    by_cases hkey : key = pair.1
    · subst hkey
      have hnot : (pair.1, value) ∉ pairs := fun hmem =>
        hkeys.1 (List.mem_map.mpr ⟨_, hmem, rfl⟩)
      rw [beq_self_eq_true, Option.some.injEq, or_iff_left hnot, Prod.ext_iff]
      exact ⟨fun h => ⟨rfl, h.symm⟩, fun h => h.2.symm⟩
    · have hne : (key, value) ≠ pair := fun h => hkey (congrArg Prod.fst h)
      rw [beq_eq_false_iff_ne.mpr hkey, or_iff_right hne]
      exact ih hkeys.2

/-- Equal entities have the same values. -/
theorem TitleEntity.Same.get_eq (h : entity.Same other) : entity.get = other.get := by
  funext key
  refine Option.ext fun value => ?_
  rw [TitleEntity.get, TitleEntity.get, lookup_eq_some_iff entity.keys,
    lookup_eq_some_iff other.keys]
  exact h.mem_iff

variable {types resolve}

/-- Equal entities become the same entity of the request. -/
theorem titleEntity_of_same (h : entity.Same other) (boundaries : List ℤ) :
    titleEntity types resolve boundaries entity = titleEntity types resolve boundaries other := by
  simp only [titleEntity, entityConstructor, entityValues, mentionEntity, TitleEntity.name,
    TitleEntity.getInt, h.get_eq]

/-- Equal lists of entities become the same entities of the request. -/
theorem mapM_titleEntity_of_same {entities others : List TitleEntity}
    (h : List.Forall₂ TitleEntity.Same entities others) (boundaries : List ℤ) :
    entities.mapM (titleEntity types resolve boundaries) =
      others.mapM (titleEntity types resolve boundaries) := by
  induction h with
  | nil => rfl
  | cons hfirst _ ih => rw [List.mapM_cons, List.mapM_cons, titleEntity_of_same hfirst, ih]

/-- Equal rules have the same title entities. -/
theorem titleEntities_of_same {other : FolderRule} (h : rule.Same other) :
    titleEntities types resolve rule = titleEntities types resolve other := by
  have htitle : ({ rule with titleEntities := [] } : FolderRule).title =
      ({ other with titleEntities := [] } : FolderRule).title := congrArg FolderRule.title h.rest
  change rule.title = other.title at htitle
  rw [titleEntities, titleEntities, htitle, mapM_titleEntity_of_same h.entities]

/-- Equal rules have the same request. -/
theorem nativeFolderRequest_of_same {other : FolderRule} (h : rule.Same other) (action : String)
    (target : ℤ) :
    nativeFolderRequest types resolve action target (some rule) =
      nativeFolderRequest types resolve action target (some other) := by
  have hentities : titleEntities types resolve rule = titleEntities types resolve other :=
    titleEntities_of_same h
  obtain ⟨-, hrest⟩ := h
  cases rule
  cases other
  obtain ⟨rfl, rfl, rfl, rfl, rfl, rfl, rfl, rfl, rfl, rfl, rfl, rfl, -, rfl, rfl, rfl, rfl, rfl⟩ :=
    FolderRule.mk.inj hrest
  simp only [nativeFolderRequest, reduceCtorEq, hentities]

/-- The place in the catalogue is not in the request. -/
theorem nativeFolderRequest_position (rule : FolderRule) (position : Option ℤ) (action : String)
    (target : ℤ) :
    nativeFolderRequest types resolve action target
        (some { rule with sourcePosition := position }) =
      nativeFolderRequest types resolve action target (some rule) := by
  simp only [nativeFolderRequest, titleEntities, reduceCtorEq]

/-! ## The stored receipt -/

/-- A rule that was stored is equal to the rule at the position 0, and has the same request. -/
theorem decode_encodeFolderDefinition (rule : FolderRule) :
    ∃ decoded, decodeFolderDefinition (encodeFolderDefinition rule) = .ok decoded ∧
      decoded.Same { rule with sourcePosition := some 0 } ∧
      ∀ action target, nativeFolderRequest types resolve action target (some decoded) =
        nativeFolderRequest types resolve action target (some rule) := by
  have hsame := FolderRule.sorted_same { rule with sourcePosition := some 0 }
  refine ⟨_, decode_encodeRule _, hsame, fun action target => ?_⟩
  rw [nativeFolderRequest_of_same hsame, nativeFolderRequest_position]

/-- The request that was planned from a rule passes the validation with the stored rule. -/
theorem validate_planned {fingerprint : String → ℤ → Option String → Option String → String}
    {bytes : UpdateDialogFilterRequest Peer Entity → Option (List UInt8)}
    {binding : NativeWriteReceiptBinding} {request : UpdateDialogFilterRequest Peer Entity}
    {before : Option String} {body : List UInt8} (hdomain : binding.domain = .folder)
    (haction : binding.action = "create" ∨ binding.action = "update")
    (hfingerprint : fingerprint binding.action binding.target before
      (some (encodeFolderDefinition rule)) = binding.semanticFingerprint)
    (hrequest : nativeFolderRequest types resolve binding.action binding.target (some rule) =
      .ok request) (hbytes : bytes request = some body) :
    validateFolderWireRequest types resolve fingerprint bytes binding request before
      (some (encodeFolderDefinition rule)) = .ok true := by
  obtain ⟨decoded, hdecoded, -, hsame⟩ :=
    @decode_encodeFolderDefinition _ _ _ types resolve rule
  have hshape : ¬ intentShapeValid binding.action before (some (encodeFolderDefinition rule)) =
      false := by
    rcases haction with h | h <;> simp [intentShapeValid, h]
  have hintended : intendedRule (some (encodeFolderDefinition rule)) = .ok (some decoded) := by
    rw [intendedRule, hdecoded]
    rfl
  rw [validateFolderWireRequest, if_neg (not_not_intro hdomain),
    if_neg (not_not_intro hfingerprint), if_neg hshape, hintended]
  simp only [hsame, hrequest, hbytes, decide_true]

/-- A folder edit means what was asked: the lists and the memberships of the edited rule, the same
edit once more, and the rule and its request as they are rebuilt from the stored definition. -/
theorem folder_edit_means_what_was_asked (types : TelethonTypes Peer Entity Date)
    (resolve : ℤ → Option Peer) {rule edited : FolderRule} {changes : MembershipChanges}
    (hedit : applyMembershipChanges rule changes = .ok edited) :
    MembershipEdited rule changes edited ∧
      applyMembershipChanges edited changes = .ok edited ∧
      (∀ stored : FolderRule, ∃ decoded,
        decodeFolderDefinition (encodeFolderDefinition stored) = .ok decoded ∧
          decoded.Same { stored with sourcePosition := some 0 } ∧
          ∀ action target, nativeFolderRequest types resolve action target (some decoded) =
            nativeFolderRequest types resolve action target (some stored)) ∧
      ∀ (fingerprint : String → ℤ → Option String → Option String → String)
        (bytes : UpdateDialogFilterRequest Peer Entity → Option (List UInt8))
        (binding : NativeWriteReceiptBinding) (request : UpdateDialogFilterRequest Peer Entity)
        (before : Option String) (body : List UInt8), binding.domain = .folder →
        (binding.action = "create" ∨ binding.action = "update") →
        fingerprint binding.action binding.target before
          (some (encodeFolderDefinition edited)) = binding.semanticFingerprint →
        nativeFolderRequest types resolve binding.action binding.target (some edited) =
          .ok request →
        bytes request = some body →
          validateFolderWireRequest types resolve fingerprint bytes binding request before
            (some (encodeFolderDefinition edited)) = .ok true :=
  ⟨membershipEdited_of_apply hedit, applyMembershipChanges_again hedit,
    decode_encodeFolderDefinition, fun _ _ _ _ _ _ => validate_planned⟩

end Request

/-- A folder with overlapping lists. -/
def overlappingFolder : FolderRule where
  folderId := 2
  title := "Work"
  includedIds := [1, -5, 1]
  pinnedIds := [-5, 7]
  excludedIds := [3, 9, 3]
  categories := {.bot}

/-- The folder after `9` and `7` were added, `-5` removed and `3` cleared. -/
theorem folder_edit_means_what_was_asked_sample :
    MembershipEdited overlappingFolder ⟨[9, 7], [-5], [3]⟩
      { overlappingFolder with includedIds := [1, 1, 9], pinnedIds := [7], excludedIds := [-5] } :=
  (folder_edit_means_what_was_asked
    (⟨fun _ => none, fun _ => false, fun _ _ => none, fun _ _ _ _ => (), fun _ => true,
      fun _ => none⟩ : TelethonTypes ℤ Unit Unit) some (by decide)).1

end McpTelegram
