import Mathlib.Tactic

/-!
# Folder rules and their membership

The rule of a folder (`folders/contracts.py`), the membership that it gives a dialog
(`folders/membership.py`) and the edits of a rule (`apply_membership_changes` of
`folders/commands.py`).  An entity of a title is a `dict` whose values are texts, integers, Booleans
or `None`.
-/

namespace McpTelegram

/-! ## Contracts -/

/-- `DialogCategory`. -/
inductive DialogCategory where
  | contact | nonContact | bot | group | broadcast
  deriving DecidableEq

/-- The value of a category. -/
def DialogCategory.value : DialogCategory → String
  | contact => "contact"
  | nonContact => "non_contact"
  | bot => "bot"
  | group => "group"
  | broadcast => "broadcast"

/-- `FolderRuleKind`. -/
inductive FolderRuleKind where
  | filter | chatlist | default
  deriving DecidableEq

/-- The value of a kind. -/
def FolderRuleKind.value : FolderRuleKind → String
  | filter => "filter"
  | chatlist => "chatlist"
  | default => "default"

/-- `MembershipState`. -/
inductive MembershipState where
  | present | absent | unknown
  deriving DecidableEq

/-- `DialogFacts`; the observation time is never read. -/
structure DialogFacts where
  dialogId : ℤ
  category : Option DialogCategory := none
  archived : Option Bool := none
  unread : Option Bool := none
  muteUntil : Option ℤ := none
  deriving DecidableEq

/-- A value of a title entity. -/
inductive EntityValue where
  | null
  | bool (value : Bool)
  | int (value : ℤ)
  | str (value : String)
  deriving DecidableEq

/-- A title entity: a `dict`, whose keys are distinct. -/
structure TitleEntity where
  pairs : List (String × EntityValue)
  keys : (pairs.map Prod.fst).Nodup
  deriving DecidableEq

/-- `FolderRule`. -/
structure FolderRule where
  folderId : ℤ
  title : String
  ruleNamespace : String := "filter"
  kind : FolderRuleKind := .filter
  sourcePosition : Option ℤ := none
  includedIds : List ℤ := []
  pinnedIds : List ℤ := []
  excludedIds : List ℤ := []
  categories : Finset DialogCategory := ∅
  excludeArchived : Bool := false
  excludeRead : Bool := false
  excludeMuted : Bool := false
  titleEntities : List TitleEntity := []
  titleNoanimate : Bool := false
  emoticon : Option String := none
  color : Option ℤ := none
  hasMyInvites : Bool := false
  complete : Bool := true
  deriving DecidableEq

namespace FolderRule

variable (rule : FolderRule)

/-- `explicit_ids`. -/
def explicitIds : List ℤ := (rule.includedIds ++ rule.pinnedIds).eraseDups

/-! ## Evaluation -/

/-- `_excluded_state`. -/
def excludedState (facts : Option DialogFacts) : Option MembershipState :=
  match facts with
  | some facts => if facts.dialogId ∈ rule.excludedIds then some .absent else none
  | none => none

/-- `_explicit_state`. -/
def explicitState (facts : Option DialogFacts) : Option MembershipState :=
  match facts with
  | some facts => if facts.dialogId ∈ rule.explicitIds then some .present else none
  | none => none

/-- `_chatlist_state`. -/
def chatlistState : Option MembershipState := if rule.kind = .chatlist then some .absent else none

/-- `_default_state`. -/
def defaultState (facts : DialogFacts) : MembershipState :=
  match facts.archived with
  | none => .unknown
  | some archived => if archived then .absent else .present

/-- `_category_state`. -/
def categoryState (facts : DialogFacts) : MembershipState :=
  if rule.categories = ∅ then .absent
  else
    match facts.category with
    | none => .unknown
    | some category => if category ∈ rule.categories then .present else .absent

/-- `_optional_exclusion_state`. -/
def optionalExclusionState (enabled : Bool) (excluded : Option Bool) : Option MembershipState :=
  if enabled then
    match excluded with
    | none => some .unknown
    | some excluded => some (if excluded then .absent else .present)
  else none

/-- `_exclusions_state`. -/
def exclusionsState (facts : DialogFacts) (now : ℤ) : MembershipState :=
  let states := [optionalExclusionState rule.excludeArchived facts.archived,
    optionalExclusionState rule.excludeRead (facts.unread.map not),
    optionalExclusionState rule.excludeMuted (facts.muteUntil.map fun time => now < time)]
  if some .absent ∈ states then .absent
  else if some .unknown ∈ states then .unknown
  else .present

/-- `_compose_states`. -/
def composeStates (category exclusions : MembershipState) : MembershipState :=
  if category = .absent ∨ exclusions = .absent then .absent
  else if category = .unknown ∨ exclusions = .unknown then .unknown
  else .present

/-- `_filter_state`. -/
def filterState (facts : DialogFacts) (now : ℤ) : MembershipState :=
  composeStates (rule.categoryState facts) (rule.exclusionsState facts now)

/-- `evaluate`. -/
def evaluate (facts : Option DialogFacts) (now : ℤ) : MembershipState :=
  match rule.excludedState facts with
  | some state => state
  | none =>
    match rule.explicitState facts with
    | some state => state
    | none =>
      match rule.chatlistState with
      | some state => state
      | none =>
        match facts with
        | none => .unknown
        | some facts =>
          if rule.kind = .default then defaultState facts else rule.filterState facts now

end FolderRule

/-! ## Edits -/

/-- The arguments of `apply_membership_changes`. -/
structure MembershipChanges where
  addDialogIds : List ℤ := []
  removeDialogIds : List ℤ := []
  clearExcludedDialogIds : List ℤ := []
  deriving DecidableEq

/-- `_validate_membership_changes`. -/
def MembershipChanges.validate (changes : MembershipChanges) : Except String Unit :=
  let add := changes.addDialogIds.toFinset
  let remove := changes.removeDialogIds.toFinset
  let clear := changes.clearExcludedDialogIds.toFinset
  if (0 ∈ add ∨ 0 ∈ remove ∨ 0 ∈ clear) ∨
      (add ∩ remove ≠ ∅ ∨ add ∩ clear ≠ ∅ ∨ remove ∩ clear ≠ ∅) then
    .error "dialog IDs must be nonzero and disjoint across actions"
  else .ok ()

/-- `_append_missing`. -/
def appendMissing (original additions existing : List ℤ) : List ℤ :=
  original ++ additions.eraseDups.filter fun value => value ∉ original ∧ value ∉ existing

/-- `apply_membership_changes`. -/
def applyMembershipChanges (rule : FolderRule) (changes : MembershipChanges) :
    Except String FolderRule := do
  changes.validate
  let included := rule.includedIds.filter fun value => value ∉ changes.removeDialogIds
  let included := appendMissing included changes.addDialogIds rule.pinnedIds
  let pinned := rule.pinnedIds.filter fun value => value ∉ changes.removeDialogIds
  let excluded := rule.excludedIds.filter fun value =>
    value ∉ changes.addDialogIds ∧ value ∉ changes.clearExcludedDialogIds
  let excluded := appendMissing excluded changes.removeDialogIds []
  return { rule with includedIds := included, pinnedIds := pinned, excludedIds := excluded }

/-! ## What an edit does -/

/-- What an accepted edit has to do to a rule. -/
structure MembershipEdited (rule : FolderRule) (changes : MembershipChanges)
    (edited : FolderRule) : Prop where
  /-- A dialog that was added is present, whatever is known about it. -/
  added : ∀ id ∈ changes.addDialogIds, ∀ facts : DialogFacts, facts.dialogId = id →
    ∀ now, edited.evaluate (some facts) now = .present
  /-- A dialog that was removed is absent. -/
  removed : ∀ id ∈ changes.removeDialogIds, ∀ facts : DialogFacts, facts.dialogId = id →
    ∀ now, edited.evaluate (some facts) now = .absent
  /-- A dialog that was cleared is not excluded, and nothing else of it changes. -/
  cleared : ∀ id ∈ changes.clearExcludedDialogIds, id ∉ edited.excludedIds ∧
    (id ∈ edited.includedIds ↔ id ∈ rule.includedIds) ∧
    (id ∈ edited.pinnedIds ↔ id ∈ rule.pinnedIds)
  /-- Every other dialog is in the lists in which it was. -/
  others : ∀ id, id ∉ changes.addDialogIds → id ∉ changes.removeDialogIds →
    id ∉ changes.clearExcludedDialogIds →
      (id ∈ edited.includedIds ↔ id ∈ rule.includedIds) ∧
      (id ∈ edited.pinnedIds ↔ id ∈ rule.pinnedIds) ∧
      (id ∈ edited.excludedIds ↔ id ∈ rule.excludedIds)
  /-- The lists keep what stays in its order, and what is new comes after it, once. -/
  included : ∃ fresh, fresh.Nodup ∧ (∀ id ∈ fresh, id ∈ changes.addDialogIds ∧
      id ∉ rule.includedIds ∧ id ∉ rule.pinnedIds) ∧
    edited.includedIds =
      rule.includedIds.filter (fun id => id ∉ changes.removeDialogIds) ++ fresh
  pinned : edited.pinnedIds = rule.pinnedIds.filter fun id => id ∉ changes.removeDialogIds
  excluded : ∃ fresh, fresh.Nodup ∧ (∀ id ∈ fresh, id ∈ changes.removeDialogIds ∧
      id ∉ rule.excludedIds) ∧
    edited.excludedIds =
      rule.excludedIds.filter
        (fun id => id ∉ changes.addDialogIds ∧ id ∉ changes.clearExcludedDialogIds) ++ fresh
  /-- The other fields are kept. -/
  rest : edited = { rule with
    includedIds := edited.includedIds, pinnedIds := edited.pinnedIds
    excludedIds := edited.excludedIds }

section Edits

variable {rule edited : FolderRule} {changes : MembershipChanges}
variable {original additions existing : List ℤ} {facts : DialogFacts}

/-- The changes are accepted if their ids are not zero and in one list only. -/
structure MembershipChanges.Accepted (changes : MembershipChanges) : Prop where
  nonzero : 0 ∉ changes.addDialogIds ∧ 0 ∉ changes.removeDialogIds ∧
    0 ∉ changes.clearExcludedDialogIds
  addRemove : ∀ id ∈ changes.addDialogIds, id ∉ changes.removeDialogIds
  addClear : ∀ id ∈ changes.addDialogIds, id ∉ changes.clearExcludedDialogIds
  removeClear : ∀ id ∈ changes.removeDialogIds, id ∉ changes.clearExcludedDialogIds

/-- Two lists whose sets do not meet have no member in common. -/
theorem inter_toFinset_eq_empty {left right : List ℤ} :
    left.toFinset ∩ right.toFinset = ∅ ↔ ∀ id ∈ left, id ∉ right := by
  rw [← Finset.disjoint_iff_inter_eq_empty, Finset.disjoint_left]
  simp only [List.mem_toFinset]

/-- The validation lets just the accepted changes pass. -/
theorem MembershipChanges.validate_eq_ok : changes.validate = .ok () ↔ changes.Accepted := by
  rw [validate]
  constructor
  · intro h
    split_ifs at h with hbad
    simp only [not_or, not_not, List.mem_toFinset, inter_toFinset_eq_empty] at hbad
    exact ⟨hbad.1, hbad.2.1, hbad.2.2.1, hbad.2.2.2⟩
  · rintro ⟨hnonzero, haddRemove, haddClear, hremoveClear⟩
    refine if_neg ?_
    simp only [not_or, not_not, List.mem_toFinset, inter_toFinset_eq_empty]
    exact ⟨hnonzero, haddRemove, haddClear, hremoveClear⟩

/-- `dict.fromkeys` leaves no double. -/
theorem nodup_eraseDups (values : List ℤ) : values.eraseDups.Nodup := by
  induction hlength : values.length using Nat.strong_induction_on generalizing values with
  | _ length ih =>
    cases values with
    | nil => exact List.nodup_nil
    | cons value values =>
      rw [List.eraseDups_cons, List.nodup_cons]
      constructor
      · rw [List.mem_eraseDups, List.mem_filter]
        simp
      · refine ih _ ?_ _ rfl
        have hle := List.length_filter_le (fun other => !other == value) values
        rw [← hlength, List.length_cons]
        omega

/-- What `_append_missing` appends is new and comes once. -/
theorem appendMissing_eq (original additions existing : List ℤ) :
    ∃ fresh, fresh.Nodup ∧
      (∀ id, id ∈ fresh ↔ id ∈ additions ∧ id ∉ original ∧ id ∉ existing) ∧
      appendMissing original additions existing = original ++ fresh := by
  refine ⟨_, ?_, fun id => ?_, rfl⟩
  · exact List.Nodup.filter _ (nodup_eraseDups additions)
  · rw [List.mem_filter, List.mem_eraseDups, decide_eq_true_eq]

/-- The members after `_append_missing`. -/
theorem mem_appendMissing {id : ℤ} :
    id ∈ appendMissing original additions existing ↔
      id ∈ original ∨ id ∈ additions ∧ id ∉ existing := by
  obtain ⟨fresh, -, hmem, heq⟩ := appendMissing_eq original additions existing
  rw [heq, List.mem_append, hmem]
  tauto

/-- `_append_missing` appends nothing if nothing is missing. -/
theorem appendMissing_of_subset (h : ∀ id ∈ additions, id ∈ original ∨ id ∈ existing) :
    appendMissing original additions existing = original := by
  obtain ⟨fresh, -, hmem, heq⟩ := appendMissing_eq original additions existing
  have hnil : fresh = [] := by
    refine List.eq_nil_iff_forall_not_mem.mpr fun id hid => ?_
    obtain ⟨hadd, horiginal, hexisting⟩ := (hmem id).mp hid
    exact (h id hadd).elim horiginal hexisting
  rw [heq, hnil, List.append_nil]

/-- The edited rule of accepted changes. -/
theorem applyMembershipChanges_eq_ok :
    applyMembershipChanges rule changes = .ok edited ↔ changes.Accepted ∧
      edited = { rule with
        includedIds := appendMissing
          (rule.includedIds.filter fun value => value ∉ changes.removeDialogIds)
          changes.addDialogIds rule.pinnedIds
        pinnedIds := rule.pinnedIds.filter fun value => value ∉ changes.removeDialogIds
        excludedIds := appendMissing
          (rule.excludedIds.filter fun value =>
            value ∉ changes.addDialogIds ∧ value ∉ changes.clearExcludedDialogIds)
          changes.removeDialogIds [] } := by
  rw [← MembershipChanges.validate_eq_ok, applyMembershipChanges]
  cases changes.validate with
  | error message => exact iff_of_false (fun h => nomatch h) (fun h => nomatch h.1)
  | ok _ =>
    constructor
    · intro h
      exact ⟨rfl, (Except.ok.inj h).symm⟩
    · rintro ⟨-, rfl⟩
      rfl

/-- An excluded dialog is absent. -/
theorem FolderRule.evaluate_of_excluded (h : facts.dialogId ∈ rule.excludedIds) (now : ℤ) :
    rule.evaluate (some facts) now = .absent := by
  rw [evaluate, excludedState]
  simp only [if_pos h]

/-- A dialog that is included or pinned, and not excluded, is present. -/
theorem FolderRule.evaluate_of_explicit (hexcluded : facts.dialogId ∉ rule.excludedIds)
    (h : facts.dialogId ∈ rule.includedIds ∨ facts.dialogId ∈ rule.pinnedIds) (now : ℤ) :
    rule.evaluate (some facts) now = .present := by
  have hexplicit : facts.dialogId ∈ rule.explicitIds := by
    rw [explicitIds, List.mem_eraseDups, List.mem_append]
    exact h
  rw [evaluate, excludedState, explicitState]
  simp only [if_neg hexcluded, if_pos hexplicit]

/-- The members of the three lists after an edit. -/
theorem mem_of_apply (h : applyMembershipChanges rule changes = .ok edited) (id : ℤ) :
    (id ∈ edited.includedIds ↔ id ∈ rule.includedIds ∧ id ∉ changes.removeDialogIds ∨
        id ∈ changes.addDialogIds ∧ id ∉ rule.pinnedIds) ∧
      (id ∈ edited.pinnedIds ↔ id ∈ rule.pinnedIds ∧ id ∉ changes.removeDialogIds) ∧
      (id ∈ edited.excludedIds ↔ (id ∈ rule.excludedIds ∧ id ∉ changes.addDialogIds ∧
          id ∉ changes.clearExcludedDialogIds) ∨ id ∈ changes.removeDialogIds) := by
  obtain ⟨-, rfl⟩ := applyMembershipChanges_eq_ok.mp h
  refine ⟨?_, ?_, ?_⟩
  · rw [mem_appendMissing, List.mem_filter, decide_eq_true_eq]
  · rw [List.mem_filter, decide_eq_true_eq]
  · rw [mem_appendMissing, List.mem_filter, decide_eq_true_eq]
    simp only [List.not_mem_nil, not_false_eq_true, and_true]

/-- An accepted edit does what was asked. -/
theorem membershipEdited_of_apply (h : applyMembershipChanges rule changes = .ok edited) :
    MembershipEdited rule changes edited := by
  have hmem := mem_of_apply h
  obtain ⟨haccepted, hedited⟩ := applyMembershipChanges_eq_ok.mp h
  constructor
  case added =>
    rintro id hid facts rfl now
    obtain ⟨hincluded, hpinned, hexcluded⟩ := hmem facts.dialogId
    have hremove := haccepted.addRemove _ hid
    refine FolderRule.evaluate_of_explicit ?_ ?_ now
    · rw [hexcluded]
      rintro (⟨-, hadd, -⟩ | hremoved)
      · exact hadd hid
      · exact hremove hremoved
    · rw [hincluded, hpinned]
      by_cases hpin : facts.dialogId ∈ rule.pinnedIds
      · exact .inr ⟨hpin, hremove⟩
      · exact .inl (.inr ⟨hid, hpin⟩)
  case removed =>
    rintro id hid facts rfl now
    exact FolderRule.evaluate_of_excluded ((hmem facts.dialogId).2.2.mpr (.inr hid)) now
  case cleared =>
    intro id hid
    obtain ⟨hincluded, hpinned, hexcluded⟩ := hmem id
    have hadd : id ∉ changes.addDialogIds := fun hadd => haccepted.addClear id hadd hid
    have hremove : id ∉ changes.removeDialogIds := fun hremove =>
      haccepted.removeClear id hremove hid
    rw [hincluded, hpinned, hexcluded]
    tauto
  case others =>
    intro id hadd hremove hclear
    obtain ⟨hincluded, hpinned, hexcluded⟩ := hmem id
    rw [hincluded, hpinned, hexcluded]
    tauto
  case included =>
    obtain ⟨fresh, hnodup, hfresh, heq⟩ := appendMissing_eq
      (rule.includedIds.filter fun value => value ∉ changes.removeDialogIds)
      changes.addDialogIds rule.pinnedIds
    refine ⟨fresh, hnodup, fun id hid => ?_, by rw [hedited]; exact heq⟩
    obtain ⟨hadd, hkept, hpinned⟩ := (hfresh id).mp hid
    refine ⟨hadd, fun hincluded => hkept ?_, hpinned⟩
    exact List.mem_filter.mpr ⟨hincluded, decide_eq_true (haccepted.addRemove id hadd)⟩
  case pinned => rw [hedited]
  case excluded =>
    obtain ⟨fresh, hnodup, hfresh, heq⟩ := appendMissing_eq
      (rule.excludedIds.filter fun value =>
        value ∉ changes.addDialogIds ∧ value ∉ changes.clearExcludedDialogIds)
      changes.removeDialogIds []
    refine ⟨fresh, hnodup, fun id hid => ?_, by rw [hedited]; exact heq⟩
    obtain ⟨hremove, hkept, -⟩ := (hfresh id).mp hid
    refine ⟨hremove, fun hexcluded => hkept ?_⟩
    exact List.mem_filter.mpr ⟨hexcluded, decide_eq_true
      ⟨fun hadd => haccepted.addRemove id hadd hremove, haccepted.removeClear id hremove⟩⟩
  case rest => rw [hedited]

/-- The same edit changes nothing any more. -/
theorem applyMembershipChanges_again (h : applyMembershipChanges rule changes = .ok edited) :
    applyMembershipChanges edited changes = .ok edited := by
  have hmem := mem_of_apply h
  obtain ⟨haccepted, hedited⟩ := applyMembershipChanges_eq_ok.mp h
  have hincluded : edited.includedIds.filter (fun value => value ∉ changes.removeDialogIds) =
      edited.includedIds := by
    refine List.filter_eq_self.mpr fun id hid => decide_eq_true ?_
    rcases (hmem id).1.mp hid with ⟨-, hremove⟩ | ⟨hadd, -⟩
    · exact hremove
    · exact haccepted.addRemove id hadd
  have hpinned : edited.pinnedIds.filter (fun value => value ∉ changes.removeDialogIds) =
      edited.pinnedIds :=
    List.filter_eq_self.mpr fun id hid => decide_eq_true ((hmem id).2.1.mp hid).2
  have hexcluded : edited.excludedIds.filter (fun value =>
      value ∉ changes.addDialogIds ∧ value ∉ changes.clearExcludedDialogIds) =
      edited.excludedIds := by
    refine List.filter_eq_self.mpr fun id hid => decide_eq_true ?_
    rcases (hmem id).2.2.mp hid with ⟨-, hkept⟩ | hremove
    · exact hkept
    · exact ⟨fun hadd => haccepted.addRemove id hadd hremove, haccepted.removeClear id hremove⟩
  refine applyMembershipChanges_eq_ok.mpr ⟨haccepted, ?_⟩
  rw [hincluded, hpinned, hexcluded, appendMissing_of_subset, appendMissing_of_subset]
  · exact fun id hid => .inl ((hmem id).2.2.mpr (.inr hid))
  · intro id hid
    by_cases hpin : id ∈ edited.pinnedIds
    · exact .inr hpin
    · refine .inl ((hmem id).1.mpr (.inr ⟨hid, fun horiginal => hpin ?_⟩))
      exact (hmem id).2.1.mpr ⟨horiginal, haccepted.addRemove id hid⟩

end Edits

end McpTelegram
