import McpTelegram.Delta.DeletionScan

/-!
# Positions of the scan for deleted direct messages

The two cursors of a checkpoint cut the pairs of a dialog and a message, in their lexicographic
order, into those that the scan has passed and those that are still ahead.  A message cursor of zero
means that the whole dialog is passed.  A selected page is the front of what is ahead and due.
-/

namespace McpTelegram

open Foundations

/-! ## Passed positions -/

namespace DmDeletionCheckpoint

variable {state : DmDeletionCheckpoint} {dialogId messageId dialogId' messageId' : ℤ}

/-- The cursors have passed a message. -/
def Passed (state : DmDeletionCheckpoint) (dialogId messageId : ℤ) : Prop :=
  ∃ cursor, state.dialogIdCursor = some cursor ∧
    (dialogId < cursor ∨
      dialogId = cursor ∧ (state.messageCursor = 0 ∨ messageId ≤ state.messageCursor))

/-- What comes after a position that is ahead is ahead. -/
theorem lt_of_passed (h : state.Passed dialogId messageId)
    (hahead : ¬ state.Passed dialogId' messageId') :
    toLex (dialogId, messageId) < toLex (dialogId', messageId') := by
  obtain ⟨cursor, hcursor, hplace⟩ := h
  rw [Prod.Lex.toLex_lt_toLex]
  dsimp only
  by_contra hnot
  rw [not_or] at hnot
  refine hahead ⟨cursor, hcursor, ?_⟩
  rcases hplace with hlt | ⟨rfl, hmessage⟩
  · exact Or.inl (lt_of_le_of_lt (not_lt.mp hnot.1) hlt)
  · rcases lt_or_eq_of_le (not_lt.mp hnot.1) with hlt | heq
    · exact Or.inl hlt
    · refine Or.inr ⟨heq, hmessage.imp id fun hle => ?_⟩
      exact (not_lt.mp fun hlt => hnot.2 ⟨heq.symm, hlt⟩).trans hle

/-- A first state has passed nothing. -/
theorem not_passed_first {generation : ℕ} {now : ℤ} :
    ¬ (first generation now).Passed dialogId messageId := by
  rintro ⟨cursor, hcursor, -⟩
  cases hcursor

/-- What a moved state has passed. -/
theorem passed_moved {messageCursor now : ℤ} :
    (state.moved dialogId messageCursor now).Passed dialogId' messageId' ↔
      dialogId' < dialogId ∨
        dialogId' = dialogId ∧ (messageCursor = 0 ∨ messageId' ≤ messageCursor) := by
  constructor
  · rintro ⟨cursor, hcursor, hplace⟩
    obtain rfl := Option.some.inj hcursor
    exact hplace
  · intro hplace
    exact ⟨dialogId, rfl, hplace⟩

/-- A position of a valid state. -/
theorem messageCursor_nonneg (h : state.valid) : 0 ≤ state.messageCursor := by
  simp only [valid, Bool.and_eq_true, decide_eq_true_eq] at h
  exact h.1.1.1.1.1.1.1.1.1.2

/-- A verifying state stays valid in another status with its reason. -/
theorem valid_transition {status : DmScanStatus} {reason : Option String} {changedAt : ℤ}
    (h : state.valid) (hverifying : state.status = .verifying)
    (hstatus : status = .running ∧ reason = none ∨
      status = .suspended ∧ (reason = some "interrupted" ∨ reason = some "account_throttle"))
    (hchanged : 0 ≤ changedAt) : (state.transition status reason changedAt).valid := by
  rcases hstatus with ⟨rfl, rfl⟩ | ⟨rfl, rfl | rfl⟩ <;>
    simp_all [valid, transition]

/-! ## The next dialog -/

variable {dialogIds : List ℤ}

/-- The next dialog is the one of the cursor or one behind it. -/
theorem nextDialog_spec (h : state.nextDialog dialogIds = some dialogId) :
    dialogId ∈ dialogIds ∧
      (state.dialogIdCursor = some dialogId ∧ 0 < state.messageCursor ∨
        ∀ cursor, state.dialogIdCursor = some cursor → cursor < dialogId) := by
  rw [nextDialog] at h
  split_ifs at h with hcursor
  · obtain ⟨hpositive, hmem⟩ := hcursor
    rw [h, Option.any_some, decide_eq_true_eq] at hmem
    exact ⟨hmem, Or.inl ⟨h, hpositive⟩⟩
  · refine ⟨List.mem_of_find?_eq_some h, Or.inr fun cursor hcursor' => ?_⟩
    have hbehind := List.find?_some h
    rw [hcursor', Option.all_some, decide_eq_true_eq] at hbehind
    exact hbehind

/-- A listed dialog that is not behind the cursor is passed, unless the cursor is inside it. -/
theorem passed_of_not_behind (hvalid : 0 ≤ state.messageCursor)
    (hcursor : ¬ (0 < state.messageCursor ∧ state.dialogIdCursor.any (· ∈ dialogIds) = true))
    (hmem : dialogId ∈ dialogIds) (hbehind : ¬ state.dialogIdCursor.all (· < dialogId) = true) :
    state.Passed dialogId messageId := by
  cases hstored : state.dialogIdCursor with
  | none => exact absurd (by rw [hstored]; rfl) hbehind
  | some cursor =>
    rw [hstored, Option.all_some, decide_eq_true_eq, not_lt] at hbehind
    refine ⟨cursor, hstored, ?_⟩
    rcases lt_or_eq_of_le hbehind with hlt | rfl
    · exact Or.inl hlt
    · refine Or.inr ⟨rfl, Or.inl ?_⟩
      by_contra hne
      refine hcursor ⟨lt_of_le_of_ne hvalid (Ne.symm hne), ?_⟩
      rw [hstored, Option.any_some]
      exact decide_eq_true hmem

/-- No dialog that is ahead comes before the next one. -/
theorem nextDialog_le (hsorted : dialogIds.Pairwise (· ≤ ·)) (hvalid : 0 ≤ state.messageCursor)
    (h : state.nextDialog dialogIds = some dialogId) (hmem : dialogId' ∈ dialogIds)
    (hahead : ¬ state.Passed dialogId' messageId') : dialogId ≤ dialogId' := by
  rw [nextDialog] at h
  split_ifs at h with hcursor
  · by_contra hlt
    exact hahead ⟨dialogId, h, Or.inl (not_le.mp hlt)⟩
  · by_cases hbehind : state.dialogIdCursor.all (· < dialogId') = true
    · obtain ⟨-, before, after, rfl, hbefore⟩ := List.find?_eq_some_iff_append.mp h
      rcases List.mem_append.mp hmem with hmem | hmem
      · have hnot := hbefore dialogId' hmem
        rw [hbehind] at hnot
        cases hnot
      · rcases List.mem_cons.mp hmem with rfl | hmem
        · exact le_rfl
        · exact List.rel_of_pairwise_cons (List.pairwise_append.mp hsorted).2.1 hmem
    · exact absurd (passed_of_not_behind hvalid hcursor hmem hbehind) hahead

/-- Without a next dialog every listed dialog is passed. -/
theorem passed_of_nextDialog_none (hvalid : 0 ≤ state.messageCursor)
    (h : state.nextDialog dialogIds = none) (hmem : dialogId' ∈ dialogIds) :
    state.Passed dialogId' messageId' := by
  rw [nextDialog] at h
  split_ifs at h with hcursor
  · rw [h] at hcursor
    exact absurd hcursor.2 (by simp)
  · have hbehind := List.find?_eq_none.mp h dialogId' hmem
    exact passed_of_not_behind hvalid hcursor hmem hbehind

end DmDeletionCheckpoint

/-! ## A page -/

namespace DmTables

variable {tables : DmTables} {dialogId scanStartedAt messageCursor messageId : ℤ}

theorem dialogIds_sorted (tables : DmTables) : tables.dialogIds.Pairwise (· ≤ ·) :=
  List.pairwise_insertionSort (· ≤ ·) _

/-- An eligible dialog is listed. -/
theorem mem_dialogIds (h : tables.eligible dialogId) : dialogId ∈ tables.dialogIds := by
  rw [dialogIds, List.mem_insertionSort, List.mem_filter]
  refine ⟨?_, h⟩
  have hstatus : tables.syncStatus.lookup dialogId = some "synced" := by
    simp only [eligible, Bool.and_eq_true, decide_eq_true_eq] at h
    exact h.1.1.1
  exact AList.lookup_isSome.mp (Option.isSome_of_eq_some hstatus)

/-- The due messages of a dialog in their order, before the limit of the statement. -/
def dueIds (tables : DmTables) (dialogId scanStartedAt messageCursor : ℤ) : List ℤ :=
  (((tables.messages.keys.filter fun key => key.1 = dialogId).map Prod.snd).filter
    (tables.due dialogId scanStartedAt messageCursor)).insertionSort (· ≤ ·)

/-- The due messages are listed. -/
theorem mem_dueIds :
    messageId ∈ tables.dueIds dialogId scanStartedAt messageCursor ↔
      tables.due dialogId scanStartedAt messageCursor messageId := by
  rw [dueIds, List.mem_insertionSort, List.mem_filter, and_iff_right_iff_imp]
  intro hdue
  simp only [due, Bool.and_eq_true] at hdue
  have hstored : (tables.messages.lookup (dialogId, messageId)).isSome := by
    cases hlookup : tables.messages.lookup (dialogId, messageId) with
    | none =>
      rw [hlookup] at hdue
      cases hdue.1
    | some row => rfl
  refine List.mem_map.mpr ⟨(dialogId, messageId), List.mem_filter.mpr ⟨?_, ?_⟩, rfl⟩
  · exact AList.lookup_isSome.mp hstored
  · exact decide_eq_true rfl

/-- The due messages increase. -/
theorem dueIds_increasing (tables : DmTables) (dialogId scanStartedAt messageCursor : ℤ) :
    (tables.dueIds dialogId scanStartedAt messageCursor).Pairwise (· < ·) := by
  have hsorted : (tables.dueIds dialogId scanStartedAt messageCursor).Pairwise (· ≤ ·) :=
    List.pairwise_insertionSort (· ≤ ·) _
  have hkeys : ((tables.messages.keys.filter fun key => key.1 = dialogId).map Prod.snd).Nodup := by
    refine (List.Nodup.filter _ tables.messages.keys_nodup).map_on ?_
    intro key hkey key' hkey' hsame
    have hfirst := of_decide_eq_true (List.mem_filter.mp hkey).2
    have hfirst' := of_decide_eq_true (List.mem_filter.mp hkey').2
    exact Prod.ext (hfirst.trans hfirst'.symm) hsame
  have hnodup : (tables.dueIds dialogId scanStartedAt messageCursor).Nodup :=
    (List.perm_insertionSort _ _).nodup_iff.mpr (hkeys.filter _)
  exact hsorted.imp₂ (fun a b hle hne => lt_of_le_of_ne hle hne) hnodup

theorem pageIds_eq (tables : DmTables) (dialogId scanStartedAt messageCursor : ℤ) :
    tables.pageIds dialogId scanStartedAt messageCursor =
      (tables.dueIds dialogId scanStartedAt messageCursor).take chunk := rfl

/-- A page increases. -/
theorem pageIds_increasing (tables : DmTables) (dialogId scanStartedAt messageCursor : ℤ) :
    (tables.pageIds dialogId scanStartedAt messageCursor).Pairwise (· < ·) := by
  rw [pageIds_eq]
  exact (dueIds_increasing _ _ _ _).sublist (List.take_sublist _ _)

/-- The messages of a page are due. -/
theorem due_of_mem_pageIds (h : messageId ∈ tables.pageIds dialogId scanStartedAt messageCursor) :
    tables.due dialogId scanStartedAt messageCursor messageId := by
  rw [pageIds_eq] at h
  exact mem_dueIds.mp (List.mem_of_mem_take h)

/-- A due message is on the page or behind all of it. -/
theorem mem_pageIds_or_gt (h : tables.due dialogId scanStartedAt messageCursor messageId) :
    messageId ∈ tables.pageIds dialogId scanStartedAt messageCursor ∨
      ∀ other ∈ tables.pageIds dialogId scanStartedAt messageCursor, other < messageId := by
  have hmem := mem_dueIds.mpr h
  have hincreasing := dueIds_increasing tables dialogId scanStartedAt messageCursor
  rw [← List.take_append_drop chunk (tables.dueIds _ _ _)] at hmem hincreasing
  rcases List.mem_append.mp hmem with hmem | hmem
  · exact Or.inl hmem
  · exact Or.inr fun other hother => (List.pairwise_append.mp hincreasing).2.2 other hother _ hmem

/-- An empty page leaves nothing due. -/
theorem not_due_of_pageIds_nil (h : tables.pageIds dialogId scanStartedAt messageCursor = []) :
    ¬ tables.due dialogId scanStartedAt messageCursor messageId := by
  intro hdue
  have hmem := mem_dueIds.mpr hdue
  rw [pageIds_eq, List.take_eq_nil_iff] at h
  rcases h with h | h
  · exact absurd h (by decide)
  · rw [h] at hmem
    exact absurd hmem List.not_mem_nil

end DmTables

end McpTelegram
