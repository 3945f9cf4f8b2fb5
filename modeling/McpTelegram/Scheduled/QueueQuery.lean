import McpTelegram.Scheduled.Queue

/-!
# What the queue query selects

The clauses of the filters select what they name.  The anchor clause of a row without a time selects
the rows after it.  The one of a dated row also selects every dated row of the same dialog whose
message id lies beyond, whatever its time.
-/

namespace McpTelegram

open Foundations

variable {row row' : QueueRow}

/-! ## Filters -/

/-- The test of the sender clause. -/
def senderTests : Option ℤ → Option String → List QueueTest
  | some senderId, _ => [.compare .senderId .eq (some senderId)]
  | none, some senderName => [.named ("%" ++ escapeLike senderName ++ "%")]
  | none, none => []

/-- The tests of the filter clauses, each a clause of its own. -/
def filterTests (request : QueueRequest) (dialogId : Option ℤ) : List QueueTest :=
  (dialogId.map fun id => .compare .dialogId .eq (some id)).toList ++
    senderTests request.senderId request.senderName ++
    (request.topicId.map fun id => .compare .forumTopicId .eq (some id)).toList ++
    (request.sinceUtc.map fun time => .compare .scheduledAt .ge (some time)).toList ++
    (request.untilUtc.map fun time => .compare .scheduledAt .lt (some time)).toList

theorem filterClauses_eq (request : QueueRequest) (dialogId : Option ℤ) :
    filterClauses request dialogId =
      (filterTests request dialogId).map fun test => [.atom test] := by
  rcases request with ⟨limit, senderId, senderName, topicId, sinceUtc, untilUtc⟩
  cases dialogId <;> cases senderId <;> cases senderName <;> cases topicId <;>
    cases sinceUtc <;> cases untilUtc <;> rfl

/-- A clause that is one comparison reads as it. -/
theorem reads_atoms {α : Type} (tests : List α) :
    List.Forall₂ Reads (tests.map fun test => [SqlToken.atom test]) (tests.map SqlCondition.atom) := by
  induction tests with
  | nil => exact .nil
  | cons test tests ih => exact .cons (.atom test) ih

section Selected

variable {like : String → String → Bool} {row : QueueRow}
variable {column : QueueColumn} {comparison : QueueComparison}

/-- A comparison of a column with a value that is not null. -/
theorem value_compare {b : ℤ} :
    (QueueTest.compare column comparison (some b)).value like row = some true ↔
      ∃ a, column.read row = some a ∧ comparison.holds a b = true := by
  simp only [QueueTest.value, Option.map_some, Option.bind_eq_some_iff, Option.some.injEq]

/-- A filter with a single comparison. -/
theorem optional_test {parameter : Option ℤ} {p : ℤ → Bool}
    (hp : ∀ b, p b = true ↔ ∃ a, column.read row = some a ∧ comparison.holds a b = true) :
    (∀ test ∈ (parameter.map fun b => QueueTest.compare column comparison (some b)).toList,
        test.value like row = some true) ↔ parameter.all p = true := by
  cases parameter with
  | none => simp
  | some b => simp [hp, value_compare]

theorem sender_test {senderId : Option ℤ} {senderName : Option String} :
    (∀ test ∈ senderTests senderId senderName, test.value like row = some true) ↔
      row.hasSender like senderId senderName = true := by
  cases senderId with
  | some id =>
    simp [senderTests, QueueRow.hasSender, value_compare, QueueColumn.read, QueueComparison.holds]
  | none =>
    cases senderName with
    | none => simp [senderTests, QueueRow.hasSender]
    | some name => simp [senderTests, QueueRow.hasSender, QueueTest.value, Option.any_eq_true]

/-- The filters let through the rows that pass all their tests. -/
theorem selected_iff {request : QueueRequest} {dialogId : Option ℤ} :
    QueueRow.selected like request dialogId row = true ↔
      QueueTest.pending.value like row = some true ∧
        ∀ test ∈ filterTests request dialogId, test.value like row = some true := by
  have hpending : QueueTest.pending.value like row = some true ↔
      (decide (row.2.messageState = .scheduled) ||
        decide (row.2.messageState = .unknownMissing)) = true := by
    simp [QueueTest.value]
  simp only [filterTests, List.forall_mem_append]
  rw [hpending, sender_test]
  rw [optional_test (p := fun id => row.dialogId = id)
      (by simp [QueueColumn.read, QueueComparison.holds]),
    optional_test (p := fun id => row.forumTopicId = some id)
      (by simp [QueueColumn.read, QueueComparison.holds]),
    optional_test (p := fun time => row.scheduledAt.any (time ≤ ·))
      (by simp [QueueColumn.read, QueueComparison.holds, Option.any_eq_true]),
    optional_test (p := fun time => row.scheduledAt.any (· < time))
      (by simp [QueueColumn.read, QueueComparison.holds, Option.any_eq_true])]
  rw [QueueRow.selected]
  simp only [Bool.and_eq_true, and_assoc]

end Selected

/-! ## The anchor -/

/-- The condition that the anchor clause writes. -/
def anchorCondition (direction : HistoryDirection) (anchorBucket : ℤ)
    (anchorScheduledAt : Option ℤ) (anchorDialogId anchorMessageId : ℤ) :
    SqlCondition QueueTest :=
  let comparison : QueueComparison := if direction = .oldest then .gt else .lt
  let dialogAfter := .atom (.compare .dialogId comparison (some anchorDialogId))
  let sameDialogAfter := (SqlCondition.atom (.compare .dialogId .eq (some anchorDialogId))).and
    (.atom (.compare .messageId comparison (some anchorMessageId)))
  let sameBucket :=
    if anchorBucket = 0 then dialogAfter.or sameDialogAfter
    else
      (SqlCondition.atom (.compare .scheduledAt comparison anchorScheduledAt)).or
        (((SqlCondition.atom (.compare .scheduledAt .eq anchorScheduledAt)).and dialogAfter).or
          sameDialogAfter)
  (SqlCondition.atom (.compare .dated comparison (some anchorBucket))).or
    ((SqlCondition.atom (.compare .dated .eq (some anchorBucket))).and sameBucket)

/-- The anchor clause reads as its condition: for a dated anchor the `OR` that lost its parentheses
takes the equality of times into its left side. -/
theorem reads_anchorClause (direction : HistoryDirection) (anchorBucket : ℤ)
    (anchorScheduledAt : Option ℤ) (anchorDialogId anchorMessageId : ℤ) :
    Reads (scheduledGlobalAnchorClause direction anchorBucket anchorScheduledAt anchorDialogId
        anchorMessageId)
      (anchorCondition direction anchorBucket anchorScheduledAt anchorDialogId
        anchorMessageId) := by
  by_cases hbucket : anchorBucket = 0
  · simp only [scheduledGlobalAnchorClause, anchorCondition, if_pos hbucket]
    exact Reads.parenthesized { alternatives := some _, conjuncts := some _ } rfl
      (fun frames => rfl) rfl
  · simp only [scheduledGlobalAnchorClause, anchorCondition, if_neg hbucket]
    exact Reads.parenthesized { alternatives := some _, conjuncts := some _ } rfl
      (fun frames => rfl) rfl

/-- The rows that the anchor clause of a row admits: the rows after it and, if it is dated, the dated
rows of its dialog whose message id lies beyond. -/
def QueueRow.Admits (direction : HistoryDirection) (last row : QueueRow) : Prop :=
  last.Before direction row ∨
    (last.scheduledAt ≠ none ∧ row.scheduledAt ≠ none ∧ row.dialogId = last.dialogId ∧
      last.Beyond direction row)

instance (direction : HistoryDirection) (last row : QueueRow) :
    Decidable (last.Admits direction row) :=
  inferInstanceAs (Decidable (_ ∨ _))

theorem sortKey_lt :
    row.sortKey < row'.sortKey ↔ row.dated < row'.dated ∨ row.dated = row'.dated ∧
      (row.timeKey < row'.timeKey ∨ row.timeKey = row'.timeKey ∧
        (row.dialogId < row'.dialogId ∨ row.dialogId = row'.dialogId ∧
          row.messageId < row'.messageId)) := by
  simp only [QueueRow.sortKey, Prod.Lex.toLex_lt_toLex]

/-- The order of two rows without a time. -/
theorem sortKey_lt_none (h : row.scheduledAt = none) (h' : row'.scheduledAt = none) :
    row.sortKey < row'.sortKey ↔ row.dialogId < row'.dialogId ∨
      row.dialogId = row'.dialogId ∧ row.messageId < row'.messageId := by
  have hkey : row.timeKey = ⊥ := h
  have hkey' : row'.timeKey = ⊥ := h'
  simp [sortKey_lt, QueueRow.dated, hkey, hkey', h, h']

/-- The order of two dated rows. -/
theorem sortKey_lt_some {time time' : ℤ} (h : row.scheduledAt = some time)
    (h' : row'.scheduledAt = some time') :
    row.sortKey < row'.sortKey ↔ time < time' ∨ time = time' ∧
      (row.dialogId < row'.dialogId ∨
        row.dialogId = row'.dialogId ∧ row.messageId < row'.messageId) := by
  have hkey : row.timeKey = (time : WithBot ℤ) := h
  have hkey' : row'.timeKey = (time' : WithBot ℤ) := h'
  simp [sortKey_lt, QueueRow.dated, hkey, hkey', h, h']

/-- The condition of the anchor of a row, on another row. -/
theorem anchorCondition_holds {like : String → String → Bool} (direction : HistoryDirection)
    (last row : QueueRow) :
    (anchorCondition direction (if last.scheduledAt = none then 0 else 1) last.scheduledAt
        last.dialogId last.messageId).Holds (QueueTest.value like row) ↔
      last.Admits direction row := by
  rw [QueueRow.Admits, QueueRow.Before.eq_def]
  cases hlast : last.scheduledAt with
  | none =>
    cases hrow : row.scheduledAt with
    | none =>
      cases direction with
      | oldest =>
        simp [anchorCondition, value_compare, QueueColumn.read, QueueComparison.holds,
          QueueRow.dated, hrow, sortKey_lt_none hlast hrow, eq_comm (a := row.dialogId)]
      | newest =>
        simp [anchorCondition, value_compare, QueueColumn.read, QueueComparison.holds,
          QueueRow.dated, hrow, sortKey_lt_none hrow hlast]
    | some time =>
      cases direction <;>
        simp [anchorCondition, sortKey_lt, value_compare, QueueColumn.read,
          QueueComparison.holds, QueueRow.dated, hlast, hrow]
  | some time =>
    cases hrow : row.scheduledAt with
    | none =>
      cases direction <;>
        simp [anchorCondition, sortKey_lt, value_compare, QueueColumn.read,
          QueueComparison.holds, QueueRow.dated, hlast, hrow]
    | some time' =>
      cases direction with
      | oldest =>
        simp [anchorCondition, QueueRow.Beyond, value_compare, QueueColumn.read,
          QueueComparison.holds, QueueRow.dated, hrow, sortKey_lt_some hlast hrow]
        omega
      | newest =>
        simp [anchorCondition, QueueRow.Beyond, value_compare, QueueColumn.read,
          QueueComparison.holds, QueueRow.dated, hrow, sortKey_lt_some hrow hlast]
        omega

end McpTelegram
