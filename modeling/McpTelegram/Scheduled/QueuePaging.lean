import McpTelegram.Scheduled.QueueQuery

/-!
# Following the scheduled queue

The pages of `_list_scheduled_queue` as a paged list.  Following them visits every matching row once
if and only if at the end of each page no earlier dated row of the last row's dialog has a message
id beyond that row's.
-/

namespace McpTelegram

open Foundations

variable {rows : List QueueRow}

/-! ## The order of the query -/

section Order

variable (direction : HistoryDirection)
variable {row row' : QueueRow}

theorem queueOrder_trans (row row' row'' : QueueRow) (h : queueOrder direction row row' = true)
    (h' : queueOrder direction row' row'' = true) : queueOrder direction row row'' = true := by
  cases direction <;> simp only [queueOrder, decide_eq_true_eq] at h h' ⊢
  · exact h'.trans h
  · exact h.trans h'

theorem queueOrder_total (row row' : QueueRow) :
    (queueOrder direction row row' || queueOrder direction row' row) = true := by
  cases direction <;> simp only [queueOrder, Bool.or_eq_true, decide_eq_true_eq]
  · exact le_total ..
  · exact le_total ..

theorem sortKey_eq (h : row.sortKey = row'.sortKey) : row.1 = row'.1 := by
  simp only [QueueRow.sortKey, toLex_inj, Prod.mk.injEq] at h
  exact Prod.ext h.2.2.1 h.2.2.2

/-- Rows with different keys that are ordered come one before the other. -/
theorem before_of_queueOrder (h : queueOrder direction row row' = true) (hne : row.1 ≠ row'.1) :
    row.Before direction row' := by
  cases direction <;> simp only [queueOrder, decide_eq_true_eq] at h
  · exact lt_of_le_of_ne h fun heq => hne (sortKey_eq heq).symm
  · exact lt_of_le_of_ne h fun heq => hne (sortKey_eq heq)

theorem not_before_of_before (h : row.Before direction row') : ¬ row'.Before direction row := by
  cases direction <;> exact lt_asymm h

/-- Sorting and filtering commute on rows with distinct keys. -/
theorem filter_mergeSort (hkeys : (rows.map Sigma.fst).Nodup) (p : QueueRow → Bool) :
    (rows.filter p).mergeSort (queueOrder direction) =
      (rows.mergeSort (queueOrder direction)).filter p := by
  have hsorted := List.pairwise_mergeSort (queueOrder_trans direction) (queueOrder_total direction)
  have hperm : ((rows.filter p).mergeSort (queueOrder direction)).Perm
      ((rows.mergeSort (queueOrder direction)).filter p) :=
    (List.mergeSort_perm _ _).trans ((List.mergeSort_perm rows _).filter p).symm
  refine hperm.eq_of_pairwise (fun row row' hmem hmem' h h' => ?_) (hsorted _)
    ((hsorted rows).filter p)
  have hrow : row ∈ rows := List.mem_of_mem_filter ((List.mergeSort_perm _ _).subset hmem)
  have hrow' : row' ∈ rows :=
    (List.mergeSort_perm _ _).subset (List.mem_of_mem_filter hmem')
  refine List.inj_on_of_nodup_map hkeys hrow hrow' ?_
  by_contra hne
  exact not_before_of_before direction (before_of_queueOrder direction h hne)
    (before_of_queueOrder direction h' (Ne.symm hne))

end Order

/-! ## One page -/

section Bound

variable (rowBytes : QueueRow → ℕ) (budget : ℤ)

/-- The byte budget keeps the first rows, and says whether it has dropped some. -/
theorem boundRows_spec (started : Bool) (payload : ℕ) (rows : List QueueRow) :
    let bounded := boundRows rowBytes budget started payload rows
    bounded.1.length ≤ rows.length ∧ bounded.1 = rows.take bounded.1.length ∧
      (bounded.2 = true ↔ bounded.1.length < rows.length) := by
  induction rows generalizing started payload with
  | nil => exact ⟨le_rfl, rfl, by simp [boundRows]⟩
  | cons row rows ih =>
    simp only [boundRows]
    split_ifs with hfull
    · exact ⟨Nat.zero_le _, rfl, by simp⟩
    · obtain ⟨hle, htake, htruncated⟩ := ih true (payload + rowBytes row)
      refine ⟨Nat.succ_le_succ hle, ?_, ?_⟩
      · rw [List.length_cons, List.take_succ_cons, ← htake]
      · rw [List.length_cons, List.length_cons, htruncated, Nat.succ_lt_succ_iff]

/-- The first row is always kept. -/
theorem boundRows_pos (h : rows ≠ []) : 0 < (boundRows rowBytes budget false 0 rows).1.length := by
  cases rows with
  | nil => exact absurd rfl h
  | cons row rows =>
    simp only [boundRows, Bool.false_eq_true, false_and, if_false, List.length_cons]
    exact Nat.succ_pos _

end Bound

namespace ScheduledQueue

variable (queue : ScheduledQueue) (request : QueueRequest) (dialogId : Option ℤ)
  (direction : HistoryDirection)

variable {row last : QueueRow}

/-- The number of rows on a page of a list. -/
def pageLength (rows : List QueueRow) : ℕ :=
  (queue.boundScheduledQueueRows (rows.take request.limit)).1.length

theorem pageLength_le (rows : List QueueRow) : queue.pageLength request rows ≤ rows.length :=
  (boundRows_spec queue.rowBytes queue.responseBudget false 0 (rows.take request.limit)).1.trans
    (List.length_take_le' ..)

theorem pageLength_pos (hlimit : 1 ≤ request.limit) (h : rows ≠ []) :
    0 < queue.pageLength request rows := by
  refine boundRows_pos queue.rowBytes queue.responseBudget ?_
  rw [Ne, List.take_eq_nil_iff, not_or]
  exact ⟨Nat.one_le_iff_ne_zero.mp hlimit, h⟩

/-- A page keeps the first rows of the list. -/
theorem boundScheduledQueueRows_eq (rows : List QueueRow) :
    (queue.boundScheduledQueueRows (rows.take request.limit)).1 =
      rows.take (queue.pageLength request rows) := by
  obtain ⟨hle, htake, -⟩ := boundRows_spec queue.rowBytes
    queue.responseBudget false 0 (rows.take request.limit)
  rw [List.take_take, Nat.min_eq_left (hle.trans (List.length_take_le ..))] at htake
  exact htake

/-- The last row that a page looks at is the last one that it shows. -/
theorem last_eq (rows : List QueueRow) :
    (if (queue.boundScheduledQueueRows (rows.take request.limit)).2 then
      (rows.take request.limit).take
        (queue.boundScheduledQueueRows (rows.take request.limit)).1.length
    else rows.take request.limit) = rows.take (queue.pageLength request rows) := by
  obtain ⟨hle, htake, htruncated⟩ := boundRows_spec queue.rowBytes
    queue.responseBudget false 0 (rows.take request.limit)
  rw [← boundScheduledQueueRows_eq]
  split_ifs with hcut
  · exact htake.symm
  · have hall : (queue.boundScheduledQueueRows (rows.take request.limit)).1.length =
        (rows.take request.limit).length :=
      le_antisymm hle (not_lt.mp fun hlt => hcut (htruncated.mpr hlt))
    have hsame := htake
    rw [show (boundRows queue.rowBytes queue.responseBudget false 0
      (rows.take request.limit)).1.length = (rows.take request.limit).length from hall,
      List.take_length] at hsame
    exact hsame.symm

/-- A page says that there is more exactly when it does not show the whole list. -/
theorem hasMore_iff (rows : List QueueRow) :
    (decide (request.limit < (rows.take (request.limit + 1)).length) ||
        (queue.boundScheduledQueueRows (rows.take request.limit)).2) = true ↔
      queue.pageLength request rows < rows.length := by
  obtain ⟨hle, -, htruncated⟩ := boundRows_spec queue.rowBytes
    queue.responseBudget false 0 (rows.take request.limit)
  have hlength : queue.pageLength request rows ≤ (rows.take request.limit).length := hle
  have hcut : (queue.boundScheduledQueueRows (rows.take request.limit)).2 = true ↔
      queue.pageLength request rows < (rows.take request.limit).length := htruncated
  rw [Bool.or_eq_true, hcut, decide_eq_true_eq]
  rw [List.length_take] at hlength ⊢
  rw [List.length_take]
  omega

/-- The page of the rows that the query selects is their answer. -/
theorem shapePage_answer (rows : List QueueRow) :
    (queue.shapePage request dialogId direction (rows.take (request.limit + 1))).map
        (fun page => (page.traversed, page.nextNavigation)) =
      answer (queue.pageLength request)
        (queue.scheduledQueueNextNavigation request dialogId direction) rows := by
  have hselected : (rows.take (request.limit + 1)).take request.limit = rows.take request.limit := by
    rw [List.take_take, Nat.min_eq_left (Nat.le_succ _)]
  have hmore := queue.hasMore_iff request rows
  have htraversed : ∀ more truncated hidden next,
      (QueuePage.traversed
        { messages :=
            if direction = .oldest then (queue.boundScheduledQueueRows (rows.take request.limit)).1
            else (queue.boundScheduledQueueRows (rows.take request.limit)).1.reverse
          nextNavigation := next
          direction, hasMore := more, isTruncated := truncated, hiddenCount := hidden }) =
        rows.take (queue.pageLength request rows) := by
    intro more truncated hidden next
    rw [← boundScheduledQueueRows_eq]
    cases direction
    · exact List.reverse_reverse _
    · rfl
  simp only [shapePage, hselected, last_eq, answer]
  cases hlast : (rows.take (queue.pageLength request rows)).getLast? with
  | none =>
    simp only [bind, Except.bind, pure, Except.pure, Except.map, htraversed]
  | some last =>
    by_cases hcut : queue.pageLength request rows < rows.length
    · simp only [hmore.mpr hcut, if_true, if_pos hcut]
      cases queue.scheduledQueueNextNavigation request dialogId direction last with
      | error reason => rfl
      | ok next => simp only [bind, Except.bind, pure, Except.pure, Except.map, htraversed]
    · have hnot := Bool.eq_false_iff.mpr fun htrue => hcut (hmore.mp htrue)
      simp only [hnot, Bool.false_eq_true, if_false, if_neg hcut]
      simp only [bind, Except.bind, pure, Except.pure, Except.map, htraversed]

/-! ## All pages -/

/-- The condition of the filters. -/
def filterCondition (tests : List QueueTest) : SqlCondition QueueTest :=
  (tests.map SqlCondition.atom).foldl .and (.atom .pending)

/-- The `WHERE` clause without an anchor reads as the filters. -/
theorem parse_queueWhere_none :
    parse (queueWhere request dialogId direction none) =
      some (filterCondition (filterTests request dialogId)) := by
  rw [queueWhere, Option.map_none, Option.toList_none, List.append_nil, filterClauses_eq]
  exact parse_joinAnd (.atom _) (reads_atoms _)

/-- With an anchor it reads as the filters and the condition of the anchor. -/
theorem parse_queueWhere_some (token : ScheduledQueueNavigationToken) :
    parse (queueWhere request dialogId direction (some token)) =
      some ((filterCondition (filterTests request dialogId)).and
        (anchorCondition direction token.timeBucket token.scheduledAt token.anchorDialogId
          token.messageId)) := by
  rw [queueWhere, Option.map_some, Option.toList_some, filterClauses_eq]
  have hanchor := reads_anchorClause direction token.timeBucket token.scheduledAt
    token.anchorDialogId token.messageId
  rw [parse_joinAnd (.atom _) (List.rel_append (reads_atoms _) (.cons hanchor .nil)),
    List.foldl_append]
  rfl

theorem holds_filters {like : String → String → Bool} :
    (filterCondition (filterTests request dialogId)).Holds (QueueTest.value like row) ↔
      QueueRow.selected like request dialogId row = true := by
  rw [filterCondition, SqlCondition.holds_foldl_and, selected_iff, List.forall_mem_map]
  rfl

/-- The anchor clause of a row, as a test of another row. -/
def admits (last row : QueueRow) : Bool := last.Admits direction row

theorem keys_nodup : (queue.rows.entries.map Sigma.fst).Nodup := queue.rows.nodupKeys

/-- The rows that a condition selects, named by a test. -/
theorem execute_of_parse {anchor : Option ScheduledQueueNavigationToken}
    {condition : SqlCondition QueueTest} {p : QueueRow → Bool}
    (hparse : parse (queueWhere request dialogId direction anchor) = some condition)
    (hp : ∀ row, condition.Holds (QueueTest.value queue.like row) ↔ p row = true) (limit : ℕ) :
    queue.execute request dialogId direction limit anchor =
      .ok (((queue.rows.entries.filter p).mergeSort (queueOrder direction)).take limit) := by
  have hfilter : (queue.rows.entries.filter fun row =>
      decide (condition.Holds (QueueTest.value queue.like row))) = queue.rows.entries.filter p :=
    List.filter_congr fun row _ => by rw [Bool.eq_iff_iff, decide_eq_true_iff, hp]
  simp only [execute, hparse, hfilter]

/-- Without an anchor the statement selects the first matching rows. -/
theorem execute_none (limit : ℕ) :
    queue.execute request dialogId direction limit none =
      .ok ((queue.matchingRows request dialogId direction).take limit) :=
  queue.execute_of_parse request dialogId direction (parse_queueWhere_none ..)
    (fun _ => holds_filters ..) limit

/-- With the anchor of a row it selects the first matching rows that the anchor admits. -/
theorem execute_some (limit : ℕ) (last : QueueRow) :
    queue.execute request dialogId direction limit
        (some (queue.nextToken request dialogId direction last)) =
      .ok (((queue.matchingRows request dialogId direction).filter (admits direction last)).take
        limit) := by
  have hp : ∀ row, ((filterCondition (filterTests request dialogId)).and
      (anchorCondition direction (if last.scheduledAt = none then 0 else 1) last.scheduledAt
        last.dialogId last.messageId)).Holds (QueueTest.value queue.like row) ↔
      (admits direction last row && QueueRow.selected queue.like request dialogId row) = true := by
    intro row
    rw [SqlCondition.holds_and, holds_filters, anchorCondition_holds, Bool.and_eq_true, admits,
      decide_eq_true_iff, and_comm]
  rw [queue.execute_of_parse request dialogId direction (parse_queueWhere_some ..) hp limit,
    matchingRows, ← filter_mergeSort direction, List.filter_filter]
  exact queue.keys_nodup.sublist (List.filter_sublist.map _)

/-- The token of a row is accepted again. -/
theorem bind_nextToken
    (hvalid : (queue.nextToken request dialogId direction last).validate = .ok ()) :
    queue.bindScheduledQueueNavigation request dialogId direction
        (some (queue.nextToken request dialogId direction last)) =
      .ok (some (queue.nextToken request dialogId direction last), direction) := by
  have hrefuse : ¬ ((queue.nextToken request dialogId direction last).accountId ≠ queue.accountId ∨
      (queue.nextToken request dialogId direction last).readScope ≠ readScope dialogId ∨
      (queue.nextToken request dialogId direction last).dialogId ≠ dialogId ∨
      (queue.nextToken request dialogId direction last).filterFingerprint ≠
        queue.fingerprint request) := by
    simp [nextToken]
  simp only [bindScheduledQueueNavigation, hvalid, refuseIf, if_neg hrefuse, bind, Except.bind,
    pure, Except.pure]
  rfl

theorem nextNavigation_ok {token : ScheduledQueueNavigationToken}
    (h : queue.scheduledQueueNextNavigation request dialogId direction last = .ok token) :
    token = queue.nextToken request dialogId direction last ∧ token.validate = .ok () := by
  rw [scheduledQueueNextNavigation] at h
  cases hvalid : (queue.nextToken request dialogId direction last).validate with
  | error reason =>
    simp only [hvalid, Except.map] at h
    cases h
  | ok _ =>
    simp only [hvalid, Except.map] at h
    obtain rfl := Except.ok.inj h
    exact ⟨rfl, hvalid⟩

/-- The matching rows come one before the other. -/
theorem matchingRows_pairwise :
    (queue.matchingRows request dialogId direction).Pairwise (QueueRow.Before direction) := by
  have hsorted := List.pairwise_mergeSort (queueOrder_trans direction)
    (queueOrder_total direction)
    (queue.rows.entries.filter (QueueRow.selected queue.like request dialogId))
  have hkeys : ((queue.matchingRows request dialogId direction).map Sigma.fst).Nodup := by
    refine ((List.mergeSort_perm _ _).map Sigma.fst).nodup_iff.mpr ?_
    exact queue.keys_nodup.sublist (List.filter_sublist.map _)
  exact (hsorted.and (List.pairwise_map.mp hkeys)).imp fun h =>
    before_of_queueOrder direction h.1 h.2

/-- The pages of an available queue are a paged list. -/
theorem pagedList (havailable : queue.available = true) (hlimit : 1 ≤ request.limit) :
    PagedList (queue.matchingRows request dialogId direction) (queue.pageLength request)
      (queue.scheduledQueueNextNavigation request dialogId direction) (admits direction)
      (queue.page request dialogId direction) where
  nodup := by
    have hnodup : (queue.rows.entries.map Sigma.fst).Nodup := queue.keys_nodup
    exact (List.mergeSort_perm _ _).nodup_iff.mpr (hnodup.of_map.filter _)
  cut_le := queue.pageLength_le request
  cut_pos rows h := queue.pageLength_pos request hlimit h
  first := by
    rw [page, listScheduledQueue]
    simp only [bindScheduledQueueNavigation, readScheduledQueueRows, havailable, if_true,
      execute_none, bind, Except.bind]
    exact queue.shapePage_answer request dialogId direction _
  next last _ token htoken := by
    obtain ⟨rfl, hvalid⟩ := queue.nextNavigation_ok request dialogId direction htoken
    rw [page, listScheduledQueue, bind_nextToken queue request dialogId direction hvalid]
    simp only [readScheduledQueueRows, havailable, if_true, execute_some, bind, Except.bind]
    exact queue.shapePage_answer request dialogId direction _
  complete := (queue.matchingRows_pairwise request dialogId direction).imp fun h =>
    decide_eq_true (Or.inl h)

/-- An unavailable queue answers one empty page. -/
theorem visits_of_unavailable (havailable : queue.available = false) :
    Visits (queue.page request dialogId direction) (queue.matchingRows request dialogId direction) ↔
      queue.matchingRows request dialogId direction = [] := by
  have hpage : queue.page request dialogId direction none = .ok ([], none) := by
    rw [page, listScheduledQueue]
    simp only [bindScheduledQueueNavigation, readScheduledQueueRows, havailable,
      Bool.false_eq_true, if_false, bind, Except.bind]
    have hanswer := queue.shapePage_answer request dialogId direction []
    rwa [List.take_nil, answer_of_not_lt (Nat.not_lt_zero _)] at hanswer
  constructor
  · rintro ⟨fuel, hfuel⟩
    cases fuel with
    | zero => exact absurd hfuel (Option.some_ne_none _).symm
    | succ fuel =>
      rw [follow, hpage] at hfuel
      exact (Option.some.inj hfuel).symm
  · intro hnil
    refine ⟨1, ?_⟩
    rw [follow, hpage, hnil]

/-- Of a row before the anchor row, the anchor clause is true only through its second part. -/
theorem admits_eq_false (h : row = last ∨ row.Before direction last) :
    admits direction last row = false ↔ ¬ (row.dialogId = last.dialogId ∧
      row.scheduledAt ≠ none ∧ last.scheduledAt ≠ none ∧ last.Beyond direction row) := by
  have hbefore : ¬ last.Before direction row := by
    rcases h with rfl | h
    · cases direction <;> exact lt_irrefl _
    · exact not_before_of_before direction h
  rw [admits, decide_eq_false_iff_not, QueueRow.Admits, or_iff_right hbefore]
  exact not_congr ⟨fun h => ⟨h.2.2.1, h.2.1, h.1, h.2.2.2⟩, fun h => ⟨h.2.2.1, h.2.1, h.1, h.2.2.2⟩⟩

theorem not_beyond_self (row : QueueRow) : ¬ row.Beyond direction row := by
  cases direction <;> exact lt_irrefl _

/-- The rows behind a page come before its last row. -/
theorem before_last {earlier rest : List QueueRow}
    (h : earlier ++ [last] ++ rest = queue.matchingRows request dialogId direction)
    (hrow : row ∈ earlier) : row.Before direction last := by
  have hpairs := queue.matchingRows_pairwise request dialogId direction
  rw [← h, List.append_assoc, List.pairwise_append] at hpairs
  exact hpairs.2.2 row hrow last (List.mem_append_left _ (List.mem_singleton_self _))

/-- The token of a row is granted when its check passes. -/
theorem nextNavigation_ok_iff :
    (∃ token, queue.scheduledQueueNextNavigation request dialogId direction last = .ok token) ↔
      (queue.nextToken request dialogId direction last).validate = .ok () := by
  constructor
  · rintro ⟨token, htoken⟩
    obtain ⟨rfl, hvalid⟩ := queue.nextNavigation_ok request dialogId direction htoken
    exact hvalid
  · intro hvalid
    refine ⟨queue.nextToken request dialogId direction last, ?_⟩
    simp only [scheduledQueueNextNavigation, hvalid, Except.map]

/-- Following the listing visits every matching row exactly once, in the order of the query, if and
only if the queue is available or has no matching row, and at the end of every page but the last one
the token of its last row is valid and no earlier dated row of the same dialog has a message id
beyond the one of that row, if it is dated.  The anchor clause of a row admits another row that is
not after it in just that case. -/
theorem queue_visited_once_iff (hlimit : 1 ≤ request.limit) :
    (Visits (queue.page request dialogId direction)
        (queue.matchingRows request dialogId direction) ↔
      (queue.available = true ∨ queue.matchingRows request dialogId direction = []) ∧
      ∀ earlier last rest,
        PageStart (queue.pageLength request) (queue.matchingRows request dialogId direction)
          (earlier ++ [last]) rest →
        (queue.nextToken request dialogId direction last).validate = .ok () ∧
        ∀ row ∈ earlier, ¬ (row.dialogId = last.dialogId ∧ row.scheduledAt ≠ none ∧
          last.scheduledAt ≠ none ∧ last.Beyond direction row)) ∧
    ∀ last row : QueueRow, ∃ condition,
      parse (scheduledGlobalAnchorClause direction (if last.scheduledAt = none then 0 else 1)
        last.scheduledAt last.dialogId last.messageId) = some condition ∧
      ((condition.Holds (QueueTest.value queue.like row) ↔ last.Before direction row) ↔
        ¬ (¬ last.Before direction row ∧ row.dialogId = last.dialogId ∧ row.scheduledAt ≠ none ∧
          last.scheduledAt ≠ none ∧ last.Beyond direction row)) := by
  refine ⟨?_, fun last row => ⟨_, Reads.parse_eq (reads_anchorClause direction _ _ _ _), ?_⟩⟩
  · cases havailable : queue.available with
    | false =>
      rw [queue.visits_of_unavailable request dialogId direction havailable]
      constructor
      · intro hnil
        refine ⟨Or.inr hnil, fun earlier last rest hstart => ?_⟩
        have hsplit := hstart.split
        rw [hnil] at hsplit
        simp at hsplit
      · rintro ⟨havailable' | hnil, -⟩
        · exact absurd havailable' Bool.false_ne_true
        · exact hnil
    | true =>
      rw [(queue.pagedList request dialogId direction havailable hlimit).visits_iff]
      have hend : ∀ earlier last rest,
          PageStart (queue.pageLength request) (queue.matchingRows request dialogId direction)
            (earlier ++ [last]) rest →
          ((∀ row ∈ earlier ++ [last], admits direction last row = false) ↔
            ∀ row ∈ earlier, ¬ (row.dialogId = last.dialogId ∧ row.scheduledAt ≠ none ∧
              last.scheduledAt ≠ none ∧ last.Beyond direction row)) := by
        intro earlier last rest hstart
        rw [List.forall_mem_append, List.forall_mem_singleton]
        have hself : admits direction last last = false :=
          (admits_eq_false direction (Or.inl rfl)).mpr fun h => not_beyond_self direction last
            h.2.2.2
        rw [and_iff_left hself]
        refine forall₂_congr fun row hrow => admits_eq_false direction (Or.inr ?_)
        exact queue.before_last request dialogId direction hstart.split hrow
      constructor
      · intro h
        refine ⟨Or.inl rfl, fun earlier last rest hstart => ?_⟩
        obtain ⟨htoken, hadmits⟩ := h earlier last rest hstart
        exact ⟨(queue.nextNavigation_ok_iff request dialogId direction).mp htoken,
          (hend earlier last rest hstart).mp hadmits⟩
      · rintro ⟨-, h⟩ earlier last rest hstart
        obtain ⟨hvalid, hclean⟩ := h earlier last rest hstart
        exact ⟨(queue.nextNavigation_ok_iff request dialogId direction).mpr hvalid,
          (hend earlier last rest hstart).mpr hclean⟩
  · rw [anchorCondition_holds, QueueRow.Admits]
    tauto

/-! ## Samples -/

/-- A queue of dialog 1 with the given message ids and times. -/
def dialogQueue (rows : List (ℤ × ℤ)) : ScheduledQueue where
  rows := rows.foldr (fun row rows =>
    rows.insert (1, row.1)
      { body := some { scheduledAt := some row.2 }, messageState := .scheduled
        firstSeenAt := 0, updatedAt := 0 }) ∅
  available := true
  accountId := 9
  fingerprint _ := "f"
  rowBytes _ := 0
  responseBudget := 1000
  like _ _ := false

/-- Two messages whose ids and times grow together. -/
abbrev growingQueue : ScheduledQueue := dialogQueue [(5, 10), (7, 20)]

/-- Three messages whose ids fall as their times grow. -/
abbrev fallingQueue : ScheduledQueue := dialogQueue [(7, 5), (5, 10), (1, 20)]

/-- One row a page. -/
abbrev singleRequest : QueueRequest := { limit := 1 }

theorem matchingRows_of_sorted
    (h : (queue.rows.entries.filter (QueueRow.selected queue.like request dialogId)).Pairwise
      fun row row' => queueOrder direction row row' = true) :
    queue.matchingRows request dialogId direction =
      queue.rows.entries.filter (QueueRow.selected queue.like request dialogId) :=
  List.mergeSort_of_pairwise h

theorem growing_rows : growingQueue.matchingRows singleRequest none .oldest =
    growingQueue.rows.entries :=
  (matchingRows_of_sorted _ _ _ _ (by decide +kernel)).trans
    (List.filter_eq_self.mpr (by decide +kernel))

theorem falling_rows : fallingQueue.matchingRows singleRequest none .oldest =
    fallingQueue.rows.entries :=
  (matchingRows_of_sorted _ _ _ _ (by decide +kernel)).trans
    (List.filter_eq_self.mpr (by decide +kernel))

theorem queue_visited_once_sample :
    Visits (growingQueue.page singleRequest none .oldest)
      (growingQueue.matchingRows singleRequest none .oldest) := by
  refine (queue_visited_once_iff growingQueue singleRequest none .oldest le_rfl).1.mpr
    ⟨Or.inl rfl, ?_⟩
  rw [growing_rows]
  have hstarts : ∀ done rest, PageStart (growingQueue.pageLength singleRequest)
      growingQueue.rows.entries done rest →
      (done, rest) = ([], growingQueue.rows.entries) ∨
        (done, rest) = (growingQueue.rows.entries.take 1, growingQueue.rows.entries.drop 1) := by
    intro done rest hstart
    induction hstart with
    | first => exact Or.inl rfl
    | next hstart hmore ih =>
      rcases ih with ih | ih
      · obtain ⟨rfl, rfl⟩ := Prod.mk.inj ih
        exact Or.inr rfl
      · obtain ⟨rfl, rfl⟩ := Prod.mk.inj ih
        exact absurd hmore (by decide +kernel)
  intro earlier last rest hstart
  rcases hstarts _ _ hstart with h | h
  · exact absurd (Prod.mk.inj h).1
      (List.append_ne_nil_of_right_ne_nil _ (List.cons_ne_nil _ _))
  · have hsplit : earlier ++ [last] = [] ++ growingQueue.rows.entries.take 1 :=
      (Prod.mk.inj h).1
    obtain ⟨rfl, hlast⟩ := List.append_inj' hsplit rfl
    obtain rfl := (List.cons.inj hlast).1
    exact ⟨by decide +kernel, fun _ hmem => absurd hmem List.not_mem_nil⟩

/-- The third request of the falling queue answers its first row again. -/
theorem falling_queue_not_visited :
    ¬ Visits (fallingQueue.page singleRequest none .oldest)
      (fallingQueue.matchingRows singleRequest none .oldest) := by
  intro hvisits
  have hpaged := fallingQueue.pagedList singleRequest none .oldest rfl le_rfl
  rw [falling_rows] at hpaged hvisits
  have hfirst : PageStart (fallingQueue.pageLength singleRequest) fallingQueue.rows.entries
      (fallingQueue.rows.entries.take 1) (fallingQueue.rows.entries.drop 1) :=
    PageStart.first.next (by decide +kernel)
  have hsecond : PageStart (fallingQueue.pageLength singleRequest) fallingQueue.rows.entries
      (fallingQueue.rows.entries.take 2) (fallingQueue.rows.entries.drop 2) :=
    hfirst.next (by decide +kernel)
  obtain ⟨front, last, hsplit⟩ : ∃ front last,
      fallingQueue.rows.entries.take 2 = front ++ [last] := ⟨[_], _, rfl⟩
  have hbehind := ((hpaged.follows_from hvisits hsecond).2 front last hsplit).2
  have hall : ∀ row ∈ fallingQueue.rows.entries.take 2,
      admits .oldest ((fallingQueue.rows.entries.take 2).getLast (by decide)) row = false := by
    have hlast : (fallingQueue.rows.entries.take 2).getLast (by decide) = last := by
      simp only [hsplit, List.getLast_append_singleton]
    rw [hlast]
    exact hbehind
  exact absurd hall (by decide +kernel)

end ScheduledQueue

end McpTelegram
