import McpTelegram.Foundations.CentredWindow

/-!
# The context window of a message

`_list_messages_context_window` of `reading/service.py`: the retained messages around an anchor.
The first query reads backwards from the anchor, the second one forwards, and the slices of their
rows are the window.  The joins of `_LIST_MESSAGES_BASE_SQL` go to primary keys, so a message is one
row of the result; the columns that neither the conditions nor the order read are one value.
-/

namespace McpTelegram

open Foundations

variable {anchorMessageId : ℤ} {contextSize : ℕ}

/-! ## The messages -/

/-- A row of `messages`. -/
structure RetainedMessage (α : Type*) where
  dialogId : ℤ
  messageId : ℤ
  sentAt : ℤ
  isDeleted : ℤ
  /-- The other columns that the result has. -/
  columns : α
  deriving DecidableEq

namespace RetainedMessage

variable {α : Type*} (message : RetainedMessage α)

/-- The primary key. -/
def key : ℤ × ℤ := (message.dialogId, message.messageId)

/-- The columns of `ORDER BY m.sent_at, m.message_id`. -/
def position : ℤ ×ₗ ℤ := toLex (message.sentAt, message.messageId)

/-- `m.dialog_id = :dialog_id AND m.is_deleted = 0`. -/
def visible (dialogId : ℤ) : Bool := message.dialogId = dialogId ∧ message.isDeleted = 0

/-- `:since_utc IS NULL OR m.sent_at >= :since_utc`. -/
def sinceBound (sinceUtc : Option ℤ) : Bool := sinceUtc.all (· ≤ message.sentAt)

/-- `:until_utc IS NULL OR m.sent_at < :until_utc`. -/
def untilBound (untilUtc : Option ℤ) : Bool := untilUtc.all (message.sentAt < ·)

/-- Both bounds. -/
def inBounds (sinceUtc untilUtc : Option ℤ) : Bool :=
  message.sinceBound sinceUtc && message.untilBound untilUtc

end RetainedMessage

/-- The table `messages`. -/
structure RetainedStore (α : Type*) where
  messages : List (RetainedMessage α)
  /-- The primary key. -/
  keys : (messages.map RetainedMessage.key).Nodup

/-- The answer without a window; the other fields of it are constants. -/
structure LocalContextUnavailable where
  error : String := "local_context_unavailable"
  message : String :=
    "The requested anchor is unavailable in the retained local selection."
  contextAvailability : String
  requiredAction : String :=
    "Choose a retained, non-deleted anchor within the UTC bounds, " ++
      "or mark the dialog for sync to acquire history."
  deriving DecidableEq

/-- The slices of the two results. -/
def contextSlices {α : Type*} (contextSize : ℕ) (beforeRows afterRows : List α) : List α :=
  let beforeCount := contextSize / 2
  let afterCount := contextSize - beforeCount - 1
  let selectedBefore := beforeRows.take (beforeCount + 1)
  let selectedAfter := afterRows.take afterCount
  let remaining := contextSize - selectedBefore.length - selectedAfter.length
  let selectedAfter :=
    if 0 < remaining then selectedAfter ++ (afterRows.drop afterCount).take remaining
    else selectedAfter
  let remaining := contextSize - selectedBefore.length - selectedAfter.length
  let selectedBefore :=
    if 0 < remaining then selectedBefore ++ (beforeRows.drop (beforeCount + 1)).take remaining
    else selectedBefore
  selectedBefore.reverse ++ selectedAfter

namespace RetainedStore

variable {α : Type*} (store : RetainedStore α)

/-- `_MESSAGE_CONTEXT_ANCHOR_SQL`. -/
def readContextAnchor (dialogId messageId : ℤ) : Option (ℤ × ℤ) :=
  (store.messages.find? fun message =>
    message.dialogId = dialogId ∧ message.messageId = messageId).map fun message =>
      (message.sentAt, message.isDeleted)

/-- `_local_context_anchor`. -/
def localContextAnchor (dialogId anchorMessageId : ℤ) (sinceUtc untilUtc : Option ℤ) :
    Except LocalContextUnavailable ℤ :=
  match store.readContextAnchor dialogId anchorMessageId with
  | none => .error { contextAvailability := "anchor_missing" }
  | some (sentAt, isDeleted) =>
    if isDeleted ≠ 0 then .error { contextAvailability := "anchor_deleted" }
    else if sinceUtc.any (sentAt < ·) ∨ untilUtc.any (· ≤ sentAt) then
      .error { contextAvailability := "anchor_outside_time_range" }
    else .ok sentAt

/-- The visible messages of a dialog. -/
def visible (dialogId : ℤ) : List (RetainedMessage α) :=
  store.messages.filter (·.visible dialogId)

/-- The visible messages of a dialog within the bounds. -/
def visibleBetween (dialogId : ℤ) (sinceUtc untilUtc : Option ℤ) : List (RetainedMessage α) :=
  (store.visible dialogId).filter (·.inBounds sinceUtc untilUtc)

/-- The first query: up to the anchor, backwards. -/
def beforeRows (dialogId anchor anchorSentAt : ℤ) (sinceUtc untilUtc : Option ℤ) (limit : ℕ) :
    List (RetainedMessage α) :=
  (greatestFirst RetainedMessage.position <|
    (store.visibleBetween dialogId sinceUtc untilUtc).filter fun message =>
      message.sentAt < anchorSentAt ∨
        message.sentAt = anchorSentAt ∧ message.messageId ≤ anchor).take limit

/-- The second query: behind the anchor, forwards. -/
def afterRows (dialogId anchor anchorSentAt : ℤ) (sinceUtc untilUtc : Option ℤ) (limit : ℕ) :
    List (RetainedMessage α) :=
  (leastFirst RetainedMessage.position <|
    (store.visibleBetween dialogId sinceUtc untilUtc).filter fun message =>
      message.sentAt > anchorSentAt ∨
        message.sentAt = anchorSentAt ∧ message.messageId > anchor).take limit

/-- `_list_messages_context_window`, up to the rows. -/
def listMessagesContextWindow (dialogId anchorMessageId : ℤ) (contextSize : ℕ)
    (sinceUtc untilUtc : Option ℤ) :
    Except LocalContextUnavailable (List (RetainedMessage α)) :=
  (store.localContextAnchor dialogId anchorMessageId sinceUtc untilUtc).map fun anchorSentAt =>
    contextSlices contextSize
      (store.beforeRows dialogId anchorMessageId anchorSentAt sinceUtc untilUtc contextSize)
      (store.afterRows dialogId anchorMessageId anchorSentAt sinceUtc untilUtc contextSize)

end RetainedStore

/-! ## The slices -/

section Slices

variable {α : Type*}

theorem take_append_slice (count more : ℕ) (rows : List α) :
    rows.take count ++ (rows.drop count).take more = rows.take (count + more) := by
  rw [List.take_add]

/-- A slice after the cut is what the rows have of it. -/
theorem refill_eq (count remaining : ℕ) (rows : List α) :
    (if 0 < remaining then rows.take count ++ (rows.drop count).take remaining
      else rows.take count) = rows.take (count + remaining) := by
  split_ifs with hmore
  · exact take_append_slice count remaining rows
  · rw [Nat.eq_zero_of_not_pos hmore, Nat.add_zero]

/-- The slice ahead, filled up, is the share ahead. -/
theorem min_ahead {size half rest back front : ℕ} (hsize : half + rest = size) :
    min (min (rest + (size - min (min half size) back - min (min rest size) front)) size) front =
      min front (size - min back half) := by
  rw [min_eq_left (by omega : half ≤ size), min_eq_left (by omega : rest ≤ size)]
  rcases le_total back half with hback | hback
  · rw [min_eq_right hback, min_eq_left hback]
    omega
  · rw [min_eq_left hback, min_eq_right hback]
    omega

/-- The slice behind, filled up, is the share behind. -/
theorem min_behind {size half back ahead : ℕ} (hhalf : half ≤ size)
    (hahead : ahead ≤ size - min back half) :
    min (min (half + (size - min (min half size) back - ahead)) size) back =
      min back (size - ahead) := by
  rw [min_eq_left hhalf]
  rcases le_total back half with hback | hback
  · rw [min_eq_left hback] at hahead
    rw [min_eq_right hback]
    omega
  · rw [min_eq_right hback] at hahead
    rw [min_eq_left hback]
    omega

/-- The slices are a window of the two parts, with the shares of the size. -/
theorem contextSlices_eq {contextSize : ℕ} (hsize : 0 < contextSize) (back front : List α) :
    contextSlices contextSize (back.take contextSize) (front.take contextSize) =
      around (behindShare contextSize back.length front.length)
        (aheadShare contextSize back.length front.length) back front := by
  have hhalf : contextSize / 2 + 1 + (contextSize - contextSize / 2 - 1) = contextSize := by omega
  have hahead := @min_ahead contextSize _ _ back.length front.length hhalf
  have hbehind := @min_behind contextSize (contextSize / 2 + 1) back.length
    (aheadShare contextSize back.length front.length) (by omega) (min_le_right _ _)
  unfold contextSlices
  dsimp only
  rw [refill_eq, refill_eq]
  simp only [List.take_take, List.length_take]
  rw [hahead, around]
  refine congrArg₂ (fun behind ahead => List.reverse behind ++ ahead) ?_ ?_
  · rw [List.take_eq_take_iff]
    exact hbehind.trans (min_eq_left (min_le_left _ _)).symm
  · rw [List.take_eq_take_iff]
    exact hahead.trans (min_eq_left (min_le_left _ _)).symm

end Slices

/-! ## The window -/

namespace RetainedStore

variable {α : Type*} {store : RetainedStore α} {dialogId : ℤ} {sinceUtc untilUtc : Option ℤ}

/-- Within a dialog the positions are distinct. -/
theorem positions_nodup (store : RetainedStore α) (dialogId : ℤ) :
    ((store.visible dialogId).map RetainedMessage.position).Nodup := by
  have hkeys : ((store.visible dialogId).map RetainedMessage.key).Nodup :=
    store.keys.sublist (List.filter_sublist.map _)
  rw [List.nodup_map_iff_inj_on hkeys.of_map]
  intro message hmessage message' hmessage' hposition
  have hdialog : message.dialogId = message'.dialogId := by
    rw [visible, List.mem_filter, RetainedMessage.visible, decide_eq_true_eq] at hmessage hmessage'
    rw [hmessage.2.1, hmessage'.2.1]
  have hid : message.messageId = message'.messageId := congrArg (fun p => (ofLex p).2) hposition
  exact List.inj_on_of_nodup_map hkeys hmessage hmessage' (Prod.ext hdialog hid)

theorem positions_between_nodup (store : RetainedStore α) (dialogId : ℤ)
    (sinceUtc untilUtc : Option ℤ) :
    ((store.visibleBetween dialogId sinceUtc untilUtc).map RetainedMessage.position).Nodup :=
  (store.positions_nodup dialogId).sublist (List.filter_sublist.map _)

/-- A retained message is found by its key. -/
theorem readContextAnchor_eq {message : RetainedMessage α} (hmem : message ∈ store.messages) :
    store.readContextAnchor message.dialogId message.messageId =
      some (message.sentAt, message.isDeleted) := by
  unfold readContextAnchor
  cases hfind : store.messages.find? fun other =>
      other.dialogId = message.dialogId ∧ other.messageId = message.messageId with
  | none =>
    exact absurd (List.find?_eq_none.mp hfind message hmem) (by simp)
  | some other =>
    have hkey : other.dialogId = message.dialogId ∧ other.messageId = message.messageId := by
      simpa using List.find?_some hfind
    obtain rfl : other = message :=
      List.inj_on_of_nodup_map store.keys (List.mem_of_find?_eq_some hfind) hmem
        (Prod.ext hkey.1 hkey.2)
    rfl

theorem up_to_iff (message : RetainedMessage α) (anchor anchorSentAt : ℤ) :
    (message.sentAt < anchorSentAt ∨
        message.sentAt = anchorSentAt ∧ message.messageId ≤ anchor) ↔
      message.position ≤ toLex (anchorSentAt, anchor) := by
  rw [RetainedMessage.position, Prod.Lex.toLex_le_toLex]

/-- So does the one of the second query. -/
theorem above_iff (message : RetainedMessage α) (anchor anchorSentAt : ℤ) :
    (message.sentAt > anchorSentAt ∨
        message.sentAt = anchorSentAt ∧ message.messageId > anchor) ↔
      toLex (anchorSentAt, anchor) < message.position := by
  rw [RetainedMessage.position, Prod.Lex.toLex_lt_toLex]
  simp only [gt_iff_lt, eq_comm]

variable {anchor : RetainedMessage α}

/-- A visible anchor within the bounds is accepted. -/
theorem localContextAnchor_eq (hanchor : anchor ∈ store.visibleBetween dialogId sinceUtc untilUtc) :
    store.localContextAnchor dialogId anchor.messageId sinceUtc untilUtc = .ok anchor.sentAt := by
  rw [visibleBetween, visible, List.mem_filter, List.mem_filter] at hanchor
  obtain ⟨⟨hmem, hvisible⟩, hbounds⟩ := hanchor
  obtain ⟨rfl, hkept⟩ := of_decide_eq_true hvisible
  rw [RetainedMessage.inBounds, Bool.and_eq_true] at hbounds
  unfold localContextAnchor
  rw [readContextAnchor_eq hmem]
  dsimp only
  rw [if_neg (not_not_intro hkept), if_neg]
  rintro (hbefore | hafter)
  · obtain ⟨bound, rfl, hlt⟩ := Option.any_eq_true _ _ |>.mp hbefore
    exact absurd (of_decide_eq_true hlt) (not_lt.mpr (of_decide_eq_true hbounds.1))
  · obtain ⟨bound, rfl, hle⟩ := Option.any_eq_true _ _ |>.mp hafter
    exact absurd (of_decide_eq_true hle) (not_le.mpr (of_decide_eq_true hbounds.2))

/-- The visible messages within the bounds are a block of the visible ones. -/
theorem visibleBetween_infix (store : RetainedStore α) (dialogId : ℤ)
    (sinceUtc untilUtc : Option ℤ) :
    leastFirst RetainedMessage.position (store.visibleBetween dialogId sinceUtc untilUtc) <:+:
      leastFirst RetainedMessage.position (store.visible dialogId) := by
  have hle (message message' : RetainedMessage α) (hlt : message.position < message'.position) :
      message.sentAt ≤ message'.sentAt := by
    rcases (Prod.Lex.toLex_lt_toLex).mp hlt with hlt | hsame
    · exact hlt.le
    · exact hsame.1.le
  refine leastFirst_infix RetainedMessage.position (store.positions_nodup dialogId) ?_ ?_
  · intro message message' hlt hsince
    cases sinceUtc with
    | none => rfl
    | some bound => exact decide_eq_true ((of_decide_eq_true hsince).trans (hle _ _ hlt))
  · intro message message' hlt huntil
    cases untilUtc with
    | none => rfl
    | some bound => exact decide_eq_true ((hle _ _ hlt).trans_lt (of_decide_eq_true huntil))

/-- The two queries read the two parts of the visible messages within the bounds. -/
theorem listMessagesContextWindow_eq
    (hanchor : anchor ∈ store.visibleBetween dialogId sinceUtc untilUtc) :
    store.listMessagesContextWindow dialogId anchor.messageId contextSize sinceUtc untilUtc =
      .ok (contextSlices contextSize
        ((anchor :: greatestFirst RetainedMessage.position
          ((store.visibleBetween dialogId sinceUtc untilUtc).filter
            fun message => message.position < anchor.position)).take contextSize)
        ((leastFirst RetainedMessage.position
          ((store.visibleBetween dialogId sinceUtc untilUtc).filter
            fun message => anchor.position < message.position)).take contextSize)) := by
  rw [listMessagesContextWindow, localContextAnchor_eq hanchor,
    ← greatestFirst_upTo RetainedMessage.position
      (store.positions_between_nodup dialogId sinceUtc untilUtc) hanchor]
  refine congrArg Except.ok ?_
  unfold beforeRows afterRows
  simp only [up_to_iff, above_iff]
  rfl

/-- The context window of a visible anchor within the bounds: the messages before the anchor, the
anchor, and the messages after it.  They are a block of the visible messages of the dialog, as many
as the size asks for if there are.  A side with fewer messages than its half is there as a whole,
and between two sides with at least their halves the window is centred. -/
theorem context_window_centred (store : RetainedStore α) (dialogId : ℤ) (contextSize : ℕ)
    (sinceUtc untilUtc : Option ℤ) (anchor : RetainedMessage α) (hsize : 2 ≤ contextSize)
    (hanchor : anchor ∈ store.visibleBetween dialogId sinceUtc untilUtc) :
    let visible := store.visibleBetween dialogId sinceUtc untilUtc
    let earlier := visible.filter fun message => message.position < anchor.position
    let later := visible.filter fun message => anchor.position < message.position
    let beforeCount := contextSize / 2
    let afterCount := contextSize - beforeCount - 1
    ∃ before after : List (RetainedMessage α),
      store.listMessagesContextWindow dialogId anchor.messageId contextSize sinceUtc untilUtc =
        .ok (before ++ anchor :: after) ∧
      before ++ anchor :: after <:+:
        leastFirst RetainedMessage.position (store.visible dialogId) ∧
      anchor ∉ before ∧ anchor ∉ after ∧
      (before ++ anchor :: after).length = min contextSize visible.length ∧
      (earlier.length < beforeCount → ∀ message ∈ earlier, message ∈ before) ∧
      (later.length < afterCount → ∀ message ∈ later, message ∈ after) ∧
      (beforeCount ≤ earlier.length → afterCount ≤ later.length →
        before.length = beforeCount ∧ after.length = afterCount) := by
  intro visible earlier later beforeCount afterCount
  have hkeys := store.positions_between_nodup dialogId sinceUtc untilUtc
  set back := greatestFirst RetainedMessage.position earlier with hback
  set front := leastFirst RetainedMessage.position later with hfront
  have hbackMem (message : RetainedMessage α) : message ∈ back ↔ message ∈ earlier :=
    (greatestFirst_perm _ _).mem_iff
  have hfrontMem (message : RetainedMessage α) : message ∈ front ↔ message ∈ later :=
    (leastFirst_perm _ _).mem_iff
  have hbackLength : back.length = earlier.length := (greatestFirst_perm _ _).length_eq
  have hfrontLength : front.length = later.length := (leastFirst_perm _ _).length_eq
  obtain ⟨behind, hbehind⟩ : ∃ behind,
      behindShare contextSize (anchor :: back).length front.length = behind + 1 :=
    Nat.exists_eq_succ_of_ne_zero
      (behindShare_pos (by omega) (Nat.succ_pos _)).ne'
  have hblock : (anchor :: back).reverse ++ front =
      leastFirst RetainedMessage.position visible := by
    rw [hback, ← greatestFirst_upTo RetainedMessage.position hkeys hanchor]
    exact leastFirst_split RetainedMessage.position hkeys anchor.position
  have hwindow := @contextSlices_eq _ contextSize (by omega) (anchor :: back) front
  have hall : (anchor :: back).length + front.length = visible.length := by
    have hlength := congrArg List.length hblock
    rwa [List.length_append, List.length_reverse,
      (leastFirst_perm RetainedMessage.position visible).length_eq] at hlength
  have hshares := shares_add contextSize (anchor :: back).length front.length
  have hbehindLe : behindShare contextSize (anchor :: back).length front.length ≤
      (anchor :: back).length := min_le_left _ _
  have haheadLe : aheadShare contextSize (anchor :: back).length front.length ≤ front.length :=
    min_le_left _ _
  rw [hbehind, around_cons] at hwindow
  refine ⟨(back.take behind).reverse,
    front.take (aheadShare contextSize (anchor :: back).length front.length),
    ?_, ?_, ?_, ?_, ?_, ?_, ?_, ?_⟩
  · rw [listMessagesContextWindow_eq hanchor]
    exact congrArg Except.ok hwindow
  · rw [← around_cons]
    refine List.IsInfix.trans around_infix ?_
    rw [hblock]
    exact store.visibleBetween_infix dialogId sinceUtc untilUtc
  · intro hmem
    have hearlier := (hbackMem anchor).mp (List.mem_of_mem_take (List.mem_reverse.mp hmem))
    exact lt_irrefl _ (of_decide_eq_true (List.mem_filter.mp hearlier).2)
  · intro hmem
    have hlater := (hfrontMem anchor).mp (List.mem_of_mem_take hmem)
    exact lt_irrefl _ (of_decide_eq_true (List.mem_filter.mp hlater).2)
  · rw [← around_cons, around_length, ← hbehind, min_eq_left hbehindLe, min_eq_left haheadLe,
      hshares, hall]
  · intro hshort message hmessage
    have hwhole := @behindShare_of_lt contextSize (anchor :: back).length front.length (by
      rw [List.length_cons, hbackLength]
      exact Nat.succ_lt_succ hshort)
    have htake : back.take behind = back := List.take_of_length_le (by
      rw [hbehind, List.length_cons] at hwhole
      omega)
    rw [htake, List.mem_reverse]
    exact (hbackMem message).mpr hmessage
  · intro hshort message hmessage
    rw [aheadShare_of_lt (by rw [hfrontLength]; exact hshort), List.take_length]
    exact (hfrontMem message).mpr hmessage
  · intro hearlier hlater
    obtain ⟨hhalf, hrest⟩ := @shares_of_le contextSize (anchor :: back).length front.length
      (by omega) (by
        rw [List.length_cons, hbackLength]
        exact Nat.succ_le_succ hearlier) (by
        rw [hfrontLength]
        exact hlater)
    rw [List.length_reverse, List.length_take, List.length_take, hrest, hbackLength, hfrontLength]
    rw [hbehind] at hhalf
    exact ⟨by rw [Nat.succ.inj hhalf]; exact min_eq_left hearlier, min_eq_left hlater⟩

/-- Five messages of one dialog, two of them at the same time and one deleted. -/
def sampleStore : RetainedStore Unit where
  messages := [⟨7, 1, 10, 0, ()⟩, ⟨7, 2, 20, 0, ()⟩, ⟨7, 3, 20, 0, ()⟩, ⟨7, 4, 30, 1, ()⟩,
    ⟨7, 5, 40, 0, ()⟩]
  keys := by decide

/-- The window of the third one. -/
theorem context_window_centred_sample : ∃ before after : List (RetainedMessage Unit),
    sampleStore.listMessagesContextWindow 7 3 4 (some 15) none =
      .ok (before ++ ⟨7, 3, 20, 0, ()⟩ :: after) ∧
    (before ++ ⟨7, 3, 20, 0, ()⟩ :: after).length =
      min 4 (sampleStore.visibleBetween 7 (some 15) none).length := by
  obtain ⟨before, after, hrows, -, -, -, hlength, -⟩ :=
    context_window_centred sampleStore 7 4 (some 15) none ⟨7, 3, 20, 0, ()⟩ (by decide) (by decide)
  exact ⟨before, after, hrows, hlength⟩

end RetainedStore

end McpTelegram
