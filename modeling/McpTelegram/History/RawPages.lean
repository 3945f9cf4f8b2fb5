import Mathlib.Data.List.DropRight
import McpTelegram.Foundations.CentredWindow
import McpTelegram.History.Row

/-!
# History pages from raw responses

The two adapters of `message_history/telegram_adapter.py` turn a response of Telegram into a page.
A response holds messages and the placeholders of deleted messages.  The backward adapter moves on
by the least id of either kind, the forward adapter by its messages alone, and it takes a response
of placeholders for the end of the history.
-/

namespace McpTelegram

open Foundations

/-! ## Responses -/

/-- An item of a response; the row is what `extract_message_row` makes of a message, and a
`MessageEmpty` has none. -/
structure HistoryItem (Row : Type) where
  id : ℤ
  row : Option Row
  deriving DecidableEq

/-- A message of a page. -/
structure PageMessage (Row : Type) where
  messageId : ℤ
  row : Row
  deriving DecidableEq

/-- The types of `messages.Messages`. -/
inductive HistoryResponseType where
  | messages | messagesSlice | channelMessages | messagesNotModified
  deriving DecidableEq

/-- A response; `count` is absent from `messages.Messages`. -/
structure HistoryResponse (Row : Type) where
  type : HistoryResponseType
  messages : List (HistoryItem Row)
  count : Option ℤ := none

/-- `GetHistoryRequest`. -/
structure GetHistoryRequest where
  offsetId : ℤ
  addOffset : ℤ
  limit : ℕ
  maxId : ℤ := 0
  minId : ℤ := 0
  hash : ℤ := 0
  deriving DecidableEq

section Items

variable {Row : Type}

/-- `_positive_id`. -/
def HistoryItem.positiveId (item : HistoryItem Row) : Option ℤ :=
  if 0 < item.id then some item.id else none

/-- `_positive_id(item) or 0`. -/
def HistoryItem.sortId (item : HistoryItem Row) : ℤ := item.positiveId.getD 0

/-- The message of an item that is not a placeholder. -/
def HistoryItem.message? (item : HistoryItem Row) : Option (PageMessage Row) :=
  item.row.map fun row => ⟨item.id, row⟩

/-- The messages among the items. -/
def pageMessages (items : List (HistoryItem Row)) : List (PageMessage Row) :=
  items.filterMap HistoryItem.message?

/-! ## The backward adapter -/

/-- `FullHistoryPage`. -/
structure FullHistoryPage (Row : Type) where
  messages : List (PageMessage Row)
  totalMessages : Option ℤ
  nextBeforeMessageId : Option ℤ
  deriving DecidableEq

/-- `FullHistoryPage.__post_init__`. -/
def FullHistoryPage.postInit (page : FullHistoryPage Row) : Except String (FullHistoryPage Row) :=
  if messageHistoryPageSize < page.messages.length then
    .error "full history pages must contain at most 100 messages"
  else if page.totalMessages.any (· < 0) then
    .error "total_messages must be a non-negative integer or None"
  else if page.messages ≠ [] ∧ page.nextBeforeMessageId = none then
    .error "non-empty full history pages require a next cursor"
  else if page.nextBeforeMessageId.any (· ≤ 0) then
    .error "next_before_message_id must be a positive integer or None"
  else .ok page

/-- `_history_cursor`. -/
def historyCursor (rawMessages : List (HistoryItem Row)) : Except String (Option ℤ) :=
  let cursor := (rawMessages.filterMap HistoryItem.positiveId).min?
  if rawMessages ≠ [] ∧ cursor = none then
    .error "Telegram history page has no usable message IDs"
  else .ok cursor

/-- `_optional_nonnegative_int`. -/
def optionalNonnegativeInt (value : ℤ) : Option ℤ := if value < 0 then none else some value

/-- `total_messages` of a backward page. -/
def HistoryResponse.total (response : HistoryResponse Row) : Option ℤ :=
  match response.count with
  | none => some response.messages.length
  | some count => optionalNonnegativeInt count

/-- `TelethonFullHistoryPageAdapter.fetch_page` after the response. -/
def fullHistoryPage (response : HistoryResponse Row) : Except String (FullHistoryPage Row) := do
  let next ← historyCursor response.messages
  FullHistoryPage.postInit
    { messages := pageMessages response.messages
      totalMessages := response.total
      nextBeforeMessageId := next }

variable (client : GetHistoryRequest → HistoryResponse Row)

/-- `TelethonFullHistoryPageAdapter.fetch_page`. -/
def fetchFullHistoryPage (before : ℤ) : Except String (FullHistoryPage Row) :=
  fullHistoryPage (client ⟨before, 0, messageHistoryPageSize, 0, 0, 0⟩)

/-- The pages of the backward adapter as a paging that starts at the cursor 0. -/
def fullHistoryPaging (token : Option ℤ) : Except String (List (PageMessage Row) × Option ℤ) :=
  (fetchFullHistoryPage client (token.getD 0)).map fun page =>
    (page.messages, page.nextBeforeMessageId)

/-! ## The forward adapter -/

/-- `ForwardGapPage`. -/
structure ForwardGapPage (Row : Type) where
  messages : List (PageMessage Row)
  complete : Bool
  deriving DecidableEq

/-- `ForwardGapPage.__post_init__`. -/
def ForwardGapPage.postInit (page : ForwardGapPage Row) : Except String (ForwardGapPage Row) :=
  if messageHistoryPageSize < page.messages.length then
    .error "forward gap pages must contain at most 100 messages"
  else .ok page

/-- `_select_forward_messages` on the sorted messages; `shouldStop` gives the answers of the calls
in their order. -/
def selectForwardMessages (after : ℤ) :
    (shouldStop : ℕ → Bool) → List (HistoryItem Row) → List (HistoryItem Row) × Bool
  | _, [] => ([], false)
  | shouldStop, message :: rest =>
    if shouldStop 0 then ([], true)
    else
      let selected := selectForwardMessages after (fun call => shouldStop (call + 1)) rest
      if after < message.sortId then (message :: selected.1, selected.2) else selected

/-- `_build_forward_gap_page`. -/
def forwardGapPage (after : ℤ) (shouldStop : ℕ → Bool) (response : HistoryResponse Row) :
    Except String (ForwardGapPage Row) :=
  if response.type = .messagesNotModified then
    .error "Telegram forward history page has an invalid response"
  else
    let rawMessages := response.messages.filter fun item => item.row.isSome
    let selected := selectForwardMessages after shouldStop
      (leastFirst HistoryItem.sortId rawMessages)
    let complete := !selected.2 &&
      (response.messages.length < messageHistoryPageSize || rawMessages.isEmpty)
    let sliced := response.type = .messagesSlice ∨ response.type = .channelMessages
    ForwardGapPage.postInit
      { messages := pageMessages selected.1
        complete := if rawMessages ≠ [] ∧ sliced then false else complete }

/-- `TelethonForwardGapPageAdapter.fetch_page`. -/
def fetchForwardGapPage (after : ℤ) (shouldStop : ℕ → Bool) :
    Except String (ForwardGapPage Row) :=
  forwardGapPage after shouldStop
    (client ⟨after + 1, -messageHistoryPageSize, messageHistoryPageSize, 0, 0, 0⟩)

/-- The pages of the forward adapter as a paging: each one starts at the largest delivered id, and
`should_stop` is false. -/
def forwardGapPaging (after : ℤ) (token : Option ℤ) :
    Except String (List (PageMessage Row) × Option ℤ) :=
  (fetchForwardGapPage client (token.getD after) fun _ => false).map fun page =>
    (page.messages,
      if page.complete then none
      else some ((page.messages.map PageMessage.messageId).max?.getD (token.getD after)))

end Items

/-! ## The history of the dialog -/

/-- The items of a dialog, the oldest first. -/
structure DialogHistory (Row : Type) where
  items : List (HistoryItem Row)
  ascending : items.Pairwise fun item item' => item.id < item'.id
  ids_pos : ∀ item ∈ items, 0 < item.id

namespace DialogHistory

variable {Row : Type} (history : DialogHistory Row)

/-- The items before a cursor; the cursor 0 is behind all of them. -/
def below (before : ℤ) : List (HistoryItem Row) :=
  history.items.filter fun item => before = 0 ∨ item.id < before

/-- The items after an id. -/
def above (after : ℤ) : List (HistoryItem Row) := history.items.filter fun item => after < item.id

/-- A client whose responses hold, in some order, the newest items before the cursor of a backward
request, and the oldest items after the id of a forward request. -/
structure AnsweredBy (client : GetHistoryRequest → HistoryResponse Row) : Prop where
  type : ∀ request, (client request).type ≠ .messagesNotModified
  backward : ∀ before,
    (client ⟨before, 0, messageHistoryPageSize, 0, 0, 0⟩).messages.Perm
      ((history.below before).rtake messageHistoryPageSize)
  forward : ∀ after,
    (client ⟨after + 1, -messageHistoryPageSize, messageHistoryPageSize, 0, 0, 0⟩).messages.Perm
      ((history.above after).take messageHistoryPageSize)

end DialogHistory

/-! ## What the forward adapter delivers -/

section Delivery

variable {Row : Type}

/-- The messages up to the first block of placeholders that fills a page or has no message
above it. -/
def upToPlaceholders : List (HistoryItem Row) → List (PageMessage Row)
  | [] => []
  | item :: rest =>
    if pageMessages ((item :: rest).take messageHistoryPageSize) = [] then []
    else item.message?.toList ++ upToPlaceholders rest

/-- No message is above a block of placeholders that fills a page. -/
def NoFullBlock (items : List (HistoryItem Row)) : Prop :=
  ∀ lower block upper, items = lower ++ block ++ upper →
    block.length = messageHistoryPageSize → pageMessages block = [] → pageMessages upper = []

variable {items : List (HistoryItem Row)}

theorem pageMessages_append (items others : List (HistoryItem Row)) :
    pageMessages (items ++ others) = pageMessages items ++ pageMessages others :=
  List.filterMap_append

theorem pageMessages_cons (item : HistoryItem Row) (items : List (HistoryItem Row)) :
    pageMessages (item :: items) = item.message?.toList ++ pageMessages items := by
  rw [pageMessages, List.filterMap_cons]
  cases item.message? <;> rfl

/-- Items have no message if all of them are placeholders. -/
theorem pageMessages_eq_nil_iff : pageMessages items = [] ↔ ∀ item ∈ items, item.row = none := by
  rw [pageMessages, List.filterMap_eq_nil_iff]
  exact forall₂_congr fun item _ => Option.map_eq_none_iff

/-- The messages of a page that are delivered are the first messages. -/
theorem upToPlaceholders_of_message {lower upper : List (HistoryItem Row)} {item : HistoryItem Row}
    (hmessage : item.row ≠ none) (hlength : lower.length < messageHistoryPageSize) :
    upToPlaceholders (lower ++ item :: upper) =
      pageMessages (lower ++ [item]) ++ upToPlaceholders upper := by
  have hpage : ∀ front : List (HistoryItem Row), front.length < messageHistoryPageSize →
      pageMessages ((front ++ item :: upper).take messageHistoryPageSize) ≠ [] := by
    intro front hfront hnone
    have hmem : item ∈ (front ++ item :: upper).take messageHistoryPageSize := by
      rw [List.take_append, List.take_of_length_le hfront.le]
      obtain ⟨n, hn⟩ := Nat.exists_eq_succ_of_ne_zero (Nat.sub_pos_of_lt hfront).ne'
      rw [hn, List.take_succ_cons]
      exact List.mem_append_right _ List.mem_cons_self
    exact hmessage (pageMessages_eq_nil_iff.mp hnone item hmem)
  induction lower with
  | nil =>
    have hne := hpage [] hlength
    rw [List.nil_append] at hne
    rw [List.nil_append, upToPlaceholders, if_neg hne, List.nil_append, pageMessages_cons]
    rw [show pageMessages ([] : List (HistoryItem Row)) = [] from rfl, List.append_nil]
  | cons first lower ih =>
    have hne := hpage (first :: lower) hlength
    rw [List.cons_append] at hne
    rw [List.cons_append, upToPlaceholders, if_neg hne, List.cons_append, pageMessages_cons,
      ih ((Nat.lt_succ_self _).trans hlength), List.append_assoc]

/-- All messages of a part are delivered if it does not fill a page. -/
theorem upToPlaceholders_of_short (h : items.length < messageHistoryPageSize) :
    upToPlaceholders items = pageMessages items := by
  induction items with
  | nil => rfl
  | cons item rest ih =>
    rw [upToPlaceholders, List.take_of_length_le h.le]
    split
    · next hnone => exact hnone.symm
    · rw [ih ((Nat.lt_succ_self _).trans h), pageMessages_cons]

/-- Nothing is delivered from a full block of placeholders on. -/
theorem upToPlaceholders_of_block (h : pageMessages (items.take messageHistoryPageSize) = []) :
    upToPlaceholders items = [] := by
  cases items with
  | nil => rfl
  | cons item rest => rw [upToPlaceholders, if_pos h]

/-- What is delivered is in the part below a full block of placeholders. -/
theorem upToPlaceholders_below_block {lower block upper : List (HistoryItem Row)}
    (hlength : block.length = messageHistoryPageSize) (hblock : pageMessages block = []) :
    (upToPlaceholders (lower ++ block ++ upper)).length ≤ (pageMessages lower).length := by
  induction lower with
  | nil =>
    rw [List.nil_append, upToPlaceholders_of_block]
    · exact Nat.zero_le _
    · rw [List.take_left' hlength, hblock]
  | cons first lower ih =>
    rw [List.cons_append, List.cons_append, upToPlaceholders]
    split
    · exact Nat.zero_le _
    · rw [pageMessages_cons, List.length_append, List.length_append]
      exact Nat.add_le_add_left ih _

/-- All messages are delivered exactly if none is above a full block of placeholders. -/
theorem upToPlaceholders_eq_iff :
    upToPlaceholders items = pageMessages items ↔ NoFullBlock items := by
  constructor
  · rintro h lower block upper rfl hlength hblock
    have hle := @upToPlaceholders_below_block _ lower block upper hlength hblock
    rw [h, pageMessages_append, pageMessages_append, hblock, List.append_nil,
      List.length_append] at hle
    exact List.length_eq_zero_iff.mp (by omega)
  · intro h
    induction items with
    | nil => rfl
    | cons item rest ih =>
      rw [upToPlaceholders]
      split
      · next hnone =>
        rw [← List.take_append_drop messageHistoryPageSize (item :: rest), pageMessages_append,
          hnone, List.nil_append]
        by_cases hlength : (item :: rest).length < messageHistoryPageSize
        · rw [List.drop_eq_nil_iff.mpr hlength.le]
          rfl
        · refine (h [] _ _ ?_ (List.length_take_of_le (not_lt.mp hlength)) hnone).symm
          rw [List.nil_append, List.take_append_drop]
      · rw [pageMessages_cons, ih]
        intro lower block upper hsplit
        exact h (item :: lower) block upper (by rw [hsplit]; rfl)

end Delivery

/-! ## The pages of a history -/

section Pages

variable {Row : Type} {history : DialogHistory Row}
  {client : GetHistoryRequest → HistoryResponse Row}

variable {item least : HistoryItem Row} {items lower upper : List (HistoryItem Row)}
    {response : HistoryResponse Row} {before after : ℤ} {shouldStop : ℕ → Bool}

theorem positiveId_of_pos (h : 0 < item.id) : item.positiveId = some item.id :=
  if_pos h

theorem sortId_of_pos (h : 0 < item.id) : item.sortId = item.id := by
  rw [HistoryItem.sortId, positiveId_of_pos h, Option.getD_some]

/-- The ids of items that are all positive. -/
theorem filterMap_positiveId (hpos : ∀ item ∈ items, 0 < item.id) :
    items.filterMap HistoryItem.positiveId = items.map HistoryItem.id := by
  induction items with
  | nil => rfl
  | cons item rest ih =>
    obtain ⟨hfirst, hrest⟩ := List.forall_mem_cons.mp hpos
    rw [List.filterMap_cons_some (positiveId_of_pos hfirst), ih hrest, List.map_cons]

/-- The cursor of a page is its least id. -/
theorem historyCursor_of_least {rawMessages : List (HistoryItem Row)}
    (hpos : ∀ item ∈ rawMessages, 0 < item.id) (hmem : least ∈ rawMessages)
    (hle : ∀ item ∈ rawMessages, least.id ≤ item.id) :
    historyCursor rawMessages = .ok (some least.id) := by
  have hmin : (rawMessages.map HistoryItem.id).min? = some least.id := by
    rw [List.min?_eq_some_iff]
    refine ⟨List.mem_map_of_mem hmem, fun id hid => ?_⟩
    obtain ⟨item, hitem, rfl⟩ := List.mem_map.mp hid
    exact hle item hitem
  rw [historyCursor, filterMap_positiveId hpos, hmin]
  exact if_neg fun h => absurd h.2 (Option.some_ne_none _)

theorem length_pageMessages_le (items : List (HistoryItem Row)) :
    (pageMessages items).length ≤ items.length :=
  List.length_filterMap_le _ _

/-- The total of a page is not negative. -/
theorem total_nonneg (response : HistoryResponse Row) : response.total.any (· < 0) = false := by
  rw [HistoryResponse.total]
  cases response.count with
  | none => exact decide_eq_false (not_lt.mpr (Int.natCast_nonneg response.messages.length))
  | some count =>
    simp only [optionalNonnegativeInt]
    split
    · rfl
    · next hcount => exact decide_eq_false hcount

/-- What the backward adapter answers for a response of at most a page. -/
theorem fullHistoryPage_eq {next : Option ℤ}
    (hlength : response.messages.length ≤ messageHistoryPageSize)
    (hcursor : historyCursor response.messages = .ok next) (hpos : ∀ id ∈ next, 0 < id)
    (hnext : next = none → response.messages = []) :
    fullHistoryPage response = .ok ⟨pageMessages response.messages, response.total, next⟩ := by
  have hshort : ¬ messageHistoryPageSize < (pageMessages response.messages).length :=
    not_lt.mpr ((length_pageMessages_le _).trans hlength)
  have hcursors : ¬ (pageMessages response.messages ≠ [] ∧ next = none) := by
    rintro ⟨hne, hnone⟩
    rw [hnext hnone] at hne
    exact hne rfl
  have hpositive : ¬ next.any (· ≤ 0) = true := by
    cases next with
    | none => exact Bool.false_ne_true
    | some id => exact fun h => absurd (hpos id rfl) (not_lt.mpr (of_decide_eq_true h))
  rw [fullHistoryPage, hcursor]
  change FullHistoryPage.postInit ⟨pageMessages response.messages, response.total, next⟩ = _
  rw [FullHistoryPage.postInit, if_neg hshort,
    if_neg (Bool.eq_false_iff.mp (total_nonneg response)), if_neg hcursors, if_neg hpositive]

/-- In ascending items, those before one of them are in front of it. -/
theorem filter_before (h : (lower ++ item :: upper).Pairwise fun item item' => item.id < item'.id) :
    (lower ++ item :: upper).filter (fun other => other.id < item.id) = lower := by
  obtain ⟨-, hupper, hacross⟩ := List.pairwise_append.mp h
  have hlower : lower.filter (fun other => other.id < item.id) = lower :=
    List.filter_eq_self.mpr fun other hmem =>
      decide_eq_true (hacross other hmem item List.mem_cons_self)
  have hrest : (item :: upper).filter (fun other => other.id < item.id) = [] := by
    refine List.filter_eq_nil_iff.mpr fun other hmem hlt => ?_
    rcases List.mem_cons.mp hmem with rfl | hmem
    · exact lt_irrefl _ (of_decide_eq_true hlt)
    · exact lt_asymm (of_decide_eq_true hlt) ((List.pairwise_cons.mp hupper).1 other hmem)
  rw [List.filter_append, hlower, hrest, List.append_nil]

/-- In ascending items, those after one of them are behind it. -/
theorem filter_after (h : (lower ++ item :: upper).Pairwise fun item item' => item.id < item'.id) :
    (lower ++ item :: upper).filter (fun other => item.id < other.id) = upper := by
  obtain ⟨-, hupper, hacross⟩ := List.pairwise_append.mp h
  have hlower : lower.filter (fun other => item.id < other.id) = [] :=
    List.filter_eq_nil_iff.mpr fun other hmem hlt =>
      lt_asymm (of_decide_eq_true hlt) (hacross other hmem item List.mem_cons_self)
  have hrest : upper.filter (fun other => item.id < other.id) = upper :=
    List.filter_eq_self.mpr fun other hmem =>
      decide_eq_true ((List.pairwise_cons.mp hupper).1 other hmem)
  rw [List.filter_append, hlower, List.nil_append,
    List.filter_cons_of_neg (by simp), hrest]

/-- The items before an item of a page are those of the dialog before it. -/
theorem DialogHistory.below_of_split (hsplit : history.below before = lower ++ item :: upper) :
    history.below item.id = lower := by
  have hmem : item ∈ history.below before := by
    rw [hsplit]
    exact List.mem_append_right _ List.mem_cons_self
  obtain ⟨hitem, hbefore⟩ := List.mem_filter.mp hmem
  have hpos := history.ids_pos item hitem
  have hnarrow : history.below item.id =
      (history.below before).filter fun other => other.id < item.id := by
    rw [below, below, List.filter_filter]
    refine List.filter_congr fun other _ => ?_
    rw [← Bool.decide_and]
    refine decide_eq_decide.mpr ?_
    have := of_decide_eq_true hbefore
    omega
  rw [hnarrow, hsplit]
  exact filter_before (hsplit ▸ history.ascending.filter _)

/-- The items after an item of a page are those of the dialog after it. -/
theorem DialogHistory.above_of_split (hsplit : history.above after = lower ++ item :: upper) :
    history.above item.id = upper := by
  have hmem : item ∈ history.above after := by
    rw [hsplit]
    exact List.mem_append_right _ List.mem_cons_self
  have hafter := of_decide_eq_true (List.mem_filter.mp hmem).2
  have hnarrow : history.above item.id =
      (history.above after).filter fun other => item.id < other.id := by
    rw [above, above, List.filter_filter]
    refine List.filter_congr fun other _ => ?_
    rw [← Bool.decide_and]
    exact decide_eq_decide.mpr ⟨fun h => ⟨h, hafter.trans h⟩, fun h => h.1⟩
  rw [hnarrow, hsplit]
  exact filter_after (hsplit ▸ history.ascending.filter _)

/-! ### Backward -/

/-- A backward response has at most a page of items. -/
theorem DialogHistory.AnsweredBy.length_backward (h : history.AnsweredBy client) (before : ℤ) :
    (client ⟨before, 0, messageHistoryPageSize, 0, 0, 0⟩).messages.length ≤
      messageHistoryPageSize := by
  rw [(h.backward before).length_eq, List.rtake, List.length_drop]
  omega

/-- Without items before its cursor, a backward page is the last one. -/
theorem fetchFullHistoryPage_empty (h : history.AnsweredBy client)
    (hbelow : history.below before = []) :
    ∃ total, fetchFullHistoryPage client before = .ok ⟨[], total, none⟩ := by
  have hnil := h.backward before
  rw [hbelow, List.rtake_nil, List.perm_nil] at hnil
  have hcursor : historyCursor (client ⟨before, 0, messageHistoryPageSize, 0, 0, 0⟩).messages =
      .ok none := by
    rw [hnil]
    rfl
  have hpage := fullHistoryPage_eq (h.length_backward before) hcursor
    (fun id hid => nomatch hid) fun _ => hnil
  rw [hnil] at hpage
  exact ⟨_, hpage⟩

/-- A backward page holds the messages of the newest items before its cursor, and its own cursor is
the least id among them. -/
theorem fetchFullHistoryPage_newest (h : history.AnsweredBy client) {rest : List (HistoryItem Row)}
    (hnewest : (history.below before).rtake messageHistoryPageSize = least :: rest) :
    ∃ page, fetchFullHistoryPage client before = .ok page ∧
      page.nextBeforeMessageId = some least.id ∧
      page.messages.Perm (pageMessages (least :: rest)) := by
  have hperm := h.backward before
  rw [hnewest] at hperm
  have hsuffix : least :: rest <:+ history.below before := hnewest ▸ List.drop_suffix _ _
  have hpos : ∀ item ∈ least :: rest, 0 < item.id := fun item hmem =>
    history.ids_pos item (List.mem_of_mem_filter (hsuffix.subset hmem))
  have hsorted : (least :: rest).Pairwise fun item item' => item.id < item'.id :=
    (history.ascending.filter _).sublist hsuffix.sublist
  have hcursor : historyCursor (client ⟨before, 0, messageHistoryPageSize, 0, 0, 0⟩).messages =
      .ok (some least.id) := by
    refine historyCursor_of_least (fun item hmem => hpos item (hperm.mem_iff.mp hmem))
      (hperm.mem_iff.mpr List.mem_cons_self) fun item hmem => ?_
    rcases List.mem_cons.mp (hperm.mem_iff.mp hmem) with rfl | hmem
    · exact le_rfl
    · exact ((List.pairwise_cons.mp hsorted).1 item hmem).le
  have hnext : ∀ id ∈ some least.id, 0 < id := by
    rintro id ⟨⟩
    exact hpos least List.mem_cons_self
  exact ⟨_, fullHistoryPage_eq (h.length_backward before) hcursor hnext
    fun hnone => absurd hnone (Option.some_ne_none _), rfl, hperm.filterMap _⟩

/-- The backward pages end, and hold every message once. -/
theorem fullHistoryPaging_ends (h : history.AnsweredBy client) (token : Option ℤ) :
    ∃ fuel seen, follow (fullHistoryPaging client) fuel token = some seen ∧
      seen.Perm (pageMessages (history.below (token.getD 0))) := by
  refine follow_rule (fun token => (history.below (token.getD 0)).length)
    (fun token seen => seen.Perm (pageMessages (history.below (token.getD 0)))) (fun token => ?_)
    token
  rcases hnewest : (history.below (token.getD 0)).rtake messageHistoryPageSize with
    _ | ⟨least, rest⟩
  · have hbelow : history.below (token.getD 0) = [] := by
      have hlength := congrArg List.length hnewest
      rw [List.rtake, List.length_drop, List.length_nil] at hlength
      have hpage : messageHistoryPageSize = 100 := rfl
      exact List.length_eq_zero_iff.mp (by omega)
    obtain ⟨total, hpage⟩ := fetchFullHistoryPage_empty h hbelow
    refine ⟨[], none, ?_, fun _ => ?_, fun next hnext => nomatch hnext⟩
    · rw [fullHistoryPaging, hpage]
      rfl
    · rw [hbelow]
      exact List.Perm.refl _
  · obtain ⟨page, hpage, hnext, hperm⟩ := fetchFullHistoryPage_newest h hnewest
    obtain ⟨lower, hsplit⟩ : least :: rest <:+ history.below (token.getD 0) :=
      hnewest ▸ List.drop_suffix _ _
    have hbelow := DialogHistory.below_of_split hsplit.symm
    refine ⟨page.messages, some least.id, ?_, fun hnone => absurd hnone (Option.some_ne_none _), ?_⟩
    · rw [fullHistoryPaging, hpage, ← hnext]
      rfl
    · rintro next ⟨⟩
      rw [Option.getD_some, hbelow]
      refine ⟨?_, fun seen hseen => ?_⟩
      · rw [← hsplit, List.length_append, List.length_cons]
        omega
      · rw [← hsplit, pageMessages_append]
        exact (hperm.append hseen).trans List.perm_append_comm

/-! ### Forward -/

/-- The selection is the start of the messages, and all of them if nothing stopped it. -/
theorem selectForwardMessages_prefix (shouldStop : ℕ → Bool)
    (habove : ∀ item ∈ items, after < item.sortId) :
    ∃ left, (selectForwardMessages after shouldStop items).1 ++ left = items ∧
      ((selectForwardMessages after shouldStop items).2 = false → left = []) := by
  induction items generalizing shouldStop with
  | nil => exact ⟨[], rfl, fun _ => rfl⟩
  | cons item rest ih =>
    obtain ⟨hitem, hrest⟩ := List.forall_mem_cons.mp habove
    rw [selectForwardMessages, if_pos hitem]
    split
    · exact ⟨item :: rest, rfl, fun hstopped => nomatch hstopped⟩
    · obtain ⟨left, happend, hleft⟩ := ih (fun call => shouldStop (call + 1)) hrest
      exact ⟨left, by rw [List.cons_append, happend], hleft⟩

/-- Without a stop the selection is not stopped. -/
theorem selectForwardMessages_not_stopped (hstop : ∀ call, shouldStop call = false)
    (items : List (HistoryItem Row)) :
    (selectForwardMessages after shouldStop items).2 = false := by
  induction items generalizing shouldStop with
  | nil => rfl
  | cons item rest ih =>
    rw [selectForwardMessages, if_neg (Bool.eq_false_iff.mp (hstop 0))]
    split
    · exact ih fun call => hstop (call + 1)
    · exact ih fun call => hstop (call + 1)

/-- Placeholders have no messages. -/
theorem pageMessages_filter (items : List (HistoryItem Row)) :
    pageMessages (items.filter fun item => item.row.isSome) = pageMessages items := by
  induction items with
  | nil => rfl
  | cons item rest ih =>
    rw [List.filter_cons]
    split
    · rw [pageMessages_cons, pageMessages_cons, ih]
    · next hnone =>
      have hmessage : item.message? = none := by
        rw [HistoryItem.message?, Option.not_isSome_iff_eq_none.mp hnone, Option.map_none]
      rw [pageMessages_cons, hmessage, ih]
      rfl

/-- Items have no message if none of them is left without the placeholders. -/
theorem filter_isSome_eq_nil_iff :
    (items.filter fun item => item.row.isSome) = [] ↔ pageMessages items = [] := by
  rw [List.filter_eq_nil_iff, pageMessages_eq_nil_iff]
  exact forall₂_congr fun item _ => Option.not_isSome_iff_eq_none

/-- The messages of a forward response in their order are those of the oldest items. -/
theorem DialogHistory.AnsweredBy.sorted_forward (h : history.AnsweredBy client) (after : ℤ) :
    leastFirst HistoryItem.sortId
        ((client ⟨after + 1, -messageHistoryPageSize, messageHistoryPageSize, 0, 0, 0⟩).messages
          |>.filter fun item => item.row.isSome) =
      ((history.above after).take messageHistoryPageSize).filter fun item => item.row.isSome := by
  refine leastFirst_eq_of_perm _ ((h.forward after).filter _) ?_
  have hsub : (((history.above after).take messageHistoryPageSize).filter fun item =>
      item.row.isSome).Sublist history.items :=
    List.filter_sublist.trans ((List.take_sublist _ _).trans List.filter_sublist)
  refine (history.ascending.sublist hsub).imp_of_mem fun hitem hitem' hlt => ?_
  rw [sortId_of_pos (history.ids_pos _ (hsub.subset hitem)),
    sortId_of_pos (history.ids_pos _ (hsub.subset hitem'))]
  exact hlt

/-- The page of a response of at most a page; it is complete if the messages were not stopped, and
either the response has no messages, or it is short and not one of several. -/
theorem forwardGapPage_eq {selected : List (HistoryItem Row) × Bool}
    (htype : response.type ≠ .messagesNotModified)
    (hselected : selectForwardMessages after shouldStop
      (leastFirst HistoryItem.sortId (response.messages.filter fun item => item.row.isSome)) =
      selected) (hlength : (pageMessages selected.1).length ≤ messageHistoryPageSize) :
    ∃ complete, forwardGapPage after shouldStop response =
        .ok ⟨pageMessages selected.1, complete⟩ ∧
      (complete = true → selected.2 = false ∧
        (response.messages.length < messageHistoryPageSize ∨
          (response.messages.filter fun item => item.row.isSome) = [])) ∧
      (selected.2 = false → (response.messages.filter fun item => item.row.isSome) = [] →
        complete = true) := by
  rw [forwardGapPage, if_neg htype]
  simp only [hselected]
  refine ⟨_, if_neg (not_lt.mpr hlength), fun hcomplete => ?_, fun hstopped hnone => ?_⟩
  · split at hcomplete
    · exact nomatch hcomplete
    · rw [Bool.and_eq_true, Bool.not_eq_true', Bool.or_eq_true, decide_eq_true_iff,
        List.isEmpty_iff] at hcomplete
      exact hcomplete
  · rw [if_neg fun h => h.1 hnone, hstopped, hnone, List.isEmpty_nil, Bool.or_true]
    rfl

/-- A forward page holds the first messages of the oldest items after its id.  It is complete only
if it holds all of them and these are all items, or none of them is a message. -/
theorem fetchForwardGapPage_spec (h : history.AnsweredBy client) (after : ℤ)
    (shouldStop : ℕ → Bool) :
    ∃ page left, fetchForwardGapPage client after shouldStop = .ok page ∧
      page.messages ++ left =
        pageMessages ((history.above after).take messageHistoryPageSize) ∧
      (page.complete = true → left = [] ∧
        ((history.above after).length < messageHistoryPageSize ∨ page.messages = [])) ∧
      ((∀ call, shouldStop call = false) → left = [] ∧
        (page.complete = false → page.messages ≠ [])) := by
  have hperm := h.forward after
  have hsorted := h.sorted_forward after
  have htype := h.type ⟨after + 1, -messageHistoryPageSize, messageHistoryPageSize, 0, 0, 0⟩
  rw [fetchForwardGapPage]
  generalize client ⟨after + 1, -messageHistoryPageSize, messageHistoryPageSize, 0, 0, 0⟩ =
    response at hperm hsorted htype ⊢
  have habove : ∀ item ∈ leastFirst HistoryItem.sortId
      (response.messages.filter fun item => item.row.isSome), after < item.sortId := by
    intro item hitem
    rw [hsorted] at hitem
    obtain ⟨hmem, hafter⟩ := List.mem_filter.mp
      (List.mem_of_mem_take (List.mem_of_mem_filter hitem))
    rw [sortId_of_pos (history.ids_pos item hmem)]
    exact of_decide_eq_true hafter
  obtain ⟨left, hselected, hall⟩ := selectForwardMessages_prefix shouldStop habove
  generalize hselection : selectForwardMessages after shouldStop (leastFirst HistoryItem.sortId
    (response.messages.filter fun item => item.row.isSome)) = selected at hselected hall
  have hmessages : pageMessages selected.1 ++ pageMessages left =
      pageMessages ((history.above after).take messageHistoryPageSize) := by
    rw [← pageMessages_append, hselected, hsorted, pageMessages_filter]
  have hlength := (length_pageMessages_le ((history.above after).take messageHistoryPageSize)).trans
    (List.length_take_le _ _)
  rw [← hmessages, List.length_append] at hlength
  obtain ⟨complete, hpage, hcomplete, hnone⟩ :=
    forwardGapPage_eq htype hselection ((Nat.le_add_right _ _).trans hlength)
  have hraw : (response.messages.filter fun item => item.row.isSome) = [] ↔
      pageMessages ((history.above after).take messageHistoryPageSize) = [] := by
    rw [← filter_isSome_eq_nil_iff, ← hsorted, ← List.length_eq_zero_iff, ← List.length_eq_zero_iff,
      (leastFirst_perm _ _).length_eq]
  refine ⟨_, pageMessages left, hpage, hmessages, fun h => ?_, fun hstop => ?_⟩
  · obtain ⟨hstopped, hend⟩ := hcomplete h
    rw [hall hstopped] at hmessages ⊢
    refine ⟨rfl, hend.imp (fun hshort => ?_) fun hnil => ?_⟩
    · rw [hperm.length_eq, List.length_take] at hshort
      omega
    · exact (List.append_eq_nil_iff.mp (hmessages.trans (hraw.mp hnil))).1
  · have hstopped : selected.2 = false := by
      rw [← hselection]
      exact selectForwardMessages_not_stopped hstop _
    rw [hall hstopped] at hmessages ⊢
    refine ⟨rfl, fun hincomplete hnil => ?_⟩
    have hcompleted := hnone hstopped (hraw.mpr (hmessages.symm.trans ?_))
    · exact absurd (hincomplete.symm.trans hcompleted) Bool.false_ne_true
    · change pageMessages selected.1 = [] at hnil
      rw [hnil]
      rfl

/-- Items with a message have a last one. -/
theorem exists_last_message (h : pageMessages items ≠ []) :
    ∃ lower item upper, items = lower ++ item :: upper ∧ item.row ≠ none ∧
      pageMessages upper = [] := by
  induction items with
  | nil => exact absurd rfl h
  | cons item rest ih =>
    by_cases hrest : pageMessages rest = []
    · refine ⟨[], item, rest, rfl, fun hnone => h ?_, hrest⟩
      rw [pageMessages_eq_nil_iff] at hrest ⊢
      exact List.forall_mem_cons.mpr ⟨hnone, hrest⟩
    · obtain ⟨lower, last, upper, hsplit, hmessage, hupper⟩ := ih hrest
      exact ⟨item :: lower, last, upper, by rw [hsplit]; rfl, hmessage, hupper⟩

/-- The messages of ascending items are ascending. -/
theorem pageMessages_pairwise (h : items.Pairwise fun item item' => item.id < item'.id) :
    (pageMessages items).Pairwise fun message message' =>
      message.messageId < message'.messageId := by
  refine h.filterMap _ fun item item' hlt message hmessage message' hmessage' => ?_
  obtain ⟨row, -, rfl⟩ := Option.map_eq_some_iff.mp hmessage
  obtain ⟨row', -, rfl⟩ := Option.map_eq_some_iff.mp hmessage'
  exact hlt

/-- The largest id of the messages up to one of them. -/
theorem max?_pageMessages (h : (lower ++ [item]).Pairwise fun item item' => item.id < item'.id)
    (hmessage : item.row ≠ none) :
    ((pageMessages (lower ++ [item])).map PageMessage.messageId).max? = some item.id := by
  obtain ⟨row, hrow⟩ := Option.ne_none_iff_exists'.mp hmessage
  have hlast : pageMessages [item] = [⟨item.id, row⟩] := by
    rw [pageMessages_cons, HistoryItem.message?, hrow]
    rfl
  have hascending := pageMessages_pairwise h
  rw [pageMessages_append, hlast] at hascending ⊢
  rw [List.max?_eq_some_iff, List.map_append]
  refine ⟨List.mem_append_right _ (List.mem_singleton_self _), fun id hid => ?_⟩
  rcases List.mem_append.mp hid with hid | hid
  · obtain ⟨message, hmem, rfl⟩ := List.mem_map.mp hid
    exact ((List.pairwise_append.mp hascending).2.2 message hmem _ (List.mem_singleton_self _)).le
  · exact (List.mem_singleton.mp hid).le

/-- The forward pages end, and hold the messages up to a full block of placeholders. -/
theorem forwardGapPaging_ends (h : history.AnsweredBy client) (after : ℤ) (token : Option ℤ) :
    ∃ fuel seen, follow (forwardGapPaging client after) fuel token = some seen ∧
      seen = upToPlaceholders (history.above (token.getD after)) := by
  refine follow_rule (fun token => (history.above (token.getD after)).length)
    (fun token seen => seen = upToPlaceholders (history.above (token.getD after)))
    (fun token => ?_) token
  obtain ⟨page, left, hpage, hmessages, hcomplete, hnever⟩ :=
    fetchForwardGapPage_spec h (token.getD after) fun _ => false
  obtain ⟨rfl, hincomplete⟩ := hnever fun _ => rfl
  rw [List.append_nil] at hmessages
  have hpaging : forwardGapPaging client after token = .ok (page.messages,
      if page.complete then none
      else some ((page.messages.map PageMessage.messageId).max?.getD (token.getD after))) := by
    rw [forwardGapPaging, hpage]
    rfl
  cases hend : page.complete with
  | true =>
    rw [hend, if_pos rfl] at hpaging
    refine ⟨_, _, hpaging, fun _ => ?_, fun next hnext => nomatch hnext⟩
    rcases (hcomplete hend).2 with hshort | hnone
    · rw [upToPlaceholders_of_short hshort, hmessages, List.take_of_length_le hshort.le]
    · rw [upToPlaceholders_of_block (hmessages.symm.trans hnone), hnone]
  | false =>
    obtain ⟨lower, item, upper, hitems, hmessage, hupper⟩ :=
      exists_last_message (hmessages ▸ hincomplete hend)
    obtain ⟨rest, hsplit⟩ : ∃ rest, history.above (token.getD after) = lower ++ item :: rest := by
      refine ⟨upper ++ (history.above (token.getD after)).drop messageHistoryPageSize, ?_⟩
      rw [← List.cons_append, ← List.append_assoc, ← hitems, List.take_append_drop]
    have hlower : lower.length < messageHistoryPageSize := by
      have hlength := List.length_take_le messageHistoryPageSize (history.above (token.getD after))
      rw [hitems, List.length_append, List.length_cons] at hlength
      omega
    have hfront : page.messages = pageMessages (lower ++ [item]) := by
      rw [hmessages, hitems, List.append_cons, pageMessages_append, hupper, List.append_nil]
    have hascending : (lower ++ [item]).Pairwise fun item item' => item.id < item'.id := by
      refine (history.ascending.filter fun item => token.getD after < item.id).sublist ?_
      rw [← DialogHistory.above, hsplit, List.append_cons lower item rest]
      exact List.sublist_append_left _ _
    rw [hend, if_neg Bool.false_ne_true, hfront, max?_pageMessages hascending hmessage,
      Option.getD_some] at hpaging
    refine ⟨_, _, hpaging, fun hnone => absurd hnone (Option.some_ne_none _), ?_⟩
    rintro next ⟨⟩
    rw [Option.getD_some, DialogHistory.above_of_split hsplit]
    refine ⟨?_, fun seen hseen => ?_⟩
    · rw [hsplit, List.length_append, List.length_cons]
      omega
    · rw [hseen, hsplit, upToPlaceholders_of_message hmessage hlower]

end Pages

/-! ## The page contract -/

namespace DialogHistory

variable {Row : Type} (history : DialogHistory Row)

/-- A client that answers with the items in their order. -/
def server (type : HistoryResponseType) (request : GetHistoryRequest) : HistoryResponse Row where
  type := type
  messages :=
    if request.addOffset = 0 then (history.below request.offsetId).rtake request.limit
    else (history.above (request.offsetId - 1)).take request.limit

/-- It answers as the requests ask. -/
theorem answeredBy_server {type : HistoryResponseType} (htype : type ≠ .messagesNotModified) :
    history.AnsweredBy (history.server type) where
  type _ := htype
  backward _ := List.Perm.refl _
  forward after := by
    have hforward : -(messageHistoryPageSize : ℤ) ≠ 0 := by decide
    simp only [server, if_neg hforward, add_sub_cancel_right]
    exact List.Perm.refl _

end DialogHistory

/-- The backward pages from the cursor 0 end and hold every message once.  A forward page is the
ascending start of the messages above its id, and if it is complete then it holds all of them, or
the response was a full block of placeholders.  The forward pages end, and hold the messages up to
the first such block; these are all messages exactly if none is above a full block. -/
theorem history_pages {Row : Type} {history : DialogHistory Row}
    {client : GetHistoryRequest → HistoryResponse Row} (h : history.AnsweredBy client) :
    (∃ fuel seen, follow (fullHistoryPaging client) fuel none = some seen ∧
      seen.Perm (pageMessages history.items)) ∧
    (∀ after shouldStop, ∃ page left, fetchForwardGapPage client after shouldStop = .ok page ∧
      page.messages ++ left = pageMessages (history.above after) ∧
      (page.messages.Pairwise fun message message' => message.messageId < message'.messageId) ∧
      (∀ message ∈ page.messages, after < message.messageId) ∧
      (page.complete = true → left = [] ∨
        (messageHistoryPageSize ≤ (history.above after).length ∧
          pageMessages ((history.above after).take messageHistoryPageSize) = []))) ∧
    (∀ after, ∃ fuel, follow (forwardGapPaging client after) fuel none =
      some (upToPlaceholders (history.above after))) ∧
    ∀ after, upToPlaceholders (history.above after) = pageMessages (history.above after) ↔
      NoFullBlock (history.above after) := by
  refine ⟨?_, fun after shouldStop => ?_, fun after => ?_, fun after => upToPlaceholders_eq_iff⟩
  · obtain ⟨fuel, seen, hfollow, hperm⟩ := fullHistoryPaging_ends h none
    have hall : history.below ((none : Option ℤ).getD 0) = history.items :=
      List.filter_eq_self.mpr fun item _ => decide_eq_true (Or.inl rfl)
    rw [hall] at hperm
    exact ⟨fuel, seen, hfollow, hperm⟩
  · obtain ⟨page, left, hpage, hmessages, hcomplete, -⟩ :=
      fetchForwardGapPage_spec h after shouldStop
    have hall : page.messages ++ (left ++
        pageMessages ((history.above after).drop messageHistoryPageSize)) =
          pageMessages (history.above after) := by
      rw [← List.append_assoc, hmessages, ← pageMessages_append, List.take_append_drop]
    have hfront : page.messages.Sublist (pageMessages (history.above after)) := by
      rw [← hall]
      exact List.sublist_append_left _ _
    refine ⟨page, _, hpage, hall, ?_, fun message hmem => ?_, fun hend => ?_⟩
    · exact (pageMessages_pairwise (history.ascending.filter _)).sublist hfront
    · obtain ⟨item, hitem, hmessage⟩ := List.mem_filterMap.mp (hfront.subset hmem)
      obtain ⟨row, -, rfl⟩ := Option.map_eq_some_iff.mp hmessage
      exact of_decide_eq_true (List.mem_filter.mp hitem).2
    · obtain ⟨rfl, hshort⟩ := hcomplete hend
      rw [List.append_nil] at hmessages
      by_cases hlength : (history.above after).length < messageHistoryPageSize
      · left
        rw [List.drop_eq_nil_iff.mpr hlength.le]
        rfl
      · right
        exact ⟨not_lt.mp hlength, hmessages.symm.trans (hshort.resolve_left hlength)⟩
  · obtain ⟨fuel, seen, hfollow, rfl⟩ := forwardGapPaging_ends h after none
    exact ⟨fuel, hfollow⟩

/-- A history with a placeholder between two messages. -/
def shortHistory : DialogHistory String where
  items := [⟨1, some "first"⟩, ⟨2, none⟩, ⟨5, some "second"⟩]
  ascending := by decide
  ids_pos := by decide

/-- Its backward pages end, and hold the two messages. -/
theorem history_pages_short :
    ∃ fuel seen, follow (fullHistoryPaging (shortHistory.server .messagesSlice)) fuel none =
      some seen ∧ seen.Perm [⟨1, "first"⟩, ⟨5, "second"⟩] :=
  (history_pages (shortHistory.answeredBy_server
    (by decide : HistoryResponseType.messagesSlice ≠ .messagesNotModified))).1

/-- A history with a full block of placeholders below a message. -/
def clearedHistory : DialogHistory String where
  items := (List.range 100).map (fun n => ⟨n + 1, none⟩) ++ [⟨101, some "later"⟩]
  ascending := by decide +kernel
  ids_pos := by decide +kernel

/-- The forward page from the start is complete without the message, and so are the pages. -/
theorem forward_page_ends_below_message : ∃ client, clearedHistory.AnsweredBy client ∧
    fetchForwardGapPage client 0 (fun _ => false) = .ok ⟨[], true⟩ ∧
    pageMessages (clearedHistory.above 0) = [⟨101, "later"⟩] ∧
    ∀ fuel, follow (forwardGapPaging client 0) (fuel + 1) none = some [] := by
  have hpage : fetchForwardGapPage (clearedHistory.server .messages) 0 (fun _ => false) =
      .ok ⟨[], true⟩ := by decide +kernel
  refine ⟨clearedHistory.server .messages, clearedHistory.answeredBy_server (by decide), hpage,
    by decide +kernel, fun fuel => ?_⟩
  rw [follow, forwardGapPaging, Option.getD_none, hpage]
  rfl

end McpTelegram
