import McpTelegram.Foundations.Dictionary

/-!
# The message budget of unread chats

`budget.py`: the tiers share a limit in the order of their priority, and the chats of one tier are
served one message at a time, in rounds.
-/

namespace McpTelegram

open Foundations

variable {chatId : ℤ} {chats : List ℤ}

/-! ## The allocation -/

/-- The state of a round: the allocation, the rest of the budget, and whether anybody advanced. -/
structure TierRound where
  allocation : ℤ → ℕ
  remaining : ℕ
  advanced : Bool

/-- One message more for a chat. -/
def TierRound.serve (state : TierRound) (chatId : ℤ) : TierRound where
  allocation := Function.update state.allocation chatId (state.allocation chatId + 1)
  remaining := state.remaining - 1
  advanced := true

section Allocation

-- `max_per_chat`
variable (maxPerChat : ℕ)

/-- `min(unread_count, max_per_chat)`. -/
def chatCap (count : ℕ) : ℕ := min count maxPerChat

/-- The `for` loop of `_allocate_tier_round_robin`, over the chats with their counts. -/
def tierRound : List (ℤ × ℕ) → TierRound → TierRound
  | [], state => state
  | (chatId, count) :: rest, state =>
    if state.remaining = 0 then state
    else if chatCap maxPerChat count ≤ state.allocation chatId then tierRound rest state
    else tierRound rest (state.serve chatId)

/-- A round that advances has spent something. -/
theorem tierRound_remaining (counts : List (ℤ × ℕ)) (state : TierRound) :
    (tierRound maxPerChat counts state).remaining ≤ state.remaining ∧
      ((tierRound maxPerChat counts state).advanced = true → state.advanced = true ∨
        (tierRound maxPerChat counts state).remaining < state.remaining) := by
  induction counts generalizing state with
  | nil => exact ⟨le_rfl, Or.inl⟩
  | cons entry rest ih =>
    rw [tierRound]
    split
    · exact ⟨le_rfl, Or.inl⟩
    split
    · exact ih state
    · rename_i hleft _
      have hrest := (ih (state.serve entry.1)).1
      have hspent : (state.serve entry.1).remaining < state.remaining := Nat.sub_one_lt hleft
      exact ⟨hrest.trans hspent.le, fun _ => Or.inr (hrest.trans_lt hspent)⟩

/-- `_allocate_tier_round_robin`: the allocation and the rest of the budget. -/
def allocateTier (counts : List (ℤ × ℕ)) (allocation : ℤ → ℕ) (remaining : ℕ) : (ℤ → ℕ) × ℕ :=
  if remaining = 0 then (allocation, remaining)
  else
    let after := tierRound maxPerChat counts ⟨allocation, remaining, false⟩
    if _h : after.advanced = true then allocateTier counts after.allocation after.remaining
    else (after.allocation, after.remaining)
termination_by remaining
decreasing_by
  exact ((tierRound_remaining maxPerChat counts ⟨allocation, remaining, false⟩).2 _h).resolve_left
    Bool.false_ne_true

variable (tiers : ℤ → ℤ)

/-- The chats of a tier, in the order of the input. -/
def tierCounts (unreadCounts : Dictionary ℤ ℕ) (tier : ℤ) : List (ℤ × ℕ) :=
  (unreadCounts.entries.map fun entry => (entry.1, entry.2)).filter fun entry =>
    tiers entry.1 = tier

/-- The loop over the tiers. -/
def allocateTiers (unreadCounts : Dictionary ℤ ℕ) : List ℤ → (ℤ → ℕ) → ℕ → ℤ → ℕ
  | [], allocation, _ => allocation
  | tier :: rest, allocation, remaining =>
    let after := allocateTier maxPerChat (tierCounts tiers unreadCounts tier) allocation remaining
    if after.2 = 0 then after.1 else allocateTiers unreadCounts rest after.1 after.2

/-- The tiers of the chats, best first. -/
def sortedTiers (unreadCounts : Dictionary ℤ ℕ) : List ℤ :=
  (unreadCounts.keys.map tiers).dedup.mergeSort fun a b => decide (a ≤ b)

/-- `allocate_message_budget_round_robin`. -/
def allocateMessageBudgetRoundRobin (unreadCounts : Dictionary ℤ ℕ) (limit : ℕ) : ℤ → ℕ :=
  if unreadCounts.entries = [] ∨ limit = 0 ∨ maxPerChat = 0 then fun _ => 0
  else
    allocateTiers maxPerChat tiers unreadCounts (sortedTiers tiers unreadCounts) (fun _ => 0) limit

end Allocation

/-! ## A round -/

variable {maxPerChat : ℕ} {counts : List (ℤ × ℕ)} {state : TierRound}

/-- A round that has advanced stays advanced. -/
theorem tierRound_advanced (h : state.advanced = true) :
    (tierRound maxPerChat counts state).advanced = true := by
  induction counts generalizing state with
  | nil => exact h
  | cons entry rest ih =>
    rw [tierRound]
    split
    · exact h
    split
    · exact ih h
    · exact ih rfl

/-- A round that does not advance has nobody to serve. -/
theorem served_of_not_advanced (h : (tierRound maxPerChat counts state).advanced = false)
    (hleft : state.remaining ≠ 0) :
    tierRound maxPerChat counts state = state ∧
      ∀ entry ∈ counts, chatCap maxPerChat entry.2 ≤ state.allocation entry.1 := by
  induction counts with
  | nil => exact ⟨rfl, fun _ hmem => by cases hmem⟩
  | cons entry rest ih =>
    rw [tierRound, if_neg hleft] at h ⊢
    split at h
    · rename_i hserved
      rw [if_pos hserved]
      refine ⟨(ih h).1, fun other hother => ?_⟩
      rcases List.mem_cons.mp hother with rfl | hother
      · exact hserved
      · exact (ih h).2 other hother
    · rw [tierRound_advanced rfl] at h
      cases h

/-- A round touches its own chats only. -/
theorem tierRound_untouched (h : chatId ∉ counts.map Prod.fst) :
    (tierRound maxPerChat counts state).allocation chatId = state.allocation chatId := by
  induction counts generalizing state with
  | nil => rfl
  | cons entry rest ih =>
    rw [List.map_cons, List.mem_cons, not_or] at h
    rw [tierRound]
    split
    · rfl
    split
    · exact ih h.2
    · rw [ih h.2]
      exact Function.update_of_ne h.1 _ _

/-- What all chats have together, after one message more for one of them. -/
theorem sum_update_succ (hnodup : chats.Nodup) (h : chatId ∈ chats) (allocation : ℤ → ℕ) :
    (chats.map (Function.update allocation chatId (allocation chatId + 1))).sum =
      (chats.map allocation).sum + 1 := by
  induction chats with
  | nil => cases h
  | cons chat chats ih =>
    rw [List.nodup_cons] at hnodup
    rw [List.map_cons, List.map_cons, List.sum_cons, List.sum_cons]
    by_cases hchat : chat = chatId
    · subst hchat
      have hrest : chats.map (Function.update allocation chat (allocation chat + 1)) =
          chats.map allocation := by
        refine List.map_congr_left fun other hother => Function.update_of_ne ?_ _ _
        rintro rfl
        exact hnodup.1 hother
      rw [hrest, Function.update_self]
      omega
    · rw [Function.update_of_ne hchat,
        ih hnodup.2 ((List.mem_cons.mp h).resolve_left (Ne.symm hchat))]
      omega

/-- A round spends exactly what it allocates. -/
theorem tierRound_total (hnodup : chats.Nodup) (hchats : ∀ entry ∈ counts, entry.1 ∈ chats) :
    (chats.map (tierRound maxPerChat counts state).allocation).sum +
        (tierRound maxPerChat counts state).remaining =
      (chats.map state.allocation).sum + state.remaining := by
  induction counts generalizing state with
  | nil => rfl
  | cons entry rest ih =>
    have hrest := fun other hother => hchats other (List.mem_cons_of_mem entry hother)
    rw [tierRound]
    split
    · rfl
    split
    · exact ih hrest
    · rename_i hleft _
      rw [ih hrest]
      show (chats.map (Function.update state.allocation entry.1 _)).sum + (state.remaining - 1) = _
      rw [sum_update_succ hnodup (hchats entry List.mem_cons_self)]
      omega

/-- The chats are served up to a level, and those at the front one above it. -/
def Levelled (maxPerChat : ℕ) (counts : List (ℤ × ℕ)) (allocation : ℤ → ℕ) : Prop :=
  ∃ level front back, counts = front ++ back ∧
    (∀ entry ∈ front, allocation entry.1 = min (chatCap maxPerChat entry.2) (level + 1)) ∧
    ∀ entry ∈ back, allocation entry.1 = min (chatCap maxPerChat entry.2) level

/-- A round from a level serves a front part of the chats, and all of them unless the budget is
spent. -/
theorem tierRound_levelled {level : ℕ} (hnodup : (counts.map Prod.fst).Nodup)
    (hlevel : ∀ entry ∈ counts, state.allocation entry.1 = min (chatCap maxPerChat entry.2) level) :
    ∃ front back, counts = front ++ back ∧
      (∀ entry ∈ front, (tierRound maxPerChat counts state).allocation entry.1 =
        min (chatCap maxPerChat entry.2) (level + 1)) ∧
      (∀ entry ∈ back, (tierRound maxPerChat counts state).allocation entry.1 =
        min (chatCap maxPerChat entry.2) level) ∧
      ((tierRound maxPerChat counts state).remaining = 0 ∨ back = []) := by
  induction counts generalizing state with
  | nil => exact ⟨[], [], rfl, by simp, by simp, Or.inr rfl⟩
  | cons entry rest ih =>
    rw [List.map_cons, List.nodup_cons] at hnodup
    have hown := hlevel entry List.mem_cons_self
    have hrest := fun other hother => hlevel other (List.mem_cons_of_mem entry hother)
    -- the chat is served or has all that it may have, and the rest of the round leaves it
    have hcons : ∀ next : TierRound,
        next.allocation entry.1 = min (chatCap maxPerChat entry.2) (level + 1) →
        (∀ other ∈ rest, next.allocation other.1 = min (chatCap maxPerChat other.2) level) →
        ∃ front back, entry :: rest = front ++ back ∧
          (∀ other ∈ front, (tierRound maxPerChat rest next).allocation other.1 =
            min (chatCap maxPerChat other.2) (level + 1)) ∧
          (∀ other ∈ back, (tierRound maxPerChat rest next).allocation other.1 =
            min (chatCap maxPerChat other.2) level) ∧
          ((tierRound maxPerChat rest next).remaining = 0 ∨ back = []) := by
      intro next hentry hothers
      obtain ⟨front, back, rfl, hfront, hback, hspent⟩ := ih hnodup.2 hothers
      refine ⟨entry :: front, back, rfl, fun other hother => ?_, hback, hspent⟩
      rcases List.mem_cons.mp hother with rfl | hother
      · rw [tierRound_untouched hnodup.1, hentry]
      · exact hfront other hother
    rw [tierRound]
    split
    · rename_i hspent
      exact ⟨[], entry :: rest, rfl, by simp, hlevel, Or.inl hspent⟩
    split
    · rename_i hfull
      exact hcons state (by omega) hrest
    · rename_i hbelow
      refine hcons (state.serve entry.1) ?_ fun other hother => ?_
      · show Function.update state.allocation entry.1 _ entry.1 = _
        rw [Function.update_self]
        omega
      · show Function.update state.allocation entry.1 _ other.1 = _
        rw [Function.update_of_ne, hrest other hother]
        rintro hsame
        exact hnodup.1 (hsame ▸ List.mem_map_of_mem hother)

/-! ## A tier -/

/-- The chats have all that they may have. -/
def Served (maxPerChat : ℕ) (counts : List (ℤ × ℕ)) (allocation : ℤ → ℕ) : Prop :=
  ∀ entry ∈ counts, allocation entry.1 = chatCap maxPerChat entry.2

variable {allocation : ℤ → ℕ} {remaining : ℕ}

/-- A tier touches its own chats only, and spends exactly what it allocates. -/
theorem allocateTier_total :
    (∀ chatId ∉ counts.map Prod.fst,
      (allocateTier maxPerChat counts allocation remaining).1 chatId = allocation chatId) ∧
    ∀ chats : List ℤ, chats.Nodup → (∀ entry ∈ counts, entry.1 ∈ chats) →
      (chats.map (allocateTier maxPerChat counts allocation remaining).1).sum +
          (allocateTier maxPerChat counts allocation remaining).2 =
        (chats.map allocation).sum + remaining := by
  induction allocation, remaining using allocateTier.induct maxPerChat counts with
  | case1 allocation =>
    rw [allocateTier, if_pos rfl]
    exact ⟨fun _ _ => rfl, fun _ _ _ => rfl⟩
  | case2 allocation remaining hleft after hadvanced ih =>
    rw [allocateTier, if_neg hleft, dif_pos hadvanced]
    refine ⟨fun chatId hchat => ?_, fun chats hnodup hchats => ?_⟩
    · rw [ih.1 chatId hchat]
      exact tierRound_untouched hchat
    · rw [ih.2 chats hnodup hchats]
      exact tierRound_total hnodup hchats
  | case3 allocation remaining hleft after hadvanced =>
    rw [allocateTier, if_neg hleft, dif_neg hadvanced]
    exact ⟨fun _ hchat => tierRound_untouched hchat,
      fun _ hnodup hchats => tierRound_total hnodup hchats⟩

/-- A tier from a level ends level, but for one message more for the chats at the front, and unless
the budget is spent all its chats have what they may have. -/
theorem allocateTier_levelled {level : ℕ} (hnodup : (counts.map Prod.fst).Nodup)
    (hlevel : ∀ entry ∈ counts, allocation entry.1 = min (chatCap maxPerChat entry.2) level) :
    Levelled maxPerChat counts (allocateTier maxPerChat counts allocation remaining).1 ∧
      ((allocateTier maxPerChat counts allocation remaining).2 = 0 ∨
        Served maxPerChat counts (allocateTier maxPerChat counts allocation remaining).1) := by
  induction allocation, remaining using allocateTier.induct maxPerChat counts
    generalizing level with
  | case1 allocation =>
    rw [allocateTier, if_pos rfl]
    exact ⟨⟨level, [], counts, rfl, by simp, hlevel⟩, Or.inl rfl⟩
  | case2 allocation remaining hleft after hadvanced =>
    rename_i ih
    rw [allocateTier, if_neg hleft, dif_pos hadvanced]
    obtain ⟨front, back, hsplit, hfront, hback, hspent⟩ :=
      @tierRound_levelled maxPerChat counts ⟨allocation, remaining, false⟩ level hnodup hlevel
    rcases hspent with hspent | rfl
    · have hspent : after.remaining = 0 := hspent
      rw [allocateTier, if_pos hspent]
      exact ⟨⟨level, front, back, hsplit, hfront, hback⟩, Or.inl hspent⟩
    · rw [List.append_nil] at hsplit
      refine ih fun entry hentry => hfront entry ?_
      rwa [← hsplit]
  | case3 allocation remaining hleft after =>
    rename_i hadvanced
    rw [allocateTier, if_neg hleft, dif_neg hadvanced]
    obtain ⟨hsame, hserved⟩ := served_of_not_advanced (Bool.eq_false_iff.mpr hadvanced) hleft
    have hallocation : after.allocation = allocation := congrArg TierRound.allocation hsame
    rw [hallocation]
    refine ⟨⟨level, [], counts, rfl, by simp, hlevel⟩, Or.inr fun entry hentry => ?_⟩
    have hown := hlevel entry hentry
    have hfull : chatCap maxPerChat entry.2 ≤ allocation entry.1 := hserved entry hentry
    show allocation entry.1 = chatCap maxPerChat entry.2
    omega

/-- In a levelled tier nobody has two messages more than somebody who may have more, and one more
only if it comes first. -/
theorem Levelled.fair (h : Levelled maxPerChat counts allocation) {chat other : ℤ × ℕ}
    (hchat : chat ∈ counts) (hother : other ∈ counts)
    (hbelow : allocation other.1 ≠ chatCap maxPerChat other.2) :
    allocation chat.1 ≤ allocation other.1 + 1 ∧
      (allocation chat.1 = allocation other.1 + 1 → [chat, other].Sublist counts) := by
  obtain ⟨level, front, back, rfl, hfront, hback⟩ := h
  rcases List.mem_append.mp hchat with hchat | hchat
  · have hown := hfront chat hchat
    rcases List.mem_append.mp hother with hother | hother
    · have := hfront other hother
      omega
    · have := hback other hother
      exact ⟨by omega, fun _ => (List.singleton_sublist.mpr hchat).append
        (List.singleton_sublist.mpr hother)⟩
  · have hown := hback chat hchat
    rcases List.mem_append.mp hother with hother | hother
    · have := hfront other hother
      omega
    · have := hback other hother
      omega

/-- Nobody in a levelled tier has more than it may have. -/
theorem Levelled.le_cap (h : Levelled maxPerChat counts allocation) (entry : ℤ × ℕ)
    (hentry : entry ∈ counts) : allocation entry.1 ≤ chatCap maxPerChat entry.2 := by
  obtain ⟨level, front, back, rfl, hfront, hback⟩ := h
  rcases List.mem_append.mp hentry with hentry | hentry
  · rw [hfront entry hentry]
    exact Nat.min_le_left _ _
  · rw [hback entry hentry]
    exact Nat.min_le_left _ _

/-- Levels are about the chats of the tier. -/
theorem Levelled.congr {allocation' : ℤ → ℕ} (h : Levelled maxPerChat counts allocation)
    (hsame : ∀ entry ∈ counts, allocation' entry.1 = allocation entry.1) :
    Levelled maxPerChat counts allocation' := by
  obtain ⟨level, front, back, rfl, hfront, hback⟩ := h
  refine ⟨level, front, back, rfl, fun entry hentry => ?_, fun entry hentry => ?_⟩
  · rw [hsame entry (List.mem_append_left _ hentry), hfront entry hentry]
  · rw [hsame entry (List.mem_append_right _ hentry), hback entry hentry]

/-! ## All tiers -/

variable {tiers : ℤ → ℤ} {unreadCounts : Dictionary ℤ ℕ}

/-- A chat is in its tier, with its count. -/
theorem mem_tierCounts {tier : ℤ} {entry : ℤ × ℕ} :
    entry ∈ tierCounts tiers unreadCounts tier ↔
      unreadCounts.lookup entry.1 = some entry.2 ∧ tiers entry.1 = tier := by
  rw [tierCounts, List.mem_filter, decide_eq_true_eq, ← Dictionary.mem_entries_iff, List.mem_map]
  refine and_congr_left fun _ => ⟨?_, fun hentry => ⟨⟨entry.1, entry.2⟩, hentry, rfl⟩⟩
  rintro ⟨stored, hstored, rfl⟩
  exact hstored

/-- The chats of a tier stand in the order of the input. -/
theorem tierCounts_sublist (tier : ℤ) :
    ((tierCounts tiers unreadCounts tier).map Prod.fst).Sublist unreadCounts.keys := by
  have hkeys : unreadCounts.keys =
      (unreadCounts.entries.map fun entry => (entry.1, entry.2)).map Prod.fst := by
    rw [List.map_map]
    rfl
  rw [hkeys]
  exact List.filter_sublist.map _

theorem tierCounts_nodup (tier : ℤ) : ((tierCounts tiers unreadCounts tier).map Prod.fst).Nodup :=
  (tierCounts_sublist tier).nodup unreadCounts.nodupKeys

/-- What the loop over the tiers does, from tiers that have nothing yet. -/
structure TiersAllocated (maxPerChat : ℕ) (tiers : ℤ → ℤ) (unreadCounts : Dictionary ℤ ℕ)
    (order : List ℤ) (allocation : ℤ → ℕ) (remaining : ℕ) (after : ℤ → ℕ) : Prop where
  untouched : ∀ chatId, tiers chatId ∉ order → after chatId = allocation chatId
  levelled : ∀ tier ∈ order, Levelled maxPerChat (tierCounts tiers unreadCounts tier) after
  /-- Who has something has all better tiers served. -/
  precedence : ∀ chatId, tiers chatId ∈ order → after chatId ≠ 0 → ∀ tier ∈ order,
    tier < tiers chatId → Served maxPerChat (tierCounts tiers unreadCounts tier) after
  /-- The budget is spent, or everybody is served. -/
  total : ∃ rest, (unreadCounts.keys.map after).sum + rest =
      (unreadCounts.keys.map allocation).sum + remaining ∧
    (rest = 0 ∨ ∀ tier ∈ order, Served maxPerChat (tierCounts tiers unreadCounts tier) after)

/-- The loop over the tiers. -/
theorem allocateTiers_spec {order : List ℤ} (hsorted : order.Pairwise (· < ·))
    (hzero : ∀ chatId, tiers chatId ∈ order → allocation chatId = 0) :
    TiersAllocated maxPerChat tiers unreadCounts order allocation remaining
      (allocateTiers maxPerChat tiers unreadCounts order allocation remaining) := by
  induction order generalizing allocation remaining with
  | nil =>
    exact ⟨fun _ _ => rfl, (fun _ htier => by cases htier), (fun _ htier => by cases htier),
      remaining, rfl, Or.inr fun _ htier => by cases htier⟩
  | cons tier order ih =>
    obtain ⟨hfirst, hrest⟩ := List.pairwise_cons.mp hsorted
    have hnot : ∀ chatId, tiers chatId ≠ tier →
        chatId ∉ (tierCounts tiers unreadCounts tier).map Prod.fst := by
      rintro chatId hne hmem
      obtain ⟨entry, hentry, rfl⟩ := List.mem_map.mp hmem
      exact hne (mem_tierCounts.mp hentry).2
    have hlevel : ∀ entry ∈ tierCounts tiers unreadCounts tier,
        allocation entry.1 = min (chatCap maxPerChat entry.2) 0 := fun entry hentry => by
      rw [hzero entry.1 ((mem_tierCounts.mp hentry).2 ▸ List.mem_cons_self), Nat.min_zero]
    obtain ⟨huntouched, htotal⟩ :=
      @allocateTier_total maxPerChat (tierCounts tiers unreadCounts tier) allocation remaining
    obtain ⟨hlevelled, hspent⟩ :=
      @allocateTier_levelled maxPerChat (tierCounts tiers unreadCounts tier) allocation remaining
        0 (tierCounts_nodup tier) hlevel
    have htotal := htotal unreadCounts.keys unreadCounts.nodupKeys fun entry hentry =>
      (tierCounts_sublist tier).subset (List.mem_map_of_mem hentry)
    rw [allocateTiers]
    set after := allocateTier maxPerChat (tierCounts tiers unreadCounts tier) allocation remaining
      with hafter
    have hlater : ∀ chatId, tiers chatId ∈ order → after.1 chatId = 0 := by
      intro chatId hchat
      have hne : tiers chatId ≠ tier := (hfirst _ hchat).ne'
      rw [huntouched chatId (hnot chatId hne), hzero chatId (List.mem_cons_of_mem _ hchat)]
    split
    · rename_i hzeroLeft
      refine ⟨fun chatId hchat => ?_, fun other hother => ?_, fun chatId hchat hpositive => ?_,
        after.2, htotal, Or.inl hzeroLeft⟩
      · exact huntouched chatId (hnot chatId fun hsame => hchat (hsame ▸ List.mem_cons_self))
      · rcases List.mem_cons.mp hother with rfl | hother
        · exact hlevelled
        · refine ⟨0, [], _, rfl, by simp, fun entry hentry => ?_⟩
          rw [hlater entry.1 ((mem_tierCounts.mp hentry).2 ▸ hother), Nat.min_zero]
      · intro other hother hbetter
        rcases List.mem_cons.mp hchat with hsame | hchat
        · rcases List.mem_cons.mp hother with rfl | hother
          · omega
          · have := hfirst other hother
            omega
        · exact absurd (hlater chatId hchat) hpositive
    · rename_i hleft
      have hserved := hspent.resolve_left hleft
      have hfinal : TiersAllocated maxPerChat tiers unreadCounts order after.1 after.2
          (allocateTiers maxPerChat tiers unreadCounts order after.1 after.2) :=
        ih hrest hlater
      have hkept : ∀ entry ∈ tierCounts tiers unreadCounts tier,
          allocateTiers maxPerChat tiers unreadCounts order after.1 after.2 entry.1 =
            after.1 entry.1 := by
        intro entry hentry
        refine hfinal.untouched entry.1 fun hmem => ?_
        rw [(mem_tierCounts.mp hentry).2] at hmem
        exact lt_irrefl tier (hfirst tier hmem)
      have hservedFinal : Served maxPerChat (tierCounts tiers unreadCounts tier)
          (allocateTiers maxPerChat tiers unreadCounts order after.1 after.2) :=
        fun entry hentry => (hkept entry hentry).trans (hserved entry hentry)
      refine ⟨fun chatId hchat => ?_, fun other hother => ?_, fun chatId hchat hpositive => ?_, ?_⟩
      · rw [List.mem_cons, not_or] at hchat
        rw [hfinal.untouched chatId hchat.2, huntouched chatId (hnot chatId hchat.1)]
      · rcases List.mem_cons.mp hother with rfl | hother
        · exact hlevelled.congr hkept
        · exact hfinal.levelled other hother
      · intro other hother hbetter
        rcases List.mem_cons.mp hother with rfl | hother
        · exact hservedFinal
        · rcases List.mem_cons.mp hchat with hsame | hchat
          · have := hfirst other hother
            omega
          · exact hfinal.precedence chatId hchat hpositive other hother hbetter
      · obtain ⟨rest, hsum, hrestSpent⟩ := hfinal.total
        refine ⟨rest, hsum.trans htotal, hrestSpent.imp_right fun hall other hother => ?_⟩
        rcases List.mem_cons.mp hother with rfl | hother
        · exact hservedFinal
        · exact hall other hother

/-! ## The allocation is exhaustive, tiered and fair -/

/-- The tiers of the chats stand in strictly ascending order. -/
theorem sortedTiers_pairwise : (sortedTiers tiers unreadCounts).Pairwise (· < ·) := by
  have hsorted : (sortedTiers tiers unreadCounts).Pairwise (· ≤ ·) := by
    refine (List.pairwise_mergeSort (fun a b c hab hbc => ?_) (fun a b => ?_) _).imp
      fun h => of_decide_eq_true h
    · exact decide_eq_true ((of_decide_eq_true hab).trans (of_decide_eq_true hbc))
    · simpa using le_total a b
  have hnodup : (sortedTiers tiers unreadCounts).Nodup :=
    (List.mergeSort_perm _ _).nodup_iff.mpr (List.nodup_dedup _)
  exact hsorted.imp₂ (fun _ _ hle hne => lt_of_le_of_ne hle hne) hnodup

/-- Every chat has its tier among the tiers of the chats. -/
theorem mem_sortedTiers (h : chatId ∈ unreadCounts.keys) :
    tiers chatId ∈ sortedTiers tiers unreadCounts := by
  rw [sortedTiers, List.mem_mergeSort, List.mem_dedup]
  exact List.mem_map_of_mem h

/-- What the allocation does, also where it answers at once. -/
theorem budget_spec (maxPerChat : ℕ) (tiers : ℤ → ℤ) (unreadCounts : Dictionary ℤ ℕ) (limit : ℕ) :
    TiersAllocated maxPerChat tiers unreadCounts (sortedTiers tiers unreadCounts) (fun _ => 0) limit
      (allocateMessageBudgetRoundRobin maxPerChat tiers unreadCounts limit) := by
  unfold allocateMessageBudgetRoundRobin
  split
  · rename_i hnothing
    refine ⟨fun _ _ => rfl, fun _ _ => ⟨0, [], _, rfl, by simp, by simp⟩,
      fun _ _ hpositive => absurd rfl hpositive, limit, rfl, ?_⟩
    rcases hnothing with hempty | hlimit | hcap
    · refine Or.inr fun tier _ entry hentry => ?_
      simp [tierCounts, hempty] at hentry
    · exact Or.inl hlimit
    · refine Or.inr fun tier _ entry _ => ?_
      rw [chatCap, hcap, Nat.min_zero]
  · exact allocateTiers_spec sortedTiers_pairwise fun _ _ => rfl

/-- The allocation is exhaustive, tiered and fair: nobody has more than it may have, the allocations
add up to the limit or to all that may be had, who has something has all better tiers served, and
in a tier nobody has two messages more than somebody who may have more, and one more only if it
comes first. -/
theorem allocateMessageBudget_fair (maxPerChat : ℕ) (tiers : ℤ → ℤ)
    (unreadCounts : Dictionary ℤ ℕ) (limit : ℕ) :
    (∀ chatId count, unreadCounts.lookup chatId = some count →
      allocateMessageBudgetRoundRobin maxPerChat tiers unreadCounts limit chatId ≤
        chatCap maxPerChat count) ∧
    (unreadCounts.keys.map
        (allocateMessageBudgetRoundRobin maxPerChat tiers unreadCounts limit)).sum =
      min limit (unreadCounts.entries.map fun entry => chatCap maxPerChat entry.2).sum ∧
    (∀ chatId count other otherCount, unreadCounts.lookup chatId = some count →
      unreadCounts.lookup other = some otherCount → tiers other < tiers chatId →
        0 < allocateMessageBudgetRoundRobin maxPerChat tiers unreadCounts limit chatId →
          allocateMessageBudgetRoundRobin maxPerChat tiers unreadCounts limit other =
            chatCap maxPerChat otherCount) ∧
    (∀ chatId count other otherCount, unreadCounts.lookup chatId = some count →
      unreadCounts.lookup other = some otherCount → tiers chatId = tiers other →
        allocateMessageBudgetRoundRobin maxPerChat tiers unreadCounts limit other ≠
          chatCap maxPerChat otherCount →
        allocateMessageBudgetRoundRobin maxPerChat tiers unreadCounts limit chatId ≤
            allocateMessageBudgetRoundRobin maxPerChat tiers unreadCounts limit other + 1 ∧
          (allocateMessageBudgetRoundRobin maxPerChat tiers unreadCounts limit chatId =
              allocateMessageBudgetRoundRobin maxPerChat tiers unreadCounts limit other + 1 →
            [chatId, other].Sublist unreadCounts.keys)) := by
  have hspec := budget_spec maxPerChat tiers unreadCounts limit
  set allocation := allocateMessageBudgetRoundRobin maxPerChat tiers unreadCounts limit
  have hmem : ∀ {chatId count}, unreadCounts.lookup chatId = some count →
      (chatId, count) ∈ tierCounts tiers unreadCounts (tiers chatId) ∧
        tiers chatId ∈ sortedTiers tiers unreadCounts := by
    intro chatId count hlookup
    refine ⟨mem_tierCounts.mpr ⟨hlookup, rfl⟩, mem_sortedTiers ?_⟩
    exact List.mem_map_of_mem (Dictionary.mem_entries_iff.mpr hlookup)
  have hcap : ∀ chatId count, unreadCounts.lookup chatId = some count →
      allocation chatId ≤ chatCap maxPerChat count := fun chatId count hlookup =>
    (hspec.levelled _ (hmem hlookup).2).le_cap (chatId, count) (hmem hlookup).1
  have hkeys : unreadCounts.keys.map allocation =
      unreadCounts.entries.map fun entry => allocation entry.1 := by
    rw [AList.keys, List.keys, List.map_map]
    rfl
  refine ⟨hcap, ?_, fun chatId count other otherCount hchat hother htier hpositive => ?_,
    fun chatId count other otherCount hchat hother htier hbelow => ?_⟩
  · obtain ⟨rest, hsum, hspent⟩ := hspec.total
    have hzero : (unreadCounts.keys.map fun _ => 0).sum = 0 := by simp
    rw [hzero, zero_add] at hsum
    have hle : (unreadCounts.keys.map allocation).sum ≤
        (unreadCounts.entries.map fun entry => chatCap maxPerChat entry.2).sum := by
      rw [hkeys]
      refine List.sum_le_sum fun entry hentry => ?_
      exact hcap entry.1 entry.2 (Dictionary.mem_entries_iff.mp hentry)
    rcases hspent with rfl | hserved
    · omega
    · have hall : (unreadCounts.keys.map allocation).sum =
          (unreadCounts.entries.map fun entry => chatCap maxPerChat entry.2).sum := by
        rw [hkeys]
        refine congrArg List.sum (List.map_congr_left fun entry hentry => ?_)
        have hown := hmem (Dictionary.mem_entries_iff.mp hentry)
        exact hserved _ hown.2 _ hown.1
      omega
  · exact hspec.precedence chatId (hmem hchat).2 hpositive.ne' _ (hmem hother).2 htier _
      (hmem hother).1
  · have hown := (hmem hchat).1
    rw [htier] at hown
    obtain ⟨hle, horder⟩ := (hspec.levelled _ (hmem hother).2).fair hown (hmem hother).1 hbelow
    refine ⟨hle, fun hmore => ?_⟩
    exact ((horder hmore).map Prod.fst).trans (tierCounts_sublist _)

end McpTelegram
