import McpTelegram.Foundations.Failing
import McpTelegram.Updates.Delivery

/-!
# One set of orders for every delivery

The two sequences only grow, so a transaction takes numbers above all that were taken before it,
and what it took is recorded with the payload in the same commit.  The invariant `DeliveryInv` ties
the two tables to the last admission that was not completed.
-/

namespace McpTelegram

open Foundations

variable {allocations : List Allocation} {payload : List UInt8} {snapshot baseline : String}
    {account : ℤ} {state : DeliveryState} {event : DeliveryEvent}

/-! ## Taking numbers -/

namespace DeliveryStore

variable {count position : ℕ} {tokens : List (ℕ × ℕ)}

/-- The last observation order, or zero. -/
def orderFloor (store : DeliveryStore) : ℕ := store.observationSequence.getD 0

/-- The last reaction sequence, or zero. -/
def sequenceFloor (store : DeliveryStore) : ℕ := store.nextSequence.getD 0

/-- The numbers that were taken on the way from one state to another: the orders are fresh and
increasing, and so are the sequences as far as the integers of SQLite go.  The tables of the
delivery are not touched. -/
structure Takes (orders sequences : List ℕ) (before after : DeliveryStore) : Prop where
  row : after.row = before.row
  tokens : after.tokens = before.tokens
  ordersIncreasing : orders.Pairwise (· < ·)
  ordersFresh : ∀ order ∈ orders, before.orderFloor < order ∧ order ≤ after.orderFloor
  orderFloor : before.orderFloor ≤ after.orderFloor
  sequencesIncreasing : sequences.Pairwise fun a b => a < b ∨ 2 ^ 63 ≤ b
  sequencesFresh : ∀ sequence ∈ sequences,
    (before.sequenceFloor < sequence ∨ 2 ^ 63 ≤ sequence) ∧ sequence ≤ after.sequenceFloor
  sequenceFloor : before.sequenceFloor ≤ after.sequenceFloor

variable {store before middle after : DeliveryStore} {orders sequences : List ℕ}

/-- Nothing was taken. -/
theorem Takes.refl (store : DeliveryStore) : Takes [] [] store store where
  row := rfl
  tokens := rfl
  ordersIncreasing := List.Pairwise.nil
  ordersFresh := by simp
  orderFloor := le_refl _
  sequencesIncreasing := List.Pairwise.nil
  sequencesFresh := by simp
  sequenceFloor := le_refl _

/-- What was taken first and what was taken then. -/
theorem Takes.trans {moreOrders moreSequences : List ℕ} (h : Takes orders sequences before middle)
    (hmore : Takes moreOrders moreSequences middle after) :
    Takes (orders ++ moreOrders) (sequences ++ moreSequences) before after where
  row := hmore.row.trans h.row
  tokens := hmore.tokens.trans h.tokens
  ordersIncreasing := by
    refine List.pairwise_append.mpr ⟨h.ordersIncreasing, hmore.ordersIncreasing, ?_⟩
    intro a ha b hb
    exact (h.ordersFresh a ha).2.trans_lt (hmore.ordersFresh b hb).1
  ordersFresh := by
    intro order horder
    rcases List.mem_append.mp horder with horder | horder
    · exact ⟨(h.ordersFresh order horder).1, (h.ordersFresh order horder).2.trans hmore.orderFloor⟩
    · exact ⟨h.orderFloor.trans_lt (hmore.ordersFresh order horder).1,
        (hmore.ordersFresh order horder).2⟩
  orderFloor := h.orderFloor.trans hmore.orderFloor
  sequencesIncreasing := by
    refine List.pairwise_append.mpr ⟨h.sequencesIncreasing, hmore.sequencesIncreasing, ?_⟩
    intro a ha b hb
    exact (hmore.sequencesFresh b hb).1.imp_left (h.sequencesFresh a ha).2.trans_lt
  sequencesFresh := by
    intro sequence hsequence
    rcases List.mem_append.mp hsequence with hsequence | hsequence
    · obtain ⟨hfresh, hle⟩ := h.sequencesFresh sequence hsequence
      exact ⟨hfresh, hle.trans hmore.sequenceFloor⟩
    · obtain ⟨hfresh, hle⟩ := hmore.sequencesFresh sequence hsequence
      exact ⟨hfresh.imp_left h.sequenceFloor.trans_lt, hle⟩
  sequenceFloor := h.sequenceFloor.trans hmore.sequenceFloor

/-- One order is taken. -/
theorem allocateObservationOrder_takes {order : ℕ}
    (h : before.allocateObservationOrder = .ok (order, after)) : Takes [order] [] before after := by
  unfold allocateObservationOrder at h
  dsimp only at h
  split at h
  · cases h
    have hfloor : before.orderFloor < (before.observationSequence.map (· + 1)).getD 1 := by
      unfold DeliveryStore.orderFloor
      cases before.observationSequence <;> simp
    refine ⟨rfl, rfl, List.pairwise_singleton _ _, ?_, hfloor.le, List.Pairwise.nil, by simp,
      le_refl _⟩
    intro order horder
    rw [List.mem_singleton.mp horder]
    exact ⟨hfloor, le_refl _⟩
  · cases h

/-- One sequence is taken. -/
theorem allocateObservationBoundary_takes (store : DeliveryStore) :
    Takes [] [store.allocateObservationBoundary.1] store store.allocateObservationBoundary.2 := by
  have hfloor : store.sequenceFloor < store.allocateObservationBoundary.1 ∨
      2 ^ 63 ≤ store.allocateObservationBoundary.1 := by
    unfold allocateObservationBoundary DeliveryStore.sequenceFloor
    dsimp only
    split <;> omega
  have hle : store.sequenceFloor ≤ store.allocateObservationBoundary.1 := by
    unfold allocateObservationBoundary DeliveryStore.sequenceFloor
    dsimp only
    split <;> omega
  refine ⟨rfl, rfl, List.Pairwise.nil, by simp, le_refl _, List.pairwise_singleton _ _, ?_, hle⟩
  intro sequence hsequence
  rw [List.mem_singleton.mp hsequence]
  exact ⟨hfloor, le_refl _⟩

/-- The pairs of an admission. -/
theorem allocateTokens_takes (h : before.allocateTokens count = .ok (tokens, after)) :
    Takes (tokens.map Prod.fst) (tokens.map Prod.snd) before after := by
  induction count generalizing before tokens with
  | zero =>
    cases h
    exact Takes.refl _
  | succ count ih =>
    rw [allocateTokens] at h
    obtain ⟨⟨order, ordered⟩, horder, h⟩ := except_bind_eq_ok.mp h
    obtain ⟨⟨rest, last⟩, hrest, h⟩ := except_bind_eq_ok.mp h
    cases h
    exact (allocateObservationOrder_takes horder).trans
      ((allocateObservationBoundary_takes ordered).trans (ih hrest))

/-- The numbers of another caller. -/
theorem allocateAll_takes (h : before.allocateAll allocations = .ok (orders, sequences, after)) :
    Takes orders sequences before after := by
  induction allocations generalizing before orders sequences with
  | nil =>
    cases h
    exact Takes.refl _
  | cons allocation allocations ih =>
    rcases allocation with ⟨_ | delivered⟩ | _
    · rw [allocateAll] at h
      obtain ⟨⟨order, ordered⟩, horder, h⟩ := except_bind_eq_ok.mp h
      obtain ⟨⟨moreOrders, moreSequences, last⟩, hrest, h⟩ := except_bind_eq_ok.mp h
      cases h
      exact (allocateObservationOrder_takes horder).trans (ih hrest)
    · rw [allocateAll] at h
      exact ih h
    · rw [allocateAll] at h
      obtain ⟨⟨moreOrders, moreSequences, last⟩, hrest, h⟩ := except_bind_eq_ok.mp h
      cases h
      exact (allocateObservationBoundary_takes before).trans (ih hrest)

/-! ## The rows of the tokens -/

/-- The rows of `update_delivery_tokens` for a list of pairs, from a position on. -/
def numberTokens (position : ℕ) : List (ℕ × ℕ) → List DeliveryToken
  | [] => []
  | (order, sequence) :: tokens => ⟨position, order, sequence⟩ :: numberTokens (position + 1) tokens

/-- The positions start where the numbering starts. -/
theorem le_position_of_mem_numberTokens {token : DeliveryToken}
    (h : token ∈ numberTokens position tokens) : position ≤ token.position := by
  induction tokens generalizing position with
  | nil => cases h
  | cons pair tokens ih =>
    rcases List.mem_cons.mp h with rfl | h
    · exact le_refl _
    · exact (Nat.le_succ _).trans (ih h)

/-- The rows are in the order of their positions. -/
theorem numberTokens_pairwise (position : ℕ) (tokens : List (ℕ × ℕ)) :
    (numberTokens position tokens).Pairwise fun a b => a.position ≤ b.position := by
  induction tokens generalizing position with
  | nil => exact List.Pairwise.nil
  | cons pair tokens ih =>
    refine List.Pairwise.cons ?_ (ih (position + 1))
    intro token htoken
    exact (Nat.le_succ _).trans (le_position_of_mem_numberTokens htoken)

theorem insertionSort_numberTokens (position : ℕ) (tokens : List (ℕ × ℕ)) :
    ((numberTokens position tokens).insertionSort fun a b => a.position ≤ b.position) =
      numberTokens position tokens :=
  (numberTokens_pairwise position tokens).insertionSort_eq

@[simp] theorem numberTokens_orders (position : ℕ) (tokens : List (ℕ × ℕ)) :
    (numberTokens position tokens).map DeliveryToken.observationOrder = tokens.map Prod.fst := by
  induction tokens generalizing position with
  | nil => rfl
  | cons pair tokens ih => exact congrArg (pair.1 :: ·) (ih (position + 1))

@[simp] theorem numberTokens_sequences (position : ℕ) (tokens : List (ℕ × ℕ)) :
    (numberTokens position tokens).map DeliveryToken.reactionSequence = tokens.map Prod.snd := by
  induction tokens generalizing position with
  | nil => rfl
  | cons pair tokens ih => exact congrArg (pair.2 :: ·) (ih (position + 1))

/-- Every row stands at its own index, under one of the pairs. -/
theorem numberTokens_zipIdx {entry : DeliveryToken × ℕ}
    (h : entry ∈ (numberTokens position tokens).zipIdx position) :
    entry.1.position = entry.2 ∧
      (entry.1.observationOrder, entry.1.reactionSequence) ∈ tokens := by
  induction tokens generalizing position with
  | nil => cases h
  | cons pair tokens ih =>
    rw [numberTokens, List.zipIdx_cons] at h
    rcases List.mem_cons.mp h with rfl | h
    · exact ⟨rfl, List.mem_cons_self⟩
    · exact (ih h).imp id (List.mem_cons_of_mem pair)

/-- Insertion that does not raise appends the rows, and SQLite can hold all of their numbers. -/
theorem insertTokens_ok (h : before.insertTokens position tokens = .ok after) :
    after = { before with tokens := before.tokens ++ numberTokens position tokens } ∧
      ∀ pair ∈ tokens, pair.2 < 2 ^ 63 := by
  induction tokens generalizing before position with
  | nil =>
    cases h
    exact ⟨by rw [numberTokens, List.append_nil], by simp⟩
  | cons pair tokens ih =>
    rw [insertTokens] at h
    split at h
    · cases h
    · rename_i hsmall
      split at h
      · cases h
      · obtain ⟨rfl, hrest⟩ := ih h
        refine ⟨by rw [numberTokens, List.append_assoc]; rfl, ?_⟩
        intro other hother
        rcases List.mem_cons.mp hother with rfl | hother
        · omega
        · exact hrest other hother

/-! ## The methods -/

/-- Numbers that a delivery can be applied under: positive and strictly increasing. -/
structure TokensValid (tokens : List (ℕ × ℕ)) : Prop where
  ordersIncreasing : (tokens.map Prod.fst).Pairwise (· < ·)
  sequencesIncreasing : (tokens.map Prod.snd).Pairwise (· < ·)
  positive : ∀ pair ∈ tokens, 0 < pair.1 ∧ 0 < pair.2

/-- Pairs that were taken and that SQLite can hold are such numbers. -/
theorem Takes.tokensValid (h : Takes (tokens.map Prod.fst) (tokens.map Prod.snd) before after)
    (hsmall : ∀ pair ∈ tokens, pair.2 < 2 ^ 63) : TokensValid tokens where
  ordersIncreasing := h.ordersIncreasing
  sequencesIncreasing := by
    refine h.sequencesIncreasing.imp_of_mem ?_
    rintro a b - hb (hlt | hle)
    · exact hlt
    · obtain ⟨pair, hpair, rfl⟩ := List.mem_map.mp hb
      exact absurd (hsmall pair hpair) hle.not_gt
  positive := by
    intro pair hpair
    have horder := (h.ordersFresh pair.1 (List.mem_map_of_mem hpair)).1
    have hsequence := (h.sequencesFresh pair.2 (List.mem_map_of_mem hpair)).1
    have hlt := hsmall pair hpair
    exact ⟨by omega, by omega⟩

/-- An increasing list is the sorted list of its members. -/
theorem sortedSet_of_pairwise {values : List ℕ} (h : values.Pairwise (· < ·)) :
    sortedSet values = values := by
  have hnodup : values.Nodup := h.imp ne_of_lt
  rw [sortedSet, hnodup.dedup, (h.imp le_of_lt).insertionSort_eq]

/-- The tokens of a pending payload pass the check. -/
theorem validateTokens_numberTokens {pending : Option (List UInt8)} (hvalid : TokensValid tokens)
    (hpending : pending = none → tokens = []) :
    validateTokens pending (numberTokens 0 tokens) =
      .ok (tokens.map Prod.fst, tokens.map Prod.snd) := by
  have hnone : ¬(pending = none ∧ numberTokens 0 tokens ≠ []) := by
    rintro ⟨hnone, hne⟩
    exact hne (by rw [hpending hnone, numberTokens])
  have hrows : ¬∃ entry ∈ (numberTokens 0 tokens).zipIdx, entry.1.position ≠ entry.2 ∨
      entry.1.observationOrder ≤ 0 ∨ entry.1.reactionSequence ≤ 0 := by
    rintro ⟨entry, hentry, hbad⟩
    obtain ⟨hposition, hmem⟩ := numberTokens_zipIdx hentry
    have hpositive := hvalid.positive _ hmem
    dsimp only at hpositive
    omega
  rw [validateTokens, if_neg hnone, if_neg hrows, numberTokens_orders, numberTokens_sequences,
    sortedSet_of_pairwise hvalid.ordersIncreasing, sortedSet_of_pairwise hvalid.sequencesIncreasing,
    if_neg fun h => h rfl]

/-- A payload is admitted only while none is pending, and it is stored with its tokens. -/
theorem admitDelivery_ok (h : before.admitDelivery payload count = .ok (tokens, after)) :
    ∃ row, before.row = some row ∧ row.pending = none ∧
      after.row = some { row with pending := some payload } ∧
      after.tokens = before.tokens ++ numberTokens 0 tokens ∧
      (∀ pair ∈ tokens, pair.2 < 2 ^ 63) ∧
      ∃ middle : DeliveryStore, Takes (tokens.map Prod.fst) (tokens.map Prod.snd)
        { before with row := some { row with pending := some payload } } middle ∧
        after.orderFloor = middle.orderFloor ∧ after.sequenceFloor = middle.sequenceFloor := by
  unfold admitDelivery at h
  split at h
  · cases h
  · rename_i row hrow
    split at h
    · cases h
    · rename_i hpending
      obtain ⟨⟨pairs, middle⟩, hpairs, h⟩ := except_bind_eq_ok.mp h
      obtain ⟨last, hinsert, h⟩ := except_bind_eq_ok.mp h
      cases h
      have htakes := allocateTokens_takes hpairs
      obtain ⟨rfl, hsmall⟩ := insertTokens_ok hinsert
      refine ⟨row, hrow, not_not.mp hpending, htakes.row, ?_, hsmall, middle, htakes, rfl, rfl⟩
      exact congrArg (· ++ numberTokens 0 tokens) htakes.tokens

/-- A payload is completed only while it is pending, and the snapshot is replaced in the same
transaction that clears the payload and its tokens. -/
theorem complete_ok (h : before.complete snapshot = .ok after) :
    ∃ row, before.row = some row ∧ row.pending ≠ none ∧
      after = { before with
        row := some { row with safeSnapshot := snapshot, pending := none }, tokens := [] } := by
  unfold complete at h
  split at h
  · cases h
  · rename_i row hrow
    split at h
    · cases h
    · rename_i hpending
      cases h
      exact ⟨row, hrow, hpending, rfl⟩

/-- A bind that returns has found or made a row of its account. -/
theorem bind_ok (h : before.bind account baseline = .ok (state, after)) :
    0 < account ∧ account < 2 ^ 63 ∧ ∃ row,
      row = before.row.getD ⟨account, deliveryFormat, baseline, none⟩ ∧ row.account = account ∧
      row.format = deliveryFormat ∧ after = { before with row := some row } := by
  unfold DeliveryStore.bind at h
  split at h
  · cases h
  · split at h
    · cases h
    · dsimp only at h
      split at h
      · cases h
      · split at h
        · cases h
        · rename_i hpositive hsmall haccount hformat
          obtain ⟨validated, -, h⟩ := except_bind_eq_ok.mp h
          cases h
          exact ⟨by omega, by omega, _, rfl, not_not.mp haccount, not_not.mp hformat, rfl⟩

end DeliveryStore

/-! ## The history -/

/-- The last admission, unless it was completed: its payload and the tokens that `admit` has
returned, or would have returned. -/
def outstanding (history : List DeliveryEvent) : Option (List UInt8 × List (ℕ × ℕ)) :=
  history.foldl (fun pending event =>
    match event with
    | .admitted payload tokens => some (payload, tokens)
    | .completed => none
    | .allocated _ _ => pending) none

/-- The admissions of a history. -/
def admissions (history : List DeliveryEvent) : List (List UInt8 × List (ℕ × ℕ)) :=
  history.filterMap fun event =>
    match event with
    | .admitted payload tokens => some (payload, tokens)
    | _ => none

/-- The number of completions of a history. -/
def completions (history : List DeliveryEvent) : ℕ :=
  history.countP fun event =>
    match event with
    | .completed => true
    | _ => false

/-- A payload is admitted only after the one before it was completed, under positive and increasing
numbers that are above all numbers taken earlier. -/
def AdmittedInOrder (history : List DeliveryEvent) : Prop :=
  ∀ before payload tokens after, history = before ++ .admitted payload tokens :: after →
    outstanding before = none ∧ DeliveryStore.TokensValid tokens ∧
      (∀ order ∈ before.flatMap DeliveryEvent.orders, ∀ pair ∈ tokens, order < pair.1) ∧
      ∀ sequence ∈ before.flatMap DeliveryEvent.sequences, ∀ pair ∈ tokens, sequence < pair.2

section Histories

variable {history : List DeliveryEvent}

/-- The outstanding admission is one of the history. -/
theorem exists_of_outstanding {tokens : List (ℕ × ℕ)}
    (h : outstanding history = some (payload, tokens)) :
    ∃ before after, history = before ++ .admitted payload tokens :: after := by
  induction history using List.reverseRecOn with
  | nil => cases h
  | append_singleton history event ih =>
    rw [outstanding, List.foldl_append] at h
    cases event with
    | admitted newPayload newTokens =>
      cases h
      exact ⟨history, [], rfl⟩
    | completed => cases h
    | allocated orders sequences =>
      obtain ⟨before, after, rfl⟩ := ih h
      exact ⟨before, after ++ [.allocated orders sequences], by simp⟩

/-- One more event keeps the order when, if it is an admission, it comes in order. -/
theorem AdmittedInOrder.concat (h : AdmittedInOrder history)
    (hevent : ∀ payload tokens, event = .admitted payload tokens →
      outstanding history = none ∧ DeliveryStore.TokensValid tokens ∧
        (∀ order ∈ history.flatMap DeliveryEvent.orders, ∀ pair ∈ tokens, order < pair.1) ∧
        ∀ sequence ∈ history.flatMap DeliveryEvent.sequences, ∀ pair ∈ tokens,
          sequence < pair.2) : AdmittedInOrder (history ++ [event]) := by
  intro before payload tokens after hsplit
  rcases List.eq_nil_or_concat after with rfl | ⟨initial, last, rfl⟩
  · obtain ⟨rfl, hlast⟩ := List.append_inj' hsplit rfl
    exact hevent payload tokens (List.head_eq_of_cons_eq hlast)
  · have hassoc : history ++ [event] =
        (before ++ .admitted payload tokens :: initial) ++ [last] := by
      rw [hsplit, List.append_assoc, List.cons_append, List.concat_eq_append]
    exact h before payload tokens initial (List.append_inj' hassoc rfl).1

/-- Of two admissions the later one has the greater numbers. -/
theorem AdmittedInOrder.pairwise (h : AdmittedInOrder history) :
    (admissions history).Pairwise fun a b =>
      ∀ earlier ∈ a.2, ∀ later ∈ b.2, earlier.1 < later.1 ∧ earlier.2 < later.2 := by
  induction history using List.reverseRecOn with
  | nil => exact List.Pairwise.nil
  | append_singleton history event ih =>
    have hbefore : AdmittedInOrder history := by
      intro before payload tokens after hsplit
      exact h before payload tokens (after ++ [event]) (by rw [hsplit]; simp)
    rw [admissions, List.filterMap_append]
    refine List.pairwise_append.mpr ⟨ih hbefore, ?_, ?_⟩
    · cases event <;> simp
    · intro a ha b hb earlier hearlier later hlater
      cases event with
      | admitted payload tokens =>
        obtain rfl : b = (payload, tokens) := by simpa using hb
        obtain ⟨-, -, horders, hsequences⟩ := h history payload tokens [] rfl
        obtain ⟨other, hother, hsome⟩ := List.mem_filterMap.mp ha
        cases other with
        | admitted otherPayload otherTokens =>
          cases hsome
          have horder : earlier.1 ∈ history.flatMap DeliveryEvent.orders :=
            List.mem_flatMap.mpr ⟨_, hother, List.mem_map_of_mem hearlier⟩
          have hsequence : earlier.2 ∈ history.flatMap DeliveryEvent.sequences :=
            List.mem_flatMap.mpr ⟨_, hother, List.mem_map_of_mem hearlier⟩
          exact ⟨horders _ horder later hlater, hsequences _ hsequence later hlater⟩
        | completed => cases hsome
        | allocated orders sequences => cases hsome
      | completed => simp at hb
      | allocated orders sequences => simp at hb

end Histories

/-! ## The invariant -/

/-- The tables hold the outstanding admission, and the two sequences are above all that was
taken. -/
structure DeliveryInv (world : DeliveryWorld) : Prop where
  pending : world.store.pending = (outstanding world.history).map Prod.fst
  tokens : world.store.tokens =
    DeliveryStore.numberTokens 0 (((outstanding world.history).map Prod.snd).getD [])
  bound : ∀ row ∈ world.store.row,
    0 < row.account ∧ row.account < 2 ^ 63 ∧ row.format = deliveryFormat
  orders : ∀ order ∈ world.history.flatMap DeliveryEvent.orders,
    order ≤ world.store.orderFloor
  sequences : ∀ sequence ∈ world.history.flatMap DeliveryEvent.sequences,
    sequence ≤ world.store.sequenceFloor
  inOrder : AdmittedInOrder world.history
  count : (admissions world.history).length =
    completions world.history + if (outstanding world.history).isSome then 1 else 0

namespace DeliveryWorld

variable {world : DeliveryWorld}
variable {store : DeliveryStore} {row : DeliveryRow}

/-- A call leaves the world alone, or it commits. -/
theorem step_cases (world : DeliveryWorld) (call : DeliveryCall × TransactionFate) :
    world.step call = world ∨ ∃ store events, call.1.commit world.store = .ok (store, events) ∧
      world.step call = ⟨store, world.history ++ events⟩ := by
  obtain ⟨call, fate⟩ := call
  unfold step
  cases hcommit : call.commit world.store with
  | error error => cases fate <;> exact .inl rfl
  | ok committed =>
    cases fate with
    | crashesBefore => exact .inl rfl
    | returns => exact .inr ⟨committed.1, committed.2, rfl, rfl⟩
    | crashesAfter => exact .inr ⟨committed.1, committed.2, rfl, rfl⟩

/-- The database that was never bound. -/
theorem unbound_inv (observationSequence nextSequence : Option ℕ) :
    DeliveryInv (unbound observationSequence nextSequence) where
  pending := rfl
  tokens := rfl
  bound := by simp [unbound]
  orders := by simp [unbound]
  sequences := by simp [unbound]
  inOrder := by
    intro before payload tokens after h
    simp [unbound] at h
  count := rfl

/-- What was taken by one more transaction stays below the sequences. -/
theorem taken_concat {taken : DeliveryEvent → List ℕ} {history : List DeliveryEvent}
    {floor newFloor : ℕ} (h : ∀ number ∈ history.flatMap taken, number ≤ floor)
    (hle : floor ≤ newFloor) (hevent : ∀ number ∈ taken event, number ≤ newFloor) :
    ∀ number ∈ (history ++ [event]).flatMap taken, number ≤ newFloor := by
  intro number hnumber
  rw [List.flatMap_append, List.flatMap_singleton] at hnumber
  rcases List.mem_append.mp hnumber with hnumber | hnumber
  · exact (h number hnumber).trans hle
  · exact hevent number hnumber

/-- A bind. -/
theorem bind_inv (h : DeliveryInv world)
    (hcommit : world.store.bind account baseline = .ok (state, store)) :
    DeliveryInv ⟨store, world.history⟩ := by
  obtain ⟨hpositive, hsmall, row, hrow, haccount, hformat, rfl⟩ := DeliveryStore.bind_ok hcommit
  have hpending : row.pending = world.store.pending := by
    unfold DeliveryStore.pending
    cases hstored : world.store.row with
    | none => rw [hrow, hstored]; rfl
    | some stored => rw [hrow, hstored]; rfl
  refine ⟨?_, h.tokens, ?_, h.orders, h.sequences, h.inOrder, h.count⟩
  · exact hpending.trans h.pending
  · intro other hother
    obtain rfl : row = other := by simpa using hother
    exact ⟨haccount ▸ hpositive, haccount ▸ hsmall, hformat⟩

/-- An admission. -/
theorem admitDelivery_inv (h : DeliveryInv world) {count : ℕ} {tokens : List (ℕ × ℕ)}
    (hcommit : world.store.admitDelivery payload count = .ok (tokens, store)) :
    DeliveryInv ⟨store, world.history ++ [.admitted payload tokens]⟩ := by
  obtain ⟨row, hrow, hpending, hnewRow, hnewTokens, hsmall, middle, htakes, horderFloor,
    hsequenceFloor⟩ := DeliveryStore.admitDelivery_ok hcommit
  have hnone : outstanding world.history = none := by
    have hstored : world.store.pending = none := by
      rw [DeliveryStore.pending, hrow]
      exact hpending
    rw [h.pending] at hstored
    exact Option.map_eq_none_iff.mp hstored
  have hadmitted : outstanding (world.history ++ [.admitted payload tokens]) =
      some (payload, tokens) := by
    rw [outstanding, List.foldl_append]
    rfl
  constructor
  · rw [hadmitted, DeliveryStore.pending, hnewRow]
    rfl
  · rw [hadmitted, hnewTokens, h.tokens, hnone]
    rfl
  · intro other hother
    rw [hnewRow] at hother
    cases hother
    exact h.bound row hrow
  · rw [horderFloor]
    refine taken_concat h.orders htakes.orderFloor ?_
    intro order horder
    exact (htakes.ordersFresh order horder).2
  · rw [hsequenceFloor]
    refine taken_concat h.sequences htakes.sequenceFloor ?_
    intro sequence hsequence
    exact (htakes.sequencesFresh sequence hsequence).2
  · refine h.inOrder.concat ?_
    rintro _ _ ⟨⟩
    refine ⟨hnone, htakes.tokensValid hsmall, ?_, ?_⟩
    · intro order horder pair hpair
      exact (h.orders order horder).trans_lt
        (htakes.ordersFresh pair.1 (List.mem_map_of_mem hpair)).1
    · intro sequence hsequence pair hpair
      have hfresh := (htakes.sequencesFresh pair.2 (List.mem_map_of_mem hpair)).1
      have hle := h.sequences sequence hsequence
      have hlt := hsmall pair hpair
      rcases hfresh with hfresh | hfresh
      · exact hle.trans_lt hfresh
      · exact absurd hlt hfresh.not_gt
  · have hcount := h.count
    rw [hnone] at hcount
    rw [hadmitted]
    simp only [admissions, completions, List.filterMap_append, List.length_append,
      List.countP_append] at hcount ⊢
    simp [hcount]

/-- A completion. -/
theorem complete_inv (h : DeliveryInv world) (hcommit : world.store.complete snapshot = .ok store) :
    DeliveryInv ⟨store, world.history ++ [.completed]⟩ := by
  obtain ⟨row, hrow, hpending, rfl⟩ := DeliveryStore.complete_ok hcommit
  have hsome : (outstanding world.history).isSome := by
    have hstored : world.store.pending = row.pending := by
      rw [DeliveryStore.pending, hrow]
      rfl
    rw [← Option.isSome_map (f := Prod.fst), ← h.pending, hstored]
    exact Option.ne_none_iff_isSome.mp hpending
  have hcompleted : outstanding (world.history ++ [.completed]) = none := by
    rw [outstanding, List.foldl_append]
    rfl
  constructor
  · rw [hcompleted]
    rfl
  · rw [hcompleted]
    rfl
  · intro other hother
    cases hother
    exact h.bound row hrow
  · refine taken_concat h.orders (le_refl _) ?_
    intro order horder
    cases horder
  · refine taken_concat h.sequences (le_refl _) ?_
    intro sequence hsequence
    cases hsequence
  · refine h.inOrder.concat ?_
    rintro _ _ ⟨⟩
  · have hcount := h.count
    rw [if_pos hsome] at hcount
    rw [hcompleted]
    simp only [admissions, completions, List.filterMap_append, List.length_append,
      List.countP_append] at hcount ⊢
    simp [hcount]

/-- The allocations of another caller. -/
theorem allocate_inv (h : DeliveryInv world) {orders sequences : List ℕ}
    (hcommit : world.store.allocateAll allocations = .ok (orders, sequences, store)) :
    DeliveryInv ⟨store, world.history ++ [.allocated orders sequences]⟩ := by
  have htakes := DeliveryStore.allocateAll_takes hcommit
  have houtstanding : outstanding (world.history ++ [.allocated orders sequences]) =
      outstanding world.history := by
    rw [outstanding, List.foldl_append]
    rfl
  constructor
  · rw [houtstanding, ← h.pending, DeliveryStore.pending, DeliveryStore.pending, htakes.row]
  · rw [houtstanding, ← h.tokens, htakes.tokens]
  · rw [htakes.row]
    exact h.bound
  · refine taken_concat h.orders htakes.orderFloor ?_
    intro order horder
    exact (htakes.ordersFresh order horder).2
  · refine taken_concat h.sequences htakes.sequenceFloor ?_
    intro sequence hsequence
    exact (htakes.sequencesFresh sequence hsequence).2
  · refine h.inOrder.concat ?_
    rintro _ _ ⟨⟩
  · have hcount := h.count
    rw [houtstanding]
    simp only [admissions, completions, List.filterMap_append, List.length_append,
      List.countP_append] at hcount ⊢
    simp [hcount]

/-- Every call keeps the invariant. -/
theorem step_inv (h : DeliveryInv world) (call : DeliveryCall × TransactionFate) :
    DeliveryInv (world.step call) := by
  rcases step_cases world call with hsame | ⟨store, events, hcommit, hstep⟩
  · rw [hsame]
    exact h
  · rw [hstep]
    obtain ⟨call, fate⟩ := call
    cases call with
    | bind account baseline =>
      obtain ⟨⟨state, bound⟩, hbind, hok⟩ := except_bind_eq_ok.mp hcommit
      cases hok
      rw [List.append_nil]
      exact bind_inv h hbind
    | admitDelivery payload count =>
      obtain ⟨⟨tokens, admitted⟩, hadmit, hok⟩ := except_bind_eq_ok.mp hcommit
      cases hok
      exact admitDelivery_inv h hadmit
    | complete snapshot =>
      obtain ⟨completed, hcomplete, hok⟩ := except_bind_eq_ok.mp hcommit
      cases hok
      exact complete_inv h hcomplete
    | allocate allocations =>
      obtain ⟨⟨orders, sequences, allocated⟩, hallocate, hok⟩ := except_bind_eq_ok.mp hcommit
      cases hok
      exact allocate_inv h hallocate

/-- Every run keeps the invariant. -/
theorem run_inv (h : DeliveryInv world) (calls : List (DeliveryCall × TransactionFate)) :
    DeliveryInv (world.run calls) := by
  induction calls generalizing world with
  | nil => exact h
  | cons call calls ih => exact ih (step_inv h call)

/-! ## The contract -/

/-- The tokens of the payload that is pending: those of its admission. -/
def pendingTokens (world : DeliveryWorld) : List (ℕ × ℕ) :=
  ((outstanding world.history).map Prod.snd).getD []

/-- What holds of a database and the history of its transactions. -/
structure DeliveryContract (world : DeliveryWorld) : Prop where
  /-- Only the last admission can be uncompleted, and it is the one that is pending. -/
  onePending : (admissions world.history).length =
    completions world.history + if world.store.pending.isSome then 1 else 0
  lastPending : world.store.pending = (outstanding world.history).map Prod.fst
  /-- While a payload is pending another one is refused, and nothing changes. -/
  admitRefused : world.store.pending ≠ none → ∀ payload count,
    (∃ error, world.store.admitDelivery payload count = .error error) ∧
      ∀ fate, world.step (.admitDelivery payload count, fate) = world
  /-- A bind of the bound account returns the pending payload with the tokens of its admission. -/
  bindReturns : ∀ row ∈ world.store.row, ∀ baseline,
    world.store.bind row.account baseline =
      .ok (⟨row.safeSnapshot, world.store.pending, (pendingTokens world).map Prod.fst,
        (pendingTokens world).map Prod.snd⟩, world.store)
  /-- There are tokens only while a payload is pending. -/
  tokensPending : world.store.tokens ≠ [] → world.store.pending ≠ none
  /-- The numbers of an admission are increasing and above all that were taken earlier. -/
  inOrder : AdmittedInOrder world.history
  /-- The numbers of a later admission are above those of an earlier one. -/
  disjoint : (admissions world.history).Pairwise fun a b =>
    ∀ earlier ∈ a.2, ∀ later ∈ b.2, earlier.1 < later.1 ∧ earlier.2 < later.2
  /-- The snapshot is only replaced by a completion, which clears the payload and its tokens. -/
  snapshotKept : ∀ row ∈ world.store.row, ∀ call, ∃ after ∈ (world.step call).store.row,
    after.account = row.account ∧ (after.safeSnapshot ≠ row.safeSnapshot →
      ∃ snapshot, call.1 = .complete snapshot ∧ after.safeSnapshot = snapshot ∧
        row.pending ≠ none ∧ (world.step call).store.pending = none ∧
        (world.step call).store.tokens = [])

/-- An admission while a payload is pending raises. -/
theorem admitDelivery_error (h : store.pending ≠ none) (payload : List UInt8) (count : ℕ) :
    store.admitDelivery payload count = .error "an update delivery is already pending" := by
  unfold DeliveryStore.pending at h
  unfold DeliveryStore.admitDelivery
  cases hrow : store.row with
  | none => rfl
  | some row =>
    rw [hrow] at h
    exact if_pos h

/-- A bind of the bound account does not raise. -/
theorem bind_bound (h : DeliveryInv world) (hrow : world.store.row = some row) (baseline : String) :
    world.store.bind row.account baseline =
      .ok (⟨row.safeSnapshot, world.store.pending, (pendingTokens world).map Prod.fst,
        (pendingTokens world).map Prod.snd⟩, world.store) := by
  obtain ⟨hpositive, hsmall, hformat⟩ := h.bound row hrow
  have hpending : world.store.pending = row.pending := by
    rw [DeliveryStore.pending, hrow]
    rfl
  have hvalid : DeliveryStore.TokensValid (pendingTokens world) := by
    unfold pendingTokens
    cases houtstanding : outstanding world.history with
    | none => exact ⟨List.Pairwise.nil, List.Pairwise.nil, by simp⟩
    | some admission =>
      obtain ⟨before, after, hsplit⟩ := exists_of_outstanding houtstanding
      exact (h.inOrder before admission.1 admission.2 after hsplit).2.1
  have hnone : row.pending = none → pendingTokens world = [] := by
    intro hnone
    rw [← hpending, h.pending, Option.map_eq_none_iff] at hnone
    rw [pendingTokens, hnone]
    rfl
  have hvalidated : DeliveryStore.validateTokens row.pending
      (world.store.tokens.insertionSort fun a b => a.position ≤ b.position) =
        .ok ((pendingTokens world).map Prod.fst, (pendingTokens world).map Prod.snd) := by
    rw [h.tokens, DeliveryStore.insertionSort_numberTokens]
    exact DeliveryStore.validateTokens_numberTokens hvalid hnone
  have hsame : { world.store with row := some row } = world.store := by rw [← hrow]
  unfold DeliveryStore.bind
  rw [if_neg hpositive.not_ge, if_neg hsmall.not_ge]
  dsimp only
  rw [hrow, Option.getD_some, if_neg (not_not.mpr rfl), if_neg (not_not.mpr hformat), hvalidated,
    hpending]
  exact congrArg (fun store => Except.ok (_, store)) hsame

/-- Only a completion replaces the snapshot. -/
theorem snapshot_kept (hrow : world.store.row = some row) (call : DeliveryCall × TransactionFate) :
    ∃ after ∈ (world.step call).store.row,
      after.account = row.account ∧ (after.safeSnapshot ≠ row.safeSnapshot →
        ∃ snapshot, call.1 = .complete snapshot ∧ after.safeSnapshot = snapshot ∧
          row.pending ≠ none ∧ (world.step call).store.pending = none ∧
          (world.step call).store.tokens = []) := by
  rcases step_cases world call with hsame | ⟨store, events, hcommit, hstep⟩
  · rw [hsame]
    exact ⟨row, hrow, rfl, fun hne => absurd rfl hne⟩
  · rw [hstep]
    obtain ⟨call, fate⟩ := call
    cases call with
    | bind account baseline =>
      obtain ⟨⟨state, bound⟩, hbind, hok⟩ := except_bind_eq_ok.mp hcommit
      cases hok
      obtain ⟨-, -, other, hother, -, -, rfl⟩ := DeliveryStore.bind_ok hbind
      rw [hrow] at hother
      obtain rfl : other = row := hother
      exact ⟨other, rfl, rfl, fun hne => absurd rfl hne⟩
    | admitDelivery payload count =>
      obtain ⟨⟨tokens, admitted⟩, hadmit, hok⟩ := except_bind_eq_ok.mp hcommit
      cases hok
      obtain ⟨other, hother, -, hadmitted, -⟩ := DeliveryStore.admitDelivery_ok hadmit
      obtain rfl : row = other := Option.some.inj (hrow.symm.trans hother)
      exact ⟨_, hadmitted, rfl, fun hne => absurd rfl hne⟩
    | complete snapshot =>
      obtain ⟨completed, hcomplete, hok⟩ := except_bind_eq_ok.mp hcommit
      cases hok
      obtain ⟨other, hother, hpending, rfl⟩ := DeliveryStore.complete_ok hcomplete
      obtain rfl : row = other := Option.some.inj (hrow.symm.trans hother)
      exact ⟨_, rfl, rfl, fun _ => ⟨snapshot, rfl, rfl, hpending, rfl, rfl⟩⟩
    | allocate allocations =>
      obtain ⟨⟨orders, sequences, allocated⟩, hallocate, hok⟩ := except_bind_eq_ok.mp hcommit
      cases hok
      refine ⟨row, ?_, rfl, fun hne => absurd rfl hne⟩
      rw [(DeliveryStore.allocateAll_takes hallocate).row]
      exact hrow

/-- The contract holds where the invariant does. -/
theorem contract_of_inv (h : DeliveryInv world) : DeliveryContract world where
  onePending := by
    rw [h.pending, Option.isSome_map]
    exact h.count
  lastPending := h.pending
  admitRefused := by
    intro hpending payload count
    have herror := admitDelivery_error hpending payload count
    refine ⟨⟨_, herror⟩, ?_⟩
    intro fate
    have hcommit : DeliveryCall.commit world.store (.admitDelivery payload count) =
        .error "an update delivery is already pending" := by
      rw [DeliveryCall.commit, herror]
      rfl
    unfold step
    rw [hcommit]
    cases fate <;> rfl
  bindReturns := fun row hrow baseline => bind_bound h hrow baseline
  tokensPending := by
    intro htokens hpending
    rw [h.pending, Option.map_eq_none_iff] at hpending
    apply htokens
    rw [h.tokens, hpending]
    rfl
  inOrder := h.inOrder
  disjoint := h.inOrder.pairwise
  snapshotKept := fun row hrow call => snapshot_kept hrow call

/-- From a database that was never bound, whatever methods are called and allocations made, and
wherever a call fails or the process crashes, the contract holds in every state that is reached. -/
theorem delivery_contract (observationSequence nextSequence : Option ℕ)
    (calls : List (DeliveryCall × TransactionFate)) :
    DeliveryContract ((unbound observationSequence nextSequence).run calls) :=
  contract_of_inv (run_inv (unbound_inv observationSequence nextSequence) calls)

end DeliveryWorld

end McpTelegram
