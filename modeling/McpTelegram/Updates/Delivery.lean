import McpTelegram.Foundations.Run

/-!
# The pending update delivery

`UpdateDeliveryRepository` of `update_delivery.py` and the two sequences that its tokens are taken
from: `allocate_observation_order` of `observation_order.py` and `allocate_observation_boundary` of
`reactions/persistence.py`.  Every method is one write transaction, so it either commits all of its
writes or leaves the database alone; the units inside it end together with it.
-/

namespace McpTelegram

open Foundations

/-! ## The tables -/

/-- `DELIVERY_FORMAT`. -/
def deliveryFormat : ℤ := 1

/-- The row of `update_delivery`.  Its key `singleton` lets the table hold one row only. -/
structure DeliveryRow where
  account : ℤ
  format : ℤ
  safeSnapshot : String
  pending : Option (List UInt8)
  deriving DecidableEq

/-- A row of `update_delivery_tokens`, whose key is the position. -/
structure DeliveryToken where
  position : ℕ
  observationOrder : ℕ
  reactionSequence : ℕ
  deriving DecidableEq

/-- The two tables, the value of `canonical_observation_sequence` in `daemon_state` and the value
of `message_reaction_observation_counter`. -/
structure DeliveryStore where
  row : Option DeliveryRow
  tokens : List DeliveryToken
  observationSequence : Option ℕ
  nextSequence : Option ℕ
  deriving DecidableEq

/-- `DeliveryState`. -/
structure DeliveryState where
  safeSnapshot : String
  pending : Option (List UInt8)
  orders : List ℕ
  reactionSequences : List ℕ
  deriving DecidableEq

namespace DeliveryStore

/-- The payload that is pending. -/
def pending (store : DeliveryStore) : Option (List UInt8) := store.row.bind DeliveryRow.pending

/-! ## The two sequences -/

/-- `allocate_observation_order`.  Past the largest integer of SQLite the sum is a floating-point
number, whose text is no integer literal. -/
def allocateObservationOrder (store : DeliveryStore) : Except String (ℕ × DeliveryStore) :=
  let value := (store.observationSequence.map (· + 1)).getD 1
  if value < 2 ^ 63 then .ok (value, { store with observationSequence := some value })
  else .error "invalid literal for int() with base 10"

/-- `allocate_observation_boundary`.  Past the largest integer of SQLite the counter is a
floating-point number, which adding one no longer changes. -/
def allocateObservationBoundary (store : DeliveryStore) : ℕ × DeliveryStore :=
  let value := store.nextSequence.getD 0
  let sequence := if value < 2 ^ 63 then value + 1 else value
  (sequence, { store with nextSequence := some sequence })

/-! ## The methods -/

/-- The pairs of `admit`. -/
def allocateTokens (store : DeliveryStore) : ℕ → Except String (List (ℕ × ℕ) × DeliveryStore)
  | 0 => .ok ([], store)
  | count + 1 => do
    let (order, store) ← store.allocateObservationOrder
    let (sequence, store) := store.allocateObservationBoundary
    let (tokens, store) ← store.allocateTokens count
    return ((order, sequence) :: tokens, store)

/-- The insertion of the pairs from a position on. -/
def insertTokens (store : DeliveryStore) (position : ℕ) :
    List (ℕ × ℕ) → Except String DeliveryStore
  | [] => .ok store
  | (order, sequence) :: tokens =>
    if 2 ^ 63 ≤ order ∨ 2 ^ 63 ≤ sequence then
      .error "Python int too large to convert to SQLite INTEGER"
    else if ∃ token ∈ store.tokens, token.position = position then
      .error "UNIQUE constraint failed: update_delivery_tokens.position"
    else
      insertTokens { store with tokens := store.tokens ++ [⟨position, order, sequence⟩] }
        (position + 1) tokens

/-- `admit`: the tokens, and the database as it is committed. -/
def admitDelivery (store : DeliveryStore) (payload : List UInt8) (count : ℕ) :
    Except String (List (ℕ × ℕ) × DeliveryStore) :=
  match store.row with
  | none => .error "an update delivery is already pending"
  | some row =>
    if row.pending ≠ none then .error "an update delivery is already pending"
    else do
      let (tokens, store) ←
        { store with row := some { row with pending := some payload } }.allocateTokens count
      let store ← store.insertTokens 0 tokens
      return (tokens, store)

/-- `complete`. -/
def complete (store : DeliveryStore) (snapshot : String) : Except String DeliveryStore :=
  match store.row with
  | none => .error "update delivery completion has no pending obligation"
  | some row =>
    if row.pending = none then .error "update delivery completion has no pending obligation"
    else
      .ok { store with
        row := some { row with safeSnapshot := snapshot, pending := none }
        tokens := [] }

/-- `tuple(sorted(set(values)))`. -/
def sortedSet (values : List ℕ) : List ℕ := values.dedup.insertionSort (· ≤ ·)

/-- `_validate_tokens` of the rows in the order of their positions. -/
def validateTokens (pending : Option (List UInt8)) (tokens : List DeliveryToken) :
    Except String (List ℕ × List ℕ) :=
  let orders := tokens.map DeliveryToken.observationOrder
  let sequences := tokens.map DeliveryToken.reactionSequence
  if pending = none ∧ tokens ≠ [] then
    .error "completed Telegram delivery has pending tokens"
  else if ∃ entry ∈ tokens.zipIdx, entry.1.position ≠ entry.2 ∨ entry.1.observationOrder ≤ 0 ∨
      entry.1.reactionSequence ≤ 0 then
    .error "retained Telegram update tokens are invalid"
  else if (sortedSet orders, sortedSet sequences) ≠ (orders, sequences) then
    .error "retained Telegram update orders are not monotonic"
  else .ok (orders, sequences)

/-- `bind`. -/
def bind (store : DeliveryStore) (account : ℤ) (baseline : String) :
    Except String (DeliveryState × DeliveryStore) :=
  if account ≤ 0 then .error "update delivery requires a validated positive account"
  else if 2 ^ 63 ≤ account then .error "Python int too large to convert to SQLite INTEGER"
  else
    let row := store.row.getD ⟨account, deliveryFormat, baseline, none⟩
    if row.account ≠ account then .error "update delivery account mismatch"
    else if row.format ≠ deliveryFormat then .error "unsupported update delivery format"
    else do
      let (orders, sequences) ← validateTokens row.pending
        (store.tokens.insertionSort fun a b => a.position ≤ b.position)
      return (⟨row.safeSnapshot, row.pending, orders, sequences⟩, { store with row := some row })

end DeliveryStore

/-! ## Runs -/

/-- An allocation by another caller: `delivered_observation_order`, with the order of the update
that is being delivered if there is one, or a reaction boundary. -/
inductive Allocation
  | observationOrder (delivered : Option ℕ)
  | reactionBoundary

/-- What a committed transaction has done to the delivery and the two sequences: it has admitted a
payload under its tokens, completed the pending one, or taken numbers for another caller. -/
inductive DeliveryEvent
  | admitted (payload : List UInt8) (tokens : List (ℕ × ℕ))
  | completed
  | allocated (orders sequences : List ℕ)

namespace DeliveryEvent

/-- The observation orders that were taken. -/
def orders : DeliveryEvent → List ℕ
  | admitted _ tokens => tokens.map Prod.fst
  | completed => []
  | allocated orders _ => orders

/-- The reaction sequences that were taken. -/
def sequences : DeliveryEvent → List ℕ
  | admitted _ tokens => tokens.map Prod.snd
  | completed => []
  | allocated _ sequences => sequences

end DeliveryEvent

/-- `delivered_observation_order` and `allocate_observation_boundary` in a transaction of another
caller: the orders and the sequences that were taken.  The order of an update that is being
delivered is not taken again. -/
def DeliveryStore.allocateAll (store : DeliveryStore) :
    List Allocation → Except String (List ℕ × List ℕ × DeliveryStore)
  | [] => .ok ([], [], store)
  | .observationOrder (some _) :: allocations => store.allocateAll allocations
  | .observationOrder none :: allocations => do
    let (order, store) ← store.allocateObservationOrder
    let (orders, sequences, store) ← store.allocateAll allocations
    return (order :: orders, sequences, store)
  | .reactionBoundary :: allocations => do
    let (sequence, store) := store.allocateObservationBoundary
    let (orders, sequences, store) ← store.allocateAll allocations
    return (orders, sequence :: sequences, store)

/-- A call: one of the three methods, or a transaction of another caller with those of its
allocations that were not rolled back to a savepoint. -/
inductive DeliveryCall
  | bind (account : ℤ) (baseline : String)
  | admitDelivery (payload : List UInt8) (count : ℕ)
  | complete (snapshot : String)
  | allocate (allocations : List Allocation)

/-- What the transaction of a call commits, unless it raises. -/
def DeliveryCall.commit (store : DeliveryStore) :
    DeliveryCall → Except String (DeliveryStore × List DeliveryEvent)
  | .bind account baseline => do
    let (_, store) ← store.bind account baseline
    return (store, [])
  | .admitDelivery payload count => do
    let (tokens, store) ← store.admitDelivery payload count
    return (store, [.admitted payload tokens])
  | .complete snapshot => do
    let store ← store.complete snapshot
    return (store, [.completed])
  | .allocate allocations => do
    let (orders, sequences, store) ← store.allocateAll allocations
    return (store, [.allocated orders sequences])

/-- How the transaction of a call ends, unless the call raises on its own account: it commits and
the call returns, a failure or a crash comes before the commit, or a failure or a crash comes after
the commit, so that the caller never learns what the call has returned. -/
inductive TransactionFate
  | returns | crashesBefore | crashesAfter

/-- The database, and what the committed transactions have done so far. -/
structure DeliveryWorld where
  store : DeliveryStore
  history : List DeliveryEvent

namespace DeliveryWorld

/-- One call. -/
def step (world : DeliveryWorld) (call : DeliveryCall × TransactionFate) : DeliveryWorld :=
  match call.2, call.1.commit world.store with
  | .crashesBefore, _ => world
  | _, .error _ => world
  | _, .ok (store, events) => ⟨store, world.history ++ events⟩

/-- The calls of a list, one after the other. -/
def run (world : DeliveryWorld) (calls : List (DeliveryCall × TransactionFate)) : DeliveryWorld :=
  calls.foldl step world

/-- A database that was never bound, with any values of the two sequences. -/
def unbound (observationSequence nextSequence : Option ℕ) : DeliveryWorld :=
  ⟨⟨none, [], observationSequence, nextSequence⟩, []⟩

end DeliveryWorld

end McpTelegram
