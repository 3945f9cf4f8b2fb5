import Mathlib.Data.Rat.Floor
import McpTelegram.Activity.Sweep
import McpTelegram.Foundations.Dictionary
import McpTelegram.Foundations.Table

/-!
# The cold backfill

`activity_cold_backfill.py`: a pass claims a peer of `activity_dialog_state` with the retry column
as its lease, searches one page of its own messages downwards from `cold_offset_id`, and saves the
outcome if the lease is still its own.  A step is one transaction of the writer, or one answer of
Telegram; a pass may end between any two of them.  The hot columns, the last error and the
diagnostics are left out.
-/

namespace McpTelegram

open Foundations

/-- `ColdBackfillHistoryPacing`, and the timeout of a pass. -/
structure ColdPacing where
  batch : ℚ
  accessRetry : ℚ
  timeout : ℚ

/-- `max(1, math.ceil(timeout_s + pacing.history.batch_s))`. -/
def ColdPacing.leaseSeconds (pacing : ColdPacing) : ℤ := max 1 ⌈pacing.timeout + pacing.batch⌉

/-- `cold_status`. -/
inductive ColdStatus
  | pending
  | running
  | complete
  deriving DecidableEq

/-- The cold columns of a row of `activity_dialog_state`. -/
structure ColdRow where
  offsetId : Option ℕ
  status : ColdStatus
  nextRetryAt : Option ℤ
  updatedAt : ℤ

/-- A claim: `dialog_id`, `offset_id`, `claim_until` and `now` of a pass. -/
structure ColdClaim where
  dialog : ℤ
  offset : ℕ
  claimUntil : ℤ
  now : ℤ

/-- Where a pass is. -/
inductive ColdPass
  /-- The clock is read, for any due peer or for an expected dialog and offset. -/
  | claiming (expected : Option (ℤ × ℕ)) (now : ℤ)
  | sweeping (claim : ColdClaim) (phase : SweepPhase)

namespace ColdRow

/-- The row of a new peer. -/
def enrolled (now : ℤ) : ColdRow := ⟨none, .pending, none, now⟩

/-- `cold_status != 'complete'` and the retry time has come. -/
def Due (row : ColdRow) (now : ℤ) : Prop :=
  row.status ≠ .complete ∧ ∀ retryAt ∈ row.nextRetryAt, retryAt ≤ now

instance (row : ColdRow) (now : ℤ) : Decidable (row.Due now) := inferInstanceAs (Decidable (_ ∧ _))

/-- `cold_status = 'running' AND cold_next_retry_at = ?`. -/
def Held (row : ColdRow) (claimUntil : ℤ) : Prop :=
  row.status = .running ∧ row.nextRetryAt = some claimUntil

instance (row : ColdRow) (claimUntil : ℤ) : Decidable (row.Held claimUntil) :=
  inferInstanceAs (Decidable (_ ∧ _))

/-- The row that is claimed. -/
def claimed (row : ColdRow) (now claimUntil : ℤ) : ColdRow :=
  { row with status := .running, nextRetryAt := some claimUntil, updatedAt := now }

/-- `_release_cold_claim`. -/
def released (row : ColdRow) (clock : ℤ) : ColdRow :=
  { row with status := .pending, nextRetryAt := none, updatedAt := clock }

/-- The update of `_finish_cold_backfill_peer`, or of a pass whose page was not accepted or whose
budget ran out (`none`). -/
def finished (row : ColdRow) (pacing : ColdPacing) (claim : ColdClaim) (clock : ℤ) :
    Option SweepResult → ColdRow
  | none => row.released clock
  | some result =>
    if result.accepted = false then row.released clock
    else
      match result.skipReason with
      | .floodWait => row.released clock
      | .accessSkip =>
        { row with
          status := .pending
          nextRetryAt := some ⌊(claim.now : ℚ) + pacing.accessRetry⌋
          updatedAt := clock }
      | .historyFloor => { row with status := .complete, nextRetryAt := none, updatedAt := clock }
      | .none =>
        { row with
          offsetId := result.minId, status := .pending, nextRetryAt := none, updatedAt := clock }

end ColdRow

/-- The result with which a sweep ends, `none` when its budget ran out. -/
def SweepPhase.result? : SweepPhase → Option (Option SweepResult)
  | .returned result => some (some result)
  | .budgetExhausted => some none
  | _ => none

/-- The state.  Besides the rows, the lost dialogs, the own messages on Telegram and the passes, it
records the ids of the committed pages, the messages that were there ever since the peer was
enrolled, and the pass with the current claim. -/
structure ColdWorld where
  rows : Dictionary ℤ ColdRow
  lost : ℤ → Bool
  own : ℤ → List ℕ
  passes : Table ℕ ColdPass
  committed : ℤ → List ℕ
  kept : ℤ → List ℕ
  holder : ℤ → Option ℕ

/-- A step. -/
inductive ColdAction
  /-- A pass reads the clock. -/
  | start (id : ℕ) (expected : Option (ℤ × ℕ)) (now : ℤ)
  | claim (id : ℕ)
  | sweep (id : ℕ) (event : SweepEvent)
  /-- The outcome is saved. -/
  | finish (id : ℕ) (clock : ℤ)
  /-- A pass ends with an exception. -/
  | drop (id : ℕ)
  | crash
  /-- `enroll_activity_dialog`. -/
  | enroll (dialog : ℤ) (now : ℤ)
  | lose (dialog : ℤ)
  | restore (dialog : ℤ)
  | receive (dialog : ℤ) (message : ℕ)
  | delete (dialog : ℤ) (message : ℕ)

/-- `ORDER BY updated_at ASC, dialog_id ASC LIMIT 1`. -/
def firstUpdated : List (ℤ × ColdRow) → Option (ℤ × ColdRow)
  | [] => none
  | entry :: entries =>
    match firstUpdated entries with
    | none => some entry
    | some first =>
      if first.2.updatedAt < entry.2.updatedAt ∨
          first.2.updatedAt = entry.2.updatedAt ∧ first.1 < entry.1 then some first
      else some entry

namespace ColdWorld

variable (world : ColdWorld)

/-- The peer that `_claim_cold_backfill_peer` selects: the expected one if it is due, or the one of
the due peers that was updated first. -/
def selected (expected : Option (ℤ × ℕ)) (now : ℤ) : Option (ℤ × ColdRow) :=
  match expected with
  | some (dialog, offset) =>
    match world.rows.lookup dialog with
    | some row =>
      if row.offsetId.getD 0 = offset ∧ row.Due now ∧ world.lost dialog = false then
        some (dialog, row)
      else none
    | none => none
  | none =>
    firstUpdated ((world.rows.entries.map fun entry => (entry.1, entry.2)).filter
      fun entry => entry.2.Due now ∧ world.lost entry.1 = false)

/-- `_cold_claim_matches`. -/
def claimMatches (claim : ColdClaim) : Bool :=
  match world.rows.lookup claim.dialog with
  | some row =>
    row.offsetId.getD 0 = claim.offset ∧ row.Held claim.claimUntil ∧ world.lost claim.dialog = false
  | none => false

/-- A selected peer is claimed. -/
def claimPeer (id : ℕ) (now claimUntil : ℤ) (dialog : ℤ) (row : ColdRow) : ColdWorld :=
  { world with
    rows := world.rows.insert dialog (row.claimed now claimUntil)
    passes := world.passes.put id
      (.sweeping ⟨dialog, row.offsetId.getD 0, claimUntil, now⟩ .resolving)
    holder := Function.update world.holder dialog (some id) }

/-- The effects of a step of a sweep. -/
def move (id : ℕ) (claim : ColdClaim) (move : SweepMove) : ColdWorld :=
  { world with
    passes := world.passes.put id (.sweeping claim move.phase)
    committed := Function.update world.committed claim.dialog
      (world.committed claim.dialog ++ move.rows)
    lost := if move.lost then Function.update world.lost claim.dialog true else world.lost }

/-- The outcome of a pass is saved if its lease is still in the row. -/
def save (pacing : ColdPacing) (claim : ColdClaim) (clock : ℤ) (result : Option SweepResult) :
    ColdWorld :=
  match world.rows.lookup claim.dialog with
  | some row =>
    if row.Held claim.claimUntil then
      { world with
        rows := world.rows.insert claim.dialog (row.finished pacing claim clock result)
        holder := Function.update world.holder claim.dialog none }
    else world
  | none => world

/-- A peer is enrolled. -/
def enroll (dialog : ℤ) (now : ℤ) : ColdWorld :=
  match world.rows.lookup dialog with
  | some row => { world with rows := world.rows.insert dialog { row with updatedAt := now } }
  | none =>
    { world with
      rows := world.rows.insert dialog (.enrolled now)
      kept := Function.update world.kept dialog (world.own dialog) }

/-- One step, if it can be taken.  A search answers a page that is empty only when no message is
left. -/
def step (pacing : ColdPacing) (world : ColdWorld) : ColdAction → Option ColdWorld
  | .start id expected now =>
    match world.passes id with
    | some _ => none
    | none => some { world with passes := world.passes.put id (.claiming expected now) }
  | .claim id =>
    match world.passes id with
    | some (.claiming expected now) =>
      match world.selected expected now with
      | some (dialog, row) =>
        some (world.claimPeer id now (now + pacing.leaseSeconds) dialog row)
      | none => some { world with passes := world.passes.drop id }
    | _ => none
  | .sweep id event =>
    match world.passes id with
    | some (.sweeping claim phase) =>
      if event.Honest (world.own claim.dialog) claim.offset 0 1 then
        (sweepStep (world.claimMatches claim) phase event).map (world.move id claim)
      else none
    | _ => none
  | .finish id clock =>
    match world.passes id with
    | some (.sweeping claim phase) =>
      phase.result?.map fun result =>
        { world.save pacing claim clock result with passes := world.passes.drop id }
    | _ => none
  | .drop id => some { world with passes := world.passes.drop id }
  | .crash => some { world with passes := fun _ => none }
  | .enroll dialog now => some (world.enroll dialog now)
  | .lose dialog => some { world with lost := Function.update world.lost dialog true }
  | .restore dialog => some { world with lost := Function.update world.lost dialog false }
  | .receive dialog message =>
    if 0 < message then
      some { world with
        own := Function.update world.own dialog (message :: world.own dialog) }
    else none
  | .delete dialog message =>
    some { world with
      own := Function.update world.own dialog ((world.own dialog).filter (· ≠ message))
      kept := Function.update world.kept dialog ((world.kept dialog).filter (· ≠ message)) }

/-- An empty table. -/
def initial : ColdWorld where
  rows := ∅
  lost _ := false
  own _ := []
  passes _ := none
  committed _ := []
  kept _ := []
  holder _ := none

end ColdWorld

end McpTelegram
