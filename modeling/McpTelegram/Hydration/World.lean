import McpTelegram.Hydration.Batches
import McpTelegram.Foundations.Dictionary
import McpTelegram.Foundations.Run

/-!
# Concurrent hydration batches

Any number of batches, of both tiers, between whose transactions every other component may write.
A batch starts its jobs in one transaction, waits for its request, refunds its obsolete
observations in a second one, and ends with the handler of its failure or with its result.
-/

namespace McpTelegram

open Foundations

/-- The jobs of one batch: `_select_batch` takes a chunk of the rows that `due_jobs` read for one
kind, or the single selected job, so that no identity occurs twice. -/
structure HydrationBatch where
  kind : HydrationKind
  jobs : List HydrationJob
  sameKind : ∀ job ∈ jobs, job.kind = kind
  distinct : (jobs.map HydrationJob.identity).Nodup

/-- A batch whose request is under way or answered. -/
structure FlyingBatch where
  kind : HydrationKind
  order : ℤ
  started : List HydrationJob
  /-- Whether the request failed, once the obsolete observations were looked for. -/
  swept : Option Bool := none

/-- The tables with their account, and the batches under way. -/
structure HydrationWorld where
  ledger : HydrationLedger := {}
  flying : Dictionary ℕ FlyingBatch := ∅
  nextBatch : ℕ := 0

/-- One transaction. -/
inductive HydrationStep where
  | write (write : QueueWrite)
  | startBatch (batch : HydrationBatch) (eligible : HydrationJob → Bool)
  | requeueObsolete (number : ℕ) (failed : Bool)
  | handleError (number : ℕ) (failure : HydrationFailure) (effectiveNow : ℤ)
  | applyResult (number : ℕ) (result : HydrationResult) (retryAt : ℤ)
  /-- The media scope changed, or the task was cancelled. -/
  | abandon (number : ℕ)

namespace HydrationWorld

/-- The world after a transaction. -/
def perform (maxAttempts : ℕ) (world : HydrationWorld) : HydrationStep → Option HydrationWorld
  | .write write => some { world with ledger := world.ledger.write write }
  | .startBatch batch eligible =>
    match world.ledger.startBatch maxAttempts eligible world.nextBatch batch.jobs with
    | (started, some order, ledger) =>
      some
        { ledger
          flying := world.flying.insert world.nextBatch { kind := batch.kind, order, started }
          nextBatch := world.nextBatch + 1 }
    | (_, none, ledger) => some { world with ledger, nextBatch := world.nextBatch + 1 }
  | .requeueObsolete number failed =>
    match world.flying.lookup number with
    | some ⟨kind, order, started, none⟩ =>
      some { world with
        -- A media response publishes its messages first, so nothing is obsolete yet.
        ledger :=
          if failed = false ∧ kind = .mediaMetadata then world.ledger
          else world.ledger.requeueObsoleteObservations number order started
        flying := world.flying.insert number ⟨kind, order, started, some failed⟩ }
    | _ => none
  | .handleError number failure effectiveNow =>
    match world.flying.lookup number with
    | some ⟨_, order, started, some true⟩ =>
      some { world with
        ledger := world.ledger.handleBatchError number order started effectiveNow failure
        flying := world.flying.erase number }
    | _ => none
  | .applyResult number result retryAt =>
    match world.flying.lookup number with
    | some ⟨kind, order, started, some false⟩ =>
      if result.kind = kind then
        some { world with
          ledger :=
            world.ledger.applyBatchResult maxAttempts number order started retryAt result
          flying := world.flying.erase number }
      else none
    | _ => none
  | .abandon number => some { world with flying := world.flying.erase number }

end HydrationWorld

end McpTelegram
