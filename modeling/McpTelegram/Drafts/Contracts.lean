import Mathlib.Data.String.Basic
import Mathlib.Tactic

/-!
# Drafts

`drafts/contracts.py`.  An instant is the whole number of seconds since the epoch: the code looks at
the sign of a timestamp and at its integral part, never at a fraction of a second.
-/

namespace McpTelegram

/-- The exceptions of the draft projection and of its history, with their texts. -/
inductive DraftError where
  | accountFence (text : String)
  | historyAccount (text : String)
  | versionConflict (text : String)
  | restoreUnavailable (text : String)
  | operationConflict (text : String)
  | value (text : String)
  | runtime (text : String)
  /-- A table constraint fails. -/
  | integrity
  deriving DecidableEq

/-- `_as_unix`. -/
def asUnix (instant : ℤ) : Except DraftError ℕ :=
  if instant < 0 then .error (.value "timestamp must be finite and non-negative")
  else .ok instant.toNat

/-- `DraftDisposition`. -/
inductive DraftDisposition where
  | present | tombstone
  deriving DecidableEq

/-- `DraftObservationSource`. -/
inductive DraftObservationSource where
  | realtime | snapshot
  deriving DecidableEq

/-- `CompositionCompleteness`. -/
inductive CompositionCompleteness where
  | complete | partialComposition
  deriving DecidableEq

/-- `DraftScope`: the identities are not zero. -/
structure DraftScope where
  accountId : ℤ
  dialogId : ℤ
  topMessageId : Option ℤ := none
  subdialogPeerId : Option ℤ := none
  account_ne : accountId ≠ 0 := by decide
  dialog_ne : dialogId ≠ 0 := by decide
  top_ne : topMessageId ≠ some 0 := by decide
  subdialog_ne : subdialogPeerId ≠ some 0 := by decide
  deriving DecidableEq

/-- `_scope_values`: the primary key under which a scope is stored. -/
def DraftScope.key (scope : DraftScope) : ℤ ×ₗ ℤ ×ₗ ℤ ×ₗ ℤ :=
  toLex (scope.accountId, toLex (scope.dialogId, toLex (scope.topMessageId.getD 0,
    scope.subdialogPeerId.getD 0)))

/-- `DraftEntity`. -/
structure DraftEntity where
  kind : String
  offsetUtf16 : ℕ
  lengthUtf16 : ℕ
  referenceId : Option ℤ := none
  language : Option String := none
  deriving DecidableEq

/-- `DraftReference`. -/
structure DraftReference where
  kind : String
  identifier : Option ℤ := none
  peerId : Option ℤ := none
  messageId : Option ℤ := none
  deriving DecidableEq

/-- `DraftComposition`. -/
structure DraftComposition where
  text : String
  date : Option ℤ
  entities : List DraftEntity := []
  reply : Option DraftReference := none
  story : Option DraftReference := none
  quote : Option DraftReference := none
  monoforum : Option DraftReference := none
  media : Option DraftReference := none
  rich : Option DraftReference := none
  noWebpage : Option Bool := none
  invertMedia : Option Bool := none
  effectId : Option ℤ := none
  suggestedPost : Option DraftReference := none
  completeness : CompositionCompleteness := .complete
  deriving DecidableEq

/-- `RestoreSnapshot`. -/
structure RestoreSnapshot where
  payload : List UInt8
  semanticFingerprint : String
  restoreReason : Option String := none
  deriving DecidableEq

/-- `DraftObservation`: a present draft has a composition, a tombstone has none. -/
structure DraftObservation where
  scope : DraftScope
  disposition : DraftDisposition
  source : DraftObservationSource
  observedAt : ℤ
  composition : Option DraftComposition := none
  ambiguity : Bool := false
  sourceOrderAt : Option ℤ := none
  restoreSnapshot : Option RestoreSnapshot := none
  composed : composition.isSome = (disposition = .present : Bool) := by rfl

/-- `telegram_source_order_at`. -/
def DraftObservation.telegramSourceOrderAt (observation : DraftObservation) : Option ℤ :=
  observation.sourceOrderAt.or (observation.composition.bind (·.date))

/-- `SnapshotCoverage`. -/
structure SnapshotCoverage where
  accountId : ℤ
  responseComplete : Bool
  updateCount : ℕ
  hasUpdatesTooLong : Bool := false
  sourceOrderAt : Option ℤ := none
  unexpectedUpdateCount : ℕ := 0
  account_pos : 0 < accountId := by decide

/-- `authoritative`. -/
def SnapshotCoverage.authoritative (coverage : SnapshotCoverage) : Bool :=
  coverage.responseComplete && !coverage.hasUpdatesTooLong &&
    coverage.unexpectedUpdateCount = 0 && coverage.sourceOrderAt.isSome

/-- The values of `draft_sync_state.status`. -/
inductive DraftSyncStatus where
  | unknown | recoveryNeeded | recovering | ready | failed
  deriving DecidableEq

/-- The values of `draft_sync_state.coverage_status`. -/
inductive DraftCoverageStatus where
  | unknown | incomplete | complete
  deriving DecidableEq

/-- The values of `DraftApplyResult.decision`. -/
inductive DraftDecision where
  | advanced | missingSourceOrder | stale | duplicate | equalOrderConflict | scopeOrderUncertain
  | ambiguousRealtime | legacyOrderPending | snapshotSuperseded | snapshotInvalid | snapshotStale
  | snapshotConflict | snapshotScopeUncertain | authoritative
  deriving DecidableEq

/-- `DraftApplyResult`.  A work revision is the pair that the source prints, if there is one. -/
structure DraftApplyResult where
  accepted : Bool
  ambiguous : Bool := false
  revision : Option ℕ := none
  publicationChanged : Bool := false
  decision : DraftDecision
  workRevision : Option (Option (Option DraftSyncStatus × ℕ)) := none
  deriving DecidableEq

end McpTelegram
