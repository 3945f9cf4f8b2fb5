import McpTelegram.Drafts.Store

/-!
# Draft history

`drafts/history.py`: the displaced states of a scope, at most ten of them.
-/

namespace McpTelegram

open Foundations

/-- `HISTORY_LIMIT`. -/
def historyLimit : ℕ := 10

namespace DraftStore

variable (store : DraftStore)

/-- `_require_account`. -/
def requireAccount (accountId : ℤ) : Except DraftError Unit :=
  if accountId ≤ 0 ∨ store.runtime.bind (·.accountId) ≠ some accountId then
    .error (.historyAccount "draft account does not match the active account")
  else .ok ()

/-- The revision of the current row of a scope. -/
def currentRevision (scope : DraftScope) : Option ℕ :=
  (store.current.lookup scope).map (·.projectionRevision)

/-- `trim_draft_history`: of the states of a scope without its current revision, the ten with the
greatest ids stay. -/
def trimDraftHistory (scope : DraftScope) : DraftStore :=
  let displaced := store.versions.filter fun version =>
    version.scope = scope ∧ some version.sourceRevision ≠ store.currentRevision scope
  let doomed := (displaced.reverse.drop historyLimit).map (·.historyId)
  { store with versions := store.versions.filter fun version => version.historyId ∉ doomed }

/-- The copy of a current row in the history. -/
def versionOf (historyId : ℕ) (scope : DraftScope) (row : DraftRow) (now : ℕ) : DraftVersion :=
  { historyId
    scope
    sourceRevision := row.projectionRevision
    state := row.values.content.state
    text := row.values.content.text
    restorePayload := row.values.restorePayload
    semanticFingerprint := row.values.semanticFingerprint
    restoreReason := row.values.restoreReason
    sourceObservedAt := row.values.sourceObservedAt
    sourceOrderAt := row.values.sourceOrderAt
    archivedAt := now }

/-- The insertion of `archive_current_draft`: a copy of the same revision only gets a new time. -/
def insertVersion (scope : DraftScope) (row : DraftRow) (now : ℕ) : ℕ × DraftStore :=
  match store.versions.find? fun version =>
      version.scope = scope ∧ version.sourceRevision = row.projectionRevision with
  | some known =>
    (known.historyId,
      { store with
        versions := store.versions.map fun version =>
          if version.scope = scope ∧ version.sourceRevision = row.projectionRevision then
            { version with archivedAt := now }
          else version })
  | none =>
    (store.nextHistoryId,
      { store with
        versions := store.versions ++ [versionOf store.nextHistoryId scope row now]
        nextHistoryId := store.nextHistoryId + 1 })

/-- `archive_current_draft`. -/
def archiveCurrentDraft (scope : DraftScope) (now : ℕ) :
    Except DraftError (Option ℕ × DraftStore) := do
  store.requireAccount scope.accountId
  match store.current.lookup scope with
  | none => return (none, store)
  | some row =>
    let (historyId, store) := store.insertVersion scope row now
    return (some historyId, store.trimDraftHistory scope)

end DraftStore

end McpTelegram
