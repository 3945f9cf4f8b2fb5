import McpTelegram.Navigation.Tokens
import McpTelegram.Foundations.Dictionary
import McpTelegram.Foundations.LiveScan

/-!
# The pages of the dialog directory

`_build_dialogs_page` of `reading/service.py` with the two statements of `sqlite_projection.py`
that it reads candidates with.  A page is computed in one read transaction, so it is a function of
one state of the tables.  What the other owners answer about a dialog (its identity, its scheduled
messages, its folders, whether it holds own messages) is read from them as a function of the dialog;
the shape of the returned dialogs and the snapshots next to them are left out.  The text of a token
is the subject of `Navigation.Codec`; here a token is what the text stands for.
-/

namespace McpTelegram

open Foundations

/-- The columns of `dialogs` that the directory reads. -/
structure DialogRow where
  archived : ℤ := 0
  pinned : ℤ := 0
  hidden : ℤ := 0
  lastMessageAt : Option ℤ := none
  deriving DecidableEq

/-- `DialogIdentity`. -/
structure DialogIdentity where
  displayName : Option String := none
  username : Option String := none
  dialogType : String := "user"
  deriving DecidableEq

/-- What a page request reads. -/
structure DirectoryStore where
  dialogs : Dictionary ℤ DialogRow := ∅
  /-- `synced_dialogs.status`. -/
  syncStatus : Dictionary ℤ String := ∅
  /-- `dialog_directory_facts.archived`. -/
  archivedFacts : Dictionary ℤ (Option ℤ) := ∅
  /-- `read_dialog_identities`. -/
  identity : ℤ → DialogIdentity := fun _ => {}
  /-- Whether the scheduled coverage of the account is known. -/
  scheduledKnown : Bool := true
  /-- The two counts of `scheduled_summary_by_dialog`. -/
  scheduledSummary : ℤ → ℕ × ℕ := fun _ => (0, 0)
  /-- Whether `own_only_basis_by_dialog` has the dialog. -/
  ownBasis : ℤ → Bool := fun _ => false
  /-- The identifiers of `folders_by_dialog`. -/
  folders : ℤ → List ℤ := fun _ => []
  /-- The identifiers are SQLite integers. -/
  int64 : ∀ id, dialogs.lookup id ≠ none ∨ syncStatus.lookup id ≠ none →
    -2 ^ 63 ≤ id ∧ id < 2 ^ 63

/-- `message_state` of a request. -/
inductive DirectoryMessageState where
  | sent | scheduled | all
  deriving DecidableEq

/-- An accepted request of a verified account: what `_directory_request_error` and
`_list_dialogs_request_error` leave. -/
structure DirectoryRequest where
  account : ℤ
  excludeArchived : Bool := false
  ignorePinned : Bool := false
  /-- `_dialog_row_matches_filter` for the name filter of the request. -/
  nameMatches : Option String → Option String → Bool := fun _ _ => true
  messageState : DirectoryMessageState := .all
  ownOnly : Bool := false
  folderId : Option ℤ := none
  dialogType : Option String := none
  excludeSelf : Bool := false
  lastMessageSinceUtc : Option ℤ := none
  lastMessageUntilUtc : Option ℤ := none
  limit : Option ℕ := none
  /-- `_directory_fingerprint` of the selection. -/
  fingerprint : String
  account_pos : 0 < account
  limit_valid : ∀ n, limit = some n → 1 ≤ n ∧ n ≤ 500
  fingerprint_valid : DialogDirectoryNavigationToken.validFingerprint fingerprint = true

/-- A candidate row. -/
structure DirectoryRow where
  dialogId : ℤ
  archived : ℤ
  pinned : ℤ
  lastMessageAt : Option ℤ
  deriving DecidableEq

/-- A page: the returned dialogs and its navigation. -/
structure DirectoryPage where
  dialogs : List ℤ
  upper : Option ℤ
  examined : Option ℤ
  hasMore : Bool
  nextNavigation : Option DialogDirectoryNavigationToken
  deriving DecidableEq

namespace DirectoryStore

/-! ## Candidates -/

/-- `sd.status = 'access_lost'` after the left join. -/
def accessLost (store : DirectoryStore) (id : ℤ) : Bool :=
  store.syncStatus.lookup id = some "access_lost"

/-- `:filter IS NULL OR column = :filter` for a filter that is 0 when it is on. -/
def columnPasses (on : Bool) (column : ℤ) : Bool := !on || column = 0

/-- The rows of both branches of `_DIALOG_DIRECTORY_PAGE_SQL` whose identifier passes. -/
def directoryRows (store : DirectoryStore) (request : DirectoryRequest) (within : ℤ → Bool) :
    List DirectoryRow :=
  (store.dialogs.entries.filterMap fun entry =>
      if (entry.2.hidden = 0 ∨ store.accessLost entry.1) ∧ within entry.1 ∧
          columnPasses request.excludeArchived entry.2.archived ∧
          columnPasses request.ignorePinned entry.2.pinned then
        some
          { dialogId := entry.1, archived := entry.2.archived, pinned := entry.2.pinned
            lastMessageAt := entry.2.lastMessageAt }
      else none) ++
    store.syncStatus.entries.filterMap fun entry =>
      if entry.2 = "access_lost" ∧ store.dialogs.lookup entry.1 = none ∧ within entry.1 then
        some { dialogId := entry.1, archived := 0, pinned := 0, lastMessageAt := none }
      else none

/-- `_DIALOG_DIRECTORY_UPPER_SQL`. -/
def upperBound (store : DirectoryStore) (request : DirectoryRequest) : Option ℤ :=
  ((store.directoryRows request fun _ => true).map DirectoryRow.dialogId).max?

/-- `_DIALOG_DIRECTORY_PAGE_SQL`, and without `after` `_DIALOG_DIRECTORY_FIRST_PAGE_SQL`, from
which the two conditions on `:after_id` are cut. -/
def pageRows (store : DirectoryStore) (request : DirectoryRequest) (after : Option ℤ)
    (upper : ℤ) : List DirectoryRow :=
  ((store.directoryRows request fun id => after.all (· < id) && id ≤ upper).mergeSort
    fun row row' => row.dialogId ≤ row'.dialogId).take 501

/-! ## Predicates outside SQL -/

/-- `_directory_archived_facts`. -/
def archivedFact (store : DirectoryStore) (id : ℤ) : Option Bool :=
  match store.dialogs.lookup id with
  | some row =>
    if row.hidden = 0 then
      some (decide (((store.archivedFacts.lookup id).bind fun fact => fact).getD row.archived ≠ 0))
    else none
  | none => none

/-- `_directory_time_matches`. -/
def timeMatches (request : DirectoryRequest) (row : DirectoryRow) : Bool :=
  request.lastMessageSinceUtc.all (fun lower => row.lastMessageAt.any (lower ≤ ·)) &&
    request.lastMessageUntilUtc.all fun upper => row.lastMessageAt.any (· < upper)

/-- `_directory_folder_matches`. -/
def folderMatches (store : DirectoryStore) (request : DirectoryRequest) (id : ℤ) : Bool :=
  match request.folderId with
  | none => true
  | some folder => if folder = 1 then store.archivedFact id = some true else folder ∈ store.folders id

/-- `_directory_page_matches`. -/
def pageMatches (store : DirectoryStore) (request : DirectoryRequest) (row : DirectoryRow) : Bool :=
  request.dialogType.all (fun type => (store.identity row.dialogId).dialogType = type) &&
    !(request.excludeSelf && row.dialogId = request.account) &&
    timeMatches request row && store.folderMatches request row.dialogId

/-- One row of `_select_list_dialog_rows`. -/
def selectable (store : DirectoryStore) (request : DirectoryRequest) (row : DirectoryRow) : Bool :=
  !(request.messageState ≠ .scheduled && request.ownOnly && !store.ownBasis row.dialogId) &&
    !(request.messageState = .scheduled &&
      (!store.scheduledKnown || store.scheduledSummary row.dialogId = (0, 0))) &&
    request.nameMatches (store.identity row.dialogId).displayName
      (store.identity row.dialogId).username

/-- The row is selectable and matches the page. -/
def keeps (store : DirectoryStore) (request : DirectoryRequest) (row : DirectoryRow) : Bool :=
  store.selectable request row && store.pageMatches request row

/-! ## The page -/

/-- `_directory_take_candidates`: the selected dialogs and the last examined one. -/
def takeCandidates (keeps : DirectoryRow → Bool) : ℕ → List DirectoryRow → List ℤ × Option ℤ
  | _, [] => ([], none)
  | room, row :: rows =>
    if keeps row then
      if room ≤ 1 then ([row.dialogId], some row.dialogId)
      else
        let rest := takeCandidates keeps (room - 1) rows
        (row.dialogId :: rest.1, some (rest.2.getD row.dialogId))
    else
      let rest := takeCandidates keeps room rows
      (rest.1, some (rest.2.getD row.dialogId))

/-- `has_more` of `_build_dialogs_page`. -/
def hasMore (rows candidates : List DirectoryRow) (examined : Option ℤ) : Bool :=
  examined.isSome &&
    (candidates.length < rows.length ||
      examined ≠ candidates.getLast?.map DirectoryRow.dialogId)

/-- The bound and the cursor of `_directory_candidate_rows`. -/
def readNavigation (store : DirectoryStore) (request : DirectoryRequest) :
    Option DialogDirectoryNavigationToken → Navigation (Option ℤ × Option ℤ)
  | none => .ok (store.upperBound request, none)
  | some cursor =>
    if cursor.accountId ≠ request.account ∨ cursor.fingerprint ≠ request.fingerprint then
      .error "Navigation token belongs to a different account or selection"
    else .ok (some cursor.upperDialogId, some cursor.lastDialogId)

/-- The `next_navigation` of `_directory_add_page_metadata`. -/
def nextNavigation (request : DirectoryRequest) (upper examined : Option ℤ) (hasMore : Bool) :
    Navigation (Option DialogDirectoryNavigationToken) :=
  match upper, examined with
  | some upper, some examined =>
    if hasMore then
      let token : DialogDirectoryNavigationToken :=
        { accountId := request.account, fingerprint := request.fingerprint
          lastDialogId := examined, upperDialogId := upper }
      token.validate.map fun _ => some token
    else .ok none
  | _, _ => .ok none

/-- `_build_dialogs_page`. -/
def buildDialogsPage (store : DirectoryStore) (request : DirectoryRequest)
    (navigation : Option DialogDirectoryNavigationToken) : Navigation DirectoryPage := do
  let (upper, after) ← store.readNavigation request navigation
  let rows := upper.elim [] (store.pageRows request after)
  let candidates := rows.take 500
  let (dialogs, examined) :=
    takeCandidates (store.keeps request) (request.limit.getD 100) candidates
  let hasMore := hasMore rows candidates examined
  let nextNavigation ← nextNavigation request upper examined hasMore
  return { dialogs, upper, examined, hasMore, nextNavigation }

end DirectoryStore

end McpTelegram
