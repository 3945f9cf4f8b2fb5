import Mathlib
import McpTelegram.Demand.Work
import McpTelegram.Foundations.CentredWindow
import McpTelegram.Foundations.CyclicNext
import McpTelegram.History.Row

/-!
# The selection of the next peer

`DeltaGapFillDemandAdapter.status` of `delta_sync.py` and `FullSyncDemandAdapter.status` of
`sync_worker.py`: out of the dialogs that have work, the coordinator is offered one.  The forward
gap fill rotates over its dialogs.  The full synchronization rotates over the dialogs of its
backfill; only if none of them is due it looks for an automatic group, the earliest first, and only
then for a dialog whose total is missing, in a rotation of its own.
-/

namespace McpTelegram

open Foundations

/-! ## The tables -/

/-- The text of a status of `synced_dialogs`. -/
def HistoryStatus.value : HistoryStatus → String
  | .notSynced => "not_synced"
  | .syncing => "syncing"
  | .synced => "synced"
  | .ownOnly => "own_only"
  | .fragment => "fragment"
  | .accessLost => "access_lost"

/-- A row of `synced_dialogs`, as the two adapters read it. -/
structure SyncedDialog where
  dialogId : ℤ
  status : HistoryStatus
  syncProgress : Option ℤ := none
  fullSyncRetryAt : Option ℕ := none
  totalMessages : Option ℕ := none
  lastSyncedAt : Option ℕ := none
  lastDeltaCheckedAt : Option ℕ := none
  deltaRefreshRequestedAt : Option ℕ := none
  deltaMessageId : Option ℤ := none
  deltaRetryAt : Option ℕ := none
  deltaRefreshGeneration : Option ℕ := none
  deriving DecidableEq

/-- The types of `dialogs` that automatic enrollment distinguishes. -/
inductive DirectoryDialogType where
  | group | supergroup | forum | other
  deriving DecidableEq

/-- A row of `dialogs`, as the two adapters read it. -/
structure DirectoryDialog where
  dialogId : ℤ
  hidden : Bool
  type : DirectoryDialogType
  members : Option ℕ
  created : Option ℤ
  deriving DecidableEq

/-- What the two adapters read.  The numbers of `daemon_state` are written with `str`; a retry of
the total repair that is no number counts as none. -/
structure PeerStore where
  synced : List SyncedDialog
  dialogs : List DirectoryDialog
  /-- `full_history_enrollment.enabled`. -/
  enrollment : ℤ → Option Bool
  deltaPeerCursor : Option ℤ := none
  fullSyncPeerCursor : Option ℤ := none
  fullSyncTotalPeerCursor : Option ℤ := none
  automaticGroupHistoryRetry : ℤ → Option ℕ := fun _ => none
  totalMessagesRepairRetryAt : Option ℕ := none
  deltaCompletionGeneration : ℤ → Option ℕ := fun _ => none

/-- `AutomaticGroupHistory`. -/
structure AutomaticGroupHistory where
  maxMembers : ℕ
  recentDays : ℕ

/-- A dialog with work: when it is released, and what is selected. -/
structure PeerCandidate where
  releaseAt : ℕ
  dialogId : ℤ
  selected : WorkRevision
  deriving DecidableEq

/-- The status that offers a candidate. -/
def PeerCandidate.status (candidate : PeerCandidate) : DemandStatus where
  releaseAt := candidate.releaseAt
  selected := some candidate.selected

namespace PeerStore

variable (store : PeerStore)

/-- The dialog has a row in `dialogs` that is hidden. -/
def hidden (dialogId : ℤ) : Bool :=
  store.dialogs.any fun dialog => dialog.dialogId = dialogId ∧ dialog.hidden = true

/-- `full_history_enabled`, and the `JOIN` of the enrollment. -/
def fullHistoryEnabled (dialogId : ℤ) : Bool := store.enrollment dialogId = some true

/-! ## The forward gap fill -/

/-- `DELTA_AUTOMATIC_REFRESH_INTERVAL_S`. -/
def deltaAutomaticRefreshIntervalS : ℕ := 2 * 60 * 60

/-- `_delta_skip_anchor`. -/
def deltaSkipAnchor (lastSyncedAt lastDeltaCheckedAt : Option ℕ) : Option ℕ :=
  match lastDeltaCheckedAt with
  | some checkedAt => some checkedAt
  | none => lastSyncedAt

/-- `_delta_release_at`. -/
def deltaReleaseAt (lastSyncedAt lastDeltaCheckedAt refreshRequestedAt : Option ℕ) : ℕ :=
  match refreshRequestedAt with
  | some requestedAt => requestedAt
  | none =>
    match deltaSkipAnchor lastSyncedAt lastDeltaCheckedAt with
    | none => 0
    | some anchor => anchor + deltaAutomaticRefreshIntervalS

/-- The `ORDER BY` of `_SELECT_SYNCED_DIALOGS_FOR_DELTA_SQL`. -/
def deltaOrder (dialog : SyncedDialog) : Bool ×ₗ ℕ ×ₗ ℤ :=
  toLex (dialog.deltaRefreshRequestedAt.isNone,
    toLex ((dialog.deltaRefreshRequestedAt.or
      (dialog.lastDeltaCheckedAt.or dialog.lastSyncedAt)).getD 0, dialog.dialogId))

/-- `_SELECT_SYNCED_DIALOGS_FOR_DELTA_SQL`. -/
def syncedDialogsForDelta : List SyncedDialog :=
  leastFirst deltaOrder <| store.synced.filter fun dialog =>
    dialog.status = .synced ∧ store.fullHistoryEnabled dialog.dialogId = true ∧
      store.hidden dialog.dialogId = false

/-- `DeltaGapFillDemandAdapter._candidate` without the exclusion. -/
def deltaCandidate (accountId : ℕ) (dialog : SyncedDialog) : PeerCandidate where
  releaseAt := max
    (match dialog.deltaMessageId with
      | none => 0
      | some _ => deltaReleaseAt dialog.lastSyncedAt dialog.lastDeltaCheckedAt
          dialog.deltaRefreshRequestedAt)
    (dialog.deltaRetryAt.getD 0)
  dialogId := dialog.dialogId
  selected :=
    { key := ⟨.deltaGapFill, accountId, "dialog:" ++ dialog.dialogId.repr⟩
      revision := (dialog.deltaMessageId.getD 0).repr ++ ":" ++
        (dialog.deltaRefreshGeneration.getD 0).repr ++ ":" ++
          ((store.deltaCompletionGeneration dialog.dialogId).getD 0).repr }

/-- The candidates of the forward gap fill. -/
def deltaCandidates (accountId : ℕ) : List PeerCandidate :=
  store.syncedDialogsForDelta.map (store.deltaCandidate accountId)

end PeerStore

variable (store : PeerStore) (now : ℚ) (excluded : Finset WorkRevision)

/-- The candidates that are not excluded. -/
def openCandidates (candidates : List PeerCandidate) : List PeerCandidate :=
  candidates.filter fun candidate => candidate.selected ∉ excluded

/-- `DeltaGapFillDemandAdapter`. -/
structure DeltaGapFillDemandAdapter where
  accountId : ℕ

namespace DeltaGapFillDemandAdapter

variable (adapter : DeltaGapFillDemandAdapter)

/-- `DeltaGapFillDemandAdapter.status`. -/
def status : Option DemandStatus :=
  let peerCursor := store.deltaPeerCursor.getD 0
  let usable := openCandidates excluded (store.deltaCandidates adapter.accountId)
  let ready := usable.filter fun candidate => (candidate.releaseAt : ℚ) ≤ now
  let choice := if ready = [] then usable else ready
  (leastFirst (fun candidate => cyclicKey peerCursor candidate.dialogId) choice).head?.map
    PeerCandidate.status

end DeltaGapFillDemandAdapter

/-! ## The full synchronization -/

/-- The scan of the candidates in the order of the rows: the first one that is due, else the first
one of those with the least release. -/
def scanCandidates : Option PeerCandidate → List PeerCandidate → Option PeerCandidate
  | future, [] => future
  | future, candidate :: rest =>
    if candidate.selected ∈ excluded then scanCandidates future rest
    else if (candidate.releaseAt : ℚ) ≤ now then some candidate
    else if future.all fun earlier => candidate.releaseAt < earlier.releaseAt then
      scanCandidates (some candidate) rest
    else scanCandidates future rest

/-- `FullSyncDemandAdapter`, with the policy of its worker. -/
structure FullSyncDemandAdapter where
  accountId : ℕ
  automaticGroupHistory : Option AutomaticGroupHistory

namespace FullSyncDemandAdapter

variable (adapter : FullSyncDemandAdapter)

/-- `_revision`. -/
def revision (target revision : String) : WorkRevision :=
  ⟨⟨.fullSyncPage, adapter.accountId, target⟩, revision⟩

/-- The candidates of `_pending_dialog_status` in the order of the rows. -/
def pendingCandidates : List PeerCandidate :=
  let rows := store.synced.filter fun dialog =>
    (dialog.status = .syncing ∨ dialog.status = .notSynced) ∧
      store.fullHistoryEnabled dialog.dialogId = true ∧ store.hidden dialog.dialogId = false
  (leastFirst (fun dialog => cyclicKey (store.fullSyncPeerCursor.getD 0) dialog.dialogId) rows).map
    fun dialog =>
      { releaseAt := dialog.fullSyncRetryAt.getD 0
        dialogId := dialog.dialogId
        selected := adapter.revision ("dialog:" ++ dialog.dialogId.repr)
          ((dialog.syncProgress.getD 0).repr ++ ":" ++
            (if store.fullHistoryEnabled dialog.dialogId then "1" else "0") ++ ":" ++
              dialog.status.value) }

/-- `_pending_dialog_status`. -/
def pendingDialogStatus : Option PeerCandidate :=
  scanCandidates now excluded none (adapter.pendingCandidates store)

/-- The candidates of `_automatic_group_status`; `clock` is its own `int(time.time())`. -/
def automaticCandidates (clock : ℕ) : List PeerCandidate :=
  match adapter.automaticGroupHistory with
  | none => []
  | some policy =>
    let cutoff : ℤ := clock - policy.recentDays * 86400
    let rows := store.dialogs.filter fun dialog =>
      store.enrollment dialog.dialogId = none ∧ dialog.hidden = false ∧ dialog.type ≠ .other ∧
        (dialog.members.any fun members => 1 ≤ members && members ≤ policy.maxMembers) = true ∧
        dialog.created.any (cutoff ≤ ·) = true ∧
        (store.synced.all fun synced => synced.dialogId = dialog.dialogId →
          synced.status ≠ .accessLost ∧ synced.status ≠ .synced) = true
    (leastFirst DirectoryDialog.dialogId rows).map fun dialog =>
      { releaseAt := (store.automaticGroupHistoryRetry dialog.dialogId).getD 0
        dialogId := dialog.dialogId
        selected := adapter.revision ("automatic-group:" ++ dialog.dialogId.repr)
          "automatic-group" }

/-- The `key` of the `min` of `_automatic_group_status`. -/
def automaticOrder (clock : ℕ) (candidate : PeerCandidate) : Bool ×ₗ ℕ ×ₗ ℤ :=
  toLex (decide (clock < candidate.releaseAt), toLex (candidate.releaseAt, candidate.dialogId))

/-- `_automatic_group_status`. -/
def automaticGroupStatus (clock : ℕ) : Option PeerCandidate :=
  (leastFirst (automaticOrder clock)
    (openCandidates excluded (adapter.automaticCandidates store clock))).head?

/-- The candidates of `_total_repair_status` in the order of the rows. -/
def totalCandidates : List PeerCandidate :=
  let rows := store.synced.filter fun dialog =>
    dialog.totalMessages = none ∧ dialog.status ≠ .notSynced ∧ dialog.status ≠ .accessLost ∧
      store.fullHistoryEnabled dialog.dialogId = true ∧ store.hidden dialog.dialogId = false
  (leastFirst (fun dialog => cyclicKey (store.fullSyncTotalPeerCursor.getD 0) dialog.dialogId)
    rows).map fun dialog =>
      { releaseAt := max (dialog.fullSyncRetryAt.getD 0) (store.totalMessagesRepairRetryAt.getD 0)
        dialogId := dialog.dialogId
        selected := adapter.revision ("total:" ++ dialog.dialogId.repr)
          ("missing:" ++ dialog.dialogId.repr) }

/-- `_total_repair_status`. -/
def totalRepairStatus : Option PeerCandidate :=
  scanCandidates now excluded none (adapter.totalCandidates store)

/-- What `FullSyncDemandAdapter.status` offers. -/
def selection (clock : ℕ) : Option PeerCandidate :=
  let pending := adapter.pendingDialogStatus store now excluded
  match pending.filter fun candidate => (candidate.releaseAt : ℚ) ≤ now with
  | some due => some due
  | none =>
    let statuses := (adapter.automaticGroupStatus store excluded clock).toList ++
      (adapter.totalRepairStatus store now excluded).toList
    match statuses.find? fun candidate => (candidate.releaseAt : ℚ) ≤ now with
    | some due => some due
    | none => (leastFirst PeerCandidate.releaseAt (statuses ++ pending.toList)).head?

/-- `FullSyncDemandAdapter.status`. -/
def status (clock : ℕ) : Option DemandStatus :=
  (adapter.selection store now excluded clock).map PeerCandidate.status

end FullSyncDemandAdapter

/-! ## The slice of what is selected -/

/-- `int(target.split(":", 1)[1])`. -/
def dialogOfTarget (target : String) : Option ℤ :=
  (String.ofList ((target.toList.dropWhile (· ≠ ':')).drop 1)).toInt?

/-- `_dispatch_slice`: it persists the cursor before the request. -/
def DeltaGapFillDemandAdapter.dispatchSlice (selected : WorkRevision) : PeerStore :=
  match dialogOfTarget selected.key.target with
  | some dialogId => { store with deltaPeerCursor := some dialogId }
  | none => store

/-- `_dispatch_selected`: `process_one_batch` and `repair_one_total_messages` persist their cursor
before the request. -/
def FullSyncDemandAdapter.dispatchSelected (selected : WorkRevision) : PeerStore :=
  if "automatic-group:".toList.isPrefixOf selected.key.target.toList then store
  else
    match dialogOfTarget selected.key.target with
    | none => store
    | some dialogId =>
      if "dialog:".toList.isPrefixOf selected.key.target.toList then
        { store with fullSyncPeerCursor := some dialogId }
      else { store with fullSyncTotalPeerCursor := some dialogId }

/-! ## What a selection has to do -/

/-- The dialogs with a candidate that is not excluded and due. -/
def dueDialogs (candidates : List PeerCandidate) : Set ℤ :=
  {dialogId | ∃ candidate ∈ openCandidates excluded candidates,
    (candidate.releaseAt : ℚ) ≤ now ∧ candidate.dialogId = dialogId}

/-- The status offers the next due dialog behind the cursor. -/
def Rotates (status : Option DemandStatus) (cursor : Option ℤ) (candidates : List PeerCandidate) :
    Prop :=
  ∃ candidate ∈ openCandidates excluded candidates, (candidate.releaseAt : ℚ) ≤ now ∧
    status = some candidate.status ∧
    IsNext (cursor.getD 0) (dueDialogs now excluded candidates) candidate.dialogId

/-- The selection of the forward gap fill. -/
structure DeltaSelects (adapter : DeltaGapFillDemandAdapter) : Prop where
  /-- There is no status exactly if every candidate is excluded. -/
  null : adapter.status store now excluded = none ↔
    ∀ candidate ∈ store.deltaCandidates adapter.accountId, candidate.selected ∈ excluded
  /-- If a dialog is due, the next one behind the cursor is selected. -/
  due : (dueDialogs now excluded (store.deltaCandidates adapter.accountId)).Nonempty →
    Rotates now excluded (adapter.status store now excluded) store.deltaPeerCursor
      (store.deltaCandidates adapter.accountId)

/-- The selection of the full synchronization. -/
structure FullSyncSelects (clock : ℕ) (adapter : FullSyncDemandAdapter) : Prop where
  /-- There is no status exactly if every candidate is excluded. -/
  null : adapter.status store now excluded clock = none ↔
    ∀ candidate ∈ adapter.pendingCandidates store ++ adapter.automaticCandidates store clock ++
      adapter.totalCandidates store, candidate.selected ∈ excluded
  /-- If a dialog of the backfill is due, the next one behind the cursor is selected. -/
  pending : (dueDialogs now excluded (adapter.pendingCandidates store)).Nonempty →
    Rotates now excluded (adapter.status store now excluded clock) store.fullSyncPeerCursor
      (adapter.pendingCandidates store)
  /-- Otherwise, if an automatic group is due, the earliest one is selected. -/
  automatic : dueDialogs now excluded (adapter.pendingCandidates store) = ∅ →
    (dueDialogs now excluded (adapter.automaticCandidates store clock)).Nonempty →
    ∃ candidate ∈ openCandidates excluded (adapter.automaticCandidates store clock),
      (candidate.releaseAt : ℚ) ≤ now ∧
      adapter.status store now excluded clock = some candidate.status ∧
      ∀ other ∈ openCandidates excluded (adapter.automaticCandidates store clock),
        candidate.releaseAt < other.releaseAt ∨
          (candidate.releaseAt = other.releaseAt ∧ candidate.dialogId ≤ other.dialogId)
  /-- Otherwise, if a total can be repaired, the next one behind its own cursor is selected. -/
  total : dueDialogs now excluded (adapter.pendingCandidates store) = ∅ →
    dueDialogs now excluded (adapter.automaticCandidates store clock) = ∅ →
    (dueDialogs now excluded (adapter.totalCandidates store)).Nonempty →
    Rotates now excluded (adapter.status store now excluded clock) store.fullSyncTotalPeerCursor
      (adapter.totalCandidates store)
  /-- If nothing is due, the status has the least release. -/
  least : (∀ candidate ∈ openCandidates excluded (adapter.pendingCandidates store ++
      adapter.automaticCandidates store clock ++ adapter.totalCandidates store),
        now < candidate.releaseAt) →
    ∀ status ∈ adapter.status store now excluded clock,
      IsLeast {releaseAt | ∃ candidate ∈ openCandidates excluded
        (adapter.pendingCandidates store ++ adapter.automaticCandidates store clock ++
          adapter.totalCandidates store), (candidate.releaseAt : ℚ) = releaseAt} status.releaseAt

/-- One selection: the tables, the time of the coordinator and that of the adapter, and what is
excluded. -/
structure PeerRound where
  store : PeerStore
  now : ℚ
  clock : ℕ
  excluded : Finset WorkRevision

/-- The status of the forward gap fill in a round. -/
def DeltaGapFillDemandAdapter.statusAt (adapter : DeltaGapFillDemandAdapter) (round : PeerRound) :
    Option DemandStatus :=
  adapter.status round.store round.now round.excluded

/-- The status of the full synchronization in a round. -/
def FullSyncDemandAdapter.statusAt (adapter : FullSyncDemandAdapter) (round : PeerRound) :
    Option DemandStatus :=
  adapter.status round.store round.now round.excluded round.clock

/-- The dialog that a status selects. -/
def selectedDialog (status : Option DemandStatus) : Option ℤ :=
  (status.bind DemandStatus.selected).bind fun selected => dialogOfTarget selected.key.target

/-- Whoever is due at every selection is selected after no more selections than there are others
that are due. -/
def WaitsForOthers (candidates : PeerRound → List PeerCandidate)
    (status : PeerRound → Option DemandStatus) (rounds : List PeerRound) : Prop :=
  ∀ (dialogId : ℤ) (others : Finset ℤ),
    (∀ round ∈ rounds, dialogId ∈ dueDialogs round.now round.excluded (candidates round)) →
    (∀ round ∈ rounds, ∀ other ∈ dueDialogs round.now round.excluded (candidates round),
      other ≠ dialogId → other ∈ others) →
    others.card < rounds.length → ∃ round ∈ rounds, selectedDialog (status round) = some dialogId

/-- Between two selections the slice of the first one is dispatched, and nobody else moves the
cursor. -/
def CursorFollows (cursor : PeerStore → Option ℤ) (dispatch : PeerStore → WorkRevision → PeerStore)
    (status : PeerRound → Option DemandStatus) (rounds : List PeerRound) : Prop :=
  rounds.IsChain fun round round' => ∀ offered ∈ status round, ∀ selected ∈ offered.selected,
    cursor round'.store = cursor (dispatch round.store selected)

/-! ## Candidates -/

section Candidates

variable {store now excluded} {candidates : List PeerCandidate}
variable {candidate : PeerCandidate} {future choice : Option PeerCandidate}

theorem mem_openCandidates {candidate : PeerCandidate} :
    candidate ∈ openCandidates excluded candidates ↔
      candidate ∈ candidates ∧ candidate.selected ∉ excluded := by
  rw [openCandidates, List.mem_filter, decide_eq_true_iff]

/-- No candidate is open exactly if all are excluded. -/
theorem openCandidates_eq_nil_iff :
    openCandidates excluded candidates = [] ↔
      ∀ candidate ∈ candidates, candidate.selected ∈ excluded := by
  rw [openCandidates, List.filter_eq_nil_iff]
  exact forall₂_congr fun candidate _ => by rw [decide_eq_true_iff, not_not]

theorem openCandidates_append (candidates others : List PeerCandidate) :
    openCandidates excluded (candidates ++ others) =
      openCandidates excluded candidates ++ openCandidates excluded others :=
  List.filter_append _ _

/-- The first due candidate of a sorted list is the next one behind the cursor. -/
theorem isNext_of_find? {cursor : ℤ} (hsorted : candidates.Pairwise fun candidate candidate' =>
      cyclicKey cursor candidate.dialogId ≤ cyclicKey cursor candidate'.dialogId)
    (h : (openCandidates excluded candidates).find? (fun candidate =>
      (candidate.releaseAt : ℚ) ≤ now) = some candidate) :
    IsNext cursor (dueDialogs now excluded candidates) candidate.dialogId := by
  obtain ⟨hdue, before, after, hsplit, hbefore⟩ := List.find?_eq_some_iff_append.mp h
  have hmem : candidate ∈ openCandidates excluded candidates := List.mem_of_find?_eq_some h
  refine ⟨⟨candidate, hmem, of_decide_eq_true hdue, rfl⟩, ?_⟩
  rintro _ ⟨other, hother, hready, rfl⟩
  have hrest : (before ++ candidate :: after).Pairwise fun candidate candidate' =>
      cyclicKey cursor candidate.dialogId ≤ cyclicKey cursor candidate'.dialogId :=
    hsplit ▸ hsorted.sublist List.filter_sublist
  rw [hsplit] at hother
  rcases List.mem_append.mp hother with hfirst | hlater
  · have hnot := hbefore other hfirst
    rw [decide_eq_true hready] at hnot
    exact absurd hnot Bool.false_ne_true
  · rcases List.mem_cons.mp hlater with rfl | hlater
    · exact le_rfl
    · exact (List.pairwise_cons.mp (List.pairwise_append.mp hrest).2.1).1 other hlater

/-- A scan that comes to a due candidate stops there. -/
theorem scanCandidates_of_due (h : (openCandidates excluded candidates).find? (fun candidate =>
      (candidate.releaseAt : ℚ) ≤ now) = some candidate) :
    scanCandidates now excluded future candidates = some candidate := by
  induction candidates generalizing future with
  | nil => exact absurd h (Option.some_ne_none _).symm
  | cons first rest ih =>
    rw [scanCandidates]
    by_cases hexcluded : first.selected ∈ excluded
    · rw [openCandidates, List.filter_cons_of_neg (by simpa using hexcluded)] at h
      rw [if_pos hexcluded]
      exact ih h
    · rw [openCandidates, List.filter_cons_of_pos (by simpa using hexcluded),
        List.find?_cons] at h
      rw [if_neg hexcluded]
      by_cases hdue : (first.releaseAt : ℚ) ≤ now
      · rw [decide_eq_true hdue] at h
        rw [if_pos hdue]
        exact h
      · rw [decide_eq_false hdue] at h
        rw [if_neg hdue]
        split <;> exact ih h

/-- The choice is a candidate with the least release, if there is one. -/
structure LeastOf (choice : Option PeerCandidate) (candidates : List PeerCandidate) : Prop where
  null : choice = none ↔ candidates = []
  least : ∀ candidate ∈ choice, candidate ∈ candidates ∧
    ∀ other ∈ candidates, candidate.releaseAt ≤ other.releaseAt

/-- An item that is no earlier than another one does not change what is least. -/
theorem LeastOf.insert {first second : PeerCandidate} (h : LeastOf choice (first :: candidates))
    (hle : first.releaseAt ≤ second.releaseAt) {items : List PeerCandidate}
    (hitems : items.Perm (second :: first :: candidates)) : LeastOf choice items := by
  constructor
  · rw [h.null]
    refine iff_of_false (List.cons_ne_nil _ _) fun hnil => ?_
    rw [hnil] at hitems
    exact List.cons_ne_nil _ _ (List.nil_perm.mp hitems)
  · intro candidate hcandidate
    obtain ⟨hmem, hleast⟩ := h.least candidate hcandidate
    refine ⟨hitems.mem_iff.mpr (List.mem_cons_of_mem _ hmem), fun other hother => ?_⟩
    rcases List.mem_cons.mp (hitems.mem_iff.mp hother) with rfl | hother
    · exact (hleast first List.mem_cons_self).trans hle
    · exact hleast other hother

/-- A part of the items can be replaced by the items that its choice is the least of. -/
theorem LeastOf.replace {part : Option PeerCandidate} {items rest : List PeerCandidate}
    (h : LeastOf choice (part.toList ++ rest)) (hpart : LeastOf part items) :
    LeastOf choice (items ++ rest) := by
  have hnil : part.toList = [] ↔ items = [] := by
    rw [← hpart.null]
    exact Option.toList_eq_nil_iff
  constructor
  · rw [h.null, List.append_eq_nil_iff, List.append_eq_nil_iff, hnil]
  · intro candidate hcandidate
    obtain ⟨hmem, hleast⟩ := h.least candidate hcandidate
    constructor
    · rcases List.mem_append.mp hmem with hmem | hmem
      · exact List.mem_append_left _ (hpart.least candidate (Option.mem_toList.mp hmem)).1
      · exact List.mem_append_right _ hmem
    · intro other hother
      rcases List.mem_append.mp hother with hother | hother
      · obtain ⟨earliest, hearliest⟩ := Option.ne_none_iff_exists'.mp fun hnone =>
          List.ne_nil_of_mem hother (hpart.null.mp hnone)
        have hfirst := hleast earliest
          (List.mem_append_left _ (Option.mem_toList.mpr hearliest))
        exact hfirst.trans ((hpart.least earliest hearliest).2 other hother)
      · exact hleast other (List.mem_append_right _ hother)

/-- The order of the items does not matter. -/
theorem LeastOf.perm {items others : List PeerCandidate} (h : LeastOf choice items)
    (hperm : items.Perm others) : LeastOf choice others := by
  refine ⟨h.null.trans ⟨?_, ?_⟩, fun candidate hcandidate => ?_⟩
  · rintro rfl
    exact List.nil_perm.mp hperm
  · rintro rfl
    exact List.perm_nil.mp hperm
  · obtain ⟨hmem, hleast⟩ := h.least candidate hcandidate
    exact ⟨hperm.mem_iff.mp hmem, fun other hother => hleast other (hperm.mem_iff.mpr hother)⟩

/-- A scan that comes to no due candidate keeps one with the least release. -/
theorem scanCandidates_of_future
    (h : ∀ candidate ∈ openCandidates excluded candidates, now < candidate.releaseAt) :
    LeastOf (scanCandidates now excluded future candidates)
      (future.toList ++ openCandidates excluded candidates) := by
  induction candidates generalizing future with
  | nil =>
    rw [scanCandidates]
    cases future with
    | none => exact ⟨iff_of_true rfl rfl, fun _ hnone => nomatch hnone⟩
    | some earlier =>
      refine ⟨iff_of_false (Option.some_ne_none _) (List.cons_ne_nil _ _), ?_⟩
      rintro candidate ⟨⟩
      refine ⟨List.mem_singleton_self _, fun other hother => ?_⟩
      rw [List.mem_singleton.mp hother]
  | cons first rest ih =>
    rw [scanCandidates]
    by_cases hexcluded : first.selected ∈ excluded
    · rw [openCandidates, List.filter_cons_of_neg (by simpa using hexcluded)] at h ⊢
      rw [if_pos hexcluded]
      exact ih h
    · rw [openCandidates, List.filter_cons_of_pos (by simpa using hexcluded)] at h ⊢
      obtain ⟨hfirst, hrest⟩ := List.forall_mem_cons.mp h
      rw [if_neg hexcluded, if_neg (not_le.mpr hfirst)]
      cases future with
      | none => exact ih hrest
      | some earlier =>
        split
        · next hlt =>
          exact (ih hrest).insert (of_decide_eq_true hlt).le (List.Perm.refl _)
        · next hle =>
          have hearlier : earlier.releaseAt ≤ first.releaseAt :=
            not_lt.mp fun hlt => hle (decide_eq_true hlt)
          exact (ih hrest).insert hearlier (List.Perm.swap _ _ _)

/-- The head of the candidates that are sorted by their release. -/
theorem leastOf_head? (candidates : List PeerCandidate) :
    LeastOf (leastFirst PeerCandidate.releaseAt candidates).head? candidates :=
  ⟨head?_leastFirst_eq_none _, fun _ hcandidate => of_head?_leastFirst _ hcandidate⟩

/-- A dialog is due if a candidate of it is found. -/
theorem find?_of_dueDialogs (h : (dueDialogs now excluded candidates).Nonempty) :
    ∃ candidate, (openCandidates excluded candidates).find? (fun candidate =>
      (candidate.releaseAt : ℚ) ≤ now) = some candidate := by
  obtain ⟨_, candidate, hmem, hdue, rfl⟩ := h
  exact Option.isSome_iff_exists.mp
    (List.find?_isSome.mpr ⟨candidate, hmem, decide_eq_true hdue⟩)

/-- No dialog is due if every open candidate is released later. -/
theorem dueDialogs_eq_empty_iff : dueDialogs now excluded candidates = ∅ ↔
    ∀ candidate ∈ openCandidates excluded candidates, now < candidate.releaseAt := by
  rw [Set.eq_empty_iff_forall_notMem]
  constructor
  · intro h candidate hmem
    exact not_le.mp fun hdue => h candidate.dialogId ⟨candidate, hmem, hdue, rfl⟩
  · rintro h _ ⟨candidate, hmem, hdue, rfl⟩
    exact not_lt.mpr hdue (h candidate hmem)

end Candidates

/-! ## The forward gap fill -/

section Delta

variable {store now excluded} {adapter : DeltaGapFillDemandAdapter}

/-- The status of the forward gap fill is right. -/
theorem deltaSelects : DeltaSelects store now excluded adapter := by
  constructor
  · rw [DeltaGapFillDemandAdapter.status, Option.map_eq_none_iff, head?_leastFirst_eq_none,
      ← openCandidates_eq_nil_iff]
    split
    · exact Iff.rfl
    · next hready =>
      refine iff_of_false hready fun hnil => hready ?_
      rw [hnil]
      rfl
  · rintro ⟨_, candidate, hmem, hdue, rfl⟩
    have hready : candidate ∈ (openCandidates excluded
        (store.deltaCandidates adapter.accountId)).filter fun candidate =>
          (candidate.releaseAt : ℚ) ≤ now :=
      List.mem_filter.mpr ⟨hmem, decide_eq_true hdue⟩
    obtain ⟨choice, hchoice⟩ : ∃ choice, (leastFirst (fun candidate : PeerCandidate =>
        cyclicKey (store.deltaPeerCursor.getD 0) candidate.dialogId)
          ((openCandidates excluded (store.deltaCandidates adapter.accountId)).filter
            fun candidate => (candidate.releaseAt : ℚ) ≤ now)).head? = some choice :=
      Option.ne_none_iff_exists'.mp fun hnone =>
        List.ne_nil_of_mem hready ((head?_leastFirst_eq_none _).mp hnone)
    obtain ⟨hchosen, hleast⟩ := of_head?_leastFirst _ hchoice
    obtain ⟨hopen, hchosenDue⟩ := List.mem_filter.mp hchosen
    refine ⟨choice, hopen, of_decide_eq_true hchosenDue, ?_,
      ⟨choice, hopen, of_decide_eq_true hchosenDue, rfl⟩, ?_⟩
    · rw [DeltaGapFillDemandAdapter.status]
      simp only [if_neg (List.ne_nil_of_mem hready), hchoice, Option.map_some]
    · rintro _ ⟨other, hother, hotherDue, rfl⟩
      exact hleast other (List.mem_filter.mpr ⟨hother, decide_eq_true hotherDue⟩)

end Delta

/-! ## The full synchronization -/

section FullSync

variable {store now excluded} {clock : ℕ} {adapter : FullSyncDemandAdapter}
variable {candidate : PeerCandidate} {candidates : List PeerCandidate}

/-- Rows that are sorted behind a cursor give candidates that are. -/
theorem pairwise_map_leastFirst {cursor : ℤ} {rows : List SyncedDialog}
    {candidate : SyncedDialog → PeerCandidate}
    (hid : ∀ dialog, (candidate dialog).dialogId = dialog.dialogId) :
    ((leastFirst (fun dialog : SyncedDialog => cyclicKey cursor dialog.dialogId) rows).map
      candidate).Pairwise fun candidate candidate' =>
        cyclicKey cursor candidate.dialogId ≤ cyclicKey cursor candidate'.dialogId := by
  have : Std.Total fun dialog dialog' : SyncedDialog =>
    cyclicKey cursor dialog.dialogId ≤ cyclicKey cursor dialog'.dialogId :=
      ⟨fun _ _ => le_total _ _⟩
  have : IsTrans SyncedDialog fun dialog dialog' =>
    cyclicKey cursor dialog.dialogId ≤ cyclicKey cursor dialog'.dialogId :=
      ⟨fun _ _ _ => le_trans⟩
  rw [List.pairwise_map]
  simp only [hid]
  exact List.pairwise_insertionSort _ rows

/-- The automatic group with the least retry, and among these with the least id. -/
theorem automaticOrder_le {other : PeerCandidate}
    (h : FullSyncDemandAdapter.automaticOrder clock candidate ≤
      FullSyncDemandAdapter.automaticOrder clock other) :
    candidate.releaseAt < other.releaseAt ∨
      (candidate.releaseAt = other.releaseAt ∧ candidate.dialogId ≤ other.dialogId) := by
  rw [FullSyncDemandAdapter.automaticOrder, FullSyncDemandAdapter.automaticOrder,
    Prod.Lex.toLex_le_toLex] at h
  rcases h with hside | ⟨-, hrest⟩
  · rw [Bool.lt_iff, decide_eq_false_iff_not, decide_eq_true_iff, not_lt] at hside
    exact .inl (hside.1.trans_lt hside.2)
  · exact Prod.Lex.toLex_le_toLex.mp hrest

variable (store excluded clock adapter) in
/-- The automatic group that is chosen is the earliest one. -/
theorem leastOf_automaticGroupStatus :
    LeastOf (adapter.automaticGroupStatus store excluded clock)
      (openCandidates excluded (adapter.automaticCandidates store clock)) := by
  refine ⟨head?_leastFirst_eq_none _, fun candidate hcandidate => ?_⟩
  obtain ⟨hmem, hleast⟩ := of_head?_leastFirst _ hcandidate
  refine ⟨hmem, fun other hother => ?_⟩
  rcases automaticOrder_le (hleast other hother) with hlt | ⟨heq, -⟩
  · exact hlt.le
  · exact heq.le

/-- If a dialog of the backfill is due, the next one is chosen. -/
theorem selection_of_pending
    (h : (openCandidates excluded (adapter.pendingCandidates store)).find? (fun candidate =>
      (candidate.releaseAt : ℚ) ≤ now) = some candidate) :
    adapter.selection store now excluded clock = some candidate := by
  have hdue := List.find?_some h
  have hpending : adapter.pendingDialogStatus store now excluded = some candidate :=
    scanCandidates_of_due h
  rw [FullSyncDemandAdapter.selection, hpending]
  simp only [Option.filter_some, hdue, if_true]

theorem leastOf_pendingDialogStatus
    (h : dueDialogs now excluded (adapter.pendingCandidates store) = ∅) :
    LeastOf (adapter.pendingDialogStatus store now excluded)
      (openCandidates excluded (adapter.pendingCandidates store)) :=
  scanCandidates_of_future (dueDialogs_eq_empty_iff.mp h)

theorem leastOf_totalRepairStatus
    (h : dueDialogs now excluded (adapter.totalCandidates store) = ∅) :
    LeastOf (adapter.totalRepairStatus store now excluded)
      (openCandidates excluded (adapter.totalCandidates store)) :=
  scanCandidates_of_future (dueDialogs_eq_empty_iff.mp h)

/-- A choice among candidates that are not due is not due. -/
theorem LeastOf.later {choice : Option PeerCandidate}
    (h : LeastOf choice (openCandidates excluded candidates))
    (hfuture : dueDialogs now excluded candidates = ∅) :
    ∀ candidate ∈ choice, ¬ decide ((candidate.releaseAt : ℚ) ≤ now) = true := by
  intro candidate hcandidate hdue
  have hlater := dueDialogs_eq_empty_iff.mp hfuture candidate (h.least candidate hcandidate).1
  exact absurd (of_decide_eq_true hdue) (not_le.mpr hlater)

/-- Without a due dialog of the backfill, the other two are looked at. -/
theorem selection_of_future
    (hpending : dueDialogs now excluded (adapter.pendingCandidates store) = ∅) :
    adapter.selection store now excluded clock =
      match ((adapter.automaticGroupStatus store excluded clock).toList ++
        (adapter.totalRepairStatus store now excluded).toList).find? (fun candidate =>
          (candidate.releaseAt : ℚ) ≤ now) with
      | some due => some due
      | none => (leastFirst PeerCandidate.releaseAt
          ((adapter.automaticGroupStatus store excluded clock).toList ++
            (adapter.totalRepairStatus store now excluded).toList ++
              (adapter.pendingDialogStatus store now excluded).toList)).head? := by
  have hlater := Option.filter_eq_none_iff.mpr
    ((leastOf_pendingDialogStatus hpending).later hpending)
  rw [FullSyncDemandAdapter.selection]
  simp only [hlater]

/-- If no dialog of the backfill is due but an automatic group is, the earliest one is chosen. -/
theorem selection_of_automatic
    (hpending : dueDialogs now excluded (adapter.pendingCandidates store) = ∅)
    (h : (dueDialogs now excluded (adapter.automaticCandidates store clock)).Nonempty) :
    ∃ candidate, adapter.automaticGroupStatus store excluded clock = some candidate ∧
      (candidate.releaseAt : ℚ) ≤ now ∧
      adapter.selection store now excluded clock = some candidate := by
  have hleast := leastOf_automaticGroupStatus store excluded clock adapter
  obtain ⟨_, other, hother, hdue, rfl⟩ := h
  obtain ⟨candidate, hcandidate⟩ := Option.ne_none_iff_exists'.mp fun hnone =>
    List.ne_nil_of_mem hother (hleast.null.mp hnone)
  have hready : (candidate.releaseAt : ℚ) ≤ now :=
    (Nat.cast_le.mpr ((hleast.least candidate hcandidate).2 other hother)).trans hdue
  refine ⟨candidate, hcandidate, hready, ?_⟩
  rw [selection_of_future hpending, hcandidate, Option.toList_some, List.singleton_append,
    List.find?_cons]
  simp only [decide_eq_true hready]

/-- If neither of these is due but a total is, the next one is chosen. -/
theorem selection_of_total
    (hpending : dueDialogs now excluded (adapter.pendingCandidates store) = ∅)
    (hautomatic : dueDialogs now excluded (adapter.automaticCandidates store clock) = ∅)
    (h : (openCandidates excluded (adapter.totalCandidates store)).find? (fun candidate =>
      (candidate.releaseAt : ℚ) ≤ now) = some candidate) :
    adapter.selection store now excluded clock = some candidate := by
  have htotal : adapter.totalRepairStatus store now excluded = some candidate :=
    scanCandidates_of_due h
  have hlater : (adapter.automaticGroupStatus store excluded clock).toList.find? (fun candidate =>
      (candidate.releaseAt : ℚ) ≤ now) = none :=
    List.find?_eq_none.mpr fun candidate hmem =>
      (leastOf_automaticGroupStatus store excluded clock adapter).later hautomatic candidate
        (Option.mem_toList.mp hmem)
  rw [selection_of_future hpending, List.find?_append, hlater, Option.none_or, htotal,
    Option.toList_some, List.find?_cons_of_pos (List.find?_some h)]

/-- If nothing is due, the choice has the least release. -/
theorem leastOf_selection
    (h : ∀ candidate ∈ openCandidates excluded (adapter.pendingCandidates store ++
      adapter.automaticCandidates store clock ++ adapter.totalCandidates store),
        now < candidate.releaseAt) :
    LeastOf (adapter.selection store now excluded clock)
      (openCandidates excluded (adapter.pendingCandidates store ++
        adapter.automaticCandidates store clock ++ adapter.totalCandidates store)) := by
  rw [openCandidates_append, openCandidates_append] at h ⊢
  rw [List.forall_mem_append, List.forall_mem_append] at h
  obtain ⟨⟨hpending, hautomatic⟩, htotal⟩ := h
  rw [← dueDialogs_eq_empty_iff] at hpending hautomatic htotal
  have hpendings := leastOf_pendingDialogStatus hpending
  have hautomatics := leastOf_automaticGroupStatus store excluded clock adapter
  have htotals := leastOf_totalRepairStatus htotal
  have hnone : ((adapter.automaticGroupStatus store excluded clock).toList ++
      (adapter.totalRepairStatus store now excluded).toList).find? (fun candidate =>
        (candidate.releaseAt : ℚ) ≤ now) = none := by
    rw [List.find?_eq_none]
    intro candidate hmem
    rcases List.mem_append.mp hmem with hmem | hmem
    · exact hautomatics.later hautomatic candidate (Option.mem_toList.mp hmem)
    · exact htotals.later htotal candidate (Option.mem_toList.mp hmem)
  rw [selection_of_future hpending, hnone]
  have hleast := leastOf_head? ((adapter.automaticGroupStatus store excluded clock).toList ++
    (adapter.totalRepairStatus store now excluded).toList ++
      (adapter.pendingDialogStatus store now excluded).toList)
  -- each of the three choices stands for its candidates
  rw [List.append_assoc] at hleast
  have hrest := (hleast.replace hautomatics).perm List.perm_append_comm
  rw [List.append_assoc] at hrest
  have hlast := (hrest.replace htotals).perm List.perm_append_comm
  rw [List.append_assoc] at hlast
  have hall := hlast.replace hpendings
  rw [← List.append_assoc, ← List.append_assoc] at hall
  exact hall

/-- A status that offers the first due candidate rotates over the dialogs that are due. -/
theorem rotates_of_selection {cursor : Option ℤ}
    (hsorted : candidates.Pairwise fun candidate candidate' =>
      cyclicKey (cursor.getD 0) candidate.dialogId ≤ cyclicKey (cursor.getD 0) candidate'.dialogId)
    (hselection : ∀ {candidate : PeerCandidate},
      (openCandidates excluded candidates).find? (fun candidate =>
        (candidate.releaseAt : ℚ) ≤ now) = some candidate →
      adapter.selection store now excluded clock = some candidate)
    (h : (dueDialogs now excluded candidates).Nonempty) :
    Rotates now excluded (adapter.status store now excluded clock) cursor candidates := by
  obtain ⟨candidate, hfind⟩ := find?_of_dueDialogs h
  have hdue := List.find?_some hfind
  refine ⟨candidate, List.mem_of_find?_eq_some hfind, of_decide_eq_true hdue, ?_,
    isNext_of_find? hsorted hfind⟩
  rw [FullSyncDemandAdapter.status, hselection hfind]
  rfl

/-- If a dialog of the backfill is due, the status rotates over these dialogs. -/
theorem rotates_pending (h : (dueDialogs now excluded (adapter.pendingCandidates store)).Nonempty) :
    Rotates now excluded (adapter.status store now excluded clock) store.fullSyncPeerCursor
      (adapter.pendingCandidates store) :=
  rotates_of_selection (pairwise_map_leastFirst fun _ => rfl) selection_of_pending h

/-- If a total is due and nothing before it, the status rotates over these dialogs. -/
theorem rotates_total (hpending : dueDialogs now excluded (adapter.pendingCandidates store) = ∅)
    (hautomatic : dueDialogs now excluded (adapter.automaticCandidates store clock) = ∅)
    (h : (dueDialogs now excluded (adapter.totalCandidates store)).Nonempty) :
    Rotates now excluded (adapter.status store now excluded clock) store.fullSyncTotalPeerCursor
      (adapter.totalCandidates store) :=
  rotates_of_selection (pairwise_map_leastFirst fun _ => rfl)
    (selection_of_total hpending hautomatic) h

/-- If a candidate is due, there is a status. -/
theorem status_ne_none
    (hmem : candidate ∈ openCandidates excluded (adapter.pendingCandidates store ++
      adapter.automaticCandidates store clock ++ adapter.totalCandidates store))
    (hdue : (candidate.releaseAt : ℚ) ≤ now) : adapter.status store now excluded clock ≠ none := by
  have hsome : ∀ {offered : DemandStatus}, adapter.status store now excluded clock = some offered →
      adapter.status store now excluded clock ≠ none := fun h =>
    h ▸ Option.some_ne_none _
  rcases Set.eq_empty_or_nonempty (dueDialogs now excluded (adapter.pendingCandidates store)) with
    hpending | hpending
  · rcases Set.eq_empty_or_nonempty
        (dueDialogs now excluded (adapter.automaticCandidates store clock)) with
      hautomatic | hautomatic
    · rw [openCandidates_append, openCandidates_append, List.mem_append, List.mem_append] at hmem
      have htotal : candidate ∈ openCandidates excluded (adapter.totalCandidates store) := by
        rcases hmem with (hmem | hmem) | hmem
        · exact absurd hdue (not_le.mpr (dueDialogs_eq_empty_iff.mp hpending candidate hmem))
        · exact absurd hdue (not_le.mpr (dueDialogs_eq_empty_iff.mp hautomatic candidate hmem))
        · exact hmem
      obtain ⟨_, _, _, hstatus, _⟩ :=
        rotates_total hpending hautomatic ⟨_, candidate, htotal, hdue, rfl⟩
      exact hsome hstatus
    · obtain ⟨chosen, _, _, hselection⟩ := selection_of_automatic hpending hautomatic
      rw [FullSyncDemandAdapter.status, hselection]
      exact Option.some_ne_none _
  · obtain ⟨_, _, _, hstatus, _⟩ := rotates_pending hpending
    exact hsome hstatus

/-- The status of the full synchronization is right. -/
theorem fullSyncSelects : FullSyncSelects store now excluded clock adapter := by
  constructor
  case pending => exact rotates_pending
  case total => exact rotates_total
  case automatic =>
    intro hpending hdue
    obtain ⟨candidate, hcandidate, hready, hselection⟩ := selection_of_automatic hpending hdue
    obtain ⟨hmem, hleast⟩ := of_head?_leastFirst _ hcandidate
    refine ⟨candidate, hmem, hready, ?_,
      fun other hother => automaticOrder_le (hleast other hother)⟩
    rw [FullSyncDemandAdapter.status, hselection]
    rfl
  case least =>
    intro hfuture status hstatus
    obtain ⟨candidate, hcandidate, rfl⟩ := Option.map_eq_some_iff.mp hstatus
    obtain ⟨hmem, hleast⟩ := (leastOf_selection hfuture).least candidate hcandidate
    refine ⟨⟨candidate, hmem, rfl⟩, ?_⟩
    rintro _ ⟨other, hother, rfl⟩
    exact Nat.cast_le.mpr (hleast other hother)
  case null =>
    rw [← openCandidates_eq_nil_iff]
    by_cases hfuture : ∀ candidate ∈ openCandidates excluded (adapter.pendingCandidates store ++
        adapter.automaticCandidates store clock ++ adapter.totalCandidates store),
          now < candidate.releaseAt
    · rw [FullSyncDemandAdapter.status, Option.map_eq_none_iff]
      exact (leastOf_selection hfuture).null
    · push Not at hfuture
      obtain ⟨candidate, hmem, hdue⟩ := hfuture
      exact iff_of_false (status_ne_none hmem hdue) (List.ne_nil_of_mem hmem)

end FullSync

/-! ## Rounds -/

section Rounds

/-- `:` is the end of the kind of a target. -/
theorem dialogOfTarget_repr (kind : String) (h : ':' ∉ kind.toList) (dialogId : ℤ) :
    dialogOfTarget (kind ++ ":" ++ dialogId.repr) = some dialogId := by
  have hrest : (kind ++ ":" ++ dialogId.repr).toList.dropWhile (· ≠ ':') =
      ':' :: dialogId.repr.toList := by
    rw [String.toList_append, String.toList_append, List.append_assoc,
      List.dropWhile_append_of_pos]
    · rfl
    · intro char hmem
      exact decide_eq_true fun heq => h (heq ▸ hmem)
  rw [dialogOfTarget, hrest, List.drop_one, List.tail_cons, String.ofList_toList,
    Int.toInt?_repr]

/-- A selection as a pick of a rotation. -/
def PeerRound.pick (cursor : PeerStore → Option ℤ) (candidates : PeerRound → List PeerCandidate)
    (status : PeerRound → Option DemandStatus) (round : PeerRound) : Pick ℤ where
  cursor := (cursor round.store).getD 0
  due := dueDialogs round.now round.excluded (candidates round)
  picked := (selectedDialog (status round)).getD 0

variable {candidates : PeerRound → List PeerCandidate} {status : PeerRound → Option DemandStatus}
  {cursor : PeerStore → Option ℤ} {dispatch : PeerStore → WorkRevision → PeerStore}
  {rounds : List PeerRound}

/-- The pick of a selection that rotates. -/
theorem pick_of_rotates {round : PeerRound} (htarget : ∀ candidate ∈ candidates round,
      dialogOfTarget candidate.selected.key.target = some candidate.dialogId)
    (h : Rotates round.now round.excluded (status round) (cursor round.store) (candidates round)) :
    ∃ candidate ∈ candidates round, status round = some candidate.status ∧
      selectedDialog (status round) = some candidate.dialogId ∧
      (round.pick cursor candidates status).picked = candidate.dialogId ∧
      IsNext ((cursor round.store).getD 0)
        (dueDialogs round.now round.excluded (candidates round)) candidate.dialogId := by
  obtain ⟨candidate, hmem, -, hstatus, hnext⟩ := h
  have hcandidate := (mem_openCandidates.mp hmem).1
  have hselected : selectedDialog (status round) = some candidate.dialogId := by
    rw [hstatus]
    exact htarget candidate hcandidate
  refine ⟨candidate, hcandidate, hstatus, hselected, ?_, hnext⟩
  rw [PeerRound.pick, hselected, Option.getD_some]

/-- Rotations with a cursor of their own are fair. -/
theorem waitsForOthers_of_rotates (hrotates : ∀ round ∈ rounds,
      (dueDialogs round.now round.excluded (candidates round)).Nonempty →
        Rotates round.now round.excluded (status round) (cursor round.store) (candidates round))
    (htarget : ∀ round, ∀ candidate ∈ candidates round,
      dialogOfTarget candidate.selected.key.target = some candidate.dialogId)
    (hdispatch : ∀ round, ∀ candidate ∈ candidates round,
      cursor (dispatch round.store candidate.selected) = some candidate.dialogId)
    (hfollows : CursorFollows cursor dispatch status rounds) :
    WaitsForOthers candidates status rounds := by
  intro dialogId others hdue hothers hlength
  by_contra hnever
  have hpick := fun round (hround : round ∈ rounds) =>
    pick_of_rotates (htarget round) (hrotates round hround ⟨dialogId, hdue round hround⟩)
  have hchain : (rounds.map (PeerRound.pick cursor candidates status)).IsChain
      fun pick pick' => pick'.cursor = pick.picked := by
    rw [List.isChain_map]
    refine List.IsChain.imp_of_mem_imp (fun round round' hround _ hfollow => ?_) hfollows
    obtain ⟨candidate, hcandidate, hstatus, -, hpicked, -⟩ := hpick round hround
    have hcursor := hfollow _ hstatus _ rfl
    rw [hdispatch round candidate hcandidate] at hcursor
    rw [hpicked, PeerRound.pick, hcursor, Option.getD_some]
  have hwaits : ∀ round ∈ rounds, (round.pick cursor candidates status).picked ≠ dialogId := by
    intro round hround heq
    obtain ⟨candidate, -, -, hselected, hpicked, -⟩ := hpick round hround
    exact hnever ⟨round, hround, by rw [hselected, ← hpicked, heq]⟩
  have hnext : ∀ round ∈ rounds, IsNext (round.pick cursor candidates status).cursor
      (round.pick cursor candidates status).due (round.pick cursor candidates status).picked := by
    intro round hround
    obtain ⟨candidate, -, -, -, hpicked, hnext⟩ := hpick round hround
    rw [hpicked]
    exact hnext
  have hle := picks_le_card hchain (List.forall_mem_map.mpr hnext) (List.forall_mem_map.mpr hdue)
    (List.forall_mem_map.mpr hwaits) (List.forall_mem_map.mpr fun round hround =>
      hothers round hround _ (hnext round hround).1 (hwaits round hround))
  rw [List.length_map] at hle
  omega

end Rounds

/-! ## The two adapters -/

/-- The target of a candidate of the forward gap fill names its dialog. -/
theorem dialogOfTarget_delta (store : PeerStore) (accountId : ℕ) :
    ∀ candidate ∈ store.deltaCandidates accountId,
      dialogOfTarget candidate.selected.key.target = some candidate.dialogId := by
  rw [PeerStore.deltaCandidates, List.forall_mem_map]
  exact fun dialog _ => dialogOfTarget_repr "dialog" (by decide) dialog.dialogId

/-- The target of a candidate of the backfill names its dialog. -/
theorem dialogOfTarget_pending (adapter : FullSyncDemandAdapter) (store : PeerStore) :
    ∀ candidate ∈ adapter.pendingCandidates store,
      dialogOfTarget candidate.selected.key.target = some candidate.dialogId := by
  rw [FullSyncDemandAdapter.pendingCandidates, List.forall_mem_map]
  exact fun dialog _ => dialogOfTarget_repr "dialog" (by decide) dialog.dialogId

/-- The target of a candidate of the repair names its dialog. -/
theorem dialogOfTarget_total (adapter : FullSyncDemandAdapter) (store : PeerStore) :
    ∀ candidate ∈ adapter.totalCandidates store,
      dialogOfTarget candidate.selected.key.target = some candidate.dialogId := by
  rw [FullSyncDemandAdapter.totalCandidates, List.forall_mem_map]
  exact fun dialog _ => dialogOfTarget_repr "total" (by decide) dialog.dialogId

/-- The slice of the forward gap fill moves its cursor to its dialog. -/
theorem deltaPeerCursor_dispatchSlice (store : PeerStore) (accountId : ℕ) :
    ∀ candidate ∈ store.deltaCandidates accountId,
      (DeltaGapFillDemandAdapter.dispatchSlice store candidate.selected).deltaPeerCursor =
        some candidate.dialogId := by
  intro candidate hmem
  rw [DeltaGapFillDemandAdapter.dispatchSlice, dialogOfTarget_delta store accountId candidate hmem]

/-- The slice of a target that is no automatic group. -/
theorem dispatchSelected_of_target (store : PeerStore) {selected : WorkRevision} {dialogId : ℤ}
    (hgroup : ¬ "automatic-group:".toList.isPrefixOf selected.key.target.toList = true)
    (htarget : dialogOfTarget selected.key.target = some dialogId) :
    FullSyncDemandAdapter.dispatchSelected store selected =
      if "dialog:".toList.isPrefixOf selected.key.target.toList then
        { store with fullSyncPeerCursor := some dialogId }
      else { store with fullSyncTotalPeerCursor := some dialogId } := by
  rw [FullSyncDemandAdapter.dispatchSelected, if_neg hgroup, htarget]

/-- The slice of the backfill moves its cursor to its dialog. -/
theorem fullSyncPeerCursor_dispatchSelected (adapter : FullSyncDemandAdapter)
    (store : PeerStore) : ∀ candidate ∈ adapter.pendingCandidates store,
      (FullSyncDemandAdapter.dispatchSelected store candidate.selected).fullSyncPeerCursor =
        some candidate.dialogId := by
  intro candidate hmem
  obtain ⟨dialog, -, rfl⟩ := List.mem_map.mp hmem
  have htarget := dialogOfTarget_pending adapter store _ hmem
  have hsplit : ("dialog:" ++ dialog.dialogId.repr).toList =
      "dialog:".toList ++ dialog.dialogId.repr.toList := String.toList_append
  have hgroup : ¬ "automatic-group:".toList.isPrefixOf
      ("dialog:" ++ dialog.dialogId.repr).toList = true := by
    rw [hsplit]
    exact Bool.false_ne_true
  have hdialog : "dialog:".toList.isPrefixOf
      ("dialog:" ++ dialog.dialogId.repr).toList = true := by
    rw [hsplit]
    exact List.isPrefixOf_iff_prefix.mpr (List.prefix_append _ _)
  rw [dispatchSelected_of_target store hgroup htarget]
  exact congrArg PeerStore.fullSyncPeerCursor (if_pos hdialog)

/-- The slice of the repair moves its cursor to its dialog. -/
theorem fullSyncTotalPeerCursor_dispatchSelected (adapter : FullSyncDemandAdapter)
    (store : PeerStore) : ∀ candidate ∈ adapter.totalCandidates store,
      (FullSyncDemandAdapter.dispatchSelected store candidate.selected).fullSyncTotalPeerCursor =
        some candidate.dialogId := by
  intro candidate hmem
  obtain ⟨dialog, -, rfl⟩ := List.mem_map.mp hmem
  have htarget := dialogOfTarget_total adapter store _ hmem
  have hsplit : ("total:" ++ dialog.dialogId.repr).toList =
      "total:".toList ++ dialog.dialogId.repr.toList := String.toList_append
  have hgroup : ¬ "automatic-group:".toList.isPrefixOf
      ("total:" ++ dialog.dialogId.repr).toList = true := by
    rw [hsplit]
    exact Bool.false_ne_true
  have hdialog : ¬ "dialog:".toList.isPrefixOf
      ("total:" ++ dialog.dialogId.repr).toList = true := by
    rw [hsplit]
    exact Bool.false_ne_true
  rw [dispatchSelected_of_target store hgroup htarget]
  exact congrArg PeerStore.fullSyncTotalPeerCursor (if_neg hdialog)

/-- Both adapters select as they should, and the rotations of the forward gap fill, of the backfill
and, while nothing else is due, of the repair are fair. -/
theorem peer_selection (delta : DeltaGapFillDemandAdapter) (full : FullSyncDemandAdapter) :
    (∀ store now excluded, DeltaSelects store now excluded delta) ∧
    (∀ store now excluded clock, FullSyncSelects store now excluded clock full) ∧
    (∀ rounds, CursorFollows PeerStore.deltaPeerCursor DeltaGapFillDemandAdapter.dispatchSlice
        delta.statusAt rounds →
      WaitsForOthers (fun round => round.store.deltaCandidates delta.accountId) delta.statusAt
        rounds) ∧
    (∀ rounds, CursorFollows PeerStore.fullSyncPeerCursor FullSyncDemandAdapter.dispatchSelected
        full.statusAt rounds →
      WaitsForOthers (fun round => full.pendingCandidates round.store) full.statusAt rounds) ∧
    ∀ rounds, (∀ round ∈ rounds,
        dueDialogs round.now round.excluded (full.pendingCandidates round.store) = ∅ ∧
        dueDialogs round.now round.excluded
          (full.automaticCandidates round.store round.clock) = ∅) →
      CursorFollows PeerStore.fullSyncTotalPeerCursor FullSyncDemandAdapter.dispatchSelected
        full.statusAt rounds →
      WaitsForOthers (fun round => full.totalCandidates round.store) full.statusAt rounds := by
  refine ⟨fun _ _ _ => deltaSelects, fun _ _ _ _ => fullSyncSelects, fun rounds => ?_,
    fun rounds => ?_, fun rounds hfuture => ?_⟩
  · exact waitsForOthers_of_rotates (fun _ _ => deltaSelects.due)
      (fun round => dialogOfTarget_delta round.store delta.accountId)
      fun round => deltaPeerCursor_dispatchSlice round.store delta.accountId
  · exact waitsForOthers_of_rotates (fun _ _ => rotates_pending)
      (fun round => dialogOfTarget_pending full round.store)
      fun round => fullSyncPeerCursor_dispatchSelected full round.store
  · exact waitsForOthers_of_rotates
      (fun round hround => rotates_total (hfuture round hround).1 (hfuture round hround).2)
      (fun round => dialogOfTarget_total full round.store)
      fun round => fullSyncTotalPeerCursor_dispatchSelected full round.store

/-- Two groups that can be enrolled; the retry of the first one is later. -/
def groupStore : PeerStore where
  synced := []
  dialogs := [⟨5, false, .group, some 3, some 0⟩, ⟨9, false, .group, some 3, some 0⟩]
  enrollment _ := none
  automaticGroupHistoryRetry dialogId := if dialogId = 5 then some 20 else some 10

/-- An adapter with automatic enrollment. -/
def groupAdapter : FullSyncDemandAdapter := ⟨1, some ⟨100, 365⟩⟩

/-- Both are due and the first one is next behind the cursor, but the second one is selected. -/
theorem automatic_group_out_of_turn :
    groupAdapter.status groupStore 100 ∅ 100 = some
      { releaseAt := 10
        selected := groupAdapter.revision "automatic-group:9" "automatic-group" } ∧
    IsNext (groupStore.fullSyncPeerCursor.getD 0) (dueDialogs 100 ∅
      (groupAdapter.pendingCandidates groupStore ++
        groupAdapter.automaticCandidates groupStore 100 ++
          groupAdapter.totalCandidates groupStore)) 5 := by
  have hcandidates : groupAdapter.pendingCandidates groupStore ++
      groupAdapter.automaticCandidates groupStore 100 ++ groupAdapter.totalCandidates groupStore =
      [⟨20, 5, groupAdapter.revision "automatic-group:5" "automatic-group"⟩,
        ⟨10, 9, groupAdapter.revision "automatic-group:9" "automatic-group"⟩] := by decide +kernel
  refine ⟨by decide +kernel, ?_⟩
  rw [hcandidates]
  refine ⟨⟨_, List.mem_cons_self, by norm_num, rfl⟩, ?_⟩
  rintro _ ⟨candidate, hmem, -, rfl⟩
  rcases List.mem_cons.mp hmem with rfl | hmem
  · decide
  · obtain rfl := List.mem_singleton.mp hmem
    decide

end McpTelegram
