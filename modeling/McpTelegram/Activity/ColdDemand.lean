import Mathlib
import McpTelegram.Activity.ColdBackfill
import McpTelegram.Demand.Slices
import McpTelegram.Foundations.CentredWindow

/-!
# The demand of the cold backfill

`ColdPeerPageDemandAdapter` of `activity_cold_backfill.py`: the status with which it offers the
coordinator the enrollment unit or a peer page, and the validation of a selected revision before
its slice runs.  The request itself, and the metadata of a dialog, are left out.

A peer page competes with the enrollment by its release.  The status compares the enrollment with
the earliest page of all peers first, and the excluded peers count there.
-/

namespace McpTelegram

open Foundations

variable {now release : ℚ} {peer : ℤ × ColdRow}

/-! ## The tables -/

/-- The values of `activity_working_set_phase`. -/
inductive EnrollmentPhase
  | supergroups
  | channels
  deriving DecidableEq

/-- The text of a phase. -/
def EnrollmentPhase.value : EnrollmentPhase → String
  | .supergroups => "supergroups"
  | .channels => "channels"

/-- `_load_working_set_enrollment_state`: the rows of `activity_sync_state` with the four keys of
the enrollment.  The numbers are written with `str` and read with `int`. -/
structure EnrollmentState where
  phase : Option EnrollmentPhase := none
  cursor : Option ℤ := none
  completedAt : Option ℤ := none
  nextAttemptAt : Option ℤ := none
  deriving DecidableEq

/-- The types of `dialogs` that the enrollment distinguishes. -/
inductive WorkingDialogType
  | supergroup
  | channel
  | other
  deriving DecidableEq

/-- A row of `dialogs`, as the enrollment reads it. -/
structure WorkingDialog where
  dialogId : ℤ
  type : WorkingDialogType
  hidden : Bool
  linkedChatId : Option ℤ
  deriving DecidableEq

/-- What the status reads: `activity_dialog_state`, the dialogs that `synced_dialogs` calls lost,
`dialogs`, and the enrollment's keys. -/
structure ColdStore where
  rows : Dictionary ℤ ColdRow
  lost : ℤ → Bool
  dialogs : List WorkingDialog
  enrollment : EnrollmentState

/-- `ColdPeerPageDemandAdapter`: the account, and `pacing.history.enroll_s`. -/
structure ColdPeerPageDemandAdapter where
  accountId : ℕ
  enrollSeconds : ℚ

/-- An exception of the adapter. -/
inductive ColdDemandError
  | valueError (message : String)
  | indexError
  deriving DecidableEq

/-! ## The enrollment -/

namespace ColdStore

variable (store : ColdStore)

/-- `_has_working_set_enrollment_candidate`. -/
def hasWorkingSetEnrollmentCandidate : Bool :=
  store.dialogs.any fun dialog =>
    (dialog.type = .supergroup ∨ dialog.type = .channel) ∧ dialog.hidden = false

/-- `_next_linked_chat_projection_lag` finds a row. -/
def hasLinkedChatProjectionLag : Bool :=
  store.dialogs.any fun dialog =>
    dialog.type = .channel ∧ dialog.hidden = false ∧
      ∃ linked ∈ dialog.linkedChatId, store.rows.lookup linked = none

/-- The release of the enrollment, once its arguments are valid. -/
def enrollmentReleaseAt (cadence : ℚ) : Option ℚ :=
  if store.hasLinkedChatProjectionLag then some 0
  else
    match store.enrollment.phase with
    | some _ => some (store.enrollment.nextAttemptAt.getD 0)
    | none =>
      let completedAt := store.enrollment.completedAt.getD 0
      if completedAt = 0 ∧ store.hasWorkingSetEnrollmentCandidate = false then none
      else if completedAt = 0 then some 0 else some (completedAt + cadence)

end ColdStore

/-- `_validate_working_set_enrollment_timing`. -/
def validateWorkingSetEnrollmentTiming (now cadence : ℚ) : Except ColdDemandError Unit :=
  if now < 0 then .error (.valueError "now must be a finite non-negative timestamp")
  else if cadence ≤ 0 then .error (.valueError "cadence_s must be finite and positive")
  else .ok ()

/-- `working_set_enrollment_release_at`. -/
def workingSetEnrollmentReleaseAt (store : ColdStore) (now cadence : ℚ) :
    Except ColdDemandError (Option ℚ) := do
  validateWorkingSetEnrollmentTiming now cadence
  return store.enrollmentReleaseAt cadence

/-- `repr` of a text that needs no escapes, or of `None`. -/
def reprText : Option String → String
  | some text => "'" ++ text ++ "'"
  | none => "None"

/-- `repr` of the phase and the cursor. -/
def EnrollmentState.revision (state : EnrollmentState) : String :=
  "(" ++ reprText (state.phase.map EnrollmentPhase.value) ++ ", " ++
    reprText (state.cursor.map Int.repr) ++ ")"

/-! ## The peers -/

/-- `float(retry_at or 0)`. -/
def ColdRow.releaseAt (row : ColdRow) : ℤ := row.nextRetryAt.getD 0

/-- `int(offset_id or 0)`. -/
def ColdRow.currentOffset (row : ColdRow) : ℕ := row.offsetId.getD 0

namespace ColdStore

variable (store : ColdStore)

/-- The rows that are not complete, of dialogs that are not lost. -/
def eligiblePeers : List (ℤ × ColdRow) :=
  (store.rows.entries.map fun entry => (entry.1, entry.2)).filter
    fun peer => peer.2.status ≠ .complete ∧ store.lost peer.1 = false

/-- The `MIN` of `_next_cold_release_at`. -/
def pageReleaseAt : Option ℤ := (store.eligiblePeers.map fun peer => peer.2.releaseAt).min?

/-- `_cold_peer_rows`. -/
def coldPeerRows : List (ℤ × ColdRow) :=
  leastFirst (fun peer => toLex (peer.2.updatedAt, peer.1)) store.eligiblePeers

end ColdStore

/-- `_next_cold_release_at`. -/
def nextColdReleaseAt (store : ColdStore) (now : ℚ) : Except ColdDemandError (Option ℚ) :=
  if now < 0 then .error (.valueError "now must be a finite non-negative timestamp")
  else .ok (store.pageReleaseAt.map fun releaseAt : ℤ => (releaseAt : ℚ))

/-! ## The status -/

/-- A peer page on offer: its release, its dialog and its revision. -/
structure ColdCandidate where
  releaseAt : ℤ
  dialog : ℤ
  selected : WorkRevision

/-- The key of the `min`. -/
def ColdCandidate.order (candidate : ColdCandidate) : ℤ ×ₗ ℤ :=
  toLex (candidate.releaseAt, candidate.dialog)

namespace ColdPeerPageDemandAdapter

variable (adapter : ColdPeerPageDemandAdapter) (store : ColdStore)

/-- The revision of the enrollment unit. -/
def enrollmentRevision : WorkRevision :=
  ⟨⟨.coldPeerPage, adapter.accountId, "enrollment"⟩, store.enrollment.revision⟩

/-- The revision of a peer page. -/
def peerRevision (peer : ℤ × ColdRow) : WorkRevision :=
  ⟨⟨.coldPeerPage, adapter.accountId, "peer:" ++ peer.1.repr⟩, peer.2.currentOffset.repr⟩

/-- `_enrollment_status`. -/
def enrollmentStatus (revision : WorkRevision) (releaseAt : ℚ) (excluded : Finset WorkRevision) :
    Option DemandStatus :=
  if revision ∈ excluded then none else some { releaseAt := releaseAt, selected := some revision }

/-- The candidates of `_peer_or_enrollment_status`. -/
def candidates (excluded : Finset WorkRevision) : List ColdCandidate :=
  (store.coldPeerRows.map fun peer =>
    ⟨peer.2.releaseAt, peer.1, adapter.peerRevision peer⟩).filter
    fun candidate => candidate.selected ∉ excluded

/-- `_peer_or_enrollment_status`. -/
def peerOrEnrollmentStatus (enrollmentRevision : WorkRevision)
    (enrollmentRelease pageRelease : Option ℚ) (excluded : Finset WorkRevision) :
    Option DemandStatus :=
  match (leastFirst ColdCandidate.order (adapter.candidates store excluded)).head? with
  | some candidate =>
    match enrollmentRelease with
    | some release =>
      if release ≤ candidate.releaseAt ∧ enrollmentRevision ∉ excluded then
        some { releaseAt := release, selected := some enrollmentRevision }
      else some { releaseAt := candidate.releaseAt, selected := some candidate.selected }
    | none => some { releaseAt := candidate.releaseAt, selected := some candidate.selected }
  | none => enrollmentStatus enrollmentRevision (pageRelease.getD 0) excluded

/-- What `status` decides from the two releases. -/
def statusOf (pageRelease enrollmentRelease : Option ℚ) (excluded : Finset WorkRevision) :
    Option DemandStatus :=
  let revision := adapter.enrollmentRevision store
  match pageRelease, enrollmentRelease with
  | none, none => none
  | none, some release =>
    if revision ∉ excluded then enrollmentStatus revision release excluded
    else adapter.peerOrEnrollmentStatus store revision (some release) none excluded
  | some page, none => adapter.peerOrEnrollmentStatus store revision none (some page) excluded
  | some page, some release =>
    if release ≤ page ∧ revision ∉ excluded then enrollmentStatus revision release excluded
    else adapter.peerOrEnrollmentStatus store revision (some release) (some page) excluded

/-- `status`. -/
def status (now : ℚ) (excluded : Finset WorkRevision) :
    Except ColdDemandError (Option DemandStatus) := do
  let pageRelease ← nextColdReleaseAt store now
  let enrollmentRelease ← workingSetEnrollmentReleaseAt store now adapter.enrollSeconds
  return adapter.statusOf store pageRelease enrollmentRelease excluded

/-! ## The validation of a slice -/

/-- `_validate_cold_enrollment`. -/
def validateColdEnrollment (selected : WorkRevision) (now : ℚ) :
    Except ColdDemandError (Option SliceOutcome) := do
  match ← workingSetEnrollmentReleaseAt store now adapter.enrollSeconds with
  | none => return some { selected, kind := .stale }
  | some release =>
    if store.enrollment.revision ≠ selected.revision then
      return some { selected, kind := .stale }
    else if now < release then return some { selected, kind := .deferred }
    else return none

/-- `int(target.split(":", 1)[1])`. -/
def peerOfTarget (target : String) : Except ColdDemandError ℤ :=
  match target.toList.dropWhile (· ≠ ':') with
  | [] => .error .indexError
  | _ :: rest =>
    match (String.ofList rest).toInt? with
    | some dialog => .ok dialog
    | none => .error (.valueError "invalid literal for int() with base 10")

/-- `_validate_cold_peer_selection`. -/
def validateColdPeerSelection (selected : WorkRevision) (now : ℚ) :
    Except ColdDemandError (Option SliceOutcome) := do
  let dialog ← peerOfTarget selected.key.target
  match store.rows.lookup dialog with
  | none => return some { selected, kind := .stale }
  | some row =>
    match selected.revision.toInt? with
    | none => .error (.valueError "invalid literal for int() with base 10")
    | some offset =>
      if (row.currentOffset : ℤ) ≠ offset ∨ row.status = .complete ∨ store.lost dialog then
        return some { selected, kind := .stale }
      else if now < row.releaseAt then return some { selected, kind := .deferred }
      else return none

/-- `_validate_cold_selection`. -/
def validateColdSelection (selected : WorkRevision) (now : ℚ) :
    Except ColdDemandError (Option SliceOutcome) :=
  if selected.key.target = "enrollment" then adapter.validateColdEnrollment store selected now
  else validateColdPeerSelection store selected now

/-! ## What a status has to say -/

/-- A unit of work that the adapter has, with its release: the enrollment when it has a release,
and every eligible peer. -/
inductive Candidate : WorkRevision → ℚ → Prop
  | enrollment {release : ℚ} (h : store.enrollmentReleaseAt adapter.enrollSeconds = some release) :
      Candidate (adapter.enrollmentRevision store) release
  | peer {peer : ℤ × ColdRow} (h : peer ∈ store.eligiblePeers) :
      Candidate (adapter.peerRevision peer) peer.2.releaseAt

/-- The releases of the candidates that are not excluded. -/
def openReleases (excluded : Finset WorkRevision) : Set ℚ :=
  {release | ∃ revision, revision ∉ excluded ∧ adapter.Candidate store revision release}

/-- The status agrees with the slices: what it offers is a candidate with the least release, which
its own slice does not refuse from then on, and it offers nothing exactly when there is no
candidate. -/
structure StatusAgrees (now : ℚ) (excluded : Finset WorkRevision) : Prop where
  answered : ∃ answer, adapter.status store now excluded = .ok answer
  offered : ∀ status, adapter.status store now excluded = .ok (some status) →
    ∃ revision, status.selected = some revision ∧ revision ∉ excluded ∧
      (∀ later, max now status.releaseAt ≤ later →
        adapter.validateColdSelection store revision later = .ok none) ∧
      IsLeast (adapter.openReleases store excluded) status.releaseAt
  null : adapter.status store now excluded = .ok none ↔ adapter.openReleases store excluded = ∅

/-- Every eligible peer is excluded, one of them would be released before the enrollment, or the
enrollment has no release, and the enrollment is not excluded. -/
structure FallsThrough (excluded : Finset WorkRevision) : Prop where
  enrollment : adapter.enrollmentRevision store ∉ excluded
  peers : ∀ peer ∈ store.eligiblePeers, adapter.peerRevision peer ∈ excluded
  earlier : ∃ peer ∈ store.eligiblePeers,
    ∀ release ∈ store.enrollmentReleaseAt adapter.enrollSeconds,
      (peer.2.releaseAt : ℚ) < release

/-! ## The tables as the status reads them -/

section Tables

variable {adapter store} {excluded : Finset WorkRevision}

/-- With valid arguments, the status is decided by the two releases. -/
theorem status_eq (hnow : 0 ≤ now) (hcadence : 0 < adapter.enrollSeconds) :
    adapter.status store now excluded =
      .ok (adapter.statusOf store (store.pageReleaseAt.map fun releaseAt : ℤ => (releaseAt : ℚ))
        (store.enrollmentReleaseAt adapter.enrollSeconds) excluded) := by
  rw [status, nextColdReleaseAt, if_neg hnow.not_gt, workingSetEnrollmentReleaseAt,
    validateWorkingSetEnrollmentTiming, if_neg hnow.not_gt, if_neg hcadence.not_ge]
  rfl

/-- An eligible peer is a row that is not complete, of a dialog that is not lost. -/
theorem mem_eligiblePeers :
    peer ∈ store.eligiblePeers ↔
      store.rows.lookup peer.1 = some peer.2 ∧ peer.2.status ≠ .complete ∧
        store.lost peer.1 = false := by
  rw [ColdStore.eligiblePeers, List.mem_filter, decide_eq_true_eq, List.mem_map]
  constructor
  · rintro ⟨⟨entry, hmem, rfl⟩, hpeer⟩
    exact ⟨Dictionary.mem_entries_iff.mp hmem, hpeer⟩
  · rintro ⟨hlookup, hpeer⟩
    exact ⟨⟨⟨peer.1, peer.2⟩, Dictionary.mem_entries_iff.mpr hlookup, rfl⟩, hpeer⟩

/-- The candidates are the eligible peers that are not excluded. -/
theorem mem_candidates {candidate : ColdCandidate} :
    candidate ∈ adapter.candidates store excluded ↔
      ∃ peer ∈ store.eligiblePeers,
        candidate = ⟨peer.2.releaseAt, peer.1, adapter.peerRevision peer⟩ ∧
          adapter.peerRevision peer ∉ excluded := by
  rw [candidates, List.mem_filter, decide_eq_true_eq, List.mem_map]
  simp only [ColdStore.coldPeerRows, (leastFirst_perm _ _).mem_iff]
  constructor
  · rintro ⟨⟨peer, hmem, rfl⟩, hopen⟩
    exact ⟨peer, hmem, rfl, hopen⟩
  · rintro ⟨peer, hmem, rfl, hopen⟩
    exact ⟨⟨peer, hmem, rfl⟩, hopen⟩

/-- The earliest page is that of an eligible peer, and no later than any other. -/
theorem pageReleaseAt_eq_some {page : ℤ} :
    store.pageReleaseAt = some page ↔
      (∃ peer ∈ store.eligiblePeers, peer.2.releaseAt = page) ∧
        ∀ peer ∈ store.eligiblePeers, page ≤ peer.2.releaseAt := by
  rw [ColdStore.pageReleaseAt, List.min?_eq_some_iff, List.mem_map, List.forall_mem_map]

/-- There is an earliest page exactly if there is an eligible peer. -/
theorem pageReleaseAt_eq_none : store.pageReleaseAt = none ↔ store.eligiblePeers = [] := by
  rw [ColdStore.pageReleaseAt, List.min?_eq_none_iff, List.map_eq_nil_iff]

end Tables

/-! ## The validation of what is on offer -/

section Validation

variable {adapter store}

/-- The dialog of a peer's target is that of the peer. -/
theorem peerOfTarget_peer (dialog : ℤ) : peerOfTarget ("peer:" ++ dialog.repr) = .ok dialog := by
  have hrest : ("peer:" ++ dialog.repr).toList.dropWhile (· ≠ ':') = ':' :: dialog.repr.toList := by
    rw [String.toList_append]
    rfl
  rw [peerOfTarget, hrest]
  simp only [String.ofList_toList, Int.toInt?_repr]

/-- No peer has the target of the enrollment. -/
theorem peer_target_ne (dialog : ℤ) : "peer:" ++ dialog.repr ≠ "enrollment" := by
  intro h
  have hhead : "peer:".toList ++ dialog.repr.toList = "enrollment".toList := by
    rw [← String.toList_append, h]
  have hp : (some 'p' : Option Char) = some 'e' := congrArg List.head? hhead
  exact absurd hp (by decide)

/-- The slice of a candidate is not refused once its release has come. -/
theorem validateColdSelection_of_candidate {later : ℚ} {revision : WorkRevision} (hnow : 0 ≤ now)
    (hcadence : 0 < adapter.enrollSeconds) (hcandidate : adapter.Candidate store revision release)
    (hlater : max now release ≤ later) :
    adapter.validateColdSelection store revision later = .ok none := by
  have hvalid : 0 ≤ later := hnow.trans ((le_max_left _ _).trans hlater)
  have hreleased : release ≤ later := (le_max_right _ _).trans hlater
  cases hcandidate with
  | enrollment h =>
    rw [validateColdSelection, enrollmentRevision, if_pos rfl, validateColdEnrollment,
      workingSetEnrollmentReleaseAt, validateWorkingSetEnrollmentTiming, if_neg hvalid.not_gt,
      if_neg hcadence.not_ge, h]
    simp only [Except.bind, bind, pure, Except.pure, ne_eq, not_true_eq_false,
      if_false, if_neg hreleased.not_gt]
  | @peer peer h =>
    obtain ⟨hlookup, hstatus, hlost⟩ := mem_eligiblePeers.mp h
    rw [validateColdSelection, peerRevision, if_neg (peer_target_ne peer.1),
      validateColdPeerSelection, peerOfTarget_peer]
    simp only [bind, Except.bind, hlookup, Nat.toInt?_repr, ne_eq, not_true_eq_false, hstatus,
      hlost, Bool.false_eq_true, or_self, if_false, if_neg hreleased.not_gt]
    rfl

end Validation

/-! ## The status and the candidates -/

section Offers

variable {adapter store} {excluded : Finset WorkRevision}

variable (adapter store excluded) in
/-- What a status may offer: an open candidate with the least release. -/
structure Offers (status : DemandStatus) : Prop where
  candidate : ∃ revision, status.selected = some revision ∧ revision ∉ excluded ∧
    adapter.Candidate store revision status.releaseAt
  least : ∀ release ∈ adapter.openReleases store excluded, status.releaseAt ≤ release

/-- What bounds the enrollment's release and those of the open peers bounds every release. -/
theorem forall_openReleases {bound : ℚ} (henrollment : adapter.enrollmentRevision store ∉ excluded →
      ∀ release ∈ store.enrollmentReleaseAt adapter.enrollSeconds, bound ≤ release)
    (hpeers : ∀ peer ∈ store.eligiblePeers, adapter.peerRevision peer ∉ excluded →
      bound ≤ peer.2.releaseAt) :
    ∀ release ∈ adapter.openReleases store excluded, bound ≤ release := by
  rintro release ⟨revision, hopen, hcandidate⟩
  cases hcandidate with
  | enrollment h => exact henrollment hopen release h
  | peer h => exact hpeers _ h hopen

/-- The enrollment, offered at its release before every open peer. -/
theorem offers_enrollment
    (hrelease : store.enrollmentReleaseAt adapter.enrollSeconds = some release)
    (hopen : adapter.enrollmentRevision store ∉ excluded)
    (hpeers : ∀ peer ∈ store.eligiblePeers, adapter.peerRevision peer ∉ excluded →
      release ≤ peer.2.releaseAt) :
    Offers adapter store excluded
      { releaseAt := release, selected := some (adapter.enrollmentRevision store) } := by
  refine ⟨⟨_, rfl, hopen, .enrollment hrelease⟩, forall_openReleases (fun _ r hr => ?_) hpeers⟩
  rw [Option.mem_def, hrelease, Option.some.injEq] at hr
  exact hr.le

/-- An open peer, offered before the enrollment and every other open peer. -/
theorem offers_peer (hpeer : peer ∈ store.eligiblePeers)
    (hopen : adapter.peerRevision peer ∉ excluded)
    (henrollment : adapter.enrollmentRevision store ∉ excluded →
      ∀ release ∈ store.enrollmentReleaseAt adapter.enrollSeconds,
        (peer.2.releaseAt : ℚ) ≤ release)
    (hpeers : ∀ other ∈ store.eligiblePeers, adapter.peerRevision other ∉ excluded →
      peer.2.releaseAt ≤ other.2.releaseAt) :
    Offers adapter store excluded
      { releaseAt := peer.2.releaseAt, selected := some (adapter.peerRevision peer) } := by
  refine ⟨⟨_, rfl, hopen, .peer hpeer⟩, forall_openReleases henrollment ?_⟩
  intro other hother hotherOpen
  exact Int.cast_le.mpr (hpeers other hother hotherOpen)

/-- With an open peer, the merge of the open peers and the enrollment offers the first of them. -/
theorem peerOrEnrollmentStatus_of_open (pageRelease : Option ℚ)
    (hopen : ∃ peer ∈ store.eligiblePeers, adapter.peerRevision peer ∉ excluded) :
    ∃ status, adapter.peerOrEnrollmentStatus store (adapter.enrollmentRevision store)
        (store.enrollmentReleaseAt adapter.enrollSeconds) pageRelease excluded = some status ∧
      Offers adapter store excluded status := by
  obtain ⟨peer₀, hpeer₀, hopen₀⟩ := hopen
  cases hfirst : (leastFirst ColdCandidate.order (adapter.candidates store excluded)).head? with
  | none =>
    have hmem := mem_candidates.mpr ⟨peer₀, hpeer₀, rfl, hopen₀⟩
    rw [(head?_leastFirst_eq_none _).mp hfirst] at hmem
    exact absurd hmem List.not_mem_nil
  | some candidate =>
    obtain ⟨hmem, hleast⟩ := of_head?_leastFirst _ hfirst
    obtain ⟨peer, hpeer, rfl, hpeerOpen⟩ := mem_candidates.mp hmem
    have hpeers : ∀ other ∈ store.eligiblePeers, adapter.peerRevision other ∉ excluded →
        peer.2.releaseAt ≤ other.2.releaseAt := by
      intro other hother hotherOpen
      have hle := hleast _ (mem_candidates.mpr ⟨other, hother, rfl, hotherOpen⟩)
      rcases Prod.Lex.toLex_le_toLex.mp hle with hlt | heq
      · exact hlt.le
      · exact heq.1.le
    simp only [peerOrEnrollmentStatus, hfirst]
    cases hrelease : store.enrollmentReleaseAt adapter.enrollSeconds with
    | none =>
      refine ⟨_, rfl, offers_peer hpeer hpeerOpen (fun _ release hmem => ?_) hpeers⟩
      rw [hrelease] at hmem
      exact absurd hmem (Option.not_mem_none _)
    | some release =>
      dsimp only
      split_ifs with htakes
      · refine ⟨_, rfl, offers_enrollment hrelease htakes.2 fun other hother hotherOpen => ?_⟩
        exact htakes.1.trans (Int.cast_le.mpr (hpeers other hother hotherOpen))
      · refine ⟨_, rfl, offers_peer hpeer hpeerOpen (fun henrollment r hr => ?_) hpeers⟩
        rw [hrelease, Option.mem_def, Option.some.injEq] at hr
        by_contra hlt
        exact htakes ⟨hr ▸ (not_le.mp hlt).le, henrollment⟩

/-- Without an open peer, the merge offers the enrollment at the earliest page of all peers. -/
theorem peerOrEnrollmentStatus_of_excluded (enrollmentRelease pageRelease : Option ℚ)
    (hpeers : ∀ peer ∈ store.eligiblePeers, adapter.peerRevision peer ∈ excluded) :
    adapter.peerOrEnrollmentStatus store (adapter.enrollmentRevision store) enrollmentRelease
        pageRelease excluded =
      enrollmentStatus (adapter.enrollmentRevision store) (pageRelease.getD 0) excluded := by
  have hnone : adapter.candidates store excluded = [] := by
    refine List.eq_nil_iff_forall_not_mem.mpr fun candidate hmem => ?_
    obtain ⟨peer, hpeer, -, hopen⟩ := mem_candidates.mp hmem
    exact hopen (hpeers peer hpeer)
  rw [peerOrEnrollmentStatus, (head?_leastFirst_eq_none _).mpr hnone]

end Offers

/-! ## The status -/

section Agreement

variable {adapter store} {excluded : Finset WorkRevision}

/-- No open release: the enrollment is excluded or has none, and every peer is excluded. -/
theorem openReleases_eq_empty :
    adapter.openReleases store excluded = ∅ ↔
      (adapter.enrollmentRevision store ∈ excluded ∨
          store.enrollmentReleaseAt adapter.enrollSeconds = none) ∧
        ∀ peer ∈ store.eligiblePeers, adapter.peerRevision peer ∈ excluded := by
  constructor
  · intro hempty
    refine ⟨?_, fun peer hpeer => ?_⟩
    · cases hrelease : store.enrollmentReleaseAt adapter.enrollSeconds with
      | none => exact .inr rfl
      | some release =>
        refine .inl (by_contra fun hopen => ?_)
        have hmem : release ∈ adapter.openReleases store excluded :=
          ⟨_, hopen, .enrollment hrelease⟩
        rw [hempty] at hmem
        exact hmem
    · by_contra hopen
      have hmem : (peer.2.releaseAt : ℚ) ∈ adapter.openReleases store excluded :=
        ⟨_, hopen, .peer hpeer⟩
      rw [hempty] at hmem
      exact hmem
  · rintro ⟨henrollment, hpeers⟩
    refine Set.eq_empty_of_forall_notMem ?_
    rintro release ⟨revision, hopen, hcandidate⟩
    cases hcandidate with
    | enrollment h =>
      rcases henrollment with hexcluded | hnone
      · exact hopen hexcluded
      · rw [hnone] at h
        exact absurd h (Option.some_ne_none release).symm
    | peer h => exact hopen (hpeers _ h)

variable (adapter store excluded) in
/-- The enrollment is not excluded and its release is no later than that of any eligible peer, be
it excluded or not. -/
def Prefers (release : ℚ) : Prop :=
  adapter.enrollmentRevision store ∉ excluded ∧
    store.enrollmentReleaseAt adapter.enrollSeconds = some release ∧
    ∀ peer ∈ store.eligiblePeers, release ≤ peer.2.releaseAt

variable (adapter store excluded) in
/-- The answer of a status with valid arguments. -/
def answer : Option DemandStatus :=
  adapter.statusOf store (store.pageReleaseAt.map fun releaseAt : ℤ => (releaseAt : ℚ))
    (store.enrollmentReleaseAt adapter.enrollSeconds) excluded

/-- The enrollment is offered when it comes before every page. -/
theorem answer_of_prefers (h : adapter.Prefers store excluded release) :
    adapter.answer store excluded =
      some { releaseAt := release, selected := some (adapter.enrollmentRevision store) } := by
  obtain ⟨hopen, hrelease, hpeers⟩ := h
  rw [answer, hrelease]
  cases hpage : store.pageReleaseAt with
  | none => simp only [Option.map_none, statusOf, if_pos hopen, enrollmentStatus, if_neg hopen]
  | some page =>
    obtain ⟨⟨peer, hpeer, rfl⟩, -⟩ := pageReleaseAt_eq_some.mp hpage
    have htakes : release ≤ (peer.2.releaseAt : ℚ) ∧ adapter.enrollmentRevision store ∉ excluded :=
      ⟨hpeers peer hpeer, hopen⟩
    simp only [Option.map_some, statusOf, if_pos htakes, enrollmentStatus, if_neg hopen]

/-- Otherwise the open peers and the enrollment are merged, if there is anything to merge. -/
theorem answer_of_not_prefers (h : ∀ release, ¬ adapter.Prefers store excluded release)
    (hsome : store.eligiblePeers ≠ [] ∨ store.enrollmentReleaseAt adapter.enrollSeconds ≠ none) :
    adapter.answer store excluded =
      adapter.peerOrEnrollmentStatus store (adapter.enrollmentRevision store)
        (store.enrollmentReleaseAt adapter.enrollSeconds)
        (store.pageReleaseAt.map fun releaseAt : ℤ => (releaseAt : ℚ)) excluded := by
  rw [answer]
  cases hpage : store.pageReleaseAt with
  | none =>
    have hnil := pageReleaseAt_eq_none.mp hpage
    cases hrelease : store.enrollmentReleaseAt adapter.enrollSeconds with
    | none => exact absurd (hsome.resolve_left (not_not_intro hnil)) (not_not_intro hrelease)
    | some release =>
      have hexcluded : ¬ adapter.enrollmentRevision store ∉ excluded := by
        intro hopen
        refine h release ⟨hopen, hrelease, fun peer hpeer => ?_⟩
        rw [hnil] at hpeer
        exact absurd hpeer List.not_mem_nil
      simp only [Option.map_none, statusOf, if_neg hexcluded]
  | some page =>
    cases hrelease : store.enrollmentReleaseAt adapter.enrollSeconds with
    | none => rfl
    | some release =>
      have hlater : ¬ (release ≤ (page : ℚ) ∧ adapter.enrollmentRevision store ∉ excluded) := by
        rintro ⟨hle, hopen⟩
        refine h release ⟨hopen, hrelease, fun peer hpeer => hle.trans ?_⟩
        exact Int.cast_le.mpr ((pageReleaseAt_eq_some.mp hpage).2 peer hpeer)
      simp only [Option.map_some, statusOf, if_neg hlater]

/-- There is nothing to offer without an eligible peer and without a release of the enrollment. -/
theorem answer_of_nothing (hpeers : store.eligiblePeers = [])
    (hrelease : store.enrollmentReleaseAt adapter.enrollSeconds = none) :
    adapter.answer store excluded = none := by
  rw [answer, pageReleaseAt_eq_none.mpr hpeers, hrelease]
  rfl

/-- If the peers are all excluded and the enrollment neither comes first nor is the last resort,
there is nothing to offer. -/
theorem nothing_of_not_fallsThrough (h : ¬ adapter.FallsThrough store excluded)
    (hprefers : ∀ release, ¬ adapter.Prefers store excluded release)
    (henrollment : adapter.enrollmentRevision store ∉ excluded)
    (hpeers : ∀ peer ∈ store.eligiblePeers, adapter.peerRevision peer ∈ excluded) :
    store.eligiblePeers = [] ∧ store.enrollmentReleaseAt adapter.enrollSeconds = none := by
  have hlater : ∀ release, store.enrollmentReleaseAt adapter.enrollSeconds = some release →
      ∃ peer ∈ store.eligiblePeers, (peer.2.releaseAt : ℚ) < release := by
    intro release hrelease
    by_contra hnone
    simp only [not_exists, not_and, not_lt] at hnone
    exact hprefers release ⟨henrollment, hrelease, hnone⟩
  have hnever : ∀ peer ∈ store.eligiblePeers, ∃ release,
      store.enrollmentReleaseAt adapter.enrollSeconds = some release ∧
        release ≤ peer.2.releaseAt := by
    intro peer hpeer
    by_contra hnone
    simp only [not_exists, not_and, not_le] at hnone
    exact h ⟨henrollment, hpeers, peer, hpeer, hnone⟩
  have hrelease : store.enrollmentReleaseAt adapter.enrollSeconds = none := by
    refine Option.eq_none_iff_forall_ne_some.mpr fun release hrelease => ?_
    obtain ⟨peer, hpeer, hlt⟩ := hlater release hrelease
    obtain ⟨release', hrelease', hle⟩ := hnever peer hpeer
    rw [hrelease, Option.some.injEq] at hrelease'
    exact hlt.not_ge (hrelease' ▸ hle)
  refine ⟨List.eq_nil_iff_forall_not_mem.mpr fun peer hpeer => ?_, hrelease⟩
  obtain ⟨release, hsome, -⟩ := hnever peer hpeer
  exact absurd (hrelease.symm.trans hsome) (Option.some_ne_none release).symm

/-- What the status answers, unless it falls through: an offer, or nothing when there is no open
release. -/
theorem answer_of_not_fallsThrough (h : ¬ adapter.FallsThrough store excluded) :
    (∃ status, adapter.answer store excluded = some status ∧
        Offers adapter store excluded status) ∨
      adapter.answer store excluded = none ∧ adapter.openReleases store excluded = ∅ := by
  by_cases hprefers : ∃ release, adapter.Prefers store excluded release
  · obtain ⟨release, hrelease⟩ := hprefers
    refine .inl ⟨_, answer_of_prefers hrelease, ?_⟩
    exact offers_enrollment hrelease.2.1 hrelease.1 fun peer hpeer _ => hrelease.2.2 peer hpeer
  rw [not_exists] at hprefers
  by_cases hopen : ∃ peer ∈ store.eligiblePeers, adapter.peerRevision peer ∉ excluded
  · obtain ⟨peer, hpeer, -⟩ := id hopen
    rw [answer_of_not_prefers hprefers (.inl (List.ne_nil_of_mem hpeer))]
    exact .inl (peerOrEnrollmentStatus_of_open _ hopen)
  · simp only [not_exists, not_and, not_not] at hopen
    have hclosed : adapter.enrollmentRevision store ∈ excluded ∨
        store.eligiblePeers = [] ∧
          store.enrollmentReleaseAt adapter.enrollSeconds = none :=
      or_iff_not_imp_left.mpr fun henrollment =>
        nothing_of_not_fallsThrough h hprefers henrollment hopen
    refine .inr ⟨?_, openReleases_eq_empty.mpr ⟨hclosed.imp_right And.right, hopen⟩⟩
    by_cases hnothing : store.eligiblePeers = [] ∧
        store.enrollmentReleaseAt adapter.enrollSeconds = none
    · exact answer_of_nothing hnothing.1 hnothing.2
    · rw [answer_of_not_prefers hprefers (not_and_or.mp hnothing),
        peerOrEnrollmentStatus_of_excluded _ _ hopen, enrollmentStatus]
      exact if_pos (hclosed.resolve_right hnothing)

/-- When the status falls through, it offers the enrollment at the earliest page. -/
theorem answer_of_fallsThrough (h : adapter.FallsThrough store excluded) :
    ∃ page : ℤ, store.pageReleaseAt = some page ∧ adapter.answer store excluded =
      some { releaseAt := page, selected := some (adapter.enrollmentRevision store) } := by
  obtain ⟨henrollment, hpeers, peer, hpeer, hearlier⟩ := h
  have hprefers : ∀ release, ¬ adapter.Prefers store excluded release :=
    fun release hrelease =>
      (hearlier release hrelease.2.1).not_ge (hrelease.2.2 peer hpeer)
  cases hpage : store.pageReleaseAt with
  | none =>
    rw [pageReleaseAt_eq_none.mp hpage] at hpeer
    exact absurd hpeer List.not_mem_nil
  | some page =>
    refine ⟨page, rfl, ?_⟩
    rw [answer_of_not_prefers hprefers (.inl (List.ne_nil_of_mem hpeer)),
      peerOrEnrollmentStatus_of_excluded _ _ hpeers, enrollmentStatus, if_neg henrollment, hpage]
    rfl

end Agreement

/-! ## The condition -/

variable {adapter store} in
/-- The status agrees with its slices exactly unless it falls through to the enrollment. -/
theorem cold_status_agrees {now : ℚ} {excluded : Finset WorkRevision} (hnow : 0 ≤ now)
    (hcadence : 0 < adapter.enrollSeconds) :
    adapter.StatusAgrees store now excluded ↔ ¬ adapter.FallsThrough store excluded := by
  have hstatus : adapter.status store now excluded = .ok (adapter.answer store excluded) :=
    status_eq hnow hcadence
  constructor
  · intro hagrees hfalls
    obtain ⟨page, hpage, hanswer⟩ := answer_of_fallsThrough hfalls
    obtain ⟨⟨peer, hpeer, hrelease⟩, hleast⟩ := pageReleaseAt_eq_some.mp hpage
    rw [hanswer] at hstatus
    obtain ⟨-, -, -, -, ⟨revision, hopen, hcandidate⟩, -⟩ := hagrees.offered _ hstatus
    obtain ⟨earlier, hearlierMem, hearlier⟩ := hfalls.earlier
    have hle : (page : ℚ) ≤ earlier.2.releaseAt := Int.cast_le.mpr (hleast earlier hearlierMem)
    generalize hoffered : (page : ℚ) = offered at hcandidate hle
    cases hcandidate with
    | enrollment henrollment => exact (hle.trans_lt (hearlier _ henrollment)).false
    | peer hmem => exact hopen (hfalls.peers _ hmem)
  · intro hfalls
    rcases answer_of_not_fallsThrough hfalls with ⟨status, hanswer, hoffers⟩ | ⟨hanswer, hempty⟩
    · obtain ⟨⟨revision, hselected, hopen, hcandidate⟩, hleast⟩ := hoffers
      rw [hanswer] at hstatus
      refine ⟨⟨_, hstatus⟩, fun offered hoffered => ?_, ?_⟩
      · rw [hstatus, Except.ok.injEq, Option.some.injEq] at hoffered
        subst hoffered
        refine ⟨revision, hselected, hopen, fun later hlater => ?_, ⟨revision, hopen, hcandidate⟩,
          hleast⟩
        exact validateColdSelection_of_candidate hnow hcadence hcandidate hlater
      · have hmem : status.releaseAt ∈ adapter.openReleases store excluded :=
          ⟨revision, hopen, hcandidate⟩
        rw [hstatus, Except.ok.injEq]
        exact iff_of_false (Option.some_ne_none status) (Set.nonempty_of_mem hmem).ne_empty
    · rw [hanswer] at hstatus
      refine ⟨⟨_, hstatus⟩, fun offered hoffered => ?_, iff_of_true hstatus hempty⟩
      rw [hstatus, Except.ok.injEq] at hoffered
      exact absurd hoffered.symm (Option.some_ne_none offered)

/-- An adapter. -/
def sampleAdapter : ColdPeerPageDemandAdapter := ⟨1, 1800⟩

/-- One peer, and nothing to enroll. -/
def sampleStore : ColdStore where
  rows := (∅ : Dictionary ℤ ColdRow).insert 5 (.enrolled 0)
  lost _ := false
  dialogs := []
  enrollment := {}

/-- The page of that peer. -/
def samplePage : WorkRevision := ⟨⟨.coldPeerPage, 1, "peer:5"⟩, "0"⟩

/-- When the only page is excluded, the status offers an enrollment that does not exist, and the
slice refuses it as stale. -/
theorem cold_status_falls_through :
    sampleAdapter.status sampleStore 10 {samplePage} =
        .ok (some { releaseAt := 0
                    selected := some (sampleAdapter.enrollmentRevision sampleStore) }) ∧
      sampleAdapter.validateColdSelection sampleStore
          (sampleAdapter.enrollmentRevision sampleStore) 10 =
        .ok (some { selected := sampleAdapter.enrollmentRevision sampleStore, kind := .stale }) ∧
      ¬ sampleAdapter.StatusAgrees sampleStore 10 {samplePage} := by
  have hstatus : sampleAdapter.status sampleStore 10 {samplePage} =
      .ok (some { releaseAt := 0
                  selected := some (sampleAdapter.enrollmentRevision sampleStore) }) := by
    decide +kernel
  refine ⟨hstatus, by decide +kernel, fun hagrees => ?_⟩
  have hempty : sampleAdapter.openReleases sampleStore {samplePage} = ∅ :=
    openReleases_eq_empty.mpr ⟨.inr (by decide +kernel), by decide +kernel⟩
  have hnull := hagrees.null.mpr hempty
  rw [hstatus, Except.ok.injEq] at hnull
  exact Option.some_ne_none _ hnull

/-- With nothing excluded, the same status agrees with its slices. -/
theorem cold_status_agrees_sample : sampleAdapter.StatusAgrees sampleStore 10 ∅ := by
  refine (cold_status_agrees (by decide) (by decide +kernel)).mpr fun hfalls => ?_
  have hpeer : ((5, .enrolled 0) : ℤ × ColdRow) ∈ sampleStore.eligiblePeers :=
    mem_eligiblePeers.mpr ⟨rfl, by decide, rfl⟩
  exact absurd (hfalls.peers _ hpeer) (Finset.notMem_empty _)

end ColdPeerPageDemandAdapter

end McpTelegram
