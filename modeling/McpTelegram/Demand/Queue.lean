import McpTelegram.Demand.World
import McpTelegram.Foundations.Fifo

/-!
# The ready queue under scans

A scan asks the kinds one after the other, and what it does for one kind leaves the turns, the
statuses and the holds of every other kind alone (`Leaves`).  So after a scan every queued kind
has a status whose revision is its own and is not excluded (`Settled`), and a kind that was ready
kept its turn.
-/

namespace McpTelegram

open Foundations

namespace DemandCoordinator

/-! ## Changes of the work map -/

@[simp] theorem workOf_updateWork (c : DemandCoordinator) (revision other : WorkRevision)
    (f : WorkState → WorkState) :
    (c.updateWork revision f).workOf other =
      if other = revision then f (c.workOf revision) else c.workOf other := by
  rw [workOf, updateWork, Dictionary.lookup_insert_eq]
  split_ifs <;> rfl

/-- A change of all entries that keeps the empty ones. -/
theorem workOf_mapWork (c : DemandCoordinator) {f : WorkRevision → WorkState → WorkState}
    (hf : ∀ revision, f revision {} = {}) (revision : WorkRevision) :
    (c.mapWork f).workOf revision = f revision (c.workOf revision) := by
  rw [workOf, mapWork, Dictionary.lookup_mapValues, workOf]
  cases c.work.lookup revision with
  | none => exact (hf revision).symm
  | some work => rfl

/-- The pruning of superseded revisions, revision by revision. -/
theorem workOf_pruneRevisedInvocations (c : DemandCoordinator) (selected revision : WorkRevision) :
    (c.pruneRevisedInvocations selected).workOf revision =
      if (c.workOf revision).invocation.isSome ∧ revision.key = selected.key ∧ revision ≠ selected
      then {} else c.workOf revision := by
  rw [pruneRevisedInvocations, workOf_mapWork]
  intro revision
  split_ifs <;> rfl

/-! ## What is never touched -/

/-- A change for one kind: the other kinds keep their turns, statuses, failures and holds, and the
slices under way stay known. -/
structure Leaves (kind : DemandKind) (c c' : DemandCoordinator) : Prop where
  turn : ∀ other ≠ kind, KeepsTurn c.queue c'.queue other
  stays : ∀ other ≠ kind, other ∈ c'.queue → other ∈ c.queue
  status : ∀ other ≠ kind, c'.statuses.lookup other = c.statuses.lookup other
  failed : ∀ other ≠ kind, c'.statusFailedUntil.lookup other = c.statusFailedUntil.lookup other
  work : ∀ revision, revision.key.demandKind ≠ kind → c'.workOf revision = c.workOf revision
  retained : c'.retainedRevision = c.retainedRevision
  active : c'.activeKind = c.activeKind

namespace Leaves

variable {kind : DemandKind} {c c' c'' : DemandCoordinator}

/-- No change at all. -/
theorem refl (kind : DemandKind) (c : DemandCoordinator) : Leaves kind c c where
  turn _ _ := KeepsTurn.refl _ _
  stays _ _ h := h
  status _ _ := rfl
  failed _ _ := rfl
  work _ _ := rfl
  retained := rfl
  active := rfl

/-- Two changes for one kind. -/
theorem trans (h : Leaves kind c c') (h' : Leaves kind c' c'') : Leaves kind c c'' where
  turn other hne := (h.turn other hne).trans (h'.turn other hne)
  stays other hne hmem := h.stays other hne (h'.stays other hne hmem)
  status other hne := (h'.status other hne).trans (h.status other hne)
  failed other hne := (h'.failed other hne).trans (h.failed other hne)
  work revision hne := (h'.work revision hne).trans (h.work revision hne)
  retained := h'.retained.trans h.retained
  active := h'.active.trans h.active

end Leaves

/-- The queue and its set agree, and the queue is served in the durable order only. -/
structure QueueSound (c : DemandCoordinator) : Prop where
  nodup : c.queue.Nodup
  queued : ∀ kind, kind ∈ c.queued ↔ kind ∈ c.queue
  durable : ∀ kind ∈ c.queue, kind ∈ durableDemandOrder

theorem QueueSound.length_le {c : DemandCoordinator} (h : c.QueueSound) :
    c.queue.length ≤ durableDemandOrder.length :=
  (List.subperm_of_subset h.nodup h.durable).length_le

/-- If the kind is in the queue, its status selects work of the kind that is not excluded. -/
def Settled (c : DemandCoordinator) (kind : DemandKind) : Prop :=
  kind ∈ c.queue → ∃ status selected, c.statuses.lookup kind = some status ∧
    status.selected = some selected ∧ selected.key.demandKind = kind ∧
      c.isExcluded selected = false

section
variable {c : DemandCoordinator} {kind : DemandKind}
variable {selected : WorkRevision} {c' : DemandCoordinator} {status : DemandStatus}
    {safetyScanSeconds observedAt : ℚ} {readings : List StatusReading} {other : DemandKind}
    {kinds : List DemandKind}

/-! ## Leaving and joining the queue -/

theorem removeQueued_leaves (c : DemandCoordinator) (kind : DemandKind) :
    Leaves kind c (c.removeQueued kind) := by
  unfold removeQueued
  split_ifs with hq
  · exact
      { turn := fun other hne => KeepsTurn.erase hne _
        stays := fun other _ hmem => List.mem_of_mem_erase hmem
        status := fun _ _ => rfl
        failed := fun _ _ => rfl
        work := fun _ _ => rfl
        retained := rfl
        active := rfl }
  · exact Leaves.refl kind c

/-- Removing a kind keeps the queue sound, without it. -/
theorem removeQueued_sound (h : c.QueueSound) (kind : DemandKind) :
    (c.removeQueued kind).QueueSound ∧ kind ∉ (c.removeQueued kind).queue := by
  unfold removeQueued
  split_ifs with hq
  · refine ⟨⟨h.nodup.erase kind, ?_, ?_⟩, h.nodup.not_mem_erase⟩
    · intro other
      rw [Finset.mem_erase, h.nodup.mem_erase_iff, h.queued]
    · intro other hmem
      exact h.durable other (List.mem_of_mem_erase hmem)
  · exact ⟨h, fun hmem => hq ((h.queued kind).mpr hmem)⟩

theorem setNotReady_leaves (c : DemandCoordinator) (kind : DemandKind) :
    Leaves kind c (c.setNotReady kind) :=
  have hready : Leaves kind c { c with authoritativeReady := c.authoritativeReady.erase kind } :=
    { turn := fun _ _ => KeepsTurn.refl _ _, stays := fun _ _ h => h, status := fun _ _ => rfl
      failed := fun _ _ => rfl, work := fun _ _ => rfl, retained := rfl, active := rfl }
  hready.trans (removeQueued_leaves _ kind)

/-- A kind that is not ready leaves the queue. -/
theorem setNotReady_sound (h : c.QueueSound) (kind : DemandKind) :
    (c.setNotReady kind).QueueSound ∧ kind ∉ (c.setNotReady kind).queue :=
  removeQueued_sound (c := { c with authoritativeReady := c.authoritativeReady.erase kind })
    ⟨h.nodup, h.queued, h.durable⟩ kind

theorem setReady_leaves (c : DemandCoordinator) (kind : DemandKind) (observedAt : ℚ) :
    Leaves kind c (c.setReady kind observedAt) := by
  unfold setReady
  split_ifs with hq
  · exact
      { turn := fun other _ => KeepsTurn.append _ _ other
        stays := fun other hne hmem =>
          (List.mem_append.mp hmem).resolve_right fun h => hne (List.mem_singleton.mp h)
        status := fun _ _ => rfl
        failed := fun _ _ => rfl
        work := fun _ _ => rfl
        retained := rfl
        active := rfl }
  · exact
      { turn := fun _ _ => KeepsTurn.refl _ _, stays := fun _ _ h => h, status := fun _ _ => rfl
        failed := fun _ _ => rfl, work := fun _ _ => rfl, retained := rfl, active := rfl }

/-- A ready kind keeps its own turn too. -/
theorem setReady_turn (c : DemandCoordinator) (kind : DemandKind) (observedAt : ℚ) :
    KeepsTurn c.queue (c.setReady kind observedAt).queue kind := by
  unfold setReady
  split_ifs with hq
  · exact KeepsTurn.append _ _ kind
  · exact KeepsTurn.refl _ _

/-- Joining the queue changes no status. -/
theorem setReady_statuses (c : DemandCoordinator) (kind : DemandKind) (observedAt : ℚ) :
    (c.setReady kind observedAt).statuses = c.statuses := by
  unfold setReady
  split_ifs <;> rfl

/-- Joining the queue changes no hold. -/
theorem setReady_workOf (c : DemandCoordinator) (kind : DemandKind) (observedAt : ℚ) :
    (c.setReady kind observedAt).workOf = c.workOf := by
  unfold setReady
  split_ifs <;> rfl

/-- A ready kind joins the queue at most once. -/
theorem setReady_sound (h : c.QueueSound) (hkind : kind ∈ durableDemandOrder) (observedAt : ℚ) :
    (c.setReady kind observedAt).QueueSound := by
  unfold setReady
  split_ifs with hq
  · have hnew : kind ∉ c.queue := fun hmem => hq.1 ((h.queued kind).mpr hmem)
    refine ⟨?_, ?_, ?_⟩
    · rw [← List.concat_eq_append]
      exact h.nodup.concat hnew
    · intro other
      simp only [Finset.mem_insert, List.mem_append, List.mem_singleton, h.queued]
      exact or_comm
    · intro other hmem
      rcases List.mem_append.mp hmem with hmem | hmem
      · exact h.durable other hmem
      · rw [List.mem_singleton.mp hmem]
        exact hkind
  · exact ⟨h.nodup, h.queued, h.durable⟩

/-- A ready kind is in the queue unless it is running. -/
theorem mem_setReady (h : c.QueueSound) (hactive : c.activeKind ≠ some kind) (observedAt : ℚ) :
    kind ∈ (c.setReady kind observedAt).queue := by
  unfold setReady
  split_ifs with hq
  · exact List.mem_append_right _ List.mem_cons_self
  · by_contra hmem
    exact hq ⟨fun hin => hmem ((h.queued kind).mp hin), hactive⟩

/-! ## One answer -/

/-- The statuses and failures of the kind itself may change freely. -/
theorem setStatus_leaves (c : DemandCoordinator) (kind : DemandKind)
    {statuses : Dictionary DemandKind DemandStatus} {failures : Dictionary DemandKind ℚ}
    {cell : ℕ} (hstatus : ∀ other ≠ kind, statuses.lookup other = c.statuses.lookup other)
    (hfailed : ∀ other ≠ kind, failures.lookup other = c.statusFailedUntil.lookup other) :
    Leaves kind c { c with statuses, statusFailedUntil := failures, nextCell := cell } where
  turn _ _ := KeepsTurn.refl _ _
  stays _ _ h := h
  status := hstatus
  failed := hfailed
  work _ _ := rfl
  retained := rfl
  active := rfl

/-- Pruning touches revisions of the kind of the selected one only. -/
theorem pruneRevisedInvocations_leaves (c : DemandCoordinator)
    (hkind : selected.key.demandKind = kind) :
    Leaves kind c (c.pruneRevisedInvocations selected) where
  turn _ _ := KeepsTurn.refl _ _
  stays _ _ h := h
  status _ _ := rfl
  failed _ _ := rfl
  work revision hne := by
    rw [workOf_pruneRevisedInvocations, if_neg]
    rintro ⟨-, hkey, -⟩
    exact hne (hkey ▸ hkind)
  retained := rfl
  active := rfl

/-- A change of the entries of one revision of the kind. -/
theorem updateWork_leaves (c : DemandCoordinator) (hkind : selected.key.demandKind = kind)
    (f : WorkState → WorkState) :
    Leaves kind c (c.updateWork selected f) where
  turn _ _ := KeepsTurn.refl _ _
  stays _ _ h := h
  status _ _ := rfl
  failed _ _ := rfl
  work revision hne := by
    rw [workOf_updateWork, if_neg]
    rintro rfl
    exact hne hkind
  retained := rfl
  active := rfl

/-- What one answer of an adapter does. -/
structure Answered (kind : DemandKind) (c c' : DemandCoordinator) : Prop where
  leaves : Leaves kind c c'
  sound : c'.QueueSound
  settled : c'.Settled kind

theorem settled_of_notMem (h : kind ∉ c.queue) : c.Settled kind := fun hmem => absurd hmem h

/-- `None` takes the kind out of the queue. -/
theorem applyNone_answered (h : c.QueueSound) (kind : DemandKind) :
    Answered kind c (c.applyNone kind) := by
  obtain ⟨hsound, hout⟩ :=
    setNotReady_sound (c := { c with statuses := c.statuses.erase kind })
      ⟨h.nodup, h.queued, h.durable⟩ kind
  refine ⟨Leaves.trans (setStatus_leaves c kind ?_ ?_) (setNotReady_leaves _ kind), hsound,
    settled_of_notMem hout⟩
  · intro other hne
    exact AList.lookup_erase_ne hne
  · exact fun _ _ => rfl

/-- A failing adapter takes the kind out of the queue. -/
theorem recordStatusFailure_answered (h : c.QueueSound) (safetyScanSeconds : ℚ)
    (kind : DemandKind) (observedAt : ℚ) :
    Answered kind c (c.recordStatusFailure safetyScanSeconds kind observedAt) ∧
      kind ∉ (c.recordStatusFailure safetyScanSeconds kind observedAt).queue := by
  obtain ⟨hsound, hout⟩ :=
    setNotReady_sound
      (c := { c with
        statusFailedUntil := c.statusFailedUntil.insert kind (observedAt + safetyScanSeconds)
        statuses := c.statuses.erase kind })
      ⟨h.nodup, h.queued, h.durable⟩ kind
  refine ⟨⟨Leaves.trans (setStatus_leaves c kind ?_ ?_) (setNotReady_leaves _ kind), hsound,
    settled_of_notMem hout⟩, hout⟩
  · intro other hne
    exact AList.lookup_erase_ne hne
  · intro other hne
    exact AList.lookup_insert_ne hne

/-- A change that keeps the queue keeps it sound. -/
theorem QueueSound.congr (h : c.QueueSound) (hqueue : c'.queue = c.queue)
    (hqueued : c'.queued = c.queued) : c'.QueueSound where
  nodup := by
    rw [hqueue]
    exact h.nodup
  queued := by
    rw [hqueue, hqueued]
    exact h.queued
  durable := by
    rw [hqueue]
    exact h.durable

/-- A kind that is not ready is settled. -/
theorem setNotReady_answered (h : Leaves kind c c') (hsound : c'.QueueSound) :
    Answered kind c (c'.setNotReady kind) := by
  obtain ⟨hsound', hout⟩ := setNotReady_sound hsound kind
  exact ⟨h.trans (setNotReady_leaves c' kind), hsound', settled_of_notMem hout⟩

/-- A status of the kind's own work leaves the kind settled. -/
theorem applySome_answered (h : c.QueueSound) (hkind : kind ∈ durableDemandOrder)
    (hown : ∀ selected, status.selected = some selected → selected.key.demandKind = kind)
    (observedAt : ℚ) (reading : StatusReading) :
    Answered kind c (c.applySome kind status observedAt reading) := by
  have hstatus : Leaves kind c { c with statuses := c.statuses.insert kind status } :=
    setStatus_leaves c kind (fun _ hne => AList.lookup_insert_ne hne) fun _ _ => rfl
  dsimp only [applySome]
  cases hselected : status.selected with
  | none => exact setNotReady_answered hstatus (h.congr rfl rfl)
  | some selected =>
    have hkey : selected.key.demandKind = kind := hown selected hselected
    have hpruned := hstatus.trans (pruneRevisedInvocations_leaves _ hkey)
    dsimp only
    split_ifs with hexcluded hready hgate
    · exact setNotReady_answered hpruned (h.congr rfl rfl)
    · exact setNotReady_answered hpruned (h.congr rfl rfl)
    · refine setNotReady_answered ?_ (h.congr rfl rfl)
      exact (hpruned.trans (updateWork_leaves _ hkey _)).trans
        (setStatus_leaves _ kind (fun _ hne => AList.lookup_insert_ne hne) fun _ _ => rfl)
    · have hnone : reading.gate = none := by simpa using hgate
      refine ⟨?_, ?_, ?_⟩
      · exact ((hpruned.trans (updateWork_leaves _ hkey _)).trans
          (setStatus_leaves _ kind (fun _ hne => AList.lookup_insert_ne hne) fun _ _ => rfl)).trans
            (setReady_leaves _ kind observedAt)
      · apply setReady_sound _ hkind
        exact h.congr rfl rfl
      · intro _
        refine ⟨status, selected, ?_, hselected, hkey, ?_⟩
        · rw [setReady_statuses, hnone]
          exact AList.lookup_insert _
        · rw [isExcluded, setReady_workOf]
          have hwork : ∀ (c : DemandCoordinator) (cell : ℕ)
              (statuses : Dictionary DemandKind DemandStatus),
              ({ c with nextCell := cell, statuses } : DemandCoordinator).workOf = c.workOf :=
            fun _ _ _ => rfl
          rw [hwork, workOf_updateWork, if_pos rfl, hnone]
          simpa [isExcluded, WorkState.meetGate] using hexcluded

/-! ## One kind -/

/-- Clearing the failure of a kind. -/
theorem clearFailure_leaves (c : DemandCoordinator) (kind : DemandKind) :
    Leaves kind c (c.clearFailure kind) :=
  setStatus_leaves c kind (fun _ _ => rfl) fun _ hne => AList.lookup_erase_ne hne

/-- A kind whose status failed is out of the queue. -/
def FailedOut (c : DemandCoordinator) (kind : DemandKind) : Prop :=
  (c.statusFailedUntil.lookup kind).isSome → kind ∉ c.queue

/-- What the scan of one kind does. -/
structure Scanned (kind : DemandKind) (c c' : DemandCoordinator) : Prop
    extends Answered kind c c' where
  failedOut : c'.FailedOut kind

/-- The end of a scan of one kind without a failure. -/
theorem clearFailure_scanned (h : Answered kind c c') :
    Scanned kind c (c'.clearFailure kind) where
  leaves := h.leaves.trans (clearFailure_leaves c' kind)
  sound := h.sound.congr rfl rfl
  settled := h.settled
  failedOut hfailed := by
    have hnone : (c'.clearFailure kind).statusFailedUntil.lookup kind = none :=
      AList.lookup_erase _ _
    rw [hnone] at hfailed
    cases hfailed

/-- The answers of one adapter. -/
theorem scanAvailableKind_scanned (hkind : kind ∈ durableDemandOrder)
    (hown : OwnAnswers kind readings) (h : c.QueueSound)
    (hscan : scanAvailableKind safetyScanSeconds kind observedAt c readings = some c') :
    Scanned kind c c' := by
  induction readings generalizing c with
  | nil => cases hscan
  | cons reading rest ih =>
    unfold scanAvailableKind at hscan
    split at hscan
    next =>
      split_ifs at hscan
      cases hscan
      obtain ⟨hanswered, hout⟩ := recordStatusFailure_answered h safetyScanSeconds kind observedAt
      exact ⟨hanswered, fun _ => hout⟩
    next =>
      split_ifs at hscan
      cases hscan
      exact clearFailure_scanned (applyNone_answered h kind)
    next status hanswer =>
      have hanswered :=
        applySome_answered h hkind (hown reading List.mem_cons_self status hanswer) observedAt
          reading
      dsimp only at hscan
      split_ifs at hscan
      · have hrest : OwnAnswers kind rest := fun r hr => hown r (List.mem_cons_of_mem _ hr)
        have hscanned := ih hrest hanswered.sound hscan
        exact ⟨⟨hanswered.leaves.trans hscanned.leaves, hscanned.sound, hscanned.settled⟩,
          hscanned.failedOut⟩
      · cases hscan
        exact clearFailure_scanned hanswered

/-- The scan of one kind. -/
theorem scanKind_scanned (hkind : kind ∈ durableDemandOrder) (hown : OwnAnswers kind readings)
    (h : c.QueueSound) (hfailed : c.FailedOut kind)
    (hscan : scanKind safetyScanSeconds observedAt c kind readings = some c') :
    Scanned kind c c' := by
  unfold scanKind at hscan
  split_ifs at hscan with hretained hsuspended
  · cases hscan
    obtain ⟨hsound, hout⟩ := removeQueued_sound h kind
    exact ⟨⟨removeQueued_leaves c kind, hsound, settled_of_notMem hout⟩, fun _ => hout⟩
  · cases hscan
    have hsome : (c.statusFailedUntil.lookup kind).isSome := by
      rw [Option.any_eq_true] at hsuspended
      obtain ⟨until', hlookup, -⟩ := hsuspended
      rw [hlookup]
      rfl
    exact ⟨⟨Leaves.refl kind c, h, settled_of_notMem (hfailed hsome)⟩, hfailed⟩
  · exact scanAvailableKind_scanned hkind hown h hscan

/-- A retained kind is out of the queue after its scan. -/
theorem scanKind_retainedOut (h : c.QueueSound)
    (hscan : scanKind safetyScanSeconds observedAt c kind readings = some c')
    (hretained : c.retainedKind kind = true) : kind ∉ c'.queue := by
  rw [scanKind, if_pos hretained] at hscan
  cases hscan
  exact (removeQueued_sound h kind).2

/-! ## All kinds -/

/-- The queue with what is never in it: kinds whose status failed, and the retained kind. -/
structure QueueInvariant (c : DemandCoordinator) : Prop extends QueueSound c where
  failedOut : ∀ kind, c.FailedOut kind
  retainedOut : ∀ kind, c.retainedKind kind = true → kind ∉ c.queue

/-- The scan of another kind keeps a kind settled. -/
theorem Settled.leaves (h : c.Settled kind) (hleaves : Leaves other c c') (hne : kind ≠ other) :
    c'.Settled kind := by
  intro hmem
  obtain ⟨status, selected, hstatus, hselected, hkey, hexcluded⟩ := h (hleaves.stays kind hne hmem)
  refine ⟨status, selected, (hleaves.status kind hne).trans hstatus, hselected, hkey, ?_⟩
  rw [isExcluded, hleaves.work selected (hkey ▸ hne)]
  exact hexcluded

/-- The retained kind is known through the retained revision. -/
theorem Leaves.retainedKind (h : Leaves kind c c') (other : DemandKind) :
    c'.retainedKind other = c.retainedKind other := by
  rw [DemandCoordinator.retainedKind, DemandCoordinator.retainedKind, h.retained]

/-- The scan of one kind keeps the invariant. -/
theorem scanKind_invariant (hkind : kind ∈ durableDemandOrder) (hown : OwnAnswers kind readings)
    (h : c.QueueInvariant) (hscan : scanKind safetyScanSeconds observedAt c kind readings = some c') :
    Scanned kind c c' ∧ c'.QueueInvariant := by
  have hscanned := scanKind_scanned hkind hown h.toQueueSound (h.failedOut kind) hscan
  refine ⟨hscanned, hscanned.sound, ?_, ?_⟩
  · intro other hfailed hmem
    by_cases hne : other = kind
    · subst hne
      exact hscanned.failedOut hfailed hmem
    · rw [hscanned.leaves.failed other hne] at hfailed
      exact h.failedOut other hfailed (hscanned.leaves.stays other hne hmem)
  · intro other hretained hmem
    rw [hscanned.leaves.retainedKind] at hretained
    by_cases hne : other = kind
    · subst hne
      exact scanKind_retainedOut h.toQueueSound hscan hretained hmem
    · exact h.retainedOut other hretained (hscanned.leaves.stays other hne hmem)

/-- The loop over the kinds keeps the invariant and settles each kind that it visits. -/
theorem scanKinds_invariant {readings : ScanReadings}
    (hkinds : ∀ kind ∈ kinds, kind ∈ durableDemandOrder) (hown : OwnKinds readings)
    (h : c.QueueInvariant) (hscan : scanKinds safetyScanSeconds readings c kinds = some c') :
    c'.QueueInvariant ∧ (∀ kind, kind ∈ kinds ∨ c.Settled kind → c'.Settled kind) ∧
      c'.retainedRevision = c.retainedRevision ∧ c'.activeKind = c.activeKind := by
  induction kinds generalizing c with
  | nil =>
    cases hscan
    exact ⟨h, fun kind hkind => hkind.resolve_left List.not_mem_nil, rfl, rfl⟩
  | cons kind kinds ih =>
    obtain ⟨c₁, hfirst, hrest⟩ := Option.bind_eq_some_iff.mp hscan
    obtain ⟨hscanned, hinv⟩ :=
      scanKind_invariant (hkinds kind List.mem_cons_self) (hown kind) h hfirst
    obtain ⟨hinv', hsettled, hretained, hactive⟩ :=
      ih (fun other hmem => hkinds other (List.mem_cons_of_mem _ hmem)) hinv hrest
    refine ⟨hinv', ?_, hretained.trans hscanned.leaves.retained,
      hactive.trans hscanned.leaves.active⟩
    intro other hother
    apply hsettled other
    by_cases hne : other = kind
    · rw [hne]
      exact Or.inr hscanned.settled
    · rcases hother with hmem | hother
      · exact Or.inl ((List.mem_cons.mp hmem).resolve_left hne)
      · exact Or.inr (hother.leaves hscanned.leaves hne)

/-! ## A kind that is ready -/

/-- Pruning keeps the selected revision as it is. -/
theorem workOf_pruneRevisedInvocations_self (c : DemandCoordinator) (selected : WorkRevision) :
    (c.pruneRevisedInvocations selected).workOf selected = c.workOf selected := by
  rw [workOf_pruneRevisedInvocations, if_neg]
  rintro ⟨-, -, hne⟩
  exact hne rfl

/-- A ready and ungated status makes its kind ready. -/
theorem applySome_of_ready {reading : StatusReading} (hselected : status.selected = some selected)
    (hready : status.isReady observedAt = true) (hexcluded : c.isExcluded selected = false)
    (hgate : reading.gate = none) :
    ∃ c₁ : DemandCoordinator, c.applySome kind status observedAt reading =
      c₁.setReady kind observedAt ∧ c₁.queue = c.queue ∧ c₁.queued = c.queued ∧
        c₁.activeKind = c.activeKind ∧ c₁.isExcluded selected = false := by
  have hpruned : (({ c with statuses := c.statuses.insert kind status } :
      DemandCoordinator).pruneRevisedInvocations selected).isExcluded selected = false := by
    rw [isExcluded, workOf_pruneRevisedInvocations_self]
    exact hexcluded
  dsimp only [applySome]
  rw [hselected]
  dsimp only
  rw [if_neg (by simp [hpruned]), if_neg (by simp [hready]), if_neg (by simp [hgate])]
  refine ⟨_, rfl, rfl, rfl, rfl, ?_⟩
  have hwork : ∀ (c : DemandCoordinator) (cell : ℕ)
      (statuses : Dictionary DemandKind DemandStatus),
      ({ c with nextCell := cell, statuses } : DemandCoordinator).workOf = c.workOf :=
    fun _ _ _ => rfl
  rw [isExcluded, hwork, workOf_updateWork, if_pos rfl, hgate]
  exact hpruned

/-- A ready kind keeps its turn, and is in the queue unless it is running. -/
theorem scanKind_turn (h : c.QueueSound) (hready : c.AnswersReady kind observedAt readings)
    (hscan : scanKind safetyScanSeconds observedAt c kind readings = some c') :
    KeepsTurn c.queue c'.queue kind ∧ (c.activeKind ≠ some kind → kind ∈ c'.queue) := by
  obtain ⟨hretained, hfailed, reading, rest, status, selected, rfl, hanswer, hselected, hisReady,
    hexcluded, hgate⟩ := hready
  obtain ⟨c₁, happly, hqueue, hqueued, hactive, hopen⟩ :=
    @applySome_of_ready c kind _ _ _ _ hselected hisReady hexcluded hgate
  rw [scanKind, if_neg (by simp [hretained]), if_neg (by simp [hfailed]), scanAvailableKind,
    hanswer] at hscan
  dsimp only at hscan
  rw [happly] at hscan
  have hasks : asksAgain c (c₁.setReady kind observedAt) status = false := by
    rw [asksAgain, hselected, Option.any_some, isExcluded, setReady_workOf]
    rw [isExcluded] at hopen
    rw [hopen, Bool.false_and]
  rw [hasks] at hscan
  simp only [Bool.false_eq_true, ↓reduceIte] at hscan
  split_ifs at hscan
  cases hscan
  refine ⟨?_, fun hidle => ?_⟩
  · rw [← hqueue]
    exact setReady_turn c₁ kind observedAt
  · exact mem_setReady (h.congr hqueue hqueued) (hactive ▸ hidle) observedAt

/-- The loop over other kinds keeps a turn. -/
theorem scanKinds_leaves {readings : ScanReadings}
    (hkinds : ∀ other ∈ kinds, other ∈ durableDemandOrder) (hown : OwnKinds readings)
    (h : c.QueueInvariant) (hnot : kind ∉ kinds)
    (hscan : scanKinds safetyScanSeconds readings c kinds = some c') :
    KeepsTurn c.queue c'.queue kind := by
  induction kinds generalizing c with
  | nil =>
    cases hscan
    exact KeepsTurn.refl _ _
  | cons other kinds ih =>
    obtain ⟨c₁, hfirst, hrest⟩ := Option.bind_eq_some_iff.mp hscan
    obtain ⟨hscanned, hinv⟩ :=
      scanKind_invariant (hkinds other List.mem_cons_self) (hown other) h hfirst
    rw [List.mem_cons, not_or] at hnot
    exact (hscanned.leaves.turn kind hnot.1).trans
      (ih (fun k hk => hkinds k (List.mem_cons_of_mem _ hk)) hinv hnot.2 hrest)

/-- The answers for a kind are ready before and after the scan of another one. -/
theorem AnswersReady.leaves (h : c.AnswersReady kind observedAt readings)
    (hown : OwnAnswers kind readings) (hleaves : Leaves other c c') (hne : kind ≠ other) :
    c'.AnswersReady kind observedAt readings := by
  obtain ⟨hretained, hfailed, reading, rest, status, selected, hreadings, hanswer, hselected,
    hisReady, hexcluded, hgate⟩ := h
  refine ⟨(hleaves.retainedKind kind).trans hretained, ?_, reading, rest, status, selected,
    hreadings, hanswer, hselected, hisReady, ?_, hgate⟩
  · rw [hleaves.failed kind hne]
    exact hfailed
  · have hkey : selected.key.demandKind = kind :=
      hown reading (hreadings ▸ List.mem_cons_self) status hanswer selected hselected
    rw [isExcluded, hleaves.work selected (hkey ▸ hne)]
    exact hexcluded

/-- In a loop that visits it once, a ready kind keeps its turn and ends in the queue unless it is
running. -/
theorem scanKinds_turn {readings : ScanReadings}
    (hkinds : ∀ other ∈ kinds, other ∈ durableDemandOrder) (hnodup : kinds.Nodup)
    (hown : OwnKinds readings) (h : c.QueueInvariant) (hmem : kind ∈ kinds)
    (hready : c.AnswersReady kind readings.observedAt (readings.answers kind))
    (hscan : scanKinds safetyScanSeconds readings c kinds = some c') :
    KeepsTurn c.queue c'.queue kind ∧ (c.activeKind ≠ some kind → kind ∈ c'.queue) := by
  induction kinds generalizing c with
  | nil => exact absurd hmem List.not_mem_nil
  | cons other kinds ih =>
    obtain ⟨c₁, hfirst, hrest⟩ := Option.bind_eq_some_iff.mp hscan
    obtain ⟨hscanned, hinv⟩ :=
      scanKind_invariant (hkinds other List.mem_cons_self) (hown other) h hfirst
    have hkinds' : ∀ k ∈ kinds, k ∈ durableDemandOrder :=
      fun k hk => hkinds k (List.mem_cons_of_mem _ hk)
    rw [List.nodup_cons] at hnodup
    by_cases hne : kind = other
    · subst hne
      obtain ⟨hturn, hin⟩ := scanKind_turn h.toQueueSound hready hfirst
      have hkeeps := scanKinds_leaves hkinds' hown hinv hnodup.1 hrest
      exact ⟨hturn.trans hkeeps, fun hidle => (hkeeps (hin hidle)).1⟩
    · obtain ⟨hturn, hin⟩ :=
        ih hkinds' hnodup.2 hinv ((List.mem_cons.mp hmem).resolve_left hne)
          (hready.leaves (hown kind) hscanned.leaves hne) hrest
      refine ⟨(hscanned.leaves.turn kind hne).trans hturn, fun hidle => hin ?_⟩
      rw [hscanned.leaves.active]
      exact hidle

/-! ## A whole scan -/

/-- Changes of the work map and of the fields that the queue does not depend on. -/
theorem QueueInvariant.congr (h : c.QueueInvariant) (hqueue : c'.queue = c.queue)
    (hqueued : c'.queued = c.queued) (hfailed : c'.statusFailedUntil = c.statusFailedUntil)
    (hretained : c'.retainedRevision = c.retainedRevision) : c'.QueueInvariant where
  toQueueSound := h.toQueueSound.congr hqueue hqueued
  failedOut kind := by
    rw [FailedOut, hfailed, hqueue]
    exact h.failedOut kind
  retainedOut kind := by
    rw [retainedKind, hretained, hqueue]
    exact h.retainedOut kind

/-- What a scan does to the queue. -/
structure ScanResult (readings : ScanReadings) (c c' : DemandCoordinator) : Prop where
  invariant : c'.QueueInvariant
  settled : ∀ kind, c'.Settled kind
  retained : c'.retainedRevision = c.retainedRevision
  active : c'.activeKind = c.activeKind
  turn : ∀ kind ∈ durableDemandOrder, c.ReadyAt kind readings →
    KeepsTurn c.queue c'.queue kind ∧ (c.activeKind ≠ some kind → kind ∈ c'.queue)

/-- A scan keeps the invariant, settles every kind and keeps the turns of the ready ones. -/
theorem scan_result {readings : ScanReadings} {clearOffers : Bool} (hown : OwnKinds readings)
    (h : c.QueueInvariant) (hscan : scan safetyScanSeconds c readings clearOffers = some c') :
    ScanResult readings c c' := by
  unfold scan at hscan
  obtain ⟨c₁, hkinds, rfl⟩ := Option.map_eq_some_iff.mp hscan
  set c₀ : DemandCoordinator :=
    if clearOffers then { c.releaseExpired readings with offered := ∅ }
    else c.releaseExpired readings with hc₀
  have hfields : c₀.queue = c.queue ∧ c₀.queued = c.queued ∧
      c₀.statusFailedUntil = c.statusFailedUntil ∧ c₀.retainedRevision = c.retainedRevision ∧
        c₀.activeKind = c.activeKind ∧ c₀.workOf = (c.releaseExpired readings).workOf := by
    rw [hc₀]
    cases clearOffers <;> exact ⟨rfl, rfl, rfl, rfl, rfl, rfl⟩
  obtain ⟨hqueue, hqueued, hfailed, hretained, hactive, hwork⟩ := hfields
  have hinv : c₀.QueueInvariant := h.congr hqueue hqueued hfailed hretained
  have hall : ∀ kind ∈ durableDemandOrder, kind ∈ durableDemandOrder := fun _ hk => hk
  obtain ⟨hinv', hsettled, hretained', hactive'⟩ := scanKinds_invariant hall hown hinv hkinds
  have hqueue₁ : (c₁.recomputeNextRelease readings.observedAt).queue = c₁.queue := rfl
  refine ⟨hinv'.congr rfl rfl rfl rfl, ?_, hretained'.trans hretained, hactive'.trans hactive, ?_⟩
  · intro kind hmem
    exact hsettled kind (Or.inl (hinv'.durable kind hmem)) hmem
  · intro kind hmem hready
    have hready₀ : c₀.AnswersReady kind readings.observedAt (readings.answers kind) := by
      unfold ReadyAt AnswersReady at hready
      unfold AnswersReady
      simp only [isExcluded] at hready ⊢
      rw [hwork, retainedKind, hretained, hfailed]
      exact hready
    rw [hqueue₁, ← hqueue, ← hactive]
    exact scanKinds_turn hall durableDemandOrder_nodup hown hinv hmem hready₀ hkinds

end

end DemandCoordinator

end McpTelegram
