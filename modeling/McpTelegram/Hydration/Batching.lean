import Mathlib.Data.Prod.Lex
import Mathlib.Data.String.Basic
import McpTelegram.Foundations.Dictionary
import McpTelegram.Foundations.Grouping
import McpTelegram.Messages.Contracts

/-!
# Batching hydration jobs

`batch_jobs` of `fact_hydration.py`: the jobs are grouped by kind, priority and dialog, cut to the
batch size of their handler, ordered by kind, and merged in rounds, one tier after the other.
-/

namespace McpTelegram

open Foundations

variable {kind : String}

/-- `HydrationJob`, with the kind of any handler. -/
structure DueJob where
  kind : String
  dialogId : ℤ
  messageId : ℤ
  dueAt : ℤ
  attempts : ℕ
  messageSentAt : ℤ := 0
  priority : HydrationPriority := .foreground
  terminal : Bool := false
  deriving DecidableEq

/-- `_due_job_order_key`. -/
def dueJobOrderKey (job : DueJob) : ℤ ×ₗ ℤ ×ₗ String ×ₗ ℤ ×ₗ ℤ :=
  toLex (-job.messageSentAt, toLex (job.dueAt, toLex (job.kind, toLex (job.dialogId,
    job.messageId))))

/-- What `batch_jobs` reads of a `HydrationHandler`. -/
structure BatchHandler where
  batchSize : ℕ
  batchSize_pos : 0 < batchSize

/-- `HydrationBatch`: the priority, the position of the first job, and the jobs. -/
structure PositionedBatch where
  priority : HydrationPriority
  position : ℕ
  jobs : List DueJob

section Batching

variable (jobs : List DueJob) (handlers : Dictionary String BatchHandler)

/-- The batches that the loop over the groups appends, with their kinds. -/
def hydrationChunks : List (String × PositionedBatch) :=
  (groupOn (fun entry : DueJob × ℕ => (entry.1.kind, entry.1.priority, entry.1.dialogId))
    jobs.zipIdx).flatMap fun group =>
      match handlers.lookup group.1.1 with
      | none => []
      | some handler =>
        (chunks handler.batchSize group.2).map fun chunk =>
          (group.1.1,
            { priority := group.1.2.1
              position := (chunk.head?.map Prod.snd).getD 0
              jobs := chunk.map Prod.fst })

/-- The sort key `(-int(batch[0]), batch[1])`. -/
def PositionedBatch.before (batch other : PositionedBatch) : Bool :=
  decide (toLex (-batch.priority.toInt, batch.position) ≤
    toLex (-other.priority.toInt, other.position))

/-- `_group_hydration_batches`. -/
def groupHydrationBatches : List (String × List PositionedBatch) :=
  (groupOn Prod.fst (hydrationChunks jobs handlers)).map fun group =>
    (group.1, (group.2.map Prod.snd).mergeSort PositionedBatch.before)

/-- The order of the batches of one round: by their first jobs. -/
def PositionedBatch.firstBefore (batch other : PositionedBatch) : Bool :=
  match batch.jobs, other.jobs with
  | job :: _, otherJob :: _ => decide (dueJobOrderKey job ≤ dueJobOrderKey otherJob)
  | _, _ => true

variable (byKind : List (String × List PositionedBatch)) (priority : HydrationPriority)

/-- `tiered` in `_order_priority_batches`. -/
def tieredBatches : List (List PositionedBatch) :=
  byKind.map fun entry => entry.2.filter (·.priority = priority)

/-- `_order_priority_batches`. -/
def orderPriorityBatches : List PositionedBatch :=
  rounds (·.mergeSort PositionedBatch.firstBefore)
    (((tieredBatches byKind priority).map List.length).max?.getD 0)
    (tieredBatches byKind priority)

/-- The other of the two tiers. -/
def HydrationPriority.other : HydrationPriority → HydrationPriority
  | .backfill => .foreground
  | .foreground => .backfill

/-- The tier that comes first. -/
def preferredPriority (backfillFirst : Bool) : HydrationPriority :=
  if backfillFirst then .backfill else .foreground

/-- `_order_hydration_batches`. -/
def orderHydrationBatches (backfillFirst : Bool) : List (List DueJob) :=
  (orderPriorityBatches byKind (preferredPriority backfillFirst) ++
    orderPriorityBatches byKind (preferredPriority backfillFirst).other).map (·.jobs)

/-- `batch_jobs`. -/
def batchJobs (backfillFirst : Bool) : List (List DueJob) :=
  orderHydrationBatches (groupHydrationBatches jobs handlers) backfillFirst

end Batching

/-! ## What a batch is -/

variable {jobs : List DueJob} {handlers : Dictionary String BatchHandler}
  {priority : HydrationPriority}

/-- A batch of a kind and a priority: jobs of one dialog in the order of the input, and not more
than the handler takes. -/
structure IsBatch (jobs : List DueJob) (handlers : Dictionary String BatchHandler) (kind : String)
    (priority : HydrationPriority) (batch : List DueJob) : Prop where
  nonempty : batch ≠ []
  sublist : batch.Sublist jobs
  of_kind : ∀ job ∈ batch, job.kind = kind
  of_priority : ∀ job ∈ batch, job.priority = priority
  of_dialog : ∃ dialogId, ∀ job ∈ batch, job.dialogId = dialogId
  size : ∃ handler, handlers.lookup kind = some handler ∧ batch.length ≤ handler.batchSize

variable {batch : PositionedBatch}

/-- Every chunk is a batch. -/
theorem isBatch_of_mem_chunks (h : (kind, batch) ∈ hydrationChunks jobs handlers) :
    IsBatch jobs handlers kind batch.priority batch.jobs := by
  obtain ⟨⟨⟨groupKind, groupPriority, dialogId⟩, group⟩, hgroup, hbatch⟩ := List.mem_flatMap.mp h
  obtain ⟨hgroupEq, -⟩ := mem_groupOn hgroup
  cases hhandler : handlers.lookup groupKind with
  | none => simp [hhandler] at hbatch
  | some handler =>
    simp only [hhandler] at hbatch
    obtain ⟨chunk, hchunk, heq⟩ := List.mem_map.mp hbatch
    cases heq
    obtain ⟨hsublist, hlength, hnonempty⟩ := mem_chunks handler.batchSize_pos hchunk
    have hkey : ∀ job ∈ chunk.map Prod.fst,
        (job.kind, job.priority, job.dialogId) = (kind, groupPriority, dialogId) := by
      intro job hjob
      obtain ⟨entry, hentry, rfl⟩ := List.mem_map.mp hjob
      have hmem := hsublist.subset hentry
      rw [hgroupEq, List.mem_filter] at hmem
      exact of_decide_eq_true hmem.2
    refine ⟨by simpa using hnonempty, ?_, fun job hjob => congrArg Prod.fst (hkey job hjob),
      fun job hjob => congrArg (fun key => key.2.1) (hkey job hjob),
      ⟨dialogId, fun job hjob => congrArg (fun key => key.2.2) (hkey job hjob)⟩,
      handler, hhandler, by simpa using hlength⟩
    have hjobs : jobs = jobs.zipIdx.map Prod.fst := by simp
    rw [hjobs]
    refine (hsublist.trans ?_).map _
    rw [hgroupEq]
    exact List.filter_sublist

/-- The chunks have every job with a handler. -/
theorem hydrationChunks_perm :
    ((hydrationChunks jobs handlers).flatMap (·.2.jobs)).Perm
      (jobs.filter fun job => (handlers.lookup job.kind).isSome) := by
  have hflat : (hydrationChunks jobs handlers).flatMap (·.2.jobs) =
      (((groupOn (fun entry : DueJob × ℕ => (entry.1.kind, entry.1.priority, entry.1.dialogId))
        jobs.zipIdx).flatMap Prod.snd).filter
          fun entry => (handlers.lookup entry.1.kind).isSome).map Prod.fst := by
    rw [hydrationChunks, List.flatMap_assoc, List.filter_flatMap, List.map_flatMap]
    refine List.flatMap_congr fun group hgroup => ?_
    obtain ⟨hgroupEq, -⟩ := mem_groupOn (show (group.1, group.2) ∈ _ from hgroup)
    have hkind : ∀ entry ∈ group.2, entry.1.kind = group.1.1 := by
      intro entry hentry
      rw [hgroupEq, List.mem_filter] at hentry
      exact congrArg Prod.fst (of_decide_eq_true hentry.2)
    cases hhandler : handlers.lookup group.1.1 with
    | none =>
      have hnone : group.2.filter (fun entry => (handlers.lookup entry.1.kind).isSome) = [] := by
        refine List.filter_eq_nil_iff.mpr fun entry hentry => ?_
        rw [hkind entry hentry, hhandler]
        exact Bool.false_ne_true
      rw [hnone]
      rfl
    | some handler =>
      have hall : group.2.filter (fun entry => (handlers.lookup entry.1.kind).isSome) =
          group.2 := by
        refine List.filter_eq_self.mpr fun entry hentry => ?_
        rw [hkind entry hentry, hhandler]
        rfl
      have hflatten : (chunks handler.batchSize group.2).flatMap (fun chunk => chunk.map Prod.fst) =
          group.2.map Prod.fst := by
        rw [← List.map_flatMap, List.flatMap_id', flatten_chunks handler.batchSize_pos]
      rw [hall, ← hflatten, List.flatMap_map]
  rw [hflat]
  have hpositions : jobs.zipIdx.map Prod.fst = jobs := by simp
  refine (((groupOn_perm jobs.zipIdx).filter _).map _).trans ?_
  conv_rhs => rw [← hpositions]
  rw [List.filter_map]
  rfl

/-! ## Sorting by kind and by rounds -/

variable {batches : List PositionedBatch}

/-- The batches of a kind. -/
theorem mem_groupHydrationBatches (h : (kind, batches) ∈ groupHydrationBatches jobs handlers)
    (hbatch : batch ∈ batches) : (kind, batch) ∈ hydrationChunks jobs handlers := by
  obtain ⟨⟨k, group⟩, hgroup, heq⟩ := List.mem_map.mp h
  cases heq
  obtain ⟨rfl, -⟩ := mem_groupOn hgroup
  rw [List.Perm.mem_iff (List.mergeSort_perm _ _)] at hbatch
  obtain ⟨⟨k', batch'⟩, hmem, rfl⟩ := List.mem_map.mp hbatch
  rw [List.mem_filter] at hmem
  obtain rfl : k' = k := of_decide_eq_true hmem.2
  exact hmem.1

/-- The kinds stand once. -/
theorem nodup_groupHydrationBatches :
    ((groupHydrationBatches jobs handlers).map Prod.fst).Nodup := by
  rw [groupHydrationBatches, List.map_map]
  have hkeys : (groupOn Prod.fst (hydrationChunks jobs handlers)).map
      (Prod.fst ∘ fun group : String × List (String × PositionedBatch) =>
        (group.1, (group.2.map Prod.snd).mergeSort PositionedBatch.before)) =
      (groupOn Prod.fst (hydrationChunks jobs handlers)).map Prod.fst := rfl
  rw [hkeys, map_fst_groupOn]
  exact nodup_firstKeys _

/-- The batches of all kinds have every job with a handler. -/
theorem groupHydrationBatches_perm :
    (((groupHydrationBatches jobs handlers).flatMap Prod.snd).flatMap (·.jobs)).Perm
      (jobs.filter fun job => (handlers.lookup job.kind).isSome) := by
  refine List.Perm.trans ?_ hydrationChunks_perm
  have hbatches : ((groupHydrationBatches jobs handlers).flatMap Prod.snd).Perm
      ((hydrationChunks jobs handlers).map Prod.snd) := by
    rw [groupHydrationBatches, List.flatMap_map]
    refine (List.Perm.flatMap_left _ fun group _ => List.mergeSort_perm _ _).trans ?_
    rw [← List.map_flatMap]
    exact (groupOn_perm _).map _
  refine (hbatches.flatMap_right _).trans ?_
  rw [List.flatMap_map]

/-! ## Tiers -/

section Tiers

variable {byKind : List (String × List PositionedBatch)}

theorem mergeSort_firstBefore_perm (batches : List PositionedBatch) :
    (batches.mergeSort PositionedBatch.firstBefore).Perm batches := List.mergeSort_perm _ _

/-- No list of a tier is longer than the number of rounds. -/
theorem length_le_rounds {batches : List PositionedBatch}
    (h : batches ∈ tieredBatches byKind priority) :
    batches.length ≤ (((tieredBatches byKind priority).map List.length).max?.getD 0) := by
  have hmem := List.mem_map_of_mem (f := List.length) h
  cases hmax : ((tieredBatches byKind priority).map List.length).max? with
  | none =>
    rw [List.max?_eq_none_iff.mp hmax] at hmem
    cases hmem
  | some n => exact (List.max?_eq_some_iff.mp hmax).2 _ hmem

/-- A tier has every batch of its priority once. -/
theorem orderPriorityBatches_perm (byKind : List (String × List PositionedBatch))
    (priority : HydrationPriority) :
    (orderPriorityBatches byKind priority).Perm
      ((byKind.flatMap Prod.snd).filter (·.priority = priority)) := by
  have hflatten : (tieredBatches byKind priority).flatten =
      (byKind.flatMap Prod.snd).filter (·.priority = priority) := by
    rw [tieredBatches, ← List.flatMap_def, List.filter_flatMap]
  rw [← hflatten]
  exact rounds_perm mergeSort_firstBefore_perm fun _ => length_le_rounds

/-- The tiers have every batch once. -/
theorem tiers_perm (byKind : List (String × List PositionedBatch)) (backfillFirst : Bool) :
    (orderPriorityBatches byKind (preferredPriority backfillFirst) ++
      orderPriorityBatches byKind (preferredPriority backfillFirst).other).Perm
      (byKind.flatMap Prod.snd) := by
  have hother : ∀ p q : HydrationPriority, (decide (p = q.other)) = !decide (p = q) := by
    intro p q
    cases p <;> cases q <;> rfl
  refine ((orderPriorityBatches_perm byKind _).append (orderPriorityBatches_perm byKind _)).trans ?_
  simp only [hother]
  exact List.filter_append_perm _ _

end Tiers

/-! ## The batches of a kind -/

/-- Whether a batch is of a kind and a priority. -/
def isBatchOf (kind : String) (priority : HydrationPriority) (batch : List DueJob) : Bool :=
  batch.all fun job => decide (job.kind = kind) && decide (job.priority = priority)

/-- A batch is of its own kind and priority only. -/
theorem IsBatch.isBatchOf_iff {batch : List DueJob} (h : IsBatch jobs handlers kind priority batch)
    (kind' : String) (priority' : HydrationPriority) :
    isBatchOf kind' priority' batch = true ↔ kind = kind' ∧ priority = priority' := by
  obtain ⟨job, hjob⟩ := List.exists_mem_of_ne_nil batch h.nonempty
  constructor
  · intro hall
    have hjob' := List.all_eq_true.mp hall job hjob
    rw [Bool.and_eq_true, decide_eq_true_iff, decide_eq_true_iff] at hjob'
    exact ⟨(h.of_kind job hjob).symm.trans hjob'.1, (h.of_priority job hjob).symm.trans hjob'.2⟩
  · rintro ⟨rfl, rfl⟩
    refine List.all_eq_true.mpr fun job' hjob' => ?_
    rw [h.of_kind job' hjob', h.of_priority job' hjob', decide_eq_true rfl, decide_eq_true rfl]
    rfl

/-- The batches of a tier are batches. -/
theorem isBatch_of_mem_orderPriorityBatches
    (h : batch ∈ orderPriorityBatches (groupHydrationBatches jobs handlers) priority) :
    ∃ kind, IsBatch jobs handlers kind priority batch.jobs := by
  rw [(orderPriorityBatches_perm _ _).mem_iff, List.mem_filter] at h
  obtain ⟨⟨kind, batches⟩, hkind, hbatch⟩ := List.mem_flatMap.mp h.1
  have hpriority : batch.priority = priority := of_decide_eq_true h.2
  exact ⟨kind, hpriority ▸ isBatch_of_mem_chunks (mem_groupHydrationBatches hkind hbatch)⟩

/-- The batches of a kind come in their order. -/
theorem filter_orderPriorityBatches (h : (kind, batches) ∈ groupHydrationBatches jobs handlers) :
    (orderPriorityBatches (groupHydrationBatches jobs handlers) priority).filter
        (fun batch => isBatchOf kind priority batch.jobs) =
      batches.filter (·.priority = priority) := by
  obtain ⟨before, after, hsplit⟩ := List.append_of_mem h
  have hkeys : ((groupHydrationBatches jobs handlers).map Prod.fst).Nodup :=
    nodup_groupHydrationBatches
  rw [hsplit, List.map_append, List.map_cons, List.nodup_middle, List.nodup_cons] at hkeys
  have htiered : tieredBatches (groupHydrationBatches jobs handlers) priority =
      tieredBatches before priority ++
        batches.filter (·.priority = priority) :: tieredBatches after priority := by
    rw [hsplit, tieredBatches, List.map_append, List.map_cons, tieredBatches, tieredBatches]
  have hlength : (batches.filter (·.priority = priority)).length ≤
      (((tieredBatches (groupHydrationBatches jobs handlers) priority).map
        List.length).max?.getD 0) := by
    refine length_le_rounds (htiered ▸ ?_)
    exact List.mem_append_right _ List.mem_cons_self
  rw [orderPriorityBatches]
  generalize (((tieredBatches (groupHydrationBatches jobs handlers) priority).map
    List.length).max?.getD 0) = n at hlength
  rw [htiered]
  refine rounds_filter mergeSort_firstBefore_perm hlength (fun batch hbatch => ?_) ?_
  · rw [List.mem_filter] at hbatch
    have hbatchOf := isBatch_of_mem_chunks (mem_groupHydrationBatches h hbatch.1)
    exact (hbatchOf.isBatchOf_iff _ _).mpr ⟨rfl, of_decide_eq_true hbatch.2⟩
  · intro others hothers batch hbatch
    have hothers' : others ∈ tieredBatches (before ++ after) priority := by
      rw [tieredBatches, List.map_append]
      exact hothers
    obtain ⟨⟨kind', batches'⟩, hmem, rfl⟩ := List.mem_map.mp hothers'
    have hmem' : (kind', batches') ∈ groupHydrationBatches jobs handlers := by
      rw [hsplit]
      rcases List.mem_append.mp hmem with hmem | hmem
      · exact List.mem_append_left _ hmem
      · exact List.mem_append_right _ (List.mem_cons_of_mem _ hmem)
    have hbatchOf := isBatch_of_mem_chunks
      (mem_groupHydrationBatches hmem' (List.mem_filter.mp hbatch).1)
    refine Bool.eq_false_iff.mpr fun hof => hkeys.1 ?_
    have hkind := ((hbatchOf.isBatchOf_iff _ _).mp hof).1
    have hkeyMem : kind' ∈ (before ++ after).map Prod.fst := List.mem_map.mpr ⟨_, hmem, rfl⟩
    rw [List.map_append, hkind] at hkeyMem
    exact hkeyMem

/-- The list that a batch of a kind comes from. -/
theorem exists_entry_of_filter {k : ℕ}
    (h : ((orderPriorityBatches (groupHydrationBatches jobs handlers) priority).filter
        (fun batch => isBatchOf kind priority batch.jobs))[k]? = some batch) :
    ∃ batches ∈ tieredBatches (groupHydrationBatches jobs handlers) priority,
      batches[k]? = some batch := by
  have hmem := List.mem_of_getElem? h
  rw [List.mem_filter, (orderPriorityBatches_perm _ _).mem_iff, List.mem_filter] at hmem
  obtain ⟨⟨hflat, -⟩, hof⟩ := hmem
  obtain ⟨⟨kind', batches⟩, hkind, hbatch⟩ := List.mem_flatMap.mp hflat
  have hbatchOf := isBatch_of_mem_chunks (mem_groupHydrationBatches hkind hbatch)
  obtain ⟨rfl, -⟩ := (hbatchOf.isBatchOf_iff _ _).mp hof
  rw [filter_orderPriorityBatches hkind] at h
  exact ⟨_, List.mem_map_of_mem (f := fun entry : String × List PositionedBatch =>
    entry.2.filter (·.priority = priority)) hkind, h⟩

/-- In a tier a batch comes before the next one of any kind. -/
theorem orderPriorityBatches_before {kind' : String} {k : ℕ} {batch' : PositionedBatch}
    (h : ((orderPriorityBatches (groupHydrationBatches jobs handlers) priority).filter
        (fun batch => isBatchOf kind priority batch.jobs))[k]? = some batch)
    (h' : ((orderPriorityBatches (groupHydrationBatches jobs handlers) priority).filter
        (fun batch => isBatchOf kind' priority batch.jobs))[k + 1]? = some batch') :
    [batch, batch'].Sublist
      (orderPriorityBatches (groupHydrationBatches jobs handlers) priority) := by
  obtain ⟨batches, hbatches, hget⟩ := exists_entry_of_filter h
  obtain ⟨batches', hbatches', hget'⟩ := exists_entry_of_filter h'
  have hlt : k + 1 < batches'.length := (List.getElem?_eq_some_iff.mp hget').1
  exact rounds_before mergeSort_firstBefore_perm (hlt.trans_le (length_le_rounds hbatches'))
    hbatches hbatches' hget hget'

/-! ## The batches of all tiers -/

section Whole

variable (backfillFirst : Bool)

/-- The batches of one tier, as lists of jobs. -/
def tierBatches (jobs : List DueJob) (handlers : Dictionary String BatchHandler)
    (priority : HydrationPriority) : List (List DueJob) :=
  (orderPriorityBatches (groupHydrationBatches jobs handlers) priority).map (·.jobs)

/-- The preferred tier comes first. -/
theorem batchJobs_eq : batchJobs jobs handlers backfillFirst =
    tierBatches jobs handlers (preferredPriority backfillFirst) ++
      tierBatches jobs handlers (preferredPriority backfillFirst).other := by
  rw [batchJobs, orderHydrationBatches, List.map_append, tierBatches, tierBatches]

/-- The batches of a tier are batches of its priority. -/
theorem isBatch_of_mem_tierBatches {batch : List DueJob}
    (h : batch ∈ tierBatches jobs handlers priority) :
    ∃ kind, IsBatch jobs handlers kind priority batch := by
  obtain ⟨positioned, hmem, rfl⟩ := List.mem_map.mp h
  exact isBatch_of_mem_orderPriorityBatches hmem

/-- Every job with a handler is in one batch. -/
theorem flatten_batchJobs_perm :
    (batchJobs jobs handlers backfillFirst).flatten.Perm
      (jobs.filter fun job => (handlers.lookup job.kind).isSome) := by
  rw [batchJobs, orderHydrationBatches, ← List.flatMap_def]
  exact ((tiers_perm _ backfillFirst).flatMap_right _).trans groupHydrationBatches_perm

/-- The batches of a kind and a priority are all in their tier. -/
theorem filter_batchJobs (kind : String) (priority : HydrationPriority) :
    (batchJobs jobs handlers backfillFirst).filter (isBatchOf kind priority) =
      (tierBatches jobs handlers priority).filter (isBatchOf kind priority) := by
  have hother : ∀ other, other ≠ priority →
      (tierBatches jobs handlers other).filter (isBatchOf kind priority) = [] := by
    intro other hne
    refine List.filter_eq_nil_iff.mpr fun batch hbatch hof => ?_
    obtain ⟨kind', hbatchOf⟩ := isBatch_of_mem_tierBatches hbatch
    exact hne ((hbatchOf.isBatchOf_iff _ _).mp hof).2
  rw [batchJobs_eq, List.filter_append]
  by_cases hp : preferredPriority backfillFirst = priority
  · rw [hp, hother priority.other (by cases priority <;> decide), List.append_nil]
  · rw [hother _ hp, List.nil_append]
    have hpriority : (preferredPriority backfillFirst).other = priority := by
      cases hq : preferredPriority backfillFirst <;> cases priority <;>
        simp_all [HydrationPriority.other]
    rw [hpriority]

/-- In a tier the `k`-th batch of a kind comes before the next one of any kind. -/
theorem batchJobs_before {kind kind' : String} {k : ℕ} {batch batch' : List DueJob}
    (h : ((batchJobs jobs handlers backfillFirst).filter
      (isBatchOf kind priority))[k]? = some batch)
    (h' : ((batchJobs jobs handlers backfillFirst).filter
      (isBatchOf kind' priority))[k + 1]? = some batch') :
    [batch, batch'].Sublist (batchJobs jobs handlers backfillFirst) := by
  rw [filter_batchJobs, tierBatches, List.filter_map, List.getElem?_map,
    Option.map_eq_some_iff] at h h'
  obtain ⟨positioned, hget, rfl⟩ := h
  obtain ⟨positioned', hget', rfl⟩ := h'
  have hbefore := (orderPriorityBatches_before hget hget').map (·.jobs)
  refine hbefore.trans ?_
  rw [batchJobs_eq]
  cases backfillFirst <;> cases priority
  · exact List.sublist_append_right _ _
  · exact List.sublist_append_left _ _
  · exact List.sublist_append_left _ _
  · exact List.sublist_append_right _ _

end Whole

/-! ## Taking the due jobs of a tier -/

/-- The jobs selected so far and the jobs of the tier that are left. -/
structure TierState where
  selected : List DueJob
  tiered : Dictionary String (List DueJob)

section AppendTier

variable (limit : ℕ)
variable {tiered : Dictionary String (List DueJob)}

/-- The first jobs of the kinds that have some, by `_due_job_order_key`. -/
def sortedHeads (tiered : Dictionary String (List DueJob)) : List (DueJob × String) :=
  (tiered.entries.filterMap fun entry => entry.2.head?.map fun job => (job, entry.1)).mergeSort
    fun head other => decide (dueJobOrderKey head.1 ≤ dueJobOrderKey other.1)

/-- `selected.append(tiered[kind].pop(0))`. -/
def appendHead (state : TierState) (kind : String) : TierState :=
  match state.tiered.lookup kind with
  | some (job :: _) =>
    { selected := state.selected ++ [job]
      tiered := state.tiered.mapValues fun k left => if k = kind then left.tail else left }
  | _ => state

/-- The loop over the heads. -/
def appendHeads : List (DueJob × String) → TierState → TierState
  | [], state => state
  | head :: heads, state =>
    if limit ≤ state.selected.length then state else appendHeads heads (appendHead state head.2)

variable {limit : ℕ} {state : TierState} {heads : List (DueJob × String)}

/-- What is left without the first jobs of some kinds. -/
def popKinds (kinds : List String) (tiered : Dictionary String (List DueJob)) :
    Dictionary String (List DueJob) :=
  tiered.mapValues fun kind left => if kind ∈ kinds then left.tail else left

/-- The loop takes the heads as far as the limit allows. -/
theorem appendHeads_eq (hnodup : (heads.map Prod.snd).Nodup)
    (hheads : ∀ head ∈ heads, ∃ left, state.tiered.lookup head.2 = some (head.1 :: left)) :
    (appendHeads limit heads state).selected =
        state.selected ++ (heads.map Prod.fst).take (limit - state.selected.length) ∧
      (state.selected.length + heads.length ≤ limit →
        (appendHeads limit heads state).tiered = popKinds (heads.map Prod.snd) state.tiered) := by
  induction heads generalizing state with
  | nil =>
    refine ⟨by simp [appendHeads], fun _ => AList.ext ?_⟩
    simp [appendHeads, popKinds, Dictionary.mapValues]
  | cons head heads ih =>
    obtain ⟨left, hhead⟩ := hheads head List.mem_cons_self
    rw [List.map_cons, List.nodup_cons] at hnodup
    rw [appendHeads]
    split
    · rename_i hfull
      refine ⟨by rw [Nat.sub_eq_zero_of_le hfull, List.take_zero, List.append_nil], fun hroom => ?_⟩
      rw [List.length_cons] at hroom
      omega
    · rename_i hroom
      have hstep : appendHead state head.2 =
          { selected := state.selected ++ [head.1]
            tiered := popKinds [head.2] state.tiered } := by
        rw [appendHead, hhead, popKinds]
        simp only [List.mem_singleton]
      have hothers : ∀ other ∈ heads,
          ∃ left, (popKinds [head.2] state.tiered).lookup other.2 = some (other.1 :: left) := by
        intro other hother
        obtain ⟨left', hleft'⟩ := hheads other (List.mem_cons_of_mem _ hother)
        refine ⟨left', ?_⟩
        have hne : other.2 ≠ head.2 := fun heq =>
          hnodup.1 (heq ▸ List.mem_map_of_mem (f := Prod.snd) hother)
        rw [popKinds, Dictionary.lookup_mapValues, hleft', Option.map_some,
          if_neg (fun hmem => hne (List.mem_singleton.mp hmem))]
      rw [hstep]
      obtain ⟨hselected, htiered⟩ :=
        @ih ⟨state.selected ++ [head.1], popKinds [head.2] state.tiered⟩ hnodup.2 hothers
      rw [List.length_append, List.length_singleton] at hselected htiered
      refine ⟨?_, fun hlength => ?_⟩
      · have hsub : limit - state.selected.length = limit - (state.selected.length + 1) + 1 := by
          omega
        rw [hselected, hsub, List.map_cons, List.take_succ_cons, List.append_assoc,
          List.singleton_append]
      · rw [List.length_cons] at hlength
        rw [htiered (by omega), popKinds, popKinds, popKinds, Dictionary.mapValues_mapValues]
        refine congrArg state.tiered.mapValues (funext₂ fun kind left => ?_)
        simp only [List.map_cons, List.mem_cons, List.not_mem_nil, or_false]
        by_cases hkind : kind = head.2
        · subst hkind
          rw [if_neg hnodup.1, if_pos rfl, if_pos (Or.inl rfl)]
        · simp only [hkind, false_or, ↓reduceIte]

/-- The heads of the kinds are first jobs. -/
theorem exists_of_mem_sortedHeads {head : DueJob × String} (h : head ∈ sortedHeads tiered) :
    ∃ left, tiered.lookup head.2 = some (head.1 :: left) := by
  rw [sortedHeads, (List.mergeSort_perm _ _).mem_iff] at h
  obtain ⟨⟨kind, jobs⟩, hentry, hhead⟩ := List.mem_filterMap.mp h
  rw [Option.map_eq_some_iff] at hhead
  obtain ⟨job, hjob, rfl⟩ := hhead
  cases jobs with
  | nil => cases hjob
  | cons first left =>
    cases hjob
    exact ⟨left, Dictionary.mem_entries_iff.mp hentry⟩

/-- A kind has one head. -/
theorem nodup_sortedHeads (tiered : Dictionary String (List DueJob)) :
    ((sortedHeads tiered).map Prod.snd).Nodup := by
  rw [sortedHeads, ((List.mergeSort_perm _ _).map Prod.snd).nodup_iff, List.Nodup,
    List.pairwise_map, List.pairwise_filterMap]
  refine (List.nodupKeys_iff_pairwise.mp tiered.nodupKeys).imp ?_
  intro entry other hne head hhead otherHead hother
  rw [Option.map_eq_some_iff] at hhead hother
  obtain ⟨_, -, rfl⟩ := hhead
  obtain ⟨_, -, rfl⟩ := hother
  exact hne

/-- Where a kind has a job left there is a head. -/
theorem sortedHeads_ne_nil (h : tiered.any (fun _ left => !left.isEmpty) = true) :
    sortedHeads tiered ≠ [] := by
  obtain ⟨kind, left, hlookup, hleft⟩ := Dictionary.any_eq_true.mp h
  cases left with
  | nil => cases hleft
  | cons job left =>
    refine List.ne_nil_of_mem (a := (job, kind)) ?_
    rw [sortedHeads, (List.mergeSort_perm _ _).mem_iff]
    exact List.mem_filterMap.mpr ⟨⟨kind, job :: left⟩, Dictionary.mem_entries_iff.mpr hlookup, rfl⟩

/-- A round takes a job. -/
theorem length_lt_appendHeads (hlimit : state.selected.length < limit)
    (hany : state.tiered.any (fun _ left => !left.isEmpty) = true) :
    state.selected.length <
      (appendHeads limit (sortedHeads state.tiered) state).selected.length := by
  rw [(appendHeads_eq (nodup_sortedHeads _) fun head => exists_of_mem_sortedHeads).1,
    List.length_append, List.length_take, List.length_map]
  have := List.length_pos_of_ne_nil (sortedHeads_ne_nil hany)
  omega

/-- The loop of `_append_due_priority_tier`. -/
def appendRounds (limit : ℕ) (state : TierState) : TierState :=
  if _h : state.selected.length < limit ∧
      state.tiered.any (fun _ left => !left.isEmpty) = true then
    appendRounds limit (appendHeads limit (sortedHeads state.tiered) state)
  else state
termination_by limit - state.selected.length
decreasing_by
  have := length_lt_appendHeads _h.1 _h.2
  omega

/-- `_append_due_priority_tier`: the jobs selected after it. -/
def appendDuePriorityTier (selected : List DueJob) (remaining : Dictionary String (List DueJob))
    (priority : HydrationPriority) (limit : ℕ) : List DueJob :=
  (appendRounds limit
    { selected
      tiered := remaining.mapValues fun _ jobs => jobs.filter (·.priority = priority) }).selected

end AppendTier

/-! ## The rounds of a tier -/

section TierRounds

variable {limit : ℕ} {state : TierState}

/-- The order of the heads in a round. -/
def headOrder (heads : List (DueJob × String)) : List (DueJob × String) :=
  heads.mergeSort fun head other => decide (dueJobOrderKey head.1 ≤ dueJobOrderKey other.1)

theorem headOrder_perm (heads : List (DueJob × String)) : (headOrder heads).Perm heads :=
  List.mergeSort_perm _ _

/-- The jobs of each kind, with the kind. -/
def kindLists (tiered : Dictionary String (List DueJob)) : List (List (DueJob × String)) :=
  tiered.entries.map fun entry => entry.2.map fun job => (job, entry.1)

/-- The heads are the first elements of the lists. -/
theorem sortedHeads_eq (tiered : Dictionary String (List DueJob)) :
    sortedHeads tiered = headOrder ((kindLists tiered).filterMap List.head?) := by
  rw [sortedHeads, headOrder, kindLists, List.filterMap_map]
  refine congrArg (fun heads : List (DueJob × String) => heads.mergeSort _) ?_
  refine List.filterMap_congr fun entry _ => ?_
  rw [Function.comp_apply, List.head?_map]

/-- Without the heads the lists are their tails. -/
theorem kindLists_popKinds (tiered : Dictionary String (List DueJob)) :
    kindLists (popKinds ((sortedHeads tiered).map Prod.snd) tiered) =
      (kindLists tiered).map List.tail := by
  rw [kindLists, popKinds, Dictionary.mapValues, List.map_map, kindLists, List.map_map]
  refine List.map_congr_left fun entry hentry => ?_
  obtain ⟨kind, left⟩ := entry
  rw [Function.comp_apply, Function.comp_apply, ← List.map_tail]
  refine congrArg (List.map fun job => (job, kind)) ?_
  split
  · rfl
  · rename_i hnone
    cases left with
    | nil => rfl
    | cons job left =>
      refine absurd (List.mem_map.mpr ⟨(job, kind), ?_, rfl⟩) hnone
      rw [sortedHeads, (List.mergeSort_perm _ _).mem_iff]
      exact List.mem_filterMap.mpr ⟨⟨kind, job :: left⟩, hentry, rfl⟩

theorem appendRounds_of_full (h : limit ≤ state.selected.length) :
    appendRounds limit state = state := by
  rw [appendRounds, dif_neg fun hlt => absurd hlt.1 (by omega)]

/-- Where no job is left there are no rounds. -/
theorem rounds_of_not_any {tiered : Dictionary String (List DueJob)}
    (h : tiered.any (fun _ left => !left.isEmpty) = false) (n : ℕ) :
    rounds headOrder n (kindLists tiered) = [] := by
  have hempty : ∀ jobs ∈ kindLists tiered, jobs = [] := by
    intro jobs hjobs
    obtain ⟨⟨kind, left⟩, hentry, rfl⟩ := List.mem_map.mp hjobs
    have hleft := Dictionary.any_eq_false.mp h kind left (Dictionary.mem_entries_iff.mp hentry)
    rw [Bool.not_eq_false'] at hleft
    rw [List.isEmpty_iff.mp hleft, List.map_nil]
  have hperm := rounds_perm (n := n) headOrder_perm fun jobs hjobs =>
    (hempty jobs hjobs ▸ Nat.zero_le n : jobs.length ≤ n)
  rw [List.flatten_eq_nil_iff.mpr hempty] at hperm
  exact hperm.eq_nil

/-- The loop takes the first jobs of the rounds. -/
theorem appendRounds_eq {n : ℕ} (hn : ∀ jobs ∈ kindLists state.tiered, jobs.length ≤ n) :
    (appendRounds limit state).selected = state.selected ++
      ((rounds headOrder n (kindLists state.tiered)).take
        (limit - state.selected.length)).map Prod.fst := by
  induction n generalizing state with
  | zero =>
    have hempty : state.tiered.any (fun _ left => !left.isEmpty) = false := by
      refine Dictionary.any_eq_false.mpr fun kind left hlookup => ?_
      have hlength := hn _ (List.mem_map_of_mem (Dictionary.mem_entries_iff.mpr hlookup))
      rw [List.length_map, Nat.le_zero, List.length_eq_zero_iff] at hlength
      rw [show left = [] from hlength]
      rfl
    rw [appendRounds, dif_neg fun hlt => absurd hlt.2 (by rw [hempty]; exact Bool.false_ne_true)]
    simp [rounds]
  | succ n ih =>
    by_cases hfull : limit ≤ state.selected.length
    · rw [appendRounds_of_full hfull, Nat.sub_eq_zero_of_le hfull]
      simp
    by_cases hany : state.tiered.any (fun _ left => !left.isEmpty) = true
    · rw [appendRounds, dif_pos ⟨by omega, hany⟩, rounds_succ, ← sortedHeads_eq, List.take_append,
        List.map_append, List.map_take, ← List.append_assoc]
      obtain ⟨hselected, htiered⟩ := @appendHeads_eq limit state _
        (nodup_sortedHeads state.tiered) fun head => exists_of_mem_sortedHeads
      by_cases hroom : state.selected.length + (sortedHeads state.tiered).length ≤ limit
      · have hlists : kindLists (appendHeads limit (sortedHeads state.tiered) state).tiered =
            (kindLists state.tiered).map List.tail := by rw [htiered hroom, kindLists_popKinds]
        have hn' : ∀ jobs ∈ (kindLists state.tiered).map List.tail, jobs.length ≤ n := by
          intro jobs hjobs
          obtain ⟨whole, hwhole, rfl⟩ := List.mem_map.mp hjobs
          have := hn whole hwhole
          rw [List.length_tail]
          omega
        have hlength : (appendHeads limit (sortedHeads state.tiered) state).selected.length =
            state.selected.length + (sortedHeads state.tiered).length := by
          rw [hselected, List.length_append, List.length_take, List.length_map]
          omega
        rw [ih (hlists ▸ hn'), hlists, hlength, ← hselected, Nat.sub_sub]
      · have hlength : (appendHeads limit (sortedHeads state.tiered) state).selected.length =
            limit := by
          rw [hselected, List.length_append, List.length_take, List.length_map]
          omega
        rw [appendRounds_of_full hlength.ge, ← hselected,
          Nat.sub_eq_zero_of_le (by omega : limit - state.selected.length ≤ _), List.take_zero,
          List.map_nil, List.append_nil]
    · rw [appendRounds, dif_neg fun hlt => hany hlt.2,
        rounds_of_not_any (Bool.eq_false_iff.mpr hany)]
      simp

/-- The jobs of a kind in a tier. -/
def tierJobs (priority : HydrationPriority) (jobs : List DueJob) : List DueJob :=
  jobs.filter (·.priority = priority)

/-- The jobs of a tier, one kind after the other. -/
def allTierJobs (remaining : Dictionary String (List DueJob)) (priority : HydrationPriority) :
    List DueJob :=
  remaining.entries.flatMap fun entry => tierJobs priority entry.2

/-- The lists of a tier. -/
def tierLists (remaining : Dictionary String (List DueJob)) (priority : HydrationPriority) :
    List (List (DueJob × String)) :=
  remaining.entries.map fun entry => (tierJobs priority entry.2).map fun job => (job, entry.1)

variable {remaining : Dictionary String (List DueJob)} {priority : HydrationPriority}

/-- The selection of a tier takes the first jobs of its rounds. -/
theorem appendDuePriorityTier_eq (selected : List DueJob)
    (remaining : Dictionary String (List DueJob)) (priority : HydrationPriority) (limit : ℕ) :
    ∃ n, (∀ jobs ∈ tierLists remaining priority, jobs.length ≤ n) ∧
      appendDuePriorityTier selected remaining priority limit = selected ++
        ((rounds headOrder n (tierLists remaining priority)).take
          (limit - selected.length)).map Prod.fst := by
  have hlists : kindLists (remaining.mapValues fun _ jobs => jobs.filter (·.priority = priority)) =
      tierLists remaining priority := by
    rw [kindLists, Dictionary.mapValues, List.map_map]
    rfl
  have hn : ∀ jobs ∈ tierLists remaining priority,
      jobs.length ≤ ((tierLists remaining priority).map List.length).sum := fun jobs hjobs =>
    List.single_le_sum (fun _ _ => Nat.zero_le _) _ (List.mem_map_of_mem hjobs)
  refine ⟨_, hn, ?_⟩
  rw [appendDuePriorityTier, appendRounds_eq (hlists.symm ▸ hn), hlists]

/-- The jobs of the tier without the kinds. -/
theorem map_fst_flatten_tierLists :
    (tierLists remaining priority).flatten.map Prod.fst = allTierJobs remaining priority := by
  rw [tierLists, ← List.flatMap_def, List.map_flatMap, allTierJobs]
  refine List.flatMap_congr fun entry _ => ?_
  rw [List.map_map]
  exact List.map_id _

/-- What a kind gives to a piece of the rounds. -/
theorem filter_tierLists {kind : String} {jobs : List DueJob}
    (h : remaining.lookup kind = some jobs) (i c : ℕ) :
    ∃ taken, (rounds headOrder i (tierLists remaining priority) ++
        (headOrder ((tierLists remaining priority).filterMap fun jobs => jobs[i]?)).take c).filter
          (fun head => decide (head.2 = kind)) =
        ((tierJobs priority jobs).take taken).map (fun job => (job, kind)) ∧
      min i (tierJobs priority jobs).length ≤ taken ∧
      taken ≤ min (i + 1) (tierJobs priority jobs).length := by
  obtain ⟨before, after, hsplit⟩ := List.append_of_mem (Dictionary.mem_entries_iff.mpr h)
  have hkeys := List.nodupKeys_iff_pairwise.mp remaining.nodupKeys
  rw [hsplit, List.pairwise_middle (fun hne => Ne.symm hne), List.pairwise_cons] at hkeys
  have hown : ∀ head ∈ (tierJobs priority jobs).map fun job => (job, kind),
      decide (head.2 = kind) = true := by
    intro head hhead
    obtain ⟨job, -, rfl⟩ := List.mem_map.mp hhead
    exact decide_eq_true rfl
  have hothers : ∀ others ∈
      (before.map fun entry => (tierJobs priority entry.2).map fun job => (job, entry.1)) ++
        after.map fun entry => (tierJobs priority entry.2).map fun job => (job, entry.1),
      ∀ head ∈ others, decide (head.2 = kind) = false := by
    intro others hothers head hhead
    rw [← List.map_append] at hothers
    obtain ⟨entry, hentry, rfl⟩ := List.mem_map.mp hothers
    obtain ⟨job, -, rfl⟩ := List.mem_map.mp hhead
    exact decide_eq_false fun heq => hkeys.1 entry hentry heq.symm
  obtain ⟨taken, hfilter, hlow, hhigh⟩ := filter_rounds_append headOrder_perm hown hothers i c
  rw [List.length_map] at hlow hhigh
  rw [tierLists, hsplit, List.map_append, List.map_cons]
  exact ⟨taken, by rw [List.map_take]; exact hfilter, hlow, hhigh⟩

/-- The selection of a tier is exhaustive, keeps the order of every kind, and is fair. -/
theorem appendDuePriorityTier_fair (selected : List DueJob)
    (remaining : Dictionary String (List DueJob)) (priority : HydrationPriority) (limit : ℕ) :
    ∃ (added : List DueJob) (taken : String → ℕ),
      appendDuePriorityTier selected remaining priority limit = selected ++ added ∧
      added.length = min (limit - selected.length) (allTierJobs remaining priority).length ∧
      added.Perm (remaining.entries.flatMap fun entry =>
        (tierJobs priority entry.2).take (taken entry.1)) ∧
      (∀ kind jobs, remaining.lookup kind = some jobs →
        taken kind ≤ (tierJobs priority jobs).length ∧
        ((tierJobs priority jobs).take (taken kind)).Sublist added) ∧
      ∀ kind jobs other others, remaining.lookup kind = some jobs →
        remaining.lookup other = some others →
          taken kind ≤ taken other + 1 ∨ taken other = (tierJobs priority others).length := by
  obtain ⟨n, hn, heq⟩ := appendDuePriorityTier_eq selected remaining priority limit
  obtain ⟨i, -, c, hsplit⟩ :=
    take_rounds_split headOrder n (limit - selected.length) (tierLists remaining priority)
  set heads := (rounds headOrder n (tierLists remaining priority)).take (limit - selected.length)
    with hheads
  have hkind : ∀ kind jobs, remaining.lookup kind = some jobs →
      heads.filter (fun head => decide (head.2 = kind)) = ((tierJobs priority jobs).take
          (heads.filter fun head => decide (head.2 = kind)).length).map (fun job => (job, kind)) ∧
        min i (tierJobs priority jobs).length ≤
          (heads.filter fun head => decide (head.2 = kind)).length ∧
        (heads.filter fun head => decide (head.2 = kind)).length ≤
          min (i + 1) (tierJobs priority jobs).length := by
    intro kind jobs hjobs
    obtain ⟨taken, hfilter, hlow, hhigh⟩ := @filter_tierLists _ priority _ _ hjobs i c
    rw [← hsplit] at hfilter
    have hlength : (heads.filter fun head => decide (head.2 = kind)).length = taken := by
      rw [hfilter, List.length_map, List.length_take]
      omega
    rw [hlength]
    exact ⟨hfilter, hlow, hhigh⟩
  refine ⟨heads.map Prod.fst, fun kind => (heads.filter fun head => decide (head.2 = kind)).length,
    heq, ?_, ?_, fun kind jobs hjobs => ⟨?_, ?_⟩, ?_⟩
  · have hperm := (rounds_perm headOrder_perm hn).map Prod.fst
    rw [map_fst_flatten_tierLists] at hperm
    rw [hheads, List.length_map, List.length_take, ← hperm.length_eq, List.length_map]
  · have hall : heads.filter (fun head => decide (head.2 ∈ remaining.keys)) = heads := by
      refine List.filter_eq_self.mpr fun head hhead => decide_eq_true ?_
      have hmem := (rounds_perm headOrder_perm hn).mem_iff.mp (List.mem_of_mem_take hhead)
      obtain ⟨jobs, hjobs, hjob⟩ := List.mem_flatten.mp hmem
      obtain ⟨entry, hentry, rfl⟩ := List.mem_map.mp hjobs
      obtain ⟨job, -, rfl⟩ := List.mem_map.mp hjob
      exact List.mem_map_of_mem hentry
    have hperm : (remaining.entries.keys.flatMap fun kind =>
        heads.filter fun head => head.2 = kind).Perm
          (heads.filter fun head => head.2 ∈ remaining.entries.keys) :=
      flatMap_filter_perm heads remaining.nodupKeys
    rw [show remaining.entries.keys = remaining.keys from rfl, hall] at hperm
    refine (hperm.symm.map Prod.fst).trans (List.Perm.of_eq ?_)
    rw [AList.keys, List.keys, List.flatMap_map, List.map_flatMap]
    refine List.flatMap_congr fun entry hentry => ?_
    have hlookup : remaining.lookup entry.1 = some entry.2 :=
      Dictionary.mem_entries_iff.mp hentry
    rw [(hkind _ _ hlookup).1, List.map_map]
    exact List.map_id _
  · exact (hkind kind jobs hjobs).2.2.trans (min_le_right _ _)
  · have hsub : (heads.filter fun head => decide (head.2 = kind)).Sublist heads :=
      List.filter_sublist
    have hsub' := hsub.map Prod.fst
    rw [(hkind kind jobs hjobs).1, List.map_map] at hsub'
    have hid : (Prod.fst ∘ fun job : DueJob => (job, kind)) = id := rfl
    rw [hid, List.map_id] at hsub'
    exact hsub'
  · intro kind jobs other others hjobs hothers
    have := (hkind kind jobs hjobs).2
    have := (hkind other others hothers).2
    beta_reduce
    omega

end TierRounds

/-! ## The two results together -/

/-- Batching is a lossless partition that respects the priorities, and the selection of a tier takes
turns between the kinds. -/
theorem batchJobs_partition (jobs : List DueJob) (handlers : Dictionary String BatchHandler)
    (backfillFirst : Bool) (selected : List DueJob) (remaining : Dictionary String (List DueJob))
    (tier : HydrationPriority) (limit : ℕ) :
    (batchJobs jobs handlers backfillFirst).flatten.Perm
        (jobs.filter fun job => (handlers.lookup job.kind).isSome) ∧
      (∀ batch ∈ batchJobs jobs handlers backfillFirst,
        ∃ kind priority, IsBatch jobs handlers kind priority batch) ∧
      (∃ front back, batchJobs jobs handlers backfillFirst = front ++ back ∧
        (∀ batch ∈ front, ∀ job ∈ batch, job.priority = preferredPriority backfillFirst) ∧
        ∀ batch ∈ back, ∀ job ∈ batch, job.priority = (preferredPriority backfillFirst).other) ∧
      (∀ kind kind' priority k batch batch',
        ((batchJobs jobs handlers backfillFirst).filter
            (isBatchOf kind priority))[k]? = some batch →
          ((batchJobs jobs handlers backfillFirst).filter
              (isBatchOf kind' priority))[k + 1]? = some batch' →
            [batch, batch'].Sublist (batchJobs jobs handlers backfillFirst)) ∧
      ∃ (added : List DueJob) (taken : String → ℕ),
        appendDuePriorityTier selected remaining tier limit = selected ++ added ∧
        added.length = min (limit - selected.length) (allTierJobs remaining tier).length ∧
        added.Perm (remaining.entries.flatMap fun entry =>
          (tierJobs tier entry.2).take (taken entry.1)) ∧
        (∀ kind jobs, remaining.lookup kind = some jobs →
          taken kind ≤ (tierJobs tier jobs).length ∧
          ((tierJobs tier jobs).take (taken kind)).Sublist added) ∧
        ∀ kind jobs other others, remaining.lookup kind = some jobs →
          remaining.lookup other = some others →
            taken kind ≤ taken other + 1 ∨ taken other = (tierJobs tier others).length := by
  refine ⟨flatten_batchJobs_perm backfillFirst, fun batch hbatch => ?_,
    ⟨_, _, batchJobs_eq backfillFirst, ?_, ?_⟩,
    fun kind kind' priority k batch batch' => batchJobs_before backfillFirst,
    appendDuePriorityTier_fair selected remaining tier limit⟩
  · rw [batchJobs_eq, List.mem_append] at hbatch
    rcases hbatch with hbatch | hbatch
    · obtain ⟨kind, h⟩ := isBatch_of_mem_tierBatches hbatch
      exact ⟨kind, _, h⟩
    · obtain ⟨kind, h⟩ := isBatch_of_mem_tierBatches hbatch
      exact ⟨kind, _, h⟩
  all_goals
    intro batch hbatch
    obtain ⟨_, h⟩ := isBatch_of_mem_tierBatches hbatch
    exact h.of_priority

end McpTelegram
