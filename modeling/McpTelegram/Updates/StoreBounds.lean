import McpTelegram.Foundations.Failing
import McpTelegram.Updates.Store

/-!
# What the raw update store keeps

The rows that survive a batch are the longest suffix, in the order of observation, that meets both
capacity bounds; the counters of a batch are folded into totals over all runs since the state was
last cleared.
-/

namespace McpTelegram

open Foundations

/-! ## Rows -/

theorem withinCapacity_nil : WithinCapacity [] := by decide

@[simp] theorem rowBytes_cons (row : UpdateRow) (rows : List UpdateRow) :
    rowBytes (row :: rows) = row.record.payloadBytes + rowBytes rows := by
  rw [rowBytes, rowBytes, List.map_cons, List.sum_cons]

theorem byTime_perm (rows : List UpdateRow) : (byTime rows).Perm rows :=
  List.perm_insertionSort _ rows

/-- The bounds only count, so they do not depend on the order of the rows. -/
theorem withinCapacity_congr {rows rows' : List UpdateRow} (h : rows.Perm rows') :
    WithinCapacity rows ↔ WithinCapacity rows' := by
  rw [WithinCapacity, WithinCapacity, rowBytes, rowBytes, h.length_eq, (h.map _).sum_eq]

/-- The running counters of the cutoff loop are the length and the payload of what is left. -/
theorem pruneCutoff_eq (rows : List UpdateRow) :
    pruneCutoff rows rows.length (rowBytes rows) =
      (lastDropped WithinCapacity rows).map UpdateRow.key := by
  induction rows with
  | nil => rfl
  | cons row rows ih =>
    have hcount : (((row :: rows).length : ℕ) : ℤ) - 1 = rows.length := by
      rw [List.length_cons]
      omega
    have hsize : ((rowBytes (row :: rows) : ℕ) : ℤ) - row.record.payloadBytes = rowBytes rows := by
      rw [rowBytes_cons]
      omega
    have hfits : ((rows.length : ℤ) ≤ maxRows ∧ (rowBytes rows : ℤ) ≤ maxPayloadBytes) ↔
        WithinCapacity rows := by
      rw [WithinCapacity, Nat.cast_le, Nat.cast_le]
    rw [pruneCutoff, lastDropped, hcount, hsize]
    by_cases h : WithinCapacity rows
    · rw [if_pos h, if_pos (hfits.mpr h), Option.map_some]
    · rw [if_neg h, if_neg fun hloop => h (hfits.mp hloop)]
      exact ih

namespace UpdateStore

variable {store table pruned : UpdateStore}
variable {json : UpdateJson} {records : List UpdateRecord}

/-- The rows are listed by their identifiers, all of which were given out. -/
structure Ordered (store : UpdateStore) : Prop where
  increasing : store.rows.Pairwise (·.id < ·.id)
  given : ∀ row ∈ store.rows, row.id < store.nextId

/-- Rows without double identifiers are strictly sorted by `(observed_at_ms, id)`. -/
theorem Ordered.byTime_strict (h : store.Ordered) :
    (byTime store.rows).Pairwise fun a b => a.key < b.key := by
  have hsorted : (byTime store.rows).Pairwise fun a b => a.key ≤ b.key :=
    List.pairwise_insertionSort _ _
  have hne : (byTime store.rows).Pairwise fun a b => a.key ≠ b.key := by
    refine (h.increasing.imp fun hlt heq => ?_).perm (byTime_perm _).symm Ne.symm
    have hid := (Prod.ext_iff.mp (toLex.injective heq)).2
    exact hlt.ne hid
  exact hsorted.imp₂ (fun _ _ hle hneq => lt_of_le_of_ne hle hneq) hne

theorem Ordered.sublist (h : store.Ordered) {rows : List UpdateRow}
    (hsub : rows.Sublist store.rows) : Ordered { store with rows } :=
  ⟨h.increasing.sublist hsub, fun row hrow => h.given row (hsub.subset hrow)⟩

/-- A part of the rows keeps its order when the rows are sorted. -/
theorem Ordered.byTime_filter (h : store.Ordered) (p : UpdateRow → Bool) :
    byTime (store.rows.filter p) = (byTime store.rows).filter p := by
  have hpart := (h.sublist List.filter_sublist : Ordered { store with rows := store.rows.filter p })
  refine ((byTime_perm _).trans ((byTime_perm _).filter p).symm).eq_of_pairwise ?_
    hpart.byTime_strict (h.byTime_strict.filter p)
  intro a b _ _ hab hba
  exact absurd hba hab.asymm

/-! ## Insertion -/

/-- What inserting records does to a store. -/
structure Inserted (store table : UpdateStore) : Prop where
  prefix_rows : store.rows <+: table.rows
  state : table.state = store.state
  ordered : store.Ordered → table.Ordered

theorem Inserted.refl (store : UpdateStore) : store.Inserted store :=
  ⟨List.prefix_rfl, rfl, id⟩

theorem Inserted.trans (h : store.Inserted table) (h' : table.Inserted pruned) :
    store.Inserted pruned :=
  ⟨h.prefix_rows.trans h'.prefix_rows, h'.state.trans h.state, h'.ordered ∘ h.ordered⟩

/-- One insertion adds at most one row, behind all others. -/
theorem insertRecord_ok {record : UpdateRecord} (h : store.insertRecord json record = .ok table) :
    store.Inserted table := by
  rw [insertRecord] at h
  split_ifs at h with hcheck hconflict
  · obtain rfl := Except.ok.inj h
    exact Inserted.refl store
  · obtain rfl := Except.ok.inj h
    refine ⟨List.prefix_append _ _, rfl, fun hordered => ⟨?_, ?_⟩⟩
    · refine List.pairwise_append.mpr ⟨hordered.increasing, List.pairwise_singleton _ _, ?_⟩
      intro row hrow new hnew
      rw [List.mem_singleton.mp hnew]
      exact hordered.given row hrow
    · intro row hrow
      rcases List.mem_append.mp hrow with hrow | hrow
      · exact Nat.lt_succ_of_lt (hordered.given row hrow)
      · rw [List.mem_singleton.mp hrow]
        exact Nat.lt_succ_self _

theorem insertRecords_ok (h : store.insertRecords json records = .ok table) :
    store.Inserted table :=
  foldlM_ok_rel Inserted.refl Inserted.trans insertRecord_ok h

/-- An insertion raises only when a record violates the constraints of the table. -/
theorem insertRecords_error {e : UpdateStoreError} (h : store.insertRecords json records = .error e) :
    e = .integrity := by
  refine foldlM_error (P := (· = .integrity)) (fun {store record e} h => ?_) h
  rw [insertRecord] at h
  split_ifs at h
  exact (Except.error.inj h).symm

/-! ## Pruning -/

/-- What pruning leaves of a table. -/
structure Pruned (table pruned : UpdateStore) : Prop where
  longest : IsLongestSuffix WithinCapacity (byTime pruned.rows) (byTime table.rows)
  sublist : pruned.rows.Sublist table.rows
  nextId : pruned.nextId = table.nextId
  state : pruned.state =
    table.state.addEvictedCapacity (table.rows.length - pruned.rows.length)

/-- A table within both bounds is left as it is. -/
theorem pruned_self (h : WithinCapacity table.rows) : table.Pruned table := by
  refine ⟨?_, List.Sublist.refl _, rfl, ?_⟩
  · refine ⟨List.suffix_rfl, (withinCapacity_congr (byTime_perm _)).mpr h, fun other hother _ => ?_⟩
    exact hother
  · rw [Nat.sub_self]
    exact (if_pos rfl).symm

/-- Pruning never fails, whatever the sizes and observation times of the rows are. -/
theorem pruneCapacity_spec (h : table.Ordered) {count : ℕ} (hcount : count ≠ 0) :
    ∃ pruned, table.pruneCapacity count = .ok pruned ∧ table.Pruned pruned := by
  rw [pruneCapacity, if_neg hcount]
  by_cases hfits : WithinCapacity table.rows
  · exact ⟨table, if_pos hfits, pruned_self hfits⟩
  have hunfit : ¬ WithinCapacity (byTime table.rows) :=
    fun hsorted => hfits ((withinCapacity_congr (byTime_perm _)).mp hsorted)
  obtain ⟨dropped, row, hlast, hsplit⟩ := lastDropped_spec withinCapacity_nil hunfit
  have hcutoff : pruneCutoff (byTime table.rows) table.rows.length (rowBytes table.rows) =
      some row.key := by
    have hloop := pruneCutoff_eq (byTime table.rows)
    rwa [(byTime_perm _).length_eq, rowBytes, ((byTime_perm _).map _).sum_eq, ← rowBytes, hlast,
      Option.map_some] at hloop
  have hkept : byTime (table.rows.filter fun other => row.key < other.key) =
      longestSuffix WithinCapacity (byTime table.rows) := by
    have hstrict := h.byTime_strict
    rw [hsplit] at hstrict
    rw [h.byTime_filter]
    nth_rewrite 1 [hsplit]
    exact filter_key_lt hstrict
  rw [if_neg hfits, hcutoff]
  refine ⟨_, rfl, ?_, List.filter_sublist, rfl, rfl⟩
  dsimp only
  rw [hkept]
  exact isLongestSuffix_longestSuffix withinCapacity_nil _

theorem Pruned.ordered (h : table.Pruned pruned) (hordered : table.Ordered) : pruned.Ordered := by
  have hrows := hordered.sublist h.sublist
  refine ⟨hrows.increasing, ?_⟩
  rw [h.nextId]
  exact hrows.given

theorem Pruned.within (h : table.Pruned pruned) : WithinCapacity pruned.rows :=
  (withinCapacity_congr (byTime_perm _)).mp h.longest.within

/-- Nothing is evicted from a table within both bounds. -/
theorem Pruned.eq_of_within (h : table.Pruned pruned) (hfits : WithinCapacity table.rows) :
    pruned.rows = table.rows := by
  have hsorted : WithinCapacity (byTime table.rows) :=
    (withinCapacity_congr (byTime_perm _)).mpr hfits
  have hwhole := h.longest.longest _ List.suffix_rfl hsorted
  refine h.sublist.eq_of_length ?_
  rw [← (byTime_perm pruned.rows).length_eq, ← (byTime_perm table.rows).length_eq]
  exact le_antisymm h.longest.suffix.length_le hwhole.length_le

end UpdateStore

/-! ## Counters -/

namespace UpdateState

variable (state : UpdateState) (key : String)

/-- A counter that is no gauge moves its own snapshot and total, and those of no other key. -/
theorem setCounter_spec (hkey : ¬ IsGauge key) (other : String) (value : ℤ) :
    (state.setCounter other value).snapshotOf key =
        (if key = other then max (state.snapshotOf key) value else state.snapshotOf key) ∧
      (state.setCounter other value).totalOf key = state.totalOf key +
        (if key = other then max 0 (value - state.snapshotOf key) else 0) := by
  by_cases hgauge : IsGauge other
  · have hne : key ≠ other := fun heq => hkey (heq ▸ hgauge)
    rw [if_neg hne, if_neg hne, add_zero, setCounter]
    rcases hgauge with rfl | rfl
    · exact ⟨rfl, rfl⟩
    · exact ⟨rfl, rfl⟩
  obtain ⟨hrecords, hbytes⟩ := not_or.mp hgauge
  rw [setCounter, if_neg hrecords, if_neg hbytes]
  constructor
  · rw [snapshotOf, Dictionary.lookup_insert_eq, addTotal]
    by_cases heq : key = other
    · rw [if_pos heq, if_pos heq, heq, Option.getD_some]
    · rw [if_neg heq, if_neg heq]
      split_ifs
      · rfl
      · rfl
  · show (state.addTotal other _).totalOf key = _
    rw [addTotal]
    by_cases heq : key = other
    · subst heq
      rw [if_pos rfl]
      split_ifs with hzero
      · rw [hzero, add_zero]
      · rw [totalOf, Dictionary.lookup_insert_eq, if_pos rfl, Option.getD_some]
    · rw [if_neg heq, add_zero]
      split_ifs with hzero
      · rfl
      · rw [totalOf, Dictionary.lookup_insert_eq, if_neg heq, totalOf]

/-- A batch raises each snapshot to the value it reports, and each total by as much. -/
theorem setCounters_spec (hkey : ¬ IsGauge key) (counters : Dictionary String ℤ)
    (hnonneg : 0 ≤ state.snapshotOf key) :
    (state.setCounters counters).snapshotOf key =
        max ((counters.lookup key).getD 0) (state.snapshotOf key) ∧
      (state.setCounters counters).totalOf key = state.totalOf key +
        (max ((counters.lookup key).getD 0) (state.snapshotOf key) - state.snapshotOf key) := by
  obtain ⟨entries, hnodup⟩ := counters
  rw [setCounters, AList.lookup]
  dsimp only
  induction entries generalizing state with
  | nil =>
    rw [List.foldl_nil, List.dlookup_nil, Option.getD_none, max_eq_right hnonneg, sub_self,
      add_zero]
    exact ⟨rfl, rfl⟩
  | cons entry entries ih =>
    obtain ⟨other, value⟩ := entry
    obtain ⟨hfresh, hrest⟩ := List.nodupKeys_cons.mp hnodup
    obtain ⟨hsnapshot, htotal⟩ := state.setCounter_spec key hkey other value
    rw [List.foldl_cons]
    by_cases heq : key = other
    · subst heq
      rw [if_pos rfl] at hsnapshot htotal
      have hraised : 0 ≤ (state.setCounter key value).snapshotOf key := by
        rw [hsnapshot]
        exact hnonneg.trans (le_max_left _ _)
      obtain ⟨hsnapshot', htotal'⟩ := ih _ hraised hrest
      have hnone : List.dlookup key entries = none := List.dlookup_eq_none.mpr hfresh
      rw [hnone, Option.getD_none, hsnapshot] at hsnapshot' htotal'
      rw [htotal] at htotal'
      rw [List.dlookup_cons_eq, Option.getD_some, hsnapshot', htotal']
      constructor
      · omega
      · omega
    · rw [if_neg heq] at hsnapshot htotal
      rw [add_zero] at htotal
      obtain ⟨hsnapshot', htotal'⟩ := ih _ (hsnapshot ▸ hnonneg) hrest
      rw [List.dlookup_cons_ne _ _ heq, hsnapshot', htotal', hsnapshot, htotal]
      exact ⟨rfl, rfl⟩

/-- No other part of the state that the bounds are about depends on the counters. -/
theorem setCounters_dbEvictedCapacity (counters : Dictionary String ℤ) :
    (state.setCounters counters).dbEvictedCapacity = state.dbEvictedCapacity := by
  rw [setCounters]
  refine List.foldlRecOn (motive := fun reached : UpdateState =>
    reached.dbEvictedCapacity = state.dbEvictedCapacity) counters.entries _ rfl ?_
  intro reached hreached entry _
  rw [← hreached, setCounter]
  split_ifs
  · rfl
  · rfl
  · show (reached.addTotal entry.1 _).dbEvictedCapacity = _
    rw [addTotal]
    split_ifs
    · rfl
    · rfl

@[simp] theorem addEvictedCapacity_snapshotOf (count : ℕ) :
    (state.addEvictedCapacity count).snapshotOf key = state.snapshotOf key := by
  rw [addEvictedCapacity]
  split_ifs
  · rfl
  · rfl

@[simp] theorem addEvictedCapacity_totalOf (count : ℕ) :
    (state.addEvictedCapacity count).totalOf key = state.totalOf key := by
  rw [addEvictedCapacity]
  split_ifs
  · rfl
  · rfl

/-- `db_evicted_capacity` grows by exactly the evicted rows. -/
theorem addEvictedCapacity_getD (count : ℕ) :
    (state.addEvictedCapacity count).dbEvictedCapacity.getD 0 =
      state.dbEvictedCapacity.getD 0 + count := by
  rw [addEvictedCapacity]
  split_ifs with h
  · rw [h, add_zero]
  · rfl

end UpdateState

namespace UpdateStore

variable {store store' table pruned : UpdateStore} {json : UpdateJson} {batch : UpdateBatch}

/-! ## One batch -/

/-- What a committed batch did: it inserted rows, pruned the table if it inserted any, and folded
its counters into the state. -/
structure Committed (json : UpdateJson) (store : UpdateStore) (batch : UpdateBatch)
    (table pruned store' : UpdateStore) : Prop where
  insertion : store.insertRecords json batch.records = .ok table
  pruning : table.pruneCapacity (table.rows.length - store.rows.length) = .ok pruned
  rows : store'.rows = pruned.rows
  nextId : store'.nextId = pruned.nextId
  state : store'.state =
    { pruned.state.setCounters batch.counters with lastFlushMs := some batch.nowMs }

/-- A batch that returned `True` went through all of its parts. -/
theorem writeUpdateBatch_true (h : store.writeUpdateBatch json batch = .ok (true, store')) :
    ∃ table pruned, Committed json store batch table pruned store' := by
  rw [writeUpdateBatch] at h
  split_ifs at h
  · cases h
  · obtain ⟨table, hinserted, h⟩ := except_bind_eq_ok.mp h
    obtain ⟨pruned, hpruned, h⟩ := except_bind_eq_ok.mp h
    obtain rfl := (Prod.mk.inj (Except.ok.inj h)).2
    exact ⟨table, pruned, hinserted, hpruned, rfl, rfl, rfl⟩

/-- A batch that returned `False` wrote nothing. -/
theorem writeUpdateBatch_false (h : store.writeUpdateBatch json batch = .ok (false, store')) :
    store' = store := by
  rw [writeUpdateBatch] at h
  split_ifs at h
  · exact (Prod.mk.inj (Except.ok.inj h)).2.symm
  · obtain ⟨table, -, h⟩ := except_bind_eq_ok.mp h
    obtain ⟨pruned, -, h⟩ := except_bind_eq_ok.mp h
    cases h

/-- The table that a committed batch leaves is a pruning of the table it inserted into. -/
theorem Committed.spec (h : Committed json store batch table pruned store')
    (hordered : store.Ordered) (hwithin : WithinCapacity store.rows) :
    store.Inserted table ∧ table.Pruned pruned := by
  have hinserted := insertRecords_ok h.insertion
  refine ⟨hinserted, ?_⟩
  by_cases hcount : table.rows.length - store.rows.length = 0
  · have hpruned := h.pruning
    rw [pruneCapacity, if_pos hcount] at hpruned
    obtain rfl := Except.ok.inj hpruned
    have hrows : store.rows = table.rows :=
      hinserted.prefix_rows.eq_of_length_le (Nat.sub_eq_zero_iff_le.mp hcount)
    exact pruned_self (hrows ▸ hwithin)
  · obtain ⟨left, hleft, hspec⟩ := pruneCapacity_spec (hinserted.ordered hordered) hcount
    obtain rfl := Except.ok.inj (hleft.symm.trans h.pruning)
    exact hspec

/-- The `assert` of the pruning never fails. -/
theorem writeUpdateBatch_ne_assertion (hordered : store.Ordered) :
    store.writeUpdateBatch json batch ≠ .error .assertion := by
  intro h
  rw [writeUpdateBatch] at h
  split_ifs at h
  · cases h
  · cases hinserted : store.insertRecords json batch.records with
    | error e =>
      rw [hinserted] at h
      obtain rfl := insertRecords_error hinserted
      cases h
    | ok table =>
      rw [hinserted] at h
      have htable := (insertRecords_ok hinserted).ordered hordered
      obtain ⟨pruned, hpruned⟩ : ∃ pruned,
          table.pruneCapacity (table.rows.length - store.rows.length) = .ok pruned := by
        by_cases hcount : table.rows.length - store.rows.length = 0
        · exact ⟨table, if_pos hcount⟩
        · obtain ⟨pruned, hpruned, -⟩ := pruneCapacity_spec htable hcount
          exact ⟨pruned, hpruned⟩
      change (table.pruneCapacity _).bind _ = _ at h
      rw [hpruned] at h
      cases h

end UpdateStore

/-! ## Every run -/

theorem largestReported_nonneg (key : String) (run : ReportedRun) :
    0 ≤ largestReported key run := by
  rw [largestReported]
  induction run with
  | nil => exact le_rfl
  | cons counters run ih => exact ih.trans (le_max_right _ _)

theorem largestReported_cons (key : String) (counters : Dictionary String ℤ) (run : ReportedRun) :
    largestReported key (counters :: run) =
      max ((counters.lookup key).getD 0) (largestReported key run) := rfl

namespace UpdateStoreWorld

variable {json : UpdateJson} {w : UpdateStoreWorld}
variable {store : UpdateStore}

/-- What every call of the store keeps. -/
structure Invariant (w : UpdateStoreWorld) : Prop where
  ordered : w.store.Ordered
  within : WithinCapacity w.store.rows
  /-- The snapshots are those of the current run. -/
  snapshot : ∀ key, ¬ IsGauge key →
    w.store.state.snapshotOf key = largestReported key (w.runs.headD [])
  /-- The totals count every run since the state was last cleared. -/
  total : ∀ key, ¬ IsGauge key →
    w.store.state.totalOf key = (w.runs.map (largestReported key)).sum

theorem init_invariant : Invariant {} :=
  ⟨⟨List.Pairwise.nil, nofun⟩, withinCapacity_nil, fun _ _ => rfl, fun _ _ => rfl⟩

/-- A call that leaves the rows, the snapshots and the totals keeps the invariant. -/
theorem Invariant.congr (h : w.Invariant) (hrows : store.rows = w.store.rows)
    (hnext : store.nextId = w.store.nextId)
    (hsnapshot : store.state.snapshot = w.store.state.snapshot)
    (htotal : store.state.total = w.store.state.total) : Invariant { w with store } := by
  obtain ⟨⟨hincreasing, hgiven⟩, hwithin, hsnapshots, htotals⟩ := h
  rw [← hrows] at hincreasing hgiven hwithin
  rw [← hnext] at hgiven
  simp only [UpdateState.snapshotOf, ← hsnapshot] at hsnapshots
  simp only [UpdateState.totalOf, ← htotal] at htotals
  exact ⟨⟨hincreasing, hgiven⟩, hwithin, hsnapshots, htotals⟩

/-- A cleared store has no rows and no counters. -/
theorem forget_invariant (hrows : store.rows = []) (hsnapshot : store.state.snapshot = ∅)
    (htotal : store.state.total = ∅) : (w.forget store).Invariant := by
  refine ⟨⟨?_, ?_⟩, ?_, fun key _ => ?_, fun key _ => ?_⟩
  · rw [forget, hrows]
    exact List.Pairwise.nil
  · rw [forget, hrows]
    nofun
  · rw [forget, hrows]
    exact withinCapacity_nil
  · rw [forget, UpdateState.snapshotOf, hsnapshot]
    rfl
  · rw [forget, UpdateState.totalOf, htotal]
    rfl

/-- A run that begins has no snapshots. -/
theorem Invariant.beginRun (h : w.Invariant) (runtimeId : String) (expectedGeneration : ℤ) :
    (step json w (.beginRun runtimeId expectedGeneration)).Invariant := by
  simp only [step]
  rw [UpdateStore.beginUpdateRun]
  by_cases hstale : (!w.store.state.isGeneration expectedGeneration) = true
  · rw [if_pos hstale, if_pos rfl]
    exact h
  rw [if_neg hstale]
  by_cases hsame : w.store.state.runtimeId = some runtimeId
  · rw [if_pos hsame, if_pos rfl]
    exact h
  rw [if_neg hsame, if_neg hsame]
  refine ⟨⟨h.ordered.increasing, h.ordered.given⟩, h.within, fun key _ => rfl, fun key hkey => ?_⟩
  show UpdateState.totalOf _ key = ((List.map (largestReported key) ([] :: w.runs)).sum)
  rw [List.map_cons, List.sum_cons, ← h.total key hkey]
  dsimp only [UpdateState.totalOf]
  split_ifs
  · exact (zero_add _).symm
  · exact (zero_add _).symm

/-- A committed batch is reported by the current run. -/
theorem Invariant.report (h : w.Invariant) {batch : UpdateBatch} {table pruned : UpdateStore}
    (hcommitted : w.store.Committed json batch table pruned store) :
    (w.report store batch.counters).Invariant := by
  obtain ⟨hinserted, hpruned⟩ := hcommitted.spec h.ordered h.within
  have hordered : store.Ordered := by
    obtain ⟨hincreasing, hgiven⟩ := hpruned.ordered (hinserted.ordered h.ordered)
    rw [← hcommitted.rows] at hincreasing hgiven
    rw [← hcommitted.nextId] at hgiven
    exact ⟨hincreasing, hgiven⟩
  have hwithin : WithinCapacity store.rows := hcommitted.rows ▸ hpruned.within
  have hcounters : ∀ key, ¬ IsGauge key →
      store.state.snapshotOf key =
          max ((batch.counters.lookup key).getD 0) (largestReported key (w.runs.headD [])) ∧
        store.state.totalOf key = (w.runs.map (largestReported key)).sum +
          (max ((batch.counters.lookup key).getD 0) (largestReported key (w.runs.headD [])) -
            largestReported key (w.runs.headD [])) := by
    intro key hkey
    have hsnapshot : pruned.state.snapshotOf key = largestReported key (w.runs.headD []) := by
      rw [hpruned.state, hinserted.state, UpdateState.addEvictedCapacity_snapshotOf]
      exact h.snapshot key hkey
    have htotal : pruned.state.totalOf key = (w.runs.map (largestReported key)).sum := by
      rw [hpruned.state, hinserted.state, UpdateState.addEvictedCapacity_totalOf]
      exact h.total key hkey
    have hnonneg : 0 ≤ pruned.state.snapshotOf key := hsnapshot ▸ largestReported_nonneg key _
    rw [hcommitted.state, ← hsnapshot, ← htotal]
    exact pruned.state.setCounters_spec key hkey batch.counters hnonneg
  rw [UpdateStoreWorld.report]
  cases hruns : w.runs with
  | nil =>
    rw [hruns] at hcounters
    refine ⟨hordered, hwithin, fun key hkey => (hcounters key hkey).1, fun key hkey => ?_⟩
    refine (hcounters key hkey).2.trans ?_
    rw [List.map_cons, List.map_nil, List.sum_cons, List.sum_nil, largestReported_cons,
      List.headD_nil]
    show 0 + (_ - 0) = _ + 0
    rw [zero_add, sub_zero, add_zero]
  | cons run runs =>
    rw [hruns] at hcounters
    refine ⟨hordered, hwithin, fun key hkey => (hcounters key hkey).1, fun key hkey => ?_⟩
    refine (hcounters key hkey).2.trans ?_
    show _ = ((List.map (largestReported key) ((batch.counters :: run) :: runs)).sum)
    rw [List.map_cons, List.map_cons, List.sum_cons, List.sum_cons, largestReported_cons,
      List.headD_cons]
    omega

/-- Every call keeps the invariant. -/
theorem step_invariant (h : w.Invariant) (call : UpdateStoreCall) :
    (step json w call).Invariant := by
  cases call with
  | write batch =>
    rw [step]
    split
    next store hwrite =>
      obtain ⟨table, pruned, hcommitted⟩ := UpdateStore.writeUpdateBatch_true hwrite
      exact h.report hcommitted
    next store hwrite =>
      rw [UpdateStore.writeUpdateBatch_false hwrite]
      exact h
    next => exact h
  | bind accountId =>
    rw [step, UpdateStore.bindVerifiedAccount]
    by_cases hinvalid : accountId ≤ 0
    · rw [if_pos hinvalid]
      exact h
    rw [if_neg hinvalid]
    dsimp only
    split_ifs
    · exact forget_invariant rfl rfl rfl
    · exact h.congr rfl rfl rfl rfl
    · exact h.congr rfl rfl rfl rfl
  | reset reason => exact forget_invariant rfl rfl rfl
  | beginRun runtimeId expectedGeneration => exact h.beginRun runtimeId expectedGeneration
  | endRun runtimeId expectedGeneration =>
    rw [step, UpdateStore.endUpdateRun]
    split_ifs
    · exact h
    · exact h.congr rfl rfl rfl rfl

theorem after_invariant (json : UpdateJson) (calls : List UpdateStoreCall) :
    (after json calls).Invariant := by
  rw [after]
  exact List.foldlRecOn calls _ init_invariant fun _ h call _ => step_invariant h call

/-- After any sequence of calls the table is within both bounds, and the total of every counter is
the sum, over the runs since the state was last cleared, of the largest value the run reported.  A
further batch that is stale, of another runtime or of a closed run changes nothing; no batch fails
the assertion; and one that commits leaves the longest suffix of the rows, in the order of
observation, that meets both bounds, counts the evicted rows, and evicts none within the bounds. -/
theorem store_bounds (json : UpdateJson) (calls : List UpdateStoreCall) (batch : UpdateBatch) :
    WithinCapacity (after json calls).store.rows ∧
    (∀ key, ¬ IsGauge key → (after json calls).store.state.totalOf key =
      ((after json calls).runs.map (largestReported key)).sum) ∧
    (¬ ((after json calls).store.state.isGeneration batch.expectedGeneration = true ∧
        (after json calls).store.state.runtimeId = some batch.runtimeId ∧
        (after json calls).store.state.runOpen = some 1) →
      (after json calls).store.writeUpdateBatch json batch =
        .ok (false, (after json calls).store)) ∧
    (after json calls).store.writeUpdateBatch json batch ≠ .error .assertion ∧
    (∀ store, (after json calls).store.writeUpdateBatch json batch = .ok (true, store) →
      ∃ table, (after json calls).store.insertRecords json batch.records = .ok table ∧
        WithinCapacity store.rows ∧
        IsLongestSuffix WithinCapacity (byTime store.rows) (byTime table.rows) ∧
        store.rows.Sublist table.rows ∧
        store.state.dbEvictedCapacity.getD 0 =
          (after json calls).store.state.dbEvictedCapacity.getD 0 +
            (table.rows.length - store.rows.length) ∧
        (WithinCapacity table.rows → store.rows = table.rows)) := by
  have h := after_invariant json calls
  refine ⟨h.within, h.total, fun hstale => ?_, UpdateStore.writeUpdateBatch_ne_assertion h.ordered,
    fun store hwrite => ?_⟩
  · refine if_pos ?_
    rw [Bool.not_eq_true', ← Bool.not_eq_true, UpdateStore.accepts]
    simpa only [Bool.and_eq_true, beq_iff_eq, and_assoc] using hstale
  · obtain ⟨table, pruned, hcommitted⟩ := UpdateStore.writeUpdateBatch_true hwrite
    obtain ⟨hinserted, hpruned⟩ := hcommitted.spec h.ordered h.within
    refine ⟨table, hcommitted.insertion, ?_, ?_, ?_, ?_, ?_⟩
    · rw [hcommitted.rows]
      exact hpruned.within
    · rw [hcommitted.rows]
      exact hpruned.longest
    · rw [hcommitted.rows]
      exact hpruned.sublist
    · have hcounted := pruned.state.setCounters_dbEvictedCapacity batch.counters
      rw [hcommitted.state, hcommitted.rows]
      dsimp only
      rw [hcounted, hpruned.state, hinserted.state, UpdateState.addEvictedCapacity_getD]
    · intro hfits
      rw [hcommitted.rows]
      exact hpruned.eq_of_within hfits

/-- A JSON parameter for concrete runs: every text counts as valid, and a list of trace identifiers
is rendered as the empty one. -/
def sampleJson : UpdateJson := ⟨fun _ => true, fun _ => "[]"⟩

/-- A batch with one record and one counter. -/
def sampleBatch (runtimeId : String) (generation : ℤ) (dispatched : ℤ) : UpdateBatch where
  records := [⟨runtimeId, 1, 10, "push", "Update", "{}", 2, []⟩]
  nowMs := 20
  counters := AList.singleton "dispatched" dispatched
  expectedGeneration := generation
  runtimeId := runtimeId

/-- Calls that reset the updates between two runs. -/
def resetBetweenRuns : List UpdateStoreCall :=
  [.bind 7, .beginRun "a" 1, .write (sampleBatch "a" 1 5), .reset "logout", .bind 7,
    .beginRun "b" 2, .write (sampleBatch "b" 2 2)]

/-- A reset deletes the totals: a batch that committed afterwards leaves a total of 2, although the
two runs reported 5 and 2. -/
theorem total_after_reset :
    (after sampleJson resetBetweenRuns).store.rows.length = 1 ∧
    (after sampleJson resetBetweenRuns).store.state.totalOf "dispatched" = 2 ∧
    (((after sampleJson resetBetweenRuns).runs ++
        (after sampleJson resetBetweenRuns).clearedRuns).map
      (largestReported "dispatched")).sum = 7 := by
  decide +kernel

/-- The bounds at the first batch of a run, which inserts its one record. -/
theorem store_bounds_first_batch :
    ∃ store, (after sampleJson (resetBetweenRuns.take 2)).store.writeUpdateBatch sampleJson
        (sampleBatch "a" 1 5) = .ok (true, store) ∧
      store.rows.length = 1 ∧ WithinCapacity store.rows := by
  have hwrite : ∃ store, (after sampleJson (resetBetweenRuns.take 2)).store.writeUpdateBatch
      sampleJson (sampleBatch "a" 1 5) = .ok (true, store) ∧ store.rows.length = 1 :=
    ⟨_, rfl, rfl⟩
  obtain ⟨store, hstore, hlength⟩ := hwrite
  obtain ⟨-, -, -, -, hcommits⟩ :=
    store_bounds sampleJson (resetBetweenRuns.take 2) (sampleBatch "a" 1 5)
  obtain ⟨-, -, hwithin, -⟩ := hcommits store hstore
  exact ⟨store, hstore, hlength, hwithin⟩

end UpdateStoreWorld

end McpTelegram
