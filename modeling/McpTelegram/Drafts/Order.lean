import McpTelegram.Drafts.World

/-!
# The order of drafts

The order that is stored for a scope and the floor of an account never go down, whatever arrives in
whatever order, and an observation whose order is below them changes no row.  Every operation
decomposes into row steps; a row step that writes a row has an order that is not below the stored
one.
-/

namespace McpTelegram

open Foundations

namespace DraftStore

variable {written : DraftScope} {candidate : DraftValues} {result : DraftApplyResult}
    {instant claimToken order stored : ℕ} {observations : List DraftObservation}
    {coverage : SnapshotCoverage} {observation : DraftObservation}

/-- The order that is stored for a scope. -/
def storedOrder (store : DraftStore) (scope : DraftScope) : Option ℕ :=
  (store.rowForScope scope).bind (·.sourceOrderAt)

/-- What an operation does to the rows: nothing, or one row is refreshed or published with an
order that is not below the stored one. -/
inductive RowStep (now : ℕ) (store : DraftStore) : DraftStore → Prop where
  | kept {after : DraftStore} (h : SameRows store after) : RowStep now store after
  | refreshed (scope : DraftScope) (candidate : DraftValues) (row : DraftRow)
      (hrow : store.current.lookup scope = some row)
      (hmatches : rowMatches row.values candidate = true)
      (horder : OrderLe (store.storedOrder scope) candidate.sourceOrderAt) :
      RowStep now store
        { store with current := store.current.insert scope (refreshed row candidate) }
  | published (scope : DraftScope) (values : DraftValues) (runtime : DraftRuntime)
      (hruntime : store.runtime = some runtime) (haccount : 0 < scope.accountId)
      (horder : OrderLe (store.storedOrder scope) values.sourceOrderAt)
      (hdiffers : ∀ row, store.current.lookup scope = some row →
        rowMatches row.values values = false) :
      RowStep now store (store.published runtime scope values now)

/-- Row steps one after the other. -/
def RowSteps (now : ℕ) : DraftStore → DraftStore → Prop := Relation.ReflTransGen (RowStep now)

variable {env : DraftEnv} {reads : DraftReads} {store after : DraftStore} {now : ℕ}
  {scope : DraftScope}

theorem published_current (store : DraftStore) (runtime : DraftRuntime) (scope : DraftScope)
    (values : DraftValues) (now : ℕ) :
    (store.published runtime scope values now).current =
      store.current.insert scope ⟨values, runtime.projectionRevision + 1⟩ :=
  rfl

theorem published_syncState (store : DraftStore) (runtime : DraftRuntime) (scope : DraftScope)
    (values : DraftValues) (now : ℕ) :
    (store.published runtime scope values now).syncState = store.syncState := by
  change (store.displace scope now).syncState = store.syncState
  rw [displace_eq]

/-- The stored order after a row was written. -/
theorem storedOrder_insert {row : DraftRow}
    (hcurrent : after.current = store.current.insert written row)
    (horder : OrderLe (store.storedOrder written) row.values.sourceOrderAt) (scope : DraftScope) :
    OrderLe (store.storedOrder scope) (after.storedOrder scope) := by
  rw [storedOrder, storedOrder, rowForScope, rowForScope, hcurrent, Dictionary.lookup_insert_eq]
  split_ifs with hscope
  · rw [hscope]
    exact horder
  · exact OrderLe.refl _

/-- A row step lowers no stored order. -/
theorem RowStep.storedOrder_le (h : RowStep now store after) (scope : DraftScope) :
    OrderLe (store.storedOrder scope) (after.storedOrder scope) := by
  cases h with
  | kept h =>
    rw [storedOrder, storedOrder, rowForScope, rowForScope, h.current]
    exact OrderLe.refl _
  | refreshed written candidate row hrow hmatches horder =>
    exact storedOrder_insert rfl horder scope
  | published written values runtime hruntime haccount horder hdiffers =>
    exact storedOrder_insert (published_current store runtime written values now) horder scope

/-- A row step lowers no floor. -/
theorem RowStep.floor_le (h : RowStep now store after) (account : ℤ) :
    OrderLe (store.sourceOrderFloor account) (after.sourceOrderFloor account) := by
  cases h with
  | kept h => exact h.floor account
  | refreshed written candidate row hrow hmatches horder => exact OrderLe.refl _
  | published written values runtime hruntime haccount horder hdiffers =>
    rw [sourceOrderFloor, sourceOrderFloor, published_syncState]
    exact OrderLe.refl _

theorem RowSteps.orders_le (h : RowSteps now store after) :
    (∀ scope, OrderLe (store.storedOrder scope) (after.storedOrder scope)) ∧
      ∀ account, OrderLe (store.sourceOrderFloor account) (after.sourceOrderFloor account) := by
  induction h with
  | refl => exact ⟨fun _ => OrderLe.refl _, fun _ => OrderLe.refl _⟩
  | tail _ hstep ih =>
    exact ⟨fun scope => (ih.1 scope).trans (hstep.storedOrder_le scope),
      fun account => (ih.2 account).trans (hstep.floor_le account)⟩

/-! ## Operations as row steps -/

theorem RowSteps.kept (h : SameRows store after) : RowSteps now store after :=
  Relation.ReflTransGen.single (.kept h)

/-- An order that advances is above the order of its scope. -/
theorem Advances.order_le (h : Advances store scope candidate) :
    OrderLe (store.storedOrder scope) candidate.sourceOrderAt := by
  obtain ⟨order, horder, hadvances⟩ := h
  intro stored hstored
  refine ⟨order, horder, ?_⟩
  rw [storedOrder, Option.mem_def] at hstored
  rw [effectiveOrder, hstored] at hadvances
  cases hfloor : store.sourceOrderFloor scope.accountId with
  | none =>
    rw [hfloor] at hadvances
    exact (hadvances stored rfl).le
  | some floor =>
    rw [hfloor] at hadvances
    exact (le_max_right floor stored).trans (hadvances _ rfl).le

theorem Unclaimed.rows {middle : DraftStore} (h : Unclaimed store middle) :
    SameRows store middle := by
  rcases h with ⟨-, harmed⟩ | ⟨-, rfl⟩
  · exact harmed.rows
  · exact SameRows.refl _

theorem SameRows.storedOrder_eq (h : SameRows store after) (scope : DraftScope) :
    after.storedOrder scope = store.storedOrder scope := by
  rw [storedOrder, storedOrder, rowForScope, rowForScope, h.current]

/-- A realtime observation as row steps. -/
theorem RealtimeOutcome.rowSteps (h : RealtimeOutcome env reads scope candidate store result after) :
    RowSteps reads.now store after := by
  cases h with
  | kept hdecision hambiguous => exact Relation.ReflTransGen.refl
  | requested marked after hmarked hrecovery harmed hdecision =>
    exact .kept (hmarked.trans harmed.rows)
  | refreshed middle row hunclaimed hadvances hrow hmatches haccepted =>
    refine (RowSteps.kept hunclaimed.rows).tail (.refreshed scope candidate row ?_ hmatches ?_)
    · rw [hunclaimed.rows.current, hrow]
    · rw [hunclaimed.rows.storedOrder_eq]
      exact hadvances.order_le
  | published middle after runtime hunclaimed hadvances hdiffers hruntime haccount
      haccepted hafter =>
    have hpublished :
        RowSteps reads.now store (middle.published runtime scope candidate reads.now) := by
      refine (RowSteps.kept hunclaimed.rows).tail
        (.published scope candidate runtime hruntime haccount ?_ ?_)
      · rw [hunclaimed.rows.storedOrder_eq]
        exact hadvances.order_le
      · rw [hunclaimed.rows.current]
        exact hdiffers
    rcases hafter with rfl | ⟨-, rfl⟩
    · exact hpublished
    · exact hpublished.tail (.kept (sameRows_updateSyncState _ _ fun _ => OrderLe.refl _))

/-- A row that is not older has an order that is not below the stored one. -/
theorem orderLe_of_newerThan (hsource : candidate.sourceOrderAt = some instant)
    (hnewer : newerThan (store.rowForScope scope) candidate = true) :
    OrderLe (store.storedOrder scope) candidate.sourceOrderAt := by
  intro stored hstored
  refine ⟨instant, hsource, ?_⟩
  rw [storedOrder, Option.mem_def, Option.bind_eq_some_iff] at hstored
  obtain ⟨row, hrow, hstored⟩ := hstored
  simpa [newerThan, hrow, hstored, hsource] using hnewer

/-- One scope of a snapshot as row steps. -/
theorem ScopeSettled.rowSteps (hsource : candidate.sourceOrderAt = some instant)
    (h : ScopeSettled reads scope candidate store after) : RowSteps reads.now store after := by
  cases h with
  | older h => exact Relation.ReflTransGen.refl
  | refreshed row hrow hnewer hmatches =>
    refine Relation.ReflTransGen.tail (Relation.ReflTransGen.single ?_)
      (.kept (sameRows_clearScopeUncertainty _ _))
    exact .refreshed scope candidate row hrow hmatches (orderLe_of_newerThan hsource hnewer)
  | published runtime hruntime haccount hnewer hdiffers =>
    refine Relation.ReflTransGen.tail (Relation.ReflTransGen.single ?_)
      (.kept (sameRows_clearScopeUncertainty _ _))
    exact .published scope candidate runtime hruntime haccount
      (orderLe_of_newerThan hsource hnewer) hdiffers

theorem sameRows_markSnapshotComplete (store : DraftStore) (accountId : ℤ)
    (completedAt claimToken sourceOrderAt : ℕ) :
    SameRows store
      (store.markSnapshotComplete reads accountId completedAt claimToken sourceOrderAt).2 := by
  have hraise : ∀ state : DraftSyncState, OrderLe state.sourceOrderFloor
      (some (max (state.sourceOrderFloor.getD 0) sourceOrderAt)) := by
    intro state floor hfloor
    refine ⟨_, rfl, ?_⟩
    rw [Option.mem_def.mp hfloor]
    exact le_max_left _ _
  unfold markSnapshotComplete
  split
  · exact sameRows_updateSyncState _ _ hraise
  · cases hruntime : store.runtime with
    | none => exact SameRows.refl _
    | some runtime =>
      simp only
      split
      · refine SameRows.trans ?_ (sameRows_updateSyncState _ _ hraise)
        exact sameRows_runtime store (revisionCounter_of_some hruntime).symm
      · exact SameRows.refl _

/-- A snapshot as row steps. -/
theorem applySnapshot_rowSteps
    (h : store.applySnapshot env reads observations coverage claimToken = .ok (result, after)) :
    RowSteps reads.now store after := by
  rcases applySnapshot_ok h with ⟨rfl, -, -⟩ | ⟨sourceOrderAt, deduplicated, changed, changed',
    middle, middle', instant, -, -, -, -, hrows, habsences, -, hmark, -⟩
  · exact Relation.ReflTransGen.refl
  · have hmiddle : RowSteps reads.now store middle' := by
      refine snapshot_invariant (I := RowSteps reads.now store) ?_ ?_ Relation.ReflTransGen.refl
        hrows habsences
      · exact fun _ _ _ hsource hsteps hsettled => hsteps.trans (hsettled.rowSteps hsource)
      · exact fun _ _ hsource hsteps hsettled => hsteps.trans (hsettled.rowSteps hsource)
    have hafter := congrArg Prod.snd hmark
    simp only at hafter
    rw [hafter]
    exact hmiddle.tail (.kept (sameRows_markSnapshotComplete _ _ _ _ _))

/-- Every operation is a list of row steps. -/
theorem perform_rowSteps {operation : DraftOperation} {returned : DraftReturn}
    (h : store.perform env reads operation = .ok (returned, after)) :
    RowSteps reads.now store after := by
  cases operation with
  | bindAccount accountId =>
    obtain ⟨bound, hbind, heq⟩ := except_map_eq_ok.mp h
    obtain rfl := (Prod.mk.inj heq).2
    exact .kept (sameRows_bindAccount hbind)
  | applyRealtime observation =>
    obtain ⟨⟨result, applied⟩, happly, heq⟩ := except_map_eq_ok.mp h
    obtain rfl := (Prod.mk.inj heq).2
    obtain ⟨candidate, -, -, houtcome⟩ := applyRealtime_outcome happly
    exact houtcome.rowSteps
  | applySnapshot observations coverage claimToken =>
    obtain ⟨⟨result, applied⟩, happly, heq⟩ := except_map_eq_ok.mp h
    obtain rfl := (Prod.mk.inj heq).2
    exact applySnapshot_rowSteps happly
  | markRecoveryNeeded reason observedAt =>
    obtain ⟨marked, hmark, heq⟩ := except_map_eq_ok.mp h
    obtain rfl := (Prod.mk.inj heq).2
    exact .kept (markRecoveryNeeded_ok hmark).rows
  | claimRecovery instant =>
    obtain ⟨⟨token, claimed⟩, hclaim, heq⟩ := except_map_eq_ok.mp h
    obtain rfl := (Prod.mk.inj heq).2
    exact .kept (sameRows_claimRecovery hclaim)
  | claimMutationPreflight instant =>
    obtain ⟨⟨token, claimed⟩, hclaim, heq⟩ := except_map_eq_ok.mp h
    obtain rfl := (Prod.mk.inj heq).2
    exact .kept (sameRows_claimMutationPreflight hclaim)
  | releaseRecoveryClaim claimToken dueAt =>
    obtain ⟨⟨restored, released⟩, hrelease, heq⟩ := except_map_eq_ok.mp h
    obtain rfl := (Prod.mk.inj heq).2
    exact .kept (sameRows_releaseRecoveryClaim hrelease)

/-! ## Observations that are not newer -/

/-- An order that advances is above the stored order and above the floor. -/
theorem Advances.above (h : Advances store scope candidate)
    (horder : candidate.sourceOrderAt = some order) :
    (∀ stored ∈ store.storedOrder scope, stored < order) ∧
      ∀ floor ∈ store.sourceOrderFloor scope.accountId, floor < order := by
  obtain ⟨order', horder', hadvances⟩ := h
  obtain rfl := Option.some_inj.mp (horder'.symm.trans horder)
  rw [effectiveOrder, ← storedOrder] at hadvances
  cases hfloor : store.sourceOrderFloor scope.accountId with
  | none =>
    rw [hfloor] at hadvances
    exact ⟨fun stored hstored => hadvances stored hstored, by simp⟩
  | some floor =>
    rw [hfloor] at hadvances
    cases hstored : store.storedOrder scope with
    | none =>
      rw [hstored] at hadvances
      exact ⟨by simp, by simpa using hadvances⟩
    | some stored =>
      rw [hstored] at hadvances
      have hmax := hadvances _ rfl
      refine ⟨?_, ?_⟩
      · rintro _ ⟨⟩
        exact (le_max_right _ _).trans_lt hmax
      · rintro _ ⟨⟩
        exact (le_max_left _ _).trans_lt hmax

/-- A realtime observation that is not above the order of its scope and the floor of its account
changes no row. -/
theorem applyRealtime_keeps (h : store.applyRealtime env reads observation = .ok (result, after))
    (horder : sourceOrder observation none = .ok (some order))
    (hold : (∃ stored ∈ store.storedOrder observation.scope, order ≤ stored) ∨
      ∃ floor ∈ store.sourceOrderFloor observation.scope.accountId, order ≤ floor) :
    after.current = store.current := by
  obtain ⟨candidate, hcandidate, -, houtcome⟩ := applyRealtime_outcome h
  have hcandidateOrder : candidate.sourceOrderAt = some order := by
    obtain ⟨observedAt, -, hcandidate⟩ := except_bind_eq_ok.mp hcandidate
    obtain ⟨content, -, hcandidate⟩ := except_bind_eq_ok.mp hcandidate
    obtain ⟨sourceOrderAt, hsource, hcandidate⟩ := except_bind_eq_ok.mp hcandidate
    obtain rfl := Except.ok.inj hcandidate
    exact Except.ok.inj (hsource.symm.trans horder)
  have hnot : ¬Advances store observation.scope candidate := by
    intro hadvances
    obtain ⟨habove, hfloor⟩ := hadvances.above hcandidateOrder
    rcases hold with ⟨stored, hstored, hle⟩ | ⟨floor, hmem, hle⟩
    · exact absurd (habove stored hstored) hle.not_gt
    · exact absurd (hfloor floor hmem) hle.not_gt
  cases houtcome with
  | kept hdecision hambiguous => rfl
  | requested marked after hmarked hrecovery harmed hdecision =>
    exact harmed.rows.current.trans hmarked.current
  | refreshed middle row hunclaimed hadvances hrow hmatches haccepted =>
    exact absurd hadvances hnot
  | published middle after runtime hunclaimed hadvances hdiffers hruntime haccount haccepted
      hafter => exact absurd hadvances hnot

/-- Among observations of different scopes, each is the first of its scope. -/
theorem find?_of_nodup (hnodup : (observations.map (·.scope)).Nodup)
    (hmem : observation ∈ observations) :
    observations.find? (·.scope = observation.scope) = some observation := by
  cases hfind : observations.find? (·.scope = observation.scope) with
  | none => simpa using List.find?_eq_none.mp hfind observation hmem
  | some other =>
    have hscope : other.scope = observation.scope := by simpa using List.find?_some hfind
    rw [List.inj_on_of_nodup_map hnodup (List.mem_of_find?_eq_some hfind) hmem hscope]

/-- Of the observations of one scope, the deduplication keeps the first. -/
theorem deduplicate_ok {kept observations deduplicated : List DraftObservation}
    (hkept : (kept.map (·.scope)).Nodup)
    (h : deduplicate kept observations = .ok (some deduplicated)) :
    (deduplicated.map (·.scope)).Nodup ∧ ∀ scope : DraftScope,
      deduplicated.find? (·.scope = scope) = (kept ++ observations).find? (·.scope = scope) := by
  induction observations generalizing kept with
  | nil =>
    obtain rfl := Option.some_inj.mp (Except.ok.inj h)
    exact ⟨hkept, fun scope => by rw [List.append_nil]⟩
  | cons observation rest ih =>
    rw [deduplicate] at h
    split at h
    · rename_i hnew
      have hnodup : ((kept ++ [observation]).map (·.scope)).Nodup := by
        rw [List.map_append, List.map_singleton, List.nodup_append]
        refine ⟨hkept, List.nodup_singleton _, ?_⟩
        intro scope hscope other hother
        obtain ⟨seen, hseen, rfl⟩ := List.mem_map.mp hscope
        rw [List.mem_singleton.mp hother]
        simpa using List.find?_eq_none.mp hnew seen hseen
      obtain ⟨hresult, hfind⟩ := ih hnodup h
      exact ⟨hresult, fun scope => by rw [hfind, List.append_assoc, List.singleton_append]⟩
    · rename_i existing hexisting
      obtain ⟨old, -, h⟩ := except_bind_eq_ok.mp h
      obtain ⟨new, -, h⟩ := except_bind_eq_ok.mp h
      split at h
      · obtain ⟨hresult, hfind⟩ := ih hkept h
        refine ⟨hresult, fun scope => ?_⟩
        rw [hfind, List.find?_append, List.find?_append]
        by_cases hscope : observation.scope = scope
        · rw [← hscope, hexisting]
          rfl
        · rw [List.find?_cons_of_neg (by simpa using hscope)]
      · cases h

/-- The order under which a snapshot settles a scope: that of the first observation of the scope, or
of the envelope where it shows none. -/
def snapshotOrder (observations : List DraftObservation) (sourceOrderAt : ℤ) (scope : DraftScope) :
    Except DraftError ℤ :=
  match observations.find? (·.scope = scope) with
  | some observation => authoritativeOrder observation sourceOrderAt
  | none => .ok sourceOrderAt

/-- A scope whose order is above the one of the snapshot keeps its row. -/
theorem ScopeSettled.keeps (instant : ℕ) (h : ScopeSettled reads written candidate store after)
    (hstored : store.storedOrder scope = some stored)
    (holder : written = scope → candidate.sourceOrderAt = some instant ∧ instant < stored) :
    after.current.lookup scope = store.current.lookup scope := by
  have hne : newerThan (store.rowForScope written) candidate = true → scope ≠ written := by
    rintro hnewer rfl
    obtain ⟨hsource, hlt⟩ := holder rfl
    obtain ⟨row, hrow, horder⟩ := Option.bind_eq_some_iff.mp hstored
    simp [newerThan, hrow, horder, hsource] at hnewer
    omega
  cases h with
  | older h => rfl
  | refreshed _ _ hnewer | published _ _ _ hnewer =>
    exact AList.lookup_insert_ne (hne hnewer)

/-- A snapshot changes no row of a scope whose stored order is above the order under which the
snapshot settles it. -/
theorem applySnapshot_keeps {sourceOrderAt order : ℤ}
    (h : store.applySnapshot env reads observations coverage claimToken = .ok (result, after))
    (hsource : coverage.sourceOrderAt = some sourceOrderAt)
    (horder : snapshotOrder observations sourceOrderAt scope = .ok order)
    (hinstant : asUnix order = .ok instant) (hstored : store.storedOrder scope = some stored)
    (hlt : instant < stored) : after.current.lookup scope = store.current.lookup scope := by
  rcases applySnapshot_ok h with ⟨rfl, -, -⟩ | ⟨sourceOrderAt', deduplicated, changed, changed',
    middle, middle', _, -, -, hsource', hdeduplicated, hrows, habsences, -, hmark, -⟩
  · rfl
  · obtain rfl := Option.some_inj.mp (hsource.symm.trans hsource')
    obtain ⟨hnodup, hfind⟩ := @deduplicate_ok [] observations deduplicated (by simp) hdeduplicated
    have hstoredOf : ∀ {other : DraftStore},
        other.current.lookup scope = store.current.lookup scope →
        other.storedOrder scope = some stored := by
      intro other hother
      rw [storedOrder, rowForScope, hother]
      exact hstored
    have hmiddle : middle'.current.lookup scope = store.current.lookup scope := by
      refine @snapshot_invariant env reads store middle' deduplicated
        (fun other => other.current.lookup scope = store.current.lookup scope) coverage.accountId
        sourceOrderAt reads.now changed changed' middle ?_ ?_ rfl hrows habsences
      · intro other next observation candidate rowOrder rowInstant hmem hrowOrder hrowInstant
          hcandidate hother hsettled
        refine Eq.trans (ScopeSettled.keeps rowInstant hsettled (hstoredOf hother) ?_) hother
        rintro rfl
        have hfirst : observations.find? (·.scope = observation.scope) = some observation := by
          rw [← List.nil_append observations, ← hfind]
          exact find?_of_nodup hnodup hmem
        rw [snapshotOrder, hfirst] at horder
        obtain rfl := Except.ok.inj (hrowOrder.symm.trans horder)
        obtain rfl := Except.ok.inj (hrowInstant.symm.trans hinstant)
        exact ⟨hcandidate, hlt⟩
      · intro other next written candidate envelope hunseen henvelope hcandidate hother hsettled
        refine Eq.trans (ScopeSettled.keeps envelope hsettled (hstoredOf hother) ?_) hother
        rintro rfl
        have hnone : observations.find? (·.scope = written) = none := by
          rw [← List.nil_append observations, ← hfind, List.find?_eq_none]
          intro observation hmem hscope
          exact hunseen (List.mem_map.mpr ⟨observation, hmem, by simpa using hscope⟩)
        rw [snapshotOrder, hnone] at horder
        obtain rfl := Except.ok.inj horder
        obtain rfl := Except.ok.inj (henvelope.symm.trans hinstant)
        exact ⟨hcandidate, hlt⟩
    have hafter := congrArg Prod.snd hmark
    simp only at hafter
    rw [hafter, (sameRows_markSnapshotComplete _ _ _ _ _).current, hmiddle]

/-! ## Runs -/

/-- A run lowers no stored order and no floor: operations that raise are rolled back. -/
theorem performEach_orders_le (calls : List (DraftReads × DraftOperation)) (store : DraftStore) :
    (∀ scope, OrderLe (store.storedOrder scope)
      ((performEach env store calls).storedOrder scope)) ∧
    ∀ account, OrderLe (store.sourceOrderFloor account)
      ((performEach env store calls).sourceOrderFloor account) := by
  induction calls generalizing store with
  | nil => exact ⟨fun _ => OrderLe.refl _, fun _ => OrderLe.refl _⟩
  | cons call calls ih =>
    obtain ⟨hrest, hrestFloor⟩ := ih (commit env store call)
    have hfirst : (∀ scope, OrderLe (store.storedOrder scope)
          ((commit env store call).storedOrder scope)) ∧
        ∀ account, OrderLe (store.sourceOrderFloor account)
          ((commit env store call).sourceOrderFloor account) := by
      rw [commit]
      split
      · rename_i returned after hperform
        exact (perform_rowSteps hperform).orders_le
      · exact ⟨fun _ => OrderLe.refl _, fun _ => OrderLe.refl _⟩
    constructor
    · intro scope
      exact (hfirst.1 scope).trans (hrest scope)
    · intro account
      exact (hfirst.2 account).trans (hrestFloor account)

/-- In every run the stored order of every scope and the floor of every account only go up, and in
every state that a run reaches, an observation that is older than what is stored for its scope
changes no row: a realtime observation that is not above the stored order of its scope or not
above the floor, and a row or an inferred absence of a snapshot whose order is below the stored
one. -/
theorem orders_monotone (env : DraftEnv) (store : DraftStore)
    (before calls : List (DraftReads × DraftOperation)) :
    let reached := performEach env store before
    let later := performEach env reached calls
    (∀ scope, OrderLe (reached.storedOrder scope) (later.storedOrder scope)) ∧
    (∀ account, OrderLe (reached.sourceOrderFloor account) (later.sourceOrderFloor account)) ∧
    (∀ reads observation result after order,
      reached.applyRealtime env reads observation = .ok (result, after) →
      sourceOrder observation none = .ok (some order) →
      ((∃ stored ∈ reached.storedOrder observation.scope, order ≤ stored) ∨
        ∃ floor ∈ reached.sourceOrderFloor observation.scope.accountId, order ≤ floor) →
      after.current = reached.current) ∧
    ∀ reads observations coverage claimToken result after sourceOrderAt scope order instant stored,
      reached.applySnapshot env reads observations coverage claimToken = .ok (result, after) →
      coverage.sourceOrderAt = some sourceOrderAt →
      snapshotOrder observations sourceOrderAt scope = .ok order → asUnix order = .ok instant →
      reached.storedOrder scope = some stored → instant < stored →
      after.current.lookup scope = reached.current.lookup scope := by
  intro reached later
  obtain ⟨hstored, hfloor⟩ := @performEach_orders_le env calls reached
  refine ⟨hstored, hfloor, ?_, ?_⟩
  · intro reads observation result after order h horder hold
    exact applyRealtime_keeps h horder hold
  · intro reads observations coverage claimToken result after sourceOrderAt scope order instant
      stored h hsource horder hinstant hstored hlt
    exact applySnapshot_keeps h hsource horder hinstant hstored hlt

end DraftStore

end McpTelegram
