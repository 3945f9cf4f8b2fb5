import McpTelegram.Demand.Turns

/-!
# Superseded work

An adapter that selects another revision of a key supersedes the earlier ones.  The coordinator
forgets a superseded revision that has an invocation, in all of its maps at once, and whatever it
does later it makes invocations for selected revisions only.  So in every reachable world the
revisions with an invocation have different keys, all of them reported by an adapter.
-/

namespace McpTelegram

open Foundations

namespace DemandCoordinator

variable {c c' : DemandCoordinator} {kind : DemandKind} {selected other : WorkRevision}
variable {readings : List StatusReading} {status : DemandStatus} {reading : StatusReading}
    {safetyScanSeconds observedAt : ℚ}

/-! ## Reports -/

/-- The revision has an entry in `_invocations`. -/
def Invoked (c : DemandCoordinator) (revision : WorkRevision) : Prop :=
  (c.workOf revision).invocation.isSome = true

instance (c : DemandCoordinator) (revision : WorkRevision) : Decidable (c.Invoked revision) :=
  inferInstanceAs (Decidable (_ = _))

/-- The revision that the status of a kind selects. -/
def selectedOf (c : DemandCoordinator) (kind : DemandKind) : Option WorkRevision :=
  (c.statuses.lookup kind).bind DemandStatus.selected

theorem selectedOf_congr (h : c'.statuses = c.statuses) (kind : DemandKind) :
    c'.selectedOf kind = c.selectedOf kind := by
  rw [selectedOf, selectedOf, h]

/-- The revisions that an adapter has selected in its answers, in their order. -/
def reported (readings : List StatusReading) : List WorkRevision :=
  readings.filterMap fun reading => (reading.answer.bind id).bind DemandStatus.selected

/-- An adapter of its own kind reports work of that kind. -/
theorem ownAnswers_reported (h : OwnAnswers kind readings) (hmem : selected ∈ reported readings) :
    selected.key.demandKind = kind := by
  obtain ⟨reading, hreading, hselected⟩ := List.mem_filterMap.mp hmem
  obtain ⟨status, hstatus, hselected⟩ := Option.bind_eq_some_iff.mp hselected
  obtain ⟨answer, hanswer, hsome⟩ := Option.bind_eq_some_iff.mp hstatus
  exact h reading hreading status (by rw [hanswer]; exact congrArg some hsome) selected hselected

/-- The revision is the last one of its key in a list. -/
def Latest (revision : WorkRevision) (revisions : List WorkRevision) : Prop :=
  ∃ before after, revisions = before ++ revision :: after ∧
    ∀ later ∈ after, later.key ≠ revision.key

/-- The last revision of a key is in the tail, or it is the head. -/
theorem latest_cons {first : WorkRevision} {revisions : List WorkRevision} :
    Latest selected (first :: revisions) ↔
      Latest selected revisions ∨
        (first = selected ∧ ∀ later ∈ revisions, later.key ≠ selected.key) := by
  constructor
  · rintro ⟨before, after, hsplit, hafter⟩
    cases before with
    | nil =>
      obtain ⟨rfl, rfl⟩ := List.cons.inj hsplit
      exact Or.inr ⟨rfl, hafter⟩
    | cons head before =>
      exact Or.inl ⟨before, after, (List.cons.inj hsplit).2, hafter⟩
  · rintro (⟨before, after, rfl, hafter⟩ | ⟨rfl, hafter⟩)
    · exact ⟨first :: before, after, rfl, hafter⟩
    · exact ⟨[], revisions, rfl, hafter⟩

/-- The scan asks the adapter of the kind. -/
def Asks (c : DemandCoordinator) (observedAt : ℚ) (kind : DemandKind) : Prop :=
  c.retainedKind kind = false ∧ (c.statusFailedUntil.lookup kind).any (observedAt < ·) = false

instance (c : DemandCoordinator) (observedAt : ℚ) (kind : DemandKind) :
    Decidable (c.Asks observedAt kind) :=
  inferInstanceAs (Decidable (_ ∧ _))

/-! ## One answer -/

/-- Leaving the queue changes no hold. -/
theorem setNotReady_workOf (c : DemandCoordinator) (kind : DemandKind) :
    (c.setNotReady kind).workOf = c.workOf := by
  unfold setNotReady removeQueued
  split_ifs <;> rfl

/-- Leaving the queue changes no status. -/
theorem setNotReady_statuses (c : DemandCoordinator) (kind : DemandKind) :
    (c.setNotReady kind).statuses = c.statuses := by
  unfold setNotReady removeQueued
  split_ifs <;> rfl

/-- A status without a selected revision changes no hold. -/
theorem applySome_workOf_of_none (hselected : status.selected = none) (observedAt : ℚ)
    (reading : StatusReading) : (c.applySome kind status observedAt reading).workOf = c.workOf := by
  dsimp only [applySome]
  rw [hselected]
  exact setNotReady_workOf _ kind

/-- A status forgets the other revisions of its key that have an invocation. -/
theorem applySome_workOf_of_ne (hselected : status.selected = some selected)
    (hne : other ≠ selected) (observedAt : ℚ) (reading : StatusReading) :
    (c.applySome kind status observedAt reading).workOf other =
      if c.Invoked other ∧ other.key = selected.key then {} else c.workOf other := by
  have hpruned : (({ c with statuses := c.statuses.insert kind status } :
      DemandCoordinator).pruneRevisedInvocations selected).workOf other =
        if c.Invoked other ∧ other.key = selected.key then {} else c.workOf other := by
    rw [workOf_pruneRevisedInvocations]
    refine if_congr ?_ rfl rfl
    exact ⟨fun h => ⟨h.1, h.2.1⟩, fun h => ⟨h.1, h.2, hne⟩⟩
  have hwork (c : DemandCoordinator) (cell : ℕ) (statuses : Dictionary DemandKind DemandStatus) :
      ({ c with nextCell := cell, statuses } : DemandCoordinator).workOf = c.workOf := rfl
  rw [← hpruned]
  dsimp only [applySome]
  rw [hselected]
  dsimp only
  split_ifs
  · rw [setNotReady_workOf]
  · rw [setNotReady_workOf]
  · rw [setNotReady_workOf, hwork, workOf_updateWork, if_neg hne]
  · rw [setReady_workOf, hwork, workOf_updateWork, if_neg hne]

/-- After a status no other revision of its key has an invocation. -/
theorem applySome_not_invoked (hselected : status.selected = some selected) (hne : other ≠ selected)
    (hkey : other.key = selected.key) (observedAt : ℚ) (reading : StatusReading) :
    ¬ (c.applySome kind status observedAt reading).Invoked other := by
  rw [Invoked, applySome_workOf_of_ne hselected hne]
  split_ifs with hinvoked
  · exact Bool.false_ne_true
  · exact fun h => hinvoked ⟨h, hkey⟩

/-- The status that an answer leaves selects what the answer selects. -/
theorem applySome_statuses (c : DemandCoordinator) (kind : DemandKind) (status : DemandStatus)
    (observedAt : ℚ) (reading : StatusReading) :
    ∃ status', (c.applySome kind status observedAt reading).statuses =
      c.statuses.insert kind status' ∧ status'.selected = status.selected := by
  have hgated (observedAt now : ℚ) (gate : Option RpcGate) :
      (gatedStatus status observedAt now gate).selected = status.selected := by
    unfold gatedStatus gateRelease
    split
    · split <;> rfl
    · rfl
  dsimp only [applySome]
  cases hselected : status.selected with
  | none => exact ⟨status, setNotReady_statuses _ kind, hselected⟩
  | some selected =>
    dsimp only
    split_ifs
    · exact ⟨status, setNotReady_statuses _ kind, hselected⟩
    · exact ⟨status, setNotReady_statuses _ kind, hselected⟩
    · refine ⟨gatedStatus status observedAt reading.now reading.gate, ?_,
        (hgated _ _ _).trans hselected⟩
      rw [setNotReady_statuses]
      exact AList.insert_insert _
    · refine ⟨gatedStatus status observedAt reading.now reading.gate, ?_,
        (hgated _ _ _).trans hselected⟩
      rw [setReady_statuses]
      exact AList.insert_insert _

/-- After a status its kind selects what it selects, and the other kinds what they selected. -/
theorem applySome_selectedOf (c : DemandCoordinator) (kind : DemandKind) (status : DemandStatus)
    (observedAt : ℚ) (reading : StatusReading) (other : DemandKind) :
    (c.applySome kind status observedAt reading).selectedOf other =
      if other = kind then status.selected else c.selectedOf other := by
  obtain ⟨status', hstatuses, hselected⟩ := applySome_statuses c kind status observedAt reading
  rw [selectedOf, hstatuses]
  split_ifs with hsame
  · rw [hsame, AList.lookup_insert]
    exact hselected
  · rw [AList.lookup_insert_ne hsame]
    rfl

/-! ## One kind -/

/-- What a status selects is reported first. -/
theorem reported_cons (hanswer : reading.answer = some (some status)) (rest : List StatusReading) :
    reported (reading :: rest) = status.selected.toList ++ reported rest := by
  rw [reported, List.filterMap_cons, hanswer]
  cases hselected : status.selected <;> simp [hselected, reported]

/-- An answer without a status reports nothing. -/
theorem reported_of_none (hanswer : reading.answer.bind id = none) : reported [reading] = [] := by
  rw [reported, List.filterMap_cons_none (by rw [hanswer]; rfl), List.filterMap_nil]

/-- Nothing is the last one of an empty list. -/
theorem not_latest_nil : ¬ Latest selected [] := by
  rintro ⟨before, after, hsplit, -⟩
  cases before <;> cases hsplit

/-- The answers change the revisions that they select; another one is forgotten or stays. -/
theorem scanAvailableKind_workOf
    (hscan : scanAvailableKind safetyScanSeconds kind observedAt c readings = some c')
    (hnot : other ∉ reported readings) :
    c'.workOf other = c.workOf other ∨ c'.workOf other = {} := by
  induction readings generalizing c with
  | nil => cases hscan
  | cons reading rest ih =>
    unfold scanAvailableKind at hscan
    split at hscan
    next =>
      split_ifs at hscan
      cases hscan
      exact Or.inl (congrFun (setNotReady_workOf _ kind) other)
    next =>
      split_ifs at hscan
      cases hscan
      exact Or.inl (congrFun (setNotReady_workOf _ kind) other)
    next status hanswer =>
      rw [reported_cons hanswer, List.mem_append, not_or] at hnot
      have hafter : (c.applySome kind status observedAt reading).workOf other = c.workOf other ∨
          (c.applySome kind status observedAt reading).workOf other = {} := by
        cases hselected : status.selected with
        | none => exact Or.inl (congrFun (applySome_workOf_of_none hselected _ _) other)
        | some selected =>
          have hne : other ≠ selected := fun h => hnot.1 (by rw [hselected, h]; simp)
          rw [applySome_workOf_of_ne hselected hne]
          split_ifs
          · exact Or.inr rfl
          · exact Or.inl rfl
      dsimp only at hscan
      split_ifs at hscan
      · rcases ih hscan hnot.2 with hsame | hempty
        · rw [hsame]
          exact hafter
        · exact Or.inr hempty
      · cases hscan
        exact hafter

/-- A revision that a status has superseded has no invocation as long as it stays as it is or is
forgotten, and if it had one it is forgotten. -/
theorem superseded_stays (hselected : status.selected = some selected) (hne : other ≠ selected)
    (hkey : other.key = selected.key)
    (hstays : c'.workOf other = (c.applySome kind status observedAt reading).workOf other ∨
      c'.workOf other = {}) : ¬ c'.Invoked other ∧ (c.Invoked other → c'.workOf other = {}) := by
  rcases hstays with hsame | hempty
  · refine ⟨?_, fun hinvoked => ?_⟩
    · rw [Invoked, hsame]
      exact applySome_not_invoked hselected hne hkey observedAt reading
    · rw [hsame, applySome_workOf_of_ne hselected hne, if_pos ⟨hinvoked, hkey⟩]
  · refine ⟨?_, fun _ => hempty⟩
    rw [Invoked, hempty]
    exact Bool.false_ne_true

/-- A revision that lost its invocation to a status for another one is forgotten. -/
theorem applySome_forgets (hinvoked : c.Invoked other) (hnot : other ∉ status.selected.toList)
    (hgone : ¬ (c.applySome kind status observedAt reading).Invoked other) :
    (c.applySome kind status observedAt reading).workOf other = {} := by
  cases hselected : status.selected with
  | none =>
    rw [Invoked, applySome_workOf_of_none hselected] at hgone
    exact absurd hinvoked hgone
  | some first =>
    have hne : other ≠ first := fun h => hnot (by rw [hselected, h]; simp)
    rw [Invoked, applySome_workOf_of_ne hselected hne] at hgone
    rw [applySome_workOf_of_ne hselected hne]
    split_ifs at hgone ⊢
    · rfl
    · exact absurd hinvoked hgone

/-- After the answers no other revision of a key than the last one has an invocation, and one that
had it and was not selected itself is forgotten. -/
theorem scanAvailableKind_latest
    (hscan : scanAvailableKind safetyScanSeconds kind observedAt c readings = some c')
    (hlatest : Latest selected (reported readings)) (hne : other ≠ selected)
    (hkey : other.key = selected.key) :
    ¬ c'.Invoked other ∧ (c.Invoked other → other ∉ reported readings → c'.workOf other = {}) := by
  induction readings generalizing c with
  | nil => cases hscan
  | cons reading rest ih =>
    unfold scanAvailableKind at hscan
    split at hscan
    next hanswer =>
      split_ifs at hscan with hend
      rw [hend, reported_of_none (by rw [hanswer]; rfl)] at hlatest
      exact absurd hlatest not_latest_nil
    next hanswer =>
      split_ifs at hscan with hend
      rw [hend, reported_of_none (by rw [hanswer]; rfl)] at hlatest
      exact absurd hlatest not_latest_nil
    next status hanswer =>
      rw [reported_cons hanswer] at hlatest ⊢
      have hcases : Latest selected (reported rest) ∨ (status.selected = some selected ∧
          ∀ later ∈ reported rest, later.key ≠ selected.key) := by
        cases hselected : status.selected with
        | none =>
          rw [hselected] at hlatest
          exact Or.inl hlatest
        | some first =>
          rw [hselected] at hlatest
          exact (latest_cons.mp hlatest).imp_right fun h => ⟨congrArg some h.1, h.2⟩
      dsimp only at hscan
      split_ifs at hscan with hagain hend
      · -- the adapter is asked again
        rcases hcases with hrest | ⟨hselected, hlater⟩
        · obtain ⟨hnone, hforgets⟩ := ih hscan hrest
          refine ⟨hnone, fun hinvoked hnot => ?_⟩
          rw [List.mem_append, not_or] at hnot
          by_cases hstill : (c.applySome kind status observedAt reading).Invoked other
          · exact hforgets hstill hnot.2
          · have hempty := applySome_forgets hinvoked hnot.1 hstill
            rcases scanAvailableKind_workOf hscan hnot.2 with hsame | hgone
            · exact hsame.trans hempty
            · exact hgone
        · obtain ⟨hnone, hempty⟩ := superseded_stays hselected hne hkey
            (scanAvailableKind_workOf hscan fun hmem => hlater other hmem hkey)
          exact ⟨hnone, fun hinvoked _ => hempty hinvoked⟩
      · -- this was the last answer
        cases hscan
        rw [hend] at hcases
        obtain ⟨hselected, -⟩ := hcases.resolve_left not_latest_nil
        have hsame : ((c.applySome kind status observedAt reading).clearFailure kind).workOf other =
            (c.applySome kind status observedAt reading).workOf other := rfl
        obtain ⟨hnone, hempty⟩ := superseded_stays hselected hne hkey (Or.inl hsame)
        exact ⟨hnone, fun hinvoked _ => hempty hinvoked⟩

/-! ## One invocation for each key -/

/-- No other revision of its key has an invocation. -/
def Alone (c : DemandCoordinator) (selected : WorkRevision) : Prop :=
  ∀ other ≠ selected, other.key = selected.key → ¬ c.Invoked other

/-- The invocations belong to different keys, and so does that of each selected revision.  The keys
are among those given, which were reported. -/
structure SingleInvocations (keys : Finset WorkKey) (c : DemandCoordinator) : Prop where
  apart : ∀ first second, c.Invoked first → c.Invoked second → first.key = second.key →
    first = second
  known : ∀ revision, c.Invoked revision → revision.key ∈ keys
  status : ∀ kind selected, c.selectedOf kind = some selected →
    selected.key.demandKind = kind ∧ selected.key ∈ keys ∧ c.Alone selected

variable {keys : Finset WorkKey}

/-- A change that makes no invocation and selects nothing new. -/
theorem SingleInvocations.fewer (h : c.SingleInvocations keys)
    (hfewer : ∀ revision, c'.Invoked revision → c.Invoked revision)
    (hselected : ∀ kind, c'.selectedOf kind = none ∨ c'.selectedOf kind = c.selectedOf kind) :
    c'.SingleInvocations keys where
  apart first second hfirst hsecond := h.apart first second (hfewer _ hfirst) (hfewer _ hsecond)
  known revision hrevision := h.known revision (hfewer _ hrevision)
  status kind selected hselects := by
    rcases hselected kind with hnone | hsame
    · exact absurd (hnone.symm.trans hselects).symm (Option.some_ne_none _)
    · obtain ⟨hkind, hkey, halone⟩ := h.status kind selected (hsame ▸ hselects)
      exact ⟨hkind, hkey, fun other hne hkeys hother => halone other hne hkeys (hfewer _ hother)⟩

/-- A change that makes at most the invocation of a revision that its kind selects and that has no
other invocation beside it. -/
theorem SingleInvocations.select (h : c.SingleInvocations keys)
    (hkind : selected.key.demandKind = kind) (hkey : selected.key ∈ keys)
    (halone : c'.Alone selected) (hselected : c'.selectedOf kind = some selected)
    (hfewer : ∀ revision ≠ selected, c'.Invoked revision → c.Invoked revision)
    (hothers : ∀ other ≠ kind, c'.selectedOf other = c.selectedOf other) :
    c'.SingleInvocations keys := by
  refine ⟨fun first second hfirst hsecond hsame => ?_, fun revision hrevision => ?_,
    fun other current hcurrent => ?_⟩
  · by_cases hone : first = selected
    · by_contra hne
      exact halone second (fun htwo => hne (hone.trans htwo.symm)) (by rw [← hsame, hone]) hsecond
    · by_cases htwo : second = selected
      · exact absurd hfirst (halone first hone (by rw [hsame, htwo]))
      · exact h.apart first second (hfewer _ hone hfirst) (hfewer _ htwo hsecond) hsame
  · by_cases hone : revision = selected
    · rwa [hone]
    · exact h.known revision (hfewer _ hone hrevision)
  · by_cases hne : other = kind
    · rw [hne, hselected] at hcurrent
      obtain rfl := Option.some.inj hcurrent
      exact ⟨hkind.trans hne.symm, hkey, halone⟩
    · obtain ⟨hkind', hknown, hothers'⟩ := h.status other current (hothers other hne ▸ hcurrent)
      refine ⟨hkind', hknown, fun revision hrev hsame hrevision => ?_⟩
      refine hothers' revision hrev hsame (hfewer revision ?_ hrevision)
      rintro rfl
      exact hne (by rw [← hkind', ← hsame, hkind])

/-- A change that makes at most the invocation of the revision that a kind selects. -/
theorem SingleInvocations.start (h : c.SingleInvocations keys)
    (hselected : c.selectedOf kind = some selected)
    (hfewer : ∀ revision ≠ selected, c'.Invoked revision → c.Invoked revision)
    (hstatuses : c'.statuses = c.statuses) : c'.SingleInvocations keys := by
  obtain ⟨hkind, hkey, halone⟩ := h.status kind selected hselected
  exact h.select hkind hkey
    (fun other hne hsame hother => halone other hne hsame (hfewer other hne hother))
    ((selectedOf_congr hstatuses kind).trans hselected) hfewer
    fun other _ => selectedOf_congr hstatuses other

/-- A status keeps the invocations single when its own revision is reported. -/
theorem SingleInvocations.applySome (h : c.SingleInvocations keys)
    (hown : ∀ selected, status.selected = some selected →
      selected.key.demandKind = kind ∧ selected.key ∈ keys) (observedAt : ℚ)
    (reading : StatusReading) :
    (c.applySome kind status observedAt reading).SingleInvocations keys := by
  have hselects := applySome_selectedOf c kind status observedAt reading
  cases hselected : status.selected with
  | none =>
    refine h.fewer (fun revision => ?_) fun other => ?_
    · rw [Invoked, applySome_workOf_of_none hselected]
      exact id
    · rw [hselects, hselected]
      split_ifs
      · exact Or.inl rfl
      · exact Or.inr rfl
  | some selected =>
    obtain ⟨hkind, hkey⟩ := hown selected hselected
    refine h.select hkind hkey
      (fun other hne hsame => applySome_not_invoked hselected hne hsame observedAt reading)
      ((hselects kind).trans ((if_pos rfl).trans hselected))
      (fun revision hne hinvoked => ?_) fun other hne => (hselects other).trans (if_neg hne)
    rw [Invoked, applySome_workOf_of_ne hselected hne] at hinvoked
    split_ifs at hinvoked
    · cases hinvoked
    · exact hinvoked

/-- A kind without a status keeps the invocations single. -/
theorem SingleInvocations.eraseStatus (h : c.SingleInvocations keys) (hwork : c'.workOf = c.workOf)
    (hstatuses : c'.statuses = c.statuses.erase kind) : c'.SingleInvocations keys := by
  refine h.fewer (fun revision => ?_) fun other => ?_
  · rw [Invoked, hwork]
    exact id
  · rw [selectedOf, hstatuses]
    by_cases hne : other = kind
    · rw [hne, AList.lookup_erase]
      exact Or.inl rfl
    · rw [AList.lookup_erase_ne hne]
      exact Or.inr rfl

/-- The answers of an adapter keep the invocations single. -/
theorem SingleInvocations.scanAvailableKind (h : c.SingleInvocations keys)
    (hown : OwnAnswers kind readings) (hknown : ∀ revision ∈ reported readings, revision.key ∈ keys)
    (hscan : scanAvailableKind safetyScanSeconds kind observedAt c readings = some c') :
    c'.SingleInvocations keys := by
  induction readings generalizing c with
  | nil => cases hscan
  | cons reading rest ih =>
    unfold DemandCoordinator.scanAvailableKind at hscan
    split at hscan
    next =>
      split_ifs at hscan
      cases hscan
      exact h.eraseStatus (setNotReady_workOf _ kind) (setNotReady_statuses _ kind)
    next =>
      split_ifs at hscan
      cases hscan
      exact h.eraseStatus (setNotReady_workOf _ kind) (setNotReady_statuses _ kind)
    next status hanswer =>
      have hselected (selected : WorkRevision) (hsome : status.selected = some selected) :
          selected.key.demandKind = kind ∧ selected.key ∈ keys := by
        refine ⟨hown reading List.mem_cons_self status hanswer selected hsome, hknown selected ?_⟩
        rw [reported, List.filterMap_cons, hanswer]
        simp [hsome]
      have hrest : ∀ revision ∈ reported rest, revision.key ∈ keys := fun revision hmem => by
        apply hknown
        rw [reported, List.filterMap_cons]
        split
        · exact hmem
        · exact List.mem_cons_of_mem _ hmem
      have happlied := h.applySome hselected observedAt reading
      dsimp only at hscan
      split_ifs at hscan
      · exact ih happlied (fun r hr => hown r (List.mem_cons_of_mem _ hr)) hrest hscan
      · cases hscan
        exact happlied.fewer (fun _ => id) fun _ => Or.inr rfl

/-- The scan of one kind keeps the invocations single. -/
theorem SingleInvocations.scanKind (h : c.SingleInvocations keys) (hown : OwnAnswers kind readings)
    (hknown : c.Asks observedAt kind → ∀ revision ∈ reported readings, revision.key ∈ keys)
    (hscan : scanKind safetyScanSeconds observedAt c kind readings = some c') :
    c'.SingleInvocations keys := by
  unfold DemandCoordinator.scanKind at hscan
  split_ifs at hscan with hretained hsuspended
  · cases hscan
    unfold removeQueued
    split_ifs
    · exact h.fewer (fun _ => id) fun _ => Or.inr rfl
    · exact h
  · cases hscan
    exact h
  · refine h.scanAvailableKind hown (hknown ⟨?_, ?_⟩) hscan
    · exact Bool.eq_false_iff.mpr hretained
    · exact Bool.eq_false_iff.mpr hsuspended

/-! ## All kinds -/

theorem Leaves.asks {other : DemandKind} (h : Leaves kind c c') (hne : other ≠ kind)
    (observedAt : ℚ) : c'.Asks observedAt other ↔ c.Asks observedAt other := by
  rw [Asks, Asks, h.retainedKind, h.failed other hne]

section
variable {safetyScanSeconds : ℚ} {readings : ScanReadings} {kinds : List DemandKind}

/-- The loop over the kinds leaves the work of the other ones. -/
theorem scanKinds_workOf (hkinds : ∀ kind ∈ kinds, kind ∈ durableDemandOrder)
    (hown : OwnKinds readings) (h : c.QueueInvariant)
    (hscan : scanKinds safetyScanSeconds readings c kinds = some c') {revision : WorkRevision}
    (hnot : revision.key.demandKind ∉ kinds) : c'.workOf revision = c.workOf revision := by
  induction kinds generalizing c with
  | nil =>
    cases hscan
    rfl
  | cons first kinds ih =>
    obtain ⟨c₁, hfirst, hrest⟩ := Option.bind_eq_some_iff.mp hscan
    obtain ⟨hscanned, hinv⟩ :=
      scanKind_invariant (hkinds first List.mem_cons_self) (hown first) h hfirst
    rw [List.mem_cons, not_or] at hnot
    rw [ih (fun other hmem => hkinds other (List.mem_cons_of_mem _ hmem)) hinv hrest hnot.2]
    exact hscanned.leaves.work revision hnot.1

/-- The loop over the kinds leaves the status of a retained kind. -/
theorem scanKinds_retained_status (hkinds : ∀ kind ∈ kinds, kind ∈ durableDemandOrder)
    (hown : OwnKinds readings) (h : c.QueueInvariant)
    (hscan : scanKinds safetyScanSeconds readings c kinds = some c')
    (hretained : c.retainedKind kind = true) :
    c'.statuses.lookup kind = c.statuses.lookup kind := by
  induction kinds generalizing c with
  | nil =>
    cases hscan
    rfl
  | cons first kinds ih =>
    obtain ⟨c₁, hfirst, hrest⟩ := Option.bind_eq_some_iff.mp hscan
    obtain ⟨hscanned, hinv⟩ :=
      scanKind_invariant (hkinds first List.mem_cons_self) (hown first) h hfirst
    have hretained₁ : c₁.retainedKind kind = true := by rwa [hscanned.leaves.retainedKind]
    rw [ih (fun other hmem => hkinds other (List.mem_cons_of_mem _ hmem)) hinv hrest hretained₁]
    by_cases hne : kind = first
    · subst hne
      rw [scanKind, if_pos hretained] at hfirst
      cases hfirst
      unfold removeQueued
      split_ifs <;> rfl
    · exact hscanned.leaves.status kind hne

/-- The loop over the kinds keeps the invocations single. -/
theorem SingleInvocations.scanKinds (hkinds : ∀ kind ∈ kinds, kind ∈ durableDemandOrder)
    (hnodup : kinds.Nodup) (hown : OwnKinds readings) (hqueue : c.QueueInvariant)
    (h : c.SingleInvocations keys) (hknown : ∀ kind ∈ kinds, c.Asks readings.observedAt kind →
      ∀ revision ∈ reported (readings.answers kind), revision.key ∈ keys)
    (hscan : scanKinds safetyScanSeconds readings c kinds = some c') :
    c'.SingleInvocations keys := by
  induction kinds generalizing c with
  | nil =>
    cases hscan
    exact h
  | cons first kinds ih =>
    obtain ⟨c₁, hfirst, hrest⟩ := Option.bind_eq_some_iff.mp hscan
    obtain ⟨hscanned, hinv⟩ :=
      scanKind_invariant (hkinds first List.mem_cons_self) (hown first) hqueue hfirst
    rw [List.nodup_cons] at hnodup
    have hsingle := h.scanKind (hown first) (hknown first List.mem_cons_self) hfirst
    refine ih (fun other hmem => hkinds other (List.mem_cons_of_mem _ hmem)) hnodup.2 hinv hsingle
      (fun other hmem hasks => hknown other (List.mem_cons_of_mem _ hmem) ?_) hrest
    have hne : other ≠ first := fun heq => hnodup.1 (heq ▸ hmem)
    exact (hscanned.leaves.asks hne _).mp hasks

/-- After the loop over the kinds the last revision of a key is the only one with an invocation. -/
theorem scanKinds_latest (hkinds : ∀ kind ∈ kinds, kind ∈ durableDemandOrder)
    (hnodup : kinds.Nodup) (hown : OwnKinds readings) (hqueue : c.QueueInvariant)
    (hscan : scanKinds safetyScanSeconds readings c kinds = some c') (hkind : kind ∈ kinds)
    (hasks : c.Asks readings.observedAt kind)
    (hlatest : Latest selected (reported (readings.answers kind))) (hne : other ≠ selected)
    (hkey : other.key = selected.key) :
    ¬ c'.Invoked other ∧
      (c.Invoked other → other ∉ reported (readings.answers kind) → c'.workOf other = {}) := by
  have howned : other.key.demandKind = kind := by
    obtain ⟨before, after, hsplit, -⟩ := hlatest
    have hmem : selected ∈ reported (readings.answers kind) := by
      rw [hsplit]
      exact List.mem_append_right _ List.mem_cons_self
    rw [hkey]
    exact ownAnswers_reported (hown kind) hmem
  induction kinds generalizing c with
  | nil => cases hkind
  | cons first kinds ih =>
    obtain ⟨c₁, hfirst, hrest⟩ := Option.bind_eq_some_iff.mp hscan
    obtain ⟨hscanned, hinv⟩ :=
      scanKind_invariant (hkinds first List.mem_cons_self) (hown first) hqueue hfirst
    have hkinds' : ∀ kind ∈ kinds, kind ∈ durableDemandOrder :=
      fun other hmem => hkinds other (List.mem_cons_of_mem _ hmem)
    rw [List.nodup_cons] at hnodup
    by_cases hhead : kind = first
    · subst hhead
      have hsame := scanKinds_workOf hkinds' hown hinv hrest (howned ▸ hnodup.1)
      rw [Invoked, hsame]
      rw [scanKind, if_neg (Bool.eq_false_iff.mp hasks.1),
        if_neg (Bool.eq_false_iff.mp hasks.2)] at hfirst
      exact scanAvailableKind_latest hfirst hlatest hne hkey
    · have hmem : kind ∈ kinds := (List.mem_cons.mp hkind).resolve_left hhead
      obtain ⟨hnone, hforgets⟩ := ih hkinds' hnodup.2 hinv hrest hmem
        ((hscanned.leaves.asks hhead _).mpr hasks)
      refine ⟨hnone, fun hinvoked => hforgets ?_⟩
      rwa [Invoked, hscanned.leaves.work other (howned ▸ hhead)]

end

/-! ## A whole scan -/

/-- The release loops of a scan keep the invocations. -/
theorem releaseExpired_invoked (c : DemandCoordinator) (readings : ScanReadings)
    (revision : WorkRevision) :
    (c.releaseExpired readings).Invoked revision ↔ c.Invoked revision := by
  have hprepare (now : ℚ) (work : WorkState) :
      (work.prepareExpiredGateWait now).invocation = work.invocation := by
    unfold WorkState.prepareExpiredGateWait
    split
    · split_ifs <;> rfl
    · rfl
  have hexpire (now : ℚ) (work : WorkState) :
      (work.expireTransientWait now).invocation = work.invocation := by
    unfold WorkState.expireTransientWait
    split
    · split_ifs <;> rfl
    · rfl
  rw [Invoked, releaseExpired, workOf_mapWork _ fun _ => rfl, workOf_mapWork _ fun _ => rfl,
    hexpire, hprepare]
  rfl

section
variable {safetyScanSeconds : ℚ} {readings : ScanReadings} {clearOffers : Bool}

/-- The loop of a scan over the kinds, and where it starts. -/
theorem scanKinds_of_scan (h : c.QueueInvariant)
    (hscan : scan safetyScanSeconds c readings clearOffers = some c') :
    ∃ start end' : DemandCoordinator,
      scanKinds safetyScanSeconds readings start durableDemandOrder = some end' ∧
      c' = end'.recomputeNextRelease readings.observedAt ∧ start.QueueInvariant ∧
      start.statuses = c.statuses ∧ (∀ kind, start.retainedKind kind = c.retainedKind kind) ∧
      (∀ kind, start.Asks readings.observedAt kind ↔ c.Asks readings.observedAt kind) ∧
      ∀ revision, start.Invoked revision ↔ c.Invoked revision := by
  unfold scan at hscan
  obtain ⟨end', hkinds, rfl⟩ := Option.map_eq_some_iff.mp hscan
  refine ⟨_, end', hkinds, rfl, ?_⟩
  have hinvoked := releaseExpired_invoked c readings
  cases clearOffers
  all_goals exact ⟨h.congr rfl rfl rfl rfl, rfl, fun _ => rfl, fun _ => Iff.rfl, hinvoked⟩

/-- A scan keeps the invocations single. -/
theorem SingleInvocations.scan (h : c.SingleInvocations keys) (hown : OwnKinds readings)
    (hqueue : c.QueueInvariant)
    (hknown : ∀ kind ∈ durableDemandOrder, c.Asks readings.observedAt kind →
      ∀ revision ∈ reported (readings.answers kind), revision.key ∈ keys)
    (hscan : DemandCoordinator.scan safetyScanSeconds c readings clearOffers = some c') :
    c'.SingleInvocations keys := by
  obtain ⟨start, end', hkinds, rfl, hinv, hstatuses, -, hasks, hinvoked⟩ :=
    scanKinds_of_scan hqueue hscan
  have hstart : start.SingleInvocations keys :=
    h.fewer (fun revision => (hinvoked revision).mp) fun kind =>
      Or.inr (selectedOf_congr hstatuses kind)
  have hend := hstart.scanKinds (fun _ hkind => hkind) durableDemandOrder_nodup hown hinv
    (fun kind hkind hstartAsks => hknown kind hkind ((hasks kind).mp hstartAsks)) hkinds
  exact hend.fewer (fun _ => id) fun _ => Or.inr rfl

/-- A scan leaves the status of a retained kind. -/
theorem scan_retained_status (hown : OwnKinds readings) (hqueue : c.QueueInvariant)
    (hscan : scan safetyScanSeconds c readings clearOffers = some c')
    (hretained : c.retainedKind kind = true) :
    c'.statuses.lookup kind = c.statuses.lookup kind := by
  obtain ⟨start, end', hkinds, rfl, hinv, hstatuses, hsame, -, -⟩ := scanKinds_of_scan hqueue hscan
  have hkept := scanKinds_retained_status (fun _ hkind => hkind) hown hinv hkinds
    ((hsame kind).trans hretained)
  rw [← hstatuses]
  exact hkept

/-- After a scan the revision of a key that was selected last is the only one with an invocation,
and one that had it and was not selected is forgotten. -/
theorem scan_latest (hown : OwnKinds readings) (hqueue : c.QueueInvariant)
    (hscan : scan safetyScanSeconds c readings clearOffers = some c')
    (hkind : kind ∈ durableDemandOrder) (hasks : c.Asks readings.observedAt kind)
    (hlatest : Latest selected (reported (readings.answers kind))) (hne : other ≠ selected)
    (hkey : other.key = selected.key) :
    ¬ c'.Invoked other ∧
      (c.Invoked other → other ∉ reported (readings.answers kind) → c'.workOf other = {}) := by
  obtain ⟨start, end', hkinds, rfl, hinv, -, -, hstartAsks, hinvoked⟩ :=
    scanKinds_of_scan hqueue hscan
  obtain ⟨hnone, hforgets⟩ := scanKinds_latest (fun _ hkind => hkind) durableDemandOrder_nodup hown
    hinv hkinds hkind ((hstartAsks kind).mpr hasks) hlatest hne hkey
  exact ⟨hnone, fun hother => hforgets ((hinvoked other).mpr hother)⟩

end

end DemandCoordinator

end McpTelegram
