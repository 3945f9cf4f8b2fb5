import McpTelegram.Directory.Pages
import McpTelegram.Navigation.RoundTrip

/-!
# Traversing the dialog directory

The two branches of the candidate statement share no dialog, so the candidates of a page are the
visible dialogs of its bounds in increasing order.  A page takes a front part of them and its cursor
is the last one that it took, so it meets the specification of a page of a live scan.
-/

namespace McpTelegram

open Foundations

namespace DirectoryStore

variable {store : DirectoryStore} {request : DirectoryRequest}
variable {id upper bound last : ℤ} {row : DirectoryRow} {cursor : Option ℤ}
    {stores : ℕ → DirectoryStore}

/-! ## Candidates by identifier -/

/-- The candidate row of a dialog. -/
def directoryRow (store : DirectoryStore) (request : DirectoryRequest) (id : ℤ) :
    Option DirectoryRow :=
  match store.dialogs.lookup id with
  | some row =>
    if (row.hidden = 0 ∨ store.accessLost id) ∧
        columnPasses request.excludeArchived row.archived ∧
        columnPasses request.ignorePinned row.pinned then
      some
        { dialogId := id, archived := row.archived, pinned := row.pinned
          lastMessageAt := row.lastMessageAt }
    else none
  | none =>
    if store.accessLost id then
      some { dialogId := id, archived := 0, pinned := 0, lastMessageAt := none }
    else none

/-- A candidate row carries its identifier. -/
theorem directoryRow_dialogId (h : store.directoryRow request id = some row) :
    row.dialogId = id := by
  unfold directoryRow at h
  split at h <;> split_ifs at h <;> cases h <;> rfl

/-- The rows of the two branches are the candidate rows of the identifiers that pass. -/
theorem mem_directoryRows {within : ℤ → Bool} :
    row ∈ store.directoryRows request within ↔
      within row.dialogId = true ∧ store.directoryRow request row.dialogId = some row := by
  unfold directoryRows
  rw [List.mem_append, List.mem_filterMap, List.mem_filterMap]
  constructor
  · rintro (⟨⟨id, stored⟩, hmem, hrow⟩ | ⟨⟨id, status⟩, hmem, hrow⟩)
    · have hlookup := Dictionary.mem_entries_iff.mp hmem
      dsimp only at hrow
      split_ifs at hrow with hcondition
      obtain rfl := Option.some.inj hrow
      obtain ⟨hvisible, hwithin, harchived, hpinned⟩ := hcondition
      refine ⟨hwithin, ?_⟩
      rw [directoryRow, hlookup]
      exact if_pos ⟨hvisible, harchived, hpinned⟩
    · have hlookup := Dictionary.mem_entries_iff.mp hmem
      dsimp only at hrow
      split_ifs at hrow with hcondition
      obtain rfl := Option.some.inj hrow
      obtain ⟨rfl, hnone, hwithin⟩ := hcondition
      refine ⟨hwithin, ?_⟩
      rw [directoryRow, hnone]
      exact if_pos (decide_eq_true hlookup)
  · rintro ⟨hwithin, hrow⟩
    unfold directoryRow at hrow
    split at hrow
    next stored hlookup =>
      split_ifs at hrow with hcondition
      refine Or.inl ⟨⟨row.dialogId, stored⟩, Dictionary.mem_entries_iff.mpr hlookup, ?_⟩
      dsimp only
      rw [if_pos ⟨hcondition.1, hwithin, hcondition.2⟩]
      exact hrow
    next hlookup =>
      split_ifs at hrow with hlost
      refine Or.inr ⟨⟨row.dialogId, "access_lost"⟩,
        Dictionary.mem_entries_iff.mpr (of_decide_eq_true hlost), ?_⟩
      dsimp only
      rw [if_pos ⟨rfl, hlookup, hwithin⟩]
      exact hrow

/-- The identifiers of a filtered table have no doubles. -/
theorem nodup_filterMap_entries {α : Type} (d : Dictionary ℤ α)
    {f : (Σ _ : ℤ, α) → Option DirectoryRow}
    (hf : ∀ entry row, f entry = some row → row.dialogId = entry.1) :
    ((d.entries.filterMap f).map DirectoryRow.dialogId).Nodup := by
  have hkeys : (d.entries.map Sigma.fst).Nodup := d.nodupKeys
  generalize d.entries = entries at hkeys ⊢
  induction entries with
  | nil => exact List.nodup_nil
  | cons entry entries ih =>
    rw [List.map_cons, List.nodup_cons] at hkeys
    rw [List.filterMap_cons]
    split
    next => exact ih hkeys.2
    next row hrow =>
      rw [List.map_cons, List.nodup_cons]
      refine ⟨?_, ih hkeys.2⟩
      rw [hf entry row hrow]
      intro hmem
      obtain ⟨row', hrow', heq⟩ := List.mem_map.mp hmem
      obtain ⟨entry', hentry', hsome⟩ := List.mem_filterMap.mp hrow'
      rw [hf entry' row' hsome] at heq
      exact hkeys.1 (heq ▸ List.mem_map_of_mem hentry')

/-- The branches share no dialog. -/
theorem directoryRows_nodup (within : ℤ → Bool) :
    ((store.directoryRows request within).map DirectoryRow.dialogId).Nodup := by
  unfold directoryRows
  rw [List.map_append, List.nodup_append']
  refine ⟨?_, ?_, ?_⟩
  · apply nodup_filterMap_entries
    intro entry row hrow
    split_ifs at hrow
    obtain rfl := Option.some.inj hrow
    rfl
  · apply nodup_filterMap_entries
    intro entry row hrow
    split_ifs at hrow
    obtain rfl := Option.some.inj hrow
    rfl
  · intro id hfirst hsecond
    obtain ⟨row, hrow, rfl⟩ := List.mem_map.mp hfirst
    obtain ⟨row', hrow', heq⟩ := List.mem_map.mp hsecond
    obtain ⟨⟨id, stored⟩, hmem, hsome⟩ := List.mem_filterMap.mp hrow
    obtain ⟨⟨id', status⟩, -, hsome'⟩ := List.mem_filterMap.mp hrow'
    dsimp only at hsome hsome'
    split_ifs at hsome hsome' with hcondition hcondition'
    obtain rfl := Option.some.inj hsome
    obtain rfl := Option.some.inj hsome'
    have hlookup := Dictionary.mem_entries_iff.mp hmem
    obtain rfl : id' = id := heq
    rw [hcondition'.2.1] at hlookup
    cases hlookup

/-- The sorted candidates of a page, before the limit of the statement. -/
def sortedRows (store : DirectoryStore) (request : DirectoryRequest) (after : Option ℤ)
    (upper : ℤ) : List DirectoryRow :=
  (store.directoryRows request fun id => after.all (· < id) && id ≤ upper).mergeSort
    fun row row' => row.dialogId ≤ row'.dialogId

/-- The identifiers of the sorted candidates increase. -/
theorem sortedRows_increasing (store : DirectoryStore) (request : DirectoryRequest)
    (after : Option ℤ) (upper : ℤ) :
    (store.sortedRows request after upper).Pairwise
      fun row row' => row.dialogId < row'.dialogId := by
  have hsorted : (store.sortedRows request after upper).Pairwise
      fun row row' => decide (row.dialogId ≤ row'.dialogId) = true := by
    apply List.pairwise_mergeSort
    · intro a b c hab hbc
      exact decide_eq_true ((of_decide_eq_true hab).trans (of_decide_eq_true hbc))
    · intro a b
      rw [Bool.or_eq_true, decide_eq_true_eq, decide_eq_true_eq]
      exact le_total _ _
  have hperm := List.mergeSort_perm
    (store.directoryRows request fun id => after.all (· < id) && id ≤ upper)
    fun row row' => row.dialogId ≤ row'.dialogId
  have hnodup : ((store.sortedRows request after upper).map DirectoryRow.dialogId).Nodup :=
    (hperm.map DirectoryRow.dialogId).nodup_iff.mpr (directoryRows_nodup _)
  have hne : (store.sortedRows request after upper).Pairwise
      fun row row' => row.dialogId ≠ row'.dialogId := List.pairwise_map.mp hnodup
  exact hsorted.imp₂ (fun row row' hle hdistinct =>
    lt_of_le_of_ne (of_decide_eq_true hle) hdistinct) hne

/-- The sorted candidates are the candidate rows behind the cursor up to the bound. -/
theorem mem_sortedRows {after : Option ℤ} :
    row ∈ store.sortedRows request after upper ↔
      ¬ UpTo after row.dialogId ∧ row.dialogId ≤ upper ∧
        store.directoryRow request row.dialogId = some row := by
  rw [sortedRows, List.mem_mergeSort, mem_directoryRows, Bool.and_eq_true, decide_eq_true_eq,
    and_assoc]
  refine and_congr_left fun _ => ?_
  cases after with
  | none => simp [UpTo]
  | some last => simp [UpTo]

/-! ## Taking candidates -/

/-- The selected dialogs are those of a front part of the candidates, and the examined one is the
last of that part. -/
theorem takeCandidates_split (keeps : DirectoryRow → Bool) (room : ℕ) (rows : List DirectoryRow) :
    ∃ front rest, rows = front ++ rest ∧ (rows ≠ [] → front ≠ []) ∧
      (takeCandidates keeps room rows).1 = (front.filter keeps).map DirectoryRow.dialogId ∧
      (takeCandidates keeps room rows).2 = front.getLast?.map DirectoryRow.dialogId := by
  induction rows generalizing room with
  | nil => exact ⟨[], [], rfl, fun h => h, rfl, rfl⟩
  | cons row rows ih =>
    have hgetLast : ∀ front : List DirectoryRow,
        some ((front.getLast?.map DirectoryRow.dialogId).getD row.dialogId) =
          (row :: front).getLast?.map DirectoryRow.dialogId := by
      intro front
      cases hlast : front.getLast? with
      | none =>
        rw [List.getLast?_eq_none_iff] at hlast
        rw [hlast]
        rfl
      | some last =>
        rw [List.getLast?_cons, hlast]
        rfl
    rw [takeCandidates]
    split_ifs with hkeeps hroom
    · refine ⟨[row], rows, rfl, fun _ => List.cons_ne_nil _ _, ?_, rfl⟩
      rw [List.filter_cons_of_pos hkeeps]
      rfl
    · obtain ⟨front, rest, hsplit, -, hselected, hexamined⟩ := ih (room - 1)
      refine ⟨row :: front, rest, by rw [hsplit, List.cons_append],
        fun _ => List.cons_ne_nil _ _, ?_, ?_⟩
      · rw [List.filter_cons_of_pos hkeeps, List.map_cons, ← hselected]
      · rw [← hgetLast, ← hexamined]
    · obtain ⟨front, rest, hsplit, -, hselected, hexamined⟩ := ih room
      refine ⟨row :: front, rest, by rw [hsplit, List.cons_append],
        fun _ => List.cons_ne_nil _ _, ?_, ?_⟩
      · rw [List.filter_cons_of_neg hkeeps, ← hselected]
      · rw [← hgetLast, ← hexamined]

/-! ## One page as a page of a live scan -/

/-- The page behind a cursor, without its navigation. -/
def livePage (store : DirectoryStore) (request : DirectoryRequest) (bound : ℤ)
    (cursor : Option ℤ) : LivePage :=
  let rows := store.pageRows request cursor bound
  let taken := takeCandidates (store.keeps request) (request.limit.getD 100) (rows.take 500)
  { returned := taken.1, examined := taken.2, more := hasMore rows (rows.take 500) taken.2 }

/-- The dialog is a candidate. -/
def IsCandidate (store : DirectoryStore) (request : DirectoryRequest) (id : ℤ) : Prop :=
  (store.directoryRow request id).isSome

/-- The dialog is a candidate that passes the predicates outside SQL. -/
def Matches (store : DirectoryStore) (request : DirectoryRequest) (id : ℤ) : Prop :=
  ∃ row, store.directoryRow request id = some row ∧ store.keeps request row = true

/-- The rows that a page takes are a front part of the sorted candidates. -/
theorem livePage_split (store : DirectoryStore) (request : DirectoryRequest) (bound : ℤ)
    (cursor : Option ℤ) :
    ∃ front rest, store.sortedRows request cursor bound = front ++ rest ∧
      (store.livePage request bound cursor).returned =
        (front.filter (store.keeps request)).map DirectoryRow.dialogId ∧
      (store.livePage request bound cursor).examined =
        front.getLast?.map DirectoryRow.dialogId ∧
      ((store.livePage request bound cursor).more = true ↔ rest ≠ []) ∧
      (rest ≠ [] → front ≠ []) := by
  set sorted := store.sortedRows request cursor bound with hsorted
  have hrows : store.pageRows request cursor bound = sorted.take 501 := rfl
  have hcandidates : (sorted.take 501).take 500 = sorted.take 500 := by
    rw [List.take_take]
    rfl
  obtain ⟨front, tail, hsplit, hnonempty, hselected, hexamined⟩ :=
    takeCandidates_split (store.keeps request) (request.limit.getD 100) (sorted.take 500)
  have hwhole : sorted = front ++ (tail ++ sorted.drop 500) := by
    rw [← List.append_assoc, ← hsplit, List.take_append_drop]
  refine ⟨front, tail ++ sorted.drop 500, hwhole, ?_, ?_, ?_, ?_⟩
  · rw [livePage, hrows, hcandidates]
    exact hselected
  · rw [livePage, hrows, hcandidates]
    exact hexamined
  · have hlonger : (sorted.take 500).length < (sorted.take 501).length ↔
        sorted.drop 500 ≠ [] := by
      rw [List.length_take, List.length_take, Ne, List.drop_eq_nil_iff]
      omega
    have hlast : (front.getLast?.map DirectoryRow.dialogId ≠
        (sorted.take 500).getLast?.map DirectoryRow.dialogId) ↔ tail ≠ [] ∧ front ≠ [] ∨
          tail ≠ [] := by
      rw [hsplit]
      constructor
      · intro hne
        right
        rintro rfl
        exact hne (by rw [List.append_nil])
      · intro htail
        have htail : tail ≠ [] := htail.elim And.left id
        rw [List.getLast?_append_of_ne_nil _ htail]
        intro heq
        obtain ⟨last, hlast⟩ := Option.isSome_iff_exists.mp (List.getLast?_isSome.mpr htail)
        rw [hlast] at heq
        obtain ⟨row, hrow, hsame⟩ := Option.map_eq_some_iff.mp heq
        have hincreasing := sortedRows_increasing store request cursor bound
        rw [← hsorted, hwhole, List.pairwise_append] at hincreasing
        have hlt := hincreasing.2.2 row (List.mem_of_getLast? hrow) last
          (List.mem_append_left _ (List.mem_of_getLast? hlast))
        exact hlt.ne hsame
    have hmore : (store.livePage request bound cursor).more =
        hasMore (sorted.take 501) (sorted.take 500)
          (front.getLast?.map DirectoryRow.dialogId) := by
      rw [livePage, hrows, hcandidates, hexamined]
    rw [hmore, hasMore, Bool.and_eq_true, Bool.or_eq_true, decide_eq_true_eq, decide_eq_true_eq,
      hlonger, hlast]
    constructor
    · rintro ⟨-, hdrop | htail⟩ hnil
      · exact hdrop (List.append_eq_nil_iff.mp hnil).2
      · exact htail.elim (fun h => h.1 (List.append_eq_nil_iff.mp hnil).1)
          fun h => h (List.append_eq_nil_iff.mp hnil).1
    · intro hrest
      have hfront : front ≠ [] := by
        apply hnonempty
        intro hnil
        rw [hsplit, List.append_eq_nil_iff] at hnil
        refine hrest (List.append_eq_nil_iff.mpr ⟨hnil.2, ?_⟩)
        have hshort : sorted.take 500 = [] := by rw [hsplit, hnil.1, hnil.2, List.append_nil]
        rw [List.take_eq_nil_iff] at hshort
        rw [hshort.resolve_left (by omega), List.drop_nil]
      refine ⟨?_, ?_⟩
      · rw [Option.isSome_map]
        exact List.getLast?_isSome.mpr hfront
      · by_contra hnone
        rw [not_or, not_or, not_not, not_not] at hnone
        exact hrest (by rw [hnone.2.2, hnone.1, List.append_nil])
  · intro hrest hfront
    have hshort : sorted.take 500 = [] := by
      by_contra hne
      exact hnonempty hne hfront
    rw [List.take_eq_nil_iff] at hshort
    have hnil : sorted = [] := hshort.resolve_left (by omega)
    rw [hnil] at hsplit
    have htail : tail = [] := (List.append_eq_nil_iff.mp hsplit.symm).2
    exact hrest (by rw [htail, hnil, List.drop_nil, List.nil_append])

/-- A page of the directory is a page of a live scan. -/
theorem livePage_spec (store : DirectoryStore) (request : DirectoryRequest) (bound : ℤ)
    (cursor : Option ℤ) :
    PageSpec (store.IsCandidate request) (store.Matches request) bound cursor
      (store.livePage request bound cursor) := by
  obtain ⟨front, rest, hsplit, hreturned, hexamined, hmore, hnonempty⟩ :=
    livePage_split store request bound cursor
  have hincreasing := sortedRows_increasing store request cursor bound
  rw [hsplit, List.pairwise_append] at hincreasing
  obtain ⟨hfront, -, hacross⟩ := hincreasing
  have hrow : ∀ row ∈ front ++ rest, ¬ UpTo cursor row.dialogId ∧ row.dialogId ≤ bound ∧
      store.directoryRow request row.dialogId = some row := by
    intro row hmem
    exact mem_sortedRows.mp (hsplit ▸ hmem)
  -- a row of the front is at most its last row
  have hupTo : ∀ row ∈ front, UpTo (front.getLast?.map DirectoryRow.dialogId) row.dialogId := by
    intro row hmem
    rcases List.eq_nil_or_concat' front with rfl | ⟨init, last, rfl⟩
    · exact absurd hmem List.not_mem_nil
    · refine ⟨last.dialogId, by rw [List.getLast?_concat]; rfl, ?_⟩
      rcases List.mem_append.mp hmem with hmem | hmem
      · exact ((List.pairwise_append.mp hfront).2.2 row hmem last
          List.mem_cons_self).le
      · rw [List.mem_singleton.mp hmem]
  have hcandidate : ∀ id, store.IsCandidate request id → ¬ UpTo cursor id → id ≤ bound →
      ∃ row ∈ front ++ rest, row.dialogId = id ∧ store.directoryRow request id = some row := by
    intro id hpresent hnot hle
    obtain ⟨row, hlookup⟩ := Option.isSome_iff_exists.mp hpresent
    have hsame := directoryRow_dialogId hlookup
    refine ⟨row, ?_, hsame, hlookup⟩
    rw [← hsplit, mem_sortedRows, hsame]
    exact ⟨hnot, hle, hlookup⟩
  refine ⟨?_, ?_, ?_, ?_, ?_, ?_⟩
  · rw [hreturned]
    exact List.pairwise_map.mpr (hfront.filter _)
  · intro key hkey
    rw [hreturned] at hkey
    obtain ⟨row, hmem, rfl⟩ := List.mem_map.mp hkey
    obtain ⟨hmem, hkeeps⟩ := List.mem_filter.mp hmem
    obtain ⟨hnot, -, hlookup⟩ := hrow row (List.mem_append_left _ hmem)
    refine ⟨?_, ⟨row, hlookup, hkeeps⟩, hnot, ?_⟩
    · rw [IsCandidate, hlookup]
      rfl
    · rw [hexamined]
      exact hupTo row hmem
  · rintro key hpresent ⟨row, hlookup, hkeeps⟩ hnot hle
    rw [hexamined] at hle
    obtain ⟨last, hlast, hkey⟩ := hle
    obtain ⟨lastRow, hlastRow, rfl⟩ := Option.map_eq_some_iff.mp hlast
    have hlastMem := List.mem_of_getLast? hlastRow
    have hbound := hkey.trans (hrow lastRow (List.mem_append_left _ hlastMem)).2.1
    obtain ⟨row', hmem, hsame, hlookup'⟩ := hcandidate key hpresent hnot hbound
    obtain rfl : row = row' := Option.some.inj (hlookup.symm.trans hlookup')
    rw [hreturned]
    refine List.mem_map.mpr ⟨row, List.mem_filter.mpr ⟨?_, hkeeps⟩, hsame⟩
    rcases List.mem_append.mp hmem with hmem | hmem
    · exact hmem
    · have hlt := hacross lastRow hlastMem row hmem
      rw [hsame] at hlt
      exact absurd hkey (not_le.mpr hlt)
  · intro last hlast
    rw [hexamined] at hlast
    obtain ⟨lastRow, hlastRow, rfl⟩ := Option.map_eq_some_iff.mp hlast
    obtain ⟨hnot, hle, -⟩ :=
      hrow lastRow (List.mem_append_left _ (List.mem_of_getLast? hlastRow))
    exact ⟨hnot, hle⟩
  · intro htrue
    rw [hexamined, Option.isSome_map]
    exact List.getLast?_isSome.mpr (hnonempty (hmore.mp htrue))
  · intro hfalse key hpresent hle hnot
    have hrest : rest = [] := by
      by_contra hne
      rw [hmore.mpr hne] at hfalse
      cases hfalse
    obtain ⟨row, hmem, hsame, -⟩ := hcandidate key hpresent hnot hle
    rw [hrest, List.append_nil] at hmem
    rw [hexamined, ← hsame]
    exact hupTo row hmem

/-- The page requests of a traversal: the first one from `start`, each next one with the
`next_navigation` of the page before, every one on the tables of its own moment. -/
def directoryPages (request : DirectoryRequest) (stores : ℕ → DirectoryStore) :
    ℕ → Option (Navigation DirectoryPage)
  | 0 => some ((stores 0).buildDialogsPage request none)
  | n + 1 =>
    match directoryPages request stores n with
    | some (.ok page) =>
      page.nextNavigation.map fun token => (stores (n + 1)).buildDialogsPage request (some token)
    | _ => none

/-- The dialogs that the first `n` pages of a traversal returned. -/
def returnedDialogs (request : DirectoryRequest) (stores : ℕ → DirectoryStore) : ℕ → List ℤ
  | 0 => []
  | n + 1 =>
    returnedDialogs request stores n ++
      match directoryPages request stores n with
      | some (.ok page) => page.dialogs
      | _ => []

/-! ## A traversal as a live scan -/

/-- The bound of a traversal; without a candidate the first page is the last one. -/
def traversalBound (request : DirectoryRequest) (stores : ℕ → DirectoryStore) : ℤ :=
  ((stores 0).upperBound request).getD 0

/-- The pages of the traversal as pages of a live scan. -/
def traversalPage (request : DirectoryRequest) (stores : ℕ → DirectoryStore) (n : ℕ)
    (cursor : Option ℤ) : LivePage :=
  (stores n).livePage request (traversalBound request stores) cursor

/-- A candidate is an SQLite integer. -/
theorem candidate_int64 (h : store.IsCandidate request id) : -2 ^ 63 ≤ id ∧ id < 2 ^ 63 := by
  apply store.int64
  by_contra hnone
  rw [not_or, not_not, not_not] at hnone
  have hlost : store.accessLost id = false := by
    rw [accessLost, hnone.2]
    rfl
  rw [IsCandidate, directoryRow, hnone.1, hlost] at h
  cases h

/-- The bound of the first page is a candidate of it. -/
theorem upperBound_candidate (h : store.upperBound request = some upper) :
    store.IsCandidate request upper := by
  obtain ⟨row, hrow, rfl⟩ := List.mem_map.mp (List.max?_eq_some_iff.mp h).1
  rw [IsCandidate, (mem_directoryRows.mp hrow).2]
  rfl

/-- The last examined dialog of a page is a candidate of it. -/
theorem examined_candidate (h : (store.livePage request bound cursor).examined = some last) :
    store.IsCandidate request last := by
  obtain ⟨front, rest, hsplit, -, hexamined, -, -⟩ := livePage_split store request bound cursor
  rw [hexamined] at h
  obtain ⟨row, hrow, rfl⟩ := Option.map_eq_some_iff.mp h
  have hmem : row ∈ store.sortedRows request cursor bound :=
    hsplit ▸ List.mem_append_left _ (List.mem_of_getLast? hrow)
  rw [IsCandidate, (mem_sortedRows.mp hmem).2.2]
  rfl

/-- The token of a page is accepted. -/
theorem validate_ok (hbound : -2 ^ 63 ≤ bound ∧ bound < 2 ^ 63)
    (hlast : -2 ^ 63 ≤ last ∧ last < 2 ^ 63) (hle : last ≤ bound) :
    DialogDirectoryNavigationToken.validate
      { accountId := request.account, fingerprint := request.fingerprint
        lastDialogId := last, upperDialogId := bound } = .ok () := by
  unfold DialogDirectoryNavigationToken.validate
  rw [refuseIf_ok (not_le.mpr request.account_pos),
    refuseIf_ok (not_not.mpr request.fingerprint_valid), refuseIf_ok (not_lt.mpr hle),
    refuseIf_ok (not_not.mpr ⟨hlast.1, hlast.2, hbound.1, hbound.2⟩)]
  rfl

/-- The token behind a page of the scan. -/
def nextToken (request : DirectoryRequest) (bound : ℤ) (page : LivePage) :
    Option DialogDirectoryNavigationToken :=
  if page.more then
    page.examined.map fun last =>
      { accountId := request.account, fingerprint := request.fingerprint
        lastDialogId := last, upperDialogId := bound }
  else none

/-- The page that stands for a page of the scan. -/
def toDirectoryPage (request : DirectoryRequest) (bound : ℤ) (page : LivePage) :
    DirectoryPage where
  dialogs := page.returned
  upper := some bound
  examined := page.examined
  hasMore := page.more
  nextNavigation := nextToken request bound page

/-- A page within a bound, as the scan sees it. -/
theorem buildDialogsPage_eq {navigation : Option DialogDirectoryNavigationToken}
    (hbound : -2 ^ 63 ≤ bound ∧ bound < 2 ^ 63)
    (hread : store.readNavigation request navigation = .ok (some bound, cursor)) :
    store.buildDialogsPage request navigation =
      .ok (toDirectoryPage request bound (store.livePage request bound cursor)) := by
  set page := store.livePage request bound cursor with hpage
  have hnext : nextNavigation request (some bound) page.examined page.more =
      .ok (nextToken request bound page) := by
    unfold nextNavigation nextToken
    cases hexamined : page.examined with
    | none => split_ifs <;> rfl
    | some last =>
      dsimp only
      split_ifs
      · have hle := ((livePage_spec store request bound cursor).examined last hexamined).2
        rw [validate_ok hbound (candidate_int64 (examined_candidate hexamined)) hle]
        rfl
      · rfl
  have hbuild : store.buildDialogsPage request navigation =
      (store.readNavigation request navigation).bind fun read =>
        let rows := read.1.elim [] (store.pageRows request read.2)
        let taken :=
          takeCandidates (store.keeps request) (request.limit.getD 100) (rows.take 500)
        (nextNavigation request read.1 taken.2 (hasMore rows (rows.take 500) taken.2)).bind
          fun next =>
            .ok
              { dialogs := taken.1, upper := read.1, examined := taken.2
                hasMore := hasMore rows (rows.take 500) taken.2, nextNavigation := next } := rfl
  rw [hbuild, hread]
  change (nextNavigation request (some bound) page.examined page.more).bind _ = _
  rw [hnext]
  rfl

/-- Without a candidate the first page is empty. -/
theorem buildDialogsPage_of_none (hupper : store.upperBound request = none) :
    store.buildDialogsPage request none =
      .ok { dialogs := [], upper := none, examined := none, hasMore := false
            nextNavigation := none } := by
  unfold buildDialogsPage readNavigation
  rw [hupper]
  rfl

/-! ## The traversal -/

/-- Reading back the token of a page. -/
theorem readNavigation_nextToken (store : DirectoryStore) {page : LivePage}
    {token : DialogDirectoryNavigationToken} (h : nextToken request bound page = some token) :
    page.more = true ∧
      store.readNavigation request (some token) = .ok (some bound, page.examined) := by
  unfold nextToken at h
  split_ifs at h with hmore
  obtain ⟨last, hlast, rfl⟩ := Option.map_eq_some_iff.mp h
  refine ⟨hmore, ?_⟩
  rw [readNavigation, if_neg (by simp), hlast]

/-- The pages of a traversal with a bound are the pages of the scan. -/
theorem directoryPages_eq {request : DirectoryRequest}
    (hupper : (stores 0).upperBound request = some bound) (n : ℕ) :
    directoryPages request stores n =
      (visit (traversalPage request stores) n).map fun entry =>
        .ok (toDirectoryPage request bound entry.2) := by
  have hbound : -2 ^ 63 ≤ bound ∧ bound < 2 ^ 63 := candidate_int64 (upperBound_candidate hupper)
  have hsame : traversalBound request stores = bound := by
    rw [traversalBound, hupper]
    rfl
  induction n with
  | zero =>
    rw [directoryPages, visit, Option.map_some, traversalPage, hsame]
    congr 1
    apply buildDialogsPage_eq hbound
    rw [readNavigation, hupper]
  | succ n ih =>
    rw [directoryPages, ih, visit]
    cases hvisit : visit (traversalPage request stores) n with
    | none => rfl
    | some entry =>
      obtain ⟨cursor, page⟩ := entry
      rw [Option.map_some]
      dsimp only
      change (nextToken request bound page).map _ = _
      cases htoken : nextToken request bound page with
      | none =>
        split_ifs with hmore
        · exfalso
          have hspec := visit_spec
            (fun m c => livePage_spec (stores m) request (traversalBound request stores) c) hvisit
          obtain ⟨last, hlast⟩ := Option.isSome_iff_exists.mp (hspec.more hmore)
          rw [nextToken, if_pos hmore, hlast] at htoken
          cases htoken
        · rfl
      | some token =>
        obtain ⟨hmore, hread⟩ := readNavigation_nextToken (stores (n + 1)) htoken
        rw [if_pos hmore, Option.map_some, Option.map_some, traversalPage, hsame]
        congr 1
        exact buildDialogsPage_eq hbound hread

/-- The returned dialogs are those of the scan. -/
theorem returnedDialogs_eq {request : DirectoryRequest}
    (hupper : (stores 0).upperBound request = some bound) (n : ℕ) :
    returnedDialogs request stores n = visited (traversalPage request stores) n := by
  induction n with
  | zero => rfl
  | succ n ih =>
    rw [returnedDialogs, visited, ih, directoryPages_eq hupper]
    cases visit (traversalPage request stores) n with
    | none => rfl
    | some entry => rfl

/-- A traversal of an empty directory has one empty page. -/
theorem directoryPages_of_none {request : DirectoryRequest}
    (hupper : (stores 0).upperBound request = none) (n : ℕ) :
    directoryPages request stores n =
      if n = 0 then
        some (.ok { dialogs := [], upper := none, examined := none, hasMore := false
                    nextNavigation := none })
      else none := by
  induction n with
  | zero =>
    rw [directoryPages, buildDialogsPage_of_none hupper]
    rfl
  | succ n ih =>
    rw [directoryPages, ih, if_neg (Nat.succ_ne_zero n)]
    split_ifs <;> rfl

/-- It returns nothing. -/
theorem returnedDialogs_of_none {request : DirectoryRequest}
    (hupper : (stores 0).upperBound request = none) (n : ℕ) :
    returnedDialogs request stores n = [] := by
  induction n with
  | zero => rfl
  | succ n ih =>
    rw [returnedDialogs, ih, directoryPages_of_none hupper]
    split_ifs <;> rfl

/-- What a traversal does, whatever happens to the dialogs between its page requests. -/
structure TraversalResult (request : DirectoryRequest) (stores : ℕ → DirectoryStore) : Prop where
  /-- No page is refused. -/
  accepted : ∀ n result, directoryPages request stores n = some result →
    ∃ page, result = .ok page
  /-- Following `next_navigation` ends. -/
  ends : ∃ n page, directoryPages request stores n = some (.ok page) ∧ page.nextNavigation = none
  /-- The returned identifiers increase over the whole traversal. -/
  increasing : ∀ n, (returnedDialogs request stores n).Pairwise (· < ·)
  /-- A dialog that matches at every page request and is within the bound is returned exactly
  once. -/
  once : ∀ n page, directoryPages request stores n = some (.ok page) →
    page.nextNavigation = none → ∀ bound id, (stores 0).upperBound request = some bound →
      id ≤ bound → (∀ i ≤ n, (stores i).Matches request id) →
        (returnedDialogs request stores (n + 1)).count id = 1
  /-- `has_more` is false only if no candidate within the bound is left above the last examined
  identifier, or above the cursor of the page when it examined nothing. -/
  exhausted : ∀ n page, directoryPages request stores n = some (.ok page) →
    page.hasMore = false → ∀ bound id, page.upper = some bound →
      (stores n).IsCandidate request id → id ≤ bound →
        UpTo page.examined id ∨ ∃ m earlier, m + 1 = n ∧
          directoryPages request stores m = some (.ok earlier) ∧ UpTo earlier.examined id
  /-- There are more pages exactly if `has_more` says so. -/
  continues : ∀ n page, directoryPages request stores n = some (.ok page) →
    (page.nextNavigation = none ↔ page.hasMore = false)

/-- Dialog directory traversal: for every request and every sequence of states of the tables, one
for each page request. -/
theorem directory_traversal (request : DirectoryRequest) (stores : ℕ → DirectoryStore) :
    TraversalResult request stores := by
  cases hupper : (stores 0).upperBound request with
  | none =>
    refine ⟨?_, ?_, ?_, ?_, ?_, ?_⟩
    · intro n result hresult
      rw [directoryPages_of_none hupper] at hresult
      split_ifs at hresult
      exact ⟨_, (Option.some.inj hresult).symm⟩
    · exact ⟨0, _, (directoryPages_of_none hupper 0).trans (if_pos rfl), rfl⟩
    · intro n
      rw [returnedDialogs_of_none hupper]
      exact List.Pairwise.nil
    · intro n page hpage hlast bound id hbound
      rw [hupper] at hbound
      cases hbound
    · intro n page hpage hmore bound id hbound
      rw [directoryPages_of_none hupper] at hpage
      split_ifs at hpage
      cases hpage
      cases hbound
    · intro n page hpage
      rw [directoryPages_of_none hupper] at hpage
      split_ifs at hpage
      cases hpage
      exact ⟨fun _ => rfl, fun _ => rfl⟩
  | some bound =>
    have hspec : ∀ n cursor, PageSpec ((stores n).IsCandidate request)
        ((stores n).Matches request) (traversalBound request stores) cursor
          (traversalPage request stores n cursor) :=
      fun n cursor => livePage_spec (stores n) request _ cursor
    have hsame : traversalBound request stores = bound := by
      rw [traversalBound, hupper]
      rfl
    have hpages := directoryPages_eq hupper
    have hvisit : ∀ n page, directoryPages request stores n = some (.ok page) →
        ∃ cursor p, visit (traversalPage request stores) n = some (cursor, p) ∧
          page = toDirectoryPage request bound p := by
      intro n page hpage
      rw [hpages n] at hpage
      obtain ⟨⟨cursor, p⟩, hvisit, heq⟩ := Option.map_eq_some_iff.mp hpage
      exact ⟨cursor, p, hvisit, (Except.ok.inj heq).symm⟩
    have hcontinues : ∀ n cursor p, visit (traversalPage request stores) n = some (cursor, p) →
        (nextToken request bound p = none ↔ p.more = false) := by
      intro n cursor p hp
      unfold nextToken
      cases hmore : p.more with
      | false => simp
      | true =>
        obtain ⟨last, hlast⟩ := Option.isSome_iff_exists.mp ((visit_spec hspec hp).more hmore)
        simp [hlast]
    refine ⟨?_, ?_, ?_, ?_, ?_, ?_⟩
    · intro n result hresult
      rw [hpages n] at hresult
      obtain ⟨entry, -, rfl⟩ := Option.map_eq_some_iff.mp hresult
      exact ⟨_, rfl⟩
    · obtain ⟨n, cursor, p, hp, hmore⟩ := visit_ends hspec
      refine ⟨n, toDirectoryPage request bound p, ?_, (hcontinues n cursor p hp).mpr hmore⟩
      rw [hpages n, hp, Option.map_some]
    · intro n
      rw [returnedDialogs_eq hupper]
      cases n with
      | zero => exact List.Pairwise.nil
      | succ n =>
        induction n with
        | zero => exact visited_succ_increasing hspec rfl
        | succ n ih =>
          cases hp : visit (traversalPage request stores) (n + 1) with
          | some entry => exact visited_succ_increasing hspec hp
          | none =>
            rw [visited, hp]
            simpa using ih
    · intro n page hpage hlast bound' id hbound hle hmatches
      obtain rfl : bound = bound' := Option.some.inj (hupper.symm.trans hbound)
      obtain ⟨cursor, p, hp, rfl⟩ := hvisit n page hpage
      rw [returnedDialogs_eq hupper]
      refine visited_once hspec hp ((hcontinues n cursor p hp).mp hlast) ?_ (hsame ▸ hle)
      intro i hi
      have hmatch := hmatches i hi
      obtain ⟨row, hrow, -⟩ := hmatch
      refine ⟨?_, hmatches i hi⟩
      rw [IsCandidate, hrow]
      rfl
    · intro n page hpage hmore bound' id hbound hcandidate hle
      obtain ⟨cursor, p, hp, rfl⟩ := hvisit n page hpage
      obtain rfl : bound = bound' := Option.some.inj hbound
      by_cases hbehind : UpTo cursor id
      · right
        cases n with
        | zero =>
          obtain ⟨rfl, -⟩ := Prod.mk.inj (Option.some.inj hp)
          obtain ⟨last, hlast, -⟩ := hbehind
          cases hlast
        | succ m =>
          obtain ⟨before, earlier, hbefore, -, rfl, -⟩ := visit_succ hp
          refine ⟨m, toDirectoryPage request bound before, rfl, ?_, hbehind⟩
          rw [hpages m, hbefore, Option.map_some]
      · exact Or.inl ((visit_spec hspec hp).last hmore id hcandidate (hsame ▸ hle) hbehind)
    · intro n page hpage
      obtain ⟨cursor, p, hp, rfl⟩ := hvisit n page hpage
      exact hcontinues n cursor p hp

end DirectoryStore

end McpTelegram
