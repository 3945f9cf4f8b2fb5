import McpTelegram.Receipts.FolderTable

/-!
# Reservation and verification of folder receipts

The insertion of a receipt, and the statements that run once for each receipt of a list: the
reservation of verifications, their release and their results.  A held reservation names receipts
that were settled when it was made, with their boundaries; both are final, so the comparison of the
observation with the held boundary is one with the boundary of the row.
-/

namespace McpTelegram

open Foundations ReceiptStore

variable {db db' : ReceiptStore} {observation : Option ℕ}
variable {binding : NativeWriteReceiptBinding} {row : FolderReceipt} {accountId : ℤ}
    {receipts : List ReservedVerification} {observationOrder : ℕ} {rules : ℤ → Option String}

/-! ## Insertion -/

/-- The reservation passes by no pending receipt whose verification was exhausted. -/
def NoPassing (binding : NativeWriteReceiptBinding) (db : ReceiptStore) : Prop :=
  ∀ row ∈ db.folders, row.rivals binding = true → row.outcome = .pending →
    row.verification ≠ some .exhausted

instance (binding : NativeWriteReceiptBinding) (db : ReceiptStore) :
    Decidable (NoPassing binding db) :=
  inferInstanceAs (Decidable (∀ row ∈ db.folders, _))

/-- Where the check finds nothing, no rival is unresolved. -/
theorem rivals_resolved (hsound : db.FoldersSound) (hslip : NoPassing binding db)
    (hfree : ¬ db.folders.any (fun row => row.rivals binding && row.blocks) = true)
    (hrow : row ∈ db.folders) (hrival : row.rivals binding = true) : row.unresolved = false := by
  have hblocks : row.blocks = false := by
    by_contra hblocks
    exact hfree (List.any_eq_true.mpr ⟨row, hrow, by simp [hrival, Bool.not_eq_false _ ▸ hblocks]⟩)
  by_cases hpending : row.outcome = .pending
  · exfalso
    rcases ((hsound.rows row hrow).fresh hpending).2 with hverification | hverification
    · simp [FolderReceipt.blocks, FolderReceipt.settleable, hpending, FolderReceipt.outstanding,
        hverification] at hblocks
    · exact hslip row hrow hrival hpending hverification
  · simpa [FolderReceipt.unresolved, FolderReceipt.blocks, FolderReceipt.settleable, hpending]
      using hblocks

theorem newFolderReceipt_sound (binding : NativeWriteReceiptBinding)
    (operationFingerprint expectedVersion : String) (before intended : Option String) (now : ℤ) :
    (newFolderReceipt binding operationFingerprint expectedVersion before intended now).Sound :=
  ⟨fun _ => ⟨rfl, Or.inl rfl⟩, fun h => by cases h⟩

/-- What an insertion that does not raise does. -/
structure FolderInserted (binding : NativeWriteReceiptBinding) (db db' : ReceiptStore) : Prop where
  rows : ∃ row, db'.folders = db.folders ++ [row] ∧ row.outcome = .pending ∧ row.verified = false
  contacts : db'.contacts = db.contacts
  fresh : (binding.accountId, binding.operationKey) ∉ db.folders.map (·.primaryKey)

/-- `insert_operation` appends a pending receipt and keeps the invariant. -/
theorem insertFolderOperation_sound {operationFingerprint expectedVersion : String}
    {before intended : Option String} {now : ℤ} (hsound : db.FoldersSound)
    (hslip : NoPassing binding db)
    (h : insertFolderOperation binding operationFingerprint expectedVersion before intended now db =
      .ok db') : db'.FoldersSound ∧ FolderInserted binding db db' := by
  have h := folderBinding_bind h
  split at h
  · cases h
  · rename_i hfree
    split at h
    · cases h
    · rename_i hkey
      cases h
      refine ⟨⟨?_, ?_, fun accountId target => ?_, fun accountId => ?_⟩,
        ⟨_, rfl, rfl, rfl⟩, rfl, hkey⟩
      · rw [List.map_append, List.nodup_append]
        refine ⟨hsound.unique, List.nodup_singleton _, ?_⟩
        rintro key hold _ hnew rfl
        rw [List.map_singleton, List.mem_singleton] at hnew
        have hown : key = (binding.accountId, binding.operationKey) := hnew
        exact hkey (hown ▸ hold)
      · intro row hrow
        rcases List.mem_append.mp hrow with hrow | hrow
        · exact hsound.rows row hrow
        · rw [List.mem_singleton.mp hrow]
          exact newFolderReceipt_sound _ _ _ _ _ _
      · -- the new receipt counts only for its own target, which has no other unresolved one
        by_cases hown : binding.accountId = accountId ∧ binding.target = target
        · refine countP_append_le_one (fun row hrow => ?_) _
          by_cases hrival : row.rivals binding = true
          · simp [unresolvedFor, rivals_resolved hsound hslip hfree hrow hrival]
          · simp only [FolderReceipt.rivals, hown.1, hown.2] at hrival
            simp only [unresolvedFor, Bool.and_eq_false_iff, decide_eq_false_iff_not]
            simp only [Bool.and_eq_true, Bool.or_eq_true, decide_eq_true_eq, not_and,
              not_or] at hrival
            by_cases haccount : row.accountId = accountId
            · exact Or.inl (Or.inr (hrival haccount).1)
            · exact Or.inl (Or.inl haccount)
        · rw [countP_append_of_not]
          · exact hsound.targets accountId target
          · simp only [unresolvedFor, Bool.and_eq_false_iff, decide_eq_false_iff_not]
            by_cases haccount : binding.accountId = accountId
            · exact Or.inl (Or.inr fun htarget => hown ⟨haccount, htarget⟩)
            · exact Or.inl (Or.inl haccount)
      · by_cases hown : binding.accountId = accountId ∧ binding.action = "create"
        · refine countP_append_le_one (fun row hrow => ?_) _
          by_cases hrival : row.rivals binding = true
          · simp [unresolvedCreation, rivals_resolved hsound hslip hfree hrow hrival]
          · simp only [FolderReceipt.rivals, hown.1, hown.2] at hrival
            simp only [unresolvedCreation, Bool.and_eq_false_iff, decide_eq_false_iff_not]
            simp only [Bool.and_eq_true, Bool.or_eq_true, decide_eq_true_eq, not_and,
              not_or] at hrival
            by_cases haccount : row.accountId = accountId
            · exact Or.inl (Or.inr ((hrival haccount).2 trivial))
            · exact Or.inl (Or.inl haccount)
        · rw [countP_append_of_not]
          · exact hsound.creations accountId
          · simp only [unresolvedCreation, Bool.and_eq_false_iff, decide_eq_false_iff_not]
            by_cases haccount : binding.accountId = accountId
            · exact Or.inl (Or.inr fun haction => hown ⟨haccount, haction⟩)
            · exact Or.inl (Or.inl haccount)

/-! ## Reservation and release -/

/-- A loop of statements that all move the table moves it. -/
theorem foldl_moves {ι : Type*} {step : ReceiptStore → ι → ReceiptStore}
    (hstep : ∀ db i, MovesFolders observation db (step db i)) (is : List ι) (db : ReceiptStore) :
    MovesFolders observation db (is.foldl step db) := by
  induction is generalizing db with
  | nil => exact MovesFolders.refl db
  | cons i is ih => exact (hstep db i).trans (ih (step db i))

/-- The receipts of a held reservation are settled and have the held boundaries. -/
def Dispatched (db : ReceiptStore) (accountId : ℤ) (receipts : List ReservedVerification) : Prop :=
  ∀ reserved ∈ receipts, ∃ row ∈ db.folders,
    row.primaryKey = (accountId, reserved.operationKey) ∧ row.settled = true ∧
      row.dispatchOrder = reserved.dispatchOrder

/-- A reservation stays what it is while the table is carried on. -/
theorem Dispatched.carried (h : Dispatched db accountId receipts) (hsound : db.FoldersSound)
    (hcarried : ∀ row ∈ db.folders, ∃ row' ∈ db'.folders, FolderKept row row') :
    Dispatched db' accountId receipts := by
  intro reserved hreserved
  obtain ⟨row, hrow, hkey, hsettled, hdispatch⟩ := h reserved hreserved
  obtain ⟨row', hrow', hkept⟩ := hcarried row hrow
  obtain ⟨boundary, hboundary⟩ :=
    Option.ne_none_iff_exists'.mp ((hsound.rows row hrow).dispatched hsettled)
  refine ⟨row', hrow', hkept.key.trans hkey, hkept.settled hsettled, ?_⟩
  rw [hkept.boundary boundary hboundary, ← hboundary, hdispatch]

/-- Moving the table carries its rows on. -/
theorem ReceiptStore.MovesFolders.carries (h : MovesFolders observation db db') :
    ∀ row ∈ db.folders, ∃ row' ∈ db'.folders, FolderKept row row' := by
  intro row hrow
  obtain ⟨row', hrow', hmoves⟩ := exists_of_forall₂_left h.rows hrow
  exact ⟨row', hrow', hmoves.toFolderKept⟩

/-- `_reserve_folder_verification` moves the table and reserves settled receipts. -/
theorem reserveFolderVerification_moves (accountId : ℤ) (operationKey : Option String) (now : ℤ)
    (force : Bool) (hsound : db.FoldersSound) :
    MovesFolders observation db (reserveFolderVerification accountId operationKey now force db).1 ∧
      Dispatched (reserveFolderVerification accountId operationKey now force db).1 accountId
        (reserveFolderVerification accountId operationKey now force db).2 := by
  have hexpired : MovesFolders observation db (db.updateFolders (·.expired accountId now)
      (fun row => { row with verification := some .exhausted })) := by
    refine movesFolders_update fun row _ hmet => ?_
    simp only [FolderReceipt.expired, Bool.and_eq_true, decide_eq_true_eq] at hmet
    exact FolderReceipt.expire_moves hmet.1.2
  have hcount : ∀ (db : ReceiptStore) (reserved : ReservedVerification),
      MovesFolders observation db (db.updateFolders (·.keyed accountId reserved.operationKey)
        (·.reserve now)) := fun db reserved =>
    movesFolders_update fun row _ _ => folderMoves_of_agree rfl rfl rfl rfl rfl rfl rfl
  have hloop := foldl_moves hcount
    (((((db.updateFolders (·.expired accountId now)
      (fun row => { row with verification := some .exhausted })).folders.filter
        (·.reservable accountId operationKey now force)).insertionSort
          (fun row row' => row.before row'))).map (·.reserved))
    (db.updateFolders (·.expired accountId now)
      (fun row => { row with verification := some .exhausted }))
  refine ⟨hexpired.trans hloop, ?_⟩
  -- every reserved receipt was selected from the table after the expiry
  refine Dispatched.carried (fun reserved hreserved => ?_) (hsound.moves hexpired) hloop.carries
  obtain ⟨row, hrow, rfl⟩ := List.mem_map.mp hreserved
  rw [List.mem_insertionSort, List.mem_filter] at hrow
  obtain ⟨hrow, hreservable⟩ := hrow
  simp only [FolderReceipt.reservable, Bool.and_eq_true, decide_eq_true_eq] at hreservable
  have haccount : row.accountId = accountId := hreservable.1.1.1.1.1.1
  exact ⟨row, hrow, by rw [FolderReceipt.primaryKey, haccount]; rfl, hreservable.1.1.1.1.2, rfl⟩

/-- `_release_folder_verification`. -/
theorem releaseFolderVerification_moves (accountId : ℤ) (receipts : List ReservedVerification)
    (now : ℤ) (db : ReceiptStore) :
    MovesFolders observation db (releaseFolderVerification accountId receipts now db) := by
  refine foldl_moves (fun db reserved => ?_) receipts db
  exact movesFolders_update fun row _ _ => folderMoves_of_agree rfl rfl rfl rfl rfl rfl rfl

/-! ## Results -/

theorem verificationResult_cases (action : String) (intended actual : Option String) :
    verificationResult action intended actual = .matched ∨
      verificationResult action intended actual = .mismatched :=
  ite_eq_or_eq _ _ _

theorem refinedResult_cases (action : String) (intended actual : Option String) :
    refinedResult action intended actual = .matched ∨
      refinedResult action intended actual = .mismatched :=
  ite_eq_or_eq _ _ _

/-- A keyed row has the key. -/
theorem FolderReceipt.key_of_keyed {operationKey : String}
    (h : row.keyed accountId operationKey = true) : row.primaryKey = (accountId, operationKey) := by
  simp only [keyed, Bool.and_eq_true, decide_eq_true_eq] at h
  simp [primaryKey, h]

/-- The loop of `_finish_folder_verification`. -/
theorem finishReceipts_moves {changed changed' : Bool} (hsound : db.FoldersSound)
    (hdispatched : Dispatched db accountId receipts)
    (h : finishReceipts accountId observationOrder rules receipts db changed = .ok (db', changed')) :
    MovesFolders (some observationOrder) db db' := by
  induction receipts generalizing db changed with
  | nil =>
    cases h
    exact MovesFolders.refl _
  | cons reserved rest ih =>
    rw [finishReceipts] at h
    have hrest : Dispatched db accountId rest := fun other hother =>
      hdispatched other (List.mem_cons_of_mem reserved hother)
    split at h
    · cases h
    · rename_i boundary hboundary
      split at h
      · exact ih hsound hrest h
      · rename_i hlt
        have hmoves : MovesFolders (some observationOrder) db
            (db.updateFolders
              (fun row => row.keyed accountId reserved.operationKey &&
                row.verification = some .pending)
              (fun row => { row with
                verification := some (verificationResult reserved.action
                  reserved.intendedDefinition (rules reserved.target)) })) := by
          refine movesFolders_update fun row hrow hmet => ?_
          simp only [Bool.and_eq_true, decide_eq_true_eq] at hmet
          -- the row of the key is the one that the reservation names
          obtain ⟨held, hheld, hkey, hsettled, hdispatch⟩ := hdispatched reserved List.mem_cons_self
          obtain rfl : row = held := hsound.eq_of_key hrow hheld
            ((FolderReceipt.key_of_keyed hmet.1).trans hkey.symm)
          refine FolderReceipt.verify_moves (verificationResult_cases _ _ _) hsettled ?_
            (hdispatch.trans hboundary) (by omega)
          simp [FolderReceipt.verified, hmet.2]
        exact hmoves.trans
          (ih (hsound.moves hmoves) (hrest.carried hsound hmoves.carries) h)

/-- `_finish_folder_verification` of a held reservation. -/
theorem finishFolderVerification_moves {guard changed : Bool} {catalog : Option String}
    (hsound : db.FoldersSound) (hdispatched : Dispatched db accountId receipts)
    (h : finishFolderVerification accountId receipts observationOrder guard catalog rules db =
      .ok (db', changed)) : MovesFolders (some observationOrder) db db' := by
  unfold finishFolderVerification at h
  split at h
  · cases h
    exact MovesFolders.refl db
  · exact finishReceipts_moves hsound hdispatched h

/-- A refinable receipt takes a result. -/
theorem refine_moves {result : FolderVerification}
    (hresult : result = .matched ∨ result = .mismatched)
    (h : row.refinable accountId observationOrder = true) :
    FolderMoves (some observationOrder) row { row with verification := some result } := by
  simp only [FolderReceipt.refinable, Bool.and_eq_true, decide_eq_true_eq] at h
  obtain ⟨⟨⟨-, hdispatch⟩, hsettled⟩, hverification⟩ := h
  obtain ⟨boundary, hboundary, hlt⟩ := (Option.any_eq_true _ _).mp hdispatch
  refine FolderReceipt.verify_moves hresult hsettled ?_ hboundary (of_decide_eq_true hlt)
  simp only [List.mem_cons, List.not_mem_nil, or_false] at hverification
  rcases hverification with h | h | h <;> simp [FolderReceipt.verified, h]

/-- The loop of `refine_from_observation`: a receipt of the list is unchanged until its turn, as the
keys of the list are different. -/
theorem refineLoop_moves {definitions : ℤ → Option String} {complete : Bool}
    {affectedFolderId : Option ℤ} {rows : List FolderReceipt} (hsound : db.FoldersSound)
    (hnodup : (rows.map (·.primaryKey)).Nodup)
    (hrows : ∀ row ∈ rows, row ∈ db.folders ∧ row.refinable accountId observationOrder = true) :
    MovesFolders (some observationOrder) db
      (rows.foldl (fun db row =>
        if !complete && affectedFolderId ≠ some row.target then db
        else
          db.updateFolders (·.keyed accountId row.operationKey)
            (fun other => { other with
              verification := some (refinedResult row.action row.intendedDefinition
                (definitions row.target)) })) db) := by
  induction rows generalizing db with
  | nil => exact MovesFolders.refl db
  | cons row rows ih =>
    rw [List.map_cons, List.nodup_cons] at hnodup
    obtain ⟨hrow, hrefinable⟩ := hrows row List.mem_cons_self
    have hrest : ∀ other ∈ rows, other ∈ db.folders ∧
        other.refinable accountId observationOrder = true :=
      fun other hother => hrows other (List.mem_cons_of_mem row hother)
    rw [List.foldl_cons]
    split
    · exact ih hsound hnodup.2 hrest
    · have haccount : row.accountId = accountId := by
        simp only [FolderReceipt.refinable, Bool.and_eq_true, decide_eq_true_eq] at hrefinable
        exact hrefinable.1.1.1
      have hown : ∀ other : FolderReceipt, other.keyed accountId row.operationKey = true →
          other.primaryKey = row.primaryKey := fun other hkeyed => by
        rw [FolderReceipt.key_of_keyed hkeyed, FolderReceipt.primaryKey, haccount]
      have hmoves : MovesFolders (some observationOrder) db
          (db.updateFolders (·.keyed accountId row.operationKey)
            (fun other => { other with
              verification := some (refinedResult row.action row.intendedDefinition
                (definitions row.target)) })) := by
        refine movesFolders_update fun other hother hkeyed => ?_
        obtain rfl : other = row := hsound.eq_of_key hother hrow (hown other hkeyed)
        exact refine_moves (refinedResult_cases _ _ _) hrefinable
      refine hmoves.trans (ih (hsound.moves hmoves) hnodup.2 fun other hother => ?_)
      refine ⟨?_, (hrest other hother).2⟩
      refine List.mem_map.mpr ⟨other, (hrest other hother).1, if_neg fun hkeyed => ?_⟩
      exact hnodup.1 (hown other hkeyed ▸ List.mem_map_of_mem hother)

/-- `refine_from_observation`. -/
theorem refineFolders_moves (accountId : ℤ) (observationOrder : ℕ) (definitions : ℤ → Option String)
    (complete : Bool) (affectedFolderId : Option ℤ) (hsound : db.FoldersSound) :
    MovesFolders (some observationOrder) db
      (refineFolders accountId observationOrder definitions complete affectedFolderId db) :=
  refineLoop_moves hsound (hsound.unique.sublist (List.filter_sublist.map _))
    fun _ hrow => List.mem_filter.mp hrow

end McpTelegram
