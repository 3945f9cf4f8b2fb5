import McpTelegram.Receipts.FolderSteps

/-!
# The folder receipt table

The invariant of the table, and for every statement that it moves each row as `FolderMoves` allows.
Two of the statements do so only where a slip is avoided: a reservation must not pass by a pending
receipt whose verification was exhausted, and a not-sent mark must not meet a rejected receipt that
has a result.
-/

namespace McpTelegram

open Foundations

variable {db db' db'' : ReceiptStore} {observation : Option ℕ}
variable {attemptId version : String} {binding : NativeWriteReceiptBinding} {row : FolderReceipt}
    {outcome : ReceiptOutcome} {catalog : Option String}

variable {condition : FolderReceipt → Bool} {change : FolderReceipt → FolderReceipt} {now : ℤ}

namespace ReceiptStore

/-- The unresolved receipts for a target. -/
def unresolvedFor (accountId target : ℤ) (row : FolderReceipt) : Bool :=
  row.accountId = accountId && row.target = target && row.unresolved

/-- The unresolved creations of an account. -/
def unresolvedCreation (accountId : ℤ) (row : FolderReceipt) : Bool :=
  row.accountId = accountId && row.action = "create" && row.unresolved

/-- The invariant of the folder table. -/
structure FoldersSound (db : ReceiptStore) : Prop where
  /-- The primary key is one. -/
  unique : (db.folders.map (·.primaryKey)).Nodup
  /-- Every row is sound. -/
  rows : ∀ row ∈ db.folders, row.Sound
  /-- At most one receipt for a target is unresolved. -/
  targets : ∀ accountId target, db.folders.countP (unresolvedFor accountId target) ≤ 1
  /-- At most one creation of an account is unresolved. -/
  creations : ∀ accountId, db.folders.countP (unresolvedCreation accountId) ≤ 1

/-- A statement that inserts nothing moves every folder row and leaves the contact table. -/
structure MovesFolders (observation : Option ℕ) (db db' : ReceiptStore) : Prop where
  rows : List.Forall₂ (FolderMoves observation) db.folders db'.folders
  contacts : db'.contacts = db.contacts

theorem MovesFolders.refl (db : ReceiptStore) : MovesFolders observation db db :=
  ⟨List.forall₂_same.mpr fun row _ => FolderMoves.refl row, rfl⟩

/-- Statements compose. -/
theorem MovesFolders.trans (h : MovesFolders observation db db')
    (h' : MovesFolders observation db' db'') : MovesFolders observation db db'' :=
  ⟨forall₂_trans (fun _ _ _ => FolderMoves.trans) h.rows h'.rows, h'.contacts.trans h.contacts⟩

theorem movesFolders_update
    (h : ∀ row ∈ db.folders, condition row = true → FolderMoves observation row (change row)) :
    MovesFolders observation db (db.updateFolders condition change) :=
  ⟨forall₂_updateWhere (fun row _ => FolderMoves.refl row) h, rfl⟩

/-- Moving rows keeps the invariant: a receipt is never unresolved again. -/
theorem FoldersSound.moves (hsound : db.FoldersSound) (h : MovesFolders observation db db') :
    db'.FoldersSound where
  unique := by
    rw [map_eq_of_forall₂ h.rows fun row row' hmoves => hmoves.key]
    exact hsound.unique
  rows row' hrow' := by
    obtain ⟨row, hrow, hmoves⟩ := exists_of_forall₂ h.rows hrow'
    exact hmoves.sound (hsound.rows row hrow)
  targets accountId target := by
    refine le_trans (countP_le_of_forall₂ h.rows fun row row' hmoves hp => ?_)
      (hsound.targets accountId target)
    have haccount : row'.accountId = row.accountId := congrArg Prod.fst hmoves.key
    simp only [unresolvedFor, Bool.and_eq_true, decide_eq_true_eq] at hp ⊢
    exact ⟨⟨haccount.symm.trans hp.1.1, hmoves.target.symm.trans hp.1.2⟩, hmoves.unresolved hp.2⟩
  creations accountId := by
    refine le_trans (countP_le_of_forall₂ h.rows fun row row' hmoves hp => ?_)
      (hsound.creations accountId)
    have haccount : row'.accountId = row.accountId := congrArg Prod.fst hmoves.key
    simp only [unresolvedCreation, Bool.and_eq_true, decide_eq_true_eq] at hp ⊢
    exact ⟨⟨haccount.symm.trans hp.1.1, hmoves.action.symm.trans hp.1.2⟩, hmoves.unresolved hp.2⟩

theorem FoldersSound.eq_of_key (hsound : db.FoldersSound) {row row' : FolderReceipt}
    (hrow : row ∈ db.folders) (hrow' : row' ∈ db.folders)
    (hkey : row.primaryKey = row'.primaryKey) : row = row' :=
  List.inj_on_of_nodup_map hsound.unique hrow hrow' hkey

end ReceiptStore

open ReceiptStore

/-! ## Statements that change one receipt -/

/-- A compare-and-set that does not raise is its update. -/
theorem eq_of_casFolders {text : String} (h : casFolders text condition change db = .ok db') :
    db' = db.updateFolders condition change := by
  unfold casFolders at h
  split at h
  · cases h
    rfl
  · cases h

/-- A binding that is not refused is one of a folder. -/
theorem folderBinding_bind {β : Type} {next : Except ReceiptError β} {value : β}
    (h : (folderBinding binding >>= fun _ => next) = .ok value) : next = .ok value := by
  unfold folderBinding at h
  split at h
  · exact h
  · cases h

/-- The receipts of a binding have the key of the binding. -/
theorem FolderReceipt.key_of_boundBy (h : row.boundBy binding = true) :
    row.primaryKey = (binding.accountId, binding.operationKey) := by
  simp only [boundBy, Bool.and_eq_true, decide_eq_true_eq] at h
  simp [primaryKey, h.1]

/-- `bind_attempt`. -/
theorem bindFolderAttempt_moves (hsound : db.FoldersSound)
    (h : bindFolderAttempt binding attemptId db = .ok db') : MovesFolders observation db db' := by
  unfold bindFolderAttempt at h
  split at h
  · cases h
  · rw [eq_of_casFolders (folderBinding_bind h)]
    refine movesFolders_update fun row hrow hmet => ?_
    simp only [Bool.and_eq_true, decide_eq_true_eq, Bool.or_eq_true] at hmet
    exact FolderReceipt.bind_moves (hsound.rows row hrow) hmet.1.2 hmet.2

/-- A settling update moves the table: its order is fresh where the receipt is pending. -/
theorem settle_movesFolders {delay : ℤ} (houtcome : outcome ∈ [.acknowledged, .rejected, .unknown])
    (hsound : db.FoldersSound) (hfound : db.folders.find? (·.ownedBy binding attemptId) = some row) :
    MovesFolders observation db
      ((db.terminalOrder row.outcome).1.updateFolders
        (fun row => row.ownedBy binding attemptId && row.settleable)
        (·.settle outcome (db.terminalOrder row.outcome).2 now delay)) := by
  have hallocated : MovesFolders observation db (db.terminalOrder row.outcome).1 := by
    unfold terminalOrder
    split
    · exact ⟨(MovesFolders.refl db).rows, rfl⟩
    · exact MovesFolders.refl db
  refine hallocated.trans (movesFolders_update fun other hother hmet => ?_)
  have hmem : other ∈ db.folders := by
    unfold terminalOrder at hother
    split at hother <;> exact hother
  simp only [Bool.and_eq_true] at hmet
  -- the receipt that was read is the one that is changed
  have hsame : other = row := by
    have howned := List.find?_some hfound
    simp only [FolderReceipt.ownedBy, Bool.and_eq_true] at howned hmet
    exact hsound.eq_of_key hmem (List.mem_of_find?_eq_some hfound)
      ((FolderReceipt.key_of_boundBy hmet.1.1).trans (FolderReceipt.key_of_boundBy howned.1).symm)
  subst hsame
  refine FolderReceipt.settle_moves (hsound.rows other hmem) hmet.2 houtcome fun hpending => ?_
  simp [terminalOrder, hpending]

/-- `record_wire_outcome`. -/
theorem recordFolderOutcome_moves (hsound : db.FoldersSound)
    (h : recordFolderOutcome binding attemptId outcome now db = .ok db') :
    MovesFolders observation db db' := by
  unfold recordFolderOutcome at h
  split at h
  · cases h
  · rename_i houtcome
    have h := folderBinding_bind h
    split at h
    · cases h
    · rename_i row hfound
      rw [eq_of_casFolders h]
      exact settle_movesFolders (not_not.mp houtcome) hsound hfound

/-- `recover_binding`. -/
theorem recoverFolderBinding_moves {changed : Bool} (hsound : db.FoldersSound)
    (h : recoverFolderBinding binding attemptId now db = .ok (db', changed)) :
    MovesFolders observation db db' := by
  unfold recoverFolderBinding at h
  split at h
  · cases h
  · have h := folderBinding_bind h
    split at h
    · cases h
      exact MovesFolders.refl db
    · rename_i row hfound
      cases h
      exact settle_movesFolders (by simp) hsound hfound

/-- `recover_interrupted_operations`. -/
theorem recoverFolders_moves (scope : TelegramAuthScope) (now : ℤ) (hsound : db.FoldersSound) :
    MovesFolders observation db (recoverFolders scope now db).1 := by
  unfold recoverFolders
  split
  · have hallocated : MovesFolders observation db db.allocateObservationOrder :=
      ⟨(MovesFolders.refl db).rows, rfl⟩
    refine hallocated.trans (movesFolders_update fun row hrow hmet => ?_)
    simp only [FolderReceipt.interrupted, Bool.and_eq_true, decide_eq_true_eq] at hmet
    exact FolderReceipt.recover_moves (hsound.rows row hrow) hmet.2
  · exact MovesFolders.refl db

/-- `_issue_folder_permit`. -/
theorem issueFolderPermit_moves {issued : Bool}
    (h : issueFolderPermit binding version catalog db = .ok (db', issued)) :
    MovesFolders observation db db' := by
  unfold issueFolderPermit at h
  split at h
  · cases h
    exact MovesFolders.refl db
  · have h := folderBinding_bind h
    cases h
    exact movesFolders_update fun row _ _ => folderMoves_of_agree rfl rfl rfl rfl rfl rfl rfl

/-- `_mark_unchanged`. -/
theorem markUnchanged_moves {guard : Bool} (hsound : db.FoldersSound)
    (h : markUnchanged binding version guard catalog db = .ok db') :
    MovesFolders observation db db' := by
  rw [eq_of_casFolders (folderBinding_bind h)]
  refine movesFolders_update fun row hrow hmet => ?_
  simp only [Bool.and_eq_true, decide_eq_true_eq] at hmet
  refine FolderReceipt.giveUp_moves (hsound.rows row hrow) hmet.1.2 ?_
  split
  · exact Or.inl rfl
  · exact Or.inr rfl

/-- `_mark_not_sent`, where it meets no rejected receipt that has a result. -/
theorem markNotSent_moves (hsound : db.FoldersSound)
    (hslip : ∀ row ∈ db.folders, row.boundBy binding = true → row.outcome = .rejected →
      row.verified = false) (h : markNotSent binding db = .ok db') :
    MovesFolders observation db db' := by
  rw [eq_of_casFolders (folderBinding_bind h)]
  refine movesFolders_update fun row hrow hmet => ?_
  simp only [FolderReceipt.unsendable, Bool.and_eq_true, decide_eq_true_eq] at hmet
  exact FolderReceipt.unsend_moves (hsound.rows row hrow) hmet.2 (hslip row hrow hmet.1)

/-- `_mark_unbound_not_sent`. -/
theorem markUnboundNotSent_moves (hsound : db.FoldersSound)
    (h : markUnboundNotSent binding db = .ok db') : MovesFolders observation db db' := by
  have h := folderBinding_bind h
  cases h
  refine movesFolders_update fun row hrow hmet => ?_
  simp only [Bool.and_eq_true, decide_eq_true_eq] at hmet
  exact FolderReceipt.giveUp_moves (hsound.rows row hrow) hmet.1.2 (Or.inr rfl)

end McpTelegram
