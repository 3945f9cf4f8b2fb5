import McpTelegram.Foundations.Run
import McpTelegram.Receipts.FolderLoops
import McpTelegram.Receipts.ContactTable

/-!
# Runs of the receipt tables

The gateway, the startup recovery, the cancellation handlers and the observations as actions on one
store, in any order.  An action that raises leaves the store as it was.  Besides the store the world
remembers every reservation of verifications that was handed out: a result or a release names one of
them, any time later and any number of times.
-/

namespace McpTelegram

open Foundations ReceiptStore

variable {db db' : ReceiptStore} {i : ℕ}

/-- The store and the reservations that were handed out. -/
structure ReceiptWorld where
  db : ReceiptStore := {}
  held : List (ℤ × List ReservedVerification) := []

/-- The receipt functions with their arguments.  What a function reads elsewhere (the catalogue
version and its rules, the clock, the guards, the contact state) is an argument of its action. -/
inductive ReceiptAction
  | insertFolder (binding : NativeWriteReceiptBinding)
      (operationFingerprint expectedVersion : String) (before intended : Option String) (now : ℤ)
  | issuePermit (binding : NativeWriteReceiptBinding) (version : String) (catalog : Option String)
  | bindFolder (binding : NativeWriteReceiptBinding) (attemptId : String)
  | recordFolder (binding : NativeWriteReceiptBinding) (attemptId : String)
      (outcome : ReceiptOutcome) (now : ℤ)
  | recoverFolder (binding : NativeWriteReceiptBinding) (attemptId : String) (now : ℤ)
  | recoverFolders (scope : TelegramAuthScope) (now : ℤ)
  | markUnchanged (binding : NativeWriteReceiptBinding) (version : String) (guard : Bool)
      (catalog : Option String)
  | markNotSent (binding : NativeWriteReceiptBinding)
  | markUnboundNotSent (binding : NativeWriteReceiptBinding)
  | reserveVerification (accountId : ℤ) (operationKey : Option String) (now : ℤ) (force : Bool)
  | finishVerification (accountId : ℤ) (receipts : List ReservedVerification)
      (observationOrder : ℕ) (guard : Bool) (catalog : Option String) (rules : ℤ → Option String)
  | releaseVerification (accountId : ℤ) (receipts : List ReservedVerification) (now : ℤ)
  | refineFolders (accountId : ℤ) (observationOrder : ℕ) (definitions : ℤ → Option String)
      (complete : Bool) (affectedFolderId : Option ℤ)
  | reserveContact (binding : NativeWriteReceiptBinding) (request : ContactReservation)
      (notes : Bool)
  | bindContact (binding : NativeWriteReceiptBinding) (attemptId : String)
  | recordContact (binding : NativeWriteReceiptBinding) (attemptId : String)
      (outcome : ReceiptOutcome)
  | recoverContact (binding : NativeWriteReceiptBinding) (attemptId : String)
  | recoverContacts (scope : TelegramAuthScope)
  | rejectUnclaimed (binding : NativeWriteReceiptBinding)
  | refineUnknown (accountId entityId : ℤ) (order : ℕ) (state : ContactCommandState) (guard : Bool)
  | recordVerification (binding : NativeWriteReceiptBinding) (order : ℕ)
      (result : ContactVerification) (guard guardInside : Bool)
  | refineAcknowledged (accountId entityId : ℤ) (order : ℕ) (state : ContactCommandState)
      (guard : Bool)

/-- The order of the observation that an action publishes. -/
def ReceiptAction.observation : ReceiptAction → Option ℕ
  | .finishVerification _ _ order _ _ _ => some order
  | .refineFolders _ order _ _ _ => some order
  | .refineUnknown _ _ order _ _ => some order
  | .recordVerification _ order _ _ _ => some order
  | .refineAcknowledged _ _ order _ _ => some order
  | _ => none

section Step

-- `contact_fingerprint`, a digest of its arguments
variable (contactFingerprint : String → ℤ → String → String → String → String)

/-- What an action does to the store. -/
def ReceiptAction.apply (db : ReceiptStore) : ReceiptAction → Except ReceiptError ReceiptStore
  | .insertFolder binding operationFingerprint expectedVersion before intended now =>
    insertFolderOperation binding operationFingerprint expectedVersion before intended now db
  | .issuePermit binding version catalog =>
    Prod.fst <$> issueFolderPermit binding version catalog db
  | .bindFolder binding attemptId => bindFolderAttempt binding attemptId db
  | .recordFolder binding attemptId outcome now =>
    recordFolderOutcome binding attemptId outcome now db
  | .recoverFolder binding attemptId now =>
    Prod.fst <$> recoverFolderBinding binding attemptId now db
  | .recoverFolders scope now => .ok (McpTelegram.recoverFolders scope now db).1
  | .markUnchanged binding version guard catalog =>
    McpTelegram.markUnchanged binding version guard catalog db
  | .markNotSent binding => McpTelegram.markNotSent binding db
  | .markUnboundNotSent binding => McpTelegram.markUnboundNotSent binding db
  | .reserveVerification accountId operationKey now force =>
    .ok (reserveFolderVerification accountId operationKey now force db).1
  | .finishVerification accountId receipts observationOrder guard catalog rules =>
    Prod.fst <$>
      finishFolderVerification accountId receipts observationOrder guard catalog rules db
  | .releaseVerification accountId receipts now =>
    .ok (releaseFolderVerification accountId receipts now db)
  | .refineFolders accountId observationOrder definitions complete affectedFolderId =>
    .ok (McpTelegram.refineFolders accountId observationOrder definitions complete
      affectedFolderId db)
  | .reserveContact binding request notes =>
    Prod.fst <$> reserveContactOperation binding request notes db
  | .bindContact binding attemptId => bindContactAttempt binding attemptId db
  | .recordContact binding attemptId outcome => recordContactOutcome binding attemptId outcome db
  | .recoverContact binding attemptId => Prod.fst <$> recoverContactBinding binding attemptId db
  | .recoverContacts scope => .ok (McpTelegram.recoverContacts scope db).1
  | .rejectUnclaimed binding => .ok (McpTelegram.rejectUnclaimed binding db)
  | .refineUnknown accountId entityId order state guard =>
    .ok (McpTelegram.refineUnknown accountId entityId order state guard db).1
  | .recordVerification binding order result guard guardInside =>
    Prod.fst <$> McpTelegram.recordVerification binding order result guard guardInside db
  | .refineAcknowledged accountId entityId order state guard =>
    .ok (McpTelegram.refineAcknowledged contactFingerprint accountId entityId order state guard
      db).1

/-- The reservations after an action. -/
def ReceiptWorld.heldAfter (w : ReceiptWorld) : ReceiptAction →
    List (ℤ × List ReservedVerification)
  | .reserveVerification accountId operationKey now force =>
    (accountId, (reserveFolderVerification accountId operationKey now force w.db).2) :: w.held
  | _ => w.held

/-- A result or a release names a reservation that was handed out. -/
def ReceiptWorld.holds (w : ReceiptWorld) : ReceiptAction → Bool
  | .finishVerification accountId receipts _ _ _ _ => (accountId, receipts) ∈ w.held
  | .releaseVerification accountId receipts _ => (accountId, receipts) ∈ w.held
  | _ => true

/-- One action.  Where it raises, nothing is stored. -/
def receiptStep (w : ReceiptWorld) (action : ReceiptAction) : Option ReceiptWorld :=
  if w.holds action then
    match action.apply contactFingerprint w.db with
    | .ok db => some ⟨db, w.heldAfter action⟩
    | .error _ => some w
  else none

end Step

/-! ## The slips -/

/-- The action avoids two slips: no folder receipt is reserved beside a pending rival whose
verification the reservation pass has already exhausted, and no not-sent mark meets a rejected
receipt that has a verification result. -/
def AvoidsSlips (w : ReceiptWorld) : ReceiptAction → Prop
  | .insertFolder binding _ _ _ _ _ => NoPassing binding w.db
  | .markNotSent binding => ∀ row ∈ w.db.folders, row.boundBy binding = true →
      row.outcome = .rejected → row.verified = false
  | _ => True

/-! ## One action -/

/-- The invariant of the world. -/
structure ReceiptWorld.Sound (w : ReceiptWorld) : Prop where
  folders : w.db.FoldersSound
  contacts : w.db.ContactsSound
  held : ∀ reservation ∈ w.held, Dispatched w.db reservation.1 reservation.2

/-- The empty tables are sound. -/
theorem receiptWorld_sound : ({} : ReceiptWorld).Sound :=
  ⟨⟨List.nodup_nil, fun _ hrow => absurd hrow List.not_mem_nil, fun _ _ => Nat.zero_le _,
      fun _ => Nat.zero_le _⟩,
    ⟨List.nodup_nil, fun _ hrow => absurd hrow List.not_mem_nil, fun _ _ => Nat.zero_le _⟩,
    fun _ hheld => absurd hheld List.not_mem_nil⟩

/-- The rows of both tables are carried on. -/
structure ReceiptsKept (db db' : ReceiptStore) : Prop where
  folders : Carried FolderKept db.folders db'.folders
  contacts : Carried ContactKept db.contacts db'.contacts

theorem ReceiptsKept.refl (db : ReceiptStore) : ReceiptsKept db db :=
  ⟨carried_refl FolderKept.refl _, carried_refl ContactKept.refl _⟩

/-- Keeping composes. -/
theorem ReceiptsKept.trans {db'' : ReceiptStore} (h : ReceiptsKept db db')
    (h' : ReceiptsKept db' db'') : ReceiptsKept db db'' :=
  ⟨carried_trans (fun _ _ _ => FolderKept.trans) h.folders h'.folders,
    carried_trans (fun _ _ _ => ContactKept.trans) h.contacts h'.contacts⟩

/-- What one action does to the store. -/
inductive StoreMoves (action : ReceiptAction) (db db' : ReceiptStore) : Prop
  /-- It moves the rows of the folder table. -/
  | folders (h : MovesFolders action.observation db db')
  /-- It moves the rows of the contact table. -/
  | contacts (h : MovesContacts action.observation db db')
  /-- It inserts a folder receipt. -/
  | folderInserted (binding : NativeWriteReceiptBinding) (h : FolderInserted binding db db')
      (hsound : db'.FoldersSound)
  /-- It inserts a contact receipt. -/
  | contactInserted (binding : NativeWriteReceiptBinding) (h : ContactInserted binding db db')
      (hsound : db'.ContactsSound)

/-- The pair that a mapped computation answers. -/
theorem exists_of_map_fst {β : Type} {result : Except ReceiptError (ReceiptStore × β)}
    (h : Prod.fst <$> result = .ok db) : ∃ value, result = .ok (db, value) := by
  cases result with
  | error error => cases h
  | ok pair =>
    cases h
    exact ⟨pair.2, rfl⟩

variable {contactFingerprint : String → ℤ → String → String → String → String}
variable {w w' w'' : ReceiptWorld} {action : ReceiptAction}

/-- Every action that does not raise makes one of the four moves. -/
theorem storeMoves_of_apply (hsound : w.Sound) (hheld : w.holds action = true)
    (hslip : AvoidsSlips w action) (h : action.apply contactFingerprint w.db = .ok db) :
    StoreMoves action w.db db := by
  cases action with
  | insertFolder binding operationFingerprint expectedVersion before intended now =>
    have hinserted := insertFolderOperation_sound hsound.folders hslip h
    exact .folderInserted binding hinserted.2 hinserted.1
  | issuePermit binding version catalog =>
    obtain ⟨issued, h⟩ := exists_of_map_fst h
    exact .folders (issueFolderPermit_moves h)
  | bindFolder binding attemptId => exact .folders (bindFolderAttempt_moves hsound.folders h)
  | recordFolder binding attemptId outcome now =>
    exact .folders (recordFolderOutcome_moves hsound.folders h)
  | recoverFolder binding attemptId now =>
    obtain ⟨changed, h⟩ := exists_of_map_fst h
    exact .folders (recoverFolderBinding_moves hsound.folders h)
  | recoverFolders scope now =>
    cases h
    exact .folders (recoverFolders_moves scope now hsound.folders)
  | markUnchanged binding version guard catalog =>
    exact .folders (markUnchanged_moves hsound.folders h)
  | markNotSent binding => exact .folders (markNotSent_moves hsound.folders hslip h)
  | markUnboundNotSent binding => exact .folders (markUnboundNotSent_moves hsound.folders h)
  | reserveVerification accountId operationKey now force =>
    cases h
    exact .folders
      (reserveFolderVerification_moves accountId operationKey now force hsound.folders).1
  | finishVerification accountId receipts observationOrder guard catalog rules =>
    obtain ⟨changed, h⟩ := exists_of_map_fst h
    have hmem : (accountId, receipts) ∈ w.held := of_decide_eq_true hheld
    exact .folders (finishFolderVerification_moves hsound.folders (hsound.held _ hmem) h)
  | releaseVerification accountId receipts now =>
    cases h
    exact .folders (releaseFolderVerification_moves accountId receipts now w.db)
  | refineFolders accountId observationOrder definitions complete affectedFolderId =>
    cases h
    exact .folders (refineFolders_moves accountId observationOrder definitions complete
      affectedFolderId hsound.folders)
  | reserveContact binding request notes =>
    obtain ⟨⟨reserved, outcome⟩, h⟩ := exists_of_map_fst h
    obtain ⟨hsound', ⟨rfl, -, -⟩ | ⟨-, hinserted⟩⟩ :=
      reserveContactOperation_sound hsound.contacts h
    · exact .contacts (MovesContacts.refl _)
    · exact .contactInserted binding hinserted hsound'
  | bindContact binding attemptId => exact .contacts (bindContactAttempt_moves hsound.contacts h)
  | recordContact binding attemptId outcome =>
    exact .contacts (recordContactOutcome_moves hsound.contacts h)
  | recoverContact binding attemptId =>
    obtain ⟨changed, h⟩ := exists_of_map_fst h
    exact .contacts (terminalContact_moves (by simp) hsound.contacts h)
  | recoverContacts scope =>
    cases h
    exact .contacts (recoverContacts_moves scope hsound.contacts)
  | rejectUnclaimed binding =>
    cases h
    exact .contacts (rejectUnclaimed_moves binding hsound.contacts)
  | refineUnknown accountId entityId order state guard =>
    cases h
    exact .contacts (refineUnknown_moves accountId entityId order state guard hsound.contacts)
  | recordVerification binding order result guard guardInside =>
    obtain ⟨changed, h⟩ := exists_of_map_fst h
    exact .contacts (recordVerification_moves h)
  | refineAcknowledged accountId entityId order state guard =>
    cases h
    exact .contacts (refineAcknowledged_moves contactFingerprint accountId entityId order state
      guard hsound.contacts)

/-- An action raises and stores nothing, or it makes one of the four moves. -/
theorem storeMoves_of_step (hsound : w.Sound) (hslip : AvoidsSlips w action)
    (h : receiptStep contactFingerprint w action = some w') :
    w' = w ∨ StoreMoves action w.db w'.db ∧ w'.held = w.heldAfter action ∧
      w'.db = (action.apply contactFingerprint w.db).toOption.getD w.db := by
  unfold receiptStep at h
  split at h
  · rename_i hheld
    split at h
    · rename_i db hdb
      cases h
      exact Or.inr ⟨storeMoves_of_apply hsound hheld hslip hdb, rfl, by rw [hdb]; rfl⟩
    · cases h
      exact Or.inl rfl
  · cases h

/-- What an action does to the rows, whichever move it makes. -/
theorem StoreMoves.kept (h : StoreMoves action db db') : ReceiptsKept db db' := by
  cases h with
  | folders h =>
    refine ⟨carried_of_forall₂ (h.rows.imp fun _ _ hmoves => hmoves.toFolderKept), ?_⟩
    rw [h.contacts]
    exact carried_refl ContactKept.refl _
  | contacts h =>
    refine ⟨?_, carried_of_forall₂ (h.rows.imp fun _ _ hmoves => hmoves.toContactKept)⟩
    rw [h.folders]
    exact carried_refl FolderKept.refl _
  | folderInserted binding h _ =>
    obtain ⟨row, hrows, -⟩ := h.rows
    refine ⟨?_, ?_⟩
    · rw [hrows]
      exact carried_append (fun row _ => FolderKept.refl row) row
    · rw [h.contacts]
      exact carried_refl ContactKept.refl _
  | contactInserted binding h _ =>
    obtain ⟨row, hrows, -⟩ := h.rows
    refine ⟨?_, ?_⟩
    · rw [h.folders]
      exact carried_refl FolderKept.refl _
    · rw [hrows]
      exact carried_append (fun row _ => ContactKept.refl row) row

/-- The invariant of the folder table reads that table only. -/
theorem ReceiptStore.FoldersSound.congr (h : db.FoldersSound) (hsame : db'.folders = db.folders) :
    db'.FoldersSound :=
  ⟨hsame ▸ h.unique, hsame ▸ h.rows, hsame ▸ h.targets, hsame ▸ h.creations⟩

theorem ReceiptStore.ContactsSound.congr (h : db.ContactsSound) (hsame : db'.contacts = db.contacts) :
    db'.ContactsSound :=
  ⟨hsame ▸ h.unique, hsame ▸ h.rows, hsame ▸ h.entities⟩

/-- A move keeps the invariants of both tables. -/
theorem StoreMoves.sound (h : StoreMoves action db db') (hfolders : db.FoldersSound)
    (hcontacts : db.ContactsSound) : db'.FoldersSound ∧ db'.ContactsSound := by
  cases h with
  | folders h => exact ⟨hfolders.moves h, hcontacts.congr h.contacts⟩
  | contacts h => exact ⟨hfolders.congr h.folders, hcontacts.moves h⟩
  | folderInserted binding h hsound => exact ⟨hsound, hcontacts.congr h.contacts⟩
  | contactInserted binding h hsound => exact ⟨hfolders.congr h.folders, hsound⟩

/-- Carried folder rows are still in the table. -/
theorem ReceiptsKept.exists_folder (h : ReceiptsKept db db') :
    ∀ row ∈ db.folders, ∃ row' ∈ db'.folders, FolderKept row row' := by
  intro row hrow
  obtain ⟨i, hi⟩ := List.mem_iff_getElem?.mp hrow
  obtain ⟨row', hi', hkept⟩ := h.folders.getElem? hi
  exact ⟨row', List.mem_of_getElem? hi', hkept⟩

/-- One action keeps the receipts and the invariant. -/
theorem receiptStep_sound (hsound : w.Sound) (hslip : AvoidsSlips w action)
    (h : receiptStep contactFingerprint w action = some w') :
    w'.Sound ∧ ReceiptsKept w.db w'.db := by
  rcases storeMoves_of_step hsound hslip h with rfl | ⟨hmoves, hheld, hdb⟩
  · exact ⟨hsound, ReceiptsKept.refl _⟩
  · obtain ⟨hfolders, hcontacts⟩ := hmoves.sound hsound.folders hsound.contacts
    refine ⟨⟨hfolders, hcontacts, fun reservation hreservation => ?_⟩, hmoves.kept⟩
    have hold : ∀ reservation ∈ w.held, Dispatched w'.db reservation.1 reservation.2 :=
      fun reservation hreservation =>
        (hsound.held reservation hreservation).carried hsound.folders hmoves.kept.exists_folder
    rw [hheld] at hreservation
    cases action with
    | reserveVerification accountId operationKey now force =>
      rcases List.mem_cons.mp hreservation with rfl | hreservation
      · -- a reservation that is handed out now names what it just selected
        rw [hdb]
        exact (@reserveFolderVerification_moves w.db none accountId operationKey now force
          hsound.folders).2
      · exact hold reservation hreservation
    | _ => exact hold reservation hreservation

/-! ## Results and operation keys -/

/-- The results that an action sets: each comes from an observation ordered after the boundary of
its receipt, and a receipt is born without one.  A contact receipt that is born unchanged was
verified by the check of its reservation. -/
structure ResultsObserved (action : ReceiptAction) (db db' : ReceiptStore) : Prop where
  folders : ∀ (i : ℕ) (row row' : FolderReceipt), db.folders[i]? = some row →
    db'.folders[i]? = some row' →
    row'.verified = true → row'.verification = row.verification ∨
      ∃ order boundary, action.observation = some order ∧ row'.dispatchOrder = some boundary ∧
        boundary < order
  contacts : ∀ (i : ℕ) (row row' : ContactReceipt), db.contacts[i]? = some row →
    db'.contacts[i]? = some row' →
    row'.verified = true → row'.verification = row.verification ∨
      ∃ order boundary, action.observation = some order ∧
        row'.terminalObservationOrder = some boundary ∧ boundary < order
  foldersBorn : ∀ (i : ℕ) (row' : FolderReceipt), db.folders[i]? = none →
    db'.folders[i]? = some row' → row'.verified = false
  contactsBorn : ∀ (i : ℕ) (row' : ContactReceipt), db.contacts[i]? = none →
    db'.contacts[i]? = some row' → row'.verified = false ∨ row'.outcome = .unchanged

/-- Nothing is born where nothing is inserted. -/
theorem not_born {α : Type*} {R : α → α → Prop} {rows rows' : List α}
    (h : List.Forall₂ R rows rows') {row' : α} (hnone : rows[i]? = none)
    (hrow' : rows'[i]? = some row') : False := by
  rw [List.getElem?_eq_none_iff, h.length_eq, ← List.getElem?_eq_none_iff, hrow'] at hnone
  cases hnone

/-- The row behind the others is the inserted one. -/
theorem eq_of_born {α : Type*} {rows : List α} {row row' : α} (hnone : rows[i]? = none)
    (hrow' : (rows ++ [row])[i]? = some row') : row' = row := by
  rw [List.getElem?_append_right (List.getElem?_eq_none_iff.mp hnone)] at hrow'
  exact List.mem_singleton.mp (List.mem_of_getElem? hrow')

/-- A row before an inserted one is what it was. -/
theorem eq_of_not_born {α : Type*} {rows : List α} {row row' new : α} (hrow : rows[i]? = some row)
    (hrow' : (rows ++ [new])[i]? = some row') : row' = row := by
  obtain ⟨hi, -⟩ := List.getElem?_eq_some_iff.mp hrow
  rw [List.getElem?_append_left hi, hrow] at hrow'
  exact (Option.some.inj hrow').symm

/-- An action that stores nothing sets no result. -/
theorem ResultsObserved.refl (db : ReceiptStore) : ResultsObserved action db db where
  folders i row row' hrow hrow' _ := by
    rw [hrow, Option.some.injEq] at hrow'
    exact Or.inl (hrow' ▸ rfl)
  contacts i row row' hrow hrow' _ := by
    rw [hrow, Option.some.injEq] at hrow'
    exact Or.inl (hrow' ▸ rfl)
  foldersBorn i row' hnone hrow' := by
    rw [hnone] at hrow'
    cases hrow'
  contactsBorn i row' hnone hrow' := by
    rw [hnone] at hrow'
    cases hrow'

/-- The results that a move sets are observed. -/
theorem StoreMoves.observed (h : StoreMoves action db db') : ResultsObserved action db db' := by
  cases h with
  | folders h =>
    have hsame : ResultsObserved action db db := ResultsObserved.refl db
    refine ⟨fun i row row' hrow hrow' hverified => ?_,
      fun i row row' hrow hrow' => hsame.contacts i row row' hrow (h.contacts ▸ hrow'),
      fun i row' hnone hrow' => (not_born h.rows hnone hrow').elim,
      fun i row' hnone hrow' => hsame.contactsBorn i row' hnone (h.contacts ▸ hrow')⟩
    exact ((rel_of_getElem? h.rows hrow hrow').observed hverified).imp id And.right
  | contacts h =>
    have hsame : ResultsObserved action db db := ResultsObserved.refl db
    refine ⟨fun i row row' hrow hrow' =>
      hsame.folders i row row' hrow (h.folders ▸ hrow'), fun i row row' hrow hrow' hverified => ?_,
      fun i row' hnone hrow' =>
      hsame.foldersBorn i row' hnone (h.folders ▸ hrow'),
      fun i row' hnone hrow' => (not_born h.rows hnone hrow').elim⟩
    exact ((rel_of_getElem? h.rows hrow hrow').observed hverified).imp id And.right
  | folderInserted binding h _ =>
    have hsame : ResultsObserved action db db := ResultsObserved.refl db
    obtain ⟨new, hrows, -, hverified⟩ := h.rows
    refine ⟨fun i row row' hrow hrow' _ => Or.inl ?_,
      fun i row row' hrow hrow' => hsame.contacts i row row' hrow (h.contacts ▸ hrow'),
      fun i row' hnone hrow' => ?_,
      fun i row' hnone hrow' => hsame.contactsBorn i row' hnone (h.contacts ▸ hrow')⟩
    · rw [hrows] at hrow'
      rw [eq_of_not_born hrow hrow']
    · rw [hrows] at hrow'
      rw [eq_of_born hnone hrow', hverified]
  | contactInserted binding h _ =>
    have hsame : ResultsObserved action db db := ResultsObserved.refl db
    obtain ⟨new, hrows, hnew⟩ := h.rows
    refine ⟨fun i row row' hrow hrow' =>
      hsame.folders i row row' hrow (h.folders ▸ hrow'), fun i row row' hrow hrow' _ => Or.inl ?_,
      fun i row' hnone hrow' =>
      hsame.foldersBorn i row' hnone (h.folders ▸ hrow'),
      fun i row' hnone hrow' => ?_⟩
    · rw [hrows] at hrow'
      rw [eq_of_not_born hrow hrow']
    · rw [hrows] at hrow'
      rw [eq_of_born hnone hrow']
      exact hnew.imp And.right id

/-- An operation key has one owner.  A second folder receipt under it is refused.  A second contact
reservation under it changes nothing, and it is answered, with the outcome of the owner, only for
the account and the request of the owner. -/
structure KeysOwned (db : ReceiptStore) : Prop where
  folders : ∀ binding operationFingerprint expectedVersion before intended now db',
    (binding.accountId, binding.operationKey) ∈ db.folders.map (·.primaryKey) →
      insertFolderOperation binding operationFingerprint expectedVersion before intended now db ≠
        .ok db'
  contacts : ∀ binding request notes db' reserved outcome, ∀ row ∈ db.contacts,
    row.operationKey = binding.operationKey →
      reserveContactOperation binding request notes db = .ok (db', reserved, outcome) →
        db' = db ∧ reserved = false ∧ outcome = row.outcome ∧
          row.accountId = binding.accountId ∧ row.requestFingerprint = request.fingerprint

/-- A prior outcome is the one of the only receipt under the key. -/
theorem owner_of_existingOperation {binding : NativeWriteReceiptBinding} {fingerprint : String}
    {outcome : ReceiptOutcome} {row : ContactReceipt} (hrow : row ∈ db.contacts)
    (hkey : row.operationKey = binding.operationKey)
    (h : existingOperation binding fingerprint db = .ok (some outcome)) :
    outcome = row.outcome ∧ row.accountId = binding.accountId ∧
      row.requestFingerprint = fingerprint := by
  have hmem : row ∈ db.contacts.filter (·.operationKey = binding.operationKey) :=
    List.mem_filter.mpr ⟨hrow, by simpa using hkey⟩
  unfold existingOperation at h
  split at h
  · cases h
  · rename_i owner howner
    rw [howner, List.mem_singleton] at hmem
    subst hmem
    split at h
    · rename_i hsame
      cases h
      exact ⟨rfl, hsame⟩
    · cases h
  · cases h

/-- Every sound store keeps its keys owned. -/
theorem keysOwned (hsound : db.ContactsSound) : KeysOwned db where
  folders binding operationFingerprint expectedVersion before intended now db' hkey h := by
    have h := folderBinding_bind h
    split at h
    · cases h
    · cases h
  contacts binding request notes db' reserved outcome row hrow hkey h := by
    obtain ⟨-, ⟨rfl, hreserved, hprior⟩ | ⟨-, hinserted⟩⟩ := reserveContactOperation_sound hsound h
    · exact ⟨rfl, hreserved, owner_of_existingOperation hrow hkey hprior⟩
    · exact absurd hkey (hinserted.fresh row hrow)

/-! ## Runs -/

/-- The quarantine: at most one receipt of a target is unresolved, at most one folder creation of an
account, and at most one contact receipt of an entity. -/
structure OneUnresolved (db : ReceiptStore) : Prop where
  targets : ∀ accountId target, db.folders.countP (unresolvedFor accountId target) ≤ 1
  creations : ∀ accountId, db.folders.countP (unresolvedCreation accountId) ≤ 1
  entities : ∀ accountId entityId, db.contacts.countP (quarantining accountId entityId) ≤ 1

/-- A run that avoids the slips keeps the receipts and the invariant. -/
theorem receiptRun_sound {actions : List ReceiptAction} (hsound : w.Sound)
    (hslips : Along (receiptStep contactFingerprint) AvoidsSlips w actions)
    (h : run (receiptStep contactFingerprint) w actions = some w') :
    w'.Sound ∧ ReceiptsKept w.db w'.db := by
  refine run_along (I := fun t : ReceiptWorld => t.Sound ∧ ReceiptsKept w.db t.db) ?_
    ⟨hsound, ReceiptsKept.refl w.db⟩ hslips h
  rintro s action t ⟨hs, hkept⟩ hslip hstep
  obtain ⟨ht, hkept'⟩ := receiptStep_sound hs hslip hstep
  exact ⟨ht, hkept.trans hkept'⟩

/-- In every interleaving that avoids the two slips the quarantine holds in every state, between any
two states every receipt keeps its outcome once it is settled, its attempt, its boundary and its
result, every result comes from an observation ordered after the boundary, and a used operation key
opens no second receipt. -/
theorem native_receipts_settle_once {actions later : List ReceiptAction}
    (hslips : Along (receiptStep contactFingerprint) AvoidsSlips {} actions)
    (h : run (receiptStep contactFingerprint) {} actions = some w)
    (hslips' : Along (receiptStep contactFingerprint) AvoidsSlips w later)
    (h' : run (receiptStep contactFingerprint) w later = some w') :
    OneUnresolved w.db ∧ ReceiptsKept w.db w'.db ∧ KeysOwned w.db ∧
      ∀ action w'', AvoidsSlips w action → receiptStep contactFingerprint w action = some w'' →
        ResultsObserved action w.db w''.db := by
  obtain ⟨hsound, -⟩ := receiptRun_sound receiptWorld_sound hslips h
  obtain ⟨-, hkept⟩ := receiptRun_sound hsound hslips' h'
  refine ⟨⟨hsound.folders.targets, hsound.folders.creations, hsound.contacts.entities⟩, hkept,
    keysOwned hsound.contacts, fun action w'' hslip hstep => ?_⟩
  rcases storeMoves_of_step hsound hslip hstep with rfl | ⟨hmoves, -⟩
  · exact ResultsObserved.refl _
  · exact hmoves.observed

/-! ## Examples of runs -/

/-- A text of sixty-four characters. -/
def digestText : String := String.ofList (List.replicate 64 'a')

/-- A binding of account one. -/
def sampleBinding (domain : NativeWriteDomain) (action : String) (target : ℤ)
    (operationKey : String) (hfields : operationKey ≠ "" ∧ action ≠ "" ∧ digestText ≠ "")
    (hidentity : (0 : ℤ) < 1 ∧ (0 : ℤ) < 1 ∧ 0 < target ∧ (0 : ℤ) < 1) :
    NativeWriteReceiptBinding where
  domain := domain
  accountId := 1
  dcId := 1
  keyId := 1
  operationKey := operationKey
  action := action
  target := target
  semanticFingerprint := digestText
  bindingRevision := 1
  identity := hidentity
  fields := hfields

/-- The creation of folder two. -/
def folderCreation : NativeWriteReceiptBinding :=
  sampleBinding .folder "create" 2 "first" (by decide) (by decide)

/-- The update of folder two. -/
def folderUpdate : NativeWriteReceiptBinding :=
  sampleBinding .folder "update" 2 "second" (by decide) (by decide)

/-- The creation of contact two. -/
def contactCreation : NativeWriteReceiptBinding :=
  sampleBinding .contact "create" 2 "first" (by decide) (by decide)

/-- The creation of contact three. -/
def otherCreation : NativeWriteReceiptBinding :=
  sampleBinding .contact "create" 3 "second" (by decide) (by decide)

/-- A reservation that changes something, and one that does not. -/
def sampleReservation (unchanged : Bool) : ContactReservation where
  fingerprint := digestText
  expectedVersion := digestText
  verificationFingerprint := digestText
  unchanged := unchanged
  noOpCheck := some true
  noOpOrder := some 1

/-- The store after some actions, none of which asks for a contact fingerprint. -/
def storeAfter (actions : List ReceiptAction) : Option ReceiptStore :=
  (run (receiptStep fun _ _ _ _ _ => "") {} actions).map (·.db)

/-- A folder creation is reserved, bound and acknowledged, and verified by a later observation. -/
theorem native_receipts_settle_once_creation :
    OneUnresolved ((storeAfter [.insertFolder folderCreation "" "" none (some "d") 0,
      .bindFolder folderCreation "attempt"]).getD {}) := by
  have hslips : Along (receiptStep fun _ _ _ _ _ => "") AvoidsSlips {}
      [.insertFolder folderCreation "" "" none (some "d") 0,
        .bindFolder folderCreation "attempt"] :=
    ⟨fun _ hrow => absurd hrow List.not_mem_nil, fun _ _ => ⟨trivial, fun _ _ => trivial⟩⟩
  have hslips' : ∀ w : ReceiptWorld, Along (receiptStep fun _ _ _ _ _ => "") AvoidsSlips w
      [.recordFolder folderCreation "attempt" .acknowledged 1,
        .refineFolders 1 2 (fun _ => some "d") true none] :=
    fun _ => ⟨trivial, fun _ _ => ⟨trivial, fun _ _ => trivial⟩⟩
  exact (native_receipts_settle_once hslips (by rfl) (hslips' _) (by rfl)).1

/-- Three runs.  Two contact creations of one account are unresolved at once, for different
contacts; a contact receipt is born verified and without a boundary; a pending folder receipt whose
verification was exhausted does not block a second one for its target; and a not-sent mark replaces
the result of a rejected folder receipt. -/
theorem quarantine_counterexample :
    (storeAfter [.reserveContact contactCreation (sampleReservation false) false,
        .reserveContact otherCreation (sampleReservation false) false]).map
      (fun db => db.contacts.countP fun row =>
        row.accountId = 1 && row.action = "create" && row.unresolved) = some 2 ∧
    (storeAfter [.reserveContact contactCreation (sampleReservation true) false]).map
      (fun db => db.contacts.map fun row => (row.verified, row.terminalObservationOrder)) =
        some [(true, none)] ∧
    (storeAfter [.insertFolder folderCreation "" "" none (some "d") 0,
        .reserveVerification 1 none 900 false,
        .insertFolder folderUpdate "" "" none (some "d") 900]).map
      (fun db => db.folders.countP (unresolvedFor 1 2)) = some 2 ∧
    (storeAfter [.insertFolder folderCreation "" "" none (some "d") 0,
        .bindFolder folderCreation "attempt",
        .recordFolder folderCreation "attempt" .rejected 1,
        .refineFolders 1 2 (fun _ => some "d") true none]).map
      (fun db => db.folders.map (·.verification)) = some [some .matched] ∧
    (storeAfter [.insertFolder folderCreation "" "" none (some "d") 0,
        .bindFolder folderCreation "attempt",
        .recordFolder folderCreation "attempt" .rejected 1,
        .refineFolders 1 2 (fun _ => some "d") true none,
        .markNotSent folderCreation]).map
      (fun db => db.folders.map (·.verification)) = some [some .notRequired] := by
  decide +kernel

end McpTelegram
