import McpTelegram.Receipts.Contact

/-!
# The contact receipt table

What no statement of the contact table ever undoes, the invariant of the table, and for every
statement that it keeps them.
-/

namespace McpTelegram

open Foundations

variable {row row' row'' : ContactReceipt} {db db' db'' : ReceiptStore} {observation : Option ℕ}
variable {order boundary : ℕ} {result : ContactVerification} {binding : NativeWriteReceiptBinding}
    {attemptId : String} {outcome : ReceiptOutcome}

namespace ContactReceipt

/-- A pending receipt has no boundary and waits for its verification; an unknown one is verified
only by being observed. -/
structure Sound (row : ContactReceipt) : Prop where
  fresh : row.outcome = .pending →
    row.terminalObservationOrder = none ∧ row.verification = .pending
  released : row.outcome = .unknown →
    row.verification = .pending ∨ row.verification = .observedAfterUnknown

end ContactReceipt

/-- What a receipt keeps from one moment to any later one. -/
structure ContactKept (row row' : ContactReceipt) : Prop where
  /-- The keys and the entity never change. -/
  key : row'.primaryKey = row.primaryKey
  entity : row'.entityId = row.entityId
  /-- The row invariant stays. -/
  sound : row.Sound → row'.Sound
  /-- An outcome other than pending is final. -/
  outcome : row.outcome ≠ .pending → row'.outcome = row.outcome
  /-- A bound attempt is final. -/
  attempt : ∀ attemptId, row.attemptId = some attemptId → row'.attemptId = some attemptId
  /-- The terminal boundary is final. -/
  boundary : ∀ order, row.terminalObservationOrder = some order →
    row'.terminalObservationOrder = some order
  /-- A verification result is final. -/
  result : row.verified = true → row'.verification = row.verification
  /-- A resolved receipt is not unresolved again. -/
  unresolved : row'.unresolved = true → row.unresolved = true

/-- What one step does: it keeps what is to be kept, and a new result comes from an observation
ordered after the boundary of a receipt that is not pending. -/
structure ContactMoves (observation : Option ℕ) (row row' : ContactReceipt) : Prop
    extends ContactKept row row' where
  observed : row'.verified = true → row'.verification = row.verification ∨
    row'.outcome ≠ .pending ∧
      ∃ order boundary, observation = some order ∧
        row'.terminalObservationOrder = some boundary ∧ boundary < order

theorem ContactKept.refl (row : ContactReceipt) : ContactKept row row :=
  ⟨rfl, rfl, id, fun _ => rfl, fun _ => id, fun _ => id, fun _ => rfl, id⟩

theorem ContactKept.trans (h : ContactKept row row') (h' : ContactKept row' row'') :
    ContactKept row row'' where
  key := h'.key.trans h.key
  entity := h'.entity.trans h.entity
  sound := h'.sound ∘ h.sound
  outcome hsettled := by
    have hsame := h.outcome hsettled
    rw [h'.outcome (by rw [hsame]; exact hsettled), hsame]
  attempt attemptId hbound := h'.attempt attemptId (h.attempt attemptId hbound)
  boundary order horder := h'.boundary order (h.boundary order horder)
  result hverified := by
    have hsame := h.result hverified
    have hverified' : row'.verified = true := by
      rw [ContactReceipt.verified, hsame]
      exact hverified
    rw [h'.result hverified', hsame]
  unresolved hunresolved := h.unresolved (h'.unresolved hunresolved)

theorem ContactMoves.refl (row : ContactReceipt) : ContactMoves observation row row :=
  ⟨ContactKept.refl row, fun _ => Or.inl rfl⟩

theorem ContactMoves.trans (h : ContactMoves observation row row')
    (h' : ContactMoves observation row' row'') : ContactMoves observation row row'' := by
  refine ⟨h.toContactKept.trans h'.toContactKept, fun hverified => ?_⟩
  rcases h'.observed hverified with hsame | hobserved
  · have hverified' : row'.verified = true := by
      rw [ContactReceipt.verified, ← hsame]
      exact hverified
    rcases h.observed hverified' with hsame' | ⟨hsettled, order, boundary, horder, hboundary, hlt⟩
    · exact Or.inl (hsame.trans hsame')
    · exact Or.inr ⟨by rw [h'.outcome hsettled]; exact hsettled, order, boundary, horder,
        h'.boundary boundary hboundary, hlt⟩
  · exact Or.inr hobserved

/-! ## The two kinds of changed rows -/

/-- A change of a pending receipt that binds no second attempt and keeps its verification. -/
theorem contactMoves_of_pending (hsound : row.Sound) (hpending : row.outcome = .pending)
    (hkey : row'.primaryKey = row.primaryKey) (hentity : row'.entityId = row.entityId)
    (hattempt : ∀ attemptId, row.attemptId = some attemptId → row'.attemptId = some attemptId)
    (hverification : row'.verification = row.verification)
    (hfresh : row'.outcome = .pending → row'.terminalObservationOrder = none) :
    ContactMoves observation row row' where
  key := hkey
  entity := hentity
  sound _ := by
    have hwaiting := (hsound.fresh hpending).2
    exact ⟨fun h => ⟨hfresh h, hverification.trans hwaiting⟩,
      fun _ => Or.inl (hverification.trans hwaiting)⟩
  outcome h := absurd hpending h
  attempt := hattempt
  boundary order horder := by
    rw [(hsound.fresh hpending).1] at horder
    cases horder
  result _ := hverification
  unresolved _ := by simp [ContactReceipt.unresolved, hpending]
  observed _ := Or.inl hverification

/-- A result for a settled receipt without one, from a later observation. -/
theorem ContactReceipt.verify_moves
    (houtcome : row.outcome = .unknown ∧ result = .observedAfterUnknown ∨
      row.outcome = .acknowledged) (hverified : row.verified = false)
    (hboundary : row.terminalObservationOrder = some boundary) (hlt : boundary < order) :
    ContactMoves (some order) row (row.verify result order) where
  key := rfl
  entity := rfl
  sound _ := by
    constructor
    · intro (h : row.outcome = .pending)
      rcases houtcome with ⟨hunknown, -⟩ | hacknowledged <;> simp_all
    · intro (h : row.outcome = .unknown)
      rcases houtcome with ⟨-, rfl⟩ | hacknowledged
      · exact Or.inr rfl
      · simp_all
  outcome _ := rfl
  attempt _ := id
  boundary _ := id
  result h := by
    rw [hverified] at h
    cases h
  unresolved h := by
    rcases houtcome with ⟨hunknown, rfl⟩ | hacknowledged
    · simp [ContactReceipt.unresolved, ContactReceipt.verify, hunknown] at h
    · simp [ContactReceipt.unresolved, ContactReceipt.verify, hacknowledged] at h
  observed _ := by
    refine Or.inr ⟨fun h : row.outcome = .pending => ?_, order, boundary, rfl, hboundary, hlt⟩
    rcases houtcome with ⟨hunknown, -⟩ | hacknowledged <;> simp_all

/-- An outstanding verification is no result. -/
theorem ContactReceipt.not_verified_of_outstanding (h : row.outstanding = true) :
    row.verified = false := by
  simp only [outstanding, List.mem_cons, List.not_mem_nil, or_false, decide_eq_true_eq] at h
  rcases h with h | h | h <;> simp [verified, h]

/-! ## The table -/

namespace ReceiptStore

/-- The receipts that quarantine an entity. -/
def quarantining (accountId entityId : ℤ) (row : ContactReceipt) : Bool :=
  row.accountId = accountId && row.entityId = entityId && row.unresolved

/-- The invariant of the contact table. -/
structure ContactsSound (db : ReceiptStore) : Prop where
  /-- The primary key is one. -/
  unique : (db.contacts.map (·.primaryKey)).Nodup
  /-- Every row is sound. -/
  rows : ∀ row ∈ db.contacts, row.Sound
  /-- At most one receipt quarantines an entity. -/
  entities : ∀ accountId entityId, db.contacts.countP (quarantining accountId entityId) ≤ 1

/-- A statement that inserts nothing moves every contact row and leaves the folder table. -/
structure MovesContacts (observation : Option ℕ) (db db' : ReceiptStore) : Prop where
  rows : List.Forall₂ (ContactMoves observation) db.contacts db'.contacts
  folders : db'.folders = db.folders

theorem MovesContacts.refl (db : ReceiptStore) : MovesContacts observation db db :=
  ⟨List.forall₂_same.mpr fun row _ => ContactMoves.refl row, rfl⟩

/-- Statements compose. -/
theorem MovesContacts.trans (h : MovesContacts observation db db')
    (h' : MovesContacts observation db' db'') : MovesContacts observation db db'' :=
  ⟨forall₂_trans (fun _ _ _ => ContactMoves.trans) h.rows h'.rows, h'.folders.trans h.folders⟩

theorem movesContacts_update {condition : ContactReceipt → Bool}
    {change : ContactReceipt → ContactReceipt}
    (h : ∀ row ∈ db.contacts, condition row = true → ContactMoves observation row (change row)) :
    MovesContacts observation db (db.updateContacts condition change) :=
  ⟨forall₂_updateWhere (fun row _ => ContactMoves.refl row) h, rfl⟩

theorem movesContacts_allocate (db : ReceiptStore) :
    MovesContacts observation db db.allocateObservationOrder :=
  ⟨(MovesContacts.refl db).rows, rfl⟩

/-- Moving rows keeps the invariant: a receipt is never unresolved again. -/
theorem ContactsSound.moves (hsound : db.ContactsSound) (h : MovesContacts observation db db') :
    db'.ContactsSound where
  unique := by
    rw [map_eq_of_forall₂ h.rows fun row row' hmoves => hmoves.key]
    exact hsound.unique
  rows row' hrow' := by
    obtain ⟨row, hrow, hmoves⟩ := exists_of_forall₂ h.rows hrow'
    exact hmoves.sound (hsound.rows row hrow)
  entities accountId entityId := by
    refine le_trans (countP_le_of_forall₂ h.rows fun row row' hmoves hp => ?_)
      (hsound.entities accountId entityId)
    have haccount : row'.accountId = row.accountId := congrArg Prod.fst hmoves.key
    simp only [quarantining, Bool.and_eq_true, decide_eq_true_eq] at hp ⊢
    exact ⟨⟨haccount.symm.trans hp.1.1, hmoves.entity.symm.trans hp.1.2⟩, hmoves.unresolved hp.2⟩

theorem ContactsSound.eq_of_key (hsound : db.ContactsSound) (hrow : row ∈ db.contacts)
    (hrow' : row' ∈ db.contacts) (hkey : row.primaryKey = row'.primaryKey) : row = row' :=
  List.inj_on_of_nodup_map hsound.unique hrow hrow' hkey

end ReceiptStore

open ReceiptStore

/-- A binding that is not refused is one of a contact. -/
theorem contactBinding_bind {β : Type} {next : Except ReceiptError β} {value : β}
    (h : (contactBinding binding >>= fun _ => next) = .ok value) : next = .ok value := by
  unfold contactBinding at h
  split at h
  · exact h
  · cases h

/-! ## Attempts and wire outcomes -/

/-- `bind_attempt`. -/
theorem bindContactAttempt_moves (hsound : db.ContactsSound)
    (h : bindContactAttempt binding attemptId db = .ok db') : MovesContacts observation db db' := by
  have h := contactBinding_bind h
  dsimp only at h
  split at h
  · cases h
  · cases h
    refine movesContacts_update fun row hrow hmet => ?_
    simp only [Bool.and_eq_true, decide_eq_true_eq, Bool.or_eq_true] at hmet
    refine contactMoves_of_pending (hsound.rows row hrow) hmet.1.2 rfl rfl (fun other hother => ?_)
      rfl fun hpending => ((hsound.rows row hrow).fresh hpending).1
    rcases hmet.2 with hattempt | hattempt
    · rw [hattempt] at hother
      cases hother
    · exact hattempt.symm.trans hother

/-- Settling a pending receipt. -/
theorem ContactReceipt.settle_moves (hsound : row.Sound) (hpending : row.outcome = .pending)
    (houtcome : outcome ≠ .pending) : ContactMoves observation row (row.settle outcome order) :=
  contactMoves_of_pending hsound hpending rfl rfl (fun _ => id) rfl fun h => absurd h houtcome

/-- `_terminal`. -/
theorem terminalContact_moves {changed : Bool} (houtcome : outcome ≠ .pending)
    (hsound : db.ContactsSound)
    (h : terminalContact binding attemptId outcome db = .ok (db', changed)) :
    MovesContacts observation db db' := by
  have h := contactBinding_bind h
  split at h
  · cases h
    exact MovesContacts.refl _
  · split at h
    · cases h
      exact MovesContacts.refl _
    · split at h
      · cases h
        exact MovesContacts.refl _
      · cases h
        refine (movesContacts_allocate db).trans (movesContacts_update fun row hrow hmet => ?_)
        simp only [Bool.and_eq_true, decide_eq_true_eq] at hmet
        exact ContactReceipt.settle_moves (hsound.rows row hrow) hmet.2 houtcome

/-- `record_wire_outcome`. -/
theorem recordContactOutcome_moves (hsound : db.ContactsSound)
    (h : recordContactOutcome binding attemptId outcome db = .ok db') :
    MovesContacts observation db db' := by
  unfold recordContactOutcome at h
  split at h
  · cases h
  · rename_i houtcome
    cases hterminal : terminalContact binding attemptId outcome db with
    | error error =>
      rw [hterminal] at h
      cases h
    | ok settled =>
      obtain ⟨settled, changed⟩ := settled
      rw [hterminal] at h
      cases changed with
      | false => cases h
      | true =>
        cases h
        refine terminalContact_moves ?_ hsound hterminal
        rintro rfl
        exact houtcome (by simp)

/-- `recover_interrupted_operations`. -/
theorem recoverContacts_moves (scope : TelegramAuthScope) (hsound : db.ContactsSound) :
    MovesContacts observation db (recoverContacts scope db).1 := by
  unfold recoverContacts
  split
  · refine (movesContacts_allocate db).trans (movesContacts_update fun row hrow hmet => ?_)
    simp only [ContactReceipt.interrupted, Bool.and_eq_true, decide_eq_true_eq] at hmet
    exact ContactReceipt.settle_moves (hsound.rows row hrow) hmet.1.1.1 (by simp)
  · exact MovesContacts.refl db

/-- `_reject_unclaimed`. -/
theorem rejectUnclaimed_moves (binding : NativeWriteReceiptBinding) (hsound : db.ContactsSound) :
    MovesContacts observation db (rejectUnclaimed binding db) := by
  refine movesContacts_update fun row hrow hmet => ?_
  simp only [Bool.and_eq_true, decide_eq_true_eq] at hmet
  exact contactMoves_of_pending (hsound.rows row hrow) hmet.1.2 rfl rfl (fun _ => id) rfl
    fun h => by cases h

/-! ## Verification -/

/-- `refine_unknown_for_observation`. -/
theorem refineUnknown_moves (accountId entityId : ℤ) (order : ℕ) (state : ContactCommandState)
    (guard : Bool) (hsound : db.ContactsSound) :
    MovesContacts (some order) db (refineUnknown accountId entityId order state guard db).1 := by
  unfold refineUnknown
  split
  · exact MovesContacts.refl db
  · refine movesContacts_update fun row hrow hmet => ?_
    simp only [ContactReceipt.releasable, Bool.and_eq_true, decide_eq_true_eq] at hmet
    obtain ⟨⟨⟨-, hunknown⟩, hnot⟩, hterminal⟩ := hmet
    obtain ⟨boundary, hboundary, hlt⟩ := (Option.any_eq_true _ _).mp hterminal
    refine ContactReceipt.verify_moves (Or.inl ⟨hunknown, rfl⟩) ?_ hboundary (of_decide_eq_true hlt)
    rcases (hsound.rows row hrow).released hunknown with hwaiting | hreleased
    · simp [ContactReceipt.verified, hwaiting]
    · exact absurd hreleased hnot

/-- An awaiting receipt takes a result. -/
theorem ContactReceipt.awaiting_moves (h : row.awaiting = true)
    (hboundary : row.terminalObservationOrder = some boundary) (hlt : boundary < order) :
    ContactMoves (some order) row (row.verify result order) := by
  simp only [awaiting, Bool.and_eq_true, decide_eq_true_eq] at h
  exact verify_moves (Or.inr h.1) (not_verified_of_outstanding h.2) hboundary hlt

/-- `record_verification`. -/
theorem recordVerification_moves {guard guardInside changed : Bool}
    (h : recordVerification binding order result guard guardInside db = .ok (db', changed)) :
    MovesContacts (some order) db db' := by
  unfold recordVerification at h
  split at h
  · cases h
    exact MovesContacts.refl _
  · have h := contactBinding_bind h
    cases h
    refine movesContacts_update fun row _ hmet => ?_
    simp only [Bool.and_eq_true] at hmet
    obtain ⟨boundary, hboundary, hlt⟩ := (Option.any_eq_true _ _).mp hmet.2
    exact ContactReceipt.awaiting_moves hmet.1.2 hboundary (of_decide_eq_true hlt)

/-- The receipts of a list have boundaries before an order. -/
def BoundedBefore (db : ReceiptStore) (accountId : ℤ) (order : ℕ) (rows : List ContactReceipt) :
    Prop :=
  ∀ row ∈ rows, ∃ other ∈ db.contacts, other.primaryKey = (accountId, row.operationKey) ∧
    ∃ boundary, other.terminalObservationOrder = some boundary ∧ boundary < order

/-- The loop of `refine_acknowledged_for_observation`: the row of a key keeps its boundary until its
turn. -/
theorem refineAwaiting_moves {contactFingerprint : String → ℤ → String → String → String → String}
    {accountId entityId : ℤ} {state : ContactCommandState} {rows : List ContactReceipt} {count : ℕ}
    (hsound : db.ContactsSound) (hrows : BoundedBefore db accountId order rows) :
    MovesContacts (some order) db
      (refineAwaiting contactFingerprint accountId entityId order state rows db count).1 := by
  induction rows generalizing db count with
  | nil => exact MovesContacts.refl db
  | cons row rest ih =>
    have hrest : BoundedBefore db accountId order rest := fun other hother =>
      hrows other (List.mem_cons_of_mem row hother)
    rw [refineAwaiting]
    split
    · exact ih hsound hrest
    · rename_i matched _
      have hmoves : MovesContacts (some order) db
          (db.updateContacts (fun other => other.keyed accountId row.operationKey && other.awaiting)
            (·.verify (if matched then .verified else .mismatch) order)) := by
        refine movesContacts_update fun other hother hmet => ?_
        simp only [ContactReceipt.keyed, Bool.and_eq_true, decide_eq_true_eq] at hmet
        obtain ⟨held, hheld, hkey, boundary, hboundary, hlt⟩ := hrows row List.mem_cons_self
        obtain rfl : other = held := hsound.eq_of_key hother hheld
          (by rw [hkey, ContactReceipt.primaryKey, hmet.1.1, hmet.1.2])
        exact ContactReceipt.awaiting_moves hmet.2 hboundary hlt
      refine hmoves.trans (ih (hsound.moves hmoves) fun other hother => ?_)
      obtain ⟨held, hheld, hkey, boundary, hboundary, hlt⟩ := hrest other hother
      obtain ⟨held', hheld', hmoved⟩ := exists_of_forall₂_left hmoves.rows hheld
      exact ⟨held', hheld', hmoved.key.trans hkey, boundary,
        hmoved.boundary boundary hboundary, hlt⟩

/-- `refine_acknowledged_for_observation`. -/
theorem refineAcknowledged_moves
    (contactFingerprint : String → ℤ → String → String → String → String) (accountId entityId : ℤ)
    (order : ℕ) (state : ContactCommandState) (guard : Bool) (hsound : db.ContactsSound) :
    MovesContacts (some order) db
      (refineAcknowledged contactFingerprint accountId entityId order state guard db).1 := by
  unfold refineAcknowledged
  split
  · exact MovesContacts.refl db
  · refine refineAwaiting_moves hsound fun row hrow => ?_
    obtain ⟨hrow, hmet⟩ := List.mem_filter.mp hrow
    simp only [ContactReceipt.refinable, Bool.and_eq_true, decide_eq_true_eq] at hmet
    obtain ⟨boundary, hboundary, hlt⟩ := (Option.any_eq_true _ _).mp hmet.2
    exact ⟨row, hrow, by rw [ContactReceipt.primaryKey, hmet.1.1.1], boundary, hboundary,
      of_decide_eq_true hlt⟩

/-! ## Reservation -/

/-- What a reservation that inserts a receipt does. -/
structure ContactInserted (binding : NativeWriteReceiptBinding) (db db' : ReceiptStore) : Prop where
  rows : ∃ row, db'.contacts = db.contacts ++ [row] ∧
    (row.outcome = .pending ∧ row.verified = false ∨ row.outcome = .unchanged)
  folders : db'.folders = db.folders
  fresh : ∀ row ∈ db.contacts, row.operationKey ≠ binding.operationKey

/-- A fresh receipt is sound. -/
theorem newContactReceipt_sound (binding : NativeWriteReceiptBinding)
    (request : ContactReservation) : (newContactReceipt binding request).Sound := by
  cases hunchanged : request.unchanged <;>
    constructor <;> intro h <;> simp_all [newContactReceipt]

/-- An operation key that no receipt has is not refused and has no outcome. -/
theorem notMem_of_existingOperation {fingerprint : String}
    (h : existingOperation binding fingerprint db = .ok none) :
    ∀ row ∈ db.contacts, row.operationKey ≠ binding.operationKey := by
  unfold existingOperation at h
  split at h
  · rename_i hempty
    intro row hrow hkey
    have hmem : row ∈ db.contacts.filter (·.operationKey = binding.operationKey) :=
      List.mem_filter.mpr ⟨hrow, by simpa using hkey⟩
    rw [hempty] at hmem
    cases hmem
  · split at h <;> cases h
  · cases h

/-- `reserve_operation` either answers a prior outcome of the same request and changes nothing, or
appends a receipt for an entity that is not quarantined. -/
theorem reserveContactOperation_sound {request : ContactReservation} {notes reserved : Bool}
    (hsound : db.ContactsSound)
    (h : reserveContactOperation binding request notes db = .ok (db', reserved, outcome)) :
    db'.ContactsSound ∧
      (db' = db ∧ reserved = false ∧
          existingOperation binding request.fingerprint db = .ok (some outcome) ∨
        reserved = true ∧ ContactInserted binding db db') := by
  unfold reserveContactOperation at h
  split at h
  · cases h
  · cases hexisting : existingOperation binding request.fingerprint db with
    | error error =>
      rw [hexisting] at h
      cases h
    | ok prior =>
      rw [hexisting] at h
      cases prior with
      | some prior =>
        cases h
        exact ⟨hsound, Or.inl ⟨rfl, rfl, rfl⟩⟩
      | none =>
        change (if _ then _ else _) = _ at h
        split at h
        · cases h
        · rename_i hquarantine
          cases hnoOp : checkNoOp request.unchanged request.noOpCheck request.noOpOrder with
          | error error =>
            rw [hnoOp] at h
            cases h
          | ok =>
            rw [hnoOp] at h
            have h := contactBinding_bind h
            change (if _ then _ else _) = _ at h
            split at h
            · cases h
              have hfresh := notMem_of_existingOperation hexisting
              refine ⟨⟨?_, ?_, fun accountId entityId => ?_⟩,
                Or.inr ⟨rfl, ⟨_, rfl, ?_⟩, rfl, hfresh⟩⟩
              · rw [List.map_append, List.nodup_append]
                refine ⟨hsound.unique, List.nodup_singleton _, ?_⟩
                rintro key hold _ hnew rfl
                rw [List.map_singleton, List.mem_singleton] at hnew
                obtain ⟨row, hrow, rfl⟩ := List.mem_map.mp hold
                exact hfresh row hrow (congrArg Prod.snd hnew)
              · intro row hrow
                rcases List.mem_append.mp hrow with hrow | hrow
                · exact hsound.rows row hrow
                · rw [List.mem_singleton.mp hrow]
                  exact newContactReceipt_sound binding request
              · by_cases hown : binding.accountId = accountId ∧ binding.target = entityId
                · refine countP_append_le_one (fun row hrow => ?_) _
                  obtain ⟨rfl, rfl⟩ := hown
                  by_contra hset
                  refine hquarantine ?_
                  rw [peerQuarantined, Bool.or_eq_true]
                  exact Or.inl (List.any_eq_true.mpr ⟨row, hrow, Bool.not_eq_false _ ▸ hset⟩)
                · rw [countP_append_of_not]
                  · exact hsound.entities accountId entityId
                  · simp only [quarantining, Bool.and_eq_false_iff, decide_eq_false_iff_not]
                    by_cases haccount : binding.accountId = accountId
                    · exact Or.inl (Or.inr fun hentity => hown ⟨haccount, hentity⟩)
                    · exact Or.inl (Or.inl haccount)
              · cases hunchanged : request.unchanged
                · exact Or.inl (by simp [newContactReceipt, hunchanged, ContactReceipt.verified])
                · exact Or.inr (by simp [newContactReceipt, hunchanged])
            · cases h

end McpTelegram
