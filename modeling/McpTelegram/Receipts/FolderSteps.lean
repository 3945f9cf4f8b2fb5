import McpTelegram.Receipts.Folder

/-!
# What one statement does to a folder receipt

`FolderMoves` lists what no statement of the folder table ever undoes.  A changed row is one of
three kinds: a row that agrees on everything that the list speaks of, a pending row, and a settled
row that keeps its outcome and its boundary.
-/

namespace McpTelegram

open Foundations

variable {row row' row'' : FolderReceipt} {observation : Option ℕ}
variable {outcome : ReceiptOutcome}

namespace FolderReceipt

/-- A pending receipt has no boundary and no result; a settled one has its boundary. -/
structure Sound (row : FolderReceipt) : Prop where
  fresh : row.outcome = .pending →
    row.dispatchOrder = none ∧
      (row.verification = some .pending ∨ row.verification = some .exhausted)
  dispatched : row.settled = true → row.dispatchOrder ≠ none

/-- A settled receipt is not pending. -/
theorem not_pending_of_settled (h : row.settled = true) : row.outcome ≠ .pending := by
  intro hpending
  simp [settled, hpending] at h

/-- A sound pending receipt has no verification result. -/
theorem Sound.not_verified (h : row.Sound) (hpending : row.outcome = .pending) :
    row.verified = false := by
  obtain ⟨-, hverification | hverification⟩ := h.fresh hpending <;>
    simp [verified, hverification]

end FolderReceipt

/-- What a receipt keeps from one moment to any later one. -/
structure FolderKept (row row' : FolderReceipt) : Prop where
  /-- The key, the target and the action never change. -/
  key : row'.primaryKey = row.primaryKey
  target : row'.target = row.target
  action : row'.action = row.action
  /-- The row invariant stays. -/
  sound : row.Sound → row'.Sound
  /-- An outcome other than pending is final. -/
  outcome : row.outcome ≠ .pending → row'.outcome = row.outcome
  /-- A bound attempt is final. -/
  attempt : ∀ attemptId, row.attemptId = some attemptId → row'.attemptId = some attemptId
  /-- The terminal boundary is final. -/
  boundary : ∀ order, row.dispatchOrder = some order → row'.dispatchOrder = some order
  /-- A verification result is final. -/
  result : row.verified = true → row'.verification = row.verification
  /-- A resolved receipt is not unresolved again. -/
  unresolved : row'.unresolved = true → row.unresolved = true

/-- What one step does: it keeps what is to be kept, and a new result comes from an observation
ordered after the boundary of a settled receipt. -/
structure FolderMoves (observation : Option ℕ) (row row' : FolderReceipt) : Prop
    extends FolderKept row row' where
  observed : row'.verified = true → row'.verification = row.verification ∨
    row'.settled = true ∧
      ∃ order boundary, observation = some order ∧ row'.dispatchOrder = some boundary ∧
        boundary < order

theorem FolderKept.refl (row : FolderReceipt) : FolderKept row row :=
  ⟨rfl, rfl, rfl, id, fun _ => rfl, fun _ => id, fun _ => id, fun _ => rfl, id⟩

theorem FolderKept.trans (h : FolderKept row row') (h' : FolderKept row' row'') :
    FolderKept row row'' where
  key := h'.key.trans h.key
  target := h'.target.trans h.target
  action := h'.action.trans h.action
  sound := h'.sound ∘ h.sound
  outcome hsettled := by
    have hsame := h.outcome hsettled
    rw [h'.outcome (by rw [hsame]; exact hsettled), hsame]
  attempt attemptId hbound := h'.attempt attemptId (h.attempt attemptId hbound)
  boundary order horder := h'.boundary order (h.boundary order horder)
  result hverified := by
    have hsame := h.result hverified
    have hverified' : row'.verified = true := by
      rw [FolderReceipt.verified, hsame]
      exact hverified
    rw [h'.result hverified', hsame]
  unresolved hunresolved := h.unresolved (h'.unresolved hunresolved)

theorem FolderMoves.refl (row : FolderReceipt) : FolderMoves observation row row :=
  ⟨FolderKept.refl row, fun _ => Or.inl rfl⟩

/-- A settled receipt stays settled. -/
theorem FolderKept.settled (h : FolderKept row row') (hsettled : row.settled = true) :
    row'.settled = true := by
  rw [FolderReceipt.settled, h.outcome (FolderReceipt.not_pending_of_settled hsettled)]
  exact hsettled

theorem FolderMoves.trans (h : FolderMoves observation row row')
    (h' : FolderMoves observation row' row'') : FolderMoves observation row row'' := by
  refine ⟨h.toFolderKept.trans h'.toFolderKept, fun hverified => ?_⟩
  rcases h'.observed hverified with hsame | hobserved
  · have hverified' : row'.verified = true := by
      rw [FolderReceipt.verified, ← hsame]
      exact hverified
    rcases h.observed hverified' with hsame' | ⟨hsettled, order, boundary, horder, hboundary, hlt⟩
    · exact Or.inl (hsame.trans hsame')
    · exact Or.inr ⟨h'.settled hsettled, order, boundary, horder,
        h'.boundary boundary hboundary, hlt⟩
  · exact Or.inr hobserved

/-! ## The three kinds of changed rows -/

/-- A change of columns that the list does not speak of. -/
theorem folderMoves_of_agree (hkey : row'.primaryKey = row.primaryKey)
    (htarget : row'.target = row.target) (haction : row'.action = row.action)
    (houtcome : row'.outcome = row.outcome) (hattempt : row'.attemptId = row.attemptId)
    (hdispatch : row'.dispatchOrder = row.dispatchOrder)
    (hverification : row'.verification = row.verification) : FolderMoves observation row row' where
  key := hkey
  target := htarget
  action := haction
  sound h := by
    refine ⟨fun hpending => ?_, fun hsettled => ?_⟩
    · rw [hdispatch, hverification]
      exact h.fresh (houtcome ▸ hpending)
    · rw [FolderReceipt.settled, houtcome] at hsettled
      rw [hdispatch]
      exact h.dispatched hsettled
  outcome _ := houtcome
  attempt attemptId hbound := hattempt.trans hbound
  boundary order horder := hdispatch.trans horder
  result _ := hverification
  unresolved h := by
    simpa [FolderReceipt.unresolved, FolderReceipt.settled, FolderReceipt.outstanding, houtcome,
      hverification] using h
  observed _ := Or.inl hverification

/-- A change of a pending receipt that binds no second attempt and leaves no result. -/
theorem folderMoves_of_pending (hsound : row.Sound) (hpending : row.outcome = .pending)
    (hkey : row'.primaryKey = row.primaryKey) (htarget : row'.target = row.target)
    (haction : row'.action = row.action)
    (hattempt : ∀ attemptId, row.attemptId = some attemptId → row'.attemptId = some attemptId)
    (hsound' : row'.Sound) (hverified : row'.verified = false) :
    FolderMoves observation row row' where
  key := hkey
  target := htarget
  action := haction
  sound _ := hsound'
  outcome h := absurd hpending h
  attempt := hattempt
  boundary order horder := by
    rw [(hsound.fresh hpending).1] at horder
    cases horder
  result h := by
    rw [hsound.not_verified hpending] at h
    cases h
  unresolved _ := by simp [FolderReceipt.unresolved, hpending]
  observed h := by
    rw [hverified] at h
    cases h

/-- A change of the verification of a receipt that has no result yet and is resolved by it. -/
theorem folderMoves_of_settled (hsettled : row.settled = true)
    (hkey : row'.primaryKey = row.primaryKey) (htarget : row'.target = row.target)
    (haction : row'.action = row.action) (houtcome : row'.outcome = row.outcome)
    (hattempt : row'.attemptId = row.attemptId) (hdispatch : row'.dispatchOrder = row.dispatchOrder)
    (hverified : row.verified = false) (hresolved : row'.outstanding = false)
    (hobserved : row'.verified = true →
      ∃ order boundary, observation = some order ∧ row.dispatchOrder = some boundary ∧
        boundary < order) : FolderMoves observation row row' where
  key := hkey
  target := htarget
  action := haction
  sound h := by
    have hnot := FolderReceipt.not_pending_of_settled hsettled
    refine ⟨fun hpending => absurd (houtcome ▸ hpending) hnot, fun _ => ?_⟩
    rw [hdispatch]
    exact h.dispatched hsettled
  outcome _ := houtcome
  attempt attemptId hbound := hattempt.trans hbound
  boundary order horder := hdispatch.trans horder
  result h := by
    rw [hverified] at h
    cases h
  unresolved h := by
    have hnot := FolderReceipt.not_pending_of_settled hsettled
    simp [FolderReceipt.unresolved, hresolved, houtcome, hnot] at h
  observed h := by
    obtain ⟨order, boundary, horder, hboundary, hlt⟩ := hobserved h
    refine Or.inr ⟨?_, order, boundary, horder, hdispatch.trans hboundary, hlt⟩
    rw [FolderReceipt.settled, houtcome]
    exact hsettled

/-! ## The assignments -/

namespace FolderReceipt

/-- Binding an attempt to a pending receipt. -/
theorem bind_moves {attemptId : String} (hsound : row.Sound) (hpending : row.outcome = .pending)
    (hattempt : row.attemptId = none ∨ row.attemptId = some attemptId) :
    FolderMoves observation row { row with attemptId := some attemptId } := by
  refine folderMoves_of_pending hsound hpending rfl rfl rfl (fun other hother => ?_)
    ⟨hsound.fresh, hsound.dispatched⟩ (hsound.not_verified hpending)
  rcases hattempt with hattempt | hattempt
  · rw [hattempt] at hother
    cases hother
  · exact hattempt.symm.trans hother

/-- A settling statement either settles a pending receipt under a fresh order or leaves the outcome
and the boundary of a settled one. -/
theorem settle_moves {order : Option ℕ} {now delay : ℤ} (hsound : row.Sound)
    (hsettleable : row.settleable = true)
    (houtcome : outcome ∈ [.acknowledged, .rejected, .unknown])
    (horder : row.outcome = .pending → order ≠ none) :
    FolderMoves observation row (row.settle outcome order now delay) := by
  by_cases hpending : row.outcome = .pending
  · have hnot : outcome ≠ .pending := by
      rintro rfl
      simp at houtcome
    refine folderMoves_of_pending hsound hpending rfl rfl rfl (fun _ => id) ⟨?_, ?_⟩
      (hsound.not_verified hpending)
    · intro hpending'
      simp only [settle, hpending, if_true] at hpending'
      exact absurd hpending' hnot
    · intro _
      simpa [settle, (hsound.fresh hpending).1] using horder hpending
  · have hsettled : row.settled = true := by simpa [settleable, hpending] using hsettleable
    obtain ⟨boundary, hboundary⟩ := Option.ne_none_iff_exists'.mp (hsound.dispatched hsettled)
    refine folderMoves_of_agree rfl rfl rfl ?_ rfl ?_ rfl
    · exact if_neg hpending
    · simp [settle, hboundary]

/-- Recovering an interrupted receipt. -/
theorem recover_moves {order : ℕ} {now : ℤ} (hsound : row.Sound)
    (hpending : row.outcome = .pending) :
    FolderMoves observation row (row.recover order now) :=
  folderMoves_of_pending hsound hpending rfl rfl rfl (fun _ => id)
    ⟨fun h => by simp [recover] at h, fun _ => by simp [recover]⟩ rfl

/-- A pending receipt that is given up without an attempt having been settled. -/
theorem giveUp_moves {rejected : Bool} (hsound : row.Sound) (hpending : row.outcome = .pending)
    (houtcome : outcome = .unchanged ∨ outcome = .notSent) :
    FolderMoves observation row
      { row with
        outcome := outcome
        verification := some .notRequired
        preclaimRejected := rejected } := by
  refine folderMoves_of_pending hsound hpending rfl rfl rfl (fun _ => id) ⟨?_, ?_⟩ rfl
  all_goals
    intro h
    rcases houtcome with rfl | rfl <;> cases h

/-- A not-sent mark on a pending receipt, or on a rejected one without a result. -/
theorem unsend_moves (hsound : row.Sound) (houtcome : row.outcome ∈ [.pending, .rejected])
    (hverified : row.outcome = .rejected → row.verified = false) :
    FolderMoves observation row row.unsend := by
  simp only [List.mem_cons, List.not_mem_nil, or_false] at houtcome
  rcases houtcome with hpending | hrejected
  · have hgiveUp : FolderMoves observation row
        { row with
          outcome := .notSent
          verification := some .notRequired
          preclaimRejected := true } := giveUp_moves hsound hpending (Or.inr rfl)
    simpa [unsend, hpending] using hgiveUp
  · refine folderMoves_of_settled (by simp [settled, hrejected]) rfl rfl rfl ?_ rfl rfl
      (hverified hrejected) rfl (fun h => by cases h)
    simp [unsend, hrejected]

/-- An expired verification is exhausted. -/
theorem expire_moves (hverification : row.verification = some .pending) :
    FolderMoves observation row { row with verification := some .exhausted } := by
  have hnot : row.verified = false := by simp [verified, hverification]
  refine ⟨⟨rfl, rfl, rfl,
    fun h => ⟨fun hpending => ⟨(h.fresh hpending).1, Or.inr rfl⟩, h.dispatched⟩,
    fun _ => rfl, fun _ => id, fun _ => id, fun h => ?_, fun h => ?_⟩, fun h => ?_⟩
  · rw [hnot] at h
    cases h
  · simp only [unresolved, outstanding, Bool.or_eq_true, decide_eq_true_eq, Bool.and_eq_true] at h
    rcases h with hpending | ⟨-, h⟩
    · simp [unresolved, hpending]
    · simp at h
  · cases h

/-- A result for a settled receipt without one, from a later observation. -/
theorem verify_moves {order boundary : ℕ} {result : FolderVerification}
    (hresult : result = .matched ∨ result = .mismatched) (hsettled : row.settled = true)
    (hverified : row.verified = false) (hboundary : row.dispatchOrder = some boundary)
    (hlt : boundary < order) :
    FolderMoves (some order) row { row with verification := some result } := by
  refine folderMoves_of_settled hsettled rfl rfl rfl rfl rfl rfl hverified ?_
    (fun _ => ⟨order, boundary, rfl, hboundary, hlt⟩)
  rcases hresult with rfl | rfl <;> rfl

end FolderReceipt

end McpTelegram
