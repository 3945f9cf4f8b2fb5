import McpTelegram.Activity.ColdBackfill
import McpTelegram.Foundations.Run

/-!
# Runs of the cold backfill

A claim is known by its lease alone, so the passes in flight on a peer must have different leases:
then only the pass with the current claim commits rows or changes the offset, and the offset goes
down.  The coverage of the committed pages does not rest on the leases.
-/

namespace McpTelegram

open Foundations

/-! ## Passes and their peers -/

/-- What a phase of a sweep knows: a page that was searched leaves no kept message out, and a result
that was accepted has the rows of its page committed. -/
def PhaseCovered (kept committed : List ℕ) (offset : ℕ) : SweepPhase → Prop
  | .persisting batch => Leaves kept offset 0 1 batch
  | .returned result =>
    result.accepted = true →
      (result.skipReason = .none → ∃ lowest, result.minId = some lowest ∧
        InRange offset 0 lowest ∧ Above kept committed lowest) ∧
      (result.skipReason = .historyFloor → kept ⊆ committed)
  | _ => True

/-- What holds of a pass with a claim. -/
structure PassInv (world : ColdWorld) (id : ℕ) (claim : ColdClaim) (phase : SweepPhase) : Prop where
  enrolled : (world.rows.lookup claim.dialog).isSome = true
  /-- The pass whose lease is in the row has the current claim, and the row its offset. -/
  current : ∀ row, world.rows.lookup claim.dialog = some row → row.Held claim.claimUntil →
    world.holder claim.dialog = some id ∧ row.offsetId.getD 0 = claim.offset
  above : Above (world.kept claim.dialog) (world.committed claim.dialog) claim.offset
  covered : PhaseCovered (world.kept claim.dialog) (world.committed claim.dialog) claim.offset phase

/-- What holds of a row. -/
structure RowInv (world : ColdWorld) (dialog : ℤ) (row : ColdRow) : Prop where
  above : Above (world.kept dialog) (world.committed dialog) (row.offsetId.getD 0)
  complete : row.status = .complete → world.kept dialog ⊆ world.committed dialog

/-- The invariant of the backfill. -/
structure ColdInv (world : ColdWorld) : Prop where
  rows : ∀ dialog row, world.rows.lookup dialog = some row → RowInv world dialog row
  passes : ∀ id claim phase, world.passes id = some (.sweeping claim phase) →
    PassInv world id claim phase
  /-- The passes in flight on a peer have different leases. -/
  leases : ∀ id claim phase id' claim' phase',
    world.passes id = some (.sweeping claim phase) →
    world.passes id' = some (.sweeping claim' phase') →
    claim.dialog = claim'.dialog → claim.claimUntil = claim'.claimUntil → id = id'
  own : ∀ dialog, world.kept dialog ⊆ world.own dialog
  positive : ∀ dialog, ∀ message ∈ world.own dialog, 0 < message

/-- The lease that a claim is about to take is that of no other pass in flight on the peer. -/
def FreshLease (pacing : ColdPacing) (world : ColdWorld) : ColdAction → Prop
  | .claim id => ∀ expected now dialog row, world.passes id = some (.claiming expected now) →
      world.selected expected now = some (dialog, row) →
      ∀ id' claim phase, world.passes id' = some (.sweeping claim phase) →
        claim.dialog = dialog → claim.claimUntil ≠ now + pacing.leaseSeconds
  | _ => True

section Keep

variable {world next : ColdWorld} {id : ℕ} {claim : ColdClaim} {phase : SweepPhase} {dialog : ℤ}
  {row : ColdRow} {pacing : ColdPacing}

variable {offset id' : ℕ} {passes : Table ℕ ColdPass} {expected : Option (ℤ × ℕ)}
    {entries : List (ℤ × ColdRow)} {entry : ℤ × ColdRow}

/-- With fewer messages kept and more committed, a phase knows as much. -/
theorem PhaseCovered.mono {kept kept' committed committed' : List ℕ}
    (h : PhaseCovered kept committed offset phase) (hkept : kept' ⊆ kept)
    (hcommitted : committed ⊆ committed') : PhaseCovered kept' committed' offset phase := by
  cases phase with
  | persisting batch => exact Leaves.mono h hkept
  | returned result =>
    intro haccepted
    obtain ⟨hpage, hfloor⟩ := h haccepted
    refine ⟨fun hnone => ?_, fun hreason => ?_⟩
    · obtain ⟨lowest, hmin, hrange, habove⟩ := hpage hnone
      exact ⟨lowest, hmin, hrange, habove.mono hkept hcommitted⟩
    · exact fun message hmem => hcommitted (hfloor hreason (hkept hmem))
  | resolving | preparing | searching | losing | budgetExhausted => trivial

/-- A step that leaves the row and the holder of a peer, and keeps fewer messages or commits more,
keeps what holds of a pass. -/
theorem PassInv.mono (h : PassInv world id claim phase)
    (hrow : next.rows.lookup claim.dialog = world.rows.lookup claim.dialog)
    (hholder : next.holder claim.dialog = world.holder claim.dialog)
    (hkept : next.kept claim.dialog ⊆ world.kept claim.dialog)
    (hcommitted : world.committed claim.dialog ⊆ next.committed claim.dialog) :
    PassInv next id claim phase where
  enrolled := hrow ▸ h.enrolled
  current row hlookup hheld := by
    rw [hholder]
    exact h.current row (hrow ▸ hlookup) hheld
  above := h.above.mono hkept hcommitted
  covered := h.covered.mono hkept hcommitted

/-- The same of a row. -/
theorem RowInv.mono (h : RowInv world dialog row) (hkept : next.kept dialog ⊆ world.kept dialog)
    (hcommitted : world.committed dialog ⊆ next.committed dialog) : RowInv next dialog row where
  above := h.above.mono hkept hcommitted
  complete hcomplete _ hmem := hcommitted (h.complete hcomplete (hkept hmem))

/-- A step that leaves the rows and the holders and starts no claim. -/
theorem ColdInv.mono (h : ColdInv world) (hrows : next.rows = world.rows)
    (hholder : next.holder = world.holder)
    (hpasses : ∀ id claim phase, next.passes id = some (.sweeping claim phase) →
      world.passes id = some (.sweeping claim phase))
    (hkept : ∀ dialog, next.kept dialog ⊆ world.kept dialog)
    (hcommitted : ∀ dialog, world.committed dialog ⊆ next.committed dialog)
    (hown : ∀ dialog, next.kept dialog ⊆ next.own dialog)
    (hpositive : ∀ dialog, ∀ message ∈ next.own dialog, 0 < message) : ColdInv next where
  rows dialog row hlookup :=
    (h.rows dialog row (hrows ▸ hlookup)).mono (hkept dialog) (hcommitted dialog)
  passes id claim phase hpass := (h.passes id claim phase (hpasses id claim phase hpass)).mono
    (by rw [hrows]) (by rw [hholder]) (hkept claim.dialog) (hcommitted claim.dialog)
  leases id claim phase id' claim' phase' hpass hpass' :=
    h.leases id claim phase id' claim' phase' (hpasses _ _ _ hpass) (hpasses _ _ _ hpass')
  own := hown
  positive := hpositive

/-- A pass that is put aside or starts anew leaves the claims. -/
theorem sweeping_of_put_claiming {now : ℤ}
    (h : passes.put id (.claiming expected now) id' = some (.sweeping claim phase)) :
    passes id' = some (.sweeping claim phase) := by
  rw [Table.put_apply] at h
  split_ifs at h
  · cases h
  · exact h

theorem sweeping_of_drop (h : passes.drop id id' = some (.sweeping claim phase)) :
    passes id' = some (.sweeping claim phase) := by
  rw [Table.drop_apply] at h
  split_ifs at h
  exact h

/-! ## The selection -/

/-- What is first in the order is in the list. -/
theorem mem_of_firstUpdated (h : firstUpdated entries = some entry) : entry ∈ entries := by
  induction entries with
  | nil => cases h
  | cons first entries ih =>
    rw [firstUpdated] at h
    rcases hrest : firstUpdated entries with _ | best
    · rw [hrest] at h
      rw [Option.some.inj h]
      exact List.mem_cons_self
    · rw [hrest] at h
      dsimp only at h
      split_ifs at h
      · exact List.mem_cons_of_mem _ (ih (hrest.trans h))
      · rw [Option.some.inj h]
        exact List.mem_cons_self

/-- In a list with an entry something is first. -/
theorem firstUpdated_isSome (h : entry ∈ entries) : (firstUpdated entries).isSome = true := by
  cases entries with
  | nil => cases h
  | cons first entries =>
    rw [firstUpdated]
    cases firstUpdated entries with
    | none => rfl
    | some best =>
      dsimp only
      split_ifs <;> rfl

/-- A selected peer has its row, is due and is not lost. -/
theorem selected_spec {now : ℤ} (h : world.selected expected now = some (dialog, row)) :
    world.rows.lookup dialog = some row ∧ row.Due now ∧ world.lost dialog = false := by
  unfold ColdWorld.selected at h
  rcases expected with _ | ⟨dialog', offset⟩
  · have hmem := mem_of_firstUpdated h
    rw [List.mem_filter, List.mem_map] at hmem
    obtain ⟨⟨⟨dialog', row'⟩, hentry, hsame⟩, hdue⟩ := hmem
    obtain ⟨rfl, rfl⟩ := Prod.mk.inj hsame
    exact ⟨Dictionary.mem_entries_iff.mp hentry, by simpa using hdue⟩
  · dsimp only at h
    rcases hlookup : world.rows.lookup dialog' with _ | row'
    · rw [hlookup] at h
      cases h
    · rw [hlookup] at h
      dsimp only at h
      split_ifs at h with hdue
      obtain ⟨rfl, rfl⟩ := Prod.mk.inj (Option.some.inj h)
      exact ⟨hlookup, hdue.2⟩

/-! ## What a step of a sweep knows -/

/-- A page whose rows are committed: its lowest id is the next offset, and an empty one is the end
of the history. -/
theorem covered_pageResult {kept committed batch : List ℕ} {extracted genuinelyNew : ℕ}
    (h : Leaves kept offset 0 1 batch) (habove : Above kept committed offset)
    (hpositive : ∀ message ∈ kept, 0 < message) :
    PhaseCovered kept (committed ++ batch) offset
      (.returned (sweepPageResult batch extracted genuinelyNew)) := by
  intro _
  unfold sweepPageResult
  split_ifs with hempty
  · refine ⟨nofun, fun _ message hmem => List.mem_append_left _ ?_⟩
    -- no kept message is in the range of a search that finds nothing
    have hout : ¬ InRange offset 0 message := fun hrange => by
      have hpage := h.all (by rw [hempty]; decide) message hmem hrange
      rw [hempty] at hpage
      cases hpage
    rw [InRange, not_and_or, not_or, Nat.not_lt, Nat.not_lt] at hout
    rcases hout with hzero | ⟨hoffset, hle⟩
    · exact absurd (hpositive message hmem) (Nat.not_lt.mpr hzero)
    · exact habove message hmem hoffset hle
  · refine ⟨fun _ => ?_, nofun⟩
    obtain ⟨lowest, hmin⟩ : ∃ lowest, batch.min? = some lowest :=
      Option.isSome_iff_exists.mp (List.isSome_min?_of_ne_nil hempty)
    refine ⟨lowest, hmin, h.min_range hmin, fun message hmem _ hle => ?_⟩
    refine h.above_min (fun id hmem _ hoffset hle => ?_) (List.subset_append_right _ _) hmin message
      hmem (hpositive message hmem) hle
    exact List.mem_append_left _ (habove id hmem hoffset hle)

/-- A step of a sweep keeps what its phase knows. -/
theorem covered_sweepStep {own kept committed : List ℕ} {accept : Bool} {event : SweepEvent}
    {move : SweepMove} (h : PhaseCovered kept committed offset phase)
    (hstep : sweepStep accept phase event = some move) (hhonest : event.Honest own offset 0 1)
    (hkept : kept ⊆ own) (hpositive : ∀ message ∈ own, 0 < message)
    (habove : Above kept committed offset) :
    PhaseCovered kept (committed ++ move.rows) offset move.phase := by
  cases sweepMoves_of_step hstep with
  | searched ids => exact hhonest.leaves hkept
  | committed haccept batch extracted genuinelyNew =>
    exact covered_pageResult h habove fun message hmem => hpositive message (hkept hmem)
  | pageless before phase event lost hpageless =>
    cases hpageless with
    | preparing | searching | losing | budgetExhausted => trivial
    | notAccepted => exact nofun
    | accessSkip | floodWait seconds => exact fun _ => ⟨nofun, nofun⟩

end Keep

/-! ## Steps -/

section Steps

variable {world next : ColdWorld} {id : ℕ} {claim : ColdClaim} {phase : SweepPhase} {dialog : ℤ}
  {row : ColdRow} {pacing : ColdPacing} {now claimUntil : ℤ}

variable {result : Option SweepResult}

theorem claimPeer_rows (dialog' : ℤ) :
    (world.claimPeer id now claimUntil dialog row).rows.lookup dialog' =
      if dialog' = dialog then some (row.claimed now claimUntil) else world.rows.lookup dialog' :=
  Dictionary.lookup_insert_eq _ _ _ _

theorem claimPeer_passes (id' : ℕ) :
    (world.claimPeer id now claimUntil dialog row).passes id' =
      if id' = id then some (.sweeping ⟨dialog, row.offsetId.getD 0, claimUntil, now⟩ .resolving)
      else world.passes id' :=
  Table.put_apply _ _ _ _

theorem move_passes (id' : ℕ) (move : SweepMove) :
    (world.move id claim move).passes id' =
      if id' = id then some (.sweeping claim move.phase) else world.passes id' :=
  Table.put_apply _ _ _ _

theorem move_committed (dialog : ℤ) (move : SweepMove) :
    (world.move id claim move).committed dialog =
      if dialog = claim.dialog then world.committed claim.dialog ++ move.rows
      else world.committed dialog :=
  Function.update_apply _ _ _ _

/-- A peer is claimed with a lease that no other pass has. -/
theorem ColdInv.claimPeer (h : ColdInv world) (hlookup : world.rows.lookup dialog = some row)
    (hfresh : ∀ id' claim phase, world.passes id' = some (.sweeping claim phase) →
      claim.dialog = dialog → claim.claimUntil ≠ claimUntil) :
    ColdInv (world.claimPeer id now claimUntil dialog row) where
  rows dialog' row' hlookup' := by
    rw [claimPeer_rows] at hlookup'
    have hrow : RowInv world dialog row := h.rows dialog row hlookup
    split_ifs at hlookup' with hsame
    · obtain rfl := Option.some.inj hlookup'
      rw [hsame]
      exact ⟨hrow.above, nofun⟩
    · exact (h.rows dialog' row' hlookup').mono (List.Subset.refl _) (List.Subset.refl _)
  passes id' claim phase hpass := by
    rw [claimPeer_passes] at hpass
    split_ifs at hpass with hsame
    · obtain ⟨rfl, rfl⟩ := ColdPass.sweeping.inj (Option.some.inj hpass)
      refine
        { enrolled := ?_
          current := fun row' hlookup' _ => ?_
          above := (h.rows dialog row hlookup).above
          covered := trivial }
      · rw [claimPeer_rows, if_pos rfl]
        rfl
      · rw [claimPeer_rows, if_pos rfl] at hlookup'
        obtain rfl := Option.some.inj hlookup'
        refine ⟨?_, rfl⟩
        rw [hsame]
        exact Function.update_self _ _ _
    · have hbefore := h.passes id' claim phase hpass
      by_cases hdialog : claim.dialog = dialog
      · refine
          { enrolled := ?_
            current := fun row' hlookup' hheld => ?_
            above := hbefore.above
            covered := hbefore.covered }
        · rw [claimPeer_rows, if_pos hdialog]
          rfl
        · rw [claimPeer_rows, if_pos hdialog] at hlookup'
          obtain rfl := Option.some.inj hlookup'
          exact absurd (Option.some.inj hheld.2).symm (hfresh id' claim phase hpass hdialog)
      · refine hbefore.mono ?_ ?_ (List.Subset.refl _) (List.Subset.refl _)
        · rw [claimPeer_rows, if_neg hdialog]
        · exact Function.update_of_ne hdialog _ _
  leases id₁ claim₁ phase₁ id₂ claim₂ phase₂ hpass₁ hpass₂ hdialog hlease := by
    rw [claimPeer_passes] at hpass₁ hpass₂
    split_ifs at hpass₁ hpass₂ with hid₁ hid₂ hid₂
    · rw [hid₁, hid₂]
    · obtain ⟨rfl, rfl⟩ := ColdPass.sweeping.inj (Option.some.inj hpass₁)
      exact absurd hlease.symm (hfresh id₂ claim₂ phase₂ hpass₂ hdialog.symm)
    · obtain ⟨rfl, rfl⟩ := ColdPass.sweeping.inj (Option.some.inj hpass₂)
      exact absurd hlease (hfresh id₁ claim₁ phase₁ hpass₁ hdialog)
    · exact h.leases id₁ claim₁ phase₁ id₂ claim₂ phase₂ hpass₁ hpass₂ hdialog hlease
  own := h.own
  positive := h.positive

/-- A step of a sweep. -/
theorem ColdInv.move (h : ColdInv world)
    (hpass : world.passes id = some (.sweeping claim phase)) {event : SweepEvent} {move : SweepMove}
    (hhonest : event.Honest (world.own claim.dialog) claim.offset 0 1)
    (hstep : sweepStep (world.claimMatches claim) phase event = some move) :
    ColdInv (world.move id claim move) := by
  have hbefore := h.passes id claim phase hpass
  have hcommitted : ∀ dialog,
      world.committed dialog ⊆ (world.move id claim move).committed dialog := by
    intro dialog
    rw [move_committed]
    split_ifs with hsame
    · rw [hsame]
      exact List.subset_append_left _ _
    · exact List.Subset.refl _
  have hpasses : ∀ id' claim' phase', (world.move id claim move).passes id' =
      some (.sweeping claim' phase') →
        (id' = id ∧ claim' = claim ∧ phase' = move.phase) ∨
          world.passes id' = some (.sweeping claim' phase') := by
    intro id' claim' phase' hpass'
    rw [move_passes] at hpass'
    split_ifs at hpass' with hsame
    · obtain ⟨rfl, rfl⟩ := ColdPass.sweeping.inj (Option.some.inj hpass')
      exact .inl ⟨hsame, rfl, rfl⟩
    · exact .inr hpass'
  refine
    { rows := fun dialog row hlookup =>
        (h.rows dialog row hlookup).mono (List.Subset.refl _) (hcommitted dialog)
      passes := fun id' claim' phase' hpass' => ?_
      leases := fun id₁ claim₁ phase₁ id₂ claim₂ phase₂ hpass₁ hpass₂ => ?_
      own := h.own
      positive := h.positive }
  · rcases hpasses id' claim' phase' hpass' with ⟨rfl, rfl, rfl⟩ | hother
    · have hmono : PassInv (world.move id' claim' move) id' claim' phase := hbefore.mono rfl rfl
        (List.Subset.refl _) (hcommitted _)
      refine { hmono with covered := ?_ }
      rw [move_committed, if_pos rfl]
      exact covered_sweepStep hbefore.covered hstep hhonest (h.own _) (h.positive _) hbefore.above
    · exact (h.passes id' claim' phase' hother).mono rfl rfl (List.Subset.refl _) (hcommitted _)
  · intro hdialog hlease
    have hold : ∀ id' claim' phase', (world.move id claim move).passes id' =
        some (.sweeping claim' phase') →
          ∃ phase'', world.passes id' = some (.sweeping claim' phase'') := by
      intro id' claim' phase' hpass'
      rcases hpasses id' claim' phase' hpass' with ⟨rfl, rfl, -⟩ | hother
      · exact ⟨phase, hpass⟩
      · exact ⟨phase', hother⟩
    obtain ⟨phase₁', hold₁⟩ := hold id₁ claim₁ phase₁ hpass₁
    obtain ⟨phase₂', hold₂⟩ := hold id₂ claim₂ phase₂ hpass₂
    exact h.leases _ _ _ _ _ _ hold₁ hold₂ hdialog hlease

/-- A finished row is not running. -/
theorem finished_not_held {clock : ℤ} :
    ¬ (row.finished pacing claim clock result).Held claimUntil := by
  rintro ⟨hrunning, -⟩
  unfold ColdRow.finished at hrunning
  split at hrunning
  · cases hrunning
  · split_ifs at hrunning
    · cases hrunning
    · split at hrunning <;> cases hrunning

/-- What holds of the row that an outcome is saved in. -/
theorem RowInv.finished (h : RowInv world claim.dialog row) (hpass : PassInv world id claim phase)
    (hresult : phase.result? = some result) (clock : ℤ) :
    RowInv world claim.dialog (row.finished pacing claim clock result) := by
  have hsame : ∀ {row' : ColdRow}, row'.offsetId = row.offsetId → row'.status ≠ .complete →
      RowInv world claim.dialog row' := fun hoffset hstatus =>
    ⟨hoffset ▸ h.above, fun hcomplete => absurd hcomplete hstatus⟩
  have hcovered := hpass.covered
  cases phase with
  | resolving | preparing | searching | losing | persisting => cases hresult
  | budgetExhausted =>
    obtain rfl := Option.some.inj hresult
    exact hsame rfl nofun
  | returned result' =>
    obtain rfl := Option.some.inj hresult
    unfold ColdRow.finished
    dsimp only
    split_ifs with haccepted
    · exact hsame rfl nofun
    rw [Bool.not_eq_false] at haccepted
    obtain ⟨hpage, hfloor⟩ := hcovered haccepted
    split
    · exact hsame rfl nofun
    · exact hsame rfl nofun
    · next hreason => exact ⟨h.above, fun _ => hfloor hreason⟩
    · next hreason =>
      obtain ⟨lowest, hmin, -, habove⟩ := hpage hreason
      refine ⟨?_, nofun⟩
      rw [hmin]
      exact habove

/-- What saving an outcome does. -/
theorem save_cases (pacing : ColdPacing) (claim : ColdClaim) (clock : ℤ)
    (result : Option SweepResult) :
    (∃ row, world.rows.lookup claim.dialog = some row ∧ row.Held claim.claimUntil ∧
      world.save pacing claim clock result = { world with
        rows := world.rows.insert claim.dialog (row.finished pacing claim clock result)
        holder := Function.update world.holder claim.dialog none }) ∨
    ((∀ row, world.rows.lookup claim.dialog = some row → ¬ row.Held claim.claimUntil) ∧
      world.save pacing claim clock result = world) := by
  unfold ColdWorld.save
  rcases world.rows.lookup claim.dialog with _ | row
  · exact .inr ⟨nofun, rfl⟩
  · dsimp only
    split_ifs with hheld
    · exact .inl ⟨row, rfl, hheld, rfl⟩
    · refine .inr ⟨?_, rfl⟩
      rintro row' hrow hheld'
      obtain rfl := Option.some.inj hrow
      exact hheld hheld'

/-- The outcome of a pass is saved. -/
theorem ColdInv.save (h : ColdInv world) (hpass : world.passes id = some (.sweeping claim phase))
    (hresult : phase.result? = some result) (clock : ℤ) :
    ColdInv { world.save pacing claim clock result with passes := world.passes.drop id } := by
  rcases @save_cases world pacing claim clock result with
    ⟨row, hlookup, -, hsave⟩ | ⟨-, hsave⟩
  · rw [hsave]
    refine
      { rows := fun dialog' row' hlookup' => ?_
        passes := fun id' claim' phase' hpass' => ?_
        leases := fun id₁ claim₁ phase₁ id₂ claim₂ phase₂ hpass₁ hpass₂ =>
          h.leases _ _ _ _ _ _ (sweeping_of_drop hpass₁) (sweeping_of_drop hpass₂)
        own := h.own
        positive := h.positive }
    · rw [Dictionary.lookup_insert_eq] at hlookup'
      split_ifs at hlookup' with hsame
      · obtain rfl := Option.some.inj hlookup'
        rw [hsame]
        have hrow : RowInv world claim.dialog (row.finished pacing claim clock result) :=
          (h.rows claim.dialog row hlookup).finished (h.passes id claim phase hpass) hresult clock
        exact ⟨hrow.above, hrow.complete⟩
      · exact (h.rows dialog' row' hlookup').mono (List.Subset.refl _) (List.Subset.refl _)
    · have hbefore := h.passes id' claim' phase' (sweeping_of_drop hpass')
      by_cases hdialog : claim'.dialog = claim.dialog
      · refine
          { enrolled := ?_
            current := fun row' hlookup' hheld => ?_
            above := hbefore.above
            covered := hbefore.covered }
        · rw [Dictionary.lookup_insert_eq, if_pos hdialog]
          rfl
        · rw [Dictionary.lookup_insert_eq, if_pos hdialog] at hlookup'
          obtain rfl := Option.some.inj hlookup'
          exact absurd hheld finished_not_held
      · refine hbefore.mono ?_ ?_ (List.Subset.refl _) (List.Subset.refl _)
        · exact (Dictionary.lookup_insert_eq _ _ _ _).trans (if_neg hdialog)
        · exact Function.update_of_ne hdialog _ _
  · rw [hsave]
    exact h.mono rfl rfl (fun _ _ _ => sweeping_of_drop) (fun _ => List.Subset.refl _)
      (fun _ => List.Subset.refl _) h.own h.positive

/-- A peer is enrolled. -/
theorem ColdInv.enroll (h : ColdInv world) : ColdInv (world.enroll dialog now) := by
  unfold ColdWorld.enroll
  rcases hlookup : world.rows.lookup dialog with _ | row
  · -- no pass is in flight on a peer without a row
    have hnone : ∀ id claim phase, world.passes id = some (.sweeping claim phase) →
        claim.dialog ≠ dialog := by
      rintro id claim phase hpass rfl
      have henrolled := (h.passes id claim phase hpass).enrolled
      rw [hlookup] at henrolled
      cases henrolled
    have hkept : ∀ {dialog'}, dialog' ≠ dialog →
        Function.update world.kept dialog (world.own dialog) dialog' ⊆ world.kept dialog' := by
      intro dialog' hne
      rw [Function.update_of_ne hne]
      exact List.Subset.refl _
    refine
      { rows := fun dialog' row' hlookup' => ?_
        passes := fun id' claim' phase' hpass' => ?_
        leases := h.leases
        own := fun dialog' => ?_
        positive := h.positive }
    · rw [Dictionary.lookup_insert_eq] at hlookup'
      split_ifs at hlookup' with hsame
      · obtain rfl := Option.some.inj hlookup'
        exact ⟨fun _ _ hoffset => absurd rfl hoffset, nofun⟩
      · exact (h.rows dialog' row' hlookup').mono (hkept hsame)
          (List.Subset.refl _)
    · have hne := hnone id' claim' phase' hpass'
      exact (h.passes id' claim' phase' hpass').mono
        ((Dictionary.lookup_insert_eq _ _ _ _).trans (if_neg hne)) rfl
        (hkept hne) (List.Subset.refl _)
    · dsimp only
      rw [Function.update_apply]
      split_ifs with hsame
      · rw [hsame]
        exact List.Subset.refl _
      · exact h.own dialog'
  · refine
      { rows := fun dialog' row' hlookup' => ?_
        passes := fun id' claim' phase' hpass' => ?_
        leases := h.leases
        own := h.own
        positive := h.positive }
    · rw [Dictionary.lookup_insert_eq] at hlookup'
      split_ifs at hlookup' with hsame
      · obtain rfl := Option.some.inj hlookup'
        have hrow := h.rows dialog row hlookup
        rw [hsame]
        exact ⟨hrow.above, hrow.complete⟩
      · exact (h.rows dialog' row' hlookup').mono (List.Subset.refl _) (List.Subset.refl _)
    · have hbefore := h.passes id' claim' phase' hpass'
      by_cases hdialog : claim'.dialog = dialog
      · refine
          { enrolled := ?_
            current := fun row' hlookup' hheld => ?_
            above := hbefore.above
            covered := hbefore.covered }
        · rw [Dictionary.lookup_insert_eq, if_pos hdialog]
          rfl
        · rw [Dictionary.lookup_insert_eq, if_pos hdialog] at hlookup'
          obtain rfl := Option.some.inj hlookup'
          exact hbefore.current row (hdialog ▸ hlookup) hheld
      · exact hbefore.mono ((Dictionary.lookup_insert_eq _ _ _ _).trans (if_neg hdialog)) rfl
          (List.Subset.refl _) (List.Subset.refl _)

/-- A step keeps the invariant, if a claim takes a lease of its own. -/
theorem ColdInv.step (h : ColdInv world) {action : ColdAction}
    (hfresh : FreshLease pacing world action) (hstep : world.step pacing action = some next) :
    ColdInv next := by
  have hsub : ∀ {list : List ℕ}, list ⊆ list := fun {list} => List.Subset.refl list
  unfold ColdWorld.step at hstep
  cases action with
  | start id expected now =>
    dsimp only at hstep
    split at hstep
    · cases hstep
    · obtain rfl := Option.some.inj hstep
      exact h.mono rfl rfl (fun _ _ _ => sweeping_of_put_claiming) (fun _ => hsub) (fun _ => hsub)
        h.own h.positive
  | claim id =>
    dsimp only at hstep
    split at hstep
    · next expected now hpass =>
      split at hstep
      · next dialog row hselected =>
        obtain rfl := Option.some.inj hstep
        exact h.claimPeer (selected_spec hselected).1
          (hfresh expected now dialog row hpass hselected)
      · obtain rfl := Option.some.inj hstep
        exact h.mono rfl rfl (fun _ _ _ => sweeping_of_drop) (fun _ => hsub) (fun _ => hsub)
          h.own h.positive
    · cases hstep
  | sweep id event =>
    dsimp only at hstep
    split at hstep
    · next claim phase hpass =>
      split_ifs at hstep with hhonest
      obtain ⟨move, hmove, rfl⟩ := Option.map_eq_some_iff.mp hstep
      exact h.move hpass hhonest hmove
    · cases hstep
  | finish id clock =>
    dsimp only at hstep
    split at hstep
    · next claim phase hpass =>
      obtain ⟨result, hresult, rfl⟩ := Option.map_eq_some_iff.mp hstep
      exact h.save hpass hresult clock
    · cases hstep
  | drop id =>
    obtain rfl := Option.some.inj hstep
    exact h.mono rfl rfl (fun _ _ _ => sweeping_of_drop) (fun _ => hsub) (fun _ => hsub)
      h.own h.positive
  | crash =>
    obtain rfl := Option.some.inj hstep
    exact h.mono rfl rfl nofun (fun _ => hsub) (fun _ => hsub) h.own h.positive
  | enroll dialog now =>
    obtain rfl := Option.some.inj hstep
    exact h.enroll
  | lose | restore =>
    obtain rfl := Option.some.inj hstep
    exact h.mono rfl rfl (fun _ _ _ hpass => hpass) (fun _ => hsub) (fun _ => hsub) h.own h.positive
  | receive dialog message =>
    dsimp only at hstep
    split_ifs at hstep with hpositive
    obtain rfl := Option.some.inj hstep
    refine h.mono rfl rfl (fun _ _ _ hpass => hpass) (fun _ => hsub) (fun _ => hsub)
      (fun dialog' => ?_) (fun dialog' message' hmem => ?_)
    · dsimp only
      rw [Function.update_apply]
      split_ifs with hsame
      · rw [hsame]
        exact List.Subset.trans (h.own dialog) (List.subset_cons_self _ _)
      · exact h.own dialog'
    · dsimp only at hmem
      rw [Function.update_apply] at hmem
      split_ifs at hmem
      · rcases List.mem_cons.mp hmem with rfl | hbefore
        · exact hpositive
        · exact h.positive dialog message' hbefore
      · exact h.positive dialog' message' hmem
  | delete dialog message =>
    obtain rfl := Option.some.inj hstep
    have hless : ∀ (lists : ℤ → List ℕ) (dialog' : ℤ), Function.update lists dialog
        ((lists dialog).filter (· ≠ message)) dialog' ⊆ lists dialog' := by
      intro lists dialog'
      rw [Function.update_apply]
      split_ifs with hsame
      · rw [hsame]
        exact List.filter_subset_self _
      · exact hsub
    refine h.mono rfl rfl (fun _ _ _ hpass => hpass) (hless world.kept) (fun _ => hsub)
      (fun dialog' => ?_)
      (fun dialog' message' hmem => h.positive dialog' message' (hless _ _ hmem))
    dsimp only
    rw [Function.update_apply, Function.update_apply]
    split_ifs with hsame
    · exact List.filter_subset _ (h.own dialog)
    · exact h.own dialog'

end Steps

/-! ## What a step may do -/

/-- A pass whose outcome is saved: its sweep has returned, and its lease is in the row. -/
structure Saves (world : ColdWorld) (action : ColdAction) (id : ℕ) (claim : ColdClaim)
    (result : SweepResult) (row : ColdRow) : Prop where
  action : ∃ clock, action = .finish id clock
  pass : world.passes id = some (.sweeping claim (.returned result))
  lookup : world.rows.lookup claim.dialog = some row
  held : row.Held claim.claimUntil
  accepted : result.accepted = true

/-- What a step of the backfill may do. -/
structure ColdStepSafe (world : ColdWorld) (action : ColdAction) (next : ColdWorld) : Prop where
  /-- The rows of a page are committed by the pass with the current claim. -/
  committed : ∀ dialog, next.committed dialog ≠ world.committed dialog →
    ∃ id event claim phase, action = .sweep id event ∧
      world.passes id = some (.sweeping claim phase) ∧ claim.dialog = dialog ∧
      world.holder dialog = some id
  /-- A saved page takes the offset down. -/
  decreases : ∀ id claim result row, Saves world action id claim result row →
    result.skipReason = .none → ∃ row' lowest, next.rows.lookup claim.dialog = some row' ∧
      row'.offsetId = some lowest ∧ 0 < lowest ∧
      ∀ offset, row.offsetId = some offset → 0 < offset → lowest < offset
  /-- Nothing else changes the offset. -/
  offset : ∀ dialog row row', world.rows.lookup dialog = some row →
    next.rows.lookup dialog = some row' → row'.offsetId ≠ row.offsetId →
      ∃ id claim result, Saves world action id claim result row ∧ claim.dialog = dialog ∧
        world.holder dialog = some id ∧ result.skipReason = .none
  /-- A peer is complete after an empty page of the pass with the current claim. -/
  complete : ∀ dialog row row', world.rows.lookup dialog = some row →
    next.rows.lookup dialog = some row' → row.status ≠ .complete → row'.status = .complete →
      ∃ id claim result, Saves world action id claim result row ∧ claim.dialog = dialog ∧
        world.holder dialog = some id ∧ result.skipReason = .historyFloor

section Safe

variable {world next : ColdWorld} {id : ℕ} {claim : ColdClaim} {phase : SweepPhase} {dialog : ℤ}
  {row : ColdRow} {pacing : ColdPacing} {action : ColdAction}

variable {result : SweepResult}

/-- A step that saves nothing, commits no rows and leaves offsets and completion. -/
theorem ColdStepSafe.of_rows (haction : ∀ id clock, action ≠ .finish id clock)
    (hcommitted : next.committed = world.committed)
    (hrows : ∀ dialog row row', world.rows.lookup dialog = some row →
      next.rows.lookup dialog = some row' →
        row'.offsetId = row.offsetId ∧ (row'.status = .complete → row.status = .complete)) :
    ColdStepSafe world action next where
  committed dialog hne := absurd (congrFun hcommitted dialog) hne
  decreases _ _ _ _ hsaves := by
    obtain ⟨clock, hfinish⟩ := hsaves.action
    exact absurd hfinish (haction _ clock)
  offset dialog row row' hrow hrow' hne := absurd (hrows dialog row row' hrow hrow').1 hne
  complete dialog row row' hrow hrow' hnot hcomplete :=
    absurd ((hrows dialog row row' hrow hrow').2 hcomplete) hnot

/-- A step that leaves the rows and commits none. -/
theorem ColdStepSafe.of_same (haction : ∀ id clock, action ≠ .finish id clock)
    (hcommitted : next.committed = world.committed) (hrows : next.rows = world.rows) :
    ColdStepSafe world action next := by
  refine .of_rows haction hcommitted fun dialog row row' hrow hrow' => ?_
  rw [hrows, hrow] at hrow'
  obtain rfl := Option.some.inj hrow'
  exact ⟨rfl, fun hcomplete => hcomplete⟩

/-- The answer of `accept_page`. -/
theorem claimMatches_eq_true (h : world.claimMatches claim = true) :
    ∃ row, world.rows.lookup claim.dialog = some row ∧ row.offsetId.getD 0 = claim.offset ∧
      row.Held claim.claimUntil ∧ world.lost claim.dialog = false := by
  unfold ColdWorld.claimMatches at h
  rcases hrow : world.rows.lookup claim.dialog with _ | row
  · rw [hrow] at h
    cases h
  · rw [hrow] at h
    exact ⟨row, rfl, of_decide_eq_true h⟩

/-- A step of a sweep commits rows only under the current claim. -/
theorem ColdInv.move_safe (h : ColdInv world)
    (hpass : world.passes id = some (.sweeping claim phase)) {event : SweepEvent} {move : SweepMove}
    (hstep : sweepStep (world.claimMatches claim) phase event = some move) :
    ColdStepSafe world (.sweep id event) (world.move id claim move) where
  committed dialog hne := by
    rw [move_committed] at hne
    split_ifs at hne with hdialog
    · have hrows : move.rows ≠ [] := by
        intro hnil
        rw [hnil, List.append_nil, hdialog] at hne
        exact hne rfl
      obtain ⟨row, hrow, -, hheld, -⟩ := claimMatches_eq_true (accept_of_rows hstep hrows)
      refine ⟨id, event, claim, phase, rfl, hpass, hdialog.symm, ?_⟩
      rw [hdialog]
      exact ((h.passes id claim phase hpass).current row hrow hheld).1
    · exact absurd rfl hne
  decreases _ _ _ _ hsaves := by
    obtain ⟨clock, hfinish⟩ := hsaves.action
    cases hfinish
  offset dialog row row' hrow hrow' hne := by
    rw [show (world.move id claim move).rows = world.rows from rfl, hrow] at hrow'
    obtain rfl := Option.some.inj hrow'
    exact absurd rfl hne
  complete dialog row row' hrow hrow' hnot hcomplete := by
    rw [show (world.move id claim move).rows = world.rows from rfl, hrow] at hrow'
    obtain rfl := Option.some.inj hrow'
    exact absurd hcomplete hnot

/-- What a saved outcome changes. -/
theorem finished_cases {clock : ℤ} (result : Option SweepResult) :
    ((row.finished pacing claim clock result).offsetId = row.offsetId ∧
      (row.finished pacing claim clock result).status = .pending) ∨
    ∃ accepted, result = some accepted ∧ accepted.accepted = true ∧
      (accepted.skipReason = .none ∧
          (row.finished pacing claim clock result).offsetId = accepted.minId ∧
          (row.finished pacing claim clock result).status = .pending ∨
        accepted.skipReason = .historyFloor ∧
          (row.finished pacing claim clock result).offsetId = row.offsetId) := by
  cases result with
  | none => exact .inl ⟨rfl, rfl⟩
  | some result =>
    unfold ColdRow.finished
    dsimp only
    split_ifs with haccepted
    · exact .inl ⟨rfl, rfl⟩
    rw [Bool.not_eq_false] at haccepted
    split
    · exact .inl ⟨rfl, rfl⟩
    · exact .inl ⟨rfl, rfl⟩
    · next hreason => exact .inr ⟨result, rfl, haccepted, .inr ⟨hreason, rfl⟩⟩
    · next hreason => exact .inr ⟨result, rfl, haccepted, .inl ⟨hreason, rfl, rfl⟩⟩

/-- A saved page takes its lowest id as the offset. -/
theorem finished_page {clock : ℤ} (haccepted : result.accepted = true)
    (hreason : result.skipReason = .none) :
    (row.finished pacing claim clock (some result)).offsetId = result.minId := by
  unfold ColdRow.finished
  dsimp only
  rw [if_neg (by rw [haccepted]; exact nofun), hreason]

/-- A result of a sweep is that of its phase. -/
theorem returned_of_result (h : phase.result? = some (some result)) : phase = .returned result := by
  cases phase with
  | returned result' => rw [Option.some.inj (Option.some.inj h)]
  | resolving | preparing | searching | losing | persisting => cases h
  | budgetExhausted => cases h

/-- Saving an outcome. -/
theorem ColdInv.save_safe (h : ColdInv world)
    (hpass : world.passes id = some (.sweeping claim phase)) {result : Option SweepResult}
    (hresult : phase.result? = some result) (clock : ℤ) :
    ColdStepSafe world (.finish id clock)
      { world.save pacing claim clock result with passes := world.passes.drop id } := by
  have hinv := h.passes id claim phase hpass
  rcases @save_cases world pacing claim clock result with
    ⟨row, hlookup, hheld, hsave⟩ | ⟨hnone, hsave⟩
  · rw [hsave]
    obtain ⟨hholder, hoffset⟩ := hinv.current row hlookup hheld
    have hsaves : ∀ accepted : SweepResult, result = some accepted → accepted.accepted = true →
        Saves world (.finish id clock) id claim accepted row := by
      rintro accepted rfl haccepted
      exact ⟨⟨clock, rfl⟩, returned_of_result hresult ▸ hpass, hlookup, hheld, haccepted⟩
    have hlookup' : ∀ {dialog row'}, (world.rows.insert claim.dialog
        (row.finished pacing claim clock result)).lookup dialog = some row' →
          (dialog = claim.dialog ∧ row' = row.finished pacing claim clock result) ∨
            world.rows.lookup dialog = some row' := by
      intro dialog row' hrow'
      rw [Dictionary.lookup_insert_eq] at hrow'
      split_ifs at hrow' with hsame
      · exact .inl ⟨hsame, (Option.some.inj hrow').symm⟩
      · exact .inr hrow'
    refine
      { committed := fun dialog hne => absurd rfl hne
        decreases := fun id' claim' result' row' hsaves' hreason => ?_
        offset := fun dialog row₁ row₂ hrow₁ hrow₂ hne => ?_
        complete := fun dialog row₁ row₂ hrow₁ hrow₂ hnot hcomplete => ?_ }
    · obtain ⟨⟨clock', hfinish⟩, hpass', hrow', -, haccepted⟩ := hsaves'
      obtain ⟨rfl, rfl⟩ := ColdAction.finish.inj hfinish
      rw [hpass] at hpass'
      obtain ⟨rfl, rfl⟩ := ColdPass.sweeping.inj (Option.some.inj hpass')
      rw [hlookup] at hrow'
      obtain rfl := Option.some.inj hrow'
      obtain rfl := Option.some.inj hresult
      obtain ⟨lowest, hmin, hrange, -⟩ := (hinv.covered haccepted).1 hreason
      refine ⟨_, lowest, (Dictionary.lookup_insert_eq _ _ _ _).trans (if_pos rfl), ?_, hrange.1, ?_⟩
      · rw [finished_page haccepted hreason]
        exact hmin
      · intro offset hsome hpositive
        rw [hsome] at hoffset
        change offset = claim.offset at hoffset
        have hne : claim.offset ≠ 0 := by omega
        have hlt := hrange.2.resolve_left hne
        omega
    · rcases hlookup' hrow₂ with ⟨rfl, rfl⟩ | hsame
      · rw [hlookup] at hrow₁
        obtain rfl := Option.some.inj hrow₁
        rcases @finished_cases claim row pacing clock result with
          ⟨hsame, -⟩ | ⟨accepted, hsome, haccepted, ⟨hreason, -, -⟩ | ⟨-, hsame⟩⟩
        · exact absurd hsame hne
        · exact ⟨id, claim, accepted, hsaves accepted hsome haccepted, rfl, hholder, hreason⟩
        · exact absurd hsame hne
      · rw [hrow₁] at hsame
        obtain rfl := Option.some.inj hsame
        exact absurd rfl hne
    · rcases hlookup' hrow₂ with ⟨rfl, rfl⟩ | hsame
      · rw [hlookup] at hrow₁
        obtain rfl := Option.some.inj hrow₁
        rcases @finished_cases claim row pacing clock result with
          ⟨-, hpending⟩ | ⟨accepted, hsome, haccepted, ⟨-, -, hpending⟩ | ⟨hfloor, -⟩⟩
        · rw [hpending] at hcomplete
          cases hcomplete
        · rw [hpending] at hcomplete
          cases hcomplete
        · exact ⟨id, claim, accepted, hsaves accepted hsome haccepted, rfl, hholder, hfloor⟩
      · rw [hrow₁] at hsame
        obtain rfl := Option.some.inj hsame
        exact absurd hcomplete hnot
  · rw [hsave]
    refine
      { committed := fun dialog hne => absurd rfl hne
        decreases := fun id' claim' result' row' hsaves' _ => ?_
        offset := fun dialog row₁ row₂ hrow₁ hrow₂ hne => ?_
        complete := fun dialog row₁ row₂ hrow₁ hrow₂ hnot hcomplete => ?_ }
    · obtain ⟨⟨clock', hfinish⟩, hpass', hrow', hheld', -⟩ := hsaves'
      obtain ⟨rfl, rfl⟩ := ColdAction.finish.inj hfinish
      rw [hpass] at hpass'
      obtain ⟨rfl, rfl⟩ := ColdPass.sweeping.inj (Option.some.inj hpass')
      exact absurd hheld' (hnone row' hrow')
    · rw [show world.rows.lookup dialog = some row₂ from hrow₂] at hrow₁
      obtain rfl := Option.some.inj hrow₁
      exact absurd rfl hne
    · rw [show world.rows.lookup dialog = some row₂ from hrow₂] at hrow₁
      obtain rfl := Option.some.inj hrow₁
      exact absurd hcomplete hnot

/-- A step from a state with the invariant. -/
theorem ColdInv.step_safe (h : ColdInv world) (hstep : world.step pacing action = some next) :
    ColdStepSafe world action next := by
  unfold ColdWorld.step at hstep
  cases action with
  | start id expected now =>
    dsimp only at hstep
    split at hstep
    · cases hstep
    · obtain rfl := Option.some.inj hstep
      exact .of_same nofun rfl rfl
  | claim id =>
    dsimp only at hstep
    split at hstep
    · next expected now hpass =>
      split at hstep
      · next dialog row hselected =>
        obtain rfl := Option.some.inj hstep
        refine .of_rows nofun rfl fun dialog' row' row'' hrow' hrow'' => ?_
        rw [claimPeer_rows] at hrow''
        split_ifs at hrow'' with hsame
        · obtain rfl := Option.some.inj hrow''
          rw [hsame, (selected_spec hselected).1] at hrow'
          obtain rfl := Option.some.inj hrow'
          exact ⟨rfl, nofun⟩
        · rw [hrow'] at hrow''
          obtain rfl := Option.some.inj hrow''
          exact ⟨rfl, fun hcomplete => hcomplete⟩
      · obtain rfl := Option.some.inj hstep
        exact .of_same nofun rfl rfl
    · cases hstep
  | sweep id event =>
    dsimp only at hstep
    split at hstep
    · next claim phase hpass =>
      split_ifs at hstep
      obtain ⟨move, hmove, rfl⟩ := Option.map_eq_some_iff.mp hstep
      exact h.move_safe hpass hmove
    · cases hstep
  | finish id clock =>
    dsimp only at hstep
    split at hstep
    · next claim phase hpass =>
      obtain ⟨result, hresult, rfl⟩ := Option.map_eq_some_iff.mp hstep
      exact h.save_safe hpass hresult clock
    · cases hstep
  | drop | crash | lose | restore | delete =>
    obtain rfl := Option.some.inj hstep
    exact .of_same nofun rfl rfl
  | enroll dialog now =>
    obtain rfl := Option.some.inj hstep
    unfold ColdWorld.enroll
    rcases hlookup : world.rows.lookup dialog with _ | row
    · refine .of_rows nofun rfl fun dialog' row' row'' hrow' hrow'' => ?_
      rw [Dictionary.lookup_insert_eq] at hrow''
      split_ifs at hrow'' with hsame
      · rw [hsame, hlookup] at hrow'
        cases hrow'
      · rw [hrow'] at hrow''
        obtain rfl := Option.some.inj hrow''
        exact ⟨rfl, fun hcomplete => hcomplete⟩
    · refine .of_rows nofun rfl fun dialog' row' row'' hrow' hrow'' => ?_
      rw [Dictionary.lookup_insert_eq] at hrow''
      split_ifs at hrow'' with hsame
      · obtain rfl := Option.some.inj hrow''
        rw [hsame, hlookup] at hrow'
        obtain rfl := Option.some.inj hrow'
        exact ⟨rfl, fun hcomplete => hcomplete⟩
      · rw [hrow'] at hrow''
        obtain rfl := Option.some.inj hrow''
        exact ⟨rfl, fun hcomplete => hcomplete⟩
  | receive dialog message =>
    dsimp only at hstep
    split_ifs at hstep
    obtain rfl := Option.some.inj hstep
    exact .of_same nofun rfl rfl

/-- An empty table. -/
theorem ColdInv.initial : ColdInv ColdWorld.initial where
  rows dialog row hlookup := by
    rw [ColdWorld.initial, AList.lookup_empty] at hlookup
    cases hlookup
  passes id claim phase hpass := by
    change none = some _ at hpass
    cases hpass
  leases id claim phase id' claim' phase' hpass := by
    change none = some _ at hpass
    cases hpass
  own _ := List.Subset.refl _
  positive dialog message hmem := absurd hmem List.not_mem_nil

/-- A peer that is not complete and not lost is claimed by a pass that expects it once its retry
time has come, and some peer is claimed by any other pass. -/
theorem claimable (hrow : world.rows.lookup dialog = some row) (hstatus : row.status ≠ .complete)
    (hlost : world.lost dialog = false) {now : ℤ}
    (hdue : ∀ retryAt ∈ row.nextRetryAt, retryAt ≤ now) :
    world.selected (some (dialog, row.offsetId.getD 0)) now = some (dialog, row) ∧
      (world.selected none now).isSome = true := by
  constructor
  · rw [ColdWorld.selected, hrow]
    exact if_pos ⟨rfl, ⟨hstatus, hdue⟩, hlost⟩
  · have hmem : (dialog, row) ∈ (world.rows.entries.map fun entry => (entry.1, entry.2)).filter
        fun entry => entry.2.Due now ∧ world.lost entry.1 = false := by
      refine List.mem_filter.mpr ⟨?_, decide_eq_true ⟨⟨hstatus, hdue⟩, hlost⟩⟩
      exact List.mem_map.mpr ⟨⟨dialog, row⟩, Dictionary.mem_entries_iff.mpr hrow, rfl⟩
    exact firstUpdated_isSome hmem

/-- In every run whose claims take leases of their own, every step is safe, a complete peer has
every message that was kept in a committed page, and a peer that is not complete stays
claimable. -/
theorem cold_backfill_safe {actions : List ColdAction}
    (hrun : run (ColdWorld.step pacing) ColdWorld.initial actions = some world)
    (hfresh : Along (ColdWorld.step pacing) (FreshLease pacing) ColdWorld.initial actions) :
    (∀ action next, world.step pacing action = some next → ColdStepSafe world action next) ∧
    (∀ dialog row, world.rows.lookup dialog = some row → row.status = .complete →
      world.kept dialog ⊆ world.committed dialog) ∧
    (∀ dialog row now, world.rows.lookup dialog = some row → row.status ≠ .complete →
      world.lost dialog = false → (∀ retryAt ∈ row.nextRetryAt, retryAt ≤ now) →
        world.selected (some (dialog, row.offsetId.getD 0)) now = some (dialog, row) ∧
        (world.selected none now).isSome = true) := by
  have h : ColdInv world :=
    run_along (fun _ _ _ hinv hfresh hstep => hinv.step hfresh hstep) ColdInv.initial hfresh hrun
  refine ⟨fun action next hstep => h.step_safe hstep, ?_, ?_⟩
  · exact fun dialog row hrow hcomplete => (h.rows dialog row hrow).complete hcomplete
  · exact fun dialog row now hrow hstatus hlost hdue => claimable hrow hstatus hlost hdue

/-- A pass commits the page of the only message of a peer. -/
theorem cold_backfill_safe_page :
    ∃ world, world.committed 7 = [5] ∧ world.kept 7 = [5] ∧
      ∀ action next, world.step ⟨0, 300, 10⟩ action = some next →
        ColdStepSafe world action next := by
  let before : List ColdAction := [.receive 7 5, .enroll 7 0, .start 1 none 100]
  let after : List ColdAction := [.sweep 1 (.resolve .resolved), .sweep 1 .prepare,
    .sweep 1 (.search (.page [5])), .sweep 1 (.persist .none 1 1), .finish 1 101]
  have hresult : (run (ColdWorld.step ⟨0, 300, 10⟩) ColdWorld.initial
      (before ++ .claim 1 :: after)).map (fun world => (world.committed 7, world.kept 7)) =
        some ([5], [5]) := by
    decide +kernel
  obtain ⟨world, hrun, hworld⟩ := Option.map_eq_some_iff.mp hresult
  have hfresh : Along (ColdWorld.step ⟨0, 300, 10⟩) (FreshLease ⟨0, 300, 10⟩) ColdWorld.initial
      (before ++ .claim 1 :: after) := by
    refine along_append (t := _) (along_of_forall ?_) rfl ⟨?_, fun _ _ => along_of_forall ?_⟩
    · intro action hmem world'
      cases action with
      | claim id => simp [before] at hmem
      | _ => trivial
    · -- the only pass has not claimed a peer yet
      rintro expected now dialog row - - id' claim phase hpass
      change Table.put _ _ _ _ = _ at hpass
      exact absurd (sweeping_of_put_claiming hpass) nofun
    · intro action hmem world'
      cases action with
      | claim id => simp [after] at hmem
      | _ => trivial
  exact ⟨world, congrArg Prod.fst hworld, congrArg Prod.snd hworld,
    (cold_backfill_safe hrun hfresh).1⟩

/-- A claim whose clock was read before the current lease ran out takes the lease of a pass that is
still in flight, and that pass commits its page under a claim that is not its own. -/
theorem page_committed_under_another_claim :
    ∃ (pacing : ColdPacing) (actions : List ColdAction) (world next : ColdWorld),
      run (ColdWorld.step pacing) ColdWorld.initial actions = some world ∧
      world.step pacing (.sweep 1 (.persist .none 1 1)) = some next ∧
      next.committed 7 ≠ world.committed 7 ∧ world.holder 7 = some 2 := by
  let pacing : ColdPacing := ⟨0, 300, 10⟩
  let actions : List ColdAction := [.receive 7 5, .enroll 7 0,
    .start 1 none 100, .claim 1, .start 2 none 100,
    .sweep 1 (.resolve .resolved), .sweep 1 .prepare, .sweep 1 (.search (.page [5])),
    .start 3 none 110, .claim 3, .sweep 3 (.resolve .budgetExhausted), .finish 3 110, .claim 2]
  have hbefore : (run (ColdWorld.step pacing) ColdWorld.initial actions).map
      (fun world => (world.committed 7, world.holder 7)) = some ([], some 2) := by
    decide +kernel
  have hafter : ((run (ColdWorld.step pacing) ColdWorld.initial actions).bind fun world =>
      (world.step pacing (.sweep 1 (.persist .none 1 1))).map (·.committed 7)) = some [5] := by
    decide +kernel
  obtain ⟨world, hrun, hworld⟩ := Option.map_eq_some_iff.mp hbefore
  rw [hrun, Option.bind_some] at hafter
  obtain ⟨next, hstep, hnext⟩ := Option.map_eq_some_iff.mp hafter
  refine ⟨pacing, actions, world, next, hrun, hstep, ?_, congrArg Prod.snd hworld⟩
  rw [hnext, show world.committed 7 = [] from congrArg Prod.fst hworld]
  exact List.cons_ne_nil _ _

end Safe

end McpTelegram
