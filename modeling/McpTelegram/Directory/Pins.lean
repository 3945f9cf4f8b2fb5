import McpTelegram.Folders.Membership
import McpTelegram.Foundations.KeysetOrder
import McpTelegram.Foundations.LastWriter
import McpTelegram.Foundations.Run

/-!
# Published pins

The pins of a folder are written by realtime updates, which carry an observation order and arrive
in any order, and by a directory generation, which acquires the whole list under an order of its own
and publishes it later.  Whatever the interleaving, what is published is decided by the deliveries:
the newest whole list, with the newer pins in front of it and the newer unpins taken out
(`PinRecord.pinned`).

The invariant: the staged list is the answer of the active generation under rows whose dialogs are
still observed, so that the overlay of the publication covers them (`pinOverlay_absorb`).
-/

namespace McpTelegram

open Foundations

/-! ## Rows and overlays -/

/-- A row of `dialog_pin_observations` of one folder. -/
structure PinRow where
  dialogId : ℤ
  observationOrder : ℕ
  pinned : Bool
  deriving DecidableEq

/-- The key of `ORDER BY observation_order DESC, dialog_id`. -/
def PinRow.key (row : PinRow) : ℕ ×ₗ ℤᵒᵈ :=
  toLex (row.observationOrder, OrderDual.toDual row.dialogId)

/-- The dialogs of the rows. -/
def changed (rows : List PinRow) : List ℤ := rows.map (·.dialogId)

/-- What `ordered_pin_overlay` answers for the rows that it reads. -/
def pinOverlay (rows : List PinRow) (base : List ℤ) : List ℤ :=
  changed ((greatestFirst PinRow.key rows).filter (·.pinned)) ++ base.filter (· ∉ changed rows)

section Overlay

variable {rows rows' : List PinRow} {base : List ℤ} {id : ℤ}

theorem mem_changed : id ∈ changed rows ↔ ∃ row ∈ rows, row.dialogId = id := List.mem_map

/-- The pins in front of an overlay belong to its rows. -/
theorem changed_of_pin (h : id ∈ changed ((greatestFirst PinRow.key rows).filter (·.pinned))) :
    ∃ row ∈ rows, row.dialogId = id ∧ row.pinned = true := by
  obtain ⟨row, hrow, rfl⟩ := mem_changed.mp h
  obtain ⟨hmem, hpinned⟩ := List.mem_filter.mp hrow
  exact ⟨row, (greatestFirst_perm _ rows).mem_iff.mp hmem, rfl, hpinned⟩

theorem mem_pinOverlay : id ∈ pinOverlay rows base ↔
    (∃ row ∈ rows, row.dialogId = id ∧ row.pinned = true) ∨ (id ∈ base ∧ id ∉ changed rows) := by
  rw [pinOverlay, List.mem_append, List.mem_filter, decide_eq_true_eq]
  refine or_congr_left ⟨changed_of_pin, ?_⟩
  rintro ⟨row, hrow, rfl, hpinned⟩
  have hmem := (greatestFirst_perm PinRow.key rows).mem_iff.mpr hrow
  exact mem_changed.mpr ⟨row, List.mem_filter.mpr ⟨hmem, hpinned⟩, rfl⟩

/-- An overlay covers an overlay of rows whose dialogs have rows again. -/
theorem pinOverlay_absorb (h : changed rows ⊆ changed rows') :
    pinOverlay rows' (pinOverlay rows base) = pinOverlay rows' base := by
  have hpins : (changed ((greatestFirst PinRow.key rows).filter (·.pinned))).filter
      (· ∉ changed rows') = [] := by
    refine List.filter_eq_nil_iff.mpr fun id hid => ?_
    obtain ⟨row, hrow, hdialog, -⟩ := changed_of_pin hid
    simp [h (mem_changed.mpr ⟨row, hrow, hdialog⟩)]
  simp only [pinOverlay, List.filter_append, hpins, List.nil_append, List.filter_filter]
  refine congrArg _ (List.filter_congr fun id _ => ?_)
  by_cases hid : id ∈ changed rows'
  · simp [hid]
  · simp [hid, show id ∉ changed rows from fun hmem => hid (h hmem)]

/-- Moving a dialog that has a row inside the base has no effect. -/
theorem pinOverlay_moved (h : id ∈ changed rows) (pinned : Bool) :
    pinOverlay rows ((if pinned then [id] else []) ++ base.filter (· ≠ id)) =
      pinOverlay rows base := by
  have hfront : (if pinned then [id] else []).filter (· ∉ changed rows) = [] := by
    cases pinned <;> simp [h]
  rw [pinOverlay, pinOverlay, List.filter_append, hfront, List.nil_append, List.filter_filter]
  refine congrArg _ (List.filter_congr fun other _ => ?_)
  by_cases hother : other = id <;> simp [hother, h]

/-- The overlay names no dialog twice. -/
theorem pinOverlay_nodup (hrows : (changed rows).Nodup) (hbase : base.Nodup) :
    (pinOverlay rows base).Nodup := by
  have hsorted : (changed (greatestFirst PinRow.key rows)).Nodup :=
    ((greatestFirst_perm PinRow.key rows).map _).nodup_iff.mpr hrows
  refine List.Nodup.append (hsorted.sublist (List.filter_sublist.map _)) (hbase.filter _) ?_
  intro id hid hid'
  obtain ⟨row, hrow, hdialog, -⟩ := changed_of_pin hid
  exact of_decide_eq_true (List.mem_filter.mp hid').2 (mem_changed.mpr ⟨row, hrow, hdialog⟩)

/-- The overlay does not depend on the order in which the table holds the rows. -/
theorem pinOverlay_perm (hperm : rows.Perm rows') (hrows : (changed rows).Nodup) :
    pinOverlay rows base = pinOverlay rows' base := by
  have hkeys : (rows.map PinRow.key).Nodup := List.pairwise_map.mpr <|
    (List.pairwise_map.mp hrows).imp fun hne heq => hne (congrArg (fun key => (ofLex key).2) heq)
  have hchanged : ∀ id, id ∈ changed rows ↔ id ∈ changed rows' := fun _ =>
    (hperm.map (·.dialogId)).mem_iff
  simp only [pinOverlay, greatestFirst_congr _ hperm hkeys, hchanged]

end Overlay

/-! ## The tables -/

/-- The tables of the pins of the main list (`folder_id` 0).  Those of the archive are the same rows
under `folder_id` 1, without the projection in `dialogs`. -/
structure PinStore where
  /-- `dialog_pin_snapshot_observations`. -/
  floor : Option ℕ := none
  /-- `dialog_pin_observations`. -/
  observations : List PinRow := []
  /-- `dialog_directory_published_pins`, by position. -/
  published : List ℤ := []
  /-- `dialog_directory_pins` of the active generation, by position. -/
  staged : List ℤ := []
  /-- `dialog_directory_pin_snapshots` of the active generation. -/
  snapshot : Option ℕ := none
  /-- `dialog_directory_state.status` is `in_progress`. -/
  inProgress : Bool := false
  /-- `dialogs.pinned`, of the known dialogs. -/
  dialogs : ℤ → Option Bool

namespace PinStore

/-- No pin is stored. -/
def init (known : ℤ → Bool) : PinStore where
  dialogs id := if known id then some false else none

/-- `claim_pin_delta`: `none` when the observation is not newer than what is stored. -/
def claimPinDelta (self : PinStore) (row : PinRow) : Option PinStore :=
  if self.floor.any (row.observationOrder ≤ ·) then none
  else if self.observations.any fun known =>
      known.dialogId = row.dialogId ∧ row.observationOrder ≤ known.observationOrder then none
  else some { self with
    observations := self.observations.filter (·.dialogId ≠ row.dialogId) ++ [row] }

/-- `ordered_pin_overlay`. -/
def orderedPinOverlay (self : PinStore) (base : List ℤ) (floor : Option ℕ) : List ℤ :=
  pinOverlay (self.observations.filter (floor.getD (self.floor.getD 0) < ·.observationOrder)) base

/-- `claim_pin_snapshot`: `none` when a list as new is stored. -/
def claimPinSnapshot (self : PinStore) (order : ℕ) (base : List ℤ) : Option (PinStore × List ℤ) :=
  if self.floor.any (order ≤ ·) then none
  else
    let claimed := { self with
      floor := some order
      observations := self.observations.filter (order < ·.observationOrder) }
    some (claimed, claimed.orderedPinOverlay base (some order))

/-- `apply_active_generation_pin_delta`. -/
def applyActiveGenerationPinDelta (self : PinStore) (row : PinRow) : PinStore :=
  if ¬self.inProgress ∨ self.snapshot.any fun order => self.observations.any fun delta =>
      delta.dialogId = row.dialogId ∧ delta.observationOrder ≤ order then self
  else
    let current := (if row.pinned then [row.dialogId] else []) ++
      self.staged.filter (· ≠ row.dialogId)
    { self with staged := self.orderedPinOverlay current self.snapshot }

/-- `_UPDATE_DIALOG_PINNED_SQL`. -/
def setPinned (pinned : Bool) (dialogs : ℤ → Option Bool) (dialogId : ℤ) : ℤ → Option Bool :=
  fun id => if id = dialogId then (dialogs id).map fun _ => pinned else dialogs id

/-- `_update_dialog_pinned`, with `_apply_published_pin_mutation`.  The event that it adds to the
fence of the generation carries its order, so no commit reads it. -/
def updateDialogPinned (self : PinStore) (row : PinRow) : PinStore :=
  match self.claimPinDelta row with
  | none => self
  | some claimed =>
    { claimed with
      dialogs := setPinned row.pinned claimed.dialogs row.dialogId
      published := claimed.orderedPinOverlay claimed.published none
      }.applyActiveGenerationPinDelta row

/-- `sync_active_generation_pins_from_publication`. -/
def syncActiveGenerationPins (self : PinStore) : PinStore :=
  if ¬self.inProgress ∨ self.snapshot.any (fun order => self.floor.any (· ≤ order)) then self
  else { self with staged := self.published }

/-- `_rewrite_pinned_dialogs`, of the dialogs that `_collect_pinned_dialog_ids` finds. -/
def rewritePinnedDialogs (self : PinStore) (order : List ℤ) (observationOrder : ℕ) : PinStore :=
  match self.claimPinSnapshot observationOrder order.eraseDups with
  | none => self
  | some (claimed, merged) =>
    { claimed with
      dialogs := merged.foldl (setPinned true) fun id => (claimed.dialogs id).map fun _ => false
      published := merged }.syncActiveGenerationPins

/-- `_commit_pinned_generation`, under the order that the acquisition reserved. -/
def commitPinnedGeneration (self : PinStore) (ids : List ℤ) (order : ℕ) : PinStore :=
  { self with snapshot := some order, staged := self.orderedPinOverlay ids (some order) }

/-- `_publish_generation_pin_snapshots` and the rest of `_publish_if_complete`. -/
def publishGeneration (self : PinStore) (order : ℕ) : PinStore :=
  let (claimed, current) :=
    (self.claimPinSnapshot order self.staged).getD (self, self.published)
  { claimed with
    published := current
    staged := []
    snapshot := none
    inProgress := false
    dialogs := fun id => (claimed.dialogs id).map fun _ => decide (id ∈ current) }

end PinStore

/-! ## Realtime updates and generations -/

/-- What happens to the pins. -/
inductive PinEvent where
  /-- An `UpdateDialogPinned`. -/
  | updateDialogPinned (row : PinRow)
  /-- An `UpdatePinnedDialogs` that has an order. -/
  | rewritePinnedDialogs (order : List ℤ) (observationOrder : ℕ)
  /-- `_start_generation`. -/
  | startGeneration
  /-- The generation becomes incomplete or invalid, or an incomplete one is resumed. -/
  | setInProgress (inProgress : Bool)
  /-- `_commit_pinned_response`. -/
  | commitPinned (ids : List ℤ) (observationOrder : ℕ)
  /-- `_publish_if_complete`. -/
  | publish

/-- One event.  An answer that names a dialog twice breaks the primary key of the staged pins, and
only a generation with an answer is published. -/
def PinStore.step (self : PinStore) : PinEvent → Option PinStore
  | .updateDialogPinned row => some (self.updateDialogPinned row)
  | .rewritePinnedDialogs order observationOrder =>
    some (self.rewritePinnedDialogs order observationOrder)
  | .startGeneration =>
    some { self with inProgress := true, staged := self.published, snapshot := none }
  | .setInProgress inProgress => some { self with inProgress }
  | .commitPinned ids observationOrder =>
    if self.inProgress ∧ ids.Nodup then some (self.commitPinnedGeneration ids observationOrder)
    else none
  | .publish => if self.inProgress then self.snapshot.map self.publishGeneration else none

/-! ## The deliveries -/

/-- What was delivered about the pins: the pins and unpins, the whole lists, and the answer that the
active generation has not published yet. -/
structure PinRecord where
  toggles : List PinRow := []
  lists : List (ℕ × List ℤ) := []
  answer : Option (ℕ × List ℤ) := none

namespace PinRecord

/-- The newest whole list. -/
def latest (self : PinRecord) : Option (ℕ × List ℤ) := newest Prod.fst self.lists

/-- The order of the newest whole list. -/
def bound (self : PinRecord) : ℕ := (self.latest.map Prod.fst).getD 0

/-- The pins and unpins that are newer than the list and than all others of their dialogs. -/
def live (self : PinRecord) : List PinRow :=
  self.toggles.filter fun row => self.bound < row.observationOrder ∧
    ∀ other ∈ self.toggles, other.dialogId = row.dialogId →
      other.observationOrder ≤ row.observationOrder

/-- The list that the deliveries stand for. -/
def pinned (self : PinRecord) : List ℤ :=
  pinOverlay self.live ((self.latest.map Prod.snd).getD [])

/-- A pin or unpin more. -/
def toggled (self : PinRecord) (row : PinRow) : PinRecord :=
  { self with toggles := self.toggles ++ [row] }

/-- A whole list more. -/
def listed (self : PinRecord) (order : ℕ) (ids : List ℤ) : PinRecord :=
  { self with lists := self.lists ++ [(order, ids)] }

/-- What an event delivers. -/
def deliver (self : PinRecord) : PinEvent → PinRecord
  | .updateDialogPinned row => self.toggled row
  | .rewritePinnedDialogs order observationOrder => self.listed observationOrder order.eraseDups
  | .startGeneration => { self with answer := none }
  | .setInProgress _ => self
  | .commitPinned ids observationOrder => { self with answer := some (observationOrder, ids) }
  | .publish => { self with lists := self.lists ++ self.answer.toList, answer := none }

/-- Pins and unpins are delivered under positive orders, each used once. -/
def FreshOrder (self : PinRecord) : PinEvent → Prop
  | .updateDialogPinned row =>
    0 < row.observationOrder ∧
      ∀ known ∈ self.toggles, known.observationOrder ≠ row.observationOrder
  | _ => True

end PinRecord

/-! ## Live rows -/

namespace PinRecord

variable {record : PinRecord} {row : PinRow} {order : ℕ} {ids : List ℤ}

theorem mem_live : row ∈ record.live ↔ row ∈ record.toggles ∧
    record.bound < row.observationOrder ∧ ∀ other ∈ record.toggles,
      other.dialogId = row.dialogId → other.observationOrder ≤ row.observationOrder := by
  rw [live, List.mem_filter, decide_eq_true_eq]

/-- The live rows are those above the bound. -/
theorem live_above : record.live.filter (record.bound < ·.observationOrder) = record.live :=
  List.filter_eq_self.mpr fun _ hrow => decide_eq_true (mem_live.mp hrow).2.1

/-- Above the bound, the newest row of a dialog is live. -/
theorem exists_live (hmem : row ∈ record.toggles) (habove : record.bound < row.observationOrder) :
    ∃ known ∈ record.live, known.dialogId = row.dialogId ∧
      row.observationOrder ≤ known.observationOrder := by
  have hself : row ∈ record.toggles.filter (·.dialogId = row.dialogId) :=
    List.mem_filter.mpr ⟨hmem, decide_eq_true rfl⟩
  obtain ⟨known, -, hknown, hmax⟩ :=
    newest_spec PinRow.observationOrder (List.ne_nil_of_mem hself)
  obtain ⟨htoggle, hsame⟩ := List.mem_filter.mp hknown
  have hsame := of_decide_eq_true hsame
  have hle := hmax row hself
  refine ⟨known, mem_live.mpr ⟨htoggle, habove.trans_le hle, fun other hother h => ?_⟩, hsame, hle⟩
  exact hmax other (List.mem_filter.mpr ⟨hother, decide_eq_true (h.trans hsame)⟩)

/-- A delivery retires the live rows of its dialog that are older. -/
theorem live_toggled : (record.toggled row).live =
    (record.live.filter fun known =>
      known.dialogId = row.dialogId → row.observationOrder ≤ known.observationOrder) ++
    if row ∈ (record.toggled row).live then [row] else [] := by
  have hmem : row ∈ (record.toggled row).toggles := List.mem_append_right _ List.mem_cons_self
  simp only [mem_live, hmem, true_and]
  rw [live, live, toggled, List.filter_append, List.filter_filter]
  refine congrArg₂ _ (List.filter_congr fun known _ => ?_) ?_
  · rw [← Bool.decide_and, decide_eq_decide]
    simp only [List.forall_mem_append, List.forall_mem_singleton, eq_comm (a := row.dialogId)]
    exact ⟨fun h => ⟨h.2.2, h.1, h.2.1⟩, fun h => ⟨h.2.1, h.2.2, h.1⟩⟩
  · rw [List.filter_cons, List.filter_nil]
    simp only [decide_eq_true_eq]

/-- A row that is not above the bound, or older than a live row of its dialog, changes nothing. -/
theorem live_toggled_of_old (h : row.observationOrder ≤ record.bound ∨
      ∃ known ∈ record.live, known.dialogId = row.dialogId ∧
        row.observationOrder < known.observationOrder) :
    (record.toggled row).live = record.live := by
  rw [live_toggled, if_neg, List.append_nil, List.filter_eq_self]
  · intro known hknown
    refine decide_eq_true fun hsame => ?_
    obtain ⟨-, habove, hmax⟩ := mem_live.mp hknown
    rcases h with hle | ⟨other, hother, hdialog, hlt⟩
    · exact hle.trans habove.le
    · exact hlt.le.trans (hmax other (mem_live.mp hother).1 (hdialog.trans hsame.symm))
  · intro hrow
    obtain ⟨-, habove, hmax⟩ := mem_live.mp hrow
    rcases h with hle | ⟨other, hother, hdialog, hlt⟩
    · exact absurd habove hle.not_gt
    · exact absurd (hmax other (List.mem_append_left _ (mem_live.mp hother).1) hdialog) hlt.not_ge

/-- A delivery takes the place of its dialog's row. -/
def Accepts (record : PinRecord) (row : PinRow) : Prop :=
  (record.toggled row).live = record.live.filter (·.dialogId ≠ row.dialogId) ++ [row]

/-- Any other delivery is accepted. -/
theorem accepts_of_new (habove : record.bound < row.observationOrder)
    (hnew : ∀ known ∈ record.live, known.dialogId = row.dialogId →
      known.observationOrder < row.observationOrder) :
    record.Accepts row := by
  rw [Accepts, live_toggled, if_pos]
  · refine congrArg (· ++ [row]) (List.filter_congr fun known hknown => decide_eq_decide.mpr ?_)
    exact ⟨fun h hsame => (hnew known hknown hsame).not_ge (h hsame), fun h hsame => absurd hsame h⟩
  · refine mem_live.mpr
      ⟨List.mem_append_right _ List.mem_cons_self, habove, fun other hother h => ?_⟩
    rcases List.mem_append.mp hother with hother | hother
    · by_cases hbound : record.bound < other.observationOrder
      · obtain ⟨known, hknown, hsame, hle⟩ := exists_live hother hbound
        exact hle.trans (hnew known hknown (hsame.trans h)).le
      · exact (not_lt.mp hbound).trans habove.le
    · rw [List.mem_singleton.mp hother]

namespace Accepts

theorem mem_live (h : record.Accepts row) : row ∈ (record.toggled row).live :=
  h ▸ List.mem_append_right _ List.mem_cons_self

/-- Every dialog that has a live row keeps one, which is as new. -/
theorem changed_live_above (h : record.Accepts row) (order : ℕ) :
    changed (record.live.filter (order < ·.observationOrder)) ⊆
      changed ((record.toggled row).live.filter (order < ·.observationOrder)) := by
  intro id hid
  obtain ⟨known, hknown, rfl⟩ := mem_changed.mp hid
  obtain ⟨hmem, habove⟩ := List.mem_filter.mp hknown
  by_cases hsame : known.dialogId = row.dialogId
  · have hle := (PinRecord.mem_live.mp h.mem_live).2.2 known
      (List.mem_append_left _ (PinRecord.mem_live.mp hmem).1) hsame
    have habove := (of_decide_eq_true habove).trans_le hle
    exact mem_changed.mpr ⟨row, List.mem_filter.mpr ⟨h.mem_live, decide_eq_true habove⟩, hsame.symm⟩
  · have hkept : known ∈ (record.toggled row).live :=
      h ▸ List.mem_append_left _ (List.mem_filter.mpr ⟨hmem, decide_eq_true hsame⟩)
    exact mem_changed.mpr ⟨known, List.mem_filter.mpr ⟨hkept, habove⟩, rfl⟩

theorem changed_live_subset (h : record.Accepts row) :
    changed record.live ⊆ changed (record.toggled row).live := by
  have habove := h.changed_live_above record.bound
  rw [live_above] at habove
  exact List.Subset.trans habove (List.filter_sublist.map _).subset

theorem distinct (h : record.Accepts row) (hdistinct : (changed record.live).Nodup) :
    (changed (record.toggled row).live).Nodup := by
  rw [h, changed, List.map_append]
  refine List.Nodup.append (hdistinct.sublist (List.filter_sublist.map _))
    (List.nodup_singleton _) fun id hid hid' => ?_
  obtain ⟨known, hknown, rfl⟩ := List.mem_map.mp hid
  exact of_decide_eq_true (List.mem_filter.mp hknown).2 (List.mem_singleton.mp hid')

/-- Only the dialog of the delivery enters or leaves the list. -/
theorem mem_pinned (h : record.Accepts row) (id : ℤ) : id ∈ (record.toggled row).pinned ↔
    if id = row.dialogId then row.pinned = true else id ∈ record.pinned := by
  have hrows : ∀ known, known ∈ (record.toggled row).live ↔
      (known ∈ record.live ∧ known.dialogId ≠ row.dialogId) ∨ known = row := fun known => by
    rw [h, List.mem_append, List.mem_filter, List.mem_singleton, decide_eq_true_eq]
  have hbase : ((record.toggled row).latest.map Prod.snd).getD [] =
      (record.latest.map Prod.snd).getD [] := rfl
  rw [pinned, pinned, hbase, mem_pinOverlay, mem_pinOverlay, mem_changed, mem_changed]
  simp only [hrows]
  grind

end Accepts

theorem latest_listed (record : PinRecord) (order : ℕ) (ids : List ℤ) :
    (record.listed order ids).latest = newer Prod.fst record.latest (order, ids) :=
  newest_append _ _ _

/-- A newer list retires the live rows that it covers. -/
theorem live_listed (hlatest : (record.listed order ids).latest = some (order, ids))
    (hle : record.bound ≤ order) :
    (record.listed order ids).live = record.live.filter (order < ·.observationOrder) := by
  have hbound : (record.listed order ids).bound = order := by rw [bound, hlatest]; rfl
  rw [live, live, hbound, List.filter_filter]
  refine List.filter_congr fun known _ => ?_
  rw [← Bool.decide_and, decide_eq_decide]
  exact ⟨fun h => ⟨h.1, hle.trans_lt h.1, h.2⟩, fun h => ⟨h.1, h.2.2⟩⟩

/-- A list that is not the newest retires nothing. -/
theorem live_listed_of_old (hlatest : (record.listed order ids).latest = record.latest) :
    (record.listed order ids).live = record.live := by
  rw [live, live, bound, bound, hlatest]
  rfl

end PinRecord

/-! ## The tables follow the deliveries -/

namespace PinStore

/-- The staged list is an answer under rows that the overlay of its publication covers, unless a
list as new is published already. -/
def Covers (self : PinStore) (order : ℕ) (ids : List ℤ) : Prop :=
  self.floor.any (order ≤ ·) = true ∨ ∃ rows, self.staged = pinOverlay rows ids ∧
    changed rows ⊆ changed (self.observations.filter (order < ·.observationOrder))

/-- The tables and what was delivered. -/
structure Follows (store : PinStore) (known : ℤ → Bool) (record : PinRecord) : Prop where
  floor : store.floor = record.latest.map Prod.fst
  observations : store.observations = record.live
  published : store.published = record.pinned
  snapshot : store.snapshot = record.answer.map Prod.fst
  covers : ∀ answer ∈ record.answer, store.Covers answer.1 answer.2
  dialogs : ∀ id, store.dialogs id =
    if known id then some (decide (id ∈ store.published)) else none
  distinct : (changed store.observations).Nodup
  publishedNodup : store.published.Nodup
  stagedNodup : store.staged.Nodup

variable {self self' : PinStore} {known : ℤ → Bool} {record : PinRecord} {row : PinRow} {order : ℕ}
  {ids : List ℤ}

theorem init_follows (known : ℤ → Bool) : (init known).Follows known {} := by
  constructor <;> first
    | rfl
    | exact List.nodup_nil
    | exact fun _ => rfl
    | exact fun _ h => absurd h (Option.not_mem_none _)

/-- The projection after the dialogs of a list were pinned. -/
theorem foldl_setPinned (ids : List ℤ) (dialogs : ℤ → Option Bool) (id : ℤ) :
    ids.foldl (setPinned true) dialogs id =
      if id ∈ ids then (dialogs id).map fun _ => true else dialogs id := by
  induction ids generalizing dialogs with
  | nil => rfl
  | cons other ids ih =>
    rw [List.foldl_cons, ih, setPinned]
    cases dialogs id <;> by_cases hid : id = other <;> simp [hid]

namespace Follows

/-- A delivery that decides nothing. -/
theorem kept {record' : PinRecord} (h : self.Follows known record)
    (hlive : record'.live = record.live) (hlatest : record'.latest = record.latest)
    (hanswer : record'.answer = record.answer) : self.Follows known record' :=
  { h with
    floor := by rw [h.floor, hlatest]
    observations := by rw [h.observations, hlive]
    published := by rw [h.published, PinRecord.pinned, PinRecord.pinned, hlive, hlatest]
    snapshot := by rw [h.snapshot, hanswer]
    covers := hanswer ▸ h.covers }

/-- What `claim_pin_delta` decides. -/
theorem claimPinDelta (h : self.Follows known record) (hpositive : 0 < row.observationOrder)
    (hfresh : ∀ known ∈ record.toggles, known.observationOrder ≠ row.observationOrder) :
    (self.claimPinDelta row = none ∧ (record.toggled row).live = record.live) ∨
      (self.claimPinDelta row = some { self with observations := (record.toggled row).live } ∧
        record.Accepts row) := by
  have hfloor : self.floor.any (row.observationOrder ≤ ·) = true ↔
      row.observationOrder ≤ record.bound := by
    rw [PinRecord.bound, ← h.floor]
    cases self.floor <;> simp [hpositive.ne']
  rw [PinStore.claimPinDelta, h.observations]
  split_ifs with hbound hknown
  · exact Or.inl ⟨rfl, PinRecord.live_toggled_of_old (Or.inl (hfloor.mp hbound))⟩
  · obtain ⟨known, hlive, hsame⟩ := List.any_eq_true.mp hknown
    obtain ⟨hdialog, hle⟩ := of_decide_eq_true hsame
    refine Or.inl ⟨rfl, PinRecord.live_toggled_of_old (Or.inr ⟨known, hlive, hdialog, ?_⟩)⟩
    exact lt_of_le_of_ne hle (hfresh known (PinRecord.mem_live.mp hlive).1).symm
  · have habove := not_le.mp fun hle => hbound (hfloor.mpr hle)
    have hlive := PinRecord.accepts_of_new habove fun known hmem hdialog =>
      not_le.mp fun hle =>
        hknown (List.any_eq_true.mpr ⟨known, hmem, decide_eq_true ⟨hdialog, hle⟩⟩)
    exact Or.inr ⟨by rw [hlive], hlive⟩

/-- The published list after a pin or unpin. -/
theorem overlay_published (h : self.Follows known record) (haccepts : record.Accepts row) :
    { self with observations := (record.toggled row).live }.orderedPinOverlay self.published none =
      (record.toggled row).pinned := by
  have hbound : self.floor.getD 0 = (record.toggled row).bound := by rw [h.floor]; rfl
  rw [orderedPinOverlay]
  simp only [Option.getD_none, hbound, PinRecord.live_above]
  rw [h.published, PinRecord.pinned, pinOverlay_absorb haccepts.changed_live_subset]
  rfl

/-- The active generation overlays its list with a row that is live. -/
theorem applyActiveGenerationPinDelta (h : self.Follows known record) (hrow : row ∈ record.live) :
    (self.applyActiveGenerationPinDelta row).Follows known record := by
  rw [PinStore.applyActiveGenerationPinDelta]
  split
  next => exact h
  next hnew =>
    refine { h with covers := fun answer hanswer => ?_, stagedNodup := ?_ }
    · have hsnapshot : self.snapshot = some answer.1 := by
        rw [h.snapshot, Option.mem_def.mp hanswer, Option.map_some]
      have habove : row ∈ self.observations.filter (answer.1 < ·.observationOrder) := by
        rw [h.observations]
        refine List.mem_filter.mpr ⟨hrow, decide_eq_true (not_le.mp fun hle => hnew (Or.inr ?_))⟩
        rw [hsnapshot, Option.any_some, h.observations, List.any_eq_true]
        exact ⟨row, hrow, decide_eq_true ⟨rfl, hle⟩⟩
      refine (h.covers answer hanswer).imp_right fun ⟨rows, hstaged, hrows⟩ =>
        ⟨_, ?_, List.Subset.refl _⟩
      change self.orderedPinOverlay _ self.snapshot = _
      rw [orderedPinOverlay, hsnapshot, Option.getD_some,
        pinOverlay_moved (mem_changed.mpr ⟨row, habove, rfl⟩), hstaged, pinOverlay_absorb hrows]
    · refine pinOverlay_nodup (h.distinct.sublist (List.filter_sublist.map _))
        (List.Nodup.append (by split <;> simp) (h.stagedNodup.filter _) fun id hid hid' => ?_)
      have hne := of_decide_eq_true (List.mem_filter.mp hid').2
      split at hid
      · exact hne (List.mem_singleton.mp hid)
      · exact absurd hid List.not_mem_nil

theorem updateDialogPinned (h : self.Follows known record)
    (hfresh : record.FreshOrder (.updateDialogPinned row)) :
    (self.updateDialogPinned row).Follows known (record.toggled row) := by
  rw [PinStore.updateDialogPinned]
  obtain ⟨hclaim, hlive⟩ | ⟨hclaim, haccepts⟩ := h.claimPinDelta hfresh.1 hfresh.2
  · rw [hclaim]
    exact h.kept hlive rfl rfl
  · have hpublished := h.overlay_published haccepts
    have hdistinct := haccepts.distinct (h.observations ▸ h.distinct)
    simp only [hclaim, hpublished]
    refine applyActiveGenerationPinDelta ?_ haccepts.mem_live
    exact {
      floor := h.floor
      observations := rfl
      published := rfl
      snapshot := h.snapshot
      covers := fun answer hanswer => (h.covers answer hanswer).imp_right
        fun ⟨rows, hstaged, hrows⟩ => ⟨rows, hstaged, List.Subset.trans hrows
          (h.observations ▸ haccepts.changed_live_above _)⟩
      dialogs := fun id => by
        simp only [setPinned, h.dialogs, h.published, haccepts.mem_pinned]
        split_ifs <;> simp
      distinct := hdistinct
      publishedNodup := hpublished ▸ pinOverlay_nodup
        (hdistinct.sublist (List.filter_sublist.map _)) h.publishedNodup
      stagedNodup := h.stagedNodup }

/-- What `claim_pin_snapshot` decides. -/
theorem claimPinSnapshot (h : self.Follows known record) (order : ℕ) (ids base : List ℤ) :
    (self.claimPinSnapshot order base = none ∧ (record.listed order ids).latest = record.latest) ∨
      (self.claimPinSnapshot order base = some
          ({ self with floor := some order, observations := (record.listed order ids).live },
            pinOverlay (record.listed order ids).live base) ∧
        self.floor.any (order ≤ ·) = false ∧
        (record.listed order ids).latest = some (order, ids) ∧
        (record.listed order ids).live = record.live.filter (order < ·.observationOrder)) := by
  have hlisted := record.latest_listed order ids
  rw [PinStore.claimPinSnapshot]
  split_ifs with hfloor
  · refine Or.inl ⟨rfl, ?_⟩
    rw [h.floor] at hfloor
    cases hlatest : record.latest with
    | none => simp [hlatest] at hfloor
    | some latest =>
      rw [hlisted, hlatest, newer, if_pos (by simpa [hlatest] using hfloor)]
  · have hlatest : (record.listed order ids).latest = some (order, ids) ∧ record.bound ≤ order := by
      rw [h.floor] at hfloor
      rw [hlisted, PinRecord.bound]
      cases hlatest : record.latest with
      | none => exact ⟨rfl, Nat.zero_le order⟩
      | some latest =>
        have hlt : latest.1 < order := by simpa [hlatest] using hfloor
        exact ⟨if_neg hlt.not_ge, hlt.le⟩
    have hlive := PinRecord.live_listed hlatest.1 hlatest.2
    refine Or.inr ⟨?_, by simpa using hfloor, hlatest.1, hlive⟩
    simp only [orderedPinOverlay, Option.getD_some, hlive, h.observations, List.filter_filter,
      Bool.and_self]

/-- The rows above a newer list. -/
theorem distinct_listed (h : self.Follows known record)
    (hlive : (record.listed order ids).live = record.live.filter (order < ·.observationOrder)) :
    (changed (record.listed order ids).live).Nodup := by
  rw [hlive, ← h.observations]
  exact h.distinct.sublist (List.filter_sublist.map _)

/-- A whole list that is accepted. -/
theorem listed {dialogs : ℤ → Option Bool} (h : self.Follows known record)
    (hfloor : self.floor.any (order ≤ ·) = false)
    (hlatest : (record.listed order ids).latest = some (order, ids))
    (hlive : (record.listed order ids).live = record.live.filter (order < ·.observationOrder))
    (hnodup : (record.listed order ids).pinned.Nodup) (hdialogs : ∀ id, dialogs id =
      if known id then some (decide (id ∈ (record.listed order ids).pinned)) else none) :
    { self with
      floor := some order
      observations := (record.listed order ids).live
      published := (record.listed order ids).pinned
      dialogs }.Follows known (record.listed order ids) where
  floor := by rw [hlatest, Option.map_some]
  observations := rfl
  published := rfl
  snapshot := h.snapshot
  covers answer hanswer := by
    rcases le_or_gt answer.1 order with hle | hlt
    · exact Or.inl (decide_eq_true hle)
    · refine (h.covers answer hanswer).imp (fun hnew => ?_) fun ⟨rows, hstaged, hrows⟩ =>
        ⟨rows, hstaged, ?_⟩
      · obtain ⟨floor, hsome, hle⟩ := (Option.any_eq_true _ _).mp hnew
        rw [hsome, Option.any_some, decide_eq_false_iff_not] at hfloor
        exact absurd (hlt.le.trans (of_decide_eq_true hle)) hfloor
      · dsimp only
        rw [hlive, ← h.observations, List.filter_filter]
        refine List.Subset.trans hrows (List.map_subset _ fun known hknown => ?_)
        obtain ⟨hmem, habove⟩ := List.mem_filter.mp hknown
        have habove := of_decide_eq_true habove
        simp [hmem, habove, hlt.trans habove]
  dialogs := hdialogs
  distinct := h.distinct_listed hlive
  publishedNodup := hnodup
  stagedNodup := h.stagedNodup

/-- A realtime list reaches the staged pins unless their own list is newer. -/
theorem syncActiveGenerationPins (h : self.Follows known record)
    (hfloor : self.floor = some order) : self.syncActiveGenerationPins.Follows known record := by
  rw [PinStore.syncActiveGenerationPins]
  split
  next => exact h
  next hsync =>
    refine { h with covers := fun answer hanswer => Or.inl ?_, stagedNodup := h.publishedNodup }
    rw [not_or, h.snapshot, Option.mem_def.mp hanswer, hfloor] at hsync
    rw [hfloor]
    exact decide_eq_true (not_le.mp fun hle => hsync.2 (decide_eq_true hle)).le

theorem rewritePinnedDialogs (h : self.Follows known record) (ids : List ℤ) :
    (self.rewritePinnedDialogs ids order).Follows known (record.listed order ids.eraseDups) := by
  rw [PinStore.rewritePinnedDialogs]
  obtain ⟨hclaim, hlatest⟩ | ⟨hclaim, hfloor, hlatest, hlive⟩ :=
    h.claimPinSnapshot order ids.eraseDups ids.eraseDups
  · rw [hclaim]
    exact h.kept (PinRecord.live_listed_of_old hlatest) hlatest rfl
  · have hpinned : pinOverlay (record.listed order ids.eraseDups).live ids.eraseDups =
        (record.listed order ids.eraseDups).pinned := by rw [PinRecord.pinned, hlatest]; rfl
    simp only [hclaim, hpinned]
    have hnodup := pinOverlay_nodup (h.distinct_listed hlive) (nodup_eraseDups ids)
    refine syncActiveGenerationPins (h.listed hfloor hlatest hlive (hpinned ▸ hnodup) ?_) rfl
    intro id
    rw [foldl_setPinned, h.dialogs]
    split_ifs with hid <;> simp [hid]

/-- Publishing the answer of the generation is one more whole list. -/
theorem publishGeneration {answer : ℕ × List ℤ} (h : self.Follows known record)
    (hanswer : record.answer = some answer) :
    (self.publishGeneration answer.1).Follows known (record.deliver .publish) := by
  have hdeliver : record.deliver .publish =
      { record.listed answer.1 answer.2 with answer := none } := by
    rw [PinRecord.deliver, hanswer]
    rfl
  have hnone : ∀ {store : PinStore} {record : PinRecord}, store.Follows known record →
      { store with staged := [], snapshot := none, inProgress := false }.Follows known
        { record with answer := none } := fun h =>
    { h with
      snapshot := rfl
      covers := fun _ hmem => absurd hmem (Option.not_mem_none _)
      stagedNodup := List.nodup_nil }
  have hmap : ∀ (ids : List ℤ) (id : ℤ), (self.dialogs id).map (fun _ => decide (id ∈ ids)) =
      if known id then some (decide (id ∈ ids)) else none := fun ids id => by
    rw [h.dialogs]
    split_ifs <;> rfl
  rw [hdeliver, PinStore.publishGeneration]
  obtain ⟨hclaim, hlatest⟩ | ⟨hclaim, hfloor, hlatest, hlive⟩ :=
    h.claimPinSnapshot answer.1 answer.2 self.staged
  · rw [hclaim]
    have hkept := hnone (h.kept (PinRecord.live_listed_of_old hlatest) hlatest rfl)
    exact { hkept with dialogs := hmap _ }
  · obtain ⟨rows, hstaged, hrows⟩ := (h.covers answer hanswer).resolve_left (by simp [hfloor])
    have hpinned : pinOverlay (record.listed answer.1 answer.2).live self.staged =
        (record.listed answer.1 answer.2).pinned := by
      rw [h.observations, ← hlive] at hrows
      rw [hstaged, pinOverlay_absorb hrows, PinRecord.pinned, hlatest]
      rfl
    have hnodup := pinOverlay_nodup (h.distinct_listed hlive) h.stagedNodup
    rw [hclaim]
    simp only [Option.getD_some, hpinned]
    exact hnone (h.listed hfloor hlatest hlive (hpinned ▸ hnodup) (hmap _))

/-- One event. -/
theorem step {event : PinEvent} (h : self.Follows known record) (hfresh : record.FreshOrder event)
    (hstep : self.step event = some self') : self'.Follows known (record.deliver event) := by
  cases event with
  | updateDialogPinned row =>
    obtain rfl := Option.some.inj hstep
    exact h.updateDialogPinned hfresh
  | rewritePinnedDialogs order observationOrder =>
    obtain rfl := Option.some.inj hstep
    exact h.rewritePinnedDialogs order
  | startGeneration =>
    obtain rfl := Option.some.inj hstep
    exact { h with
      snapshot := rfl
      covers := fun _ hmem => absurd hmem (Option.not_mem_none _)
      stagedNodup := h.publishedNodup }
  | setInProgress inProgress =>
    obtain rfl := Option.some.inj hstep
    exact { h with }
  | commitPinned ids observationOrder =>
    rw [PinStore.step] at hstep
    split_ifs at hstep with hcommit
    obtain rfl := Option.some.inj hstep
    exact { h with
      snapshot := rfl
      covers := fun _ hmem => Option.mem_some.mp hmem ▸ Or.inr ⟨_, rfl, List.Subset.refl _⟩
      stagedNodup :=
        pinOverlay_nodup (h.distinct.sublist (List.filter_sublist.map _)) hcommit.2 }
  | publish =>
    rw [PinStore.step] at hstep
    split_ifs at hstep with hpublish
    obtain ⟨order, hsnapshot, rfl⟩ := Option.map_eq_some_iff.mp hstep
    obtain ⟨answer, hanswer, rfl⟩ := Option.map_eq_some_iff.mp (h.snapshot.symm.trans hsnapshot)
    exact h.publishGeneration hanswer

end Follows

end PinStore

/-! ## Runs -/

/-- What a run delivers. -/
def deliveries (events : List PinEvent) : PinRecord := events.foldl PinRecord.deliver {}

/-- The pins and unpins of a run are delivered under fresh orders. -/
def FreshOrders (events : List PinEvent) : Prop :=
  Along (fun record event => some (PinRecord.deliver record event)) PinRecord.FreshOrder {} events

namespace PinStore

theorem run_follows {events : List PinEvent} {known : ℤ → Bool} {store : PinStore}
    (hfresh : FreshOrders events) (hrun : run step (init known) events = some store) :
    store.Follows known (deliveries events) := by
  rw [deliveries]
  have h := init_follows known
  rw [FreshOrders] at hfresh
  generalize init known = self, ({} : PinRecord) = record at *
  induction events generalizing self record with
  | nil =>
    obtain rfl := Option.some.inj hrun
    exact h
  | cons event events ih =>
    obtain ⟨next, hstep, hrest⟩ := run_cons_eq_some.mp hrun
    exact ih next _ (hfresh.2 _ rfl) hrest (h.step hfresh.1 hstep)

/-- The published list is that of the deliveries, whatever the interleaving of realtime updates and
generations: no pin is listed twice, and the projection of every known dialog agrees with it. -/
theorem published_of_run {events : List PinEvent} {known : ℤ → Bool} {store : PinStore}
    (hfresh : FreshOrders events) (hrun : run step (init known) events = some store) :
    store.published = (deliveries events).pinned ∧ store.published.Nodup ∧ store.staged.Nodup ∧
      ∀ id, store.dialogs id =
        if known id then some (decide (id ∈ store.published)) else none :=
  have h := run_follows hfresh hrun
  ⟨h.published, h.publishedNodup, h.stagedNodup, h.dialogs⟩

/-- A pin overtakes a whole list and the publication of a generation. -/
theorem published_of_run_overtaken : ∃ events store,
    run step (init fun id => id = 1) events = some store ∧ store.published = [1, 4] ∧
      store.published.Nodup := by
  have hrun : run step (init fun id => id = 1) [.updateDialogPinned ⟨1, 5, true⟩, .startGeneration,
    .commitPinned [4, 1] 4, .rewritePinnedDialogs [2, 3] 3, .publish] = some _ := rfl
  exact ⟨_, _, hrun, rfl, (published_of_run
    (by simp [FreshOrders, Along, PinRecord.FreshOrder]) hrun).2.1⟩

/-- The order of the deliveries does not matter, nor whether a list came from an update or from a
generation. -/
theorem published_converges {events events' : List PinEvent} {known known' : ℤ → Bool}
    {store store' : PinStore} (hfresh : FreshOrders events)
    (hrun : run step (init known) events = some store) (hfresh' : FreshOrders events')
    (hrun' : run step (init known') events' = some store')
    (htoggles : (deliveries events').toggles.Perm (deliveries events).toggles)
    (hlists : (deliveries events').lists.Perm (deliveries events).lists)
    (hdistinct : ((deliveries events).lists.map Prod.fst).Nodup) :
    store'.published = store.published := by
  have h := run_follows hfresh hrun
  have h' := run_follows hfresh' hrun'
  have hlatest : (deliveries events').latest = (deliveries events).latest :=
    newest_perm Prod.fst hdistinct hlists
  have hlive : (deliveries events').live.Perm (deliveries events).live := by
    refine (htoggles.filter _).trans (List.Perm.of_eq (List.filter_congr fun row _ =>
      decide_eq_decide.mpr ?_))
    simp only [PinRecord.bound, hlatest, htoggles.mem_iff]
  rw [h.published, h'.published, PinRecord.pinned, PinRecord.pinned, hlatest]
  exact pinOverlay_perm hlive (h'.observations ▸ h'.distinct)

/-- A whole list and a pin, in both orders. -/
theorem published_converges_swapped : ∃ events events' store store',
    run step (init fun _ => true) events = some store ∧
      run step (init fun _ => true) events' = some store' ∧ store'.published = store.published := by
  have hrun : run step (init fun _ => true)
    [.rewritePinnedDialogs [2] 3, .updateDialogPinned ⟨1, 5, true⟩] = some _ := rfl
  have hrun' : run step (init fun _ => true)
    [.updateDialogPinned ⟨1, 5, true⟩, .rewritePinnedDialogs [2] 3] = some _ := rfl
  exact ⟨_, _, _, _, hrun, hrun', published_converges
    (by simp [FreshOrders, Along, PinRecord.FreshOrder, PinRecord.deliver, PinRecord.listed]) hrun
    (by simp [FreshOrders, Along, PinRecord.FreshOrder]) hrun' (List.Perm.refl _) (List.Perm.refl _)
    (List.nodup_singleton _)⟩

end PinStore

end McpTelegram
