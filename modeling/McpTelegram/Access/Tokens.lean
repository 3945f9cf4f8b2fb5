import McpTelegram.Access.PeerAccess

/-!
# The life of a token

Whatever happens to the access state, its cells only move on: their counts never fall, and a cell
with the same count shows the same scope.  So a captured token stays *live*: its cell shows its
scope, or has counted further.  A cell that was made to show nothing has counted further, and from
then on the token is *spent*: no claim of it succeeds again.
-/

namespace McpTelegram

open Foundations

/-! ## Cells -/

namespace ScopeCell

/-- A cell has moved on. -/
structure Later (cell later : ScopeCell) : Prop where
  generation : cell.generation ≤ later.generation
  scope : later.generation = cell.generation → later.scope = cell.scope

theorem Later.refl (cell : ScopeCell) : cell.Later cell := ⟨le_rfl, fun _ => rfl⟩

/-- Moving on twice. -/
theorem Later.trans {cell next last : ScopeCell} (h : cell.Later next) (h' : next.Later last) :
    cell.Later last where
  generation := h.generation.trans h'.generation
  scope hsame := by
    have hlow := h.generation
    have hhigh := h'.generation
    rw [h'.scope (by omega), h.scope (by omega)]

variable {cell : ScopeCell} {scope : Option TelegramAuthScope} {key : CellKey}
  {token : ScopeToken}

/-- Publishing moves on. -/
theorem publish_later : cell.Later (cell.publish scope).2 := by
  unfold publish
  split_ifs with hopen hchanged
  · exact .refl cell
  · exact ⟨Nat.le_succ _, fun hsame => absurd hsame (Nat.succ_ne_self _)⟩
  · exact .refl cell

/-- Publishing opens and ends no change. -/
theorem publish_changes : (cell.publish scope).2.changes = cell.changes := by
  unfold publish
  split_ifs <;> rfl

/-- A cell without an open change shows what was published. -/
theorem publish_scope (h : cell.changes = ∅) : (cell.publish scope).2.scope = scope := by
  unfold publish
  rw [if_neg (Finset.not_nonempty_iff_eq_empty.mpr h)]
  split_ifs with hchanged
  · rfl
  · exact (not_not.mp hchanged).symm

/-- A captured token carries the count and the scope of its cell. -/
theorem capture_eq_some (h : cell.capture key = some token) :
    token.owner = key ∧ token.generation = cell.generation ∧ cell.scope = some token.scope := by
  unfold capture at h
  split at h
  next => cases h
  next scope hscope =>
    split_ifs at h with hopen
    obtain rfl := Option.some.inj h
    exact ⟨rfl, rfl, hscope⟩

/-- A cell without an open change gives a token exactly when it shows a scope. -/
theorem capture_isSome (h : cell.changes = ∅) : (cell.capture key).isSome = cell.scope.isSome := by
  unfold capture
  split
  next hscope =>
    rw [hscope]
    rfl
  next scope hscope =>
    rw [if_neg (Finset.not_nonempty_iff_eq_empty.mpr h), hscope]
    rfl

end ScopeCell

namespace PeerAccess

variable {access later : PeerAccess} {key key' : CellKey} {cell : ScopeCell}
variable {scope : Option TelegramAuthScope} {tokens : List (Option ScopeToken)} {targets : List ℤ}

/-! ## The cells after each operation -/

/-- The cells after `publish(None)` on every one. -/
theorem cellOf_publishNone (access : PeerAccess) (key : CellKey) :
    access.publishNone.cellOf key =
      (access.cellOf key).map fun cell => (cell.publish none).2 := by
  obtain ⟨probe, target⟩ := key
  have hlookup (cells : Dictionary ℤ ScopeCell) :=
    Dictionary.lookup_mapValues cells (fun _ cell => (cell.publish none).2) target
  cases probe with
  | true => exact hlookup access.probeCells
  | false => exact hlookup access.cells

/-- The cells after one was set. -/
theorem cellOf_setCell (access : PeerAccess) (key key' : CellKey) (cell : ScopeCell) :
    (access.setCell key cell).cellOf key' =
      if key' = key then some cell else access.cellOf key' := by
  obtain ⟨probe, target⟩ := key
  obtain ⟨probe', target'⟩ := key'
  cases probe <;> cases probe' <;>
    simp [setCell, cellOf, family, Dictionary.lookup_insert_eq]

/-- The cells after a revocation. -/
theorem cellOf_revoke (access : PeerAccess) (dialogId : ℤ) (key : CellKey) :
    (access.revoke dialogId).cellOf key =
      if key.target = dialogId then (access.cellOf key).map fun cell => (cell.publish none).2
      else access.cellOf key := by
  obtain ⟨probe, target⟩ := key
  have hmodify (cells : Dictionary ℤ ScopeCell) :
      (cells.modify dialogId fun cell => (cell.publish none).2).lookup target =
        if target = dialogId then (cells.lookup target).map fun cell => (cell.publish none).2
        else cells.lookup target := by
    rw [Dictionary.lookup_modify]
    split_ifs with htarget
    · rw [htarget]
    · rfl
  cases probe with
  | true => exact hmodify access.probeCells
  | false => exact hmodify access.cells

/-! ## Moving on -/

/-- No cell has an open change. -/
def Quiet (access : PeerAccess) : Prop :=
  ∀ key cell, access.cellOf key = some cell → cell.changes = ∅

/-- The access state has moved on. -/
structure Advances (access later : PeerAccess) : Prop where
  cells : ∀ key cell, access.cellOf key = some cell →
    ∃ cell', later.cellOf key = some cell' ∧ cell.Later cell'
  quiet : access.Quiet → later.Quiet
  closed : access.closed = true → later.closed = true

/-- A state with the same cells. -/
theorem Advances.of_same (hcells : ∀ key, later.cellOf key = access.cellOf key)
    (hclosed : access.closed = true → later.closed = true) : access.Advances later where
  cells key cell hcell := ⟨cell, (hcells key).trans hcell, .refl cell⟩
  quiet hquiet key cell hcell := hquiet key cell ((hcells key).symm.trans hcell)
  closed := hclosed

theorem Advances.refl (access : PeerAccess) : access.Advances access :=
  .of_same (fun _ => rfl) id

/-- Moving on twice. -/
theorem Advances.trans {last : PeerAccess} (h : access.Advances later)
    (h' : later.Advances last) : access.Advances last where
  cells key cell hcell := by
    obtain ⟨next, hnext, hfirst⟩ := h.cells key cell hcell
    obtain ⟨final, hfinal, hsecond⟩ := h'.cells key next hnext
    exact ⟨final, hfinal, hfirst.trans hsecond⟩
  quiet hquiet := h'.quiet (h.quiet hquiet)
  closed hclosed := h'.closed (h.closed hclosed)

/-- Publishing `None` on some of the cells. -/
theorem Advances.of_published (silenced : CellKey → Prop) [DecidablePred silenced]
    (hcells : ∀ key, later.cellOf key =
      if silenced key then (access.cellOf key).map fun cell => (cell.publish none).2
      else access.cellOf key)
    (hclosed : access.closed = true → later.closed = true) : access.Advances later where
  cells key cell hcell := by
    rw [hcells, hcell]
    split_ifs
    · exact ⟨_, rfl, ScopeCell.publish_later⟩
    · exact ⟨cell, rfl, .refl cell⟩
  quiet hquiet key cell hcell := by
    rw [hcells] at hcell
    split_ifs at hcell
    · obtain ⟨before, hbefore, rfl⟩ := Option.map_eq_some_iff.mp hcell
      rw [ScopeCell.publish_changes]
      exact hquiet key before hbefore
    · exact hquiet key cell hcell
  closed := hclosed

/-- `publish(None)` on every cell moves on. -/
theorem advances_publishNone (access : PeerAccess) : access.Advances access.publishNone :=
  .of_published (fun _ => True) (fun key => by rw [if_pos trivial, cellOf_publishNone]) id

/-- A revocation moves on. -/
theorem advances_revoke (access : PeerAccess) (dialogId : ℤ) :
    access.Advances (access.revoke dialogId) :=
  .of_published (fun key => key.target = dialogId) (cellOf_revoke access dialogId) id

theorem advances_reconcileStatus (access : PeerAccess) (dialogId : ℤ)
    (status : Option HistoryStatus) : access.Advances (access.reconcileStatus dialogId status) :=
  .of_same (fun _ => rfl) id

/-- The end of the binding moves on. -/
theorem advances_unbind (access : PeerAccess) : access.Advances access.unbind :=
  (advances_publishNone access).trans (.of_same (fun _ => rfl) fun _ => rfl)

/-- A refreshed scope moves on. -/
theorem advances_refreshScope (h : access.refreshScope scope = some later) :
    access.Advances later := by
  unfold refreshScope at h
  split at h
  next => cases h
  next scope =>
    split_ifs at h
    · obtain rfl := Option.some.inj h
      exact (advances_publishNone access).trans (.of_same (fun _ => rfl) id)
    · obtain rfl := Option.some.inj h
      exact .refl access

/-! ## Captures -/

/-- A token is live: its cell shows its scope, or has counted further. -/
def Live (access : PeerAccess) (token : ScopeToken) : Prop :=
  ∃ cell, access.cellOf token.owner = some cell ∧ token.generation ≤ cell.generation ∧
    (cell.generation = token.generation → cell.scope = some token.scope)

/-- A token is spent: its cell has counted further, or the access state is closed. -/
def Spent (access : PeerAccess) (token : ScopeToken) : Prop :=
  access.closed = true ∨
    ∃ cell, access.cellOf token.owner = some cell ∧ token.generation < cell.generation

variable {token : ScopeToken} {exempt : Option ℤ} {target : ℤ}

/-- A live token stays live. -/
theorem Live.advances (hlive : access.Live token) (h : access.Advances later) :
    later.Live token := by
  obtain ⟨cell, hcell, hcount, hscope⟩ := hlive
  obtain ⟨next, hnext, hlater⟩ := h.cells _ cell hcell
  have hgrow := hlater.generation
  refine ⟨next, hnext, hcount.trans hgrow, fun hsame => ?_⟩
  rw [hlater.scope (by omega), hscope (by omega)]

/-- A spent token stays spent. -/
theorem Spent.advances (hspent : access.Spent token) (h : access.Advances later) :
    later.Spent token := by
  rcases hspent with hclosed | ⟨cell, hcell, hcount⟩
  · exact Or.inl (h.closed hclosed)
  · obtain ⟨next, hnext, hlater⟩ := h.cells _ cell hcell
    exact Or.inr ⟨next, hnext, hcount.trans_le hlater.generation⟩

/-- A live token whose cell shows nothing is spent. -/
theorem Live.spent (hlive : access.Live token)
    (hsilent : ∀ cell, access.cellOf token.owner = some cell → cell.scope = none) :
    access.Spent token := by
  obtain ⟨cell, hcell, hcount, hscope⟩ := hlive
  refine Or.inr ⟨cell, hcell, lt_of_le_of_ne hcount fun hsame => ?_⟩
  cases (hscope hsame.symm).symm.trans (hsilent cell hcell)

/-- A set of tokens with a spent one is not claimed. -/
theorem Spent.claim_eq_false (hspent : access.Spent token) (hmem : some token ∈ tokens) :
    access.claim tokens = false := by
  unfold claim
  rcases hspent with hclosed | ⟨cell, hcell, hcount⟩
  · rw [hclosed]
    rfl
  · rw [Bool.and_eq_false_iff]
    refine Or.inr (List.all_eq_false.mpr ⟨some token, hmem, ?_⟩)
    have hstale : cell.claim token = false := by
      simp [ScopeCell.claim, hcount.ne]
    simp [claimToken, hcell, hstale]

/-- A claimed set has a token of every target. -/
theorem none_notMem_of_claim (h : access.claim tokens = true) : none ∉ tokens := by
  intro hmem
  rw [claim, Bool.and_eq_true, List.all_eq_true] at h
  exact Bool.false_ne_true (h.2 none hmem)

/-- What one turn of the loop of `capture` does. -/
structure CapturedTarget (access : PeerAccess) (exempt : Option ℤ) (target : ℤ)
    (captured : Option ScopeToken × PeerAccess) : Prop where
  advances : access.Advances captured.2
  scope : captured.2.scope = access.scope
  denied : captured.2.denied = access.denied
  dirty : captured.2.dirty = access.dirty
  closed : captured.2.closed = access.closed
  isSome : access.Quiet → (captured.1.isSome = true ↔ access.Allowed exempt target)
  live : ∀ token, captured.1 = some token →
    token.owner.target = target ∧ captured.2.Live token

/-- Setting a cell keeps the rest. -/
theorem setCell_rest (access : PeerAccess) (key : CellKey) (cell : ScopeCell) :
    (access.setCell key cell).scope = access.scope ∧
      (access.setCell key cell).denied = access.denied ∧
      (access.setCell key cell).dirty = access.dirty ∧
      (access.setCell key cell).closed = access.closed := by
  unfold setCell
  split_ifs <;> exact ⟨rfl, rfl, rfl, rfl⟩

/-- Publishing in one cell, a new one if there was none, moves on. -/
theorem advances_setCell (access : PeerAccess) (key : CellKey) (scope : Option TelegramAuthScope) :
    access.Advances
      (access.setCell key (((access.cellOf key).getD {}).publish scope).2) where
  cells key' cell hcell := by
    rw [cellOf_setCell]
    split_ifs with hkey
    · rw [← hkey, hcell]
      exact ⟨_, rfl, ScopeCell.publish_later⟩
    · exact ⟨cell, hcell, .refl cell⟩
  quiet hquiet key' cell hcell := by
    rw [cellOf_setCell] at hcell
    split_ifs at hcell
    · obtain rfl := Option.some.inj hcell
      rw [ScopeCell.publish_changes]
      cases hold : access.cellOf key with
      | none => rfl
      | some old => exact hquiet key old hold
    · exact hquiet key' cell hcell
  closed hclosed := (setCell_rest access key _).2.2.2.trans hclosed

/-- One turn of the loop of `capture`. -/
theorem captureTarget_spec (access : PeerAccess) (exempt : Option ℤ) (target : ℤ) :
    CapturedTarget access exempt target (access.captureTarget exempt target) := by
  obtain ⟨hscope, hdenied, hdirty, hclosed⟩ := setCell_rest access ⟨some target = exempt, target⟩
    (((access.cellOf ⟨some target = exempt, target⟩).getD {}).publish
      (if access.Allowed exempt target then some access.scope else none)).2
  refine ⟨advances_setCell access _ _, hscope, hdenied, hdirty, hclosed, fun hquiet => ?_,
    fun token htoken => ?_⟩
  · have hold : ((access.cellOf ⟨some target = exempt, target⟩).getD {}).changes = ∅ := by
      cases hcell : access.cellOf ⟨some target = exempt, target⟩ with
      | none => rfl
      | some cell => exact hquiet _ cell hcell
    rw [captureTarget, ScopeCell.capture_isSome (ScopeCell.publish_changes.trans hold),
      ScopeCell.publish_scope hold]
    split_ifs with hallowed
    · exact iff_of_true rfl hallowed
    · exact iff_of_false Bool.false_ne_true hallowed
  · obtain ⟨howner, hcount, hshown⟩ := ScopeCell.capture_eq_some htoken
    refine ⟨by rw [howner], _, ?_, hcount.le, fun _ => hshown⟩
    rw [howner, captureTarget, cellOf_setCell, if_pos rfl]

/-- What the loop of `capture` does. -/
structure CapturedTargets (access : PeerAccess) (exempt : Option ℤ) (targets : List ℤ)
    (captured : List (Option ScopeToken) × PeerAccess) : Prop where
  advances : access.Advances captured.2
  scope : captured.2.scope = access.scope
  denied : captured.2.denied = access.denied
  dirty : captured.2.dirty = access.dirty
  closed : captured.2.closed = access.closed
  length : captured.1.length = targets.length
  isSome : access.Quiet → ∀ target token, (target, token) ∈ targets.zip captured.1 →
    (token.isSome = true ↔ access.Allowed exempt target)
  live : ∀ target token, (target, some token) ∈ targets.zip captured.1 →
    token.owner.target = target ∧ captured.2.Live token

/-- The loop of `capture`. -/
theorem captureTargets_spec (access : PeerAccess) (exempt : Option ℤ) (targets : List ℤ) :
    CapturedTargets access exempt targets (captureTargets exempt access targets) := by
  induction targets generalizing access with
  | nil =>
    refine ⟨.refl access, rfl, rfl, rfl, rfl, rfl, ?_, ?_⟩
    · intro _ target token hmem
      cases hmem
    · intro target token hmem
      cases hmem
  | cons target targets ih =>
    have hfirst := captureTarget_spec access exempt target
    have hrest := ih (access.captureTarget exempt target).2
    refine ⟨hfirst.advances.trans hrest.advances, hrest.scope.trans hfirst.scope,
      hrest.denied.trans hfirst.denied, hrest.dirty.trans hfirst.dirty,
      hrest.closed.trans hfirst.closed, congrArg Nat.succ hrest.length, ?_, ?_⟩
    · intro hquiet target' token hmem
      rcases List.mem_cons.mp hmem with heq | hmem
      · obtain ⟨rfl, rfl⟩ := Prod.mk.inj heq
        exact hfirst.isSome hquiet
      · have hallowed := hrest.isSome (hfirst.advances.quiet hquiet) target' token hmem
        rw [Allowed, hfirst.denied, hfirst.dirty] at hallowed
        exact hallowed
    · intro target' token hmem
      rcases List.mem_cons.mp hmem with heq | hmem
      · obtain ⟨rfl, htoken⟩ := Prod.mk.inj heq
        obtain ⟨howner, hlive⟩ := hfirst.live token htoken.symm
        exact ⟨howner, hlive.advances hrest.advances⟩
      · exact hrest.live target' token hmem

/-- A refreshed scope keeps what is denied, and is refused by a closed state. -/
theorem refreshScope_rest (h : access.refreshScope scope = some later) :
    later.denied = access.denied ∧ later.dirty = access.dirty ∧ access.closed = false ∧
      later.closed = false ∧ scope = some later.scope := by
  unfold refreshScope at h
  split at h
  next => cases h
  next scope =>
    split_ifs at h with hrefused hchanged
    · obtain rfl := Option.some.inj h
      have hopen := Bool.eq_false_iff.mpr (not_or.mp hrefused).1
      exact ⟨rfl, rfl, hopen, hopen, rfl⟩
    · obtain rfl := Option.some.inj h
      have hopen := Bool.eq_false_iff.mpr (not_or.mp hrefused).1
      exact ⟨rfl, rfl, hopen, hopen, congrArg some (not_not.mp hchanged)⟩

/-- After a refresh to another scope no cell shows anything. -/
theorem refreshScope_silent (h : access.refreshScope scope = some later) (hquiet : access.Quiet)
    (hchanged : scope ≠ some access.scope) {key : CellKey} {cell : ScopeCell}
    (hcell : later.cellOf key = some cell) : cell.scope = none := by
  unfold refreshScope at h
  split at h
  next => cases h
  next scope =>
    split_ifs at h with hrefused hother
    · obtain rfl := Option.some.inj h
      change access.publishNone.cellOf key = some cell at hcell
      rw [cellOf_publishNone] at hcell
      obtain ⟨before, hbefore, rfl⟩ := Option.map_eq_some_iff.mp hcell
      exact ScopeCell.publish_scope (hquiet key before hbefore)
    · exact absurd (congrArg some (not_not.mp hother)) hchanged

/-- What `capture` does unless it raises. -/
structure Captured (access : PeerAccess) (scope : Option TelegramAuthScope) (targets : List ℤ)
    (exempt : Option ℤ) (tokens : List (Option ScopeToken)) (later : PeerAccess) : Prop where
  wasOpen : access.closed = false
  advances : access.Advances later
  active : scope = some later.scope
  denied : later.denied = access.denied
  dirty : later.dirty = access.dirty
  closed : later.closed = false
  length : tokens.length = targets.length
  isSome : access.Quiet → ∀ target token, (target, token) ∈ targets.zip tokens →
    (token.isSome = true ↔ access.Allowed exempt target)
  live : ∀ target token, (target, some token) ∈ targets.zip tokens →
    token.owner.target = target ∧ later.Live token
  spent : access.Quiet → scope ≠ some access.scope → ∀ token, access.Live token →
    later.Spent token

/-- A capture that does not raise. -/
theorem capture_spec (h : access.capture scope targets exempt = some (tokens, later)) :
    Captured access scope targets exempt tokens later := by
  obtain ⟨refreshed, hrefresh, hloop⟩ := Option.map_eq_some_iff.mp h
  obtain ⟨hdenied, hdirty, hwasOpen, hopen, hscope⟩ := refreshScope_rest hrefresh
  have hadvances := advances_refreshScope hrefresh
  have hspec := captureTargets_spec refreshed exempt targets
  rw [hloop] at hspec
  refine ⟨hwasOpen, hadvances.trans hspec.advances, ?_, hspec.denied.trans hdenied,
    hspec.dirty.trans hdirty, hspec.closed.trans hopen, hspec.length, ?_, hspec.live, ?_⟩
  · rw [hscope]
    exact congrArg some hspec.scope.symm
  · intro hquiet target token hmem
    have hallowed := hspec.isSome (hadvances.quiet hquiet) target token hmem
    rw [Allowed, hdenied, hdirty] at hallowed
    exact hallowed
  · intro hquiet hchanged token hlive
    refine ((hlive.advances hadvances).spent fun cell hcell => ?_).advances hspec.advances
    exact refreshScope_silent hrefresh hquiet hchanged hcell

/-- A capture answers for every target. -/
theorem Captured.exists_token (h : Captured access scope targets exempt tokens later)
    (htarget : target ∈ targets) : ∃ token, (target, token) ∈ targets.zip tokens := by
  obtain ⟨i, hi, rfl⟩ := List.mem_iff_getElem.mp htarget
  have htoken : i < tokens.length := h.length ▸ hi
  have hzip : i < (targets.zip tokens).length := by
    rw [List.length_zip]
    exact lt_min hi htoken
  exact ⟨tokens[i], List.mem_iff_getElem.mpr ⟨i, hzip, List.getElem_zip⟩⟩

/-- Publishing `None` on every cell spends every live token. -/
theorem Live.publishNone (hlive : access.Live token) (hquiet : access.Quiet) :
    access.publishNone.Spent token := by
  refine (hlive.advances (advances_publishNone access)).spent fun cell hcell => ?_
  rw [cellOf_publishNone] at hcell
  obtain ⟨before, hbefore, rfl⟩ := Option.map_eq_some_iff.mp hcell
  exact ScopeCell.publish_scope (hquiet _ before hbefore)

/-- A revocation spends the live tokens of its target. -/
theorem Live.revoke (hlive : access.Live token) (hquiet : access.Quiet) :
    (access.revoke token.owner.target).Spent token := by
  refine (hlive.advances (advances_revoke access _)).spent fun cell hcell => ?_
  rw [cellOf_revoke, if_pos rfl] at hcell
  obtain ⟨before, hbefore, rfl⟩ := Option.map_eq_some_iff.mp hcell
  exact ScopeCell.publish_scope (hquiet _ before hbefore)

end PeerAccess

end McpTelegram
