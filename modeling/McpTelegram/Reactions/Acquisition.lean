import McpTelegram.Foundations.CursorPaging
import McpTelegram.Reactions.Settling

/-!
# The length of an acquisition

A driver calls `refresh_one` over and over with the stored generation and offset, and the server
answers every call with a page.  The acquisition ends with the last page, or with a page whose next
offset is the one just used.  A page that leads back to an earlier offset is staged like any other,
and a server that goes around in a circle of two offsets or more is asked for ever.
-/

namespace McpTelegram

open Foundations

namespace ReactionStore

variable {page : ReactionDetailPage}

/-! ## One page -/

variable (policy : ReactionDetailPolicy) (generation : ℕ)

/-- The offset that the next call requests. -/
def storedOffset (store : ReactionStore) : Option String := store.status.bind (·.nextOffset)

/-- `refresh_one` with the stored offset, of an eligible dialog, whose fetch brings a page. -/
def refreshStored (store : ReactionStore) (page : ReactionDetailPage) (when : ℤ) :
    ReactionStore :=
  match store.beginRefresh false generation store.storedOffset with
  | .error _ => store
  | .ok state => (store.settleRefresh policy false true state { page := some page } when).2

/-- `staged_count`. -/
def stagedCount (store : ReactionStore) : ℕ := (store.status.map (·.stagedCount)).getD 0

/-- The acquisition is complete, or the failure of an offset that does not advance is recorded. -/
def Ended (store : ReactionStore) : Prop :=
  ∃ row, store.status = some row ∧
    (row.status = .complete ∨ row.failureKind = some "non_advancing_offset")

/-- An acquisition is under way: the aggregate state has the generation and its reactors may be
listed, and the status row, if there is one, has that generation. -/
structure Acquiring (store : ReactionStore) (offset : Option String) (staged : ℕ) : Prop where
  state : ∃ state, store.state = some state ∧ state.generation = generation ∧
    state.canSeeList ≠ some false
  current : ∀ row, store.status = some row → row.aggregateGeneration = generation
  running : ¬ store.Ended
  offset : store.storedOffset = offset
  staged : store.stagedCount = staged

variable {policy generation} {store : ReactionStore} {offset : Option String} {staged : ℕ}

/-- An aggregate that is new starts an acquisition. -/
theorem acquiring_invalidateDetail {state : AggregateState} (hstate : store.state = some state)
    (hgeneration : state.generation = generation) (hvisible : state.canSeeList ≠ some false)
    (now : ℤ) : (store.invalidateDetail generation now).Acquiring generation none 0 := by
  have hstatus : ∃ row, (store.invalidateDetail generation now).status = some row ∧
      row.aggregateGeneration = generation ∧ row.status = .stale ∧ row.failureKind = none ∧
      row.nextOffset = none ∧ row.stagedCount = 0 := by
    rw [invalidateDetail]
    cases store.status <;> exact ⟨_, rfl, rfl, rfl, rfl, rfl, rfl⟩
  obtain ⟨row, hrow, hcurrent, hstale, hfailure, hoffset, hstaged⟩ := hstatus
  refine ⟨⟨state, hstate, hgeneration, hvisible⟩, ?_, ?_, ?_, ?_⟩
  · intro row' hrow'
    rw [hrow, Option.some.injEq] at hrow'
    exact hrow' ▸ hcurrent
  · rintro ⟨row', hrow', hended⟩
    rw [hrow, Option.some.injEq] at hrow'
    subst hrow'
    rw [hstale, hfailure] at hended
    exact absurd hended (by simp)
  · rw [storedOffset, hrow]
    exact hoffset
  · rw [stagedCount, hrow]
    exact hstaged

/-- The call of an acquisition goes on to the fetch. -/
theorem Acquiring.refreshStored_eq (h : store.Acquiring generation offset staged)
    (page : ReactionDetailPage) (when : ℤ) :
    store.refreshStored policy generation page when =
      (store.persistFetchResult policy true (store.expectedState generation)
        { page := some page } when).2 := by
  obtain ⟨state, hstate, -, hvisible⟩ := h.state
  have hmatches : (store.expectedState generation).matchesRequest generation
      store.storedOffset = true := by
    cases hrow : store.status with
    | none => simp [expectedState, ExpectedDetailState.matchesRequest, storedOffset, hrow]
    | some row =>
      simp [expectedState, ExpectedDetailState.matchesRequest, storedOffset, hrow,
        h.current row hrow]
  have hvisibility : ¬ store.state.bind (·.canSeeList) = some false := by
    rw [hstate]
    exact hvisible
  rw [refreshStored, beginRefresh, if_neg Bool.false_ne_true, if_neg hvisibility]
  simp only [hmatches, if_true]
  rw [settleRefresh, if_neg Bool.false_ne_true]

/-- With nobody else writing, the call finds what it expects after the fetch. -/
theorem Acquiring.casStatus (h : store.Acquiring generation offset staged) :
    store.casStatus generation (store.expectedState generation).status offset = true := by
  obtain ⟨state, hstate, hgeneration, -⟩ := h.state
  have hoffset := h.offset
  rw [ReactionStore.casStatus, expectedState]
  cases hrow : store.status with
  | none =>
    rw [storedOffset, hrow] at hoffset
    simp [← hoffset, hstate, hgeneration]
  | some row =>
    rw [storedOffset, hrow] at hoffset
    simp [← hoffset, h.current row hrow]

/-- Before a page is settled, the row is there, with what the call expects. -/
theorem Acquiring.ensured (h : store.Acquiring generation offset staged) (when : ℤ) :
    ∃ row, (store.ensureStatus generation when).status = some row ∧
      row.aggregateGeneration = generation ∧
      row.status = (store.expectedState generation).status ∧ row.nextOffset = offset ∧
      row.stagedCount = staged ∧ row.status ≠ .complete := by
  have hoffset := h.offset
  have hstaged := h.staged
  cases hrow : store.status with
  | none =>
    rw [storedOffset, hrow] at hoffset
    rw [stagedCount, hrow] at hstaged
    refine ⟨_, by rw [ensureStatus, hrow], rfl, ?_, hoffset, hstaged, by simp⟩
    rw [expectedState, hrow]
    rfl
  | some row =>
    rw [storedOffset, hrow] at hoffset
    rw [stagedCount, hrow] at hstaged
    refine ⟨row, by rw [ensureStatus, hrow]; exact hrow, h.current row hrow, ?_, hoffset, hstaged,
      fun hcomplete => h.running ⟨row, hrow, .inl hcomplete⟩⟩
    rw [expectedState, hrow]
    rfl

/-- A page that is not refused is written over the row. -/
theorem Acquiring.persist_page (h : store.Acquiring generation offset staged)
    (hpage : ¬ (page.nextOffset ≠ none ∧ page.nextOffset = offset)) (when : ℤ) :
    store.refreshStored policy generation page when =
      (store.persistPageLocked true generation (store.expectedState generation).status offset
        page.events page.nextOffset when).2 := by
  have hoffset : (store.expectedState generation).offset = offset := h.offset
  rw [h.refreshStored_eq page when, persistFetchResult]
  simp only [hoffset, if_neg hpage]
  rfl

/-- The last page completes the acquisition. -/
theorem Acquiring.last (h : store.Acquiring generation offset staged)
    (hpage : page.nextOffset = none) (when : ℤ) :
    (store.refreshStored policy generation page when).Ended ∧
      (store.refreshStored policy generation page when).stagedCount = 0 := by
  obtain ⟨row, hrow, hgeneration, hstatus, hoffset, -, -⟩ := h.ensured when
  rw [h.persist_page (fun hnext => hnext.1 hpage), persistPageLocked,
    h.casStatus]
  simp only [Bool.not_true, Bool.false_eq_true, if_false, hpage]
  rw [updateStatus_of_some _ row ?_ ⟨hgeneration, hstatus, hoffset⟩]
  · exact ⟨⟨_, rfl, .inl rfl⟩, rfl⟩
  · exact hrow

/-- A page with the offset just used records the failure and stages nothing. -/
theorem Acquiring.notAdvancing (h : store.Acquiring generation offset staged)
    (hsome : page.nextOffset ≠ none) (hpage : page.nextOffset = offset) (when : ℤ) :
    (store.refreshStored policy generation page when).Ended ∧
      (store.refreshStored policy generation page when).stagedCount = staged := by
  obtain ⟨row, hrow, hgeneration, hstatus, hoffset, -, -⟩ := h.ensured when
  have hexpected : (store.expectedState generation).offset = offset := h.offset
  have hstaged : (store.expectedState generation).stagedCount = staged := h.staged
  rw [h.refreshStored_eq page when, persistFetchResult]
  simp only [hexpected, if_pos (And.intro hsome hpage)]
  have hrequested : (store.expectedState generation).requestedGeneration = generation := rfl
  rw [persistFailureLocked]
  simp only [hrequested, h.casStatus, Bool.not_true, Bool.false_eq_true, if_false,
    GatewayFailure.isTerminalFailure]
  rw [updateStatus_of_some _ row hrow ⟨hgeneration, hstatus, hoffset⟩]
  exact ⟨⟨_, rfl, .inr rfl⟩, hstaged⟩

/-- Any other page is staged, and the acquisition goes on with its offset. -/
theorem Acquiring.staged_page (h : store.Acquiring generation offset staged)
    (hsome : page.nextOffset ≠ none) (hpage : page.nextOffset ≠ offset) (when : ℤ) :
    (store.refreshStored policy generation page when).Acquiring generation page.nextOffset
      (staged + page.events.length) := by
  obtain ⟨row, hrow, hgeneration, hstatus, hoffset, hstaged, -⟩ := h.ensured when
  obtain ⟨next, hnext⟩ := Option.ne_none_iff_exists'.mp hsome
  have hstate := h.state
  rw [h.persist_page (fun hnext => hpage hnext.2), persistPageLocked,
    h.casStatus]
  simp only [Bool.not_true, Bool.false_eq_true, if_false, hnext]
  rw [updateStatus_of_some _ row ?_ ⟨hgeneration, hstatus, hoffset⟩]
  · refine ⟨?_, ?_, ?_, rfl, ?_⟩
    · exact (ensureStatus_state store generation when).symm ▸ hstate
    · rintro after ⟨⟩
      exact hgeneration
    · rintro ⟨after, ⟨⟩, hcomplete | hfailure⟩
      · exact absurd hcomplete (by simp)
      · exact absurd hfailure (by simp)
    · show (Option.map _ (store.ensureStatus generation when).status).getD 0 + _ = _
      rw [hrow, Option.map_some, Option.getD_some, hstaged]
  · exact hrow

/-! ## The calls of a driver -/

variable (policy generation) (answers : ℕ → ReactionDetailPage) (clock : ℕ → ℤ)

/-- The store after a number of calls. -/
def acquire (store : ReactionStore) : ℕ → ReactionStore
  | 0 => store
  | calls + 1 =>
    (acquire store calls).refreshStored policy generation (answers calls) (clock calls)

/-- The next offsets of the pages. -/
def nextOffsets (call : ℕ) : Option String := (answers call).nextOffset

/-- An acquisition ends after finitely many calls, never requests an offset twice, and never stages
more than a page for each offset that the server may answer. -/
structure Terminates (store : ReactionStore) (offsets : Finset String) (calls : ℕ) : Prop where
  ended : (store.acquire policy generation answers clock calls).Ended
  first : ∀ call < calls, ¬ (store.acquire policy generation answers clock call).Ended
  distinct : ∀ i < calls, ∀ j < calls,
    (store.acquire policy generation answers clock i).storedOffset =
        (store.acquire policy generation answers clock j).storedOffset → i = j
  bounded : ∀ pageSize, (∀ call < calls, (answers call).events.length ≤ pageSize) →
    ∀ call ≤ calls, (store.acquire policy generation answers clock call).stagedCount ≤
      offsets.card * pageSize

variable {policy generation answers clock}

/-- As long as the pages advance, the acquisition is under way, with all their events staged. -/
theorem acquire_acquiring (h : store.Acquiring generation none 0) {call : ℕ}
    (hreach : ∀ j < call, PageAdvances (nextOffsets answers) j) :
    (store.acquire policy generation answers clock call).Acquiring generation
      (cursorAt (nextOffsets answers) call)
      (∑ j ∈ Finset.range call, (answers j).events.length) := by
  induction call with
  | zero => exact h
  | succ call ih =>
    have hadvances := hreach call (Nat.lt_succ_self call)
    rw [Finset.sum_range_succ]
    exact (ih fun j hj => hreach j (Nat.lt_succ_of_lt hj)).staged_page hadvances.1 hadvances.2 _

/-- A page that does not advance ends the acquisition, and stages nothing. -/
theorem acquire_ended (h : store.Acquiring generation none 0) {call : ℕ}
    (hreach : ∀ j < call, PageAdvances (nextOffsets answers) j)
    (hstop : ¬ PageAdvances (nextOffsets answers) call) :
    (store.acquire policy generation answers clock (call + 1)).Ended ∧
      (store.acquire policy generation answers clock (call + 1)).stagedCount ≤
        (store.acquire policy generation answers clock call).stagedCount := by
  have hacquiring : (store.acquire policy generation answers clock call).Acquiring generation
      (cursorAt (nextOffsets answers) call) (∑ j ∈ Finset.range call, (answers j).events.length) :=
    acquire_acquiring h hreach
  by_cases hsome : (answers call).nextOffset = none
  · exact (hacquiring.last hsome (clock call)).imp_right fun hstaged =>
      hstaged.trans_le (Nat.zero_le _)
  · have hsame : (answers call).nextOffset = cursorAt (nextOffsets answers) call := by
      by_contra hdifferent
      exact hstop ⟨hsome, hdifferent⟩
    exact (hacquiring.notAdvancing hsome hsame (clock call)).imp_right fun hstaged =>
      (hstaged.trans hacquiring.staged.symm).le

/-- What is staged while the pages advance. -/
theorem stagedCount_le (h : store.Acquiring generation none 0)
    {offsets : Finset String} (hnever : NeverReturns (nextOffsets answers))
    (hoffsets : ∀ call, ∀ offset ∈ (answers call).nextOffset, offset ∈ offsets) {call pageSize : ℕ}
    (hreach : ∀ j < call, PageAdvances (nextOffsets answers) j)
    (hpages : ∀ j < call, (answers j).events.length ≤ pageSize) :
    (store.acquire policy generation answers clock call).stagedCount ≤ offsets.card * pageSize := by
  calc (store.acquire policy generation answers clock call).stagedCount
      = ∑ j ∈ Finset.range call, (answers j).events.length :=
        (acquire_acquiring h hreach).staged
    _ ≤ (Finset.range call).card * pageSize :=
        Finset.sum_le_card_nsmul _ _ _ fun j hj => hpages j (Finset.mem_range.mp hj)
    _ ≤ offsets.card * pageSize := by
        rw [Finset.card_range]
        exact Nat.mul_le_mul_right _ (hnever.le_card hoffsets hreach)

/-- With finitely many offsets, an acquisition terminates exactly when no page that is staged leads
back to an offset that was requested before. -/
theorem acquisition_terminates {offsets : Finset String}
    (hstart : store.Acquiring generation none 0)
    (hoffsets : ∀ call, ∀ offset ∈ (answers call).nextOffset, offset ∈ offsets) :
    (∃ calls, store.Terminates policy generation answers clock offsets calls) ↔
      NeverReturns (nextOffsets answers) := by
  constructor
  · rintro ⟨calls, h⟩ call hadvances j hj hreturns
    have hreach : ∀ i ≤ call + 1, (store.acquire policy generation answers clock i).Acquiring
        generation (cursorAt (nextOffsets answers) i)
        (∑ j ∈ Finset.range i, (answers j).events.length) :=
      fun i hi => acquire_acquiring hstart fun l hl => hadvances l (by omega)
    have hcalls : call + 1 < calls := by
      by_contra hle
      exact (hreach calls (not_lt.mp hle)).running h.ended
    have hsame := h.distinct j (by omega) (call + 1) hcalls
      ((hreach j (by omega)).offset.trans
        (hreturns.symm.trans (hreach (call + 1) le_rfl).offset.symm))
    omega
  · intro hnever
    obtain ⟨call, hstop, hreach⟩ := hnever.exists_stop hoffsets
    have hacquiring : ∀ i ≤ call, (store.acquire policy generation answers clock i).Acquiring
        generation (cursorAt (nextOffsets answers) i)
        (∑ j ∈ Finset.range i, (answers j).events.length) :=
      fun i hi => acquire_acquiring hstart fun j hj => hreach j (by omega)
    obtain ⟨hended, hstaged⟩ :
        (store.acquire policy generation answers clock (call + 1)).Ended ∧
          (store.acquire policy generation answers clock (call + 1)).stagedCount ≤
            (store.acquire policy generation answers clock call).stagedCount :=
      acquire_ended hstart hreach hstop
    refine ⟨call + 1, hended, fun i hi => (hacquiring i (Nat.lt_succ_iff.mp hi)).running, ?_, ?_⟩
    · intro i hi j hj hsame
      have hi' := Nat.lt_succ_iff.mp hi
      have hj' := Nat.lt_succ_iff.mp hj
      rw [(hacquiring i hi').offset, (hacquiring j hj').offset] at hsame
      exact hnever.cursor_injective hreach hi' hj' hsame
    · intro pageSize hpages i hi
      have hle : ∀ l ≤ call, (store.acquire policy generation answers clock l).stagedCount ≤
          offsets.card * pageSize := fun l hl =>
        stagedCount_le hstart hnever hoffsets (fun j hj => hreach j (by omega))
          fun j hj => hpages j (by omega)
      rcases Nat.le_succ_iff.mp hi with hlt | rfl
      · exact hle i hlt
      · exact hstaged.trans (hle call le_rfl)

/-- The aggregate state of a message with one reaction. -/
def oneReactionState : AggregateState := ⟨1, ⟨1, 0, ⟨1, Nat.one_pos⟩, "history"⟩, 1, none⟩

/-- A message with one reaction, whose reactors are not known yet. -/
def oneReaction : ReactionStore :=
  invalidateDetail { reactions := [⟨"👍", 1⟩], state := some oneReactionState } 1 0

/-- The acquisition of that message. -/
theorem oneReaction_acquiring : oneReaction.Acquiring 1 none 0 :=
  have hvisible : oneReactionState.canSeeList ≠ some false := by decide
  acquiring_invalidateDetail rfl rfl hvisible 0

/-- A server with two pages, each of which leads to the other. -/
def circle (call : ℕ) : ReactionDetailPage :=
  ⟨[⟨some 9, "👍", none⟩], some (if call % 2 = 0 then "a" else "b")⟩

/-- A server that goes around in a circle is asked for ever, and a row is staged at each call. -/
theorem acquisition_in_circles :
    (∀ calls, ¬ (oneReaction.acquire {} 1 circle (fun _ => 0) calls).Ended) ∧
      (∀ calls, (oneReaction.acquire {} 1 circle (fun _ => 0) calls).stagedCount = calls) ∧
      ∀ offsets calls, ¬ oneReaction.Terminates {} 1 circle (fun _ => 0) offsets calls := by
  have hadvances : ∀ call, PageAdvances (nextOffsets circle) call := by
    intro call
    refine ⟨by simp [nextOffsets, circle], ?_⟩
    cases call with
    | zero => simp [nextOffsets, circle, cursorAt]
    | succ call =>
      rcases Nat.mod_two_eq_zero_or_one call with heven | hodd
      · simp [nextOffsets, circle, cursorAt, heven, Nat.add_mod]
      · simp [nextOffsets, circle, cursorAt, hodd, Nat.add_mod]
  have hacquiring : ∀ calls, (oneReaction.acquire {} 1 circle (fun _ => 0) calls).Acquiring 1
      (cursorAt (nextOffsets circle) calls) (∑ j ∈ Finset.range calls, (circle j).events.length) :=
    fun _ => acquire_acquiring oneReaction_acquiring fun j _ => hadvances j
  refine ⟨fun calls => (hacquiring calls).running, fun calls => ?_, fun offsets calls h =>
    (hacquiring calls).running h.ended⟩
  rw [(hacquiring calls).staged]
  simp [circle]

/-- A server with a second page. -/
def twoPages : ℕ → ReactionDetailPage
  | 0 => ⟨[⟨some 9, "👍", none⟩], some "a"⟩
  | _ + 1 => ⟨[⟨some 10, "👍", none⟩], none⟩

/-- The acquisition from a server with two pages terminates. -/
theorem acquisition_terminates_two_pages :
    ∃ calls, oneReaction.Terminates {} 1 twoPages (fun _ => 0) {"a"} calls := by
  refine (acquisition_terminates oneReaction_acquiring ?_).mpr ?_
  · rintro (_ | call) offset hoffset
    · exact Finset.mem_singleton.mpr (Option.mem_some.mp hoffset).symm
    · exact absurd hoffset (Option.not_mem_none offset)
  · rintro (_ | call) hadvances j hj
    · exact absurd hj (Nat.not_lt_zero j)
    · exact absurd rfl (hadvances 1 (by omega)).1

end ReactionStore

end McpTelegram
