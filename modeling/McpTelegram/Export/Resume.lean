import McpTelegram.Export.Checkpoint

/-!
# Interrupted exports

`history_peer` writes its resume cursor twice over: with every record, and once more when a page is
finished.  The invariant of this file is that the cursor, whichever of the two wrote it last, has no
unsaved message at or above it (`TrackInvariant.behind`), and that a running process knows the same
of its own `before` (`FetchInvariant`).  Both survive an interruption at any point, because a
resumed process starts from the cursor in the file.

The daemon is described by `Honest`, the property of one page that the loops rely on.
-/

namespace McpTelegram

open Foundations

variable {c : Checkpoint} {track : Track} {before id nextBefore last : ℕ} {page : Page}
variable {id' : ℕ} {key : RecordKey}

/-! ## The daemon -/

section Daemon

variable (plan : ExportPlan) (messages : Track → Set ℕ)

/-- The messages of a track that an export has to hold: those in `(min, upper]`. -/
def Wanted (track : Track) (id : ℕ) : Prop :=
  id ∈ messages track ∧ (plan.loop track).minimum < id ∧
    ∀ upper ∈ (plan.loop track).upper, id ≤ upper

/-- What the loops rely on in the page that answers `before`: it holds wanted messages below
`before` in strictly descending order; when it is the last one none is left out, and otherwise
`next_before_id` is at most every delivered identifier and above every one left out. -/
structure Honest (track : Track) (before : ℕ) (page : Page) : Prop where
  /-- The status of the response is `complete`. -/
  available : page.unavailable = false
  /-- The items descend strictly. -/
  descending : page.items.Pairwise (· > ·)
  /-- The items are wanted messages below the cursor. -/
  wanted : ∀ id ∈ page.items, Wanted plan messages track id ∧ (before ≠ 0 → id < before)
  /-- The last page leaves nothing out. -/
  complete : page.done = true →
    ∀ id, Wanted plan messages track id → (before ≠ 0 → id < before) → id ∈ page.items
  /-- `next_before_id` separates what was delivered from what was left out. -/
  next : page.done = false → ∃ nextBefore ∈ page.nextBeforeId,
    (∀ id ∈ page.items, nextBefore ≤ id) ∧
    ∀ id, Wanted plan messages track id → (before ≠ 0 → id < before) → id ∉ page.items →
      id < nextBefore

end Daemon

namespace Checkpoint

variable {payload : String} {value : StateValue}

/-- The file holds a record of a message. -/
def Saved (plan : ExportPlan) (c : Checkpoint) (track : Track) (id : ℕ) : Prop :=
  (plan.loop track).key id ∈ c.records

variable {plan : ExportPlan} {c : Checkpoint} {track other : Track} {id : ℕ}

/-- Two tracks never share a record key. -/
theorem key_inj (h : (plan.loop track).key id = (plan.loop other).key id') :
    track = other ∧ id = id' := by
  cases track <;> cases other <;>
    simp_all [ExportPlan.loop, ExportPlan.historyPeer, ExportPlan.adminLog, PageLoop.key]

/-- After `save` exactly one more message is saved. -/
@[simp] theorem saved_save {cursorKey : StateKey} :
    Saved plan (c.save ((plan.loop other).key id') payload cursorKey) track id ↔
      (track = other ∧ id = id') ∨ Saved plan c track id := by
  rw [Saved, Saved, save, AList.mem_insert]
  refine or_congr_left ⟨key_inj, ?_⟩
  rintro ⟨rfl, rfl⟩
  rfl

/-- `save` moves the cursor of its track. -/
theorem cursor_save :
    (c.save key payload (.cursor other)).cursor track =
      if track = other then key.id else c.cursor track := by
  by_cases h : track = other
  · rw [if_pos h, h, cursor, save, AList.lookup_insert]
  · rw [if_neg h, cursor, save, AList.lookup_insert_ne (by simpa using h), cursor]

/-- `save` marks nothing as done. -/
@[simp] theorem isDone_save :
    (c.save key payload (.cursor other)).isDone track = c.isDone track := by
  rw [isDone, save, AList.lookup_insert_ne (by simp), isDone]

/-- Marking a cursor moves that cursor. -/
theorem cursor_mark_cursor :
    (c.mark (.cursor other) (.identifier id)).cursor track =
      if track = other then id else c.cursor track := by
  by_cases h : track = other
  · rw [if_pos h, h, cursor, mark, AList.lookup_insert]
  · rw [if_neg h, cursor, mark, AList.lookup_insert_ne (by simpa using h), cursor]

@[simp] theorem isDone_mark_cursor :
    (c.mark (.cursor other) value).isDone track = c.isDone track := by
  rw [isDone, mark, AList.lookup_insert_ne (by simp), isDone]

@[simp] theorem cursor_mark_done : (c.mark (.done other) value).cursor track = c.cursor track := by
  rw [cursor, mark, AList.lookup_insert_ne (by simp), cursor]

/-- Marking a track as done marks that track. -/
theorem isDone_mark_done :
    (c.mark (.done other) (.flag true)).isDone track =
      if track = other then true else c.isDone track := by
  by_cases h : track = other
  · rw [if_pos h, h, isDone, mark, AList.lookup_insert]
  · rw [if_neg h, isDone, mark, AList.lookup_insert_ne (by simpa using h), isDone]

end Checkpoint

/-! ## The invariant -/

section Invariant

variable (plan : ExportPlan) (messages : Track → Set ℕ)

/-- No wanted message at or above a cursor is unsaved; the cursor `0` says nothing. -/
def Behind (c : Checkpoint) (track : Track) (cursor : ℕ) : Prop :=
  cursor ≠ 0 → ∀ id, Wanted plan messages track id → cursor ≤ id → c.Saved plan track id

/-- What the file says about one track. -/
structure TrackInvariant (c : Checkpoint) (track : Track) : Prop where
  /-- Records above the boundary of the base are wanted messages. -/
  rows : ∀ id, c.Saved plan track id →
    id ≤ (plan.loop track).minimum ∨ Wanted plan messages track id
  /-- Nothing at or above the resume cursor is missing. -/
  behind : Behind plan messages c track (c.cursor track)
  /-- A track marked as done is complete. -/
  complete : c.isDone track = true → ∀ id, Wanted plan messages track id → c.Saved plan track id

/-- What a running process knows. -/
def FetchInvariant (c : Checkpoint) : Fetch → Prop
  | .idle => True
  | .requesting track before => Behind plan messages c track before
  | .delivering track page before _ rest =>
    Behind plan messages c track before ∧ Honest plan messages track before page ∧
      ∃ delivered, page.items = delivered ++ rest ∧ ∀ id ∈ delivered, c.Saved plan track id

/-- The invariant of an export. -/
structure ExportWorld.Invariant (w : ExportWorld) : Prop where
  tracks : ∀ track, TrackInvariant plan messages w.checkpoint track
  fetch : FetchInvariant plan messages w.checkpoint w.fetch

/-- A checkpoint before the loops start: no cursor and no end is recorded, and the only records are
those of the incremental base, at or below its boundary. -/
structure Checkpoint.Fresh (c : Checkpoint) : Prop where
  cursors : ∀ track, c.cursor track = 0
  undone : ∀ track, c.isDone track = false
  base : ∀ track id, c.Saved plan track id → id ≤ (plan.loop track).minimum

end Invariant

variable {plan : ExportPlan} {messages : Track → Set ℕ}

/-- The pages that the daemon answers in a run are honest. -/
def HonestEvent (plan : ExportPlan) (messages : Track → Set ℕ) (w : ExportWorld) :
    ExportEvent → Prop
  | .page page => ∀ track before, w.fetch = .requesting track before →
      Honest plan messages track before page
  | _ => True

/-- A fresh checkpoint satisfies the invariant. -/
theorem Checkpoint.Fresh.invariant (h : c.Fresh plan) :
    ExportWorld.Invariant plan messages ⟨c, .idle⟩ where
  tracks track := {
    rows := fun id hid => Or.inl (h.base track id hid)
    behind := fun hne => absurd (h.cursors track) hne
    complete := fun hdone => by rw [h.undone track] at hdone; cases hdone }
  fetch := trivial

theorem Behind.mono {d : Checkpoint} {cursor : ℕ} (h : Behind plan messages c track cursor)
    (hle : ∀ id, c.Saved plan track id → d.Saved plan track id) :
    Behind plan messages d track cursor :=
  fun hne id hid hcursor => hle id (h hne id hid hcursor)

/-- An honest page of an available log is gone through in full. -/
theorem Honest.itemsOf_eq (h : Honest plan messages track before page) (l : PageLoop) :
    l.itemsOf page = page.items := by
  rw [PageLoop.itemsOf, h.available, Bool.and_false]
  rfl

theorem Honest.ends_eq (h : Honest plan messages track before page) (l : PageLoop) :
    l.ends page = page.done := by
  rw [PageLoop.ends, h.available, Bool.and_false, Bool.false_or]

/-- Whatever an honest page leaves out is below every delivered identifier. -/
theorem Honest.contiguous {x : ℕ} (h : Honest plan messages track before page)
    (hid : Wanted plan messages track id) (hbelow : before ≠ 0 → id < before)
    (hnot : id ∉ page.items) (hx : x ∈ page.items) : id < x := by
  cases hdone : page.done with
  | true => exact absurd (h.complete hdone id hid hbelow) hnot
  | false =>
    obtain ⟨nextBefore, -, hle, hlt⟩ := h.next hdone
    exact (hlt id hid hbelow hnot).trans_le (hle x hx)

/-- The cursor written with a record: once the items up to it are saved, nothing at or above it is
missing. -/
theorem Honest.behind_item {delivered rest : List ℕ} (h : Honest plan messages track before page)
    (hbehind : Behind plan messages c track before) (hsplit : page.items = delivered ++ id :: rest)
    (hsaved : ∀ x ∈ delivered ++ [id], c.Saved plan track x) : Behind plan messages c track id := by
  intro _ x hx hle
  by_cases habove : before ≠ 0 ∧ before ≤ x
  · exact hbehind habove.1 x hx habove.2
  · have hbelow : before ≠ 0 → x < before := fun hne => by
      by_contra hlt
      exact habove ⟨hne, not_lt.mp hlt⟩
    have hmem : x ∈ page.items := by
      by_contra hnot
      have := h.contiguous hx hbelow hnot (x := id) (by simp [hsplit])
      omega
    rw [hsplit, List.mem_append, List.mem_cons] at hmem
    rcases hmem with hdelivered | rfl | hrest
    · exact hsaved x (List.mem_append_left _ hdelivered)
    · exact hsaved x (by simp)
    · have hdescending := h.descending
      rw [hsplit] at hdescending
      have := (List.pairwise_cons.mp (List.pairwise_append.mp hdescending).2.1).1 x hrest
      omega

/-- The cursor written after a page. -/
theorem Honest.behind_next (h : Honest plan messages track before page)
    (hbehind : Behind plan messages c track before)
    (hsaved : ∀ x ∈ page.items, c.Saved plan track x) (hdone : page.done = false)
    (hnext : page.nextBeforeId = some nextBefore) : Behind plan messages c track nextBefore := by
  intro _ x hx hle
  by_cases habove : before ≠ 0 ∧ before ≤ x
  · exact hbehind habove.1 x hx habove.2
  · have hbelow : before ≠ 0 → x < before := fun hne => by
      by_contra hlt
      exact habove ⟨hne, not_lt.mp hlt⟩
    by_contra hnot
    have hmem : x ∉ page.items := fun hmem => hnot (hsaved x hmem)
    obtain ⟨n, hn, -, hlt⟩ := h.next hdone
    obtain rfl := Option.some.inj (hnext.symm.trans hn)
    have := hlt x hx hbelow hmem
    omega

/-- After the last page everything is saved. -/
theorem Honest.complete_done (h : Honest plan messages track before page)
    (hbehind : Behind plan messages c track before)
    (hsaved : ∀ x ∈ page.items, c.Saved plan track x) (hdone : page.done = true) :
    ∀ id, Wanted plan messages track id → c.Saved plan track id := by
  intro x hx
  by_cases habove : before ≠ 0 ∧ before ≤ x
  · exact hbehind habove.1 x hx habove.2
  · refine hsaved x (h.complete hdone x hx fun hne => ?_)
    by_contra hlt
    exact habove ⟨hne, not_lt.mp hlt⟩

/-- A value that `_advance` accepts is the page's own. -/
theorem nextBeforeId_of_advance {incoming : ℕ} {upper : Option ℕ}
    (h : advance page incoming last upper = .ok nextBefore) :
    page.nextBeforeId = some nextBefore := by
  unfold advance at h
  split at h
  · cases h
  · rename_i n hn
    split_ifs at h
    rw [hn, Except.ok.inj h]

/-- An identifier that the checks accept is the item's own. -/
theorem eq_of_accept {l : PageLoop} {identifier next : ℕ} (h : l.accept identifier last = .ok next) :
    next = identifier := by
  unfold PageLoop.accept orderedId at h
  split at h
  · cases h
  · rename_i n hn
    split_ifs at hn
    split_ifs at h
    rw [← Except.ok.inj h, Except.ok.inj hn]

namespace ExportWorld

/-- Every event keeps the invariant while the daemon is honest. -/
theorem step_invariant (w : ExportWorld) (event : ExportEvent) (w' : ExportWorld)
    (h : w.Invariant plan messages) (hhonest : HonestEvent plan messages w event)
    (hstep : step plan w event = some w') : w'.Invariant plan messages := by
  obtain ⟨c, fetch⟩ := w
  obtain ⟨htracks, hfetch⟩ := h
  cases event with
  | enter track =>
    cases fetch with
    | idle =>
      simp only [step] at hstep
      split_ifs at hstep with hdone
      · obtain rfl := Option.some.inj hstep
        exact ⟨htracks, trivial⟩
      · obtain rfl := Option.some.inj hstep
        exact ⟨htracks, (htracks track).behind⟩
    | requesting | delivering => cases hstep
  | page page =>
    cases fetch with
    | requesting track before =>
      obtain rfl := Option.some.inj hstep
      have hpage := hhonest track before rfl
      refine ⟨htracks, hfetch, hpage, [], ?_, by simp⟩
      rw [hpage.itemsOf_eq, List.nil_append]
    | idle | delivering => cases hstep
  | item payload =>
    match fetch, hfetch, hstep with
    | .delivering track page before last (identifier :: rest), hfetch, hstep =>
      obtain ⟨hbehind, hpage, delivered, hsplit, hsaved⟩ := hfetch
      simp only [step] at hstep
      cases haccept : (plan.loop track).accept identifier last with
      | error message =>
        rw [haccept] at hstep
        obtain rfl := Option.some.inj hstep
        exact ⟨htracks, trivial⟩
      | ok next =>
        rw [haccept] at hstep
        obtain rfl := Option.some.inj hstep
        obtain rfl := eq_of_accept haccept
        have hwanted := (hpage.wanted next (by simp [hsplit])).1
        generalize hc : c.save ((plan.loop track).key next) payload (.cursor track) = d
        have hmono : ∀ t x, c.Saved plan t x → d.Saved plan t x := fun t x hx => by
          rw [← hc, Checkpoint.saved_save]
          exact Or.inr hx
        have hnew : ∀ x ∈ delivered ++ [next], d.Saved plan track x := by
          intro x hx
          rcases List.mem_append.mp hx with hx | hx
          · exact hmono track x (hsaved x hx)
          · rw [← hc, Checkpoint.saved_save]
            exact Or.inl ⟨rfl, List.mem_singleton.mp hx⟩
        have hbehind' := hbehind.mono (hmono track)
        refine ⟨fun t => ⟨?_, ?_, ?_⟩, hbehind', hpage, delivered ++ [next], by simp [hsplit], hnew⟩
        · intro x hx
          rw [← hc, Checkpoint.saved_save] at hx
          rcases hx with ⟨rfl, rfl⟩ | hx
          · exact Or.inr hwanted
          · exact (htracks t).rows x hx
        · have hcursor : d.cursor t = if t = track then next else c.cursor t := by
            rw [← hc, Checkpoint.cursor_save]
            rfl
          rw [hcursor]
          split_ifs with ht
          · rw [ht]
            exact hpage.behind_item hbehind' hsplit hnew
          · exact (htracks t).behind.mono (hmono t)
        · intro hdone x hx
          rw [← hc, Checkpoint.isDone_save] at hdone
          exact hmono t x ((htracks t).complete hdone x hx)
  | finish =>
    match fetch, hfetch, hstep with
    | .delivering track page before last [], hfetch, hstep =>
      obtain ⟨hbehind, hpage, delivered, hsplit, hsaved⟩ := hfetch
      rw [List.append_nil] at hsplit
      rw [← hsplit] at hsaved
      simp only [step, hpage.ends_eq] at hstep
      cases hdone : page.done with
      | true =>
        rw [hdone, if_pos rfl] at hstep
        obtain rfl := Option.some.inj hstep
        refine ⟨fun t => ⟨(htracks t).rows, ?_, ?_⟩, trivial⟩
        · rw [Checkpoint.cursor_mark_done]
          exact (htracks t).behind
        · intro ht x hx
          rw [Checkpoint.isDone_mark_done] at ht
          split_ifs at ht with heq
          · subst heq
            exact hpage.complete_done hbehind hsaved hdone x hx
          · exact (htracks t).complete ht x hx
      | false =>
        rw [hdone, if_neg Bool.false_ne_true] at hstep
        cases hadvance : advance page before last (plan.loop track).upper with
        | error message =>
          rw [hadvance] at hstep
          obtain rfl := Option.some.inj hstep
          exact ⟨htracks, trivial⟩
        | ok next =>
          rw [hadvance] at hstep
          obtain rfl := Option.some.inj hstep
          have hnext := hpage.behind_next hbehind hsaved hdone (nextBeforeId_of_advance hadvance)
          refine ⟨fun t => ⟨(htracks t).rows, ?_, ?_⟩, hnext⟩
          · rw [Checkpoint.cursor_mark_cursor]
            split_ifs with ht
            · rw [ht]
              exact hnext
            · exact (htracks t).behind
          · rw [Checkpoint.isDone_mark_cursor]
            exact (htracks t).complete
  | interrupt =>
    obtain rfl := Option.some.inj hstep
    exact ⟨htracks, trivial⟩

theorem run_invariant {c : Checkpoint} (hfresh : c.Fresh plan) {events : List ExportEvent}
    {w : ExportWorld} (hhonest : Along (step plan) (HonestEvent plan messages) ⟨c, .idle⟩ events)
    (hrun : run (step plan) ⟨c, .idle⟩ events = some w) : w.Invariant plan messages :=
  run_along step_invariant hfresh.invariant hhonest hrun

/-- Interrupted exports lose and duplicate nothing.  Whatever the interruptions, once a track is
marked as done the file holds exactly one record for each message in `(min, upper]` and none for
any other identifier there; so any other run that marks the track, in particular an uninterrupted
one, holds the same set. -/
theorem interrupted_export_complete {c : Checkpoint} (hfresh : c.Fresh plan)
    {events : List ExportEvent} {w : ExportWorld}
    (hhonest : Along (step plan) (HonestEvent plan messages) ⟨c, .idle⟩ events)
    (hrun : run (step plan) ⟨c, .idle⟩ events = some w) {track : Track}
    (hdone : w.checkpoint.isDone track = true) :
    (∀ id, (plan.loop track).minimum < id → (∀ upper ∈ (plan.loop track).upper, id ≤ upper) →
      (id ∈ messages track →
        w.checkpoint.records.keys.count ((plan.loop track).key id) = 1) ∧
      (id ∉ messages track →
        w.checkpoint.records.keys.count ((plan.loop track).key id) = 0)) ∧
    ∀ events' w', Along (step plan) (HonestEvent plan messages) ⟨c, .idle⟩ events' →
      run (step plan) ⟨c, .idle⟩ events' = some w' → w'.checkpoint.isDone track = true →
      ∀ id, (plan.loop track).minimum < id →
        (w'.checkpoint.Saved plan track id ↔ w.checkpoint.Saved plan track id) := by
  have hsaved : ∀ {es : List ExportEvent} {v : ExportWorld},
      Along (step plan) (HonestEvent plan messages) ⟨c, .idle⟩ es →
      run (step plan) ⟨c, .idle⟩ es = some v → v.checkpoint.isDone track = true →
      ∀ id, (plan.loop track).minimum < id →
        (v.checkpoint.Saved plan track id ↔ Wanted plan messages track id) := by
    intro es v hes hv hvdone id hid
    have htrack := (run_invariant hfresh hes hv).tracks track
    refine ⟨fun hrow => (htrack.rows id hrow).resolve_left (by omega), htrack.complete hvdone id⟩
  refine ⟨fun id hmin hupper => ?_, fun events' w' hhonest' hrun' hdone' id hid => ?_⟩
  · have hiff := hsaved hhonest hrun hdone id hmin
    rw [Checkpoint.Saved, AList.mem_keys] at hiff
    refine ⟨fun hmem => ?_, fun hnot => ?_⟩
    · exact List.count_eq_one_of_mem w.checkpoint.records.keys_nodup
        (hiff.mpr ⟨hmem, hmin, hupper⟩)
    · exact List.count_eq_zero_of_not_mem fun hrow => hnot (hiff.mp hrow).1
  · rw [hsaved hhonest' hrun' hdone' id hid, hsaved hhonest hrun hdone id hid]

/-! ### A run with an interruption -/

/-- A group whose only peer has the messages 3, 5 and 7. -/
def samplePlan : ExportPlan := ⟨-1, fun _ => 10, fun _ => 0, 0⟩

/-- The messages of `samplePlan`. -/
def sampleMessages : Track → Set ℕ
  | .history _ => {3, 5, 7}
  | .adminLog => ∅

/-- An export that is interrupted after its first record and resumed from it. -/
def sampleEvents : List ExportEvent :=
  [.enter (.history (-1)), .page ⟨[7, 5], false, some 5, false⟩, .item "seven", .interrupt,
    .enter (.history (-1)), .page ⟨[5, 3], true, none, false⟩, .item "five", .item "three", .finish]

/-- The empty file is a fresh checkpoint. -/
theorem fresh_empty (plan : ExportPlan) : Checkpoint.Fresh plan ⟨∅, ∅⟩ where
  cursors _ := rfl
  undone _ := rfl
  base _ _ h := absurd h (AList.notMem_empty _)

/-- The interrupted export holds the message delivered before the interruption exactly once. -/
theorem interrupted_export_complete_sample :
    ∃ w, run (step samplePlan) ⟨⟨∅, ∅⟩, .idle⟩ sampleEvents = some w ∧
      w.checkpoint.records.keys.count ⟨.message, -1, 7⟩ = 1 := by
  have hrun : ∃ w, run (step samplePlan) ⟨⟨∅, ∅⟩, .idle⟩ sampleEvents = some w ∧
      w.checkpoint.isDone (.history (-1)) = true := ⟨_, rfl, rfl⟩
  obtain ⟨w, hw, hdone⟩ := hrun
  have hhonest : Along (step samplePlan) (HonestEvent samplePlan sampleMessages)
      ⟨⟨∅, ∅⟩, .idle⟩ sampleEvents := by
    refine (along_cons rfl).mpr ⟨trivial, (along_cons rfl).mpr ⟨?_, (along_cons rfl).mpr
      ⟨trivial, (along_cons rfl).mpr ⟨trivial, (along_cons rfl).mpr ⟨trivial, (along_cons rfl).mpr
      ⟨?_, (along_cons rfl).mpr ⟨trivial, (along_cons rfl).mpr ⟨trivial, (along_cons rfl).mpr
      ⟨trivial, trivial⟩⟩⟩⟩⟩⟩⟩⟩⟩
    · rintro track before hfetch
      obtain ⟨rfl, rfl⟩ : Track.history (-1) = track ∧ 0 = before := by
        cases hfetch
        exact ⟨rfl, rfl⟩
      constructor <;>
        simp [Wanted, sampleMessages, samplePlan, ExportPlan.loop, ExportPlan.historyPeer]
    · rintro track before hfetch
      obtain ⟨rfl, rfl⟩ : Track.history (-1) = track ∧ 7 = before := by
        cases hfetch
        exact ⟨rfl, rfl⟩
      constructor <;>
        simp [Wanted, sampleMessages, samplePlan, ExportPlan.loop, ExportPlan.historyPeer]
  have hall := (interrupted_export_complete (fresh_empty samplePlan) hhonest hw hdone).1 7
  exact ⟨w, hw, (hall (by decide) (by decide)).1 (by simp [sampleMessages])⟩

end ExportWorld

end McpTelegram
