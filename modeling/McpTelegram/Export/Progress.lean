import McpTelegram.Export.Resume

/-!
# Exports that finish

The ordering checks of `_ordered_id` and `_advance` reject a daemon that stalls.  This file shows
that they never reject one that does not: against an honest daemon whose unfinished pages deliver
something, a run without interruptions marks its track as done, from every resume cursor.
-/

namespace McpTelegram

open Foundations

variable {plan : ExportPlan} {messages : Track → Set ℕ} {track : Track}
variable {upper : Option ℕ} {last before : ℕ} {page : Page}

/-- A page that is not the last one delivers something and asks for more. -/
structure Progressing (page : Page) : Prop where
  delivers : page.done = false → page.items ≠ []
  asks : page.done = false → ∀ nextBefore ∈ page.nextBeforeId, nextBefore ≠ 0

/-- `Option.any` of a comparison with a bound that is respected. -/
theorem any_gt_eq_false {n : ℕ} (h : ∀ u ∈ upper, n ≤ u) : upper.any (n > ·) = false := by
  cases upper with
  | none => rfl
  | some u => simpa using h u rfl

/-- The checks accept a wanted message below the last one. -/
theorem accept_of_wanted {id : ℕ} (hid : Wanted plan messages track id)
    (hlast : last ≠ 0 → id < last) : (plan.loop track).accept id last = .ok id := by
  obtain ⟨-, hmin, hupper⟩ := hid
  have horder : ¬ (id = 0 ∨ (last ≠ 0 ∧ id ≥ last)) := by
    rintro (rfl | ⟨hne, hge⟩)
    · omega
    · have := hlast hne
      omega
  rw [PageLoop.accept, orderedId, if_neg horder, any_gt_eq_false hupper,
    if_neg Bool.false_ne_true]
  exact if_neg (by omega)

/-- `_advance` accepts a cursor below the request and at most the last delivered identifier. -/
theorem advance_of_le {incoming nextBefore : ℕ} (hnext : page.nextBeforeId = some nextBefore)
    (hpos : nextBefore ≠ 0) (hlt : incoming ≠ 0 → nextBefore < incoming) (hle : nextBefore ≤ last)
    (hupper : ∀ u ∈ upper, nextBefore ≤ u) : advance page incoming last upper = .ok nextBefore := by
  have hstalled : ¬ (nextBefore = 0 ∨ (incoming ≠ 0 ∧ nextBefore ≥ incoming)) := by
    rintro (h | ⟨hne, hge⟩)
    · exact hpos h
    · have := hlt hne
      omega
  have hskipped : ¬ (last ≠ 0 ∧ nextBefore > last) := by omega
  simp only [advance, hnext]
  rw [if_neg hstalled, if_neg hskipped, any_gt_eq_false hupper, if_neg Bool.false_ne_true]

namespace ExportWorld

/-- The pages of a run are the answers of a daemon, and nothing interrupts it. -/
def Answers (daemon : ℕ → Page) (w : ExportWorld) : ExportEvent → Prop
  | .page page => ∀ track before, w.fetch = .requesting track before → page = daemon before
  | .interrupt => False
  | _ => True

variable {daemon : ℕ → Page}

/-- The items of a page are saved one after the other, each with its own payload. -/
theorem run_items (payloads : ℕ → String) (page : Page) (before : ℕ) (rest : List ℕ) :
    ∀ (c : Checkpoint) (last : ℕ), rest.Pairwise (· > ·) →
      (∀ id ∈ rest, Wanted plan messages track id ∧ (last ≠ 0 → id < last)) →
      ∃ d, run (step plan) ⟨c, .delivering track page before last rest⟩
          (rest.map fun id => .item (payloads id)) =
          some ⟨d, .delivering track page before (rest.getLast?.getD last) []⟩ ∧
        Along (step plan) (Answers daemon) ⟨c, .delivering track page before last rest⟩
          (rest.map fun id => .item (payloads id)) := by
  induction rest with
  | nil => exact fun c last _ _ => ⟨c, rfl, trivial⟩
  | cons id rest ih =>
    intro c last hdescending hwanted
    rw [List.pairwise_cons] at hdescending
    have haccept := accept_of_wanted (hwanted id List.mem_cons_self).1
      (hwanted id List.mem_cons_self).2
    have hstep : step plan ⟨c, .delivering track page before last (id :: rest)⟩
        (.item (payloads id)) = some
          ⟨c.save ((plan.loop track).key id) (payloads id) (.cursor track),
            .delivering track page before id rest⟩ := by
      simp only [step, haccept]
    obtain ⟨d, hrun, halong⟩ := ih (c.save ((plan.loop track).key id) (payloads id) (.cursor track))
      id hdescending.2 fun x hx =>
        ⟨(hwanted x (List.mem_cons_of_mem _ hx)).1, fun _ => hdescending.1 x hx⟩
    refine ⟨d, ?_, ?_⟩
    · rw [List.map_cons, run_cons, hstep, Option.bind_some, hrun, List.getLast?_cons]
      rfl
    · rw [List.map_cons, along_cons hstep]
      exact ⟨trivial, halong⟩

/-- One page against an honest daemon that makes progress: the loop ends, or goes on below the
page. -/
theorem run_page (payloads : ℕ → String) (c : Checkpoint)
    (hdaemon : page = daemon before) (hpage : Honest plan messages track before page)
    (hprogress : Progressing page) :
    ∃ w, run (step plan) ⟨c, .requesting track before⟩
        (.page page :: (page.items.map fun id => .item (payloads id)) ++ [.finish]) = some w ∧
      Along (step plan) (Answers daemon) ⟨c, .requesting track before⟩
        (.page page :: (page.items.map fun id => .item (payloads id)) ++ [.finish]) ∧
      (w.checkpoint.isDone track = true ∨
        ∃ nextBefore, w.fetch = .requesting track nextBefore ∧ nextBefore ≠ 0 ∧
          (before ≠ 0 → nextBefore < before)) := by
  have hpageStep : step plan ⟨c, .requesting track before⟩ (.page page) =
      some ⟨c, .delivering track page before before page.items⟩ := by
    simp only [step, hpage.itemsOf_eq]
  obtain ⟨d, hitems, halong⟩ := run_items payloads page before page.items c before
    hpage.descending hpage.wanted
  obtain ⟨w, hfinish, hgoal⟩ : ∃ w, step plan
      ⟨d, .delivering track page before (page.items.getLast?.getD before) []⟩ .finish = some w ∧
      (w.checkpoint.isDone track = true ∨
        ∃ nextBefore, w.fetch = .requesting track nextBefore ∧ nextBefore ≠ 0 ∧
          (before ≠ 0 → nextBefore < before)) := by
    cases hdone : page.done with
    | true =>
      refine ⟨⟨d.mark (.done track) (.flag true), .idle⟩, by
        simp only [step, hpage.ends_eq, hdone, if_true], Or.inl ?_⟩
      rw [Checkpoint.isDone_mark_done, if_pos rfl]
    | false =>
      obtain ⟨nextBefore, hnext, hle, -⟩ := hpage.next hdone
      have hne := hprogress.delivers hdone
      have hlast := hpage.wanted _ (List.getLast_mem hne)
      have hbound := hle _ (List.getLast_mem hne)
      have hadvance : advance page before (page.items.getLast hne) (plan.loop track).upper =
          .ok nextBefore := advance_of_le hnext (hprogress.asks hdone nextBefore hnext)
        (fun h => hbound.trans_lt (hlast.2 h)) hbound
        (fun u hu => hbound.trans (hlast.1.2.2 u hu))
      rw [List.getLast?_eq_some_getLast hne, Option.getD_some]
      exact ⟨⟨d.mark (.cursor track) (.identifier nextBefore), .requesting track nextBefore⟩, by
        simp only [step, hpage.ends_eq, hdone, Bool.false_eq_true, if_false, hadvance],
        Or.inr ⟨nextBefore, rfl, hprogress.asks hdone nextBefore hnext,
          fun h => hbound.trans_lt (hlast.2 h)⟩⟩
  refine ⟨w, ?_, ?_, hgoal⟩
  · rw [List.cons_append, run_cons, hpageStep, Option.bind_some, run_append, hitems,
      Option.bind_some, run_cons, hfinish]
    rfl
  · rw [List.cons_append, along_cons hpageStep]
    refine ⟨?_, along_append halong hitems ?_⟩
    · rintro t b hfetch
      cases hfetch
      exact hdaemon
    · exact (along_cons hfinish).mpr ⟨trivial, trivial⟩

/-- A run against a daemon marks the track as done. -/
def Finishes (plan : ExportPlan) (daemon : ℕ → Page) (track : Track) (w : ExportWorld) : Prop :=
  ∃ events w', Along (step plan) (Answers daemon) w events ∧
    run (step plan) w events = some w' ∧ w'.checkpoint.isDone track = true

/-- A request finishes when every request that may follow its page does. -/
theorem finishes_of_page (c : Checkpoint)
    (hpage : Honest plan messages track before (daemon before))
    (hprogress : Progressing (daemon before))
    (hnext : ∀ d nextBefore, nextBefore ≠ 0 → (before ≠ 0 → nextBefore < before) →
      Finishes plan daemon track ⟨d, .requesting track nextBefore⟩) :
    Finishes plan daemon track ⟨c, .requesting track before⟩ := by
  obtain ⟨⟨d, fetch⟩, hrun, halong, hdone | ⟨nextBefore, hfetch, hpos, hlt⟩⟩ :=
    run_page (fun _ => "") c rfl hpage hprogress
  · exact ⟨_, _, halong, hrun, hdone⟩
  · obtain rfl : fetch = .requesting track nextBefore := hfetch
    obtain ⟨events, w, halong', hrun', hdone⟩ := hnext d nextBefore hpos hlt
    refine ⟨_ ++ events, w, along_append halong hrun halong', ?_, hdone⟩
    rw [run_append, hrun, Option.bind_some, hrun']

end ExportWorld

end McpTelegram
