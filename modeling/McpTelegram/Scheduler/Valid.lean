import McpTelegram.Scheduler.Moves

/-!
# The invariant of the scheduler's tickets

`AdmissionScheduler.Valid` collects what holds of the tickets in every reachable state: where the
queued ones are, that the slot counts are the sizes of the tables they count, that no class holds
more than its capacity, and what the history of a ticket looks like.  Every move keeps it
(`Move.valid`).
-/

namespace McpTelegram

open Foundations Relation

variable {state : TicketState} {outcome : Option FutureState} {source : TelegramRpcSource}
    {attempt : ActiveAttempt}

/-- What the history of a ticket looks like: its state was assigned at most once, and its future
was given at most one outcome. -/
structure TicketCell.Settled (cell : TicketCell) : Prop where
  route : (cell.state = .queued ∧ cell.routes = []) ∨
    (cell.state ≠ .queued ∧ cell.routes = [cell.state])
  resolution : (cell.future = .pending ∧ cell.resolutions = []) ∨
    (cell.future ≠ .pending ∧ cell.resolutions = [cell.future])

namespace TicketCell

variable {cell cell' : TicketCell}

/-- Leaving the queue once keeps the history in shape. -/
theorem Settled.leave (h : cell.Settled) (hqueued : cell.state = .queued) (hstate : state ≠ .queued)
    (keepTimer : Bool) (houtcome : outcome ≠ some .pending) :
    (cell.leave state keepTimer outcome).Settled := by
  obtain ⟨hroute, hresolution⟩ := h
  have hroutes : cell.routes = [] := by
    rcases hroute with ⟨-, h⟩ | ⟨h, -⟩
    · exact h
    · exact absurd hqueued h
  cases outcome with
  | none => exact ⟨Or.inr ⟨hstate, by simp [TicketCell.leave, hroutes]⟩, hresolution⟩
  | some outcome =>
    have hne : outcome ≠ .pending := fun h => houtcome (h ▸ rfl)
    rcases hresolution with ⟨hpending, hnil⟩ | ⟨hdone, hone⟩
    · refine ⟨Or.inr ⟨?_, ?_⟩, Or.inr ⟨?_, ?_⟩⟩ <;>
        simp [TicketCell.leave, hpending, hnil, hroutes, hstate, hne]
    · refine ⟨Or.inr ⟨?_, ?_⟩, Or.inr ⟨?_, ?_⟩⟩ <;>
        simp [TicketCell.leave, hdone, hone, hroutes, hstate]

/-- A touched cell keeps its history in shape. -/
theorem Settled.touched (h : cell.Settled) (htouched : cell.Touched cell') : cell'.Settled := by
  obtain ⟨hroute, hresolution⟩ := h
  refine ⟨by rw [htouched.state_eq, htouched.routes_eq]; exact hroute, ?_⟩
  rcases htouched.future_eq with ⟨hfuture, hsame⟩ | ⟨hpending, hne, hnew⟩
  · rw [hfuture, hsame]
    exact hresolution
  · rcases hresolution with ⟨-, hnil⟩ | ⟨hdone, -⟩
    · exact Or.inr ⟨hne, by rw [hnew, hnil]⟩
    · exact absurd hpending hdone

end TicketCell

namespace AdmissionScheduler

variable {n : ℕ}

/-- The number of active attempts that meet a condition on their scope. -/
def activeWhere (s : AdmissionScheduler) (p : RpcScope → Bool) : ℕ :=
  s.active.entries.countP fun entry => p entry.2.scope

/-- The invariant of the tickets. -/
structure Valid (policy : SchedulerPolicy) (s : AdmissionScheduler) : Prop where
  /-- A queued ticket is in the queue of its source, and its class is that of the source. -/
  scopes : ∀ source, ∀ t ∈ s.queues source,
    t.scope.source = source ∧ t.scope.serviceClass = source.serviceClass
  /-- A ticket in a queue is queued. -/
  queued : ∀ source, ∀ t ∈ s.queues source, (s.cells t.sequence).state = .queued
  /-- Every ticket in a queue was accepted. -/
  accepted : ∀ source, ∀ t ∈ s.queues source, t ∈ s.accepted
  /-- No ticket is in a queue twice. -/
  nodup : ∀ source, (s.queues source).Nodup
  /-- The sequence numbers of the accepted tickets. -/
  sequences : s.accepted.map (·.sequence) = (List.range' 1 s.sequence).reverse
  /-- An active attempt belongs to a ticket that was dispatched. -/
  dispatched : ∀ n ∈ s.active, (s.cells n).state = .dispatched ∧ n ≤ s.sequence
  /-- The class counts count the active attempts. -/
  classCounts : ∀ c, s.activeCounts c = s.activeWhere (·.serviceClass = c)
  /-- The source counts count the active attempts. -/
  sourceCounts : ∀ source, s.activeSourceCounts source = s.activeWhere (·.source = source)
  /-- No class holds more than its capacity. -/
  capacity : ∀ c, s.outstandingDepth c ≤ policy.capacity c
  /-- Every ticket has left the queue at most once, and its future was resolved at most once. -/
  settled : ∀ n, (s.cells n).Settled
  /-- The expiry timer of a queued ticket is armed. -/
  timer : ∀ t ∈ s.accepted, (s.cells t.sequence).state = .queued →
    (s.cells t.sequence).timer = true
  /-- A queued ticket is in its queue with its future pending, unless its caller is about to cancel
  it. -/
  present : ∀ t ∈ s.accepted, (s.cells t.sequence).state = .queued →
    (s.cells t.sequence).caller ≠ .cancelling →
    t ∈ s.queues t.scope.source ∧ (s.cells t.sequence).future = .pending

/-! ## Counting -/

/-- A sum over distinct items after one of them got another value. -/
theorem sum_map_update {α : Type*} [DecidableEq α] (f : α → ℤ) {l : List α} (hl : l.Nodup) (a : α)
    (v : ℤ) : (l.map (Function.update f a v)).sum =
      (l.map f).sum + if a ∈ l then v - f a else 0 := by
  induction l with
  | nil => simp
  | cons b l ih =>
    obtain ⟨hb, hl⟩ := List.nodup_cons.mp hl
    rw [List.map_cons, List.sum_cons, List.map_cons, List.sum_cons, ih hl]
    by_cases hab : a = b
    · subst hab
      simp only [Function.update_self, hb, if_false, List.mem_cons_self, if_true]
      ring
    · rw [Function.update_of_ne (Ne.symm hab)]
      simp only [List.mem_cons, hab, false_or]
      ring

/-- A source is on the cycle of its own class only. -/
theorem mem_sourceCycle {c : RpcServiceClass} :
    source ∈ sourceCycle c ↔ source.serviceClass = c := by
  rw [sourceCycle, List.mem_filter]
  simpa using fun _ => TelegramRpcSource.mem_all source

theorem nodup_sourceCycle (c : RpcServiceClass) : (sourceCycle c).Nodup :=
  TelegramRpcSource.nodup_all.filter _

/-- A ticket is in some queue exactly when it is in one of them. -/
theorem mem_allQueued {s : AdmissionScheduler} {t : AdmissionTicket} :
    t ∈ s.allQueued ↔ ∃ source, t ∈ s.queues source := by
  rw [allQueued, List.mem_flatMap]
  exact ⟨fun ⟨source, _, h⟩ => ⟨source, h⟩,
    fun ⟨source, h⟩ => ⟨source, TelegramRpcSource.mem_all source, h⟩⟩

/-- The queued depth after one queue got other contents. -/
theorem queuedDepth_update (s : AdmissionScheduler) (source : TelegramRpcSource)
    (queue : List AdmissionTicket) (c : RpcServiceClass) :
    queuedDepth { s with queues := Function.update s.queues source queue } c =
      s.queuedDepth c +
        if source.serviceClass = c then (queue.length : ℤ) - (s.queues source).length else 0 := by
  have hlength : (fun x => ((Function.update s.queues source queue x).length : ℤ)) =
      Function.update (fun x => ((s.queues x).length : ℤ)) source queue.length := by
    funext x
    by_cases hx : x = source
    · subst hx
      simp
    · simp [Function.update_of_ne hx]
  rw [queuedDepth, hlength, sum_map_update _ (nodup_sourceCycle c), queuedDepth]
  simp only [mem_sourceCycle]

theorem queuedDepth_le {s s' : AdmissionScheduler}
    (h : ∀ source, (s'.queues source).length ≤ (s.queues source).length) (c : RpcServiceClass) :
    s'.queuedDepth c ≤ s.queuedDepth c :=
  List.sum_le_sum fun source _ => by exact_mod_cast h source

/-- The entries of a table, with one of them taken out. -/
theorem countP_kerase {ν : Type*} (p : (Σ _ : ℕ, ν) → Bool) {n : ℕ} {v : ν} :
    ∀ {l : List (Σ _ : ℕ, ν)}, l.NodupKeys → l.dlookup n = some v →
      l.countP p = (l.kerase n).countP p + if p ⟨n, v⟩ then 1 else 0
  | [], _, h => by simp at h
  | ⟨m, u⟩ :: l, hl, h => by
    obtain ⟨hm, hl⟩ := List.nodupKeys_cons.mp hl
    by_cases hmn : n = m
    · subst hmn
      obtain rfl : u = v := by simpa using h
      have herase : List.kerase n (⟨n, u⟩ :: l) = l := List.kerase_cons_eq rfl
      rw [herase, List.countP_cons]
    · rw [List.dlookup_cons_ne _ _ hmn] at h
      rw [List.kerase_cons_ne hmn, List.countP_cons, List.countP_cons, countP_kerase p hl h]
      ring

/-- Counting the attempts after one of them ended. -/
theorem activeWhere_erase (s : AdmissionScheduler) (p : RpcScope → Bool)
    (h : s.active.lookup n = some attempt) :
    (s.activeWhere p : ℤ) = activeWhere { s with active := s.active.erase n } p +
      if p attempt.scope then 1 else 0 := by
  have hcount := countP_kerase (fun entry => p entry.2.scope) s.active.nodupKeys h
  rw [activeWhere, activeWhere, hcount, Nat.cast_add, Nat.cast_ite, Nat.cast_one, Nat.cast_zero]
  rfl

/-- Counting the attempts after a new one started. -/
theorem activeWhere_insert (s : AdmissionScheduler) (p : RpcScope → Bool) (attempt : ActiveAttempt)
    (h : n ∉ s.active) :
    (activeWhere { s with active := s.active.insert n attempt } p : ℤ) =
      s.activeWhere p + if p attempt.scope then 1 else 0 := by
  rw [activeWhere, AList.entries_insert_of_notMem h, List.countP_cons, activeWhere]
  push_cast
  rfl

/-- Counting the attempts after one of them changed in something else than its scope. -/
theorem activeWhere_replace (s : AdmissionScheduler) (p : RpcScope → Bool)
    {attempt' : ActiveAttempt} (h : s.active.lookup n = some attempt)
    (hscope : attempt'.scope = attempt.scope) :
    activeWhere { s with active := s.active.insert n attempt' } p = s.activeWhere p := by
  have herase := s.activeWhere_erase p h
  have hcons : activeWhere { s with active := s.active.insert n attempt' } p =
      activeWhere { s with active := s.active.erase n } p + if p attempt.scope then 1 else 0 := by
    rw [activeWhere, AList.entries_insert, List.countP_cons, hscope]
    rfl
  rw [hcons]
  split at herase <;> rename_i hp <;> simp only [hp] <;> simp <;> omega

/-! ## The moves -/

section Moves

variable {policy : SchedulerPolicy} {s : AdmissionScheduler}
variable {t u : AdmissionTicket} {s' : AdmissionScheduler}

/-- Accepted tickets are told apart by their sequence numbers. -/
theorem Valid.sequence_inj (h : s.Valid policy) (ht : t ∈ s.accepted) (hu : u ∈ s.accepted)
    (heq : t.sequence = u.sequence) : t = u := by
  have hnodup : (s.accepted.map (·.sequence)).Nodup := by
    rw [h.sequences]
    exact List.nodup_reverse.mpr List.nodup_range'
  exact List.inj_on_of_nodup_map hnodup ht hu heq

/-- The sequence number of an accepted ticket was handed out. -/
theorem Valid.sequence_le (h : s.Valid policy) (ht : t ∈ s.accepted) :
    1 ≤ t.sequence ∧ t.sequence ≤ s.sequence := by
  have hmem : t.sequence ∈ s.accepted.map (·.sequence) := List.mem_map_of_mem ht
  rw [h.sequences, List.mem_reverse, List.mem_range'_1] at hmem
  omega

/-- `_remove_ticket_locked` removes exactly that ticket. -/
theorem Valid.mem_removeTicket (h : s.Valid policy) :
    u ∈ (s.removeTicket t).queues source ↔ u ∈ s.queues source ∧ u ≠ t := by
  rw [removeTicket]
  by_cases hsource : source = t.scope.source
  · subst hsource
    simp only [Function.update_self, (h.nodup _).mem_erase_iff]
    exact and_comm
  · simp only [Function.update_of_ne hsource, iff_self_and]
    rintro hu rfl
    exact hsource (h.scopes source u hu).1.symm

/-- A queue from which a ticket was removed is a part of what it was. -/
theorem removeTicket_sublist (s : AdmissionScheduler) (t : AdmissionTicket)
    (source : TelegramRpcSource) :
    ((s.removeTicket t).queues source).Sublist (s.queues source) := by
  rw [removeTicket]
  by_cases hsource : source = t.scope.source
  · subst hsource
    simp only [Function.update_self]
    exact List.erase_sublist
  · simp only [Function.update_of_ne hsource]
    exact List.Sublist.refl _

/-- A ticket that left the queue is not queued. -/
theorem state_leave (cell : TicketCell) (state : TicketState) (keepTimer : Bool)
    (outcome : Option FutureState) : (cell.leave state keepTimer outcome).state = state := by
  cases outcome with
  | none => rfl
  | some outcome =>
    rw [TicketCell.leave]
    dsimp only
    split <;> rfl

/-- Leaving the queue keeps the invariant. -/
theorem Valid.leave (h : s.Valid policy) (ht : t ∈ s.accepted)
    (hqueued : (s.cells t.sequence).state = .queued) (hstate : state ≠ .queued) (keepTimer : Bool)
    (houtcome : outcome ≠ some .pending) : (s.leave t state keepTimer outcome).Valid policy := by
  have hcell : ((s.leave t state keepTimer outcome).cells t.sequence).state = state := by
    simp [AdmissionScheduler.leave, state_leave]
  have hother : ∀ n, n ≠ t.sequence →
      (s.leave t state keepTimer outcome).cells n = s.cells n := fun n hn =>
    Function.update_of_ne hn _ _
  have hqueue : ∀ source u, u ∈ (s.leave t state keepTimer outcome).queues source ↔
      u ∈ s.queues source ∧ u ≠ t := fun source u => h.mem_removeTicket
  have hne : ∀ source u, u ∈ s.queues source → u ≠ t → u.sequence ≠ t.sequence :=
    fun source u hu hut heq => hut (h.sequence_inj (h.accepted source u hu) ht heq)
  refine ⟨?_, ?_, ?_, ?_, h.sequences, ?_, h.classCounts, h.sourceCounts, ?_, ?_, ?_, ?_⟩
  · intro source u hu
    exact h.scopes source u ((hqueue source u).mp hu).1
  · intro source u hu
    obtain ⟨hmem, hut⟩ := (hqueue source u).mp hu
    rw [hother _ (hne source u hmem hut)]
    exact h.queued source u hmem
  · intro source u hu
    exact h.accepted source u ((hqueue source u).mp hu).1
  · intro source
    exact (h.nodup source).sublist (s.removeTicket_sublist t source)
  · intro n hn
    have hn' := h.dispatched n hn
    have hnt : n ≠ t.sequence := by
      rintro rfl
      rw [hqueued] at hn'
      cases hn'.1
    rw [hother n hnt]
    exact hn'
  · intro c
    refine le_trans ?_ (h.capacity c)
    exact add_le_add_left
      (queuedDepth_le (fun source => (s.removeTicket_sublist t source).length_le) c) _
  · intro n
    by_cases hn : n = t.sequence
    · subst hn
      simp only [AdmissionScheduler.leave, Function.update_self]
      exact (h.settled _).leave hqueued hstate keepTimer houtcome
    · rw [hother n hn]
      exact h.settled n
  · intro u hu hstate'
    have hut : u.sequence ≠ t.sequence := fun heq => by
      rw [heq, hcell] at hstate'
      exact hstate hstate'
    rw [hother _ hut] at hstate' ⊢
    exact h.timer u hu hstate'
  · intro u hu hstate' hcaller
    have hut : u.sequence ≠ t.sequence := fun heq => by
      rw [heq, hcell] at hstate'
      exact hstate hstate'
    rw [hother _ hut] at hstate' hcaller ⊢
    obtain ⟨hmem, hfuture⟩ := h.present u hu hstate' hcaller
    refine ⟨(hqueue _ _).mpr ⟨hmem, ?_⟩, hfuture⟩
    rintro rfl
    exact hut rfl

/-- Dropping done tickets from the queues keeps the invariant. -/
theorem Valid.drop (h : s.Valid policy) {queues : TelegramRpcSource → List AdmissionTicket}
    (hsub : ∀ source, (queues source).Sublist (s.queues source))
    (hdone : ∀ source, ∀ t ∈ s.queues source, t ∉ queues source →
      (s.cells t.sequence).state ≠ .queued ∨ (s.cells t.sequence).future ≠ .pending) :
    Valid policy { s with queues := queues } := by
  refine ⟨fun source t ht => h.scopes source t ((hsub source).subset ht),
    fun source t ht => h.queued source t ((hsub source).subset ht),
    fun source t ht => h.accepted source t ((hsub source).subset ht),
    fun source => (h.nodup source).sublist (hsub source), h.sequences, h.dispatched,
    h.classCounts, h.sourceCounts, ?_, h.settled, h.timer, ?_⟩
  · intro c
    exact le_trans (add_le_add_left (queuedDepth_le (fun source => (hsub source).length_le) c) _)
      (h.capacity c)
  · intro t ht hstate hcaller
    obtain ⟨hmem, hfuture⟩ := h.present t ht hstate hcaller
    refine ⟨?_, hfuture⟩
    by_contra hnot
    rcases hdone _ t hmem hnot with hne | hne
    · exact hne hstate
    · exact hne hfuture

/-- The admission that `_activate_ticket_locked` gives to the future. -/
def admissionOf (env : Environment) (t : AdmissionTicket) : RpcAdmission where
  source := t.scope.source
  serviceClass := t.scope.serviceClass
  waitSeconds := max 0 (env.now - t.enqueuedAt)
  sequence := t.sequence
  demandKind := t.scope.demandKind
  requestMethod := t.scope.requestMethod

/-- `_activate_ticket_locked` on a ticket taken from its queue: the ticket leaves the queue, and an
attempt starts. -/
theorem activateTicket_eq (s : AdmissionScheduler) (env : Environment) (t : AdmissionTicket) :
    (s.removeTicket t).activateTicket env t =
      { s.leave t .dispatched false (some (.result (admissionOf env t))) with
        active := s.active.insert t.sequence { scope := t.scope }
        activeCounts := Function.update s.activeCounts t.scope.serviceClass
          (s.activeCounts t.scope.serviceClass + 1)
        activeSourceCounts := Function.update s.activeSourceCounts t.scope.source
          (s.activeSourceCounts t.scope.source + 1) } := by
  simp [activateTicket, assignState, cancelTimer, modifyCell, resolve, removeTicket,
    AdmissionScheduler.leave, TicketCell.leave, admissionOf]

/-- A counter after one more of its kind. -/
theorem update_add_one {κ : Type*} [DecidableEq κ] (counts : κ → ℤ) (k k' : κ) :
    Function.update counts k (counts k + 1) k' = counts k' + if k = k' then 1 else 0 := by
  by_cases hk : k = k'
  · subst hk
    simp
  · rw [Function.update_of_ne (Ne.symm hk), if_neg hk, add_zero]

/-- A counter after one less of its kind. -/
theorem update_sub_one {κ : Type*} [DecidableEq κ] (counts : κ → ℤ) (k k' : κ) :
    Function.update counts k (counts k - 1) k' = counts k' - if k = k' then 1 else 0 := by
  by_cases hk : k = k'
  · subst hk
    simp
  · rw [Function.update_of_ne (Ne.symm hk), if_neg hk, sub_zero]

/-- Activation keeps the invariant: what the queue loses the active attempts gain. -/
theorem Valid.activate (h : s.Valid policy) (env : Environment) (hmem : t ∈ s.queues t.scope.source) :
    ((s.removeTicket t).activateTicket env t).Valid policy := by
  have ht := h.accepted _ t hmem
  have hqueued := h.queued _ t hmem
  obtain ⟨-, hclass⟩ := h.scopes _ t hmem
  have hleave : (s.leave t .dispatched false (some (.result (admissionOf env t)))).Valid policy :=
    h.leave ht hqueued (by simp) false (by simp)
  have hnew : t.sequence ∉ s.active := fun hactive => by
    have := (h.dispatched _ hactive).1
    rw [hqueued] at this
    cases this
  rw [activateTicket_eq]
  refine ⟨hleave.scopes, hleave.queued, hleave.accepted, hleave.nodup, hleave.sequences, ?_, ?_,
    ?_, ?_, hleave.settled, hleave.timer, hleave.present⟩
  · intro n hn
    rcases (AList.mem_insert _).mp hn with rfl | hn
    · refine ⟨?_, (h.sequence_le ht).2⟩
      simp [AdmissionScheduler.leave, state_leave]
    · exact hleave.dispatched n hn
  · intro c
    have hcount := s.activeWhere_insert (fun scope => scope.serviceClass = c)
      { scope := t.scope } hnew
    have hold := h.classCounts c
    simp only [update_add_one, hold, decide_eq_true_eq] at hcount ⊢
    exact hcount.symm
  · intro source
    have hcount := s.activeWhere_insert (fun scope => scope.source = source)
      { scope := t.scope } hnew
    have hold := h.sourceCounts source
    simp only [update_add_one, hold, decide_eq_true_eq] at hcount ⊢
    exact hcount.symm
  · intro c
    have hcapacity := h.capacity c
    have hlength := List.length_erase_of_mem hmem
    have hpos := List.length_pos_of_mem hmem
    have hdepth : queuedDepth (s.removeTicket t) c = s.queuedDepth c -
        if t.scope.serviceClass = c then 1 else 0 := by
      rw [removeTicket, queuedDepth_update, ← hclass, hlength, Nat.cast_sub hpos]
      split <;> push_cast <;> ring
    have hsame : s.queuedDepth c + s.activeCounts c = queuedDepth (s.removeTicket t) c +
        (s.activeCounts c + if t.scope.serviceClass = c then 1 else 0) := by
      rw [hdepth]
      ring
    rw [outstandingDepth, hsame] at hcapacity
    rw [outstandingDepth]
    simp only [update_add_one]
    exact hcapacity

/-- A new ticket keeps the invariant when its class has room. -/
theorem Valid.enqueue (h : s.Valid policy) (hsequence : t.sequence = s.sequence + 1)
    (hclass : t.scope.serviceClass = t.scope.source.serviceClass)
    (hroom : s.outstandingDepth t.scope.serviceClass < policy.capacity t.scope.serviceClass) :
    (s.enqueue t).Valid policy := by
  have hfresh : ∀ u ∈ s.accepted, u.sequence ≠ t.sequence := fun u hu => by
    have := h.sequence_le hu
    omega
  have hnew : t ∉ s.accepted := fun hmem => hfresh t hmem rfl
  have hother : ∀ n, n ≠ t.sequence → (s.enqueue t).cells n = s.cells n := fun n hn =>
    Function.update_of_ne hn _ _
  have hself : (s.enqueue t).cells t.sequence = { timer := true } := Function.update_self ..
  have hqueue : ∀ source u, u ∈ (s.enqueue t).queues source ↔
      u ∈ s.queues source ∨ (u = t ∧ source = t.scope.source) := by
    intro source u
    rw [AdmissionScheduler.enqueue]
    by_cases hsource : source = t.scope.source
    · subst hsource
      simp
    · simp [hsource]
  refine ⟨?_, ?_, ?_, ?_, ?_, ?_, h.classCounts, h.sourceCounts, ?_, ?_, ?_, ?_⟩
  · intro source u hu
    rcases (hqueue source u).mp hu with hu | ⟨rfl, rfl⟩
    · exact h.scopes source u hu
    · exact ⟨rfl, hclass⟩
  · intro source u hu
    rcases (hqueue source u).mp hu with hu | ⟨rfl, rfl⟩
    · rw [hother _ (hfresh u (h.accepted source u hu))]
      exact h.queued source u hu
    · rw [hself]
  · intro source u hu
    rcases (hqueue source u).mp hu with hu | ⟨rfl, rfl⟩
    · exact List.mem_cons_of_mem _ (h.accepted source u hu)
    · exact List.mem_cons_self
  · intro source
    rw [AdmissionScheduler.enqueue]
    by_cases hsource : source = t.scope.source
    · subst hsource
      simp only [Function.update_self]
      rw [← List.concat_eq_append]
      exact (h.nodup _).concat fun hmem => hnew (h.accepted _ t hmem)
    · simp only [Function.update_of_ne hsource]
      exact h.nodup source
  · show (t :: s.accepted).map (·.sequence) = (List.range' 1 t.sequence).reverse
    rw [List.map_cons, h.sequences, hsequence, List.range'_1_concat, List.reverse_append]
    simp [Nat.add_comm]
  · intro n hn
    obtain ⟨hstate, hle⟩ := h.dispatched n hn
    rw [hother n (by omega)]
    exact ⟨hstate, by show n ≤ t.sequence; omega⟩
  · intro c
    have hcapacity := h.capacity c
    have hdepth : (s.enqueue t).queuedDepth c = s.queuedDepth c +
        if t.scope.serviceClass = c then 1 else 0 := by
      have hupdate := s.queuedDepth_update t.scope.source (s.queues t.scope.source ++ [t]) c
      rw [← hclass] at hupdate
      rw [List.length_append, List.length_singleton] at hupdate
      push_cast at hupdate
      rw [add_sub_cancel_left] at hupdate
      exact hupdate
    rw [outstandingDepth, hdepth]
    show s.queuedDepth c + _ + s.activeCounts c ≤ _
    rw [outstandingDepth] at hcapacity hroom
    split
    · rename_i hc
      subst hc
      omega
    · omega
  · intro n
    by_cases hn : n = t.sequence
    · subst hn
      rw [hself]
      exact ⟨Or.inl ⟨rfl, rfl⟩, Or.inl ⟨rfl, rfl⟩⟩
    · rw [hother n hn]
      exact h.settled n
  · intro u hu hstate
    rcases List.mem_cons.mp hu with rfl | hu
    · rw [hself]
    · rw [hother _ (hfresh u hu)] at hstate ⊢
      exact h.timer u hu hstate
  · intro u hu hstate hcaller
    rcases List.mem_cons.mp hu with rfl | hu
    · rw [hself]
      exact ⟨(hqueue _ _).mpr (Or.inr ⟨rfl, rfl⟩), rfl⟩
    · rw [hother _ (hfresh u hu)] at hstate hcaller ⊢
      obtain ⟨hmem, hfuture⟩ := h.present u hu hstate hcaller
      exact ⟨(hqueue _ _).mpr (Or.inl hmem), hfuture⟩

/-- The end of an attempt keeps the invariant. -/
theorem Valid.pop (h : s.Valid policy) (sequence : ℕ) : (s.popActive sequence).Valid policy := by
  unfold popActive
  cases hlookup : s.active.lookup sequence with
  | none => exact h
  | some attempt =>
    have hclass : ∀ c, Function.update s.activeCounts attempt.scope.serviceClass
        (s.activeCounts attempt.scope.serviceClass - 1) c =
        activeWhere { s with active := s.active.erase sequence } (·.serviceClass = c) := by
      intro c
      have hcount := s.activeWhere_erase (fun scope => scope.serviceClass = c) hlookup
      rw [update_sub_one, h.classCounts c, hcount]
      simp
    refine ⟨h.scopes, h.queued, h.accepted, h.nodup, h.sequences, ?_, hclass, ?_, ?_, h.settled,
      h.timer, h.present⟩
    · intro n hn
      exact h.dispatched n (AList.mem_erase.mp hn).2
    · intro source
      have hcount := s.activeWhere_erase (fun scope => scope.source = source) hlookup
      show Function.update s.activeSourceCounts attempt.scope.source
        (s.activeSourceCounts attempt.scope.source - 1) source = _
      rw [update_sub_one, h.sourceCounts source, hcount]
      simp [activeWhere, releaseActiveCapacity]
    · intro c
      refine le_trans ?_ (h.capacity c)
      show s.queuedDepth c + Function.update s.activeCounts attempt.scope.serviceClass
        (s.activeCounts attempt.scope.serviceClass - 1) c ≤ s.queuedDepth c + s.activeCounts c
      rw [update_sub_one]
      split <;> omega

/-- Granting a write keeps the invariant. -/
theorem Valid.grant (h : s.Valid policy) {sequence : ℕ}
    (hlookup : s.active.lookup sequence = some attempt) :
    Valid policy { s with
      active := s.active.insert sequence { attempt with dispatchRecorded := true } } := by
  have hmem : sequence ∈ s.active := AList.lookup_isSome.mp (by rw [hlookup]; rfl)
  refine ⟨h.scopes, h.queued, h.accepted, h.nodup, h.sequences, ?_, ?_, ?_, h.capacity, h.settled,
    h.timer, h.present⟩
  · intro n hn
    rcases (AList.mem_insert _).mp hn with rfl | hn
    · exact h.dispatched _ hmem
    · exact h.dispatched n hn
  · intro c
    exact (h.classCounts c).trans (congrArg _ (s.activeWhere_replace _ hlookup (by rfl)).symm)
  · intro source
    exact (h.sourceCounts source).trans
      (congrArg _ (s.activeWhere_replace _ hlookup (by rfl)).symm)

/-- Forgetting the active attempts keeps the invariant. -/
theorem Valid.clear (h : s.Valid policy) : s.clearActive.Valid policy := by
  refine ⟨h.scopes, h.queued, h.accepted, h.nodup, h.sequences, ?_, fun _ => rfl, fun _ => rfl, ?_,
    h.settled, h.timer, h.present⟩
  · intro n hn
    exact absurd hn (AList.notMem_empty n)
  · intro c
    have hcapacity := h.capacity c
    have hcount := h.classCounts c
    show s.queuedDepth c + 0 ≤ _
    rw [outstandingDepth] at hcapacity
    omega

/-- What happens to a cell apart from its state keeps the invariant. -/
theorem Valid.touch (h : s.Valid policy) (t : AdmissionTicket) {f : TicketCell → TicketCell}
    (hf : (s.cells t.sequence).Touched (f (s.cells t.sequence))) :
    (s.modifyCell t.sequence f).Valid policy := by
  have hother : ∀ n, n ≠ t.sequence → (s.modifyCell t.sequence f).cells n = s.cells n :=
    fun n hn => Function.update_of_ne hn _ _
  have hself : (s.modifyCell t.sequence f).cells t.sequence = f (s.cells t.sequence) :=
    Function.update_self ..
  have hstate : ∀ n, ((s.modifyCell t.sequence f).cells n).state = (s.cells n).state := by
    intro n
    by_cases hn : n = t.sequence
    · subst hn
      rw [hself, hf.state_eq]
    · rw [hother n hn]
  refine ⟨h.scopes, ?_, h.accepted, h.nodup, h.sequences, ?_, h.classCounts, h.sourceCounts,
    h.capacity, ?_, ?_, ?_⟩
  · intro source u hu
    rw [hstate]
    exact h.queued source u hu
  · intro n hn
    rw [hstate]
    exact h.dispatched n hn
  · intro n
    by_cases hn : n = t.sequence
    · subst hn
      rw [hself]
      exact (h.settled _).touched hf
    · rw [hother n hn]
      exact h.settled n
  · intro u hu hqueued
    rw [hstate] at hqueued
    by_cases hut : u.sequence = t.sequence
    · rw [hut] at hqueued
      rw [hut, hself, hf.timer_eq hqueued]
      exact hut ▸ h.timer u hu (hut ▸ hqueued)
    · rw [hother _ hut]
      exact h.timer u hu hqueued
  · intro u hu hqueued hcaller
    rw [hstate] at hqueued
    by_cases hut : u.sequence = t.sequence
    · rw [hut, hself] at hcaller
      rw [hut] at hqueued
      obtain ⟨hsame, hfuture⟩ := (hf.caller_eq hqueued).resolve_left hcaller
      rw [hsame] at hcaller
      have hpresent := h.present u hu (hut ▸ hqueued) (hut ▸ hcaller)
      rw [hut, hself, hfuture]
      exact hut ▸ hpresent
    · rw [hother _ hut] at hcaller ⊢
      exact h.present u hu hqueued hcaller

/-- Changes that concern no ticket keep the invariant. -/
theorem Valid.keep (h : s.Valid policy) (hsame : SameTickets s s') : s'.Valid policy := by
  obtain ⟨hqueues, hcells, hactive, hcounts, hsourceCounts, hsequence, haccepted, -⟩ := hsame
  obtain ⟨h1, h2, h3, h4, h5, h6, h7, h8, h9, h10, h11, h12⟩ := h
  refine ⟨?_, ?_, ?_, ?_, ?_, ?_, ?_, ?_, ?_, ?_, ?_, ?_⟩
  all_goals
    simpa only [hqueues, hcells, hactive, hcounts, hsourceCounts, hsequence, haccepted,
      activeWhere, outstandingDepth, queuedDepth]

/-- Every move keeps the invariant. -/
theorem Move.valid (hmove : Move policy s s') (h : s.Valid policy) : s'.Valid policy := by
  cases hmove with
  | leave t state keepTimer outcome houtcome haccepted hqueued hstate =>
    exact h.leave haccepted hqueued hstate keepTimer houtcome
  | drop queues hsub hdone => exact h.drop hsub hdone
  | activate env t hopen hmem => exact h.activate env hmem
  | enqueue t hsequence hclass hroom => exact h.enqueue hsequence hclass hroom
  | pop sequence => exact h.pop sequence
  | grant sequence attempt hlookup => exact h.grant hlookup
  | clear => exact h.clear
  | touch t f hf => exact h.touch t hf
  | keep s' hsame => exact h.keep hsame

/-- A sequence of moves keeps the invariant. -/
theorem Moves.valid (hmoves : Moves policy s s') (h : s.Valid policy) : s'.Valid policy := by
  induction hmoves with
  | refl => exact h
  | tail _ hmove ih => exact hmove.valid ih

end Moves

end AdmissionScheduler

end McpTelegram
