import McpTelegram.Foundations.Retention

/-!
# The FloodWait kill switch

`FloodWaitAccumulator` of `flood.py`: the observations of a daemon process in a deque, which every
reader prunes by age and by number, and the switch that an observation opens when the policy says
so.  The event that the switch sets and the log of the rollup are left out.

The policy is about all observations, the switch about those that are left.  They agree as long as
the window holds no observation older than a week and no more than the deque keeps.
-/

namespace McpTelegram

open Foundations

variable {cap : ℕ}

/-! ## The accumulator -/

/-- `_SECONDS_PER_HOUR`. -/
def secondsPerHour : ℚ := 60 * 60

/-- `_SECONDS_PER_DAY`. -/
def secondsPerDay : ℚ := 24 * secondsPerHour

/-- `_SECONDS_PER_WEEK`. -/
def secondsPerWeek : ℚ := 7 * secondsPerDay

/-- `_MAX_RETAINED_EVENTS`. -/
def maxRetainedEvents : ℕ := 10000

/-- `FloodWaitRollup`. -/
structure FloodWaitRollup where
  events1h : ℕ
  waitS1h : ℕ
  events24h : ℕ
  waitS24h : ℕ
  events7d : ℕ
  waitS7d : ℕ
  deriving DecidableEq

/-- `FloodWaitKillSwitchPolicy`. -/
structure FloodWaitKillSwitchPolicy where
  enabled : Bool
  windowSeconds : ℕ
  maxEvents : ℕ
  maxWaitSeconds : ℕ
  deriving DecidableEq

/-- `FloodWaitKillSwitchStatus`. -/
structure FloodWaitKillSwitchStatus where
  isOpen : Bool := false
  reason : Option String := none
  openedAt : Option ℤ := none
  eventsInWindow : ℕ := 0
  waitSInWindow : ℕ := 0
  windowSeconds : ℕ := 0
  source : Option String := none
  deriving DecidableEq

/-- `_FloodWaitEvent`. -/
structure FloodWaitEvent where
  atMono : ℚ
  seconds : ℕ
  source : String
  deriving DecidableEq

/-- `FloodWaitAccumulator`. -/
structure FloodWaitAccumulator where
  maxEvents : ℕ := maxRetainedEvents
  events : List FloodWaitEvent := []
  killSwitchPolicy : Option FloodWaitKillSwitchPolicy := none
  killSwitchStatus : FloodWaitKillSwitchStatus := {}

/-- The `while` loop of `_prune`. -/
def pruneEvents (maxEvents : ℕ) (minAt : ℚ) : List FloodWaitEvent → List FloodWaitEvent
  | [] => []
  | event :: events =>
    if event.atMono < minAt ∨ maxEvents < (event :: events).length then
      pruneEvents maxEvents minAt events
    else event :: events

/-- The events of `_count_since` and `_sum_since`. -/
def eventsSince (minAt : ℚ) (events : List FloodWaitEvent) : List FloodWaitEvent :=
  events.filter fun event => minAt ≤ event.atMono

/-- The seconds of some events. -/
def waitSeconds (events : List FloodWaitEvent) : ℕ := (events.map FloodWaitEvent.seconds).sum

namespace FloodWaitAccumulator

variable (accumulator : FloodWaitAccumulator)

/-- `_prune`. -/
def prune (nowMono : ℚ) : FloodWaitAccumulator :=
  { accumulator with
    events := pruneEvents accumulator.maxEvents (nowMono - secondsPerWeek) accumulator.events }

/-- `_count_since`. -/
def countSince (minAt : ℚ) : ℕ := (eventsSince minAt accumulator.events).length

/-- `_sum_since`. -/
def sumSince (minAt : ℚ) : ℕ := waitSeconds (eventsSince minAt accumulator.events)

/-- `_evaluate_kill_switch`; the wall clock is read when the switch opens. -/
def evaluateKillSwitch (nowMono : ℚ) (source : String) (time : ℤ) : FloodWaitAccumulator :=
  match accumulator.killSwitchPolicy with
  | none => accumulator
  | some policy =>
    if policy.enabled = false ∨ accumulator.killSwitchStatus.isOpen = true then accumulator
    else
      let minAt := nowMono - policy.windowSeconds
      let events := accumulator.countSince minAt
      let waitS := accumulator.sumSince minAt
      let reason :=
        if policy.maxEvents ≤ events then some "too_many_flood_wait_events"
        else if policy.maxWaitSeconds ≤ waitS then some "too_much_flood_wait_time"
        else none
      match reason with
      | none => accumulator
      | some reason =>
        { accumulator with
          killSwitchStatus :=
            { isOpen := true, reason, openedAt := some time, eventsInWindow := events
              waitSInWindow := waitS, windowSeconds := policy.windowSeconds
              source := some source } }

/-- The event of an observation: `max(0, int(seconds))`. -/
def observed (source : String) (seconds : ℤ) (now : ℚ) : FloodWaitEvent :=
  ⟨now, seconds.toNat, source⟩

/-- `observe`. -/
def observe (source : String) (seconds : ℤ) (now : ℚ) (time : ℤ) : FloodWaitAccumulator :=
  ({ accumulator with events := accumulator.events ++ [observed source seconds now] }.prune
    now).evaluateKillSwitch now source time

/-- `snapshot`: the rollup, and the accumulator that is left. -/
def snapshot (now : ℚ) : FloodWaitRollup × FloodWaitAccumulator :=
  let accumulator := accumulator.prune now
  ({ events1h := accumulator.countSince (now - secondsPerHour)
     waitS1h := accumulator.sumSince (now - secondsPerHour)
     events24h := accumulator.countSince (now - secondsPerDay)
     waitS24h := accumulator.sumSince (now - secondsPerDay)
     events7d := accumulator.countSince (now - secondsPerWeek)
     waitS7d := accumulator.sumSince (now - secondsPerWeek) }, accumulator)

/-- `configure_kill_switch`. -/
def configureKillSwitch (policy : FloodWaitKillSwitchPolicy) : FloodWaitAccumulator :=
  { accumulator with
    killSwitchPolicy := some policy
    killSwitchStatus :=
      if policy.enabled then accumulator.killSwitchStatus
      else { windowSeconds := policy.windowSeconds } }

/-- `kill_switch_status`: the status, and the accumulator that is left. -/
def readKillSwitchStatus (now : ℚ) : FloodWaitKillSwitchStatus × FloodWaitAccumulator :=
  let accumulator := accumulator.prune now
  let status :=
    if accumulator.killSwitchStatus.isOpen then accumulator.killSwitchStatus
    else
      match accumulator.killSwitchPolicy with
      | none => {}
      | some policy =>
        { eventsInWindow := accumulator.countSince (now - policy.windowSeconds)
          waitSInWindow := accumulator.sumSince (now - policy.windowSeconds)
          windowSeconds := policy.windowSeconds }
  (status, accumulator)

end FloodWaitAccumulator

/-- A call of the accumulator. -/
inductive FloodStep where
  | observe (source : String) (seconds : ℤ) (now : ℚ) (time : ℤ)
  | snapshot (now : ℚ)
  | status (now : ℚ)
  | configure (policy : FloodWaitKillSwitchPolicy)

/-- One call. -/
def FloodWaitAccumulator.step (accumulator : FloodWaitAccumulator) :
    FloodStep → FloodWaitAccumulator
  | .observe source seconds now time => accumulator.observe source seconds now time
  | .snapshot now => (accumulator.snapshot now).2
  | .status now => (accumulator.readKillSwitchStatus now).2
  | .configure policy => accumulator.configureKillSwitch policy

/-- The accumulator after some calls. -/
def FloodWaitAccumulator.run (accumulator : FloodWaitAccumulator) (steps : List FloodStep) :
    FloodWaitAccumulator := steps.foldl FloodWaitAccumulator.step accumulator

/-! ## The policy -/

namespace FloodWaitKillSwitchPolicy

variable (policy : FloodWaitKillSwitchPolicy)

/-- The observations in the window that ends at a time. -/
def window (past : List FloodWaitEvent) (now : ℚ) : List FloodWaitEvent :=
  eventsSince (now - policy.windowSeconds) past

/-- Among all observations so far, those in the window are too many or too long. -/
def Storm (past : List FloodWaitEvent) (now : ℚ) : Prop :=
  policy.maxEvents ≤ (policy.window past now).length ∨
    policy.maxWaitSeconds ≤ waitSeconds (policy.window past now)

instance (past : List FloodWaitEvent) (now : ℚ) : Decidable (policy.Storm past now) :=
  inferInstanceAs (Decidable (_ ∨ _))

/-- There was a storm at one of the observations. -/
def Tripped (past : List FloodWaitEvent) : Prop :=
  ∃ earlier event later, past = earlier ++ event :: later ∧
    policy.Storm (earlier ++ [event]) event.atMono

/-- The deque has what the window needs: nothing in the window is older than a week, and the window
or the limit on the number is within the cap. -/
def Covered (cap : ℕ) (past : List FloodWaitEvent) (now : ℚ) : Prop :=
  (∀ event ∈ policy.window past now, now - secondsPerWeek ≤ event.atMono) ∧
    (policy.maxEvents ≤ cap ∨ (policy.window past now).length ≤ cap)

/-- At every observation up to the first storm the deque has what the window needs. -/
def CoveredAll (cap : ℕ) (past : List FloodWaitEvent) : Prop :=
  ∀ earlier event later, past = earlier ++ event :: later →
    policy.Tripped earlier ∨ policy.Covered cap (earlier ++ [event]) event.atMono

variable {policy}

variable {past kept : List FloodWaitEvent}

/-- A new observation is a storm, or there was one before. -/
theorem tripped_concat {event : FloodWaitEvent} :
    policy.Tripped (past ++ [event]) ↔
      policy.Tripped past ∨ policy.Storm (past ++ [event]) event.atMono := by
  constructor
  · rintro ⟨earlier, first, later, hsplit, hstorm⟩
    rcases List.eq_nil_or_concat' later with rfl | ⟨later, last, rfl⟩
    · obtain ⟨rfl, hfirst⟩ := List.append_inj' hsplit rfl
      obtain rfl := List.singleton_inj.mp hfirst
      exact Or.inr hstorm
    · have hends : past ++ [event] = (earlier ++ first :: later) ++ [last] := by
        rw [hsplit, List.append_assoc, List.cons_append]
      obtain ⟨hpast, -⟩ := List.append_inj' hends rfl
      exact Or.inl ⟨earlier, first, later, hpast, hstorm⟩
  · rintro (⟨earlier, first, later, rfl, hstorm⟩ | hstorm)
    · exact ⟨earlier, first, later ++ [event], by
        rw [List.append_assoc, List.cons_append], hstorm⟩
    · exact ⟨past, event, [], rfl, hstorm⟩

/-- Without an observation there is no storm. -/
theorem not_tripped_nil : ¬ policy.Tripped [] := by
  rintro ⟨earlier, event, later, hsplit, -⟩
  exact List.append_ne_nil_of_right_ne_nil earlier (List.cons_ne_nil event later) hsplit.symm

/-- A window of at most a week, and a limit on the number within the cap, are always covered. -/
theorem coveredAll_of_le {cap : ℕ} (hwindow : (policy.windowSeconds : ℚ) ≤ secondsPerWeek)
    (hevents : policy.maxEvents ≤ cap) (past : List FloodWaitEvent) :
    policy.CoveredAll cap past := by
  intro earlier event later _
  refine Or.inr ⟨fun other hother => ?_, Or.inl hevents⟩
  have hsince := of_decide_eq_true (List.mem_filter.mp hother).2
  linarith

end FloodWaitKillSwitchPolicy

/-! ## The deque -/

/-- The observation of a call. -/
def FloodStep.observation : FloodStep → Option FloodWaitEvent
  | .observe source seconds now _ => some (FloodWaitAccumulator.observed source seconds now)
  | _ => none

/-- The clock of a call. -/
def FloodStep.now : FloodStep → Option ℚ
  | .observe _ _ now _ | .snapshot now | .status now => some now
  | .configure _ => none

/-- The observations of some calls. -/
def observationsOf (steps : List FloodStep) : List FloodWaitEvent :=
  steps.filterMap FloodStep.observation

/-- Pruning keeps what has not expired within the cap. -/
theorem pruneEvents_retains {minAt : ℚ}
    (h : Retains cap (fun event => event.atMono < minAt) past kept) :
    Retains cap (fun event => event.atMono < minAt) past (pruneEvents cap minAt kept) := by
  induction kept with
  | nil => exact h
  | cons event events ih =>
    unfold pruneEvents
    split_ifs with hleaves
    · exact ih (h.pop hleaves)
    · exact h

/-- What the window sees in the deque decides as what it would see in the history. -/
theorem storm_iff_of_retains {policy : FloodWaitKillSwitchPolicy} {now : ℚ}
    (h : Retains cap (fun event => event.atMono < now - secondsPerWeek) past kept)
    (hordered : past.Pairwise fun event event' => event.atMono ≤ event'.atMono)
    (hcovered : policy.Covered cap past now) : policy.Storm kept now ↔ policy.Storm past now := by
  have hwindow := h.window (fun event => decide (now - policy.windowSeconds ≤ event.atMono))
    (hordered.imp fun hle hsince => decide_eq_true ((of_decide_eq_true hsince).trans hle))
    (fun event hmem hsince => not_lt.mpr
      (hcovered.1 event (List.mem_filter.mpr ⟨hmem, hsince⟩)))
  rcases hwindow with hsame | ⟨hkept, hpast⟩
  · rw [FloodWaitKillSwitchPolicy.Storm, FloodWaitKillSwitchPolicy.Storm,
      FloodWaitKillSwitchPolicy.window, FloodWaitKillSwitchPolicy.window, eventsSince, eventsSince,
      hsame]
  · have hlimit : policy.maxEvents ≤ cap :=
      hcovered.2.resolve_right (not_le.mpr hpast)
    exact iff_of_true (Or.inl (hlimit.trans hkept)) (Or.inl (hlimit.trans hpast.le))

/-! ## The switch -/

namespace FloodWaitAccumulator

variable {accumulator : FloodWaitAccumulator} {policy : FloodWaitKillSwitchPolicy}

/-- An evaluation changes the status only. -/
theorem evaluateKillSwitch_fields (accumulator : FloodWaitAccumulator) (nowMono : ℚ)
    (source : String) (time : ℤ) :
    (accumulator.evaluateKillSwitch nowMono source time).maxEvents = accumulator.maxEvents ∧
      (accumulator.evaluateKillSwitch nowMono source time).events = accumulator.events ∧
      (accumulator.evaluateKillSwitch nowMono source time).killSwitchPolicy =
        accumulator.killSwitchPolicy := by
  unfold evaluateKillSwitch
  split
  · exact ⟨rfl, rfl, rfl⟩
  · split_ifs
    · exact ⟨rfl, rfl, rfl⟩
    · dsimp only
      split <;> exact ⟨rfl, rfl, rfl⟩

/-- After an evaluation the switch is open if it was, or if the deque shows a storm. -/
theorem evaluateKillSwitch_isOpen (hpolicy : accumulator.killSwitchPolicy = some policy)
    (henabled : policy.enabled = true) (nowMono : ℚ) (source : String) (time : ℤ) :
    (accumulator.evaluateKillSwitch nowMono source time).killSwitchStatus.isOpen = true ↔
      accumulator.killSwitchStatus.isOpen = true ∨ policy.Storm accumulator.events nowMono := by
  unfold evaluateKillSwitch
  rw [hpolicy]
  dsimp only
  rw [henabled]
  by_cases hopen : accumulator.killSwitchStatus.isOpen = true
  · rw [if_pos (Or.inr hopen)]
    exact iff_of_true hopen (Or.inl hopen)
  · rw [if_neg (by simp [hopen])]
    by_cases hevents : policy.maxEvents ≤ accumulator.countSince (nowMono - policy.windowSeconds)
    · rw [if_pos hevents]
      exact iff_of_true rfl (Or.inr (Or.inl hevents))
    · rw [if_neg hevents]
      by_cases hwait :
          policy.maxWaitSeconds ≤ accumulator.sumSince (nowMono - policy.windowSeconds)
      · rw [if_pos hwait]
        exact iff_of_true rfl (Or.inr (Or.inr hwait))
      · rw [if_neg hwait]
        refine iff_of_false hopen ?_
        rintro (hwas | hmany | hlong)
        · exact hopen hwas
        · exact hevents hmany
        · exact hwait hlong

/-- A call keeps the switch open, unless it disables the policy. -/
theorem step_isOpen (hopen : accumulator.killSwitchStatus.isOpen = true) {step : FloodStep}
    (hstep : ∀ policy, step = .configure policy → policy.enabled = true) :
    (accumulator.step step).killSwitchStatus.isOpen = true := by
  cases step with
  | observe source seconds now time =>
    have hpruned : (({ accumulator with
        events := accumulator.events ++ [observed source seconds now] }.prune
          now).killSwitchStatus.isOpen = true) := hopen
    rw [step, observe]
    unfold evaluateKillSwitch
    split
    · exact hpruned
    · rw [if_pos (Or.inr hpruned)]
      exact hpruned
  | snapshot now => exact hopen
  | status now => exact hopen
  | configure policy =>
    rw [step, configureKillSwitch]
    dsimp only
    rw [if_pos (hstep policy rfl)]
    exact hopen

variable {steps : List FloodStep}

/-- So do all calls that do not disable it. -/
theorem run_isOpen (hopen : accumulator.killSwitchStatus.isOpen = true)
    (hsteps : ∀ policy, .configure policy ∈ steps → policy.enabled = true) :
    (accumulator.run steps).killSwitchStatus.isOpen = true := by
  induction steps generalizing accumulator with
  | nil => exact hopen
  | cons step steps ih =>
    refine ih (step_isOpen hopen fun policy hpolicy => ?_) fun policy hmem => ?_
    · exact hsteps policy (hpolicy ▸ List.mem_cons_self)
    · exact hsteps policy (List.mem_cons_of_mem _ hmem)

end FloodWaitAccumulator

/-- The accumulator knows the policy, keeps the end of the observations and is open after a
storm. -/
structure KillSwitchInvariant (policy : FloodWaitKillSwitchPolicy) (cap : ℕ)
    (past : List FloodWaitEvent) (now : ℚ) (accumulator : FloodWaitAccumulator) : Prop where
  capped : accumulator.maxEvents = cap
  installed : accumulator.killSwitchPolicy = some policy
  retains : Retains cap (fun event => event.atMono < now - secondsPerWeek) past accumulator.events
  ordered : past.Pairwise fun event event' => event.atMono ≤ event'.atMono
  upTo : ∀ event ∈ past, event.atMono ≤ now
  isOpen_iff : accumulator.killSwitchStatus.isOpen = true ↔ policy.Tripped past

namespace KillSwitchInvariant

variable {policy : FloodWaitKillSwitchPolicy} {cap : ℕ} {past : List FloodWaitEvent} {now later : ℚ}
  {accumulator : FloodWaitAccumulator}

/-- A reader at a later time prunes the deque. -/
theorem prune (h : KillSwitchInvariant policy cap past now accumulator) (hle : now ≤ later) :
    KillSwitchInvariant policy cap past later (accumulator.prune later) where
  capped := h.capped
  installed := h.installed
  retains := by
    rw [FloodWaitAccumulator.prune, h.capped]
    exact pruneEvents_retains (h.retains.mono fun event hold => hold.trans_le (by linarith))
  ordered := h.ordered
  upTo event hmem := (h.upTo event hmem).trans hle
  isOpen_iff := h.isOpen_iff

/-- An observation is added, and opens the switch when it is a storm. -/
theorem observe (h : KillSwitchInvariant policy cap past now accumulator)
    (henabled : policy.enabled = true) (hle : now ≤ later) (source : String) (seconds time : ℤ)
    (hcovered : policy.Tripped past ∨ policy.Covered cap
      (past ++ [FloodWaitAccumulator.observed source seconds later]) later) :
    KillSwitchInvariant policy cap (past ++ [FloodWaitAccumulator.observed source seconds later])
      later (accumulator.observe source seconds later time) := by
  set event := FloodWaitAccumulator.observed source seconds later
  set pruned := ({ accumulator with events := accumulator.events ++ [event] }).prune later
    with hpruned
  obtain ⟨hcap, hevents, hpolicy⟩ := pruned.evaluateKillSwitch_fields later source time
  have hretains : Retains cap (fun event => event.atMono < later - secondsPerWeek)
      (past ++ [event]) pruned.events := by
    have hpush := (h.retains.mono fun event hold =>
      hold.trans_le (by linarith : now - secondsPerWeek ≤ later - secondsPerWeek)).push event
    rw [hpruned, FloodWaitAccumulator.prune]
    dsimp only
    rw [h.capped]
    exact pruneEvents_retains hpush
  have hordered : (past ++ [event]).Pairwise fun event event' => event.atMono ≤ event'.atMono := by
    refine List.pairwise_append.mpr ⟨h.ordered, List.pairwise_singleton _ _, ?_⟩
    intro old hold new hnew
    rw [List.mem_singleton.mp hnew]
    exact (h.upTo old hold).trans hle
  have hstorm := pruned.evaluateKillSwitch_isOpen h.installed henabled later source time
  refine ⟨hcap.trans h.capped, hpolicy.trans h.installed, ?_, hordered, ?_, ?_⟩
  · rw [FloodWaitAccumulator.observe, hevents]
    exact hretains
  · intro old hold
    rcases List.mem_append.mp hold with hmem | hmem
    · exact (h.upTo old hmem).trans hle
    · rw [List.mem_singleton.mp hmem]
      exact le_refl later
  · rw [FloodWaitAccumulator.observe]
    refine hstorm.trans ?_
    rw [FloodWaitKillSwitchPolicy.tripped_concat]
    have hwas : pruned.killSwitchStatus.isOpen = true ↔ policy.Tripped past := h.isOpen_iff
    rw [hwas]
    rcases hcovered with htripped | hcovered
    · exact iff_of_true (Or.inl htripped) (Or.inl htripped)
    · rw [storm_iff_of_retains hretains hordered hcovered]
      exact Iff.rfl

/-- Every run of observations, snapshots and status reads in the order of the clock keeps the
invariant. -/
theorem run (h : KillSwitchInvariant policy cap past now accumulator)
    (henabled : policy.enabled = true) (hreads : ∀ policy, .configure policy ∉ steps)
    (hclock : (now :: steps.filterMap FloodStep.now).Pairwise (· ≤ ·))
    (hcovered : policy.CoveredAll cap (past ++ observationsOf steps)) :
    ∃ later, KillSwitchInvariant policy cap (past ++ observationsOf steps) later
      (accumulator.run steps) := by
  induction steps generalizing past now accumulator with
  | nil => exact ⟨now, by rw [observationsOf, List.filterMap_nil, List.append_nil]; exact h⟩
  | cons step steps ih =>
    have hreads' : ∀ policy, .configure policy ∉ steps :=
      fun policy hmem => hreads policy (List.mem_cons_of_mem _ hmem)
    cases step with
    | observe source seconds time wall =>
      obtain ⟨hfirst, hrest⟩ := List.pairwise_cons.mp hclock
      have hsplit : past ++ observationsOf (.observe source seconds time wall :: steps) =
          (past ++ [FloodWaitAccumulator.observed source seconds time]) ++
            observationsOf steps := by
        rw [List.append_assoc]
        rfl
      rw [hsplit] at hcovered ⊢
      refine ih (h.observe henabled (hfirst time List.mem_cons_self) source seconds wall ?_) hreads'
        hrest hcovered
      exact hcovered past _ (observationsOf steps)
        (by rw [List.append_assoc, List.singleton_append])
    | snapshot time | status time =>
      obtain ⟨hfirst, hrest⟩ := List.pairwise_cons.mp hclock
      exact ih (h.prune (hfirst time List.mem_cons_self)) hreads' hrest hcovered
    | configure policy => exact absurd List.mem_cons_self (hreads policy)

end KillSwitchInvariant

/-! ## The switch and the policy -/

/-- An accumulator that has observed nothing, with an installed policy. -/
def installed (cap : ℕ) (policy : FloodWaitKillSwitchPolicy) : FloodWaitAccumulator :=
  ({ maxEvents := cap } : FloodWaitAccumulator).configureKillSwitch policy

/-- After every run of observations, snapshots and status reads in the order of the clock, in which
the deque has what the window needs at every observation up to the first storm, the switch is open
exactly when there was a storm.  It stays open as long as no call disables the policy, and such a
call closes it. -/
theorem kill_switch_opens (policy : FloodWaitKillSwitchPolicy) (cap : ℕ) (steps : List FloodStep)
    (henabled : policy.enabled = true) (hreads : ∀ policy, .configure policy ∉ steps)
    (hclock : (steps.filterMap FloodStep.now).Pairwise (· ≤ ·))
    (hcovered : policy.CoveredAll cap (observationsOf steps)) :
    (((installed cap policy).run steps).killSwitchStatus.isOpen = true ↔
      policy.Tripped (observationsOf steps)) ∧
    (∀ more : List FloodStep, (∀ policy, .configure policy ∈ more → policy.enabled = true) →
      ((installed cap policy).run steps).killSwitchStatus.isOpen = true →
      ((installed cap policy).run (steps ++ more)).killSwitchStatus.isOpen = true) ∧
    ∀ disabled : FloodWaitKillSwitchPolicy, disabled.enabled = false →
      ((installed cap policy).run (steps ++ [.configure disabled])).killSwitchStatus.isOpen =
        false := by
  refine ⟨?_, fun more hmore hopen => ?_, fun disabled hdisabled => ?_⟩
  · obtain ⟨start, hstart⟩ :
        ∃ start, (start :: steps.filterMap FloodStep.now).Pairwise (· ≤ ·) := by
      cases htimes : steps.filterMap FloodStep.now with
      | nil => exact ⟨0, List.pairwise_singleton _ _⟩
      | cons first rest =>
        rw [htimes] at hclock
        refine ⟨first, List.pairwise_cons.mpr ⟨fun time htime => ?_, hclock⟩⟩
        rcases List.mem_cons.mp htime with rfl | hmem
        · exact le_refl time
        · exact (List.pairwise_cons.mp hclock).1 time hmem
    have hfresh : KillSwitchInvariant policy cap [] start (installed cap policy) :=
      { capped := rfl
        installed := rfl
        retains := Retains.refl _ _ _
        ordered := List.Pairwise.nil
        upTo := fun _ hmem => nomatch hmem
        isOpen_iff := by
          refine iff_of_false ?_ FloodWaitKillSwitchPolicy.not_tripped_nil
          rw [installed, FloodWaitAccumulator.configureKillSwitch]
          dsimp only
          rw [if_pos henabled]
          exact Bool.false_ne_true }
    obtain ⟨later, hinv⟩ := hfresh.run henabled hreads hstart hcovered
    exact hinv.isOpen_iff
  · rw [FloodWaitAccumulator.run, List.foldl_append]
    exact FloodWaitAccumulator.run_isOpen hopen hmore
  · rw [FloodWaitAccumulator.run, List.foldl_append]
    rw [List.foldl_cons, List.foldl_nil, FloodWaitAccumulator.step,
      FloodWaitAccumulator.configureKillSwitch]
    dsimp only
    rw [hdisabled]
    rfl

/-- Two observations of one second each, at most ten minutes apart. -/
def closeSteps : List FloodStep :=
  [.observe "rpc" 1 0 0, .snapshot 300, .observe "rpc" 1 600 0]

/-- A window of ten minutes that allows a single event opens the switch. -/
theorem kill_switch_opens_close :
    ((installed maxRetainedEvents ⟨true, 600, 2, 900⟩).run closeSteps).killSwitchStatus.isOpen =
      true := by
  have hcovered := @FloodWaitKillSwitchPolicy.coveredAll_of_le ⟨true, 600, 2, 900⟩
    maxRetainedEvents (by decide +kernel) (by decide) (observationsOf closeSteps)
  have hclock : (closeSteps.filterMap FloodStep.now).Pairwise (· ≤ ·) := by decide +kernel
  have hreads : ∀ policy, .configure policy ∉ closeSteps := by
    intro policy hmem
    simp [closeSteps] at hmem
  obtain ⟨hopens, -, -⟩ := kill_switch_opens ⟨true, 600, 2, 900⟩ maxRetainedEvents closeSteps rfl
    hreads hclock hcovered
  exact hopens.mpr ⟨[FloodWaitAccumulator.observed "rpc" 1 0],
    FloodWaitAccumulator.observed "rpc" 1 600, [], rfl, Or.inl (by decide +kernel)⟩

/-- A window of more than a week that allows a single event. -/
def longWindow : FloodWaitKillSwitchPolicy := ⟨true, 700000, 2, 900⟩

/-- Two observations of one second each, a little more than a week apart. -/
def distantSteps : List FloodStep := [.observe "rpc" 1 0 0, .observe "rpc" 1 650000 0]

/-- The deque forgets an observation that a longer window still needs. -/
theorem kill_switch_forgets :
    ¬ ∀ (policy : FloodWaitKillSwitchPolicy) (steps : List FloodStep), policy.enabled = true →
      0 < policy.windowSeconds → 0 < policy.maxEvents → 0 < policy.maxWaitSeconds →
      (∀ policy, .configure policy ∉ steps) → (steps.filterMap FloodStep.now).Pairwise (· ≤ ·) →
      (((installed maxRetainedEvents policy).run steps).killSwitchStatus.isOpen = true ↔
        policy.Tripped (observationsOf steps)) := by
  intro hclaim
  have hclosed :
      ((installed maxRetainedEvents longWindow).run distantSteps).killSwitchStatus.isOpen =
        false := by decide +kernel
  have hreads : ∀ policy, .configure policy ∉ distantSteps := by
    intro policy hmem
    simp [distantSteps] at hmem
  have htripped : longWindow.Tripped (observationsOf distantSteps) :=
    ⟨[FloodWaitAccumulator.observed "rpc" 1 0], FloodWaitAccumulator.observed "rpc" 1 650000, [],
      rfl, Or.inl (by decide +kernel)⟩
  have hopen := (hclaim longWindow distantSteps rfl (by decide) (by decide) (by decide) hreads
    (by decide +kernel)).mpr htripped
  rw [hclosed] at hopen
  cases hopen

end McpTelegram
