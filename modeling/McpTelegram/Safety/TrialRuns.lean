import McpTelegram.Safety.Trials

/-!
# One trial at a time

Runs of the safety ledger with `prepare_method_trial` as a step of its own, next to a history that
knows nothing of the counts and the claims of the record: it counts the claimed floods and the
failed reads of each method since the method recovered last, and it lists the permissions that were
handed out since the last flood or failure of the method.
-/

namespace McpTelegram

open Foundations

variable {record : SafetyRecord}

/-! ## The history of the methods -/

/-- What happened to the methods in the calls whose records reached the store. -/
structure TrialHistory where
  /-- The claimed floods of a method since it recovered last. -/
  floods : String → ℕ := fun _ => 0
  /-- The failed reads of a method since it recovered last. -/
  readFailures : String → ℕ := fun _ => 0
  /-- The permissions handed out since the last flood or failed read of a method. -/
  trials : String → List (MethodClaim × String) := fun _ => []
  /-- The generations handed out before the last flood or failed read of a method. -/
  spent : String → List String := fun _ => []
  /-- The generations drawn for floods and failed reads. -/
  generations : List String := []

namespace TrialHistory

/-- A permission is handed out. -/
def issue (h : TrialHistory) (method : String) (claim : MethodClaim) (generation : String) :
    TrialHistory :=
  { h with trials := Function.update h.trials method ((claim, generation) :: h.trials method) }

/-- The method recovered. -/
def recover (h : TrialHistory) (method : String) : TrialHistory :=
  { h with
    floods := Function.update h.floods method 0
    readFailures := Function.update h.readFailures method 0 }

/-- The permissions of a method are spent: a new generation begins. -/
def retire (h : TrialHistory) (method generation : String) : TrialHistory :=
  { h with
    trials := Function.update h.trials method []
    spent := Function.update h.spent method ((h.trials method).map (·.2) ++ h.spent method)
    generations := generation :: h.generations }

/-- A claimed flood of the method. -/
def flood (h : TrialHistory) (method generation : String) : TrialHistory :=
  { h.retire method generation with
    floods := Function.update h.floods method (h.floods method + 1) }

/-- A failed read of the method. -/
def fail (h : TrialHistory) (method generation : String) : TrialHistory :=
  { h.retire method generation with
    readFailures := Function.update h.readFailures method (h.readFailures method + 1) }

section Updates

variable (h : TrialHistory) (method generation : String) (claim : MethodClaim)

theorem issue_trials : (h.issue method claim generation).trials =
    Function.update h.trials method ((claim, generation) :: h.trials method) := rfl

theorem recover_floods :
    (h.recover method).floods = Function.update h.floods method 0 := rfl

theorem recover_readFailures :
    (h.recover method).readFailures = Function.update h.readFailures method 0 := rfl

theorem retire_trials :
    (h.retire method generation).trials = Function.update h.trials method [] := rfl

theorem retire_spent : (h.retire method generation).spent =
    Function.update h.spent method ((h.trials method).map (·.2) ++ h.spent method) := rfl

theorem flood_floods : (h.flood method generation).floods =
    Function.update h.floods method (h.floods method + 1) := rfl

end Updates

/-- No generation is drawn twice. -/
def Fresh (h : TrialHistory) (uuid : ℕ → String) : Prop :=
  uuid 4 ∉ h.generations ∧ uuid 5 ∉ h.generations ∧ uuid 4 ≠ uuid 5

instance (h : TrialHistory) (uuid : ℕ → String) : Decidable (h.Fresh uuid) :=
  inferInstanceAs (Decidable (_ ∧ _ ∧ _))

end TrialHistory

/-- The method of the completion recovers: `_settle_method` leaves its episode recovered. -/
def SafetyLedger.recovers (ledger : SafetyLedger) (tlobjects : TlObjects) (now : Moment)
    (completion : Completion) (method : String) : Bool :=
  !(ledger.record.status method).any (·.state = .recovered) &&
    ((ledger.settleMethod tlobjects now ledger.record completion.attemptId completion.actualFlood
      completion.methodGeneration completion.methodSuccess).status method).any
        (·.state = .recovered)

/-- The history after the method of a completion was settled. -/
def TrialHistory.settle (h : TrialHistory) (tlobjects : TlObjects) (ledger : SafetyLedger)
    (now : Moment) (completion : Completion) (method : String) : TrialHistory :=
  let h := if ledger.recovers tlobjects now completion method then h.recover method else h
  if ledger.claimedFlood completion then h.flood method (now.uuid 4) else h

/-- The history after a completion. -/
def TrialHistory.complete (h : TrialHistory) (tlobjects : TlObjects) (ledger : SafetyLedger)
    (now : Moment) (completion : Completion) : TrialHistory :=
  match ledger.ownedMethod completion.attemptId with
  | none => h
  | some method =>
    let h := h.settle tlobjects ledger now completion method
    if ledger.claimedReadFailure completion then h.fail method (now.uuid 5) else h

/-! ## The world -/

/-- The host of a ledger with the history of its methods. -/
structure TrialWorld where
  world : SafetyWorld
  history : TrialHistory := {}

/-- The steps of a run.  `other` is a call outside `SafetyOperation` that leaves the methods
alone, such as `verify_account`. -/
inductive TrialEvent
  | operate (operation : SafetyOperation) (surroundings : Surroundings) (outcome : SaveOutcome)
  | prepareMethodTrial (attemptId method : String) (authOnly : Bool)
      (surroundings : Surroundings) (outcome : SaveOutcome)
  | other (call : OtherCall) (outcome : SaveOutcome)
  | load (reads : LoadReads)
  | crash
  | tick (elapsed utc : ℚ)
  | reboot (bootId : String) (monotonic utc : ℚ)

/-- A call that keeps the claims of the methods. -/
def OtherCall.keepClaims (other : OtherCall) : OtherCall :=
  { other with claims := fun _ episode => episode.claim }

namespace SafetyWorld

/-- The record that a commit writes into the store, if it writes one. -/
def written (tlobjects : TlObjects) (call : SafetyCall) (outcome : SaveOutcome) :
    Option SafetyRecord :=
  match call.proposal with
  | some (.ok record) =>
    if call.ledger.storageFailed = false ∧ validateSafetyRecord tlobjects record then
      SaveOutcome.stored outcome none record
    else none
  | _ => none

end SafetyWorld

namespace TrialWorld

/-- A new store on a host. -/
def initial (bootId : String) (monotonic utc : ℚ) : TrialWorld where
  world := { stored := none, bootId := bootId, monotonic := monotonic, utc := utc }

/-- The statuses in the store. -/
def durable (w : TrialWorld) (method : String) : Option EpisodeStatus :=
  w.world.stored.bind (·.status method)

/-- The history after a call of the ledger: a call counts once its record is in the store. -/
def observe (tlobjects : TlObjects) (w : TrialWorld) (ledger : SafetyLedger) (now : Moment)
    (outcome : SaveOutcome) : SafetyOperation → TrialHistory
  | .complete completion =>
    let call := ledger.call tlobjects now (.complete completion)
    match SafetyWorld.written tlobjects call outcome with
    | some _ => w.history.complete tlobjects call.ledger now completion
    | none => w.history
  | _ => w.history

/-- The history after a permission was asked for. -/
def observeTrial (tlobjects : TlObjects) (w : TrialWorld) (ledger : SafetyLedger) (now : Moment)
    (attemptId method : String) (authOnly : Bool) (outcome : SaveOutcome) : TrialHistory :=
  match SafetyWorld.written tlobjects (ledger.trialCall now attemptId method authOnly) outcome,
    (ledger.record.liveEpisode method) with
  | some _, some episode => w.history.issue method ⟨attemptId, ledger.run⟩ episode.generation
  | _, _ => w.history

/-- A step of a run. -/
def step (tlobjects : TlObjects) (w : TrialWorld) : TrialEvent → Option TrialWorld
  | .operate operation surroundings outcome =>
    match w.world.process with
    | .up ledger =>
      let now := w.world.moment surroundings
      if w.history.Fresh surroundings.uuid then
        some ⟨w.world.commit tlobjects (ledger.call tlobjects now operation) outcome,
          w.observe tlobjects ledger now outcome operation⟩
      else none
    | .unreadable => some w
    | .down => none
  | .prepareMethodTrial attemptId method authOnly surroundings outcome =>
    match w.world.process with
    | .up ledger =>
      let now := w.world.moment surroundings
      some ⟨w.world.commit tlobjects (ledger.trialCall now attemptId method authOnly) outcome,
        w.observeTrial tlobjects ledger now attemptId method authOnly outcome⟩
    | .unreadable => some w
    | .down => none
  | .other call outcome =>
    (w.world.step tlobjects (.operateOther call.keepClaims outcome)).map (⟨·, w.history⟩)
  | .load reads => (w.world.step tlobjects (.load reads)).map (⟨·, w.history⟩)
  | .crash => (w.world.step tlobjects .crash).map (⟨·, w.history⟩)
  | .tick elapsed utc => (w.world.step tlobjects (.tick elapsed utc)).map (⟨·, w.history⟩)
  | .reboot bootId monotonic utc =>
    (w.world.step tlobjects (.reboot bootId monotonic utc)).map (⟨·, w.history⟩)

end TrialWorld

/-! ## What the history knows of the statuses -/

/-- The statuses of a record that the history accounts for. -/
structure Accounted (tlobjects : TlObjects) (h : TrialHistory)
    (status : String → Option EpisodeStatus) : Prop where
  /-- Only known methods have an episode. -/
  valid : ∀ method s, status method = some s → validMethodKey tlobjects method = true
  /-- The flood counts are the claimed floods. -/
  floods : ∀ method, validMethodKey tlobjects method = true →
    h.floods method = ((status method).map (·.floods)).getD 0
  /-- The failure counts are the failed reads. -/
  readFailures : ∀ method, validMethodKey tlobjects method = true →
    h.readFailures method = ((status method).map (·.readFailures)).getD 0
  /-- A recovered episode counts nothing and is claimed by nobody. -/
  recovered : ∀ method s, status method = some s → s.state = .recovered →
    s.floods = 0 ∧ s.readFailures = 0 ∧ s.claim = none
  /-- Who holds a claim got it in the current generation. -/
  claimed : ∀ method s claim, status method = some s → s.claim = some claim →
    (claim, s.generation) ∈ h.trials method
  /-- The generation of an episode was drawn. -/
  drawn : ∀ method s, status method = some s → s.generation ∈ h.generations
  /-- A generation that was handed out was drawn. -/
  issued : ∀ method trial, trial ∈ h.trials method → trial.2 ∈ h.generations
  /-- A spent generation was drawn. -/
  spentDrawn : ∀ method generation, generation ∈ h.spent method → generation ∈ h.generations
  /-- A spent generation is not the current one. -/
  spent : ∀ method s generation, status method = some s → generation ∈ h.spent method →
    s.generation ≠ generation

namespace Accounted

variable {tlobjects : TlObjects} {h : TrialHistory} {status status' : String → Option EpisodeStatus}
  {method generation : String}

variable {s : EpisodeStatus}

/-- Nothing has happened to a store without a record. -/
theorem init : Accounted tlobjects {} fun _ => none where
  valid := nofun
  floods := fun _ _ => rfl
  readFailures := fun _ _ => rfl
  recovered := nofun
  claimed := nofun
  drawn := nofun
  issued := nofun
  spentDrawn := nofun
  spent := nofun

/-- Dropped claims are accounted for. -/
theorem released (ha : Accounted tlobjects h status) (hr : Released status status') :
    Accounted tlobjects h status' := by
  have hback : ∀ method s', status' method = some s' → ∃ s, status method = some s ∧
      s'.state = s.state ∧ s'.generation = s.generation ∧ s'.floods = s.floods ∧
      s'.readFailures = s.readFailures ∧ (s'.claim = s.claim ∨ s'.claim = none) := by
    intro method s' hs'
    rcases hr method with heq | heq
    · exact ⟨s', heq ▸ hs', rfl, rfl, rfl, rfl, Or.inl rfl⟩
    · rw [heq] at hs'
      obtain ⟨s, hs, rfl⟩ := Option.map_eq_some_iff.mp hs'
      exact ⟨s, hs, rfl, rfl, rfl, rfl, Or.inr rfl⟩
  refine ⟨fun method s' hs' => ?_, fun method hvalid => ?_, fun method hvalid => ?_,
    fun method s' hs' hstate => ?_, fun method s' claim hs' hclaim => ?_, fun method s' hs' => ?_,
    ha.issued, ha.spentDrawn, fun method s' generation hs' hspent => ?_⟩
  · obtain ⟨s, hs, -⟩ := hback method s' hs'
    exact ha.valid method s hs
  · rw [ha.floods method hvalid]
    rcases hr method with heq | heq
    · rw [heq]
    · rw [heq, Option.map_map]
      rfl
  · rw [ha.readFailures method hvalid]
    rcases hr method with heq | heq
    · rw [heq]
    · rw [heq, Option.map_map]
      rfl
  · obtain ⟨s, hs, hstate', -, hfloods, hfailures, hclaim⟩ := hback method s' hs'
    obtain ⟨hzero, hzero', hnone⟩ := ha.recovered method s hs (hstate' ▸ hstate)
    refine ⟨hfloods.trans hzero, hfailures.trans hzero', ?_⟩
    rcases hclaim with hclaim | hclaim
    · exact hclaim.trans hnone
    · exact hclaim
  · obtain ⟨s, hs, -, hgeneration, -, -, hkept | hdropped⟩ := hback method s' hs'
    · rw [hgeneration]
      exact ha.claimed method s claim hs (hkept ▸ hclaim)
    · rw [hdropped] at hclaim
      cases hclaim
  · obtain ⟨s, hs, -, hgeneration, -⟩ := hback method s' hs'
    exact hgeneration ▸ ha.drawn method s hs
  · obtain ⟨s, hs, -, hgeneration, -⟩ := hback method s' hs'
    exact hgeneration ▸ ha.spent method s generation hs hspent

/-- A permission handed out is accounted for. -/
theorem issue {claim : MethodClaim} (ha : Accounted tlobjects h status)
    (hs : status method = some s) (hlive : s.state = .live) :
    Accounted tlobjects (h.issue method claim s.generation)
      (setStatus status method { s with claim := some claim }) := by
  have htrials : ∀ other trial, trial ∈ (h.issue method claim s.generation).trials other →
      (other = method ∧ trial = (claim, s.generation)) ∨ trial ∈ h.trials other := by
    intro other trial htrial
    by_cases hother : other = method
    · subst hother
      rw [TrialHistory.issue_trials, Function.update_self, List.mem_cons] at htrial
      exact htrial.imp_left fun heq => ⟨rfl, heq⟩
    · rw [TrialHistory.issue_trials, Function.update_of_ne hother] at htrial
      exact Or.inr htrial
  have hcounts : ∀ {f : EpisodeStatus → ℕ} (other : String),
      f { s with claim := some claim } = f s →
      ((setStatus status method { s with claim := some claim } other).map f).getD 0 =
        ((status other).map f).getD 0 := by
    intro f other hf
    by_cases hother : other = method
    · subst hother
      rw [setStatus, Function.update_self, hs, Option.map_some, Option.map_some, hf]
    · rw [setStatus, Function.update_of_ne hother]
  refine ⟨fun other t ht => ?_, fun other hvalid => ?_, fun other hvalid => ?_,
    fun other t ht hstate => ?_, fun other t claim' ht hclaim => ?_, fun other t ht => ?_,
    fun other trial htrial => ?_, ha.spentDrawn, fun other t generation ht hspent => ?_⟩
  · rcases setStatus_eq_some ht with ⟨rfl, -⟩ | ⟨-, ht⟩
    · exact ha.valid other s hs
    · exact ha.valid other t ht
  · exact (ha.floods other hvalid).trans (hcounts other rfl).symm
  · exact (ha.readFailures other hvalid).trans (hcounts other rfl).symm
  · rcases setStatus_eq_some ht with ⟨rfl, rfl⟩ | ⟨-, ht⟩
    · rw [hlive] at hstate
      cases hstate
    · exact ha.recovered other t ht hstate
  · rcases setStatus_eq_some ht with ⟨rfl, rfl⟩ | ⟨hother, ht⟩
    · rw [TrialHistory.issue_trials, Function.update_self, ← Option.some.inj hclaim]
      exact List.mem_cons_self
    · rw [TrialHistory.issue_trials, Function.update_of_ne hother]
      exact ha.claimed other t claim' ht hclaim
  · rcases setStatus_eq_some ht with ⟨rfl, rfl⟩ | ⟨-, ht⟩
    · exact ha.drawn other s hs
    · exact ha.drawn other t ht
  · rcases htrials other trial htrial with ⟨-, rfl⟩ | htrial
    · exact ha.drawn method s hs
    · exact ha.issued other trial htrial
  · rcases setStatus_eq_some ht with ⟨rfl, rfl⟩ | ⟨-, ht⟩
    · exact ha.spent other s generation hs hspent
    · exact ha.spent other t generation ht hspent

/-- A recovery is accounted for. -/
theorem recover (ha : Accounted tlobjects h status) (hs : status method = some s) :
    Accounted tlobjects (h.recover method) (setStatus status method s.recover) := by
  refine ⟨fun other t ht => ?_, fun other hvalid => ?_, fun other hvalid => ?_,
    fun other t ht hstate => ?_, fun other t claim ht hclaim => ?_, fun other t ht => ?_,
    ha.issued, ha.spentDrawn, fun other t generation ht hspent => ?_⟩
  · rcases setStatus_eq_some ht with ⟨rfl, -⟩ | ⟨-, ht⟩
    · exact ha.valid other s hs
    · exact ha.valid other t ht
  · by_cases hother : other = method
    · subst hother
      rw [TrialHistory.recover_floods, Function.update_self, setStatus, Function.update_self]
      rfl
    · rw [TrialHistory.recover_floods, Function.update_of_ne hother, setStatus,
        Function.update_of_ne hother]
      exact ha.floods other hvalid
  · by_cases hother : other = method
    · subst hother
      rw [TrialHistory.recover_readFailures, Function.update_self, setStatus, Function.update_self]
      rfl
    · rw [TrialHistory.recover_readFailures, Function.update_of_ne hother, setStatus,
        Function.update_of_ne hother]
      exact ha.readFailures other hvalid
  · rcases setStatus_eq_some ht with ⟨rfl, rfl⟩ | ⟨-, ht⟩
    · exact ⟨rfl, rfl, rfl⟩
    · exact ha.recovered other t ht hstate
  · rcases setStatus_eq_some ht with ⟨rfl, rfl⟩ | ⟨-, ht⟩
    · cases hclaim
    · exact ha.claimed other t claim ht hclaim
  · rcases setStatus_eq_some ht with ⟨rfl, rfl⟩ | ⟨-, ht⟩
    · exact ha.drawn other s hs
    · exact ha.drawn other t ht
  · rcases setStatus_eq_some ht with ⟨rfl, rfl⟩ | ⟨-, ht⟩
    · exact ha.spent other s generation hs hspent
    · exact ha.spent other t generation ht hspent

/-- The generations of a method are drawn, also those that a new generation retires. -/
theorem retired_drawn (ha : Accounted tlobjects h status) {other spent : String}
    (hspent : spent ∈ (h.retire method generation).spent other) : spent ∈ h.generations := by
  by_cases hother : other = method
  · subst hother
    rw [TrialHistory.retire_spent, Function.update_self, List.mem_append, List.mem_map] at hspent
    rcases hspent with ⟨trial, htrial, rfl⟩ | hspent
    · exact ha.issued other trial htrial
    · exact ha.spentDrawn other spent hspent
  · rw [TrialHistory.retire_spent, Function.update_of_ne hother] at hspent
    exact ha.spentDrawn other spent hspent

/-- A new generation is accounted for. -/
theorem renew {next : EpisodeStatus} {h' : TrialHistory} (ha : Accounted tlobjects h status)
    (hvalid : validMethodKey tlobjects method = true) (hfresh : next.generation ∉ h.generations)
    (hlive : next.state = .live) (hclaim : next.claim = none)
    (hhistory : h' = { h.retire method next.generation with
      floods := Function.update h.floods method next.floods
      readFailures := Function.update h.readFailures method next.readFailures }) :
    Accounted tlobjects h' (setStatus status method next) := by
  subst hhistory
  refine ⟨fun other t ht => ?_, fun other hknown => ?_, fun other hknown => ?_,
    fun other t ht hstate => ?_, fun other t claim ht hclaim' => ?_, fun other t ht => ?_,
    fun other trial htrial => ?_, fun other generation hspent => ?_,
    fun other t generation ht hspent => ?_⟩
  · rcases setStatus_eq_some ht with ⟨rfl, -⟩ | ⟨-, ht⟩
    · exact hvalid
    · exact ha.valid other t ht
  · dsimp only
    by_cases hother : other = method
    · subst hother
      rw [Function.update_self, setStatus, Function.update_self, Option.map_some, Option.getD_some]
    · rw [Function.update_of_ne hother, setStatus, Function.update_of_ne hother]
      exact ha.floods other hknown
  · dsimp only
    by_cases hother : other = method
    · subst hother
      rw [Function.update_self, setStatus, Function.update_self, Option.map_some, Option.getD_some]
    · rw [Function.update_of_ne hother, setStatus, Function.update_of_ne hother]
      exact ha.readFailures other hknown
  · rcases setStatus_eq_some ht with ⟨rfl, rfl⟩ | ⟨-, ht⟩
    · rw [hlive] at hstate
      cases hstate
    · exact ha.recovered other t ht hstate
  · rcases setStatus_eq_some ht with ⟨rfl, rfl⟩ | ⟨hother, ht⟩
    · rw [hclaim] at hclaim'
      cases hclaim'
    · dsimp only
      rw [TrialHistory.retire_trials, Function.update_of_ne hother]
      exact ha.claimed other t claim ht hclaim'
  · rcases setStatus_eq_some ht with ⟨rfl, rfl⟩ | ⟨-, ht⟩
    · exact List.mem_cons_self
    · exact List.mem_cons_of_mem _ (ha.drawn other t ht)
  · refine List.mem_cons_of_mem _ ?_
    dsimp only at htrial
    rw [TrialHistory.retire_trials] at htrial
    by_cases hother : other = method
    · subst hother
      rw [Function.update_self] at htrial
      cases htrial
    · rw [Function.update_of_ne hother] at htrial
      exact ha.issued other trial htrial
  · have hretired : generation ∈ (h.retire method next.generation).spent other := hspent
    exact List.mem_cons_of_mem _ (ha.retired_drawn hretired)
  · have hretired : generation ∈ (h.retire method next.generation).spent other := hspent
    rcases setStatus_eq_some ht with ⟨rfl, rfl⟩ | ⟨hother, ht⟩
    · rintro rfl
      exact hfresh (ha.retired_drawn hretired)
    · dsimp only at hspent
      rw [TrialHistory.retire_spent, Function.update_of_ne hother] at hspent
      exact ha.spent other t generation ht hspent

/-- A claimed flood of a known method is accounted for. -/
theorem flood (ha : Accounted tlobjects h status)
    (hvalid : validMethodKey tlobjects method = true) (hfresh : generation ∉ h.generations) :
    Accounted tlobjects (h.flood method generation)
      (setStatus status method (.flood (status method) generation)) := by
  refine ha.renew hvalid hfresh rfl rfl ?_
  have hfloods : (EpisodeStatus.flood (status method) generation).floods = h.floods method + 1 := by
    rw [ha.floods method hvalid]
    cases hs : status method with
    | none => rfl
    | some s =>
      cases hstate : s.state with
      | live => simp [EpisodeStatus.flood, Option.filter, hstate]
      | recovered =>
        simp [EpisodeStatus.flood, Option.filter, hstate, (ha.recovered method s hs hstate).1]
  have hfailures : (EpisodeStatus.flood (status method) generation).readFailures =
      h.readFailures method := (ha.readFailures method hvalid).symm
  rw [hfloods, hfailures, Function.update_eq_self]
  rfl

/-- A failed read of a known method is accounted for. -/
theorem fail (ha : Accounted tlobjects h status)
    (hvalid : validMethodKey tlobjects method = true) (hfresh : generation ∉ h.generations) :
    Accounted tlobjects (h.fail method generation)
      (setStatus status method (.fail (status method) generation)) := by
  refine ha.renew hvalid hfresh rfl rfl ?_
  have hfloods : (EpisodeStatus.fail (status method) generation).floods = h.floods method :=
    (ha.floods method hvalid).symm
  have hfailures : (EpisodeStatus.fail (status method) generation).readFailures =
      h.readFailures method + 1 := congrArg (· + 1) (ha.readFailures method hvalid).symm
  rw [hfloods, hfailures, Function.update_eq_self]
  rfl

/-- A flood of an unknown method leaves no episode, and none of the known methods is touched. -/
theorem flood_unknown (ha : Accounted tlobjects h status)
    (hunknown : validMethodKey tlobjects method = false) :
    Accounted tlobjects (h.flood method generation) status := by
  have hne : ∀ other, validMethodKey tlobjects other = true → other ≠ method := by
    rintro other hvalid rfl
    rw [hunknown] at hvalid
    cases hvalid
  have hstatus : ∀ {other s}, status other = some s → other ≠ method :=
    fun {other} {s} hs => hne other (ha.valid other s hs)
  refine ⟨ha.valid, fun other hvalid => ?_, ha.readFailures, ha.recovered,
    fun other t claim ht hclaim => ?_, fun other t ht => ?_, fun other trial htrial => ?_,
    fun other spent hspent => ?_, fun other t spent ht hspent => ?_⟩
  · rw [TrialHistory.flood_floods, Function.update_of_ne (hne other hvalid)]
    exact ha.floods other hvalid
  · show _ ∈ Function.update h.trials method [] other
    rw [Function.update_of_ne (hstatus ht)]
    exact ha.claimed other t claim ht hclaim
  · exact List.mem_cons_of_mem _ (ha.drawn other t ht)
  · have htrial : trial ∈ Function.update h.trials method [] other := htrial
    refine List.mem_cons_of_mem _ ?_
    by_cases hother : other = method
    · subst hother
      rw [Function.update_self] at htrial
      cases htrial
    · rw [Function.update_of_ne hother] at htrial
      exact ha.issued other trial htrial
  · have hretired : spent ∈ (h.retire method generation).spent other := hspent
    exact List.mem_cons_of_mem _ (ha.retired_drawn hretired)
  · have hspent : spent ∈ Function.update h.spent method _ other := hspent
    rw [Function.update_of_ne (hstatus ht)] at hspent
    exact ha.spent other t spent ht hspent

section Completions

variable {ledger : SafetyLedger} {now : Moment} {completion : Completion} {record' : SafetyRecord}

/-- The methods of a valid record are known. -/
theorem valid_of_record {s : EpisodeStatus} (hvalid : validateSafetyRecord tlobjects record = true)
    (hs : record.status method = some s) : validMethodKey tlobjects method = true := by
  obtain ⟨episode, hlookup, -⟩ := Option.map_eq_some_iff.mp hs
  simp only [validateSafetyRecord, validMethodEpisodes, Bool.and_eq_true,
    Dictionary.all_eq_true] at hvalid
  exact (hvalid.2.2 method episode hlookup).1

/-- A method that is settled is accounted for. -/
theorem settle (ha : Accounted tlobjects h ledger.record.status)
    (hfresh : now.uuid 4 ∉ h.generations)
    (howned : ledger.ownedMethod completion.attemptId = some method) :
    Accounted tlobjects (h.settle tlobjects ledger now completion method)
      (ledger.settleMethod tlobjects now ledger.record completion.attemptId completion.actualFlood
        completion.methodGeneration completion.methodSuccess).status := by
  have hcases := @SafetyLedger.settleMethod_status ledger tlobjects now completion
  dsimp only at hcases
  have hrecovers : ledger.recovers tlobjects now completion method =
      (!(ledger.record.status method).any (·.state = .recovered) &&
        ((ledger.settleMethod tlobjects now ledger.record completion.attemptId
          completion.actualFlood completion.methodGeneration completion.methodSuccess).status
            method).any (·.state = .recovered)) := rfl
  generalize (ledger.settleMethod tlobjects now ledger.record completion.attemptId
    completion.actualFlood completion.methodGeneration completion.methodSuccess).status =
      settled at hcases hrecovers
  rw [TrialHistory.settle]
  rcases hcases with ⟨rfl, hunknown⟩ | ⟨other, howned', hcases⟩
  · -- nothing was settled: only a flood of an unknown method is noted
    rw [hrecovers, Bool.not_and_self, if_neg Bool.false_ne_true]
    split_ifs with hflood
    · exact ha.flood_unknown (hunknown method howned hflood)
    · exact ha
  obtain rfl := Option.some.inj (howned'.symm.trans howned)
  rcases hcases with ⟨hflood, hvalid, rfl⟩ | ⟨hflood, s, hs, hclaim, rfl⟩
  · have hlive : ledger.recovers tlobjects now completion other = false := by
      rw [hrecovers, setStatus, Function.update_self]
      simp [EpisodeStatus.flood]
    rw [hlive, if_neg Bool.false_ne_true, if_pos hflood]
    exact ha.flood hvalid hfresh
  · rw [ha.valid other s hs, Bool.and_true] at hflood
    rw [hflood, if_neg Bool.false_ne_true]
    by_cases hholder : ledger.HolderSucceeds completion s
    · rw [if_pos hholder] at hrecovers ⊢
      have hstate : s.state ≠ .recovered := by
        intro hstate
        rw [(ha.recovered other s hs hstate).2.2] at hclaim
        cases hclaim
      rw [if_pos (by simp [hrecovers, hs, hstate, setStatus, EpisodeStatus.recover])]
      exact ha.recover hs
    · rw [if_neg hholder] at hrecovers ⊢
      rw [if_neg (by simp [hrecovers, hs, setStatus, EpisodeStatus.release])]
      refine ha.released fun m => ?_
      by_cases hm : m = other
      · subst hm
        rw [setStatus, Function.update_self, hs]
        exact Or.inr rfl
      · rw [setStatus, Function.update_of_ne hm]
        exact Or.inl rfl

/-- The second generation of a completion is new after its method was settled. -/
theorem fresh_settle (hfresh : h.Fresh now.uuid) :
    now.uuid 5 ∉ (h.settle tlobjects ledger now completion method).generations := by
  obtain ⟨-, hfive, hne⟩ := hfresh
  have hrecovered : (if ledger.recovers tlobjects now completion method then h.recover method
      else h).generations = h.generations := by
    split_ifs <;> rfl
  rw [TrialHistory.settle]
  split
  · show now.uuid 5 ∉ now.uuid 4 :: TrialHistory.generations _
    rw [hrecovered, List.mem_cons, not_or]
    exact ⟨hne.symm, hfive⟩
  · rwa [hrecovered]

/-- A completion is accounted for. -/
theorem complete (ha : Accounted tlobjects h ledger.record.status) (hfresh : h.Fresh now.uuid)
    (hok : ledger.complete tlobjects now ledger.record completion = .ok record')
    (hvalid : validateSafetyRecord tlobjects record' = true) :
    Accounted tlobjects (h.complete tlobjects ledger now completion) record'.status := by
  have hunsettled : ledger.ownedMethod completion.attemptId = none →
      (ledger.settleMethod tlobjects now ledger.record completion.attemptId completion.actualFlood
        completion.methodGeneration completion.methodSuccess).status = ledger.record.status := by
    intro hnone
    rcases @SafetyLedger.settleMethod_status ledger tlobjects now completion with
      ⟨hsame, -⟩ | ⟨method, howned, -⟩
    · exact hsame
    · rw [hnone] at howned
      cases howned
  rw [TrialHistory.complete]
  rcases SafetyLedger.complete_status hok with
    ⟨hfailure, hstatus⟩ | ⟨method, howned, hfailure, hstatus⟩
  · rw [hstatus]
    have hnofailure : ledger.claimedReadFailure completion = false := by
      rw [SafetyLedger.claimedReadFailure, hfailure, Bool.false_and]
    cases howned : ledger.ownedMethod completion.attemptId with
    | none =>
      rw [hunsettled howned]
      exact ha
    | some method =>
      dsimp only
      rw [hnofailure, if_neg Bool.false_ne_true]
      exact ha.settle hfresh.1 howned
  · have hknown : validMethodKey tlobjects method = true :=
      valid_of_record hvalid ((congrFun hstatus method).trans (Function.update_self ..))
    rw [howned, hstatus]
    dsimp only
    rw [if_pos hfailure]
    exact (ha.settle hfresh.1 howned).fail hknown (fresh_settle hfresh)

end Completions

end Accounted

/-! ## Runs -/

namespace SafetyWorld

variable {tlobjects : TlObjects} {w : SafetyWorld}
variable {call : SafetyCall} {outcome : SaveOutcome} {ledger : SafetyLedger}

/-- What a commit writes was proposed by a working ledger, and is valid. -/
theorem written_eq_some (h : written tlobjects call outcome = some record) :
    call.proposal = some (.ok record) ∧ call.ledger.storageFailed = false ∧
      validateSafetyRecord tlobjects record = true := by
  unfold written at h
  split at h
  · next proposed hproposal =>
    split_ifs at h with hsave
    obtain rfl : proposed = record := by
      rcases outcome with _ | replaced | replaced
      · exact Option.some.inj h
      all_goals
        cases replaced with
        | false => cases h
        | true => exact Option.some.inj h
    exact ⟨hproposal, hsave⟩
  · cases h

/-- The store after a commit. -/
theorem commit_stored (call : SafetyCall) (outcome : SaveOutcome) :
    (w.commit tlobjects call outcome).stored =
      (written tlobjects call outcome).or w.stored := by
  unfold commit written
  rcases call.proposal with _ | (error | record)
  · rfl
  · rfl
  · dsimp only
    split_ifs
    · rcases outcome with _ | replaced | replaced
      · rfl
      · cases replaced <;> rfl
      · cases replaced <;> rfl
    · rfl

/-- The working ledger after a commit: it has the record that was written, or it is the ledger
that wrote nothing. -/
theorem commit_working (hup : (w.commit tlobjects call outcome).process = .up ledger)
    (hstorage : ledger.storageFailed = false) :
    (written tlobjects call outcome = none ∧ ledger = call.ledger) ∨
      ∃ record, written tlobjects call outcome = some record ∧
        ledger = pruneClaims (call.settle { call.ledger with record := record }) := by
  unfold commit at hup
  unfold written
  revert hup
  rcases call.proposal with _ | (error | record)
  · exact fun hup => Or.inl ⟨rfl, (SafetyProcess.up.inj hup).symm⟩
  · exact fun hup => Or.inl ⟨rfl, (SafetyProcess.up.inj hup).symm⟩
  · intro hup
    dsimp only at hup ⊢
    split_ifs at hup ⊢ with hsave
    · rcases outcome with _ | replaced | replaced
      · exact Or.inr ⟨record, rfl, (SafetyProcess.up.inj hup).symm⟩
      · have hfailed := SafetyProcess.up.inj hup
        rw [← hfailed] at hstorage
        cases hstorage
      · cases hup
    · exact Or.inl ⟨rfl, (SafetyProcess.up.inj hup).symm⟩

/-- A load rebases floors only. -/
theorem rebaseSafetyRecord_status (ledger : SafetyLedger) (now : Moment) (legacy : Option ℚ) :
    (ledger.rebaseSafetyRecord now legacy).record.status = ledger.record.status := by
  have hstatus := @status_mapValues ledger.record (ledger.rebaseSafetyRecord now legacy).record
    (fun _ => ledger.rebaseEpisode now) id rfl fun _ _ => rfl
  simpa only [Option.map_id, id_eq] using hstatus

/-- A loaded working ledger sees the statuses of the store. -/
theorem load_status {reads : LoadReads} (hup : w.loadProcess tlobjects reads = .up ledger)
    (hstorage : ledger.storageFailed = false) :
    ledger.record.status = fun method => w.stored.bind (·.status method) := by
  have hfailed : ∀ {loaded : SafetyLedger}, SafetyProcess.up loaded.failStartup ≠ .up ledger := by
    intro loaded heq
    rw [← SafetyProcess.up.inj heq] at hstorage
    cases hstorage
  unfold loadProcess at hup
  split at hup
  · next hstored =>
    split_ifs at hup
    funext method
    rw [hstored]
    unfold loadNew at hup
    split at hup
    · dsimp only at hup
      split_ifs at hup
      · exact absurd hup hfailed
      all_goals
        rw [← SafetyProcess.up.inj hup]
        rfl
    · cases hup
  · next record hstored =>
    rw [hstored]
    unfold loadStored at hup
    split_ifs at hup
    dsimp only at hup
    split at hup
    · exact absurd hup hfailed
    · split at hup
      · exact absurd hup hfailed
      · rw [← SafetyProcess.up.inj hup, rebaseSafetyRecord_status]
        rfl

end SafetyWorld

namespace TrialWorld

variable {tlobjects : TlObjects} {w w' : TrialWorld}
variable {outcome : SaveOutcome} {ledger : SafetyLedger} {surroundings : Surroundings}
    {method : String} {event : TrialEvent}

/-- What a step does to the statuses in the store and to the history. -/
inductive Moved (tlobjects : TlObjects) (w w' : TrialWorld) : TrialEvent → Prop
  | released {event : TrialEvent} (hreleased : Released w.durable w'.durable)
      (hhistory : w'.history = w.history) : Moved tlobjects w w' event
  | completed {completion : Completion} {surroundings : Surroundings} {outcome : SaveOutcome}
      {ledger : SafetyLedger} {record' : SafetyRecord} (hup : w.world.process = .up ledger)
      (hstorage : ledger.storageFailed = false) (hfresh : w.history.Fresh surroundings.uuid)
      (hok : (ledger.holdOutcome completion).complete tlobjects (w.world.moment surroundings)
        (ledger.holdOutcome completion).record completion = .ok record')
      (hvalid : validateSafetyRecord tlobjects record' = true)
      (hdurable : w'.durable = record'.status)
      (hhistory : w'.history = w.history.complete tlobjects (ledger.holdOutcome completion)
        (w.world.moment surroundings) completion) :
      Moved tlobjects w w' (.operate (.complete completion) surroundings outcome)
  | issued {attemptId method : String} {authOnly : Bool} {surroundings : Surroundings}
      {outcome : SaveOutcome} {ledger : SafetyLedger} {episode : MethodEpisode}
      (hup : w.world.process = .up ledger) (hstorage : ledger.storageFailed = false)
      (hlookup : ledger.record.methods.lookup method = some episode)
      (hlive : episode.state = .live)
      (hclaim : episode.claim = none ∨ episode.claim = some ⟨attemptId, ledger.run⟩)
      (hfloor : ledger.floorReleaseAt (w.world.moment surroundings) episode.floor ≤
        w.world.monotonic)
      (hdurable : w'.durable = setStatus ledger.record.status method
        { episode.status with claim := some ⟨attemptId, ledger.run⟩ })
      (hhistory : w'.history =
        w.history.issue method ⟨attemptId, ledger.run⟩ episode.status.generation) :
      Moved tlobjects w w' (.prepareMethodTrial attemptId method authOnly surroundings outcome)

/-- The history accounts for the store, and a working ledger sees the statuses of the store. -/
structure Sound (tlobjects : TlObjects) (w : TrialWorld) : Prop where
  accounted : Accounted tlobjects w.history w.durable
  working : ∀ ledger, w.world.process = .up ledger → ledger.storageFailed = false →
    ledger.record.status = w.durable

/-- Without a write the statuses in the store stay. -/
theorem released_of_stored (h : w'.world.stored = w.world.stored) :
    Released w.durable w'.durable := by
  refine .of_eq ?_
  funext method
  rw [durable, h, durable]

/-- The statuses in the store after a commit. -/
theorem durable_commit (call : SafetyCall) (outcome : SaveOutcome) (h : TrialHistory) :
    durable ⟨w.world.commit tlobjects call outcome, h⟩ =
      match SafetyWorld.written tlobjects call outcome with
      | some record => record.status
      | none => w.durable := by
  funext method
  rw [durable, SafetyWorld.commit_stored]
  cases SafetyWorld.written tlobjects call outcome <;> rfl

/-- After a commit, a working ledger sees the statuses of the store. -/
theorem working_commit {call : SafetyCall} (hs : w.Sound tlobjects)
    (hup : w.world.process = .up ledger) (hcall : SafetyLedger.SameOwner ledger call.ledger)
    (hsettle : ∀ other, SafetyLedger.SameOwner other (call.settle other)) (h : TrialHistory)
    {ledger' : SafetyLedger} (hup' : (w.world.commit tlobjects call outcome).process = .up ledger')
    (hstorage : ledger'.storageFailed = false) :
    ledger'.record.status = durable ⟨w.world.commit tlobjects call outcome, h⟩ := by
  rw [durable_commit]
  rcases SafetyWorld.commit_working hup' hstorage with ⟨hnone, rfl⟩ | ⟨record, hsome, rfl⟩
  · rw [hnone, hcall.record]
    exact hs.working ledger hup (hcall.storageFailed ▸ hstorage)
  · rw [hsome]
    show (call.settle _).record.status = record.status
    rw [(hsettle _).record]

/-- A call that keeps the claims keeps the statuses. -/
theorem keepClaims_status (call : OtherCall) (record : SafetyRecord) :
    (call.keepClaims.record record).status = record.status := by
  have hstatus := @status_mapValues record (call.keepClaims.record record) _ id rfl
    fun _ _ => rfl
  simpa only [Option.map_id, id_eq] using hstatus

/-- What an operation does to the statuses in the store and to the history. -/
theorem moved_operate {operation : SafetyOperation} (hs : w.Sound tlobjects)
    (hup : w.world.process = .up ledger) (hfresh : w.history.Fresh surroundings.uuid) :
    Moved tlobjects w ⟨w.world.commit tlobjects
        (ledger.call tlobjects (w.world.moment surroundings) operation) outcome,
      w.observe tlobjects ledger (w.world.moment surroundings) outcome operation⟩
      (.operate operation surroundings outcome) := by
  cases hwritten : SafetyWorld.written tlobjects
      (ledger.call tlobjects (w.world.moment surroundings) operation) outcome with
  | none =>
    refine .released (released_of_stored ?_) ?_
    · rw [SafetyWorld.commit_stored, hwritten, Option.none_or]
    · cases operation with
      | complete completion =>
        simp only [observe]
        rw [hwritten]
      | _ => rfl
  | some record =>
    obtain ⟨hproposal, hstorage, hvalid⟩ := SafetyWorld.written_eq_some hwritten
    rw [(SafetyLedger.call_sameOwner operation).storageFailed] at hstorage
    have hdurable := @durable_commit tlobjects w
      (ledger.call tlobjects (w.world.moment surroundings) operation) outcome
    simp only [hwritten] at hdurable
    by_cases hcomplete : ∃ completion, operation = .complete completion
    · obtain ⟨completion, rfl⟩ := hcomplete
      refine .completed hup hstorage hfresh ?_ hvalid (hdurable _) ?_
      · rw [SafetyLedger.holdOutcome_record]
        exact Option.some.inj hproposal
      · simp only [observe]
        rw [hwritten]
        rfl
    · rcases SafetyLedger.call_status hproposal with hreleased | ⟨completion, rfl, -⟩
      · refine .released ?_ ?_
        · rw [hdurable, ← hs.working ledger hup hstorage]
          exact hreleased
        · cases operation with
          | complete completion => exact absurd ⟨completion, rfl⟩ hcomplete
          | _ => rfl
      · exact absurd ⟨completion, rfl⟩ hcomplete

/-- What `prepare_method_trial` does to the statuses in the store and to the history. -/
theorem moved_trial {attemptId : String} {authOnly : Bool} (hs : w.Sound tlobjects)
    (hup : w.world.process = .up ledger) :
    Moved tlobjects w ⟨w.world.commit tlobjects
        (ledger.trialCall (w.world.moment surroundings) attemptId method authOnly) outcome,
      w.observeTrial tlobjects ledger (w.world.moment surroundings) attemptId method authOnly
        outcome⟩
      (.prepareMethodTrial attemptId method authOnly surroundings outcome) := by
  cases hwritten : SafetyWorld.written tlobjects
      (ledger.trialCall (w.world.moment surroundings) attemptId method authOnly) outcome with
  | none =>
    refine .released (released_of_stored ?_) ?_
    · rw [SafetyWorld.commit_stored, hwritten, Option.none_or]
    · simp only [observeTrial, hwritten]
  | some record =>
    obtain ⟨hproposal, hstorage, hvalid⟩ := SafetyWorld.written_eq_some hwritten
    have hdurable := @durable_commit tlobjects w
      (ledger.trialCall (w.world.moment surroundings) attemptId method authOnly) outcome
    simp only [hwritten] at hdurable
    simp only [SafetyLedger.trialCall] at hproposal
    split at hproposal
    · next generation proposed hok =>
      obtain rfl := Except.ok.inj (Option.some.inj hproposal)
      obtain ⟨episode, hlookup, hlive, -, hclaim, hfloor, -, rfl⟩ :=
        SafetyLedger.prepareMethodTrial_ok hok
      refine .issued hup hstorage hlookup hlive hclaim hfloor ?_ ?_
      · rw [hdurable]
        exact status_write ledger.record method _
      · simp only [observeTrial, hwritten, liveEpisode_eq_some.mpr ⟨hlookup, hlive⟩]
        rfl
    · cases hproposal

/-- What a step does to the store, to the history and to a working ledger. -/
theorem step_cases (hs : w.Sound tlobjects) (h : step tlobjects w event = some w') :
    Moved tlobjects w w' event ∧ ∀ ledger, w'.world.process = .up ledger →
      ledger.storageFailed = false → ledger.record.status = w'.durable := by
  cases event with
  | operate operation surroundings outcome =>
    simp only [step] at h
    split at h
    · next ledger hup =>
      split_ifs at h with hfresh
      obtain rfl := Option.some.inj h
      refine ⟨?_, fun ledger' => working_commit hs hup (SafetyLedger.call_sameOwner operation)
        (SafetyLedger.settle_sameOwner operation) _⟩
      exact moved_operate hs hup hfresh
    · obtain rfl := Option.some.inj h
      exact ⟨.released (released_of_stored rfl) rfl, hs.working⟩
    · cases h
  | prepareMethodTrial attemptId method authOnly surroundings outcome =>
    simp only [step] at h
    split at h
    · next ledger hup =>
      obtain rfl := Option.some.inj h
      refine ⟨?_, fun ledger' => working_commit hs hup ⟨rfl, rfl, rfl, rfl⟩
        (fun _ => ⟨rfl, rfl, rfl, rfl⟩) _⟩
      exact moved_trial hs hup
    · obtain rfl := Option.some.inj h
      exact ⟨.released (released_of_stored rfl) rfl, hs.working⟩
    · cases h
  | other call outcome =>
    obtain ⟨world', hstep, rfl⟩ := Option.map_eq_some_iff.mp h
    simp only [SafetyWorld.step] at hstep
    split at hstep
    · next ledger hup =>
      obtain rfl := Option.some.inj hstep
      refine ⟨.released ?_ rfl, fun ledger' => working_commit hs hup ⟨rfl, rfl, rfl, rfl⟩
        (fun _ => ⟨rfl, rfl, rfl, rfl⟩) _⟩
      rw [durable_commit]
      split
      · next record hwritten =>
        obtain ⟨hproposal, hstorage, -⟩ := SafetyWorld.written_eq_some hwritten
        obtain rfl := Except.ok.inj (Option.some.inj hproposal)
        rw [← hs.working ledger hup hstorage]
        exact .of_eq (keepClaims_status call ledger.record)
      · exact .of_eq rfl
    · obtain rfl := Option.some.inj hstep
      exact ⟨.released (released_of_stored rfl) rfl, hs.working⟩
    · cases hstep
  | load reads =>
    obtain ⟨world', hstep, rfl⟩ := Option.map_eq_some_iff.mp h
    simp only [SafetyWorld.step] at hstep
    split at hstep
    · split_ifs at hstep
      obtain rfl := Option.some.inj hstep
      exact ⟨.released (released_of_stored rfl) rfl, fun ledger hup hstorage =>
        SafetyWorld.load_status hup hstorage⟩
    · cases hstep
  | crash =>
    simp only [step, SafetyWorld.step, Option.map_some, Option.some.injEq] at h
    subst h
    refine ⟨.released (released_of_stored rfl) rfl, fun ledger hup => ?_⟩
    cases hup
  | tick elapsed utc =>
    obtain ⟨world', hstep, rfl⟩ := Option.map_eq_some_iff.mp h
    simp only [SafetyWorld.step] at hstep
    split_ifs at hstep
    obtain rfl := Option.some.inj hstep
    exact ⟨.released (released_of_stored rfl) rfl, hs.working⟩
  | reboot bootId monotonic utc =>
    obtain ⟨world', hstep, rfl⟩ := Option.map_eq_some_iff.mp h
    simp only [SafetyWorld.step] at hstep
    split_ifs at hstep
    obtain rfl := Option.some.inj hstep
    refine ⟨.released (released_of_stored rfl) rfl, fun ledger hup => ?_⟩
    cases hup

/-- A step keeps the history accounting for the store. -/
theorem sound_step (hs : w.Sound tlobjects) (h : step tlobjects w event = some w') :
    w'.Sound tlobjects := by
  obtain ⟨hmoved, hworking⟩ := step_cases hs h
  refine ⟨?_, hworking⟩
  cases hmoved with
  | released hreleased hhistory => exact hhistory ▸ hs.accounted.released hreleased
  | @completed completion surroundings outcome ledger record' hup hstorage hfresh hok hvalid
      hdurable hhistory =>
    have haccounted := hs.accounted
    rw [← hs.working ledger hup hstorage,
      ← status_congr (congrArg SafetyRecord.methods (ledger.holdOutcome_record completion))]
      at haccounted
    rw [hhistory, hdurable]
    exact haccounted.complete hfresh hok hvalid
  | @issued attemptId method authOnly surroundings outcome ledger episode hup hstorage hlookup hlive
      hclaim hfloor hdurable hhistory =>
    have haccounted := hs.accounted
    rw [← hs.working ledger hup hstorage] at haccounted
    rw [hhistory, hdurable]
    exact haccounted.issue (status_of_lookup hlookup) hlive

/-- In every reachable world the history accounts for the store. -/
theorem sound_of_run {bootId : String} {monotonic utc : ℚ} {events : List TrialEvent}
    (h : run (step tlobjects) (initial bootId monotonic utc) events = some w) :
    w.Sound tlobjects := by
  refine run_invariant (fun _ _ _ hs hstep => sound_step hs hstep) ⟨.init, ?_⟩ h
  rintro ledger ⟨⟩

/-- The method is recovered in the store. -/
def Recovered (w : TrialWorld) (method : String) : Prop :=
  ∃ s, w.durable method = some s ∧ s.state = .recovered

/-- The claim is handed out by `prepare_method_trial`, while nobody holds the claim of the method
and after its floor has elapsed. -/
def IssuedByTrial (w : TrialWorld) (event : TrialEvent) (method : String) (claim : MethodClaim) :
    Prop :=
  ∃ authOnly surroundings outcome ledger episode,
    event = .prepareMethodTrial claim.attemptId method authOnly surroundings outcome ∧
      w.world.process = .up ledger ∧ claim.run = ledger.run ∧
      ledger.record.methods.lookup method = some episode ∧ episode.state = .live ∧
      episode.claim = none ∧
      ledger.floorReleaseAt (w.world.moment surroundings) episode.floor ≤ w.world.monotonic

/-- The success of an attempt recovers the method: the attempt holds the claim of the current
generation, its permission was handed out after the last flood and the last failed read of the
method, and its generation was not handed out before them. -/
def RecoveredByHolder (w : TrialWorld) (event : TrialEvent) (method : String) : Prop :=
  ∃ completion surroundings outcome ledger s,
    event = .operate (.complete completion) surroundings outcome ∧
      w.world.process = .up ledger ∧ ledger.ownedMethod completion.attemptId = some method ∧
      w.durable method = some s ∧ s.state = .live ∧ ledger.HolderSucceeds completion s ∧
      (⟨completion.attemptId, ledger.run⟩, s.generation) ∈ w.history.trials method ∧
      s.generation ∉ w.history.spent method

/-- Claims are handed out by `prepare_method_trial` only. -/
theorem claim_issued {s' : EpisodeStatus} {claim : MethodClaim} (hs : w.Sound tlobjects)
    (h : step tlobjects w event = some w') (hs' : w'.durable method = some s')
    (hclaim : s'.claim = some claim) (hnew : ∀ s, w.durable method = some s → s.claim ≠ some claim) :
    w.IssuedByTrial event method claim := by
  cases (step_cases hs h).1 with
  | released hreleased =>
    rcases hreleased method with heq | heq
    · exact absurd hclaim (hnew s' (heq ▸ hs'))
    · rw [heq] at hs'
      obtain ⟨s, -, rfl⟩ := Option.map_eq_some_iff.mp hs'
      cases hclaim
  | @completed completion surroundings outcome ledger record' hup hstorage _ hok _ hdurable =>
    rw [hdurable] at hs'
    obtain ⟨s, hbefore, hheld⟩ := SafetyLedger.complete_claim hok hs' hclaim
    rw [status_congr (congrArg SafetyRecord.methods (ledger.holdOutcome_record completion)),
      hs.working ledger hup hstorage] at hbefore
    exact absurd hheld (hnew s hbefore)
  | @issued attemptId other authOnly surroundings outcome ledger episode hup hstorage hlookup hlive
      hfree hfloor hdurable =>
    rw [hdurable, hs.working ledger hup hstorage] at hs'
    rcases setStatus_eq_some hs' with ⟨rfl, rfl⟩ | ⟨-, hs'⟩
    · obtain rfl := Option.some.inj hclaim
      have hbefore := status_of_lookup hlookup
      rw [hs.working ledger hup hstorage] at hbefore
      exact ⟨authOnly, surroundings, outcome, ledger, episode, rfl, hup, rfl, hlookup, hlive,
        hfree.resolve_right (hnew _ hbefore), hfloor⟩
    · exact absurd hclaim (hnew s' hs')

/-- A method recovers through the success of the holder of its claim only. -/
theorem recovered_by_holder (hs : w.Sound tlobjects) (h : step tlobjects w event = some w')
    (hbefore : ¬ w.Recovered method) (hafter : w'.Recovered method) :
    w.RecoveredByHolder event method := by
  obtain ⟨s', hs', hstate⟩ := hafter
  have hlive : ∀ s, w.durable method = some s → s.state ≠ .recovered :=
    fun s hs hrecovered => hbefore ⟨s, hs, hrecovered⟩
  cases (step_cases hs h).1 with
  | released hreleased =>
    rcases hreleased method with heq | heq
    · exact absurd hstate (hlive s' (heq ▸ hs'))
    · rw [heq] at hs'
      obtain ⟨s, hs, rfl⟩ := Option.map_eq_some_iff.mp hs'
      exact absurd hstate (hlive s hs)
  | @completed completion surroundings outcome ledger record' hup hstorage _ hok _ hdurable =>
    have hworking : (ledger.holdOutcome completion).record.status = w.durable := by
      rw [ledger.holdOutcome_record, hs.working ledger hup hstorage]
    have hrun : (ledger.holdOutcome completion).run = ledger.run := by
      unfold SafetyLedger.holdOutcome
      split_ifs <;> rfl
    rw [hdurable] at hs'
    obtain ⟨howned, s, hprior, hholder⟩ :=
      SafetyLedger.complete_recovered hok hs' hstate (hworking ▸ hlive)
    rw [hworking] at hprior
    have hheld : s.claim = some ⟨completion.attemptId, ledger.run⟩ := hrun ▸ hholder.claim
    refine ⟨completion, surroundings, outcome, ledger, s, rfl, hup, ?_, hprior, ?_,
      ⟨hholder.success, hheld, hholder.generation⟩, hs.accounted.claimed method s _ hprior hheld,
      fun hspent => hs.accounted.spent method s _ hprior hspent rfl⟩
    · rw [← howned, SafetyLedger.ownedMethod, SafetyLedger.ownedMethod, hrun,
        ledger.holdOutcome_record]
    · cases hlive' : s.state with
      | live => rfl
      | recovered => exact absurd hlive' (hlive s hprior)
  | @issued attemptId other authOnly surroundings outcome ledger episode hup hstorage hlookup hstill
      hfree hfloor hdurable =>
    rw [hdurable, hs.working ledger hup hstorage] at hs'
    rcases setStatus_eq_some hs' with ⟨rfl, rfl⟩ | ⟨-, hs'⟩
    · have hlost : episode.state = .recovered := hstate
      rw [hstill] at hlost
      cases hlost
    · exact absurd hstate (hlive s' hs')

/-- One trial at a time: in every world that a run from a new store reaches, at most one attempt
holds the claim of a live episode; `prepare_method_trial` hands it out only when no other attempt
holds it and the floor of the episode has elapsed, and nothing else hands it out; a method recovers
only through the success of the attempt that holds the claim of the current generation; and the
counts of an episode are the claimed floods and the failed reads since the method recovered last.  A
ledger whose storage works sees the episodes of the store. -/
theorem one_trial_at_a_time {bootId : String} {monotonic utc : ℚ} {events : List TrialEvent}
    (h : run (step tlobjects) (initial bootId monotonic utc) events = some w) :
    (∀ ledger method episode attemptId other, w.world.process = .up ledger →
      ledger.record.methods.lookup method = some episode → episode.state = .live →
      ledger.methodClaimValid method attemptId (some episode.generation) = true →
      ledger.methodClaimValid method other (some episode.generation) = true →
      attemptId = other) ∧
    (∀ ledger now attemptId method authOnly generation record, w.world.process = .up ledger →
      ledger.prepareMethodTrial now attemptId method authOnly = .ok (some (generation, record)) →
      ∃ episode, ledger.record.methods.lookup method = some episode ∧ episode.state = .live ∧
        generation = some episode.generation ∧
        (∀ other, ledger.methodClaimValid method other (some episode.generation) = true →
          other = attemptId) ∧
        ledger.floorReleaseAt now episode.floor ≤ now.monotonic) ∧
    (∀ event w', step tlobjects w event = some w' → ∀ method,
      (∀ s' claim, w'.durable method = some s' → s'.claim = some claim →
        (∀ s, w.durable method = some s → s.claim ≠ some claim) →
        w.IssuedByTrial event method claim) ∧
      (¬ w.Recovered method → w'.Recovered method → w.RecoveredByHolder event method)) ∧
    (∀ method s, w.durable method = some s →
      s.floods = w.history.floods method ∧ s.readFailures = w.history.readFailures method) ∧
    (∀ ledger, w.world.process = .up ledger → ledger.storageFailed = false →
      ledger.record.status = w.durable) := by
  have hs := sound_of_run h
  refine ⟨fun ledger method episode attemptId other _ _ _ => ?_,
    fun ledger now attemptId method authOnly generation record _ hok => ?_,
    fun event w' hstep method => ⟨fun s' claim => claim_issued hs hstep,
      recovered_by_holder hs hstep⟩, fun method s hdurable => ?_, hs.working⟩
  · exact SafetyLedger.methodClaimValid_unique
  · obtain ⟨episode, hlookup, hlive, hgeneration, hfree, hfloor, -, -⟩ :=
      SafetyLedger.prepareMethodTrial_ok hok
    refine ⟨episode, hlookup, hlive, hgeneration, fun other hvalid => ?_, hfloor⟩
    obtain ⟨episode', hlive', -, hclaim⟩ := SafetyLedger.claim_of_valid hvalid
    obtain rfl := Option.some.inj ((liveEpisode_eq_some.mp hlive').1.symm.trans hlookup)
    rcases hfree with hfree | hfree
    · rw [hfree] at hclaim
      cases hclaim
    · exact congrArg MethodClaim.attemptId (Option.some.inj (hclaim.symm.trans hfree))
  · have hvalid := hs.accounted.valid method s hdurable
    rw [hs.accounted.floods method hvalid, hs.accounted.readFailures method hvalid, hdurable]
    exact ⟨rfl, rfl⟩

/-! ## A sample run -/

/-- A method with its constructor. -/
def sampleMethod : String := "telethon.tl.functions.users.GetUsersRequest:0d91a548"

/-- The constructors that the sample run needs. -/
def sampleConstructors : TlObjects where
  size := 1
  request constructor :=
    if constructor = 227648840 then some "telethon.tl.functions.users.GetUsersRequest" else none

/-- Identifiers that start with a label. -/
def labelled (label : String) : Surroundings where
  uuid n := if n = 4 then label ++ "-flood" else label ++ "-read"

/-- An attempt floods; once the floor has elapsed, two other attempts are prepared and one of them
gets the permission. -/
def sampleTrials : List TrialEvent :=
  [.load { dcId := 2, keyId := some 7, run := "first" },
    .operate (.prepare { attemptId := "flooded", method := sampleMethod }) (labelled "1") .saved,
    .operate (.markClaimed "flooded" false) (labelled "2") .saved,
    .operate (.complete { attemptId := "flooded", knownOutcome := true, actualFlood := true })
      (labelled "3") .saved,
    .tick 3600 3700,
    .operate (.prepare { attemptId := "early", method := sampleMethod }) (labelled "4") .saved,
    .operate (.prepare { attemptId := "late", method := sampleMethod }) (labelled "5") .saved,
    .prepareMethodTrial "early" sampleMethod false (labelled "6") .saved,
    .prepareMethodTrial "late" sampleMethod false (labelled "7") .saved]

/-- The earlier of two attempts holds the claim, alone, and its success is the only way out. -/
theorem one_trial_at_a_time_sample :
    ∃ w ledger, run (step sampleConstructors) (initial "boot" 0 100) sampleTrials = some w ∧
      w.world.process = .up ledger ∧
      ledger.methodClaimValid sampleMethod "early" (some "3-flood") = true ∧
      (∀ other, ledger.methodClaimValid sampleMethod other (some "3-flood") = true →
        "early" = other) ∧
      w.history.floods sampleMethod = 1 := by
  obtain ⟨w, hrun⟩ := Option.isSome_iff_exists.mp (show
    (run (step sampleConstructors) (initial "boot" 0 100) sampleTrials).isSome = true by
      decide +kernel)
  have hvalid : (run (step sampleConstructors) (initial "boot" 0 100) sampleTrials).map
      (fun w => match w.world.process with
        | .up ledger => ledger.methodClaimValid sampleMethod "early" (some "3-flood")
        | _ => false) = some true := by decide +kernel
  have hstatus : (run (step sampleConstructors) (initial "boot" 0 100) sampleTrials).map
      (fun w => w.durable sampleMethod) =
        some (some ⟨.live, "3-flood", 1, 0, some ⟨"early", "first"⟩⟩) := by decide +kernel
  rw [hrun, Option.map_some, Option.some.injEq] at hvalid hstatus
  obtain ⟨hunique, -, -, hcounts, -⟩ := one_trial_at_a_time hrun
  cases hprocess : w.world.process with
  | down => rw [hprocess] at hvalid; cases hvalid
  | unreadable => rw [hprocess] at hvalid; cases hvalid
  | up ledger =>
    rw [hprocess] at hvalid
    obtain ⟨episode, hlive, hgeneration, -⟩ := SafetyLedger.claim_of_valid hvalid
    obtain ⟨hlookup, hstate⟩ := liveEpisode_eq_some.mp hlive
    refine ⟨w, ledger, hrun, hprocess, hvalid, fun other hother => ?_,
      (hcounts sampleMethod _ hstatus).1.symm⟩
    rw [← hgeneration] at hvalid hother
    exact hunique ledger sampleMethod episode "early" other hprocess hlookup hstate hvalid hother

end TrialWorld

end McpTelegram
