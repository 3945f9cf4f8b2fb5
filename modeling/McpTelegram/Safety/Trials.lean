import McpTelegram.Safety.Changes

/-!
# Trials of restricted methods

`method_release_at`, `method_claim_valid`, `prepare_method_trial` and `method_deferral` of
`telegram_rpc.py`: the single permission that a restricted method hands out, and what the other
calls of the ledger do to it.  An episode is looked at through its status, which is all of it but
the floor: a load rebases the floors and changes nothing else.
-/

namespace McpTelegram

open Foundations

variable {record record' : SafetyRecord} {method : String} {episode : MethodEpisode}
variable {generation other : String}

/-! ## The permission of a method -/

/-- What holds an attempt back: `TelegramRpcMethodRecoveryPending` or
`TelegramRpcAdmissionDeferred`. -/
inductive MethodDeferral
  | recoveryPending (method generation reason : String)
  | admissionDeferred (retryAfterSeconds : ℕ) (methodKey generation : String) (eligibleAt : ℚ)
      (reason : String) (detail : Option String)

/-- What `prepare_method_trial` raises. -/
inductive TrialError
  | deferred (deferral : MethodDeferral)
  | ledger (error : LedgerError)

/-- The episode of a method, unless it is recovered. -/
def SafetyRecord.liveEpisode (record : SafetyRecord) (method : String) : Option MethodEpisode :=
  (record.methods.lookup method).filter (·.state = .live)

/-- The episode is claimed by another attempt, or by another run. -/
def MethodEpisode.claimedByOther (episode : MethodEpisode) (attemptId : Option String)
    (run : String) : Bool :=
  episode.claim.any fun claim => some claim.attemptId ≠ attemptId || claim.run ≠ run

/-- `_method_recovery_reason`. -/
def MethodEpisode.recoveryReason (episode : MethodEpisode) : String × Option String :=
  if episode.consecutiveReadBudgetFailures = 0 then ("method", none)
  else if episode.consecutiveActualFloods ≠ 0 then
    ("method_mixed_retry", some "Method recovery includes FloodWait and a local read failure")
  else ("read_budget_retry", some "Method retry waits after a local read failure")

namespace SafetyLedger

/-- `method_claim_valid`. -/
def methodClaimValid (self : SafetyLedger) (method attemptId : String)
    (generation : Option String) : Bool :=
  match self.record.liveEpisode method with
  | none => generation = none
  | some episode =>
    some episode.generation = generation && episode.claim = some ⟨attemptId, self.run⟩

/-- `method_deferral`. -/
def methodDeferral (self : SafetyLedger) (now : Moment) (method : String)
    (attemptId : Option String) : Option MethodDeferral :=
  match self.record.liveEpisode method with
  | none => none
  | some episode =>
    let (reason, detail) := episode.recoveryReason
    if episode.claimedByOther attemptId self.run then
      some (.recoveryPending method episode.generation
        (if reason ≠ "method" then reason else "recovery"))
    else
      let deadline := self.floorReleaseAt now episode.floor
      if deadline ≤ now.monotonic then none
      else
        some (.admissionDeferred (max 1 ⌈deadline - now.monotonic⌉₊) method episode.generation
          deadline reason detail)

/-- `reserve` in `prepare_method_trial`: the generation that is handed out, and the record. -/
def reserve (self : SafetyLedger) (now : Moment) (record : SafetyRecord)
    (attemptId method : String) (authOnly : Bool) :
    Except TrialError (Option String × SafetyRecord) :=
  match self.requireWritable authOnly with
  | .error error => .error (.ledger error)
  | .ok _ =>
    match record.liveEpisode method with
    | none => .ok (none, record)
    | some episode =>
      match self.methodDeferral now method (some attemptId) with
      | some deferral => .error (.deferred deferral)
      | none =>
        if attemptId ∈ record.intents then
          .ok (some episode.generation, { record with
            methods := record.methods.insert method
              { episode with claim := some ⟨attemptId, self.run⟩ } })
        else
          .error (.ledger (.runtimeError "method recovery lacks its durable application intent"))

/-- `prepare_method_trial`: without a live episode nothing is committed. -/
def prepareMethodTrial (self : SafetyLedger) (now : Moment) (attemptId method : String)
    (authOnly : Bool) : Except TrialError (Option (Option String × SafetyRecord)) :=
  match self.requireWritable authOnly with
  | .error error => .error (.ledger error)
  | .ok _ =>
    match self.record.liveEpisode method with
    | none => .ok none
    | some _ => (self.reserve now self.record attemptId method authOnly).map some

/-- `prepare_method_trial` around its save. -/
def trialCall (self : SafetyLedger) (now : Moment) (attemptId method : String)
    (authOnly : Bool) : SafetyCall where
  ledger := self
  proposal :=
    match self.prepareMethodTrial now attemptId method authOnly with
    | .ok (some (_, record)) => some (.ok record)
    | _ => none

end SafetyLedger

/-- The live episode of a method is its episode, and live. -/
theorem liveEpisode_eq_some :
    record.liveEpisode method = some episode ↔
      record.methods.lookup method = some episode ∧ episode.state = .live := by
  rw [SafetyRecord.liveEpisode, Option.filter_eq_some_iff, decide_eq_true_iff]

namespace SafetyLedger

variable {self : SafetyLedger} {now : Moment} {attemptId method : String}
variable {episode : MethodEpisode}

/-- An episode that no other attempt claims is unclaimed, or claimed by the attempt in this run. -/
theorem claimedByOther_eq_false {run : String} :
    episode.claimedByOther (some attemptId) run = false ↔
      episode.claim = none ∨ episode.claim = some ⟨attemptId, run⟩ := by
  cases hclaim : episode.claim with
  | none => simp [MethodEpisode.claimedByOther, hclaim]
  | some claim =>
    obtain ⟨holder, holderRun⟩ := claim
    simp [MethodEpisode.claimedByOther, hclaim]

/-- A claim that is valid in a live episode is the claim of the episode. -/
theorem claim_of_valid (h : self.methodClaimValid method attemptId (some generation) = true) :
    ∃ episode, self.record.liveEpisode method = some episode ∧ episode.generation = generation ∧
      episode.claim = some ⟨attemptId, self.run⟩ := by
  unfold methodClaimValid at h
  split at h
  · simp at h
  · next episode hlive =>
    rw [Bool.and_eq_true, decide_eq_true_iff, decide_eq_true_iff] at h
    exact ⟨episode, hlive, Option.some.inj h.1, h.2⟩

/-- At most one attempt holds the claim of a generation. -/
theorem methodClaimValid_unique
    (h : self.methodClaimValid method attemptId (some generation) = true)
    (h' : self.methodClaimValid method other (some generation) = true) : attemptId = other := by
  obtain ⟨episode, hlive, -, hclaim⟩ := claim_of_valid h
  obtain ⟨episode', hlive', -, hclaim'⟩ := claim_of_valid h'
  obtain rfl := Option.some.inj (hlive.symm.trans hlive')
  have heq := Option.some.inj (hclaim.symm.trans hclaim')
  exact congrArg MethodClaim.attemptId heq

/-- Nothing defers the attempt of a live episode when no other attempt claims the episode and its
floor has elapsed. -/
theorem methodDeferral_eq_none (hlive : self.record.liveEpisode method = some episode) :
    self.methodDeferral now method (some attemptId) = none ↔
      (episode.claim = none ∨ episode.claim = some ⟨attemptId, self.run⟩) ∧
        self.floorReleaseAt now episode.floor ≤ now.monotonic := by
  unfold methodDeferral
  rw [hlive, ← claimedByOther_eq_false]
  dsimp only
  split_ifs with hother hdeadline
  · simp [hother]
  · simp [hother, hdeadline]
  · simp [hdeadline]

/-- What is known when `prepare_method_trial` commits: the episode is live, nobody else claims it,
its floor has elapsed, and the attempt gets the claim. -/
theorem prepareMethodTrial_ok {authOnly : Bool} {generation : Option String} {record : SafetyRecord}
    (h : self.prepareMethodTrial now attemptId method authOnly = .ok (some (generation, record))) :
    ∃ episode, self.record.methods.lookup method = some episode ∧ episode.state = .live ∧
      generation = some episode.generation ∧
      (episode.claim = none ∨ episode.claim = some ⟨attemptId, self.run⟩) ∧
      self.floorReleaseAt now episode.floor ≤ now.monotonic ∧
      attemptId ∈ self.record.intents ∧
      record = { self.record with
        methods := self.record.methods.insert method
          { episode with claim := some ⟨attemptId, self.run⟩ } } := by
  unfold prepareMethodTrial at h
  split at h
  · cases h
  · split at h
    · cases h
    · next episode hlive =>
      obtain ⟨reserved, hreserved, hsome⟩ := except_map_eq_ok.mp h
      obtain rfl := Option.some.inj hsome
      unfold reserve at hreserved
      split at hreserved
      · cases hreserved
      · rw [hlive] at hreserved
        dsimp only at hreserved
        split at hreserved
        · cases hreserved
        · next hdeferral =>
          split_ifs at hreserved with hintent
          obtain ⟨rfl, rfl⟩ := Prod.mk.inj (Except.ok.inj hreserved)
          obtain ⟨hclaim, hfloor⟩ := (methodDeferral_eq_none hlive).mp hdeferral
          obtain ⟨hlookup, hstate⟩ := liveEpisode_eq_some.mp hlive
          exact ⟨episode, hlookup, hstate, rfl, hclaim, hfloor, hintent, rfl⟩

end SafetyLedger

/-! ## The status of an episode -/

/-- An episode without its floor. -/
structure EpisodeStatus where
  state : EpisodeState
  generation : String
  floods : ℕ
  readFailures : ℕ
  claim : Option MethodClaim
  deriving DecidableEq

/-- The status of an episode. -/
def MethodEpisode.status (episode : MethodEpisode) : EpisodeStatus :=
  ⟨episode.state, episode.generation, episode.consecutiveActualFloods,
    episode.consecutiveReadBudgetFailures, episode.claim⟩

/-- The status of the episode of a method in a record. -/
def SafetyRecord.status (record : SafetyRecord) (method : String) : Option EpisodeStatus :=
  (record.methods.lookup method).map (·.status)

/-- The statuses after one method got another. -/
def setStatus (status : String → Option EpisodeStatus) (method : String) (next : EpisodeStatus) :
    String → Option EpisodeStatus :=
  Function.update status method (some next)

variable {status : String → Option EpisodeStatus}

/-- The status of a method after one method got another. -/
theorem setStatus_eq_some {next s : EpisodeStatus}
    (hs : setStatus status method next other = some s) :
    (other = method ∧ s = next) ∨ (other ≠ method ∧ status other = some s) := by
  by_cases heq : other = method
  · subst heq
    rw [setStatus, Function.update_self] at hs
    exact Or.inl ⟨rfl, (Option.some.inj hs).symm⟩
  · rw [setStatus, Function.update_of_ne heq] at hs
    exact Or.inr ⟨heq, hs⟩

namespace EpisodeStatus

/-- The claim is dropped. -/
def release (s : EpisodeStatus) : EpisodeStatus := { s with claim := none }

/-- The method is recovered. -/
def recover (s : EpisodeStatus) : EpisodeStatus :=
  { s with state := .recovered, floods := 0, readFailures := 0, claim := none }

/-- The status after a claimed flood. -/
def flood (previous : Option EpisodeStatus) (generation : String) : EpisodeStatus where
  state := .live
  generation := generation
  floods := ((previous.filter (·.state = .live)).map (·.floods)).getD 0 + 1
  readFailures := (previous.map (·.readFailures)).getD 0
  claim := none

/-- The status after a failed read. -/
def fail (previous : Option EpisodeStatus) (generation : String) : EpisodeStatus where
  state := .live
  generation := generation
  floods := (previous.map (·.floods)).getD 0
  readFailures := (previous.map (·.readFailures)).getD 0 + 1
  claim := none

end EpisodeStatus

/-- Every claim is kept or dropped, and nothing else changes. -/
def Released (status status' : String → Option EpisodeStatus) : Prop :=
  ∀ method, status' method = status method ∨ status' method = (status method).map (·.release)

theorem Released.of_eq {status' : String → Option EpisodeStatus} (h : status' = status) :
    Released status status' := fun method => Or.inl (congrFun h method)

/-- One claim is dropped. -/
theorem Released.set {s : EpisodeStatus} (h : status method = some s) :
    Released status (setStatus status method s.release) := by
  intro other
  by_cases hother : other = method
  · subst hother
    rw [setStatus, Function.update_self, h]
    exact Or.inr rfl
  · rw [setStatus, Function.update_of_ne hother]
    exact Or.inl rfl

theorem status_of_lookup (h : record.methods.lookup method = some episode) :
    record.status method = some episode.status := by
  rw [SafetyRecord.status, h, Option.map_some]

/-- The statuses after an episode was written. -/
theorem status_insert (h : record'.methods = record.methods.insert method episode) :
    record'.status = setStatus record.status method episode.status := by
  funext other
  rw [SafetyRecord.status, h]
  by_cases hother : other = method
  · subst hother
    rw [AList.lookup_insert, setStatus, Function.update_self, Option.map_some]
  · rw [AList.lookup_insert_ne hother, setStatus, Function.update_of_ne hother,
      SafetyRecord.status]

/-- The statuses of a record in which one episode was written. -/
theorem status_write (record : SafetyRecord) (method : String) (episode : MethodEpisode) :
    SafetyRecord.status { record with methods := record.methods.insert method episode } =
      setStatus record.status method episode.status := status_insert rfl

/-- Records with the same episodes have the same statuses. -/
theorem status_congr (h : record'.methods = record.methods) : record'.status = record.status := by
  funext method
  rw [SafetyRecord.status, h, SafetyRecord.status]

/-- The statuses after every episode was changed. -/
theorem status_mapValues {f : String → MethodEpisode → MethodEpisode}
    {g : EpisodeStatus → EpisodeStatus}
    (h : record'.methods = Dictionary.mapValues record.methods f)
    (hf : ∀ method episode, (f method episode).status = g episode.status) :
    record'.status = fun method => (record.status method).map g := by
  funext method
  rw [SafetyRecord.status, h, Dictionary.lookup_mapValues, SafetyRecord.status, Option.map_map,
    Option.map_map]
  congr 1
  funext episode
  exact hf method episode

namespace SafetyLedger

variable {self : SafetyLedger} {tlobjects : TlObjects} {now : Moment}
  {record record' : SafetyRecord}

variable {method : String} {completion : Completion} {s' : EpisodeStatus}

/-- `_record_method_flood` seen in the statuses. -/
theorem recordMethodFlood_status (previous : Option MethodEpisode) :
    (self.recordMethodFlood now previous).status =
      .flood (previous.map (·.status)) (now.uuid 4) := by
  cases previous with
  | none => rfl
  | some previous => cases hstate : previous.state <;>
      simp [recordMethodFlood, MethodEpisode.status, EpisodeStatus.flood, Option.filter, hstate]

/-- `_settle_read_budget_failure` seen in the statuses. -/
theorem readFailureEpisode_status (previous : Option MethodEpisode) :
    (self.readFailureEpisode now previous).status =
      .fail (previous.map (·.status)) (now.uuid 5) := by
  cases previous <;> rfl

/-- The method of an attempt of this run. -/
def ownedMethod (self : SafetyLedger) (attemptId : String) : Option String :=
  ((self.record.intents.lookup attemptId).filter (·.run = self.run)).map (·.method)

/-- The completion reports a flood of a claimed attempt. -/
def claimedFlood (self : SafetyLedger) (completion : Completion) : Bool :=
  completion.actualFlood && completion.attemptId ∈ self.claimed

/-- The completion reports the failed read of a claimed attempt. -/
def claimedReadFailure (self : SafetyLedger) (completion : Completion) : Bool :=
  completion.scopedReadFailure && completion.attemptId ∈ self.claimed

/-- The method of an attempt whose intent is known. -/
theorem ownedMethod_eq_some {attemptId : String} :
    self.ownedMethod attemptId = some method ↔
      ∃ intent, self.record.intents.lookup attemptId = some intent ∧ intent.run = self.run ∧
        intent.method = method := by
  rw [ownedMethod, Option.map_eq_some_iff]
  simp only [Option.filter_eq_some_iff, decide_eq_true_iff, and_assoc]

/-- The holder of the current generation reports its success. -/
structure HolderSucceeds (ledger : SafetyLedger) (completion : Completion)
    (status : EpisodeStatus) : Prop where
  success : completion.methodSuccess = true
  claim : status.claim = some ⟨completion.attemptId, ledger.run⟩
  generation : completion.methodGeneration = some status.generation

instance (completion : Completion) (status : EpisodeStatus) :
    Decidable (self.HolderSucceeds completion status) :=
  decidable_of_iff (completion.methodSuccess = true ∧
    status.claim = some ⟨completion.attemptId, self.run⟩ ∧
    completion.methodGeneration = some status.generation)
    ⟨fun h => ⟨h.1, h.2.1, h.2.2⟩, fun h => ⟨h.success, h.claim, h.generation⟩⟩

/-- What `_settle_method` does to the statuses when it settles a completion. -/
theorem settleMethod_status (completion : Completion) :
    let settled := (self.settleMethod tlobjects now self.record completion.attemptId
      completion.actualFlood completion.methodGeneration completion.methodSuccess).status
    (settled = self.record.status ∧ ∀ method, self.ownedMethod completion.attemptId = some method →
        self.claimedFlood completion = true → validMethodKey tlobjects method = false) ∨
      ∃ method, self.ownedMethod completion.attemptId = some method ∧
        ((self.claimedFlood completion = true ∧ validMethodKey tlobjects method = true ∧
            settled = setStatus self.record.status method
              (.flood (self.record.status method) (now.uuid 4))) ∨
          (self.claimedFlood completion && validMethodKey tlobjects method) = false ∧
            ∃ status, self.record.status method = some status ∧
              status.claim = some ⟨completion.attemptId, self.run⟩ ∧
              settled = setStatus self.record.status method
                (if self.HolderSucceeds completion status then status.recover
                  else status.release)) := by
  have hkept : ∀ {method : String}, self.ownedMethod completion.attemptId = some method →
      ∀ intent, self.record.intents.lookup completion.attemptId = some intent →
        intent.method = method := by
    intro method howned intent hlookup
    obtain ⟨intent', hlookup', -, hmethod⟩ := ownedMethod_eq_some.mp howned
    exact Option.some.inj (hlookup.symm.trans hlookup') ▸ hmethod
  unfold settleMethod
  split
  · next hlookup =>
    refine Or.inl ⟨rfl, fun method howned => ?_⟩
    obtain ⟨intent, hintent, -⟩ := ownedMethod_eq_some.mp howned
    rw [hlookup] at hintent
    cases hintent
  · next intent hlookup =>
    split_ifs with hrun hflood
    · refine Or.inl ⟨rfl, fun method howned => ?_⟩
      obtain ⟨intent', hlookup', hrun', -⟩ := ownedMethod_eq_some.mp howned
      obtain rfl := Option.some.inj (hlookup.symm.trans hlookup')
      exact absurd hrun' hrun
    · have howned := ownedMethod_eq_some.mpr ⟨intent, hlookup, not_not.mp hrun, rfl⟩
      refine Or.inr ⟨intent.method, howned, Or.inl ⟨?_, hflood.2.2, ?_⟩⟩
      · rw [claimedFlood, hflood.1, Bool.true_and, decide_eq_true_iff]
        exact hflood.2.1
      · rw [SafetyRecord.status, ← @recordMethodFlood_status self]
        exact status_insert rfl
    · have howned := ownedMethod_eq_some.mpr ⟨intent, hlookup, not_not.mp hrun, rfl⟩
      have hunflooded :
          (self.claimedFlood completion && validMethodKey tlobjects intent.method) = false := by
        rw [claimedFlood, ← Bool.not_eq_true]
        simpa using hflood
      have hkeep : ∀ method, self.ownedMethod completion.attemptId = some method →
          self.claimedFlood completion = true → validMethodKey tlobjects method = false := by
        intro method howned' hclaimed
        rw [← hkept howned' intent hlookup]
        rwa [hclaimed, Bool.true_and] at hunflooded
      dsimp only
      split
      · exact Or.inl ⟨rfl, hkeep⟩
      · next episode hepisode =>
        split_ifs with hclaim hsettle
        · refine Or.inr ⟨intent.method, howned, Or.inr ⟨hunflooded, episode.status,
            status_of_lookup hepisode, hclaim, ?_⟩⟩
          rw [if_pos ⟨hsettle.1, hclaim, hsettle.2.symm⟩]
          exact status_write self.record intent.method
            { episode with
              state := .recovered
              consecutiveActualFloods := 0
              consecutiveReadBudgetFailures := 0
              claim := none }
        · refine Or.inr ⟨intent.method, howned, Or.inr ⟨hunflooded, episode.status,
            status_of_lookup hepisode, hclaim, ?_⟩⟩
          rw [if_neg fun hholder => hsettle ⟨hholder.success, hholder.generation.symm⟩]
          exact status_write self.record intent.method { episode with claim := none }
        · exact Or.inl ⟨rfl, hkeep⟩

/-- What a completion does to the statuses: it settles the method, and a failed read is recorded on
top of that. -/
theorem complete_status (h : self.complete tlobjects now self.record completion = .ok record') :
    let settled := (self.settleMethod tlobjects now self.record completion.attemptId
      completion.actualFlood completion.methodGeneration completion.methodSuccess).status
    (completion.scopedReadFailure = false ∧ record'.status = settled) ∨
      ∃ method, self.ownedMethod completion.attemptId = some method ∧
        self.claimedReadFailure completion = true ∧
        record'.status = setStatus settled method (.fail (settled method) (now.uuid 5)) := by
  obtain ⟨settled, floor, hsettled, hguarded, -⟩ := complete_ok h
  have hstatus : record'.status = settled.status := status_congr hguarded.methods
  dsimp only
  rw [hstatus]
  unfold settleOutcome at hsettled
  split_ifs at hsettled with hfailure
  · obtain ⟨intent, hlookup, hclaimed, hrun, -, -, rfl⟩ := settleReadBudgetFailure_ok hsettled
    have hintents : (self.settleMethod tlobjects now self.record completion.attemptId
        completion.actualFlood completion.methodGeneration completion.methodSuccess).intents =
        self.record.intents := by rw [settleMethod_eq]
    rw [hintents] at hlookup
    refine Or.inr ⟨intent.method, ownedMethod_eq_some.mpr ⟨intent, hlookup, hrun, rfl⟩, ?_, ?_⟩
    · rw [claimedReadFailure, hfailure, Bool.true_and, decide_eq_true_iff]
      exact hclaimed
    · rw [SafetyRecord.status, ← @readFailureEpisode_status self]
      exact status_insert rfl
  · refine Or.inl ⟨Bool.not_eq_true _ ▸ hfailure, ?_⟩
    rcases settleIntent_cases hsettled with ⟨rfl, -⟩ | ⟨prior, -, -, ⟨rfl, -⟩ | ⟨rfl, -⟩⟩
    · rfl
    · exact status_congr rfl
    · exact status_congr rfl

/-- A completion leaves a method recovered that was not only when the holder of its claim
succeeds. -/
theorem complete_recovered (h : self.complete tlobjects now self.record completion = .ok record')
    (hs' : record'.status method = some s') (hstate : s'.state = .recovered)
    (hbefore : ∀ s, self.record.status method = some s → s.state ≠ .recovered) :
    self.ownedMethod completion.attemptId = some method ∧
      ∃ s, self.record.status method = some s ∧ self.HolderSucceeds completion s := by
  have hsettled : ∀ {s}, (self.settleMethod tlobjects now self.record completion.attemptId
      completion.actualFlood completion.methodGeneration completion.methodSuccess).status method =
        some s → s.state = .recovered → self.ownedMethod completion.attemptId = some method ∧
      ∃ s, self.record.status method = some s ∧ self.HolderSucceeds completion s := by
    intro s hs hrecovered
    rcases @settleMethod_status self tlobjects now completion with
      ⟨hsame, -⟩ | ⟨other, howned, ⟨-, -, hset⟩ | ⟨-, prior, hprior, -, hset⟩⟩
    · rw [hsame] at hs
      exact absurd hrecovered (hbefore s hs)
    · rw [hset] at hs
      rcases setStatus_eq_some hs with ⟨rfl, rfl⟩ | ⟨-, hs⟩
      · cases hrecovered
      · exact absurd hrecovered (hbefore s hs)
    · rw [hset] at hs
      rcases setStatus_eq_some hs with ⟨rfl, rfl⟩ | ⟨-, hs⟩
      · refine ⟨howned, prior, hprior, ?_⟩
        by_contra hholder
        rw [if_neg hholder] at hrecovered
        exact hbefore prior hprior hrecovered
      · exact absurd hrecovered (hbefore s hs)
  rcases complete_status h with ⟨-, hstatus⟩ | ⟨other, -, -, hstatus⟩
  · exact hsettled (hstatus ▸ hs') hstate
  · rw [hstatus] at hs'
    rcases setStatus_eq_some hs' with ⟨rfl, rfl⟩ | ⟨-, hs'⟩
    · cases hstate
    · exact hsettled hs' hstate

/-- A completion hands out no claim. -/
theorem complete_claim {claim : MethodClaim}
    (h : self.complete tlobjects now self.record completion = .ok record')
    (hs' : record'.status method = some s') (hclaim : s'.claim = some claim) :
    ∃ s, self.record.status method = some s ∧ s.claim = some claim := by
  have hsettled : ∀ {s}, (self.settleMethod tlobjects now self.record completion.attemptId
      completion.actualFlood completion.methodGeneration completion.methodSuccess).status method =
        some s → s.claim = some claim →
      ∃ s, self.record.status method = some s ∧ s.claim = some claim := by
    intro s hs hheld
    rcases @settleMethod_status self tlobjects now completion with
      ⟨hsame, -⟩ | ⟨other, -, ⟨-, -, hset⟩ | ⟨-, prior, -, -, hset⟩⟩
    · exact ⟨s, hsame ▸ hs, hheld⟩
    · rw [hset] at hs
      rcases setStatus_eq_some hs with ⟨-, rfl⟩ | ⟨-, hs⟩
      · cases hheld
      · exact ⟨s, hs, hheld⟩
    · rw [hset] at hs
      rcases setStatus_eq_some hs with ⟨-, rfl⟩ | ⟨-, hs⟩
      · split_ifs at hheld <;> cases hheld
      · exact ⟨s, hs, hheld⟩
  rcases complete_status h with ⟨-, hstatus⟩ | ⟨other, -, -, hstatus⟩
  · exact hsettled (hstatus ▸ hs') hclaim
  · rw [hstatus] at hs'
    rcases setStatus_eq_some hs' with ⟨-, rfl⟩ | ⟨-, hs'⟩
    · cases hclaim
    · exact hsettled hs' hclaim

/-- Dropping every claim drops them in the statuses. -/
theorem dropClaims_released (h : record'.methods = dropClaims record.methods) :
    Released record.status record'.status := fun method =>
  Or.inr (congrFun (status_mapValues h fun _ _ => rfl) method)

/-- What the calls other than `complete` do to the statuses. -/
theorem call_status {operation : SafetyOperation}
    (h : (self.call tlobjects now operation).proposal = some (.ok record')) :
    Released self.record.status record'.status ∨
      ∃ completion, operation = .complete completion ∧
        (self.holdOutcome completion).complete tlobjects now (self.holdOutcome completion).record
          completion = .ok record' := by
  have hkept : ∀ {changed : SafetyRecord}, RecoveryOnly self.record changed →
      Released self.record.status changed.status :=
    fun hrecovery => .of_eq (status_congr hrecovery.methods)
  cases operation with
  | prepare request =>
    simp only [call] at h
    split_ifs at h
    obtain ⟨intent, -, -, rfl⟩ := prepare_ok (Option.some.inj h)
    exact Or.inl (.of_eq (status_congr rfl))
  | markClaimed =>
    simp only [call] at h
    split_ifs at h
  | complete completion =>
    refine Or.inr ⟨completion, rfl, ?_⟩
    rw [holdOutcome_record]
    exact Option.some.inj h
  | completeNativeUnknown attemptId binding methodGeneration =>
    obtain ⟨_, _, -, -, -, -, -, rfl⟩ := completeNativeUnknown_ok (Option.some.inj h)
    refine Or.inl ?_
    rcases @settleMethod_status self tlobjects now
        { attemptId := attemptId, knownOutcome := false, methodGeneration := methodGeneration } with
      ⟨hsame, -⟩ | ⟨method, -, ⟨hflood, -⟩ | ⟨-, s, hs, -, hset⟩⟩
    · exact .of_eq hsame
    · cases hflood
    · rw [if_neg fun hholder => Bool.false_ne_true hholder.success] at hset
      have hreleased : Released self.record.status
        (setStatus self.record.status method s.release) := .set hs
      rw [← hset] at hreleased
      exact hreleased
  | containNative attemptId binding =>
    obtain ⟨_, _, -, -, -, rfl⟩ := containNative_ok (Option.some.inj h)
    rw [clearUnresolved_eq]
    exact Or.inl (.of_eq (status_congr rfl))
  | containShutdownReads attempts clearIntroducedHold =>
    obtain ⟨-, -, intents, -, rfl⟩ := containShutdownReads_ok (Option.some.inj h)
    rw [clearUnresolved_eq]
    split_ifs
    all_goals exact Or.inl (.of_eq (status_congr rfl))
  | recordFloor untilUtc circuitOpen =>
    exact Or.inl (.of_eq (status_congr (recordFloor_ok (Option.some.inj h)).methods))
  | authorizeRecovery =>
    exact Or.inl (hkept (authorizeRecovery_guarded (Option.some.inj h)).toRecoveryOnly)
  | consumeRecovery =>
    simp only [call] at h
    split at h
    · cases h
    · split_ifs at h
      obtain rfl := consumeRecovery_ok (Option.some.inj h)
      exact Or.inl (dropClaims_released rfl)
  | finishRecovery =>
    exact Or.inl (hkept (finishRecovery_ok (Option.some.inj h)).2.1)
  | failRecovery =>
    obtain rfl := Except.ok.inj (Option.some.inj h)
    exact Or.inl (hkept (failRecovery_guarded _).toRecoveryOnly)
  | failAutomaticRecovery =>
    exact Or.inl (hkept (failAutomaticRecovery_guarded (Option.some.inj h)).toRecoveryOnly)
  | configureAutoResume => cases h
  | persistAutoRebase =>
    simp only [call] at h
    split_ifs at h
    obtain rfl := Except.ok.inj (Option.some.inj h)
    exact Or.inl (.of_eq rfl)
  | maintainAutoFence =>
    simp only [call] at h
    split_ifs at h
    exact Or.inl (hkept (maintainAutoFence_guarded (Option.some.inj h)).toRecoveryOnly)
  | autoQuiesceIfReady =>
    simp only [call] at h
    split_ifs at h
    exact Or.inl (hkept
      (transitionAutoOwned_guarded (by decide) (by decide) (Option.some.inj h)).toRecoveryOnly)
  | consumeAutoResume =>
    simp only [call] at h
    split_ifs at h
    all_goals
      rcases consumeAutoResume_cases (Option.some.inj h) with rfl | ⟨-, trial, automatic, rfl⟩
      · exact Or.inl (.of_eq rfl)
      · exact Or.inl (dropClaims_released rfl)
  | resetAutoResume =>
    exact Or.inl (hkept
      (transitionAutoOwned_guarded (by decide) (by decide) (Option.some.inj h)).toRecoveryOnly)

end SafetyLedger

end McpTelegram
