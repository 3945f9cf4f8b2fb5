import McpTelegram.Foundations.Dictionary
import McpTelegram.Safety.Recovery

/-!
# The safety record

The durable record of `telegram_rpc.py` and the checks that every stored record passes: the verified
scope, the restriction floor, the intents of outbound attempts, the protection, the recovery trial,
the transport transition and the method episodes.  Checks of the Python types and of the key sets
of the JSON objects are carried by the types here; receipts of older versions, which `_load`
migrates first, are left out.
-/

namespace McpTelegram

open Foundations

/-! ## Telegram methods -/

/-- `RpcEffect`. -/
inductive RpcEffect
  | nonmutatingRead
  | mutation
  | authTransition
  | unclassified
  deriving DecidableEq

/-- `_READ_METHODS`. -/
def readMethods : List String :=
  ["telethon.tl.functions.users.GetUsersRequest:0d91a548",
    "telethon.tl.functions.users.GetFullUserRequest:b60f5918",
    "telethon.tl.functions.users.GetSavedMusicRequest:788d7fe3",
    "telethon.tl.functions.messages.GetFullChatRequest:aeb00b34",
    "telethon.tl.functions.messages.GetChatsRequest:49e9528f",
    "telethon.tl.functions.messages.GetHistoryRequest:4423e6c5",
    "telethon.tl.functions.messages.GetMessagesRequest:63c66506",
    "telethon.tl.functions.messages.GetDialogsRequest:a0f4cb4f",
    "telethon.tl.functions.messages.GetPinnedDialogsRequest:d6b94df2",
    "telethon.tl.functions.messages.GetPeerDialogsRequest:e470bcfd",
    "telethon.tl.functions.messages.GetDialogFiltersRequest:efd48c89",
    "telethon.tl.functions.messages.GetAllDraftsRequest:6a3f8d65",
    "telethon.tl.functions.messages.GetScheduledHistoryRequest:f516760b",
    "telethon.tl.functions.messages.GetScheduledMessagesRequest:bdbb0464",
    "telethon.tl.functions.messages.GetForumTopicsRequest:3ba47bff",
    "telethon.tl.functions.messages.GetForumTopicsByIDRequest:af0a4a08",
    "telethon.tl.functions.messages.GetCustomEmojiDocumentsRequest:d9ab0f54",
    "telethon.tl.functions.messages.GetMessageReactionsListRequest:461b3f48",
    "telethon.tl.functions.messages.GetOutboxReadDateRequest:8c4bfe5d",
    "telethon.tl.functions.messages.SearchRequest:29ee847a",
    "telethon.tl.functions.messages.GetCommonChatsRequest:e40ca104",
    "telethon.tl.functions.channels.GetFullChannelRequest:08736a09",
    "telethon.tl.functions.channels.GetChannelsRequest:0a7f6bbb",
    "telethon.tl.functions.channels.GetParticipantsRequest:77ced9d0",
    "telethon.tl.functions.channels.GetParticipantRequest:a0ab6cc6",
    "telethon.tl.functions.channels.GetMessagesRequest:ad8c9a23",
    "telethon.tl.functions.channels.GetAdminLogRequest:33ddf480",
    "telethon.tl.functions.updates.GetDifferenceRequest:19c2f763",
    "telethon.tl.functions.updates.GetChannelDifferenceRequest:03173d78",
    "telethon.tl.functions.contacts.ResolveUsernameRequest:725afbbc",
    "telethon.tl.functions.contacts.GetContactsRequest:5dd69e12",
    "telethon.tl.functions.photos.GetUserPhotosRequest:91cd32a8",
    "telethon.tl.functions.upload.GetFileRequest:be5335be",
    "telethon.tl.functions.help.GetConfigRequest:c4f9186b",
    "telethon.tl.functions.help.GetAppConfigRequest:61e3f854",
    "telethon.tl.functions.payments.GetSavedStarGiftsRequest:a319e569",
    "telethon.tl.functions.stories.GetPeerStoriesRequest:2c4ada50",
    "telethon.tl.functions.stories.GetPinnedStoriesRequest:5821a5dc",
    "telethon.tl.functions.stories.GetStoriesByIDRequest:5774ca74"]

/-- `_MUTATION_METHODS`. -/
def mutationMethods : List String :=
  ["telethon.tl.functions.messages.SaveDraftRequest:ad0fa15c",
    "telethon.tl.functions.messages.UpdateDialogFilterRequest:1ad4a04a",
    "telethon.tl.functions.contacts.UpdateContactNoteRequest:139f63fb",
    "telethon.tl.functions.contacts.AddContactRequest:d9ba2e54",
    "telethon.tl.functions.contacts.DeleteContactsRequest:096a0e00",
    "telethon.tl.functions.messages.SendMessageRequest:fef48f62",
    "telethon.tl.functions.messages.EditMessageRequest:b106e66c",
    "telethon.tl.functions.messages.DeleteScheduledMessagesRequest:59ae2b16",
    "telethon.tl.functions.messages.TranscribeAudioRequest:269e9a49"]

/-- `_AUTH_METHODS`. -/
def authMethods : List String :=
  ["telethon.tl.functions.auth.LogOutRequest:3e72ba19",
    "telethon.tl.functions.auth.SignInRequest:8d52a951",
    "telethon.tl.functions.auth.SignUpRequest:aac7b717",
    "telethon.tl.functions.auth.SendCodeRequest:a677244f",
    "telethon.tl.functions.auth.ImportAuthorizationRequest:a57a7dad",
    "telethon.tl.functions.auth.ExportAuthorizationRequest:e5bfffcd"]

/-- `rpc_effect`. -/
def rpcEffect (canonicalMethod : String) : RpcEffect :=
  if canonicalMethod ∈ readMethods then .nonmutatingRead
  else if canonicalMethod ∈ mutationMethods then .mutation
  else if canonicalMethod ∈ authMethods then .authTransition
  else .unclassified

/-- `tlobjects` of Telethon: how many constructors it has, and the qualified name of the request
class of a constructor. -/
structure TlObjects where
  size : ℕ
  request : ℕ → Option String

/-- `str.rpartition`: what stands before and after the last separator, if there is one. -/
def rpartition (separator : Char) (text : List Char) : Option (List Char × List Char) :=
  match text.reverse.dropWhile (· ≠ separator) with
  | [] => none
  | _ :: before => some (before.reverse, (text.reverse.takeWhile (· ≠ separator)).reverse)

/-- The digits of a constructor. -/
def hexDigits : List Char := "0123456789abcdef".toList

/-- `int(constructor, 16)`. -/
def hexValue (constructor : List Char) : ℕ :=
  constructor.foldl (fun value c => 16 * value + hexDigits.idxOf c) 0

/-- `_valid_method_key`. -/
def validMethodKey (tlobjects : TlObjects) (method : String) : Bool :=
  method.length ≤ 256 &&
    match rpartition ':' method.toList with
    | none => false
    | some (name, constructor) =>
      constructor.length = 8 && constructor.all (· ∈ hexDigits) &&
        tlobjects.request (hexValue constructor) = some (String.ofList name)

/-! ## Scopes -/

/-- The stages of a transport scope. -/
inductive ScopeStage
  | keyPending
  | transportOnly
  | verified
  deriving DecidableEq

/-- The scope of an intent: the transport and the account it was prepared for. -/
structure IntentScope where
  dcId : ℤ
  keyId : Option ℤ
  accountId : Option ℤ
  deriving DecidableEq

/-- The scope of the record. -/
structure SafetyScope where
  stage : ScopeStage
  dcId : ℤ
  keyId : Option ℤ
  accountId : Option ℤ
  deriving DecidableEq

/-- `{key: scope[key] for key in ("dc_id", "key_id", "account_id")}`. -/
def SafetyScope.binding (scope : SafetyScope) : IntentScope :=
  ⟨scope.dcId, scope.keyId, scope.accountId⟩

/-- `_valid_scope_binding`. -/
def SafetyScope.validBinding (scope : SafetyScope) : Bool :=
  match scope.stage with
  | .keyPending => scope.keyId.isNone && scope.accountId.isNone
  | .transportOnly => scope.keyId.isSome && scope.accountId.isNone
  | .verified => scope.keyId.isSome && scope.accountId.any (0 < ·)

/-- `_validate_safety_scope`. -/
def SafetyScope.valid (scope : SafetyScope) : Bool := 1 ≤ scope.dcId && scope.validBinding

/-- `_valid_intent_scope`. -/
def IntentScope.valid (scope : IntentScope) : Bool :=
  0 < scope.dcId && scope.accountId.all (0 < ·)

/-! ## Floors and method episodes -/

/-- A floor in its three coordinates. -/
structure SafetyFloor where
  bootId : String
  untilMonotonic : ℚ
  untilUtc : ℚ
  remainingSeconds : ℚ
  deriving DecidableEq

/-- `_valid_safety_floor`. -/
def SafetyFloor.valid (floor : SafetyFloor) : Bool :=
  0 ≤ floor.untilMonotonic && 0 ≤ floor.untilUtc && 0 ≤ floor.remainingSeconds

/-- The states of a method episode. -/
inductive EpisodeState
  | live
  | recovered
  deriving DecidableEq

/-- The attempt that holds the single permission of a method episode. -/
structure MethodClaim where
  attemptId : String
  run : String
  deriving DecidableEq

/-- A method episode. -/
structure MethodEpisode where
  state : EpisodeState
  generation : String
  consecutiveActualFloods : ℕ
  consecutiveReadBudgetFailures : ℕ
  floor : SafetyFloor
  claim : Option MethodClaim
  deriving DecidableEq

/-- `_valid_method_claim`. -/
def MethodClaim.valid (claim : MethodClaim) : Bool := claim.attemptId ≠ "" && claim.run ≠ ""

/-- `_valid_method_state`. -/
def validMethodState (state : EpisodeState) (count : ℕ) (claim : Option MethodClaim) : Bool :=
  match state with
  | .live => 1 ≤ count
  | .recovered => count = 0 && claim.isNone

/-- `_valid_method_episode`. -/
def MethodEpisode.valid (episode : MethodEpisode) : Bool :=
  episode.generation ≠ "" &&
    validMethodState episode.state
      (episode.consecutiveActualFloods + episode.consecutiveReadBudgetFailures) episode.claim &&
    episode.floor.valid && episode.claim.all MethodClaim.valid

/-- `_valid_method_episodes`. -/
def validMethodEpisodes (tlobjects : TlObjects) (methods : Dictionary String MethodEpisode) :
    Bool :=
  methods.entries.length ≤ tlobjects.size &&
    Dictionary.all methods fun method episode => validMethodKey tlobjects method && episode.valid

/-! ## Intents -/

/-- The phases of an intent. -/
inductive IntentPhase
  | prepared
  | unknown
  | acknowledgedUnknown
  deriving DecidableEq

/-- The recovery policy that contains an unknown read. -/
structure PolicyRecovery where
  policyVersion : ℕ
  episodeId : String
  grantGeneration : String
  scope : IntentScope
  deriving DecidableEq

/-- `NativeWriteDomain`. -/
inductive NativeWriteDomain
  | folder
  | contactNote
  | contact
  deriving DecidableEq

/-- `NativeWriteReceiptBinding`; the last two fields are what `__post_init__` checks. -/
structure NativeWriteReceiptBinding where
  domain : NativeWriteDomain
  accountId : ℤ
  dcId : ℤ
  keyId : ℤ
  operationKey : String
  action : String
  target : ℤ
  semanticFingerprint : String
  bindingRevision : ℤ
  identity : 0 < accountId ∧ 0 < dcId ∧ 0 < target ∧ 0 < bindingRevision
  fields : operationKey ≠ "" ∧ action ≠ "" ∧ semanticFingerprint ≠ ""
  deriving DecidableEq

/-- The receipt that owns a native write, and whether it contains the unknown outcome. -/
structure NativeReceiptOwner where
  binding : NativeWriteReceiptBinding
  contained : Bool
  deriving DecidableEq

/-- The purposes of an auxiliary bootstrap. -/
inductive AuxPurpose
  | exportAuthorization
  | importAuthorization
  deriving DecidableEq

/-- The identity of a session lock. -/
structure AuxLockScope where
  version : ℤ
  device : ℤ
  inode : ℤ
  deriving DecidableEq

/-- The provenance of an auxiliary bootstrap.  `lock` holds `lock_scope` and `lock_owner_id`, which
are either both present or both absent. -/
structure AuxBootstrap where
  purpose : AuxPurpose
  mainScope : IntentScope
  auxDcId : ℤ
  auxKeyId : ℤ
  leaseId : String
  workId : String
  attemptGeneration : String
  sourceGeneration : String
  contained : Bool
  lock : Option (AuxLockScope × String)
  deriving DecidableEq

/-- Why an unknown read may be repeated. -/
inductive ReadRetry
  | cleanShutdown
  | attemptBudgetExhausted (methodGeneration : String)
  | senderTimeout (methodGeneration : String)
  deriving DecidableEq

/-- An intent: what is durable about an outbound attempt.  The last four fields are the
dispositions, of which at most one is present. -/
structure SafetyIntent where
  method : String
  run : String
  phase : IntentPhase
  scope : IntentScope
  policyRecovery : Option PolicyRecovery := none
  auxBootstrap : Option AuxBootstrap := none
  nativeWriteReceiptOwner : Option NativeReceiptOwner := none
  readRetry : Option ReadRetry := none
  deriving DecidableEq

/-- `functions.messages.UpdateDialogFilterRequest`. -/
def updateDialogFilterRequest : String :=
  "telethon.tl.functions.messages.UpdateDialogFilterRequest:1ad4a04a"

/-- `functions.contacts.UpdateContactNoteRequest`. -/
def updateContactNoteRequest : String :=
  "telethon.tl.functions.contacts.UpdateContactNoteRequest:139f63fb"

/-- `functions.contacts.AddContactRequest`. -/
def addContactRequest : String := "telethon.tl.functions.contacts.AddContactRequest:d9ba2e54"

/-- `functions.contacts.DeleteContactsRequest`. -/
def deleteContactsRequest : String :=
  "telethon.tl.functions.contacts.DeleteContactsRequest:096a0e00"

/-- The methods that a native receipt of a domain may own. -/
def NativeWriteDomain.expected : NativeWriteDomain → List String
  | .folder => [updateDialogFilterRequest]
  | .contactNote => [updateContactNoteRequest]
  | .contact => [addContactRequest, deleteContactsRequest]

/-- `_contact_binding_method_matches`. -/
def NativeWriteReceiptBinding.contactMethodMatches (binding : NativeWriteReceiptBinding)
    (method : String) : Bool :=
  if binding.domain ≠ .contact then true
  else
    binding.action ∈ ["create", "update", "delete"] &&
      method = if binding.action = "delete" then deleteContactsRequest else addContactRequest

/-- `_native_receipt_method_matches`. -/
def NativeWriteReceiptBinding.methodMatches (binding : NativeWriteReceiptBinding)
    (method : String) : Bool :=
  method ∈ binding.domain.expected && binding.contactMethodMatches method

/-- `_valid_native_receipt_owner`. -/
def validNativeReceiptOwner (intent : SafetyIntent) : Bool :=
  match intent.nativeWriteReceiptOwner with
  | none => true
  | some owner =>
    owner.binding.methodMatches intent.method &&
      (⟨owner.binding.dcId, some owner.binding.keyId, some owner.binding.accountId⟩ : IntentScope) =
        intent.scope &&
      (!owner.contained || intent.phase = .unknown)

/-- `_valid_aux_lock_scope`. -/
def AuxLockScope.valid (scope : AuxLockScope) : Bool :=
  scope.version = 1 && 0 ≤ scope.device && 0 < scope.inode

/-- `_valid_aux_lock_owner`. -/
def validAuxLockOwner (owner : String) : Bool :=
  owner.length = 32 && owner.toList.all (· ∈ hexDigits)

/-- `_valid_aux_fields`. -/
def validAuxFields (intent : SafetyIntent) (aux : AuxBootstrap) : Bool :=
  aux.mainScope.keyId.isSome && aux.mainScope.accountId.isSome && 0 < aux.auxDcId &&
    some aux.auxKeyId ≠ aux.mainScope.keyId &&
    [aux.leaseId, aux.workId, aux.attemptGeneration, aux.sourceGeneration].all (· ≠ "") &&
    (!aux.contained || intent.phase = .unknown) &&
    aux.lock.all fun lock => lock.1.valid && validAuxLockOwner lock.2

/-- The method of an auxiliary bootstrap. -/
def AuxPurpose.method : AuxPurpose → String
  | .exportAuthorization =>
    "telethon.tl.functions.auth.ExportAuthorizationRequest:e5bfffcd"
  | .importAuthorization =>
    "telethon.tl.functions.auth.ImportAuthorizationRequest:a57a7dad"

/-- `_valid_aux_provenance`. -/
def validAuxProvenance (intent : SafetyIntent) (aux : AuxBootstrap) : Bool :=
  intent.run ≠ "" && aux.purpose.method = intent.method && aux.mainScope.valid &&
    validAuxFields intent aux &&
    intent.scope =
      match aux.purpose with
      | .exportAuthorization => aux.mainScope
      | .importAuthorization => ⟨aux.auxDcId, some aux.auxKeyId, aux.mainScope.accountId⟩

/-- `_valid_aux_bootstrap`. -/
def validAuxBootstrap (intent : SafetyIntent) : Bool :=
  intent.auxBootstrap.all (validAuxProvenance intent)

/-- `_valid_policy_recovery`. -/
def validPolicyRecovery (intent : SafetyIntent) : Bool :=
  intent.policyRecovery.all fun policy =>
    policy.policyVersion = 1 && policy.episodeId ≠ "" && policy.grantGeneration ≠ "" &&
      policy.scope = intent.scope && policy.scope.valid

/-- `_valid_intent_disposition`. -/
def validIntentDisposition (intent : SafetyIntent) : Bool :=
  intent.policyRecovery.isNone ||
    (intent.phase = .unknown && rpcEffect intent.method = .nonmutatingRead)

/-- The method generation of a repeatable read is present where it must be. -/
def ReadRetry.valid : ReadRetry → Bool
  | .cleanShutdown => true
  | .attemptBudgetExhausted methodGeneration | .senderTimeout methodGeneration =>
    methodGeneration ≠ ""

/-- `_valid_read_retry`. -/
def validReadRetry (intent : SafetyIntent) : Bool :=
  intent.readRetry.all fun retry =>
    retry.valid && intent.phase = .unknown && rpcEffect intent.method = .nonmutatingRead

/-- The key sets that `_valid_safety_intent` accepts: at most one disposition. -/
def SafetyIntent.singleDisposition (intent : SafetyIntent) : Bool :=
  [intent.policyRecovery.isSome, intent.auxBootstrap.isSome,
    intent.nativeWriteReceiptOwner.isSome, intent.readRetry.isSome].count true ≤ 1

/-- `_valid_safety_intent_payload`. -/
def validSafetyIntentPayload (intent : SafetyIntent) : Bool :=
  intent.scope.valid && validPolicyRecovery intent && validAuxBootstrap intent &&
    validNativeReceiptOwner intent && validIntentDisposition intent && validReadRetry intent

/-- `_valid_safety_intent`. -/
def validSafetyIntent (key : String) (intent : SafetyIntent) : Bool :=
  key ≠ "" && intent.singleDisposition && validSafetyIntentPayload intent

/-- `_is_contained_aux`. -/
def isContainedAux (intent : SafetyIntent) : Bool :=
  intent.auxBootstrap.any (·.contained) && intent.phase = .unknown

/-- `_is_contained_native`. -/
def isContainedNative (intent : SafetyIntent) (scope : SafetyScope) : Bool :=
  intent.phase = .unknown && intent.nativeWriteReceiptOwner.any (·.contained) &&
    intent.scope = scope.binding

/-- `_is_scoped_read_retry`. -/
def isScopedReadRetry (intent : SafetyIntent) (scope : SafetyScope) : Bool :=
  scope.stage = .verified && intent.readRetry.isSome && intent.scope = scope.binding

/-- `_is_scoped_contained_aux`. -/
def isScopedContainedAux (intent : SafetyIntent) (scope : SafetyScope) : Bool :=
  isContainedAux intent && intent.auxBootstrap.any (·.mainScope = scope.binding)

/-- `_intent_blocks`. -/
def intentBlocks (intent : SafetyIntent) (scope : SafetyScope) : Bool :=
  if isScopedReadRetry intent scope then false
  else if isContainedNative intent scope then false
  else if isScopedContainedAux intent scope then false
  else
    intent.phase ≠ .acknowledgedUnknown &&
      !(intent.phase = .unknown && intent.policyRecovery.isSome && intent.scope = scope.binding)

/-! ## Recovery trials -/

/-- A count for each cause. -/
structure PolicyCounts where
  floodWait : ℕ := 0
  transient : ℕ := 0
  readUncertainty : ℕ := 0
  deriving DecidableEq

/-- The count of a cause. -/
def PolicyCounts.get (counts : PolicyCounts) : RecoveryCause → ℕ
  | .floodWait => counts.floodWait
  | .transient => counts.transient
  | .readUncertainty => counts.readUncertainty

/-- One more of a cause. -/
def PolicyCounts.increment (counts : PolicyCounts) : RecoveryCause → PolicyCounts
  | .floodWait => { counts with floodWait := counts.floodWait + 1 }
  | .transient => { counts with transient := counts.transient + 1 }
  | .readUncertainty => { counts with readUncertainty := counts.readUncertainty + 1 }

/-- `len(_AUTO_RESUME_DELAYS)`. -/
def autoResumeDelays : ℕ := 6

/-- The automatic part of a recovery trial. -/
structure AutomaticRecovery where
  episodeId : String
  policyVersion : ℕ
  cause : RecoveryCause
  attemptsTotal : ℕ
  attemptsByPolicy : PolicyCounts
  failureStages : PolicyCounts
  quietAnchor : Option SafetyFloor
  scheduledDue : Option SafetyFloor
  boundIntentIds : List String
  lastTransitionKey : Option String
  deriving DecidableEq

/-- The reasons that protect the account: the known ones, and any other stored text. -/
inductive Protection
  | safetyStorageFailure
  | invalidSafetyReceipt
  | safetyAuthScopeMismatch
  | safetyCanonicalOwnerMismatch
  | newKeyConflictsWithOwnedState
  | unresolvedOutboundOutcome
  | transportTransitionIncomplete
  | recoveryTrialIncomplete
  | recoveryTrialFailed
  | floodWaitCircuitOpen
  | transportUnavailable
  | invalidAccountIdentity
  | authenticationTrialFailed
  | authenticationRequired
  | authenticationAccountMismatch
  | automaticResumeExhausted
  | automaticResumeBudgetSpent
  | transportIntegrityFailure
  | other (text : String)
  deriving DecidableEq

/-- A recovery trial, manual or automatic. -/
structure RecoveryTrial where
  generation : String
  state : RecoveryPhase
  scope : SafetyScope
  consumedRun : Option String
  acknowledgedProtection : Option Protection
  automatic : Option AutomaticRecovery
  deriving DecidableEq

/-- `_valid_automatic_counts`. -/
def validAutomaticCounts (automatic : AutomaticRecovery) : Bool :=
  automatic.attemptsByPolicy.floodWait ≤ autoResumeDelays &&
    automatic.attemptsTotal = automatic.attemptsByPolicy.floodWait +
      automatic.attemptsByPolicy.transient + automatic.attemptsByPolicy.readUncertainty

/-- `_valid_bound_intents`. -/
def validBoundIntents (bound : List String) : Bool := bound.all (· ≠ "") && bound.Nodup

/-- `_valid_automatic_metadata`. -/
def validAutomaticMetadata (automatic : AutomaticRecovery) : Bool :=
  automatic.episodeId ≠ "" && automatic.policyVersion = 1 &&
    automatic.quietAnchor.all SafetyFloor.valid && automatic.scheduledDue.all SafetyFloor.valid &&
    validBoundIntents automatic.boundIntentIds && automatic.lastTransitionKey.all (· ≠ "")

/-- `_valid_automatic_state`. -/
def validAutomaticState (automatic : AutomaticRecovery) (state : RecoveryPhase) : Bool :=
  validAutomaticCounts automatic && validAutomaticMetadata automatic &&
    !(state = .waiting && automatic.scheduledDue.isNone)

/-- `_valid_safety_recovery`. -/
def RecoveryTrial.valid (trial : RecoveryTrial) : Bool :=
  trial.automatic.all (validAutomaticState · trial.state) &&
    (trial.state ∈ [.authorized, .consumed, .succeeded, .failed] ||
      (trial.automatic.isSome && trial.state ∈ [.waiting, .fencing, .exhausted])) &&
    trial.scope.valid

/-! ## Transport transitions -/

/-- The purposes of a transport transition. -/
inductive TransitionPurpose
  | dcMigration
  | authentication
  | logout
  deriving DecidableEq

/-- The phases of a transport transition. -/
inductive TransitionPhase
  | prepared
  | keyBound
  | logoutConfirmed
  deriving DecidableEq

/-- A transport transition. -/
structure SafetyTransition where
  purpose : TransitionPurpose
  origin : SafetyScope
  toDc : ℤ
  phase : TransitionPhase
  targetKey : Option ℤ
  ownedGeneration : ℕ
  run : String
  expectedAccount : Option ℤ
  validatedAccount : Option ℤ
  acknowledgedProtection : Option Protection
  deriving DecidableEq

/-- `_valid_transition_key`. -/
def validTransitionKey (phase : TransitionPhase) (key : Option ℤ) : Bool :=
  match phase with
  | .prepared => key.isNone
  | .keyBound => key.isSome
  | .logoutConfirmed => true

/-- `_valid_safety_transition`. -/
def SafetyTransition.valid (transition : SafetyTransition) : Bool :=
  transition.origin.valid && 0 < transition.toDc &&
    validTransitionKey transition.phase transition.targetKey &&
    transition.expectedAccount.all (0 < ·) && transition.validatedAccount.all (0 < ·)

/-! ## The record -/

/-- The safety record. -/
structure SafetyRecord where
  generation : String
  scope : SafetyScope
  floor : SafetyFloor
  intents : Dictionary String SafetyIntent
  protection : Option Protection
  recovery : Option RecoveryTrial
  transition : Option SafetyTransition
  methods : Dictionary String MethodEpisode

/-- `_validate_safety_record`. -/
def validateSafetyRecord (tlobjects : TlObjects) (record : SafetyRecord) : Bool :=
  record.generation ≠ "" && record.floor.valid && record.scope.valid &&
    Dictionary.all record.intents validSafetyIntent && record.recovery.all RecoveryTrial.valid &&
    record.transition.all SafetyTransition.valid && validMethodEpisodes tlobjects record.methods

/-- Some intent of the record blocks: `any(_intent_blocks(item, scope) …)`. -/
def SafetyRecord.unresolved (record : SafetyRecord) : Bool :=
  Dictionary.any record.intents fun _ intent => intentBlocks intent record.scope

end McpTelegram
