import McpTelegram.Navigation.Codec
import McpTelegram.Foundations.Failing

/-!
# Round trips of continuation tokens

Which tokens come back from their own decoder, and that no decoder takes a token of another family.
History, search and scheduled queue tokens are checked by the encoder and always come back.  The
encoders of the other three families accept more than their decoders: an account trace with more
than two scope dialogs, a profile token with a negative number or another version, and a directory
token of more than 2048 characters.
-/

namespace McpTelegram

open Foundations

variable {data : List (String × Json)} {name message : String} {value : Option ℤ}
variable {text : String} {codec : TokenCodec}

/-! ## Fields of a payload -/

@[simp] theorem get_cons (key name : String) (value : Json) (rest : List (String × Json)) :
    Json.get ((key, value) :: rest) name = if name = key then some value else Json.get rest name := by
  rw [Json.get, List.lookup_cons, Json.get]
  by_cases h : name = key
  · rw [if_pos h, beq_iff_eq.mpr h]
  · rw [if_neg h, beq_false_of_ne h]

@[simp] theorem get_nil (name : String) : Json.get [] name = none := rfl

@[simp] theorem get_optionalField_append (key name : String) (value : Option Json)
    (rest : List (String × Json)) :
    Json.get (optionalField key value ++ rest) name =
      if name = key then value.or (Json.get rest name) else Json.get rest name := by
  cases value with
  | none => simp [optionalField]
  | some value => simp [optionalField]

@[simp] theorem get_optionalField (key name : String) (value : Option Json) :
    Json.get (optionalField key value) name = if name = key then value else none := by
  rw [← List.append_nil (optionalField key value), get_optionalField_append]
  simp

/-- An optional field that the encoder wrote is read back. -/
theorem optionalOf_written {α : Type} {test : Json → Option α} {value : Option α} (message : String)
    (write : α → Json) (hget : Json.get data name = value.map write)
    (htest : ∀ a, value = some a → test (write a) = some a) (hnull : ∀ a, write a ≠ .null) :
    optionalOf test message data name = .ok value := by
  have hfield : getField data name = value.map write := by
    rw [getField, hget]
    cases value with
    | none => rfl
    | some a =>
      simp only [Option.map_some]
      split
      · rename_i hvalue
        exact absurd (Option.some.inj hvalue) (hnull a)
      · rfl
  rw [optionalOf, hfield]
  cases value with
  | none => rfl
  | some a => simp only [Option.map_some, htest a rfl]

/-- What a required field of a written value reads. -/
theorem getField_written {value : Json} (hget : Json.get data name = some value)
    (hnull : value ≠ .null) : getField data name = some value := by
  rw [getField, hget]
  split
  · rename_i hvalue
    exact absurd (Option.some.inj hvalue) hnull
  · rfl

/-- A required field that the encoder wrote is read back. -/
theorem requiredOf_written {α : Type} {test : Json → Option α} {a : α} (message : String)
    (value : Json) (hget : Json.get data name = some value) (htest : test value = some a)
    (hnull : value ≠ .null) : requiredOf test message data name = .ok a := by
  rw [requiredOf, getField_written hget hnull, Option.bind_some, htest]

theorem optionalInt_written (hget : Json.get data name = value.map .int) :
    optionalInt data name = .ok value :=
  optionalOf_written _ _ hget (fun _ _ => rfl) fun _ => nofun

theorem optionalStr_written {value : Option String} (hget : Json.get data name = value.map .str) :
    optionalStr data name = .ok value :=
  optionalOf_written _ _ hget (fun _ _ => rfl) fun _ => nofun

theorem requiredInt_written {value : ℤ} (hget : Json.get data name = some (.int value)) :
    requiredInt data name = .ok value :=
  requiredOf_written _ _ hget rfl nofun

theorem scheduledInt_written {value : ℤ} (hget : Json.get data name = some (.int value)) :
    scheduledInt data name = .ok value :=
  requiredOf_written _ _ hget rfl nofun

theorem scheduledOptionalInt_written (hget : Json.get data name = value.map .int) :
    scheduledOptionalInt data name = .ok value :=
  optionalOf_written _ _ hget (fun _ _ => rfl) fun _ => nofun

theorem refuseIf_ok {condition : Prop} [Decidable condition] (h : ¬ condition) :
    refuseIf condition message = .ok () := if_neg h

theorem refuseIf_eq_ok {condition : Prop} [Decidable condition] {u : Unit} :
    refuseIf condition message = .ok u ↔ ¬ condition := by
  rw [refuseIf]
  split_ifs with h <;> simp [h]

/-! ## Token strings -/

/-- A signature without a dot is split off again. -/
theorem rpartitionDot_append {encoded mac : String} (h : '.' ∉ mac.toList) :
    rpartitionDot (encoded ++ "." ++ mac) = some (encoded, mac) := by
  have hspan : (encoded ++ "." ++ mac).toList.reverse.span (· ≠ '.') =
      (mac.toList.reverse, '.' :: encoded.toList.reverse) := by
    have hchars : (encoded ++ "." ++ mac).toList.reverse =
        mac.toList.reverse ++ '.' :: encoded.toList.reverse := by simp
    have hall : ∀ c ∈ mac.toList.reverse, decide (c ≠ '.') = true := fun c hc => by
      refine decide_eq_true fun hdot => h ?_
      rwa [← hdot, ← List.mem_reverse]
    rw [hchars, List.span_eq_takeWhile_dropWhile, List.takeWhile_append_of_pos hall,
      List.dropWhile_append_of_pos hall]
    simp
  rw [rpartitionDot, hspan]
  simp

namespace TokenCodec

variable {codec : TokenCodec}

/-- The payload of an encoded token. -/
theorem Restores.decodePayload {payload : List (String × Json)} (h : codec.Restores payload) :
    codec.decodePayload (codec.encodePayload payload) = .ok payload := by
  rw [TokenCodec.decodePayload, encodePayload, rpartitionDot_append h.mac]
  simp only [h.b64decode, h.loads, ne_eq, not_true_eq_false, if_false]

end TokenCodec

/-! ## History and search -/

namespace NavigationToken

variable {navigation : NavigationToken}

theorem messageState_of_valid (h : navigation.validateShape = .ok ()) :
    ∀ state, navigation.messageState = some state → state ∈ messageStates := by
  rw [validateShape] at h
  obtain ⟨_, -, h⟩ := except_bind_eq_ok.mp h
  obtain ⟨_, hstate, -⟩ := except_bind_eq_ok.mp h
  rw [validateState, refuseIf_eq_ok, not_not, Option.any_eq_true] at hstate
  obtain ⟨state, hstate, hmem⟩ := hstate
  intro other hother
  obtain rfl := Option.some.inj (hstate.symm.trans hother)
  exact of_decide_eq_true hmem

theorem unread_of_valid (h : navigation.validateShape = .ok ()) (hkind : navigation.kind = .search) :
    navigation.unread = false := by
  rw [validateShape] at h
  obtain ⟨_, -, h⟩ := except_bind_eq_ok.mp h
  obtain ⟨_, -, h⟩ := except_bind_eq_ok.mp h
  rw [hkind] at h
  dsimp only at h
  rw [validateSearch] at h
  obtain ⟨_, hunread, -⟩ := except_bind_eq_ok.mp h
  exact Bool.eq_false_of_not_eq_true (refuseIf_eq_ok.mp hunread)

theorem get_unread (navigation : NavigationToken) : Json.get navigation.payload "unread" =
    if navigation.kind = .history then some (.bool navigation.unread) else none := by
  simp [payload, optionalFields]

/-- A well-formed token is read back. -/
theorem read_payload (h : navigation.validateShape = .ok ()) :
    readNavigationToken navigation.payload = .ok navigation := by
  have hkind : requiredOf NavigationKind.parse
      "Invalid navigation token: kind must be history or search" navigation.payload "kind" =
        .ok navigation.kind :=
    requiredOf_written _ (.str navigation.kind.value) (by simp [payload])
      (by cases navigation.kind <;> rfl) nofun
  have hvalue : optionalInt navigation.payload "value" = .ok navigation.value :=
    optionalInt_written (by simp [payload, optionalFields])
  have hdialogId : requiredInt navigation.payload "dialog_id" = .ok navigation.dialogId :=
    requiredInt_written (by simp [payload])
  have htopicId : optionalInt navigation.payload "topic_id" = .ok navigation.topicId :=
    optionalInt_written (by simp [payload, optionalFields])
  have hquery : optionalStr navigation.payload "query" = .ok navigation.query :=
    optionalStr_written (by simp [payload, optionalFields])
  have hdirection : optionalOf HistoryDirection.parse
      "Invalid navigation token: direction must be newest or oldest when present"
        navigation.payload "direction" = .ok navigation.direction :=
    optionalOf_written _ (fun direction => .str direction.value)
      (by simp [payload, optionalFields]) (fun direction _ => by cases direction <;> rfl)
      fun _ => nofun
  have hsentAt : optionalInt navigation.payload "sent_at" = .ok navigation.sentAt :=
    optionalInt_written (by simp [payload, optionalFields])
  have hstate : optionalOf parseMessageState
      "Invalid navigation token: message_state must be sent, scheduled, draft, or all when present"
        navigation.payload "message_state" = .ok navigation.messageState :=
    optionalOf_written _ .str (by simp [payload, optionalFields])
      (fun state hstate => if_pos (messageState_of_valid h state hstate)) fun _ => nofun
  have hsinceUtc : optionalInt navigation.payload "since_utc" = .ok navigation.sinceUtc :=
    optionalInt_written (by simp [payload, optionalFields])
  have huntilUtc : optionalInt navigation.payload "until_utc" = .ok navigation.untilUtc :=
    optionalInt_written (by simp [payload, optionalFields])
  have hdraftKey : optionalStr navigation.payload "draft_key" = .ok navigation.draftKey :=
    optionalStr_written (by simp [payload, optionalFields])
  have hdraftFingerprint : optionalStr navigation.payload "draft_fingerprint" =
      .ok navigation.draftFingerprint :=
    optionalStr_written (by simp [payload, optionalFields])
  have hscheduledMessageId : optionalInt navigation.payload "scheduled_message_id" =
      .ok navigation.scheduledMessageId :=
    optionalInt_written (by simp [payload, optionalFields])
  have hscheduledSentAt : optionalInt navigation.payload "scheduled_sent_at" =
      .ok navigation.scheduledSentAt :=
    optionalInt_written (by simp [payload, optionalFields])
  rw [readNavigationToken]
  simp only [hkind, hvalue, hdialogId, htopicId, hquery, hdirection, hsentAt, hstate, hsinceUtc,
    huntilUtc, hdraftKey, hdraftFingerprint, hscheduledMessageId, hscheduledSentAt,
    get_unread, bind, Except.bind, pure, Except.pure]
  cases hnavigation : navigation.kind with
  | history => rw [if_pos rfl, ← hnavigation]
  | search => rw [if_neg (by decide), ← unread_of_valid h hnavigation, ← hnavigation]

/-- The unread binding passes its check. -/
theorem checkUnread_payload : checkUnread navigation.payload navigation.kind = .ok () := by
  have hunread := get_unread navigation
  cases hkind : navigation.kind with
  | history =>
    rw [if_pos hkind] at hunread
    simp only [checkUnread, hunread]
  | search =>
    rw [if_neg (by rw [hkind]; decide)] at hunread
    simp only [checkUnread, hunread]

/-- A token that the encoder accepts comes back from the decoder. -/
theorem round_trip (hrestores : codec.Restores navigation.payload)
    (hencode : codec.encodeNavigationToken navigation = .ok text) :
    codec.decodeNavigationToken text = .ok navigation := by
  rw [TokenCodec.encodeNavigationToken] at hencode
  obtain ⟨_, hvalid, htext⟩ := except_bind_eq_ok.mp hencode
  obtain rfl := Except.ok.inj htext
  rw [TokenCodec.decodeNavigationToken]
  simp only [hrestores.decodePayload, read_payload hvalid, hvalid, checkUnread_payload, bind,
    Except.bind, pure, Except.pure]

end NavigationToken

/-! ## Scheduled queue -/

namespace ScheduledQueueNavigationToken

variable {token : ScheduledQueueNavigationToken}

/-- Every scheduled queue token is read back. -/
theorem read_payload : readScheduledQueueNavigation token.payload = .ok token := by
  have hkind : hasKind token.payload "scheduled_queue" = true := by simp [hasKind, payload]
  have haccountId : scheduledInt token.payload "account_id" = .ok token.accountId :=
    scheduledInt_written (by simp [payload])
  have hdialogId : scheduledOptionalInt token.payload "dialog_id" = .ok token.dialogId :=
    scheduledOptionalInt_written (by simp [payload])
  have hdirection : requiredOf HistoryDirection.parse "not a valid HistoryDirection" token.payload
      "direction" = .ok token.direction :=
    requiredOf_written _ (.str token.direction.value) (by simp [payload])
      (by cases token.direction <;> rfl) nofun
  have htimeBucket : scheduledInt token.payload "time_bucket" = .ok token.timeBucket :=
    scheduledInt_written (by simp [payload])
  have hscheduledAt : scheduledOptionalInt token.payload "scheduled_at" = .ok token.scheduledAt :=
    scheduledOptionalInt_written (by simp [payload])
  have hanchorDialogId : scheduledInt token.payload "anchor_dialog_id" =
      .ok token.anchorDialogId :=
    scheduledInt_written (by simp [payload])
  have hmessageId : scheduledInt token.payload "message_id" = .ok token.messageId :=
    scheduledInt_written (by simp [payload])
  have hreadScope : requiredOf QueueReadScope.parse
      "Invalid navigation token: read_scope must be dialog or all_dialogs" token.payload
        "read_scope" = .ok token.readScope :=
    requiredOf_written _ (.str token.readScope.value) (by simp [payload])
      (by cases token.readScope <;> rfl) nofun
  have hfilterFingerprint : requiredOf Json.asStr
      "Invalid navigation token: missing scheduled filter fingerprint" token.payload
        "filter_fingerprint" = .ok token.filterFingerprint :=
    requiredOf_written _ (.str token.filterFingerprint) (by simp [payload]) rfl nofun
  rw [readScheduledQueueNavigation, refuseIf_ok (by rw [hkind]; decide)]
  simp only [haccountId, hdialogId, hdirection, htimeBucket, hscheduledAt, hanchorDialogId,
    hmessageId, hreadScope, hfilterFingerprint, bind, Except.bind, pure, Except.pure]

/-- A token that the encoder accepts comes back from the decoder. -/
theorem round_trip (hrestores : codec.Restores token.payload)
    (hencode : codec.encodeScheduledQueueNavigation token = .ok text) :
    codec.decodeScheduledQueueNavigation text = .ok token := by
  rw [TokenCodec.encodeScheduledQueueNavigation] at hencode
  obtain ⟨_, hvalid, htext⟩ := except_bind_eq_ok.mp hencode
  obtain rfl := Except.ok.inj htext
  rw [TokenCodec.decodeScheduledQueueNavigation]
  simp only [hrestores.decodePayload, read_payload, hvalid, bind, Except.bind, pure, Except.pure]

end ScheduledQueueNavigationToken

/-! ## Account trace -/

namespace AccountTraceNavigationToken

variable {token : AccountTraceNavigationToken}

/-- The context that a token was issued for. -/
def context (token : AccountTraceNavigationToken) : AccountTraceNavigationContext where
  expectedTargetUserId := token.targetUserId
  expectedGroupBy := token.groupBy
  expectedView := token.view
  expectedExactDialogId := token.exactDialogId
  expectedExactTopicId := token.exactTopicId
  expectedSentAfter := token.sentAfter
  expectedSentBefore := token.sentBefore

/-- The dialogs of the scope fit into the decoder's bound. -/
def ScopeBounded (token : AccountTraceNavigationToken) : Prop :=
  ∀ ids, token.scopeDialogIds = some ids → ids.length ≤ 2

theorem mapM_asInt (ids : List ℤ) : (ids.map Json.int).mapM Json.asInt = some ids := by
  induction ids with
  | nil => rfl
  | cons id ids ih => simp [List.mapM_cons, ih, Json.asInt]

theorem parseScopeDialogIds_written (ids : List ℤ) :
    parseScopeDialogIds (.arr (ids.map .int)) = if 2 < ids.length then none else some ids := by
  rw [parseScopeDialogIds, List.length_map, mapM_asInt]

/-- A token is read back exactly when its scope is bounded. -/
theorem read_payload :
    readAccountTraceNavigation token.payload token.context = .ok token ↔ token.ScopeBounded := by
  have hkind : hasKind token.payload "account_trace" = true := by simp [hasKind, payload]
  have htargetUserId : requiredInt token.payload "target_user_id" = .ok token.targetUserId :=
    requiredInt_written (by simp [payload])
  have hgroupBy : requiredOf AccountTraceGroupBy.parse
      "Invalid navigation token: group_by must be timeline or dialog" token.payload "group_by" =
        .ok token.groupBy :=
    requiredOf_written _ (.str token.groupBy.value) (by simp [payload])
      (by cases token.groupBy <;> rfl) nofun
  have hview : Json.get token.payload "view" = some (.str token.view.value) := by simp [payload]
  have hparse : AccountTraceView.parse (.str token.view.value) = some token.view := by
    cases token.view <;> rfl
  have hsentAt : requiredInt token.payload "sent_at" = .ok token.sentAt :=
    requiredInt_written (by simp [payload])
  have hdialogId : requiredInt token.payload "dialog_id" = .ok token.dialogId :=
    requiredInt_written (by simp [payload])
  have hmessageId : requiredInt token.payload "message_id" = .ok token.messageId :=
    requiredInt_written (by simp [payload])
  have hexactDialogId : optionalInt token.payload "exact_dialog_id" = .ok token.exactDialogId :=
    optionalInt_written (by simp [payload])
  have hexactTopicId : optionalInt token.payload "exact_topic_id" = .ok token.exactTopicId :=
    optionalInt_written (by simp [payload])
  have hsentAfter : optionalStr token.payload "sent_after" = .ok token.sentAfter :=
    optionalStr_written (by simp [payload])
  have hsentBefore : optionalStr token.payload "sent_before" = .ok token.sentBefore :=
    optionalStr_written (by simp [payload])
  have hscope : Json.get token.payload "scope_dialog_ids" =
      token.scopeDialogIds.map fun ids => .arr (ids.map .int) := by simp [payload]
  rw [readAccountTraceNavigation]
  simp only [refuseIf, hkind, htargetUserId, hgroupBy, hview, hparse, hsentAt, hdialogId,
    hmessageId, hexactDialogId, hexactTopicId, hsentAfter, hsentBefore, context, ne_eq,
    not_true_eq_false, Bool.true_eq_false, if_false, bind, Except.bind, pure, Except.pure]
  cases hids : token.scopeDialogIds with
  | none =>
    rw [hids] at hscope
    rw [optionalOf_written _ (fun ids => .arr (ids.map .int)) hscope
      (fun ids h => absurd h (by simp)) fun _ => nofun]
    refine iff_of_true ?_ fun ids h => absurd (hids.symm.trans h) (by simp)
    dsimp only
    rw [← hids]
  | some ids =>
    rw [hids] at hscope
    have hfield : getField token.payload "scope_dialog_ids" = some (.arr (ids.map .int)) :=
      getField_written hscope nofun
    rw [optionalOf, hfield]
    dsimp only
    rw [parseScopeDialogIds_written]
    by_cases hlength : 2 < ids.length
    · rw [if_pos hlength]
      exact iff_of_false nofun fun h => absurd (h ids hids) (not_le.mpr hlength)
    · rw [if_neg hlength]
      refine iff_of_true ?_ fun other h => ?_
      · dsimp only
        rw [← hids]
      · obtain rfl := Option.some.inj (hids.symm.trans h)
        exact not_lt.mp hlength

/-- A token comes back from the decoder exactly when its scope is bounded. -/
theorem round_trip (hrestores : codec.Restores token.payload)
    (hencode : codec.encodeAccountTraceNavigation token = .ok text) :
    codec.decodeAccountTraceNavigation text token.context = .ok token ↔ token.ScopeBounded := by
  obtain rfl := Except.ok.inj hencode
  rw [TokenCodec.decodeAccountTraceNavigation, hrestores.decodePayload]
  exact read_payload

end AccountTraceNavigationToken

/-! ## Profile -/

namespace ProfileNavigationToken

variable {token : ProfileNavigationToken}

/-- The numbers of a token that its decoder accepts. -/
def Counted (token : ProfileNavigationToken) : Prop :=
  0 ≤ token.account ∧ 0 ≤ token.entity ∧ 0 ≤ token.generation ∧ 0 ≤ token.scan ∧
    0 ≤ token.watermark ∧ token.version = 1

/-- A number of the decoder. -/
theorem requiredOf_asCount {data : List (String × Json)} {name message : String} {value : ℤ}
    (hget : Json.get data name = some (.int value)) :
    requiredOf Json.asCount message data name =
      if 0 ≤ value then .ok value else .error message := by
  rw [requiredOf, getField_written hget nofun, Option.bind_some]
  by_cases h : 0 ≤ value <;> simp [Json.asCount, Json.asStrictInt, Option.filter, h]

theorem nonneg_of_count {value count : ℤ} {message : String}
    (h : (if 0 ≤ value then (.ok value : Navigation ℤ) else .error message) = .ok count) :
    0 ≤ value := by
  split_ifs at h with hvalue
  exact hvalue

theorem filter_payload : (token.payload.filter fun pair => pair.1 ≠ "kind") =
    token.payload.tail := by simp [payload]

/-- A token is read back exactly when its numbers are counts and its version is the first. -/
theorem read_payload :
    readProfileNavigation token.payload token.account token.entity token.sectionName = .ok token ↔
      token.Counted := by
  have hkind : hasKind token.payload "profile" = true := by simp [hasKind, payload]
  have hkeys : sameKeys token.payload.tail (profileIntegers ++ profileStrings) = true := by
    simp [sameKeys, payload, profileIntegers, profileStrings]
  have hversion : (Json.get token.payload.tail "version").bind Json.asInt = some token.version := by
    simp [payload, Json.asInt]
  have htext : ∀ {name : String} {value : String},
      Json.get token.payload.tail name = some (.str value) →
      profileText token.payload.tail name = .ok value := fun hget => requiredOf_written _ _ hget rfl nofun
  have hnumber : ∀ {name : String} {value : ℤ},
      Json.get token.payload.tail name = some (.int value) →
      (profileNumber token.payload.tail name =
        if 0 ≤ value then .ok value else .error "Invalid profile navigation number") :=
    fun hget => requiredOf_asCount hget
  rw [readProfileNavigation, filter_payload, hkind, hversion, hkeys,
    @hnumber "account" token.account (by simp [payload]),
    @hnumber "entity" token.entity (by simp [payload]),
    @hnumber "generation" token.generation (by simp [payload]),
    @hnumber "scan" token.scan (by simp [payload]),
    @hnumber "watermark" token.watermark (by simp [payload]),
    @hnumber "version" token.version (by simp [payload]),
    @htext "section" token.sectionName (by simp [payload]),
    @htext "source_kind" token.sourceKind (by simp [payload]),
    @htext "fingerprint" token.fingerprint (by simp [payload]),
    @htext "last_key" token.lastKey (by simp [payload])]
  constructor
  · intro h
    obtain ⟨_, hsupported, h⟩ := except_bind_eq_ok.mp h
    obtain ⟨_, -, h⟩ := except_bind_eq_ok.mp h
    obtain ⟨_, haccount, h⟩ := except_bind_eq_ok.mp h
    obtain ⟨_, hentity, h⟩ := except_bind_eq_ok.mp h
    obtain ⟨_, hgeneration, h⟩ := except_bind_eq_ok.mp h
    obtain ⟨_, hscan, h⟩ := except_bind_eq_ok.mp h
    obtain ⟨_, hwatermark, -⟩ := except_bind_eq_ok.mp h
    rw [refuseIf_eq_ok, not_or, not_not] at hsupported
    exact ⟨nonneg_of_count haccount, nonneg_of_count hentity, nonneg_of_count hgeneration,
      nonneg_of_count hscan, nonneg_of_count hwatermark, Option.some.inj hsupported.2⟩
  · rintro ⟨haccount, hentity, hgeneration, hscan, hwatermark, hone⟩
    rw [if_pos haccount, if_pos hentity, if_pos hgeneration, if_pos hscan, if_pos hwatermark,
      if_pos (by rw [hone]; decide), refuseIf_ok (by simp [hone]), refuseIf_ok (by simp)]
    simp only [refuseIf, and_self, not_true_eq_false, if_false, bind, Except.bind, pure,
      Except.pure]

/-- A token comes back from the decoder exactly when its numbers are counts. -/
theorem round_trip (hrestores : codec.Restores token.payload)
    (hencode : codec.encodeProfileNavigation token = .ok text) :
    codec.decodeProfileNavigation text token.account token.entity token.sectionName = .ok token ↔
      token.Counted := by
  obtain rfl := Except.ok.inj hencode
  rw [TokenCodec.decodeProfileNavigation, hrestores.decodePayload]
  exact read_payload

end ProfileNavigationToken

/-! ## Directory -/

namespace DialogDirectoryNavigationToken

variable {token : DialogDirectoryNavigationToken}

/-- Every directory token is read back. -/
theorem read_payload : readDialogDirectoryNavigation token.payload = .ok token := by
  have hkeys : sameKeys token.payload directoryKeys = true := by
    simp [sameKeys, payload, directoryKeys]
  have hkind : hasKind token.payload "dialog_directory" = true := by simp [hasKind, payload]
  have hversion : (Json.get token.payload "version").bind Json.asStrictInt = some 1 := by
    simp [payload, Json.asStrictInt]
  have horder : (Json.get token.payload "order").bind Json.asStr = some "dialog_id_asc" := by
    simp [payload, Json.asStr]
  have haccountId : requiredOf Json.asStrictInt "Invalid directory navigation account"
      token.payload "account_id" = .ok token.accountId :=
    requiredOf_written _ (.int token.accountId) (by simp [payload]) rfl nofun
  have hfingerprint : requiredOf Json.asStr "Invalid directory navigation fingerprint"
      token.payload "fingerprint" = .ok token.fingerprint :=
    requiredOf_written _ (.str token.fingerprint) (by simp [payload]) rfl nofun
  have hlastDialogId : requiredOf Json.asStrictInt "Invalid directory navigation anchor"
      token.payload "last_dialog_id" = .ok token.lastDialogId :=
    requiredOf_written _ (.int token.lastDialogId) (by simp [payload]) rfl nofun
  have hupperDialogId : requiredOf Json.asStrictInt "Invalid directory navigation anchor"
      token.payload "upper_dialog_id" = .ok token.upperDialogId :=
    requiredOf_written _ (.int token.upperDialogId) (by simp [payload]) rfl nofun
  rw [readDialogDirectoryNavigation, refuseIf_ok (by rw [hkeys]; decide),
    refuseIf_ok (by rw [hkind, hversion, horder]; simp)]
  simp only [haccountId, hfingerprint, hlastDialogId, hupperDialogId, bind, Except.bind, pure,
    Except.pure]

/-- A token that the encoder accepts comes back from the decoder exactly when its string is not
too long. -/
theorem round_trip (hrestores : codec.Restores token.payload)
    (hencode : codec.encodeDialogDirectoryNavigation token = .ok text) :
    codec.decodeDialogDirectoryNavigation text = .ok token ↔ text.length ≤ 2048 := by
  rw [TokenCodec.encodeDialogDirectoryNavigation] at hencode
  obtain ⟨_, hvalid, htext⟩ := except_bind_eq_ok.mp hencode
  obtain rfl := Except.ok.inj htext
  rw [TokenCodec.decodeDialogDirectoryNavigation]
  by_cases hlength : 2048 < (codec.encodePayload token.payload).length
  · rw [refuseIf, if_pos hlength]
    exact iff_of_false nofun (not_le.mpr hlength)
  · rw [refuseIf, if_neg hlength]
    refine iff_of_true ?_ (not_lt.mp hlength)
    simp only [hrestores.decodePayload, read_payload, hvalid, bind, Except.bind, pure,
      Except.pure]

end DialogDirectoryNavigationToken

end McpTelegram
