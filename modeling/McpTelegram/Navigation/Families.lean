import McpTelegram.Navigation.RoundTrip

/-!
# The families of continuation tokens

The five encoders and decoders side by side: which token comes back from its own decoder, and that
the decoder of every other family refuses its string.
-/

namespace McpTelegram

open Foundations

/-- The families of tokens; history and search share one. -/
inductive TokenFamily where
  | navigation | scheduledQueue | accountTrace | profile | dialogDirectory
  deriving DecidableEq

/-- A token of one of the families. -/
inductive ContinuationToken where
  | navigation (token : NavigationToken)
  | scheduledQueue (token : ScheduledQueueNavigationToken)
  | accountTrace (token : AccountTraceNavigationToken)
  | profile (token : ProfileNavigationToken)
  | dialogDirectory (token : DialogDirectoryNavigationToken)

namespace ContinuationToken

/-- The family of a token. -/
def family : ContinuationToken → TokenFamily
  | navigation _ => .navigation
  | scheduledQueue _ => .scheduledQueue
  | accountTrace _ => .accountTrace
  | profile _ => .profile
  | dialogDirectory _ => .dialogDirectory

/-- The payload of a token. -/
def payload : ContinuationToken → List (String × Json)
  | navigation token => token.payload
  | scheduledQueue token => token.payload
  | accountTrace token => token.payload
  | profile token => token.payload
  | dialogDirectory token => token.payload

/-- The kind that a payload names. -/
def kindText : ContinuationToken → String
  | navigation token => token.kind.value
  | scheduledQueue _ => "scheduled_queue"
  | accountTrace _ => "account_trace"
  | profile _ => "profile"
  | dialogDirectory _ => "dialog_directory"

/-- What a token needs to come back from its decoder as the string `text`. -/
def Decodable (text : String) : ContinuationToken → Prop
  | navigation _ => True
  | scheduledQueue _ => True
  | accountTrace token => token.ScopeBounded
  | profile token => token.Counted
  | dialogDirectory _ => text.length ≤ 2048

end ContinuationToken

namespace TokenCodec

variable (codec : TokenCodec)

/-- The encoder of the family of a token. -/
def encode : ContinuationToken → Navigation String
  | .navigation token => codec.encodeNavigationToken token
  | .scheduledQueue token => codec.encodeScheduledQueueNavigation token
  | .accountTrace token => codec.encodeAccountTraceNavigation token
  | .profile token => codec.encodeProfileNavigation token
  | .dialogDirectory token => codec.encodeDialogDirectoryNavigation token

/-- The decoder of the family of a token, called with the context that the token was issued for. -/
def decodeOwn (text : String) : ContinuationToken → Navigation ContinuationToken
  | .navigation _ => (codec.decodeNavigationToken text).map .navigation
  | .scheduledQueue _ => (codec.decodeScheduledQueueNavigation text).map .scheduledQueue
  | .accountTrace token =>
    (codec.decodeAccountTraceNavigation text token.context).map .accountTrace
  | .profile token =>
    (codec.decodeProfileNavigation text token.account token.entity token.sectionName).map .profile
  | .dialogDirectory _ => (codec.decodeDialogDirectoryNavigation text).map .dialogDirectory

/-- The decoder of a family refuses a string, whatever its context. -/
def Rejects (text : String) : TokenFamily → Prop
  | .navigation => ∀ result, codec.decodeNavigationToken text ≠ .ok result
  | .scheduledQueue => ∀ result, codec.decodeScheduledQueueNavigation text ≠ .ok result
  | .accountTrace => ∀ context result, codec.decodeAccountTraceNavigation text context ≠ .ok result
  | .profile => ∀ account entity sectionName result,
      codec.decodeProfileNavigation text account entity sectionName ≠ .ok result
  | .dialogDirectory => ∀ result, codec.decodeDialogDirectoryNavigation text ≠ .ok result

variable {codec} {token : ContinuationToken} {text : String}

/-- The string of an encoded token. -/
theorem text_of_encode (h : codec.encode token = .ok text) :
    text = codec.encodePayload token.payload := by
  cases token with
  | navigation | scheduledQueue | dialogDirectory =>
    obtain ⟨_, -, htext⟩ := except_bind_eq_ok.mp h
    exact (Except.ok.inj htext).symm
  | accountTrace | profile => exact (Except.ok.inj h).symm

/-- Every payload names the kind of its family. -/
theorem get_kind (token : ContinuationToken) :
    Json.get token.payload "kind" = some (.str token.kindText) := by
  cases token <;> simp [ContinuationToken.payload, ContinuationToken.kindText,
    NavigationToken.payload, ScheduledQueueNavigationToken.payload,
    AccountTraceNavigationToken.payload, ProfileNavigationToken.payload,
    DialogDirectoryNavigationToken.payload]

theorem hasKind_payload (token : ContinuationToken) (kind : String) :
    hasKind token.payload kind = (token.kindText == kind) := by
  rw [hasKind, get_kind]

/-- The kind that the decoder of a family asks for; history and search tokens have one of two. -/
def familyKind : TokenFamily → String
  | .navigation => ""
  | .scheduledQueue => "scheduled_queue"
  | .accountTrace => "account_trace"
  | .profile => "profile"
  | .dialogDirectory => "dialog_directory"

theorem kindText_ne {family : TokenFamily} (hfamily : family ≠ token.family) :
    (token.kindText == familyKind family) = false := by
  cases token with
  | navigation token => cases hkind : token.kind <;> cases family <;>
      simp_all [ContinuationToken.kindText, familyKind, ContinuationToken.family,
        NavigationKind.value]
  | scheduledQueue | accountTrace | profile | dialogDirectory => cases family <;>
      simp_all [ContinuationToken.kindText, familyKind, ContinuationToken.family]

/-- No decoder takes the token of another family. -/
theorem rejects_other (hrestores : codec.Restores token.payload) {family : TokenFamily}
    (hfamily : family ≠ token.family) :
    codec.Rejects (codec.encodePayload token.payload) family := by
  have hdata := hrestores.decodePayload
  cases family with
  | navigation =>
    intro result hresult
    obtain ⟨data, hpayload, hresult⟩ := except_bind_eq_ok.mp hresult
    obtain rfl := Except.ok.inj (hdata.symm.trans hpayload)
    obtain ⟨navigation, hread, -⟩ := except_bind_eq_ok.mp hresult
    obtain ⟨kind, hkind, -⟩ := except_bind_eq_ok.mp hread
    rw [requiredOf, getField_written (get_kind token) (fun hnull => by cases hnull),
      Option.bind_some] at hkind
    cases token with
    | navigation token => exact hfamily rfl
    | scheduledQueue token => cases hkind
    | accountTrace token => cases hkind
    | profile token => cases hkind
    | dialogDirectory token => cases hkind
  | scheduledQueue =>
    intro result hresult
    obtain ⟨data, hpayload, hresult⟩ := except_bind_eq_ok.mp hresult
    obtain rfl := Except.ok.inj (hdata.symm.trans hpayload)
    obtain ⟨_, hread, -⟩ := except_bind_eq_ok.mp hresult
    obtain ⟨_, hkind, -⟩ := except_bind_eq_ok.mp hread
    rw [refuseIf_eq_ok, hasKind_payload] at hkind
    exact hkind (kindText_ne hfamily)
  | accountTrace =>
    intro context result hresult
    obtain ⟨data, hpayload, hresult⟩ := except_bind_eq_ok.mp hresult
    obtain rfl := Except.ok.inj (hdata.symm.trans hpayload)
    obtain ⟨_, hkind, -⟩ := except_bind_eq_ok.mp hresult
    rw [refuseIf_eq_ok, hasKind_payload] at hkind
    exact hkind (kindText_ne hfamily)
  | profile =>
    intro account entity sectionName result hresult
    obtain ⟨data, hpayload, hresult⟩ := except_bind_eq_ok.mp hresult
    obtain rfl := Except.ok.inj (hdata.symm.trans hpayload)
    obtain ⟨_, hkind, -⟩ := except_bind_eq_ok.mp hresult
    rw [refuseIf_eq_ok, hasKind_payload] at hkind
    exact hkind (Or.inl (kindText_ne hfamily))
  | dialogDirectory =>
    intro result hresult
    obtain ⟨_, -, hresult⟩ := except_bind_eq_ok.mp hresult
    obtain ⟨data, hpayload, hresult⟩ := except_bind_eq_ok.mp hresult
    obtain rfl := Except.ok.inj (hdata.symm.trans hpayload)
    obtain ⟨_, hread, -⟩ := except_bind_eq_ok.mp hresult
    obtain ⟨_, -, hread⟩ := except_bind_eq_ok.mp hread
    obtain ⟨_, hkind, -⟩ := except_bind_eq_ok.mp hread
    rw [refuseIf_eq_ok, hasKind_payload] at hkind
    exact hkind (Or.inl (kindText_ne hfamily))

/-- A mapped result. -/
theorem map_eq_ok_iff {α β : Type} {f : α → β} (hf : Function.Injective f) {x : Navigation α}
    {a : α} : x.map f = .ok (f a) ↔ x = .ok a := by
  cases x with
  | error message => exact iff_of_false nofun nofun
  | ok b => exact ⟨fun h => congrArg _ (hf (Except.ok.inj h)), fun h => congrArg _ h⟩

/-- A token that its encoder accepts comes back from its own decoder exactly when it is `Decodable`:
always for history, search and the scheduled queue; for an account trace when its scope has at most
two dialogs; for a profile token when its numbers are counts and its version is 1; for a directory
token when its string has at most 2048 characters.  Every other family's decoder refuses it. -/
theorem tokens_round_trip (codec : TokenCodec) (token : ContinuationToken) (text : String)
    (hrestores : codec.Restores token.payload) (hencode : codec.encode token = .ok text) :
    (codec.decodeOwn text token = .ok token ↔ token.Decodable text) ∧
      ∀ family, family ≠ token.family → codec.Rejects text family := by
  refine ⟨?_, fun family hfamily => ?_⟩
  · cases token with
    | navigation token =>
      rw [decodeOwn, map_eq_ok_iff fun _ _ => ContinuationToken.navigation.inj]
      exact iff_of_true (token.round_trip hrestores hencode) trivial
    | scheduledQueue token =>
      rw [decodeOwn, map_eq_ok_iff fun _ _ => ContinuationToken.scheduledQueue.inj]
      exact iff_of_true (token.round_trip hrestores hencode) trivial
    | accountTrace token =>
      rw [decodeOwn, map_eq_ok_iff fun _ _ => ContinuationToken.accountTrace.inj]
      exact token.round_trip hrestores hencode
    | profile token =>
      rw [decodeOwn, map_eq_ok_iff fun _ _ => ContinuationToken.profile.inj]
      exact token.round_trip hrestores hencode
    | dialogDirectory token =>
      rw [decodeOwn, map_eq_ok_iff fun _ _ => ContinuationToken.dialogDirectory.inj]
      exact token.round_trip hrestores hencode
  · rw [text_of_encode hencode]
    exact rejects_other hrestores hfamily

/-! ## A sample trace -/

/-- A trace whose scope has the given dialogs. -/
def sampleTrace (scope : List ℤ) : AccountTraceNavigationToken where
  targetUserId := 1
  sentAt := 2
  dialogId := -3
  messageId := 4
  groupBy := .timeline
  scopeDialogIds := some scope

/-- The functions on one payload, given its text and the base64 form of that. -/
def sampleCodec (payload : List (String × Json)) (data encoded : String) : TokenCodec where
  dumps _ := data
  loads text := if text = data then some (.obj payload) else none
  b64encode _ := encoded
  b64decode text := if text = encoded then some data else none
  mac _ := "0123456789abcdef"

theorem sampleCodec_restores (payload : List (String × Json)) (data encoded : String) :
    (sampleCodec payload data encoded).Restores payload where
  loads := if_pos rfl
  b64decode := if_pos rfl
  mac := by
    change '.' ∉ "0123456789abcdef".toList
    decide

/-- The codec on the trace with two dialogs. -/
def boundedCodec : TokenCodec :=
  sampleCodec (sampleTrace [-3, -5]).payload
    ("\x7b\"kind\":\"account_trace\",\"target_user_id\":1,\"sent_at\":2,\"dialog_id\":-3,\"message" ++
      "_id\":4,\"group_by\":\"timeline\",\"view\":\"messages\",\"scope_dialog_ids\":[-3,-5]\x7d")
    ("eyJraW5kIjoiYWNjb3VudF90cmFjZSIsInRhcmdldF91c2VyX2lkIjoxLCJzZW50X2F0IjoyLCJkaW" ++
      "Fsb2dfaWQiOi0zLCJtZXNzYWdlX2lkIjo0LCJncm91cF9ieSI6InRpbWVsaW5lIiwidmlldyI6Im1l" ++
      "c3NhZ2VzIiwic2NvcGVfZGlhbG9nX2lkcyI6Wy0zLC01XX0=")

/-- The codec on the trace with three dialogs. -/
def unboundedCodec : TokenCodec :=
  sampleCodec (sampleTrace [-3, -5, -7]).payload
    ("\x7b\"kind\":\"account_trace\",\"target_user_id\":1,\"sent_at\":2,\"dialog_id\":-3,\"message" ++
      "_id\":4,\"group_by\":\"timeline\",\"view\":\"messages\",\"scope_dialog_ids\":[-3,-5,-7]\x7d")
    ("eyJraW5kIjoiYWNjb3VudF90cmFjZSIsInRhcmdldF91c2VyX2lkIjoxLCJzZW50X2F0IjoyLCJkaW" ++
      "Fsb2dfaWQiOi0zLCJtZXNzYWdlX2lkIjo0LCJncm91cF9ieSI6InRpbWVsaW5lIiwidmlldyI6Im1l" ++
      "c3NhZ2VzIiwic2NvcGVfZGlhbG9nX2lkcyI6Wy0zLC01LC03XX0=")

theorem tokens_round_trip_sample :
    ∃ text, boundedCodec.encode (.accountTrace (sampleTrace [-3, -5])) = .ok text ∧
      boundedCodec.decodeOwn text (.accountTrace (sampleTrace [-3, -5])) =
        .ok (.accountTrace (sampleTrace [-3, -5])) ∧
      boundedCodec.Rejects text .navigation := by
  have h := tokens_round_trip boundedCodec (.accountTrace (sampleTrace [-3, -5])) _
    (sampleCodec_restores _ _ _) rfl
  refine ⟨_, rfl, h.1.mpr ?_, h.2 .navigation (by decide)⟩
  intro ids hids
  obtain rfl := Option.some.inj hids
  decide

/-- A trace with three dialogs is encoded, and its decoder refuses the string. -/
theorem unbounded_scope_refused :
    ¬ ∀ (codec : TokenCodec) (token : ContinuationToken) (text : String),
      codec.Restores token.payload → codec.encode token = .ok text →
        codec.decodeOwn text token = .ok token := by
  intro h
  have hrestores : unboundedCodec.Restores (sampleTrace [-3, -5, -7]).payload :=
    sampleCodec_restores _ _ _
  have hencode : unboundedCodec.encodeAccountTraceNavigation (sampleTrace [-3, -5, -7]) =
      .ok (unboundedCodec.encodePayload (sampleTrace [-3, -5, -7]).payload) := rfl
  have hdecoded := (map_eq_ok_iff fun _ _ => ContinuationToken.accountTrace.inj).mp
    (h unboundedCodec (.accountTrace (sampleTrace [-3, -5, -7])) _ hrestores hencode)
  have hbounded := (AccountTraceNavigationToken.round_trip hrestores hencode).mp hdecoded
  exact absurd (hbounded [-3, -5, -7] rfl) (by decide)

end TokenCodec

end McpTelegram
