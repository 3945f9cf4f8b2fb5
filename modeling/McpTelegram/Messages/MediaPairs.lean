import McpTelegram.Messages.Media

/-!
# When the predicates on media pairs agree

A stored media pair is called transcribable by `_is_transcribable_media_pair`, which reads the
first value of a repeated key, while the projection on insert decodes the payload with the last
value of a key.  On a pair that the codec printed the two agree (`transcribable_of_pair`), given
that `json.loads` reads back what `json.dumps` printed.
-/

namespace McpTelegram

variable {pairs : List (String × Json)}

namespace Json

variable {pairs : List (String × Json)} {key : String} {value : Json} {b : Bool}

/-! ## Objects as dictionaries -/

/-- In a dictionary every pair is found by its key. -/
theorem lookup_of_mem (hnodup : (pairs.map Prod.fst).Nodup) (h : (key, value) ∈ pairs) :
    pairs.lookup key = some value := by
  induction pairs with
  | nil => cases h
  | cons pair pairs ih =>
    rw [List.map_cons, List.nodup_cons] at hnodup
    rw [List.lookup_cons]
    rcases List.mem_cons.mp h with rfl | h
    · simp
    · have hne : key ≠ pair.1 := by
        rintro rfl
        exact hnodup.1 (List.mem_map.mpr ⟨_, h, rfl⟩)
      rw [beq_eq_false_iff_ne.mpr hne]
      exact ih hnodup.2 h

theorem mem_of_lookup (h : pairs.lookup key = some value) : (key, value) ∈ pairs := by
  obtain ⟨before, behind, rfl, -⟩ := List.lookup_eq_some_iff.mp h
  simp

/-- `setLast` keeps the keys different. -/
theorem setLast_keys (h : (pairs.map Prod.fst).Nodup) (key : String) (value : Json) :
    ((setLast pairs key value).map Prod.fst).Nodup := by
  rw [setLast]
  split_ifs with hknown
  · have hkeys : (pairs.map fun p => if p.1 == key then (key, value) else p).map Prod.fst =
        pairs.map Prod.fst := by
      rw [List.map_map]
      refine List.map_congr_left fun pair _ => ?_
      simp only [Function.comp_apply]
      split_ifs with hpair
      · exact (beq_iff_eq.mp hpair).symm
      · rfl
    rw [hkeys]
    exact h
  · rw [List.map_append, List.map_singleton]
    refine List.Nodup.append h (List.nodup_singleton key) ?_
    intro other hother hkey
    obtain rfl := List.mem_singleton.mp hkey
    obtain ⟨pair, hpair, rfl⟩ := List.mem_map.mp hother
    exact hknown (List.any_eq_true.mpr ⟨pair, hpair, by simp⟩)

/-- The keys of a dictionary that was built with the last value winning are different. -/
theorem build_setLast_keys (pairs : List (String × Json)) :
    ((build setLast pairs).map Prod.fst).Nodup :=
  List.foldlRecOn (motive := fun dict : List (String × Json) => (dict.map Prod.fst).Nodup) pairs
    (fun dict p => setLast dict p.1 p.2) (b := []) List.nodup_nil
    fun _ hdict pair _ => setLast_keys hdict pair.1 pair.2

/-- A dictionary that was built with the first value winning finds the first value. -/
theorem lookup_build_setFirst (pairs : List (String × Json)) (key : String) :
    (build setFirst pairs).lookup key = pairs.lookup key := by
  suffices h : ∀ dict : List (String × Json),
      (pairs.foldl (fun dict p => setFirst dict p.1 p.2) dict).lookup key =
        (dict.lookup key).or (pairs.lookup key) by
    rw [build, h, List.lookup_nil, Option.none_or]
  induction pairs with
  | nil => exact fun dict => (Option.or_none).symm
  | cons pair pairs ih =>
    intro dict
    rw [List.foldl_cons, ih, setFirst, List.lookup_cons]
    split_ifs with hknown
    · cases hkey : key == pair.1 with
      | false => rfl
      | true =>
        -- the key is known, so its value in the dictionary stands
        obtain ⟨other, hother, hother'⟩ := List.any_eq_true.mp hknown
        have hsome : (dict.lookup key).isSome = true := by
          rw [List.lookup_isSome_iff]
          exact ⟨other, hother, by rw [beq_iff_eq.mp hkey, beq_iff_eq.mp hother', beq_self_eq_true]⟩
        obtain ⟨value, hvalue⟩ := Option.isSome_iff_exists.mp hsome
        rw [hvalue]
        rfl
    · rw [List.lookup_append, List.lookup_cons, List.lookup_nil, Option.or_assoc]
      cases hkey : key == pair.1 with
      | false => rfl
      | true => rfl

/-! ## What loading and sorting do to a pair -/

theorem lookup_loadPairs (set : List (String × Json) → String → Json → List (String × Json))
    (pairs : List (String × Json)) (key : String) :
    (loadPairs set pairs).lookup key = (pairs.lookup key).map (load set) := by
  induction pairs with
  | nil => rfl
  | cons pair pairs ih =>
    obtain ⟨first, value⟩ := pair
    rw [loadPairs, List.lookup_cons, List.lookup_cons]
    cases key == first with
    | false => exact ih
    | true => rfl

/-- Loading makes a truth value of nothing else. -/
theorem load_eq_bool {set : List (String × Json) → String → Json → List (String × Json)}
    (h : load set value = .bool b) : value = .bool b := by
  cases value with
  | bool _ => exact h
  | _ => simp [load] at h

/-- Sorting makes a truth value of nothing else. -/
theorem sortKeys_eq_bool (h : sortKeys value = .bool b) : value = .bool b := by
  cases value with
  | bool _ => exact h
  | _ => simp [sortKeys] at h

theorem mem_sortKeysPairs (h : (key, value) ∈ sortKeysPairs pairs) :
    ∃ original, (key, original) ∈ pairs ∧ sortKeys original = value := by
  induction pairs with
  | nil => cases h
  | cons pair pairs ih =>
    obtain ⟨first, original⟩ := pair
    rw [sortKeysPairs] at h
    rcases List.mem_cons.mp h with heq | h
    · obtain ⟨rfl, rfl⟩ := Prod.mk.inj heq
      exact ⟨original, List.mem_cons_self, rfl⟩
    · obtain ⟨original, hmem, hsort⟩ := ih h
      exact ⟨original, List.mem_cons_of_mem _ hmem, hsort⟩

/-- A truth value that the first-key-wins reading finds in a sorted object stands in the
dictionary that was sorted. -/
theorem lookup_of_sorted {decoded : List (String × Json)} (hnodup : (pairs.map Prod.fst).Nodup)
    (hload : load setFirst (Json.obj pairs).sortKeys = .obj decoded)
    (h : decoded.lookup key = some (.bool b)) : pairs.lookup key = some (.bool b) := by
  rw [sortKeys, load] at hload
  obtain rfl := Json.obj.inj hload
  rw [lookup_build_setFirst, lookup_loadPairs, Option.map_eq_some_iff] at h
  obtain ⟨value, hvalue, hbool⟩ := h
  obtain rfl := load_eq_bool hbool
  have hsorted := (List.perm_insertionSort _ _).mem_iff.mp (mem_of_lookup hvalue)
  obtain ⟨original, hmem, hsort⟩ := mem_sortKeysPairs hsorted
  obtain rfl := sortKeys_eq_bool hsort
  exact lookup_of_mem hnodup hmem

end Json

/-! ## The predicates -/

/-- A copied dictionary, or the empty one, copies again. -/
theorem jsonValue_getD_isSome (pairs : List (String × Json)) :
    (jsonValue ((jsonValue pairs).getD [])).isSome = true := by
  cases h : jsonValue pairs with
  | none => rfl
  | some copy =>
    have hsame : copy = pairs := by
      rw [jsonValue] at h
      split_ifs at h
      exact (Option.some.inj h).symm
    rw [Option.getD_some, hsame, h]
    rfl

/-- What the copy of a dictionary holds, the dictionary holds. -/
theorem lookup_of_jsonValue {key : String} {value : Json}
    (h : ((jsonValue pairs).getD []).lookup key = some value) : pairs.lookup key = some value := by
  rw [jsonValue] at h
  split_ifs at h
  · cases h
  · exact h

theorem jsonValue_keys (h : (pairs.map Prod.fst).Nodup) :
    (((jsonValue pairs).getD []).map Prod.fst).Nodup := by
  rw [jsonValue]
  split_ifs
  · exact List.nodup_nil
  · exact h

namespace JsonText

variable {json : JsonText} {kind payload : Option String}

/-- `json.loads` reads back the text that the codec printed for a stored pair. -/
def ReadsBack (json : JsonText) (kind payload : Option String) : Prop :=
  ∀ fact, json.decodeMediaFact kind payload = some fact →
    json.parse (json.encodeMediaPayload fact) = some (Json.obj fact.payload).sortKeys

/-- The fact that a stored pair decodes to: its kind, and a finite dictionary with different
keys. -/
theorem decodeMediaFact_spec {fact : MediaFact} (h : json.decodeMediaFact kind payload = some fact) :
    kind = some fact.kind ∧ (jsonValue fact.payload).isSome = true ∧
      (fact.payload.map Prod.fst).Nodup := by
  unfold decodeMediaFact at h
  split at h
  · cases h
  · split at h
    · split at h
      · next value hvalue =>
        obtain rfl := Option.some.inj h
        obtain ⟨tree, -, htree⟩ := Option.map_eq_some_iff.mp hvalue
        refine ⟨rfl, jsonValue_getD_isSome value, jsonValue_keys ?_⟩
        cases tree with
        | obj pairs =>
          rw [Json.load] at htree
          obtain rfl := Json.obj.inj htree
          exact Json.build_setLast_keys _
        | _ => simp [Json.load] at htree
      · obtain rfl := Option.some.inj h
        exact ⟨rfl, rfl, List.nodup_nil⟩
    · cases h

/-- What the predicate on stored pairs asks for. -/
theorem isTranscribableMediaPair_spec (h : json.isTranscribableMediaPair kind payload = true) :
    ∃ text tree decoded, payload = some text ∧ json.parse text = some tree ∧
      tree.load Json.setFirst = .obj decoded ∧
      (kind = some "voice" ∨
        kind = some "video" ∧ decoded.lookup "round_message" = some (.bool true)) := by
  rw [isTranscribableMediaPair] at h
  split at h
  · cases h
  next tree htree =>
  obtain ⟨text, htext, hparse⟩ := Option.bind_eq_some_iff.mp htree
  split at h
  · cases h
  split at h
  · next decoded hdecoded =>
    refine ⟨text, tree, decoded, htext, hparse, hdecoded, ?_⟩
    split at h
    · cases h
    · next fact hfact =>
      obtain ⟨hkind, hpayload⟩ : kind = some fact.kind ∧
          fact.payload = (jsonValue decoded).getD [] := by
        unfold decodeMediaDict at hfact
        split at hfact
        · cases hfact
        · split_ifs at hfact
          obtain rfl := Option.some.inj hfact
          exact ⟨rfl, rfl⟩
      rw [isTranscribableTelegramMedia, Bool.and_eq_true, Bool.and_eq_true, Bool.or_eq_true,
        Bool.and_eq_true, beq_iff_eq, beq_iff_eq] at h
      rw [hkind]
      obtain ⟨-, -, hvoice | ⟨hvideo, hround⟩⟩ := h
      · exact Or.inl (congrArg some hvoice)
      · refine Or.inr ⟨congrArg some hvideo, ?_⟩
        split at hround
        · next hlookup =>
          rw [Json.get, hpayload] at hlookup
          exact lookup_of_jsonValue hlookup
        · cases hround
  · cases h

/-- What the codec comparison asks for. -/
theorem isCanonicalMediaPair_spec (h : json.isCanonicalMediaPair kind payload = true) :
    ∃ fact, json.decodeMediaFact kind payload = some fact ∧
      payload = some (json.encodeMediaPayload fact) := by
  unfold isCanonicalMediaPair at h
  split at h
  · next text fact hfact => exact ⟨fact, hfact, congrArg some (beq_iff_eq.mp h).symm⟩
  · cases h

/-- On a pair that the codec printed, the projection on insert agrees with the predicate on stored
pairs. -/
theorem transcribable_of_pair (hcanonical : json.isCanonicalMediaPair kind payload = true)
    (hreads : json.ReadsBack kind payload) (h : json.isTranscribableMediaPair kind payload = true) :
    isTranscribableTelegramMedia (json.decodeMediaFact kind payload) = true := by
  obtain ⟨text, tree, decoded, htext, hparse, hload, hkind⟩ := isTranscribableMediaPair_spec h
  obtain ⟨fact, hfact, hpayload⟩ := isCanonicalMediaPair_spec hcanonical
  obtain ⟨hfactKind, hfinite, hkeys⟩ := decodeMediaFact_spec hfact
  have htree : tree = (Json.obj fact.payload).sortKeys := by
    obtain rfl : text = json.encodeMediaPayload fact := Option.some.inj (htext.symm.trans hpayload)
    exact Option.some.inj (hparse.symm.trans (hreads fact hfact))
  subst htree
  rw [hfact, isTranscribableTelegramMedia, hfinite, Bool.true_and, Bool.or_eq_true,
    Bool.and_eq_true, beq_iff_eq, beq_iff_eq]
  rcases hkind with hvoice | ⟨hvideo, hround⟩
  · exact Or.inl (Option.some.inj (hfactKind.symm.trans hvoice))
  · refine Or.inr ⟨Option.some.inj (hfactKind.symm.trans hvideo), ?_⟩
    rw [Json.get, Json.lookup_of_sorted hkeys hload hround]

end JsonText

end McpTelegram
