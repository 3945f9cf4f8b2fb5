import Mathlib.Tactic

/-!
# Canonical media facts

`media_fact.py` and the predicates of `sqlite_hydration_jobs.py` on stored media pairs.  The text
syntax of JSON is a parameter: `JsonText` holds the parser of `json.loads` before any hook has
seen an object, the printer of `json.dumps`, and the JSON functions of SQLite.  What the code does
with a parsed value is defined here.
-/

namespace McpTelegram

/-- A JSON value.  An object keeps its pairs in order, double keys included, as they are before
`object_pairs_hook` sees them.  A number with a fraction or an exponent is known by its text and by
whether its value is finite; a `constant` is one of `NaN`, `Infinity` and `-Infinity`. -/
inductive Json where
  | null
  | bool (value : Bool)
  | int (value : ℤ)
  | float (finite : Bool) (literal : String)
  | constant (name : String)
  | str (value : String)
  | arr (items : List Json)
  | obj (pairs : List (String × Json))

/-- The JSON text functions that the code calls. -/
structure JsonText where
  /-- The syntax of `json.loads`; `none` when it raises. -/
  parse : String → Option Json
  /-- `json.dumps(…, ensure_ascii=False, separators=(",", ":"))`. -/
  print : Json → String
  /-- SQLite's `json_valid`. -/
  sqlValid : String → Bool
  /-- SQLite's `json_type` of the whole text. -/
  sqlType : String → String
  /-- SQLite's `json_type` at a path. -/
  sqlTypeAt : String → String → Option String

namespace Json

mutual

/-- Equality of values, as `==` decides it for a value and its copy. -/
def beq : Json → Json → Bool
  | null, null => true
  | bool a, bool b => a == b
  | int a, int b => a == b
  | float finite literal, float finite' literal' => finite == finite' && literal == literal'
  | constant a, constant b => a == b
  | str a, str b => a == b
  | arr xs, arr ys => beqItems xs ys
  | obj ps, obj qs => beqPairs ps qs
  | _, _ => false

/-- `beq` on the items of an array. -/
def beqItems : List Json → List Json → Bool
  | [], [] => true
  | x :: xs, y :: ys => beq x y && beqItems xs ys
  | _, _ => false

/-- `beq` on the pairs of an object. -/
def beqPairs : List (String × Json) → List (String × Json) → Bool
  | [], [] => true
  | (k, v) :: ps, (l, w) :: qs => k == l && beq v w && beqPairs ps qs
  | _, _ => false

end

/-- The value of a key. -/
def get (pairs : List (String × Json)) (key : String) : Option Json := pairs.lookup key

/-- A pair put into a `dict`: a known key keeps its place and gets the new value. -/
def setLast (pairs : List (String × Json)) (key : String) (value : Json) :
    List (String × Json) :=
  if pairs.any (·.1 == key) then pairs.map fun p => if p.1 == key then (key, value) else p
  else pairs ++ [(key, value)]

/-- The body of `_first_json_object_key_wins`. -/
def setFirst (pairs : List (String × Json)) (key : String) (value : Json) :
    List (String × Json) :=
  if pairs.any (·.1 == key) then pairs else pairs ++ [(key, value)]

/-- The `dict` that a hook makes of the pairs of an object. -/
def build (set : List (String × Json) → String → Json → List (String × Json))
    (pairs : List (String × Json)) : List (String × Json) :=
  pairs.foldl (fun dict p => set dict p.1 p.2) []

mutual

/-- The value that `json.loads` makes of a syntax tree with a hook for its objects; without
`parse_constant` the extensions become floats that are not finite. -/
def load (set : List (String × Json) → String → Json → List (String × Json)) : Json → Json
  | arr xs => arr (loadItems set xs)
  | obj ps => obj (build set (loadPairs set ps))
  | constant name => float false name
  | null => null
  | bool b => bool b
  | int n => int n
  | float finite literal => float finite literal
  | str s => str s

/-- `load` on the items of an array. -/
def loadItems (set : List (String × Json) → String → Json → List (String × Json)) :
    List Json → List Json
  | [] => []
  | x :: xs => load set x :: loadItems set xs

/-- `load` on the pairs of an object. -/
def loadPairs (set : List (String × Json) → String → Json → List (String × Json)) :
    List (String × Json) → List (String × Json)
  | [] => []
  | (k, v) :: ps => (k, load set v) :: loadPairs set ps

end

mutual

/-- A leaf of the value meets a condition. -/
def anyLeaf (p : Json → Bool) : Json → Bool
  | arr xs => anyLeafItems p xs
  | obj ps => anyLeafPairs p ps
  | null => p null
  | bool b => p (bool b)
  | int n => p (int n)
  | float finite literal => p (float finite literal)
  | constant name => p (constant name)
  | str s => p (str s)

/-- `anyLeaf` on the items of an array. -/
def anyLeafItems (p : Json → Bool) : List Json → Bool
  | [] => false
  | x :: xs => anyLeaf p x || anyLeafItems p xs

/-- `anyLeaf` on the pairs of an object. -/
def anyLeafPairs (p : Json → Bool) : List (String × Json) → Bool
  | [] => false
  | (_, v) :: ps => anyLeaf p v || anyLeafPairs p ps

end

/-- A leaf on which `_json_value` raises: a number that is not finite. -/
def isNonFinite : Json → Bool
  | float finite _ => !finite
  | constant _ => true
  | _ => false

/-- A leaf that `_reject_json_constant` rejects. -/
def isConstant : Json → Bool
  | constant _ => true
  | _ => false

mutual

/-- The order of keys that `sort_keys=True` prints. -/
def sortKeys : Json → Json
  | arr xs => arr (sortKeysItems xs)
  | obj ps => obj ((sortKeysPairs ps).insertionSort fun p q => p.1 ≤ q.1)
  | null => null
  | bool b => bool b
  | int n => int n
  | float finite literal => float finite literal
  | constant name => constant name
  | str s => str s

/-- `sortKeys` on the items of an array. -/
def sortKeysItems : List Json → List Json
  | [] => []
  | x :: xs => sortKeys x :: sortKeysItems xs

/-- `sortKeys` on the pairs of an object. -/
def sortKeysPairs : List (String × Json) → List (String × Json)
  | [] => []
  | (k, v) :: ps => (k, sortKeys v) :: sortKeysPairs ps

end

end Json

/-- `_json_value` of a `dict`: a copy of it; `none` when it raises. -/
def jsonValue (pairs : List (String × Json)) : Option (List (String × Json)) :=
  if (Json.obj pairs).anyLeaf Json.isNonFinite then none else some pairs

/-- `MEDIA_KINDS`. -/
def mediaKinds : List String :=
  ["photo", "video", "audio", "voice", "document", "animation", "sticker", "custom_emoji", "poll",
    "location", "venue", "contact", "link_preview", "game", "invoice", "dice", "story", "other"]

/-- `MediaFact`: a kind and a JSON object. -/
structure MediaFact where
  kind : String
  payload : List (String × Json)

/-- `is_transcribable_telegram_media`. -/
def isTranscribableTelegramMedia (fact : Option MediaFact) : Bool :=
  match fact with
  | none => false
  | some fact =>
    (jsonValue fact.payload).isSome &&
      (fact.kind == "voice" ||
        fact.kind == "video" &&
          match Json.get fact.payload "round_message" with
          | some (.bool true) => true
          | _ => false)

/-- `decode_media_fact` when the payload is a `dict`. -/
def decodeMediaDict (kind : Option String) (payload : List (String × Json)) : Option MediaFact :=
  match kind with
  | none => none
  | some kind =>
    if kind ∈ mediaKinds then some ⟨kind, (jsonValue payload).getD []⟩ else none

namespace JsonText

variable (json : JsonText)

/-- `decode_media_fact` when the payload is a text or `NULL`. -/
def decodeMediaFact (kind : Option String) (payload : Option String) : Option MediaFact :=
  match kind with
  | none => none
  | some kind =>
    if kind ∈ mediaKinds then
      match (payload.bind json.parse).map (Json.load Json.setLast) with
      | some (.obj value) => some ⟨kind, (jsonValue value).getD []⟩
      | _ => some ⟨kind, []⟩
    else none

/-- `encode_media_payload` of a fact whose kind is known and whose payload is finite, as those of
`decode_media_fact` are. -/
def encodeMediaPayload (fact : MediaFact) : String :=
  json.print (Json.obj fact.payload).sortKeys

/-- `_is_canonical_media_pair`. -/
def isCanonicalMediaPair (kind payload : Option String) : Bool :=
  match payload, json.decodeMediaFact kind payload with
  | some text, some fact => json.encodeMediaPayload fact == text
  | _, _ => false

/-- `_is_transcribable_media_pair`. -/
def isTranscribableMediaPair (kind payload : Option String) : Bool :=
  match payload.bind json.parse with
  | none => false
  | some tree =>
    if tree.anyLeaf Json.isConstant then false
    else
      match tree.load Json.setFirst with
      | .obj decoded =>
        match decodeMediaDict kind decoded with
        | none => false
        | some fact =>
          (Json.obj fact.payload).beq (.obj decoded) && isTranscribableTelegramMedia (some fact)
      | _ => false

/-- `_TRANSCRIBABLE_MEDIA_SQL`. -/
def transcribableMediaSql (kind payload : Option String) : Bool :=
  match payload with
  | none => false
  | some text =>
    json.sqlValid text &&
      json.sqlType text == "object" &&
      (kind == some "voice" ||
        kind == some "video" && json.sqlTypeAt text "$.round_message" == some "true")

end JsonText

end McpTelegram
