import Mathlib
import McpTelegram.Export.Checkpoint
import McpTelegram.Foundations.Dictionary

/-!
# The census of an incremental base

`_Census` of `chat_export_checkpoint.py` goes once through the records of a base export.  It checks
that the messages come in the order of an export, and finds for each peer the boundary below which
an incremental export keeps the rows of the base.
-/

namespace McpTelegram

open Foundations

/-! ## The records of a base export -/

/-- What the census reads of a message: the texts of its identifiers (`none` where the field is not
a string), its key if it has one, and the number of reactors (`none` where they are not a list). -/
structure MessageRecord where
  dialogId : Option String
  messageId : Option String
  messageKey : Option (Option String)
  reactors : Option ℕ

/-- What the census reads of an admin event. -/
structure AdminRecord where
  dialogId : Option String
  eventId : Option String

/-- The metadata: the order, and the `dialog_id` of each peer (`none` where the peers are not a
list, or a peer is not an object). -/
structure MetadataRecord where
  order : Option String
  peers : Option (List (Option (Option String)))

/-- A base export, its collections in the order in which the file has them.  A footer count is
`none` where it is not an integer. -/
structure BaseExport where
  formatVersion : ℕ
  group : Option String
  metadata : MetadataRecord
  adminEvents : List AdminRecord
  messages : List MessageRecord
  footer : Dictionary String (Option ℤ)

/-- `INTERNAL_FORMAT_VERSION`. -/
def internalFormatVersion : ℕ := 3

/-- `ORDER`. -/
def exportOrder : String := "newest_to_oldest within each peer; primary then migrated predecessors"

/-- `canonical_id`.  A text that is no number at all fails in `int`, with a `ValueError` too. -/
def canonicalId (value : Option String) (negative : Bool) : Except String ℤ :=
  match value with
  | none => .error "Base export identifiers must be canonical strings"
  | some text =>
    match text.toInt? with
    | none => .error "Invalid base export identifier"
    | some number =>
      if number.repr ≠ text ∨ (if negative then 0 ≤ number else number ≤ 0) then
        .error "Invalid base export identifier"
      else .ok number

/-! ## The census -/

/-- `_Census`. -/
structure Census where
  refresh : ℕ
  peers : List ℤ := []
  counts : Dictionary ℤ ℕ := ∅
  boundaries : Dictionary ℤ ℤ := ∅
  last : Dictionary ℤ ℤ := ∅
  messages : ℕ := 0
  admins : ℕ := 0
  reactors : ℕ := 0
  adminMax : ℤ := 0
  adminLast : ℤ := 0
  group : Option String := none
  peerIndex : ℕ := 0
  formatVersion : ℕ := 1

namespace Census

/-- `dict.fromkeys`. -/
def fromKeys {α : Type*} (keys : List ℤ) (value : α) : Dictionary ℤ α :=
  keys.foldl (fun d key => d.insert key value) ∅

/-- `canonical_id` of the peers, which have to be objects. -/
def peerIds (peers : List (Option (Option String))) : Except String (List ℤ) :=
  if peers.any Option.isNone then .error "Malformed base peer directory"
  else peers.mapM fun peer => canonicalId (peer.getD none) true

/-- `metadata`. -/
def metadata (c : Census) (record : MetadataRecord) : Except String Census :=
  match record.order, record.peers with
  | some order, some peers =>
    if order ≠ exportOrder then .error "Malformed base peer order"
    else do
      let ids ← peerIds peers
      match ids with
      | [] => .error "Malformed base group/peer directory"
      | first :: _ =>
        if ¬ ids.Nodup ∨ c.group ≠ some first.repr then
          .error "Malformed base group/peer directory"
        else
          .ok { c with peers := ids, counts := fromKeys ids 0, boundaries := fromKeys ids 0 }
  | _, _ => .error "Malformed base peer order"

/-- `admin`. -/
def admin (c : Census) (record : AdminRecord) : Except String Census := do
  let identifier ← canonicalId record.eventId false
  if record.dialogId ≠ c.group ∨ (c.adminLast ≠ 0 ∧ identifier ≥ c.adminLast) then
    .error "Malformed base admin event order"
  else
    .ok { c with
      adminMax := if c.adminMax = 0 then identifier else c.adminMax
      adminLast := identifier
      admins := c.admins + 1 }

/-- The key of a message. -/
def messageKey (peer identifier : ℤ) : String := peer.repr ++ ":" ++ identifier.repr

/-- The check of the key in `_validate_message_identity`. -/
def keyMatches (formatVersion : ℕ) (key : Option (Option String)) (peer identifier : ℤ) : Bool :=
  match key with
  | none => decide (internalFormatVersion ≤ formatVersion)
  | some key => decide (key = some (messageKey peer identifier))

/-- The loop over `peer_index`. -/
def seekPeer (peer : ℤ) : List ℤ → ℕ → ℕ
  | [], index => index
  | candidate :: rest, index =>
    if candidate ≠ peer then seekPeer peer rest (index + 1) else index

/-- `message`. -/
def message (c : Census) (record : MessageRecord) : Except String Census := do
  let peer ← canonicalId record.dialogId true
  let identifier ← canonicalId record.messageId false
  match c.counts.lookup peer with
  | none => .error "Malformed base message identity"
  | some count =>
    if keyMatches c.formatVersion record.messageKey peer identifier = false then
      .error "Malformed base message identity"
    else
      let peerIndex := seekPeer peer (c.peers.drop c.peerIndex) c.peerIndex
      if peerIndex = c.peers.length ∨ (c.last.lookup peer).any (fun last => identifier ≥ last) then
        .error "Malformed base history order"
      else
        match record.reactors with
        | none => .error "Malformed base reactors"
        | some reactors =>
          .ok { c with
            peerIndex
            last := c.last.insert peer identifier
            counts := c.counts.insert peer (count + 1)
            boundaries := if count + 1 = c.refresh + 1 then c.boundaries.insert peer identifier
              else c.boundaries
            messages := c.messages + 1
            reactors := c.reactors + reactors }

/-- `finish`: the check of the footer. -/
def finish (c : Census) (footer : Dictionary String (Option ℤ)) : Except String Census :=
  if footer.any (fun _ value => value.all (· < 0)) then
    .error "Malformed base export footer counts"
  else if footer.entries.length = 3 ∧ footer.lookup "messages" = some (some (c.messages : ℤ)) ∧
      footer.lookup "admin_events" = some (some (c.admins : ℤ)) ∧
      footer.lookup "reactors" = some (some (c.reactors : ℤ)) then .ok c
  else .error "Base export footer counts do not match records"

end Census

/-- The part of `census` before the messages. -/
def censusHead (base : BaseExport) (refresh : ℕ) : Except String Census := do
  let _ ← canonicalId base.group true
  let c ← Census.metadata
    { refresh, formatVersion := base.formatVersion, group := base.group } base.metadata
  base.adminEvents.foldlM Census.admin c

/-- `census`. -/
def census (base : BaseExport) (refresh : ℕ) : Except String Census := do
  let c ← censusHead base refresh
  let c ← base.messages.foldlM Census.message c
  c.finish base.footer

/-! ## Identifiers -/

/-- The identifiers that `canonical_id` accepts. -/
theorem canonicalId_eq_ok {value : Option String} {negative : Bool} {number : ℤ} :
    canonicalId value negative = .ok number ↔
      value = some number.repr ∧ if negative then number < 0 else 0 < number := by
  constructor
  · intro h
    cases value with
    | none => cases h
    | some text =>
      cases hparse : text.toInt? with
      | none =>
        rw [canonicalId, hparse] at h
        cases h
      | some n =>
        simp only [canonicalId, hparse] at h
        by_cases hbad : n.repr ≠ text ∨ (if negative then 0 ≤ n else n ≤ 0)
        · rw [if_pos hbad] at h
          cases h
        · rw [if_neg hbad] at h
          cases h
          rw [not_or, not_not] at hbad
          refine ⟨congrArg some hbad.1.symm, ?_⟩
          have hsign := hbad.2
          cases negative <;> simpa using hsign
  · rintro ⟨rfl, hsign⟩
    simp only [canonicalId, Int.toInt?_repr]
    refine if_neg ?_
    rw [not_or, not_not]
    refine ⟨rfl, ?_⟩
    cases negative <;> simpa using hsign

/-! ## The order of the messages -/

/-- The identifiers of a peer in a stream of messages. -/
def idsOf (stream : List (ℤ × ℤ)) (peer : ℤ) : List ℤ :=
  (stream.filter fun entry => entry.1 = peer).map Prod.snd

/-- A message comes after another one: its peer comes later in the directory, or it is an older
message of the same peer. -/
def Follows (peers : List ℤ) (earlier later : ℤ × ℤ) : Prop :=
  peers.idxOf earlier.1 < peers.idxOf later.1 ∨ earlier.1 = later.1 ∧ later.2 < earlier.2

/-- The messages are grouped by peer in the order of the directory, with strictly decreasing
positive identifiers. -/
structure GroupedInOrder (peers : List ℤ) (stream : List (ℤ × ℤ)) : Prop where
  inDirectory : ∀ entry ∈ stream, entry.1 ∈ peers
  positive : ∀ entry ∈ stream, 0 < entry.2
  ordered : stream.Pairwise (Follows peers)

/-- A record that names a message: canonical identifiers, the key of just this message, and a list
of reactors. -/
structure MessageRecord.Names (formatVersion : ℕ) (record : MessageRecord) (entry : ℤ × ℤ) :
    Prop where
  dialog : record.dialogId = some entry.1.repr
  message : record.messageId = some entry.2.repr
  negative : entry.1 < 0
  key : Census.keyMatches formatVersion record.messageKey entry.1 entry.2 = true
  reactors : record.reactors.isSome

section Stream

variable {peers : List ℤ} {stream : List (ℤ × ℤ)} {entry : ℤ × ℤ} {peer : ℤ}

/-- One more message of a peer. -/
theorem idsOf_concat (stream : List (ℤ × ℤ)) (entry : ℤ × ℤ) (peer : ℤ) :
    idsOf (stream ++ [entry]) peer =
      if entry.1 = peer then idsOf stream peer ++ [entry.2] else idsOf stream peer := by
  rw [idsOf, List.filter_append, List.map_append, ← idsOf]
  split
  · rename_i h
    simp [h]
  · rename_i h
    simp [h]

/-- The identifiers of a peer are those of its messages. -/
theorem mem_idsOf {id : ℤ} : id ∈ idsOf stream peer ↔ (peer, id) ∈ stream := by
  constructor
  · intro h
    obtain ⟨entry, hentry, rfl⟩ := List.mem_map.mp h
    obtain ⟨hmem, hpeer⟩ := List.mem_filter.mp hentry
    obtain rfl : entry.1 = peer := of_decide_eq_true hpeer
    exact hmem
  · intro h
    exact List.mem_map.mpr ⟨_, List.mem_filter.mpr ⟨h, decide_eq_true rfl⟩, rfl⟩

/-- The identifiers of a peer descend. -/
theorem GroupedInOrder.descending (h : GroupedInOrder peers stream) (peer : ℤ) :
    (idsOf stream peer).Pairwise (· > ·) := by
  rw [idsOf, List.pairwise_map]
  refine List.Pairwise.imp_of_mem ?_ (h.ordered.filter _)
  intro earlier later hearlier hlater hfollows
  have hpeer : earlier.1 = peer := of_decide_eq_true (List.mem_filter.mp hearlier).2
  have hpeer' : later.1 = peer := of_decide_eq_true (List.mem_filter.mp hlater).2
  rcases hfollows with hlt | ⟨-, hlt⟩
  · rw [hpeer, hpeer'] at hlt
    exact absurd hlt (lt_irrefl _)
  · exact hlt

/-- A stream and one more message. -/
theorem groupedInOrder_concat :
    GroupedInOrder peers (stream ++ [entry]) ↔
      GroupedInOrder peers stream ∧ entry.1 ∈ peers ∧ 0 < entry.2 ∧
        ∀ earlier ∈ stream, Follows peers earlier entry := by
  constructor
  · rintro ⟨hin, hpositive, hordered⟩
    rw [List.pairwise_append] at hordered
    refine ⟨⟨fun e he => hin e (List.mem_append_left _ he),
      fun e he => hpositive e (List.mem_append_left _ he), hordered.1⟩, ?_, ?_, ?_⟩
    · exact hin entry (List.mem_append_right _ (List.mem_singleton_self _))
    · exact hpositive entry (List.mem_append_right _ (List.mem_singleton_self _))
    · exact fun earlier he => hordered.2.2 earlier he entry (List.mem_singleton_self _)
  · rintro ⟨⟨hin, hpositive, hordered⟩, hentry, hpos, hfollows⟩
    refine ⟨?_, ?_, List.pairwise_append.mpr ⟨hordered, List.pairwise_singleton _ _, ?_⟩⟩
    · intro e he
      rcases List.mem_append.mp he with he | he
      · exact hin e he
      · exact List.mem_singleton.mp he ▸ hentry
    · intro e he
      rcases List.mem_append.mp he with he | he
      · exact hpositive e he
      · exact List.mem_singleton.mp he ▸ hpos
    · intro earlier he later hlater
      exact List.mem_singleton.mp hlater ▸ hfollows earlier he

end Stream

/-! ## One message -/

namespace Census

/-- The table of a value for every key. -/
theorem lookup_fromKeys {α : Type*} (keys : List ℤ) (value : α) (k : ℤ) :
    (fromKeys keys value).lookup k = if k ∈ keys then some value else none := by
  have hfold : ∀ d : Dictionary ℤ α, (keys.foldl (fun d key => d.insert key value) d).lookup k =
      if k ∈ keys then some value else d.lookup k := by
    induction keys with
    | nil =>
      intro d
      rw [List.foldl_nil, if_neg List.not_mem_nil]
    | cons key keys ih =>
      intro d
      rw [List.foldl_cons, ih, Dictionary.lookup_insert_eq]
      by_cases hkey : k = key
      · simp [hkey]
      · simp [hkey]
  rw [fromKeys, hfold]
  rfl

/-- The loop over `peer_index` goes to the next place of the peer. -/
theorem seekPeer_eq (peer : ℤ) (rest : List ℤ) (index : ℕ) :
    seekPeer peer rest index = index + rest.idxOf peer := by
  induction rest generalizing index with
  | nil => rfl
  | cons candidate rest ih =>
    rw [seekPeer, List.idxOf_cons]
    by_cases h : candidate = peer
    · rw [if_neg (not_not.mpr h), h, beq_self_eq_true]
      rfl
    · rw [if_pos h, ih, beq_false_of_ne h, cond_false]
      omega

/-- The loop over `peer_index` finds the peers that are not behind it. -/
theorem seekPeer_drop {peers : List ℤ} (hnodup : peers.Nodup) {index : ℕ}
    (hindex : index ≤ peers.length) (peer : ℤ) :
    seekPeer peer (peers.drop index) index =
      if index ≤ peers.idxOf peer then peers.idxOf peer else peers.length := by
  have hsplit : peers.idxOf peer = (peers.take index ++ peers.drop index).idxOf peer := by
    rw [List.take_append_drop]
  have hlength : (peers.take index).length = index := by
    rw [List.length_take]
    omega
  rw [seekPeer_eq]
  by_cases htake : peer ∈ peers.take index
  · have hbehind : peers.idxOf peer < index := by
      rw [hsplit, List.idxOf_append_of_mem htake]
      exact (List.idxOf_lt_length_of_mem htake).trans_le hlength.le
    have hdisjoint : peer ∉ peers.drop index := by
      have h := hnodup
      rw [← List.take_append_drop index peers, List.nodup_append] at h
      exact fun hdrop => h.2.2 peer htake peer hdrop rfl
    rw [if_neg (by omega), List.idxOf_eq_length hdisjoint, List.length_drop]
    omega
  · have hahead : peers.idxOf peer = index + (peers.drop index).idxOf peer := by
      rw [hsplit, List.idxOf_append_of_notMem htake, hlength, Nat.add_comm]
    rw [if_pos (by omega), hahead]

/-- The census after a message. -/
def after (c : Census) (peer identifier : ℤ) (count peerIndex reactors : ℕ) : Census :=
  { c with
    peerIndex
    last := c.last.insert peer identifier
    counts := c.counts.insert peer (count + 1)
    boundaries := if count + 1 = c.refresh + 1 then c.boundaries.insert peer identifier
      else c.boundaries
    messages := c.messages + 1
    reactors := c.reactors + reactors }

/-- What an accepted message has. -/
theorem message_eq_ok {c c' : Census} {record : MessageRecord} :
    c.message record = .ok c' ↔ ∃ peer identifier count reactors,
      record.Names c.formatVersion (peer, identifier) ∧ 0 < identifier ∧
      c.counts.lookup peer = some count ∧
      seekPeer peer (c.peers.drop c.peerIndex) c.peerIndex ≠ c.peers.length ∧
      (∀ last ∈ c.last.lookup peer, identifier < last) ∧ record.reactors = some reactors ∧
      c' = c.after peer identifier count
        (seekPeer peer (c.peers.drop c.peerIndex) c.peerIndex) reactors := by
  constructor
  · intro h
    unfold message at h
    cases hpeer : canonicalId record.dialogId true with
    | error e => simp [hpeer, bind, Except.bind] at h
    | ok peer =>
    cases hid : canonicalId record.messageId false with
    | error e => simp [hpeer, hid, bind, Except.bind] at h
    | ok identifier =>
    simp only [hpeer, hid, bind, Except.bind] at h
    cases hcount : c.counts.lookup peer with
    | none => simp [hcount] at h
    | some count =>
    simp only [hcount] at h
    split at h
    · cases h
    rename_i hkey
    split at h
    · cases h
    rename_i horder
    cases hreactors : record.reactors with
    | none => simp [hreactors] at h
    | some reactors =>
    simp only [hreactors, Except.ok.injEq] at h
    rw [canonicalId_eq_ok] at hpeer hid
    rw [not_or] at horder
    refine ⟨peer, identifier, count, reactors, ⟨hpeer.1, hid.1, by simpa using hpeer.2,
      by simpa using hkey, by rw [hreactors]; rfl⟩, by simpa using hid.2, hcount, horder.1, ?_,
      rfl, h.symm⟩
    intro last hlast
    have := horder.2
    rw [Option.mem_def.mp hlast] at this
    simpa using this
  · rintro ⟨peer, identifier, count, reactors, hnames, hpositive, hcount, hseek, hlast, hreactors,
      rfl⟩
    have hpeer : canonicalId record.dialogId true = .ok peer :=
      canonicalId_eq_ok.mpr ⟨hnames.dialog, by simpa using hnames.negative⟩
    have hid : canonicalId record.messageId false = .ok identifier :=
      canonicalId_eq_ok.mpr ⟨hnames.message, by simpa using hpositive⟩
    have hany : ¬ ((c.last.lookup peer).any fun last => identifier ≥ last) = true := by
      cases hl : c.last.lookup peer with
      | none => simp
      | some last =>
        have := hlast last hl
        simpa using this
    simp only [message, hpeer, hid, bind, Except.bind, hcount, hnames.key, Bool.true_eq_false,
      if_false, hreactors, or_iff_right hseek, hany]
    rfl

end Census

end McpTelegram
