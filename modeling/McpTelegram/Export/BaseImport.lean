import McpTelegram.Export.Census

/-!
# The rows of an incremental base

The census of a base accepts just the messages in the order of an export, and its boundaries cut the
messages of each peer in two: `import_base` takes the oldest ones from the base, and `history_peer`
fetches the others again.
-/

namespace McpTelegram

open Foundations

variable {peer : ℤ} {base : BaseExport}

/-! ## The census after some messages -/

/-- What the census knows of the messages that it has seen. -/
structure Census.Tracks (refresh formatVersion : ℕ) (peers : List ℤ) (c : Census)
    (stream : List (ℤ × ℤ)) : Prop where
  refresh_eq : c.refresh = refresh
  version_eq : c.formatVersion = formatVersion
  peers_eq : c.peers = peers
  grouped : GroupedInOrder peers stream
  /-- The directory is at the peer of the last message. -/
  index : c.peerIndex = ((stream.getLast?.map fun entry => peers.idxOf entry.1).getD 0)
  last_eq : ∀ peer, c.last.lookup peer = (idsOf stream peer).getLast?
  counts_eq : ∀ peer,
    c.counts.lookup peer = if peer ∈ peers then some (idsOf stream peer).length else none
  /-- The boundary is the first message that is not fetched again. -/
  boundaries_eq : ∀ peer, c.boundaries.lookup peer =
    if peer ∈ peers then some ((idsOf stream peer)[refresh]?.getD 0) else none

section Tracks

variable {refresh formatVersion : ℕ} {peers : List ℤ} {c c' : Census} {stream : List (ℤ × ℤ)}
  {record : MessageRecord} {entry : ℤ × ℤ}

/-- The last identifier of a peer is its smallest. -/
theorem GroupedInOrder.getLast_le (h : GroupedInOrder peers stream) {last id : ℤ}
    (hlast : (idsOf stream peer).getLast? = some last) (hid : id ∈ idsOf stream peer) :
    last ≤ id := by
  obtain ⟨front, hfront⟩ := List.getLast?_eq_some_iff.mp hlast
  have hdesc := h.descending peer
  rw [hfront] at hdesc hid
  rcases List.mem_append.mp hid with hid | hid
  · exact ((List.pairwise_append.mp hdesc).2.2 id hid last (List.mem_singleton_self _)).le
  · exact (List.mem_singleton.mp hid).ge

/-- The directory is not behind any message. -/
theorem Census.Tracks.idxOf_le (h : Census.Tracks refresh formatVersion peers c stream)
    (hentry : entry ∈ stream) : peers.idxOf entry.1 ≤ c.peerIndex := by
  rw [h.index]
  cases hlast : stream.getLast? with
  | none =>
    rw [List.getLast?_eq_none_iff.mp hlast] at hentry
    cases hentry
  | some last =>
    obtain ⟨front, rfl⟩ := List.getLast?_eq_some_iff.mp hlast
    rcases List.mem_append.mp hentry with hentry | hentry
    · rcases (groupedInOrder_concat.mp h.grouped).2.2.2 entry hentry with hlt | ⟨heq, -⟩
      · exact hlt.le
      · rw [heq]
        exact le_rfl
    · rw [List.mem_singleton.mp hentry]
      exact le_rfl

/-- The directory is in its bounds. -/
theorem Census.Tracks.index_le (h : Census.Tracks refresh formatVersion peers c stream) :
    c.peerIndex ≤ peers.length := by
  rw [h.index]
  cases stream.getLast? with
  | none => exact Nat.zero_le _
  | some last => exact List.idxOf_le_length

/-- A message is in order exactly when the directory is not past its peer, and the message is older
than the last one of the peer. -/
theorem Census.Tracks.follows_iff (h : Census.Tracks refresh formatVersion peers c stream) :
    (∀ earlier ∈ stream, Follows peers earlier entry) ↔
      c.peerIndex ≤ peers.idxOf entry.1 ∧ ∀ last ∈ c.last.lookup entry.1, entry.2 < last := by
  constructor
  · intro hfollows
    constructor
    · rw [h.index]
      cases hlast : stream.getLast? with
      | none => exact Nat.zero_le _
      | some last =>
        rcases hfollows last (List.mem_of_getLast? hlast) with hlt | ⟨heq, -⟩
        · exact hlt.le
        · rw [Option.map_some, Option.getD_some, heq]
    · intro last hlast
      rw [Option.mem_def, h.last_eq] at hlast
      rcases hfollows (entry.1, last) (mem_idsOf.mp (List.mem_of_getLast? hlast)) with hlt | hlt
      · exact absurd hlt (lt_irrefl _)
      · exact hlt.2
  · rintro ⟨hindex, hlast⟩ earlier hearlier
    have hle := (h.idxOf_le hearlier).trans hindex
    rcases hle.lt_or_eq with hlt | heq
    · exact Or.inl hlt
    · have hsame : earlier.1 = entry.1 :=
        (List.idxOf_inj (h.grouped.inDirectory earlier hearlier)).mp heq
      refine Or.inr ⟨hsame, ?_⟩
      have hmem : earlier.2 ∈ idsOf stream entry.1 := mem_idsOf.mpr (hsame ▸ hearlier)
      cases hget : (idsOf stream entry.1).getLast? with
      | none =>
        rw [List.getLast?_eq_none_iff.mp hget] at hmem
        cases hmem
      | some last =>
        have hlt := hlast last (by rw [h.last_eq, hget]; rfl)
        exact hlt.trans_le (h.grouped.getLast_le hget hmem)

/-- The peer index after a message that is in order. -/
theorem Census.Tracks.seekPeer_ne_iff (h : Census.Tracks refresh formatVersion peers c stream)
    (hnodup : peers.Nodup) (hpeer : peer ∈ peers) :
    Census.seekPeer peer (c.peers.drop c.peerIndex) c.peerIndex ≠ c.peers.length ↔
      c.peerIndex ≤ peers.idxOf peer := by
  rw [h.peers_eq, Census.seekPeer_drop hnodup h.index_le]
  have := List.idxOf_lt_length_of_mem hpeer
  split <;> omega

/-- The census knows one more message. -/
theorem Census.Tracks.after (h : Census.Tracks refresh formatVersion peers c stream)
    (hnodup : peers.Nodup) {identifier : ℤ} {count reactors : ℕ} (hpositive : 0 < identifier)
    (hcount : c.counts.lookup peer = some count)
    (hseek : Census.seekPeer peer (c.peers.drop c.peerIndex) c.peerIndex ≠ c.peers.length)
    (hlast : ∀ last ∈ c.last.lookup peer, identifier < last) :
    Census.Tracks refresh formatVersion peers
      (c.after peer identifier count
        (Census.seekPeer peer (c.peers.drop c.peerIndex) c.peerIndex) reactors)
      (stream ++ [(peer, identifier)]) := by
  have hpeer : peer ∈ peers := by
    by_contra hnot
    rw [h.counts_eq, if_neg hnot] at hcount
    cases hcount
  have hcount : count = (idsOf stream peer).length := by
    rw [h.counts_eq, if_pos hpeer] at hcount
    exact (Option.some.inj hcount).symm
  have hindex := (h.seekPeer_ne_iff hnodup hpeer).mp hseek
  refine ⟨h.refresh_eq, h.version_eq, h.peers_eq, ?_, ?_, fun p => ?_, fun p => ?_, fun p => ?_⟩
  · exact groupedInOrder_concat.mpr ⟨h.grouped, hpeer, hpositive,
      h.follows_iff.mpr ⟨hindex, hlast⟩⟩
  · rw [List.getLast?_concat]
    show Census.seekPeer peer (c.peers.drop c.peerIndex) c.peerIndex = peers.idxOf peer
    rw [h.peers_eq, Census.seekPeer_drop hnodup h.index_le, if_pos hindex]
  · rw [Census.after, Dictionary.lookup_insert_eq, idsOf_concat]
    by_cases hp : p = peer
    · rw [if_pos hp, if_pos hp.symm, List.getLast?_concat]
    · rw [if_neg hp, if_neg (Ne.symm hp), h.last_eq]
  · rw [Census.after, Dictionary.lookup_insert_eq, idsOf_concat]
    by_cases hp : p = peer
    · rw [if_pos hp, if_pos hp.symm, hp, if_pos hpeer, List.length_append, hcount]
      rfl
    · rw [if_neg hp, if_neg (Ne.symm hp), h.counts_eq]
  · have hrefresh : count + 1 = c.refresh + 1 ↔ (idsOf stream peer).length = refresh := by
      rw [h.refresh_eq, hcount]
      exact Nat.add_right_cancel_iff
    rw [Census.after, idsOf_concat]
    by_cases hp : p = peer
    · rw [if_pos hp.symm, hp, if_pos hpeer]
      by_cases hlength : (idsOf stream peer).length = refresh
      · rw [if_pos (hrefresh.mpr hlength), Dictionary.lookup_insert_eq, if_pos rfl, ← hlength,
          List.getElem?_concat_length]
        rfl
      · rw [if_neg fun heq => hlength (hrefresh.mp heq), h.boundaries_eq, if_pos hpeer]
        refine congrArg (fun id : Option ℤ => some (id.getD 0)) ?_
        rcases Nat.lt_or_gt_of_ne hlength with hlt | hlt
        · rw [List.getElem?_eq_none (by omega), List.getElem?_eq_none]
          rw [List.length_append, List.length_singleton]
          omega
        · rw [List.getElem?_append_left hlt]
    · rw [if_neg (Ne.symm hp), ← h.boundaries_eq]
      split
      · rw [Dictionary.lookup_insert_eq, if_neg hp]
      · rfl

/-- An accepted message names a message in order. -/
theorem Census.Tracks.message (h : Census.Tracks refresh formatVersion peers c stream)
    (hnodup : peers.Nodup) (hmessage : c.message record = .ok c') :
    ∃ entry, record.Names formatVersion entry ∧
      Census.Tracks refresh formatVersion peers c' (stream ++ [entry]) := by
  obtain ⟨peer, identifier, count, reactors, hnames, hpositive, hcount, hseek, hlast, -, rfl⟩ :=
    Census.message_eq_ok.mp hmessage
  exact ⟨(peer, identifier), h.version_eq ▸ hnames,
    h.after hnodup hpositive hcount hseek hlast⟩

/-- A message in order is accepted. -/
theorem Census.Tracks.message_ok (h : Census.Tracks refresh formatVersion peers c stream)
    (hnodup : peers.Nodup) (hnames : record.Names formatVersion entry)
    (hgrouped : GroupedInOrder peers (stream ++ [entry])) : ∃ c', c.message record = .ok c' := by
  obtain ⟨-, hpeer, hpositive, hfollows⟩ := groupedInOrder_concat.mp hgrouped
  obtain ⟨hindex, hlast⟩ := h.follows_iff.mp hfollows
  obtain ⟨reactors, hreactors⟩ := Option.isSome_iff_exists.mp hnames.reactors
  have hcount := h.counts_eq entry.1
  rw [if_pos hpeer] at hcount
  exact ⟨_, Census.message_eq_ok.mpr ⟨entry.1, entry.2, _, reactors, h.version_eq.symm ▸ hnames,
    hpositive, hcount, (h.seekPeer_ne_iff hnodup hpeer).mpr hindex, hlast, hreactors, rfl⟩⟩

end Tracks

/-! ## All messages -/

section Messages

variable {refresh formatVersion : ℕ} {peers : List ℤ} {c c' : Census}
  {records : List MessageRecord}

/-- The records of a list, one message of the stream for each. -/
abbrev NamesAll (formatVersion : ℕ) (records : List MessageRecord) (stream : List (ℤ × ℤ)) : Prop :=
  List.Forall₂ (MessageRecord.Names formatVersion) records stream

/-- A record names one message. -/
theorem MessageRecord.Names.eq {record : MessageRecord} {entry other : ℤ × ℤ}
    (h : record.Names formatVersion entry) (hother : record.Names formatVersion other) :
    entry = other := by
  have hdialog := h.dialog.symm.trans hother.dialog
  have hmessage := h.message.symm.trans hother.message
  exact Prod.ext (Int.repr_injective (Option.some.inj hdialog))
    (Int.repr_injective (Option.some.inj hmessage))

/-- The records of a list name one stream. -/
theorem namesAll_unique {stream other : List (ℤ × ℤ)} (h : NamesAll formatVersion records stream)
    (hother : NamesAll formatVersion records other) : stream = other := by
  induction h generalizing other with
  | nil =>
    cases hother
    rfl
  | cons hnames _ ih =>
    cases hother with
    | cons hnames' hrest => rw [hnames.eq hnames', ih hrest]

/-- The records that the census accepts name messages in order. -/
theorem tracks_of_foldlM (hnodup : peers.Nodup) {seen : List (ℤ × ℤ)}
    (htracks : Census.Tracks refresh formatVersion peers c seen)
    (hrecords : records.foldlM Census.message c = .ok c') :
    ∃ stream, NamesAll formatVersion records stream ∧
      Census.Tracks refresh formatVersion peers c' (seen ++ stream) := by
  induction records generalizing c seen with
  | nil =>
    cases hrecords
    exact ⟨[], List.Forall₂.nil, by rwa [List.append_nil]⟩
  | cons record records ih =>
    rw [List.foldlM_cons] at hrecords
    cases hmessage : c.message record with
    | error e => simp [hmessage, bind, Except.bind] at hrecords
    | ok middle =>
      rw [hmessage] at hrecords
      obtain ⟨entry, hentry, hafter⟩ := htracks.message hnodup hmessage
      obtain ⟨stream, hnames, hall⟩ := ih hafter hrecords
      rw [List.append_assoc] at hall
      exact ⟨entry :: stream, List.Forall₂.cons hentry hnames, hall⟩

/-- A part of a stream in order is in order. -/
theorem GroupedInOrder.sublist {stream part : List (ℤ × ℤ)} (h : GroupedInOrder peers stream)
    (hpart : part.Sublist stream) : GroupedInOrder peers part where
  inDirectory := fun entry hentry => h.inDirectory entry (hpart.subset hentry)
  positive := fun entry hentry => h.positive entry (hpart.subset hentry)
  ordered := h.ordered.sublist hpart

/-- Records that name messages in order are accepted. -/
theorem foldlM_of_grouped (hnodup : peers.Nodup) {seen stream : List (ℤ × ℤ)}
    (htracks : Census.Tracks refresh formatVersion peers c seen)
    (hnames : NamesAll formatVersion records stream)
    (hgrouped : GroupedInOrder peers (seen ++ stream)) :
    ∃ c', records.foldlM Census.message c = .ok c' := by
  induction hnames generalizing c seen with
  | nil => exact ⟨c, rfl⟩
  | @cons record entry records stream hentry _ ih =>
    have hassoc : seen ++ entry :: stream = seen ++ [entry] ++ stream := by simp
    rw [hassoc] at hgrouped
    have hfirst := hgrouped.sublist (List.sublist_append_left _ _)
    obtain ⟨middle, hmessage⟩ := htracks.message_ok hnodup hentry hfirst
    obtain ⟨entry', hentry', hafter⟩ := htracks.message hnodup hmessage
    rw [hentry'.eq hentry] at hafter
    obtain ⟨c', hrest⟩ := ih hafter hgrouped
    exact ⟨c', by rw [List.foldlM_cons, hmessage]; exact hrest⟩

end Messages

/-! ## The two sides of a boundary -/

section Boundary

variable {ids : List ℤ}

/-- The boundary of a descending list of positive identifiers cuts it after the first ones. -/
theorem filter_boundary (hdesc : ids.Pairwise (· > ·)) (hpositive : ∀ id ∈ ids, 0 < id)
    (refresh : ℕ) :
    ids.filter (fun id => id ≤ ids[refresh]?.getD 0) = ids.drop refresh ∧
      ids.filter (fun id => ids[refresh]?.getD 0 < id) = ids.take refresh := by
  have hold : ∀ id ∈ ids.drop refresh, id ≤ ids[refresh]?.getD 0 := by
    intro id hid
    cases hget : ids[refresh]? with
    | none =>
      rw [List.drop_of_length_le (List.getElem?_eq_none_iff.mp hget)] at hid
      cases hid
    | some boundary =>
      obtain ⟨hlt, rfl⟩ := List.getElem?_eq_some_iff.mp hget
      have hdrop : (ids.drop refresh).Pairwise (· > ·) := hdesc.drop
      rw [List.drop_eq_getElem_cons hlt] at hid hdrop
      rcases List.mem_cons.mp hid with rfl | hid
      · exact le_rfl
      · exact ((List.pairwise_cons.mp hdrop).1 id hid).le
  have hnew : ∀ id ∈ ids.take refresh, ids[refresh]?.getD 0 < id := by
    intro id hid
    cases hget : ids[refresh]? with
    | none => exact hpositive id (List.mem_of_mem_take hid)
    | some boundary =>
      obtain ⟨hlt, rfl⟩ := List.getElem?_eq_some_iff.mp hget
      rw [← List.take_append_drop refresh ids, List.pairwise_append] at hdesc
      refine hdesc.2.2 id hid _ ?_
      rw [List.drop_eq_getElem_cons hlt]
      exact List.mem_cons_self
  generalize ids[refresh]?.getD 0 = boundary at hold hnew
  have hsplit := List.take_append_drop refresh ids
  constructor
  · conv_lhs => rw [← hsplit]
    rw [List.filter_append, List.filter_eq_nil_iff.mpr, List.nil_append,
      List.filter_eq_self.mpr fun id hid => decide_eq_true (hold id hid)]
    exact fun id hid hle => absurd (of_decide_eq_true hle) (not_le.mpr (hnew id hid))
  · conv_lhs => rw [← hsplit]
    rw [List.filter_append, List.filter_eq_self.mpr fun id hid => decide_eq_true (hnew id hid),
      List.filter_eq_nil_iff.mpr, List.append_nil]
    exact fun id hid hlt => absurd (of_decide_eq_true hlt) (not_lt.mpr (hold id hid))

end Boundary

/-! ## Importing the base -/

/-- A message of the base in `import_base`: `none` where the import fails.  The row is what
`migrate_record` makes of the record. -/
def importMessage (boundaries : Dictionary ℤ ℤ) (migrate : MessageRecord → Option String)
    (c : Checkpoint) (record : MessageRecord) : Option Checkpoint := do
  let peer ← record.dialogId.bind String.toInt?
  let identifier ← record.messageId.bind String.toInt?
  let boundary ← boundaries.lookup peer
  if identifier > boundary then some c
  else
    let row ← migrate record
    let key : RecordKey := ⟨.message, peer, identifier.toNat⟩
    if key ∈ c.records then some c else some { c with records := c.records.insert key row }

/-- An admin event of the base in `import_base`. -/
def importAdmin (migrate : AdminRecord → Option String) (c : Checkpoint) (record : AdminRecord) :
    Option Checkpoint := do
  let peer ← record.dialogId.bind String.toInt?
  let identifier ← record.eventId.bind String.toInt?
  let row ← migrate record
  let key : RecordKey := ⟨.admin, peer, identifier.toNat⟩
  if key ∈ c.records then some c else some { c with records := c.records.insert key row }

/-- The rows that `import_base` writes, in one transaction. -/
def importBase (boundaries : Dictionary ℤ ℤ) (migrateAdmin : AdminRecord → Option String)
    (migrate : MessageRecord → Option String) (c : Checkpoint) (base : BaseExport) :
    Option Checkpoint := do
  let c ← base.adminEvents.foldlM (importAdmin migrateAdmin) c
  base.messages.foldlM (importMessage boundaries migrate) c

/-- The export plan of an incremental export: `boundaries.get(str(peer["dialog_id"]), 0)`. -/
def ExportPlan.withBase (plan : ExportPlan) (info : Census) : ExportPlan :=
  { plan with boundary := fun peer => ((info.boundaries.lookup peer).getD 0).toNat }

section Import

variable {boundaries : Dictionary ℤ ℤ} {migrate : MessageRecord → Option String}
  {migrateAdmin : AdminRecord → Option String} {c c' : Checkpoint} {formatVersion : ℕ}

/-- A message of the base becomes a row unless it is above its boundary. -/
theorem importMessage_records {record : MessageRecord} {entry : ℤ × ℤ}
    (hnames : record.Names formatVersion entry)
    (h : importMessage boundaries migrate c record = some c') (key : RecordKey) :
    key ∈ c'.records ↔ key ∈ c.records ∨ key = ⟨.message, entry.1, entry.2.toNat⟩ ∧
      ∃ boundary ∈ boundaries.lookup entry.1, entry.2 ≤ boundary := by
  simp only [importMessage, hnames.dialog, hnames.message, Option.bind_some, Int.toInt?_repr,
    bind] at h
  cases hboundary : boundaries.lookup entry.1 with
  | none => simp [hboundary] at h
  | some boundary =>
    simp only [hboundary, Option.bind_some] at h
    split at h
    · rename_i habove
      cases h
      constructor
      · exact Or.inl
      · rintro (hold | ⟨-, b, hb, hle⟩)
        · exact hold
        · cases hb
          omega
    · rename_i hbelow
      have hin : ∃ b ∈ some boundary, entry.2 ≤ b := ⟨boundary, rfl, not_lt.mp hbelow⟩
      cases hrow : migrate record with
      | none => simp [hrow] at h
      | some row =>
        simp only [hrow, Option.bind_some] at h
        split at h
        · rename_i hpresent
          cases h
          constructor
          · exact Or.inl
          · rintro (hold | ⟨rfl, -⟩)
            · exact hold
            · exact hpresent
        · cases h
          rw [AList.mem_insert]
          constructor
          · rintro (rfl | hold)
            · exact Or.inr ⟨rfl, hin⟩
            · exact Or.inl hold
          · rintro (hold | ⟨rfl, -⟩)
            · exact Or.inr hold
            · exact Or.inl rfl

/-- An admin event of the base leaves the rows of the messages. -/
theorem importAdmin_records {record : AdminRecord} (h : importAdmin migrateAdmin c record = some c')
    (peer : ℤ) (id : ℕ) :
    (⟨.message, peer, id⟩ : RecordKey) ∈ c'.records ↔ ⟨.message, peer, id⟩ ∈ c.records := by
  simp only [importAdmin, bind, Option.bind_eq_some_iff] at h
  obtain ⟨adminPeer, -, identifier, -, row, -, h⟩ := h
  split at h
  · cases h
    rfl
  · cases h
    rw [AList.mem_insert]
    exact or_iff_right fun heq => by cases heq

/-- The rows of the messages after the import. -/
theorem importBase_records {stream : List (ℤ × ℤ)}
    (hnames : NamesAll base.formatVersion base.messages stream)
    (h : importBase boundaries migrateAdmin migrate c base = some c') (peer : ℤ) (id : ℕ) :
    (⟨.message, peer, id⟩ : RecordKey) ∈ c'.records ↔ ⟨.message, peer, id⟩ ∈ c.records ∨
      ∃ entry ∈ stream, entry.1 = peer ∧ entry.2.toNat = id ∧
        ∃ boundary ∈ boundaries.lookup peer, entry.2 ≤ boundary := by
  obtain ⟨middle, hadmins, hmessages⟩ := Option.bind_eq_some_iff.mp h
  have hmiddle : (⟨.message, peer, id⟩ : RecordKey) ∈ middle.records ↔
      ⟨.message, peer, id⟩ ∈ c.records := by
    clear h hmessages
    generalize base.adminEvents = records at hadmins
    induction records generalizing c with
    | nil =>
      cases hadmins
      rfl
    | cons record records ih =>
      obtain ⟨next, hnext, hrest⟩ := Option.bind_eq_some_iff.mp hadmins
      rw [ih hrest, importAdmin_records hnext]
  rw [← hmiddle]
  clear h hadmins hmiddle
  generalize base.messages = records at hnames hmessages
  induction hnames generalizing middle with
  | nil =>
    cases hmessages
    simp
  | @cons record entry records stream hentry _ ih =>
    obtain ⟨next, hnext, hrest⟩ := Option.bind_eq_some_iff.mp hmessages
    refine (ih _ hrest).trans ?_
    rw [importMessage_records hentry hnext]
    constructor
    · rintro ((hold | ⟨hkey, hbound⟩) | ⟨other, hother, hrow⟩)
      · exact Or.inl hold
      · cases hkey
        exact Or.inr ⟨entry, List.mem_cons_self, rfl, rfl, hbound⟩
      · exact Or.inr ⟨other, List.mem_cons_of_mem _ hother, hrow⟩
    · rintro (hold | ⟨other, hother, hpeer, hid, hbound⟩)
      · exact Or.inl (Or.inl hold)
      · rcases List.mem_cons.mp hother with rfl | hother
        · subst hpeer hid
          exact Or.inl (Or.inr ⟨rfl, hbound⟩)
        · exact Or.inr ⟨other, hother, hpeer, hid, hbound⟩

end Import

/-! ## The head of the base -/

section Head

variable {c c' : Census}

/-- The metadata give a directory without doubles. -/
theorem Census.metadata_tracks {record : MetadataRecord} (refresh formatVersion : ℕ)
    (group : Option String)
    (h : Census.metadata { refresh, formatVersion, group } record = .ok c') :
    c'.peers.Nodup ∧ Census.Tracks refresh formatVersion c'.peers c' [] := by
  unfold Census.metadata at h
  cases horder : record.order with
  | none => simp [horder] at h
  | some order =>
  cases hpeers : record.peers with
  | none => simp [horder, hpeers] at h
  | some peers =>
  simp only [horder, hpeers] at h
  by_cases hexport : order ≠ exportOrder
  · rw [if_pos hexport] at h
    cases h
  rw [if_neg hexport] at h
  cases hids : Census.peerIds peers with
  | error e => simp [hids, bind, Except.bind] at h
  | ok ids =>
  simp only [hids, bind, Except.bind] at h
  cases ids with
  | nil => cases h
  | cons first rest =>
    simp only at h
    by_cases hbad : ¬ (first :: rest).Nodup ∨ group ≠ some first.repr
    · rw [if_pos hbad] at h
      cases h
    · rw [if_neg hbad] at h
      cases h
      rw [not_or, not_not] at hbad
      refine ⟨hbad.1, rfl, rfl, rfl, ⟨by simp, by simp, List.Pairwise.nil⟩, rfl, fun _ => rfl,
        fun peer => ?_, fun peer => ?_⟩
      · exact Census.lookup_fromKeys _ _ _
      · exact Census.lookup_fromKeys _ _ _

/-- An admin event is nothing to the messages. -/
theorem Census.admin_tracks {refresh formatVersion : ℕ} {peers : List ℤ} {record : AdminRecord}
    (h : Census.Tracks refresh formatVersion peers c []) (hadmin : c.admin record = .ok c') :
    Census.Tracks refresh formatVersion peers c' [] := by
  unfold Census.admin at hadmin
  cases hid : canonicalId record.eventId false with
  | error e => simp [hid, bind, Except.bind] at hadmin
  | ok identifier =>
    simp only [hid, bind, Except.bind] at hadmin
    split at hadmin
    · cases hadmin
    · cases hadmin
      exact ⟨h.refresh_eq, h.version_eq, h.peers_eq, h.grouped, h.index, h.last_eq, h.counts_eq,
        h.boundaries_eq⟩

/-- Before the messages the census has its directory and nothing else. -/
theorem censusHead_tracks {refresh : ℕ} (h : censusHead base refresh = .ok c) :
    c.peers.Nodup ∧ Census.Tracks refresh base.formatVersion c.peers c [] := by
  unfold censusHead at h
  cases hgroup : canonicalId base.group true with
  | error e => simp [hgroup, bind, Except.bind] at h
  | ok group =>
  cases hmetadata : Census.metadata
      { refresh, formatVersion := base.formatVersion, group := base.group } base.metadata with
  | error e => simp [hgroup, hmetadata, bind, Except.bind] at h
  | ok start =>
    simp only [hgroup, hmetadata, bind, Except.bind] at h
    obtain ⟨hnodup, htracks⟩ := Census.metadata_tracks _ _ _ hmetadata
    have hall : Census.Tracks refresh base.formatVersion start.peers c [] := by
      clear hmetadata hnodup
      generalize base.adminEvents = records at h
      generalize start.peers = peers at htracks
      induction records generalizing start with
      | nil =>
        cases h
        exact htracks
      | cons record records ih =>
        rw [List.foldlM_cons] at h
        cases hadmin : start.admin record with
        | error e => simp [hadmin, bind, Except.bind] at h
        | ok next =>
          rw [hadmin] at h
          exact ih _ h (Census.admin_tracks htracks hadmin)
    rw [hall.peers_eq]
    exact ⟨hnodup, hall⟩

end Head

/-- The census of a base accepts its messages just when every record names a message and the
messages are in order; and then the boundary of each peer cuts its messages in two.  The import
takes the oldest ones, all but `refresh`, and the loop over the history fetches the others again. -/
theorem census_splits_base {base : BaseExport} {refresh : ℕ} {c : Census}
    (hhead : censusHead base refresh = .ok c) :
    ((∃ c', base.messages.foldlM Census.message c = .ok c') ↔
      ∃ stream, NamesAll base.formatVersion base.messages stream ∧
        GroupedInOrder c.peers stream) ∧
    ∀ c', base.messages.foldlM Census.message c = .ok c' →
      ∀ stream, NamesAll base.formatVersion base.messages stream →
        (∀ peer ∉ c.peers, idsOf stream peer = []) ∧
        ∀ peer ∈ c.peers, ∃ boundary, c'.boundaries.lookup peer = some boundary ∧
          (idsOf stream peer).filter (fun id => id ≤ boundary) = (idsOf stream peer).drop refresh ∧
          (∀ migrateAdmin migrate checkpoint checkpoint',
            importBase c'.boundaries migrateAdmin migrate checkpoint base = some checkpoint' →
              ∀ id : ℕ, (⟨.message, peer, id⟩ : RecordKey) ∈ checkpoint'.records ↔
                ⟨.message, peer, id⟩ ∈ checkpoint.records ∨
                  (id : ℤ) ∈ (idsOf stream peer).drop refresh) ∧
          ∀ plan : ExportPlan, (idsOf stream peer).filter
              (fun id => (((plan.withBase c').historyPeer peer).minimum : ℤ) < id) =
            (idsOf stream peer).take refresh := by
  obtain ⟨hnodup, hfresh⟩ := censusHead_tracks hhead
  refine ⟨⟨fun ⟨c', hc'⟩ => ?_, fun ⟨stream, hnames, hgrouped⟩ => ?_⟩,
    fun c' hc' stream hnames => ?_⟩
  · obtain ⟨stream, hnames, htracks⟩ := tracks_of_foldlM hnodup hfresh hc'
    exact ⟨stream, hnames, htracks.grouped⟩
  · exact foldlM_of_grouped hnodup hfresh hnames hgrouped
  · obtain ⟨stream', hnames', htracks⟩ := tracks_of_foldlM hnodup hfresh hc'
    rw [namesAll_unique hnames' hnames, List.nil_append] at htracks
    refine ⟨fun peer hpeer => ?_, fun peer hpeer => ?_⟩
    · refine List.eq_nil_iff_forall_not_mem.mpr fun id hid => hpeer ?_
      exact htracks.grouped.inDirectory _ (mem_idsOf.mp hid)
    · have hpositive : ∀ id ∈ idsOf stream peer, 0 < id := fun id hid =>
        htracks.grouped.positive _ (mem_idsOf.mp hid)
      have hboundary := htracks.boundaries_eq peer
      rw [if_pos hpeer] at hboundary
      obtain ⟨hold, hnew⟩ :=
        filter_boundary (htracks.grouped.descending peer) hpositive refresh
      have hnonneg : 0 ≤ (idsOf stream peer)[refresh]?.getD 0 := by
        cases hget : (idsOf stream peer)[refresh]? with
        | none => exact le_rfl
        | some id => exact (hpositive id (List.mem_of_getElem? hget)).le
      refine ⟨_, hboundary, hold, fun migrateAdmin migrate checkpoint checkpoint' himport id => ?_,
        fun plan => ?_⟩
      · rw [importBase_records hnames himport, ← hold, List.mem_filter]
        refine or_congr_right ⟨?_, ?_⟩
        · rintro ⟨entry, hentry, rfl, rfl, b, hb, hle⟩
          rw [hboundary] at hb
          cases hb
          have hpos : 0 < entry.2 := htracks.grouped.positive entry hentry
          rw [Int.toNat_of_nonneg hpos.le]
          exact ⟨mem_idsOf.mpr hentry, decide_eq_true hle⟩
        · rintro ⟨hmem, hle⟩
          exact ⟨(peer, id), mem_idsOf.mp hmem, rfl, Int.toNat_natCast id, _, hboundary,
            of_decide_eq_true hle⟩
      · rw [← hnew]
        refine List.filter_congr fun id _ => ?_
        show decide (((((c'.boundaries.lookup peer).getD 0).toNat : ℕ) : ℤ) < id) = _
        rw [hboundary, Option.getD_some, Int.toNat_of_nonneg hnonneg]

/-- A base of one peer. -/
def singlePeerBase (formatVersion : ℕ) (messages : List MessageRecord) : BaseExport where
  formatVersion
  group := some "-5"
  metadata := ⟨some exportOrder, some [some (some "-5")]⟩
  adminEvents := []
  messages
  footer := ∅

/-- The head of a base of one peer. -/
theorem censusHead_singlePeerBase (formatVersion : ℕ) (messages : List MessageRecord)
    (refresh : ℕ) : censusHead (singlePeerBase formatVersion messages) refresh = .ok
      { refresh, formatVersion, group := some "-5", peers := [-5]
        counts := Census.fromKeys [-5] 0, boundaries := Census.fromKeys [-5] 0 } := by
  have hid : canonicalId (some "-5") true = .ok (-5) :=
    canonicalId_eq_ok.mpr ⟨by decide, by decide⟩
  have hrepr : (-5 : ℤ).repr = "-5" := by decide
  simp [censusHead, singlePeerBase, Census.metadata, Census.peerIds, hid, hrepr, bind, Except.bind,
    pure, Except.pure]

/-- Two messages of one peer, the newer one fetched again. -/
theorem census_splits_base_singlePeer :
    ∃ c, censusHead (singlePeerBase 5 [⟨some "-5", some "7", none, some 0⟩,
        ⟨some "-5", some "3", none, some 2⟩]) 1 = .ok c ∧
      ∃ c', List.foldlM Census.message c [⟨some "-5", some "7", none, some 0⟩,
        ⟨some "-5", some "3", none, some 2⟩] = .ok c' := by
  have hhead := censusHead_singlePeerBase 5 [⟨some "-5", some "7", none, some 0⟩,
    ⟨some "-5", some "3", none, some 2⟩] 1
  refine ⟨_, hhead, (census_splits_base hhead).1.mpr ⟨[(-5, 7), (-5, 3)], ?_, ?_⟩⟩
  · refine .cons ⟨by decide, by decide, by decide, by decide, rfl⟩
      (.cons ⟨by decide, by decide, by decide, by decide, rfl⟩ .nil)
  · exact ⟨by decide, by decide, by simp [Follows]⟩

/-- A message in order with the key of another message is rejected. -/
theorem census_rejects_foreign_key :
    ∃ c, censusHead (singlePeerBase 1 [⟨some "-5", some "3", some (some "-5:4"), some 0⟩]) 0 =
        .ok c ∧
      canonicalId (some "-5") true = .ok (-5) ∧ canonicalId (some "3") false = .ok 3 ∧
      GroupedInOrder c.peers [(-5, 3)] ∧
      ¬ ∃ c', List.foldlM Census.message c
        [⟨some "-5", some "3", some (some "-5:4"), some 0⟩] = .ok c' := by
  have hpeer : canonicalId (some "-5") true = .ok (-5) :=
    canonicalId_eq_ok.mpr ⟨by decide, by decide⟩
  have hid : canonicalId (some "3") false = .ok 3 := canonicalId_eq_ok.mpr ⟨by decide, by decide⟩
  have hhead := censusHead_singlePeerBase 1 [⟨some "-5", some "3", some (some "-5:4"), some 0⟩] 0
  refine ⟨_, hhead, hpeer, hid, ⟨by decide, by decide, by simp⟩, fun haccepted => ?_⟩
  have hfresh := (censusHead_tracks hhead).2
  obtain ⟨c', hc'⟩ := haccepted
  obtain ⟨stream, hnames, -⟩ := tracks_of_foldlM (List.nodup_singleton (-5)) hfresh hc'
  cases hnames with
  | @cons _ entry _ _ hentry _ =>
    have hdialog : entry.1 = -5 := Int.repr_injective (Option.some.inj hentry.dialog).symm
    have hmessage : entry.2 = 3 := Int.repr_injective (Option.some.inj hentry.message).symm
    have hkey := hentry.key
    rw [hdialog, hmessage] at hkey
    exact absurd hkey (by decide)

end McpTelegram
