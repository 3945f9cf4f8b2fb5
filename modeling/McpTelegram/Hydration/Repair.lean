import Mathlib.Data.Prod.Lex
import McpTelegram.Foundations.MergedStreams
import McpTelegram.Messages.Contracts
import McpTelegram.Messages.Media

/-!
# The repair scan

The two repair producers of `sqlite_hydration_jobs.py` go through the messages that may lack a
hydration job, page by page with a cursor, and `_run_due_repairs` of `fact_hydration.py` repeats
them while there are more.  A page is read by three range queries, and the media producer merges two
partial indexes with a cursor in each.
-/

namespace McpTelegram

open Foundations

/-! ## The candidates -/

/-- What the repair queries read of a message. -/
structure RepairMessage where
  key : MessageKey
  sentAt : ℤ
  isDeleted : Bool
  mediaKind : Option String
  mediaPayload : Option String

/-- The `messages` table, with its primary key. -/
structure RepairTable where
  rows : List RepairMessage
  nodup : (rows.map (·.key)).Nodup

/-- `_RepairRow`, and `HydrationRepairCursor`. -/
structure RepairRow where
  sentAt : ℤ
  dialogId : ℤ
  messageId : ℤ
  deriving DecidableEq

/-- The row of a message. -/
def RepairMessage.row (message : RepairMessage) : RepairRow :=
  ⟨message.sentAt, message.key.dialogId, message.key.messageId⟩

section Candidates

variable (json : JsonText) (table : RepairTable)

/-- The test of `_REPAIR_TRANSCRIPTION_CANDIDATES_FROM_SQL`. -/
def isTranscriptionCandidate (message : RepairMessage) : Bool :=
  !message.isDeleted && json.transcribableMediaSql message.mediaKind message.mediaPayload

/-- The test of `_REPAIR_MEDIA_METADATA_CONTACT_OTHER_SQL`. -/
def isContactOtherCandidate (message : RepairMessage) : Bool :=
  !message.isDeleted &&
    (message.mediaKind == some "contact" || message.mediaKind == some "other") &&
    message.mediaPayload == some "\x7b\x7d"

/-- The test of `_REPAIR_MEDIA_METADATA_VIDEO_SQL`. -/
def isVideoCandidate (message : RepairMessage) : Bool :=
  !message.isDeleted && message.mediaKind == some "video" &&
    match message.mediaPayload with
    | none => false
    | some text =>
      json.sqlValid text && json.sqlType text == "object" &&
        (json.sqlTypeAt text "$.round_message").isNone

/-- The rows of the messages that pass a test. -/
def repairCandidates (test : RepairMessage → Bool) : List RepairRow :=
  (table.rows.filter test).map RepairMessage.row

end Candidates

/-! ## A page -/

/-- The order `sent_at DESC, dialog_id, message_id`: the greatest of these keys comes first. -/
def repairKey (row : RepairRow) : ℤ ×ₗ ℤ ×ₗ ℤ :=
  toLex (row.sentAt, toLex (-row.dialogId, -row.messageId))

section Pages

variable (candidates : List RepairRow)

/-- A selection with `_REPAIR_ORDER_SQL`. -/
def selectRepairRows (predicate : RepairRow → Bool) (limit : ℕ) : List RepairRow :=
  (greatestFirst repairKey (candidates.filter predicate)).take limit

/-- `seeks` in `_repair_raw_page`. -/
def repairSeeks (cursor : RepairRow) : List (RepairRow → Bool) :=
  [fun row => decide (row.sentAt = cursor.sentAt ∧ row.dialogId = cursor.dialogId ∧
      cursor.messageId < row.messageId),
    fun row => decide (row.sentAt = cursor.sentAt ∧ cursor.dialogId < row.dialogId),
    fun row => decide (row.sentAt < cursor.sentAt)]

/-- The loop over the seeks. -/
def extendRepairRows (limit : ℕ) : List (RepairRow → Bool) → List RepairRow → List RepairRow
  | [], rows => rows
  | predicate :: seeks, rows =>
    if limit - rows.length = 0 then rows
    else
      extendRepairRows limit seeks
        (rows ++ selectRepairRows candidates predicate (limit - rows.length))

/-- `_repair_raw_page`. -/
def repairRawPage (cursor : Option RepairRow) (limit : ℕ) : List RepairRow :=
  match cursor with
  | none => selectRepairRows candidates (fun _ => true) limit
  | some cursor => extendRepairRows candidates limit (repairSeeks cursor) []

end Pages

/-! ## The producers -/

/-- What a call of a producer examines, whether there is more, and the cursors after it.  The rows
that it examines go to `_enqueue_repair_rows`, which writes to the queue alone. -/
structure RepairResult (row cursors : Type) where
  examined : List row
  hasMore : Bool
  next : cursors

/-- `repair_transcription_hydration_jobs`. -/
def repairTranscriptionHydrationJobs (candidates : List RepairRow) (maxJobs : ℕ)
    (cursor : Option RepairRow) : RepairResult RepairRow (Option RepairRow) :=
  if maxJobs = 0 then ⟨[], false, cursor⟩
  else
    let rows := repairRawPage candidates cursor (maxJobs + 1)
    let examined := rows.take maxJobs
    ⟨examined, decide (maxJobs < rows.length), examined.getLast?.or cursor⟩

/-- The cursors of the media producer. -/
structure MediaCursors where
  contactOther : Option RepairRow := none
  video : Option RepairRow := none
  deriving DecidableEq

/-- The cursor of one stream after a row, which is tagged with whether it is a video. -/
def MediaCursors.advance (cursors : MediaCursors) (pair : Bool × RepairRow) : MediaCursors :=
  if pair.1 then { cursors with video := some pair.2 }
  else { cursors with contactOther := some pair.2 }

/-- `repair_media_metadata_hydration_jobs`. -/
def repairMediaMetadataHydrationJobs (contactsOthers videos : List RepairRow) (maxJobs : ℕ)
    (cursors : MediaCursors) : RepairResult (Bool × RepairRow) MediaCursors :=
  if maxJobs = 0 then ⟨[], false, cursors⟩
  else
    let contactRows := repairRawPage contactsOthers cursors.contactOther (maxJobs + 1)
    let videoRows := repairRawPage videos cursors.video (maxJobs + 1)
    let combined := greatestFirst (fun pair : Bool × RepairRow => repairKey pair.2)
      (contactRows.map (Prod.mk false) ++ videoRows.map (Prod.mk true))
    let examined := combined.take maxJobs
    ⟨examined, decide (maxJobs < combined.length), examined.foldl MediaCursors.advance cursors⟩

/-! ## The runner -/

/-- What the worker has fixed: the size of a cycle, whether it has a transcription handler, and the
batch size of its media handler if it has one. -/
structure RepairSetup where
  maxJobsPerCycle : ℕ
  transcribes : Bool
  mediaBatchSize : Option ℕ
  maxJobs_pos : 0 < maxJobsPerCycle
  batchSize_pos : ∀ size ∈ mediaBatchSize, 0 < size

/-- `_repair_cursors`. -/
structure RepairCursors where
  transcription : Option RepairRow := none
  media : MediaCursors := {}
  deriving DecidableEq

section Runner

variable (json : JsonText) (table : RepairTable) (setup : RepairSetup)

/-- The part of `_run_repair_producers` for transcriptions. -/
def runTranscriptionProducer (cursor : Option RepairRow) :
    RepairResult RepairRow (Option RepairRow) :=
  if setup.transcribes then
    repairTranscriptionHydrationJobs
      (repairCandidates table (isTranscriptionCandidate json)) setup.maxJobsPerCycle cursor
  else ⟨[], false, cursor⟩

/-- The part of `_run_repair_producers` for media metadata. -/
def runMediaProducer (cursors : MediaCursors) : RepairResult (Bool × RepairRow) MediaCursors :=
  match setup.mediaBatchSize with
  | none => ⟨[], false, cursors⟩
  | some batchSize =>
    repairMediaMetadataHydrationJobs (repairCandidates table isContactOtherCandidate)
      (repairCandidates table (isVideoCandidate json)) (min batchSize setup.maxJobsPerCycle) cursors

/-- What `_run_due_repairs` examines from the cursors on, call by call while there is more, or
`none` when there is still more after the fuel. -/
def runDueRepairs : ℕ → RepairCursors → Option (List RepairRow × List RepairRow)
  | 0, _ => none
  | fuel + 1, cursors =>
    let transcription := runTranscriptionProducer json table setup cursors.transcription
    let media := runMediaProducer json table setup cursors.media
    let examined := (transcription.examined, media.examined.map Prod.snd)
    if transcription.hasMore || media.hasMore then
      (runDueRepairs fuel ⟨transcription.next, media.next⟩).map fun rest =>
        (examined.1 ++ rest.1, examined.2 ++ rest.2)
    else some examined

end Runner

/-! ## The order of the rows -/

/-- The order of the repair queries. -/
def RepairRow.Before (row other : RepairRow) : Prop :=
  other.sentAt < row.sentAt ∨ other.sentAt = row.sentAt ∧
    (row.dialogId < other.dialogId ∨
      row.dialogId = other.dialogId ∧ row.messageId < other.messageId)

instance RepairRow.decidableBefore (row other : RepairRow) : Decidable (row.Before other) :=
  inferInstanceAs (Decidable (_ ∨ _))

/-- The key of the rows follows the order. -/
theorem repairKey_lt_iff {row other : RepairRow} :
    repairKey other < repairKey row ↔ row.Before other := by
  rw [repairKey, repairKey, Prod.Lex.toLex_lt_toLex, Prod.Lex.toLex_lt_toLex, RepairRow.Before]
  simp only [neg_lt_neg_iff, neg_inj]
  constructor
  all_goals
    rintro (h | ⟨h, h' | ⟨h', h''⟩⟩)
    · exact Or.inl h
    · exact Or.inr ⟨h, Or.inl h'⟩
    · exact Or.inr ⟨h, Or.inr ⟨h'.symm, h''⟩⟩

/-- A row is its key. -/
theorem repairKey_injective : Function.Injective repairKey := by
  intro row other h
  have hkey := congrArg ofLex h
  rw [repairKey, repairKey, ofLex_toLex, ofLex_toLex, Prod.mk.injEq] at hkey
  have hrest := congrArg ofLex hkey.2
  rw [ofLex_toLex, ofLex_toLex, Prod.mk.injEq, neg_inj, neg_inj] at hrest
  obtain ⟨sentAt, dialogId, messageId⟩ := row
  obtain ⟨sentAt', dialogId', messageId'⟩ := other
  obtain rfl : sentAt = sentAt' := hkey.1
  obtain rfl : dialogId = dialogId' := hrest.1
  obtain rfl : messageId = messageId' := hrest.2
  rfl

section Keys

variable {table : RepairTable} {test test' : RepairMessage → Bool}

/-- Two messages have two keys. -/
theorem RepairTable.nodup_repairKey (table : RepairTable) :
    (table.rows.map fun message => repairKey message.row).Nodup := by
  refine List.pairwise_map.mpr ((List.pairwise_map.mp table.nodup).imp fun hne heq => hne ?_)
  have hrow := repairKey_injective heq
  rename_i message other
  have hdialog : message.key.dialogId = other.key.dialogId := congrArg RepairRow.dialogId hrow
  have hmessage : message.key.messageId = other.key.messageId := congrArg RepairRow.messageId hrow
  cases hkey : message.key
  cases hkey' : other.key
  simp_all

/-- Two candidates have two keys. -/
theorem nodup_repairCandidates (table : RepairTable) (test : RepairMessage → Bool) :
    ((repairCandidates table test).map repairKey).Nodup := by
  rw [repairCandidates, List.map_map]
  exact table.nodup_repairKey.sublist (List.filter_sublist.map _)

/-- Candidates of two tests that exclude each other have different keys. -/
theorem nodup_repairCandidates_append
    (hexclude : ∀ message, test message = true → test' message = false) :
    ((repairCandidates table test ++ repairCandidates table test').map repairKey).Nodup := by
  rw [List.map_append]
  refine List.nodup_append.mpr ⟨nodup_repairCandidates table test,
    nodup_repairCandidates table test', fun key hkey key' hkey' => ?_⟩
  rintro rfl
  obtain ⟨row, hrow, rfl⟩ := List.mem_map.mp hkey
  obtain ⟨row', hrow', heq⟩ := List.mem_map.mp hkey'
  obtain ⟨message, hmessage, rfl⟩ := List.mem_map.mp hrow
  obtain ⟨message', hmessage', rfl⟩ := List.mem_map.mp hrow'
  rw [List.mem_filter] at hmessage hmessage'
  have hsame := List.inj_on_of_nodup_map table.nodup_repairKey hmessage'.1 hmessage.1 heq
  rw [hsame, hexclude message hmessage.2] at hmessage'
  exact Bool.false_ne_true hmessage'.2

end Keys

/-! ## The seeks -/

section Seeks

variable {candidates : List RepairRow}

theorem selectRepairRows_eq (hkeys : (candidates.map repairKey).Nodup)
    (predicate : RepairRow → Bool) (limit : ℕ) :
    selectRepairRows candidates predicate limit =
      ((greatestFirst repairKey candidates).filter predicate).take limit := by
  rw [selectRepairRows, greatestFirst_filter repairKey hkeys]

/-- The loop over the seeks takes the rows of all seeks, as far as the limit allows. -/
theorem extendRepairRows_eq (hkeys : (candidates.map repairKey).Nodup) (limit : ℕ)
    (seeks : List (RepairRow → Bool)) (rows : List RepairRow) :
    extendRepairRows candidates limit seeks (rows.take limit) =
      (rows ++ seeks.flatMap fun predicate =>
        (greatestFirst repairKey candidates).filter predicate).take limit := by
  induction seeks generalizing rows with
  | nil => rw [extendRepairRows, List.flatMap_nil, List.append_nil]
  | cons predicate seeks ih =>
    rw [extendRepairRows, List.length_take, List.flatMap_cons, ← List.append_assoc]
    split
    · rename_i hfull
      rw [List.append_assoc, List.take_append, Nat.sub_eq_zero_of_le (by omega), List.take_zero,
        List.append_nil]
    · rename_i hroom
      have hrows : rows.take limit = rows := List.take_of_length_le (by omega)
      rw [← ih, List.take_append, selectRepairRows_eq hkeys, hrows, Nat.min_eq_right (by omega)]

/-- The three seeks together find the rows after the cursor, in their order. -/
theorem flatMap_repairSeeks (hkeys : (candidates.map repairKey).Nodup) (cursor : RepairRow) :
    ((repairSeeks cursor).flatMap fun predicate =>
        (greatestFirst repairKey candidates).filter predicate) =
      rowsAfter repairKey (greatestFirst repairKey candidates) (some cursor) := by
  have hsorted := greatestFirst_pairwise repairKey hkeys
  rw [repairSeeks, List.flatMap_cons, List.flatMap_cons, List.flatMap_singleton,
    ← filter_or_of_before repairKey hsorted, ← filter_or_of_before repairKey hsorted, rowsAfter]
  · refine List.filter_congr fun row _ => ?_
    rw [← Bool.decide_or, ← Bool.decide_or]
    refine decide_eq_decide.mpr ?_
    rw [repairKey_lt_iff, RepairRow.Before]
    omega
  · intro row other hrow hother
    rw [Bool.or_eq_true, decide_eq_true_iff, decide_eq_true_iff] at hother
    have hrow := of_decide_eq_true hrow
    rw [repairKey_lt_iff, RepairRow.Before]
    omega
  · intro row other hrow hother
    have hrow := of_decide_eq_true hrow
    have hother := of_decide_eq_true hother
    rw [repairKey_lt_iff, RepairRow.Before]
    omega

/-- A raw page is the first rows after the cursor. -/
theorem repairRawPage_eq (hkeys : (candidates.map repairKey).Nodup) (cursor : Option RepairRow)
    (limit : ℕ) : repairRawPage candidates cursor limit =
      (rowsAfter repairKey (greatestFirst repairKey candidates) cursor).take limit := by
  cases cursor with
  | none =>
    rw [repairRawPage, selectRepairRows_eq hkeys, List.filter_eq_self.mpr fun _ _ => rfl]
    rfl
  | some cursor =>
    have h := extendRepairRows_eq hkeys limit (repairSeeks cursor) []
    rw [List.take_nil, List.nil_append, flatMap_repairSeeks hkeys] at h
    exact h

end Seeks

/-! ## The transcription producer -/

/-- Where a producer is in its rows: those that are done and those that are left.  A producer
without a handler has no rows. -/
def TranscriptionAt (json : JsonText) (table : RepairTable) (setup : RepairSetup)
    (cursor : Option RepairRow) (rest : List RepairRow) : Prop :=
  if setup.transcribes then
    ∃ done, greatestFirst repairKey (repairCandidates table (isTranscriptionCandidate json)) =
        done ++ rest ∧ cursor = done.getLast?
  else rest = []

section Producers

variable {json : JsonText} {table : RepairTable} {setup : RepairSetup}
variable {rest done : List (Bool × RepairRow)}

/-- A call of the transcription producer examines the next rows. -/
theorem runTranscriptionProducer_eq {cursor : Option RepairRow} {rest : List RepairRow}
    (h : TranscriptionAt json table setup cursor rest) :
    (runTranscriptionProducer json table setup cursor).examined =
        rest.take setup.maxJobsPerCycle ∧
      (runTranscriptionProducer json table setup cursor).hasMore =
        decide (setup.maxJobsPerCycle < rest.length) ∧
      TranscriptionAt json table setup (runTranscriptionProducer json table setup cursor).next
        (rest.drop setup.maxJobsPerCycle) := by
  rw [TranscriptionAt] at h
  rw [runTranscriptionProducer]
  split at h
  · rename_i htranscribes
    obtain ⟨done, hsplit, rfl⟩ := h
    have hkeys := nodup_repairCandidates table (isTranscriptionCandidate json)
    have hsorted := greatestFirst_pairwise repairKey hkeys
    have hpage := repairRawPage_eq hkeys done.getLast? (setup.maxJobsPerCycle + 1)
    rw [hsplit] at hsorted hpage
    rw [rowsAfter_getLast repairKey hsorted] at hpage
    have htake : (rest.take (setup.maxJobsPerCycle + 1)).take setup.maxJobsPerCycle =
        rest.take setup.maxJobsPerCycle := by
      rw [List.take_take, Nat.min_eq_left (Nat.le_succ _)]
    have hpos : setup.maxJobsPerCycle ≠ 0 := setup.maxJobs_pos.ne'
    rw [if_pos htranscribes, repairTranscriptionHydrationJobs, if_neg hpos, hpage]
    refine ⟨htake, ?_, ?_⟩
    · refine decide_eq_decide.mpr ?_
      rw [List.length_take]
      omega
    · rw [TranscriptionAt, if_pos htranscribes]
      refine ⟨done ++ rest.take setup.maxJobsPerCycle, ?_, ?_⟩
      · rw [List.append_assoc, List.take_append_drop, hsplit]
      · dsimp only
        rw [List.getLast?_append, htake]
  · rename_i htranscribes
    subst h
    rw [if_neg htranscribes, TranscriptionAt, if_neg htranscribes]
    simp

/-! ## The media producer -/

/-- The candidates of the media producer, each with whether it is a video. -/
def mediaRows (json : JsonText) (table : RepairTable) : List (Bool × RepairRow) :=
  (repairCandidates table isContactOtherCandidate).map (Prod.mk false) ++
    (repairCandidates table (isVideoCandidate json)).map (Prod.mk true)

/-- The key of a row of the media producer. -/
def mediaKey (pair : Bool × RepairRow) : ℤ ×ₗ ℤ ×ₗ ℤ := repairKey pair.2

/-- A contact or other message is no video. -/
theorem isVideoCandidate_eq_false (json : JsonText) (message : RepairMessage)
    (h : isContactOtherCandidate message = true) : isVideoCandidate json message = false := by
  rw [isContactOtherCandidate, Bool.and_eq_true, Bool.and_eq_true, Bool.or_eq_true,
    beq_iff_eq, beq_iff_eq] at h
  rw [isVideoCandidate]
  rcases h.1.2 with hkind | hkind
  · rw [hkind, show (some "contact" == some "video") = false from by decide, Bool.and_false,
      Bool.false_and]
  · rw [hkind, show (some "other" == some "video") = false from by decide, Bool.and_false,
      Bool.false_and]

/-- Two media rows have two keys. -/
theorem nodup_mediaRows : ((mediaRows json table).map mediaKey).Nodup := by
  have h := @nodup_repairCandidates_append table _ _ (isVideoCandidate_eq_false json)
  rw [mediaRows, List.map_append, List.map_map, List.map_map]
  rw [List.map_append] at h
  exact h

/-- The cursors after some media rows. -/
theorem foldl_advance (done : List (Bool × RepairRow)) :
    done.foldl MediaCursors.advance {} =
      { contactOther := ((done.filter fun pair => pair.1 == false).map Prod.snd).getLast?
        video := ((done.filter fun pair => pair.1 == true).map Prod.snd).getLast? } := by
  induction done using List.reverseRecOn with
  | nil => rfl
  | append_singleton done pair ih =>
    obtain ⟨isVideo, row⟩ := pair
    rw [List.foldl_concat, ih]
    cases isVideo <;> simp [MediaCursors.advance, List.filter_append]

/-- One stream of the sorted media rows. -/
theorem filter_mediaRows (isVideo : Bool) :
    (greatestFirst mediaKey (mediaRows json table)).filter (fun pair => pair.1 == isVideo) =
      (greatestFirst repairKey (repairCandidates table
        (if isVideo then isVideoCandidate json else isContactOtherCandidate))).map
          (Prod.mk isVideo) := by
  have hstream : (mediaRows json table).filter (fun pair => pair.1 == isVideo) =
      (repairCandidates table
        (if isVideo then isVideoCandidate json else isContactOtherCandidate)).map
          (Prod.mk isVideo) := by
    rw [mediaRows, List.filter_append, List.filter_map, List.filter_map]
    cases isVideo <;> simp [Function.comp_def]
  have hkeys := nodup_repairCandidates table
    (if isVideo then isVideoCandidate json else isContactOtherCandidate)
  have hsorted := greatestFirst_pairwise repairKey hkeys
  rw [← greatestFirst_filter mediaKey nodup_mediaRows, hstream]
  have hmapped : ((greatestFirst repairKey (repairCandidates table
      (if isVideo then isVideoCandidate json else isContactOtherCandidate))).map
        (Prod.mk isVideo)).Pairwise fun pair pair' => mediaKey pair' < mediaKey pair :=
    List.pairwise_map.mpr hsorted
  rw [← greatestFirst_of_pairwise mediaKey hmapped]
  refine greatestFirst_congr mediaKey ((greatestFirst_perm repairKey _).symm.map _) ?_
  rw [List.map_map]
  exact hkeys

/-- A raw page of one stream, tagged with the stream. -/
theorem map_repairRawPage (isVideo : Bool)
    (hsplit : greatestFirst mediaKey (mediaRows json table) = done ++ rest) (limit : ℕ) :
    (repairRawPage (repairCandidates table
        (if isVideo then isVideoCandidate json else isContactOtherCandidate))
      ((done.filter fun pair => pair.1 == isVideo).map Prod.snd).getLast? limit).map
        (Prod.mk isVideo) =
      (rest.filter fun pair => pair.1 == isVideo).take limit := by
  have hkeys := nodup_repairCandidates table
    (if isVideo then isVideoCandidate json else isContactOtherCandidate)
  have hsorted := greatestFirst_pairwise repairKey hkeys
  have hstream := congrArg (List.map Prod.snd) (@filter_mediaRows json table isVideo)
  rw [List.map_map, hsplit, List.filter_append, List.map_append] at hstream
  have hid : (Prod.snd ∘ Prod.mk isVideo : RepairRow → RepairRow) = id := rfl
  rw [hid, List.map_id] at hstream
  rw [← hstream] at hsorted
  rw [repairRawPage_eq hkeys, ← hstream, rowsAfter_getLast repairKey hsorted, List.map_take,
    List.map_map]
  refine congrArg (List.take limit) ?_
  refine (List.map_congr_left fun pair hpair => ?_).trans (List.map_id _)
  have htag : pair.1 = isVideo := beq_iff_eq.mp (List.mem_filter.mp hpair).2
  rw [Function.comp_apply, ← htag, id]

/-- Where the media producer is in its rows. -/
def MediaAt (json : JsonText) (table : RepairTable) (setup : RepairSetup) (cursors : MediaCursors)
    (rest : List (Bool × RepairRow)) : Prop :=
  if setup.mediaBatchSize.isSome then
    ∃ done, greatestFirst mediaKey (mediaRows json table) = done ++ rest ∧
      cursors = done.foldl MediaCursors.advance {}
  else rest = []

/-- A call of the media producer examines the next rows of both streams. -/
theorem repairMediaMetadataHydrationJobs_eq
    (hsplit : greatestFirst mediaKey (mediaRows json table) = done ++ rest) {maxJobs : ℕ}
    (hpos : 0 < maxJobs) :
    repairMediaMetadataHydrationJobs (repairCandidates table isContactOtherCandidate)
        (repairCandidates table (isVideoCandidate json)) maxJobs
        (done.foldl MediaCursors.advance {}) =
      ⟨rest.take maxJobs, decide (maxJobs < rest.length),
        (done ++ rest.take maxJobs).foldl MediaCursors.advance {}⟩ := by
  have hsorted := greatestFirst_pairwise mediaKey (@nodup_mediaRows json table)
  rw [hsplit] at hsorted
  have hrest := (List.pairwise_append.mp hsorted).2.1
  have hcontacts := map_repairRawPage false hsplit (maxJobs + 1)
  have hvideos := map_repairRawPage true hsplit (maxJobs + 1)
  have hsplitRest : ((rest.filter fun pair => pair.1 == false) ++
      rest.filter fun pair => pair.1 == true).Perm rest := by
    have hnot : (fun pair : Bool × RepairRow => pair.1 == true) =
        fun pair => !(pair.1 == false) := by
      funext pair
      cases pair.1 <;> rfl
    rw [hnot]
    exact List.filter_append_perm _ _
  have hkeysRest : (rest.map mediaKey).Nodup :=
    List.pairwise_map.mpr (hrest.imp fun h => (ne_of_lt h).symm)
  have hkeysSplit := ((hsplitRest.map mediaKey).nodup_iff.mpr hkeysRest)
  have hmerge := take_greatestFirst_append mediaKey hkeysSplit (maxJobs + 1)
  rw [greatestFirst_of_pairwise mediaKey (hrest.filter _),
    greatestFirst_of_pairwise mediaKey (hrest.filter _),
    greatestFirst_congr mediaKey hsplitRest hkeysSplit,
    greatestFirst_of_pairwise mediaKey hrest] at hmerge
  rw [repairMediaMetadataHydrationJobs, if_neg hpos.ne', foldl_advance]
  have hcontacts' := hcontacts
  have hvideos' := hvideos
  rw [if_neg Bool.false_ne_true] at hcontacts'
  rw [if_pos rfl] at hvideos'
  dsimp only
  rw [hcontacts', hvideos']
  set combined := greatestFirst (fun pair : Bool × RepairRow => repairKey pair.2)
    (((rest.filter fun pair => pair.1 == false).take (maxJobs + 1)) ++
      (rest.filter fun pair => pair.1 == true).take (maxJobs + 1)) with hcombined
  have hcombinedTake : combined.take (maxJobs + 1) = rest.take (maxJobs + 1) := hmerge
  have htake : combined.take maxJobs = rest.take maxJobs := by
    have h := congrArg (List.take maxJobs) hcombinedTake
    rwa [List.take_take, List.take_take, Nat.min_eq_left (Nat.le_succ _)] at h
  have hlength := congrArg List.length hcombinedTake
  rw [List.length_take, List.length_take] at hlength
  rw [htake, List.foldl_append, foldl_advance]
  refine congrArg (fun hasMore => RepairResult.mk (rest.take maxJobs) hasMore _) ?_
  refine decide_eq_decide.mpr ?_
  omega

/-- A call of the media producer examines the next rows. -/
theorem runMediaProducer_eq {cursors : MediaCursors} (h : MediaAt json table setup cursors rest) :
    ∃ maxJobs, 0 < maxJobs ∧
      (runMediaProducer json table setup cursors).examined = rest.take maxJobs ∧
      (runMediaProducer json table setup cursors).hasMore = decide (maxJobs < rest.length) ∧
      MediaAt json table setup (runMediaProducer json table setup cursors).next
        (rest.drop maxJobs) := by
  rw [MediaAt] at h
  cases hsize : setup.mediaBatchSize with
  | none =>
    rw [hsize, if_neg (by simp)] at h
    subst h
    refine ⟨1, Nat.one_pos, ?_⟩
    simp [runMediaProducer, MediaAt, hsize]
  | some batchSize =>
    rw [hsize, if_pos (Option.isSome_some)] at h
    obtain ⟨done, hsplit, rfl⟩ := h
    have hpos : 0 < min batchSize setup.maxJobsPerCycle :=
      lt_min (setup.batchSize_pos batchSize hsize) setup.maxJobs_pos
    refine ⟨min batchSize setup.maxJobsPerCycle, hpos, ?_⟩
    simp only [runMediaProducer, hsize, repairMediaMetadataHydrationJobs_eq hsplit hpos]
    refine ⟨trivial, trivial, ?_⟩
    rw [MediaAt, hsize, if_pos (Option.isSome_some)]
    refine ⟨done ++ rest.take (min batchSize setup.maxJobsPerCycle), ?_, rfl⟩
    rw [List.append_assoc, List.take_append_drop, hsplit]

/-! ## The whole scan -/

/-- The scan examines the rows that are left, in their order, and stops. -/
theorem runDueRepairs_of_at {fuel : ℕ} {cursors : RepairCursors} {rest : List RepairRow}
    {mediaRest : List (Bool × RepairRow)}
    (htranscription : TranscriptionAt json table setup cursors.transcription rest)
    (hmedia : MediaAt json table setup cursors.media mediaRest)
    (hfuel : rest.length + mediaRest.length < fuel) :
    runDueRepairs json table setup fuel cursors = some (rest, mediaRest.map Prod.snd) := by
  induction fuel generalizing cursors rest mediaRest with
  | zero => exact absurd hfuel (Nat.not_lt_zero _)
  | succ fuel ih =>
    obtain ⟨hexamined, hmore, hnext⟩ := runTranscriptionProducer_eq htranscription
    obtain ⟨maxJobs, hpos, hmediaExamined, hmediaMore, hmediaNext⟩ := runMediaProducer_eq hmedia
    have hjobs := setup.maxJobs_pos
    rw [runDueRepairs]
    dsimp only
    rw [hexamined, hmediaExamined, hmore, hmediaMore, ← Bool.decide_or]
    by_cases hgo : setup.maxJobsPerCycle < rest.length ∨ maxJobs < mediaRest.length
    · have hdrop := @ih ⟨_, _⟩ _ _ hnext hmediaNext (by
        rw [List.length_drop, List.length_drop]
        omega)
      rw [if_pos (decide_eq_true hgo), hdrop, Option.map_some]
      dsimp only
      rw [List.take_append_drop, ← List.map_append, List.take_append_drop]
    · rw [if_neg (fun h => hgo (of_decide_eq_true h)), List.take_of_length_le (by omega),
        List.take_of_length_le (by omega)]

end Producers

/-- The repair scan goes through every candidate once, in the order of the index, and stops.  A raw
page is the first rows after its cursor, and the media producer pages the union of its streams. -/
theorem repair_scan_complete (json : JsonText) (table : RepairTable) (setup : RepairSetup) :
    (∃ fuel examined mediaExamined,
      runDueRepairs json table setup fuel {} = some (examined, mediaExamined) ∧
      examined.Perm (if setup.transcribes then
        repairCandidates table (isTranscriptionCandidate json) else []) ∧
      examined.Pairwise RepairRow.Before ∧
      mediaExamined.Perm (if setup.mediaBatchSize.isSome then
        repairCandidates table isContactOtherCandidate ++
          repairCandidates table (isVideoCandidate json) else []) ∧
      mediaExamined.Pairwise RepairRow.Before) ∧
    (∀ (test : RepairMessage → Bool) (cursor : RepairRow) (limit : ℕ),
      ∃ sorted : List RepairRow, sorted.Perm (repairCandidates table test) ∧
        sorted.Pairwise RepairRow.Before ∧
        repairRawPage (repairCandidates table test) none limit = sorted.take limit ∧
        repairRawPage (repairCandidates table test) (some cursor) limit =
          (sorted.filter fun row => cursor.Before row).take limit) ∧
    ∀ (done rest : List (Bool × RepairRow)) (maxJobs : ℕ), 0 < maxJobs →
      (done ++ rest).Perm (mediaRows json table) →
      (done ++ rest).Pairwise (fun pair pair' => RepairRow.Before pair.2 pair'.2) →
        repairMediaMetadataHydrationJobs (repairCandidates table isContactOtherCandidate)
            (repairCandidates table (isVideoCandidate json)) maxJobs
            (done.foldl MediaCursors.advance {}) =
          ⟨rest.take maxJobs, decide (maxJobs < rest.length),
            (done ++ rest.take maxJobs).foldl MediaCursors.advance {}⟩ := by
  refine ⟨?_, fun test cursor limit => ?_, fun done rest maxJobs hpos hperm hsorted => ?_⟩
  · have hkeys := nodup_repairCandidates table (isTranscriptionCandidate json)
    have hmediaSorted := greatestFirst_pairwise mediaKey (@nodup_mediaRows json table)
    have htranscription : TranscriptionAt json table setup none
        (if setup.transcribes then greatestFirst repairKey
          (repairCandidates table (isTranscriptionCandidate json)) else []) := by
      rw [TranscriptionAt]
      split
      · exact ⟨[], rfl, rfl⟩
      · rfl
    have hmedia : MediaAt json table setup {} (if setup.mediaBatchSize.isSome then
        greatestFirst mediaKey (mediaRows json table) else []) := by
      rw [MediaAt]
      split
      · exact ⟨[], rfl, rfl⟩
      · rfl
    refine ⟨_, _, _, @runDueRepairs_of_at _ _ _ _ {} _ _ htranscription hmedia
      (Nat.lt_succ_self _), ?_, ?_, ?_, ?_⟩
    · split
      · exact greatestFirst_perm repairKey _
      · exact List.Perm.refl _
    · split
      · exact (greatestFirst_pairwise repairKey hkeys).imp repairKey_lt_iff.mp
      · exact List.Pairwise.nil
    · split
      · have hperm := (greatestFirst_perm mediaKey (mediaRows json table)).map Prod.snd
        rw [mediaRows, List.map_append, List.map_map, List.map_map] at hperm
        have hid : ∀ isVideo : Bool, (Prod.snd ∘ Prod.mk isVideo : RepairRow → RepairRow) = id :=
          fun _ => rfl
        rw [hid, hid, List.map_id, List.map_id] at hperm
        exact hperm
      · exact List.Perm.refl _
    · split
      · exact List.pairwise_map.mpr (hmediaSorted.imp repairKey_lt_iff.mp)
      · exact List.Pairwise.nil
  · have hkeys := nodup_repairCandidates table test
    refine ⟨_, greatestFirst_perm repairKey _,
      (greatestFirst_pairwise repairKey hkeys).imp repairKey_lt_iff.mp, ?_, ?_⟩
    · exact repairRawPage_eq hkeys none limit
    · rw [repairRawPage_eq hkeys, rowsAfter]
      simp only [repairKey_lt_iff]
  · refine repairMediaMetadataHydrationJobs_eq ?_ hpos
    have hsorted' : (done ++ rest).Pairwise fun pair pair' => mediaKey pair' < mediaKey pair :=
      hsorted.imp repairKey_lt_iff.mpr
    rw [← greatestFirst_of_pairwise mediaKey hsorted']
    exact greatestFirst_congr mediaKey hperm.symm nodup_mediaRows

end McpTelegram
