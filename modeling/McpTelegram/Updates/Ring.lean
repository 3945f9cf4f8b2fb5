import McpTelegram.Foundations.Run

/-!
# The update ring

`telegram_update_ring.py`: bounded staging for decoded Telegram notification envelopes.  Envelopes
are captured at the back of a deque and leave it at the front, when the writer acknowledges the
batch it peeked, or when capacity pressure or a reset evicts them.

The byte counters are integers because the code decrements them with a plain `-=`; that they never
become negative is part of what is proved about them.
-/

namespace McpTelegram

/-- `MAX_RETAINED_BYTES`. -/
def maxRetainedBytes : ℤ := 64 * 1024 * 1024

/-- `MAX_ENTRY_BYTES`. -/
def maxEntryBytes : ℕ := 4 * 1024 * 1024

/-- `MAX_ENTRIES`. -/
def maxEntries : ℕ := 65536

/-- `MAX_TRACE_IDS`. -/
def maxTraceIds : ℕ := 2

/-- `_Entry`: one staged envelope. -/
structure RingEntry where
  sequence : ℕ
  observedAtMs : ℤ
  source : String
  constructorName : String
  payloadJson : String
  payloadBytes : ℕ
  traceIds : List String := []
  deriving DecidableEq

/-- `UpdateRecord`: what the writer is handed for one entry.  The trace identifiers are kept as the
list that the code renders to JSON. -/
structure UpdateRecord where
  runtimeId : String
  sequence : ℕ
  observedAtMs : ℤ
  source : String
  constructorName : String
  payloadJson : String
  payloadBytes : ℕ
  traceIds : List String
  deriving DecidableEq

/-- `_counters`. -/
structure RingCounters where
  evictedCapacity : ℕ := 0
  rejectedOversize : ℕ := 0
  serializationFailures : ℕ := 0
  resetEvicted : ℕ := 0
  deriving DecidableEq

/-- `TelegramUpdateRing`. -/
structure UpdateRing where
  runtimeId : String
  accountId : Option ℤ := none
  entries : List RingEntry := []
  sequence : ℕ := 0
  bytes : ℤ := 0
  inflightThrough : ℕ := 0
  inflightBytes : ℤ := 0
  orphanedBytes : ℤ := 0
  generation : Option ℤ := none
  requestRevision : ℕ := 0
  desiredAccount : Option ℤ := none
  logoutSerial : ℕ := 0
  completedLogoutSerial : ℕ := 0
  counters : RingCounters := {}
  deriving DecidableEq

/-- The payload bytes of a list of entries. -/
def payloadTotal (entries : List RingEntry) : ℤ :=
  (entries.map fun e => (e.payloadBytes : ℤ)).sum

@[simp] theorem payloadTotal_nil : payloadTotal [] = 0 := rfl

@[simp] theorem payloadTotal_cons (e : RingEntry) (es : List RingEntry) :
    payloadTotal (e :: es) = e.payloadBytes + payloadTotal es := by
  simp [payloadTotal]

@[simp] theorem payloadTotal_append (es fs : List RingEntry) :
    payloadTotal (es ++ fs) = payloadTotal es + payloadTotal fs := by
  simp [payloadTotal]

theorem payloadTotal_nonneg (es : List RingEntry) : 0 ≤ payloadTotal es := by
  induction es with
  | nil => simp
  | cons e es ih => rw [payloadTotal_cons]; omega

theorem payloadTotal_le_of_sublist {es fs : List RingEntry} (h : es.Sublist fs) :
    payloadTotal es ≤ payloadTotal fs := by
  induction h with
  | slnil => rfl
  | cons e _ ih => rw [payloadTotal_cons]; omega
  | cons_cons e _ ih => rw [payloadTotal_cons, payloadTotal_cons]; omega

namespace UpdateRing

/-- `reset`: drop every entry, and keep the bytes of a batch still held by the writer reserved. -/
def reset (r : UpdateRing) : UpdateRing :=
  { r with
    counters := { r.counters with resetEvicted := r.counters.resetEvicted + r.entries.length }
    entries := []
    bytes := 0
    orphanedBytes := r.inflightBytes
    inflightThrough := 0
    accountId := none }

/-- `request_verified_account`. -/
def requestVerifiedAccount (r : UpdateRing) (accountId : ℤ) : UpdateRing :=
  if r.desiredAccount = some accountId then r
  else
    let r := { r with generation := none }
    let r := if r.accountId ≠ none ∧ r.accountId ≠ some accountId then r.reset else r
    { r with desiredAccount := some accountId, requestRevision := r.requestRevision + 1 }

/-- `request_logout`. -/
def requestLogout (r : UpdateRing) : UpdateRing :=
  let r := { r with generation := none }.reset
  { r with
    desiredAccount := none
    requestRevision := r.requestRevision + 1
    logoutSerial := r.logoutSerial + 1 }

/-- `complete_bind`. -/
def completeBind (r : UpdateRing) (accountId : ℤ) (revision : ℕ) (generation : ℤ) : UpdateRing :=
  if revision = r.requestRevision ∧ r.completedLogoutSerial = r.logoutSerial then
    { r with accountId := some accountId, generation := some generation }
  else r

/-- The lifecycle owner's assignment to `completed_logout_serial`. -/
def completeLogout (r : UpdateRing) (serial : ℕ) : UpdateRing :=
  { r with completedLogoutSerial := serial }

/-- What the loop of `_make_room` leaves: whether there is room, the bytes and entries still in the
ring, and how many captures capacity cost. -/
structure Room where
  fits : Bool
  bytes : ℤ
  evicted : ℕ
  entries : List RingEntry

/-- The loop of `_make_room`: `_drop_oldest` until a payload of `size` bytes fits next to the
`orphaned` ones, but never an entry of the batch in flight. -/
def roomLoop (size : ℕ) (orphaned : ℤ) (inflightThrough : ℕ) : ℤ → ℕ → List RingEntry → Room
  | bytes, evicted, [] =>
    if bytes + orphaned + size > maxRetainedBytes then ⟨false, bytes, evicted + 1, []⟩
    else ⟨true, bytes, evicted, []⟩
  | bytes, evicted, oldest :: rest =>
    if bytes + orphaned + size > maxRetainedBytes ∨ (oldest :: rest).length ≥ maxEntries then
      if oldest.sequence ≤ inflightThrough then ⟨false, bytes, evicted + 1, oldest :: rest⟩
      else roomLoop size orphaned inflightThrough (bytes - oldest.payloadBytes) (evicted + 1) rest
    else ⟨true, bytes, evicted, oldest :: rest⟩

/-- `_make_room`: the answer tells whether there is room. -/
def makeRoom (size : ℕ) (r : UpdateRing) : Bool × UpdateRing :=
  let room := roomLoop size r.orphanedBytes r.inflightThrough r.bytes r.counters.evictedCapacity
    r.entries
  (room.fits, { r with
    entries := room.entries
    bytes := room.bytes
    counters := { r.counters with evictedCapacity := room.evicted } })

/-- What `capture` learns about an item: its TL name and its JSON text, or `none` when the item is
not a TL object or does not serialise. -/
abbrev Serialized := Option (String × String)

/-- `capture`. -/
def capture (r : UpdateRing) (item : Serialized) (observedAtMs : ℤ) (source : String) :
    UpdateRing :=
  let r := { r with sequence := r.sequence + 1 }
  match item with
  | none =>
    { r with counters := { r.counters with
      serializationFailures := r.counters.serializationFailures + 1 } }
  | some (name, payload) =>
    let size := payload.utf8ByteSize
    if size > maxEntryBytes then
      { r with counters := { r.counters with
        rejectedOversize := r.counters.rejectedOversize + 1 } }
    else
      match makeRoom size r with
      | (false, r) => r
      | (true, r) =>
        { r with
          entries := r.entries ++ [{
            sequence := r.sequence
            observedAtMs := observedAtMs
            source := source
            constructorName := name
            payloadJson := payload
            payloadBytes := size }]
          bytes := r.bytes + size }

/-- `associate_trace`: a trace identifier goes to the newest entry only. -/
def associateTrace (r : UpdateRing) (sequence : ℕ) (traceId : String) : UpdateRing :=
  match r.entries.getLast? with
  | none => r
  | some e =>
    if e.sequence = sequence ∧ traceId ∉ e.traceIds ∧ e.traceIds.length < maxTraceIds then
      { r with entries := r.entries.dropLast ++ [{ e with traceIds := e.traceIds ++ [traceId] }] }
    else r

/-- The record handed out for one entry. -/
def record (r : UpdateRing) (e : RingEntry) : UpdateRecord where
  runtimeId := r.runtimeId
  sequence := e.sequence
  observedAtMs := e.observedAtMs
  source := e.source
  constructorName := e.constructorName
  payloadJson := e.payloadJson
  payloadBytes := e.payloadBytes
  traceIds := e.traceIds

/-- The loop of `peek_batch`: the entries taken from the front, `count` and `total` being what was
taken before. -/
def peekLoop (maxCount maxBytes : ℤ) : ℕ → ℤ → List RingEntry → List RingEntry
  | _, _, [] => []
  | count, total, e :: es =>
    if (count : ℤ) ≥ maxCount ∨ total + e.payloadBytes > maxBytes then []
    else e :: peekLoop maxCount maxBytes (count + 1) (total + e.payloadBytes) es

/-- `peek_batch`: the records of the batch and the ring that remembers it as in flight. -/
def peekBatch (r : UpdateRing) (maxCount maxBytes : ℤ) : List UpdateRecord × UpdateRing :=
  let taken := peekLoop maxCount maxBytes 0 0 r.entries
  match taken.getLast? with
  | none => ([], r)
  | some last =>
    (taken.map r.record,
      { r with inflightThrough := last.sequence, inflightBytes := payloadTotal taken })

/-- The loop of `ack_batch`: drop the entries up to a sequence number from the front. -/
def ackLoop (through : ℕ) : ℤ → List RingEntry → ℤ × List RingEntry
  | bytes, [] => (bytes, [])
  | bytes, e :: es =>
    if e.sequence ≤ through then ackLoop through (bytes - e.payloadBytes) es else (bytes, e :: es)

/-- `ack_batch`. -/
def ackBatch (r : UpdateRing) (records : List UpdateRecord) : UpdateRing :=
  match records.getLast? with
  | none => r
  | some last =>
    { r with
      bytes := (ackLoop last.sequence r.bytes r.entries).1
      entries := (ackLoop last.sequence r.bytes r.entries).2
      inflightThrough := 0
      inflightBytes := 0
      orphanedBytes := 0 }

/-- `release_batch`. -/
def releaseBatch (r : UpdateRing) : UpdateRing :=
  { r with inflightThrough := 0, inflightBytes := 0, orphanedBytes := 0 }

/-- `discard_batch`: acknowledge, and count what left the ring as reset. -/
def discardBatch (r : UpdateRing) (records : List UpdateRecord) : UpdateRing :=
  let before := r.entries.length
  let r := r.ackBatch records
  { r with counters := { r.counters with
    resetEvicted := r.counters.resetEvicted + (before - r.entries.length) } }

end UpdateRing

/-! ## The ring and its writer -/

/-- The calls the producers, the account owner and the writer make. -/
inductive RingCall where
  | capture (item : UpdateRing.Serialized) (observedAtMs : ℤ) (source : String)
  | associateTrace (sequence : ℕ) (traceId : String)
  | peekBatch (maxCount maxBytes : ℤ)
  | ackBatch
  | discardBatch
  | releaseBatch
  | reset
  | requestVerifiedAccount (accountId : ℤ)
  | requestLogout
  | completeBind (accountId : ℤ) (revision : ℕ) (generation : ℤ)
  | completeLogout (serial : ℕ)

/-- The ring together with the one writer: the batch it holds, and, for the accounting, how many
entries its acknowledgements removed and whether the ring was reset while it held its batch. -/
structure RingWorld where
  ring : UpdateRing
  outstanding : Option (List UpdateRecord) := none
  orphaned : Bool := false
  acknowledged : ℕ := 0

namespace RingWorld

/-- A new ring and an idle writer. -/
def init (runtimeId : String) : RingWorld := { ring := { runtimeId := runtimeId } }

/-- A call that may have reset the ring: a batch held across a reset is orphaned. -/
def afterReset (w : RingWorld) (ring : UpdateRing) : RingWorld :=
  { w with ring := ring, orphaned := w.orphaned || (w.outstanding.isSome && ring.entries.isEmpty) }

/-- One call.  The writer peeks only when it holds no batch, and acknowledges or discards exactly
the batch it holds. -/
def step (w : RingWorld) : RingCall → Option RingWorld
  | .capture item observedAtMs source =>
    some { w with ring := w.ring.capture item observedAtMs source }
  | .associateTrace sequence traceId =>
    some { w with ring := w.ring.associateTrace sequence traceId }
  | .peekBatch maxCount maxBytes =>
    match w.outstanding with
    | some _ => none
    | none =>
      let (records, ring) := w.ring.peekBatch maxCount maxBytes
      some { w with
        ring := ring
        outstanding := if records.isEmpty then none else some records
        orphaned := false }
  | .ackBatch =>
    w.outstanding.map fun records =>
      let ring := w.ring.ackBatch records
      { w with
        ring := ring
        outstanding := none
        acknowledged := w.acknowledged + (w.ring.entries.length - ring.entries.length) }
  | .discardBatch =>
    w.outstanding.map fun records =>
      { w with ring := w.ring.discardBatch records, outstanding := none }
  | .releaseBatch => some { w with ring := w.ring.releaseBatch, outstanding := none }
  | .reset => some (w.afterReset w.ring.reset)
  | .requestVerifiedAccount accountId =>
    some (w.afterReset (w.ring.requestVerifiedAccount accountId))
  | .requestLogout => some (w.afterReset w.ring.requestLogout)
  | .completeBind accountId revision generation =>
    some { w with ring := w.ring.completeBind accountId revision generation }
  | .completeLogout serial => some { w with ring := w.ring.completeLogout serial }

end RingWorld

end McpTelegram
