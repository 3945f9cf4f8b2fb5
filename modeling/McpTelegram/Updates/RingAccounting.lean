import McpTelegram.Updates.Ring

/-!
# The accounting of the update ring

`RingWorld.Invariant` says what the ring and its writer maintain over every sequence of calls: the
byte counter is the sum of the retained payloads, sequence numbers increase, the capacity bounds
hold together with the reservation for an orphaned batch, the batch in flight is the front of the
ring until a reset orphans it, and every captured envelope is in exactly one of the counts.

Each loop of the ring has one lemma that says everything it does (`roomLoop_spec`, `ackLoop_spec`,
`peekLoop_prefix`); the step lemma `step_invariant` only uses these.
-/

namespace McpTelegram

open Foundations

variable {held : List RingEntry}
variable {records : List UpdateRecord}

/-- The sum of the four eviction and failure counts. -/
def RingCounters.total (c : RingCounters) : ℕ :=
  c.evictedCapacity + c.rejectedOversize + c.serializationFailures + c.resetEvicted

namespace UpdateRing

/-! ## What the operations do -/

/-- `_make_room` drops a front part of the entries, none of it in flight; when it succeeds the new
payload fits and the entry count is below its bound. -/
theorem roomLoop_spec (size : ℕ) (orphaned : ℤ) (through : ℕ) (bytes : ℤ) (evicted : ℕ)
    (entries : List RingEntry) :
    ∃ dropped,
      entries = dropped ++ (roomLoop size orphaned through bytes evicted entries).entries ∧
      (∀ e ∈ dropped, through < e.sequence) ∧
      (roomLoop size orphaned through bytes evicted entries).bytes = bytes - payloadTotal dropped ∧
      (roomLoop size orphaned through bytes evicted entries).evicted = evicted + dropped.length +
        (if (roomLoop size orphaned through bytes evicted entries).fits then 0 else 1) ∧
      ((roomLoop size orphaned through bytes evicted entries).fits = true →
        (roomLoop size orphaned through bytes evicted entries).bytes + orphaned + size ≤
          maxRetainedBytes ∧
        (roomLoop size orphaned through bytes evicted entries).entries.length < maxEntries) := by
  induction entries generalizing bytes evicted with
  | nil =>
    refine ⟨[], ?_⟩
    unfold roomLoop
    split
    · simp
    · simp [maxEntries]; omega
  | cons oldest rest ih =>
    unfold roomLoop
    split
    · split
      · exact ⟨[], by simp⟩
      · rename_i hfree
        obtain ⟨dropped, hsplit, hfreeRest, hbytes, hevicted, hfits⟩ :=
          ih (bytes - oldest.payloadBytes) (evicted + 1)
        refine ⟨oldest :: dropped, ?_, ?_, ?_, ?_, hfits⟩
        · rw [List.cons_append, ← hsplit]
        · rintro e (_ | ⟨_, he⟩)
          · omega
          · exact hfreeRest e he
        · rw [hbytes, payloadTotal_cons]; ring
        · rw [hevicted, List.length_cons]; ring
    · rename_i hroom
      refine ⟨[], ?_⟩
      push Not at hroom
      simpa using hroom

/-- `ack_batch` drops exactly the entries up to the given sequence number. -/
theorem ackLoop_spec (through : ℕ) (bytes : ℤ) {entries : List RingEntry}
    (hsorted : entries.Pairwise (·.sequence < ·.sequence)) :
    (ackLoop through bytes entries).2 = entries.filter (through < ·.sequence) ∧
      bytes - payloadTotal entries =
        (ackLoop through bytes entries).1 - payloadTotal (ackLoop through bytes entries).2 := by
  induction entries generalizing bytes with
  | nil => simp [ackLoop]
  | cons e es ih =>
    rw [List.pairwise_cons] at hsorted
    unfold ackLoop
    by_cases he : e.sequence ≤ through
    · obtain ⟨hkept, htotal⟩ := ih (bytes - e.payloadBytes) hsorted.2
      rw [if_pos he, List.filter_cons_of_neg (by simpa using he)]
      exact ⟨hkept, by rw [payloadTotal_cons, ← htotal]; ring⟩
    · rw [if_neg he]
      have hall : ∀ x ∈ e :: es, through < x.sequence := by
        rintro x (_ | ⟨_, hx⟩)
        · omega
        · have := hsorted.1 x hx; omega
      exact ⟨(List.filter_eq_self.mpr fun x hx => by simpa using hall x hx).symm, rfl⟩

/-- What `capture` does: a front part of the entries outside the batch in flight may leave, at most
one entry with the new sequence number comes in at the back, within both bounds, and every entry
that left and the envelope itself, unless it came in, are counted. -/
theorem capture_spec (r : UpdateRing) (item : Serialized) (observedAtMs : ℤ) (source : String) :
    ∃ dropped kept added counters,
      r.entries = dropped ++ kept ∧ (∀ e ∈ dropped, r.inflightThrough < e.sequence) ∧
      r.capture item observedAtMs source = { r with
        sequence := r.sequence + 1
        entries := kept ++ added
        bytes := r.bytes - payloadTotal dropped + payloadTotal added
        counters := counters } ∧
      (added = [] ∨ (∃ e, added = [e] ∧ e.sequence = r.sequence + 1) ∧
        r.bytes - payloadTotal dropped + payloadTotal added + r.orphanedBytes ≤ maxRetainedBytes ∧
        (kept ++ added).length ≤ maxEntries) ∧
      counters.total + added.length = r.counters.total + dropped.length + 1 := by
  unfold capture
  cases item with
  | none =>
    refine ⟨[], r.entries, [],
      { r.counters with serializationFailures := r.counters.serializationFailures + 1 },
      rfl, by simp, ?_, Or.inl rfl, ?_⟩
    · simp
    · simp [RingCounters.total]; omega
  | some item =>
    obtain ⟨name, payload⟩ := item
    by_cases hsize : payload.utf8ByteSize > maxEntryBytes
    · refine ⟨[], r.entries, [],
        { r.counters with rejectedOversize := r.counters.rejectedOversize + 1 },
        rfl, by simp, ?_, Or.inl rfl, ?_⟩
      · simp [hsize]
      · simp [RingCounters.total]; omega
    · obtain ⟨dropped, hsplit, hfree, hbytes, hevicted, hfits⟩ :=
        roomLoop_spec payload.utf8ByteSize r.orphanedBytes r.inflightThrough r.bytes
          r.counters.evictedCapacity r.entries
      simp only [makeRoom, if_neg hsize]
      generalize roomLoop payload.utf8ByteSize r.orphanedBytes r.inflightThrough r.bytes
        r.counters.evictedCapacity r.entries = room at *
      cases hroom : room.fits with
      | false =>
        refine ⟨dropped, room.entries, [], { r.counters with evictedCapacity := room.evicted },
          hsplit, hfree, ?_, Or.inl rfl, ?_⟩
        · simp [hbytes]
        · simp [RingCounters.total, hevicted, hroom]; omega
      | true =>
        obtain ⟨hfit, hlength⟩ := hfits hroom
        refine ⟨dropped, room.entries, [{
            sequence := r.sequence + 1
            observedAtMs := observedAtMs
            source := source
            constructorName := name
            payloadJson := payload
            payloadBytes := payload.utf8ByteSize }],
          { r.counters with evictedCapacity := room.evicted },
          hsplit, hfree, ?_, Or.inr ⟨⟨_, rfl, rfl⟩, ?_, ?_⟩, ?_⟩
        · simp [hbytes]
        · rw [← hbytes, payloadTotal_cons, payloadTotal_nil]; linarith
        · simpa using hlength
        · simp [RingCounters.total, hevicted, hroom]; omega

/-- The loop of `peek_batch` takes a front part of the entries. -/
theorem peekLoop_prefix (maxCount maxBytes : ℤ) (count : ℕ) (total : ℤ) (entries : List RingEntry) :
    peekLoop maxCount maxBytes count total entries <+: entries := by
  induction entries generalizing count total with
  | nil => exact List.prefix_rfl
  | cons e es ih =>
    unfold peekLoop
    split
    · exact List.nil_prefix
    · exact (List.prefix_cons_inj e).mpr (ih _ _)

end UpdateRing

/-! ## The batch of the writer -/

/-- The sequence numbers of a batch. -/
def batchSequences (records : List UpdateRecord) : List ℕ := records.map (·.sequence)

/-- The last sequence number of a batch. -/
def throughOf (records : List UpdateRecord) : ℕ := (batchSequences records).getLast?.getD 0

/-- Entries with the sequence numbers of a batch end with its last sequence number. -/
theorem throughOf_eq_of_map_eq (h : held.map (·.sequence) = batchSequences records)
    (hne : held ≠ []) : throughOf records = (held.getLast hne).sequence := by
  rw [throughOf, ← h, List.getLast?_map, List.getLast?_eq_some_getLast hne]
  rfl

/-- In increasing entries every one is at most the last one. -/
theorem sequence_le_getLast (hne : held ≠ []) (hsorted : held.Pairwise (·.sequence < ·.sequence))
    {e : RingEntry} (he : e ∈ held) : e.sequence ≤ (held.getLast hne).sequence := by
  rw [← List.dropLast_append_getLast hne] at hsorted he
  rcases List.mem_append.mp he with hmem | hmem
  · exact ((List.pairwise_append.mp hsorted).2.2 e hmem _ (by simp)).le
  · rw [List.mem_singleton.mp hmem]

namespace UpdateRing

/-- `ack_batch` of a nonempty batch removes the entries up to its last sequence number, and ends
every reservation. -/
theorem ackBatch_spec (r : UpdateRing) (hne : records ≠ [])
    (hsorted : r.entries.Pairwise (·.sequence < ·.sequence)) :
    r.ackBatch records = { r with
      entries := r.entries.filter (throughOf records < ·.sequence)
      bytes := r.bytes - payloadTotal r.entries +
        payloadTotal (r.entries.filter (throughOf records < ·.sequence))
      inflightThrough := 0
      inflightBytes := 0
      orphanedBytes := 0 } := by
  have hlast : throughOf records = (records.getLast hne).sequence := by
    rw [throughOf, batchSequences, List.getLast?_map, List.getLast?_eq_some_getLast hne]
    rfl
  obtain ⟨hkept, hbytes⟩ := ackLoop_spec (records.getLast hne).sequence r.bytes hsorted
  rw [ackBatch, List.getLast?_eq_some_getLast hne, hlast, ← hkept]
  simp only [hbytes]
  congr 1
  ring

end UpdateRing

/-- What the ring and the writer agree on about the batch in flight.  Without one nothing is
reserved.  A batch that no reset touched is the front of the ring.  An orphaned batch keeps its
bytes reserved, and every entry of the ring is younger than it. -/
def BatchInvariant (ring : UpdateRing) : Option (List UpdateRecord) → Bool → Prop
  | none, _ => ring.inflightThrough = 0 ∧ ring.inflightBytes = 0 ∧ ring.orphanedBytes = 0
  | some records, false =>
    ∃ held rest, ring.entries = held ++ rest ∧ held ≠ [] ∧
      held.map (·.sequence) = batchSequences records ∧
      ring.inflightThrough = throughOf records ∧ ring.inflightBytes = payloadTotal held ∧
      ring.orphanedBytes = 0
  | some records, true =>
    ring.inflightThrough = 0 ∧ ring.orphanedBytes = ring.inflightBytes ∧
      0 ≤ ring.inflightBytes ∧ ring.inflightBytes ≤ maxRetainedBytes ∧
      records ≠ [] ∧ throughOf records ≤ ring.sequence ∧
      (∀ n ∈ batchSequences records, n ≤ throughOf records) ∧
      ∀ e ∈ ring.entries, throughOf records < e.sequence

/-- The invariant of the ring and its writer. -/
structure RingWorld.Invariant (w : RingWorld) : Prop where
  /-- The byte counter is the sum of the retained payloads. -/
  bytes_eq : w.ring.bytes = payloadTotal w.ring.entries
  /-- Sequence numbers increase from the front to the back. -/
  increasing : w.ring.entries.Pairwise (·.sequence < ·.sequence)
  /-- Every sequence number in the ring was handed out. -/
  handed : ∀ e ∈ w.ring.entries, e.sequence ≤ w.ring.sequence
  /-- The retained and the reserved bytes stay below their bound. -/
  bytes_le : w.ring.bytes + w.ring.orphanedBytes ≤ maxRetainedBytes
  /-- The entry count stays below its bound. -/
  length_le : w.ring.entries.length ≤ maxEntries
  /-- The batch in flight. -/
  batch : BatchInvariant w.ring w.outstanding w.orphaned
  /-- Every captured envelope is accounted for. -/
  counted : w.ring.sequence = w.ring.entries.length + w.acknowledged + w.ring.counters.total

namespace RingWorld

variable {w : RingWorld} {records : List UpdateRecord}

/-- A new ring satisfies the invariant. -/
theorem init_invariant (runtimeId : String) : (init runtimeId).Invariant where
  bytes_eq := rfl
  increasing := List.Pairwise.nil
  handed := by simp [init]
  bytes_le := by simp [init, maxRetainedBytes]
  length_le := by simp [init]
  batch := ⟨rfl, rfl, rfl⟩
  counted := rfl

/-- A batch in flight is not empty. -/
theorem Invariant.records_ne_nil (h : w.Invariant) (hout : w.outstanding = some records) :
    records ≠ [] := by
  have hbatch := h.batch
  rw [hout] at hbatch
  cases horphan : w.orphaned with
  | false =>
    rw [horphan] at hbatch
    obtain ⟨held, rest, -, hne, hmap, -⟩ := hbatch
    rintro rfl
    exact hne (by simpa [batchSequences] using hmap)
  | true =>
    rw [horphan] at hbatch
    exact hbatch.2.2.2.2.1

/-- Until a reset orphans the batch, no front part of the ring lies behind the batch in flight, so
capacity pressure cannot evict anything. -/
theorem Invariant.dropped_eq_nil (h : w.Invariant) (hout : w.outstanding = some records)
    (horphan : w.orphaned = false) {dropped kept : List RingEntry}
    (hsplit : w.ring.entries = dropped ++ kept)
    (hfree : ∀ e ∈ dropped, w.ring.inflightThrough < e.sequence) : dropped = [] := by
  have hbatch := h.batch
  rw [hout, horphan] at hbatch
  obtain ⟨held, rest, hentries, hne, hmap, hthrough, -⟩ := hbatch
  cases dropped with
  | nil => rfl
  | cons e es =>
    obtain ⟨x, xs, rfl⟩ := List.exists_cons_of_ne_nil hne
    obtain rfl : x = e := by
      rw [hentries, List.cons_append, List.cons_append, List.cons.injEq] at hsplit
      exact hsplit.1
    have hsorted : (x :: xs).Pairwise (·.sequence < ·.sequence) := by
      have hincreasing := h.increasing
      rw [hentries] at hincreasing
      exact (List.pairwise_append.mp hincreasing).1
    have hle := sequence_le_getLast hne hsorted List.mem_cons_self
    have hlt := hfree x List.mem_cons_self
    rw [hthrough, throughOf_eq_of_map_eq hmap hne] at hlt
    omega

/-- Acknowledging the batch in flight removes exactly its entries that are still in the ring. -/
theorem Invariant.filter_throughOf (h : w.Invariant) (hout : w.outstanding = some records) :
    w.ring.entries.filter (throughOf records < ·.sequence) =
      w.ring.entries.filter (fun e => e.sequence ∉ batchSequences records) := by
  have hbatch := h.batch
  rw [hout] at hbatch
  apply List.filter_congr
  intro e he
  rw [decide_eq_decide]
  cases horphan : w.orphaned with
  | false =>
    rw [horphan] at hbatch
    obtain ⟨held, rest, hentries, hne, hmap, -⟩ := hbatch
    have hincreasing := h.increasing
    rw [hentries] at hincreasing he
    obtain ⟨hheld, -, hcross⟩ := List.pairwise_append.mp hincreasing
    rw [throughOf_eq_of_map_eq hmap hne, ← hmap]
    rcases List.mem_append.mp he with hmem | hmem
    · have hle := sequence_le_getLast hne hheld hmem
      exact iff_of_false (by omega) (not_not.mpr (List.mem_map_of_mem hmem))
    · refine iff_of_true (hcross _ (List.getLast_mem hne) e hmem) ?_
      rw [List.mem_map]
      rintro ⟨x, hx, heq⟩
      have := hcross x hx e hmem
      omega
  | true =>
    rw [horphan] at hbatch
    obtain ⟨-, -, -, -, -, -, hrecords, hyounger⟩ := hbatch
    refine iff_of_true (hyounger e he) fun hmem => ?_
    have := hrecords _ hmem
    have := hyounger e he
    omega

/-! ## One call -/

/-- `capture` keeps the invariant. -/
theorem Invariant.capture (h : w.Invariant) (item : UpdateRing.Serialized) (observedAtMs : ℤ)
    (source : String) :
    ({ w with ring := w.ring.capture item observedAtMs source } : RingWorld).Invariant := by
  obtain ⟨dropped, kept, added, counters, hsplit, hfree, hcapture, hadded, hcounters⟩ :=
    w.ring.capture_spec item observedAtMs source
  have hsum := h.bytes_eq
  have hincreasing := h.increasing
  have hhanded := h.handed
  have hcounted := h.counted
  have hbytes := h.bytes_le
  have hlength := h.length_le
  have hbatch := h.batch
  have hdropped := payloadTotal_nonneg dropped
  rw [hsplit] at hincreasing hhanded
  rw [hsplit, payloadTotal_append] at hsum
  rw [hsplit, List.length_append] at hcounted hlength
  have hnew : ∀ e ∈ added, e.sequence = w.ring.sequence + 1 := by
    rcases hadded with rfl | ⟨⟨x, rfl, hx⟩, -⟩
    · simp
    · simpa using hx
  have hkept : ∀ e ∈ kept, e.sequence ≤ w.ring.sequence := fun e he =>
    hhanded e (List.mem_append_right _ he)
  rw [hcapture]
  refine ⟨?_, ?_, ?_, ?_, ?_, ?_, ?_⟩
  · show w.ring.bytes - payloadTotal dropped + payloadTotal added = payloadTotal (kept ++ added)
    rw [payloadTotal_append]; linarith
  · refine List.pairwise_append.mpr ⟨(List.pairwise_append.mp hincreasing).2.1, ?_, ?_⟩
    · rcases hadded with rfl | ⟨⟨x, rfl, -⟩, -⟩
      · exact List.Pairwise.nil
      · exact List.pairwise_singleton _ _
    · intro e he x hx
      have := hkept e he
      have := hnew x hx
      omega
  · intro e he
    rcases List.mem_append.mp he with hmem | hmem
    · exact (hkept e hmem).trans (Nat.le_succ _)
    · exact (hnew e hmem).le
  · rcases hadded with rfl | ⟨-, hfit, -⟩
    · show w.ring.bytes - payloadTotal dropped + payloadTotal [] + w.ring.orphanedBytes ≤ _
      rw [payloadTotal_nil]; linarith
    · exact hfit
  · rcases hadded with rfl | ⟨-, -, hfit⟩
    · show (kept ++ []).length ≤ _
      rw [List.append_nil]; omega
    · exact hfit
  · cases hout : w.outstanding with
    | none => simpa [hout, BatchInvariant] using hbatch
    | some records =>
      cases horphan : w.orphaned with
      | false =>
        have hnil := h.dropped_eq_nil hout horphan hsplit hfree
        rw [hout, horphan] at hbatch
        obtain ⟨held, rest, hentries, hne, hmap, hrest⟩ := hbatch
        refine ⟨held, rest ++ added, ?_, hne, hmap, hrest⟩
        rw [← List.append_assoc, ← hentries, hsplit, hnil, List.nil_append]
      | true =>
        rw [hout, horphan] at hbatch
        obtain ⟨hthrough, horphaned, hnonneg, hle, hne, hlast, hall, hyounger⟩ := hbatch
        refine ⟨hthrough, horphaned, hnonneg, hle, hne, hlast.trans (Nat.le_succ _), hall, ?_⟩
        intro e he
        rcases List.mem_append.mp he with hmem | hmem
        · exact hyounger e (hsplit ▸ List.mem_append_right _ hmem)
        · have := hnew e hmem
          omega
  · show w.ring.sequence + 1 = (kept ++ added).length + w.acknowledged + counters.total
    rw [List.length_append]; omega

/-- The part of an entry that the accounting reads. -/
def entryKey (e : RingEntry) : ℕ × ℕ := (e.sequence, e.payloadBytes)

/-- `associate_trace` changes no sequence number and no payload. -/
theorem associateTrace_spec (r : UpdateRing) (sequence : ℕ) (traceId : String) :
    ∃ es, r.associateTrace sequence traceId = { r with entries := es } ∧
      es.map entryKey = r.entries.map entryKey := by
  unfold UpdateRing.associateTrace
  cases hlast : r.entries.getLast? with
  | none => exact ⟨r.entries, rfl, rfl⟩
  | some e =>
    dsimp only
    split
    · refine ⟨_, rfl, ?_⟩
      obtain ⟨front, hfront⟩ := List.getLast?_eq_some_iff.mp hlast
      rw [hfront, List.dropLast_concat, List.map_append, List.map_append]
      rfl
    · exact ⟨r.entries, rfl, rfl⟩

/-- Changing the entries in nothing that the accounting reads keeps the invariant. -/
theorem Invariant.congr_entries (h : w.Invariant) {es : List RingEntry}
    (hkeys : es.map entryKey = w.ring.entries.map entryKey) :
    ({ w with ring := { w.ring with entries := es } } : RingWorld).Invariant := by
  have htotal : ∀ xs : List RingEntry,
      payloadTotal xs = ((xs.map entryKey).map fun k => (k.2 : ℤ)).sum := fun xs => by
    rw [List.map_map]; rfl
  have hsequences : ∀ xs : List RingEntry,
      xs.map (·.sequence) = (xs.map entryKey).map Prod.fst := fun xs => by
    rw [List.map_map]; rfl
  have hmem : ∀ e ∈ es, ∃ x ∈ w.ring.entries, x.sequence = e.sequence := fun e he => by
    have hkey : entryKey e ∈ w.ring.entries.map entryKey := hkeys ▸ List.mem_map_of_mem he
    obtain ⟨x, hx, hxe⟩ := List.mem_map.mp hkey
    exact ⟨x, hx, congrArg Prod.fst hxe⟩
  have hlength : es.length = w.ring.entries.length := by
    simpa using congrArg List.length hkeys
  refine ⟨?_, ?_, ?_, h.bytes_le, hlength ▸ h.length_le, ?_, ?_⟩
  · exact h.bytes_eq.trans (by rw [htotal, htotal, hkeys])
  · have hincreasing := List.pairwise_map.mpr h.increasing
    rw [hsequences, ← hkeys, ← hsequences] at hincreasing
    exact List.pairwise_map.mp hincreasing
  · intro e he
    obtain ⟨x, hx, hxe⟩ := hmem e he
    exact hxe ▸ h.handed x hx
  · have hbatch := h.batch
    cases hout : w.outstanding with
    | none => simpa [hout, BatchInvariant] using hbatch
    | some records =>
      cases horphan : w.orphaned with
      | false =>
        rw [hout, horphan] at hbatch
        obtain ⟨held, rest, hentries, hne, hmap, hthrough, hbytes, horphaned⟩ := hbatch
        rw [hentries, List.map_append] at hkeys
        obtain ⟨held', rest', rfl, hheld, -⟩ := List.map_eq_append_iff.mp hkeys
        refine ⟨held', rest', rfl, ?_, ?_, hthrough, ?_, horphaned⟩
        · rintro rfl
          exact hne (by simpa using hheld.symm)
        · rw [hsequences, hheld, ← hsequences, hmap]
        · exact hbytes.trans (by rw [htotal, htotal, hheld])
      | true =>
        rw [hout, horphan] at hbatch
        obtain ⟨hthrough, horphaned, hnonneg, hle, hne, hlast, hall, hyounger⟩ := hbatch
        refine ⟨hthrough, horphaned, hnonneg, hle, hne, hlast, hall, ?_⟩
        intro e he
        obtain ⟨x, hx, hxe⟩ := hmem e he
        exact hxe ▸ hyounger x hx
  · exact h.counted.trans (by rw [← hlength])

/-- `peek_batch` by an idle writer keeps the invariant. -/
theorem Invariant.peekBatch (h : w.Invariant) (hout : w.outstanding = none) (maxCount maxBytes : ℤ) :
    ({ w with
      ring := (w.ring.peekBatch maxCount maxBytes).2
      outstanding := if (w.ring.peekBatch maxCount maxBytes).1.isEmpty then none
        else some (w.ring.peekBatch maxCount maxBytes).1
      orphaned := false } : RingWorld).Invariant := by
  have hbatch := h.batch
  rw [hout] at hbatch
  obtain ⟨rest, hrest⟩ :=
    UpdateRing.peekLoop_prefix maxCount maxBytes 0 0 w.ring.entries
  unfold UpdateRing.peekBatch
  generalize UpdateRing.peekLoop maxCount maxBytes 0 0 w.ring.entries = taken at hrest
  rcases List.eq_nil_or_concat taken with rfl | ⟨front, last, rfl⟩
  · exact ⟨h.bytes_eq, h.increasing, h.handed, h.bytes_le, h.length_le, hbatch, h.counted⟩
  · simp only [List.concat_eq_append, List.getLast?_concat] at hrest ⊢
    refine ⟨h.bytes_eq, h.increasing, h.handed, h.bytes_le, h.length_le, ?_, h.counted⟩
    have hne : front ++ [last] ≠ [] := by simp
    have hmap : (front ++ [last]).map (·.sequence) =
        batchSequences ((front ++ [last]).map w.ring.record) := by
      rw [batchSequences, List.map_map]; rfl
    rw [if_neg (by simp)]
    refine ⟨front ++ [last], rest, hrest.symm, hne, hmap, ?_, rfl, hbatch.2.2⟩
    rw [throughOf_eq_of_map_eq hmap hne, List.getLast_concat]

/-- Ending every reservation keeps the invariant. -/
theorem Invariant.release (h : w.Invariant) :
    ({ w with ring := w.ring.releaseBatch, outstanding := none } : RingWorld).Invariant := by
  refine ⟨h.bytes_eq, h.increasing, h.handed, ?_, h.length_le, ⟨rfl, rfl, rfl⟩, h.counted⟩
  have hbatch := h.batch
  have hbytes := h.bytes_le
  show w.ring.bytes + 0 ≤ maxRetainedBytes
  cases hout : w.outstanding with
  | none =>
    rw [hout] at hbatch
    linarith [hbatch.2.2]
  | some records =>
    cases horphan : w.orphaned with
    | false =>
      rw [hout, horphan] at hbatch
      obtain ⟨held, rest, -, -, -, -, -, horphaned⟩ := hbatch
      linarith
    | true =>
      rw [hout, horphan] at hbatch
      obtain ⟨-, horphaned, hnonneg, -⟩ := hbatch
      linarith

/-- Acknowledging the batch in flight keeps the invariant, however the entries that leave are
counted. -/
theorem Invariant.ack (h : w.Invariant) (hout : w.outstanding = some records) (orphaned : Bool)
    (acknowledged : ℕ) (counters : RingCounters)
    (hcounted : (w.ring.ackBatch records).entries.length + acknowledged + counters.total =
      w.ring.entries.length + w.acknowledged + w.ring.counters.total) :
    ({ ring := { w.ring.ackBatch records with counters := counters }, outstanding := none,
       orphaned := orphaned, acknowledged := acknowledged } : RingWorld).Invariant := by
  have hspec := w.ring.ackBatch_spec (h.records_ne_nil hout) h.increasing
  have hsub : (w.ring.entries.filter (throughOf records < ·.sequence)).Sublist w.ring.entries :=
    List.filter_sublist
  have hsequence : (w.ring.ackBatch records).sequence = w.ring.sequence := by rw [hspec]
  have hsum := payloadTotal_le_of_sublist hsub
  refine ⟨?_, ?_, ?_, ?_, ?_, ?_, ?_⟩
  · rw [hspec]
    show w.ring.bytes - payloadTotal w.ring.entries + _ = _
    rw [h.bytes_eq]; ring
  · rw [hspec]
    exact h.increasing.sublist hsub
  · rw [hspec]
    exact fun e he => h.handed e (hsub.subset he)
  · have hbytes := h.release.bytes_le
    have hreleased : w.ring.releaseBatch.bytes + w.ring.releaseBatch.orphanedBytes =
        w.ring.bytes := add_zero _
    have hsame := h.bytes_eq
    rw [hspec]
    show w.ring.bytes - payloadTotal w.ring.entries +
      payloadTotal (w.ring.entries.filter (throughOf records < ·.sequence)) + 0 ≤ maxRetainedBytes
    linarith
  · rw [hspec]
    exact hsub.length_le.trans h.length_le
  · rw [hspec]
    exact ⟨rfl, rfl, rfl⟩
  · exact hsequence.trans (h.counted.trans hcounted.symm)

/-- `reset` keeps the invariant, and orphans a batch in flight. -/
theorem Invariant.reset (h : w.Invariant) : (w.afterReset w.ring.reset).Invariant := by
  have hbatch := h.batch
  have hbytes := h.bytes_le
  have hsum := h.bytes_eq
  have hretained := payloadTotal_nonneg w.ring.entries
  have hbound : w.ring.inflightBytes ≤ maxRetainedBytes ∧
      BatchInvariant w.ring.reset w.outstanding (w.orphaned || w.outstanding.isSome) := by
    cases hout : w.outstanding with
    | none =>
      rw [hout] at hbatch
      obtain ⟨-, hinflight, horphaned⟩ := hbatch
      exact ⟨by linarith, rfl, hinflight, hinflight⟩
    | some records =>
      cases horphan : w.orphaned with
      | false =>
        rw [hout, horphan] at hbatch
        obtain ⟨held, rest, hentries, hne, hmap, -, hinflight, horphaned⟩ := hbatch
        have hheld := payloadTotal_nonneg held
        have hrest := payloadTotal_nonneg rest
        rw [hentries, payloadTotal_append] at hsum
        have hsorted : held.Pairwise (·.sequence < ·.sequence) := by
          have hincreasing := h.increasing
          rw [hentries] at hincreasing
          exact (List.pairwise_append.mp hincreasing).1
        have hlast := throughOf_eq_of_map_eq hmap hne
        have hbound : w.ring.inflightBytes ≤ maxRetainedBytes := by linarith
        refine ⟨hbound, rfl, rfl, ?_, hbound, h.records_ne_nil hout, ?_, ?_, by
          simp [UpdateRing.reset]⟩
        · exact hinflight ▸ hheld
        · rw [hlast]
          exact h.handed _ (hentries ▸ List.mem_append_left _ (List.getLast_mem hne))
        · intro n hn
          rw [← hmap] at hn
          obtain ⟨e, he, rfl⟩ := List.mem_map.mp hn
          rw [hlast]
          exact sequence_le_getLast hne hsorted he
      | true =>
        rw [hout, horphan] at hbatch
        obtain ⟨-, -, hnonneg, hle, hne, hlast, hall, -⟩ := hbatch
        exact ⟨hle, rfl, rfl, hnonneg, hle, hne, hlast, hall, by simp [UpdateRing.reset]⟩
  have hflag : (w.orphaned || (w.outstanding.isSome && w.ring.reset.entries.isEmpty)) =
      (w.orphaned || w.outstanding.isSome) := by simp [UpdateRing.reset]
  refine ⟨rfl, List.Pairwise.nil, by simp [afterReset, UpdateRing.reset], ?_,
    by simp [afterReset, UpdateRing.reset], ?_, ?_⟩
  · show 0 + w.ring.inflightBytes ≤ maxRetainedBytes
    linarith [hbound.1]
  · show BatchInvariant w.ring.reset w.outstanding
      (w.orphaned || (w.outstanding.isSome && w.ring.reset.entries.isEmpty))
    rw [hflag]
    exact hbound.2
  · have hcounted := h.counted
    simp only [afterReset, UpdateRing.reset, RingCounters.total, List.length_nil] at hcounted ⊢
    omega

/-- A call that does not reset leaves the flag of an orphaned batch alone. -/
theorem Invariant.afterReset_self (h : w.Invariant) : (w.afterReset w.ring).Invariant := by
  refine ⟨h.bytes_eq, h.increasing, h.handed, h.bytes_le, h.length_le, ?_, h.counted⟩
  have hbatch := h.batch
  show BatchInvariant w.ring w.outstanding
    (w.orphaned || (w.outstanding.isSome && w.ring.entries.isEmpty))
  cases hout : w.outstanding with
  | none => simpa [hout, BatchInvariant] using hbatch
  | some records =>
    cases horphan : w.orphaned with
    | true => simpa [hout, horphan] using hbatch
    | false =>
      rw [hout, horphan] at hbatch
      obtain ⟨held, rest, hentries, hne, hrest⟩ := hbatch
      have hnonempty : w.ring.entries.isEmpty = false := by
        rw [hentries]
        simpa using fun hnil => absurd hnil hne
      rw [hnonempty]
      exact ⟨held, rest, hentries, hne, hrest⟩

/-- Rings that agree on what the accounting reads. -/
structure SameAccounting (r s : UpdateRing) : Prop where
  entries_eq : r.entries = s.entries
  sequence_eq : r.sequence = s.sequence
  bytes_eq : r.bytes = s.bytes
  through_eq : r.inflightThrough = s.inflightThrough
  inflight_eq : r.inflightBytes = s.inflightBytes
  orphaned_eq : r.orphanedBytes = s.orphanedBytes
  counters_eq : r.counters = s.counters

/-- The account fields of the ring do not matter for the invariant. -/
theorem Invariant.congr_account (h : w.Invariant) {ring : UpdateRing}
    (hsame : SameAccounting ring w.ring) : ({ w with ring := ring } : RingWorld).Invariant := by
  obtain ⟨hentries, hsequence, hbytes, hthrough, hinflight, horphaned, hcounters⟩ := hsame
  obtain ⟨h1, h2, h3, h4, h5, h6, h7⟩ := h
  refine ⟨?_, ?_, ?_, ?_, ?_, ?_, ?_⟩ <;> simp only [hentries, hsequence, hbytes, horphaned,
    hcounters]
  iterate 5 assumption
  · revert h6
    cases w.outstanding with
    | none => simp only [BatchInvariant, hthrough, hinflight, horphaned, imp_self]
    | some records =>
      cases w.orphaned <;>
        simp only [BatchInvariant, hentries, hsequence, hthrough, hinflight, horphaned, imp_self]
  · assumption

/-- Every call keeps the invariant. -/
theorem step_invariant (w : RingWorld) (call : RingCall) (w' : RingWorld) (h : w.Invariant)
    (hstep : w.step call = some w') : w'.Invariant := by
  cases call with
  | capture item observedAtMs source =>
    obtain rfl := Option.some.inj hstep
    exact h.capture item observedAtMs source
  | associateTrace sequence traceId =>
    obtain rfl := Option.some.inj hstep
    obtain ⟨es, heq, hkeys⟩ := associateTrace_spec w.ring sequence traceId
    rw [heq]
    exact h.congr_entries hkeys
  | peekBatch maxCount maxBytes =>
    cases hout : w.outstanding with
    | none =>
      rw [step, hout] at hstep
      obtain rfl := Option.some.inj hstep
      exact h.peekBatch hout maxCount maxBytes
    | some records =>
      rw [step, hout] at hstep
      cases hstep
  | ackBatch =>
    obtain ⟨records, hout, rfl⟩ := Option.map_eq_some_iff.mp hstep
    refine h.ack hout w.orphaned _ (w.ring.ackBatch records).counters ?_
    have hspec := w.ring.ackBatch_spec (h.records_ne_nil hout) h.increasing
    have hle : (w.ring.ackBatch records).entries.length ≤ w.ring.entries.length := by
      rw [hspec]; exact List.length_filter_le _ _
    have hcounters : (w.ring.ackBatch records).counters = w.ring.counters := by rw [hspec]
    rw [hcounters]
    omega
  | discardBatch =>
    obtain ⟨records, hout, rfl⟩ := Option.map_eq_some_iff.mp hstep
    refine h.ack hout w.orphaned w.acknowledged _ ?_
    have hspec := w.ring.ackBatch_spec (h.records_ne_nil hout) h.increasing
    have hle : (w.ring.ackBatch records).entries.length ≤ w.ring.entries.length := by
      rw [hspec]; exact List.length_filter_le _ _
    have hcounters : (w.ring.ackBatch records).counters = w.ring.counters := by rw [hspec]
    simp only [RingCounters.total, hcounters]
    omega
  | releaseBatch =>
    obtain rfl := Option.some.inj hstep
    exact h.release
  | reset =>
    obtain rfl := Option.some.inj hstep
    exact h.reset
  | requestVerifiedAccount accountId =>
    obtain rfl := Option.some.inj hstep
    rw [UpdateRing.requestVerifiedAccount]
    split
    · exact h.afterReset_self
    · dsimp only
      split
      · exact h.reset.congr_account ⟨rfl, rfl, rfl, rfl, rfl, rfl, rfl⟩
      · exact h.afterReset_self.congr_account ⟨rfl, rfl, rfl, rfl, rfl, rfl, rfl⟩
  | requestLogout =>
    obtain rfl := Option.some.inj hstep
    exact h.reset.congr_account ⟨rfl, rfl, rfl, rfl, rfl, rfl, rfl⟩
  | completeBind accountId revision generation =>
    obtain rfl := Option.some.inj hstep
    refine h.congr_account ?_
    rw [UpdateRing.completeBind]
    split <;> exact ⟨rfl, rfl, rfl, rfl, rfl, rfl, rfl⟩
  | completeLogout serial =>
    obtain rfl := Option.some.inj hstep
    exact h.congr_account ⟨rfl, rfl, rfl, rfl, rfl, rfl, rfl⟩

/-- Every reachable state satisfies the invariant. -/
theorem run_invariant {runtimeId : String} {calls : List RingCall}
    (hrun : run step (init runtimeId) calls = some w) : w.Invariant :=
  Foundations.run_invariant step_invariant (init_invariant runtimeId) hrun

/-! ## Every run -/

/-- The accounting of the ring over every sequence of calls with at most one batch outstanding.
The byte counter is the sum of the retained payloads, sequence numbers increase, both capacity
bounds hold, `capture` evicts no entry of the batch in flight, acknowledging that batch removes
exactly its entries that are still in the ring, and none when a reset came in between, and every
captured envelope is in exactly one of the counts. -/
theorem ring_accounting {runtimeId : String} {calls : List RingCall} {w : RingWorld}
    (hrun : run step (init runtimeId) calls = some w) :
    w.ring.bytes = (w.ring.entries.map fun e => (e.payloadBytes : ℤ)).sum ∧
    w.ring.entries.Pairwise (·.sequence < ·.sequence) ∧
    w.ring.bytes + w.ring.orphanedBytes ≤ maxRetainedBytes ∧
    w.ring.entries.length ≤ maxEntries ∧
    (∀ records, w.outstanding = some records → ∀ item observedAtMs source, ∀ e ∈ w.ring.entries,
      e.sequence ∈ batchSequences records →
        e ∈ (w.ring.capture item observedAtMs source).entries) ∧
    (∀ records, w.outstanding = some records →
      (w.ring.ackBatch records).entries =
        w.ring.entries.filter (fun e => e.sequence ∉ batchSequences records) ∧
      (w.orphaned = true → (w.ring.ackBatch records).entries = w.ring.entries)) ∧
    w.ring.sequence = w.ring.entries.length + w.acknowledged + w.ring.counters.evictedCapacity +
      w.ring.counters.rejectedOversize + w.ring.counters.serializationFailures +
      w.ring.counters.resetEvicted := by
  have h := run_invariant hrun
  refine ⟨h.bytes_eq, h.increasing, h.bytes_le, h.length_le, ?_, ?_, ?_⟩
  · intro records hout item observedAtMs source e he hheld
    obtain ⟨dropped, kept, added, counters, hsplit, hfree, hcapture, -, -⟩ :=
      w.ring.capture_spec item observedAtMs source
    rw [hcapture]
    rw [hsplit, List.mem_append] at he
    refine List.mem_append_left _ (he.resolve_left fun hdropped => ?_)
    cases horphan : w.orphaned with
    | false =>
      rw [h.dropped_eq_nil hout horphan hsplit hfree] at hdropped
      exact List.not_mem_nil hdropped
    | true =>
      have hbatch := h.batch
      rw [hout, horphan] at hbatch
      obtain ⟨-, -, -, -, -, -, hall, hyounger⟩ := hbatch
      have := hall _ hheld
      have := hyounger e (hsplit ▸ List.mem_append_left _ hdropped)
      omega
  · intro records hout
    have hack := w.ring.ackBatch_spec (h.records_ne_nil hout) h.increasing
    refine ⟨by rw [hack]; exact h.filter_throughOf hout, fun horphan => ?_⟩
    have hbatch := h.batch
    rw [hout, horphan] at hbatch
    obtain ⟨-, -, -, -, -, -, -, hyounger⟩ := hbatch
    rw [hack]
    exact List.filter_eq_self.mpr fun e he => by simpa using hyounger e he
  · have hcounted := h.counted
    rw [RingCounters.total] at hcounted
    omega

/-- Calls that hold a batch across a reset and capture an envelope behind it. -/
def orphaningCalls : List RingCall :=
  [.capture (some ("Update", "{}")) 0 "push", .peekBatch 10 100, .reset,
    .capture (some ("Update", "[1]")) 1 "push"]

/-- After `orphaningCalls` the bytes of the batch are still reserved next to the new entry. -/
theorem ring_accounting_orphaned :
    ∃ w, run step (init "r") orphaningCalls = some w ∧
      w.orphaned = true ∧ w.ring.bytes = 3 ∧ w.ring.orphanedBytes = 2 ∧
      w.ring.bytes = (w.ring.entries.map fun e => (e.payloadBytes : ℤ)).sum := by
  have hrun : ∃ w, run step (init "r") orphaningCalls = some w := ⟨_, rfl⟩
  obtain ⟨w, hw⟩ := hrun
  refine ⟨w, hw, ?_, ?_, ?_, (ring_accounting hw).1⟩
  all_goals
    obtain rfl := Option.some.inj hw
    decide

end RingWorld

end McpTelegram
