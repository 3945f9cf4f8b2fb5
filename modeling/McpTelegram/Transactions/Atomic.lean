import McpTelegram.Transactions.Units

/-!
# Write units are atomic

The open units are nested levels of work on the database that the outermost unit found, so what its
commit writes is what their bodies have written, less what was rolled back to a savepoint.  Every
other end of the outermost unit leaves the database alone, and either closes the connection or
leaves it idle under its guard.
-/

namespace McpTelegram

open Foundations

variable {κ δ : Type*} [DecidableEq κ]
variable {frames : List (UnitFrame δ)}

/-! ## The open units as levels -/

/-- The savepoint of a unit. -/
def UnitKind.mark : UnitKind → Option ℕ
  | .savepoint name => some name
  | _ => none

/-- A unit as a level of nested work. -/
def UnitFrame.level (frame : UnitFrame δ) : Level ℕ δ := ⟨frame.kind.mark, frame.writes⟩

/-- The units that can be open on a connection: the outermost one has begun the transaction, and
the inner ones are savepoints of a write transaction, or snapshots that have joined it.  The second
argument says whether the outermost one is a write transaction. -/
inductive Stacked (entered : Connection ℕ δ) : Bool → List (UnitFrame δ) → Prop
  | transaction {frame : UnitFrame δ} (kind : frame.kind = .transaction entered.queryOnly)
      (first : frame.entered = entered) : Stacked entered true [frame]
  | snapshot {frame : UnitFrame δ} (kind : frame.kind = .snapshot true)
      (first : frame.entered = entered) : Stacked entered false [frame]
  | savepoint {frame : UnitFrame δ} {frames : List (UnitFrame δ)} {name : ℕ}
      (kind : frame.kind = .savepoint name) (outer : Stacked entered true frames) :
      Stacked entered true (frame :: frames)
  | joined {frame : UnitFrame δ} {frames : List (UnitFrame δ)} {owned : Bool}
      (kind : frame.kind = .snapshot false) (outer : Stacked entered owned frames) :
      Stacked entered owned (frame :: frames)

theorem Stacked.ne_nil {entered : Connection ℕ δ} {owned : Bool} (h : Stacked entered owned frames) :
    frames ≠ [] := by
  cases h <;> exact List.cons_ne_nil _ _

/-- The connection as the outermost unit has prepared it: a write transaction lifts the guard. -/
def prepared (entered : Connection ℕ δ) (owned : Bool) : Connection ℕ δ :=
  { entered with queryOnly := !owned && entered.queryOnly }

/-- The connection was retired in the middle of the units: nothing of them will be committed. -/
structure Retired (entered conn : Connection ℕ δ) : Prop where
  closed : conn.closed = true
  transaction : conn.transaction = none
  database : conn.database = entered.database

/-- Units are open. -/
structure Inside (c : κ) (world : UnitWorld κ δ) (entered : Connection ℕ δ) (owned : Bool) :
    Prop where
  idle : entered.Idle
  stacked : Stacked entered owned world.frames
  owner : c ∈ world.owners ↔ owned = true
  conn : world.conn = (prepared entered owned).working (world.frames.map UnitFrame.level) ∨
    Retired entered world.conn

/-- No unit is open: the connection is closed or idle. -/
structure Outside (c : κ) (world : UnitWorld κ δ) : Prop where
  frames : world.frames = []
  notOwned : c ∉ world.owners
  transaction : world.conn.transaction = none

/-- The invariant. -/
inductive UnitInv (c : κ) (world : UnitWorld κ δ) : Prop
  | outside (h : Outside c world)
  | inside (entered : Connection ℕ δ) (owned : Bool) (h : Inside c world entered owned)

section Connections

variable {conn entered : Connection ℕ δ} {faults : UnitFaults} {queryOnly owned : Bool}

/-- How a connection is left: closed, or without a transaction and with its guard. -/
structure Settled (queryOnly : Bool) (conn : Connection ℕ δ) : Prop where
  transaction : conn.transaction = none
  guarded : conn.closed = true ∨ conn.queryOnly = queryOnly

theorem orRaise_eq_some {α : Type*} {fault : Bool} {call : Option α} {a : α} :
    orRaise fault call = some a ↔ fault = false ∧ call = some a := by
  cases fault <;> simp [orRaise]

/-- Restoring the guard settles a connection without a transaction. -/
theorem restoreGuard_settled (htxn : conn.transaction = none) :
    Settled queryOnly (UnitWorld.restoreGuard faults conn queryOnly).1 ∧
      (UnitWorld.restoreGuard faults conn queryOnly).1.database = conn.database := by
  unfold UnitWorld.restoreGuard
  rcases hcall : orRaise faults.restore (conn.setQueryOnly queryOnly) with _ | restored
  · exact ⟨⟨rfl, .inl rfl⟩, rfl⟩
  · obtain ⟨-, hset⟩ := orRaise_eq_some.mp hcall
    unfold Connection.setQueryOnly at hset
    split_ifs at hset with hclosed
    obtain rfl := Option.some.inj hset
    exact ⟨⟨htxn, .inr rfl⟩, rfl⟩

/-- The failure branches settle every connection, and leave its database. -/
theorem failTransaction_settled :
    Settled queryOnly (UnitWorld.failTransaction faults conn queryOnly) ∧
      (UnitWorld.failTransaction faults conn queryOnly).database = conn.database := by
  unfold UnitWorld.failTransaction
  rcases hcall : orRaise faults.rollback conn.rollback with _ | rolled
  · exact ⟨⟨rfl, .inl rfl⟩, rfl⟩
  · obtain ⟨-, hrollback⟩ := orRaise_eq_some.mp hcall
    unfold Connection.rollback at hrollback
    split_ifs at hrollback with hclosed
    obtain rfl := Option.some.inj hrollback
    exact restoreGuard_settled rfl

theorem prepared_idle (h : entered.Idle) : (prepared entered owned).Idle := ⟨h.1, h.2⟩

/-- In a prepared connection with work the transaction is open. -/
theorem inTransaction_working (h : entered.Idle) (levels : List (Level ℕ δ)) :
    ((prepared entered owned).working levels).inTransaction = some true := by
  have hopen : ((prepared entered owned).working levels).closed = false := h.1
  rw [Connection.inTransaction, hopen]
  rfl

theorem Retired.inTransaction (h : Retired entered conn) : conn.inTransaction = none := by
  rw [Connection.inTransaction, if_pos h.closed]

end Connections

namespace Inside

variable {c : κ} {world : UnitWorld κ δ} {entered : Connection ℕ δ} {owned : Bool}
  {faults : UnitFaults}

/-- `require_write_transaction` returns in a write transaction whose connection is not retired. -/
theorem require_iff (h : Inside c world entered owned) :
    world.requireWriteTransaction c = true ↔ owned = true ∧ world.conn.closed = false := by
  rw [UnitWorld.requireWriteTransaction, decide_eq_true_iff, h.owner]
  rcases h.conn with hwork | hretired
  · rw [hwork, inTransaction_working h.idle]
    exact and_congr_right fun _ => iff_of_true rfl h.idle.1
  · rw [hretired.inTransaction, hretired.closed]
    simp

end Inside

/-! ## Entering a unit -/

/-- How the outermost unit ends: the connection is settled and not owned, and its database is that
which the unit found, with the writes that were committed. -/
structure Ended (c : κ) (entered : Connection ℕ δ) (writes : List (δ → δ))
    (out : UnitOutcome κ δ) : Prop where
  outside : Outside c out.world
  settled : Settled entered.queryOnly out.world.conn
  unchanged : out.committed = false → out.world.conn.database = entered.database
  committed : out.committed = true → out.world.conn.database = replay entered.database writes

section Enter

variable {c : κ} {world : UnitWorld κ δ} {faults : UnitFaults}

omit [DecidableEq κ] in
/-- A refused call outside of all units. -/
theorem Outside.refuse (h : Outside c world) : Ended c world.conn [] world.refuse where
  outside := h
  settled := ⟨h.transaction, .inr rfl⟩
  unchanged _ := rfl
  committed _ := rfl

/-- The failure branches outside of all units. -/
theorem Outside.fail (h : Outside c world) (conn : Connection ℕ δ)
    (hdatabase : conn.database = world.conn.database) :
    Ended c world.conn []
      ⟨{ world with
          conn := UnitWorld.failTransaction faults conn world.conn.queryOnly
          owners := world.owners.erase c }, true, false⟩ := by
  obtain ⟨hsettled, hsame⟩ :=
    @failTransaction_settled δ conn faults world.conn.queryOnly
  exact
    { outside := ⟨h.frames, Finset.notMem_erase c world.owners, hsettled.transaction⟩
      settled := hsettled
      unchanged := fun _ => hsame.trans hdatabase
      committed := nofun }

omit [DecidableEq κ] in
/-- Outside of all units an open connection is idle. -/
theorem Outside.idle {busy : Bool} (h : Outside c world)
    (hbusy : world.conn.inTransaction = some busy) : world.conn.Idle ∧ busy = false := by
  unfold Connection.inTransaction at hbusy
  split_ifs at hbusy with hclosed
  rw [h.transaction] at hbusy
  exact ⟨⟨Bool.eq_false_iff.mpr hclosed, h.transaction⟩, (Option.some.inj hbusy).symm⟩

/-- Outside of all units, `write_transaction` begins a transaction, or ends. -/
theorem Outside.enterWriteTransaction (h : Outside c world) :
    let out := world.enterWriteTransaction c faults
    (out.raised = false ∧ out.committed = false ∧ Inside c out.world world.conn true) ∨
      (out.raised = true ∧ Ended c world.conn [] out) := by
  intro out
  simp only [out, UnitWorld.enterWriteTransaction]
  rcases hbusy : world.conn.inTransaction with _ | busy
  · exact .inr ⟨rfl, h.refuse⟩
  obtain ⟨hidle, rfl⟩ := h.idle hbusy
  dsimp only
  rw [if_neg (by simpa using h.notOwned)]
  split_ifs with hguard
  · exact .inr ⟨rfl, h.refuse⟩
  rcases hdisable : orRaise faults.guardDisable (world.conn.setQueryOnly false) with _ | conn
  · exact .inr ⟨rfl, h.fail world.conn rfl⟩
  obtain ⟨-, hset⟩ := orRaise_eq_some.mp hdisable
  have hconn : conn = prepared world.conn true := by
    rw [Connection.setQueryOnly, if_neg (by simp [hidle.1])] at hset
    exact (Option.some.inj hset).symm
  dsimp only
  rcases hbegin : orRaise faults.beginning conn.start with _ | begun
  · exact .inr ⟨rfl, h.fail conn (by rw [hconn]; rfl)⟩
  obtain ⟨-, hstart⟩ := orRaise_eq_some.mp hbegin
  rw [hconn, Connection.start_of_idle (prepared_idle hidle)] at hstart
  refine .inl ⟨rfl, rfl, ?_⟩
  exact
    { idle := hidle
      stacked := by
        rw [h.frames]
        exact .transaction rfl rfl
      owner := by simp
      conn := by
        left
        rw [h.frames]
        exact (Option.some.inj hstart).symm }

/-- So does `write_savepoint`, which is a write transaction there. -/
theorem Outside.enterWriteSavepoint (h : Outside c world) :
    world.enterWriteSavepoint c faults = world.enterWriteTransaction c faults :=
  if_pos h.notOwned

omit [DecidableEq κ] in
/-- Outside of all units, `read_snapshot` begins a transaction, or ends. -/
theorem Outside.enterReadSnapshot (h : Outside c world) :
    let out := world.enterReadSnapshot faults
    (out.raised = false ∧ out.committed = false ∧ Inside c out.world world.conn false) ∨
      (out.raised = true ∧ Ended c world.conn [] out) := by
  intro out
  simp only [out, UnitWorld.enterReadSnapshot]
  rcases hbusy : world.conn.inTransaction with _ | busy
  · exact .inr ⟨rfl, h.refuse⟩
  obtain ⟨hidle, rfl⟩ := h.idle hbusy
  dsimp only
  rcases hbegin : orRaise faults.beginning world.conn.start with _ | begun
  · exact .inr ⟨rfl, h.refuse⟩
  obtain ⟨-, hstart⟩ := orRaise_eq_some.mp hbegin
  rw [Connection.start_of_idle hidle] at hstart
  refine .inl ⟨rfl, rfl, ?_⟩
  exact
    { idle := hidle
      stacked := by
        rw [h.frames]
        exact .snapshot rfl rfl
      owner := iff_of_false h.notOwned Bool.false_ne_true
      conn := by
        left
        rw [h.frames]
        exact (Option.some.inj hstart).symm }

variable {entered : Connection ℕ δ} {owned : Bool}

omit [DecidableEq κ] in
/-- Inside of a unit the connection is not idle. -/
theorem Inside.busy (h : Inside c world entered owned) :
    world.conn.inTransaction = some true ∨
      world.conn.inTransaction = none ∧ Retired entered world.conn := by
  rcases h.conn with hwork | hretired
  · left
    rw [hwork, inTransaction_working h.idle]
  · exact .inr ⟨hretired.inTransaction, hretired⟩

/-- Inside of a unit, `write_transaction` is refused. -/
theorem Inside.enterWriteTransaction (h : Inside c world entered owned) :
    world.enterWriteTransaction c faults = world.refuse := by
  unfold UnitWorld.enterWriteTransaction
  rcases h.busy with hbusy | ⟨hbusy, -⟩
  · rw [hbusy]
    exact if_pos (.inl rfl)
  · rw [hbusy]

/-- Inside of a unit, `write_savepoint` takes a savepoint, or leaves the unit as it is. -/
theorem Inside.enterWriteSavepoint (h : Inside c world entered owned) :
    (world.enterWriteSavepoint c faults).committed = false ∧
      Inside c (world.enterWriteSavepoint c faults).world entered owned := by
  unfold UnitWorld.enterWriteSavepoint
  split_ifs with howner hrequire
  · exact ⟨rfl, h⟩
  · rw [Bool.not_eq_false, h.require_iff] at hrequire
    obtain ⟨rfl, hopen⟩ := hrequire
    dsimp only
    rcases hcall : orRaise faults.savepoint (world.conn.savepoint world.nextSavepoint)
      with _ | conn
    · exact ⟨rfl, ⟨h.idle, h.stacked, h.owner, h.conn⟩⟩
    · obtain ⟨-, htaken⟩ := orRaise_eq_some.mp hcall
      rcases h.conn with hwork | hretired
      · rw [hwork, Connection.working_savepoint (prepared_idle h.idle).1] at htaken
        exact ⟨rfl, ⟨h.idle, .savepoint rfl h.stacked, h.owner,
          .inl (Option.some.inj htaken).symm⟩⟩
      · rw [hretired.closed] at hopen
        cases hopen
  · rw [h.enterWriteTransaction]
    exact ⟨rfl, h⟩

omit [DecidableEq κ] in
/-- Inside of a unit, `read_snapshot` joins it, or leaves it as it is. -/
theorem Inside.enterReadSnapshot (h : Inside c world entered owned) :
    (world.enterReadSnapshot faults).committed = false ∧
      Inside c (world.enterReadSnapshot faults).world entered owned := by
  unfold UnitWorld.enterReadSnapshot
  rcases h.busy with hbusy | ⟨hbusy, -⟩
  · rw [hbusy]
    exact ⟨rfl, ⟨h.idle, .joined rfl h.stacked, h.owner, h.conn⟩⟩
  · rw [hbusy]
    exact ⟨rfl, h⟩

omit [DecidableEq κ] in
/-- A write of the innermost body is added to it, or raises. -/
theorem Inside.write (h : Inside c world entered owned) (f : δ → δ) (fault : Bool) :
    (world.write f fault).committed = false ∧
      Inside c (world.write f fault).world entered owned := by
  unfold UnitWorld.write
  rcases hcall : orRaise fault (world.conn.write f) with _ | conn
  · exact ⟨rfl, h⟩
  refine ⟨rfl, ?_⟩
  obtain ⟨-, hwritten⟩ := orRaise_eq_some.mp hcall
  have hunguarded : world.conn.closed = false ∧ world.conn.queryOnly = false := by
    unfold Connection.write at hwritten
    split_ifs at hwritten with hraises
    rw [not_or, Bool.not_eq_true, Bool.not_eq_true] at hraises
    exact hraises
  rcases h.conn with hwork | hretired
  · obtain ⟨frame, frames, hframes⟩ := List.exists_cons_of_ne_nil h.stacked.ne_nil
    have hguard : (prepared entered owned).queryOnly = false := by
      have hsame := hunguarded.2
      rw [hwork] at hsame
      exact hsame
    rw [hwork, hframes, List.map_cons, UnitFrame.level,
      Connection.working_write (prepared_idle h.idle).1 hguard] at hwritten
    refine ⟨h.idle, ?_, h.owner, .inl ?_⟩
    · rw [hframes]
      have hstacked := h.stacked
      rw [hframes] at hstacked
      cases hstacked with
      | transaction kind first => exact .transaction kind first
      | snapshot kind first => exact .snapshot kind first
      | savepoint kind outer => exact .savepoint kind outer
      | joined kind outer => exact .joined kind outer
    · rw [hframes]
      exact (Option.some.inj hwritten).symm
  · rw [hretired.closed] at hunguarded
    cases hunguarded.1

end Enter

/-! ## Leaving a unit -/

section Leave

variable {c : κ} {world : UnitWorld κ δ} {faults : UnitFaults} {entered : Connection ℕ δ}
  {owned bodyRaised : Bool} {frame : UnitFrame δ}

variable {frames : List (UnitFrame δ)}

/-- A write transaction is left. -/
theorem Inside.leaveWriteTransaction (h : Inside c world entered true)
    (hframes : world.frames = [frame]) :
    Ended c entered frame.writes
      (world.leaveWriteTransaction c faults entered.queryOnly [] bodyRaised) := by
  -- without a commit, the database is that of the entry
  have hfail : Ended c entered frame.writes
      ⟨{ world with
          conn := UnitWorld.failTransaction faults world.conn entered.queryOnly
          owners := world.owners.erase c
          frames := [] }, true, false⟩ := by
    obtain ⟨hsettled, hsame⟩ := @failTransaction_settled δ world.conn faults entered.queryOnly
    have hdatabase : world.conn.database = entered.database := by
      rcases h.conn with hwork | hretired
      · rw [hwork]
        rfl
      · exact hretired.database
    exact
      { outside := ⟨rfl, Finset.notMem_erase c world.owners, hsettled.transaction⟩
        settled := hsettled
        unchanged := fun _ => hsame.trans hdatabase
        committed := nofun }
  unfold UnitWorld.leaveWriteTransaction
  split_ifs with hraises
  · exact hfail
  rcases hcall : orRaise faults.commit world.conn.commit with _ | conn
  · exact hfail
  obtain ⟨-, hcommit⟩ := orRaise_eq_some.mp hcall
  rw [not_or, not_or, Bool.not_eq_false, h.require_iff] at hraises
  rcases h.conn with hwork | hretired
  · rw [hwork, hframes, List.map_singleton, UnitFrame.level,
      Connection.working_commit (prepared_idle h.idle).1] at hcommit
    obtain rfl := Option.some.inj hcommit
    obtain ⟨hsettled, hsame⟩ := @restoreGuard_settled δ
      { prepared entered true with
        database := replay entered.database frame.writes, transaction := none }
      faults entered.queryOnly rfl
    exact
      { outside := ⟨rfl, Finset.notMem_erase c world.owners, hsettled.transaction⟩
        settled := hsettled
        unchanged := nofun
        committed := fun _ => hsame }
  · rw [hretired.closed] at hraises
    cases hraises.2.2.2

omit [DecidableEq κ] in
/-- A read snapshot that has begun the transaction is left by a rollback that returns. -/
theorem Inside.leaveReadSnapshot (h : Inside c world entered false)
    (hrollback : faults.rollback = false) :
    Ended c entered frame.writes
      (world.leaveReadSnapshot faults true frame [] bodyRaised) := by
  have hnotOwned : c ∉ world.owners := fun howner => Bool.false_ne_true (h.owner.mp howner)
  unfold UnitWorld.leaveReadSnapshot
  rw [if_pos rfl, hrollback, orRaise, if_neg Bool.false_ne_true]
  rcases h.conn with hwork | hretired
  · rw [hwork, Connection.working_rollback (prepared_idle h.idle).1]
    exact
      { outside := ⟨rfl, hnotOwned, rfl⟩
        settled := ⟨rfl, .inr rfl⟩
        unchanged := fun _ => rfl
        committed := fun hcommitted => absurd hcommitted Bool.false_ne_true }
  · rw [Connection.rollback, if_pos hretired.closed]
    exact
      { outside := ⟨rfl, hnotOwned, hretired.transaction⟩
        settled := ⟨hretired.transaction, .inl hretired.closed⟩
        unchanged := fun _ => hretired.database
        committed := fun hcommitted => absurd hcommitted Bool.false_ne_true }

omit [DecidableEq κ] in
/-- The connection retires in the middle of the units. -/
theorem Inside.retire (h : Inside c world entered owned) (houter : Stacked entered owned frames) :
    Inside c { world with conn := world.conn.close, frames := frames } entered owned := by
  refine ⟨h.idle, houter, h.owner, .inr ⟨rfl, rfl, ?_⟩⟩
  rcases h.conn with hwork | hretired
  · change world.conn.database = entered.database
    rw [hwork]
    rfl
  · exact hretired.database

/-- Handing writes over keeps the stack of the units. -/
theorem Stacked.handOver (h : Stacked entered owned frames) :
    Stacked entered owned (UnitWorld.handOver frame frames) := by
  cases h with
  | transaction kind first => exact .transaction kind first
  | snapshot kind first => exact .snapshot kind first
  | savepoint kind outer => exact .savepoint kind outer
  | joined kind outer => exact .joined kind outer

/-- A savepoint is left: its writes are handed over, or rolled back, or the connection retires. -/
theorem Inside.leaveWriteSavepoint {name : ℕ} (h : Inside c world entered true)
    (hframes : world.frames = frame :: frames) (hkind : frame.kind = .savepoint name)
    (houter : Stacked entered true frames) :
    (world.leaveWriteSavepoint c faults name frame frames bodyRaised).committed = false ∧
      Inside c (world.leaveWriteSavepoint c faults name frame frames bodyRaised).world
        entered true := by
  have hopen : (prepared entered true).closed = false := h.idle.1
  have hlevel : frame.level = ⟨some name, frame.writes⟩ := by
    rw [UnitFrame.level, hkind]
    rfl
  unfold UnitWorld.leaveWriteSavepoint
  split_ifs with hraises
  · rcases hcall : (orRaise faults.rollbackTo (world.conn.rollbackTo name)).bind fun conn =>
        orRaise faults.release (conn.release name) with _ | conn
    · exact ⟨rfl, h.retire houter⟩
    · obtain ⟨back, hback, hreleased⟩ := Option.bind_eq_some_iff.mp hcall
      obtain ⟨-, hback⟩ := orRaise_eq_some.mp hback
      obtain ⟨-, hreleased⟩ := orRaise_eq_some.mp hreleased
      rcases h.conn with hwork | hretired
      · rw [hwork, hframes, List.map_cons, hlevel, Connection.working_rollbackTo hopen] at hback
        obtain rfl := Option.some.inj hback
        rw [Connection.working_release_nil hopen] at hreleased
        exact ⟨rfl, ⟨h.idle, houter, h.owner, .inl (Option.some.inj hreleased).symm⟩⟩
      · rw [Connection.rollbackTo, Connection.inside, if_pos hretired.closed] at hback
        cases hback
  · rcases hcall : orRaise faults.release (world.conn.release name) with _ | conn
    · exact ⟨rfl, h.retire houter⟩
    · obtain ⟨-, hreleased⟩ := orRaise_eq_some.mp hcall
      obtain ⟨outer, rest, hrest⟩ := List.exists_cons_of_ne_nil houter.ne_nil
      rcases h.conn with hwork | hretired
      · rw [hwork, hframes, hrest, List.map_cons, List.map_cons, hlevel, UnitFrame.level,
          Connection.working_release hopen] at hreleased
        refine ⟨rfl, ⟨h.idle, houter.handOver, h.owner, .inl ?_⟩⟩
        rw [hrest]
        exact (Option.some.inj hreleased).symm
      · rw [Connection.release, Connection.inside, if_pos hretired.closed] at hreleased
        cases hreleased

omit [DecidableEq κ] in
/-- A joined snapshot is left: its writes are handed over. -/
theorem Inside.leaveJoined (h : Inside c world entered owned)
    (hframes : world.frames = frame :: frames) (hkind : frame.kind = .snapshot false)
    (houter : Stacked entered owned frames) :
    (world.leaveReadSnapshot faults false frame frames bodyRaised).committed = false ∧
      Inside c (world.leaveReadSnapshot faults false frame frames bodyRaised).world
        entered owned := by
  have hlevel : frame.level = ⟨none, frame.writes⟩ := by
    rw [UnitFrame.level, hkind]
    rfl
  unfold UnitWorld.leaveReadSnapshot
  rw [if_neg Bool.false_ne_true]
  refine ⟨rfl, ⟨h.idle, houter.handOver, h.owner, h.conn.imp_left fun hwork => ?_⟩⟩
  obtain ⟨outer, rest, hrest⟩ := List.exists_cons_of_ne_nil houter.ne_nil
  rw [hframes, hrest, List.map_cons, List.map_cons, hlevel, UnitFrame.level,
    Connection.working_merge] at hwork
  rw [hrest]
  exact hwork

end Leave

/-! ## Runs -/

/-- The condition on a call: an outermost read snapshot is not left by a rollback that raises. -/
def KeepsSnapshot (world : UnitWorld κ δ) : UnitAction δ → Prop
  | .leave _ faults => ∀ frame frames, world.frames = frame :: frames →
      frame.kind = .snapshot true → faults.rollback = false
  | _ => True

section Runs

variable {c : κ} {world next : UnitWorld κ δ} {action : UnitAction δ} {out : UnitOutcome κ δ}
variable {owned : Bool} {entered : Connection ℕ δ}

omit [DecidableEq κ] in
/-- A unit that is entered from outside is open, or has ended. -/
theorem unitInv_of_enter
    (h : (out.raised = false ∧ out.committed = false ∧ Inside c out.world world.conn owned) ∨
      (out.raised = true ∧ Ended c world.conn [] out)) :
    UnitInv c out.world ∧ (out.raised = true → Ended c world.conn [] out) := by
  rcases h with ⟨hraised, -, hinside⟩ | ⟨-, hended⟩
  · refine ⟨.inside _ _ hinside, fun htrue => ?_⟩
    rw [hraised] at htrue
    cases htrue
  · exact ⟨.outside hended.outside, fun _ => hended⟩

/-- Every call from outside of all units. -/
theorem Outside.outcome_spec (h : Outside c world) (hout : world.outcome c action = some out) :
    UnitInv c out.world ∧ (out.raised = true → Ended c world.conn [] out) := by
  cases action with
  | writeTransaction faults =>
    obtain rfl := Option.some.inj hout
    exact unitInv_of_enter h.enterWriteTransaction
  | writeSavepoint faults =>
    obtain rfl := Option.some.inj hout
    rw [h.enterWriteSavepoint]
    exact unitInv_of_enter h.enterWriteTransaction
  | readSnapshot faults =>
    obtain rfl := Option.some.inj hout
    exact unitInv_of_enter h.enterReadSnapshot
  | write f fault =>
    obtain rfl := Option.some.inj hout
    unfold UnitWorld.write
    rcases hcall : orRaise fault (world.conn.write f) with _ | conn
    · exact ⟨.outside h, fun _ => h.refuse⟩
    · obtain ⟨-, hwritten⟩ := orRaise_eq_some.mp hcall
      unfold Connection.write at hwritten
      rw [h.transaction] at hwritten
      split_ifs at hwritten with hraises
      obtain rfl := Option.some.inj hwritten
      refine ⟨.outside ⟨?_, h.notOwned, rfl⟩, nofun⟩
      rw [h.frames]
      rfl
  | leave bodyRaised faults =>
    change world.leave c faults bodyRaised = some out at hout
    rw [UnitWorld.leave, h.frames] at hout
    cases hout

/-- Leaving a unit. -/
theorem Inside.leave_spec {bodyRaised : Bool} {faults : UnitFaults}
    (h : Inside c world entered owned) (hkeeps : KeepsSnapshot world (.leave bodyRaised faults))
    (hout : world.leave c faults bodyRaised = some out) :
    UnitInv c out.world ∧
      ∀ frame, world.frames = [frame] → Ended c frame.entered frame.writes out := by
  obtain ⟨frame, frames, hframes⟩ := List.exists_cons_of_ne_nil h.stacked.ne_nil
  have hstacked := h.stacked
  rw [hframes] at hstacked
  rw [UnitWorld.leave, hframes] at hout
  dsimp only at hout
  -- an inner unit leaves the outer ones open
  have hinner : frames ≠ [] → Inside c out.world entered owned → UnitInv c out.world ∧
      ∀ frame, world.frames = [frame] → Ended c frame.entered frame.writes out := by
    intro hne hinside
    refine ⟨.inside entered owned hinside, fun last hlast => ?_⟩
    rw [hframes] at hlast
    exact absurd (List.cons.inj hlast).2 hne
  have hlast : Ended c frame.entered frame.writes out → UnitInv c out.world ∧
      ∀ frame, world.frames = [frame] → Ended c frame.entered frame.writes out := by
    intro hended
    refine ⟨.outside hended.outside, fun last hsame => ?_⟩
    rw [hframes] at hsame
    rw [← (List.cons.inj hsame).1]
    exact hended
  cases hstacked with
  | transaction kind first =>
    rw [kind] at hout
    obtain rfl := Option.some.inj hout
    exact hlast (first ▸ h.leaveWriteTransaction hframes)
  | snapshot kind first =>
    rw [kind] at hout
    obtain rfl := Option.some.inj hout
    exact hlast (first ▸ h.leaveReadSnapshot (hkeeps frame [] hframes kind))
  | savepoint kind outer =>
    rw [kind] at hout
    obtain rfl := Option.some.inj hout
    exact hinner outer.ne_nil (h.leaveWriteSavepoint hframes kind outer).2
  | joined kind outer =>
    rw [kind] at hout
    obtain rfl := Option.some.inj hout
    exact hinner outer.ne_nil (h.leaveJoined hframes kind outer).2

/-- Every call from inside of a unit keeps the invariant. -/
theorem Inside.outcome_spec (h : Inside c world entered owned) (hkeeps : KeepsSnapshot world action)
    (hout : world.outcome c action = some out) : UnitInv c out.world := by
  cases action with
  | writeTransaction faults =>
    obtain rfl := Option.some.inj hout
    rw [h.enterWriteTransaction]
    exact .inside _ _ h
  | writeSavepoint faults =>
    obtain rfl := Option.some.inj hout
    exact .inside _ _ h.enterWriteSavepoint.2
  | readSnapshot faults =>
    obtain rfl := Option.some.inj hout
    exact .inside _ _ h.enterReadSnapshot.2
  | write f fault =>
    obtain rfl := Option.some.inj hout
    exact .inside _ _ (h.write f fault).2
  | leave bodyRaised faults => exact (h.leave_spec hkeeps hout).1

/-- Every call that meets the condition keeps the invariant. -/
theorem unitInv_step (hinv : UnitInv c world) (hkeeps : KeepsSnapshot world action)
    (hstep : world.step c action = some next) : UnitInv c next := by
  obtain ⟨out, hout, rfl⟩ := Option.map_eq_some_iff.mp hstep
  cases hinv with
  | outside h => exact (h.outcome_spec hout).1
  | inside entered owned h => exact h.outcome_spec hkeeps hout

/-- Every run whose calls meet it keeps the invariant. -/
theorem unitInv_run {actions : List (UnitAction δ)} (hfresh : world.Fresh c)
    (hkeeps : Along (UnitWorld.step c) KeepsSnapshot world actions)
    (h : run (UnitWorld.step c) world actions = some next) : UnitInv c next :=
  run_along (fun _ _ _ hinv hkeeps hstep => unitInv_step hinv hkeeps hstep)
    (.outside ⟨hfresh.frames, hfresh.notOwned, hfresh.idle.2⟩) hkeeps h

/-- The innermost units of a stack are no write transactions unless the outermost one is. -/
theorem Stacked.owned_iff (h : Stacked entered owned frames) :
    owned = true ↔ ∃ frame ∈ frames, ∃ queryOnly, frame.kind = .transaction queryOnly := by
  induction h with
  | transaction kind first => exact iff_of_true rfl ⟨_, List.mem_singleton_self _, _, kind⟩
  | snapshot kind first =>
    refine iff_of_false Bool.false_ne_true ?_
    rintro ⟨frame, hframe, queryOnly, hkind⟩
    rw [List.mem_singleton.mp hframe, kind] at hkind
    cases hkind
  | savepoint kind outer ih =>
    refine iff_of_true rfl ?_
    obtain ⟨frame, hframe, hkind⟩ := ih.mp rfl
    exact ⟨frame, List.mem_cons_of_mem _ hframe, hkind⟩
  | joined kind outer ih =>
    rw [ih]
    constructor
    · rintro ⟨frame, hframe, hkind⟩
      exact ⟨frame, List.mem_cons_of_mem _ hframe, hkind⟩
    · rintro ⟨frame, hframe, queryOnly, hkind⟩
      rcases List.mem_cons.mp hframe with rfl | hframe
      · rw [kind] at hkind
        cases hkind
      · exact ⟨frame, hframe, queryOnly, hkind⟩

/-- What holds of the units in a state: how the outermost one ends, whether it could not be entered
or is left; when `require_write_transaction` returns; and that a busy connection refuses
`write_transaction`. -/
structure UnitsAtomic (c : κ) (world : UnitWorld κ δ) : Prop where
  notEntered : ∀ action out, world.frames = [] → world.outcome c action = some out →
    out.raised = true → Ended c world.conn [] out
  left : ∀ frame bodyRaised faults out, KeepsSnapshot world (.leave bodyRaised faults) →
    world.frames = [frame] → world.leave c faults bodyRaised = some out →
      Ended c frame.entered frame.writes out
  require : world.requireWriteTransaction c = true ↔ world.conn.closed = false ∧
    ∃ frame ∈ world.frames, ∃ queryOnly, frame.kind = .transaction queryOnly
  busy : ∀ faults, (world.conn.inTransaction = some true ∨ c ∈ world.owners) →
    world.enterWriteTransaction c faults = world.refuse

omit [DecidableEq κ] in
/-- Outside of all units the connection has no open transaction. -/
theorem Outside.not_inTransaction (h : Outside c world) : world.conn.inTransaction ≠ some true := by
  intro hbusy
  obtain ⟨-, hfalse⟩ := h.idle hbusy
  cases hfalse

/-- Along every run of calls from an idle connection, in which no outermost read snapshot is left
by a rollback that raises, the units are atomic and restore the guard. -/
theorem write_units_atomic {actions : List (UnitAction δ)} (hfresh : world.Fresh c)
    (hkeeps : Along (UnitWorld.step c) KeepsSnapshot world actions)
    (h : run (UnitWorld.step c) world actions = some next) : UnitsAtomic c next := by
  cases unitInv_run hfresh hkeeps h with
  | outside houtside =>
    refine ⟨fun action out _ hout hraised => (houtside.outcome_spec hout).2 hraised,
      fun frame _ _ out _ hframes _ => ?_, ?_, fun faults hbusy => ?_⟩
    · rw [houtside.frames] at hframes
      cases hframes
    · refine iff_of_false ?_ ?_
      · rw [UnitWorld.requireWriteTransaction, decide_eq_true_iff]
        exact fun hrequire => houtside.notOwned hrequire.1
      · rintro ⟨-, frame, hframe, -⟩
        rw [houtside.frames] at hframe
        cases hframe
    · rcases hbusy with hbusy | howner
      · exact absurd hbusy houtside.not_inTransaction
      · exact absurd howner houtside.notOwned
  | inside entered owned hinside =>
    refine ⟨fun action out hframes _ _ => absurd hframes hinside.stacked.ne_nil,
      fun frame bodyRaised faults out hkeeps hframes hout =>
        (hinside.leave_spec hkeeps hout).2 frame hframes, ?_,
      fun faults _ => hinside.enterWriteTransaction⟩
    rw [hinside.require_iff, and_comm, hinside.stacked.owned_iff]

/-- An idle connection under its guard. -/
def idleWorld : UnitWorld ℕ ℕ where
  conn := ⟨0, none, true, false⟩
  owners := ∅
  nextSavepoint := 0
  frames := []

theorem idleWorld_fresh : idleWorld.Fresh 0 where
  idle := ⟨rfl, rfl⟩
  notOwned := by decide
  frames := rfl

/-- A write transaction with a write, in which a savepoint with another write is left by an
exception: leaving it commits the first write. -/
theorem write_units_atomic_sample :
    ∃ next out, run (UnitWorld.step 0) idleWorld
        [.writeTransaction {}, .write (· + 1) false, .writeSavepoint {}, .write (· + 10) false,
          .leave true {}] = some next ∧
      next.leave 0 {} false = some out ∧ out.world.conn.database = 1 := by
  have hkeeps : Along (UnitWorld.step 0) KeepsSnapshot idleWorld
      [.writeTransaction {}, .write (· + 1) false, .writeSavepoint {}, .write (· + 10) false,
        .leave true {}] := by
    refine (along_cons rfl).mpr ⟨trivial, (along_cons rfl).mpr ⟨trivial, (along_cons rfl).mpr
      ⟨trivial, (along_cons rfl).mpr ⟨trivial, (along_cons rfl).mpr ⟨?_, trivial⟩⟩⟩⟩⟩
    intro frame frames _ _
    rfl
  have hatomic := write_units_atomic idleWorld_fresh hkeeps rfl
  have hended := hatomic.left _ false {} _ (fun _ _ _ _ => rfl) rfl rfl
  exact ⟨_, _, rfl, rfl, hended.committed rfl⟩

/-- A read snapshot on an idle connection whose rollback raises leaves the transaction open. -/
theorem snapshot_left_open :
    ¬ ∀ (world next : UnitWorld ℕ ℕ) (actions : List (UnitAction ℕ)) (frame : UnitFrame ℕ)
        (bodyRaised : Bool) (faults : UnitFaults) (out : UnitOutcome ℕ ℕ),
      world.Fresh 0 → run (UnitWorld.step 0) world actions = some next → next.frames = [frame] →
        next.leave 0 faults bodyRaised = some out → Ended 0 frame.entered frame.writes out := by
  intro h
  have hended := h idleWorld _ [.readSnapshot {}] _ false { rollback := true } _ idleWorld_fresh
    rfl rfl rfl
  have htransaction := hended.settled.transaction
  cases htransaction

end Runs

end McpTelegram
