import McpTelegram.Foundations.Run
import McpTelegram.Foundations.Savepoints

/-!
# Write units

`sync_transactions.py`: `write_transaction`, `write_savepoint` and `read_snapshot` on one
connection, and `require_write_transaction`.  A unit is entered and left; what its body does in
between is a list of further calls, so that a run of calls is any nesting of units, with an
exception wherever a call raises or a body is left by one.  A call of the connection may raise on
its own account, and changes nothing then.  Diagnostics are left out.
-/

namespace McpTelegram

open Foundations

variable {κ δ : Type*} [DecidableEq κ]

/-! ## The state -/

/-- The calls of the connection, and the guard check, that raise on their own account while a unit
is entered or left. -/
structure UnitFaults where
  guardRead : Bool := false
  guardDisable : Bool := false
  beginning : Bool := false
  guardCheck : Bool := false
  commit : Bool := false
  rollback : Bool := false
  restore : Bool := false
  savepoint : Bool := false
  rollbackTo : Bool := false
  release : Bool := false

/-- A call that may raise on its own account. -/
def orRaise {α : Type*} (fault : Bool) (call : Option α) : Option α :=
  if fault then none else call

/-- The unit that is open: a transaction with the guard to restore, a savepoint with its name, or a
read snapshot that has begun a transaction or not. -/
inductive UnitKind
  | transaction (queryOnly : Bool)
  | savepoint (name : ℕ)
  | snapshot (began : Bool)
  deriving DecidableEq

/-- An open unit.  Besides what its exit needs, the connection at its entry is recorded, and the
writes of its body that were not rolled back to a savepoint in it, those of inner units included. -/
structure UnitFrame (δ : Type*) where
  kind : UnitKind
  entered : Connection ℕ δ
  writes : List (δ → δ)

/-- The connection, the connections that this thread owns, the next savepoint name, and the open
units on the connection, the innermost one first. -/
structure UnitWorld (κ δ : Type*) where
  conn : Connection ℕ δ
  owners : Finset κ
  nextSavepoint : ℕ
  frames : List (UnitFrame δ)

/-- How a call ends: the world, whether it raises, and whether its commit has succeeded. -/
structure UnitOutcome (κ δ : Type*) where
  world : UnitWorld κ δ
  raised : Bool
  committed : Bool := false

namespace UnitWorld

variable (c : κ) (world : UnitWorld κ δ) (faults : UnitFaults)

/-- The call raises and changes nothing. -/
def refuse : UnitOutcome κ δ := ⟨world, true, false⟩

/-- `require_write_transaction`: whether it returns. -/
def requireWriteTransaction : Bool :=
  c ∈ world.owners ∧ world.conn.inTransaction = some true

/-- `_restore_guard`: the connection, and whether the restore has failed. -/
def restoreGuard (conn : Connection ℕ δ) (queryOnly : Bool) : Connection ℕ δ × Bool :=
  match orRaise faults.restore (conn.setQueryOnly queryOnly) with
  | some conn => (conn, false)
  | none => (conn.close, true)

/-- The `except` and `finally` branches of `write_transaction`. -/
def failTransaction (conn : Connection ℕ δ) (queryOnly : Bool) : Connection ℕ δ :=
  match orRaise faults.rollback conn.rollback with
  | none => conn.close
  | some conn => (restoreGuard faults conn queryOnly).1

/-- `write_transaction` up to its `yield`. -/
def enterWriteTransaction : UnitOutcome κ δ :=
  match world.conn.inTransaction with
  | none => world.refuse
  | some busy =>
    if busy ∨ c ∈ world.owners then world.refuse
    else if faults.guardRead then world.refuse
    else
      let queryOnly := world.conn.queryOnly
      match orRaise faults.guardDisable (world.conn.setQueryOnly false) with
      | none =>
        ⟨{ world with
            conn := failTransaction faults world.conn queryOnly
            owners := world.owners.erase c }, true, false⟩
      | some conn =>
        match orRaise faults.beginning conn.start with
        | none =>
          ⟨{ world with
              conn := failTransaction faults conn queryOnly
              owners := world.owners.erase c }, true, false⟩
        | some conn =>
          ⟨{ world with
              conn := conn
              owners := insert c world.owners
              frames := ⟨.transaction queryOnly, world.conn, []⟩ :: world.frames }, false, false⟩

/-- `write_savepoint` up to its `yield`. -/
def enterWriteSavepoint : UnitOutcome κ δ :=
  if c ∉ world.owners then world.enterWriteTransaction c faults
  else if world.requireWriteTransaction c = false then world.refuse
  else
    let name := world.nextSavepoint
    match orRaise faults.savepoint (world.conn.savepoint name) with
    | none => ⟨{ world with nextSavepoint := name + 1 }, true, false⟩
    | some conn =>
      ⟨{ world with
          conn := conn
          nextSavepoint := name + 1
          frames := ⟨.savepoint name, world.conn, []⟩ :: world.frames }, false, false⟩

/-- `read_snapshot` up to its `yield`. -/
def enterReadSnapshot : UnitOutcome κ δ :=
  match world.conn.inTransaction with
  | none => world.refuse
  | some true =>
    ⟨{ world with frames := ⟨.snapshot false, world.conn, []⟩ :: world.frames }, false, false⟩
  | some false =>
    match orRaise faults.beginning world.conn.start with
    | none => world.refuse
    | some conn =>
      ⟨{ world with
          conn := conn
          frames := ⟨.snapshot true, world.conn, []⟩ :: world.frames }, false, false⟩

/-- The units around a unit that is left, with its writes handed to the next one. -/
def handOver (frame : UnitFrame δ) : List (UnitFrame δ) → List (UnitFrame δ)
  | [] => []
  | outer :: frames => { outer with writes := outer.writes ++ frame.writes } :: frames

/-- `write_transaction` from its `yield` on. -/
def leaveWriteTransaction (queryOnly : Bool) (frames : List (UnitFrame δ)) (bodyRaised : Bool) :
    UnitOutcome κ δ :=
  let commit : Option (Connection ℕ δ) :=
    if bodyRaised ∨ faults.guardCheck ∨ world.requireWriteTransaction c = false then none
    else orRaise faults.commit world.conn.commit
  match commit with
  | some conn =>
    let restored := restoreGuard faults conn queryOnly
    ⟨{ world with conn := restored.1, owners := world.owners.erase c, frames := frames },
      restored.2, true⟩
  | none =>
    ⟨{ world with
        conn := failTransaction faults world.conn queryOnly
        owners := world.owners.erase c
        frames := frames }, true, false⟩

/-- `write_savepoint` from its `yield` on. -/
def leaveWriteSavepoint (name : ℕ) (frame : UnitFrame δ) (frames : List (UnitFrame δ))
    (bodyRaised : Bool) : UnitOutcome κ δ :=
  if bodyRaised ∨ faults.guardCheck ∨ world.requireWriteTransaction c = false then
    match (orRaise faults.rollbackTo (world.conn.rollbackTo name)).bind fun conn =>
        orRaise faults.release (conn.release name) with
    | none => ⟨{ world with conn := world.conn.close, frames := frames }, true, false⟩
    | some conn => ⟨{ world with conn := conn, frames := frames }, true, false⟩
  else
    match orRaise faults.release (world.conn.release name) with
    | none => ⟨{ world with conn := world.conn.close, frames := frames }, true, false⟩
    | some conn => ⟨{ world with conn := conn, frames := handOver frame frames }, false, false⟩

/-- `read_snapshot` from its `yield` on. -/
def leaveReadSnapshot (began : Bool) (frame : UnitFrame δ) (frames : List (UnitFrame δ))
    (bodyRaised : Bool) : UnitOutcome κ δ :=
  if began then
    match orRaise faults.rollback world.conn.rollback with
    | none => ⟨{ world with frames := frames }, true, false⟩
    | some conn => ⟨{ world with conn := conn, frames := frames }, bodyRaised, false⟩
  else ⟨{ world with frames := handOver frame frames }, bodyRaised, false⟩

/-- The innermost unit is left, by an exception of its body or not. -/
def leave (bodyRaised : Bool) : Option (UnitOutcome κ δ) :=
  match world.frames with
  | [] => none
  | frame :: frames =>
    match frame.kind with
    | .transaction queryOnly =>
      some (world.leaveWriteTransaction c faults queryOnly frames bodyRaised)
    | .savepoint name => some (world.leaveWriteSavepoint c faults name frame frames bodyRaised)
    | .snapshot began => some (world.leaveReadSnapshot faults began frame frames bodyRaised)

/-- A write of the innermost body. -/
def write (f : δ → δ) (fault : Bool) : UnitOutcome κ δ :=
  match orRaise fault (world.conn.write f) with
  | none => world.refuse
  | some conn =>
    ⟨{ world with
        conn := conn
        frames := world.frames.modifyHead fun frame =>
          { frame with writes := frame.writes ++ [f] } }, false, false⟩

end UnitWorld

/-- A call. -/
inductive UnitAction (δ : Type*)
  | writeTransaction (faults : UnitFaults)
  | writeSavepoint (faults : UnitFaults)
  | readSnapshot (faults : UnitFaults)
  | write (f : δ → δ) (fault : Bool)
  | leave (bodyRaised : Bool) (faults : UnitFaults)

namespace UnitWorld

/-- How a call ends. -/
def outcome (c : κ) (world : UnitWorld κ δ) : UnitAction δ → Option (UnitOutcome κ δ)
  | .writeTransaction faults => some (world.enterWriteTransaction c faults)
  | .writeSavepoint faults => some (world.enterWriteSavepoint c faults)
  | .readSnapshot faults => some (world.enterReadSnapshot faults)
  | .write f fault => some (world.write f fault)
  | .leave bodyRaised faults => world.leave c faults bodyRaised

/-- One call. -/
def step (c : κ) (world : UnitWorld κ δ) (action : UnitAction δ) : Option (UnitWorld κ δ) :=
  (world.outcome c action).map UnitOutcome.world

/-- Nothing is open on an idle connection. -/
structure Fresh (c : κ) (world : UnitWorld κ δ) : Prop where
  idle : world.conn.Idle
  notOwned : c ∉ world.owners
  frames : world.frames = []

end UnitWorld

end McpTelegram
