import Mathlib.Tactic

/-!
# A connection with one transaction and savepoints

A connection to a database has at most one transaction, whose working copy replaces the database
when it commits, and in it a stack of savepoints.  Going back to a savepoint restores the copy that
was taken at it.  Nested units of work are levels, each with the writes that it
has made: `Connection.working` is the connection whose working copy has the writes of all of them,
and every operation on it is a change of the levels.  Whatever is done to a connection, the data it
holds are copies of what it held before, and what was written.
-/

namespace Foundations

variable {ν δ : Type*}
variable {name : ν}

/-- A transaction: the working copy, and the savepoints with the copies taken at them, the latest
one first. -/
structure Transaction (ν δ : Type*) where
  working : δ
  savepoints : List (ν × δ)

/-- A connection.  Every operation answers `none` when it raises; the connection is unchanged
then. -/
structure Connection (ν δ : Type*) where
  database : δ
  transaction : Option (Transaction ν δ)
  queryOnly : Bool
  closed : Bool

namespace Connection

/-- Whether a transaction is open. -/
def inTransaction (conn : Connection ν δ) : Option Bool :=
  if conn.closed then none else some conn.transaction.isSome

/-- The write guard is set. -/
def setQueryOnly (conn : Connection ν δ) (queryOnly : Bool) : Option (Connection ν δ) :=
  if conn.closed then none else some { conn with queryOnly := queryOnly }

/-- A transaction begins. -/
def start (conn : Connection ν δ) : Option (Connection ν δ) :=
  if conn.closed ∨ conn.transaction.isSome then none
  else some { conn with transaction := some ⟨conn.database, []⟩ }

/-- The transaction commits, if there is one. -/
def commit (conn : Connection ν δ) : Option (Connection ν δ) :=
  if conn.closed then none
  else
    match conn.transaction with
    | none => some conn
    | some txn => some { conn with database := txn.working, transaction := none }

/-- The transaction is rolled back, if there is one. -/
def rollback (conn : Connection ν δ) : Option (Connection ν δ) :=
  if conn.closed then none else some { conn with transaction := none }

/-- A change of the open transaction. -/
def inside (conn : Connection ν δ) (change : Transaction ν δ → Option (Transaction ν δ)) :
    Option (Connection ν δ) :=
  if conn.closed then none
  else
    (conn.transaction.bind change).map fun txn => { conn with transaction := some txn }

/-- A savepoint is taken in the open transaction. -/
def savepoint (conn : Connection ν δ) (name : ν) : Option (Connection ν δ) :=
  conn.inside fun txn => some { txn with savepoints := (name, txn.working) :: txn.savepoints }

/-- The transaction goes back to a savepoint, which stays. -/
def rollbackTo [DecidableEq ν] (conn : Connection ν δ) (name : ν) : Option (Connection ν δ) :=
  conn.inside fun txn =>
    match txn.savepoints.dropWhile (·.1 ≠ name) with
    | [] => none
    | mark :: marks => some ⟨mark.2, mark :: marks⟩

/-- A savepoint and those after it are forgotten. -/
def release [DecidableEq ν] (conn : Connection ν δ) (name : ν) : Option (Connection ν δ) :=
  conn.inside fun txn =>
    match txn.savepoints.dropWhile (·.1 ≠ name) with
    | [] => none
    | _ :: marks => some { txn with savepoints := marks }

/-- A write, which commits by itself outside a transaction. -/
def write (conn : Connection ν δ) (f : δ → δ) : Option (Connection ν δ) :=
  if conn.closed ∨ conn.queryOnly then none
  else
    match conn.transaction with
    | none => some { conn with database := f conn.database }
    | some txn => some { conn with transaction := some { txn with working := f txn.working } }

/-- The connection is closed, which rolls its transaction back. -/
def close (conn : Connection ν δ) : Connection ν δ :=
  { conn with transaction := none, closed := true }

/-- Open, and no transaction in it. -/
def Idle (conn : Connection ν δ) : Prop := conn.closed = false ∧ conn.transaction = none

end Connection

/-! ## Nested units -/

/-- A level of nested work: the savepoint taken at its start, if there is one, and the writes made
in it, the first one first. -/
structure Level (ν δ : Type*) where
  mark : Option ν
  writes : List (δ → δ)

/-- A value after a list of writes. -/
def replay (value : δ) (writes : List (δ → δ)) : δ := writes.foldl (fun value f => f value) value

@[simp] theorem replay_nil (value : δ) : replay value [] = value := rfl

theorem replay_append (value : δ) (writes writes' : List (δ → δ)) :
    replay value (writes ++ writes') = replay (replay value writes) writes' :=
  List.foldl_append

/-- The value that the levels make of a base, the innermost level first. -/
def levelsValue (base : δ) : List (Level ν δ) → δ
  | [] => base
  | level :: levels => replay (levelsValue base levels) level.writes

/-- The savepoints of the levels. -/
def levelsMarks (base : δ) : List (Level ν δ) → List (ν × δ)
  | [] => []
  | level :: levels =>
    match level.mark with
    | none => levelsMarks base levels
    | some name => (name, levelsValue base levels) :: levelsMarks base levels

namespace Connection

/-- The connection with the work of the levels on its database as its transaction. -/
def working (conn : Connection ν δ) (levels : List (Level ν δ)) : Connection ν δ where
  database := conn.database
  transaction := some ⟨levelsValue conn.database levels, levelsMarks conn.database levels⟩
  queryOnly := conn.queryOnly
  closed := conn.closed

variable {conn : Connection ν δ} {levels : List (Level ν δ)} {name : ν} {mark : Option ν}
  {writes writes' : List (δ → δ)}

variable {change : Transaction ν δ → Option (Transaction ν δ)}

/-- A change of the work of the levels. -/
theorem working_inside {levels' : List (Level ν δ)} (hopen : conn.closed = false)
    (h : change ⟨levelsValue conn.database levels, levelsMarks conn.database levels⟩ =
      some ⟨levelsValue conn.database levels', levelsMarks conn.database levels'⟩) :
    (conn.working levels).inside change = some (conn.working levels') := by
  have hclosed : ¬ (conn.working levels).closed = true := by
    rw [working, hopen]
    exact Bool.false_ne_true
  rw [inside, if_neg hclosed, working, Option.bind_some, h]
  rfl

/-- An idle connection begins with a level of no writes. -/
theorem start_of_idle (h : conn.Idle) : conn.start = some (conn.working [⟨none, []⟩]) := by
  rw [start, if_neg (by simp [h.1, h.2])]
  rfl

theorem working_savepoint (hopen : conn.closed = false) :
    (conn.working levels).savepoint name = some (conn.working (⟨some name, []⟩ :: levels)) :=
  working_inside hopen rfl

/-- Going back to the savepoint of the innermost level forgets its writes. -/
theorem working_rollbackTo [DecidableEq ν] (hopen : conn.closed = false) :
    (conn.working (⟨some name, writes⟩ :: levels)).rollbackTo name =
      some (conn.working (⟨some name, []⟩ :: levels)) := by
  apply working_inside hopen
  simp [levelsMarks, levelsValue]

/-- Releasing it hands its writes to the level around it. -/
theorem working_release [DecidableEq ν] (hopen : conn.closed = false) :
    (conn.working (⟨some name, writes'⟩ :: ⟨mark, writes⟩ :: levels)).release name =
      some (conn.working (⟨mark, writes ++ writes'⟩ :: levels)) := by
  apply working_inside hopen
  have hvalue := replay_append (levelsValue conn.database levels) writes writes'
  cases mark with
  | none => simp [levelsMarks, levelsValue, hvalue]
  | some outer => simp [levelsMarks, levelsValue, hvalue]

/-- Releasing a level without writes leaves the levels around it. -/
theorem working_release_nil [DecidableEq ν] (hopen : conn.closed = false) :
    (conn.working (⟨some name, []⟩ :: levels)).release name = some (conn.working levels) := by
  apply working_inside hopen
  simp [levelsMarks, levelsValue]

/-- The writes of a level without a savepoint are those of the level around it. -/
theorem working_merge : conn.working (⟨none, writes'⟩ :: ⟨mark, writes⟩ :: levels) =
    conn.working (⟨mark, writes ++ writes'⟩ :: levels) := by
  have hvalue := replay_append (levelsValue conn.database levels) writes writes'
  cases mark with
  | none => simp [working, levelsMarks, levelsValue, hvalue]
  | some outer => simp [working, levelsMarks, levelsValue, hvalue]

/-- A write is made in the innermost level. -/
theorem working_write (hopen : conn.closed = false) (hguard : conn.queryOnly = false)
    (f : δ → δ) : (conn.working (⟨mark, writes⟩ :: levels)).write f =
      some (conn.working (⟨mark, writes ++ [f]⟩ :: levels)) := by
  have hraises : ¬ ((conn.working (⟨mark, writes⟩ :: levels)).closed = true ∨
      (conn.working (⟨mark, writes⟩ :: levels)).queryOnly = true) := by
    simp [working, hopen, hguard]
  rw [write, if_neg hraises]
  cases mark with
  | none => simp [working, levelsMarks, levelsValue, replay]
  | some outer => simp [working, levelsMarks, levelsValue, replay]

/-- The last level commits its writes. -/
theorem working_commit (hopen : conn.closed = false) :
    (conn.working [⟨mark, writes⟩]).commit =
      some { conn with database := replay conn.database writes, transaction := none } := by
  have hclosed : ¬ (conn.working [⟨mark, writes⟩]).closed = true := by
    rw [working, hopen]
    exact Bool.false_ne_true
  rw [commit, if_neg hclosed]
  rfl

/-- Rolling back leaves the database. -/
theorem working_rollback (hopen : conn.closed = false) :
    (conn.working levels).rollback = some { conn with transaction := none } := by
  have hclosed : ¬ (conn.working levels).closed = true := by
    rw [working, hopen]
    exact Bool.false_ne_true
  rw [rollback, if_neg hclosed]
  rfl

end Connection

/-! ## The copies of the data -/

namespace Connection

/-- What a query on the connection sees. -/
def view (conn : Connection ν δ) : δ :=
  match conn.transaction with
  | none => conn.database
  | some txn => txn.working

/-- The copies of the data that the connection holds: the database, the working copy and those taken
at the savepoints. -/
def copies (conn : Connection ν δ) : List δ :=
  match conn.transaction with
  | none => [conn.database]
  | some txn => conn.database :: txn.working :: txn.savepoints.map Prod.snd

variable {conn conn' : Connection ν δ}

/-- The database is a copy. -/
theorem database_mem_copies : conn.database ∈ conn.copies := by
  rw [copies]
  cases conn.transaction with
  | none => exact List.mem_cons_self
  | some txn => exact List.mem_cons_self

/-- What a query sees is a copy. -/
theorem view_mem_copies : conn.view ∈ conn.copies := by
  rw [copies, view]
  cases conn.transaction with
  | none => exact List.mem_cons_self
  | some txn => exact List.mem_cons_of_mem _ List.mem_cons_self

theorem copies_of_none (h : conn.transaction = none) : conn.copies = [conn.database] := by
  rw [copies, h]

theorem view_of_none (h : conn.transaction = none) : conn.view = conn.database := by
  rw [view, h]

/-- A new transaction copies the database. -/
theorem start_copies (h : conn.start = some conn') : conn'.copies ⊆ conn.copies := by
  unfold start at h
  split_ifs at h
  obtain rfl := Option.some.inj h
  intro copy hcopy
  have hdatabase : copy = conn.database := by simpa [copies] using hcopy
  exact hdatabase ▸ database_mem_copies

/-- A commit makes the working copy the database. -/
theorem commit_copies (h : conn.commit = some conn') : conn'.copies ⊆ conn.copies := by
  unfold commit at h
  split_ifs at h
  cases htxn : conn.transaction with
  | none =>
    rw [htxn] at h
    obtain rfl := Option.some.inj h
    exact List.Subset.refl _
  | some txn =>
    rw [htxn] at h
    obtain rfl := Option.some.inj h
    intro copy hcopy
    have hworking : copy = txn.working := by simpa [copies] using hcopy
    rw [hworking, copies, htxn]
    exact List.mem_cons_of_mem _ List.mem_cons_self

/-- A connection whose transaction has ended keeps its database. -/
theorem copies_of_ended (hdatabase : conn'.database = conn.database)
    (htransaction : conn'.transaction = none) : conn'.copies ⊆ conn.copies := by
  rw [copies_of_none htransaction, hdatabase]
  exact List.cons_subset.mpr ⟨database_mem_copies, List.nil_subset _⟩

/-- A rollback keeps the database. -/
theorem rollback_copies (h : conn.rollback = some conn') : conn'.copies ⊆ conn.copies := by
  unfold rollback at h
  split_ifs at h
  obtain rfl := Option.some.inj h
  exact copies_of_ended rfl rfl

/-- A change of the open transaction that copies its own copies only. -/
theorem inside_copies
    (hchange : ∀ txn txn', change txn = some txn' → txn'.working :: txn'.savepoints.map Prod.snd ⊆
      txn.working :: txn.savepoints.map Prod.snd) (h : conn.inside change = some conn') :
    conn'.copies ⊆ conn.copies := by
  unfold inside at h
  split_ifs at h
  obtain ⟨txn', htxn', rfl⟩ := Option.map_eq_some_iff.mp h
  obtain ⟨txn, htxn, hmade⟩ := Option.bind_eq_some_iff.mp htxn'
  rw [copies, copies, htxn]
  exact List.cons_subset_cons _ (hchange txn txn' hmade)

/-- A savepoint copies the working copy. -/
theorem savepoint_copies (h : conn.savepoint name = some conn') : conn'.copies ⊆ conn.copies := by
  refine inside_copies (fun txn txn' hmade => ?_) h
  obtain rfl := Option.some.inj hmade
  exact List.cons_subset.mpr ⟨List.mem_cons_self, List.Subset.refl _⟩

variable [DecidableEq ν]

/-- Going back to a savepoint copies its copy. -/
theorem rollbackTo_copies (h : conn.rollbackTo name = some conn') : conn'.copies ⊆ conn.copies := by
  refine inside_copies (fun txn txn' hmade => ?_) h
  have hsuffix := (List.dropWhile_suffix (l := txn.savepoints) (·.1 ≠ name)).subset
  split at hmade
  next => cases hmade
  next mark marks hdrop =>
    obtain rfl := Option.some.inj hmade
    rw [hdrop] at hsuffix
    refine List.cons_subset.mpr ⟨?_, ?_⟩
    · exact List.mem_cons_of_mem _ (List.mem_map_of_mem (hsuffix List.mem_cons_self))
    · exact fun copy hcopy => List.mem_cons_of_mem _ (List.map_subset _ hsuffix hcopy)

/-- Releasing a savepoint copies nothing. -/
theorem release_copies (h : conn.release name = some conn') : conn'.copies ⊆ conn.copies := by
  refine inside_copies (fun txn txn' hmade => ?_) h
  have hsuffix := (List.dropWhile_suffix (l := txn.savepoints) (·.1 ≠ name)).subset
  split at hmade
  next => cases hmade
  next mark marks hdrop =>
    obtain rfl := Option.some.inj hmade
    rw [hdrop] at hsuffix
    exact List.cons_subset_cons _
      (List.map_subset _ fun copy hcopy => hsuffix (List.mem_cons_of_mem _ hcopy))

omit [DecidableEq ν]

/-- The guard is no copy. -/
theorem setQueryOnly_copies {queryOnly : Bool} (h : conn.setQueryOnly queryOnly = some conn') :
    conn'.copies = conn.copies := by
  unfold setQueryOnly at h
  split_ifs at h
  obtain rfl := Option.some.inj h
  rfl

/-- A write changes what a query sees, and keeps the other copies. -/
theorem write_copies {f : δ → δ} (h : conn.write f = some conn') :
    ∀ copy ∈ conn'.copies, copy ∈ conn.copies ∨ copy = f conn.view := by
  unfold write at h
  split_ifs at h
  intro copy hcopy
  cases htxn : conn.transaction with
  | none =>
    rw [htxn] at h
    obtain rfl := Option.some.inj h
    rw [copies_of_none rfl, List.mem_singleton] at hcopy
    rw [view_of_none htxn]
    exact Or.inr hcopy
  | some txn =>
    rw [htxn] at h
    obtain rfl := Option.some.inj h
    rw [view, copies, htxn]
    rw [copies] at hcopy
    rcases List.mem_cons.mp hcopy with rfl | hcopy
    · exact Or.inl List.mem_cons_self
    · rcases List.mem_cons.mp hcopy with rfl | hcopy
      · exact Or.inr rfl
      · exact Or.inl (List.mem_cons_of_mem _ (List.mem_cons_of_mem _ hcopy))

end Connection

end Foundations
