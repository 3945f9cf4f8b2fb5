import Mathlib.Tactic

/-!
# Conditions assembled from text

The condition of a `WHERE` clause, as the list of its tokens.  `parse` reads it the way SQL does:
`AND` binds tighter than `OR`, and parentheses group.  `eval` gives its value in three-valued logic,
where a comparison with a null is neither true nor false.  A row is selected when the value is true,
so for selection the two connectives are the usual ones.
-/

namespace Foundations

variable {α : Type*}

/-- A token: a comparison, a connective or a parenthesis. -/
inductive SqlToken (α : Type*) where
  | atom (a : α)
  | and
  | or
  | opening
  | closing
  deriving DecidableEq

/-- A condition over comparisons. -/
inductive SqlCondition (α : Type*) where
  | atom (a : α)
  | and (left right : SqlCondition α)
  | or (left right : SqlCondition α)
  deriving DecidableEq

/-! ## Values -/

namespace SqlCondition

variable {left right : SqlCondition α}

/-- `AND`; `none` is the unknown value. -/
def andValue : Option Bool → Option Bool → Option Bool
  | some false, _ => some false
  | _, some false => some false
  | some true, some true => some true
  | _, _ => none

/-- `OR`. -/
def orValue : Option Bool → Option Bool → Option Bool
  | some true, _ => some true
  | _, some true => some true
  | some false, some false => some false
  | _, _ => none

/-- The value of a condition, from the values of its comparisons. -/
def eval (value : α → Option Bool) : SqlCondition α → Option Bool
  | atom a => value a
  | and left right => andValue (left.eval value) (right.eval value)
  | or left right => orValue (left.eval value) (right.eval value)

/-- The condition selects the row. -/
def Holds (value : α → Option Bool) (condition : SqlCondition α) : Prop :=
  condition.eval value = some true

instance (value : α → Option Bool) (condition : SqlCondition α) :
    Decidable (condition.Holds value) :=
  inferInstanceAs (Decidable (_ = _))

variable {value : α → Option Bool}

@[simp] theorem holds_atom {a : α} : (atom a).Holds value ↔ value a = some true := Iff.rfl

/-- Both sides must be true; an unknown side selects nothing. -/
@[simp] theorem holds_and :
    (and left right).Holds value ↔ left.Holds value ∧ right.Holds value := by
  simp only [Holds, eval]
  rcases left.eval value with _ | _ | _ <;> rcases right.eval value with _ | _ | _ <;>
    simp [andValue]

/-- One side must be true; an unknown side is no obstacle. -/
@[simp] theorem holds_or : (or left right).Holds value ↔ left.Holds value ∨ right.Holds value := by
  simp only [Holds, eval]
  rcases left.eval value with _ | _ | _ <;> rcases right.eval value with _ | _ | _ <;>
    simp [orValue]

/-- A chain of `AND`s selects what all of its members select. -/
theorem holds_foldl_and (first : SqlCondition α) (rest : List (SqlCondition α)) :
    (rest.foldl and first).Holds value ↔
      first.Holds value ∧ ∀ condition ∈ rest, condition.Holds value := by
  induction rest generalizing first with
  | nil => simp
  | cons condition rest ih =>
    rw [List.foldl_cons, ih, holds_and, List.forall_mem_cons, and_assoc]

end SqlCondition

/-! ## Parsing -/

/-- What has been read of one level of parentheses: the alternatives before the last `OR`, the
members after it, and whether an `AND` waits for its right side. -/
structure SqlFrame (α : Type*) where
  alternatives : Option (SqlCondition α) := none
  conjuncts : Option (SqlCondition α) := none
  joined : Bool := false

namespace SqlFrame

/-- An operand is read. -/
def operand (frame : SqlFrame α) (condition : SqlCondition α) : Option (SqlFrame α) :=
  match frame.conjuncts, frame.joined with
  | none, _ => some { frame with conjuncts := some condition, joined := false }
  | some before, true => some { frame with conjuncts := some (before.and condition), joined := false }
  | some _, false => none

/-- The condition that has been read, unless an operand is missing. -/
def value (frame : SqlFrame α) : Option (SqlCondition α) :=
  match frame.conjuncts, frame.joined with
  | some last, false =>
    some (match frame.alternatives with
      | none => last
      | some before => before.or last)
  | _, _ => none

/-- The frame waits for an operand. -/
def expects (frame : SqlFrame α) : Bool := frame.conjuncts.isNone || frame.joined

end SqlFrame

/-- One token, with the enclosing levels behind the first one. -/
def parseStep : List (SqlFrame α) → SqlToken α → Option (List (SqlFrame α))
  | frame :: frames, .atom a => (frame.operand (.atom a)).map (· :: frames)
  | frame :: frames, .and =>
    if frame.expects then none else some ({ frame with joined := true } :: frames)
  | frame :: frames, .or =>
    frame.value.map fun condition => { alternatives := some condition } :: frames
  | frame :: frames, .opening => if frame.expects then some ({} :: frame :: frames) else none
  | frame :: outer :: frames, .closing =>
    frame.value.bind fun condition => (outer.operand condition).map (· :: frames)
  | _, _ => none

/-- The condition that a list of tokens writes. -/
def parse (tokens : List (SqlToken α)) : Option (SqlCondition α) :=
  match tokens.foldlM parseStep [{}] with
  | some [frame] => frame.value
  | _ => none

/-- The tokens are an operand that reads as the condition, wherever an operand is expected. -/
def Reads (tokens : List (SqlToken α)) (condition : SqlCondition α) : Prop :=
  ∀ (frame frame' : SqlFrame α) (frames : List (SqlFrame α)),
    frame.operand condition = some frame' →
      tokens.foldlM parseStep (frame :: frames) = some (frame' :: frames)

/-- A comparison is an operand. -/
theorem Reads.atom (a : α) : Reads [.atom a] (.atom a) := by
  intro frame frame' frames h
  simp [parseStep, h]

variable {condition : SqlCondition α}

/-- Only a frame that waits for an operand takes one. -/
theorem SqlFrame.expects_of_operand {frame frame' : SqlFrame α}
    (h : frame.operand condition = some frame') : frame.expects = true := by
  rw [SqlFrame.operand] at h
  split at h
  next hnone => simp [SqlFrame.expects, hnone]
  next hjoined => simp [SqlFrame.expects, hjoined]
  next => exact absurd h (by simp)

/-- What stands between the outer parentheses of a clause. -/
def inside (clause : List (SqlToken α)) : List (SqlToken α) := (clause.drop 1).dropLast

variable {clause : List (SqlToken α)}

/-- A clause in parentheses is an operand, with what its inside leaves to an empty frame. -/
theorem Reads.parenthesized (inner : SqlFrame α)
    (hclause : clause = .opening :: inside clause ++ [.closing])
    (h : ∀ frames, (inside clause).foldlM parseStep ({} :: frames) = some (inner :: frames))
    (hvalue : inner.value = some condition) : Reads clause condition := by
  intro frame frame' frames hoperand
  have hexpects := SqlFrame.expects_of_operand hoperand
  rw [hclause, List.cons_append, List.foldlM_cons]
  simp [parseStep, hexpects, List.foldlM_append, h, hvalue, hoperand]

/-- An operand on its own. -/
theorem Reads.parse_eq (h : Reads clause condition) : parse clause = some condition := by
  rw [parse, h {} { conjuncts := some condition } [] rfl]
  rfl

/-- `" AND ".join(clauses)`. -/
def joinAnd : List (List (SqlToken α)) → List (SqlToken α)
  | [] => []
  | first :: rest => first ++ rest.flatMap fun clause => .and :: clause

/-- Operands joined by `AND` read as a chain of `AND`s. -/
theorem parse_joinAnd {first : List (SqlToken α)} (hfirst : Reads first condition)
    {rest : List (List (SqlToken α))} {conditions : List (SqlCondition α)}
    (hrest : List.Forall₂ Reads rest conditions) :
    parse (joinAnd (first :: rest)) = some (conditions.foldl .and condition) := by
  have hchain : ∀ (before : List (SqlToken α)) (start : SqlCondition α),
      before.foldlM parseStep [{}] = some [{ conjuncts := some start }] →
      (before ++ (rest.flatMap fun clause => .and :: clause)).foldlM parseStep [{}] =
        some [{ conjuncts := some (conditions.foldl .and start) }] := by
    induction hrest with
    | nil =>
      intro before start hbefore
      rw [List.flatMap_nil, List.append_nil, hbefore]
      rfl
    | @cons clause condition' rest conditions hclause hrest ih =>
      intro before start hbefore
      rw [List.flatMap_cons, ← List.append_assoc]
      refine ih _ (start.and condition') ?_
      rw [List.foldlM_append, hbefore]
      exact hclause { conjuncts := some start, joined := true } _ [] rfl
  rw [joinAnd, parse, hchain first condition (hfirst {} _ [] rfl)]
  rfl

end Foundations
