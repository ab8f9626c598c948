/-
  SqlKit/Build/Select.lean
  ========================
  **Building statements step by step.**

  A statement grows from the empty one, clause by clause. Columns, tables,
  conditions and groups accumulate; the sort, the limit and the offset replace
  what was set before. A step either takes effect as a whole or fails and
  changes nothing, and whether it fails does not depend on the statement.

  A condition is a node: unlike a column or a table it is not made out of
  whatever is given. Conditions have a shorthand: pairs of a column and a value
  stand for one comparison each, or for one membership test where the value is a
  list.
-/
import SqlKit.Build.Expression

namespace SqlKit

/-- A step of building a statement, over operands of type `ω` and nodes of type `ν`. -/
inductive SelectStep (ω ν : Type) where
  | distinct
  | columns (xs : List ω)
  | table (x : ω)
  | condition (node : ν)
  | matching (pairs : List (String × Value))
  | groupBy (x : ω)
  | orderBy (items : List (OrderItem ω))
  | limit (rows : Nat)
  | offset (rows : Nat)

namespace Select

/-! ## 1. The shorthand for conditions -/

/-- The condition that a column has a value, or one of the values of a list. -/
def matchColumn (name : String) (value : Value) : Except Error Node :=
  let column := Node.of (.identifier name)
  match value with
  | .list items =>
    if Value.hasNested items then .error (.invalidCondition name .list)
    else .ok (column.memberOf (.of (.list items)))
  | v =>
    match Node.literal v with
    | .ok literal => .ok (.binary .equal column literal)
    | .error _ => .error (.invalidCondition name v.kind)

/-- The conditions of all pairs in order, or the first failure. -/
def matchColumns : List (String × Value) → Except Error (List Node)
  | [] => .ok []
  | (name, value) :: rest =>
    match matchColumn name value with
    | .error e => .error e
    | .ok condition => (matchColumns rest).map (condition :: ·)

/-! ## 2. Steps -/

/-- A statement after one more step. -/
def apply (s : Select Node) : SelectStep Operand Node → Except Error (Select Node)
  | .distinct => .ok { s with distinct := true }
  | .columns xs => .ok { s with columns := s.columns ++ xs.map Operand.toColumn }
  | .table x => x.toTable.map fun table => { s with tables := s.tables ++ [table] }
  | .condition node => .ok { s with conditions := s.conditions ++ [node] }
  | .matching pairs =>
    (matchColumns pairs).map fun conditions => { s with conditions := s.conditions ++ conditions }
  | .groupBy x => .ok { s with groupBy := s.groupBy ++ [x.toColumn] }
  | .orderBy items => .ok { s with order := items.map OrderItem.build }
  | .limit rows => .ok { s with limit := rows }
  | .offset rows => .ok { s with offset := rows }

def selectsAll (s : Select Node) : Bool := s.columns.isEmpty

end Select

end SqlKit
