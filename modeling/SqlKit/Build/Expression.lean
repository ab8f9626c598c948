/-
  SqlKit/Build/Expression.lean
  ============================
  **Building expressions.**

  Literals from values, membership tests, sort keys and aggregate calls; the
  other expressions are their forms. Only `literal` can fail: booleans, floats, bytes
  and nested lists have no literal.
-/
import SqlKit.Text.AsciiCase
import SqlKit.Build.Operand

namespace SqlKit

namespace Node

/-! ## 1. Literals -/

/-- The literal of a value. Integers of every width are one kind of literal. -/
def literal : Value → Except Error Node
  | .null => .ok (.of .null)
  | .int16 n => .ok (.of (.integer n.toInt64))
  | .int32 n => .ok (.of (.integer n.toInt64))
  | .int64 n => .ok (.of (.integer n))
  | .text s => .ok (.of (.string s))
  | .list items =>
    if Value.hasNested items then .error (.unsupportedLiteral .nestedList)
    else .ok (.of (.list items))
  | v => .error (.unsupportedLiteral (.kind v.kind))

/-! ## 2. Operators -/

def binary (op : Operator) (left right : Node) : Node :=
  .of (.binary op left right)

/-- The right side of a membership test: a lone scalar literal is a list of one,
    and the null literal is the empty list. -/
def asList (node : Node) : Node :=
  match node.form with
  | .integer n => .of (.list [.int64 n])
  | .string s => .of (.list [.text s])
  | .null => .of (.list [])
  | _ => node

/-- A membership test in anything that stands for a list. -/
def memberOf (element set : Node) : Node :=
  .of (.membership element set.asList)

end Node

/-! ## 3. Sorting -/

/-- The direction a text names, without regard to ASCII case; any other text
    leaves it unspecified. -/
def Direction.ofText (s : String) : Direction :=
  if Text.sameName s "asc" then .ascending
  else if Text.sameName s "desc" then .descending
  else .unspecified

/-- The key of a sort: a string names a column. -/
def OrderItem.build (item : OrderItem Operand) : OrderItem Node :=
  item.map Operand.toColumn

/-! ## 4. Aggregate calls -/

/-- A modifier of an aggregate call over operands of type `ω`. -/
inductive Modifier (ω : Type) where
  | distinct
  | all
  | arg (x : ω)
  | order (items : List (OrderItem ω))
  /-- Told apart by what it is: an `ORDER BY` clause sorts, anything else is an
      argument. -/
  | of (x : ω)

/-- A call with one more modifier. A second `ORDER BY` replaces the first. -/
def Aggregate.modify (call : Aggregate Node) : Modifier Operand → Aggregate Node
  | .distinct => { call with distinct := true }
  | .all => { call with all := true }
  | .arg x => { call with args := call.args ++ [x.toNode] }
  | .order items => { call with order := items.map OrderItem.build }
  | .of x =>
    match x.toNode.form with
    | .order items => { call with order := items }
    | _ => { call with args := call.args ++ [x.toNode] }

/-- An aggregate call with its modifiers in order. -/
def Aggregate.build (name : String) (modifiers : List (Modifier Operand)) : Aggregate Node :=
  modifiers.foldl modify { name := name }

end SqlKit
