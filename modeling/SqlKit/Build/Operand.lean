/-
  SqlKit/Build/Operand.lean
  =========================
  **What the builders take.**

  Wherever a builder expects a node it also accepts plainer things: a string, an
  integer, a list of values, an alias that has just been made. What such a thing
  stands for depends on the place it is put in:

    * as a node (`toNode`) a string is a string literal;
    * where something is named (`toColumn`) a string is an identifier, and
      everything else is what it is as a node;
    * as a table (`toTable`) it is what it is as a column, which then has to be
      an identifier, an alias or a join;
    * to the left of an operator (`receiver`) an alias is only its name, since
      `source AS a = 4` would be no expression; everything else is a node.

  Identifiers, aliases and joins also stand for relations: they have a name,
  and a column can be picked from them (`column`).
-/
import SqlKit.Error

namespace SqlKit

/-- A thing that builders accept. -/
inductive Operand where
  | text (s : String)
  | integer (n : Int64)
  | values (items : List Value)
  | null
  | node (n : Node)
  | identifier (name : String)
  | columnOf (relation name : String)
  | aliased (named : Alias Node)
  | join (joined : Join Node)
  | joinCondition (condition : JoinCondition Node)
  | order (items : List (OrderItem Node))
  | aggregate (call : Aggregate Node)
  | select (statement : Select Node)

/-- The name a join goes by: that of its table, if the table has one. -/
def Join.name (joined : Join Node) : String :=
  match joined.table.form with
  | .identifier name => name
  | .aliased named => named.name
  | _ => ""

namespace Operand

/-! ## 1. Conversions -/

/-- The node an operand is as an operand of an expression. -/
def toNode : Operand → Node
  | .text s => .of (.string s)
  | .integer n => .of (.integer n)
  | .values items => .of (.list items)
  | .null => .of .null
  | .node n => n
  | .identifier name => .of (.identifier name)
  | .columnOf relation name => .of (.column relation name)
  | .aliased named => .of (.aliased named)
  | .join joined => .of (.join joined)
  | .joinCondition condition => .of (.joinCondition condition)
  | .order items => .of (.order items)
  | .aggregate call => .of (.aggregate call)
  | .select statement => .of (.select statement)

/-- The node an operand is where a string names something. -/
def toColumn : Operand → Node
  | .text s => .of (.identifier s)
  | x => x.toNode

/-- The node an operand is to the left of an operator. -/
def receiver : Operand → Node
  | .aliased named => .of (.identifier named.name)
  | x => x.toNode

end Operand

/-- Whether a node may stand in a `FROM` list. -/
def NodeKind.isTable : NodeKind → Bool
  | .identifier | .aliased | .join => true
  | _ => false

def Operand.toTable (x : Operand) : Except Error Node :=
  let table := x.toColumn
  if table.kind.isTable then .ok table else .error (.invalidTable table.kind)

/-! ## 2. Relations -/

/-- The name of the relation an operand stands for. -/
def Operand.relationName? : Operand → Option String
  | .identifier name => some name
  | .aliased named => some named.name
  | .join joined => some joined.name
  | _ => none

/-- A column of the relation an operand stands for. -/
def Operand.column (x : Operand) (name : String) : Node :=
  .of (.column (x.relationName?.getD "") name)

end SqlKit
