/-
  SqlKit/Build/Script.lean
  ========================
  **Builder calls written down.**

  A `Script` is a composition of builder calls as data: which builder is called,
  with what, and what the arguments were built from in turn. `Script.build`
  carries it out and yields the operand the outermost call returns, or the first
  error. Where a builder takes nothing but a node, only a composition that returns
  one can stand (`NodeScript`).

  Calls are carried out from the inside out and from left to right: a builder's
  arguments are complete, in their order, before the builder looks at them. So
  of two faults the one that is written further left, or further in, is reported.

  Two constructors go past the builders and put a layer together directly
  (`rawMembership`, `rawJoin`); what they make need not be what a builder would
  accept.
-/
import SqlKit.Build.Relation
import SqlKit.Build.Select

namespace SqlKit

mutual

/-- A composition of builder calls. -/
inductive Script where
  /-- A plain string; it names something where names are expected. -/
  | text (s : String)
  | integer (n : Int64)
  | values (items : List Value)
  | null
  | identifier (name : String)
  | columnOf (relation name : String)
  | node (x : NodeScript)
  | aggregate (name : String) (modifiers : List (Modifier Script))
  | aliased (source : Script) (name : String)
  | order (items : List (OrderItem Script))
  | joinCondition (test : JoinTest) (condition : Script)
  | join (side : JoinSide) (table : Script) (test : JoinTest) (condition : Script)
  | crossJoin (table : Script)
  | rawJoin (kind : JoinKind) (table : Script) (condition : Option (JoinTest × Script))
  | select (steps : List (SelectStep Script NodeScript))

/-- A composition of builder calls that returns a node. -/
inductive NodeScript where
  /-- The operand as a node, from here on. -/
  | operand (x : Script)
  /-- The operand as what stands to the left of an operator. -/
  | receiver (x : Script)
  | literal (value : Value)
  | binding (name : String)
  | column (relation : Script) (name : String)
  | binary (op : Operator) (left right : Script)
  | memberOf (element set : Script)
  | rawMembership (element set : Script)
  | cast (inner : Script) (type : String)
  | call (name : String) (args : List Script)

end

/-- A chain of binary operations, grouped from the left. -/
def NodeScript.chain (op : Operator) (first : Script) (rest : List Script) : NodeScript :=
  rest.foldl (fun left right => binary op (.node left) right) (receiver first)

/-- A chain of membership tests, grouped from the left. -/
def NodeScript.memberChain (first : Script) (rest : List Script) : NodeScript :=
  rest.foldl (fun element set => memberOf (.node element) set) (receiver first)

namespace Script

mutual

/-- The operand that the outermost call returns, or the first error. -/
def build : Script → Except Error Operand
  | .text s => .ok (.text s)
  | .integer n => .ok (.integer n)
  | .values items => .ok (.values items)
  | .null => .ok .null
  | .identifier name => .ok (.identifier name)
  | .columnOf relation name => .ok (.columnOf relation name)
  | .node x => do return .node (← buildNode x)
  | .aggregate name modifiers => do
    return .aggregate (Aggregate.build name (← buildModifiers modifiers))
  | .aliased source name => do return .aliased (← Alias.build (← build source) name)
  | .order items => do return .order ((← buildItems items).map OrderItem.build)
  | .joinCondition test condition => do
    return .joinCondition (JoinCondition.build test (← build condition))
  | .join side table test condition => do
    let table ← build table
    let condition ← build condition
    return .join (← Join.build side table (JoinCondition.build test condition))
  | .crossJoin table => do return .join (← Join.buildCross (← build table))
  | .rawJoin kind table none => do return .join ⟨kind, (← build table).toNode, none⟩
  | .rawJoin kind table (some (test, condition)) => do
    let table ← build table
    let condition ← build condition
    return .join ⟨kind, table.toNode, some (JoinCondition.build test condition)⟩
  | .select steps => do return .select (← buildSteps {} steps)

/-- The node that the outermost call returns, or the first error. -/
def buildNode : NodeScript → Except Error Node
  | .operand x => do return (← build x).toNode
  | .receiver x => do return (← build x).receiver
  | .literal value => Node.literal value
  | .binding name => .ok (.of (.binding name))
  | .column relation name => do return (← build relation).column name
  | .binary op left right => do
    let left ← build left
    let right ← build right
    return .binary op left.toNode right.toNode
  | .memberOf element set => do
    let element ← build element
    let set ← build set
    return element.toNode.memberOf set.toNode
  | .rawMembership element set => do
    let element ← build element
    let set ← build set
    return .of (.membership element.toNode set.toNode)
  | .cast inner type => do return .of (.cast (← build inner).toNode type)
  | .call name args => do
    let args ← buildList args
    return .of (.call name (args.map Operand.toNode))

def buildList : List Script → Except Error (List Operand)
  | [] => .ok []
  | x :: rest => do
    let x ← build x
    let rest ← buildList rest
    return x :: rest

def buildItems : List (OrderItem Script) → Except Error (List (OrderItem Operand))
  | [] => .ok []
  | ⟨key, direction⟩ :: rest => do
    let key ← build key
    let rest ← buildItems rest
    return ⟨key, direction⟩ :: rest

def buildModifier : Modifier Script → Except Error (Modifier Operand)
  | .distinct => .ok .distinct
  | .all => .ok .all
  | .arg x => do return .arg (← build x)
  | .order items => do return .order (← buildItems items)
  | .of x => do return .of (← build x)

def buildModifiers : List (Modifier Script) → Except Error (List (Modifier Operand))
  | [] => .ok []
  | m :: rest => do
    let m ← buildModifier m
    let rest ← buildModifiers rest
    return m :: rest

def buildStep : SelectStep Script NodeScript → Except Error (SelectStep Operand Node)
  | .distinct => .ok .distinct
  | .columns xs => do return .columns (← buildList xs)
  | .table x => do return .table (← build x)
  | .condition x => do return .condition (← buildNode x)
  | .matching pairs => .ok (.matching pairs)
  | .groupBy x => do return .groupBy (← build x)
  | .orderBy items => do return .orderBy (← buildItems items)
  | .limit rows => .ok (.limit rows)
  | .offset rows => .ok (.offset rows)

/-- A statement after the steps, each of which is built and taken before the
    next one is looked at. -/
def buildSteps (s : Select Node) :
    List (SelectStep Script NodeScript) → Except Error (Select Node)
  | [] => .ok s
  | step :: rest => do
    let step ← buildStep step
    let s ← s.apply step
    buildSteps s rest

end

def toNode (x : Script) : Except Error Node :=
  x.build.map Operand.toNode

/-- A statement after one more written step, or the error of the step. -/
def step (s : Select Node) (next : SelectStep Script NodeScript) :
    Except Error (Select Node) := do
  s.apply (← buildStep next)

/-- A statement after one more written step, which changes nothing if it fails. -/
def attempt (s : Select Node) (next : SelectStep Script NodeScript) : Select Node :=
  match step s next with
  | .ok after => after
  | .error _ => s

/-- What becomes of each written step in turn, beginning with a statement. -/
def outcomes (s : Select Node) :
    List (SelectStep Script NodeScript) → List (Except Error (Select Node))
  | [] => []
  | next :: rest => step s next :: outcomes (attempt s next) rest

end Script

end SqlKit
