/-
  SqlKit/Node/Basic.lean
  ======================
  **Trees of SQL expressions and statements.**

  A tree is built from seventeen *forms*: literals, names, operators, calls,
  relations, joins and whole statements. `Form ν` is one layer of a tree whose
  children are of type `ν`; `Node` ties the knot. Keeping the layer apart from
  the tree pays twice:

    * a rendering rule is a function on one layer whose children are already
      rendered (`SqlKit/Node/Recursion.lean`), so a dialect never recurses by
      itself;
    * what depends on the outermost form only, such as its `kind` and whether
      it needs parentheses as an operand, is visibly independent of the
      children.

  `Form.parts` lists the children from left to right as they are written; it is
  the order in which everything that walks a tree meets them.
-/
import SqlKit.Value

namespace SqlKit

/-! ## 1. Words of the language -/

inductive Operator where
  | plus | minus | times | divide
  | equal | notEqual | less | lessEqual | greater | greaterEqual
  | and | or
deriving DecidableEq, Repr

def Operator.symbol : Operator → String
  | .plus => "+"
  | .minus => "-"
  | .times => "*"
  | .divide => "/"
  | .equal => "="
  | .notEqual => "!="
  | .less => "<"
  | .lessEqual => "<="
  | .greater => ">"
  | .greaterEqual => ">="
  | .and => "AND"
  | .or => "OR"

/-- The direction of a sort; `unspecified` leaves it to the database. -/
inductive Direction where
  | ascending | descending | unspecified
deriving DecidableEq, Repr

/-- The joins that carry a condition. -/
inductive JoinSide where
  | inner | left | right | outer
deriving DecidableEq, Repr

/-- How a table is joined: with a condition, or every row with every row. -/
inductive JoinKind where
  | sided (side : JoinSide)
  | cross
deriving DecidableEq, Repr

/-- What a join condition tests: a predicate (`ON`), or that the named columns
    agree (`USING`). -/
inductive JoinTest where
  | predicate | columns
deriving DecidableEq, Repr

/-! ## 2. One layer of a tree -/

/-- An entry of an `ORDER BY` list. -/
structure OrderItem (ν : Type) where
  key : ν
  direction : Direction

/-- `source AS name`: a relation or column under a name of its own. -/
structure Alias (ν : Type) where
  source : ν
  name : String

/-- `ON (…)` or `USING (…)`. -/
structure JoinCondition (ν : Type) where
  test : JoinTest
  condition : ν

/-- A joined table in a `FROM` list. The builders give a condition to every
    join but the cross join. -/
structure Join (ν : Type) where
  kind : JoinKind
  table : ν
  condition : Option (JoinCondition ν)

/-- An aggregate call such as `count(DISTINCT x)`. That `distinct` and `all`
    exclude each other is checked when it is rendered. -/
structure Aggregate (ν : Type) where
  name : String
  distinct : Bool := false
  all : Bool := false
  args : List ν := []
  /-- The sort keys inside the call; none means no `ORDER BY`. -/
  order : List (OrderItem ν) := []

structure Select (ν : Type) where
  distinct : Bool := false
  /-- The columns to select; none means `*`. -/
  columns : List ν := []
  /-- The `FROM` list, joins included. -/
  tables : List ν := []
  /-- The conditions of `WHERE`, all of which must hold. -/
  conditions : List ν := []
  groupBy : List ν := []
  /-- The sort keys; none means no `ORDER BY`. -/
  order : List (OrderItem ν) := []
  /-- The greatest number of rows; zero means no limit. -/
  limit : Nat := 0
  offset : Nat := 0

/-- One layer of a tree with children of type `ν`. -/
inductive Form (ν : Type) where
  | identifier (name : String)
  /-- An integer written into the text. -/
  | integer (value : Int64)
  /-- A string handed over in a placeholder. -/
  | string (text : String)
  /-- A list of values, one placeholder for each. -/
  | list (items : List Value)
  | null
  /-- A value to be given by name when the tree is rendered. -/
  | binding (name : String)
  /-- A column qualified by the name of its relation. -/
  | column (table name : String)
  | binary (op : Operator) (left right : ν)
  /-- Membership: `element IN list`. -/
  | membership (element set : ν)
  | cast (inner : ν) (type : String)
  | call (name : String) (args : List ν)
  | aggregate (applied : Aggregate ν)
  | aliased (named : Alias ν)
  | join (joined : Join ν)
  | joinCondition (condition : JoinCondition ν)
  | order (items : List (OrderItem ν))
  | select (statement : Select ν)

inductive Node where
  | of (form : Form Node)

/-- The layer at the root of a tree. -/
def Node.form : Node → Form Node
  | .of form => form

/-! ## 3. Kinds -/

/-- What a node is, apart from its contents. -/
inductive NodeKind where
  | identifier | integer | string | list | null | binding | column | binary
  | membership | cast | call | aggregate | aliased | join | joinCondition
  | order | select
deriving DecidableEq, Repr

def NodeKind.label : NodeKind → String
  | .identifier => "identifier"
  | .integer => "integer literal"
  | .string => "string literal"
  | .list => "list literal"
  | .null => "null literal"
  | .binding => "binding"
  | .column => "column"
  | .binary => "binary operation"
  | .membership => "IN expression"
  | .cast => "cast"
  | .call => "function call"
  | .aggregate => "aggregate call"
  | .aliased => "alias"
  | .join => "join"
  | .joinCondition => "join condition"
  | .order => "order clause"
  | .select => "select statement"

/-- Whether a node of this kind stands in parentheses where it is an operand. -/
def NodeKind.isCompound : NodeKind → Bool
  | .binary | .aliased | .select | .list | .binding | .joinCondition => true
  | _ => false

variable {ν μ : Type}

def Form.kind : Form ν → NodeKind
  | .identifier _ => .identifier
  | .integer _ => .integer
  | .string _ => .string
  | .list _ => .list
  | .null => .null
  | .binding _ => .binding
  | .column _ _ => .column
  | .binary _ _ _ => .binary
  | .membership _ _ => .membership
  | .cast _ _ => .cast
  | .call _ _ => .call
  | .aggregate _ => .aggregate
  | .aliased _ => .aliased
  | .join _ => .join
  | .joinCondition _ => .joinCondition
  | .order _ => .order
  | .select _ => .select

def Node.kind (n : Node) : NodeKind := n.form.kind

/-- Whether a tree stands in parentheses where it is an operand. -/
def Node.isCompound (n : Node) : Bool := n.kind.isCompound

/-! ## 4. Changing the children

`map f` replaces every child `x` by `f x` and keeps everything else. -/

def OrderItem.map (f : ν → μ) (item : OrderItem ν) : OrderItem μ :=
  ⟨f item.key, item.direction⟩

def Alias.map (f : ν → μ) (named : Alias ν) : Alias μ :=
  ⟨f named.source, named.name⟩

def JoinCondition.map (f : ν → μ) (condition : JoinCondition ν) : JoinCondition μ :=
  ⟨condition.test, f condition.condition⟩

def Join.map (f : ν → μ) (joined : Join ν) : Join μ :=
  ⟨joined.kind, f joined.table, joined.condition.map (·.map f)⟩

def Aggregate.map (f : ν → μ) (call : Aggregate ν) : Aggregate μ :=
  ⟨call.name, call.distinct, call.all, call.args.map f, call.order.map (·.map f)⟩

def Select.map (f : ν → μ) (s : Select ν) : Select μ :=
  ⟨s.distinct, s.columns.map f, s.tables.map f, s.conditions.map f, s.groupBy.map f,
    s.order.map (·.map f), s.limit, s.offset⟩

/-- The same layer with every child replaced. -/
def Form.map (f : ν → μ) : Form ν → Form μ
  | .identifier name => .identifier name
  | .integer value => .integer value
  | .string text => .string text
  | .list items => .list items
  | .null => .null
  | .binding name => .binding name
  | .column table name => .column table name
  | .binary op left right => .binary op (f left) (f right)
  | .membership element set => .membership (f element) (f set)
  | .cast inner type => .cast (f inner) type
  | .call name args => .call name (args.map f)
  | .aggregate applied => .aggregate (applied.map f)
  | .aliased named => .aliased (named.map f)
  | .join joined => .join (joined.map f)
  | .joinCondition condition => .joinCondition (condition.map f)
  | .order items => .order (items.map (·.map f))
  | .select statement => .select (statement.map f)

@[simp]
theorem Form.kind_map (f : ν → μ) (form : Form ν) : (form.map f).kind = form.kind := by
  cases form <;> rfl

/-! ## 5. Listing the children -/

def Join.parts (joined : Join ν) : List ν :=
  joined.table :: joined.condition.toList.map (·.condition)

def Aggregate.parts (call : Aggregate ν) : List ν :=
  call.args ++ call.order.map (·.key)

def Select.parts (s : Select ν) : List ν :=
  s.columns ++ s.tables ++ s.conditions ++ s.groupBy ++ s.order.map (·.key)

/-- The children of a layer, in the order in which they are written. -/
def Form.parts : Form ν → List ν
  | .identifier _ | .integer _ | .string _ | .list _ | .null | .binding _ | .column _ _ => []
  | .binary _ left right => [left, right]
  | .membership element set => [element, set]
  | .cast inner _ => [inner]
  | .call _ args => args
  | .aggregate applied => applied.parts
  | .aliased named => [named.source]
  | .join joined => joined.parts
  | .joinCondition condition => [condition.condition]
  | .order items => items.map (·.key)
  | .select statement => statement.parts

end SqlKit
