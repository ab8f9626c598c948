/-
  SqlKit/Postgres.lean
  ====================
  **The Postgres dialect.**

  One rule for each form of node; none is missing. Three of them say more than
  how words follow each other:

    * a comparison `x = y` or `x != y` whose right side is null would never
      hold, so it becomes `x IS NULL` or `x IS NOT NULL` (`binary`);
    * the conditions of a statement are chained with `AND` from the left, each
      as an operand (`conjunction`);
    * what a statement contains is laid out on one line (`select`).
-/
import SqlKit.Text.Quoted
import SqlKit.Render.Dialect

namespace SqlKit.Postgres

open Template (text separated)
open Text (quoteIdent)

/-! ## 1. Names and lists -/

/-- A bare name, which options may quote. The star is not a name. -/
def identText (options : Options) (name : String) : String :=
  if options.quote && name != "*" then quoteIdent name else name

def commaSeparated (ts : List Template) : Template :=
  separated ", " ts

/-! ## 2. Operators -/

/-- What a comparison with null is turned into. -/
def nullTest? : Operator → Option String
  | .equal => some "IS NULL"
  | .notEqual => some "IS NOT NULL"
  | _ => none

/-- A binary operation. Whether a binding on the right is null is known only
    when the arguments are, so that choice is left to the template. -/
def binary (op : Operator) (left right : Part Template) : Template :=
  let plain := left.operand ++ text (" " ++ op.symbol ++ " ") ++ right.operand
  match nullTest? op, right.node.form with
  | some test, .null => left.operand ++ text (" " ++ test)
  | some test, .binding name =>
    left.operand ++ [.comparand name (" " ++ test) (" " ++ op.symbol ++ " (") ")"]
  | _, _ => plain

/-! ## 3. Sorting -/

def directionText : Direction → String
  | .ascending => " ASC"
  | .descending => " DESC"
  | .unspecified => ""

/-- Sort keys with their directions. -/
def orderItems (items : List (OrderItem (Part Template))) : Template :=
  commaSeparated (items.map fun item => item.key.result ++ text (directionText item.direction))

/-- An `ORDER BY` with its leading blank, or nothing if there are no keys. -/
def orderClause (items : List (OrderItem (Part Template))) : Template :=
  if items.isEmpty then [] else text " ORDER BY " ++ orderItems items

/-! ## 4. Calls -/

/-- An aggregate call. Contradicting modifiers are reported before anything
    inside the call is looked at. -/
def aggregate (call : Aggregate (Part Template)) : Template :=
  if call.distinct && call.all then [.fail (.conflictingModifiers call.name)]
  else
    let modifier := if call.distinct then "DISTINCT " else if call.all then "ALL " else ""
    text (call.name ++ "(" ++ modifier) ++ commaSeparated (call.args.map Part.operand) ++
      orderClause call.order ++ text ")"

/-! ## 5. Joins -/

def joinWords : JoinKind → String
  | .sided .inner => "INNER JOIN"
  | .sided .left => "LEFT JOIN"
  | .sided .right => "RIGHT JOIN"
  | .sided .outer => "OUTER JOIN"
  | .cross => "CROSS JOIN"

def joinTestWord : JoinTest → String
  | .predicate => "ON"
  | .columns => "USING"

/-- A join condition, always in parentheses. -/
def joinCondition (condition : JoinCondition (Part Template)) : Template :=
  text (joinTestWord condition.test ++ " (") ++ condition.condition.result ++ text ")"

/-- A joined table, with its condition if it has one. -/
def join (joined : Join (Part Template)) : Template :=
  let table := text (joinWords joined.kind ++ " ") ++ joined.table.result
  match joined.condition with
  | none => table
  | some condition => table ++ text " " ++ joinCondition condition

/-! ## 6. Statements -/

/-- A selected column. A statement is the one form that needs parentheses here. -/
def column (part : Part Template) : Template :=
  if part.node.kind = .select then part.operand else part.result

def columns (parts : List (Part Template)) : Template :=
  if parts.isEmpty then text "*" else commaSeparated (parts.map column)

/-- An entry of a `FROM` list after the first. A join follows what it joins;
    any other entry is set off with a comma. -/
def furtherTable (part : Part Template) : Template :=
  if part.node.kind = .join then text " " ++ part.result else text " , " ++ part.result

def tables : List (Part Template) → Template
  | [] => []
  | first :: rest => first.result ++ rest.flatMap furtherTable

/-- A condition so far, and whether it needs parentheses as an operand. -/
structure Condition where
  template : Template
  compound : Bool

def Condition.and (condition : Condition) (next : Part Template) : Condition :=
  ⟨condition.template.operand condition.compound ++ text " AND " ++ next.operand, true⟩

/-- All of the conditions, chained from the left. A single one stands as it is. -/
def conjunction : List (Part Template) → Template
  | [] => []
  | first :: rest => (rest.foldl Condition.and ⟨first.result, first.node.isCompound⟩).template

/-- A clause on its own line, left out where there is nothing to say. -/
def clause (present : Bool) (keyword : String) (body : Template) : Template :=
  if present then .clauseBreak :: text keyword ++ body else []

/-- The clauses of a statement whose children are already on one line. -/
def clauses (s : Select (Part Template)) : Template :=
  text (if s.distinct then "SELECT DISTINCT " else "SELECT ") ++ columns s.columns ++
    clause (!s.tables.isEmpty) "FROM " (tables s.tables) ++
    clause (!s.conditions.isEmpty) "WHERE " (conjunction s.conditions) ++
    clause (!s.groupBy.isEmpty) "GROUP BY " (commaSeparated (s.groupBy.map Part.result)) ++
    clause (!s.order.isEmpty) "ORDER BY " (orderItems s.order) ++
    clause (s.limit != 0) "LIMIT " (text (toString s.limit)) ++
    clause (s.offset != 0) "OFFSET " (text (toString s.offset))

/-- A statement. Its own clauses may break lines, those within it do not. -/
def select (s : Select (Part Template)) : Template :=
  clauses (s.map Part.inline)

/-! ## 7. The dialect -/

def rule (options : Options) : Form (Part Template) → Template
  | .identifier name => text (identText options name)
  | .integer value => text (toString value.toInt)
  | .string s => [.value (.text s)]
  | .list items => [.values items]
  | .null => text "NULL"
  | .binding name => [.binding name]
  | .column table name => text (quoteIdent table ++ "." ++ quoteIdent name)
  | .binary op left right => binary op left right
  | .membership element set => element.operand ++ text " IN " ++ set.operand
  | .cast inner type => text "(" ++ inner.result ++ text (")::" ++ type)
  | .call name args => text (name ++ "(") ++ commaSeparated (args.map Part.operand) ++ text ")"
  | .aggregate call => aggregate call
  | .aliased named => named.source.operand ++ text (" AS " ++ identText options named.name)
  | .join joined => join joined
  | .joinCondition condition => joinCondition condition
  | .order items => orderClause items
  | .select statement => select statement

/-- The Postgres dialect has a rule for every form. -/
def dialect : Dialect where
  name := "postgres"
  rule? options form := some (rule options form)

/-- The layout of a tree is the layout of its root over its laid out children. -/
theorem template_of (options : Options) (form : Form Node) :
    dialect.template options (.of form) =
      rule options (form.map (Node.part (dialect.layout options))) :=
  dialect.template_of options form

/-- The Postgres text of a tree, with the arguments for its bindings. -/
def render (options : Options) (node : Node) (args : Args) : Except Error Rendered :=
  dialect.render options node args

def renderText (options : Options) (node : Node) : Except Error String :=
  dialect.renderText options node

end SqlKit.Postgres
