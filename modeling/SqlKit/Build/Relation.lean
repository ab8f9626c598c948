/-
  SqlKit/Build/Relation.lean
  ==========================
  **Building aliases and joins.**

  Both check what they are given. A join, a join condition or a sort has no
  alias. Only an identifier or an alias can be joined; a condition comes with
  every join but the cross join, which has none.
-/
import SqlKit.Build.Operand

namespace SqlKit

def NodeKind.isAliasSource : NodeKind → Bool
  | .join | .joinCondition | .order => false
  | _ => true

/-- `source AS name`. A string is the name of the source. -/
def Alias.build (source : Operand) (name : String) : Except Error (Alias Node) :=
  let node := source.toColumn
  if node.kind.isAliasSource then .ok ⟨node, name⟩ else .error (.invalidAliasSource node.kind)

/-- The condition of a join: `ON` takes an expression, and in `USING` a string
    names a column. -/
def JoinCondition.build (test : JoinTest) (x : Operand) : JoinCondition Node :=
  match test with
  | .predicate => ⟨test, x.toNode⟩
  | .columns => ⟨test, x.toColumn⟩

def NodeKind.isJoinTable : NodeKind → Bool
  | .identifier | .aliased => true
  | _ => false

def Join.tableOf (x : Operand) : Except Error Node :=
  let table := x.toColumn
  if table.kind.isJoinTable then .ok table else .error (.invalidJoinTable table.kind)

def Join.build (side : JoinSide) (table : Operand) (condition : JoinCondition Node) :
    Except Error (Join Node) :=
  (tableOf table).map (⟨.sided side, ·, some condition⟩)

def Join.buildCross (table : Operand) : Except Error (Join Node) :=
  (tableOf table).map (⟨.cross, ·, none⟩)

end SqlKit
