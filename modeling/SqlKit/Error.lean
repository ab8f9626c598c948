/-
  SqlKit/Error.lean
  =================
  **What can go wrong while a tree is built or rendered.**

  An error is a cause together with what it is about. Its wording is in
  `Error.message`; `Error.category` says who can do something about it. Only a
  node a dialect has no rule for (`unsupportedNode`) is beyond the caller: it is
  a gap in the dialect, and no other arguments or tree of the same form help.
-/
import SqlKit.Node.Basic

namespace SqlKit

/-- Why a value has no literal. -/
inductive LiteralFault where
  /-- A list with a list among its elements. -/
  | nestedList
  /-- A value of a kind that has no literal at all. -/
  | kind (found : ValueKind)
deriving DecidableEq, Repr

/-- What cannot be a literal, in messages. -/
def LiteralFault.label : LiteralFault → String
  | .nestedList => "nested list"
  | .kind found => found.label

/-- A cause of failure. -/
inductive Error where
  | unsupportedLiteral (fault : LiteralFault)
  | invalidAliasSource (found : NodeKind)
  | invalidTable (found : NodeKind)
  | invalidJoinTable (found : NodeKind)
  | invalidCondition (column : String) (found : ValueKind)
  | unboundBinding (name : String)
  | conflictingModifiers (aggregate : String)
  | unsupportedNode (dialect : String) (found : NodeKind)
deriving DecidableEq, Repr

/-- The stage an error belongs to. -/
inductive ErrorCategory where
  /-- A builder was given something it cannot represent. -/
  | construction
  /-- A tree does not render with the given arguments. -/
  | rendering
  /-- A dialect lacks a rule. -/
  | completeness
  /-- Options of one node contradict each other. -/
  | configuration
deriving DecidableEq, Repr

namespace Error

def message : Error → String
  | .unsupportedLiteral fault => "cannot create a literal from " ++ fault.label
  | .invalidAliasSource found => "cannot use " ++ found.label ++ " as an alias source"
  | .invalidTable found => "cannot use " ++ found.label ++ " as a table spec"
  | .invalidJoinTable found => "cannot use " ++ found.label ++ " as a join table"
  | .invalidCondition column found =>
    "cannot use " ++ found.label ++ " as a condition value for `" ++ column ++ "`"
  | .unboundBinding name => "binding `" ++ name ++ "` has no value"
  | .conflictingModifiers aggregate =>
    "aggregate " ++ aggregate ++ "() cannot be both DISTINCT and ALL"
  | .unsupportedNode dialect found => dialect ++ " dialect cannot render " ++ found.label ++ " nodes"

def category : Error → ErrorCategory
  | .unsupportedLiteral _ | .invalidAliasSource _ | .invalidTable _ | .invalidJoinTable _
  | .invalidCondition _ _ => .construction
  | .unboundBinding _ => .rendering
  | .conflictingModifiers _ => .configuration
  | .unsupportedNode _ _ => .completeness

/-- Whether another tree or other arguments could avoid the error. -/
def isRecoverable (e : Error) : Bool :=
  e.category != .completeness

end Error

end SqlKit
