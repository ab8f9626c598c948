/-
  SqlKit/Render/Options.lean
  ==========================
  **How a tree is rendered.**

  Options are shared by all dialects: whether bare names are quoted, what a
  binding without an argument means, and whether the clauses of a statement
  stand on lines of their own.
-/

namespace SqlKit

/-- What a binding means whose name has no argument. -/
inductive UnboundPolicy where
  | reject
  /-- It is null, so a comparison with it becomes a null test. -/
  | null
deriving DecidableEq, Repr

structure Options where
  /-- Quote bare identifiers and alias names. -/
  quote : Bool := false
  /-- Start each clause of the outermost statement on a line of its own. -/
  pretty : Bool := false
  /-- What a binding without an argument means. -/
  unbound : UnboundPolicy := .reject
deriving DecidableEq, Repr

/-- The text in front of a clause keyword, where `depth` statements enclose the
    clause. Lines break in the outermost statement only, so a subquery stays on
    one line. -/
def Options.clauseBreak (options : Options) (depth : Nat) : String :=
  if options.pretty && depth ≤ 1 then "\n" else " "

end SqlKit
