/-
  SqlKit/Render/Dialect.lean
  ==========================
  **Dialects.**

  A dialect is a table of rules, one for each form of node it knows. A rule
  turns a layer whose children are already laid out into a template; walking
  the tree is not its concern. A form without a rule cannot be rendered, which
  is reported as a gap of the dialect.
-/
import SqlKit.Node.Recursion
import SqlKit.Render.Template

namespace SqlKit

structure Dialect where
  name : String
  /-- The layout of a layer, if there is a rule for its form. -/
  rule? : Options → Form (Part Template) → Option Template

/-- A statement with the values of its placeholders: `$n` stands for the `n`-th. -/
structure Rendered where
  sql : String
  values : List Value

/-! ## 1. Children in a rule -/

/-- A child as an operand: in parentheses if its form asks for them. -/
def Part.operand (part : Part Template) : Template :=
  part.result.operand part.node.isCompound

/-- A child of a statement, which stays on one line. -/
def Part.inline (part : Part Template) : Part Template :=
  { part with result := part.result.inline }

namespace Dialect

/-! ## 2. Templates of whole trees -/

/-- The layout of one layer, complete with the report of a missing rule. -/
def layout (d : Dialect) (options : Options) (form : Form (Part Template)) : Template :=
  match d.rule? options form with
  | some template => template
  | none => [.fail (.unsupportedNode d.name form.kind)]

def template (d : Dialect) (options : Options) : Node → Template :=
  Node.recurse (d.layout options)

/-- The layout of a tree is that of its root over its laid out children. -/
theorem template_of (d : Dialect) (options : Options) (form : Form Node) :
    d.template options (.of form) =
      d.layout options (form.map (Node.part (d.layout options))) :=
  Node.recurse_of _ _

def operandTemplate (d : Dialect) (options : Options) (node : Node) : Template :=
  (Node.part (d.layout options) node).operand

/-! ## 3. Rendering -/

/-- The text of a tree, with the arguments for its bindings. -/
def render (d : Dialect) (options : Options) (node : Node) (args : Args) : Except Error Rendered :=
  let ctx := Context.new args options
  match (d.template options node).run ctx {} with
  | (.error e, _) => .error e
  | (.ok pieces, slots) => .ok ⟨Piece.join pieces, ctx.finish slots⟩

/-- The text of a tree alone; its bindings are null. -/
def renderText (d : Dialect) (options : Options) (node : Node) : Except Error String :=
  match (d.template options node).run (Context.textOnly {} options) {} with
  | (.error e, _) => .error e
  | (.ok pieces, _) => .ok (Piece.join pieces)

end Dialect

end SqlKit
