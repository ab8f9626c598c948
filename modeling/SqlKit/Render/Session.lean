/-
  SqlKit/Render/Session.lean
  ==========================
  **Several operations on one set of slots.**

  A session carries out a sequence of steps in one context. The steps share
  their slots: a binding that an earlier step reserved is reused by a later one,
  and what a failing step handed out before it failed stays handed out. Each
  step has its own answer, a failure is one of them, and the next step goes on.

  Steps can be nested, as if they were inside a statement: the steps within see
  a context one statement deeper, and nothing of that is left afterwards.
-/
import SqlKit.Render.Dialect

namespace SqlKit

/-- A step of a session. A tree comes as the outcome of building it; if that
    failed, so does the step. -/
inductive Step where
  | value (v : Value)
  | values (items : List Value)
  | binding (name : String)
  /-- The argument of a binding. -/
  | lookup (name : String)
  | denotesNull (tree : Except Error Node)
  | clauseBreak
  | node (tree : Except Error Node)
  | operand (tree : Except Error Node)
  | nested (steps : List Step)

inductive Answer where
  | text (s : String)
  | argument (value : Option Value)
  | truth (b : Bool)
  | nested (answers : List Answer)
  | failure (error : Error)

namespace Session

/-- The text of a template, or its error, and the slots afterwards. -/
def write (ctx : Context) (template : Template) (slots : Slots) : Answer × Slots :=
  match template.run ctx slots with
  | (.ok pieces, slots) => (.text (Piece.join pieces), slots)
  | (.error e, slots) => (.failure e, slots)

/-- An answer that leaves the slots alone. -/
def look {α : Type} (answer : α → Answer) (outcome : Except Error α) (slots : Slots) :
    Answer × Slots :=
  match outcome with
  | .ok a => (answer a, slots)
  | .error e => (.failure e, slots)

/-- The text of a tree laid out by `layout`. -/
def writeTree (ctx : Context) (layout : Node → Template) (tree : Except Error Node)
    (slots : Slots) : Answer × Slots :=
  match tree with
  | .ok node => write ctx (layout node) slots
  | .error e => (.failure e, slots)

mutual

def runStep (d : Dialect) (ctx : Context) : Step → Slots → Answer × Slots
  | .value v, slots => write ctx [.value v] slots
  | .values items, slots => write ctx [.values items] slots
  | .binding name, slots => write ctx [.binding name] slots
  | .lookup name, slots => look .argument (ctx.lookup name) slots
  | .denotesNull tree, slots => look .truth (tree >>= ctx.denotesNull) slots
  | .clauseBreak, slots => (.text (ctx.options.clauseBreak ctx.depth), slots)
  | .node tree, slots => writeTree ctx (d.template ctx.options) tree slots
  | .operand tree, slots => writeTree ctx (d.operandTemplate ctx.options) tree slots
  | .nested steps, slots =>
    let (answers, slots) := run d ctx.nested steps slots
    (.nested answers, slots)

def run (d : Dialect) (ctx : Context) : List Step → Slots → List Answer × Slots
  | [], slots => ([], slots)
  | step :: rest, slots =>
    let (answer, slots) := runStep d ctx step slots
    let (answers, slots) := run d ctx rest slots
    (answer :: answers, slots)

end

end Session

end SqlKit
