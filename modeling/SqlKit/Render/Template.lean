/-
  SqlKit/Render/Template.lean
  ===========================
  **Templates: what a tree says before its placeholders have numbers.**

  Rendering has two halves. The first depends on the tree alone: it lays out,
  from left to right, fixed text and the places where values, lists and bindings
  go. That layout is a `Template`, a flat list of fragments. The second half
  runs over the fragments with the arguments at hand, hands out slots
  (`SqlKit/Render/Slots.lean`) and yields `Piece`s: text, and numbered slots.

  The order of a template is the order of the text and the order in which slots
  are handed out and errors arise, all three at once. So what is to be known
  about numbering, errors and the final text follows by induction on a list.

  A failing fragment ends the run. The slots handed out before it stay handed
  out, which a later run in the same context can see.
-/
import SqlKit.Render.Options
import SqlKit.Render.Slots
import SqlKit.Error

namespace SqlKit

/-! ## 1. Pieces of a finished text -/

/-- Fixed text, or a reference to a slot. -/
inductive Piece where
  | verbatim (text : String)
  | slot (number : Nat)
deriving DecidableEq, Repr

/-- The text of a piece; the placeholder of slot `n` is `$n`. -/
def Piece.text : Piece → String
  | .verbatim text => text
  | .slot number => "$" ++ toString number

def Piece.join (pieces : List Piece) : String :=
  String.join (pieces.map Piece.text)

/-- A span as a list of placeholders. An empty one is written as the null
    value, since `IN ()` is no SQL. -/
def Span.pieces (span : Span) : List Piece :=
  if span.count = 0 then [.verbatim "NULL"]
  else (span.numbers.map Piece.slot).intersperse (.verbatim ",")

/-! ## 2. Fragments -/

/-- One step of laying out a text. -/
inductive Fragment where
  | verbatim (text : String)
  /-- What stands before a clause keyword of the outermost statement. -/
  | clauseBreak
  /-- One placeholder for a value, whatever it is. -/
  | value (value : Value)
  /-- One placeholder for each of the values. -/
  | values (items : List Value)
  | binding (name : String)
  /-- A comparison with a binding: `ifNull` where the binding is null, else its
      placeholders between `before` and `after`. -/
  | comparand (name ifNull before after : String)
  | fail (error : Error)

/-- A layout, from left to right. -/
abbrev Template := List Fragment

namespace Template

def text (s : String) : Template := [.verbatim s]

/-- A template as an operand: in parentheses if it is compound. -/
def operand (t : Template) (compound : Bool) : Template :=
  if compound then text "(" ++ t ++ text ")" else t

/-- Templates with a separator between neighbours. -/
def separated (separator : String) (ts : List Template) : Template :=
  (ts.intersperse (text separator)).flatten

/-- A fragment with no line break of its own. -/
def inlineFragment : Fragment → Fragment
  | .clauseBreak => .verbatim " "
  | fragment => fragment

/-- The same template on one line: what a statement holds does not break. -/
def inline (t : Template) : Template :=
  t.map inlineFragment

@[simp]
theorem inline_text (s : String) : (text s).inline = text s := rfl

@[simp]
theorem inline_append (t u : Template) : (t ++ u).inline = t.inline ++ u.inline :=
  List.map_append

@[simp]
theorem inline_operand (t : Template) (compound : Bool) :
    (t.operand compound).inline = t.inline.operand compound := by
  cases compound
  · rfl
  · simp only [operand, if_true, inline_append, inline_text]

end Template

/-! ## 3. The context of a run -/

/-- What a run may look at, fixed from its start to its end. -/
structure Context where
  args : Args
  options : Options
  /-- Whether the arguments are written into the slots at the end. -/
  fills : Bool
  /-- How many statements enclose what is being rendered. -/
  depth : Nat

namespace Context

/-- A context that yields text and values. -/
def new (args : Args) (options : Options) : Context :=
  ⟨args, options, true, 0⟩

/-- A context for the text alone: a binding without an argument is null, and
    the slots of the bindings stay empty. -/
def textOnly (args : Args) (options : Options) : Context :=
  ⟨args, { options with unbound := .null }, false, 0⟩

def nested (ctx : Context) : Context :=
  { ctx with depth := ctx.depth + 1 }

/-- The argument of a binding, or nothing where the binding is null. -/
def lookup (ctx : Context) (name : String) : Except Error (Option Value) :=
  match ctx.args.get? name with
  | some .null => .ok none
  | some value => .ok (some value)
  | none =>
    match ctx.options.unbound with
    | .null => .ok none
    | .reject => .error (.unboundBinding name)

/-- Whether a node is null here: the null literal is, and a binding may be. -/
def denotesNull (ctx : Context) (node : Node) : Except Error Bool :=
  match node.form with
  | .null => .ok true
  | .binding name => (ctx.lookup name).map (·.isNone)
  | _ => .ok false

/-- The values of the slots at the end of a run. -/
def finish (ctx : Context) (slots : Slots) : List Value :=
  if ctx.fills then slots.fill ctx.args else slots.values

end Context

/-! ## 4. Running a template -/

/-- One slot for each of the values, none of which may be a list. -/
def Slots.placeholders (slots : Slots) (items : List Value) : Except Error (List Piece × Slots) :=
  if Value.hasNested items then .error (.unsupportedLiteral .nestedList)
  else
    let (span, slots) := slots.take items
    .ok (span.pieces, slots)

/-- The placeholders of a binding. The first occurrence of a name reserves as
    many slots as its argument has elements, later ones refer to the same slots.
    A binding that is null reserves nothing. -/
def Context.placeholdersOf (ctx : Context) (name : String) (slots : Slots) :
    Except Error (List Piece × Slots) :=
  match slots.spanOf? name with
  | some span => .ok (span.pieces, slots)
  | none =>
    match ctx.lookup name with
    | .error e => .error e
    | .ok none => .ok ([.verbatim "NULL"], slots)
    | .ok (some value) =>
      if Value.hasNested value.elements then .error (.unsupportedLiteral .nestedList)
      else
        let (span, slots) := slots.reserve name value.elements.length
        .ok (span.pieces, slots)

/-- The pieces of one fragment. -/
def Fragment.emit (ctx : Context) (slots : Slots) : Fragment → Except Error (List Piece × Slots)
  | .verbatim text => .ok ([.verbatim text], slots)
  | .clauseBreak => .ok ([.verbatim (ctx.options.clauseBreak (ctx.depth + 1))], slots)
  | .value v =>
    let (span, slots) := slots.take [v]
    .ok (span.pieces, slots)
  | .values items => slots.placeholders items
  | .binding name => ctx.placeholdersOf name slots
  | .comparand name ifNull before after =>
    match ctx.lookup name with
    | .error e => .error e
    | .ok none => .ok ([.verbatim ifNull], slots)
    | .ok (some _) =>
      match ctx.placeholdersOf name slots with
      | .error e => .error e
      | .ok (pieces, slots) => .ok (.verbatim before :: pieces ++ [.verbatim after], slots)
  | .fail error => .error error

/-- Run a template from the given slots: the pieces of its text or the first
    error, and the slots handed out by then. -/
def Template.run (ctx : Context) : Template → Slots → Except Error (List Piece) × Slots
  | [], slots => (.ok [], slots)
  | fragment :: rest, slots =>
    match fragment.emit ctx slots with
    | .error e => (.error e, slots)
    | .ok (pieces, slots) =>
      match run ctx rest slots with
      | (.error e, slots) => (.error e, slots)
      | (.ok more, slots) => (.ok (pieces ++ more), slots)

/-- Templates one after the other run one after the other, up to an error. -/
theorem Template.run_append (ctx : Context) (t u : Template) (slots : Slots) :
    (t ++ u).run ctx slots =
      match t.run ctx slots with
      | (.error e, slots) => (.error e, slots)
      | (.ok pieces, slots) =>
        match u.run ctx slots with
        | (.error e, slots) => (.error e, slots)
        | (.ok more, slots) => (.ok (pieces ++ more), slots) := by
  induction t generalizing slots with
  | nil =>
    rcases h : run ctx u slots with ⟨e | more, after⟩ <;>
      simp only [List.nil_append, run, h]
  | cons fragment rest ih =>
    simp only [List.cons_append, run]
    cases fragment.emit ctx slots with
    | error e => rfl
    | ok result =>
      obtain ⟨pieces, slots⟩ := result
      simp only [ih]
      rcases run ctx rest slots with ⟨e | more, slots⟩
      · rfl
      · rcases h : run ctx u slots with ⟨e | last, after⟩ <;>
          simp only [h, List.append_assoc]

end SqlKit
