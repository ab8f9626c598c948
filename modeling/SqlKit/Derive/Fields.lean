/-
  SqlKit/Derive/Fields.lean
  =========================
  **Field names of a struct body.**

  A struct body is read once from left to right, in two alternating modes.
  Outside of a type the last identifier is remembered; a colon makes it a field
  name and begins the type. Inside a type only the angle brackets are counted:
  a comma outside of all brackets ends the type, and one within, as in
  `Map<K, V>`, does not. The `>` of an arrow `->` is no bracket.

  Attributes and visibility need no rule of their own: what they put between the
  names is a group or an identifier that a later one replaces.
-/
import SqlKit.Derive.Token

namespace SqlKit.Derive

/-- Why nothing can be derived. -/
inductive DeriveError where
  /-- The item is an enum or a union. -/
  | notAStruct
  /-- The item is none of struct, enum and union. -/
  | expectedStruct
  | expectedStructName
  | genericStruct
  /-- The struct has no body of named fields. -/
  | notNamedFields
  /-- A colon has no name in front of it. -/
  | expectedFieldName
deriving DecidableEq, Repr

def DeriveError.message : DeriveError → String
  | .notAStruct => "FromRow can only be derived for structs"
  | .expectedStruct => "expected a struct"
  | .expectedStructName => "expected a struct name"
  | .genericStruct => "FromRow cannot be derived for generic structs"
  | .notNamedFields => "FromRow can only be derived for structs with named fields"
  | .expectedFieldName => "expected a field name before `:`"

/-- How many angle brackets are open after a punctuation character. A closing
    bracket too many opens none; `arrow` says that a `-` stands right before. -/
def bracketDepth (depth : Nat) (arrow : Bool) (char : Char) : Nat :=
  if char = '<' then depth + 1
  else if char = '>' ∧ arrow = false then depth - 1
  else depth

mutual

/-- The field names from a place outside of a type, where `last` is the last
    identifier since the previous field name. -/
def namesOutside (last : Option String) : List Token → Except DeriveError (List String)
  | [] => .ok []
  | .punct char _ :: rest =>
    if char = ':' then
      match last with
      | none => .error .expectedFieldName
      | some name => (namesInType 0 false rest).map (name :: ·)
    else namesOutside last rest
  | .ident name :: rest => namesOutside (some name) rest
  | _ :: rest => namesOutside last rest

/-- The field names from a place inside a type with `depth` open angle brackets,
    where `arrow` says that the token before is the `-` of an operator. -/
def namesInType (depth : Nat) (arrow : Bool) : List Token → Except DeriveError (List String)
  | [] => .ok []
  | .punct char spacing :: rest =>
    if char = ',' ∧ depth = 0 then namesOutside none rest
    else namesInType (bracketDepth depth arrow char) (char == '-' && spacing == .joint) rest
  | _ :: rest => namesInType depth false rest

end

/-- The field names of a struct body, in the order of declaration. -/
def fieldNames (body : List Token) : Except DeriveError (List String) :=
  namesOutside none body

end SqlKit.Derive
