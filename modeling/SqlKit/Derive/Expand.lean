/-
  SqlKit/Derive/Expand.lean
  =========================
  **Deriving row decoding for a struct.**

  The item is searched for the keyword `struct`; what stands before it, such as
  attributes, is skipped without looking into groups. A name and a body in
  braces have to follow. The result is an implementation of `FromRow` that reads
  each field, in the order of declaration, from the column of the same name. A
  raw identifier names its column without the `r#`.
-/
import SqlKit.Derive.Fields

namespace SqlKit.Derive

/-! ## 1. The parts of a struct -/

/-- A struct name and the tokens between its braces. -/
structure StructItem where
  name : String
  body : List Token

def bodyAfterName (name : String) : List Token → Except DeriveError StructItem
  | .group .brace body :: _ => .ok ⟨name, body⟩
  | .punct '<' _ :: _ => .error .genericStruct
  | _ => .error .notNamedFields

def itemAfterKeyword : List Token → Except DeriveError StructItem
  | .ident name :: rest => bodyAfterName name rest
  | _ => .error .expectedStructName

def findStruct : List Token → Except DeriveError StructItem
  | [] => .error .expectedStruct
  | .ident name :: rest =>
    if name = "struct" then itemAfterKeyword rest
    else if name = "enum" ∨ name = "union" then .error .notAStruct
    else findStruct rest
  | _ :: rest => findStruct rest

/-! ## 2. The generated implementation -/

/-- Punctuation characters, all but the last joined to the next. -/
def puncts : List Char → List Token
  | [] => []
  | [char] => [.punct char .alone]
  | char :: rest => .punct char .joint :: puncts rest

/-- A path that starts at the outermost namespace. -/
def path (segments : List String) : List Token :=
  segments.flatMap fun segment => puncts [':', ':'] ++ [.ident segment]

def columnName (field : String) : String :=
  if field.startsWith "r#" then (field.drop 2).toString else field

/-- `FIELD: row.get("COLUMN")?,` -/
def initializer (field : String) : List Token :=
  [.ident field, .punct ':' .alone, .ident "row", .punct '.' .alone, .ident "get",
    .group .parenthesis [.string (columnName field)], .punct '?' .alone, .punct ',' .alone]

/-- The implementation for a struct with the given fields. -/
def implementation (name : String) (fields : List String) : List Token :=
  let parameter := [.ident "row", .punct ':' .alone, .punct '&' .alone] ++ path ["dbq_rows", "Row"]
  let result := path ["dbq_rows", "Result"] ++
    [.punct '<' .alone, .ident "Self", .punct '>' .alone]
  let record := [.ident "Self", .group .brace (fields.flatMap initializer)]
  let body := path ["core", "result", "Result", "Ok"] ++ [.group .parenthesis record]
  let method := [.ident "fn", .ident "from_row", .group .parenthesis parameter] ++
    puncts ['-', '>'] ++ result ++ [.group .brace body]
  [.ident "impl"] ++ path ["dbq_rows", "FromRow"] ++ [.ident "for", .ident name, .group .brace method]

/-- The implementation derived for an item. -/
def expand (item : List Token) : Except DeriveError (List Token) := do
  let struct ← findStruct item
  let fields ← fieldNames struct.body
  return implementation struct.name fields

end SqlKit.Derive
