/-
  SqlKit/Row/Basic.lean
  =====================
  **Result rows.**

  A row pairs column names with values, in the order in which they were
  selected. Names need not be distinct. A column is found by name without regard
  to ASCII case, and the first match counts.
-/
import SqlKit.Text.AsciiCase
import SqlKit.Row.ColumnType

namespace SqlKit

structure Row where
  columns : List (String × Value)

/-- Why a row cannot be read. -/
inductive DecodeError where
  | missingColumn (column : String)
  /-- The column, and the names of the type wanted and of the type found. -/
  | typeMismatch (column expected found : String)
  /-- A scalar was wanted from a row without columns. -/
  | noColumns
  /-- A row was wanted from an empty result. -/
  | noRows
deriving DecidableEq, Repr

def DecodeError.message : DecodeError → String
  | .missingColumn column => "missing column: " ++ column
  | .typeMismatch column expected found =>
    "type mismatch for column '" ++ column ++ "': expected " ++ expected ++ ", found " ++ found
  | .noColumns => "cannot decode a scalar from a row with no columns"
  | .noRows => "query returned no rows"

namespace Row

def size (row : Row) : Nat := row.columns.length

def isEmpty (row : Row) : Bool := row.columns.isEmpty

def names (row : Row) : List String := row.columns.map Prod.fst

/-- The value of the first column of that name. -/
def value? (row : Row) (name : String) : Option Value :=
  (row.columns.find? fun column => Text.sameName column.1 name).map Prod.snd

/-! ## Reading columns -/

/-- Read a value that came from the named column. -/
def read (t : ColumnType) (name : String) (value : Value) : Except DecodeError t.Data :=
  match t.decode? value with
  | some data => .ok data
  | none => .error (.typeMismatch name t.label value.kind.label)

/-- Read the first column of that name. -/
def get (row : Row) (t : ColumnType) (name : String) : Except DecodeError t.Data :=
  match row.value? name with
  | some value => read t name value
  | none => .error (.missingColumn name)

/-- Read the first column, whatever its name. -/
def first (row : Row) (t : ColumnType) : Except DecodeError t.Data :=
  match row.columns with
  | (name, value) :: _ => read t name value
  | [] => .error .noColumns

end Row

end SqlKit
