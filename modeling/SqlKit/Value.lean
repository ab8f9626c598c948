/-
  SqlKit/Value.lean
  =================
  **Database values.**

  What a placeholder stands for, what an argument binds and what a column of a
  result row holds. The three integer widths and two float widths are kept
  apart, because a value is handed to the database in the width it came in;
  only `Value.toInt64?` looks at an integer independently of its width.

  A list is a value of its own. Elsewhere it becomes one placeholder per
  element (`Value.elements`), and a list inside a list has no such form
  (`hasNested`).
-/
import SqlKit.Ieee

namespace SqlKit

inductive Value where
  | null
  | bool (value : Bool)
  | int16 (value : Int16)
  | int32 (value : Int32)
  | int64 (value : Int64)
  | single (value : Single)
  | double (value : Double)
  | text (value : String)
  | bytes (value : ByteArray)
  | list (items : List Value)
deriving Inhabited

/-! ## 1. Kinds -/

/-- What a value is, apart from its contents. -/
inductive ValueKind where
  | null | bool | int16 | int32 | int64 | single | double | text | bytes | list
deriving DecidableEq, Repr

def ValueKind.label : ValueKind → String
  | .null => "null"
  | .bool => "bool"
  | .int16 => "i16"
  | .int32 => "i32"
  | .int64 => "i64"
  | .single => "f32"
  | .double => "f64"
  | .text => "string"
  | .bytes => "bytes"
  | .list => "list"

namespace Value

def kind : Value → ValueKind
  | .null => .null
  | .bool _ => .bool
  | .int16 _ => .int16
  | .int32 _ => .int32
  | .int64 _ => .int64
  | .single _ => .single
  | .double _ => .double
  | .text _ => .text
  | .bytes _ => .bytes
  | .list _ => .list

def isNull (v : Value) : Bool := v.kind == .null

def isList (v : Value) : Bool := v.kind == .list

/-! ## 2. Views -/

/-- The integer a value holds, whatever its width. -/
def toInt64? : Value → Option Int64
  | .int16 n => some n.toInt64
  | .int32 n => some n.toInt64
  | .int64 n => some n
  | _ => none

/-- The values a bound argument puts into placeholders, one per placeholder:
    the elements of a list, nothing for null, and any other value itself. -/
def elements : Value → List Value
  | .null => []
  | .list items => items
  | v => [v]

/-- Whether a list has a list among its items. -/
def hasNested (items : List Value) : Bool :=
  items.any isList

/-! ## 3. Equality -/

mutual

/-- Values of one kind and width with equal contents, where floats compare as
    numbers. It is not reflexive: a value that holds a NaN differs from itself. -/
def equal : Value → Value → Bool
  | .null, .null => true
  | .bool a, .bool b => a == b
  | .int16 a, .int16 b => a == b
  | .int32 a, .int32 b => a == b
  | .int64 a, .int64 b => a == b
  | .single a, .single b => a == b
  | .double a, .double b => a == b
  | .text a, .text b => a == b
  | .bytes a, .bytes b => a == b
  | .list xs, .list ys => equalLists xs ys
  | _, _ => false

/-- Lists of one length whose elements are equal place by place. -/
def equalLists : List Value → List Value → Bool
  | [], [] => true
  | x :: xs, y :: ys => equal x y && equalLists xs ys
  | _, _ => false

end

instance : BEq Value := ⟨equal⟩

end Value

end SqlKit
