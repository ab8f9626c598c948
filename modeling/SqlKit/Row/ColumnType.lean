/-
  SqlKit/Row/ColumnType.lean
  ==========================
  **What a column can be read as.**

  A `ColumnType` names a destination and `ColumnType.Data` is the type of what
  is read into it. Reading (`decode?`) accepts the values of the type itself and
  those that widen into it without loss: a narrower integer, or a single as a
  double. Null is accepted by options, and by `any`, which takes each value as
  it is.

  `encode` writes what was read as a value again, in the width of the type.
-/
import SqlKit.Value

namespace SqlKit

/-- A destination for a column value. -/
inductive ColumnType where
  | any
  | bool
  | int16
  | int32
  | int64
  | single
  | double
  | text
  | bytes
  | option (inner : ColumnType)
deriving DecidableEq, Repr

namespace ColumnType

/-- What is read into a destination. -/
def Data : ColumnType → Type
  | .any => Value
  | .bool => Bool
  | .int16 => Int16
  | .int32 => Int32
  | .int64 => Int64
  | .single => Single
  | .double => Double
  | .text => String
  | .bytes => ByteArray
  | .option inner => Option inner.Data

/-- The name of a type in messages. An option goes by what it may hold. -/
def label : ColumnType → String
  | .any => "any"
  | .bool => "bool"
  | .int16 => "i16"
  | .int32 => "i32"
  | .int64 => "i64"
  | .single => "f32"
  | .double => "f64"
  | .text => "string"
  | .bytes => "bytes"
  | .option inner => inner.label

/-- Read a value, or nothing if it has another shape. -/
def decode? : (t : ColumnType) → Value → Option t.Data
  | .any, v => some v
  | .bool, .bool b => some b
  | .int16, .int16 n => some n
  | .int32, .int16 n => some n.toInt32
  | .int32, .int32 n => some n
  | .int64, v => v.toInt64?
  | .single, .single x => some x
  | .double, .single x => some x.widen
  | .double, .double x => some x
  | .text, .text s => some s
  | .bytes, .bytes b => some b
  | .option _, .null => some none
  | .option inner, v => (inner.decode? v).map some
  | _, _ => none

/-- An option reads what it may hold, unless that is null. -/
theorem decode?_option_of_ne_null {inner : ColumnType} {v : Value} (h : v ≠ .null) :
    (option inner).decode? v = (inner.decode? v).map some := by
  cases v with
  | null => exact absurd rfl h
  | _ => rfl

/-- Write what was read as a value. -/
def encode : (t : ColumnType) → t.Data → Value
  | .any, v => v
  | .bool, b => .bool b
  | .int16, n => .int16 n
  | .int32, n => .int32 n
  | .int64, n => .int64 n
  | .single, x => .single x
  | .double, x => .double x
  | .text, s => .text s
  | .bytes, b => .bytes b
  | .option _, none => .null
  | .option inner, some d => inner.encode d

end ColumnType

end SqlKit
