/-
  SqlKit/Row/Record.lean
  ======================
  **Reading rows into records.**

  A schema lists the fields of a record with their types. A record of a schema
  holds one datum for each field, and is read field by field, in the order of
  the schema, from the columns of the same names. Columns that match no field
  are ignored.

  A whole result is read row by row and fails with the first row that does
  (`decodeAll`); where one row is wanted, the rest of the result is not looked
  at (`decodeOne`).
-/
import SqlKit.Row.Basic

namespace SqlKit

structure Field where
  name : String
  type : ColumnType
deriving DecidableEq, Repr

/-- The fields of a record, in the order in which they are read. -/
abbrev Schema := List Field

/-- The data of a record, one for each field. -/
def Record : Schema → Type
  | [] => Unit
  | field :: rest => field.type.Data × Record rest

namespace Record

/-- Read a record from the columns named like its fields. -/
def decode : (schema : Schema) → Row → Except DecodeError (Record schema)
  | [], _ => .ok ()
  | field :: rest, row =>
    match row.get field.type field.name with
    | .error e => .error e
    | .ok data => (decode rest row).map (Prod.mk data)

/-- A record is read if its first field is and the others are. -/
theorem decode_cons_eq_ok_iff {field : Field} {schema : Schema} {row : Row}
    {data : field.type.Data} {others : Record schema} :
    decode (field :: schema) row = .ok (data, others) ↔
      row.get field.type field.name = .ok data ∧ decode schema row = .ok others := by
  rw [decode]
  cases row.get field.type field.name with
  | error e => simp
  | ok found =>
    cases decode schema row with
    | error e => simp [Except.map]
    | ok read =>
      constructor
      · intro h
        obtain ⟨rfl, rfl⟩ := Prod.mk.inj (Except.ok.inj h)
        exact ⟨rfl, rfl⟩
      · rintro ⟨⟨⟩, ⟨⟩⟩
        rfl

/-- The field names of a record, each with what was read into it. -/
def toList : (schema : Schema) → Record schema → List (String × (t : ColumnType) × t.Data)
  | [], _ => []
  | field :: rest, (data, others) => (field.name, ⟨field.type, data⟩) :: toList rest others

end Record

variable {α : Type}

/-- Read every row, or fail with the first that cannot be read. -/
def decodeAll (decode : Row → Except DecodeError α) : List Row → Except DecodeError (List α)
  | [] => .ok []
  | row :: rest =>
    match decode row with
    | .error e => .error e
    | .ok a => (decodeAll decode rest).map (a :: ·)

/-- Read the first row of a result. -/
def decodeOne (decode : Row → Except DecodeError α) : List Row → Except DecodeError α
  | [] => .error .noRows
  | row :: _ => decode row

end SqlKit
