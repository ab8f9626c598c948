/-
  SqlKit/Proofs/Text/Vocabulary.lean
  ==================================
  **What types are called in errors.**

  An error says which type was wanted and what was found instead. The names for that are
  listed here once, for the kinds of values and for the types of columns. An option has
  no name of its own, it goes by what it may hold.

  A list says which names are right, apart from the functions that make them. Every kind
  and every type has exactly one name by it, the one that messages use (`called_iff`).
-/
import SqlKit.Row.ColumnType

namespace SqlKit

/-! ## 1. Kinds of values -/

namespace ValueKind

/-- The kinds of values with their names. -/
def vocabulary : List (ValueKind × String) :=
  [(.null, "null"), (.bool, "bool"), (.int16, "i16"), (.int32, "i32"), (.int64, "i64"),
    (.single, "f32"), (.double, "f64"), (.text, "string"), (.bytes, "bytes"), (.list, "list")]

/-- What a kind is called. -/
def Called (kind : ValueKind) (name : String) : Prop :=
  (kind, name) ∈ vocabulary

instance (kind : ValueKind) (name : String) : Decidable (kind.Called name) :=
  inferInstanceAs (Decidable ((kind, name) ∈ vocabulary))

theorem called_iff {kind : ValueKind} {name : String} : kind.Called name ↔ name = kind.label := by
  constructor
  · intro h
    have hall : ∀ entry ∈ vocabulary, entry.2 = entry.1.label := by decide
    exact hall (kind, name) h
  · rintro rfl
    cases kind <;> decide

end ValueKind

/-! ## 2. Types of columns -/

namespace ColumnType

/-- The types that have a name of their own, with these names. -/
def vocabulary : List (ColumnType × String) :=
  [(.any, "any"), (.bool, "bool"), (.int16, "i16"), (.int32, "i32"), (.int64, "i64"),
    (.single, "f32"), (.double, "f64"), (.text, "string"), (.bytes, "bytes")]

/-- What a type is called: the name of its own, or that of what an option may hold. -/
inductive Called : ColumnType → String → Prop where
  | own {t : ColumnType} {name : String} (h : (t, name) ∈ vocabulary) : Called t name
  | option {inner : ColumnType} {name : String} (h : Called inner name) :
    Called (.option inner) name

theorem called_iff {t : ColumnType} {name : String} : t.Called name ↔ name = t.label := by
  constructor
  · intro h
    induction h with
    | @own t name h =>
      have hall : ∀ entry ∈ vocabulary, entry.2 = entry.1.label := by decide
      exact hall (t, name) h
    | option _ ih => exact ih
  · rintro rfl
    induction t with
    | option inner ih => exact .option ih
    | _ => exact .own (by decide)

end ColumnType

end SqlKit
