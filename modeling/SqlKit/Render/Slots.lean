/-
  SqlKit/Render/Slots.lean
  ========================
  **Placeholder slots.**

  A rendered text refers to its values by number: `$n` is the `n`-th slot.
  Slots are handed out in consecutive runs, a `Span` at a time, always behind
  the slots there are; none is ever given back. A value known in the tree goes
  into its slot at once. A binding reserves empty (null) slots under its name,
  so that every later occurrence of the name refers to the same span, and
  `Slots.fill` writes the arguments into the reserved slots at the end.
-/
import SqlKit.Args

namespace SqlKit

/-- A run of `count` consecutive slots, numbered from `start + 1` on. -/
structure Span where
  start : Nat
  count : Nat
deriving DecidableEq, Repr

def Span.numbers (span : Span) : List Nat :=
  List.range' (span.start + 1) span.count

/-- The slots handed out so far, and which of them belong to which binding. -/
structure Slots where
  values : List Value := []
  /-- The span of each binding that has one, in the order of reservation. -/
  reserved : List (String × Span) := []
deriving Inhabited

namespace Slots

/-- Hand out one slot for each of the values. -/
def take (slots : Slots) (values : List Value) : Span × Slots :=
  (⟨slots.values.length, values.length⟩, { slots with values := slots.values ++ values })

/-- The span reserved for a binding. -/
def spanOf? (slots : Slots) (name : String) : Option Span :=
  (slots.reserved.find? (·.1 = name)).map Prod.snd

/-- Hand out empty slots for a binding and remember them under its name. -/
def reserve (slots : Slots) (name : String) (count : Nat) : Span × Slots :=
  let (span, slots) := slots.take (List.replicate count .null)
  (span, { slots with reserved := slots.reserved ++ [(name, span)] })

@[simp]
theorem values_take (slots : Slots) (values : List Value) :
    (slots.take values).2.values = slots.values ++ values := rfl

@[simp]
theorem reserved_take (slots : Slots) (values : List Value) :
    (slots.take values).2.reserved = slots.reserved := rfl

@[simp]
theorem values_reserve (slots : Slots) (name : String) (count : Nat) :
    (slots.reserve name count).2.values = slots.values ++ List.replicate count .null := rfl

@[simp]
theorem reserved_reserve (slots : Slots) (name : String) (count : Nat) :
    (slots.reserve name count).2.reserved =
      slots.reserved ++ [(name, ⟨slots.values.length, count⟩)] := by
  simp [reserve, take]

/-! ## Filling in the arguments -/

/-- Replace the elements of a list from a position on. -/
def overwrite (values : List Value) (start : Nat) (items : List Value) : List Value :=
  values.take start ++ items ++ values.drop (start + items.length)

/-- Write the argument of one binding into its span. A binding without an
    argument leaves its slots as they are. -/
def fillSpan (args : Args) (values : List Value) (entry : String × Span) : List Value :=
  match args.get? entry.1 with
  | some value => overwrite values entry.2.start (value.elements.take entry.2.count)
  | none => values

/-- The values of all slots, with the arguments in the slots of the bindings. -/
def fill (slots : Slots) (args : Args) : List Value :=
  slots.reserved.foldl (fillSpan args) slots.values

end Slots

end SqlKit
