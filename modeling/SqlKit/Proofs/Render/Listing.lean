/-
  SqlKit/Proofs/Render/Listing.lean
  =================================
  **What can be listed, and the span it is listed in.**

  A literal, a list of values or a binding stands for the values that a membership
  test looks through (`Context.Lists`): a scalar for itself, null for none. Written
  as a list, all of them come to one form, the placeholders of a span or the null
  value where there is none (`Span.text`), and the span holds the values in the end
  (`Span.Holds`). For a binding this does not depend on whether it had its slots
  before (`Context.Lists.exists_placeholdersOf`), because the slots are `Backed`.
-/
import SqlKit.Build.Expression
import SqlKit.Proofs.Render.InPlace

namespace SqlKit

/-! ## 1. The text of a span -/

/-- The placeholders of a span, joined by commas, or the null value if it has none. -/
def Span.text (span : Span) : String :=
  if span.count = 0 then "NULL"
  else ",".intercalate (span.numbers.map fun number => "$" ++ toString number)

theorem Piece.join_append (ps qs : List Piece) : join (ps ++ qs) = join ps ++ join qs := by
  rw [join, List.map_append, String.join_append]
  rfl

@[simp]
theorem Piece.join_verbatim (s : String) : join [.verbatim s] = s := by
  simp [join, text]

namespace Span

theorem join_intersperse (ns : List Nat) :
    Piece.join ((ns.map Piece.slot).intersperse (.verbatim ",")) =
      ",".intercalate (ns.map fun number => "$" ++ toString number) := by
  induction ns with
  | nil => rfl
  | cons n ns ih =>
    cases ns with
    | nil => simp [Piece.join, Piece.text]
    | cons m ns =>
      simp only [List.map_cons, List.intersperse_cons_cons, Piece.join, String.join_cons,
        String.intercalate_cons_cons] at ih ⊢
      rw [ih, ← String.append_assoc]
      rfl

theorem join_pieces (span : Span) : Piece.join span.pieces = span.text := by
  rw [pieces, text]
  split
  · exact Piece.join_verbatim "NULL"
  · exact join_intersperse span.numbers

/-- The placeholders of a span that is not empty begin with a dollar sign. -/
theorem head?_text {span : Span} (h : span.count ≠ 0) : span.text.toList.head? = some '$' := by
  obtain ⟨count, hcount⟩ := Nat.exists_eq_succ_of_ne_zero h
  rw [text, if_neg h, numbers, hcount, List.range'_succ, List.map_cons,
    String.toList_intercalate, List.map_cons]
  cases List.range' (span.start + 1 + 1) count <;> simp [List.intercalate]

/-- A span is written as the null value if and only if it is empty. -/
theorem text_eq_null_iff (span : Span) : span.text = "NULL" ↔ span.count = 0 := by
  constructor
  · intro h
    apply Decidable.byContradiction
    intro hcount
    have hhead := head?_text hcount
    rw [h] at hhead
    cases hhead
  · intro hcount
    rw [text, if_pos hcount]

end Span

/-! ## 2. The values of a span -/

/-- A span has one slot for each of the items, and these are its values. -/
structure Span.Holds (span : Span) (items values : List Value) : Prop where
  count : span.count = items.length
  items : (values.drop span.start).take span.count = items

namespace Span.Holds

variable {span : Span} {items values : List Value}

theorem of_prefix (h : span.Holds items values) {later : List Value} (hfront : values <+: later) :
    span.Holds items later where
  count := h.count
  items := by
    obtain ⟨more, rfl⟩ := hfront
    have hlength := congrArg List.length h.items
    rw [List.length_take, List.length_drop, ← h.count] at hlength
    rcases Nat.eq_zero_or_pos span.count with hzero | hpos
    · rw [← h.items, hzero, List.take_zero, List.take_zero]
    · rw [List.drop_append_of_le_length (by omega),
        List.take_append_of_le_length (by rw [List.length_drop]; omega), h.items]

/-- Read by their numbers, the slots of a span are its items in order. -/
theorem slotValue_numbers (h : span.Holds items values) :
    span.numbers.map (Rendered.slotValue values) = items.map some :=
  Span.slotValue_numbers h.count h.items

/-- Items written behind other values are held by the span behind these. -/
theorem append (values items : List Value) :
    Span.Holds ⟨values.length, items.length⟩ items (values ++ items) where
  count := rfl
  items := by rw [List.drop_left, List.take_length]

theorem nil (values : List Value) : Span.Holds ⟨0, 0⟩ [] values where
  count := rfl
  items := rfl

end Span.Holds

/-! ## 3. What stands for a list -/

/-- The values that a node stands for as the right side of a membership test. -/
inductive Context.Lists (ctx : Context) : Node → List Value → Prop where
  | integer (n : Int64) : Lists ctx (.of (.integer n)) [.int64 n]
  | string (s : String) : Lists ctx (.of (.string s)) [.text s]
  | null : Lists ctx (.of .null) []
  | list {items : List Value} (hflat : Value.hasNested items = false) :
    Lists ctx (.of (.list items)) items
  | bound {name : String} {value : Value} (hvalue : ctx.args.get? name = some value)
    (hflat : Value.hasNested value.elements = false) :
    Lists ctx (.of (.binding name)) value.elements
  | unbound {name : String} (hvalue : ctx.args.get? name = none)
    (hpolicy : ctx.options.unbound = .null) : Lists ctx (.of (.binding name)) []

variable {ctx : Context} {slots : Slots}

theorem Context.lookup_of_get? {name : String} {value : Value}
    (h : ctx.args.get? name = some value) (hnull : value ≠ .null) :
    ctx.lookup name = .ok (some value) := by
  rw [lookup, h]
  cases value with
  | null => exact absurd rfl hnull
  | _ => rfl

theorem Context.placeholdersOf_of_null {name : String} (hspan : slots.spanOf? name = none)
    (hlookup : ctx.lookup name = .ok none) :
    ctx.placeholdersOf name slots = .ok (Span.pieces ⟨0, 0⟩, slots) := by
  rw [placeholdersOf, hspan, hlookup]
  rfl

namespace Context.Lists

/-- How deep a statement lies is of no account. -/
theorem at_depth {set : Node} {elements : List Value} (h : ctx.Lists set elements) (depth : Nat) :
    Context.Lists { ctx with depth := depth } set elements := by
  cases h with
  | integer n => exact .integer n
  | string s => exact .string s
  | null => exact .null
  | list hflat => exact .list hflat
  | bound hvalue hflat => exact .bound hvalue hflat
  | unbound hvalue hpolicy => exact .unbound hvalue hpolicy

/-- A binding that stands for a list is written as a span of its values, whether it
    had its slots before or is given them now. -/
theorem exists_placeholdersOf {name : String} {elements : List Value}
    (h : ctx.Lists (.of (.binding name)) elements) (hbacked : slots.Backed ctx) :
    ∃ (span : Span) (after : Slots), ctx.placeholdersOf name slots = .ok (span.pieces, after) ∧
      span.Holds elements (after.fill ctx.args) := by
  rcases hspan : slots.spanOf? name with _ | span
  · cases h with
    | @bound _ value hvalue hflat =>
      by_cases hnull : value = .null
      · subst hnull
        have hlookup : ctx.lookup name = .ok none := by
          rw [lookup, hvalue]
        exact ⟨_, _, placeholdersOf_of_null hspan hlookup, .nil _⟩
      · have hlookup := lookup_of_get? hvalue hnull
        refine ⟨⟨slots.values.length, value.elements.length⟩,
          (slots.reserve name value.elements.length).2, ?_, ?_⟩
        · simp only [placeholdersOf, hspan, hlookup, hflat, Bool.false_eq_true, if_false,
            Slots.span_reserve]
        · rw [Slots.fill_reserve hbacked.inRange hvalue,
            ← Slots.length_fill hbacked.inRange ctx.args]
          exact .append _ _
    | unbound hvalue hpolicy =>
      have hlookup : ctx.lookup name = .ok none := by
        rw [lookup, hvalue, hpolicy]
      exact ⟨_, _, placeholdersOf_of_null hspan hlookup, .nil _⟩
  · obtain ⟨value, hlookup, -, hcount, hvalues⟩ :=
      hbacked.argument _ (Slots.mem_reserved_of_spanOf? hspan)
    have hget := get?_of_lookup hlookup
    refine ⟨span, slots, by rw [placeholdersOf, hspan], ?_⟩
    cases h with
    | @bound _ value' hvalue hflat =>
      obtain rfl : value = value' := Option.some.inj (hget.symm.trans hvalue)
      exact ⟨hcount, hvalues⟩
    | unbound hvalue hpolicy =>
      rw [hget] at hvalue
      cases hvalue

end Context.Lists

end SqlKit
