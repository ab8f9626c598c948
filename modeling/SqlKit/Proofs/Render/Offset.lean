/-
  SqlKit/Proofs/Render/Offset.lean
  ================================
  **Slots behind other slots.**

  What a template writes depends on the slots there are in two ways: new slots
  are numbered behind them, and a binding that has its slots shares them. Where
  no binding of the template has slots yet, only the first is left. A run that
  starts behind other slots is then the run from no slots at all, with every
  number moved up by as many slots as there were (`run_append_slots`), and with
  its values behind theirs in the end (`fill_append`).

  The numbers move in the text, too. Moving a number changes its digits, and
  possibly how many there are, so `Text.renumber` reads the text, changes the
  placeholders it finds and writes it anew; for legible pieces that is the text
  of the moved pieces (`renumber_join`).
-/
import SqlKit.Proofs.Render.Unshared
import SqlKit.Proofs.Render.Spacing

namespace SqlKit

/-! ## 1. Moving numbers -/

/-- A span with its slots numbered `k` higher. -/
def Span.shift (k : Nat) (span : Span) : Span :=
  ⟨k + span.start, span.count⟩

/-- A piece with its slot numbered `k` higher. -/
def Piece.shift (k : Nat) : Piece → Piece
  | .verbatim s => .verbatim s
  | .slot number => .slot (number + k)

/-- Slots behind those of `base`, with their spans moved accordingly. -/
def Slots.append (base slots : Slots) : Slots :=
  ⟨base.values ++ slots.values,
    base.reserved ++ slots.reserved.map fun entry => (entry.1, entry.2.shift base.values.length)⟩

theorem Slots.append_empty (base : Slots) : base.append {} = base := by
  simp [append]

theorem Span.pieces_shift (k : Nat) (span : Span) :
    (span.shift k).pieces = span.pieces.map (Piece.shift k) := by
  have hnumbers : (span.shift k).numbers = span.numbers.map (· + k) := by
    apply List.ext_getElem
    · simp [numbers, shift]
    · intro i _ _
      simp only [numbers, shift, List.getElem_range', List.getElem_map]
      omega
  have hcount : (span.shift k).count = span.count := rfl
  rw [pieces, pieces, hcount, hnumbers]
  by_cases h : span.count = 0
  · rw [if_pos h, if_pos h]
    rfl
  · rw [if_neg h, if_neg h, map_intersperse, List.map_map, List.map_map]
    rfl

/-! ## 2. Runs behind other slots -/

namespace Slots

variable {base : Slots} {name : String}

/-- A binding without slots in `base` has those of its own, moved up. -/
theorem spanOf?_append (h : base.spanOf? name = none) (slots : Slots) :
    (base.append slots).spanOf? name =
      (slots.spanOf? name).map (Span.shift base.values.length) := by
  rw [spanOf?, Option.map_eq_none_iff] at h
  rw [spanOf?, spanOf?, append, List.find?_append, h, Option.none_or, List.find?_map,
    Option.map_map, Option.map_map]
  rfl

theorem append_take (base slots : Slots) (items : List Value) :
    (base.append slots).take items =
      ((slots.take items).1.shift base.values.length, base.append (slots.take items).2) := by
  simp [take, append, Span.shift]

theorem append_reserve (base slots : Slots) (name : String) (count : Nat) :
    (base.append slots).reserve name count =
      ((slots.reserve name count).1.shift base.values.length,
        base.append (slots.reserve name count).2) := by
  simp [reserve, take, append, Span.shift]

/-- What an emission or a run yields, moved behind the slots of `base`. -/
def moved (base : Slots) (result : List Piece × Slots) : List Piece × Slots :=
  (result.1.map (Piece.shift base.values.length), base.append result.2)

end Slots

variable {ctx : Context} {base : Slots}

theorem Context.placeholdersOf_append {name : String} (h : base.spanOf? name = none)
    (slots : Slots) :
    ctx.placeholdersOf name (base.append slots) =
      (ctx.placeholdersOf name slots).map base.moved := by
  rw [placeholdersOf, placeholdersOf, Slots.spanOf?_append h]
  cases slots.spanOf? name with
  | some span =>
    simp only [Option.map_some, Except.map, Slots.moved, Span.pieces_shift]
  | none =>
    rcases ctx.lookup name with e | _ | value
    · rfl
    · rfl
    · dsimp only [Option.map_none]
      by_cases hnested : Value.hasNested value.elements = true
      · rw [if_pos hnested, if_pos hnested]
        rfl
      · rw [if_neg hnested, if_neg hnested, Slots.append_reserve, Span.pieces_shift]
        rfl

theorem Fragment.emit_append {fragment : Fragment}
    (h : ∀ name ∈ fragment.bindings, base.spanOf? name = none) (slots : Slots) :
    fragment.emit ctx (base.append slots) = (fragment.emit ctx slots).map base.moved := by
  cases fragment with
  | verbatim s => rfl
  | clauseBreak => rfl
  | value v =>
    rw [emit, emit, Slots.append_take]
    dsimp only
    rw [Span.pieces_shift]
    rfl
  | values items =>
    rw [emit, emit, Slots.placeholders, Slots.placeholders]
    by_cases hnested : Value.hasNested items = true
    · rw [if_pos hnested, if_pos hnested]
      rfl
    · rw [if_neg hnested, if_neg hnested, Slots.append_take]
      dsimp only
      rw [Span.pieces_shift]
      rfl
  | binding name =>
    apply Context.placeholdersOf_append
    exact h name (by simp [bindings])
  | comparand name ifNull before behind =>
    have hname := h name (by simp [bindings])
    rw [emit, emit]
    rcases ctx.lookup name with e | _ | value
    · rfl
    · rfl
    · dsimp only
      rw [Context.placeholdersOf_append hname]
      rcases ctx.placeholdersOf name slots with e | ⟨pieces, after⟩
      · rfl
      · simp [Except.map, Slots.moved, Piece.shift]
  | fail e => rfl

/-- **A run behind other slots** is the run from no slots, moved: the same error
    or the same pieces with higher numbers, and the same slots behind the others. -/
theorem Template.run_append_slots {t : Template}
    (h : ∀ name ∈ t.bindings, base.spanOf? name = none) (slots : Slots) :
    t.run ctx (base.append slots) =
      ((t.run ctx slots).1.map (List.map (Piece.shift base.values.length)),
        base.append (t.run ctx slots).2) := by
  induction t generalizing slots with
  | nil => rfl
  | cons fragment rest ih =>
    have hfragment : ∀ name ∈ fragment.bindings, base.spanOf? name = none := by
      intro name hname
      exact h name (List.mem_append_left _ hname)
    have hrest : ∀ name ∈ bindings rest, base.spanOf? name = none := by
      intro name hname
      exact h name (List.mem_append_right _ hname)
    rw [run, run, Fragment.emit_append hfragment]
    rcases fragment.emit ctx slots with e | ⟨pieces, middle⟩
    · rfl
    · simp only [Except.map, Slots.moved, ih hrest]
      rcases run ctx rest middle with ⟨e | more, after⟩
      · rfl
      · simp only [List.map_append]

/-! ## 3. The values in the end -/

namespace Slots

variable {slots : Slots} {args : Args}

/-- A span that is moved up is filled as if the values before it were not there. -/
theorem fillSpan_shift (first values : List Value) (entry : String × Span) :
    fillSpan args (first ++ values) (entry.1, entry.2.shift first.length) =
      first ++ fillSpan args values entry := by
  rw [fillSpan, fillSpan]
  rcases args.get? entry.1 with _ | value
  · rfl
  · simp only [overwrite, Span.shift, Nat.add_assoc, List.take_length_add_append,
      List.drop_length_add_append, List.append_assoc]

theorem foldl_fillSpan_shift (entries : List (String × Span)) (first values : List Value) :
    (entries.map fun entry => (entry.1, entry.2.shift first.length)).foldl (fillSpan args)
        (first ++ values) =
      first ++ entries.foldl (fillSpan args) values := by
  induction entries generalizing values with
  | nil => rfl
  | cons entry entries ih =>
    rw [List.map_cons, List.foldl_cons, List.foldl_cons, fillSpan_shift, ih]

theorem fill_append (h : base.InRange) (slots : Slots) (args : Args) :
    (base.append slots).fill args = base.fill args ++ slots.fill args := by
  have hlength : base.values.length = (base.fill args).length := (length_fill h args).symm
  rw [fill, append, List.foldl_append, foldl_fillSpan_append h, hlength]
  exact foldl_fillSpan_shift slots.reserved (base.fill args) slots.values

end Slots

theorem Context.finish_append (ctx : Context) (h : base.InRange) (slots : Slots) :
    ctx.finish (base.append slots) = ctx.finish base ++ ctx.finish slots := by
  rw [finish, finish, finish]
  by_cases hfills : ctx.fills = true
  · rw [if_pos hfills, if_pos hfills, if_pos hfills, Slots.fill_append h]
  · rw [if_neg hfills, if_neg hfills, if_neg hfills]
    rfl

/-! ## 4. The numbers in the text -/

/-- The characters of a symbol, where a placeholder is written by its number. -/
def Symbol.placeholderText : Symbol Nat → List Char
  | .char c => [c]
  | .mark number => '$' :: Nat.toDigits 10 number

/-- A text with `f n` for the number `n` of every placeholder. -/
def Text.renumber (f : Nat → Nat) (s : String) : String :=
  String.ofList (((scan s.toList).map (Symbol.map f)).flatMap Symbol.placeholderText)

namespace Piece

theorem symbols_shift (k : Nat) (piece : Piece) :
    (piece.shift k).symbols = piece.symbols.map (Symbol.map (· + k)) := by
  cases piece with
  | verbatim s => exact (Symbol.map_map_chars _ s.toList).symm
  | slot number => rfl

theorem flatMap_symbols_shift (k : Nat) (pieces : List Piece) :
    (pieces.map (shift k)).flatMap symbols =
      (pieces.flatMap symbols).map (Symbol.map (· + k)) := by
  rw [List.flatMap_map, List.map_flatMap]
  exact congrArg (List.flatMap · pieces) (funext (symbols_shift k))

/-- What pieces say, written out, is their text. -/
theorem flatMap_placeholderText (pieces : List Piece) :
    (pieces.flatMap symbols).flatMap Symbol.placeholderText = written pieces := by
  rw [List.flatMap_assoc, written]
  apply congrArg (List.flatMap · pieces)
  funext piece
  cases piece with
  | verbatim s => simp [symbols, Symbol.chars, Symbol.placeholderText, text, List.flatMap_map]
  | slot number => simp [symbols, Symbol.placeholderText, text]

/-- The text of legible pieces with higher numbers is their text, renumbered. -/
theorem renumber_join {pieces : List Piece} (h : Legible pieces) (k : Nat) :
    Text.renumber (· + k) (join pieces) = join (pieces.map (shift k)) := by
  apply String.toList_inj.mp
  rw [Text.renumber, scan_join h, ← flatMap_symbols_shift, flatMap_placeholderText, toList_join,
    String.toList_ofList]

/-- A reader finds in a renumbered text what there was, under the new numbers. -/
theorem scan_renumber {pieces : List Piece} {k : Nat} (h : Legible pieces)
    (h' : Legible (pieces.map (shift k))) :
    Text.scan (Text.renumber (· + k) (join pieces)).toList =
      (Text.scan (join pieces).toList).map (Symbol.map (· + k)) := by
  rw [renumber_join h, scan_join h', scan_join h, flatMap_symbols_shift]

end Piece

end SqlKit
