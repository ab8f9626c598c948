/-
  SqlKit/Proofs/Text/Placeholder.lean
  ===================================
  **Reading the placeholders of a finished text.**

  A reader of the text alone finds a placeholder where a dollar sign is followed
  by digits, and takes all of the digits. `Text.scan` is that reader: it splits
  a text into characters and placeholder numbers, from left to right.

  What the pieces of a text say and what the reader finds agree as long as no
  fixed text contains a dollar sign and no placeholder is followed by a digit
  (`Piece.Legible`). The main statement is `scan_join`.
-/
import SqlKit.Render.Dialect

namespace SqlKit

/-! ## 1. Characters and marks -/

/-- A character of a text, or something that stands in the text. -/
inductive Symbol (α : Type) where
  | char (c : Char)
  | mark (content : α)

namespace Symbol

variable {α β : Type}

/-- The same symbol with another content. -/
def map (f : α → β) : Symbol α → Symbol β
  | .char c => .char c
  | .mark content => .mark (f content)

/-- What stands in the text, if it is no character. -/
def mark? : Symbol α → Option α
  | .char _ => none
  | .mark content => some content

/-- A text without marks. -/
def chars (cs : List Char) : List (Symbol α) :=
  cs.map .char

@[simp]
theorem map_char (f : α → β) (c : Char) : map f (.char c) = .char c := rfl

@[simp]
theorem chars_nil : chars (α := α) [] = [] := rfl

@[simp]
theorem chars_cons (c : Char) (cs : List Char) : chars (α := α) (c :: cs) = .char c :: chars cs :=
  rfl

@[simp]
theorem chars_append (cs ds : List Char) :
    chars (α := α) (cs ++ ds) = chars cs ++ chars ds :=
  List.map_append

@[simp]
theorem map_map_chars (f : α → β) (cs : List Char) : (chars cs).map (map f) = chars cs := by
  simp only [chars, List.map_map]
  rfl

@[simp]
theorem filterMap_mark?_chars (cs : List Char) : (chars cs).filterMap (mark? (α := α)) = [] := by
  induction cs with
  | nil => rfl
  | cons c cs ih => simpa only [chars_cons, List.filterMap_cons, mark?] using ih

end Symbol

/-! ## 2. The reader -/

namespace Text

/-- The characters and placeholders of a text. A dollar sign without a digit
    behind it is a character like any other. -/
def scan : List Char → List (Symbol Nat)
  | [] => []
  | c :: rest =>
    if c = '$' ∧ rest.takeWhile Char.isDigit ≠ [] then
      .mark (Nat.ofDigitChars 10 (rest.takeWhile Char.isDigit) 0) ::
        scan (rest.dropWhile Char.isDigit)
    else .char c :: scan rest
termination_by cs => cs.length
decreasing_by
  · exact Nat.lt_succ_of_le (List.dropWhile_sublist _).length_le
  · exact Nat.lt_succ_self _

/-- A text that does not begin with a digit. -/
def NoDigitFirst (cs : List Char) : Prop :=
  ∀ c ∈ cs.head?, c.isDigit = false

@[simp]
theorem noDigitFirst_nil : NoDigitFirst [] := by
  simp [NoDigitFirst]

@[simp]
theorem noDigitFirst_cons (c : Char) (cs : List Char) :
    NoDigitFirst (c :: cs) ↔ c.isDigit = false := by
  simp [NoDigitFirst]

theorem scan_cons_of_ne {c : Char} (hc : c ≠ '$') (rest : List Char) :
    scan (c :: rest) = .char c :: scan rest := by
  rw [scan, if_neg (fun h => hc h.1)]

theorem scan_append_of_notMem {cs : List Char} (hcs : '$' ∉ cs) (rest : List Char) :
    scan (cs ++ rest) = Symbol.chars cs ++ scan rest := by
  induction cs with
  | nil => rfl
  | cons c cs ih =>
    have hc : c ≠ '$' := fun h => hcs (h ▸ List.mem_cons_self)
    have hrest : '$' ∉ cs := fun h => hcs (List.mem_cons_of_mem c h)
    rw [List.cons_append, scan_cons_of_ne hc, ih hrest, Symbol.chars_cons, List.cons_append]

theorem takeWhile_dropWhile_append {p : Char → Bool} {cs rest : List Char}
    (hcs : ∀ c ∈ cs, p c = true) (hrest : ∀ c ∈ rest.head?, p c = false) :
    (cs ++ rest).takeWhile p = cs ∧ (cs ++ rest).dropWhile p = rest := by
  rw [List.takeWhile_append_of_pos hcs, List.dropWhile_append_of_pos hcs]
  cases rest with
  | nil => simp
  | cons c rest => simp [hrest c rfl]

theorem takeWhile_dropWhile_digits (n : Nat) {rest : List Char} (hrest : NoDigitFirst rest) :
    (Nat.toDigits 10 n ++ rest).takeWhile Char.isDigit = Nat.toDigits 10 n ∧
      (Nat.toDigits 10 n ++ rest).dropWhile Char.isDigit = rest := by
  have hdigits : ∀ c ∈ Nat.toDigits 10 n, c.isDigit = true := by
    intro c hc
    exact Nat.isDigit_of_mem_toDigits (by decide) (by decide) hc
  exact takeWhile_dropWhile_append hdigits hrest

theorem scan_placeholder (n : Nat) {rest : List Char} (hrest : NoDigitFirst rest) :
    scan ('$' :: (Nat.toDigits 10 n ++ rest)) = .mark n :: scan rest := by
  obtain ⟨htake, hdrop⟩ := takeWhile_dropWhile_digits n hrest
  rw [scan, htake, hdrop, if_pos ⟨rfl, Nat.toDigits_ne_nil⟩, Nat.ofDigitChars_ten_toDigits]

end Text

/-! ## 3. Pieces that can be read back -/

namespace Piece

/-- What a reader is to find where a piece stands. -/
def symbols : Piece → List (Symbol Nat)
  | .verbatim text => Symbol.chars text.toList
  | .slot number => [.mark number]

/-- The characters of a text given by its pieces. -/
def written (pieces : List Piece) : List Char :=
  pieces.flatMap fun piece => piece.text.toList

theorem toList_join (pieces : List Piece) : (join pieces).toList = written pieces := by
  rw [join, String.toList_join, List.flatMap_map, written]

@[simp]
theorem written_nil : written [] = [] := rfl

@[simp]
theorem written_verbatim_cons (text : String) (rest : List Piece) :
    written (.verbatim text :: rest) = text.toList ++ written rest := rfl

@[simp]
theorem written_slot_cons (number : Nat) (rest : List Piece) :
    written (.slot number :: rest) = '$' :: (Nat.toDigits 10 number ++ written rest) := by
  simp [written, text]

@[simp]
theorem written_append (ps qs : List Piece) : written (ps ++ qs) = written ps ++ written qs :=
  List.flatMap_append

/-- Pieces from whose text the placeholders can be read back: no fixed text
    contains a dollar sign, and no placeholder is followed by a digit. -/
def Legible : List Piece → Prop
  | [] => True
  | .verbatim text :: rest => '$' ∉ text.toList ∧ Legible rest
  | .slot _ :: rest => Text.NoDigitFirst (written rest) ∧ Legible rest

/-- **Legible pieces are read back**: the text has the placeholders that the
    pieces say, in their places. -/
theorem scan_join {pieces : List Piece} (h : Legible pieces) :
    Text.scan (join pieces).toList = pieces.flatMap symbols := by
  rw [toList_join]
  induction pieces with
  | nil => simp [Text.scan]
  | cons piece rest ih =>
    cases piece with
    | verbatim text =>
      rw [written_verbatim_cons, Text.scan_append_of_notMem h.1, ih h.2]
      rfl
    | slot number =>
      rw [written_slot_cons, Text.scan_placeholder number h.1, ih h.2]
      rfl

end Piece

/-! ## 4. The placeholders of a rendered statement -/

namespace Rendered

/-- The numbers of the placeholders of a statement, from left to right. -/
def placeholders (r : Rendered) : List Nat :=
  (Text.scan r.sql.toList).filterMap Symbol.mark?

/-- The value in a slot, if there is such a slot. -/
def slotValue (values : List Value) : Nat → Option Value
  | 0 => none
  | number + 1 => values[number]?

@[simp]
theorem slotValue_succ (values : List Value) (number : Nat) :
    slotValue values (number + 1) = values[number]? := rfl

/-- The text of a statement with every placeholder replaced by the value in its
    slot. -/
def inPlace (r : Rendered) : List (Symbol (Option Value)) :=
  (Text.scan r.sql.toList).map (Symbol.map (slotValue r.values))

end Rendered

end SqlKit
