/-
  SqlKit/Text/AsciiCase.lean
  ==========================
  **Comparison of names without regard to ASCII case.**

  Column names and sort directions compare after folding the letters `A` to `Z`
  to lower case. No other character is folded: `É` and `é` stay different, as do
  a letter and its full-width form.
-/

namespace SqlKit.Text

/-- The characters of a text with the letters `A` to `Z` folded to lower case. -/
def foldCase (s : String) : List Char :=
  s.toList.map Char.toLower

/-- Whether two texts differ at most in the case of ASCII letters. -/
def sameName (a b : String) : Bool :=
  foldCase a == foldCase b

theorem sameName_iff {a b : String} : sameName a b = true ↔ foldCase a = foldCase b := by
  simp [sameName]

end SqlKit.Text
