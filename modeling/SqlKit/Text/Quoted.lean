/-
  SqlKit/Text/Quoted.lean
  =======================
  **Quoted identifiers.**

  A quoted identifier stands between double quotes, and a double quote inside
  it is written twice. Any text can be quoted.
-/

namespace SqlKit.Text

/-- Every double quote written twice, and every other character once. -/
def doubleQuotes (cs : List Char) : List Char :=
  cs.flatMap fun c => if c = '"' then [c, c] else [c]

/-- The quoted form of an identifier. -/
def quoteIdent (name : String) : String :=
  String.ofList ('"' :: doubleQuotes name.toList ++ ['"'])

@[simp]
theorem toList_quoteIdent (name : String) :
    (quoteIdent name).toList = '"' :: doubleQuotes name.toList ++ ['"'] := by
  simp [quoteIdent]

end SqlKit.Text
