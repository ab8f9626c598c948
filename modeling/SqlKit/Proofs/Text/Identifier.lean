/-
  SqlKit/Proofs/Text/Identifier.lean
  ==================================
  **Reading identifiers.**

  What a database reads at the front of a text as an identifier. In double quotes it is
  the name as it stands, except that a quote written twice stands for one, and a quote
  that stands alone ends it. Without quotes it is the longest run of identifier
  characters, and ASCII letters are folded to lower case.

  A quoted name is read back as it was, whatever it contains, and what follows it is
  left alone (`readQuoted_quoteIdent`): no name can end the quotes it stands in.
-/
import Mathlib.Logic.Function.Defs
import SqlKit.Proofs.Text.Placeholder
import SqlKit.Text.Quoted

namespace SqlKit.Text

/-! ## 1. Quoted identifiers -/

/-- A name whose opening quote is read, and what follows its closing quote. A name
    that is never closed is none. -/
def closeQuoted : List Char → Option (List Char × List Char)
  | [] => none
  | '"' :: '"' :: rest => (closeQuoted rest).map fun read => ('"' :: read.1, read.2)
  | '"' :: rest => some ([], rest)
  | c :: rest => (closeQuoted rest).map fun read => (c :: read.1, read.2)

/-- The quoted identifier that a text begins with, and what follows it. -/
def readQuoted : List Char → Option (String × List Char)
  | '"' :: rest => (closeQuoted rest).map fun read => (String.ofList read.1, read.2)
  | _ => none

theorem closeQuoted_cons_of_ne {c : Char} (hc : c ≠ '"') (rest : List Char) :
    closeQuoted (c :: rest) = (closeQuoted rest).map fun read => (c :: read.1, read.2) := by
  rw [closeQuoted]
  · intro tail h
    exact absurd h hc
  · exact hc

theorem closeQuoted_doubleQuotes (cs : List Char) {rest : List Char}
    (hrest : ∀ c ∈ rest.head?, c ≠ '"') :
    closeQuoted (doubleQuotes cs ++ '"' :: rest) = some (cs, rest) := by
  induction cs with
  | nil =>
    cases rest with
    | nil => rfl
    | cons c rest =>
      have hc : c ≠ '"' := hrest c rfl
      simp [doubleQuotes, closeQuoted, hc]
  | cons c cs ih =>
    rw [doubleQuotes, List.flatMap_cons, List.append_assoc]
    by_cases hc : c = '"'
    · subst hc
      change closeQuoted ('"' :: '"' :: (doubleQuotes cs ++ '"' :: rest)) = _
      rw [closeQuoted, ih]
      rfl
    · rw [if_neg hc]
      change closeQuoted (c :: (doubleQuotes cs ++ '"' :: rest)) = _
      rw [closeQuoted_cons_of_ne hc, ih]
      rfl

/-- **A quoted name is read back**, and nothing of what follows it is taken along. -/
theorem readQuoted_quoteIdent (name : String) {rest : List Char}
    (hrest : ∀ c ∈ rest.head?, c ≠ '"') :
    readQuoted ((quoteIdent name).toList ++ rest) = some (name, rest) := by
  rw [toList_quoteIdent, List.append_assoc, List.cons_append]
  change readQuoted ('"' :: (doubleQuotes name.toList ++ '"' :: rest)) = _
  rw [readQuoted, closeQuoted_doubleQuotes name.toList hrest, Option.map_some,
    String.ofList_toList]

/-- Two names with the same quoted form are the same name. -/
theorem quoteIdent_injective : Function.Injective quoteIdent := by
  intro name name' h
  have hnil : ∀ c ∈ ([] : List Char).head?, c ≠ '"' := by simp
  have hname := readQuoted_quoteIdent name hnil
  rw [h, readQuoted_quoteIdent name' hnil] at hname
  exact (Prod.mk.inj (Option.some.inj hname)).1.symm

/-! ## 2. Identifiers -/

/-- A character that an identifier without quotes may begin with: an ASCII letter, an
    underscore, or anything beyond ASCII. -/
def beginsIdentifier (c : Char) : Bool :=
  c.isAlpha || c == '_' || 128 ≤ c.toNat

/-- A character that an identifier without quotes may have in it. -/
def continuesIdentifier (c : Char) : Bool :=
  beginsIdentifier c || c.isDigit || c == '$'

/-- The identifier without quotes that a text begins with, in lower case, and what
    follows it. -/
def readUnquoted : List Char → Option (String × List Char)
  | [] => none
  | c :: rest =>
    if beginsIdentifier c then
      some (String.ofList ((c :: rest.takeWhile continuesIdentifier).map Char.toLower),
        rest.dropWhile continuesIdentifier)
    else none

/-- The identifier that a text begins with, and what follows it. -/
def readIdentifier (cs : List Char) : Option (String × List Char) :=
  (readQuoted cs).or (readUnquoted cs)

theorem readIdentifier_quoteIdent (name : String) {rest : List Char}
    (hrest : ∀ c ∈ rest.head?, c ≠ '"') :
    readIdentifier ((quoteIdent name).toList ++ rest) = some (name, rest) := by
  rw [readIdentifier, readQuoted_quoteIdent name hrest, Option.some_or]

theorem ne_quote_of_beginsIdentifier {c : Char} (h : beginsIdentifier c = true) : c ≠ '"' := by
  rintro rfl
  exact absurd h (by decide)

theorem readIdentifier_unquoted {c : Char} {cs rest : List Char}
    (hc : beginsIdentifier c = true) (hcs : ∀ d ∈ cs, continuesIdentifier d = true)
    (hrest : ∀ d ∈ rest.head?, continuesIdentifier d = false) :
    readIdentifier (c :: cs ++ rest) = some (String.ofList ((c :: cs).map Char.toLower), rest) := by
  have hquoted : readQuoted (c :: cs ++ rest) = none := by
    rw [List.cons_append, readQuoted]
    intro tail h
    exact ne_quote_of_beginsIdentifier hc (List.cons.inj h).1
  obtain ⟨htake, hdrop⟩ := takeWhile_dropWhile_append hcs hrest
  rw [readIdentifier, hquoted, Option.none_or, List.cons_append, readUnquoted, if_pos hc, htake,
    hdrop]

end SqlKit.Text
