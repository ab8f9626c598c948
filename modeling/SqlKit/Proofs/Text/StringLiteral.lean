/-
  SqlKit/Proofs/Text/StringLiteral.lean
  =====================================
  **Reading string literals.**

  What a compiler reads at the front of a text as a string literal: the characters up to
  the closing quote, where a backslash stands for the quote or the backslash behind it, or
  for the character whose code point follows in hexadecimal digits.

  A literal is read back as its content, whatever that is, and what follows the literal is
  left alone (`readLiteral_stringLiteral`). Which characters are written by their code
  points makes no difference.
-/
import SqlKit.Text.Escaped

namespace SqlKit.Text

/-! ## 1. Hexadecimal digits -/

def hexValue? (c : Char) : Option Nat :=
  if '0' ≤ c ∧ c ≤ '9' then some (c.toNat - '0'.toNat)
  else if 'a' ≤ c ∧ c ≤ 'f' then some (c.toNat - 'a'.toNat + 10)
  else none

/-- Each of the sixteen digits has the value that it is written for, and none of them
    closes a code point. -/
theorem hexValue?_digitChar {d : Nat} (h : d < 16) :
    hexValue? d.digitChar = some d ∧ d.digitChar ≠ '\x7d' := by
  have hall : ∀ d < 16, hexValue? d.digitChar = some d ∧ d.digitChar ≠ '\x7d' := by decide
  exact hall d h

/-! ## 2. The reader -/

mutual

/-- The content of a literal whose opening quote is read, and what follows its closing
    quote. A literal that is never closed is none. -/
def closeLiteral : List Char → Option (List Char × List Char)
  | [] => none
  | '"' :: rest => some ([], rest)
  | '\\' :: '"' :: rest => (closeLiteral rest).map fun read => ('"' :: read.1, read.2)
  | '\\' :: '\\' :: rest => (closeLiteral rest).map fun read => ('\\' :: read.1, read.2)
  | '\\' :: 'u' :: '\x7b' :: rest => closeCode 0 rest
  | '\\' :: _ => none
  | c :: rest => (closeLiteral rest).map fun read => (c :: read.1, read.2)

/-- The same within a code point, whose digits so far make the number. -/
def closeCode (number : Nat) : List Char → Option (List Char × List Char)
  | [] => none
  | '\x7d' :: rest =>
    (closeLiteral rest).map fun read => (Char.ofNat number :: read.1, read.2)
  | c :: rest => (hexValue? c).bind fun d => closeCode (16 * number + d) rest

end

/-- The content of the string literal that a text begins with, and what follows it. -/
def readLiteral : List Char → Option (String × List Char)
  | '"' :: rest => (closeLiteral rest).map fun read => (String.ofList read.1, read.2)
  | _ => none

theorem closeLiteral_cons_of_ne {c : Char} (hquote : c ≠ '"') (hbackslash : c ≠ '\\')
    (rest : List Char) :
    closeLiteral (c :: rest) = (closeLiteral rest).map fun read => (c :: read.1, read.2) := by
  rw [closeLiteral]
  all_goals simp [hquote, hbackslash]

theorem closeCode_digit {d : Nat} (h : d < 16) (number : Nat) (rest : List Char) :
    closeCode number (d.digitChar :: rest) = closeCode (16 * number + d) rest := by
  obtain ⟨hvalue, hne⟩ := hexValue?_digitChar h
  rw [closeCode, hvalue, Option.bind_some]
  exact hne

/-- The digits of a number are read as the number. -/
theorem closeCode_toDigits (number : Nat) (rest : List Char) :
    closeCode 0 (Nat.toDigits 16 number ++ rest) = closeCode number rest := by
  induction number using Nat.strongRecOn generalizing rest with
  | ind number ih =>
    rw [Nat.toDigits_eq_if (by decide)]
    split
    · rename_i hlt
      rw [List.singleton_append, closeCode_digit hlt]
      simp
    · rename_i hle
      have hdigit : number % 16 < 16 := Nat.mod_lt _ (by decide)
      rw [List.append_assoc, List.singleton_append, ih (number / 16) (by omega),
        closeCode_digit hdigit, Nat.div_add_mod]

/-! ## 3. Reading back -/

/-- A character is read from what it is written as. -/
theorem closeLiteral_escapeChar (c : Char) (rest : List Char) :
    closeLiteral (escapeChar c ++ rest) =
      (closeLiteral rest).map fun read => (c :: read.1, read.2) := by
  rw [escapeChar]
  split
  · rename_i hescaped
    rcases hescaped with rfl | rfl <;> simp [closeLiteral]
  · rename_i hplain
    rw [not_or] at hplain
    split
    · have hcode : ['\\', 'u', '\x7b'] ++ Nat.toDigits 16 c.toNat ++ ['\x7d'] ++ rest =
          '\\' :: 'u' :: '\x7b' :: (Nat.toDigits 16 c.toNat ++ '\x7d' :: rest) := by simp
      rw [hcode, closeLiteral, closeCode_toDigits, closeCode, Char.ofNat_toNat]
    · exact closeLiteral_cons_of_ne hplain.1 hplain.2 rest

theorem closeLiteral_flatMap_escapeChar (cs rest : List Char) :
    closeLiteral (cs.flatMap escapeChar ++ '"' :: rest) = some (cs, rest) := by
  induction cs with
  | nil => simp [closeLiteral]
  | cons c cs ih =>
    rw [List.flatMap_cons, List.append_assoc, closeLiteral_escapeChar, ih]
    rfl

/-- **A string literal is read back**, and nothing of what follows it is taken along. -/
theorem readLiteral_stringLiteral (content : String) (rest : List Char) :
    readLiteral ((stringLiteral content).toList ++ rest) = some (content, rest) := by
  have htext : (stringLiteral content).toList ++ rest =
      '"' :: (content.toList.flatMap escapeChar ++ '"' :: rest) := by
    rw [stringLiteral, String.toList_ofList]
    simp
  rw [htext, readLiteral, closeLiteral_flatMap_escapeChar, Option.map_some, String.ofList_toList]

end SqlKit.Text
