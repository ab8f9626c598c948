/-
  SqlKit/Proofs/Render/Lexeme.lean
  ================================
  **Reading a finished text word by word.**

  A text together with its values is a list of lexemes: quoted names, words,
  values and single characters. `Lexeme.read` finds them again. A quoted name
  ends at the first double quote that is not written twice, whatever the name
  contains, and a placeholder stands for the next value.

  Lexemes are read back as they were written if no two of them run together
  (`Lexeme.Legible`), that is if only single characters follow names, words and
  values. The main statement is `read_written`.
-/
import SqlKit.Proofs.Render.Unshared
import SqlKit.Text.Quoted

namespace SqlKit

/-! ## 1. Words and quoted names -/

namespace Text

/-- A character of a word: an ASCII letter, a digit or an underscore. -/
def isWordChar (c : Char) : Bool :=
  c.isAlphanum || c == '_'

/-- Whether a text is a word. -/
def IsWord (s : String) : Prop :=
  s ≠ "" ∧ ∀ c ∈ s.toList, isWordChar c = true

instance : DecidablePred IsWord := fun s =>
  decidable_of_iff (s ≠ "" ∧ s.toList.all isWordChar = true) (by rw [IsWord, List.all_eq_true])

/-- A quoted name whose opening quote is read, and what follows it. -/
def readName : List Char → List Char × List Char
  | [] => ([], [])
  | '"' :: '"' :: rest => ('"' :: (readName rest).1, (readName rest).2)
  | '"' :: rest => ([], rest)
  | c :: rest => (c :: (readName rest).1, (readName rest).2)

theorem length_readName_le (cs : List Char) : (readName cs).2.length ≤ cs.length := by
  fun_induction readName cs with
  | case1 => exact Nat.le_refl _
  | case2 rest ih => exact Nat.le_succ_of_le (Nat.le_succ_of_le ih)
  | case3 rest h => exact Nat.le_succ _
  | case4 c rest h h' ih => exact Nat.le_succ_of_le ih

theorem readName_cons_of_ne {c : Char} (hc : c ≠ '"') (rest : List Char) :
    readName (c :: rest) = (c :: (readName rest).1, (readName rest).2) := by
  rw [readName]
  · intro tail h
    exact absurd h hc
  · exact hc

theorem readName_doubleQuotes (cs : List Char) {rest : List Char}
    (hrest : ∀ c ∈ rest.head?, c ≠ '"') :
    readName (doubleQuotes cs ++ '"' :: rest) = (cs, rest) := by
  induction cs with
  | nil =>
    cases rest with
    | nil => rfl
    | cons c rest =>
      have hc : c ≠ '"' := hrest c rfl
      simp [doubleQuotes, readName, hc]
  | cons c cs ih =>
    rw [doubleQuotes, List.flatMap_cons, List.append_assoc]
    by_cases hc : c = '"'
    · subst hc
      change readName ('"' :: '"' :: (doubleQuotes cs ++ '"' :: rest)) = _
      rw [readName, ih]
    · rw [if_neg hc]
      change readName (c :: (doubleQuotes cs ++ '"' :: rest)) = _
      rw [readName_cons_of_ne hc, ih]

end Text

/-! ## 2. Lexemes -/

/-- A part of a text that is read as a whole. -/
inductive Lexeme where
  /-- A quoted name. -/
  | name (s : String)
  | word (s : String)
  /-- A placeholder, which stands for a value. -/
  | value (v : Value)
  /-- Any other character. -/
  | sign (c : Char)

namespace Lexeme

open Text (isWordChar IsWord readName quoteIdent)

/-- A lexeme as it is written, with its value in place. -/
def symbols : Lexeme → List (Symbol Value)
  | .name s => Symbol.chars (quoteIdent s).toList
  | .word s => Symbol.chars s.toList
  | .value v => [.mark v]
  | .sign c => [.char c]

/-- Whether a character may stand for itself: it begins nothing else. -/
def IsSign (c : Char) : Prop :=
  c ≠ '"' ∧ c ≠ '$' ∧ isWordChar c = false

instance : DecidablePred IsSign := fun c =>
  inferInstanceAs (Decidable (c ≠ '"' ∧ c ≠ '$' ∧ isWordChar c = false))

/-- Whether a lexeme is a single character. -/
def isSign : Lexeme → Bool
  | .sign _ => true
  | _ => false

/-- Whether what follows may be told from a name, word or value before it. -/
def Breaks (lexemes : List Lexeme) : Prop :=
  ∀ x ∈ lexemes.head?, x.isSign = true

/-- Lexemes that do not run together in the text. -/
inductive Legible : List Lexeme → Prop where
  | nil : Legible []
  | sign {c : Char} {rest : List Lexeme} (hc : IsSign c) (h : Legible rest) :
    Legible (.sign c :: rest)
  | name (s : String) {rest : List Lexeme} (hrest : Breaks rest) (h : Legible rest) :
    Legible (.name s :: rest)
  | word {s : String} {rest : List Lexeme} (hs : IsWord s) (hrest : Breaks rest)
    (h : Legible rest) : Legible (.word s :: rest)
  | value (v : Value) {rest : List Lexeme} (hrest : Breaks rest) (h : Legible rest) :
    Legible (.value v :: rest)

/-- Legible texts may follow each other where a single character comes between. -/
theorem Legible.append {xs ys : List Lexeme} (hxs : Legible xs) (hys : Legible ys)
    (hbreak : Breaks ys) : Legible (xs ++ ys) := by
  have hnext {zs : List Lexeme} (hzs : Breaks zs) : Breaks (zs ++ ys) := by
    cases zs with
    | nil => exact hbreak
    | cons z zs => exact hzs
  induction hxs with
  | nil => exact hys
  | sign hc _ ih => exact .sign hc ih
  | name s hrest _ ih => exact .name s (hnext hrest) ih
  | word hs hrest _ ih => exact .word hs (hnext hrest) ih
  | value v hrest _ ih => exact .value v (hnext hrest) ih

/-! ## 3. Reading lexemes -/

/-- The lexemes of a text whose placeholders stand for the given values. -/
def read : List Char → List Value → List Lexeme
  | [], _ => []
  | c :: rest, values =>
    if c = '"' then
      .name (String.ofList (readName rest).1) :: read (readName rest).2 values
    else if c = '$' then
      .value (values.headD .null) :: read (rest.dropWhile Char.isDigit) values.tail
    else if isWordChar c then
      .word (String.ofList (c :: rest.takeWhile isWordChar)) ::
        read (rest.dropWhile isWordChar) values
    else .sign c :: read rest values
termination_by cs => cs.length
decreasing_by
  · exact Nat.lt_succ_of_le (Text.length_readName_le rest)
  · exact Nat.lt_succ_of_le (List.dropWhile_sublist _).length_le
  · exact Nat.lt_succ_of_le (List.dropWhile_sublist _).length_le
  · exact Nat.lt_succ_self _

theorem read_sign {c : Char} (hc : IsSign c) (rest : List Char) (values : List Value) :
    read (c :: rest) values = .sign c :: read rest values := by
  rw [read, if_neg hc.1, if_neg hc.2.1, if_neg (by simp [hc.2.2])]

theorem read_name (s : String) {rest : List Char} (hrest : ∀ c ∈ rest.head?, c ≠ '"')
    (values : List Value) :
    read ((quoteIdent s).toList ++ rest) values = .name s :: read rest values := by
  have hname := Text.readName_doubleQuotes s.toList hrest
  rw [Text.toList_quoteIdent, List.append_assoc, List.cons_append]
  change read ('"' :: (Text.doubleQuotes s.toList ++ '"' :: rest)) values = _
  rw [read, if_pos rfl, hname, String.ofList_toList]

theorem isWordChar_ne {c : Char} (h : isWordChar c = true) : c ≠ '"' ∧ c ≠ '$' := by
  constructor
  · rintro rfl
    exact absurd h (by decide)
  · rintro rfl
    exact absurd h (by decide)

theorem read_word {s : String} (hs : IsWord s) {rest : List Char}
    (hrest : ∀ c ∈ rest.head?, isWordChar c = false) (values : List Value) :
    read (s.toList ++ rest) values = .word s :: read rest values := by
  obtain ⟨hne, hchars⟩ := hs
  rcases hcs : s.toList with _ | ⟨c, cs⟩
  · exact absurd (String.toList_eq_nil_iff.mp hcs) hne
  · rw [hcs, List.forall_mem_cons] at hchars
    obtain ⟨htake, hdrop⟩ := Text.takeWhile_dropWhile_append hchars.2 hrest
    obtain ⟨hquote, hdollar⟩ := isWordChar_ne hchars.1
    rw [List.cons_append, read, if_neg hquote, if_neg hdollar, if_pos hchars.1, htake, hdrop,
      ← hcs, String.ofList_toList]

theorem read_value (k : Nat) (v : Value) {rest : List Char} (hrest : Text.NoDigitFirst rest)
    (values : List Value) :
    read ('$' :: (Nat.toDigits 10 k ++ rest)) (v :: values) = .value v :: read rest values := by
  have hdrop := (Text.takeWhile_dropWhile_digits k hrest).2
  rw [read, if_neg (by decide), if_pos rfl, hdrop, List.headD_cons, List.tail_cons]

/-! ## 4. Reading what was written -/

/-- The text of lexemes, with their values numbered in order from `k + 1` on. -/
def written (k : Nat) (lexemes : List Lexeme) : List Char :=
  Symbol.number k (lexemes.flatMap symbols)

/-- The values of lexemes, in order. -/
def values (lexemes : List Lexeme) : List Value :=
  Symbol.marks (lexemes.flatMap symbols)

theorem written_cons (k : Nat) (x : Lexeme) (rest : List Lexeme) :
    written k (x :: rest) =
      Symbol.number k x.symbols ++ written (k + (Symbol.marks x.symbols).length) rest := by
  rw [written, List.flatMap_cons, Symbol.number_append, written]

theorem values_cons (x : Lexeme) (rest : List Lexeme) :
    values (x :: rest) = Symbol.marks x.symbols ++ values rest := by
  rw [values, List.flatMap_cons, Symbol.marks_append, values]

theorem isSign_of_mem_head? {lexemes : List Lexeme} (h : Legible lexemes) (hbreak : Breaks lexemes)
    (k : Nat) : ∀ c ∈ (written k lexemes).head?, IsSign c := by
  cases h with
  | nil => simp [written, Symbol.number]
  | sign hc h =>
    rw [written_cons]
    rintro c (_ | _)
    exact hc
  | _ => cases hbreak _ rfl

/-- **Legible lexemes are read back** from their text and their values. -/
theorem read_written {lexemes : List Lexeme} (h : Legible lexemes) (k : Nat) :
    read (written k lexemes) (values lexemes) = lexemes := by
  induction h generalizing k with
  | nil => rw [written, List.flatMap_nil, Symbol.number, read]
  | sign hc _ ih =>
    rw [written_cons, values_cons]
    exact (read_sign hc _ _).trans (congrArg _ (ih k))
  | name s hrest h ih =>
    have hnext := isSign_of_mem_head? h hrest k
    rw [written_cons, values_cons, symbols, Symbol.number_chars, Symbol.marks_chars]
    exact (read_name s (fun c hc => (hnext c hc).1) _).trans (congrArg _ (ih k))
  | word hs hrest h ih =>
    have hnext := isSign_of_mem_head? h hrest k
    rw [written_cons, values_cons, symbols, Symbol.number_chars, Symbol.marks_chars]
    exact (read_word hs (fun c hc => (hnext c hc).2.2) _).trans (congrArg _ (ih k))
  | @value v rest hrest h ih =>
    have hdigit : Text.NoDigitFirst (written (k + 1) rest) := fun c hc => by
      have hword := (isSign_of_mem_head? h hrest (k + 1) c hc).2.2
      simp only [isWordChar, Char.isAlphanum, Bool.or_eq_false_iff] at hword
      exact hword.1.2
    rw [written_cons, values_cons]
    simp only [symbols, Symbol.number, Symbol.marks_mark_cons, Symbol.marks_nil, List.append_nil,
      List.length_singleton, List.cons_append, List.nil_append]
    rw [read_value (k + 1) v hdigit, ih (k + 1)]

end Lexeme

end SqlKit
