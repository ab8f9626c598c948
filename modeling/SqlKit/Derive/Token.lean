/-
  SqlKit/Derive/Token.lean
  ========================
  **Tokens of a struct declaration.**

  The input and output of deriving are token trees: identifiers, punctuation
  characters, literals, and groups of tokens between delimiters. A raw
  identifier carries its `r#`. A punctuation character is `joint` when the next
  character belongs to the same operator, as the `-` of `->` does.

  A string literal is kept by its content. How it is written down, with
  combining marks escaped, is a matter of its text only.
-/
import SqlKit.Text.Escaped

namespace SqlKit.Derive

/-- Whether a punctuation character is followed at once by another one of the
    same operator. -/
inductive Spacing where
  | alone | joint
deriving DecidableEq, Repr

/-- What stands around a group. -/
inductive Delimiter where
  | parenthesis | bracket | brace
  /-- A group without visible delimiters. -/
  | none
deriving DecidableEq, Repr

def Delimiter.opening : Delimiter → List String
  | .parenthesis => ["("]
  | .bracket => ["["]
  | .brace => ["\x7b"]
  | .none => []

def Delimiter.closing : Delimiter → List String
  | .parenthesis => [")"]
  | .bracket => ["]"]
  | .brace => ["\x7d"]
  | .none => []

/-- A token tree. -/
inductive Token where
  | ident (name : String)
  | punct (char : Char) (spacing : Spacing)
  /-- A literal by its source text. -/
  | literal (text : String)
  /-- A string literal by its content. -/
  | string (content : String)
  | group (delimiter : Delimiter) (tokens : List Token)

mutual

/-- The words of a token: a group is written out with its delimiters. -/
def Token.words : Token → List String
  | .ident name => [name]
  | .punct char _ => [char.toString]
  | .literal text => [text]
  | .string content => [Text.stringLiteral content]
  | .group delimiter tokens => delimiter.opening ++ Token.wordsOf tokens ++ delimiter.closing

/-- The words of tokens in a row. -/
def Token.wordsOf : List Token → List String
  | [] => []
  | token :: rest => token.words ++ Token.wordsOf rest

end

/-- The text of tokens: all words, separated by single blanks. -/
def Token.text (tokens : List Token) : String :=
  " ".intercalate (Token.wordsOf tokens)

end SqlKit.Derive
