/-
  SqlKit/Proofs/Derive/StructBody.lean
  ====================================
  **The scanner reads every struct body.**

  A struct body is a list of fields with commas between them, and a field is its
  attributes, its visibility, its name and its type (`Field`, `structBody`). For
  each such body the scanner finds the names of the fields in their order
  (`fieldNames_structBody`).

  All that is asked of a type is that its angle brackets balance and that no comma
  stands outside of them (`IsType`). Inside a type the scanner counts the brackets
  as `angleDepth` does, so the comma behind a type is the first one that it meets
  with none open (`namesInType_append`). Everything else in a field leads up to
  its name (`namesOutside_field`).
-/
import SqlKit.Derive.Fields

namespace SqlKit.Derive

/-! ## 1. Types -/

/-- What a token adds to the number of open angle brackets; `arrow` says that it
    stands right behind the `-` of an operator. -/
def Token.angle (arrow : Bool) : Token → Int
  | .punct char _ => if char = '<' then 1 else if char = '>' ∧ arrow = false then -1 else 0
  | _ => 0

/-- Whether a token is the `-` of an operator such as `->`. -/
def Token.isDash : Token → Bool
  | .punct char spacing => char == '-' && spacing == .joint
  | _ => false

def Token.isComma : Token → Bool
  | .punct char _ => char == ','
  | _ => false

/-- How many angle brackets tokens open and do not close. -/
def angleDepth (arrow : Bool) : List Token → Int
  | [] => 0
  | token :: rest => token.angle arrow + angleDepth token.isDash rest

/-- A type: tokens whose angle brackets balance, and which have no comma outside
    of them. -/
structure IsType (tokens : List Token) : Prop where
  nonempty : tokens ≠ []
  opened : ∀ i ≤ tokens.length, 0 ≤ angleDepth false (tokens.take i)
  closed : angleDepth false tokens = 0
  enclosed : ∀ i, (h : i < tokens.length) → tokens[i].isComma = true →
    angleDepth false (tokens.take i) ≠ 0

/-! ## 2. Fields -/

/-- An attribute, such as `#[serde(skip)]`. -/
structure Attribute where
  hash : Spacing
  delimiter : Delimiter
  content : List Token

def Attribute.tokens (a : Attribute) : List Token :=
  [.punct '#' a.hash, .group a.delimiter a.content]

/-- `pub`, or `pub` with a scope in parentheses. -/
structure Visibility where
  scope : Option (List Token)

def Visibility.tokens (v : Visibility) : List Token :=
  .ident "pub" :: v.scope.toList.map (.group .parenthesis)

/-- A field, with the comma that may come behind it. -/
structure Field where
  attributes : List Attribute
  visibility : Option Visibility
  name : String
  colon : Spacing
  type : List Token
  isType : IsType type
  comma : Spacing

def Field.tokens (f : Field) : List Token :=
  f.attributes.flatMap Attribute.tokens ++ f.visibility.toList.flatMap Visibility.tokens ++
    .ident f.name :: .punct ':' f.colon :: f.type

/-- A struct body: the fields with a comma between neighbours, and behind the last
    one if it is `trailing`. -/
def structBody (trailing : Bool) : List Field → List Token
  | [] => []
  | [f] => f.tokens ++ if trailing then [.punct ',' f.comma] else []
  | f :: g :: rest => f.tokens ++ .punct ',' f.comma :: structBody trailing (g :: rest)

/-! ## 3. Inside a type -/

/-- Whether an angle bracket is open behind tokens in front of which `depth` are
    open: since some place more have been opened than closed. -/
def Open (depth : Nat) (arrow : Bool) (tokens : List Token) : Prop :=
  0 < depth + angleDepth arrow tokens ∨
    ∃ i ≤ tokens.length, angleDepth arrow (tokens.take i) < angleDepth arrow tokens

/-- Tokens that do not lead out of a type in which `depth` brackets are open: one is
    open at every comma. -/
def StaysInside (depth : Nat) (arrow : Bool) (tokens : List Token) : Prop :=
  ∀ i, (h : i < tokens.length) → tokens[i].isComma = true → Open depth arrow (tokens.take i)

theorem IsType.staysInside {tokens : List Token} (h : IsType tokens) :
    StaysInside 0 false tokens := by
  intro i hi hcomma
  have hopened := h.opened i (Nat.le_of_lt hi)
  have henclosed := h.enclosed i hi hcomma
  left
  omega

theorem IsType.not_open {tokens : List Token} (h : IsType tokens) : ¬Open 0 false tokens := by
  rintro (hopen | ⟨i, hi, hopen⟩)
  · rw [h.closed] at hopen
    exact Int.lt_irrefl 0 hopen
  · rw [h.closed] at hopen
    exact Int.not_lt.mpr (h.opened i hi) hopen

section Inside

variable {token : Token} {tokens : List Token} {depth : Nat} {arrow : Bool}

theorem open_nil : Open depth arrow [] ↔ 0 < depth := by
  simp [Open, angleDepth]

/-- A closing bracket too many closes nothing. -/
theorem open_cons : Open depth arrow (token :: tokens) ↔
    Open (depth + token.angle arrow).toNat token.isDash tokens := by
  have hcons : angleDepth arrow (token :: tokens) =
    token.angle arrow + angleDepth token.isDash tokens := rfl
  have htake (i : Nat) : angleDepth arrow ((token :: tokens).take (i + 1)) =
      token.angle arrow + angleDepth token.isDash (tokens.take i) := rfl
  rw [Open, Open, hcons]
  constructor
  · rintro (h | ⟨_ | i, hi, h⟩)
    · left
      omega
    · left
      rw [List.take_zero, angleDepth] at h
      omega
    · right
      rw [htake] at h
      exact ⟨i, Nat.le_of_succ_le_succ hi, by omega⟩
  · rintro (h | ⟨i, hi, h⟩)
    · by_cases hdepth : 0 ≤ depth + token.angle arrow
      · left
        omega
      · -- the count starts anew behind a bracket that closes nothing
        right
        refine ⟨1, Nat.succ_le_succ (Nat.zero_le _), ?_⟩
        rw [htake, List.take_zero, angleDepth]
        omega
    · right
      refine ⟨i + 1, Nat.succ_le_succ hi, ?_⟩
      rw [htake]
      omega

theorem staysInside_cons : StaysInside depth arrow (token :: tokens) ↔
    (token.isComma = true → 0 < depth) ∧
      StaysInside (depth + token.angle arrow).toNat token.isDash tokens := by
  constructor
  · intro h
    refine ⟨fun hcomma => ?_, fun i hi hcomma => ?_⟩
    · exact open_nil.mp (h 0 (Nat.zero_lt_succ _) hcomma)
    · exact open_cons.mp (h (i + 1) (Nat.succ_lt_succ hi) hcomma)
  · rintro ⟨hhead, htail⟩ (_ | i) hi hcomma
    · exact open_nil.mpr (hhead hcomma)
    · exact open_cons.mpr (htail i (Nat.lt_of_succ_lt_succ hi) hcomma)

/-- The scanner counts the brackets. -/
theorem bracketDepth_eq (char : Char) (spacing : Spacing) :
    bracketDepth depth arrow char = (depth + (Token.punct char spacing).angle arrow).toNat := by
  rw [bracketDepth, Token.angle]
  split
  · omega
  · split <;> omega

/-- A token inside a type leaves the scanner inside. -/
theorem namesInType_cons (h : token.isComma = true → 0 < depth) (rest : List Token) :
    namesInType depth arrow (token :: rest) =
      namesInType (depth + token.angle arrow).toNat token.isDash rest := by
  cases token with
  | punct char spacing =>
    have hcomma : ¬(char = ',' ∧ depth = 0) := by
      rintro ⟨rfl, rfl⟩
      exact Nat.lt_irrefl 0 (h rfl)
    rw [namesInType, if_neg hcomma, bracketDepth_eq char spacing]
    rfl
  | _ => simp [namesInType, Token.angle, Token.isDash]

/-- **Inside a type** the scanner gets past all tokens that do not lead out of it,
    and counts a bracket behind them exactly if one is open. -/
theorem namesInType_append (h : StaysInside depth arrow tokens) (rest : List Token) :
    ∃ depth' arrow', (0 < depth' ↔ Open depth arrow tokens) ∧
      namesInType depth arrow (tokens ++ rest) = namesInType depth' arrow' rest := by
  induction tokens generalizing depth arrow with
  | nil => exact ⟨depth, arrow, open_nil.symm, rfl⟩
  | cons token tokens ih =>
    obtain ⟨hcomma, htail⟩ := staysInside_cons.mp h
    obtain ⟨depth', arrow', hopen, hrun⟩ := ih htail
    refine ⟨depth', arrow', hopen.trans open_cons.symm, ?_⟩
    rw [List.cons_append, namesInType_cons hcomma, hrun]

/-- A type that no bracket is left open in ends at the comma behind it. -/
theorem namesInType_comma (h : StaysInside depth arrow tokens) (hopen : ¬Open depth arrow tokens)
    (spacing : Spacing) (rest : List Token) :
    namesInType depth arrow (tokens ++ .punct ',' spacing :: rest) = namesOutside none rest := by
  obtain ⟨depth', arrow', hdepth, hrun⟩ := namesInType_append h (.punct ',' spacing :: rest)
  have hzero : depth' = 0 := Nat.eq_zero_of_not_pos (mt hdepth.mp hopen)
  rw [hrun, namesInType, if_pos ⟨rfl, hzero⟩]

end Inside

/-! ## 4. Outside of types -/

theorem namesOutside_attributes (last : Option String) (attributes : List Attribute)
    (rest : List Token) :
    namesOutside last (attributes.flatMap Attribute.tokens ++ rest) = namesOutside last rest := by
  induction attributes with
  | nil => rfl
  | cons a attributes ih =>
    rw [List.flatMap_cons, List.append_assoc]
    exact ih

/-- Visibility leaves `pub` behind, which the name of the field replaces. -/
theorem namesOutside_visibility (last : Option String) (visibility : Option Visibility)
    (rest : List Token) : ∃ last', namesOutside last
      (visibility.toList.flatMap Visibility.tokens ++ rest) = namesOutside last' rest := by
  rcases visibility with _ | ⟨_ | scope⟩
  · exact ⟨last, rfl⟩
  · exact ⟨some "pub", rfl⟩
  · exact ⟨some "pub", rfl⟩

/-- **A field** yields its name and leaves the scanner in its type, outside of all
    angle brackets. -/
theorem namesOutside_field (last : Option String) (f : Field) (rest : List Token) :
    ∃ arrow, namesOutside last (f.tokens ++ rest) =
      (namesInType 0 arrow rest).map (f.name :: ·) := by
  obtain ⟨last', hvisibility⟩ := namesOutside_visibility last f.visibility
    (.ident f.name :: .punct ':' f.colon :: f.type ++ rest)
  obtain ⟨depth, arrow, hdepth, htype⟩ := namesInType_append f.isType.staysInside rest
  obtain rfl : depth = 0 := Nat.eq_zero_of_not_pos (mt hdepth.mp f.isType.not_open)
  refine ⟨arrow, ?_⟩
  rw [Field.tokens, List.append_assoc, List.append_assoc, namesOutside_attributes, hvisibility]
  rw [List.cons_append, List.cons_append, namesOutside, namesOutside, if_pos rfl, htype]

/-- **The scanner reads every struct body**: the names of the fields, in the order
    of declaration. -/
theorem fieldNames_structBody (trailing : Bool) (fields : List Field) :
    fieldNames (structBody trailing fields) = .ok (fields.map Field.name) := by
  rw [fieldNames]
  generalize (none : Option String) = last
  induction fields generalizing last with
  | nil => rfl
  | cons f rest ih =>
    cases rest with
    | nil =>
      obtain ⟨arrow, hfield⟩ := namesOutside_field last f
        (if trailing then [.punct ',' f.comma] else [])
      rw [structBody, hfield]
      cases trailing <;> rfl
    | cons g rest =>
      obtain ⟨arrow, hfield⟩ := namesOutside_field last f
        (.punct ',' f.comma :: structBody trailing (g :: rest))
      rw [structBody, hfield, namesInType, if_pos ⟨rfl, rfl⟩, ih]
      rfl

/-- Commas and an arrow between angle brackets, behind an attribute and a scoped
    visibility. -/
theorem fieldNames_structBody_generic :
    let map : List Token := [.ident "Map", .punct '<' .alone, .ident "String", .punct ',' .alone,
      .ident "Vec", .punct '<' .alone, .ident "u8", .punct '>' .joint, .punct '>' .alone]
    let callback : List Token := [.ident "Box", .punct '<' .alone, .ident "dyn", .ident "Fn",
      .group .parenthesis [.ident "i32"], .punct '-' .joint, .punct '>' .alone, .ident "i32",
      .punct '>' .alone]
    IsType map ∧ IsType callback ∧
      fieldNames (.punct '#' .alone :: .group .bracket [.ident "skip"] :: .ident "pub" ::
        .group .parenthesis [.ident "crate"] :: .ident "r#type" :: .punct ':' .alone :: map ++
        .punct ',' .alone :: .ident "f" :: .punct ':' .alone :: callback) = .ok ["r#type", "f"] := by
  intro map callback
  have hmap : IsType map := ⟨List.cons_ne_nil _ _, by decide, by decide, by decide⟩
  have hcallback : IsType callback := ⟨List.cons_ne_nil _ _, by decide, by decide, by decide⟩
  have hnames := fieldNames_structBody false
    [⟨[⟨.alone, .bracket, [.ident "skip"]⟩], some ⟨some [.ident "crate"]⟩, "r#type", .alone, map,
      hmap, .alone⟩, ⟨[], none, "f", .alone, callback, hcallback, .alone⟩]
  exact ⟨hmap, hcallback, hnames⟩

end SqlKit.Derive
