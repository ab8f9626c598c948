/-
  SqlKit/Proofs/Derive/Outcome.lean
  =================================
  **What deriving comes to, for every item.**

  An item is any sequence of tokens. Its first keyword decides whether it is a
  struct, and the two tokens behind the keyword `struct` whether the struct has a
  name and named fields; all that stands in front of the keyword is passed over.
  `Outcome` lists these cases, each with its condition. One of them applies
  (`exists_outcome`), and deriving ends in each as the case says
  (`expand_of_outcome`), so the cases exclude each other (`expand_eq_iff`).

  The words of an implementation are written out, a column as a string literal,
  which is read back as the column whatever the field is called.
-/
import SqlKit.Derive.Expand
import SqlKit.Proofs.Derive.NamelessColon
import SqlKit.Proofs.Text.StringLiteral

namespace SqlKit.Derive

/-! ## 1. The first keyword of an item -/

/-- The identifiers that say what an item is. -/
def Token.isKeyword : Token → Bool
  | .ident name => name == "struct" || name == "enum" || name == "union"
  | _ => false

/-- The first keyword of an item, with what follows it. -/
def Opens (keyword : String) (item rest : List Token) : Prop :=
  ∃ before, item = before ++ .ident keyword :: rest ∧ ∀ token ∈ before, token.isKeyword = false

theorem findStruct_append {before : List Token} (h : ∀ token ∈ before, token.isKeyword = false)
    (rest : List Token) : findStruct (before ++ rest) = findStruct rest := by
  induction before with
  | nil => rfl
  | cons token before ih =>
    rw [List.forall_mem_cons] at h
    have hrest := ih h.2
    cases token with
    | ident name =>
      have hname := h.1
      simp only [Token.isKeyword, Bool.or_eq_false_iff, beq_eq_false_iff_ne] at hname
      have hskip : ¬(name = "enum" ∨ name = "union") := by
        rintro (henum | hunion)
        · exact hname.1.2 henum
        · exact hname.2 hunion
      rw [List.cons_append, findStruct, if_neg hname.1.1, if_neg hskip, hrest]
    | _ => exact hrest

theorem exists_keyword (item : List Token) : (∀ token ∈ item, token.isKeyword = false) ∨
    ∃ rest, Opens "struct" item rest ∨ Opens "enum" item rest ∨ Opens "union" item rest := by
  induction item with
  | nil => exact .inl (List.forall_mem_nil _)
  | cons token item ih =>
    by_cases hkeyword : token.isKeyword = true
    · cases token with
      | ident name =>
        simp only [Token.isKeyword, Bool.or_eq_true, beq_iff_eq] at hkeyword
        rcases hkeyword with (rfl | rfl) | rfl
        · exact .inr ⟨item, .inl ⟨[], rfl, List.forall_mem_nil _⟩⟩
        · exact .inr ⟨item, .inr (.inl ⟨[], rfl, List.forall_mem_nil _⟩)⟩
        · exact .inr ⟨item, .inr (.inr ⟨[], rfl, List.forall_mem_nil _⟩)⟩
      | _ => cases hkeyword
    · rw [Bool.not_eq_true] at hkeyword
      have hopens {keyword : String} {rest : List Token} :
          Opens keyword item rest → Opens keyword (token :: item) rest := by
        rintro ⟨before, rfl, hbefore⟩
        exact ⟨token :: before, rfl, List.forall_mem_cons.mpr ⟨hkeyword, hbefore⟩⟩
      rcases ih with hnone | ⟨rest, hfirst⟩
      · exact .inl (List.forall_mem_cons.mpr ⟨hkeyword, hnone⟩)
      · exact .inr ⟨rest, hfirst.imp hopens (.imp hopens hopens)⟩

/-! ## 2. The outcome -/

/-- What an item comes to. -/
inductive Outcome (item : List Token) : Except DeriveError (List Token) → Prop where
  | derived {name : String} {body rest : List Token} {fields : List String}
    (h : Opens "struct" item (.ident name :: .group .brace body :: rest))
    (hfields : fieldNames body = .ok fields) : Outcome item (.ok (implementation name fields))
  /-- An enum or a union comes first. -/
  | notAStruct {rest : List Token} (h : Opens "enum" item rest ∨ Opens "union" item rest) :
    Outcome item (.error .notAStruct)
  | expectedStruct (h : ∀ token ∈ item, token.isKeyword = false) :
    Outcome item (.error .expectedStruct)
  | expectedStructName {rest : List Token} (h : Opens "struct" item rest)
    (hname : ∀ name more, rest ≠ .ident name :: more) : Outcome item (.error .expectedStructName)
  | genericStruct {name : String} {spacing : Spacing} {rest : List Token}
    (h : Opens "struct" item (.ident name :: .punct '<' spacing :: rest)) :
    Outcome item (.error .genericStruct)
  | notNamedFields {name : String} {rest : List Token}
    (h : Opens "struct" item (.ident name :: rest))
    (hgroup : ∀ body more, rest ≠ .group .brace body :: more)
    (hgeneric : ∀ spacing more, rest ≠ .punct '<' spacing :: more) :
    Outcome item (.error .notNamedFields)
  | expectedFieldName {name : String} {body rest : List Token}
    (h : Opens "struct" item (.ident name :: .group .brace body :: rest))
    (hcolon : NamelessColon body) : Outcome item (.error .expectedFieldName)

section Item

variable {item rest : List Token}

theorem bodyAfterName_of_ne (name : String)
    (hgroup : ∀ body more, rest ≠ .group .brace body :: more)
    (hgeneric : ∀ spacing more, rest ≠ .punct '<' spacing :: more) :
    bodyAfterName name rest = .error .notNamedFields := by
  unfold bodyAfterName
  split
  · exact absurd rfl (hgroup _ _)
  · exact absurd rfl (hgeneric _ _)
  · rfl

theorem itemAfterKeyword_of_ne (hname : ∀ name more, rest ≠ .ident name :: more) :
    itemAfterKeyword rest = .error .expectedStructName := by
  unfold itemAfterKeyword
  split
  · exact absurd rfl (hname _ _)
  · rfl

theorem findStruct_of_opens (h : Opens "struct" item rest) :
    findStruct item = itemAfterKeyword rest := by
  obtain ⟨before, rfl, hbefore⟩ := h
  rw [findStruct_append hbefore, findStruct, if_pos rfl]

theorem expand_of_error {e : DeriveError} (h : findStruct item = .error e) :
    expand item = .error e := by
  rw [expand, h]
  rfl

/-- A struct with a name and braces is what its body is. -/
theorem expand_of_body {name : String} {body : List Token}
    (h : Opens "struct" item (.ident name :: .group .brace body :: rest)) :
    expand item = (fieldNames body).map (implementation name) := by
  rw [expand, findStruct_of_opens h]
  change (fieldNames body >>= fun fields => pure (implementation name fields)) = _
  cases fieldNames body <;> rfl

/-- In each case deriving comes to what the case says. -/
theorem expand_of_outcome {outcome : Except DeriveError (List Token)} (h : Outcome item outcome) :
    expand item = outcome := by
  cases h with
  | derived h hfields =>
    rw [expand_of_body h, hfields]
    rfl
  | expectedFieldName h hcolon =>
    rw [expand_of_body h, fieldNames_of_namelessColon hcolon]
    rfl
  | notAStruct h =>
    apply expand_of_error
    rcases h with ⟨before, rfl, hbefore⟩ | ⟨before, rfl, hbefore⟩ <;>
      rw [findStruct_append hbefore] <;> rfl
  | expectedStruct h =>
    have hend := findStruct_append h []
    rw [List.append_nil] at hend
    exact expand_of_error hend
  | expectedStructName h hname =>
    exact expand_of_error ((findStruct_of_opens h).trans (itemAfterKeyword_of_ne hname))
  | genericStruct h => exact expand_of_error (findStruct_of_opens h)
  | notNamedFields h hgroup hgeneric =>
    exact expand_of_error ((findStruct_of_opens h).trans (bodyAfterName_of_ne _ hgroup hgeneric))

/-- One of the cases applies. -/
theorem exists_outcome (item : List Token) : ∃ outcome, Outcome item outcome := by
  rcases exists_keyword item with hnone | ⟨rest, hstruct | hother⟩
  · exact ⟨_, .expectedStruct hnone⟩
  · by_cases hname : ∃ name more, rest = .ident name :: more
    · obtain ⟨name, rest, rfl⟩ := hname
      by_cases hgroup : ∃ body more, rest = .group .brace body :: more
      · obtain ⟨body, rest, rfl⟩ := hgroup
        rcases hfields : fieldNames body with e | fields
        · exact ⟨_, .expectedFieldName hstruct (namelessColon_of_error hfields)⟩
        · exact ⟨_, .derived hstruct hfields⟩
      · by_cases hgeneric : ∃ spacing more, rest = .punct '<' spacing :: more
        · obtain ⟨spacing, rest, rfl⟩ := hgeneric
          exact ⟨_, .genericStruct hstruct⟩
        · simp only [not_exists] at hgroup hgeneric
          exact ⟨_, .notNamedFields hstruct hgroup hgeneric⟩
    · simp only [not_exists] at hname
      exact ⟨_, .expectedStructName hstruct hname⟩
  · exact ⟨_, .notAStruct hother⟩

end Item

/-- What each failure is reported as. -/
def DeriveError.reports : List (DeriveError × String) :=
  [(.notAStruct, "FromRow can only be derived for structs"),
    (.expectedStruct, "expected a struct"),
    (.expectedStructName, "expected a struct name"),
    (.genericStruct, "FromRow cannot be derived for generic structs"),
    (.notNamedFields, "FromRow can only be derived for structs with named fields"),
    (.expectedFieldName, "expected a field name before `:`")]

theorem DeriveError.message_mem_reports (e : DeriveError) :
    (e, e.message) ∈ DeriveError.reports := by
  cases e <;> decide

/-! ## 3. The words of an implementation -/

/-- `FIELD : row . get ( "COLUMN" ) ? ,` -/
def initializerWords (field : String) : List String :=
  [field, ":", "row", ".", "get", "(", Text.stringLiteral (columnName field), ")", "?", ","]

theorem Token.wordsOf_append (tokens more : List Token) :
    Token.wordsOf (tokens ++ more) = Token.wordsOf tokens ++ Token.wordsOf more := by
  induction tokens with
  | nil => rfl
  | cons token tokens ih => rw [List.cons_append, wordsOf, wordsOf, ih, List.append_assoc]

theorem wordsOf_initializers (fields : List String) :
    Token.wordsOf (fields.flatMap initializer) = fields.flatMap initializerWords := by
  induction fields with
  | nil => rfl
  | cons field fields ih =>
    rw [List.flatMap_cons, List.flatMap_cons, Token.wordsOf_append, ih]
    rfl

/-- The column of a field is its name, without the `r#` of a raw identifier. -/
theorem columnName_cases (field : String) : field = "r#" ++ columnName field ∨
    ¬"r#".toList <+: field.toList ∧ columnName field = field := by
  by_cases hraw : field.startsWith "r#" = true
  · left
    obtain ⟨name, hname⟩ := String.startsWith_string_iff.mp hraw
    have hcolumn : (columnName field).toList = name := by
      rw [columnName, if_pos hraw]
      change (field.drop 2).copy.toList = name
      rw [String.toList_copy_drop, ← hname]
      rfl
    apply String.toList_inj.mp
    rw [String.toList_append, hcolumn, hname]
  · right
    exact ⟨mt String.startsWith_string_iff.mpr hraw, if_neg hraw⟩

/-- The words of the implementation for a struct with the given fields. -/
def implementationWords (name : String) (fields : List String) : List String :=
  ["impl", ":", ":", "dbq_rows", ":", ":", "FromRow", "for", name, "\x7b", "fn", "from_row", "(",
    "row", ":", "&", ":", ":", "dbq_rows", ":", ":", "Row", ")", "-", ">", ":", ":", "dbq_rows",
    ":", ":", "Result", "<", "Self", ">", "\x7b", ":", ":", "core", ":", ":", "result", ":", ":",
    "Result", ":", ":", "Ok", "(", "Self", "\x7b"] ++ fields.flatMap initializerWords ++
      ["\x7d", ")", "\x7d", "\x7d"]

theorem wordsOf_implementation (name : String) (fields : List String) :
    Token.wordsOf (implementation name fields) = implementationWords name fields := by
  simp only [implementation, path, puncts, Token.wordsOf, Token.words, wordsOf_initializers,
    Delimiter.opening, Delimiter.closing, List.flatMap_cons, List.flatMap_nil, List.cons_append,
    List.nil_append, List.append_nil, List.append_assoc]
  rfl

/-- **Deriving comes to exactly one outcome**, for every sequence of tokens: the
    implementation for the fields of the struct, or one of six failures, each with a
    report of its own. The implementation reads each field, in the order of declaration,
    from the column of its name, which is what the literal in it is read as. -/
theorem expand_eq_iff :
    (∀ item outcome, expand item = outcome ↔ Outcome item outcome) ∧
      (∀ e : DeriveError, (e, e.message) ∈ DeriveError.reports) ∧
      (∀ name fields,
        Token.wordsOf (implementation name fields) = implementationWords name fields) ∧
      (∀ field rest, Text.readLiteral ((Text.stringLiteral (columnName field)).toList ++ rest) =
        some (columnName field, rest)) ∧
      ∀ field, field = "r#" ++ columnName field ∨
        ¬"r#".toList <+: field.toList ∧ columnName field = field := by
  refine ⟨fun item outcome => ?_, DeriveError.message_mem_reports, wordsOf_implementation,
    fun field => Text.readLiteral_stringLiteral (columnName field), columnName_cases⟩
  constructor
  · rintro rfl
    obtain ⟨outcome, houtcome⟩ := exists_outcome item
    rw [expand_of_outcome houtcome]
    exact houtcome
  · exact expand_of_outcome

end SqlKit.Derive
