/-
  SqlKit/Proofs/Derive/NamelessColon.lean
  =======================================
  **Where the field scanner fails.**

  Unlike a body made of fields, the tokens between the braces of a struct can be
  anything. The scanner fails on them at a colon that stands outside of all types
  and has no name in front of it (`NamelessColon`), and nowhere else
  (`fieldNames_eq_error_iff`).

  To say where a type ends, a body is cut into stretches. Each goes up to the comma
  behind a type, and the scanner takes one after the other
  (`namesOutside_stretch`). What is left at the end has no colon, a nameless one, or
  a type that does not end (`read_or_stretch`).
-/
import SqlKit.Proofs.Derive.StructBody

namespace SqlKit.Derive

/-! ## 1. Stretches of a struct body -/

def Token.isColon : Token → Bool
  | .punct char _ => char == ':'
  | _ => false

/-- The name of an identifier. -/
def Token.name? : Token → Option String
  | .ident name => some name
  | _ => none

/-- A part of a body up to the comma behind a type: what leads up to a colon, and
    a type that the comma ends. -/
structure Stretch where
  lead : List Token
  colon : Spacing
  type : List Token
  comma : Spacing
  noColon : ∀ token ∈ lead, token.isColon = false
  staysInside : StaysInside 0 false type
  closed : ¬Open 0 false type

def Stretch.tokens (s : Stretch) : List Token :=
  s.lead ++ .punct ':' s.colon :: s.type ++ [.punct ',' s.comma]

/-- A body has a colon outside of all types with no identifier in front of it,
    counting from the type before. -/
def NamelessColon (body : List Token) : Prop :=
  ∃ (stretches : List Stretch) (lead : List Token) (colon : Spacing) (rest : List Token),
    body = stretches.flatMap Stretch.tokens ++ lead ++ .punct ':' colon :: rest ∧
      ∀ token ∈ lead, token.isColon = false ∧ token.name? = none

theorem NamelessColon.append (s : Stretch) {rest : List Token} (h : NamelessColon rest) :
    NamelessColon (s.tokens ++ rest) := by
  obtain ⟨stretches, lead, colon, more, rfl, hlead⟩ := h
  refine ⟨s :: stretches, lead, colon, more, ?_, hlead⟩
  simp only [List.flatMap_cons, List.append_assoc]

section Scanner

variable {lead : List Token}

/-- In front of a colon the last identifier counts. -/
theorem namesOutside_lead (h : ∀ token ∈ lead, token.isColon = false) (last : Option String)
    (rest : List Token) :
    namesOutside last (lead ++ rest) =
      namesOutside ((lead.filterMap Token.name?).getLast?.or last) rest := by
  induction lead generalizing last with
  | nil => rfl
  | cons token lead ih =>
    rw [List.forall_mem_cons] at h
    have hrest := ih h.2
    cases token with
    | ident name =>
      rw [List.cons_append, namesOutside, hrest,
        List.filterMap_cons_some (by rfl : (Token.ident name).name? = some name),
        List.getLast?_cons]
      rcases (lead.filterMap Token.name?).getLast? with _ | other <;> rfl
    | punct char spacing =>
      have hchar : char ≠ ':' := by
        rintro rfl
        cases h.1
      have hskip : namesOutside last (.punct char spacing :: lead ++ rest) =
          namesOutside last (lead ++ rest) := if_neg hchar
      rw [hskip]
      exact hrest last
    | literal text => exact hrest last
    | string content => exact hrest last
    | group delimiter content => exact hrest last

/-- A colon begins the type of the name in front of it. -/
theorem namesOutside_colon (h : ∀ token ∈ lead, token.isColon = false) (colon : Spacing)
    (rest : List Token) :
    namesOutside none (lead ++ .punct ':' colon :: rest) =
      match (lead.filterMap Token.name?).getLast? with
      | none => .error .expectedFieldName
      | some name => (namesInType 0 false rest).map (name :: ·) := by
  have hcolon (last : Option String) : namesOutside last (.punct ':' colon :: rest) =
      match last with
      | none => .error .expectedFieldName
      | some name => (namesInType 0 false rest).map (name :: ·) := if_pos rfl
  rw [namesOutside_lead h, hcolon, Option.or_none]

/-- **A stretch** yields its name, or fails for want of one. -/
theorem namesOutside_stretch (s : Stretch) (rest : List Token) :
    namesOutside none (s.tokens ++ rest) =
      match (s.lead.filterMap Token.name?).getLast? with
      | none => .error .expectedFieldName
      | some name => (namesOutside none rest).map (name :: ·) := by
  have htokens : s.tokens ++ rest =
      s.lead ++ .punct ':' s.colon :: (s.type ++ .punct ',' s.comma :: rest) := by
    simp only [Stretch.tokens, List.append_assoc, List.cons_append, List.nil_append]
  rw [htokens, namesOutside_colon s.noColon, namesInType_comma s.staysInside s.closed]

/-! ## 2. Where the field scanner fails -/

/-- A body has no colon, or a first one. -/
theorem exists_colon (body : List Token) : (∀ token ∈ body, token.isColon = false) ∨
    ∃ lead colon rest, body = lead ++ .punct ':' colon :: rest ∧
      ∀ token ∈ lead, token.isColon = false := by
  induction body with
  | nil => exact .inl (List.forall_mem_nil _)
  | cons token body ih =>
    by_cases hcolon : token.isColon = true
    · cases token with
      | punct char spacing =>
        obtain rfl : char = ':' := eq_of_beq hcolon
        exact .inr ⟨[], spacing, body, rfl, List.forall_mem_nil _⟩
      | _ => cases hcolon
    · rw [Bool.not_eq_true] at hcolon
      rcases ih with hnone | ⟨lead, colon, rest, rfl, hlead⟩
      · exact .inl (List.forall_mem_cons.mpr ⟨hcolon, hnone⟩)
      · exact .inr ⟨token :: lead, colon, rest, rfl, List.forall_mem_cons.mpr ⟨hcolon, hlead⟩⟩

/-- A type goes on to the end, or ends at the first comma with no bracket open. -/
theorem exists_type_end (depth : Nat) (arrow : Bool) (tokens : List Token) :
    StaysInside depth arrow tokens ∨ ∃ type comma rest, tokens = type ++ .punct ',' comma :: rest ∧
      StaysInside depth arrow type ∧ ¬Open depth arrow type := by
  induction tokens generalizing depth arrow with
  | nil => exact .inl fun _ hi => absurd hi (Nat.not_lt_zero _)
  | cons token tokens ih =>
    by_cases hhead : token.isComma = true → 0 < depth
    · rcases ih (depth + token.angle arrow).toNat token.isDash with
        hstays | ⟨type, comma, rest, rfl, hstays, hopen⟩
      · exact .inl (staysInside_cons.mpr ⟨hhead, hstays⟩)
      · exact .inr ⟨token :: type, comma, rest, rfl, staysInside_cons.mpr ⟨hhead, hstays⟩,
          mt open_cons.mp hopen⟩
    · rw [Classical.not_imp] at hhead
      obtain ⟨hcomma, hdepth⟩ := hhead
      cases token with
      | punct char spacing =>
        obtain rfl : char = ',' := eq_of_beq hcomma
        exact .inr ⟨[], spacing, tokens, rfl, fun _ hi => absurd hi (Nat.not_lt_zero _),
          mt open_nil.mp hdepth⟩
      | _ => cases hcomma

theorem fieldNames_of_namelessColon {body : List Token} (h : NamelessColon body) :
    fieldNames body = .error .expectedFieldName := by
  obtain ⟨stretches, lead, colon, rest, rfl, hlead⟩ := h
  rw [fieldNames, List.append_assoc]
  induction stretches with
  | nil =>
    have hnames : lead.filterMap Token.name? = [] :=
      List.filterMap_eq_nil_iff.mpr fun token htoken => (hlead token htoken).2
    rw [List.flatMap_nil, List.nil_append,
      namesOutside_colon fun token htoken => (hlead token htoken).1, hnames]
    rfl
  | cons s stretches ih =>
    rw [List.flatMap_cons, List.append_assoc, namesOutside_stretch, ih]
    rcases (s.lead.filterMap Token.name?).getLast? with _ | name <;> rfl

/-- A body is read to its end, or has a nameless colon, or begins with a stretch that
    yields a name. -/
theorem read_or_stretch (body : List Token) :
    (∃ names, fieldNames body = .ok names) ∨ NamelessColon body ∨
      ∃ (s : Stretch) (name : String) (rest : List Token), body = s.tokens ++ rest ∧
        fieldNames body = (fieldNames rest).map (name :: ·) := by
  rcases exists_colon body with hnone | ⟨lead, colon, rest, rfl, hlead⟩
  · have hend := namesOutside_lead hnone none []
    rw [List.append_nil] at hend
    exact .inl ⟨[], hend⟩
  rcases hname : (lead.filterMap Token.name?).getLast? with _ | name
  · have hnames := List.filterMap_eq_nil_iff.mp (List.getLast?_eq_none_iff.mp hname)
    exact .inr (.inl ⟨[], lead, colon, rest, rfl,
      fun token htoken => ⟨hlead token htoken, hnames token htoken⟩⟩)
  rcases exists_type_end 0 false rest with hstays | ⟨type, comma, more, rfl, hstays, hopen⟩
  · obtain ⟨depth, arrow, -, hend⟩ := namesInType_append hstays []
    rw [List.append_nil] at hend
    refine .inl ⟨[name], ?_⟩
    rw [fieldNames, namesOutside_colon hlead, hname, hend]
    rfl
  · let s : Stretch := ⟨lead, colon, type, comma, hlead, hstays, hopen⟩
    have htokens : lead ++ .punct ':' colon :: (type ++ .punct ',' comma :: more) =
        s.tokens ++ more := by
      simp only [s, Stretch.tokens, List.append_assoc, List.cons_append, List.nil_append]
    refine .inr (.inr ⟨s, name, more, htokens, ?_⟩)
    rw [htokens, fieldNames, namesOutside_stretch, hname]
    rfl

/-- The induction takes off one stretch at a time. -/
theorem namelessColon_of_error {body : List Token} {e : DeriveError}
    (h : fieldNames body = .error e) : NamelessColon body := by
  induction hlength : body.length using Nat.strongRecOn generalizing body with
  | ind length ih =>
    rcases read_or_stretch body with ⟨names, hnames⟩ | hnameless | ⟨s, name, rest, rfl, hnames⟩
    · rw [hnames] at h
      cases h
    · exact hnameless
    · have hshorter : rest.length < length := by
        rw [← hlength]
        simp only [Stretch.tokens, List.length_append, List.length_cons]
        omega
      rcases hrest : fieldNames rest with e' | names <;> rw [hnames, hrest] at h
      · obtain rfl := Except.error.inj h
        exact (ih _ hshorter hrest rfl).append s
      · cases h

/-- **The field scanner fails at a nameless colon**, and only there. -/
theorem fieldNames_eq_error_iff {body : List Token} {e : DeriveError} :
    fieldNames body = .error e ↔ e = .expectedFieldName ∧ NamelessColon body := by
  constructor
  · intro h
    have hnameless := namelessColon_of_error h
    rw [fieldNames_of_namelessColon hnameless] at h
    exact ⟨(Except.error.inj h).symm, hnameless⟩
  · rintro ⟨rfl, h⟩
    exact fieldNames_of_namelessColon h

end Scanner

/-- An identifier inside a type names no field. -/
example : fieldNames [.ident "a", .punct ':' .alone, .ident "T", .punct ',' .alone,
    .punct ':' .alone, .ident "U"] = .error .expectedFieldName := by rfl

end SqlKit.Derive
