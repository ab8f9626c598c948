/-
  SqlKit/Proofs/Postgres/Expression.lean
  ======================================
  **Expressions, word by word.**

  An expression is built from names, literals, operators, memberships in lists,
  casts and calls (`Node.IsExpression`). Where names are quoted, its text falls
  into lexemes: `lexemes` lists them. They are what the layout of the expression
  says (`spells_template`), and they do not run together (`legible_lexemes`). An
  expression is therefore always rendered, and its text and values are those of
  its lexemes (`render_expression`).
-/
import SqlKit.Proofs.Postgres.Layout
import SqlKit.Proofs.Render.Lexeme

namespace SqlKit

open Text (IsWord)

/-! ## 1. Expressions -/

/-- Expressions: names, literals, operators, memberships in lists without nested
    lists, casts and calls, where types and functions are called by a word. -/
inductive Node.IsExpression : Node → Prop where
  | identifier (name : String) : IsExpression (.of (.identifier name))
  | column (table name : String) : IsExpression (.of (.column table name))
  | integer (value : Int64) : IsExpression (.of (.integer value))
  | string (s : String) : IsExpression (.of (.string s))
  | null : IsExpression (.of .null)
  | binary (op : Operator) {left right : Node} (hleft : IsExpression left)
    (hright : IsExpression right) : IsExpression (.of (.binary op left right))
  | membership {element : Node} {items : List Value} (helement : IsExpression element)
    (hflat : Value.hasNested items = false) :
    IsExpression (.of (.membership element (.of (.list items))))
  | cast {inner : Node} {type : String} (hinner : IsExpression inner) (htype : IsWord type) :
    IsExpression (.of (.cast inner type))
  | call {name : String} {args : List Node} (hname : IsWord name)
    (hargs : ∀ arg ∈ args, IsExpression arg) : IsExpression (.of (.call name args))

namespace Postgres

open Template (text)
open Lexeme (Legible Breaks IsSign)

/-! ## 2. The lexemes of an expression -/

/-- An operator between its blanks. -/
def operatorLexemes : Operator → List Lexeme
  | .plus => [.sign '+']
  | .minus => [.sign '-']
  | .times => [.sign '*']
  | .divide => [.sign '/']
  | .equal => [.sign '=']
  | .notEqual => [.sign '!', .sign '=']
  | .less => [.sign '<']
  | .lessEqual => [.sign '<', .sign '=']
  | .greater => [.sign '>']
  | .greaterEqual => [.sign '>', .sign '=']
  | .and => [.word "AND"]
  | .or => [.word "OR"]

/-- What a comparison with null is turned into, behind a blank. -/
def testLexemes? : Operator → Option (List Lexeme)
  | .equal => some [.word "IS", .sign ' ', .word "NULL"]
  | .notEqual => some [.word "IS", .sign ' ', .word "NOT", .sign ' ', .word "NULL"]
  | _ => none

def integerLexemes : Int → List Lexeme
  | .ofNat n => [.word (toString n)]
  | .negSucc n => [.sign '-', .word (toString (n + 1))]

def itemLexemes : List Value → List Lexeme
  | [] => [.word "NULL"]
  | items => (items.map .value).intersperse (.sign ',')

/-- Lexemes in parentheses, if they need them. -/
def enclosed (lexemes : List Lexeme) (compound : Bool) : List Lexeme :=
  if compound then .sign '(' :: (lexemes ++ [.sign ')']) else lexemes

/-- Arguments with commas between them. -/
def argumentLexemes (args : List (List Lexeme)) : List Lexeme :=
  (args.intersperse [.sign ',', .sign ' ']).flatten

/-- The lexemes of a layer of an expression. -/
def lexemeRule : Form (Part (List Lexeme)) → List Lexeme
  | .identifier name => [if name = "*" then .sign '*' else .name name]
  | .column table name => [.name table, .sign '.', .name name]
  | .integer value => integerLexemes value.toInt
  | .string s => [.value (.text s)]
  | .list items => itemLexemes items
  | .null => [.word "NULL"]
  | .binary op left right =>
    let first := enclosed left.result left.node.isCompound
    match testLexemes? op, right.node.form with
    | some test, .null => first ++ .sign ' ' :: test
    | _, _ => first ++ .sign ' ' :: (operatorLexemes op ++
        .sign ' ' :: enclosed right.result right.node.isCompound)
  | .membership element set =>
    enclosed element.result element.node.isCompound ++
      .sign ' ' :: .word "IN" :: .sign ' ' :: enclosed set.result set.node.isCompound
  | .cast inner type =>
    .sign '(' :: (inner.result ++ [.sign ')', .sign ':', .sign ':', .word type])
  | .call name args =>
    .word name :: .sign '(' ::
      (argumentLexemes (args.map fun arg => enclosed arg.result arg.node.isCompound) ++ [.sign ')'])
  | _ => []

/-- The lexemes of an expression. -/
def lexemes : Node → List Lexeme :=
  Node.recurse lexemeRule

/-- The lexemes of an expression as an operand. -/
def operandLexemes (node : Node) : List Lexeme :=
  enclosed (lexemes node) node.isCompound

theorem lexemes_test {op : Operator} {test : List Lexeme} (htest : testLexemes? op = some test)
    (left : Node) :
    lexemes (.of (.binary op left (.of .null))) = operandLexemes left ++ .sign ' ' :: test := by
  change lexemeRule (.binary op ⟨left, lexemes left⟩ ⟨.of .null, lexemes (.of .null)⟩) = _
  rw [lexemeRule, htest]
  rfl

theorem lexemes_plain {op : Operator} {right : Node}
    (h : testLexemes? op = none ∨ right.kind ≠ .null) (left : Node) :
    lexemes (.of (.binary op left right)) = operandLexemes left ++
      .sign ' ' :: (operatorLexemes op ++ .sign ' ' :: operandLexemes right) := by
  change lexemeRule (.binary op ⟨left, lexemes left⟩ ⟨right, lexemes right⟩) = _
  rw [lexemeRule]
  split
  · rename_i htest hform
    rcases h with h | h
    · rw [h] at htest
      cases htest
    · exact absurd (congrArg Form.kind hform) h
  · rfl

/-- A binary operation either tests an expression for null or relates two. -/
theorem binary_cases (op : Operator) {right : Node} (h : right.IsExpression) :
    (∃ test, testLexemes? op = some test ∧ right = .of .null) ∨
      (testLexemes? op = none ∨ right.kind ≠ .null) := by
  rcases htest : testLexemes? op with _ | test
  · exact .inr (.inl rfl)
  · cases h with
    | null => exact .inl ⟨test, rfl, rfl⟩
    | _ => exact .inr (.inr NodeKind.noConfusion)

theorem lexemes_membership (element : Node) (items : List Value) :
    lexemes (.of (.membership element (.of (.list items)))) = operandLexemes element ++
      .sign ' ' :: .word "IN" :: .sign ' ' :: .sign '(' :: (itemLexemes items ++ [.sign ')']) := rfl

theorem lexemes_cast (inner : Node) (type : String) :
    lexemes (.of (.cast inner type)) =
      .sign '(' :: (lexemes inner ++ [.sign ')', .sign ':', .sign ':', .word type]) := rfl

theorem lexemes_call (name : String) (args : List Node) :
    lexemes (.of (.call name args)) = .word name :: .sign '(' ::
      (argumentLexemes (args.map operandLexemes) ++ [.sign ')']) := by
  rw [lexemes, Node.recurse_of, Form.map, lexemeRule, List.map_map]
  rfl

/-! ## 3. What a layout says -/

/-- A template says what its lexemes say. -/
def Spells (ctx : Context) (t : Template) (lexemes : List Lexeme) : Prop :=
  t.inPlace ctx = .ok (lexemes.flatMap Lexeme.symbols)

variable {ctx : Context}

theorem spells_append {t u : Template} {xs ys : List Lexeme} (ht : Spells ctx t xs)
    (hu : Spells ctx u ys) : Spells ctx (t ++ u) (xs ++ ys) := by
  rw [Spells, Template.inPlace_append, ht, hu, List.flatMap_append]
  rfl

theorem spells_text {s : String} {xs : List Lexeme}
    (h : Symbol.chars s.toList = xs.flatMap Lexeme.symbols) : Spells ctx (text s) xs := by
  rw [Spells, text, Template.inPlace_singleton, ← h]
  rfl

theorem spells_operand {part : Part Template} {xs : List Lexeme} (h : Spells ctx part.result xs) :
    Spells ctx part.operand (enclosed xs part.node.isCompound) := by
  have hopen : Spells ctx (text "(") [.sign '('] := spells_text rfl
  have hclose : Spells ctx (text ")") [.sign ')'] := spells_text rfl
  rw [Part.operand]
  cases part.node.isCompound with
  | false => exact h
  | true => exact spells_append (spells_append hopen h) hclose

theorem spells_operator (op : Operator) :
    Spells ctx (text (" " ++ op.symbol ++ " "))
      (.sign ' ' :: (operatorLexemes op ++ [.sign ' '])) := by
  apply spells_text
  cases op <;> rfl

theorem spells_test (ctx : Context) {op : Operator} {xs : List Lexeme}
    (h : testLexemes? op = some xs) :
    ∃ test, nullTest? op = some test ∧ Spells ctx (text (" " ++ test)) (.sign ' ' :: xs) := by
  cases op with
  | equal =>
    obtain rfl := Option.some.inj h
    exact ⟨_, rfl, spells_text rfl⟩
  | notEqual =>
    obtain rfl := Option.some.inj h
    exact ⟨_, rfl, spells_text rfl⟩
  | _ => cases h

theorem nullTest?_eq_none {op : Operator} (h : testLexemes? op = none) : nullTest? op = none := by
  cases op <;> first | rfl | cases h

theorem spells_identifier {options : Options} (hquote : options.quote = true) (name : String) :
    Spells ctx (text (identText options name))
      [if name = "*" then .sign '*' else .name name] := by
  rw [identText, hquote]
  by_cases hstar : name = "*"
  · subst hstar
    exact spells_text rfl
  · have hbne : (true && name != "*") = true := by simpa using hstar
    rw [if_pos hbne, if_neg hstar]
    exact spells_text (List.append_nil _).symm

theorem spells_column (table name : String) :
    Spells ctx (text (Text.quoteIdent table ++ "." ++ Text.quoteIdent name))
      [.name table, .sign '.', .name name] := by
  apply spells_text
  simp [Lexeme.symbols]

theorem spells_integer (n : Int) : Spells ctx (text (toString n)) (integerLexemes n) := by
  cases n with
  | ofNat n => exact spells_text (List.append_nil _).symm
  | negSucc n =>
    have hminus : toString (Int.negSucc n) = "-" ++ toString (n + 1) := rfl
    rw [hminus]
    apply spells_text
    rw [String.toList_append, Symbol.chars_append]
    exact congrArg _ (List.append_nil _).symm

theorem flatMap_itemLexemes (items : List Value) :
    (itemLexemes items).flatMap Lexeme.symbols = Value.symbols items := by
  cases items with
  | nil => rfl
  | cons item items =>
    rw [Value.symbols, if_neg (by simp), itemLexemes]
    · induction items generalizing item with
      | nil => rfl
      | cons next items ih =>
        have hrest := ih next
        simp only [List.map_cons, List.intersperse_cons_cons, List.flatMap_cons] at hrest ⊢
        rw [hrest]
        rfl
    · exact List.cons_ne_nil _ _

theorem spells_items {items : List Value} (hflat : Value.hasNested items = false) :
    Spells ctx [.values items] (itemLexemes items) := by
  rw [Spells, Template.inPlace_singleton, flatMap_itemLexemes]
  simp only [Fragment.inPlace, Value.inPlace, hflat, Bool.false_eq_true, if_false]

theorem spells_arguments {ν : Type} {args : List ν} {f : ν → Template} {g : ν → List Lexeme}
    (h : ∀ arg ∈ args, Spells ctx (f arg) (g arg)) :
    Spells ctx (commaSeparated (args.map f)) (argumentLexemes (args.map g)) := by
  induction args with
  | nil => rfl
  | cons arg rest ih =>
    have harg := h arg List.mem_cons_self
    have hrest := ih fun next hnext => h next (List.mem_cons_of_mem arg hnext)
    cases rest with
    | nil =>
      simpa [commaSeparated, Template.separated, argumentLexemes] using harg
    | cons next rest =>
      have hcomma : Spells ctx (text ", ") [.sign ',', .sign ' '] := spells_text rfl
      exact spells_append harg (spells_append hcomma hrest)

variable {options : Options} {node : Node}

/-- **The layout of an expression says its lexemes**, where names are quoted. -/
theorem spells_template (ctx : Context) (hquote : options.quote = true) (h : node.IsExpression) :
    Spells ctx (dialect.template options node) (lexemes node) := by
  have operand {node : Node} (h : Spells ctx (dialect.template options node) (lexemes node)) :
      Spells ctx (Node.part (dialect.layout options) node).operand (operandLexemes node) :=
    spells_operand h
  induction h with
  | identifier name => exact spells_identifier hquote name
  | column table name => exact spells_column table name
  | integer value => exact spells_integer value.toInt
  | string s => rfl
  | null => exact spells_text rfl
  | @binary op left right _ hright ihleft ihright =>
    have hbinding : right.kind ≠ .binding := by
      cases hright <;> exact NodeKind.noConfusion
    rw [template_of]
    change Spells ctx (binary op (Node.part _ left) (Node.part _ right)) _
    rcases binary_cases op hright with ⟨xs, hxs, rfl⟩ | hplain
    · obtain ⟨test, htest, hspells⟩ := spells_test ctx hxs
      rw [binary_eq_test htest rfl, lexemes_test hxs]
      exact spells_append (operand ihleft) hspells
    · have hrule : nullTest? op = none ∨ right.kind ≠ .null ∧ right.kind ≠ .binding :=
        hplain.imp nullTest?_eq_none fun hnull => ⟨hnull, hbinding⟩
      rw [binary_eq_plain hrule, lexemes_plain hplain]
      simpa using spells_append (spells_append (operand ihleft) (spells_operator op))
        (operand ihright)
  | @membership element items _ hflat ih =>
    have hin : Spells ctx (text " IN ") [.sign ' ', .word "IN", .sign ' '] := spells_text rfl
    have hset : Spells ctx (Node.part (dialect.layout options) (.of (.list items))).operand
        (operandLexemes (.of (.list items))) := operand (spells_items hflat)
    have hwhole := spells_append (spells_append (operand ih) hin) hset
    rw [List.append_assoc (operandLexemes element)] at hwhole
    exact hwhole
  | @cast inner type _ _ ih =>
    have hopen : Spells ctx (text "(") [.sign '('] := spells_text rfl
    have htype : Spells ctx (text (")::" ++ type))
        [.sign ')', .sign ':', .sign ':', .word type] := by
      apply spells_text
      simp [Lexeme.symbols]
    exact spells_append (spells_append hopen ih) htype
  | @call name args _ _ ih =>
    have hname : Spells ctx (text (name ++ "(")) [.word name, .sign '('] := by
      apply spells_text
      simp [Lexeme.symbols]
    have hclose : Spells ctx (text ")") [.sign ')'] := spells_text rfl
    have hargs := spells_arguments (fun arg harg => operand (ih arg harg))
    rw [template_of, lexemes_call]
    change Spells ctx (text (name ++ "(") ++
      commaSeparated ((args.map (Node.part (dialect.layout options))).map Part.operand) ++
      text ")") _
    rw [List.map_map]
    exact spells_append (spells_append hname hargs) hclose

/-! ## 4. The lexemes do not run together -/

theorem breaks_sign (c : Char) (rest : List Lexeme) : Breaks (.sign c :: rest) := by
  rintro x (_ | _)
  rfl

theorem legible_enclosed {xs : List Lexeme} (h : Legible xs) (compound : Bool) :
    Legible (enclosed xs compound) := by
  cases compound with
  | false => exact h
  | true =>
    have hclose : Legible [Lexeme.sign ')'] := .sign (by decide) .nil
    exact .sign (by decide) (h.append hclose (breaks_sign _ _))

theorem breaks_nil : Breaks [] := by
  simp [Breaks]

theorem toList_toString (n : Nat) : (toString n).toList = Nat.toDigits 10 n := by
  simp

theorem isWord_toString (n : Nat) : IsWord (toString n) := by
  constructor
  · intro h
    have hnil := toList_toString n
    rw [h] at hnil
    exact Nat.toDigits_ne_nil hnil.symm
  · intro c hc
    rw [toList_toString] at hc
    have hdigit : c.isDigit = true := Nat.isDigit_of_mem_toDigits (by decide) (by decide) hc
    simp [Text.isWordChar, Char.isAlphanum, hdigit]

theorem legible_integer (n : Int) : Legible (integerLexemes n) := by
  cases n with
  | ofNat n => exact .word (isWord_toString n) breaks_nil .nil
  | negSucc n => exact .sign (by decide) (.word (isWord_toString (n + 1)) breaks_nil .nil)

theorem legible_operator (op : Operator) : Legible (operatorLexemes op) := by
  cases op <;> first
    | exact .sign (by decide) .nil
    | exact .sign (by decide) (.sign (by decide) .nil)
    | exact .word (by decide) breaks_nil .nil

theorem legible_test {op : Operator} {test : List Lexeme} (h : testLexemes? op = some test) :
    Legible test := by
  cases op with
  | equal =>
    obtain rfl := Option.some.inj h
    exact .word (by decide) (breaks_sign _ _)
      (.sign (by decide) (.word (by decide) breaks_nil .nil))
  | notEqual =>
    obtain rfl := Option.some.inj h
    exact .word (by decide) (breaks_sign _ _) (.sign (by decide) (.word (by decide)
      (breaks_sign _ _) (.sign (by decide) (.word (by decide) breaks_nil .nil))))
  | _ => cases h

theorem legible_items (items : List Value) : Legible (itemLexemes items) := by
  cases items with
  | nil => exact .word (by decide) breaks_nil .nil
  | cons item items =>
    rw [itemLexemes]
    · induction items generalizing item with
      | nil => exact .value item breaks_nil .nil
      | cons next items ih => exact .value item (breaks_sign _ _) (.sign (by decide) (ih next))
    · exact List.cons_ne_nil _ _

theorem legible_arguments {args : List (List Lexeme)} (h : ∀ arg ∈ args, Legible arg) :
    Legible (argumentLexemes args) := by
  induction args with
  | nil => exact .nil
  | cons arg rest ih =>
    have harg := h arg List.mem_cons_self
    have hrest := ih fun next hnext => h next (List.mem_cons_of_mem arg hnext)
    cases rest with
    | nil => simpa [argumentLexemes] using harg
    | cons next rest =>
      exact harg.append (.sign (by decide) (.sign (by decide) hrest)) (breaks_sign _ _)

/-- **The lexemes of an expression do not run together.** -/
theorem legible_lexemes (h : node.IsExpression) : Legible (lexemes node) := by
  induction h with
  | identifier name =>
    change Legible [if name = "*" then .sign '*' else .name name]
    split
    · exact .sign (by decide) .nil
    · exact .name name breaks_nil .nil
  | column table name =>
    exact .name table (breaks_sign _ _) (.sign (by decide) (.name name breaks_nil .nil))
  | integer value => exact legible_integer value.toInt
  | string s => exact .value (.text s) breaks_nil .nil
  | null => exact .word (by decide) breaks_nil .nil
  | @binary op left right _ hright ihleft ihright =>
    have hfirst : Legible (operandLexemes left) := legible_enclosed ihleft _
    rcases binary_cases op hright with ⟨test, htest, rfl⟩ | hplain
    · rw [lexemes_test htest]
      exact hfirst.append (.sign (by decide) (legible_test htest)) (breaks_sign _ _)
    · have hfurther := (legible_operator op).append
        (.sign (by decide) (legible_enclosed ihright right.isCompound)) (breaks_sign ' ' _)
      rw [lexemes_plain hplain]
      exact hfirst.append (.sign (by decide) hfurther) (breaks_sign _ _)
  | @membership element items _ hflat ih =>
    have hclose : Legible [Lexeme.sign ')'] := .sign (by decide) .nil
    have hset := (legible_items items).append hclose (breaks_sign _ _)
    rw [lexemes_membership]
    exact (legible_enclosed ih _).append (.sign (by decide) (.word (by decide) (breaks_sign _ _)
      (.sign (by decide) (.sign (by decide) hset)))) (breaks_sign _ _)
  | @cast inner type _ htype ih =>
    rw [lexemes_cast]
    exact .sign (by decide) (ih.append (.sign (by decide) (.sign (by decide) (.sign (by decide)
      (.word htype breaks_nil .nil)))) (breaks_sign _ _))
  | @call name args hname _ ih =>
    have hargs : Legible (argumentLexemes (args.map operandLexemes)) :=
      legible_arguments fun arg harg => by
        obtain ⟨node, hnode, rfl⟩ := List.mem_map.mp harg
        exact legible_enclosed (ih node hnode) _
    have hclose : Legible [Lexeme.sign ')'] := .sign (by decide) .nil
    rw [lexemes_call]
    exact .word hname (breaks_sign _ _) (.sign (by decide) (hargs.append hclose (breaks_sign _ _)))

/-! ## 5. Rendering an expression -/

theorem bindings_eq_nil (h : node.IsExpression) : node.bindings = [] := by
  induction h with
  | binary op _ _ ihleft ihright =>
    simp [Node.bindings_of, Form.bindings, Form.parts, ihleft, ihright]
  | membership _ _ ih => simp [Node.bindings_of, Form.bindings, Form.parts, ih]
  | cast _ _ ih => simp [Node.bindings_of, Form.bindings, Form.parts, ih]
  | call _ _ ih =>
    rw [Node.bindings_of]
    exact List.append_eq_nil_iff.mpr ⟨rfl, List.flatMap_eq_nil_iff.mpr ih⟩
  | _ => simp [Node.bindings_of, Form.bindings, Form.parts]

/-- **An expression is rendered as its lexemes.** -/
theorem render_expression (hquote : options.quote = true) (h : node.IsExpression) :
    ∃ r, render options node {} = .ok r ∧ r.sql.toList = Lexeme.written 0 (lexemes node) ∧
      r.values = Lexeme.values (lexemes node) := by
  have hspells := spells_template (Context.new {} options) hquote h
  have hnodup : node.bindings.Nodup := by
    rw [bindings_eq_nil h]
    exact List.nodup_nil
  rcases dialect.render_cases options node {} with
    ⟨e, herror, -⟩ | ⟨symbols, r, hsymbols, hrender, -, hnumber⟩
  · rw [hspells] at herror
    cases herror
  · obtain rfl := Except.ok.inj (hspells.symm.trans hsymbols)
    exact ⟨r, hrender, hnumber (nodup_bindings_template options hnodup)⟩

end Postgres

end SqlKit
