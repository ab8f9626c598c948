/-
  SqlKit/Proofs/Postgres/Inline.lean
  ==================================
  **Bindings stand for literals.**

  A binding is written in two phases: its slots are reserved where it first
  occurs, shared by its later occurrences, and filled at the end. This means the
  same as writing its argument into the tree. `Node.inline` does that: a null
  binding that is compared by `=` or `!=` becomes the null literal, and every
  other binding the list of the values of its argument.

  The two trees have the same meaning (`meaning_inline`), layer by layer. With
  the values in place their texts are therefore equal, and they fail alike;
  where no binding occurs twice, text and values are equal as they are
  (`render_inline`).
-/
import SqlKit.Proofs.Postgres.Layout
import SqlKit.Proofs.Postgres.Placeholder

namespace SqlKit

/-! ## 1. Arguments in the tree -/

/-- The value of a binding; it is null without an argument. -/
def Args.valueOf (args : Args) (name : String) : Value :=
  (args.get? name).getD .null

/-- Whether an operator compares for equality or its opposite. -/
def Operator.isEquation : Operator → Bool
  | .equal | .notEqual => true
  | _ => false

namespace Node

/-- Whether a node is a binding that is null. -/
def isNullBinding (args : Args) (node : Node) : Bool :=
  match node.form with
  | .binding name => (args.valueOf name).isNull
  | _ => false

/-- A layer with its arguments written into it. -/
def inlineForm (args : Args) : Form (Part Node) → Node
  | .binding name => .of (.list (args.valueOf name).elements)
  | .binary op left right =>
    .of (.binary op left.result
      (if op.isEquation && right.node.isNullBinding args then .of .null else right.result))
  | form => .of (form.map Part.result)

/-- A tree with the arguments written in the place of its bindings. -/
def inline (args : Args) : Node → Node :=
  recurse (inlineForm args)

variable (args : Args)

@[simp]
theorem inline_binding (name : String) :
    inline args (.of (.binding name)) = .of (.list (args.valueOf name).elements) := rfl

theorem inline_binary (op : Operator) (left right : Node) :
    inline args (.of (.binary op left right)) = .of (.binary op (left.inline args)
      (if op.isEquation && right.isNullBinding args then .of .null else right.inline args)) := rfl

/-- A layer that is neither a binding nor a binary operation stays what it is. -/
theorem inline_of {form : Form Node} (hbinding : form.kind ≠ .binding)
    (hbinary : form.kind ≠ .binary) : inline args (.of form) = .of (form.map (inline args)) := by
  apply recurse_eq_map
  cases form with
  | binding name => exact absurd rfl hbinding
  | binary op left right => exact absurd rfl hbinary
  | _ => rfl

theorem kind_inline {node : Node} (h : node.kind ≠ .binding) :
    (node.inline args).kind = node.kind := by
  obtain ⟨form⟩ := node
  by_cases hbinary : form.kind = .binary
  · cases form with
    | binary op left right => rfl
    | _ => cases hbinary
  · have hbinding : form.kind ≠ .binding := h
    rw [inline_of args hbinding hbinary]
    exact Form.kind_map _ _

theorem names_inline_subset (node : Node) : (node.inline args).names ⊆ node.names := by
  induction node using Node.induction with
  | layer form ih =>
    by_cases hbinding : form.kind = .binding
    · cases form with
      | binding name => simp [names_of, Form.names, Form.parts]
      | _ => cases hbinding
    · by_cases hbinary : form.kind = .binary
      · cases form with
        | binary op left right =>
          have hleft := ih left (by simp [Form.parts])
          have hright := ih right (by simp [Form.parts])
          rw [inline_binary, names_of, names_of]
          simp only [Form.names, Form.parts, List.nil_append, List.flatMap_cons, List.flatMap_nil,
            List.append_nil]
          split
          · simpa [names_of, Form.names, Form.parts] using List.subset_append_of_subset_left _ hleft
          · exact List.append_subset.mpr ⟨List.subset_append_of_subset_left _ hleft,
              List.subset_append_of_subset_right _ hright⟩
        | _ => cases hbinary
      · rw [inline_of args hbinding hbinary, names_of, names_of, Form.names_map, Form.parts_map,
          List.flatMap_map]
        intro name hname
        rw [List.mem_append] at hname ⊢
        refine hname.imp_right fun hmem => ?_
        obtain ⟨child, hchild, hin⟩ := List.mem_flatMap.mp hmem
        exact List.mem_flatMap.mpr ⟨child, hchild, ih child hchild hin⟩

theorem bindings_inline (node : Node) : (node.inline args).bindings = [] := by
  induction node using Node.induction with
  | layer form ih =>
    by_cases hbinding : form.kind = .binding
    · cases form with
      | binding name => simp [bindings_of, Form.bindings, Form.parts]
      | _ => cases hbinding
    · by_cases hbinary : form.kind = .binary
      · cases form with
        | binary op left right =>
          have hleft := ih left (by simp [Form.parts])
          have hright := ih right (by simp [Form.parts])
          rw [inline_binary, bindings_of]
          simp only [Form.bindings, Form.parts, List.nil_append, List.flatMap_cons,
            List.flatMap_nil, List.append_nil, hleft]
          split
          · simp [bindings_of, Form.bindings, Form.parts]
          · exact hright
        | _ => cases hbinary
      · have hown : form.bindings = [] := by
          cases form with
          | binding name => exact absurd rfl hbinding
          | _ => rfl
        rw [inline_of args hbinding hbinary, bindings_of, Form.bindings_map, hown, Form.parts_map,
          List.flatMap_map, List.nil_append]
        exact List.flatMap_eq_nil_iff.mpr ih

end Node

/-! ## 2. The two meanings agree -/

namespace Postgres

open Template (text)

variable {options : Options} {args : Args}

/-- Whether the value of a binding is known: it has an argument, or it may be
    without. -/
def Known (options : Options) (args : Args) (name : String) : Prop :=
  options.unbound = .null ∨ (args.get? name).isSome

theorem lookup_of_known {name : String} (h : Known options args name) :
    (Context.new args options).lookup name =
      .ok (if (args.valueOf name).isNull then none else some (args.valueOf name)) := by
  have hargs : (Context.new args options).args.get? name = args.get? name := rfl
  have hunbound : (Context.new args options).options.unbound = options.unbound := rfl
  rw [Context.lookup, Args.valueOf, hargs, hunbound]
  rcases hget : args.get? name with _ | value
  · rcases h with h | h
    · rw [h]
      rfl
    · rw [hget] at h
      cases h
  · cases value <;> rfl

theorem inPlace_of_known {name : String} (h : Known options args name) :
    (Context.new args options).inPlace name = Value.inPlace (args.valueOf name).elements := by
  rw [Context.inPlace, lookup_of_known h]
  rcases args.valueOf name with _ | _ <;> rfl

/-- Two templates that mean the same, the first with the arguments and the
    second without, on their own and inside a statement. -/
def SameMeaning (options : Options) (args : Args) (t u : Template) : Prop :=
  t.inPlace (Context.new args options) = u.inPlace (Context.new {} options) ∧
    t.inline.inPlace (Context.new args options) = u.inline.inPlace (Context.new {} options)

theorem inline_inline (t : Template) : t.inline.inline = t.inline := by
  rw [Template.inline, Template.inline, List.map_map]
  refine congrArg (List.map · t) (funext fun fragment => ?_)
  cases fragment <;> rfl

theorem congruence_sameMeaning (options : Options) (args : Args) :
    Template.Congruence (SameMeaning options args) where
  nil := ⟨rfl, rfl⟩
  text _ := ⟨rfl, rfl⟩
  clauseBreak := ⟨rfl, rfl⟩
  append h h' := by
    constructor
    · rw [Template.inPlace_append, Template.inPlace_append, h.1, h'.1]
    · rw [Template.inline_append, Template.inline_append, Template.inPlace_append,
        Template.inPlace_append, h.2, h'.2]
  inline h := ⟨h.2, by rw [inline_inline, inline_inline]; exact h.2⟩

theorem sameMeaning_own {form : Form Node} (h : form.kind ≠ .binding) :
    SameMeaning options args form.own form.own := by
  cases form with
  | binding name => exact absurd rfl h
  | aggregate applied =>
    rw [Form.own]
    split <;> exact ⟨rfl, rfl⟩
  | _ => exact ⟨rfl, rfl⟩

theorem similar_inline {node : Node} (h : SameMeaning options args (dialect.template options node)
      (dialect.template options (node.inline args))) :
    (Node.part (dialect.layout options) node).Similar (SameMeaning options args)
      (Node.part (dialect.layout options) (node.inline args)) := by
  by_cases hbinding : node.kind = .binding
  · obtain ⟨form⟩ := node
    cases form with
    | binding name => exact ⟨h, rfl, by simp [Node.part, Node.kind, Node.form, Form.kind],
        by simp [Node.part, Node.kind, Node.form, Form.kind]⟩
    | _ => cases hbinding
  · exact .of_kind (Node.kind_inline args hbinding).symm h

theorem sameMeaning_comparand_null {name : String} (h : Known options args name)
    (hnull : (args.valueOf name).isNull = true) (ifNull before behind : String) :
    SameMeaning options args [.comparand name ifNull before behind] (text ifNull) := by
  have hmeaning : (Template.inPlace (Context.new args options)
      [.comparand name ifNull before behind]) =
        (text ifNull).inPlace (Context.new {} options) := by
    rw [Template.inPlace_singleton, text, Template.inPlace_singleton]
    simp only [Fragment.inPlace, lookup_of_known h, if_pos hnull]
  exact ⟨hmeaning, hmeaning⟩

theorem sameMeaning_comparand_values {name : String} (h : Known options args name)
    (hvalue : (args.valueOf name).isNull = false) (ifNull before : String) :
    let list := text "(" ++ [Fragment.values (args.valueOf name).elements] ++ text ")"
    SameMeaning options args [.comparand name ifNull (before ++ " (") ")"]
      (text (before ++ " ") ++ list) := by
  intro list
  have hmeaning : (Template.inPlace (Context.new args options)
      [.comparand name ifNull (before ++ " (") ")"]) =
        (text (before ++ " ") ++ list).inPlace (Context.new {} options) := by
    simp only [list, text, Template.inPlace_append, Template.inPlace_singleton, Fragment.inPlace,
      lookup_of_known h, inPlace_of_known h, hvalue, Bool.false_eq_true, if_false]
    rcases Value.inPlace (args.valueOf name).elements with e | symbols
    · rfl
    · have hopen : (before ++ " (").toList = (before ++ " ").toList ++ "(".toList := by
        rw [String.toList_append, String.toList_append, List.append_assoc]
        rfl
      simp [Except.map, hopen]
  exact ⟨hmeaning, hmeaning⟩

/-- A binary operation, where the test for null looks at the right side. -/
theorem sameMeaning_binary {op : Operator} {left right : Node}
    (hknown : ∀ name ∈ right.bindings, Known options args name)
    (hleft : (Node.part (dialect.layout options) left).Similar (SameMeaning options args)
      (Node.part (dialect.layout options) (left.inline args)))
    (hright : (Node.part (dialect.layout options) right).Similar (SameMeaning options args)
      (Node.part (dialect.layout options) (right.inline args))) :
    SameMeaning options args (dialect.template options (.of (.binary op left right)))
      (dialect.template options (Node.inline args (.of (.binary op left right)))) := by
  have hR := congruence_sameMeaning options args
  rw [Node.inline_binary, template_of, template_of]
  change SameMeaning options args (binary op (Node.part _ left) (Node.part _ right))
    (binary op (Node.part _ (left.inline args)) (Node.part _ _))
  rcases htest : nullTest? op with _ | test
  · have hequation : op.isEquation = false := by cases op <;> first | rfl | cases htest
    rw [hequation]
    exact congr_binary_plain hR (.inl htest) (.inl htest) hleft hright
  have hequation : op.isEquation = true := by cases op <;> first | rfl | cases htest
  have hside := congr_operand hR hleft
  rw [hequation, Bool.true_and]
  obtain ⟨form⟩ := right
  cases form with
  | null =>
    rw [binary_eq_test htest rfl, binary_eq_test htest rfl]
    exact hR.append hside (hR.text _)
  | binding name =>
    have hname := hknown name (by simp [Node.bindings_of, Form.bindings])
    rw [binary_eq_comparand htest rfl]
    cases hnull : (args.valueOf name).isNull with
    | true =>
      have hbinding : Node.isNullBinding args (.of (.binding name)) = true := hnull
      rw [hbinding, binary_eq_test htest rfl]
      exact hR.append hside (sameMeaning_comparand_null hname hnull _ _ _)
    | false =>
      have hbinding : Node.isNullBinding args (.of (.binding name)) = false := hnull
      have hlist : (Node.inline args (.of (.binding name))).kind = .list := rfl
      rw [hbinding, if_neg Bool.false_ne_true,
        binary_eq_plain (.inr ⟨by rw [Node.part, hlist]; exact NodeKind.noConfusion,
          by rw [Node.part, hlist]; exact NodeKind.noConfusion⟩), List.append_assoc]
      exact hR.append hside (sameMeaning_comparand_values hname hnull _ _)
  | _ =>
    exact congr_binary_plain hR (.inr ⟨NodeKind.noConfusion, NodeKind.noConfusion⟩)
      (.inr ⟨NodeKind.noConfusion, NodeKind.noConfusion⟩) hleft hright

/-- **Writing the arguments into a tree keeps its meaning.** -/
theorem meaning_inline (node : Node) (h : ∀ name ∈ node.bindings, Known options args name) :
    SameMeaning options args (dialect.template options node)
      (dialect.template options (node.inline args)) := by
  induction node using Node.induction with
  | layer form ih =>
    have hR := congruence_sameMeaning options args
    have hparts : ∀ node ∈ form.parts,
        (Node.part (dialect.layout options) node).Similar (SameMeaning options args)
          (Node.part (dialect.layout options) (node.inline args)) := by
      intro node hnode
      apply similar_inline
      apply ih node hnode
      intro name hname
      exact h name (Node.bindings_subset_of_mem_parts hnode hname)
    by_cases hbinding : form.kind = .binding
    · cases form with
      | binding name =>
        have hknown := h name (by simp [Node.bindings_of, Form.bindings])
        have hmeaning : Template.inPlace (Context.new args options) [.binding name] =
            Template.inPlace (Context.new {} options) [.values (args.valueOf name).elements] := by
          rw [Template.inPlace_singleton, Template.inPlace_singleton]
          exact inPlace_of_known hknown
        exact ⟨hmeaning, hmeaning⟩
      | _ => cases hbinding
    · by_cases hbinary : form.kind = .binary
      · cases form with
        | binary op left right =>
          refine sameMeaning_binary (fun name hname => h name ?_)
            (hparts left (by simp [Form.parts])) (hparts right (by simp [Form.parts]))
          exact Node.bindings_subset_of_mem_parts (by simp [Form.parts]) hname
        | _ => cases hbinary
      · rw [Node.inline_of args hbinding hbinary, template_of, template_of, Form.map_map]
        refine rule_congr hR options form (sameMeaning_own hbinding) hparts ?_
        rintro op left right rfl
        exact absurd rfl hbinary

/-! ## 3. The two renders agree -/

/-- **Reserved and filled slots mean the values in place.** A tree with its
    arguments and the tree with the arguments written into it fail alike.
    Otherwise their texts say the same with the values in place, as long as no
    name has a dollar sign; and where no binding occurs twice, the two renders
    are equal. -/
theorem render_inline (options : Options) (node : Node) (args : Args)
    (hknown : ∀ name ∈ node.bindings, Known options args name) :
    (∃ e, render options node args = .error e ∧
      render options (node.inline args) {} = .error e) ∨
    ∃ r r', render options node args = .ok r ∧ render options (node.inline args) {} = .ok r' ∧
      ((∀ name ∈ node.names, '$' ∉ name.toList) → r.inPlace = r'.inPlace) ∧
      (node.bindings.Nodup → r = r') := by
  have hmeaning := (meaning_inline node hknown).1
  rcases dialect.render_cases options node args with
    ⟨e, herror, hrender⟩ | ⟨symbols, r, hsymbols, hrender, hplace, hnumber⟩ <;>
  rcases dialect.render_cases options (node.inline args) {} with
    ⟨e', herror', hrender'⟩ | ⟨symbols', r', hsymbols', hrender', hplace', hnumber'⟩
  · rw [herror, herror'] at hmeaning
    obtain rfl := Except.error.inj hmeaning
    exact .inl ⟨e, hrender, hrender'⟩
  · rw [herror, hsymbols'] at hmeaning
    cases hmeaning
  · rw [hsymbols, herror'] at hmeaning
    cases hmeaning
  · rw [hsymbols, hsymbols'] at hmeaning
    obtain rfl := Except.ok.inj hmeaning
    refine .inr ⟨r, r', hrender, hrender', ?_, ?_⟩
    · intro hnames
      have hnames' : ∀ name ∈ (node.inline args).names, '$' ∉ name.toList := by
        intro name hname
        exact hnames name (Node.names_inline_subset args node hname)
      rw [hplace (spaced_template options node hnames),
        hplace' (spaced_template options _ hnames')]
    · intro hnodup
      have hnone : (node.inline args).bindings.Nodup := by
        rw [Node.bindings_inline]
        exact List.nodup_nil
      obtain ⟨hsql, hvalues⟩ := hnumber (nodup_bindings_template options hnodup)
      obtain ⟨hsql', hvalues'⟩ := hnumber' (nodup_bindings_template options hnone)
      obtain ⟨sql, values⟩ := r
      obtain ⟨sql', values'⟩ := r'
      obtain rfl : sql = sql' := String.toList_inj.mp (hsql.trans hsql'.symm)
      obtain rfl : values = values' := hvalues.trans hvalues'.symm
      rfl

/-- A binding that occurs twice shares its slots; written into the tree, its
    values do not. A null binding under `=` becomes a test. -/
theorem render_inline_shared :
    let node : Node := .of (.binary .and
      (.of (.membership (.of (.identifier "x")) (.of (.binding "xs"))))
      (.of (.call "f" [.of (.binding "xs"), .of (.binary .equal (.of (.identifier "y"))
        (.of (.binding "none")))])))
    let args := Args.ofList [("xs", .list [.int16 1, .int16 2])]
    let options : Options := { unbound := .null }
    ∃ r r', render options node args = .ok r ∧ render options (node.inline args) {} = .ok r' ∧
      r.sql = "x IN ($1,$2) AND f(($1,$2), (y IS NULL))" ∧
      r'.sql = "x IN ($1,$2) AND f(($3,$4), (y IS NULL))" ∧ r.inPlace = r'.inPlace := by
  intro node args options
  have hsql : (render options node args).toOption.map (·.sql) =
      some "x IN ($1,$2) AND f(($1,$2), (y IS NULL))" := by decide +kernel
  have hsql' : (render options (node.inline args) {}).toOption.map (·.sql) =
      some "x IN ($1,$2) AND f(($3,$4), (y IS NULL))" := by decide +kernel
  rcases render_inline options node args (fun _ _ => .inl rfl) with
    ⟨e, herror, -⟩ | ⟨r, r', hrender, hrender', hplace, -⟩
  · rw [herror] at hsql
    cases hsql
  · rw [hrender] at hsql
    rw [hrender'] at hsql'
    exact ⟨r, r', hrender, hrender', Option.some.inj hsql, Option.some.inj hsql',
      hplace (by decide)⟩

end Postgres

end SqlKit
