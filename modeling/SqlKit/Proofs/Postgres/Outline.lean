/-
  SqlKit/Proofs/Postgres/Outline.lean
  ===================================
  **No data reaches the text.**

  The data of a tree are the contents of its strings and the elements of its
  lists. `Node.outline` is the tree without them: every string is empty, and
  every list has as many elements as before, of which only the nested lists can
  be told from the others. Two trees have the same outline if they differ in
  their data only.

  A layout keeps the data in its fragments (`outline_template`), and a run does
  not look at them. Whatever the data of a tree and its arguments, the text and
  the number of values are therefore the same (`renders_agree_of_outline`).
-/
import SqlKit.Proofs.Postgres.Layout
import SqlKit.Proofs.Render.Outline

namespace SqlKit

/-! ## 1. Trees without their data -/

/-- A layer without its data. -/
def Node.outlineForm : Form (Part Node) → Node
  | .string _ => .of (.string "")
  | .list items => .of (.list (items.map Value.cell))
  | form => .of (form.map Part.result)

/-- A tree without its data. -/
def Node.outline : Node → Node :=
  recurse outlineForm

theorem Node.outline_of {form : Form Node} (hstring : form.kind ≠ .string)
    (hlist : form.kind ≠ .list) : outline (.of form) = .of (form.map outline) := by
  apply recurse_eq_map
  cases form with
  | string s => exact absurd rfl hstring
  | list items => exact absurd rfl hlist
  | _ => rfl

@[simp]
theorem Node.kind_outline (node : Node) : node.outline.kind = node.kind := by
  obtain ⟨form⟩ := node
  cases form <;> rfl

namespace Postgres

open Template (text)

/-! ## 2. Layouts without their data -/

/-- Two templates that differ in their data only. -/
abbrev SameOutline (t u : Template) : Prop :=
  t.outline = u.outline

theorem outline_inline (t : Template) : t.inline.outline = t.outline.inline := by
  rw [Template.inline, Template.outline, Template.outline, Template.inline, List.map_map,
    List.map_map]
  refine congrArg (List.map · t) (funext fun fragment => ?_)
  cases fragment <;> rfl

theorem congruence_sameOutline : Template.Congruence SameOutline where
  nil := rfl
  text _ := rfl
  clauseBreak := rfl
  append h h' := by
    rw [SameOutline, Template.outline_append, Template.outline_append, h, h']
  inline h := by
    rw [SameOutline, outline_inline, outline_inline, h]

variable {options : Options}

theorem similar_outline {node : Node} (h : SameOutline (dialect.template options node)
      (dialect.template options node.outline)) :
    (Node.part (dialect.layout options) node).Similar SameOutline
      (Node.part (dialect.layout options) node.outline) :=
  .of_kind node.kind_outline.symm h

/-- A binary operation looks at the kind of its right side and the name of a
    binding, which are no data. -/
theorem sameOutline_binary {op : Operator} {left right : Node}
    (hleft : (Node.part (dialect.layout options) left).Similar SameOutline
      (Node.part (dialect.layout options) left.outline))
    (hright : (Node.part (dialect.layout options) right).Similar SameOutline
      (Node.part (dialect.layout options) right.outline)) :
    SameOutline
      (binary op (Node.part (dialect.layout options) left)
        (Node.part (dialect.layout options) right))
      (binary op (Node.part (dialect.layout options) left.outline)
        (Node.part (dialect.layout options) right.outline)) := by
  refine congr_binary congruence_sameOutline (fun _ _ _ _ => rfl) right.kind_outline.symm ?_ hleft
    hright
  obtain ⟨form⟩ := right
  rintro (hnull | hbinding)
  · obtain rfl := Form.eq_null_of_kind hnull
    rfl
  · obtain ⟨name, rfl⟩ := Form.eq_binding_of_kind hbinding
    rfl

/-- **Laying out a tree in outline** is laying out the tree, in outline. -/
theorem outline_template (options : Options) (node : Node) :
    SameOutline (dialect.template options node) (dialect.template options node.outline) := by
  induction node using Node.induction with
  | layer form ih =>
    have hparts := fun node hnode => similar_outline (ih node hnode)
    by_cases hstring : form.kind = .string
    · cases form with
      | string s => rfl
      | _ => cases hstring
    · by_cases hlist : form.kind = .list
      · cases form with
        | list items =>
          change [Fragment.values (items.map Value.cell)] =
            [Fragment.values ((items.map Value.cell).map Value.cell)]
          rw [List.map_map]
          exact congrArg (fun f => [Fragment.values (items.map f)])
            (funext fun v => (Value.cell_cell v).symm)
        | _ => cases hlist
      · rw [Node.outline_of hstring hlist, template_of, template_of, Form.map_map]
        refine rule_congr congruence_sameOutline options form rfl hparts ?_
        rintro op left right rfl
        exact sameOutline_binary (hparts left (by simp [Form.parts]))
          (hparts right (by simp [Form.parts]))

/-! ## 3. Renders without a look at the data -/

/-- **No data reaches the text.** Two trees that differ in the contents of their
    strings and the elements of their lists, rendered with arguments that are
    missing, null, lists of one length or other values alike, have the same text
    or the same error, and as many values; so have their texts alone. -/
theorem renders_agree_of_outline (options : Options) {node node' : Node} {args args' : Args}
    (hnode : node.outline = node'.outline)
    (hargs : ∀ name, (args.get? name).map Value.outline = (args'.get? name).map Value.outline) :
    (render options node args).map (fun r => (r.sql, r.values.length)) =
        (render options node' args').map (fun r => (r.sql, r.values.length)) ∧
      renderText options node = renderText options node' := by
  have htemplate : (dialect.template options node).outline =
      (dialect.template options node').outline := by
    rw [outline_template options node, hnode, ← outline_template options node']
  exact ⟨dialect.render_eq_of_outline htemplate hargs, dialect.renderText_eq_of_outline htemplate⟩

/-- What is given for a name, a list or a role is nowhere in the text. -/
theorem renders_agree_of_outline_hostile :
    let node (name : String) (items : List Value) : Node := .of (.binary .and
      (.of (.binary .equal (.of (.identifier "name")) (.of (.string name))))
      (.of (.binary .or (.of (.membership (.of (.identifier "id")) (.of (.list items))))
        (.of (.binary .notEqual (.of (.identifier "role")) (.of (.binding "role")))))))
    let args := Args.ofList [("role", .int16 7)]
    let args' := Args.ofList [("role", .text "$1' OR 'a' = 'a")]
    let friendly := node "ann" [.int16 1, .null]
    let hostile := node "'; DROP TABLE t; --" [.text "(1))", .bool true]
    friendly.outline = hostile.outline ∧
      (∀ name, (args.get? name).map Value.outline = (args'.get? name).map Value.outline) ∧
      ((render {} hostile args').map (fun r => (r.sql, r.values.length))).toOption =
        some ("(name = $1) AND (id IN ($2,$3) OR (role != ($4)))", 4) := by
  intro node args args' friendly hostile
  have hnode : friendly.outline = hostile.outline := rfl
  have hargs (name : String) :
      (args.get? name).map Value.outline = (args'.get? name).map Value.outline := by
    change ((Args.empty.put "role" _).get? name).map _ = ((Args.empty.put "role" _).get? name).map _
    rw [Args.get?_put, Args.get?_put]
    split <;> rfl
  have hfriendly : ((render {} friendly args).map (fun r => (r.sql, r.values.length))).toOption =
      some ("(name = $1) AND (id IN ($2,$3) OR (role != ($4)))", 4) := by decide +kernel
  exact ⟨hnode, hargs, (renders_agree_of_outline {} hnode hargs).1 ▸ hfriendly⟩

end Postgres

end SqlKit
