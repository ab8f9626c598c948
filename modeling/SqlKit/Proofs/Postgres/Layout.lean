/-
  SqlKit/Proofs/Postgres/Layout.lean
  ==================================
  **How the rules put templates together.**

  A rule writes fixed text around the templates of its parts and adds at most one
  fragment of its own. Two consequences serve every comparison of trees.

    * `rule_congr`: a relation between templates that is kept by writing one
      after the other (`Template.Congruence`) is kept by every rule. Two trees
      with related leaves therefore have related layouts.
    * `flatMap_template`: whatever is read off the fragments and does not see
      fixed text is read off the layers of the tree, in the same order.

  The exception in both is the comparison with null, which looks at what its
  right side is; it is stated apart.
-/
import Mathlib.Data.List.Flatten
import SqlKit.Proofs.Node.Gather
import SqlKit.Proofs.Render.Unshared
import SqlKit.Postgres

namespace SqlKit

/-! ## 1. Relations between templates -/

/-- A relation between templates that is kept by putting templates together. -/
structure Template.Congruence (R : Template → Template → Prop) : Prop where
  nil : R [] []
  text : ∀ s, R (Template.text s) (Template.text s)
  clauseBreak : R [.clauseBreak] [.clauseBreak]
  append : ∀ {t t' u u'}, R t t' → R u u' → R (t ++ u) (t' ++ u')
  inline : ∀ {t t'}, R t t' → R t.inline t'.inline

/-- Equal templates put together in the same way are equal. -/
theorem Template.congruence_eq : Template.Congruence Eq where
  nil := rfl
  text _ := rfl
  clauseBreak := rfl
  append h h' := by rw [h, h']
  inline h := by rw [h]

/-- Two parts with related templates that a rule treats alike. -/
structure Part.Similar (R : Template → Template → Prop) (p q : Part Template) : Prop where
  result : R p.result q.result
  compound : p.node.isCompound = q.node.isCompound
  select : p.node.kind = .select ↔ q.node.kind = .select
  join : p.node.kind = .join ↔ q.node.kind = .join

/-- A rule looks at no more than the kind of a part. -/
theorem Part.Similar.of_kind {R : Template → Template → Prop} {p q : Part Template}
    (hkind : p.node.kind = q.node.kind) (h : R p.result q.result) : p.Similar R q :=
  ⟨h, congrArg NodeKind.isCompound hkind, by rw [hkind], by rw [hkind]⟩

/-- The fragment that a layer writes by itself. -/
def Form.own {ν : Type} : Form ν → Template
  | .string s => [.value (.text s)]
  | .list items => [.values items]
  | .binding name => [.binding name]
  | .aggregate applied =>
    if applied.distinct && applied.all then [.fail (.conflictingModifiers applied.name)] else []
  | _ => []

/-- An aggregate call contradicts itself, or the layer is none that does. -/
theorem Form.conflict_or_agree {ν : Type} (form : Form ν) :
    (∃ name args order, form = .aggregate ⟨name, true, true, args, order⟩) ∨
      ∀ applied, form = .aggregate applied → (applied.distinct && applied.all) = false := by
  cases form with
  | aggregate applied =>
    obtain ⟨name, distinct, all, args, order⟩ := applied
    cases distinct with
    | true =>
      cases all with
      | true => exact .inl ⟨name, args, order, rfl⟩
      | false => exact .inr fun _ h => Form.aggregate.inj h ▸ rfl
    | false => exact .inr fun _ h => Form.aggregate.inj h ▸ rfl
  | _ => exact .inr fun _ h => nomatch h

theorem Form.eq_null_of_kind {ν : Type} {form : Form ν} (h : form.kind = .null) :
    form = .null := by
  cases form <;> first | rfl | cases h

theorem Form.eq_binding_of_kind {ν : Type} {form : Form ν} (h : form.kind = .binding) :
    ∃ name, form = .binding name := by
  cases form <;> first | exact ⟨_, rfl⟩ | cases h

namespace Postgres

open Template (text separated)

/-- A binary operation that is no comparison with null or a binding. -/
theorem binary_eq_plain {op : Operator} {left right : Part Template}
    (h : nullTest? op = none ∨ right.node.kind ≠ .null ∧ right.node.kind ≠ .binding) :
    binary op left right = left.operand ++ text (" " ++ op.symbol ++ " ") ++ right.operand := by
  unfold binary
  split
  · rename_i htest hform
    rcases h with h | ⟨hnull, -⟩
    · rw [h] at htest
      cases htest
    · exact absurd (congrArg Form.kind hform) hnull
  · rename_i htest hform
    rcases h with h | ⟨-, hbinding⟩
    · rw [h] at htest
      cases htest
    · exact absurd (congrArg Form.kind hform) hbinding
  · rfl

theorem binary_eq_test {op : Operator} {left right : Part Template} {test : String}
    (htest : nullTest? op = some test) (hform : right.node.form = .null) :
    binary op left right = left.operand ++ text (" " ++ test) := by
  rw [binary, htest, hform]

theorem binary_eq_comparand {op : Operator} {left right : Part Template} {test name : String}
    (htest : nullTest? op = some test) (hform : right.node.form = .binding name) :
    binary op left right =
      left.operand ++ [.comparand name (" " ++ test) (" " ++ op.symbol ++ " (") ")"] := by
  rw [binary, htest, hform]

section Congruence

variable {R : Template → Template → Prop} (hR : Template.Congruence R)
include hR

theorem congr_operand {p q : Part Template} (h : p.Similar R q) : R p.operand q.operand := by
  rw [Part.operand, Part.operand, h.compound]
  cases q.node.isCompound with
  | false => exact h.result
  | true => exact hR.append (hR.append (hR.text _) h.result) (hR.text _)

theorem congr_inline {p q : Part Template} (h : p.Similar R q) : p.inline.Similar R q.inline :=
  ⟨hR.inline h.result, h.compound, h.select, h.join⟩

section Lists

variable {ν : Type} {xs : List ν} {f g : ν → Template}

theorem congr_commaSeparated (h : ∀ x ∈ xs, R (f x) (g x)) :
    R (commaSeparated (xs.map f)) (commaSeparated (xs.map g)) := by
  induction xs with
  | nil => exact hR.nil
  | cons x xs ih =>
    have hx := h x List.mem_cons_self
    have hrest := ih fun y hy => h y (List.mem_cons_of_mem x hy)
    cases xs with
    | nil => simpa [commaSeparated, separated] using hx
    | cons y ys => exact hR.append hx (hR.append (hR.text _) hrest)

theorem congr_flatMap (h : ∀ x ∈ xs, R (f x) (g x)) : R (xs.flatMap f) (xs.flatMap g) := by
  induction xs with
  | nil => exact hR.nil
  | cons x xs ih =>
    exact hR.append (h x List.mem_cons_self) (ih fun y hy => h y (List.mem_cons_of_mem x hy))

end Lists

section Parts

variable {ν : Type} {xs : List ν} {items : List (OrderItem ν)} {p q : ν → Part Template}

theorem congr_orderItems (h : ∀ item ∈ items, (p item.key).Similar R (q item.key)) :
    R (orderItems (items.map (·.map p))) (orderItems (items.map (·.map q))) := by
  rw [orderItems, orderItems, List.map_map, List.map_map]
  exact congr_commaSeparated hR fun item hitem => hR.append (h item hitem).result (hR.text _)

theorem congr_orderClause (h : ∀ item ∈ items, (p item.key).Similar R (q item.key)) :
    R (orderClause (items.map (·.map p))) (orderClause (items.map (·.map q))) := by
  cases items with
  | nil => exact hR.nil
  | cons item rest => exact hR.append (hR.text _) (congr_orderItems hR h)

theorem congr_columns (h : ∀ x ∈ xs, (p x).Similar R (q x)) :
    R (columns (xs.map p)) (columns (xs.map q)) := by
  cases xs with
  | nil => exact hR.text _
  | cons x rest =>
    change R (commaSeparated (((x :: rest).map p).map column))
      (commaSeparated (((x :: rest).map q).map column))
    rw [List.map_map, List.map_map]
    refine congr_commaSeparated hR fun y hy => ?_
    have hy := h y hy
    by_cases hselect : (q y).node.kind = .select
    · simp only [Function.comp_apply, column, if_pos hselect, if_pos (hy.select.mpr hselect)]
      exact congr_operand hR hy
    · simp only [Function.comp_apply, column, if_neg hselect, if_neg (mt hy.select.mp hselect)]
      exact hy.result

theorem congr_tables (h : ∀ x ∈ xs, (p x).Similar R (q x)) :
    R (tables (xs.map p)) (tables (xs.map q)) := by
  cases xs with
  | nil => exact hR.nil
  | cons x rest =>
    have hx := h x List.mem_cons_self
    rw [List.map_cons, List.map_cons, tables, tables, List.flatMap_map, List.flatMap_map]
    refine hR.append hx.result (congr_flatMap hR fun y hy => ?_)
    have hy := h y (List.mem_cons_of_mem x hy)
    by_cases hjoin : (q y).node.kind = .join
    · simp only [furtherTable, if_pos hjoin, if_pos (hy.join.mpr hjoin)]
      exact hR.append (hR.text _) hy.result
    · simp only [furtherTable, if_neg hjoin, if_neg (mt hy.join.mp hjoin)]
      exact hR.append (hR.text _) hy.result

/-- The chain keeps the relation and whether it needs parentheses. -/
theorem congr_foldl_and {c c' : Condition} (htemplate : R c.template c'.template)
    (hcompound : c.compound = c'.compound) (h : ∀ x ∈ xs, (p x).Similar R (q x)) :
    R ((xs.map p).foldl Condition.and c).template ((xs.map q).foldl Condition.and c').template := by
  induction xs generalizing c c' with
  | nil => exact htemplate
  | cons x rest ih =>
    have hx := congr_operand hR (h x List.mem_cons_self)
    refine ih ?_ rfl fun y hy => h y (List.mem_cons_of_mem x hy)
    refine hR.append (hR.append ?_ (hR.text _)) hx
    rw [hcompound]
    cases c'.compound with
    | false => exact htemplate
    | true => exact hR.append (hR.append (hR.text _) htemplate) (hR.text _)

theorem congr_conjunction (h : ∀ x ∈ xs, (p x).Similar R (q x)) :
    R (conjunction (xs.map p)) (conjunction (xs.map q)) := by
  cases xs with
  | nil => exact hR.nil
  | cons x rest =>
    have hx := h x List.mem_cons_self
    exact congr_foldl_and hR hx.result hx.compound fun y hy => h y (List.mem_cons_of_mem x hy)

theorem congr_clause {t u : Template} (present : Bool) (keyword : String) (h : R t u) :
    R (clause present keyword t) (clause present keyword u) := by
  cases present with
  | false => exact hR.nil
  | true => exact hR.append (hR.append hR.clauseBreak (hR.text keyword)) h

theorem congr_clauses {s : Select ν} (h : ∀ x ∈ s.parts, (p x).Similar R (q x)) :
    R (clauses (s.map p)) (clauses (s.map q)) := by
  simp only [Select.parts, List.mem_append, List.mem_map, or_imp, forall_and] at h
  obtain ⟨⟨⟨⟨hcolumns, htables⟩, hconditions⟩, hgroups⟩, horder⟩ := h
  have hgroupBy : R (commaSeparated ((s.groupBy.map p).map Part.result))
      (commaSeparated ((s.groupBy.map q).map Part.result)) := by
    rw [List.map_map, List.map_map]
    exact congr_commaSeparated hR fun x hx => (hgroups x hx).result
  simp only [clauses, Select.map, List.isEmpty_map]
  refine hR.append (hR.append (hR.append (hR.append (hR.append (hR.append (hR.append (hR.text _)
    (congr_columns hR hcolumns)) ?_) ?_) ?_) ?_) ?_) ?_
  · exact congr_clause hR _ _ (congr_tables hR htables)
  · exact congr_clause hR _ _ (congr_conjunction hR hconditions)
  · exact congr_clause hR _ _ hgroupBy
  · exact congr_clause hR _ _ (congr_orderItems hR fun item hitem =>
      horder item.key ⟨item, hitem, rfl⟩)
  · exact congr_clause hR _ _ (hR.text _)
  · exact congr_clause hR _ _ (hR.text _)

theorem congr_join {joined : Join ν} (h : ∀ x ∈ joined.parts, (p x).Similar R (q x)) :
    R (join (joined.map p)) (join (joined.map q)) := by
  obtain ⟨kind, table, condition⟩ := joined
  have htable := hR.append (hR.text (joinWords kind ++ " ")) (h table (by simp [Join.parts])).result
  cases condition with
  | none => exact htable
  | some condition =>
    have hcondition := (h condition.condition (by simp [Join.parts])).result
    exact hR.append (hR.append htable (hR.text _))
      (hR.append (hR.append (hR.text _) hcondition) (hR.text _))

theorem congr_aggregate {applied : Aggregate ν} (hown : R (Form.aggregate applied).own
      (Form.aggregate applied).own) (h : ∀ x ∈ applied.parts, (p x).Similar R (q x)) :
    R (aggregate (applied.map p)) (aggregate (applied.map q)) := by
  obtain ⟨name, distinct, all, args, order⟩ := applied
  simp only [Aggregate.parts, List.mem_append, List.mem_map, or_imp, forall_and] at h
  obtain ⟨hargs, horder⟩ := h
  have hlist : R (commaSeparated ((args.map p).map Part.operand))
      (commaSeparated ((args.map q).map Part.operand)) := by
    rw [List.map_map, List.map_map]
    exact congr_commaSeparated hR fun x hx => congr_operand hR (hargs x hx)
  have horders := congr_orderClause hR fun item hitem => horder item.key ⟨item, hitem, rfl⟩
  have hcall (opening : String) := hR.append (hR.append (hR.append (hR.text opening) hlist) horders)
    (hR.text ")")
  cases distinct with
  | false => exact hcall _
  | true =>
    cases all with
    | false => exact hcall _
    | true => exact hown

end Parts

theorem congr_binary_plain {op : Operator} {left left' right right' : Part Template}
    (h : nullTest? op = none ∨ right.node.kind ≠ .null ∧ right.node.kind ≠ .binding)
    (h' : nullTest? op = none ∨ right'.node.kind ≠ .null ∧ right'.node.kind ≠ .binding)
    (hleft : left.Similar R left') (hright : right.Similar R right') :
    R (binary op left right) (binary op left' right') := by
  rw [binary_eq_plain h, binary_eq_plain h']
  exact hR.append (hR.append (congr_operand hR hleft) (hR.text _)) (congr_operand hR hright)

/-- Two binary operations, if their right sides are of one kind, and the same where
    they are null or a binding. -/
theorem congr_binary {op : Operator} {left left' right right' : Part Template}
    (hcomparand : ∀ name ifNull before behind,
      R [.comparand name ifNull before behind] [.comparand name ifNull before behind])
    (hkind : right.node.kind = right'.node.kind)
    (hform : right.node.kind = .null ∨ right.node.kind = .binding →
      right.node.form = right'.node.form)
    (hleft : left.Similar R left') (hright : right.Similar R right') :
    R (binary op left right) (binary op left' right') := by
  rcases htest : nullTest? op with _ | test
  · exact congr_binary_plain hR (.inl htest) (.inl htest) hleft hright
  have hside := congr_operand hR hleft
  by_cases hnull : right.node.kind = .null
  · have hright := Form.eq_null_of_kind hnull
    rw [binary_eq_test htest hright, binary_eq_test htest ((hform (.inl hnull)).symm.trans hright)]
    exact hR.append hside (hR.text _)
  by_cases hbinding : right.node.kind = .binding
  · obtain ⟨name, hright⟩ := Form.eq_binding_of_kind hbinding
    rw [binary_eq_comparand htest hright,
      binary_eq_comparand htest ((hform (.inr hbinding)).symm.trans hright)]
    exact hR.append hside (hcomparand _ _ _ _)
  · exact congr_binary_plain hR (.inr ⟨hnull, hbinding⟩)
      (.inr ⟨hkind ▸ hnull, hkind ▸ hbinding⟩) hleft hright

/-- **Every rule keeps a congruence**, if the fragments of its own and, for a
    binary operation, the test for null do. -/
theorem rule_congr {ν : Type} (options : Options) (form : Form ν) {p q : ν → Part Template}
    (hown : R form.own form.own) (hparts : ∀ x ∈ form.parts, (p x).Similar R (q x))
    (hbinary : ∀ op left right, form = .binary op left right →
      R (binary op (p left) (p right)) (binary op (q left) (q right))) :
    R (rule options (form.map p)) (rule options (form.map q)) := by
  cases form with
  | identifier name => exact hR.text _
  | integer value => exact hR.text _
  | null => exact hR.text _
  | column table name => exact hR.text _
  | string s => exact hown
  | list items => exact hown
  | binding name => exact hown
  | binary op left right => exact hbinary op left right rfl
  | membership element set =>
    have helement := congr_operand hR (hparts element (by simp [Form.parts]))
    have hset := congr_operand hR (hparts set (by simp [Form.parts]))
    exact hR.append (hR.append helement (hR.text _)) hset
  | cast inner type =>
    exact hR.append (hR.append (hR.text _) (hparts inner (by simp [Form.parts])).result) (hR.text _)
  | call name args =>
    have hargs : R (commaSeparated ((args.map p).map Part.operand))
        (commaSeparated ((args.map q).map Part.operand)) := by
      rw [List.map_map, List.map_map]
      exact congr_commaSeparated hR fun x hx => congr_operand hR (hparts x hx)
    exact hR.append (hR.append (hR.text _) hargs) (hR.text _)
  | aggregate applied => exact congr_aggregate hR hown hparts
  | aliased named =>
    exact hR.append (congr_operand hR (hparts named.source (by simp [Form.parts]))) (hR.text _)
  | join joined => exact congr_join hR hparts
  | joinCondition condition =>
    exact hR.append (hR.append (hR.text _) (hparts _ (by simp [Form.parts])).result) (hR.text _)
  | order items =>
    apply congr_orderClause hR
    intro item hitem
    exact hparts item.key (List.mem_map.mpr ⟨item, hitem, rfl⟩)
  | select statement =>
    have hstatement (r : ν → Part Template) :
        rule options (Form.map r (.select statement)) =
          clauses (statement.map fun x => (r x).inline) := by
      have hmap : (statement.map r).map Part.inline = statement.map fun x => (r x).inline :=
        Form.select.inj (Form.map_map Part.inline r (.select statement))
      change select (statement.map r) = _
      rw [select, hmap]
    rw [hstatement, hstatement]
    exact congr_clauses hR fun x hx => congr_inline hR (hparts x hx)

end Congruence

/-- The rules look at one option only, which is whether names are quoted. -/
theorem template_congr {options options' : Options} (h : options.quote = options'.quote)
    (node : Node) : dialect.template options node = dialect.template options' node := by
  have hlayout : dialect.layout options = dialect.layout options' := by
    funext form
    have hident (name : String) : identText options name = identText options' name := by
      rw [identText, identText, h]
    cases form with
    | identifier name => exact congrArg text (hident name)
    | aliased named =>
      change named.source.operand ++ text (" AS " ++ identText options named.name) =
        named.source.operand ++ text (" AS " ++ identText options' named.name)
      rw [hident]
    | _ => rfl
  rw [Dialect.template, Dialect.template, hlayout]

/-! ## 2. Reading fragments off a layout -/

section Reading

variable {β : Type} {g : Fragment → List β} (htext : ∀ s, g (.verbatim s) = [])
  (hbreak : g .clauseBreak = [])
include htext

theorem flatMap_text (s : String) : (text s).flatMap g = [] := by
  simp only [text, List.flatMap_cons, List.flatMap_nil, htext, List.append_nil]

theorem flatMap_operand (t : Template) (compound : Bool) :
    (t.operand compound).flatMap g = t.flatMap g := by
  cases compound with
  | false => rfl
  | true =>
    simp only [Template.operand, if_true, List.flatMap_append, flatMap_text htext,
      List.nil_append, List.append_nil]

theorem flatMap_separated (separator : String) (ts : List Template) :
    (separated separator ts).flatMap g = ts.flatMap fun t => t.flatMap g := by
  induction ts with
  | nil => rfl
  | cons t ts ih =>
    cases ts with
    | nil => simp [separated]
    | cons u ts =>
      have hcons : separated separator (t :: u :: ts) =
          t ++ (text separator ++ separated separator (u :: ts)) := rfl
      rw [hcons, List.flatMap_append, List.flatMap_append, flatMap_text htext, ih, List.nil_append]
      rfl

theorem flatMap_orderItems (items : List (OrderItem (Part Template))) :
    (orderItems items).flatMap g =
      (items.map (·.key)).flatMap fun part => part.result.flatMap g := by
  rw [orderItems, commaSeparated, flatMap_separated htext, List.flatMap_map, List.flatMap_map]
  simp only [List.flatMap_append, flatMap_text htext, List.append_nil]

theorem flatMap_orderClause (items : List (OrderItem (Part Template))) :
    (orderClause items).flatMap g =
      (items.map (·.key)).flatMap fun part => part.result.flatMap g := by
  cases items with
  | nil => rfl
  | cons item rest =>
    change (text " ORDER BY " ++ orderItems (item :: rest)).flatMap g = _
    rw [List.flatMap_append, flatMap_text htext, List.nil_append, flatMap_orderItems htext]

theorem flatMap_columns (parts : List (Part Template)) :
    (columns parts).flatMap g = parts.flatMap fun part => part.result.flatMap g := by
  cases parts with
  | nil => exact flatMap_text htext "*"
  | cons part rest =>
    change (commaSeparated ((part :: rest).map column)).flatMap g = _
    have hcolumn (part : Part Template) : (column part).flatMap g = part.result.flatMap g := by
      unfold column
      split
      · exact flatMap_operand htext _ _
      · rfl
    rw [commaSeparated, flatMap_separated htext, List.flatMap_map]
    simp only [hcolumn]

theorem flatMap_tables (parts : List (Part Template)) :
    (tables parts).flatMap g = parts.flatMap fun part => part.result.flatMap g := by
  have hfurther (part : Part Template) : (furtherTable part).flatMap g = part.result.flatMap g := by
    unfold furtherTable
    split <;> rw [List.flatMap_append, flatMap_text htext, List.nil_append]
  cases parts with
  | nil => rfl
  | cons part rest =>
    rw [tables, List.flatMap_append, List.flatMap_assoc, List.flatMap_cons]
    simp only [hfurther]

theorem flatMap_foldl_and (c : Condition) (parts : List (Part Template)) :
    (parts.foldl Condition.and c).template.flatMap g =
      c.template.flatMap g ++ parts.flatMap fun part => part.result.flatMap g := by
  induction parts generalizing c with
  | nil => simp
  | cons part rest ih =>
    rw [List.foldl_cons, ih, Condition.and, List.flatMap_append, List.flatMap_append,
      flatMap_operand htext, flatMap_text htext, List.append_nil, Part.operand,
      flatMap_operand htext, List.append_assoc, List.flatMap_cons]

theorem flatMap_conjunction (parts : List (Part Template)) :
    (conjunction parts).flatMap g = parts.flatMap fun part => part.result.flatMap g := by
  cases parts with
  | nil => rfl
  | cons part rest => exact flatMap_foldl_and htext _ rest

theorem flatMap_aggregate (applied : Aggregate (Part Template)) :
    (aggregate applied).flatMap g =
      if applied.distinct && applied.all then g (.fail (.conflictingModifiers applied.name))
      else applied.parts.flatMap fun part => part.result.flatMap g := by
  unfold aggregate
  split
  · simp
  · simp only [List.flatMap_append, flatMap_text htext, List.nil_append, List.append_nil,
      commaSeparated, flatMap_separated htext, flatMap_orderClause htext, Aggregate.parts,
      List.flatMap_map, Part.operand, flatMap_operand htext]

theorem flatMap_join (joined : Join (Part Template)) :
    (join joined).flatMap g = joined.parts.flatMap fun part => part.result.flatMap g := by
  obtain ⟨kind, table, condition⟩ := joined
  cases condition with
  | none => simp [join, Join.parts, flatMap_text htext]
  | some condition => simp [join, joinCondition, Join.parts, flatMap_text htext]

include hbreak

theorem flatMap_inline (t : Template) : t.inline.flatMap g = t.flatMap g := by
  rw [Template.inline, List.flatMap_map]
  refine congrArg (List.flatMap · t) (funext fun fragment => ?_)
  cases fragment with
  | clauseBreak => rw [Template.inlineFragment, htext, hbreak]
  | _ => rfl

theorem flatMap_clause {present : Bool} (keyword : String) {body : Template}
    (h : present = false → body.flatMap g = []) :
    (clause present keyword body).flatMap g = body.flatMap g := by
  cases present with
  | false => exact (h rfl).symm
  | true =>
    simp only [clause, if_true, List.cons_append, List.flatMap_cons, List.flatMap_append, hbreak,
      flatMap_text htext, List.nil_append]

theorem flatMap_select (s : Select (Part Template)) :
    (select s).flatMap g = s.parts.flatMap fun part => part.result.flatMap g := by
  have hresult (part : Part Template) : part.inline.result.flatMap g = part.result.flatMap g :=
    flatMap_inline htext hbreak part.result
  have hempty {ν : Type} {xs : List ν} (h : (!xs.isEmpty) = false) : xs = [] := by
    simpa using h
  rw [select, clauses]
  simp only [List.flatMap_append, flatMap_text htext, List.nil_append]
  rw [flatMap_columns htext,
    flatMap_clause htext hbreak _ fun h => by rw [hempty h, tables, List.flatMap_nil],
    flatMap_clause htext hbreak _ fun h => by rw [hempty h, conjunction, List.flatMap_nil],
    flatMap_clause htext hbreak _ fun h => by rw [hempty h]; rfl,
    flatMap_clause htext hbreak _ fun h => by rw [hempty h]; rfl,
    flatMap_clause htext hbreak _ fun _ => flatMap_text htext _,
    flatMap_clause htext hbreak _ fun _ => flatMap_text htext _,
    flatMap_tables htext, flatMap_conjunction htext, flatMap_orderItems htext, commaSeparated,
    flatMap_separated htext, flatMap_text htext, flatMap_text htext]
  simp only [Select.map, Select.parts, OrderItem.map, List.flatMap_append, List.flatMap_map,
    hresult, List.append_nil]

/-- **What is read off a layout is read off the layers of the tree**, as long as
    it is nothing for fixed text and a comparison counts as its binding. -/
theorem flatMap_template (options : Options) (form : Form Node)
    (hcomparand : ∀ name ifNull before behind,
      g (.comparand name ifNull before behind) = g (.binding name))
    (hagree : ∀ applied, form = .aggregate applied → (applied.distinct && applied.all) = false) :
    (dialect.template options (.of form)).flatMap g =
      form.own.flatMap g ++
        form.parts.flatMap fun node => (dialect.template options node).flatMap g := by
  have hresult (node : Node) : (Node.part (dialect.layout options) node).result.flatMap g =
      (dialect.template options node).flatMap g := rfl
  have hoperand (node : Node) : (Node.part (dialect.layout options) node).operand.flatMap g =
      (dialect.template options node).flatMap g := flatMap_operand htext _ _
  rw [template_of]
  cases form with
  | binary op left right =>
    change (binary op (Node.part _ left) (Node.part _ right)).flatMap g = _
    simp only [binary]
    split
    · rename_i hform
      obtain ⟨form⟩ := right
      obtain rfl : form = .null := hform
      have hnull : (dialect.template options (.of .null)).flatMap g = [] :=
        flatMap_text htext "NULL"
      simp [Form.own, Form.parts, hoperand, flatMap_text htext, hnull]
    · rename_i name _ hform
      obtain ⟨form⟩ := right
      obtain rfl : form = .binding name := hform
      have hbinding : (dialect.template options (.of (.binding name))).flatMap g =
        g (.binding name) := List.append_nil _
      simp [Form.own, Form.parts, hoperand, hcomparand, hbinding]
    · simp [Form.own, Form.parts, hoperand, flatMap_text htext]
  | membership element set =>
    change ((Node.part _ element).operand ++ text " IN " ++ (Node.part _ set).operand).flatMap g = _
    simp [Form.own, Form.parts, hoperand, flatMap_text htext]
  | cast inner type =>
    change (text "(" ++ (Node.part _ inner).result ++ text (")::" ++ type)).flatMap g = _
    simp [Form.own, Form.parts, hresult, flatMap_text htext]
  | call name args =>
    change (text (name ++ "(") ++ commaSeparated ((args.map _).map Part.operand) ++
      text ")").flatMap g = _
    simp [Form.own, Form.parts, commaSeparated, flatMap_separated htext, List.flatMap_map, hoperand,
      flatMap_text htext]
  | aggregate applied =>
    have hagree := hagree applied rfl
    change (aggregate (applied.map _)).flatMap g = _
    have hown : (Form.aggregate applied).own = [] := by simp [Form.own, hagree]
    have hparts : (applied.map (Node.part (dialect.layout options))).parts =
        applied.parts.map (Node.part (dialect.layout options)) :=
      Form.parts_map _ (.aggregate applied)
    rw [flatMap_aggregate htext, if_neg (by simpa [Aggregate.map] using hagree), hown, hparts,
      List.flatMap_map]
    rfl
  | aliased named =>
    change ((Node.part _ named.source).operand ++ text _).flatMap g = _
    simp [Form.own, Form.parts, hoperand, flatMap_text htext]
  | join joined =>
    have hparts : (joined.map (Node.part (dialect.layout options))).parts =
        joined.parts.map (Node.part (dialect.layout options)) := Form.parts_map _ (.join joined)
    change (join (joined.map _)).flatMap g = _
    rw [flatMap_join htext, hparts, List.flatMap_map]
    rfl
  | joinCondition condition =>
    change (text _ ++ (Node.part _ condition.condition).result ++ text ")").flatMap g = _
    simp [Form.own, Form.parts, hresult, flatMap_text htext]
  | order items =>
    change (orderClause (items.map _)).flatMap g = _
    rw [flatMap_orderClause htext, List.map_map, List.flatMap_map, Form.parts, List.flatMap_map]
    rfl
  | select statement =>
    have hparts : (statement.map (Node.part (dialect.layout options))).parts =
        statement.parts.map (Node.part (dialect.layout options)) :=
      Form.parts_map _ (.select statement)
    change (select (statement.map _)).flatMap g = _
    rw [flatMap_select htext hbreak, hparts, List.flatMap_map]
    rfl
  | string s => exact (List.append_nil _).symm
  | list items => exact (List.append_nil _).symm
  | binding name => exact (List.append_nil _).symm
  | _ => exact flatMap_text htext _

end Reading

/-! ## 3. The bindings of a layout -/

/-- A layout has the bindings of its tree, in their order; those inside an
    aggregate call that contradicts itself are not reached. -/
theorem bindings_template_sublist (options : Options) (node : Node) :
    (dialect.template options node).bindings.Sublist node.bindings := by
  induction node using Node.induction with
  | layer form ih =>
    rcases form.conflict_or_agree with ⟨name, args, order, rfl⟩ | hagree
    · exact List.nil_sublist _
    · have hown : form.own.flatMap Fragment.bindings = form.bindings := by
        cases form with
        | aggregate applied => simp [Form.own, Form.bindings, hagree applied rfl]
        | _ => rfl
      rw [Template.bindings, flatMap_template (fun _ => rfl) rfl options form
        (fun _ _ _ _ => rfl) hagree, hown, Node.bindings_of]
      exact (List.Sublist.refl _).append (List.Sublist.flatMap_right _ ih)

theorem nodup_bindings_template (options : Options) {node : Node} (h : node.bindings.Nodup) :
    (dialect.template options node).bindings.Nodup :=
  (bindings_template_sublist options node).nodup h

end Postgres

end SqlKit
