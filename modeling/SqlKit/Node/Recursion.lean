/-
  SqlKit/Node/Recursion.lean
  ==========================
  **Walking a tree by a rule for one layer.**

  `Node.recurse rule` computes a result for every node of a tree from the bottom
  up. The rule sees one layer at a time; each child comes as a `Part`, which is
  the child itself together with its result, so a rule may also look at what a
  child is (whether it is a join, say).

  The recursion follows the structure of the tree. A tree holds its children in
  lists, options and records, so it takes one companion for each of these; they
  only say "in every place", and `recurse_of` replaces them all by one equation
  over `Form.map`. `Node.induction` is the matching proof principle: to prove a
  statement of all trees, prove it of a layer all of whose parts satisfy it.
-/
import SqlKit.Node.Basic

namespace SqlKit

/-- A child of a layer, together with what was computed for it. -/
structure Part (α : Type) where
  node : Node
  result : α

namespace Node

variable {α : Type}

/-! ## 1. Recursion -/

mutual

/-- The result of a rule at the root of a tree. -/
def recurse (rule : Form (Part α) → α) : Node → α
  | .of form => rule (recurseForm rule form)

/-- A layer with every child paired with its result. -/
def recurseForm (rule : Form (Part α) → α) : Form Node → Form (Part α)
  | .identifier name => .identifier name
  | .integer value => .integer value
  | .string text => .string text
  | .list items => .list items
  | .null => .null
  | .binding name => .binding name
  | .column table name => .column table name
  | .binary op left right => .binary op ⟨left, recurse rule left⟩ ⟨right, recurse rule right⟩
  | .membership element set => .membership ⟨element, recurse rule element⟩ ⟨set, recurse rule set⟩
  | .cast inner type => .cast ⟨inner, recurse rule inner⟩ type
  | .call name args => .call name (recurseList rule args)
  | .aggregate ⟨name, distinct, all, args, order⟩ =>
    .aggregate ⟨name, distinct, all, recurseList rule args, recurseItems rule order⟩
  | .aliased ⟨source, name⟩ => .aliased ⟨⟨source, recurse rule source⟩, name⟩
  | .join ⟨kind, table, condition⟩ =>
    .join ⟨kind, ⟨table, recurse rule table⟩, recurseCondition? rule condition⟩
  | .joinCondition condition => .joinCondition (recurseCondition rule condition)
  | .order items => .order (recurseItems rule items)
  | .select ⟨distinct, columns, tables, conditions, groupBy, order, limit, offset⟩ =>
    .select ⟨distinct, recurseList rule columns, recurseList rule tables,
      recurseList rule conditions, recurseList rule groupBy, recurseItems rule order, limit, offset⟩

def recurseList (rule : Form (Part α) → α) : List Node → List (Part α)
  | [] => []
  | node :: rest => ⟨node, recurse rule node⟩ :: recurseList rule rest

def recurseItems (rule : Form (Part α) → α) : List (OrderItem Node) → List (OrderItem (Part α))
  | [] => []
  | ⟨key, direction⟩ :: rest => ⟨⟨key, recurse rule key⟩, direction⟩ :: recurseItems rule rest

def recurseCondition (rule : Form (Part α) → α) : JoinCondition Node → JoinCondition (Part α)
  | ⟨test, condition⟩ => ⟨test, condition, recurse rule condition⟩

def recurseCondition? (rule : Form (Part α) → α) :
    Option (JoinCondition Node) → Option (JoinCondition (Part α))
  | none => none
  | some condition => some (recurseCondition rule condition)

end

/-! ## 2. The equation of the recursion -/

def part (rule : Form (Part α) → α) (node : Node) : Part α :=
  ⟨node, node.recurse rule⟩

theorem recurseList_eq_map (rule : Form (Part α) → α) (nodes : List Node) :
    recurseList rule nodes = nodes.map (part rule) := by
  induction nodes with
  | nil => rfl
  | cons node rest ih => simp only [recurseList, ih, List.map_cons, part]

theorem recurseItems_eq_map (rule : Form (Part α) → α) (items : List (OrderItem Node)) :
    recurseItems rule items = items.map (·.map (part rule)) := by
  induction items with
  | nil => rfl
  | cons item rest ih =>
    obtain ⟨key, direction⟩ := item
    simp only [recurseItems, ih, List.map_cons, OrderItem.map, part]

theorem recurseForm_eq_map (rule : Form (Part α) → α) (form : Form Node) :
    recurseForm rule form = form.map (part rule) := by
  cases form with
  | aggregate applied =>
    simp only [recurseForm, recurseList_eq_map, recurseItems_eq_map, Form.map, Aggregate.map]
  | join joined =>
    obtain ⟨kind, table, condition⟩ := joined
    rcases condition with _ | ⟨test, condition⟩ <;> rfl
  | joinCondition condition => obtain ⟨test, condition⟩ := condition; rfl
  | call name args => simp only [recurseForm, recurseList_eq_map, Form.map]
  | order items => simp only [recurseForm, recurseItems_eq_map, Form.map]
  | select statement =>
    simp only [recurseForm, recurseList_eq_map, recurseItems_eq_map, Form.map, Select.map]
  | _ => rfl

/-- The result at a node is the rule applied to its layer, with every child
    paired with its own result. -/
theorem recurse_of (rule : Form (Part α) → α) (form : Form Node) :
    recurse rule (.of form) = rule (form.map (part rule)) := by
  rw [recurse, recurseForm_eq_map]

/-! ## 3. Induction -/

section Induction

variable {P : Node → Prop}

mutual

/-- What holds of a layer whenever it holds of all its parts holds of every tree. -/
theorem induction (layer : ∀ form : Form Node, (∀ node ∈ form.parts, P node) → P (.of form)) :
    ∀ node, P node
  | .of form => layer form (induction_parts layer form)

theorem induction_parts (layer : ∀ form : Form Node, (∀ node ∈ form.parts, P node) → P (.of form)) :
    ∀ form : Form Node, ∀ node ∈ form.parts, P node
  | .identifier _ | .integer _ | .string _ | .list _ | .null | .binding _ | .column _ _ => by
    simp [Form.parts]
  | .binary _ left right => by
    simpa [Form.parts] using ⟨induction layer left, induction layer right⟩
  | .membership element set => by
    simpa [Form.parts] using ⟨induction layer element, induction layer set⟩
  | .cast inner _ => by simpa [Form.parts] using induction layer inner
  | .call _ args => induction_list layer args
  | .aggregate ⟨_, _, _, args, order⟩ => by
    have hargs := induction_list layer args
    have horder := induction_items layer order
    simp only [Form.parts, Aggregate.parts, List.mem_append]
    rintro node (h | h)
    · exact hargs node h
    · exact horder node h
  | .aliased ⟨source, _⟩ => by simpa [Form.parts] using induction layer source
  | .join ⟨_, table, condition⟩ => by
    have htable := induction layer table
    have hcondition := induction_condition layer condition
    simp only [Form.parts, Join.parts, List.mem_cons]
    rintro node (rfl | h)
    · exact htable
    · exact hcondition node h
  | .joinCondition ⟨_, condition⟩ => by simpa [Form.parts] using induction layer condition
  | .order items => induction_items layer items
  | .select ⟨_, columns, tables, conditions, groupBy, order, _, _⟩ => by
    have hcolumns := induction_list layer columns
    have htables := induction_list layer tables
    have hconditions := induction_list layer conditions
    have hgroupBy := induction_list layer groupBy
    have horder := induction_items layer order
    simp only [Form.parts, Select.parts, List.mem_append]
    rintro node ((((h | h) | h) | h) | h)
    · exact hcolumns node h
    · exact htables node h
    · exact hconditions node h
    · exact hgroupBy node h
    · exact horder node h

theorem induction_list (layer : ∀ form : Form Node, (∀ node ∈ form.parts, P node) → P (.of form)) :
    ∀ nodes : List Node, ∀ node ∈ nodes, P node
  | [] => by simp
  | first :: rest => by
    have hfirst := induction layer first
    have hrest := induction_list layer rest
    rintro node (_ | ⟨_, h⟩)
    · exact hfirst
    · exact hrest node h

theorem induction_items (layer : ∀ form : Form Node, (∀ node ∈ form.parts, P node) → P (.of form)) :
    ∀ items : List (OrderItem Node), ∀ node ∈ items.map (·.key), P node
  | [] => by simp
  | ⟨key, _⟩ :: rest => by
    have hkey := induction layer key
    have hrest := induction_items layer rest
    rintro node (_ | ⟨_, h⟩)
    · exact hkey
    · exact hrest node h

theorem induction_condition
    (layer : ∀ form : Form Node, (∀ node ∈ form.parts, P node) → P (.of form)) :
    ∀ condition : Option (JoinCondition Node),
      ∀ node ∈ condition.toList.map (·.condition), P node
  | none => by simp
  | some ⟨_, condition⟩ => by simpa using induction layer condition

end

end Induction

end Node

end SqlKit
