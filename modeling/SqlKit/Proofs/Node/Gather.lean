/-
  SqlKit/Proofs/Node/Gather.lean
  ==============================
  **What a tree mentions.**

  Names, bindings and subtrees are found layer by layer: each layer contributes
  its own, and its children theirs, in the order in which they are written. All
  these lists are `Node.gather` at a function on one layer, and all that is ever
  needed of them is the equation of `gather` (`names_of`, `bindings_of`,
  `subtrees_of`).

  Before that come the laws of `Form.map`, which say that changing the children
  of a layer twice is changing them once, and that it only matters on the
  children there are.
-/
import SqlKit.Node.Recursion

namespace SqlKit

variable {ν μ κ β : Type}

/-! ## 1. Changing the children of a layer -/

theorem Form.map_map (g : μ → κ) (f : ν → μ) (form : Form ν) :
    (form.map f).map g = form.map fun x => g (f x) := by
  cases form with
  | join joined =>
    obtain ⟨kind, table, condition⟩ := joined
    cases condition <;> rfl
  | call name args => simp only [map, List.map_map, Function.comp_def]
  | aggregate applied =>
    simp only [map, Aggregate.map, OrderItem.map, List.map_map, Function.comp_def]
  | order items => simp only [map, OrderItem.map, List.map_map, Function.comp_def]
  | select statement =>
    simp only [map, Select.map, OrderItem.map, List.map_map, Function.comp_def]
  | _ => rfl

theorem Form.map_id (form : Form ν) : (form.map fun x => x) = form := by
  cases form with
  | join joined =>
    obtain ⟨kind, table, condition⟩ := joined
    cases condition <;> rfl
  | call name args => simp only [map, List.map_id_fun', id]
  | aggregate applied => simp [map, Aggregate.map, OrderItem.map]
  | order items => simp [map, OrderItem.map]
  | select statement => simp [map, Select.map, OrderItem.map]
  | _ => rfl

theorem Form.parts_map (f : ν → μ) (form : Form ν) : (form.map f).parts = form.parts.map f := by
  cases form with
  | join joined =>
    obtain ⟨kind, table, condition⟩ := joined
    cases condition <;> rfl
  | aggregate applied =>
    simp only [map, parts, Aggregate.map, Aggregate.parts, OrderItem.map, List.map_append,
      List.map_map, Function.comp_def]
  | order items => simp only [map, parts, OrderItem.map, List.map_map, Function.comp_def]
  | select statement =>
    simp only [map, parts, Select.map, Select.parts, OrderItem.map, List.map_append,
      List.map_map, Function.comp_def]
  | _ => rfl

/-- A rule that puts a layer together again changes its children only. -/
theorem Node.recurse_eq_map {rule : Form (Part Node) → Node} {form : Form Node}
    (h : rule (form.map (part rule)) = .of ((form.map (part rule)).map Part.result)) :
    recurse rule (.of form) = .of (form.map (recurse rule)) := by
  rw [recurse_of, h, Form.map_map]
  rfl

/-! ## 2. Names and bindings of one layer -/

/-- The names a layer writes into the text: of tables, columns, aliases,
    functions and types. -/
def Form.names : Form ν → List String
  | .identifier name => [name]
  | .column table name => [table, name]
  | .cast _ type => [type]
  | .call name _ => [name]
  | .aggregate applied => [applied.name]
  | .aliased named => [named.name]
  | _ => []

/-- The name of a layer that is a binding. -/
def Form.bindings : Form ν → List String
  | .binding name => [name]
  | _ => []

@[simp]
theorem Form.names_map (f : ν → μ) (form : Form ν) : (form.map f).names = form.names := by
  cases form <;> rfl

@[simp]
theorem Form.bindings_map (f : ν → μ) (form : Form ν) :
    (form.map f).bindings = form.bindings := by
  cases form <;> rfl

/-! ## 3. Names, bindings and subtrees of a tree -/

namespace Node

/-- What every layer of a tree contributes, from the root down and from left to
    right. -/
def gather (own : Form (Part (List β)) → List β) : Node → List β :=
  recurse fun form => own form ++ form.parts.flatMap Part.result

theorem gather_of (own : Form (Part (List β)) → List β) (form : Form Node) :
    gather own (.of form) =
      own (form.map (part fun form => own form ++ form.parts.flatMap Part.result)) ++
        form.parts.flatMap (gather own) := by
  rw [gather, recurse_of, Form.parts_map, List.flatMap_map]
  rfl

/-- The names a tree writes into the text. -/
def names : Node → List String :=
  gather Form.names

/-- The names of the bindings of a tree, once for each occurrence. -/
def bindings : Node → List String :=
  gather Form.bindings

/-- The subtrees of a tree, itself included, each before those within it. -/
def subtrees : Node → List Node :=
  gather fun form => [.of (form.map Part.node)]

theorem names_of (form : Form Node) :
    (Node.of form).names = form.names ++ form.parts.flatMap names := by
  rw [names, gather_of, Form.names_map]

theorem bindings_of (form : Form Node) :
    (Node.of form).bindings = form.bindings ++ form.parts.flatMap bindings := by
  rw [bindings, gather_of, Form.bindings_map]

theorem subtrees_of (form : Form Node) :
    (Node.of form).subtrees = .of form :: form.parts.flatMap subtrees := by
  rw [subtrees, gather_of, Form.map_map]
  have hsame : (form.map fun node => (part (fun form => [Node.of (form.map Part.node)] ++
      form.parts.flatMap Part.result) node).node) = form := form.map_id
  rw [hsame]
  rfl

theorem bindings_subset_of_mem_parts {form : Form Node} {node : Node} (h : node ∈ form.parts) :
    node.bindings ⊆ (Node.of form).bindings := by
  intro name hname
  rw [bindings_of]
  exact List.mem_append_right _ (List.mem_flatMap.mpr ⟨node, h, hname⟩)

end Node

end SqlKit
