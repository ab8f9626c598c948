/-
  SqlKit/Proofs/Build/WellFormed.lean
  ===================================
  **Trees that builders make are well formed.**

  Some layers promise more than their type says: a `FROM` list holds tables only,
  an alias is not given to a join, a join has a condition unless it is a cross
  join, and what a membership test looks in is never a lone literal
  (`Form.Admissible`). Builders check this in four different places, and they
  pass on whatever they are given without looking into it.

  So the promise is about whole trees: every layer at any depth keeps it. Each
  builder keeps it for what it makes out of operands that keep it, hence so does
  every composition of builders (`wellFormed_of_build`). The two constructors of a
  script that go past the builders make no such promise and are left out.
-/
import SqlKit.Build.Script
import SqlKit.Proofs.Node.Gather

namespace SqlKit

/-! ## 1. Builders that succeed -/

/-- If a computation gives a result, so does its first part. -/
theorem Except.bind_eq_ok {ε α β : Type} {x : Except ε α} {f : α → Except ε β} {b : β}
    (h : x >>= f = .ok b) : ∃ a, x = .ok a ∧ f a = .ok b := by
  cases x with
  | error e => cases h
  | ok a => exact ⟨a, rfl, h⟩

theorem Except.bind_pure_eq_ok {ε α β : Type} {x : Except ε α} {f : α → β} {b : β}
    (h : (x >>= fun a => pure (f a)) = .ok b) : ∃ a, x = .ok a ∧ f a = b := by
  obtain ⟨a, ha, h⟩ := bind_eq_ok h
  exact ⟨a, ha, Except.ok.inj h⟩

theorem Except.map_eq_ok {ε α β : Type} {x : Except ε α} {f : α → β} {b : β}
    (h : x.map f = .ok b) : ∃ a, x = .ok a ∧ f a = b := by
  cases x with
  | error e => cases h
  | ok a => exact ⟨a, rfl, Except.ok.inj h⟩

/-! ## 2. Well-formed trees -/

/-- What a layer promises about its children. -/
def Form.Admissible : Form Node → Prop
  | .select s => ∀ table ∈ s.tables, table.kind ∈ [.identifier, .aliased, .join]
  | .aliased named => named.source.kind ∉ [.join, .joinCondition, .order]
  | .join joined =>
    (joined.table.form = .identifier joined.name ∨
        ∃ source, joined.table.form = .aliased ⟨source, joined.name⟩) ∧
      (joined.condition = none ↔ joined.kind = .cross)
  | .membership _ set => set.kind ∉ [.integer, .string, .null]
  | _ => True

/-- Every layer of the tree, at any depth, keeps its promise. -/
def Node.WellFormed (node : Node) : Prop :=
  ∀ inner ∈ node.subtrees, inner.form.Admissible

theorem Node.wellFormed_of {form : Form Node} :
    (Node.of form).WellFormed ↔ form.Admissible ∧ ∀ node ∈ form.parts, node.WellFormed := by
  simp only [WellFormed, subtrees_of, List.forall_mem_cons, List.mem_flatMap]
  constructor
  · intro h
    exact ⟨h.1, fun node hnode inner hinner => h.2 inner ⟨node, hnode, hinner⟩⟩
  · rintro ⟨hform, hparts⟩
    refine ⟨hform, ?_⟩
    rintro inner ⟨node, hnode, hinner⟩
    exact hparts node hnode inner hinner

theorem Node.wellFormed_leaf {form : Form Node} (hform : form.Admissible) (h : form.parts = []) :
    (Node.of form).WellFormed := by
  rw [wellFormed_of, h]
  exact ⟨hform, List.forall_mem_nil _⟩

/-! ## 3. Kinds that builders accept -/

namespace NodeKind

variable {kind : NodeKind}

theorem mem_of_isTable (h : kind.isTable = true) : kind ∈ [.identifier, .aliased, .join] := by
  revert h
  cases kind <;> decide

theorem mem_of_isJoinTable (h : kind.isJoinTable = true) : kind ∈ [.identifier, .aliased] := by
  revert h
  cases kind <;> decide

theorem notMem_of_isAliasSource (h : kind.isAliasSource = true) :
    kind ∉ [.join, .joinCondition, .order] := by
  revert h
  cases kind <;> decide

end NodeKind

/-! ## 4. Operands -/

namespace Operand

variable {x : Operand}

theorem wellFormed_toColumn (h : x.toNode.WellFormed) : x.toColumn.WellFormed := by
  cases x with
  | text s => exact Node.wellFormed_leaf trivial rfl
  | _ => exact h

theorem wellFormed_receiver (h : x.toNode.WellFormed) : x.receiver.WellFormed := by
  cases x with
  | aliased named => exact Node.wellFormed_leaf trivial rfl
  | _ => exact h

theorem toTable_eq_ok {table : Node} (h : x.toTable = .ok table) :
    table = x.toColumn ∧ table.kind ∈ [.identifier, .aliased, .join] := by
  rw [toTable] at h
  split at h
  · rename_i hkind
    obtain rfl := Except.ok.inj h
    exact ⟨rfl, NodeKind.mem_of_isTable hkind⟩
  · cases h

end Operand

/-! ## 5. Expressions -/

namespace Node

variable {left right element set node : Node}

theorem wellFormed_literal {value : Value} (h : literal value = .ok node) : node.WellFormed := by
  cases value with
  | bool _ | single _ | double _ | bytes _ => cases h
  | list items =>
    rw [literal] at h
    split at h
    · cases h
    · obtain rfl := Except.ok.inj h
      exact wellFormed_leaf trivial rfl
  | _ =>
    obtain rfl := Except.ok.inj h
    exact wellFormed_leaf trivial rfl

theorem wellFormed_binary (op : Operator) (hleft : left.WellFormed) (hright : right.WellFormed) :
    (binary op left right).WellFormed := by
  apply wellFormed_of.mpr
  refine ⟨trivial, ?_⟩
  simp only [Form.parts, List.forall_mem_cons]
  exact ⟨hleft, hright, List.forall_mem_nil _⟩

/-- What a membership test looks in is no lone literal any more. -/
theorem kind_asList_notMem (node : Node) : node.asList.kind ∉ [.integer, .string, .null] := by
  obtain ⟨form⟩ := node
  cases form <;> simp [asList, kind, Node.form, Form.kind]

theorem wellFormed_asList (h : node.WellFormed) : node.asList.WellFormed := by
  obtain ⟨form⟩ := node
  cases form with
  | integer _ | string _ | null => exact wellFormed_leaf trivial rfl
  | _ => exact h

theorem wellFormed_memberOf (helement : element.WellFormed) (hset : set.WellFormed) :
    (element.memberOf set).WellFormed := by
  apply wellFormed_of.mpr
  refine ⟨set.kind_asList_notMem, ?_⟩
  simp only [Form.parts, List.forall_mem_cons]
  exact ⟨helement, wellFormed_asList hset, List.forall_mem_nil _⟩

end Node

/-! ## 6. Relations -/

theorem Alias.wellFormed_build {source : Operand} {name : String} {named : Alias Node}
    (hsource : source.toNode.WellFormed) (h : build source name = .ok named) :
    (Node.of (.aliased named)).WellFormed := by
  rw [build] at h
  split at h
  · rename_i hkind
    obtain rfl := Except.ok.inj h
    apply Node.wellFormed_of.mpr
    constructor
    · exact NodeKind.notMem_of_isAliasSource hkind
    · simp only [Form.parts, List.forall_mem_singleton]
      exact Operand.wellFormed_toColumn hsource
  · cases h

theorem JoinCondition.wellFormed_build (test : JoinTest) {x : Operand}
    (hx : x.toNode.WellFormed) : (build test x).condition.WellFormed := by
  cases test with
  | predicate => exact hx
  | columns => exact Operand.wellFormed_toColumn hx

namespace Join

variable {x : Operand} {table : Node}

theorem tableOf_eq_ok (h : tableOf x = .ok table) :
    table = x.toColumn ∧ table.kind ∈ [.identifier, .aliased] := by
  rw [tableOf] at h
  split at h
  · rename_i hkind
    obtain rfl := Except.ok.inj h
    exact ⟨rfl, NodeKind.mem_of_isJoinTable hkind⟩
  · cases h

/-- A join goes by the name of its table, which has one. -/
theorem name_of_kind {joined : Join Node} (h : joined.table.kind ∈ [.identifier, .aliased]) :
    joined.table.form = .identifier joined.name ∨
      ∃ source, joined.table.form = .aliased ⟨source, joined.name⟩ := by
  obtain ⟨kind, ⟨form⟩, condition⟩ := joined
  cases form with
  | identifier name => exact .inl rfl
  | aliased named => exact .inr ⟨named.source, rfl⟩
  | _ => simp [Node.kind, Node.form, Form.kind] at h

/-- A join of a table that builders accept, with a condition where one belongs. -/
theorem wellFormed_of_tableOf {kind : JoinKind} {condition : Option (JoinCondition Node)}
    (hx : x.toNode.WellFormed) (htable : tableOf x = .ok table)
    (hcross : condition = none ↔ kind = .cross)
    (hcondition : ∀ c ∈ condition, c.condition.WellFormed) :
    (Node.of (.join ⟨kind, table, condition⟩)).WellFormed := by
  obtain ⟨rfl, hkind⟩ := tableOf_eq_ok htable
  apply Node.wellFormed_of.mpr
  refine ⟨⟨name_of_kind hkind, hcross⟩, ?_⟩
  simp only [Form.parts, parts, List.forall_mem_cons, List.forall_mem_map, Option.mem_toList]
  exact ⟨Operand.wellFormed_toColumn hx, hcondition⟩

end Join

/-! ## 7. Sort keys and aggregate calls -/

/-- The operands of a modifier. -/
def Modifier.operands {ω : Type} : Modifier ω → List ω
  | .distinct | .all => []
  | .arg x | .of x => [x]
  | .order items => items.map (·.key)

theorem OrderItem.wellFormed_build {items : List (OrderItem Operand)}
    (h : ∀ item ∈ items, item.key.toNode.WellFormed) :
    ∀ item ∈ items.map build, item.key.WellFormed := by
  intro item hitem
  obtain ⟨source, hsource, rfl⟩ := List.mem_map.mp hitem
  exact Operand.wellFormed_toColumn (h source hsource)

theorem Node.wellFormed_order {items : List (OrderItem Node)} :
    (Node.of (.order items)).WellFormed ↔ ∀ item ∈ items, item.key.WellFormed := by
  rw [wellFormed_of, Form.parts, List.forall_mem_map]
  exact and_iff_right trivial

/-- An aggregate call over well-formed trees. -/
structure Aggregate.WellFormed (call : Aggregate Node) : Prop where
  args : ∀ arg ∈ call.args, arg.WellFormed
  order : ∀ item ∈ call.order, item.key.WellFormed

namespace Aggregate

variable {call : Aggregate Node}

theorem WellFormed.toNode (h : call.WellFormed) : (Node.of (.aggregate call)).WellFormed := by
  apply Node.wellFormed_of.mpr
  refine ⟨trivial, ?_⟩
  simp only [Form.parts, parts, List.forall_mem_append, List.forall_mem_map]
  exact ⟨h.args, h.order⟩

theorem WellFormed.arg (h : call.WellFormed) {node : Node} (hnode : node.WellFormed) :
    WellFormed { call with args := call.args ++ [node] } := by
  refine { h with args := ?_ }
  rw [List.forall_mem_append, List.forall_mem_singleton]
  exact ⟨h.args, hnode⟩

/-- A modifier that is told apart by what it is brings its keys or itself. -/
theorem WellFormed.modify (h : call.WellFormed) {m : Modifier Operand}
    (hm : ∀ x ∈ m.operands, x.toNode.WellFormed) : (call.modify m).WellFormed := by
  cases m with
  | distinct => exact ⟨h.args, h.order⟩
  | all => exact ⟨h.args, h.order⟩
  | arg x => exact h.arg (hm x List.mem_cons_self)
  | order items =>
    refine { h with order := OrderItem.wellFormed_build ?_ }
    intro item hitem
    exact hm item.key (List.mem_map.mpr ⟨item, hitem, rfl⟩)
  | of x =>
    have hx : x.toNode.WellFormed := hm x List.mem_cons_self
    rw [Aggregate.modify]
    rcases hnode : x.toNode with ⟨form⟩
    rw [hnode] at hx
    cases form with
    | order items => exact { h with order := Node.wellFormed_order.mp hx }
    | _ => exact h.arg hx

theorem wellFormed_build (name : String) {modifiers : List (Modifier Operand)}
    (h : ∀ m ∈ modifiers, ∀ x ∈ m.operands, x.toNode.WellFormed) :
    (build name modifiers).WellFormed := by
  rw [build]
  apply List.foldlRecOn (motive := WellFormed)
  · exact ⟨List.forall_mem_nil _, List.forall_mem_nil _⟩
  · intro call hcall m hm
    exact hcall.modify (h m hm)

end Aggregate

/-! ## 8. Statements -/

/-- The trees that a step is given. -/
def SelectStep.nodes : SelectStep Operand Node → List Node
  | .columns xs => xs.map Operand.toNode
  | .table x | .groupBy x => [x.toNode]
  | .condition node => [node]
  | .orderBy items => items.map (·.key.toNode)
  | .distinct | .matching _ | .limit _ | .offset _ => []

/-- A statement over well-formed trees, with tables only in its `FROM` list. -/
structure Select.WellFormed (s : Select Node) : Prop where
  columns : ∀ column ∈ s.columns, column.WellFormed
  tables : ∀ table ∈ s.tables, table.WellFormed
  kinds : ∀ table ∈ s.tables, table.kind ∈ [.identifier, .aliased, .join]
  conditions : ∀ condition ∈ s.conditions, condition.WellFormed
  groupBy : ∀ group ∈ s.groupBy, group.WellFormed
  order : ∀ item ∈ s.order, item.key.WellFormed

namespace Select

variable {s after : Select Node}

theorem wellFormed_empty : WellFormed {} :=
  ⟨List.forall_mem_nil _, List.forall_mem_nil _, List.forall_mem_nil _, List.forall_mem_nil _,
    List.forall_mem_nil _, List.forall_mem_nil _⟩

theorem WellFormed.toNode (h : s.WellFormed) : (Node.of (.select s)).WellFormed := by
  apply Node.wellFormed_of.mpr
  refine ⟨h.kinds, ?_⟩
  simp only [Form.parts, parts, List.forall_mem_append, List.forall_mem_map]
  exact ⟨⟨⟨⟨h.columns, h.tables⟩, h.conditions⟩, h.groupBy⟩, h.order⟩

/-- The shorthand makes comparisons and membership tests. -/
theorem wellFormed_matchColumn {name : String} {value : Value} {condition : Node}
    (h : matchColumn name value = .ok condition) : condition.WellFormed := by
  have hcolumn : (Node.of (.identifier name)).WellFormed := Node.wellFormed_leaf trivial rfl
  unfold matchColumn at h
  split at h
  · split at h
    · cases h
    · obtain rfl := Except.ok.inj h
      exact Node.wellFormed_memberOf hcolumn (Node.wellFormed_leaf trivial rfl)
  · split at h
    · rename_i literal hliteral
      obtain rfl := Except.ok.inj h
      exact Node.wellFormed_binary .equal hcolumn (Node.wellFormed_literal hliteral)
    · cases h

theorem wellFormed_matchColumns {pairs : List (String × Value)} {conditions : List Node}
    (h : matchColumns pairs = .ok conditions) : ∀ condition ∈ conditions, condition.WellFormed := by
  induction pairs generalizing conditions with
  | nil =>
    obtain rfl := Except.ok.inj h
    exact List.forall_mem_nil _
  | cons pair rest ih =>
    rw [matchColumns] at h
    split at h
    · cases h
    · rename_i condition hfirst
      obtain ⟨more, hrest, rfl⟩ := Except.map_eq_ok h
      rw [List.forall_mem_cons]
      exact ⟨wellFormed_matchColumn hfirst, ih hrest⟩

/-- **Each step keeps a statement well formed** if what it is given is. -/
theorem WellFormed.apply (h : s.WellFormed) {step : SelectStep Operand Node}
    (hstep : ∀ node ∈ step.nodes, node.WellFormed) (hafter : s.apply step = .ok after) :
    after.WellFormed := by
  cases step with
  | columns xs =>
    obtain rfl := Except.ok.inj hafter
    have hxs := List.forall_mem_map.mp hstep
    refine { h with columns := ?_ }
    rw [List.forall_mem_append, List.forall_mem_map]
    exact ⟨h.columns, fun x hx => Operand.wellFormed_toColumn (hxs x hx)⟩
  | table x =>
    obtain ⟨table, htable, rfl⟩ := Except.map_eq_ok hafter
    obtain ⟨rfl, hkind⟩ := Operand.toTable_eq_ok htable
    have hx := Operand.wellFormed_toColumn (hstep x.toNode List.mem_cons_self)
    refine { h with tables := ?_, kinds := ?_ }
    · rw [List.forall_mem_append, List.forall_mem_singleton]
      exact ⟨h.tables, hx⟩
    · rw [List.forall_mem_append, List.forall_mem_singleton]
      exact ⟨h.kinds, hkind⟩
  | condition node =>
    obtain rfl := Except.ok.inj hafter
    refine { h with conditions := ?_ }
    rw [List.forall_mem_append, List.forall_mem_singleton]
    exact ⟨h.conditions, hstep node List.mem_cons_self⟩
  | matching pairs =>
    obtain ⟨conditions, hconditions, rfl⟩ := Except.map_eq_ok hafter
    refine { h with conditions := ?_ }
    rw [List.forall_mem_append]
    exact ⟨h.conditions, wellFormed_matchColumns hconditions⟩
  | groupBy x =>
    obtain rfl := Except.ok.inj hafter
    refine { h with groupBy := ?_ }
    rw [List.forall_mem_append, List.forall_mem_singleton]
    exact ⟨h.groupBy, Operand.wellFormed_toColumn (hstep x.toNode List.mem_cons_self)⟩
  | orderBy items =>
    obtain rfl := Except.ok.inj hafter
    have hitems := List.forall_mem_map.mp hstep
    exact { h with order := OrderItem.wellFormed_build hitems }
  | distinct | limit _ | offset _ =>
    obtain rfl := Except.ok.inj hafter
    exact { h with }

end Select

/-! ## 9. Compositions of builders -/

namespace Script

mutual

/-- Whether a composition keeps to the builders and puts no layer together
    directly. -/
def onlyBuilders : Script → Bool
  | .text _ | .integer _ | .values _ | .null | .identifier _ | .columnOf _ _ => true
  | .node x => nodeOnlyBuilders x
  | .aliased x _ | .joinCondition _ x | .crossJoin x => x.onlyBuilders
  | .join _ table _ condition => table.onlyBuilders && condition.onlyBuilders
  | .aggregate _ modifiers => modifiersOnlyBuilders modifiers
  | .order items => itemsOnlyBuilders items
  | .select steps => stepsOnlyBuilders steps
  | .rawJoin _ _ _ => false

def nodeOnlyBuilders : NodeScript → Bool
  | .literal _ | .binding _ => true
  | .operand x | .receiver x | .column x _ | .cast x _ => x.onlyBuilders
  | .binary _ left right => left.onlyBuilders && right.onlyBuilders
  | .memberOf element set => element.onlyBuilders && set.onlyBuilders
  | .call _ args => listOnlyBuilders args
  | .rawMembership _ _ => false

def listOnlyBuilders : List Script → Bool
  | [] => true
  | x :: rest => x.onlyBuilders && listOnlyBuilders rest

def itemsOnlyBuilders : List (OrderItem Script) → Bool
  | [] => true
  | ⟨key, _⟩ :: rest => key.onlyBuilders && itemsOnlyBuilders rest

def modifierOnlyBuilders : Modifier Script → Bool
  | .distinct | .all => true
  | .arg x | .of x => x.onlyBuilders
  | .order items => itemsOnlyBuilders items

def modifiersOnlyBuilders : List (Modifier Script) → Bool
  | [] => true
  | m :: rest => modifierOnlyBuilders m && modifiersOnlyBuilders rest

def stepOnlyBuilders : SelectStep Script NodeScript → Bool
  | .columns xs => listOnlyBuilders xs
  | .table x | .groupBy x => x.onlyBuilders
  | .condition x => nodeOnlyBuilders x
  | .orderBy items => itemsOnlyBuilders items
  | .distinct | .matching _ | .limit _ | .offset _ => true

def stepsOnlyBuilders : List (SelectStep Script NodeScript) → Bool
  | [] => true
  | step :: rest => stepOnlyBuilders step && stepsOnlyBuilders rest

end

-- Scripts of both kinds, lists, items, modifiers and steps nest in each other, so there is
-- one theorem for each of the functions that build them, by the same recursion.
mutual

/-- What a builder returns is well formed if its arguments are. -/
theorem wellFormed_operand :
    ∀ (x : Script) {operand : Operand}, x.onlyBuilders = true → x.build = .ok operand →
      operand.toNode.WellFormed
  | .text _, _, _, h | .integer _, _, _, h | .values _, _, _, h | .null, _, _, h
  | .identifier _, _, _, h | .columnOf _ _, _, _, h => by
    obtain rfl := Except.ok.inj h
    exact Node.wellFormed_leaf trivial rfl
  | .node x, _, hx, h => by
    obtain ⟨node, hnode, rfl⟩ := Except.bind_pure_eq_ok h
    exact wellFormed_buildNode x hx hnode
  | .aggregate name modifiers, _, hx, h => by
    obtain ⟨built, hbuilt, rfl⟩ := Except.bind_pure_eq_ok h
    have hmodifiers := wellFormed_buildModifiers modifiers hx hbuilt
    exact (Aggregate.wellFormed_build name hmodifiers).toNode
  | .aliased source name, _, hx, h => by
    obtain ⟨operand, hoperand, h⟩ := Except.bind_eq_ok h
    obtain ⟨named, hnamed, rfl⟩ := Except.bind_pure_eq_ok h
    have hsource := wellFormed_operand source hx hoperand
    exact Alias.wellFormed_build hsource hnamed
  | .order items, _, hx, h => by
    obtain ⟨built, hbuilt, rfl⟩ := Except.bind_pure_eq_ok h
    have hitems := wellFormed_buildItems items hx hbuilt
    exact Node.wellFormed_order.mpr (OrderItem.wellFormed_build hitems)
  | .joinCondition test condition, _, hx, h => by
    obtain ⟨operand, hoperand, rfl⟩ := Except.bind_pure_eq_ok h
    have hcondition := wellFormed_operand condition hx hoperand
    have hbuilt := JoinCondition.wellFormed_build test hcondition
    exact Node.wellFormed_of.mpr ⟨trivial, List.forall_mem_singleton.mpr hbuilt⟩
  | .join side table test condition, _, hx, h => by
    rw [onlyBuilders, Bool.and_eq_true] at hx
    obtain ⟨t, ht, h⟩ := Except.bind_eq_ok h
    obtain ⟨c, hc, h⟩ := Except.bind_eq_ok h
    obtain ⟨joined, hjoined, rfl⟩ := Except.bind_pure_eq_ok h
    obtain ⟨node, hnode, rfl⟩ := Except.map_eq_ok hjoined
    have htable := wellFormed_operand table hx.1 ht
    have hcondition := wellFormed_operand condition hx.2 hc
    have hbuilt := JoinCondition.wellFormed_build test hcondition
    apply Join.wellFormed_of_tableOf htable hnode
    · simp
    · rintro _ ⟨⟩
      exact hbuilt
  | .crossJoin table, _, hx, h => by
    obtain ⟨t, ht, h⟩ := Except.bind_eq_ok h
    obtain ⟨joined, hjoined, rfl⟩ := Except.bind_pure_eq_ok h
    obtain ⟨node, hnode, rfl⟩ := Except.map_eq_ok hjoined
    have htable := wellFormed_operand table hx ht
    apply Join.wellFormed_of_tableOf htable hnode
    · simp
    · rintro _ ⟨⟩
  | .select steps, _, hx, h => by
    obtain ⟨s, hs, rfl⟩ := Except.bind_pure_eq_ok h
    exact (wellFormed_buildSteps steps hx Select.wellFormed_empty hs).toNode

theorem wellFormed_buildNode :
    ∀ (x : NodeScript) {node : Node}, nodeOnlyBuilders x = true → buildNode x = .ok node →
      node.WellFormed
  | .operand x, _, hx, h => by
    obtain ⟨operand, hoperand, rfl⟩ := Except.bind_pure_eq_ok h
    exact wellFormed_operand x hx hoperand
  | .receiver x, _, hx, h => by
    obtain ⟨operand, hoperand, rfl⟩ := Except.bind_pure_eq_ok h
    have hx := wellFormed_operand x hx hoperand
    exact Operand.wellFormed_receiver hx
  | .literal _, _, _, h => Node.wellFormed_literal h
  | .binding _, _, _, h => by
    obtain rfl := Except.ok.inj h
    exact Node.wellFormed_leaf trivial rfl
  | .column relation name, _, _, h => by
    obtain ⟨operand, hoperand, rfl⟩ := Except.bind_pure_eq_ok h
    exact Node.wellFormed_leaf trivial rfl
  | .binary op left right, _, hx, h => by
    rw [nodeOnlyBuilders, Bool.and_eq_true] at hx
    obtain ⟨l, hl, h⟩ := Except.bind_eq_ok h
    obtain ⟨r, hr, rfl⟩ := Except.bind_pure_eq_ok h
    have hleft := wellFormed_operand left hx.1 hl
    have hright := wellFormed_operand right hx.2 hr
    exact Node.wellFormed_binary op hleft hright
  | .memberOf element set, _, hx, h => by
    rw [nodeOnlyBuilders, Bool.and_eq_true] at hx
    obtain ⟨e, he, h⟩ := Except.bind_eq_ok h
    obtain ⟨l, hl, rfl⟩ := Except.bind_pure_eq_ok h
    have helement := wellFormed_operand element hx.1 he
    have hset := wellFormed_operand set hx.2 hl
    exact Node.wellFormed_memberOf helement hset
  | .cast inner type, _, hx, h => by
    obtain ⟨operand, hoperand, rfl⟩ := Except.bind_pure_eq_ok h
    have hinner := wellFormed_operand inner hx hoperand
    exact Node.wellFormed_of.mpr ⟨trivial, List.forall_mem_singleton.mpr hinner⟩
  | .call name args, _, hx, h => by
    obtain ⟨operands, hoperands, rfl⟩ := Except.bind_pure_eq_ok h
    have hargs := wellFormed_buildList args hx hoperands
    exact Node.wellFormed_of.mpr ⟨trivial, List.forall_mem_map.mpr hargs⟩

theorem wellFormed_buildList :
    ∀ (xs : List Script) {operands : List Operand}, listOnlyBuilders xs = true →
      buildList xs = .ok operands → ∀ x ∈ operands, x.toNode.WellFormed
  | [], _, _, h => by
    obtain rfl := Except.ok.inj h
    exact List.forall_mem_nil _
  | x :: rest, _, hx, h => by
    rw [listOnlyBuilders, Bool.and_eq_true] at hx
    obtain ⟨operand, hoperand, h⟩ := Except.bind_eq_ok h
    obtain ⟨operands, hoperands, rfl⟩ := Except.bind_pure_eq_ok h
    rw [List.forall_mem_cons]
    exact ⟨wellFormed_operand x hx.1 hoperand, wellFormed_buildList rest hx.2 hoperands⟩

theorem wellFormed_buildItems :
    ∀ (items : List (OrderItem Script)) {built : List (OrderItem Operand)},
      itemsOnlyBuilders items = true → buildItems items = .ok built →
        ∀ item ∈ built, item.key.toNode.WellFormed
  | [], _, _, h => by
    obtain rfl := Except.ok.inj h
    exact List.forall_mem_nil _
  | ⟨key, direction⟩ :: rest, _, hx, h => by
    rw [itemsOnlyBuilders, Bool.and_eq_true] at hx
    obtain ⟨operand, hoperand, h⟩ := Except.bind_eq_ok h
    obtain ⟨built, hbuilt, rfl⟩ := Except.bind_pure_eq_ok h
    rw [List.forall_mem_cons]
    exact ⟨wellFormed_operand key hx.1 hoperand, wellFormed_buildItems rest hx.2 hbuilt⟩

theorem wellFormed_buildModifier :
    ∀ (m : Modifier Script) {built : Modifier Operand}, modifierOnlyBuilders m = true →
      buildModifier m = .ok built → ∀ x ∈ built.operands, x.toNode.WellFormed
  | .distinct, _, _, h | .all, _, _, h => by
    obtain rfl := Except.ok.inj h
    exact List.forall_mem_nil _
  | .arg x, _, hx, h | .of x, _, hx, h => by
    obtain ⟨operand, hoperand, rfl⟩ := Except.bind_pure_eq_ok h
    exact List.forall_mem_singleton.mpr (wellFormed_operand x hx hoperand)
  | .order items, _, hx, h => by
    obtain ⟨built, hbuilt, rfl⟩ := Except.bind_pure_eq_ok h
    exact List.forall_mem_map.mpr (wellFormed_buildItems items hx hbuilt)

theorem wellFormed_buildModifiers :
    ∀ (ms : List (Modifier Script)) {built : List (Modifier Operand)},
      modifiersOnlyBuilders ms = true → buildModifiers ms = .ok built →
        ∀ m ∈ built, ∀ x ∈ m.operands, x.toNode.WellFormed
  | [], _, _, h => by
    obtain rfl := Except.ok.inj h
    exact List.forall_mem_nil _
  | m :: rest, _, hx, h => by
    rw [modifiersOnlyBuilders, Bool.and_eq_true] at hx
    obtain ⟨first, hfirst, h⟩ := Except.bind_eq_ok h
    obtain ⟨built, hbuilt, rfl⟩ := Except.bind_pure_eq_ok h
    rw [List.forall_mem_cons]
    exact ⟨wellFormed_buildModifier m hx.1 hfirst, wellFormed_buildModifiers rest hx.2 hbuilt⟩

theorem wellFormed_buildStep :
    ∀ (step : SelectStep Script NodeScript) {built : SelectStep Operand Node},
      stepOnlyBuilders step = true → buildStep step = .ok built →
        ∀ node ∈ built.nodes, node.WellFormed
  | .distinct, _, _, h | .matching _, _, _, h | .limit _, _, _, h | .offset _, _, _, h => by
    obtain rfl := Except.ok.inj h
    exact List.forall_mem_nil _
  | .columns xs, _, hx, h => by
    obtain ⟨operands, hoperands, rfl⟩ := Except.bind_pure_eq_ok h
    exact List.forall_mem_map.mpr (wellFormed_buildList xs hx hoperands)
  | .table x, _, hx, h | .groupBy x, _, hx, h => by
    obtain ⟨operand, hoperand, rfl⟩ := Except.bind_pure_eq_ok h
    exact List.forall_mem_singleton.mpr (wellFormed_operand x hx hoperand)
  | .condition x, _, hx, h => by
    obtain ⟨node, hnode, rfl⟩ := Except.bind_pure_eq_ok h
    exact List.forall_mem_singleton.mpr (wellFormed_buildNode x hx hnode)
  | .orderBy items, _, hx, h => by
    obtain ⟨built, hbuilt, rfl⟩ := Except.bind_pure_eq_ok h
    exact List.forall_mem_map.mpr (wellFormed_buildItems items hx hbuilt)

theorem wellFormed_buildSteps :
    ∀ (steps : List (SelectStep Script NodeScript)) {s after : Select Node},
      stepsOnlyBuilders steps = true → s.WellFormed → buildSteps s steps = .ok after →
        after.WellFormed
  | [], _, _, _, hs, h => by
    obtain rfl := Except.ok.inj h
    exact hs
  | step :: rest, _, _, hx, hs, h => by
    rw [stepsOnlyBuilders, Bool.and_eq_true] at hx
    obtain ⟨built, hbuilt, h⟩ := Except.bind_eq_ok h
    obtain ⟨middle, hmiddle, h⟩ := Except.bind_eq_ok h
    have hstep := wellFormed_buildStep step hx.1 hbuilt
    exact wellFormed_buildSteps rest hx.2 (hs.apply hstep hmiddle) h

end

/-- **Every tree that builders make is well formed**, at any depth and however
    the result is used: as an operand, where something is named, or to the left of
    an operator. -/
theorem wellFormed_of_build {x : Script} {operand : Operand} (hx : x.onlyBuilders = true)
    (h : x.build = .ok operand) :
    operand.toNode.WellFormed ∧ operand.toColumn.WellFormed ∧ operand.receiver.WellFormed := by
  have hnode := wellFormed_operand x hx h
  exact ⟨hnode, Operand.wellFormed_toColumn hnode, Operand.wellFormed_receiver hnode⟩

/-- A statement from a subquery under a name and a cross join, with a membership
    test in null. -/
theorem wellFormed_of_build_select :
    let subquery : Script := .select [.table (.text "u")]
    let x : Script := .select [.table (.aliased subquery "a"), .table (.crossJoin (.text "w")),
      .condition (.memberOf (.identifier "y") .null)]
    let s : Select Node :=
      { tables := [.of (.aliased ⟨.of (.select { tables := [.of (.identifier "u")] }), "a"⟩),
          .of (.join ⟨.cross, .of (.identifier "w"), none⟩)]
        conditions := [.of (.membership (.of (.identifier "y")) (.of (.list [])))] }
    x.onlyBuilders = true ∧ x.build = .ok (.select s) ∧ (Node.of (.select s)).WellFormed := by
  intro subquery x s
  have hx : x.onlyBuilders = true := by decide
  have hbuild : x.build = .ok (.select s) := by rfl
  exact ⟨hx, hbuild, (wellFormed_of_build hx hbuild).1⟩

end Script

end SqlKit
