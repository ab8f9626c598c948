/-
  SqlKit/Proofs/Node/Frame.lean
  =============================
  **Places in a tree.**

  A `Frame` is one layer of a tree with one of its children left open; `fill`
  puts a child there. There is a frame for every place a child can have, so a
  child of a layer is what fills one of its frames (`mem_parts_iff`), and a
  subtree of a tree is what fills a whole path of them (`mem_subtrees_iff`). A
  place is not the same as a subtree: the same subquery may stand in several.
-/
import SqlKit.Proofs.Node.Gather

namespace SqlKit

variable {ν μ : Type}

/-! ## 1. Lists with one member left open -/

/-- The other members of a list, before and after the open place. -/
structure Gap (ν : Type) where
  before : List ν
  after : List ν

namespace Gap

def fill (gap : Gap ν) (x : ν) : List ν := gap.before ++ x :: gap.after

def map (f : ν → μ) (gap : Gap ν) : Gap μ := ⟨gap.before.map f, gap.after.map f⟩

/-- Whether the open place is the only one. -/
def isLone (gap : Gap ν) : Bool := gap.before.isEmpty && gap.after.isEmpty

@[simp]
theorem map_fill (f : ν → μ) (gap : Gap ν) (x : ν) :
    (gap.fill x).map f = (gap.map f).fill (f x) := by
  rw [fill, List.map_append, List.map_cons]
  rfl

@[simp]
theorem isLone_map (f : ν → μ) (gap : Gap ν) : (gap.map f).isLone = gap.isLone := by
  simp only [isLone, map, List.isEmpty_map]

@[simp]
theorem isEmpty_fill (gap : Gap ν) (x : ν) : (gap.fill x).isEmpty = false := by
  simp [fill]

theorem mem_fill (gap : Gap ν) (x : ν) : x ∈ gap.fill x :=
  List.mem_append_right _ List.mem_cons_self

theorem exists_fill_of_mem {xs : List ν} {x : ν} (h : x ∈ xs) : ∃ gap : Gap ν, gap.fill x = xs := by
  obtain ⟨before, after, rfl⟩ := List.append_of_mem h
  exact ⟨⟨before, after⟩, rfl⟩

/-! ### Sort keys -/

def fillKey (gap : Gap (OrderItem ν)) (direction : Direction) (x : ν) : List (OrderItem ν) :=
  gap.fill ⟨x, direction⟩

theorem map_fillKey (f : ν → μ) (gap : Gap (OrderItem ν)) (direction : Direction) (x : ν) :
    (gap.fillKey direction x).map (·.map f) = (gap.map (·.map f)).fillKey direction (f x) :=
  gap.map_fill _ _

@[simp]
theorem isEmpty_fillKey (gap : Gap (OrderItem ν)) (direction : Direction) (x : ν) :
    (gap.fillKey direction x).isEmpty = false :=
  gap.isEmpty_fill _

theorem mem_fillKey (gap : Gap (OrderItem ν)) (direction : Direction) (x : ν) :
    x ∈ (gap.fillKey direction x).map (·.key) :=
  List.mem_map.mpr ⟨⟨x, direction⟩, gap.mem_fill _, rfl⟩

theorem exists_fillKey_of_mem {items : List (OrderItem ν)} {x : ν} (h : x ∈ items.map (·.key)) :
    ∃ (gap : Gap (OrderItem ν)) (direction : Direction), gap.fillKey direction x = items := by
  obtain ⟨⟨key, direction⟩, hitem, rfl⟩ := List.mem_map.mp h
  obtain ⟨gap, hgap⟩ := exists_fill_of_mem hitem
  exact ⟨gap, direction, hgap⟩

end Gap

/-! ## 2. Layers with one child left open -/

/-- A layer with an open place. Where a record or a statement is given along
    with a gap, the list with the gap replaces its own. -/
inductive Frame (ν : Type) where
  | leftOperand (op : Operator) (right : ν)
  | rightOperand (op : Operator) (left : ν)
  | memberElement (set : ν)
  | memberSet (element : ν)
  | castOperand (type : String)
  | argument (name : String) (others : Gap ν)
  | aggregateArgument (call : Aggregate ν) (others : Gap ν)
  | aggregateKey (call : Aggregate ν) (direction : Direction) (others : Gap (OrderItem ν))
  | aliasSource (name : String)
  | joinTable (kind : JoinKind) (condition : Option (JoinCondition ν))
  | joinedOn (kind : JoinKind) (table : ν) (test : JoinTest)
  | testedCondition (test : JoinTest)
  | orderKey (direction : Direction) (others : Gap (OrderItem ν))
  | column (s : Select ν) (others : Gap ν)
  | fromEntry (s : Select ν) (others : Gap ν)
  | whereCondition (s : Select ν) (others : Gap ν)
  | groupKey (s : Select ν) (others : Gap ν)
  | sortKey (s : Select ν) (direction : Direction) (others : Gap (OrderItem ν))

namespace Frame

def fill (x : ν) : Frame ν → Form ν
  | .leftOperand op right => .binary op x right
  | .rightOperand op left => .binary op left x
  | .memberElement set => .membership x set
  | .memberSet element => .membership element x
  | .castOperand type => .cast x type
  | .argument name others => .call name (others.fill x)
  | .aggregateArgument call others => .aggregate { call with args := others.fill x }
  | .aggregateKey call direction others =>
    .aggregate { call with order := others.fillKey direction x }
  | .aliasSource name => .aliased ⟨x, name⟩
  | .joinTable kind condition => .join ⟨kind, x, condition⟩
  | .joinedOn kind table test => .join ⟨kind, table, some ⟨test, x⟩⟩
  | .testedCondition test => .joinCondition ⟨test, x⟩
  | .orderKey direction others => .order (others.fillKey direction x)
  | .column s others => .select { s with columns := others.fill x }
  | .fromEntry s others => .select { s with tables := others.fill x }
  | .whereCondition s others => .select { s with conditions := others.fill x }
  | .groupKey s others => .select { s with groupBy := others.fill x }
  | .sortKey s direction others => .select { s with order := others.fillKey direction x }

def map (f : ν → μ) : Frame ν → Frame μ
  | .leftOperand op right => .leftOperand op (f right)
  | .rightOperand op left => .rightOperand op (f left)
  | .memberElement set => .memberElement (f set)
  | .memberSet element => .memberSet (f element)
  | .castOperand type => .castOperand type
  | .argument name others => .argument name (others.map f)
  | .aggregateArgument call others => .aggregateArgument (call.map f) (others.map f)
  | .aggregateKey call direction others =>
    .aggregateKey (call.map f) direction (others.map (·.map f))
  | .aliasSource name => .aliasSource name
  | .joinTable kind condition => .joinTable kind (condition.map (·.map f))
  | .joinedOn kind table test => .joinedOn kind (f table) test
  | .testedCondition test => .testedCondition test
  | .orderKey direction others => .orderKey direction (others.map (·.map f))
  | .column s others => .column (s.map f) (others.map f)
  | .fromEntry s others => .fromEntry (s.map f) (others.map f)
  | .whereCondition s others => .whereCondition (s.map f) (others.map f)
  | .groupKey s others => .groupKey (s.map f) (others.map f)
  | .sortKey s direction others => .sortKey (s.map f) direction (others.map (·.map f))

/-- What the layer is, whatever fills the open place. -/
def kind (frame : Frame ν) : NodeKind := ((frame.map fun _ => ()).fill ()).kind

/-- Whether the open place is in a statement. -/
def isStatement (frame : Frame ν) : Bool := frame.kind = .select

theorem map_fill (f : ν → μ) (x : ν) (frame : Frame ν) :
    (frame.fill x).map f = (frame.map f).fill (f x) := by
  cases frame with
  | argument name others => simp only [fill, map, Form.map, Gap.map_fill]
  | aggregateArgument call others => simp only [fill, map, Form.map, Aggregate.map, Gap.map_fill]
  | aggregateKey call direction others =>
    simp only [fill, map, Form.map, Aggregate.map, Gap.map_fillKey]
  | orderKey direction others => simp only [fill, map, Form.map, Gap.map_fillKey]
  | column s others => simp only [fill, map, Form.map, Select.map, Gap.map_fill]
  | fromEntry s others => simp only [fill, map, Form.map, Select.map, Gap.map_fill]
  | whereCondition s others => simp only [fill, map, Form.map, Select.map, Gap.map_fill]
  | groupKey s others => simp only [fill, map, Form.map, Select.map, Gap.map_fill]
  | sortKey s direction others => simp only [fill, map, Form.map, Select.map, Gap.map_fillKey]
  | _ => rfl

@[simp]
theorem kind_map (f : ν → μ) (frame : Frame ν) : (frame.map f).kind = frame.kind := by
  cases frame <;> rfl

theorem kind_fill (x : ν) (frame : Frame ν) : (frame.fill x).kind = frame.kind := by
  cases frame <;> rfl

theorem kind_ne_null (frame : Frame ν) : frame.kind ≠ .null := by
  cases frame <;> exact NodeKind.noConfusion

theorem kind_ne_binding (frame : Frame ν) : frame.kind ≠ .binding := by
  cases frame <;> exact NodeKind.noConfusion

/-! ## 3. Every child has its frame -/

theorem mem_parts_fill (x : ν) (frame : Frame ν) : x ∈ (frame.fill x).parts := by
  cases frame with
  | argument name others => exact others.mem_fill x
  | aggregateArgument call others => exact List.mem_append_left _ (others.mem_fill x)
  | aggregateKey call direction others => exact List.mem_append_right _ (others.mem_fillKey direction x)
  | orderKey direction others => exact others.mem_fillKey direction x
  | column s others => simp [fill, Form.parts, Select.parts, others.mem_fill x]
  | fromEntry s others => simp [fill, Form.parts, Select.parts, others.mem_fill x]
  | whereCondition s others => simp [fill, Form.parts, Select.parts, others.mem_fill x]
  | groupKey s others => simp [fill, Form.parts, Select.parts, others.mem_fill x]
  | sortKey s direction others => exact List.mem_append_right _ (others.mem_fillKey direction x)
  | _ => simp [fill, Form.parts, Join.parts]

theorem exists_fill_of_mem_parts {x : ν} {form : Form ν} (h : x ∈ form.parts) :
    ∃ frame : Frame ν, frame.fill x = form := by
  cases form with
  | binary op left right =>
    rw [Form.parts, List.mem_cons, List.mem_singleton] at h
    rcases h with rfl | rfl
    · exact ⟨.leftOperand op right, rfl⟩
    · exact ⟨.rightOperand op left, rfl⟩
  | membership element set =>
    rw [Form.parts, List.mem_cons, List.mem_singleton] at h
    rcases h with rfl | rfl
    · exact ⟨.memberElement set, rfl⟩
    · exact ⟨.memberSet element, rfl⟩
  | cast inner type =>
    obtain rfl := List.mem_singleton.mp h
    exact ⟨.castOperand type, rfl⟩
  | call name args =>
    obtain ⟨gap, rfl⟩ := Gap.exists_fill_of_mem h
    exact ⟨.argument name gap, rfl⟩
  | aggregate call =>
    rcases List.mem_append.mp h with h | h
    · obtain ⟨gap, hgap⟩ := Gap.exists_fill_of_mem h
      exact ⟨.aggregateArgument call gap, by rw [fill, hgap]⟩
    · obtain ⟨gap, direction, hgap⟩ := Gap.exists_fillKey_of_mem h
      exact ⟨.aggregateKey call direction gap, by rw [fill, hgap]⟩
  | aliased named =>
    obtain rfl := List.mem_singleton.mp h
    exact ⟨.aliasSource named.name, rfl⟩
  | join joined =>
    obtain ⟨kind, table, condition⟩ := joined
    rcases List.mem_cons.mp h with rfl | h
    · exact ⟨.joinTable kind condition, rfl⟩
    · obtain ⟨⟨test, tested⟩, hcondition, rfl⟩ := List.mem_map.mp h
      obtain rfl := Option.mem_toList.mp hcondition
      exact ⟨.joinedOn kind table test, rfl⟩
  | joinCondition condition =>
    obtain rfl := List.mem_singleton.mp h
    exact ⟨.testedCondition condition.test, rfl⟩
  | order items =>
    obtain ⟨gap, direction, rfl⟩ := Gap.exists_fillKey_of_mem h
    exact ⟨.orderKey direction gap, rfl⟩
  | select s =>
    simp only [Form.parts, Select.parts, List.mem_append, or_assoc] at h
    rcases h with h | h | h | h | h
    · obtain ⟨gap, hgap⟩ := Gap.exists_fill_of_mem h
      exact ⟨.column s gap, by rw [fill, hgap]⟩
    · obtain ⟨gap, hgap⟩ := Gap.exists_fill_of_mem h
      exact ⟨.fromEntry s gap, by rw [fill, hgap]⟩
    · obtain ⟨gap, hgap⟩ := Gap.exists_fill_of_mem h
      exact ⟨.whereCondition s gap, by rw [fill, hgap]⟩
    · obtain ⟨gap, hgap⟩ := Gap.exists_fill_of_mem h
      exact ⟨.groupKey s gap, by rw [fill, hgap]⟩
    · obtain ⟨gap, direction, hgap⟩ := Gap.exists_fillKey_of_mem h
      exact ⟨.sortKey s direction gap, by rw [fill, hgap]⟩
  | _ => cases h

theorem mem_parts_iff {x : ν} {form : Form ν} :
    x ∈ form.parts ↔ ∃ frame : Frame ν, frame.fill x = form := by
  constructor
  · exact exists_fill_of_mem_parts
  · rintro ⟨frame, rfl⟩
    exact mem_parts_fill x frame

end Frame

/-! ## 4. Paths -/

namespace Node

/-- The tree around a node, given by the layers that enclose it, the innermost
    first. -/
def plug : List (Frame Node) → Node → Node
  | [], node => node
  | frame :: outer, node => plug outer (.of (frame.fill node))

theorem mem_subtrees_self (node : Node) : node ∈ node.subtrees := by
  obtain ⟨form⟩ := node
  rw [subtrees_of]
  exact List.mem_cons_self

theorem mem_subtrees_of_mem_parts {form : Form Node} {node inner : Node} (h : node ∈ form.parts)
    (hinner : inner ∈ node.subtrees) : inner ∈ (Node.of form).subtrees := by
  rw [subtrees_of]
  exact List.mem_cons_of_mem _ (List.mem_flatMap.mpr ⟨node, h, hinner⟩)

theorem subtrees_subset_plug (path : List (Frame Node)) (node : Node) :
    node.subtrees ⊆ (plug path node).subtrees := by
  induction path generalizing node with
  | nil => exact fun _ h => h
  | cons frame outer ih =>
    intro inner hinner
    exact ih _ (mem_subtrees_of_mem_parts (frame.mem_parts_fill node) hinner)

theorem plug_append (inner outer : List (Frame Node)) (node : Node) :
    plug (inner ++ outer) node = plug outer (plug inner node) := by
  induction inner generalizing node with
  | nil => rfl
  | cons frame inner ih => exact ih _

/-- The subtrees of a tree are the nodes at the end of its paths. -/
theorem mem_subtrees_iff {tree node : Node} :
    node ∈ tree.subtrees ↔ ∃ path, plug path node = tree := by
  constructor
  · induction tree using Node.induction with
    | layer form ih =>
      intro h
      rw [subtrees_of, List.mem_cons] at h
      rcases h with rfl | h
      · exact ⟨[], rfl⟩
      · obtain ⟨child, hchild, hnode⟩ := List.mem_flatMap.mp h
        obtain ⟨path, rfl⟩ := ih child hchild hnode
        obtain ⟨frame, rfl⟩ := Frame.exists_fill_of_mem_parts hchild
        exact ⟨path ++ [frame], plug_append path [frame] node⟩
  · rintro ⟨path, rfl⟩
    exact subtrees_subset_plug path node node.mem_subtrees_self

end Node

end SqlKit
