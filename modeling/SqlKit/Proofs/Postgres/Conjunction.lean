/-
  SqlKit/Proofs/Postgres/Conjunction.lean
  =======================================
  **The conditions of a statement are one chain of `AND`.**

  A statement keeps its conditions in a list and chains them while it is laid
  out: the first stands as it is, and from the second on both sides are
  operands. A tree of `AND` operations is laid out by the rule for operators,
  which knows nothing of statements. Grouped from the left, the two are the same
  layout (`template_chain`), also inside a statement, where everything is on one
  line (`inline_conjunction`).

  A layout decides the text, the slots and the errors of a run at once, so the
  two statements cannot be told apart by anything a session does afterwards
  (`run_conditions_chain`).
-/
import SqlKit.Build.Expression
import SqlKit.Render.Session
import SqlKit.Proofs.Postgres.Layout

namespace SqlKit.Postgres

open Template (text)

/-! ## 1. The chain as a tree -/

/-- The chain in the making: the layout of a tree, and whether it is compound. -/
def Condition.ofNode (options : Options) (node : Node) : Condition :=
  ⟨dialect.template options node, node.isCompound⟩

theorem Condition.and_ofNode (options : Options) (left right : Node) :
    (Condition.ofNode options left).and (Node.part (dialect.layout options) right) =
      Condition.ofNode options (Node.binary .and left right) := by
  have hplain : dialect.template options (Node.binary .and left right) =
      (Node.part (dialect.layout options) left).operand ++ text " AND " ++
        (Node.part (dialect.layout options) right).operand := by
    have hand : nullTest? .and = none := rfl
    rw [Node.binary, template_of]
    exact binary_eq_plain (.inl hand)
  rw [Condition.ofNode, Condition.ofNode, Condition.and, hplain]
  rfl

theorem foldl_and_ofNode (options : Options) (first : Node) (rest : List Node) :
    (rest.map (Node.part (dialect.layout options))).foldl Condition.and
        (Condition.ofNode options first) =
      Condition.ofNode options (rest.foldl (Node.binary .and) first) := by
  induction rest generalizing first with
  | nil => rfl
  | cons next rest ih =>
    rw [List.map_cons, List.foldl_cons, List.foldl_cons, Condition.and_ofNode]
    apply ih

/-- The layout of a chain of `AND` is the conjunction of its members. -/
theorem template_chain (options : Options) (first : Node) (rest : List Node) :
    dialect.template options (rest.foldl (Node.binary .and) first) =
      conjunction ((first :: rest).map (Node.part (dialect.layout options))) := by
  have hfold := congrArg Condition.template (foldl_and_ofNode options first rest)
  exact hfold.symm

/-! ## 2. The chain on one line -/

theorem inline_foldl_and (c : Condition) (parts : List (Part Template)) :
    ((parts.map Part.inline).foldl Condition.and ⟨c.template.inline, c.compound⟩).template =
      (parts.foldl Condition.and c).template.inline := by
  induction parts generalizing c with
  | nil => rfl
  | cons part rest ih =>
    have hstep : Condition.and ⟨c.template.inline, c.compound⟩ part.inline =
        ⟨(c.and part).template.inline, (c.and part).compound⟩ := by
      simp only [Condition.and, Part.operand, Part.inline, Template.inline_append,
        Template.inline_operand, Template.inline_text]
    rw [List.map_cons, List.foldl_cons, List.foldl_cons, hstep]
    apply ih

theorem inline_conjunction (parts : List (Part Template)) :
    conjunction (parts.map Part.inline) = (conjunction parts).inline := by
  cases parts with
  | nil => rfl
  | cons first rest => exact inline_foldl_and ⟨first.result, first.node.isCompound⟩ rest

/-! ## 3. The two statements -/

/-- A statement is laid out as if its conditions were one chain of `AND`. -/
theorem template_conditions_chain (options : Options) (s : Select Node) (first : Node)
    (rest : List Node) :
    dialect.template options (.of (.select { s with conditions := first :: rest })) =
      dialect.template options
        (.of (.select { s with conditions := [rest.foldl (Node.binary .and) first] })) := by
  have hchain : conjunction (((first :: rest).map (Node.part (dialect.layout options))).map
        Part.inline) =
      conjunction (([rest.foldl (Node.binary .and) first].map
        (Node.part (dialect.layout options))).map Part.inline) := by
    rw [inline_conjunction, ← template_chain]
    rfl
  rw [template_of, template_of]
  change clauses _ = clauses _
  simp only [clauses, Select.map, hchain]
  rfl

/-- **The conditions of a statement are one chain of `AND`**, grouped from the
    left: rendered anywhere in a session, from any slots, the list and the chain
    give the same text or error and leave the same slots, and whatever follows in
    the session goes the same way. -/
theorem run_conditions_chain (ctx : Context) (s : Select Node) (first : Node) (rest : List Node)
    (slots : Slots) :
    let listed : Node := .of (.select { s with conditions := first :: rest })
    let chained : Node :=
      .of (.select { s with conditions := [rest.foldl (Node.binary .and) first] })
    Session.runStep dialect ctx (.node (.ok listed)) slots =
        Session.runStep dialect ctx (.node (.ok chained)) slots ∧
      ∀ more, Session.run dialect ctx (.node (.ok listed) :: more) slots =
        Session.run dialect ctx (.node (.ok chained) :: more) slots := by
  intro listed chained
  have hstep : Session.runStep dialect ctx (.node (.ok listed)) slots =
      Session.runStep dialect ctx (.node (.ok chained)) slots := by
    simp only [Session.runStep, Session.writeTree]
    rw [template_conditions_chain]
  constructor
  · exact hstep
  · intro more
    simp only [Session.run, hstep]

end SqlKit.Postgres
