/-
  SqlKit/Proofs/Postgres/Subquery.lean
  ====================================
  **Which subqueries stand in parentheses.**

  Every rule writes the text of a child between fixed texts of its own, so each
  place in a tree has something ahead of it and something behind it that do not
  depend on the statement put there (`template_plug`). For most places the one
  ends in `(` and the other begins with `)`. The places without them are a
  condition that is the only one of its statement, the keys of `GROUP BY` and
  `ORDER BY`, and the relations of `FROM` and of joins, where no builder puts a
  statement (`Frame.encloses`).

  What is ahead and behind is found layer by layer. `Surrounds` says of a way to
  write one part that it puts fixed templates around it; writing more before or
  after, or joining with others, keeps that.
-/
import SqlKit.Proofs.Node.Frame
import SqlKit.Proofs.Postgres.Failure
import SqlKit.Proofs.Render.Delimiter
import SqlKit.Proofs.Render.Spacing

namespace SqlKit

/-! ## 1. Places that enclose -/

namespace Frame

variable {ν μ : Type}

/-- Whether a statement in the open place is put in parentheses. -/
def encloses : Frame ν → Bool
  | .whereCondition _ others => !others.isLone
  | .groupKey .. | .sortKey .. | .orderKey .. | .aggregateKey .. => false
  | .fromEntry .. | .joinTable .. => false
  | _ => true

/-- Whether the layer is an aggregate call that contradicts itself. -/
def conflicts : Frame ν → Bool
  | .aggregateArgument call _ | .aggregateKey call _ _ => call.distinct && call.all
  | _ => false

@[simp]
theorem encloses_map (f : ν → μ) (frame : Frame ν) : (frame.map f).encloses = frame.encloses := by
  cases frame with
  | whereCondition s others => simp only [map, encloses, Gap.isLone_map]
  | _ => rfl

@[simp]
theorem conflicts_map (f : ν → μ) (frame : Frame ν) :
    (frame.map f).conflicts = frame.conflicts := by
  cases frame <;> rfl

/-- A part as the layer writes it: what a statement holds is on one line. -/
def hold (frame : Frame ν) (part : Part Template) : Part Template :=
  { part with result := part.result.inlineIf frame.isStatement }

end Frame

namespace Postgres

open Template (text separated Delimits)

/-! ## 2. Writing one part of a layer -/

/-- Parts of a kind are written between fixed templates, and if they are
    statements, in parentheses or after a blank. -/
def Surrounds (kind : NodeKind) (enclosed : Bool) (write : Part Template → Template) : Prop :=
  ∃ ahead behind : Template,
    (∀ part : Part Template, part.node.kind = kind → write part = ahead ++ part.result ++ behind) ∧
      (kind = .select → Delimits enclosed ahead behind)

namespace Surrounds

variable {kind : NodeKind} {enclosed : Bool} {write : Part Template → Template}

theorem append (u v : Template) (h : Surrounds kind enclosed write) :
    Surrounds kind enclosed fun part => u ++ write part ++ v := by
  obtain ⟨ahead, behind, hwrite, hdelimits⟩ := h
  refine ⟨u ++ ahead, behind ++ v, fun part hpart => ?_, fun hkind => (hdelimits hkind).append u v⟩
  have hpart := hwrite part hpart
  simp only [hpart, List.append_assoc]

theorem append_left (u : Template) (h : Surrounds kind enclosed write) :
    Surrounds kind enclosed fun part => u ++ write part := by
  simpa only [List.append_nil] using h.append u []

theorem append_right (v : Template) (h : Surrounds kind enclosed write) :
    Surrounds kind enclosed fun part => write part ++ v :=
  h.append [] v

theorem separated (separator : String) (ts us : List Template)
    (h : Surrounds kind enclosed write) :
    Surrounds kind enclosed fun part => Template.separated separator (ts ++ write part :: us) := by
  simp only [Template.separated_append_cons]
  exact h.append _ _

theorem congr {write' : Part Template → Template} (h : Surrounds kind enclosed write)
    (heq : ∀ part : Part Template, part.node.kind = kind → write' part = write part) :
    Surrounds kind enclosed write' := by
  obtain ⟨ahead, behind, hwrite, hdelimits⟩ := h
  exact ⟨ahead, behind, fun part hpart => (heq part hpart).trans (hwrite part hpart), hdelimits⟩

theorem clause (keyword : String) (h : Surrounds kind enclosed fun part => text keyword ++ write part) :
    Surrounds kind enclosed fun part => clause true keyword (write part) :=
  h.append_left [.clauseBreak]

end Surrounds

variable {kind : NodeKind}

theorem operand_of_kind {part : Part Template} (hpart : part.node.kind = kind) :
    part.operand = part.result.operand kind.isCompound := by
  rw [← hpart]
  rfl

theorem surrounds_operand (kind : NodeKind) : Surrounds kind true Part.operand := by
  cases hcompound : kind.isCompound with
  | true =>
    refine ⟨text "(", text ")", fun part hpart => ?_, fun _ => ⟨?_, ?_⟩⟩
    · rw [operand_of_kind hpart, hcompound]
      rfl
    · exact Template.ends_text rfl
    · exact Template.begins_text rfl
  | false =>
    refine ⟨[], [], fun part hpart => ?_, fun hkind => ?_⟩
    · rw [operand_of_kind hpart, hcompound, List.nil_append, List.append_nil]
      rfl
    · subst hkind
      cases hcompound

theorem surrounds_between {opening closing : String} (hopening : opening.toList.getLast? = some '(')
    (hclosing : closing.toList.head? = some ')') :
    Surrounds kind true fun part => text opening ++ part.result ++ text closing :=
  ⟨text opening, text closing, fun _ _ => rfl,
    fun _ => ⟨Template.ends_text hopening, Template.begins_text hclosing⟩⟩

theorem surrounds_after {keyword : String} (hkeyword : keyword.toList.getLast? = some ' ') :
    Surrounds kind false fun part => text keyword ++ part.result :=
  ⟨text keyword, [], fun _ _ => (List.append_nil _).symm, fun _ => Template.ends_text hkeyword⟩

/-- A member of a list is set off by the keyword of the list or by a comma. -/
theorem surrounds_listed {keyword : String} (hkeyword : keyword.toList.getLast? = some ' ')
    (ts us : List Template) (suffix : Template) :
    Surrounds kind false fun part =>
      text keyword ++ commaSeparated (ts ++ (part.result ++ suffix) :: us) := by
  simp only [commaSeparated, Template.separated_append_cons, ← List.append_assoc]
  apply Surrounds.append_right
  apply Surrounds.append_right
  rcases List.eq_nil_or_concat ts with rfl | ⟨init, last, rfl⟩
  · exact surrounds_after hkeyword
  · have hcomma : Surrounds kind false fun part => text ", " ++ part.result := surrounds_after rfl
    simpa [List.concat_eq_append] using hcomma.append_left
      (text keyword ++ init.flatMap (· ++ text ", ") ++ last)

/-! ## 3. Lists of parts -/

theorem surrounds_arguments (others : Gap (Part Template)) :
    Surrounds kind true fun part => commaSeparated ((others.fill part).map Part.operand) := by
  simp only [Gap.fill, List.map_append, List.map_cons]
  exact (surrounds_operand kind).separated ", " _ _

theorem surrounds_columns (others : Gap (Part Template)) :
    Surrounds kind true fun part => columns (others.fill part) := by
  have hcolumns (part : Part Template) : columns (others.fill part) =
      commaSeparated (others.before.map column ++ column part :: others.after.map column) := by
    obtain ⟨before, after⟩ := others
    cases before <;> simp [columns, Gap.fill]
  have hcolumn : Surrounds kind true column := by
    by_cases hkind : kind = .select
    · obtain ⟨ahead, behind, hwrite, hdelimits⟩ := surrounds_operand kind
      refine ⟨ahead, behind, fun part hpart => ?_, hdelimits⟩
      rw [column, if_pos (hpart.trans hkind), hwrite part hpart]
    · refine ⟨[], [], fun part hpart => ?_, fun h => absurd h hkind⟩
      rw [column, if_neg (hpart ▸ hkind), List.nil_append, List.append_nil]
  simp only [hcolumns]
  exact hcolumn.separated ", " _ _

theorem surrounds_orderItems {keyword : String} (hkeyword : keyword.toList.getLast? = some ' ')
    (direction : Direction) (others : Gap (OrderItem (Part Template))) :
    Surrounds kind false fun part =>
      text keyword ++ orderItems (others.fillKey direction part) := by
  simp only [orderItems, Gap.fillKey, Gap.fill, List.map_append, List.map_cons]
  exact surrounds_listed hkeyword _ _ _

theorem orderClause_fillKey (direction : Direction) (others : Gap (OrderItem (Part Template)))
    (part : Part Template) : orderClause (others.fillKey direction part) =
      text " ORDER BY " ++ orderItems (others.fillKey direction part) := by
  obtain ⟨before, after⟩ := others
  cases before <;> rfl

theorem surrounds_groups {keyword : String} (hkeyword : keyword.toList.getLast? = some ' ')
    (others : Gap (Part Template)) : Surrounds kind false fun part =>
      text keyword ++ commaSeparated ((others.fill part).map Part.result) := by
  have hlisted (ts us : List Template) : Surrounds kind false fun part =>
      text keyword ++ commaSeparated (ts ++ (part.result ++ []) :: us) :=
    surrounds_listed hkeyword ts us []
  simp only [List.append_nil] at hlisted
  simp only [Gap.fill, List.map_append, List.map_cons]
  exact hlisted _ _

theorem surrounds_tables {keyword : String} (hkeyword : keyword.toList.getLast? = some ' ')
    (others : Gap (Part Template)) :
    Surrounds kind false fun part => text keyword ++ tables (others.fill part) := by
  obtain ⟨before, after⟩ := others
  cases before with
  | nil =>
    have hfirst : Surrounds kind false fun part => text keyword ++ part.result :=
      surrounds_after hkeyword
    simpa only [Gap.fill, List.nil_append, tables, List.append_assoc]
      using hfirst.append_right (after.flatMap furtherTable)
  | cons first before =>
    have hfurther : Surrounds kind false furtherTable := by
      by_cases hkind : kind = .join
      · refine ⟨text " ", [], fun part hpart => ?_, fun _ => Template.ends_text rfl⟩
        rw [furtherTable, if_pos (hpart.trans hkind), List.append_nil]
      · refine ⟨text " , ", [], fun part hpart => ?_, fun _ => Template.ends_text rfl⟩
        rw [furtherTable, if_neg (hpart ▸ hkind), List.append_nil]
    have hlater := hfurther.append (text keyword ++ first.result ++ before.flatMap furtherTable)
      (after.flatMap furtherTable)
    simpa only [Gap.fill, List.cons_append, tables, List.flatMap_append, List.flatMap_cons,
      List.append_assoc] using hlater

/-- The chain keeps what is there and writes around it. -/
theorem foldl_and_eq (compound : Bool) (rest : List (Part Template)) :
    ∃ ahead behind : Template, ∀ t : Template,
      (rest.foldl Condition.and ⟨t, compound⟩).template = ahead ++ t ++ behind := by
  induction rest generalizing compound with
  | nil => exact ⟨[], [], fun t => (List.append_nil t).symm⟩
  | cons next rest ih =>
    obtain ⟨ahead, behind, hrest⟩ := ih true
    have hoperand : ∃ u v : Template, ∀ t : Template, t.operand compound = u ++ t ++ v := by
      cases compound with
      | true => exact ⟨text "(", text ")", fun _ => rfl⟩
      | false => exact ⟨[], [], fun t => (List.append_nil t).symm⟩
    obtain ⟨u, v, huv⟩ := hoperand
    refine ⟨ahead ++ u, v ++ text " AND " ++ next.operand ++ behind, fun t => ?_⟩
    rw [List.foldl_cons, Condition.and, hrest, huv]
    simp only [List.append_assoc]

theorem Surrounds.foldl_and {enclosed : Bool} {write : Part Template → Template} (compound : Bool)
    (rest : List (Part Template)) (h : Surrounds kind enclosed write) :
    Surrounds kind enclosed fun part =>
      (rest.foldl Condition.and ⟨write part, compound⟩).template := by
  obtain ⟨ahead, behind, hfold⟩ := foldl_and_eq compound rest
  simp only [hfold]
  exact h.append ahead behind

/-- A condition is an operand of the chain unless it is the only one. -/
theorem surrounds_conjunction {keyword : String} (hkeyword : keyword.toList.getLast? = some ' ')
    (others : Gap (Part Template)) : Surrounds kind (!others.isLone) fun part =>
      text keyword ++ conjunction (others.fill part) := by
  obtain ⟨before, after⟩ := others
  cases before with
  | nil =>
    cases after with
    | nil => exact surrounds_after hkeyword
    | cons next after =>
      have hseed := ((surrounds_operand kind).append_right (text " AND ")).append_right next.operand
      exact (hseed.foldl_and true after).append_left (text keyword)
  | cons first before =>
    have hnext (c : Condition) : Surrounds kind true fun part => (c.and part).template :=
      (surrounds_operand kind).append_left _
    have hfill (part : Part Template) : conjunction (Gap.fill ⟨first :: before, after⟩ part) =
        (after.foldl Condition.and ⟨((before.foldl Condition.and
          ⟨first.result, first.node.isCompound⟩).and part).template, true⟩).template := by
      rw [Gap.fill, List.cons_append, conjunction, List.foldl_append, List.foldl_cons]
      rfl
    simp only [hfill]
    exact ((hnext _).foldl_and true after).append_left (text keyword)

/-! ## 4. Writing a layer -/

theorem binary_eq_append (op : Operator) (right : Part Template) :
    ∃ behind : Template, ∀ left, binary op left right = left.operand ++ behind := by
  cases htest : nullTest? op with
  | none =>
    refine ⟨text (" " ++ op.symbol ++ " ") ++ right.operand, fun left => ?_⟩
    rw [binary_eq_plain (.inl htest), List.append_assoc]
  | some test =>
    cases hform : right.node.form with
    | null => exact ⟨_, fun left => binary_eq_test htest hform⟩
    | binding name => exact ⟨_, fun left => binary_eq_comparand htest hform⟩
    | _ =>
      refine ⟨text (" " ++ op.symbol ++ " ") ++ right.operand, fun left => ?_⟩
      rw [binary_eq_plain (.inr (by simp [Node.kind, hform, Form.kind])), List.append_assoc]

section Statement

variable (s : Select (Part Template))

theorem surrounds_column (others : Gap (Part Template)) :
    Surrounds kind true fun part => clauses { s with columns := others.fill part } := by
  simp only [clauses, ← Bool.cond_eq_ite]
  iterate 6 apply Surrounds.append_right
  exact (surrounds_columns others).append_left _

theorem surrounds_fromEntry (others : Gap (Part Template)) :
    Surrounds kind false fun part => clauses { s with tables := others.fill part } := by
  simp only [clauses, Gap.isEmpty_fill, Bool.not_false, ← Bool.cond_eq_ite]
  iterate 5 apply Surrounds.append_right
  exact (Surrounds.clause "FROM " (surrounds_tables (by rfl) others)).append_left _

theorem surrounds_whereCondition (others : Gap (Part Template)) :
    Surrounds kind (!others.isLone) fun part =>
      clauses { s with conditions := others.fill part } := by
  simp only [clauses, Gap.isEmpty_fill, Bool.not_false, ← Bool.cond_eq_ite]
  iterate 4 apply Surrounds.append_right
  exact (Surrounds.clause "WHERE " (surrounds_conjunction (by rfl) others)).append_left _

theorem surrounds_groupKey (others : Gap (Part Template)) :
    Surrounds kind false fun part => clauses { s with groupBy := others.fill part } := by
  simp only [clauses, Gap.isEmpty_fill, Bool.not_false, ← Bool.cond_eq_ite]
  iterate 3 apply Surrounds.append_right
  exact (Surrounds.clause "GROUP BY " (surrounds_groups (by rfl) others)).append_left _

theorem surrounds_sortKey (direction : Direction) (others : Gap (OrderItem (Part Template))) :
    Surrounds kind false fun part =>
      clauses { s with order := others.fillKey direction part } := by
  simp only [clauses, Gap.isEmpty_fillKey, Bool.not_false, ← Bool.cond_eq_ite]
  iterate 2 apply Surrounds.append_right
  exact (Surrounds.clause "ORDER BY " (surrounds_orderItems (by rfl) direction others)).append_left _

theorem rule_select (options : Options) :
    rule options (.select s) = clauses (s.map Part.inline) := rfl

end Statement

theorem surrounds_joinCondition (test : JoinTest) :
    Surrounds kind true fun part => joinCondition ⟨test, part⟩ := by
  simp only [joinCondition]
  apply surrounds_between
  · cases test <;> rfl
  · rfl

theorem surrounds_aggregateArgument {call : Aggregate (Part Template)}
    (hagree : (call.distinct && call.all) = false) (others : Gap (Part Template)) :
    Surrounds kind true fun part => aggregate { call with args := others.fill part } := by
  simp only [aggregate, hagree, Bool.false_eq_true, if_false, ← Bool.cond_eq_ite]
  iterate 2 apply Surrounds.append_right
  exact (surrounds_arguments others).append_left _

theorem surrounds_aggregateKey {call : Aggregate (Part Template)}
    (hagree : (call.distinct && call.all) = false) (direction : Direction)
    (others : Gap (OrderItem (Part Template))) :
    Surrounds kind false fun part =>
      aggregate { call with order := others.fillKey direction part } := by
  simp only [aggregate, hagree, Bool.false_eq_true, if_false, orderClause_fillKey,
    ← Bool.cond_eq_ite]
  apply Surrounds.append_right
  exact (surrounds_orderItems (by rfl) direction others).append_left _

/-- **What a layer writes around a child**, for each place of the layer. -/
theorem surrounds_rule (options : Options) (hnull : kind ≠ .null) (hbinding : kind ≠ .binding)
    (frame : Frame (Part Template)) (hagree : frame.conflicts = false) :
    ∃ write, Surrounds kind frame.encloses write ∧
      ∀ part, rule options (frame.fill part) = write (frame.hold part) := by
  cases frame with
  | leftOperand op right =>
    obtain ⟨behind, hbinary⟩ := binary_eq_append op right
    exact ⟨fun part => part.operand ++ behind, (surrounds_operand kind).append_right _, hbinary⟩
  | rightOperand op left =>
    refine ⟨fun part => binary op left part, ?_, fun _ => rfl⟩
    apply ((surrounds_operand kind).append_left
      (left.operand ++ text (" " ++ op.symbol ++ " "))).congr
    intro part hpart
    exact binary_eq_plain (.inr ⟨hpart ▸ hnull, hpart ▸ hbinding⟩)
  | memberElement set =>
    exact ⟨fun part => part.operand ++ text " IN " ++ set.operand,
      ((surrounds_operand kind).append_right _).append_right _, fun _ => rfl⟩
  | memberSet element =>
    exact ⟨fun part => element.operand ++ text " IN " ++ part.operand,
      (surrounds_operand kind).append_left _, fun _ => rfl⟩
  | castOperand type =>
    refine ⟨fun part => text "(" ++ part.result ++ text (")::" ++ type), ?_, fun _ => rfl⟩
    exact surrounds_between rfl (by simp)
  | argument name others =>
    exact ⟨_, ((surrounds_arguments others).append_left _).append_right _, fun _ => rfl⟩
  | aggregateArgument call others =>
    exact ⟨_, surrounds_aggregateArgument hagree others, fun _ => rfl⟩
  | aggregateKey call direction others =>
    exact ⟨_, surrounds_aggregateKey hagree direction others, fun _ => rfl⟩
  | aliasSource name =>
    exact ⟨fun part => part.operand ++ text (" AS " ++ identText options name),
      (surrounds_operand kind).append_right _, fun _ => rfl⟩
  | joinTable joinKind condition =>
    have htable : Surrounds kind false fun part =>
        text (joinWords joinKind ++ " ") ++ part.result :=
      surrounds_after (by simp)
    cases condition with
    | none => exact ⟨_, htable, fun _ => rfl⟩
    | some condition =>
      exact ⟨fun part => text (joinWords joinKind ++ " ") ++ part.result ++ text " " ++
          joinCondition condition,
        (htable.append_right _).append_right _, fun _ => rfl⟩
  | joinedOn joinKind table test =>
    exact ⟨fun part => text (joinWords joinKind ++ " ") ++ table.result ++ text " " ++
        joinCondition ⟨test, part⟩,
      (surrounds_joinCondition test).append_left _, fun _ => rfl⟩
  | testedCondition test => exact ⟨_, surrounds_joinCondition test, fun _ => rfl⟩
  | orderKey direction others =>
    have hkeys : Surrounds kind false fun part =>
        text " ORDER BY " ++ orderItems (others.fillKey direction part) :=
      surrounds_orderItems rfl direction others
    exact ⟨_, hkeys, orderClause_fillKey direction others⟩
  | column s others =>
    refine ⟨_, surrounds_column (s.map Part.inline) (others.map Part.inline), fun part => ?_⟩
    rw [Frame.fill, rule_select, Select.map, Gap.map_fill]
    rfl
  | fromEntry s others =>
    refine ⟨_, surrounds_fromEntry (s.map Part.inline) (others.map Part.inline), fun part => ?_⟩
    rw [Frame.fill, rule_select, Select.map, Gap.map_fill]
    rfl
  | whereCondition s others =>
    rw [Frame.encloses, ← others.isLone_map Part.inline]
    refine ⟨_, surrounds_whereCondition (s.map Part.inline) (others.map Part.inline),
      fun part => ?_⟩
    rw [Frame.fill, rule_select, Select.map, Gap.map_fill]
    rfl
  | groupKey s others =>
    refine ⟨_, surrounds_groupKey (s.map Part.inline) (others.map Part.inline), fun part => ?_⟩
    rw [Frame.fill, rule_select, Select.map, Gap.map_fill]
    rfl
  | sortKey s direction others =>
    refine ⟨_, surrounds_sortKey (s.map Part.inline) direction
      (others.map (·.map Part.inline)), fun part => ?_⟩
    rw [Frame.fill, rule_select, Select.map, Gap.map_fillKey]
    rfl

/-! ## 5. Writing a whole tree -/

variable (options : Options)

theorem template_fill (hnull : kind ≠ .null) (hbinding : kind ≠ .binding) {frame : Frame Node}
    (hagree : frame.conflicts = false) :
    ∃ ahead behind : Template,
      (∀ node : Node, node.kind = kind → dialect.template options (.of (frame.fill node)) =
        ahead ++ (dialect.template options node).inlineIf frame.isStatement ++ behind) ∧
      (kind = .select → Delimits frame.encloses ahead behind) := by
  let frame' := frame.map (Node.part (dialect.layout options))
  have hagree' : frame'.conflicts = false := (frame.conflicts_map _).trans hagree
  obtain ⟨write, ⟨ahead, behind, hwrite, hdelimits⟩, hrule⟩ :=
    surrounds_rule options hnull hbinding frame' hagree'
  refine ⟨ahead, behind, fun node hnode => ?_, fun hkind => ?_⟩
  · have hpart := hwrite (frame'.hold (Node.part (dialect.layout options) node)) hnode
    rw [template_of, Frame.map_fill, hrule, hpart, Frame.hold, Frame.isStatement, Frame.kind_map]
    rfl
  · rw [← frame.encloses_map (Node.part (dialect.layout options))]
    exact hdelimits hkind

/-- **What stands around a place** does not depend on what is put there: a tree
    is written ahead of it, then there, then behind it. -/
theorem template_plug (hnull : kind ≠ .null) (hbinding : kind ≠ .binding) {frame : Frame Node}
    {outer : List (Frame Node)} (hagree : ∀ f ∈ frame :: outer, f.conflicts = false) :
    ∃ ahead behind : Template,
      (∀ node : Node, node.kind = kind →
        dialect.template options (Node.plug (frame :: outer) node) =
          ahead ++ (dialect.template options node).inlineIf
            ((frame :: outer).any Frame.isStatement) ++ behind) ∧
      (kind = .select → Delimits frame.encloses ahead behind) := by
  induction outer generalizing frame kind with
  | nil =>
    obtain ⟨ahead, behind, hfill, hdelimits⟩ :=
      template_fill options hnull hbinding (hagree frame List.mem_cons_self)
    refine ⟨ahead, behind, fun node hnode => ?_, hdelimits⟩
    rw [List.any_cons, List.any_nil, Bool.or_false]
    exact hfill node hnode
  | cons next outer ih =>
    have hinner := hagree frame List.mem_cons_self
    have houter := ih frame.kind_ne_null frame.kind_ne_binding fun f hf =>
      hagree f (List.mem_cons_of_mem frame hf)
    obtain ⟨ahead, behind, hfill, hdelimits⟩ := template_fill options hnull hbinding hinner
    obtain ⟨ahead', behind', hplug, -⟩ := houter
    let within := (next :: outer).any Frame.isStatement
    refine ⟨ahead' ++ ahead.inlineIf within, behind.inlineIf within ++ behind',
      fun node hnode => ?_, fun hkind => ((hdelimits hkind).inlineIf within).append _ _⟩
    have hlayer := hplug (.of (frame.fill node)) (frame.kind_fill node)
    have hwithin : (frame :: next :: outer).any Frame.isStatement = (frame.isStatement || within) :=
      List.any_cons
    rw [hfill node hnode] at hlayer
    rw [Node.plug, hlayer, hwithin]
    simp only [Template.inlineIf_append, Template.inlineIf_inlineIf, List.append_assoc, within]

/-- A layer that contradicts itself cannot be rendered, wherever it is. -/
theorem not_conflicts_of_render {args : Args} {path : List (Frame Node)} {node : Node}
    {r : Rendered} (h : render options (Node.plug path node) args = .ok r) :
    ∀ frame ∈ path, frame.conflicts = false := by
  intro frame hframe
  obtain ⟨inner, outer, rfl⟩ := List.append_of_mem hframe
  have hlayer : Node.of (frame.fill (Node.plug inner node)) ∈
      (Node.plug (inner ++ frame :: outer) node).subtrees := by
    rw [Node.plug_append]
    exact Node.subtrees_subset_plug outer _ (Node.mem_subtrees_self _)
  have hnone := offence?_eq_none_of_render h hlayer
  cases frame with
  | aggregateArgument call others =>
    simpa [Frame.fill, Node.form, Form.offence?, Frame.conflicts] using hnone
  | aggregateKey call direction others =>
    simpa [Frame.fill, Node.form, Form.offence?, Frame.conflicts] using hnone
  | _ => rfl

/-- **Where a subquery stands in parentheses**, and where it does not: the text
    of the statement that fills a place, as the render writes it there, is
    between parentheses exactly if its place is one that encloses. Each subtree
    of a tree fills such a place (`Node.mem_subtrees_iff`). -/
theorem subquery_enclosed_iff (options : Options) (frame : Frame Node)
    (outer : List (Frame Node)) :
    ∃ ahead behind : Template, ∀ (s : Select Node) (args : Args) (r : Rendered),
      render options (Node.plug (frame :: outer) (.of (.select s))) args = .ok r →
        ∃ first inner last slots middle after,
          ahead.run (Context.new args options) {} = (.ok first, slots) ∧
          (dialect.template options (.of (.select s))).run
            { Context.new args options with depth := (frame :: outer).countP Frame.isStatement }
            slots = (.ok inner, middle) ∧
          behind.run (Context.new args options) middle = (.ok last, after) ∧
          r.sql = Piece.join (first ++ inner ++ last) ∧
          (Piece.Enclosed first last ↔ frame.encloses = true) := by
  have hnull : NodeKind.select ≠ .null := NodeKind.noConfusion
  have hbinding : NodeKind.select ≠ .binding := NodeKind.noConfusion
  by_cases hagree : ∀ f ∈ frame :: outer, f.conflicts = false
  · obtain ⟨ahead, behind, hplug, hdelimits⟩ :=
      template_plug options hnull hbinding hagree
    refine ⟨ahead, behind, fun s args r h => ?_⟩
    obtain ⟨pieces, after, hrun, rfl⟩ := Dialect.render_eq_ok h
    rw [hplug (.of (.select s)) rfl] at hrun
    obtain ⟨begun, middle, last, hbegun, hlast, rfl⟩ := Template.run_append_eq_ok hrun
    obtain ⟨first, slots, inner, hfirst, hinner, rfl⟩ := Template.run_append_eq_ok hbegun
    have hdepth : (frame :: outer).any Frame.isStatement = true ↔
        0 < (frame :: outer).countP Frame.isStatement := by
      rw [List.any_eq_true, List.countP_pos_iff]
    rw [Template.run_inlineIf rfl _ hdepth] at hinner
    exact ⟨first, inner, last, slots, middle, after, hfirst, hinner, hlast, rfl,
      (hdelimits rfl).enclosed_iff hfirst hlast⟩
  · refine ⟨[], [], fun s args r h => ?_⟩
    exact absurd (not_conflicts_of_render options h) hagree

/-- The only condition, a group and a sort key are subqueries that a database
    cannot read. -/
theorem subquery_bare :
    let t : Node := .of (.identifier "t")
    let subquery : Node := .of (.select { tables := [.of (.identifier "u")] })
    let condition : Node := .of (.select { tables := [t], conditions := [subquery] })
    let group : Node := .of (.select { tables := [t], groupBy := [subquery] })
    let sort : Node := .of (.select { tables := [t], order := [⟨subquery, .ascending⟩] })
    let call : Node := .of (.aggregate { name := "f", order := [⟨subquery, .ascending⟩] })
    let sql (node : Node) : Option String := (render {} node {}).toOption.map Rendered.sql
    sql condition = some "SELECT * FROM t WHERE SELECT * FROM u" ∧
      sql group = some "SELECT * FROM t GROUP BY SELECT * FROM u" ∧
      sql sort = some "SELECT * FROM t ORDER BY SELECT * FROM u ASC" ∧
      sql call = some "f( ORDER BY SELECT * FROM u ASC)" := by
  decide +kernel

end Postgres

end SqlKit
