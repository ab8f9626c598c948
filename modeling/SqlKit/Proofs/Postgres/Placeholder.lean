/-
  SqlKit/Proofs/Postgres/Placeholder.lean
  =======================================
  **The placeholders of a Postgres text.**

  A reader of the finished text, who knows nothing of the tree, finds the
  placeholders `$1, $2, …` in the order of their first sighting, one for each
  value and none beyond (`placeholders_render`). The names in the tree must be
  free of dollar signs, since unquoted names and types go into the text as they
  are and a quoted name keeps its characters.

  Numbering is a matter of the run alone (`Template.dense_run`). What is left
  for the dialect is that the text can be read back at all: every rule keeps a
  placeholder apart from what follows it (`spaced_rule`).
-/
import SqlKit.Proofs.Node.Gather
import SqlKit.Proofs.Render.Numbering
import SqlKit.Proofs.Render.Spacing
import SqlKit.Postgres

namespace SqlKit.Postgres

open Template (text separated Spaced)
open Text (quoteIdent)

/-! ## 1. Fixed texts without dollar signs -/

theorem dollar_notMem_append {s t : String} (hs : '$' ∉ s.toList) (ht : '$' ∉ t.toList) :
    '$' ∉ (s ++ t).toList := by
  rw [String.toList_append, List.mem_append]
  exact not_or.mpr ⟨hs, ht⟩

theorem dollar_notMem_digits (n : Nat) : '$' ∉ Nat.toDigits 10 n := by
  intro h
  have hdigit := Nat.isDigit_of_mem_toDigits (by decide) (by decide) h
  exact absurd hdigit (by decide)

theorem dollar_notMem_toString_nat (n : Nat) : '$' ∉ (toString n).toList := by
  rw [Nat.toString_eq_repr, Nat.toList_repr]
  exact dollar_notMem_digits n

theorem dollar_notMem_toString_int (i : Int) : '$' ∉ (toString i).toList := by
  cases i with
  | ofNat n =>
    change '$' ∉ (Nat.repr n).toList
    rw [Nat.toList_repr]
    exact dollar_notMem_digits n
  | negSucc n =>
    change '$' ∉ ("-" ++ Nat.repr (n + 1)).toList
    refine dollar_notMem_append (by decide) ?_
    rw [Nat.toList_repr]
    exact dollar_notMem_digits (n + 1)

theorem dollar_notMem_quoteIdent {name : String} (h : '$' ∉ name.toList) :
    '$' ∉ (quoteIdent name).toList := by
  have hdoubled : '$' ∉ Text.doubleQuotes name.toList := by
    rw [Text.doubleQuotes, List.mem_flatMap]
    rintro ⟨c, hc, hdollar⟩
    split at hdollar
    · rename_i hquote
      simp [hquote] at hdollar
    · exact h (List.mem_singleton.mp hdollar ▸ hc)
  simp [hdoubled]

theorem dollar_notMem_identText {name : String} (options : Options) (h : '$' ∉ name.toList) :
    '$' ∉ (identText options name).toList := by
  unfold identText
  split
  · exact dollar_notMem_quoteIdent h
  · exact h

theorem dollar_notMem_symbol (op : Operator) : '$' ∉ (" " ++ op.symbol ++ " ").toList := by
  cases op <;> decide

/-! ## 2. The parts of the rules -/

section Parts

variable {part left right : Part Template}

theorem spaced_operand (h : part.result.Spaced) : part.operand.Spaced :=
  h.operand _

theorem spaced_commaSeparated {ts : List Template} (h : ∀ t ∈ ts, t.Spaced) :
    (commaSeparated ts).Spaced :=
  Template.spaced_separated (by decide) (by decide) h

theorem spaced_commaSeparated_map {ν : Type} {parts : List ν} {f : ν → Template}
    (h : ∀ part ∈ parts, (f part).Spaced) : (commaSeparated (parts.map f)).Spaced := by
  apply spaced_commaSeparated
  intro t ht
  obtain ⟨part, hpart, rfl⟩ := List.mem_map.mp ht
  exact h part hpart

/-- A comparison opens its right side with a blank, so the left side may end in
    a placeholder. -/
theorem spaced_binary (op : Operator) (hleft : left.result.Spaced)
    (hright : right.result.Spaced) : (binary op left right).Spaced := by
  have hl := spaced_operand hleft
  have hplain : (left.operand ++ text (" " ++ op.symbol ++ " ") ++ right.operand).Spaced := by
    rw [List.append_assoc]
    refine hl.append ((spaced_operand hright).text_append (dollar_notMem_symbol op)) ?_
    exact Template.opens_text_append (by cases op <;> decide) _
  unfold binary
  split
  · rename_i test _ htest _
    cases op <;> simp only [nullTest?, Option.some.injEq, reduceCtorEq] at htest <;> subst htest <;>
      exact hl.append_text (by decide) (by decide)
  · rename_i test _ name htest _
    cases op <;> simp only [nullTest?, Option.some.injEq, reduceCtorEq] at htest <;> subst htest <;>
      exact hl.append ⟨by decide, by decide, by decide, by decide, trivial⟩ ⟨by decide, by decide⟩
  · exact hplain

theorem spaced_orderItems {items : List (OrderItem (Part Template))}
    (h : ∀ item ∈ items, item.key.result.Spaced) : (orderItems items).Spaced := by
  refine spaced_commaSeparated_map fun item hitem => ?_
  cases item.direction with
  | unspecified =>
    exact (h item hitem).append (Template.spaced_text (by decide)) (.inr ⟨rfl, trivial⟩)
  | ascending => exact (h item hitem).append_text (by decide) (by decide)
  | descending => exact (h item hitem).append_text (by decide) (by decide)

theorem spaced_orderClause {items : List (OrderItem (Part Template))}
    (h : ∀ item ∈ items, item.key.result.Spaced) : (orderClause items).Spaced := by
  unfold orderClause
  split
  · trivial
  · exact (spaced_orderItems h).text_append (by decide)

theorem opens_orderClause (items : List (OrderItem (Part Template))) :
    (orderClause items).Opens := by
  unfold orderClause
  split
  · trivial
  · exact Template.opens_text_append (by decide) _

theorem spaced_aggregate {applied : Aggregate (Part Template)} (hname : '$' ∉ applied.name.toList)
    (hargs : ∀ arg ∈ applied.args, arg.result.Spaced)
    (horder : ∀ item ∈ applied.order, item.key.result.Spaced) : (aggregate applied).Spaced := by
  have hbody := spaced_commaSeparated_map fun arg harg => spaced_operand (hargs arg harg)
  unfold aggregate
  split
  · trivial
  · have hopening : '$' ∉ (applied.name ++ "(" ++
        (if applied.distinct then "DISTINCT " else if applied.all then "ALL " else "")).toList := by
      refine dollar_notMem_append (dollar_notMem_append hname (by decide)) ?_
      split
      · decide
      · split <;> decide
    refine Spaced.append_text ?_ (by decide) (by decide)
    exact (hbody.text_append hopening).append (spaced_orderClause horder) (opens_orderClause _)

theorem spaced_joinCondition {condition : JoinCondition (Part Template)}
    (h : condition.condition.result.Spaced) : (joinCondition condition).Spaced := by
  refine Spaced.append_text (h.text_append ?_) (by decide) (by decide)
  cases condition.test <;> decide

theorem spaced_join {joined : Join (Part Template)} (htable : joined.table.result.Spaced)
    (hcondition : ∀ condition ∈ joined.condition, condition.condition.result.Spaced) :
    (join joined).Spaced := by
  have hwords : '$' ∉ (joinWords joined.kind ++ " ").toList := by
    rcases joined.kind with side | _
    · cases side <;> decide
    · decide
  unfold join
  split
  · exact htable.text_append hwords
  · rename_i condition hsome
    have hbehind := (spaced_joinCondition (hcondition condition hsome)).text_append
      (s := " ") (by decide)
    rw [List.append_assoc]
    exact (htable.text_append hwords).append hbehind (Template.opens_text_append (by decide) _)

/-! ### Statements -/

theorem spaced_columns {parts : List (Part Template)} (h : ∀ part ∈ parts, part.result.Spaced) :
    (columns parts).Spaced := by
  unfold columns
  split
  · exact Template.spaced_text (by decide)
  · refine spaced_commaSeparated_map fun part hpart => ?_
    unfold column
    split
    · exact spaced_operand (h part hpart)
    · exact h part hpart

theorem spaced_furtherTables {parts : List (Part Template)}
    (h : ∀ part ∈ parts, part.result.Spaced) :
    Spaced (parts.flatMap furtherTable) ∧ Template.Opens (parts.flatMap furtherTable) := by
  induction parts with
  | nil => exact ⟨trivial, trivial⟩
  | cons part rest ih =>
    have hpart := h part List.mem_cons_self
    obtain ⟨hrest, hopens⟩ := ih fun other hother => h other (List.mem_cons_of_mem _ hother)
    rw [List.flatMap_cons, furtherTable]
    split
    · exact ⟨(hpart.text_append (by decide)).append hrest hopens,
        Template.Opens.append (Template.opens_text_append (by decide) _) hopens⟩
    · exact ⟨(hpart.text_append (by decide)).append hrest hopens,
        Template.Opens.append (Template.opens_text_append (by decide) _) hopens⟩

theorem spaced_tables {parts : List (Part Template)} (h : ∀ part ∈ parts, part.result.Spaced) :
    (tables parts).Spaced := by
  cases parts with
  | nil => trivial
  | cons first rest =>
    have hfurther : ∀ part ∈ rest, part.result.Spaced := by
      intro part hpart
      exact h part (List.mem_cons_of_mem first hpart)
    obtain ⟨hrest, hopens⟩ := spaced_furtherTables hfurther
    exact (h first List.mem_cons_self).append hrest hopens

/-- Each step of the chain puts a spaced condition behind ` AND `. -/
theorem spaced_foldl_and {condition : Condition} {parts : List (Part Template)}
    (hcondition : condition.template.Spaced) (h : ∀ part ∈ parts, part.result.Spaced) :
    (parts.foldl Condition.and condition).template.Spaced := by
  induction parts generalizing condition with
  | nil => exact hcondition
  | cons part rest ih =>
    have hpart := spaced_operand (h part List.mem_cons_self)
    apply ih
    · rw [Condition.and, List.append_assoc]
      exact (hcondition.operand _).append (hpart.text_append (by decide))
        (Template.opens_text_append (by decide) _)
    · intro other hother
      exact h other (List.mem_cons_of_mem _ hother)

theorem spaced_conjunction {parts : List (Part Template)}
    (h : ∀ part ∈ parts, part.result.Spaced) : (conjunction parts).Spaced := by
  cases parts with
  | nil => trivial
  | cons first rest =>
    apply spaced_foldl_and (h first List.mem_cons_self)
    intro part hpart
    exact h part (List.mem_cons_of_mem first hpart)

theorem Spaced.clause {t body : Template} (ht : t.Spaced) (present : Bool) (keyword : String)
    (hkeyword : '$' ∉ keyword.toList) (hbody : body.Spaced) :
    (t ++ clause present keyword body).Spaced := by
  unfold Postgres.clause
  split
  · exact ht.append (hbody.text_append hkeyword) trivial
  · exact ht.append trivial trivial

theorem spaced_clauses {s : Select (Part Template)} (h : ∀ part ∈ s.parts, part.result.Spaced) :
    (clauses s).Spaced := by
  simp only [Select.parts, List.mem_append, List.mem_map, or_imp, forall_and] at h
  obtain ⟨⟨⟨⟨hcolumns, htables⟩, hconditions⟩, hgroups⟩, horder⟩ := h
  have hitems : ∀ item ∈ s.order, item.key.result.Spaced := by
    intro item hitem
    exact horder item.key ⟨item, hitem, rfl⟩
  have hselect : '$' ∉ (if s.distinct then "SELECT DISTINCT " else "SELECT ").toList := by
    split <;> decide
  have hbegin := (spaced_columns hcolumns).text_append hselect
  have hfrom := Spaced.clause hbegin (!s.tables.isEmpty) "FROM " (by decide) (spaced_tables htables)
  have hwhere := Spaced.clause hfrom (!s.conditions.isEmpty) "WHERE " (by decide)
    (spaced_conjunction hconditions)
  have hgroup := Spaced.clause hwhere (!s.groupBy.isEmpty) "GROUP BY " (by decide)
    (spaced_commaSeparated_map hgroups)
  have hsort := Spaced.clause hgroup (!s.order.isEmpty) "ORDER BY " (by decide)
    (spaced_orderItems hitems)
  have hlimit := Spaced.clause hsort (s.limit != 0) "LIMIT " (by decide)
    (Template.spaced_text (dollar_notMem_toString_nat s.limit))
  exact Spaced.clause hlimit (s.offset != 0) "OFFSET " (by decide)
    (Template.spaced_text (dollar_notMem_toString_nat s.offset))

end Parts

/-! ## 3. Every tree is spaced -/

theorem spaced_rule (options : Options) (form : Form (Part Template))
    (hnames : ∀ name ∈ form.names, '$' ∉ name.toList)
    (hparts : ∀ part ∈ form.parts, part.result.Spaced) : (rule options form).Spaced := by
  cases form with
  | identifier name =>
    have hname := hnames name (by simp [Form.names])
    exact Template.spaced_text (dollar_notMem_identText options hname)
  | integer value => exact Template.spaced_text (dollar_notMem_toString_int _)
  | string s => exact ⟨trivial, trivial⟩
  | list items => exact ⟨trivial, trivial⟩
  | null => exact Template.spaced_text (by decide)
  | binding name => exact ⟨trivial, trivial⟩
  | column table name =>
    have htable := dollar_notMem_quoteIdent (hnames table (by simp [Form.names]))
    have hname := dollar_notMem_quoteIdent (hnames name (by simp [Form.names]))
    exact Template.spaced_text
      (dollar_notMem_append (dollar_notMem_append htable (by decide)) hname)
  | binary op left right =>
    have hleft := hparts left (by simp [Form.parts])
    have hright := hparts right (by simp [Form.parts])
    exact spaced_binary op hleft hright
  | membership element set =>
    have helement := spaced_operand (hparts element (by simp [Form.parts]))
    have hset := spaced_operand (hparts set (by simp [Form.parts]))
    change (element.operand ++ text " IN " ++ set.operand).Spaced
    rw [List.append_assoc]
    exact helement.append (hset.text_append (by decide)) (Template.opens_text_append (by decide) _)
  | cast inner type =>
    have htype : '$' ∉ (")::" ++ type).toList :=
      dollar_notMem_append (by decide) (hnames type (by simp [Form.names]))
    have hseparates : Text.Separates (")::" ++ type).toList := by
      rw [String.toList_append]
      exact Text.Separates.append (by decide) _
    exact (Spaced.text_append (by decide) (hparts inner (by simp [Form.parts]))).append_text htype
      hseparates
  | call name args =>
    have hname : '$' ∉ (name ++ "(").toList :=
      dollar_notMem_append (hnames name (by simp [Form.names])) (by decide)
    have hargs := spaced_commaSeparated_map fun arg harg => spaced_operand (hparts arg harg)
    exact (hargs.text_append hname).append_text (by decide) (by decide)
  | aggregate applied =>
    refine spaced_aggregate (hnames _ (by simp [Form.names])) ?_ ?_
    · exact fun arg harg => hparts arg (List.mem_append_left _ harg)
    · exact fun item hitem => hparts item.key
        (List.mem_append_right _ (List.mem_map.mpr ⟨item, hitem, rfl⟩))
  | aliased named =>
    have hname : '$' ∉ (" AS " ++ identText options named.name).toList :=
      dollar_notMem_append (by decide)
        (dollar_notMem_identText options (hnames named.name (by simp [Form.names])))
    have hseparates : Text.Separates (" AS " ++ identText options named.name).toList := by
      rw [String.toList_append]
      exact Text.Separates.append (by decide) _
    exact (spaced_operand (hparts named.source (by simp [Form.parts]))).append_text hname hseparates
  | join joined =>
    refine spaced_join (hparts joined.table (by simp [Form.parts, Join.parts])) ?_
    intro condition hcondition
    have hsome : joined.condition = some condition := hcondition
    exact hparts condition.condition (by simp [Form.parts, Join.parts, hsome])
  | joinCondition condition => exact spaced_joinCondition (hparts _ (by simp [Form.parts]))
  | order items =>
    apply spaced_orderClause
    intro item hitem
    exact hparts item.key (List.mem_map.mpr ⟨item, hitem, rfl⟩)
  | select statement =>
    apply spaced_clauses
    intro part hpart
    have hmem : part ∈ (Form.map Part.inline (.select statement)).parts := hpart
    rw [Form.parts_map, List.mem_map] at hmem
    obtain ⟨part, hmem, rfl⟩ := hmem
    exact (hparts part hmem).inline

/-- The layout of a tree without dollar signs in its names can be read back. -/
theorem spaced_template (options : Options) (node : Node)
    (hnames : ∀ name ∈ node.names, '$' ∉ name.toList) : (dialect.template options node).Spaced := by
  induction node using Node.induction with
  | layer form ih =>
    rw [Node.names_of] at hnames
    rw [template_of]
    apply spaced_rule
    · intro name hname
      rw [Form.names_map] at hname
      exact hnames name (List.mem_append_left _ hname)
    · intro part hpart
      rw [Form.parts_map, List.mem_map] at hpart
      obtain ⟨child, hchild, rfl⟩ := hpart
      apply ih child hchild
      intro name hname
      exact hnames name (List.mem_append_right _ (List.mem_flatMap.mpr ⟨child, hchild, hname⟩))

/-! ## 4. The numbers in the text -/

/-- **Placeholders are numbered densely, in the order of the text.** The first
    sightings are `1, 2, …` up to the number of values, so no placeholder points
    past the values and no value is without one. -/
theorem placeholders_render (options : Options) (node : Node) (args : Args) {r : Rendered}
    (hnames : ∀ name ∈ node.names, '$' ∉ name.toList) (h : render options node args = .ok r) :
    r.placeholders.eraseDups = List.range' 1 r.values.length ∧
      ∀ n, n ∈ r.placeholders ↔ 1 ≤ n ∧ n ≤ r.values.length := by
  obtain ⟨pieces, slots, hrun, rfl⟩ := Dialect.render_eq_ok h
  have hlegible := Template.legible_run (spaced_template options node hnames) hrun
  have hrange : slots.InRange := by
    have := (dialect.template options node).inRange_run (Context.new args options)
      Slots.inRange_empty
    rwa [hrun] at this
  have hdense : (Piece.numbers pieces).eraseDups = List.range' 1 slots.values.length :=
    Template.dense_run Slots.inRange_empty hrun
  have hnumbers : Rendered.placeholders
      ⟨Piece.join pieces, (Context.new args options).finish slots⟩ = Piece.numbers pieces :=
    Piece.filterMap_scan_join hlegible
  rw [hnumbers, Context.length_finish _ hrange]
  refine ⟨hdense, fun n => ?_⟩
  rw [← List.mem_eraseDups, hdense, List.mem_range'_1]
  omega

/-- A binding that occurs twice, with a list and a string in between. -/
theorem placeholders_render_shared :
    let node : Node := .of (.binary .and
      (.of (.binary .equal (.of (.identifier "x")) (.of (.binding "b"))))
      (.of (.call "f" [.of (.list [.null, .bool true]), .of (.string "s"), .of (.binding "b")])))
    let args := Args.ofList [("b", .int16 7)]
    let r : Rendered := ⟨"(x = ($1)) AND f(($2,$3), $4, ($1))",
      [.int16 7, .null, .bool true, .text "s"]⟩
    (∀ name ∈ node.names, '$' ∉ name.toList) ∧ render {} node args = .ok r ∧
      r.placeholders.eraseDups = [1, 2, 3, 4] ∧ ∀ n, n ∈ r.placeholders ↔ 1 ≤ n ∧ n ≤ 4 := by
  intro node args r
  have hnames : ∀ name ∈ node.names, '$' ∉ name.toList := by decide
  have hrender : render {} node args = .ok r := rfl
  exact ⟨hnames, hrender, placeholders_render {} node args hnames hrender⟩

end SqlKit.Postgres
