/-
  SqlKit/Proofs/Postgres/LineBreak.lean
  =====================================
  **Pretty printing changes the layout only.**

  Whether lines break is no matter of the rules: a layout is the same for either
  setting (`template_pretty`), and only the run asks what stands before a clause.
  So a pretty text and a plain one agree in everything but the newlines.

  How many there are is read off the tree. A newline is either in a name or before
  a clause. What a statement holds is on one line, however deep it goes, so the
  clauses are those of the outermost statement (`length_breaks_select`).
-/
import SqlKit.Proofs.Postgres.Characters
import SqlKit.Proofs.Postgres.Layout

namespace SqlKit

/-! ## 1. Clauses -/

/-- How many clauses a statement has behind its columns. A limit or an offset of
    zero is none. -/
def Select.clauseCount {ν : Type} (s : Select ν) : Nat :=
  (!s.tables.isEmpty).toNat + (!s.conditions.isEmpty).toNat + (!s.groupBy.isEmpty).toNat +
    (!s.order.isEmpty).toNat + (s.limit != 0).toNat + (s.offset != 0).toNat

theorem Select.clauseCount_map {ν μ : Type} (f : ν → μ) (s : Select ν) :
    (s.map f).clauseCount = s.clauseCount := by
  simp only [clauseCount, map, List.isEmpty_map]

theorem Template.length_breaks_append (t u : Template) :
    (t ++ u).breaks.length = t.breaks.length + u.breaks.length := by
  rw [breaks, List.flatMap_append, List.length_append]
  rfl

/-- Nothing on one line has a line break. -/
theorem Template.breaks_inline (t : Template) : t.inline.breaks = [] := by
  rw [breaks, inline, List.flatMap_map, List.flatMap_eq_nil_iff]
  intro fragment _
  cases fragment <;> rfl

namespace Postgres

open Template (text)

theorem length_breaks_clause (present : Bool) (keyword : String) {body : Template}
    (h : body.breaks = []) : (clause present keyword body).breaks.length = present.toNat := by
  cases present with
  | false => rfl
  | true =>
    change ([.clauseBreak] ++ text keyword ++ body : Template).breaks.length = 1
    rw [Template.length_breaks_append, h]
    rfl

/-- Statements whose parts are on one line break before each clause. -/
theorem length_breaks_clauses {s : Select (Part Template)}
    (h : ∀ part ∈ s.parts, part.result.breaks = []) :
    (clauses s).breaks.length = s.clauseCount := by
  have hnone {parts : List (Part Template)} (h : ∀ part ∈ parts, part.result.breaks = []) :
      (parts.flatMap fun part => part.result.flatMap Fragment.breaks) = [] :=
    List.flatMap_eq_nil_iff.mpr h
  simp only [Select.parts, List.mem_append, or_imp, forall_and] at h
  obtain ⟨⟨⟨⟨hcolumns, htables⟩, hconditions⟩, hgroups⟩, horder⟩ := h
  have hbegin : (columns s.columns).breaks = [] :=
    (flatMap_columns (fun _ => rfl) _).trans (hnone hcolumns)
  have hfrom : (tables s.tables).breaks = [] :=
    (flatMap_tables (fun _ => rfl) _).trans (hnone htables)
  have hwhere : (conjunction s.conditions).breaks = [] :=
    (flatMap_conjunction (fun _ => rfl) _).trans (hnone hconditions)
  have hgroup : (commaSeparated (s.groupBy.map Part.result)).breaks = [] := by
    rw [Template.breaks, commaSeparated, flatMap_separated fun _ => rfl, List.flatMap_map]
    exact hnone hgroups
  have hsort : (orderItems s.order).breaks = [] :=
    (flatMap_orderItems (fun _ => rfl) _).trans (hnone horder)
  have hlimit : (text (toString s.limit)).breaks = [] := rfl
  have hoffset : (text (toString s.offset)).breaks = [] := rfl
  simp only [clauses, Template.length_breaks_append, hbegin, length_breaks_clause _ _ hfrom,
    length_breaks_clause _ _ hwhere, length_breaks_clause _ _ hgroup,
    length_breaks_clause _ _ hsort, length_breaks_clause _ _ hlimit,
    length_breaks_clause _ _ hoffset]
  have hselect : (text (if s.distinct then "SELECT DISTINCT " else "SELECT ")).breaks = [] := rfl
  rw [hselect, List.length_nil, Nat.zero_add, Select.clauseCount]

/-- **A statement breaks before its own clauses only**, whatever the layouts of
    its parts are. -/
theorem length_breaks_select (s : Select (Part Template)) :
    (select s).breaks.length = s.clauseCount := by
  rw [select, length_breaks_clauses, Select.clauseCount_map]
  intro part hpart
  have hmem : part ∈ (Form.map Part.inline (.select s)).parts := hpart
  rw [Form.parts_map, List.mem_map] at hmem
  obtain ⟨part, -, rfl⟩ := hmem
  exact part.result.breaks_inline

end Postgres

/-! ## 2. Pretty and plain texts -/

/-- A rendered statement on one line. -/
def Rendered.oneLine (r : Rendered) : Rendered :=
  ⟨Text.oneLine r.sql, r.values⟩

theorem Dialect.map_oneLine_render (d : Dialect) (options : Options) (node : Node) (args : Args) :
    (d.render options node args).map Rendered.oneLine =
      match (d.template options node).runMapped Piece.oneLine (Context.new args options) {} with
      | (.error e, _) => .error e
      | (.ok pieces, slots) => .ok ⟨Piece.join pieces, slots.fill args⟩ := by
  rw [render, Template.runMapped]
  rcases Template.run _ (d.template options node) {} with ⟨e | pieces, slots⟩
  · rfl
  · change Except.ok (Rendered.oneLine ⟨Piece.join pieces, _⟩) = _
    rw [Rendered.oneLine, Piece.oneLine_join]
    rfl

namespace Postgres

/-- The rules do not ask whether lines break. -/
theorem template_pretty (options : Options) (pretty : Bool) (node : Node) :
    dialect.template { options with pretty := pretty } node = dialect.template options node :=
  template_congr rfl node

/-- **Pretty printing changes the layout only.** Rendering fails alike, or there
    are the same values and, on one line, the same text. The pretty text of a
    statement has a newline for each clause of the outermost statement, and for
    nothing within it. -/
theorem render_pretty (options : Options) (node : Node) (args : Args) :
    (render { options with pretty := true } node args).map Rendered.oneLine =
        (render { options with pretty := false } node args).map Rendered.oneLine ∧
      ∀ s, node = .of (.select s) → (∀ name ∈ node.names, '\n' ∉ name.toList) →
        ∀ r, render { options with pretty := true } node args = .ok r →
          r.sql.toList.count '\n' = s.clauseCount := by
  constructor
  · have hsame : (dialect.template options node).runMapped Piece.oneLine
          (.new args { options with pretty := true }) {} =
        (dialect.template options node).runMapped Piece.oneLine
          (.new args { options with pretty := false }) {} := by
      apply Template.runMapped_oneLine
      intro name
      rfl
    rw [render, render, Dialect.map_oneLine_render, Dialect.map_oneLine_render,
      template_pretty options true, template_pretty options false, hsame]
  · rintro s rfl hnames r h
    obtain ⟨pieces, slots, hrun, rfl⟩ := Dialect.render_eq_ok h
    have hover : (dialect.template { options with pretty := true } (.of (.select s))).Over
        (· ≠ '\n') := by
      apply over_template
      · intro c hc
        rintro rfl
        exact absurd hc (by decide)
      · intro name hname c hc
        rintro rfl
        exact hnames name hname hc
    have hchars : '\n' ∉ (dialect.template { options with pretty := true } (.of (.select s))).chars :=
      fun h => hover '\n' h rfl
    rw [Piece.toList_join, Template.count_newline_run hchars rfl hrun, template_of]
    exact (length_breaks_select _).trans (Select.clauseCount_map _ s)

/-- Subqueries in a column and in a membership, each with a clause of its own:
    three newlines for the three clauses of the outermost statement. -/
theorem render_pretty_nested :
    let inner : Node := .of (.select { tables := [.of (.identifier "u")] })
    let s : Select Node :=
      { columns := [inner]
        tables := [.of (.identifier "t")]
        conditions := [.of (.membership (.of (.binding "b")) inner)]
        limit := 10 }
    let node : Node := .of (.select s)
    let args := Args.ofList [("b", .int16 7)]
    (∀ name ∈ node.names, '\n' ∉ name.toList) ∧
      ∃ r, render { pretty := true } node args = .ok r ∧ r.sql.toList.count '\n' = 3 ∧
        r.sql = "SELECT (SELECT * FROM u)\nFROM t\nWHERE ($1) IN (SELECT * FROM u)\nLIMIT 10" := by
  intro inner s node args
  have hnames : ∀ name ∈ node.names, '\n' ∉ name.toList := by decide
  have hsql : (render { pretty := true } node args).toOption.map Rendered.sql =
      some "SELECT (SELECT * FROM u)\nFROM t\nWHERE ($1) IN (SELECT * FROM u)\nLIMIT 10" := by
    decide +kernel
  have hclauses : s.clauseCount = 3 := rfl
  refine ⟨hnames, ?_⟩
  rcases hrender : render { pretty := true } node args with e | r
  · rw [hrender] at hsql
    cases hsql
  · have hcount := (render_pretty {} node args).2 s rfl hnames r hrender
    rw [hclauses] at hcount
    rw [hrender] at hsql
    exact ⟨r, rfl, hcount, Option.some.inj hsql⟩

end Postgres

end SqlKit
