/-
  SqlKit/Proofs/Postgres/ColumnReference.lean
  ===========================================
  **Column references are read back.**

  A column reference is two quoted names with a dot between them, under every option
  and at every point of a run. A reader of quoted names finds the two names and the
  dot again, and stops where the reference ends (`readColumn_render`). The names may
  be empty, or consist of quotes and dots: whatever they are, they neither end their
  quotes nor run into each other, so different columns have different texts.
-/
import SqlKit.Proofs.Postgres.Membership
import SqlKit.Proofs.Text.Identifier

namespace SqlKit

open Text (quoteIdent readQuoted)

/-- The column reference that a text begins with, as the names of the relation and of
    the column, and what follows it. -/
def Text.readColumn (cs : List Char) : Option ((String × String) × List Char) :=
  match readQuoted cs with
  | some (relation, '.' :: rest) => (readQuoted rest).map fun read => ((relation, read.1), read.2)
  | _ => none

theorem Text.readColumn_quoteIdent (relation name : String) {rest : List Char}
    (hrest : ∀ c ∈ rest.head?, c ≠ '"') :
    readColumn ((quoteIdent relation ++ "." ++ quoteIdent name).toList ++ rest) =
      some ((relation, name), rest) := by
  have hsep : ".".toList = ['.'] := rfl
  have htext : (quoteIdent relation ++ "." ++ quoteIdent name).toList ++ rest =
      (quoteIdent relation).toList ++ '.' :: ((quoteIdent name).toList ++ rest) := by
    simp only [String.toList_append, List.append_assoc, hsep, List.cons_append, List.nil_append]
  have hdot : ∀ c ∈ ('.' :: ((quoteIdent name).toList ++ rest)).head?, c ≠ '"' := by
    rintro c (_ | _)
    decide
  rw [htext, readColumn, readQuoted_quoteIdent relation hdot]
  simp only [readQuoted_quoteIdent name hrest, Option.map_some]

/-- Two names with a dot between their quoted forms are known from the text. -/
theorem Text.eq_of_quoteIdent_dot_eq {relation name relation' name' : String}
    (h : quoteIdent relation' ++ "." ++ quoteIdent name' =
      quoteIdent relation ++ "." ++ quoteIdent name) : relation' = relation ∧ name' = name := by
  have hnil : ∀ c ∈ ([] : List Char).head?, c ≠ '"' := by simp
  have hread := readColumn_quoteIdent relation name hnil
  rw [← h, readColumn_quoteIdent relation' name' hnil, Option.some.injEq, Prod.mk.injEq,
    Prod.mk.injEq] at hread
  exact hread.1

namespace Postgres

/-- The text of a column reference, and all there is to its layout. -/
theorem template_column (options : Options) (relation name : String) :
    dialect.template options (.of (.column relation name)) =
      Template.text (quoteIdent relation ++ "." ++ quoteIdent name) :=
  template_of options (.column relation name)

theorem runStep_column (ctx : Context) (relation name : String) (slots : Slots) :
    Session.runStep dialect ctx (.node (.ok (.of (.column relation name)))) slots =
      (.text (quoteIdent relation ++ "." ++ quoteIdent name), slots) := by
  have hrun := Template.run_text ctx (quoteIdent relation ++ "." ++ quoteIdent name) slots
  rw [← template_column ctx.options] at hrun
  refine (Session.write_of_run hrun).trans ?_
  rw [Piece.join_verbatim]

theorem render_column (options : Options) (relation name : String) (args : Args) :
    render options (.of (.column relation name)) args =
      .ok ⟨quoteIdent relation ++ "." ++ quoteIdent name, []⟩ := by
  have hrun := Template.run_text (.new args options)
    (quoteIdent relation ++ "." ++ quoteIdent name) {}
  rw [← template_column options] at hrun
  have hvalues : (Context.new args options).finish {} = [] := rfl
  simp only [render, Dialect.render, hrun, Piece.join_verbatim, hvalues]

/-- **A column reference is read back.** Quoted forms differ if names do. A column
    reference has one text, whatever the options, the arguments and the point of the
    run; in front of anything that does not begin with a quote, a reader of quoted
    names finds the relation, a dot and the column, and leaves the rest. No other
    column has that text. -/
theorem readColumn_render :
    Function.Injective quoteIdent ∧ ∀ relation name : String, ∃ sql : String,
      (∀ options args, render options (.of (.column relation name)) args = .ok ⟨sql, []⟩) ∧
        (∀ ctx slots,
          Session.runStep dialect ctx (.node (.ok (.of (.column relation name)))) slots =
            (.text sql, slots)) ∧
        (∀ rest : List Char, rest.head? ≠ some '"' →
          Text.readColumn (sql.toList ++ rest) = some ((relation, name), rest)) ∧
        ∀ options args relation' name' (r : Rendered),
          render options (.of (.column relation' name')) args = .ok r → r.sql = sql →
            relation' = relation ∧ name' = name := by
  refine ⟨Text.quoteIdent_injective, fun relation name => ?_⟩
  refine ⟨quoteIdent relation ++ "." ++ quoteIdent name, fun options args => ?_,
    fun ctx slots => ?_, fun rest hrest => ?_, fun options args relation' name' r h hsql => ?_⟩
  · exact render_column options relation name args
  · exact runStep_column ctx relation name slots
  · apply Text.readColumn_quoteIdent
    rintro c hc rfl
    exact hrest hc
  · rw [render_column] at h
    obtain rfl := Except.ok.inj h
    exact Text.eq_of_quoteIdent_dot_eq hsql

/-- A relation whose name looks like the end of one name and the beginning of the
    next, and a column without a name. -/
theorem readColumn_render_misleading :
    let relation := "\".\""
    let rest := ['.', '"', 'x', '"']
    let sql := "\"\"\".\"\"\".\"\""
    rest.head? ≠ some '"' ∧ render {} (.of (.column relation "")) {} = .ok ⟨sql, []⟩ ∧
      Text.readColumn (sql.toList ++ rest) = some ((relation, ""), rest) := by
  intro relation rest sql
  have hrest : rest.head? ≠ some '"' := by decide
  obtain ⟨written, hrender, -, hread, -⟩ := readColumn_render.2 relation ""
  have hwritten : written = sql := by
    have hsql : (render {} (.of (.column relation "")) {}).toOption.map Rendered.sql =
        some sql := by
      decide +kernel
    rw [hrender {} {}] at hsql
    exact Option.some.inj hsql
  rw [← hwritten]
  exact ⟨hrest, hrender {} {}, hread rest hrest⟩

end Postgres

end SqlKit
