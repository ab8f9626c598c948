/-
  SqlKit/Proofs/Postgres/Offset.lean
  ==================================
  **A tree behind other operations.**

  A tree can be rendered in a context in which other operations have handed out
  slots. If none of its bindings is among them and lines do not break, it does
  there what it does on its own (`runStep_offset`): the same error, or the same
  text with every placeholder moved up by the slots there were, and the same
  values behind the earlier ones. This is what lets a fragment be put into any
  larger statement.
-/
import SqlKit.Proofs.Postgres.Layout
import SqlKit.Proofs.Postgres.Placeholder
import SqlKit.Proofs.Render.Ledger
import SqlKit.Proofs.Render.LineBreak
import SqlKit.Proofs.Render.Offset

namespace SqlKit

/-- The text and the values of a tree in a fresh context like `ctx`. -/
def Dialect.renderIn (d : Dialect) (ctx : Context) (node : Node) : Except Error Rendered :=
  match (d.template ctx.options node).run { ctx with depth := 0 } {} with
  | (.error e, _) => .error e
  | (.ok pieces, slots) => .ok ⟨Piece.join pieces, ctx.finish slots⟩

/-- In a context made for it a tree is rendered as usual. -/
theorem Dialect.renderIn_new (d : Dialect) (args : Args) (options : Options) (node : Node) :
    d.renderIn (.new args options) node = d.render options node args := rfl

/-- Spans that a session hands out stay within its slots. -/
theorem Session.inRange_run (d : Dialect) (ctx : Context) (steps : List Step) :
    (run d ctx steps {}).2.InRange := by
  obtain ⟨l, hsound, hslots⟩ := exists_sound d ctx steps
  rw [← hslots]
  exact hsound.backed.inRange

/-- What a step does behind `slots`, given what it does on its own: it fails with
    the same error, or it says the same text with every placeholder moved up by
    as many slots as there were, and its values stand behind theirs. -/
def Session.Moved (ctx : Context) (slots : Slots) : Except Error Rendered → Answer × Slots → Prop
  | .error e, (answer, _) => answer = .failure e
  | .ok r, (answer, after) =>
    answer = .text (Text.renumber (· + slots.values.length) r.sql) ∧
      Text.scan (Text.renumber (· + slots.values.length) r.sql).toList =
        (Text.scan r.sql.toList).map (Symbol.map (· + slots.values.length)) ∧
      after.values.length = slots.values.length + r.values.length ∧
      ctx.finish after = ctx.finish slots ++ r.values

/-- Written in a context without line breaks behind slots that none of its
    bindings has, a template says what it says on its own, moved. -/
theorem Session.write_append {ctx : Context} (hpretty : ctx.options.pretty = false) (depth : Nat)
    {t : Template} {base : Slots} (hfresh : ∀ name ∈ t.bindings, base.spanOf? name = none) :
    write { ctx with depth := depth } t base =
      match t.run { ctx with depth := 0 } {} with
      | (.error e, slots) => (.failure e, base.append slots)
      | (.ok pieces, slots) =>
        (.text (Piece.join (pieces.map (Piece.shift base.values.length))), base.append slots) := by
  have hdepth : t.run { ctx with depth := depth } base = t.run { ctx with depth := 0 } base := by
    apply Template.run_congr
    · intro name _
      rfl
    · rw [Options.clauseBreak_of_not_pretty hpretty, Options.clauseBreak_of_not_pretty hpretty]
  have hmoved : t.run { ctx with depth := 0 } (base.append {}) = _ :=
    Template.run_append_slots hfresh {}
  rw [Slots.append_empty] at hmoved
  rw [write, hdepth, hmoved]
  rcases t.run { ctx with depth := 0 } {} with ⟨e | pieces, slots⟩ <;> rfl

namespace Postgres

/-- **Rendering behind other slots.** Take a context without line breaks and the
    slots that operations of any dialect have left in it, none of which is for a
    binding of the tree. There a tree without dollar signs in its names, however deep inside
    statements, does what it does on its own, moved behind those slots. -/
theorem runStep_offset {ctx : Context} (hpretty : ctx.options.pretty = false) (d : Dialect)
    (steps : List Step) (depth : Nat) {node : Node} (hnames : ∀ name ∈ node.names, '$' ∉ name.toList)
    (hfresh : ∀ name ∈ node.bindings, (Session.run d ctx steps {}).2.spanOf? name = none) :
    let slots := (Session.run d ctx steps {}).2
    Session.Moved ctx slots (dialect.renderIn ctx node)
      (Session.runStep dialect { ctx with depth := depth } (.node (.ok node)) slots) := by
  intro slots
  have hrange : slots.InRange := Session.inRange_run d ctx steps
  have hfresh' : ∀ name ∈ (dialect.template ctx.options node).bindings,
      slots.spanOf? name = none := by
    intro name hname
    exact hfresh name ((bindings_template_sublist ctx.options node).subset hname)
  have hwrite : Session.runStep dialect { ctx with depth := depth } (.node (.ok node)) slots = _ :=
    Session.write_append hpretty depth hfresh'
  rw [Dialect.renderIn]
  rcases halone : (dialect.template ctx.options node).run { ctx with depth := 0 } {} with
    ⟨e | pieces, after⟩
  · rw [hwrite, halone, Session.Moved]
  · have hspaced := spaced_template ctx.options node hnames
    have hlegible : Piece.Legible pieces := Template.legible_run hspaced halone
    have hmoved : Piece.Legible (pieces.map (Piece.shift slots.values.length)) := by
      have hrun : (dialect.template ctx.options node).run { ctx with depth := 0 }
          (slots.append {}) = _ := Template.run_append_slots hfresh' {}
      rw [halone] at hrun
      exact Template.legible_run hspaced hrun
    have hinRange : after.InRange := by
      have := (dialect.template ctx.options node).inRange_run { ctx with depth := 0 }
        Slots.inRange_empty
      rwa [halone] at this
    rw [hwrite, halone, Session.Moved]
    refine ⟨?_, Piece.scan_renumber hlegible hmoved, ?_, ?_⟩
    · rw [Piece.renumber_join hlegible]
    · rw [Context.length_finish _ hinRange]
      exact List.length_append
    · exact ctx.finish_append hrange after

/-- Nine slots before a tree with a binding that occurs twice. One of the earlier
    steps failed; the numbers get a second digit. -/
theorem runStep_offset_shared :
    let args := Args.ofList [("b", .int16 7), ("c", .bool true)]
    let ctx := Context.new args {}
    let steps : List Step :=
      [.nested [.values (List.replicate 8 .null)], .values [.list []], .binding "c"]
    let node : Node := .of (.binary .and
      (.of (.binary .equal (.of (.identifier "x")) (.of (.binding "b"))))
      (.of (.call "f" [.of (.string "s"), .of (.binding "b")])))
    let slots := (Session.run dialect ctx steps {}).2
    let outcome := Session.runStep dialect ctx (.node (.ok node)) slots
    (∀ name ∈ node.names, '$' ∉ name.toList) ∧
      (∀ name ∈ node.bindings, slots.spanOf? name = none) ∧
      render {} node args = .ok ⟨"(x = ($1)) AND f($2, ($1))", [.int16 7, .text "s"]⟩ ∧
      outcome.1 = .text "(x = ($10)) AND f($11, ($10))" ∧ outcome.2.values.length = 9 + 2 ∧
      ctx.finish outcome.2 = ctx.finish slots ++ [.int16 7, .text "s"] := by
  intro args ctx steps node slots outcome
  have hnames : ∀ name ∈ node.names, '$' ∉ name.toList := by decide
  have hfresh : ∀ name ∈ node.bindings, slots.spanOf? name = none := by decide
  have hrender : render {} node args =
      .ok ⟨"(x = ($1)) AND f($2, ($1))", [.int16 7, .text "s"]⟩ := by rfl
  have hslots : slots.values.length = 9 := by rfl
  have htext : Text.renumber (· + 9) "(x = ($1)) AND f($2, ($1))" =
      "(x = ($10)) AND f($11, ($10))" := by decide +kernel
  have hpretty : ctx.options.pretty = false := rfl
  have hmoved : Session.Moved ctx slots (dialect.renderIn ctx node) outcome :=
    runStep_offset hpretty dialect steps 0 hnames hfresh
  rw [Dialect.renderIn_new, ← render, hrender, Session.Moved, hslots, htext] at hmoved
  obtain ⟨hanswer, -, hlength, hfinish⟩ := hmoved
  exact ⟨hnames, hfresh, hrender, hanswer, hlength, hfinish⟩

end Postgres

end SqlKit
