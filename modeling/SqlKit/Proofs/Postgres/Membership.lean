/-
  SqlKit/Proofs/Postgres/Membership.lean
  ======================================
  **Membership in a list.**

  What stands for a list comes to a membership test in six ways: a list of values, a
  scalar or null, which the builder makes a list, or a binding, which may have its
  slots already, be given them now, or be null. The parentheses are those of an
  operand, and not the test's own. All six are written in one form
  (`runStep_memberOf`): the placeholders of a span with a slot for each value, or the
  null value where there is none, so the parentheses are never empty.
-/
import SqlKit.Proofs.Postgres.Layout
import SqlKit.Proofs.Render.Delimiter
import SqlKit.Proofs.Render.Extension
import SqlKit.Proofs.Render.Listing

namespace SqlKit

variable {ctx : Context} {slots after : Slots}

theorem Session.runStep_node (d : Dialect) (ctx : Context) (node : Node) (slots : Slots) :
    runStep d ctx (.node (.ok node)) slots = write ctx (d.template ctx.options node) slots := rfl

theorem Session.write_of_run {t : Template} {pieces : List Piece}
    (h : t.run ctx slots = (.ok pieces, after)) :
    write ctx t slots = (.text (Piece.join pieces), after) := by
  rw [write, h]

/-- A text that was written is that of the pieces of a run. -/
theorem Session.exists_run_of_write {t : Template} {s : String}
    (h : write ctx t slots = (.text s, after)) :
    ∃ pieces, t.run ctx slots = (.ok pieces, after) ∧ s = Piece.join pieces := by
  rw [write] at h
  rcases hrun : t.run ctx slots with ⟨e | pieces, last⟩
  · simp [hrun] at h
  · simp only [hrun, Prod.mk.injEq, Answer.text.injEq] at h
    obtain ⟨rfl, rfl⟩ := h
    exact ⟨pieces, rfl, rfl⟩

namespace Template

variable {t u : Template} {middle : Slots} {pieces more : List Piece}

theorem run_singleton {fragment : Fragment} (h : fragment.emit ctx slots = .ok (pieces, after)) :
    run ctx [fragment] slots = (.ok pieces, after) := by
  simp only [run, h, List.append_nil]

theorem run_append_of_ok (h : t.run ctx slots = (.ok pieces, middle))
    (h' : u.run ctx middle = (.ok more, after)) :
    (t ++ u).run ctx slots = (.ok (pieces ++ more), after) := by
  simp only [run_append, h, h']

/-- What a template writes between fixed texts. -/
theorem run_between (before behind : String) (h : t.run ctx slots = (.ok pieces, after)) :
    (text before ++ t ++ text behind).run ctx slots =
      (.ok ([.verbatim before] ++ pieces ++ [.verbatim behind]), after) :=
  run_append_of_ok (run_append_of_ok (run_text ctx before slots) h) (run_text ctx behind after)

end Template

namespace Postgres

open Template (text)

/-- The right side of a membership test is one fragment in parentheses, which writes
    a span of the values that it stands for. -/
theorem exists_emit_of_lists {set : Node} {elements : List Value} (h : ctx.Lists set elements)
    (hbacked : slots.Backed ctx) (options : Options) :
    ∃ (fragment : Fragment) (span : Span) (after : Slots),
      dialect.operandTemplate options set.asList = text "(" ++ [fragment] ++ text ")" ∧
        fragment.emit ctx slots = .ok (span.pieces, after) ∧
        span.Holds elements (after.fill ctx.args) := by
  have hlist {items : List Value} (hflat : Value.hasNested items = false) :
      Fragment.emit ctx slots (.values items) =
          .ok (Span.pieces ⟨slots.values.length, items.length⟩, (slots.take items).2) ∧
        Span.Holds ⟨slots.values.length, items.length⟩ items
          ((slots.take items).2.fill ctx.args) := by
    constructor
    · rw [Fragment.emit, Slots.placeholders, hflat]
      rfl
    · rw [Slots.fill_take hbacked.inRange, ← Slots.length_fill hbacked.inRange ctx.args]
      exact .append _ _
  cases h with
  | integer n => exact ⟨.values [.int64 n], _, _, rfl, hlist rfl⟩
  | string s => exact ⟨.values [.text s], _, _, rfl, hlist rfl⟩
  | null => exact ⟨.values [], _, _, rfl, hlist rfl⟩
  | list hflat => exact ⟨.values _, _, _, rfl, hlist hflat⟩
  | @bound name _ hvalue hflat =>
    obtain ⟨span, after, hplaceholders, hholds⟩ :=
      Context.Lists.exists_placeholdersOf (.bound hvalue hflat) hbacked
    exact ⟨.binding name, span, after, rfl, hplaceholders, hholds⟩
  | @unbound name hvalue hpolicy =>
    obtain ⟨span, after, hplaceholders, hholds⟩ :=
      Context.Lists.exists_placeholdersOf (.unbound hvalue hpolicy) hbacked
    exact ⟨.binding name, span, after, rfl, hplaceholders, hholds⟩

/-- The text of a membership test, given what its two sides write. -/
theorem runStep_memberOf_eq {element set : Node} {fragment : Fragment} {first : List Piece}
    {middle : Slots} {span : Span}
    (hfirst : (dialect.operandTemplate ctx.options element).run ctx slots = (.ok first, middle))
    (hset : dialect.operandTemplate ctx.options set.asList = text "(" ++ [fragment] ++ text ")")
    (hemit : fragment.emit ctx middle = .ok (span.pieces, after)) :
    Session.runStep dialect ctx (.node (.ok (element.memberOf set))) slots =
      (.text (Piece.join first ++ " IN (" ++ span.text ++ ")"), after) := by
  have htemplate : dialect.template ctx.options (element.memberOf set) =
      dialect.operandTemplate ctx.options element ++ text " IN " ++
        (text "(" ++ [fragment] ++ text ")") := by
    rw [← hset]
    exact template_of ctx.options (.membership element set.asList)
  have hrun : (dialect.template ctx.options (element.memberOf set)).run ctx slots =
      (.ok (first ++ [.verbatim " IN "] ++ ([.verbatim "("] ++ span.pieces ++ [.verbatim ")"])),
        after) := by
    rw [htemplate]
    exact Template.run_append_of_ok (Template.run_append_of_ok hfirst (Template.run_text _ _ _))
      (Template.run_between "(" ")" (Template.run_singleton hemit))
  have hopening : " IN (" = " IN " ++ "(" := rfl
  refine (Session.write_of_run hrun).trans ?_
  simp only [Piece.join_append, Piece.join_verbatim, Span.join_pieces, hopening,
    String.append_assoc]

/-- **A membership test lists each value once, and never nothing.** At any point of
    any session, let an element be written there as an operand, and let the right side
    stand for a list. Then the test is the element and, in parentheses, the
    placeholders of a span with one slot for each value, or the null value if and only
    if there is no value. Whatever follows, in the end the slots hold the values in
    their order. -/
theorem runStep_memberOf (d : Dialect) (steps : List Step) {l : Ledger}
    (hl : l ∈ {} :: Session.ledgers d ctx steps {}) (depth : Nat) {element set : Node}
    {elements : List Value} (hset : ctx.Lists set elements) {s : String} {middle : Slots}
    (helement : Session.runStep dialect { ctx with depth := depth } (.operand (.ok element)) l.slots =
      (.text s, middle)) :
    ∃ (span : Span) (after : Slots),
      Session.runStep dialect { ctx with depth := depth } (.node (.ok (element.memberOf set))) l.slots =
          (.text (s ++ " IN (" ++ span.text ++ ")"), after) ∧
        span.count = elements.length ∧ (span.text = "NULL" ↔ elements = []) ∧
        ∀ rest, ctx.fills = true →
          span.numbers.map (Rendered.slotValue (ctx.finish (Session.run d ctx rest after).2)) =
            elements.map some := by
  have hbacked : l.slots.Backed { ctx with depth := depth } :=
    ((Session.sound_of_mem_ledgers hl).at_depth depth).backed
  obtain ⟨first, hfirst, rfl⟩ := Session.exists_run_of_write helement
  have hmiddle : middle.Backed { ctx with depth := depth } := by
    have hrun := (dialect.operandTemplate ctx.options element).run_preserves
      (fun hI hemits => Context.Emits.backed hI hemits) hbacked
    rwa [hfirst] at hrun
  obtain ⟨fragment, span, after, hoperand, hemit, hholds⟩ :=
    exists_emit_of_lists (hset.at_depth depth) hmiddle ctx.options
  have hrange : after.InRange := (Fragment.writes_of_emit hemit).emits.inRange hmiddle.inRange
  refine ⟨span, after, runStep_memberOf_eq hfirst hoperand hemit, hholds.count, ?_,
    fun rest hfills => ?_⟩
  · rw [span.text_eq_null_iff, hholds.count, List.length_eq_zero_iff]
  · have hfront := Session.fill_prefix_run d ctx rest hrange
    have hfinish : ctx.finish (Session.run d ctx rest after).2 =
        (Session.run d ctx rest after).2.fill ctx.args := if_pos hfills
    rw [hfinish]
    exact (hholds.of_prefix hfront).slotValue_numbers

/-- A binding that an earlier step was written with, of which one value is null; the
    element is given a slot behind those of the binding. -/
theorem runStep_memberOf_shared :
    let ctx := Context.new (Args.ofList [("b", .list [.null, .int16 7])]) {}
    let steps : List Step := [.value (.bool true), .values [.list []], .binding "b"]
    let l : Ledger := ⟨⟨[.bool true, .null, .null], [("b", ⟨1, 2⟩)]⟩,
      [.static (.bool true), .binding "b" 0, .binding "b" 1]⟩
    let element : Node := .of (.call "f" [.of (.string "s")])
    let set : Node := .of (.binding "b")
    let outcome := Session.runStep dialect ctx (.node (.ok (element.memberOf set))) l.slots
    l ∈ {} :: Session.ledgers dialect ctx steps {} ∧ ctx.Lists set [.null, .int16 7] ∧
      (Session.runStep dialect ctx (.operand (.ok element)) l.slots).1 = .text "f($4)" ∧
      outcome.1 = .text "f($4) IN ($2,$3)" ∧
      ∃ span : Span, outcome.1 = .text ("f($4)" ++ " IN (" ++ span.text ++ ")") ∧ span.count = 2 ∧
        ∀ rest,
          span.numbers.map (Rendered.slotValue
              (ctx.finish (Session.run dialect ctx rest outcome.2).2)) =
            [some .null, some (.int16 7)] := by
  intro ctx steps l element set outcome
  have hl : l ∈ {} :: Session.ledgers dialect ctx steps {} := List.mem_of_getElem? (i := 2) rfl
  let middle : Slots := ⟨[.bool true, .null, .null, .text "s"], [("b", ⟨1, 2⟩)]⟩
  have hvalue : ctx.args.get? "b" = some (.list [.null, .int16 7]) := rfl
  have hset : ctx.Lists set [.null, .int16 7] := .bound hvalue rfl
  have helement : Session.runStep dialect ctx (.operand (.ok element)) l.slots =
      (.text "f($4)", middle) := by
    have hrun : (dialect.operandTemplate {} element).run ctx l.slots =
        (.ok [.verbatim "f(", .slot 4, .verbatim ")"], middle) := rfl
    exact Session.write_of_run hrun
  have htext : Session.runStep dialect ctx (.node (.ok (element.memberOf set))) l.slots =
      (.text "f($4) IN ($2,$3)", middle) := by
    have hrun : (dialect.template {} (element.memberOf set)).run ctx l.slots =
        (.ok [.verbatim "f(", .slot 4, .verbatim ")", .verbatim " IN ", .verbatim "(", .slot 2,
          .verbatim ",", .slot 3, .verbatim ")"], middle) := rfl
    exact Session.write_of_run hrun
  obtain ⟨span, after, hmember, hcount, -, hvalues⟩ :=
    runStep_memberOf dialect steps hl 0 hset helement
  have houtcome : outcome = (.text ("f($4)" ++ " IN (" ++ span.text ++ ")"), after) := hmember
  refine ⟨hl, hset, congrArg Prod.fst helement, congrArg Prod.fst htext, span, ?_, hcount, fun rest => ?_⟩
  · rw [houtcome]
  · rw [houtcome]
    exact hvalues rest rfl

end Postgres

end SqlKit
