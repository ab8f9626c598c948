/-
  SqlKit/Proofs/Postgres/Extension.lean
  =====================================
  **A tree and its bindings.**

  Rendering a tree in a context touches and sees nothing of the context but the
  bindings of the tree.

    * It extends the slots: what was there stays, and only bindings of the tree are
      given spans, also if it fails deep inside several statements. Whatever only
      looks at the context afterwards, at a line break for one, finds what it would
      have found without the tree (`runStep_extends`).
    * Of two sets of arguments that agree on the bindings of the tree it makes the
      same. The arguments are asked twice, while the text is written and when the
      slots are filled in; the second time for bindings that have spans, and these
      are bindings of the tree (`render_congr_args`).
-/
import Mathlib.Data.List.Basic
import SqlKit.Proofs.Postgres.Layout
import SqlKit.Proofs.Render.Extension
import SqlKit.Proofs.Render.LineBreak

namespace SqlKit

/-! ## 1. What a tree does to a context -/

namespace Postgres

/-- The bindings that a tree gives spans to are its own. -/
theorem extends_template (ctx : Context) (options : Options) (node : Node) (slots : Slots) :
    slots.Extends node.bindings ((dialect.template options node).run ctx slots).2 :=
  ((dialect.template options node).extends_run ctx slots).mono
    (bindings_template_sublist options node).subset

/-- **A tree only extends its context.** From any slots, at any depth, and whether it
    can be rendered or not, a tree leaves the values and the spans that were there,
    gives spans to its own bindings only, and what a session looks at afterwards is
    what it would have seen without the tree. A list or a binding that cannot be
    written leaves the slots as they were. -/
theorem runStep_extends (ctx : Context) (slots : Slots) :
    (∀ node : Node,
      let outcome := Session.runStep dialect ctx (.node (.ok node)) slots
      slots.Extends node.bindings outcome.2 ∧
        ∀ rest, Step.allLook rest = true →
          Session.run dialect ctx (.node (.ok node) :: rest) slots =
            (outcome.1 :: (Session.run dialect ctx rest slots).1, outcome.2)) ∧
      (∀ items e after, Session.runStep dialect ctx (.values items) slots = (.failure e, after) →
        after = slots) ∧
      ∀ name e after, Session.runStep dialect ctx (.binding name) slots = (.failure e, after) →
        after = slots := by
  refine ⟨fun node => ⟨?_, fun rest hrest => ?_⟩, fun items e after h => ?_,
    fun name e after h => ?_⟩
  · have hslots : (Session.runStep dialect ctx (.node (.ok node)) slots).2 =
        ((dialect.template ctx.options node).run ctx slots).2 := Session.slots_write ctx _ slots
    rw [hslots]
    exact extends_template ctx ctx.options node slots
  · have hlook := Session.answers_of_allLook dialect ctx rest hrest
    rw [Session.run]
    dsimp only
    rw [hlook slots, hlook (Session.runStep dialect ctx (.node (.ok node)) slots).2]
  · exact Session.write_singleton_of_failure h
  · exact Session.write_singleton_of_failure h

/-- A statement that fails in a subquery, after a binding was given its slots there.
    The line breaks behind it are still those of the outermost statement. -/
theorem runStep_extends_failure :
    let ctx := Context.new (Args.ofList [("b", .list [.int16 7, .int16 8])]) { pretty := true }
    let slots : Slots := ⟨[.bool true], [("a", ⟨0, 1⟩)]⟩
    let subquery : Node := .of (.select { columns := [.of (.binding "b"), .of (.binding "c")] })
    let node : Node := .of (.select
      { columns := [.of (.string "s")], tables := [.of (.aliased ⟨subquery, "t"⟩)] })
    let after : Slots :=
      ⟨[.bool true, .text "s", .null, .null], [("a", ⟨0, 1⟩), ("b", ⟨2, 2⟩)]⟩
    Session.runStep dialect ctx (.node (.ok node)) slots = (.failure (.unboundBinding "c"), after) ∧
      slots.Extends ["b", "c"] after ∧
      Session.run dialect ctx [.node (.ok node), .clauseBreak, .nested [.nested [.clauseBreak]]] slots =
        ([.failure (.unboundBinding "c"), .text "\n", .nested [.nested [.text " "]]], after) ∧
      (Session.runStep dialect ctx (.values [.null, .list []]) slots).2 = slots ∧
      (Session.runStep dialect ctx (.binding "c") slots).2 = slots := by
  intro ctx slots subquery node after
  have htemplate : dialect.template { pretty := true } node =
      [.verbatim "SELECT ", .value (.text "s"), .clauseBreak, .verbatim "FROM ", .verbatim "(",
        .verbatim "SELECT ", .binding "b", .verbatim ", ", .binding "c", .verbatim ")",
        .verbatim " AS t"] := rfl
  have houtcome : Session.runStep dialect ctx (.node (.ok node)) slots =
      (.failure (.unboundBinding "c"), after) := by
    change Session.write ctx (dialect.template { pretty := true } node) slots = _
    rw [htemplate]
    rfl
  have hbindings : node.bindings = ["b", "c"] := rfl
  have hlooks : (Session.run dialect ctx [.clauseBreak, .nested [.nested [.clauseBreak]]] slots).1 =
      [.text "\n", .nested [.nested [.text " "]]] := rfl
  obtain ⟨htree, hvalues, hbinding⟩ := runStep_extends ctx slots
  obtain ⟨hextends, hrest⟩ := htree node
  have hbreaks := hrest [.clauseBreak, .nested [.nested [.clauseBreak]]] rfl
  rw [houtcome, hbindings] at hextends
  rw [houtcome, hlooks] at hbreaks
  refine ⟨houtcome, hextends, hbreaks, ?_, ?_⟩
  · exact hvalues [.null, .list []] (.unsupportedLiteral .nestedList) _ rfl
  · exact hbinding "c" (.unboundBinding "c") _ rfl

end Postgres

/-! ## 2. What a tree sees of the arguments -/

variable {args args' : Args}

theorem Context.lookup_congr_args {name : String} (h : args.get? name = args'.get? name)
    (options : Options) :
    (Context.new args options).lookup name = (Context.new args' options).lookup name := by
  rw [lookup, lookup]
  dsimp only [new]
  rw [h]

/-- Only the arguments of bindings that have spans are filled in. -/
theorem Slots.fill_congr_args {slots : Slots}
    (h : ∀ entry ∈ slots.reserved, args.get? entry.1 = args'.get? entry.1) :
    slots.fill args = slots.fill args' := by
  rw [fill, fill]
  apply List.foldl_ext
  intro values entry hentry
  rw [fillSpan, fillSpan, h entry hentry]

namespace Postgres

/-- **Only the bindings of a tree matter.** Arguments that agree on them, in
    whatever order and with whatever others, give the same text and values, or the
    same error. -/
theorem render_congr_args {options : Options} {node : Node}
    (h : ∀ name ∈ node.bindings, args.get? name = args'.get? name) :
    render options node args = render options node args' := by
  have hrun : (dialect.template options node).run (.new args options) {} =
      (dialect.template options node).run (.new args' options) {} := by
    apply Template.run_congr
    · intro name hname
      have hoccurs := (bindings_template_sublist options node).subset hname
      exact Context.lookup_congr_args (h name hoccurs) _
    · rfl
  have hextends := extends_template (.new args' options) options node {}
  rw [render, render, Dialect.render, Dialect.render, hrun]
  generalize (dialect.template options node).run (.new args' options) {} = outcome at hextends
  rcases outcome with ⟨e | pieces, slots⟩
  · rfl
  · have hreserved : ∀ entry ∈ slots.reserved, args.get? entry.1 = args'.get? entry.1 := by
      intro entry hentry
      rcases hextends.mem_of_mem_reserved hentry with hold | hnew
      · exact absurd rfl hold
      · exact h entry.1 hnew
    have hfinish : (Context.new args options).finish slots =
        (Context.new args' options).finish slots :=
      Slots.fill_congr_args hreserved
    dsimp only
    rw [hfinish]

/-- A tree with a binding in a subquery and one without an argument, under arguments
    in two orders and with different others. -/
theorem render_congr_args_reordered :
    let node : Node := .of (.select
      { columns := [.of (.binding "b")],
        conditions := [.of (.membership (.of (.identifier "x")) (.of (.select
          { columns := [.of (.binding "a")],
            conditions := [.of (.binary .equal (.of (.identifier "y")) (.of (.binding "c")))] })))] })
    let options : Options := { unbound := .null }
    let args := Args.ofList [("a", .list [.int16 1, .text "s"]), ("b", .bool true)]
    let args' := Args.ofList
      [("d", .list [.list []]), ("b", .bool true), ("e", .null), ("a", .list [.int16 1, .text "s"])]
    (∀ name ∈ node.bindings, args.get? name = args'.get? name) ∧
      render options node args = .ok ⟨"SELECT $1 WHERE x IN (SELECT $2,$3 WHERE y IS NULL)",
        [.bool true, .int16 1, .text "s"]⟩ ∧
      render options node args' = .ok ⟨"SELECT $1 WHERE x IN (SELECT $2,$3 WHERE y IS NULL)",
        [.bool true, .int16 1, .text "s"]⟩ := by
  intro node options args args'
  have hbindings : node.bindings = ["b", "a", "c"] := rfl
  have hagree : ∀ name ∈ node.bindings, args.get? name = args'.get? name := by
    rw [hbindings]
    simp only [List.forall_mem_cons, List.not_mem_nil, false_implies, implies_true, and_true]
    exact ⟨rfl, rfl, rfl⟩
  have htemplate : dialect.template { unbound := .null } node =
      [.verbatim "SELECT ", .binding "b", .clauseBreak, .verbatim "WHERE ", .verbatim "x",
        .verbatim " IN ", .verbatim "(", .verbatim "SELECT ", .binding "a", .verbatim " ",
        .verbatim "WHERE ", .verbatim "y", .comparand "c" " IS NULL" " = (" ")",
        .verbatim ")"] := rfl
  have hrender : render options node args =
      .ok ⟨"SELECT $1 WHERE x IN (SELECT $2,$3 WHERE y IS NULL)",
        [.bool true, .int16 1, .text "s"]⟩ := by
    have hrun : (dialect.template { unbound := .null } node).run (.new args options) {} =
        (.ok [.verbatim "SELECT ", .slot 1, .verbatim " ", .verbatim "WHERE ", .verbatim "x",
          .verbatim " IN ", .verbatim "(", .verbatim "SELECT ", .slot 2, .verbatim ",", .slot 3,
          .verbatim " ", .verbatim "WHERE ", .verbatim "y", .verbatim " IS NULL", .verbatim ")"],
          ⟨[.null, .null, .null], [("b", ⟨0, 1⟩), ("a", ⟨1, 2⟩)]⟩) := by
      rw [htemplate]
      rfl
    change dialect.render { unbound := .null } node args = _
    rw [Dialect.render, hrun]
    rfl
  have hsame : render options node args = render options node args' := render_congr_args hagree
  exact ⟨hagree, hrender, hsame ▸ hrender⟩

end Postgres

end SqlKit
