/-
  SqlKit/Proofs/Postgres/TextOnly.lean
  ====================================
  **The text alone is the text of a rendering.**

  There are three ways for a binding to be null: nothing is given for it and the
  text alone is asked for, nothing is given and options make it null, or null is
  given. A run finds out by one question to its context (`Context.lookup`), which
  is answered alike in all three, so the texts are the same
  (`renderText_eq_map_render`).

  With arguments, a context for the text alone is a context under the null policy
  that does not fill in the slots in the end. Runs never ask whether it does
  (`Session.run_fills`), so they say the same and hand out the same slots; what
  is left are the slots of the bindings, and nothing but these is ever filled in
  (`Slots.getElem?_fill_of_notMem`).
-/
import SqlKit.Proofs.Postgres.Layout
import SqlKit.Proofs.Render.Ledger
import SqlKit.Proofs.Render.LineBreak

namespace SqlKit

/-! ## 1. Runs do not ask whether the slots are filled in -/

theorem Template.run_fills (ctx : Context) (fills : Bool) (t : Template) (slots : Slots) :
    t.run { ctx with fills := fills } slots = t.run ctx slots := by
  apply run_congr
  · intro name _
    rfl
  · rfl

namespace Session

variable (d : Dialect) (fills : Bool)

theorem write_fills (ctx : Context) (t : Template) (slots : Slots) :
    write { ctx with fills := fills } t slots = write ctx t slots := by
  rw [write, write, Template.run_fills]

mutual

theorem runStep_fills (ctx : Context) : ∀ (step : Step) (slots : Slots),
    runStep d { ctx with fills := fills } step slots = runStep d ctx step slots
  | .value v, slots => write_fills fills ctx [.value v] slots
  | .values items, slots => write_fills fills ctx [.values items] slots
  | .binding name, slots => write_fills fills ctx [.binding name] slots
  | .node (.ok tree), slots => write_fills fills ctx (d.template ctx.options tree) slots
  | .operand (.ok tree), slots => write_fills fills ctx (d.operandTemplate ctx.options tree) slots
  | .node (.error _), _ => rfl
  | .operand (.error _), _ => rfl
  | .lookup _, _ => rfl
  | .denotesNull _, _ => rfl
  | .clauseBreak, _ => rfl
  | .nested steps, slots => by
    have hsteps : run d { ctx.nested with fills := fills } steps slots =
        run d ctx.nested steps slots := run_fills ctx.nested steps slots
    rw [runStep, runStep, ← hsteps]
    rfl

/-- Contexts that differ in whether the slots are filled in at the end give the
    same answers and hand out the same slots. -/
theorem run_fills (ctx : Context) : ∀ (steps : List Step) (slots : Slots),
    run d { ctx with fills := fills } steps slots = run d ctx steps slots
  | [], _ => rfl
  | step :: rest, slots => by
    have hstep := runStep_fills ctx step slots
    have hrest := run_fills ctx rest (runStep d ctx step slots).2
    rw [run, run, hstep]
    dsimp only
    rw [hrest]

end

end Session

/-! ## 2. Only the slots of bindings are filled in -/

namespace Slots

variable {args : Args} {values : List Value} {i : Nat}

theorem getElem?_overwrite {items : List Value} {start : Nat}
    (hstop : start + items.length ≤ values.length) (h : i < start ∨ start + items.length ≤ i) :
    (overwrite values start items)[i]? = values[i]? := by
  have hlength : (values.take start).length = start := by
    rw [List.length_take]
    omega
  rw [overwrite, List.append_assoc]
  rcases h with hbefore | hbehind
  · rw [List.getElem?_append_left (by omega), List.getElem?_take_of_lt hbefore]
  · rw [List.getElem?_append_right (by omega), List.getElem?_append_right (by omega),
      List.getElem?_drop]
    congr 1
    omega

theorem getElem?_fillSpan_of_notMem {entry : String × Span}
    (hrange : entry.2.start + entry.2.count ≤ values.length) (hi : i + 1 ∉ entry.2.numbers) :
    (fillSpan args values entry)[i]? = values[i]? := by
  rw [fillSpan]
  split
  · rename_i value _
    have hcount : (value.elements.take entry.2.count).length ≤ entry.2.count :=
      List.length_take_le _ _
    rw [Span.numbers, List.mem_range'_1] at hi
    exact getElem?_overwrite (by omega) (by omega)
  · rfl

theorem getElem?_foldl_fillSpan_of_notMem {entries : List (String × Span)}
    (hrange : ∀ entry ∈ entries, entry.2.start + entry.2.count ≤ values.length)
    (hi : ∀ entry ∈ entries, i + 1 ∉ entry.2.numbers) :
    (entries.foldl (fillSpan args) values)[i]? = values[i]? := by
  induction entries generalizing values with
  | nil => rfl
  | cons entry entries ih =>
    rw [List.forall_mem_cons] at hrange hi
    rw [List.foldl_cons, ih ?_ hi.2, getElem?_fillSpan_of_notMem hrange.1 hi.1]
    intro other hother
    rw [length_fillSpan hrange.1]
    exact hrange.2 other hother

/-- A slot that no binding has keeps its value. -/
theorem getElem?_fill_of_notMem {slots : Slots} (h : slots.InRange) (args : Args)
    (hi : ∀ entry ∈ slots.reserved, i + 1 ∉ entry.2.numbers) :
    (slots.fill args)[i]? = slots.values[i]? :=
  getElem?_foldl_fillSpan_of_notMem h hi

end Slots

/-- Before the arguments are filled in, the slots of the bindings are null. -/
theorem Ledger.Sound.getElem?_values_of_mem {ctx : Context} {l : Ledger} (h : l.Sound ctx)
    {entry : String × Span} (hentry : entry ∈ l.slots.reserved) {i : Nat}
    (hi : i + 1 ∈ entry.2.numbers) : l.slots.values[i]? = some .null := by
  obtain ⟨position, hposition⟩ := h.holder_of_mem_numbers hentry hi
  rw [h.initial, List.getElem?_map, hposition]
  rfl

/-- The values of two contexts that fill in the slots or do not: there are as many,
    those that are not filled in are null where a binding has the slot, and the
    others are the same. -/
structure Slots.DifferInBindings (slots : Slots) (unfilled filled : List Value) : Prop where
  length : unfilled.length = filled.length
  null : ∀ entry ∈ slots.reserved, ∀ i, i + 1 ∈ entry.2.numbers → unfilled[i]? = some .null
  same : ∀ i, (∀ entry ∈ slots.reserved, i + 1 ∉ entry.2.numbers) → unfilled[i]? = filled[i]?

/-- **Filling in the slots of a session** changes those of its bindings only. -/
theorem Session.differInBindings_finish (d : Dialect) (ctx : Context) (steps : List Step) :
    let slots := (run d ctx steps {}).2
    slots.DifferInBindings (Context.finish { ctx with fills := false } slots)
      (Context.finish { ctx with fills := true } slots) := by
  obtain ⟨l, hsound, hslots⟩ := exists_sound d ctx steps
  have hrange := hsound.backed.inRange
  rw [← hslots]
  constructor
  · exact (Slots.length_fill hrange ctx.args).symm
  · intro entry hentry i hi
    exact hsound.getElem?_values_of_mem hentry hi
  · intro i hi
    exact (Slots.getElem?_fill_of_notMem hrange ctx.args hi).symm

/-! ## 3. Bindings that are null -/

namespace Postgres

/-- The text alone is the text of any rendering with the same layout in which each
    binding of the tree is null. -/
theorem renderText_eq_of_lookup {options options' : Options}
    (hquote : options.quote = options'.quote) (hpretty : options.pretty = options'.pretty)
    {node : Node} {args : Args}
    (h : ∀ name ∈ node.bindings, (Context.new args options').lookup name = .ok none) :
    renderText options node = (render options' node args).map Rendered.sql := by
  have hrun : (dialect.template options node).run (.textOnly {} options) {} =
      (dialect.template options' node).run (.new args options') {} := by
    rw [template_congr hquote]
    apply Template.run_congr
    · intro name hname
      rw [h name ((bindings_template_sublist options' node).subset hname)]
      rfl
    · change options.clauseBreak 1 = options'.clauseBreak 1
      rw [Options.clauseBreak, Options.clauseBreak, hpretty]
  rw [renderText, render, Dialect.renderText, Dialect.render, hrun]
  rcases (dialect.template options' node).run (.new args options') {} with ⟨e | pieces, slots⟩ <;>
    rfl

/-- **The text alone is the text of a rendering** without arguments under the null
    policy, and of a rendering under any policy with null for each binding of the
    tree. With any arguments, a session, be it a single tree, says in a context for
    the text alone what it says under the null policy and hands out the same slots;
    in the end these hold the same values, except that those of the bindings are
    null. -/
theorem renderText_eq_map_render :
    (∀ options node, renderText options node =
      (render { options with unbound := .null } node {}).map Rendered.sql) ∧
    (∀ options policy node args, (∀ name ∈ node.bindings, args.get? name = some .null) →
      renderText options node =
        (render { options with unbound := policy } node args).map Rendered.sql) ∧
    ∀ options args steps,
      let text := Context.textOnly args options
      let full := Context.new args { options with unbound := .null }
      let slots := (Session.run dialect full steps {}).2
      Session.run dialect text steps {} = Session.run dialect full steps {} ∧
        slots.DifferInBindings (text.finish slots) (full.finish slots) := by
  refine ⟨fun options node => ?_, fun options policy node args h => ?_,
    fun options args steps => ?_⟩
  · refine renderText_eq_of_lookup ?_ ?_ fun name _ => ?_ <;> rfl
  · refine renderText_eq_of_lookup ?_ ?_ fun name hname => ?_
    · rfl
    · rfl
    · rw [Context.lookup, show (Context.new args _).args.get? name = some .null from h name hname]
  · exact ⟨Session.run_fills dialect false (.new args _) steps {},
      Session.differInBindings_finish dialect (.new args _) steps⟩

/-- Two bindings given as null, one of them compared and then listed. -/
theorem renderText_null_arguments :
    let node : Node := .of (.binary .and
      (.of (.binary .notEqual (.of (.identifier "x")) (.of (.binding "b"))))
      (.of (.call "f" [.of (.string "s"), .of (.binding "b"), .of (.binding "c")])))
    let args := Args.ofList [("c", .null), ("b", .null)]
    (∀ name ∈ node.bindings, args.get? name = some .null) ∧
      (renderText {} node).toOption = some "(x IS NOT NULL) AND f($1, (NULL), (NULL))" ∧
      ((render { unbound := .reject } node args).map Rendered.sql).toOption =
        some "(x IS NOT NULL) AND f($1, (NULL), (NULL))" := by
  intro node args
  have hbindings : node.bindings = ["b", "b", "c"] := rfl
  have hnull : ∀ name ∈ node.bindings, args.get? name = some .null := by
    rw [hbindings]
    simp only [List.forall_mem_cons, List.not_mem_nil, false_implies, implies_true, and_true]
    exact ⟨rfl, rfl, rfl⟩
  have htext : (renderText {} node).toOption =
      some "(x IS NOT NULL) AND f($1, (NULL), (NULL))" := by decide +kernel
  have hrender := renderText_eq_map_render.2.1 {} .reject node args hnull
  exact ⟨hnull, htext, hrender ▸ htext⟩

end Postgres

end SqlKit
