/-
  SqlKit/Proofs/Render/Outline.lean
  =================================
  **A run does not look at data.**

  The outline of a value, of a fragment or of the slots is what is left of it
  without its data: whether a value is null or a list, how many elements it has
  and whether one of them is a list itself.

  A run over an outline is the outline of the run (`Template.run_outline`), for
  any two sets of arguments with the same outlines. Two renders whose templates
  and arguments have the same outlines therefore agree in their text or their
  error, and in the number of their values (`Dialect.render_eq_of_outline`).
-/
import SqlKit.Proofs.Render.Emission

namespace SqlKit

/-! ## 1. Outlines of values -/

namespace Value

/-- The outline of an element: whether it is a list. -/
def cell : Value → Value
  | .list _ => .list []
  | _ => .null

/-- The outline of an argument: whether it is null or a list, and the elements
    of a list in outline. -/
def outline : Value → Value
  | .null => .null
  | .list items => .list (items.map cell)
  | _ => .bool true

theorem isList_cell (v : Value) : v.cell.isList = v.isList := by
  cases v <;> rfl

theorem cell_cell (v : Value) : v.cell.cell = v.cell := by
  cases v <;> rfl

@[simp]
theorem hasNested_map_cell (items : List Value) :
    hasNested (items.map cell) = hasNested items := by
  simp only [hasNested, List.any_map, Function.comp_def, isList_cell]

theorem elements_outline (v : Value) : v.outline.elements.map cell = v.elements.map cell := by
  cases v with
  | list items =>
    simp only [outline, elements, List.map_map]
    exact congrArg (List.map · items) (funext cell_cell)
  | _ => rfl

variable {v w : Value}

theorem hasNested_elements_of_outline (h : v.outline = w.outline) :
    hasNested v.elements = hasNested w.elements := by
  rw [← hasNested_map_cell, ← elements_outline, h, elements_outline, hasNested_map_cell]

theorem length_elements_of_outline (h : v.outline = w.outline) :
    v.elements.length = w.elements.length := by
  have hlength := congrArg List.length (elements_outline v)
  rw [h, elements_outline, List.length_map, List.length_map] at hlength
  exact hlength.symm

end Value

/-! ## 2. Outlines of templates, slots and contexts -/

/-- A fragment without the data in it. -/
def Fragment.outline : Fragment → Fragment
  | .value _ => .value .null
  | .values items => .values (items.map Value.cell)
  | fragment => fragment

/-- A template without the data in it. -/
def Template.outline (t : Template) : Template :=
  t.map Fragment.outline

theorem Template.outline_append (t u : Template) : (t ++ u).outline = t.outline ++ u.outline :=
  List.map_append

/-- Slots with nothing in them. -/
def Slots.outline (slots : Slots) : Slots :=
  { slots with values := List.replicate slots.values.length .null }

/-- Two contexts that differ in the data of their arguments only. -/
structure Context.Alike (ctx ctx' : Context) : Prop where
  options : ctx.options = ctx'.options
  depth : ctx.depth = ctx'.depth
  args : ∀ name, (ctx.args.get? name).map Value.outline = (ctx'.args.get? name).map Value.outline

theorem Context.Alike.refl (ctx : Context) : ctx.Alike ctx :=
  ⟨rfl, rfl, fun _ => rfl⟩

namespace Slots

variable {slots slots' : Slots}

theorem outline_eq_iff : slots.outline = slots'.outline ↔
    slots.values.length = slots'.values.length ∧ slots.reserved = slots'.reserved := by
  constructor
  · intro h
    have hvalues := congrArg (fun s => s.values.length) h
    have hreserved := congrArg (fun s => s.reserved) h
    simp only [outline, List.length_replicate] at hvalues hreserved
    exact ⟨hvalues, hreserved⟩
  · rintro ⟨hlength, hreserved⟩
    rw [outline, outline, hlength, hreserved]

theorem take_alike (h : slots.outline = slots'.outline) {items items' : List Value}
    (hitems : items.length = items'.length) :
    (slots.take items).1 = (slots'.take items').1 ∧
      (slots.take items).2.outline = (slots'.take items').2.outline := by
  obtain ⟨hlength, hreserved⟩ := outline_eq_iff.mp h
  constructor
  · rw [take, take, hlength, hitems]
  · rw [outline_eq_iff]
    simp [hlength, hitems, hreserved]

theorem reserve_alike (h : slots.outline = slots'.outline) (name : String) (count : Nat) :
    (slots.reserve name count).1 = (slots'.reserve name count).1 ∧
      (slots.reserve name count).2.outline = (slots'.reserve name count).2.outline := by
  obtain ⟨hlength, hreserved⟩ := outline_eq_iff.mp h
  constructor
  · simp [reserve, take, hlength]
  · rw [outline_eq_iff]
    simp [hlength, hreserved]

end Slots

/-! ## 3. Running an outline -/

variable {ctx ctx' : Context} {slots slots' : Slots}

theorem Context.lookup_outline (ctx : Context) (name : String) :
    (ctx.lookup name).map (Option.map Value.outline) =
      match (ctx.args.get? name).map Value.outline with
      | some .null => .ok none
      | some found => .ok (some found)
      | none =>
        match ctx.options.unbound with
        | .null => .ok none
        | .reject => .error (.unboundBinding name) := by
  rw [Context.lookup]
  rcases ctx.args.get? name with _ | value
  · cases ctx.options.unbound <;> rfl
  · cases value <;> rfl

/-- Alike contexts find the same: an error, nothing, or values with one outline. -/
theorem Context.Alike.lookup_cases (h : ctx.Alike ctx') (name : String) :
    (∃ e, ctx.lookup name = .error e ∧ ctx'.lookup name = .error e) ∨
      (ctx.lookup name = .ok none ∧ ctx'.lookup name = .ok none) ∨
      ∃ v w, ctx.lookup name = .ok (some v) ∧ ctx'.lookup name = .ok (some w) ∧
        v.outline = w.outline := by
  have hfound : (ctx.lookup name).map (Option.map Value.outline) =
      (ctx'.lookup name).map (Option.map Value.outline) := by
    rw [Context.lookup_outline, Context.lookup_outline, h.args, h.options]
  generalize ctx.lookup name = found at hfound ⊢
  generalize ctx'.lookup name = found' at hfound ⊢
  rcases found with e | _ | v <;> rcases found' with e' | _ | w
  case error.error =>
    obtain rfl := Except.error.inj hfound
    exact .inl ⟨e, rfl, rfl⟩
  case ok.none.ok.none => exact .inr (.inl ⟨rfl, rfl⟩)
  case ok.some.ok.some =>
    exact .inr (.inr ⟨v, w, rfl, rfl, Option.some.inj (Except.ok.inj hfound)⟩)
  all_goals cases hfound

/-- Two results of a fragment that differ in what the slots hold only. -/
inductive Emitted.Alike : (result result' : Except Error (List Piece × Slots)) → Prop where
  | error (e : Error) : Alike (.error e) (.error e)
  | ok (pieces : List Piece) {slots slots' : Slots} (h : slots.outline = slots'.outline) :
    Alike (.ok (pieces, slots)) (.ok (pieces, slots'))

theorem Context.Alike.placeholdersOf (h : ctx.Alike ctx') (hslots : slots.outline = slots'.outline)
    (name : String) :
    Emitted.Alike (ctx.placeholdersOf name slots) (ctx'.placeholdersOf name slots') := by
  have hreserved := (Slots.outline_eq_iff.mp hslots).2
  rw [Context.placeholdersOf, Context.placeholdersOf, Slots.spanOf?, Slots.spanOf?, hreserved]
  split
  · exact .ok _ hslots
  · rcases h.lookup_cases name with ⟨e, hv, hw⟩ | ⟨hv, hw⟩ | ⟨v, w, hv, hw, houtline⟩
    · rw [hv, hw]
      exact .error e
    · rw [hv, hw]
      exact .ok _ hslots
    · rw [hv, hw]
      simp only [Value.hasNested_elements_of_outline houtline,
        Value.length_elements_of_outline houtline]
      split
      · exact .error _
      · obtain ⟨hspan, hafter⟩ := Slots.reserve_alike hslots name w.elements.length
        rw [hspan]
        exact .ok _ hafter

theorem Fragment.emit_outline (h : ctx.Alike ctx') (hslots : slots.outline = slots'.outline)
    (fragment : Fragment) :
    Emitted.Alike (fragment.emit ctx slots) (fragment.outline.emit ctx' slots') := by
  cases fragment with
  | verbatim s => exact .ok _ hslots
  | clauseBreak =>
    simp only [outline, emit, h.options, h.depth]
    exact .ok _ hslots
  | value v =>
    have hlength : [v].length = [Value.null].length := rfl
    obtain ⟨hspan, hafter⟩ := Slots.take_alike hslots hlength
    simp only [outline, emit, hspan]
    exact .ok _ hafter
  | values items =>
    have hlength : items.length = (items.map Value.cell).length := (List.length_map _).symm
    obtain ⟨hspan, hafter⟩ := Slots.take_alike hslots hlength
    simp only [outline, emit, Slots.placeholders, Value.hasNested_map_cell, hspan]
    split
    · exact .error _
    · exact .ok _ hafter
  | binding name => exact h.placeholdersOf hslots name
  | comparand name ifNull before behind =>
    simp only [outline, emit]
    rcases h.lookup_cases name with ⟨e, hv, hw⟩ | ⟨hv, hw⟩ | ⟨v, w, hv, hw, -⟩
    · rw [hv, hw]
      exact .error e
    · rw [hv, hw]
      exact .ok _ hslots
    · rw [hv, hw]
      have hinner := h.placeholdersOf hslots name
      generalize ctx.placeholdersOf name slots = result at hinner ⊢
      generalize ctx'.placeholdersOf name slots' = result' at hinner ⊢
      cases hinner with
      | error e => exact .error e
      | ok pieces hafter => exact .ok _ hafter
  | fail e => exact .error e

/-- **A run over an outline is the run in outline**: the same pieces or the same
    error, and as many slots for the same bindings. -/
theorem Template.run_outline (h : ctx.Alike ctx') (t : Template)
    (hslots : slots.outline = slots'.outline) :
    (t.run ctx slots).1 = (t.outline.run ctx' slots').1 ∧
      (t.run ctx slots).2.outline = (t.outline.run ctx' slots').2.outline := by
  induction t generalizing slots slots' with
  | nil => exact ⟨rfl, hslots⟩
  | cons fragment rest ih =>
    have hcons : outline (fragment :: rest) = fragment.outline :: outline rest := rfl
    have hemit := Fragment.emit_outline h hslots fragment
    rw [hcons, run, run]
    generalize fragment.emit ctx slots = result at hemit ⊢
    generalize fragment.outline.emit ctx' slots' = result' at hemit ⊢
    cases hemit with
    | error e => exact ⟨rfl, hslots⟩
    | @ok pieces middle middle' hmiddle =>
      obtain ⟨hpieces, hafter⟩ := ih hmiddle
      dsimp only
      generalize run ctx rest middle = after at hpieces hafter ⊢
      generalize run ctx' (outline rest) middle' = after' at hpieces hafter ⊢
      obtain ⟨e | more, after⟩ := after <;> obtain ⟨e' | more', after'⟩ := after' <;>
        cases hpieces
      · exact ⟨rfl, hafter⟩
      · exact ⟨rfl, hafter⟩

theorem Template.run_eq_of_outline {t t' : Template} (h : ctx.Alike ctx')
    (htemplate : t.outline = t'.outline) (slots : Slots) :
    (t.run ctx slots).1 = (t'.run ctx' slots).1 ∧
      (t.run ctx slots).2.outline = (t'.run ctx' slots).2.outline := by
  have hsame : slots.outline = slots.outline := rfl
  obtain ⟨hpieces, hslots⟩ := run_outline h t hsame
  obtain ⟨hpieces', hslots'⟩ := run_outline (Context.Alike.refl ctx') t' hsame
  rw [htemplate] at hpieces hslots
  exact ⟨hpieces.trans hpieces'.symm, hslots.trans hslots'.symm⟩

/-! ## 4. Rendering an outline -/

namespace Dialect

variable (d : Dialect) {options : Options} {node node' : Node} {args args' : Args}

/-- **Renders with one outline agree** in their text or error, and in the number
    of their values. -/
theorem render_eq_of_outline
    (hnode : (d.template options node).outline = (d.template options node').outline)
    (hargs : ∀ name, (args.get? name).map Value.outline = (args'.get? name).map Value.outline) :
    (d.render options node args).map (fun r => (r.sql, r.values.length)) =
      (d.render options node' args').map (fun r => (r.sql, r.values.length)) := by
  have halike : (Context.new args options).Alike (Context.new args' options) := ⟨rfl, rfl, hargs⟩
  obtain ⟨hpieces, hslots⟩ := Template.run_eq_of_outline halike hnode {}
  have hrange := (d.template options node).inRange_run (Context.new args options)
    Slots.inRange_empty
  have hrange' := (d.template options node').inRange_run (Context.new args' options)
    Slots.inRange_empty
  rw [render, render]
  generalize (d.template options node).run (Context.new args options) {} = result at *
  generalize (d.template options node').run (Context.new args' options) {} = result' at *
  obtain ⟨e | pieces, slots⟩ := result <;> obtain ⟨e' | pieces', slots'⟩ := result' <;>
    cases hpieces
  · rfl
  · have hlength := (Slots.outline_eq_iff.mp hslots).1
    simp only [Except.map, Context.length_finish _ hrange, Context.length_finish _ hrange', hlength]

theorem renderText_eq_of_outline
    (hnode : (d.template options node).outline = (d.template options node').outline) :
    d.renderText options node = d.renderText options node' := by
  have hpieces := (Template.run_eq_of_outline (Context.Alike.refl (Context.textOnly {} options))
    hnode {}).1
  rw [renderText, renderText]
  generalize (d.template options node).run (Context.textOnly {} options) {} = result at *
  generalize (d.template options node').run (Context.textOnly {} options) {} = result' at *
  obtain ⟨e | pieces, slots⟩ := result <;> obtain ⟨e' | pieces', slots'⟩ := result' <;>
    cases hpieces <;> rfl

end Dialect

end SqlKit
