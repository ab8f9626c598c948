/-
  SqlKit/Proofs/Render/Emission.lean
  ==================================
  **What one fragment can do to the slots.**

  A fragment that is written either leaves the slots alone, or hands out new
  ones behind the slots there are: one for each value it carries, or a span for
  a binding that has none yet. `Context.Emits` lists these cases once, with
  everything that is known in each; `Fragment.Writes` says which fragment leads
  to which case, and is the inversion of `Fragment.emit` (`writes_of_emit`).
  Whatever every emission preserves, every run preserves, also one that fails
  half way (`run_preserves`).

  The second half is about the values at the end. Seen through `Slots.fill`,
  handing out slots only ever appends: values given at once stand as they are,
  and slots reserved for a binding hold its argument from the start
  (`fill_take`, `fill_reserve`).
-/
import SqlKit.Render.Dialect

namespace SqlKit

/-! ## 1. The cases of an emission -/

@[simp]
theorem Slots.span_reserve (slots : Slots) (name : String) (count : Nat) :
    (slots.reserve name count).1 = ⟨slots.values.length, count⟩ := by
  simp [reserve, take]

/-- What a fragment may write in a context, and what becomes of the slots. -/
inductive Context.Emits (ctx : Context) (slots : Slots) : List Piece → Slots → Prop where
  | text (s : String) : Emits ctx slots [.verbatim s] slots
  /-- A binding that already has its slots. -/
  | shared {name : String} {span : Span} (hspan : slots.spanOf? name = some span) :
    Emits ctx slots span.pieces slots
  | taken (items : List Value) :
    Emits ctx slots (Span.pieces ⟨slots.values.length, items.length⟩) (slots.take items).2
  /-- A binding that is given its slots. -/
  | reserved {name : String} {value : Value} (hspan : slots.spanOf? name = none)
    (hlookup : ctx.lookup name = .ok (some value))
    (hflat : Value.hasNested value.elements = false) :
    Emits ctx slots (Span.pieces ⟨slots.values.length, value.elements.length⟩)
      (slots.reserve name value.elements.length).2
  /-- Pieces between fixed texts. -/
  | framed {pieces : List Piece} {after : Slots} (before behind : String)
    (h : Emits ctx slots pieces after) :
    Emits ctx slots (.verbatim before :: pieces ++ [.verbatim behind]) after

namespace Context

variable {ctx : Context} {slots after : Slots} {pieces : List Piece} {name : String}

/-- A binding shares its slots, is null, or is given slots. -/
theorem placeholdersOf_cases (h : ctx.placeholdersOf name slots = .ok (pieces, after)) :
    (∃ span, slots.spanOf? name = some span ∧ pieces = span.pieces ∧ after = slots) ∨
      (slots.spanOf? name = none ∧ ctx.lookup name = .ok none ∧
        pieces = [.verbatim "NULL"] ∧ after = slots) ∨
      ∃ value, slots.spanOf? name = none ∧ ctx.lookup name = .ok (some value) ∧
        Value.hasNested value.elements = false ∧
        pieces = Span.pieces ⟨slots.values.length, value.elements.length⟩ ∧
        after = (slots.reserve name value.elements.length).2 := by
  rw [placeholdersOf] at h
  rcases hspan : slots.spanOf? name with _ | span
  · rcases hlookup : ctx.lookup name with e | _ | value
    · simp [hspan, hlookup] at h
    · simp only [hspan, hlookup, Except.ok.injEq, Prod.mk.injEq] at h
      exact .inr (.inl ⟨rfl, rfl, h.1.symm, h.2.symm⟩)
    · rcases hflat : Value.hasNested value.elements with _ | _
      · simp only [hspan, hlookup, hflat, Bool.false_eq_true, if_false, Slots.span_reserve,
          Except.ok.injEq, Prod.mk.injEq] at h
        exact .inr (.inr ⟨value, rfl, rfl, hflat, h.1.symm, h.2.symm⟩)
      · simp [hspan, hlookup, hflat] at h
  · simp only [hspan, Except.ok.injEq, Prod.mk.injEq] at h
    exact .inl ⟨span, rfl, h.1.symm, h.2.symm⟩

theorem emits_of_placeholdersOf (h : ctx.placeholdersOf name slots = .ok (pieces, after)) :
    ctx.Emits slots pieces after := by
  rcases placeholdersOf_cases h with ⟨span, hspan, rfl, rfl⟩ | ⟨-, -, rfl, rfl⟩ |
    ⟨value, hspan, hlookup, hflat, rfl, rfl⟩
  · exact .shared hspan
  · exact .text "NULL"
  · exact .reserved hspan hlookup hflat

end Context

namespace Fragment

variable {ctx : Context} {slots after : Slots} {pieces : List Piece}

/-- What each fragment writes, where it can be written. -/
inductive Writes (ctx : Context) (slots : Slots) : Fragment → List Piece → Slots → Prop where
  | verbatim (s : String) : Writes ctx slots (.verbatim s) [.verbatim s] slots
  | clauseBreak : Writes ctx slots .clauseBreak
      [.verbatim (ctx.options.clauseBreak (ctx.depth + 1))] slots
  | value (v : Value) : Writes ctx slots (.value v) (Span.pieces ⟨slots.values.length, 1⟩)
      (slots.take [v]).2
  | values {items : List Value} (hflat : Value.hasNested items = false) :
    Writes ctx slots (.values items) (Span.pieces ⟨slots.values.length, items.length⟩)
      (slots.take items).2
  | binding {name : String} {pieces : List Piece} {after : Slots}
    (h : ctx.placeholdersOf name slots = .ok (pieces, after)) :
    Writes ctx slots (.binding name) pieces after
  | ifNull {name : String} (ifNull before behind : String) (hlookup : ctx.lookup name = .ok none) :
    Writes ctx slots (.comparand name ifNull before behind) [.verbatim ifNull] slots
  | comparand {name : String} {value : Value} {pieces : List Piece} {after : Slots}
    (ifNull before behind : String) (hlookup : ctx.lookup name = .ok (some value))
    (h : ctx.placeholdersOf name slots = .ok (pieces, after)) :
    Writes ctx slots (.comparand name ifNull before behind)
      (.verbatim before :: pieces ++ [.verbatim behind]) after

theorem writes_of_emit {fragment : Fragment} (h : fragment.emit ctx slots = .ok (pieces, after)) :
    fragment.Writes ctx slots pieces after := by
  cases fragment with
  | verbatim s =>
    obtain ⟨rfl, rfl⟩ := Prod.mk.inj (Except.ok.inj h)
    exact .verbatim s
  | clauseBreak =>
    obtain ⟨rfl, rfl⟩ := Prod.mk.inj (Except.ok.inj h)
    exact .clauseBreak
  | value v =>
    obtain ⟨rfl, rfl⟩ := Prod.mk.inj (Except.ok.inj h)
    exact .value v
  | values items =>
    rw [emit, Slots.placeholders] at h
    rcases hflat : Value.hasNested items with _ | _
    · rw [hflat] at h
      obtain ⟨rfl, rfl⟩ := Prod.mk.inj (Except.ok.inj h)
      exact .values hflat
    · rw [hflat] at h
      cases h
  | binding name => exact .binding h
  | comparand name ifNull before behind =>
    rw [emit] at h
    rcases hlookup : ctx.lookup name with e | _ | value <;> rw [hlookup] at h
    · cases h
    · obtain ⟨rfl, rfl⟩ := Prod.mk.inj (Except.ok.inj h)
      exact .ifNull ifNull before behind hlookup
    · rcases hinner : ctx.placeholdersOf name slots with e | ⟨inner, within⟩ <;> rw [hinner] at h
      · cases h
      · obtain ⟨rfl, rfl⟩ := Prod.mk.inj (Except.ok.inj h)
        exact .comparand ifNull before behind hlookup hinner
  | fail e => cases h

theorem Writes.emits {fragment : Fragment} (h : fragment.Writes ctx slots pieces after) :
    ctx.Emits slots pieces after := by
  cases h with
  | verbatim s => exact .text s
  | clauseBreak => exact .text _
  | value v => exact .taken [v]
  | @values items hflat => exact .taken items
  | binding h => exact Context.emits_of_placeholdersOf h
  | ifNull ifNull before behind hlookup => exact .text ifNull
  | comparand ifNull before behind hlookup h =>
    exact .framed before behind (Context.emits_of_placeholdersOf h)

end Fragment

theorem Template.run_cons_eq_ok {ctx : Context} {fragment : Fragment} {rest : Template}
    {slots after : Slots} {pieces : List Piece}
    (h : run ctx (fragment :: rest) slots = (.ok pieces, after)) :
    ∃ first middle more, fragment.emit ctx slots = .ok (first, middle) ∧
      run ctx rest middle = (.ok more, after) ∧ pieces = first ++ more := by
  simp only [run] at h
  rcases hemit : fragment.emit ctx slots with e | ⟨first, middle⟩
  · simp [hemit] at h
  · rcases hrun : run ctx rest middle with ⟨e | more, last⟩
    · simp [hemit, hrun] at h
    · simp only [hemit, hrun, Prod.mk.injEq, Except.ok.injEq] at h
      obtain ⟨rfl, rfl⟩ := h
      exact ⟨first, middle, more, rfl, hrun, rfl⟩

theorem Template.run_nil_eq_ok {ctx : Context} {slots after : Slots} {pieces : List Piece}
    (h : run ctx [] slots = (.ok pieces, after)) : pieces = [] ∧ after = slots := by
  simp only [run, Prod.mk.injEq, Except.ok.injEq] at h
  exact ⟨h.1.symm, h.2.symm⟩

theorem Template.run_append_eq_ok {ctx : Context} {t u : Template} {slots after : Slots}
    {pieces : List Piece} (h : (t ++ u).run ctx slots = (.ok pieces, after)) :
    ∃ first middle last, t.run ctx slots = (.ok first, middle) ∧
      u.run ctx middle = (.ok last, after) ∧ pieces = first ++ last := by
  rw [run_append] at h
  rcases hfirst : t.run ctx slots with ⟨e | first, middle⟩
  · simp [hfirst] at h
  · rcases hlast : u.run ctx middle with ⟨e | last, final⟩
    · simp [hfirst, hlast] at h
    · simp only [hfirst, hlast, Prod.mk.injEq, Except.ok.injEq] at h
      obtain ⟨rfl, rfl⟩ := h
      exact ⟨first, middle, last, rfl, hlast, rfl⟩

/-- What every emission preserves holds after a run, whether it fails or not. -/
theorem Template.run_preserves {ctx : Context} {I : Slots → Prop}
    (step : ∀ {slots pieces after}, I slots → ctx.Emits slots pieces after → I after)
    (t : Template) {slots : Slots} (h : I slots) : I (t.run ctx slots).2 := by
  induction t generalizing slots with
  | nil => exact h
  | cons fragment rest ih =>
    simp only [run]
    rcases hemit : fragment.emit ctx slots with e | ⟨pieces, after⟩
    · exact h
    · have hrest := ih (step h (Fragment.writes_of_emit hemit).emits)
      rcases hrun : run ctx rest after with ⟨e | more, last⟩ <;> simpa only [hrun] using hrest

/-! ## 2. Reserved spans -/

namespace Slots

/-- Every reserved span lies within the slots there are. -/
def InRange (slots : Slots) : Prop :=
  ∀ entry ∈ slots.reserved, entry.2.start + entry.2.count ≤ slots.values.length

theorem inRange_empty : InRange {} := by
  simp [InRange]

theorem mem_reserved_of_spanOf? {slots : Slots} {name : String} {span : Span}
    (h : slots.spanOf? name = some span) : (name, span) ∈ slots.reserved := by
  rw [spanOf?, Option.map_eq_some_iff] at h
  obtain ⟨⟨key, _⟩, hfind, rfl⟩ := h
  have hkey : key = name := by simpa using List.find?_some hfind
  exact hkey ▸ List.mem_of_find?_eq_some hfind

theorem InRange.take {slots : Slots} (h : slots.InRange) (items : List Value) :
    (slots.take items).2.InRange := by
  intro entry hentry
  have := h entry hentry
  rw [values_take, List.length_append]
  omega

theorem InRange.reserve {slots : Slots} (h : slots.InRange) (name : String) (count : Nat) :
    (slots.reserve name count).2.InRange := by
  intro entry hentry
  rw [reserved_reserve, List.mem_append, List.mem_singleton] at hentry
  rw [values_reserve, List.length_append, List.length_replicate]
  rcases hentry with hentry | rfl
  · have := h entry hentry
    omega
  · exact Nat.le_refl _

end Slots

theorem Context.Emits.inRange {ctx : Context} {slots after : Slots} {pieces : List Piece}
    (h : slots.InRange) (hemits : ctx.Emits slots pieces after) : after.InRange := by
  induction hemits with
  | text s => exact h
  | shared hspan => exact h
  | taken items => exact h.take items
  | reserved hspan hlookup hflat => exact h.reserve _ _
  | framed before behind _ ih => exact ih

theorem Template.inRange_run (ctx : Context) (t : Template) {slots : Slots} (h : slots.InRange) :
    (t.run ctx slots).2.InRange :=
  run_preserves Context.Emits.inRange t h

/-! ## 3. Filling -/

namespace Slots

variable {args : Args}

theorem length_fillSpan {values : List Value} {entry : String × Span}
    (h : entry.2.start + entry.2.count ≤ values.length) :
    (fillSpan args values entry).length = values.length := by
  unfold fillSpan
  split
  · simp only [overwrite, List.length_append, List.length_take, List.length_drop]
    omega
  · rfl

/-- Slots further back are of no account to a span. -/
theorem fillSpan_append {values : List Value} {entry : String × Span}
    (h : entry.2.start + entry.2.count ≤ values.length) (more : List Value) :
    fillSpan args (values ++ more) entry = fillSpan args values entry ++ more := by
  rw [fillSpan, fillSpan]
  split
  · rename_i value _
    have hstart : entry.2.start ≤ values.length := by omega
    have hstop : entry.2.start + (value.elements.take entry.2.count).length ≤ values.length := by
      rw [List.length_take]; omega
    simp only [overwrite, List.take_append_of_le_length hstart,
      List.drop_append_of_le_length hstop, List.append_assoc]
  · rfl

theorem foldl_fillSpan_append {entries : List (String × Span)} {values : List Value}
    (h : ∀ entry ∈ entries, entry.2.start + entry.2.count ≤ values.length) (more : List Value) :
    entries.foldl (fillSpan args) (values ++ more) =
      entries.foldl (fillSpan args) values ++ more := by
  induction entries generalizing values with
  | nil => rfl
  | cons entry entries ih =>
    have hentry := h entry List.mem_cons_self
    rw [List.foldl_cons, List.foldl_cons, fillSpan_append hentry, ih]
    intro other hother
    rw [length_fillSpan hentry]
    exact h other (List.mem_cons_of_mem _ hother)

theorem length_foldl_fillSpan {entries : List (String × Span)} {values : List Value}
    (h : ∀ entry ∈ entries, entry.2.start + entry.2.count ≤ values.length) :
    (entries.foldl (fillSpan args) values).length = values.length := by
  induction entries generalizing values with
  | nil => rfl
  | cons entry entries ih =>
    have hentry := h entry List.mem_cons_self
    rw [List.foldl_cons, ih, length_fillSpan hentry]
    intro other hother
    rw [length_fillSpan hentry]
    exact h other (List.mem_cons_of_mem _ hother)

theorem length_fill {slots : Slots} (h : slots.InRange) (args : Args) :
    (slots.fill args).length = slots.values.length :=
  length_foldl_fillSpan h

/-- Values handed out at once stand behind the others in the end, too. -/
theorem fill_take {slots : Slots} (h : slots.InRange) (items : List Value) :
    (slots.take items).2.fill args = slots.fill args ++ items :=
  foldl_fillSpan_append h items

/-- In the end the slots reserved for a binding hold the values of its argument. -/
theorem fill_reserve {slots : Slots} (h : slots.InRange) {name : String} {value : Value}
    (hvalue : args.get? name = some value) :
    (slots.reserve name value.elements.length).2.fill args =
      slots.fill args ++ value.elements := by
  have hlength : slots.values.length = (slots.fill args).length := (length_fill h args).symm
  rw [fill, reserved_reserve, values_reserve, List.foldl_append, foldl_fillSpan_append h,
    List.foldl_cons, List.foldl_nil, fillSpan]
  simp only [hvalue, overwrite, hlength]
  change List.take (slots.fill args).length (slots.fill args ++ _) ++ _ ++
    List.drop _ (slots.fill args ++ _) = _
  rw [List.take_left, List.take_length, List.drop_append, List.drop_of_length_le (by omega),
    List.drop_of_length_le (by simp), List.append_nil, List.append_nil]

end Slots

theorem Context.length_finish (ctx : Context) {slots : Slots} (h : slots.InRange) :
    (ctx.finish slots).length = slots.values.length := by
  unfold finish
  split
  · exact Slots.length_fill h _
  · rfl

/-! ## 4. Rendering as a run -/

theorem Dialect.render_eq_ok {d : Dialect} {options : Options} {node : Node} {args : Args}
    {r : Rendered} (h : d.render options node args = .ok r) :
    ∃ pieces slots, (d.template options node).run (Context.new args options) {} =
        (.ok pieces, slots) ∧
      r = ⟨Piece.join pieces, (Context.new args options).finish slots⟩ := by
  simp only [render] at h
  split at h
  · cases h
  · rename_i pieces slots hrun
    exact ⟨pieces, slots, hrun, (Except.ok.inj h).symm⟩

end SqlKit
