/-
  SqlKit/Proofs/Render/InPlace.lean
  =================================
  **Templates with the values written in place.**

  What a template means apart from any slots: its text with each value standing
  where its placeholder will stand. `Template.inPlace` is that meaning. It has no
  state, so it is compositional (`inPlace_append`), and it carries the values of
  a binding wherever the binding occurs.

  Every run fails exactly where the meaning does (`inPlace_of_run_error`), and
  otherwise its pieces say the same once the slots are filled
  (`inPlace_of_run`). What makes this an induction is that the slots are
  `Backed`: each reserved span holds the values of its binding from the start.
-/
import SqlKit.Proofs.Render.Emission
import SqlKit.Proofs.Render.Spacing

namespace SqlKit

/-! ## 1. The meaning of a template -/

/-- Values in the place of their placeholders; no values at all are the null
    value. -/
def Value.symbols (items : List Value) : List (Symbol Value) :=
  if items.isEmpty then Symbol.chars "NULL".toList
  else (items.map .mark).intersperse (.char ',')

/-- Values in place, none of which may be a list. -/
def Value.inPlace (items : List Value) : Except Error (List (Symbol Value)) :=
  if hasNested items then .error (.unsupportedLiteral .nestedList) else .ok (symbols items)

/-- The values of a binding in place. -/
def Context.inPlace (ctx : Context) (name : String) : Except Error (List (Symbol Value)) :=
  match ctx.lookup name with
  | .error e => .error e
  | .ok none => .ok (Symbol.chars "NULL".toList)
  | .ok (some value) => Value.inPlace value.elements

/-- The meaning of one fragment. -/
def Fragment.inPlace (ctx : Context) : Fragment → Except Error (List (Symbol Value))
  | .verbatim s => .ok (Symbol.chars s.toList)
  | .clauseBreak => .ok (Symbol.chars (ctx.options.clauseBreak (ctx.depth + 1)).toList)
  | .value v => .ok (Value.symbols [v])
  | .values items => Value.inPlace items
  | .binding name => ctx.inPlace name
  | .comparand name ifNull before behind =>
    match ctx.lookup name with
    | .error e => .error e
    | .ok none => .ok (Symbol.chars ifNull.toList)
    | .ok (some _) => (ctx.inPlace name).map fun symbols =>
      Symbol.chars before.toList ++ symbols ++ Symbol.chars behind.toList
  | .fail e => .error e

theorem Value.inPlace_of_flat {items : List Value} (h : hasNested items = false) :
    inPlace items = .ok (symbols items) := by
  rw [inPlace, h]
  rfl

theorem Context.inPlace_of_lookup {ctx : Context} {name : String} {value : Value}
    (h : ctx.lookup name = .ok (some value)) :
    ctx.inPlace name = Value.inPlace value.elements := by
  rw [inPlace, h]

namespace Template

/-- The meaning of a template, or its first error. -/
def inPlace (ctx : Context) : Template → Except Error (List (Symbol Value))
  | [] => .ok []
  | fragment :: rest =>
    match fragment.inPlace ctx with
    | .error e => .error e
    | .ok symbols => (inPlace ctx rest).map (symbols ++ ·)

theorem inPlace_append (ctx : Context) (t u : Template) :
    (t ++ u).inPlace ctx =
      match t.inPlace ctx with
      | .error e => .error e
      | .ok symbols => (u.inPlace ctx).map (symbols ++ ·) := by
  induction t with
  | nil =>
    rw [List.nil_append, inPlace]
    rcases u.inPlace ctx with e | symbols <;> rfl
  | cons fragment rest ih =>
    rw [List.cons_append, inPlace, inPlace]
    cases fragment.inPlace ctx with
    | error e => rfl
    | ok first =>
      rw [ih]
      rcases inPlace ctx rest with e | middle
      · rfl
      · rcases u.inPlace ctx with e | last
        · rfl
        · simp only [Except.map, List.append_assoc]

theorem inPlace_singleton (ctx : Context) (fragment : Fragment) :
    inPlace ctx [fragment] = fragment.inPlace ctx := by
  rw [inPlace]
  cases fragment.inPlace ctx with
  | error e => rfl
  | ok symbols => simp only [inPlace, Except.map, List.append_nil]

end Template

/-! ## 2. Pieces against the final values -/

namespace Piece

/-- What pieces say once the slots hold `values`. -/
def resolve (values : List Value) (pieces : List Piece) : List (Symbol (Option Value)) :=
  (pieces.flatMap symbols).map (Symbol.map (Rendered.slotValue values))

@[simp]
theorem resolve_nil (values : List Value) : resolve values [] = [] := rfl

@[simp]
theorem resolve_append (values : List Value) (ps qs : List Piece) :
    resolve values (ps ++ qs) = resolve values ps ++ resolve values qs := by
  simp only [resolve, List.flatMap_append, List.map_append]

@[simp]
theorem resolve_verbatim_cons (values : List Value) (s : String) (rest : List Piece) :
    resolve values (.verbatim s :: rest) = Symbol.chars s.toList ++ resolve values rest := by
  simp [resolve, symbols]

@[simp]
theorem resolve_slot_cons (values : List Value) (number : Nat) (rest : List Piece) :
    resolve values (.slot number :: rest) =
      .mark (Rendered.slotValue values number) :: resolve values rest := rfl

end Piece

/-- Values known to be there. -/
abbrev Symbol.present (symbols : List (Symbol Value)) : List (Symbol (Option Value)) :=
  symbols.map (map some)

theorem map_intersperse {α β : Type} (f : α → β) (separator : α) (xs : List α) :
    (xs.intersperse separator).map f = (xs.map f).intersperse (f separator) := by
  induction xs with
  | nil => rfl
  | cons x xs ih =>
    cases xs with
    | nil => rfl
    | cons y xs => simpa using ih

theorem Piece.resolve_intersperse (values : List Value) (ns : List Nat) :
    resolve values ((ns.map slot).intersperse (.verbatim ",")) =
      (ns.map fun n => .mark (Rendered.slotValue values n)).intersperse (.char ',') := by
  induction ns with
  | nil => rfl
  | cons n ns ih =>
    cases ns with
    | nil => rfl
    | cons m ns => simpa [Symbol.chars] using ih

theorem Span.slotValue_numbers {values : List Value} {span : Span} {items : List Value}
    (hcount : span.count = items.length)
    (hitems : (values.drop span.start).take span.count = items) :
    span.numbers.map (Rendered.slotValue values) = items.map some := by
  apply List.ext_getElem
  · simp [numbers, hcount]
  · intro i _ hi
    subst hitems
    have hstop : span.start + i < values.length := by
      simp at hi
      omega
    have hnumber : span.start + 1 + 1 * i = span.start + i + 1 := by omega
    rw [List.getElem_map, List.getElem_map]
    simp only [numbers, List.getElem_range', hnumber, Rendered.slotValue_succ,
      List.getElem?_eq_getElem hstop, List.getElem_take, List.getElem_drop]

theorem Span.resolve_pieces {values : List Value} {span : Span} {items : List Value}
    (hcount : span.count = items.length)
    (hitems : (values.drop span.start).take span.count = items) :
    Piece.resolve values span.pieces = Symbol.present (Value.symbols items) := by
  rw [pieces, Value.symbols]
  cases items with
  | nil =>
    have hzero : span.count = 0 := hcount
    rw [if_pos hzero]
    rfl
  | cons item items =>
    have hpos : span.count ≠ 0 := by
      rw [hcount]
      exact Nat.succ_ne_zero _
    have hvalues := congrArg (List.map Symbol.mark) (slotValue_numbers hcount hitems)
    rw [List.map_map, List.map_map] at hvalues
    rw [if_neg hpos, if_neg (by simp), Piece.resolve_intersperse, Symbol.present, map_intersperse,
      List.map_map]
    exact congrArg (List.intersperse (.char ',')) hvalues

/-! ## 3. Slots that hold what their bindings say -/

theorem Context.get?_of_lookup {ctx : Context} {name : String} {value : Value}
    (h : ctx.lookup name = .ok (some value)) : ctx.args.get? name = some value := by
  rw [lookup] at h
  split at h
  · cases h
  · rename_i found _ hget
    rw [hget, Option.some.inj (Except.ok.inj h)]
  · split at h <;> cases h

namespace Slots

/-- Every reserved span belongs to a binding with an argument and holds, once
    the slots are filled, the values of that argument. -/
structure Backed (ctx : Context) (slots : Slots) : Prop where
  inRange : slots.InRange
  argument : ∀ entry ∈ slots.reserved, ∃ value, ctx.lookup entry.1 = .ok (some value) ∧
    Value.hasNested value.elements = false ∧ entry.2.count = value.elements.length ∧
    ((slots.fill ctx.args).drop entry.2.start).take entry.2.count = value.elements

theorem backed_empty (ctx : Context) : Backed ctx {} where
  inRange := inRange_empty
  argument := by simp

theorem Backed.argument_append {ctx : Context} {slots : Slots} (h : slots.Backed ctx)
    (more : List Value) : ∀ entry ∈ slots.reserved, ∃ value,
      ctx.lookup entry.1 = .ok (some value) ∧ Value.hasNested value.elements = false ∧
      entry.2.count = value.elements.length ∧
      ((slots.fill ctx.args ++ more).drop entry.2.start).take entry.2.count = value.elements := by
  intro entry hentry
  obtain ⟨value, hlookup, hflat, hcount, hvalues⟩ := h.argument entry hentry
  have hstop := h.inRange entry hentry
  have hlength := length_fill h.inRange ctx.args
  refine ⟨value, hlookup, hflat, hcount, ?_⟩
  rw [List.drop_append_of_le_length (by omega),
    List.take_append_of_le_length (by rw [List.length_drop]; omega), hvalues]

end Slots

variable {ctx : Context} {slots after : Slots} {pieces : List Piece}

theorem Context.Emits.fill_prefix (hrange : slots.InRange) (h : ctx.Emits slots pieces after) :
    slots.fill ctx.args <+: after.fill ctx.args := by
  induction h with
  | text s => exact List.prefix_rfl
  | shared hspan => exact List.prefix_rfl
  | taken items => exact Slots.fill_take hrange items ▸ List.prefix_append _ _
  | reserved hspan hlookup hflat =>
    exact Slots.fill_reserve hrange (get?_of_lookup hlookup) ▸ List.prefix_append _ _
  | framed before behind _ ih => exact ih

theorem Context.Emits.backed (hbacked : slots.Backed ctx) (h : ctx.Emits slots pieces after) :
    after.Backed ctx := by
  induction h with
  | text s => exact hbacked
  | shared hspan => exact hbacked
  | taken items =>
    refine ⟨hbacked.inRange.take items, ?_⟩
    rw [Slots.reserved_take, Slots.fill_take hbacked.inRange]
    exact hbacked.argument_append items
  | @reserved name value hspan hlookup hflat =>
    refine ⟨hbacked.inRange.reserve _ _, fun entry hentry => ?_⟩
    rw [Slots.fill_reserve hbacked.inRange (get?_of_lookup hlookup)]
    rw [Slots.reserved_reserve, List.mem_append, List.mem_singleton] at hentry
    rcases hentry with hentry | rfl
    · exact hbacked.argument_append _ entry hentry
    · refine ⟨value, hlookup, hflat, rfl, ?_⟩
      rw [← Slots.length_fill hbacked.inRange ctx.args, List.drop_left,
        List.take_length]
  | framed before behind _ ih => exact ih

/-! ## 4. A run says what its template means -/

theorem Context.inPlace_of_placeholdersOf_error {name : String} {e : Error}
    (h : ctx.placeholdersOf name slots = .error e) : ctx.inPlace name = .error e := by
  rw [placeholdersOf] at h
  rcases hspan : slots.spanOf? name with _ | span <;> rw [hspan] at h
  · rcases hlookup : ctx.lookup name with e' | _ | value <;> rw [hlookup] at h
    · obtain rfl := Except.error.inj h
      rw [inPlace, hlookup]
    · cases h
    · dsimp only at h
      rw [inPlace_of_lookup hlookup, Value.inPlace]
      rcases hnested : Value.hasNested value.elements with _ | _ <;> rw [hnested] at h
      · cases h
      · obtain rfl := Except.error.inj h
        rfl
  · cases h

theorem Fragment.inPlace_of_emit_error {fragment : Fragment} {e : Error}
    (h : fragment.emit ctx slots = .error e) : fragment.inPlace ctx = .error e := by
  cases fragment with
  | values items =>
    rw [emit, Slots.placeholders] at h
    rw [inPlace, Value.inPlace]
    rcases hnested : Value.hasNested items with _ | _ <;> rw [hnested] at h
    · cases h
    · obtain rfl := Except.error.inj h
      rfl
  | binding name => exact Context.inPlace_of_placeholdersOf_error h
  | comparand name ifNull before behind =>
    rw [emit] at h
    rw [inPlace]
    rcases hlookup : ctx.lookup name with e' | _ | value <;> rw [hlookup] at h
    · obtain rfl := Except.error.inj h
      rfl
    · cases h
    · rcases hinner : ctx.placeholdersOf name slots with e' | ⟨inner, within⟩ <;> rw [hinner] at h
      · obtain rfl := Except.error.inj h
        rw [Context.inPlace_of_placeholdersOf_error hinner]
        rfl
      · cases h
  | fail e' =>
    obtain rfl := Except.error.inj h
    rfl
  | _ => cases h

theorem Context.inPlace_of_placeholdersOf {name : String} {values : List Value}
    (hbacked : slots.Backed ctx) (h : ctx.placeholdersOf name slots = .ok (pieces, after))
    (hvalues : after.fill ctx.args <+: values) :
    ∃ symbols, ctx.inPlace name = .ok symbols ∧
      Piece.resolve values pieces = Symbol.present symbols := by
  obtain ⟨more, rfl⟩ := hvalues
  rcases placeholdersOf_cases h with ⟨span, hspan, rfl, rfl⟩ | ⟨-, hlookup, rfl, rfl⟩ |
    ⟨value, -, hlookup, hflat, rfl, rfl⟩
  · obtain ⟨value, hlookup, hflat, hcount, hvalue⟩ :=
      hbacked.argument_append more _ (Slots.mem_reserved_of_spanOf? hspan)
    refine ⟨Value.symbols value.elements, ?_, Span.resolve_pieces hcount hvalue⟩
    rw [inPlace_of_lookup hlookup, Value.inPlace_of_flat hflat]
  · refine ⟨Symbol.chars "NULL".toList, ?_, by simp [Symbol.present]⟩
    rw [inPlace, hlookup]
  · refine ⟨Value.symbols value.elements, ?_, Span.resolve_pieces rfl ?_⟩
    · rw [inPlace_of_lookup hlookup, Value.inPlace_of_flat hflat]
    · rw [Slots.fill_reserve hbacked.inRange (get?_of_lookup hlookup),
        ← Slots.length_fill hbacked.inRange ctx.args, List.append_assoc, List.drop_left,
        List.take_left]

theorem Fragment.inPlace_of_emit {fragment : Fragment} {values : List Value}
    (hbacked : slots.Backed ctx) (h : fragment.emit ctx slots = .ok (pieces, after))
    (hvalues : after.fill ctx.args <+: values) :
    ∃ symbols, fragment.inPlace ctx = .ok symbols ∧
      Piece.resolve values pieces = Symbol.present symbols := by
  -- values handed out at once stand at the end of the filled slots
  have htaken (items : List Value) (hvalues : (slots.take items).2.fill ctx.args <+: values) :
      Piece.resolve values (Span.pieces ⟨slots.values.length, items.length⟩) =
        Symbol.present (Value.symbols items) := by
    obtain ⟨more, rfl⟩ := hvalues
    apply Span.resolve_pieces rfl
    rw [Slots.fill_take hbacked.inRange, ← Slots.length_fill hbacked.inRange ctx.args,
      List.append_assoc, List.drop_left, List.take_left]
  cases writes_of_emit h with
  | verbatim s => exact ⟨_, rfl, by simp [Symbol.present]⟩
  | clauseBreak => exact ⟨_, rfl, by simp [Symbol.present]⟩
  | value v => exact ⟨_, rfl, htaken [v] hvalues⟩
  | @values items hflat =>
    exact ⟨_, Value.inPlace_of_flat hflat, htaken items hvalues⟩
  | binding h => exact Context.inPlace_of_placeholdersOf hbacked h hvalues
  | ifNull ifNull before behind hlookup =>
    refine ⟨Symbol.chars ifNull.toList, ?_, by simp [Symbol.present]⟩
    rw [inPlace, hlookup]
  | comparand ifNull before behind hlookup h =>
    obtain ⟨symbols, hsymbols, hresolve⟩ := Context.inPlace_of_placeholdersOf hbacked h hvalues
    refine ⟨Symbol.chars before.toList ++ symbols ++ Symbol.chars behind.toList, ?_, ?_⟩
    · rw [inPlace, hlookup, hsymbols]
      rfl
    · simp [Symbol.present, hresolve]

namespace Template

theorem inPlace_of_run_error {t : Template} {e : Error} (hbacked : slots.Backed ctx)
    (h : t.run ctx slots = (.error e, after)) : t.inPlace ctx = .error e := by
  induction t generalizing slots with
  | nil => cases h
  | cons fragment rest ih =>
    simp only [run] at h
    rw [inPlace]
    rcases hemit : fragment.emit ctx slots with e | ⟨first, middle⟩
    · rw [hemit] at h
      simp only [Prod.mk.injEq, Except.error.injEq] at h
      rw [Fragment.inPlace_of_emit_error hemit, h.1]
    · have hmiddle := (Fragment.writes_of_emit hemit).emits.backed hbacked
      obtain ⟨symbols, hsymbols, -⟩ := Fragment.inPlace_of_emit hbacked hemit List.prefix_rfl
      rcases hrun : run ctx rest middle with ⟨e | more, last⟩
      · simp only [hemit, hrun, Prod.mk.injEq, Except.error.injEq] at h
        obtain ⟨rfl, rfl⟩ := h
        rw [hsymbols]
        exact congrArg (Except.map _) (ih hmiddle hrun)
      · simp [hemit, hrun] at h

theorem inPlace_of_run {t : Template} (hbacked : slots.Backed ctx)
    (h : t.run ctx slots = (.ok pieces, after)) :
    slots.fill ctx.args <+: after.fill ctx.args ∧
      ∃ symbols, t.inPlace ctx = .ok symbols ∧ ∀ {values}, after.fill ctx.args <+: values →
        Piece.resolve values pieces = Symbol.present symbols := by
  induction t generalizing slots pieces with
  | nil =>
    obtain ⟨rfl, rfl⟩ := run_nil_eq_ok h
    exact ⟨List.prefix_rfl, [], rfl, fun _ => rfl⟩
  | cons fragment rest ih =>
    obtain ⟨first, middle, more, hemit, hrun, rfl⟩ := run_cons_eq_ok h
    have hstep := (Fragment.writes_of_emit hemit).emits
    obtain ⟨hgrows, symbols, hsymbols, hresolve⟩ := ih (hstep.backed hbacked) hrun
    obtain ⟨head, hhead, -⟩ := Fragment.inPlace_of_emit hbacked hemit hgrows
    refine ⟨(hstep.fill_prefix hbacked.inRange).trans hgrows, head ++ symbols, ?_, ?_⟩
    · rw [inPlace, hhead, hsymbols]
      rfl
    · intro values hvalues
      obtain ⟨head', hhead', hfirst⟩ :=
        Fragment.inPlace_of_emit hbacked hemit (hgrows.trans hvalues)
      obtain rfl : head = head' := Except.ok.inj (hhead.symm.trans hhead')
      rw [Piece.resolve_append, hfirst, hresolve hvalues, ← List.map_append]

end Template

end SqlKit
