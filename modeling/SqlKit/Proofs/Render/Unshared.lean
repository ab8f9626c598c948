/-
  SqlKit/Proofs/Render/Unshared.lean
  ==================================
  **Runs in which no binding occurs twice.**

  Where nothing is shared, a run is the meaning of its template with the values
  numbered in order: the text is `Symbol.number`, and the values are the marks.
  Together with the general comparison this says everything about a render in
  terms of the meaning of its template (`Dialect.render_cases`): when it fails
  and with which error, what its text says with the values in place, and, where
  no binding occurs twice, the text and the values themselves.
-/
import SqlKit.Proofs.Render.InPlace

namespace SqlKit

/-! ## 1. Numbering the values of a text -/

namespace Symbol

/-- The text with its marks numbered in order, from `k + 1` on. -/
def number (k : Nat) : List (Symbol Value) → List Char
  | [] => []
  | .char c :: rest => c :: number k rest
  | .mark _ :: rest => '$' :: (Nat.toDigits 10 (k + 1) ++ number (k + 1) rest)

/-- The marks of a text, in order. -/
def marks (symbols : List (Symbol Value)) : List Value :=
  symbols.filterMap mark?

@[simp]
theorem marks_nil : marks [] = [] := rfl

@[simp]
theorem marks_char_cons (c : Char) (rest : List (Symbol Value)) :
    marks (.char c :: rest) = marks rest := rfl

@[simp]
theorem marks_mark_cons (v : Value) (rest : List (Symbol Value)) :
    marks (.mark v :: rest) = v :: marks rest := rfl

@[simp]
theorem marks_append (xs ys : List (Symbol Value)) : marks (xs ++ ys) = marks xs ++ marks ys :=
  List.filterMap_append

@[simp]
theorem marks_chars (cs : List Char) : marks (chars cs) = [] :=
  filterMap_mark?_chars cs

theorem number_append (k : Nat) (xs ys : List (Symbol Value)) :
    number k (xs ++ ys) = number k xs ++ number (k + (marks xs).length) ys := by
  induction xs generalizing k with
  | nil => rfl
  | cons x xs ih =>
    cases x with
    | char c => simp only [List.cons_append, number, ih, marks_char_cons]
    | mark v =>
      simp only [List.cons_append, number, ih, marks_mark_cons, List.length_cons,
        List.append_assoc]
      rw [Nat.add_right_comm, Nat.add_assoc k]

@[simp]
theorem number_chars (k : Nat) (cs : List Char) : number k (chars cs) = cs := by
  induction cs with
  | nil => rfl
  | cons c cs ih => rw [chars_cons, number, ih]

theorem marks_symbols (items : List Value) : marks (Value.symbols items) = items := by
  rw [Value.symbols]
  cases items with
  | nil => simp
  | cons item items =>
    rw [if_neg (by simp)]
    induction items generalizing item with
    | nil => rfl
    | cons next items ih => simpa using ih next

theorem number_symbols (k : Nat) (items : List Value) :
    number k (Value.symbols items) = Piece.written (Span.pieces ⟨k, items.length⟩) := by
  rw [Value.symbols, Span.pieces]
  cases items with
  | nil => rfl
  | cons item items =>
    rw [if_neg (by simp), if_neg (by simp), Span.numbers]
    induction items generalizing k item with
    | nil => simp [number]
    | cons next items ih =>
      have hrest := ih (k + 1) next
      simp only [List.length_cons, List.range'_succ, List.map_cons, List.intersperse_cons_cons,
        number, Piece.written_slot_cons, Piece.written_verbatim_cons] at hrest ⊢
      rw [hrest]
      rfl

end Symbol

/-! ## 2. The bindings of a template -/

/-- The name of a fragment that stands for a binding. -/
def Fragment.bindings : Fragment → List String
  | .binding name => [name]
  | .comparand name _ _ _ => [name]
  | _ => []

/-- The bindings of a template, once for each occurrence. -/
def Template.bindings (t : Template) : List String :=
  t.flatMap Fragment.bindings

variable {ctx : Context} {slots after : Slots} {pieces : List Piece}

theorem Slots.spanOf?_reserve_of_ne (slots : Slots) {name other : String} (h : name ≠ other)
    (count : Nat) : (slots.reserve name count).2.spanOf? other = slots.spanOf? other := by
  rw [spanOf?, spanOf?, reserved_reserve, List.find?_append]
  simp [h]

/-! ## 3. Runs without sharing -/

/-- A binding without slots is written as its values, numbered in order. -/
theorem Context.placeholdersOf_unshared {name : String} (hrange : slots.InRange)
    (hfresh : slots.spanOf? name = none) (h : ctx.placeholdersOf name slots = .ok (pieces, after)) :
    ∃ symbols, ctx.inPlace name = .ok symbols ∧
      Piece.written pieces = Symbol.number slots.values.length symbols ∧
      after.fill ctx.args = slots.fill ctx.args ++ Symbol.marks symbols ∧
      ∀ other, other ≠ name → after.spanOf? other = slots.spanOf? other := by
  rcases placeholdersOf_cases h with ⟨span, hspan, -, -⟩ | ⟨-, hlookup, rfl, rfl⟩ |
    ⟨value, -, hlookup, hflat, rfl, rfl⟩
  · rw [hfresh] at hspan
    cases hspan
  · refine ⟨Symbol.chars "NULL".toList, ?_, (Symbol.number_chars _ _).symm, by simp, fun _ _ => rfl⟩
    rw [inPlace, hlookup]
  · refine ⟨Value.symbols value.elements, ?_, (Symbol.number_symbols _ _).symm, ?_, ?_⟩
    · rw [inPlace_of_lookup hlookup, Value.inPlace_of_flat hflat]
    · rw [Symbol.marks_symbols, Slots.fill_reserve hrange (get?_of_lookup hlookup)]
    · intro other hother
      exact slots.spanOf?_reserve_of_ne hother.symm _

theorem Fragment.emit_unshared {fragment : Fragment} (hrange : slots.InRange)
    (hfresh : ∀ name ∈ fragment.bindings, slots.spanOf? name = none)
    (h : fragment.emit ctx slots = .ok (pieces, after)) :
    ∃ symbols, fragment.inPlace ctx = .ok symbols ∧
      Piece.written pieces = Symbol.number slots.values.length symbols ∧
      after.fill ctx.args = slots.fill ctx.args ++ Symbol.marks symbols ∧
      ∀ other, other ∉ fragment.bindings → after.spanOf? other = slots.spanOf? other := by
  cases writes_of_emit h with
  | verbatim s => exact ⟨_, rfl, by simp, by simp, fun _ _ => rfl⟩
  | clauseBreak => exact ⟨_, rfl, by simp, by simp, fun _ _ => rfl⟩
  | value v =>
    refine ⟨_, rfl, (Symbol.number_symbols _ [v]).symm, ?_, fun _ _ => rfl⟩
    rw [Symbol.marks_symbols, Slots.fill_take hrange]
  | values hflat =>
    refine ⟨_, Value.inPlace_of_flat hflat, (Symbol.number_symbols _ _).symm, ?_, fun _ _ => rfl⟩
    rw [Symbol.marks_symbols, Slots.fill_take hrange]
  | @binding name _ _ h =>
    obtain ⟨symbols, hsymbols, hwritten, hfill, hother⟩ :=
      Context.placeholdersOf_unshared hrange (hfresh name (by simp [bindings])) h
    refine ⟨symbols, hsymbols, hwritten, hfill, ?_⟩
    intro other hne
    apply hother
    rintro rfl
    exact hne (by simp [bindings])
  | ifNull ifNull before behind hlookup =>
    refine ⟨Symbol.chars ifNull.toList, ?_, by simp, by simp, fun _ _ => rfl⟩
    rw [inPlace, hlookup]
  | @comparand name value _ _ ifNull before behind hlookup h =>
    obtain ⟨symbols, hsymbols, hwritten, hfill, hother⟩ :=
      Context.placeholdersOf_unshared hrange (hfresh name (by simp [bindings])) h
    refine ⟨Symbol.chars before.toList ++ symbols ++ Symbol.chars behind.toList, ?_, ?_, ?_, ?_⟩
    · rw [inPlace, hlookup, hsymbols]
      rfl
    · simp [Symbol.number_append, hwritten]
    · simp [hfill]
    · intro other hne
      apply hother
      rintro rfl
      exact hne (by simp [bindings])

/-- **A run in which no binding is shared numbers its values in order.** -/
theorem Template.run_unshared {t : Template} (hrange : slots.InRange) (hnodup : t.bindings.Nodup)
    (hfresh : ∀ name ∈ t.bindings, slots.spanOf? name = none)
    (h : t.run ctx slots = (.ok pieces, after)) :
    ∃ symbols, t.inPlace ctx = .ok symbols ∧
      Piece.written pieces = Symbol.number slots.values.length symbols ∧
      after.fill ctx.args = slots.fill ctx.args ++ Symbol.marks symbols := by
  induction t generalizing slots pieces with
  | nil =>
    obtain ⟨rfl, rfl⟩ := run_nil_eq_ok h
    exact ⟨[], rfl, rfl, (List.append_nil _).symm⟩
  | cons fragment rest ih =>
    obtain ⟨first, middle, more, hemit, hrun, rfl⟩ := run_cons_eq_ok h
    rw [bindings, List.flatMap_cons, List.nodup_append] at hnodup
    obtain ⟨-, hrestNodup, hapart⟩ := hnodup
    obtain ⟨head, hhead, hwritten, hfill, hother⟩ := Fragment.emit_unshared hrange
      (fun name hname => hfresh name (List.mem_append_left _ hname)) hemit
    have hmiddle := (Fragment.writes_of_emit hemit).emits.inRange hrange
    obtain ⟨symbols, hsymbols, hmore, hfillRest⟩ := ih hmiddle hrestNodup
      (fun name hname => by
        rw [hother name fun hmem => hapart name hmem name hname rfl]
        exact hfresh name (List.mem_append_right _ hname)) hrun
    -- the slots handed out so far are as many as the marks written so far
    have hlength : middle.values.length = slots.values.length + (Symbol.marks head).length := by
      rw [← Slots.length_fill hmiddle ctx.args, hfill, List.length_append,
        Slots.length_fill hrange]
    refine ⟨head ++ symbols, ?_, ?_, ?_⟩
    · rw [inPlace, hhead, hsymbols]
      rfl
    · rw [Piece.written_append, hwritten, hmore, Symbol.number_append, hlength]
    · rw [hfillRest, hfill, Symbol.marks_append, List.append_assoc]

/-! ## 4. A render in terms of the meaning of its template -/

/-- **A render fails as the meaning of its template does**, and otherwise its
    text says the same with the values in place. If no binding occurs twice, the
    text and the values are those of the meaning. -/
theorem Dialect.render_cases (d : Dialect) (options : Options) (node : Node) (args : Args) :
    (∃ e, (d.template options node).inPlace (Context.new args options) = .error e ∧
      d.render options node args = .error e) ∨
    ∃ symbols r, (d.template options node).inPlace (Context.new args options) = .ok symbols ∧
      d.render options node args = .ok r ∧
      ((d.template options node).Spaced → r.inPlace = Symbol.present symbols) ∧
      ((d.template options node).bindings.Nodup →
        r.sql.toList = Symbol.number 0 symbols ∧ r.values = Symbol.marks symbols) := by
  rw [render]
  rcases hrun : (d.template options node).run (Context.new args options) {} with
    ⟨e | pieces, slots⟩
  · exact .inl ⟨e, Template.inPlace_of_run_error (Slots.backed_empty _) hrun, rfl⟩
  · obtain ⟨-, symbols, hsymbols, hresolve⟩ :=
      Template.inPlace_of_run (Slots.backed_empty _) hrun
    refine .inr ⟨symbols, _, hsymbols, rfl, fun hspaced => ?_, fun hnodup => ?_⟩
    · rw [Rendered.inPlace, Piece.scan_join (Template.legible_run hspaced hrun)]
      exact hresolve List.prefix_rfl
    · obtain ⟨symbols', hsymbols', hwritten, hfill⟩ :=
        Template.run_unshared Slots.inRange_empty hnodup (fun _ _ => rfl) hrun
      obtain rfl : symbols = symbols' := Except.ok.inj (hsymbols.symm.trans hsymbols')
      exact ⟨(Piece.toList_join pieces).trans hwritten, hfill⟩

end SqlKit
