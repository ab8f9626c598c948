/-
  SqlKit/Proofs/Render/Delimiter.lean
  ===================================
  **What stands next to a place in a text.**

  A place in a template has something ahead of it and something behind it. What
  matters about them is the character next to the place: `Delimits` says that it
  is a parenthesis on either side, or else that it is a blank on the left. That
  is a property of the last fragment ahead and the first one behind, so it stays
  when more is written around them, and a run writes those characters
  (`Delimits.enclosed_iff`).

  What lies within a statement is laid out on one line. To a run this is the
  same as a context of that depth (`run_inlineIf`).
-/
import SqlKit.Proofs.Render.Emission
import SqlKit.Proofs.Text.Placeholder

namespace SqlKit

/-- What is written first ends in an opening parenthesis, and what is written
    last begins with a closing one. -/
def Piece.Enclosed (first last : List Piece) : Prop :=
  (written first).getLast? = some '(' ∧ (written last).head? = some ')'

namespace Template

/-! ## 1. Templates on one line -/

/-- A template on one line if it lies within a statement. -/
def inlineIf (t : Template) (within : Bool) : Template := if within then t.inline else t

theorem inlineIf_append (t u : Template) (within : Bool) :
    (t ++ u).inlineIf within = t.inlineIf within ++ u.inlineIf within := by
  cases within with
  | true => exact inline_append t u
  | false => rfl

theorem inlineIf_inlineIf (t : Template) (within within' : Bool) :
    (t.inlineIf within).inlineIf within' = t.inlineIf (within || within') := by
  cases within with
  | true =>
    cases within' with
    | true =>
      have hfragment (fragment : Fragment) :
          inlineFragment (inlineFragment fragment) = inlineFragment fragment := by
        cases fragment <;> rfl
      simp only [inlineIf, inline, Bool.or_self, if_true, List.map_map, Function.comp_def, hfragment]
    | false => rfl
  | false => rfl

/-- On one line, a template runs as it does within any statement. -/
theorem run_inline (ctx : Context) {depth : Nat} (hdepth : 0 < depth) (t : Template)
    (slots : Slots) : t.inline.run ctx slots = t.run { ctx with depth := depth } slots := by
  have hblank : ctx.options.clauseBreak (depth + 1) = " " := by
    have hdeep : ¬ depth + 1 ≤ 1 := by omega
    simp only [Options.clauseBreak, hdeep, decide_false, Bool.and_false, Bool.false_eq_true, if_false]
  have hemit (fragment : Fragment) (slots : Slots) : (inlineFragment fragment).emit ctx slots =
      fragment.emit { ctx with depth := depth } slots := by
    cases fragment with
    | clauseBreak => simp only [inlineFragment, Fragment.emit, hblank]
    | _ => rfl
  induction t generalizing slots with
  | nil => rfl
  | cons fragment rest ih =>
    have hrest (slots : Slots) : run ctx (rest.map inlineFragment) slots =
        run { ctx with depth := depth } rest slots := ih slots
    simp only [inline, List.map_cons, run, hemit, hrest]

/-- The depth of what lies within a statement is not seen, as long as it counts
    the statements around it. -/
theorem run_inlineIf {ctx : Context} (hctx : ctx.depth = 0) (t : Template) {within : Bool}
    {depth : Nat} (hdepth : within = true ↔ 0 < depth) (slots : Slots) :
    (t.inlineIf within).run ctx slots = t.run { ctx with depth := depth } slots := by
  cases within with
  | true => exact run_inline ctx (hdepth.mp rfl) t slots
  | false =>
    obtain rfl : depth = 0 := by simpa using hdepth
    rw [← hctx]
    rfl

/-! ## 2. How a template begins and ends -/

variable {t u : Template} {c : Char}

/-- The last fragment is a text that ends in `c`. -/
def Ends (t : Template) (c : Char) : Prop :=
  ∃ init s, t = init ++ text s ∧ s.toList.getLast? = some c

/-- The first fragment is a text that begins with `c`. -/
def Begins (t : Template) (c : Char) : Prop :=
  ∃ s rest, t = text s ++ rest ∧ s.toList.head? = some c

theorem ends_text {s : String} (h : s.toList.getLast? = some c) : (text s).Ends c :=
  ⟨[], s, rfl, h⟩

theorem begins_text {s : String} (h : s.toList.head? = some c) : (text s).Begins c :=
  ⟨s, [], rfl, h⟩

theorem Ends.append_left (u : Template) (h : t.Ends c) : (u ++ t).Ends c := by
  obtain ⟨init, s, rfl, hs⟩ := h
  exact ⟨u ++ init, s, (List.append_assoc u init _).symm, hs⟩

theorem Begins.append_right (u : Template) (h : t.Begins c) : (t ++ u).Begins c := by
  obtain ⟨s, rest, rfl, hs⟩ := h
  exact ⟨s, rest ++ u, List.append_assoc _ rest u, hs⟩

theorem Ends.inline (h : t.Ends c) : t.inline.Ends c := by
  obtain ⟨init, s, rfl, hs⟩ := h
  exact ⟨init.inline, s, inline_append _ _, hs⟩

theorem Begins.inline (h : t.Begins c) : t.inline.Begins c := by
  obtain ⟨s, rest, rfl, hs⟩ := h
  exact ⟨s, rest.inline, inline_append _ _, hs⟩

theorem run_text (ctx : Context) (s : String) (slots : Slots) :
    (text s).run ctx slots = (.ok [.verbatim s], slots) := rfl

theorem run_text_eq_ok {ctx : Context} {s : String} {slots after : Slots} {pieces : List Piece}
    (h : (text s).run ctx slots = (.ok pieces, after)) :
    pieces = [.verbatim s] ∧ after = slots := by
  rw [run_text, Prod.mk.injEq, Except.ok.injEq] at h
  exact ⟨h.1.symm, h.2.symm⟩

theorem Ends.written {ctx : Context} {slots after : Slots} {pieces : List Piece} (h : t.Ends c)
    (hrun : t.run ctx slots = (.ok pieces, after)) : (Piece.written pieces).getLast? = some c := by
  obtain ⟨init, s, rfl, hs⟩ := h
  obtain ⟨first, middle, last, -, hlast, rfl⟩ := run_append_eq_ok hrun
  obtain ⟨rfl, -⟩ := run_text_eq_ok hlast
  rw [Piece.written_append, Piece.written_verbatim_cons, Piece.written_nil, List.append_nil,
    List.getLast?_append, hs]
  rfl

theorem Begins.written {ctx : Context} {slots after : Slots} {pieces : List Piece} (h : t.Begins c)
    (hrun : t.run ctx slots = (.ok pieces, after)) : (Piece.written pieces).head? = some c := by
  obtain ⟨s, rest, rfl, hs⟩ := h
  obtain ⟨first, middle, last, hfirst, -, rfl⟩ := run_append_eq_ok hrun
  obtain ⟨rfl, -⟩ := run_text_eq_ok hfirst
  rw [Piece.written_append, Piece.written_verbatim_cons, Piece.written_nil, List.append_nil,
    List.head?_append, hs]
  rfl

/-! ## 3. Delimiters -/

/-- What stands around a place: parentheses, or at least a blank before it. -/
def Delimits (enclosed : Bool) (ahead behind : Template) : Prop :=
  if enclosed then ahead.Ends '(' ∧ behind.Begins ')' else ahead.Ends ' '

theorem Delimits.append {enclosed : Bool} {ahead behind : Template} (u v : Template)
    (h : Delimits enclosed ahead behind) : Delimits enclosed (u ++ ahead) (behind ++ v) := by
  cases enclosed with
  | true => exact ⟨h.1.append_left u, h.2.append_right v⟩
  | false => exact Ends.append_left u h

theorem Delimits.inline {enclosed : Bool} {ahead behind : Template}
    (h : Delimits enclosed ahead behind) : Delimits enclosed ahead.inline behind.inline := by
  cases enclosed with
  | true => exact ⟨h.1.inline, h.2.inline⟩
  | false => exact Ends.inline h

theorem Delimits.inlineIf {enclosed : Bool} {ahead behind : Template} (within : Bool)
    (h : Delimits enclosed ahead behind) :
    Delimits enclosed (ahead.inlineIf within) (behind.inlineIf within) := by
  cases within with
  | true => exact h.inline
  | false => exact h

theorem Delimits.enclosed_iff {enclosed : Bool} {ahead behind : Template} {ctx ctx' : Context}
    {slots slots' middle after : Slots} {first last : List Piece}
    (h : Delimits enclosed ahead behind) (hfirst : ahead.run ctx slots = (.ok first, middle))
    (hlast : behind.run ctx' slots' = (.ok last, after)) :
    Piece.Enclosed first last ↔ enclosed = true := by
  cases enclosed with
  | true => exact ⟨fun _ => rfl, fun _ => ⟨h.1.written hfirst, h.2.written hlast⟩⟩
  | false =>
    have hblank := Ends.written h hfirst
    constructor
    · rintro ⟨hopening, -⟩
      rw [hblank] at hopening
      cases hopening
    · intro h
      cases h

end Template

end SqlKit
