/-
  SqlKit/Proofs/Render/LineBreak.lean
  ===================================
  **What line breaks do to a text.**

  A run looks at its context in two ways only: it looks up bindings, and it asks
  what stands before a clause. Two contexts that answer alike run alike
  (`run_congr`); if they differ before a clause only, by a newline or a blank,
  the runs fail alike, hand out the same slots, and write texts that are the same
  on one line (`runMapped_oneLine`).

  The newlines of a text can be counted without running anything. If no fixed
  text of a template has one, there is a newline for each line break of the
  template and no other (`count_newline_run`): placeholders are digits, commas
  and dollar signs, and no value is ever written out.
-/
import SqlKit.Proofs.Render.Unshared

namespace SqlKit

/-! ## 1. What a run looks at -/

variable {ctx ctx' : Context}

theorem Context.placeholdersOf_congr {name : String} (h : ctx.lookup name = ctx'.lookup name)
    (slots : Slots) : ctx.placeholdersOf name slots = ctx'.placeholdersOf name slots := by
  rw [placeholdersOf, placeholdersOf, h]

theorem Fragment.emit_congr {fragment : Fragment}
    (hlookup : ∀ name ∈ fragment.bindings, ctx.lookup name = ctx'.lookup name)
    (hbreak : fragment = .clauseBreak →
      ctx.options.clauseBreak (ctx.depth + 1) = ctx'.options.clauseBreak (ctx'.depth + 1))
    (slots : Slots) : fragment.emit ctx slots = fragment.emit ctx' slots := by
  cases fragment with
  | clauseBreak => rw [emit, emit, hbreak rfl]
  | binding name => exact Context.placeholdersOf_congr (hlookup name (by simp [bindings])) slots
  | comparand name ifNull before behind =>
    have hname := hlookup name (by simp [bindings])
    rw [emit, emit, hname, Context.placeholdersOf_congr hname]
  | _ => rfl

/-- A run, with a change made to each of its pieces. -/
def Template.runMapped (f : Piece → Piece) (ctx : Context) (t : Template) (slots : Slots) :
    Except Error (List Piece) × Slots :=
  ((t.run ctx slots).1.map (List.map f), (t.run ctx slots).2)

theorem Template.runMapped_cons (f : Piece → Piece) (ctx : Context) (fragment : Fragment)
    (rest : Template) (slots : Slots) :
    runMapped f ctx (fragment :: rest) slots =
      match (fragment.emit ctx slots).map (Prod.map (List.map f) id) with
      | .error e => (.error e, slots)
      | .ok (pieces, middle) =>
        match runMapped f ctx rest middle with
        | (.error e, after) => (.error e, after)
        | (.ok more, after) => (.ok (pieces ++ more), after) := by
  rw [runMapped, run]
  rcases fragment.emit ctx slots with e | ⟨pieces, middle⟩
  · rfl
  · simp only [Except.map, Prod.map, id, runMapped]
    rcases run ctx rest middle with ⟨e | more, after⟩
    · rfl
    · simp only [List.map_append]

/-- Fragments that write the same up to a change of the pieces do so one after
    the other, too. -/
theorem Template.runMapped_congr {f : Piece → Piece} {t : Template}
    (h : ∀ fragment ∈ t, ∀ slots, (fragment.emit ctx slots).map (Prod.map (List.map f) id) =
      (fragment.emit ctx' slots).map (Prod.map (List.map f) id))
    (slots : Slots) : t.runMapped f ctx slots = t.runMapped f ctx' slots := by
  induction t generalizing slots with
  | nil => rfl
  | cons fragment rest ih =>
    have hrest := ih fun other hother => h other (List.mem_cons_of_mem _ hother)
    rw [runMapped_cons, runMapped_cons, h fragment List.mem_cons_self]
    simp only [hrest]

/-- Contexts that look bindings up alike and lay clauses out alike run alike. -/
theorem Template.run_congr {t : Template}
    (hlookup : ∀ name ∈ t.bindings, ctx.lookup name = ctx'.lookup name)
    (hbreak : ctx.options.clauseBreak (ctx.depth + 1) = ctx'.options.clauseBreak (ctx'.depth + 1))
    (slots : Slots) : t.run ctx slots = t.run ctx' slots := by
  induction t generalizing slots with
  | nil => rfl
  | cons fragment rest ih =>
    have hemit := Fragment.emit_congr
      (fun name hname => hlookup name (List.mem_append_left _ hname)) (fun _ => hbreak) slots
    have hrest := ih fun name hname => hlookup name (List.mem_append_right _ hname)
    simp only [run, hemit, hrest]

/-! ## 2. Texts on one line -/

/-- A character on one line. -/
def Text.unbroken (c : Char) : Char :=
  if c = '\n' then ' ' else c

/-- A text on one line: a blank for every newline. -/
def Text.oneLine (s : String) : String :=
  String.ofList (s.toList.map unbroken)

/-- A piece on one line. -/
def Piece.oneLine : Piece → Piece
  | .verbatim s => .verbatim (Text.oneLine s)
  | .slot number => .slot number

theorem Text.unbroken_of_isDigit {c : Char} (h : c.isDigit = true) : unbroken c = c := by
  apply if_neg
  rintro rfl
  cases h

theorem Text.map_unbroken_toDigits (n : Nat) :
    (Nat.toDigits 10 n).map unbroken = Nat.toDigits 10 n := by
  rw [List.map_congr_left (g := id), List.map_id]
  intro c hc
  exact unbroken_of_isDigit (Nat.isDigit_of_mem_toDigits (by decide) (by decide) hc)

theorem Piece.oneLine_join (pieces : List Piece) :
    Text.oneLine (join pieces) = join (pieces.map oneLine) := by
  apply String.toList_inj.mp
  rw [Text.oneLine, toList_join, toList_join, String.toList_ofList]
  induction pieces with
  | nil => rfl
  | cons piece rest ih =>
    cases piece with
    | verbatim s =>
      rw [written_verbatim_cons, List.map_append, ih, List.map_cons, oneLine,
        written_verbatim_cons, Text.oneLine, String.toList_ofList]
    | slot number =>
      rw [written_slot_cons, List.map_cons, List.map_append, ih, Text.map_unbroken_toDigits,
        List.map_cons, oneLine, written_slot_cons]
      rfl

theorem Options.oneLine_clauseBreak (options : Options) (depth : Nat) :
    Text.oneLine (options.clauseBreak depth) = " " := by
  rw [clauseBreak]
  split <;> rfl

theorem Options.clauseBreak_of_not_pretty {options : Options} (h : options.pretty = false)
    (depth : Nat) : options.clauseBreak depth = " " := by
  rw [clauseBreak, h]
  rfl

/-- Contexts that look bindings up alike write the same on one line. -/
theorem Template.runMapped_oneLine (hlookup : ∀ name, ctx.lookup name = ctx'.lookup name)
    (t : Template) (slots : Slots) :
    t.runMapped Piece.oneLine ctx slots = t.runMapped Piece.oneLine ctx' slots := by
  apply runMapped_congr
  intro fragment _ slots
  cases fragment with
  | clauseBreak =>
    simp only [Fragment.emit, Except.map, Prod.map, List.map_cons, List.map_nil, Piece.oneLine,
      Options.oneLine_clauseBreak]
  | _ =>
    rw [Fragment.emit_congr (fun name _ => hlookup name) (fun h => by cases h)]

/-! ## 3. Counting newlines -/

/-- The characters of the fixed texts of a fragment. -/
def Fragment.chars : Fragment → List Char
  | .verbatim s => s.toList
  | .comparand _ ifNull before behind => ifNull.toList ++ before.toList ++ behind.toList
  | _ => []

/-- The characters of the fixed texts of a template. -/
def Template.chars (t : Template) : List Char :=
  t.flatMap Fragment.chars

/-- The fragment itself, if it is a line break. -/
def Fragment.breaks : Fragment → Template
  | .clauseBreak => [.clauseBreak]
  | _ => []

/-- The line breaks of a template. -/
def Template.breaks (t : Template) : Template :=
  t.flatMap Fragment.breaks

variable {slots after : Slots} {pieces : List Piece}

theorem Span.newline_notMem_pieces (span : Span) : '\n' ∉ Piece.written span.pieces := by
  rw [pieces]
  split
  · decide
  · generalize span.numbers = ns
    induction ns with
    | nil => exact List.not_mem_nil
    | cons n ns ih =>
      have hdigits : '\n' ∉ Nat.toDigits 10 n := by
        intro h
        have hdigit := Nat.isDigit_of_mem_toDigits (by decide) (by decide) h
        exact absurd hdigit (by decide)
      cases ns with
      | nil => simp [hdigits]
      | cons m ns => simpa [hdigits] using ih

theorem Fragment.count_newline_emit {fragment : Fragment} (hchars : '\n' ∉ fragment.chars)
    (hbreak : ctx.options.clauseBreak (ctx.depth + 1) = "\n")
    (h : fragment.emit ctx slots = .ok (pieces, after)) :
    (Piece.written pieces).count '\n' = fragment.breaks.length := by
  have hspan (span : Span) : (Piece.written span.pieces).count '\n' = 0 :=
    List.count_eq_zero_of_not_mem span.newline_notMem_pieces
  cases writes_of_emit h with
  | verbatim s =>
    have hs : '\n' ∉ s.toList := hchars
    simpa [breaks] using List.count_eq_zero_of_not_mem hs
  | clauseBreak =>
    rw [hbreak]
    rfl
  | value v => exact hspan _
  | values hflat => exact hspan _
  | binding h =>
    obtain ⟨span, rfl⟩ := Context.placeholdersOf_pieces h
    exact hspan span
  | ifNull ifNull before behind hlookup =>
    simp only [chars, List.mem_append, not_or] at hchars
    simpa [breaks] using List.count_eq_zero_of_not_mem hchars.1.1
  | comparand ifNull before behind hlookup h =>
    obtain ⟨span, rfl⟩ := Context.placeholdersOf_pieces h
    simp only [chars, List.mem_append, not_or] at hchars
    simp [breaks, List.count_append, hspan, List.count_eq_zero_of_not_mem hchars.1.2,
      List.count_eq_zero_of_not_mem hchars.2]

/-- **A newline for each line break** and no other, where the fixed texts have
    none and lines do break. -/
theorem Template.count_newline_run {t : Template} (hchars : '\n' ∉ t.chars)
    (hbreak : ctx.options.clauseBreak (ctx.depth + 1) = "\n")
    (h : t.run ctx slots = (.ok pieces, after)) :
    (Piece.written pieces).count '\n' = t.breaks.length := by
  induction t generalizing slots pieces with
  | nil =>
    obtain ⟨rfl, -⟩ := run_nil_eq_ok h
    rfl
  | cons fragment rest ih =>
    obtain ⟨first, middle, more, hemit, hrun, rfl⟩ := run_cons_eq_ok h
    rw [chars, List.flatMap_cons, List.mem_append, not_or] at hchars
    have hfirst := Fragment.count_newline_emit hchars.1 hbreak hemit
    have hmore := ih hchars.2 hrun
    rw [Piece.written_append, List.count_append, hfirst, hmore, breaks, breaks, List.flatMap_cons,
      List.length_append]

end SqlKit
