/-
  SqlKit/Proofs/Render/Numbering.lean
  ===================================
  **Placeholder numbers of a run.**

  Whatever the template, the numbers of the placeholders a run writes, read from
  left to right, continue the numbers there are: each is an old one or the next
  (`dense_run`). So in a fresh run the first sightings are `1, 2, …`, one for
  each slot.
-/
import SqlKit.Proofs.Render.Emission
import SqlKit.Proofs.Text.Placeholder

namespace SqlKit

/-! ## 1. Numbers in the order of first sighting -/

namespace Piece

/-- The number of a piece that is a placeholder. -/
def number? : Piece → Option Nat
  | .verbatim _ => none
  | .slot number => some number

/-- The numbers of the placeholders among pieces. -/
def numbers (pieces : List Piece) : List Nat :=
  pieces.filterMap number?

@[simp]
theorem numbers_nil : numbers [] = [] := rfl

@[simp]
theorem numbers_verbatim_cons (text : String) (rest : List Piece) :
    numbers (.verbatim text :: rest) = numbers rest := rfl

@[simp]
theorem numbers_slot_cons (number : Nat) (rest : List Piece) :
    numbers (.slot number :: rest) = number :: numbers rest := rfl

@[simp]
theorem numbers_append (ps qs : List Piece) : numbers (ps ++ qs) = numbers ps ++ numbers qs :=
  List.filterMap_append

theorem numbers_intersperse_slot (ns : List Nat) :
    numbers ((ns.map slot).intersperse (.verbatim ",")) = ns := by
  induction ns with
  | nil => rfl
  | cons n ns ih =>
    cases ns with
    | nil => rfl
    | cons m ns => simpa using ih

theorem filterMap_scan_join {pieces : List Piece} (h : Legible pieces) :
    (Text.scan (join pieces).toList).filterMap Symbol.mark? = numbers pieces := by
  rw [scan_join h, List.filterMap_flatMap, numbers]
  clear h
  induction pieces with
  | nil => rfl
  | cons piece rest ih =>
    rw [List.flatMap_cons, ih]
    cases piece with
    | verbatim text =>
      rw [symbols, Symbol.filterMap_mark?_chars]
      rfl
    | slot number => rfl

end Piece

theorem Span.numbers_pieces (span : Span) : Piece.numbers span.pieces = span.numbers := by
  unfold pieces
  split
  · rename_i h
    simp [Span.numbers, h]
  · exact Piece.numbers_intersperse_slot _

/-- Where `k` numbers have been seen, `ns` shows `k' - k` new ones, in order. -/
def Dense (k : Nat) (ns : List Nat) (k' : Nat) : Prop :=
  (List.range' 1 k ++ ns).eraseDups = List.range' 1 k'

section Dense

theorem eraseDups_of_nodup {ns : List Nat} (h : ns.Nodup) : ns.eraseDups = ns := by
  induction ns with
  | nil => rfl
  | cons n ns ih =>
    rw [List.nodup_cons] at h
    have hfilter : ns.filter (fun m => !m == n) = ns := by
      rw [List.filter_eq_self]
      intro m hm
      have hne : m ≠ n := fun e => h.1 (e ▸ hm)
      simp [hne]
    rw [List.eraseDups_cons, hfilter, ih h.2]

theorem dense_of_forall_le {k : Nat} {ns : List Nat} (h : ∀ n ∈ ns, 1 ≤ n ∧ n ≤ k) :
    Dense k ns k := by
  have hold : ns.removeAll (List.range' 1 k) = [] := by
    rw [List.removeAll, List.filter_eq_nil_iff]
    intro n hn
    have := h n hn
    have hmem : n ∈ List.range' 1 k := by
      rw [List.mem_range'_1]
      omega
    simp [hmem]
  rw [Dense, List.eraseDups_append, hold, List.eraseDups_nil, List.append_nil,
    eraseDups_of_nodup List.nodup_range']

theorem dense_range' (k count : Nat) : Dense k (List.range' (k + 1) count) (k + count) := by
  have happend := @List.range'_append 1 k count 1
  rw [Nat.one_mul, Nat.add_comm 1 k] at happend
  rw [Dense, happend, eraseDups_of_nodup List.nodup_range']

theorem Dense.append {k k' k'' : Nat} {ns ms : List Nat} (h : Dense k ns k')
    (h' : Dense k' ms k'') : Dense k (ns ++ ms) k'' := by
  have hremove : ms.removeAll (List.range' 1 k ++ ns) = ms.removeAll (List.range' 1 k') := by
    rw [List.removeAll, List.removeAll]
    apply List.filter_congr
    intro m _
    have hmem : m ∈ List.range' 1 k ++ ns ↔ m ∈ List.range' 1 k' := by
      rw [← h, List.mem_eraseDups]
    simp only [List.elem_eq_mem, hmem]
  rw [Dense, List.eraseDups_append, eraseDups_of_nodup List.nodup_range'] at h'
  rw [Dense, ← List.append_assoc, List.eraseDups_append, hremove, h, h']

end Dense

/-! ## 2. Numbers of a run -/

variable {ctx : Context} {slots after : Slots} {pieces : List Piece}

theorem Context.Emits.dense (hrange : slots.InRange) (h : ctx.Emits slots pieces after) :
    Dense slots.values.length (Piece.numbers pieces) after.values.length := by
  induction h with
  | text s => exact dense_of_forall_le (by simp)
  | @shared name span hspan =>
    have hstop := hrange _ (Slots.mem_reserved_of_spanOf? hspan)
    rw [Span.numbers_pieces]
    apply dense_of_forall_le
    intro n hn
    rw [Span.numbers, List.mem_range'_1] at hn
    simp only at hstop
    omega
  | taken items =>
    rw [Span.numbers_pieces, Slots.values_take, List.length_append]
    exact dense_range' _ _
  | reserved hspan hlookup hflat =>
    rw [Span.numbers_pieces, Slots.values_reserve, List.length_append, List.length_replicate]
    exact dense_range' _ _
  | @framed pieces after before behind _ ih => simpa using ih

/-- **The numbers of a run continue those there are**: every placeholder is an
    old one or the next. -/
theorem Template.dense_run {t : Template} (hrange : slots.InRange)
    (h : t.run ctx slots = (.ok pieces, after)) :
    Dense slots.values.length (Piece.numbers pieces) after.values.length := by
  induction t generalizing slots pieces with
  | nil =>
    obtain ⟨rfl, rfl⟩ := run_nil_eq_ok h
    exact dense_of_forall_le (by simp)
  | cons fragment rest ih =>
    obtain ⟨first, middle, more, hemit, hrun, rfl⟩ := run_cons_eq_ok h
    have hstep := (Fragment.writes_of_emit hemit).emits
    rw [Piece.numbers_append]
    exact (hstep.dense hrange).append (ih (hstep.inRange hrange) hrun)

end SqlKit
