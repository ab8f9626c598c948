/-
  SqlKit/Proofs/Render/Spacing.lean
  =================================
  **Templates whose text can be read back.**

  A placeholder is read with all the digits that follow it, so it must not be
  followed by any. A template is `Spaced` if none of its fixed texts has a dollar
  sign and what stands behind each placeholder `Opens` with something other than
  a digit. The pieces of every run of such a template are legible
  (`legible_run`).

  Both predicates are about one template, and the third section says how they
  carry over to templates put together from others.
-/
import SqlKit.Proofs.Render.Emission
import SqlKit.Proofs.Text.Placeholder

namespace SqlKit

variable {ctx : Context} {slots after : Slots} {pieces : List Piece}

/-! ## 1. Texts and templates in sight of a placeholder -/

/-- A text that is not empty and does not begin with a digit. -/
def Text.Separates (cs : List Char) : Prop :=
  cs.head?.any (fun c => !c.isDigit) = true

instance (cs : List Char) : Decidable (Text.Separates cs) :=
  inferInstanceAs (Decidable (_ = true))

theorem Text.separates_iff {cs : List Char} :
    Separates cs ↔ ∃ c rest, cs = c :: rest ∧ c.isDigit = false := by
  cases cs <;> simp [Separates]

theorem Text.Separates.append {cs : List Char} (h : Separates cs) (ds : List Char) :
    Separates (cs ++ ds) := by
  obtain ⟨c, rest, rfl, hc⟩ := separates_iff.mp h
  exact separates_iff.mpr ⟨c, rest ++ ds, rfl, hc⟩

theorem Text.Separates.noDigitFirst {cs : List Char} (h : Separates cs) : NoDigitFirst cs := by
  obtain ⟨c, rest, rfl, hc⟩ := separates_iff.mp h
  exact (noDigitFirst_cons c rest).mpr hc

namespace Template

/-- Whether the text begins with something other than a digit, if it is not
    empty. -/
def Opens : Template → Prop
  | [] => True
  | .verbatim s :: rest => Text.Separates s.toList ∨ s = "" ∧ Opens rest
  | .comparand _ ifNull before _ :: _ =>
    Text.Separates ifNull.toList ∧ Text.Separates before.toList
  | _ :: _ => True

/-- No fixed text has a dollar sign, and what stands behind a placeholder opens
    with something other than a digit. -/
def Spaced : Template → Prop
  | [] => True
  | .verbatim s :: rest => '$' ∉ s.toList ∧ Spaced rest
  | .comparand _ ifNull before behind :: rest =>
    '$' ∉ ifNull.toList ∧ '$' ∉ before.toList ∧ '$' ∉ behind.toList ∧
      Text.Separates behind.toList ∧ Spaced rest
  | .clauseBreak :: rest | .fail _ :: rest => Spaced rest
  | .value _ :: rest | .values _ :: rest | .binding _ :: rest => Opens rest ∧ Spaced rest

end Template

/-! ## 2. Runs of a spaced template -/

theorem Span.legible_pieces_append (span : Span) {rest : List Piece}
    (hfirst : Text.NoDigitFirst (Piece.written rest)) (hrest : Piece.Legible rest) :
    Piece.Legible (span.pieces ++ rest) := by
  unfold pieces
  split
  · exact ⟨by decide, hrest⟩
  · generalize span.numbers = ns
    induction ns with
    | nil => exact hrest
    | cons n ns ih =>
      cases ns with
      | nil => exact ⟨hfirst, hrest⟩
      | cons m ns => exact ⟨by simp [Piece.written, Piece.text], by decide, ih⟩

theorem Span.separates_pieces (span : Span) : Text.Separates (Piece.written span.pieces) := by
  unfold pieces
  split
  · decide
  · rename_i h
    rcases hnumbers : span.numbers with _ | ⟨n, _ | ⟨m, ns⟩⟩
    · rw [numbers, List.range'_eq_nil_iff] at hnumbers
      exact absurd hnumbers h
    · exact Text.separates_iff.mpr ⟨'$', _, Piece.written_slot_cons n _, rfl⟩
    · exact Text.separates_iff.mpr ⟨'$', _, Piece.written_slot_cons n _, rfl⟩

theorem Context.placeholdersOf_pieces {name : String}
    (h : ctx.placeholdersOf name slots = .ok (pieces, after)) :
    ∃ span : Span, pieces = span.pieces := by
  rcases placeholdersOf_cases h with ⟨span, -, rfl, -⟩ | ⟨-, -, rfl, -⟩ | ⟨value, -, -, -, rfl, -⟩
  · exact ⟨span, rfl⟩
  · exact ⟨⟨0, 0⟩, rfl⟩
  · exact ⟨_, rfl⟩

namespace Fragment

/-- The pieces a fragment writes before `more` can be read back if the fragment
    is spaced and `more` opens as it has to. -/
theorem legible_emit {fragment : Fragment} {t : Template} {more : List Piece}
    (hspaced : Template.Spaced (fragment :: t))
    (h : fragment.emit ctx slots = .ok (pieces, after))
    (hfirst : t.Opens → Text.NoDigitFirst (Piece.written more)) (hmore : Piece.Legible more) :
    Piece.Legible (pieces ++ more) := by
  cases writes_of_emit h with
  | verbatim s => exact ⟨hspaced.1, hmore⟩
  | clauseBreak =>
    refine ⟨?_, hmore⟩
    unfold Options.clauseBreak
    split <;> decide
  | value v => exact Span.legible_pieces_append _ (hfirst hspaced.1) hmore
  | values hflat => exact Span.legible_pieces_append _ (hfirst hspaced.1) hmore
  | binding h =>
    obtain ⟨span, rfl⟩ := Context.placeholdersOf_pieces h
    exact Span.legible_pieces_append _ (hfirst hspaced.1) hmore
  | ifNull ifNull before behind hlookup => exact ⟨hspaced.1, hmore⟩
  | comparand ifNull before behind hlookup h =>
    obtain ⟨-, hbefore, hbehind, hseparates, -⟩ := hspaced
    obtain ⟨span, rfl⟩ := Context.placeholdersOf_pieces h
    rw [List.cons_append, List.cons_append, List.append_assoc]
    refine ⟨hbefore, Span.legible_pieces_append span ?_ ⟨hbehind, hmore⟩⟩
    exact (hseparates.append _).noDigitFirst

/-- A fragment that opens does so however it is written. -/
theorem noDigitFirst_emit {fragment : Fragment} {t : Template} {more : List Piece}
    (hopens : Template.Opens (fragment :: t))
    (h : fragment.emit ctx slots = .ok (pieces, after))
    (hmore : t.Opens → Text.NoDigitFirst (Piece.written more)) :
    Text.NoDigitFirst (Piece.written (pieces ++ more)) := by
  have hspan (span : Span) : Text.NoDigitFirst (Piece.written (span.pieces ++ more)) := by
    rw [Piece.written_append]
    exact (span.separates_pieces.append _).noDigitFirst
  cases writes_of_emit h with
  | verbatim s =>
    rcases hopens with hs | ⟨rfl, ht⟩
    · exact (hs.append _).noDigitFirst
    · exact hmore ht
  | clauseBreak =>
    unfold Options.clauseBreak
    split <;> exact (Text.noDigitFirst_cons _ _).mpr (by decide)
  | value v => exact hspan _
  | values hflat => exact hspan _
  | binding h =>
    obtain ⟨span, rfl⟩ := Context.placeholdersOf_pieces h
    exact hspan span
  | ifNull ifNull before behind hlookup => exact (hopens.1.append _).noDigitFirst
  | comparand ifNull before behind hlookup h => exact (hopens.2.append _).noDigitFirst

end Fragment

namespace Template

theorem Spaced.tail {fragment : Fragment} {t : Template} (h : Spaced (fragment :: t)) :
    t.Spaced := by
  cases fragment <;> simp only [Spaced] at h <;> grind

theorem noDigitFirst_run {t : Template} (ht : t.Opens)
    (h : t.run ctx slots = (.ok pieces, after)) : Text.NoDigitFirst (Piece.written pieces) := by
  induction t generalizing slots pieces with
  | nil =>
    obtain ⟨rfl, -⟩ := run_nil_eq_ok h
    exact Text.noDigitFirst_nil
  | cons fragment rest ih =>
    obtain ⟨first, middle, more, hemit, hrun, rfl⟩ := run_cons_eq_ok h
    exact Fragment.noDigitFirst_emit ht hemit fun hrest => ih hrest hrun

/-- **The text of a spaced template can be read back**: the pieces of every run
    are legible. -/
theorem legible_run {t : Template} (ht : t.Spaced)
    (h : t.run ctx slots = (.ok pieces, after)) : Piece.Legible pieces := by
  induction t generalizing slots pieces with
  | nil =>
    obtain ⟨rfl, -⟩ := run_nil_eq_ok h
    trivial
  | cons fragment rest ih =>
    obtain ⟨first, middle, more, hemit, hrun, rfl⟩ := run_cons_eq_ok h
    exact Fragment.legible_emit ht hemit (fun hopens => noDigitFirst_run hopens hrun)
      (ih ht.tail hrun)

/-! ## 3. Putting spaced templates together -/

variable {t u : Template}

theorem Opens.append (ht : t.Opens) (hu : u.Opens) : (t ++ u).Opens := by
  induction t with
  | nil => exact hu
  | cons fragment rest ih =>
    cases fragment with
    | verbatim s =>
      rcases ht with hs | ⟨hs, hrest⟩
      · exact .inl hs
      · exact .inr ⟨hs, ih hrest⟩
    | comparand name ifNull before behind => exact ht
    | _ => trivial

theorem Spaced.append (ht : t.Spaced) (hu : u.Spaced) (hopens : u.Opens) : (t ++ u).Spaced := by
  induction t with
  | nil => exact hu
  | cons fragment rest ih =>
    have hrest := ih ht.tail
    cases fragment with
    | verbatim s => exact ⟨ht.1, hrest⟩
    | comparand name ifNull before behind =>
      exact ⟨ht.1, ht.2.1, ht.2.2.1, ht.2.2.2.1, hrest⟩
    | clauseBreak => exact hrest
    | fail e => exact hrest
    | value v => exact ⟨ht.1.append hopens, hrest⟩
    | values items => exact ⟨ht.1.append hopens, hrest⟩
    | binding name => exact ⟨ht.1.append hopens, hrest⟩

theorem opens_text_append {s : String} (hs : Text.Separates s.toList) (u : Template) :
    (text s ++ u).Opens :=
  .inl hs

theorem spaced_text {s : String} (hs : '$' ∉ s.toList) : (text s).Spaced :=
  ⟨hs, trivial⟩

theorem Spaced.text_append {s : String} (hs : '$' ∉ s.toList) (hu : u.Spaced) :
    (text s ++ u).Spaced :=
  ⟨hs, hu⟩

theorem Spaced.append_text (ht : t.Spaced) {s : String} (hs : '$' ∉ s.toList)
    (hseparates : Text.Separates s.toList) : (t ++ text s).Spaced :=
  ht.append (spaced_text hs) (opens_text_append hseparates [])

theorem Spaced.operand (ht : t.Spaced) (compound : Bool) : (t.operand compound).Spaced := by
  cases compound with
  | false => exact ht
  | true => exact (Spaced.text_append (by decide) ht).append_text (by decide) (by decide)

theorem separated_cons_cons (separator : String) (t u : Template) (ts : List Template) :
    separated separator (t :: u :: ts) = t ++ (text separator ++ separated separator (u :: ts)) :=
  rfl

theorem separated_append_cons (separator : String) (ts us : List Template) (t : Template) :
    separated separator (ts ++ t :: us) =
      ts.flatMap (· ++ text separator) ++ t ++ us.flatMap (text separator ++ ·) := by
  induction ts with
  | nil =>
    induction us generalizing t with
    | nil => simp [separated]
    | cons u us ih =>
      have hrest := ih u
      rw [List.nil_append] at hrest ⊢
      rw [separated_cons_cons, hrest]
      simp only [List.flatMap_nil, List.nil_append, List.flatMap_cons, List.append_assoc]
  | cons first ts ih =>
    rw [List.cons_append, List.flatMap_cons]
    cases ts with
    | nil =>
      rw [List.nil_append] at ih ⊢
      rw [separated_cons_cons, ih]
      simp only [List.flatMap_nil, List.nil_append, List.append_nil, List.append_assoc]
    | cons second ts =>
      rw [List.cons_append] at ih ⊢
      rw [separated_cons_cons, ih]
      simp only [List.append_assoc]

theorem spaced_separated {separator : String} (hs : '$' ∉ separator.toList)
    (hseparates : Text.Separates separator.toList) {ts : List Template}
    (hts : ∀ t ∈ ts, Spaced t) : (separated separator ts).Spaced := by
  induction ts with
  | nil => trivial
  | cons t ts ih =>
    have ht := hts t List.mem_cons_self
    have hrest := ih fun u hu => hts u (List.mem_cons_of_mem t hu)
    cases ts with
    | nil => simpa [separated] using ht
    | cons u ts =>
      rw [separated_cons_cons]
      exact ht.append (hrest.text_append hs) (opens_text_append hseparates _)

theorem Opens.inline (ht : t.Opens) : t.inline.Opens := by
  induction t with
  | nil => trivial
  | cons fragment rest ih =>
    cases fragment with
    | verbatim s =>
      rcases ht with hs | ⟨hs, hrest⟩
      · exact .inl hs
      · exact .inr ⟨hs, ih hrest⟩
    | clauseBreak => exact .inl (by decide)
    | comparand name ifNull before behind => exact ht
    | _ => trivial

theorem Spaced.inline (ht : t.Spaced) : t.inline.Spaced := by
  induction t with
  | nil => trivial
  | cons fragment rest ih =>
    have hrest := ih ht.tail
    cases fragment with
    | verbatim s => exact ⟨ht.1, hrest⟩
    | comparand name ifNull before behind =>
      exact ⟨ht.1, ht.2.1, ht.2.2.1, ht.2.2.2.1, hrest⟩
    | clauseBreak => exact ⟨by decide, hrest⟩
    | fail e => exact hrest
    | value v => exact ⟨ht.1.inline, hrest⟩
    | values items => exact ⟨ht.1.inline, hrest⟩
    | binding name => exact ⟨ht.1.inline, hrest⟩

end Template

end SqlKit
