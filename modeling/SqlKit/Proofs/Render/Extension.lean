/-
  SqlKit/Proofs/Render/Extension.lean
  ===================================
  **Slots only grow.**

  `Slots.Extends names` is what a fragment, a template or a tree over the bindings
  `names` may do to the slots: put values behind those there are, and give spans to
  bindings among `names` that have none. It is a preorder, so it is enough to look at
  one fragment (`Fragment.Writes.extends`), and a run that fails half way has extended
  the slots as far as it came (`Template.extends_run`).

  The other two parts are about sessions. What every emission preserves, every session
  preserves (`Session.run_preserves`); so the values that slots have in the end stay at
  the front whatever follows. And steps that only look, at an argument or at what
  stands before a clause, do not see the slots (`Session.answers_of_allLook`).
-/
import SqlKit.Proofs.Render.Ledger
import SqlKit.Proofs.Render.Unshared

namespace SqlKit

/-! ## 1. Extensions -/

/-- What fragments over the bindings `names` may make of the slots. -/
structure Slots.Extends (names : List String) (slots after : Slots) : Prop where
  values : slots.values <+: after.values
  reserved : slots.reserved <+: after.reserved
  /-- A binding that has a span keeps it; one that is given a span is among `names`. -/
  spanOf? : ∀ name, after.spanOf? name = slots.spanOf? name ∨
    slots.spanOf? name = none ∧ name ∈ names

namespace Slots.Extends

variable {names more : List String} {slots middle after : Slots}

theorem refl (names : List String) (slots : Slots) : slots.Extends names slots where
  values := List.prefix_rfl
  reserved := List.prefix_rfl
  spanOf? _ := .inl rfl

theorem mono (h : slots.Extends names after) (hsubset : names ⊆ more) :
    slots.Extends more after where
  values := h.values
  reserved := h.reserved
  spanOf? name := (h.spanOf? name).imp_right fun hnew => ⟨hnew.1, hsubset hnew.2⟩

theorem trans (h : slots.Extends names middle) (h' : middle.Extends names after) :
    slots.Extends names after where
  values := h.values.trans h'.values
  reserved := h.reserved.trans h'.reserved
  spanOf? name := by
    rcases h.spanOf? name with hkept | hnew
    · rw [← hkept]
      exact h'.spanOf? name
    · exact .inr hnew

theorem take (slots : Slots) (items : List Value) : slots.Extends [] (slots.take items).2 where
  values := List.prefix_append _ _
  reserved := List.prefix_rfl
  spanOf? _ := .inl rfl

theorem reserve {name : String} (h : slots.spanOf? name = none) (count : Nat) :
    slots.Extends [name] (slots.reserve name count).2 where
  values := List.prefix_append _ _
  reserved := by
    rw [reserved_reserve]
    exact List.prefix_append _ _
  spanOf? other := by
    by_cases hother : name = other
    · subst hother
      exact .inr ⟨h, List.mem_cons_self⟩
    · exact .inl (slots.spanOf?_reserve_of_ne hother count)

/-- The bindings that have spans in the end have had them before or are among `names`. -/
theorem mem_of_mem_reserved (h : slots.Extends names after) {entry : String × Span}
    (hentry : entry ∈ after.reserved) : slots.spanOf? entry.1 ≠ none ∨ entry.1 ∈ names := by
  have hspan : after.spanOf? entry.1 ≠ none := by
    rw [Ne, Slots.spanOf?, Option.map_eq_none_iff, List.find?_eq_none]
    intro hnone
    exact hnone entry hentry (decide_eq_true rfl)
  rcases h.spanOf? entry.1 with hkept | hnew
  · exact .inl (hkept ▸ hspan)
  · exact .inr hnew.2

end Slots.Extends

variable {ctx : Context} {slots after : Slots} {pieces : List Piece}

theorem Context.extends_of_placeholdersOf {name : String}
    (h : ctx.placeholdersOf name slots = .ok (pieces, after)) : slots.Extends [name] after := by
  rcases placeholdersOf_cases h with
    ⟨span, -, -, rfl⟩ | ⟨-, -, -, rfl⟩ | ⟨value, hspan, -, -, -, rfl⟩
  · exact .refl _ _
  · exact .refl _ _
  · exact .reserve hspan _

theorem Fragment.Writes.extends {fragment : Fragment} (h : fragment.Writes ctx slots pieces after) :
    slots.Extends fragment.bindings after := by
  cases h with
  | verbatim s => exact .refl _ _
  | clauseBreak => exact .refl _ _
  | value v => exact .take slots [v]
  | values hflat => exact .take slots _
  | binding h => exact Context.extends_of_placeholdersOf h
  | ifNull ifNull before behind hlookup => exact .refl _ _
  | comparand ifNull before behind hlookup h => exact Context.extends_of_placeholdersOf h

/-- **A run extends the slots** by values and by spans for the bindings of its
    template, whether it fails or not. -/
theorem Template.extends_run (ctx : Context) (t : Template) (slots : Slots) :
    slots.Extends t.bindings (t.run ctx slots).2 := by
  induction t generalizing slots with
  | nil => exact .refl _ _
  | cons fragment rest ih =>
    simp only [run]
    rcases hemit : fragment.emit ctx slots with e | ⟨pieces, middle⟩
    · exact .refl _ _
    · have hfirst : slots.Extends (bindings (fragment :: rest)) middle :=
        (Fragment.writes_of_emit hemit).extends.mono (List.subset_append_left _ _)
      have hrest : middle.Extends (bindings (fragment :: rest)) (run ctx rest middle).2 :=
        (ih middle).mono (List.subset_append_right _ _)
      have hboth := hfirst.trans hrest
      rcases hrun : run ctx rest middle with ⟨e | more, last⟩ <;> simpa only [hrun] using hboth

/-- A fragment that cannot be written leaves the slots as they were. -/
theorem Session.write_singleton_of_failure {fragment : Fragment} {e : Error}
    (h : write ctx [fragment] slots = (.failure e, after)) : after = slots := by
  simp only [write, Template.run] at h
  rcases hemit : fragment.emit ctx slots with e' | ⟨pieces, middle⟩
  · simp only [hemit, Prod.mk.injEq] at h
    exact h.2.symm
  · simp [hemit] at h

/-! ## 2. What a session preserves -/

/-- Emissions do not depend on how deep a statement lies. -/
theorem Context.Emits.of_depth {depth : Nat}
    (h : Context.Emits { ctx with depth := depth } slots pieces after) :
    ctx.Emits slots pieces after := by
  induction h with
  | text s => exact .text s
  | shared hspan => exact .shared hspan
  | taken items => exact .taken items
  | reserved hspan hlookup hflat => exact .reserved hspan hlookup hflat
  | framed before behind _ ih => exact .framed before behind ih

namespace Session

variable (d : Dialect) {I : Slots → Prop}

theorem write_preserves
    (hstep : ∀ {slots pieces after}, I slots → ctx.Emits slots pieces after → I after)
    (t : Template) (h : I slots) : I (write ctx t slots).2 := by
  rw [slots_write]
  exact t.run_preserves hstep h

mutual

theorem runStep_preserves (ctx : Context)
    (hstep : ∀ {slots pieces after}, I slots → ctx.Emits slots pieces after → I after) :
    ∀ (step : Step) {slots : Slots}, I slots → I (runStep d ctx step slots).2
  | .value _, _, h => write_preserves hstep _ h
  | .values _, _, h => write_preserves hstep _ h
  | .binding _, _, h => write_preserves hstep _ h
  | .node (.ok _), _, h => write_preserves hstep _ h
  | .operand (.ok _), _, h => write_preserves hstep _ h
  | .node (.error _), _, h => h
  | .operand (.error _), _, h => h
  | .clauseBreak, _, h => h
  | .lookup name, _, h => by
    rw [runStep, slots_look]
    exact h
  | .denotesNull tree, _, h => by
    rw [runStep, slots_look]
    exact h
  | .nested steps, _, h =>
    run_preserves ctx.nested (fun hI hemits => hstep hI hemits.of_depth) steps h

/-- What every emission preserves holds after a session, whatever fails in it. -/
theorem run_preserves (ctx : Context)
    (hstep : ∀ {slots pieces after}, I slots → ctx.Emits slots pieces after → I after) :
    ∀ (steps : List Step) {slots : Slots}, I slots → I (run d ctx steps slots).2
  | [], _, h => h
  | step :: rest, _, h => run_preserves ctx hstep rest (runStep_preserves ctx hstep step h)

end

/-- The values that the slots have in the end stay at the front, whatever follows. -/
theorem fill_prefix_run (ctx : Context) (steps : List Step) (h : slots.InRange) :
    slots.fill ctx.args <+: (run d ctx steps slots).2.fill ctx.args := by
  have hboth := run_preserves d ctx
    (I := fun later => later.InRange ∧ slots.fill ctx.args <+: later.fill ctx.args)
    (fun hI hemits => ⟨hemits.inRange hI.1, hI.2.trans (hemits.fill_prefix hI.1)⟩) steps
    ⟨h, List.prefix_rfl⟩
  exact hboth.2

end Session

/-! ## 3. Steps that only look -/

mutual

/-- Whether a step only looks at the context, be it inside statements. -/
def Step.looks : Step → Bool
  | .lookup _ | .denotesNull _ | .clauseBreak => true
  | .nested steps => allLook steps
  | _ => false

def Step.allLook : List Step → Bool
  | [] => true
  | step :: rest => step.looks && allLook rest

end

namespace Session

variable (d : Dialect)

mutual

theorem answer_of_looks (ctx : Context) : ∀ (step : Step), step.looks = true →
    ∀ slots, runStep d ctx step slots = ((runStep d ctx step {}).1, slots)
  | .lookup name, _, slots => by
    rw [runStep, runStep]
    cases ctx.lookup name <;> rfl
  | .denotesNull tree, _, slots => by
    rw [runStep, runStep]
    cases tree >>= ctx.denotesNull <;> rfl
  | .clauseBreak, _, _ => rfl
  | .nested steps, h, slots => by
    rw [Step.looks] at h
    rw [runStep, runStep, answers_of_allLook ctx.nested steps h slots]

/-- Steps that only look leave the slots alone and answer the same whatever these are. -/
theorem answers_of_allLook (ctx : Context) : ∀ (steps : List Step), Step.allLook steps = true →
    ∀ slots, run d ctx steps slots = ((run d ctx steps {}).1, slots)
  | [], _, _ => rfl
  | step :: rest, h, slots => by
    rw [Step.allLook, Bool.and_eq_true] at h
    have hstep := answer_of_looks ctx step h.1
    have hrest := answers_of_allLook ctx rest h.2
    simp only [run]
    rw [hstep slots, hstep {}]
    simp only
    rw [hrest slots]

end

end Session

end SqlKit
