/-
  SqlKit/Proofs/Build/Steps.lean
  ==============================
  **The order of steps matters only within a field.**

  A step that fails leaves the statement as it was, and whether it fails is up to
  the step alone. Any other step changes one field: it appends to a list, replaces
  what was set before, or makes the statement distinct (`SelectStep.change`).

  So a sequence of steps has a canonical form: for each list, what the steps
  append one after the other; for the sort, the limit and the offset, what was
  set last; and whether any step was `distinct` (`Select.foldl_extend`). Sequences
  with the same canonical form (`SameFields`) make the same statement, however
  steps for different fields are interleaved. Steps may also be written down, with
  arguments that are yet to be built (`Script.foldl_attempt`).
-/
import SqlKit.Postgres
import SqlKit.Proofs.Build.WellFormed

namespace SqlKit

/-! ## 1. What a step changes -/

/-- What is added to each field of a statement, or set in its place. -/
structure Select.Change where
  distinct : Bool := false
  columns : List Node := []
  tables : List Node := []
  conditions : List Node := []
  groupBy : List Node := []
  order : Option (List (OrderItem Node)) := none
  limit : Option Nat := none
  offset : Option Nat := none

namespace SelectStep

/-- What a step changes if it takes effect. -/
def change : SelectStep Operand Node → Select.Change
  | .distinct => { distinct := true }
  | .columns xs => { columns := xs.map Operand.toColumn }
  | .table x => { tables := [x.toColumn] }
  | .condition node => { conditions := [node] }
  | .matching pairs => { conditions := (Select.matchColumns pairs).toOption.getD [] }
  | .groupBy x => { groupBy := [x.toColumn] }
  | .orderBy items => { order := items.map OrderItem.build }
  | .limit rows => { limit := rows }
  | .offset rows => { offset := rows }

/-- Whether a step takes effect. What it is tried on makes no difference
    (`Select.apply_cases`). -/
def takesEffect (step : SelectStep Operand Node) : Bool :=
  (Select.apply {} step).isOk

/-- Two sequences of steps come to the same in every field. -/
structure SameFields (steps others : List (SelectStep Operand Node)) : Prop where
  distinct : steps.any (·.change.distinct) = others.any (·.change.distinct)
  columns : steps.flatMap (·.change.columns) = others.flatMap (·.change.columns)
  tables : steps.flatMap (·.change.tables) = others.flatMap (·.change.tables)
  conditions : steps.flatMap (·.change.conditions) = others.flatMap (·.change.conditions)
  groupBy : steps.flatMap (·.change.groupBy) = others.flatMap (·.change.groupBy)
  order : (steps.filterMap (·.change.order)).getLast? = (others.filterMap (·.change.order)).getLast?
  limit : (steps.filterMap (·.change.limit)).getLast? = (others.filterMap (·.change.limit)).getLast?
  offset :
    (steps.filterMap (·.change.offset)).getLast? = (others.filterMap (·.change.offset)).getLast?

end SelectStep

namespace Select

variable {step : SelectStep Operand Node}

/-! ## 2. One step -/

/-- A statement with everything that a step changes. -/
def extend (s : Select Node) (step : SelectStep Operand Node) : Select Node where
  distinct := s.distinct || step.change.distinct
  columns := s.columns ++ step.change.columns
  tables := s.tables ++ step.change.tables
  conditions := s.conditions ++ step.change.conditions
  groupBy := s.groupBy ++ step.change.groupBy
  order := step.change.order.getD s.order
  limit := step.change.limit.getD s.limit
  offset := step.change.offset.getD s.offset

/-- A step either fails on every statement, with one and the same error, or it
    extends every statement. -/
theorem apply_cases (step : SelectStep Operand Node) :
    (∃ e, ∀ s, apply s step = .error e) ∨ ∀ s, apply s step = .ok (s.extend step) := by
  cases step with
  | table x =>
    rcases htable : x.toTable with e | table
    · left
      refine ⟨e, fun s => ?_⟩
      rw [apply, htable]
      rfl
    · right
      intro s
      obtain ⟨rfl, -⟩ := Operand.toTable_eq_ok htable
      simp [apply, htable, extend, SelectStep.change, Except.map]
  | matching pairs =>
    rcases hpairs : matchColumns pairs with e | conditions
    · left
      refine ⟨e, fun s => ?_⟩
      rw [apply, hpairs]
      rfl
    · right
      intro s
      simp [apply, hpairs, extend, SelectStep.change, Except.map, Except.toOption]
  | _ =>
    right
    intro s
    simp [apply, extend, SelectStep.change]

/-- A statement after one more step, which changes nothing if it fails. -/
def attempt (s : Select Node) (step : SelectStep Operand Node) : Select Node :=
  match s.apply step with
  | .ok after => after
  | .error _ => s

theorem attempt_of_takesEffect (h : step.takesEffect = true) (s : Select Node) :
    s.attempt step = s.extend step := by
  rcases apply_cases step with ⟨e, hfails⟩ | hextends
  · rw [SelectStep.takesEffect, hfails] at h
    cases h
  · rw [attempt, hextends]

theorem attempt_of_not_takesEffect (h : step.takesEffect = false) (s : Select Node) :
    s.attempt step = s := by
  rcases apply_cases step with ⟨e, hfails⟩ | hextends
  · rw [attempt, hfails]
  · rw [SelectStep.takesEffect, hextends] at h
    cases h

/-! ## 3. A sequence of steps -/

/-- The steps that take effect are the ones that count. -/
theorem foldl_attempt (steps : List (SelectStep Operand Node)) (s : Select Node) :
    steps.foldl attempt s = (steps.filter SelectStep.takesEffect).foldl extend s := by
  induction steps generalizing s with
  | nil => rfl
  | cons step steps ih =>
    rw [List.foldl_cons, ih]
    rcases h : step.takesEffect with _ | _
    · have hdropped : ¬step.takesEffect = true := by
        rw [h]
        exact Bool.false_ne_true
      rw [attempt_of_not_takesEffect h, List.filter_cons_of_neg hdropped]
    · rw [attempt_of_takesEffect h, List.filter_cons_of_pos h, List.foldl_cons]

/-- The last of what was set, or what there was before, after one more setting. -/
theorem getLast?_filterMap_cons_getD {α β : Type} (f : α → Option β) (x : α) (xs : List α) (b : β) :
    ((x :: xs).filterMap f).getLast?.getD b =
      (xs.filterMap f).getLast?.getD ((f x).getD b) := by
  rw [List.filterMap_cons]
  cases f x with
  | none => rfl
  | some last =>
    rw [List.getLast?_cons]
    rfl

/-- The canonical form of a sequence of steps. -/
theorem foldl_extend (steps : List (SelectStep Operand Node)) (s : Select Node) :
    steps.foldl extend s =
      { distinct := s.distinct || steps.any (·.change.distinct)
        columns := s.columns ++ steps.flatMap (·.change.columns)
        tables := s.tables ++ steps.flatMap (·.change.tables)
        conditions := s.conditions ++ steps.flatMap (·.change.conditions)
        groupBy := s.groupBy ++ steps.flatMap (·.change.groupBy)
        order := (steps.filterMap (·.change.order)).getLast?.getD s.order
        limit := (steps.filterMap (·.change.limit)).getLast?.getD s.limit
        offset := (steps.filterMap (·.change.offset)).getLast?.getD s.offset } := by
  induction steps generalizing s with
  | nil => simp
  | cons step steps ih =>
    rw [List.foldl_cons, ih]
    simp only [extend, List.any_cons, List.flatMap_cons, getLast?_filterMap_cons_getD,
      Bool.or_assoc, List.append_assoc]

/-- Steps with the same canonical form extend a statement in the same way. -/
theorem foldl_extend_congr {steps others : List (SelectStep Operand Node)}
    (h : SelectStep.SameFields steps others) (s : Select Node) :
    steps.foldl extend s = others.foldl extend s := by
  rw [foldl_extend, foldl_extend, h.distinct, h.columns, h.tables, h.conditions, h.groupBy, h.order,
    h.limit, h.offset]

end Select

/-! ## 4. Written steps -/

namespace Script

/-- What is built of written steps, those that cannot be built left out. -/
def built (written : List (SelectStep Script NodeScript)) : List (SelectStep Operand Node) :=
  written.filterMap fun next => (buildStep next).toOption

/-- A written step fails on every statement, with one and the same error, or what is
    built of it extends every statement. -/
theorem step_cases (next : SelectStep Script NodeScript) :
    (∃ e, ∀ s, step s next = .error e) ∨
      ∃ built, buildStep next = .ok built ∧ ∀ s, step s next = .ok (s.extend built) := by
  rcases hbuilt : buildStep next with e | built
  · left
    refine ⟨e, fun s => ?_⟩
    rw [step, hbuilt]
    rfl
  · have hstep (s : Select Node) : step s next = s.apply built := by
      rw [step, hbuilt]
      rfl
    rcases Select.apply_cases built with ⟨e, hfails⟩ | hextends
    · exact .inl ⟨e, fun s => (hstep s).trans (hfails s)⟩
    · exact .inr ⟨built, rfl, fun s => (hstep s).trans (hextends s)⟩

/-- Written steps are built first and taken then; those whose arguments cannot be
    built change nothing either. -/
theorem foldl_attempt (written : List (SelectStep Script NodeScript)) (s : Select Node) :
    written.foldl attempt s = (built written).foldl Select.attempt s := by
  rw [built]
  induction written generalizing s with
  | nil => rfl
  | cons next rest ih =>
    rw [List.foldl_cons, ih, List.filterMap_cons, attempt, step]
    cases buildStep next with
    | error e => rfl
    | ok step => rfl

end Script

/-! ## 5. The order of steps -/

namespace Select

/-- The statement that steps make out of the empty one. -/
def ofSteps (steps : List (SelectStep Operand Node)) : Select Node :=
  steps.foldl attempt {}

/-- Sequences whose steps that take effect have the same canonical form make the same
    statement. -/
theorem ofSteps_eq_of_sameFields {steps others : List (SelectStep Operand Node)}
    (h : SelectStep.SameFields (steps.filter SelectStep.takesEffect)
      (others.filter SelectStep.takesEffect)) : ofSteps steps = ofSteps others := by
  rw [ofSteps, ofSteps, foldl_attempt, foldl_attempt, foldl_extend_congr h]

/-- **Only the order within a field matters.** A step fails or not whatever the
    statement. Two sequences whose steps that take effect come to the same in every
    field make the same statement, which is then rendered to the same. Written steps
    are no different: whether one can be built and taken is up to the step alone, and
    what counts is what is built of them. -/
theorem ofSteps_congr :
    (∀ step : SelectStep Operand Node,
      (∃ e, ∀ s, apply s step = .error e) ∨ ∀ s, ∃ after, apply s step = .ok after) ∧
    (∀ steps others : List (SelectStep Operand Node),
      SelectStep.SameFields (steps.filter SelectStep.takesEffect)
        (others.filter SelectStep.takesEffect) →
      ofSteps steps = ofSteps others ∧
        ∀ options args, Postgres.render options (.of (.select (ofSteps steps))) args =
          Postgres.render options (.of (.select (ofSteps others))) args) ∧
    (∀ next : SelectStep Script NodeScript,
      (∃ e, ∀ s, Script.step s next = .error e) ∨ ∀ s, ∃ after, Script.step s next = .ok after) ∧
    ∀ written others : List (SelectStep Script NodeScript),
      SelectStep.SameFields ((Script.built written).filter SelectStep.takesEffect)
        ((Script.built others).filter SelectStep.takesEffect) →
      written.foldl Script.attempt {} = others.foldl Script.attempt {} ∧
        ∀ options args,
          Postgres.render options (.of (.select (written.foldl Script.attempt {}))) args =
            Postgres.render options (.of (.select (others.foldl Script.attempt {}))) args := by
  refine ⟨fun step => ?_, fun steps others h => ?_, fun next => ?_, fun written others h => ?_⟩
  · exact (apply_cases step).imp_right fun hextends s => ⟨s.extend step, hextends s⟩
  · have hsame := ofSteps_eq_of_sameFields h
    refine ⟨hsame, fun options args => ?_⟩
    rw [hsame]
  · refine (Script.step_cases next).imp_right ?_
    rintro ⟨built, -, hextends⟩ s
    exact ⟨s.extend built, hextends s⟩
  · have hsame : written.foldl Script.attempt {} = others.foldl Script.attempt {} := by
      rw [Script.foldl_attempt, Script.foldl_attempt]
      exact ofSteps_eq_of_sameFields h
    refine ⟨hsame, fun options args => ?_⟩
    rw [hsame]

/-- Steps for different fields in two orders, one of them with a table and a shorthand
    that fail, and with a limit that is replaced; and written steps, one of which cannot
    be built and another not be taken. -/
theorem ofSteps_interleaved :
    let column (name : String) : Node := .of (.identifier name)
    let steps : List (SelectStep Operand Node) :=
      [.columns [.text "a"], .limit 5, .table (.text "t"), .table (.node (.of (.integer 1))),
        .distinct, .matching [("x", .int64 1), ("y", .text "s")], .columns [.text "b"],
        .matching [("x", .int64 1), ("y", .bool true)], .limit 10]
    let others : List (SelectStep Operand Node) :=
      [.limit 10, .distinct, .matching [("x", .int64 1)], .columns [.identifier "a", .identifier "b"],
        .distinct, .condition (.binary .equal (column "y") (.of (.string "s"))),
        .table (.identifier "t")]
    let written : List (SelectStep Script NodeScript) :=
      [.table (.text "t"), .condition (.binary .equal (.identifier "x") (.node (.literal .null))),
        .condition (.literal (.bool true)), .table (.node (.literal (.int64 1))),
        .columns [.text "a"]]
    let reordered : List (SelectStep Script NodeScript) :=
      [.columns [.identifier "a"], .table (.text "t"), .matching [("x", .null)]]
    SelectStep.SameFields (steps.filter SelectStep.takesEffect)
        (others.filter SelectStep.takesEffect) ∧
      ofSteps steps = ofSteps others ∧
      ofSteps others =
        { distinct := true
          columns := [column "a", column "b"]
          tables := [column "t"]
          conditions := [.binary .equal (column "x") (.of (.integer 1)),
            .binary .equal (column "y") (.of (.string "s"))]
          limit := 10 } ∧
      SelectStep.SameFields ((Script.built written).filter SelectStep.takesEffect)
        ((Script.built reordered).filter SelectStep.takesEffect) ∧
      written.foldl Script.attempt {} = reordered.foldl Script.attempt {} := by
  intro column steps others written reordered
  have hsame : SelectStep.SameFields (steps.filter SelectStep.takesEffect)
      (others.filter SelectStep.takesEffect) := ⟨rfl, rfl, rfl, rfl, rfl, rfl, rfl, rfl⟩
  have hwritten : SelectStep.SameFields ((Script.built written).filter SelectStep.takesEffect)
      ((Script.built reordered).filter SelectStep.takesEffect) :=
    ⟨rfl, rfl, rfl, rfl, rfl, rfl, rfl, rfl⟩
  exact ⟨hsame, (ofSteps_congr.2.1 steps others hsame).1, rfl, hwritten,
    (ofSteps_congr.2.2.2 written reordered hwritten).1⟩

end Select

end SqlKit
