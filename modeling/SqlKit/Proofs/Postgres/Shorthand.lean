/-
  SqlKit/Proofs/Postgres/Shorthand.lean
  =====================================
  **The shorthand for conditions, written out.**

  Pairs of a column and a value stand for conditions that could be written out one
  by one: an equation with the literal of the value, or a membership test in a list
  (`Script.comparison`). They may be the entries of arguments, where a column stands
  once, or be given as they are, where it may stand twice. The shorthand has its own
  way of making conditions and its own error, which names the column and what was
  given for it. It takes the pairs if all values are comparable, and makes of them
  what the written out conditions make, one step each (`Script.step_matching`); it is
  all or nothing.

  What a condition of the shorthand says is `Compares`: a null value is tested for,
  and an empty list still has something between its parentheses.
-/
import Mathlib.Data.List.Forall2
import SqlKit.Build.Script
import SqlKit.Proofs.Postgres.Membership
import SqlKit.Proofs.Text.Vocabulary

namespace SqlKit

/-! ## 1. What can be compared -/

/-- Whether a column can be compared with a value: null, an integer, a text, or a
    list with no list among its items. -/
def Value.isComparable : Value → Bool
  | .null | .int16 _ | .int32 _ | .int64 _ | .text _ => true
  | .list items => items.all fun item => !item.isList
  | _ => false

theorem Value.hasNested_eq_not_isComparable (items : List Value) :
    hasNested items = !(Value.list items).isComparable := by
  simp [hasNested, isComparable, List.not_all_eq_any_not]

theorem Value.hasNested_of_isComparable {items : List Value}
    (h : (Value.list items).isComparable = true) : hasNested items = false := by
  rw [hasNested_eq_not_isComparable, h]
  rfl

namespace Script

/-- A pair of the shorthand as a condition written out. -/
def comparison (column : String) : Value → NodeScript
  | .list items => .memberOf (.node (.receiver (.identifier column))) (.values items)
  | value => .binary .equal (.node (.receiver (.identifier column))) (.node (.literal value))

/-- The pairs of the shorthand written out, one condition after the other. -/
def writtenOut (pairs : List (String × Value)) : List (SelectStep Script NodeScript) :=
  pairs.map fun pair => .condition (comparison pair.1 pair.2)

end Script

/-! ## 2. One pair -/

namespace Select

variable {column : String} {value : Value} {condition : Node}

/-- What can be compared is made a condition, the one that is written out. -/
theorem exists_matchColumn (column : String) (h : value.isComparable = true) :
    ∃ condition, matchColumn column value = .ok condition ∧
      Script.buildNode (Script.comparison column value) = .ok condition := by
  cases value with
  | list items =>
    have hflat : Value.hasNested items = false := Value.hasNested_of_isComparable h
    refine ⟨(Node.of (.identifier column)).memberOf (.of (.list items)), ?_, rfl⟩
    simp only [matchColumn, hflat, Bool.false_eq_true, if_false]
  | null => exact ⟨_, rfl, rfl⟩
  | int16 n => exact ⟨_, rfl, rfl⟩
  | int32 n => exact ⟨_, rfl, rfl⟩
  | int64 n => exact ⟨_, rfl, rfl⟩
  | text s => exact ⟨_, rfl, rfl⟩
  | _ => cases h

theorem matchColumn_eq_error (column : String) (h : value.isComparable = false) :
    matchColumn column value = .error (.invalidCondition column value.kind) := by
  cases value with
  | list items =>
    have hnested : Value.hasNested items = true := by
      rw [Value.hasNested_eq_not_isComparable, h]
      rfl
    simp only [matchColumn, hnested, if_true]
    rfl
  | bool b => rfl
  | single x => rfl
  | double x => rfl
  | bytes b => rfl
  | _ => cases h

theorem isComparable_of_matchColumn (h : matchColumn column value = .ok condition) :
    value.isComparable = true := by
  cases hvalue : value.isComparable with
  | true => rfl
  | false =>
    rw [matchColumn_eq_error column hvalue] at h
    cases h

theorem build_comparison (h : matchColumn column value = .ok condition) :
    Script.buildNode (Script.comparison column value) = .ok condition := by
  obtain ⟨other, hother, hbuild⟩ := exists_matchColumn column (isComparable_of_matchColumn h)
  obtain rfl : condition = other := Except.ok.inj (h.symm.trans hother)
  exact hbuild

/-! ## 3. All pairs -/

variable {pairs : List (String × Value)}

/-- The conditions of the shorthand are those of its pairs. -/
theorem matchColumns_eq_ok_iff {conditions : List Node} :
    matchColumns pairs = .ok conditions ↔
      List.Forall₂ (fun pair condition => matchColumn pair.1 pair.2 = .ok condition)
        pairs conditions := by
  induction pairs generalizing conditions with
  | nil =>
    rw [matchColumns, Except.ok.injEq, List.forall₂_nil_left_iff]
    exact eq_comm
  | cons pair rest ih =>
    obtain ⟨column, value⟩ := pair
    rw [matchColumns]
    rcases hfirst : matchColumn column value with e | condition
    · simp [List.forall₂_cons_left_iff, hfirst]
    · rcases hrest : matchColumns rest with e | more
      · simp [List.forall₂_cons_left_iff, hfirst, ← ih, hrest, Except.map]
      · simp only [List.forall₂_cons_left_iff, hfirst, ← ih, hrest, Except.map, Except.ok.injEq,
          ↓existsAndEq, true_and]
        exact eq_comm

/-- The shorthand fails at the first value that cannot be compared. -/
theorem matchColumns_eq_error_iff {e : Error} :
    matchColumns pairs = .error e ↔
      ∃ first, pairs.find? (fun pair => !pair.2.isComparable) = some first ∧
        e = .invalidCondition first.1 first.2.kind := by
  induction pairs with
  | nil => simp [matchColumns]
  | cons pair rest ih =>
    obtain ⟨column, value⟩ := pair
    rw [matchColumns]
    cases hvalue : value.isComparable with
    | false =>
      rw [matchColumn_eq_error column hvalue]
      simp [hvalue, eq_comm]
    | true =>
      obtain ⟨condition, hcondition, -⟩ := exists_matchColumn column hvalue
      rw [hcondition, List.find?_cons_of_neg (by simp [hvalue]), ← ih]
      rcases matchColumns rest with e' | conditions <;> simp [Except.map]

theorem exists_matchColumns_iff :
    (∃ conditions, matchColumns pairs = .ok conditions) ↔
      ∀ pair ∈ pairs, pair.2.isComparable = true := by
  constructor
  · rintro ⟨conditions, h⟩ pair hpair
    have hnone : pairs.find? (fun pair => !pair.2.isComparable) = none := by
      rcases hfind : pairs.find? _ with _ | first
      · rfl
      · have herror := matchColumns_eq_error_iff.mpr ⟨first, hfind, rfl⟩
        rw [h] at herror
        cases herror
    simpa using List.find?_eq_none.mp hnone pair hpair
  · intro h
    rcases hpairs : matchColumns pairs with e | conditions
    · obtain ⟨first, hfirst, -⟩ := matchColumns_eq_error_iff.mp hpairs
      have hcomparable := h first (List.mem_of_find?_eq_some hfirst)
      have hnot := List.find?_some hfirst
      simp [hcomparable] at hnot
    · exact ⟨conditions, rfl⟩

/-- Written out, the conditions are added one after the other. -/
theorem buildSteps_writtenOut {conditions : List Node} (h : matchColumns pairs = .ok conditions)
    (s : Select Node) : Script.buildSteps s (Script.writtenOut pairs) =
      .ok { s with conditions := s.conditions ++ conditions } := by
  rw [matchColumns_eq_ok_iff] at h
  induction h generalizing s with
  | nil => rw [List.append_nil]; rfl
  | @cons pair condition rest more hfirst _ ih =>
    have hstep : Script.buildStep (.condition (Script.comparison pair.1 pair.2)) =
        .ok (.condition condition) := by
      rw [Script.buildStep, build_comparison hfirst]
      rfl
    have hrest := ih { s with conditions := s.conditions ++ [condition] }
    rw [List.append_assoc] at hrest
    rw [Script.writtenOut, List.map_cons, Script.buildSteps, hstep]
    exact hrest

end Select

/-! ## 4. What the conditions say -/

namespace Postgres

open Template (text)

/-- The text of a comparison of a column with a value, and the slots after it. -/
inductive Compares (options : Options) (slots : Slots) (column : String) :
    Value → String → Slots → Prop where
  | null : Compares options slots column .null (identText options column ++ " IS NULL") slots
  | integer {value : Value} {n : Int64} (hvalue : value.toInt64? = some n) :
    Compares options slots column value
      (identText options column ++ " = " ++ toString n.toInt) slots
  | text (s : String) : Compares options slots column (.text s)
      (identText options column ++ " = " ++ (slots.take [.text s]).1.text) (slots.take [.text s]).2
  | empty : Compares options slots column (.list [])
      (identText options column ++ " IN (NULL)") slots
  | list {items : List Value} (hitems : items ≠ []) : Compares options slots column (.list items)
      (identText options column ++ " IN (" ++ (slots.take items).1.text ++ ")") (slots.take items).2

variable {ctx : Context} {slots after : Slots} {column : String}

/-- The text of an equation of a column, given what follows the column. -/
theorem runStep_equal_eq {right : Node} {t : Template} {pieces : List Piece}
    (htemplate : dialect.template ctx.options (.binary .equal (.of (.identifier column)) right) =
      text (identText ctx.options column) ++ t)
    (hrun : t.run ctx slots = (.ok pieces, after)) :
    Session.runStep dialect ctx (.node (.ok (.binary .equal (.of (.identifier column)) right)))
        slots = (.text (identText ctx.options column ++ Piece.join pieces), after) := by
  have hall : (dialect.template ctx.options
      (.binary .equal (.of (.identifier column)) right)).run ctx slots =
      (.ok ([.verbatim (identText ctx.options column)] ++ pieces), after) := by
    rw [htemplate]
    exact Template.run_append_of_ok (Template.run_text _ _ _) hrun
  refine (Session.write_of_run hall).trans ?_
  rw [Piece.join_append, Piece.join_verbatim]

/-- A column is compared with an integer of any width. -/
theorem compares_integer {value : Value} {n : Int64} (hvalue : value.toInt64? = some n)
    (ctx : Context) (slots : Slots) :
    ∃ s after, Session.runStep dialect ctx
        (.node (.ok (.binary .equal (.of (.identifier column)) (.of (.integer n))))) slots =
          (.text s, after) ∧
      Compares ctx.options slots column value s after := by
  have hrun := Template.run_append_of_ok (Template.run_text ctx " = " slots)
    (Template.run_text ctx (toString n.toInt) slots)
  refine ⟨_, _, runStep_equal_eq (t := text " = " ++ text (toString n.toInt)) rfl hrun, ?_⟩
  rw [Piece.join_append, Piece.join_verbatim, Piece.join_verbatim, ← String.append_assoc]
  exact .integer hvalue

/-- A condition of the shorthand says that its column has the value, or one of the
    values, wherever it is rendered. -/
theorem exists_compares {value : Value} {condition : Node}
    (h : Select.matchColumn column value = .ok condition) (ctx : Context) (slots : Slots) :
    ∃ s after, Session.runStep dialect ctx (.node (.ok condition)) slots = (.text s, after) ∧
      Compares ctx.options slots column value s after := by
  have hcomparable := Select.isComparable_of_matchColumn h
  cases value with
  | null =>
    obtain rfl := Except.ok.inj h
    refine ⟨_, _, runStep_equal_eq (t := text " IS NULL") rfl (Template.run_text _ _ _), ?_⟩
    rw [Piece.join_verbatim]
    exact .null
  | int16 n =>
    obtain rfl := Except.ok.inj h
    exact compares_integer rfl ctx slots
  | int32 n =>
    obtain rfl := Except.ok.inj h
    exact compares_integer rfl ctx slots
  | int64 n =>
    obtain rfl := Except.ok.inj h
    exact compares_integer rfl ctx slots
  | text s =>
    obtain rfl := Except.ok.inj h
    have hvalue : Template.run ctx [.value (.text s)] slots =
        (.ok (slots.take [.text s]).1.pieces, (slots.take [.text s]).2) :=
      Template.run_singleton rfl
    have hrun := Template.run_append_of_ok (Template.run_text ctx " = " slots) hvalue
    refine ⟨_, _, runStep_equal_eq (t := text " = " ++ [.value (.text s)]) rfl hrun, ?_⟩
    rw [Piece.join_append, Piece.join_verbatim, Span.join_pieces, ← String.append_assoc]
    exact .text s
  | list items =>
    have hflat : Value.hasNested items = false := Value.hasNested_of_isComparable hcomparable
    obtain rfl : (Node.of (.identifier column)).memberOf (.of (.list items)) = condition := by
      rw [Select.matchColumn, hflat] at h
      exact Except.ok.inj h
    have hemit : Fragment.emit ctx slots (.values items) =
        .ok ((slots.take items).1.pieces, (slots.take items).2) := by
      rw [Fragment.emit, Slots.placeholders, hflat]
      rfl
    refine ⟨_, _, runStep_memberOf_eq (Template.run_text _ _ _) rfl hemit, ?_⟩
    rw [Piece.join_verbatim]
    cases items with
    | nil =>
      have hslots : (slots.take []).2 = slots := by
        rw [Slots.take, List.append_nil]
      rw [hslots, String.append_assoc, String.append_assoc]
      exact .empty
    | cons first rest => exact .list (List.cons_ne_nil first rest)
  | _ => cases hcomparable

end Postgres

/-! ## 5. The shorthand -/

namespace Script

/-- The conditions of the shorthand are added all at once. -/
theorem step_matching_eq (s : Select Node) (pairs : List (String × Value)) :
    step s (.matching pairs) = (Select.matchColumns pairs).map fun conditions =>
      { s with conditions := s.conditions ++ conditions } := rfl

theorem step_matching_eq_error_iff {s : Select Node} {pairs : List (String × Value)} {e : Error} :
    step s (.matching pairs) = .error e ↔
      ∃ first, pairs.find? (fun pair => !pair.2.isComparable) = some first ∧
        e = .invalidCondition first.1 first.2.kind := by
  rw [← Select.matchColumns_eq_error_iff, step_matching_eq]
  cases Select.matchColumns pairs <;> simp [Except.map]

/-- **The shorthand is the written out list of conditions, all or nothing.** It
    succeeds if and only if every value can be compared. Then the statement is the one
    with the conditions written out, one step each, and each of them compares its
    column with its value. Otherwise the error is about the first value that cannot be
    compared: its message has the name of the column and the name of what was given for
    it. The statement is left as it was. -/
theorem step_matching (s : Select Node) (pairs : List (String × Value)) :
    ((∃ after, step s (.matching pairs) = .ok after) ↔
        ∀ pair ∈ pairs, pair.2.isComparable = true) ∧
      (∀ after, step s (.matching pairs) = .ok after →
        buildSteps s (writtenOut pairs) = .ok after ∧
          ∃ conditions, after = { s with conditions := s.conditions ++ conditions } ∧
            List.Forall₂ (fun pair condition => ∀ ctx slots, ∃ text slots',
              Session.runStep Postgres.dialect ctx (.node (.ok condition)) slots =
                  (.text text, slots') ∧
                Postgres.Compares ctx.options slots pair.1 pair.2 text slots') pairs conditions) ∧
      (∀ e, step s (.matching pairs) = .error e ↔
        ∃ first, pairs.find? (fun pair => !pair.2.isComparable) = some first ∧
          e = .invalidCondition first.1 first.2.kind) ∧
      ∀ e, step s (.matching pairs) = .error e →
        attempt s (.matching pairs) = s ∧
          ∃ first found, pairs.find? (fun pair => !pair.2.isComparable) = some first ∧
            first.2.kind.Called found ∧
            e.message = "cannot use " ++ found ++ " as a condition value for `" ++ first.1 ++ "`" := by
  refine ⟨?_, fun after h => ?_, fun e => step_matching_eq_error_iff, fun e h => ⟨?_, ?_⟩⟩
  · rw [← Select.exists_matchColumns_iff, step_matching_eq]
    cases Select.matchColumns pairs <;> simp [Except.map]
  · rw [step_matching_eq] at h
    rcases hpairs : Select.matchColumns pairs with e | conditions
    · rw [hpairs] at h
      cases h
    · rw [hpairs] at h
      obtain rfl := Except.ok.inj h
      refine ⟨Select.buildSteps_writtenOut hpairs s, conditions, rfl, ?_⟩
      exact (Select.matchColumns_eq_ok_iff.mp hpairs).imp fun pair condition hcondition =>
        Postgres.exists_compares hcondition
  · rw [attempt, h]
  · obtain ⟨first, hfind, rfl⟩ := step_matching_eq_error_iff.mp h
    exact ⟨first, first.2.kind.label, hfind, ValueKind.called_iff.mpr rfl, rfl⟩

/-- A column that is given twice makes two conditions. In the longer list two values
    cannot be compared, behind others that can. -/
theorem step_matching_repeated :
    let s : Select Node := { conditions := [.of (.identifier "p")] }
    let pairs : List (String × Value) :=
      [("x", .null), ("n", .int16 3), ("t", .text "a"), ("x", .list []),
        ("y", .list [.null, .int64 1])]
    let longer := pairs ++ [("b", .list [.null, .list []]), ("c", .bool true)]
    let error := Error.invalidCondition "b" .list
    (∃ after, step s (.matching pairs) = .ok after ∧ buildSteps s (writtenOut pairs) = .ok after ∧
        (Postgres.render {} (.of (.select after)) {}).toOption.map Rendered.sql =
          some ("SELECT * WHERE ((((p AND (x IS NULL)) AND (n = 3)) AND (t = $1))" ++
            " AND x IN (NULL)) AND y IN ($2,$3)")) ∧
      step s (.matching longer) = .error error ∧ attempt s (.matching longer) = s ∧
      error.message = "cannot use list as a condition value for `b`" := by
  intro s pairs longer error
  have hall : pairs.all (fun pair => pair.2.isComparable) = true := rfl
  obtain ⟨after, hafter⟩ := (step_matching s pairs).1.mpr (List.all_eq_true.mp hall)
  have hwritten := ((step_matching s pairs).2.1 after hafter).1
  have herror : step s (.matching longer) = .error error :=
    ((step_matching s longer).2.2.1 error).mpr ⟨("b", .list [.null, .list []]), rfl, rfl⟩
  have hkept := ((step_matching s longer).2.2.2 error herror).1
  refine ⟨⟨after, hafter, hwritten, ?_⟩, herror, hkept, rfl⟩
  obtain rfl := Except.ok.inj hafter
  decide +kernel

end Script

end SqlKit
