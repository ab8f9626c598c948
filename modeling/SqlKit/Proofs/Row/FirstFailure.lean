/-
  SqlKit/Proofs/Row/FirstFailure.lean
  ===================================
  **Which error a result is read with.**

  A field fits a row (`Row.Fits`) if the first column of its name holds a value of a shape
  that its type accepts. Otherwise there is one fault (`Row.Fault`): the column is missing,
  or it has another shape, and then the error has the name of the type (`ColumnType.Called`)
  and the name of what was found.

  Rows are read in order, and in each row the fields, so a result is read with the fault
  that comes first in this order (`Schema.FirstFault`), and without an error only if every
  field fits every row. What comes after the first fault is never looked at: the error
  depends on the cells up to it (`Schema.cell`) and on nothing else.
-/
import Mathlib.Data.List.Forall2
import SqlKit.Proofs.Row.Lookup
import SqlKit.Proofs.Text.Vocabulary
import SqlKit.Row.Record

namespace SqlKit

/-! ## 1. Shapes -/

namespace ColumnType

/-- Whether a type can be read from values of a kind. -/
def accepts : ColumnType → ValueKind → Bool
  | .any, _ => true
  | .bool, kind => kind == .bool
  | .int16, kind => kind == .int16
  | .int32, kind => kind == .int16 || kind == .int32
  | .int64, kind => kind == .int16 || kind == .int32 || kind == .int64
  | .single, kind => kind == .single
  | .double, kind => kind == .single || kind == .double
  | .text, kind => kind == .text
  | .bytes, kind => kind == .bytes
  | .option inner, kind => kind == .null || inner.accepts kind

/-- Whether a value can be read depends on its kind, not on its contents. -/
theorem isSome_decode? (t : ColumnType) (v : Value) : (t.decode? v).isSome = t.accepts v.kind := by
  induction t with
  | option inner ih =>
    by_cases hnull : v = .null
    · rw [hnull]
      rfl
    · have hkind : (v.kind == ValueKind.null) = false := by
        cases v with
        | null => exact absurd rfl hnull
        | _ => rfl
      have hmap : ((option inner).decode? v).isSome = (inner.decode? v).isSome := by
        rw [decode?_option_of_ne_null hnull]
        exact Option.isSome_map
      rw [hmap, ih, accepts, hkind, Bool.false_or]
  | _ => cases v <;> rfl

end ColumnType

/-! ## 2. One field -/

namespace Row

/-- The first column of the field's name holds a value that its type accepts. -/
def Fits (row : Row) (field : Field) : Prop :=
  ∃ value, row.FirstMatch field.name value ∧ field.type.accepts value.kind = true

/-- What is wrong with a field in a row, as the error with the name of the field and, if its
    column has another shape, the names of the field's type and of what was found. -/
inductive Fault (row : Row) (field : Field) : DecodeError → Prop where
  | missing (h : row.Lacks field.name) : Fault row field (.missingColumn field.name)
  | mismatch {value : Value} {expected found : String} (h : row.FirstMatch field.name value)
      (hshape : field.type.accepts value.kind = false) (hexpected : field.type.Called expected)
      (hfound : value.kind.Called found) :
      Fault row field (.typeMismatch field.name expected found)

variable {row : Row} {field : Field} {e : DecodeError}

theorem fits_or_fault (row : Row) (field : Field) :
    row.Fits field ∨ ∃ e, row.Fault field e := by
  cases hvalue : row.value? field.name with
  | none => exact .inr ⟨_, .missing (value?_eq_none_iff.mp hvalue)⟩
  | some value =>
    have hmatch := value?_eq_some_iff.mp hvalue
    cases hshape : field.type.accepts value.kind with
    | true => exact .inl ⟨value, hmatch, hshape⟩
    | false =>
      have hexpected : field.type.Called field.type.label := ColumnType.called_iff.mpr rfl
      have hfound : value.kind.Called value.kind.label := ValueKind.called_iff.mpr rfl
      exact .inr ⟨_, .mismatch hmatch hshape hexpected hfound⟩

theorem fits_iff :
    row.Fits field ↔
      ((row.value? field.name).any fun value => field.type.accepts value.kind) = true := by
  simp only [Fits, ← value?_eq_some_iff, Option.any_eq_true]

instance (row : Row) (field : Field) : Decidable (row.Fits field) :=
  decidable_of_iff _ fits_iff.symm

theorem exists_get_of_fits (h : row.Fits field) :
    ∃ data, row.get field.type field.name = .ok data := by
  obtain ⟨value, hmatch, hshape⟩ := h
  rw [← ColumnType.isSome_decode?, Option.isSome_iff_exists] at hshape
  obtain ⟨data, hdecode⟩ := hshape
  exact ⟨data, get_eq_ok_iff.mpr ⟨value, hmatch, hdecode⟩⟩

theorem get_of_fault (h : row.Fault field e) : row.get field.type field.name = .error e := by
  cases h with
  | missing hlacks => simp only [get, value?_eq_none_iff.mpr hlacks]
  | mismatch hmatch hshape hexpected hfound =>
    rw [ColumnType.called_iff.mp hexpected, ValueKind.called_iff.mp hfound]
    rw [← ColumnType.isSome_decode?, Option.isSome_eq_false_iff, Option.isNone_iff_eq_none]
      at hshape
    simp only [get, value?_eq_some_iff.mpr hmatch, read, hshape]

theorem Fits.not_fault (hfits : row.Fits field) : ¬row.Fault field e := by
  intro hfault
  obtain ⟨data, hget⟩ := exists_get_of_fits hfits
  rw [get_of_fault hfault] at hget
  cases hget

/-- A field has one fault at most in a row. -/
theorem Fault.unique {e' : DecodeError} (h : row.Fault field e) (h' : row.Fault field e') :
    e = e' := by
  have hget := get_of_fault h
  rw [get_of_fault h'] at hget
  exact (Except.error.inj hget).symm

end Row

/-! ## 3. The fields of a row -/

/-- A row is read if all fields fit it, and otherwise fails with the fault of the first field
    that does not. -/
theorem Record.decode_outcome (schema : Schema) (row : Row) :
    ((∀ field ∈ schema, row.Fits field) ∧ ∃ record, decode schema row = .ok record) ∨
    ∃ before field after e, schema = before ++ field :: after ∧
      (∀ other ∈ before, row.Fits other) ∧ row.Fault field e ∧ decode schema row = .error e := by
  induction schema with
  | nil => exact .inl ⟨List.forall_mem_nil _, (), rfl⟩
  | cons field rest ih =>
    rcases row.fits_or_fault field with hfits | ⟨e, hfault⟩
    · obtain ⟨data, hget⟩ := Row.exists_get_of_fits hfits
      rcases ih with ⟨hall, others, hothers⟩ | ⟨before, other, after, e, hrest, hbefore, hfault, he⟩
      · refine .inl ⟨List.forall_mem_cons.mpr ⟨hfits, hall⟩, (data, others), ?_⟩
        exact decode_cons_eq_ok_iff.mpr ⟨hget, hothers⟩
      · refine .inr ⟨field :: before, other, after, e, ?_, ?_, hfault, ?_⟩
        · rw [hrest]
          rfl
        · exact List.forall_mem_cons.mpr ⟨hfits, hbefore⟩
        · simp only [decode, hget, he]
          rfl
    · refine .inr ⟨[], field, rest, e, rfl, List.forall_mem_nil _, hfault, ?_⟩
      simp only [decode, Row.get_of_fault hfault]

theorem Record.exists_decode_iff {schema : Schema} {row : Row} :
    (∃ record, decode schema row = .ok record) ↔ ∀ field ∈ schema, row.Fits field := by
  rcases decode_outcome schema row with
    ⟨hall, hread⟩ | ⟨before, field, after, e, hschema, -, hfault, he⟩
  · exact ⟨fun _ => hall, fun _ => hread⟩
  · constructor
    · rintro ⟨record, hrecord⟩
      rw [he] at hrecord
      cases hrecord
    · intro hall
      have hmem : field ∈ schema := by simp [hschema]
      exact absurd hfault (hall field hmem).not_fault

/-! ## 4. The rows of a result -/

/-- A result is read row by row, or fails with the error of the first row that does. -/
theorem decodeAll_outcome {α : Type} (decode : Row → Except DecodeError α) (rows : List Row) :
    (∃ as, List.Forall₂ (fun row a => decode row = .ok a) rows as ∧
      decodeAll decode rows = .ok as) ∨
    ∃ before row after e, rows = before ++ row :: after ∧
      (∀ other ∈ before, ∃ a, decode other = .ok a) ∧ decode row = .error e ∧
      decodeAll decode rows = .error e := by
  induction rows with
  | nil => exact .inl ⟨[], .nil, rfl⟩
  | cons row rest ih =>
    cases hrow : decode row with
    | error e =>
      refine .inr ⟨[], row, rest, e, rfl, List.forall_mem_nil _, hrow, ?_⟩
      rw [decodeAll, hrow]
    | ok a =>
      rcases ih with ⟨as, hread, hok⟩ | ⟨before, other, after, e, hrest, hbefore, herror, he⟩
      · refine .inl ⟨a :: as, .cons hrow hread, ?_⟩
        simp only [decodeAll, hrow, hok]
        rfl
      · refine .inr ⟨row :: before, other, after, e, ?_, ?_, herror, ?_⟩
        · rw [hrest]
          rfl
        · exact List.forall_mem_cons.mpr ⟨⟨a, hrow⟩, hbefore⟩
        · simp only [decodeAll, hrow, he]
          rfl

namespace Schema

/-- The field at place `j` is at fault in the row at place `i`. -/
def FaultAt (schema : Schema) (rows : List Row) (i j : Nat) (e : DecodeError) : Prop :=
  ∃ row field, rows[i]? = some row ∧ schema[j]? = some field ∧ row.Fault field e

/-- The fault that comes before all others, by its row first and by its field second. -/
structure FirstFault (schema : Schema) (rows : List Row) (i j : Nat) (e : DecodeError) : Prop where
  fault : schema.FaultAt rows i j e
  least : ∀ i' j' e', schema.FaultAt rows i' j' e' → i < i' ∨ i = i' ∧ j ≤ j'

/-- What is looked at for the field at place `j` in the row at place `i`. -/
def cell (schema : Schema) (rows : List Row) (i j : Nat) : Option (Field × Option Value) :=
  rows[i]?.bind fun row => schema[j]?.map fun field => (field, row.value? field.name)

variable {schema : Schema} {rows : List Row} {i j : Nat} {e : DecodeError}

/-- There is one first fault at most. -/
theorem FirstFault.unique {i' j' : Nat} {e' : DecodeError} (h : schema.FirstFault rows i j e)
    (h' : schema.FirstFault rows i' j' e') : e = e' := by
  have hle := h.least i' j' e' h'.fault
  have hge := h'.least i j e h.fault
  obtain ⟨rfl, rfl⟩ : i = i' ∧ j = j' := by omega
  obtain ⟨row, field, hrow, hfield, hfault⟩ := h.fault
  obtain ⟨row', field', hrow', hfield', hfault'⟩ := h'.fault
  rw [hrow] at hrow'
  rw [hfield] at hfield'
  cases hrow'
  cases hfield'
  exact hfault.unique hfault'

/-- The first row that is not read has the first fault, in the first field that does not fit. -/
theorem firstFault_of_split {before after : List Row} {row : Row} {earlier later : List Field}
    {field : Field} (hrows : rows = before ++ row :: after)
    (hbefore : ∀ other ∈ before, ∀ field ∈ schema, other.Fits field)
    (hschema : schema = earlier ++ field :: later) (hearlier : ∀ other ∈ earlier, row.Fits other)
    (hfault : row.Fault field e) : schema.FirstFault rows before.length earlier.length e where
  fault := ⟨row, field, by rw [hrows]; simp, by rw [hschema]; simp, hfault⟩
  least i' j' e' h := by
    -- A fault elsewhere is in no earlier row, and in this row in no earlier field.
    obtain ⟨row', field', hrow', hfield', hfault'⟩ := h
    rcases Nat.lt_trichotomy i' before.length with hlt | rfl | hgt
    · rw [hrows, List.getElem?_append_left hlt] at hrow'
      have hfits := hbefore row' (List.mem_of_getElem? hrow') field' (List.mem_of_getElem? hfield')
      exact absurd hfault' hfits.not_fault
    · right
      refine ⟨rfl, Nat.le_of_not_lt fun hlt => ?_⟩
      have hsame : row' = row := by simpa [hrows] using hrow'.symm
      rw [hschema, List.getElem?_append_left hlt] at hfield'
      rw [hsame] at hfault'
      exact absurd hfault' (hearlier field' (List.mem_of_getElem? hfield')).not_fault
    · exact .inl hgt

/-- Whether a place is at fault shows in its cell. -/
theorem FaultAt.of_cell_eq {schema' : Schema} {rows' : List Row} (h : schema.FaultAt rows i j e)
    (hcell : schema'.cell rows' i j = schema.cell rows i j) : schema'.FaultAt rows' i j e := by
  obtain ⟨row, field, hrow, hfield, hfault⟩ := h
  simp only [cell, hrow, hfield, Option.bind_some, Option.map_some] at hcell
  obtain ⟨row', hrow', hmap⟩ := Option.bind_eq_some_iff.mp hcell
  obtain ⟨field', hfield', hpair⟩ := Option.map_eq_some_iff.mp hmap
  obtain ⟨rfl, hvalue⟩ := Prod.mk.inj hpair
  refine ⟨row', field', hrow', hfield', ?_⟩
  cases hfault with
  | missing hlacks =>
    rw [Row.value?_eq_none_iff.mpr hlacks, Row.value?_eq_none_iff] at hvalue
    exact .missing hvalue
  | mismatch hmatch hshape hexpected hfound =>
    rw [Row.value?_eq_some_iff.mpr hmatch, Row.value?_eq_some_iff] at hvalue
    exact .mismatch hvalue hshape hexpected hfound

/-- A first fault stays the first as long as the cells up to it are the same. -/
theorem FirstFault.of_cells_eq {schema' : Schema} {rows' : List Row}
    (h : schema.FirstFault rows i j e)
    (hcells : ∀ i' j', i' < i ∨ i' = i ∧ j' ≤ j →
      schema'.cell rows' i' j' = schema.cell rows i' j') : schema'.FirstFault rows' i j e where
  fault := h.fault.of_cell_eq (hcells i j (.inr ⟨rfl, Nat.le_refl j⟩))
  least i' j' e' h' := by
    -- A fault up to there would be one of the other result as well.
    by_cases hupto : i' < i ∨ i' = i ∧ j' ≤ j
    · exact h.least i' j' e' (h'.of_cell_eq (hcells i' j' hupto).symm)
    · omega

/-- A result is read if every field fits every row, and otherwise fails with the first fault. -/
theorem decodeAll_outcome (schema : Schema) (rows : List Row) :
    ((∀ row ∈ rows, ∀ field ∈ schema, row.Fits field) ∧
      ∃ records,
        List.Forall₂ (fun row record => Record.decode schema row = .ok record) rows records ∧
          decodeAll (Record.decode schema) rows = .ok records) ∨
    ∃ i j e, schema.FirstFault rows i j e ∧ decodeAll (Record.decode schema) rows = .error e := by
  rcases SqlKit.decodeAll_outcome (Record.decode schema) rows with
    ⟨records, hread, hok⟩ | ⟨before, row, after, e, hrows, hbefore, hrow, he⟩
  · have hboth := hread.imp fun row record hrecord =>
      And.intro (Record.exists_decode_iff.mp ⟨record, hrecord⟩) hrecord
    exact .inl ⟨((List.forall₂_and_left rows records).mp hboth).1, records, hread, hok⟩
  · rcases Record.decode_outcome schema row with
      ⟨-, record, hrecord⟩ | ⟨earlier, field, later, e', hschema, hearlier, hfault, he'⟩
    · rw [hrow] at hrecord
      cases hrecord
    · rw [hrow] at he'
      cases he'
      have hfits : ∀ other ∈ before, ∀ field ∈ schema, other.Fits field := fun other hother =>
        Record.exists_decode_iff.mp (hbefore other hother)
      exact .inr ⟨_, _, e, firstFault_of_split hrows hfits hschema hearlier hfault, he⟩

/-- Where there is a first fault, not every field fits. -/
theorem FirstFault.not_fits (h : schema.FirstFault rows i j e) :
    ¬∀ row ∈ rows, ∀ field ∈ schema, row.Fits field := by
  intro hfits
  obtain ⟨row, field, hrow, hfield, hfault⟩ := h.fault
  have hfit := hfits row (List.mem_of_getElem? hrow) field (List.mem_of_getElem? hfield)
  exact hfit.not_fault hfault

theorem exists_decodeAll_iff :
    (∃ records, decodeAll (Record.decode schema) rows = .ok records) ↔
      ∀ row ∈ rows, ∀ field ∈ schema, row.Fits field := by
  rcases schema.decodeAll_outcome rows with ⟨hfits, records, -, hok⟩ | ⟨i, j, e, hfirst, he⟩
  · exact ⟨fun _ => hfits, fun _ => ⟨records, hok⟩⟩
  · constructor
    · rintro ⟨records, hok⟩
      rw [he] at hok
      cases hok
    · intro hfits
      exact absurd hfits hfirst.not_fits

theorem decodeAll_eq_error_iff :
    decodeAll (Record.decode schema) rows = .error e ↔ ∃ i j, schema.FirstFault rows i j e := by
  rcases schema.decodeAll_outcome rows with ⟨hfits, records, -, hok⟩ | ⟨i, j, e', hfirst, he'⟩
  · constructor
    · intro he
      rw [hok] at he
      cases he
    · rintro ⟨i, j, hfirst⟩
      exact absurd hfits hfirst.not_fits
  · constructor
    · intro he
      rw [he'] at he
      cases he
      exact ⟨i, j, hfirst⟩
    · rintro ⟨i', j', hfirst'⟩
      rw [he', hfirst.unique hfirst']

/-- A result that is read is read row by row. -/
theorem forall₂_of_decodeAll {records : List (Record schema)}
    (h : decodeAll (Record.decode schema) rows = .ok records) :
    List.Forall₂ (fun row record => Record.decode schema row = .ok record) rows records := by
  rcases schema.decodeAll_outcome rows with ⟨-, records', hread, hok⟩ | ⟨i, j, e, -, he⟩
  · rw [hok] at h
    cases h
    exact hread
  · rw [he] at h
    cases h

/-- **The first failure decides**: a result is read just if the first column of each field's
    name holds, in every row, a value of a shape that the type accepts, and then row by row,
    as each would be on its own. Otherwise it fails with the first fault, by row and then by
    field: the error has the name of the field and, for another shape, the names of its type
    and of what was found. Any result whose cells are the same up to there fails with it too. -/
theorem decodeAll_firstFault (schema : Schema) (rows : List Row) :
    ((∃ records, decodeAll (Record.decode schema) rows = .ok records) ↔
      ∀ row ∈ rows, ∀ field ∈ schema, row.Fits field) ∧
    (∀ records, decodeAll (Record.decode schema) rows = .ok records →
      List.Forall₂ (fun row record => ∀ further : List Row,
        decodeOne (Record.decode schema) (row :: further) = .ok record) rows records) ∧
    (∀ e, decodeAll (Record.decode schema) rows = .error e ↔
      ∃ i j, schema.FirstFault rows i j e) ∧
    ∀ (i j : Nat) (e : DecodeError) (schema' : Schema) (rows' : List Row),
      schema.FirstFault rows i j e →
      (∀ i' j', i' < i ∨ i' = i ∧ j' ≤ j →
        schema'.cell rows' i' j' = schema.cell rows i' j') →
      decodeAll (Record.decode schema') rows' = .error e := by
  refine ⟨exists_decodeAll_iff, ?_, fun e => decodeAll_eq_error_iff, ?_⟩
  · intro records hok
    exact (forall₂_of_decodeAll hok).imp fun row record hrecord further => hrecord
  · intro i j e schema' rows' hfirst hcells
    exact decodeAll_eq_error_iff.mpr ⟨i, j, hfirst.of_cells_eq hcells⟩

/-- The second of three rows is the first that is not read. Its second field has another
    shape, so the third one does not matter, nor does a row that has no columns at all. -/
theorem decodeAll_firstFault_shadowed :
    decodeAll (Record.decode [⟨"id", .int64⟩, ⟨"name", .option .text⟩, ⟨"born", .int32⟩])
        [⟨[("ID", .int16 1), ("Name", .null), ("born", .int32 1815), ("id", .null)]⟩,
          ⟨[("id", .int64 2), ("NAME", .bool true), ("name", .text "ada")]⟩, ⟨[]⟩] =
      .error (.typeMismatch "name" "string" "bool") ∧
    decodeAll (Record.decode [⟨"id", .int64⟩, ⟨"name", .option .text⟩, ⟨"born", .int32⟩])
        [⟨[("ID", .int16 1), ("Name", .null), ("born", .int32 1815), ("id", .null)]⟩,
          ⟨[("born", .int16 1852), ("name", .bool true), ("ID", .int64 2)]⟩] =
      .error (.typeMismatch "name" "string" "bool") ∧
    List.Forall₂ (fun row record => ∀ further : List Row,
        decodeOne (Record.decode [⟨"id", .int64⟩, ⟨"name", .option .text⟩])
          (row :: further) = .ok record)
      [⟨[("ID", .int16 1), ("Name", .null), ("id", .null)]⟩]
      [((1 : Int64), (none : Option String), ())] := by
  have hfirst : FirstFault [⟨"id", .int64⟩, ⟨"name", .option .text⟩, ⟨"born", .int32⟩]
      [⟨[("ID", .int16 1), ("Name", .null), ("born", .int32 1815), ("id", .null)]⟩,
        ⟨[("id", .int64 2), ("NAME", .bool true), ("name", .text "ada")]⟩, ⟨[]⟩] 1 1
      (.typeMismatch "name" "string" "bool") :=
    @firstFault_of_split _ _ _ [_] _ _ [_] _ _ rfl (by decide) rfl (by decide)
      (.mismatch ⟨[("id", .int64 2)], "NAME", [("name", .text "ada")], rfl, by decide, by decide⟩
        rfl (.option (.own (by decide))) (by decide))
  refine ⟨?_, ?_, ?_⟩
  · exact ((decodeAll_firstFault _ _).2.2.1 _).mpr ⟨1, 1, hfirst⟩
  · refine (decodeAll_firstFault _ _).2.2.2 1 1 _ _ _ hfirst ?_
    rintro i j (hi | ⟨rfl, hj⟩)
    · obtain rfl : i = 0 := by omega
      rfl
    · obtain rfl | rfl : j = 0 ∨ j = 1 := by omega
      · rfl
      · rfl
  · exact (decodeAll_firstFault _ _).2.1 _ rfl

end Schema

end SqlKit
