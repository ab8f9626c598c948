/-
  SqlKit/Proofs/Row/Lookup.lean
  =============================
  **Finding columns by name.**

  The value that a row has under a name is that of the first column whose name is the
  same (`Row.FirstMatch`), and there is none if no column has such a name (`Row.Lacks`).
  One column of the name is found wherever it stands (`Row.value?_of_only`).

  The columns of a name are seen as the list of their values (`Row.valuesNamed`). The
  first of these is the one found, and no other column of the row shows in them.
-/
import SqlKit.Row.Basic

namespace SqlKit

/-- Names that are the same as one name are the same as each other. -/
theorem Text.sameName_of_common {a b c : String} (ha : sameName c a = true)
    (hb : sameName c b = true) : sameName a b = true := by
  rw [sameName_iff] at ha hb ⊢
  exact ha.symm.trans hb

namespace Row

/-- The first column of that name holds the value. -/
def FirstMatch (row : Row) (name : String) (value : Value) : Prop :=
  ∃ before spelling after, row.columns = before ++ (spelling, value) :: after ∧
    Text.sameName spelling name = true ∧
    ∀ column ∈ before, Text.sameName column.1 name = false

/-- No column has that name. -/
def Lacks (row : Row) (name : String) : Prop :=
  ∀ column ∈ row.columns, Text.sameName column.1 name = false

instance (row : Row) (name : String) : Decidable (row.Lacks name) :=
  inferInstanceAs (Decidable (∀ column ∈ row.columns, Text.sameName column.1 name = false))

variable {row : Row} {name : String} {value : Value}

theorem value?_eq_some_iff : row.value? name = some value ↔ row.FirstMatch name value := by
  rw [value?, Option.map_eq_some_iff]
  constructor
  · rintro ⟨⟨spelling, found⟩, hfind, rfl⟩
    obtain ⟨hsame, before, after, hcolumns, hbefore⟩ := List.find?_eq_some_iff_append.mp hfind
    refine ⟨before, spelling, after, hcolumns, hsame, fun column hcolumn => ?_⟩
    exact Bool.eq_false_iff.mpr (by simpa using hbefore column hcolumn)
  · rintro ⟨before, spelling, after, hcolumns, hsame, hbefore⟩
    refine ⟨(spelling, value), List.find?_eq_some_iff_append.mpr
      ⟨hsame, before, after, hcolumns, fun column hcolumn => ?_⟩, rfl⟩
    rw [hbefore column hcolumn]
    rfl

theorem value?_eq_none_iff : row.value? name = none ↔ row.Lacks name := by
  rw [value?, Option.map_eq_none_iff, List.find?_eq_none]
  simp only [Lacks, Bool.not_eq_true]

/-- A column is found by its name if it is the only one of that name. -/
theorem value?_of_only {column : String × Value} (hmem : column ∈ row.columns)
    (hsame : Text.sameName column.1 name = true)
    (honly : ∀ other ∈ row.columns, Text.sameName other.1 name = true → other = column) :
    row.value? name = some column.2 := by
  rw [value?]
  cases hfind : row.columns.find? fun column => Text.sameName column.1 name with
  | none =>
    rw [List.find?_eq_none] at hfind
    exact absurd hsame (hfind column hmem)
  | some found =>
    have hname : Text.sameName found.1 name = true := by simpa using List.find?_some hfind
    rw [honly found (List.mem_of_find?_eq_some hfind) hname]
    rfl

/-- A column is read from the first value of its name. -/
theorem get_eq_ok_iff {t : ColumnType} {data : t.Data} :
    row.get t name = .ok data ↔
      ∃ value, row.FirstMatch name value ∧ t.decode? value = some data := by
  simp only [← value?_eq_some_iff, get, read]
  cases hvalue : row.value? name with
  | none => simp
  | some value =>
    cases hdecode : t.decode? value with
    | none => simp [hdecode]
    | some found => simp [hdecode]

/-! ## The values under a name -/

/-- The values of the columns of that name, in order. -/
def valuesNamed (row : Row) (name : String) : List Value :=
  (row.columns.filter fun column => Text.sameName column.1 name).map Prod.snd

theorem head?_valuesNamed : (row.valuesNamed name).head? = row.value? name := by
  rw [valuesNamed, List.head?_map, List.head?_filter, value?]

theorem valuesNamed_eq_nil_iff : row.valuesNamed name = [] ↔ row.Lacks name := by
  rw [valuesNamed, List.map_eq_nil_iff, List.filter_eq_nil_iff]
  simp only [Lacks, Bool.not_eq_true]

/-- Some column of that name holds the value. -/
def Has (row : Row) (name : String) (value : Value) : Prop :=
  ∃ spelling, (spelling, value) ∈ row.columns ∧ Text.sameName spelling name = true

theorem mem_valuesNamed_iff : value ∈ row.valuesNamed name ↔ row.Has name value := by
  simp only [valuesNamed, List.mem_map, List.mem_filter, Prod.exists, exists_eq_right, Has]

/-- If no other column has the name, then the one that has it is the first. -/
theorem firstMatch_of_has (hone : (row.valuesNamed name).length ≤ 1) (hhas : row.Has name value) :
    row.FirstMatch name value := by
  have hmem := mem_valuesNamed_iff.mpr hhas
  have hlength : (row.valuesNamed name).length = 1 :=
    Nat.le_antisymm hone (List.length_pos_of_mem hmem)
  obtain ⟨first, hfirst⟩ := List.length_eq_one_iff.mp hlength
  rw [hfirst, List.mem_singleton] at hmem
  rw [← value?_eq_some_iff, ← head?_valuesNamed, hfirst, hmem]
  rfl

end Row

end SqlKit
