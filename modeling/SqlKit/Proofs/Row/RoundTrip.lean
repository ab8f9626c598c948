/-
  SqlKit/Proofs/Row/RoundTrip.lean
  ================================
  **A record is read back from the row it was written to.**

  A row holds a record (`Row.Holds`) if each field has a column, under any spelling of
  its name and wherever it stands, and no other column is named like a field. Such a row
  is read as that record (`Record.decode_of_holds`), provided that the fields are told
  apart by their names and that no option holds something which is written as null.

  Columns may also be narrower than their fields: an integer of fewer bits, or a single
  for a double. What is read then is the same number, and so the same datum, except that
  one NaN may come back as another.
-/
import SqlKit.Proofs.Row.Lookup
import SqlKit.Proofs.Row.Widening
import SqlKit.Row.Record

namespace SqlKit

/-! ## 1. One column -/

/-- A stored value has the contents of another and is at most as wide. -/
inductive Value.Narrows : Value → Value → Prop where
  | same (v : Value) : Narrows v v
  | int16_int32 {m : Int16} {n : Int32} (h : m.toInt = n.toInt) : Narrows (.int16 m) (.int32 n)
  | int16_int64 {m : Int16} {n : Int64} (h : m.toInt = n.toInt) : Narrows (.int16 m) (.int64 n)
  | int32_int64 {m : Int32} {n : Int64} (h : m.toInt = n.toInt) : Narrows (.int32 m) (.int64 n)
  | single_double {x : Single} {y : Double} (h : x.number = y.number) :
      Narrows (.single x) (.double y)

theorem Value.Narrows.ne_null {v w : Value} (h : v.Narrows w) (hne : w ≠ .null) : v ≠ .null := by
  cases h with
  | same => exact hne
  | _ => exact Value.noConfusion

namespace ColumnType

/-- No option holds something that is written as null itself. -/
def Faithful : (t : ColumnType) → t.Data → Prop
  | .option inner, some d => inner.encode d ≠ .null ∧ inner.Faithful d
  | _, _ => True

/-- A value stands for a datum, in its own width or a narrower one. -/
def Stores : (t : ColumnType) → t.Data → Value → Prop
  | .any, d, v => v = d
  | .option _, none, v => v = .null
  | .option inner, some d, v => inner.Stores d v
  | t, d, v => v.Narrows (t.encode d)

/-- Two data are the same, or differ in the bits of a NaN only. -/
def Alike : (t : ColumnType) → t.Data → t.Data → Prop
  | .double, x, y => x = y ∨ x.isNaN = true ∧ y.isNaN = true
  | .option inner, some d, some d' => inner.Alike d d'
  | _, d, d' => d = d'

/-- Only what is written as null is stored as null. -/
theorem ne_null_of_stores {t : ColumnType} {d : t.Data} {v : Value} (hstores : t.Stores d v)
    (hne : t.encode d ≠ .null) : v ≠ .null := by
  induction t with
  | any =>
    rw [show v = d from hstores]
    exact hne
  | option inner ih =>
    cases d with
    | none => exact absurd rfl hne
    | some d => exact ih hstores hne
  | _ => exact Value.Narrows.ne_null hstores hne

/-- What a datum is written as is read as that datum. -/
theorem decode?_encode {t : ColumnType} {d : t.Data} (hfaithful : t.Faithful d) :
    t.decode? (t.encode d) = some d := by
  induction t with
  | option inner ih =>
    cases d with
    | none => rfl
    | some d =>
      rw [encode, decode?_option_of_ne_null hfaithful.1, ih hfaithful.2]
      rfl
  | _ => rfl

/-- What a datum is stored as, be it in a narrower width, is read as that datum again, where
    one NaN counts as another. -/
theorem exists_decode?_of_stores {t : ColumnType} {d : t.Data} {v : Value}
    (hfaithful : t.Faithful d) (hstores : t.Stores d v) :
    ∃ d', t.decode? v = some d' ∧ t.Alike d' d := by
  induction t with
  | any => exact ⟨v, rfl, hstores⟩
  | option inner ih =>
    cases d with
    | none =>
      rw [show v = .null from hstores]
      exact ⟨none, rfl, rfl⟩
    | some d =>
      obtain ⟨d', hdecode, halike⟩ := ih hfaithful.2 hstores
      have hne : v ≠ .null := ne_null_of_stores hstores hfaithful.1
      refine ⟨some d', ?_, halike⟩
      rw [decode?_option_of_ne_null hne, hdecode]
      rfl
  | int32 =>
    cases hstores with
    | same => exact ⟨d, rfl, rfl⟩
    | int16_int32 h =>
      refine ⟨_, rfl, Int32.toInt_inj.mp ?_⟩
      rw [Int16.toInt_toInt32, h]
  | int64 =>
    cases hstores with
    | same => exact ⟨d, rfl, rfl⟩
    | int16_int64 h =>
      refine ⟨_, rfl, Int64.toInt_inj.mp ?_⟩
      rw [Int16.toInt_toInt64, h]
    | int32_int64 h =>
      refine ⟨_, rfl, Int64.toInt_inj.mp ?_⟩
      rw [Int32.toInt_toInt64, h]
  | double =>
    cases hstores with
    | same => exact ⟨d, rfl, .inl rfl⟩
    | @single_double x y h => exact ⟨x.widen, rfl, Double.eq_of_number_eq (x.number_widen.trans h)⟩
  | _ =>
    cases hstores
    exact ⟨d, rfl, rfl⟩

end ColumnType

/-! ## 2. Whole rows -/

namespace Record

/-- No option among the fields holds something that is written as null itself. -/
def Faithful : (schema : Schema) → Record schema → Prop
  | [], _ => True
  | field :: rest, (data, others) => field.type.Faithful data ∧ Faithful rest others

/-- Two records are related field by field. -/
def Each (related : (t : ColumnType) → t.Data → t.Data → Prop) :
    (schema : Schema) → Record schema → Record schema → Prop
  | [], _, _ => True
  | field :: rest, (data, others), (data', others') =>
    related field.type data data' ∧ Each related rest others others'

theorem eq_of_each {schema : Schema} {record record' : Record schema}
    (h : Each (fun _ data data' => data = data') schema record record') : record = record' := by
  induction schema with
  | nil => rfl
  | cons field rest ih => exact Prod.ext h.1 (ih h.2)

variable (held : (t : ColumnType) → t.Data → Value → Prop)

/-- Columns hold the fields of a record one for one, under any spelling of their names.
    What it takes for a value to stand for a datum is `held`. -/
def InColumns : (schema : Schema) → Record schema → List (String × Value) → Prop
  | [], _, columns => columns = []
  | field :: rest, (data, others), (spelling, value) :: columns =>
    Text.sameName spelling field.name = true ∧ held field.type data value ∧
      InColumns rest others columns
  | _ :: _, _, [] => False

end Record

/-- A row holds the fields of a record in any order and under any spelling, next to columns
    that match none of them. -/
def Row.Holds (held : (t : ColumnType) → t.Data → Value → Prop) (row : Row) (schema : Schema)
    (record : Record schema) : Prop :=
  ∃ columns extra, row.columns.Perm (columns ++ extra) ∧
    Record.InColumns held schema record columns ∧
    ∀ column ∈ extra, ∀ field ∈ schema, Text.sameName column.1 field.name = false

/-- Fields that are told apart by their names, whatever case these are written in. -/
def Schema.Distinct (schema : Schema) : Prop :=
  schema.Pairwise fun field other => Text.sameName field.name other.name = false

/-- No name is that of the first field and that of another. -/
theorem Schema.Distinct.not_both {field other : Field} {rest : Schema} {name : String}
    (h : Distinct (field :: rest)) (hother : other ∈ rest)
    (hfirst : Text.sameName name field.name = true)
    (hsecond : Text.sameName name other.name = true) : False := by
  have hsame := Text.sameName_of_common hfirst hsecond
  rw [(List.pairwise_cons.mp h).1 other hother] at hsame
  cases hsame

namespace Record

variable {held : (t : ColumnType) → t.Data → Value → Prop} {schema : Schema}

/-- Each column that holds a field has a name like it. -/
theorem InColumns.exists_field {record : Record schema} {columns : List (String × Value)}
    (h : InColumns held schema record columns) {column : String × Value} (hmem : column ∈ columns) :
    ∃ field ∈ schema, Text.sameName column.1 field.name = true := by
  induction schema generalizing columns with
  | nil =>
    rw [show columns = [] from h] at hmem
    cases hmem
  | cons field rest ih =>
    cases columns with
    | nil => cases h
    | cons first columns =>
      obtain ⟨hsame, -, hrest⟩ := h
      rcases List.mem_cons.mp hmem with rfl | htail
      · exact ⟨field, List.mem_cons_self, hsame⟩
      · obtain ⟨other, hother, hname⟩ := ih hrest htail
        exact ⟨other, List.mem_cons_of_mem _ hother, hname⟩

/-- Reading takes the fields that are left from the columns that hold them, as long as no
    other column of the row has the name of one of these. -/
theorem exists_decode {related : (t : ColumnType) → t.Data → t.Data → Prop}
    (hread : ∀ (t : ColumnType) (data : t.Data) (value : Value), t.Faithful data →
      held t data value → ∃ data', t.decode? value = some data' ∧ related t data' data)
    {row : Row} {record : Record schema} {columns : List (String × Value)}
    (hdistinct : schema.Distinct) (hfaithful : Faithful schema record)
    (hholds : InColumns held schema record columns)
    (hmem : ∀ column ∈ columns, column ∈ row.columns)
    (hall : ∀ field ∈ schema, ∀ column ∈ row.columns,
      Text.sameName column.1 field.name = true → column ∈ columns) :
    ∃ decoded, decode schema row = .ok decoded ∧ Each related schema decoded record := by
  -- The row stays whole while the fields get fewer, so `hmem` and `hall` say which of its
  -- columns are left.
  induction schema generalizing columns with
  | nil => exact ⟨(), rfl, trivial⟩
  | cons field rest ih =>
    obtain ⟨data, others⟩ := record
    cases columns with
    | nil => cases hholds
    | cons first columns =>
      obtain ⟨spelling, value⟩ := first
      obtain ⟨hsame, hheld, hrest⟩ := hholds
      have hfirst : row.value? field.name = some value := by
        refine Row.value?_of_only (hmem _ List.mem_cons_self) hsame ?_
        intro other hother hname
        rcases List.mem_cons.mp (hall field List.mem_cons_self other hother hname) with heq | htail
        · exact heq
        · obtain ⟨field', hfield', hname'⟩ := hrest.exists_field htail
          exact (hdistinct.not_both hfield' hname hname').elim
      obtain ⟨data', hdata, hrelated⟩ := hread field.type data value hfaithful.1 hheld
      obtain ⟨others', hothers, heach⟩ := ih hdistinct.tail hfaithful.2 hrest
        (fun column hcolumn => hmem column (List.mem_cons_of_mem _ hcolumn))
        (fun field' hfield' column hcolumn hname => by
          have hlisted := hall field' (List.mem_cons_of_mem _ hfield') column hcolumn hname
          rcases List.mem_cons.mp hlisted with rfl | htail
          · exact (hdistinct.not_both hfield' hsame hname).elim
          · exact htail)
      refine ⟨(data', others'), decode_cons_eq_ok_iff.mpr ⟨?_, hothers⟩, hrelated, heach⟩
      exact Row.get_eq_ok_iff.mpr ⟨value, Row.value?_eq_some_iff.mp hfirst, hdata⟩

/-- A row that holds a record is read as one related to it. -/
theorem exists_decode_of_holds {related : (t : ColumnType) → t.Data → t.Data → Prop}
    (hread : ∀ (t : ColumnType) (data : t.Data) (value : Value), t.Faithful data →
      held t data value → ∃ data', t.decode? value = some data' ∧ related t data' data)
    {row : Row} {record : Record schema} (hdistinct : schema.Distinct)
    (hfaithful : Faithful schema record) (hholds : row.Holds held schema record) :
    ∃ decoded, decode schema row = .ok decoded ∧ Each related schema decoded record := by
  obtain ⟨columns, extra, hperm, hcolumns, hextra⟩ := hholds
  refine exists_decode hread hdistinct hfaithful hcolumns ?_ ?_
  · intro column hcolumn
    exact hperm.mem_iff.mpr (List.mem_append_left extra hcolumn)
  · intro field hfield column hcolumn hname
    rcases List.mem_append.mp (hperm.mem_iff.mp hcolumn) with hheld | hother
    · exact hheld
    · rw [hextra column hother field hfield] at hname
      cases hname

/-- **Written and read back**: a row that holds a record, its columns in any order, under
    any spelling and among others, is read as that record. If some columns are narrower
    than their fields, then what is read differs in the bits of a NaN at most. -/
theorem decode_of_holds {row : Row} {record : Record schema} (hdistinct : schema.Distinct)
    (hfaithful : Faithful schema record) :
    (row.Holds (fun t data value => value = t.encode data) schema record →
      decode schema row = .ok record) ∧
    (row.Holds ColumnType.Stores schema record →
      ∃ decoded, decode schema row = .ok decoded ∧
        Each ColumnType.Alike schema decoded record) := by
  constructor
  · intro hholds
    have hread : ∀ (t : ColumnType) (data : t.Data) (value : Value), t.Faithful data →
        value = t.encode data → ∃ data', t.decode? value = some data' ∧ data' = data := by
      rintro t data _ hfaithful rfl
      exact ⟨data, ColumnType.decode?_encode hfaithful, rfl⟩
    obtain ⟨decoded, hdecode, heach⟩ := exists_decode_of_holds hread hdistinct hfaithful hholds
    rw [hdecode, eq_of_each heach]
  · intro hholds
    exact exists_decode_of_holds (fun _ _ _ => ColumnType.exists_decode?_of_stores) hdistinct
      hfaithful hholds

/-- Two rows with their columns shuffled and respelled. The first has a column too many, the
    second has narrower columns, the least subnormal single among them. -/
theorem decode_of_holds_shuffled :
    decode [⟨"id", .int64⟩, ⟨"note", .option .text⟩]
        ⟨[("NOTE", .null), ("total", .bool true), ("Id", .int64 5)]⟩ =
      .ok ((5 : Int64), (none : Option String), ()) ∧
    ∃ decoded, decode [⟨"id", .int64⟩, ⟨"ratio", .option .double⟩]
        ⟨[("RATIO", .single ⟨1⟩), ("iD", .int16 (-5))]⟩ = .ok decoded ∧
      Each ColumnType.Alike [⟨"id", .int64⟩, ⟨"ratio", .option .double⟩] decoded
        ((-5 : Int64), some (⟨0x36A0000000000000⟩ : Double), ()) := by
  constructor
  · refine (decode_of_holds ?_ ?_).1
      ⟨[("Id", .int64 5), ("NOTE", .null)], [("total", .bool true)], ?_, ?_, ?_⟩
    · show List.Pairwise _ _
      decide
    · exact ⟨trivial, trivial, trivial⟩
    · exact @List.perm_append_comm _ [("NOTE", Value.null), ("total", .bool true)] [_]
    · exact ⟨by decide, rfl, by decide, rfl, rfl⟩
    · decide
  · refine (decode_of_holds ?_ ?_).2
      ⟨[("iD", .int16 (-5)), ("RATIO", .single ⟨1⟩)], [], ?_, ?_, ?_⟩
    · show List.Pairwise _ _
      decide
    · exact ⟨trivial, ⟨Value.noConfusion, trivial⟩, trivial⟩
    · exact List.Perm.swap _ _ []
    · have hnumber : Single.number ⟨1⟩ = Double.number ⟨0x36A0000000000000⟩ :=
        (Single.number_widen ⟨1⟩).symm
      exact ⟨by decide, .int16_int64 rfl, by decide, .single_double hnumber, rfl⟩
    · decide

end Record

end SqlKit
