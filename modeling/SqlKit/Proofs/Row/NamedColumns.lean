/-
  SqlKit/Proofs/Row/NamedColumns.lean
  ===================================
  **A record depends on the columns named like its fields, and on nothing else.**

  Two rows agree (`Row.AgreeBy`) if under the name of each field they hold the same value,
  or hold none. As long as no two columns of a row are named like one field
  (`Row.Unambiguous`), it does not matter where these columns stand, how their names are
  spelled and what other columns there are (`Row.Rearranged`). Where several columns have
  the name of a field, the first of them counts.

  Rows that agree are read alike, with the same record or the same error
  (`Record.decode_eq_of_agree`). The error names the column as the field does, so even its
  message shows nothing of the spelling that a row has.
-/
import SqlKit.Proofs.Row.FirstFailure

namespace SqlKit

/-! ## 1. Rows that agree -/

namespace Row

/-- No two columns are named like the same field. -/
def Unambiguous (schema : Schema) (row : Row) : Prop :=
  ∀ field ∈ schema, (row.valuesNamed field.name).length ≤ 1

instance (schema : Schema) (row : Row) : Decidable (row.Unambiguous schema) :=
  inferInstanceAs (Decidable (∀ field ∈ schema, (row.valuesNamed field.name).length ≤ 1))

/-- Under the name of each field, either both rows hold the same value or neither has a
    column. What it takes to hold a value is `holds`. -/
def AgreeBy (holds : Row → String → Value → Prop) (schema : Schema) (row row' : Row) : Prop :=
  ∀ field ∈ schema, (row.Lacks field.name ∧ row'.Lacks field.name) ∨
    ∃ value, holds row field.name value ∧ holds row' field.name value

variable {schema : Schema} {row row' : Row}

theorem AgreeBy.value?_eq (h : AgreeBy FirstMatch schema row row') {field : Field}
    (hfield : field ∈ schema) : row.value? field.name = row'.value? field.name := by
  rcases h field hfield with ⟨hlacks, hlacks'⟩ | ⟨value, hfirst, hfirst'⟩
  · rw [value?_eq_none_iff.mpr hlacks, value?_eq_none_iff.mpr hlacks']
  · rw [value?_eq_some_iff.mpr hfirst, value?_eq_some_iff.mpr hfirst']

/-- Rows without two columns of a name agree on the first ones if they agree on any. -/
theorem AgreeBy.onFirst (h : AgreeBy Has schema row row') (hrow : row.Unambiguous schema)
    (hrow' : row'.Unambiguous schema) : AgreeBy FirstMatch schema row row' := by
  intro field hfield
  refine (h field hfield).imp_right ?_
  rintro ⟨value, hhas, hhas'⟩
  exact ⟨value, firstMatch_of_has (hrow field hfield) hhas,
    firstMatch_of_has (hrow' field hfield) hhas'⟩

/-! ## 2. Rearranged rows -/

/-- The row with only those columns that are named like a field. -/
def project (schema : Schema) (row : Row) : Row :=
  ⟨row.columns.filter fun column => schema.any fun field => Text.sameName column.1 field.name⟩

/-- Two columns hold the same value, under names that differ at most in ASCII case. -/
def Respelled (column column' : String × Value) : Prop :=
  Text.sameName column.1 column'.1 = true ∧ column.2 = column'.2

/-- The second row has the columns of the first that are named like fields, in any order,
    each under any spelling. The columns that match no field are its own. -/
def Rearranged (schema : Schema) (row row' : Row) : Prop :=
  ∃ columns, (row.project schema).columns.Perm columns ∧
    List.Forall₂ Respelled columns (row'.project schema).columns

variable {name : String}

theorem valuesNamed_project {field : Field} (hfield : field ∈ schema) :
    (row.project schema).valuesNamed field.name = row.valuesNamed field.name := by
  rw [valuesNamed, project, List.filter_filter, valuesNamed]
  refine congrArg (List.map Prod.snd) (List.filter_congr fun column _ => ?_)
  cases hname : Text.sameName column.1 field.name with
  | false => rfl
  | true => exact List.any_eq_true.mpr ⟨field, hfield, hname⟩

theorem perm_valuesNamed (h : row.columns.Perm row'.columns) :
    (row.valuesNamed name).Perm (row'.valuesNamed name) :=
  (h.filter _).map _

theorem valuesNamed_of_respelled {columns columns' : List (String × Value)}
    (h : List.Forall₂ Respelled columns columns') :
    (Row.mk columns).valuesNamed name = (Row.mk columns').valuesNamed name := by
  simp only [valuesNamed]
  induction h with
  | nil => rfl
  | @cons column column' columns columns' hcolumn _ ih =>
    have hfold := Text.sameName_iff.mp hcolumn.1
    have hname : Text.sameName column.1 name = Text.sameName column'.1 name := by
      simp only [Text.sameName, hfold]
    simp only [List.filter_cons, hname]
    split
    · simp only [List.map_cons, hcolumn.2, ih]
    · exact ih

/-- Under the name of a field, a rearranged row has the same values, in some order. -/
theorem Rearranged.perm_valuesNamed (h : Rearranged schema row row') {field : Field}
    (hfield : field ∈ schema) :
    (row.valuesNamed field.name).Perm (row'.valuesNamed field.name) := by
  obtain ⟨columns, hperm, hrespelled⟩ := h
  calc row.valuesNamed field.name
    _ = (row.project schema).valuesNamed field.name := (valuesNamed_project hfield).symm
    List.Perm _ ((Row.mk columns).valuesNamed field.name) := Row.perm_valuesNamed hperm
    _ = (row'.project schema).valuesNamed field.name := valuesNamed_of_respelled hrespelled
    _ = row'.valuesNamed field.name := valuesNamed_project hfield

theorem Rearranged.unambiguous (h : Rearranged schema row row') (hrow : row.Unambiguous schema) :
    row'.Unambiguous schema := by
  intro field hfield
  rw [← (h.perm_valuesNamed hfield).length_eq]
  exact hrow field hfield

theorem Rearranged.agree (h : Rearranged schema row row') : AgreeBy Has schema row row' := by
  intro field hfield
  have hperm := h.perm_valuesNamed hfield
  cases hvalues : row.valuesNamed field.name with
  | nil =>
    rw [hvalues] at hperm
    exact .inl ⟨valuesNamed_eq_nil_iff.mp hvalues, valuesNamed_eq_nil_iff.mp hperm.nil_eq.symm⟩
  | cons value others =>
    have hmem : value ∈ row.valuesNamed field.name := by
      rw [hvalues]
      exact List.mem_cons_self
    exact .inr ⟨value, mem_valuesNamed_iff.mp hmem, mem_valuesNamed_iff.mp (hperm.mem_iff.mp hmem)⟩

end Row

/-! ## 3. What a record is read from -/

/-- The message of an error quotes a text as it is spelled. -/
def DecodeError.Quotes (e : DecodeError) (text : String) : Prop :=
  ∃ front back, e.message = front ++ text ++ back

theorem Row.Fault.quotes {row : Row} {field : Field} {e : DecodeError} (h : row.Fault field e) :
    e.Quotes field.name := by
  cases h with
  | missing => exact ⟨"missing column: ", "", String.append_empty.symm⟩
  | @mismatch _ expected found =>
    refine ⟨"type mismatch for column '", "': expected " ++ expected ++ ", found " ++ found, ?_⟩
    simp only [← String.append_assoc]
    rfl

namespace Record

/-- Each datum is what its type reads from the first column of the field's name. -/
def ReadFrom (row : Row) : (schema : Schema) → Record schema → Prop
  | [], _ => True
  | field :: rest, (data, others) =>
    (∃ value, row.FirstMatch field.name value ∧ field.type.decode? value = some data) ∧
      ReadFrom row rest others

variable {schema : Schema} {row row' : Row}

theorem decode_eq_ok_iff {record : Record schema} :
    decode schema row = .ok record ↔ ReadFrom row schema record := by
  induction schema with
  | nil => exact ⟨fun _ => trivial, fun _ => rfl⟩
  | cons field rest ih =>
    obtain ⟨data, others⟩ := record
    rw [decode_cons_eq_ok_iff, Row.get_eq_ok_iff, ih, ReadFrom]

theorem exists_fault_of_decode {e : DecodeError} (h : decode schema row = .error e) :
    ∃ field ∈ schema, row.Fault field e := by
  rcases decode_outcome schema row with
    ⟨-, record, hrecord⟩ | ⟨before, field, after, e', hschema, -, hfault, he'⟩
  · rw [h] at hrecord
    cases hrecord
  · rw [h] at he'
    cases he'
    exact ⟨field, by simp [hschema], hfault⟩

/-- Reading looks at a row through the values of the fields' names only. -/
theorem decode_congr (h : ∀ field ∈ schema, row.value? field.name = row'.value? field.name) :
    decode schema row = decode schema row' := by
  induction schema with
  | nil => rfl
  | cons field rest ih =>
    have hget : row.get field.type field.name = row'.get field.type field.name := by
      simp only [Row.get, h field List.mem_cons_self]
    have hrest := ih fun other hother => h other (List.mem_cons_of_mem _ hother)
    simp only [decode, hget, hrest]

/-- **Only the named columns count**: rows without two columns of a name are read alike if
    they agree on the fields, in particular if one is the other rearranged. Where a row has
    several columns of a name, it is read alike as long as the first ones agree: each datum
    is read from the first, and an error is the fault of a field, which it quotes. -/
theorem decode_eq_of_agree (schema : Schema) :
    (∀ row row' : Row, row.Unambiguous schema → row'.Unambiguous schema →
      Row.AgreeBy Row.Has schema row row' → decode schema row = decode schema row') ∧
    (∀ row row' : Row, row.Unambiguous schema → Row.Rearranged schema row row' →
      decode schema row = decode schema row') ∧
    (∀ row row' : Row, Row.AgreeBy Row.FirstMatch schema row row' →
      decode schema row = decode schema row') ∧
    ∀ row : Row,
      (∀ record, decode schema row = .ok record ↔ ReadFrom row schema record) ∧
      ∀ e, decode schema row = .error e →
        ∃ field ∈ schema, row.Fault field e ∧ e.Quotes field.name := by
  have hfirst : ∀ row row' : Row, Row.AgreeBy Row.FirstMatch schema row row' →
      decode schema row = decode schema row' := fun row row' hagree =>
    decode_congr fun field hfield => hagree.value?_eq hfield
  -- The first two conditions both come down to rows that agree on the first columns.
  refine ⟨?_, ?_, hfirst, ?_⟩
  · intro row row' hrow hrow' hagree
    exact hfirst row row' (hagree.onFirst hrow hrow')
  · intro row row' hrow hrearranged
    exact hfirst row row' (hrearranged.agree.onFirst hrow (hrearranged.unambiguous hrow))
  · intro row
    refine ⟨fun record => decode_eq_ok_iff, fun e he => ?_⟩
    obtain ⟨field, hfield, hfault⟩ := exists_fault_of_decode he
    exact ⟨field, hfield, hfault, hfault.quotes⟩

/-- Columns shuffled and respelled, next to one whose name is another, since only ASCII
    letters fold; then a row of which the second column of a name is not looked at. -/
theorem decode_eq_of_agree_respelled :
    decode [⟨"été", .int64⟩, ⟨"name", .option .text⟩, ⟨"born", .int32⟩]
        ⟨[("ÉTÉ", .bool true), ("éTé", .int16 7), ("Name", .null)]⟩ =
      decode [⟨"été", .int64⟩, ⟨"name", .option .text⟩, ⟨"born", .int32⟩]
        ⟨[("NAME", .null), ("été", .int16 7)]⟩ ∧
    decode [⟨"été", .int64⟩, ⟨"name", .option .text⟩]
        ⟨[("ÉTÉ", .bool true), ("éTé", .int16 7), ("Name", .null)]⟩ =
      decode [⟨"été", .int64⟩, ⟨"name", .option .text⟩] ⟨[("NAME", .null), ("été", .int16 7)]⟩ ∧
    decode [⟨"id", .int64⟩] ⟨[("note", .null), ("iD", .bool true), ("id", .int16 7)]⟩ =
      decode [⟨"id", .int64⟩] ⟨[("ID", .bool true)]⟩ ∧
    ∃ field ∈ [⟨"id", .int64⟩], Row.Fault ⟨[("ID", .bool true)]⟩ field
        (.typeMismatch "id" "i64" "bool") ∧
      DecodeError.Quotes (.typeMismatch "id" "i64" "bool") field.name := by
  refine ⟨?_, ?_, ?_, ?_⟩
  · refine (decode_eq_of_agree _).1 _ _ (by decide) (by decide) ?_
    refine List.forall_mem_cons.mpr ⟨?_, List.forall_mem_cons.mpr ⟨?_, ?_⟩⟩
    · exact .inr ⟨.int16 7, ⟨"éTé", .tail _ (.head _), by decide⟩,
        ⟨"été", .tail _ (.head _), by decide⟩⟩
    · exact .inr ⟨.null, ⟨"Name", .tail _ (.tail _ (.head _)), by decide⟩,
        ⟨"NAME", .head _, by decide⟩⟩
    · exact List.forall_mem_cons.mpr ⟨.inl ⟨by decide, by decide⟩, List.forall_mem_nil _⟩
  · refine (decode_eq_of_agree _).2.1 _ _ (by decide) ?_
    exact ⟨[("Name", .null), ("éTé", .int16 7)], List.Perm.swap _ _ [],
      .cons ⟨by decide, rfl⟩ (.cons ⟨by decide, rfl⟩ .nil)⟩
  · refine (decode_eq_of_agree _).2.2.1 _ _ ?_
    refine List.forall_mem_cons.mpr ⟨.inr ⟨.bool true, ?_, ?_⟩, List.forall_mem_nil _⟩
    · exact ⟨[("note", .null)], "iD", [("id", .int16 7)], rfl, by decide, by decide⟩
    · exact ⟨[], "ID", [], rfl, by decide, List.forall_mem_nil _⟩
  · exact ((decode_eq_of_agree _).2.2.2 ⟨[("ID", .bool true)]⟩).2 _ rfl

end Record

end SqlKit
