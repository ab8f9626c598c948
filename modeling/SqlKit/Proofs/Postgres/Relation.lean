/-
  SqlKit/Proofs/Postgres/Relation.lean
  ====================================
  **The name of a relation and the qualifier of its columns.**

  A relation is named twice: where it stands in a `FROM` list, by its identifier or by
  what follows `AS`, and in front of each of its columns. The qualifier of a column is
  always quoted, the name in the list only under an option, and what is not quoted is
  folded to lower case when it is read. So the two denote the same identifier if names
  are quoted, or if the name has no upper-case letter, and not otherwise
  (`introduced_eq_qualifier_iff`).

  To find the name in the text of a list, `LeadsIn` says what a relation is written
  with ahead of its name: the source of an alias and `AS`, and the words of a join. What
  is behind the name is set off from it, by a blank or a line break, or is nothing.
-/
import SqlKit.Build.Relation
import SqlKit.Proofs.Build.WellFormed
import SqlKit.Proofs.Postgres.ColumnReference
import SqlKit.Proofs.Postgres.Layout
import SqlKit.Proofs.Render.Delimiter
import SqlKit.Proofs.Render.Lexeme

namespace SqlKit

/-! ## 1. Names without quotes -/

namespace Text

/-- A name of ASCII letters, digits and underscores that begins with a letter. -/
def IsPlain (name : String) : Prop :=
  IsWord name ∧ ∀ c ∈ name.toList.head?, c.isAlpha = true

instance : DecidablePred IsPlain := fun name =>
  decidable_of_iff (IsWord name ∧ name.toList.head?.all Char.isAlpha = true)
    (by simp only [IsPlain, Option.all_eq_true, Option.mem_def])

theorem toLower_eq_self_iff (c : Char) : c.toLower = c ↔ c.isUpper = false := by
  unfold Char.toLower Char.isUpper
  split
  · rename_i hupper
    have hval : c.val + ('a'.val - 'A'.val) ≠ c.val := by
      intro h
      have hnat := congrArg UInt32.toNat h
      have hsmall : c.val.toNat ≤ 90 := UInt32.le_iff_toNat_le.mp hupper.2
      have hstep : ('a'.val - 'A'.val).toNat = 32 := by decide
      rw [UInt32.toNat_add, hstep] at hnat
      omega
    simp only [hupper, and_self, decide_true, Bool.true_eq_false, iff_false]
    exact fun h => hval (congrArg Char.val h)
  · rename_i hupper
    simp only [hupper, decide_false]

/-- A name is its own lower-case form if and only if it has no upper-case letter. -/
theorem ofList_foldCase_eq_iff (name : String) :
    String.ofList (foldCase name) = name ↔ ∀ c ∈ name.toList, c.isUpper = false := by
  have hlist : String.ofList (foldCase name) = name ↔
      name.toList.map Char.toLower = name.toList.map id := by
    rw [← String.toList_inj, String.toList_ofList, foldCase, List.map_id]
  simp only [hlist, List.map_inj_left, id, toLower_eq_self_iff]

/-- A text that is empty, or begins with a blank or a new line. -/
def SetOff (cs : List Char) : Prop :=
  ∀ c ∈ cs.head?, c = ' ' ∨ c = '\n'

theorem SetOff.append {cs ds : List Char} (hcs : SetOff cs) (hds : SetOff ds) :
    SetOff (cs ++ ds) := by
  cases cs with
  | nil => exact hds
  | cons c cs => exact hcs

end Text

/-! ## 2. What a template may begin with -/

namespace Template

variable {t u : Template}

/-- Whatever a run of the template writes is set off from what is ahead of it. -/
def SetsOff (t : Template) : Prop :=
  ∀ (ctx : Context) (slots after : Slots) (pieces : List Piece),
    t.run ctx slots = (.ok pieces, after) → Text.SetOff (Piece.written pieces)

theorem setsOff_nil : SetsOff [] := by
  intro ctx slots after pieces h
  obtain ⟨rfl, -⟩ := run_nil_eq_ok h
  rintro c ⟨⟩

theorem SetsOff.append (ht : t.SetsOff) (hu : u.SetsOff) : (t ++ u).SetsOff := by
  intro ctx slots after pieces h
  obtain ⟨first, middle, last, hfirst, hlast, rfl⟩ := run_append_eq_ok h
  rw [Piece.written_append]
  exact (ht _ _ _ _ hfirst).append (hu _ _ _ _ hlast)

theorem Begins.setsOff (h : t.Begins ' ') : t.SetsOff := by
  intro ctx slots after pieces hrun c hc
  rw [h.written hrun] at hc
  exact .inl (Option.some.inj hc).symm

theorem setsOff_clauseBreak (t : Template) : SetsOff (.clauseBreak :: t) := by
  intro ctx slots after pieces h
  obtain ⟨first, middle, more, hfirst, -, rfl⟩ := run_cons_eq_ok h
  obtain ⟨rfl, -⟩ := Prod.mk.inj (Except.ok.inj hfirst)
  rw [Piece.written_append, Piece.written_verbatim_cons, Options.clauseBreak]
  split <;> rintro c ⟨⟩
  · exact .inr rfl
  · exact .inl rfl

end Template

namespace Postgres

open Template (text SetsOff)

theorem setsOff_clause (present : Bool) (keyword : String) (body : Template) :
    SetsOff (clause present keyword body) := by
  rw [clause]
  split
  · exact Template.setsOff_clauseBreak _
  · exact Template.setsOff_nil

theorem setsOff_furtherTables (parts : List (Part Template)) :
    SetsOff (parts.flatMap furtherTable) := by
  induction parts with
  | nil => exact Template.setsOff_nil
  | cons part rest ih =>
    have hpart : SetsOff (furtherTable part) := by
      rw [furtherTable]
      split <;> exact (Template.Begins.append_right _ (Template.begins_text rfl)).setsOff
    exact hpart.append ih

/-! ## 3. Entries of a `FROM` list -/

/-- The statement up to its `FROM` list, with the given entries only. -/
def upToTables {ν : Type} (s : Select ν) (tables : List ν) : Select ν :=
  { distinct := s.distinct, columns := s.columns, tables := tables }

/-- What comes between a statement up to some of its tables and the next table. -/
def tableSeparator (before : List (Part Template)) (entry : Part Template) : Template :=
  if before.isEmpty then .clauseBreak :: text "FROM "
  else text (if entry.node.kind = .join then " " else " , ")

/-- The text of that: `FROM` behind the break ahead of a clause, and between two tables a
    comma, or the blank ahead of a join. -/
def separatorText (ctx : Context) (before : List Node) (node : Node) : String :=
  if before.isEmpty then ctx.options.clauseBreak (ctx.depth + 1) ++ "FROM "
  else if node.kind = .join then " " else " , "

theorem join_of_run_tableSeparator {ctx : Context} {before : List (Part Template)}
    {entry : Part Template} {slots after : Slots} {pieces : List Piece}
    (h : (tableSeparator before entry).run ctx slots = (.ok pieces, after)) :
    Piece.join pieces = separatorText ctx (before.map Part.node) entry.node ∧ after = slots := by
  rw [separatorText, List.isEmpty_map]
  rw [tableSeparator] at h
  split at h
  · rename_i hfirst
    obtain ⟨pieces, middle, last, hbreak, hlast, rfl⟩ := Template.run_cons_eq_ok h
    obtain ⟨rfl, rfl⟩ := Prod.mk.inj (Except.ok.inj hbreak)
    obtain ⟨rfl, rfl⟩ := Template.run_text_eq_ok hlast
    rw [if_pos hfirst, Piece.join_append, Piece.join_verbatim, Piece.join_verbatim]
    exact ⟨rfl, rfl⟩
  · rename_i hlater
    obtain ⟨rfl, rfl⟩ := Template.run_text_eq_ok h
    rw [if_neg hlater, Piece.join_verbatim]
    exact ⟨rfl, rfl⟩

theorem tables_append_cons (before after : List (Part Template)) (entry : Part Template)
    (hbefore : before ≠ []) :
    tables (before ++ entry :: after) =
      tables before ++ tableSeparator before entry ++ entry.result ++
        after.flatMap furtherTable := by
  obtain ⟨first, rest, rfl⟩ := List.exists_cons_of_ne_nil hbefore
  have hentry : furtherTable entry =
      text (if entry.node.kind = .join then " " else " , ") ++ entry.result := by
    rw [furtherTable]
    split <;> rfl
  simp only [tables, tableSeparator, List.isEmpty_cons, Bool.false_eq_true, if_false,
    List.cons_append, List.flatMap_append, List.flatMap_cons, hentry, List.append_assoc]

/-- A statement is written up to a table of its list, then the table, and then
    something that is set off from it. -/
theorem exists_clauses_eq {s : Select (Part Template)} {before after : List (Part Template)}
    {entry : Part Template} (h : s.tables = before ++ entry :: after) :
    ∃ behind : Template, behind.SetsOff ∧
      clauses s = clauses (upToTables s before) ++ tableSeparator before entry ++ entry.result ++
        behind := by
  let conditions := clause (!s.conditions.isEmpty) "WHERE " (conjunction s.conditions)
  let groups := clause (!s.groupBy.isEmpty) "GROUP BY " (commaSeparated (s.groupBy.map Part.result))
  let order := clause (!s.order.isEmpty) "ORDER BY " (orderItems s.order)
  let limit := clause (s.limit != 0) "LIMIT " (text (toString s.limit))
  let offset := clause (s.offset != 0) "OFFSET " (text (toString s.offset))
  refine ⟨after.flatMap furtherTable ++ conditions ++ groups ++ order ++ limit ++ offset, ?_, ?_⟩
  · exact ((((((setsOff_furtherTables after).append (setsOff_clause _ _ _)).append
      (setsOff_clause _ _ _)).append (setsOff_clause _ _ _)).append
      (setsOff_clause _ _ _)).append (setsOff_clause _ _ _))
  · have htables : clause true "FROM " (tables (before ++ entry :: after)) =
        clause (!before.isEmpty) "FROM " (tables before) ++ tableSeparator before entry ++
          entry.result ++ after.flatMap furtherTable := by
      by_cases hbefore : before = []
      · subst hbefore
        simp [clause, tables, tableSeparator]
      · rw [tables_append_cons before after entry hbefore]
        simp [clause, hbefore]
    have hall : clauses s = text (if s.distinct then "SELECT DISTINCT " else "SELECT ") ++
        columns s.columns ++ clause true "FROM " (tables (before ++ entry :: after)) ++ conditions ++
          groups ++ order ++ limit ++ offset := by
      have hpresent : (!(before ++ entry :: after).isEmpty) = true := by simp
      rw [clauses, h, hpresent]
    have hfront : clauses (upToTables s before) =
        text (if s.distinct then "SELECT DISTINCT " else "SELECT ") ++ columns s.columns ++
          clause (!before.isEmpty) "FROM " (tables before) := by
      rw [clauses]
      simp only [upToTables, List.isEmpty_nil, Bool.not_true, bne_self_eq_false, clause,
        Bool.false_eq_true, if_false, List.append_nil]
      rfl
    rw [hall, htables, hfront]
    simp only [List.append_assoc]

/-! ## 4. The name that an entry introduces -/

/-- An entry of a `FROM` list, and the name that it introduces there. -/
inductive Introduces : Node → String → Prop where
  | identifier (name : String) : Introduces (.of (.identifier name)) name
  | aliased (source : Node) (name : String) : Introduces (.of (.aliased ⟨source, name⟩)) name
  | join (kind : JoinKind) {table : Node} {name : String}
      (condition : Option (JoinCondition Node)) (h : Introduces table name) :
      Introduces (.of (.join ⟨kind, table, condition⟩)) name

/-- What an entry of a `FROM` list is written with ahead of its name, from the given
    slots on: nothing, the source of an alias and `AS`, or the words of a join and what
    is ahead of the name of its table. -/
inductive LeadsIn (ctx : Context) (slots : Slots) : Node → String → Prop where
  | identifier (name : String) : LeadsIn ctx slots (.of (.identifier name)) ""
  | aliased {named : Alias Node} {source : String} {after : Slots}
      (h : Session.runStep dialect ctx (.operand (.ok named.source)) slots = (.text source, after)) :
      LeadsIn ctx slots (.of (.aliased named)) (source ++ " AS ")
  | join {joined : Join Node} {lead : String} (h : LeadsIn ctx slots joined.table lead) :
      LeadsIn ctx slots (.of (.join joined)) (joinWords joined.kind ++ " " ++ lead)

/-- The text of an entry is what leads in, its name, and something that is set off. -/
theorem exists_lead_of_run {ctx : Context} {node : Node} {name : String}
    (hname : Introduces node name) {slots after : Slots} {pieces : List Piece}
    (h : (dialect.template ctx.options node).run ctx slots = (.ok pieces, after)) :
    ∃ lead behind : String, LeadsIn ctx slots node lead ∧ Text.SetOff behind.toList ∧
      Piece.join pieces = lead ++ identText ctx.options name ++ behind := by
  induction hname generalizing after pieces with
  | identifier name =>
    rw [template_of] at h
    obtain ⟨rfl, -⟩ := Template.run_text_eq_ok h
    refine ⟨"", "", .identifier name, by simp [Text.SetOff], ?_⟩
    rw [Piece.join_verbatim, String.empty_append, String.append_empty]
  | aliased source name =>
    rw [template_of] at h
    obtain ⟨first, middle, last, hsource, hlast, rfl⟩ := Template.run_append_eq_ok h
    obtain ⟨rfl, -⟩ := Template.run_text_eq_ok hlast
    have hlead : LeadsIn ctx slots (.of (.aliased ⟨source, name⟩)) (Piece.join first ++ " AS ") :=
      .aliased (Session.write_of_run hsource)
    refine ⟨_, "", hlead, by simp [Text.SetOff], ?_⟩
    rw [Piece.join_append, Piece.join_verbatim, String.append_empty, ← String.append_assoc]
    rfl
  | @join kind table name condition hname ih =>
    obtain ⟨behind, hbehind, htemplate⟩ : ∃ behind : Template, behind.SetsOff ∧
        dialect.template ctx.options (.of (.join ⟨kind, table, condition⟩)) =
          text (joinWords kind ++ " ") ++ dialect.template ctx.options table ++ behind := by
      rw [template_of]
      cases condition with
      | none => exact ⟨[], Template.setsOff_nil, (List.append_nil _).symm⟩
      | some condition =>
        refine ⟨text " " ++ joinCondition (condition.map (Node.part (dialect.layout ctx.options))),
          ?_, (List.append_assoc _ _ _)⟩
        exact (Template.Begins.append_right _ (Template.begins_text rfl)).setsOff
    rw [htemplate] at h
    obtain ⟨begun, middle, last, hbegun, hlast, rfl⟩ := Template.run_append_eq_ok h
    obtain ⟨first, slots', inner, hfirst, hinner, rfl⟩ := Template.run_append_eq_ok hbegun
    obtain ⟨rfl, rfl⟩ := Template.run_text_eq_ok hfirst
    obtain ⟨lead, rest, hlead, hrest, hjoin⟩ := ih hinner
    refine ⟨joinWords kind ++ " " ++ lead, rest ++ Piece.join last, .join hlead, ?_, ?_⟩
    · rw [String.toList_append, Piece.toList_join]
      exact hrest.append (hbehind _ _ _ _ hlast)
    · rw [Piece.join_append, Piece.join_append, Piece.join_verbatim, hjoin]
      simp only [String.append_assoc]

/-- The text of a statement, cut at an entry of its `FROM` list. -/
theorem exists_entry_of_runStep {ctx : Context} {s : Select Node} {before after : List Node}
    {node : Node} (htables : s.tables = before ++ node :: after) {slots last : Slots} {sql : String}
    (h : Session.runStep dialect ctx (.node (.ok (.of (.select s)))) slots = (.text sql, last)) :
    ∃ (front separator behind : String) (middle middle' : Slots) (pieces : List Piece),
      Session.runStep dialect ctx (.node (.ok (.of (.select (upToTables s before))))) slots =
          (.text front, middle) ∧
        separator = separatorText ctx before node ∧
        (dialect.template ctx.options node).run ctx.nested middle = (.ok pieces, middle') ∧
        Text.SetOff behind.toList ∧ sql = front ++ separator ++ Piece.join pieces ++ behind := by
  let part := Node.part (dialect.layout ctx.options)
  let laid (s : Select Node) : Select (Part Template) := (s.map part).map Part.inline
  let ahead := (before.map part).map Part.inline
  have htemplate (s : Select Node) :
      dialect.template ctx.options (.of (.select s)) = clauses (laid s) :=
    template_of ctx.options (.select s)
  have hlaid : (laid s).tables = ahead ++ (part node).inline ::
      (after.map part).map Part.inline := by
    simp only [laid, ahead, Select.map, htables, List.map_append, List.map_cons]
  obtain ⟨behind, hbehind, hclauses⟩ := exists_clauses_eq hlaid
  have hfront : clauses (upToTables (laid s) ahead) =
      dialect.template ctx.options (.of (.select (upToTables s before))) :=
    (htemplate (upToTables s before)).symm
  obtain ⟨pieces, hrun, rfl⟩ := Session.exists_run_of_write h
  rw [htemplate, hclauses, hfront] at hrun
  obtain ⟨most, middle', last, hmost, hlast, rfl⟩ := Template.run_append_eq_ok hrun
  obtain ⟨begun, middle, entry, hbegun, hentry, rfl⟩ := Template.run_append_eq_ok hmost
  obtain ⟨front, _, separator, hfront, hseparator, rfl⟩ := Template.run_append_eq_ok hbegun
  obtain ⟨hjoin, rfl⟩ := join_of_run_tableSeparator hseparator
  have hnodes : ahead.map Part.node = before := by
    simp only [ahead, List.map_map]
    exact List.map_id before
  rw [hnodes] at hjoin
  have hnested : (dialect.template ctx.options node).run ctx.nested middle = (.ok entry, middle') := by
    rw [← hentry]
    exact (Template.run_inline ctx (Nat.succ_pos ctx.depth) _ middle).symm
  refine ⟨Piece.join front, Piece.join separator, Piece.join last, middle, middle', entry,
    Session.write_of_run hfront, hjoin, hnested, ?_, ?_⟩
  · rw [Piece.toList_join]
    exact hbehind _ _ _ _ hlast
  · simp only [Piece.join_append]

/-! ## 5. What is read -/

end Postgres

/-- What stands for a relation: an identifier, or an alias or a join that builders
    make. -/
inductive Operand.IsRelation : Operand → Prop where
  | identifier (name : String) : IsRelation (.identifier name)
  | aliased {source : Operand} {name : String} {named : Alias Node}
      (h : Alias.build source name = .ok named) : IsRelation (.aliased named)
  | join {side : JoinSide} {table : Operand} {condition : JoinCondition Node} {joined : Join Node}
      (h : Join.build side table condition = .ok joined) : IsRelation (.join joined)
  | crossJoin {table : Operand} {joined : Join Node} (h : Join.buildCross table = .ok joined) :
      IsRelation (.join joined)

namespace Postgres

theorem introduces_join {x : Operand} {joined : Join Node} (h : Join.tableOf x = .ok joined.table) :
    Introduces (.of (.join joined)) joined.name := by
  have hkind := (Join.tableOf_eq_ok h).2
  obtain ⟨kind, ⟨form⟩, condition⟩ := joined
  apply Introduces.join
  cases form with
  | identifier name => exact .identifier name
  | aliased named => exact .aliased named.source named.name
  | _ => simp [Node.kind, Node.form, Form.kind] at hkind

/-- A relation introduces the name it goes by. -/
theorem introduces_of_isRelation {x : Operand} (hx : x.IsRelation) {name : String}
    (hname : x.relationName? = some name) : Introduces x.toColumn name := by
  cases hx with
  | identifier name' =>
    obtain rfl := Option.some.inj hname
    exact .identifier name'
  | @aliased _ _ named h =>
    obtain rfl := Option.some.inj hname
    exact .aliased named.source named.name
  | join h =>
    obtain rfl := Option.some.inj hname
    obtain ⟨table, htable, rfl⟩ := Except.map_eq_ok h
    exact introduces_join htable
  | crossJoin h =>
    obtain rfl := Option.some.inj hname
    obtain ⟨table, htable, rfl⟩ := Except.map_eq_ok h
    exact introduces_join htable

theorem continuesIdentifier_of_isWordChar {c : Char} (h : Text.isWordChar c = true) :
    Text.continuesIdentifier c = true := by
  simp only [Text.isWordChar, Char.isAlphanum, Bool.or_eq_true] at h
  simp only [Text.continuesIdentifier, Text.beginsIdentifier, Bool.or_eq_true]
  rcases h with (hletter | hdigit) | hunderscore
  · exact .inl (.inl (.inl (.inl hletter)))
  · exact .inl (.inr hdigit)
  · exact .inl (.inl (.inl (.inr hunderscore)))

/-- How a plain name is read, quoted or not, where it is set off from what follows. -/
theorem readIdentifier_identText (options : Options) {name : String} (hplain : Text.IsPlain name)
    {rest : List Char} (hrest : Text.SetOff rest) :
    Text.readIdentifier ((identText options name).toList ++ rest) =
      some (if options.quote then name else String.ofList (Text.foldCase name), rest) := by
  obtain ⟨⟨hne, hword⟩, hletter⟩ := hplain
  have hstar : name ≠ "*" := by
    rintro rfl
    exact absurd (hword '*' (by decide)) (by decide)
  cases hquote : options.quote with
  | true =>
    have htext : identText options name = Text.quoteIdent name := by
      simp [identText, hquote, hstar]
    rw [htext, if_pos rfl]
    apply Text.readIdentifier_quoteIdent
    intro c hc
    rcases hrest c hc with rfl | rfl <;> decide
  | false =>
    have htext : identText options name = name := by
      simp [identText, hquote]
    rw [htext, if_neg Bool.false_ne_true, Text.foldCase]
    rcases hname : name.toList with _ | ⟨c, cs⟩
    · exact absurd (String.toList_eq_nil_iff.mp hname) hne
    · rw [hname] at hword hletter
      apply Text.readIdentifier_unquoted
      · simp [Text.beginsIdentifier, hletter c rfl]
      · intro d hd
        exact continuesIdentifier_of_isWordChar (hword d (List.mem_cons_of_mem c hd))
      · intro d hd
        rcases hrest d hd with rfl | rfl <;> decide

/-- **The name of a relation and the qualifier of its columns** denote the same
    identifier if and only if names are quoted or the name has no upper-case letter.
    The qualifier is read as the name, wherever the column is written. In a statement
    with the relation in its `FROM` list, the name stands behind the statement up to
    there, what separates the relation from it, and what leads in to the name. -/
theorem introduced_eq_qualifier_iff (ctx : Context) {x : Operand} (hx : x.IsRelation)
    {name : String} (hname : x.relationName? = some name) (hplain : Text.IsPlain name)
    (column : String) :
    (∃ qualified rest, Text.readIdentifier qualified.toList = some (name, '.' :: rest) ∧
        ∀ slots, Session.runStep dialect ctx (.node (.ok (x.column column))) slots =
          (.text qualified, slots)) ∧
      ∀ (s : Select Node) (before after : List Node) (slots last : Slots) (sql : String),
        s.tables = before ++ x.toColumn :: after →
        Session.runStep dialect ctx (.node (.ok (.of (.select s)))) slots = (.text sql, last) →
        ∃ front separator lead spelled introduced behind middle,
          Session.runStep dialect ctx (.node (.ok (.of (.select (upToTables s before))))) slots =
              (.text front, middle) ∧
            separator = separatorText ctx before x.toColumn ∧
            LeadsIn ctx.nested middle x.toColumn lead ∧
            sql = front ++ separator ++ lead ++ spelled ∧
            Text.readIdentifier spelled.toList = some (introduced, behind) ∧
            (introduced = name ↔
              ctx.options.quote = true ∨ ∀ c ∈ name.toList, c.isUpper = false) := by
  constructor
  · have hcolumn : x.column column = .of (.column name column) := by
      rw [Operand.column, hname]
      rfl
    refine ⟨Text.quoteIdent name ++ "." ++ Text.quoteIdent column,
      (Text.quoteIdent column).toList, ?_, fun slots => ?_⟩
    · rw [String.toList_append, String.toList_append, List.append_assoc]
      apply Text.readIdentifier_quoteIdent
      rintro c (_ | _)
      decide
    · rw [hcolumn]
      exact runStep_column ctx name column slots
  · intro s before after slots last sql htables h
    obtain ⟨front, separator, behind, middle, middle', pieces, hfront, hseparator, hentry, hbehind,
      rfl⟩ := exists_entry_of_runStep htables h
    obtain ⟨lead, rest, hlead, hrest, hpieces⟩ :=
      exists_lead_of_run (introduces_of_isRelation hx hname) hentry
    have hread := readIdentifier_identText ctx.options hplain (hrest.append hbehind)
    refine ⟨front, separator, lead, identText ctx.options name ++ rest ++ behind,
      if ctx.options.quote then name else String.ofList (Text.foldCase name),
      rest.toList ++ behind.toList, middle, hfront, hseparator, hlead, ?_, ?_, ?_⟩
    · rw [hpieces]
      simp only [Context.nested, String.append_assoc]
    · rw [String.toList_append, String.toList_append, List.append_assoc]
      exact hread
    · cases hquote : ctx.options.quote with
      | true => simp
      | false => simp [Text.ofList_foldCase_eq_iff]

/-- A join of a subquery between two other tables. Names are quoted, so the upper-case
    letter of the alias makes no difference. -/
theorem introduced_eq_qualifier_iff_joined :
    let ctx := Context.new {} { quote := true }
    let t : Node := .of (.identifier "t")
    let v : Node := .of (.identifier "v")
    let subquery : Node := .of (.select { tables := [.of (.identifier "u")] })
    let x : Operand := .join ⟨.sided .left, .of (.aliased ⟨subquery, "Sub_1"⟩),
      some ⟨.columns, .of (.identifier "id")⟩⟩
    let sql := "SELECT * FROM \"t\" LEFT JOIN (SELECT * FROM \"u\") AS \"Sub_1\" " ++
      "USING (\"id\") , \"v\""
    let s : Select Node := { tables := [t, x.toColumn, v] }
    (x.IsRelation ∧ x.relationName? = some "Sub_1" ∧ Text.IsPlain "Sub_1") ∧
      ∃ front lead spelled behind middle last,
        Session.runStep dialect ctx (.node (.ok (.of (.select s)))) {} = (.text sql, last) ∧
          sql = front ++ " " ++ lead ++ spelled ∧
          LeadsIn ctx.nested middle x.toColumn lead ∧
          Text.readIdentifier spelled.toList = some ("Sub_1", behind) := by
  intro ctx t v subquery x sql s
  have hrender : (render { quote := true } (.of (.select s)) {}).toOption.map Rendered.sql =
      some sql := by
    decide +kernel
  obtain ⟨r, hr, hsql⟩ : ∃ r, render { quote := true } (.of (.select s)) {} = .ok r ∧ r.sql = sql := by
    rcases hr : render { quote := true } (.of (.select s)) {} with e | r
    · rw [hr] at hrender
      cases hrender
    · rw [hr] at hrender
      exact ⟨r, rfl, Option.some.inj hrender⟩
  obtain ⟨pieces, last, hrun, rfl⟩ := Dialect.render_eq_ok hr
  have htext : Session.runStep dialect ctx (.node (.ok (.of (.select s)))) {} = (.text sql, last) := by
    rw [Session.runStep_node, ← hsql]
    exact Session.write_of_run hrun
  have hjoined : Join.build .left (.aliased ⟨subquery, "Sub_1"⟩) ⟨.columns, .of (.identifier "id")⟩ =
      .ok ⟨.sided .left, .of (.aliased ⟨subquery, "Sub_1"⟩),
        some ⟨.columns, .of (.identifier "id")⟩⟩ := rfl
  have hx : x.IsRelation := .join hjoined
  have hplain : Text.IsPlain "Sub_1" := by decide
  obtain ⟨front, _, lead, spelled, introduced, behind, middle, -, rfl, hlead, hcut, hread, hiff⟩ :=
    (introduced_eq_qualifier_iff ctx hx rfl hplain "id").2 s [t] [v] {} last sql rfl htext
  obtain rfl := hiff.mpr (.inl rfl)
  exact ⟨⟨hx, rfl, hplain⟩, front, lead, spelled, behind, middle, last, htext, hcut, hlead, hread⟩

/-- An upper-case letter in a name without quotes: the columns of the relation are
    those of another one. -/
theorem introduced_ne_qualifier :
    let x : Operand := .identifier "Users"
    let s : Select Node := { columns := [x.column "id"], tables := [x.toColumn] }
    (x.IsRelation ∧ x.relationName? = some "Users" ∧ Text.IsPlain "Users") ∧
      (render {} (.of (.select s)) {}).toOption.map Rendered.sql =
        some "SELECT \"Users\".\"id\" FROM Users" ∧
      (render {} (x.column "id") {}).toOption.map Rendered.sql = some "\"Users\".\"id\"" ∧
      (Text.readIdentifier "\"Users\".\"id\"".toList).map Prod.fst = some "Users" ∧
      (Text.readIdentifier "Users".toList).map Prod.fst = some "users" := by
  intro x s
  exact ⟨⟨.identifier "Users", rfl, by decide⟩, by decide +kernel, by decide +kernel, by decide +kernel,
    by decide +kernel⟩

end Postgres

end SqlKit
