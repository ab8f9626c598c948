/-
  SqlKit/Proofs/Postgres/Characters.lean
  ======================================
  **The characters of a layout.**

  The rules themselves write capital letters, digits, blanks and a few signs
  (`isGlyph`). Everything else in the fixed texts of a layout comes from a name in
  the tree: whatever holds of those characters and of the characters of the names
  holds of all characters of its fixed texts (`over_template`). Values are not
  among them, since they are never written out.
-/
import SqlKit.Proofs.Node.Gather
import SqlKit.Proofs.Render.LineBreak
import SqlKit.Postgres

namespace SqlKit

namespace Template

/-! ## 1. Fixed texts over some characters -/

/-- The fixed texts are made of characters of one sort. -/
def Over (P : Char → Prop) (t : Template) : Prop :=
  ∀ c ∈ t.chars, P c

variable {P : Char → Prop} {t u : Template}

theorem over_nil : Over P [] :=
  List.forall_mem_nil P

theorem over_text {s : String} (h : ∀ c ∈ s.toList, P c) : (text s).Over P := by
  intro c hc
  rw [chars, text, List.flatMap_singleton] at hc
  exact h c hc

theorem over_append {s s' : String} (hs : ∀ c ∈ s.toList, P c) (hs' : ∀ c ∈ s'.toList, P c) :
    ∀ c ∈ (s ++ s').toList, P c := by
  intro c hc
  rw [String.toList_append, List.mem_append] at hc
  rcases hc with hc | hc
  · exact hs c hc
  · exact hs' c hc

theorem Over.append (ht : t.Over P) (hu : u.Over P) : (t ++ u).Over P := by
  intro c hc
  rw [chars, List.flatMap_append, List.mem_append] at hc
  rcases hc with hc | hc
  · exact ht c hc
  · exact hu c hc

theorem over_flatMap {ν : Type} {xs : List ν} {f : ν → Template} (h : ∀ x ∈ xs, (f x).Over P) :
    Over P (xs.flatMap f) := by
  intro c hc
  rw [chars, List.flatMap_assoc, List.mem_flatMap] at hc
  obtain ⟨x, hx, hc⟩ := hc
  exact h x hx c hc

theorem over_separated {separator : String} (hseparator : ∀ c ∈ separator.toList, P c)
    {ts : List Template} (h : ∀ t ∈ ts, Over P t) : (separated separator ts).Over P := by
  induction ts with
  | nil => exact over_nil
  | cons t ts ih =>
    have ht := h t List.mem_cons_self
    have hrest := ih fun u hu => h u (List.mem_cons_of_mem t hu)
    cases ts with
    | nil => simpa [separated] using ht
    | cons u ts => exact ht.append ((over_text hseparator).append hrest)

/-- On one line there is a blank for every line break, and nothing else is new. -/
theorem Over.inline (hblank : P ' ') (h : t.Over P) : t.inline.Over P := by
  intro c hc
  rw [chars, Template.inline, List.flatMap_map, List.mem_flatMap] at hc
  obtain ⟨fragment, hfragment, hc⟩ := hc
  cases fragment with
  | clauseBreak =>
    obtain rfl := List.mem_singleton.mp hc
    exact hblank
  | _ => exact h c (List.mem_flatMap.mpr ⟨_, hfragment, hc⟩)

end Template

namespace Postgres

open Template (text Over over_text over_append over_nil)
open Text (quoteIdent)

/-! ## 2. Characters of a layout -/

/-- A character that the rules write of their own accord. -/
def isGlyph (c : Char) : Bool :=
  c.isUpper || c.isDigit || " ,.:\"()+-*/=!<>".toList.contains c

section Characters

variable {P : Char → Prop} (hglyph : ∀ c, isGlyph c = true → P c)
include hglyph

theorem over_glyphs {s : String} (h : s.toList.all isGlyph = true) : ∀ c ∈ s.toList, P c := by
  intro c hc
  exact hglyph c (List.all_eq_true.mp h c hc)

theorem over_word {s : String} (h : s.toList.all isGlyph = true) : (text s).Over P :=
  over_text (over_glyphs hglyph h)

theorem over_digits (n : Nat) : ∀ c ∈ Nat.toDigits 10 n, P c := by
  intro c hc
  have hdigit := Nat.isDigit_of_mem_toDigits (by decide) (by decide) hc
  apply hglyph
  simp [isGlyph, hdigit]

theorem over_nat (n : Nat) : (text (toString n)).Over P := by
  apply over_text
  rw [Nat.toString_eq_repr, Nat.toList_repr]
  exact over_digits hglyph n

theorem over_int (i : Int) : (text (toString i)).Over P := by
  cases i with
  | ofNat n => exact over_nat hglyph n
  | negSucc n =>
    apply over_text
    change ∀ c ∈ ("-" ++ Nat.repr (n + 1)).toList, P c
    apply over_append (over_glyphs hglyph (by decide))
    rw [Nat.toList_repr]
    exact over_digits hglyph (n + 1)

/-- A quoted name has the characters of the name, and quotes. -/
theorem over_quoteIdent {name : String} (hname : ∀ c ∈ name.toList, P c) :
    ∀ c ∈ (quoteIdent name).toList, P c := by
  have hquote : P '"' := hglyph '"' (by decide)
  intro c hc
  simp only [Text.toList_quoteIdent, Text.doubleQuotes, List.cons_append, List.mem_cons,
    List.mem_append, List.mem_flatMap, List.not_mem_nil, or_false] at hc
  rcases hc with rfl | ⟨d, hd, hc⟩ | rfl
  · exact hquote
  · by_cases hd' : d = '"'
    · subst hd'
      rw [if_pos rfl] at hc
      obtain rfl : c = '"' := by simpa using hc
      exact hquote
    · rw [if_neg hd'] at hc
      obtain rfl := List.mem_singleton.mp hc
      exact hname c hd
  · exact hquote

theorem over_identText (options : Options) {name : String} (hname : ∀ c ∈ name.toList, P c) :
    ∀ c ∈ (identText options name).toList, P c := by
  rw [identText]
  split
  · exact over_quoteIdent hglyph hname
  · exact hname

section Parts

variable {part left right : Part Template}

theorem over_enclosed {t : Template} {compound : Bool} (h : t.Over P) :
    (t.operand compound).Over P := by
  cases compound with
  | false => exact h
  | true => exact ((over_word hglyph (by decide)).append h).append (over_word hglyph (by decide))

theorem over_operand (h : part.result.Over P) : part.operand.Over P :=
  over_enclosed hglyph h

theorem over_commaSeparated {ν : Type} {xs : List ν} {f : ν → Template}
    (h : ∀ x ∈ xs, (f x).Over P) : (commaSeparated (xs.map f)).Over P := by
  apply Template.over_separated
  · exact over_glyphs hglyph (by decide)
  · intro t ht
    obtain ⟨x, hx, rfl⟩ := List.mem_map.mp ht
    exact h x hx

/-- A comparison with a binding has two wordings, both of them the rule's own. -/
theorem over_comparand {name ifNull before behind : String}
    (h : (ifNull.toList ++ before.toList ++ behind.toList).all isGlyph = true) :
    Template.Over P [.comparand name ifNull before behind] := by
  intro c hc
  rw [Template.chars, List.flatMap_singleton] at hc
  exact hglyph c (List.all_eq_true.mp h c hc)

theorem over_binary (op : Operator) (hleft : left.result.Over P) (hright : right.result.Over P) :
    (binary op left right).Over P := by
  have hl := over_operand hglyph hleft
  have hsymbol : (text (" " ++ op.symbol ++ " ")).Over P :=
    over_word hglyph (by cases op <;> decide)
  unfold binary
  split
  · rename_i test _ htest _
    apply hl.append
    cases op <;> simp only [nullTest?, Option.some.injEq, reduceCtorEq] at htest <;>
      subst htest <;> exact over_word hglyph (by decide)
  · rename_i test _ name htest _
    apply hl.append
    cases op <;> simp only [nullTest?, Option.some.injEq, reduceCtorEq] at htest <;>
      subst htest <;> exact over_comparand hglyph (by decide)
  · exact (hl.append hsymbol).append (over_operand hglyph hright)

theorem over_orderItems {items : List (OrderItem (Part Template))}
    (h : ∀ item ∈ items, item.key.result.Over P) : (orderItems items).Over P := by
  apply over_commaSeparated hglyph
  intro item hitem
  exact (h item hitem).append (over_word hglyph (by cases item.direction <;> decide))

theorem over_orderClause {items : List (OrderItem (Part Template))}
    (h : ∀ item ∈ items, item.key.result.Over P) : (orderClause items).Over P := by
  unfold orderClause
  split
  · exact over_nil
  · exact (over_word hglyph (by decide)).append (over_orderItems hglyph h)

theorem over_aggregate {applied : Aggregate (Part Template)}
    (hname : ∀ c ∈ applied.name.toList, P c) (hargs : ∀ arg ∈ applied.args, arg.result.Over P)
    (horder : ∀ item ∈ applied.order, item.key.result.Over P) : (aggregate applied).Over P := by
  have hbody := over_commaSeparated hglyph fun arg harg => over_operand hglyph (hargs arg harg)
  unfold aggregate
  split
  · exact over_nil
  · refine Over.append (Over.append (Over.append ?_ hbody) (over_orderClause hglyph horder))
      (over_word hglyph (by decide))
    apply over_text
    apply over_append (over_append hname (over_glyphs hglyph (by decide)))
    split
    · exact over_glyphs hglyph (by decide)
    · split <;> exact over_glyphs hglyph (by decide)

theorem over_joinCondition {condition : JoinCondition (Part Template)}
    (h : condition.condition.result.Over P) : (joinCondition condition).Over P := by
  refine Over.append (Over.append ?_ h) (over_word hglyph (by decide))
  exact over_word hglyph (by cases condition.test <;> decide)

theorem over_join {joined : Join (Part Template)} (htable : joined.table.result.Over P)
    (hcondition : ∀ condition ∈ joined.condition, condition.condition.result.Over P) :
    (join joined).Over P := by
  have hwords : (joinWords joined.kind ++ " ").toList.all isGlyph = true := by
    rcases joined.kind with side | _
    · cases side <;> decide
    · decide
  have hjoined := (over_word hglyph hwords).append htable
  unfold join
  split
  · exact hjoined
  · rename_i condition hsome
    exact (hjoined.append (over_word hglyph (by decide))).append
      (over_joinCondition hglyph (hcondition condition hsome))

/-! ### Statements -/

theorem over_columns {parts : List (Part Template)} (h : ∀ part ∈ parts, part.result.Over P) :
    (columns parts).Over P := by
  unfold columns
  split
  · exact over_word hglyph (by decide)
  · apply over_commaSeparated hglyph
    intro part hpart
    unfold column
    split
    · exact over_operand hglyph (h part hpart)
    · exact h part hpart

theorem over_tables {parts : List (Part Template)} (h : ∀ part ∈ parts, part.result.Over P) :
    (tables parts).Over P := by
  cases parts with
  | nil => exact over_nil
  | cons first rest =>
    apply (h first List.mem_cons_self).append
    apply Template.over_flatMap
    intro part hpart
    have hpart := h part (List.mem_cons_of_mem first hpart)
    unfold furtherTable
    split
    · exact (over_word hglyph (by decide)).append hpart
    · exact (over_word hglyph (by decide)).append hpart

theorem over_foldl_and {condition : Condition} {parts : List (Part Template)}
    (hcondition : condition.template.Over P) (h : ∀ part ∈ parts, part.result.Over P) :
    (parts.foldl Condition.and condition).template.Over P := by
  induction parts generalizing condition with
  | nil => exact hcondition
  | cons part rest ih =>
    apply ih
    · refine Over.append (Over.append ?_ (over_word hglyph (by decide)))
        (over_operand hglyph (h part List.mem_cons_self))
      exact over_enclosed hglyph hcondition
    · intro other hother
      exact h other (List.mem_cons_of_mem _ hother)

theorem over_conjunction {parts : List (Part Template)} (h : ∀ part ∈ parts, part.result.Over P) :
    (conjunction parts).Over P := by
  cases parts with
  | nil => exact over_nil
  | cons first rest =>
    apply over_foldl_and hglyph (h first List.mem_cons_self)
    intro part hpart
    exact h part (List.mem_cons_of_mem first hpart)

theorem over_clause (present : Bool) {keyword : String} {body : Template}
    (hkeyword : keyword.toList.all isGlyph = true) (h : body.Over P) :
    (clause present keyword body).Over P := by
  unfold clause
  split
  · exact (over_word hglyph hkeyword).append h
  · exact over_nil

theorem over_clauses {s : Select (Part Template)} (h : ∀ part ∈ s.parts, part.result.Over P) :
    (clauses s).Over P := by
  simp only [Select.parts, List.mem_append, List.mem_map, or_imp, forall_and] at h
  obtain ⟨⟨⟨⟨hcolumns, htables⟩, hconditions⟩, hgroups⟩, horder⟩ := h
  have hitems : ∀ item ∈ s.order, item.key.result.Over P := by
    intro item hitem
    exact horder item.key ⟨item, hitem, rfl⟩
  have hselect : (text (if s.distinct then "SELECT DISTINCT " else "SELECT ")).Over P :=
    over_word hglyph (by split <;> decide)
  unfold clauses
  refine Over.append (Over.append (Over.append (Over.append (Over.append (Over.append
    (hselect.append (over_columns hglyph hcolumns)) ?_) ?_) ?_) ?_) ?_) ?_
  · exact over_clause hglyph _ (by decide) (over_tables hglyph htables)
  · exact over_clause hglyph _ (by decide) (over_conjunction hglyph hconditions)
  · exact over_clause hglyph _ (by decide) (over_commaSeparated hglyph hgroups)
  · exact over_clause hglyph _ (by decide) (over_orderItems hglyph hitems)
  · exact over_clause hglyph _ (by decide) (over_nat hglyph s.limit)
  · exact over_clause hglyph _ (by decide) (over_nat hglyph s.offset)

end Parts

/-! ### Trees -/

theorem over_rule (options : Options) (form : Form (Part Template))
    (hnames : ∀ name ∈ form.names, ∀ c ∈ name.toList, P c)
    (hparts : ∀ part ∈ form.parts, part.result.Over P) : (rule options form).Over P := by
  cases form with
  | identifier name =>
    exact over_text (over_identText hglyph options (hnames name (by simp [Form.names])))
  | integer value => exact over_int hglyph _
  | string s => exact over_nil
  | list items => exact over_nil
  | null => exact over_word hglyph (by decide)
  | binding name => exact over_nil
  | column table name =>
    have htable := over_quoteIdent hglyph (hnames table (by simp [Form.names]))
    have hname := over_quoteIdent hglyph (hnames name (by simp [Form.names]))
    exact over_text (over_append (over_append htable (over_glyphs hglyph (by decide))) hname)
  | binary op left right =>
    have hleft := hparts left (by simp [Form.parts])
    have hright := hparts right (by simp [Form.parts])
    exact over_binary hglyph op hleft hright
  | membership element set =>
    have helement := over_operand hglyph (hparts element (by simp [Form.parts]))
    have hset := over_operand hglyph (hparts set (by simp [Form.parts]))
    exact (helement.append (over_word hglyph (by decide))).append hset
  | cast inner type =>
    have hinner := hparts inner (by simp [Form.parts])
    have htype := hnames type (by simp [Form.names])
    exact ((over_word hglyph (by decide)).append hinner).append
      (over_text (over_append (over_glyphs hglyph (by decide)) htype))
  | call name args =>
    have hname := hnames name (by simp [Form.names])
    have hargs := over_commaSeparated hglyph fun arg harg => over_operand hglyph (hparts arg harg)
    exact ((over_text (over_append hname (over_glyphs hglyph (by decide)))).append hargs).append
      (over_word hglyph (by decide))
  | aggregate applied =>
    apply over_aggregate hglyph (hnames _ (by simp [Form.names]))
    · intro arg harg
      exact hparts arg (List.mem_append_left _ harg)
    · intro item hitem
      exact hparts item.key (List.mem_append_right _ (List.mem_map.mpr ⟨item, hitem, rfl⟩))
  | aliased named =>
    have hsource := over_operand hglyph (hparts named.source (by simp [Form.parts]))
    have hname := over_identText hglyph options (hnames named.name (by simp [Form.names]))
    exact hsource.append (over_text (over_append (over_glyphs hglyph (by decide)) hname))
  | join joined =>
    apply over_join hglyph (hparts joined.table (by simp [Form.parts, Join.parts]))
    intro condition hcondition
    have hsome : joined.condition = some condition := hcondition
    exact hparts condition.condition (by simp [Form.parts, Join.parts, hsome])
  | joinCondition condition =>
    exact over_joinCondition hglyph (hparts _ (by simp [Form.parts]))
  | order items =>
    apply over_orderClause hglyph
    intro item hitem
    exact hparts item.key (List.mem_map.mpr ⟨item, hitem, rfl⟩)
  | select statement =>
    apply over_clauses hglyph
    intro part hpart
    have hmem : part ∈ (Form.map Part.inline (.select statement)).parts := hpart
    rw [Form.parts_map, List.mem_map] at hmem
    obtain ⟨part, hmem, rfl⟩ := hmem
    exact (hparts part hmem).inline (hglyph ' ' (by decide))

/-- **The fixed texts of a layout** have the characters of the names in the tree
    and the characters that rules write, and no other. -/
theorem over_template (options : Options) {node : Node}
    (hnames : ∀ name ∈ node.names, ∀ c ∈ name.toList, P c) :
    (dialect.template options node).Over P := by
  induction node using Node.induction with
  | layer form ih =>
    rw [Node.names_of] at hnames
    rw [template_of]
    apply over_rule hglyph
    · intro name hname
      rw [Form.names_map] at hname
      exact hnames name (List.mem_append_left _ hname)
    · intro part hpart
      rw [Form.parts_map, List.mem_map] at hpart
      obtain ⟨child, hchild, rfl⟩ := hpart
      apply ih child hchild
      intro name hname
      exact hnames name (List.mem_append_right _ (List.mem_flatMap.mpr ⟨child, hchild, hname⟩))

end Characters

end Postgres

end SqlKit
