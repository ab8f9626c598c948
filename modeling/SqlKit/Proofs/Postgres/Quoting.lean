/-
  SqlKit/Proofs/Postgres/Quoting.lean
  ===================================
  **Quoting names is a renaming.**

  With the option to quote, identifiers and alias names are written in quotes. The
  same text comes out without the option, if the names are replaced by their quoted
  forms in the tree before it is rendered (`Node.quoteNames`). Nothing else in the
  tree depends on the option: columns are always quoted, functions and types never
  are, and the star is not a name.

  A layer is renamed by itself (`Form.quoteNames`), and the rule for the renamed
  layer without the option is the rule for the layer with it (`rule_quoteNames`).
  The layouts of the two trees are therefore equal, and a run does not look at
  the option at all.
-/
import SqlKit.Proofs.Postgres.Layout
import SqlKit.Proofs.Render.LineBreak

namespace SqlKit

/-! ## 1. Renaming -/

/-- The quoted form of a name; the star stays as it is. -/
def Text.quoteName (name : String) : String :=
  if name = "*" then name else quoteIdent name

section Layer

variable {ν μ : Type}

/-- A layer with its identifier or its alias name quoted. -/
def Form.quoteNames : Form ν → Form ν
  | .identifier name => .identifier (Text.quoteName name)
  | .aliased named => .aliased { named with name := Text.quoteName named.name }
  | form => form

theorem Form.map_quoteNames (f : ν → μ) (form : Form ν) :
    form.quoteNames.map f = (form.map f).quoteNames := by
  cases form <;> rfl

theorem Form.kind_quoteNames (form : Form ν) : form.quoteNames.kind = form.kind := by
  cases form <;> rfl

end Layer

/-- A tree with all identifiers and alias names quoted, at any depth. -/
def Node.quoteNames : Node → Node :=
  recurse fun form => .of (form.map Part.result).quoteNames

theorem Node.quoteNames_of (form : Form Node) :
    quoteNames (.of form) = .of (form.map quoteNames).quoteNames := by
  rw [quoteNames, recurse_of, Form.map_map]
  rfl

theorem Node.kind_quoteNames (node : Node) : node.quoteNames.kind = node.kind := by
  obtain ⟨form⟩ := node
  rw [quoteNames_of]
  change (form.map quoteNames).quoteNames.kind = form.kind
  rw [Form.kind_quoteNames, Form.kind_map]

namespace Postgres

/-! ## 2. The layout of a renamed tree -/

theorem identText_quoteName (options : Options) (name : String) :
    identText { options with quote := false } (Text.quoteName name) =
      identText { options with quote := true } name := by
  have hname : identText { options with quote := false } (Text.quoteName name) =
      Text.quoteName name := rfl
  rw [hname, identText, Text.quoteName]
  by_cases hstar : name = "*" <;> simp [hstar]

/-- **The rule for a renamed layer** without quotes is the rule for the layer with
    quotes. -/
theorem rule_quoteNames (options : Options) (form : Form (Part Template)) :
    rule { options with quote := false } form.quoteNames =
      rule { options with quote := true } form := by
  cases form with
  | identifier name => exact congrArg Template.text (identText_quoteName options name)
  | aliased named =>
    exact congrArg (fun name => named.source.operand ++ Template.text (" AS " ++ name))
      (identText_quoteName options named.name)
  | _ => rfl

/-- The layout of a renamed tree without quotes is the layout of the tree with quotes. -/
theorem template_quoteNames (options : Options) (node : Node) :
    dialect.template { options with quote := true } node =
      dialect.template { options with quote := false } node.quoteNames := by
  induction node using Node.induction with
  | layer form ih =>
    rw [Node.quoteNames_of, template_of, template_of, Form.map_quoteNames, rule_quoteNames,
      Form.map_map]
    have hparts : ∀ node ∈ form.parts,
        (Node.part (dialect.layout { options with quote := true }) node).Similar Eq
          (Node.part (dialect.layout { options with quote := false }) node.quoteNames) := by
      intro node hnode
      exact .of_kind node.kind_quoteNames.symm (ih node hnode)
    refine rule_congr Template.congruence_eq _ form rfl hparts ?_
    rintro op left right rfl
    refine congr_binary Template.congruence_eq (fun _ _ _ _ => rfl) right.kind_quoteNames.symm ?_
      (hparts left (by simp [Form.parts])) (hparts right (by simp [Form.parts]))
    -- Neither the null literal nor a binding has a name to be quoted.
    obtain ⟨form⟩ := right
    rintro (hnull | hbinding)
    · obtain rfl := Form.eq_null_of_kind hnull
      rfl
    · obtain ⟨name, rfl⟩ := Form.eq_binding_of_kind hbinding
      rfl

/-! ## 3. Rendering -/

/-- **Quoting names is a renaming.** Rendering a tree with quotes comes to the same
    text and values, or the same error, as rendering without quotes the tree in
    which every identifier and alias name but the star is in its quoted form. -/
theorem render_quoteNames (options : Options) (node : Node) (args : Args) :
    render { options with quote := true } node args =
      render { options with quote := false } node.quoteNames args := by
  have hrun : (dialect.template { options with quote := true } node).run
        (.new args { options with quote := true }) {} =
      (dialect.template { options with quote := false } node.quoteNames).run
        (.new args { options with quote := false }) {} := by
    rw [template_quoteNames]
    apply Template.run_congr
    · intro name _
      rfl
    · rfl
  rw [render, render, Dialect.render, Dialect.render, hrun]
  rfl

/-- A quote within a name is doubled once; the star and the column are left alone. -/
example :
    let node : Node := .of (.select
      { columns := [.of (.aliased ⟨.of (.call "count" [.of (.identifier "*")]), "a\"b"⟩)]
        tables := [.of (.identifier "t"), .of (.column "u" "v")] })
    (render {} node.quoteNames {}).toOption.map Rendered.sql =
      some "SELECT count(*) AS \"a\"\"b\" FROM \"t\" , \"u\".\"v\"" := by
  decide +kernel

end Postgres

end SqlKit
