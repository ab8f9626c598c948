/-
  SqlKit/Proofs/Postgres/Failure.lean
  ===================================
  **When a tree cannot be rendered.**

  Some nodes cannot be rendered whatever surrounds them: a list within a list, a
  binding whose argument is such a list or is missing where it must not be, and
  an aggregate call that is DISTINCT and ALL at once. `Form.offence?` names the
  error of such a layer. A render fails exactly on the trees that hold one, with
  the error of the first in the order in which the tree is written
  (`render_error_iff`).

  The slots do not enter into it. A run fails where the meaning of its template
  fails, at the first fragment that has no meaning (`Template.faults`), and the
  faults of a layout are the offences of the layers it was made from
  (`head?_faults_template`). Only the first of them agree: a call that
  contradicts itself hides what is inside it.
-/
import SqlKit.Proofs.Postgres.Layout

namespace SqlKit

/-! ## 1. Faults of a template -/

/-- Why a fragment cannot be written. -/
def Fragment.faults (ctx : Context) (fragment : Fragment) : List Error :=
  match fragment.inPlace ctx with
  | .error e => [e]
  | .ok _ => []

/-- Why the fragments of a template cannot be written, one after the other. -/
def Template.faults (ctx : Context) (t : Template) : List Error :=
  t.flatMap (Fragment.faults ctx)

theorem Template.inPlace_eq_error_iff {ctx : Context} {t : Template} {e : Error} :
    t.inPlace ctx = .error e ↔ (t.faults ctx).head? = some e := by
  induction t with
  | nil => simp [inPlace, faults]
  | cons fragment rest ih =>
    rw [faults, List.flatMap_cons, Fragment.faults, inPlace]
    rcases fragment.inPlace ctx with e' | symbols
    · simp
    · rw [faults] at ih
      rw [List.nil_append, ← ih]
      rcases inPlace ctx rest with e' | more <;> simp [Except.map]

/-- A render fails at the first fault of its template. -/
theorem Dialect.render_eq_error_iff (d : Dialect) {options : Options} {node : Node} {args : Args}
    {e : Error} : d.render options node args = .error e ↔
      ((d.template options node).faults (Context.new args options)).head? = some e := by
  rw [← Template.inPlace_eq_error_iff]
  rcases d.render_cases options node args with
    ⟨e', hmeaning, hrender⟩ | ⟨symbols, r, hmeaning, hrender, -, -⟩
  · rw [hmeaning, hrender, Except.error.injEq, Except.error.injEq]
  · rw [hmeaning, hrender]
    constructor <;> intro h <;> cases h

/-! ## 2. Offences of a tree -/

/-- Why a layer cannot be rendered, whatever its children are. -/
def Form.offence? {ν : Type} (options : Options) (args : Args) : Form ν → Option Error
  | .list items =>
    if Value.hasNested items then some (.unsupportedLiteral .nestedList) else none
  | .binding name =>
    match args.get? name with
    | some (.list items) =>
      if Value.hasNested items then some (.unsupportedLiteral .nestedList) else none
    | some _ => none
    | none => if options.unbound = .reject then some (.unboundBinding name) else none
  | .aggregate applied =>
    if applied.distinct && applied.all then some (.conflictingModifiers applied.name) else none
  | _ => none

namespace Postgres

variable {options : Options} {args : Args}

theorem faults_values (ctx : Context) (items : List Value) :
    Fragment.faults ctx (.values items) =
      (if Value.hasNested items then some (Error.unsupportedLiteral .nestedList) else none).toList := by
  rw [Fragment.faults, Fragment.inPlace, Value.inPlace]
  cases Value.hasNested items <;> rfl

theorem faults_binding (name : String) :
    Fragment.faults (Context.new args options) (.binding name) =
      ((Form.binding name : Form Node).offence? options args).toList := by
  rw [Form.offence?, Fragment.faults, Fragment.inPlace, Context.inPlace, Context.lookup]
  dsimp only [Context.new]
  rcases args.get? name with _ | value
  · cases options.unbound <;> rfl
  · cases value with
    | list items => exact faults_values (Context.new args options) items
    | _ => rfl

/-- A comparison with a binding fails as the binding does: if the binding is
    null, neither fails. -/
theorem faults_comparand (ctx : Context) (name ifNull before behind : String) :
    Fragment.faults ctx (.comparand name ifNull before behind) =
      Fragment.faults ctx (.binding name) := by
  rw [Fragment.faults, Fragment.faults, Fragment.inPlace, Fragment.inPlace]
  rcases hlookup : ctx.lookup name with e | _ | value
  · rw [Context.inPlace, hlookup]
  · rw [Context.inPlace, hlookup]
  · rcases ctx.inPlace name with e | symbols <;> rfl

/-- What a layer writes by itself has its offence as the only fault. -/
theorem faults_own {form : Form Node} :
    (form.own.flatMap (Fragment.faults (Context.new args options))).head? =
      form.offence? options args := by
  cases form with
  | list items =>
    rw [Form.own, List.flatMap_singleton, faults_values, Option.head?_toList]
    rfl
  | binding name =>
    rw [Form.own, List.flatMap_singleton, faults_binding, Option.head?_toList]
  | aggregate applied =>
    rw [Form.own, Form.offence?]
    split <;> rfl
  | _ => rfl

theorem head?_flatMap_congr {α β : Type} {xs : List α} {f g : α → List β}
    (h : ∀ x ∈ xs, (f x).head? = (g x).head?) : (xs.flatMap f).head? = (xs.flatMap g).head? := by
  induction xs with
  | nil => rfl
  | cons x xs ih =>
    have hx := h x List.mem_cons_self
    have hrest := ih fun y hy => h y (List.mem_cons_of_mem x hy)
    rw [List.flatMap_cons, List.flatMap_cons, List.head?_append, List.head?_append, hx, hrest]

/-- The first fault of a layout is the first offence of its tree. -/
theorem head?_faults_template (options : Options) (args : Args) (node : Node) :
    ((dialect.template options node).faults (Context.new args options)).head? =
      node.subtrees.findSome? fun n => n.form.offence? options args := by
  have hfind (nodes : List Node) :
      (nodes.findSome? fun n => n.form.offence? options args) =
        (nodes.flatMap fun n => (n.form.offence? options args).toList).head? := by
    rw [List.head?_flatMap]
    simp only [Option.head?_toList]
  induction node using Node.induction with
  | layer form ih =>
    rw [Node.subtrees_of, List.findSome?_cons]
    rcases form.conflict_or_agree with ⟨name, applied, order, rfl⟩ | hagree
    · -- a call that contradicts itself is all that is looked at
      rfl
    · rw [Template.faults, flatMap_template (fun _ => rfl) rfl options form
        (fun name ifNull before behind => faults_comparand _ name ifNull before behind) hagree,
        List.head?_append, faults_own]
      have hparts : (form.parts.flatMap fun node => (dialect.template options node).flatMap
            (Fragment.faults (Context.new args options))).head? =
          (form.parts.flatMap Node.subtrees).findSome? fun n => n.form.offence? options args := by
        rw [hfind, List.flatMap_assoc]
        apply head?_flatMap_congr
        intro node hnode
        rw [← hfind]
        exact ih node hnode
      rw [hparts]
      cases hown : form.offence? options args <;> simp only [Node.form, hown] <;> rfl

/-! ## 3. Renders that fail -/

theorem render_eq_error_iff {options : Options} {node : Node} {args : Args} {e : Error} :
    render options node args = .error e ↔
      (node.subtrees.findSome? fun n => n.form.offence? options args) = some e := by
  rw [← head?_faults_template]
  exact dialect.render_eq_error_iff

theorem offence?_eq_none_of_render {node n : Node} {r : Rendered}
    (h : render options node args = .ok r) (hn : n ∈ node.subtrees) :
    n.form.offence? options args = none := by
  cases hoffence : n.form.offence? options args with
  | none => rfl
  | some e =>
    have hsome : (node.subtrees.findSome? fun n => n.form.offence? options args).isSome := by
      rw [List.findSome?_isSome_iff]
      exact ⟨n, hn, Option.isSome_of_eq_some hoffence⟩
    obtain ⟨e', he'⟩ := Option.isSome_iff_exists.mp hsome
    cases (render_eq_error_iff.mpr he').symm.trans h

/-- **A render fails exactly where the tree holds an offender**, and with the
    error of the first one in the order in which the tree is written. No form is
    without a rule. -/
theorem render_error_iff (options : Options) (node : Node) (args : Args) :
    (∀ e, render options node args = .error e ↔
        (node.subtrees.findSome? fun n => n.form.offence? options args) = some e) ∧
      ((∃ e, render options node args = .error e) ↔
        ∃ n ∈ node.subtrees, (n.form.offence? options args).isSome) ∧
      ∀ name found, render options node args ≠ .error (.unsupportedNode name found) := by
  refine ⟨fun e => render_eq_error_iff, ?_, ?_⟩
  · rw [← List.findSome?_isSome_iff, Option.isSome_iff_exists]
    exact exists_congr fun e => render_eq_error_iff
  · intro name found h
    obtain ⟨n, -, hoffence⟩ := List.exists_of_findSome?_eq_some (render_eq_error_iff.mp h)
    obtain ⟨form⟩ := n
    cases form with
    | list items => simp [Node.form, Form.offence?] at hoffence
    | binding name =>
      simp only [Node.form, Form.offence?] at hoffence
      split at hoffence <;> simp at hoffence
    | aggregate applied => simp [Node.form, Form.offence?] at hoffence
    | _ => cases hoffence

end Postgres

end SqlKit
