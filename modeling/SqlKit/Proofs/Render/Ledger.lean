/-
  SqlKit/Proofs/Render/Ledger.lean
  ================================
  **Which slot belongs to what.**

  The slots record the spans of bindings and nothing about the other slots. To
  say that the two never get mixed up, a `Ledger` keeps beside the slots what
  each of them was handed out for, its `Holder`: a value known in the tree, or
  one value of the argument of a binding. The ledgers of a session are those
  after every single fragment it writes, so they include the states in the
  middle of a tree that fails later (`Session.ledgers`).

  The invariant is `Ledger.Sound`: the holders say what is in the slots, before
  and after the arguments are filled in, and each span lies on the holders of
  its binding. Handing out slots only ever appends, so it is enough to look at
  the two ways of doing so (`Sound.take`, `Sound.reserve`). What it comes to for
  the slots themselves is `Ledger.Balanced`, which holds at every point of every
  session (`Session.balanced_ledgers`).
-/
import SqlKit.Render.Session
import SqlKit.Proofs.Render.InPlace

namespace SqlKit

/-! ## 1. Ledgers -/

/-- What a slot was handed out for: a value known in the tree, or the value at a
    position of the argument of a binding. -/
inductive Holder where
  | static (value : Value)
  | binding (name : String) (position : Nat)

/-- Slots, and what each of them was handed out for. -/
structure Ledger where
  slots : Slots := {}
  holders : List Holder := []

/-- What the slots are for that a fragment adds. -/
def Fragment.holders (added : Nat) : Fragment → List Holder
  | .value v => [.static v]
  | .values items => items.map .static
  | .binding name | .comparand name _ _ _ => (List.range added).map (.binding name)
  | .verbatim _ | .clauseBreak | .fail _ => []

/-- The ledger after a fragment that leaves the slots `after`. -/
def Ledger.record (l : Ledger) (fragment : Fragment) (after : Slots) : Ledger :=
  ⟨after, l.holders ++ fragment.holders (after.values.length - l.slots.values.length)⟩

/-- The ledgers after each fragment of a template, up to an error. -/
def Template.ledgers (ctx : Context) : Template → Ledger → List Ledger
  | [], _ => []
  | fragment :: rest, l =>
    match fragment.emit ctx l.slots with
    | .error _ => []
    | .ok (_, after) => l.record fragment after :: ledgers ctx rest (l.record fragment after)

namespace Session

/-- What a step writes by itself; a step that only looks writes nothing. -/
def written (d : Dialect) (ctx : Context) : Step → Template
  | .value v => [.value v]
  | .values items => [.values items]
  | .binding name => [.binding name]
  | .node (.ok tree) => d.template ctx.options tree
  | .operand (.ok tree) => d.operandTemplate ctx.options tree
  | _ => []

mutual

/-- The ledgers after each fragment that a step writes. -/
def stepLedgers (d : Dialect) (ctx : Context) : Step → Ledger → List Ledger
  | .nested steps, l => ledgers d ctx.nested steps l
  | step, l => (written d ctx step).ledgers ctx l

/-- The ledgers after each fragment that a session writes. -/
def ledgers (d : Dialect) (ctx : Context) : List Step → Ledger → List Ledger
  | [], _ => []
  | step :: rest, l =>
    stepLedgers d ctx step l ++ ledgers d ctx rest ((stepLedgers d ctx step l).getLastD l)

end

end Session

/-! ## 2. Sound ledgers -/

namespace Holder

/-- What a slot holds when it is handed out. -/
def initial : Holder → Value
  | .static v => v
  | .binding _ _ => .null

/-- What a slot holds once the arguments are filled in. -/
def final (args : Args) : Holder → Value
  | .static v => v
  | .binding name position => ((args.get? name).getD .null).elements.getD position .null

theorem map_initial_static (items : List Value) : (items.map static).map initial = items := by
  rw [List.map_map]
  exact List.map_id _

theorem map_final_static (args : Args) (items : List Value) :
    (items.map static).map (final args) = items := by
  rw [List.map_map]
  exact List.map_id _

theorem map_initial_binding (name : String) (count : Nat) :
    ((List.range count).map (binding name)).map initial = List.replicate count .null := by
  rw [List.map_map, ← List.length_range (n := count), ← List.map_const, List.length_range]
  rfl

theorem map_final_binding {args : Args} {name : String} {value : Value}
    (h : args.get? name = some value) :
    ((List.range value.elements.length).map (binding name)).map (final args) = value.elements := by
  apply List.ext_getElem
  · simp
  · intro i _ hi
    simp [final, h, hi]

end Holder

/-- The holders of a ledger tell what is in its slots and where its spans are. -/
structure Ledger.Sound (ctx : Context) (l : Ledger) : Prop where
  backed : l.slots.Backed ctx
  distinct : (l.slots.reserved.map Prod.fst).Nodup
  initial : l.slots.values = l.holders.map Holder.initial
  final : l.slots.fill ctx.args = l.holders.map (Holder.final ctx.args)
  placed : ∀ entry ∈ l.slots.reserved, ∀ i < entry.2.count,
    l.holders[entry.2.start + i]? = some (.binding entry.1 i)

namespace Slots

theorem not_mem_names_of_spanOf? {slots : Slots} {name : String} (h : slots.spanOf? name = none) :
    name ∉ slots.reserved.map Prod.fst := by
  intro hname
  rw [List.mem_map] at hname
  obtain ⟨entry, hentry, rfl⟩ := hname
  rw [spanOf?, Option.map_eq_none_iff, List.find?_eq_none] at h
  exact h entry hentry (decide_eq_true rfl)

end Slots

namespace Ledger.Sound

variable {ctx : Context} {l : Ledger}

theorem empty (ctx : Context) : Sound ctx {} where
  backed := Slots.backed_empty ctx
  distinct := List.nodup_nil
  initial := rfl
  final := rfl
  placed := by simp

theorem length_holders (h : l.Sound ctx) : l.holders.length = l.slots.values.length := by
  rw [h.initial, List.length_map]

/-- How deep a statement lies is of no account. -/
theorem at_depth (h : l.Sound ctx) (depth : Nat) : l.Sound { ctx with depth := depth } where
  backed := ⟨h.backed.inRange, h.backed.argument⟩
  distinct := h.distinct
  initial := h.initial
  final := h.final
  placed := h.placed

theorem placed_append (h : l.Sound ctx) (more : List Holder) :
    ∀ entry ∈ l.slots.reserved, ∀ i < entry.2.count,
      (l.holders ++ more)[entry.2.start + i]? = some (.binding entry.1 i) := by
  intro entry hentry i hi
  have hplaced := h.placed entry hentry i hi
  obtain ⟨hstop, -⟩ := List.getElem?_eq_some_iff.mp hplaced
  rw [List.getElem?_append_left hstop, hplaced]

theorem take (h : l.Sound ctx) (items : List Value) :
    Sound ctx ⟨(l.slots.take items).2, l.holders ++ items.map .static⟩ where
  backed := Context.Emits.backed h.backed (.taken items)
  distinct := h.distinct
  initial := by
    rw [Slots.values_take, h.initial, List.map_append, Holder.map_initial_static]
  final := by
    rw [Slots.fill_take h.backed.inRange, h.final, List.map_append, Holder.map_final_static]
  placed := h.placed_append _

theorem reserve (h : l.Sound ctx) {name : String} {value : Value}
    (hspan : l.slots.spanOf? name = none) (hlookup : ctx.lookup name = .ok (some value))
    (hflat : Value.hasNested value.elements = false) :
    Sound ctx ⟨(l.slots.reserve name value.elements.length).2,
      l.holders ++ (List.range value.elements.length).map (.binding name)⟩ where
  backed := Context.Emits.backed h.backed (.reserved hspan hlookup hflat)
  distinct := by
    rw [Slots.reserved_reserve, List.map_append, List.nodup_append]
    refine ⟨h.distinct, List.pairwise_singleton _ _, ?_⟩
    rintro _ hold _ hnew rfl
    obtain rfl := List.mem_singleton.mp hnew
    exact Slots.not_mem_names_of_spanOf? hspan hold
  initial := by
    rw [Slots.values_reserve, h.initial, List.map_append, Holder.map_initial_binding]
  final := by
    have hget := Context.get?_of_lookup hlookup
    rw [Slots.fill_reserve h.backed.inRange hget, h.final, List.map_append,
      Holder.map_final_binding hget]
  placed := by
    intro entry hentry i hi
    rw [Slots.reserved_reserve, List.mem_append, List.mem_singleton] at hentry
    rcases hentry with hentry | rfl
    · exact h.placed_append _ entry hentry i hi
    · -- the new span starts where the old holders end
      have hi' : i < value.elements.length := hi
      rw [← h.length_holders, List.getElem?_append_right (Nat.le_add_right _ _),
        Nat.add_sub_cancel_left, List.getElem?_map, List.getElem?_range hi']
      rfl

theorem placeholdersOf (h : l.Sound ctx) {name : String} {pieces : List Piece} {after : Slots}
    (hplaceholders : ctx.placeholdersOf name l.slots = .ok (pieces, after)) :
    Sound ctx ⟨after, l.holders ++
      (List.range (after.values.length - l.slots.values.length)).map (.binding name)⟩ := by
  have hsame : Sound ctx ⟨l.slots, l.holders ++
      (List.range (l.slots.values.length - l.slots.values.length)).map (.binding name)⟩ := by
    rw [Nat.sub_self, List.range_zero, List.map_nil, List.append_nil]
    exact h
  rcases Context.placeholdersOf_cases hplaceholders with ⟨-, -, -, rfl⟩ | ⟨-, -, -, rfl⟩ |
    ⟨value, hspan, hlookup, hflat, -, rfl⟩
  · exact hsame
  · exact hsame
  · rw [Slots.values_reserve, List.length_append, List.length_replicate, Nat.add_sub_cancel_left]
    exact h.reserve hspan hlookup hflat

theorem record (h : l.Sound ctx) {fragment : Fragment} {pieces : List Piece} {after : Slots}
    (hemit : fragment.emit ctx l.slots = .ok (pieces, after)) :
    (l.record fragment after).Sound ctx := by
  have hsame : Sound ctx ⟨l.slots, l.holders ++ []⟩ := by
    rw [List.append_nil]
    exact h
  cases Fragment.writes_of_emit hemit with
  | verbatim s => exact hsame
  | clauseBreak => exact hsame
  | value v => exact h.take [v]
  | @values items hflat => exact h.take items
  | binding hplaceholders => exact h.placeholdersOf hplaceholders
  | ifNull ifNull before behind hlookup =>
    rw [Ledger.record, Nat.sub_self]
    exact hsame
  | comparand ifNull before behind hlookup hplaceholders => exact h.placeholdersOf hplaceholders

end Ledger.Sound

/-! ## 3. Every ledger of a session is sound -/

theorem getLastD_append {α : Type} (xs ys : List α) (a : α) :
    (xs ++ ys).getLastD a = ys.getLastD (xs.getLastD a) := by
  induction xs generalizing a with
  | nil => rfl
  | cons x xs ih => rw [List.cons_append, List.getLastD_cons, List.getLastD_cons, ih]

theorem getLastD_of_forall {α : Type} {P : α → Prop} {xs : List α} {a : α} (ha : P a)
    (h : ∀ x ∈ xs, P x) : P (xs.getLastD a) := by
  induction xs generalizing a with
  | nil => exact ha
  | cons x xs ih =>
    rw [List.getLastD_cons]
    rw [List.forall_mem_cons] at h
    exact ih h.1 h.2

namespace Template

theorem slots_getLastD_ledgers (ctx : Context) (t : Template) (l : Ledger) :
    ((t.ledgers ctx l).getLastD l).slots = (t.run ctx l.slots).2 := by
  induction t generalizing l with
  | nil => rfl
  | cons fragment rest ih =>
    rw [ledgers, run]
    rcases fragment.emit ctx l.slots with e | ⟨pieces, after⟩
    · rfl
    · have hrest := ih (l.record fragment after)
      dsimp only
      rw [List.getLastD_cons, hrest]
      change (run ctx rest after).2 = _
      rcases hrun : run ctx rest after with ⟨e | more, last⟩ <;> rfl

theorem sound_ledgers {ctx : Context} (t : Template) {l : Ledger} (h : l.Sound ctx) :
    ∀ l' ∈ t.ledgers ctx l, l'.Sound ctx := by
  induction t generalizing l with
  | nil =>
    rw [ledgers]
    exact List.forall_mem_nil _
  | cons fragment rest ih =>
    rw [ledgers]
    rcases hemit : fragment.emit ctx l.slots with e | ⟨pieces, after⟩
    · exact List.forall_mem_nil _
    · have hnext := h.record hemit
      rw [List.forall_mem_cons]
      exact ⟨hnext, ih hnext⟩

end Template

namespace Session

variable (d : Dialect)

theorem slots_write (ctx : Context) (t : Template) (slots : Slots) :
    (write ctx t slots).2 = (t.run ctx slots).2 := by
  rw [write]
  rcases t.run ctx slots with ⟨e | pieces, after⟩ <;> rfl

theorem slots_look {α : Type} (answer : α → Answer) (outcome : Except Error α) (slots : Slots) :
    (look answer outcome slots).2 = slots := by
  cases outcome <;> rfl

mutual

theorem slots_getLastD_stepLedgers (ctx : Context) :
    ∀ (step : Step) (l : Ledger),
      ((stepLedgers d ctx step l).getLastD l).slots = (runStep d ctx step l.slots).2
  | .nested steps, l => slots_getLastD_ledgers ctx.nested steps l
  | .value _, l => (Template.slots_getLastD_ledgers ctx _ l).trans (slots_write ctx _ _).symm
  | .values _, l => (Template.slots_getLastD_ledgers ctx _ l).trans (slots_write ctx _ _).symm
  | .binding _, l => (Template.slots_getLastD_ledgers ctx _ l).trans (slots_write ctx _ _).symm
  | .node (.ok _), l => (Template.slots_getLastD_ledgers ctx _ l).trans (slots_write ctx _ _).symm
  | .operand (.ok _), l => (Template.slots_getLastD_ledgers ctx _ l).trans (slots_write ctx _ _).symm
  | .lookup name, l => (slots_look .argument (ctx.lookup name) l.slots).symm
  | .denotesNull tree, l => (slots_look .truth (tree >>= ctx.denotesNull) l.slots).symm
  | .node (.error _), _ => rfl
  | .operand (.error _), _ => rfl
  | .clauseBreak, _ => rfl

/-- The last ledger of a session has the slots that the session leaves. -/
theorem slots_getLastD_ledgers (ctx : Context) :
    ∀ (steps : List Step) (l : Ledger),
      ((ledgers d ctx steps l).getLastD l).slots = (run d ctx steps l.slots).2
  | [], _ => rfl
  | step :: rest, l => by
    have hstep := slots_getLastD_stepLedgers ctx step l
    have hrest := slots_getLastD_ledgers ctx rest ((stepLedgers d ctx step l).getLastD l)
    rw [ledgers, getLastD_append, hrest, hstep]
    rfl

end

mutual

theorem sound_stepLedgers (ctx : Context) :
    ∀ (step : Step) {l : Ledger}, l.Sound ctx → ∀ l' ∈ stepLedgers d ctx step l, l'.Sound ctx
  | .nested steps, _, h, l', hmem =>
    (sound_ledgers ctx.nested steps (h.at_depth _) l' hmem).at_depth ctx.depth
  | .value _, _, h, l', hmem => Template.sound_ledgers _ h l' hmem
  | .values _, _, h, l', hmem => Template.sound_ledgers _ h l' hmem
  | .binding _, _, h, l', hmem => Template.sound_ledgers _ h l' hmem
  | .lookup _, _, h, l', hmem => Template.sound_ledgers _ h l' hmem
  | .denotesNull _, _, h, l', hmem => Template.sound_ledgers _ h l' hmem
  | .clauseBreak, _, h, l', hmem => Template.sound_ledgers _ h l' hmem
  | .node _, _, h, l', hmem => Template.sound_ledgers _ h l' hmem
  | .operand _, _, h, l', hmem => Template.sound_ledgers _ h l' hmem

theorem sound_ledgers (ctx : Context) :
    ∀ (steps : List Step) {l : Ledger}, l.Sound ctx → ∀ l' ∈ ledgers d ctx steps l, l'.Sound ctx
  | [], _, _, _, hmem => by cases hmem
  | step :: rest, l, h, l', hmem => by
    have hstep := sound_stepLedgers ctx step h
    rw [ledgers, List.mem_append] at hmem
    rcases hmem with hmem | hmem
    · exact hstep l' hmem
    · have hlast : ((stepLedgers d ctx step l).getLastD l).Sound ctx := getLastD_of_forall h hstep
      exact sound_ledgers ctx rest hlast l' hmem

end

end Session

/-! ## 4. What it means for the slots -/

/-- Which slots there are, whose they are, and what they hold in the end. -/
structure Ledger.Balanced (ctx : Context) (l : Ledger) : Prop where
  /-- Each slot was handed out for something. -/
  total : l.holders.length = l.slots.values.length
  /-- A span has a slot for each value of an argument that is not null. -/
  shape : ∀ entry ∈ l.slots.reserved, ∃ value, ctx.args.get? entry.1 = some value ∧
    value ≠ .null ∧ entry.2.count = value.elements.length
  inRange : ∀ entry ∈ l.slots.reserved, ∀ n ∈ entry.2.numbers,
    1 ≤ n ∧ n ≤ l.slots.values.length
  apart : l.slots.reserved.Pairwise fun a b =>
    a.1 ≠ b.1 ∧ ∀ n ∈ a.2.numbers, n ∉ b.2.numbers
  /-- The slots of a span were handed out for its binding, in order. -/
  owned : ∀ entry ∈ l.slots.reserved, ∀ i < entry.2.count,
    l.holders[entry.2.start + i]? = some (.binding entry.1 i)
  length_finish : (ctx.finish l.slots).length = l.slots.values.length
  /-- A slot handed out for a value of the tree is in no span and keeps the value. -/
  kept : ∀ (i : Nat) (v : Value), l.holders[i]? = some (.static v) →
    (∀ entry ∈ l.slots.reserved, i + 1 ∉ entry.2.numbers) ∧ (ctx.finish l.slots)[i]? = some v
  /-- In the end a span holds the values of its argument, each in its place. -/
  filled : ctx.fills = true → ∀ entry ∈ l.slots.reserved, ∃ value,
    ctx.args.get? entry.1 = some value ∧
      ∀ i < entry.2.count, (ctx.finish l.slots)[entry.2.start + i]? = value.elements[i]?

theorem Span.mem_numbers {span : Span} {n : Nat} :
    n ∈ span.numbers ↔ ∃ i < span.count, n = span.start + i + 1 := by
  rw [numbers, List.mem_range'_1]
  constructor
  · rintro ⟨hfirst, hlast⟩
    exact ⟨n - (span.start + 1), by omega, by omega⟩
  · rintro ⟨i, hi, rfl⟩
    omega

theorem Context.ne_null_of_lookup {ctx : Context} {name : String} {value : Value}
    (h : ctx.lookup name = .ok (some value)) : value ≠ .null := by
  rw [lookup] at h
  split at h
  · cases h
  · rename_i found hnull _
    obtain rfl := Option.some.inj (Except.ok.inj h)
    exact hnull
  · split at h <;> cases h

namespace Ledger.Sound

variable {ctx : Context} {l : Ledger} {entry other : String × Span}

theorem holder_of_mem_numbers (h : l.Sound ctx) (hentry : entry ∈ l.slots.reserved) {i : Nat}
    (hi : i + 1 ∈ entry.2.numbers) : ∃ position, l.holders[i]? = some (.binding entry.1 position) := by
  obtain ⟨position, hposition, heq⟩ := Span.mem_numbers.mp hi
  obtain rfl : i = entry.2.start + position := by omega
  exact ⟨position, h.placed entry hentry position hposition⟩

/-- A slot has one holder, so spans that share a slot are of one name. -/
theorem eq_name_of_shared (h : l.Sound ctx) (hentry : entry ∈ l.slots.reserved)
    (hother : other ∈ l.slots.reserved) {n : Nat} (hn : n ∈ entry.2.numbers)
    (hn' : n ∈ other.2.numbers) : entry.1 = other.1 := by
  obtain ⟨i, -, rfl⟩ := Span.mem_numbers.mp hn
  obtain ⟨position, hposition⟩ := h.holder_of_mem_numbers hentry hn
  obtain ⟨position', hposition'⟩ := h.holder_of_mem_numbers hother hn'
  have hsame := Option.some.inj (hposition.symm.trans hposition')
  exact (Holder.binding.inj hsame).1

theorem finish_eq (h : l.Sound ctx) : ctx.finish l.slots =
    l.holders.map (if ctx.fills then Holder.final ctx.args else Holder.initial) := by
  rw [Context.finish]
  split
  · exact h.final
  · exact h.initial

theorem apart (h : l.Sound ctx) : l.slots.reserved.Pairwise fun a b =>
    a.1 ≠ b.1 ∧ ∀ n ∈ a.2.numbers, n ∉ b.2.numbers := by
  have hdistinct := List.pairwise_map.mp h.distinct
  apply hdistinct.imp_of_mem
  intro a b ha hb hne
  exact ⟨hne, fun n hn hn' => hne (h.eq_name_of_shared ha hb hn hn')⟩

theorem kept (h : l.Sound ctx) {i : Nat} {v : Value} (hi : l.holders[i]? = some (.static v)) :
    (∀ entry ∈ l.slots.reserved, i + 1 ∉ entry.2.numbers) ∧
      (ctx.finish l.slots)[i]? = some v := by
  constructor
  · intro entry hentry hn
    obtain ⟨position, hposition⟩ := h.holder_of_mem_numbers hentry hn
    cases hi.symm.trans hposition
  · rw [h.finish_eq, List.getElem?_map, hi]
    split <;> rfl

theorem filled (h : l.Sound ctx) (hfills : ctx.fills = true) (hentry : entry ∈ l.slots.reserved) :
    ∃ value, ctx.args.get? entry.1 = some value ∧
      ∀ i < entry.2.count, (ctx.finish l.slots)[entry.2.start + i]? = value.elements[i]? := by
  obtain ⟨value, hlookup, -, hcount, -⟩ := h.backed.argument entry hentry
  have hget := Context.get?_of_lookup hlookup
  refine ⟨value, hget, fun i hi => ?_⟩
  have hi' : i < value.elements.length := hcount ▸ hi
  rw [h.finish_eq, if_pos hfills, List.getElem?_map, h.placed entry hentry i hi]
  simp [Holder.final, hget, hi']

theorem balanced (h : l.Sound ctx) : l.Balanced ctx where
  total := h.length_holders
  shape := by
    intro entry hentry
    obtain ⟨value, hlookup, -, hcount, -⟩ := h.backed.argument entry hentry
    exact ⟨value, Context.get?_of_lookup hlookup, Context.ne_null_of_lookup hlookup, hcount⟩
  inRange := by
    intro entry hentry n hn
    have hstop := h.backed.inRange entry hentry
    obtain ⟨i, hi, rfl⟩ := Span.mem_numbers.mp hn
    omega
  apart := h.apart
  owned := h.placed
  length_finish := ctx.length_finish h.backed.inRange
  kept := fun _ _ hi => h.kept hi
  filled := fun hfills _ hentry => h.filled hfills hentry

end Ledger.Sound

/-- The slots that a session leaves have a sound ledger. -/
theorem Session.exists_sound (d : Dialect) (ctx : Context) (steps : List Step) :
    ∃ l : Ledger, l.Sound ctx ∧ l.slots = (run d ctx steps {}).2 := by
  have hempty := Ledger.Sound.empty ctx
  exact ⟨(ledgers d ctx steps {}).getLastD {},
    getLastD_of_forall hempty (sound_ledgers d ctx steps hempty),
    slots_getLastD_ledgers d ctx steps {}⟩

/-- The ledger that a session begins with and all its later ones are sound. -/
theorem Session.sound_of_mem_ledgers {d : Dialect} {ctx : Context} {steps : List Step} {l : Ledger}
    (h : l ∈ {} :: ledgers d ctx steps {}) : l.Sound ctx := by
  rw [List.mem_cons] at h
  rcases h with rfl | h
  · exact .empty ctx
  · exact sound_ledgers d ctx steps (.empty ctx) l h

/-- **Slots never get mixed up.** After every fragment that a session writes,
    whatever failed before, the spans of the bindings are disjoint, in range and
    of the right length, and the final values are the ones each slot is for. -/
theorem Session.balanced_ledgers (d : Dialect) (ctx : Context) (steps : List Step) :
    ((ledgers d ctx steps {}).getLastD {}).slots = (run d ctx steps {}).2 ∧
      ∀ l ∈ {} :: ledgers d ctx steps {}, l.Balanced ctx := by
  refine ⟨slots_getLastD_ledgers d ctx steps {}, ?_⟩
  have hempty := Ledger.Sound.empty ctx
  rw [List.forall_mem_cons]
  exact ⟨hempty.balanced, fun l hl => (sound_ledgers d ctx steps hempty l hl).balanced⟩

end SqlKit
