/-
  SqlKit/Args.lean
  ================
  **Named arguments.**

  The arguments of a render: a finite map from binding names to values that
  remembers the order in which its names came in. Setting a name again keeps
  its place and replaces its value. Each name has one entry, which the type
  records (`nodup`).
-/
import SqlKit.Value

namespace SqlKit

/-- Named arguments, in the order their names were first given. -/
structure Args where
  entries : List (String × Value)
  nodup : (entries.map Prod.fst).Nodup := by simp

namespace Args

def empty : Args where
  entries := []

instance : Inhabited Args := ⟨empty⟩

instance : EmptyCollection Args := ⟨empty⟩

/-! ## 1. Setting an argument -/

/-- Replace the value of a name in place, or add the name at the end. -/
def putEntry (name : String) (value : Value) : List (String × Value) → List (String × Value)
  | [] => [(name, value)]
  | (key, old) :: rest =>
    if key = name then (key, value) :: rest else (key, old) :: putEntry name value rest

theorem mem_names_putEntry {x name : String} {value : Value} (entries : List (String × Value)) :
    x ∈ (putEntry name value entries).map Prod.fst ↔ x = name ∨ x ∈ entries.map Prod.fst := by
  induction entries with
  | nil => simp [putEntry]
  | cons entry rest ih =>
    obtain ⟨key, old⟩ := entry
    by_cases h : key = name
    · subst h; simp [putEntry]
    · simp only [putEntry, if_neg h, List.map_cons, List.mem_cons, ih]
      grind

theorem nodup_putEntry {name : String} {value : Value} {entries : List (String × Value)}
    (h : (entries.map Prod.fst).Nodup) : ((putEntry name value entries).map Prod.fst).Nodup := by
  induction entries with
  | nil => simp [putEntry]
  | cons entry rest ih =>
    obtain ⟨key, old⟩ := entry
    simp only [List.map_cons, List.nodup_cons] at h
    by_cases hk : key = name
    · subst hk; simpa [putEntry] using h
    · simp only [putEntry, if_neg hk, List.map_cons, List.nodup_cons]
      refine ⟨?_, ih h.2⟩
      rw [mem_names_putEntry]
      rintro (rfl | hmem)
      · exact hk rfl
      · exact h.1 hmem

def put (args : Args) (name : String) (value : Value) : Args where
  entries := putEntry name value args.entries
  nodup := nodup_putEntry args.nodup

/-- Bind the names of a list in order; of a repeated name the last value counts. -/
def ofList (pairs : List (String × Value)) : Args :=
  pairs.foldl (fun args pair => args.put pair.1 pair.2) empty

/-! ## 2. Looking up -/

def get? (args : Args) (name : String) : Option Value :=
  (args.entries.find? (·.1 = name)).map Prod.snd

theorem find?_putEntry (name x : String) (value : Value) (entries : List (String × Value)) :
    ((putEntry name value entries).find? (·.1 = x)).map Prod.snd =
      if x = name then some value else (entries.find? (·.1 = x)).map Prod.snd := by
  induction entries with
  | nil => by_cases h : name = x <;> simp [putEntry, h, eq_comm]
  | cons entry rest ih =>
    obtain ⟨key, old⟩ := entry
    by_cases hk : key = name
    · subst hk
      by_cases hx : key = x
      · simp [putEntry, hx]
      · simp [putEntry, hx, Ne.symm hx]
    · by_cases hx : key = x
      · subst hx; simp [putEntry, hk]
      · simpa [putEntry, hk, hx] using ih

/-- A bound name has its new value, and every other name what it had. -/
theorem get?_put (args : Args) (name x : String) (value : Value) :
    (args.put name value).get? x = if x = name then some value else args.get? x :=
  find?_putEntry name x value args.entries

@[simp]
theorem get?_empty (name : String) : empty.get? name = none := rfl

end Args

end SqlKit
