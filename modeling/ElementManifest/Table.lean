/-!
# Tables

A table is a list of names with values, in which a name that is set again keeps
its place. The value of a name is found with `List.lookup`.
-/

namespace ElementManifest.Table

/-- The table with a name set. -/
def set (name : String) (value : α) : List (String × α) → List (String × α)
  | [] => [(name, value)]
  | (n, v) :: entries =>
    if n == name then (n, value) :: entries else (n, v) :: set name value entries

/-- The table of entries that are set one after the other. -/
def ofEntries (entries : List (String × α)) : List (String × α) :=
  entries.foldl (fun table e => set e.1 e.2 table) []

theorem lookup_set_self (name : String) (value : α) (table : List (String × α)) :
    (set name value table).lookup name = some value := by
  induction table with
  | nil => simp [set]
  | cons e entries ih =>
    obtain ⟨n, v⟩ := e
    unfold set
    split
    next h => simp [beq_iff_eq.mp h]
    next h =>
      have hne : (name == n) = false :=
        beq_eq_false_iff_ne.mpr fun e => h (beq_iff_eq.mpr e.symm)
      simp only [List.lookup_cons, hne, ih]

end ElementManifest.Table
