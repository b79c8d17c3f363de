/-!
# Tables

A table holds at most one entry for a name. `insert` keeps the names ascending and replaces the entry of
a name that is already there; `lookup_insert` and `lookup_insert_other` say what it does to a lookup.
-/

namespace ShellCompletion

abbrev Table (α : Type) := List (String × α)

namespace Table

variable {α : Type}

def insert (name : String) (value : α) : Table α → Table α
  | [] => [(name, value)]
  | (head, old) :: rest =>
    if name < head then (name, value) :: (head, old) :: rest
    else if name = head then (name, value) :: rest
    else (head, old) :: insert name value rest

def ofList (entries : List (String × α)) : Table α :=
  entries.foldl (fun table (name, value) => insert name value table) []

def names (table : Table α) : List String := table.map (·.1)

@[simp] theorem lookup_insert (name : String) (value : α) (table : Table α) :
    (insert name value table).lookup name = some value := by
  induction table with
  | nil => simp [insert]
  | cons entry rest ih =>
    obtain ⟨head, old⟩ := entry
    rw [insert]
    split
    next => simp
    next =>
      split
      next => simp
      next differ => simpa [List.lookup_cons, beq_false_of_ne differ] using ih

theorem lookup_insert_other {name other : String} (h : other ≠ name) (value : α) (table : Table α) :
    (insert name value table).lookup other = table.lookup other := by
  have apart : (other == name) = false := beq_false_of_ne h
  induction table with
  | nil => simp [insert, List.lookup_cons, apart]
  | cons entry rest ih =>
    obtain ⟨head, old⟩ := entry
    rw [insert]
    split
    next => simp [List.lookup_cons, apart]
    next =>
      split
      next same => subst same; simp [List.lookup_cons, apart]
      next => simp [List.lookup_cons, ih]

end Table

end ShellCompletion
