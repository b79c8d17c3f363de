import Mathlib.Data.List.Induction
import ShellCompletion.Names
import ShellCompletion.Table

/-!
# Ascending tables

A table whose names ascend has one entry for a name, so that looking a name up and finding the entry in the
table are the same (`lookup_eq_some_iff`). `insert` keeps the names ascending.
-/

namespace ShellCompletion.Table

variable {α : Type} {table : Table α} {name : String} {value : α}

def Ascending (table : Table α) : Prop := Names.Ascending table.names

theorem eq_nil_iff_of_names {β : Type} {other : Table β} (same : table.names = other.names) :
    table = [] ↔ other = [] := by
  rw [← List.map_eq_nil_iff, ← List.map_eq_nil_iff (l := other)]
  exact iff_of_eq (congrArg (· = []) same)

theorem names_insert (name : String) (value : α) (table : Table α) :
    (insert name value table).names = Names.insert name table.names := by
  induction table with
  | nil => rfl
  | cons entry rest ih =>
    obtain ⟨head, old⟩ := entry
    simp only [insert, names, List.map_cons, Names.insert]
    split
    next => rfl
    next =>
      split
      next same => simp [same]
      next => simpa [names] using ih

theorem Ascending.insert (h : table.Ascending) : (insert name value table).Ascending := by
  unfold Ascending
  rw [names_insert]
  exact Names.ascending_insert h

theorem mem_insert {entry : String × α} (member : entry ∈ insert name value table) :
    entry = (name, value) ∨ entry ∈ table := by
  induction table with
  | nil => simpa [Table.insert] using member
  | cons first rest ih =>
    obtain ⟨head, old⟩ := first
    rw [Table.insert] at member
    split at member
    next => simpa using member
    next =>
      split at member
      next => grind
      next =>
        rcases List.mem_cons.mp member with rfl | later
        · simp
        · rcases ih later with rfl | before <;> simp [*]

theorem mem_of_lookup (found : table.lookup name = some value) : (name, value) ∈ table := by
  obtain ⟨before, after, rfl, -⟩ := List.lookup_eq_some_iff.mp found
  simp

theorem isSome_lookup_iff : (table.lookup name).isSome ↔ name ∈ table.names := by
  rw [List.lookup_isSome_iff, names, List.mem_map]
  exact exists_congr fun entry => and_congr_right fun _ => beq_iff_eq.trans eq_comm

/-- The entries before an entry are those with lesser names. -/
theorem mem_before_iff {before after : Table α} (h : Ascending (before ++ (name, value) :: after))
    {entry : String × α} :
    entry ∈ before ↔ entry ∈ before ++ (name, value) :: after ∧ entry.1 < name := by
  simp only [Ascending, Names.Ascending, names, List.map_append, List.map_cons, List.pairwise_append,
    List.pairwise_cons] at h
  obtain ⟨-, ⟨above, -⟩, apart⟩ := h
  constructor
  · intro earlier
    exact ⟨List.mem_append_left _ earlier, apart entry.1 (List.mem_map_of_mem earlier) name (List.mem_cons_self ..)⟩
  · rintro ⟨member, less⟩
    rcases List.mem_append.mp member with earlier | later
    · exact earlier
    rcases List.mem_cons.mp later with rfl | later
    · exact absurd less (String.lt_irrefl _)
    · exact absurd (above entry.1 (List.mem_map_of_mem later)) (String.lt_asymm less)

theorem lookup_eq_some_iff (h : table.Ascending) :
    table.lookup name = some value ↔ (name, value) ∈ table := by
  refine ⟨mem_of_lookup, fun member => ?_⟩
  obtain ⟨before, after, rfl⟩ := List.append_of_mem member
  refine List.lookup_eq_some_iff.mpr ⟨before, after, rfl, fun entry earlier => ?_⟩
  have less : entry.1 < name := ((mem_before_iff h).mp earlier).2
  simpa using fun same : name = entry.1 => String.lt_irrefl name (same ▸ less)

/-! ### Filling a table -/

theorem insert_insert (name : String) (new old : α) (table : Table α) :
    insert name new (insert name old table) = insert name new table := by
  induction table with
  | nil => simp [insert]
  | cons entry rest ih =>
    obtain ⟨head, value⟩ := entry
    by_cases less : name < head
    · simp [insert, less]
    · by_cases same : name = head
      · simp [insert, same]
      · simp [insert, less, same, ih]

theorem ofList_concat (entries : List (String × α)) (entry : String × α) :
    ofList (entries ++ [entry]) = insert entry.1 entry.2 (ofList entries) :=
  List.foldl_append ..

/-- Of several entries for a name the last one stays. -/
theorem lookup_ofList (entries : List (String × α)) (name : String) :
    (ofList entries).lookup name = entries.reverse.lookup name := by
  induction entries using List.reverseRecOn with
  | nil => rfl
  | append_singleton entries entry ih =>
    obtain ⟨head, value⟩ := entry
    rw [ofList_concat, List.reverse_concat]
    by_cases same : name = head
    · subst same
      simp
    · rw [lookup_insert_other same, ih, List.lookup_cons, beq_false_of_ne same]

theorem lookup_ofList_eq_none {entries : List (String × α)} (other : name ∉ names entries) :
    (ofList entries).lookup name = none := by
  rw [lookup_ofList, List.lookup_eq_none_iff]
  intro entry inside
  exact bne_iff_ne.mpr fun same => other (same ▸ List.mem_map_of_mem (List.mem_reverse.mp inside))

theorem nodup_names_concat {entry : String × α} :
    (names (table ++ [entry])).Nodup ↔ entry.1 ∉ table.names ∧ table.names.Nodup := by
  rw [names, List.map_append, List.map_singleton, (List.perm_append_singleton ..).nodup_iff, List.nodup_cons]
  rfl

/-! ### Changing the values -/

theorem lookup_map {β : Type} (change : α → β) (table : Table α) (name : String) :
    (table.map fun entry => (entry.1, change entry.2)).lookup name = (table.lookup name).map change := by
  induction table with
  | nil => rfl
  | cons entry rest ih =>
    obtain ⟨head, value⟩ := entry
    by_cases same : name = head
    · subst same
      simp
    · simpa [List.lookup_cons, beq_false_of_ne same] using ih

theorem names_map {β : Type} (change : α → β) (table : Table α) :
    Table.names (table.map fun entry => (entry.1, change entry.2)) = table.names := by
  simp [Table.names]

theorem map_insert {β : Type} (change : α → β) (name : String) (value : α) (table : Table α) :
    (insert name value table).map (fun entry => (entry.1, change entry.2)) =
      insert name (change value) (table.map fun entry => (entry.1, change entry.2)) := by
  induction table with
  | nil => rfl
  | cons entry rest ih =>
    obtain ⟨head, old⟩ := entry
    rw [insert, List.map_cons, insert, ← ih]
    split
    next => rfl
    next => split <;> rfl

theorem map_ofList {β : Type} (change : α → β) (entries : List (String × α)) :
    (ofList entries).map (fun entry => (entry.1, change entry.2)) =
      ofList (entries.map fun entry => (entry.1, change entry.2)) := by
  induction entries using List.reverseRecOn with
  | nil => rfl
  | append_singleton entries entry ih =>
    rw [ofList_concat, map_insert, ih, List.map_append, List.map_singleton, ofList_concat]

end ShellCompletion.Table
