import Mathlib.Data.List.TakeDrop
import ShellCompletion.Proofs.Document.Number
import ShellCompletion.Proofs.Document.Order
import ShellCompletion.Proofs.Document.Quoted

/-!
# Written tables are read back

A document of tables that hold nothing but texts, numbers and truth values has a header for each table and a line
for each of its fields. `Lines` relates such a text to the statements that its lines are. They are read from it
(`Lines.statements?_eq`), and if no name is given twice they build the tables again (`read?_of_lines`).
-/

namespace ShellCompletion.Document

/-- A span ends where the first character follows that does not belong to it. -/
theorem span_append {keep : Char → Bool} {text rest : List Char} (all : ∀ c ∈ text, keep c = true)
    (stop : ∀ c ∈ rest.head?, keep c = false) : (text ++ rest).span keep = (text, rest) := by
  rw [List.span_eq_takeWhile_dropWhile, List.takeWhile_append_of_pos all, List.dropWhile_append_of_pos all]
  cases rest with
  | nil => simp
  | cons c rest =>
    have other : keep c = false := stop c rfl
    simp [other]

theorem isBlank_of_kind {kind : Char → Bool} {c : Char} (inside : kind c = true) (space : kind ' ' = false)
    (tab : kind '\t' = false) : isBlank c = false := by
  simp [isBlank, ne_of_kind inside space, ne_of_kind inside tab]

theorem skipBlanks_cons {c : Char} (other : isBlank c = false) (rest : List Char) :
    skipBlanks (c :: rest) = c :: rest := by
  simp [skipBlanks, other]

theorem skipLayout_cons {c : Char} (other : c ∉ ['\n', '\r', '#', ' ', '\t']) (rest : List Char) :
    skipLayout false (c :: rest) = c :: rest := by
  simp at other
  simp [skipLayout, isBlank, other]

/-! ### Values -/

/-- What is written stands for a value: it is read as this value up to the end of the line, and passing over blanks
takes nothing from it. -/
def Writes (written : String) (value : Value) : Prop :=
  ∀ depth fuel rest,
    value? depth (fuel + 1) (skipBlanks (written.toList ++ '\n' :: rest)) = some (value, '\n' :: rest)

theorem writes_quoted {written text : String}
    (quote : written.toList.head? = some '"' ∨ written.toList.head? = some '\'')
    (read : ∀ rest, text? (written.toList ++ '\n' :: rest) = some (text, '\n' :: rest)) :
    Writes written (.text text) := by
  intro depth fuel rest
  have parts := read rest
  generalize written.toList = chars at quote parts ⊢
  cases chars with
  | nil => simp at quote
  | cons mark more =>
    rcases quote with same | same
    all_goals
      obtain rfl := Option.some.inj same
      rw [List.cons_append] at parts ⊢
      rw [skipBlanks_cons rfl, value?, parts]
      rfl

theorem head_write (form : TextForm) (text : List Char) :
    (form.write text).head? = some '"' ∨ (form.write text).head? = some '\'' := by
  cases form with
  | quoted | longQuoted => exact .inl rfl
  | literal | longLiteral => exact .inr rfl

theorem writes_text (text : String) : Writes (writeText text) (.text text) := by
  have written : (writeText text).toList = (TextForm.of text.toList).write text.toList := String.toList_ofList
  refine writes_quoted (written ▸ head_write ..) fun rest => ?_
  rw [written, text?_write text.toList (by simp) (by simp), String.ofList_toList]

theorem writes_scalar {written : String} {value : Value} (filled : written.toList ≠ [])
    (all : written.toList.all isScalar = true) (read : scalar? written.toList = some value) :
    Writes written value := by
  intro depth fuel rest
  have scalar : ∀ c ∈ written.toList, isScalar c = true := List.all_eq_true.mp all
  have parts : spanScalar (written.toList ++ '\n' :: rest) = (written.toList, '\n' :: rest) := by
    rw [spanScalar, span_append scalar (by simp; decide)]
    rfl
  obtain ⟨c, more, same⟩ := List.exists_cons_of_ne_nil filled
  have first : isScalar c = true := scalar c (same ▸ List.mem_cons_self ..)
  have shown : isBlank c = false := isBlank_of_kind first rfl rfl
  rw [same, List.cons_append] at parts
  rw [same] at read
  rw [same, List.cons_append, skipBlanks_cons shown, value?, parts]
  · simp only [read, Option.map_some]
  -- A scalar does not begin like a list, a table or a text.
  all_goals
    intro _ begins
    exact ne_of_kind first rfl (List.cons.inj begins).1

theorem writes_boolean (value : Bool) : Writes (writeBoolean value) (.boolean value) := by
  cases value with
  | false => exact writes_scalar (by decide) (by decide) rfl
  | true => exact writes_scalar (by decide) (by decide) rfl

theorem writes_natural {value : Nat} (small : value < Nat.pow 2 128) : Writes (toString value) (.integer value) := by
  have digits : (toString value).toList = Nat.toDigits 10 value := Nat.toList_repr
  refine writes_scalar ?_ ?_ ?_
  · rw [digits]
    exact Nat.toDigits_ne_nil
  · rw [digits, List.all_eq_true]
    intro c inside
    simp [isScalar, Char.isAlphanum, isDigit_of_mem inside]
  · rw [digits, scalar?_toDigits small]

/-! ### Keys -/

/-- A name that needs no quotes as a key. -/
def IsKey (name : String) : Prop := name.toList ≠ [] ∧ name.toList.all isBare = true

instance (name : String) : Decidable (IsKey name) := inferInstanceAs (Decidable (_ ∧ _))

section Key

variable {name : String} {rest : List Char}

theorem IsKey.bare (key : IsKey name) : ∀ c ∈ name.toList, isBare c = true := List.all_eq_true.mp key.2

theorem IsKey.head (key : IsKey name) : ∃ c more, name.toList = c :: more ∧ isBare c = true := by
  obtain ⟨c, more, same⟩ := List.exists_cons_of_ne_nil key.1
  exact ⟨c, more, same, key.bare c (same ▸ List.mem_cons_self ..)⟩

theorem name?_bare (key : IsKey name) (stop : ∀ c ∈ rest.head?, isBare c = false) :
    name? (name.toList ++ rest) = some (name, rest) := by
  obtain ⟨c, more, same, bare⟩ := key.head
  have parts := span_append key.bare stop
  rw [same, List.cons_append] at parts
  rw [same, List.cons_append]
  unfold name?
  split
  next begins => exact absurd (List.cons.inj begins).1 (ne_of_kind bare rfl)
  next begins => exact absurd (List.cons.inj begins).1 (ne_of_kind bare rfl)
  next =>
    rw [parts]
    simp [← same]

theorem key?_bare (key : IsKey name) (stop : ∀ c ∈ rest.head?, isBare c = false)
    (single : (skipBlanks rest).head? ≠ some '.') :
    key? (name.toList ++ rest) = some ([name], skipBlanks rest) := by
  obtain ⟨c, more, same, bare⟩ := key.head
  have other : isBlank c = false := isBlank_of_kind bare rfl rfl
  have start : skipBlanks (name.toList ++ rest) = name.toList ++ rest := by
    rw [same, List.cons_append, skipBlanks_cons other]
  show names? (79 + 1) _ = _
  rw [names?, start, name?_bare key stop]
  simp only [Option.bind_eq_bind, Option.bind_some]
  split
  next dot => simp [dot] at single
  next => rfl

end Key

/-! ### Statements -/

section Statements

variable {name written : String} {value : Value}

theorem lineEnd?_newline (rest : List Char) : lineEnd? ('\n' :: rest) = some rest := rfl

theorem statement?_table (key : IsKey name) (fuel : Nat) (rest : List Char) :
    statement? fuel ('[' :: (name.toList ++ ']' :: '\n' :: rest)) = some (.table [name], rest) := by
  obtain ⟨c, more, same, bare⟩ := key.head
  have read : key? (name.toList ++ ']' :: '\n' :: rest) = some ([name], ']' :: '\n' :: rest) :=
    key?_bare key (by simp; decide) (by simp [skipBlanks, isBlank])
  have single : c ≠ '[' := ne_of_kind bare rfl
  rw [same, List.cons_append] at read ⊢
  simp [statement?, single, read, lineEnd?_newline]

theorem toList_writeEntry (name written : String) (rest : List Char) :
    (writeEntry name written).toList ++ rest =
      name.toList ++ ' ' :: '=' :: ' ' :: (written.toList ++ '\n' :: rest) := by
  simp [writeEntry]

theorem entry?_written (key : IsKey name) (writes : Writes written value) (depth fuel : Nat) (rest : List Char) :
    entry? depth (fuel + 2) ((writeEntry name written).toList ++ rest) = some ([name], value, '\n' :: rest) := by
  have read : key? (name.toList ++ ' ' :: '=' :: ' ' :: (written.toList ++ '\n' :: rest)) =
      some ([name], '=' :: ' ' :: (written.toList ++ '\n' :: rest)) :=
    key?_bare key (by simp; decide) (by simp [skipBlanks, isBlank])
  have blank : skipBlanks (' ' :: (written.toList ++ '\n' :: rest)) = skipBlanks (written.toList ++ '\n' :: rest) := rfl
  rw [toList_writeEntry]
  simp [ entry?, read, blank, writes depth fuel rest]

theorem statement?_entry (key : IsKey name) (writes : Writes written value) (fuel : Nat) (rest : List Char) :
    statement? (fuel + 2) ((writeEntry name written).toList ++ rest) = some (.entry [name] value, rest) := by
  have read := entry?_written key writes maxDepth fuel rest
  obtain ⟨c, more, same, bare⟩ := key.head
  have single : c ≠ '[' := ne_of_kind bare rfl
  rw [toList_writeEntry, same, List.cons_append] at read ⊢
  simp [statement?, single, read, lineEnd?_newline]

/-- The lines of a text, as the statements that they are. -/
inductive Lines : List Statement → List Char → Prop
  | nil : Lines [] []
  | blank {statements text} (later : Lines statements text) : Lines statements ('\n' :: text)
  | table {name statements text} (key : IsKey name) (later : Lines statements text) :
      Lines (.table [name] :: statements) ('[' :: (name.toList ++ ']' :: '\n' :: text))
  | entry {name written value statements text} (key : IsKey name) (writes : Writes written value)
      (later : Lines statements text) :
      Lines (.entry [name] value :: statements) ((writeEntry name written).toList ++ text)

namespace Lines

variable {statements : List Statement} {text : List Char}

theorem length_le (lines : Lines statements text) : statements.length ≤ text.length := by
  induction lines with
  | nil => exact Nat.le_refl 0
  | blank later ih => exact Nat.le_succ_of_le ih
  | table key later ih =>
    simp only [List.length_cons, List.length_append]
    omega
  | entry key writes later ih =>
    rw [toList_writeEntry]
    simp only [List.length_cons, List.length_append]
    omega

theorem dropMark_eq (lines : Lines statements text) : dropMark text = text := by
  cases lines with
  | nil | blank | table => rfl
  | entry key writes later =>
    obtain ⟨c, more, same, bare⟩ := key.head
    have other : c ≠ '\ufeff' := ne_of_kind bare rfl
    rw [toList_writeEntry, same]
    simp [dropMark, other]

theorem statements?_succ {c : Char} (other : c ∉ ['\n', '\r', '#', ' ', '\t']) (fuel : Nat) (rest : List Char) :
    statements? (fuel + 1) (c :: rest) = do
      let (statement, rest) ← statement? fuel (c :: rest)
      return statement :: (← statements? fuel rest) := by
  rw [statements?, skipLayout_cons other]

/-- Each line is read as a statement, with steps left to read a value from the last one. -/
theorem statements?_eq (lines : Lines statements text) {fuel : Nat} (enough : statements.length < fuel) :
    statements? (fuel + 1) text = some statements := by
  induction lines generalizing fuel with
  | nil => rfl
  | blank later ih => exact ih enough
  | table key later ih =>
    obtain ⟨fuel, rfl⟩ := Nat.exists_eq_add_one_of_ne_zero (Nat.ne_zero_of_lt enough)
    have others := ih (Nat.lt_of_succ_lt_succ enough)
    rw [statements?_succ (by decide), statement?_table key]
    simp [others]
  | @entry name written _ statements text key writes later ih =>
    obtain ⟨fuel, rfl⟩ : ∃ more, fuel = more + 2 := ⟨fuel - 2, by rw [List.length_cons] at enough; omega⟩
    have others : statements? (fuel + 2) text = some statements := ih (Nat.lt_of_succ_lt_succ enough)
    have read := statement?_entry key writes fuel text
    obtain ⟨c, more, same, bare⟩ := key.head
    have layout : ∀ mark ∈ ['\n', '\r', '#', ' ', '\t'], isBare mark = false := by
      simp
      decide
    have start : c ∉ ['\n', '\r', '#', ' ', '\t'] := fun inside => ne_of_kind bare (layout c inside) rfl
    rw [toList_writeEntry, same, List.cons_append] at read ⊢
    rw [statements?_succ start, read]
    simp [others]

end Lines

end Statements

/-! ### Tables -/

/-- The tables of a document by their names, each with the values of its fields. -/
abbrev Tables := List (String × List (String × Value))

/-- The fields of a document that holds nothing but tables. -/
def Tables.fields (tables : Tables) : List (String × Value) :=
  Table.ofList (tables.map fun table => (table.1, .table (Table.ofList table.2)))

/-- The statements of a table: its header and an entry for each of its fields. -/
def tableStatements (name : String) (fields : List (String × Value)) : List Statement :=
  .table [name] :: fields.map fun field => .entry [field.1] field.2

/-- The statements of a document that holds nothing but tables. -/
def Tables.statements (tables : Tables) : List Statement :=
  tables.flatMap fun table => tableStatements table.1 table.2

theorem tableStatements_concat (name : String) (fields : List (String × Value)) (field : String × Value) :
    tableStatements name (fields ++ [field]) = tableStatements name fields ++ [.entry [field.1] field.2] := by
  simp [tableStatements]

theorem Tables.statements_concat (tables : Tables) (table : String × List (String × Value)) :
    statements (tables ++ [table]) = tables.statements ++ tableStatements table.1 table.2 := by
  simp [statements]

/-- What the entries are written with stands for the fields, one by one. -/
inductive WritesAll : List (String × String) → List (String × Value) → Prop
  | nil : WritesAll [] []
  | cons {name written value entries fields} (key : IsKey name) (writes : Writes written value)
      (later : WritesAll entries fields) : WritesAll ((name, written) :: entries) ((name, value) :: fields)

namespace Lines

variable {entries : List (String × String)} {fields : List (String × Value)} {statements : List Statement}
  {text : List Char}

theorem entries_append (all : WritesAll entries fields) (later : Lines statements text) :
    Lines ((fields.map fun field => .entry [field.1] field.2) ++ statements)
      ((String.join (entries.map fun (name, value) => writeEntry name value)).toList ++ text) := by
  induction all with
  | nil => exact later
  | cons key writes others ih =>
    have lines := Lines.entry key writes ih
    rwa [← List.append_assoc, ← String.toList_append, ← String.join_cons] at lines

theorem writeTable_append {name : String} (key : IsKey name) (all : WritesAll entries fields)
    (later : Lines statements text) :
    Lines (tableStatements name fields ++ statements) ((writeTable name entries).toList ++ text) := by
  have lines := Lines.table key (entries_append all later)
  have written : (writeTable name entries).toList ++ text = '[' :: (name.toList ++ ']' :: '\n' ::
      ((String.join (entries.map fun (name, value) => writeEntry name value)).toList ++ text)) := by
    simp [writeTable]
  rwa [written]

end Lines

namespace Nodes

/-- The nodes of a table that holds nothing but values. -/
def ofValues (fields : List (String × Value)) : Nodes :=
  Table.ofList (fields.map fun field => (field.1, .closed field.2))

/-- The nodes of a document that holds nothing but such tables. -/
def ofTables (tables : Tables) : Nodes :=
  Table.ofList (tables.map fun table => (table.1, .table .header (ofValues table.2)))

theorem ofValues_concat (fields : List (String × Value)) (field : String × Value) :
    ofValues (fields ++ [field]) = Table.insert field.1 (.closed field.2) (ofValues fields) := by
  rw [ofValues, List.map_append, List.map_singleton, Table.ofList_concat]
  rfl

theorem ofTables_concat (tables : Tables) (table : String × List (String × Value)) :
    ofTables (tables ++ [table]) =
      Table.insert table.1 (.table .header (ofValues table.2)) (ofTables tables) := by
  rw [ofTables, List.map_append, List.map_singleton, Table.ofList_concat]
  rfl

theorem toValues_ofValues (fields : List (String × Value)) : Node.toValues (ofValues fields) = Table.ofList fields := by
  rw [Node.toValues_eq_map, ofValues, Table.map_ofList, List.map_map]
  exact congrArg Table.ofList (List.map_id fields)

theorem toValues_ofTables (tables : Tables) :
    Node.toValues (ofTables tables) = tables.fields := by
  rw [Node.toValues_eq_map, ofTables, Table.map_ofList, List.map_map]
  refine congrArg Table.ofList (List.map_congr_left fun table _ => ?_)
  rw [← toValues_ofValues]
  rfl

end Nodes

namespace Draft

theorem add_table {draft : Draft} {name : String} (fresh : draft.nodes.lookup name = none) :
    draft.add (.table [name]) =
      some { nodes := Table.insert name (.table .header []) draft.nodes, current := [name] } := by
  simp [add, enter, Nodes.modify, Nodes.openTable, fresh]

theorem add_entry {nodes inner : Nodes} {name key : String} (fresh : inner.lookup key = none) (value : Value) :
    add { nodes := Table.insert name (.table .header inner) nodes, current := [name] } (.entry [key] value) =
      some { nodes := Table.insert name (.table .header (Table.insert key (.closed value) inner)) nodes
             current := [name] } := by
  simp [add, Nodes.modify, Nodes.define, fresh, Table.insert_insert]

theorem addAll_table {draft : Draft} {name : String} (fresh : draft.nodes.lookup name = none)
    {fields : List (String × Value)} (apart : (Table.names fields).Nodup) :
    (tableStatements name fields).foldlM add draft =
      some { nodes := Table.insert name (.table .header (Nodes.ofValues fields)) draft.nodes, current := [name] } := by
  -- From the last field on: the fields before it stand below the header, which is still open.
  induction fields using List.reverseRecOn with
  | nil =>
    rw [tableStatements, List.foldlM_cons, add_table fresh]
    rfl
  | append_singleton fields field ih =>
    obtain ⟨other, earlier⟩ := Table.nodup_names_concat.mp apart
    have before := ih earlier
    have unused : (Nodes.ofValues fields).lookup field.1 = none :=
      Table.lookup_ofList_eq_none (by rwa [Table.names_map])
    rw [tableStatements_concat, List.foldlM_append, before, Nodes.ofValues_concat]
    simp [add_entry unused]

theorem addAll_tables {tables : Tables} (apart : (Table.names tables).Nodup)
    (inner : ∀ table ∈ tables, (Table.names table.2).Nodup) :
    ∃ current, tables.statements.foldlM add {} = some { nodes := Nodes.ofTables tables, current } := by
  induction tables using List.reverseRecOn with
  | nil => exact ⟨[], rfl⟩
  | append_singleton tables table ih =>
    obtain ⟨other, earlier⟩ := Table.nodup_names_concat.mp apart
    obtain ⟨others, last⟩ := List.forall_mem_append.mp inner
    obtain ⟨current, before⟩ := ih earlier others
    have fresh : (Nodes.ofTables tables).lookup table.1 = none :=
      Table.lookup_ofList_eq_none (by rwa [Table.names_map fun fields => Node.table .header (Nodes.ofValues fields)])
    rw [Tables.statements_concat, List.foldlM_append, before, Nodes.ofTables_concat]
    exact ⟨[table.1], addAll_table fresh (last table (List.mem_singleton_self table))⟩

end Draft

/-- Tables with different names and differently named fields are read from the lines that are written for them. -/
theorem read?_of_lines {tables : Tables} {text : String}
    (lines : Lines tables.statements text.toList) (apart : (Table.names tables).Nodup)
    (inner : ∀ table ∈ tables, (Table.names table.2).Nodup) :
    read? text = some tables.fields := by
  have short := lines.length_le
  have read : statements? (2 * text.toList.length + 2) text.toList = some tables.statements :=
    lines.statements?_eq (by omega)
  obtain ⟨current, built⟩ := Draft.addAll_tables apart inner
  rw [read?, lines.dropMark_eq]
  simp [read, built, Nodes.toValues_ofTables]

end ShellCompletion.Document
