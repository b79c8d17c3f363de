import ShellCompletion.Document.Reader
import ShellCompletion.Proofs.Table

/-!
# Order of names in documents

Whatever order the statements of a document come in, the names of every table ascend, at any depth
(`read?_ordered`). The tree of tables keeps to this order with each statement.
-/

namespace ShellCompletion.Document

/-- The names of every table in a value ascend. -/
inductive Value.Ordered : Value → Prop
  | text (value) : Ordered (.text value)
  | integer (value) : Ordered (.integer value)
  | boolean (value) : Ordered (.boolean value)
  | float : Ordered .float
  | dateTime : Ordered .dateTime
  | list {items} (inner : ∀ item ∈ items, Ordered item) : Ordered (.list items)
  | table {fields} (ascending : Table.Ascending fields) (inner : ∀ field ∈ fields, Ordered field.2) :
      Ordered (.table fields)

inductive Node.Ordered : Node → Prop
  | closed {value} (inner : value.Ordered) : Ordered (.closed value)
  | table {origin fields} (ascending : Table.Ascending fields)
      (inner : ∀ field ∈ fields, Ordered field.2) : Ordered (.table origin fields)
  | tables {items} (ascending : ∀ fields ∈ items, Table.Ascending fields)
      (inner : ∀ fields ∈ items, ∀ field ∈ fields, Ordered field.2) : Ordered (.tables items)

structure Nodes.Ordered (nodes : Nodes) : Prop where
  ascending : Table.Ascending nodes
  inner : ∀ entry ∈ nodes, entry.2.Ordered

/-! ### From nodes to values -/

namespace Node

theorem toValues_eq_map (nodes : Nodes) :
    toValues nodes = nodes.map fun entry => (entry.1, entry.2.toValue) := by
  induction nodes with
  | nil => rfl
  | cons entry rest ih => rw [List.map_cons, ← ih]; rfl

theorem toTables_eq_map (items : List Nodes) :
    toTables items = items.map fun fields => .table (toValues fields) := by
  induction items with
  | nil => rfl
  | cons fields rest ih => rw [List.map_cons, ← ih]; rfl

theorem ascending_toValues {nodes : Nodes} (h : Table.Ascending nodes) : Table.Ascending (toValues nodes) := by
  have same : Table.names (toValues nodes) = Table.names nodes := by
    simp [toValues_eq_map, Table.names]
  rwa [Table.Ascending, same]

theorem Ordered.toValue {node : Node} (h : node.Ordered) : node.toValue.Ordered := by
  induction h with
  | closed inner => exact inner
  | table ascending inner ih =>
    refine .table (ascending_toValues ascending) fun field member => ?_
    rw [toValues_eq_map] at member
    obtain ⟨entry, here, rfl⟩ := List.mem_map.mp member
    exact ih entry here
  | tables ascending inner ih =>
    refine .list fun value member => ?_
    rw [toTables_eq_map, List.mem_reverse] at member
    obtain ⟨fields, here, rfl⟩ := List.mem_map.mp member
    refine .table (ascending_toValues (ascending fields here)) fun field member => ?_
    rw [toValues_eq_map] at member
    obtain ⟨entry, among, rfl⟩ := List.mem_map.mp member
    exact ih fields here entry among

end Node

namespace Nodes

variable {nodes : Nodes} {name : String} {node : Node}

theorem ordered_nil : Ordered [] := ⟨.nil, nofun⟩

theorem Ordered.toValues (h : nodes.Ordered) :
    Table.Ascending (Node.toValues nodes) ∧ ∀ field ∈ Node.toValues nodes, field.2.Ordered := by
  have whole : (Node.table .header nodes).Ordered := .table h.ascending h.inner
  cases whole.toValue with
  | table ascending inner => exact ⟨ascending, inner⟩

theorem Ordered.insert (h : nodes.Ordered) (new : node.Ordered) :
    Ordered (Table.insert name node nodes) where
  ascending := Table.Ascending.insert h.ascending
  inner entry member := by
    rcases Table.mem_insert member with rfl | old
    · exact new
    · exact h.inner entry old

theorem Ordered.lookup (h : nodes.Ordered) (found : nodes.lookup name = some node) : node.Ordered :=
  h.inner _ (Table.mem_of_lookup found)

theorem Ordered.table (h : nodes.Ordered) (origin : Origin) : (Node.table origin nodes).Ordered :=
  .table h.ascending h.inner

end Nodes

namespace Node

variable {origin : Origin} {nodes : Nodes} {others : List Nodes}

theorem Ordered.fields (h : (Node.table origin nodes).Ordered) : nodes.Ordered := by
  cases h with
  | table ascending inner => exact ⟨ascending, inner⟩

theorem ordered_tables_cons :
    (Node.tables (nodes :: others)).Ordered ↔ nodes.Ordered ∧ (Node.tables others).Ordered := by
  constructor
  · intro h
    cases h with
    | tables ascending inner =>
      rw [List.forall_mem_cons] at ascending inner
      exact ⟨⟨ascending.1, inner.1⟩, .tables ascending.2 inner.2⟩
  · rintro ⟨new, old⟩
    cases old with
    | tables ascending inner =>
      exact .tables (List.forall_mem_cons.mpr ⟨new.ascending, ascending⟩)
        (List.forall_mem_cons.mpr ⟨new.inner, inner⟩)

end Node

namespace Nodes

variable {nodes result : Nodes} {name : String} {value : Value}

/-! ### Statements keep the order -/

/-- What stands under a name is made from other nodes, which keep the order. -/
theorem Ordered.put (h : nodes.Ordered) {made : Option Nodes} {wrap : Nodes → Node}
    (keeps : ∀ inner, made = some inner → (wrap inner).Ordered)
    (put : (made.map wrap >>= fun node => pure (Table.insert name node nodes)) = some result) :
    result.Ordered := by
  obtain ⟨node, wrapped, put⟩ := Option.bind_eq_some_iff.mp put
  obtain ⟨inner, here, rfl⟩ := Option.map_eq_some_iff.mp wrapped
  obtain rfl := Option.some.inj put
  exact h.insert (keeps inner here)

theorem Ordered.define (new : value.Ordered) {key : List String} (h : nodes.Ordered)
    (defined : define value key nodes = some result) : result.Ordered := by
  induction key generalizing nodes result with
  | nil => cases defined
  | cons name rest ih =>
    cases rest with
    | nil =>
      rw [Nodes.define] at defined
      split at defined
      · obtain rfl := Option.some.inj defined
        exact h.insert (.closed new)
      · cases defined
    | cons next rest =>
      rw [Nodes.define] at defined
      split at defined
      next => exact h.put (fun inner below => (ih ordered_nil below).table _) defined
      next origin inner found =>
        split at defined
        · exact h.put (fun after below => (ih (h.lookup found).fields below).table _) defined
        · cases defined
      next latest earlier found =>
        split at defined
        · cases defined
        · obtain ⟨before, others⟩ := Node.ordered_tables_cons.mp (h.lookup found)
          exact h.put (fun after below => Node.ordered_tables_cons.mpr ⟨ih before below, others⟩) defined
      next => cases defined

theorem Ordered.modify {change : Nodes → Option Nodes}
    (keeps : ∀ {nodes result : Nodes}, nodes.Ordered → change nodes = some result → result.Ordered)
    {path : List String} (h : nodes.Ordered) (modified : modify change path nodes = some result) :
    result.Ordered := by
  induction path generalizing nodes result with
  | nil => exact keeps h modified
  | cons name rest ih =>
    rw [Nodes.modify] at modified
    split at modified
    next => exact h.put (fun inner below => (ih ordered_nil below).table _) modified
    next origin inner found =>
      exact h.put (fun after below => (ih (h.lookup found).fields below).table _) modified
    next latest earlier found =>
      obtain ⟨before, others⟩ := Node.ordered_tables_cons.mp (h.lookup found)
      exact h.put (fun after below => Node.ordered_tables_cons.mpr ⟨ih before below, others⟩) modified
    next => cases modified

theorem Ordered.openTable (h : nodes.Ordered) (opened : openTable name nodes = some result) :
    result.Ordered := by
  unfold Nodes.openTable at opened
  split at opened
  next =>
    obtain rfl := Option.some.inj opened
    exact h.insert (ordered_nil.table _)
  next inner found =>
    obtain rfl := Option.some.inj opened
    exact h.insert ((h.lookup found).fields.table _)
  next => cases opened

theorem Ordered.openItem (h : nodes.Ordered) (opened : openItem name nodes = some result) :
    result.Ordered := by
  unfold Nodes.openItem at opened
  split at opened
  next =>
    obtain rfl := Option.some.inj opened
    exact h.insert (Node.ordered_tables_cons.mpr ⟨ordered_nil, .tables nofun nofun⟩)
  next items found =>
    obtain rfl := Option.some.inj opened
    exact h.insert (Node.ordered_tables_cons.mpr ⟨ordered_nil, h.lookup found⟩)
  next => cases opened

end Nodes

/-! ### Reading keeps the order -/

theorem ordered_of_scalar? {text : List Char} {value : Value} (read : scalar? text = some value) :
    value.Ordered := by
  unfold scalar? at read
  split at read
  · obtain rfl := Option.some.inj read
    exact .boolean _
  split at read
  · obtain rfl := Option.some.inj read
    exact .boolean _
  split at read
  · obtain rfl := Option.some.inj read
    exact .integer _
  split at read
  · obtain rfl := Option.some.inj read
    exact .float
  split at read
  · obtain rfl := Option.some.inj read
    exact .dateTime
  · cases read

/-- Whatever the readers of values, items, fields and entries give with some fuel is in order. -/
structure ReadsInOrder (fuel : Nat) : Prop where
  value : ∀ {depth text value rest}, value? depth fuel text = some (value, rest) → value.Ordered
  items : ∀ {depth text items rest}, items? depth fuel text = some (items, rest) →
    ∀ item ∈ items, item.Ordered
  fields : ∀ {depth nodes text result rest}, Nodes.Ordered nodes →
    fields? depth fuel nodes text = some (result, rest) → result.Ordered
  entry : ∀ {depth text key value rest}, entry? depth fuel text = some (key, value, rest) → value.Ordered

namespace ReadsInOrder

variable {fuel depth : Nat} {text rest : List Char} {value : Value}

theorem value_succ (less : ReadsInOrder fuel) (read : value? depth (fuel + 1) text = some (value, rest)) :
    value.Ordered := by
  unfold value? at read
  split at read
  next =>
    split at read
    · cases read
    · obtain ⟨⟨items, after⟩, inner, read⟩ := Option.bind_eq_some_iff.mp read
      obtain ⟨rfl, -⟩ := Prod.mk.inj (Option.some.inj read)
      exact .list (less.items inner)
  next =>
    split at read
    · cases read
    · obtain ⟨⟨nodes, after⟩, inner, read⟩ := Option.bind_eq_some_iff.mp read
      obtain ⟨rfl, -⟩ := Prod.mk.inj (Option.some.inj read)
      obtain ⟨ascending, values⟩ := (less.fields Nodes.ordered_nil inner).toValues
      exact .table ascending values
  next =>
    obtain ⟨⟨value, after⟩, -, read⟩ := Option.map_eq_some_iff.mp read
    obtain ⟨rfl, -⟩ := Prod.mk.inj read
    exact .text _
  next =>
    obtain ⟨⟨value, after⟩, -, read⟩ := Option.map_eq_some_iff.mp read
    obtain ⟨rfl, -⟩ := Prod.mk.inj read
    exact .text _
  next =>
    obtain ⟨value, scalar, read⟩ := Option.map_eq_some_iff.mp read
    obtain ⟨rfl, -⟩ := Prod.mk.inj read
    exact ordered_of_scalar? scalar

theorem items_succ {items : List Value} (less : ReadsInOrder fuel)
    (read : items? depth (fuel + 1) text = some (items, rest)) : ∀ item ∈ items, item.Ordered := by
  unfold items? at read
  split at read
  next => cases read
  next =>
    obtain ⟨rfl, -⟩ := Prod.mk.inj (Option.some.inj read)
    exact List.forall_mem_nil _
  next earlier same _ =>
    obtain rfl := Nat.succ.inj same
    obtain ⟨⟨item, after⟩, first, read⟩ := Option.bind_eq_some_iff.mp read
    dsimp only at read
    split at read
    next =>
      obtain ⟨rfl, -⟩ := Prod.mk.inj (Option.some.inj read)
      exact List.forall_mem_singleton.mpr (less.value first)
    next =>
      obtain ⟨⟨items, after⟩, others, read⟩ := Option.bind_eq_some_iff.mp read
      obtain ⟨rfl, -⟩ := Prod.mk.inj (Option.some.inj read)
      exact List.forall_mem_cons.mpr ⟨less.value first, less.items others⟩
    next => cases read

theorem fields_succ {nodes result : Nodes} (less : ReadsInOrder fuel) (h : nodes.Ordered)
    (read : fields? depth (fuel + 1) nodes text = some (result, rest)) : result.Ordered := by
  unfold fields? at read
  split at read
  next => cases read
  next =>
    obtain ⟨rfl, -⟩ := Prod.mk.inj (Option.some.inj read)
    exact h
  next earlier same _ =>
    obtain rfl := Nat.succ.inj same
    obtain ⟨⟨key, value, after⟩, entry, read⟩ := Option.bind_eq_some_iff.mp read
    obtain ⟨nodes, defined, read⟩ := Option.bind_eq_some_iff.mp read
    have next := h.define (less.entry entry) defined
    split at read
    next =>
      obtain ⟨rfl, -⟩ := Prod.mk.inj (Option.some.inj read)
      exact next
    next => exact less.fields next read
    next => cases read

theorem entry_succ {key : List String} (less : ReadsInOrder fuel)
    (read : entry? depth (fuel + 1) text = some (key, value, rest)) : value.Ordered := by
  unfold entry? at read
  obtain ⟨⟨key, after⟩, -, read⟩ := Option.bind_eq_some_iff.mp read
  dsimp only at read
  split at read
  next =>
    obtain ⟨⟨value, after⟩, inner, read⟩ := Option.bind_eq_some_iff.mp read
    obtain ⟨-, same⟩ := Prod.mk.inj (Option.some.inj read)
    obtain ⟨rfl, -⟩ := Prod.mk.inj same
    exact less.value inner
  next => cases read

end ReadsInOrder

theorem readsInOrder (fuel : Nat) : ReadsInOrder fuel := by
  induction fuel with
  | zero => constructor <;> intros <;> simp_all [value?, items?, fields?, entry?]
  | succ fuel less => exact ⟨less.value_succ, less.items_succ, less.fields_succ, less.entry_succ⟩

theorem ordered_of_statement? {fuel : Nat} {text rest : List Char} {key : List String} {value : Value}
    (read : statement? fuel text = some (.entry key value, rest)) : value.Ordered := by
  unfold statement? at read
  simp only [Option.bind_eq_bind, Option.bind_some] at read
  split at read
  next =>
    obtain ⟨⟨path, after⟩, -, read⟩ := Option.bind_eq_some_iff.mp read
    split at read
    · obtain ⟨rest, -, read⟩ := Option.bind_eq_some_iff.mp read
      cases read
    · cases read
  next =>
    obtain ⟨⟨path, after⟩, -, read⟩ := Option.bind_eq_some_iff.mp read
    split at read
    · obtain ⟨rest, -, read⟩ := Option.bind_eq_some_iff.mp read
      cases read
    · cases read
  next =>
    obtain ⟨⟨key, value, after⟩, entry, read⟩ := Option.bind_eq_some_iff.mp read
    obtain ⟨rest, -, read⟩ := Option.bind_eq_some_iff.mp read
    cases read
    exact (readsInOrder fuel).entry entry

theorem ordered_of_statements? {fuel : Nat} {text : List Char} {statements : List Statement}
    (read : statements? fuel text = some statements) {key : List String} {value : Value}
    (member : Statement.entry key value ∈ statements) : value.Ordered := by
  induction fuel generalizing text statements with
  | zero => cases read
  | succ fuel ih =>
    unfold statements? at read
    split at read
    · obtain rfl := Option.some.inj read
      cases member
    · obtain ⟨⟨statement, after⟩, first, read⟩ := Option.bind_eq_some_iff.mp read
      obtain ⟨others, later, read⟩ := Option.bind_eq_some_iff.mp read
      obtain rfl := Option.some.inj read
      rcases List.mem_cons.mp member with rfl | member
      · exact ordered_of_statement? first
      · exact ih later member

namespace Draft

theorem ordered_enter {draft next : Draft} {openAt : String → Nodes → Option Nodes} {path : List String}
    (opens : ∀ {name : String} {nodes result : Nodes}, nodes.Ordered → openAt name nodes = some result →
      result.Ordered)
    (h : draft.nodes.Ordered) (entered : draft.enter openAt path = some next) : next.nodes.Ordered := by
  obtain ⟨name, -, entered⟩ := Option.bind_eq_some_iff.mp entered
  obtain ⟨nodes, modified, entered⟩ := Option.bind_eq_some_iff.mp entered
  obtain rfl := Option.some.inj entered
  exact h.modify opens modified

theorem ordered_add {draft next : Draft} {statement : Statement}
    (values : ∀ key value, statement = .entry key value → value.Ordered) (h : draft.nodes.Ordered)
    (added : draft.add statement = some next) : next.nodes.Ordered := by
  cases statement with
  | table path => exact ordered_enter Nodes.Ordered.openTable h added
  | item path => exact ordered_enter Nodes.Ordered.openItem h added
  | entry key value =>
    obtain ⟨nodes, modified, added⟩ := Option.bind_eq_some_iff.mp added
    obtain rfl := Option.some.inj added
    exact h.modify (fun before => before.define (values key value rfl)) modified

theorem ordered_addAll {draft last : Draft} {statements : List Statement}
    (values : ∀ key value, Statement.entry key value ∈ statements → value.Ordered) (h : draft.nodes.Ordered)
    (added : statements.foldlM Draft.add draft = some last) : last.nodes.Ordered := by
  induction statements generalizing draft with
  | nil =>
    obtain rfl := Option.some.inj added
    exact h
  | cons statement rest ih =>
    rw [List.foldlM_cons] at added
    obtain ⟨next, first, added⟩ := Option.bind_eq_some_iff.mp added
    refine ih (fun key value member => values key value (List.mem_cons_of_mem _ member)) ?_ added
    exact ordered_add (fun key value same => values key value (same ▸ List.mem_cons_self ..)) h first

end Draft

theorem read?_ordered {text : String} {fields : List (String × Value)} (read : read? text = some fields) :
    (Value.table fields).Ordered := by
  obtain ⟨statements, listed, read⟩ := Option.bind_eq_some_iff.mp read
  obtain ⟨draft, added, read⟩ := Option.bind_eq_some_iff.mp read
  obtain rfl := Option.some.inj read
  have last := Draft.ordered_addAll (fun _ _ => ordered_of_statements? listed) Nodes.ordered_nil added
  exact .table last.toValues.1 last.toValues.2

end ShellCompletion.Document
