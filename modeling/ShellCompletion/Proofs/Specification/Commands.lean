import ShellCompletion.Proofs.Document.Order
import ShellCompletion.Specification.Reader

/-!
# The commands of a specification

The names of states and of commands ascend in every specification that is read (`read?_ordered`), so a path of
names leads to one command at most. `nodes` lists the commands in depth-first order, each before those below
it; it holds the commands that paths lead to (`mem_nodes_iff`), and their paths ascend (`nodes_ascend`).
-/

namespace ShellCompletion

open Document

/-- The names of the states and of the subcommands ascend, in this command and below it. -/
inductive CommandSpec.Ordered : CommandSpec → Prop
  | intro {tokens states subcommands} (states_ascend : Table.Ascending states)
      (subcommands_ascend : Table.Ascending subcommands)
      (below : ∀ entry ∈ subcommands, Ordered entry.2) : Ordered { tokens, states, subcommands }

structure Specification.Ordered (commands : Specification) : Prop where
  ascending : Table.Ascending commands
  below : ∀ entry ∈ commands, entry.2.Ordered

/-! ### Paths -/

/-- The command below this one along a path. -/
def CommandSpec.below? (spec : CommandSpec) : List String → Option CommandSpec
  | [] => some spec
  | name :: rest => (spec.subcommands.lookup name).bind (below? · rest)

def Specification.command? (commands : Specification) : List String → Option CommandSpec
  | [] => none
  | name :: rest => (commands.lookup name).bind (·.below? rest)

mutual

/-- A command and those below it, with the paths that lead from it to them. -/
def CommandSpec.nodes : CommandSpec → List (List String × CommandSpec)
  | { tokens, states, subcommands } =>
    ([], { tokens, states, subcommands }) :: nodesBelow subcommands

def CommandSpec.nodesBelow : List (String × CommandSpec) → List (List String × CommandSpec)
  | [] => []
  | (name, spec) :: rest => spec.nodes.map (fun node => (name :: node.1, node.2)) ++ nodesBelow rest

end

/-- All commands with their paths, each before those below it and before its later siblings. -/
def Specification.nodes (commands : Specification) : List (List String × CommandSpec) :=
  CommandSpec.nodesBelow commands

/-! ### What is read is in order -/

namespace CommandSpec

variable {spec : CommandSpec}

theorem Ordered.states_ascend (h : spec.Ordered) : Table.Ascending spec.states := by
  cases h with
  | intro states _ _ => exact states

theorem Ordered.subcommands (h : spec.Ordered) : Specification.Ordered spec.subcommands := by
  cases h with
  | intro _ ascending below => exact ⟨ascending, below⟩

theorem names_tableOf? {α : Type} {read? : Value → Option α} {fields : List (String × Value)}
    {table : List (String × α)} (read : tableOf? read? (.table fields) = some table) :
    Table.names table = Table.names fields := by
  induction fields generalizing table with
  | nil =>
    obtain rfl := Option.some.inj read
    rfl
  | cons field rest ih =>
    obtain ⟨name, value⟩ := field
    simp only [tableOf?, List.mapM_cons] at read
    obtain ⟨entry, first, read⟩ := Option.bind_eq_some_iff.mp read
    obtain ⟨others, later, read⟩ := Option.bind_eq_some_iff.mp read
    obtain ⟨item, -, rfl⟩ := Option.map_eq_some_iff.mp first
    obtain rfl := Option.some.inj read
    simpa [Table.names] using ih later

theorem ascending_tableOf? {α : Type} {read? : Value → Option α} {value : Value} {table : List (String × α)}
    (h : value.Ordered) (read : tableOf? read? value = some table) : Table.Ascending table := by
  cases h with
  | table ascending _ =>
    rw [Table.Ascending, names_tableOf? read]
    exact ascending
  | _ => cases read

theorem names_ofEntries? {fields : List (String × Value)} {commands : Specification}
    (read : ofEntries? fields = some commands) : Table.names commands = Table.names fields := by
  induction fields generalizing commands with
  | nil =>
    obtain rfl := Option.some.inj read
    rfl
  | cons field rest ih =>
    obtain ⟨name, value⟩ := field
    rw [ofEntries?] at read
    obtain ⟨spec, -, read⟩ := Option.bind_eq_some_iff.mp read
    obtain ⟨others, later, read⟩ := Option.bind_eq_some_iff.mp read
    obtain rfl := Option.some.inj read
    simpa [Table.names] using ih later

/-- A value is read as a command in order, and as commands in order. -/
structure ReadsInOrder (value : Value) : Prop where
  command : ∀ {spec}, ofValue? value = some spec → spec.Ordered
  commands : ∀ {commands}, ofTable? value = some commands → Specification.Ordered commands

theorem ordered_of_entries {fields : List (String × Value)} {commands : Specification}
    (inner : ∀ field ∈ fields, ReadsInOrder field.2) (read : ofEntries? fields = some commands) :
    ∀ entry ∈ commands, entry.2.Ordered := by
  induction fields generalizing commands with
  | nil =>
    obtain rfl := Option.some.inj read
    exact nofun
  | cons field rest ih =>
    obtain ⟨name, value⟩ := field
    obtain ⟨first, others⟩ := List.forall_mem_cons.mp inner
    rw [ofEntries?] at read
    obtain ⟨spec, here, read⟩ := Option.bind_eq_some_iff.mp read
    obtain ⟨later, after, read⟩ := Option.bind_eq_some_iff.mp read
    obtain rfl := Option.some.inj read
    exact List.forall_mem_cons.mpr ⟨first.command here, ih others after⟩

theorem ordered_empty : Ordered {} := .intro .nil .nil nofun

theorem ordered_of_fields {fields : List (String × Value)} {spec : CommandSpec}
    (ordered : ∀ field ∈ fields, field.2.Ordered) (inner : ∀ field ∈ fields, ReadsInOrder field.2)
    (read : ofFields? fields = some spec) : spec.Ordered := by
  induction fields generalizing spec with
  | nil =>
    obtain rfl := Option.some.inj read
    exact ordered_empty
  | cons field rest ih =>
    obtain ⟨name, value⟩ := field
    obtain ⟨firstOrdered, ordered⟩ := List.forall_mem_cons.mp ordered
    obtain ⟨first, inner⟩ := List.forall_mem_cons.mp inner
    rw [ofFields?] at read
    obtain ⟨before, others, read⟩ := Option.bind_eq_some_iff.mp read
    have known := ih ordered inner others
    split at read
    · obtain ⟨tokens, -, read⟩ := Option.bind_eq_some_iff.mp read
      obtain rfl := Option.some.inj read
      exact .intro known.states_ascend known.subcommands.ascending known.subcommands.below
    · obtain ⟨states, table, read⟩ := Option.bind_eq_some_iff.mp read
      obtain rfl := Option.some.inj read
      exact .intro (ascending_tableOf? firstOrdered table) known.subcommands.ascending known.subcommands.below
    · obtain ⟨commands, table, read⟩ := Option.bind_eq_some_iff.mp read
      obtain rfl := Option.some.inj read
      exact .intro known.states_ascend (first.commands table).ascending (first.commands table).below
    · cases read

theorem ordered_of_items {items : List Value} {spec : CommandSpec}
    (ordered : ∀ item ∈ items, item.Ordered) (inner : ∀ item ∈ items, ReadsInOrder item)
    (read : ofValue? (.list items) = some spec) : spec.Ordered := by
  match items with
  | [] =>
    obtain rfl := Option.some.inj read
    exact ordered_empty
  | [tokens] =>
    obtain ⟨tokens, -, rfl⟩ := Option.map_eq_some_iff.mp read
    exact .intro .nil .nil nofun
  | [tokens, states] =>
    obtain ⟨tokens, -, read⟩ := Option.bind_eq_some_iff.mp read
    obtain ⟨known, table, read⟩ := Option.bind_eq_some_iff.mp read
    obtain rfl := Option.some.inj read
    exact .intro (ascending_tableOf? (ordered states (by simp)) table) .nil nofun
  | tokens :: states :: subcommands :: rest =>
    obtain ⟨tokens, -, read⟩ := Option.bind_eq_some_iff.mp read
    obtain ⟨known, table, read⟩ := Option.bind_eq_some_iff.mp read
    obtain ⟨commands, below, read⟩ := Option.bind_eq_some_iff.mp read
    obtain rfl := Option.some.inj read
    have commandsOrdered := (inner subcommands (by simp)).commands below
    exact .intro (ascending_tableOf? (ordered states (by simp)) table) commandsOrdered.ascending
      commandsOrdered.below

theorem readsInOrder {value : Value} (h : value.Ordered) : ReadsInOrder value := by
  induction h with
  | list ordered inner =>
    refine ⟨ordered_of_items ordered inner, fun read => ?_⟩
    cases read
  | table ascending ordered inner =>
    refine ⟨ordered_of_fields ordered inner, fun read => ⟨?_, ordered_of_entries inner read⟩⟩
    rw [Table.Ascending, names_ofEntries? read]
    exact ascending
  | _ => constructor <;> intro _ read <;> cases read

end CommandSpec

theorem Specification.read?_ordered {text : String} {commands : Specification}
    (read : Specification.read? text = some commands) : commands.Ordered := by
  obtain ⟨fields, document, read⟩ := Option.bind_eq_some_iff.mp read
  split at read
  · obtain rfl := Option.some.inj read
    exact ⟨.nil, nofun⟩
  · cases Document.read?_ordered document with
    | table _ ordered => exact (CommandSpec.readsInOrder (ordered _ (List.mem_singleton_self _))).commands read
  · cases read

/-! ### Along a path -/

theorem CommandSpec.Ordered.below? {spec lower : CommandSpec} {path : List String} (h : spec.Ordered)
    (found : spec.below? path = some lower) : lower.Ordered := by
  induction path generalizing spec with
  | nil =>
    obtain rfl := Option.some.inj found
    exact h
  | cons name rest ih =>
    obtain ⟨child, known, found⟩ := Option.bind_eq_some_iff.mp found
    exact ih (h.subcommands.below _ (Table.mem_of_lookup known)) found

theorem Specification.Ordered.command? {commands : Specification} {path : List String} {spec : CommandSpec}
    (h : commands.Ordered) (found : commands.command? path = some spec) : spec.Ordered := by
  cases path with
  | nil => cases found
  | cons name rest =>
    obtain ⟨child, known, found⟩ := Option.bind_eq_some_iff.mp found
    exact (h.below _ (Table.mem_of_lookup known)).below? found

theorem CommandSpec.below?_append (spec : CommandSpec) (path rest : List String) :
    spec.below? (path ++ rest) = (spec.below? path).bind (·.below? rest) := by
  induction path generalizing spec with
  | nil => rfl
  | cons name path ih =>
    rw [List.cons_append, below?, below?, Option.bind_assoc]
    exact Option.bind_congr fun child _ => ih child

theorem Specification.command?_concat {commands : Specification} {path : List String} {spec : CommandSpec}
    (found : commands.command? path = some spec) (name : String) :
    commands.command? (path ++ [name]) = spec.subcommands.lookup name := by
  cases path with
  | nil => cases found
  | cons first rest =>
    obtain ⟨top, known, found⟩ := Option.bind_eq_some_iff.mp found
    rw [List.cons_append, Specification.command?, known, Option.bind_some, CommandSpec.below?_append, found]
    simp [CommandSpec.below?]

/-! ### The order of the nodes -/

namespace CommandSpec

variable {spec : CommandSpec} {commands : Specification} {path : List String}

theorem nodes_eq (spec : CommandSpec) : spec.nodes = ([], spec) :: nodesBelow spec.subcommands := by
  cases spec
  rfl

theorem mem_nodesBelow {node : List String × CommandSpec} :
    node ∈ nodesBelow commands ↔
      ∃ entry ∈ commands, ∃ below ∈ entry.2.nodes, node = (entry.1 :: below.1, below.2) := by
  induction commands with
  | nil => simp [nodesBelow]
  | cons entry rest ih => simp [nodesBelow, ih, eq_comm]

theorem mem_nodes_iff (h : spec.Ordered) {node : CommandSpec} :
    (path, node) ∈ spec.nodes ↔ spec.below? path = some node := by
  induction h generalizing path with
  | @intro tokens states subcommands _ ascending below ih =>
    rw [nodes_eq, List.mem_cons, mem_nodesBelow]
    cases path with
    | nil => simp [below?, eq_comm]
    | cons name rest =>
      simp only [below?, Option.bind_eq_some_iff, Table.lookup_eq_some_iff ascending]
      constructor
      · rintro (other | ⟨entry, member, down, inner, same⟩)
        · cases other
        · cases same
          exact ⟨entry.2, member, (ih entry member).mp inner⟩
      · rintro ⟨child, member, found⟩
        exact .inr ⟨(name, child), member, (rest, node), (ih _ member).mpr found, rfl⟩

theorem nodesBelow_ascend (ascending : Table.Ascending commands)
    (inner : ∀ entry ∈ commands, entry.2.nodes.Pairwise (·.1 < ·.1)) :
    (nodesBelow commands).Pairwise (·.1 < ·.1) := by
  induction commands with
  | nil => exact .nil
  | cons entry rest ih =>
    obtain ⟨above, ascending⟩ := List.pairwise_cons.mp ascending
    obtain ⟨first, inner⟩ := List.forall_mem_cons.mp inner
    refine List.pairwise_append.mpr ⟨?_, ih ascending inner, ?_⟩
    · exact List.pairwise_map.mpr (first.imp fun less => List.cons_lt_cons_iff.mpr (.inr ⟨rfl, less⟩))
    · intro node member later after
      obtain ⟨below, -, rfl⟩ := List.mem_map.mp member
      obtain ⟨other, among, lower, -, rfl⟩ := mem_nodesBelow.mp after
      have less : entry.1 < other.1 := above other.1 (List.mem_map_of_mem among)
      exact List.cons_lt_cons_iff.mpr (.inl less)

theorem nodes_ascend (h : spec.Ordered) : spec.nodes.Pairwise (·.1 < ·.1) := by
  induction h with
  | @intro tokens states subcommands _ ascending _ ih =>
    rw [nodes_eq]
    refine List.pairwise_cons.mpr ⟨fun node member => ?_, nodesBelow_ascend ascending ih⟩
    obtain ⟨entry, -, below, -, rfl⟩ := mem_nodesBelow.mp member
    exact List.nil_lt_cons ..

end CommandSpec

namespace Specification

variable {commands : Specification} {path : List String} {spec : CommandSpec}

theorem mem_nodes_iff (h : commands.Ordered) :
    (path, spec) ∈ commands.nodes ↔ commands.command? path = some spec := by
  rw [nodes, CommandSpec.mem_nodesBelow]
  cases path with
  | nil => simp [command?]
  | cons name rest =>
    simp only [command?, Option.bind_eq_some_iff, Table.lookup_eq_some_iff h.ascending]
    constructor
    · rintro ⟨entry, member, below, inner, same⟩
      cases same
      exact ⟨entry.2, member, (CommandSpec.mem_nodes_iff (h.below entry member)).mp inner⟩
    · rintro ⟨child, member, found⟩
      exact ⟨(name, child), member, (rest, spec), (CommandSpec.mem_nodes_iff (h.below _ member)).mpr found, rfl⟩

/-- Depth-first order is the lexicographic order of the paths. -/
theorem nodes_ascend (h : commands.Ordered) : commands.nodes.Pairwise (·.1 < ·.1) :=
  CommandSpec.nodesBelow_ascend h.ascending fun entry member => CommandSpec.nodes_ascend (h.below entry member)

end Specification

end ShellCompletion
