import ShellCompletion.Proofs.Specification.Descent
import ShellCompletion.Proofs.Specification.Inheritance

/-!
# Commands that can be typed

Only the last path name of the first word counts, and a word that looks like a flag never names a subcommand.
Apart from such names, a line that begins with the path of a command selects that command, and no other commands
are ever selected (`select_path`).
-/

namespace ShellCompletion

/-- The words of the path are read as the names of a command and of subcommands. -/
def Typable : List String → Prop
  | [] => False
  | command :: rest => '/' ∉ command.toList ∧ ∀ name ∈ rest, looksLikeFlag name = false

/-- Every line that begins with `path` selects the command there, with the cursor right behind the path. -/
def CommandTree.LeadsTo {σ : Type} (tree : CommandTree σ) (path : List String) : Prop :=
  ∃ node, tree.grammar? path = some node.grammar ∧ tree.states? path = some node.registry.stateNames ∧
    tree.node? path = some node ∧ ∀ rest, tree.select (path ++ rest) path.length =
      .ok { grammar := node.grammar, offset := path.length - 1, registry := node.registry }

/-! ### Words that name subcommands -/

namespace Grammar

variable {grammar : Grammar} {typed : List String} {index : Nat} {word : String}

theorem firstPositional?_of_bare (bare : looksLikeFlag word = false) (command : String) (rest : List String) :
    grammar.firstPositional? (command :: word :: rest) = some 1 := by
  -- Nothing is owed right behind the command word.
  have read := @Expectation.read_bare grammar (.start grammar) word rfl bare
  have fills : (Expectation.start grammar).fill.1.isPositional = true := by
    unfold Expectation.fill
    split <;> rfl
  have starts : Reading.command.isPositional = false := rfl
  simp [firstPositional?, readings, Expectation.readAll, read, List.findIdx?_cons, starts, fills]

theorem FirstPositional.bare (h : grammar.FirstPositional typed index word) : looksLikeFlag word = false := by
  have role := h.role
  cases index with
  | zero => exact absurd role role?_zero.2
  | succ index =>
    rw [role?_succ h.found, Option.some.injEq, Expectation.role_read_eq_positional_iff] at role
    exact role.2

end Grammar

/-! ### Descent along a path -/

namespace CommandNode

variable {σ : Type} {node reached : CommandNode σ} {rest : List String}

theorem descend_path (below : node.below? rest = some reached) (bare : ∀ name ∈ rest, looksLikeFlag name = false)
    (command : String) : node.descend (command :: rest) = (rest.length, reached) := by
  induction rest generalizing node command with
  | nil =>
    obtain rfl := Option.some.inj below
    exact descend_of_none rfl
  | cons name rest ih =>
    obtain ⟨child, known, below⟩ := Option.bind_eq_some_iff.mp below
    obtain ⟨first, later⟩ := List.forall_mem_cons.mp bare
    have next : node.next? (command :: name :: rest) = some (1, child) := by
      simp [next?, Grammar.firstPositional?_of_bare first, known]
    rw [descend_of_some next, List.drop_one, List.tail_cons, ih below later name, List.length_cons, Nat.add_comm]

theorem below?_descend (node : CommandNode σ) (typed : List String) :
    ∃ path, node.below? path = some (node.descend typed).2 ∧ ∀ name ∈ path, looksLikeFlag name = false := by
  fun_induction descend node typed with
  | case1 node typed index child next offset reached lower ih =>
    obtain ⟨name, first, known⟩ := named_of_next? next
    obtain ⟨path, below, bare⟩ := ih
    rw [lower] at below
    refine ⟨name :: path, ?_, List.forall_mem_cons.mpr ⟨first.bare, bare⟩⟩
    rw [below?, known]
    exact below
  | case2 node typed stuck => exact ⟨[], rfl, List.forall_mem_nil _⟩

end CommandNode

/-! ### The paths of a tree -/

namespace CommandTree

variable {σ : Type} {path : List String}

theorem mem_pathsBelow {nodes : List (String × CommandNode σ)} {other : List String} :
    other ∈ pathsBelow path nodes ↔ ∃ entry ∈ nodes, other ∈ pathsFrom (path ++ [entry.1]) entry.2 := by
  induction nodes with
  | nil => simp [pathsBelow]
  | cons entry rest ih => simp [pathsBelow, ih]

theorem pathsFrom_eq (path : List String) (node : CommandNode σ) :
    pathsFrom path node = path :: pathsBelow path node.subcommands := by
  cases node
  rfl

theorem mem_pathsFrom {node reached : CommandNode σ} {rest : List String} (below : node.below? rest = some reached) :
    path ++ rest ∈ pathsFrom path node := by
  induction rest generalizing path node with
  | nil => simp [pathsFrom_eq]
  | cons name rest ih =>
    obtain ⟨child, known, below⟩ := Option.bind_eq_some_iff.mp below
    rw [pathsFrom_eq, List.append_cons]
    exact List.mem_cons_of_mem _ (mem_pathsBelow.mpr ⟨(name, child), Table.mem_of_lookup known, ih below⟩)

theorem mem_paths {tree : CommandTree σ} {node : CommandNode σ} (found : tree.node? path = some node) :
    path ∈ tree.paths := by
  cases path with
  | nil => cases found
  | cons name rest =>
    obtain ⟨top, known, below⟩ := Option.bind_eq_some_iff.mp found
    exact mem_pathsBelow.mpr ⟨(name, top), Table.mem_of_lookup known, mem_pathsFrom below⟩

end CommandTree

section

variable {ω : Type} {workshop : Workshop ω}

open CommandTree

mutual

theorem pathsFrom_build : (spec : CommandSpec) → ∀ (path : List String) (inherited : Registry (Session ω))
    (node : CommandNode (Session ω)), spec.build workshop path inherited = .ok node →
      pathsFrom path node = spec.nodes.map (path ++ ·.1)
  | { tokens, states, subcommands }, path, inherited, node => fun built => by
    obtain ⟨own, -, makes⟩ := build_ok_iff.mp built
    rw [pathsFrom_eq, CommandSpec.nodes, pathsBelow_buildAll subcommands path own _ makes.subcommands]
    simp

theorem pathsBelow_buildAll : (commands : List (String × CommandSpec)) → ∀ (path : List String)
    (inherited : Registry (Session ω)) (tree : CommandTree (Session ω)),
      buildAll workshop path inherited commands = .ok tree →
        pathsBelow path tree = (CommandSpec.nodesBelow commands).map (path ++ ·.1)
  | [], _, _, _ => fun built => by
    obtain rfl := Except.ok.inj built
    rfl
  | (name, spec) :: rest, path, inherited, tree => fun built => by
    obtain ⟨node, made, others, later, rfl⟩ := buildAll_cons_ok_iff.mp built
    rw [pathsBelow, CommandSpec.nodesBelow, pathsFrom_build spec _ _ _ made, pathsBelow_buildAll rest _ _ _ later]
    simp

end

end

/-! ### Selection -/

namespace CommandTree

theorem baseName_of_no_slash {word : String} (plain : '/' ∉ word.toList) : Path.baseName word = word := by
  rcases (Path.slash_baseName word).2 with same | ⟨directory, split⟩
  · exact same.symm
  · refine absurd ?_ plain
    rw [split]
    simp

theorem leadsTo_of_node? {σ : Type} {tree : CommandTree σ} {path : List String} {node : CommandNode σ}
    (found : tree.node? path = some node) (typable : Typable path) : tree.LeadsTo path := by
  refine ⟨node, by rw [grammar?, found]; rfl, by rw [states?, found]; rfl, found, fun more => ?_⟩
  cases path with
  | nil => cases found
  | cons command rest =>
    obtain ⟨plain, bare⟩ := typable
    obtain ⟨top, known, below⟩ := Option.bind_eq_some_iff.mp found
    rw [← baseName_of_no_slash plain] at known
    rw [List.cons_append, select_of_lookup known, ← List.cons_append, List.take_left,
      CommandNode.descend_path below bare]
    rfl

theorem exists_of_select {σ : Type} {tree : CommandTree σ} {words : List String} {cursor : Nat}
    {selection : Selection σ} (selected : tree.select words cursor = .ok selection) :
    ∃ path node, Typable path ∧ tree.node? path = some node ∧ selection.grammar = node.grammar ∧
      selection.registry = node.registry := by
  obtain ⟨top, known, rfl⟩ := select_ok_iff_descend.mp selected
  obtain ⟨path, below, bare⟩ := top.below?_descend (words.take cursor)
  have plain := (Path.slash_baseName (words.headD "")).1
  refine ⟨Path.baseName (words.headD "") :: path, _, ⟨plain, bare⟩, ?_, rfl, rfl⟩
  rw [node?, known]
  exact below

variable {ω : Type} {workshop : Workshop ω} {registry : Registry (Session ω)} {commands : Specification}
  {tree : CommandTree (Session ω)} {path : List String} {node : CommandNode (Session ω)}

section

variable (loads : Loads workshop registry commands (.ok tree))
include loads

theorem Loads.paths_eq : tree.paths = commands.nodes.map (·.1) :=
  pathsBelow_buildAll commands [] registry tree loads.built

theorem exists_command_of_node? (found : tree.node? path = some node) :
    ∃ spec, commands.command? path = some spec := by
  have listed := mem_paths found
  rw [loads.paths_eq] at listed
  obtain ⟨⟨_, spec⟩, inside, rfl⟩ := List.mem_map.mp listed
  exact ⟨spec, (Specification.mem_nodes_iff loads.ordered).mp inside⟩

theorem node?_eq_none (unknown : commands.command? path = none) : tree.node? path = none := by
  refine Option.eq_none_iff_forall_ne_some.mpr fun node found => ?_
  obtain ⟨spec, known⟩ := exists_command_of_node? loads found
  rw [unknown] at known
  cases known

theorem exists_reached_of_node? (found : tree.node? path = some node) :
    ∃ spec, Reached workshop registry commands path spec node := by
  obtain ⟨spec, known⟩ := exists_command_of_node? loads found
  obtain ⟨reached, again, h⟩ := exists_reached loads known
  obtain rfl := Option.some.inj (found.symm.trans again)
  exact ⟨spec, h⟩

theorem exists_node_of_mem_paths (member : path ∈ tree.paths) : ∃ node, tree.node? path = some node := by
  rw [loads.paths_eq] at member
  obtain ⟨⟨_, spec⟩, listed, rfl⟩ := List.mem_map.mp member
  have found := (Specification.mem_nodes_iff loads.ordered).mp listed
  obtain ⟨node, reached, -⟩ := exists_reached loads found
  exact ⟨node, reached⟩

end

/-- A line that begins with a path which can be typed selects the command there, and only such commands are
selected by any line. -/
theorem select_path (loads : Loads workshop registry commands (.ok tree)) :
    (∀ path ∈ tree.paths, Typable path → tree.LeadsTo path) ∧
    ∀ words cursor selection, tree.select words cursor = .ok selection →
      ∃ path ∈ tree.paths, Typable path ∧ ∃ node, tree.node? path = some node ∧
        selection.grammar = node.grammar ∧ selection.registry = node.registry := by
  constructor
  · intro path member typable
    obtain ⟨node, found⟩ := exists_node_of_mem_paths loads member
    exact leadsTo_of_node? found typable
  · intro words cursor selection selected
    obtain ⟨path, node, typable, found, same⟩ := exists_of_select selected
    exact ⟨path, mem_paths found, typable, node, found, same⟩

set_option maxRecDepth 2048 in
/-- The flag behind the path is not before the cursor. -/
theorem select_path_below :
    let text := "[commands.a.subcommands.b]"
    let workshop : Workshop Unit := { run := fun _ _ _ _ => return none }
    ∃ tree, ofText workshop {} text = .ok tree ∧ ["a", "b"] ∈ tree.paths ∧ Typable ["a", "b"] ∧
      ∃ selection, tree.select ["a", "b", "-c"] 2 = .ok selection ∧ selection.offset = 1 ∧
        tree.grammar? ["a", "b"] = some selection.grammar := by
  intro text workshop
  have read : Specification.read? text = some [("a", { subcommands := [("b", {})] })] := by
    simp only [text]
    cbv
  obtain ⟨tree, loads⟩ : ∃ tree, ofText workshop {} text = .ok tree := by
    rw [ofText_of_read read]
    exact ⟨_, rfl⟩
  have member : ["a", "b"] ∈ tree.paths := by
    rw [(Loads.of_ofText read loads).paths_eq]
    decide
  have typable : Typable ["a", "b"] := ⟨by decide, by decide⟩
  obtain ⟨node, grammar, -, -, selects⟩ := (select_path (Loads.of_ofText read loads)).1 ["a", "b"] member typable
  exact ⟨tree, loads, member, typable, _, selects ["-c"], rfl, grammar⟩

set_option maxRecDepth 2048 in
/-- A path with a directory in its first name and one with a dash before a later name lead elsewhere. -/
theorem not_leadsTo_untypable :
    let text := "[commands.'a/b']\n[commands.tool.subcommands.-x]"
    let workshop : Workshop Unit := { run := fun _ _ _ _ => return none }
    ∃ tree, ofText workshop {} text = .ok tree ∧ tree.paths = [["a/b"], ["tool"], ["tool", "-x"]] ∧
      ¬ tree.LeadsTo ["a/b"] ∧ ¬ tree.LeadsTo ["tool", "-x"] := by
  intro text workshop
  have read : Specification.read? text = some [("a/b", {}), ("tool", { subcommands := [("-x", {})] })] := by
    simp only [text]
    cbv
  rw [ofText_of_read read]
  refine ⟨_, rfl, rfl, ?_, ?_⟩
  · rintro ⟨node, -, -, -, selects⟩
    cases selects []
  · rintro ⟨node, -, -, -, selects⟩
    have selected := (selects []).symm.trans (select_of_lookup rfl ["-x"] 2)
    rw [CommandNode.descend_of_none rfl] at selected
    exact Nat.one_ne_zero (congrArg Selection.offset (Except.ok.inj selected))

end CommandTree

end ShellCompletion
