import ShellCompletion.CommandLine.Run
import ShellCompletion.Proofs.CommandLine.Lines

/-!
# The commands of a report

The paths of a command tree are listed in lexicographic order, so each stands there once and behind those that lead to
it. They are the paths under which commands are looked up, in the tree and in the specification it was built from
(`Loads.enumerates`), so a report on a specification has one line for each of its commands (`report_exact`).
-/

namespace ShellCompletion

/-- The list of paths is strictly ascending and holds the commands of the specification. -/
structure CommandTree.Enumerates {σ : Type} (tree : CommandTree σ) (commands : Specification) : Prop where
  ascending : tree.paths.Pairwise (· < ·)
  /-- A path stands before those that go on from it by one name. -/
  parents : ∀ path name, path ≠ [] → path ++ [name] ∈ tree.paths → [path, path ++ [name]].Sublist tree.paths
  grammars : ∀ path, path ∈ tree.paths ↔ (tree.grammar? path).isSome
  states : ∀ path, path ∈ tree.paths ↔ (tree.states? path).isSome
  commands : ∀ path, path ∈ tree.paths ↔ (commands.command? path).isSome

theorem sublist_of_lt {paths : List (List String)} (ascending : paths.Pairwise (· < ·)) {lower upper : List String}
    (first : lower ∈ paths) (second : upper ∈ paths) (less : lower < upper) : [lower, upper].Sublist paths := by
  obtain ⟨before, after, rfl⟩ := List.append_of_mem second
  obtain ⟨-, later, -⟩ := List.pairwise_append.mp ascending
  have earlier : lower ∈ before := by
    rcases List.mem_append.mp first with inside | behind
    · exact inside
    · rcases List.mem_cons.mp behind with rfl | behind
      · exact absurd less (List.lt_irrefl _)
      · exact absurd less (List.lt_asymm ((List.pairwise_cons.mp later).1 lower behind))
  exact (List.singleton_sublist.mpr earlier).append (List.singleton_sublist.mpr (List.mem_cons_self ..))

theorem Specification.exists_command?_of_concat {commands : Specification} {path : List String} {name : String}
    (filled : path ≠ []) (found : (commands.command? (path ++ [name])).isSome) : (commands.command? path).isSome := by
  cases path with
  | nil => exact absurd rfl filled
  | cons first rest =>
    obtain ⟨spec, found⟩ := Option.isSome_iff_exists.mp found
    rw [List.cons_append] at found
    obtain ⟨top, known, below⟩ := Option.bind_eq_some_iff.mp found
    rw [CommandSpec.below?_append] at below
    obtain ⟨middle, reached, -⟩ := Option.bind_eq_some_iff.mp below
    rw [command?, known, Option.bind_some, reached]
    rfl

/-- A file that holds a text is read as this text. -/
theorem readFile_ofText {world : World} {path : OsText} {text : String} (there : world.find path = .ok (.ofText text)) :
    world.readFile path = .ok text := by
  have read : String.fromUTF8? text.toUTF8 = some text := dif_pos text.isValidUTF8
  rw [World.readFile, there]
  simp only [FileNode.ofText, bind, Except.bind, read]
  rfl

namespace CommandTree

section

variable {ω : Type} {workshop : Workshop ω} {registry : Registry (Session ω)} {tree : CommandTree (Session ω)}
  {commands : Specification}

theorem mem_paths_iff_node? (loads : Loads workshop registry commands (.ok tree)) (path : List String) :
    path ∈ tree.paths ↔ (tree.node? path).isSome := by
  rw [Option.isSome_iff_exists]
  exact ⟨exists_node_of_mem_paths loads, fun ⟨node, found⟩ => mem_paths found⟩

theorem mem_paths_iff_command? (loads : Loads workshop registry commands (.ok tree)) (path : List String) :
    path ∈ tree.paths ↔ (commands.command? path).isSome := by
  rw [loads.paths_eq, Option.isSome_iff_exists]
  constructor
  · intro member
    obtain ⟨⟨_, spec⟩, listed, rfl⟩ := List.mem_map.mp member
    exact ⟨spec, (Specification.mem_nodes_iff loads.ordered).mp listed⟩
  · rintro ⟨spec, found⟩
    exact List.mem_map_of_mem (f := (·.1)) ((Specification.mem_nodes_iff loads.ordered).mpr found)

theorem Loads.enumerates (loads : Loads workshop registry commands (.ok tree)) : tree.Enumerates commands := by
  have ascending : tree.paths.Pairwise (· < ·) := by
    rw [loads.paths_eq]
    exact List.pairwise_map.mpr (Specification.nodes_ascend loads.ordered)
  have listed := mem_paths_iff_command? loads
  refine ⟨ascending, fun path name filled member => ?_, fun path => ?_, fun path => ?_, listed⟩
  · have upper := Specification.exists_command?_of_concat filled ((listed _).mp member)
    refine sublist_of_lt ascending ((listed path).mpr upper) member ?_
    have longer : path ++ [] < path ++ [name] := List.append_left_lt (List.nil_lt_cons name [])
    rwa [List.append_nil] at longer
  · rw [mem_paths_iff_node? loads, grammar?, Option.isSome_map]
  · rw [mem_paths_iff_node? loads, states?, Option.isSome_map]

end

end CommandTree

namespace CommandLine

/-- The line of a report for the command at `path`. -/
def Describes {σ : Type} (tree : CommandTree σ) (path : List String) (line : String) : Prop :=
  ∃ states, tree.states? path = some states ∧
    line = "   " ++ pathText path ++ " (" ++ toString states.length ++ " states)"

theorem describes_unique {σ : Type} (tree : CommandTree σ) : Relator.RightUnique (Describes tree) := by
  rintro path line other ⟨states, known, rfl⟩ ⟨same, again, rfl⟩
  obtain rfl := Option.some.inj (known.symm.trans again)
  rfl

theorem report_eq {σ : Type} {tree : CommandTree σ} (path : OsText)
    (listed : ∀ path ∈ tree.paths, (tree.states? path).isSome) :
    ∃ entries, report path tree = lines (("✅ " ++ path.shown ++ " is valid") :: entries) ∧
      List.Forall₂ (Describes tree) tree.paths entries := by
  refine ⟨_, rfl, ?_⟩
  rw [List.forall₂_map_right_iff, List.forall₂_same]
  intro path member
  obtain ⟨states, known⟩ := Option.isSome_iff_exists.mp (listed path member)
  exact ⟨states, known, by rw [known]; rfl⟩

/-- The paths of every specification that is loaded, with whatever resolvers it is given, ascend and are those of its
commands, and a report on a specification describes them one by one. -/
theorem report_exact :
    (∀ {ω : Type} (workshop : Workshop ω) (registry : Registry (Session ω)) (commands : Specification)
      (tree : CommandTree (Session ω)) (path : OsText), CommandTree.Loads workshop registry commands (.ok tree) →
        tree.Enumerates commands ∧ ∃ entries,
          report path tree = lines (("✅ " ++ path.shown ++ " is valid") :: entries) ∧
          List.Forall₂ (Describes tree) tree.paths entries) ∧
    ∀ (setting : Setting) (spec : String) (tree : CommandTree (Session World)), setting.tree spec = .ok tree →
      let path := setting.configuration.specPath setting.world spec
      ∃ text commands entries, setting.world.readFile path = .ok text ∧ Specification.read? text = some commands ∧
        tree.Enumerates commands ∧
        setting.check spec = .ok (lines (("✅ " ++ path.shown ++ " is valid") :: entries)) ∧
        List.Forall₂ (Describes tree) tree.paths entries := by
  have reports {ω : Type} {workshop : Workshop ω} {registry : Registry (Session ω)} {commands : Specification}
      {tree : CommandTree (Session ω)} (path : OsText)
      (loads : CommandTree.Loads workshop registry commands (.ok tree)) :=
    report_eq path fun path => (loads.enumerates.states path).mp
  constructor
  · intro ω workshop registry commands tree path loads
    exact ⟨loads.enumerates, reports path loads⟩
  · intro setting spec tree loads path
    obtain ⟨text, commands, found, read, made⟩ := CommandTree.exists_read_of_ofFile loads
    have built := CommandTree.Loads.of_ofText read made
    obtain ⟨entries, report, describes⟩ := reports path built
    refine ⟨text, commands, entries, found, read, built.enumerates, ?_, describes⟩
    rw [Setting.check, loads]
    exact congrArg Except.ok report

/-- The path of the command with an empty name below `a` and that of `a b` are written almost alike. -/
theorem report_exact_blank :
    let text := "[commands.a.subcommands.'']\n[commands.'a b']"
    let setting : Setting :=
      { runner := fun _ _ _ _ => return none
        world := { tree := { nodes := [(["t.toml"], .ofText text)] } }
        configuration := { directory := "" }
        path := "" }
    ∃ tree commands, setting.tree "t.toml" = .ok tree ∧ Specification.read? text = some commands ∧
      tree.Enumerates commands ∧ tree.paths = [["a"], ["a", ""], ["a b"]] ∧
      setting.check "t.toml" =
        .ok "✅ t.toml is valid\n   a (1 states)\n   a  (0 states)\n   a b (0 states)\n" := by
  intro text setting
  have there : setting.world.find "t.toml" = .ok (.ofText text) := by
    simp only [setting]
    generalize text = content
    cbv
  have path : setting.configuration.specPath setting.world "t.toml" = "t.toml" := by
    simp [Configuration.specPath, World.exists?, there, Except.toOption]
  have found : setting.world.readFile (setting.configuration.specPath setting.world "t.toml") = .ok text := by
    rw [path, readFile_ofText there]
  have read : Specification.read? text = some [("a", { subcommands := [("", {})] }), ("a b", {})] := by
    simp only [text]
    cbv
  let tree : CommandTree (Session World) :=
    [("a", ⟨{}, withSubcommands functions [""], [("", ⟨{}, functions, []⟩)]⟩), ("a b", ⟨{}, functions, []⟩)]
  have loads : setting.tree "t.toml" = .ok tree := by
    rw [Setting.tree, CommandTree.ofFile, found]
    exact (CommandTree.ofText_of_read read).trans rfl
  obtain ⟨written, commands, entries, shown, again, enumerates, report, describes⟩ :=
    report_exact.2 setting "t.toml" tree loads
  rw [← Except.ok.inj (found.symm.trans shown)] at again
  have lines : List.Forall₂ (Describes tree) tree.paths ["   a (1 states)", "   a  (0 states)", "   a b (0 states)"] :=
    .cons ⟨_, rfl, by decide⟩ (.cons ⟨_, rfl, by decide⟩ (.cons ⟨_, rfl, by decide⟩ .nil))
  obtain rfl := List.right_unique_forall₂' (describes_unique tree) describes lines
  rw [path] at report
  exact ⟨tree, commands, loads, again, enumerates, rfl, report.trans (by decide)⟩

end CommandLine

end ShellCompletion
