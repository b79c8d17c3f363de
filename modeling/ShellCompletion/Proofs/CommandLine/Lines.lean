import ShellCompletion.CommandLine.Run
import ShellCompletion.Proofs.Grammar.WellFormed
import ShellCompletion.Proofs.Specification.Supply
import ShellCompletion.Proofs.Text.Marks

/-!
# Printed suggestions

Suggestions are printed with a newline behind each. What is read back are the pieces between the newlines
(`linesOf_lines`), so suggestions survive exactly if none of them holds a newline. Spellings and what programs print
hold none, but nothing keeps a newline out of the words and names of a specification or out of the name of a file
(`run_complete_lines`).
-/

namespace ShellCompletion

theorem newline_not_mem_of_mem_outputLines {output line : String} (member : line ∈ outputLines output) :
    '\n' ∉ line.toList := by
  obtain ⟨_, kept, rfl⟩ := List.mem_map.mp member
  obtain ⟨part, cut, rfl⟩ := List.mem_map.mp (List.mem_filter.mp kept).1
  rw [String.toList_ofList]
  exact fun inside => Text.not_mem_of_mem_splitOn cut ((Text.isPrefix_trimEnd part).subset inside)

theorem newline_not_mem_of_mem_spellings {tokens : List String} {grammar : Grammar}
    (compiled : Grammar.compile tokens = .ok grammar) {item : String} (member : item ∈ grammar.spellings) :
    '\n' ∉ item.toList := by
  obtain ⟨flag, known, spelled⟩ := List.mem_flatMap.mp (Names.mem_ofList.mp member)
  exact not_mem_spelling '\n' (((compile_wellFormed compiled).flags flag known).spelled item spelled) rfl

/-! ### Reading lines back -/

namespace CommandLine

/-- What is between the newlines of a text. -/
def pieces (text : String) : List String := (text.toList.splitOn '\n').map String.ofList

/-- The lines of a text, without the newlines that end them. What follows the last newline is no line. -/
def linesOf (text : String) : List String := (pieces text).dropLast

theorem pieces_ne_nil (text : String) : pieces text ≠ [] := by
  simp [pieces, List.splitOn_ne_nil]

theorem pieces_line (text rest : String) : pieces (text ++ "\n" ++ rest) = pieces text ++ pieces rest := by
  have joined : (text ++ "\n" ++ rest).toList = text.toList ++ '\n' :: rest.toList := by simp
  rw [pieces, joined, List.splitOn_append_cons_self, List.map_append]
  rfl

theorem pieces_eq_singleton {text : String} (single : '\n' ∉ text.toList) : pieces text = [text] := by
  rw [pieces, List.splitOn_eq_singleton single, List.map_singleton, String.ofList_toList]

theorem newline_not_mem_of_mem_linesOf {text line : String} (member : line ∈ linesOf text) : '\n' ∉ line.toList := by
  obtain ⟨part, cut, rfl⟩ := List.mem_map.mp (List.dropLast_subset _ member)
  rw [String.toList_ofList]
  exact Text.not_mem_of_mem_splitOn cut

/-- Each text comes back in the pieces that its newlines cut it into. -/
theorem linesOf_lines (texts : List String) : linesOf (lines texts) = texts.flatMap pieces := by
  induction texts with
  | nil => rfl
  | cons text rest ih =>
    have printed : lines (text :: rest) = text ++ "\n" ++ lines rest := by simp [lines]
    rw [printed, linesOf, pieces_line, List.dropLast_append_of_ne_nil (pieces_ne_nil _), List.flatMap_cons, ← ih]
    rfl

theorem linesOf_lines_eq_iff {texts : List String} :
    linesOf (lines texts) = texts ↔ ∀ text ∈ texts, '\n' ∉ text.toList := by
  constructor
  · intro same text member
    rw [← same] at member
    exact newline_not_mem_of_mem_linesOf member
  · intro single
    rw [linesOf_lines]
    induction texts with
    | nil => rfl
    | cons text rest ih =>
      obtain ⟨first, later⟩ := List.forall_mem_cons.mp single
      rw [List.flatMap_cons, pieces_eq_singleton first, ih later, List.singleton_append]

end CommandLine

/-! ### File names -/

namespace Files

/-- The item is the path of a file, typed up to the last slash, or the name of a program. -/
inductive Named (outlook : Outlook) (typed item : String) : Prop
  | file {entries entry}
      (listed : outlook.list (directoryPath outlook.environment.home? (directoryPart typed)) = some entries)
      (inside : entry ∈ entries)
      (same : item = directoryPart typed ++ entry.name ++ if entry.isDirectory then "/" else "")
  | program {directory entries entry} (searched : directory ∈ outlook.environment.searchDirectories)
      (listed : outlook.list ↑directory = some entries) (inside : entry ∈ entries) (runs : entry.isProgram = true)
      (same : item = entry.name)

variable {outlook : Outlook} {typed item : String}

theorem named_of_mem_candidates {onlyDirectories : Bool}
    (member : item ∈ candidates outlook.list outlook.environment.home? onlyDirectories typed) :
    Named outlook typed item := by
  unfold candidates at member
  dsimp only at member
  split at member
  next => cases member
  next entries listed =>
    obtain ⟨entry, kept, rfl⟩ := List.mem_map.mp member
    exact .file listed (List.mem_filter.mp kept).1 rfl

theorem named_of_mem_programs
    (member : item ∈ programs outlook.list outlook.environment.searchDirectories typed) :
    Named outlook typed item := by
  obtain ⟨directory, searched, member⟩ := List.mem_flatMap.mp (Names.mem_ofList.mp member)
  obtain ⟨entry, kept, rfl⟩ := List.mem_map.mp member
  obtain ⟨inside, fits⟩ := List.mem_filter.mp kept
  cases listed : outlook.list ↑directory with
  | none => rw [listed] at inside; cases inside
  | some entries =>
    rw [listed] at inside
    exact .program searched listed inside (Bool.and_eq_true_iff.mp fits).1 rfl

theorem registry_drawsOn (outlook : Outlook) : registry.DrawsOn (Named outlook) outlook := by
  intro resolver registered
  obtain ⟨entry, inside, rfl⟩ := Registry.mem_of_registered registered
  simp only [registry, List.nil_append, List.mem_cons, List.not_mem_nil, or_false] at inside
  rcases inside with rfl | rfl | rfl
  all_goals intro request
  · exact .inl ⟨_, _, rfl, fun _ => named_of_mem_candidates⟩
  · by_cases path : '/' ∈ request.typed.toList
    · exact .inl ⟨_, _, if_pos path, fun _ => named_of_mem_candidates⟩
    · exact .inl ⟨_, _, if_neg path, fun _ => named_of_mem_programs⟩
  · exact .inl ⟨_, _, rfl, fun _ => named_of_mem_candidates⟩

end Files

/-! ### Completing a line -/

theorem Registry.registered_within {σ τ : Type} {registry : Registry σ} {get : τ → σ} {set : σ → τ → τ}
    {resolver : Resolver τ} (registered : (registry.within get set).Registered resolver) :
    ∃ inner, registry.Registered inner ∧ inner.within get set = resolver := by
  obtain ⟨name, found | found⟩ := registered
  · obtain ⟨inner, known, same⟩ := Option.map_eq_some_iff.mp ((Table.lookup_map ..).symm.trans found)
    exact ⟨inner, ⟨name, .inl known⟩, same⟩
  · obtain ⟨inner, known, same⟩ := Option.map_eq_some_iff.mp ((Table.lookup_map ..).symm.trans found)
    exact ⟨inner, ⟨name, .inr known⟩, same⟩

/-- Resolvers of a part of the session draw on what they draw on there. -/
theorem Registry.DrawsOn.within {σ τ : Type} {supply : String → String → Prop} {registry : Registry σ} {get : τ → σ}
    {set : σ → τ → τ} {session : τ} (draws : registry.DrawsOn supply (get session))
    (kept : set (get session) session = session) : (registry.within get set).DrawsOn supply session := by
  intro resolver registered request
  obtain ⟨inner, known, rfl⟩ := Registry.registered_within registered
  rcases draws inner known request with answer | ⟨name, answer⟩
  · exact .inl answer
  · refine .inr ⟨name, ?_⟩
    rw [Resolver.within, answer]
    exact congrArg (Answer.state name, ·) kept

theorem CommandLine.functions_drawsOn (session : Session World) :
    functions.DrawsOn (Files.Named session.outside.outlook) session := by
  unfold functions
  refine Registry.DrawsOn.within ?_ rfl
  exact Files.registry_drawsOn session.outside.outlook

theorem CommandTree.exists_read_of_ofFile {ω : Type} {workshop : Workshop ω} {registry : Registry (Session ω)}
    {world : World} {path : OsText} {tree : CommandTree (Session ω)}
    (loads : ofFile workshop registry world path = .ok tree) :
    ∃ text commands, world.readFile path = .ok text ∧ Specification.read? text = some commands ∧
      ofText workshop registry text = .ok tree := by
  unfold ofFile at loads
  split at loads
  next text found =>
    cases read : Specification.read? text with
    | none => simp [ofText, read] at loads
    | some commands => exact ⟨text, commands, found, read, loads⟩
  next => cases loads
  next => cases loads

namespace CommandLine.Setting

variable {setting : Setting} {request : LineRequest} {items : List String}

/-- If there are any suggestions, the line selects a command of a specification that is loaded. -/
theorem exists_tree_of_complete (completes : setting.complete request = .ok items) :
    ∃ tree, setting.tree request.spec = .ok tree ∧ (items = [] ∨ ∃ selection,
      tree.select request.words request.position = .ok selection ∧ ∃ offset ≤ request.position,
        items = (selection.registry.complete setting.configuration.hops selection.grammar
          (request.words.drop offset) (request.position - offset) { outside := setting.world }).1) := by
  obtain ⟨engine, made, asks⟩ := bind_ok.mp completes
  obtain ⟨tree, loads, same⟩ := bind_ok.mp made
  obtain rfl := Except.ok.inj same
  obtain ⟨action, asked, same⟩ := bind_ok.mp asks
  obtain rfl := Except.ok.inj same
  refine ⟨tree, loads, ?_⟩
  by_cases typed : request.words = []
  · rw [typed] at asked
    obtain rfl := Except.ok.inj asked
    exact .inl rfl
  · rw [Engine.complete_of_typed typed] at asked
    obtain ⟨selection, selected, rfl⟩ := map_ok.mp asked
    exact .inr ⟨selection, selected, _, (Nat.min_le_right _ _).trans (Nat.min_le_left _ _), rfl⟩

theorem newline_of_complete (completes : setting.complete request = .ok items) :
    ∃ text commands, setting.world.readFile (setting.configuration.specPath setting.world request.spec) = .ok text ∧
      Specification.read? text = some commands ∧ ∀ item ∈ items, '\n' ∈ item.toList →
        commands.Writes item ∨ Files.Named setting.world.outlook (request.words[request.position]?.getD "") item := by
  obtain ⟨tree, loads, answers⟩ := exists_tree_of_complete completes
  obtain ⟨text, commands, found, read, loads⟩ := CommandTree.exists_read_of_ofFile loads
  refine ⟨text, commands, found, read, fun item member newline => ?_⟩
  obtain ⟨selection, selected, offset, within, rfl⟩ := answers.resolve_left (List.ne_nil_of_mem member)
  obtain ⟨path, node, -, known, grammar, registry⟩ := CommandTree.exists_of_select selected
  obtain ⟨spec, reached⟩ := CommandTree.exists_reached_of_node? (.of_ofText read loads) known
  have draws :
      node.registry.DrawsOn (commands.Supply (Files.Named setting.world.outlook)) { outside := setting.world } :=
    reached.drawsOn (fun _ => rfl) (functions_drawsOn _)
  rw [← registry] at draws
  have supplied := Registry.supplied_complete draws _ _ _ _ item member
  rw [List.getElem?_drop, Nat.add_sub_cancel' within] at supplied
  rcases supplied with spelling | ⟨writes⟩ | ⟨line⟩ | ⟨named⟩
  · obtain ⟨-, _, -, makes⟩ := reached
    rw [grammar] at spelling
    exact absurd newline (newline_not_mem_of_mem_spellings makes.grammar spelling)
  · exact .inl writes
  · exact absurd newline (newline_not_mem_of_mem_outputLines line)
  · exact .inr named

/-- What is printed, read line by line, is what is suggested unless some suggestion holds a newline, and such a
suggestion is cut up. It is a word or a name of the specification, or the name of a file. -/
theorem run_complete_lines (completes : setting.complete request = .ok items) :
    ∃ output, setting.run (.complete request) = { output } ∧ linesOf output = items.flatMap pieces ∧
      (linesOf output = items ↔ ∀ item ∈ items, '\n' ∉ item.toList) ∧
      ∃ text commands, setting.world.readFile (setting.configuration.specPath setting.world request.spec) = .ok text ∧
        Specification.read? text = some commands ∧ ∀ item ∈ items, '\n' ∈ item.toList →
          commands.Writes item ∨ Files.Named setting.world.outlook (request.words[request.position]?.getD "") item := by
  refine ⟨lines items, ?_, linesOf_lines items, linesOf_lines_eq_iff, newline_of_complete completes⟩
  rw [run, completes]
  rfl

private def brokenText : String := "[commands.t]\ntokens=[':w']\n[commands.t.states.w]\nwords=[\"a\\nb\"]"

private def broken : Setting where
  runner := fun _ _ _ _ => return none
  world := { tree := { nodes := [(["t.toml"], .ofText brokenText)] } }
  configuration := { directory := "" }
  path := ""

private def brokenRequest : LineRequest := { spec := "t.toml", cursor := none, words := ["t", ""] }

private theorem complete_broken : broken.complete brokenRequest = .ok ["a\nb"] := by
  have found : broken.world.readFile (broken.configuration.specPath broken.world "t.toml") = .ok brokenText := by
    cbv
  have read : Specification.read? brokenText =
      some [("t", { tokens := [":w"], states := [("w", { words := some ["a\nb"] })] })] := by
    cbv
  let node : CommandNode (Session World) := {
    grammar := { slots := [⟨⟨[.state "w"], none⟩, false⟩] }
    registry := functions.addState "w" (.words ["a\nb"])
    subcommands := [] }
  have loads : broken.tree "t.toml" = .ok [("t", node)] := by
    rw [tree, CommandTree.ofFile, found]
    exact (CommandTree.ofText_of_read read).trans rfl
  have known : List.lookup (Path.baseName "t") [("t", node)] = some node := rfl
  have completes : broken.complete brokenRequest =
      ((Engine.mk (CommandTree.select [("t", node)]) defaultHops).complete ["t", ""] 1).map broken.answer := by
    rw [complete, engine, brokenRequest, loads]
    rfl
  rw [completes, CommandTree.complete_of_leaf known rfl]
  rfl

/-- The word that is printed on two lines is suggested as one. -/
theorem run_complete_lines_broken :
    broken.complete brokenRequest = .ok ["a\nb"] ∧ ∃ output text commands,
      broken.run (.complete brokenRequest) = { output } ∧ linesOf output = ["a", "b"] ∧
      Specification.read? text = some commands ∧
      (commands.Writes "a\nb" ∨ Files.Named broken.world.outlook "" "a\nb") := by
  obtain ⟨output, printed, back, -, text, commands, -, read, origin⟩ := run_complete_lines complete_broken
  exact ⟨complete_broken, output, text, commands, printed, back.trans (by decide), read,
    origin "a\nb" (List.mem_singleton_self _) (by decide)⟩

theorem not_linesOf_run_eq_complete :
    ¬ ∀ (setting : Setting) (request : LineRequest) (items : List String) (output : String),
      setting.complete request = .ok items → setting.run (.complete request) = { output } →
        linesOf output = items := by
  intro lossless
  have printed : broken.run (.complete brokenRequest) = { output := lines ["a\nb"] } := by
    rw [run, complete_broken]
    rfl
  have same := lossless broken brokenRequest ["a\nb"] _ complete_broken printed
  exact linesOf_lines_eq_iff.mp same "a\nb" (List.mem_singleton_self _) (by decide)

end CommandLine.Setting

end ShellCompletion
