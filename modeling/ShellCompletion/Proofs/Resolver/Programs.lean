import ShellCompletion.Dispatch
import ShellCompletion.Proofs.Text.Marks
import ShellCompletion.Resolver.Files

/-!
# Which programs are offered

A program is a regular file that someone may execute, and a link to such a file. What is offered for a name are the
programs of all directories of the search path, whatever stands under the same name in other directories, and whether
or not those can be listed (`offered_programs`). But a single directory whose name is no UTF-8 makes the whole search
path count as not set (`not_offered_of_unreadable_path`). A world lists its directories like any other system
(`visible_system`).
-/

namespace ShellCompletion

/-! ### What a system says of files -/

inductive FileKind where
  | regular
  | directory
  | other
deriving DecidableEq, Repr

/-- What the system says of a file, after links are followed. -/
structure Metadata where
  kind : FileKind
  /-- The permission bits. -/
  mode : Nat
deriving DecidableEq, Repr

/-- Of the permission bits, those with the octal value 111 allow to execute. -/
def Metadata.isProgram (metadata : Metadata) : Bool := metadata.kind == .regular && metadata.mode &&& 0o111 != 0

/-- An entry of a directory, its name in octets. A link that leads nowhere has no metadata. -/
structure FoundEntry where
  name : ByteArray
  metadata? : Option Metadata

/-- The entry as it is listed, unless its name is no UTF-8. -/
def FoundEntry.listed? (entry : FoundEntry) : Option Listed :=
  (String.fromUTF8? entry.name).map fun name =>
    { name
      isDirectory := entry.metadata?.any (·.kind == .directory)
      isProgram := entry.metadata?.any Metadata.isProgram }

theorem FoundEntry.any_isProgram_iff {entry : FoundEntry} :
    entry.metadata?.any Metadata.isProgram = true ↔
      ∃ metadata, entry.metadata? = some metadata ∧ metadata.kind = .regular ∧ metadata.mode &&& 0o111 ≠ 0 := by
  cases entry.metadata? <;> simp [Metadata.isProgram]

/-- The entries of the directories that can be listed. -/
abbrev System := OsText → Option (List FoundEntry)

namespace System

/-- What resolvers see of a system. -/
def visible (system : System) (path : OsText) : Option (List Listed) :=
  (system path).map (·.filterMap FoundEntry.listed?)

/-- The directory can be listed, and in it the name denotes a regular file with an execute bit. -/
def HasProgram (system : System) (directory : OsText) (name : String) : Prop :=
  ∃ entries, system directory = some entries ∧ ∃ entry ∈ entries, String.fromUTF8? entry.name = some name ∧
    ∃ metadata, entry.metadata? = some metadata ∧ metadata.kind = .regular ∧ metadata.mode &&& 0o111 ≠ 0

theorem hasProgram_iff {system : System} {directory : OsText} {name : String} :
    system.HasProgram directory name ↔
      ∃ entry ∈ (system.visible directory).getD [], entry.isProgram = true ∧ entry.name = name := by
  unfold HasProgram visible
  cases system directory with
  | none => simp
  | some entries =>
    simp only [Option.some.injEq, exists_eq_left', Option.map_some, Option.getD_some, List.mem_filterMap,
      FoundEntry.listed?, Option.map_eq_some_iff, ← FoundEntry.any_isProgram_iff]
    constructor
    · rintro ⟨entry, member, named, program⟩
      exact ⟨_, ⟨entry, member, name, named, rfl⟩, program, rfl⟩
    · rintro ⟨_, ⟨entry, member, name, named, rfl⟩, program, rfl⟩
      exact ⟨entry, member, named, program⟩

theorem HasProgram.isSome {system : System} {directory : OsText} {name : String}
    (has : system.HasProgram directory name) : (system directory).isSome := by
  obtain ⟨entries, listed, -⟩ := has
  exact Option.isSome_iff_exists.mpr ⟨entries, listed⟩

end System

/-! ### A world as a system -/

/-- Files that may be executed have the mode 755, and others have 644. -/
def FileNode.metadata : FileNode → Metadata
  | .file _ executable => ⟨.regular, if executable then 0o755 else 0o644⟩
  | .program _ => ⟨.regular, 0o755⟩
  | .directory => ⟨.directory, 0o755⟩
  | .link _ => ⟨.other, 0o777⟩
  | .device _ => ⟨.other, 0o666⟩

theorem FileNode.isDirectory_metadata (node : FileNode) : (node.metadata.kind == .directory) = node.isDirectory := by
  cases node <;> rfl

theorem FileNode.isProgram_metadata (node : FileNode) : node.metadata.isProgram = node.isExecutable := by
  cases node with
  | file content executable => cases executable <;> simp [metadata, Metadata.isProgram, isExecutable]
  | _ => simp [metadata, Metadata.isProgram, isExecutable]

def World.system (world : World) : System := fun path => do
  let path ← path.text?
  match world.find path, world.tree.locate world.directory path with
  | .ok .directory, .ok place =>
    some <| (world.tree.entries place).map fun name =>
      ⟨name.toUTF8, (world.find (Path.join path name)).toOption.map FileNode.metadata⟩
  | _, _ => none

theorem listed?_ofNode (name : String) (node? : Option FileNode) :
    FoundEntry.listed? ⟨name.toUTF8, node?.map FileNode.metadata⟩ =
      some ⟨name, node?.any FileNode.isDirectory, node?.any FileNode.isExecutable⟩ := by
  have read : String.fromUTF8? name.toUTF8 = some name := dif_pos name.isValidUTF8
  rw [FoundEntry.listed?, read]
  simp [Option.any_map, FileNode.isDirectory_metadata, FileNode.isProgram_metadata]

/-- A world lists its directories as a system does. -/
theorem visible_system (world : World) : world.system.visible = world.list? := by
  funext path
  unfold System.visible World.system World.list?
  cases path.text? with
  | none => rfl
  | some path =>
    have find (path : String) : world.find path = world.tree.find world.directory path := by
      rw [World.find, OsText.text?_ofText]
    simp only [find, Option.bind_eq_bind, Option.bind_some, FileTree.list?]
    cases world.tree.find world.directory path with
    | error fault => rfl
    | ok node =>
      cases node with
      | directory =>
        cases world.tree.locate world.directory path with
        | error fault => rfl
        | ok place =>
          simp only [Option.map_some, List.filterMap_map, Function.comp_def, listed?_ofNode]
          exact congrArg some (congrFun List.filterMap_eq_map _)
      | _ => rfl

/-! ### The search path -/

theorem Path.searchList_eq_iff {path : String} {directories : List String} :
    searchList path = directories ↔
      directories ≠ [] ∧ ":".intercalate directories = path ∧ ∀ directory ∈ directories, ':' ∉ directory.toList := by
  have colon : ":".toList = [':'] := rfl
  constructor
  · rintro rfl
    refine ⟨by simp [searchList, List.splitOn_ne_nil], ?_, fun directory member => ?_⟩
    · rw [← String.toList_inj, String.toList_intercalate, searchList, List.map_map, colon]
      simp only [Function.comp_def, String.toList_ofList, List.map_id']
      exact List.intercalate_splitOn ':'
    · obtain ⟨part, cut, rfl⟩ := List.mem_map.mp member
      rw [String.toList_ofList]
      exact Text.not_mem_of_mem_splitOn cut
  · rintro ⟨filled, rfl, apart⟩
    have parts : ∀ part ∈ directories.map String.toList, ':' ∉ part := List.forall_mem_map.mpr apart
    rw [searchList, String.toList_intercalate, colon, List.splitOn_intercalate ':' parts (by simpa using filled),
      List.map_map]
    simp [Function.comp_def]

namespace Environment

variable {environment : Environment} {path other : String}

/-- The search path is set to a text, or it is not and the standard one is taken. -/
inductive SearchPath (environment : Environment) : String → Prop
  | given {path : String} (value : environment.lookup "PATH" = some ↑path) : SearchPath environment path
  | standard (missing : ∀ path : String, environment.lookup "PATH" ≠ some ↑path) :
      SearchPath environment standardSearchPath

theorem searchPath_iff :
    environment.SearchPath path ↔
      ((environment.lookup "PATH").bind OsText.text?).getD standardSearchPath = path := by
  have read {path : String} : (environment.lookup "PATH").bind OsText.text? = some path ↔
      environment.lookup "PATH" = some ↑path := by
    simp only [Option.bind_eq_some_iff, OsText.text?_eq_some_iff, exists_eq_right]
  constructor
  · rintro (value | missing)
    · rw [read.mpr value, Option.getD_some]
    · rw [Option.eq_none_iff_forall_ne_some.mpr fun path => mt read.mp (missing path), Option.getD_none]
  · rintro rfl
    cases text : (environment.lookup "PATH").bind OsText.text? with
    | some path => exact .given (read.mp text)
    | none =>
      refine .standard fun path value => ?_
      rw [read.mpr value] at text
      cases text

/-- Programs are looked up in the directories that the colons of the search path separate. -/
def Searches (environment : Environment) (directories : List String) : Prop :=
  ∃ path, environment.SearchPath path ∧ directories ≠ [] ∧ ":".intercalate directories = path ∧
    ∀ directory ∈ directories, ':' ∉ directory.toList

theorem searches_iff {directories : List String} :
    environment.Searches directories ↔ environment.searchDirectories = directories := by
  simp only [Searches, searchPath_iff, exists_eq_left', ← Path.searchList_eq_iff]
  rfl

end Environment

namespace Files

variable {system : System} {environment : Environment} {directories : List String} {typed : String}

theorem mem_programs {name : String} :
    name ∈ programs system.visible directories typed ↔
      typed.toList <+: name.toList ∧ ∃ directory ∈ directories, system.HasProgram directory name := by
  simp only [programs, Names.mem_ofList, List.mem_flatMap, List.mem_map, List.mem_filter, Bool.and_eq_true,
    Policy.beginsWith_iff, System.hasProgram_iff]
  constructor
  · rintro ⟨directory, listed, entry, ⟨member, program, begins⟩, rfl⟩
    exact ⟨begins, directory, listed, entry, member, program, rfl⟩
  · rintro ⟨begins, directory, listed, entry, member, program, rfl⟩
    exact ⟨directory, listed, entry, ⟨member, program, begins⟩, rfl⟩

/-- The policy keeps all programs, since they begin with the typed text already. -/
theorem select_programs :
    Policy.leading.select (programs system.visible directories typed) typed =
      programs system.visible directories typed := by
  refine Names.eq_of_ascending (Policy.ascending_select ..) (Names.ascending_ofList _) fun name => ?_
  rw [Policy.mem_select, and_iff_left_iff_imp]
  intro inside
  exact Policy.beginsWith_iff.mpr (mem_programs.mp inside).1

theorem step_executables (unslashed : '/' ∉ typed.toList) :
    (executables system.visible environment typed).step typed =
      .suggestions (programs system.visible environment.searchDirectories typed) := by
  rw [executables, if_neg unslashed]
  exact congrArg Step.suggestions select_programs

/-- The registered functions change nothing they look at. For a name `executables` offers the programs of all
directories of the search path that begin with it, be it that other directories cannot be listed or have something else
under the name; so whoever searches no other directories finds no other programs. Text with a slash is completed as a
file name. -/
theorem offered_programs (system : System) (environment : Environment) (request : Request) :
    ∃ executables files, registry.function? "executables" = some executables ∧
      registry.function? "files" = some files ∧
      let outlook (environment : Environment) : Outlook := ⟨system.visible, environment⟩
      let answer (environment : Environment) := (executables request (outlook environment)).1
      (executables request (outlook environment)).2 = outlook environment ∧
      ('/' ∈ request.typed.toList →
        executables request (outlook environment) = files request (outlook environment)) ∧
      ('/' ∉ request.typed.toList →
        ∃ directories offered : List String, environment.Searches directories ∧
          (answer environment).step request.typed = .suggestions offered ∧ Names.Ascending offered ∧
          (∀ name, name ∈ offered ↔ request.typed.toList <+: name.toList ∧
            ∃ directory ∈ directories, system.HasProgram directory name) ∧
          ∀ (other : Environment) (searched found : List String), other.Searches searched →
            (∀ directory ∈ searched, (system directory).isSome → directory ∈ directories) →
            (answer other).step request.typed = .suggestions found → ∀ name ∈ found, name ∈ offered) := by
  refine ⟨_, _, rfl, rfl, rfl, fun slashed => ?_, fun unslashed => ?_⟩
  · exact congrArg (·, _) (if_pos slashed)
  · refine ⟨environment.searchDirectories, programs system.visible environment.searchDirectories request.typed,
      Environment.searches_iff.mpr rfl, step_executables unslashed, Names.ascending_ofList _,
      fun name => mem_programs, ?_⟩
    intro other searched found searches listable below name inside
    obtain rfl := Step.suggestions.inj ((step_executables unslashed).symm.trans below)
    rw [Environment.searches_iff.mp searches] at inside
    obtain ⟨begins, directory, member, has⟩ := mem_programs.mp inside
    exact mem_programs.mpr ⟨begins, directory, listable directory member has.isSome, has⟩

/-- In `bin`, the file `tool` may not be executed, `toy` leads nowhere and `top` is a directory; `gone` cannot be
listed, and one name in `tools` is no UTF-8. -/
theorem offered_programs_shadowed :
    let program : Metadata := ⟨.regular, 0o755⟩
    let system : System := fun directory =>
      if directory = "bin" then
        some [⟨"tool".toUTF8, some ⟨.regular, 0o644⟩⟩, ⟨"toy".toUTF8, none⟩, ⟨"top".toUTF8, some ⟨.directory, 0o755⟩⟩]
      else if directory = "tools" then
        some [⟨"tool".toUTF8, some program⟩, ⟨"ls".toUTF8, some program⟩, ⟨⟨#[116, 111, 255]⟩, some program⟩]
      else none
    let environment : Environment := [("PATH", "bin:gone:tools:tools")]
    let request : Request := { state := "executables", typed := "to", parse := {}, words := [] }
    ∃ executables, registry.function? "executables" = some executables ∧ '/' ∉ request.typed.toList ∧
      environment.Searches ["bin", "gone", "tools", "tools"] ∧
      (executables request ⟨system.visible, environment⟩).1.step "to" = .suggestions ["tool"] ∧
      ∃ directory ∈ ["bin", "gone", "tools", "tools"], system.HasProgram ↑directory "tool" := by
  intro program system environment request
  have unslashed : '/' ∉ request.typed.toList := by decide
  have searched : environment.searchDirectories = ["bin", "gone", "tools", "tools"] := by decide +kernel
  obtain ⟨executables, files, known, -, -, -, names⟩ := offered_programs system environment request
  obtain ⟨directories, offered, searches, answers, -, members, -⟩ := names unslashed
  obtain rfl : directories = _ := (Environment.searches_iff.mp searches).symm.trans searched
  obtain rfl := Option.some.inj known
  have found : Step.suggestions offered = .suggestions ["tool"] := by
    rw [← answers]
    refine (step_executables unslashed).trans (congrArg Step.suggestions ?_)
    rw [searched]
    decide +kernel
  obtain rfl := Step.suggestions.inj found
  exact ⟨_, rfl, unslashed, searches, answers, ((members "tool").mp (List.mem_cons_self ..)).2⟩

/-- One directory of the search path holds `mytool` and the name of the other one is no UTF-8. -/
theorem not_offered_of_unreadable_path :
    let tools : OsText := "/opt/tools"
    let coffee : OsText := ⟨(OsText.ofText "/opt/caf").octets ++ 0xE9 :: (OsText.ofText "/bin").octets⟩
    let path : OsText := ⟨tools.octets ++ 58 :: coffee.octets⟩
    let environment : Environment := [("PATH", path)]
    let system : System := fun directory =>
      if directory = tools then some [⟨"mytool".toUTF8, some ⟨.regular, 0o755⟩⟩] else none
    let request : Request := { state := "executables", typed := "my", parse := {}, words := [] }
    path.octets.splitOn 58 = [tools.octets, coffee.octets] ∧ '/' ∉ request.typed.toList ∧
      request.typed.toList <+: "mytool".toList ∧ system.HasProgram tools "mytool" ∧
      environment.Searches ["/usr/local/bin", "/usr/bin", "/bin", "/usr/local/sbin", "/sbin"] ∧
      ∃ executables, registry.function? "executables" = some executables ∧
        (executables request ⟨system.visible, environment⟩).1.step request.typed = .suggestions [] := by
  intro tools coffee path environment system request
  have unslashed : '/' ∉ request.typed.toList := by decide
  have searched : environment.searchDirectories = ["/usr/local/bin", "/usr/bin", "/bin", "/usr/local/sbin", "/sbin"] := by
    decide +kernel
  have has : system.HasProgram tools "mytool" :=
    ⟨_, if_pos rfl, _, List.mem_singleton_self _, by decide +kernel, _, rfl, rfl, by decide⟩
  refine ⟨by decide +kernel, unslashed, by decide, has, Environment.searches_iff.mpr searched, _, rfl, ?_⟩
  refine (step_executables unslashed).trans (congrArg Step.suggestions ?_)
  rw [searched]
  decide +kernel

end Files

end ShellCompletion
