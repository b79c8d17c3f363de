import ShellCompletion.Proofs.FileTree.Slashes
import ShellCompletion.Proofs.Suggestion.Path

/-!
# Files of the home directory

A path that is typed from `~/` on is listed below the home directory, and what is offered for it is what
is offered for the whole path, under the beginning that was typed. A second slash after `~/` makes the
rest an absolute path, which is listed instead (`offered_at_home`).
-/

namespace ShellCompletion

theorem Names.Ascending.prepend {names : List String} (ascending : Names.Ascending names) (before : String) :
    Names.Ascending (names.map (before ++ ·)) := by
  refine List.pairwise_map.mpr (ascending.imp fun {a b} less => ?_)
  show (before ++ a).toList < (before ++ b).toList
  rw [String.toList_append, String.toList_append]
  exact List.append_left_lt less

/-! ### Paths below a directory -/

section Below

variable {before : String} (ends : Path.endsWithSlash before = true)
include ends

theorem directoryPart_prepend (typed : String) :
    Files.directoryPart (before ++ typed) = before ++ Files.directoryPart typed := by
  have last : before.toList.getLast? = some '/' := by simpa [Path.endsWithSlash] using ends
  rw [Files.directoryPart, String.toList_append, Text.cutLast_prepend last, String.ofList_append, String.ofList_toList,
    Files.directoryPart]

theorem baseName_prepend (typed : String) : Path.baseName (before ++ typed) = Path.baseName typed := by
  have last : before.toList.getLast? = some '/' := by simpa [Path.endsWithSlash] using ends
  rw [Path.baseName, String.toList_append, Text.cutLast_prepend last, Path.baseName]

/-- The directory itself is no candidate for a path below it. -/
theorem pathFits_prepend (candidate typed : String) :
    Policy.pathFits (before ++ candidate) (before ++ typed) = true ↔
      candidate ≠ "" ∧ Policy.pathFits candidate typed = true := by
  have last : before.toList.getLast? = some '/' := by simpa [Path.endsWithSlash] using ends
  have dropped (more : List Char) : Policy.dropSlash (before ++ candidate).toList = (before ++ typed).toList ++ more ↔
      candidate ≠ "" ∧ Policy.dropSlash candidate.toList = typed.toList ++ more := by
    rw [Policy.dropSlash_eq_iff, Policy.dropSlash_eq_iff, String.toList_append, String.toList_append]
    by_cases filled : candidate = ""
    · simp [filled, last]
    · have shown : candidate.toList ≠ [] := by simpa using filled
      simp [List.getLast?_append, List.getLast?_eq_some_getLast shown, filled]
  simp only [Policy.pathFits_iff, dropped, baseName_prepend ends]
  constructor
  · rintro ⟨more, unslashed, ⟨filled, whole⟩, dot⟩
    exact ⟨filled, more, unslashed, whole, dot⟩
  · rintro ⟨filled, more, unslashed, whole, dot⟩
    exact ⟨more, unslashed, ⟨filled, whole⟩, dot⟩

/-- What is selected below a directory is what is selected without it. -/
theorem select_prepend (candidates : List String) (typed : String) :
    Policy.path.select (candidates.map (before ++ ·)) (before ++ typed) =
      (Policy.path.select (candidates.filter (· ≠ "")) typed).map (before ++ ·) := by
  refine Names.eq_of_ascending (Policy.ascending_select ..) ((Policy.ascending_select ..).prepend before) fun name => ?_
  rw [Policy.mem_select, List.mem_map, List.mem_map]
  constructor
  · rintro ⟨⟨candidate, inside, rfl⟩, fits⟩
    obtain ⟨filled, fits⟩ := (pathFits_prepend ends candidate typed).mp fits
    exact ⟨candidate, Policy.mem_select.mpr ⟨by simp [inside, filled], fits⟩, rfl⟩
  · rintro ⟨candidate, selected, rfl⟩
    obtain ⟨inside, fits⟩ := Policy.mem_select.mp selected
    obtain ⟨inside, filled⟩ := List.mem_filter.mp inside
    exact ⟨⟨candidate, inside, rfl⟩, (pathFits_prepend ends candidate typed).mpr ⟨by simpa using filled, fits⟩⟩

end Below

namespace Files

variable {list : OsText → Option (List Listed)} {home : Option OsText}

/-- The entries of a listing as candidates for paths in `directory`. -/
def items (directory : String) (listing : Option (List Listed)) : List String :=
  (listing.getD []).map fun entry => item directory entry.name entry.isDirectory

theorem items_prepend (before directory : String) (listing : Option (List Listed)) :
    items (before ++ directory) listing = (items directory listing).map (before ++ ·) := by
  simp [items, item, String.append_assoc]

theorem candidates_eq_items (typed : String) :
    candidates list home false typed =
      items (directoryPart typed) (list (directoryPath home (directoryPart typed))) := by
  cases listed : list (directoryPath home (directoryPart typed)) with
  | none => simp [candidates, items, listed]
  | some entries =>
    have every : entries.filter (fun entry => !false || entry.isDirectory) = entries :=
      List.filter_eq_self.mpr fun _ _ => rfl
    simp only [candidates, listed, every, items, Option.getD_some]
    rfl

theorem step_files (typed : String) :
    (files list home typed).step typed = .suggestions (Policy.path.select
      (items (directoryPart typed) (list (directoryPath home (directoryPart typed)))) typed) := by
  rw [files, candidates_eq_items]
  rfl

/-- What is offered for a path that begins with a directory, by the listing of that path. -/
theorem step_prepend {before : String} (ends : Path.endsWithSlash before = true) (typed : String) :
    (files list home (before ++ typed)).step (before ++ typed) =
      .suggestions
        ((Policy.path.select ((items (directoryPart typed)
          (list (directoryPath home (before ++ directoryPart typed)))).filter (· ≠ "")) typed).map (before ++ ·)) := by
  rw [← select_prepend ends, ← items_prepend, ← directoryPart_prepend ends, step_files]

/-! ### The directory that is listed -/

theorem directoryPath_tilde (home directory : String) :
    directoryPath (some ↑home) ("~/" ++ directory) = Path.join home directory := by
  simp [directoryPath, String.ofList_toList, OsText.join_ofText]

theorem directoryPath_plain {directory : String} (filled : directory ≠ "")
    (plain : home = none ∨ ¬ ['~', '/'] <+: directory.toList) : directoryPath home directory = directory := by
  unfold directoryPath
  rw [if_neg (by simpa using filled)]
  split
  next rest home shape =>
    exact absurd ⟨rest, shape.symm⟩ (plain.resolve_left (Option.some_ne_none home))
  next => rfl

theorem directoryPart_isPrefix (typed : String) : (directoryPart typed).toList <+: typed.toList :=
  ⟨(Path.baseName typed).toList, by rw [← String.toList_append, directoryPart_append]⟩

theorem isAbsolute_directoryPart (path : String) : Path.isAbsolute (directoryPart path) = Path.isAbsolute path := by
  have whole := congrArg String.toList (directoryPart_append path)
  rw [String.toList_append] at whole
  rw [Path.isAbsolute, Path.isAbsolute, ← whole, List.head?_append]
  cases first : (directoryPart path).toList.head? with
  | some c => rfl
  | none =>
    -- Nothing is cut off, so the path is a name.
    have absent : (Path.baseName path).toList.head? ≠ some '/' := fun slash =>
      slash_not_mem_baseName path (List.mem_of_mem_head? slash)
    rw [Option.none_or, beq_false_of_ne absent]
    rfl

/-- A relative path is joined to the home directory by one slash. -/
theorem list_join {home directory : String} (filled : home ≠ "") (relative : Path.isAbsolute directory = false)
    (merges : MergesSlashes list (home ++ "/" ++ directory)) :
    list (Path.join home directory) = list ↑(home ++ "/" ++ directory) := by
  rw [Path.join_of_relative filled relative]
  split
  next ends =>
    obtain ⟨front, shape⟩ : ∃ front, home = front ++ "/" := by
      obtain ⟨front, shape⟩ := List.getLast?_eq_some_iff.mp (beq_iff_eq.mp ends)
      exact ⟨String.ofList front, by rw [← String.toList_inj]; simpa using shape⟩
    rw [merges front directory (by rw [shape]; simp [String.append_assoc]), shape, String.empty_append]
  next => rw [String.append_assoc]

theorem items_filled {directory : String} (filled : directory ≠ "") (listing : Option (List Listed)) :
    (items directory listing).filter (· ≠ "") = items directory listing := by
  refine List.filter_eq_self.mpr fun candidate inside => ?_
  obtain ⟨entry, -, rfl⟩ := List.mem_map.mp inside
  simp [item, filled]

/-- Below the home directory a relative path lists what it lists when the home directory is written out. -/
theorem list_tilde {home rest : String} (filled : home ≠ "") (relative : Path.isAbsolute rest = false)
    (merges : MergesSlashes list (home ++ "/" ++ directoryPart rest)) :
    list (directoryPath (some ↑home) ("~/" ++ directoryPart rest)) = list ↑(home ++ "/" ++ directoryPart rest) := by
  rw [directoryPath_tilde]
  exact list_join filled (by rw [isAbsolute_directoryPart, relative]) merges

theorem files_plain {home path : String} (filled : directoryPart path ≠ "") (plain : ¬ ['~', '/'] <+: path.toList) :
    files list (some ↑home) path = files list none path := by
  have untilded : ¬ ['~', '/'] <+: (directoryPart path).toList := fun begins =>
    plain (begins.trans (directoryPart_isPrefix path))
  rw [files, files, candidates_eq_items, candidates_eq_items, directoryPath_plain filled (.inr untilded),
    directoryPath_plain filled (.inl rfl)]

section Absolute

variable {rest : String} (absolute : Path.isAbsolute rest = true)
include absolute

theorem directoryPart_ne_empty : directoryPart rest ≠ "" := fun blank => by
  rw [← isAbsolute_directoryPart, blank] at absolute
  cases absolute

theorem not_tilde_directoryPart : ¬ ['~', '/'] <+: (directoryPart rest).toList := by
  rintro ⟨more, shape⟩
  rw [← isAbsolute_directoryPart, Path.isAbsolute, ← shape] at absolute
  cases absolute

/-- An absolute path leaves the home directory. -/
theorem directoryPath_tilde_absolute (home : String) :
    directoryPath (some ↑home) ("~/" ++ directoryPart rest) = directoryPart rest := by
  rw [directoryPath_tilde, Path.join, isAbsolute_directoryPart, absolute]
  rfl

end Absolute

/-- For `~/` and more is offered what is offered for the same path below the home directory, as it stands, with `~/` for
the path of the home directory; the directory listed is the one that this path names. But if a slash follows, the
directory listed is the one that the rest names as an absolute path, and what is offered for the rest is offered. -/
theorem offered_at_home (list : OsText → Option (List Listed)) {home rest : String} (filled : home ≠ "")
    (merges : MergesSlashes list (home ++ "/" ++ directoryPart rest)) :
    let typed := "~/" ++ rest
    let whole := home ++ "/" ++ rest
    (Path.isAbsolute rest = false →
      list (directoryPath (some ↑home) (directoryPart typed)) = list (directoryPart whole) ∧
      (∃ names : List String, (files list none whole).step whole = .suggestions (names.map (home ++ "/" ++ ·)) ∧
        (files list (some ↑home) typed).step typed = .suggestions (names.map ("~/" ++ ·))) ∧
      (¬ ['~', '/'] <+: whole.toList → files list (some ↑home) whole = files list none whole)) ∧
    (Path.isAbsolute rest = true →
      directoryPath (some ↑home) (directoryPart typed) = directoryPart rest ∧
      ∃ names : List String, (files list (some ↑home) rest).step rest = .suggestions names ∧
        (files list (some ↑home) typed).step typed = .suggestions (names.map ("~/" ++ ·))) := by
  intro typed whole
  have tilde : Path.endsWithSlash "~/" = true := by decide
  have ends : Path.endsWithSlash (home ++ "/") = true := by simp [Path.endsWithSlash]
  have below : directoryPart typed = "~/" ++ directoryPart rest := directoryPart_prepend tilde rest
  have part : directoryPart whole = home ++ "/" ++ directoryPart rest := directoryPart_prepend ends rest
  have partFilled : directoryPart whole ≠ "" := by simp [part]
  constructor
  · intro relative
    have listed : list (directoryPath (some ↑home) (directoryPart typed)) = list (directoryPart whole) := by
      rw [below, part, list_tilde filled relative merges]
    refine ⟨listed, ⟨Policy.path.select
      ((items (directoryPart rest) (list (directoryPart whole))).filter (· ≠ "")) rest, ?_, ?_⟩, files_plain partFilled⟩
    · rw [step_prepend ends, ← part, directoryPath_plain partFilled (.inl rfl)]
    · rw [step_prepend tilde, ← below, listed]
  · intro absolute
    have joined : directoryPath (some ↑home) (directoryPart typed) = directoryPart rest := by
      rw [below, directoryPath_tilde_absolute absolute]
    have restFilled : directoryPart rest ≠ "" := directoryPart_ne_empty absolute
    refine ⟨joined, Policy.path.select (items (directoryPart rest) (list (directoryPart rest))) rest, ?_, ?_⟩
    · rw [step_files, directoryPath_plain restFilled (.inr (not_tilde_directoryPart absolute))]
    · rw [step_prepend tilde, ← below, joined, items_filled restFilled]

/-- A directory of notes below the home directory and another one at the root. -/
def twoNotes (path : OsText) : Option (List Listed) := do
  match Path.steps (← path.text?) with
  | ["home", "notes", "."] => some [⟨"today", false, false⟩]
  | ["notes", "."] => some [⟨"other", false, false⟩]
  | _ => none

theorem mergesSlashes_twoNotes (path : String) : MergesSlashes twoNotes path := by
  rintro before after rfl
  simp only [twoNotes, OsText.text?_ofText, Option.bind_eq_bind, Option.bind_some, Path.steps_merge]

/-- The home directory ends with a slash, so one of two is left out. -/
theorem offered_at_home_notes :
    let home := "/home/"
    let typed := "~/notes/"
    let whole := "/home//notes/"
    home ≠ "" ∧ MergesSlashes twoNotes (home ++ "/" ++ directoryPart "notes/") ∧ Path.isAbsolute "notes/" = false ∧
      ¬ ['~', '/'] <+: whole.toList ∧
      twoNotes (directoryPath (some ↑home) (directoryPart typed)) = twoNotes (directoryPart whole) ∧
      (∃ names : List String, (files twoNotes none whole).step whole = .suggestions (names.map (home ++ "/" ++ ·)) ∧
        (files twoNotes (some ↑home) typed).step typed = .suggestions (names.map ("~/" ++ ·))) ∧
      files twoNotes (some ↑home) whole = files twoNotes none whole ∧
      (files twoNotes (some ↑home) typed).step typed = .suggestions ["~/notes/today"] := by
  intro home typed whole
  have filled : home ≠ "" := by decide
  have relative : Path.isAbsolute "notes/" = false := by decide
  have plain : ¬ ['~', '/'] <+: whole.toList := by decide
  have merges : MergesSlashes twoNotes (home ++ "/" ++ directoryPart "notes/") := mergesSlashes_twoNotes _
  obtain ⟨below, -⟩ := offered_at_home twoNotes filled merges
  obtain ⟨listed, names, same⟩ := below relative
  have offered : (files twoNotes (some ↑home) typed).step typed = .suggestions ["~/notes/today"] := by
    rw [step_files]
    exact congrArg Step.suggestions (by decide)
  exact ⟨filled, merges, relative, plain, listed, names, same plain, offered⟩

/-- With a second slash after `~/` the notes at the root are offered in the stead of those below the home directory. -/
theorem home_left_by_slash :
    let home := "/home"
    let typed := "~//notes/"
    let whole := "/home//notes/"
    (∀ path, MergesSlashes twoNotes path) ∧ typed = "~/" ++ "/notes/" ∧ whole = home ++ "/" ++ "/notes/" ∧
      (files twoNotes (some ↑home) whole).step whole = .suggestions (["/notes/today"].map (home ++ "/" ++ ·)) ∧
      (files twoNotes (some ↑home) typed).step typed ≠ .suggestions (["/notes/today"].map ("~/" ++ ·)) ∧
      (files twoNotes (some ↑home) typed).step typed = .suggestions ["~//notes/other"] ∧
      directoryPath (some ↑home) (directoryPart typed) = "/notes/" := by
  intro home typed whole
  have atWhole : (files twoNotes (some ↑home) whole).step whole = .suggestions ["/home//notes/today"] := by
    rw [step_files]
    exact congrArg Step.suggestions (by decide)
  have atTyped : (files twoNotes (some ↑home) typed).step typed = .suggestions ["~//notes/other"] := by
    rw [step_files]
    exact congrArg Step.suggestions (by decide)
  refine ⟨mergesSlashes_twoNotes, by decide, by decide, atWhole, fun same => ?_, atTyped, by decide⟩
  rw [atTyped] at same
  exact absurd (Step.suggestions.inj same) (by decide)

end Files

end ShellCompletion
