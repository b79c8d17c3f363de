import ShellCompletion.Dispatch
import ShellCompletion.Proofs.Suggestion.Policy
import ShellCompletion.Resolver.Files

/-!
# Which file names are offered

The typed path is cut twice: the resolver cuts off the directory it lists, and the policy cuts the typed path and every
candidate, after the slash that marks a directory. The cuts agree because the name of an entry is not empty and has no
slash (`fits_entry`). So what is offered is the directory part as it was typed with the name of each entry that goes
on from the typed name (`offered_entries`).
-/

namespace ShellCompletion

/-! ### The last cut of a path -/

namespace Text

variable {mark : Char} {before after : List Char}

theorem cutLast_of_not_mem {text : List Char} (absent : mark ∉ text) : cutLast mark text = ([], text) := by
  have whole := cutLast_append mark text
  rcases cutLast_before mark text with none | ⟨first, ends⟩
  · rw [none, List.nil_append] at whole
    exact Prod.ext none whole
  · rw [ends] at whole
    refine absurd ?_ absent
    rw [← whole]
    simp

/-- A part that is empty or ends with the mark is cut off where no mark follows. -/
theorem cutLast_append_of_not_mem (ends : before = [] ∨ before.getLast? = some mark) (absent : mark ∉ after) :
    cutLast mark (before ++ after) = (before, after) := by
  induction before with
  | nil => exact cutLast_of_not_mem absent
  | cons c rest ih =>
    have last : (c :: rest).getLast? = some mark := ends.resolve_left (List.cons_ne_nil c rest)
    rw [List.cons_append, cutLast]
    cases rest with
    | nil =>
      obtain rfl : c = mark := by simpa using last
      rw [List.nil_append, cutLast_of_not_mem absent]
      exact if_pos rfl
    | cons d rest =>
      have later : (d :: rest).getLast? = some mark := by rwa [List.getLast?_cons_cons] at last
      rw [ih (.inr later)]

theorem getLast?_append_ne (before : List Char) (filled : after ≠ []) (absent : mark ∉ after) :
    (before ++ after).getLast? ≠ some mark := by
  rw [List.getLast?_append, List.getLast?_eq_some_getLast filled, Option.some_or]
  intro last
  exact absent (Option.some.inj last ▸ List.getLast_mem filled)

end Text

theorem Policy.dropSlash_of_slash (path : List Char) : dropSlash (path ++ ['/']) = path := by
  rw [dropSlash, List.getLast?_concat, if_pos rfl, List.dropLast_concat]

namespace Files

theorem directoryPart_append (typed : String) : directoryPart typed ++ Path.baseName typed = typed := by
  rw [directoryPart, Path.baseName, ← String.ofList_append, Text.cutLast_append, String.ofList_toList]

theorem directoryPart_ends (typed : String) :
    directoryPart typed = "" ∨ Path.endsWithSlash (directoryPart typed) = true := by
  rcases Text.cutLast_before '/' typed.toList with none | ⟨before, ends⟩
  · exact .inl (by rw [directoryPart, none])
  · exact .inr (by simp [directoryPart, Path.endsWithSlash, ends])

theorem slash_not_mem_baseName (typed : String) : '/' ∉ (Path.baseName typed).toList := by
  rw [Path.baseName, String.toList_ofList]
  exact Text.not_mem_cutLast '/' typed.toList

/-! ### Entries -/

/-- An entry of a directory as the system lists it, its name in octets. -/
structure RawEntry where
  name : ByteArray
  isDirectory : Bool
  isProgram : Bool
  filled : name ≠ ByteArray.empty
  /-- The octet 47 is a slash. -/
  unslashed : 47 ∉ name.data.toList

/-- The name of the entry, unless it is no UTF-8. -/
def RawEntry.text? (entry : RawEntry) : Option String := String.fromUTF8? entry.name

/-- Entries whose names are no UTF-8 are not seen. -/
def RawEntry.listed? (entry : RawEntry) : Option Listed :=
  entry.text?.map fun name => { name, isDirectory := entry.isDirectory, isProgram := entry.isProgram }

theorem RawEntry.toByteArray_of_text? {entry : RawEntry} {text : String} (read : entry.text? = some text) :
    text.toByteArray = entry.name := by
  unfold RawEntry.text? String.fromUTF8? at read
  split at read
  next valid =>
    obtain rfl := Option.some.inj read
    rfl
  next => simp at read

theorem slash_mem_data {text : String} (inside : '/' ∈ text.toList) : 47 ∈ text.toByteArray.data.toList := by
  obtain ⟨before, after, whole⟩ := List.append_of_mem inside
  have octet : (List.utf8Encode ['/']).data = #[47] := rfl
  rw [← String.utf8Encode_toList, whole, List.utf8Encode_append, List.utf8Encode_cons, ByteArray.data_append,
    ByteArray.data_append, octet]
  simp

theorem RawEntry.text?_ne_empty {entry : RawEntry} {text : String} (read : entry.text? = some text) : text ≠ "" := by
  rintro rfl
  exact entry.filled (RawEntry.toByteArray_of_text? read).symm

theorem RawEntry.slash_not_mem_text? {entry : RawEntry} {text : String} (read : entry.text? = some text) :
    '/' ∉ text.toList := fun inside =>
  entry.unslashed (RawEntry.toByteArray_of_text? read ▸ slash_mem_data inside)

/-- The name goes on from the typed one, and it is not hidden unless the typed one is. -/
def Continues (typedName name : String) : Prop :=
  typedName.toList <+: name.toList ∧ (name.toList.head? = some '.' → typedName.toList.head? = some '.')

/-- The candidate for the entry of a directory. -/
def item (directory name : String) (isDirectory : Bool) : String :=
  directory ++ name ++ (if isDirectory then "/" else "")

section Item

variable {directory name typed : String} {isDirectory : Bool}

theorem dropSlash_item (directory : String) (isDirectory : Bool) (filled : name ≠ "") (unslashed : '/' ∉ name.toList) :
    Policy.dropSlash (item directory name isDirectory).toList = directory.toList ++ name.toList := by
  cases isDirectory with
  | true =>
    have whole : (item directory name true).toList = directory.toList ++ name.toList ++ ['/'] := by
      simp [item]
    rw [whole, Policy.dropSlash_of_slash]
  | false =>
    have whole : (item directory name false).toList = directory.toList ++ name.toList := by simp [item]
    rw [whole]
    exact if_neg (Text.getLast?_append_ne directory.toList (by simpa using filled) unslashed)

theorem fits_entry {entry : RawEntry} (read : entry.text? = some name) :
    Policy.path.fits (item (directoryPart typed) name isDirectory) typed = true ↔
      Continues (Path.baseName typed) name := by
  have unslashed := RawEntry.slash_not_mem_text? read
  have dropped := dropSlash_item (directoryPart typed) isDirectory (RawEntry.text?_ne_empty read) unslashed
  have ends : (directoryPart typed).toList = [] ∨ (directoryPart typed).toList.getLast? = some '/' := by
    simpa [Path.endsWithSlash] using directoryPart_ends typed
  have candidate := Text.cutLast_append_of_not_mem ends unslashed
  have cut : Text.cutLast '/' typed.toList = ((directoryPart typed).toList, (Path.baseName typed).toList) := by
    simp [directoryPart, Path.baseName]
  simp only [Policy.fits, Policy.pathFits, dropped, candidate, cut, beq_self_eq_true, Bool.true_and, Bool.and_eq_true,
    List.isPrefixOf_iff_prefix, Bool.or_eq_true, bne_iff_ne, beq_iff_eq, Continues]
  rw [ne_eq, ← Decidable.imp_iff_not_or]

theorem endsWithSlash_entry {entry : RawEntry} (read : entry.text? = some name) :
    Path.endsWithSlash (item directory name isDirectory) = isDirectory := by
  cases isDirectory with
  | true => simp [item, Path.endsWithSlash]
  | false =>
    have filled : name.toList ≠ [] := by simpa using RawEntry.text?_ne_empty read
    have last := Text.getLast?_append_ne directory.toList filled (RawEntry.slash_not_mem_text? read)
    simpa [item, Path.endsWithSlash] using last

end Item

/-! ### What is offered -/

variable {list : OsText → Option (List Listed)} {home : Option OsText} {typed : String}

theorem mem_candidates {onlyDirectories : Bool} {candidate : String} :
    candidate ∈ candidates list home onlyDirectories typed ↔
      ∃ entries, list (directoryPath home (directoryPart typed)) = some entries ∧
        ∃ entry ∈ entries, (onlyDirectories = true → entry.isDirectory = true) ∧
          candidate = item (directoryPart typed) entry.name entry.isDirectory := by
  cases listed : list (directoryPath home (directoryPart typed)) with
  | none => simp [candidates, listed]
  | some entries =>
    simp only [candidates, listed, List.mem_map, List.mem_filter, Bool.or_eq_true, Bool.not_eq_true', Option.some.injEq,
      item, exists_eq_left']
    grind

/-- What the resolvers see of the listings of the system. -/
def seen (raw : OsText → Option (List RawEntry)) (path : OsText) : Option (List Listed) :=
  (raw path).map (·.filterMap RawEntry.listed?)

variable {raw : OsText → Option (List RawEntry)}

theorem mem_select_candidates {onlyDirectories : Bool} {candidate : String} :
    candidate ∈ Policy.path.select (candidates (seen raw) home onlyDirectories typed) typed ↔
      ∃ entries, raw (directoryPath home (directoryPart typed)) = some entries ∧
        ∃ entry ∈ entries, ∃ name, entry.text? = some name ∧ Continues (Path.baseName typed) name ∧
          (onlyDirectories = true → entry.isDirectory = true) ∧
          candidate = item (directoryPart typed) name entry.isDirectory := by
  rw [Policy.mem_select, mem_candidates]
  constructor
  · rintro ⟨⟨visible, found, listed, inside, wanted, rfl⟩, fits⟩
    obtain ⟨entries, same, rfl⟩ := Option.map_eq_some_iff.mp found
    obtain ⟨entry, member, shown⟩ := List.mem_filterMap.mp inside
    obtain ⟨name, read, rfl⟩ := Option.map_eq_some_iff.mp shown
    exact ⟨entries, same, entry, member, name, read, (fits_entry read).mp fits, wanted, rfl⟩
  · rintro ⟨entries, same, entry, member, name, read, continues, wanted, rfl⟩
    have shown : entry.listed? = some ⟨name, entry.isDirectory, entry.isProgram⟩ := by
      rw [RawEntry.listed?, read]
      rfl
    have found : seen raw (directoryPath home (directoryPart typed)) = some (entries.filterMap RawEntry.listed?) := by
      rw [seen, same, Option.map_some]
    have fits : Policy.path.fits (item (directoryPart typed) name entry.isDirectory) typed = true :=
      (fits_entry read).mpr continues
    exact ⟨⟨_, found, _, List.mem_filterMap.mpr ⟨entry, member, shown⟩, wanted, rfl⟩, fits⟩

/-- The directories among the candidates are those that end with a slash. -/
theorem select_directories :
    Policy.path.select (candidates (seen raw) home true typed) typed =
      (Policy.path.select (candidates (seen raw) home false typed) typed).filter Path.endsWithSlash := by
  refine Names.eq_of_ascending (Policy.ascending_select ..) ((Policy.ascending_select ..).filter _) fun candidate => ?_
  rw [List.mem_filter, mem_select_candidates, mem_select_candidates]
  constructor
  · rintro ⟨entries, same, entry, member, name, read, continues, wanted, rfl⟩
    refine ⟨⟨entries, same, entry, member, name, read, continues, nofun, rfl⟩, ?_⟩
    rw [endsWithSlash_entry read]
    exact wanted rfl
  · rintro ⟨⟨entries, same, entry, member, name, read, continues, -, rfl⟩, ends⟩
    rw [endsWithSlash_entry read] at ends
    exact ⟨entries, same, entry, member, name, read, continues, fun _ => ends, rfl⟩

/-- Of the listing of any system, `files` offers what goes on from the typed path, in ascending order, and `directories`
offers what of that ends with a slash. -/
theorem offered_entries (raw : OsText → Option (List RawEntry)) (home : Option OsText) (typed : String) :
    let directory := directoryPart typed
    let typedName := Path.baseName typed
    let listing := raw (directoryPath home directory)
    typed = directory ++ typedName ∧ '/' ∉ typedName.toList ∧
      (directory = "" ∨ Path.endsWithSlash directory = true) ∧
      ∃ offered, (files (seen raw) home typed).step typed = .suggestions offered ∧
        (directories (seen raw) home typed).step typed = .suggestions (offered.filter Path.endsWithSlash) ∧
        Names.Ascending offered ∧ (listing = none → offered = []) ∧
        ∀ candidate, candidate ∈ offered ↔
          ∃ entries, listing = some entries ∧ ∃ entry ∈ entries, ∃ name, entry.text? = some name ∧
            Continues typedName name ∧
            candidate = directory ++ name ++ (if entry.isDirectory then "/" else "") := by
  intro directory typedName listing
  refine ⟨(directoryPart_append typed).symm, slash_not_mem_baseName typed, directoryPart_ends typed,
    Policy.path.select (candidates (seen raw) home false typed) typed, rfl, ?_, Policy.ascending_select .., ?_, ?_⟩
  · exact congrArg Step.suggestions select_directories
  · intro missing
    refine List.eq_nil_iff_forall_not_mem.mpr fun candidate inside => ?_
    obtain ⟨entries, found, -⟩ := mem_select_candidates.mp inside
    simp [listing, directory, found] at missing
  · intro candidate
    rw [mem_select_candidates]
    simp only [Bool.false_eq_true, false_implies, true_and, item, listing, directory, typedName]

/-- The directory `bc`, `.b`, `b` and a name that begins with it but is no UTF-8. -/
example :
    let raw (path : OsText) : Option (List RawEntry) :=
      if path = "/home/" then
        some [⟨⟨#[98, 99]⟩, true, false, by decide, by decide⟩,
          ⟨⟨#[46, 98]⟩, false, false, by decide, by decide⟩,
          ⟨⟨#[98]⟩, false, false, by decide, by decide⟩,
          ⟨⟨#[98, 255]⟩, false, false, by decide, by decide⟩]
      else none
    (files (seen raw) (some ↑"/home") "~/b").step "~/b" = .suggestions ["~/b", "~/bc/"] := by
  rfl

end Files

end ShellCompletion
