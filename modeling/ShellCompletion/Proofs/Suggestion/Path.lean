import ShellCompletion.Proofs.Resolver.Files

/-!
# Which paths fit

A candidate fits a typed path if it goes on from it within the same directory (`pathFits_iff`). So typing
on within a name only takes candidates away, and selecting twice is selecting once (`path_policy`).
-/

namespace ShellCompletion

/-! ### The last cut of a longer text -/

namespace Text

variable {mark : Char} {before after : List Char}

/-- What follows without the mark belongs to the part after the last cut. -/
theorem cutLast_extend (text : List Char) (absent : mark ∉ after) :
    cutLast mark (text ++ after) = ((cutLast mark text).1, (cutLast mark text).2 ++ after) := by
  have ends : (cutLast mark text).1 = [] ∨ (cutLast mark text).1.getLast? = some mark :=
    (cutLast_before mark text).imp_right fun ⟨first, shape⟩ => by rw [shape, List.getLast?_concat]
  have none : mark ∉ (cutLast mark text).2 ++ after := by
    rw [List.mem_append]
    exact not_or.mpr ⟨not_mem_cutLast mark text, absent⟩
  have split := cutLast_append_of_not_mem ends none
  rwa [← List.append_assoc, cutLast_append] at split

/-- What ends with the mark is before the last cut of every text that goes on from it. -/
theorem cutLast_prepend (ends : before.getLast? = some mark) (text : List Char) :
    cutLast mark (before ++ text) = (before ++ (cutLast mark text).1, (cutLast mark text).2) := by
  have left : before ++ (cutLast mark text).1 = [] ∨ (before ++ (cutLast mark text).1).getLast? = some mark := by
    right
    rcases cutLast_before mark text with none | ⟨first, shape⟩
    · rw [none, List.append_nil, ends]
    · rw [shape, ← List.append_assoc, List.getLast?_concat]
  have split := cutLast_append_of_not_mem left (not_mem_cutLast mark text)
  rwa [List.append_assoc, cutLast_append] at split

end Text

namespace Policy

variable {candidate typed more : String} {candidates : List String}

/-! ### One candidate -/

/-- One slash at the end is dropped, if there is one. -/
theorem dropSlash_eq_iff {path kept : List Char} :
    dropSlash path = kept ↔ path = kept ++ ['/'] ∨ path = kept ∧ path.getLast? ≠ some '/' := by
  unfold dropSlash
  split
  next ends =>
    obtain ⟨front, rfl⟩ := List.getLast?_eq_some_iff.mp ends
    simp
  next other =>
    constructor
    · exact fun same => .inr ⟨same, other⟩
    · rintro (rfl | ⟨same, -⟩)
      · exact absurd List.getLast?_concat other
      · exact same

/-- The candidate, less one slash at its end, is the typed path and more of the name in it. A dot that begins the name
has to be typed. -/
theorem pathFits_iff :
    pathFits candidate typed = true ↔
      ∃ more, '/' ∉ more ∧ dropSlash candidate.toList = typed.toList ++ more ∧
        (((Path.baseName typed).toList ++ more).head? = some '.' →
          (Path.baseName typed).toList.head? = some '.') := by
  have cut := Text.cutLast_append '/' typed.toList
  simp only [pathFits, Bool.and_eq_true, beq_iff_eq, List.isPrefixOf_iff_prefix, Bool.or_eq_true, bne_iff_ne, ne_eq,
    Path.baseName, String.toList_ofList]
  rw [← Decidable.imp_iff_not_or]
  constructor
  · rintro ⟨⟨directory, more, name⟩, dot⟩
    refine ⟨more, fun inside => ?_, ?_, name ▸ dot⟩
    · exact Text.not_mem_cutLast '/' (dropSlash candidate.toList) (name ▸ List.mem_append_right _ inside)
    · rw [← Text.cutLast_append '/' (dropSlash candidate.toList), directory, ← name, ← List.append_assoc, cut]
  · rintro ⟨more, unslashed, whole, dot⟩
    rw [whole, Text.cutLast_extend _ unslashed]
    exact ⟨⟨rfl, List.prefix_append ..⟩, dot⟩

/-- A name that is begun keeps its first letter, so what fits a longer beginning of it fits a shorter one. -/
theorem pathFits_of_append (begun : Path.baseName typed ≠ "") (unslashed : '/' ∉ more.toList)
    (fits : pathFits candidate (typed ++ more) = true) : pathFits candidate typed = true := by
  obtain ⟨rest, absent, whole, -⟩ := pathFits_iff.mp fits
  have filled : (Path.baseName typed).toList ≠ [] := by simpa using begun
  refine pathFits_iff.mpr ⟨more.toList ++ rest, ?_, ?_, ?_⟩
  · rw [List.mem_append]
    exact not_or.mpr ⟨unslashed, absent⟩
  · rw [whole, String.toList_append, List.append_assoc]
  · rw [List.head?_append, List.head?_eq_some_head filled]
    exact id

/-! ### Lists of candidates -/

theorem select_select (policy : Policy) (candidates : List String) (typed : String) :
    policy.select (policy.select candidates typed) typed = policy.select candidates typed := by
  rw [select_of_ascending (ascending_select policy candidates typed)]
  exact List.filter_eq_self.mpr fun candidate selected => (mem_select.mp selected).2

/-- Typing on takes candidates away, if whatever fits the longer text fits the shorter one. -/
theorem select_sublist {policy : Policy} {longer : String}
    (narrows : ∀ candidate, policy.fits candidate longer = true → policy.fits candidate typed = true) :
    (policy.select candidates longer).Sublist (policy.select candidates typed) := by
  have same : policy.select candidates longer = (policy.select candidates typed).filter (policy.fits · longer) := by
    refine Names.eq_of_ascending (ascending_select ..) ((ascending_select ..).filter _) fun candidate => ?_
    rw [List.mem_filter, mem_select, mem_select]
    constructor
    · rintro ⟨inside, fits⟩
      exact ⟨⟨inside, narrows candidate fits⟩, fits⟩
    · rintro ⟨⟨inside, -⟩, fits⟩
      exact ⟨inside, fits⟩
  rw [same]
  exact List.filter_sublist

/-- A path fits exactly if, less one slash at its end, it is the typed path and more of the name in it, without a
slash and without a dot at the beginning of the name that was not typed. So a name that is begun has fewer candidates
the more of it is typed, and selecting twice is selecting once. -/
theorem path_policy (typed : String) :
    let name := Path.baseName typed
    (typed = Files.directoryPart typed ++ name ∧ '/' ∉ name.toList ∧
      (Files.directoryPart typed = "" ∨ Path.endsWithSlash (Files.directoryPart typed) = true)) ∧
    (∀ candidate, Policy.path.fits candidate typed = true ↔
      ∃ more : String, '/' ∉ more.toList ∧
        (candidate = typed ++ more ++ "/" ∨ candidate = typed ++ more ∧ Path.endsWithSlash candidate = false) ∧
        ¬ ((name ++ more).toList.head? = some '.' ∧ name.toList.head? ≠ some '.')) ∧
    (∀ (candidates : List String) (more : String), name ≠ "" → '/' ∉ more.toList →
      (Policy.path.select candidates (typed ++ more)).Sublist (Policy.path.select candidates typed)) ∧
    ∀ candidates, Policy.path.select (Policy.path.select candidates typed) typed = Policy.path.select candidates typed := by
  intro name
  refine ⟨⟨(Files.directoryPart_append typed).symm, Files.slash_not_mem_baseName typed, Files.directoryPart_ends typed⟩,
    fun candidate => ?_, fun candidates more begun unslashed => ?_, fun candidates => select_select ..⟩
  · have trimmed (more : String) : dropSlash candidate.toList = typed.toList ++ more.toList ↔
        candidate = typed ++ more ++ "/" ∨ candidate = typed ++ more ∧ Path.endsWithSlash candidate = false := by
      simp [dropSlash_eq_iff, ← String.toList_inj, Path.endsWithSlash]
    rw [Policy.fits, pathFits_iff]
    constructor
    · rintro ⟨more, unslashed, whole, dot⟩
      refine ⟨String.ofList more, by simpa using unslashed, (trimmed _).mp (by simpa using whole), ?_⟩
      simpa [name] using dot
    · rintro ⟨more, unslashed, whole, dot⟩
      exact ⟨more.toList, unslashed, (trimmed more).mpr whole, by simpa [name] using dot⟩
  · exact select_sublist fun candidate fits => pathFits_of_append begun unslashed fits

/-- A hidden directory and a doubled slash: `src/.g` is typed on to `src/.gi`. -/
theorem path_policy_hidden :
    let candidates := ["src/.git/", "src/.gate", "src/.git//", "src/.git/hooks", "src/git"]
    Path.baseName "src/.g" ≠ "" ∧ '/' ∉ "i".toList ∧
      Policy.path.select candidates "src/.g" = ["src/.gate", "src/.git/"] ∧
      (Policy.path.select candidates ("src/.g" ++ "i")).Sublist ["src/.gate", "src/.git/"] ∧
      Policy.path.select ["src/.gate", "src/.git/"] "src/.g" = ["src/.gate", "src/.git/"] ∧
      Policy.path.fits "src/.git/" ("src/.g" ++ "i") = true := by
  intro candidates
  have begun : Path.baseName "src/.g" ≠ "" := by decide
  have unslashed : '/' ∉ "i".toList := by decide
  have selected : Policy.path.select candidates "src/.g" = ["src/.gate", "src/.git/"] := by decide
  obtain ⟨-, -, narrows, again⟩ := path_policy "src/.g"
  obtain ⟨-, fits, -, -⟩ := path_policy ("src/.g" ++ "i")
  refine ⟨begun, unslashed, selected, selected ▸ narrows candidates "i" begun unslashed, ?_, ?_⟩
  · rw [← selected]
    exact again candidates
  · exact (fits "src/.git/").mpr ⟨"t", by decide, .inl (by decide), by decide⟩

end Policy

end ShellCompletion
