import ShellCompletion.Suggestion.Policy

/-!
# What fits the typed text

A candidate that fits by its leading text or as a path begins with the typed text (`extends_of_fits`). Candidates that
ascend are given in the order in which they are (`select_of_ascending`).
-/

namespace ShellCompletion.Policy

theorem dropSlash_isPrefix (candidate : List Char) : dropSlash candidate <+: candidate := by
  unfold dropSlash
  split
  next => exact List.dropLast_prefix candidate
  next => exact List.prefix_rfl

/-- The directories agree and the typed name begins the name, so the typed path begins the path. -/
theorem extends_of_pathFits {candidate typed : String} (fits : pathFits candidate typed = true) :
    typed.toList <+: candidate.toList := by
  simp only [pathFits, Bool.and_eq_true, beq_iff_eq, List.isPrefixOf_iff_prefix] at fits
  obtain ⟨⟨directory, name⟩, -⟩ := fits
  have shorter : typed.toList <+: dropSlash candidate.toList := by
    rw [← Text.cutLast_append '/' typed.toList, ← Text.cutLast_append '/' (dropSlash candidate.toList),
      directory]
    exact (List.prefix_append_right_inj _).mpr name
  exact shorter.trans (dropSlash_isPrefix candidate.toList)

theorem extends_of_fits {policy : Policy} (standard : policy = .leading ∨ policy = .path)
    {candidate typed : String} (fits : policy.fits candidate typed = true) :
    typed.toList <+: candidate.toList := by
  rcases standard with rfl | rfl
  · exact beginsWith_iff.mp fits
  · exact extends_of_pathFits fits

theorem select_of_ascending {candidates : List String} (ascending : Names.Ascending candidates) (policy : Policy)
    (typed : String) : policy.select candidates typed = candidates.filter (policy.fits · typed) :=
  Names.eq_of_ascending (ascending_select policy candidates typed) (ascending.filter _) fun name => by
    rw [mem_select, List.mem_filter]

end ShellCompletion.Policy
