/-!
# Cutting a text at a mark

`cut?` cuts at the first mark and `cutLast` at the last one. Each loses nothing: the parts and the mark
between them make up the text again.
-/

namespace ShellCompletion.Text

/-- The text before the first `mark` and the text after it, if `mark` occurs. -/
def cut? (mark : Char) : List Char → Option (List Char × List Char)
  | [] => none
  | c :: rest =>
    if c = mark then some ([], rest)
    else (cut? mark rest).map fun (before, after) => (c :: before, after)

/-- The text up to and including the last `mark`, and the text after it. -/
def cutLast (mark : Char) : List Char → List Char × List Char
  | [] => ([], [])
  | c :: rest =>
    match cutLast mark rest with
    | ([], after) => if c = mark then ([c], after) else ([], c :: after)
    | (before, after) => (c :: before, after)

theorem eq_of_cut? {mark : Char} {text before after : List Char}
    (h : cut? mark text = some (before, after)) :
    text = before ++ mark :: after ∧ mark ∉ before := by
  induction text generalizing before with
  | nil => simp [cut?] at h
  | cons c rest ih =>
    rw [cut?] at h
    split at h
    next same => simp_all
    next other =>
      obtain ⟨⟨b, a⟩, found, same⟩ := Option.map_eq_some_iff.mp h
      obtain ⟨rfl, rfl⟩ := Prod.mk.inj same
      obtain ⟨whole, absent⟩ := ih found
      exact ⟨by rw [whole, List.cons_append], by simp [absent, Ne.symm other]⟩

theorem cut?_eq_none_iff {mark : Char} {text : List Char} :
    cut? mark text = none ↔ mark ∉ text := by
  induction text with
  | nil => simp [cut?]
  | cons c rest ih =>
    rw [cut?]
    split
    next same => simp [same]
    next other => simp [ih, Ne.symm other]

@[simp] theorem cut?_append {mark : Char} {before : List Char} (absent : mark ∉ before)
    (after : List Char) : cut? mark (before ++ mark :: after) = some (before, after) := by
  induction before with
  | nil => simp [cut?]
  | cons c rest ih =>
    have differ : c ≠ mark := fun same => absent (same ▸ List.mem_cons_self ..)
    have later : mark ∉ rest := fun member => absent (List.mem_cons_of_mem _ member)
    rw [List.cons_append, cut?, if_neg differ, ih later]
    rfl

theorem cutLast_append (mark : Char) (text : List Char) :
    (cutLast mark text).1 ++ (cutLast mark text).2 = text := by
  induction text with
  | nil => rfl
  | cons c rest ih =>
    rw [cutLast]
    split
    next after found =>
      rw [found] at ih
      split <;> simpa using ih
    next before after _ found =>
      rw [found] at ih
      simpa using ih

/-- The text before the last `mark` ends with it. -/
theorem cutLast_before (mark : Char) (text : List Char) :
    (cutLast mark text).1 = [] ∨ ∃ before, (cutLast mark text).1 = before ++ [mark] := by
  induction text with
  | nil => exact .inl rfl
  | cons c rest ih =>
    rw [cutLast]
    split
    next after found =>
      split
      next same => exact .inr ⟨[], by rw [same, List.nil_append]⟩
      next => exact .inl rfl
    next before after filled found =>
      rw [found] at ih
      obtain ⟨first, same⟩ := ih.resolve_left filled
      exact .inr ⟨c :: first, congrArg (c :: ·) same⟩

theorem not_mem_cutLast (mark : Char) (text : List Char) : mark ∉ (cutLast mark text).2 := by
  induction text with
  | nil => simp [cutLast]
  | cons c rest ih =>
    rw [cutLast]
    split
    next after found =>
      rw [found] at ih
      split
      next => exact ih
      next other => simpa [Ne.symm other] using ih
    next before after _ found =>
      rw [found] at ih
      exact ih

end ShellCompletion.Text
