import ShellCompletion.Proofs.Line.Parse

/-!
# The new word

The word that has not been typed yet is classified as any word is going to be that does not look like a
flag (`newWord_eq_of_bare`), and typing such a word excludes nothing (`excluded_append_bare`).
-/

namespace ShellCompletion

namespace Expectation

variable {grammar : Grammar} {expected : Expectation} {word : String}

theorem newWord_eq_of_bare (bare : looksLikeFlag word = false) :
    expected.newWord = (expected.read grammar word).1.wordClass := by
  rcases owed_cases expected word with
    ⟨action, fixed, tail, owed⟩ | ⟨-, dashed⟩ | ⟨action, owed, -⟩ | ⟨owed, -⟩
  · rw [read_fixed owed, newWord, owed]
    rfl
  · rw [dashed] at bare
    cases bare
  · rw [read_tail owed bare, newWord, owed]
    rfl
  · rw [read_bare owed bare, newWord, owed, fill]
    cases expected.slots <;> rfl

theorem typed_read_bare (bare : looksLikeFlag word = false) :
    (expected.read grammar word).1.typed = [] := by
  refine List.eq_nil_iff_forall_not_mem.mpr fun typed named => ?_
  have dashed := (role_read_eq_flag_iff.mp (mem_typed_read.mp named).1).2
  rw [dashed] at bare
  cases bare

end Expectation

namespace Grammar

variable {grammar : Grammar} {words : List String} {word : String}

/-- One more word adds one reading, the step from what the line leaves expected. -/
theorem readings_concat (grammar : Grammar) (nonempty : words ≠ []) (word : String) :
    grammar.readings (words ++ [word]) =
      grammar.readings words ++ [((grammar.expectation words).read grammar word).1] := by
  cases words with
  | nil => exact absurd rfl nonempty
  | cons first rest =>
    rw [List.cons_append, readings, Expectation.readAll_append]
    rfl

theorem class?_newWord (nonempty : words ≠ []) (bare : looksLikeFlag word = false) :
    (grammar.parse words words.length).class? words.length =
      (grammar.parse (words ++ [word]) words.length).class? words.length := by
  have after : 0 < words.length := List.length_pos_iff.mpr nonempty
  rw [class?_parse_length, if_pos ⟨rfl, after⟩, class?_parse (by simp), readings_concat grammar nonempty,
    List.getElem?_append_right (by simp), length_readings, Nat.sub_self, List.getElem?_cons_zero,
    Option.map_some, Expectation.newWord_eq_of_bare bare]

theorem excluded_append_bare (nonempty : words ≠ []) (bare : looksLikeFlag word = false) (cursor : Nat) :
    (grammar.parse (words ++ [word]) cursor).excluded = (grammar.parse words cursor).excluded := by
  have nothing (atCursor : Bool) :
      grammar.spent atCursor ((grammar.expectation words).read grammar word).1 = [] := by
    rw [spent, Expectation.typed_read_bare bare]
    rfl
  unfold parse
  simp only [readings_concat grammar nonempty, List.zipIdx_append, List.flatMap_append, List.zipIdx_cons,
    List.zipIdx_nil, List.flatMap_cons, List.flatMap_nil, nothing, List.append_nil]

end Grammar

end ShellCompletion
