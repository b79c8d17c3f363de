import ShellCompletion.Grammar.Compile
import ShellCompletion.Proofs.Line.Parse

/-!
# Causality

The class of a word depends on the words up to it (`class?_eq_of_take`): neither later words nor the
cursor have a say in it. Nor does the cursor in what a line captures (`parse_causal`).
-/

namespace ShellCompletion.Grammar

/-- Lines that agree up to a word give it the same class, wherever their cursors are. -/
theorem class?_eq_of_take (grammar : Grammar) {first second : List String} {index : Nat}
    (same : first.take (index + 1) = second.take (index + 1)) (typed : index < first.length)
    (cursor other : Nat) :
    (grammar.parse first cursor).class? index = (grammar.parse second other).class? index := by
  have both : first[index]? = second[index]? := by
    rw [← List.getElem?_take_of_lt (Nat.lt_succ_self index), same,
      List.getElem?_take_of_lt (Nat.lt_succ_self index)]
  have found : second[index]? = some first[index] := both ▸ List.getElem?_eq_getElem typed
  cases index with
  | zero =>
    rw [class?_parse typed, class?_parse (List.getElem?_eq_some_iff.mp found).1, readings_zero,
      readings_zero, both]
  | succ index =>
    -- What is expected of the word comes from the words before it, and these are the same.
    have before : first.take (index + 1) = second.take (index + 1) := by
      simpa [List.take_take] using congrArg (List.take (index + 1)) same
    rw [class?_succ (both.trans found), class?_succ found, before]

/-- Every typed word has a class that more words and another cursor leave as it is, and what a line
captures is the same for every cursor. -/
theorem parse_causal (grammar : Grammar) (words more : List String) (cursor other : Nat) :
    (∀ index < words.length, ∃ wordClass,
      (grammar.parse (words ++ more) cursor).class? index = some wordClass ∧
        (grammar.parse words other).class? index = some wordClass) ∧
    (grammar.parse words cursor).line = (grammar.parse words other).line ∧
    (grammar.parse words cursor).opts = (grammar.parse words other).opts ∧
    (grammar.parse words cursor).arguments = (grammar.parse words other).arguments := by
  refine ⟨fun index typed => ?_, rfl, rfl, rfl⟩
  have inside : index < (grammar.readings words).length := by simpa using typed
  have known : (grammar.parse words other).class? index =
      some (grammar.readings words)[index].wordClass := by
    rw [class?_parse typed, List.getElem?_eq_getElem inside, Option.map_some]
  refine ⟨_, ?_, known⟩
  rw [← known]
  refine class?_eq_of_take grammar ?_ (by simp; omega) cursor other
  rw [List.take_append_of_le_length (by omega)]

/-- The word `x` is an argument of `-o` whether or not more arguments follow and where the cursor is. -/
theorem parse_causal_argument :
    let grammar : Grammar :=
      { flags := [{ canonical := "-o", chain := ⟨[.state "file"], some .literal⟩ }] }
    let words := ["tool", "-o", "x"]
    compile ["-o:file:*-"] = .ok grammar ∧ 2 < words.length ∧
      (∃ wordClass, (grammar.parse (words ++ ["y", "-o"]) 4).class? 2 = some wordClass ∧
        (grammar.parse words 2).class? 2 = some wordClass) ∧
      (grammar.parse words 0).arguments = (grammar.parse words 3).arguments ∧
      (grammar.parse words 3).arguments = [("-o", ["x"])] := by
  intro grammar words
  obtain ⟨-, -, -, arguments⟩ := parse_causal grammar words [] 0 3
  obtain ⟨others, -⟩ := parse_causal grammar words ["y", "-o"] 4 2
  exact ⟨rfl, by decide, others 2 (by decide), arguments, by decide⟩

end ShellCompletion.Grammar
