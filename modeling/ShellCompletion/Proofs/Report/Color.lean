import Mathlib.Data.List.Forall2
import ShellCompletion.Proofs.Text.Marks
import ShellCompletion.Report.Explanation

/-!
# Colour in reports

A painted text is a plain text with style sequences put into it (`Painted`). A report in colour is painted from the
report without colour, whatever its texts are (`painted_render`). Whoever takes the style sequences out is left with the
plain report, as long as no text brings an escape character of its own (`render_unstyled`).
-/

namespace ShellCompletion

open Text

namespace Report

/-! ### Taking style sequences out -/

/-- What is left of a text without its style sequences: an escape character, a bracket, and all up to the next `m`. -/
def unstyle : List Char → List Char
  | [] => []
  | '\x1b' :: '[' :: rest =>
    match found : cut? 'm' rest with
    | some (_, after) =>
      have := length_lt_of_cut? found
      unstyle after
    | none => '\x1b' :: '[' :: unstyle rest
  | c :: rest => c :: unstyle rest
termination_by text => text.length

def unstyled (text : String) : String := String.ofList (unstyle text.toList)

theorem unstyle_append {text : List Char} (plain : '\x1b' ∉ text) (rest : List Char) :
    unstyle (text ++ rest) = text ++ unstyle rest := by
  induction text with
  | nil => rfl
  | cons c text ih =>
    obtain ⟨other, later⟩ := not_or.mp (mt List.mem_cons.mpr plain)
    rw [List.cons_append, unstyle, ih later, List.cons_append]
    -- No style sequence begins here.
    rintro _ rfl
    exact absurd rfl other

theorem unstyle_sequence {codes : List Char} (short : 'm' ∉ codes) (rest : List Char) :
    unstyle ('\x1b' :: '[' :: (codes ++ 'm' :: rest)) = unstyle rest := by
  rw [unstyle]
  split
  next found =>
    rw [cut?_append short] at found
    obtain ⟨-, rfl⟩ := Prod.mk.inj (Option.some.inj found)
    rfl
  next missing =>
    rw [cut?_append short] at missing
    cases missing

/-! ### Painted texts -/

/-- An escape character, a bracket, and what the sequence asks for up to an `m`. -/
def IsSequence (text : String) : Prop := ∃ codes : String, 'm' ∉ codes.toList ∧ text = "\x1b[" ++ codes ++ "m"

theorem Style.isSequence_on (style : Style) : IsSequence style.on := by
  refine ⟨";".intercalate (style.codes.map toString), (not_mem_toList_intercalate (by decide)).mpr ?_, rfl⟩
  intro text member
  obtain ⟨code, -, rfl⟩ := List.mem_map.mp member
  exact not_mem_toList_toString (by decide) code

theorem Style.isSequence_off : IsSequence Style.off := ⟨"0", by decide, by decide⟩

/-- The first text is the second one with style sequences put into it. -/
inductive Painted : String → String → Prop
  | plain (text : String) : Painted text text
  | sequence {text : String} (styles : IsSequence text) : Painted text ""
  | append {first second shown more : String} (before : Painted first shown) (after : Painted second more) :
      Painted (first ++ second) (shown ++ more)

theorem unstyle_of_painted {painted text : String} (paints : Painted painted text) (plain : '\x1b' ∉ text.toList)
    (rest : List Char) : unstyle (painted.toList ++ rest) = text.toList ++ unstyle rest := by
  induction paints generalizing rest with
  | plain text => exact unstyle_append plain rest
  | sequence styles =>
    obtain ⟨codes, short, rfl⟩ := styles
    simpa using unstyle_sequence short rest
  | append _ _ before after =>
    obtain ⟨first, second⟩ := not_mem_toList_append.mp plain
    rw [String.toList_append, String.toList_append, List.append_assoc, before first, after second, List.append_assoc]

theorem unstyled_of_painted {painted text : String} (paints : Painted painted text) (plain : '\x1b' ∉ text.toList) :
    unstyled painted = text := by
  have left := unstyle_of_painted paints plain []
  rw [List.append_nil, unstyle, List.append_nil] at left
  rw [unstyled, left, String.ofList_toList]

theorem Style.painted_paint (style : Style) (color : Bool) (text : String) : Painted (style.paint color text) text := by
  cases color with
  | false => exact .plain text
  | true =>
    have painted := Painted.append (.append (.sequence style.isSequence_on) (.plain text)) (.sequence isSequence_off)
    rwa [String.empty_append, String.append_empty] at painted

theorem painted_join {painted texts : List String} (paints : List.Forall₂ Painted painted texts) :
    Painted (String.join painted) (String.join texts) := by
  induction paints with
  | nil => exact .plain _
  | cons first _ ih =>
    rw [String.join_cons, String.join_cons]
    exact .append first ih

theorem painted_intercalate (separator : String) {painted texts : List String}
    (paints : List.Forall₂ Painted painted texts) :
    Painted (separator.intercalate painted) (separator.intercalate texts) := by
  induction paints with
  | nil => exact .plain _
  | cons first later ih =>
    cases later with
    | nil =>
      rw [String.intercalate_singleton, String.intercalate_singleton]
      exact first
    | cons =>
      rw [String.intercalate_cons_cons, String.intercalate_cons_cons]
      exact .append (.append first (.plain separator)) ih

/-! ### The parts of a report -/

section Parts

variable (color : Bool) (explanation : Explanation)

theorem painted_line {painted text : String} (label : String) (paints : Painted painted text) :
    Painted (line color label painted) (line false label text) :=
  .append (.append (Style.label.painted_paint color _) paints) (.plain "\n")

theorem painted_words : Painted (words color explanation) (words false explanation) := by
  refine painted_intercalate " " (List.rel_append ?shown ?newWord)
  case shown =>
    rw [List.forall₂_map_left_iff, List.forall₂_map_right_iff, List.forall₂_same]
    rintro ⟨word, index⟩ -
    by_cases here : index = explanation.cursor
    · simp only [if_pos here]
      exact Style.cursorWord.painted_paint color _
    · simp only [if_neg here]
      exact .plain word
  case newWord =>
    split
    next => exact .cons (Style.newWord.painted_paint color _) .nil
    next => exact .nil

theorem painted_subcommand :
    Painted (if 0 < explanation.offset then line color "subcommand" (toString explanation.offset) else "")
      (if 0 < explanation.offset then line false "subcommand" (toString explanation.offset) else "") := by
  split
  next => exact painted_line color "subcommand" (.plain _)
  next => exact .plain ""

theorem painted_suggestions (suggestions : List String) :
    Painted (String.join (suggestions.map fun suggestion => "  " ++ Style.suggestion.paint color suggestion ++ "\n"))
      (String.join (suggestions.map fun suggestion => "  " ++ Style.suggestion.paint false suggestion ++ "\n")) := by
  refine painted_join ?_
  rw [List.forall₂_map_left_iff, List.forall₂_map_right_iff, List.forall₂_same]
  intro suggestion _
  exact .append (.append (.plain "  ") (Style.suggestion.painted_paint color suggestion)) (.plain "\n")

theorem painted_render : Painted (explanation.render color) (explanation.render false) := by
  have words := painted_line color "words" (painted_words color explanation)
  have subcommand := painted_subcommand color explanation
  have role := painted_line color "role" (.plain (describeRole explanation.role))
  have action := painted_line color "action" (Style.action.painted_paint color (describeAction explanation.action))
  have flags := painted_line color "flags" (.plain (" ".intercalate explanation.parse.opts))
  have excluded := painted_line color "excluded"
    (Style.excluded.painted_paint color (" ".intercalate explanation.parse.excluded))
  have positional := painted_line color "positional" (.plain (" ".intercalate explanation.parse.line))
  have count := painted_line color "suggestions" (.plain (toString explanation.suggestions.length))
  have suggestions := painted_suggestions color explanation.suggestions
  exact ((((((((words.append subcommand).append role).append action).append flags).append excluded).append
    positional).append count).append suggestions)

end Parts

end Report

/-- No text that a report shows holds an escape character. -/
@[mk_iff]
structure Explanation.Plain (explanation : Explanation) : Prop where
  words : ∀ word ∈ explanation.words, '\x1b' ∉ word.toList
  action : '\x1b' ∉ explanation.action.text.toList
  opts : ∀ spelling ∈ explanation.parse.opts, '\x1b' ∉ spelling.toList
  excluded : ∀ spelling ∈ explanation.parse.excluded, '\x1b' ∉ spelling.toList
  line : ∀ word ∈ explanation.parse.line, '\x1b' ∉ word.toList
  suggestions : ∀ suggestion ∈ explanation.suggestions, '\x1b' ∉ suggestion.toList

namespace Report

theorem escape_not_mem_describeAction {action : Action} :
    '\x1b' ∉ (describeAction action).toList ↔ '\x1b' ∉ action.text.toList := by
  cases action with
  | literal => decide
  | nothing => decide
  | state name => exact not_mem_toList_append.trans (and_iff_right (by decide))
  | function name =>
    have front : '\x1b' ∉ "function ".toList := by decide
    rw [describeAction, Action.text, not_mem_toList_append, not_mem_toList_append, not_mem_toList_append,
      and_iff_right front]

theorem escape_not_mem_describeRole (role : Option Role) : '\x1b' ∉ (describeRole role).toList := by
  rcases role with _ | (_ | _ | _ | _) <;> decide

theorem escape_not_mem_line {label text : String} (plain : '\x1b' ∉ label.toList) :
    '\x1b' ∉ (line false label text).toList ↔ '\x1b' ∉ text.toList := by
  have blank : '\x1b' ≠ ' ' := by decide
  have newline : '\x1b' ∉ "\n".toList := by decide
  have padded := (not_mem_toList_pushn blank label (labelWidth - label.length)).mpr plain
  rw [line, not_mem_toList_append, not_mem_toList_append, and_iff_left newline]
  exact and_iff_right padded

theorem escape_not_mem_words {explanation : Explanation} :
    '\x1b' ∉ (words false explanation).toList ↔ ∀ word ∈ explanation.words, '\x1b' ∉ word.toList := by
  have opening : '\x1b' ∉ "[".toList := by decide
  have closing : '\x1b' ∉ "]".toList := by decide
  have newWord : ∀ text ∈ if explanation.words.length ≤ explanation.cursor then [Style.newWord.paint false "[]"] else [],
      '\x1b' ∉ text.toList := by
    split <;> decide
  have shown (word : String) (index : Nat) :
      '\x1b' ∉ (if index = explanation.cursor then Style.cursorWord.paint false ("[" ++ word ++ "]") else word).toList ↔
        '\x1b' ∉ word.toList := by
    split
    next =>
      rw [Style.paint_false, not_mem_toList_append, and_iff_left closing, not_mem_toList_append, and_iff_right opening]
    next => rfl
  rw [words, not_mem_toList_intercalate (by decide), List.forall_mem_append, and_iff_left newWord, List.forall_mem_map]
  simp only [shown]
  rw [← List.forall_mem_map (f := Prod.fst) (P := fun word : String => '\x1b' ∉ word.toList), List.zipIdx_map_fst]

theorem escape_not_mem_suggestions {suggestions : List String} :
    '\x1b' ∉ (String.join (suggestions.map fun suggestion => "  " ++ suggestion ++ "\n")).toList ↔
      ∀ suggestion ∈ suggestions, '\x1b' ∉ suggestion.toList := by
  have indent : '\x1b' ∉ "  ".toList := by decide
  have newline : '\x1b' ∉ "\n".toList := by decide
  rw [not_mem_toList_join, List.forall_mem_map]
  refine forall₂_congr fun suggestion _ => ?_
  rw [not_mem_toList_append, and_iff_left newline, not_mem_toList_append, and_iff_right indent]

theorem escape_not_mem_render {explanation : Explanation} :
    '\x1b' ∉ (explanation.render false).toList ↔ explanation.Plain := by
  have count (number : Nat) : '\x1b' ∉ (toString number).toList := not_mem_toList_toString (by decide) number
  have subcommand : '\x1b' ∉
      (if 0 < explanation.offset then line false "subcommand" (toString explanation.offset) else "").toList := by
    split
    next => exact (escape_not_mem_line (by decide)).mpr (count _)
    next => decide
  simp (disch := decide) only [Explanation.render, Explanation.plain_iff, not_mem_toList_append, escape_not_mem_line,
    escape_not_mem_words, subcommand, escape_not_mem_describeRole, Style.paint_false, escape_not_mem_describeAction,
    not_mem_toList_intercalate, count, escape_not_mem_suggestions, not_false_eq_true, and_true, and_assoc]

end Report

open Report in
/-- A report in colour is the plain report with style sequences put into it. The plain report holds an escape character
only if some text of the explanation does, and otherwise it is what is left of the report in colour without its style
sequences. -/
theorem Explanation.render_unstyled (explanation : Explanation) :
    Painted (explanation.render true) (explanation.render false) ∧
      ('\x1b' ∉ (explanation.render false).toList ↔ explanation.Plain) ∧
      (explanation.Plain → unstyled (explanation.render true) = explanation.render false) := by
  refine ⟨painted_render true explanation, escape_not_mem_render, fun plain => ?_⟩
  exact unstyled_of_painted (painted_render true explanation) (escape_not_mem_render.mpr plain)

open Report in
/-- The words, a suggestion and the name of the state look like the rest of a style sequence. -/
theorem Explanation.render_unstyled_brackets :
    let explanation : Explanation := {
      offset := 1, words := ["pkg", "[1m"], cursor := 1, action := .state "m", role := some .argument,
      parse := { opts := ["-m"], excluded := ["--more", "-m"] }, suggestions := ["[0m", "[1mm"] }
    let colored := "\x1b[1;36mwords       \x1b[0mpkg \x1b[1;4m[[1m]\x1b[0m\n" ++
      "\x1b[1;36msubcommand  \x1b[0m1\n" ++ "\x1b[1;36mrole        \x1b[0moption argument\n" ++
      "\x1b[1;36maction      \x1b[0m\x1b[33mstate m\x1b[0m\n" ++ "\x1b[1;36mflags       \x1b[0m-m\n" ++
      "\x1b[1;36mexcluded    \x1b[0m\x1b[90m--more -m\x1b[0m\n" ++ "\x1b[1;36mpositional  \x1b[0m\n" ++
      "\x1b[1;36msuggestions \x1b[0m2\n" ++ "  \x1b[32m[0m\x1b[0m\n" ++ "  \x1b[32m[1mm\x1b[0m\n"
    let plain := "words       pkg [[1m]\n" ++ "subcommand  1\n" ++ "role        option argument\n" ++
      "action      state m\n" ++ "flags       -m\n" ++ "excluded    --more -m\n" ++ "positional  \n" ++
      "suggestions 2\n" ++ "  [0m\n" ++ "  [1mm\n"
    explanation.Plain ∧ explanation.render true = colored ∧ explanation.render false = plain ∧
      unstyled colored = plain ∧ '\x1b' ∉ plain.toList := by
  intro explanation colored plain
  have texts : explanation.Plain := ⟨by decide, by decide, by decide, by decide, by decide, by decide⟩
  have painted : explanation.render true = colored := by decide +kernel
  have shown : explanation.render false = plain := by decide +kernel
  obtain ⟨-, escape, left⟩ := Explanation.render_unstyled explanation
  rw [painted, shown] at left
  rw [shown] at escape
  exact ⟨texts, painted, shown, left texts, escape.mpr texts⟩

end ShellCompletion
