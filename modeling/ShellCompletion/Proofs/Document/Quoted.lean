import ShellCompletion.Document.Printer
import ShellCompletion.Document.Quoted

/-!
# Texts are read back

A text is read back from the form it is written in, with what follows on it (`text?_write`), unless a quote stands
there. Between double quotes a character is written in one of three ways (`escapes`), and a reader takes one step for
it whichever it is (`quoted?_escape`, `longQuoted?_escape`). Over several lines quotes stand as they are: the reader
stops at three in a row, and fewer than three are read along with those that close the text.
-/

namespace ShellCompletion.Document

/-! ### Escapes -/

/-- A character that is neither plain nor escaped by a letter is among the first 128. -/
theorem charOfHex?_escape : ∀ code < 128,
    charOfHex? ['0', '0', hexDigit (code / 16), hexDigit (code % 16)] = some (Char.ofNat code) := by
  decide

theorem lt_of_not_isPlain {c : Char} (hidden : isPlain c = false) : c.toNat < 128 := by
  simp only [isPlain, Bool.or_eq_false_iff, decide_eq_false_iff_not, Bool.and_eq_false_iff,
    bne_eq_false_iff_eq] at hidden
  omega

theorem ne_of_kind {kind : Char → Bool} {c mark : Char} (inside : kind c = true) (outside : kind mark = false) :
    c ≠ mark := by
  rintro rfl
  rw [inside] at outside
  cases outside

/-- What stands for a character: a letter after a backslash, the character itself, or its code. -/
inductive Escapes (c : Char) : List Char → Prop
  | letter {mark : Char} (escaped : escaped? mark = some c) (other : mark ∉ ['x', 'u', 'U'])
      (inLine : ∀ rest, endsLine (mark :: rest) = false) : Escapes c ['\\', mark]
  | plain (plain : isPlain c = true) (other : c ∉ ['"', '\\', '\n', '\r']) : Escapes c [c]
  | code {a b : Char} (code : charOfHex? ['0', '0', a, b] = some c) : Escapes c ['\\', 'u', '0', '0', a, b]

theorem escapes (c : Char) : Escapes c (escape c) := by
  unfold escape
  split
  case h_8 quote backslash _ _ newline _ carriage =>
    split
    next plain => exact .plain plain (by simpa using ⟨quote, backslash, newline, carriage⟩)
    next hidden =>
      have code := charOfHex?_escape c.toNat (lt_of_not_isPlain (Bool.eq_false_iff.mpr hidden))
      rw [Char.ofNat_toNat] at code
      exact .code code
  all_goals exact .letter rfl (by decide) fun _ => rfl

/-! ### Between double quotes -/

theorem quoted?_escape (c : Char) (rest : List Char) : quoted? (escape c ++ rest) = followed c (quoted? rest) := by
  have stands := escapes c
  generalize escape c = written at stands ⊢
  cases stands with
  | letter escaped other =>
    simp at other
    simp [quoted?, escaped, other]
  | plain plain other =>
    simp at other
    simp [quoted?, plain, other]
  | code code => simp [quoted?, code]

theorem quoted?_flatMap_escape (text rest : List Char) :
    quoted? (text.flatMap escape ++ '"' :: rest) = some (text, rest) := by
  induction text with
  | nil => rfl
  | cons c text ih =>
    rw [List.flatMap_cons, List.append_assoc, quoted?_escape, ih]
    rfl

/-! ### Between single quotes -/

theorem literal?_append {text : List Char} (plain : ∀ c ∈ text, isPlain c = true) (unquoted : '\'' ∉ text)
    (rest : List Char) : literal? (text ++ '\'' :: rest) = some (text, rest) := by
  induction text with
  | nil => rfl
  | cons c text ih =>
    obtain ⟨first, later⟩ := List.forall_mem_cons.mp plain
    obtain ⟨apart, unquoted⟩ := not_or.mp (mt List.mem_cons.mpr unquoted)
    rw [List.cons_append, literal?, if_pos first, ih later unquoted]
    · rfl
    · exact fun same => apart same.symm

/-! ### Over several lines -/

theorem longQuoted?_escape (c : Char) (rest : List Char) :
    longQuoted? false (escape c ++ rest) = followed c (longQuoted? false rest) := by
  have stands := escapes c
  generalize escape c = written at stands ⊢
  cases stands with
  | letter escaped other inLine =>
    simp at other
    simp [longQuoted?, escaped, other, inLine]
  | plain plain other =>
    simp at other
    simp [longQuoted?, plain, other]
  | code code => simp [longQuoted?, code]

/-- What stands for a character does not begin with a quote or a newline. -/
theorem head_escape (c : Char) : ∃ first more, escape c = first :: more ∧ first ∉ ['"', '\n', '\r'] := by
  have stands := escapes c
  generalize escape c = written at stands ⊢
  cases stands with
  | plain plain other =>
    simp only [List.mem_cons, List.not_mem_nil, or_false, not_or] at other
    exact ⟨c, [], rfl, by simp [other]⟩
  | letter | code => exact ⟨'\\', _, rfl, by decide⟩

theorem head_escapeLong (run : Nat) (c : Char) (text : List Char) (other : c = '"' → 2 ≤ run) :
    ∃ first more, escapeLong run (c :: text) = first :: more ∧ first ≠ '"' := by
  obtain ⟨first, more, stands, apart⟩ := head_escape c
  rw [escapeLong]
  split
  next quote =>
    rw [if_neg (Nat.not_lt.mpr (other quote)), stands]
    exact ⟨first, _, rfl, fun same => apart (by simp [same])⟩
  next quote =>
    split
    next newline => exact ⟨c, _, rfl, quote⟩
    next => exact ⟨first, _, by rw [stands]; rfl, fun same => apart (by simp [same])⟩

theorem longQuoted?_quote {rest : List Char} (apart : ¬ ['"', '"'] <+: rest) :
    longQuoted? false ('"' :: rest) = followed '"' (longQuoted? false rest) := by
  rw [longQuoted?.eq_def]
  split
  case h_11 =>
    rename_i same
    obtain ⟨rfl, rfl⟩ := List.cons.inj same
    rfl
  all_goals simp_all

/-- Two quotes follow on a written one only if nothing but quotes is left to be written. -/
theorem quotes_of_prefix {run : Nat} {text rest : List Char}
    (quotes : ['"', '"'] <+: escapeLong (run + 1) text ++ '"' :: '"' :: '"' :: rest) :
    text = [] ∨ text = ['"'] ∧ run = 0 := by
  cases text with
  | nil => exact .inl rfl
  | cons c text =>
    by_cases raw : c = '"' ∧ run + 1 < 2
    · obtain ⟨rfl, first⟩ := raw
      rw [escapeLong, if_pos rfl, if_pos first] at quotes
      cases text with
      | nil => exact .inr ⟨rfl, by omega⟩
      | cons d text =>
        obtain ⟨next, more, written, other⟩ := head_escapeLong (run + 1 + 1) d text fun _ => by omega
        simp [written, Ne.symm other] at quotes
    · obtain ⟨next, more, written, other⟩ := head_escapeLong (run + 1) c text fun quote =>
        Nat.le_of_not_lt fun few => raw ⟨quote, few⟩
      simp [written, Ne.symm other] at quotes

/-- Up to two quotes are read along with the three that close the text. -/
theorem longQuoted?_close (run : Nat) (few : run ≤ 2) {rest : List Char} (ends : rest.head? ≠ some '"') :
    longQuoted? false (List.replicate run '"' ++ '"' :: '"' :: '"' :: rest) = some (List.replicate run '"', rest) := by
  obtain rfl | rfl | rfl : run = 0 ∨ run = 1 ∨ run = 2 := by omega
  all_goals
    cases rest with
    | nil => rfl
    | cons d rest =>
      have other : d ≠ '"' := by simpa using ends
      simp [longQuoted?, List.replicate, other]

theorem longQuoted?_escapeLong (run : Nat) (text : List Char) {rest : List Char} (ends : rest.head? ≠ some '"') :
    longQuoted? false (escapeLong run text ++ '"' :: '"' :: '"' :: rest) = some (text, rest) := by
  induction text generalizing run with
  | nil => exact longQuoted?_close 0 (Nat.zero_le 2) ends
  | cons c text ih =>
    rw [escapeLong]
    split
    next quote =>
      subst quote
      split
      next few =>
        by_cases quotes : ['"', '"'] <+: escapeLong (run + 1) text ++ '"' :: '"' :: '"' :: rest
        · rcases quotes_of_prefix quotes with rfl | ⟨rfl, rfl⟩
          · exact longQuoted?_close 1 (by decide) ends
          · exact longQuoted?_close 2 (by decide) ends
        · rw [List.cons_append, longQuoted?_quote quotes, ih]
          rfl
      next =>
        rw [List.append_assoc, longQuoted?_escape, ih]
        rfl
    next =>
      split
      next newline =>
        subst newline
        rw [List.cons_append]
        simp [longQuoted?, ih, followed]
      next =>
        rw [List.append_assoc, longQuoted?_escape, ih]
        rfl

theorem longLiteral?_quote {rest : List Char} (apart : ¬ ['\'', '\''] <+: rest) :
    longLiteral? ('\'' :: rest) = followed '\'' (longLiteral? rest) := by
  rw [longLiteral?.eq_def]
  split
  case h_7 =>
    rename_i same
    obtain ⟨rfl, rfl⟩ := List.cons.inj same
    rfl
  all_goals simp_all

theorem longLiteral?_close (run : Nat) (few : run ≤ 2) {rest : List Char} (ends : rest.head? ≠ some '\'') :
    longLiteral? (List.replicate run '\'' ++ '\'' :: '\'' :: '\'' :: rest) = some (List.replicate run '\'', rest) := by
  obtain rfl | rfl | rfl : run = 0 ∨ run = 1 ∨ run = 2 := by omega
  all_goals
    cases rest with
    | nil => rfl
    | cons d rest =>
      have other : d ≠ '\'' := by simpa using ends
      simp [longLiteral?, List.replicate, other]

theorem longestRun_mono (mark : Char) {run more : Nat} (less : run ≤ more) (text : List Char) :
    longestRun mark run text ≤ longestRun mark more text := by
  induction text generalizing run more with
  | nil => exact less
  | cons c text ih =>
    rw [longestRun, longestRun]
    split
    next => exact ih (Nat.succ_le_succ less)
    next => omega

theorem le_longestRun (mark : Char) (run : Nat) (text : List Char) : run ≤ longestRun mark run text := by
  induction text generalizing run with
  | nil => exact Nat.le_refl run
  | cons c text ih =>
    rw [longestRun]
    split
    next => exact Nat.le_of_succ_le (ih (run + 1))
    next => exact Nat.le_max_left ..

theorem longLiteral?_append {text : List Char} (shown : ∀ c ∈ text, isPlain c = true ∨ c = '\n')
    (few : longestRun '\'' 0 text ≤ 2) {rest : List Char} (ends : rest.head? ≠ some '\'') :
    longLiteral? (text ++ '\'' :: '\'' :: '\'' :: rest) = some (text, rest) := by
  induction text with
  | nil => exact longLiteral?_close 0 (Nat.zero_le 2) ends
  | cons c text ih =>
    obtain ⟨first, later⟩ := List.forall_mem_cons.mp shown
    rw [longestRun] at few
    split at few
    next quote =>
      subst quote
      have others := ih later (Nat.le_trans (longestRun_mono _ (Nat.zero_le 1) text) few)
      by_cases quotes : ['\'', '\''] <+: text ++ '\'' :: '\'' :: '\'' :: rest
      · match text with
        | [] => exact longLiteral?_close 1 (by decide) ends
        | ['\''] => exact longLiteral?_close 2 (by decide) ends
        | d :: e :: text =>
          -- A third quote in a row is excluded.
          obtain ⟨rfl, rfl⟩ : '\'' = d ∧ '\'' = e := by simpa using quotes
          have three := le_longestRun '\'' 3 text
          simp only [longestRun, reduceIte, Nat.reduceAdd] at few
          omega
      · rw [List.cons_append, longLiteral?_quote quotes, others]
        rfl
    next other =>
      have others := ih later (by omega)
      rcases first with plain | rfl
      · have newline : c ≠ '\n' := ne_of_kind plain rfl
        have carriage : c ≠ '\r' := ne_of_kind plain rfl
        simp [longLiteral?, other, carriage, plain, others, followed]
      · simp [longLiteral?, others, followed]

/-! ### Any form -/

section Any

variable {mark : Char} {text rest : List Char}

/-- One text on a line does not begin like one over several lines. -/
theorem not_prefix_closed {written : List Char} (first : written.head? ≠ some mark) (ends : rest.head? ≠ some mark) :
    ¬ [mark, mark] <+: written ++ mark :: rest := by
  intro marks
  cases written with
  | nil =>
    cases rest with
    | nil => simp at marks
    | cons d rest => exact ends (by simpa [eq_comm] using marks)
  | cons c written =>
    obtain ⟨rfl, -⟩ : mark = c ∧ _ := by simpa using marks
    exact first rfl

theorem text?_double (single : ¬ ['"', '"'] <+: rest) : text? ('"' :: rest) = text?.named (quoted? rest) := by
  rw [text?.eq_def]
  split
  case h_3 =>
    rename_i same
    rw [(List.cons.inj same).2]
  all_goals simp_all

theorem text?_single (single : ¬ ['\'', '\''] <+: rest) : text? ('\'' :: rest) = text?.named (literal? rest) := by
  rw [text?.eq_def]
  split
  case h_4 =>
    rename_i same
    rw [(List.cons.inj same).2]
  all_goals simp_all

theorem text?_quoted (text : List Char) (ends : rest.head? ≠ some '"') :
    text? (TextForm.quoted.write text ++ rest) = some (String.ofList text, rest) := by
  have written : TextForm.quoted.write text ++ rest = '"' :: (text.flatMap escape ++ '"' :: rest) := by
    simp [TextForm.write]
  have first : (text.flatMap escape).head? ≠ some '"' := by
    cases text with
    | nil => exact nofun
    | cons c text =>
      obtain ⟨first, more, stands, apart⟩ := head_escape c
      simp only [List.mem_cons, not_or] at apart
      simp [stands, apart]
  rw [written, text?_double (not_prefix_closed first ends), quoted?_flatMap_escape]
  rfl

theorem text?_literal (plain : ∀ c ∈ text, isPlain c = true) (unquoted : '\'' ∉ text) (ends : rest.head? ≠ some '\'') :
    text? (TextForm.literal.write text ++ rest) = some (String.ofList text, rest) := by
  have written : TextForm.literal.write text ++ rest = '\'' :: (text ++ '\'' :: rest) := by simp [TextForm.write]
  have first : text.head? ≠ some '\'' := fun same => unquoted (List.mem_of_mem_head? same)
  rw [written, text?_single (not_prefix_closed first ends), literal?_append plain unquoted]
  rfl

/-- The newline that is dropped is the one that is written for it. -/
theorem dropNewline_opening {body : List Char} (first : '\n' ∉ text → ∀ c ∈ body.head?, c ∉ ['\n', '\r']) :
    dropNewline ((if '\n' ∈ text then ['\n'] else []) ++ body) = body := by
  split
  next => rfl
  next single =>
    have other := first single
    match body with
    | [] => rfl
    | c :: body =>
      have apart := other c rfl
      simp only [List.mem_cons, List.not_mem_nil, or_false, not_or] at apart
      have stays : newline? (c :: body) = none := by
        unfold newline?
        split
        all_goals simp_all
      rw [List.nil_append, dropNewline, stays, Option.getD_none]

theorem text?_longQuoted (text : List Char) (ends : rest.head? ≠ some '"') :
    text? (TextForm.longQuoted.write text ++ rest) = some (String.ofList text, rest) := by
  have written : TextForm.longQuoted.write text ++ rest = '"' :: '"' :: '"' ::
      ((if '\n' ∈ text then ['\n'] else []) ++ (escapeLong 0 text ++ '"' :: '"' :: '"' :: rest)) := by
    simp [TextForm.write, opening]
  have first (single : '\n' ∉ text) :
      ∀ c ∈ (escapeLong 0 text ++ '"' :: '"' :: '"' :: rest).head?, c ∉ ['\n', '\r'] := by
    cases text with
    | nil => simp [escapeLong]
    | cons c text =>
      obtain ⟨other, -⟩ := not_or.mp (mt List.mem_cons.mpr single)
      obtain ⟨first, more, stands, apart⟩ := head_escape c
      simp only [List.mem_cons, List.not_mem_nil, or_false, not_or] at apart
      by_cases quote : c = '"'
      · simp [escapeLong, quote]
      · simp [escapeLong, quote, Ne.symm other, stands, apart]
  rw [written]
  show text?.named (longQuoted? false (dropNewline _)) = _
  rw [dropNewline_opening first, longQuoted?_escapeLong 0 text ends]
  rfl

theorem text?_longLiteral (shown : ∀ c ∈ text, isPlain c = true ∨ c = '\n') (few : longestRun '\'' 0 text ≤ 2)
    (ends : rest.head? ≠ some '\'') :
    text? (TextForm.longLiteral.write text ++ rest) = some (String.ofList text, rest) := by
  have written : TextForm.longLiteral.write text ++ rest = '\'' :: '\'' :: '\'' ::
      ((if '\n' ∈ text then ['\n'] else []) ++ (text ++ '\'' :: '\'' :: '\'' :: rest)) := by
    simp [TextForm.write, opening]
  have first (single : '\n' ∉ text) : ∀ c ∈ (text ++ '\'' :: '\'' :: '\'' :: rest).head?, c ∉ ['\n', '\r'] := by
    cases text with
    | nil => simp
    | cons c text =>
      obtain ⟨other, -⟩ := not_or.mp (mt List.mem_cons.mpr single)
      have plain : isPlain c = true := (shown c (List.mem_cons_self ..)).resolve_right (Ne.symm other)
      have carriage : c ≠ '\r' := ne_of_kind plain rfl
      simp [Ne.symm other, carriage]
  rw [written]
  show text?.named (longLiteral? (dropNewline _)) = _
  rw [dropNewline_opening first, longLiteral?_append shown few ends]
  rfl

/-- A text is read back from the form in which it is written, unless a quote follows. -/
theorem text?_write (text : List Char) (double : rest.head? ≠ some '"') (single : rest.head? ≠ some '\'') :
    text? ((TextForm.of text).write text ++ rest) = some (String.ofList text, rest) := by
  have shown_of (shown : text.all (fun c => isPlain c || c = '\n') = true) :
      ∀ c ∈ text, isPlain c = true ∨ c = '\n' := by
    simpa using shown
  unfold TextForm.of
  dsimp only
  split
  next => exact text?_quoted text double
  next =>
    split
    next literal =>
      simp only [Bool.and_eq_true, decide_eq_true_eq] at literal
      obtain ⟨⟨shown, oneLine⟩, unquoted⟩ := literal
      refine text?_literal (fun c inside => ?_) unquoted single
      exact (shown_of shown c inside).resolve_right fun newline => oneLine (newline ▸ inside)
    next =>
      split
      next => exact text?_longQuoted text double
      next =>
        split
        next literal =>
          simp only [Bool.and_eq_true, decide_eq_true_eq] at literal
          exact text?_longLiteral (shown_of literal.1) literal.2 single
        next =>
          split
          next => exact text?_quoted text double
          next => exact text?_longQuoted text double

end Any

end ShellCompletion.Document
