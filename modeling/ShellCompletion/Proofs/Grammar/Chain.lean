import ShellCompletion.Grammar.Declaration

/-!
# Chains and their texts

Reading accepts exactly the texts that chains are written as: `readActions_ok_iff` says so of whole
chains, `readAction_ok_iff` of single actions. A chain that was read is determined by its text.
-/

namespace ShellCompletion

open Declaration

theorem bind_ok {ε α β : Type} {x : Except ε α} {f : α → Except ε β} {b : β} :
    (x >>= f) = .ok b ↔ ∃ a, x = .ok a ∧ f a = .ok b := by
  cases x with
  | error e => simp [bind, Except.bind]
  | ok a => simp [bind, Except.bind]

theorem map_ok {ε α β : Type} {x : Except ε α} {f : α → β} {b : β} :
    (f <$> x) = .ok b ↔ ∃ a, x = .ok a ∧ f a = b := by
  cases x with
  | error e => simp [Functor.map, Except.map]
  | ok a => simp [Functor.map, Except.map]

/-! ### Names -/

theorem all_nameChar {text : List Char} (named : isName text = true) :
    text.all isNameChar = true := by
  cases text with
  | nil => cases named
  | cons c rest =>
    obtain ⟨first, later⟩ := Bool.and_eq_true_iff.mp named
    have start : isNameChar c = true := by
      rcases Bool.or_eq_true_iff.mp first with letter | line
      · simp [isNameChar, letter]
      · simp [isNameChar, line]
    simp [start, later]

theorem not_mem_name {text : List Char} (mark : Char) (named : isName text = true)
    (outside : isNameChar mark = false) : mark ∉ text := by
  intro member
  have inside := List.all_eq_true.mp (all_nameChar named) mark member
  rw [outside] at inside
  cases inside

theorem readName_ok_iff {text : List Char} {name : String} :
    readName text = .ok name ↔ isName name.toList = true ∧ name.toList = text := by
  unfold readName
  constructor
  · intro h
    split at h
    next named =>
      obtain rfl := Except.ok.inj h
      exact ⟨by rwa [String.toList_ofList], String.toList_ofList⟩
    next => cases h
  · rintro ⟨named, rfl⟩
    rw [if_pos named, String.ofList_toList]

/-! ### Actions -/

/-- The state or function that the action mentions has a name of the token language. -/
def Action.WellFormed : Action → Prop
  | .state name => isName name.toList = true
  | .function name => isName name.toList = true
  | .literal => True
  | .nothing => True

theorem readAction_ok_iff {text : List Char} {action : Action} :
    readAction text = .ok action ↔ action.WellFormed ∧ action.text.toList = text := by
  constructor
  · intro h
    unfold readAction at h
    split at h
    next blank =>
      obtain rfl := Except.ok.inj h
      exact ⟨trivial, (List.reverse_eq_nil_iff.mp blank).symm⟩
    next dash =>
      obtain rfl := Except.ok.inj h
      exact ⟨trivial, (List.reverse_eq_iff.mp dash).symm⟩
    next name call =>
      obtain ⟨read, named, rfl⟩ := map_ok.mp h
      obtain ⟨wellFormed, same⟩ := readName_ok_iff.mp named
      refine ⟨wellFormed, ?_⟩
      rw [Action.text, String.toList_append, same, List.reverse_eq_iff.mp call]
      simp
    next =>
      split at h
      next => cases h
      next =>
        obtain ⟨read, named, rfl⟩ := map_ok.mp h
        exact readName_ok_iff.mp named
  · rintro ⟨wellFormed, rfl⟩
    cases action with
    | literal => rfl
    | nothing => rfl
    | function name =>
      have whole : (Action.function name).text.toList.reverse = ')' :: '(' :: name.toList.reverse := by
        simp [Action.text]
      unfold readAction
      rw [whole]
      simp only [List.reverse_reverse]
      exact map_ok.mpr ⟨name, readName_ok_iff.mpr ⟨wellFormed, rfl⟩, rfl⟩
    | state name =>
      change isName name.toList = true at wellFormed
      unfold readAction
      rw [show (Action.state name).text = name from rfl]
      split
      next blank => rw [List.reverse_eq_nil_iff.mp blank] at wellFormed; cases wellFormed
      next dash => rw [List.reverse_eq_iff.mp dash] at wellFormed; exact absurd wellFormed (by decide)
      next call =>
        refine absurd (List.mem_reverse.mp ?_) (not_mem_name ')' wellFormed (by decide))
        rw [call]
        exact List.mem_cons_self ..
      next =>
        rw [if_neg (not_mem_name '(' wellFormed (by decide))]
        exact map_ok.mpr ⟨name, readName_ok_iff.mpr ⟨wellFormed, rfl⟩, rfl⟩

/-- No action is written with a colon, and none begins with a star. -/
theorem Action.WellFormed.plain {action : Action} (wellFormed : action.WellFormed) :
    ':' ∉ action.text.toList ∧ ∀ body, action.text.toList ≠ '*' :: body := by
  have noStar {name : String} {text : List Char} (named : isName name.toList = true) :
      ∀ body, name.toList ++ text ≠ '*' :: body := by
    intro body same
    cases whole : name.toList with
    | nil => rw [whole] at named; cases named
    | cons c rest =>
      rw [whole] at same
      refine not_mem_name '*' named (by decide) ?_
      rw [whole, (List.cons.inj same).1]
      exact List.mem_cons_self ..
  cases action with
  | literal => exact ⟨by decide, fun body same => absurd (List.cons.inj same).1 (by decide)⟩
  | nothing => exact ⟨by decide, fun body same => by cases same⟩
  | state name =>
    refine ⟨not_mem_name ':' wellFormed (by decide), fun body => ?_⟩
    rw [← List.append_nil (state name).text.toList]
    exact noStar wellFormed body
  | function name =>
    have text : (Action.function name).text.toList = name.toList ++ ['(', ')'] := by
      simp [Action.text]
    rw [text]
    refine ⟨?_, noStar wellFormed⟩
    simpa using not_mem_name ':' wellFormed (by decide)

/-! ### Chains -/

namespace Chain

def WellFormed (chain : Chain) : Prop := ∀ action ∈ chain.actions, action.WellFormed

/-- The texts that stand between the colons of a chain. -/
def parts (chain : Chain) : List (List Char) :=
  chain.fixed.map (·.text.toList) ++ chain.tail.toList.map ('*' :: ·.text.toList)

theorem toList_text (chain : Chain) : chain.text.toList = [':'].intercalate chain.parts := by
  simp [text, parts, Function.comp_def]

theorem parts_eq_nil_iff {chain : Chain} : chain.parts = [] ↔ chain.isEmpty = true := by
  simp [parts, isEmpty, actions]

theorem eq_empty {chain : Chain} (blank : chain.isEmpty = true) : chain = {} := by
  obtain ⟨fixed, tail⟩ := chain
  simp only [isEmpty, actions, List.isEmpty_iff, List.append_eq_nil_iff, Option.toList_eq_nil_iff] at blank
  obtain ⟨rfl, rfl⟩ := blank
  rfl

theorem isEmpty_iff_size {chain : Chain} : chain.isEmpty = true ↔ chain.size = 0 := by
  simp [isEmpty, size]

theorem colon_not_mem_parts {chain : Chain} (wellFormed : chain.WellFormed) :
    ∀ part ∈ chain.parts, ':' ∉ part := by
  intro part member
  rcases List.mem_append.mp member with before | last
  · obtain ⟨action, inside, rfl⟩ := List.mem_map.mp before
    exact (wellFormed action (List.mem_append_left _ inside)).plain.1
  · obtain ⟨action, inside, rfl⟩ := List.mem_map.mp last
    have absent := (wellFormed action (List.mem_append_right _ inside)).plain.1
    simpa using absent

theorem WellFormed.cons_iff {action : Action} {fixed : List Action} {tail : Option Action} :
    WellFormed ⟨action :: fixed, tail⟩ ↔ action.WellFormed ∧ WellFormed ⟨fixed, tail⟩ := by
  simp [WellFormed, actions]

end Chain

theorem readChain_ok {parts : List (List Char)} {chain : Chain} (h : readChain parts = .ok chain) :
    chain.WellFormed ∧ chain.parts = parts := by
  induction parts using readChain.induct generalizing chain with
  | case1 =>
    obtain rfl := Except.ok.inj h
    exact ⟨by simp [Chain.WellFormed, Chain.actions], rfl⟩
  | case2 body =>
    obtain ⟨action, read, h⟩ := bind_ok.mp h
    obtain rfl := Except.ok.inj h
    obtain ⟨wellFormed, text⟩ := readAction_ok_iff.mp read
    exact ⟨by simpa [Chain.WellFormed, Chain.actions] using wellFormed, by simp [Chain.parts, text]⟩
  | case3 body rest more =>
    rw [readChain.eq_def] at h
    simp at h
  | case4 body rest noTail noStar ih =>
    rw [readChain.eq_4 _ _ noTail noStar] at h
    obtain ⟨action, first, h⟩ := bind_ok.mp h
    obtain ⟨later, read, h⟩ := bind_ok.mp h
    obtain rfl := Except.ok.inj h
    obtain ⟨wellFormed, text⟩ := readAction_ok_iff.mp first
    obtain ⟨laterWellFormed, laterParts⟩ := ih read
    refine ⟨Chain.WellFormed.cons_iff.mpr ⟨wellFormed, laterWellFormed⟩, ?_⟩
    simp [Chain.parts, text, ← laterParts]

theorem readChain_parts {chain : Chain} (wellFormed : chain.WellFormed) :
    readChain chain.parts = .ok chain := by
  obtain ⟨fixed, tail⟩ := chain
  induction fixed with
  | nil =>
    cases tail with
    | none => rfl
    | some action =>
      have read : readAction action.text.toList = .ok action :=
        readAction_ok_iff.mpr ⟨wellFormed action (by simp [Chain.actions]), rfl⟩
      exact bind_ok.mpr ⟨action, read, rfl⟩
  | cons action fixed ih =>
    obtain ⟨first, later⟩ := Chain.WellFormed.cons_iff.mp wellFormed
    have plain := first.plain.2
    change readChain (action.text.toList :: Chain.parts ⟨fixed, tail⟩) = _
    rw [readChain.eq_4 _ _ (fun body same _ => plain body same) plain]
    exact bind_ok.mpr ⟨action, readAction_ok_iff.mpr ⟨first, rfl⟩, bind_ok.mpr ⟨_, ih later, rfl⟩⟩

theorem readChain_ok_iff {parts : List (List Char)} {chain : Chain} :
    readChain parts = .ok chain ↔ chain.WellFormed ∧ chain.parts = parts := by
  constructor
  · exact readChain_ok
  · rintro ⟨wellFormed, rfl⟩
    exact readChain_parts wellFormed

/-- The actions of a token are read exactly from the text of a chain that is not empty. -/
theorem readActions_ok_iff {text : List Char} {chain : Chain} :
    readActions text = .ok chain ↔
      chain.WellFormed ∧ chain.isEmpty = false ∧ chain.text.toList = text := by
  rw [readActions, readChain_ok_iff, Chain.toList_text]
  constructor
  · rintro ⟨wellFormed, parts⟩
    have filled : chain.isEmpty = false := by
      rw [← Bool.not_eq_true, ← Chain.parts_eq_nil_iff, parts]
      exact List.splitOn_ne_nil ':' text
    exact ⟨wellFormed, filled, by rw [parts, List.intercalate_splitOn]⟩
  · rintro ⟨wellFormed, filled, rfl⟩
    have someParts : chain.parts ≠ [] := by
      rw [ne_eq, Chain.parts_eq_nil_iff, filled]
      exact Bool.false_ne_true
    exact ⟨wellFormed, (List.splitOn_intercalate ':' (Chain.colon_not_mem_parts wellFormed) someParts).symm⟩

/-- The text of a chain begins with a star only if its tail is all there is. -/
theorem Chain.head?_text {chain : Chain} (wellFormed : chain.WellFormed) :
    chain.text.toList.head? = some '*' ↔ chain.onlyTail = true := by
  obtain ⟨fixed, tail⟩ := chain
  rw [toList_text]
  cases fixed with
  | nil => cases tail <;> simp [parts, onlyTail]
  | cons action fixed =>
    refine ⟨fun star => ?_, fun only => by simp [onlyTail] at only⟩
    have plain := (WellFormed.cons_iff.mp wellFormed).1.plain.2
    have shape : parts ⟨action :: fixed, tail⟩ = action.text.toList :: parts ⟨fixed, tail⟩ := rfl
    rw [shape] at star
    -- An empty first action is followed by a colon or by nothing at all.
    cases first : action.text.toList with
    | cons c body =>
      cases later : parts ⟨fixed, tail⟩ <;> simp_all
    | nil =>
      cases later : parts ⟨fixed, tail⟩ <;> simp_all

/-- Chains that can be read are told apart by their length and text. -/
theorem Chain.eq_of_text {a b : Chain} (left : a.WellFormed) (right : b.WellFormed)
    (size : a.size = b.size) (text : a.text = b.text) : a = b := by
  cases blank : a.isEmpty with
  | true =>
    have other : b.isEmpty = true := by
      rw [isEmpty_iff_size, ← size, ← isEmpty_iff_size, blank]
    rw [eq_empty blank, eq_empty other]
  | false =>
    have filled : b.isEmpty = false := by
      rw [← Bool.not_eq_true, isEmpty_iff_size, ← size, ← isEmpty_iff_size, blank]
      exact Bool.false_ne_true
    have readLeft := readActions_ok_iff.mpr ⟨left, blank, rfl⟩
    rw [text, readActions_ok_iff.mpr ⟨right, filled, rfl⟩] at readLeft
    exact (Except.ok.inj readLeft).symm

end ShellCompletion
