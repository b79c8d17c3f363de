import ShellCompletion.Proofs.Grammar.Declaration

/-!
# The language of tokens

`TokenText sets text declaration` holds if `text` is a token that means `declaration` where the named
sets are `sets`; its rules are those of the token language and do not mention a reader. Reading accepts
the texts of the language (`exists_read`) and no others (`tokenText_of_read`).
-/

namespace ShellCompletion.Language

open Text Declaration

/-! ### The rules -/

inductive NameText : List Char → Prop where
  | intro {first : Char} {rest : List Char} :
    isAlphanumeric first = true ∨ first = '_' →
    (∀ c ∈ rest, isAlphanumeric c = true ∨ c ∈ ['_', '-', '.']) → NameText (first :: rest)

inductive SpellingText : List Char → Prop where
  | intro {rest : List Char} : rest ≠ [] →
    (∀ c ∈ rest, isBlank c = false ∧ c ∉ ['{', '}', ',', ':', '(', ')']) → SpellingText ('-' :: rest)

inductive ActionText : List Char → Action → Prop where
  | nothing : ActionText [] .nothing
  | literal : ActionText ['-'] .literal
  | state {name : String} : NameText name.toList → ActionText name.toList (.state name)
  | function {name : String} :
    NameText name.toList → ActionText (name.toList ++ ['(', ')']) (.function name)

/-- Actions between colons; a star may stand before the last of them and no other. -/
inductive ActionsText : List Char → Chain → Prop where
  | last {text : List Char} {action : Action} : ActionText text action → ActionsText text ⟨[action], none⟩
  | tail {text : List Char} {action : Action} :
    ActionText text action → ActionsText ('*' :: text) ⟨[], some action⟩
  | cons {text later : List Char} {action : Action} {fixed : List Action} {tail : Option Action} :
    ActionText text action → ActionsText later ⟨fixed, tail⟩ →
    ActionsText (text ++ ':' :: later) ⟨action :: fixed, tail⟩

/-- The colon and the actions after a flag, if it lists any. -/
inductive SuffixText : List Char → Option Chain → Prop where
  | absent : SuffixText [] none
  | present {text : List Char} {chain : Chain} :
    ActionsText text chain → SuffixText (':' :: text) (some chain)

inductive StarText : List Char → Bool → Prop where
  | absent : StarText [] false
  | present : StarText ['*'] true

inductive GroupText : List Char → Option String → Prop where
  | absent : GroupText [] none
  | present {id : List Char} : ')' ∉ id → (∃ c ∈ id, isBlank c = false) →
    GroupText ('(' :: (id ++ [')'])) (some (String.ofList (trim id)))

section Sets

variable (sets : String → Option (List String))

/-- An item of a brace list, between blanks. A set has to be known and stands for its content. -/
inductive ItemText : List Char → List String → Prop where
  | spelling {before text after : List Char} :
    (∀ c ∈ before, isBlank c = true) → (∀ c ∈ after, isBlank c = true) → SpellingText text →
    ItemText (before ++ text ++ after) [String.ofList text]
  | set {before name after : List Char} {members : List String} :
    (∀ c ∈ before, isBlank c = true) → (∀ c ∈ after, isBlank c = true) → NameText name →
    sets (String.ofList name) = some members → ItemText (before ++ '@' :: name ++ after) members

/-- Items between commas. -/
inductive ItemsText : List Char → List String → Prop where
  | last {text : List Char} {spellings : List String} :
    ItemText sets text spellings → ItemsText text spellings
  | cons {text later : List Char} {spellings more : List String} :
    ItemText sets text spellings → ItemsText later more →
    ItemsText (text ++ ',' :: later) (spellings ++ more)

inductive SpellingsText : List Char → List String → Prop where
  | single {text : List Char} : SpellingText text → SpellingsText text [String.ofList text]
  | braces {items : List Char} {spellings : List String} :
    ItemsText sets items spellings → SpellingsText ('{' :: (items ++ ['}'])) spellings

/-- A token and what it declares. A flag mentions each of its spellings once, and at least one. -/
inductive TokenText : List Char → Declaration → Prop where
  | closeSet : TokenText ['+'] (.set none)
  | openSet {name : String} : NameText name.toList → TokenText ('+' :: name.toList) (.set (some name))
  | slot {star actions : List Char} {repeatable : Bool} {chain : Chain} :
    StarText star repeatable → ActionsText actions chain →
    TokenText (':' :: (star ++ actions)) (.slot ⟨chain, repeatable⟩)
  | flag {group star names actions : List Char} {spellings : List String} {declared : FlagDeclaration} :
    GroupText group declared.group → StarText star declared.repeatable →
    SpellingsText sets names spellings → SuffixText actions declared.chain →
    Names.addNew [] spellings = declared.spellings →
    TokenText (group ++ (star ++ (names ++ actions))) (.flag declared)

end Sets

/-! ### Names and spellings -/

theorem nameText_iff {text : List Char} : NameText text ↔ isName text = true := by
  constructor
  · rintro ⟨start, later⟩
    simpa [isName, isNameStart, isNameChar, or_assoc] using And.intro start later
  · intro named
    cases text with
    | nil => cases named
    | cons first rest =>
      have parts : (isAlphanumeric first = true ∨ first = '_') ∧
          ∀ c ∈ rest, isAlphanumeric c = true ∨ c ∈ ['_', '-', '.'] := by
        simpa [isName, isNameStart, isNameChar, or_assoc] using named
      exact .intro parts.1 parts.2

theorem spellingText_iff {text : List Char} : SpellingText text ↔ isSpelling text = true := by
  constructor
  · rintro @⟨rest, filled, plain⟩
    obtain ⟨c, later, rfl⟩ := List.exists_cons_of_ne_nil filled
    refine List.all_eq_true.mpr fun d member => ?_
    obtain ⟨clear, unmarked⟩ := plain d member
    simp only [isSpellingChar, clear, unmarked, Bool.not_false, decide_not, decide_false, Bool.and_self]
  · intro spelled
    obtain ⟨c, later, rfl, plain⟩ := spelling_shape spelled
    refine .intro (List.cons_ne_nil _ _) fun d member => ?_
    simpa [isSpellingChar] using List.all_eq_true.mp plain d member

theorem readName_ok {text : List Char} (named : NameText text) :
    readName text = .ok (String.ofList text) := by
  rw [readName, if_pos (nameText_iff.mp named)]

theorem clear_of_name {text : List Char} (named : NameText text) : ∀ c ∈ text, isBlank c = false := by
  intro c member
  have inside := List.all_eq_true.mp (all_nameChar (nameText_iff.mp named)) c member
  rw [← Bool.not_eq_true]
  intro blank
  have other := isAlphanumeric_of_isBlank blank
  have marks : c = '_' ∨ c = '-' ∨ c = '.' := by simpa [isNameChar, other, or_assoc] using inside
  rcases marks with rfl | rfl | rfl <;> exact absurd blank (by decide)

theorem clear_of_spelling {text : List Char} (spelled : SpellingText text) :
    ∀ c ∈ text, isBlank c = false := by
  intro c member
  have plain := isSpellingChar_of_mem (spellingText_iff.mp spelled) member
  simp only [isSpellingChar, Bool.and_eq_true, Bool.not_eq_true'] at plain
  exact plain.1

/-! ### Actions -/

theorem actionText_iff {text : List Char} {action : Action} :
    ActionText text action ↔ action.WellFormed ∧ action.text.toList = text := by
  constructor
  · rintro (_ | _ | named | named)
    · exact ⟨trivial, rfl⟩
    · exact ⟨trivial, rfl⟩
    · exact ⟨nameText_iff.mp named, rfl⟩
    · exact ⟨nameText_iff.mp named, by simp [Action.text]⟩
  · rintro ⟨wellFormed, rfl⟩
    cases action with
    | nothing => exact .nothing
    | literal => exact .literal
    | state name => exact .state (nameText_iff.mpr wellFormed)
    | function name =>
      have text : (Action.function name).text.toList = name.toList ++ ['(', ')'] := by simp [Action.text]
      rw [text]
      exact .function (nameText_iff.mpr wellFormed)

theorem parts_cons (action : Action) (fixed : List Action) (tail : Option Action) :
    Chain.parts ⟨action :: fixed, tail⟩ = action.text.toList :: Chain.parts ⟨fixed, tail⟩ := rfl

theorem wellFormed_of_actionsText {text : List Char} {chain : Chain} (listed : ActionsText text chain) :
    chain.WellFormed ∧ chain.isEmpty = false ∧ [':'].intercalate chain.parts = text := by
  induction listed with
  | last single =>
    obtain ⟨wellFormed, rfl⟩ := actionText_iff.mp single
    exact ⟨by simpa [Chain.WellFormed, Chain.actions] using wellFormed, rfl, by simp [Chain.parts]⟩
  | tail single =>
    obtain ⟨wellFormed, rfl⟩ := actionText_iff.mp single
    exact ⟨by simpa [Chain.WellFormed, Chain.actions] using wellFormed, rfl, by simp [Chain.parts]⟩
  | @cons text later action fixed tail single rest ih =>
    obtain ⟨first, rfl⟩ := actionText_iff.mp single
    obtain ⟨wellFormed, filled, whole⟩ := ih
    refine ⟨Chain.WellFormed.cons_iff.mpr ⟨first, wellFormed⟩, rfl, ?_⟩
    have more : Chain.parts ⟨fixed, tail⟩ ≠ [] := by
      rw [ne_eq, Chain.parts_eq_nil_iff, filled]
      exact Bool.false_ne_true
    obtain ⟨part, parts, split⟩ := List.exists_cons_of_ne_nil more
    rw [parts_cons, split, List.intercalate_cons_cons, ← split, whole, List.append_assoc]
    rfl

theorem actionsText_of_wellFormed {chain : Chain} (wellFormed : chain.WellFormed)
    (filled : chain.isEmpty = false) : ActionsText ([':'].intercalate chain.parts) chain := by
  obtain ⟨fixed, tail⟩ := chain
  induction fixed with
  | nil =>
    cases tail with
    | none => cases filled
    | some action =>
      have single : ActionText action.text.toList action :=
        actionText_iff.mpr ⟨wellFormed action (by simp [Chain.actions]), rfl⟩
      simpa [Chain.parts] using ActionsText.tail single
  | cons action fixed ih =>
    obtain ⟨first, later⟩ := Chain.WellFormed.cons_iff.mp wellFormed
    have single : ActionText action.text.toList action := actionText_iff.mpr ⟨first, rfl⟩
    cases more : Chain.isEmpty ⟨fixed, tail⟩ with
    | true =>
      obtain ⟨rfl, rfl⟩ := Chain.mk.inj (Chain.eq_empty more)
      simpa [Chain.parts] using ActionsText.last single
    | false =>
      have some : Chain.parts ⟨fixed, tail⟩ ≠ [] := by
        rw [ne_eq, Chain.parts_eq_nil_iff, more]
        exact Bool.false_ne_true
      obtain ⟨part, parts, split⟩ := List.exists_cons_of_ne_nil some
      have rest := ih later more
      rw [parts_cons, split, List.intercalate_cons_cons, ← split, List.append_assoc]
      exact .cons single rest

theorem readActions_ok_iff_actionsText {text : List Char} {chain : Chain} :
    readActions text = .ok chain ↔ ActionsText text chain := by
  rw [readActions_ok_iff, Chain.toList_text]
  constructor
  · rintro ⟨wellFormed, filled, rfl⟩
    exact actionsText_of_wellFormed wellFormed filled
  · exact wellFormed_of_actionsText

/-- A list that begins with a star is a single action with the star before it. -/
theorem exists_tail {text : List Char} {chain : Chain} (listed : ActionsText ('*' :: text) chain) :
    ∃ action, ActionText text action := by
  generalize whole : '*' :: text = letters at listed
  cases listed with
  | last single =>
    obtain ⟨wellFormed, rfl⟩ := actionText_iff.mp single
    exact absurd whole.symm (wellFormed.plain.2 text)
  | tail single =>
    obtain ⟨-, rfl⟩ := List.cons.inj whole
    exact ⟨_, single⟩
  | @cons first later action fixed tail single rest =>
    obtain ⟨wellFormed, rfl⟩ := actionText_iff.mp single
    cases shape : action.text.toList with
    | nil => rw [shape] at whole; exact absurd (List.cons.inj whole).1 (by decide)
    | cons c body =>
      rw [shape, List.cons_append] at whole
      exact absurd (by rw [shape, ← (List.cons.inj whole).1]) (wellFormed.plain.2 body)

/-! ### Brace lists -/

section Items

variable {sets : String → Option (List String)}

theorem readItem_ok {text : List Char} {spellings : List String} (item : ItemText sets text spellings) :
    readItem sets text = .ok spellings := by
  cases item with
  | @spelling before text after front back spelled =>
    have core := trim_surrounded front back (clear_of_spelling spelled) (by cases spelled; simp)
    have read : readSpelling text = .ok (String.ofList text) := by
      refine readSpelling_ok_iff.mpr ⟨?_, String.toList_ofList⟩
      rw [IsSpelling, String.toList_ofList]
      exact spellingText_iff.mp spelled
    rw [readItem, core]
    cases spelled
    exact map_ok.mpr ⟨_, read, rfl⟩
  | @set before name after members front back named found =>
    have clear : ∀ c ∈ '@' :: name, isBlank c = false := by
      intro c member
      rcases List.mem_cons.mp member with rfl | inside
      · decide
      · exact clear_of_name named c inside
    rw [readItem, trim_surrounded front back clear (List.cons_ne_nil _ _)]
    simp only [found]

/-- The sets that are known have names. -/
def NamedSets (sets : String → Option (List String)) : Prop :=
  ∀ name, (sets name).isSome = true → NameText name.toList

theorem itemText_of_read (named : NamedSets sets) {text : List Char} {spellings : List String}
    (read : readItem sets text = .ok spellings) : ItemText sets text spellings := by
  obtain ⟨before, after, front, back, whole⟩ := exists_eq_trim text
  unfold readItem at read
  split at read
  next name marked =>
    split at read
    next members found =>
      obtain rfl := Except.ok.inj read
      rw [whole, marked]
      refine .set front back ?_ found
      have known := named (String.ofList name) (by rw [found]; rfl)
      rwa [String.toList_ofList] at known
    next => cases read
  next =>
    obtain ⟨spelling, single, rfl⟩ := map_ok.mp read
    obtain ⟨spelled, same⟩ := readSpelling_ok_iff.mp single
    rw [whole, ← same]
    have item : ItemText sets _ [String.ofList spelling.toList] :=
      .spelling front back (spellingText_iff.mpr spelled)
    rwa [String.ofList_toList] at item

theorem not_mem_item {text : List Char} {spellings : List String} (item : ItemText sets text spellings)
    (mark : Char) (unspelled : isSpellingChar mark = false) (unnamed : isNameChar mark = false)
    (filled : isBlank mark = false) (other : mark ≠ '@') : mark ∉ text := by
  have apart {blanks : List Char} (blank : ∀ c ∈ blanks, isBlank c = true) : mark ∉ blanks := by
    intro member
    rw [blank mark member] at filled
    cases filled
  cases item with
  | spelling front back spelled =>
    have middle := not_mem_spelling mark (spellingText_iff.mp spelled) unspelled
    simp [apart front, apart back, middle]
  | set front back named =>
    have middle := not_mem_name mark (nameText_iff.mp named) unnamed
    simp [apart front, apart back, middle, other]

theorem readItems_ok {text : List Char} {spellings : List String} (items : ItemsText sets text spellings) :
    readItems sets (text.splitOn ',') = .ok spellings := by
  induction items with
  | last item =>
    have noComma := not_mem_item item ',' (by decide) (by decide) (by decide) (by decide)
    rw [List.splitOn_eq_singleton noComma]
    exact bind_ok.mpr ⟨_, readItem_ok item, bind_ok.mpr ⟨[], rfl, congrArg Except.ok (List.append_nil _)⟩⟩
  | cons item _ ih =>
    have noComma := not_mem_item item ',' (by decide) (by decide) (by decide) (by decide)
    rw [List.splitOn_append_cons_self_of_not_mem noComma]
    exact bind_ok.mpr ⟨_, readItem_ok item, bind_ok.mpr ⟨_, ih, rfl⟩⟩

theorem itemsText_of_read (named : NamedSets sets) {parts : List (List Char)} {spellings : List String}
    (some : parts ≠ []) (read : readItems sets parts = .ok spellings) :
    ItemsText sets ([','].intercalate parts) spellings := by
  induction parts generalizing spellings with
  | nil => exact absurd rfl some
  | cons part rest ih =>
    obtain ⟨here, first, read⟩ := bind_ok.mp read
    obtain ⟨later, others, read⟩ := bind_ok.mp read
    obtain rfl := Except.ok.inj read
    have item := itemText_of_read named first
    cases rest with
    | nil =>
      obtain rfl := Except.ok.inj others
      simpa using ItemsText.last item
    | cons second more =>
      rw [List.intercalate_cons_cons, List.append_assoc]
      exact .cons item (ih (List.cons_ne_nil _ _) others)

theorem not_mem_items {text : List Char} {spellings : List String} (items : ItemsText sets text spellings)
    (mark : Char) (unspelled : isSpellingChar mark = false) (unnamed : isNameChar mark = false)
    (filled : isBlank mark = false) (other : mark ≠ '@') (notComma : mark ≠ ',') : mark ∉ text := by
  induction items with
  | last item => exact not_mem_item item mark unspelled unnamed filled other
  | cons item _ ih => simp [not_mem_item item mark unspelled unnamed filled other, notComma, ih]

/-! ### Spellings and what follows them -/

/-- The text of a colon and what is behind it. -/
def afterColon (text : Option (List Char)) : List Char := text.elim [] (':' :: ·)

theorem readSpellings_ok {names : List Char} {spellings : List String}
    (spelled : SpellingsText sets names spellings) (marked : Bool) (actions : Option (List Char)) :
    readSpellings sets marked (names ++ afterColon actions) = .ok (spellings, actions) := by
  cases spelled with
  | single single =>
    have noColon := not_mem_spelling ':' (spellingText_iff.mp single) (by decide)
    have read : readSpelling names = .ok (String.ofList names) := by
      refine readSpelling_ok_iff.mpr ⟨?_, String.toList_ofList⟩
      rw [IsSpelling, String.toList_ofList]
      exact spellingText_iff.mp single
    cases single
    cases actions with
    | none =>
      have cut := cut?_eq_none_iff.mpr noColon
      simp only [afterColon, Option.elim_none, List.append_nil, readSpellings, cut]
      exact bind_ok.mpr ⟨_, read, rfl⟩
    | some actions =>
      have cut := cut?_append noColon actions
      simp only [List.cons_append] at cut
      simp only [afterColon, Option.elim_some, List.cons_append, readSpellings, cut]
      exact bind_ok.mpr ⟨_, read, rfl⟩
  | braces items =>
    have noBrace := not_mem_items items '}' (by decide) (by decide) (by decide) (by decide) (by decide)
    have cut := cut?_append noBrace (afterColon actions)
    simp only [List.cons_append, List.append_assoc, List.nil_append, readSpellings, cut]
    cases actions with
    | none => exact bind_ok.mpr ⟨_, readItems_ok items, rfl⟩
    | some actions => exact bind_ok.mpr ⟨_, readItems_ok items, rfl⟩

theorem spellingsText_of_read (named : NamedSets sets) {marked : Bool} {text : List Char}
    {spellings : List String} {actions : Option (List Char)}
    (read : readSpellings sets marked text = .ok (spellings, actions)) :
    ∃ names, text = names ++ afterColon actions ∧ SpellingsText sets names spellings := by
  have single {text : List Char} {spelling : String} (read : readSpelling text = .ok spelling) :
      SpellingsText sets text [spelling] := by
    obtain ⟨spelled, rfl⟩ := readSpelling_ok_iff.mp read
    have names : SpellingsText sets spelling.toList [String.ofList spelling.toList] :=
      .single (spellingText_iff.mpr spelled)
    rwa [String.ofList_toList] at names
  have several {items : List Char} {spellings : List String}
      (read : readItems sets (items.splitOn ',') = .ok spellings) : ItemsText sets items spellings := by
    have listed := itemsText_of_read named (List.splitOn_ne_nil ',' items) read
    rwa [List.intercalate_splitOn] at listed
  unfold readSpellings at read
  split at read
  next inner =>
    split at read
    next => cases read
    next items cut =>
      obtain ⟨listed, items, read⟩ := bind_ok.mp read
      obtain ⟨rfl, rfl⟩ := Prod.mk.inj (Except.ok.inj read)
      rw [(eq_of_cut? cut).1]
      exact ⟨_, (List.append_nil _).symm, .braces (several items)⟩
    next items after cut =>
      obtain ⟨listed, items, read⟩ := bind_ok.mp read
      obtain ⟨rfl, rfl⟩ := Prod.mk.inj (Except.ok.inj read)
      rw [(eq_of_cut? cut).1]
      exact ⟨_, by simp [afterColon], .braces (several items)⟩
    next => cases read
  next =>
    split at read
    next =>
      obtain ⟨spelling, spelled, read⟩ := bind_ok.mp read
      obtain ⟨rfl, rfl⟩ := Prod.mk.inj (Except.ok.inj read)
      exact ⟨_, (List.append_nil _).symm, single spelled⟩
    next text after cut =>
      obtain ⟨spelling, spelled, read⟩ := bind_ok.mp read
      obtain ⟨rfl, rfl⟩ := Prod.mk.inj (Except.ok.inj read)
      exact ⟨_, (eq_of_cut? cut).1, single spelled⟩
  next => cases read

/-- The spellings of a token begin with the dash of a single one or with the brace of several. -/
theorem head_names {names : List Char} {spellings : List String}
    (spelled : SpellingsText sets names spellings) (after : List Char) {c : Char} (notDash : c ≠ '-')
    (notBrace : c ≠ '{') : (names ++ after).head? ≠ some c := by
  cases spelled with
  | single single =>
    cases single
    simpa using notDash.symm
  | braces => simpa using notBrace.symm

end Items

theorem suffix_iff {text : Option (List Char)} {chain : Option Chain} :
    text.mapM readActions = .ok chain ↔ SuffixText (afterColon text) chain := by
  cases text with
  | none =>
    constructor
    · intro read
      obtain rfl := Except.ok.inj read
      exact .absent
    · rintro ⟨⟩
      rfl
  | some text =>
    constructor
    · intro read
      obtain ⟨actions, listed, rfl⟩ := map_ok.mp read
      exact .present (readActions_ok_iff_actionsText.mp listed)
    · rintro (_ | listed)
      exact map_ok.mpr ⟨_, readActions_ok_iff_actionsText.mpr listed, rfl⟩

theorem exists_afterColon {text : List Char} {chain : Option Chain} (suffix : SuffixText text chain) :
    ∃ actions, text = afterColon actions := by
  cases suffix with
  | absent => exact ⟨none, rfl⟩
  | present => exact ⟨some _, rfl⟩

/-! ### Groups and stars -/

theorem readGroup_ok {text rest : List Char} {group : Option String} (grouped : GroupText text group)
    (other : rest.head? ≠ some '(') : readGroup (text ++ rest) = .ok (group, rest) := by
  cases grouped with
  | absent => exact readGroup_of_other other
  | @present id closed filled =>
    have cut := cut?_append closed rest
    obtain ⟨c, member, clear⟩ := filled
    have some : trim id ≠ [] := by
      intro blank
      obtain ⟨before, after, front, back, whole⟩ := exists_eq_trim id
      rw [blank, List.append_nil] at whole
      rw [whole] at member
      have both := (List.mem_append.mp member).elim (front c) (back c)
      rw [clear] at both
      cases both
    obtain ⟨d, more, trimmed⟩ := List.exists_cons_of_ne_nil some
    simp only [List.cons_append, List.append_assoc, List.nil_append, readGroup, cut, trimmed]

theorem groupText_of_read {token rest : List Char} {group : Option String}
    (read : readGroup token = .ok (group, rest)) : ∃ text, token = text ++ rest ∧ GroupText text group := by
  unfold readGroup at read
  split at read
  next inner =>
    split at read
    next => cases read
    next id after cut =>
      split at read
      next => cases read
      next blank =>
        obtain ⟨rfl, rfl⟩ := Prod.mk.inj (Except.ok.inj read)
        obtain ⟨whole, closed⟩ := eq_of_cut? cut
        obtain ⟨c, more, trimmed⟩ := List.exists_cons_of_ne_nil blank
        have first : isBlank c = false := head_trim id c (by rw [trimmed]; rfl)
        have member : c ∈ id := (trim_sublist id).subset (by rw [trimmed]; exact List.mem_cons_self ..)
        exact ⟨'(' :: (id ++ [')']), by simp [whole], .present closed ⟨c, member, first⟩⟩
  next =>
    obtain ⟨rfl, rfl⟩ := Prod.mk.inj (Except.ok.inj read)
    exact ⟨[], rfl, .absent⟩

theorem readStar_append {star rest : List Char} {repeatable : Bool} (starred : StarText star repeatable)
    (other : rest.head? ≠ some '*') : readStar (star ++ rest) = (repeatable, rest) := by
  cases starred with
  | absent => exact readStar_of_other other
  | present => rfl

theorem head_star {star rest : List Char} {repeatable : Bool} (starred : StarText star repeatable)
    {c : Char} (notStar : c ≠ '*') (other : rest.head? ≠ some c) : (star ++ rest).head? ≠ some c := by
  cases starred with
  | absent => exact other
  | present => simpa using Ne.symm notStar

theorem starText_of_read (text : List Char) :
    ∃ star, text = star ++ (readStar text).2 ∧ StarText star (readStar text).1 := by
  unfold readStar
  split
  next => exact ⟨['*'], rfl, .present⟩
  next => exact ⟨[], rfl, .absent⟩

/-! ### Tokens -/

section Tokens

variable {sets : String → Option (List String)}

/-- A star that stands first is read as that of the slot, also where it could be that of the only
action. -/
theorem exists_readSlot {star actions : List Char} {repeatable : Bool} {chain : Chain}
    (starred : StarText star repeatable) (listed : ActionsText actions chain) :
    ∃ slot, readSlot (star ++ actions) = .ok slot := by
  by_cases first : actions.head? = some '*'
  · obtain ⟨body, rfl⟩ := List.head?_eq_some_iff.mp first
    cases starred with
    | present => exact ⟨_, bind_ok.mpr ⟨_, readActions_ok_iff_actionsText.mpr listed, rfl⟩⟩
    | absent =>
      obtain ⟨action, single⟩ := exists_tail listed
      exact ⟨_, bind_ok.mpr ⟨_, readActions_ok_iff_actionsText.mpr (.last single), rfl⟩⟩
  · refine ⟨⟨chain, repeatable⟩, ?_⟩
    rw [readSlot, readStar_append starred first]
    exact bind_ok.mpr ⟨_, readActions_ok_iff_actionsText.mpr listed, rfl⟩

theorem readFlag_ok {group star names actions : List Char} {spellings : List String}
    {declared : FlagDeclaration} (grouped : GroupText group declared.group)
    (starred : StarText star declared.repeatable) (spelled : SpellingsText sets names spellings)
    (suffix : SuffixText actions declared.chain)
    (mentioned : Names.addNew [] spellings = declared.spellings) :
    readFlag sets (group ++ (star ++ (names ++ actions))) = .ok declared := by
  obtain ⟨text, rfl⟩ := exists_afterColon suffix
  have notStar := head_names spelled (afterColon text) (c := '*') (by decide) (by decide)
  have notOpen : (star ++ (names ++ afterColon text)).head? ≠ some '(' :=
    head_star starred (by decide) (head_names spelled _ (by decide) (by decide))
  have body := readStar_append starred notStar
  refine readFlag_ok_iff.mpr ⟨_, spellings, text, readGroup_ok grouped notOpen, ?_, ?_, mentioned,
    suffix_iff.mpr suffix⟩
  · rw [body]
  · rw [body]
    exact readSpellings_ok spelled _ text

theorem head_flag {group star names : List Char} {spellings : List String} {id : Option String}
    {repeatable : Bool} (grouped : GroupText group id) (starred : StarText star repeatable)
    (spelled : SpellingsText sets names spellings) (actions : List Char) {c : Char}
    (other : c ∉ ['(', '*', '-', '{']) : (group ++ (star ++ (names ++ actions))).head? ≠ some c := by
  simp only [List.mem_cons, List.not_mem_nil, or_false, not_or] at other
  obtain ⟨notOpen, notStar, notDash, notBrace⟩ := other
  cases grouped with
  | present => simpa using Ne.symm notOpen
  | absent => exact head_star starred notStar (head_names spelled actions notDash notBrace)

/-- Every token of the language is read, as what it declares. Only of a slot there may be two readings,
since a star before its only action can be that of the slot. -/
theorem exists_read {token : String} {declaration : Declaration}
    (text : TokenText sets token.toList declaration) :
    ∃ read, Declaration.read sets token = .ok read ∧
      (read = declaration ∨ ∃ first second, declaration = .slot first ∧ read = .slot second) := by
  generalize whole : token.toList = letters at text
  cases text with
  | closeSet =>
    refine ⟨.set none, ?_, .inl rfl⟩
    simp only [Declaration.read, whole]
  | @openSet name named =>
    refine ⟨.set (some name), ?_, .inl rfl⟩
    have opened : readName name.toList = .ok name := by
      rw [readName_ok named, String.ofList_toList]
    cases shape : name.toList with
    | nil => rw [shape] at named; cases named
    | cons first rest =>
      rw [shape] at whole opened
      simp only [Declaration.read, whole]
      exact bind_ok.mpr ⟨name, opened, rfl⟩
  | slot starred listed =>
    obtain ⟨slot, read⟩ := exists_readSlot starred listed
    refine ⟨.slot slot, ?_, .inr ⟨_, _, rfl, rfl⟩⟩
    simp only [Declaration.read, whole]
    exact map_ok.mpr ⟨slot, read, rfl⟩
  | @flag group star names actions spellings declared grouped starred spelled suffix mentioned =>
    refine ⟨.flag declared, ?_, .inl rfl⟩
    have read := readFlag_ok grouped starred spelled suffix mentioned
    have notPlus := head_flag grouped starred spelled actions (c := '+') (by decide)
    have notColon := head_flag grouped starred spelled actions (c := ':') (by decide)
    rw [← whole] at read notPlus notColon
    unfold Declaration.read
    split
    next blank => rw [blank] at read; cases read
    next plus => rw [plus] at notPlus; exact absurd rfl notPlus
    next plus => rw [plus] at notPlus; exact absurd rfl notPlus
    next colon => rw [colon] at notColon; exact absurd rfl notColon
    next => exact map_ok.mpr ⟨declared, read, rfl⟩

theorem tokenText_of_read (named : NamedSets sets) {token : String} {declaration : Declaration}
    (read : Declaration.read sets token = .ok declaration) :
    TokenText sets token.toList declaration := by
  unfold Declaration.read at read
  split at read
  next => cases read
  next plus =>
    obtain rfl := Except.ok.inj read
    rw [plus]
    exact .closeSet
  next name _ plus =>
    obtain ⟨read, opened, same⟩ := bind_ok.mp read
    obtain rfl := Except.ok.inj same
    obtain ⟨wellFormed, same⟩ := readName_ok_iff.mp opened
    rw [plus, ← same]
    exact .openSet (nameText_iff.mpr wellFormed)
  next body colon =>
    obtain ⟨slot, slotRead, rfl⟩ := map_ok.mp read
    obtain ⟨chain, listed, same⟩ := bind_ok.mp slotRead
    obtain rfl := Except.ok.inj same
    obtain ⟨star, whole, starred⟩ := starText_of_read body
    have actions : ActionsText (readStar body).2 chain := readActions_ok_iff_actionsText.mp listed
    have text : TokenText sets _ (.slot ⟨chain, (readStar body).1⟩) := .slot starred actions
    rw [← whole] at text
    rwa [colon]
  next =>
    obtain ⟨declared, flagRead, rfl⟩ := map_ok.mp read
    obtain ⟨rest, spellings, actions, grouped, starred, spelled, names, chained⟩ :=
      readFlag_ok_iff.mp flagRead
    obtain ⟨group, whole, groupText⟩ := groupText_of_read grouped
    obtain ⟨star, split, starText⟩ := starText_of_read rest
    obtain ⟨text, parts, spellingsText⟩ := spellingsText_of_read named spelled
    rw [starred] at starText
    rw [whole, split, parts]
    exact .flag groupText starText spellingsText (suffix_iff.mp chained) names

end Tokens

end ShellCompletion.Language
