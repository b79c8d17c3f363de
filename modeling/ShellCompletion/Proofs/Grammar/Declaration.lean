import ShellCompletion.Grammar.Compile
import ShellCompletion.Grammar.Printer
import ShellCompletion.Proofs.Grammar.Chain
import ShellCompletion.Proofs.Text.Marks

/-!
# What a token declares

Every declaration that is read is well-formed (`read_wellFormed`). Conversely the token that a
well-formed flag or slot is written as reads back as its declaration (`read_flag_token`,
`read_slot_token`).
-/

namespace ShellCompletion

open Text Declaration

/-! ### Well-formed parts -/

/-- A dash and at least one further character, none of them blank or a mark of the token language. -/
abbrev IsSpelling (text : String) : Prop := isSpelling text.toList = true

/-- What stands between the brackets of a group: not blank, without blanks around it and without the
closing bracket. -/
def IsGroupId (id : List Char) : Prop := id ≠ [] ∧ trim id = id ∧ ')' ∉ id

structure FlagDeclaration.WellFormed (declared : FlagDeclaration) : Prop where
  spelled : ∀ spelling ∈ declared.spellings, IsSpelling spelling
  distinct : declared.spellings.Nodup
  grouped : ∀ id ∈ declared.group, IsGroupId id.toList
  chained : ∀ chain ∈ declared.chain, chain.WellFormed ∧ chain.isEmpty = false

/-- A star before a single action marks the slot, so only the chain of a repeatable slot can begin
with its tail. -/
structure Slot.WellFormed (slot : Slot) : Prop where
  chained : slot.chain.WellFormed
  filled : slot.chain.isEmpty = false
  starred : slot.chain.onlyTail = true → slot.repeatable = true

structure Flag.WellFormed (flag : Flag) : Prop where
  spelled : ∀ spelling ∈ flag.spellings, IsSpelling spelling
  distinct : flag.spellings.Nodup
  grouped : ∀ id ∈ flag.explicitGroup, IsGroupId id.toList
  chained : flag.chain.WellFormed

def Declaration.WellFormed : Declaration → Prop
  | .set _ => True
  | .slot added => added.WellFormed
  | .flag declared => declared.WellFormed

/-! ### Spellings -/

theorem spelling_shape {text : List Char} (spelled : isSpelling text = true) :
    ∃ c rest, text = '-' :: c :: rest ∧ (c :: rest).all isSpellingChar = true := by
  unfold isSpelling at spelled
  split at spelled
  next c rest => exact ⟨c, rest, rfl, spelled⟩
  next => cases spelled

theorem isSpellingChar_of_mem {text : List Char} {c : Char} (spelled : isSpelling text = true)
    (member : c ∈ text) : isSpellingChar c = true := by
  obtain ⟨second, rest, rfl, plain⟩ := spelling_shape spelled
  rcases List.mem_cons.mp member with rfl | later
  · decide
  · exact List.all_eq_true.mp plain c later

theorem not_mem_spelling {text : List Char} (mark : Char) (spelled : isSpelling text = true)
    (outside : isSpellingChar mark = false) : mark ∉ text := by
  intro member
  rw [isSpellingChar_of_mem spelled member] at outside
  cases outside

theorem trim_spelling {text : List Char} (spelled : isSpelling text = true) : trim text = text := by
  apply trim_eq_self
  intro c member
  have plain := isSpellingChar_of_mem spelled member
  simp only [isSpellingChar, Bool.and_eq_true, Bool.not_eq_true'] at plain
  exact plain.1

theorem readSpelling_ok_iff {text : List Char} {spelling : String} :
    readSpelling text = .ok spelling ↔ IsSpelling spelling ∧ spelling.toList = text := by
  unfold readSpelling
  constructor
  · intro h
    split at h
    next => cases h
    next =>
      split at h
      next spelled =>
        obtain rfl := Except.ok.inj h
        exact ⟨by rwa [IsSpelling, String.toList_ofList], String.toList_ofList⟩
      next => cases h
  · rintro ⟨spelled, rfl⟩
    obtain ⟨c, rest, shape, _⟩ := spelling_shape spelled
    rw [if_neg (by rw [shape]; exact Bool.false_ne_true), if_pos spelled, String.ofList_toList]

/-! ### Brace lists -/

/-- The named sets hold nothing but spellings. -/
def SpelledSets (sets : String → Option (List String)) : Prop :=
  ∀ name, ∀ members ∈ sets name, ∀ spelling ∈ members, IsSpelling spelling

theorem readItem_spelled {sets : String → Option (List String)} (known : SpelledSets sets)
    {item : List Char} {spellings : List String} (h : readItem sets item = .ok spellings) :
    ∀ spelling ∈ spellings, IsSpelling spelling := by
  unfold readItem at h
  split at h
  next name _ =>
    split at h
    next members found =>
      obtain rfl := Except.ok.inj h
      exact known _ members found
    next => cases h
  next =>
    obtain ⟨single, read, rfl⟩ := map_ok.mp h
    intro spelling member
    obtain rfl := List.mem_singleton.mp member
    exact (readSpelling_ok_iff.mp read).1

theorem readItems_spelled {sets : String → Option (List String)} (known : SpelledSets sets)
    {items : List (List Char)} {spellings : List String} (h : readItems sets items = .ok spellings) :
    ∀ spelling ∈ spellings, IsSpelling spelling := by
  induction items generalizing spellings with
  | nil =>
    obtain rfl := Except.ok.inj h
    simp
  | cons item rest ih =>
    obtain ⟨here, read, h⟩ := bind_ok.mp h
    obtain ⟨later, readLater, h⟩ := bind_ok.mp h
    obtain rfl := Except.ok.inj h
    intro spelling member
    rcases List.mem_append.mp member with first | other
    · exact readItem_spelled known read spelling first
    · exact ih readLater spelling other

theorem readItems_spellings (sets : String → Option (List String)) {spellings : List String}
    (spelled : ∀ spelling ∈ spellings, IsSpelling spelling) :
    readItems sets (spellings.map String.toList) = .ok spellings := by
  induction spellings with
  | nil => rfl
  | cons spelling rest ih =>
    have first := spelled spelling (List.mem_cons_self ..)
    obtain ⟨c, more, shape, _⟩ := spelling_shape first
    have read := readSpelling_ok_iff.mpr ⟨first, rfl⟩
    have item : readItem sets spelling.toList = .ok [spelling] := by
      rw [readItem, trim_spelling first]
      rw [shape] at read ⊢
      exact map_ok.mpr ⟨spelling, read, rfl⟩
    have later := ih fun other member => spelled other (List.mem_cons_of_mem _ member)
    exact bind_ok.mpr ⟨[spelling], item, bind_ok.mpr ⟨rest, later, rfl⟩⟩

/-! ### Groups and stars -/

theorem readGroup_grouped {token rest : List Char} {group : Option String}
    (h : readGroup token = .ok (group, rest)) : ∀ id ∈ group, IsGroupId id.toList := by
  unfold readGroup at h
  split at h
  next inner =>
    split at h
    next => cases h
    next id after cut =>
      split at h
      next => cases h
      next marked =>
        obtain ⟨rfl, rfl⟩ := Prod.mk.inj (Except.ok.inj h)
        intro id same
        obtain rfl := Option.some.inj same
        rw [String.toList_ofList]
        refine ⟨by simpa using marked, trim_trim _, fun member => ?_⟩
        exact (eq_of_cut? cut).2 ((trim_sublist _).subset member)
  next =>
    obtain ⟨rfl, rfl⟩ := Prod.mk.inj (Except.ok.inj h)
    simp

theorem readGroup_of_group {id : String} (grouped : IsGroupId id.toList) (rest : List Char) :
    readGroup ('(' :: (id.toList ++ ')' :: rest)) = .ok (some id, rest) := by
  obtain ⟨filled, trimmed, open_⟩ := grouped
  simp only [readGroup, cut?_append open_, trimmed, String.ofList_toList]

theorem readGroup_of_other {token : List Char} (other : token.head? ≠ some '(') :
    readGroup token = .ok (none, token) := by
  unfold readGroup
  split
  next => exact absurd rfl other
  next => rfl

theorem readStar_of_other {text : List Char} (other : text.head? ≠ some '*') :
    readStar text = (false, text) := by
  unfold readStar
  split
  next => exact absurd rfl other
  next => rfl

/-! ### Slots -/

theorem Slot.toList_token (slot : Slot) :
    slot.token.toList =
      ':' :: ((if slot.repeatable then ['*'] else []) ++ slot.chain.text.toList) := by
  cases marked : slot.repeatable <;> simp [Slot.token, marked]

theorem readSlot_ok_iff {text : List Char} {slot : Slot} :
    readSlot text = .ok slot ↔ slot.WellFormed ∧ slot.token.toList = ':' :: text := by
  rw [Slot.toList_token, List.cons_inj_right]
  constructor
  · intro h
    by_cases star : text.head? = some '*'
    · obtain ⟨body, rfl⟩ := List.head?_eq_some_iff.mp star
      obtain ⟨chain, read, h⟩ := bind_ok.mp h
      obtain rfl := Except.ok.inj h
      obtain ⟨wellFormed, filled, written⟩ := readActions_ok_iff.mp read
      exact ⟨⟨wellFormed, filled, fun _ => rfl⟩, congrArg ('*' :: ·) written⟩
    · rw [readSlot, readStar_of_other star] at h
      obtain ⟨chain, read, h⟩ := bind_ok.mp h
      obtain rfl := Except.ok.inj h
      obtain ⟨wellFormed, filled, written⟩ := readActions_ok_iff.mp read
      refine ⟨⟨wellFormed, filled, fun only => absurd ?_ star⟩, written⟩
      rw [← written]
      exact (Chain.head?_text wellFormed).mpr only
  · rintro ⟨⟨wellFormed, filled, starred⟩, rfl⟩
    have read := readActions_ok_iff.mpr ⟨wellFormed, filled, rfl⟩
    obtain ⟨chain, repeatable⟩ := slot
    cases repeatable with
    | true => exact bind_ok.mpr ⟨chain, read, rfl⟩
    | false =>
      have plain : chain.text.toList.head? ≠ some '*' := fun star =>
        Bool.false_ne_true (starred ((Chain.head?_text wellFormed).mp star))
      rw [readSlot, if_neg Bool.false_ne_true, List.nil_append, readStar_of_other plain]
      exact bind_ok.mpr ⟨chain, read, rfl⟩

/-! ### Flags -/

theorem readSpellings_spelled {sets : String → Option (List String)} (known : SpelledSets sets)
    {marked : Bool} {text : List Char} {spellings : List String} {actions : Option (List Char)}
    (h : readSpellings sets marked text = .ok (spellings, actions)) :
    ∀ spelling ∈ spellings, IsSpelling spelling := by
  have single {text : List Char} {spelling : String} (read : readSpelling text = .ok spelling) :
      ∀ other ∈ [spelling], IsSpelling other := by
    intro other member
    obtain rfl := List.mem_singleton.mp member
    exact (readSpelling_ok_iff.mp read).1
  unfold readSpellings at h
  split at h
  next inner =>
    split at h
    next => cases h
    next =>
      obtain ⟨items, read, h⟩ := bind_ok.mp h
      obtain ⟨rfl, -⟩ := Prod.mk.inj (Except.ok.inj h)
      exact readItems_spelled known read
    next =>
      obtain ⟨items, read, h⟩ := bind_ok.mp h
      obtain ⟨rfl, -⟩ := Prod.mk.inj (Except.ok.inj h)
      exact readItems_spelled known read
    next => cases h
  next =>
    split at h
    next =>
      obtain ⟨spelling, read, h⟩ := bind_ok.mp h
      obtain ⟨rfl, -⟩ := Prod.mk.inj (Except.ok.inj h)
      exact single read
    next =>
      obtain ⟨spelling, read, h⟩ := bind_ok.mp h
      obtain ⟨rfl, -⟩ := Prod.mk.inj (Except.ok.inj h)
      exact single read
  next => cases h

/-- The steps of reading a flag token: group, star, spellings, actions. -/
theorem readFlag_ok_iff {sets : String → Option (List String)} {token : List Char}
    {declared : FlagDeclaration} :
    readFlag sets token = .ok declared ↔ ∃ rest spellings actions,
      readGroup token = .ok (declared.group, rest) ∧
      (readStar rest).1 = declared.repeatable ∧
      readSpellings sets (declared.group.isSome || declared.repeatable) (readStar rest).2 =
        .ok (spellings, actions) ∧
      Names.addNew [] spellings = declared.spellings ∧
      actions.mapM readActions = .ok declared.chain := by
  constructor
  · intro h
    obtain ⟨⟨group, rest⟩, grouped, h⟩ := bind_ok.mp h
    obtain ⟨⟨spellings, actions⟩, spelled, h⟩ := bind_ok.mp h
    cases names : Names.addNew [] spellings with
    | nil => simp only [names, reduceCtorEq] at h
    | cons first others =>
      simp only [names] at h
      obtain ⟨chain, chained, h⟩ := bind_ok.mp h
      obtain rfl := Except.ok.inj h
      exact ⟨rest, spellings, actions, grouped, rfl, spelled, names, chained⟩
  · rintro ⟨rest, spellings, actions, grouped, starred, spelled, names, chained⟩
    obtain ⟨group, repeatable, first, others, chain⟩ := declared
    refine bind_ok.mpr ⟨(group, rest), grouped, ?_⟩
    obtain rfl := starred
    refine bind_ok.mpr ⟨(spellings, actions), spelled, ?_⟩
    simp only [names, FlagDeclaration.spellings]
    exact bind_ok.mpr ⟨chain, chained, rfl⟩

theorem mapM_readActions_ok_iff {text : Option (List Char)} {chain : Option Chain} :
    text.mapM readActions = .ok chain ↔
      (∀ c ∈ chain, c.WellFormed ∧ c.isEmpty = false) ∧ chain.map (·.text.toList) = text := by
  cases text with
  | none =>
    constructor
    · intro h
      obtain rfl := Except.ok.inj h
      simp
    · rintro ⟨-, blank⟩
      rw [Option.map_eq_none_iff.mp blank]
      rfl
  | some text =>
    constructor
    · intro h
      obtain ⟨c, read, rfl⟩ := map_ok.mp h
      obtain ⟨wellFormed, filled, rfl⟩ := readActions_ok_iff.mp read
      refine ⟨?_, rfl⟩
      rintro _ ⟨⟩
      exact ⟨wellFormed, filled⟩
    · rintro ⟨wellFormed, written⟩
      obtain ⟨c, rfl, rfl⟩ := Option.map_eq_some_iff.mp written
      obtain ⟨good, filled⟩ := wellFormed c rfl
      exact map_ok.mpr ⟨c, readActions_ok_iff.mpr ⟨good, filled, rfl⟩, rfl⟩

theorem readFlag_wellFormed {sets : String → Option (List String)} (known : SpelledSets sets)
    {token : List Char} {declared : FlagDeclaration} (h : readFlag sets token = .ok declared) :
    declared.WellFormed := by
  obtain ⟨rest, spellings, actions, grouped, -, spelled, names, chained⟩ := readFlag_ok_iff.mp h
  refine ⟨fun spelling member => ?_, ?_, readGroup_grouped grouped, (mapM_readActions_ok_iff.mp chained).1⟩
  · rw [← names, Names.mem_addNew] at member
    exact readSpellings_spelled known spelled spelling (member.resolve_left (List.not_mem_nil))
  · rw [← names]
    exact Names.nodup_addNew List.nodup_nil

/-! ### Written flags -/

namespace Flag

/-- What the token of the flag declares. -/
def declaration (flag : Flag) : FlagDeclaration where
  group := flag.explicitGroup
  repeatable := flag.repeatable
  first := flag.canonical
  others := flag.aliases
  chain := if flag.takesArguments then some flag.chain else none

/-- The spellings of the flag as its token lists them. -/
def spellingText (flag : Flag) : List Char :=
  match flag.aliases with
  | [] => flag.canonical.toList
  | _ :: _ => '{' :: ([','].intercalate (flag.spellings.map String.toList) ++ ['}'])

/-- The actions of the flag as its token lists them. -/
def actionText (flag : Flag) : List Char :=
  if flag.takesArguments then ':' :: flag.chain.text.toList else []

/-- The spellings begin with the dash of a single one or with the brace of several. -/
theorem head_spellingText (flag : Flag) (wellFormed : flag.WellFormed) (after : List Char) {c : Char}
    (notDash : c ≠ '-') (notBrace : c ≠ '{') : (flag.spellingText ++ after).head? ≠ some c := by
  unfold spellingText
  cases flag.aliases with
  | nil =>
    obtain ⟨second, rest, shape, _⟩ :=
      spelling_shape (wellFormed.spelled flag.canonical (List.mem_cons_self ..))
    simpa [shape] using notDash.symm
  | cons => simpa using notBrace.symm

/-- The token of the flag without its group. -/
def bodyText (flag : Flag) : List Char :=
  (if flag.repeatable then ['*'] else []) ++ (flag.spellingText ++ flag.actionText)

theorem head_bodyText (flag : Flag) (wellFormed : flag.WellFormed) {c : Char} (notDash : c ≠ '-')
    (notBrace : c ≠ '{') (notStar : c ≠ '*') : flag.bodyText.head? ≠ some c := by
  unfold bodyText
  cases flag.repeatable with
  | true => exact fun same => notStar (Option.some.inj same).symm
  | false => exact flag.head_spellingText wellFormed _ notDash notBrace

theorem readStar_bodyText (flag : Flag) (wellFormed : flag.WellFormed) :
    readStar flag.bodyText = (flag.repeatable, flag.spellingText ++ flag.actionText) := by
  unfold bodyText
  cases flag.repeatable with
  | true => rfl
  | false => exact readStar_of_other (flag.head_spellingText wellFormed _ (by decide) (by decide))

theorem toList_token (flag : Flag) :
    flag.token.toList =
      (flag.explicitGroup.elim [] fun id => '(' :: (id.toList ++ [')'])) ++ flag.bodyText := by
  have actions : (if flag.takesArguments then ":" ++ flag.chain.text else "").toList =
      flag.actionText := by
    unfold actionText
    cases flag.takesArguments <;> simp
  rw [token, String.toList_append, actions, bodyText, spellingText]
  cases listed : flag.aliases <;> cases flag.explicitGroup <;> cases flag.repeatable <;>
    simp [spellings, listed]

theorem takesArguments_iff {flag : Flag} : flag.takesArguments = true ↔ flag.chain.isEmpty = false := by
  simp [takesArguments]

theorem ofDeclaration_declaration (flag : Flag) : ofDeclaration flag.declaration = flag := by
  obtain ⟨canonical, aliases, group, chain, repeatable⟩ := flag
  cases blank : chain.isEmpty with
  | false => simp [ofDeclaration, declaration, takesArguments, blank]
  | true =>
    obtain rfl := Chain.eq_empty blank
    rfl

end Flag

section Joined

variable {spellings : List String} (spelled : ∀ spelling ∈ spellings, IsSpelling spelling)
include spelled

theorem not_mem_of_spelled (mark : Char) (outside : isSpellingChar mark = false) :
    ∀ part ∈ spellings.map String.toList, mark ∉ part := by
  intro part member
  obtain ⟨spelling, inside, rfl⟩ := List.mem_map.mp member
  exact not_mem_spelling mark (spelled spelling inside) outside

theorem not_mem_joined (mark : Char) (outside : isSpellingChar mark = false) (notComma : mark ≠ ',') :
    mark ∉ [','].intercalate (spellings.map String.toList) :=
  (not_mem_intercalate (mt List.mem_singleton.mp notComma)).mpr (not_mem_of_spelled spelled mark outside)

theorem readItems_joined (sets : String → Option (List String)) (filled : spellings ≠ []) :
    readItems sets (([','].intercalate (spellings.map String.toList)).splitOn ',') = .ok spellings := by
  rw [List.splitOn_intercalate ',' (not_mem_of_spelled spelled ',' (by decide)) (by simpa using filled)]
  exact readItems_spellings sets spelled

end Joined

theorem readSpellings_text (sets : String → Option (List String)) (marked : Bool) {flag : Flag}
    (wellFormed : flag.WellFormed) :
    readSpellings sets marked (flag.spellingText ++ flag.actionText) =
      .ok (flag.spellings, flag.declaration.chain.map (·.text.toList)) := by
  have first := wellFormed.spelled flag.canonical (List.mem_cons_self ..)
  have noColon := not_mem_spelling ':' first (by decide)
  have read := readSpelling_ok_iff.mpr ⟨first, rfl⟩
  cases listed : flag.aliases with
  | nil =>
    have spellings : flag.spellings = [flag.canonical] := by rw [Flag.spellings, listed]
    obtain ⟨c, rest, shape, _⟩ := spelling_shape first
    simp only [Flag.spellingText, listed, Flag.actionText, Flag.declaration, spellings]
    cases flag.takesArguments with
    | true =>
      have cut := cut?_append noColon flag.chain.text.toList
      rw [if_pos rfl, if_pos rfl]
      rw [shape] at read cut ⊢
      simp only [List.cons_append] at cut
      simp only [List.cons_append, readSpellings, cut]
      exact bind_ok.mpr ⟨_, read, rfl⟩
    | false =>
      have cut := cut?_eq_none_iff.mpr noColon
      rw [if_neg Bool.false_ne_true, if_neg Bool.false_ne_true, List.append_nil]
      rw [shape] at read cut ⊢
      simp only [readSpellings, cut]
      exact bind_ok.mpr ⟨_, read, rfl⟩
  | cons second more =>
    have items := readItems_joined wellFormed.spelled sets (by simp [Flag.spellings])
    have noBrace := not_mem_joined wellFormed.spelled '}' (by decide) (by decide)
    have cut := cut?_append noBrace flag.actionText
    simp only [Flag.spellingText, listed, List.cons_append, List.append_assoc, List.nil_append,
      readSpellings, cut]
    simp only [Flag.actionText, Flag.declaration]
    cases flag.takesArguments with
    | true => exact bind_ok.mpr ⟨_, items, rfl⟩
    | false => exact bind_ok.mpr ⟨_, items, rfl⟩

theorem readFlag_token (sets : String → Option (List String)) {flag : Flag}
    (wellFormed : flag.WellFormed) : readFlag sets flag.token.toList = .ok flag.declaration := by
  have spelled (marked : Bool) := readSpellings_text sets marked wellFormed
  have names : Names.addNew [] flag.spellings = flag.declaration.spellings :=
    Names.addNew_eq_append wellFormed.distinct
  have chained : (flag.declaration.chain.map (·.text.toList)).mapM readActions =
      .ok flag.declaration.chain := by
    refine mapM_readActions_ok_iff.mpr ⟨?_, rfl⟩
    intro chain listed
    obtain ⟨takes, rfl⟩ := Option.ite_some_none_eq_some.mp listed
    exact ⟨wellFormed.chained, Flag.takesArguments_iff.mp takes⟩
  have group : readGroup flag.token.toList = .ok (flag.explicitGroup, flag.bodyText) := by
    rw [Flag.toList_token]
    cases marked : flag.explicitGroup with
    | some id => simpa using readGroup_of_group (wellFormed.grouped id marked) _
    | none => exact readGroup_of_other (flag.head_bodyText wellFormed (by decide) (by decide) (by decide))
  have body := flag.readStar_bodyText wellFormed
  exact readFlag_ok_iff.mpr ⟨_, _, _, group, by rw [body]; rfl, by rw [body]; exact spelled _, names, chained⟩

theorem read_flag_token (sets : String → Option (List String)) {flag : Flag}
    (wellFormed : flag.WellFormed) :
    Declaration.read sets flag.token = .ok (.flag flag.declaration) := by
  have apart (c : Char) (notDash : c ≠ '-') (notBrace : c ≠ '{') (notStar : c ≠ '*')
      (notOpen : c ≠ '(') : flag.token.toList.head? ≠ some c := by
    rw [Flag.toList_token]
    cases flag.explicitGroup with
    | some id => exact fun same => notOpen (Option.some.inj same).symm
    | none => exact flag.head_bodyText wellFormed notDash notBrace notStar
  have read := readFlag_token sets wellFormed
  unfold Declaration.read
  split
  next blank => rw [blank] at read; cases read
  next plus =>
    exact absurd (by rw [plus]; rfl) (apart '+' (by decide) (by decide) (by decide) (by decide))
  next plus =>
    exact absurd (by rw [plus]; rfl) (apart '+' (by decide) (by decide) (by decide) (by decide))
  next colon =>
    exact absurd (by rw [colon]; rfl) (apart ':' (by decide) (by decide) (by decide) (by decide))
  next => exact map_ok.mpr ⟨_, read, rfl⟩

theorem read_slot_token (sets : String → Option (List String)) {slot : Slot}
    (wellFormed : slot.WellFormed) : Declaration.read sets slot.token = .ok (.slot slot) := by
  have shape := slot.toList_token
  unfold Declaration.read
  rw [shape]
  exact map_ok.mpr ⟨slot, readSlot_ok_iff.mpr ⟨wellFormed, shape⟩, rfl⟩

theorem read_wellFormed {sets : String → Option (List String)} (known : SpelledSets sets)
    {token : String} {declaration : Declaration}
    (h : Declaration.read sets token = .ok declaration) : declaration.WellFormed := by
  unfold Declaration.read at h
  split at h
  next => cases h
  next =>
    obtain rfl := Except.ok.inj h
    trivial
  next =>
    obtain ⟨name, -, h⟩ := bind_ok.mp h
    obtain rfl := Except.ok.inj h
    trivial
  next =>
    obtain ⟨slot, read, rfl⟩ := map_ok.mp h
    exact (readSlot_ok_iff.mp read).1
  next =>
    obtain ⟨declared, read, rfl⟩ := map_ok.mp h
    exact readFlag_wellFormed known read

end ShellCompletion
