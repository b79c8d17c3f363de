import ShellCompletion.Grammar.Compile
import ShellCompletion.Proofs.Dispatch.Hop
import ShellCompletion.Proofs.Line.NewWord

/-!
# The new word and the empty word

Resolvers that know only the name they are asked for and the typed text cannot tell a word that is not
typed yet from an empty word. Two requests for them run side by side, unless a grammar takes over at the
very word at the cursor: a new word is then no word of the line and flags are offered for it, while an
empty word is the command word of the grammar and nothing is (`complete_empty_word`).
-/

namespace ShellCompletion

variable {σ : Type}

/-- The name that is asked for and the typed text decide on the answer. -/
def Resolver.AnswersByText (resolver : Resolver σ) : Prop :=
  ∃ answer : String → String → Answer,
    ∀ request session, (resolver request session).1 = answer request.state request.typed

def Registry.AnswersByText (registry : Registry σ) : Prop :=
  ∀ resolver, registry.Registered resolver → resolver.AnswersByText

/-- A grammar takes over the line from the word at the cursor on. -/
def Stage.LandsAtCursor (stage : Stage σ) (next : Grammar) : Prop :=
  stage.step = .grammar next stage.parse.cursor

/-- One request as it stands for a new word and as it stands for an empty one. -/
structure Stage.Beside (fresh empty : Stage σ) : Prop where
  words : empty.words = fresh.words ++ [""]
  cursor : fresh.parse.cursor = fresh.words.length
  sameCursor : empty.parse.cursor = fresh.parse.cursor
  current : fresh.parse.current = ""
  sameCurrent : empty.parse.current = fresh.parse.current
  step : empty.step = fresh.step

theorem Grammar.eligible_of_empty (grammar : Grammar) :
    grammar.eligible (grammar.parse [] 0) = grammar.spellings := by
  refine Names.eq_of_ascending (Policy.ascending_select ..) (Names.ascending_ofList _) fun name => ?_
  simp [eligible, parse, readings, Policy.mem_select, Policy.fits, Policy.beginsWith]

namespace Registry

variable {registry : Registry σ}

/-! ### One step for both -/

theorem ask_eq {resolver : Option (Resolver σ)} (answers : ∀ one, resolver = some one → one.AnswersByText)
    {first second : Parse} (same : first.current = second.current) (state : String)
    (words others : List String) (session other : σ) :
    (ask resolver state first words session).1 = (ask resolver state second others other).1 := by
  cases resolver with
  | none => rfl
  | some resolver =>
    obtain ⟨answer, given⟩ := answers resolver rfl
    show (resolver _ session).1.step first.current = (resolver _ other).1.step second.current
    rw [given, given, same]

theorem resolveState_eq (answers : registry.AnswersByText) {first second : Parse}
    (same : first.current = second.current) (state : String) (words others : List String)
    (session other : σ) :
    (registry.resolveState state first words session).1 =
      (registry.resolveState state second others other).1 :=
  ask_eq (fun one found => answers one ⟨state, .inl found⟩) same state words others session other

/-- Dispatching looks at the class of the word at the cursor, its text and what is excluded. -/
theorem dispatch_eq (answers : registry.AnswersByText) (grammar : Grammar) {first second : Parse}
    (current : first.current = second.current) (excluded : first.excluded = second.excluded)
    (classes : first.class? first.cursor = second.class? second.cursor)
    (words others : List String) (session other : σ) :
    (registry.dispatch grammar first words session).1 =
      (registry.dispatch grammar second others other).1 := by
  have action : first.action = second.action := by rw [Parse.action, classes, Parse.action]
  have wanted : wantsFlags first = wantsFlags second := by
    simp only [wantsFlags, Parse.role, Parse.role?, current, classes]
  have eligible : grammar.eligible first = grammar.eligible second := by
    rw [Grammar.eligible, current, excluded, Grammar.eligible]
  rw [dispatch, dispatch, wanted, action, eligible]
  split
  next => rfl
  next =>
    cases second.action with
    | function name =>
      exact ask_eq (fun one found => answers one ⟨name, .inr found⟩) current name words others session other
    | literal | state name | nothing => rfl

theorem beside_opening (answers : registry.AnswersByText) (grammar : Grammar) {words : List String}
    (nonempty : words ≠ []) (session other : σ) :
    (registry.opening grammar words words.length session).Beside
      (registry.opening grammar (words ++ [""]) words.length other) := by
  have current : (grammar.parse words words.length).current =
      (grammar.parse (words ++ [""]) words.length).current := by
    simp [Grammar.parse]
  refine ⟨rfl, rfl, rfl, by simp [opening, Grammar.parse], current.symm, ?_⟩
  refine (dispatch_eq answers grammar current ?_ ?_ words (words ++ [""]) session other).symm
  · exact (Grammar.excluded_append_bare nonempty rfl words.length).symm
  · exact Grammar.class?_newWord nonempty rfl

/-! ### Side by side -/

variable {fresh empty : Stage σ}

/-- A hop of one is a hop of the other, unless it lands at the cursor. -/
theorem beside_hop (answers : registry.AnswersByText) (beside : fresh.Beside empty)
    (apart : ∀ next, ¬ fresh.LandsAtCursor next) :
    registry.hop? fresh = none ∧ registry.hop? empty = none ∨
      ∃ first second, registry.hop? fresh = some first ∧ registry.hop? empty = some second ∧
        first.Beside second := by
  have cursors := beside.sameCursor
  have inside := beside.cursor
  have longer : empty.words.length = fresh.words.length + 1 := by simp [beside.words]
  unfold hop?
  rw [beside.step]
  cases step : fresh.step with
  | suggestions items => exact .inl ⟨rfl, rfl⟩
  | state name =>
    refine .inr ⟨_, _, rfl, rfl, beside.words, beside.cursor, beside.sameCursor, beside.current,
      beside.sameCurrent, ?_⟩
    exact resolveState_eq answers beside.sameCurrent name _ _ _ _
  | grammar next offset =>
    have elsewhere : offset ≠ fresh.words.length := fun here =>
      apart next (by rw [Stage.LandsAtCursor, step, inside, here])
    dsimp only
    by_cases beyond : fresh.parse.cursor < offset ∨ fresh.words.length < offset
    · exact .inl ⟨if_pos beyond, if_pos (by omega)⟩
    · have nonempty : fresh.words.drop offset ≠ [] := by
        rw [ne_eq, List.drop_eq_nil_iff]
        omega
      have shorter : fresh.parse.cursor - offset = (fresh.words.drop offset).length := by
        rw [List.length_drop, inside]
      have after : empty.words.drop offset = fresh.words.drop offset ++ [""] := by
        rw [beside.words, List.drop_append_of_le_length (by omega)]
      refine .inr ⟨_, _, if_neg beyond, if_neg (by omega), ?_⟩
      rw [after, cursors, shorter]
      exact beside_opening answers next nonempty _ _

/-- The grammar reads no word at all for a new word, and its command word for an empty one. -/
theorem hop_at_cursor (registry : Registry σ) (beside : fresh.Beside empty) {next : Grammar}
    (lands : fresh.LandsAtCursor next) :
    (∃ stage, registry.hop? fresh = some stage ∧ stage.step = .suggestions next.spellings) ∧
      ∃ stage, registry.hop? empty = some stage ∧ stage.step = .suggestions [] := by
  have cursors := beside.sameCursor
  have inside := beside.cursor
  have longer : empty.words.length = fresh.words.length + 1 := by simp [beside.words]
  have landsToo : empty.step = .grammar next empty.parse.cursor := by
    rw [beside.step, lands, cursors]
  have none : fresh.words.drop fresh.parse.cursor = [] := by rw [inside, List.drop_length]
  have one : empty.words.drop empty.parse.cursor = [""] := by
    rw [beside.words, cursors, inside, List.drop_left]
  constructor
  · refine ⟨_, hop?_eq_some_iff.mpr (.inr ⟨next, _, lands, by omega, by omega, rfl⟩), ?_⟩
    rw [none, Nat.sub_self]
    exact congrArg Step.suggestions next.eligible_of_empty
  · refine ⟨_, hop?_eq_some_iff.mpr (.inr ⟨next, _, landsToo, by omega, by omega, rfl⟩), ?_⟩
    rw [one, Nat.sub_self]
    rfl

theorem beside_run (answers : registry.AnswersByText) (beside : fresh.Beside empty) {hops : Nat}
    (apart : ∀ taken < hops, ∀ next, ¬ (registry.run taken fresh).LandsAtCursor next) :
    (registry.run hops fresh).Beside (registry.run hops empty) := by
  induction hops generalizing fresh empty with
  | zero => exact beside
  | succ hops ih =>
    rcases beside_hop answers beside (apart 0 (Nat.succ_pos hops)) with
      ⟨stop, stopToo⟩ | ⟨first, second, hop, hopToo, next⟩
    · rwa [run_of_stop _ stop, run_of_stop _ stopToo]
    · rw [run_of_hop _ hop, run_of_hop _ hopToo]
      refine ih next fun taken within grammar => ?_
      rw [← run_of_hop taken hop]
      exact apart (taken + 1) (Nat.succ_lt_succ within) grammar

theorem items_at_cursor (answers : registry.AnswersByText) (beside : fresh.Beside empty) {taken hops : Nat}
    (within : taken < hops) {next : Grammar} (lands : (registry.run taken fresh).LandsAtCursor next) :
    (registry.run hops fresh).items = next.spellings ∧ (registry.run hops empty).items = [] := by
  obtain ⟨hops, rfl⟩ : ∃ later, hops = later + 1 := ⟨hops - 1, by omega⟩
  induction taken generalizing fresh empty hops with
  | zero =>
    obtain ⟨⟨stage, hop, offered⟩, twin, other, nothing⟩ := hop_at_cursor registry beside lands
    rw [run_of_hop _ hop, run_of_hop _ other, run_of_suggestions _ offered, run_of_suggestions _ nothing]
    exact ⟨Stage.items_of_suggestions offered, Stage.items_of_suggestions nothing⟩
  | succ taken ih =>
    by_cases here : ∃ grammar, fresh.LandsAtCursor grammar
    · -- Nothing follows a hop from here, so the run cannot land once more.
      obtain ⟨grammar, now⟩ := here
      obtain ⟨⟨stage, hop, offered⟩, -⟩ := hop_at_cursor registry beside now
      rw [run_of_hop _ hop, run_of_suggestions _ offered, Stage.LandsAtCursor, offered] at lands
      cases lands
    · rcases beside_hop answers beside (not_exists.mp here) with
        ⟨stop, -⟩ | ⟨first, second, hop, hopToo, besideNext⟩
      · rw [run_of_stop _ stop] at lands
        exact absurd ⟨next, lands⟩ here
      · rw [run_of_hop _ hop] at lands ⊢
        rw [run_of_hop _ hopToo]
        obtain ⟨hops, rfl⟩ : ∃ later, hops = later + 1 := ⟨hops - 1, by omega⟩
        exact ih besideNext lands hops (by omega)

/-- A new word and an empty word are completed alike as long as no hop lands at the cursor; where one
does, the new word is offered the spellings of the grammar and the empty word nothing. -/
theorem complete_empty_word (answers : registry.AnswersByText) (hops : Nat) (grammar : Grammar)
    (words : List String) (nonempty : words ≠ []) (session other : σ) :
    let visited taken := registry.run taken (registry.opening grammar words words.length session)
    let fresh := (registry.complete hops grammar words words.length session).1
    let empty := (registry.complete hops grammar (words ++ [""]) words.length other).1
    ((∀ taken < hops, ∀ next, ¬ (visited taken).LandsAtCursor next) → fresh = empty) ∧
      ∀ taken < hops, ∀ next, (visited taken).LandsAtCursor next →
        fresh = next.spellings ∧ empty = [] := by
  intro visited fresh empty
  have beside := beside_opening answers grammar nonempty session other
  have freshItems : fresh = (visited hops).items :=
    congrArg Prod.fst (complete_eq_run registry hops grammar words words.length session)
  have emptyItems : empty =
      (registry.run hops (registry.opening grammar (words ++ [""]) words.length other)).items :=
    congrArg Prod.fst (complete_eq_run registry hops grammar (words ++ [""]) words.length other)
  rw [freshItems, emptyItems]
  constructor
  · intro apart
    rw [Stage.items, Stage.items, (beside_run answers beside apart).step]
  · intro taken within next lands
    exact items_at_cursor answers beside within lands

/-- The words from `run` on are read against another grammar, in which the cursor is behind `run`. -/
theorem complete_empty_word_apart :
    let inner : Grammar := { slots := [⟨⟨[.state "level"], none⟩, true⟩] }
    let outer : Grammar := { slots := [⟨⟨[.state "command"], none⟩, false⟩, ⟨⟨[.state "rest"], none⟩, true⟩] }
    let registry : Registry Unit := { states := [
      ("level", .words ["low", "high"]), ("rest", fun _ => return .grammar inner 1)] }
    let words := ["tool", "run"]
    registry.AnswersByText ∧ words ≠ [] ∧
      (∀ taken < 3, ∀ next, ¬ (registry.run taken (registry.opening outer words 2 ())).LandsAtCursor next) ∧
      (registry.complete 3 outer words 2 ()).1 = ["high", "low"] ∧
      (registry.complete 3 outer words 2 ()).1 = (registry.complete 3 outer (words ++ [""]) 2 ()).1 := by
  intro inner outer registry words
  have answers : registry.AnswersByText := by
    intro resolver registered
    obtain ⟨entry, inside, rfl⟩ := mem_of_registered registered
    rcases (by simpa [registry] using inside : entry = _ ∨ entry = _) with rfl | rfl
    · exact ⟨fun _ _ => .candidates ["low", "high"] .leading, fun _ _ => rfl⟩
    · exact ⟨fun _ _ => .grammar inner 1, fun _ _ => rfl⟩
  have apart : ∀ taken < 3, ∀ next,
      ¬ (registry.run taken (registry.opening outer words 2 ())).LandsAtCursor next := by
    rintro (_ | _ | _ | taken) within next lands
    · cases lands
    · cases lands
    · cases lands
    · omega
  obtain ⟨alike, -⟩ := complete_empty_word answers 3 outer words (by decide) () ()
  exact ⟨answers, by decide, apart, by decide, alike apart⟩

/-- The grammar takes over at the new word, or at the empty word in its place. -/
theorem empty_word_differs_at_cursor :
    let inner : Grammar := { flags := [{ canonical := "--all" }] }
    let outer : Grammar := { slots := [⟨⟨[.state "next"], none⟩, false⟩] }
    let registry : Registry Unit := { states := [("next", fun _ => return .grammar inner 1)] }
    Grammar.compile [":next"] = .ok outer ∧ Grammar.compile ["--all"] = .ok inner ∧
      registry.AnswersByText ∧ (registry.complete 8 outer ["tool"] 1 ()).1 = ["--all"] ∧
      (registry.complete 8 outer (["tool"] ++ [""]) 1 ()).1 = [] := by
  intro inner outer registry
  refine ⟨rfl, rfl, fun resolver registered => ?_, by decide, by decide⟩
  obtain ⟨entry, inside, rfl⟩ := mem_of_registered registered
  obtain rfl : entry = _ := by simpa [registry] using inside
  exact ⟨fun _ _ => .grammar inner 1, fun _ _ => rfl⟩

end Registry

end ShellCompletion
