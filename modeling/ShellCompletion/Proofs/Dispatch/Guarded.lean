import ShellCompletion.Engine
import ShellCompletion.Proofs.Line.Walk

/-!
# Guarded requests

A request with guarded operations: paths are split at positions, the line is cut where a grammar begins,
and the depth is counted up to its limit. It answers whatever the resolvers and selectors do, and gives the
same answer as the plain request (`guardedSuggest_eq`, `guardedExplain_eq`).
-/

namespace ShellCompletion

open Guarded

/-- An action of resolvers, which does not fail. -/
def Guarded.lift {σ α : Type} (action : StateM σ α) : StateT σ Option α :=
  fun session => some (action session)

theorem Guarded.some_bind {σ α β : Type} (value : α) (next : α → StateT σ Option β) :
    ((some value : Option α) : StateT σ Option α) >>= next = next value := rfl

theorem Guarded.lift_bind {σ α β : Type} (action : StateM σ α) (next : α → StateM σ β) :
    (lift action >>= fun result => lift (next result)) = lift (action >>= next) := rfl

/-! ### Choosing candidates -/

namespace Policy

def guardedPathFits (candidate typed : String) : Option Bool := do
  let (directory, name) ← splitPath (dropSlash candidate.toList)
  let (typedDirectory, typedName) ← splitPath typed.toList
  return directory == typedDirectory && typedName.isPrefixOf name &&
    (name.head? != some '.' || typedName.head? == some '.')

def guardedFits (policy : Policy) (candidate typed : String) : Option Bool :=
  match policy with
  | .path => guardedPathFits candidate typed
  | _ => some (policy.fits candidate typed)

def guardedSelect (policy : Policy) (candidates : List String) (typed : String) : Option (List String) :=
  (filter (policy.guardedFits · typed) candidates).map Names.ofList

theorem guardedFits_eq (policy : Policy) (candidate typed : String) :
    policy.guardedFits candidate typed = some (policy.fits candidate typed) := by
  cases policy with
  | leading => rfl
  | custom accepts => rfl
  | path =>
    rw [guardedFits, guardedPathFits, splitPath_eq, splitPath_eq]
    rfl

theorem guardedSelect_eq (policy : Policy) (candidates : List String) (typed : String) :
    policy.guardedSelect candidates typed = some (policy.select candidates typed) := by
  rw [guardedSelect, filter_of_total (policy.guardedFits_eq · typed)]
  rfl

end Policy

/-! ### Dispatching -/

def Answer.guardedStep (typed : String) : Answer → Option Step
  | .candidates items policy => (policy.guardedSelect items typed).map .suggestions
  | .state name => some (.state name)
  | .grammar next offset => some (.grammar next offset)

theorem Answer.guardedStep_eq (typed : String) (answer : Answer) :
    answer.guardedStep typed = some (answer.step typed) := by
  cases answer with
  | candidates items policy => rw [guardedStep, Policy.guardedSelect_eq]; rfl
  | state name => rfl
  | grammar next offset => rfl

namespace Registry

variable {σ : Type}

def guardedAsk (resolver : Option (Resolver σ)) (state : String) (parse : Parse) (words : List String) :
    StateT σ Option Step :=
  match resolver with
  | some resolver => do
    let answer ← lift (resolver { state, typed := parse.current, parse, words })
    answer.guardedStep parse.current
  | none => return .suggestions []

def guardedDispatch (registry : Registry σ) (grammar : Grammar) (parse : Parse) (words : List String) :
    StateT σ Option Step :=
  if wantsFlags parse then return .suggestions (grammar.eligible parse)
  else
    match parse.action with
    | .literal => return .suggestions (grammar.eligible parse)
    | .state name => return .state name
    | .function name => guardedAsk (registry.function? name) name parse words
    | .nothing => return .suggestions []

/-- Follows a step that has come to `depth`, where hops end at `limit`. -/
def guardedFollow (registry : Registry σ) (limit : Nat) (parse : Parse) (words : List String)
    (depth : Nat) (step : Step) : StateT σ Option (List String) :=
  match step with
  | .suggestions items => return items
  | .state name =>
    if _deep : limit ≤ depth then return []
    else do
      let _deeper ← add limit depth 1
      let next ← guardedAsk (registry.state? name) name parse words
      registry.guardedFollow limit parse words (depth + 1) next
  | .grammar grammar offset =>
    if _deep : limit ≤ depth then return []
    else if parse.cursor < offset ∨ words.length < offset then return []
    else do
      let _deeper ← add limit depth 1
      let rest ← slice words offset words.length
      let cursor ← sub parse.cursor offset
      let inner ← grammar.guardedParse rest cursor
      let next ← registry.guardedDispatch grammar inner rest
      registry.guardedFollow limit inner rest (depth + 1) next
termination_by limit - depth

def guardedSuggest (registry : Registry σ) (limit : Nat) (grammar : Grammar) (parse : Parse)
    (words : List String) : StateT σ Option (List String) := do
  registry.guardedFollow limit parse words 0 (← registry.guardedDispatch grammar parse words)

theorem guardedAsk_eq (resolver : Option (Resolver σ)) (state : String) (parse : Parse)
    (words : List String) : guardedAsk resolver state parse words = lift (ask resolver state parse words) := by
  cases resolver with
  | none => rfl
  | some resolver =>
    unfold guardedAsk
    simp only [Answer.guardedStep_eq]
    rfl

theorem guardedDispatch_eq (registry : Registry σ) (grammar : Grammar) (parse : Parse)
    (words : List String) :
    registry.guardedDispatch grammar parse words = lift (registry.dispatch grammar parse words) := by
  unfold guardedDispatch dispatch
  split
  next => rfl
  next =>
    cases parse.action with
    | literal => rfl
    | state name => rfl
    | function name => exact guardedAsk_eq ..
    | nothing => rfl

/-- Counting up to the limit, the follower has as many hops as are left below it. -/
theorem guardedFollow_eq (registry : Registry σ) (limit : Nat) (parse : Parse) (words : List String)
    (depth : Nat) (step : Step) :
    registry.guardedFollow limit parse words depth step =
      lift (registry.follow parse words (limit - depth) step) := by
  -- The line and its reading change from grammar to grammar; what is left below the limit goes down.
  induction left : limit - depth generalizing parse words depth step with
  | zero =>
    have deep : limit ≤ depth := by omega
    rw [guardedFollow.eq_def]
    cases step with
    | suggestions items => rfl
    | state name => exact dif_pos deep
    | grammar grammar offset => exact dif_pos deep
  | succ hops ih =>
    have room : ¬ limit ≤ depth := by omega
    have deeper : add limit depth 1 = some (depth + 1) := add_of_le (by omega)
    have fewer : limit - (depth + 1) = hops := by omega
    rw [guardedFollow.eq_def]
    cases step with
    | suggestions items => rfl
    | state name =>
      dsimp only
      rw [dif_neg room, deeper, guardedAsk_eq]
      simp only [ih _ _ _ _ fewer]
      rfl
    | grammar grammar offset =>
      dsimp only
      rw [dif_neg room, follow]
      split
      next => rfl
      next within =>
        have cut : slice words offset words.length = some (words.drop offset) := slice_to_end (by omega)
        have shifted : sub parse.cursor offset = some (parse.cursor - offset) := sub_of_le (by omega)
        rw [deeper, cut, shifted]
        simp only [some_bind, Grammar.guardedParse_eq, guardedDispatch_eq, ih _ _ _ _ fewer]
        rfl

theorem guardedSuggest_eq (registry : Registry σ) (limit : Nat) (grammar : Grammar) (parse : Parse)
    (words : List String) :
    registry.guardedSuggest limit grammar parse words = lift (registry.suggest limit grammar parse words) := by
  unfold guardedSuggest
  simp only [guardedDispatch_eq, guardedFollow_eq]
  exact lift_bind ..

end Registry

/-! ### Explaining -/

namespace Engine

variable {σ : Type}

def guardedExplainSelection (engine : Engine σ) (selection : Selection σ) (words : List String)
    (cursor : Nat) : StateT σ Option Explanation := do
  let last ← sub words.length 1
  let offset := min (min selection.offset cursor) last
  let words ← slice words offset words.length
  let cursor ← sub cursor offset
  let _command ← words[0]?
  let parse ← selection.grammar.guardedParse words cursor
  let suggestions ← selection.registry.guardedSuggest engine.hops selection.grammar parse words
  return { offset, words, cursor, action := parse.action, role := parse.role, parse, suggestions }

def guardedExplain (engine : Engine σ) (words : List String) (cursor : Nat) :
    Except Error (StateT σ Option Explanation) :=
  if words.isEmpty then
    .ok <| return {
      offset := 0, words, cursor, action := .literal, role := none, parse := {}, suggestions := [] }
  else (engine.select words cursor).map fun selection =>
    engine.guardedExplainSelection selection words cursor

/-- Whatever offset is selected, the word that is taken for the command word is there. -/
theorem guardedExplainSelection_eq (engine : Engine σ) (selection : Selection σ) {words : List String}
    (filled : 0 < words.length) (cursor : Nat) :
    engine.guardedExplainSelection selection words cursor =
      lift (engine.explainSelection selection words cursor) := by
  have last : sub words.length 1 = some (words.length - 1) := sub_of_le filled
  have same := Nat.min_assoc selection.offset cursor (words.length - 1)
  unfold guardedExplainSelection explainSelection
  rw [last, some_bind, same]
  have inside : min selection.offset (min cursor (words.length - 1)) < words.length := by omega
  have before : min selection.offset (min cursor (words.length - 1)) ≤ cursor := by omega
  generalize min selection.offset (min cursor (words.length - 1)) = offset at inside before ⊢
  have command : (words.drop offset)[0]? = some words[offset] := by
    rw [List.getElem?_drop, Nat.add_zero, List.getElem?_eq_getElem inside]
  simp only [slice_to_end (Nat.le_of_lt inside), sub_of_le before, command, some_bind,
    Grammar.guardedParse_eq, Registry.guardedSuggest_eq]
  rfl

theorem guardedExplain_eq (engine : Engine σ) (words : List String) (cursor : Nat) :
    engine.guardedExplain words cursor = (engine.explain words cursor).map lift := by
  unfold guardedExplain explain
  split
  next => rfl
  next filled =>
    have first : 0 < words.length := List.length_pos_iff.mpr (by simpa using filled)
    cases engine.select words cursor with
    | error error => rfl
    | ok selection => exact congrArg Except.ok (guardedExplainSelection_eq engine selection first cursor)

theorem explain_error_iff {engine : Engine σ} {words : List String} {cursor : Nat} {error : Error} :
    engine.explain words cursor = .error error ↔ words ≠ [] ∧ engine.select words cursor = .error error := by
  unfold explain
  cases words with
  | nil => simp
  | cons word rest => cases engine.select (word :: rest) cursor <;> simp [Except.map]

end Engine

end ShellCompletion
