import ShellCompletion.Line.Parse
import ShellCompletion.Proofs.Guarded

/-!
# Walking a line

A walk reads a line without taking chains apart: it holds the chain that was taken up last and its place
in the chain, which it moves by guarded operations. What is owed at the place is what an expectation says
(`Walker.Shows`), so a walk never leaves its chain, and reads every line as `Grammar.parse` does
(`guardedParse_eq`).
-/

namespace ShellCompletion

open Guarded

namespace Chain

variable {chain : Chain}

theorem eq_of_next?_none (spent : chain.next? = none) : chain = {} := by
  obtain ⟨fixed, tail⟩ := chain
  cases fixed <;> cases tail <;> simp [next?] at spent ⊢

theorem rest_of_short (short : ¬ (1 < chain.size ∨ chain.repeats = true)) : chain.rest = {} := by
  obtain ⟨fixed, tail⟩ := chain
  cases tail with
  | some action => exact absurd (.inr rfl) short
  | none =>
    match fixed with
    | [] => rfl
    | [action] => rfl
    | first :: second :: later => exact absurd (.inl (by simp [size, actions])) short

end Chain

/-! ### Places in a chain -/

structure ChainPlace where
  chain : Chain := {}
  position : Nat := 0

namespace ChainPlace

/-- The place of an action; a chain of nothing but a tail is not left behind. -/
def startAt (chain : Chain) (position : Nat) : ChainPlace :=
  { chain, position := if chain.repeats then min position (chain.size - 1) else position }

def front? (place : ChainPlace) : Option Action := place.chain.actions[place.position]?

def guardedAtTail (place : ChainPlace) : Option Bool :=
  if place.chain.repeats then
    (add place.chain.size place.position 1).map (· == place.chain.size)
  else some false

/-- The action at the place, and the place of the action after it. -/
def guardedPop (place : ChainPlace) : Option (Option (Action × ChainPlace)) :=
  match place.front? with
  | none => some none
  | some action => do
    if ← place.guardedAtTail then return some (action, place)
    else
      let position ← add place.chain.size place.position 1
      return some (action, { place with position })

def rest (place : ChainPlace) : Chain := ⟨place.chain.fixed.drop place.position, place.chain.tail⟩

def Valid (place : ChainPlace) : Prop := place.position ≤ place.chain.fixed.length

variable {place : ChainPlace} {chain : Chain}

theorem front?_eq (valid : place.Valid) : place.front? = place.rest.first? := by
  have owed : place.rest.actions = place.chain.actions.drop place.position := by
    rw [rest, Chain.actions, Chain.actions, List.drop_append_of_le_length valid]
  rw [front?, Chain.first?_eq_head?, owed, List.head?_drop]

theorem guardedAtTail_eq (valid : place.Valid) : place.guardedAtTail = some place.rest.onlyTail := by
  unfold guardedAtTail
  have inside : place.position ≤ place.chain.fixed.length := valid
  cases tail : place.chain.tail with
  | none => simp [Chain.repeats, Chain.onlyTail, rest, tail]
  | some action =>
    have repeats : place.chain.repeats = true := by rw [Chain.repeats, tail, Option.isSome_some]
    have size : place.chain.size = place.chain.fixed.length + 1 := by simp [Chain.size, Chain.actions, tail]
    rw [if_pos repeats, size, add_of_le (by omega), Option.map_some]
    refine congrArg some (Bool.eq_iff_iff.mpr ?_)
    simp only [rest, Chain.onlyTail, tail, beq_iff_eq, Option.isSome_some, Bool.and_true, List.isEmpty_iff,
      List.drop_eq_nil_iff]
    omega

theorem guardedPop_of_spent (valid : place.Valid) (spent : place.rest.next? = none) :
    place.guardedPop = some none := by
  rw [guardedPop, front?_eq valid, Chain.first?, spent]
  rfl

theorem guardedPop_of_owed (valid : place.Valid) {action : Action}
    (owed : place.rest.next? = some (action, chain)) :
    ∃ next : ChainPlace, place.guardedPop = some (some (action, next)) ∧ next.Valid ∧ next.rest = chain := by
  have front : place.front? = some action := by rw [front?_eq valid, Chain.first?, owed, Option.map_some]
  have atTail := guardedAtTail_eq valid
  obtain ⟨⟨fixed, tail⟩, position⟩ := place
  unfold rest at owed atTail
  cases left : fixed.drop position with
  | nil =>
    rw [left] at owed atTail
    cases tail with
    | none => cases owed
    | some last =>
      obtain ⟨rfl, rfl⟩ := Prod.mk.inj (Option.some.inj owed)
      refine ⟨_, ?_, valid, by rw [rest, left]⟩
      rw [guardedPop, front]
      simp only [atTail, Chain.onlyTail, List.isEmpty_nil, Option.isSome_some, Bool.and_true,
        Option.bind_eq_bind, Option.bind_some, if_true, Option.pure_def]
  | cons first more =>
    rw [left] at owed atTail
    obtain ⟨rfl, rfl⟩ := Prod.mk.inj (Option.some.inj owed)
    have length := congrArg List.length left
    rw [List.length_drop, List.length_cons] at length
    have next : fixed.drop (position + 1) = more := by rw [← List.drop_drop, left, List.drop_one, List.tail_cons]
    have fits : position + 1 ≤ Chain.size ⟨fixed, tail⟩ := by
      rw [Chain.size, Chain.actions, List.length_append]
      dsimp only
      omega
    refine ⟨⟨⟨fixed, tail⟩, position + 1⟩, ?_, ?_, by rw [rest, next]⟩
    · rw [guardedPop, front]
      simp only [atTail, Chain.onlyTail, List.isEmpty_cons, Bool.false_and, Option.bind_eq_bind,
        Option.bind_some, Bool.false_eq_true, if_false, add_of_le fits, Option.pure_def]
    · show position + 1 ≤ fixed.length
      omega

theorem startAt_zero (chain : Chain) : (startAt chain 0).Valid ∧ (startAt chain 0).rest = chain := by
  have start : startAt chain 0 = { chain } := by simp [startAt]
  rw [start]
  exact ⟨Nat.zero_le _, rfl⟩

theorem startAt_one (more : 1 < chain.size ∨ chain.repeats = true) :
    (startAt chain 1).Valid ∧ (startAt chain 1).rest = chain.rest := by
  obtain ⟨fixed, tail⟩ := chain
  cases fixed with
  | nil =>
    cases tail with
    | none => exact absurd more (by decide)
    | some action => exact ⟨Nat.le_refl 0, rfl⟩
  | cons first later =>
    have start : startAt ⟨first :: later, tail⟩ 1 = ⟨⟨first :: later, tail⟩, 1⟩ := by
      cases tail <;> simp [startAt, Chain.repeats, Chain.size, Chain.actions]
    rw [start]
    exact ⟨Nat.succ_le_succ (Nat.zero_le _), rfl⟩

end ChainPlace

/-! ### Walkers -/

structure Walker where
  place : ChainPlace := {}
  /-- The flag that the chain belongs to; a chain without one belongs to a slot. -/
  owner : Option Flag := none
  slots : List Slot

namespace Walker

def afterFlags (walker : Walker) (typed : List TypedFlag) : Walker :=
  typed.foldl (fun walker typed =>
    if typed.flag.takesArguments then
      { walker with place := .startAt typed.flag.chain 0, owner := some typed.flag }
    else walker) walker

def fill (walker : Walker) : Reading × Walker :=
  match walker.slots with
  | [] => (.positional .nothing, walker)
  | slot :: later =>
    let slots := if slot.repeatable then walker.slots else later
    (.positional slot.action,
      if 1 < slot.chain.size ∨ slot.chain.repeats = true then
        { place := .startAt slot.chain 1, owner := none, slots }
      else { walker with slots })

def guardedEndTail (walker : Walker) (word : String) : Option Walker :=
  if looksLikeFlag word then
    walker.place.guardedAtTail.map fun ends => if ends then { slots := walker.slots } else walker
  else some walker

def guardedRead (grammar : Grammar) (walker : Walker) (word : String) : Option (Reading × Walker) := do
  let walker ← walker.guardedEndTail word
  match ← walker.place.guardedPop with
  | some (action, place) => return (.argument action walker.owner, { walker with place })
  | none =>
    if looksLikeFlag word then
      let typed := grammar.typedFlags word
      return (.flags typed, walker.afterFlags typed)
    else return walker.fill

def guardedReadAll (grammar : Grammar) (walker : Walker) : List String → Option (List Reading × Walker)
  | [] => some ([], walker)
  | word :: rest => do
    let (reading, next) ← walker.guardedRead grammar word
    let (readings, last) ← guardedReadAll grammar next rest
    return (reading :: readings, last)

def newWord (walker : Walker) : WordClass :=
  match walker.place.front? with
  | some action => ⟨action, .argument⟩
  | none => ⟨(walker.slots.head?.map Slot.action).getD .nothing, .positional⟩

/-- The walker is where the words are expected. Who a chain belongs to does not matter any more when
nothing of it is owed. -/
structure Shows (walker : Walker) (expected : Expectation) : Prop where
  valid : walker.place.Valid
  chain : walker.place.rest = expected.chain
  owner : expected.chain.next? ≠ none → walker.owner = expected.owner
  slots : walker.slots = expected.slots

variable {walker : Walker} {expected : Expectation}

theorem shows_start (grammar : Grammar) : Shows { slots := grammar.slots } (.start grammar) where
  valid := Nat.zero_le _
  chain := rfl
  owner owed := absurd rfl owed
  slots := rfl

theorem Shows.afterFlags (shows : walker.Shows expected) (typed : List TypedFlag) :
    (walker.afterFlags typed).Shows (expected.afterFlags typed) := by
  induction typed generalizing walker expected with
  | nil => exact shows
  | cons first rest ih =>
    refine ih ?_
    dsimp only
    split
    next =>
      obtain ⟨valid, whole⟩ := ChainPlace.startAt_zero first.flag.chain
      exact ⟨valid, whole, fun _ => rfl, shows.slots⟩
    next => exact shows

theorem Shows.fill (shows : walker.Shows expected) (spent : expected.chain.next? = none) :
    walker.fill.1 = expected.fill.1 ∧ walker.fill.2.Shows expected.fill.2 := by
  unfold Walker.fill Expectation.fill
  rw [shows.slots]
  cases expected.slots with
  | nil => exact ⟨rfl, shows⟩
  | cons slot later =>
    refine ⟨rfl, ?_⟩
    dsimp only
    split
    next more =>
      obtain ⟨valid, after⟩ := ChainPlace.startAt_one more
      exact ⟨valid, after, fun _ => rfl, rfl⟩
    next short =>
      -- Neither the new chain nor the old one owes anything.
      have empty : slot.chain.rest = expected.chain :=
        (Chain.rest_of_short short).trans (Chain.eq_of_next?_none spent).symm
      exact ⟨shows.valid, shows.chain.trans empty.symm, fun owed => absurd (empty ▸ spent) owed, rfl⟩

theorem Shows.endTail (shows : walker.Shows expected) (word : String) :
    ∃ next, walker.guardedEndTail word = some next ∧ next.Shows (expected.endTail word) := by
  unfold guardedEndTail Expectation.endTail
  rw [ChainPlace.guardedAtTail_eq shows.valid, shows.chain, Option.map_some]
  cases looksLikeFlag word with
  | false => exact ⟨walker, rfl, shows⟩
  | true =>
    refine ⟨_, rfl, ?_⟩
    rw [Bool.true_and]
    split
    next => exact ⟨Nat.zero_le _, rfl, fun owed => absurd rfl owed, shows.slots⟩
    next => exact shows

theorem Shows.read (grammar : Grammar) (shows : walker.Shows expected) (word : String) :
    ∃ next, walker.guardedRead grammar word = some ((expected.read grammar word).1, next) ∧
      next.Shows (expected.read grammar word).2 := by
  obtain ⟨here, ended, shows⟩ := shows.endTail word
  unfold guardedRead Expectation.read
  rw [ended, Option.bind_eq_bind, Option.bind_some]
  dsimp only
  cases owed : (expected.endTail word).chain.next? with
  | some step =>
    obtain ⟨action, chain⟩ := step
    obtain ⟨place, popped, valid, left⟩ := ChainPlace.guardedPop_of_owed shows.valid (shows.chain ▸ owed)
    have owner := shows.owner (by rw [owed]; exact nofun)
    rw [popped, Option.bind_eq_bind, Option.bind_some]
    refine ⟨{ here with place }, ?_, valid, left, fun _ => owner, shows.slots⟩
    rw [owner]
    rfl
  | none =>
    rw [ChainPlace.guardedPop_of_spent shows.valid (shows.chain ▸ owed), Option.bind_eq_bind, Option.bind_some]
    dsimp only
    split
    next => exact ⟨_, rfl, shows.afterFlags _⟩
    next =>
      obtain ⟨same, after⟩ := shows.fill owed
      exact ⟨_, congrArg (fun reading => some (reading, here.fill.2)) same, after⟩

theorem Shows.readAll (grammar : Grammar) (shows : walker.Shows expected) (words : List String) :
    ∃ last, walker.guardedReadAll grammar words = some ((expected.readAll grammar words).1, last) ∧
      last.Shows (expected.readAll grammar words).2 := by
  induction words generalizing walker expected with
  | nil => exact ⟨walker, rfl, shows⟩
  | cons word rest ih =>
    obtain ⟨next, read, nextShows⟩ := shows.read grammar word
    obtain ⟨last, readings, lastShows⟩ := ih nextShows
    refine ⟨last, ?_, lastShows⟩
    rw [guardedReadAll, read]
    simp only [Option.bind_eq_bind, Option.bind_some, readings, Option.pure_def]
    rfl

theorem Shows.newWord (shows : walker.Shows expected) : walker.newWord = expected.newWord := by
  have front : walker.place.front? = expected.chain.first? := by
    rw [ChainPlace.front?_eq shows.valid, shows.chain]
  unfold Walker.newWord Expectation.newWord
  cases first : expected.chain.first? <;> simp only [front, first, shows.slots]

end Walker

/-! ### Parsing -/

namespace Grammar

/-- What a line says, from its readings and from how a new word is going to be read. -/
def gather (grammar : Grammar) (words : List String) (cursor : Nat) (readings : List Reading)
    (newWord : WordClass) : Parse :=
  let read := readings.zip words
  let owners := Names.ofList ((readings.filterMap Reading.owner?).flatMap Flag.spellings)
  { line := (read.filter (·.1.isText)).map (·.2)
    opts := Names.ofList ((readings.flatMap Reading.typed).flatMap (·.flag.spellings))
    excluded := Names.ofList
      (readings.zipIdx.flatMap fun (reading, index) => grammar.spent (index == cursor) reading)
    cursor
    current := words[cursor]?.getD ""
    arguments := owners.map fun spelling => (spelling, captured spelling read)
    classes := readings.map Reading.wordClass ++
      if cursor = words.length ∧ 0 < cursor then [newWord] else [] }

/-- Parses by a walk. -/
def guardedParse (grammar : Grammar) (words : List String) (cursor : Nat) : Option Parse := do
  let (readings, last) ← Walker.guardedReadAll grammar { slots := grammar.slots } words.tail
  return grammar.gather words cursor ((words.head?.map fun _ => .command).toList ++ readings) last.newWord

theorem parse_eq_gather (grammar : Grammar) (words : List String) (cursor : Nat) :
    grammar.parse words cursor =
      grammar.gather words cursor (grammar.readings words) (grammar.expectation words).newWord := rfl

theorem guardedParse_eq (grammar : Grammar) (words : List String) (cursor : Nat) :
    grammar.guardedParse words cursor = some (grammar.parse words cursor) := by
  obtain ⟨last, read, shows⟩ := (Walker.shows_start grammar).readAll grammar words.tail
  rw [guardedParse, read, parse_eq_gather]
  simp only [Option.bind_eq_bind, Option.bind_some, shows.newWord]
  cases words <;> rfl

end Grammar

end ShellCompletion
