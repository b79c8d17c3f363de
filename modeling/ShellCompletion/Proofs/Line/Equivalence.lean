import Mathlib.Data.List.Forall2
import ShellCompletion.Dispatch
import ShellCompletion.Grammar.Compile
import ShellCompletion.Proofs.Grammar.Equivalence
import ShellCompletion.Proofs.Line.Parse

/-!
# Equivalent grammars read alike

Two grammars that are alike read every line in step: what is expected stays alike, and so does the
reading of every word (`readings_alike`). A parse does not look at the order of a flag's spellings, so
the parses are equal (`parse_eq_of_alike`), and so is every completion (`complete_eq_of_alike`).
-/

namespace ShellCompletion

structure TypedFlag.Alike (a b : Grammar) (left right : TypedFlag) : Prop where
  flag : Flag.Alike a b left.flag right.flag
  short : left.short = right.short

structure Expectation.Alike (a b : Grammar) (left right : Expectation) : Prop where
  chain : left.chain = right.chain
  owner : Option.Rel (Flag.Alike a b) left.owner right.owner
  slots : left.slots = right.slots

inductive Reading.Alike (a b : Grammar) : Reading → Reading → Prop where
  | command : Alike a b .command .command
  | flags {left right : List TypedFlag} :
    List.Forall₂ (TypedFlag.Alike a b) left right → Alike a b (.flags left) (.flags right)
  | argument (action : Action) {left right : Option Flag} :
    Option.Rel (Flag.Alike a b) left right → Alike a b (.argument action left) (.argument action right)
  | positional (action : Action) : Alike a b (.positional action) (.positional action)

variable {a b : Grammar}

/-! ### Reading in step -/

theorem rel_short {left right : Option Flag} (same : Option.Rel (Flag.Alike a b) left right) :
    Option.Rel (TypedFlag.Alike a b) (left.map fun flag => { flag, short := true })
      (right.map fun flag => { flag, short := true }) := by
  cases same with
  | some alike => exact .some ⟨alike, rfl⟩
  | none => exact .none

theorem Grammar.Alike.typedFlags (same : a.Alike b) (word : String) :
    List.Forall₂ (TypedFlag.Alike a b) (a.typedFlags word) (b.typedFlags word) := by
  have related := same.flags word
  unfold Grammar.typedFlags
  generalize a.flag? word = left, b.flag? word = right at related
  cases related with
  | some alike => exact .cons ⟨alike, rfl⟩ .nil
  | none =>
    split
    next absent => cases absent
    next => exact .nil
    next =>
      apply List.rel_filterMap (R := Eq) _ (List.forall₂_refl _)
      rintro letter _ rfl
      exact rel_short (same.flags _)

namespace Expectation

variable {left right : Expectation}

theorem Alike.endTail (same : left.Alike a b right) (word : String) :
    (left.endTail word).Alike a b (right.endTail word) := by
  unfold Expectation.endTail
  rw [same.chain]
  split
  next => exact ⟨rfl, .none, same.slots⟩
  next => exact same

theorem Alike.afterFlags (same : left.Alike a b right) {typed others : List TypedFlag}
    (flags : List.Forall₂ (TypedFlag.Alike a b) typed others) :
    (left.afterFlags typed).Alike a b (right.afterFlags others) := by
  refine List.rel_foldl ?_ same flags
  intro before beside expected first second flag
  simp only [flag.flag.takesArguments]
  split
  next => exact ⟨flag.flag.chain, .some flag.flag, expected.slots⟩
  next => exact expected

theorem Alike.fill (same : left.Alike a b right) :
    left.fill.1.Alike a b right.fill.1 ∧ left.fill.2.Alike a b right.fill.2 := by
  unfold Expectation.fill
  rw [same.slots]
  split
  next => exact ⟨.positional _, same⟩
  next => exact ⟨.positional _, rfl, .none, rfl⟩

theorem Alike.read (grammars : a.Alike b) (same : left.Alike a b right) (word : String) :
    (left.read a word).1.Alike a b (right.read b word).1 ∧
      (left.read a word).2.Alike a b (right.read b word).2 := by
  have ended := same.endTail word
  unfold Expectation.read
  generalize left.endTail word = left, right.endTail word = right at ended
  simp only [ended.chain]
  split
  next => exact ⟨.argument _ ended.owner, rfl, ended.owner, ended.slots⟩
  next =>
    split
    next =>
      have typed := grammars.typedFlags word
      exact ⟨.flags typed, ended.afterFlags typed⟩
    next => exact ended.fill

theorem Alike.readAll (grammars : a.Alike b) (same : left.Alike a b right) (words : List String) :
    List.Forall₂ (Reading.Alike a b) (readAll a left words).1 (readAll b right words).1 ∧
      (readAll a left words).2.Alike a b (readAll b right words).2 := by
  induction words generalizing left right with
  | nil => exact ⟨.nil, same⟩
  | cons word rest ih =>
    obtain ⟨reading, next⟩ := same.read grammars word
    obtain ⟨readings, last⟩ := ih next
    exact ⟨.cons reading readings, last⟩

theorem Alike.newWord (same : left.Alike a b right) : left.newWord = right.newWord := by
  rw [Expectation.newWord, same.chain, same.slots, Expectation.newWord]

end Expectation

namespace Grammar

theorem Alike.start (same : a.Alike b) : (Expectation.start a).Alike a b (.start b) :=
  ⟨rfl, .none, same.slots⟩

theorem Alike.readings (same : a.Alike b) (words : List String) :
    List.Forall₂ (Reading.Alike a b) (a.readings words) (b.readings words) := by
  cases words with
  | nil => exact .nil
  | cons word rest => exact .cons .command (same.start.readAll same rest).1

theorem Alike.expectation (same : a.Alike b) (words : List String) :
    (a.expectation words).Alike a b (b.expectation words) :=
  (same.start.readAll same words.tail).2

end Grammar

/-! ### What a parse takes from a reading -/

namespace Reading

variable {left right : Reading}

theorem Alike.wordClass (same : left.Alike a b right) : left.wordClass = right.wordClass := by
  cases same <;> rfl

theorem Alike.isText (same : left.Alike a b right) : left.isText = right.isText := by
  cases same with
  | argument action owner => cases owner <;> rfl
  | command | flags | positional => rfl

theorem Alike.typed (same : left.Alike a b right) :
    List.Forall₂ (TypedFlag.Alike a b) left.typed right.typed := by
  cases same with
  | flags typed => exact typed
  | command | argument | positional => exact .nil

theorem Alike.owner (same : left.Alike a b right) :
    Option.Rel (Flag.Alike a b) left.owner? right.owner? := by
  cases same with
  | argument action owner => exact owner
  | command | flags | positional => exact .none

theorem Alike.owns (same : left.Alike a b right) (spelling : String) :
    (left.owner?.map Flag.spellings).any (spelling ∈ ·) =
      (right.owner?.map Flag.spellings).any (spelling ∈ ·) := by
  have owner := same.owner
  generalize left.owner? = first, right.owner? = second at owner
  cases owner with
  | none => rfl
  | some alike => exact decide_eq_decide.mpr (alike.spellings spelling)

theorem Alike.spent (same : left.Alike a b right) (atCursor : Bool) :
    a.spent atCursor left = b.spent atCursor right := by
  unfold Grammar.spent
  have typed := same.typed
  generalize left.typed = first, right.typed = second at typed
  induction typed with
  | nil => rfl
  | cons head _ ih =>
    rw [List.filter_cons, List.filter_cons, head.flag.repeatable, head.short]
    split
    next => rw [List.flatMap_cons, List.flatMap_cons, head.flag.rivals, ih]
    next => exact ih

end Reading

theorem exists_related {α : Type} {related : α → α → Prop} {first second : List α}
    (same : List.Forall₂ related first second) {item : α} (member : item ∈ first) :
    ∃ other ∈ second, related item other := by
  induction same with
  | nil => cases member
  | cons head _ ih =>
    rcases List.mem_cons.mp member with rfl | later
    · exact ⟨_, List.mem_cons_self .., head⟩
    · obtain ⟨other, inside, alike⟩ := ih later
      exact ⟨other, List.mem_cons_of_mem _ inside, alike⟩

section Gathering

variable {first second : List Reading} (same : List.Forall₂ (Reading.Alike a b) first second)
include same

/-- What is picked from the words by their readings only. -/
theorem filterMap_zip_eq {pick : Reading × String → Option String}
    (step : ∀ {left right : Reading} (word : String), left.Alike a b right →
      pick (left, word) = pick (right, word)) (words : List String) :
    (first.zip words).filterMap pick = (second.zip words).filterMap pick := by
  induction same generalizing words with
  | nil => rfl
  | cons head _ ih =>
    cases words with
    | nil => rfl
    | cons word rest =>
      rw [List.zip_cons_cons, List.zip_cons_cons, List.filterMap_cons, List.filterMap_cons,
        step word head, ih]

theorem line_eq (words : List String) :
    ((first.zip words).filter (·.1.isText)).map (·.2) =
      ((second.zip words).filter (·.1.isText)).map (·.2) := by
  simp only [← List.filterMap_eq_filter, List.map_filterMap]
  refine filterMap_zip_eq same ?_ words
  intro left right word alike
  simp only [Option.guard, alike.isText]
  split <;> rfl

theorem captured_eq (spelling : String) (words : List String) :
    Grammar.captured spelling (first.zip words) = Grammar.captured spelling (second.zip words) := by
  refine filterMap_zip_eq same ?_ words
  intro left right word alike
  simp only [alike.owns]

theorem wordClasses_eq : first.map Reading.wordClass = second.map Reading.wordClass := by
  induction same with
  | nil => rfl
  | cons head _ ih => rw [List.map_cons, List.map_cons, head.wordClass, ih]

theorem spent_eq (cursor start : Nat) :
    ((first.zipIdx start).flatMap fun (reading, index) => a.spent (index == cursor) reading) =
      (second.zipIdx start).flatMap fun (reading, index) => b.spent (index == cursor) reading := by
  induction same generalizing start with
  | nil => rfl
  | cons head _ ih =>
    simp only [List.zipIdx_cons, List.flatMap_cons, head.spent, ih]

theorem mem_typed_spellings {spelling : String}
    (member : spelling ∈ (first.flatMap Reading.typed).flatMap (·.flag.spellings)) :
    spelling ∈ (second.flatMap Reading.typed).flatMap (·.flag.spellings) := by
  obtain ⟨typed, inside, spelled⟩ := List.mem_flatMap.mp member
  obtain ⟨reading, read, named⟩ := List.mem_flatMap.mp inside
  obtain ⟨other, beside, alike⟩ := exists_related same read
  obtain ⟨twin, found, flags⟩ := exists_related alike.typed named
  exact List.mem_flatMap.mpr ⟨twin, List.mem_flatMap.mpr ⟨other, beside, found⟩,
    (flags.flag.spellings spelling).mp spelled⟩

theorem mem_owner_spellings {spelling : String}
    (member : spelling ∈ (first.filterMap Reading.owner?).flatMap Flag.spellings) :
    spelling ∈ (second.filterMap Reading.owner?).flatMap Flag.spellings := by
  obtain ⟨flag, inside, spelled⟩ := List.mem_flatMap.mp member
  obtain ⟨owner, related, alike⟩ :=
    exists_related (List.rel_filterMap (fun _ _ alike => alike.owner) same) inside
  exact List.mem_flatMap.mpr ⟨owner, related, (alike.spellings spelling).mp spelled⟩

end Gathering

/-! ### Equal parses and completions -/

namespace Grammar

/-- Nothing that a parse records tells two grammars apart that are alike. -/
theorem parse_eq_of_alike (same : a.Alike b) (words : List String) (cursor : Nat) :
    a.parse words cursor = b.parse words cursor := by
  have forth := same.readings words
  have back := same.symm.readings words
  -- The order of a flag's spellings is not shared, so these are compared by their members.
  have opts : Names.ofList (((a.readings words).flatMap Reading.typed).flatMap (·.flag.spellings)) =
      Names.ofList (((b.readings words).flatMap Reading.typed).flatMap (·.flag.spellings)) :=
    Names.ofList_eq_iff.mpr fun _ => ⟨mem_typed_spellings forth, mem_typed_spellings back⟩
  have owners : Names.ofList (((a.readings words).filterMap Reading.owner?).flatMap Flag.spellings) =
      Names.ofList (((b.readings words).filterMap Reading.owner?).flatMap Flag.spellings) :=
    Names.ofList_eq_iff.mpr fun _ => ⟨mem_owner_spellings forth, mem_owner_spellings back⟩
  unfold parse
  simp only [line_eq forth, opts, spent_eq forth, owners, captured_eq forth, wordClasses_eq forth,
    (same.expectation words).newWord]

theorem Alike.eligible (same : a.Alike b) (parse : Parse) : a.eligible parse = b.eligible parse := by
  rw [Grammar.eligible, same.spellings, Grammar.eligible]

/-- So no registry answers them differently, whatever its resolvers keep in their state. -/
theorem complete_eq_of_alike {σ : Type} (same : a.Alike b) (registry : Registry σ) (hops : Nat)
    (words : List String) (cursor : Nat) :
    registry.complete hops a words cursor = registry.complete hops b words cursor := by
  unfold Registry.complete Registry.suggest Registry.dispatch
  rw [parse_eq_of_alike same, same.eligible]

/-- Compiled grammars with the same signatures and slots parse every line alike and complete every
word alike, with any resolvers and any number of hops. -/
theorem equivalent_observed {left right : List String} (first : compile left = .ok a)
    (second : compile right = .ok b) (same : a.equivalent b = true) :
    (∀ (words : List String) (cursor : Nat), a.parse words cursor = b.parse words cursor) ∧
      ∀ {σ : Type} (registry : Registry σ) (hops : Nat) (words : List String) (cursor : Nat),
        registry.complete hops a words cursor = registry.complete hops b words cursor := by
  have alike := alike_of_equivalent (compile_wellFormed first) (compile_wellFormed second) same
  exact ⟨parse_eq_of_alike alike, complete_eq_of_alike alike⟩

/-- The flags stand in another order here, and so do the spellings of the first. -/
theorem equivalent_observed_reordered :
    let left := ["\x7b-a,--all\x7d:name:*-", "(mode)-b", ":*file"]
    let right := ["(mode)-b", "\x7b--all,-a\x7d:name:*-", ":*file"]
    ∃ a b, compile left = .ok a ∧ compile right = .ok b ∧ a ≠ b ∧ a.equivalent b = true ∧
      (∀ (words : List String) (cursor : Nat), a.parse words cursor = b.parse words cursor) ∧
      ∀ {σ : Type} (registry : Registry σ) (hops : Nat) (words : List String) (cursor : Nat),
        registry.complete hops a words cursor = registry.complete hops b words cursor := by
  intro left right
  have first : compile left = .ok _ := rfl
  have second : compile right = .ok _ := rfl
  exact ⟨_, _, first, second, by decide, rfl, equivalent_observed first second rfl⟩

end Grammar

end ShellCompletion
