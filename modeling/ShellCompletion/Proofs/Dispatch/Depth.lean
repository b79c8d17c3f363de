import ShellCompletion.Grammar.Compile
import ShellCompletion.Proofs.Dispatch.Hop

/-!
# Limits on hops

Whoever takes the steps of a request by hand comes to suggestions after a number of states and grammars, or
never does (`Settles`). A limit on hops decides only whether these suggestions are reached: one that is large
enough changes nothing, and one that is too small leaves nothing (`complete_within`).
-/

namespace ShellCompletion

variable {σ : Type}

namespace Registry

/-- From the stage on, asking each state that is named and reading the line against each grammar that begins
within it leads to the suggestions `items`, after `count` of these. -/
inductive Settles (registry : Registry σ) : Nat → Stage σ → List String → Prop
  | offered {stage items} (step : stage.step = .suggestions items) : Settles registry 0 stage items
  | asked {count stage name items} (step : stage.step = .state name)
      (later :
        let resolved := registry.resolveState name stage.parse stage.words stage.session
        Settles registry count { stage with step := resolved.1, session := resolved.2 } items) :
      Settles registry (count + 1) stage items
  | opened {count stage next offset items} (step : stage.step = .grammar next offset)
      (below : offset ≤ stage.parse.cursor) (inside : offset ≤ stage.words.length)
      (later : Settles registry count
        (registry.opening next (stage.words.drop offset) (stage.parse.cursor - offset) stage.session) items) :
      Settles registry (count + 1) stage items

variable {registry : Registry σ} {stage : Stage σ} {items : List String} {count : Nat}

theorem settles_zero_iff : registry.Settles 0 stage items ↔ stage.step = .suggestions items := by
  constructor
  · intro settles
    cases settles with
    | offered step => exact step
  · exact .offered

theorem settles_succ_iff :
    registry.Settles (count + 1) stage items ↔
      ∃ next, registry.hop? stage = some next ∧ registry.Settles count next items := by
  constructor
  · intro settles
    cases settles with
    | asked step later => exact ⟨_, hop?_eq_some_iff.mpr (.inl ⟨_, step, rfl⟩), later⟩
    | opened step below inside later =>
      exact ⟨_, hop?_eq_some_iff.mpr (.inr ⟨_, _, step, below, inside, rfl⟩), later⟩
  · rintro ⟨next, hop, later⟩
    rcases hop?_eq_some_iff.mp hop with ⟨name, step, rfl⟩ | ⟨grammar, offset, step, below, inside, rfl⟩
    · exact .asked step later
    · exact .opened step below inside later

/-- A run that may take all the hops ends at the suggestions, and a shorter one before there are any. -/
theorem items_run_of_settles (settles : registry.Settles count stage items) (hops : Nat) :
    (registry.run hops stage).items = if count ≤ hops then items else [] := by
  induction count generalizing stage hops with
  | zero =>
    have offered := settles_zero_iff.mp settles
    rw [run_of_suggestions hops offered, Stage.items_of_suggestions offered, if_pos (Nat.zero_le hops)]
  | succ count ih =>
    obtain ⟨next, hop, later⟩ := settles_succ_iff.mp settles
    cases hops with
    | zero =>
      -- There is a hop still to take, so the step here is no suggestion.
      rw [if_neg (Nat.not_succ_le_zero count), run]
      rcases hop?_eq_some_iff.mp hop with ⟨name, step, -⟩ | ⟨grammar, offset, step, -⟩
      · rw [Stage.items, step]
      · rw [Stage.items, step]
    | succ hops =>
      rw [run_of_hop hops hop, ih later]
      simp only [Nat.succ_le_succ_iff]

theorem exists_settles_of_items (hops : Nat) (some : (registry.run hops stage).items ≠ []) :
    ∃ count items, registry.Settles count stage items := by
  induction hops generalizing stage with
  | zero =>
    cases step : stage.step with
    | suggestions items => exact ⟨0, items, .offered step⟩
    | state name => exact absurd (by rw [run, Stage.items, step]) some
    | grammar next offset => exact absurd (by rw [run, Stage.items, step]) some
  | succ hops ih =>
    cases hop : registry.hop? stage with
    | none =>
      rw [run_of_stop _ hop, ← run_of_stop hops hop] at some
      exact ih some
    | some next =>
      rw [run_of_hop hops hop] at some
      obtain ⟨count, items, later⟩ := ih some
      exact ⟨count + 1, items, settles_succ_iff.mpr ⟨next, hop, later⟩⟩

/-- The suggestions that the steps of a request lead to are its answer if it may take so many hops; with fewer
hops, or where no suggestions are ever reached, the answer is empty. So an answer that is not empty stays the
same for every larger number of hops. -/
theorem complete_within (registry : Registry σ) (grammar : Grammar) (words : List String) (cursor : Nat)
    (session : σ) :
    let first := registry.opening grammar words cursor session
    let answer hops := (registry.complete hops grammar words cursor session).1
    (∀ count items, registry.Settles count first items →
      ∀ hops, answer hops = if count ≤ hops then items else []) ∧
    ((∀ count items, ¬ registry.Settles count first items) → ∀ hops, answer hops = []) ∧
    ∀ hops more, hops ≤ more → answer hops ≠ [] → answer more = answer hops := by
  intro first answer
  have ran (hops : Nat) : answer hops = (registry.run hops first).items :=
    congrArg Prod.fst (complete_eq_run registry hops grammar words cursor session)
  have settled {count : Nat} {items : List String} (settles : registry.Settles count first items) (hops : Nat) :
      answer hops = if count ≤ hops then items else [] := by
    rw [ran, items_run_of_settles settles]
  refine ⟨fun count items settles => settled settles, fun never hops => ?_, fun hops more le some => ?_⟩
  · refine Classical.byContradiction fun some => ?_
    rw [ran] at some
    obtain ⟨count, items, settles⟩ := exists_settles_of_items hops some
    exact never count items settles
  · obtain ⟨count, items, settles⟩ := exists_settles_of_items hops (ran hops ▸ some)
    have enough : count ≤ hops := by
      refine Decidable.byContradiction fun few => some ?_
      rw [settled settles, if_neg few]
    rw [settled settles, settled settles, if_pos enough, if_pos (Nat.le_trans enough le)]

/-- Hands the line after the command word to `below`. -/
private def above : Grammar := { slots := [⟨⟨[.function "rest"], none⟩, true⟩] }

private def below : Grammar := { slots := [⟨⟨[.state "any"], none⟩, true⟩] }

private def circle : Grammar := { slots := [⟨⟨[.state "again"], none⟩, true⟩] }

private def levels : Registry Unit := {
  states := [("again", .alias "again"), ("any", .alias "level"), ("level", .words ["low", "high"])]
  functions := [("rest", fun _ => return .grammar below 1)] }

/-- One hop to a grammar and two to states lead to words; the other grammar asks a state that leads to
itself. -/
theorem complete_within_three :
    Grammar.compile [":*rest()"] = .ok above ∧ Grammar.compile [":*any"] = .ok below ∧
      Grammar.compile [":*again"] = .ok circle ∧
      levels.Settles 3 (levels.opening above ["tool", "run", "l"] 2 ()) ["low"] ∧
      (levels.complete 2 above ["tool", "run", "l"] 2 ()).1 = [] ∧
      (levels.complete 3 above ["tool", "run", "l"] 2 ()).1 = ["low"] ∧
      (levels.complete 8 above ["tool", "run", "l"] 2 ()).1 = (levels.complete 3 above ["tool", "run", "l"] 2 ()).1 ∧
      (∀ count items, ¬ levels.Settles count (levels.opening circle ["tool", "run", "l"] 2 ()) items) ∧
      ∀ hops, (levels.complete hops circle ["tool", "run", "l"] 2 ()).1 = [] := by
  have settles : levels.Settles 3 (levels.opening above ["tool", "run", "l"] 2 ()) ["low"] := by
    refine settles_succ_iff.mpr ⟨_, rfl, ?_⟩
    refine settles_succ_iff.mpr ⟨_, rfl, ?_⟩
    refine settles_succ_iff.mpr ⟨_, rfl, ?_⟩
    exact .offered rfl
  have never (count : Nat) (items : List String) :
      ¬ levels.Settles count (levels.opening circle ["tool", "run", "l"] 2 ()) items := by
    induction count with
    | zero =>
      intro settles
      have step : (levels.opening circle ["tool", "run", "l"] 2 ()).step = .state "again" := rfl
      exact Step.noConfusion (step.symm.trans (settles_zero_iff.mp settles))
    | succ count ih =>
      intro settles
      obtain ⟨next, hop, later⟩ := settles_succ_iff.mp settles
      -- The state leads back to where the request was.
      have back : levels.hop? (levels.opening circle ["tool", "run", "l"] 2 ()) =
          some (levels.opening circle ["tool", "run", "l"] 2 ()) := rfl
      obtain rfl := Option.some.inj (back.symm.trans hop)
      exact ih later
  obtain ⟨reached, -, grows⟩ := complete_within levels above ["tool", "run", "l"] 2 ()
  obtain ⟨-, empty, -⟩ := complete_within levels circle ["tool", "run", "l"] 2 ()
  have enough : (levels.complete 3 above ["tool", "run", "l"] 2 ()).1 = ["low"] := reached 3 ["low"] settles 3
  refine ⟨rfl, rfl, rfl, settles, reached 3 ["low"] settles 2, enough, grows 3 8 (by decide) ?_, never, empty never⟩
  show (levels.complete 3 above ["tool", "run", "l"] 2 ()).1 ≠ []
  rw [enough]
  exact List.cons_ne_nil _ _

end Registry

end ShellCompletion
