import ShellCompletion.Proofs.Dispatch.Agreement
import ShellCompletion.Proofs.Specification.Descent

/-!
# Trees that agree

Trees agree if the same paths lead to commands in both, with the same grammars and with resolvers that agree. A
line then leads down both trees in the same way (`AgreeBelow.descend`) and selects alike (`select_alike`).
-/

namespace ShellCompletion

variable {σ τ : Type} {asked : Resolver σ → Request → Prop} {related : σ → τ → Prop}

structure CommandNode.Agree (asked : Resolver σ → Request → Prop) (related : σ → τ → Prop) (one : CommandNode σ)
    (other : CommandNode τ) : Prop where
  grammar : one.grammar = other.grammar
  registry : one.registry.Agree asked related other.registry

/-- The same paths lead further down from both nodes, to nodes that agree. -/
def CommandNode.AgreeBelow (asked : Resolver σ → Request → Prop) (related : σ → τ → Prop) (one : CommandNode σ)
    (other : CommandNode τ) : Prop :=
  ∀ path, Option.Rel (CommandNode.Agree asked related) (one.below? path) (other.below? path)

def CommandTree.Agree (asked : Resolver σ → Request → Prop) (related : σ → τ → Prop) (one : CommandTree σ)
    (other : CommandTree τ) : Prop :=
  ∀ path, Option.Rel (CommandNode.Agree asked related) (one.node? path) (other.node? path)

/-- The resolver is asked the request while one of the lines is completed. -/
def CommandTree.Asks (tree : CommandTree σ) (lines : List (List String × Nat)) (resolver : Resolver σ)
    (request : Request) : Prop :=
  ∃ words cursor selection, (words, cursor) ∈ lines ∧ tree.select words cursor = .ok selection ∧
    selection.Asks words cursor resolver request

/-- Where paths agree, so do the first names and what is below them. -/
theorem agreeBelow_lookup {one : List (String × CommandNode σ)} {other : List (String × CommandNode τ)} (name : String)
    (agree : ∀ rest, Option.Rel (CommandNode.Agree asked related) ((one.lookup name).bind (·.below? rest))
      ((other.lookup name).bind (·.below? rest))) :
    Option.Rel (CommandNode.AgreeBelow asked related) (one.lookup name) (other.lookup name) := by
  cases first : one.lookup name with
  | none =>
    cases second : other.lookup name with
    | none => exact .none
    | some node' => simpa [first, second, CommandNode.below?] using agree []
  | some node =>
    cases second : other.lookup name with
    | none => simpa [first, second, CommandNode.below?] using agree []
    | some node' =>
      refine .some fun rest => ?_
      have rest := agree rest
      rwa [first, second] at rest

namespace CommandNode

variable {one : CommandNode σ} {other : CommandNode τ}

theorem AgreeBelow.here (agree : one.AgreeBelow asked related other) : one.Agree asked related other := by
  cases agree [] with
  | some here => exact here

theorem AgreeBelow.next? (agree : one.AgreeBelow asked related other) (typed : List String) :
    Option.Rel (fun next next' => next.1 = next'.1 ∧ next.2.AgreeBelow asked related next'.2)
      (one.next? typed) (other.next? typed) := by
  unfold CommandNode.next?
  rw [agree.here.grammar]
  cases other.grammar.firstPositional? typed with
  | none => exact .none
  | some index =>
    cases named : typed[index]? with
    | none => simp [named]
    | some name =>
      have below := agreeBelow_lookup name fun rest => agree (name :: rest)
      simp only [named, bind, Option.bind_some]
      generalize one.subcommands.lookup name = node, other.subcommands.lookup name = node' at below
      cases below with
      | none => exact .none
      | some children => exact .some ⟨rfl, children⟩

theorem AgreeBelow.descend (agree : one.AgreeBelow asked related other) (typed : List String) :
    (one.descend typed).1 = (other.descend typed).1 ∧
      (one.descend typed).2.Agree asked related (other.descend typed).2 := by
  fun_induction CommandNode.descend one typed generalizing other with
  | case1 one typed index child next offset reached lower ih =>
    have nexts := agree.next? typed
    rw [next] at nexts
    cases next' : other.next? typed with
    | none => rw [next'] at nexts; cases nexts
    | some step =>
      obtain ⟨index', child'⟩ := step
      rw [next', Option.rel_some_some] at nexts
      obtain ⟨rfl, children⟩ := nexts
      have below := ih children
      rw [lower] at below
      rw [descend_of_some next']
      exact ⟨congrArg (index + ·) below.1, below.2⟩
  | case2 one typed stuck =>
    have nexts := agree.next? typed
    rw [stuck] at nexts
    cases next' : other.next? typed with
    | none =>
      rw [descend_of_none next']
      exact ⟨rfl, agree.here⟩
    | some step => rw [next'] at nexts; cases nexts

end CommandNode

theorem CommandTree.select_alike {one : CommandTree σ} {other : CommandTree τ} (agree : one.Agree asked related other)
    (words : List String) (cursor : Nat) :
    Alike (Selection.Agree asked related) (one.select words cursor) (other.select words cursor) := by
  have top := agreeBelow_lookup (Path.baseName (words.headD "")) fun rest =>
    agree (Path.baseName (words.headD "") :: rest)
  unfold select
  dsimp only
  generalize one.lookup (Path.baseName (words.headD "")) = node,
    other.lookup (Path.baseName (words.headD "")) = node' at top
  cases top with
  | none => exact .error _
  | some nodes =>
    obtain ⟨offset, here⟩ := nodes.descend (words.take cursor)
    exact .ok ⟨here.grammar, offset, here.registry⟩

end ShellCompletion
