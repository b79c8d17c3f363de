import Mathlib.Data.List.Chain
import ShellCompletion.Proofs.Dispatch.Suggestions
import ShellCompletion.Proofs.Line.Parse
import ShellCompletion.Specification.Selection

/-!
# Descent into subcommands

A node leads to the subcommand that the first positional word before the cursor names. The descent goes
from word to word as long as there is such a subcommand (`exists_trail`), so the selected node is the
last one of a trail that starts at the command of the first word (`select_exact`).
-/

namespace ShellCompletion

/-- The first positional word, when `typed` is read with the grammar, has position `index`. -/
structure Grammar.FirstPositional (grammar : Grammar) (typed : List String) (index : Nat)
    (word : String) : Prop where
  found : typed[index]? = some word
  role : (grammar.parse typed typed.length).role? index = some .positional
  first : ∀ earlier < index, (grammar.parse typed typed.length).role? earlier ≠ some .positional

namespace CommandNode

variable {σ : Type}

/-- From a node and the word that selected it, the line leads to a subcommand and the word that names
it, which is the first positional word before the cursor. -/
structure Descends (words : List String) (cursor : Nat) (here there : Nat × CommandNode σ) : Prop where
  forward : here.1 < there.1
  before : there.1 < cursor
  named : ∃ name,
    here.2.grammar.FirstPositional ((words.take cursor).drop here.1) (there.1 - here.1) name ∧
      here.2.subcommands.lookup name = some there.2

/-- No word before the cursor leads further down. -/
def Rests (words : List String) (cursor : Nat) (last : Nat × CommandNode σ) : Prop :=
  let typed := (words.take cursor).drop last.1
  last.2.subcommands = [] ∨
    (∀ index < typed.length, (last.2.grammar.parse typed typed.length).role? index ≠ some .positional) ∨
    ∃ index name, last.2.grammar.FirstPositional typed index name ∧ last.2.subcommands.lookup name = none

/-- The nodes from `top` down to `bottom`, where the descent ends. -/
structure Trail (words : List String) (cursor : Nat) (top bottom : Nat × CommandNode σ)
    (trail : List (Nat × CommandNode σ)) : Prop where
  first : trail.head? = some top
  last : trail.getLast? = some bottom
  steps : trail.IsChain (Descends words cursor)
  rests : Rests words cursor bottom

end CommandNode

/-! ### The first positional word -/

namespace Grammar

variable {grammar : Grammar} {words typed : List String} {cursor index : Nat} {word : String}

theorem isPositional_iff (inside : index < (grammar.readings words).length) (cursor : Nat) :
    (grammar.readings words)[index].isPositional = true ↔
      (grammar.parse words cursor).role? index = some .positional := by
  rw [role?_of_reading (List.getElem?_eq_getElem inside)]
  cases (grammar.readings words)[index] <;> simp [Reading.isPositional, Reading.wordClass]

theorem firstPositional_of_some (found : grammar.firstPositional? typed = some index)
    (here : typed[index]? = some word) : grammar.FirstPositional typed index word := by
  obtain ⟨inside, positional, earlier⟩ := List.findIdx?_eq_some_iff_getElem.mp found
  exact {
    found := here
    role := (isPositional_iff inside _).mp positional
    first := fun other less =>
      mt (isPositional_iff (Nat.lt_trans less inside) _).mpr (earlier other less) }

theorem role?_of_firstPositional? (none : grammar.firstPositional? typed = none)
    (inside : index < typed.length) :
    (grammar.parse typed cursor).role? index ≠ some .positional := by
  have read : index < (grammar.readings typed).length := by simpa using inside
  have other := List.findIdx?_eq_none_iff.mp none _ (List.getElem_mem read)
  rw [ne_eq, ← isPositional_iff read cursor, other]
  exact nofun

end Grammar

/-! ### One step down -/

namespace CommandNode

variable {σ : Type} {node child : CommandNode σ} {words typed : List String} {cursor index : Nat}

theorem named_of_next? (next : node.next? typed = some (index, child)) :
    ∃ name, node.grammar.FirstPositional typed index name ∧ node.subcommands.lookup name = some child := by
  obtain ⟨position, first, next⟩ := Option.bind_eq_some_iff.mp next
  obtain ⟨name, found, next⟩ := Option.bind_eq_some_iff.mp next
  obtain ⟨below, known, same⟩ := Option.bind_eq_some_iff.mp next
  obtain ⟨rfl, rfl⟩ := Prod.mk.inj (Option.some.inj same)
  exact ⟨name, Grammar.firstPositional_of_some first found, known⟩

theorem descends_of_next? {start : Nat}
    (next : node.next? ((words.take cursor).drop start) = some (index, child)) :
    Descends words cursor (start, node) (start + index, child) := by
  obtain ⟨forward, inside⟩ := pos_of_next? next
  rw [List.length_drop, List.length_take] at inside
  exact {
    forward := by dsimp only; omega
    before := by dsimp only; omega
    named := by
      rw [Nat.add_sub_cancel_left]
      exact named_of_next? next }

theorem rests_of_next? {start : Nat} (stuck : node.next? ((words.take cursor).drop start) = none) :
    Rests words cursor (start, node) := by
  unfold Rests
  dsimp only
  generalize (words.take cursor).drop start = typed at stuck
  cases first : node.grammar.firstPositional? typed with
  | none => exact .inr (.inl fun index inside => Grammar.role?_of_firstPositional? first inside)
  | some index =>
    obtain ⟨-, inside⟩ := Grammar.pos_of_firstPositional? first
    have found : typed[index]? = some typed[index] := List.getElem?_eq_getElem inside
    refine .inr (.inr ⟨index, typed[index], Grammar.firstPositional_of_some first found, ?_⟩)
    cases known : node.subcommands.lookup typed[index] with
    | none => rfl
    | some child => simp [next?, first, found, known] at stuck

/-! ### All the way down -/

theorem Trail.extend {top next bottom : Nat × CommandNode σ} {trail : List (Nat × CommandNode σ)}
    (below : Trail words cursor next bottom trail) (step : Descends words cursor top next) :
    Trail words cursor top bottom (top :: trail) where
  first := rfl
  last := by rw [List.getLast?_cons, below.last, Option.getD_some]
  steps := by
    refine List.isChain_cons.mpr ⟨fun there head => ?_, below.steps⟩
    obtain rfl := Option.some.inj (below.first.symm.trans head)
    exact step
  rests := below.rests

theorem Trail.before {top bottom : Nat × CommandNode σ} {trail : List (Nat × CommandNode σ)}
    (walked : Trail words cursor top bottom trail) (moved : 1 < trail.length) : bottom.1 < cursor := by
  induction trail generalizing top with
  | nil => cases moved
  | cons head rest ih =>
    cases rest with
    | nil => exact absurd moved (Nat.lt_irrefl 1)
    | cons next rest =>
      obtain ⟨step, steps⟩ := List.isChain_cons_cons.mp walked.steps
      have last := walked.last
      rw [List.getLast?_cons_cons] at last
      cases rest with
      | nil =>
        obtain rfl := Option.some.inj last
        exact step.before
      | cons => exact ih ⟨rfl, last, steps, walked.rests⟩ (by simp)

theorem descend_of_some (next : node.next? typed = some (index, child)) :
    node.descend typed =
      (index + (child.descend (typed.drop index)).1, (child.descend (typed.drop index)).2) := by
  rw [descend]
  split
  next found =>
    obtain ⟨rfl, rfl⟩ := Prod.mk.inj (Option.some.inj (next.symm.trans found))
    rfl
  next stuck => rw [next] at stuck; cases stuck

theorem descend_of_none (stuck : node.next? typed = none) : node.descend typed = (0, node) := by
  rw [descend]
  split
  next found => rw [stuck] at found; cases found
  next => rfl

theorem exists_trail (words : List String) (cursor start : Nat) (node : CommandNode σ) :
    let down := node.descend ((words.take cursor).drop start)
    ∃ trail, Trail words cursor (start, node) (start + down.1, down.2) trail := by
  generalize shape : (words.take cursor).drop start = typed
  fun_induction CommandNode.descend node typed generalizing start with
  | case1 node typed index child next offset reached lower ih =>
    -- The word that names the subcommand is the command word for all that is below.
    subst shape
    obtain ⟨trail, below⟩ := ih (start + index) (by rw [List.drop_drop])
    rw [lower, Nat.add_assoc] at below
    exact ⟨_, below.extend (descends_of_next? next)⟩
  | case2 node typed stuck =>
    subst shape
    exact ⟨[(start, node)], rfl, rfl, .singleton _, rests_of_next? stuck⟩

end CommandNode

/-! ### Selection -/

/-- The last path name is what follows the last slash. -/
theorem Path.slash_baseName (path : String) :
    '/' ∉ (baseName path).toList ∧
      (path = baseName path ∨ ∃ directory, path = directory ++ "/" ++ baseName path) := by
  unfold baseName
  have whole := Text.cutLast_append '/' path.toList
  have absent := Text.not_mem_cutLast '/' path.toList
  have before := Text.cutLast_before '/' path.toList
  generalize (Text.cutLast '/' path.toList).2 = name at whole absent ⊢
  refine ⟨by rwa [String.toList_ofList], ?_⟩
  rcases before with none | ⟨directory, ends⟩
  · rw [none, List.nil_append] at whole
    exact .inl (by rw [whole, String.ofList_toList])
  · rw [ends] at whole
    refine .inr ⟨String.ofList directory, String.toList_inj.mp ?_⟩
    rw [← whole]
    simp

namespace CommandTree

variable {σ : Type}

theorem lookup_eq_none_iff {tree : CommandTree σ} {name : String} :
    tree.lookup name = none ↔ name ∉ tree.names := by
  rw [List.lookup_eq_none_iff, names, List.mem_map]
  constructor
  · rintro other ⟨entry, inside, rfl⟩
    exact absurd (other entry inside) (by simp)
  · intro absent entry inside
    simpa using fun same => absent ⟨entry, inside, same.symm⟩

variable {tree : CommandTree σ} {word : String}

theorem select_of_lookup {node : CommandNode σ} (found : tree.lookup (Path.baseName word) = some node)
    (rest : List String) (cursor : Nat) :
    tree.select (word :: rest) cursor =
      let down := node.descend ((word :: rest).take cursor)
      .ok { grammar := down.2.grammar, offset := down.1, registry := down.2.registry } := by
  unfold select
  dsimp only [List.headD_cons]
  rw [found]

/-- A command without subcommands reads the whole line. -/
theorem select_of_leaf {node : CommandNode σ} (found : tree.lookup (Path.baseName word) = some node)
    (leaf : node.subcommands = []) (rest : List String) (cursor : Nat) :
    tree.select (word :: rest) cursor = .ok { grammar := node.grammar, offset := 0, registry := node.registry } := by
  have stuck : node.next? ((word :: rest).take cursor) = none := by
    simp [CommandNode.next?, leaf]
  rw [select_of_lookup found, CommandNode.descend_of_none stuck]

theorem complete_of_leaf {node : CommandNode σ} (found : tree.lookup (Path.baseName word) = some node)
    (leaf : node.subcommands = []) (hops : Nat) (rest : List String) (cursor : Nat) :
    Engine.complete { select := tree.select, hops } (word :: rest) cursor =
      .ok (node.registry.complete hops node.grammar (word :: rest) cursor) := by
  rw [Engine.complete_of_typed (List.cons_ne_nil _ _)]
  dsimp only
  rw [select_of_leaf found leaf]
  show Except.ok (node.registry.complete _ _ ((word :: rest).drop (min 0 _)) (cursor - min 0 _)) = _
  rw [Nat.zero_min, List.drop_zero, Nat.sub_zero]

theorem select_of_unknown (unknown : tree.lookup (Path.baseName word) = none) (rest : List String)
    (cursor : Nat) :
    tree.select (word :: rest) cursor = .error (.spec (.unknownCommand (Path.baseName word))) := by
  unfold select
  dsimp only [List.headD_cons]
  rw [unknown]

theorem select_ok_iff_descend {words : List String} {cursor : Nat} {selection : Selection σ} :
    tree.select words cursor = .ok selection ↔
      ∃ top, tree.lookup (Path.baseName (words.headD "")) = some top ∧
        let down := top.descend (words.take cursor)
        selection = { grammar := down.2.grammar, offset := down.1, registry := down.2.registry } := by
  unfold select
  dsimp only
  generalize Path.baseName (words.headD "") = command
  cases tree.lookup command <;> simp [eq_comm]

/-- The last path name of the first word selects a command, or there is no such command. From there the
line leads down as far as the words before the cursor say. -/
theorem select_exact (tree : CommandTree σ) (word : String) (rest : List String) (cursor : Nat) :
    let words := word :: rest
    let command := Path.baseName word
    ('/' ∉ command.toList ∧ (word = command ∨ ∃ directory, word = directory ++ "/" ++ command)) ∧
    (∀ error, tree.select words cursor = .error error ↔
      command ∉ tree.names ∧ error = .spec (.unknownCommand command)) ∧
    (command ∈ tree.names → ∃ node offset reached trail, tree.lookup command = some node ∧
      tree.select words cursor =
        .ok { grammar := reached.grammar, offset, registry := reached.registry } ∧
      CommandNode.Trail words cursor (0, node) (offset, reached) trail ∧
      (1 < trail.length → offset < cursor)) := by
  intro words command
  refine ⟨Path.slash_baseName word, fun error => ?_, fun known => ?_⟩
  · rw [← lookup_eq_none_iff]
    cases found : tree.lookup command with
    | none => simp [words, command, select_of_unknown found, eq_comm]
    | some node => simp [words, select_of_lookup found]
  · cases found : tree.lookup command with
    | none => exact absurd known (lookup_eq_none_iff.mp found)
    | some node =>
      obtain ⟨trail, walked⟩ := CommandNode.exists_trail words cursor 0 node
      rw [Nat.zero_add, List.drop_zero] at walked
      exact ⟨node, _, _, trail, rfl, select_of_lookup found rest cursor, walked, walked.before⟩

/-- The first `remote` is an argument of `-c`, so the second one names the subcommand. -/
theorem select_exact_argument :
    let remote : CommandNode Unit := ⟨{}, {}, []⟩
    let pkg : CommandNode Unit :=
      ⟨{ flags := [{ canonical := "-c", chain := ⟨[.state "file"], none⟩ }] }, {}, [("remote", remote)]⟩
    let tree : CommandTree Unit := [("pkg", pkg)]
    let words := ["/usr/bin/pkg", "-c", "remote", "remote", "x"]
    Path.baseName "/usr/bin/pkg" ∈ tree.names ∧
      tree.select words 5 = .ok { grammar := {}, offset := 3, registry := {} } ∧
      ∃ reached trail, CommandNode.Trail words 5 (0, pkg) (3, reached) trail := by
  intro remote pkg tree words
  have known : Path.baseName "/usr/bin/pkg" ∈ tree.names := by decide
  obtain ⟨node, offset, reached, trail, found, selected, walked, -⟩ :=
    (select_exact tree "/usr/bin/pkg" words.tail 5).2.2 known
  obtain rfl : pkg = node := Option.some.inj found
  have down : pkg.next? (words.take 5) = some (3, remote) := rfl
  have deepest : remote.next? ((words.take 5).drop 3) = none := rfl
  have selects : tree.select words 5 = .ok { grammar := {}, offset := 3, registry := {} } := by
    rw [select_of_lookup found, CommandNode.descend_of_some down, CommandNode.descend_of_none deepest]
    rfl
  obtain rfl : 3 = offset :=
    congrArg Selection.offset (Except.ok.inj (selects.symm.trans selected))
  exact ⟨known, selects, reached, trail, walked⟩

end CommandTree

end ShellCompletion
