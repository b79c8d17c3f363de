import ShellCompletion.Proofs.Dispatch.Guarded
import ShellCompletion.Proofs.Specification.Descent

/-!
# Guarded selection

The descent into subcommands as a loop over positions of the whole line, by guarded operations: every node
reads the line from its own word up to the cursor, which may lie before that word or after the line. The
loop finds what the plain descent finds (`guardedDescend_eq`). No request leaves the range of its
words, whatever is selected, resolved and delegated (`request_in_range`).
-/

namespace ShellCompletion

open Guarded

theorem Grammar.find?_positional (grammar : Grammar) (typed : List String) :
    (List.range typed.length).find? (fun index =>
      0 < index && (grammar.parse typed typed.length).role? index == some .positional) =
        grammar.firstPositional? typed := by
  cases first : grammar.firstPositional? typed with
  | none =>
    refine List.find?_range_eq_none.mpr fun index inside => ?_
    simp [role?_of_firstPositional? first inside]
  | some index =>
    obtain ⟨forward, inside⟩ := pos_of_firstPositional? first
    have found := firstPositional_of_some first (List.getElem?_eq_getElem inside)
    refine List.find?_range_eq_some.mpr ⟨?_, List.mem_range.mpr inside, fun earlier less => ?_⟩
    · simp [forward, found.role]
    · simp [found.first earlier less]

namespace CommandNode

variable {σ : Type}

/-- The subcommand that the words from `offset` up to the cursor lead to, and the word that names it. -/
def guardedNext (node : CommandNode σ) (words : List String) (cursor offset : Nat) :
    Option (Option (Nat × CommandNode σ)) :=
  if node.subcommands.isEmpty then some none
  else do
    let last ← clamp cursor offset words.length
    let typed ← slice words offset last
    let parse ← node.grammar.guardedParse typed typed.length
    let first := (List.range typed.length).find? fun index =>
      0 < index && parse.role? index == some .positional
    match first with
    | none => return none
    | some index =>
      let name ← typed[index]?
      match node.subcommands.lookup name with
      | none => return none
      | some child =>
        let next ← add words.length offset index
        return some (next, child)

theorem slice_to_cursor (words : List String) (cursor : Nat) {offset : Nat} (inside : offset ≤ words.length) :
    slice words offset (max offset (min cursor words.length)) = some ((words.take cursor).drop offset) := by
  rw [slice_of_le (Nat.le_max_left ..) (by omega), List.drop_take, List.drop_take]
  refine congrArg some ?_
  by_cases before : cursor ≤ words.length
  · congr 1
    omega
  · rw [List.take_of_length_le, List.take_of_length_le] <;> simp <;> omega

theorem next?_of_leaf {node : CommandNode σ} (leaf : node.subcommands = []) (typed : List String) :
    node.next? typed = none := by
  cases next : node.next? typed with
  | none => rfl
  | some found =>
    obtain ⟨name, -, known⟩ := named_of_next? next
    rw [leaf] at known
    cases known

theorem guardedNext_eq (node : CommandNode σ) (words : List String) (cursor : Nat) {offset : Nat}
    (inside : offset ≤ words.length) :
    node.guardedNext words cursor offset =
      some ((node.next? ((words.take cursor).drop offset)).map fun (index, child) => (offset + index, child)) := by
  unfold guardedNext
  split
  next leaf => rw [next?_of_leaf (List.isEmpty_iff.mp leaf)]; rfl
  next =>
    have short : offset + ((words.take cursor).drop offset).length ≤ words.length := by
      rw [List.length_drop, List.length_take]
      omega
    simp only [clamp_of_le inside, slice_to_cursor words cursor inside, Grammar.guardedParse_eq,
      Option.bind_eq_bind, Option.bind_some, Grammar.find?_positional]
    generalize (words.take cursor).drop offset = typed at short ⊢
    unfold next?
    cases first : node.grammar.firstPositional? typed with
    | none => rfl
    | some index =>
      obtain ⟨-, below⟩ := Grammar.pos_of_firstPositional? first
      have room : add words.length offset index = some (offset + index) := add_of_le (by omega)
      simp only [List.getElem?_eq_getElem below, Option.bind_eq_bind, Option.bind_some]
      cases node.subcommands.lookup typed[index] with
      | none => rfl
      | some child => rw [room]; rfl

theorem guardedNext_forward {node child : CommandNode σ} {words : List String} {cursor offset next : Nat}
    (found : node.guardedNext words cursor offset = some (some (next, child))) :
    offset < next ∧ next ≤ words.length := by
  by_cases inside : offset ≤ words.length
  · rw [guardedNext_eq node words cursor inside] at found
    obtain ⟨⟨index, below⟩, step, same⟩ := Option.map_eq_some_iff.mp (Option.some.inj found)
    obtain ⟨rfl, rfl⟩ := Prod.mk.inj same
    obtain ⟨forward, before⟩ := pos_of_next? step
    rw [List.length_drop, List.length_take] at before
    omega
  · have outside : clamp cursor offset words.length = none := if_neg inside
    unfold guardedNext at found
    split at found
    · cases found
    · rw [outside] at found
      cases found

/-- Goes down as far as the words lead. -/
def guardedDescend (node : CommandNode σ) (words : List String) (cursor offset : Nat) :
    Option (Nat × CommandNode σ) :=
  match _h : node.guardedNext words cursor offset with
  | none => none
  | some none => some (offset, node)
  | some (some (next, child)) => child.guardedDescend words cursor next
termination_by words.length - offset
decreasing_by
  have := guardedNext_forward _h
  omega

theorem guardedDescend_eq (node : CommandNode σ) (words : List String) (cursor : Nat) {offset : Nat}
    (inside : offset ≤ words.length) :
    node.guardedDescend words cursor offset =
      let down := node.descend ((words.take cursor).drop offset)
      some (offset + down.1, down.2) := by
  -- The invariant of the loop is that the node's own word lies in the line.
  fun_induction guardedDescend node words cursor offset with
  | case1 node offset failed =>
    rw [guardedNext_eq node words cursor inside] at failed
    cases failed
  | case2 node offset settled =>
    rw [guardedNext_eq node words cursor inside] at settled
    have stuck := Option.map_eq_none_iff.mp (Option.some.inj settled)
    rw [descend_of_none stuck]
    rfl
  | case3 node offset next child found ih =>
    have within := (guardedNext_forward found).2
    rw [guardedNext_eq node words cursor inside] at found
    obtain ⟨⟨index, below⟩, step, same⟩ := Option.map_eq_some_iff.mp (Option.some.inj found)
    obtain ⟨rfl, rfl⟩ := Prod.mk.inj same
    rw [ih within, descend_of_some step, List.drop_drop]
    simp only [Nat.add_assoc]

end CommandNode

namespace CommandTree

variable {σ : Type}

def guardedSelect (tree : CommandTree σ) (words : List String) (cursor : Nat) :
    Except Error (Option (Selection σ)) :=
  let command := Path.baseName (words.headD "")
  match tree.lookup command with
  | none => .error (.spec (.unknownCommand command))
  | some node => .ok do
    let (offset, reached) ← node.guardedDescend words cursor 0
    return { grammar := reached.grammar, offset, registry := reached.registry }

theorem guardedSelect_eq (tree : CommandTree σ) (words : List String) (cursor : Nat) :
    tree.guardedSelect words cursor = (tree.select words cursor).map some := by
  unfold guardedSelect select
  dsimp only
  cases tree.lookup (Path.baseName (words.headD "")) with
  | none => rfl
  | some node =>
    dsimp only
    rw [CommandNode.guardedDescend_eq node words cursor (Nat.zero_le _), List.drop_zero]
    simp only [Nat.zero_add]
    rfl

theorem select_fails_iff (tree : CommandTree σ) (word : String) (rest : List String) (cursor : Nat) :
    (∃ error, tree.select (word :: rest) cursor = .error error) ↔ Path.baseName word ∉ tree.names := by
  rw [← lookup_eq_none_iff]
  cases found : tree.lookup (Path.baseName word) with
  | none => simp [select_of_unknown found]
  | some node => simp [select_of_lookup found]

end CommandTree

/-- Guarded by the range of everything it accesses, a request still answers, and answers the same: when
it parses, when it follows what the resolvers of any registry say, and when it explains a line under what
any selector selects or selects a command of a tree. It fails only if nothing is selected, which in a tree
means that the first word names no command. -/
theorem request_in_range :
    (∀ grammar words cursor, Grammar.guardedParse grammar words cursor = some (grammar.parse words cursor)) ∧
    (∀ {σ : Type} (registry : Registry σ) (limit : Nat) (grammar : Grammar) (parse : Parse)
        (words : List String) (session : σ),
      registry.guardedSuggest limit grammar parse words session =
        some (registry.suggest limit grammar parse words session)) ∧
    (∀ {σ : Type} (engine : Engine σ) (words : List String) (cursor : Nat),
      engine.guardedExplain words cursor = (engine.explain words cursor).map lift ∧
      ∀ error, engine.explain words cursor = .error error ↔
        words ≠ [] ∧ engine.select words cursor = .error error) ∧
    (∀ {σ : Type} (tree : CommandTree σ) (words : List String) (cursor : Nat),
      tree.guardedSelect words cursor = (tree.select words cursor).map some) ∧
    ∀ {σ : Type} (tree : CommandTree σ) (word : String) (rest : List String) (cursor : Nat),
      (∃ error, tree.select (word :: rest) cursor = .error error) ↔ Path.baseName word ∉ tree.names := by
  refine ⟨Grammar.guardedParse_eq, fun registry limit grammar parse words session => ?_,
    fun engine words cursor => ⟨engine.guardedExplain_eq words cursor, fun error => Engine.explain_error_iff⟩,
    CommandTree.guardedSelect_eq, CommandTree.select_fails_iff⟩
  rw [Registry.guardedSuggest_eq, lift]

end ShellCompletion
