import ShellCompletion.Proofs.Dispatch.Suggestions
import ShellCompletion.Proofs.Specification.Growth
import ShellCompletion.Proofs.Specification.Reachable

/-!
# Subcommands on offer

A command completes the first positional word by the names of its subcommands. Where one of these is put in the place
of that word, it is the first positional word again (`FirstPositional.replace`), and the descent goes one step further
(`descend_append`). So a subcommand that is offered is entered once the cursor is behind it (`offered_entered`).
-/

namespace ShellCompletion

variable {σ : Type}

/-- The command that the line selects, with the index of its command word. -/
def CommandTree.nodeAt? (tree : CommandTree σ) (words : List String) (cursor : Nat) : Option (Nat × CommandNode σ) :=
  (tree.lookup (Path.baseName (words.headD ""))).map (·.descend (words.take cursor))

/-- The word at the cursor is the first positional one behind the command word, and is to be one of the
subcommands. -/
structure CommandNode.AsksBelow (node : CommandNode σ) (words : List String) (offset cursor : Nat) (word : String) :
    Prop where
  first : node.grammar.FirstPositional (words.drop offset) (cursor - offset) word
  action : (node.grammar.parse (words.drop offset) (cursor - offset)).action = .state subcommandsState
  nonempty : word ≠ ""
  undashed : word.toList.head? ≠ some '-'
  below : node.subcommands ≠ []

/-! ### Another word in the place of the first positional one -/

namespace Grammar.FirstPositional

variable {grammar : Grammar} {typed : List String} {index : Nat} {word other : String}

theorem pos (h : grammar.FirstPositional typed index word) : 0 < index := by
  refine Nat.pos_of_ne_zero ?_
  rintro rfl
  exact role?_zero.2 h.role

theorem firstPositional?_eq (h : grammar.FirstPositional typed index word) :
    grammar.firstPositional? typed = some index := by
  obtain ⟨inside, -⟩ := List.getElem?_eq_some_iff.mp h.found
  cases found : grammar.firstPositional? typed with
  | none => exact absurd h.role (role?_of_firstPositional? found inside)
  | some first =>
    obtain ⟨-, here⟩ := pos_of_firstPositional? found
    rw [(h.unique (firstPositional_of_some found (List.getElem?_eq_getElem here))).1]

/-- What comes before a word decides whether it is positional, if it does not look like a flag. -/
theorem replace (h : grammar.FirstPositional typed index word) (bare : looksLikeFlag other = false) :
    grammar.FirstPositional (typed.take index ++ [other]) index other := by
  obtain ⟨inside, -⟩ := List.getElem?_eq_some_iff.mp h.found
  have length : (typed.take index).length = index := List.length_take_of_le (Nat.le_of_lt inside)
  have found : (typed.take index ++ [other])[index]? = some other := by
    rw [List.getElem?_append_right (by omega), length, Nat.sub_self, List.getElem?_cons_zero]
  have before {earlier : Nat} (le : earlier ≤ index) :
      (typed.take index ++ [other]).take earlier = typed.take earlier := by
    rw [List.take_append_of_le_length (by omega), List.take_take, Nat.min_eq_left le]
  refine ⟨found, ?_, fun earlier less => ?_⟩
  · obtain ⟨last, rfl⟩ := Nat.exists_eq_succ_of_ne_zero (Nat.ne_of_gt h.pos)
    have role := h.role
    rw [role?_succ h.found, Option.some.injEq, Expectation.role_read_eq_positional_iff] at role
    rw [role?_succ found, Option.some.injEq, Expectation.role_read_eq_positional_iff, before (Nat.le_refl _)]
    exact ⟨role.1, bare⟩
  · rw [Parse.role?, class?_eq_of_take grammar (before less) (by simp; omega) _ typed.length]
    exact h.first earlier less

end Grammar.FirstPositional

/-! ### One step further down -/

namespace CommandNode

variable {node child : CommandNode σ} {typed : List String} {index : Nat} {name : String}

theorem next?_of_first (first : node.grammar.FirstPositional typed index name)
    (known : node.subcommands.lookup name = some child) : node.next? typed = some (index, child) := by
  simp [next?, first.firstPositional?_eq, first.found, known]

theorem next?_append (next : node.next? typed = some (index, child)) (more : List String) :
    node.next? (typed ++ more) = some (index, child) := by
  obtain ⟨name, first, known⟩ := named_of_next? next
  exact next?_of_first (first.mono (List.prefix_append typed more)) known

/-- With more words the descent goes on from where it would end without them. -/
theorem descend_append (node : CommandNode σ) (typed more : List String) :
    let down := node.descend typed
    let further := down.2.descend ((typed ++ more).drop down.1)
    node.descend (typed ++ more) = (down.1 + further.1, further.2) := by
  fun_induction descend node typed with
  | case1 node typed index child next offset reached lower ih =>
    obtain ⟨-, inside⟩ := pos_of_next? next
    have behind : (typed ++ more).drop index = typed.drop index ++ more :=
      List.drop_append_of_le_length (Nat.le_of_lt inside)
    rw [lower] at ih
    rw [descend_of_some (next?_append next more), behind, ih, ← behind]
    dsimp only
    rw [List.drop_drop, Nat.add_assoc]
  | case2 node typed stuck => simp

end CommandNode

namespace CommandTree

variable {tree : CommandTree σ} {words : List String} {cursor offset : Nat} {node child : CommandNode σ}
  {word name : String}

theorem select_of_nodeAt? (found : tree.nodeAt? words cursor = some (offset, node)) :
    tree.select words cursor = .ok { grammar := node.grammar, offset, registry := node.registry } := by
  obtain ⟨top, known, down⟩ := Option.map_eq_some_iff.mp found
  exact select_ok_iff_descend.mpr ⟨top, known, by rw [down]⟩

theorem exists_path_of_nodeAt? (found : tree.nodeAt? words cursor = some (offset, node)) :
    ∃ path, tree.node? path = some node := by
  obtain ⟨top, known, down⟩ := Option.map_eq_some_iff.mp found
  obtain ⟨path, below, -⟩ := top.below?_descend (words.take cursor)
  rw [down] at below
  exact ⟨Path.baseName (words.headD "") :: path, by rw [node?, known]; exact below⟩

/-- Putting the name of a subcommand in the place of the word leads to the subcommand. -/
theorem nodeAt?_set (found : tree.nodeAt? words cursor = some (offset, node))
    (first : node.grammar.FirstPositional (words.drop offset) (cursor - offset) word)
    (bare : looksLikeFlag name = false) (known : node.subcommands.lookup name = some child) :
    tree.nodeAt? (words.set cursor name) (cursor + 1) = some (cursor, child) := by
  have before := first.pos
  obtain ⟨inside, -⟩ := List.getElem?_eq_some_iff.mp first.found
  rw [List.length_drop] at inside
  have length : (words.take cursor).length = cursor := List.length_take_of_le (by omega)
  have typed : (words.set cursor name).take (cursor + 1) = words.take cursor ++ [name] := by
    rw [List.take_add_one, List.take_set_of_le (Nat.le_refl cursor), List.getElem?_set_self (by omega),
      Option.toList_some]
  have head : (words.set cursor name).headD "" = words.headD "" := by
    cases words with
    | nil => rfl
    | cons first rest => rw [← Nat.sub_add_cancel (by omega : 1 ≤ cursor)]; rfl
  have line : (words.take cursor ++ [name]).drop offset = (words.drop offset).take (cursor - offset) ++ [name] := by
    rw [List.drop_append_of_le_length (by omega), List.drop_take]
  obtain ⟨top, selected, down⟩ := Option.map_eq_some_iff.mp found
  have step : node.next? ((words.take cursor ++ [name]).drop offset) = some (cursor - offset, child) := by
    rw [line]
    exact CommandNode.next?_of_first (first.replace bare) known
  -- Behind the name there are no words yet, so the descent rests.
  have rests : child.descend (((words.take cursor ++ [name]).drop offset).drop (cursor - offset)) = (0, child) := by
    rw [List.drop_drop, Nat.add_sub_cancel' (by omega), List.drop_append_of_le_length (by omega),
      List.drop_eq_nil_of_le (by omega)]
    exact CommandNode.descend_of_none rfl
  rw [nodeAt?, head, typed, selected, Option.map_some, CommandNode.descend_append, down,
    CommandNode.descend_of_some step, rests]
  simp only [Nat.add_zero]
  rw [Nat.add_sub_cancel' (by omega)]

end CommandTree

/-! ### What is offered -/

namespace Registry

variable {registry : Registry σ}

/-- The words of a state are one hop away. -/
theorem complete_of_words {grammar : Grammar} {words : List String} {cursor : Nat} {name : String}
    {items : List String} {policy : Policy} (undashed : wantsFlags (grammar.parse words cursor) = false)
    (action : (grammar.parse words cursor).action = .state name)
    (known : registry.state? name = some (.words items policy)) (hops : Nat) (session : σ) :
    registry.complete (hops + 1) grammar words cursor session =
      (policy.select items (words[cursor]?.getD ""), session) := by
  have dispatched : registry.dispatch grammar (grammar.parse words cursor) words session = (.state name, session) := by
    rw [dispatch, undashed, action]
    rfl
  have resolved : registry.resolveState name (grammar.parse words cursor) words session =
      (.suggestions (policy.select items (words[cursor]?.getD "")), session) := by
    rw [resolveState, known]
    rfl
  have hop : registry.hop? ⟨grammar.parse words cursor, words, .state name, session⟩ = some _ := rfl
  have settled := follow_of_hop hops hop
  rw [complete, suggest]
  show registry.follow _ words (hops + 1) (registry.dispatch _ _ words session).1
    (registry.dispatch _ _ words session).2 = _
  rw [dispatched, settled, resolved]
  cases hops <;> rfl

end Registry

section

variable {ω : Type} {workshop : Workshop ω} {registry inherited : Registry (Session ω)} {path : List String}

theorem names_buildAll {commands : Specification} {tree : CommandTree (Session ω)}
    (built : buildAll workshop path inherited commands = .ok tree) : Table.names tree = Table.names commands := by
  induction commands generalizing tree with
  | nil =>
    obtain rfl := Except.ok.inj built
    rfl
  | cons entry rest ih =>
    obtain ⟨node, -, others, later, rfl⟩ := buildAll_cons_ok_iff.mp built
    exact congrArg (entry.1 :: ·) (ih later)

/-- A command knows its subcommands by their names, in ascending order. -/
theorem Reached.names {commands : Specification} {spec : CommandSpec} {node : CommandNode (Session ω)}
    (ordered : commands.Ordered) (h : Reached workshop registry commands path spec node) :
    Names.Ascending (Table.names node.subcommands) ∧
      (node.subcommands ≠ [] →
        node.registry.state? subcommandsState = some (.words (Table.names node.subcommands))) := by
  have resolves := h.resolves subcommandsState
  obtain ⟨found, own, -, makes⟩ := h
  have same := names_buildAll makes.subcommands
  constructor
  · rw [same]
    exact (ordered.command? found).subcommands.ascending
  · intro below
    rw [same]
    exact resolves.unique (.listed (mt (Table.eq_nil_iff_of_names same).mpr below))

end

theorem looksLikeFlag_of_extends {word name : String} (nonempty : word ≠ "")
    (undashed : word.toList.head? ≠ some '-') (longer : word.toList <+: name.toList) : looksLikeFlag name = false := by
  obtain ⟨rest, same⟩ := longer
  have filled : word.toList ≠ [] := mt String.toList_eq_nil_iff.mp nonempty
  obtain ⟨first, others, cut⟩ := List.exists_cons_of_ne_nil filled
  rw [cut, List.head?_cons, ne_eq, Option.some.injEq] at undashed
  unfold looksLikeFlag
  rw [← same, cut, List.cons_append]
  split
  next again => exact absurd (List.cons.inj again).1 undashed
  next => rfl

namespace CommandNode.AsksBelow

variable {node : CommandNode σ} {words : List String} {offset cursor : Nat} {word : String}

theorem offset_lt (asks : node.AsksBelow words offset cursor word) : offset < cursor ∧ cursor < words.length := by
  have before := asks.first.pos
  obtain ⟨inside, -⟩ := List.getElem?_eq_some_iff.mp asks.first.found
  rw [List.length_drop] at inside
  omega

/-- The registry answers by the list of names, and keeps their order. -/
theorem complete_eq (asks : node.AsksBelow words offset cursor word) {names : List String}
    (ascending : Names.Ascending names) (listed : node.registry.state? subcommandsState = some (.words names))
    {hops : Nat} (hopping : 0 < hops) (session : σ) :
    node.registry.complete hops node.grammar (words.drop offset) (cursor - offset) session =
      (names.filter (Policy.beginsWith · word), session) := by
  have undashed : Registry.wantsFlags (node.grammar.parse (words.drop offset) (cursor - offset)) = false := by
    have current : (node.grammar.parse (words.drop offset) (cursor - offset)).current = word := by
      rw [Grammar.parse, asks.first.found]
      rfl
    rw [Registry.wantsFlags, current, beq_false_of_ne asks.undashed, Bool.false_and]
  obtain ⟨fewer, rfl⟩ := Nat.exists_eq_succ_of_ne_zero (Nat.ne_of_gt hopping)
  rw [Registry.complete_of_words undashed asks.action listed, asks.first.found, Option.getD_some,
    Policy.select_of_ascending ascending]
  rfl

end CommandNode.AsksBelow

namespace CommandTree

variable {ω : Type} {workshop : Workshop ω} {registry : Registry (Session ω)} {commands : Specification}
  {tree : CommandTree (Session ω)} {words : List String} {cursor offset : Nat} {node : CommandNode (Session ω)}
  {word : String}

theorem names_of_node? (loads : Loads workshop registry commands (.ok tree)) {path : List String}
    (known : tree.node? path = some node) :
    Names.Ascending (Table.names node.subcommands) ∧
      (node.subcommands ≠ [] →
        node.registry.state? subcommandsState = some (.words (Table.names node.subcommands))) := by
  obtain ⟨spec, reached⟩ := exists_reached_of_node? loads known
  exact reached.names loads.ordered

/-- Where a command asks for a subcommand, the suggestions are the names of its subcommands that begin with what is
typed. Each of them, put in the place of the word, selects the subcommand of that name once the cursor is behind it. -/
theorem offered_entered (loads : Loads workshop registry commands (.ok tree))
    (selected : tree.nodeAt? words cursor = some (offset, node))
    (asks : node.AsksBelow words offset cursor word) {hops : Nat} (hopping : 0 < hops) :
    let offered := (Table.names node.subcommands).filter (Policy.beginsWith · word)
    tree.select words cursor = .ok { grammar := node.grammar, offset, registry := node.registry } ∧
    (∃ request, (Engine.mk tree.select hops).complete words cursor = .ok request ∧
      ∀ session, request session = (offered, session)) ∧
    ∀ name ∈ offered, ∃ child, node.subcommands.lookup name = some child ∧
      tree.nodeAt? (words.set cursor name) (cursor + 1) = some (cursor, child) ∧
      tree.select (words.set cursor name) (cursor + 1) =
        .ok { grammar := child.grammar, offset := cursor, registry := child.registry } := by
  intro offered
  have selects := select_of_nodeAt? selected
  obtain ⟨before, inside⟩ := asks.offset_lt
  refine ⟨selects, ?_, fun name member => ?_⟩
  · obtain ⟨path, known⟩ := exists_path_of_nodeAt? selected
    obtain ⟨ascending, listed⟩ := names_of_node? loads known
    have whole : min offset (min cursor (words.length - 1)) = offset := by omega
    refine ⟨node.registry.complete hops node.grammar (words.drop offset) (cursor - offset), ?_,
      asks.complete_eq ascending (listed asks.below) hopping⟩
    rw [Engine.complete_of_typed (List.ne_nil_of_length_pos (by omega))]
    dsimp only
    rw [selects, Except.map]
    dsimp only
    rw [whole]
  · obtain ⟨listed, begins⟩ := List.mem_filter.mp member
    obtain ⟨child, known⟩ := Option.isSome_iff_exists.mp (Table.isSome_lookup_iff.mpr listed)
    have bare := looksLikeFlag_of_extends asks.nonempty asks.undashed (Policy.beginsWith_iff.mp begins)
    have entered := nodeAt?_set selected asks.first bare known
    exact ⟨child, known, entered, select_of_nodeAt? entered⟩

set_option maxRecDepth 2048 in
/-- The subcommand `remote` offers two of its own subcommands for `a`, and the second of them is entered. -/
theorem offered_entered_nested :
    let text := "[commands.pkg.subcommands.remote]\ntokens=['-v',':subcommands']\n" ++
      "[commands.pkg.subcommands.remote.subcommands]\nadd={}\nall={}\nrename={}"
    let workshop : Workshop Unit := { run := fun _ _ _ _ => return none }
    let leaf : CommandNode (Session Unit) := ⟨{}, {}, []⟩
    let remote : CommandNode (Session Unit) := {
      grammar := { flags := [{ canonical := "-v" }], slots := [⟨⟨[.state "subcommands"], none⟩, false⟩] }
      registry := { states := [("subcommands", .words ["add", "all", "rename"])] }
      subcommands := [("add", leaf), ("all", leaf), ("rename", leaf)] }
    let pkg : CommandNode (Session Unit) :=
      ⟨{}, { states := [("subcommands", .words ["remote"])] }, [("remote", remote)]⟩
    let words := ["/usr/bin/pkg", "remote", "-v", "a", "x"]
    ofText workshop {} text = .ok [("pkg", pkg)] ∧ nodeAt? [("pkg", pkg)] words 3 = some (1, remote) ∧
      remote.AsksBelow words 1 3 "a" ∧ 0 < 1 ∧
      (∃ request, (Engine.mk (select [("pkg", pkg)]) 1).complete words 3 = .ok request ∧
        ∀ session, request session = (["add", "all"], session)) ∧
      select [("pkg", pkg)] ["/usr/bin/pkg", "remote", "-v", "all", "x"] 4 =
        .ok { grammar := {}, offset := 3, registry := {} } := by
  intro text workshop leaf remote pkg words
  have read : Specification.read? text = some [("pkg", { subcommands := [("remote", {
      tokens := ["-v", ":subcommands"], subcommands := [("add", {}), ("all", {}), ("rename", {})] })] })] := by
    simp only [text]
    cbv
  have loads : ofText workshop {} text = .ok [("pkg", pkg)] := (ofText_of_read read).trans rfl
  have down : pkg.next? (words.take 3) = some (1, remote) := rfl
  have selected : nodeAt? [("pkg", pkg)] words 3 = some (1, remote) := by
    have command : Path.baseName (words.headD "") = "pkg" := by decide
    rw [nodeAt?, command, List.lookup_cons_self, Option.map_some, CommandNode.descend_of_some down,
      CommandNode.descend_of_none rfl]
    rfl
  have asks : remote.AsksBelow words 1 3 "a" := {
    first := ⟨rfl, rfl, by decide⟩
    action := rfl
    nonempty := by decide
    undashed := by decide
    below := List.cons_ne_nil _ _ }
  have names : (Table.names remote.subcommands).filter (Policy.beginsWith · "a") = ["add", "all"] := by decide
  obtain ⟨-, offered, entered⟩ := offered_entered (Loads.of_ofText read loads) selected asks (by decide : 0 < 1)
  rw [names] at offered
  obtain ⟨child, known, -, selects⟩ := entered "all" (by decide)
  obtain rfl : leaf = child := Option.some.inj known
  exact ⟨loads, selected, asks, by decide, offered, selects⟩

end CommandTree

end ShellCompletion
