import ShellCompletion.Proofs.Line.Causality
import ShellCompletion.Proofs.Specification.Descent

/-!
# Selection while a line grows

Only the first word and the words before the cursor decide what is selected. When the cursor moves right, the
descent goes the same way and perhaps further (`select_grows`).
-/

namespace ShellCompletion

/-- The line selects the last node of a trail that starts at the command of the first word. -/
def CommandTree.Selects {σ : Type} (tree : CommandTree σ) (words : List String) (cursor : Nat)
    (trail : List (Nat × CommandNode σ)) (selection : Selection σ) : Prop :=
  ∃ top bottom, tree.lookup (Path.baseName (words.headD "")) = some top ∧
    CommandNode.Trail words cursor (0, top) bottom trail ∧
    selection = { grammar := bottom.2.grammar, offset := bottom.1, registry := bottom.2.registry }

/-! ### The first positional word -/

namespace Grammar.FirstPositional

variable {grammar : Grammar} {typed more : List String} {index other : Nat} {word another : String}

/-- More words do not change which word is the first positional one. -/
theorem mono (h : grammar.FirstPositional typed index word) (longer : typed <+: more) :
    grammar.FirstPositional more index word := by
  obtain ⟨rest, rfl⟩ := longer
  obtain ⟨inside, -⟩ := List.getElem?_eq_some_iff.mp h.found
  have role {earlier : Nat} (le : earlier ≤ index) :
      (grammar.parse (typed ++ rest) (typed ++ rest).length).role? earlier =
        (grammar.parse typed typed.length).role? earlier := by
    have same : typed.take (earlier + 1) = (typed ++ rest).take (earlier + 1) := by
      rw [List.take_append_of_le_length (by omega)]
    rw [Parse.role?, Parse.role?, class?_eq_of_take grammar same (by omega) _ (typed ++ rest).length]
  constructor
  · rw [List.getElem?_append_left inside, h.found]
  · rw [role (Nat.le_refl index), h.role]
  · intro earlier less
    rw [role (Nat.le_of_lt less)]
    exact h.first earlier less

theorem unique (h : grammar.FirstPositional typed index word)
    (h' : grammar.FirstPositional typed other another) : index = other ∧ word = another := by
  have same : index = other := by
    rcases Nat.lt_trichotomy index other with less | same | greater
    · exact absurd h.role (h'.first index less)
    · exact same
    · exact absurd h'.role (h.first other greater)
  subst same
  exact ⟨rfl, Option.some.inj (h.found.symm.trans h'.found)⟩

end Grammar.FirstPositional

/-! ### One step down -/

namespace CommandNode

variable {σ : Type} {words : List String} {cursor later : Nat}

section

variable {here there other : Nat × CommandNode σ}

theorem Descends.mono (h : Descends words cursor here there) (le : cursor ≤ later) :
    Descends words later here there where
  forward := h.forward
  before := Nat.lt_of_lt_of_le h.before le
  named := by
    obtain ⟨name, first, known⟩ := h.named
    refine ⟨name, first.mono ?_, known⟩
    rw [List.drop_take, List.drop_take]
    exact List.take_prefix_take_left (Nat.sub_le_sub_right le here.1)

theorem Descends.unique (h : Descends words cursor here there) (h' : Descends words cursor here other) :
    there = other := by
  obtain ⟨name, first, known⟩ := h.named
  obtain ⟨name', first', known'⟩ := h'.named
  obtain ⟨index, rfl⟩ := first.unique first'
  have forward := h.forward
  have forward' := h'.forward
  have position : there.1 = other.1 := by omega
  exact Prod.ext position (Option.some.inj (known.symm.trans known'))

theorem Rests.not_descends (rests : Rests words cursor here) : ¬ Descends words cursor here there := by
  intro step
  obtain ⟨name, first, known⟩ := step.named
  rcases rests with none | none | ⟨index, name', first', unknown⟩
  · rw [none] at known
    cases known
  · obtain ⟨inside, -⟩ := List.getElem?_eq_some_iff.mp first.found
    exact none _ inside first.role
  · obtain ⟨-, rfl⟩ := first.unique first'
    rw [known] at unknown
    cases unknown

end

/-! ### All the way down -/

namespace Trail

variable {top bottom bottom' : Nat × CommandNode σ} {trail trail' : List (Nat × CommandNode σ)}

theorem cases (walked : Trail words cursor top bottom trail) :
    (trail = [top] ∧ bottom = top ∧ Rests words cursor top) ∨
    ∃ next rest, trail = top :: rest ∧ Descends words cursor top next ∧
      Trail words cursor next bottom rest := by
  obtain ⟨first, last, steps, rests⟩ := walked
  match trail with
  | [] => cases first
  | [only] =>
    obtain rfl := Option.some.inj first
    obtain rfl := Option.some.inj last
    exact .inl ⟨rfl, rfl, rests⟩
  | head :: next :: rest =>
    obtain rfl := Option.some.inj first
    obtain ⟨step, steps⟩ := List.isChain_cons_cons.mp steps
    rw [List.getLast?_cons_cons] at last
    exact .inr ⟨next, next :: rest, rfl, step, rfl, last, steps, rests⟩

theorem top_le_bottom (walked : Trail words cursor top bottom trail) : top.1 ≤ bottom.1 := by
  induction trail generalizing top with
  | nil => cases walked.first
  | cons head rest ih =>
    rcases walked.cases with ⟨-, rfl, -⟩ | ⟨next, others, same, step, below⟩
    · exact Nat.le_refl _
    · obtain ⟨rfl, rfl⟩ := List.cons.inj same
      exact Nat.le_trans (Nat.le_of_lt step.forward) (ih below)

/-- With the cursor further right, the descent goes the same way and perhaps further. -/
theorem grows (walked : Trail words cursor top bottom trail) (further : Trail words later top bottom' trail')
    (le : cursor ≤ later) : trail <+: trail' ∧ bottom.1 ≤ bottom'.1 := by
  induction trail generalizing top trail' with
  | nil => cases walked.first
  | cons head rest ih =>
    rcases walked.cases with ⟨same, rfl, -⟩ | ⟨next, others, same, step, below⟩
    · refine ⟨?_, further.top_le_bottom⟩
      rw [same]
      rcases further.cases with ⟨rfl, -, -⟩ | ⟨next, rest, rfl, -, -⟩
      · exact List.prefix_refl _
      · exact ⟨rest, rfl⟩
    · obtain ⟨rfl, rfl⟩ := List.cons.inj same
      -- The step is still there when more words count, so the other descent does not rest here.
      have onward := step.mono le
      rcases further.cases with ⟨-, -, rests⟩ | ⟨next', rest', rfl, step', below'⟩
      · exact absurd onward rests.not_descends
      · obtain rfl := onward.unique step'
        obtain ⟨longer, offset⟩ := ih below below'
        exact ⟨List.cons_prefix_cons.mpr ⟨rfl, longer⟩, offset⟩

theorem unique (walked : Trail words cursor top bottom trail) (walked' : Trail words cursor top bottom' trail') :
    trail = trail' ∧ bottom = bottom' := by
  have longer := (walked.grows walked' (Nat.le_refl cursor)).1
  have shorter := (walked'.grows walked (Nat.le_refl cursor)).1
  obtain rfl := longer.eq_of_length (Nat.le_antisymm longer.length_le shorter.length_le)
  exact ⟨rfl, Option.some.inj (walked.last.symm.trans walked'.last)⟩

end Trail

end CommandNode

/-! ### Selection -/

namespace CommandTree

variable {σ : Type} {tree : CommandTree σ} {words other : List String} {cursor : Nat}

theorem select_congr (same : words.take (max cursor 1) = other.take (max cursor 1)) :
    tree.select words cursor = tree.select other cursor := by
  have before : words.take cursor = other.take cursor := by
    have cut := congrArg (List.take cursor) same
    rwa [List.take_take, List.take_take, Nat.min_eq_left (Nat.le_max_left cursor 1)] at cut
  have first : words.head? = other.head? := by
    have nonzero : max cursor 1 ≠ 0 := by omega
    simpa [List.head?_take, nonzero] using congrArg List.head? same
  unfold select
  rw [before, List.headD_eq_head?_getD, List.headD_eq_head?_getD, first]

theorem select_error_iff {error : Error} :
    tree.select words cursor = .error error ↔ tree.lookup (Path.baseName (words.headD "")) = none ∧
      error = .spec (.unknownCommand (Path.baseName (words.headD ""))) := by
  unfold select
  dsimp only
  generalize Path.baseName (words.headD "") = command
  cases tree.lookup command <;> simp [eq_comm]

theorem select_ok_iff {selection : Selection σ} :
    tree.select words cursor = .ok selection ↔ ∃ trail, tree.Selects words cursor trail selection := by
  have walks (top : CommandNode σ) :
      ∃ trail, CommandNode.Trail words cursor (0, top) (top.descend (words.take cursor)) trail := by
    simpa using CommandNode.exists_trail words cursor 0 top
  rw [select_ok_iff_descend]
  constructor
  · rintro ⟨top, known, same⟩
    obtain ⟨trail, walked⟩ := walks top
    exact ⟨trail, top, _, known, walked, same⟩
  · rintro ⟨trail, top, bottom, known, walked, same⟩
    obtain ⟨trail', walked'⟩ := walks top
    obtain ⟨-, rfl⟩ := walked.unique walked'
    exact ⟨top, known, same⟩

/-- Words at the cursor and behind it do not matter, except for the first word. What is selected is the end of a
trail, and with the cursor further right the trail goes on from there. -/
theorem select_grows (tree : CommandTree σ) :
    (∀ (words other : List String) (cursor : Nat), words.take (max cursor 1) = other.take (max cursor 1) →
      tree.select words cursor = tree.select other cursor) ∧
    (∀ words cursor selection, tree.select words cursor = .ok selection ↔
      ∃ trail, tree.Selects words cursor trail selection) ∧
    ∀ words cursor later, cursor ≤ later →
      (∀ error, tree.select words cursor = .error error ↔ tree.select words later = .error error) ∧
      ∀ trail trail' selection selection', tree.Selects words cursor trail selection →
        tree.Selects words later trail' selection' →
          trail <+: trail' ∧ selection.offset ≤ selection'.offset := by
  refine ⟨fun words other cursor => select_congr, fun words cursor selection => select_ok_iff,
    fun words cursor later le => ⟨fun error => by rw [select_error_iff, select_error_iff], ?_⟩⟩
  rintro trail trail' _ _ ⟨top, bottom, known, walked, rfl⟩ ⟨top', bottom', known', walked', rfl⟩
  obtain rfl := Option.some.inj (known.symm.trans known')
  exact walked.grows walked' le

/-- The word `remote` counts once the cursor is behind it. -/
theorem select_grows_remote :
    let remote : CommandNode Unit := ⟨{}, {}, []⟩
    let tree : CommandTree Unit := [("pkg", ⟨{}, {}, [("remote", remote)]⟩)]
    let words := ["pkg", "remote", "x"]
    words.take (max 1 1) = ["pkg", "y"].take (max 1 1) ∧ tree.select words 1 = tree.select ["pkg", "y"] 1 ∧
      ∃ trail trail' selection selection', tree.Selects words 1 trail selection ∧
        tree.Selects words 2 trail' selection' ∧ trail <+: trail' ∧
        selection.offset = 0 ∧ selection'.offset = 1 := by
  intro remote tree words
  obtain ⟨stable, selects, grows⟩ := select_grows tree
  have here : tree.select words 1 = .ok { grammar := {}, offset := 0, registry := {} } := by
    rw [select_of_lookup rfl, CommandNode.descend_of_none rfl]
  have there : tree.select words 2 = .ok { grammar := {}, offset := 1, registry := {} } := by
    rw [select_of_lookup rfl, CommandNode.descend_of_some rfl, CommandNode.descend_of_none rfl]
    rfl
  obtain ⟨trail, walked⟩ := (selects _ _ _).mp here
  obtain ⟨trail', walked'⟩ := (selects _ _ _).mp there
  obtain ⟨longer, -⟩ := (grows words 1 2 (by decide)).2 trail trail' _ _ walked walked'
  exact ⟨rfl, stable words ["pkg", "y"] 1 rfl, trail, trail', _, _, walked, walked', longer, rfl, rfl⟩

end CommandTree

end ShellCompletion
