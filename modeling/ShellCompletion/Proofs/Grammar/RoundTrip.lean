import ShellCompletion.Grammar.Signature
import ShellCompletion.Proofs.Grammar.WellFormed

/-!
# Compiling what a grammar is written as

A well-formed grammar comes back from its own tokens with nothing lost but its named sets
(`compile_tokens`). Compiled grammars are well-formed, so compiling, writing and compiling again is
compiling once (`recompile`).
-/

namespace ShellCompletion

open Declaration

namespace Draft

def addFlags (draft : Draft) (flags : List Flag) : Draft :=
  { draft with grammar := { draft.grammar with flags := draft.grammar.flags ++ flags } }

def addSlots (draft : Draft) (slots : List Slot) : Draft :=
  { draft with grammar := { draft.grammar with slots := draft.grammar.slots ++ slots } }

theorem addFlags_addFlags (draft : Draft) (first second : List Flag) :
    (draft.addFlags first).addFlags second = draft.addFlags (first ++ second) := by
  simp [addFlags]

theorem addSlots_addSlots (draft : Draft) (first second : List Slot) :
    (draft.addSlots first).addSlots second = draft.addSlots (first ++ second) := by
  simp [addSlots]

/-- The token of a flag whose spellings are all new adds that flag as it stands. -/
theorem addToken_flag {draft : Draft} {flag : Flag} (wellFormed : flag.WellFormed)
    (new : ∀ other ∈ draft.grammar.flags, other.Apart flag) (noSets : draft.grammar.sets = []) :
    draft.addToken flag.token = .ok (draft.addFlags [flag]) := by
  have untouched : draft.grammar.flags.filter (touches flag.declaration) = [] := by
    apply List.filter_eq_nil_iff.mpr
    intro other member
    rw [Bool.not_eq_true]
    exact touches_eq_false_iff.mpr (new other member)
  have declares : draft.declareFlag flag.declaration = .ok (draft.grammar.flags ++ [flag]) := by
    refine declareFlag_ok_iff.mpr (.inl ⟨untouched, ?_⟩)
    rw [Flag.ofDeclaration_declaration]
  have kept : draft.collect flag.declaration.spellings = draft.grammar.sets := by
    rw [collect, noSets, List.map_nil]
  refine bind_ok.mpr ⟨_, read_flag_token _ wellFormed, bind_ok.mpr ⟨_, declares, ?_⟩⟩
  rw [kept]
  rfl

theorem addToken_slot (draft : Draft) {slot : Slot} (wellFormed : slot.WellFormed) :
    draft.addToken slot.token = .ok (draft.addSlots [slot]) :=
  bind_ok.mpr ⟨_, read_slot_token _ wellFormed, rfl⟩

theorem addTokens_flags (draft : Draft) (index : Nat) {flags : List Flag} (more : List String)
    (wellFormed : ∀ flag ∈ flags, flag.WellFormed)
    (apart : (draft.grammar.flags ++ flags).Pairwise Flag.Apart) (noSets : draft.grammar.sets = []) :
    draft.addTokens index (flags.map Flag.token ++ more) =
      (draft.addFlags flags).addTokens (index + flags.length) more := by
  induction flags generalizing draft index with
  | nil => simp [addFlags]
  | cons flag rest ih =>
    have new : ∀ other ∈ draft.grammar.flags, other.Apart flag := fun other member =>
      (List.pairwise_append.mp apart).2.2 other member flag (List.mem_cons_self ..)
    have added := addToken_flag (wellFormed flag (List.mem_cons_self ..)) new noSets
    have later := ih (draft.addFlags [flag]) (index + 1)
      (fun other member => wellFormed other (List.mem_cons_of_mem _ member))
      (by simpa [addFlags] using apart) noSets
    rw [List.map_cons, List.cons_append, addTokens, added]
    dsimp only
    rw [later, addFlags_addFlags, List.length_cons, List.singleton_append, Nat.add_right_comm,
      Nat.add_assoc]

theorem addTokens_slots (draft : Draft) (index : Nat) {slots : List Slot}
    (wellFormed : ∀ slot ∈ slots, slot.WellFormed) :
    draft.addTokens index (slots.map Slot.token) = .ok (draft.addSlots slots) := by
  induction slots generalizing draft index with
  | nil => simp [addTokens, addSlots]
  | cons slot rest ih =>
    have added := addToken_slot draft (wellFormed slot (List.mem_cons_self ..))
    have later := ih (draft.addSlots [slot]) (index + 1)
      fun other member => wellFormed other (List.mem_cons_of_mem _ member)
    rw [List.map_cons, addTokens, added]
    dsimp only
    rw [later, addSlots_addSlots, List.singleton_append]

end Draft

/-- A well-formed grammar is compiled from its tokens, less its named sets. -/
theorem compile_tokens {grammar : Grammar} (wellFormed : grammar.WellFormed) :
    Grammar.compile grammar.tokens = .ok { grammar with sets := [] } := by
  have flags := Draft.addTokens_flags {} 0 (grammar.slots.map Slot.token)
    wellFormed.flags (by simpa using wellFormed.apart) rfl
  have slots := Draft.addTokens_slots (Draft.addFlags {} grammar.flags) (0 + grammar.flags.length)
    wellFormed.slots
  exact compile_ok_iff.mpr ⟨_, flags.trans slots, rfl⟩

/-- Compiling the tokens of a compiled grammar gives the same flags in the same order, the same table of
spellings, the same slots and the same groups. -/
theorem recompile {tokens : List String} {grammar : Grammar}
    (h : Grammar.compile tokens = .ok grammar) :
    ∃ again, Grammar.compile grammar.tokens = .ok again ∧
      again.flags = grammar.flags ∧
      again.spellings = grammar.spellings ∧
      (∀ spelling, again.flagId? spelling = grammar.flagId? spelling) ∧
      again.slots = grammar.slots ∧
      again.groups = grammar.groups ∧
      again.equivalent grammar = true ∧
      again.tokens = grammar.tokens := by
  refine ⟨_, compile_tokens (compile_wellFormed h), rfl, rfl, fun _ => rfl, rfl, rfl, ?_, rfl⟩
  exact Grammar.equivalent_iff.mpr ⟨fun _ => Iff.rfl, rfl⟩

/-- A named set, aliases that join later, a group of two flags, and chains with a repeating tail. -/
theorem recompile_grouped :
    let tokens := ["+ops", "\x7b-S,--sync\x7d:*target", "*-R::-:files()", "+", "(op)\x7b@ops\x7d",
      "\x7b-S,--synchronize\x7d", ":command", ":**name"]
    ∃ grammar, Grammar.compile tokens = .ok grammar ∧
      ∃ again, Grammar.compile grammar.tokens = .ok again ∧
        again.flags = grammar.flags ∧
        again.spellings = grammar.spellings ∧
        (∀ spelling, again.flagId? spelling = grammar.flagId? spelling) ∧
        again.slots = grammar.slots ∧
        again.groups = grammar.groups ∧
        again.equivalent grammar = true ∧
        again.tokens = grammar.tokens := by
  intro tokens
  have compiled : Grammar.compile tokens = .ok _ := rfl
  exact ⟨_, compiled, recompile compiled⟩

end ShellCompletion
