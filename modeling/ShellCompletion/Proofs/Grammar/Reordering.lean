import Mathlib.Data.List.Perm.Basic
import ShellCompletion.Proofs.Grammar.RoundTrip

/-!
# The order of declarations

The tokens of a grammar declare each flag at once, so no token amends what another one declared. They
compile in every order; as long as the slots stay in theirs, the grammar is equivalent to the first one
(`compile_reordered`).
-/

namespace ShellCompletion

/-- The token declares a slot. -/
def declaresSlot (token : String) : Bool := token.toList.head? == some ':'

/-- What one token of a written grammar stands for. -/
inductive Part where
  | ofFlag (flag : Flag)
  | ofSlot (slot : Slot)

namespace Part

def token : Part → String
  | .ofFlag flag => flag.token
  | .ofSlot slot => slot.token

def flag? : Part → Option Flag
  | .ofFlag flag => some flag
  | .ofSlot _ => none

def slot? : Part → Option Slot
  | .ofFlag _ => none
  | .ofSlot slot => some slot

def WellFormed : Part → Prop
  | .ofFlag flag => flag.WellFormed
  | .ofSlot slot => slot.WellFormed

end Part

def Grammar.parts (grammar : Grammar) : List Part := grammar.flags.map .ofFlag ++ grammar.slots.map .ofSlot

section Parts

variable {grammar : Grammar} {parts : List Part}

theorem Grammar.tokens_eq (grammar : Grammar) : grammar.tokens = grammar.parts.map Part.token := by
  simp [tokens, parts, Part.token, Function.comp_def]

theorem Grammar.flags_parts (grammar : Grammar) : grammar.parts.filterMap Part.flag? = grammar.flags := by
  simp [parts, Part.flag?, List.filterMap_map, Function.comp_def]

theorem Grammar.slots_parts (grammar : Grammar) : grammar.parts.filterMap Part.slot? = grammar.slots := by
  simp [parts, Part.slot?, List.filterMap_map, Function.comp_def]

theorem Grammar.WellFormed.part (wellFormed : grammar.WellFormed) :
    ∀ part ∈ grammar.parts, part.WellFormed := by
  intro part member
  rcases List.mem_append.mp member with listed | listed
  · obtain ⟨flag, inside, rfl⟩ := List.mem_map.mp listed
    exact wellFormed.flags flag inside
  · obtain ⟨slot, inside, rfl⟩ := List.mem_map.mp listed
    exact wellFormed.slots slot inside

/-! ### Which tokens are slots -/

theorem declaresSlot_flag {flag : Flag} (wellFormed : flag.WellFormed) : declaresSlot flag.token = false := by
  rw [declaresSlot, beq_eq_false_iff_ne, Flag.toList_token]
  cases flag.explicitGroup with
  | some id => exact nofun
  | none => exact flag.head_bodyText wellFormed (by decide) (by decide) (by decide)

theorem declaresSlot_slot (slot : Slot) : declaresSlot slot.token = true := by
  rw [declaresSlot, Slot.toList_token]
  rfl

theorem filter_declaresSlot (wellFormed : ∀ part ∈ parts, part.WellFormed) :
    (parts.map Part.token).filter declaresSlot = (parts.filterMap Part.slot?).map Slot.token := by
  induction parts with
  | nil => rfl
  | cons part rest ih =>
    have others := ih fun other member => wellFormed other (List.mem_cons_of_mem _ member)
    cases part with
    | ofFlag flag =>
      have other : declaresSlot (Part.ofFlag flag).token = false :=
        declaresSlot_flag (wellFormed (.ofFlag flag) (List.mem_cons_self ..))
      rw [List.map_cons, List.filter_cons_of_neg (by simp [other]), others]
      rfl
    | ofSlot slot =>
      have same : declaresSlot (Part.ofSlot slot).token = true := declaresSlot_slot slot
      rw [List.map_cons, List.filter_cons_of_pos same, others]
      rfl

/-- Slots are known by their tokens. -/
theorem slots_eq_of_tokens {slots others : List Slot} (wellFormed : ∀ slot ∈ slots, slot.WellFormed)
    (otherWellFormed : ∀ slot ∈ others, slot.WellFormed)
    (same : slots.map Slot.token = others.map Slot.token) : slots = others := by
  have read {slots : List Slot} (wellFormed : ∀ slot ∈ slots, slot.WellFormed) :
      (slots.map Slot.token).map (Declaration.read fun _ => none) = slots.map fun slot => .ok (.slot slot) := by
    rw [List.map_map]
    exact List.map_congr_left fun slot member => read_slot_token _ (wellFormed slot member)
  have injective : Function.Injective fun slot => (.ok (.slot slot) : Except Fault Declaration) :=
    fun _ _ equal => Declaration.slot.inj (Except.ok.inj equal)
  refine List.map_injective_iff.mpr injective ?_
  rw [← read wellFormed, same, read otherWellFormed]

/-! ### Adding parts in any order -/

namespace Draft

/-- The tokens of parts, in whatever order they stand, add the flags and the slots as they are. -/
theorem addTokens_parts (draft : Draft) (index : Nat) (wellFormed : ∀ part ∈ parts, part.WellFormed)
    (apart : (draft.grammar.flags ++ parts.filterMap Part.flag?).Pairwise Flag.Apart)
    (noSets : draft.grammar.sets = []) :
    draft.addTokens index (parts.map Part.token) =
      .ok ((draft.addFlags (parts.filterMap Part.flag?)).addSlots (parts.filterMap Part.slot?)) := by
  induction parts generalizing draft index with
  | nil => simp [addTokens, addFlags, addSlots]
  | cons part rest ih =>
    have here := wellFormed part (List.mem_cons_self ..)
    have later (next : Draft) := ih next (index + 1) fun other member =>
      wellFormed other (List.mem_cons_of_mem _ member)
    rw [List.map_cons, addTokens]
    cases part with
    | ofFlag flag =>
      have new : ∀ other ∈ draft.grammar.flags, other.Apart flag := fun other member =>
        (List.pairwise_append.mp apart).2.2 other member flag (List.mem_cons_self ..)
      rw [Part.token, addToken_flag here new noSets]
      dsimp only
      rw [later (draft.addFlags [flag]) (by simpa [addFlags, Part.flag?] using apart) noSets, addFlags_addFlags]
      rfl
    | ofSlot slot =>
      rw [Part.token, addToken_slot draft here]
      dsimp only
      have none : (Part.ofSlot slot :: rest).filterMap Part.flag? = rest.filterMap Part.flag? := rfl
      rw [later (draft.addSlots [slot]) apart noSets, none]
      simp [addFlags, addSlots, Part.slot?]

end Draft

end Parts

/-! ### Grammars with the same flags -/

namespace Grammar

variable {a b : Grammar}

theorem members_eq_of_perm (same : a.flags.Perm b.flags) (id : String) : a.members id = b.members id :=
  Names.ofList_eq_iff.mpr fun _ => ((same.filter _).flatMap_right _).mem_iff

theorem signature_eq_of_perm (same : a.flags.Perm b.flags) (flag : Flag) : a.signature flag = b.signature flag := by
  have rivals : a.rivals flag = b.rivals flag := by
    unfold Grammar.rivals
    split
    next id _ => exact members_eq_of_perm same id
    next => rfl
  rw [signature, rivals, signature]

theorem equivalent_of_perm (same : a.flags.Perm b.flags) (slots : a.slots = b.slots) : a.equivalent b = true := by
  refine equivalent_iff.mpr ⟨fun s => ?_, slots⟩
  have signatures : a.signatures.Perm b.signatures := by
    rw [signatures, funext (signature_eq_of_perm same)]
    exact same.map _
  exact signatures.mem_iff

end Grammar

/-- The tokens of a compiled grammar are accepted in every order that keeps the slots in theirs, and give an equivalent
grammar with the same flags. -/
theorem compile_reordered {tokens : List String} {grammar : Grammar} (compiled : Grammar.compile tokens = .ok grammar)
    {reordered : List String} (same : reordered.Perm grammar.tokens)
    (inOrder : reordered.filter declaresSlot = grammar.tokens.filter declaresSlot) :
    ∃ again, Grammar.compile reordered = .ok again ∧ again.equivalent grammar = true ∧
      grammar.equivalent again = true ∧ again.flags.Perm grammar.flags ∧ again.slots = grammar.slots := by
  have wellFormed := compile_wellFormed compiled
  obtain ⟨parts, rfl, moved⟩ : ∃ parts : List Part, reordered = parts.map Part.token ∧ parts.Perm grammar.parts := by
    rw [Grammar.tokens_eq] at same
    exact (congrFun₂ (List.eq_map_comp_perm Part.token) reordered grammar.parts).mpr same
  have good : ∀ part ∈ parts, part.WellFormed := fun part member =>
    wellFormed.part part (moved.mem_iff.mp member)
  have flags : (parts.filterMap Part.flag?).Perm grammar.flags :=
    grammar.flags_parts ▸ moved.filterMap Part.flag?
  have slots : parts.filterMap Part.slot? = grammar.slots := by
    have moved : (parts.filterMap Part.slot?).Perm grammar.slots := grammar.slots_parts ▸ moved.filterMap Part.slot?
    refine slots_eq_of_tokens (fun slot member => wellFormed.slots slot (moved.mem_iff.mp member)) wellFormed.slots ?_
    rw [← filter_declaresSlot good, inOrder, Grammar.tokens_eq, filter_declaresSlot wellFormed.part,
      Grammar.slots_parts]
  have apart : (parts.filterMap Part.flag?).Pairwise Flag.Apart :=
    (flags.pairwise_iff fun separate spelling here there => separate spelling there here).mpr wellFormed.apart
  have added := Draft.addTokens_parts {} 0 good apart rfl
  have result : Grammar.compile (parts.map Part.token) =
      .ok { flags := parts.filterMap Part.flag?, slots := parts.filterMap Part.slot? } :=
    compile_ok_iff.mpr ⟨_, added, rfl⟩
  exact ⟨_, result, Grammar.equivalent_of_perm flags slots, Grammar.equivalent_of_perm flags.symm slots.symm, flags,
    slots⟩

/-- `-x` and `-y` share the group that has the canonical spelling of `-a` for its name, and so exclude `-a`. -/
theorem compile_reordered_shared :
    let tokens := ["\x7b-a,--all\x7d:name", ":first", "(-a)-x", "*-v", ":first", "(-a)-y", ":**rest"]
    let grammar : Grammar :=
      { flags := [{ canonical := "-a", aliases := ["--all"], chain := ⟨[.state "name"], none⟩ },
          { canonical := "-x", explicitGroup := some "-a" }, { canonical := "-v", repeatable := true },
          { canonical := "-y", explicitGroup := some "-a" }]
        slots := [⟨⟨[.state "first"], none⟩, false⟩, ⟨⟨[.state "first"], none⟩, false⟩, ⟨⟨[], some (.state "rest")⟩, true⟩] }
    let reordered := [":first", "(-a)-y", "*-v", ":first", "(-a)-x", "\x7b-a,--all\x7d:name", ":**rest"]
    Grammar.compile tokens = .ok grammar ∧ reordered.Perm grammar.tokens ∧
      reordered.filter declaresSlot = grammar.tokens.filter declaresSlot ∧
      grammar.members "-a" = ["--all", "-a", "-x", "-y"] ∧
      ∃ again, Grammar.compile reordered = .ok again ∧ again.equivalent grammar = true ∧
        grammar.equivalent again = true ∧ again.flags.Perm grammar.flags ∧ again.slots = grammar.slots := by
  intro tokens grammar reordered
  have compiled : Grammar.compile tokens = .ok grammar := rfl
  have same : reordered.Perm grammar.tokens := by decide
  have inOrder : reordered.filter declaresSlot = grammar.tokens.filter declaresSlot := by decide
  exact ⟨compiled, same, inOrder, by decide, compile_reordered compiled same inOrder⟩

end ShellCompletion
