import ShellCompletion.Proofs.Grammar.Declaration

/-!
# Compiled grammars are well-formed

`Grammar.WellFormed` collects what holds of every compiled grammar: its flags and slots could have been
declared as they stand, no spelling belongs to two flags, and named sets hold spellings. Each
declaration keeps it (`declare_wellFormed`), so `compile` does (`compile_wellFormed`).
-/

namespace ShellCompletion

open Declaration

/-- The flags share no spelling. -/
def Flag.Apart (a b : Flag) : Prop := ∀ spelling ∈ a.spellings, spelling ∉ b.spellings

structure Grammar.WellFormed (grammar : Grammar) : Prop where
  flags : ∀ flag ∈ grammar.flags, flag.WellFormed
  apart : grammar.flags.Pairwise Flag.Apart
  slots : ∀ slot ∈ grammar.slots, slot.WellFormed
  sets : ∀ entry ∈ grammar.sets, ∀ spelling ∈ entry.2, IsSpelling spelling

/-! ### Looking up spellings -/

namespace Grammar

variable {grammar : Grammar}

theorem flag?_eq_none_iff {spelling : String} :
    grammar.flag? spelling = none ↔ ∀ flag ∈ grammar.flags, spelling ∉ flag.spellings := by
  simp [flag?]

theorem mem_spellings {spelling : String} :
    spelling ∈ grammar.spellings ↔ (grammar.flag? spelling).isSome = true := by
  rw [← Option.ne_none_iff_isSome, ne_eq, flag?_eq_none_iff]
  simp [spellings]

theorem mem_of_flag? {spelling : String} {flag : Flag} (found : grammar.flag? spelling = some flag) :
    flag ∈ grammar.flags ∧ spelling ∈ flag.spellings :=
  ⟨List.mem_of_find?_eq_some found, by simpa using List.find?_some found⟩

theorem eq_of_shared (apart : grammar.flags.Pairwise Flag.Apart) {a b : Flag} {spelling : String}
    (left : a ∈ grammar.flags) (right : b ∈ grammar.flags) (inLeft : spelling ∈ a.spellings)
    (inRight : spelling ∈ b.spellings) : a = b := by
  have same : ∀ x ∈ grammar.flags, ∀ y ∈ grammar.flags,
      spelling ∈ x.spellings → spelling ∈ y.spellings → x = y := by
    apply List.Pairwise.forall_of_forall_of_flip
    · intro x _ _ _
      rfl
    · exact apart.imp fun separate inX inY => absurd inY (separate spelling inX)
    · apply apart.imp
      intro y x separate inX inY
      exact absurd inX (separate spelling inY)
  exact same a left b right inLeft inRight

/-- Where no spelling is shared, a spelling finds the one flag that has it. -/
theorem flag?_eq_some_iff (apart : grammar.flags.Pairwise Flag.Apart) {spelling : String} {flag : Flag} :
    grammar.flag? spelling = some flag ↔ flag ∈ grammar.flags ∧ spelling ∈ flag.spellings := by
  constructor
  · exact mem_of_flag?
  · rintro ⟨member, spelled⟩
    cases found : grammar.flag? spelling with
    | none => exact absurd spelled (flag?_eq_none_iff.mp found flag member)
    | some other =>
      obtain ⟨otherMember, otherSpelled⟩ := mem_of_flag? found
      rw [eq_of_shared apart otherMember member otherSpelled spelled]

theorem namedSet?_spelled {grammar : Grammar}
    (sets : ∀ entry ∈ grammar.sets, ∀ spelling ∈ entry.2, IsSpelling spelling) :
    SpelledSets grammar.namedSet? := by
  intro name members found
  obtain ⟨before, after, listed, _⟩ := List.lookup_eq_some_iff.mp found
  exact sets (name, members) (by simp [listed])

end Grammar

/-! ### One declaration -/

namespace Draft

/-- A flag declaration makes a new flag, or amends the flags that it touches; there it may bring new
spellings only if it touches no more than one. -/
theorem declareFlag_ok_iff {draft : Draft} {declared : FlagDeclaration} {flags : List Flag} :
    draft.declareFlag declared = .ok flags ↔
      (draft.grammar.flags.filter (touches declared) = [] ∧
        flags = draft.grammar.flags ++ [Flag.ofDeclaration declared]) ∨
      (draft.grammar.flags.filter (touches declared) ≠ [] ∧
        (draft.fresh declared = [] ∨ (draft.grammar.flags.filter (touches declared)).length ≤ 1) ∧
        flags = draft.grammar.flags.map fun flag =>
          if touches declared flag then flag.amend declared (draft.fresh declared) else flag) := by
  unfold declareFlag
  dsimp only
  cases touched : draft.grammar.flags.filter (touches declared) with
  | nil => simp [@eq_comm _ flags]
  | cons first rest =>
    cases rest with
    | nil => simp [@eq_comm _ flags]
    | cons second more =>
      cases draft.fresh declared with
      | nil => simp [@eq_comm _ flags]
      | cons => simp

theorem touches_eq_false_iff {declared : FlagDeclaration} {flag : Flag} :
    touches declared flag = false ↔ ∀ spelling ∈ flag.spellings, spelling ∉ declared.spellings := by
  simp [touches]

theorem mem_fresh {draft : Draft} {declared : FlagDeclaration} {spelling : String} :
    spelling ∈ draft.fresh declared ↔
      spelling ∈ declared.spellings ∧ ∀ flag ∈ draft.grammar.flags, spelling ∉ flag.spellings := by
  simp [fresh, ← Grammar.flag?_eq_none_iff]

@[simp] theorem spellings_amend (flag : Flag) (declared : FlagDeclaration) (fresh : List String) :
    (flag.amend declared fresh).spellings = flag.spellings ++ fresh := rfl

theorem Flag.WellFormed.ofDeclaration {declared : FlagDeclaration} (wellFormed : declared.WellFormed) :
    (Flag.ofDeclaration declared).WellFormed where
  spelled := wellFormed.spelled
  distinct := wellFormed.distinct
  grouped := wellFormed.grouped
  chained := by
    intro action member
    cases listed : declared.chain with
    | none => simp [Flag.ofDeclaration, listed, Chain.actions] at member
    | some chain =>
      apply (wellFormed.chained chain listed).1 action
      simpa [Flag.ofDeclaration, listed] using member

theorem amend_wellFormed {draft : Draft} {declared : FlagDeclaration} {flag : Flag}
    (wellFormed : flag.WellFormed) (declaredWellFormed : declared.WellFormed)
    (member : flag ∈ draft.grammar.flags) :
    (flag.amend declared (draft.fresh declared)).WellFormed where
  spelled := by
    intro spelling inside
    rw [spellings_amend] at inside
    rcases List.mem_append.mp inside with old | new
    · exact wellFormed.spelled spelling old
    · exact declaredWellFormed.spelled spelling (mem_fresh.mp new).1
  distinct := by
    rw [spellings_amend, List.nodup_append]
    refine ⟨wellFormed.distinct, declaredWellFormed.distinct.filter _, ?_⟩
    intro old inside new fresh same
    exact (mem_fresh.mp fresh).2 flag member (same ▸ inside)
  grouped := by
    intro id marked
    cases given : declared.group with
    | none => exact wellFormed.grouped id (by simpa [Flag.amend, given] using marked)
    | some other => exact declaredWellFormed.grouped id (by simpa [Flag.amend, given] using marked)
  chained := by
    cases listed : declared.chain with
    | none => simpa [Flag.amend, listed] using wellFormed.chained
    | some chain => simpa [Flag.amend, listed] using (declaredWellFormed.chained chain listed).1

theorem pairwise_of_filter_le_one {α : Type} {p : α → Bool} {items : List α}
    (few : (items.filter p).length ≤ 1) : items.Pairwise fun a b => p a = false ∨ p b = false := by
  induction items with
  | nil => exact List.Pairwise.nil
  | cons a rest ih =>
    rw [List.pairwise_cons]
    cases first : p a with
    | false =>
      rw [List.filter_cons_of_neg (by simp [first])] at few
      exact ⟨fun _ _ => .inl rfl, ih few⟩
    | true =>
      rw [List.filter_cons_of_pos first, List.length_cons] at few
      have none : rest.filter p = [] := List.length_eq_zero_iff.mp (by omega)
      refine ⟨fun b member => .inr ?_, ih (by rw [none]; exact Nat.zero_le 1)⟩
      simpa using List.filter_eq_nil_iff.mp none b member

/-- Amending touched flags keeps flags apart as long as fresh spellings go to no more than one. -/
theorem apart_amend {draft : Draft} {declared : FlagDeclaration}
    (apart : draft.grammar.flags.Pairwise Flag.Apart)
    (single : draft.fresh declared = [] ∨ (draft.grammar.flags.filter (touches declared)).length ≤ 1) :
    (draft.grammar.flags.map fun flag =>
      if touches declared flag then flag.amend declared (draft.fresh declared) else flag).Pairwise
        Flag.Apart := by
  have notBoth : draft.grammar.flags.Pairwise fun a b =>
      draft.fresh declared = [] ∨ touches declared a = false ∨ touches declared b = false := by
    rcases single with nothing | few
    · exact apart.imp fun _ => .inl nothing
    · exact (pairwise_of_filter_le_one few).imp fun apart => .inr apart
  have amended (flag : Flag) {spelling : String} : spelling ∈
      (if touches declared flag then flag.amend declared (draft.fresh declared) else flag).spellings ↔
        spelling ∈ flag.spellings ∨ touches declared flag = true ∧ spelling ∈ draft.fresh declared := by
    split
    next touched => simp [touched]
    next untouched => simp [untouched]
  rw [List.pairwise_map]
  apply (apart.and notBoth).imp_of_mem
  rintro a b inA inB ⟨separate, one⟩ spelling left right
  -- A fresh spelling is in no flag before, so a shared one is old in both or fresh in both.
  rcases (amended a).mp left with oldA | ⟨touchedA, freshA⟩ <;>
    rcases (amended b).mp right with oldB | ⟨touchedB, freshB⟩
  · exact separate spelling oldA oldB
  · exact (mem_fresh.mp freshB).2 a inA oldA
  · exact (mem_fresh.mp freshA).2 b inB oldB
  · rcases one with nothing | untouched | untouched
    · rw [nothing] at freshA
      cases freshA
    · rw [touchedA] at untouched
      cases untouched
    · rw [touchedB] at untouched
      cases untouched

theorem declareFlag_wellFormed {draft : Draft} {declared : FlagDeclaration} {flags : List Flag}
    (good : ∀ flag ∈ draft.grammar.flags, flag.WellFormed)
    (apart : draft.grammar.flags.Pairwise Flag.Apart) (wellFormed : declared.WellFormed)
    (h : draft.declareFlag declared = .ok flags) :
    (∀ flag ∈ flags, flag.WellFormed) ∧ flags.Pairwise Flag.Apart := by
  rcases declareFlag_ok_iff.mp h with ⟨untouched, rfl⟩ | ⟨-, single, rfl⟩
  · constructor
    · intro flag member
      rcases List.mem_append.mp member with old | new
      · exact good flag old
      · obtain rfl := List.mem_singleton.mp new
        exact Flag.WellFormed.ofDeclaration wellFormed
    · rw [List.pairwise_append]
      refine ⟨apart, List.pairwise_singleton _ _, fun flag old new fresh => ?_⟩
      obtain rfl := List.mem_singleton.mp fresh
      have missed := List.filter_eq_nil_iff.mp untouched flag old
      exact touches_eq_false_iff.mp (Bool.not_eq_true _ ▸ missed)
  · refine ⟨fun flag member => ?_, apart_amend apart single⟩
    obtain ⟨old, inside, rfl⟩ := List.mem_map.mp member
    split
    next => exact amend_wellFormed (good old inside) wellFormed inside
    next => exact good old inside

theorem collect_spelled {draft : Draft} {spellings : List String}
    (known : ∀ entry ∈ draft.grammar.sets, ∀ spelling ∈ entry.2, IsSpelling spelling)
    (spelled : ∀ spelling ∈ spellings, IsSpelling spelling) :
    ∀ entry ∈ draft.collect spellings, ∀ spelling ∈ entry.2, IsSpelling spelling := by
  intro entry member spelling inside
  obtain ⟨old, listed, rfl⟩ := List.mem_map.mp member
  dsimp only at inside
  split at inside
  next =>
    rcases Names.mem_addNew.mp inside with before | new
    · exact known old listed spelling before
    · exact spelled spelling new
  next => exact known old listed spelling inside

theorem openSet_spelled {grammar : Grammar} {name : String}
    (known : ∀ entry ∈ grammar.sets, ∀ spelling ∈ entry.2, IsSpelling spelling) :
    ∀ entry ∈ (openSet grammar name).sets, ∀ spelling ∈ entry.2, IsSpelling spelling := by
  unfold openSet
  split
  next => exact known
  next =>
    intro entry member
    rcases List.mem_append.mp member with old | new
    · exact known entry old
    · obtain rfl := List.mem_singleton.mp new
      simp

@[simp] theorem openSet_flags (grammar : Grammar) (name : String) :
    (openSet grammar name).flags = grammar.flags := by
  unfold openSet
  split <;> rfl

@[simp] theorem openSet_slots (grammar : Grammar) (name : String) :
    (openSet grammar name).slots = grammar.slots := by
  unfold openSet
  split <;> rfl

theorem declare_wellFormed {draft next : Draft} {declaration : Declaration}
    (good : draft.grammar.WellFormed) (wellFormed : declaration.WellFormed)
    (h : draft.declare declaration = .ok next) : next.grammar.WellFormed := by
  cases declaration with
  | set name =>
    cases name with
    | none =>
      obtain rfl := Except.ok.inj h
      exact good
    | some name =>
      obtain rfl := Except.ok.inj h
      exact {
        flags := by simpa using good.flags
        apart := by simpa using good.apart
        slots := by simpa using good.slots
        sets := openSet_spelled good.sets }
  | slot slot =>
    obtain rfl := Except.ok.inj h
    refine { good with slots := fun other member => ?_ }
    rcases List.mem_append.mp member with old | new
    · exact good.slots other old
    · obtain rfl := List.mem_singleton.mp new
      exact wellFormed
  | flag declared =>
    obtain ⟨flags, declares, h⟩ := bind_ok.mp h
    obtain rfl := Except.ok.inj h
    have spelled : ∀ spelling ∈ declared.spellings, IsSpelling spelling := wellFormed.spelled
    obtain ⟨flagsGood, flagsApart⟩ := declareFlag_wellFormed good.flags good.apart wellFormed declares
    exact {
      flags := flagsGood
      apart := flagsApart
      slots := good.slots
      sets := collect_spelled good.sets spelled }

theorem addToken_wellFormed {draft next : Draft} {token : String} (good : draft.grammar.WellFormed)
    (h : draft.addToken token = .ok next) : next.grammar.WellFormed := by
  obtain ⟨declaration, read, h⟩ := bind_ok.mp h
  exact declare_wellFormed good (read_wellFormed (Grammar.namedSet?_spelled good.sets) read) h

/-! ### Whole token lists -/

/-- What every accepted token keeps, an accepted list of tokens keeps. -/
theorem addTokens_induction {P : Draft → Prop}
    (step : ∀ {draft next token}, P draft → draft.addToken token = .ok next → P next)
    {draft last : Draft} {index : Nat} {tokens : List String} (start : P draft)
    (h : draft.addTokens index tokens = .ok last) : P last := by
  induction tokens generalizing draft index with
  | nil =>
    obtain rfl := Except.ok.inj h
    exact start
  | cons token rest ih =>
    unfold addTokens at h
    split at h
    next added => exact ih (step start added) h
    next => cases h

end Draft

theorem compile_ok_iff {tokens : List String} {grammar : Grammar} :
    Grammar.compile tokens = .ok grammar ↔
      ∃ draft, Draft.addTokens {} 0 tokens = .ok draft ∧ draft.grammar = grammar := map_ok

theorem compile_wellFormed {tokens : List String} {grammar : Grammar}
    (h : Grammar.compile tokens = .ok grammar) : grammar.WellFormed := by
  obtain ⟨draft, added, rfl⟩ := compile_ok_iff.mp h
  have empty : Grammar.WellFormed {} := by constructor <;> simp
  exact Draft.addTokens_induction (P := fun draft => draft.grammar.WellFormed)
    Draft.addToken_wellFormed empty added

end ShellCompletion
