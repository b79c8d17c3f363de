import ShellCompletion.Grammar.Signature
import ShellCompletion.Proofs.Grammar.WellFormed

/-!
# What equivalent grammars share

Two well-formed grammars with the same signatures find flags that are alike under every spelling
(`alike_of_equivalent`). Flags that are alike may differ in the order of their spellings, so in their
canonical spelling and the id of an implicit group, and in nothing else.
-/

namespace ShellCompletion

/-- The flags, of one grammar each, have the same spellings, exclude the same ones and take the same
arguments. -/
structure Flag.Alike (a b : Grammar) (left right : Flag) : Prop where
  spellings : ∀ spelling, spelling ∈ left.spellings ↔ spelling ∈ right.spellings
  rivals : a.rivals left = b.rivals right
  chain : left.chain = right.chain
  repeatable : left.repeatable = right.repeatable

/-- Every spelling finds flags that are alike, or none in either grammar. -/
structure Grammar.Alike (a b : Grammar) : Prop where
  flags : ∀ spelling, Option.Rel (Flag.Alike a b) (a.flag? spelling) (b.flag? spelling)
  slots : a.slots = b.slots

variable {a b : Grammar}

theorem Flag.Alike.symm {left right : Flag} (same : Flag.Alike a b left right) :
    Flag.Alike b a right left where
  spellings spelling := (same.spellings spelling).symm
  rivals := same.rivals.symm
  chain := same.chain.symm
  repeatable := same.repeatable.symm

theorem Flag.Alike.takesArguments {left right : Flag} (same : Flag.Alike a b left right) :
    left.takesArguments = right.takesArguments := by
  rw [Flag.takesArguments, same.chain, Flag.takesArguments]

namespace Grammar

theorem Alike.symm (same : a.Alike b) : b.Alike a where
  flags spelling := by
    have related := same.flags spelling
    generalize a.flag? spelling = left, b.flag? spelling = right at related ⊢
    cases related with
    | none => exact .none
    | some alike => exact .some alike.symm
  slots := same.slots.symm

theorem alike_of_signature {left right : Flag} (leftChain : left.chain.WellFormed)
    (rightChain : right.chain.WellFormed) (same : a.signature left = b.signature right) :
    Flag.Alike a b left right where
  spellings := Names.ofList_eq_iff.mp (congrArg Flag.Signature.spellings same)
  rivals := congrArg Flag.Signature.rivals same
  chain := Chain.eq_of_text leftChain rightChain (congrArg Flag.Signature.arguments same)
    (congrArg Flag.Signature.chain same)
  repeatable := congrArg Flag.Signature.repeatable same

theorem exists_alike (left : a.WellFormed) (right : b.WellFormed) (same : a.equivalent b = true)
    {flag : Flag} (member : flag ∈ a.flags) : ∃ other ∈ b.flags, Flag.Alike a b flag other := by
  have listed : a.signature flag ∈ b.signatures :=
    ((equivalent_iff.mp same).1 _).mp (List.mem_map_of_mem member)
  obtain ⟨other, inside, signature⟩ := List.mem_map.mp listed
  exact ⟨other, inside, alike_of_signature (left.flags flag member).chained
    (right.flags other inside).chained signature.symm⟩

theorem equivalent_comm : a.equivalent b = true ↔ b.equivalent a = true := by
  rw [equivalent_iff, equivalent_iff]
  constructor
  · rintro ⟨same, slots⟩
    exact ⟨fun s => (same s).symm, slots.symm⟩
  · rintro ⟨same, slots⟩
    exact ⟨fun s => (same s).symm, slots.symm⟩

theorem alike_of_equivalent (left : a.WellFormed) (right : b.WellFormed) (same : a.equivalent b = true) :
    a.Alike b where
  flags spelling := by
    cases found : a.flag? spelling with
    | some flag =>
      obtain ⟨member, spelled⟩ := mem_of_flag? found
      obtain ⟨other, inside, alike⟩ := exists_alike left right same member
      rw [(flag?_eq_some_iff right.apart).mpr ⟨inside, (alike.spellings spelling).mp spelled⟩]
      exact .some alike
    | none =>
      cases other : b.flag? spelling with
      | none => exact .none
      | some flag =>
        obtain ⟨member, spelled⟩ := mem_of_flag? other
        obtain ⟨first, inside, alike⟩ := exists_alike right left (equivalent_comm.mp same) member
        exact absurd ((alike.spellings spelling).mp spelled) (flag?_eq_none_iff.mp found first inside)
  slots := (equivalent_iff.mp same).2

theorem isSome_eq_of_rel {α : Type} {related : α → α → Prop} {left right : Option α}
    (h : Option.Rel related left right) : left.isSome = right.isSome := by
  cases h <;> rfl

theorem Alike.spellings (same : a.Alike b) : a.spellings = b.spellings := by
  apply Names.eq_of_ascending (Names.ascending_ofList _) (Names.ascending_ofList _)
  intro spelling
  show spelling ∈ a.spellings ↔ spelling ∈ b.spellings
  rw [mem_spellings, mem_spellings, isSome_eq_of_rel (same.flags spelling)]

end Grammar

end ShellCompletion
