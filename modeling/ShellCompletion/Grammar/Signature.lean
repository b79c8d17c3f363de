import ShellCompletion.Grammar.Basic

/-!
# Equivalent grammars

Two grammars are equivalent when they accept the same flags, groups and slots. The order in which flags
are declared does not matter, nor do the ids of groups without an explicit mark.
-/

namespace ShellCompletion

/-- What equivalence compares of one flag. -/
structure Flag.Signature where
  spellings : List String
  group : Option String
  rivals : List String
  arguments : Nat
  chain : String
  repeatable : Bool
deriving DecidableEq, Repr

namespace Grammar

def signature (grammar : Grammar) (flag : Flag) : Flag.Signature where
  spellings := Names.ofList flag.spellings
  group := flag.explicitGroup
  rivals := grammar.rivals flag
  arguments := flag.chain.size
  chain := flag.chain.text
  repeatable := flag.repeatable

def signatures (grammar : Grammar) : List Flag.Signature := grammar.flags.map grammar.signature

def equivalent (a b : Grammar) : Bool :=
  a.signatures.all (· ∈ b.signatures) && b.signatures.all (· ∈ a.signatures) && a.slots == b.slots

theorem equivalent_iff {a b : Grammar} :
    a.equivalent b = true ↔ (∀ s, s ∈ a.signatures ↔ s ∈ b.signatures) ∧ a.slots = b.slots := by
  simp only [equivalent, Bool.and_eq_true, List.all_eq_true, decide_eq_true_eq, beq_iff_eq]
  exact and_congr_left' ⟨fun h s => ⟨h.1 s, h.2 s⟩, fun h => ⟨fun s => (h s).mp, fun s => (h s).mpr⟩⟩

end Grammar

end ShellCompletion
