/-!
# Machine words

Counts and indices fit into a word of 64 bits.
-/

namespace ShellCompletion

/-- The number of words: two to the power of 64. -/
def wordBound : Nat := 0x10000000000000000

end ShellCompletion
