/-
Module: TrustRegion.Word
Purpose: The range of sizes and counters. A size or a counter is a word, and a counter that goes past
  the largest word begins again at zero.
Main exports: wordSize, successorWord
-/

namespace TrustRegion

/-- Sizes and counters are words of this many values. -/
def wordSize : Nat := Nat.pow 2 64

/-- The word after a word: one more, and zero after the largest. -/
def successorWord (n : Nat) : Nat :=
  (n + 1) % wordSize

end TrustRegion
