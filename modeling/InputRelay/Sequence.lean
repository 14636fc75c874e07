/-
The numbering of frames: numbers are given out one after the other from zero, and start again after 2^64 of them.
-/
namespace InputRelay

/-- a source of sequence numbers; `issued` have been given out -/
structure Sequence where
  issued : UInt64
deriving DecidableEq, Repr

namespace Sequence

def start : Sequence := ⟨0⟩

/-- the next number, and the source after it -/
def next (s : Sequence) : UInt64 × Sequence := (s.issued, ⟨s.issued + 1⟩)

end Sequence

end InputRelay
