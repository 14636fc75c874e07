/-
Single-precision floats by bit pattern. A pattern travels untouched through every message, so it is kept as a word and
never computed with. Only its order matters: `rank` is the signed magnitude of a pattern, which orders all numbers
(infinities included) as the values they stand for and puts -0.0 and 0.0 at the same place. `clampUnit` moves a number
into [-1, 1] and leaves a NaN alone.
-/
namespace InputRelay

/-- an IEEE-754 single-precision float, by its bits -/
structure Single where
  bits : UInt32
deriving DecidableEq, Repr

namespace Single

def zero : Single := ⟨0⟩

def one : Single := ⟨0x3f800000⟩

def minusOne : Single := ⟨0xbf800000⟩

instance : Inhabited Single := ⟨zero⟩

/-- the bits below the sign -/
def magnitude (x : Single) : Nat := x.bits.toNat % 0x80000000

/-- the sign bit -/
def isNegative (x : Single) : Bool := decide (0x80000000 ≤ x.bits.toNat)

/-- a magnitude above that of infinity stands for no number -/
def isNaN (x : Single) : Bool := decide (0x7f800000 < x.magnitude)

/-- where a number stands among all numbers -/
def rank (x : Single) : Int := if x.isNegative then -(x.magnitude : Int) else x.magnitude

/-- the number of [-1, 1] nearest to a number; a NaN stays as it is -/
def clampUnit (x : Single) : Single :=
  if x.isNaN then x
  else if x.rank < minusOne.rank then minusOne
  else if one.rank < x.rank then one
  else x

end Single

end InputRelay
