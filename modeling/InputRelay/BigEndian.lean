/-
Numbers as bytes, most significant byte first. `bytes w n` writes the low `8 * w` bits of `n`; `number` reads any byte
string as a base-256 numeral.
-/
namespace InputRelay.BigEndian

/-- the `width` low bytes of a number, most significant first -/
def bytes : Nat → Nat → List UInt8
  | 0, _ => []
  | width + 1, n => UInt8.ofNat (n >>> (8 * width)) :: bytes width n

/-- the number that bytes spell, most significant first -/
def number (bs : List UInt8) : Nat := bs.foldl (fun n b => 256 * n + b.toNat) 0

end InputRelay.BigEndian
