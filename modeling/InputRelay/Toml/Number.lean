/-
Integers and floats, as TOML writes them. Single underscores may stand between digits. A decimal integer has no leading
zero and may have a sign; hexadecimal, octal and binary ones have neither sign nor rule for zeros. All fit in 64 bits
with sign. A float has a fraction or an exponent or both; one that is too large for a double is refused, on the positive
side.
-/
import InputRelay.Text.Digit
import InputRelay.Toml.Scan

namespace InputRelay.Toml.Number

open Text (isDigit valueOf)

/-- further digits, each with at most one underscore before it -/
def more (base : Nat) : List Char → List Char × List Char
  | [] => ([], [])
  | '_' :: c :: rest =>
    if isDigit base c then
      let (ds, r) := more base rest
      (c :: ds, r)
    else ([], '_' :: c :: rest)
  | c :: rest =>
    if isDigit base c then
      let (ds, r) := more base rest
      (c :: ds, r)
    else ([], c :: rest)

/-- one or more digits with underscores between them -/
def digits (base : Nat) : Scan (List Char) := do
  let first ← Scan.satisfy (isDigit base)
  let others ← fun cs => some (more base cs)
  return first :: others

/-- digits without a leading zero -/
def plainDigits : Scan (List Char) := do
  let first ← Scan.satisfy (isDigit 10)
  if first = '0' then return ['0']
  let others ← fun cs => some (more 10 cs)
  return first :: others

/-- a sign, if there is one: whether it is a minus -/
def sign : Scan Bool := do
  match ← Scan.maybe (Scan.satisfy fun c => c == '+' || c == '-') with
  | some c => return c == '-'
  | none => return false

/-- an integer in another base than ten -/
def based (mark : Char) (base : Nat) : Scan Int := do
  let _ ← Scan.char '0'
  let _ ← Scan.char mark
  let n : Int := valueOf base (← digits base)
  if n ≤ Int64.maxValue.toInt then return n else failure

def decimal : Scan Int := do
  let negative ← sign
  let n : Int := valueOf 10 (← plainDigits)
  let n := if negative then -n else n
  if Int64.minValue.toInt ≤ n ∧ n ≤ Int64.maxValue.toInt then return n else failure

def integer : Scan Int := based 'x' 16 <|> based 'o' 8 <|> based 'b' 2 <|> decimal

/-- the least number that rounds to infinity: half a unit above the greatest double -/
def overflow : Nat := 1 <<< 1024 - 1 <<< 970

/-- whether `m` times ten to the `e` rounds to infinity; the number of digits settles all but the narrow cases -/
def tooLarge (m : Nat) (e : Int) : Bool :=
  let count : Int := m.repr.length
  if m = 0 ∨ count + e ≤ 308 then false
  else if 310 ≤ count + e then true
  else if 0 ≤ e then overflow ≤ m * Nat.pow 10 e.toNat
  else overflow * Nat.pow 10 (-e).toNat ≤ m

/-- digits after the point -/
def fraction : Scan (List Char) := do
  let _ ← Scan.char '.'
  digits 10

def exponent : Scan Int := do
  let _ ← Scan.satisfy fun c => c == 'e' || c == 'E'
  let negative ← sign
  let n : Int := valueOf 10 (← digits 10)
  return if negative then -n else n

/-- a float with digits -/
def finite : Scan Unit := do
  let negative ← sign
  let whole ← plainDigits
  let part ← Scan.maybe fraction
  let power ← Scan.maybe exponent
  if part.isNone && power.isNone then failure
  let behind := part.getD []
  let e := power.getD 0 - behind.length
  if !negative && tooLarge (valueOf 10 (whole ++ behind)) e then failure

/-- infinity, or no number at all -/
def special : Scan Unit := do
  let _ ← sign
  Scan.text "inf" <|> Scan.text "nan"

def float : Scan String := do
  return String.ofList (← Scan.taken (finite <|> special))

end InputRelay.Toml.Number
