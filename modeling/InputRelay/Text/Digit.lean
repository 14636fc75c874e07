/-
Digits in bases up to sixteen: reading numbers off them, and writing numbers in base sixteen.
-/
namespace InputRelay.Text

/-- the value of a digit, in either case; sixteen for anything else -/
def digitValue (c : Char) : Nat :=
  if '0' ≤ c ∧ c ≤ '9' then c.toNat - '0'.toNat
  else if 'a' ≤ c ∧ c ≤ 'f' then c.toNat - 'a'.toNat + 10
  else if 'A' ≤ c ∧ c ≤ 'F' then c.toNat - 'A'.toNat + 10
  else 16

/-- whether a character is a digit of a base up to sixteen -/
def isDigit (base : Nat) (c : Char) : Bool := decide (digitValue c < base)

/-- the number that digits spell -/
def valueOf (base : Nat) (digits : List Char) : Nat := digits.foldl (fun n c => base * n + digitValue c) 0

/-- a number in base sixteen, in lower case and without leading zeros -/
def hex (n : Nat) : String := String.ofList (Nat.toDigits 16 n)

/-- a byte as two digits of base sixteen, in upper case -/
def hexByte (b : UInt8) : String :=
  String.ofList ((Nat.toDigits 16 (b.toNat / 16) ++ Nat.toDigits 16 (b.toNat % 16)).map Char.toUpper)

end InputRelay.Text
