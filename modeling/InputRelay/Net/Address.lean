/-
Internet addresses and their texts. `Address.parse?` reads an address: four decimal numbers with points, or eight groups
of hexadecimal digits with colons, of which `::` may leave out a run of zeros and the last two may be written as an
address of the first kind. Names are not looked up. `Address.text` writes an address: of the second kind with the first
longest run of two or more zero groups left out, and with the short form for addresses that stand for one of the first
kind.
-/
import InputRelay.Text.Digit

namespace InputRelay.Net

/-- an IP address of either version -/
inductive Address where
  | v4 (a b c d : UInt8)
  | v6 (groups : Vector UInt16 8)
deriving DecidableEq, Repr

/-- an address and a port -/
structure Endpoint where
  address : Address
  port : UInt16
deriving DecidableEq, Repr

/-! ## Reading -/

/-- the run of digits at the front, as a number and a count -/
def leadingNumber (base : Nat) (cs : List Char) : Nat × Nat :=
  let run := cs.takeWhile (Text.isDigit base)
  (Text.valueOf base run, run.length)

/-- a number up to 255 in at most three digits; only zero itself starts with a zero -/
def octet? (cs : List Char) : Option (UInt8 × List Char) :=
  let (n, count) := leadingNumber 10 cs
  if count = 0 ∨ 3 < count ∨ (1 < count ∧ cs.head? = some '0') ∨ 255 < n then none
  else some (.ofNat n, cs.drop count)

/-- up to four hexadecimal digits -/
def group? (cs : List Char) : Option (UInt16 × List Char) :=
  let (n, count) := leadingNumber 16 cs
  if count = 0 ∨ 4 < count then none else some (.ofNat n, cs.drop count)

/-- one given character -/
def char? (c : Char) : List Char → Option (List Char)
  | d :: rest => if d = c then some rest else none
  | [] => none

/-- four numbers with points between them -/
def v4? (cs : List Char) : Option ((UInt8 × UInt8 × UInt8 × UInt8) × List Char) := do
  let (a, cs) ← octet? cs
  let (b, cs) ← octet? (← char? '.' cs)
  let (c, cs) ← octet? (← char? '.' cs)
  let (d, cs) ← octet? (← char? '.' cs)
  return ((a, b, c, d), cs)

/-- what starts a group: nothing at the front, a colon elsewhere -/
def afterColon? (first : Bool) (cs : List Char) : Option (List Char) :=
  if first then some cs else char? ':' cs

/-- groups at the front -/
structure Groups where
  groups : List UInt16
  endsInV4 : Bool
  rest : List Char

/-- as many groups as there are, but no more than there is room for; an embedded address fills two and is the last -/
def readGroups (first : Bool) (cs : List Char) : Nat → Groups
  | 0 => ⟨[], false, cs⟩
  | room + 1 =>
    match if 0 < room then (afterColon? first cs).bind v4? else none with
    | some ((a, b, c, d), rest) =>
      ⟨[a.toUInt16 <<< 8 ||| b.toUInt16, c.toUInt16 <<< 8 ||| d.toUInt16], true, rest⟩
    | none =>
      match (afterColon? first cs).bind group? with
      | some (g, rest) =>
        let more := readGroups false rest room
        { more with groups := g :: more.groups }
      | none => ⟨[], false, cs⟩

/-- eight groups, or fewer with one gap of at least one group -/
def v6? (cs : List Char) : Option (List UInt16 × List Char) :=
  let head := readGroups true cs 8
  if head.groups.length = 8 then some (head.groups, head.rest)
  else if head.endsInV4 then none
  else do
    let rest ← char? ':' (← char? ':' head.rest)
    let tail := readGroups true rest (7 - head.groups.length)
    let gap := List.replicate (8 - head.groups.length - tail.groups.length) 0
    return (head.groups ++ gap ++ tail.groups, tail.rest)

/-- the address that a whole text spells -/
def Address.parse? (s : String) : Option Address :=
  match v4? s.toList with
  | some ((a, b, c, d), rest) => if rest = [] then some (.v4 a b c d) else none
  | none =>
    match v6? s.toList with
    | some (groups, []) => if h : groups.length = 8 then some (.v6 ⟨groups.toArray, by simp [h]⟩) else none
    | _ => none

/-! ## Writing -/

def v4Text (a b c d : UInt8) : String :=
  a.toNat.repr ++ "." ++ b.toNat.repr ++ "." ++ c.toNat.repr ++ "." ++ d.toNat.repr

/-- start and length of the first longest run of zeros -/
def longestZeros : List UInt16 → Nat × Nat
  | [] => (0, 0)
  | g :: gs =>
    let here := ((g :: gs).takeWhile (· = 0)).length
    let (start, length) := longestZeros gs
    if length ≤ here then (0, here) else (start + 1, length)

def groupsText (gs : List UInt16) : String := ":".intercalate (gs.map fun g => Text.hex g.toNat)

def v6Text (gs : List UInt16) : String :=
  match gs with
  | [0, 0, 0, 0, 0, 0xffff, ab, cd] =>
    "::ffff:" ++ v4Text (ab >>> 8).toUInt8 ab.toUInt8 (cd >>> 8).toUInt8 cd.toUInt8
  | _ =>
    let (start, length) := longestZeros gs
    if 1 < length then groupsText (gs.take start) ++ "::" ++ groupsText (gs.drop (start + length))
    else groupsText gs

def Address.text : Address → String
  | v4 a b c d => v4Text a b c d
  | v6 groups => v6Text groups.toList

def Address.isV6 : Address → Bool
  | v4 .. => false
  | v6 _ => true

/-- the port after a colon; brackets keep the colons of a longer address apart from it -/
def Endpoint.text (e : Endpoint) : String :=
  if e.address.isV6 then "[" ++ e.address.text ++ "]:" ++ e.port.toNat.repr
  else e.address.text ++ ":" ++ e.port.toNat.repr

end InputRelay.Net
