/-
Remote displays. A display is named by a 32-bit id; every negative id is invalid, and `Display.invalid` is the one that
stands for "no display". Displays are ordered by id, and a set of them is kept as an ascending list without repeats:
`Display.insert` and `Display.remove` keep it so.
-/
namespace InputRelay

/-- a remote display, by its id -/
structure Display where
  id : Int32
deriving DecidableEq, Repr

namespace Display

/-- stands for "no display" -/
def invalid : Display := ⟨-1⟩

instance : Inhabited Display := ⟨invalid⟩

instance : LT Display := ⟨fun a b => a.id < b.id⟩

instance (a b : Display) : Decidable (a < b) := inferInstanceAs (Decidable (a.id < b.id))

/-- a display that can receive input: its id is not negative -/
def isValid (d : Display) : Bool := decide (0 ≤ d.id)

/-- the display as people read it -/
def text (d : Display) : String :=
  if d.isValid then "display#" ++ d.id.toInt.toNat.repr else "display#invalid"

/-- puts a display into an ascending list, once -/
def insert (d : Display) : List Display → List Display
  | [] => [d]
  | e :: rest => if d < e then d :: e :: rest else if e < d then e :: insert d rest else e :: rest

/-- takes a display out of a list -/
def remove (d : Display) (ds : List Display) : List Display := ds.filter (· ≠ d)

/-- the displays of any list, ascending and without repeats -/
def ascending (ds : List Display) : List Display := ds.foldl (fun set d => insert d set) []

end Display

end InputRelay
