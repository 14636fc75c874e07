/-
Reading from the front of a text: a scan takes some characters and gives what it read, or fails and takes nothing.
-/
namespace InputRelay.Toml

/-- reads something from the front of a text, or fails -/
abbrev Scan := StateT (List Char) Option

namespace Scan

variable {α β : Type}

/-- the next character, if it passes a test -/
def satisfy (test : Char → Bool) : Scan Char := fun cs =>
  match cs with
  | c :: rest => if test c then some (c, rest) else none
  | [] => none

def char (c : Char) : Scan Char := satisfy (· == c)

/-- the longest run of characters that pass a test -/
def run (test : Char → Bool) : Scan (List Char) := fun cs => some (cs.takeWhile test, cs.dropWhile test)

/-- a run of at least one -/
def run1 (test : Char → Bool) : Scan (List Char) := fun cs =>
  let taken := cs.takeWhile test
  if taken.isEmpty then none else some (taken, cs.dropWhile test)

/-- exactly so many characters that pass a test -/
def exactly (count : Nat) (test : Char → Bool) : Scan (List Char) := fun cs =>
  let taken := cs.take count
  if taken.length = count ∧ taken.all test then some (taken, cs.drop count) else none

/-- one given text -/
def text (s : String) : Scan Unit := fun cs =>
  if s.toList.isPrefixOf cs then some ((), cs.drop s.length) else none

/-- reads it if it is there -/
def maybe (p : Scan α) : Scan (Option α) := fun cs =>
  match p cs with
  | some (a, rest) => some (some a, rest)
  | none => some (none, cs)

/-- reads it as often as it is there; one that takes nothing ends it -/
def many (p : Scan α) (cs : List Char) : Option (List α × List Char) :=
  match p cs with
  | none => some ([], cs)
  | some (a, rest) =>
    if rest.length < cs.length then (many p rest).map fun (as, r) => (a :: as, r) else some ([], cs)
termination_by cs.length

/-- one or more, with something between them -/
def separated (p : Scan α) (separator : Scan β) : Scan (List α) := do
  let first ← p
  let others ← many (do let _ ← separator; p)
  return first :: others

/-- the text that a scan takes -/
def taken (p : Scan α) : Scan (List Char) := fun cs =>
  (p cs).map fun (_, rest) => (cs.take (cs.length - rest.length), rest)

/-- a scan that must take all of a text -/
def whole? (p : Scan α) (cs : List Char) : Option α :=
  match p cs with
  | some (a, []) => some a
  | _ => none

end Scan

end InputRelay.Toml
