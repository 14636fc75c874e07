/-
A TOML document as one table. Each line adds to the table that the last header before it names, at first to the whole
document; a line that may not add what it says makes the document invalid.
-/
import InputRelay.Toml.Syntax

namespace InputRelay.Toml

/-- the document so far, and the path to the table that lines add to -/
structure Building where
  root : Entries
  current : List String

namespace Building

def empty : Building := ⟨[], []⟩

/-- what one line does -/
def add (b : Building) : Statement → Option Building
  | .pair key v =>
    (Entries.changeAt (fun _ es => es.insertKey key v) b.current .header b.root).map fun root => { b with root }
  | .table key =>
    (Entries.changeAt (fun _ es => es.openTable key.name) key.path .header b.root).map fun root =>
      ⟨root, key.path ++ [key.name]⟩
  | .item key =>
    (Entries.changeAt (fun _ es => es.openItem key.name) key.path .header b.root).map fun root =>
      ⟨root, key.path ++ [key.name]⟩

end Building

/-- the table that a text spells, if it is a TOML document -/
def parse? (text : String) : Option Table := do
  let statements ← Syntax.statements? text.toList
  let b ← statements.foldlM Building.add .empty
  return entriesToTable b.root

end InputRelay.Toml
