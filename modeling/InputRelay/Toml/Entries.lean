/-
Tables while a document is read. A table can come from a header of its own, be implied by the header of a table inside
it, or come from a key with points; that decides what may still be added to it:
- a key with points may add to tables that were implied or came from such keys, but not to one with a header of its own,
  and the table that takes the value must have come from such a key;
- a header may name a table that was only implied so far, and no other that is there;
- a header of a table in an array adds to an array that came from such headers, and its last table is the one meant
  wherever the array is passed through.
No key is given twice.
-/
import InputRelay.Toml.Value

namespace InputRelay.Toml

/-- a key: the tables that it leads through, and the name in the last -/
structure Key where
  path : List String
  name : String
deriving DecidableEq, Repr

/-- where a table came from -/
inductive Origin where
  | header
  | implied
  | dotted
deriving DecidableEq, Repr

/-- what stands under a name while a document is read -/
inductive Node where
  | value (v : Value)
  | table (origin : Origin) (entries : List (String × Node))
  | tables (items : List (Origin × List (String × Node)))

/-- the entries of a table while a document is read -/
abbrev Entries := List (String × Node)

namespace Entries

/-- puts something else under a name that is there -/
def replace (es : Entries) (name : String) (node : Node) : Entries :=
  es.map fun e => if e.1 = name then (name, node) else e

/-- puts something under a new name -/
def add (es : Entries) (name : String) (node : Node) : Entries := es ++ [(name, node)]

/-- gives a key a value, in a table of some origin; `dotted` says whether the whole key has points -/
def insert (dotted : Bool) (name : String) (v : Value) : List String → Origin → Entries → Option Entries
  | [], origin, es =>
    if (origin = .dotted) = (dotted = true) ∧ (es.lookup name).isNone then some (es.add name (.value v)) else none
  | step :: path, _, es =>
    match es.lookup step with
    | none => (insert dotted name v path .dotted []).map fun inner => es.add step (.table .dotted inner)
    | some (.value _) => none
    | some (.table .header _) => none
    | some (.table origin inner) =>
      (insert dotted name v path origin inner).map fun inner => es.replace step (.table origin inner)
    | some (.tables items) =>
      match items.getLast? with
      | none => none
      | some (origin, inner) =>
        (insert dotted name v path origin inner).map fun inner =>
          es.replace step (.tables (items.dropLast ++ [(origin, inner)]))

/-- changes the table at the end of a path, which implies the tables on the way -/
def changeAt (change : Origin → Entries → Option Entries) : List String → Origin → Entries → Option Entries
  | [], origin, es => change origin es
  | step :: path, _, es =>
    match es.lookup step with
    | none => (changeAt change path .implied []).map fun inner => es.add step (.table .implied inner)
    | some (.value _) => none
    | some (.table origin inner) =>
      (changeAt change path origin inner).map fun inner => es.replace step (.table origin inner)
    | some (.tables items) =>
      match items.getLast? with
      | none => none
      | some (origin, inner) =>
        (changeAt change path origin inner).map fun inner =>
          es.replace step (.tables (items.dropLast ++ [(origin, inner)]))

/-- a header names a table -/
def openTable (name : String) (es : Entries) : Option Entries :=
  match es.lookup name with
  | none => some (es.add name (.table .header []))
  | some (.table .implied inner) => some (es.replace name (.table .header inner))
  | some _ => none

/-- a header starts the next table of an array -/
def openItem (name : String) (es : Entries) : Option Entries :=
  match es.lookup name with
  | none => some (es.add name (.tables [(.header, [])]))
  | some (.tables items) => some (es.replace name (.tables (items ++ [(.header, [])])))
  | some _ => none

/-- gives one key a value, in a table with a header of its own -/
def insertKey (es : Entries) (key : Key) (v : Value) : Option Entries :=
  insert (key.path ≠ []) key.name v key.path .header es

end Entries

/-! ## Finished tables -/

mutual
def Node.toValue : Node → Value
  | .value v => v
  | .table _ entries => .table (entriesToTable entries)
  | .tables items => .array (itemsToValues items)

def entriesToTable : List (String × Node) → Table
  | [] => []
  | (name, node) :: rest => (name, node.toValue) :: entriesToTable rest

def itemsToValues : List (Origin × List (String × Node)) → List Value
  | [] => []
  | (_, entries) :: rest => .table (entriesToTable entries) :: itemsToValues rest
end

end InputRelay.Toml
