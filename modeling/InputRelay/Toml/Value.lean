/-
Values of a TOML document. A table is a list of entries with distinct keys, in no order that matters. Floats and dates
keep their text: nothing here computes with them.
-/
namespace InputRelay.Toml

/-- a value -/
inductive Value where
  | string (s : String)
  | integer (n : Int)
  | float (text : String)
  | boolean (b : Bool)
  | datetime (text : String)
  | array (items : List Value)
  | table (entries : List (String × Value))
deriving Repr, Inhabited

/-- the entries of a table -/
abbrev Table := List (String × Value)

/-- what reads a document as one table, unless it is invalid -/
abbrev Parser := String → Option Table

/-- the value under a key -/
def Table.get? (t : Table) (key : String) : Option Value := t.lookup key

end InputRelay.Toml
