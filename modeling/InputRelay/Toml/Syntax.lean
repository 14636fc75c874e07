/-
The lines of a TOML document: headers of tables, headers of tables in arrays, and keys with values. A value is read in
full here, inline tables included; where a line puts its value is left to `Document`. Arrays and inline tables nest to a
depth below `depthLimit`, and a key has fewer parts than that.
-/
import InputRelay.Toml.Datetime
import InputRelay.Toml.Entries
import InputRelay.Toml.Literal

namespace InputRelay.Toml

/-- nesting and keys stay below this -/
def depthLimit : Nat := 80

/-- one line that says something -/
inductive Statement where
  | pair (key : Key) (value : Value)
  | table (key : Key)
  | item (key : Key)

namespace Syntax

def blanks : Scan Unit := do
  let _ ← Scan.run isBlank

def lineBreak : Scan Unit := fun cs => (afterBreak? cs).map fun rest => ((), rest)

def endOfText : Scan Unit := fun cs => if cs.isEmpty then some ((), cs) else none

def comment : Scan Unit := do
  let _ ← Scan.char '#'
  let _ ← Scan.run isPlain

/-- what may follow a statement on its line -/
def endOfLine : Scan Unit := do
  blanks
  let _ ← Scan.maybe comment
  lineBreak <|> endOfText

/-- blanks, comments and line breaks between the items of an array -/
def gap : Scan Unit := do
  blanks
  let _ ← Scan.many do
    let _ ← Scan.maybe comment
    lineBreak
    blanks

/-! ## Keys -/

def isBare (c : Char) : Bool := c.isAlphanum || c == '_' || c == '-'

/-- one part of a key, bare or in quotes -/
def keyPart : Scan String := Literal.line <|> String.ofList <$> Scan.run1 isBare

def keyPartAmongBlanks : Scan String := do
  blanks
  let part ← keyPart
  blanks
  return part

/-- parts with points between them -/
def key : Scan Key := do
  let parts ← Scan.separated keyPartAmongBlanks (Scan.char '.')
  match parts.getLast? with
  | some name => if parts.length < depthLimit then return ⟨parts.dropLast, name⟩ else failure
  | none => failure

/-- a key, the sign after it and a value -/
def pair (value : Scan Value) : Scan (Key × Value) := do
  let k ← key
  let _ ← Scan.char '='
  blanks
  let v ← value
  return (k, v)

/-! ## Values -/

def boolean : Scan Bool :=
  (do Scan.text "true"; return true) <|> (do Scan.text "false"; return false)

/-- a value without parts -/
def scalar : Scan Value :=
  Value.string <$> Literal.any <|> Value.boolean <$> boolean <|> Value.datetime <$> Datetime.any
    <|> Value.float <$> Number.float <|> Value.integer <$> Number.integer

def amongGaps (value : Scan Value) : Scan Value := do
  gap
  let v ← value
  gap
  return v

/-- between brackets, values with commas between them and perhaps after the last -/
def array (value : Scan Value) : Scan Value := do
  let _ ← Scan.char '['
  let items ← Scan.maybe do
    let items ← Scan.separated (amongGaps value) (Scan.char ',')
    let _ ← Scan.maybe (Scan.char ',')
    return items
  gap
  let _ ← Scan.char ']'
  return .array (items.getD [])

def pairAmongBlanks (value : Scan Value) : Scan (Key × Value) := do
  let p ← pair value
  blanks
  return p

/-- between braces on one line, keys and values with commas between them -/
def inlineTable (value : Scan Value) : Scan Value := do
  let _ ← Scan.char '\x7b'
  let pairs ← Scan.maybe (Scan.separated (pairAmongBlanks value) (Scan.char ','))
  blanks
  let _ ← Scan.char '\x7d'
  match (pairs.getD []).foldlM (fun es p => Entries.insertKey es p.1 p.2) ([] : Entries) with
  | some es => return .table (entriesToTable es)
  | none => failure

/-- a value with room for so many levels of arrays and inline tables -/
def value : Nat → Scan Value
  | 0 => scalar
  | room + 1 => array (value room) <|> inlineTable (value room) <|> scalar

/-! ## Lines -/

def statement : Scan Statement :=
  (do
    Scan.text "[["
    let k ← key
    Scan.text "]]"
    endOfLine
    return .item k)
  <|> (do
    Scan.text "["
    let k ← key
    Scan.text "]"
    endOfLine
    return .table k)
  <|> (do
    let (k, v) ← pair (value (depthLimit - 1))
    endOfLine
    return .pair k v)

/-- a line that says nothing -/
def emptyLine : Scan Unit := lineBreak <|> do
  comment
  lineBreak <|> endOfText

/-- a line, with the blanks before the next -/
def anyLine : Scan (Option Statement) := do
  let s ← some <$> statement <|> (do emptyLine; return none)
  blanks
  return s

/-- all statements of a document; a byte order mark may stand before it -/
def statements? (text : List Char) : Option (List Statement) :=
  let text := match text with
    | c :: rest => if c = '\ufeff' then rest else c :: rest
    | [] => []
  (Scan.whole? (Scan.many anyLine) (text.dropWhile isBlank)).map fun lines => lines.filterMap id

end Syntax

end InputRelay.Toml
