/-
Text in quotes, as messages show it. Quotes and backslashes inside are escaped, a few controls have names, characters
that do not show as themselves are spelled by their code point, and all others stand as they are.
-/
import InputRelay.Text.Digit
import InputRelay.Text.Hidden

namespace InputRelay.Text

/-- a character inside quotes -/
def quotedChar (c : Char) : String :=
  if c = '\x00' then "\\0"
  else if c = '\t' then "\\t"
  else if c = '\r' then "\\r"
  else if c = '\n' then "\\n"
  else if c = '\\' then "\\\\"
  else if c = '"' then "\\\""
  else if isHidden c then "\\u\x7b" ++ hex c.toNat ++ "\x7d"
  else String.singleton c

/-- a text in quotes -/
def quoted (s : String) : String := "\"" ++ String.join (s.toList.map quotedChar) ++ "\""

end InputRelay.Text
