/-
Strings in quotes, as TOML writes them: basic ones with escapes or literal ones without, each on one line or, between
triple quotes, on many. A line break is one line feed however it was written, the first one of a string on many lines
does not count, and a backslash at the end of a line joins it to the next text.
-/
import InputRelay.Text.Digit
import InputRelay.Toml.Scan

namespace InputRelay.Toml

/-- a blank within a line -/
def isBlank (c : Char) : Bool := c == ' ' || c == '\t'

/-- a character that may stand in a comment, and in a string unless it is a quote or starts an escape -/
def isPlain (c : Char) : Bool := c == '\t' || (' ' ≤ c && c ≤ '~') || '\x80' ≤ c

/-- the text after a line break -/
def afterBreak? : List Char → Option (List Char)
  | '\n' :: rest => some rest
  | '\r' :: '\n' :: rest => some rest
  | _ => none

namespace Literal

/-- the character that a backslash and a letter stand for -/
def named? (c : Char) : Option Char :=
  if c = 'b' then some '\x08'
  else if c = 't' then some '\t'
  else if c = 'n' then some '\n'
  else if c = 'f' then some '\x0c'
  else if c = 'r' then some '\r'
  else if c = '"' then some '"'
  else if c = '\\' then some '\\'
  else none

/-- the character that hexadecimal digits number -/
def numbered? (digits : List Char) : Option Char :=
  let n := Text.valueOf 16 digits
  if digits.all (Text.isDigit 16) ∧ n.isValidChar then some (Char.ofNat n) else none

/-- an escape after its backslash -/
def escape? : List Char → Option (Char × List Char)
  | 'u' :: rest =>
    if rest.length < 4 then none else (numbered? (rest.take 4)).map fun c => (c, rest.drop 4)
  | 'U' :: rest =>
    if rest.length < 8 then none else (numbered? (rest.take 8)).map fun c => (c, rest.drop 8)
  | c :: rest => (named? c).map fun d => (d, rest)
  | [] => none

/-- an escape takes what it reads -/
theorem length_of_escape? {cs rest : List Char} {c : Char} (h : escape? cs = some (c, rest)) :
    rest.length < cs.length := by
  unfold escape? at h
  split at h
  · split at h
    · cases h
    · obtain ⟨_, _, e⟩ := Option.map_eq_some_iff.mp h
      simp only [Prod.mk.injEq] at e
      rw [← e.2, List.length_drop, List.length_cons]
      omega
  · split at h
    · cases h
    · obtain ⟨_, _, e⟩ := Option.map_eq_some_iff.mp h
      simp only [Prod.mk.injEq] at e
      rw [← e.2, List.length_drop, List.length_cons]
      omega
  · obtain ⟨_, _, e⟩ := Option.map_eq_some_iff.mp h
    simp only [Prod.mk.injEq] at e
    rw [← e.2, List.length_cons]
    omega
  · cases h

/-- a basic string after its opening quote -/
def basic (cs : List Char) : Option (List Char × List Char) :=
  match cs with
  | [] => none
  | '"' :: rest => some ([], rest)
  | '\\' :: rest =>
    match _h : escape? rest with
    | none => none
    | some (c, rest) => (basic rest).map fun (s, r) => (c :: s, r)
  | c :: rest => if isPlain c then (basic rest).map fun (s, r) => (c :: s, r) else none
termination_by cs.length
decreasing_by
  · have := length_of_escape? _h
    simp only [List.length_cons]
    omega
  · simp only [List.length_cons]
    omega

/-- a literal string after its opening quote -/
def literal : List Char → Option (List Char × List Char)
  | [] => none
  | '\'' :: rest => some ([], rest)
  | c :: rest => if isPlain c then (literal rest).map fun (s, r) => (c :: s, r) else none

/-- the end of a string on many lines, after three quotes: up to two more are part of the string -/
def lastQuotes (quote : Char) : List Char → List Char × List Char
  | [] => ([], [])
  | c :: rest =>
    if c = quote then
      match rest with
      | d :: rest' => if d = quote then ([c, d], rest') else ([c], rest)
      | [] => ([c], [])
    else ([], c :: rest)

/-- drops blanks and line breaks -/
def skipLines : List Char → List Char
  | '\n' :: rest => skipLines rest
  | '\r' :: '\n' :: rest => skipLines rest
  | ' ' :: rest => skipLines rest
  | '\t' :: rest => skipLines rest
  | cs => cs

theorem length_skipLines (cs : List Char) : (skipLines cs).length ≤ cs.length := by
  fun_induction skipLines cs <;> grind

/-- whether only blanks stand before the next line break -/
def endsLine (cs : List Char) : Bool := (afterBreak? (cs.dropWhile isBlank)).isSome

/-- a basic string on many lines, after its opening quotes -/
def basicLines (cs : List Char) : Option (List Char × List Char) :=
  match cs with
  | [] => none
  | '"' :: '"' :: '"' :: rest => some (lastQuotes '"' rest)
  | '\n' :: rest => (basicLines rest).map fun (s, r) => ('\n' :: s, r)
  | '\r' :: '\n' :: rest => (basicLines rest).map fun (s, r) => ('\n' :: s, r)
  | '\\' :: rest =>
    if endsLine rest then basicLines (skipLines rest)
    else
      match _h : escape? rest with
      | none => none
      | some (c, rest) => (basicLines rest).map fun (s, r) => (c :: s, r)
  | c :: rest => if isPlain c then (basicLines rest).map fun (s, r) => (c :: s, r) else none
termination_by cs.length
decreasing_by
  · simp only [List.length_cons]; omega
  · simp only [List.length_cons]; omega
  · have := length_skipLines rest
    simp only [List.length_cons]; omega
  · have := length_of_escape? _h
    simp only [List.length_cons]; omega
  · simp only [List.length_cons]; omega

/-- a literal string on many lines, after its opening quotes -/
def literalLines : List Char → Option (List Char × List Char)
  | [] => none
  | '\'' :: '\'' :: '\'' :: rest => some (lastQuotes '\'' rest)
  | '\n' :: rest => (literalLines rest).map fun (s, r) => ('\n' :: s, r)
  | '\r' :: '\n' :: rest => (literalLines rest).map fun (s, r) => ('\n' :: s, r)
  | c :: rest => if isPlain c then (literalLines rest).map fun (s, r) => (c :: s, r) else none

/-- the first line break after opening quotes does not count -/
def afterOpening (cs : List Char) : List Char := (afterBreak? cs).getD cs

/-- a string on one line -/
def line : Scan String := fun cs =>
  match cs with
  | '"' :: rest => (basic rest).map fun (s, r) => (String.ofList s, r)
  | '\'' :: rest => (literal rest).map fun (s, r) => (String.ofList s, r)
  | _ => none

/-- a string of any of the four kinds -/
def any : Scan String := fun cs =>
  match cs with
  | '"' :: '"' :: '"' :: rest => (basicLines (afterOpening rest)).map fun (s, r) => (String.ofList s, r)
  | '\'' :: '\'' :: '\'' :: rest => (literalLines (afterOpening rest)).map fun (s, r) => (String.ofList s, r)
  | _ => line cs

end Literal

end InputRelay.Toml
