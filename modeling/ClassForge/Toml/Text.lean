import ClassForge.Toml.Scan

/-!
# Texts in a settings file

A text stands between double or single quotes, on one line or, between three of them, on several. A
line break directly after the opening three quotes does not count, and a line break of two
characters counts as one. Between double quotes a backslash starts an escape; at the end of a line
it takes away the line break with all blanks and line breaks that follow.

Up to two quotes next to each other may stand in a text of several lines, also directly before the
closing three.
-/

namespace ClassForge.Toml

/-- The value of a hexadecimal digit. -/
def hexDigit? (c : Char) : Option Nat :=
  if c.isDigit then some (c.toNat - '0'.toNat)
  else if 'a' ≤ c ∧ c ≤ 'f' then some (c.toNat - 'a'.toNat + 10)
  else if 'A' ≤ c ∧ c ≤ 'F' then some (c.toNat - 'A'.toNat + 10)
  else none

/-- The number with the given digits in a base. -/
def ofDigits (base : Nat) (ds : List Char) : Nat :=
  ds.foldl (fun n c => base * n + (hexDigit? c).getD 0) 0

/-- The character whose code point has the given hexadecimal digits. -/
def codePoint? (digits : List Char) : Option Char := do
  let n ← digits.foldlM (fun n c => (hexDigit? c).map (16 * n + ·)) 0
  if n.isValidChar then some (Char.ofNat n) else none

/-- The character for the letter after a backslash, where it needs nothing further. -/
def shortEscape? : Char → Option Char
  | 'b' => some '\x08'
  | 't' => some '\t'
  | 'n' => some '\n'
  | 'f' => some '\x0c'
  | 'r' => some '\r'
  | '"' => some '"'
  | '\\' => some '\\'
  | _ => none

/-- Whether the rest of a line is blank, with a line break at its end. -/
def blankToLineBreak : List Char → Bool
  | '\n' :: _ => true
  | '\r' :: '\n' :: _ => true
  | c :: cs => isBlank c && blankToLineBreak cs
  | [] => false

/-- A text in double quotes on one line, after the opening quote. -/
def basicText : List Char → Option (List Char × List Char)
  | '"' :: cs => some ([], cs)
  | '\\' :: 'u' :: a :: b :: c :: d :: cs => do
    let x ← codePoint? [a, b, c, d]
    let (text, rest) ← basicText cs
    some (x :: text, rest)
  | '\\' :: 'U' :: a :: b :: c :: d :: e :: f :: g :: h :: cs => do
    let x ← codePoint? [a, b, c, d, e, f, g, h]
    let (text, rest) ← basicText cs
    some (x :: text, rest)
  | '\\' :: c :: cs => do
    let x ← shortEscape? c
    let (text, rest) ← basicText cs
    some (x :: text, rest)
  | c :: cs =>
    if isPlain c && c ≠ '\\' then do
      let (text, rest) ← basicText cs
      some (c :: text, rest)
    else none
  | [] => none

/-- A text in double quotes on several lines, after the opening quotes. While `skips` holds, blanks
and line breaks are taken away. -/
def basicLines (skips : Bool) : List Char → Option (List Char × List Char)
  | '"' :: '"' :: '"' :: '"' :: '"' :: cs => some (['"', '"'], cs)
  | '"' :: '"' :: '"' :: '"' :: cs => some (['"'], cs)
  | '"' :: '"' :: '"' :: cs => some ([], cs)
  | '\\' :: 'u' :: a :: b :: c :: d :: cs => do
    let x ← codePoint? [a, b, c, d]
    let (text, rest) ← basicLines false cs
    some (x :: text, rest)
  | '\\' :: 'U' :: a :: b :: c :: d :: e :: f :: g :: h :: cs => do
    let x ← codePoint? [a, b, c, d, e, f, g, h]
    let (text, rest) ← basicLines false cs
    some (x :: text, rest)
  | '\\' :: c :: cs =>
    match shortEscape? c with
    | some x => do
      let (text, rest) ← basicLines false cs
      some (x :: text, rest)
    | none => if blankToLineBreak (c :: cs) then basicLines true cs else none
  | '\r' :: '\n' :: cs =>
    if skips then basicLines true cs
    else do
      let (text, rest) ← basicLines false cs
      some ('\n' :: text, rest)
  | c :: cs =>
    if skips && (isBlank c || c = '\n') then basicLines true cs
    else if (isPlain c || c = '\n') && c ≠ '\\' then do
      let (text, rest) ← basicLines false cs
      some (c :: text, rest)
    else none
  | [] => none

/-- A text in single quotes on one line, after the opening quote. -/
def literalText : List Char → Option (List Char × List Char)
  | '\'' :: cs => some ([], cs)
  | c :: cs =>
    if isPlain c then do
      let (text, rest) ← literalText cs
      some (c :: text, rest)
    else none
  | [] => none

/-- A text in single quotes on several lines, after the opening quotes. -/
def literalLines : List Char → Option (List Char × List Char)
  | '\'' :: '\'' :: '\'' :: '\'' :: '\'' :: cs => some (['\'', '\''], cs)
  | '\'' :: '\'' :: '\'' :: '\'' :: cs => some (['\''], cs)
  | '\'' :: '\'' :: '\'' :: cs => some ([], cs)
  | '\r' :: '\n' :: cs => do
    let (text, rest) ← literalLines cs
    some ('\n' :: text, rest)
  | c :: cs =>
    if isPlain c || c = '\n' then do
      let (text, rest) ← literalLines cs
      some (c :: text, rest)
    else none
  | [] => none

/-- Takes a text on one line. -/
def lineText : Scan String := do
  match ← Scan.one fun c => c = '"' || c = '\'' with
  | '"' => String.ofList <$> (basicText : Scan _)
  | _ => String.ofList <$> (literalText : Scan _)

/-- Takes a text. -/
def text : Scan String := fun cs =>
  match cs with
  | '"' :: '"' :: '"' :: cs => lines (basicLines false) cs
  | '\'' :: '\'' :: '\'' :: cs => lines literalLines cs
  | cs => lineText cs
where
  lines (body : Scan (List Char)) : Scan String := do
    discard (Scan.attempt newline)
    String.ofList <$> body

end ClassForge.Toml
