/-!
# Scanning characters

A scanner takes characters from the front of a text and gives a result, or fails. Alternatives start
again where the first one started. What a failure was about is not kept: a text is either read or
refused.

The small scanners here are the ones of which the grammar of settings files is made: single
characters, runs, line ends, comments.
-/

namespace ClassForge.Toml

/-- Takes characters from the front of a text. -/
abbrev Scan := StateT (List Char) Option

namespace Scan

/-- The next character, which stays where it is. -/
def peek? : Scan (Option Char) := fun cs => some (cs.head?, cs)

/-- Whether nothing is left. -/
def atEnd : Scan Bool := fun cs => some (cs.isEmpty, cs)

/-- Takes a character that satisfies `p`. -/
def one (p : Char → Bool) : Scan Char
  | c :: cs => if p c then some (c, cs) else none
  | [] => none

/-- Takes the character `c`. -/
def char (c : Char) : Scan Unit := discard (one (· = c))

/-- Takes the characters of `word`. -/
def word (word : String) : Scan Unit := fun cs =>
  if word.toList.isPrefixOf cs then some ((), cs.drop word.length) else none

/-- Takes all characters up to the first that does not satisfy `p`. -/
def run (p : Char → Bool) : Scan (List Char) := fun cs => some (cs.takeWhile p, cs.dropWhile p)

/-- Takes a given number of characters that satisfy `p`. -/
def exactly (p : Char → Bool) : Nat → Scan (List Char)
  | 0 => return []
  | n + 1 => do return (← one p) :: (← exactly p n)

/-- The result of a scanner, or nothing where it fails. -/
def attempt {α : Type} (s : Scan α) : Scan (Option α) := (some <$> s) <|> pure none

end Scan

open Scan

/-- A blank inside a line. -/
def isBlank (c : Char) : Bool := c = ' ' || c = '\t'

/-- Whether the character may stand in a line: no control character but the tabulator. -/
def isPlain (c : Char) : Bool := c = '\t' || (0x20 ≤ c.toNat && c.toNat ≠ 0x7f)

/-- Takes blanks. -/
def blanks : Scan Unit := discard (run isBlank)

/-- Takes a line break. -/
def newline : Scan Unit := char '\n' <|> word "\r\n"

/-- Takes a comment, which goes up to the end of its line. -/
def comment : Scan Unit := do
  char '#'
  discard (run isPlain)

/-- Takes what may follow on a line, and its end. -/
def lineEnd : Scan Unit := do
  blanks
  discard (attempt comment)
  if !(← atEnd) then newline

/-- Blanks, line breaks and comments; a comment has to be followed by a line break. -/
def spaceFrom : Nat → Scan Unit
  | 0 => return ()
  | n + 1 => do
    blanks
    match ← peek? with
    | some '#' => comment; newline; spaceFrom n
    | some '\n' | some '\r' => newline; spaceFrom n
    | _ => return ()

/-- Takes blanks, line breaks and comments. -/
def space : Scan Unit := fun cs => spaceFrom (cs.length + 1) cs

end ClassForge.Toml
