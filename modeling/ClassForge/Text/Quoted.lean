import ClassForge.Text.Invisible

/-!
# Quoted text

A text constant is shown between double quotes. The quote, the backslash and the four usual
control characters have two-character forms; every other character that cannot be shown by
itself is written by its code point, as in `\u{301}`; the rest stand for themselves, the single
quote included.
-/

namespace ClassForge.Text

/-- The digits of `n` in base sixteen, lower case and without leading zeros. -/
def hexadecimal (n : Nat) : String := String.ofList (Nat.toDigits 16 n)

/-- How one character is written inside a quoted text. -/
def escaped (c : Char) : String :=
  match c with
  | '"' => "\\\""
  | '\\' => "\\\\"
  | '\n' => "\\n"
  | '\r' => "\\r"
  | '\t' => "\\t"
  | '\x00' => "\\0"
  | c =>
    if isExtending c || isInvisible c then "\\u\x7b" ++ hexadecimal c.toNat ++ "\x7d"
    else String.singleton c

/-- The text between double quotes, with every character escaped as needed. -/
def quoted (s : String) : String :=
  "\"" ++ String.join (s.toList.map escaped) ++ "\""

end ClassForge.Text
