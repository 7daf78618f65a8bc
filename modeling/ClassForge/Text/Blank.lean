import ClassForge.Text.Intervals

/-!
# Blank characters

Blanks around the parts of a type name carry no meaning. A character is blank if it has the
Unicode property White_Space.
-/

namespace ClassForge.Text

/-- The characters with the property White_Space. -/
def blankIntervals : Intervals :=
  [(0x9, 0xd), (0x20, 0x20), (0x85, 0x85), (0xa0, 0xa0), (0x1680, 0x1680), (0x2000, 0x200a),
    (0x2028, 0x2029), (0x202f, 0x202f), (0x205f, 0x205f), (0x3000, 0x3000)]

/-- Whether `c` has the property White_Space. -/
def isBlank (c : Char) : Bool := blankIntervals.contains c

theorem isBlank_of_isWhitespace {c : Char} (h : c.isWhitespace) : isBlank c := by
  simp only [Char.isWhitespace, Bool.or_eq_true, decide_eq_true_eq] at h
  rcases h with ((h | h) | h) | h <;> subst h <;> decide

/-- The text without blanks at either end. -/
def trimBlanks (s : List Char) : List Char :=
  ((s.dropWhile isBlank).reverse.dropWhile isBlank).reverse

end ClassForge.Text
