/-!
# Sets of characters as code point intervals

Which characters may stand in a name, which are blank and which cannot be shown are questions
about properties of characters. A property is given as a list of closed intervals of code
points, and asking it of a character is a membership test.

The lists of the larger properties start at `0x80`: the ASCII part of each is short enough to be
said in a sentence, so the module of a property says it there and asks the list only beyond.
-/

namespace ClassForge.Text

/-- A set of characters, as closed intervals of code points. -/
abbrev Intervals := List (Nat × Nat)

/-- Whether the code point of `c` lies in one of the intervals. -/
def Intervals.contains (s : Intervals) (c : Char) : Bool :=
  s.any fun i => i.1 ≤ c.toNat && c.toNat ≤ i.2

@[simp] theorem Intervals.contains_nil (c : Char) : Intervals.contains [] c = false := rfl

@[simp] theorem Intervals.contains_cons (i : Nat × Nat) (s : Intervals) (c : Char) :
    Intervals.contains (i :: s) c = ((i.1 ≤ c.toNat && c.toNat ≤ i.2) || Intervals.contains s c) :=
  rfl

end ClassForge.Text
