import ClassForge.Member.Field
import ClassForge.Member.Method

/-!
# Changing flags

A rule may change the flags of the members that it claims. A change sets some flags and then
clears some, so a flag in both ends up cleared; changes are applied one after the other. Nothing
but the flags is touched, hence a changed member is still the same member.
-/

namespace ClassForge

/-- Flags to set and flags to clear. -/
structure ModifierChange where
  set : Modifiers := .empty
  clear : Modifiers := .empty
deriving DecidableEq, Inhabited

namespace ModifierChange

/-- The flags after one change. -/
def apply (m : Modifiers) (c : ModifierChange) : Modifiers := (m ∪ c.set) \ c.clear

@[simp] theorem has_apply (m : Modifiers) (c : ModifierChange) (f : Flag) :
    (apply m c).has f = ((m.has f || c.set.has f) && !c.clear.has f) := by
  simp [apply]

end ModifierChange

/-- The method after some changes to its flags. -/
def Method.change (m : Method) (cs : List ModifierChange) : Method :=
  { m with modifiers := cs.foldl ModifierChange.apply m.modifiers }

/-- The field after some changes to its flags. -/
def Field.change (f : Field) (cs : List ModifierChange) : Field :=
  { f with modifiers := cs.foldl ModifierChange.apply f.modifiers }

@[simp] theorem Method.identity_change (m : Method) (cs : List ModifierChange) :
    (m.change cs).identity = m.identity := rfl

@[simp] theorem Field.identity_change (f : Field) (cs : List ModifierChange) :
    (f.change cs).identity = f.identity := rfl

end ClassForge
