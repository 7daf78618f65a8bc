/-!
# Access flags and visibility

Types, fields, methods and parameters carry access flags. Three of the flags together say who may
use a declaration, its *visibility*; they are meant to exclude each other, but a set of flags with
more than one of them has a visibility all the same, the first one set in the order public,
protected, private. Whether more than one is allowed is a question for validation.

A set of flags is a bit vector, as in a class file, and every operation on sets is described by
what it does to a single flag (`has_union`, `has_sdiff`, `has_withVisibility`).

## Main definitions

* `Flag`, `Modifiers` — one flag, and a set of them
* `Visibility` — from narrowest to widest
* `Modifiers.visibility`, `Modifiers.withVisibility` — reading and replacing the visibility
* `Modifiers.keywords` — the flags that source code has a word for
-/

namespace ClassForge

/-- An access flag. The bridge flag means `volatile` on a field, and the varargs flag
`transient`; a field shows them as what they are called here. -/
inductive Flag where
  | accPublic
  | accPrivate
  | accProtected
  | accStatic
  | accFinal
  | accSynchronized
  | accBridge
  | accVarargs
  | accNative
  | accInterface
  | accAbstract
  | accStrict
  | accSynthetic
  | accAnnotationType
  | accEnum
deriving DecidableEq, Inhabited

namespace Flag

/-- The place of the flag in a class file's bit mask. -/
def bit : Flag → Nat
  | accPublic => 0
  | accPrivate => 1
  | accProtected => 2
  | accStatic => 3
  | accFinal => 4
  | accSynchronized => 5
  | accBridge => 6
  | accVarargs => 7
  | accNative => 8
  | accInterface => 9
  | accAbstract => 10
  | accStrict => 11
  | accSynthetic => 12
  | accAnnotationType => 13
  | accEnum => 14

theorem bit_lt (f : Flag) : f.bit < 15 := by cases f <;> decide

theorem bit_inj {f g : Flag} (h : f.bit = g.bit) : f = g := by
  cases f <;> cases g <;> simp_all [bit]

end Flag

/-- A set of access flags. -/
structure Modifiers where
  bits : BitVec 15
deriving DecidableEq, Inhabited

namespace Modifiers

/-- The set given by a class file's bit mask; the highest of its sixteen bits is no flag. -/
def ofMask (mask : Nat) : Modifiers := ⟨BitVec.ofNat 15 mask⟩

/-- The bit mask of the set. -/
def mask (m : Modifiers) : Nat := m.bits.toNat

/-- The set of the given flags. -/
def of (flags : List Flag) : Modifiers :=
  ⟨flags.foldr (fun f bits => BitVec.twoPow 15 f.bit ||| bits) 0⟩

/-- The set without flags. -/
def empty : Modifiers := ⟨0⟩

/-- Whether the flag is in the set. -/
def has (m : Modifiers) (f : Flag) : Bool := m.bits.getLsbD f.bit

/-- Whether one of the flags is in the set. -/
def hasAny (m : Modifiers) (flags : List Flag) : Bool := flags.any m.has

/-- Whether each of the flags is in the set. -/
def hasAll (m : Modifiers) (flags : List Flag) : Bool := flags.all m.has

instance : Union Modifiers := ⟨fun m n => ⟨m.bits ||| n.bits⟩⟩
instance : Inter Modifiers := ⟨fun m n => ⟨m.bits &&& n.bits⟩⟩
instance : SDiff Modifiers := ⟨fun m n => ⟨m.bits &&& ~~~n.bits⟩⟩

/-! ### Membership -/

@[simp] theorem has_empty (f : Flag) : empty.has f = false := by simp [has, empty]

@[simp] theorem has_union (m n : Modifiers) (f : Flag) : (m ∪ n).has f = (m.has f || n.has f) :=
  BitVec.getLsbD_or ..

@[simp] theorem has_inter (m n : Modifiers) (f : Flag) : (m ∩ n).has f = (m.has f && n.has f) :=
  BitVec.getLsbD_and ..

@[simp] theorem has_sdiff (m n : Modifiers) (f : Flag) : (m \ n).has f = (m.has f && !n.has f) := by
  simp [has, SDiff.sdiff, f.bit_lt]

@[simp] theorem has_of (flags : List Flag) (f : Flag) : (of flags).has f = decide (f ∈ flags) := by
  induction flags with
  | nil => simp [of, has]
  | cons g gs ih =>
    have hg : (BitVec.twoPow 15 g.bit).getLsbD f.bit = decide (f = g) := by
      rw [BitVec.getLsbD_twoPow]
      by_cases h : f = g
      · simp [h, g.bit_lt]
      · have : g.bit ≠ f.bit := fun e => h (Flag.bit_inj e).symm
        simp [h, this]
    simp only [of, has, List.foldr_cons, BitVec.getLsbD_or, hg] at ih ⊢
    rw [ih]
    simp

end Modifiers

/-! ### Visibility -/

/-- Who may use a declaration, from the fewest to the most. -/
inductive Visibility where
  /-- Its own type. -/
  | priv
  /-- Its own package. -/
  | pkg
  /-- Its own package and the subtypes of its own type. -/
  | prot
  /-- Everyone. -/
  | pub
deriving DecidableEq, Inhabited

namespace Visibility

/-- The place in the order. -/
def rank : Visibility → Nat
  | priv => 0
  | pkg => 1
  | prot => 2
  | pub => 3

instance : LE Visibility := ⟨fun v w => v.rank ≤ w.rank⟩

instance (v w : Visibility) : Decidable (v ≤ w) := inferInstanceAs (Decidable (v.rank ≤ w.rank))

/-- The wider of two visibilities. -/
def widen (v w : Visibility) : Visibility := if v ≤ w then w else v

theorem le_widen_left (v w : Visibility) : v ≤ v.widen w := by cases v <;> cases w <;> decide

theorem le_widen_right (v w : Visibility) : w ≤ v.widen w := by cases v <;> cases w <;> decide

/-- The flags that say it. -/
def flags : Visibility → Modifiers
  | priv => .of [.accPrivate]
  | pkg => .empty
  | prot => .of [.accProtected]
  | pub => .of [.accPublic]

/-- Its usual name. -/
def display : Visibility → String
  | priv => "private"
  | pkg => "package-private"
  | prot => "protected"
  | pub => "public"

instance : ToString Visibility := ⟨display⟩

end Visibility

namespace Modifiers

/-- The flags that bear on visibility. -/
def visibilityFlags : List Flag := [.accPublic, .accPrivate, .accProtected]

/-- The visibility that the flags give. -/
def visibility (m : Modifiers) : Visibility :=
  if m.has .accPublic then .pub
  else if m.has .accProtected then .prot
  else if m.has .accPrivate then .priv
  else .pkg

/-- The same flags with another visibility. -/
def withVisibility (m : Modifiers) (v : Visibility) : Modifiers :=
  (m \ .of visibilityFlags) ∪ v.flags

/-- Whether more than one flag bears on visibility. -/
def hasConflictingVisibility (m : Modifiers) : Bool :=
  (visibilityFlags.filter m.has).length > 1

@[simp] theorem visibility_withVisibility (m : Modifiers) (v : Visibility) :
    (m.withVisibility v).visibility = v := by
  cases v <;> simp [withVisibility, visibility, visibilityFlags, Visibility.flags]

/-- Flags that do not bear on visibility stay as they are. -/
theorem has_withVisibility (m : Modifiers) (v : Visibility) {f : Flag} (h : f ∉ visibilityFlags) :
    (m.withVisibility v).has f = m.has f := by
  have hv : v.flags.has f = false := by
    cases v <;> cases f <;> simp_all [Visibility.flags, visibilityFlags]
  simp [withVisibility, h, hv]

/-- The words for flags in source code, in the order in which they are written. -/
def words : List (Flag × String) :=
  [(.accPublic, "public"), (.accProtected, "protected"), (.accPrivate, "private"),
    (.accAbstract, "abstract"), (.accStatic, "static"), (.accFinal, "final"),
    (.accSynchronized, "synchronized"), (.accNative, "native"), (.accStrict, "strictfp"),
    (.accSynthetic, "synthetic"), (.accBridge, "bridge")]

/-- The words for the flags of the set, with spaces between them. -/
def keywords (m : Modifiers) : String :=
  String.intercalate " " ((words.filter fun w => m.has w.1).map Prod.snd)

/-- The words for the flags of the set, each followed by a space. -/
def leadingKeywords (m : Modifiers) : String :=
  let text := m.keywords
  if text.isEmpty then "" else text ++ " "

end Modifiers

end ClassForge
