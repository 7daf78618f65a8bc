import ClassForge.Text.Quoted
import ClassForge.TypeRef.Basic

/-!
# Annotations and their values

An annotation gives values to elements of its type. The same values serve as defaults of
annotation elements and as constants of static fields, so the question which value fits which
type is asked in three places and answered once, by `AnnotationValue.fits`.

Integers are machine integers: a value written into a class file is one of 32 or 64 bits.
-/

namespace ClassForge

/-- A value of an annotation element. -/
inductive AnnotationValue where
  | boolean (value : Bool)
  | int (value : Int32)
  | long (value : Int64)
  | char (value : Char)
  | text (value : String)
  /-- A constant of an enumeration. -/
  | constant (type : String) (name : String)
  /-- A class literal. -/
  | classOf (type : TypeRef)
  | array (values : List AnnotationValue)
  | nested (type : String) (elements : List (String × AnnotationValue))
deriving Inhabited

namespace AnnotationValue

/-! ### Equality -/

mutual

/-- Whether two values are the same. -/
def same : AnnotationValue → AnnotationValue → Bool
  | boolean a, boolean b => a == b
  | int a, int b => a == b
  | long a, long b => a == b
  | char a, char b => a == b
  | text a, text b => a == b
  | constant s a, constant t b => s == t && a == b
  | classOf s, classOf t => s == t
  | array vs, array ws => sameAll vs ws
  | nested s vs, nested t ws => s == t && sameElements vs ws
  | _, _ => false

/-- Whether two lists hold the same values. -/
def sameAll : List AnnotationValue → List AnnotationValue → Bool
  | [], [] => true
  | v :: vs, w :: ws => same v w && sameAll vs ws
  | _, _ => false

/-- Whether two lists hold the same elements. -/
def sameElements : List (String × AnnotationValue) → List (String × AnnotationValue) → Bool
  | [], [] => true
  | (m, v) :: vs, (n, w) :: ws => m == n && same v w && sameElements vs ws
  | _, _ => false

end

mutual

theorem same_iff : (v w : AnnotationValue) → (same v w = true ↔ v = w)
  | boolean _, w => by cases w <;> simp [same]
  | int _, w => by cases w <;> simp [same]
  | long _, w => by cases w <;> simp [same]
  | char _, w => by cases w <;> simp [same]
  | text _, w => by cases w <;> simp [same]
  | constant _ _, w => by cases w <;> simp [same]
  | classOf _, w => by cases w <;> simp [same]
  | array vs, w => by cases w <;> simp [same, sameAll_iff vs]
  | nested _ vs, w => by cases w <;> simp [same, sameElements_iff vs]

theorem sameAll_iff : (vs ws : List AnnotationValue) → (sameAll vs ws = true ↔ vs = ws)
  | [], ws => by cases ws <;> simp [sameAll]
  | v :: vs, ws => by cases ws <;> simp [sameAll, same_iff v, sameAll_iff vs]

theorem sameElements_iff :
    (vs ws : List (String × AnnotationValue)) → (sameElements vs ws = true ↔ vs = ws)
  | [], ws => by cases ws <;> simp [sameElements]
  | (m, v) :: vs, ws => by
    cases ws with
    | nil => simp [sameElements]
    | cons w ws =>
      obtain ⟨n, w⟩ := w
      simp [sameElements, same_iff v, sameElements_iff vs, and_assoc]

end

instance : DecidableEq AnnotationValue := fun v w => decidable_of_iff _ (same_iff v w)

/-! ### Fitting a type -/

mutual

/-- Whether an element of the given type may have this value. Only the erasure of the type
counts, and no value fits by conversion. -/
def fits : AnnotationValue → TypeRef → Bool
  | boolean _, t => t.erasure = .primitive .boolean
  | int _, t => t.erasure = .primitive .int
  | long _, t => t.erasure = .primitive .long
  | char _, t => t.erasure = .primitive .char
  | text _, t => t.erasure = .named BinaryName.string
  | classOf _, t => t.erasure = .named BinaryName.classLiteral
  | constant type _, t => t.erasure = .named type
  | nested type _, t => t.erasure = .named type
  | array values, t =>
    match t.erasure with
    | .array component => allFit values component
    | _ => false

/-- Whether all of the values fit the type. -/
def allFit : List AnnotationValue → TypeRef → Bool
  | [], _ => true
  | v :: vs, t => v.fits t && allFit vs t

end

/-! ### Text -/

mutual

/-- The value as it is written in source code. -/
def display : AnnotationValue → String
  | boolean b => toString b
  | int n => toString n.toInt
  | long n => toString n.toInt ++ "L"
  | char c => "'" ++ String.singleton c ++ "'"
  | text s => Text.quoted s
  | constant type name => type ++ "." ++ name
  | classOf type => type.display ++ ".class"
  | array values => "\x7b" ++ displayAll values ++ "\x7d"
  | nested type elements =>
    match elements with
    | [] => "@" ++ type
    | elements => "@" ++ type ++ "(" ++ displayElements elements ++ ")"

/-- Several values with commas between them. -/
def displayAll : List AnnotationValue → String
  | [] => ""
  | [v] => v.display
  | v :: vs => v.display ++ ", " ++ displayAll vs

/-- Several elements with commas between them. -/
def displayElements : List (String × AnnotationValue) → String
  | [] => ""
  | [(n, v)] => n ++ "=" ++ v.display
  | (n, v) :: vs => n ++ "=" ++ v.display ++ ", " ++ displayElements vs

end

instance : ToString AnnotationValue := ⟨display⟩

end AnnotationValue

/-- An annotation: its type and the values that it gives explicitly, in their order. -/
structure Annotation where
  type : String
  elements : List (String × AnnotationValue) := []
deriving DecidableEq, Inhabited

namespace Annotation

/-- The value that the annotation gives to an element; of several the first. -/
def value? (a : Annotation) (element : String) : Option AnnotationValue :=
  (a.elements.find? (·.1 = element)).map Prod.snd

/-- The annotation as it is written in source code. -/
def display (a : Annotation) : String := (AnnotationValue.nested a.type a.elements).display

instance : ToString Annotation := ⟨display⟩

/-- The annotations with further ones appended, except those of a type that is already there. -/
def merge (existing added : List Annotation) : List Annotation :=
  added.foldl (fun as a => if as.any (·.type = a.type) then as else as ++ [a]) existing

end Annotation

end ClassForge
