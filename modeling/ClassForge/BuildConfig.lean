import ClassForge.Constructors
import ClassForge.Release

/-!
# Settings of a build

Every setting has a default, so a build needs none. Settings that choose between ways of doing
something have a word for each.
-/

namespace ClassForge

/-- The settings of a build. -/
structure BuildConfig where
  release : Release := .default
  /-- Whether the type has to make sense. -/
  validate : Bool := true
  scope : GraphScope := .hierarchy
  constructors : ConstructorStrategy := .imitateOpening
  /-- The word in the names of auxiliary types. -/
  auxiliarySuffix : String := "auxiliary"
  /-- The word in the names of methods whose code was moved aside. -/
  relocationSuffix : String := "original"
deriving DecidableEq, Inhabited

/-- The words for the scopes. -/
def GraphScope.keywords : List (String × GraphScope) :=
  [("default", .hierarchy), ("declared-only", .declaredOnly)]

/-- The words for the strategies. -/
def ConstructorStrategy.keywords : List (String × ConstructorStrategy) :=
  [("no-constructors", .noConstructors), ("default-constructor", .withoutParameters),
    ("imitate-super-class", .imitate), ("imitate-super-class-public", .imitatePublic),
    ("imitate-super-class-opening", .imitateOpening)]

/-- The word for the scope. -/
def GraphScope.keyword : GraphScope → String
  | hierarchy => "default"
  | declaredOnly => "declared-only"

/-- The word for the strategy. -/
def ConstructorStrategy.keyword : ConstructorStrategy → String
  | noConstructors => "no-constructors"
  | withoutParameters => "default-constructor"
  | imitate => "imitate-super-class"
  | imitatePublic => "imitate-super-class-public"
  | imitateOpening => "imitate-super-class-opening"

theorem GraphScope.lookup_keyword (s : GraphScope) : keywords.lookup s.keyword = some s := by
  cases s <;> decide

theorem ConstructorStrategy.lookup_keyword (s : ConstructorStrategy) :
    keywords.lookup s.keyword = some s := by
  cases s <;> decide

end ClassForge
