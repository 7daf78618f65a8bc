import ClassForge.Matcher.Method

/-!
# Predicates that wait for their type

A rule is often stated before the type it is applied to is known: "the methods that the type
declares itself", "this method of the type". Such a predicate is latent; it becomes a predicate
on methods once the type is there.

The one leaf with a rule of its own is `instrumentable`, which says what a type may take over: all
that it declares, and of what it inherits the methods that are virtual, not final, visible to it
and not ignored.
-/

namespace ClassForge

/-- A predicate on methods that may depend on the type under construction. -/
inductive LatentMatcher where
  | resolved (matcher : MethodMatcher)
  /-- Is declared by the type itself, or with `false` is not. -/
  | selfDeclared (declared : Bool)
  /-- Is the method that the token describes on the type. -/
  | declaredAs (token : MethodToken)
  /-- May be taken over by the type, where `ignored` is not to be. -/
  | instrumentable (ignored : LatentMatcher)
  | all (matchers : List LatentMatcher)
  | any (matchers : List LatentMatcher)
  | not (matcher : LatentMatcher)
deriving Inhabited

namespace LatentMatcher

/-- Holds of every method. -/
def always : LatentMatcher := resolved .always

/-- Holds of no method. -/
def never : LatentMatcher := resolved .never

/-- Both hold. -/
protected def and : LatentMatcher → LatentMatcher → LatentMatcher
  | all ms, n => all (ms ++ [n])
  | m, n => all [m, n]

/-- At least one holds. -/
protected def or : LatentMatcher → LatentMatcher → LatentMatcher
  | any ms, n => any (ms ++ [n])
  | m, n => any [m, n]

mutual

/-- The predicate for the type `t`. -/
def resolve (t : TypeDecl) : LatentMatcher → MethodMatcher
  | resolved m => m
  | selfDeclared true => .declaredBy t.name
  | selfDeclared false => .not (.declaredBy t.name)
  | declaredAs token => .all [.declaredBy t.name, .token token]
  | instrumentable ignored =>
    .any
      [.all [.isVirtual, .not .isFinal, .visibleTo t, .not (ignored.resolve t)],
        .declaredBy t.name]
  | all ms => .all (resolveAll t ms)
  | any ms => .any (resolveAll t ms)
  | not m => .not (m.resolve t)

/-- `resolve` on every predicate of a list. -/
def resolveAll (t : TypeDecl) : List LatentMatcher → List MethodMatcher
  | [] => []
  | m :: ms => m.resolve t :: resolveAll t ms

end

end LatentMatcher

end ClassForge
