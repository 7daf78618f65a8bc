import ClassForge.Pool.Access

/-!
# Predicates on methods

A rule says which methods it is about by a tree of predicates. Most leaves look at the method
alone; only `visibleTo` asks the pool. Types are compared by erasure, except in `token`, which
compares a method detached from its owner with a token as the two are written, and in
`signature`, whose types are compared with the erased ones as they stand.

Joining with `and` and `or` flattens on the left, so a chain of one kind is one list.
-/

namespace ClassForge

/-- A predicate on methods. -/
inductive MethodMatcher where
  | always
  | never
  | named (name : String)
  | startsWith (start : String)
  | endsWith (ending : String)
  /-- Has this many parameters. -/
  | arity (count : Nat)
  /-- Has parameters of these types, up to erasure. -/
  | parameterTypes (types : List TypeRef)
  /-- Returns this type, up to erasure. -/
  | returns (type : TypeRef)
  | isConstructor
  | isTypeInitializer
  | isOrdinary
  | isVirtual
  | isStatic
  | isFinal
  | isAbstract
  | isPublic
  | isSynthetic
  | isBridge
  | declaredBy (owner : String)
  /-- May be called from this type. -/
  | visibleTo (accessor : TypeDecl)
  | signature (signature : Signature)
  /-- Equals this token once it is detached from its owner. -/
  | token (token : MethodToken)
  | all (matchers : List MethodMatcher)
  | any (matchers : List MethodMatcher)
  | not (matcher : MethodMatcher)
deriving Inhabited

namespace MethodMatcher

/-- Both hold. -/
protected def and : MethodMatcher → MethodMatcher → MethodMatcher
  | all ms, n => all (ms ++ [n])
  | m, n => all [m, n]

/-- At least one holds. -/
protected def or : MethodMatcher → MethodMatcher → MethodMatcher
  | any ms, n => any (ms ++ [n])
  | m, n => any [m, n]

mutual

/-- Whether the predicate holds of a method. -/
def accepts (p : Pool) (x : Method) : MethodMatcher → Bool
  | always => true
  | never => false
  | named name => x.name = name
  | startsWith start => start.toList.isPrefixOf x.name.toList
  | endsWith ending => ending.toList.isSuffixOf x.name.toList
  | arity count => x.parameters.length = count
  | parameterTypes types => x.erasedParameterTypes = types.map TypeRef.erasure
  | returns type => x.returnType.erasure = type.erasure
  | isConstructor => x.isConstructor
  | isTypeInitializer => x.isTypeInitializer
  | isOrdinary => x.isOrdinary
  | isVirtual => x.isVirtual
  | isStatic => x.isStatic
  | isFinal => x.isFinal
  | isAbstract => x.isAbstract
  | isPublic => x.isPublic
  | isSynthetic => x.isSynthetic
  | isBridge => x.isBridge
  | declaredBy owner => x.owner = owner
  | visibleTo accessor => x.isVisibleTo accessor p
  | signature s => x.signature = s
  | token t => x.detach.key = t.key
  | all ms => allAccept p x ms
  | any ms => anyAccepts p x ms
  | not m => !m.accepts p x

/-- Whether every predicate of a list holds. -/
def allAccept (p : Pool) (x : Method) : List MethodMatcher → Bool
  | [] => true
  | m :: ms => m.accepts p x && allAccept p x ms

/-- Whether some predicate of a list holds. -/
def anyAccepts (p : Pool) (x : Method) : List MethodMatcher → Bool
  | [] => false
  | m :: ms => m.accepts p x || anyAccepts p x ms

end

theorem allAccept_eq_all (p : Pool) (x : Method) (ms : List MethodMatcher) :
    allAccept p x ms = ms.all (·.accepts p x) := by
  induction ms with
  | nil => rfl
  | cons m ms ih => simp [allAccept, ih]

theorem anyAccepts_eq_any (p : Pool) (x : Method) (ms : List MethodMatcher) :
    anyAccepts p x ms = ms.any (·.accepts p x) := by
  induction ms with
  | nil => rfl
  | cons m ms ih => simp [anyAccepts, ih]

@[simp] theorem accepts_all (p : Pool) (x : Method) (ms : List MethodMatcher) :
    (all ms).accepts p x = ms.all (·.accepts p x) := by
  rw [accepts, allAccept_eq_all]

@[simp] theorem accepts_any (p : Pool) (x : Method) (ms : List MethodMatcher) :
    (any ms).accepts p x = ms.any (·.accepts p x) := by
  rw [accepts, anyAccepts_eq_any]

@[simp] theorem accepts_not (p : Pool) (x : Method) (m : MethodMatcher) :
    (not m).accepts p x = !m.accepts p x := by
  rw [accepts]

@[simp] theorem accepts_and (p : Pool) (x : Method) (m n : MethodMatcher) :
    (m.and n).accepts p x = (m.accepts p x && n.accepts p x) := by
  cases m <;> simp [MethodMatcher.and]

@[simp] theorem accepts_or (p : Pool) (x : Method) (m n : MethodMatcher) :
    (m.or n).accepts p x = (m.accepts p x || n.accepts p x) := by
  cases m <;> simp [MethodMatcher.or]

end MethodMatcher

end ClassForge
