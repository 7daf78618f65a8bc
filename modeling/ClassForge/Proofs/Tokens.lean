import ClassForge.Matcher.Latent

/-!
# When a token finds the method it declares

A method that is defined on a type is declared by attaching its token to the type. Its rule finds
it again by going the other way: the declared method is detached from the type, and what comes out
is compared with the token as the two are written. So a rule finds its method exactly if detaching
undoes attaching on the types of the token.

Attaching writes the name of the type for the placeholder, and detaching writes the placeholder
for the name of the type, at every depth. What can go wrong is therefore one thing only: the token
may have named the type itself, and that mention comes back as the placeholder. A token that leaves
the type to the placeholder, however deep it stands, is always found.

## Main definitions

* `TypeRef.Occurs` — a reference stands inside another
* `MethodToken.Names` — the types of a token name a type plainly

## Main results

* `TypeRef.detach_attach_iff` — where detaching undoes attaching
* `declaredAs_accepts_iff` — which tokens find their methods
-/

namespace ClassForge

namespace TypeRef

/-- The reference stands inside another one: in its place, as a type argument or in one, in the
bound of a variable, or in the component of an array. -/
inductive Occurs (x : TypeRef) : TypeRef → Prop where
  | here : Occurs x x
  | argument {raw : String} {arguments : List TypeRef} {a : TypeRef} :
      a ∈ arguments → Occurs x a → Occurs x (parameterized raw arguments)
  | bound {symbol : String} {b : TypeRef} : Occurs x b → Occurs x (typeVar symbol b)
  | component {c : TypeRef} : Occurs x c → Occurs x (array c)

variable {x : TypeRef}

@[simp] theorem occurs_void_iff : Occurs x void ↔ x = void := by
  constructor
  · rintro ⟨⟩
    rfl
  · rintro rfl
    exact .here

@[simp] theorem occurs_primitive_iff {p : Primitive} :
    Occurs x (primitive p) ↔ x = primitive p := by
  constructor
  · rintro ⟨⟩
    rfl
  · rintro rfl
    exact .here

@[simp] theorem occurs_named_iff {n : String} : Occurs x (named n) ↔ x = named n := by
  constructor
  · rintro ⟨⟩
    rfl
  · rintro rfl
    exact .here

@[simp] theorem occurs_target_iff : Occurs x target ↔ x = target := by
  constructor
  · rintro ⟨⟩
    rfl
  · rintro rfl
    exact .here

@[simp] theorem occurs_parameterized_iff {raw : String} {arguments : List TypeRef} :
    Occurs x (parameterized raw arguments) ↔
      x = parameterized raw arguments ∨ ∃ a ∈ arguments, Occurs x a := by
  constructor
  · rintro (_ | ⟨ha, h⟩)
    · exact .inl rfl
    · exact .inr ⟨_, ha, h⟩
  · rintro (rfl | ⟨a, ha, h⟩)
    · exact .here
    · exact .argument ha h

@[simp] theorem occurs_typeVar_iff {symbol : String} {b : TypeRef} :
    Occurs x (typeVar symbol b) ↔ x = typeVar symbol b ∨ Occurs x b := by
  constructor
  · rintro (_ | _ | h)
    · exact .inl rfl
    · exact .inr h
  · rintro (rfl | h)
    · exact .here
    · exact .bound h

@[simp] theorem occurs_array_iff {c : TypeRef} :
    Occurs x (array c) ↔ x = array c ∨ Occurs x c := by
  constructor
  · rintro (_ | _ | _ | h)
    · exact .inl rfl
    · exact .inr h
  · rintro (rfl | h)
    · exact .here
    · exact .component h

mutual

/-- **Detaching undoes attaching exactly where the owner is not named.** The placeholder comes back
from wherever it stood; a plain reference to the owner comes back as the placeholder. -/
theorem detach_attach_iff (owner : String) :
    (t : TypeRef) → ((t.attach owner).detach owner = t ↔ ¬ Occurs (named owner) t)
  | void => by simp [attach, detach]
  | primitive _ => by simp [attach, detach]
  | named name => by
    by_cases h : name = owner
    · simp [attach, detach, h]
    · simp [attach, detach, h, Ne.symm h]
  | parameterized raw arguments => by
    simpa [attach, detach] using detachAll_attachAll_iff owner arguments
  | typeVar symbol b => by simpa [attach, detach] using detach_attach_iff owner b
  | array c => by simpa [attach, detach] using detach_attach_iff owner c
  | target => by simp [attach, detach]

/-- `detach_attach_iff` on every reference of a list. -/
theorem detachAll_attachAll_iff (owner : String) :
    (ts : List TypeRef) →
      (detachAll owner (attachAll owner ts) = ts ↔ ∀ t ∈ ts, ¬ Occurs (named owner) t)
  | [] => by simp [attachAll, detachAll]
  | t :: ts => by
    simp only [attachAll, detachAll, List.cons.injEq, List.forall_mem_cons]
    rw [detach_attach_iff owner t, detachAll_attachAll_iff owner ts]

end

end TypeRef

/-! ### Tokens -/

namespace MethodToken

/-- The return type or a parameter type of the token names a type plainly, at whatever depth. -/
def Names (t : MethodToken) (owner : String) : Prop :=
  ∃ u ∈ t.returnType :: t.parameterTypes, TypeRef.Occurs (.named owner) u

/-- The types that a token has once it was attached and detached again. -/
theorem key_detach_attach (t : MethodToken) (owner : String) :
    (t.attach owner).detach.key =
      ⟨⟨(t.returnType.attach owner).detach owner,
        TypeRef.detachAll owner (TypeRef.attachAll owner t.parameterTypes)⟩, t.name⟩ := by
  simp [key, attach, Method.detach, mapTypes, parameterTypes, TypeRef.detachAll_eq_map,
    TypeRef.attachAll_eq_map, Function.comp_def]

theorem key_detach_attach_iff (t : MethodToken) (owner : String) :
    (t.attach owner).detach.key = t.key ↔ ¬ t.Names owner := by
  rw [key_detach_attach]
  simp only [key, Signature.mk.injEq, MethodType.mk.injEq, and_true]
  rw [TypeRef.detach_attach_iff, TypeRef.detachAll_attachAll_iff]
  simp [Names]

end MethodToken

/-- **A token finds the method it declares exactly if it does not name the type.** Where it does,
the declared method is the one that the token describes, and yet the rule of the token passes it
by. -/
theorem declaredAs_accepts_iff (t : TypeDecl) (p : Pool) (token : MethodToken) :
    ((LatentMatcher.declaredAs token).resolve t).accepts p (token.attach t.name) = true ↔
      ¬ token.Names t.name := by
  rw [← MethodToken.key_detach_attach_iff]
  simp [LatentMatcher.resolve, MethodMatcher.accepts, MethodToken.attach]

/-- A method of the class `a.Node` that returns an `a.Node` is not found by its token, although the
one whose token leaves the class to the placeholder is. -/
theorem declaredAs_misses_named_owner :
    let node : TypeDecl := { name := "a.Node", modifiers := .of [.accPublic] }
    let named : MethodToken :=
      { name := "next", modifiers := .of [.accPublic], returnType := .named "a.Node" }
    let detached : MethodToken := { named with returnType := .target }
    named.attach node.name = detached.attach node.name ∧
      ((LatentMatcher.declaredAs named).resolve node).accepts .empty (named.attach node.name)
        = false ∧
      ((LatentMatcher.declaredAs detached).resolve node).accepts .empty (named.attach node.name)
        = true := by
  decide

end ClassForge
