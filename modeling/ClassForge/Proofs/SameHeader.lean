import ClassForge.Matcher.Latent
import ClassForge.MethodGraph.Compile

/-!
# What looks at the header of a type only

Rules let a draft grow before any method is bound: it gains fields and helper methods. Predicates
are resolved against the grown declaration and the graph is compiled from it, so it has to be said
that growing changes neither. Whether a type or a member is visible to a type depends on the type's
name and supertypes; a latent predicate knows its type by the name, or asks what is visible to it;
and a graph looks at the virtual methods of its root and at none of its other members.

Two declarations that agree in all but their members have the same *header*, and everything here is
stated for such a pair.

## Main results

* `LatentMatcher.accepts_resolve` — predicates resolved against either declaration agree
* `GraphScope.compile_sameHeader` — so do the graphs, if the virtual methods are the same
-/

namespace ClassForge

namespace TypeDecl

/-- The declarations agree in everything but their members. -/
structure SameHeader (t u : TypeDecl) : Prop where
  name : u.name = t.name
  modifiers : u.modifiers = t.modifiers
  superclass : u.superclass = t.superclass
  interfaces : u.interfaces = t.interfaces
  typeVariables : u.typeVariables = t.typeVariables

namespace SameHeader

variable {t u v : TypeDecl}

theorem refl (t : TypeDecl) : SameHeader t t := ⟨rfl, rfl, rfl, rfl, rfl⟩

theorem symm (h : SameHeader t u) : SameHeader u t :=
  ⟨h.name.symm, h.modifiers.symm, h.superclass.symm, h.interfaces.symm, h.typeVariables.symm⟩

theorem trans (h : SameHeader t u) (h' : SameHeader u v) : SameHeader t v :=
  ⟨h'.name.trans h.name, h'.modifiers.trans h.modifiers, h'.superclass.trans h.superclass,
    h'.interfaces.trans h.interfaces, h'.typeVariables.trans h.typeVariables⟩

theorem superName? (h : SameHeader t u) : u.superName? = t.superName? := by
  simp only [TypeDecl.superName?, h.superclass]

theorem package (h : SameHeader t u) : u.package = t.package := by
  simp only [TypeDecl.package, h.name]

theorem isInterface (h : SameHeader t u) : u.isInterface = t.isInterface := by
  simp only [TypeDecl.isInterface, h.modifiers]

theorem isPublic (h : SameHeader t u) : u.isPublic = t.isPublic := by
  simp only [TypeDecl.isPublic, h.modifiers]

end SameHeader

end TypeDecl

variable {t u : TypeDecl}

/-! ### Visibility -/

namespace Pool

theorem superclassChain_sameHeader (p : Pool) (h : t.SameHeader u) :
    p.superclassChain u = p.superclassChain t := by
  unfold superclassChain
  rw [h.name]
  cases p.size with
  | zero => rfl
  | succ n => simp only [chainFrom, h.superName?]

/-- Beyond the root, the hierarchies are the same. -/
theorem hierarchy_sameHeader (p : Pool) (h : t.SameHeader u) :
    ∃ rest, p.hierarchy t = t :: rest ∧ p.hierarchy u = u :: rest :=
  ⟨_, rfl, by simp [hierarchy, superclassChain_sameHeader p h, h.name, h.interfaces]⟩

theorem isSubtype_sameHeader (p : Pool) (h : t.SameHeader u) (name : String) :
    p.isSubtype u name = p.isSubtype t name := by
  obtain ⟨rest, ht, hu⟩ := hierarchy_sameHeader p h
  simp only [isSubtype, ht, hu, List.any_cons, h.name, h.superName?]

theorem isTypeVisible_sameHeader (p : Pool) (h : t.SameHeader u) :
    (x : TypeRef) → p.isTypeVisible u x = p.isTypeVisible t x
  | .array c => by simpa only [isTypeVisible] using isTypeVisible_sameHeader p h c
  | .typeVar _ b => by simpa only [isTypeVisible] using isTypeVisible_sameHeader p h b
  | .named _ | .parameterized _ _ => by
    simp only [isTypeVisible, isTypeVisible.named, h.name, h.package]
  | .void | .primitive _ | .target => by simp only [isTypeVisible]

theorem isMemberVisible_sameHeader (p : Pool) (h : t.SameHeader u) (owner : String)
    (m : Modifiers) : p.isMemberVisible owner m u = p.isMemberVisible owner m t := by
  simp only [isMemberVisible, h.name, h.package, isSubtype_sameHeader p h]

end Pool

/-! ### Predicates -/

namespace LatentMatcher

mutual

/-- **A latent predicate cannot tell declarations with one header apart.** -/
theorem accepts_resolve (h : t.SameHeader u) (p : Pool) (x : Method) :
    (m : LatentMatcher) → (m.resolve u).accepts p x = (m.resolve t).accepts p x
  | resolved _ => rfl
  | selfDeclared true | selfDeclared false => by
    simp [resolve, MethodMatcher.accepts, h.name]
  | declaredAs _ => by simp [resolve, MethodMatcher.accepts, h.name]
  | instrumentable ignored => by
    have visible : x.isVisibleTo u p = x.isVisibleTo t p :=
      Pool.isMemberVisible_sameHeader p h ..
    simp [resolve, MethodMatcher.accepts, MethodMatcher.allAccept, h.name, visible,
      accepts_resolve h p x ignored]
  | all ms => by
    simpa only [resolve, MethodMatcher.accepts] using (accepts_resolveAll h p x ms).1
  | any ms => by
    simpa only [resolve, MethodMatcher.accepts] using (accepts_resolveAll h p x ms).2
  | not m => by simp [resolve, accepts_resolve h p x m]

/-- `accepts_resolve` for all and for any predicate of a list. -/
theorem accepts_resolveAll (h : t.SameHeader u) (p : Pool) (x : Method) :
    (ms : List LatentMatcher) →
      MethodMatcher.allAccept p x (resolveAll u ms)
          = MethodMatcher.allAccept p x (resolveAll t ms) ∧
        MethodMatcher.anyAccepts p x (resolveAll u ms)
          = MethodMatcher.anyAccepts p x (resolveAll t ms)
  | [] => ⟨rfl, rfl⟩
  | m :: ms => by
    obtain ⟨hall, hany⟩ := accepts_resolveAll h p x ms
    simp [resolveAll, MethodMatcher.allAccept, MethodMatcher.anyAccepts,
      accepts_resolve h p x m, hall, hany]

end

end LatentMatcher

/-! ### Graphs -/

theorem Pool.families_sameHeader (p : Pool) (h : t.SameHeader u)
    (hv : u.methods.filter (·.isVirtual) = t.methods.filter (·.isVirtual)) (n : Nat)
    (path : List String) (bindings : Bindings) :
    p.families n path bindings u = p.families n path bindings t := by
  cases n with
  | zero => rfl
  | succ n => simp only [families, h.name, h.superclass, h.interfaces, hv]

/-- **The graph of a type is that of its header and its virtual methods.** -/
theorem GraphScope.compile_sameHeader (s : GraphScope) (p : Pool) (h : t.SameHeader u)
    (hv : u.methods.filter (·.isVirtual) = t.methods.filter (·.isVirtual)) :
    s.compile p u = s.compile p t := by
  cases s with
  | hierarchy =>
    simp only [compile, superFamilies, p.families_sameHeader h hv, h.superclass, h.name]
  | declaredOnly =>
    have split : ∀ ms : List Method, (ms.filter fun m => m.isVirtual && !m.isBridge)
        = (ms.filter (·.isVirtual)).filter (!·.isBridge) := by
      intro ms
      rw [List.filter_filter]
      exact congrArg (List.filter · ms) (funext fun m => Bool.and_comm ..)
    simp only [compile, declaredFamilies, split, hv]

end ClassForge
