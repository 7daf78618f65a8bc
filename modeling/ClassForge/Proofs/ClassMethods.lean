import ClassForge.Proofs.Families

/-!
# Classes come first

What a class declares goes before whatever interfaces bring in: the interfaces of the class itself,
those of its superclasses, and conflicts among them. And the nearest class goes before those that
it inherits from.

Which declarations are of one family depends on what the type variables on the way stand for, so
the classes are listed as levels, each with its bindings. The walk binds variables reference by
reference and stops at a name on its path, and the chain of superclasses stops at a name that it
has met. The two agree level by level, whether or not the pool is cyclic or lacks a type.

## Main definitions

* `Pool.classLevels` — a type and its superclasses, with what their variables stand for
* `Pool.classMethod?` — the last method of a family that the nearest class declares

## Main results

* `GraphScope.class_methods_dominate` — that method represents its family
-/

namespace ClassForge

namespace Pool

/-- The types with what their variables stand for, where each is the superclass of the one before
it and the variables of the first stand for what the bindings say. -/
def bindLevels : Bindings → List TypeDecl → List (TypeDecl × Bindings)
  | _, [] => []
  | b, [t] => [(t, b)]
  | b, t :: u :: us =>
    (t, b) :: bindLevels (t.superclass.elim .empty fun r => u.bindings (r.substitute b)) (u :: us)

/-- A type and its superclasses, nearest first, with what their variables stand for as seen from
the type. -/
def classLevels (p : Pool) (t : TypeDecl) : List (TypeDecl × Bindings) :=
  bindLevels .empty (t :: p.superclassChain t)

/-- The last method of the family that the first of the levels declares, if one does. -/
def nearestMethod? (k : FamilyKey) (levels : List (TypeDecl × Bindings)) : Option Method :=
  levels.findSome? fun level => (level.1.membersOf level.2 k).getLast?

/-- The last method of the family that the nearest class declares, bridges aside. -/
def classMethod? (p : Pool) (t : TypeDecl) (k : FamilyKey) : Option Method :=
  nearestMethod? k (p.classLevels t)

@[simp] theorem map_fst_bindLevels (b : Bindings) (ts : List TypeDecl) :
    (bindLevels b ts).map Prod.fst = ts := by
  induction ts generalizing b with
  | nil => rfl
  | cons t ts ih =>
    cases ts with
    | nil => rfl
    | cons u us => rw [bindLevels, List.map_cons, ih]

theorem exists_bindLevels_cons (b : Bindings) (t : TypeDecl) (ts : List TypeDecl) :
    ∃ rest, bindLevels b (t :: ts) = (t, b) :: rest := by
  cases ts with
  | nil => exact ⟨[], rfl⟩
  | cons u us => exact ⟨_, rfl⟩

variable {p : Pool} {t : TypeDecl} {b : Bindings} {path : List String} {k : FamilyKey} {m : Method}

/-- A superclass reference leads to families in which the same declaration stands. -/
theorem stands_of_superclass {n : Nat} {r : TypeRef} {u : TypeDecl} (hr : t.superclass = some r)
    (hu : p.resolve? r = some u)
    (h : Node.Stands m ((p.families n path (u.bindings (r.substitute b)) u).get? k)) :
    Node.Stands m (p.inheritedFamily n path b t k) := by
  refine Node.Stands.absorb ?_ _
  rwa [hr, Option.bind_some, familiesAbove_of_resolve? hu]

/-- **The last declaration of the nearest level stands**, however far the chain is followed. -/
theorem stands_families {l n : Nat} (hn : l < n) (ht : t.name ∉ path)
    (h : nearestMethod? k (bindLevels b (t :: p.chainFrom l (t.name :: path) t)) = some m) :
    Node.Stands m ((p.families n path b t).get? k) := by
  induction l generalizing n path b t with
  | zero =>
    obtain ⟨n, rfl⟩ : ∃ n', n = n' + 1 := ⟨n - 1, by omega⟩
    refine stands_of_own ht ?_
    simpa [nearestMethod?, chainFrom, bindLevels] using h
  | succ l ih =>
    obtain ⟨n, rfl⟩ : ∃ n', n = n' + 1 := ⟨n - 1, by omega⟩
    obtain ⟨rest, hrest⟩ := exists_bindLevels_cons b t (p.chainFrom (l + 1) (t.name :: path) t)
    cases hown : (t.membersOf b k).getLast? with
    | some own =>
      rw [hrest, nearestMethod?, List.findSome?_cons, hown] at h
      exact stands_of_own ht (hown.trans h)
    | none =>
      refine stands_of_inherited ht (List.getLast?_eq_none_iff.1 hown) ?_
      obtain hend | ⟨r, u, hr, hu, hnew, hchain⟩ := p.chainFrom_succ_cases l (t.name :: path) t
      · rw [hend, bindLevels, nearestMethod?, List.findSome?_cons, hown] at h
        cases h
      · rw [hchain, bindLevels, nearestMethod?, List.findSome?_cons, hown, hr] at h
        exact stands_of_superclass hr hu (ih (by omega) hnew h)

end Pool

/-- **Classes come first.** The last method of a family that the nearest class declares represents
the family, and the family is not ambiguous. -/
theorem GraphScope.class_methods_dominate {p : Pool} {t : TypeDecl} {k : FamilyKey} {m : Method}
    (h : p.classMethod? t k = some m) :
    ∃ node, (hierarchy.compile p t).graph.get? k = some node ∧
      node.representative = m ∧ node.sort ≠ .ambiguous :=
  Pool.stands_families (by simp only [Pool.depthBound]; omega) List.not_mem_nil h

/-- A class that inherits `put` for texts from a generic class, and the same from three interfaces
that do not agree. -/
theorem GraphScope.class_methods_dominate_generic :
    let put (owner : String) (type : TypeRef) : Method :=
      { owner, name := "put", modifiers := .of [.accPublic], parameters := [{ type }] }
    let text : TypeRef := .named "java.lang.String"
    let interface (name : String) (supertypes : List TypeRef) (methods : List Method) : TypeDecl :=
      { name, modifiers := .of [.accPublic, .accInterface, .accAbstract], superclass := none
        interfaces := supertypes, methods }
    let sink := { interface "a.Sink" [] [put "a.Sink" (.typeVar "E" .object)] with
      typeVariables := [{ symbol := "E" }] }
    let log := interface "a.Log" [] [put "a.Log" text]
    let tee := interface "a.Tee" [.named "a.Log", .parameterized "a.Sink" [text]] []
    let base : TypeDecl :=
      { name := "a.Base", modifiers := .of [.accPublic], superclass := none
        interfaces := [.parameterized "a.Sink" [.typeVar "T" .object]]
        typeVariables := [{ symbol := "T" }], methods := [put "a.Base" (.typeVar "T" .object)] }
    let middle : TypeDecl :=
      { name := "a.Middle", modifiers := .of [.accPublic]
        superclass := some (.parameterized "a.Base" [text]), interfaces := [.named "a.Log"] }
    let p := Pool.empty.registerAll [sink, log, tee, base, middle]
    let t : TypeDecl :=
      { name := "a.Sub", modifiers := .of [.accPublic], superclass := some (.named "a.Middle")
        interfaces := [.named "a.Tee"] }
    ∃ node, (hierarchy.compile p t).graph.get? ⟨"put", [text]⟩ = some node ∧
      node.representative = put "a.Base" (.typeVar "T" .object) ∧ node.sort ≠ .ambiguous := by
  intro put text interface sink log tee base middle p t
  exact GraphScope.class_methods_dominate (by decide +kernel)

end ClassForge
