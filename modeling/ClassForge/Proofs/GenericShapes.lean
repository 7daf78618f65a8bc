import ClassForge.Proofs.FamilyMembers

/-!
# Generic shapes and the variables of a method

Where a method is seen through a parameterized reference, the type variables of its owner stand for
type arguments. A generic method has variables of its own besides, and one of them may have the
symbol of a variable of the owner, which it hides. The shape of a method is made by symbol alone:
what stands for the hidden variable takes the place of the method's own one.

So a method keeps its own variables exactly if each of them that is replaced is replaced by itself.
The erased types of the method are less demanding, for a variable shows in them only where it stands
alone or as the element of an array, and there it shows as its bound. The key of a family is made of
the erased parameter types; where the key of the shape differs from the one that the method should
have, the method ends up in a family that what overrides it is not in.

## Main definitions

* `Bindings.without` — bindings in which some variables are hidden
* `Bindings.Captures` — one of some variables is replaced
* `TypeRef.Exposes` — where a variable can be replaced in a type
* `Pool.Sees` — a supertype with what its variables stand for, as seen from a type

## Main results

* `TypeRef.substitute_eq_iff`, `TypeRef.erasure_substitute_eq_iff` — which replacements a type shows
* `GraphScope.declared_iff_sees` — where the declarations of a family are seen
* `own_variables_are_kept_iff` — which methods keep their own variables
* `own_variables_are_captured` — one that does not, and is torn out of its family
-/

namespace ClassForge

/-! ### Hidden variables -/

namespace Bindings

/-- The bindings where the variables with the given symbols are hidden by others. -/
def without (b : Bindings) (symbols : List String) : Bindings where
  entries := b.entries.filter (·.1 ∉ symbols)
  nodup := b.nodup.sublist (List.filter_sublist.map _)

variable {b : Bindings} {symbols : List String} {x : String}

theorem get?_without (b : Bindings) (symbols : List String) (x : String) :
    (b.without symbols).get? x = if x ∈ symbols then none else b.get? x := by
  have hentries (es : List (String × TypeRef)) :
      OrderedMap.get?.find? x (es.filter (·.1 ∉ symbols)) =
        if x ∈ symbols then none else OrderedMap.get?.find? x es := by
    induction es with
    | nil => simp [OrderedMap.get?.find?]
    | cons e es ih =>
      by_cases hmem : e.1 ∈ symbols <;> by_cases hx : e.1 = x <;> simp_all [OrderedMap.get?.find?]
  exact hentries b.entries

/-- One of the variables with the given symbols is replaced, by `r`. -/
def Captures (b : Bindings) (symbols : List String) (x : String) (r : TypeRef) : Prop :=
  x ∈ symbols ∧ b.get? x = some r

/-- Hiding variables makes no difference to a function of what stands for one exactly if what is
captured looks the same to it. -/
theorem getD_get?_without_iff {α : Type} (f : TypeRef → α) (v : TypeRef) :
    f ((b.get? x).getD v) = f (((b.without symbols).get? x).getD v) ↔
      ∀ r, b.Captures symbols x r → f r = f v := by
  rw [get?_without]
  by_cases hx : x ∈ symbols
  · cases hr : b.get? x <;> simp [Captures, hx, hr]
  · simp [Captures, hx]

end Bindings

/-! ### Replacements that show -/

namespace TypeRef

/-- A type variable with its bound stands in the type where it can be replaced: in its place, in a
type argument, or in the component of an array. Bounds are not looked into. -/
inductive Exposes (x : String) (bound : TypeRef) : TypeRef → Prop where
  | here : Exposes x bound (typeVar x bound)
  | argument {raw : String} {arguments : List TypeRef} {a : TypeRef} :
      a ∈ arguments → Exposes x bound a → Exposes x bound (parameterized raw arguments)
  | component {c : TypeRef} : Exposes x bound c → Exposes x bound (array c)

variable {b c : Bindings}

theorem forall_exposes_typeVar_iff {P : String → TypeRef → Prop} {y : String} {d : TypeRef} :
    (∀ x bound, Exposes x bound (typeVar y d) → P x bound) ↔ P y d :=
  ⟨fun h => h y d .here, fun h _ _ => fun | .here => h⟩

theorem forall_exposes_parameterized_iff {P : String → TypeRef → Prop} {raw : String}
    {arguments : List TypeRef} :
    (∀ x bound, Exposes x bound (parameterized raw arguments) → P x bound) ↔
      ∀ a ∈ arguments, ∀ x bound, Exposes x bound a → P x bound :=
  ⟨fun h _ ha x bound hx => h x bound (.argument ha hx),
    fun h x bound => fun | .argument ha hx => h _ ha x bound hx⟩

theorem forall_exposes_array_iff {P : String → TypeRef → Prop} {t : TypeRef} :
    (∀ x bound, Exposes x bound (array t) → P x bound) ↔ ∀ x bound, Exposes x bound t → P x bound :=
  ⟨fun h x bound hx => h x bound (.component hx),
    fun h x bound => fun | .component hx => h x bound hx⟩

mutual

/-- **Two replacements make the same of a type** exactly if they agree on the variables that it
exposes. -/
theorem substitute_eq_iff (b c : Bindings) : (t : TypeRef) →
    (t.substitute b = t.substitute c ↔ ∀ x bound, Exposes x bound t →
      (b.get? x).getD (typeVar x bound) = (c.get? x).getD (typeVar x bound))
  | void => ⟨fun _ _ _ => nofun, fun _ => rfl⟩
  | primitive _ => ⟨fun _ _ _ => nofun, fun _ => rfl⟩
  | named _ => ⟨fun _ _ _ => nofun, fun _ => rfl⟩
  | target => ⟨fun _ _ _ => nofun, fun _ => rfl⟩
  | typeVar y d => by rw [forall_exposes_typeVar_iff, substitute, substitute]
  | parameterized raw arguments => by
    rw [forall_exposes_parameterized_iff, ← substituteAll_eq_iff b c arguments]
    simp [substitute]
  | array t => by
    rw [forall_exposes_array_iff, ← substitute_eq_iff b c t]
    simp [substitute]

/-- `substitute_eq_iff` on every reference of a list. -/
theorem substituteAll_eq_iff (b c : Bindings) : (ts : List TypeRef) →
    (substituteAll b ts = substituteAll c ts ↔ ∀ t ∈ ts, ∀ x bound, Exposes x bound t →
      (b.get? x).getD (typeVar x bound) = (c.get? x).getD (typeVar x bound))
  | [] => by simp [substituteAll]
  | t :: ts => by
    rw [List.forall_mem_cons, ← substitute_eq_iff b c t, ← substituteAll_eq_iff b c ts]
    simp [substituteAll]

end

/-- What is inside of arrays. -/
def element : TypeRef → TypeRef
  | array c => c.element
  | t => t

/-- Two replacements make types of one erasure exactly if they agree, up to erasure, on the variable
that is the element of the type, if there is one. -/
theorem erasure_substitute_eq_iff (b c : Bindings) : (t : TypeRef) →
    ((t.substitute b).erasure = (t.substitute c).erasure ↔
      ∀ x bound, t.element = typeVar x bound →
        ((b.get? x).getD (typeVar x bound)).erasure = ((c.get? x).getD (typeVar x bound)).erasure)
  | void | primitive _ | named _ | target | parameterized _ _ => by simp [substitute, element]
  | typeVar y d => by simp [substitute, element]
  | array t => by simpa [substitute, element] using erasure_substitute_eq_iff b c t

/-- A type is the same with some variables hidden exactly if each of them that it exposes, if it is
replaced at all, is replaced by itself. -/
theorem substitute_eq_without_iff (b : Bindings) (symbols : List String) (t : TypeRef) :
    t.substitute b = t.substitute (b.without symbols) ↔
      ∀ x bound, Exposes x bound t → ∀ r, b.Captures symbols x r → r = typeVar x bound := by
  rw [substitute_eq_iff]
  exact forall₃_congr fun x bound _ => Bindings.getD_get?_without_iff id (typeVar x bound)

theorem erasure_substitute_eq_without_iff (b : Bindings) (symbols : List String) (t : TypeRef) :
    (t.substitute b).erasure = (t.substitute (b.without symbols)).erasure ↔
      ∀ x bound, t.element = typeVar x bound →
        ∀ r, b.Captures symbols x r → r.erasure = bound.erasure := by
  rw [erasure_substitute_eq_iff]
  exact forall₃_congr fun x bound _ => Bindings.getD_get?_without_iff erasure (typeVar x bound)

end TypeRef

/-! ### Shapes of methods -/

namespace Method

/-- The symbols of the method's own type variables. -/
def symbols (m : Method) : List String := m.typeVariables.map (·.symbol)

variable (m : Method) (b c : Bindings)

theorem inShape_eq_iff : m.inShape b = m.inShape c ↔
    ∀ t ∈ m.returnType :: m.parameterTypes, t.substitute b = t.substitute c := by
  simp [inShape, MethodToken.parameterTypes]

theorem type_inShape_eq_iff : (m.inShape b).type = (m.inShape c).type ↔
    ∀ t ∈ m.returnType :: m.parameterTypes,
      (t.substitute b).erasure = (t.substitute c).erasure := by
  simp [type, inShape, erasedParameterTypes, MethodToken.parameterTypes]

theorem familyKey_inShape_eq_iff : (m.inShape b).familyKey = (m.inShape c).familyKey ↔
    ∀ t ∈ m.parameterTypes, (t.substitute b).erasure = (t.substitute c).erasure := by
  simp [familyKey, inShape, erasedParameterTypes, MethodToken.parameterTypes]

end Method

/-! ### Where declarations are seen -/

namespace Pool

/-- From the type `t`, to which the types named in the path lead and whose variables are bound as
given, a type is seen whose variables stand for something: `t` itself, or what is seen from a
supertype of `t` without coming back to a name. -/
inductive Sees (p : Pool) : List String → TypeDecl → Bindings → TypeDecl → Bindings → Prop where
  | here {path : List String} {t : TypeDecl} {b : Bindings} : Sees p path t b t b
  | above {path : List String} {t u v : TypeDecl} {b d : Bindings} {r : TypeRef} :
      r ∈ t.supertypes → p.resolve? r = some v → v.name ∉ t.name :: path →
      Sees p (t.name :: path) v (v.bindings (r.substitute b)) u d → Sees p path t b u d

variable {p : Pool} {n : Nat} {path : List String} {b : Bindings} {t : TypeDecl}
  {k : FamilyKey} {i : MethodIdentity}

/-- **Where declarations are seen.** With enough steps, a family has exactly the declarations of the
types that are seen whose shape, as it is seen there, has the key of the family. -/
theorem declared_families_iff_sees (hn : p.unmet (t.name :: path) < n) (hpath : t.name ∉ path) :
    Declared ((p.families (n + 1) path b t).get? k) i ↔
      ∃ u d m, p.Sees path t b u d ∧ m ∈ u.methods.filter (·.isVirtual) ∧
        (m.isBridge = false ∧ (m.inShape d).familyKey = k) ∧ m.identity = i := by
  induction n generalizing path b t with
  | zero => omega
  | succ n ih =>
    rw [declared_families hpath]
    constructor
    · rintro (⟨r, hr, node, hnode, hi⟩ | ⟨m, hm, hk, hi⟩)
      · obtain ⟨v, hv, hnode⟩ := exists_of_get?_familiesAbove hnode
        -- A way back to a name of the path leads to no families, and so it is not one to see by.
        by_cases hname : v.name ∈ t.name :: path
        · rw [families_of_mem hname] at hnode
          cases hnode
        · have hless := unmet_cons_lt (knows_of_resolve? hv) hname
          obtain ⟨u, d, m, hsees, hm⟩ := (ih (by omega) hname).1 ⟨node, hnode, hi⟩
          exact ⟨u, d, m, .above hr hv hname hsees, hm⟩
      · exact ⟨t, b, m, .here, hm, hk, hi⟩
    · rintro ⟨u, d, m, hsees, hm⟩
      cases hsees with
      | here => exact .inr ⟨m, hm⟩
      | above hr hv hname hsees =>
        have hless := unmet_cons_lt (knows_of_resolve? hv) hname
        refine .inl ⟨_, hr, ?_⟩
        rw [familiesAbove_of_resolve? hv]
        exact (ih (by omega) hname).2 ⟨u, d, m, hsees, hm⟩

end Pool

/-- The declarations of the families of a type are those that are seen from it. -/
theorem GraphScope.declared_iff_sees (p : Pool) (t : TypeDecl) (k : FamilyKey)
    (i : MethodIdentity) :
    Declared ((hierarchy.compile p t).graph.get? k) i ↔
      ∃ u d m, p.Sees [] t .empty u d ∧ m ∈ u.methods.filter (·.isVirtual) ∧
        (m.isBridge = false ∧ (m.inShape d).familyKey = k) ∧ m.identity = i := by
  have hless := p.unmet_le [t.name]
  exact Pool.declared_families_iff_sees (by omega) List.not_mem_nil

/-! ### Own variables -/

/-- **Which methods keep their own variables.** The shape of a method is the one in which its own
variables hide those of its owner exactly if each of them that is exposed and replaced is replaced
by itself. The erased types are those of that shape exactly if what is replaced has the erasure of
the bound of the variable wherever it stands for the element of a return or parameter type; and of
the key of the family the same is true with the parameter types alone. That key decides: the
families of a type have exactly the declarations that are seen from it, each under the key of its
shape there. -/
theorem own_variables_are_kept_iff (m : Method) (b : Bindings) (p : Pool) (t : TypeDecl) :
    (m.inShape b = m.inShape (b.without m.symbols) ↔
      ∀ u ∈ m.returnType :: m.parameterTypes, ∀ x bound, TypeRef.Exposes x bound u →
        ∀ r, b.Captures m.symbols x r → r = .typeVar x bound) ∧
    ((m.inShape b).type = (m.inShape (b.without m.symbols)).type ↔
      ∀ u ∈ m.returnType :: m.parameterTypes, ∀ x bound, u.element = .typeVar x bound →
        ∀ r, b.Captures m.symbols x r → r.erasure = bound.erasure) ∧
    ((m.inShape b).familyKey = (m.inShape (b.without m.symbols)).familyKey ↔
      ∀ u ∈ m.parameterTypes, ∀ x bound, u.element = .typeVar x bound →
        ∀ r, b.Captures m.symbols x r → r.erasure = bound.erasure) ∧
    ∀ (k : FamilyKey) (i : MethodIdentity),
      (∃ node, (GraphScope.hierarchy.compile p t).graph.get? k = some node ∧
        ∃ d ∈ node.declarations, d.identity = i) ↔
      ∃ v d n, p.Sees [] t .empty v d ∧ n ∈ v.methods ∧ n.isVirtual = true ∧ n.isBridge = false ∧
        (n.inShape d).familyKey = k ∧ n.identity = i := by
  refine ⟨?_, ?_, ?_, fun k i => ?_⟩
  · rw [Method.inShape_eq_iff]
    simp only [TypeRef.substitute_eq_without_iff]
  · rw [Method.type_inShape_eq_iff]
    simp only [TypeRef.erasure_substitute_eq_without_iff]
  · rw [Method.familyKey_inShape_eq_iff]
    simp only [TypeRef.erasure_substitute_eq_without_iff]
  · have h := GraphScope.declared_iff_sees p t k i
    simpa only [Declared, Node.Declares, Option.mem_def, List.mem_filter, and_assoc] using h

/-- Of `<U> void put(U, T)` in `a.Box<T>` a subtype of `a.Box<String>` sees the own variable and a
`String`. -/
example :
    let box : TypeDecl :=
      { name := "a.Box", modifiers := .empty, typeVariables := [{ symbol := "T" }] }
    let b := box.bindings (.parameterized "a.Box" [.named "java.lang.String"])
    let put : Method :=
      { owner := "a.Box", name := "put", modifiers := .empty, typeVariables := [{ symbol := "U" }],
        parameters := [{ type := .typeVar "U" .object }, { type := .typeVar "T" .object }] }
    (put.inShape b).parameterTypes = [.typeVar "U" .object, .named "java.lang.String"] := by
  decide

/-- The class `a.Box<T>` declares the method `<T> void put(T)`, and so does `a.Sub`, which extends
`a.Box<String>`. The two have one signature, and the second overrides the first. But seen from
`a.Sub` the first takes a `String`, and the graph has a family for each of them. -/
theorem own_variables_are_captured :
    let text : TypeRef := .named BinaryName.string
    let put (owner : String) : Method :=
      { owner, name := "put", modifiers := .of [.accPublic], typeVariables := [{ symbol := "T" }],
        parameters := [{ type := .typeVar "T" .object }] }
    let box : TypeDecl :=
      { name := "a.Box", modifiers := .of [.accPublic], typeVariables := [{ symbol := "T" }],
        methods := [put "a.Box"] }
    let sub : TypeDecl :=
      { name := "a.Sub", modifiers := .of [.accPublic],
        superclass := some (.parameterized "a.Box" [text]), methods := [put "a.Sub"] }
    let b := box.bindings (.parameterized "a.Box" [text])
    let graph := (GraphScope.hierarchy.compile (Pool.empty.register box) sub).graph
    ((put "a.Box").symbols = ["T"] ∧ (put "a.Box").signature = (put "a.Sub").signature) ∧
      ((put "a.Box").inShape b).parameterTypes = [text] ∧
      ((put "a.Box").inShape b).type ≠ (put "a.Box").type ∧
      ((put "a.Box").inShape b).familyKey ≠ (put "a.Box").familyKey ∧
      (put "a.Box").inShape (b.without (put "a.Box").symbols) = put "a.Box" ∧
      graph.keys = [⟨"put", [text]⟩, ⟨"put", [.object]⟩] ∧
      graph.values.map (·.representative) = [put "a.Box", put "a.Sub"] := by
  decide +kernel

end ClassForge
