import ClassForge.Proofs.ClassMethods
import ClassForge.Proofs.FamilyMembers
import ClassForge.Proofs.Unbound

/-!
# Bridges that are there already

A public method of a package-private class need not be exposed a second time if a class on the way
declares a bridge for it. A bridge is no member of a family, so the walk has to find the family that
it belongs to, and there are two things that it compares. The bridge has to be of the family's
key, which is erased only after type variables have been resolved; and the family has to have its
erased type. What counts further is that the bridge stands behind every member that its class
declares, because a member takes the family over (`ClassLevel.ExposedBy`).

A bridge that was written for a method, and read back, carries the erased types of that method. The
family has these types, but its key is that of the bridge only where resolving type variables leaves
the method's parameter types as they were. So a bridge for a generic method is not recognised
in a class that binds the type variables, and another bridge is made below it
(`Registry.exposed_methods_are_bridged_again`).

## Main definitions

* `Pool.classWalk` — a type and its superclasses, with the families of each on the way
* `ClassLevel.ExposedBy`, `Exposed` — which bridges expose a family
* `Method.IsWrittenFor` — a bridge that has been written for a method

## Main results

* `Pool.exposure_families` — a family is visible exactly if a bridge exposes it
* `ClassLevel.exposedBy_iff_of_written` — which written bridges expose the family they are for
* `Registry.existing_bridges_are_respected` — when no further bridge is made
-/

namespace ClassForge

/-! ### Declarations one after the other -/

/-- The virtual methods that the type declares behind every member of the family, last first. -/
def TypeDecl.behindMembers (t : TypeDecl) (b : Bindings) (k : FamilyKey) : List Method :=
  (t.methods.filter (·.isVirtual)).reverse.takeWhile fun n => !k.admits b n

namespace Node

variable {k : FamilyKey} {b : Bindings}

/-- The bridge is of the family of the key, which has its erased type. -/
def ExposedBy (node : Node) (k : FamilyKey) (b : Bindings) (c : Method) : Prop :=
  c.isBridge = true ∧ (c.inShape b).familyKey = k ∧ c.type ∈ node.types

/-- Two nodes that differ in what bridges change. -/
structure SameTypes (node node' : Node) : Prop where
  representative : node'.representative = node.representative
  types : node'.types = node.types

theorem SameTypes.exposedBy_iff {node node' : Node} (h : node.SameTypes node') {c : Method} :
    node'.ExposedBy k b c ↔ node.ExposedBy k b c := by
  rw [ExposedBy, ExposedBy, h.types]

/-- A method that is no member exposes a family or leaves it alone. -/
theorem exists_declareAt_of_not_admits {c : Method} (hc : k.admits b c = false) (node : Node) :
    ∃ node', declareAt k (c.inShape b) c (some node) = some node' ∧ node.SameTypes node' ∧
      (node'.sort = .visible ↔ node.sort = .visible ∨ node.ExposedBy k b c) := by
  unfold declareAt
  by_cases hk : (c.inShape b).familyKey = k
  · have hbridge : c.isBridge = true := by
      by_contra hbridge
      have hadmits := FamilyKey.admits_iff.2 ⟨Bool.eq_false_iff.2 hbridge, hk⟩
      rw [hadmits] at hc
      cases hc
    rw [if_pos hk, if_pos hbridge]
    refine ⟨node.expose c, rfl, ?_⟩
    unfold expose
    split
    · rename_i htype
      exact ⟨⟨rfl, rfl⟩, iff_of_true rfl (.inr ⟨hbridge, hk, htype⟩)⟩
    · rename_i htype
      refine ⟨⟨rfl, rfl⟩, (or_iff_left ?_).symm⟩
      exact fun hexposed => htype hexposed.2.2
  · rw [if_neg hk]
    refine ⟨node, rfl, ⟨rfl, rfl⟩, (or_iff_left ?_).symm⟩
    exact fun hexposed => hk hexposed.2.1

/-- **Methods that are no members** make a family visible exactly if one of them exposes it, and
change nothing else that matters here. -/
theorem exists_declareAll_of_not_admits {ms : List Method} (hms : ∀ c ∈ ms, k.admits b c = false)
    (node : Node) :
    ∃ node', ms.foldl (fun node? m => declareAt k (m.inShape b) m node?) (some node) = some node' ∧
      node.SameTypes node' ∧
        (node'.sort = .visible ↔ node.sort = .visible ∨ ∃ c ∈ ms, node.ExposedBy k b c) := by
  induction ms generalizing node with
  | nil => exact ⟨node, rfl, ⟨rfl, rfl⟩, by simp⟩
  | cons c ms ih =>
    rw [List.forall_mem_cons] at hms
    obtain ⟨first, hfirst, hsame, hsort⟩ := exists_declareAt_of_not_admits hms.1 node
    obtain ⟨last, hlast, hsame', hsort'⟩ := ih hms.2 first
    refine ⟨last, by rw [List.foldl_cons, hfirst, hlast], ⟨?_, ?_⟩, ?_⟩
    · rw [hsame'.representative, hsame.representative]
    · rw [hsame'.types, hsame.types]
    · simp only [hsort', hsort, hsame.exposedBy_iff, List.exists_mem_cons_iff, or_assoc]

/-- A member takes the family over, with its own type among those of the family. -/
theorem exists_declareAt_of_admits {m : Method} (hm : k.admits b m = true) (node? : Option Node) :
    ∃ node, declareAt k (m.inShape b) m node? = some node ∧ m.type ∈ node.types ∧
      node.sort = .resolved := by
  obtain ⟨hbridge, hk⟩ := FamilyKey.admits_iff.1 hm
  rw [declareAt, if_pos hk, hbridge, if_neg Bool.false_ne_true]
  refine ⟨_, rfl, ?_⟩
  cases node? with
  | none => exact ⟨mem_addNew.2 (.inl (List.mem_singleton_self _)), rfl⟩
  | some node => exact ⟨mem_addNew.2 (.inr rfl), rfl⟩

end Node

/-- The last member, with the methods that stand behind all members. -/
theorem TypeDecl.exists_split_of_getLast? {t : TypeDecl} {b : Bindings} {k : FamilyKey} {m : Method}
    (h : (t.membersOf b k).getLast? = some m) :
    ∃ front back, t.methods.filter (·.isVirtual) = front ++ m :: back ∧ k.admits b m = true ∧
      (∀ c ∈ back, k.admits b c = false) ∧ t.behindMembers b k = back.reverse := by
  rw [membersOf, ← List.head?_reverse, ← List.filter_reverse, List.head?_filter,
    List.find?_eq_some_iff_append] at h
  obtain ⟨hm, back, front, hsplit, hback⟩ := h
  refine ⟨front.reverse, back.reverse, ?_, hm, ?_, ?_⟩
  · rw [← List.reverse_reverse (t.methods.filter _), hsplit]
    simp
  · intro c hc
    simpa using hback c (List.mem_reverse.1 hc)
  · rw [behindMembers, hsplit, List.takeWhile_append_of_pos hback, List.takeWhile_cons_of_neg,
      List.append_nil, List.reverse_reverse]
    simp [hm]

/-- Without members all virtual methods stand behind them. -/
theorem TypeDecl.behindMembers_of_nil {t : TypeDecl} {b : Bindings} {k : FamilyKey}
    (h : t.membersOf b k = []) :
    (∀ c ∈ t.methods.filter (·.isVirtual), k.admits b c = false) ∧
      t.behindMembers b k = (t.methods.filter (·.isVirtual)).reverse := by
  have hnone : ∀ c ∈ t.methods.filter (·.isVirtual), k.admits b c = false := fun c hc => by
    simpa using List.filter_eq_nil_iff.1 h c hc
  have hall : ∀ c ∈ (t.methods.filter (·.isVirtual)).reverse, (!k.admits b c) = true :=
    fun c hc => by simp [hnone c (List.mem_reverse.1 hc)]
  refine ⟨hnone, ?_⟩
  rw [behindMembers, ← List.append_nil (List.reverse _), List.takeWhile_append_of_pos hall]
  simp

/-! ### Classes on the way -/

/-- A type on the way from another to the root, with what its variables stand for and the families
that it has as seen from there. -/
structure ClassLevel where
  decl : TypeDecl
  bindings : Bindings
  families : MethodGraph

namespace ClassLevel

/-- The methods of a family that the type declares, bridges aside. -/
def membersOf (l : ClassLevel) (k : FamilyKey) : List Method := l.decl.membersOf l.bindings k

/-- The type declares the bridge behind every member of the family, and the family, as the type has
it, takes the bridge for one of its own. -/
def ExposedBy (l : ClassLevel) (k : FamilyKey) (c : Method) : Prop :=
  c ∈ l.decl.behindMembers l.bindings k ∧
    ∃ node, l.families.get? k = some node ∧ node.ExposedBy k l.bindings c

end ClassLevel

/-- A bridge exposes the family, at the first of the levels that declares a member or before. -/
def Exposed (levels : List ClassLevel) (k : FamilyKey) : Prop :=
  ∃ below l above, levels = below ++ l :: above ∧ (∀ x ∈ below, x.membersOf k = []) ∧
    ∃ c, l.ExposedBy k c

theorem exposed_cons_iff {l : ClassLevel} {levels : List ClassLevel} {k : FamilyKey} :
    Exposed (l :: levels) k ↔
      (∃ c, l.ExposedBy k c) ∨ (l.membersOf k = [] ∧ Exposed levels k) := by
  constructor
  · rintro ⟨below, x, above, hsplit, hbelow, hexposed⟩
    cases below with
    | nil =>
      obtain ⟨rfl, -⟩ := List.cons.inj hsplit
      exact .inl hexposed
    | cons y below =>
      obtain ⟨rfl, hrest⟩ := List.cons.inj hsplit
      rw [List.forall_mem_cons] at hbelow
      exact .inr ⟨hbelow.1, below, x, above, hrest, hbelow.2, hexposed⟩
  · rintro (hexposed | ⟨hnone, below, x, above, rfl, hbelow, hexposed⟩)
    · exact ⟨[], l, levels, rfl, List.forall_mem_nil _, hexposed⟩
    · exact ⟨l :: below, x, above, rfl, List.forall_mem_cons.2 ⟨hnone, hbelow⟩, hexposed⟩

namespace Pool

/-- The levels with the families that the walk finds at each of them. -/
def walkLevels (p : Pool) : Nat → List String → List (TypeDecl × Bindings) → List ClassLevel
  | n + 1, path, level :: levels =>
    ⟨level.1, level.2, p.families (n + 1) path level.2 level.1⟩ ::
      p.walkLevels n (level.1.name :: path) levels
  | _, _, _ => []

/-- A type and its superclasses, nearest first, with the families of each as seen from the type. -/
def classWalk (p : Pool) (t : TypeDecl) : List ClassLevel :=
  p.walkLevels p.depthBound [] (p.classLevels t)

variable {p : Pool} {t : TypeDecl} {b : Bindings} {path : List String} {k : FamilyKey} {m : Method}

/-- **A type with members** has the family with the last of them, and exposes it if a bridge behind
the members does. -/
theorem exposure_of_own {n : Nat} (ht : t.name ∉ path) (h : (t.membersOf b k).getLast? = some m) :
    ∃ node, (p.families (n + 1) path b t).get? k = some node ∧ m.type ∈ node.types ∧
      (node.sort = .visible ↔
        ∃ c, (ClassLevel.mk t b (p.families (n + 1) path b t)).ExposedBy k c) := by
  obtain ⟨front, back, hsplit, hm, hback, hbehind⟩ := t.exists_split_of_getLast? h
  obtain ⟨first, hfirst, htype, hresolved⟩ := Node.exists_declareAt_of_admits hm
    (front.foldl (fun node? m => Node.declareAt k (m.inShape b) m node?)
      (p.inheritedFamily n (t.name :: path) b t k))
  obtain ⟨node, hnode, hsame, hsort⟩ := Node.exists_declareAll_of_not_admits hback first
  have hget : (p.families (n + 1) path b t).get? k = some node := by
    rw [get?_families ht, hsplit, List.foldl_append, List.foldl_cons, hfirst, hnode]
  refine ⟨node, hget, hsame.types ▸ htype, ?_⟩
  rw [hsort, hresolved]
  simp [ClassLevel.ExposedBy, hget, hbehind, hsame.exposedBy_iff]

/-- **A type without members** has the inherited family, and exposes it if that is exposed or a
bridge of its own does. -/
theorem exposure_of_inherited {n : Nat} (ht : t.name ∉ path) (h : t.membersOf b k = [])
    {inherited : Node} (hinherited : p.inheritedFamily n (t.name :: path) b t k = some inherited) :
    ∃ node, (p.families (n + 1) path b t).get? k = some node ∧ node.types = inherited.types ∧
      (node.sort = .visible ↔
        (∃ c, (ClassLevel.mk t b (p.families (n + 1) path b t)).ExposedBy k c) ∨
          inherited.sort = .visible) := by
  obtain ⟨hnone, hbehind⟩ := t.behindMembers_of_nil h
  obtain ⟨node, hnode, hsame, hsort⟩ := Node.exists_declareAll_of_not_admits hnone inherited
  have hget : (p.families (n + 1) path b t).get? k = some node := by
    rw [get?_families ht, hinherited, hnode]
  refine ⟨node, hget, hsame.types, ?_⟩
  rw [hsort, or_comm]
  simp [ClassLevel.ExposedBy, hget, hbehind, hsame.exposedBy_iff]

/-- What the superclass has of the family is inherited, with further types that interfaces may
bring in. -/
theorem exists_inheritedFamily {n : Nat} {r : TypeRef} {u : TypeDecl} {node : Node}
    (hr : t.superclass = some r) (hu : p.resolve? r = some u)
    (hnode : (p.families n path (u.bindings (r.substitute b)) u).get? k = some node) :
    ∃ inherited, p.inheritedFamily n path b t k = some inherited ∧
      inherited.sort = node.sort ∧ ∀ type ∈ node.types, type ∈ inherited.types := by
  rw [inheritedFamily, hr, Option.bind_some, familiesAbove_of_resolve? hu, hnode]
  cases t.interfaces.foldl
      (fun node? r => node?.merge (Node.combine p) ((p.familiesAbove n path b r).get? k)) none with
  | none => exact ⟨node, rfl, rfl, fun _ => id⟩
  | some other =>
    exact ⟨node.absorb other, rfl, rfl, fun type htype => mem_foldl_addNew.2 (.inl htype)⟩

/-- The family is there and has the type of `m`, it is visible exactly if a bridge exposes it on
the levels, and it has the type of `m` wherever no level before declares a member. -/
structure Follows (node? : Option Node) (levels : List ClassLevel) (k : FamilyKey) (m : Method) :
    Prop where
  exists_node : ∃ node, node? = some node ∧ m.type ∈ node.types ∧
    (node.sort = .visible ↔ Exposed levels k)
  exists_before : ∀ below x above, levels = below ++ x :: above →
    (∀ y ∈ below, y.membersOf k = []) →
      ∃ node, x.families.get? k = some node ∧ m.type ∈ node.types

theorem follows_of_own {n : Nat} (ht : t.name ∉ path) (h : (t.membersOf b k).getLast? = some m)
    (levels : List ClassLevel) :
    Follows ((p.families (n + 1) path b t).get? k)
      (⟨t, b, p.families (n + 1) path b t⟩ :: levels) k m := by
  have hne : t.membersOf b k ≠ [] := fun hnil => by
    rw [hnil] at h
    cases h
  obtain ⟨node, hnode, htype, hsort⟩ := p.exposure_of_own ht h
  refine ⟨⟨node, hnode, htype, ?_⟩, fun below x above hsplit hbelow => ?_⟩
  · rw [hsort, exposed_cons_iff]
    exact (or_iff_left fun hinherited => hne hinherited.1).symm
  · cases below with
    | nil =>
      obtain ⟨rfl, -⟩ := List.cons.inj hsplit
      exact ⟨node, hnode, htype⟩
    | cons y below =>
      obtain ⟨rfl, -⟩ := List.cons.inj hsplit
      exact absurd (List.forall_mem_cons.1 hbelow).1 hne

theorem follows_of_inherited {n : Nat} {r : TypeRef} {u : TypeDecl} {levels : List ClassLevel}
    (ht : t.name ∉ path) (hnone : t.membersOf b k = []) (hr : t.superclass = some r)
    (hu : p.resolve? r = some u)
    (h : Follows ((p.families n (t.name :: path) (u.bindings (r.substitute b)) u).get? k) levels
      k m) :
    Follows ((p.families (n + 1) path b t).get? k)
      (⟨t, b, p.families (n + 1) path b t⟩ :: levels) k m := by
  obtain ⟨⟨above, habove, htypeAbove, hsortAbove⟩, hbefore⟩ := h
  obtain ⟨inherited, hinherited, hsame, hmore⟩ := p.exists_inheritedFamily hr hu habove
  obtain ⟨node, hnode, htypes, hsort⟩ := p.exposure_of_inherited ht hnone hinherited
  have htype : m.type ∈ node.types := htypes ▸ hmore _ htypeAbove
  refine ⟨⟨node, hnode, htype, ?_⟩, fun below x rest hsplit hbelow => ?_⟩
  · rw [hsort, hsame, hsortAbove, exposed_cons_iff]
    exact or_congr_right (and_iff_right hnone).symm
  · cases below with
    | nil =>
      obtain ⟨rfl, -⟩ := List.cons.inj hsplit
      exact ⟨node, hnode, htype⟩
    | cons y below =>
      exact hbefore below x rest (List.cons.inj hsplit).2 (List.forall_mem_cons.1 hbelow).2

/-- **A family is visible exactly if a bridge exposes it**, however far the chain of superclasses
is followed. -/
theorem follows_families {l n : Nat} (hn : l < n) (ht : t.name ∉ path)
    (h : nearestMethod? k (bindLevels b (t :: p.chainFrom l (t.name :: path) t)) = some m) :
    Follows ((p.families n path b t).get? k)
      (p.walkLevels n path (bindLevels b (t :: p.chainFrom l (t.name :: path) t))) k m := by
  induction l generalizing n path b t with
  | zero =>
    obtain ⟨n, rfl⟩ : ∃ n', n = n' + 1 := ⟨n - 1, by omega⟩
    refine follows_of_own ht ?_ _
    simpa [nearestMethod?, chainFrom, bindLevels] using h
  | succ l ih =>
    obtain ⟨n, rfl⟩ : ∃ n', n = n' + 1 := ⟨n - 1, by omega⟩
    obtain ⟨rest, hrest⟩ := exists_bindLevels_cons b t (p.chainFrom (l + 1) (t.name :: path) t)
    cases hown : (t.membersOf b k).getLast? with
    | some own =>
      rw [hrest, nearestMethod?, List.findSome?_cons, hown] at h
      rw [hrest, walkLevels]
      exact follows_of_own ht (hown.trans h) _
    | none =>
      obtain hend | ⟨r, u, hr, hu, hnew, hchain⟩ := p.chainFrom_succ_cases l (t.name :: path) t
      · rw [hend, bindLevels, nearestMethod?, List.findSome?_cons, hown] at h
        cases h
      · rw [hchain, bindLevels, nearestMethod?, List.findSome?_cons, hown, hr] at h
        rw [hchain, bindLevels, walkLevels, hr]
        exact follows_of_inherited ht (List.getLast?_eq_none_iff.1 hown) hr hu
          (ih (by omega) hnew h)

end Pool

/-! ### Bridges that were written -/

/-- The bridge is one that was written for the method `m` and read back: it has the name of `m`, and
its types are the erased ones of `m`. -/
structure Method.IsWrittenFor (c m : Method) : Prop where
  isVirtual : c.isVirtual = true
  isBridge : c.isBridge = true
  name : c.name = m.name
  returnType : c.returnType = m.returnType.erasure
  parameterTypes : c.parameterTypes = m.erasedParameterTypes

/-- Erased types have no variables. -/
theorem TypeRef.substitute_erasure (b : Bindings) :
    (t : TypeRef) → t.erasure.substitute b = t.erasure
  | void | primitive _ | named _ | parameterized _ _ | target => by simp [substitute]
  | typeVar _ bound => substitute_erasure b bound
  | array c => by simp [substitute, substitute_erasure b c]

namespace Method.IsWrittenFor

variable {c m : Method}

theorem type (h : c.IsWrittenFor m) : c.type = m.type := by
  rw [Method.type, Method.type, ← c.map_erasure_parameterTypes, h.parameterTypes, h.returnType]
  simp [Method.erasedParameterTypes]

/-- Wherever it is seen, the bridge is of the key that its method has where it is declared. -/
theorem familyKey_inShape (h : c.IsWrittenFor m) (b : Bindings) :
    (c.inShape b).familyKey = m.familyKey := by
  have hparameters : (c.inShape b).erasedParameterTypes =
      c.parameterTypes.map fun t => (t.substitute b).erasure := by
    simp [Method.erasedParameterTypes, Method.inShape, MethodToken.parameterTypes]
  have hname : (c.inShape b).name = m.name := h.name
  rw [Method.familyKey, Method.familyKey, hname, hparameters, h.parameterTypes]
  simp [Method.erasedParameterTypes, TypeRef.substitute_erasure]

end Method.IsWrittenFor

/-- **Which written bridges expose the family they are for**: those for methods whose erased
parameter types are the key of the family. -/
theorem ClassLevel.exposedBy_iff_of_written {l : ClassLevel} {k : FamilyKey} {c m : Method}
    {node : Node} (hnode : l.families.get? k = some node) (htype : m.type ∈ node.types)
    (hnone : l.membersOf k = []) (hc : c ∈ l.decl.methods) (hw : c.IsWrittenFor m) :
    l.ExposedBy k c ↔ m.familyKey = k := by
  obtain ⟨-, hbehind⟩ := l.decl.behindMembers_of_nil hnone
  constructor
  · rintro ⟨-, -, -, -, hk, -⟩
    rw [← hk, hw.familyKey_inShape]
  · rintro rfl
    refine ⟨?_, node, hnode, hw.isBridge, hw.familyKey_inShape _, hw.type ▸ htype⟩
    rw [hbehind, List.mem_reverse, List.mem_filter]
    exact ⟨hc, hw.isVirtual⟩

/-! ### Visibility bridges -/

namespace Registry

variable {r : Registry} {d : Draft} {validate : Bool} {p : Pool} {claimable : LatentMatcher}
  {q : PreparedRegistry} {k : FamilyKey} {node : Node}

/-- If no rule claims what has the identity of a representative, and no other family has one of that
identity, the registry makes a visibility bridge exactly if the family has to be exposed. -/
theorem Prepares.exists_bridge_iff {scope : GraphScope} {s : Progress}
    (h : r.Prepares d scope p claimable s q) (hnode : node ∈ q.graph.graph.values)
    (halone : ∀ other ∈ q.graph.graph.values,
      other.representative.identity = node.representative.identity → other = node)
    (hg : ¬d.Gains q.draft node.representative.identity)
    (hclaims : ∀ n ∈ q.candidates, n.identity = node.representative.identity →
      (r.scene p claimable q.draft.decl).claim? n = none) :
    (∃ e, q.entries.get? node.representative.identity = some e ∧ e.isBridge = true) ↔
      (r.scene p claimable q.draft.decl).needsBridge node = true := by
  have hi := h.isTypeInitializer (List.mem_append_left _ (List.mem_map_of_mem hnode))
  constructor
  · rintro ⟨e, he, -⟩
    obtain ⟨other, hother, hk, hneeds, -⟩ := h.exposed_of_no_claim hi hg hclaims he
    exact halone other hother hk ▸ hneeds
  · intro hneeds
    cases he : q.entries.get? node.representative.identity with
    | none =>
      obtain ⟨-, hnone, -⟩ := (h.get?_eq_none_iff hi).1 he
      rw [hnone node hnode rfl] at hneeds
      cases hneeds
    | some e =>
      obtain ⟨other, -, -, -, rfl⟩ := h.exposed_of_no_claim hi hg hclaims he
      exact ⟨_, rfl, rfl⟩

/-- **Existing bridges are respected, as far as they are recognised.** The family of a public type
is represented by a method of a package-private class that can be overridden, and no rule claims it.
Then the registry makes a visibility bridge for it exactly if no bridge on the way exposes the
family. A bridge that was written for the method, in a class below the one that declares it, exposes
the family exactly if the erased parameter types of the method are the key of the family. -/
theorem existing_bridges_are_respected
    (h : r.prepare d .hierarchy validate p claimable = .ok q)
    (hpublic : q.draft.decl.isPublic = true) (hinterface : q.draft.decl.isInterface = false)
    (hnode : q.graph.graph.get? k = some node)
    (hclass : p.classMethod? q.draft.decl k = some node.representative)
    (hvisible : node.representative.isPublic = true)
    (hconcrete : node.representative.isAbstract = false)
    (hopen : node.representative.isFinal = false)
    (hother : node.representative.owner ≠ q.draft.decl.name)
    (hpackage : (p.find? node.representative.owner).any (·.isPackagePrivate) = true)
    (halone : ∀ other ∈ q.graph.graph.values,
      other.representative.identity = node.representative.identity → other = node)
    (hrules : ∀ n ∈ q.candidates, n.identity = node.representative.identity →
      r.firstRule? p q.draft.decl n = none) :
    ((∃ e, q.entries.get? node.representative.identity = some e ∧ e.isBridge = true) ↔
      ¬Exposed (p.classWalk q.draft.decl) k) ∧
    ∀ below l above, p.classWalk q.draft.decl = below ++ l :: above →
      (∀ x ∈ below ++ [l], x.membersOf k = []) →
        ∀ c ∈ l.decl.methods, c.IsWrittenFor node.representative →
          (l.ExposedBy k c ↔ node.representative.familyKey = k) := by
  obtain ⟨s, hprepares, -⟩ := prepares_of_prepare h
  have hfollows : Pool.Follows (q.graph.graph.get? k) (p.classWalk q.draft.decl) k
      node.representative := by
    rw [hprepares.graph]
    exact Pool.follows_families (by simp only [Pool.depthBound]; omega) List.not_mem_nil hclass
  have hneeds : (r.scene p claimable q.draft.decl).needsBridge node = true ↔
      ¬Exposed (p.classWalk q.draft.decl) k := by
    obtain ⟨node', hnode', -, hsort⟩ := hfollows.exists_node
    obtain rfl := Option.some.inj (hnode.symm.trans hnode')
    rw [← hsort]
    simp [Scene.needsBridge, Registry.scene, hpublic, hinterface, hvisible, hconcrete, hopen,
      hother, hpackage]
  have hvalue : node ∈ q.graph.graph.values := (OrderedMap.mem_values_iff _).2 ⟨k, hnode⟩
  have hgained : ¬d.Gains q.draft node.representative.identity := by
    refine hprepares.grows.not_gains fun howner => absurd ?_ hother
    exact howner.trans hprepares.grows.toSameHeader.name.symm
  have hclaims : ∀ n ∈ q.candidates, n.identity = node.representative.identity →
      (r.scene p claimable q.draft.decl).claim? n = none := by
    intro n hn hk
    rw [Scene.claim?_scene_eq_none_iff, hrules n hn hk]
    simp
  refine ⟨?_, fun below l above hsplit hnone c hc hw => ?_⟩
  · rw [hprepares.exists_bridge_iff hvalue halone hgained hclaims, hneeds]
  · rw [List.forall_mem_append, List.forall_mem_singleton] at hnone
    obtain ⟨before, hbefore, htype⟩ := hfollows.exists_before below l above hsplit hnone.1
    exact ClassLevel.exposedBy_iff_of_written hbefore htype hnone.2 hc hw

/-- A class binds the type variable of a package-private class to its bound, and has a bridge for
the method that takes such a value. -/
theorem existing_bridges_are_respected_generic :
    let put : Method :=
      { owner := "a.Base", name := "put", modifiers := .of [.accPublic]
        parameters := [{ type := .typeVar "T" .object }] }
    let bridge : Method :=
      { owner := "a.Mid", name := "put", modifiers := .of [.accPublic, .accBridge, .accSynthetic]
        parameters := [{ type := .object }] }
    let base : TypeDecl :=
      { name := "a.Base", modifiers := .empty, superclass := none
        typeVariables := [{ symbol := "T" }], methods := [put] }
    let mid : TypeDecl :=
      { name := "a.Mid", modifiers := .of [.accPublic]
        superclass := some (.parameterized "a.Base" [.object]), methods := [bridge] }
    let p := Pool.empty.registerAll [base, mid]
    let d : Draft := .subclass "a.Sub" (.of [.accPublic]) (.named "a.Mid")
    let k : FamilyKey := ⟨"put", [.object]⟩
    let rules : Registry := {}
    ∃ q, rules.prepare d .hierarchy true p .always = .ok q ∧
      ((∃ e, q.entries.get? put.identity = some e ∧ e.isBridge = true) ↔
        ¬Exposed (p.classWalk q.draft.decl) k) ∧
      (∀ below l above, p.classWalk q.draft.decl = below ++ l :: above →
        (∀ x ∈ below ++ [l], x.membersOf k = []) →
          ∀ c ∈ l.decl.methods, c.IsWrittenFor put → (l.ExposedBy k c ↔ put.familyKey = k)) ∧
      q.entries.get? put.identity = none := by
  intro put bridge base mid p d k rules
  let node : Node :=
    { representative := put, declarations := [put], types := [⟨.void, [.object]⟩]
      visibility := .pub, sort := .visible }
  have facts : (rules.prepare d .hierarchy true p .always).toOption.any (fun q =>
      decide (q.graph.graph.get? k = some node ∧ q.graph.graph.values = [node] ∧
        q.draft.decl = d.decl ∧ q.entries.get? put.identity = none)) = true := by
    decide +kernel
  obtain ⟨q, h, hq⟩ := exists_ok_of_any facts
  obtain ⟨hnode, hvalues, hdecl, hnone⟩ := of_decide_eq_true hq
  have hpublic : q.draft.decl.isPublic = true := by
    rw [hdecl]
    decide
  have hinterface : q.draft.decl.isInterface = false := by
    rw [hdecl]
    decide
  have hclass : p.classMethod? q.draft.decl k = some node.representative := by
    rw [hdecl]
    decide +kernel
  have hother : node.representative.owner ≠ q.draft.decl.name := by
    rw [hdecl]
    decide
  have halone : ∀ other ∈ q.graph.graph.values,
      other.representative.identity = node.representative.identity → other = node := by
    rw [hvalues]
    exact List.forall_mem_singleton.2 fun _ => rfl
  obtain ⟨hbridge, hwritten⟩ := existing_bridges_are_respected h hpublic hinterface hnode hclass
    (by decide) (by decide) (by decide) hother (by decide +kernel) halone fun _ _ _ => rfl
  exact ⟨q, h, hbridge, hwritten, hnone⟩

/-- A class binds the type variable of a package-private class to texts, and has the bridge that was
written for the method that takes such a value. The public class below it makes another one. -/
theorem exposed_methods_are_bridged_again :
    let put : Method :=
      { owner := "a.Base", name := "put", modifiers := .of [.accPublic]
        parameters := [{ type := .typeVar "T" .object }] }
    let bridge : Method :=
      { owner := "a.Mid", name := "put", modifiers := .of [.accPublic, .accBridge, .accSynthetic]
        parameters := [{ type := .object }] }
    let base : TypeDecl :=
      { name := "a.Base", modifiers := .empty, superclass := none
        typeVariables := [{ symbol := "T" }], methods := [put] }
    let mid : TypeDecl :=
      { name := "a.Mid", modifiers := .of [.accPublic]
        superclass := some (.parameterized "a.Base" [.named "java.lang.String"])
        methods := [bridge] }
    let p := Pool.empty.registerAll [base, mid]
    let d : Draft := .subclass "a.Sub" (.of [.accPublic]) (.named "a.Mid")
    let rules : Registry := {}
    ∃ q, rules.prepare d .hierarchy true p .always = .ok q ∧
      (q.draft.decl.isPublic = true ∧ q.draft.decl.isInterface = false) ∧
      q.graph.graph.values.map (·.representative) = [put] ∧
      (put.isPublic = true ∧ put.isAbstract = false ∧ put.isFinal = false ∧
        p.superclassChain q.draft.decl = [mid, base] ∧ put ∈ base.methods ∧
          base.isPackagePrivate = true) ∧
      (bridge ∈ mid.methods ∧ bridge.isBridge = true ∧ bridge.signature = put.signature) ∧
      ∃ e, q.entries.get? put.identity = some e ∧ e.isBridge = true := by
  intro put bridge base mid p d rules
  have facts : (rules.prepare d .hierarchy true p .always).toOption.any (fun q =>
      decide ((q.draft.decl.isPublic = true ∧ q.draft.decl.isInterface = false) ∧
        q.graph.graph.values.map (·.representative) = [put] ∧
        (put.isPublic = true ∧ put.isAbstract = false ∧ put.isFinal = false ∧
          p.superclassChain q.draft.decl = [mid, base] ∧ put ∈ base.methods ∧
            base.isPackagePrivate = true) ∧
        (bridge ∈ mid.methods ∧ bridge.isBridge = true ∧ bridge.signature = put.signature) ∧
        (q.entries.get? put.identity).any (·.isBridge) = true)) = true := by
    decide +kernel
  obtain ⟨q, h, hq⟩ := exists_ok_of_any facts
  obtain ⟨htype, hfamily, hmethod, hwritten, hentry⟩ := of_decide_eq_true hq
  exact ⟨q, h, htype, hfamily, hmethod, hwritten, (Option.any_eq_true _ _).1 hentry⟩

end Registry

end ClassForge
