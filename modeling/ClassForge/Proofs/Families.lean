import ClassForge.Proofs.FamilySteps

/-!
# Who represents a family

A graph is put together from many small steps: declarations, siblings, supertypes, bridges. Two
things about its representatives survive all of them.

* A representative is never made up. Each step keeps the one that is there or takes another
  declaration, so a property that all virtual methods have, all representatives have.
* The type itself has the last word. Its own declarations come after everything inherited, so of
  the methods with one family key that it declares, bridges aside, the last one represents the
  family, and nothing that is inherited makes the family ambiguous (`Node.Stands`).

The second point is also where declared methods get lost: the return type is no part of the family
key, so two overloads that differ there only are one family, and the earlier one represents
nothing.

## Main results

* `Pool.Invariant.exists_of_mem_values` — invariants hold of graphs, whatever they cover
* `GraphScope.isVirtual_of_mem_values` — representatives are virtual methods
* `Node.stands_declareAll` — the last declaration of a type stands
* `GraphScope.exists_mem_values` — the last declaration of a family represents it
-/

namespace ClassForge

/-! ### Representatives are virtual -/

/-- A method whose name is that of type initializers is not virtual. -/
theorem Method.isVirtual_of_isTypeInitializer {m : Method} (h : m.isTypeInitializer = true) :
    m.isVirtual = false := by
  simp [isVirtual, isOrdinary, h]

namespace Node

@[simp] theorem representative_expose (node : Node) (bridge : Method) :
    (node.expose bridge).representative = node.representative := by
  unfold expose
  split <;> rfl

/-- Of two siblings one represents both. -/
theorem representative_combine (p : Pool) (node other : Node) :
    (node.combine p other).representative = node.representative ∨
      (node.combine p other).representative = other.representative := by
  unfold combine
  dsimp only
  split
  · exact .inl rfl
  · split
    · exact .inr rfl
    · exact .inl rfl
    · split <;> exact .inl rfl

end Node

/-- Each step of the walk keeps a virtual representative or takes another one. -/
theorem Pool.invariant_isVirtual (p : Pool) :
    p.Invariant (fun _ _ node => node.representative.isVirtual = true)
      (fun _ _ node => node.representative.isVirtual = true) where
  sibling := fun _ _ h => h
  combine := by
    intro _ _ node other h h'
    rcases Node.representative_combine p node other with e | e
    · exact e ▸ h
    · exact e ▸ h'
  superclass := fun _ _ h => h
  interfaces := id
  absorb := fun _ h _ => h
  ofDeclaration := fun _ _ h _ => h
  override := fun _ _ h _ _ => h
  expose := fun h => by rwa [Node.representative_expose]

namespace TypeRef

mutual

/-- Without bindings nothing is replaced. -/
@[simp] theorem substitute_empty : (t : TypeRef) → t.substitute .empty = t
  | typeVar _ _ => by simp [substitute]
  | parameterized _ arguments => by simp [substitute, substituteAll_empty arguments]
  | array c => by simp [substitute, substitute_empty c]
  | void | primitive _ | named _ | target => by simp [substitute]

/-- `substitute_empty` on every reference of a list. -/
@[simp] theorem substituteAll_empty : (ts : List TypeRef) → substituteAll .empty ts = ts
  | [] => rfl
  | t :: ts => by simp [substituteAll, substitute_empty t, substituteAll_empty ts]

end

end TypeRef

@[simp] theorem Method.inShape_empty (m : Method) : m.inShape .empty = m := by
  simp [Method.inShape]

/-- **Invariants hold of graphs**, whatever they cover. -/
theorem Pool.Invariant.exists_of_mem_values {p : Pool} {Q F : TypeDecl → FamilyKey → Node → Prop}
    (h : p.Invariant Q F) (s : GraphScope) {t : TypeDecl} {node : Node}
    (hnode : node ∈ (s.compile p t).graph.values) : ∃ k, Q t k node := by
  obtain ⟨k, hk⟩ := (OrderedMap.mem_values_iff _).1 hnode
  refine ⟨k, ?_⟩
  cases s with
  | hierarchy => exact h.families _ _ _ t k node hk
  | declaredOnly =>
    have hown : ∀ m ∈ t.methods.filter fun m => m.isVirtual && !m.isBridge,
        m ∈ t.methods ∧ m.isVirtual = true := by
      intro m hm
      rw [List.mem_filter, Bool.and_eq_true] at hm
      exact ⟨hm.1, hm.2.1⟩
    have hall := h.declareAll .empty k hown none nofun
    simp only [Method.inShape_empty] at hall
    refine hall node ?_
    simpa [GraphScope.compile, GraphScope.declaredFamilies, MethodGraph.get?_declareAll] using hk

/-- **Representatives are virtual.** -/
theorem GraphScope.isVirtual_of_mem_values (s : GraphScope) (p : Pool) (t : TypeDecl) {node : Node}
    (h : node ∈ (s.compile p t).graph.values) : node.representative.isVirtual = true := by
  obtain ⟨-, hv⟩ := p.invariant_isVirtual.exists_of_mem_values s h
  exact hv

/-! ### The last declaration stands -/

/-- Whether the method is no bridge and of the family of the key, where the variables of its owner
stand for what the bindings say. -/
def FamilyKey.admits (k : FamilyKey) (b : Bindings) (m : Method) : Bool :=
  !m.isBridge && (m.inShape b).familyKey = k

theorem FamilyKey.admits_iff {k : FamilyKey} {b : Bindings} {m : Method} :
    k.admits b m = true ↔ m.isBridge = false ∧ (m.inShape b).familyKey = k := by
  simp [admits]

namespace Node

/-- The family is there, the method represents it, and it is not ambiguous. -/
def Stands (m : Method) (node? : Option Node) : Prop :=
  ∃ node ∈ node?, node.representative = m ∧ node.sort ≠ .ambiguous

variable {k : FamilyKey} {m n shape : Method} {node? : Option Node}

/-- A declaration that is no bridge stands. -/
theorem stands_declareAt_self (hm : m.isBridge = false) (hk : shape.familyKey = k) :
    Stands m (declareAt k shape m node?) := by
  rw [declareAt, if_pos hk, hm, if_neg Bool.false_ne_true]
  refine ⟨_, rfl, ?_⟩
  cases node? <;> exact ⟨rfl, NodeSort.noConfusion⟩

/-- Bridges and declarations of other families leave it in its place. -/
theorem Stands.declareAt (h : Stands m node?) (hn : n.isBridge = false → shape.familyKey ≠ k) :
    Stands m (declareAt k shape n node?) := by
  obtain ⟨node, hnode, hm, hsort⟩ := h
  unfold Node.declareAt
  split
  · rename_i hk
    have hb : n.isBridge = true := by
      by_contra hb
      exact hn (Bool.eq_false_iff.2 hb) hk
    rw [if_pos hb]
    refine ⟨node.expose n, Option.map_eq_some_iff.2 ⟨node, hnode, rfl⟩, ?_⟩
    unfold expose
    split
    · exact ⟨hm, nofun⟩
    · exact ⟨hm, hsort⟩
  · exact ⟨node, hnode, hm, hsort⟩

/-- What a superclass brings in stands, whatever interfaces bring in beside it. -/
theorem Stands.absorb (h : Stands m node?) (other : Option Node) :
    Stands m (node?.merge Node.absorb other) := by
  obtain ⟨node, rfl, hm, hsort⟩ := h
  cases other with
  | none => exact ⟨node, rfl, hm, hsort⟩
  | some other => exact ⟨node.absorb other, rfl, hm, hsort⟩

/-- **The last declaration stands.** Of methods that are declared one after the other, the last
member of the family stands, or else what stood before. -/
theorem stands_declareAll (m₀ : Method) (b : Bindings) (ms : List Method) (node? : Option Node)
    (h₀ : ms.filter (k.admits b) = [] → Stands m₀ node?) :
    Stands ((ms.filter (k.admits b)).getLast?.getD m₀)
      (ms.foldl (fun node? m => Node.declareAt k (m.inShape b) m node?) node?) := by
  induction ms generalizing m₀ node? with
  | nil => exact h₀ rfl
  | cons m ms ih =>
    rw [List.foldl_cons]
    by_cases hm : k.admits b m = true
    · rw [List.filter_cons_of_pos hm, List.getLast?_cons]
      have hm' := FamilyKey.admits_iff.1 hm
      exact ih _ _ fun _ => stands_declareAt_self hm'.1 hm'.2
    · rw [List.filter_cons_of_neg hm] at h₀ ⊢
      exact ih _ _ fun hnone => (h₀ hnone).declareAt fun hb hk =>
        hm (FamilyKey.admits_iff.2 ⟨hb, hk⟩)

end Node

/-- The methods of a family that the type declares, bridges aside. -/
def TypeDecl.membersOf (t : TypeDecl) (b : Bindings) (k : FamilyKey) : List Method :=
  (t.methods.filter (·.isVirtual)).filter (k.admits b)

namespace Pool

variable {p : Pool} {n : Nat} {path : List String} {b : Bindings} {t : TypeDecl} {k : FamilyKey}
  {m : Method}

/-- The last member of a family that the type declares stands. -/
theorem stands_of_own (ht : t.name ∉ path) (h : (t.membersOf b k).getLast? = some m) :
    Node.Stands m ((p.families (n + 1) path b t).get? k) := by
  have hnone : t.membersOf b k ≠ [] := fun e => by rw [e] at h; cases h
  have hstands := Node.stands_declareAll m b (t.methods.filter (·.isVirtual))
    (p.inheritedFamily n (t.name :: path) b t k) fun e => absurd e hnone
  rw [TypeDecl.membersOf] at h
  rwa [h, ← get?_families ht] at hstands

/-- What stands among the inherited declarations still stands if the type declares none. -/
theorem stands_of_inherited (ht : t.name ∉ path) (h : t.membersOf b k = [])
    (hm : Node.Stands m (p.inheritedFamily n (t.name :: path) b t k)) :
    Node.Stands m ((p.families (n + 1) path b t).get? k) := by
  have hstands := Node.stands_declareAll (k := k) m b (t.methods.filter (·.isVirtual)) _
    fun _ => hm
  rw [TypeDecl.membersOf] at h
  rwa [h, ← get?_families ht] at hstands

end Pool

/-- No virtual method behind `m`, bridges aside, is of the family of `m`. -/
def TypeDecl.DeclaresLast (t : TypeDecl) (m : Method) : Prop :=
  ∃ before after, t.methods.filter (·.isVirtual) = before ++ m :: after ∧
    ∀ n ∈ after, n.isBridge = false → n.familyKey ≠ m.familyKey

theorem TypeDecl.DeclaresLast.getLast?_membersOf {t : TypeDecl} {m : Method}
    (h : t.DeclaresLast m) (hm : m.isBridge = false) :
    (t.membersOf .empty m.familyKey).getLast? = some m := by
  obtain ⟨before, after, hms, hafter⟩ := h
  have hself : m.familyKey.admits .empty m = true := FamilyKey.admits_iff.2 ⟨hm, by simp⟩
  have hnone : after.filter (m.familyKey.admits .empty) = [] := by
    refine List.filter_eq_nil_iff.2 fun n hn hmember => ?_
    have hmember := FamilyKey.admits_iff.1 hmember
    exact hafter n hn hmember.1 (by simpa using hmember.2)
  rw [membersOf, hms, List.filter_append, List.filter_cons_of_pos hself, hnone]
  simp

/-- **The last declaration of a family represents it** in the graph of the hierarchy. -/
theorem GraphScope.exists_mem_values (p : Pool) {t : TypeDecl} {m : Method}
    (hm : m.isBridge = false) (hlast : t.DeclaresLast m) :
    ∃ node ∈ (hierarchy.compile p t).graph.values, node.representative = m := by
  have hstands : Node.Stands m ((hierarchy.compile p t).graph.get? m.familyKey) :=
    Pool.stands_of_own List.not_mem_nil (hlast.getLast?_membersOf hm)
  obtain ⟨node, hnode, hrep, -⟩ := hstands
  exact ⟨node, (OrderedMap.mem_values_iff _).2 ⟨_, hnode⟩, hrep⟩

end ClassForge
