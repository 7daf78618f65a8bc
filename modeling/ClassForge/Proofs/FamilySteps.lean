import ClassForge.MethodGraph.Compile
import ClassForge.Proofs.Supertypes

/-!
# One family at a time

A graph is put together from many small steps, and each step changes the node of a key by looking
at the nodes of that key only: what becomes of a family depends on the declarations of that family
and on nothing else. So everything about nodes can be said about one key, with `Option Node` in
place of graphs: superclass and interfaces come together by `Option.merge`, and a declaration acts
by `Node.declareAt`.

Two facts about the walk are stated here once. A property that each step keeps holds of every node
of every walk (`Pool.Invariant.families`); it may depend on the type whose families are looked at,
and the families of its interfaces, before superclass and own methods come in, may have a stronger
one. And a walk with enough steps has the same outcome however many there are
(`Pool.families_congr`).

## Main definitions

* `Node.declareAt` — what a declaration makes of the family of a key
* `Pool.familiesAbove` — the families that a reference to a supertype leads to
* `Pool.Invariant` — a property of nodes that each step of the walk keeps
* `Pool.InvariantOn` — such a property where it matters what type variables stand for

## Main results

* `Pool.get?_families` — the walk, for one key
* `Pool.InvariantOn.families`, `Pool.Invariant.families` — invariants hold of all families
-/

namespace ClassForge

/-! ### Entries of ordered maps -/

namespace OrderedMap

variable {κ α : Type} [DecidableEq κ]

theorem find?_eq_some_iff {k : κ} {v : α} {es : List (κ × α)} (hn : (es.map Prod.fst).Nodup) :
    get?.find? k es = some v ↔ (k, v) ∈ es := by
  induction es with
  | nil => simp [get?.find?]
  | cons e es ih =>
    rw [List.map_cons, List.nodup_cons] at hn
    rw [get?.find?, List.mem_cons]
    by_cases hk : e.1 = k
    · have hout : (k, v) ∉ es := fun h => hn.1 (hk ▸ List.mem_map_of_mem h)
      simp [hk, hout, Prod.ext_iff, eq_comm]
    · rw [if_neg hk, ih hn.2]
      have hne : (k, v) ≠ e := fun h => hk (h ▸ rfl)
      simp [hne]

theorem get?_eq_some_iff (m : OrderedMap κ α) {k : κ} {v : α} :
    m.get? k = some v ↔ (k, v) ∈ m.entries :=
  find?_eq_some_iff m.nodup

theorem mem_values_iff (m : OrderedMap κ α) {v : α} :
    v ∈ m.values ↔ ∃ k, m.get? k = some v := by
  simp [values, get?_eq_some_iff]

theorem find?_eq_none {k : κ} {es : List (κ × α)} (h : k ∉ es.map Prod.fst) :
    get?.find? k es = none := by
  induction es with
  | nil => rfl
  | cons e es ih =>
    rw [List.map_cons, List.mem_cons, not_or] at h
    rw [get?.find?, if_neg (Ne.symm h.1), ih h.2]

/-- Taking in entries one after the other merges the maps key by key. -/
theorem get?_foldl_alter {f : κ × α → Option α → α} {merge : α → α → α}
    (hsome : ∀ e v, f e (some v) = merge v e.2) (hnone : ∀ e, f e none = e.2)
    {es : List (κ × α)} (hn : (es.map Prod.fst).Nodup) (m : OrderedMap κ α) (k : κ) :
    (es.foldl (fun m e => m.alter e.1 (f e)) m).get? k =
      (m.get? k).merge merge (get?.find? k es) := by
  induction es generalizing m with
  | nil => cases h : m.get? k <;> simp [get?.find?, h]
  | cons e es ih =>
    rw [List.map_cons, List.nodup_cons] at hn
    rw [List.foldl_cons, ih hn.2, get?_alter, get?.find?]
    by_cases hk : e.1 = k
    · subst hk
      rw [if_pos rfl, if_pos rfl, find?_eq_none hn.1]
      cases m.get? e.1 <;> simp [hsome, hnone]
    · rw [if_neg (Ne.symm hk), if_neg hk]

end OrderedMap

/-! ### Steps, for one key -/

/-- What a declaration, which looks like `shape` where it is seen, makes of the family of a key. -/
def Node.declareAt (k : FamilyKey) (shape m : Method) (node? : Option Node) : Option Node :=
  if shape.familyKey = k then
    if m.isBridge then node?.map (·.expose m)
    else some (node?.elim (.ofDeclaration shape m) (·.override shape m))
  else node?

/-- Declarations of other families leave a family alone. -/
theorem Node.declareAll_of_ne {k : FamilyKey} {shape : Method → Method} {ms : List Method}
    (hms : ∀ m ∈ ms, (shape m).familyKey ≠ k) (node? : Option Node) :
    ms.foldl (fun node? m => Node.declareAt k (shape m) m node?) node? = node? := by
  induction ms with
  | nil => rfl
  | cons m ms ih =>
    rw [List.forall_mem_cons] at hms
    rw [List.foldl_cons, Node.declareAt, if_neg hms.1, ih hms.2]

namespace MethodGraph

variable (g other : MethodGraph) (k : FamilyKey)

theorem get?_declare (shape m : Method) :
    (g.declare shape m).get? k = Node.declareAt k shape m (g.get? k) := by
  unfold declare Node.declareAt
  cases m.isBridge with
  | true =>
    simp only [if_true]
    by_cases hk : shape.familyKey = k
    · subst hk
      cases hg : g.get? shape.familyKey <;> simp [hg]
    · cases g.get? shape.familyKey <;> simp [hk, Ne.symm hk]
  | false =>
    simp only [Bool.false_eq_true, if_false]
    rw [OrderedMap.get?_alter]
    by_cases hk : shape.familyKey = k
    · rw [if_pos hk, if_pos hk.symm, hk]
      cases g.get? k <;> rfl
    · rw [if_neg hk, if_neg (Ne.symm hk)]

theorem get?_declareAll (shape : Method → Method) (ms : List Method) :
    (ms.foldl (fun g m => g.declare (shape m) m) g).get? k =
      ms.foldl (fun node? m => Node.declareAt k (shape m) m node?) (g.get? k) := by
  induction ms generalizing g with
  | nil => rfl
  | cons m ms ih => rw [List.foldl_cons, List.foldl_cons, ih, get?_declare]

theorem get?_combine (p : Pool) :
    (g.combine p other).get? k = (g.get? k).merge (Node.combine p) (other.get? k) := by
  unfold combine
  exact OrderedMap.get?_foldl_alter (fun _ _ => rfl) (fun _ => rfl) other.nodup g k

theorem get?_inject :
    (g.inject other).get? k = (g.get? k).merge Node.absorb (other.get? k) := by
  unfold inject
  exact OrderedMap.get?_foldl_alter (fun _ _ => rfl) (fun _ => rfl) other.nodup g k

theorem get?_combineAll (p : Pool) (above : TypeRef → MethodGraph) (rs : List TypeRef) :
    (rs.foldl (fun g r => g.combine p (above r)) g).get? k =
      rs.foldl (fun node? r => node?.merge (Node.combine p) ((above r).get? k)) (g.get? k) := by
  induction rs generalizing g with
  | nil => rfl
  | cons r rs ih => rw [List.foldl_cons, List.foldl_cons, ih, get?_combine]

end MethodGraph

/-! ### The walk, for one key -/

namespace Pool

variable {p : Pool} {n m : Nat} {path : List String} {b : Bindings} {t u : TypeDecl}
  {k : FamilyKey} {node : Node}

theorem supertype?_eq (p : Pool) (b : Bindings) (r : TypeRef) :
    p.supertype? b r = (p.resolve? r).map fun u => (u, u.bindings (r.substitute b)) := by
  cases hr : r.rawName? with
  | none => simp [supertype?, resolve?, hr]
  | some name => cases hu : p.find? name <;> simp [supertype?, resolve?, hr, hu]

/-- The families that a reference to a supertype leads to. -/
def familiesAbove (p : Pool) (n : Nat) (path : List String) (b : Bindings) (r : TypeRef) :
    MethodGraph :=
  match p.supertype? b r with
  | some (u, inner) => p.families n path inner u
  | none => .empty

theorem familiesAbove_of_resolve? {r : TypeRef} (h : p.resolve? r = some u) :
    p.familiesAbove n path b r = p.families n path (u.bindings (r.substitute b)) u := by
  rw [familiesAbove, supertype?_eq, h]
  rfl

theorem exists_of_get?_familiesAbove {r : TypeRef}
    (h : (p.familiesAbove n path b r).get? k = some node) :
    ∃ u, p.resolve? r = some u ∧
      (p.families n path (u.bindings (r.substitute b)) u).get? k = some node := by
  cases hu : p.resolve? r with
  | none =>
    rw [familiesAbove, supertype?_eq, hu] at h
    cases h
  | some u => exact ⟨u, rfl, familiesAbove_of_resolve? hu ▸ h⟩

/-- What a type makes of the families of its supertypes. -/
theorem families_succ (ht : t.name ∉ path) :
    p.families (n + 1) path b t =
      (t.methods.filter (·.isVirtual)).foldl (fun g m => g.declare (m.inShape b) m)
        ((t.superclass.elim .empty (p.familiesAbove n (t.name :: path) b)).inject
          (t.interfaces.foldl
            (fun g r => g.combine p (p.familiesAbove n (t.name :: path) b r)) .empty)) := by
  rw [families, if_neg ht]
  rfl

/-- What the superclass and the interfaces of a type bring into the family of a key. -/
def inheritedFamily (p : Pool) (n : Nat) (path : List String) (b : Bindings) (t : TypeDecl)
    (k : FamilyKey) : Option Node :=
  (t.superclass.bind fun r => (p.familiesAbove n path b r).get? k).merge Node.absorb
    (t.interfaces.foldl
      (fun node? r => node?.merge (Node.combine p) ((p.familiesAbove n path b r).get? k)) none)

/-- **The walk, for one key.** -/
theorem get?_families (ht : t.name ∉ path) :
    (p.families (n + 1) path b t).get? k =
      (t.methods.filter (·.isVirtual)).foldl
        (fun node? m => Node.declareAt k (m.inShape b) m node?)
        (p.inheritedFamily n (t.name :: path) b t k) := by
  rw [families_succ ht, MethodGraph.get?_declareAll, MethodGraph.get?_inject,
    MethodGraph.get?_combineAll, inheritedFamily]
  cases t.superclass <;> rfl

/-- Nothing is collected a second time on the path to a type. -/
theorem families_of_mem (ht : t.name ∈ path) : p.families n path b t = .empty := by
  cases n with
  | zero => rfl
  | succ n => rw [families, if_pos ht]

/-! ### Invariants -/

/-- A property of the families of a type, and one of what its interfaces bring in, such that each
step of the walk leads from nodes with the properties to nodes with the properties. -/
structure Invariant (p : Pool) (Q F : TypeDecl → FamilyKey → Node → Prop) : Prop where
  /-- The families of an interface are among what the interfaces of a type bring in. -/
  sibling : ∀ {t u k node r}, r ∈ t.interfaces → p.resolve? r = some u → Q u k node → F t k node
  combine : ∀ {t k node other}, F t k node → F t k other → F t k (node.combine p other)
  superclass : ∀ {t u k node r}, t.superclass = some r → p.resolve? r = some u → Q u k node →
    Q t k node
  interfaces : ∀ {t k node}, F t k node → Q t k node
  absorb : ∀ {t k node other r}, t.superclass = some r → Q t k node → F t k other →
    Q t k (node.absorb other)
  ofDeclaration : ∀ {t m} (b : Bindings), m ∈ t.methods → m.isVirtual = true →
    m.isBridge = false → Q t (m.inShape b).familyKey (.ofDeclaration (m.inShape b) m)
  override : ∀ {t m node} (b : Bindings), m ∈ t.methods → m.isVirtual = true →
    m.isBridge = false → Q t (m.inShape b).familyKey node →
      Q t (m.inShape b).familyKey (node.override (m.inShape b) m)
  expose : ∀ {t k node m}, Q t k node → Q t k (node.expose m)

/-- Such properties where it matters what type variables stand for: `B` holds of the bindings of a
type, and from there of those of its supertypes. -/
structure InvariantOn (p : Pool) (B : TypeDecl → Bindings → Prop)
    (Q F : TypeDecl → FamilyKey → Node → Prop) : Prop where
  bindings : ∀ {t u b r}, B t b → r ∈ t.supertypes → p.resolve? r = some u →
    B u (u.bindings (r.substitute b))
  sibling : ∀ {t u k node r}, r ∈ t.interfaces → p.resolve? r = some u → Q u k node → F t k node
  combine : ∀ {t k node other}, F t k node → F t k other → F t k (node.combine p other)
  superclass : ∀ {t u k node r}, t.superclass = some r → p.resolve? r = some u → Q u k node →
    Q t k node
  interfaces : ∀ {t k node}, F t k node → Q t k node
  absorb : ∀ {t k node other r}, t.superclass = some r → Q t k node → F t k other →
    Q t k (node.absorb other)
  ofDeclaration : ∀ {t m b}, B t b → m ∈ t.methods → m.isVirtual = true → m.isBridge = false →
    Q t (m.inShape b).familyKey (.ofDeclaration (m.inShape b) m)
  override : ∀ {t m node b}, B t b → m ∈ t.methods → m.isVirtual = true → m.isBridge = false →
    Q t (m.inShape b).familyKey node →
      Q t (m.inShape b).familyKey (node.override (m.inShape b) m)
  expose : ∀ {t k node m}, Q t k node → Q t k (node.expose m)

/-- What two sides bring in has the property if each side has it and both together do. -/
theorem of_merge {P : Node → Prop} {f : Node → Node → Node} {x y : Option Node}
    (hx : ∀ a ∈ x, P a) (hy : ∀ a ∈ y, P a) (hf : ∀ a ∈ x, ∀ c ∈ y, P (f a c)) :
    ∀ a ∈ x.merge f y, P a := by
  cases x <;> cases y <;> simp_all

namespace InvariantOn

variable {B : TypeDecl → Bindings → Prop} {Q F : TypeDecl → FamilyKey → Node → Prop}

theorem combineAll (h : p.InvariantOn B Q F) {above : TypeRef → Option Node} {rs : List TypeRef}
    (habove : ∀ r ∈ rs, ∀ node ∈ above r, F t k node) {node? : Option Node}
    (hnode : ∀ node ∈ node?, F t k node) :
    ∀ node ∈ rs.foldl (fun node? r => node?.merge (Node.combine p) (above r)) node?,
      F t k node := by
  induction rs generalizing node? with
  | nil => exact hnode
  | cons r rs ih =>
    rw [List.forall_mem_cons] at habove
    exact ih habove.2 (of_merge hnode habove.1 fun a ha c hc =>
      h.combine (hnode a ha) (habove.1 c hc))

theorem declareAll (h : p.InvariantOn B Q F) (hb : B t b) (k : FamilyKey) {ms : List Method}
    (hms : ∀ m ∈ ms, m ∈ t.methods ∧ m.isVirtual = true) (node? : Option Node)
    (hnode : ∀ node ∈ node?, Q t k node) :
    ∀ node ∈ ms.foldl (fun node? m => Node.declareAt k (m.inShape b) m node?) node?,
      Q t k node := by
  induction ms generalizing node? with
  | nil => exact hnode
  | cons m ms ih =>
    rw [List.forall_mem_cons] at hms
    refine ih hms.2 _ ?_
    dsimp only [Node.declareAt]
    split
    · rename_i hk
      subst hk
      cases hbridge : m.isBridge with
      | true =>
        intro node hnode'
        obtain ⟨old, hold, rfl⟩ := Option.map_eq_some_iff.1 hnode'
        exact h.expose (hnode old hold)
      | false =>
        rintro _ ⟨⟩
        cases node? with
        | none => exact h.ofDeclaration hb hms.1.1 hms.1.2 hbridge
        | some node => exact h.override hb hms.1.1 hms.1.2 hbridge (hnode node rfl)
    · exact hnode

/-- The interfaces of a type bring in families with the property, if those above have theirs. -/
theorem interfacesAll (h : p.InvariantOn B Q F) {n : Nat} {path : List String} (hb : B t b)
    (above : ∀ {b u}, B u b → ∀ node ∈ (p.families n path b u).get? k, Q u k node)
    {rs : List TypeRef} (hrs : rs ⊆ t.interfaces) :
    ∀ node ∈ rs.foldl (fun node? r =>
      node?.merge (Node.combine p) ((p.familiesAbove n path b r).get? k)) none, F t k node := by
  refine h.combineAll (fun r hr node hnode => ?_) nofun
  obtain ⟨u, hu, hnode⟩ := exists_of_get?_familiesAbove hnode
  exact h.sibling (hrs hr) hu
    (above (h.bindings hb (List.mem_append_right _ (hrs hr)) hu) node hnode)

/-- **Invariants hold of all families**, whatever walk they come from. -/
theorem families (h : p.InvariantOn B Q F) (n : Nat) (path : List String) (hb : B t b)
    (k : FamilyKey) : ∀ node ∈ (p.families n path b t).get? k, Q t k node := by
  induction n generalizing path b t with
  | zero => exact nofun
  | succ n ih =>
    by_cases ht : t.name ∈ path
    · rw [families_of_mem ht]
      exact nofun
    · rw [get?_families ht]
      have hinterfaces := h.interfacesAll hb (fun hb => ih (t.name :: path) hb)
        (List.Subset.refl t.interfaces)
      refine h.declareAll hb k (fun m hm => List.mem_filter.1 hm) _ ?_
      have hsuper : ∀ node ∈ t.superclass.bind fun r =>
          (p.familiesAbove n (t.name :: path) b r).get? k, Q t k node := by
        intro node hnode
        obtain ⟨r, hr, hnode⟩ := Option.bind_eq_some_iff.1 hnode
        obtain ⟨u, hu, hnode⟩ := exists_of_get?_familiesAbove hnode
        have habove := h.bindings hb (List.mem_append_left _ (by rw [hr]; exact .head _)) hu
        exact h.superclass hr hu (ih _ habove node hnode)
      refine of_merge hsuper (fun a ha => h.interfaces (hinterfaces a ha)) fun a ha c hc => ?_
      obtain ⟨r, hr, -⟩ := Option.bind_eq_some_iff.1 ha
      exact h.absorb hr (hsuper a ha) (hinterfaces c hc)

end InvariantOn

namespace Invariant

variable {Q F : TypeDecl → FamilyKey → Node → Prop}

theorem on (h : p.Invariant Q F) : p.InvariantOn (fun _ _ => True) Q F where
  bindings _ _ _ := trivial
  sibling := h.sibling
  combine := h.combine
  superclass := h.superclass
  interfaces := h.interfaces
  absorb := h.absorb
  ofDeclaration _ := h.ofDeclaration _
  override _ := h.override _
  expose := h.expose

theorem declareAll (h : p.Invariant Q F) (b : Bindings) (k : FamilyKey) {ms : List Method}
    (hms : ∀ m ∈ ms, m ∈ t.methods ∧ m.isVirtual = true) (node? : Option Node)
    (hnode : ∀ node ∈ node?, Q t k node) :
    ∀ node ∈ ms.foldl (fun node? m => Node.declareAt k (m.inShape b) m node?) node?,
      Q t k node :=
  h.on.declareAll trivial k hms node? hnode

theorem families (h : p.Invariant Q F) (n : Nat) (path : List String) (b : Bindings)
    (t : TypeDecl) (k : FamilyKey) : ∀ node ∈ (p.families n path b t).get? k, Q t k node :=
  h.on.families n path trivial k

end Invariant

/-! ### Enough steps -/

/-- How many types of the pool have names off the path. -/
def unmet (p : Pool) (path : List String) : Nat := weightOutside (fun _ => 1) path p.types

theorem unmet_le (p : Pool) (path : List String) : p.unmet path ≤ p.size := by
  refine (weightOutside_le ..).trans ?_
  simp [size]

theorem unmet_cons_lt (ht : p.Knows t) (h : t.name ∉ path) :
    p.unmet (t.name :: path) < p.unmet path :=
  weightOutside_cons_add_le (fun _ => 1) h ht.mem

/-- **Enough is enough.** With more steps than types off the path, their number does not matter. -/
theorem families_congr (ht : p.Knows t) (hn : p.unmet path < n) (hm : p.unmet path < m) :
    p.families n path b t = p.families m path b t := by
  induction n generalizing m path b t with
  | zero => omega
  | succ n ih =>
    obtain ⟨m, rfl⟩ : ∃ m', m = m' + 1 := ⟨m - 1, by omega⟩
    by_cases hmet : t.name ∈ path
    · rw [families_of_mem hmet, families_of_mem hmet]
    · have hless := unmet_cons_lt ht hmet
      have above : p.familiesAbove n (t.name :: path) b =
          p.familiesAbove m (t.name :: path) b := by
        funext r
        cases hu : p.resolve? r with
        | none => simp only [familiesAbove, supertype?_eq, hu, Option.map_none]
        | some u =>
          rw [familiesAbove_of_resolve? hu, familiesAbove_of_resolve? hu]
          exact ih (knows_of_resolve? hu) (by omega) (by omega)
      rw [families_succ hmet, families_succ hmet, above]

end Pool

end ClassForge
