import ClassForge.Proofs.WellFormed
import ClassForge.Target

/-!
# Conflicts come to light

Two declarations of a family are in conflict if unrelated interfaces bring them in, one of them has
code, and no declaration of the family overrides either of them. Such a family should be reported
as ambiguous. The verdict is not a function of the declarations, though: a node has only one
representative, and siblings are compared by their representatives. A conflict that the
representatives do not show goes unnoticed, and so does a verdict that a later sibling comes with.

What can be said is when nothing is overlooked. The verdict of the superclass stays, and so does
that of the first interface that brings in the family. Else each sibling is compared with those
before it, and the representatives have to be opposed. They are, if the representative of each
sibling speaks for its maximally specific declarations and no code overrides an abstract
declaration.

## Main definitions

* `Pool.Overrides`, `Pool.Clash`, `Pool.Conflicted` — conflicts of declarations
* `Node.Speaks` — the representative shows what the maximally specific declarations are
* `Pool.Surfaces` — the ways in which a conflict is reported

## Main results

* `Node.combine_cases` — what becomes of siblings
* `Node.speaks_foldl_combine` — siblings that are compared are ambiguous, or one speaks for all
* `GraphScope.conflicts_surface` — when conflicts are reported; then no super call goes to them
-/

namespace ClassForge

namespace Pool

/-! ### Conflicts of declarations -/

/-- The owner of `m` is a proper subtype of the owner of `n`. -/
def Overrides (p : Pool) (m n : Method) : Prop :=
  m.owner ≠ n.owner ∧ p.inherits m.owner n.owner = true

instance (p : Pool) (m n : Method) : Decidable (p.Overrides m n) :=
  inferInstanceAs (Decidable (_ ∧ _))

/-- The owners are two types, neither of which inherits from the other. -/
def Unrelated (p : Pool) (m n : Method) : Prop :=
  m.owner ≠ n.owner ∧ p.inherits m.owner n.owner = false ∧ p.inherits n.owner m.owner = false

/-- The owners are unrelated, and not both declarations are abstract. -/
def Opposed (p : Pool) (m n : Method) : Prop :=
  p.Unrelated m n ∧ (m.isAbstract && n.isAbstract) = false

instance (p : Pool) (m n : Method) : Decidable (p.Opposed m n) :=
  inferInstanceAs (Decidable ((_ ∧ _ ∧ _) ∧ _))

/-- Interfaces bring in the declarations, which are opposed. -/
structure Clash (p : Pool) (m n : Method) : Prop where
  left : p.hasInterface m.owner = true
  right : p.hasInterface n.owner = true
  opposed : p.Opposed m n

instance (p : Pool) (m n : Method) : Decidable (p.Clash m n) :=
  decidable_of_iff (_ ∧ _ ∧ _) ⟨fun ⟨left, right, opposed⟩ => ⟨left, right, opposed⟩,
    fun h => ⟨h.left, h.right, h.opposed⟩⟩

/-- None of the declarations overrides this one. -/
def Maximal (p : Pool) (ds : List Method) (m : Method) : Prop := ∀ d ∈ ds, ¬p.Overrides d m

instance (p : Pool) (ds : List Method) (m : Method) : Decidable (p.Maximal ds m) :=
  inferInstanceAs (Decidable (∀ d ∈ ds, _))

/-- Two of the declarations clash, and none overrides either of them. -/
def Conflicted (p : Pool) (ds : List Method) : Prop :=
  ∃ x ∈ ds, ∃ y ∈ ds, p.Maximal ds x ∧ p.Maximal ds y ∧ p.Clash x y

instance (p : Pool) (ds : List Method) : Decidable (p.Conflicted ds) :=
  inferInstanceAs (Decidable (∃ x ∈ ds, _))

/-- Of the declarations no code stands below an abstract one, or beside it in one type. -/
def KeepsAbstract (p : Pool) (ds : List Method) : Prop :=
  ∀ d ∈ ds, ∀ e ∈ ds, e.owner = d.owner ∨ p.Overrides e d → d.isAbstract = true →
    e.isAbstract = true

instance (p : Pool) (ds : List Method) : Decidable (p.KeepsAbstract ds) :=
  inferInstanceAs (Decidable (∀ d ∈ ds, _))

/-- Nothing of the identity of one of the declarations overrides a maximal one. -/
theorem Maximal.not_overrides {p : Pool} {ds : List Method} {m d : Method} (h : p.Maximal ds m)
    (hd : ∃ e ∈ ds, e.identity = d.identity) : ¬p.Overrides d m := by
  obtain ⟨e, he, hid⟩ := hd
  have howner : e.owner = d.owner := congrArg MethodIdentity.owner hid
  have hnone := h e he
  rwa [Overrides, howner] at hnone

end Pool

namespace Node

variable {p : Pool} {node other : Node} {m : Method}

/-! ### Siblings -/

theorem standing_eq (p : Pool) (m n : Method) :
    standing p m n =
      if m.owner = n.owner then .above
      else if p.inherits n.owner m.owner then .below
      else if p.inherits m.owner n.owner then .above
      else .unrelated := by
  cases hm : p.find? m.owner <;> cases hn : p.find? n.owner <;>
    simp [standing, Pool.inherits, hm, hn]

/-- **What becomes of siblings.** -/
theorem combine_cases (p : Pool) (node other : Node) :
    (p.Overrides other.representative node.representative ∧
        node.combine p other = { node.absorb other with representative := other.representative }) ∨
      ((node.representative.owner = other.representative.owner ∨
          p.Overrides node.representative other.representative) ∧
        node.combine p other = node.absorb other) ∨
      (p.Unrelated node.representative other.representative ∧
        (node.representative.isAbstract && other.representative.isAbstract) = true ∧
        node.combine p other = node.absorb other) ∨
      (p.Opposed node.representative other.representative ∧
        node.combine p other = { node.absorb other with sort := .ambiguous }) := by
  by_cases howner : node.representative.owner = other.representative.owner
  · refine .inr (.inl ⟨.inl howner, ?_⟩)
    by_cases hid : node.representative.identity = other.representative.identity
    · simp [combine, hid]
    · simp [combine, hid, standing_eq, howner]
  · have hid : node.representative.identity ≠ other.representative.identity := fun hid =>
      howner (congrArg MethodIdentity.owner hid)
    cases hbelow : p.inherits other.representative.owner node.representative.owner with
    | true =>
      exact .inl ⟨⟨Ne.symm howner, hbelow⟩, by simp [combine, hid, standing_eq, howner, hbelow]⟩
    | false =>
      cases habove : p.inherits node.representative.owner other.representative.owner with
      | true =>
        exact .inr (.inl ⟨.inr ⟨howner, habove⟩,
          by simp [combine, hid, standing_eq, howner, hbelow, habove]⟩)
      | false =>
        have hunrelated := And.intro howner (And.intro habove hbelow)
        cases hcode : node.representative.isAbstract && other.representative.isAbstract with
        | true =>
          exact .inr (.inr (.inl ⟨hunrelated, rfl,
            by simp [combine, hid, standing_eq, howner, hbelow, habove, hcode]⟩))
        | false =>
          exact .inr (.inr (.inr ⟨⟨hunrelated, hcode⟩,
            by simp [combine, hid, standing_eq, howner, hbelow, habove, hcode]⟩))

/-- A verdict stays, whatever siblings come later. -/
theorem sort_combine (h : node.sort = .ambiguous) (other : Node) :
    (node.combine p other).sort = .ambiguous := by
  rcases combine_cases p node other with ⟨-, e⟩ | ⟨-, e⟩ | ⟨-, -, e⟩ | ⟨-, e⟩
  · exact e ▸ h
  · exact e ▸ h
  · exact e ▸ h
  · rw [e]

theorem sort_foldl_combine (h : node.sort = .ambiguous) (cs : List Node) :
    (cs.foldl (combine p) node).sort = .ambiguous := by
  induction cs generalizing node with
  | nil => exact h
  | cons c cs ih => exact ih (sort_combine h c)

/-- A verdict comes from the first of siblings, or two of their representatives are opposed. -/
theorem exists_of_sort_foldl_combine {cs : List Node}
    (h : (cs.foldl (combine p) node).sort = .ambiguous) :
    node.sort = .ambiguous ∨ ∃ before c after, cs = before ++ c :: after ∧
      p.Opposed (before.foldl (combine p) node).representative c.representative := by
  induction cs generalizing node with
  | nil => exact .inl h
  | cons c cs ih =>
    rcases ih h with h | ⟨before, d, after, rfl, hopposed⟩
    · rcases combine_cases p node c with ⟨-, e⟩ | ⟨-, e⟩ | ⟨-, -, e⟩ | ⟨hopposed, -⟩
      · exact .inl (by rwa [e] at h)
      · exact .inl (by rwa [e] at h)
      · exact .inl (by rwa [e] at h)
      · exact .inr ⟨[], c, cs, rfl, hopposed⟩
    · exact .inr ⟨c :: before, d, after, rfl, hopposed⟩

/-- Siblings whose representatives are opposed are ambiguous. -/
theorem sort_combine_of_opposed (h : p.Opposed node.representative other.representative) :
    (node.combine p other).sort = .ambiguous := by
  obtain ⟨⟨hne, habove, hbelow⟩, hcode⟩ := h
  rcases combine_cases p node other with ⟨h, -⟩ | ⟨h, -⟩ | ⟨-, habstract, -⟩ | ⟨-, e⟩
  · exact absurd h.2 (by simp [hbelow])
  · exact absurd h (by simp [Pool.Overrides, hne, habove])
  · rw [habstract] at hcode
    cases hcode
  · rw [e]

theorem mem_combine (hm : m ∈ (node.combine p other).declarations) :
    m ∈ node.declarations ∨ m ∈ other.declarations := by
  rw [(combine_eq_absorb p node other).1] at hm
  exact mem_mergeDeclarations hm

end Node

/-! ### Representatives that speak for their families -/

/-- Both are of one owner, or both are abstract. -/
def Method.SpeaksFor (r d : Method) : Prop :=
  d.owner = r.owner ∨ d.isAbstract = true ∧ r.isAbstract = true

instance (r d : Method) : Decidable (r.SpeaksFor d) := inferInstanceAs (Decidable (_ ∨ _))

/-- What speaks for a declaration hands this on to what overrides it, the declaration aside. -/
theorem Method.SpeaksFor.of_overrides {p : Pool} {ds : List Method} {w l d : Method}
    (h : l.SpeaksFor d) (hds : p.KeepsAbstract ds) (hl : l ∈ ds) (hw : w ∈ ds)
    (hwl : w.owner = l.owner ∨ p.Overrides w l) (hd : ¬p.Overrides w d) : w.SpeaksFor d := by
  rcases h with h | ⟨h, hl'⟩
  · rcases hwl with hwl | hwl
    · exact .inl (h.trans hwl.symm)
    · rw [Pool.Overrides, h] at hd
      exact absurd hwl hd
  · exact .inr ⟨h, hds l hl w hw hwl hl'⟩

namespace Node

variable {p : Pool} {node other : Node} {ds : List Method}

/-- The representative speaks for each maximally specific declaration. -/
def Speaks (p : Pool) (node : Node) : Prop :=
  ∀ d ∈ node.declarations, p.Maximal node.declarations d → node.representative.SpeaksFor d

instance (p : Pool) (node : Node) : Decidable (node.Speaks p) :=
  inferInstanceAs (Decidable (∀ d ∈ node.declarations, _))

/-- The node is about these declarations, and its representative is one of its own. -/
structure Within (ds : List Method) (node : Node) : Prop where
  declared : node.Declares node.representative.identity
  representative : node.representative ∈ ds
  declarations : node.declarations ⊆ ds

/-- In a well-formed pool identities stand for methods. -/
theorem Sound.within {t : TypeDecl} {k : FamilyKey} (hs : other.Sound p t k) (h : p.WellFormed t)
    (hnode : node.Sound p t k) (hsub : ∀ i, other.Declares i → node.Declares i) :
    other.Within node.declarations := by
  have hmem : ∀ m ∈ other.representative :: other.declarations, other.Declares m.identity →
      m ∈ node.declarations := by
    intro m hm hdeclares
    obtain ⟨d, hd, hid⟩ := hsub _ hdeclares
    have heq := h.eq_of_identity (hnode.inherited d (List.mem_cons_of_mem _ hd)) (hs.inherited m hm)
      hid
    exact heq ▸ hd
  exact ⟨hs.declared, hmem _ List.mem_cons_self hs.declared,
    fun m hm => hmem m (List.mem_cons_of_mem _ hm) ⟨m, hm, rfl⟩⟩

theorem Within.combine (h : node.Within ds) (h' : other.Within ds) :
    (node.combine p other).Within ds where
  declared := by
    rw [declares_combine]
    rcases representative_combine p node other with e | e
    · exact .inl (e ▸ h.declared)
    · exact .inr (e ▸ h'.declared)
  representative := by
    rcases representative_combine p node other with e | e
    · exact e ▸ h.representative
    · exact e ▸ h'.representative
  declarations := fun _ hm =>
    (mem_combine hm).elim (fun hm => h.declarations hm) fun hm => h'.declarations hm

/-- **Comparing siblings.** Where one speaks for those before it and the next for itself, both
together are ambiguous, or one speaks for all. -/
theorem Speaks.combine (h : node.Speaks p) (h' : other.Speaks p) (hds : p.KeepsAbstract ds)
    (hw : node.Within ds) (hw' : other.Within ds) :
    (node.combine p other).sort = .ambiguous ∨ (node.combine p other).Speaks p := by
  -- What is maximal among all is maximal on its side, and neither representative overrides it.
  have hside : ∀ d ∈ (node.combine p other).declarations,
      p.Maximal (node.combine p other).declarations d →
        (node.representative.SpeaksFor d ∨ d ∈ ds ∧ other.representative.SpeaksFor d) ∧
          ¬p.Overrides node.representative d ∧ ¬p.Overrides other.representative d := by
    intro d hd hmax
    have hleft : ∀ i, node.Declares i → (node.combine p other).Declares i := fun _ hi =>
      (declares_combine p).2 (.inl hi)
    have hright : ∀ i, other.Declares i → (node.combine p other).Declares i := fun _ hi =>
      (declares_combine p).2 (.inr hi)
    refine ⟨(mem_combine hd).imp (fun hd => h d hd fun e he => ?_)
      (fun hd => ⟨hw'.declarations hd, h' d hd fun e he => ?_⟩), ?_, ?_⟩
    · exact hmax.not_overrides (hleft _ ⟨e, he, rfl⟩)
    · exact hmax.not_overrides (hright _ ⟨e, he, rfl⟩)
    · exact hmax.not_overrides (hleft _ hw.declared)
    · exact hmax.not_overrides (hright _ hw'.declared)
  have hr := hw.representative
  have hr' := hw'.representative
  rcases combine_cases p node other with
    ⟨hbelow, e⟩ | ⟨habove, e⟩ | ⟨-, habstract, e⟩ | ⟨-, e⟩
  · refine .inr fun d hd hmax => ?_
    obtain ⟨hspeaks, -, hnot⟩ := hside d hd hmax
    rw [e]
    exact hspeaks.elim (fun hs => hs.of_overrides hds hr hr' (.inr hbelow) hnot) And.right
  · refine .inr fun d hd hmax => ?_
    obtain ⟨hspeaks, hnot, -⟩ := hside d hd hmax
    rw [e]
    exact hspeaks.elim id fun hs => hs.2.of_overrides hds hr' hr habove hnot
  · rw [Bool.and_eq_true] at habstract
    refine .inr fun d hd hmax => ?_
    obtain ⟨hspeaks, -, -⟩ := hside d hd hmax
    rw [e]
    refine hspeaks.elim id fun hs => .inr ⟨?_, habstract.1⟩
    exact hs.2.elim (fun howner => hds _ hr' d hs.1 (.inl howner) habstract.2) And.left
  · exact .inl (e ▸ rfl)

/-- **Siblings that are compared** are ambiguous, or the representative speaks for all. -/
theorem speaks_foldl_combine (hds : p.KeepsAbstract ds) {cs : List Node}
    (h : node.sort = .ambiguous ∨ node.Speaks p) (hcs : ∀ c ∈ cs, c.Speaks p)
    (hw : node.Within ds) (hws : ∀ c ∈ cs, c.Within ds) :
    (cs.foldl (Node.combine p) node).sort = .ambiguous ∨
      (cs.foldl (Node.combine p) node).Speaks p := by
  induction cs generalizing node with
  | nil => exact h
  | cons c cs ih =>
    rw [List.forall_mem_cons] at hcs hws
    refine ih ?_ hcs.2 (hw.combine hws.1) hws.2
    rcases h with h | h
    · exact .inl (sort_combine h c)
    · exact h.combine hcs.1 hds hw hws.1

/-- **A representative that speaks for all leaves no conflict.** -/
theorem Speaks.not_conflicted (h : node.Speaks p) (hds : p.KeepsAbstract node.declarations)
    (hr : node.representative ∈ node.declarations) : ¬p.Conflicted node.declarations := by
  rintro ⟨x, hx, y, hy, hxmax, hymax, hclash⟩
  obtain ⟨⟨hne, -⟩, hcode⟩ := hclash.opposed
  have hcode : ¬(x.isAbstract = true ∧ y.isAbstract = true) := by
    rw [← Bool.and_eq_true, hcode]
    exact Bool.false_ne_true
  have habstract {z : Method} (hz : z ∈ node.declarations)
      (howner : z.owner = node.representative.owner)
      (hrep : node.representative.isAbstract = true) : z.isAbstract = true :=
    hds _ hr z hz (.inl howner) hrep
  rcases h x hx hxmax with hx' | ⟨hx', hrep⟩ <;> rcases h y hy hymax with hy' | ⟨hy', hrep'⟩
  · exact hne (hx'.trans hy'.symm)
  · exact hcode ⟨habstract hx hx' hrep', hy'⟩
  · exact hcode ⟨hx', habstract hy hy' hrep⟩
  · exact hcode ⟨hx', hy'⟩

theorem declares_foldl_combine {i : MethodIdentity} {cs : List Node} :
    (cs.foldl (Node.combine p) node).Declares i ↔ ∃ c ∈ node :: cs, c.Declares i := by
  induction cs generalizing node with
  | nil => simp
  | cons c cs ih =>
    rw [List.foldl_cons, ih]
    simp only [List.exists_mem_cons_iff, declares_combine, or_assoc]

/-- The verdict of a superclass stays, whatever interfaces bring in beside it. -/
theorem sort_of_merge_absorb {other? : Option Node}
    (h : (some other).merge absorb other? = some node) : node.sort = other.sort := by
  cases other? <;> cases h <;> rfl

/-- What siblings are together. -/
def combineAll (p : Pool) : List Node → Option Node
  | [] => none
  | c :: cs => some (cs.foldl (Node.combine p) c)

theorem foldl_merge_combine {above : TypeRef → Option Node} {rs : List TypeRef} :
    rs.foldl (fun node? r => node?.merge (Node.combine p) (above r)) none =
      combineAll p (rs.filterMap above) := by
  have hsome (node : Node) (rs : List TypeRef) :
      rs.foldl (fun node? r => node?.merge (Node.combine p) (above r)) (some node) =
        some ((rs.filterMap above).foldl (Node.combine p) node) := by
    induction rs generalizing node with
    | nil => rfl
    | cons r rs ih =>
      cases hr : above r <;> simp [hr, ih]
  induction rs with
  | nil => rfl
  | cons r rs ih =>
    cases hr : above r with
    | none => simp [hr, ih]
    | some node => simp [hr, hsome, combineAll]

end Node

/-! ### The families of a type that does not declare them -/

namespace Pool

variable {p : Pool} {t : TypeDecl} {k : FamilyKey} {node : Node}

/-- The families that a reference of the type to a supertype leads to. -/
def familiesBehind (p : Pool) (t : TypeDecl) (r : TypeRef) : MethodGraph :=
  p.familiesAbove p.depthBound [t.name] .empty r

/-- What each interface of the type brings into the family of a key, in order. -/
def siblings (p : Pool) (t : TypeDecl) (k : FamilyKey) : List Node :=
  t.interfaces.filterMap fun r => (p.familiesBehind t r).get? k

theorem familiesBehind_eq (p : Pool) (t : TypeDecl) (r : TypeRef) :
    p.familiesAbove (p.size + 1) [t.name] .empty r = p.familiesBehind t r := by
  rw [familiesBehind]
  cases hu : p.resolve? r with
  | none => simp only [familiesAbove, supertype?_eq, hu, Option.map_none]
  | some u =>
    have hless := p.unmet_le [t.name]
    rw [familiesAbove_of_resolve? hu, familiesAbove_of_resolve? hu]
    exact families_congr (knows_of_resolve? hu) (by omega) (by rw [depthBound]; omega)

theorem get?_superGraph (p : Pool) (t : TypeDecl) (k : FamilyKey) :
    (GraphScope.hierarchy.compile p t).superGraph.get? k =
      t.superclass.bind fun r => (p.familiesBehind t r).get? k := by
  simp only [GraphScope.compile, GraphScope.superFamilies]
  cases t.superclass <;> rfl

/-- **The walk from the root, for one key.** What the superclass and the interfaces of the type
bring into a family comes together, and then the type declares its own methods. -/
theorem get?_compile (p : Pool) (t : TypeDecl) (k : FamilyKey) :
    (GraphScope.hierarchy.compile p t).graph.get? k =
      (t.methods.filter (·.isVirtual)).foldl (fun node? m => Node.declareAt k m m node?)
        (((GraphScope.hierarchy.compile p t).superGraph.get? k).merge Node.absorb
          (Node.combineAll p (p.siblings t k))) := by
  have hwalk := get?_families (p := p) (n := p.size + 1) (b := .empty) (k := k)
    (List.not_mem_nil (a := t.name))
  refine hwalk.trans ?_
  simp only [inheritedFamily, familiesBehind_eq, Method.inShape_empty]
  rw [get?_superGraph, Node.foldl_merge_combine, siblings]

/-- **A family that the type does not declare** comes from its superclass and its interfaces. -/
theorem get?_compile_of_undeclared
    (hown : ∀ m ∈ t.methods, m.isVirtual = true → m.familyKey ≠ k) :
    (GraphScope.hierarchy.compile p t).graph.get? k =
      ((GraphScope.hierarchy.compile p t).superGraph.get? k).merge Node.absorb
        (Node.combineAll p (p.siblings t k)) := by
  rw [get?_compile]
  refine Node.declareAll_of_ne (fun m hm => ?_) _
  exact hown m (List.mem_filter.1 hm).1 (List.mem_filter.1 hm).2

/-- Siblings are sound. -/
theorem sound_of_mem_siblings {c : Node} (hc : c ∈ p.siblings t k) : c.Sound p t k := by
  obtain ⟨r, hr, hc⟩ := List.mem_filterMap.1 hc
  obtain ⟨u, hu, hc⟩ := exists_of_get?_familiesAbove hc
  exact (p.invariant_sound.families _ _ _ u k c hc).of_reaches
    (.single (refers_of_interface hr hu))

/-- In a well-formed pool, interfaces that are compared make the family ambiguous, or one
representative speaks for all. -/
theorem ambiguous_or_speaks (h : p.WellFormed t) (hsound : node.Sound p t k)
    (hnode : Node.combineAll p (p.siblings t k) = some node)
    (hspeaks : ∀ c ∈ p.siblings t k, c.Speaks p) (habstract : p.KeepsAbstract node.declarations) :
    node.sort = .ambiguous ∨ node.Speaks p := by
  cases hcs : p.siblings t k with
  | nil => rw [hcs] at hnode; cases hnode
  | cons c cs =>
    rw [hcs] at hnode hspeaks
    have hwithin : ∀ c' ∈ c :: cs, c'.Within node.declarations := by
      intro c' hc'
      refine (sound_of_mem_siblings (hcs ▸ hc')).within h hsound fun i hi => ?_
      cases hnode
      exact Node.declares_foldl_combine.2 ⟨c', hc', hi⟩
    rw [List.forall_mem_cons] at hspeaks hwithin
    have hverdict := Node.speaks_foldl_combine habstract (.inr hspeaks.1) hspeaks.2 hwithin.1
      hwithin.2
    obtain rfl := Option.some.inj hnode
    exact hverdict

/-! ### Verdicts -/

/-- The ways in which a conflict of the declarations is reported. -/
inductive Surfaces (p : Pool) (t : TypeDecl) (k : FamilyKey) (ds : List Method) : Prop
  /-- The family of the superclass is ambiguous. -/
  | superclass {c : Node} (hc : (GraphScope.hierarchy.compile p t).superGraph.get? k = some c)
      (hsort : c.sort = .ambiguous)
  /-- The superclass does not bring the family in, and the first interface to do so says that it
  is ambiguous. -/
  | first {c : Node} {cs : List Node}
      (hsuper : (GraphScope.hierarchy.compile p t).superGraph.get? k = none)
      (hc : p.siblings t k = c :: cs) (hsort : c.sort = .ambiguous)
  /-- The superclass does not bring the family in, and the representative of an interface is
  opposed to the one of those before it. -/
  | opposed {c acc : Node} {before after : List Node}
      (hsuper : (GraphScope.hierarchy.compile p t).superGraph.get? k = none)
      (hc : p.siblings t k = before ++ c :: after) (hacc : Node.combineAll p before = some acc)
      (hopposed : p.Opposed acc.representative c.representative)
  /-- The superclass does not bring the family in, and the representatives tell all. -/
  | compared (hsuper : (GraphScope.hierarchy.compile p t).superGraph.get? k = none)
      (hspeaks : ∀ c ∈ p.siblings t k, c.Speaks p) (habstract : p.KeepsAbstract ds)

/-- A conflict is reported if it surfaces. -/
theorem Surfaces.sort_eq (h : p.WellFormed t)
    (hnode : (GraphScope.hierarchy.compile p t).graph.get? k = some node)
    (hown : ∀ m ∈ t.methods, m.isVirtual = true → m.familyKey ≠ k)
    (hconflict : p.Conflicted node.declarations) (hs : p.Surfaces t k node.declarations) :
    node.sort = .ambiguous := by
  have hsound := p.invariant_sound.families _ _ _ t k node hnode
  rw [get?_compile_of_undeclared hown] at hnode
  cases hs with
  | superclass hc hsort =>
    rw [hc] at hnode
    exact (Node.sort_of_merge_absorb hnode).trans hsort
  | @first c cs hsuper hc hsort =>
    rw [hsuper, Option.merge_none_left, hc] at hnode
    cases hnode
    exact Node.sort_foldl_combine hsort cs
  | @opposed c acc before after hsuper hc hacc hopposed =>
    rw [hsuper, Option.merge_none_left, hc] at hnode
    cases before with
    | nil => cases hacc
    | cons c' before =>
      cases hacc
      rw [List.cons_append] at hnode
      cases hnode
      rw [List.foldl_append, List.foldl_cons]
      exact Node.sort_foldl_combine (Node.sort_combine_of_opposed hopposed) after
  | compared hsuper hspeaks habstract =>
    rw [hsuper, Option.merge_none_left] at hnode
    refine (ambiguous_or_speaks h hsound hnode hspeaks habstract).resolve_right fun hall => ?_
    exact hall.not_conflicted habstract (hsound.within h hsound fun _ hi => hi).representative
      hconflict

/-- There are no other ways. -/
theorem surfaces_of_sort_eq (hnode : (GraphScope.hierarchy.compile p t).graph.get? k = some node)
    (hown : ∀ m ∈ t.methods, m.isVirtual = true → m.familyKey ≠ k)
    (hsort : node.sort = .ambiguous) : p.Surfaces t k node.declarations := by
  rw [get?_compile_of_undeclared hown] at hnode
  cases hsuper : (GraphScope.hierarchy.compile p t).superGraph.get? k with
  | some c =>
    rw [hsuper] at hnode
    exact .superclass hsuper ((Node.sort_of_merge_absorb hnode).symm.trans hsort)
  | none =>
    rw [hsuper, Option.merge_none_left] at hnode
    cases hcs : p.siblings t k with
    | nil => rw [hcs] at hnode; cases hnode
    | cons c cs =>
      rw [hcs] at hnode
      cases hnode
      rcases Node.exists_of_sort_foldl_combine hsort with
        hsort | ⟨before, d, after, rfl, hopposed⟩
      · exact .first hsuper hcs hsort
      · have hacc : Node.combineAll p (c :: before) =
            some (before.foldl (Node.combine p) c) := rfl
        have hsiblings : p.siblings t k = (c :: before) ++ d :: after := hcs
        exact .opposed hsuper hsiblings hacc hopposed

end Pool

namespace GraphScope

/-- **Conflicts are reported** exactly if they surface, and then no super call goes to the
family. -/
theorem conflicts_surface {p : Pool} {t : TypeDecl} {k : FamilyKey} {node : Node}
    (h : p.WellFormed t) (hnode : (hierarchy.compile p t).graph.get? k = some node)
    (hown : ∀ m ∈ t.methods, m.isVirtual = true → m.familyKey ≠ k)
    (hconflict : p.Conflicted node.declarations) :
    (node.sort = .ambiguous ↔ p.Surfaces t k node.declarations) ∧
      (node.sort = .ambiguous → ∀ (target : Target) (s : Signature),
        target.superGraph.locate? s = some node → target.methodCall? s = none) := by
  refine ⟨⟨Pool.surfaces_of_sort_eq hnode hown, (·.sort_eq h hnode hown hconflict)⟩, ?_⟩
  intro hsort target s hlocate
  rw [Target.methodCall?, hlocate]
  cases target.superName? <;> simp [hsort, NodeSort.isUnique]

/-- Two interfaces have code for texts, one of them for what its variable stands for. -/
theorem conflicts_surface_generic :
    let run (owner : String) (type : TypeRef) : Method :=
      { owner, name := "run", modifiers := .of [.accPublic], parameters := [{ type }] }
    let text : TypeRef := .named "java.lang.String"
    let interface (name : String) (supertypes : List TypeRef) (methods : List Method) : TypeDecl :=
      { name, modifiers := .of [.accPublic, .accInterface, .accAbstract], superclass := none
        interfaces := supertypes, methods }
    let task := { interface "a.Task" [] [run "a.Task" (.typeVar "E" .object)] with
      typeVariables := [{ symbol := "E" }] }
    let job := interface "a.Job" [.parameterized "a.Task" [text]] []
    let step := interface "a.Step" [] [run "a.Step" text]
    let p := Pool.empty.registerAll [task, job, step]
    let t : TypeDecl :=
      { name := "a.Both", modifiers := .of [.accPublic], superclass := none
        interfaces := [.named "a.Job", .named "a.Step"] }
    ∃ node, (hierarchy.compile p t).graph.get? ⟨"run", [text]⟩ = some node ∧
      node.sort = .ambiguous ∧ ∀ (target : Target) (s : Signature),
        target.superGraph.locate? s = some node → target.methodCall? s = none := by
  intro run text interface task job step p t
  have hsome : ((hierarchy.compile p t).graph.get? ⟨"run", [text]⟩).isSome = true := by
    decide +kernel
  have hdeclarations : ∀ node ∈ (hierarchy.compile p t).graph.get? ⟨"run", [text]⟩,
      p.Conflicted node.declarations ∧ p.KeepsAbstract node.declarations := by decide +kernel
  obtain ⟨node, hnode⟩ := Option.isSome_iff_exists.1 hsome
  obtain ⟨hconflict, habstract⟩ := hdeclarations node hnode
  have hwell : p.WellFormed t := by
    refine ⟨by decide +kernel, by decide +kernel, by decide +kernel, by decide +kernel,
      by decide +kernel, ?_⟩
    exact ⟨fun name => if name = "a.Both" then 2 else if name = "a.Job" then 1 else 0,
      by decide +kernel⟩
  obtain ⟨hiff, hcall⟩ := conflicts_surface hwell hnode (by decide +kernel) hconflict
  have hsort := hiff.2 (.compared (by decide +kernel) (by decide +kernel) habstract)
  exact ⟨node, hnode, hsort, hcall hsort⟩

/-- A conflict that one interface comes with is overlooked behind an interface that represents the
same family, and noticed in front of it. -/
theorem conflicts_are_overlooked :
    let run (owner : String) : Method := { owner, name := "run", modifiers := .of [.accPublic] }
    let interface (name : String) (supertypes : List TypeRef) (methods : List Method) : TypeDecl :=
      { name, modifiers := .of [.accPublic, .accInterface, .accAbstract], superclass := none
        interfaces := supertypes, methods }
    let left := interface "a.Left" [] [run "a.Left"]
    let right := interface "a.Right" [] [run "a.Right"]
    let both := interface "a.Both" [.named "a.Left", .named "a.Right"] []
    let p := Pool.empty.registerAll [left, right, both]
    let t : TypeDecl :=
      { name := "a.Sub", modifiers := .of [.accPublic], superclass := none
        interfaces := [.named "a.Left", .named "a.Both"] }
    let sorts (t : TypeDecl) : List (Bool × NodeSort) :=
      (hierarchy.compile p t).graph.values.map fun node =>
        (decide (p.Conflicted node.declarations), node.sort)
    p.WellFormed t ∧ sorts t = [(true, .resolved)] ∧
      sorts { t with interfaces := t.interfaces.reverse } = [(true, .ambiguous)] := by
  refine ⟨⟨by decide +kernel, by decide +kernel, by decide +kernel, by decide +kernel,
    by decide +kernel, ?_⟩, by decide +kernel, by decide +kernel⟩
  exact ⟨fun name => if name = "a.Sub" then 2 else if name = "a.Both" then 1 else 0,
    by decide +kernel⟩

end GraphScope

end ClassForge
