import ClassForge.Pool.Access
import ClassForge.Proofs.HierarchyOrder

/-!
# Where inheritance composes

Whether a type inherits from a name is asked of its hierarchy, which lists known types only. The
superclass that the type itself refers to counts as well, known or not. A superclass that the pool
does not know is therefore inherited from by the class that refers to it, and by no class below that
one: the types that a superclass leads to are passed on, the name at which the chain ends is not.

Besides that, what a supertype inherits is inherited unless the hierarchy does not look for it. It
does not look for superclasses of what it lists as an interface, and it takes the declaration that
it starts from in place of what the pool has under the same name. For interfaces without a
superclass, and a type that is not in the pool or the one that is, neither makes a difference, and
the name of an unknown superclass is all that is lost.

## Main definitions

* `Pool.CoversInterfaces`, `Pool.CoversOwnName`, `Pool.CoversChain` — a type inherits from what is
  referred to by its interfaces, by the pool's type of its name, at the end of its chain

## Main results

* `Pool.isSubtype_of_reaches` — what is reached from a supertype is a supertype
* `Pool.subtyping_composes_iff` — when supertypes of supertypes are supertypes
* `Pool.subtyping_stops_at_unknown` — a superclass that is not passed on
-/

namespace ClassForge.Pool

variable {p : Pool} {t u v : TypeDecl} {name : String}

/-! ### Supertypes -/

theorem isSubtype_iff : p.isSubtype t name = true ↔
    t.superName? = some name ∨ ∃ u ∈ p.hierarchy t, u.name = name := by
  have hself : t.name = name → ∃ u ∈ p.hierarchy t, u.name = name := fun h =>
    ⟨t, List.mem_cons_self, h⟩
  simp only [isSubtype, Bool.or_eq_true, decide_eq_true_eq, List.any_eq_true]
  rw [or_iff_right_of_imp hself, or_comm]

theorem isSubtype_of_mem_hierarchy (h : u ∈ p.hierarchy t) : p.isSubtype t u.name = true :=
  isSubtype_iff.2 (.inr ⟨u, h, rfl⟩)

theorem isSubtype_of_superName? (h : t.superName? = some name) : p.isSubtype t name = true :=
  isSubtype_iff.2 (.inl h)

theorem eq_or_knows_of_mem_hierarchy (h : u ∈ p.hierarchy t) : u = t ∨ p.Knows u :=
  (reachesOutside_of_mem_hierarchy h).reaches.eq_or_knows

/-- A type inherits from what its references lead to. -/
theorem isSubtype_of_refers (h : p.Refers t u) : p.isSubtype t u.name = true := by
  obtain ⟨r, hr, hu⟩ := h
  rcases List.mem_append.1 hr with hr | hr
  · exact isSubtype_of_superName? (superName?_of_resolve? (Option.mem_toList.1 hr) hu)
  · by_cases hname : u.name = t.name
    · rw [hname, isSubtype_self]
    · exact isSubtype_of_mem_hierarchy (mem_hierarchy_of_interface hname List.mem_cons_self hr hu)

/-- Known supertypes of other names are listed. -/
theorem isSubtype_iff_of_knows (hu : p.Knows u) :
    p.isSubtype t u.name = true ↔ u.name = t.name ∨ u ∈ p.hierarchy t := by
  constructor
  · intro h
    rcases isSubtype_iff.1 h with hsuper | ⟨v, hv, hname⟩
    · refine or_iff_not_imp_left.2 fun hname => ?_
      obtain ⟨r, hr, hraw⟩ := Option.bind_eq_some_iff.1 hsuper
      refine List.mem_append_left _ (mem_superclassChain hname List.mem_cons_self hr ?_)
      exact Option.bind_eq_some_iff.2 ⟨_, hraw, hu⟩
    · rcases eq_or_knows_of_mem_hierarchy hv with rfl | hknown
      · exact .inl hname.symm
      · exact .inr (hu.eq hknown hname.symm ▸ hv)
  · rintro (hname | hlisted)
    · rw [hname, isSubtype_self]
    · exact isSubtype_of_mem_hierarchy hlisted

/-- An unknown name is inherited from as the superclass only. -/
theorem isSubtype_iff_of_unknown (hname : p.find? name = none) :
    p.isSubtype t name = true ↔ t.name = name ∨ t.superName? = some name := by
  rw [isSubtype_iff, or_comm]
  refine or_congr_left ⟨?_, fun h => ⟨t, List.mem_cons_self, h⟩⟩
  rintro ⟨u, hu, rfl⟩
  rcases eq_or_knows_of_mem_hierarchy hu with rfl | hknown
  · rfl
  · cases hname.symm.trans hknown

/-! ### Supertypes of supertypes -/

/-- What is listed as an interface has no superclass from which the type does not inherit. -/
def CoversInterfaces (p : Pool) (t : TypeDecl) : Prop :=
  ∀ u ∈ p.interfacesBehind t, ∀ name, u.superName? = some name → p.isSubtype t name = true

/-- What the pool has under the name of the type refers to no supertype from which the type does
not inherit. -/
def CoversOwnName (p : Pool) (t : TypeDecl) : Prop :=
  ∀ u, p.find? t.name = some u →
    (∀ name, u.superName? = some name → p.isSubtype t name = true) ∧
      ∀ v, p.Mentions u v → p.isSubtype t v.name = true

/-- No superclass of the type has an unknown superclass from which the type does not inherit. -/
def CoversChain (p : Pool) (t : TypeDecl) : Prop :=
  ∀ u ∈ p.superclassChain t, ∀ name, u.superName? = some name → p.find? name = none →
    t.name = name ∨ t.superName? = some name

theorem CoversChain.of_contains
    (h : ∀ u ∈ p.superclassChain t, ∀ name ∈ u.superName?, p.contains name = true) :
    p.CoversChain t := by
  intro u hu name hname hunknown
  have := h u hu name hname
  rw [contains, hunknown] at this
  cases this

theorem CoversInterfaces.of_superclass_eq_none
    (h : ∀ u ∈ p.interfacesBehind t, u.superclass = none) : p.CoversInterfaces t := by
  intro u hu name hname
  rw [TypeDecl.superName?, h u hu] at hname
  cases hname

/-- The pool's own types cover their names, and so do types of names that it does not know. -/
theorem CoversOwnName.of_find? (h : ∀ u, p.find? t.name = some u → u = t) :
    p.CoversOwnName t := by
  intro u hu
  obtain rfl := h u hu
  exact ⟨fun _ => isSubtype_of_superName?,
    fun v ⟨r, hr, hv⟩ => isSubtype_of_refers (refers_of_interface hr hv)⟩

/-- **One reference up from a supertype** there is a supertype. -/
theorem isSubtype_of_isSubtype_of_refers (hi : p.CoversInterfaces t) (hn : p.CoversOwnName t)
    (hu : p.Knows u) (htu : p.isSubtype t u.name = true) (h : p.Refers u v) :
    p.isSubtype t v.name = true := by
  obtain ⟨r, hr, hv⟩ := h
  rcases (isSubtype_iff_of_knows hu).1 htu with hname | hlisted
  · -- `u` has the name of `t`, and its references need not be those of `t`
    obtain ⟨hsuper, hmentions⟩ := hn u (hname ▸ hu)
    rcases List.mem_append.1 hr with hr | hr
    · exact hsuper _ (superName?_of_resolve? (Option.mem_toList.1 hr) hv)
    · exact hmentions v ⟨r, hr, hv⟩
  by_cases hname : v.name = t.name
  · rw [hname, isSubtype_self]
  rcases List.mem_append.1 hr with hr | hr
  · rw [Option.mem_toList] at hr
    rcases List.mem_append.1 hlisted with hclass | hinterface
    · exact isSubtype_of_mem_hierarchy
        (List.mem_append_left _ (mem_superclassChain hname hclass hr hv))
    · exact hi u hinterface _ (superName?_of_resolve? hr hv)
  · exact isSubtype_of_mem_hierarchy (mem_hierarchy_of_interface hname hlisted hr hv)

/-- **What is reached from a supertype** is a supertype. -/
theorem isSubtype_of_reaches (hi : p.CoversInterfaces t) (hn : p.CoversOwnName t)
    (hu : p.Knows u) (htu : p.isSubtype t u.name = true) (h : p.Reaches u v) :
    p.isSubtype t v.name = true := by
  induction h with
  | refl => exact htu
  | tail hreach hstep ih =>
    exact isSubtype_of_isSubtype_of_refers hi hn (Reaches.knows hreach hu) ih hstep

/-- Inheritance from known types is passed on. -/
theorem isSubtype_of_isSubtype (hi : p.CoversInterfaces t) (hn : p.CoversOwnName t)
    (hu : p.Knows u) (htu : p.isSubtype t u.name = true) (hv : p.Knows v)
    (huv : p.isSubtype u v.name = true) : p.isSubtype t v.name = true := by
  rcases (isSubtype_iff_of_knows hv).1 huv with hname | hlisted
  · rwa [hname]
  · exact isSubtype_of_reaches hi hn hu htu (reachesOutside_of_mem_hierarchy hlisted).reaches

/-- Who may use a member that is not private. -/
theorem isMemberVisible_iff {owner : String} {m : Modifiers} (hm : m.has .accPrivate = false) :
    p.isMemberVisible owner m t = true ↔ m.has .accPublic = true ∨ owner = t.name ∨
      (m.has .accProtected = true ∧ p.isSubtype t owner = true) ∨
        BinaryName.package owner = t.package := by
  unfold isMemberVisible
  split
  · rename_i h
    rw [Bool.or_eq_true, decide_eq_true_eq] at h
    exact iff_of_true rfl (h.imp id .inl)
  · rename_i h
    rw [Bool.or_eq_true, decide_eq_true_eq, not_or] at h
    simp [h.1, h.2, hm]

/-- Inheritance composes: the supertypes of a known supertype are supertypes. -/
def Composes (p : Pool) (t : TypeDecl) : Prop :=
  ∀ u name, p.Knows u → p.isSubtype t u.name = true → p.isSubtype u name = true →
    p.isSubtype t name = true

/-- Of the supertypes of a known supertype only unknown names can be lost. -/
theorem isSubtype_iff_of_isSubtype (hi : p.CoversInterfaces t) (hn : p.CoversOwnName t)
    (hu : p.Knows u) (htu : p.isSubtype t u.name = true) (hname : p.isSubtype u name = true) :
    p.isSubtype t name = true ↔
      p.contains name = true ∨ t.name = name ∨ t.superName? = some name := by
  rw [contains]
  cases hv : p.find? name with
  | none => simpa using isSubtype_iff_of_unknown hv
  | some v =>
    obtain rfl := name_of_find? hv
    simpa using isSubtype_of_isSubtype hi hn hu htu hv hname

theorem Composes.covers (h : p.Composes t) :
    p.CoversChain t ∧ p.CoversInterfaces t ∧ p.CoversOwnName t := by
  have hlisted {u : TypeDecl} {name : String} (hu : u ∈ p.hierarchy t)
      (hname : u.superName? = some name) : p.isSubtype t name = true := by
    rcases eq_or_knows_of_mem_hierarchy hu with rfl | hknown
    · exact isSubtype_of_superName? hname
    · exact h u name hknown (isSubtype_of_mem_hierarchy hu) (isSubtype_of_superName? hname)
  refine ⟨fun u hu name hname hunknown => ?_, fun u hu name hname => ?_, fun u hu => ?_⟩
  · refine (isSubtype_iff_of_unknown hunknown).1 (hlisted ?_ hname)
    exact List.mem_append_left _ (List.mem_cons_of_mem _ hu)
  · exact hlisted (List.mem_append_right _ hu) hname
  · have htu : p.isSubtype t u.name = true := by rw [name_of_find? hu, isSubtype_self]
    have habove (name : String) := h u name (knows_of_find? hu) htu
    exact ⟨fun name hname => habove name (isSubtype_of_superName? hname),
      fun v ⟨r, hr, hv⟩ => habove v.name (isSubtype_of_refers (refers_of_interface hr hv))⟩

theorem Composes.of_covers (hc : p.CoversChain t) (hi : p.CoversInterfaces t)
    (hn : p.CoversOwnName t) : p.Composes t := by
  intro u name hu htu hname
  cases hv : p.find? name with
  | some v =>
    obtain rfl := name_of_find? hv
    exact isSubtype_of_isSubtype hi hn hu htu hv hname
  | none =>
    rcases (isSubtype_iff_of_unknown hv).1 hname with rfl | hsuper
    · cases hv.symm.trans hu
    -- an unknown superclass of `u`, which is lost unless the place of `u` makes up for it
    rcases (isSubtype_iff_of_knows hu).1 htu with hself | hlisted
    · exact (hn u (hself ▸ hu)).1 name hsuper
    rcases List.mem_append.1 hlisted with hclass | hinterface
    · rcases List.mem_cons.1 hclass with rfl | hchain
      · exact isSubtype_of_superName? hsuper
      · exact (isSubtype_iff_of_unknown hv).2 (hc u hchain name hsuper hv)
    · exact hi u hinterface name hsuper

/-- **Where inheritance composes.** A type inherits from the supertypes of its known supertypes
exactly if no superclass of it has an unknown superclass, no interface of it has a superclass, and
the pool has nothing else under its own name, save where it inherits from those names anyway. If
only the first fails, the unknown names are all that is lost. Where inheritance composes, a
protected member that a known supertype has by inheritance is visible. -/
theorem subtyping_composes_iff (p : Pool) (t : TypeDecl) :
    (p.Composes t ↔ p.CoversChain t ∧ p.CoversInterfaces t ∧ p.CoversOwnName t) ∧
      (p.CoversInterfaces t → p.CoversOwnName t → ∀ u name, p.Knows u →
        p.isSubtype t u.name = true → p.isSubtype u name = true →
          (p.isSubtype t name = true ↔
            p.contains name = true ∨ t.name = name ∨ t.superName? = some name)) ∧
      (p.Composes t → ∀ u owner m, p.Knows u → p.isSubtype t u.name = true →
        p.isSubtype u owner = true → m.has .accProtected = true → m.has .accPrivate = false →
          p.isMemberVisible owner m t = true) := by
  refine ⟨⟨Composes.covers, fun ⟨hc, hi, hn⟩ => .of_covers hc hi hn⟩, ?_, ?_⟩
  · exact fun hi hn _ _ => isSubtype_iff_of_isSubtype hi hn
  · intro h u owner m hu htu howner hprotected hprivate
    have hinherits := h u owner hu htu howner
    exact (isMemberVisible_iff hprivate).2 (.inr (.inr (.inl ⟨hprotected, hinherits⟩)))

/-- Two levels of classes, the upper of which implements an interface that extends another. -/
theorem subtyping_composes_known :
    let declare (name : String) (superclass interface : Option TypeRef) : TypeDecl :=
      { name, modifiers := .of [.accPublic], superclass, interfaces := interface.toList }
    let base := declare "a.Base" none (some (.named "a.Task"))
    let middle := declare "a.Middle" (some (.named "a.Base")) none
    let p := Pool.empty.registerAll [declare "a.Step" none none,
      declare "a.Task" none (some (.named "a.Step")), base, middle]
    let leaf := declare "b.Leaf" (some (.named "a.Middle")) none
    p.Composes leaf ∧ p.isMemberVisible "a.Base" (.of [.accProtected]) leaf = true := by
  intro declare base middle p leaf
  obtain ⟨hcomposes, -, hvisible⟩ := subtyping_composes_iff p leaf
  have hleaf : p.Composes leaf := by
    refine hcomposes.2 ⟨.of_contains ?_, .of_superclass_eq_none ?_, .of_find? fun u hu => ?_⟩
    · decide +kernel
    · decide +kernel
    · have hnone : p.find? leaf.name = none := by decide +kernel
      cases hnone.symm.trans hu
  refine ⟨hleaf, hvisible hleaf middle "a.Base" _ ?_ ?_ ?_ ?_ ?_⟩
  all_goals decide +kernel

/-- A class inherits from an unknown superclass, and what extends the class does not. -/
theorem subtyping_stops_at_unknown :
    let declare (name superclass : String) : TypeDecl :=
      { name, modifiers := .of [.accPublic], superclass := some (.named superclass) }
    let middle := declare "a.Middle" "x.Base"
    let leaf := declare "b.Leaf" "a.Middle"
    let p := (Pool.empty.register middle).register leaf
    p.Knows middle ∧ p.Knows leaf ∧ p.isSubtype leaf middle.name = true ∧
      p.isSubtype middle "x.Base" = true ∧ p.isSubtype leaf "x.Base" = false ∧
        p.isMemberVisible "x.Base" (.of [.accProtected]) middle = true ∧
          p.isMemberVisible "x.Base" (.of [.accProtected]) leaf = false := by
  intro declare middle leaf p
  decide +kernel

end ClassForge.Pool
