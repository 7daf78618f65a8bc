import ClassForge.Proofs.Conflicts
import ClassForge.Proofs.Subtyping
import ClassForge.Proofs.SuperCalls

/-!
# Super calls and what the caller may see

A super call is made by code of a type, and the member that it names belongs to another type. For
constructors the access rules are asked before the call is made. For methods they are not: the call
goes to whatever represents the family in the superclass, and a family keeps the declarations of all
packages.

What is never reached is a private method, because families consist of virtual methods. And a
protected method can be reached by right: its owner was found on the way up from the type, around
the type's own name, so that the type is a subtype of the owner (`Pool.isSubtype_of_declared`). That
takes methods that name the type that declares them, and interfaces without a superclass. What is
left is a method without a visibility flag that belongs to another package. The call of such a
method is answered like any other, and the virtual machine refuses it.

## Main results

* `Pool.exists_of_declared` — declarations of families come from around the path to them
* `Target.super_calls_reach_visible` — which super calls reach a member that the type may see
* `Target.super_call_reaches_hidden` — one that does not
-/

namespace ClassForge

/-! ### Where declarations come from -/

namespace Pool

variable {p : Pool} {t u : TypeDecl} {k : FamilyKey} {i : MethodIdentity}

theorem ReachesOutside.mono {names path : List String} (h : p.ReachesOutside path t u)
    (hnames : names ⊆ path) : p.ReachesOutside names t u :=
  Relation.ReflTransGen.mono (fun _ _ h => ⟨h.1, fun hmem => h.2 (hnames hmem)⟩) _ _ h

/-- The end of a way around some names has another name, if the start has. -/
theorem ReachesOutside.name_notMem {names : List String} (h : p.ReachesOutside names t u)
    (ht : t.name ∉ names) : u.name ∉ names := by
  cases h with
  | refl => exact ht
  | tail _ hu => exact hu.2

/-- **Declarations come from around the path** that leads to a family: a type of another name, which
is reached by ways that come back to none of the names, declares them. -/
theorem exists_of_declared {n : Nat} {path : List String} {b : Bindings}
    (h : Declared ((p.families n path b t).get? k) i) :
    t.name ∉ path ∧ ∃ u, p.ReachesOutside path t u ∧ ∃ m ∈ u.methods, m.identity = i := by
  induction n generalizing path b t with
  | zero => simp [families] at h
  | succ n ih =>
    by_cases ht : t.name ∈ path
    · simp [families_of_mem ht] at h
    refine ⟨ht, ?_⟩
    rcases (declared_families ht).1 h with ⟨r, hr, habove⟩ | ⟨m, hm, -, rfl⟩
    · cases hv : p.resolve? r with
      | none => simp [familiesAbove, supertype?_eq, hv] at habove
      | some v =>
        rw [familiesAbove_of_resolve? hv] at habove
        obtain ⟨hname, u, hu, hm⟩ := ih habove
        rw [List.mem_cons, not_or] at hname
        have hstep : p.ReachesOutside path t v := .single ⟨⟨r, hr, hv⟩, hname.2⟩
        exact ⟨u, hstep.trans (hu.mono (List.subset_cons_self _ _)), hm⟩
    · exact ⟨t, .refl, m, (List.mem_filter.1 hm).1, rfl⟩

/-- **A type is a subtype of what declares its families**, if no interface that it meets has a
superclass. -/
theorem isSubtype_of_reachesOutside (hi : ∀ v, p.Reaches t v → ∀ r ∈ v.interfaces, ∀ w,
    p.resolve? r = some w → w.superclass = none) (h : p.ReachesOutside [t.name] t u) :
    p.isSubtype t u.name = true := by
  have hlisted : (p.hierarchy t).any (·.name = u.name) = true :=
    List.any_eq_true.2 ⟨u, mem_hierarchy_of_reachesOutside hi h, decide_eq_true rfl⟩
  simp [isSubtype, hlisted]

end Pool

theorem MethodGraph.exists_of_locate? {g : MethodGraph} {s : Signature} {node : Node}
    (h : g.locate? s = some node) : ∃ k, g.get? k = some node := by
  unfold locate? at h
  split at h
  · rename_i found hfound
    obtain rfl := Option.some.inj h
    exact ⟨_, hfound⟩
  · exact (OrderedMap.mem_values_iff _).1 (List.mem_of_find?_eq_some h)

namespace GraphScope

variable {p : Pool} {t : TypeDecl} {k : FamilyKey} {node : Node}

/-- **The families of the superclass** are represented by virtual methods, of which the pool knows
the declaring types; these are reached from the type around its own name. -/
theorem exists_declarer (h : (hierarchy.compile p t).superGraph.get? k = some node) :
    node.representative.isVirtual = true ∧ ∃ u, p.Knows u ∧ u.name ≠ t.name ∧
      p.ReachesOutside [t.name] t u ∧ ∃ m ∈ u.methods,
        m.identity = node.representative.identity := by
  rw [Pool.get?_superGraph] at h
  obtain ⟨r, hr, hnode⟩ := Option.bind_eq_some_iff.1 h
  obtain ⟨u, hu, hnode⟩ := Pool.exists_of_get?_familiesAbove hnode
  have hsound : node.Sound p u k := p.invariant_sound.families _ _ _ u k node hnode
  obtain ⟨hname, v, hv, m, hm, hid⟩ := Pool.exists_of_declared ⟨node, hnode, hsound.declared⟩
  have hreaches : p.ReachesOutside [t.name] t v :=
    hv.head ⟨Pool.refers_of_superclass hr hu, hname⟩
  refine ⟨(hsound.inherited _ List.mem_cons_self).1, v, ?_, ?_, hreaches, m, hm, hid⟩
  · exact hv.reaches.knows (Pool.knows_of_resolve? hu)
  · simpa using hv.name_notMem hname

end GraphScope

namespace Target

variable {p : Pool} {t : TypeDecl} {s : Signature} {call : SuperCall}

/-- **Which super calls reach a member that the type may see.** The constructors always are. A
method is never private, and so it is visible if it is public, belongs to the type's package, or is
protected in a supertype. Where methods name the types that declare them, and interfaces have no
superclass, all protected ones are, and only the methods without a visibility flag of other packages
are not. -/
theorem super_calls_reach_visible (h : (ofHierarchy p t).superCall? s = some call) :
    (s.name = constructorName → call.method.isVisibleTo t p = true) ∧
      (s.name ≠ constructorName →
        call.method.isVirtual = true ∧
        (call.method.isVisibleTo t p = true ↔
          call.method.isPublic = true ∨ call.method.owner = t.name ∨
            (call.method.isProtected = true ∧ p.isSubtype t call.method.owner = true) ∨
              BinaryName.package call.method.owner = t.package) ∧
        ((∀ u ∈ p.types, ∀ m ∈ u.methods, m.owner = u.name) →
          (∀ u ∈ t :: p.types, ∀ r ∈ u.interfaces, ∀ v ∈ p.resolve? r, v.superclass = none) →
          (call.method.isVisibleTo t p = true ↔
            call.method.isPublic = true ∨ call.method.isProtected = true ∨
              BinaryName.package call.method.owner = t.package))) := by
  obtain ⟨c, owner, rfl, -, -, hfound⟩ := superCall?_special rfl h
  rcases hfound with ⟨hname, -, -, hvisible, -⟩ | ⟨hname, node, hnode, rfl⟩
  · exact ⟨fun _ => hvisible, fun hother => absurd hname hother⟩
  refine ⟨fun hconstructor => absurd hconstructor hname, fun _ => ?_⟩
  obtain ⟨k, hk⟩ := MethodGraph.exists_of_locate? hnode
  obtain ⟨hvirtual, u, hknown, hother, hreaches, m, hm, hid⟩ := GraphScope.exists_declarer hk
  have hprivate : node.representative.isPrivate = false := by
    simp only [Method.isVirtual, Bool.and_eq_true, Bool.not_eq_true'] at hvirtual
    exact hvirtual.2
  have hvisible : node.representative.isVisibleTo t p = true ↔ _ :=
    Pool.isMemberVisible_iff hprivate
  refine ⟨hvirtual, hvisible, fun howner hinterfaces => hvisible.trans ?_⟩
  have hdeclared : node.representative.owner = u.name :=
    (congrArg MethodIdentity.owner hid).symm.trans (howner u hknown.mem m hm)
  have hrootless (v : TypeDecl) (hv : p.Reaches t v) (r : TypeRef) (hr : r ∈ v.interfaces)
      (w : TypeDecl) (hw : p.resolve? r = some w) : w.superclass = none :=
    hinterfaces v (Pool.WellFormed.mem_of_reaches List.mem_cons_self hv) r hr w hw
  have hsubtype : p.isSubtype t node.representative.owner = true := by
    rw [hdeclared]
    exact Pool.isSubtype_of_reachesOutside hrootless hreaches
  have hforeign : node.representative.owner ≠ t.name := hdeclared ▸ hother
  simp [hsubtype, hforeign, Method.isPublic, Method.isProtected]

/-- A protected method of a class two levels up, in another package. -/
theorem super_calls_reach_visible_protected :
    let declare (name superclass : String) (methods : List Method) : TypeDecl :=
      { name, modifiers := .of [.accPublic], superclass := some (.named superclass), methods }
    let run : Method := { owner := "a.Base", name := "run", modifiers := .of [.accProtected] }
    let p := (Pool.empty.register (declare "a.Base" "java.lang.Object" [run])).register
      (declare "c.Middle" "a.Base" [])
    let sub := declare "b.Sub" "c.Middle" []
    ∃ call, (ofHierarchy p sub).superCall? run.signature = some call ∧ call.method = run ∧
      call.method.isVisibleTo sub p = true := by
  intro declare run p sub
  have answered : ((ofHierarchy p sub).superCall? run.signature).map (·.method) = some run := by
    decide +kernel
  obtain ⟨call, hcall, hrun⟩ := Option.map_eq_some_iff.1 answered
  obtain ⟨-, -, hvisible⟩ := (super_calls_reach_visible hcall).2 (by decide)
  exact ⟨call, hcall, hrun, (hvisible (by decide) (by decide)).2 (.inr (.inl (hrun ▸ by decide)))⟩

/-- A method without a visibility flag is called from another package. -/
theorem super_call_reaches_hidden :
    let declare (name superclass : String) (methods : List Method) : TypeDecl :=
      { name, modifiers := .of [.accPublic], superclass := some (.named superclass), methods }
    let run : Method := { owner := "a.Base", name := "run", modifiers := .empty }
    let p := Pool.empty.register (declare "a.Base" "java.lang.Object" [run])
    let sub := declare "b.Sub" "a.Base" []
    ∃ call, (ofHierarchy p sub).superCall? run.signature = some call ∧ call.method = run ∧
      call.method.isVisibleTo sub p = false := by
  intro declare run p sub
  have answered : ((ofHierarchy p sub).superCall? run.signature).map (·.method) = some run := by
    decide +kernel
  obtain ⟨call, hcall, hrun⟩ := Option.map_eq_some_iff.1 answered
  exact ⟨call, hcall, hrun, hrun ▸ by decide⟩

end Target

end ClassForge
