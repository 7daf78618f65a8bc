import ClassForge.Proofs.Conflicts
import Mathlib.Data.Finset.Max

/-!
# Ambiguity is founded

A family is called ambiguous at the moment two siblings clash, and the verdict stays whatever comes
later. So there always are two declarations that clash, in whatever order the interfaces are
written: none of the steps makes a clash up, and the declarations of a type do not depend on the
order of its interfaces.

But a later sibling may settle the clash: it overrides both declarations, or it takes the code of
one away by declaring the method abstract again. In a well-formed pool that is all that can happen.
A clash that is not settled can be followed down to declarations that nothing overrides, and these
still clash.

## Main definitions

* `Pool.Settled` — another declaration does away with a clash

## Main results

* `Pool.conflicted_iff` — conflicts are clashes that are not settled
* `Pool.invariant_founded` — ambiguous nodes have a clash
* `GraphScope.ambiguity_is_founded` — what ambiguity says in any order of the interfaces
-/

namespace ClassForge

namespace Pool

variable {p : Pool} {t u : TypeDecl} {ds : List Method} {m x y : Method} {a : String}

/-! ### Clashes that are settled -/

/-- One of the declarations overrides both, or it overrides one that has code and has none. -/
def Settled (p : Pool) (ds : List Method) (x y : Method) : Prop :=
  ∃ d ∈ ds, (p.Overrides d x ∧ p.Overrides d y) ∨
    d.isAbstract = true ∧
      (x.isAbstract = false ∧ p.Overrides d x ∨ y.isAbstract = false ∧ p.Overrides d y)

instance (p : Pool) (ds : List Method) (x y : Method) : Decidable (p.Settled ds x y) :=
  inferInstanceAs (Decidable (∃ d ∈ ds, _))

/-- None of the clashes is settled. -/
def Unsettled (p : Pool) (ds : List Method) : Prop :=
  ∀ x ∈ ds, ∀ y ∈ ds, p.Clash x y → ¬p.Settled ds x y

instance (p : Pool) (ds : List Method) : Decidable (p.Unsettled ds) :=
  inferInstanceAs (Decidable (∀ x ∈ ds, _))

theorem Maximal.not_settled (hx : p.Maximal ds x) (hy : p.Maximal ds y) : ¬p.Settled ds x y := by
  rintro ⟨d, hd, ⟨hdx, -⟩ | ⟨-, ⟨-, hdx⟩ | ⟨-, hdy⟩⟩⟩
  · exact hx d hd hdx
  · exact hx d hd hdx
  · exact hy d hd hdy

namespace WellFormed

variable (h : p.WellFormed t)

include h

theorem inherits_refl (ha : p.hasInterface a = true) : p.inherits a a = true := by
  obtain ⟨u, hu, rfl, hi⟩ := hasInterface_iff.1 ha
  exact (h.inherits_iff hu hi).2 ⟨u, .refl, rfl⟩

/-- Below each declaration, or in its place, is one that nothing overrides. -/
theorem exists_maximal (hds : ∀ d ∈ ds, p.hasInterface d.owner = true) (hx : x ∈ ds) :
    ∃ m ∈ ds, p.Maximal ds m ∧ p.inherits m.owner x.owner = true ∧
      (m = x ∨ p.Overrides m x) := by
  obtain ⟨rank, hrank⟩ := h.exists_rank
  let below := (ds.filter fun d => d = x ∨ p.Overrides d x).toFinset
  have hbelow {d : Method} : d ∈ below ↔ d ∈ ds ∧ (d = x ∨ p.Overrides d x) := by
    simp [below]
  obtain ⟨m, hmbelow, hmax⟩ := below.exists_max_image (fun d => rank d.owner)
    ⟨x, hbelow.2 ⟨hx, .inl rfl⟩⟩
  obtain ⟨hm, hmx⟩ := hbelow.1 hmbelow
  have hinherits : p.inherits m.owner x.owner = true := by
    rcases hmx with rfl | hmx
    · exact h.inherits_refl (hds m hm)
    · exact hmx.2
  refine ⟨m, hm, fun d hd hdm => ?_, hinherits, hmx⟩
  have hrank_dm := hrank _ _ (hds d hd) hdm.2 hdm.1
  have hdx := h.inherits_trans (hds d hd) hdm.2 hinherits
  by_cases howner : d.owner = x.owner
  · have := hmax x (hbelow.2 ⟨hx, .inl rfl⟩)
    rw [howner] at hrank_dm
    omega
  · have := hmax d (hbelow.2 ⟨hd, .inr ⟨howner, hdx⟩⟩)
    omega

/-- **Conflicts are clashes that are not settled.** -/
theorem conflicted_iff (hds : ∀ d ∈ ds, p.hasInterface d.owner = true) :
    p.Conflicted ds ↔ ∃ x ∈ ds, ∃ y ∈ ds, p.Clash x y ∧ ¬p.Settled ds x y := by
  constructor
  · rintro ⟨x, hx, y, hy, hxmax, hymax, hclash⟩
    exact ⟨x, hx, y, hy, hclash, hxmax.not_settled hymax⟩
  · rintro ⟨x, hx, y, hy, hclash, hopen⟩
    obtain ⟨⟨-, hxy, hyx⟩, hcode⟩ := hclash.opposed
    -- Whatever inherits from both owners overrides both declarations, and would settle the clash.
    have hnone : ∀ d ∈ ds, p.inherits d.owner x.owner = true →
        p.inherits d.owner y.owner = true → False := by
      intro d hd hdx hdy
      refine hopen ⟨d, hd, .inl ⟨⟨fun e => ?_, hdx⟩, fun e => ?_, hdy⟩⟩
      · rw [e, hxy] at hdy
        cases hdy
      · rw [e, hyx] at hdx
        cases hdx
    obtain ⟨m, hm, hmmax, hmx, hm'⟩ := h.exists_maximal hds hx
    obtain ⟨n, hn, hnmax, hny, hn'⟩ := h.exists_maximal hds hy
    refine ⟨m, hm, n, hn, hmmax, hnmax, hds m hm, hds n hn, ⟨fun e => ?_, ?_, ?_⟩, ?_⟩
    · exact hnone m hm hmx (e ▸ hny)
    · by_contra hmn
      exact hnone m hm hmx (h.inherits_trans (hds m hm) (Bool.eq_true_of_not_eq_false hmn) hny)
    · by_contra hnm
      exact hnone n hn (h.inherits_trans (hds n hn) (Bool.eq_true_of_not_eq_false hnm) hmx) hny
    · rcases Bool.and_eq_false_iff.1 hcode with hcode | hcode
      · refine Bool.and_eq_false_iff.2 (.inl ?_)
        rcases hm' with rfl | hm'
        · exact hcode
        · by_contra habstract
          exact hopen ⟨m, hm, .inr ⟨Bool.eq_true_of_not_eq_false habstract, .inl ⟨hcode, hm'⟩⟩⟩
      · refine Bool.and_eq_false_iff.2 (.inr ?_)
        rcases hn' with rfl | hn'
        · exact hcode
        · by_contra habstract
          exact hopen ⟨n, hn, .inr ⟨Bool.eq_true_of_not_eq_false habstract, .inr ⟨hcode, hn'⟩⟩⟩

/-- Interfaces inherit methods of interfaces only. -/
theorem hasInterface_of_inherited (hu : p.Knows u) (hi : u.isInterface = true)
    (hm : p.Inherits u m) : p.hasInterface m.owner = true := by
  obtain ⟨-, -, v, hv, hm⟩ := hm
  rw [h.owner v (List.mem_cons_of_mem _ (hv.knows hu).mem) m hm]
  exact hasInterface_iff.2 ⟨v, hv.knows hu, rfl, h.isInterface_of_reaches hu hi hv⟩

end WellFormed

end Pool

/-! ### Ambiguous nodes have a clash -/

namespace Node

/-- Two declarations of the node clash. -/
def Disputed (p : Pool) (node : Node) : Prop :=
  ∃ x ∈ node.declarations, ∃ y ∈ node.declarations, p.Clash x y

/-- All declarations come from interfaces. -/
def OfInterfaces (p : Pool) (node : Node) : Prop :=
  ∀ d ∈ node.declarations, p.hasInterface d.owner = true

variable {p : Pool} {node other : Node}

theorem Disputed.absorb (h : node.Disputed p) (other : Node) : (node.absorb other).Disputed p :=
  let ⟨x, hx, y, hy, hclash⟩ := h
  ⟨x, mem_mergeDeclarations_of_mem _ hx, y, mem_mergeDeclarations_of_mem _ hy, hclash⟩

theorem OfInterfaces.absorb (h : node.OfInterfaces p) (h' : other.OfInterfaces p) :
    (node.absorb other).OfInterfaces p := fun d hd =>
  (mem_mergeDeclarations hd).elim (h d) (h' d)

theorem OfInterfaces.representative (h : node.OfInterfaces p)
    (hdeclared : node.Declares node.representative.identity) :
    p.hasInterface node.representative.owner = true := by
  obtain ⟨d, hd, hid⟩ := hdeclared
  have howner : d.owner = node.representative.owner := congrArg MethodIdentity.owner hid
  exact howner ▸ h d hd

/-- Siblings that make an ambiguous family clash, if none of them is ambiguous without cause. -/
theorem disputed_combine (hi : node.OfInterfaces p) (hi' : other.OfInterfaces p)
    (hw : node.Within (node.combine p other).declarations)
    (hw' : other.Within (node.combine p other).declarations)
    (h : node.sort = .ambiguous → node.Disputed p)
    (hsort : (node.combine p other).sort = .ambiguous) : (node.combine p other).Disputed p := by
  have hkeep (hsort : node.sort = .ambiguous) : (node.combine p other).Disputed p := by
    rw [Disputed, (combine_eq_absorb p node other).1]
    exact (h hsort).absorb other
  rcases combine_cases p node other with ⟨-, e⟩ | ⟨-, e⟩ | ⟨-, -, e⟩ | ⟨hopposed, -⟩
  · exact hkeep (by rwa [e] at hsort)
  · exact hkeep (by rwa [e] at hsort)
  · exact hkeep (by rwa [e] at hsort)
  · exact ⟨_, hw.representative, _, hw'.representative, hi.representative hw.declared,
      hi'.representative hw'.declared, hopposed⟩

end Node

/-- **Ambiguity is founded.** Below a type of a well-formed pool, an ambiguous node has nothing but
declarations of interfaces, and two of them clash. -/
theorem Pool.WellFormed.invariant_founded {p : Pool} {t : TypeDecl} (h : p.WellFormed t) :
    p.Invariant
      (fun u k node => p.Reaches t u → node.Sound p u k ∧
        (node.sort = .ambiguous → node.OfInterfaces p ∧ node.Disputed p))
      (fun u k node => p.Reaches t u → node.Sound p u k ∧ node.OfInterfaces p ∧
        (node.sort = .ambiguous → node.Disputed p)) where
  sibling := by
    intro u v k node r hr hv hnode hu
    have huv : p.Refers u v := refers_of_interface hr hv
    obtain ⟨hsound, hsort⟩ := hnode (hu.tail huv)
    have hi := h.interfaces u (mem_of_reaches List.mem_cons_self hu) r hr v hv
    exact ⟨hsound.of_reaches (.single huv), fun d hd => h.hasInterface_of_inherited huv.knows hi
      (hsound.inherited d (List.mem_cons_of_mem _ hd)), fun e => (hsort e).2⟩
  combine := by
    intro u k node other hnode hother hu
    obtain ⟨hsound, hi, hsort⟩ := hnode hu
    obtain ⟨hsound', hi', -⟩ := hother hu
    have hboth := hsound.combine hsound'
    refine ⟨hboth, ?_, Node.disputed_combine hi hi' ?_ ?_ hsort⟩
    · rw [Node.OfInterfaces, (Node.combine_eq_absorb p node other).1]
      exact hi.absorb hi'
    · exact (hsound.of_reaches hu).within h (hboth.of_reaches hu) fun _ hd =>
        (Node.declares_combine p).2 (.inl hd)
    · exact (hsound'.of_reaches hu).within h (hboth.of_reaches hu) fun _ hd =>
        (Node.declares_combine p).2 (.inr hd)
  superclass := by
    intro u v k node r hr hv hnode hu
    have huv : p.Refers u v := refers_of_superclass hr hv
    obtain ⟨hsound, hsort⟩ := hnode (hu.tail huv)
    exact ⟨hsound.of_reaches (.single huv), hsort⟩
  interfaces := fun hnode hu =>
    let ⟨hsound, hi, hsort⟩ := hnode hu
    ⟨hsound, fun e => ⟨hi, hsort e⟩⟩
  absorb := by
    intro u k node other r _ hnode hother hu
    obtain ⟨hsound, hsort⟩ := hnode hu
    obtain ⟨hsound', hi', -⟩ := hother hu
    exact ⟨hsound.absorb hsound', fun e => ⟨(hsort e).1.absorb hi', (hsort e).2.absorb other⟩⟩
  ofDeclaration := fun b hm hv hb _ => ⟨.ofDeclaration b ⟨hv, hb, _, .refl, hm⟩, nofun⟩
  override := fun b hm hv hb hnode hu => ⟨(hnode hu).1.override b ⟨hv, hb, _, .refl, hm⟩, nofun⟩
  expose := by
    intro u k node m hnode hu
    obtain ⟨hsound, hsort⟩ := hnode hu
    refine ⟨hsound.expose m, ?_⟩
    unfold Node.expose
    split
    · exact nofun
    · exact hsort

/-! ### The order of interfaces -/

namespace Pool

variable {p : Pool} {t : TypeDecl} {is : List TypeRef} {k : FamilyKey} {m : Method}

theorem WellFormed.of_perm (h : p.WellFormed t) (hp : is.Perm t.interfaces) :
    p.WellFormed { t with interfaces := is } where
  owner := List.forall_mem_cons.2 (List.forall_mem_cons.1 h.owner)
  distinct := List.forall_mem_cons.2 (List.forall_mem_cons.1 h.distinct)
  superclass := List.forall_mem_cons.2 (List.forall_mem_cons.1 h.superclass)
  interfaces := List.forall_mem_cons.2
    ⟨fun r hr => (List.forall_mem_cons.1 h.interfaces).1 r (hp.subset hr),
      (List.forall_mem_cons.1 h.interfaces).2⟩
  rootless := List.forall_mem_cons.2 (List.forall_mem_cons.1 h.rootless)
  acyclic := by
    obtain ⟨rank, hrank⟩ := h.acyclic
    rw [List.forall_mem_cons] at hrank
    refine ⟨rank, List.forall_mem_cons.2 ⟨fun r hr => hrank.1 r ?_, hrank.2⟩⟩
    exact ((List.Perm.refl t.superclass.toList).append hp).subset hr

/-- What is inherited does not depend on the order of the interfaces. -/
theorem Inherits.of_perm (hp : is.Perm t.interfaces)
    (h : p.Inherits { t with interfaces := is } m) : p.Inherits t m := by
  obtain ⟨hv, hb, u, hu, hm⟩ := h
  rcases hu.cases_head with rfl | ⟨v, ⟨r, hr, hres⟩, hu⟩
  · exact ⟨hv, hb, t, .refl, hm⟩
  · have hr : r ∈ t.supertypes := ((List.Perm.refl t.superclass.toList).append hp).subset hr
    exact ⟨hv, hb, u, hu.head ⟨r, hr, hres⟩, hm⟩

/-- Nor do the declarations of a family. -/
theorem declared_of_perm (hp : is.Perm t.interfaces) {i : MethodIdentity} :
    Declared ((GraphScope.hierarchy.compile p { t with interfaces := is }).graph.get? k) i ↔
      Declared ((GraphScope.hierarchy.compile p t).graph.get? k) i := by
  have hsupertypes (r : TypeRef) :
      r ∈ ({ t with interfaces := is } : TypeDecl).supertypes ↔ r ∈ t.supertypes :=
    ((List.Perm.refl t.superclass.toList).append hp).mem_iff
  refine (declared_families List.not_mem_nil).trans (Iff.trans ?_
    (declared_families List.not_mem_nil).symm)
  simp only [hsupertypes]

theorem mem_declarations_of_perm {node node' : Node} (h : p.WellFormed t)
    (hp : is.Perm t.interfaces)
    (hnode : (GraphScope.hierarchy.compile p t).graph.get? k = some node)
    (hnode' : (GraphScope.hierarchy.compile p { t with interfaces := is }).graph.get? k =
      some node') : m ∈ node'.declarations ↔ m ∈ node.declarations := by
  have hmem := p.invariant_sound.families _ _ _ t k node hnode
  have hmem' := p.invariant_sound.families _ _ _ _ k node' hnode'
  have hdeclared (i : MethodIdentity) : node'.Declares i ↔ node.Declares i := by
    have hiff := declared_of_perm (p := p) (k := k) hp (i := i)
    rw [hnode, hnode'] at hiff
    simpa [Declared] using hiff
  have heq {d e : Method} (hd : d ∈ node.declarations) (he : e ∈ node'.declarations)
      (hid : d.identity = e.identity) : d = e :=
    h.eq_of_identity (hmem.inherited d (List.mem_cons_of_mem _ hd))
      ((hmem'.inherited e (List.mem_cons_of_mem _ he)).of_perm hp) hid
  constructor
  · intro hm
    obtain ⟨d, hd, hid⟩ := (hdeclared m.identity).1 ⟨m, hm, rfl⟩
    exact heq hd hm hid ▸ hd
  · intro hm
    obtain ⟨d, hd, hid⟩ := (hdeclared m.identity).2 ⟨m, hm, rfl⟩
    exact (heq hm hd hid.symm).symm ▸ hd

end Pool

namespace GraphScope

/-- **What ambiguity says, in any order of the interfaces.** Two declarations clash. The family is
in conflict exactly if a clash is not settled by another declaration. So if none is settled, the
family is in conflict, and it is ambiguous in each order in which no conflict is overlooked. -/
theorem ambiguity_is_founded {p : Pool} {t : TypeDecl} {is : List TypeRef} {k : FamilyKey}
    {node node' : Node} (h : p.WellFormed t) (hp : is.Perm t.interfaces)
    (hnode : (hierarchy.compile p t).graph.get? k = some node)
    (hnode' : (hierarchy.compile p { t with interfaces := is }).graph.get? k = some node')
    (hsort : node'.sort = .ambiguous) :
    (∃ x ∈ node.declarations, ∃ y ∈ node.declarations, p.Clash x y) ∧
      (p.Conflicted node.declarations ↔ ∃ x ∈ node.declarations, ∃ y ∈ node.declarations,
        p.Clash x y ∧ ¬p.Settled node.declarations x y) ∧
      (p.Unsettled node.declarations → p.Conflicted node.declarations ∧
        ((∀ m ∈ t.methods, m.isVirtual = true → m.familyKey ≠ k) →
          p.Surfaces t k node.declarations → node.sort = .ambiguous)) := by
  have hsame (m : Method) : m ∈ node'.declarations ↔ m ∈ node.declarations :=
    Pool.mem_declarations_of_perm h hp hnode hnode'
  obtain ⟨-, hfounded⟩ := (h.of_perm hp).invariant_founded.families _ _ _ _ k node' hnode' .refl
  obtain ⟨hi, x, hx, y, hy, hclash⟩ := hfounded hsort
  rw [hsame] at hx hy
  have hiff := h.conflicted_iff fun d hd => hi d ((hsame d).2 hd)
  refine ⟨⟨x, hx, y, hy, hclash⟩, hiff, fun hopen => ?_⟩
  have hconflict := hiff.2 ⟨x, hx, y, hy, hclash, hopen x hx y hy hclash⟩
  exact ⟨hconflict, fun hown hs => hs.sort_eq h hnode hown hconflict⟩

/-- An interface that overrides one of two unrelated ones does not settle what both have code
for. -/
theorem ambiguity_is_founded_overridden :
    let run (owner : String) : Method := { owner, name := "run", modifiers := .of [.accPublic] }
    let interface (name : String) (supertypes : List TypeRef) : TypeDecl :=
      { name, modifiers := .of [.accPublic, .accInterface, .accAbstract], superclass := none
        interfaces := supertypes, methods := [run name] }
    let p := Pool.empty.registerAll
      [interface "a.Task" [], interface "a.Job" [.named "a.Task"], interface "a.Step" []]
    let t : TypeDecl :=
      { name := "a.Both", modifiers := .of [.accPublic], superclass := none
        interfaces := [.named "a.Task", .named "a.Step", .named "a.Job"] }
    ∃ node, (hierarchy.compile p t).graph.get? ⟨"run", []⟩ = some node ∧
      p.Conflicted node.declarations ∧ node.sort = .ambiguous := by
  intro run interface p t
  let is : List TypeRef := [.named "a.Job", .named "a.Step", .named "a.Task"]
  have hsome : ((hierarchy.compile p t).graph.get? ⟨"run", []⟩).isSome = true := by
    decide +kernel
  have hsome' : ((hierarchy.compile p { t with interfaces := is }).graph.get?
      ⟨"run", []⟩).isSome = true := by
    decide +kernel
  obtain ⟨node, hnode⟩ := Option.isSome_iff_exists.1 hsome
  obtain ⟨node', hnode'⟩ := Option.isSome_iff_exists.1 hsome'
  have hdeclarations : ∀ node ∈ (hierarchy.compile p t).graph.get? ⟨"run", []⟩,
      p.Unsettled node.declarations ∧ p.KeepsAbstract node.declarations := by decide +kernel
  have hsort : ∀ node ∈ (hierarchy.compile p { t with interfaces := is }).graph.get? ⟨"run", []⟩,
      node.sort = .ambiguous := by decide +kernel
  obtain ⟨hopen, habstract⟩ := hdeclarations node hnode
  have hwell : p.WellFormed t := by
    refine ⟨by decide +kernel, by decide +kernel, by decide +kernel, by decide +kernel,
      by decide +kernel, ?_⟩
    exact ⟨fun name => if name = "a.Both" then 2 else if name = "a.Job" then 1 else 0,
      by decide +kernel⟩
  obtain ⟨-, -, hfounded⟩ := ambiguity_is_founded hwell (by decide +kernel) hnode hnode'
    (hsort node' hnode')
  obtain ⟨hconflict, hreported⟩ := hfounded hopen
  exact ⟨node, hnode, hconflict, hreported (by decide +kernel)
    (.compared (by decide +kernel) (by decide +kernel) habstract)⟩

/-- A clash that a third interface settles is noticed if that interface comes last. -/
theorem settled_clashes_are_ambiguous :
    let run (owner : String) : Method := { owner, name := "run", modifiers := .of [.accPublic] }
    let interface (name : String) (supertypes : List TypeRef) : TypeDecl :=
      { name, modifiers := .of [.accPublic, .accInterface, .accAbstract], superclass := none
        interfaces := supertypes, methods := [run name] }
    let p := Pool.empty.registerAll
      [interface "a.Left" [], interface "a.Right" [],
        interface "a.Both" [.named "a.Left", .named "a.Right"]]
    let t : TypeDecl :=
      { name := "a.Sub", modifiers := .of [.accPublic], superclass := none
        interfaces := [.named "a.Both", .named "a.Left", .named "a.Right"] }
    let sorts (t : TypeDecl) : List (Bool × NodeSort) :=
      (hierarchy.compile p t).graph.values.map fun node =>
        (decide (p.Conflicted node.declarations), node.sort)
    p.WellFormed t ∧ sorts t = [(false, .resolved)] ∧
      sorts { t with interfaces := [.named "a.Left", .named "a.Right", .named "a.Both"] } =
        [(false, .ambiguous)] := by
  refine ⟨⟨by decide +kernel, by decide +kernel, by decide +kernel, by decide +kernel,
    by decide +kernel, ?_⟩, by decide +kernel, by decide +kernel⟩
  exact ⟨fun name => if name = "a.Sub" then 2 else if name = "a.Both" then 1 else 0,
    by decide +kernel⟩

end GraphScope

end ClassForge
