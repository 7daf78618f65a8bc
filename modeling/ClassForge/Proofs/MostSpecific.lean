import ClassForge.Proofs.Ambiguity

/-!
# How specific a representative is

The representative of a family is meant to be its most specific declaration. For a family that a
class declares it is the nearest class's. Where only interfaces declare the family, the
representative is found by comparing, and what is compared are the representatives of siblings, not
all of their declarations. Two things can be said of that.

A representative that is compared is never overlooked: none of the siblings has one that overrides
the representative of all of them (`Node.Heads`). So a declaration that overrides it hides behind
another representative, and in a well-formed pool that one is unrelated to it or is overridden
itself. If the family is not ambiguous, a representative that hides something in the first way has
no code, because otherwise the two would be opposed.

But a family that the superclass brings in is not compared with anything. Its representative stays
even if an interface of the type overrides it, as if a class had declared it.

## Main definitions

* `Pool.Overlooks` — the ways in which an override of a representative is overlooked
* `Node.Leads` — the representative inherits from the owners of all declarations

## Main results

* `Node.heads_foldl_combine` — siblings that are compared
* `GraphScope.representative_is_most_specific` — exactly when nothing overrides a representative
* `GraphScope.representatives_are_overridden` — two families where something does
-/

namespace ClassForge

namespace Pool

variable {p : Pool} {t : TypeDecl} {m n o : Method}

/-- Overriding looks at the owners only. -/
theorem Overrides.of_identity (h : p.Overrides m n) (hid : o.identity = m.identity) :
    p.Overrides o n := by
  have howner : o.owner = m.owner := congrArg MethodIdentity.owner hid
  rwa [Overrides, howner]

theorem related_or_unrelated (p : Pool) (m n : Method) :
    m.owner = n.owner ∨ p.Overrides m n ∨ p.Overrides n m ∨ p.Unrelated m n := by
  by_cases howner : m.owner = n.owner
  · exact .inl howner
  · cases hmn : p.inherits m.owner n.owner with
    | true => exact .inr (.inl ⟨howner, hmn⟩)
    | false =>
      cases hnm : p.inherits n.owner m.owner with
      | true => exact .inr (.inr (.inl ⟨Ne.symm howner, hnm⟩))
      | false => exact .inr (.inr (.inr ⟨howner, hmn, hnm⟩))

namespace WellFormed

variable (h : p.WellFormed t)

include h

theorem overrides_trans (hm : p.hasInterface m.owner = true) (hn : p.hasInterface n.owner = true)
    (hmn : p.Overrides m n) (hno : p.Overrides n o) : p.Overrides m o := by
  obtain ⟨rank, hrank⟩ := h.exists_rank
  have hrank_mn := hrank _ _ hm hmn.2 hmn.1
  have hrank_no := hrank _ _ hn hno.2 hno.1
  refine ⟨?_, h.inherits_trans hm hmn.2 hno.2⟩
  intro howner
  rw [howner] at hrank_mn
  omega

theorem overrides_asymm (hm : p.hasInterface m.owner = true) (hn : p.hasInterface n.owner = true)
    (hmn : p.Overrides m n) : ¬p.Overrides n m := by
  intro hnm
  exact (h.overrides_trans hm hn hmn hnm).1 rfl

end WellFormed

end Pool

/-! ### Siblings that are compared -/

namespace Node

variable {p : Pool} {t : TypeDecl} {node other : Node} {seen : List Node}

/-- Interfaces declare the representatives of all nodes. None of them overrides this one, and those
that are unrelated to it are abstract, unless the family is ambiguous. -/
structure Heads (p : Pool) (node : Node) (seen : List Node) : Prop where
  interface : p.hasInterface node.representative.owner = true
  interfaces : ∀ c ∈ seen, p.hasInterface c.representative.owner = true
  top : ∀ c ∈ seen, ¬p.Overrides c.representative node.representative
  apart : node.sort ≠ .ambiguous → ∀ c ∈ seen,
    p.Unrelated node.representative c.representative → c.representative.isAbstract = true

theorem heads_self (hi : p.hasInterface node.representative.owner = true) :
    node.Heads p [node] where
  interface := hi
  interfaces := List.forall_mem_singleton.2 hi
  top := List.forall_mem_singleton.2 fun hself => hself.1 rfl
  apart := fun _ => List.forall_mem_singleton.2 fun hself => absurd rfl hself.1

/-- **One more sibling.** -/
theorem Heads.combine (h : p.WellFormed t) (hnode : node.Heads p seen)
    (hi : p.hasInterface other.representative.owner = true) :
    (node.combine p other).Heads p (seen ++ [other]) := by
  -- It is enough to look at the siblings before, and at the new one.
  have split {P : Node → Prop} (hseen : ∀ c ∈ seen, P c) (hother : P other) :
      ∀ c ∈ seen ++ [other], P c := by
    intro c hc
    rcases List.mem_append.1 hc with hc | hc
    · exact hseen c hc
    · obtain rfl := List.mem_singleton.1 hc
      exact hother
  have hall := split hnode.interfaces hi
  rcases combine_cases p node other with
    ⟨hbelow, e⟩ | ⟨habove, e⟩ | ⟨⟨-, -, hout⟩, habstract, e⟩ | ⟨⟨⟨-, -, hout⟩, -⟩, e⟩
  · rw [e]
    refine ⟨hi, hall, split ?_ fun hself => hself.1 rfl, ?_⟩
    · intro c hc hover
      exact hnode.top c hc (h.overrides_trans (hnode.interfaces c hc) hi hover hbelow)
    · intro hsort
      refine split ?_ fun hself => absurd rfl hself.1
      rintro c hc ⟨-, hout, -⟩
      rcases p.related_or_unrelated node.representative c.representative with
        howner | hover | hover | hunrelated
      · rw [← howner, hbelow.2] at hout
        cases hout
      · rw [h.inherits_trans hi hbelow.2 hover.2] at hout
        cases hout
      · exact absurd hover (hnode.top c hc)
      · exact hnode.apart hsort c hc hunrelated
  · rw [e]
    refine ⟨hnode.interface, hall, split hnode.top ?_, fun hsort => split (hnode.apart hsort) ?_⟩
    · rcases habove with howner | hover
      · exact fun hself => hself.1 howner.symm
      · exact h.overrides_asymm hnode.interface hi hover
    · rintro ⟨hne, hout, -⟩
      rcases habove with howner | hover
      · exact absurd howner hne
      · exact absurd hover.2 (Bool.eq_false_iff.1 hout)
  · rw [e]
    refine ⟨hnode.interface, hall, split hnode.top ?_, fun hsort => split (hnode.apart hsort) ?_⟩
    · intro hover
      exact absurd hover.2 (Bool.eq_false_iff.1 hout)
    · intro _
      exact (Bool.and_eq_true_iff.1 habstract).2
  · rw [e]
    refine ⟨hnode.interface, hall, split hnode.top ?_, fun hsort => absurd rfl hsort⟩
    intro hover
    exact absurd hover.2 (Bool.eq_false_iff.1 hout)

/-- **All siblings.** -/
theorem heads_foldl_combine (h : p.WellFormed t) {cs : List Node} (hnode : node.Heads p seen)
    (hi : ∀ c ∈ cs, p.hasInterface c.representative.owner = true) :
    (cs.foldl (Node.combine p) node).Heads p (seen ++ cs) := by
  induction cs generalizing node seen with
  | nil =>
    rw [List.append_nil]
    exact hnode
  | cons c cs ih =>
    rw [List.forall_mem_cons] at hi
    rw [List.append_cons]
    exact ih (hnode.combine h hi.1) hi.2

/-- The representative inherits from the owner of each declaration. -/
def Leads (p : Pool) (node : Node) : Prop :=
  ∀ d ∈ node.declarations, p.inherits node.representative.owner d.owner = true

instance (p : Pool) (node : Node) : Decidable (node.Leads p) :=
  inferInstanceAs (Decidable (∀ d ∈ node.declarations, _))

/-! ### Bridges of the type -/

/-- Methods that are no declarations of the family change its visibility and its sort only. -/
theorem eq_some_of_declareAll {k : FamilyKey} {ms : List Method} {node? : Option Node}
    (hms : ∀ m ∈ ms, m.isBridge = false → m.familyKey ≠ k)
    (h : ms.foldl (fun node? m => declareAt k m m node?) node? = some node) :
    ∃ b, node? = some b ∧ node.representative = b.representative ∧
      node.declarations = b.declarations ∧ (node.sort = b.sort ∨ node.sort = .visible) := by
  induction ms generalizing node? with
  | nil => exact ⟨node, h, rfl, rfl, .inl rfl⟩
  | cons m ms ih =>
    rw [List.forall_mem_cons] at hms
    obtain ⟨next, hnext, hrep, hdeclarations, hsort⟩ := ih hms.2 h
    rw [hrep, hdeclarations]
    dsimp only [declareAt] at hnext
    split at hnext
    · rename_i hk
      have hbridge : m.isBridge = true := by
        by_contra hb
        exact hms.1 (Bool.eq_false_iff.2 hb) hk
      rw [if_pos hbridge] at hnext
      obtain ⟨b, hb, rfl⟩ := Option.map_eq_some_iff.1 hnext
      refine ⟨b, hb, representative_expose b m, declarations_expose b m, ?_⟩
      rcases hsort with hsort | hsort
      · rw [hsort]
        unfold expose
        split
        · exact .inr rfl
        · exact .inl rfl
      · exact .inr hsort
    · exact ⟨next, hnext, rfl, rfl, hsort⟩

end Node

/-! ### Overrides that are overlooked -/

namespace Pool

variable {p : Pool} {t : TypeDecl} {k : FamilyKey} {r : Method}

/-- The ways in which a declaration of the family that overrides the representative `r` is
overlooked. -/
inductive Overlooks (p : Pool) (t : TypeDecl) (k : FamilyKey) (r : Method) : Prop
  /-- The superclass brings the family in, and overlooks the declaration itself. -/
  | superclass {c : Node} {d : Method}
      (hc : (GraphScope.hierarchy.compile p t).superGraph.get? k = some c)
      (hd : d ∈ c.declarations) (hover : p.Overrides d r)
  /-- The superclass brings the family in, and an interface of the type the declaration. -/
  | beside {c s : Node} {d : Method}
      (hc : (GraphScope.hierarchy.compile p t).superGraph.get? k = some c)
      (hs : s ∈ p.siblings t k) (hd : d ∈ s.declarations) (hover : p.Overrides d r)
  /-- The declaration is brought in by an interface whose representative of the family is abstract
  and unrelated to `r`. -/
  | hidden {s : Node} {d : Method}
      (hsuper : (GraphScope.hierarchy.compile p t).superGraph.get? k = none)
      (hs : s ∈ p.siblings t k) (hd : d ∈ s.declarations) (hover : p.Overrides d r)
      (hunrelated : p.Unrelated r s.representative)
      (habstract : s.representative.isAbstract = true)
  /-- The declaration is brought in by an interface that overlooks it as well. -/
  | interface {s : Node} {d : Method}
      (hsuper : (GraphScope.hierarchy.compile p t).superGraph.get? k = none)
      (hs : s ∈ p.siblings t k) (hd : d ∈ s.declarations) (hover : p.Overrides d r)
      (hover' : p.Overrides d s.representative)

/-- What the superclass and the interfaces bring in together, up to identity. -/
theorem declares_inherited {b : Node} {i : MethodIdentity}
    (hb : ((GraphScope.hierarchy.compile p t).superGraph.get? k).merge Node.absorb
      (Node.combineAll p (p.siblings t k)) = some b) :
    b.Declares i ↔ Declared ((GraphScope.hierarchy.compile p t).superGraph.get? k) i ∨
      ∃ s ∈ p.siblings t k, s.Declares i := by
  have hsiblings : Declared (Node.combineAll p (p.siblings t k)) i ↔
      ∃ s ∈ p.siblings t k, s.Declares i := by
    cases p.siblings t k with
    | nil => simp [Node.combineAll]
    | cons c cs => simp [Node.combineAll, Declared, Node.declares_foldl_combine]
  rw [← hsiblings, ← Declared.merge_iff fun _ _ => Node.declares_absorb, hb]
  simp [Declared]

namespace WellFormed

variable (h : p.WellFormed t)

include h

/-- What interfaces bring in is declared by interfaces. -/
theorem ofInterfaces_of_mem_siblings {s : Node} (hs : s ∈ p.siblings t k) : s.OfInterfaces p := by
  obtain ⟨r, hr, hs⟩ := List.mem_filterMap.1 hs
  obtain ⟨u, hu, hs⟩ := exists_of_get?_familiesAbove hs
  have hsound := p.invariant_sound.families _ _ _ u k s hs
  have hi := h.interfaces t List.mem_cons_self r hr u hu
  intro d hd
  exact h.hasInterface_of_inherited (knows_of_resolve? hu) hi
    (hsound.inherited d (List.mem_cons_of_mem _ hd))

theorem hasInterface_of_mem_siblings {s : Node} (hs : s ∈ p.siblings t k) :
    p.hasInterface s.representative.owner = true :=
  (h.ofInterfaces_of_mem_siblings hs).representative (sound_of_mem_siblings hs).declared

/-- The representative of all siblings heads them. -/
theorem heads_combineAll {b : Node} (hb : Node.combineAll p (p.siblings t k) = some b) :
    b.Heads p (p.siblings t k) := by
  have hi : ∀ s ∈ p.siblings t k, p.hasInterface s.representative.owner = true :=
    fun s hs => h.hasInterface_of_mem_siblings hs
  cases hcs : p.siblings t k with
  | nil =>
    rw [hcs] at hb
    cases hb
  | cons c cs =>
    rw [hcs] at hb hi
    obtain rfl := Option.some.inj hb
    rw [List.forall_mem_cons] at hi
    exact Node.heads_foldl_combine h (Node.heads_self hi.1) hi.2

/-- An override that an interface brings in beside a representative of all of them is hidden by the
representative of that interface, or the interface overlooks it as well. -/
theorem overlooks_of_mem_siblings {b s : Node} {d : Method}
    (hsuper : (GraphScope.hierarchy.compile p t).superGraph.get? k = none)
    (hb : Node.combineAll p (p.siblings t k) = some b) (hsort : b.sort ≠ .ambiguous)
    (hs : s ∈ p.siblings t k) (hd : d ∈ s.declarations) (hover : p.Overrides d b.representative) :
    p.Overlooks t k b.representative := by
  have hheads := h.heads_combineAll hb
  have hi := h.ofInterfaces_of_mem_siblings hs d hd
  rcases p.related_or_unrelated b.representative s.representative with
    hsame | habove | hbelow | hunrelated
  · refine .interface hsuper hs hd hover ?_
    rwa [Overrides, ← hsame]
  · exact .interface hsuper hs hd hover (h.overrides_trans hi hheads.interface hover habove)
  · exact absurd hbelow (hheads.top s hs)
  · exact .hidden hsuper hs hd hover hunrelated (hheads.apart hsort s hs hunrelated)

/-- **Overrides are overlooked** in these ways and no others. -/
theorem overlooks_iff {b : Node}
    (hb : ((GraphScope.hierarchy.compile p t).superGraph.get? k).merge Node.absorb
      (Node.combineAll p (p.siblings t k)) = some b) (hsort : b.sort ≠ .ambiguous) :
    p.Overlooks t k b.representative ↔ ∃ d ∈ b.declarations, p.Overrides d b.representative := by
  have hdeclared {d : Method} (hd : b.Declares d.identity)
      (hover : p.Overrides d b.representative) :
      ∃ e ∈ b.declarations, p.Overrides e b.representative := by
    obtain ⟨e, he, hid⟩ := hd
    exact ⟨e, he, hover.of_identity hid⟩
  constructor
  · rintro (⟨hc, hd, hover⟩ | ⟨-, hs, hd, hover⟩ | ⟨-, hs, hd, hover, -⟩ | ⟨-, hs, hd, hover, -⟩)
    · exact hdeclared ((declares_inherited hb).2 (.inl ⟨_, hc, _, hd, rfl⟩)) hover
    all_goals exact hdeclared ((declares_inherited hb).2 (.inr ⟨_, hs, _, hd, rfl⟩)) hover
  · rintro ⟨d, hd, hover⟩
    rcases (declares_inherited hb).1 ⟨d, hd, rfl⟩ with ⟨c, hc, e, he, hid⟩ | ⟨s, hs, e, he, hid⟩
    · exact .superclass hc he (hover.of_identity hid)
    · cases hsuper : (GraphScope.hierarchy.compile p t).superGraph.get? k with
      | some c => exact .beside hsuper hs he (hover.of_identity hid)
      | none =>
        rw [hsuper, Option.merge_none_left] at hb
        exact h.overlooks_of_mem_siblings hsuper hb hsort hs he (hover.of_identity hid)

/-- Interfaces whose representatives lead overlook nothing. -/
theorem not_overlooks {r : Method}
    (hsuper : (GraphScope.hierarchy.compile p t).superGraph.get? k = none)
    (hleads : ∀ s ∈ p.siblings t k, s.Leads p) : ¬p.Overlooks t k r := by
  rintro (⟨hc, -⟩ | ⟨hc, -⟩ | ⟨-, hs, hd, hover, hunrelated, -⟩ | ⟨-, hs, hd, -, hover⟩)
  · rw [hsuper] at hc
    cases hc
  · rw [hsuper] at hc
    cases hc
  · have hbelow := h.inherits_trans (h.hasInterface_of_mem_siblings hs) (hleads _ hs _ hd) hover.2
    exact absurd hbelow (Bool.eq_false_iff.1 hunrelated.2.2)
  · refine h.overrides_asymm (h.ofInterfaces_of_mem_siblings hs _ hd)
      (h.hasInterface_of_mem_siblings hs) hover ⟨Ne.symm hover.1, hleads _ hs _ hd⟩

end WellFormed

end Pool

namespace GraphScope

/-- **How specific a representative is.** Nothing overrides the representative of a resolved family
that the type does not declare, unless it is overlooked. And nothing is overlooked where the family
comes from interfaces only, each of them with a representative that inherits from all owners. -/
theorem representative_is_most_specific {p : Pool} {t : TypeDecl} {k : FamilyKey} {node : Node}
    (h : p.WellFormed t) (hnode : (hierarchy.compile p t).graph.get? k = some node)
    (hown : ∀ m ∈ t.methods, m.isVirtual = true → m.isBridge = false → m.familyKey ≠ k)
    (hsort : node.sort = .resolved) :
    (p.Maximal node.declarations node.representative ↔ ¬p.Overlooks t k node.representative) ∧
      ((hierarchy.compile p t).superGraph.get? k = none → (∀ s ∈ p.siblings t k, s.Leads p) →
        p.Maximal node.declarations node.representative) := by
  rw [Pool.get?_compile] at hnode
  obtain ⟨b, hb, hrep, hdeclarations, hb_sort⟩ := Node.eq_some_of_declareAll (fun m hm =>
    hown m (List.mem_filter.1 hm).1 (List.mem_filter.1 hm).2) hnode
  have hresolved : b.sort ≠ .ambiguous := by
    intro hambiguous
    rw [hsort, hambiguous] at hb_sort
    rcases hb_sort with hb_sort | hb_sort <;> cases hb_sort
  have hiff : p.Maximal node.declarations node.representative ↔
      ¬p.Overlooks t k node.representative := by
    rw [hrep, hdeclarations, h.overlooks_iff hb hresolved, Pool.Maximal]
    push Not
    exact Iff.rfl
  exact ⟨hiff, fun hsuper hleads => hiff.2 (h.not_overlooks hsuper hleads)⟩

/-- Two interfaces have code for texts, and one of them is a special case of the other. -/
theorem representative_is_most_specific_generic :
    let run (owner : String) (type : TypeRef) : Method :=
      { owner, name := "run", modifiers := .of [.accPublic], parameters := [{ type }] }
    let text : TypeRef := .named "java.lang.String"
    let interface (name : String) (supertypes : List TypeRef) (methods : List Method) : TypeDecl :=
      { name, modifiers := .of [.accPublic, .accInterface, .accAbstract], superclass := none
        interfaces := supertypes, methods }
    let task := { interface "a.Task" [] [run "a.Task" (.typeVar "E" .object)] with
      typeVariables := [{ symbol := "E" }] }
    let job := interface "a.Job" [.parameterized "a.Task" [text]] [run "a.Job" text]
    let p := Pool.empty.registerAll [task, job]
    let t : TypeDecl :=
      { name := "a.Sub", modifiers := .of [.accPublic], superclass := none
        interfaces := [.parameterized "a.Task" [text], .named "a.Job"] }
    ∃ node, (hierarchy.compile p t).graph.get? ⟨"run", [text]⟩ = some node ∧
      node.representative = run "a.Job" text ∧
        p.Maximal node.declarations node.representative := by
  intro run text interface task job p t
  have hsome : ((hierarchy.compile p t).graph.get? ⟨"run", [text]⟩).isSome = true := by
    decide +kernel
  have hresolved : ∀ node ∈ (hierarchy.compile p t).graph.get? ⟨"run", [text]⟩,
      node.sort = .resolved ∧ node.representative = run "a.Job" text := by decide +kernel
  obtain ⟨node, hnode⟩ := Option.isSome_iff_exists.1 hsome
  obtain ⟨hsort, hrep⟩ := hresolved node hnode
  have hwell : p.WellFormed t := by
    refine ⟨by decide +kernel, by decide +kernel, by decide +kernel, by decide +kernel,
      by decide +kernel, ?_⟩
    exact ⟨fun name => if name = "a.Sub" then 2 else if name = "a.Job" then 1 else 0,
      by decide +kernel⟩
  obtain ⟨-, hall⟩ := representative_is_most_specific hwell hnode (by decide +kernel) hsort
  exact ⟨node, hnode, hrep, hall (by decide +kernel) (by decide +kernel)⟩

/-- What a class has from an interface stays although a special case of that interface overrides it.
And of interfaces without code the first stays, although another one brings in an override of it
behind a representative that is unrelated. -/
theorem representatives_are_overridden :
    let run (owner : String) (flags : List Flag) : Method :=
      { owner, name := "run", modifiers := .of flags }
    let interface (name : String) (supertypes : List TypeRef) (methods : List Method) : TypeDecl :=
      { name, modifiers := .of [.accPublic, .accInterface, .accAbstract], superclass := none
        interfaces := supertypes, methods }
    let task := interface "a.Task" [] [run "a.Task" [.accPublic]]
    let job := interface "a.Job" [.named "a.Task"] [run "a.Job" [.accPublic]]
    let base : TypeDecl :=
      { name := "a.Base", modifiers := .of [.accPublic], superclass := none
        interfaces := [.named "a.Task"] }
    let left := interface "a.Left" [] [run "a.Left" [.accPublic, .accAbstract]]
    let right := interface "a.Right" [] [run "a.Right" [.accPublic, .accAbstract]]
    let below := interface "a.Below" [.named "a.Left"] [run "a.Below" [.accPublic, .accAbstract]]
    let both := interface "a.Both" [.named "a.Right", .named "a.Below"] []
    let p := Pool.empty.registerAll [task, job, base, left, right, below, both]
    let inherited : TypeDecl :=
      { name := "a.Sub", modifiers := .of [.accPublic], superclass := some (.named "a.Base")
        interfaces := [.named "a.Job"] }
    let compared : TypeDecl :=
      { name := "a.Sub", modifiers := .of [.accPublic], superclass := none
        interfaces := [.named "a.Left", .named "a.Both"] }
    let outcomes (t : TypeDecl) : List (NodeSort × String × Bool) :=
      (hierarchy.compile p t).graph.values.map fun node =>
        (node.sort, node.representative.owner,
          decide (p.Maximal node.declarations node.representative))
    p.WellFormed inherited ∧ base.methods = [] ∧ inherited.methods = [] ∧
      outcomes inherited = [(.resolved, "a.Task", false)] ∧
        p.WellFormed compared ∧ compared.methods = [] ∧
          outcomes compared = [(.resolved, "a.Left", false)] := by
  intro run interface task job base left right below both p inherited compared outcomes
  refine ⟨⟨by decide +kernel, by decide +kernel, by decide +kernel, by decide +kernel,
    by decide +kernel, ?_⟩, rfl, rfl, by decide +kernel, ⟨by decide +kernel, by decide +kernel,
    by decide +kernel, by decide +kernel, by decide +kernel, ?_⟩, rfl, by decide +kernel⟩
  all_goals
    exact ⟨fun name => if name = "a.Sub" then 3 else if name = "a.Both" then 2
      else if name ∈ ["a.Job", "a.Base", "a.Below"] then 1 else 0, by decide +kernel⟩

end GraphScope

end ClassForge
