import ClassForge.Proofs.FamilyMembers
import Mathlib.Data.List.Nodup

/-!
# Well-formed pools

Pools are collections of what was found, and nothing is checked when a type is registered. Where
the types come from a compiler, more can be relied on: methods carry the name of the type that
declares them, no type declares one signature twice, classes extend classes and interfaces extend
interfaces, and no type inherits from itself.

In such a pool identity tells methods apart, so that the declarations of a node are those of the
hierarchy and not just like them, and inheritance orders the interfaces.

## Main definitions

* `Pool.WellFormed` — a type and a pool as a compiler leaves them

## Main results

* `Pool.WellFormed.eq_of_identity` — inherited methods are told apart by identity
* `Pool.WellFormed.inherits_iff_reaches` — inheritance between known types
* `Pool.WellFormed.inherits_trans`, `Pool.WellFormed.exists_rank` — interfaces are ordered
-/

namespace ClassForge

namespace Pool

variable {p : Pool} {t u v : TypeDecl} {m n : Method} {a b c : String}

/-- The type and the pool are as a compiler leaves them. -/
structure WellFormed (p : Pool) (t : TypeDecl) : Prop where
  /-- Methods name the type that declares them. -/
  owner : ∀ u ∈ t :: p.types, ∀ m ∈ u.methods, m.owner = u.name
  /-- No type declares one signature twice. -/
  distinct : ∀ u ∈ t :: p.types, (u.methods.map (·.identity)).Nodup
  superclass : ∀ u ∈ t :: p.types, ∀ r ∈ u.superclass, ∀ v ∈ p.resolve? r, v.isInterface = false
  interfaces : ∀ u ∈ t :: p.types, ∀ r ∈ u.interfaces, ∀ v ∈ p.resolve? r, v.isInterface = true
  /-- Interfaces have no superclass. -/
  rootless : ∀ u ∈ t :: p.types, u.isInterface = true → u.superclass = none
  /-- The types can be ranked such that references lead to lower ranks. -/
  acyclic : ∃ rank : String → Nat, ∀ u ∈ t :: p.types, ∀ r ∈ u.supertypes, ∀ v ∈ p.resolve? r,
    rank v.name < rank u.name

/-- Whether the pool knows an interface of that name. -/
def hasInterface (p : Pool) (name : String) : Bool := (p.find? name).any (·.isInterface)

theorem hasInterface_iff :
    p.hasInterface a = true ↔ ∃ u, p.Knows u ∧ u.name = a ∧ u.isInterface = true := by
  constructor
  · intro h
    cases hu : p.find? a with
    | none => rw [hasInterface, hu] at h; cases h
    | some u =>
      rw [hasInterface, hu] at h
      exact ⟨u, knows_of_find? hu, name_of_find? hu, h⟩
  · rintro ⟨u, hu, rfl, hi⟩
    rw [hasInterface, hu, Option.any_some, hi]

namespace WellFormed

/-- Type by type, given the ranks. All of it can be decided. -/
theorem of_rank (rank : String → Nat) (h : ∀ u ∈ t :: p.types,
    (∀ m ∈ u.methods, m.owner = u.name) ∧ (u.methods.map (·.identity)).Nodup ∧
    (∀ r ∈ u.superclass, ∀ v ∈ p.resolve? r, v.isInterface = false) ∧
    (∀ r ∈ u.interfaces, ∀ v ∈ p.resolve? r, v.isInterface = true) ∧
    (u.isInterface = true → u.superclass = none) ∧
    ∀ r ∈ u.supertypes, ∀ v ∈ p.resolve? r, rank v.name < rank u.name) : p.WellFormed t where
  owner u hu := (h u hu).1
  distinct u hu := (h u hu).2.1
  superclass u hu := (h u hu).2.2.1
  interfaces u hu := (h u hu).2.2.2.1
  rootless u hu := (h u hu).2.2.2.2.1
  acyclic := ⟨rank, fun u hu => (h u hu).2.2.2.2.2⟩

theorem mem_of_reaches (hu : u ∈ t :: p.types) (h : p.Reaches u v) : v ∈ t :: p.types :=
  h.eq_or_knows.elim (fun e => e ▸ hu) fun hv => List.mem_cons_of_mem _ hv.mem

/-- Ranks fall on the way up. -/
theorem rank_lt {rank : String → Nat}
    (hrank : ∀ u ∈ t :: p.types, ∀ r ∈ u.supertypes, ∀ v ∈ p.resolve? r, rank v.name < rank u.name)
    (hu : u ∈ t :: p.types) (h : p.Reaches u v) : v = u ∨ rank v.name < rank u.name := by
  induction h with
  | refl => exact .inl rfl
  | @tail v w hv hw ih =>
    obtain ⟨r, hr, hres⟩ := hw
    have hlt := hrank v (mem_of_reaches hu hv) r hr w hres
    rcases ih with rfl | ih
    · exact .inr hlt
    · exact .inr (hlt.trans ih)

variable (h : p.WellFormed t)

include h

/-- The name tells what is reached. -/
theorem eq_of_name (hu : p.Reaches t u) (hv : p.Reaches t v) (hname : u.name = v.name) :
    u = v := by
  obtain ⟨rank, hrank⟩ := h.acyclic
  have hroot {w : TypeDecl} (hw : p.Reaches t w) (hname : w.name = t.name) : w = t :=
    (rank_lt hrank List.mem_cons_self hw).resolve_right (by rw [hname]; exact Nat.lt_irrefl _)
  rcases hu.eq_or_knows with rfl | hu'
  · exact (hroot hv hname.symm).symm
  · rcases hv.eq_or_knows with rfl | hv'
    · exact hroot hu hname
    · exact hu'.eq hv' hname

/-- **Identity tells methods apart.** -/
theorem eq_of_identity (hm : p.Inherits t m) (hn : p.Inherits t n)
    (hid : m.identity = n.identity) : m = n := by
  obtain ⟨-, -, u, hu, hm⟩ := hm
  obtain ⟨-, -, v, hv, hn⟩ := hn
  have hu' := mem_of_reaches List.mem_cons_self hu
  have hv' := mem_of_reaches List.mem_cons_self hv
  have howner : u.name = v.name := by
    rw [← h.owner u hu' m hm, ← h.owner v hv' n hn]
    exact congrArg MethodIdentity.owner hid
  obtain rfl := h.eq_of_name hu hv howner
  exact List.inj_on_of_nodup_map (h.distinct u hu') hm hn hid

/-- Interfaces inherit from interfaces only. -/
theorem isInterface_of_reaches (hu : p.Knows u) (hi : u.isInterface = true)
    (huv : p.Reaches u v) : v.isInterface = true := by
  induction huv with
  | refl => exact hi
  | @tail v w hv hw hi =>
    obtain ⟨r, hr, hres⟩ := hw
    have hmem := mem_of_reaches (List.mem_cons_of_mem t hu.mem) hv
    rw [TypeDecl.supertypes, h.rootless v hmem hi] at hr
    exact h.interfaces v hmem r hr w hres

/-- Between interfaces, to inherit is to be reached. -/
theorem inherits_iff (hu : p.Knows u) (hi : u.isInterface = true) :
    p.inherits u.name a = true ↔ ∃ v, p.Reaches u v ∧ v.name = a :=
  Pool.inherits_iff hu fun v hv => h.rootless v (mem_of_reaches (List.mem_cons_of_mem _ hu.mem) hv)
    (h.isInterface_of_reaches hu hi hv)

/-- Between known types, to inherit is to be reached. -/
theorem inherits_iff_reaches (hu : p.Knows u) (hv : p.Knows v) :
    p.inherits u.name v.name = true ↔ p.Reaches u v := by
  have hi : ∀ w, p.Reaches u w → ∀ r ∈ w.interfaces, ∀ x, p.resolve? r = some x →
      x.superclass = none := by
    intro w hw r hr x hx
    have hmem := mem_of_reaches (List.mem_cons_of_mem t hu.mem) hw
    refine h.rootless x (List.mem_cons_of_mem t (knows_of_resolve? hx).mem) ?_
    exact h.interfaces w hmem r hr x hx
  rw [inherits, hu, Option.any_some, isSubtype]
  simp only [Bool.or_eq_true, decide_eq_true_eq, List.any_eq_true, mem_hierarchy_iff hu hi]
  constructor
  · rintro ((hname | ⟨w, hw, hname⟩) | hsuper)
    · rw [hu.eq hv hname]
      exact .refl
    · rwa [← (hw.knows hu).eq hv hname]
    · obtain ⟨r, hr, hraw⟩ := Option.bind_eq_some_iff.1 hsuper
      exact .single (refers_of_superclass hr (Option.bind_eq_some_iff.2 ⟨_, hraw, hv⟩))
  · exact fun hreaches => .inl (.inr ⟨v, hreaches, rfl⟩)

theorem inherits_trans (ha : p.hasInterface a = true) (hab : p.inherits a b = true)
    (hbc : p.inherits b c = true) : p.inherits a c = true := by
  obtain ⟨u, hu, rfl, hi⟩ := hasInterface_iff.1 ha
  obtain ⟨v, hv, rfl⟩ := (h.inherits_iff hu hi).1 hab
  obtain ⟨w, hw, rfl⟩ := (h.inherits_iff (hv.knows hu) (h.isInterface_of_reaches hu hi hv)).1 hbc
  exact (h.inherits_iff hu hi).2 ⟨w, Relation.ReflTransGen.trans hv hw, rfl⟩

/-- Interfaces can be ranked such that an interface is above those that it inherits from. -/
theorem exists_rank : ∃ rank : String → Nat, ∀ a b, p.hasInterface a = true →
    p.inherits a b = true → a ≠ b → rank b < rank a := by
  obtain ⟨rank, hrank⟩ := h.acyclic
  refine ⟨rank, fun a b ha hab hne => ?_⟩
  obtain ⟨u, hu, rfl, hi⟩ := hasInterface_iff.1 ha
  obtain ⟨v, hv, rfl⟩ := (h.inherits_iff hu hi).1 hab
  exact (rank_lt hrank (List.mem_cons_of_mem _ hu.mem) hv).resolve_left fun e => hne (e ▸ rfl)

end WellFormed

end Pool

end ClassForge
