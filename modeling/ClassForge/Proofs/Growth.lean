import ClassForge.Proofs.SameHeader
import ClassForge.Registry.Handler

/-!
# How handlers let a draft grow

Before any method is bound, each handler may extend the draft. What it can do is narrow: it never
touches the header or a member that is there, and the methods that it adds are helpers, which are
private and static. A draft that has grown therefore differs from the original only by fields and
by helpers behind the declared methods; in particular it has the same virtual methods.

## Main definitions

* `Method.IsHelper` — what implementations add
* `Draft.Grows` — a draft with members added
* `Draft.Gains` — a method that is new in the grown draft

## Main results

* `Handler.grows_of_prepare` — preparing lets a draft grow and does nothing else
* `Draft.Grows.virtual` — no virtual method is added
-/

namespace ClassForge

/-- The method is a helper, which some implementation asks the type `owner` for. -/
def Method.IsHelper (owner : String) (m : Method) : Prop :=
  ∃ name returnType, m = (helperToken name returnType).attach owner

namespace Method.IsHelper

variable {owner : String} {m : Method}

theorem owner_eq (h : m.IsHelper owner) : m.owner = owner := by
  obtain ⟨name, returnType, rfl⟩ := h
  rfl

theorem isStatic (h : m.IsHelper owner) : m.isStatic = true := by
  obtain ⟨name, returnType, rfl⟩ := h
  simp [Method.isStatic, MethodToken.attach, MethodToken.mapTypes, helperToken]

theorem parameters_eq (h : m.IsHelper owner) : m.parameters = [] := by
  obtain ⟨name, returnType, rfl⟩ := h
  rfl

theorem isVirtual (h : m.IsHelper owner) : m.isVirtual = false := by
  simp [Method.isVirtual, h.isStatic]

end Method.IsHelper

/-! ### Growing -/

namespace Draft

/-- The second draft is the first with members added: fields, and helpers behind the methods. -/
structure Grows (d d' : Draft) : Prop extends TypeDecl.SameHeader d.decl d'.decl where
  methods : ∃ helpers, d'.decl.methods = d.decl.methods ++ helpers ∧
    ∀ m ∈ helpers, m.IsHelper d.decl.name

/-- The second draft declares a method of that identity and the first does not. -/
def Gains (d d' : Draft) (k : MethodIdentity) : Prop :=
  k ∈ d'.decl.methods.map (·.identity) ∧ k ∉ d.decl.methods.map (·.identity)

instance (d d' : Draft) (k : MethodIdentity) : Decidable (d.Gains d' k) :=
  inferInstanceAs (Decidable (_ ∧ _))

namespace Grows

variable {d d' d'' : Draft}

theorem refl (d : Draft) : d.Grows d :=
  { TypeDecl.SameHeader.refl d.decl with methods := ⟨[], by simp⟩ }

theorem trans (h : d.Grows d') (h' : d'.Grows d'') : d.Grows d'' := by
  obtain ⟨hs, hm, hh⟩ := h.methods
  obtain ⟨hs', hm', hh'⟩ := h'.methods
  refine { h.toSameHeader.trans h'.toSameHeader with methods := ⟨hs ++ hs', ?_, ?_⟩ }
  · rw [hm', hm, List.append_assoc]
  · intro m hmem
    rcases List.mem_append.1 hmem with hmem | hmem
    · exact hh m hmem
    · exact h.name ▸ hh' m hmem

theorem addHelper (d : Draft) (name : String) (returnType : TypeRef) :
    d.Grows (d.addMethod (helperToken name returnType)) :=
  { TypeDecl.SameHeader.refl d.decl with
    methods := ⟨[(helperToken name returnType).attach d.decl.name], rfl, by
      simp only [List.mem_singleton]
      rintro m rfl
      exact ⟨name, returnType, rfl⟩⟩ }

theorem addField (d : Draft) (t : FieldToken) : d.Grows (d.addField t) :=
  { TypeDecl.SameHeader.refl d.decl with methods := ⟨[], by simp [Draft.addField]⟩ }

theorem mem (h : d.Grows d') {m : Method} (hm : m ∈ d.decl.methods) : m ∈ d'.decl.methods := by
  obtain ⟨hs, hms, -⟩ := h.methods
  exact hms ▸ List.mem_append_left _ hm

theorem mem_or_isHelper (h : d.Grows d') {m : Method} (hm : m ∈ d'.decl.methods) :
    m ∈ d.decl.methods ∨ m.IsHelper d.decl.name := by
  obtain ⟨hs, hms, hh⟩ := h.methods
  rw [hms] at hm
  exact (List.mem_append.1 hm).imp id (hh m)

/-- **A draft gains no virtual method.** -/
theorem virtual (h : d.Grows d') :
    d'.decl.methods.filter (·.isVirtual) = d.decl.methods.filter (·.isVirtual) := by
  obtain ⟨hs, hms, hh⟩ := h.methods
  have none : hs.filter (·.isVirtual) = [] :=
    List.filter_eq_nil_iff.2 fun m hm => by simp [(hh m hm).isVirtual]
  rw [hms, List.filter_append, none, List.append_nil]

theorem compile (h : d.Grows d') (s : GraphScope) (p : Pool) :
    s.compile p d'.decl = s.compile p d.decl :=
  s.compile_sameHeader p h.toSameHeader h.virtual

end Grows

theorem Gains.owner_eq {d d' : Draft} (h : d.Grows d') {k : MethodIdentity} (hk : d.Gains d' k) :
    k.owner = d.decl.name := by
  obtain ⟨hin, hout⟩ := hk
  obtain ⟨m, hm, rfl⟩ := List.mem_map.1 hin
  rcases h.mem_or_isHelper hm with hm | hm
  · exact absurd (List.mem_map_of_mem hm) hout
  · exact hm.owner_eq

/-- A method that the draft declares is not gained by it, and no method of another type is. -/
theorem Grows.not_gains {d d' : Draft} (hg : d.Grows d') {m : Method}
    (h : m.owner = d.decl.name → m ∈ d.decl.methods) : ¬ d.Gains d' m.identity := by
  intro hgains
  exact hgains.2 (List.mem_map_of_mem (h (Gains.owner_eq hg hgains)))

end Draft

/-! ### Preparing -/

namespace Implementation

mutual

theorem grows_prepare : (i : Implementation) → (d : Draft) → d.Grows (i.prepare d)
  | stub, d | fixed _, d | callSuper, d | throwNew _ _, d | accessField _ none, d => .refl d
  | accessField _ (some _), d => .addField d _
  | callHelper name returnType _, d => .addHelper d name returnType
  | sequence parts, d => grows_prepareAll parts d

theorem grows_prepareAll : (is : List Implementation) → (d : Draft) → d.Grows (prepareAll d is)
  | [], d => .refl d
  | i :: is, d => (grows_prepare i d).trans (grows_prepareAll is (i.prepare d))

end

end Implementation

/-- **Preparing lets a draft grow and does nothing else.** -/
theorem Handler.grows_of_prepare {h : Handler} {d d' : Draft} (hd : h.prepare d = .ok d') :
    d.Grows d' := by
  cases h with
  | noCode | defaultValue =>
    obtain rfl := Except.ok.inj hd
    exact .refl d
  | implement i =>
    obtain rfl := Except.ok.inj hd
    exact i.grows_prepare d
  | bridge => cases hd

end ClassForge
