import ClassForge.Proofs.RoundTrips
import ClassForge.Proofs.SuperConstructors

/-!
# Imitated constructors and their parameters

Three of the strategies declare a constructor on a type for every constructor of its superclass that
they imitate, in the order in which the superclass has them. What is imitated is the constructor as
the type sees it, with type variables replaced as the reference to the superclass says. It moves
through a token: it is detached from the superclass, and the token is attached to the type.

A parameter keeps its type on this way exactly if the superclass does not occur in it by its plain
name (`TypeRef.attach_detach_iff`). Detaching writes the placeholder for every such mention, however
deep it stands, and attaching makes the placeholder a mention of the type. The raw name of a
parameterized type is not touched by either, nor is a mention of the type itself or a type variable
that is left.

## Main definitions

* `ConstructorStrategy.imitated` — the constructors that a strategy imitates
* `ConstructorStrategy.Imitates` — what a token has of the constructor that it imitates

## Main results

* `ConstructorStrategy.imitated_parameters` — the tokens of the strategies, and which of them keep
  their parameters
* `ConstructorStrategy.imitated_parameter_changes` — one that does not
-/

namespace ClassForge

/-- Attached to a type, a detached method has its parameter types again exactly if they survive the
move. -/
theorem Method.parameterTypes_attach_detach_iff {m : Method} {name : String} :
    (m.detach.attach name).parameterTypes = m.parameterTypes ↔
      ∀ t ∈ m.parameterTypes, t.Survives m.owner name := by
  rw [← TypeRef.attachAll_detachAll_iff, TypeRef.attachAll_eq_map, TypeRef.detachAll_eq_map]
  simp [MethodToken.attach, Method.detach, MethodToken.mapTypes, MethodToken.parameterTypes,
    Function.comp_def]

namespace ConstructorStrategy

variable {s : ConstructorStrategy} {p : Pool} {t : TypeDecl} {tokens : List MethodToken}

/-! ### What is imitated -/

/-- The strategy declares what the superclass has. -/
def IsImitating (s : ConstructorStrategy) : Prop :=
  s = imitate ∨ s = imitatePublic ∨ s = imitateOpening

instance : DecidablePred IsImitating := fun s =>
  inferInstanceAs (Decidable (s = imitate ∨ s = imitatePublic ∨ s = imitateOpening))

/-- The constructors of the superclass that a strategy imitates: the public ones, or all that are
visible to the type. -/
def imitated (s : ConstructorStrategy) (p : Pool) (t superclass : TypeDecl) : List Method :=
  match s with
  | noConstructors | withoutParameters => []
  | imitatePublic => superclass.methods.filter fun m => m.isConstructor && m.isPublic
  | imitate | imitateOpening => visibleConstructors p t superclass

/-- What the token has of the constructor that it imitates, which is seen as the type `name` sees
it. -/
structure Imitates (s : ConstructorStrategy) (name : String) (c : Method) (token : MethodToken) :
    Prop where
  modifiers : token.modifiers =
    if s = imitateOpening then c.modifiers.withVisibility .pub else c.modifiers
  rest : { token with modifiers := c.modifiers } = c.detach
  parameterTypes : (token.attach name).parameterTypes = c.parameterTypes ↔
    ∀ x ∈ c.parameterTypes, x.Survives c.owner name

/-- A public constructor is visible to every type. -/
theorem filter_isPublic_visibleConstructors (p : Pool) (t superclass : TypeDecl) :
    (visibleConstructors p t superclass).filter (·.isPublic) =
      superclass.methods.filter fun m => m.isConstructor && m.isPublic := by
  rw [visibleConstructors, List.filter_filter]
  refine List.filter_congr fun m _ => ?_
  cases hpublic : m.isPublic with
  | false => simp
  | true =>
    have hvisible : m.isVisibleTo t p = true := by
      have hflag : m.modifiers.has .accPublic = true := hpublic
      rw [Method.isVisibleTo, Pool.isMemberVisible, hflag]
      rfl
    simp [hvisible]

theorem imitates_tokenOf (hs : s ≠ imitateOpening) (name : String) (c : Method) (b : Bindings) :
    s.Imitates name (c.inShape b) (imitations.tokenOf b c) where
  modifiers := (if_neg hs).symm
  rest := rfl
  parameterTypes := Method.parameterTypes_attach_detach_iff

/-- The tokens of a strategy that imitates, constructor by constructor. -/
theorem forall₂_imitations {superclass : TypeDecl} {b : Bindings} (hs : s.IsImitating)
    (h : s.imitations t superclass b (visibleConstructors p t superclass) = .ok tokens) :
    List.Forall₂ (fun c token => s.Imitates t.name (c.inShape b) token)
      (s.imitated p t superclass) tokens := by
  rcases hs with rfl | rfl | rfl
  · obtain rfl := Except.ok.inj h
    have hsame : imitate ≠ imitateOpening := by decide
    exact List.forall₂_map_right_iff.2
      (List.forall₂_same.2 fun c _ => imitates_tokenOf hsame t.name c b)
  · obtain rfl := Except.ok.inj h
    have hsame : imitatePublic ≠ imitateOpening := by decide
    rw [filter_isPublic_visibleConstructors]
    exact List.forall₂_map_right_iff.2
      (List.forall₂_same.2 fun c _ => imitates_tokenOf hsame t.name c b)
  · obtain rfl := Except.ok.inj h
    refine List.forall₂_map_right_iff.2 (List.forall₂_same.2 fun c _ => ?_)
    exact ⟨rfl, rfl, Method.parameterTypes_attach_detach_iff⟩

/-- **Imitated constructors and their parameters.** The tokens of a strategy that imitates belong
to the constructors of the superclass, in order. Attached to the type, a token has the parameter
types of its constructor, as the type sees them, exactly if they survive the move from the
superclass to the type. -/
theorem imitated_parameters (hs : s.IsImitating) (h : s.tokens t p = .ok tokens) :
    match t.superclass with
    | none => tokens = []
    | some reference => ∃ superclass, p.resolve? reference = some superclass ∧
      List.Forall₂
        (fun c token => s.Imitates t.name (c.inShape (superclass.bindings reference)) token)
        (s.imitated p t superclass) tokens := by
  have hsome : s ≠ noConstructors := by
    rintro rfl
    revert hs
    decide
  rw [ConstructorStrategy.tokens, if_neg hsome] at h
  cases hsuper : t.superclass with
  | none =>
    rw [hsuper] at h
    exact (Except.ok.inj h).symm
  | some reference =>
    rw [hsuper] at h
    dsimp only at h
    split at h
    · cases h
    · rename_i name hname
      obtain ⟨superclass, hresolve, h⟩ := ok_of_bind h
      have hknown := Implementation.resolve_eq_ok_iff.1 hresolve
      exact ⟨superclass, Option.bind_eq_some_iff.2 ⟨name, hname, hknown⟩, forall₂_imitations hs h⟩

/-- A type variable is replaced at any depth, and a mention of the superclass with type arguments
and one of the type itself stay. -/
theorem imitated_parameters_generic :
    let string : TypeRef := .named "java.lang.String"
    let taking (t : TypeRef) : List Parameter :=
      [{ type := .array t }, { type := .parameterized "a.Box" [t] }, { type := .named "b.Sub" }]
    let box : TypeDecl :=
      { name := "a.Box", modifiers := .of [.accPublic], typeVariables := [{ symbol := "T" }]
        methods := [{ owner := "a.Box", name := constructorName, modifiers := .of [.accProtected]
                      parameters := taking (.typeVar "T" .object) }] }
    let sub : TypeDecl :=
      { name := "b.Sub", modifiers := .of [.accPublic]
        superclass := some (.parameterized "a.Box" [string]) }
    ∃ token, imitateOpening.tokens sub (Pool.empty.register box) = .ok [token] ∧
      token.modifiers = .of [.accPublic] ∧
      (token.attach sub.name).parameterTypes = (taking string).map (·.type) := by
  intro string taking box sub
  have extracted : (imitateOpening.tokens sub (Pool.empty.register box)).toOption.any
      (fun tokens => decide (tokens.length = 1)) = true := by
    decide +kernel
  obtain ⟨tokens, htokens, hlength⟩ := exists_ok_of_any extracted
  obtain ⟨token, rfl⟩ := List.length_eq_one_iff.1 (of_decide_eq_true hlength)
  obtain ⟨superclass, hresolve, hall⟩ := imitated_parameters (by decide) htokens
  obtain rfl : box = superclass := Option.some.inj hresolve
  have hsole : imitateOpening.imitated (Pool.empty.register box) sub box = box.methods := by
    decide +kernel
  rw [hsole] at hall
  cases hall with
  | cons himitates _ =>
    exact ⟨token, htokens, himitates.modifiers.trans (by decide +kernel),
      himitates.parameterTypes.2 (by decide +kernel)⟩

/-- The superclass by its plain name becomes the type. -/
theorem imitated_parameter_changes :
    let declare (name : String) (superclass : TypeRef) (methods : List Method) : TypeDecl :=
      { name, modifiers := .of [.accPublic], superclass := some superclass, methods }
    let node := declare "a.Node" .object
      [{ owner := "a.Node", name := constructorName, modifiers := .of [.accPublic]
         parameters := [{ type := .named "a.Node" }] }]
    let sub := declare "b.Sub" (.named "a.Node") []
    ∃ token, imitate.tokens sub (Pool.empty.register node) = .ok [token] ∧
      (imitate.imitated (Pool.empty.register node) sub node).map
        (fun c => (c.inShape (node.bindings (.named "a.Node"))).parameterTypes) =
          [[.named "a.Node"]] ∧
      (token.attach sub.name).parameterTypes = [.named "b.Sub"] := by
  intro declare node sub
  have extracted : (imitate.tokens sub (Pool.empty.register node)).toOption.any (fun tokens =>
      decide (tokens.length = 1) && decide (tokens.map (fun token =>
        (token.attach sub.name).parameterTypes) = [[.named "b.Sub"]])) = true := by
    decide +kernel
  obtain ⟨tokens, htokens, hfacts⟩ := exists_ok_of_any extracted
  rw [Bool.and_eq_true, decide_eq_true_eq, decide_eq_true_eq] at hfacts
  obtain ⟨token, rfl⟩ := List.length_eq_one_iff.1 hfacts.1
  exact ⟨token, htokens, by decide +kernel, (List.cons.inj hfacts.2).1⟩

end ConstructorStrategy

end ClassForge
