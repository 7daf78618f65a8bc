import ClassForge.Proofs.Tokens

/-!
# What detaching and attaching bring back

Detaching writes the placeholder for every plain mention of one type, and attaching writes a plain
mention for every placeholder. Neither looks for the other: what stood as the placeholder before
the one, or as a plain mention before the other, is not told apart from what was written in its
place. So a reference comes back from detaching and attaching exactly if no placeholder stands in
it, and from attaching and detaching exactly if the type is not mentioned (`detach_attach_iff` of
the module on tokens). The raw name of a parameterized type is a mention that both pass by, so it
does no harm.

The same is true of a whole member. It comes back from the two exactly if every reference in it
does, also those that its identity does not see: its exceptions, the bounds of its type variables,
and all type arguments.

## Main definitions

* `TypeRef.Survives` — a type is the same in a member of one type and in its copy in another
* `MethodToken.references` — every reference that is written in a token

## Main results

* `TypeRef.attach_detach_iff` — which types survive the move from one owner to another
* `Method.attach_detach_iff` — which methods are the same in every component after it
* `MethodToken.detach_attach_iff` — which tokens come back from the methods that they describe
* `detaching_inverts_attaching` — the moves back and forth between a type and its tokens
-/

namespace ClassForge

namespace TypeRef

variable {owner name : String}

/-! ### Types that come back unchanged -/

/-- The reference survives the move from a member of one type to a member of another: it does not
mention the one type plainly, unless the two are the same, and it has no placeholder. -/
structure Survives (owner name : String) (t : TypeRef) : Prop where
  owner : Occurs (named owner) t → owner = name
  target : ¬ Occurs target t

theorem survives_iff {t : TypeRef} :
    t.Survives owner name ↔ (Occurs (named owner) t → owner = name) ∧ ¬ Occurs target t :=
  ⟨fun h => ⟨h.owner, h.target⟩, fun h => ⟨h.1, h.2⟩⟩

theorem survives_parameterized_iff {raw : String} {arguments : List TypeRef} :
    (parameterized raw arguments).Survives owner name ↔ ∀ a ∈ arguments, a.Survives owner name := by
  simp only [survives_iff, occurs_parameterized_iff, reduceCtorEq, false_or]
  constructor
  · rintro ⟨howner, htarget⟩ a ha
    exact ⟨fun h => howner ⟨a, ha, h⟩, fun h => htarget ⟨a, ha, h⟩⟩
  · intro h
    refine ⟨?_, ?_⟩
    · rintro ⟨a, ha, hin⟩
      exact (h a ha).1 hin
    · rintro ⟨a, ha, hin⟩
      exact (h a ha).2 hin

mutual

/-- **A type comes back unchanged** from the move to another owner exactly if it survives the
move. -/
theorem attach_detach_iff (owner name : String) :
    (t : TypeRef) → ((t.detach owner).attach name = t ↔ t.Survives owner name)
  | void => by simp [detach, attach, survives_iff]
  | primitive _ => by simp [detach, attach, survives_iff]
  | named n => by
    by_cases h : n = owner
    · simp [detach, attach, survives_iff, h, eq_comm]
    · simp [detach, attach, survives_iff, h, Ne.symm h]
  | parameterized raw arguments => by
    rw [survives_parameterized_iff, ← attachAll_detachAll_iff owner name arguments]
    simp [detach, attach]
  | typeVar symbol b => by
    have ih := attach_detach_iff owner name b
    simpa [detach, attach, survives_iff] using ih
  | array c => by
    have ih := attach_detach_iff owner name c
    simpa [detach, attach, survives_iff] using ih
  | target => by simp [detach, attach, survives_iff]

/-- `attach_detach_iff` on every reference of a list. -/
theorem attachAll_detachAll_iff (owner name : String) :
    (ts : List TypeRef) →
      (attachAll name (detachAll owner ts) = ts ↔ ∀ t ∈ ts, t.Survives owner name)
  | [] => by simp [detachAll, attachAll]
  | t :: ts => by
    simp only [detachAll, attachAll, List.cons.injEq, List.forall_mem_cons]
    rw [attach_detach_iff owner name t, attachAll_detachAll_iff owner name ts]

end

instance (owner name : String) (t : TypeRef) : Decidable (t.Survives owner name) :=
  decidable_of_iff _ (attach_detach_iff owner name t)

end TypeRef

/-! ### Members -/

/-- A list is unchanged by a function on its elements exactly if every element is. -/
theorem map_eq_self_iff {α : Type} {f : α → α} {l : List α} : l.map f = l ↔ ∀ a ∈ l, f a = a := by
  simpa using (List.map_inj_left : l.map f = l.map id ↔ _)

namespace MethodToken

/-- Every reference that is written in the token. -/
def references (t : MethodToken) : List TypeRef :=
  t.returnType :: (t.parameterTypes ++ t.exceptions ++ t.typeVariables.map (·.bound))

theorem mapTypes_mapTypes (t : MethodToken) (f g : TypeRef → TypeRef) :
    (t.mapTypes f).mapTypes g = t.mapTypes fun u => g (f u) := by
  simp [mapTypes, Function.comp_def]

/-- A token is the same in every component once its references are changed exactly if each of them
is the same. -/
theorem mapTypes_eq_self_iff {t : MethodToken} {f : TypeRef → TypeRef} :
    t.mapTypes f = t ↔ ∀ u ∈ t.references, f u = u := by
  have hparameter (p : Parameter) : { p with type := f p.type } = p ↔ f p.type = p.type := by
    cases p
    simp
  have hvariable (v : TypeVariable) : { v with bound := f v.bound } = v ↔ f v.bound = v.bound := by
    cases v
    simp
  cases t with
  | mk name modifiers returnType parameters exceptions typeVariables annotations defaultValue =>
    simp only [mapTypes, references, parameterTypes, mk.injEq, true_and, and_true, map_eq_self_iff,
      hparameter, hvariable, List.forall_mem_cons, List.forall_mem_append, List.forall_mem_map,
      and_assoc]

/-- **A token comes back from the method that it describes** exactly if it does not mention the
owner of the method. -/
theorem detach_attach_iff {t : MethodToken} {owner : String} :
    (t.attach owner).detach = t ↔ ∀ u ∈ t.references, ¬ TypeRef.Occurs (.named owner) u := by
  have hmoved : (t.attach owner).detach = t.mapTypes fun u => (u.attach owner).detach owner :=
    mapTypes_mapTypes t _ _
  rw [hmoved, mapTypes_eq_self_iff]
  simp only [TypeRef.detach_attach_iff]

end MethodToken

namespace Method

/-- **A method is the same in its copy on another type**, in every component but the owner, exactly
if every reference in it survives the move. -/
theorem attach_detach_iff {m : Method} {name : String} :
    m.detach.attach name = { m with owner := name } ↔
      ∀ u ∈ m.references, u.Survives m.owner name := by
  have hmoved : m.detach.attach name =
      { m.mapTypes fun u => (u.detach m.owner).attach name with owner := name } := by
    rw [← MethodToken.mapTypes_mapTypes]
    rfl
  have hcopy (t : MethodToken) :
      ({ t with owner := name } : Method) = { m with owner := name } ↔ t = m.toMethodToken := by
    rw [mk.injEq]
    simp
  rw [hmoved, hcopy, MethodToken.mapTypes_eq_self_iff]
  simp only [TypeRef.attach_detach_iff]

/-- A placeholder among the exceptions does not come back, which the identity does not show. -/
example :
    let m : Method :=
      { owner := "a.Node", name := "next", modifiers := .of [.accPublic], exceptions := [.target] }
    (m.detach.attach m.owner).identity = m.identity ∧ m.detach.attach m.owner ≠ m := by
  decide

end Method

/-- **Detaching and attaching undo each other exactly where what they write did not stand before.**
A reference comes back from being detached if no placeholder occurs in it, and from being attached
if the owner is not plainly mentioned, at whatever depth, and not otherwise. The same holds of
methods and of tokens in all their components: flags, type variables with their bounds, return
type, parameters with their names and flags, exceptions, annotations and default value. -/
theorem detaching_inverts_attaching (owner : String) (t : TypeRef) (m : Method)
    (token : MethodToken) :
    ((t.detach owner).attach owner = t ↔ ¬ TypeRef.Occurs .target t) ∧
    ((t.attach owner).detach owner = t ↔ ¬ TypeRef.Occurs (.named owner) t) ∧
    (m.detach.attach m.owner = m ↔ ∀ u ∈ m.references, ¬ TypeRef.Occurs .target u) ∧
    ((token.attach owner).detach = token ↔
      ∀ u ∈ token.references, ¬ TypeRef.Occurs (.named owner) u) := by
  have hback (owner : String) (u : TypeRef) :
      u.Survives owner owner ↔ ¬ TypeRef.Occurs .target u := by
    simp [TypeRef.survives_iff]
  refine ⟨?_, TypeRef.detach_attach_iff owner t, ?_, MethodToken.detach_attach_iff⟩
  · rw [TypeRef.attach_detach_iff, hback]
  · have h : m.detach.attach m.owner = { m with owner := m.owner } ↔ _ := Method.attach_detach_iff
    simpa only [hback] using h

end ClassForge
