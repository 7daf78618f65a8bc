import ClassForge.Proofs.Compilation
import ClassForge.Relocation

/-!
# Which methods are moved, and where to

Three keys are at work when code is moved aside. Methods are chosen by their tokens, which are
compared as they are written. What becomes of them is kept by identity, that is by owner and erased
signature. Calls inside the type look it up by the erased signature alone.

The three agree as long as the methods of a type have different identities and all name the type as
their owner: then a chosen method has an entry of its own under either of the other keys, and
nothing else has one (`RelocationPlan.entries_moves_of`, `RelocationPlan.entries_bySignature_of`).

## Main definitions

* `TypeDecl.chosen` — the methods whose tokens are given
* `Relocation.IsRenamed`, `Relocation.IsPadded` — the moved code of an ordinary method, and of a
  constructor
* `RelocationPlan.MovesExactly` — a plan that moves some methods and nothing else

## Main results

* `RelocationPlan.find_of_mem` — where a chosen method is moved
* `RelocationPlan.moves_exactly_chosen` — what is moved, and where to
-/

namespace ClassForge

/-- The methods of the type whose tokens are given. -/
def TypeDecl.chosen (t : TypeDecl) (tokens : List MethodToken) : List Method :=
  t.methods.filter fun m => tokens.any (·.key = m.detach.key)

/-- The method `r` of the type `t` has the code of the ordinary method `m`, under another name. -/
structure Relocation.IsRenamed (t : TypeDecl) (naming : Naming) (m r : Method) : Prop where
  owner : r.owner = t.name
  name : r.name = naming.apply m
  returnType : r.returnType = m.returnType.erasure
  parameterTypes : r.parameterTypes = m.erasedParameterTypes
  /-- It stays static or native, and has only two flags besides. -/
  flags : ∀ f, r.modifiers.has f = true ↔
    f = .accSynthetic ∨ f ∈ [.accStatic, .accNative] ∧ m.modifiers.has f = true ∨
      f = if t.isInterface then .accPublic else .accPrivate

/-- The constructor `r` has the code of the constructor `m`, and takes one more argument. -/
structure Relocation.IsPadded (placeholder : TypeDecl) (m r : Method) : Prop where
  isConstructor : r.isConstructor = true
  owner : r.owner = m.owner
  returnType : r.returnType = .void
  parameterTypes : r.parameterTypes = m.erasedParameterTypes ++ [placeholder.reference]
  flags : ∀ f, r.modifiers.has f = true ↔ f = .accSynthetic ∨ f = .accPrivate

namespace Relocation

theorem isRenamed_rename (t : TypeDecl) (naming : Naming) (m : Method) :
    IsRenamed t naming m (rename t naming m).method where
  owner := rfl
  name := rfl
  returnType := rfl
  parameterTypes := by
    simp [rename, method, MethodToken.parameterTypes, Method.erasedParameterTypes]
  flags f := by
    cases hi : t.isInterface <;>
      simp [rename, method, movedModifiers, hi, Visibility.flags, or_assoc, and_comm]

theorem isPadded_pad (placeholder : TypeDecl) (m : Method) :
    IsPadded placeholder m (pad placeholder.name m).method where
  isConstructor := rfl
  owner := rfl
  returnType := rfl
  parameterTypes := by
    simp [pad, method, MethodToken.constructor, MethodToken.parameterTypes, TypeDecl.reference,
      Function.comp_def]
  flags f := by simp [pad, method, MethodToken.constructor]

end Relocation

namespace RelocationPlan

variable {t : TypeDecl} {tokens : List MethodToken} {suffix : String} {naming : Naming}

theorem isMoved_move (t : TypeDecl) (suffix : String) (naming : Naming) (m : Method) :
    (move t suffix naming m).isMoved = true := by
  unfold move
  split <;> rfl

/-! ### By identity -/

/-- The chosen methods have an entry each, in the order of their declaration. -/
theorem entries_moves_of (h : (t.methods.map (·.identity)).Nodup) :
    (of t tokens suffix naming).moves.entries =
      (t.chosen tokens).map fun m => (m.identity, move t suffix naming m) := by
  refine OrderedMap.entries_ofList ?_
  rw [List.map_map]
  exact h.sublist (List.filter_sublist.map _)

/-- **Where a chosen method is moved**, whichever declaration of its identity it is looked up by. -/
theorem find_of_mem (h : (t.methods.map (·.identity)).Nodup) {m n : Method}
    (hn : n ∈ t.chosen tokens) (hm : n.identity = m.identity) :
    (of t tokens suffix naming).find m = move t suffix naming n := by
  have hget : (of t tokens suffix naming).moves.get? m.identity =
      some (move t suffix naming n) := by
    rw [OrderedMap.get?_eq_some_iff, entries_moves_of h, ← hm]
    exact List.mem_map_of_mem (f := fun m => (m.identity, move t suffix naming m)) hn
  rw [find, hget, Option.getD_some]

/-- No other method is moved. -/
theorem find_of_forall_ne (h : (t.methods.map (·.identity)).Nodup) {m : Method}
    (hm : ∀ n ∈ t.chosen tokens, n.identity ≠ m.identity) :
    (of t tokens suffix naming).find m = .kept m := by
  have hget : (of t tokens suffix naming).moves.get? m.identity = .none := by
    refine Option.eq_none_iff_forall_ne_some.2 fun r hr => ?_
    rw [OrderedMap.get?_eq_some_iff, entries_moves_of h] at hr
    obtain ⟨n, hn, heq⟩ := List.mem_map.1 hr
    exact hm n hn (congrArg Prod.fst heq)
  rw [find, hget, Option.getD_none]

/-! ### By signature -/

/-- The chosen methods have an entry each by their signatures as well. -/
theorem entries_bySignature_of (howner : ∀ m ∈ t.methods, m.owner = t.name)
    (h : (t.methods.map (·.identity)).Nodup) :
    (of t tokens suffix naming).bySignature.entries =
      (t.chosen tokens).map fun m => (m.signature, move t suffix naming m) := by
  have hentries : (of t tokens suffix naming).moves.entries.map (fun e => (e.1.toSignature, e.2)) =
      (t.chosen tokens).map fun m => (m.signature, move t suffix naming m) := by
    rw [entries_moves_of h, List.map_map]
    rfl
  rw [bySignature, hentries]
  refine OrderedMap.entries_ofList ?_
  rw [List.map_map]
  refine List.Nodup.sublist (List.filter_sublist.map _) ?_
  refine List.pairwise_map.2 ((List.pairwise_map.1 h).imp_of_mem fun {m n} hm hn hne heq => hne ?_)
  have hsignature : m.signature = n.signature := heq
  rw [Method.identity, Method.identity, hsignature, howner m hm, howner n hn]

/-! ### The plan -/

theorem placeholder_of_mem {m : Method} (hm : m ∈ t.chosen tokens)
    (hconstructor : m.isConstructor = true) :
    (of t tokens suffix naming).placeholder = some (placeholderFor t suffix) :=
  if_pos (List.any_eq_true.2 ⟨m, hm, hconstructor⟩)

theorem isSome_placeholder_iff :
    (of t tokens suffix naming).placeholder.isSome = true ↔
      ∃ m ∈ t.chosen tokens, m.isConstructor = true := by
  rw [← List.any_eq_true]
  change (if (t.chosen tokens).any (·.isConstructor) then some (placeholderFor t suffix)
    else .none).isSome = true ↔ _
  split <;> simp_all

/-- The plan moves the methods `ms` of the type `t`, and it moves nothing else. -/
structure MovesExactly (plan : RelocationPlan) (t : TypeDecl) (naming : Naming)
    (ms : List Method) : Prop where
  isMoved_iff : ∀ m, (plan.find m).isMoved = true ↔ ∃ n ∈ ms, n.identity = m.identity
  /-- Of a method that is moved nothing but its identity matters. -/
  find_eq : ∀ m, ∀ n ∈ ms, n.identity = m.identity → plan.find m = plan.find n
  kept : ∀ m, (∀ n ∈ ms, n.identity ≠ m.identity) → plan.find m = .kept m
  /-- Ordinary methods become synthetic methods of another name. -/
  renamed : ∀ m ∈ ms, m.isConstructor = false → ∃ r, plan.find m = .renamed r ∧
    Relocation.IsRenamed t naming m r ∧ (plan.find m).additionalArguments = .ok .empty
  /-- Constructors become constructors that take `null` as well. They share one placeholder. -/
  padded : ∀ m ∈ ms, m.isConstructor = true → ∃ r, ∃ p ∈ plan.placeholder,
    plan.find m = .padded r p.name ∧ Relocation.IsPadded p m r ∧
      (plan.find m).additionalArguments = .ok .pushNull
  placeholder_iff : plan.placeholder.isSome = true ↔ ∃ m ∈ ms, m.isConstructor = true
  bySignature_iff : ∀ s r, plan.bySignature.get? s = some r ↔
    ∃ m ∈ ms, m.signature = s ∧ r = plan.find m

/-- **What is moved, and where to.** If the methods of a type name it as their owner and have
different identities, the plan for some tokens moves exactly those methods whose tokens are
given. -/
theorem moves_exactly_chosen (howner : ∀ m ∈ t.methods, m.owner = t.name)
    (hdistinct : (t.methods.map (·.identity)).Nodup) (tokens : List MethodToken) (suffix : String)
    (naming : Naming) :
    (of t tokens suffix naming).MovesExactly t naming (t.chosen tokens) where
  isMoved_iff m := by
    by_cases h : ∃ n ∈ t.chosen tokens, n.identity = m.identity
    · obtain ⟨n, hn, hm⟩ := h
      rw [find_of_mem hdistinct hn hm, isMoved_move]
      exact iff_of_true rfl ⟨n, hn, hm⟩
    · rw [find_of_forall_ne hdistinct fun n hn hm => h ⟨n, hn, hm⟩]
      exact iff_of_false nofun h
  find_eq m n hn hm := by rw [find_of_mem hdistinct hn hm, find_of_mem hdistinct hn rfl]
  kept m hm := find_of_forall_ne hdistinct hm
  renamed m hm hordinary := by
    rw [find_of_mem hdistinct hm rfl, move, if_neg (Bool.eq_false_iff.1 hordinary)]
    exact ⟨_, rfl, Relocation.isRenamed_rename t naming m, rfl⟩
  padded m hm hconstructor := by
    rw [find_of_mem hdistinct hm rfl, move, if_pos hconstructor]
    exact ⟨_, _, placeholder_of_mem hm hconstructor, rfl, Relocation.isPadded_pad _ m, rfl⟩
  placeholder_iff := isSome_placeholder_iff
  bySignature_iff s r := by
    rw [OrderedMap.get?_eq_some_iff, entries_bySignature_of howner hdistinct, List.mem_map]
    simp only [Prod.mk.injEq]
    constructor
    · rintro ⟨m, hm, hs, rfl⟩
      exact ⟨m, hm, hs, (find_of_mem hdistinct hm rfl).symm⟩
    · rintro ⟨m, hm, hs, rfl⟩
      exact ⟨m, hm, hs, (find_of_mem hdistinct hm rfl).symm⟩

/-- Of a type with two constructors, one of them is moved with a method that returns the type. -/
theorem moves_exactly_chosen_partly :
    let one : Method := (MethodToken.constructor (.of [.accPublic]) []).attach "a.Box"
    let two : Method :=
      (MethodToken.constructor (.of [.accPublic]) [.typeVar "T" .object]).attach "a.Box"
    let self : Method :=
      { owner := "a.Box", name := "self", modifiers := .of [.accPublic, .accFinal]
        returnType := .named "a.Box" }
    let t : TypeDecl :=
      { name := "a.Box", modifiers := .of [.accPublic], typeVariables := [{ symbol := "T" }]
        methods := [one, two, self] }
    let tokens : List MethodToken :=
      [{ name := "self", modifiers := .empty, returnType := .target },
        .constructor .empty [.typeVar "T" .object]]
    (∀ m ∈ t.methods, m.owner = t.name) ∧ (t.methods.map (·.identity)).Nodup ∧
      t.chosen tokens = [two, self] ∧
      (of t tokens "original" .default).MovesExactly t .default (t.chosen tokens) := by
  intro one two self t tokens
  have howner : ∀ m ∈ t.methods, m.owner = t.name := by decide
  have hdistinct : (t.methods.map (·.identity)).Nodup := by decide
  exact ⟨howner, hdistinct, by decide +kernel,
    moves_exactly_chosen howner hdistinct tokens "original" .default⟩

end RelocationPlan

end ClassForge
