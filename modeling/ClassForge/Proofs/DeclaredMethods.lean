import ClassForge.Proofs.FirstMatch
import ClassForge.Proofs.Origins
import ClassForge.Registry.Compile

/-!
# Which declared methods are bound

What a draft declares and some rule accepts should be bound, or the method is not written and
nobody is told. Declared methods take one of two ways: virtual ones through the graph, the others
directly. The second way loses none. On the first, a method has to represent its family, and there
are two that do not although the draft is accepted:

* bridges, because the graph takes them for consequences of other methods;
* all but the last of several overloads that differ in their return types only. They have different
  descriptors, which is what the check of a draft compares, but they are one family.

Neither way leads anywhere if the registry is not allowed to claim the method.

## Main results

* `Registry.declared_methods_are_bound` — every other declared method that a rule accepts is bound
* `Registry.declared_methods_are_lost` — and those are not
-/

namespace ClassForge.Registry

variable {r : Registry} {p : Pool} {claimable : LatentMatcher} {m : Method}

/-- A method that a rule claims has a family entry if it represents a family. -/
theorem Scene.isSome_familyBinding? {s : Scene} {nodes : List Node} {node : Node} {rule : Rule}
    (hnode : node ∈ nodes) (hrep : node.representative = m) (hc : s.claim? m = some rule) :
    (s.familyBinding? nodes m.identity).isSome = true := by
  rw [familyBinding?, List.findSome?_isSome_iff]
  refine ⟨node, hnode, ?_⟩
  rw [if_pos (by rw [hrep]), nodeBinding?, hrep, hc]
  rfl

theorem isSome_firstRule? {t : TypeDecl}
    (h : ∃ rule ∈ r.rules, (rule.matcher.resolve t).accepts p m = true) :
    (r.firstRule? p t m).isSome = true := by
  obtain ⟨rule, hrule, ha⟩ := h
  exact List.find?_isSome.2 ⟨rule, hrule, ha⟩

theorem Prepares.isSome_get? {d : Draft} {s : Progress} {q : PreparedRegistry} {rule : Rule}
    (h : r.Prepares d .hierarchy p claimable s q) (hq : q.draft.decl.check p = .ok ())
    (hm : m ∈ d.decl.methods) (hi : m.isTypeInitializer = false)
    (hv : m.isVirtual = true → m.isBridge = false ∧ d.decl.DeclaresLast m)
    (hc : (r.scene p claimable q.draft.decl).claim? m = some rule) :
    (q.entries.get? m.identity).isSome = true := by
  have hm' : m ∈ q.draft.decl.methods := h.grows.mem hm
  have hsole : ∀ n ∈ Scene.members q.draft.decl, n.identity = m.identity → n = m :=
    fun n hn => TypeDecl.eq_of_identity_eq hq (List.mem_filter.1 hn).1 hm'
  rw [h.get?_entries hq hi hsole, Option.isSome_or, Option.isSome_or]
  cases hvirtual : m.isVirtual with
  | true =>
    obtain ⟨hbridge, hlast⟩ := hv hvirtual
    obtain ⟨node, hnode, hrep⟩ := GraphScope.exists_mem_values p hbridge hlast
    rw [← h.graph_eq] at hnode
    rw [Scene.isSome_familyBinding? hnode hrep hc, Bool.or_true, Bool.true_or]
  | false =>
    have hmember : m ∈ Scene.members q.draft.decl :=
      List.mem_filter.2 ⟨hm', by simp [hvirtual, hi]⟩
    simp [hmember, Scene.memberBinding?, hc]

/-- **Declared methods are bound** and go to the writer, if the registry may claim them and a rule
accepts them: all that are not virtual, and of those that are, the ones that represent their
families. -/
theorem declared_methods_are_bound {d : Draft} {q : PreparedRegistry}
    (h : r.prepare d .hierarchy true p claimable = .ok q) (hm : m ∈ d.decl.methods)
    (hi : m.isTypeInitializer = false)
    (hv : m.isVirtual = true → m.isBridge = false ∧ d.decl.DeclaresLast m)
    (hc : m.IsClaimable p claimable q.draft.decl)
    (hr : ∃ rule ∈ r.rules, (rule.matcher.resolve q.draft.decl).accepts p m = true) :
    ∃ e, q.entries.get? m.identity = some e ∧ e.source ∈ q.instrumented := by
  obtain ⟨s, h, hq⟩ := prepares_of_prepare h
  obtain ⟨rule, hrule⟩ := Option.isSome_iff_exists.1 (isSome_firstRule? hr)
  have hclaim := Scene.claim?_scene_eq_some_iff.2 ⟨hc, hrule⟩
  obtain ⟨e, he⟩ := Option.isSome_iff_exists.1 (h.isSome_get? (hq rfl) hm hi hv hclaim)
  refine ⟨e, he, List.mem_filter.2 ⟨?_, ?_⟩⟩
  · exact List.mem_map_of_mem ((OrderedMap.mem_values_iff _).2 ⟨_, he⟩)
  · have hname : e.source.name = m.name :=
      congrArg (·.toSignature.name) (h.placed _ _ he).source
    have hkind : e.source.isTypeInitializer = m.isTypeInitializer := by
      simp only [Method.isTypeInitializer, hname]
    rw [hkind, hi]
    rfl

/-- A class with two overloads of different return types and a static method. The second overload
and the static method are bound. -/
theorem declared_methods_are_bound_overloads :
    let number : Method :=
      { owner := "a.Sub", name := "m", modifiers := .of [.accPublic], returnType := .object }
    let text : Method := { number with returnType := .named "java.lang.String" }
    let make : Method :=
      { owner := "a.Sub", name := "make", modifiers := .of [.accPublic, .accStatic] }
    let d : Draft :=
      { decl := { name := "a.Sub", modifiers := .of [.accPublic]
                  methods := [number, text, make] } }
    let rules : Registry := { rules := [{ matcher := .always, handler := .implement .stub }] }
    ∃ q, rules.prepare d .hierarchy true .empty .always = .ok q ∧
      (q.entries.get? text.identity).isSome = true ∧
        (q.entries.get? make.identity).isSome = true := by
  intro number text make d rules
  have facts : (rules.prepare d .hierarchy true .empty .always).toOption.any (fun q =>
      decide (text.IsClaimable .empty .always q.draft.decl ∧
        make.IsClaimable .empty .always q.draft.decl)) = true := by decide +kernel
  obtain ⟨q, h, hq⟩ := exists_ok_of_any facts
  obtain ⟨htext, hmake⟩ := of_decide_eq_true hq
  have last : d.decl.DeclaresLast text := ⟨[number], [], by decide, nofun⟩
  obtain ⟨e, he, -⟩ := declared_methods_are_bound h (m := text) (by decide) (by decide)
    (fun _ => ⟨by decide, last⟩) htext ⟨_, List.mem_singleton_self _, rfl⟩
  obtain ⟨e', he', -⟩ := declared_methods_are_bound h (m := make) (by decide) (by decide)
    (fun hv => absurd hv (by decide)) hmake ⟨_, List.mem_singleton_self _, rfl⟩
  exact ⟨q, h, by rw [he]; rfl, by rw [he']; rfl⟩

/-- A rule accepts every method, and yet three kinds of declared methods are not bound: an overload
with another one of its name behind it, a bridge, and whatever the registry may not claim. -/
theorem declared_methods_are_lost :
    let number : Method :=
      { owner := "a.Sub", name := "m", modifiers := .of [.accPublic], returnType := .object }
    let text : Method := { number with returnType := .named "java.lang.String" }
    let bridge : Method := { number with name := "b", modifiers := .of [.accPublic, .accBridge] }
    let d : Draft :=
      { decl := { name := "a.Sub", modifiers := .of [.accPublic]
                  methods := [number, text, bridge] } }
    let rules : Registry := { rules := [{ matcher := .always, handler := .implement .stub }] }
    (∃ q, rules.prepare d .hierarchy true .empty .always = .ok q ∧
      ∀ m ∈ [number, bridge], m ∈ d.decl.methods ∧ m.IsClaimable .empty .always q.draft.decl ∧
        (rules.firstRule? .empty q.draft.decl m).isSome = true ∧
          (q.entries.get? m.identity).isNone = true) ∧
    ∃ q, rules.prepare d .hierarchy true .empty .never = .ok q ∧
      text ∈ d.decl.methods ∧ text.IsClaimable .empty .always q.draft.decl ∧
        (rules.firstRule? .empty q.draft.decl text).isSome = true ∧
          (q.entries.get? text.identity).isNone = true := by
  intro number text bridge d rules
  have lost : (rules.prepare d .hierarchy true .empty .always).toOption.any (fun q =>
      decide (∀ m ∈ [number, bridge], m ∈ d.decl.methods ∧
        m.IsClaimable .empty .always q.draft.decl ∧
          (rules.firstRule? .empty q.draft.decl m).isSome = true ∧
            (q.entries.get? m.identity).isNone = true)) = true := by decide +kernel
  have refused : (rules.prepare d .hierarchy true .empty .never).toOption.any (fun q =>
      decide (text ∈ d.decl.methods ∧ text.IsClaimable .empty .always q.draft.decl ∧
        (rules.firstRule? .empty q.draft.decl text).isSome = true ∧
          (q.entries.get? text.identity).isNone = true)) = true := by decide +kernel
  refine ⟨?_, ?_⟩
  · obtain ⟨q, h, hq⟩ := exists_ok_of_any lost
    exact ⟨q, h, of_decide_eq_true hq⟩
  · obtain ⟨q, h, hq⟩ := exists_ok_of_any refused
    exact ⟨q, h, of_decide_eq_true hq⟩

end ClassForge.Registry
