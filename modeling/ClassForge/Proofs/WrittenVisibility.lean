import ClassForge.Proofs.AccessBridges
import ClassForge.Proofs.FamilyRecords

/-!
# How visible written methods are

A method that overrides others must not be less visible than they are. A node therefore has a
visibility of its own, the widest of its declarations, and hands it down to the entry of the family
and to its plan. What is written is widened to it in two places only, where a method is written with
code and where it is declared without. Annotation elements with a default are written as visible as
they are declared, and so are access bridges: they take over the flags of the method before these
are widened.

So a family is written visibly enough exactly if its method is declared so, after the changes of its
rule, or if the method is written in one of those two ways and no bridge beside it
(`Registry.written_visibility`).

## Main definitions

* `Handler.widens` — the method is written as visible as its family

## Main results

* `CompiledEntry.visibility_of_apply` — how visible the methods are that an entry writes
* `Registry.written_visibility` — when a family is written visibly enough
-/

namespace ClassForge

/-! ### Flags -/

namespace Modifiers

theorem visibility_union_of_forall (f : Modifiers) {flags : List Flag}
    (h : ∀ x ∈ visibilityFlags, x ∉ flags) : (f ∪ .of flags).visibility = f.visibility := by
  simp only [visibilityFlags, List.forall_mem_cons] at h
  simp [visibility, h]

theorem visibility_sdiff_of_forall (f : Modifiers) {flags : List Flag}
    (h : ∀ x ∈ visibilityFlags, x ∉ flags) : (f \ .of flags).visibility = f.visibility := by
  simp only [visibilityFlags, List.forall_mem_cons] at h
  simp [visibility, h]

/-- Access bridges are as visible as the flags that they take over. -/
theorem visibility_accessBridges (f : Modifiers) :
    (AccessBridges.modifiers f).visibility = f.visibility := by
  rw [AccessBridges.modifiers, visibility_sdiff_of_forall _ (by decide),
    visibility_union_of_forall _ (by decide)]

/-- Visibility bridges are as visible as what they expose. -/
theorem visibility_ofVisibilityBridge (f : Modifiers) :
    f.ofVisibilityBridge.visibility = f.visibility := by
  rw [ofVisibilityBridge, visibility_sdiff_of_forall _ (by decide),
    visibility_union_of_forall _ (by decide)]

end Modifiers

@[simp] theorem Method.visibility_writtenModifiers (m : Method) (v : Visibility) (hasCode : Bool) :
    (m.writtenModifiers v hasCode).visibility = m.visibility.widen v :=
  Modifiers.visibility_withVisibility _ _

/-- Whether methods are written as visible as their families. -/
def Handler.widens : Handler → Bool
  | noCode | implement _ => true
  | bridge | defaultValue _ => false

namespace Handler

variable {h : Handler} {t : Target} {m : Method} {sources : List AnnotationSource} {v : Visibility}

/-- How visible a method is written, bridges beside it aside. -/
theorem visibility_of_apply {w : WrittenMethod}
    (hw : ((h.compile t).record m sources v).apply = .ok [w]) :
    w.modifiers.visibility = if h.widens then m.visibility.widen v else m.visibility := by
  cases h with
  | noCode =>
    obtain rfl := List.singleton_inj.1 (Except.ok.inj hw)
    exact m.visibility_writtenModifiers v false
  | implement i =>
    obtain ⟨code, -, hw⟩ := ok_of_bind hw
    obtain rfl := List.singleton_inj.1 (Except.ok.inj hw)
    exact m.visibility_writtenModifiers v true
  | defaultValue value =>
    obtain rfl := List.singleton_inj.1 (Except.ok.inj hw)
    refine (m.visibility_writtenModifiers m.visibility false).trans ?_
    exact ite_self _
  | bridge =>
    obtain ⟨code, -, hw⟩ := ok_of_bind hw
    obtain rfl := List.singleton_inj.1 (Except.ok.inj hw)
    exact m.modifiers.visibility_ofVisibilityBridge

/-- How visible the method is that access bridges take their flags from. -/
theorem visibility_method :
    ((h.compile t).record m sources v).method.modifiers.visibility = m.visibility := by
  cases h with
  | noCode | implement _ | defaultValue _ => rfl
  | bridge => exact m.modifiers.visibility_ofVisibilityBridge

end Handler

/-- Access bridges have the flags that they are written with. -/
theorem AccessBridges.modifiers_of_write {b : AccessBridges} {flags : Modifiers}
    {ts : List MethodType} {ws : List WrittenMethod}
    (h : List.Forall₂ (fun t w => b.write flags t = .ok w) ts ws) :
    ∀ w ∈ ws, w.modifiers = flags := by
  induction h with
  | nil => exact List.forall_mem_nil _
  | cons hw _ ih => exact List.forall_mem_cons.2 ⟨(code_of_write hw).1, ih⟩

/-- **How visible the methods are that an entry writes.** Only the first of them is widened. -/
theorem Entry.visibility_of_apply {e : Entry} {t : Target} {decl : TypeDecl}
    {supportsBridges : Bool} {ws : List WrittenMethod}
    (hw : ((e.compile t).record decl supportsBridges).apply = .ok ws)
    (hwritten : supportsBridges = true ∨ e.isBridge = false) :
    ∃ first rest, ws = first :: rest ∧
      first.modifiers.visibility =
        (if e.handler.widens then e.method.visibility.widen e.visibility
          else e.method.visibility) ∧
      ∀ w ∈ rest, w.modifiers.visibility = e.method.visibility := by
  obtain ⟨first, rest, rfl, hmain, -, hrest⟩ := CompiledEntry.written_of_apply hw hwritten
  refine ⟨first, rest, rfl, Handler.visibility_of_apply hmain, fun w hw => ?_⟩
  rw [AccessBridges.modifiers_of_write hrest w hw, Modifiers.visibility_accessBridges]
  exact Handler.visibility_method

/-- All methods that an entry writes are as visible as the entry asks for exactly if its method is,
or if it is widened and the only one. -/
theorem Entry.le_visibility_iff {e : Entry} {t : Target} {decl : TypeDecl} {supportsBridges : Bool}
    {ws : List WrittenMethod}
    (hw : ((e.compile t).record decl supportsBridges).apply = .ok ws)
    (hwritten : supportsBridges = true ∨ e.isBridge = false) :
    (∀ w ∈ ws, e.visibility ≤ w.modifiers.visibility) ↔
      e.visibility ≤ e.method.visibility ∨ (e.handler.widens = true ∧ ws.length = 1) := by
  obtain ⟨first, rest, rfl, hfirst, hrest⟩ := visibility_of_apply hw hwritten
  rw [List.forall_mem_cons, hfirst]
  constructor
  · rintro ⟨hfirst, hbridges⟩
    cases hwidens : e.handler.widens with
    | false => exact .inl (by simpa [hwidens] using hfirst)
    | true =>
      cases rest with
      | nil => exact .inr ⟨rfl, rfl⟩
      | cons w rest =>
        rw [← hrest w List.mem_cons_self]
        exact .inl (hbridges w List.mem_cons_self)
  · rintro (hdeclared | ⟨hwidens, hlength⟩)
    · refine ⟨?_, fun w hw => hrest w hw ▸ hdeclared⟩
      split
      · exact Visibility.le_widen_right _ _
      · exact hdeclared
    · obtain rfl : rest = [] := List.length_eq_zero_iff.1 (Nat.succ.inj hlength)
      rw [if_pos hwidens]
      exact ⟨Visibility.le_widen_right _ _, List.forall_mem_nil _⟩

/-! ### Families -/

namespace Registry

/-- **When a family is written visibly enough.** The visibility of a node is at least that of its
declarations. Of what is written for a family that is bound to a rule all methods have it exactly if
the method has it after the changes of the rule, or if it is widened and the only one. -/
theorem written_visibility {r : Registry} {d : Draft} {scope : GraphScope} {validate : Bool}
    {p : Pool} {claimable : LatentMatcher} {q : PreparedRegistry} {node : Node} {rule : Rule}
    {release : Release} {plan : RelocationPlan} {ws : List WrittenMethod}
    (h : r.prepare d scope validate p claimable = .ok q) (hb : q.Binds d node rule)
    (hw : ((q.compile release plan).record node.representative).apply = .ok ws) :
    (∀ m ∈ node.declarations, m.visibility ≤ node.visibility) ∧
    (∃ first rest, ws = first :: rest ∧
      first.modifiers.visibility =
        (if rule.handler.widens then
          (node.representative.change rule.changes).visibility.widen node.visibility
        else (node.representative.change rule.changes).visibility) ∧
      ∀ w ∈ rest,
        w.modifiers.visibility = (node.representative.change rule.changes).visibility) ∧
    ((∀ w ∈ ws, node.visibility ≤ w.modifiers.visibility) ↔
      node.visibility ≤ (node.representative.change rule.changes).visibility ∨
        (rule.handler.widens = true ∧ ws.length = 1)) := by
  obtain ⟨s, h, -⟩ := prepares_of_prepare h
  obtain ⟨k, hsound⟩ := p.invariant_sound.exists_of_mem_values scope (h.graph ▸ hb.mem)
  rw [PreparedRegistry.record_compile, h.get?_of_binds hb, Option.elim_some] at hw
  exact ⟨hsound.visibility, Entry.visibility_of_apply hw (.inr rfl),
    Entry.le_visibility_iff hw (.inr rfl)⟩

/-- A class overrides the protected `put` of its superclass, which an interface has as a public
method. The override is public. -/
theorem written_visibility_widened :
    let put (owner : String) (flags : List Flag) : Method :=
      { owner, name := "put", modifiers := .of flags }
    let p := Pool.empty.registerAll
      [{ name := "a.Feed", modifiers := .of [.accPublic, .accInterface, .accAbstract]
         superclass := none, methods := [put "a.Feed" [.accPublic, .accAbstract]] },
        { name := "a.Store", modifiers := .of [.accPublic]
          methods := [put "a.Store" [.accProtected]] }]
    let d : Draft :=
      { decl := { name := "a.Sub", modifiers := .of [.accPublic]
                  superclass := some (.named "a.Store"), interfaces := [.named "a.Feed"] } }
    let rules : Registry :=
      { rules := [{ matcher := .resolved (.named "put"), handler := .implement .stub }] }
    ∃ q, rules.prepare d .hierarchy true p .always = .ok q ∧
      ∃ ws, ((q.compile .default).record (put "a.Store" [.accProtected])).apply = .ok ws ∧
        ∀ w ∈ ws, .pub ≤ w.modifiers.visibility := by
  intro put p d rules
  let node : Node :=
    { representative := put "a.Store" [.accProtected]
      declarations := [put "a.Store" [.accProtected], put "a.Feed" [.accPublic, .accAbstract]]
      types := [⟨.void, []⟩], visibility := .pub, sort := .resolved }
  let rule : Rule := { matcher := .resolved (.named "put"), handler := .implement .stub }
  have facts : (rules.prepare d .hierarchy true p .always).toOption.any (fun q =>
      decide (q.graph.graph.values = [node] ∧ q.draft.decl = d.decl) &&
        ((q.entries.get? node.representative.identity).any
          (fun e => decide (e.BelongsTo rule node.representative)) &&
        ((q.compile .default).record (put "a.Store" [.accProtected])).apply.toOption.any
          fun ws => decide (ws.length = 1))) = true := by
    decide +kernel
  obtain ⟨q, h, hq⟩ := exists_ok_of_any facts
  simp only [Bool.and_eq_true, decide_eq_true_eq] at hq
  obtain ⟨⟨hnodes, hdecl⟩, hbound, hwritten⟩ := hq
  obtain ⟨ws, hw, hlength⟩ := exists_ok_of_any hwritten
  have hbinds := PreparedRegistry.binds_of_singleton hnodes hdecl hbound
  obtain ⟨-, -, hiff⟩ := written_visibility h hbinds hw
  exact ⟨q, h, ws, hw, hiff.2 (.inr ⟨rfl, of_decide_eq_true hlength⟩)⟩

/-- The same where both methods take what a type variable stands for. The override is public, and
the bridge for callers that know what it stands for is protected. -/
theorem access_bridges_are_not_widened :
    let put (owner : String) (flags : List Flag) : Method :=
      { owner, name := "put", modifiers := .of flags
        parameters := [{ type := .typeVar "T" .object }] }
    let text : TypeRef := .named "java.lang.String"
    let p := Pool.empty.registerAll
      [{ name := "a.Feed", modifiers := .of [.accPublic, .accInterface, .accAbstract]
         superclass := none, typeVariables := [{ symbol := "T" }]
         methods := [put "a.Feed" [.accPublic, .accAbstract]] },
        { name := "a.Store", modifiers := .of [.accPublic], typeVariables := [{ symbol := "T" }]
          methods := [put "a.Store" [.accProtected]] }]
    let d : Draft :=
      { decl := { name := "a.Sub", modifiers := .of [.accPublic]
                  superclass := some (.parameterized "a.Store" [text])
                  interfaces := [.parameterized "a.Feed" [text]] } }
    let rule : Rule := { matcher := .resolved (.named "put"), handler := .implement .stub }
    let rules : Registry := { rules := [rule] }
    ∃ q, rules.prepare d .hierarchy true p .always = .ok q ∧
      ∃ node, q.Binds d node rule ∧ node.visibility = .pub ∧
        ∃ ws, ((q.compile .default).record node.representative).apply = .ok ws ∧
          ws.map (·.modifiers.visibility) = [.pub, .prot] := by
  intro put text p d rule rules
  let node : Node :=
    { representative := put "a.Store" [.accProtected]
      declarations := [put "a.Store" [.accProtected], put "a.Feed" [.accPublic, .accAbstract]]
      types := [⟨.void, [.object]⟩, ⟨.void, [text]⟩], visibility := .pub, sort := .resolved }
  have facts : (rules.prepare d .hierarchy true p .always).toOption.any (fun q =>
      decide (q.graph.graph.values = [node] ∧ q.draft.decl = d.decl) &&
        ((q.entries.get? node.representative.identity).any
          (fun e => decide (e.BelongsTo rule node.representative)) &&
        ((q.compile .default).record node.representative).apply.toOption.any
          fun ws => decide (ws.map (·.modifiers.visibility) = [.pub, .prot]))) = true := by
    decide +kernel
  obtain ⟨q, h, hq⟩ := exists_ok_of_any facts
  simp only [Bool.and_eq_true, decide_eq_true_eq] at hq
  obtain ⟨⟨hnodes, hdecl⟩, hbound, hwritten⟩ := hq
  obtain ⟨ws, hw, hvisibility⟩ := exists_ok_of_any hwritten
  exact ⟨q, h, node, PreparedRegistry.binds_of_singleton hnodes hdecl hbound, rfl, ws, hw,
    of_decide_eq_true hvisibility⟩

end Registry

end ClassForge
