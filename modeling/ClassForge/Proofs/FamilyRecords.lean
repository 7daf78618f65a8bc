import ClassForge.Proofs.Compilation
import ClassForge.Proofs.FamilyEntries
import ClassForge.Proofs.Signatures

/-!
# Which signatures a family answers

A class file has to answer a call under each signature that the declarations of a family have, and
a caller that was compiled against one of them finds no other. The signatures pass through four
hands: the graph collects them, the entry of a family drops the one of its own method, the plan
drops those that the method cannot answer, and what is left is written as access bridges.

Nothing is lost or doubled on the way. The written methods are the method of the entry, and after
it one bridge for each type that is left, in the order in which the graph collected them
(`CompiledEntry.written_of_apply`). All of them have the name of the family, because a declaration
never belongs to a family of another name.

## Main definitions

* `WrittenMethod.signature` — the name and the erased types of a written method
* `Node.bridgeTypes` — the types of a family that access bridges to a method answer

## Main results

* `CompiledEntry.written_of_apply` — what the plan for an entry writes
* `Registry.bridges_are_exact` — what is written for a family that is bound to a rule
-/

namespace ClassForge

/-! ### Written methods -/

namespace WrittenMethod

/-- The name with the erased types. -/
def signature (w : WrittenMethod) : Signature :=
  ⟨MethodType.erasure ⟨w.returnType, w.parameterTypes⟩, w.name⟩

variable {w : WrittenMethod} {m : Method}

theorem Writes.signature (h : w.Writes m) : w.signature = m.signature := by
  rw [WrittenMethod.signature, h.name, h.returnType, h.parameterTypes]
  simp [Method.signature, MethodType.erasure, Method.type, Method.erasedParameterTypes,
    MethodToken.parameterTypes]

theorem descriptor_signature (w : WrittenMethod) : w.signature.descriptor = w.descriptor := by
  simp [WrittenMethod.signature, descriptor, MethodType.descriptor, MethodType.erasure,
    Function.comp_def]

end WrittenMethod

namespace AccessBridges

variable {b : AccessBridges} {flags : Modifiers} {t : MethodType} {w : WrittenMethod}

/-- A bridge for erased types has these types. -/
theorem signature_bridge (ht : t.erasure = t) :
    (b.bridge flags t).signature = ⟨t, b.target.name⟩ := by
  rw [Method.signature]
  congr 1
  refine Eq.trans ?_ ht
  simp [bridge, Method.type, Method.erasedParameterTypes, MethodType.erasure, Function.comp_def]

theorem signatures_of_write {ts : List MethodType} {ws : List WrittenMethod}
    (h : List.Forall₂ (fun t w => b.write flags t = .ok w) ts ws)
    (hts : ∀ t ∈ ts, t.erasure = t) : ws.map (·.signature) = ts.map (⟨·, b.target.name⟩) := by
  induction h with
  | nil => rfl
  | cons hw _ ih =>
    rw [List.forall_mem_cons] at hts
    rw [List.map_cons, List.map_cons, (writes_bridge hw).signature, signature_bridge hts.1,
      ih hts.2]

end AccessBridges

/-! ### Entries -/

namespace CompiledEntry

variable {e : CompiledEntry} {t : TypeDecl} {supportsBridges : Bool} {ws : List WrittenMethod}

/-- **What the plan for an entry writes:** its method, and then a bridge for each type that it
answers. -/
theorem written_of_apply (h : (e.record t supportsBridges).apply = .ok ws)
    (hwritten : supportsBridges = true ∨ e.isBridge = false) :
    ∃ first rest, ws = first :: rest ∧ e.main.apply = .ok [first] ∧ first.Writes e.method ∧
      List.Forall₂ (fun type w => (e.bridgesFor t (e.bridged t supportsBridges)).write
        (AccessBridges.modifiers e.main.method.modifiers) type = .ok w)
        (e.bridged t supportsBridges) rest := by
  have hskipped : ¬(e.isBridge && !supportsBridges) = true := by
    rcases hwritten with rfl | hb
    · simp
    · simp [hb]
  rw [record_eq, if_neg hskipped] at h
  split at h
  · rename_i hnone
    obtain ⟨first, rfl, hfirst⟩ := CompiledHandler.written_of_apply h
    refine ⟨first, [], rfl, h, hfirst, ?_⟩
    rw [hnone]
    exact .nil
  · obtain ⟨written, hmain, h⟩ := ok_of_bind h
    obtain ⟨rest, hrest, h⟩ := ok_of_bind h
    obtain rfl := Except.ok.inj h
    obtain ⟨first, rfl, hfirst⟩ := CompiledHandler.written_of_apply hmain
    exact ⟨first, rest, rfl, hmain, hfirst, forall₂_of_mapM hrest⟩

/-- The signatures of what is written, if the types to answer are erased. -/
theorem signatures_of_apply (h : (e.record t supportsBridges).apply = .ok ws)
    (hwritten : supportsBridges = true ∨ e.isBridge = false)
    (htypes : ∀ type ∈ e.bridged t supportsBridges, type.erasure = type) :
    ws.map (·.signature) =
      e.method.signature :: (e.bridged t supportsBridges).map (⟨·, e.method.name⟩) := by
  obtain ⟨first, rest, rfl, -, hfirst, hrest⟩ := written_of_apply h hwritten
  rw [List.map_cons, hfirst.signature]
  congr 1
  exact AccessBridges.signatures_of_write hrest htypes

/-- Bridges do not change whether the method of the entry gets code. -/
theorem sort_record (hwritten : supportsBridges = true ∨ e.isBridge = false) :
    (e.record t supportsBridges).sort = e.main.sort := by
  rw [record_eq, if_neg (by rcases hwritten with rfl | hb <;> simp [*])]
  split <;> rfl

end CompiledEntry

/-! ### Families -/

/-- The types of a family that access bridges to the method answer: those that it does not have
itself and that it can stand in for. -/
def Node.bridgeTypes (node : Node) (m : Method) : List MethodType :=
  (node.types.filter (· ≠ m.type)).filter m.canBridge

theorem Node.Typed.nodup_signatures {node : Node} (h : node.Typed) (m : Method) :
    (m.signature :: (node.bridgeTypes m).map (⟨·, m.name⟩)).Nodup := by
  rw [List.nodup_cons]
  constructor
  · intro hmem
    obtain ⟨type, htype, hsignature⟩ := List.mem_map.1 hmem
    have hown := (List.mem_filter.1 (List.mem_filter.1 htype).1).2
    have hsame : type = m.type := congrArg Signature.toMethodType hsignature
    simp [hsame] at hown
  · refine ((h.nodup.filter _).filter _).map fun a b hab => ?_
    exact congrArg Signature.toMethodType hab

namespace Registry

variable {r : Registry} {d : Draft} {scope : GraphScope} {validate : Bool} {p : Pool}
  {claimable : LatentMatcher} {q : PreparedRegistry} {s : Progress}

namespace Prepares

variable {node : Node} {rule : Rule}

/-- A declaration of a family has the name of its representative, and its erased types are among
those of the family. So its signature is that of the representative or that of a bridge, if the
representative can stand in for it. -/
theorem signature_mem_of_mem_declarations (h : r.Prepares d scope p claimable s q)
    (hnode : node ∈ q.graph.graph.values) {m : Method} (hm : m ∈ node.declarations)
    (hbridge : node.representative.canBridge m.type = true) :
    m.signature ∈ node.representative.signature ::
      (node.bridgeTypes node.representative).map (⟨·, node.representative.name⟩) := by
  obtain ⟨k, hsound⟩ := p.invariant_sound.exists_of_mem_values scope (h.graph ▸ hnode)
  obtain ⟨n, hn, hid⟩ := hsound.declared
  have hname : m.name = node.representative.name := by
    rw [hsound.name m hm, ← hsound.name n hn]
    exact congrArg (·.toSignature.name) hid
  have hsignature : m.signature = ⟨m.type, node.representative.name⟩ := hname ▸ rfl
  rw [hsignature]
  by_cases hown : m.type = node.representative.type
  · rw [hown]
    exact List.mem_cons_self
  · refine List.mem_cons_of_mem _ (List.mem_map_of_mem ?_)
    exact List.mem_filter.2 ⟨List.mem_filter.2 ⟨hsound.types m hm, by simpa using hown⟩, hbridge⟩

/-- **What is written for a family that is bound to a rule.** -/
theorem signatures_of_binds (h : r.Prepares d scope p claimable s q) (hb : q.Binds d node rule)
    (release : Release) (plan : RelocationPlan) {ws : List WrittenMethod}
    (hw : ((q.compile release plan).record node.representative).apply = .ok ws) :
    ws.map (·.signature) = node.representative.signature ::
      (if release.supportsBridges && !(q.draft.decl.isInterface &&
        ((q.compile release plan).record node.representative).sort ≠ .implemented) then
        node.bridgeTypes node.representative else []).map (⟨·, node.representative.name⟩) := by
  rw [PreparedRegistry.record_compile, h.get?_of_binds hb, Option.elim_some] at hw ⊢
  rw [CompiledEntry.sort_record (.inr rfl)]
  refine CompiledEntry.signatures_of_apply hw (.inr rfl) ?_
  obtain ⟨-, htyped⟩ := p.invariant_typed.exists_of_mem_values scope (h.graph ▸ hb.mem)
  intro type htype
  have hfamily := (CompiledEntry.mem_bridged _ _ _ htype).1
  exact htyped.erased type (List.mem_filter.1 hfamily).1

/-- A visibility bridge writes nothing where the format has no bridges. -/
theorem apply_of_isBridge (q : PreparedRegistry) {release : Release}
    (hrelease : release.supportsBridges = false) (plan : RelocationPlan) {m : Method} {e : Entry}
    (he : q.entries.get? m.identity = some e) (hb : e.isBridge = true) :
    ((q.compile release plan).record m).apply = .ok [] := by
  rw [PreparedRegistry.record_compile, he, Option.elim_some, CompiledEntry.record_eq, hrelease,
    if_pos (by simp [Entry.compile, hb])]
  rfl

end Prepares

/-- **The bridges of a family are exact.** What is written for a family that is bound to a rule is
its representative, and where the format has bridges, one bridge for each other type of the family
that the representative can stand in for. So no signature is written twice, and each declaration
that the representative can stand in for has its descriptor among what is written. Where the format
has no bridges, the representative is all, and visibility bridges write nothing. -/
theorem bridges_are_exact (h : r.prepare d scope validate p claimable = .ok q) (release : Release)
    (plan : RelocationPlan) :
    (∀ (node : Node) (rule : Rule) (ws : List WrittenMethod), q.Binds d node rule →
      ((q.compile release plan).record node.representative).apply = .ok ws →
        (release.supportsBridges = true →
          (q.draft.decl.isInterface = true →
            ((q.compile release plan).record node.representative).sort = .implemented) →
          ws.map (·.signature) = node.representative.signature ::
              (node.bridgeTypes node.representative).map (⟨·, node.representative.name⟩) ∧
            (ws.map (·.signature)).Nodup ∧
            ∀ m ∈ node.declarations, node.representative.canBridge m.type = true →
              ∃ w ∈ ws, w.signature = m.signature ∧ w.descriptor = m.descriptor) ∧
        (release.supportsBridges = false →
          ws.map (·.signature) = [node.representative.signature])) ∧
    (release.supportsBridges = false → ∀ (m : Method) (e : Entry),
      q.entries.get? m.identity = some e → e.isBridge = true →
        ((q.compile release plan).record m).apply = .ok []) := by
  obtain ⟨s, h, -⟩ := prepares_of_prepare h
  refine ⟨?_, fun hrelease m e he hb => Prepares.apply_of_isBridge q hrelease plan he hb⟩
  intro node rule ws hb hw
  have hwritten := h.signatures_of_binds hb release plan hw
  constructor
  · intro hrelease hinterface
    have hanswered : (release.supportsBridges && !(q.draft.decl.isInterface &&
        ((q.compile release plan).record node.representative).sort ≠ .implemented)) = true := by
      rw [hrelease, Bool.true_and]
      cases hi : q.draft.decl.isInterface with
      | false => rfl
      | true =>
        rw [hinterface hi]
        rfl
    rw [if_pos hanswered] at hwritten
    obtain ⟨-, htyped⟩ := p.invariant_typed.exists_of_mem_values scope (h.graph ▸ hb.mem)
    refine ⟨hwritten, hwritten ▸ htyped.nodup_signatures _, ?_⟩
    intro m hm hbridge
    have hmem := h.signature_mem_of_mem_declarations hb.mem hm hbridge
    rw [← hwritten] at hmem
    obtain ⟨w, hw, hsame⟩ := List.mem_map.1 hmem
    refine ⟨w, hw, hsame, ?_⟩
    rw [← w.descriptor_signature, hsame]
    exact m.descriptor_type
  · intro hrelease
    rw [hrelease] at hwritten
    exact hwritten

/-- A class overrides the inherited `put` of a generic class, and callers that know that the
variable stands for texts find it too. -/
theorem bridges_are_exact_generic :
    let text : TypeRef := .named "java.lang.String"
    let put : Method :=
      { owner := "a.Box", name := "put", modifiers := .of [.accPublic]
        parameters := [{ type := .typeVar "T" .object }] }
    let p := Pool.empty.register
      { name := "a.Box", modifiers := .of [.accPublic], typeVariables := [{ symbol := "T" }]
        methods := [put] }
    let d : Draft := .subclass "a.Sub" (.of [.accPublic]) (.parameterized "a.Box" [text])
    let rules : Registry :=
      { rules := [{ matcher := .resolved (.named "put"), handler := .implement .stub }] }
    ∃ q, rules.prepare d .hierarchy true p .always = .ok q ∧
      ∃ ws, ((q.compile .default).record put).apply = .ok ws ∧
        ws.map (·.signature) = [put.signature, ⟨⟨.void, [text]⟩, "put"⟩] := by
  intro text put p d rules
  let node : Node :=
    { representative := put, declarations := [put], types := [⟨.void, [.object]⟩, ⟨.void, [text]⟩]
      visibility := .pub, sort := .resolved }
  have facts : (rules.prepare d .hierarchy true p .always).toOption.any (fun q =>
      decide (q.graph.graph.values = [node] ∧ q.draft.decl = d.decl ∧
        (q.entries.get? put.identity).any (fun e =>
          decide (e.source = put ∧ e.handler = .implement .stub ∧ e.attributes = .nothing ∧
            e.method = put ∧ e.isBridge = false)) = true) &&
        ((q.compile .default).record put).apply.toOption.any fun _ => true) = true := by
    decide +kernel
  obtain ⟨q, h, hq⟩ := exists_ok_of_any facts
  obtain ⟨hq, hwritten⟩ := Bool.and_eq_true_iff.1 hq
  obtain ⟨hgraph, hdecl, hentry⟩ := of_decide_eq_true hq
  obtain ⟨ws, hws, -⟩ := exists_ok_of_any hwritten
  obtain ⟨e, he, hfields⟩ := (Option.any_eq_true _ _).1 hentry
  obtain ⟨hsource, hhandler, hattributes, hmethod, hbridge⟩ := of_decide_eq_true hfields
  have hbinds : q.Binds d node
      { matcher := .resolved (.named "put"), handler := .implement .stub } := by
    refine ⟨?_, ?_, ?_, e, he, hsource, hhandler, hattributes, hmethod, hbridge⟩
    · rw [hgraph]
      exact List.mem_singleton_self node
    · rw [hgraph]
      exact fun other hother _ => List.mem_singleton.1 hother
    · rw [Draft.Gains, hdecl]
      exact fun hgains => hgains.2 hgains.1
  obtain ⟨hall, -⟩ := bridges_are_exact h .default .none
  have hclass : q.draft.decl.isInterface = false := by
    rw [hdecl]
    decide +kernel
  obtain ⟨hsignatures, -⟩ := (hall node _ ws hbinds hws).1 rfl (by simp [hclass])
  exact ⟨q, h, ws, hws, hsignatures⟩

end Registry

end ClassForge
