import ClassForge.Proofs.Compilation
import ClassForge.Proofs.FirstMatch

/-!
# Methods that are left unbound

A registry may be told to leave methods alone, whatever its rules say of them. No rule claims such a
method. That does not leave it without an entry: the bridge that exposes a public method of a
package-private class is made without asking whether the method may be claimed, and entries are kept
by identity, so that another method of the same identity may bring one in.

Nothing else does. An identity has no entry exactly if no handler added a method of that identity,
no family with a representative of that identity has to be exposed, and no rule claims a candidate
of that identity (`Registry.Prepares.get?_eq_none_iff`). What has no entry is not written.

## Main results

* `Registry.Prepares.get?_eq_none_iff` — what has no entry
* `Registry.Prepares.exposed_of_no_claim` — what has one though no rule claims it
* `Registry.rejected_methods_are_unbound` — methods that may not be claimed
-/

namespace ClassForge.Registry

/-! ### Phases that add nothing -/

namespace Scene

variable {s : Scene} {es : Entries} {k : MethodIdentity} {m : Method} {node : Node}

theorem get?_bindMethod_eq_none_iff :
    (s.bindMethod es m).get? k = none ↔
      es.get? k = none ∧ (m.identity = k → s.ruleFor? m = none) := by
  unfold bindMethod
  cases hr : s.ruleFor? m with
  | none => simp
  | some r =>
    rw [Entries.get?_bind, Entry.source_ofRule]
    by_cases hk : k = m.identity
    · simp [hk]
    · simp [hk, Ne.symm hk]

theorem get?_foldl_bindMethod_eq_none_iff {ms : List Method} :
    (ms.foldl s.bindMethod es).get? k = none ↔
      es.get? k = none ∧ ∀ m ∈ ms, m.identity = k → s.ruleFor? m = none := by
  induction ms generalizing es with
  | nil => simp
  | cons m ms ih =>
    rw [List.foldl_cons, ih, get?_bindMethod_eq_none_iff, List.forall_mem_cons, and_assoc]

/-- A method of no family that is offered is matched by a rule exactly if the rule claims it. -/
theorem ruleFor?_of_offers (hes : es.get? m.identity = none) (h : s.offers es m = true) :
    s.ruleFor? m = s.claim? m := by
  rw [offers_eq, hes] at h
  rw [claim?, if_pos (by simpa using h)]

/-- The members without claims, once all of them are offered. -/
theorem no_rule_iff (hes : es.get? k = none) :
    (∀ m ∈ (members s.type).filter (s.offers es), m.identity = k → s.ruleFor? m = none) ↔
      ∀ m ∈ members s.type, m.identity = k → s.claim? m = none := by
  simp only [List.mem_filter, and_imp]
  refine forall₂_congr fun m hm => ?_
  constructor
  · rintro h rfl
    by_cases hoffer : s.offers es m = true
    · rw [← ruleFor?_of_offers hes hoffer]
      exact h hoffer rfl
    · rw [offers_eq, hes] at hoffer
      exact if_neg (by simpa using hoffer)
  · rintro h hoffer rfl
    rw [ruleFor?_of_offers hes hoffer]
    exact h rfl

theorem get?_bindMembers_eq_none_iff (hname : k.name ≠ typeInitializerName) :
    ((s.nonVirtual es).foldl s.bindMethod es).get? k = none ↔
      es.get? k = none ∧ ∀ m ∈ members s.type, m.identity = k → s.claim? m = none := by
  rw [get?_foldl_nonVirtual s es hname, get?_foldl_bindMethod_eq_none_iff]
  exact and_congr_right no_rule_iff

/-- Members that no rule claims leave the entries as they are. -/
theorem get?_bindMembers_of_no_claim (hname : k.name ≠ typeInitializerName)
    (h : ∀ m ∈ members s.type, m.identity = k → s.claim? m = none) :
    ((s.nonVirtual es).foldl s.bindMethod es).get? k = es.get? k := by
  cases he : es.get? k with
  | none => exact (get?_bindMembers_eq_none_iff hname).2 ⟨he, h⟩
  | some e => exact get?_bindMembers_of_some s hname he

theorem nodeBinding?_eq_none_iff :
    s.nodeBinding? node = none ↔
      s.claim? node.representative = none ∧ s.needsBridge node = false := by
  unfold nodeBinding?
  cases s.claim? node.representative with
  | some r => simp
  | none => cases s.needsBridge node <;> simp

theorem familyBinding?_eq_none_iff {nodes : List Node} :
    s.familyBinding? nodes k = none ↔ ∀ node ∈ nodes, node.representative.identity = k →
      s.claim? node.representative = none ∧ s.needsBridge node = false := by
  simp only [familyBinding?, List.findSome?_eq_none_iff, ite_eq_right_iff,
    nodeBinding?_eq_none_iff]

end Scene

/-! ### What has no entry -/

variable {r : Registry} {d : Draft} {scope : GraphScope} {validate : Bool} {p : Pool}
  {claimable : LatentMatcher} {s : Progress} {q : PreparedRegistry} {m : Method}

namespace Prepares

/-- **What has no entry**: no handler added a method of the identity, no family of the identity has
to be exposed, and no rule claims a candidate of the identity. -/
theorem get?_eq_none_iff (h : r.Prepares d scope p claimable s q)
    (hi : m.isTypeInitializer = false) :
    q.entries.get? m.identity = none ↔
      ¬d.Gains q.draft m.identity ∧
        (∀ node ∈ q.graph.graph.values, node.representative.identity = m.identity →
          (r.scene p claimable q.draft.decl).needsBridge node = false) ∧
        ∀ n ∈ q.candidates, n.identity = m.identity →
          (r.scene p claimable q.draft.decl).claim? n = none := by
  have hname : m.identity.name ≠ typeInitializerName := by
    simpa [Method.isTypeInitializer] using hi
  rw [h.entries]
  dsimp only
  rw [Scene.get?_bindMembers_eq_none_iff hname, Scene.bindNodes, Scene.get?_bindNodes,
    Option.or_eq_none_iff, h.captured_eq_none_iff, Scene.familyBinding?_eq_none_iff]
  simp only [PreparedRegistry.candidates, List.forall_mem_append, List.forall_mem_map]
  constructor
  · rintro ⟨⟨hcaptured, hfamilies⟩, hmembers⟩
    exact ⟨hcaptured, fun node hnode hk => (hfamilies node hnode hk).2,
      fun node hnode hk => (hfamilies node hnode hk).1, hmembers⟩
  · rintro ⟨hcaptured, hbridges, hfamilies, hmembers⟩
    exact ⟨⟨hcaptured, fun node hnode hk => ⟨hfamilies node hnode hk, hbridges node hnode hk⟩⟩,
      hmembers⟩

/-- **What has an entry though no rule claims it** is exposed by a visibility bridge. -/
theorem exposed_of_no_claim (h : r.Prepares d scope p claimable s q)
    (hi : m.isTypeInitializer = false) (hg : ¬d.Gains q.draft m.identity)
    (hclaim : ∀ n ∈ q.candidates, n.identity = m.identity →
      (r.scene p claimable q.draft.decl).claim? n = none) {e : Entry}
    (he : q.entries.get? m.identity = some e) :
    ∃ node ∈ q.graph.graph.values, node.representative.identity = m.identity ∧
      (r.scene p claimable q.draft.decl).needsBridge node = true ∧ e = .ofBridge node := by
  have hname : m.identity.name ≠ typeInitializerName := by
    simpa [Method.isTypeInitializer] using hi
  rw [h.entries] at he
  dsimp only at he
  rw [Scene.get?_bindMembers_of_no_claim hname fun n hn =>
    hclaim n (List.mem_append_right _ hn)] at he
  rcases Scene.bindNodes_cases he with he | ⟨node, hnode, hk, hbinding⟩
  · rw [h.captured_eq_none_iff.2 hg] at he
    cases he
  · rcases Scene.nodeBinding?_eq_some_iff.1 hbinding with ⟨rule, hrule, -⟩ | ⟨-, hneeds, rfl⟩
    · rw [hclaim _ (List.mem_append_left _ (List.mem_map_of_mem hnode)) hk] at hrule
      cases hrule
    · exact ⟨node, hnode, hk, hneeds, rfl⟩

end Prepares

/-- **Methods that may not be claimed.** Such a representative has no entry, unless a family of its
identity has to be exposed or a rule claims another method of its identity. It is no rule that binds
it, but a visibility bridge may. Without an entry it is not written. -/
theorem rejected_methods_are_unbound {node : Node}
    (h : r.prepare d scope validate p claimable = .ok q) (hnode : node ∈ q.graph.graph.values)
    (hg : ¬d.Gains q.draft node.representative.identity)
    (hrejected : (claimable.resolve q.draft.decl).accepts p node.representative = false) :
    (q.entries.get? node.representative.identity = none ↔
      (∀ other ∈ q.graph.graph.values,
        other.representative.identity = node.representative.identity →
          (r.scene p claimable q.draft.decl).needsBridge other = false) ∧
        ∀ n ∈ q.candidates, n ≠ node.representative →
          n.identity = node.representative.identity →
            ¬(n.IsClaimable p claimable q.draft.decl ∧
              (r.firstRule? p q.draft.decl n).isSome = true)) ∧
    ((∀ n ∈ q.candidates, n ≠ node.representative → n.identity = node.representative.identity →
        ¬(n.IsClaimable p claimable q.draft.decl ∧
          (r.firstRule? p q.draft.decl n).isSome = true)) →
      ∀ e, q.entries.get? node.representative.identity = some e →
        ∃ other ∈ q.graph.graph.values,
          other.representative.identity = node.representative.identity ∧
            (r.scene p claimable q.draft.decl).needsBridge other = true ∧ e = .ofBridge other) ∧
    (q.entries.get? node.representative.identity = none → ∀ release plan,
      (q.compile release plan).record node.representative = .skipped node.representative) := by
  obtain ⟨s, h, -⟩ := prepares_of_prepare h
  have hi : node.representative.isTypeInitializer = false :=
    h.isTypeInitializer (List.mem_append_left _ (List.mem_map_of_mem hnode))
  -- the method itself is not claimed, so that the claims of the others decide
  have hclaims : (∀ n ∈ q.candidates, n.identity = node.representative.identity →
      (r.scene p claimable q.draft.decl).claim? n = none) ↔
      ∀ n ∈ q.candidates, n ≠ node.representative → n.identity = node.representative.identity →
        ¬(n.IsClaimable p claimable q.draft.decl ∧
          (r.firstRule? p q.draft.decl n).isSome = true) := by
    simp only [Scene.claim?_scene_eq_none_iff]
    refine forall₂_congr fun n _ => ⟨fun hn _ => hn, fun hn hk hclaimed => ?_⟩
    by_cases hself : n = node.representative
    · rw [hself] at hclaimed
      exact absurd hclaimed.1.allowed (by simp [hrejected])
    · exact hn hself hk hclaimed
  refine ⟨?_, fun hothers e he => h.exposed_of_no_claim hi hg (hclaims.2 hothers) he, ?_⟩
  · rw [h.get?_eq_none_iff hi, hclaims]
    exact and_iff_right hg
  · intro hnone release plan
    rw [PreparedRegistry.record_compile, hnone]
    rfl

/-- A method of a public class that is to be ignored stays as it is, although a rule matches it. -/
theorem rejected_methods_are_unbound_ignored :
    let run : Method := { owner := "a.Base", name := "run", modifiers := .of [.accPublic] }
    let p := Pool.empty.register
      { name := "a.Base", modifiers := .of [.accPublic], methods := [run] }
    let d : Draft := .subclass "a.Sub" (.of [.accPublic]) (.named "a.Base")
    let rules : Registry := { rules := [{ matcher := .always, handler := .implement .stub }] }
    let claimable : LatentMatcher := .instrumentable (.resolved (.named "run"))
    ∃ q, rules.prepare d .hierarchy true p claimable = .ok q ∧
      q.entries.get? run.identity = none ∧ (q.compile .default).record run = .skipped run := by
  intro run p d rules claimable
  let node : Node :=
    { representative := run, declarations := [run], types := [⟨.void, []⟩], visibility := .pub
      sort := .resolved }
  have facts : (rules.prepare d .hierarchy true p claimable).toOption.any (fun q =>
      decide (q.graph.graph.values = [node] ∧ q.candidates = [run] ∧ q.draft.decl = d.decl)) =
        true := by
    decide +kernel
  obtain ⟨q, h, hq⟩ := exists_ok_of_any facts
  obtain ⟨hnodes, hcandidates, hdecl⟩ := of_decide_eq_true hq
  have hgained : ¬d.Gains q.draft run.identity := by
    rw [Draft.Gains, hdecl]
    exact fun hg => hg.2 hg.1
  have hrejected : (claimable.resolve q.draft.decl).accepts p run = false := by
    rw [hdecl]
    decide +kernel
  have hnode : node ∈ q.graph.graph.values := by simp [hnodes]
  obtain ⟨hnone, -, hskipped⟩ := rejected_methods_are_unbound h hnode hgained hrejected
  have hunbound : q.entries.get? run.identity = none := by
    refine hnone.2 ⟨?_, ?_⟩
    · rw [hnodes, hdecl]
      exact List.forall_mem_singleton.2 fun _ => by decide +kernel
    · rw [hcandidates]
      exact List.forall_mem_singleton.2 fun hself => absurd rfl hself
  exact ⟨q, h, hunbound, hskipped hunbound .default .none⟩

/-- The public method of a package-private class is overridden by a bridge, although it is to be
ignored. -/
theorem ignored_methods_are_exposed :
    let run : Method := { owner := "a.Base", name := "run", modifiers := .of [.accPublic] }
    let p := Pool.empty.register { name := "a.Base", modifiers := .empty, methods := [run] }
    let d : Draft := .subclass "a.Sub" (.of [.accPublic]) (.named "a.Base")
    let rules : Registry := {}
    let claimable : LatentMatcher := .instrumentable (.resolved (.named "run"))
    ∃ q, rules.prepare d .hierarchy true p claimable = .ok q ∧
      run ∈ q.graph.graph.values.map (·.representative) ∧ ¬d.Gains q.draft run.identity ∧
        (claimable.resolve q.draft.decl).accepts p run = false ∧
          (q.entries.get? run.identity).map (·.handler) = some .bridge ∧
            ((q.compile .default).record run).sort = .implemented := by
  intro run p d rules claimable
  have facts : (rules.prepare d .hierarchy true p claimable).toOption.any (fun q =>
      decide (run ∈ q.graph.graph.values.map (·.representative) ∧
        ¬d.Gains q.draft run.identity ∧ (claimable.resolve q.draft.decl).accepts p run = false ∧
          (q.entries.get? run.identity).map (·.handler) = some .bridge ∧
            ((q.compile .default).record run).sort = .implemented)) = true := by
    decide +kernel
  obtain ⟨q, h, hq⟩ := exists_ok_of_any facts
  exact ⟨q, h, of_decide_eq_true hq⟩

end ClassForge.Registry
