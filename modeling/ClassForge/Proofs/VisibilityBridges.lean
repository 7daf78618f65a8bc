import ClassForge.Proofs.Compilation
import ClassForge.Proofs.FirstMatch
import ClassForge.Proofs.OperandStack
import ClassForge.Proofs.Signatures
import ClassForge.Proofs.WellFormed

/-!
# Where visibility bridges go

A public method of a package-private class cannot be called through a subclass from elsewhere,
unless the subclass declares it once more. The bridge that does so calls the inherited method, and
the class that it names in the call is always the superclass of its type. That has to be a class
that has the method.

For a method that a class declares it is. Any such class is reached through the superclass, since
references to interfaces lead to interfaces only. A default method of a package-private interface is
exposed in the same way, and there it depends on the way to the interface: if the superclass has it
as well the call is fine, and if only the type itself implements it, the class that the call names
does not have the method (`Registry.visibility_bridges_miss_interfaces`).

That the record of a bridge comes from a family that has to be exposed is a matter of book-keeping.
The handler of these bridges prepares no draft, so that no rule of a prepared registry has it.

## Main definitions

* `Registry.Progress.Plain` — no visibility bridge so far

## Main results

* `Registry.Prepares.exposed_of_handler` — the entries of visibility bridges
* `Registry.visibility_bridges_reach` — when the class that is called has the method
-/

namespace ClassForge

namespace MethodRecord

/-- The bridge, the method that it calls, the class that the call names, and the annotations. -/
def exposure? : MethodRecord → Option (Method × Method × String × List AnnotationSource)
  | visibilityBridge bridge target superclass sources => some (bridge, target, superclass, sources)
  | _ => none

theorem eq_of_exposure? {record : MethodRecord}
    {x : Method × Method × String × List AnnotationSource} (h : record.exposure? = some x) :
    record = visibilityBridge x.1 x.2.1 x.2.2.1 x.2.2.2 := by
  cases record with
  | visibilityBridge bridge target superclass sources =>
    obtain rfl := Option.some.inj h
    rfl
  | _ => cases h

/-- The code of a visibility bridge calls the method that it exposes. -/
theorem code_of_apply_visibilityBridge {bridge target : Method} {superclass : String}
    {sources : List AnnotationSource} {ws : List WrittenMethod}
    (h : (visibilityBridge bridge target superclass sources).apply = .ok ws) :
    ∃ w code, ws = [w] ∧ w.code = some code ∧ code.instructions =
      (Fragment.loadArguments bridge true).instructions ++
        [.invoke .special ⟨superclass, target.name, target.type⟩,
          .ret (ValueKind.of bridge.returnType)] := by
  obtain ⟨code, hcode, h⟩ := ok_of_bind h
  obtain rfl := Except.ok.inj h
  unfold Appender.codeOf at hcode
  split at hcode
  · obtain rfl := Except.ok.inj hcode
    refine ⟨_, _, rfl, rfl, ?_⟩
    rw [Code.of, Fragment.instructions_join]
    rfl
  · cases hcode

end MethodRecord

/-! ### Inherited methods of other types -/

namespace Pool.WellFormed

variable {p : Pool} {t : TypeDecl} {m : Method}

/-- Another type declares the method, and the pool knows that type. -/
theorem exists_owner (h : p.WellFormed t) (hm : p.Inherits t m) (hother : m.owner ≠ t.name) :
    ∃ u, p.Knows u ∧ m.owner = u.name ∧ m ∈ u.methods ∧ u ≠ t ∧ p.Reaches t u := by
  obtain ⟨-, -, u, hu, hmem⟩ := hm
  have howner : m.owner = u.name := h.owner u (mem_of_reaches List.mem_cons_self hu) m hmem
  have hne : u ≠ t := by
    rintro rfl
    exact hother howner
  exact ⟨u, hu.eq_or_knows.resolve_left hne, howner, hmem, hne, hu⟩

/-- **A type inherits from the owner of a method** exactly if it inherits the method. -/
theorem inherits_owner_iff (h : p.WellFormed t) (hm : p.Inherits t m) (hother : m.owner ≠ t.name)
    (name : String) :
    p.inherits name m.owner = true ↔ ∃ u, p.find? name = some u ∧ p.Inherits u m := by
  obtain ⟨w, hw, howner, hmem, -, -⟩ := h.exists_owner hm hother
  cases hu : p.find? name with
  | none => simp [inherits, hu]
  | some u =>
    have hknown := knows_of_find? hu
    obtain rfl := name_of_find? hu
    rw [howner, h.inherits_iff_reaches hknown hw]
    constructor
    · exact fun hreaches => ⟨u, rfl, hm.1, hm.2.1, w, hreaches, hmem⟩
    · rintro ⟨v, hv, -, -, x, hx, hmem'⟩
      obtain rfl := Option.some.inj hv
      have howner' := h.owner x (List.mem_cons_of_mem t (hx.knows hknown).mem) m hmem'
      rwa [← (hx.knows hknown).eq hw (howner'.symm.trans howner)]

/-- **What a class declares** is inherited through the superclass. -/
theorem inherits_superclass (h : p.WellFormed t) (hm : p.Inherits t m) (hother : m.owner ≠ t.name)
    (hclass : p.hasInterface m.owner = false) :
    ∃ name, t.superName? = some name ∧ p.inherits name m.owner = true := by
  obtain ⟨w, hw, howner, -, hne, hreaches⟩ := h.exists_owner hm hother
  obtain rfl | ⟨v, ⟨r, hr, hv⟩, hvw⟩ := hreaches.cases_head
  · exact absurd rfl hne
  · rcases List.mem_append.1 hr with hr | hr
    · rw [Option.mem_toList] at hr
      refine ⟨v.name, superName?_of_resolve? hr hv, ?_⟩
      rw [howner, h.inherits_iff_reaches (knows_of_resolve? hv) hw]
      exact hvw
    -- interfaces lead to interfaces only
    · have hinterface := h.interfaces t List.mem_cons_self r hr v hv
      have hw' := h.isInterface_of_reaches (knows_of_resolve? hv) hinterface hvw
      rw [howner, hasInterface, hw, Option.any_some, hw'] at hclass
      cases hclass

end Pool.WellFormed

namespace Registry

/-! ### The handler of visibility bridges -/

namespace Progress

variable {s s' : Progress} {r : Rule}

/-- The handler of visibility bridges has not had a turn, and nothing is bound to it. -/
structure Plain (s : Progress) : Prop where
  handled : .bridge ∉ s.handled
  entries : ∀ k e, s.entries.get? k = some e → e.handler ≠ .bridge

theorem plain_start (d : Draft) : (start d).Plain where
  handled := List.not_mem_nil
  entries k e he := by simp [start] at he

theorem Plain.capture (hs : s.Plain) {h : Handler} (hh : h ≠ .bridge) (m : Method) :
    (s.capture h m).Plain := by
  unfold Progress.capture
  split
  · exact hs
  · refine ⟨hs.handled, fun k e he => ?_⟩
    dsimp only at he
    rw [Entries.get?_bind] at he
    split at he
    · obtain rfl := Option.some.inj he
      cases s.entries.get? k <;> exact hh
    · exact hs.entries k e he

theorem Plain.foldl_capture (hs : s.Plain) {h : Handler} (hh : h ≠ .bridge) (ms : List Method) :
    (ms.foldl (Progress.capture h) s).Plain := by
  induction ms generalizing s with
  | nil => exact hs
  | cons m ms ih => exact ih (hs.capture hh m)

/-- A handler that has its turn is not that of visibility bridges. -/
theorem Plain.step (hs : s.Plain) (h : s.step r = .ok s') : r.handler ≠ .bridge ∧ s'.Plain := by
  unfold Progress.step at h
  split at h
  · rename_i hhandled
    obtain rfl := Except.ok.inj h
    exact ⟨fun hbridge => hs.handled (hbridge ▸ hhandled), hs⟩
  · obtain ⟨draft, hprepare, h⟩ := ok_of_bind h
    obtain rfl := Except.ok.inj h
    have hhandler : r.handler ≠ .bridge := by
      intro hbridge
      rw [hbridge] at hprepare
      cases hprepare
    have hturn : .bridge ∉ r.handler :: s.handled := fun hmem =>
      (List.mem_cons.1 hmem).elim (fun h => hhandler h.symm) hs.handled
    have hbefore : Plain { s with draft, handled := r.handler :: s.handled } := ⟨hturn, hs.entries⟩
    exact ⟨hhandler, hbefore.foldl_capture hhandler draft.decl.methods⟩

theorem plain_foldlM : {rs : List Rule} → {s s' : Progress} → s.Plain →
    rs.foldlM step s = .ok s' → (∀ r ∈ rs, r.handler ≠ .bridge) ∧ s'.Plain
  | [], _, _, hs, h => ⟨List.forall_mem_nil _, Except.ok.inj h ▸ hs⟩
  | r :: rs, s, s', hs, h => by
    rw [List.foldlM_cons] at h
    obtain ⟨s₁, hstep, h⟩ := ok_of_bind h
    obtain ⟨hr, hs₁⟩ := hs.step hstep
    obtain ⟨hrs, hs'⟩ := plain_foldlM hs₁ h
    exact ⟨List.forall_mem_cons.2 ⟨hr, hrs⟩, hs'⟩

end Progress

variable {r : Registry} {d : Draft} {scope : GraphScope} {validate : Bool} {p : Pool}
  {claimable : LatentMatcher} {q : PreparedRegistry}

/-- **The entries of visibility bridges** are those of families that have to be exposed. -/
theorem exposed_of_handler (h : r.prepare d scope validate p claimable = .ok q)
    {k : MethodIdentity} {e : Entry} (he : q.entries.get? k = some e) (hb : e.handler = .bridge) :
    ∃ node ∈ q.graph.graph.values,
      (r.scene p claimable q.draft.decl).needsBridge node = true ∧ e = .ofBridge node := by
  obtain ⟨s, hs, h, -⟩ := progress_of_prepare h
  obtain ⟨hrules, hplain⟩ := Progress.plain_foldlM (Progress.plain_start d) hs
  have hrule {m : Method} {rule : Rule} (hm : r.firstRule? p q.draft.decl m = some rule) :
      rule.handler ≠ .bridge := hrules rule (List.mem_of_find?_eq_some hm)
  rw [h.entries] at he
  rcases Scene.foldl_bindMethod_cases he with he | ⟨⟨m, -, -, rule, hm, hrebound⟩, -⟩
  · rcases Scene.bindNodes_cases he with he | ⟨node, hnode, -, hbinding⟩
    · exact absurd hb (hplain.entries k e he)
    · rcases Scene.nodeBinding?_eq_some_iff.1 hbinding with ⟨rule, hclaim, rfl⟩ | ⟨-, hneeds, rfl⟩
      · exact absurd hb (hrule (Scene.claim?_scene_eq_some_iff.1 hclaim).2)
      · exact ⟨node, hnode, hneeds, rfl⟩
  · rw [Scene.ruleFor?_scene] at hm
    exact absurd ((congrArg Entry.handler hrebound).symm.trans hb) (hrule hm)

/-! ### Records -/

/-- A record that is a visibility bridge is that of an entry with the handler for it. -/
theorem handler_of_record {e : Entry} {t : Target} {decl : TypeDecl} {supportsBridges : Bool}
    {bridge target : Method} {superclass : String} {sources : List AnnotationSource}
    (h : (e.compile t).record decl supportsBridges =
      .visibilityBridge bridge target superclass sources) :
    e.handler = .bridge ∧ target = e.method ∧
      superclass = t.superName?.getD BinaryName.object := by
  rw [CompiledEntry.record_eq] at h
  split at h
  · cases h
  · split at h
    · unfold CompiledEntry.main Entry.compile at h
      cases hhandler : e.handler with
      | bridge =>
        rw [hhandler] at h
        cases h
        exact ⟨rfl, rfl, rfl⟩
      | noCode | implement _ | defaultValue _ =>
        rw [hhandler] at h
        cases h
    · cases h

/-- **The record of a visibility bridge** is that of a family that has to be exposed, and names the
superclass. -/
theorem exposed_of_record (h : r.prepare d scope validate p claimable = .ok q) {release : Release}
    {plan : RelocationPlan} {m bridge target : Method} {superclass : String}
    {sources : List AnnotationSource}
    (hrecord : (q.compile release plan).record m =
      .visibilityBridge bridge target superclass sources) :
    (∃ node ∈ q.graph.graph.values, target = node.representative ∧
      (r.scene p claimable q.draft.decl).needsBridge node = true) ∧
      superclass = q.draft.decl.superName?.getD BinaryName.object := by
  rw [PreparedRegistry.record_compile] at hrecord
  cases he : q.entries.get? m.identity with
  | none =>
    rw [he] at hrecord
    cases hrecord
  | some e =>
    rw [he, Option.elim_some] at hrecord
    obtain ⟨hhandler, rfl, hsuper⟩ := handler_of_record hrecord
    obtain ⟨node, hnode, hneeds, rfl⟩ := exposed_of_handler h he hhandler
    exact ⟨⟨node, hnode, rfl, hneeds⟩, hsuper⟩

/-! ### The class that is called -/

/-- **When the class that a visibility bridge calls has the method.** The call names the superclass
of the type. In a well-formed pool the superclass inherits from the type that declares the method
exactly if it inherits the method, and if that type is a class it does. -/
theorem visibility_bridges_reach (h : r.prepare d scope validate p claimable = .ok q)
    (hwf : p.WellFormed q.draft.decl) {release : Release} {plan : RelocationPlan}
    {m bridge target : Method} {superclass : String} {sources : List AnnotationSource}
    (hrecord : (q.compile release plan).record m =
      .visibilityBridge bridge target superclass sources) :
    (∀ ws, ((q.compile release plan).record m).apply = .ok ws →
      ∃ w code, ws = [w] ∧ w.code = some code ∧ code.instructions =
        (Fragment.loadArguments bridge true).instructions ++
          [.invoke .special ⟨superclass, target.name, target.type⟩,
            .ret (ValueKind.of bridge.returnType)]) ∧
    (p.inherits superclass target.owner = true ↔
      ∃ u, p.find? superclass = some u ∧ p.Inherits u target) ∧
    (p.hasInterface target.owner = false → p.inherits superclass target.owner = true) := by
  obtain ⟨⟨node, hnode, rfl, hneeds⟩, rfl⟩ := exposed_of_record h hrecord
  obtain ⟨s, h, -⟩ := prepares_of_prepare h
  obtain ⟨k, hsound⟩ := p.invariant_sound.exists_of_mem_values scope (h.graph ▸ hnode)
  have hinherited := hsound.inherited _ List.mem_cons_self
  have hother : node.representative.owner ≠ q.draft.decl.name := by
    simp only [Scene.needsBridge, Bool.and_eq_true, decide_eq_true_eq] at hneeds
    exact hneeds.1.2
  refine ⟨?_, hwf.inherits_owner_iff hinherited hother _, fun hclass => ?_⟩
  · rw [hrecord]
    exact fun ws hw => MethodRecord.code_of_apply_visibilityBridge hw
  · obtain ⟨name, hname, hinherits⟩ := hwf.inherits_superclass hinherited hother hclass
    rwa [hname]

/-- A public class exposes what its package-private superclass declares. -/
theorem visibility_bridges_reach_superclass :
    let run : Method := { owner := "a.Base", name := "run", modifiers := .of [.accPublic] }
    let p := Pool.empty.register { name := "a.Base", modifiers := .empty, methods := [run] }
    let d : Draft := .subclass "a.Sub" (.of [.accPublic]) (.named "a.Base")
    let rules : Registry := {}
    ∃ q, rules.prepare d .hierarchy true p .always = .ok q ∧
      ∃ bridge sources, (q.compile .default).record run =
        .visibilityBridge bridge run "a.Base" sources ∧ p.inherits "a.Base" run.owner = true := by
  intro run p d rules
  have facts : (rules.prepare d .hierarchy true p .always).toOption.any (fun q =>
      decide (q.draft.decl = d.decl) && ((q.compile .default).record run).exposure?.any fun x =>
        decide (x.2.1 = run ∧ x.2.2.1 = "a.Base")) = true := by
    decide +kernel
  obtain ⟨q, h, hq⟩ := exists_ok_of_any facts
  obtain ⟨hdecl, hexposed⟩ := Bool.and_eq_true_iff.1 hq
  obtain ⟨⟨bridge, target, superclass, sources⟩, hx, hparts⟩ := (Option.any_eq_true _ _).1 hexposed
  obtain ⟨rfl, rfl⟩ := of_decide_eq_true hparts
  have hrecord := MethodRecord.eq_of_exposure? hx
  have hwell : p.WellFormed q.draft.decl := by
    rw [of_decide_eq_true hdecl]
    exact .of_rank (fun name => if name = "a.Sub" then 1 else 0) (by decide +kernel)
  have hdeclared : p.hasInterface "a.Base" = false := by decide +kernel
  obtain ⟨-, -, hclass⟩ := visibility_bridges_reach h hwell hrecord
  exact ⟨q, h, bridge, sources, hrecord, hclass hdeclared⟩

/-- The default method of a package-private interface that only the type itself implements. The
bridge that exposes it calls the root class, which does not have it. -/
theorem visibility_bridges_miss_interfaces :
    let run : Method := { owner := "a.Task", name := "run", modifiers := .of [.accPublic] }
    let p := Pool.empty.register
      { name := "a.Task", modifiers := .of [.accInterface, .accAbstract], superclass := none
        methods := [run] }
    let d : Draft :=
      { decl := { name := "a.Job", modifiers := .of [.accPublic], superclass := some .object
                  interfaces := [.named "a.Task"] } }
    let rules : Registry := {}
    p.WellFormed d.decl ∧ ∃ q, rules.prepare d .hierarchy true p .always = .ok q ∧
      ∃ bridge sources, (q.compile .default).record run =
        .visibilityBridge bridge run BinaryName.object sources ∧
          p.inherits BinaryName.object run.owner = false := by
  intro run p d rules
  have facts : (rules.prepare d .hierarchy true p .always).toOption.any (fun q =>
      ((q.compile .default).record run).exposure?.any fun x =>
        decide (x.2.1 = run ∧ x.2.2.1 = BinaryName.object)) = true := by
    decide +kernel
  obtain ⟨q, h, hexposed⟩ := exists_ok_of_any facts
  obtain ⟨⟨bridge, target, superclass, sources⟩, hx, hparts⟩ := (Option.any_eq_true _ _).1 hexposed
  obtain ⟨rfl, rfl⟩ := of_decide_eq_true hparts
  have hwell : p.WellFormed d.decl :=
    .of_rank (fun name => if name = "a.Job" then 1 else 0) (by decide +kernel)
  exact ⟨hwell, q, h, bridge, sources, MethodRecord.eq_of_exposure? hx, by decide +kernel⟩

end Registry

end ClassForge
