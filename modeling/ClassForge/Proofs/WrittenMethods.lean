import ClassForge.Proofs.Compilation
import ClassForge.Proofs.Origins
import ClassForge.Proofs.Signatures
import ClassForge.Subclass

/-!
# When a class file has a method twice

A class file must not have two methods of one name and descriptor, and the check of a draft refuses
a declaration with two such methods. What is written, though, is more than what is declared: there
are overrides, visibility bridges and access bridges as well, and these are kept apart by identity
and by family key, not by descriptor. Nothing compares their descriptors with those of the declared
methods, nor with each other.

The bound methods come in two sorts, and the two behave differently.

* Methods of no family are declared: constructors, static and private methods, helpers. Each
  contributes its own signature and nothing else, so the check of the draft keeps them apart
  (`Registry.Prepares.nodup_memberSignatures`). The type initializer is written once, under a name
  that nothing else has.
* Families contribute the signature of their representative and those of their access bridges.
  These can meet in two families, and they can meet a method of no family.

So a build that is accepted writes no method twice exactly if the signatures of families are
distinct and stay clear of those of the other methods (`Subclass.signatures_nodup_iff`). This can
fail: a static method may be declared over an inherited one that is overridden as well.

## Main definitions

* `CompiledRegistry.familySignatures`, `CompiledRegistry.memberSignatures` — what is contributed by
  families, and by the other methods

## Main results

* `Subclass.signatures_nodup_iff` — when no method is written twice
* `Subclass.writes_signature_twice` — a class with a method that is
-/

namespace ClassForge

namespace CompiledRegistry

/-- The signatures that families contribute, with those of their access bridges. -/
def familySignatures (c : CompiledRegistry) : List (String × String) :=
  (c.instrumented.filter (·.isVirtual)).flatMap fun m => (c.record m).signatures

/-- The signatures that the methods of no family contribute, without the type initializer. -/
def memberSignatures (c : CompiledRegistry) : List (String × String) :=
  (c.instrumented.filter (!·.isVirtual)).flatMap fun m => (c.record m).signatures

/-- The bound methods contribute what families and what other methods do. -/
theorem perm_signatures (c : CompiledRegistry) :
    (c.instrumented.flatMap fun m => (c.record m).signatures).Perm
      (c.familySignatures ++ c.memberSignatures) := by
  rw [familySignatures, memberSignatures, ← List.flatMap_append]
  exact (List.filter_append_perm (·.isVirtual) c.instrumented).symm.flatMap_right _

end CompiledRegistry

namespace Registry.Prepares

variable {r : Registry} {d : Draft} {scope : GraphScope} {p : Pool} {claimable : LatentMatcher}
  {s : Progress} {q : PreparedRegistry} {m : Method}

/-! ### Bound methods -/

/-- A bound method has an entry of its own. -/
theorem exists_entry (h : r.Prepares d scope p claimable s q) (hm : m ∈ q.instrumented) :
    ∃ e, q.entries.get? m.identity = some e ∧ e.source = m := by
  obtain ⟨e, he, rfl⟩ := List.mem_map.1 (List.mem_filter.1 hm).1
  obtain ⟨k, hk⟩ := (OrderedMap.mem_values_iff _).1 he
  refine ⟨e, ?_, rfl⟩
  rw [(h.placed k e hk).source, hk]

theorem nodup_instrumented (h : r.Prepares d scope p claimable s q) :
    (q.instrumented.map (·.identity)).Nodup := by
  have keys : (q.entries.values.map (·.source)).map (·.identity) =
      q.entries.entries.map Prod.fst := by
    rw [OrderedMap.values, List.map_map, List.map_map]
    refine List.map_congr_left fun e he => ?_
    exact (h.placed e.1 e.2 ((OrderedMap.get?_eq_some_iff _).2 he)).source
  exact (keys ▸ q.entries.nodup).sublist (List.filter_sublist.map _)

/-- Methods of no family are declared. -/
theorem mem_methods (h : r.Prepares d scope p claimable s q) (hm : m ∈ q.instrumented)
    (hv : m.isVirtual = false) : m ∈ q.draft.decl.methods := by
  obtain ⟨e, he, rfl⟩ := h.exists_entry hm
  have hi : e.source.isTypeInitializer = false := by
    simpa using (List.mem_filter.1 hm).2
  rcases (h.placed _ _ he).origin with hvirtual | hinitializer | hmem
  · rw [hv] at hvirtual
    cases hvirtual
  · rw [hi] at hinitializer
    cases hinitializer
  · exact hmem

/-! ### What they contribute -/

variable (release : Release) (plan : RelocationPlan)

/-- What a bound method contributes has its name. -/
theorem name_of_mem_signatures (h : r.Prepares d scope p claimable s q) (hm : m ∈ q.instrumented)
    {x : String × String} (hx : x ∈ ((q.compile release plan).record m).signatures) :
    x.1 = m.name := by
  obtain ⟨e, he, -⟩ := h.exists_entry hm
  rw [PreparedRegistry.record_compile, he] at hx
  have hname : e.method.name = m.name :=
    congrArg (·.toSignature.name) (h.placed _ _ he).method
  exact (CompiledEntry.name_of_mem_signatures _ _ _ hx).trans hname

/-- The entry of a method of no family contributes that method and nothing else. -/
theorem signatures_of_entry (h : r.Prepares d scope p claimable s q) {e : Entry}
    (he : q.entries.get? m.identity = some e) (hv : e.source.isVirtual = false) :
    ((q.compile release plan).record m).signatures = [m.fileSignature] ∧
      ((q.compile release plan).record m).sort ≠ .skipped := by
  have placed := h.placed _ _ he
  have hbridges : e.bridgeTypes = [] := by rw [Entry.bridgeTypes, placed.types hv, List.filter_nil]
  rw [PreparedRegistry.record_compile, he, ← Method.fileSignature_of_identity placed.method]
  exact CompiledEntry.signatures_record_of_nil _ _ _ (placed.isBridge hv) hbridges

theorem memberSignatures_eq (h : r.Prepares d scope p claimable s q) :
    (q.compile release plan).memberSignatures =
      (q.instrumented.filter (!·.isVirtual)).map (·.fileSignature) := by
  rw [CompiledRegistry.memberSignatures, PreparedRegistry.instrumented_compile,
    ← List.flatMap_singleton' (List.map _ _), List.flatMap_map]
  refine List.flatMap_congr fun m hm => ?_
  obtain ⟨hm, hv⟩ := List.mem_filter.1 hm
  obtain ⟨e, he, hsource⟩ := h.exists_entry hm
  exact (h.signatures_of_entry release plan he (by simpa [hsource] using hv)).1

/-- **Methods of no family do not clash**, because the draft declares them and was accepted. -/
theorem nodup_memberSignatures (h : r.Prepares d scope p claimable s q)
    (hq : q.draft.decl.check p = .ok ()) :
    (q.compile release plan).memberSignatures.Nodup := by
  rw [h.memberSignatures_eq]
  have hn : (q.instrumented.filter (!·.isVirtual)).Nodup :=
    (List.Nodup.of_map _ h.nodup_instrumented).filter _
  refine (List.nodup_map_iff_inj_on hn).2 fun m hm n hn heq => ?_
  obtain ⟨hm, hmv⟩ := List.mem_filter.1 hm
  obtain ⟨hn, hnv⟩ := List.mem_filter.1 hn
  exact List.inj_on_of_nodup_map (TypeDecl.signatures_nodup hq)
    (h.mem_methods hm (by simpa using hmv)) (h.mem_methods hn (by simpa using hnv)) heq

/-- The type initializer contributes its signature, if anything. -/
theorem signatures_typeInitializer (h : r.Prepares d scope p claimable s q)
    (hi : m.isTypeInitializer = true) :
    ((q.compile release plan).record m).signatures = [m.fileSignature] ∧
        ((q.compile release plan).record m).sort ≠ .skipped ∨
      (q.compile release plan).record m = .skipped m := by
  cases he : q.entries.get? m.identity with
  | none =>
    refine .inr ?_
    rw [PreparedRegistry.record_compile, he]
    rfl
  | some e =>
    have hname : e.source.name = m.name :=
      congrArg (·.toSignature.name) (h.placed _ _ he).source
    have hsource : e.source.isTypeInitializer = true := by
      rwa [Method.isTypeInitializer, hname, ← Method.isTypeInitializer]
    exact .inl (h.signatures_of_entry release plan he
      (Method.isVirtual_of_isTypeInitializer hsource))

/-- **The type initializer is written at most once**, whatever code was collected for it. -/
theorem signatures_initializer (h : r.Prepares d scope p claimable s q) {i : TypeInitializer}
    {owner : String} {ws : List WrittenMethod}
    (hw : i.write owner (q.compile release plan).record = .ok ws) :
    ws.map (·.fileSignature) = [] ∨
      ws.map (·.fileSignature) = [(Method.typeInitializer owner).fileSignature] := by
  obtain ⟨record, hwrap, hw⟩ := ok_of_bind hw
  rw [MethodRecord.signatures_apply hw]
  have planned := h.signatures_typeInitializer release plan
    (m := .typeInitializer owner) rfl
  rcases TypeInitializer.wrap_cases hwrap with rfl | ⟨first, hwrap⟩
  · rcases planned with ⟨planned, -⟩ | planned
    · exact .inr planned
    · exact .inl (by rw [planned]; rfl)
  · rcases planned with ⟨planned, hsort⟩ | planned
    · rcases MethodRecord.signatures_prepend hwrap with heq | ⟨hskipped, -⟩
      · exact .inr (heq.trans planned)
      · exact absurd hskipped hsort
    · rw [planned] at hwrap
      obtain rfl := Except.ok.inj hwrap
      exact .inr rfl

/-! ### The class file -/

/-- **When no method is written twice.** -/
theorem nodup_fileSignature_iff (h : r.Prepares d scope p claimable s q)
    (hq : q.draft.decl.check p = .ok ()) {fields : FieldRecords} {auxiliary : List BuiltType}
    {activation : Activation} {b : BuiltType}
    (hb : q.draft.write release fields (q.compile release plan).record
      (q.compile release plan).instrumented auxiliary activation = .ok b) :
    (b.classFile.methods.map (·.fileSignature)).Nodup ↔
      (q.compile release plan).familySignatures.Nodup ∧
        (q.compile release plan).familySignatures.Disjoint
          (q.compile release plan).memberSignatures := by
  obtain ⟨written, hwritten, hb⟩ := ok_of_bind hb
  obtain ⟨initializer, hinitializer, hb⟩ := ok_of_bind hb
  obtain rfl := Except.ok.inj hb
  dsimp only
  rw [List.map_append, MethodRecord.signatures_mapM hwritten, List.nodup_append']
  have members := h.nodup_memberSignatures release plan hq
  have initializerOnce : (initializer.map (·.fileSignature)).Nodup := by
    rcases h.signatures_initializer release plan hinitializer with heq | heq <;> rw [heq]
    · exact List.nodup_nil
    · exact List.nodup_singleton _
  have initializerApart : List.Disjoint
      ((q.compile release plan).instrumented.flatMap fun m =>
        ((q.compile release plan).record m).signatures)
      (initializer.map (·.fileSignature)) := by
    intro x hx hi
    rw [PreparedRegistry.instrumented_compile] at hx
    obtain ⟨m, hm, hx⟩ := List.mem_flatMap.1 hx
    have hname : m.name = typeInitializerName := by
      rw [← h.name_of_mem_signatures release plan hm hx]
      rcases h.signatures_initializer release plan hinitializer with heq | heq
      · rw [heq] at hi
        cases hi
      · rw [heq, List.mem_singleton] at hi
        rw [hi]
        rfl
    simpa [Method.isTypeInitializer, hname] using (List.mem_filter.1 hm).2
  rw [(q.compile release plan).perm_signatures.nodup_iff, List.nodup_append']
  tauto

end Registry.Prepares

/-- **An accepted build writes no method twice** exactly if the signatures of its families are
distinct, and none of them is that of a method of no family. -/
theorem Subclass.signatures_nodup_iff {s : Subclass} {activation : Activation}
    {c : CompiledRegistry} {b : BuiltType} (hv : s.config.validate = true)
    (hc : s.compile = .ok c) (hb : s.make activation = .ok b) :
    (b.classFile.methods.map (·.fileSignature)).Nodup ↔
      c.familySignatures.Nodup ∧ c.familySignatures.Disjoint c.memberSignatures := by
  obtain ⟨_, hc', hb⟩ := ok_of_bind hb
  obtain rfl := Except.ok.inj (hc.symm.trans hc')
  obtain ⟨fields, -, hb⟩ := ok_of_bind hb
  obtain ⟨d, -, hc⟩ := ok_of_bind hc
  obtain ⟨q, hq, hc⟩ := ok_of_bind hc
  obtain rfl := Except.ok.inj hc
  obtain ⟨progress, h, hcheck⟩ := Registry.prepares_of_prepare hq
  exact h.nodup_fileSignature_iff _ _ (hcheck hv) hb

/-- A class that overrides `size` and has a constructor of its own. -/
theorem Subclass.signatures_nodup_override :
    let size : Method :=
      { owner := "a.Base", name := "size", modifiers := .of [.accPublic]
        returnType := .primitive .int }
    let p := Pool.empty.register
      { name := "a.Base", modifiers := .of [.accPublic]
        methods := [(MethodToken.constructor (.of [.accPublic]) []).attach "a.Base", size] }
    let s := (Subclass.new "a.Sub" (.named "a.Base") p).intercept (.named "size") .stub
    ∃ b, s.make .passive = .ok b ∧ (b.classFile.methods.map (·.fileSignature)).Nodup := by
  intro size p s
  have compiled : s.compile.toOption.any (fun c =>
      decide (c.familySignatures = [("size", "()I")] ∧ c.memberSignatures = [("<init>", "()V")]))
        = true := by decide +kernel
  have made : (s.make .passive).toOption.any (fun _ => true) = true := by decide +kernel
  obtain ⟨c, hc, signatures⟩ := exists_ok_of_any compiled
  obtain ⟨b, hb, -⟩ := exists_ok_of_any made
  obtain ⟨families, members⟩ := of_decide_eq_true signatures
  refine ⟨b, hb, (Subclass.signatures_nodup_iff rfl hc hb).2 ?_⟩
  rw [families, members]
  simp [List.Disjoint]

/-- A class that declares a static `size` and overrides the inherited one as well has two methods
of one signature, and the check lets it pass. -/
theorem Subclass.writes_signature_twice :
    let size : Method :=
      { owner := "a.Base", name := "size", modifiers := .of [.accPublic]
        returnType := .primitive .int }
    let own : MethodToken :=
      { name := "size", modifiers := .of [.accPublic, .accStatic], returnType := .primitive .int }
    let p := Pool.empty.register
      { name := "a.Base", modifiers := .of [.accPublic]
        methods := [(MethodToken.constructor (.of [.accPublic]) []).attach "a.Base", size] }
    ∃ s, (Subclass.new "a.Sub" (.named "a.Base") p).define own (.implemented .stub) = .ok s ∧
      s.config.validate = true ∧
        ∃ b, (s.intercept (.named "size") .stub).make .passive = .ok b ∧
          ¬ (b.classFile.methods.map (·.fileSignature)).Nodup := by
  intro size own p
  have written : ((Subclass.new "a.Sub" (.named "a.Base") p).define own
      (.implemented .stub)).toOption.any (fun s =>
        s.config.validate &&
          ((s.intercept (.named "size") .stub).make .passive).toOption.any fun b =>
            decide ¬ (b.classFile.methods.map (·.fileSignature)).Nodup) = true := by
    decide +kernel
  obtain ⟨s, hs, written⟩ := exists_ok_of_any written
  rw [Bool.and_eq_true] at written
  obtain ⟨b, hb, twice⟩ := exists_ok_of_any written.2
  exact ⟨s, hs, written.1, b, hb, of_decide_eq_true twice⟩

end ClassForge
