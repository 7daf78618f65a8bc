import ClassForge.BuiltType
import ClassForge.Proofs.Flattening
import ClassForge.Proofs.Origins
import ClassForge.Proofs.VisibilityBridges

/-!
# The code of a type initializer

The code of a type initializer is collected piece by piece, and what a registry plans for the
initializer itself comes last. Two operations meet: collecting puts a piece behind those before it,
and writing puts everything collected in front of the plan. Both join appenders, and joining opens
up appenders that are joined already, so of the nesting nothing is left (`Appender.apply_join`): the
code is that of the pieces in the order in which they came, in a frame that fits each of them.

A plan that has no code of its own cannot take any in front. It is refused before any code is made,
and so is whatever piece is illegal, the first of them first; a class file that is being written
stays as it is then.

Records have kinds that this leaves out, but a registry plans none of these for a type
initializer. Bridges of both kinds belong to families, and a type initializer is in none.

## Main definitions

* `TypeInitializer.collect` — the initializer that some pieces of code come to
* `MethodRecord.writtenAfter` — what a plan comes to with code in front

## Main results

* `TypeInitializer.write_collect` — what is written for a plan without bridges
* `Draft.classFile_of_write` — the type initializer is drained into the class file of a draft
* `Registry.initializer_code_accumulates` — the type initializer of a prepared registry
-/

namespace ClassForge

/-! ### A method that does nothing -/

/-- The code of a method that does nothing. -/
def Code.plainReturn : Code := { instructions := [.ret none] }

namespace Appender

variable {m : Method}

/-- What a method that was not to be written ends with, if it has no parameters and no result. -/
theorem mapM_return (hresult : m.returnType = .void) (hframe : m.frameSize = 0) :
    [fragment (.join [.pushDefault m.returnType, .ret m.returnType])].mapM (apply m) =
      .ok [.plainReturn] := by
  rw [hresult, List.mapM_cons, apply, codeOf, if_pos (by rfl), hframe]
  rfl

end Appender

/-! ### The type initializer -/

namespace TypeInitializer

/-- The initializer that some pieces of code come to, each put behind those before it. -/
def collect (as : List Appender) : TypeInitializer := as.foldl append {}

/-- What has been collected has the parts of all its pieces, whatever was joined when. -/
theorem exists_code_foldl_append (b : Appender) (as : List Appender) :
    ∃ a, (as.foldl append ⟨some b⟩).code = some a ∧
      a.parts = b.parts ++ as.flatMap Appender.parts := by
  induction as generalizing b with
  | nil => exact ⟨b, rfl, by simp⟩
  | cons c as ih =>
    obtain ⟨a, ha, hparts⟩ := ih (.join [b, c])
    refine ⟨a, ha, ?_⟩
    simpa [Appender.join, Appender.parts] using hparts

end TypeInitializer

namespace MethodRecord

/-- What is written for a plan if the given pieces of code run first. A method that was not to be
written returns after them, code of the plan comes behind them, and a plan of any other kind takes
none. -/
def writtenAfter (as : List Appender) : MethodRecord → Build (List WrittenMethod)
  | skipped m => do
    let codes ← as.mapM (·.apply m)
    let code := Code.joined (codes ++ [.plainReturn])
    return [{ write m (m.writtenModifiers m.visibility true) [] with code := some code }]
  | implemented m code sources v => do
    let codes ← (as ++ [code]).mapM (·.apply m)
    return [{ write m (m.writtenModifiers v true) sources with code := some (.joined codes) }]
  | r => .error (.misuse (.noCode r.method))

/-- The plan is one that a type initializer can have: it has no bridges, and if nothing is to be
written, then for a method without parameters and result. -/
def Plain : MethodRecord → Prop
  | skipped m => m.returnType = .void ∧ m.frameSize = 0
  | visibilityBridge .. | withBridges .. => False
  | _ => True

end MethodRecord

/-- **What is written for collected code**: all of it in its order, and the plan behind it. -/
theorem TypeInitializer.write_collect {as : List Appender} {owner : String}
    {plan : Method → MethodRecord} (hplain : (plan (.typeInitializer owner)).Plain) :
    (collect as).write owner plan =
      if as = [] then (plan (.typeInitializer owner)).apply
      else (plan (.typeInitializer owner)).writtenAfter as := by
  generalize hrecord : plan (.typeInitializer owner) = record at hplain
  rw [write, hrecord, wrap]
  cases as with
  | nil => rfl
  | cons b as =>
    obtain ⟨a, ha, hparts⟩ := exists_code_foldl_append b as
    have hjoin (last : Appender) : Appender.join [a, last] = .join (b :: as ++ [last]) := by
      simp [Appender.join, hparts]
    have hcode : (collect (b :: as)).code = some a := ha
    rw [hcode, if_neg (List.cons_ne_nil b as)]
    cases record with
    | skipped m =>
      change (Appender.join [a, _]).apply m >>= _ = _
      rw [hjoin, Appender.apply_join (by simp), List.mapM_append, MethodRecord.writtenAfter]
      cases (b :: as).mapM (·.apply m) with
      | error e => rfl
      | ok cs =>
        rw [Appender.mapM_return hplain.1 hplain.2]
        rfl
    | implemented m code sources v =>
      change (Appender.join [a, code]).apply m >>= _ = _
      rw [hjoin, Appender.apply_join (by simp), MethodRecord.writtenAfter]
      cases (b :: as ++ [code]).mapM (·.apply m) <;> rfl
    | declared | annotationDefault => rfl
    | visibilityBridge | withBridges => exact hplain.elim

/-! ### Class files -/

/-- What becomes of a class file if the given methods are to be added to it: a refusal leaves it as
it is. -/
def ClassFile.extend (file : ClassFile) :
    Build (List WrittenMethod) → Except BuildError Unit × ClassFile
  | .ok ws => (.ok (), { file with methods := file.methods ++ ws })
  | .error e => (.error e, file)

theorem TypeInitializer.run_drain (i : TypeInitializer) (owner : String)
    (plan : Method → MethodRecord) (file : ClassFile) :
    (i.drain owner plan).run.run file = file.extend (i.write owner plan) := by
  rw [drain]
  cases i.write owner plan <;> rfl

/-- The class file of a draft is what draining its type initializer makes of the methods written
before. -/
theorem Draft.classFile_of_write {d : Draft} {release : Release} {fields : FieldRecords}
    {plan : Method → MethodRecord} {methods : List Method} {auxiliary : List BuiltType}
    {activation : Activation} {t : BuiltType}
    (h : d.write release fields plan methods auxiliary activation = .ok t) :
    ∃ written, (methods.mapM fun m => (plan m).apply) = .ok written ∧
      (d.initializer.drain d.decl.name plan).run.run
          { ClassFile.header d.decl release with
            fields := d.decl.fields.map fun f => (fields.record f).apply
            methods := written.flatten } =
        (.ok (), t.classFile) := by
  obtain ⟨written, hwritten, h⟩ := ok_of_bind h
  obtain ⟨ws, hws, h⟩ := ok_of_bind h
  obtain rfl := Except.ok.inj h
  refine ⟨written, hwritten, ?_⟩
  rw [TypeInitializer.run_drain, hws]
  rfl

/-! ### The plan of a registry -/

/-- An entry in its place that stands for a method of no family is planned without bridges. -/
theorem Entry.plain_record {e : Entry} {t : TypeDecl} {k : MethodIdentity} (hplaced : e.Placed t k)
    (hvirtual : e.source.isVirtual = false) (hhandler : e.handler ≠ .bridge) (target : Target)
    (decl : TypeDecl) (supportsBridges : Bool) :
    ((e.compile target).record decl supportsBridges).Plain ∧
      ((e.compile target).record decl supportsBridges).method.identity = k := by
  have hisBridge := hplaced.isBridge hvirtual
  have htypes : (e.compile target).bridged decl supportsBridges = [] := by
    simp [CompiledEntry.bridged, Entry.compile, Entry.bridgeTypes, hplaced.types hvirtual]
  rw [CompiledEntry.record_eq, if_neg (by simp [Entry.compile, hisBridge]), if_pos htypes]
  have hmethod := hplaced.method
  unfold CompiledEntry.main Entry.compile
  cases hhandled : e.handler with
  | noCode | implement _ | defaultValue _ => exact ⟨trivial, hmethod⟩
  | bridge => exact absurd hhandled hhandler

namespace Registry

variable {r : Registry} {d : Draft} {scope : GraphScope} {validate : Bool} {p : Pool}
  {claimable : LatentMatcher} {q : PreparedRegistry}

/-- **A registry plans no bridges for a type initializer**, and what it plans is for that method. -/
theorem plain_record (h : r.prepare d scope validate p claimable = .ok q) (release : Release)
    (plan : RelocationPlan) (owner : String) :
    ((q.compile release plan).record (.typeInitializer owner)).Plain ∧
      ((q.compile release plan).record (.typeInitializer owner)).method.identity =
        (Method.typeInitializer owner).identity := by
  rw [PreparedRegistry.record_compile]
  cases he : q.entries.get? (Method.typeInitializer owner).identity with
  | none =>
    have hstatic : (Method.typeInitializer owner).isStatic = true := by
      simp [Method.isStatic, Method.typeInitializer]
    have hframe : (Method.typeInitializer owner).frameSize = 0 := by
      rw [Method.frameSize, Method.receiverSlots, if_pos hstatic]
      rfl
    exact ⟨⟨rfl, hframe⟩, rfl⟩
  | some e =>
    obtain ⟨s, hprepares, -⟩ := prepares_of_prepare h
    have hplaced := hprepares.placed _ e he
    have hvirtual : e.source.isVirtual = false := by
      refine Method.isVirtual_of_isTypeInitializer ?_
      have hname : e.source.name = typeInitializerName := congrArg (·.name) hplaced.source
      simpa [Method.isTypeInitializer] using hname
    have hhandler : e.handler ≠ .bridge := by
      intro hhandler
      obtain ⟨node, -, -, rfl⟩ := exposed_of_handler h he hhandler
      cases hplaced.isBridge hvirtual
    exact Entry.plain_record hplaced hvirtual hhandler _ _ _

/-- **The code of a type initializer is collected in order and written as a whole.** With nothing
collected, a class file gets what the registry plans for the initializer. Otherwise it gets one
method, with all pieces in their order and what is planned behind them, in the smallest frame that
fits each; and if a piece is refused, or the plan has no code to put them in front of, the first
refusal is the answer and the class file stays as it is. -/
theorem initializer_code_accumulates (h : r.prepare d scope validate p claimable = .ok q)
    (release : Release) (plan : RelocationPlan) (owner : String) (as : List Appender)
    (file : ClassFile) :
    let record := (q.compile release plan).record (.typeInitializer owner)
    record.method.identity = (Method.typeInitializer owner).identity ∧
      ((TypeInitializer.collect as).drain owner (q.compile release plan).record).run.run file =
        file.extend (if as = [] then record.apply else record.writtenAfter as) := by
  obtain ⟨hplain, hmethod⟩ := plain_record h release plan owner
  refine ⟨hmethod, ?_⟩
  rw [TypeInitializer.run_drain, TypeInitializer.write_collect hplain]

/-- Three pieces of code are collected for a type initializer that a rule writes as a stub. -/
theorem initializer_code_accumulates_stub :
    let d : Draft := .subclass "a.Sub" (.of [.accPublic]) .object
    let rules : Registry :=
      { rules := [{ matcher := .resolved (.named "<clinit>"), handler := .implement .stub }] }
    let piece (n : Int32) : Appender := .fragment (.join [.pushInt n, .pop 1])
    let as := [piece 1, piece 2, piece 3]
    let file := ClassFile.header d.decl .default
    ∃ q, rules.prepare d .hierarchy true .empty .always = .ok q ∧
      let record := (q.compile .default).record (.typeInitializer "a.Sub")
      let outcome :=
        ((TypeInitializer.collect as).drain "a.Sub" (q.compile .default).record).run.run file
      (record.method.identity = (Method.typeInitializer "a.Sub").identity ∧
        outcome = file.extend (if as = [] then record.apply else record.writtenAfter as)) ∧
      outcome.2.methods.map (·.code) = [some
        { instructions := [.pushInt 1, .pop, .pushInt 2, .pop, .pushInt 3, .pop, .ret none]
          maxStack := 1, maxLocals := 0 }] := by
  intro d rules piece as file
  have facts : (rules.prepare d .hierarchy true .empty .always).toOption.any (fun q =>
      decide ((((TypeInitializer.collect as).drain "a.Sub"
        (q.compile .default).record).run.run file).2.methods.map (·.code) = [some
          { instructions := [.pushInt 1, .pop, .pushInt 2, .pop, .pushInt 3, .pop, .ret none]
            maxStack := 1, maxLocals := 0 }])) = true := by
    decide +kernel
  obtain ⟨q, h, hcode⟩ := exists_ok_of_any facts
  exact ⟨q, h, initializer_code_accumulates h .default .none "a.Sub" as file,
    of_decide_eq_true hcode⟩

end Registry

end ClassForge
