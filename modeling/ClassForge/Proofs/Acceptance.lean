import ClassForge.Draft.Validation
import ClassForge.Proofs.Outcomes
import Mathlib.Data.List.Nodup

/-!
# What an accepted declaration looks like

The checks of a draft end at the first fault, so a draft that is accepted has none of them. For the
methods the one check that compares declarations with each other is that no two have the same name
and descriptor. A method's identity fixes both, so the declared methods of an accepted draft are
also different as methods, and whatever is kept by identity keeps them apart.

## Main results

* `TypeDecl.checkMethods_eq_ok_iff` — the methods that are accepted
* `TypeDecl.signatures_nodup` — an accepted type declares no signature twice
* `TypeDecl.identities_nodup`, `TypeDecl.eq_of_identity_eq` — nor any method
-/

namespace ClassForge

/-- The name and the descriptor, by which a class file tells methods apart. -/
def Method.fileSignature (m : Method) : String × String := (m.name, m.descriptor)

theorem Method.fileSignature_of_identity {m n : Method} (h : m.identity = n.identity) :
    m.fileSignature = n.fileSignature := by
  have hs : m.signature = n.signature := congrArg MethodIdentity.toSignature h
  have ht : m.type = n.type := congrArg Signature.toMethodType hs
  have hn : m.name = n.name := congrArg Signature.name hs
  rw [fileSignature, fileSignature, hn, ← m.descriptor_type, ← n.descriptor_type, ht]

/-- Methods with different signatures are different methods. -/
theorem Method.nodup_identity {ms : List Method} (h : (ms.map (·.fileSignature)).Nodup) :
    (ms.map (·.identity)).Nodup := by
  refine List.pairwise_map.2 ((List.pairwise_map.1 h).imp ?_)
  exact fun hne heq => hne (Method.fileSignature_of_identity heq)

theorem firstFault_eq_ok_iff {α : Type} {wrap : α → TypeFault} {faults : List (Bool × α)} :
    firstFault wrap faults = .ok () ↔ ∀ f ∈ faults, f.1 = false := by
  induction faults with
  | nil => simp [firstFault]
  | cons f faults ih =>
    obtain ⟨holds, fault⟩ := f
    cases holds <;> simp [firstFault, ih]

namespace TypeDecl

/-- The method has no fault of its own in the type. -/
structure IsFaultless (t : TypeDecl) (m : Method) : Prop where
  name : m.isOrdinary = true → isIdentifier m.name = true
  faults : ∀ f ∈ t.methodFaults m, f.1 = false

/-- **Methods pass their check** exactly if no name with a descriptor comes twice or was seen
before, and none of them has a fault of its own. -/
theorem checkMethods_eq_ok_iff {t : TypeDecl} : {ms : List Method} → {seen : List String} →
    (t.checkMethods seen ms = .ok () ↔
      (ms.map fun m => m.name ++ m.descriptor).Nodup ∧
        (∀ m ∈ ms, m.name ++ m.descriptor ∉ seen) ∧ ∀ m ∈ ms, t.IsFaultless m)
  | [], _ => by simp [checkMethods]
  | m :: ms, seen => by
    have hname : firstFault (.method t.name m) [(m.isOrdinary && !isIdentifier m.name, .name)] =
        .ok () ↔ (m.isOrdinary = true → isIdentifier m.name = true) := by
      rw [firstFault_eq_ok_iff]
      simp
    constructor
    · intro h
      obtain ⟨_, hn, h⟩ := ok_of_bind h
      split at h
      · cases h
      rename_i hm
      obtain ⟨_, hf, h⟩ := ok_of_bind h
      obtain ⟨hnodup, hseen, hall⟩ := checkMethods_eq_ok_iff.1 h
      refine ⟨List.nodup_cons.2 ⟨?_, hnodup⟩, List.forall_mem_cons.2 ⟨hm, fun n hn hin =>
        hseen n hn (List.mem_cons_of_mem _ hin)⟩,
        List.forall_mem_cons.2 ⟨⟨hname.1 hn, firstFault_eq_ok_iff.1 hf⟩, hall⟩⟩
      rw [List.mem_map]
      rintro ⟨n, hn, heq⟩
      exact hseen n hn (heq ▸ List.mem_cons_self)
    · rintro ⟨hnodup, hseen, hall⟩
      rw [List.forall_mem_cons] at hseen hall
      obtain ⟨hnew, hnodup⟩ := List.nodup_cons.1 hnodup
      have hrest : t.checkMethods ((m.name ++ m.descriptor) :: seen) ms = .ok () := by
        refine checkMethods_eq_ok_iff.2 ⟨hnodup, fun n hn hin => ?_, hall.2⟩
        rcases List.mem_cons.1 hin with heq | hin
        · exact hnew (List.mem_map.2 ⟨n, hn, heq⟩)
        · exact hseen.2 n hn hin
      rw [checkMethods, hname.2 hall.1.name]
      simp only [bind, Except.bind, hseen.1, if_false,
        firstFault_eq_ok_iff.2 hall.1.faults]
      exact hrest

variable {t : TypeDecl} {p : Pool}

theorem check_eq_ok_iff : t.check p = .ok () ↔ t.checkHeader p = .ok () ∧
    t.checkFields [] t.fields = .ok () ∧ t.checkMethods [] t.methods = .ok () := by
  constructor
  · intro h
    obtain ⟨_, hheader, h⟩ := ok_of_bind h
    obtain ⟨_, hfields, h⟩ := ok_of_bind h
    exact ⟨hheader, hfields, h⟩
  · rintro ⟨hheader, hfields, hmethods⟩
    rw [check, hheader]
    exact (congrArg (· >>= fun _ => _) hfields).trans hmethods

/-- **An accepted type declares no name with a descriptor twice.** -/
theorem signatures_nodup (h : t.check p = .ok ()) : (t.methods.map (·.fileSignature)).Nodup := by
  have hn := (checkMethods_eq_ok_iff.1 (check_eq_ok_iff.1 h).2.2).1
  refine List.Nodup.of_map (fun s => s.1 ++ s.2) ?_
  simpa [List.map_map, Function.comp_def, Method.fileSignature] using hn

/-- **An accepted type declares no method twice.** -/
theorem identities_nodup (h : t.check p = .ok ()) : (t.methods.map (·.identity)).Nodup :=
  Method.nodup_identity (signatures_nodup h)

theorem eq_of_identity_eq (h : t.check p = .ok ()) {m n : Method} (hm : m ∈ t.methods)
    (hn : n ∈ t.methods) (heq : m.identity = n.identity) : m = n :=
  List.inj_on_of_nodup_map (identities_nodup h) hm hn heq

end TypeDecl

theorem Draft.validate_eq_ok_iff {d : Draft} {p : Pool} {t : TypeDecl} :
    d.validate p = .ok t ↔ d.decl.check p = .ok () ∧ d.decl = t := by
  rw [Draft.validate]
  cases d.decl.check p <;> simp

theorem Draft.check_of_validate {d : Draft} {p : Pool} {t : TypeDecl}
    (h : d.validate p = .ok t) : d.decl.check p = .ok () :=
  (validate_eq_ok_iff.1 h).1

end ClassForge
