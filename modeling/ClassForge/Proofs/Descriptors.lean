import ClassForge.Proofs.Acceptance
import ClassForge.Proofs.TypeNames

/-!
# Descriptors read back

The descriptor of a method writes its erased types one after the other, without anything between
them. It can still be read in one way only: a letter tells the kind of type that follows, the name
of a class ends with the first `;`, and the parameters end with the parenthesis, with which no type
starts. So the descriptor fixes the erased types, as long as the names of classes leave the
punctuation alone. Names that are read from a text do: neither `;` nor `/` may stand in them, and
the slashes of the internal form are the dots of the name.

This ties two keys together. Validation tells the methods of a type apart by a text, the name with
the descriptor behind it; everything later tells them apart by identity. The two agree.

## Main definitions

* `TypeRef.Legible`, `Method.Legible` — the names that a descriptor shows are read from texts
* `TypeRef.readDescriptor` — the type that a text starts with

## Main results

* `TypeRef.readDescriptor_append` — a descriptor is read back, whatever stands behind it
* `Method.descriptor_eq_iff` — descriptors are equal exactly if the erased types are
* `TypeDecl.checkMethods_eq_ok_iff_identity` — what validation asks of names and descriptors is that
  identities are different
* `descriptors_identify_signatures` — descriptors, erased types and accepted drafts
-/

namespace ClassForge

/-! ### Names -/

/-- A word ends with the first of the characters that it does not have. -/
theorem takeWhile_ne_append_cons {word : List Char} {c : Char} (h : c ∉ word) (cs : List Char) :
    (word ++ c :: cs).takeWhile (· ≠ c) = word := by
  have hword : ∀ x ∈ word, decide (x ≠ c) = true := fun x hx => decide_eq_true fun e => h (e ▸ hx)
  rw [List.takeWhile_append_of_pos hword]
  simp

theorem dropWhile_ne_append_cons {word : List Char} {c : Char} (h : c ∉ word) (cs : List Char) :
    (word ++ c :: cs).dropWhile (· ≠ c) = c :: cs := by
  have hword : ∀ x ∈ word, decide (x ≠ c) = true := fun x hx => decide_eq_true fun e => h (e ▸ hx)
  rw [List.dropWhile_append_of_pos hword]
  simp

/-- A name that a class can have where a text is read as a type. -/
def BinaryName.IsRead (name : String) : Prop :=
  ∃ text scope, TypeRef.parse text scope = .ok (.named name)

/-- The name that has the given internal form, if none of its own characters is a slash. -/
def BinaryName.external (cs : List Char) : String :=
  String.ofList (cs.map fun c => if c = '/' then '.' else c)

namespace BinaryName

variable {name : String}

theorem IsRead.notMem (h : IsRead name) {c : Char} (hc : TypeRef.isNameChar c = false) :
    c ∉ name.toList := by
  obtain ⟨text, scope, h⟩ := h
  have hname := TypeRef.wellFormed_named.1 (TypeRef.wellFormed_of_parse h)
  intro hmem
  simp [hname.chars c hmem] at hc

theorem external_internal (h : '/' ∉ name.toList) : external (internal name).toList = name := by
  have hback : (name.toList.map fun c => if c = '.' then '/' else c).map
      (fun c => if c = '/' then '.' else c) = name.toList.map id := by
    rw [List.map_map]
    refine List.map_congr_left fun c hc => ?_
    have hslash : c ≠ '/' := fun e => h (e ▸ hc)
    by_cases hdot : c = '.' <;> simp [hdot, hslash]
  rw [external, internal, String.toList_ofList, hback, List.map_id, String.ofList_toList]

theorem semicolon_notMem_internal (h : ';' ∉ name.toList) : ';' ∉ (internal name).toList := by
  rw [internal, String.toList_ofList, List.mem_map]
  rintro ⟨c, hc, heq⟩
  by_cases hdot : c = '.'
  · simp [hdot] at heq
  · rw [if_neg hdot] at heq
    exact h (heq ▸ hc)

end BinaryName

/-! ### Types -/

/-- The type with the given letter in a descriptor. -/
def Primitive.ofLetter? (c : Char) : Option Primitive := all.find? (·.letter = c)

namespace TypeRef

/-- The reference is no placeholder once it is erased, and it erases to a class whose name is read,
if it erases to a class. Only what a descriptor shows is looked at. -/
def Legible : TypeRef → Prop
  | void | primitive _ => True
  | named name => BinaryName.IsRead name
  | parameterized raw _ => BinaryName.IsRead raw
  | typeVar _ bound => bound.Legible
  | array component => component.Legible
  | target => False

theorem legible_erasure : {t : TypeRef} → t.Legible → t.erasure.Legible
  | void, h | primitive _, h | named _, h | parameterized _ _, h => h
  | typeVar _ bound, h => legible_erasure (t := bound) h
  | array component, h => legible_erasure (t := component) h

/-- What is read from a text is legible, if the bounds of the type variables in scope are. -/
theorem legible_of_wellFormed {scope : List TypeVariable} (hscope : ∀ v ∈ scope, v.bound.Legible) :
    {t : TypeRef} → t.WellFormed scope → t.Legible
  | void, _ | primitive _, _ => trivial
  | named _, h => ⟨_, scope, parse_display h⟩
  | parameterized _ _, h =>
    ⟨_, scope, parse_display (wellFormed_named.2 (wellFormed_parameterized.1 h).1)⟩
  | typeVar _ _, h => by
    obtain ⟨v, hv, rfl⟩ := (wellFormed_typeVar.1 h).first
    exact legible_erasure (hscope v (List.mem_of_find?_eq_some hv))
  | array component, h => legible_of_wellFormed (t := component) hscope (wellFormed_array.1 h).2
  | target, h => absurd h not_wellFormed_target

/-- The erased type that a text starts with, and the rest of the text. -/
def readDescriptor : List Char → Option (TypeRef × List Char)
  | [] => none
  | 'V' :: cs => some (void, cs)
  | 'L' :: cs =>
    some (named (BinaryName.external (cs.takeWhile (· ≠ ';'))), (cs.dropWhile (· ≠ ';')).drop 1)
  | '[' :: cs => (readDescriptor cs).map fun read => (array read.1, read.2)
  | c :: cs => (Primitive.ofLetter? c).map fun p => (primitive p, cs)

theorem readDescriptor_letter (p : Primitive) (cs : List Char) :
    readDescriptor (p.letter :: cs) = some (primitive p, cs) := by
  cases p <;> rfl

theorem readDescriptor_class {name : String} (h : BinaryName.IsRead name) (cs : List Char) :
    readDescriptor (("L" ++ BinaryName.internal name ++ ";").toList ++ cs) =
      some (named name, cs) := by
  have hends := BinaryName.semicolon_notMem_internal (h.notMem (by decide))
  have htext : ("L" ++ BinaryName.internal name ++ ";").toList ++ cs =
      'L' :: ((BinaryName.internal name).toList ++ ';' :: cs) := by
    simp [String.toList_append]
  rw [htext, readDescriptor, takeWhile_ne_append_cons hends, dropWhile_ne_append_cons hends,
    BinaryName.external_internal (h.notMem (by decide))]
  rfl

/-- **A descriptor is read back**, whatever stands behind it. What is read is the erased type. -/
theorem readDescriptor_append : {t : TypeRef} → t.Legible → (cs : List Char) →
    readDescriptor (t.descriptor.toList ++ cs) = some (t.erasure, cs)
  | void, _, cs => rfl
  | primitive p, _, cs => by
    simpa [descriptor] using readDescriptor_letter p cs
  | named name, h, cs => readDescriptor_class h cs
  | parameterized raw _, h, cs => readDescriptor_class h cs
  | typeVar _ bound, h, cs => readDescriptor_append (t := bound) h cs
  | array component, h, cs => by
    have ih := readDescriptor_append (t := component) h cs
    simp [descriptor, readDescriptor, ih]

/-- No type starts with the parenthesis that ends the parameters. -/
theorem readDescriptor_close (cs : List Char) : readDescriptor (')' :: cs) = none := rfl

/-- The descriptors of parameters are read back up to the parenthesis behind them. -/
theorem erasure_eq_of_descriptors : {ts us : List TypeRef} → (∀ t ∈ ts, t.Legible) →
    (∀ u ∈ us, u.Legible) → {cs ds : List Char} →
    ts.flatMap (·.descriptor.toList) ++ ')' :: cs = us.flatMap (·.descriptor.toList) ++ ')' :: ds →
    ts.map erasure = us.map erasure ∧ cs = ds
  | [], [], _, _, _, _, h => ⟨rfl, (List.cons.inj h).2⟩
  -- Where one list ends first, a type of the other would start with the parenthesis.
  | [], u :: us, _, hus, cs, ds, h => by
    rw [List.flatMap_cons, List.append_assoc] at h
    have hread := readDescriptor_append (hus u List.mem_cons_self)
      (us.flatMap (·.descriptor.toList) ++ ')' :: ds)
    rw [← h, List.flatMap_nil, List.nil_append, readDescriptor_close] at hread
    cases hread
  | t :: ts, [], hts, _, cs, ds, h => by
    rw [List.flatMap_cons, List.append_assoc] at h
    have hread := readDescriptor_append (hts t List.mem_cons_self)
      (ts.flatMap (·.descriptor.toList) ++ ')' :: cs)
    rw [h, List.flatMap_nil, List.nil_append, readDescriptor_close] at hread
    cases hread
  | t :: ts, u :: us, hts, hus, cs, ds, h => by
    rw [List.forall_mem_cons] at hts hus
    rw [List.flatMap_cons, List.flatMap_cons, List.append_assoc, List.append_assoc] at h
    have hread := readDescriptor_append hts.1 (ts.flatMap (·.descriptor.toList) ++ ')' :: cs)
    rw [h, readDescriptor_append hus.1] at hread
    obtain ⟨hhead, hrest⟩ := Prod.mk.inj (Option.some.inj hread)
    obtain ⟨htail, hbehind⟩ := erasure_eq_of_descriptors hts.2 hus.2 hrest.symm
    exact ⟨by rw [List.map_cons, List.map_cons, hhead, htail], hbehind⟩

end TypeRef

/-! ### Methods -/

namespace Method

variable {m n : Method}

/-- All names that the descriptor of the method shows are read from texts. -/
structure Legible (m : Method) : Prop where
  returnType : m.returnType.Legible
  parameterTypes : ∀ t ∈ m.parameterTypes, t.Legible

theorem toList_descriptor (m : Method) : m.descriptor.toList =
    '(' :: (m.parameterTypes.flatMap (·.descriptor.toList) ++ ')' :: m.returnType.descriptor.toList)
    := by
  simp [descriptor, MethodToken.parameterTypes, String.toList_append, String.toList_join,
    List.flatMap_map]

/-- **A descriptor fixes the erased types.** -/
theorem descriptor_eq_iff (hm : m.Legible) (hn : n.Legible) :
    m.descriptor = n.descriptor ↔ m.type = n.type := by
  constructor
  · intro h
    have htext := congrArg String.toList h
    rw [toList_descriptor, toList_descriptor, List.cons.injEq] at htext
    obtain ⟨hparameters, hreturn⟩ :=
      TypeRef.erasure_eq_of_descriptors hm.parameterTypes hn.parameterTypes htext.2
    have hread := TypeRef.readDescriptor_append hm.returnType []
    rw [hreturn, TypeRef.readDescriptor_append hn.returnType] at hread
    rw [map_erasure_parameterTypes, map_erasure_parameterTypes] at hparameters
    rw [type, type, hparameters, (Prod.mk.inj (Option.some.inj hread)).1]
  · intro h
    rw [← descriptor_type, ← descriptor_type, h]

/-- Neither a slash nor the placeholder can be told from what else is written the same way. -/
example :
    (TypeRef.named "a/Box").descriptor = (TypeRef.named "a.Box").descriptor ∧
      TypeRef.target.descriptor = (TypeRef.named "Target").descriptor := by
  decide

end Method

/-! ### Accepted methods -/

theorem openParenthesis_notMem_of_isIdentifier {s : String} (h : isIdentifier s = true) :
    '(' ∉ s.toList := by
  unfold isIdentifier at h
  split at h
  · simp_all
  · rename_i c cs hs
    simp only [Bool.and_eq_true, Bool.or_eq_true, List.all_eq_true] at h
    intro hmem
    rw [hs] at hmem
    rcases List.mem_cons.1 hmem with rfl | hmem
    · exact absurd h.1.1 (by decide)
    · exact absurd (h.1.2 _ hmem) (by decide)

namespace TypeDecl

variable {t : TypeDecl} {m n : Method}

theorem IsFaultless.openParenthesis_notMem (h : t.IsFaultless m) : '(' ∉ m.name.toList := by
  by_cases hc : m.name = constructorName
  · rw [hc]
    decide
  by_cases hi : m.name = typeInitializerName
  · rw [hi]
    decide
  refine openParenthesis_notMem_of_isIdentifier (h.name ?_)
  simp [Method.isOrdinary, Method.isConstructor, Method.isTypeInitializer, hc, hi]

/-- The text that validation goes by stands for the identity. -/
theorem name_append_descriptor_eq_iff (hm : t.IsFaultless m) (hn : t.IsFaultless n)
    (hml : m.Legible) (hnl : n.Legible) (howner : m.owner = n.owner) :
    m.name ++ m.descriptor = n.name ++ n.descriptor ↔ m.identity = n.identity := by
  constructor
  · intro h
    have htext := congrArg String.toList h
    rw [String.toList_append, String.toList_append, m.toList_descriptor,
      n.toList_descriptor] at htext
    have hname := congrArg (List.takeWhile (· ≠ '(')) htext
    rw [takeWhile_ne_append_cons hm.openParenthesis_notMem,
      takeWhile_ne_append_cons hn.openParenthesis_notMem, String.toList_inj] at hname
    rw [hname, String.append_right_inj] at h
    have htype := (Method.descriptor_eq_iff hml hnl).1 h
    rw [Method.identity, Method.identity, Method.signature, Method.signature, hname, htype, howner]
  · intro h
    have hfile := Prod.mk.inj (Method.fileSignature_of_identity h)
    rw [hfile.1, hfile.2]

/-- **Methods pass their check** exactly if their identities are different and none of them has a
fault of its own, as long as their descriptors are legible. -/
theorem checkMethods_eq_ok_iff_identity
    (h : ∀ m ∈ t.methods, m.Legible ∧ m.owner = t.name) :
    t.checkMethods [] t.methods = .ok () ↔
      (t.methods.map (·.identity)).Nodup ∧ ∀ m ∈ t.methods, t.IsFaultless m := by
  rw [checkMethods_eq_ok_iff]
  simp only [List.not_mem_nil, not_false_eq_true, implies_true, true_and]
  refine and_congr_left fun hfaultless => ?_
  rw [List.Nodup, List.Nodup, List.pairwise_map, List.pairwise_map]
  refine List.Pairwise.iff_of_mem fun {m n} hm hn => not_congr ?_
  exact name_append_descriptor_eq_iff (hfaultless m hm) (hfaultless n hn) (h m hm).1 (h n hn).1
    ((h m hm).2.trans (h n hn).2.symm)

end TypeDecl

/-- **Descriptors identify erased signatures.** Two methods whose class names are read from texts,
and that have no placeholder, have one descriptor exactly if their erased parameter types and their
erased return types are the same. So the methods of an accepted draft are different under identity,
and of methods in that form which name the type as their owner, validation asks no more than this
and that none has a fault of its own. -/
theorem descriptors_identify_signatures :
    (∀ m n : Method, m.Legible → n.Legible →
      (m.descriptor = n.descriptor ↔
        m.erasedParameterTypes = n.erasedParameterTypes ∧
          m.returnType.erasure = n.returnType.erasure)) ∧
    (∀ (d : Draft) (p : Pool) (t : TypeDecl), d.validate p = .ok t →
      (t.methods.map (·.identity)).Nodup) ∧
    (∀ (d : Draft) (p : Pool), (∀ m ∈ d.decl.methods, m.Legible ∧ m.owner = d.decl.name) →
      (d.validate p = .ok d.decl ↔
        d.decl.checkHeader p = .ok () ∧ d.decl.checkFields [] d.decl.fields = .ok () ∧
          (d.decl.methods.map (·.identity)).Nodup ∧
            ∀ m ∈ d.decl.methods, d.decl.IsFaultless m)) := by
  refine ⟨fun m n hm hn => ?_, fun d p t h => ?_, fun d p h => ?_⟩
  · rw [Method.descriptor_eq_iff hm hn, Method.type, Method.type, MethodType.mk.injEq, and_comm]
  · obtain ⟨hcheck, rfl⟩ := Draft.validate_eq_ok_iff.1 h
    exact TypeDecl.identities_nodup hcheck
  · rw [Draft.validate_eq_ok_iff, TypeDecl.check_eq_ok_iff,
      TypeDecl.checkMethods_eq_ok_iff_identity h]
    simp only [and_true]

/-- A method with a type variable and one that takes the bound of the variable have one descriptor,
and a draft that declares both is refused. One that takes an array instead is accepted beside the
first. -/
theorem descriptors_identify_signatures_generic :
    let put : Method :=
      { owner := "a.Box", name := "put", modifiers := .of [.accPublic],
        parameters :=
          [{ type := .typeVar "T" (.parameterized "java.util.List" [.named "a.Box"]) }] }
    let raw : Method := { put with parameters := [{ type := .named "java.util.List" }] }
    let many : Method := { put with parameters := [{ type := .array (.named "java.util.List") }] }
    let box (methods : List Method) : Draft :=
      { decl := { name := "a.Box", modifiers := .of [.accPublic], methods } }
    (put.Legible ∧ raw.Legible ∧ put.descriptor = raw.descriptor) ∧
      ((box [put, many]).validate .empty = .ok (box [put, many]).decl ∧
        ([put, many].map (·.identity)).Nodup) ∧
      ((∀ m ∈ [put, raw], m.Legible ∧ m.owner = "a.Box") ∧
        (box [put, raw]).validate .empty ≠ .ok (box [put, raw]).decl) := by
  intro put raw many box
  have hread : BinaryName.IsRead "java.util.List" := ⟨"java.util.List", [], by decide +kernel⟩
  have hput : put.Legible := ⟨trivial, List.forall_mem_singleton.2 hread⟩
  have hraw : raw.Legible := ⟨trivial, List.forall_mem_singleton.2 hread⟩
  have hform : ∀ m ∈ [put, raw], m.Legible ∧ m.owner = "a.Box" :=
    List.forall_mem_cons.2 ⟨⟨hput, rfl⟩, List.forall_mem_singleton.2 ⟨hraw, rfl⟩⟩
  have haccepted : (box [put, many]).validate .empty = .ok (box [put, many]).decl := by
    decide +kernel
  refine ⟨⟨hput, hraw, (descriptors_identify_signatures.1 put raw hput hraw).2 (by decide)⟩,
    ⟨haccepted, descriptors_identify_signatures.2.1 _ _ _ haccepted⟩, hform, fun hok => ?_⟩
  have hrefused := descriptors_identify_signatures.2.2 (box [put, raw]) .empty hform
  exact absurd (hrefused.1 hok).2.2.1 (by decide)

end ClassForge
