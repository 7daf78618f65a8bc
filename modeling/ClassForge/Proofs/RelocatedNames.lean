import ClassForge.Proofs.Acceptance
import ClassForge.Proofs.Relocations

/-!
# Whether moved methods clash

The copies of methods that are moved aside stand in one class file, so no two of them may have one
name with one descriptor. Descriptors stay as they are, but for constructors, which take a
placeholder more and return nothing. What is left is the question whether the new names tell apart
what the old ones did.

A name made of the old one, a word and a fingerprint does. Nothing needs to be known of the
fingerprint but its length: it is the last eight characters of the name (`length_fingerprint`), so
what stands in front of it is determined, and with it the old name. Such a name is never that of a
constructor either, as it has a `$`.

A name made of a word and the old name in upper case does not. Methods whose names differ in the
first letter's case only become one (`RelocationPlan.moved_methods_clash`).

## Main definitions

* `Method.parameterDescriptor` — the part of the descriptor that tells constructors apart
* `RelocationPlan.KeepsApart` — what it takes for moved methods not to clash

## Main results

* `derivedName_inj` — derived names tell apart what the names did that they come from
* `RelocationPlan.moved_signatures_nodup_iff` — when moved methods do not clash
* `RelocationPlan.moved_methods_clash` — a type of which two do
-/

namespace ClassForge

/-! ### Derived names -/

theorem fingerprint.length_byte (b : UInt8) : (byte b).length = 2 := by
  have hb : b.toNat < 16 ^ 2 := b.toNat_lt
  unfold byte Text.hexadecimal
  split
  · rename_i hsmall
    rw [Nat.toDigits_of_lt_base hsmall, String.length_append, String.length_ofList,
      String.length_ofList]
    rfl
  · rename_i hlarge
    rw [String.length_ofList]
    have hbase : 1 < 16 := by decide
    have hle := (Nat.length_toDigits_le_iff hbase Nat.two_pos).2 hb
    have hgt := mt (Nat.length_toDigits_le_iff hbase Nat.one_pos).1 hlarge
    omega

/-- Fingerprints have eight digits. -/
theorem length_fingerprint (parts : List String) : (fingerprint parts).length = 8 := by
  have htake : ∀ s : Sha256.State,
      (s.words.flatMap Sha256.wordBytes).take 4 = Sha256.wordBytes s.a := fun _ => rfl
  rw [fingerprint, Sha256.digest, htake]
  simp [Sha256.wordBytes, String.join_cons, String.length_append, fingerprint.length_byte]

/-- **Derived names tell apart** what the names did that they come from. -/
theorem derivedName_inj {m n purpose : String} {parts parts' : List String}
    (h : derivedName m purpose parts = derivedName n purpose parts') : m = n := by
  have hlength : (fingerprint parts).toList.length = (fingerprint parts').toList.length := by
    rw [String.length_toList, String.length_toList, length_fingerprint, length_fingerprint]
  have hlist := congrArg String.toList h
  simp only [derivedName, String.toList_append] at hlist
  have hname := (List.append_inj' hlist hlength).1
  rw [List.append_left_inj, List.append_left_inj, List.append_left_inj] at hname
  exact String.toList_inj.1 hname

/-- A derived name is not that of a constructor. -/
theorem derivedName_ne_constructorName (name purpose : String) (parts : List String) :
    derivedName name purpose parts ≠ constructorName := by
  intro h
  have hmem : '$' ∈ (derivedName name purpose parts).toList := by
    simp [derivedName, String.toList_append]
  rw [h] at hmem
  exact absurd hmem (by decide)

/-! ### Signatures of moved methods -/

/-- The descriptors of the parameters, one after the other. -/
def Method.parameterDescriptor (m : Method) : String :=
  String.join (m.parameters.map (·.type.descriptor))

theorem Method.descriptor_eq (m : Method) :
    m.descriptor = "(" ++ m.parameterDescriptor ++ ")" ++ m.returnType.descriptor := rfl

namespace RelocationPlan

variable {t : TypeDecl} {suffix : String} {naming : Naming} {m n : Method}

/-- An ordinary method gets another name. -/
theorem fileSignature_move_of_ordinary (hm : m.isConstructor = false) :
    (move t suffix naming m).method.fileSignature = (naming.apply m, m.descriptor) := by
  rw [move, if_neg (Bool.eq_false_iff.1 hm)]
  simp [Relocation.rename, Relocation.method, Method.fileSignature, Method.descriptor,
    Function.comp_def]

/-- A constructor keeps its name and takes a placeholder more. -/
theorem fileSignature_move_of_constructor (hm : m.isConstructor = true) :
    (move t suffix naming m).method.fileSignature = (constructorName,
      "(" ++ (m.parameterDescriptor ++ (placeholderFor t suffix).reference.descriptor) ++ ")" ++
        TypeRef.void.descriptor) := by
  rw [move, if_pos hm]
  simp [Relocation.pad, Relocation.method, Method.fileSignature, Method.descriptor,
    MethodToken.constructor, Method.erasedParameterTypes, Method.parameterDescriptor,
    TypeDecl.reference, Function.comp_def, String.join_append]

/-! ### Clashes -/

/-- The methods `ms` of the type `t` do not clash once they are moved. -/
structure KeepsApart (t : TypeDecl) (suffix : String) (naming : Naming) (ms : List Method) :
    Prop where
  /-- Constructors differ in more than in what they return. -/
  constructors : ∀ m ∈ ms, ∀ n ∈ ms, m.isConstructor = true → n.isConstructor = true →
    m.parameterDescriptor = n.parameterDescriptor → m = n
  /-- Ordinary methods do not differ in the case of the first letter only, if that is lost. -/
  ordinary : ∀ word, naming = .prefixed word → ∀ m ∈ ms, ∀ n ∈ ms,
    m.isConstructor = false → n.isConstructor = false →
      Text.capitalized m.name = Text.capitalized n.name → m.descriptor = n.descriptor → m = n
  /-- No ordinary method takes the place of a constructor. -/
  mixed : ∀ word, naming = .prefixed word → ∀ m ∈ ms, ∀ n ∈ ms,
    m.isConstructor = false → n.isConstructor = true →
      word ++ Text.capitalized m.name = constructorName →
        m.descriptor ≠ (move t suffix naming n).method.descriptor

/-- Moved constructors have one signature if their parameters have one descriptor. -/
theorem fileSignature_move_eq_iff_of_constructors (hm : m.isConstructor = true)
    (hn : n.isConstructor = true) :
    (move t suffix naming m).method.fileSignature = (move t suffix naming n).method.fileSignature ↔
      m.parameterDescriptor = n.parameterDescriptor := by
  rw [fileSignature_move_of_constructor hm, fileSignature_move_of_constructor hn, Prod.mk.injEq,
    and_iff_right rfl, String.append_left_inj, String.append_left_inj, String.append_right_inj,
    String.append_left_inj]

/-- Names with a fingerprint keep ordinary methods apart. -/
theorem fileSignature_eq_of_move_eq {word : String} (hm : m.isConstructor = false)
    (hn : n.isConstructor = false)
    (h : (move t suffix (.suffixed word) m).method.fileSignature =
      (move t suffix (.suffixed word) n).method.fileSignature) :
    m.fileSignature = n.fileSignature := by
  rw [fileSignature_move_of_ordinary hm, fileSignature_move_of_ordinary hn] at h
  obtain ⟨hname, hdescriptor⟩ := Prod.mk.inj h
  exact Prod.ext (derivedName_inj hname) hdescriptor

/-- A word in front keeps ordinary methods apart up to the case of the first letter. -/
theorem fileSignature_move_eq_iff_of_prefixed {word : String} (hm : m.isConstructor = false)
    (hn : n.isConstructor = false) :
    (move t suffix (.prefixed word) m).method.fileSignature =
        (move t suffix (.prefixed word) n).method.fileSignature ↔
      Text.capitalized m.name = Text.capitalized n.name ∧ m.descriptor = n.descriptor := by
  rw [fileSignature_move_of_ordinary hm, fileSignature_move_of_ordinary hn, Prod.mk.injEq,
    Naming.apply, Naming.apply, String.append_right_inj]

/-- An ordinary method does not clash with a constructor. -/
theorem KeepsApart.move_ne {ms : List Method} (h : KeepsApart t suffix naming ms) (hm : m ∈ ms)
    (hn : n ∈ ms) (hordinary : m.isConstructor = false) (hconstructor : n.isConstructor = true) :
    (move t suffix naming m).method.fileSignature ≠
      (move t suffix naming n).method.fileSignature := by
  intro heq
  have hname : (move t suffix naming m).method.name = constructorName := by
    have hfst := congrArg Prod.fst heq
    rwa [fileSignature_move_of_constructor hconstructor] at hfst
  have hdescriptor := congrArg Prod.snd heq
  rw [fileSignature_move_of_ordinary hordinary] at hdescriptor
  rw [move, if_neg (Bool.eq_false_iff.1 hordinary)] at hname
  cases naming with
  | suffixed word => exact derivedName_ne_constructorName _ _ _ hname
  | prefixed word => exact h.mixed word rfl m hm n hn hordinary hconstructor hname hdescriptor

/-- What keeps apart moved methods that had different signatures. -/
theorem KeepsApart.injOn {ms : List Method} (h : KeepsApart t suffix naming ms)
    (hinj : ∀ m ∈ ms, ∀ n ∈ ms, m.fileSignature = n.fileSignature → m = n) :
    ∀ m ∈ ms, ∀ n ∈ ms, (move t suffix naming m).method.fileSignature =
      (move t suffix naming n).method.fileSignature → m = n := by
  intro m hm n hn heq
  cases hmc : m.isConstructor with
  | true =>
    cases hnc : n.isConstructor with
    | true =>
      exact h.constructors m hm n hn hmc hnc
        ((fileSignature_move_eq_iff_of_constructors hmc hnc).1 heq)
    | false => exact absurd heq.symm (h.move_ne hn hm hnc hmc)
  | false =>
    cases hnc : n.isConstructor with
    | true => exact absurd heq (h.move_ne hm hn hmc hnc)
    | false =>
      cases naming with
      | suffixed word => exact hinj m hm n hn (fileSignature_eq_of_move_eq hmc hnc heq)
      | prefixed word =>
        obtain ⟨hname, hdescriptor⟩ := (fileSignature_move_eq_iff_of_prefixed hmc hnc).1 heq
        exact h.ordinary word rfl m hm n hn hmc hnc hname hdescriptor

/-- Methods that do not clash are kept apart. -/
theorem keepsApart_of_injOn {ms : List Method}
    (h : ∀ m ∈ ms, ∀ n ∈ ms, (move t suffix naming m).method.fileSignature =
      (move t suffix naming n).method.fileSignature → m = n) : KeepsApart t suffix naming ms where
  constructors m hm n hn hmc hnc heq :=
    h m hm n hn ((fileSignature_move_eq_iff_of_constructors hmc hnc).2 heq)
  ordinary word hword m hm n hn hmc hnc hname hdescriptor := by
    subst hword
    exact h m hm n hn ((fileSignature_move_eq_iff_of_prefixed hmc hnc).2 ⟨hname, hdescriptor⟩)
  mixed word hword m hm n hn hmc hnc hname hdescriptor := by
    subst hword
    have hsignature : (move t suffix (.prefixed word) m).method.fileSignature =
        (move t suffix (.prefixed word) n).method.fileSignature := by
      rw [fileSignature_move_of_ordinary hmc, Naming.apply, hname, hdescriptor]
      refine Prod.ext ?_ rfl
      rw [fileSignature_move_of_constructor hnc]
    rw [h m hm n hn hsignature, hnc] at hmc
    cases hmc

/-- **When moved methods do not clash.** The methods of a type that have different names or
descriptors still do so once they are moved exactly if they are kept apart. With a fingerprint in
the name they always are, if constructors return nothing. -/
theorem moved_signatures_nodup_iff (h : (t.methods.map (·.fileSignature)).Nodup)
    (tokens : List MethodToken) (suffix : String) (naming : Naming) :
    (((t.chosen tokens).map fun m =>
        ((of t tokens suffix naming).find m).method.fileSignature).Nodup ↔
      KeepsApart t suffix naming (t.chosen tokens)) ∧
    ∀ word, naming = .suffixed word →
      (∀ m ∈ t.chosen tokens, m.isConstructor = true → m.returnType = .void) →
        KeepsApart t suffix naming (t.chosen tokens) := by
  have hsublist : (t.chosen tokens).Sublist t.methods := List.filter_sublist
  have hinj : ∀ m ∈ t.chosen tokens, ∀ n ∈ t.chosen tokens,
      m.fileSignature = n.fileSignature → m = n := fun m hm n hn =>
    List.inj_on_of_nodup_map h (hsublist.mem hm) (hsublist.mem hn)
  have hdistinct := Method.nodup_identity h
  have hmoved : ((t.chosen tokens).map fun m =>
      ((of t tokens suffix naming).find m).method.fileSignature) =
        (t.chosen tokens).map fun m => (move t suffix naming m).method.fileSignature :=
    List.map_congr_left fun m hm => by rw [find_of_mem hdistinct hm rfl]
  constructor
  · rw [hmoved, List.nodup_map_iff_inj_on ((List.Nodup.of_map _ h).sublist hsublist)]
    exact ⟨keepsApart_of_injOn, fun hkeeps => hkeeps.injOn hinj⟩
  · rintro word rfl hvoid
    refine ⟨fun m hm n hn hmc hnc hparameters => hinj m hm n hn ?_, nofun, nofun⟩
    have hname : m.name = n.name := (of_decide_eq_true hmc).trans (of_decide_eq_true hnc).symm
    rw [Method.fileSignature, Method.fileSignature, hname, Method.descriptor_eq,
      Method.descriptor_eq, hparameters, hvoid m hm hmc, hvoid n hn hnc]

/-- With a fingerprint in the name, methods that differ in the case of the first letter do not
clash, nor do two constructors. -/
theorem moved_signatures_nodup_suffixed :
    let method (name : String) : Method := { owner := "a.Box", name, modifiers := .of [.accPublic] }
    let constructor (ts : List TypeRef) : Method :=
      (MethodToken.constructor (.of [.accPublic]) ts).attach "a.Box"
    let t : TypeDecl :=
      { name := "a.Box", modifiers := .of [.accPublic]
        methods := [constructor [], constructor [.primitive .int], method "put", method "Put"] }
    let tokens := t.methods.map (·.detach)
    (t.methods.map (·.fileSignature)).Nodup ∧ t.chosen tokens = t.methods ∧
      (t.methods.map fun m => ((of t tokens "original" .default).find m).method.fileSignature).Nodup
    := by
  intro method constructor t tokens
  have hnodup : (t.methods.map (·.fileSignature)).Nodup := by decide +kernel
  have hall : t.chosen tokens = t.methods := by decide +kernel
  have hvoid : ∀ m ∈ t.chosen tokens, m.isConstructor = true → m.returnType = .void := by
    decide +kernel
  obtain ⟨hiff, hkeeps⟩ := moved_signatures_nodup_iff hnodup tokens "original" .default
  have hmoved := hiff.2 (hkeeps "original" rfl hvoid)
  rw [hall] at hmoved
  exact ⟨hnodup, hall, hmoved⟩

/-- With a word in front, two methods that differ in the case of the first letter become one. -/
theorem moved_methods_clash :
    let method (name : String) : Method := { owner := "a.Box", name, modifiers := .of [.accPublic] }
    let t : TypeDecl :=
      { name := "a.Box", modifiers := .of [.accPublic], methods := [method "put", method "Put"] }
    let tokens := t.methods.map (·.detach)
    (t.methods.map (·.fileSignature)).Nodup ∧ t.chosen tokens = t.methods ∧
      ¬ ((t.chosen tokens).map fun m =>
        ((of t tokens "original" (.prefixed "original")).find m).method.fileSignature).Nodup := by
  decide +kernel

end RelocationPlan

end ClassForge
