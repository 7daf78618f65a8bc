import ClassForge.Proofs.HelperBodies

/-!
# Integers that methods return

A method of type `byte`, `short` or `char` returns an integer of 32 bits, and its caller receives
the low bits of it. A constant is asked for its kind before it is returned, so that any integer may
be returned from any of the four types that take integers, whether the type has that integer or not.
The caller receives what the constant stands for exactly if the type has it.

The types differ in the lowest integer and in the number of bits only, and narrowing is one
operation for all of them: of the integers with the same low bits, it takes the one in range.

## Main definitions

* `IntRange`, `TypeRef.intRange?` — the integers that a variable of a type holds
* `Code.delivered?` — the integer that a caller receives
* `Implementation.ReturnsInt` — an integer constant is what the method is there to return

## Main results

* `Implementation.emits_iff_of_returnsInt` — when there is code, and which
* `Implementation.integers_are_delivered_in_range` — which integers reach the caller
-/

namespace ClassForge

/-! ### Ranges of integers -/

/-- The integers from the lowest on that so many low bits tell apart. -/
structure IntRange where
  low : Int
  bits : Nat
deriving DecidableEq

namespace IntRange

def byte : IntRange := ⟨-2 ^ 7, 8⟩

def short : IntRange := ⟨-2 ^ 15, 16⟩

def char : IntRange := ⟨0, 16⟩

def int : IntRange := ⟨-2 ^ 31, 32⟩

/-- The integer is in range. -/
def Has (r : IntRange) (n : Int) : Prop := r.low ≤ n ∧ n < r.low + 2 ^ r.bits

instance (r : IntRange) (n : Int) : Decidable (r.Has n) := inferInstanceAs (Decidable (_ ∧ _))

/-- The integer in range with the same low bits. -/
def narrow (r : IntRange) (n : Int) : Int := r.low + (n - r.low) % 2 ^ r.bits

theorem has_narrow (r : IntRange) (n : Int) : r.Has (r.narrow n) := by
  have hpos : (0 : Int) < 2 ^ r.bits := Int.pow_pos (by decide)
  have hlow := Int.emod_nonneg (n - r.low) hpos.ne'
  have hhigh := Int.emod_lt_of_pos (n - r.low) hpos
  rw [Has, narrow]
  omega

/-- **Narrowing keeps exactly what is in range.** -/
theorem narrow_eq_self_iff {r : IntRange} {n : Int} : r.narrow n = n ↔ r.Has n := by
  constructor
  · intro h
    exact h ▸ r.has_narrow n
  · rintro ⟨hlow, hhigh⟩
    have hmod : (n - r.low) % 2 ^ r.bits = n - r.low := Int.emod_eq_of_lt (by omega) (by omega)
    rw [narrow, hmod]
    omega

/-- Narrowing is conversion to integers of fewer bits, which for `char` have no sign. -/
theorem narrow_eq_conversion (n : Int32) :
    byte.narrow n.toInt = n.toInt8.toInt ∧ short.narrow n.toInt = n.toInt16.toInt ∧
      char.narrow n.toInt = n.toUInt32.toUInt16.toNat ∧ int.narrow n.toInt = n.toInt := by
  have hunsigned : n.toInt = Int.bmod n.toUInt32.toNat (2 ^ 32) :=
    BitVec.toInt_eq_toNat_bmod n.toBitVec
  have hint : int.Has n.toInt := ⟨n.le_toInt, n.toInt_lt⟩
  refine ⟨?_, ?_, ?_, narrow_eq_self_iff.2 hint⟩
  · show -2 ^ 7 + (n.toInt - -2 ^ 7) % 2 ^ 8 = n.toInt8.toInt
    rw [Int32.toInt_toInt8, Int.bmod_def]
    omega
  · show -2 ^ 15 + (n.toInt - -2 ^ 15) % 2 ^ 16 = n.toInt16.toInt
    rw [Int32.toInt_toInt16, Int.bmod_def]
    omega
  · show 0 + (n.toInt - 0) % 2 ^ 16 = n.toUInt32.toUInt16.toNat
    rw [UInt32.toNat_toUInt16, hunsigned, Int.bmod_def]
    omega

end IntRange

namespace TypeRef

/-- The integers that a variable of the type holds, if it is one for integers of at most 32 bits. -/
def intRange? (t : TypeRef) : Option IntRange :=
  match t.erasure with
  | .primitive .byte => some .byte
  | .primitive .short => some .short
  | .primitive .char => some .char
  | .primitive .int => some .int
  | _ => none

theorem isSome_intRange?_iff {t : TypeRef} : t.intRange?.isSome = true ↔
    t.erasure ∈ [.primitive .byte, .primitive .short, .primitive .char, .primitive .int] := by
  rw [intRange?]
  generalize t.erasure = erased
  cases erased with
  | primitive kind => cases kind <;> simp
  | _ => simp

theorem intRange?_attach (owner : String) :
    (t : TypeRef) → (t.attach owner).intRange? = t.intRange?
  | typeVar _ bound => by
    have ih := intRange?_attach owner bound
    rwa [attach]
  | void | primitive _ | named _ | parameterized _ _ | array _ | target => by
    simp [attach, intRange?]

end TypeRef

/-- An integer constant fits any variable for integers, whichever integer it is. -/
theorem Constant.fits_int_iff {p : Pool} {t : TypeRef} {n : Int32} :
    (Constant.int n).fits p t = true ↔ t.intRange?.isSome = true := by
  rw [fits, TypeRef.intRange?]
  generalize t.erasure = erased
  cases erased with
  | primitive kind => cases kind <;> simp [fitsErased]
  | _ => simp [fitsErased]

/-! ### Methods that return integers -/

/-- The integer that the caller of a method with this code receives. -/
def Code.delivered? (m : Method) (code : Code) : Option Int :=
  match Datum.run (m.checker 0) [] code.instructions with
  | some (.returned (some (.int n))) => m.returnType.intRange?.map (·.narrow n.toInt)
  | _ => none

namespace Implementation

variable {t : Target} {i : Implementation} {m : Method} {n : Int32}

/-- The integer is what the method is there to return: any method for a fixed value, and for a
helper the helper itself. -/
inductive ReturnsInt (t : Target) (n : Int32) : Implementation → Method → Prop
  | fixed (m : Method) : ReturnsInt t n (.fixed (.int n)) m
  | helper (name : String) (returnType : TypeRef) :
    ReturnsInt t n (.callHelper name returnType (.int n))
      ((helperToken name returnType).attach t.type.name)

/-- An integer is pushed and returned. -/
theorem returnInt_iff {p : Pool} {type : TypeRef} {is : List Instruction} :
    ((Constant.int n).fits p type = true ∧
      (Fragment.join [(Constant.int n).push, .ret type]).isLegal = true ∧
      (Fragment.join [(Constant.int n).push, .ret type]).instructions = is) ↔
      type.intRange?.isSome = true ∧ [.pushInt n, .ret (some .int)] = is := by
  rw [← Constant.fits_int_iff (p := p) (n := n)]
  refine and_congr_right fun hfits => ?_
  have hkind : ValueKind.of type = some .int := Constant.kind_of_fits hfits
  simp [Fragment.ret, Fragment.isLegal, Fragment.instructions, Constant.push, Fragment.pushInt,
    hkind]

/-- **The code that returns an integer** is the same for all types that take integers, and there is
none for other types. -/
theorem emits_iff_of_returnsInt (h : i.ReturnsInt t n m) {is : List Instruction} :
    i.Emits t m true is ↔
      m.returnType.intRange?.isSome = true ∧ [.pushInt n, .ret (some .int)] = is := by
  cases h with
  | fixed m =>
    rw [← returnInt_iff (p := t.pool)]
    simp only [Emits, fragment, fixedFragment, bind_eq_ok_iff, refuseIf_eq_ok_iff]
    simp [pure, Except.pure, and_assoc]
  | helper name returnType =>
    have htype : ((helperToken name returnType).attach t.type.name).returnType.intRange? =
        returnType.intRange? := TypeRef.intRange?_attach t.type.name returnType
    rw [htype, ← returnInt_iff (p := t.pool)]
    simp only [Emits, fragment, helperFragment, bind_eq_ok_iff, refuseIf_eq_ok_iff]
    simp [pure, Except.pure, and_assoc]

/-- **Which integers reach the caller.** Take an integer constant that a method is there to return,
as its fixed value or as the value of a helper in that helper. There is code exactly if the erased
return type is `byte`, `short`, `char` or `int`, and that does not depend on the integer. The caller
receives the integer of the type that has the same low bits, and so it receives the constant exactly
if the type has it. -/
theorem integers_are_delivered_in_range (h : i.ReturnsInt t n m) :
    ((∃ code, (Appender.implementation i t).apply m = .ok code) ↔
      m.returnType.erasure ∈
        [.primitive .byte, .primitive .short, .primitive .char, .primitive .int]) ∧
    ∀ code, (Appender.implementation i t).apply m = .ok code →
      code.delivered? m = m.returnType.intRange?.map (·.narrow n.toInt) ∧
      (code.delivered? m = some n.toInt ↔ ∃ r ∈ m.returnType.intRange?, r.Has n.toInt) := by
  constructor
  · have hcode := apply_implementation_iff (t := t) (m := m) (i := i) (P := fun _ => True)
    simp only [and_true] at hcode
    rw [hcode, ← TypeRef.isSome_intRange?_iff]
    simp only [emits_iff_of_returnsInt h, exists_and_left, exists_eq', and_true]
  · intro code hcode
    obtain ⟨_, hemits, rfl⟩ := apply_implementation_iff.1 ⟨code, hcode, rfl⟩
    obtain ⟨hsome, hinstructions⟩ := (emits_iff_of_returnsInt h).1 hemits
    have hdelivered : code.delivered? m = m.returnType.intRange?.map (·.narrow n.toInt) := by
      rw [Code.delivered?, ← hinstructions]
      rfl
    obtain ⟨r, hr⟩ := Option.isSome_iff_exists.1 hsome
    refine ⟨hdelivered, ?_⟩
    rw [hdelivered, hr]
    simp [IntRange.narrow_eq_self_iff]

/-- The limits of `char`, of which the lower is delivered by a helper. -/
theorem integers_are_delivered_in_range_char :
    let type : TypeDecl := { name := "a.Sub", modifiers := .of [.accPublic] }
    let t : Target := .make type (GraphScope.hierarchy.compile .empty type) .empty
    let letter : Method :=
      { owner := "a.Sub", name := "letter", modifiers := .of [.accPublic]
        returnType := .primitive .char }
    let helper := (helperToken "first" (.primitive .char)).attach "a.Sub"
    ReturnsInt t 65535 (.fixed (.int 65535)) letter ∧
    ReturnsInt t 0 (.callHelper "first" (.primitive .char) (.int 0)) helper ∧
    (∃ code, (Appender.implementation (.fixed (.int 65535)) t).apply letter = .ok code ∧
      code.delivered? letter = some 65535) ∧
    ∃ code, (Appender.implementation (.callHelper "first" (.primitive .char) (.int 0)) t).apply
        helper = .ok code ∧
      code.delivered? helper = some 0 := by
  intro type t letter helper
  have hletter : ReturnsInt t 65535 (.fixed (.int 65535)) letter := .fixed letter
  have hhelper : ReturnsInt t 0 (.callHelper "first" (.primitive .char) (.int 0)) helper :=
    .helper "first" (.primitive .char)
  obtain ⟨hfixed, hin⟩ := integers_are_delivered_in_range hletter
  obtain ⟨hcalled, hin'⟩ := integers_are_delivered_in_range hhelper
  obtain ⟨code, hcode⟩ := hfixed.2 (by decide)
  obtain ⟨code', hcode'⟩ := hcalled.2 (by decide)
  exact ⟨hletter, hhelper, ⟨code, hcode, (hin code hcode).2.2 ⟨.char, rfl, by decide⟩⟩,
    code', hcode', (hin' code' hcode').2.2 ⟨.char, rfl, by decide⟩⟩

/-- A fixed value and the value of a helper that are no bytes are returned from methods of type
`byte` all the same, and other bytes reach the caller. -/
theorem integers_out_of_range_are_narrowed :
    let type : TypeDecl := { name := "a.Sub", modifiers := .of [.accPublic] }
    let t : Target := .make type (GraphScope.hierarchy.compile .empty type) .empty
    let size : Method :=
      { owner := "a.Sub", name := "size", modifiers := .of [.accPublic]
        returnType := .primitive .byte }
    let helper := (helperToken "least" (.primitive .byte)).attach "a.Sub"
    (∃ code, (Appender.implementation (.fixed (.int 300)) t).apply size = .ok code ∧
      ¬ IntRange.byte.Has 300 ∧ code.delivered? size = some 44) ∧
    ∃ code, (Appender.implementation (.callHelper "least" (.primitive .byte) (.int (-129))) t).apply
        helper = .ok code ∧
      ¬ IntRange.byte.Has (-129) ∧ code.delivered? helper = some 127 := by
  intro type t size helper
  have hfixed : ((Appender.implementation (.fixed (.int 300)) t).apply size).toOption.any
      (fun code => decide (code.delivered? size = some 44)) = true := by
    decide +kernel
  have hcalled : ((Appender.implementation (.callHelper "least" (.primitive .byte)
      (.int (-129))) t).apply helper).toOption.any
        (fun code => decide (code.delivered? helper = some 127)) = true := by
    decide +kernel
  obtain ⟨code, hcode, hdelivered⟩ := exists_ok_of_any hfixed
  obtain ⟨code', hcode', hdelivered'⟩ := exists_ok_of_any hcalled
  exact ⟨⟨code, hcode, by decide, of_decide_eq_true hdelivered⟩,
    code', hcode', by decide, of_decide_eq_true hdelivered'⟩

end Implementation

end ClassForge
