import ClassForge.BuiltType
import ClassForge.Proofs.Outcomes
import Mathlib.Data.List.Nodup

/-!
# Constants that rules give to fields

A rule may give a constant to the fields that it matches, and the virtual machine takes one only for
a static field of the constant's own type. What a build does with the rules is therefore told twice
here. `FieldRule.Misfit` says which fields stand in the way: those whose latest matching rule has a
constant that the field cannot start with once the rule has changed its flags. And
`FieldRule.written` says how a field is written if nothing stands in the way.

Preparing a type is a loop that may stop, and writing it looks every field up in what the loop has
collected. The loop stops exactly at the first fault (`FieldRegistry.prepare_eq`), and without one
the lookup finds for each field the plan that was made of it, since fields of different names have
different identities (`FieldRegistry.record_of_mem`).

A rule sets flags before its constant is looked at. So it may make a field static in order to give
it a constant, and one that makes the field an instance field cannot give it any.

## Main definitions

* `AnnotationValue.Suits` — which values are of an erased type
* `FieldRule.latest?`, `FieldRule.Misfit`, `FieldRule.written` — what rules mean for a field

## Main results

* `AnnotationValue.fits_iff_suits`, `Annotation.merge_eq` — what is tested and what is merged
* `FieldRegistry.prepare_eq` — preparing a type stops at the first fault, or else plans every field
* `FieldRegistry.constants_are_legal` — when preparing fails, and what is written otherwise
-/

namespace ClassForge

/-! ### Values of a type -/

namespace AnnotationValue

/-- The value is one of the erased type. Nothing is converted, and an array is one if its members
are of the erased component. -/
@[mk_iff]
inductive Suits : AnnotationValue → TypeRef → Prop
  | boolean (b : Bool) : Suits (boolean b) (.primitive .boolean)
  | int (n : Int32) : Suits (int n) (.primitive .int)
  | long (n : Int64) : Suits (long n) (.primitive .long)
  | char (c : Char) : Suits (char c) (.primitive .char)
  | text (s : String) : Suits (text s) (.named BinaryName.string)
  | constant (type name : String) : Suits (constant type name) (.named type)
  | classOf (t : TypeRef) : Suits (classOf t) (.named BinaryName.classLiteral)
  | array {values : List AnnotationValue} {component : TypeRef}
    (members : ∀ v ∈ values, Suits v component.erasure) : Suits (array values) (.array component)
  | nested (type : String) (elements : List (String × AnnotationValue)) :
    Suits (nested type elements) (.named type)

mutual

theorem fits_iff_suits : (v : AnnotationValue) → (t : TypeRef) →
    (v.fits t = true ↔ v.Suits t.erasure)
  | boolean _, t | int _, t | long _, t | char _, t | text _, t | constant _ _, t | classOf _, t
  | nested _ _, t => by
    rw [fits, suits_iff]
    simp [eq_comm]
  | array values, t => by
    rw [fits, suits_iff]
    cases ht : t.erasure with
    | array component => simp [allFit_iff_suits values]
    | _ => simp

theorem allFit_iff_suits : (vs : List AnnotationValue) → (t : TypeRef) →
    (allFit vs t = true ↔ ∀ v ∈ vs, v.Suits t.erasure)
  | [], t => by simp [allFit]
  | v :: vs, t => by
    rw [allFit, Bool.and_eq_true, List.forall_mem_cons, fits_iff_suits v, allFit_iff_suits vs]

end

end AnnotationValue

/-! ### Annotations of further types -/

namespace Annotation

/-- Of the added annotations those of types that are not there yet, and of several of one type the
first. -/
def missing (existing added : List Annotation) : List Annotation :=
  (added.filter fun a => a.type ∉ existing.map (·.type)).eraseDupsBy (·.type == ·.type)

theorem missing_cons_of_mem {existing : List Annotation} {a : Annotation}
    (h : a.type ∈ existing.map (·.type)) (added : List Annotation) :
    missing existing (a :: added) = missing existing added := by
  rw [missing, List.filter_cons_of_neg (by simpa using h), missing]

/-- An annotation that is taken counts as there for those after it. -/
theorem missing_cons_of_not_mem {existing : List Annotation} {a : Annotation}
    (h : a.type ∉ existing.map (·.type)) (added : List Annotation) :
    missing existing (a :: added) = a :: missing (existing ++ [a]) added := by
  rw [missing, List.filter_cons_of_pos (by simpa using h), List.eraseDupsBy_cons,
    List.filter_filter, missing]
  congr 3
  funext b
  rw [Bool.eq_iff_iff]
  simp [and_comm]

theorem merge_eq (existing added : List Annotation) :
    merge existing added = existing ++ missing existing added := by
  induction added generalizing existing with
  | nil => simp [merge, missing]
  | cons a added ih =>
    have taken : existing.any (·.type = a.type) = true ↔ a.type ∈ existing.map (·.type) := by
      simp
    rw [merge, List.foldl_cons]
    split
    · rename_i h
      rw [missing_cons_of_mem (taken.1 h)]
      exact ih existing
    · rename_i h
      rw [missing_cons_of_not_mem (mt taken.2 h)]
      exact (ih (existing ++ [a])).trans (List.append_cons existing a _).symm

end Annotation

/-! ### What rules mean for a field -/

/-- The field may start with the value. -/
structure Field.CanStartWith (f : Field) (value : AnnotationValue) : Prop where
  isStatic : f.isStatic = true
  suits : value.Suits f.type.erasure

theorem Field.canStartWith_iff {f : Field} {value : AnnotationValue} :
    f.CanStartWith value ↔ f.isStatic = true ∧ value.fits f.type = true := by
  rw [value.fits_iff_suits]
  exact ⟨fun h => ⟨h.isStatic, h.suits⟩, fun h => ⟨h.1, h.2⟩⟩

instance (f : Field) (value : AnnotationValue) : Decidable (f.CanStartWith value) :=
  decidable_of_iff _ Field.canStartWith_iff.symm

/-- A constant of the field, if it has one, is of its type, and the field is static. -/
def WrittenField.HasLegalConstant (w : WrittenField) : Prop :=
  ∀ value ∈ w.constant, w.modifiers.has .accStatic = true ∧ value.Suits w.type.erasure

namespace FieldRule

/-- Of the rules, in the order in which they were added, the last that matches the field. -/
def latest? (rules : List FieldRule) (f : Field) : Option FieldRule :=
  (rules.filter (·.matcher.accepts f)).getLast?

/-- The latest rule for the field has a constant that the field cannot start with, once the rule has
changed its flags. -/
def Misfit (rules : List FieldRule) (f : Field) : Prop :=
  ∃ rule ∈ latest? rules f, ∃ value ∈ rule.constant, ¬ (f.change rule.changes).CanStartWith value

instance (rules : List FieldRule) (f : Field) : Decidable (Misfit rules f) :=
  inferInstanceAs (Decidable (∃ rule ∈ latest? rules f, ∃ value ∈ rule.constant, ¬ _))

/-- The field with the changed flags, further annotations and the constant of its latest rule, or as
it is declared if it has none. -/
def written (rules : List FieldRule) (f : Field) : WrittenField :=
  match latest? rules f with
  | none => .of f
  | some rule =>
    { name := f.name
      modifiers := rule.changes.foldl ModifierChange.apply f.modifiers
      type := f.type
      annotations := f.annotations ++ Annotation.missing f.annotations rule.annotations
      constant := rule.constant }

/-- The plan for a field that the rule matches and does not refuse. -/
def plan (rule : FieldRule) (f : Field) : FieldRecord :=
  { field := f.change rule.changes, annotations := rule.annotations, constant := rule.constant
    isImplicit := false }

theorem isSome_constantFault?_iff {rule : FieldRule} {f : Field} :
    (rule.constantFault? f).isSome = true ↔ ∃ value ∈ rule.constant, ¬ f.CanStartWith value := by
  cases hc : rule.constant with
  | none => simp [constantFault?, hc]
  | some value =>
    cases hs : f.isStatic <;> cases hf : value.fits f.type <;>
      simp [constantFault?, hc, Field.canStartWith_iff, hs, hf]

/-- What is written by the plan of the latest rule. -/
theorem written_of_latest? {rules : List FieldRule} {rule : FieldRule} {f : Field}
    (h : latest? rules f = some rule) : written rules f = (rule.plan f).apply := by
  simp [written, h, plan, FieldRecord.apply, WrittenField.of, Field.change, Annotation.merge_eq]

theorem written_of_none {rules : List FieldRule} {f : Field} (h : latest? rules f = none) :
    written rules f = FieldRecord.apply { field := f } := by
  simp [written, h, FieldRecord.apply, WrittenField.of, Annotation.merge]

theorem hasLegalConstant_written {rules : List FieldRule} {f : Field} (hf : ¬ Misfit rules f) :
    (written rules f).HasLegalConstant := by
  intro value hv
  cases h : latest? rules f with
  | none =>
    rw [written_of_none h] at hv
    cases hv
  | some rule =>
    rw [written_of_latest? h] at hv ⊢
    have legal : (f.change rule.changes).CanStartWith value := by
      by_contra hn
      exact hf ⟨rule, h, value, hv, hn⟩
    exact ⟨legal.isStatic, legal.suits⟩

end FieldRule

theorem Draft.fields_of_write {d : Draft} {release : Release} {rs : FieldRecords}
    {plan : Method → MethodRecord} {methods : List Method} {auxiliary : List BuiltType}
    {activation : Activation} {b : BuiltType}
    (h : d.write release rs plan methods auxiliary activation = .ok b) :
    b.classFile.fields = d.decl.fields.map fun f => (rs.record f).apply := by
  obtain ⟨written, -, h⟩ := ok_of_bind h
  obtain ⟨initializer, -, h⟩ := ok_of_bind h
  obtain rfl := Except.ok.inj h
  rfl

/-! ### Preparing the fields of a type -/

namespace FieldRegistry

variable {r : FieldRegistry} {rs : FieldRecords} {f : Field} {fields : List Field}

theorem rules_foldl_prepend (rules : List FieldRule) (r : FieldRegistry) :
    (rules.foldl prepend r).rules = rules.reverse ++ r.rules := by
  induction rules generalizing r with
  | nil => rfl
  | cons rule rules ih => rw [List.foldl_cons, ih, prepend, List.reverse_cons, List.append_cons]

/-- Of rules that were added one after the other, the latest that matches is tried first. -/
theorem ruleFor?_foldl_prepend (rules : List FieldRule) (f : Field) :
    (rules.foldl prepend {}).ruleFor? f = FieldRule.latest? rules f := by
  rw [ruleFor?, rules_foldl_prepend, List.append_nil, FieldRule.latest?, List.getLast?_filter]

/-- Why the first rule that matches the field refuses it. -/
def fault? (r : FieldRegistry) (f : Field) : Option Refusal :=
  (r.ruleFor? f).bind fun rule => rule.constantFault? (f.change rule.changes)

/-- The plans with that of the first rule that matches the field. -/
def planned (r : FieldRegistry) (rs : FieldRecords) (f : Field) : FieldRecords :=
  match r.ruleFor? f with
  | none => rs
  | some rule => rs.insert f.identity (rule.plan f)

theorem bind_eq (r : FieldRegistry) (rs : FieldRecords) (f : Field) :
    r.bind rs f =
      match r.fault? f with
      | some fault => .error (.refusal fault)
      | none => .ok (r.planned rs f) := by
  cases hr : r.ruleFor? f with
  | none => simp [bind, fault?, planned, hr]
  | some rule =>
    simp only [bind, fault?, planned, hr, FieldRule.record, Option.bind_some]
    cases rule.constantFault? (f.change rule.changes) <;> rfl

theorem foldlM_bind (r : FieldRegistry) (fields : List Field) (rs : FieldRecords) :
    fields.foldlM r.bind rs =
      match fields.findSome? r.fault? with
      | some fault => .error (.refusal fault)
      | none => .ok (fields.foldl r.planned rs) := by
  induction fields generalizing rs with
  | nil => rfl
  | cons f fields ih =>
    rw [List.foldlM_cons, bind_eq, List.findSome?_cons, List.foldl_cons]
    cases r.fault? f with
    | some fault => rfl
    | none => exact ih (r.planned rs f)

/-- Preparing a type is refused for the first field that is at fault, and plans all fields if there
is none. -/
theorem prepare_eq (r : FieldRegistry) (t : TypeDecl) :
    r.prepare t =
      match t.fields.findSome? r.fault? with
      | some fault => .error (.refusal fault)
      | none => .ok (t.fields.foldl r.planned .empty) :=
  foldlM_bind r t.fields .empty

/-! ### Looking a plan up -/

theorem get?_planned (r : FieldRegistry) (rs : FieldRecords) (f : Field) (k : FieldIdentity) :
    (r.planned rs f).get? k =
      if k = f.identity then ((r.ruleFor? f).map (·.plan f)).or (rs.get? k) else rs.get? k := by
  cases hr : r.ruleFor? f <;> simp [planned, hr]

theorem get?_foldl_of_not_mem {k : FieldIdentity} (h : k ∉ fields.map Field.identity) :
    (fields.foldl r.planned rs).get? k = rs.get? k := by
  induction fields generalizing rs with
  | nil => rfl
  | cons f fields ih =>
    rw [List.map_cons, List.mem_cons, not_or] at h
    rw [List.foldl_cons, ih h.2, get?_planned, if_neg h.1]

theorem get?_foldl_of_mem (hnodup : (fields.map Field.identity).Nodup) (hf : f ∈ fields) :
    (fields.foldl r.planned rs).get? f.identity =
      ((r.ruleFor? f).map (·.plan f)).or (rs.get? f.identity) := by
  induction fields generalizing rs with
  | nil => cases hf
  | cons g fields ih =>
    rw [List.map_cons, List.nodup_cons] at hnodup
    rw [List.foldl_cons]
    rcases List.mem_cons.1 hf with rfl | hf
    · -- no later field has the identity, so the plan made here is the one that stays
      rw [get?_foldl_of_not_mem hnodup.1, get?_planned, if_pos rfl]
    · have hne : f.identity ≠ g.identity := fun h => hnodup.1 (h ▸ List.mem_map_of_mem hf)
      rw [ih hnodup.2 hf, get?_planned, if_neg hne]

/-- Each of the fields is written by the plan of its own rule. -/
theorem record_of_mem (hnodup : (fields.map Field.identity).Nodup) (hf : f ∈ fields) :
    FieldRecords.record (fields.foldl r.planned .empty) f =
      match r.ruleFor? f with
      | none => { field := f }
      | some rule => rule.plan f := by
  rw [FieldRecords.record, get?_foldl_of_mem hnodup hf, OrderedMap.get?_empty, Option.or_none]
  cases r.ruleFor? f <;> rfl

/-! ### What is refused and what is written -/

theorem isSome_fault?_iff (rules : List FieldRule) :
    ((rules.foldl prepend {}).fault? f).isSome = true ↔ FieldRule.Misfit rules f := by
  rw [fault?, ruleFor?_foldl_prepend, FieldRule.Misfit]
  cases FieldRule.latest? rules f with
  | none => simp
  | some rule => simp [FieldRule.isSome_constantFault?_iff]

theorem apply_record_of_mem {rules : List FieldRule}
    (hnodup : (fields.map Field.identity).Nodup) (hf : f ∈ fields) :
    (FieldRecords.record (fields.foldl (rules.foldl prepend {}).planned .empty) f).apply =
      FieldRule.written rules f := by
  rw [record_of_mem hnodup hf, ruleFor?_foldl_prepend]
  cases h : FieldRule.latest? rules f with
  | none => exact (FieldRule.written_of_none h).symm
  | some rule => exact (FieldRule.written_of_latest? h).symm

/-- **Only legal constants are written.** Let the declared fields of a type have different names.
Preparing them fails exactly if the latest rule for one of them has a constant that the field, with
its flags changed, cannot start with. Otherwise each field is written as its latest rule says, or as
it is declared if it has none, in whatever class file the plans are used for; and every constant
stands on a static field of its type. -/
theorem constants_are_legal (rules : List FieldRule) (t : TypeDecl)
    (hnames : (t.fields.map (·.name)).Nodup) :
    ((∃ e, (rules.foldl prepend {}).prepare t = .error e) ↔
      ∃ f ∈ t.fields, FieldRule.Misfit rules f) ∧
    ((∀ f ∈ t.fields, ¬ FieldRule.Misfit rules f) →
      ∃ rs, (rules.foldl prepend {}).prepare t = .ok rs ∧
        (∀ f ∈ t.fields, (rs.record f).apply = FieldRule.written rules f ∧
          (FieldRule.written rules f).HasLegalConstant) ∧
        ∀ (d : Draft) (release : Release) (plan : Method → MethodRecord) (methods : List Method)
          (auxiliary : List BuiltType) (activation : Activation) (b : BuiltType), d.decl = t →
            d.write release rs plan methods auxiliary activation = .ok b →
              b.classFile.fields = t.fields.map (FieldRule.written rules)) := by
  have hnodup : (t.fields.map Field.identity).Nodup := by
    refine List.Nodup.of_map FieldIdentity.name ?_
    rwa [List.map_map]
  refine ⟨?_, fun hlegal => ?_⟩
  · rw [prepare_eq]
    simp only [← isSome_fault?_iff rules, ← List.findSome?_isSome_iff]
    cases t.fields.findSome? (rules.foldl prepend {}).fault? <;> simp
  · have hnone : t.fields.findSome? (rules.foldl prepend {}).fault? = none := by
      rw [List.findSome?_eq_none_iff]
      intro f hf
      rw [← Option.not_isSome_iff_eq_none, isSome_fault?_iff]
      exact hlegal f hf
    refine ⟨_, by rw [prepare_eq, hnone], fun f hf => ⟨apply_record_of_mem hnodup hf,
      FieldRule.hasLegalConstant_written (hlegal f hf)⟩, ?_⟩
    rintro d release plan methods auxiliary activation b rfl hwrite
    rw [Draft.fields_of_write hwrite]
    exact List.map_congr_left fun f hf => apply_record_of_mem hnodup hf

/-- One rule gives both fields a text. A later one takes the count over, which it makes static and
gives a number. -/
theorem constants_are_legal_count :
    let title : Field :=
      { owner := "a.Holder", name := "title", modifiers := .of [.accPrivate, .accStatic]
        type := .named BinaryName.string }
    let count : Field :=
      { owner := "a.Holder", name := "count", modifiers := .of [.accPrivate]
        type := .primitive .int }
    let t : TypeDecl :=
      { name := "a.Holder", modifiers := .of [.accPublic], fields := [title, count] }
    let rules : List FieldRule :=
      [{ matcher := .always, constant := some (.text "ten") },
        { matcher := .named "count", constant := some (.int 10)
          changes := [{ set := .of [.accStatic] }] }]
    ∃ rs, (rules.foldl prepend {}).prepare t = .ok rs ∧
      (rs.record title).apply.constant = some (.text "ten") ∧
      (rs.record title).apply.modifiers = .of [.accPrivate, .accStatic] ∧
      (rs.record count).apply.constant = some (.int 10) ∧
      (rs.record count).apply.modifiers = .of [.accPrivate, .accStatic] := by
  intro title count t rules
  have hlegal : ∀ f ∈ t.fields, ¬ FieldRule.Misfit rules f := by decide +kernel
  obtain ⟨rs, hrs, hwritten, -⟩ := (constants_are_legal rules t (by decide)).2 hlegal
  refine ⟨rs, hrs, ?_⟩
  rw [(hwritten title List.mem_cons_self).1,
    (hwritten count (List.mem_cons_of_mem _ List.mem_cons_self)).1]
  decide +kernel

end FieldRegistry

end ClassForge
