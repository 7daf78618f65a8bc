import ClassForge.FieldLocator

/-!
# The nearest field

A locator goes through levels, and the first level with a candidate decides. A candidate is a field
that is asked for and that the accessor may use, so the decision is in the way a hierarchy splits:
levels without a candidate, the one that decides, and levels that are never looked at
(`FieldLocator.find?_eq_some_iff`). The level that decides has to have a single candidate, and a
field that is declared twice is two of them.

Nothing is assumed of the hierarchy or of the fields in it. A type may declare fields of one name
and fields of other owners, and whether the accessor may use a field is asked of the accessor's own
hierarchy.

## Main definitions

* `Field.Answers` — the field is asked for, by name and perhaps by type
* `FieldLocator.lookUp?` — the field found for a name and perhaps a type

## Main results

* `FieldLocator.find?_eq_some_iff` — which level decides, and on what
* `FieldLocator.nearest_field_is_found` — what is found in a hierarchy
-/

namespace ClassForge

/-- The field has the name, and the type up to erasure if one is given. -/
def Field.Answers (f : Field) (name : String) (type? : Option TypeRef) : Prop :=
  f.name = name ∧ ∀ t ∈ type?, f.type.erasure = t.erasure

instance (f : Field) (name : String) (type? : Option TypeRef) : Decidable (f.Answers name type?) :=
  inferInstanceAs (Decidable (_ ∧ _))

/-- The type with the fields that code in `accessor` may use. -/
def TypeDecl.withVisibleFields (t accessor : TypeDecl) (p : Pool) : TypeDecl :=
  { t with fields := t.fields.filter (·.isVisibleTo accessor p) }

namespace FieldLocator

/-! ### The list that decides -/

section Decide

variable {α : Type} {x : α} {before after : List (List α)}

theorem decide?_of_nil {levels : List (List α)} (h : ∀ l ∈ before, l = []) :
    decide? (before ++ levels) = decide? levels := by
  induction before with
  | nil => rfl
  | cons l before ih =>
    obtain ⟨rfl, hbefore⟩ := List.forall_mem_cons.1 h
    exact ih hbefore

theorem decide?_eq_some_iff {levels : List (List α)} :
    decide? levels = some x ↔
      ∃ before after, levels = before ++ [x] :: after ∧ ∀ l ∈ before, l = [] := by
  constructor
  · intro h
    induction levels with
    | nil => cases h
    | cons l levels ih =>
      match l, h with
      | [], h =>
        obtain ⟨before, after, rfl, hbefore⟩ := ih h
        exact ⟨[] :: before, after, rfl, List.forall_mem_cons.2 ⟨rfl, hbefore⟩⟩
      | [y], h =>
        obtain rfl := Option.some.inj h
        exact ⟨[], levels, rfl, nofun⟩
  · rintro ⟨before, after, rfl, hbefore⟩
    rw [decide?_of_nil hbefore]
    rfl

/-- What comes behind a list with elements has no part in the decision. -/
theorem decide?_append_cons {l : List α} (hl : l ≠ []) (before after after' : List (List α)) :
    decide? (before ++ l :: after) = decide? (before ++ l :: after') := by
  induction before with
  | nil =>
    match l, hl with
    | [_], _ => rfl
    | _ :: _ :: _, _ => rfl
  | cons k before ih =>
    match k with
    | [] => exact ih
    | [_] => rfl
    | _ :: _ :: _ => rfl

end Decide

/-! ### The level that decides -/

variable {p : Pool} {l : FieldLocator} {wanted : Field → Bool} {level : TypeDecl} {f : Field}

theorem candidates_eq_nil_iff : l.candidates p wanted level = [] ↔
    ∀ g ∈ level.fields, wanted g = true → g.isVisibleTo l.accessor p = false := by
  simp [candidates, List.filter_eq_nil_iff]

theorem candidates_eq_singleton_iff : l.candidates p wanted level = [f] ↔
    ∃ fs gs, level.fields = fs ++ f :: gs ∧ wanted f = true ∧
      f.isVisibleTo l.accessor p = true ∧
        ∀ g ∈ fs ++ gs, wanted g = true → g.isVisibleTo l.accessor p = false := by
  simp only [candidates, List.filter_eq_cons_iff, List.filter_eq_nil_iff, List.forall_mem_append,
    Bool.and_eq_true, not_and, Bool.not_eq_true]
  constructor
  · rintro ⟨fs, gs, hfields, hfs, ⟨hwanted, hvisible⟩, hgs⟩
    exact ⟨fs, gs, hfields, hwanted, hvisible, hfs, hgs⟩
  · rintro ⟨fs, gs, hfields, hwanted, hvisible, hfs, hgs⟩
    exact ⟨fs, gs, hfields, hfs, ⟨hwanted, hvisible⟩, hgs⟩

/-- **The first level with a candidate decides**, if it has no second one. -/
theorem find?_eq_some_iff : l.find? p wanted = some f ↔
    ∃ before level after, l.levels = before ++ level :: after ∧
      (∀ u ∈ before, l.candidates p wanted u = []) ∧ l.candidates p wanted level = [f] := by
  rw [find?, decide?_eq_some_iff]
  constructor
  · rintro ⟨before', after', hlevels, hbefore⟩
    obtain ⟨before, rest, hsplit, rfl, hrest⟩ := List.map_eq_append_iff.1 hlevels
    obtain ⟨level, after, rfl, hlevel, -⟩ := List.map_eq_cons_iff.1 hrest
    exact ⟨before, level, after, hsplit, List.forall_mem_map.1 hbefore, hlevel⟩
  · rintro ⟨before, level, after, hlevels, hbefore, hlevel⟩
    refine ⟨before.map (l.candidates p wanted), after.map (l.candidates p wanted), ?_, ?_⟩
    · rw [hlevels, List.map_append, List.map_cons, hlevel]
    · exact List.forall_mem_map.2 hbefore

theorem find?_append_cons {accessor : TypeDecl} {before after after' : List TypeDecl}
    (hlevel : ∃ g ∈ level.fields, wanted g = true ∧ g.isVisibleTo accessor p = true) :
    find? ⟨before ++ level :: after, accessor⟩ p wanted =
      find? ⟨before ++ level :: after', accessor⟩ p wanted := by
  obtain ⟨g, hg, hwanted, hvisible⟩ := hlevel
  simp only [find?, List.map_append, List.map_cons]
  refine decide?_append_cons (fun hnone => ?_) _ _ _
  exact absurd hvisible (by simp [candidates_eq_nil_iff.1 hnone g hg hwanted])

/-- Of several candidates none is picked. -/
theorem find?_eq_none_of_two {before after : List TypeDecl}
    (hlevels : l.levels = before ++ level :: after)
    (hbefore : ∀ u ∈ before, l.candidates p wanted u = [])
    (hlevel : 2 ≤ (l.candidates p wanted level).length) : l.find? p wanted = none := by
  rw [find?, hlevels, List.map_append, decide?_of_nil (List.forall_mem_map.2 hbefore),
    List.map_cons]
  match l.candidates p wanted level, hlevel with
  | _ :: _ :: _, _ => rfl

/-- Fields that the accessor may not use might as well not be declared. -/
theorem find?_withVisibleFields (levels : List TypeDecl) (accessor : TypeDecl) :
    find? ⟨levels.map (·.withVisibleFields accessor p), accessor⟩ p wanted =
      find? ⟨levels, accessor⟩ p wanted := by
  simp only [find?, List.map_map]
  congr 2
  funext u
  simp [candidates, TypeDecl.withVisibleFields]

/-! ### Names and types -/

/-- The field of a name, and of an erased type if one is given. -/
def lookUp? (l : FieldLocator) (p : Pool) (name : String) : Option TypeRef → Option Field
  | none => l.locate? p name
  | some t => l.locateTyped? p name t

theorem lookUp?_eq_find? (l : FieldLocator) (p : Pool) (name : String) (type? : Option TypeRef) :
    l.lookUp? p name type? = l.find? p fun f => decide (f.Answers name type?) := by
  cases type? <;> simp [lookUp?, locate?, locateTyped?, Field.Answers, Bool.decide_and]

/-- **The nearest field is found.** The hierarchy splits into types that declare no field that is
asked for and may be used, a type that declares a single one, and types that are not looked at; and
without such a split nothing is found. So what may not be used neither matches nor hides anything,
what comes behind the type that decides makes no difference, and of two fields none is picked. -/
theorem nearest_field_is_found (p : Pool) (t accessor : TypeDecl) (name : String)
    (type? : Option TypeRef) :
    (∀ f, (inHierarchy p t accessor).lookUp? p name type? = some f ↔
      ∃ before level after, p.hierarchy t = before ++ level :: after ∧
        (∀ u ∈ before, ∀ g ∈ u.fields,
          g.Answers name type? → g.isVisibleTo accessor p = false) ∧
        ∃ fs gs, level.fields = fs ++ f :: gs ∧
          f.Answers name type? ∧ f.isVisibleTo accessor p = true ∧
          ∀ g ∈ fs ++ gs, g.Answers name type? → g.isVisibleTo accessor p = false) ∧
      lookUp? ⟨(p.hierarchy t).map (·.withVisibleFields accessor p), accessor⟩ p name type? =
        (inHierarchy p t accessor).lookUp? p name type? ∧
      (∀ before level after behind, p.hierarchy t = before ++ level :: after →
        (∃ g ∈ level.fields, g.Answers name type? ∧ g.isVisibleTo accessor p = true) →
        lookUp? ⟨before ++ level :: behind, accessor⟩ p name type? =
          (inHierarchy p t accessor).lookUp? p name type?) ∧
      ∀ before level after, p.hierarchy t = before ++ level :: after →
        (∀ u ∈ before, ∀ g ∈ u.fields,
          g.Answers name type? → g.isVisibleTo accessor p = false) →
        2 ≤ (level.fields.filter fun g =>
          g.Answers name type? && g.isVisibleTo accessor p).length →
        (inHierarchy p t accessor).lookUp? p name type? = none := by
  simp only [lookUp?_eq_find?]
  refine ⟨fun f => ?_, find?_withVisibleFields _ _, ?_, ?_⟩
  · simp only [find?_eq_some_iff, candidates_eq_nil_iff, candidates_eq_singleton_iff,
      decide_eq_true_eq]
    rfl
  · intro before level after behind hsplit hlevel
    rw [inHierarchy, hsplit]
    exact find?_append_cons (by simpa only [decide_eq_true_eq] using hlevel)
  · intro before level after hsplit hbefore htwo
    refine find?_eq_none_of_two hsplit (fun u hu => ?_) htwo
    rw [candidates_eq_nil_iff]
    exact fun g hg hwanted => hbefore u hu g hg (of_decide_eq_true hwanted)

end FieldLocator

end ClassForge
