import ClassForge.Proofs.GeneratedCode
import ClassForge.Proofs.Growth

/-!
# Implementations as sequences of steps

Sequences may be nested to any depth, but nothing depends on how. What an implementation does is
what its steps do, one after the other: the code of the implementation is the code of each step in
turn, and the methods that it adds to a type are those that the steps ask for. Of the steps only the
last returns.

A sequence without parts is a step of its own. It has no code for any method, and so neither has an
implementation that contains one.

## Main definitions

* `Implementation.steps` — the parts that are no sequences, in order
* `Implementation.Emits` — an implementation has some code for a method
* `Implementation.helper?` — the helper that a step asks for

## Main results

* `Implementation.steps_eq` — only the last step returns
* `Implementation.emits_iff_emitAll` — the code is that of the steps
* `Implementation.methods_prepare` — the helpers are those of the steps
-/

namespace ClassForge

namespace Implementation

mutual

/-- The parts that are no sequences, in order, each with whether it is to return. -/
def steps (terminal : Bool) : Implementation → List (Implementation × Bool)
  | sequence parts => stepsAll terminal parts
  | i => [(i, terminal)]

/-- The steps of several implementations in order, of which the last is to return if `terminal`. -/
def stepsAll (terminal : Bool) : List Implementation → List (Implementation × Bool)
  | [] => [(sequence [], terminal)]
  | [i] => i.steps terminal
  | i :: is => i.steps false ++ stepsAll terminal is

end

mutual

/-- **Only the last step returns.** -/
theorem steps_eq (terminal : Bool) : (i : Implementation) →
    ∃ (first : List Implementation) (last : Implementation),
      i.steps terminal = first.map (·, false) ++ [(last, terminal)]
  | sequence parts => stepsAll_eq terminal parts
  | stub | fixed _ | callSuper | throwNew _ _ | accessField _ _ | callHelper _ _ _ =>
    ⟨[], _, rfl⟩

theorem stepsAll_eq (terminal : Bool) : (is : List Implementation) →
    ∃ (first : List Implementation) (last : Implementation),
      stepsAll terminal is = first.map (·, false) ++ [(last, terminal)]
  | [] => ⟨[], _, rfl⟩
  | [i] => steps_eq terminal i
  | i :: j :: is => by
    obtain ⟨first, last, hi⟩ := steps_eq false i
    obtain ⟨first', last', his⟩ := stepsAll_eq terminal (j :: is)
    exact ⟨first ++ last :: first', last', by simp [stepsAll, hi, his]⟩

end

theorem steps_of_append {i : Implementation} {terminal : Bool} {s : Implementation × Bool}
    {before after : List (Implementation × Bool)} (h : i.steps terminal = before ++ s :: after) :
    ∀ x ∈ before, x.2 = false := by
  obtain ⟨first, last, hi⟩ := i.steps_eq terminal
  have hbefore : before <+: i.steps terminal := ⟨_, h.symm⟩
  obtain ⟨rest, hrest⟩ : before <+: first.map (·, false) := by
    refine List.prefix_of_prefix_length_le hbefore ⟨_, hi.symm⟩ ?_
    have hlength := congrArg List.length (h.symm.trans hi)
    simp only [List.length_append, List.length_cons, List.length_nil] at hlength
    omega
  intro x hx
  obtain ⟨j, -, rfl⟩ := List.mem_map.1 (hrest ▸ List.mem_append_left rest hx)
  rfl

mutual

/-- A sequence that is a step has no parts. -/
theorem eq_nil_of_mem_steps {terminal : Bool} {s : Implementation × Bool} :
    (i : Implementation) → s ∈ i.steps terminal → ∀ parts, s.1 = sequence parts → parts = []
  | sequence parts, hs => eq_nil_of_mem_stepsAll parts hs
  | stub, hs | fixed _, hs | callSuper, hs | throwNew _ _, hs | accessField _ _, hs
  | callHelper _ _ _, hs => by
    rw [List.mem_singleton.1 hs]
    nofun

theorem eq_nil_of_mem_stepsAll {terminal : Bool} {s : Implementation × Bool} :
    (is : List Implementation) → s ∈ stepsAll terminal is →
      ∀ parts, s.1 = sequence parts → parts = []
  | [], hs => by
    rw [List.mem_singleton.1 hs]
    intro parts h
    exact (sequence.inj h).symm
  | [i], hs => eq_nil_of_mem_steps i hs
  | i :: j :: js, hs => by
    rcases List.mem_append.1 hs with hs | hs
    · exact eq_nil_of_mem_steps i hs
    · exact eq_nil_of_mem_stepsAll (j :: js) hs

end

/-! ### Code -/

variable {t : Target} {m : Method} {terminal : Bool}

/-- The code of the implementation for the method consists of the instructions. -/
def Emits (t : Target) (m : Method) (terminal : Bool) (i : Implementation)
    (is : List Instruction) : Prop :=
  ∃ f, i.fragment t m terminal = .ok f ∧ f.isLegal = true ∧ f.instructions = is

/-- The blocks are the code of the steps. -/
abbrev EmitAll (t : Target) (m : Method) :
    List (Implementation × Bool) → List (List Instruction) → Prop :=
  List.Forall₂ fun s block => s.1.Emits t m s.2 block

theorem emitAll_singleton_iff {i : Implementation} {is : List Instruction} :
    (∃ blocks, EmitAll t m [(i, terminal)] blocks ∧ is = blocks.flatten) ↔
      i.Emits t m terminal is := by
  constructor
  · rintro ⟨_, h, rfl⟩
    cases h with
    | cons h hnil =>
      cases hnil
      simpa using h
  · exact fun h => ⟨[is], .cons h .nil, by simp⟩

theorem emitAll_append_iff {steps steps' : List (Implementation × Bool)}
    {blocks : List (List Instruction)} :
    EmitAll t m (steps ++ steps') blocks ↔
      ∃ first rest, EmitAll t m steps first ∧ EmitAll t m steps' rest ∧ blocks = first ++ rest := by
  constructor
  · intro h
    refine ⟨blocks.take steps.length, blocks.drop steps.length, ?_, ?_,
      (List.take_append_drop ..).symm⟩
    · simpa using List.forall₂_take steps.length h
    · simpa using List.forall₂_drop steps.length h
  · rintro ⟨first, rest, hfirst, hrest, rfl⟩
    exact List.rel_append hfirst hrest

theorem not_emits_sequence_nil (is : List Instruction) :
    ¬ (sequence []).Emits t m terminal is := by
  rintro ⟨f, h, -⟩
  rw [fragment] at h
  obtain ⟨_, h, -⟩ := ok_of_bind h
  cases h

/-- The fragments of a list of parts are legal and consist of the instructions. -/
def EmitsParts (t : Target) (m : Method) (terminal : Bool) (parts : List Implementation)
    (is : List Instruction) : Prop :=
  ∃ fs, fragments t m terminal parts = .ok fs ∧ fs.all (·.isLegal) = true ∧
    fs.flatMap (·.instructions) = is

theorem emits_sequence_iff {parts : List Implementation} (hne : parts ≠ [])
    {is : List Instruction} :
    (sequence parts).Emits t m terminal is ↔ EmitsParts t m terminal parts is := by
  have hempty : refuseIf parts.isEmpty (.emptySequence m) = .ok () := by
    simp [refuseIf, hne]
  constructor
  · rintro ⟨f, h, hlegal, hinstructions⟩
    rw [fragment, hempty] at h
    obtain ⟨_, -, h⟩ := ok_of_bind h
    obtain ⟨fs, hfs, h⟩ := ok_of_bind h
    obtain rfl := Except.ok.inj h
    exact ⟨fs, hfs, by simpa using hlegal, by simpa using hinstructions⟩
  · rintro ⟨fs, hfs, hlegal, hinstructions⟩
    refine ⟨.join fs, ?_, by simpa using hlegal, by simpa using hinstructions⟩
    rw [fragment, hempty]
    simp only [bind, Except.bind, hfs]
    rfl

theorem emitsParts_cons_iff {i j : Implementation} {js : List Implementation}
    {is : List Instruction} :
    EmitsParts t m terminal (i :: j :: js) is ↔
      ∃ first rest, i.Emits t m false first ∧ EmitsParts t m terminal (j :: js) rest ∧
        is = first ++ rest := by
  constructor
  · rintro ⟨fs, h, hlegal, rfl⟩
    rw [fragments] at h
    · obtain ⟨f, hf, h⟩ := ok_of_bind h
      obtain ⟨rest, hrest, h⟩ := ok_of_bind h
      obtain rfl := Except.ok.inj h
      rw [List.all_cons, Bool.and_eq_true] at hlegal
      exact ⟨_, _, ⟨f, hf, hlegal.1, rfl⟩, ⟨rest, hrest, hlegal.2, rfl⟩, by simp⟩
    · nofun
  · rintro ⟨_, _, ⟨f, hf, hlegal, rfl⟩, ⟨fs, hfs, hlegals, rfl⟩, rfl⟩
    refine ⟨f :: fs, ?_, by simp [hlegal, hlegals], by simp⟩
    rw [fragments]
    · simp only [bind, Except.bind, hf, hfs]
      rfl
    · nofun

theorem emitsParts_singleton_iff {i : Implementation} {is : List Instruction} :
    EmitsParts t m terminal [i] is ↔ i.Emits t m terminal is := by
  constructor
  · rintro ⟨fs, h, hlegal, rfl⟩
    rw [fragments] at h
    obtain ⟨f, hf, h⟩ := ok_of_bind h
    obtain rfl := Except.ok.inj h
    exact ⟨f, hf, by simpa using hlegal, by simp⟩
  · rintro ⟨f, hf, hlegal, rfl⟩
    refine ⟨[f], ?_, by simpa using hlegal, by simp⟩
    rw [fragments]
    simp only [bind, Except.bind, hf]
    rfl

mutual

/-- **The code of an implementation** is the code of its steps, in order. -/
theorem emits_iff_emitAll (terminal : Bool) : (i : Implementation) → {is : List Instruction} →
    (i.Emits t m terminal is ↔
      ∃ blocks, EmitAll t m (i.steps terminal) blocks ∧ is = blocks.flatten)
  | sequence parts, is => by
    by_cases hne : parts = []
    · subst hne
      exact emitAll_singleton_iff.symm
    · exact (emits_sequence_iff hne).trans (emitsParts_iff_emitAll terminal parts hne)
  | stub, _ | fixed _, _ | callSuper, _ | throwNew _ _, _ | accessField _ _, _
  | callHelper _ _ _, _ => emitAll_singleton_iff.symm

theorem emitsParts_iff_emitAll (terminal : Bool) : (parts : List Implementation) → parts ≠ [] →
    {is : List Instruction} →
    (EmitsParts t m terminal parts is ↔
      ∃ blocks, EmitAll t m (stepsAll terminal parts) blocks ∧ is = blocks.flatten)
  | [], hne, _ => absurd rfl hne
  | [i], _, _ => emitsParts_singleton_iff.trans (emits_iff_emitAll terminal i)
  | i :: j :: js, _, is => by
    rw [emitsParts_cons_iff, stepsAll]
    · constructor
      · rintro ⟨first, rest, hfirst, hrest, rfl⟩
        obtain ⟨blocks, hblocks, rfl⟩ := (emits_iff_emitAll false i).1 hfirst
        obtain ⟨blocks', hblocks', rfl⟩ :=
          (emitsParts_iff_emitAll terminal (j :: js) (List.cons_ne_nil j js)).1 hrest
        exact ⟨_, emitAll_append_iff.2 ⟨_, _, hblocks, hblocks', rfl⟩, by simp⟩
      · rintro ⟨_, hblocks, rfl⟩
        obtain ⟨first, rest, hfirst, hrest, rfl⟩ := emitAll_append_iff.1 hblocks
        exact ⟨_, _, (emits_iff_emitAll false i).2 ⟨first, hfirst, rfl⟩,
          (emitsParts_iff_emitAll terminal (j :: js) (List.cons_ne_nil j js)).2 ⟨rest, hrest, rfl⟩,
          by simp⟩
    · nofun

end

/-- Steps have code exactly if each of them has. -/
theorem exists_emitAll_iff {steps : List (Implementation × Bool)} :
    (∃ blocks, EmitAll t m steps blocks) ↔ ∀ s ∈ steps, ∃ is, s.1.Emits t m s.2 is := by
  induction steps with
  | nil => simp [EmitAll]
  | cons s steps ih =>
    simp only [EmitAll, List.forall₂_cons_left_iff, List.forall_mem_cons, ← ih]
    constructor
    · rintro ⟨_, block, blocks, h, hblocks, rfl⟩
      exact ⟨⟨block, h⟩, blocks, hblocks⟩
    · rintro ⟨⟨block, h⟩, blocks, hblocks⟩
      exact ⟨block :: blocks, block, blocks, h, hblocks, rfl⟩

/-- An appender for an implementation writes the code that the implementation has. -/
theorem apply_implementation_iff {i : Implementation} {P : List Instruction → Prop} :
    (∃ code, (Appender.implementation i t).apply m = .ok code ∧ P code.instructions) ↔
      ∃ is, i.Emits t m true is ∧ P is := by
  constructor
  · rintro ⟨code, h, hP⟩
    rw [Appender.apply] at h
    obtain ⟨f, hf, h⟩ := ok_of_bind h
    unfold Appender.codeOf at h
    split at h
    · rename_i hlegal
      obtain rfl := Except.ok.inj h
      exact ⟨_, ⟨f, hf, hlegal, rfl⟩, hP⟩
    · cases h
  · rintro ⟨_, ⟨f, hf, hlegal, rfl⟩, hP⟩
    refine ⟨.of f m.frameSize, ?_, hP⟩
    rw [Appender.apply, hf]
    exact if_pos hlegal

/-! ### Helpers -/

/-- The helper that the step asks the type `owner` for. -/
def helper? (owner : String) : Implementation → Option Method
  | callHelper name returnType _ => some ((helperToken name returnType).attach owner)
  | _ => none

mutual

/-- **The methods that an implementation adds** are the helpers of its steps. -/
theorem methods_prepare (terminal : Bool) : (i : Implementation) → (d : Draft) →
    (i.prepare d).decl.methods =
      d.decl.methods ++ (i.steps terminal).filterMap (·.1.helper? d.decl.name)
  | stub, d | fixed _, d | callSuper, d | throwNew _ _, d | accessField _ none, d => by
    simp [prepare, steps, helper?]
  | accessField _ (some _), d => by simp [prepare, steps, helper?, Draft.addField]
  | callHelper name returnType _, d => rfl
  | sequence parts, d => methods_prepareAll terminal parts d

theorem methods_prepareAll (terminal : Bool) : (is : List Implementation) → (d : Draft) →
    (prepareAll d is).decl.methods =
      d.decl.methods ++ (stepsAll terminal is).filterMap (·.1.helper? d.decl.name)
  | [], d => by simp [prepareAll, stepsAll, helper?]
  | [i], d => methods_prepare terminal i d
  | i :: j :: js, d => by
    have hname : (i.prepare d).decl.name = d.decl.name := (i.grows_prepare d).name
    rw [prepareAll, methods_prepareAll terminal (j :: js) (i.prepare d), hname,
      methods_prepare false i d]
    simp [stepsAll]

end

end Implementation

end ClassForge
