import ClassForge.Proofs.FamilySteps
import ClassForge.Proofs.Outcomes
import Mathlib.Data.Finset.Basic
import Mathlib.Data.Finset.Lattice.Lemmas

/-!
# The walk with one set of marks

`Pool.families` is handed the path of names that leads to a type. The same families are collected by
a walk that marks types: a type is marked when it is entered and unmarked when it is left, a marked
type is not entered, and the superclass is walked with the set that the type itself is walked with,
each interface with a copy of what is in the set by then. Such a walk could leave marks behind, or
take away a mark that was there before, and then what is found above one supertype would depend on
what was walked before it. It does neither, and so it agrees with `Pool.families`.

Nor does it run on in a pool that is cyclic. Here it is a recursion with a number of steps that it
may go down, and no outcome where that does not suffice; the number of types in the pool plus two
suffices, whatever the pool. A type that is entered has one name more marked, so that the types
whose names are not marked become fewer with each step down. Two calls are not counted by that, the
first, because its type need not be in the pool, and the last, because its type is marked.

The outcome lists all calls of the walk. Each comes with the names of the types that were entered
and not left when it was made. That is for the record: the walk does not look at them, it looks at
the marks.

## Main definitions

* `Walk.Call`, `Walk.Outcome` — a call, and what comes of a walk
* `Pool.walk` — the walk with marks
* `Walk.Call.Balanced` — the marks of a call are those from the start and the types being walked
* `Walk.Outcome.Closed` — no call is missing

## Main results

* `Pool.marks_of_walk` — the walk puts the marks back
* `Pool.balanced_of_walk`, `Pool.closed_of_walk` — what its calls are
* `Pool.graph_of_walk` — it collects `Pool.families`
* `Pool.exists_walk` — it has an outcome if it may go down far enough
* `graph_walk_terminates` — for any type and any pool, all of this with a bound on the depth
-/

namespace ClassForge

namespace Walk

/-- A call of the walk. -/
structure Call where
  /-- The names of the types that are being walked when the call is made, the innermost first. -/
  stack : List String
  type : TypeDecl
  /-- Whether the type is walked, or turned down because it is marked. -/
  entered : Bool
  /-- The marks that the call finds. -/
  before : Finset String
  /-- The marks that the call leaves. -/
  after : Finset String

/-- The first call is at depth one. -/
def Call.depth (c : Call) : Nat := c.stack.length + 1

/-- What comes of a walk. -/
structure Outcome where
  graph : MethodGraph
  marks : Finset String
  calls : List Call

namespace Outcome

/-- There was nothing to walk. -/
def idle (marks : Finset String) : Outcome := ⟨.empty, marks, []⟩

/-- The type is marked. -/
def turnedDown (stack : List String) (marks : Finset String) (t : TypeDecl) : Outcome :=
  ⟨.empty, marks, [⟨stack, t, false, marks, marks⟩]⟩

/-- The type is left, with what came of the walks of its supertypes. -/
def leave (p : Pool) (stack : List String) (marks : Finset String) (b : Bindings) (t : TypeDecl)
    (super : Outcome) (interfaces : List Outcome) : Outcome where
  graph := (t.methods.filter (·.isVirtual)).foldl (fun g m => g.declare (m.inShape b) m)
    (super.graph.inject (interfaces.foldl (fun g o => g.combine p o.graph) .empty))
  marks := super.marks.erase t.name
  calls := ⟨stack, t, true, marks, super.marks.erase t.name⟩ ::
    (super :: interfaces).flatMap (·.calls)

end Outcome

/-- The call finds the marks from the start of the walk and those of the types that are being
walked, it leaves the same marks, and it is entered exactly if its type is not among them. -/
structure Call.Balanced (start : Finset String) (c : Call) : Prop where
  before : c.before = start ∪ c.stack.toFinset
  after : c.after = c.before
  entered : c.entered = true ↔ c.type.name ∉ c.before

/-- All calls are balanced, and none is deeper than this. -/
def Outcome.Balanced (start : Finset String) (depth : Nat) (o : Outcome) : Prop :=
  ∀ c ∈ o.calls, c.Balanced start ∧ c.depth ≤ depth

theorem Outcome.balanced_idle (start marks : Finset String) (depth : Nat) :
    (idle marks).Balanced start depth := nofun

/-- Wherever a type is walked, there is a call for each of its known supertypes. -/
def Outcome.Closed (p : Pool) (o : Outcome) : Prop :=
  ∀ c ∈ o.calls, c.entered = true → ∀ u, p.Refers c.type u →
    ∃ d ∈ o.calls, d.stack = c.type.name :: c.stack ∧ d.type = u

theorem Outcome.closed_idle (p : Pool) (marks : Finset String) : (idle marks).Closed p := nofun

end Walk

open Walk

namespace Pool

/-- The walk with marks, from within the walks of the types on the stack. It goes down no more than
the given number of steps, and it has no outcome if these are not enough. -/
def walk (p : Pool) : Nat → List String → Finset String → Bindings → TypeDecl → Option Outcome
  | 0, _, _, _, _ => none
  | n + 1, stack, marks, b, t =>
    if t.name ∈ marks then some (.turnedDown stack marks t)
    else do
      let above (marks : Finset String) : Option (TypeDecl × Bindings) → Option Outcome
        | some (u, inner) => p.walk n (t.name :: stack) marks inner u
        | none => some (.idle marks)
      let super ← above (insert t.name marks) (t.superclass.bind (p.supertype? b))
      -- Each interface starts from what the superclass has left, whatever another has done.
      let interfaces ← t.interfaces.mapM fun r => above super.marks (p.supertype? b r)
      return .leave p stack marks b t super interfaces

variable {p : Pool} {n : Nat} {stack path : List String} {marks start : Finset String}
  {b : Bindings} {t u : TypeDecl} {found : Option (TypeDecl × Bindings)} {o : Outcome}

/-! ### One step down -/

/-- The walk of what a reference to a supertype leads to, if it leads anywhere. -/
def walkFound (p : Pool) (n : Nat) (stack : List String) (marks : Finset String) :
    Option (TypeDecl × Bindings) → Option Outcome
  | some (u, inner) => p.walk n stack marks inner u
  | none => some (.idle marks)

theorem of_walkFound {P : Outcome → Prop} (hidle : P (.idle marks))
    (hwalk : ∀ b u, p.walk n stack marks b u = some o → P o)
    (h : p.walkFound n stack marks found = some o) : P o := by
  cases found with
  | none => exact Option.some.inj h ▸ hidle
  | some u => exact hwalk u.2 u.1 h

/-- **One step down.** -/
theorem walk_succ_eq_some_iff :
    p.walk (n + 1) stack marks b t = some o ↔
      t.name ∈ marks ∧ .turnedDown stack marks t = o ∨
      t.name ∉ marks ∧
        ∃ super, p.walkFound n (t.name :: stack) (insert t.name marks)
          (t.superclass.bind (p.supertype? b)) = some super ∧
        ∃ interfaces, t.interfaces.map (fun r => p.walkFound n (t.name :: stack) super.marks
          (p.supertype? b r)) = interfaces.map some ∧
        .leave p stack marks b t super interfaces = o := by
  rw [walk]
  by_cases ht : t.name ∈ marks
  · simp [ht]
  · simp only [ht, if_false, false_and, false_or, not_false_eq_true, true_and, bind,
      Option.bind_eq_some_iff, mapM_eq_some_iff, pure, Option.some.injEq]
    rfl

/-! ### What holds of every walk that has an outcome -/

/-- **The walk puts the marks back.** -/
theorem marks_of_walk (h : p.walk n stack marks b t = some o) : o.marks = marks := by
  induction n generalizing stack marks b t o with
  | zero => cases h
  | succ n ih =>
    obtain ⟨-, rfl⟩ | ⟨ht, super, hsuper, -, -, rfl⟩ := walk_succ_eq_some_iff.1 h
    · rfl
    · have hmarks : super.marks = insert t.name marks :=
        of_walkFound (P := fun o => o.marks = insert t.name marks) rfl (fun _ _ => ih) hsuper
      show super.marks.erase t.name = marks
      rw [hmarks, Finset.erase_insert ht]

theorem marks_of_walkFound (h : p.walkFound n stack marks found = some o) : o.marks = marks :=
  of_walkFound (P := fun o => o.marks = marks) rfl (fun _ _ => marks_of_walk) h

/-- A type that is walked has all its supertypes walked with the same marks. -/
theorem walk_cases (h : p.walk (n + 1) stack marks b t = some o) :
    t.name ∈ marks ∧ .turnedDown stack marks t = o ∨
      t.name ∉ marks ∧
        ∃ super, p.walkFound n (t.name :: stack) (insert t.name marks)
          (t.superclass.bind (p.supertype? b)) = some super ∧
        ∃ interfaces, t.interfaces.map (fun r => p.walkFound n (t.name :: stack)
          (insert t.name marks) (p.supertype? b r)) = interfaces.map some ∧
        .leave p stack marks b t super interfaces = o := by
  obtain hmarked | ⟨ht, super, hsuper, interfaces, hinterfaces, rfl⟩ := walk_succ_eq_some_iff.1 h
  · exact .inl hmarked
  · rw [marks_of_walkFound hsuper] at hinterfaces
    exact .inr ⟨ht, super, hsuper, interfaces, hinterfaces, rfl⟩

/-- What comes together in a type came of the walks of its supertypes. -/
theorem exists_walkFound_eq {super : Outcome} {interfaces : List Outcome} {rs : List TypeRef}
    (hsuper : p.walkFound n stack marks found = some super)
    (hinterfaces : rs.map (fun r => p.walkFound n stack marks (p.supertype? b r)) =
      interfaces.map some) :
    ∀ o ∈ super :: interfaces, ∃ found, p.walkFound n stack marks found = some o := by
  rw [List.forall_mem_cons]
  refine ⟨⟨_, hsuper⟩, fun o ho => ?_⟩
  obtain ⟨r, -, hr⟩ := List.mem_map.1 (hinterfaces ▸ List.mem_map_of_mem ho)
  exact ⟨_, hr⟩

/-- A supertype that a type refers to is walked. -/
theorem exists_walk_of_refers {super : Outcome} {interfaces : List Outcome}
    (hsuper : p.walkFound n stack marks (t.superclass.bind (p.supertype? b)) = some super)
    (hinterfaces : t.interfaces.map (fun r => p.walkFound n stack marks (p.supertype? b r)) =
      interfaces.map some) (hu : p.Refers t u) :
    ∃ o ∈ super :: interfaces, ∃ inner, p.walk n stack marks inner u = some o := by
  obtain ⟨r, hr, hu⟩ := hu
  have hfound : p.supertype? b r = some (u, u.bindings (r.substitute b)) := by
    rw [supertype?_eq, hu, Option.map_some]
  obtain hr | hr := List.mem_append.1 hr
  · rw [Option.mem_toList.1 hr, Option.bind_some, hfound] at hsuper
    exact ⟨super, .head _, _, hsuper⟩
  · have hmem : p.walkFound n stack marks (p.supertype? b r) ∈ interfaces.map some :=
      hinterfaces ▸ List.mem_map_of_mem hr
    obtain ⟨o, ho, hwalk⟩ := List.mem_map.1 hmem
    rw [hfound] at hwalk
    exact ⟨o, .tail _ ho, _, hwalk.symm⟩

/-- **The calls of a walk** are balanced, and none is deeper than the walk may go down. -/
theorem balanced_of_walk (hmarks : marks = start ∪ stack.toFinset)
    (h : p.walk n stack marks b t = some o) : o.Balanced start (stack.length + n) := by
  induction n generalizing stack marks b t o with
  | zero => cases h
  | succ n ih =>
    have hafter := marks_of_walk h
    obtain ⟨ht, rfl⟩ | ⟨ht, super, hsuper, interfaces, hinterfaces, rfl⟩ := walk_cases h
    · rintro c (_ | ⟨_, ⟨⟩⟩)
      exact ⟨⟨hmarks, rfl, by simp [ht]⟩, by simp [Call.depth]⟩
    · have hinner : insert t.name marks = start ∪ (t.name :: stack).toFinset := by
        rw [hmarks, List.toFinset_cons, Finset.union_insert]
      intro c hc
      obtain rfl | hc := List.mem_cons.1 hc
      · exact ⟨⟨hmarks, hafter, by simp [ht]⟩, by simp [Call.depth]⟩
      · obtain ⟨o, ho, hc⟩ := List.mem_flatMap.1 hc
        obtain ⟨found, hfound⟩ := exists_walkFound_eq hsuper hinterfaces o ho
        have hbalanced : o.Balanced start ((t.name :: stack).length + n) :=
          of_walkFound (Outcome.balanced_idle _ _ _) (fun _ _ => ih hinner) hfound
        rw [List.length_cons, Nat.succ_add_eq_add_succ] at hbalanced
        exact hbalanced c hc

/-- **No call is missing.** There is one for the type that the walk starts with, and one for each
supertype of a type that is walked. -/
theorem closed_of_walk (h : p.walk n stack marks b t = some o) :
    (∃ c ∈ o.calls, c.stack = stack ∧ c.type = t) ∧ o.Closed p := by
  induction n generalizing stack marks b t o with
  | zero => cases h
  | succ n ih =>
    obtain ⟨-, rfl⟩ | ⟨-, super, hsuper, interfaces, hinterfaces, rfl⟩ := walk_cases h
    · refine ⟨⟨_, .head _, rfl, rfl⟩, ?_⟩
      rintro c (_ | ⟨_, ⟨⟩⟩) ⟨⟩
    · refine ⟨⟨_, .head _, rfl, rfl⟩, ?_⟩
      intro c hc hentered u hu
      obtain rfl | hc := List.mem_cons.1 hc
      · obtain ⟨o, ho, inner, hwalk⟩ := exists_walk_of_refers hsuper hinterfaces hu
        obtain ⟨d, hd, hcall⟩ := (ih hwalk).1
        exact ⟨d, .tail _ (List.mem_flatMap.2 ⟨o, ho, hd⟩), hcall⟩
      · obtain ⟨o, ho, hc⟩ := List.mem_flatMap.1 hc
        obtain ⟨found, hfound⟩ := exists_walkFound_eq hsuper hinterfaces o ho
        have hclosed : o.Closed p :=
          of_walkFound (Outcome.closed_idle _ _) (fun _ _ h => (ih h).2) hfound
        obtain ⟨d, hd, hcall⟩ := hclosed c hc hentered u hu
        exact ⟨d, .tail _ (List.mem_flatMap.2 ⟨o, ho, hd⟩), hcall⟩

/-! ### The families that are collected -/

theorem familiesAbove_eq_elim (p : Pool) (n : Nat) (path : List String) (b : Bindings)
    (r : TypeRef) : p.familiesAbove n path b r =
      (p.supertype? b r).elim .empty fun u => p.families n path u.2 u.1 := by
  rw [familiesAbove]
  cases p.supertype? b r <;> rfl

section Graphs

variable (hwalk : ∀ b u o, p.walk n stack marks b u = some o → o.graph = p.families n path b u)

include hwalk

theorem graph_of_walkFound (h : p.walkFound n stack marks found = some o) :
    o.graph = found.elim .empty fun u => p.families n path u.2 u.1 := by
  cases found with
  | none => exact congrArg Outcome.graph (Option.some.inj h).symm
  | some u => exact hwalk u.2 u.1 o h

theorem graph_of_walkSuper
    (h : p.walkFound n stack marks (t.superclass.bind (p.supertype? b)) = some o) :
    o.graph = t.superclass.elim .empty (p.familiesAbove n path b) := by
  rw [graph_of_walkFound hwalk h]
  cases t.superclass with
  | none => rfl
  | some r => exact (familiesAbove_eq_elim ..).symm

theorem combineAll_graphs {rs : List TypeRef} {os : List Outcome} (g : MethodGraph)
    (h : rs.map (fun r => p.walkFound n stack marks (p.supertype? b r)) = os.map some) :
    os.foldl (fun g o => g.combine p o.graph) g =
      rs.foldl (fun g r => g.combine p (p.familiesAbove n path b r)) g := by
  induction rs generalizing os g with
  | nil => rw [List.map_eq_nil_iff.1 h.symm, List.foldl_nil, List.foldl_nil]
  | cons r rs ih =>
    obtain ⟨o, os, rfl, hr, hrs⟩ := List.map_eq_cons_iff.1 h.symm
    rw [List.foldl_cons, List.foldl_cons, graph_of_walkFound hwalk hr.symm,
      ← familiesAbove_eq_elim, ih _ hrs.symm]

end Graphs

/-- **The walk collects the families** that are collected along a path with the same names. -/
theorem graph_of_walk (hmarks : marks = path.toFinset) (h : p.walk n stack marks b t = some o) :
    o.graph = p.families n path b t := by
  induction n generalizing stack marks path b t o with
  | zero => cases h
  | succ n ih =>
    have hmem : t.name ∈ marks ↔ t.name ∈ path := by rw [hmarks, List.mem_toFinset]
    obtain ⟨ht, rfl⟩ | ⟨ht, super, hsuper, interfaces, hinterfaces, rfl⟩ := walk_cases h
    · rw [families_of_mem (hmem.1 ht)]
      rfl
    · have hinner : insert t.name marks = (t.name :: path).toFinset := by
        rw [hmarks, List.toFinset_cons]
      have hwalk : ∀ b u o, p.walk n (t.name :: stack) (insert t.name marks) b u = some o →
          o.graph = p.families n (t.name :: path) b u := fun _ _ _ => ih hinner
      rw [families_succ (mt hmem.2 ht), ← graph_of_walkSuper hwalk hsuper,
        ← combineAll_graphs hwalk _ hinterfaces]
      rfl

/-! ### Enough steps -/

/-- A walk that has an outcome has the same with one step more to go down. -/
theorem walk_mono (h : p.walk n stack marks b t = some o) :
    p.walk (n + 1) stack marks b t = some o := by
  induction n generalizing stack marks b t o with
  | zero => cases h
  | succ n ih =>
    have above {stack marks found o} (h : p.walkFound n stack marks found = some o) :
        p.walkFound (n + 1) stack marks found = some o := by
      cases found with
      | none => exact h
      | some u => exact ih h
    refine walk_succ_eq_some_iff.2 ((walk_succ_eq_some_iff.1 h).imp_right ?_)
    rintro ⟨ht, super, hsuper, interfaces, hinterfaces, rfl⟩
    refine ⟨ht, super, above hsuper, interfaces, ?_, rfl⟩
    rw [← hinterfaces]
    refine List.map_congr_left fun r hr => ?_
    obtain ⟨o, -, ho⟩ := List.mem_map.1 (hinterfaces ▸ List.mem_map_of_mem hr)
    rw [← ho, above ho.symm]

theorem walk_add (h : p.walk n stack marks b t = some o) (k : Nat) :
    p.walk (n + k) stack marks b t = some o := by
  induction k with
  | zero => exact h
  | succ k ih => exact walk_mono ih

theorem exists_walkFound (hwalk : ∀ b u, p.Knows u → ∃ o, p.walk n stack marks b u = some o)
    (r? : Option TypeRef) :
    ∃ o, p.walkFound n stack marks (r?.bind (p.supertype? b)) = some o := by
  cases r? with
  | none => exact ⟨_, rfl⟩
  | some r =>
    rw [Option.bind_some, supertype?_eq]
    cases hu : p.resolve? r with
    | none => exact ⟨_, rfl⟩
    | some u => exact hwalk _ u (knows_of_resolve? hu)

/-- A walk has an outcome if those one step down have. -/
theorem exists_walk_succ (hwalk : t.name ∉ marks → ∀ b u, p.Knows u →
      ∃ o, p.walk n (t.name :: stack) (insert t.name marks) b u = some o) :
    ∃ o, p.walk (n + 1) stack marks b t = some o := by
  by_cases ht : t.name ∈ marks
  · exact ⟨_, walk_succ_eq_some_iff.2 (.inl ⟨ht, rfl⟩)⟩
  · obtain ⟨super, hsuper⟩ := exists_walkFound (hwalk ht) t.superclass
    choose outcome houtcome using fun r => exists_walkFound (b := b) (hwalk ht) (some r)
    refine ⟨_, walk_succ_eq_some_iff.2
      (.inr ⟨ht, super, hsuper, t.interfaces.map outcome, ?_, rfl⟩)⟩
    rw [marks_of_walkFound hsuper, List.map_map]
    exact List.map_congr_left fun r _ => houtcome r

/-- **The walk has an outcome** if it may go down more steps than there are types left to enter. -/
theorem exists_walk (ht : p.Knows t) (hmarks : marks = path.toFinset) (hn : p.unmet path < n) :
    ∃ o, p.walk n stack marks b t = some o := by
  induction n generalizing stack marks path b t with
  | zero => omega
  | succ n ih =>
    refine exists_walk_succ fun hnew b u hu => ?_
    have hpath : t.name ∉ path := by rwa [hmarks, List.mem_toFinset] at hnew
    have hless := unmet_cons_lt ht hpath
    have hinner : insert t.name marks = (t.name :: path).toFinset := by
      rw [hmarks, List.toFinset_cons]
    exact ih hu hinner (by omega)

/-- The type where a walk starts need not be known. -/
theorem exists_walk_size (p : Pool) (path : List String) (b : Bindings) (t : TypeDecl) :
    ∃ o, p.walk (p.size + 2) [] path.toFinset b t = some o := by
  refine exists_walk_succ fun _ b u hu => ?_
  have hinner : insert t.name path.toFinset = (t.name :: path).toFinset := by
    rw [List.toFinset_cons]
  have hleft := p.unmet_le (t.name :: path)
  exact exists_walk hu hinner (by omega)

end Pool

/-- **Graphs are walked to the end in every pool.** Whatever the pool, the type, what its variables
stand for and the names that are marked at the start, the walk has an outcome and goes down no
deeper than the number of types in the pool plus two. It leaves the marks that it found, and so does
each of its calls, which are one for the type and one for each known supertype of a type that is
walked. What a call finds marked is what was marked at the start and the types being walked, so that
it is the same for all supertypes of a type. A type is walked exactly if it is not among these,
hence never while it is being walked. What is collected is `Pool.families`, and both graphs of a
type come from such walks, the second from one that starts with the type marked. -/
theorem graph_walk_terminates (p : Pool) (t : TypeDecl) :
    (∀ (b : Bindings) (path : List String), ∃ o,
      (∀ k, p.walk (p.size + 2 + k) [] path.toFinset b t = some o) ∧
      o.marks = path.toFinset ∧
      o.graph = p.families p.depthBound path b t ∧
      (∃ c ∈ o.calls, c.stack = [] ∧ c.type = t) ∧ o.Closed p ∧
      ∀ c ∈ o.calls, c.depth ≤ p.size + 2 ∧ c.after = c.before ∧
        c.before = path.toFinset ∪ c.stack.toFinset ∧
        (c.entered = true ↔ c.type.name ∉ path ∧ c.type.name ∉ c.stack)) ∧
    ∃ o super, p.walk (p.size + 2) [] ∅ .empty t = some o ∧
      p.walkFound (p.size + 2) [] {t.name} (t.superclass.bind (p.supertype? .empty)) =
        some super ∧
      GraphScope.hierarchy.compile p t = ⟨o.graph, super.graph⟩ := by
  constructor
  · intro b path
    obtain ⟨o, ho⟩ := p.exists_walk_size path b t
    obtain ⟨hfirst, hclosed⟩ := Pool.closed_of_walk ho
    refine ⟨o, Pool.walk_add ho, Pool.marks_of_walk ho, Pool.graph_of_walk rfl ho, hfirst, hclosed,
      ?_⟩
    intro c hc
    have hstart : path.toFinset = path.toFinset ∪ List.toFinset [] := by simp
    obtain ⟨hbalanced, hdepth⟩ := Pool.balanced_of_walk hstart ho c hc
    rw [List.length_nil, Nat.zero_add] at hdepth
    refine ⟨hdepth, hbalanced.after, hbalanced.before, ?_⟩
    rw [hbalanced.entered, hbalanced.before]
    simp
  · obtain ⟨o, ho⟩ := p.exists_walk_size [] .empty t
    obtain ⟨super, hsuper⟩ :=
      Pool.exists_walkFound (fun b u _ => p.exists_walk_size [t.name] b u) t.superclass
    have hgraph : o.graph = p.families p.depthBound [] .empty t := Pool.graph_of_walk rfl ho
    have hsuperGraph : super.graph = GraphScope.superFamilies p t := by
      have hwalk : ∀ b u o, p.walk (p.size + 2) [] [t.name].toFinset b u = some o →
          o.graph = p.families p.depthBound [t.name] b u := fun _ _ _ => Pool.graph_of_walk rfl
      rw [Pool.graph_of_walkFound hwalk hsuper, GraphScope.superFamilies]
      cases t.superclass.bind (p.supertype? .empty) <;> rfl
    refine ⟨o, super, ho, hsuper, ?_⟩
    rw [GraphScope.compile, hgraph, hsuperGraph]

/-- A cyclic pool in which the bound is attained: the walk enters a type that the pool does not
know, then all that it knows, and comes back to one of them. -/
example :
    let loop : TypeDecl :=
      { name := "a.Loop", modifiers := .empty, superclass := some (.named "a.Loop") }
    let start : TypeDecl :=
      { name := "a.Start", modifiers := .empty, superclass := some (.named "a.Loop") }
    let p : Pool := ⟨[loop], by simp⟩
    p.walk 2 [] ∅ .empty start = none ∧
      (p.walk 3 [] ∅ .empty start).map (fun o => o.calls.map fun c => (c.type.name, c.entered)) =
        some [("a.Start", true), ("a.Loop", true), ("a.Loop", false)] := by
  decide

end ClassForge
