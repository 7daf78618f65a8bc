import ClassForge.Pool.Hierarchy
import Mathlib.Algebra.GroupWithZero.Nat
import Mathlib.Algebra.Order.BigOperators.Group.List
import Mathlib.Algebra.Order.Group.Nat
import Mathlib.Logic.Relation

/-!
# Which supertypes the walks meet

Three walks go up from a type: the chain of superclasses, the breadth-first walk over interfaces,
and the walk that collects families. All three follow references to supertypes, and all three stop
at names that they have met, because a pool may be cyclic. So what they have in common is a
relation: `u` is reached from `t` by references over types whose names are not among some given
ones.

Stopping at a met name loses nothing. A way that comes back to a name can be cut short there,
because the pool knows only one type of that name (`ReachesOutside.cut`). Nor does the bound on the
number of steps: each step takes the weight of one more type out of what is left (`weightOutside`),
whether the weight is the type itself or the references that it puts in the queue.

The hierarchy lists exactly what is reached, as long as no reference to an interface leads to a type
with a superclass: such a superclass is passed over. Interfaces have none, so that inheritance
between interfaces is transitive. An unknown superclass is taken at its name.

## Main definitions

* `Pool.Refers`, `Pool.Reaches`, `Pool.ReachesOutside` — one reference up, any number, and any
  number around some names
* `Pool.inherits` — inheritance between names

## Main results

* `Pool.reachesOutside_of_mem_hierarchy` — the hierarchy of a type is reached from it
* `Pool.mem_hierarchy_of_reachesOutside`, `Pool.mem_hierarchy_iff` — what the hierarchy of a type is
-/

namespace ClassForge

/-- The references to supertypes. -/
def TypeDecl.supertypes (t : TypeDecl) : List TypeRef := t.superclass.toList ++ t.interfaces

namespace Pool

variable {p : Pool} {t u v : TypeDecl} {names : List String}

/-! ### What references lead to -/

/-- The declaration that a reference leads to. -/
def resolve? (p : Pool) (reference : TypeRef) : Option TypeDecl := reference.rawName?.bind p.find?

/-- This is the declaration that the pool has for the name. -/
def Knows (p : Pool) (t : TypeDecl) : Prop := p.find? t.name = some t

instance : Decidable (p.Knows t) := inferInstanceAs (Decidable (p.find? t.name = some t))

theorem Knows.eq (ht : p.Knows t) (hu : p.Knows u) (h : t.name = u.name) : t = u := by
  rw [Knows, h] at ht
  exact Option.some.inj (ht.symm.trans hu)

theorem Knows.mem (h : p.Knows t) : t ∈ p.types := mem_of_find? h

theorem knows_of_find? {name : String} (h : p.find? name = some t) : p.Knows t := by
  rw [Knows, name_of_find? h, h]

theorem find?_of_resolve? {r : TypeRef} (h : p.resolve? r = some u) :
    r.rawName? = some u.name ∧ p.find? u.name = some u := by
  obtain ⟨name, hname, hu⟩ := Option.bind_eq_some_iff.1 h
  obtain rfl := name_of_find? hu
  exact ⟨hname, hu⟩

theorem knows_of_resolve? {r : TypeRef} (h : p.resolve? r = some u) : p.Knows u :=
  (find?_of_resolve? h).2

theorem superName?_of_resolve? {r : TypeRef} (hr : t.superclass = some r)
    (h : p.resolve? r = some u) : t.superName? = some u.name := by
  rw [TypeDecl.superName?, hr, Option.bind_some, (find?_of_resolve? h).1]

/-- `u` is what a reference of `t` to a supertype leads to. -/
def Refers (p : Pool) (t u : TypeDecl) : Prop := ∃ r ∈ t.supertypes, p.resolve? r = some u

theorem Refers.knows (h : p.Refers t u) : p.Knows u :=
  let ⟨_, _, hr⟩ := h
  knows_of_resolve? hr

theorem refers_of_superclass {r : TypeRef} (hr : t.superclass = some r)
    (h : p.resolve? r = some u) : p.Refers t u :=
  ⟨r, by simp [TypeDecl.supertypes, hr], h⟩

theorem refers_of_interface {r : TypeRef} (hr : r ∈ t.interfaces) (h : p.resolve? r = some u) :
    p.Refers t u :=
  ⟨r, List.mem_append_right _ hr, h⟩

/-- `u` is `t` or reached from it by references to supertypes. -/
def Reaches (p : Pool) : TypeDecl → TypeDecl → Prop := Relation.ReflTransGen p.Refers

/-- `u` is `t` or reached from it by references that lead to none of the names. -/
def ReachesOutside (p : Pool) (names : List String) : TypeDecl → TypeDecl → Prop :=
  Relation.ReflTransGen fun t u => p.Refers t u ∧ u.name ∉ names

theorem ReachesOutside.reaches (h : p.ReachesOutside names t u) : p.Reaches t u :=
  Relation.ReflTransGen.mono (fun _ _ h => h.1) _ _ h

/-- The pool knows whatever is reached, the start aside. -/
theorem Reaches.eq_or_knows (h : p.Reaches t u) : u = t ∨ p.Knows u := by
  cases h with
  | refl => exact .inl rfl
  | tail _ hu => exact .inr hu.knows

theorem Reaches.knows (h : p.Reaches t u) (ht : p.Knows t) : p.Knows u :=
  h.eq_or_knows.elim (fun e => e ▸ ht) id

/-- A way to `u` goes around a name, or it does so from the last time on that it meets the name. -/
theorem ReachesOutside.around (h : p.ReachesOutside names t u) (name : String) :
    p.ReachesOutside (name :: names) t u ∨
      ∃ w, p.find? name = some w ∧ p.ReachesOutside (name :: names) w u := by
  induction h using Relation.ReflTransGen.head_induction_on with
  | refl => exact .inl .refl
  | @head a b hab _ ih =>
    obtain hb | hw := ih
    · by_cases hname : b.name = name
      · exact .inr ⟨b, hname ▸ hab.1.knows, hb⟩
      · refine .inl (hb.head ⟨hab.1, ?_⟩)
        simp [hname, hab.2]
    · exact .inr hw

/-- **Ways can be cut short.** What is reached from a known type is the type itself, or it is
reached from one of its direct supertypes without coming back to the type. -/
theorem ReachesOutside.cut (h : p.ReachesOutside names t u) (ht : p.Knows t) :
    u = t ∨ ∃ v, p.Refers t v ∧ v.name ∉ t.name :: names ∧
      p.ReachesOutside (t.name :: names) v u := by
  have hround : p.ReachesOutside (t.name :: names) t u := by
    obtain h' | ⟨w, hw, h'⟩ := h.around t.name
    · exact h'
    · obtain rfl := Option.some.inj (ht.symm.trans hw)
      exact h'
  obtain rfl | ⟨v, hv, hvu⟩ := hround.cases_head
  · exact .inl rfl
  · exact .inr ⟨v, hv.1, hv.2, hvu⟩

/-! ### What is left of the pool -/

/-- The weight of the types whose names are not among the given. -/
def weightOutside (weight : TypeDecl → Nat) (names : List String) (ts : List TypeDecl) : Nat :=
  (ts.map fun t => if t.name ∈ names then 0 else weight t).sum

theorem weightOutside_anti (weight : TypeDecl → Nat) {seen : List String} (h : names ⊆ seen)
    (ts : List TypeDecl) : weightOutside weight seen ts ≤ weightOutside weight names ts := by
  refine List.sum_le_sum fun t _ => ?_
  by_cases ht : t.name ∈ names
  · rw [if_pos (h ht), if_pos ht]
  · rw [if_neg ht]
    split <;> omega

theorem weightOutside_le (weight : TypeDecl → Nat) (names : List String) (ts : List TypeDecl) :
    weightOutside weight names ts ≤ (ts.map weight).sum :=
  List.sum_le_sum fun t _ => by split <;> omega

/-- Meeting one more name takes the weight of its type away. -/
theorem weightOutside_cons_add_le (weight : TypeDecl → Nat) (h : t.name ∉ names)
    {ts : List TypeDecl} (ht : t ∈ ts) :
    weightOutside weight (t.name :: names) ts + weight t ≤ weightOutside weight names ts := by
  obtain ⟨before, after, rfl⟩ := List.append_of_mem ht
  have hbefore := weightOutside_anti weight (List.subset_cons_self t.name names) before
  have hafter := weightOutside_anti weight (List.subset_cons_self t.name names) after
  simp only [weightOutside, List.map_append, List.map_cons, List.sum_append, List.sum_cons,
    List.mem_cons_self, if_true, h, if_false] at hbefore hafter ⊢
  omega

/-! ### The hierarchy -/

/-- The chain ends, or it goes on with the type that the superclass reference leads to. -/
theorem chainFrom_succ_cases (p : Pool) (n : Nat) (seen : List String) (t : TypeDecl) :
    p.chainFrom (n + 1) seen t = [] ∨
      ∃ r u, t.superclass = some r ∧ p.resolve? r = some u ∧ u.name ∉ seen ∧
        p.chainFrom (n + 1) seen t = u :: p.chainFrom n (u.name :: seen) u := by
  rw [chainFrom]
  split
  · exact .inl rfl
  · rename_i name hname
    split
    · exact .inl rfl
    · rename_i hnew
      split
      · exact .inl rfl
      · rename_i u hu
        obtain ⟨r, hr, hraw⟩ := Option.bind_eq_some_iff.1 hname
        obtain rfl := name_of_find? hu
        exact .inr ⟨r, u, hr, Option.bind_eq_some_iff.2 ⟨_, hraw, hu⟩, hnew, rfl⟩

/-- The chain of superclasses is reached around the names that it starts with. -/
theorem reachesOutside_of_mem_chainFrom {n : Nat} {seen : List String}
    (hseen : names ⊆ seen) (h : u ∈ p.chainFrom n seen t) : p.ReachesOutside names t u := by
  induction n generalizing seen t with
  | zero => exact absurd h List.not_mem_nil
  | succ n ih =>
    obtain hend | ⟨r, v, hr, hv, hnew, hchain⟩ := p.chainFrom_succ_cases n seen t
    · exact absurd (hend ▸ h) List.not_mem_nil
    · have step : p.ReachesOutside names t v :=
        .single ⟨refers_of_superclass hr hv, fun hmem => hnew (hseen hmem)⟩
      rw [hchain] at h
      rcases List.mem_cons.1 h with rfl | h
      · exact step
      · exact step.trans (ih (fun _ hx => List.mem_cons_of_mem _ (hseen hx)) h)

/-- What the breadth-first walk adds is reached from where the references of the queue stand. -/
theorem reachesOutside_of_mem_interfacesFrom {n : Nat} {seen : List String}
    {queue : List TypeRef} (hseen : names ⊆ seen)
    (hqueue : ∀ r ∈ queue, ∃ v, p.ReachesOutside names t v ∧ r ∈ v.interfaces)
    (h : u ∈ p.interfacesFrom n seen queue) : p.ReachesOutside names t u := by
  induction n generalizing seen queue with
  | zero => exact absurd h (by rw [interfacesFrom]; exact List.not_mem_nil)
  | succ n ih =>
    cases queue with
    | nil => exact absurd h (by simp [interfacesFrom])
    | cons r queue =>
      rw [List.forall_mem_cons] at hqueue
      rw [interfacesFrom] at h
      split at h
      · exact ih hseen hqueue.2 h
      · rename_i name hraw
        split at h
        · exact ih hseen hqueue.2 h
        · rename_i hnew
          have hseen' : names ⊆ name :: seen := fun _ hx => List.mem_cons_of_mem _ (hseen hx)
          split at h
          · exact ih hseen' hqueue.2 h
          · rename_i w hw
            obtain ⟨v, hv, hr⟩ := hqueue.1
            have hname : w.name ∉ names := fun hmem => hnew (name_of_find? hw ▸ hseen hmem)
            have hres : p.resolve? r = some w := Option.bind_eq_some_iff.2 ⟨name, hraw, hw⟩
            have step : p.ReachesOutside names t w :=
              hv.tail ⟨refers_of_interface hr hres, hname⟩
            rcases List.mem_cons.1 h with rfl | h
            · exact step
            · refine ih hseen' (fun r' hr' => ?_) h
              rcases List.mem_append.1 hr' with hr' | hr'
              · exact hqueue.2 r' hr'
              · exact ⟨w, step, hr'⟩

/-- **The hierarchy of a type is reached from it** by ways that do not come back to it. -/
theorem reachesOutside_of_mem_hierarchy (h : u ∈ p.hierarchy t) :
    p.ReachesOutside [t.name] t u := by
  have classes : ∀ v ∈ t :: p.superclassChain t, p.ReachesOutside [t.name] t v := by
    intro v hv
    rcases List.mem_cons.1 hv with rfl | hv
    · exact .refl
    · exact reachesOutside_of_mem_chainFrom (List.Subset.refl _) hv
  rw [hierarchy] at h
  rcases List.mem_append.1 h with h | h
  · exact classes u h
  · refine reachesOutside_of_mem_interfacesFrom (fun x hx => ?_) (fun r hr => ?_) h
    · exact List.mem_map.2 ⟨t, List.mem_cons_self, (List.mem_singleton.1 hx).symm⟩
    · obtain ⟨v, hv, hr⟩ := List.mem_flatMap.1 hr
      exact ⟨v, classes v hv, hr⟩

/-! ### Complete walks -/

/-- The types are all that the references lead to, met names aside. -/
def ClosedOutside (p : Pool) (seen : List String) (listed : List TypeDecl)
    (references : List TypeRef) : Prop :=
  ∀ r ∈ references, ∀ v, p.resolve? r = some v → v.name ∈ seen ∨ v ∈ listed

namespace ClosedOutside

variable {name : String} {seen : List String} {listed : List TypeDecl}
  {references : List TypeRef}

/-- A name that the pool does not know need not count as met. -/
theorem of_unknown (h : p.ClosedOutside (name :: seen) listed references)
    (hname : p.find? name = none) : p.ClosedOutside seen listed references := by
  intro r hr v hv
  refine (h r hr v hv).imp_left fun hmem => (List.mem_cons.1 hmem).resolve_left fun e => ?_
  rw [← e, (find?_of_resolve? hv).2] at hname
  cases hname

/-- Nor does the name of a type that is listed. -/
theorem of_known (h : p.ClosedOutside (name :: seen) listed references)
    (hu : p.find? name = some u) : p.ClosedOutside seen (u :: listed) references := by
  intro r hr v hv
  rcases h r hr v hv with hmem | hmem
  · refine (List.mem_cons.1 hmem).symm.imp_right fun e => ?_
    rw [(knows_of_resolve? hv).eq (knows_of_find? hu) (e.trans (name_of_find? hu).symm)]
    exact List.mem_cons_self
  · exact .inr (List.mem_cons_of_mem _ hmem)

/-- A reference that leads to a met name or nowhere adds nothing. -/
theorem cons {r : TypeRef} (h : p.ClosedOutside seen listed references)
    (hr : ∀ name, r.rawName? = some name → name ∈ seen) :
    p.ClosedOutside seen listed (r :: references) :=
  List.forall_mem_cons.2 ⟨fun v hv => .inl (hr v.name (find?_of_resolve? hv).1), h⟩

end ClosedOutside

/-- **The breadth-first walk is complete.** With enough steps it lists what the queue leads to, and
what the listed types lead to. -/
theorem closedOutside_interfacesFrom {n : Nat} (seen : List String) (queue : List TypeRef)
    (hn : queue.length + weightOutside (·.interfaces.length) seen p.types ≤ n) :
    p.ClosedOutside seen (p.interfacesFrom n seen queue) queue ∧
      ∀ u ∈ p.interfacesFrom n seen queue,
        p.ClosedOutside seen (p.interfacesFrom n seen queue) u.interfaces := by
  induction n generalizing seen queue with
  | zero =>
    obtain rfl := List.eq_nil_of_length_eq_zero (Nat.eq_zero_of_add_eq_zero (Nat.le_zero.1 hn)).1
    simp [interfacesFrom, ClosedOutside]
  | succ n ih =>
    cases queue with
    | nil => simp [interfacesFrom, ClosedOutside]
    | cons r queue =>
      rw [List.length_cons] at hn
      rw [interfacesFrom]
      split
      · rename_i hraw
        obtain ⟨hq, hl⟩ := ih seen queue (by omega)
        exact ⟨hq.cons fun name h => absurd (hraw.symm.trans h) nofun, hl⟩
      · rename_i name hraw
        have hr : ∀ name', r.rawName? = some name' → name' ∈ name :: seen := fun name' h =>
          Option.some.inj (hraw.symm.trans h) ▸ List.mem_cons_self
        split
        · rename_i hmet
          obtain ⟨hq, hl⟩ := ih seen queue (by omega)
          exact ⟨hq.cons fun name' h => Option.some.inj (hraw.symm.trans h) ▸ hmet, hl⟩
        · rename_i hnew
          split
          · rename_i hunknown
            have hless := weightOutside_anti (·.interfaces.length)
              (List.subset_cons_self name seen) p.types
            obtain ⟨hq, hl⟩ := ih (name :: seen) queue (by omega)
            exact ⟨(hq.cons hr).of_unknown hunknown, fun u hu => (hl u hu).of_unknown hunknown⟩
          · rename_i w hw
            have hname : w.name = name := name_of_find? hw
            have hless := weightOutside_cons_add_le (·.interfaces.length) (hname ▸ hnew)
              (mem_of_find? hw)
            rw [hname] at hless
            obtain ⟨hq, hl⟩ := ih (name :: seen) (queue ++ w.interfaces)
              (by rw [List.length_append]; omega)
            obtain ⟨hq, hi⟩ := List.forall_mem_append.1 hq
            exact ⟨(ClosedOutside.cons hq hr).of_known hw,
              List.forall_mem_cons.2 ⟨ClosedOutside.of_known hi hw,
                fun u hu => (hl u hu).of_known hw⟩⟩

/-- **The chain of superclasses is complete.** With enough steps it goes on as long as superclass
references lead to types that it has not met. -/
theorem closedOutside_chainFrom {n : Nat} (seen : List String) (t : TypeDecl)
    (hn : weightOutside (fun _ => 1) seen p.types ≤ n) :
    p.ClosedOutside seen (p.chainFrom n seen t) t.superclass.toList ∧
      ∀ u ∈ p.chainFrom n seen t,
        p.ClosedOutside seen (p.chainFrom n seen t) u.superclass.toList := by
  induction n generalizing seen t with
  | zero =>
    refine ⟨fun r hr v hv => .inl ?_, by simp [chainFrom]⟩
    by_contra hnew
    have := weightOutside_cons_add_le (fun _ => 1) hnew (knows_of_resolve? hv).mem
    omega
  | succ n ih =>
    rw [chainFrom]
    split
    · rename_i hnone
      refine ⟨fun r hr v hv => ?_, by simp⟩
      cases hnone.symm.trans (superName?_of_resolve? (Option.mem_toList.1 hr) hv)
    · rename_i name hsome
      have hname {r : TypeRef} {v : TypeDecl} (hr : r ∈ t.superclass.toList)
          (hv : p.resolve? r = some v) : v.name = name :=
        Option.some.inj ((superName?_of_resolve? (Option.mem_toList.1 hr) hv).symm.trans hsome)
      split
      · rename_i hmet
        exact ⟨fun r hr v hv => .inl (hname hr hv ▸ hmet), by simp⟩
      · rename_i hnew
        split
        · rename_i hunknown
          refine ⟨fun r hr v hv => ?_, by simp⟩
          rw [← hname hr hv, (find?_of_resolve? hv).2] at hunknown
          cases hunknown
        · rename_i w hw
          have hless := weightOutside_cons_add_le (fun _ => 1) (name_of_find? hw ▸ hnew)
            (mem_of_find? hw)
          rw [name_of_find? hw] at hless
          obtain ⟨hfirst, hrest⟩ := ih (name :: seen) w (by omega)
          refine ⟨fun r hr v hv => .inr ?_, List.forall_mem_cons.2
            ⟨hfirst.of_known hw, fun u hu => (hrest u hu).of_known hw⟩⟩
          rw [(knows_of_resolve? hv).eq (knows_of_find? hw)
            ((hname hr hv).trans (name_of_find? hw).symm)]
          exact List.mem_cons_self

/-- The type and its known superclasses are closed under superclass references that lead to no type
of its name. -/
theorem mem_superclassChain (hname : v.name ≠ t.name) (hu : u ∈ t :: p.superclassChain t)
    {r : TypeRef} (hr : u.superclass = some r) (hv : p.resolve? r = some v) :
    v ∈ t :: p.superclassChain t := by
  have hsize : weightOutside (fun _ => 1) [t.name] p.types ≤ p.size :=
    (weightOutside_le ..).trans (by simp [size])
  obtain ⟨hroot, hchain⟩ := p.closedOutside_chainFrom [t.name] t hsize
  have hclosed : v.name ∈ [t.name] ∨ v ∈ p.superclassChain t := by
    rcases List.mem_cons.1 hu with rfl | hu
    · exact hroot r (Option.mem_toList.2 hr) v hv
    · exact hchain u hu r (Option.mem_toList.2 hr) v hv
  rcases hclosed with hmet | hmem
  · exact absurd (List.mem_singleton.1 hmet) hname
  · exact List.mem_cons_of_mem _ hmem

/-- The hierarchy is closed under references to interfaces of other names. -/
theorem mem_hierarchy_of_interface (hname : v.name ≠ t.name) (hu : u ∈ p.hierarchy t) {r : TypeRef}
    (hr : r ∈ u.interfaces) (hv : p.resolve? r = some v) : v ∈ p.hierarchy t := by
  have henough : ((t :: p.superclassChain t).flatMap (·.interfaces)).length +
      weightOutside (·.interfaces.length) ((t :: p.superclassChain t).map (·.name)) p.types ≤
        ((t :: p.superclassChain t).flatMap (·.interfaces)).length + p.interfaceCount := by
    refine Nat.add_le_add_left ((weightOutside_le ..).trans_eq ?_) _
    rw [interfaceCount, List.length_flatMap]
  obtain ⟨hqueue, hlisted⟩ := closedOutside_interfacesFrom _ _ henough
  rw [hierarchy] at hu ⊢
  have hclosed := (List.mem_append.1 hu).elim
    (fun hu => hqueue r (List.mem_flatMap.2 ⟨u, hu, hr⟩) v hv) fun hu => hlisted u hu r hr v hv
  rcases hclosed with hmet | hmem
  -- the name is that of a superclass that is listed, and the pool has one type for it
  · obtain ⟨w, hw, hsame⟩ := List.mem_map.1 hmet
    have hchain : w ∈ p.superclassChain t :=
      (List.mem_cons.1 hw).resolve_left fun h => hname (h ▸ hsame).symm
    have hknown : p.Knows w := by
      refine (reachesOutside_of_mem_chainFrom (List.Subset.refl _) hchain).reaches.eq_or_knows
        |>.resolve_left fun h => hname (h ▸ hsame).symm
    rw [(knows_of_resolve? hv).eq hknown hsame.symm]
    exact List.mem_append_left _ hw
  · exact List.mem_append_right _ hmem

/-- **The hierarchy is complete.** What is reached from a type by ways that do not come back to its
name is listed, if no interface that is met has a superclass. The pool need not know the type. -/
theorem mem_hierarchy_of_reachesOutside (hi : ∀ v, p.Reaches t v → ∀ r ∈ v.interfaces, ∀ w,
    p.resolve? r = some w → w.superclass = none) (h : p.ReachesOutside [t.name] t u) :
    u ∈ p.hierarchy t := by
  -- what is reached is one of the classes, or it has no superclass to go on with
  have hclass {v : TypeDecl} (hv : v ∈ t :: p.superclassChain t) : v ∈ p.hierarchy t :=
    List.mem_append_left _ hv
  suffices u ∈ t :: p.superclassChain t ∨ (u ∈ p.hierarchy t ∧ u.superclass = none) from
    this.elim hclass And.left
  induction h with
  | refl => exact .inl List.mem_cons_self
  | @tail v w hv hw ih =>
    obtain ⟨⟨r, hr, hres⟩, hname⟩ := hw
    rw [List.mem_singleton] at hname
    have hlisted : v ∈ p.hierarchy t := ih.elim hclass And.left
    rcases List.mem_append.1 hr with hr | hr
    · rw [Option.mem_toList] at hr
      rcases ih with hmem | ⟨-, hroot⟩
      · exact .inl (mem_superclassChain hname hmem hr hres)
      · rw [hroot] at hr
        cases hr
    · exact .inr ⟨mem_hierarchy_of_interface hname hlisted hr hres,
        hi v (show p.ReachesOutside [t.name] t v from hv).reaches r hr w hres⟩

/-- **The hierarchy of a type** is what is reached from it, if no interface that is met has a
superclass. -/
theorem mem_hierarchy_iff (ht : p.Knows t) (hi : ∀ v, p.Reaches t v → ∀ r ∈ v.interfaces, ∀ w,
    p.resolve? r = some w → w.superclass = none) : u ∈ p.hierarchy t ↔ p.Reaches t u := by
  refine ⟨fun h => (reachesOutside_of_mem_hierarchy h).reaches, fun h => ?_⟩
  have hfree : p.ReachesOutside [] t u :=
    Relation.ReflTransGen.mono (fun _ _ h => ⟨h, List.not_mem_nil⟩) _ _ h
  rcases hfree.cut ht with rfl | ⟨v, hv, hname, hvu⟩
  · exact mem_hierarchy_of_reachesOutside hi .refl
  · exact mem_hierarchy_of_reachesOutside hi (hvu.head ⟨hv, hname⟩)

/-- Whether the pool knows the type `sub`, and it is the type `super` or inherits from it. -/
def inherits (p : Pool) (sub super : String) : Bool := (p.find? sub).any (p.isSubtype · super)

theorem inherits_iff (ht : p.Knows t) (hs : ∀ v, p.Reaches t v → v.superclass = none)
    {name : String} : p.inherits t.name name = true ↔ ∃ u, p.Reaches t u ∧ u.name = name := by
  have root : t.superName? = none := by rw [TypeDecl.superName?, hs t .refl]; rfl
  rw [inherits, ht, Option.any_some, isSubtype, root]
  have hi : ∀ v, p.Reaches t v → ∀ r ∈ v.interfaces, ∀ w, p.resolve? r = some w →
      w.superclass = none := fun v hv r hr w hw => hs w (hv.tail (refers_of_interface hr hw))
  simp only [Bool.or_eq_true, decide_eq_true_eq, List.any_eq_true, mem_hierarchy_iff ht hi,
    reduceCtorEq, decide_false, Bool.false_eq_true, or_false]
  exact ⟨fun h => h.elim (fun h => ⟨t, .refl, h⟩) id, .inr⟩

end Pool

end ClassForge
