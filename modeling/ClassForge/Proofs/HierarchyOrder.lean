import ClassForge.Proofs.Supertypes

/-!
# The order of the hierarchy

The two walks behind a hierarchy are given a number of steps and a list of names that they have met.
Neither shows in what they list. The chain goes from a class to its superclass until it comes to one
that is unknown or has been met (`Pool.Ascends`), and behind it the interfaces stand level by level:
those that the classes mention, then those that these mention, and so on (`Pool.LevelByLevel`). Both
descriptions leave no choice, so a walk that fits them lists the same with any number of steps that
suffices.

The second walk knows nothing of levels. It works on a queue, in which the references of one level
stand before those of the next, so that it takes a whole level off the queue before it comes to the
references that this level has put behind (`Pool.interfacesFrom_append`).

## Main definitions

* `Pool.Ascends` — the superclasses of a type in turn
* `Pool.newTypes` — what references lead to, first mentions only
* `Pool.LevelByLevel` — the interfaces behind a level of types, breadth first

## Main results

* `Pool.ascends_superclassChain`, `Pool.levelByLevel_interfacesFrom` — what the walks list
* `Pool.hierarchy_is_breadth_first` — the hierarchy of a type, its order and its members
-/

namespace ClassForge.Pool

variable {p : Pool} {t u v : TypeDecl} {names seen : List String} {n : Nat}

/-! ### Superclasses in turn -/

/-- The superclass of a type, if the pool knows it. -/
def superclass? (p : Pool) (t : TypeDecl) : Option TypeDecl := t.superclass.bind p.resolve?

/-- These are the superclasses of a type in turn, up to one that is unknown or among the names,
which grow by each class that is met. -/
inductive Ascends (p : Pool) : List String → TypeDecl → List TypeDecl → Prop
  | stop {names : List String} {t : TypeDecl} (h : ∀ u, p.superclass? t = some u → u.name ∈ names) :
    Ascends p names t []
  | step {names : List String} {t u : TypeDecl} {us : List TypeDecl}
    (hu : p.superclass? t = some u) (hnew : u.name ∉ names)
    (hus : Ascends p (u.name :: names) u us) : Ascends p names t (u :: us)

namespace Ascends

variable {us ws : List TypeDecl}

/-- There is one way up. -/
theorem unique (h : p.Ascends names t us) (h' : p.Ascends names t ws) : us = ws := by
  induction h generalizing ws with
  | stop hend =>
    cases h' with
    | stop => rfl
    | step hu hnew => exact absurd (hend _ hu) hnew
  | step hu hnew _ ih =>
    cases h' with
    | stop hend => exact absurd (hend _ hu) hnew
    | step hu' _ hus =>
      obtain rfl := Option.some.inj (hu.symm.trans hu')
      rw [ih hus]

/-- No name is met twice. -/
theorem nodup (h : p.Ascends names t us) (hnames : names.Nodup) :
    (us.map (·.name) ++ names).Nodup := by
  induction h with
  | stop => exact hnames
  | step _ hnew _ ih =>
    rw [List.map_cons, List.cons_append, ← List.perm_middle.nodup_iff]
    exact ih (List.nodup_cons.2 ⟨hnew, hnames⟩)

end Ascends

theorem superclass?_eq (p : Pool) (t : TypeDecl) : p.superclass? t = t.superName?.bind p.find? := by
  rw [superclass?, TypeDecl.superName?, Option.bind_assoc]
  rfl

theorem Knows.of_superclass? (h : p.superclass? t = some u) : p.Knows u := by
  obtain ⟨r, -, hr⟩ := Option.bind_eq_some_iff.1 h
  exact knows_of_resolve? hr

theorem chainFrom_succ (p : Pool) (n : Nat) (seen : List String) (t : TypeDecl) :
    p.chainFrom (n + 1) seen t =
      match p.superclass? t with
      | none => []
      | some u => if u.name ∈ seen then [] else u :: p.chainFrom n (u.name :: seen) u := by
  rw [chainFrom, superclass?_eq]
  cases t.superName? with
  | none => rfl
  | some name =>
    dsimp only [Option.bind_some]
    cases hu : p.find? name with
    | none => simp
    | some u =>
      obtain rfl := name_of_find? hu
      rfl

/-- **The chain of superclasses goes up in turn**, given enough steps. -/
theorem ascends_chainFrom (seen : List String) (t : TypeDecl)
    (hn : weightOutside (fun _ => 1) seen p.types ≤ n) :
    p.Ascends seen t (p.chainFrom n seen t) := by
  induction n generalizing seen t with
  | zero =>
    refine .stop fun u hu => ?_
    by_contra hnew
    have := weightOutside_cons_add_le (fun _ => 1) hnew (Knows.of_superclass? hu).mem
    omega
  | succ n ih =>
    rw [chainFrom_succ]
    split
    · rename_i hnone
      exact .stop fun u hu => absurd (hnone.symm.trans hu) nofun
    · rename_i u hu
      split
      · rename_i hmet
        exact .stop fun v hv => Option.some.inj (hu.symm.trans hv) ▸ hmet
      · rename_i hnew
        have := weightOutside_cons_add_le (fun _ => 1) hnew (Knows.of_superclass? hu).mem
        exact .step hu hnew (ih _ _ (by omega))

/-! ### Interfaces level by level -/

/-- `u` is what a reference of `t` to an interface leads to. -/
def Mentions (p : Pool) (t u : TypeDecl) : Prop := ∃ r ∈ t.interfaces, p.resolve? r = some u

/-- The types that references lead to, each where it is mentioned first, the names aside. -/
def newTypes (p : Pool) : List String → List TypeRef → List TypeDecl
  | _, [] => []
  | names, r :: references =>
    match p.resolve? r with
    | none => p.newTypes names references
    | some u =>
      if u.name ∈ names then p.newTypes names references
      else u :: p.newTypes (u.name :: names) references

theorem mem_newTypes_iff {references : List TypeRef} :
    u ∈ p.newTypes names references ↔
      u.name ∉ names ∧ ∃ r ∈ references, p.resolve? r = some u := by
  induction references generalizing names with
  | nil => simp [newTypes]
  | cons r references ih =>
    rw [newTypes, List.exists_mem_cons_iff]
    cases hr : p.resolve? r with
    | none => simp [ih]
    | some w =>
      rw [Option.some.injEq]
      dsimp only
      split
      · rename_i hmet
        rw [ih]
        refine and_congr_right fun hnew => (or_iff_right fun hwu => hnew ?_).symm
        exact hwu ▸ hmet
      · rename_i hnew
        rw [List.mem_cons, ih, List.mem_cons, not_or]
        constructor
        · rintro (rfl | ⟨⟨-, hu⟩, hmention⟩)
          · exact ⟨hnew, .inl rfl⟩
          · exact ⟨hu, .inr hmention⟩
        · rintro ⟨hu, rfl | ⟨r', hr', hres⟩⟩
          · exact .inl rfl
          · -- a later mention of the name is a mention of the same type
            refine or_iff_not_imp_left.2 fun hother => ⟨⟨fun hname => hother ?_, hu⟩, r', hr', hres⟩
            exact (knows_of_resolve? hres).eq (knows_of_resolve? hr) hname

theorem nodup_newTypes (p : Pool) {names : List String} (hnames : names.Nodup)
    (references : List TypeRef) :
    ((p.newTypes names references).map (·.name) ++ names).Nodup := by
  induction references generalizing names with
  | nil => exact hnames
  | cons r references ih =>
    rw [newTypes]
    split
    · exact ih hnames
    · split
      · exact ih hnames
      · rename_i hnew
        rw [List.map_cons, List.cons_append, ← List.perm_middle.nodup_iff]
        exact ih (List.nodup_cons.2 ⟨hnew, hnames⟩)

/-- These are the interfaces behind a level of types, breadth first: those that it mentions, in the
order in which it mentions them, then the interfaces behind these. The names are left out, and they
grow by each level. -/
inductive LevelByLevel (p : Pool) : List String → List TypeDecl → List TypeDecl → Prop
  | last {names : List String} {level : List TypeDecl}
    (h : p.newTypes names (level.flatMap (·.interfaces)) = []) : LevelByLevel p names level []
  | next {names : List String} {level below rest : List TypeDecl}
    (h : p.newTypes names (level.flatMap (·.interfaces)) = below) (hbelow : below ≠ [])
    (hrest : LevelByLevel p (below.map (·.name) ++ names) below rest) :
    LevelByLevel p names level (below ++ rest)

namespace LevelByLevel

variable {level us ws : List TypeDecl}

/-- There is one such order. -/
theorem unique (h : p.LevelByLevel names level us) (h' : p.LevelByLevel names level ws) :
    us = ws := by
  induction h generalizing ws with
  | last hend =>
    cases h' with
    | last => rfl
    | next hbelow hsome => exact absurd (hbelow.symm.trans hend) hsome
  | next hbelow hsome _ ih =>
    cases h' with
    | last hend => exact absurd (hbelow.symm.trans hend) hsome
    | next hbelow' _ hrest =>
      obtain rfl := hbelow.symm.trans hbelow'
      rw [ih hrest]

/-- No name is met twice. -/
theorem nodup (h : p.LevelByLevel names level us) (hnames : names.Nodup) :
    (us.map (·.name) ++ names).Nodup := by
  induction h with
  | last => exact hnames
  | next hbelow _ _ ih =>
    subst hbelow
    rw [List.map_append, List.append_assoc, ← (List.perm_append_comm_assoc ..).nodup_iff]
    exact ih (p.nodup_newTypes hnames _)

/-- What is listed is mentioned by the level or by something listed before. -/
theorem exists_mentions (h : p.LevelByLevel names level us) {before after : List TypeDecl}
    (hu : us = before ++ u :: after) : ∃ v ∈ level ++ before, p.Mentions v u := by
  induction h generalizing before with
  | last => exact absurd hu (by simp)
  | @next _ level below rest hbelow _ _ ih =>
    -- `u` stands behind the level below, at its end, or in it
    rcases List.append_eq_append_iff.1 hu with ⟨middle, rfl, hrest⟩ | ⟨middle, hmiddle, hrest⟩
    · obtain ⟨v, hv, hmention⟩ := ih hrest
      exact ⟨v, List.mem_append_right _ hv, hmention⟩
    · cases middle with
      | nil =>
        obtain ⟨v, hv, hmention⟩ := @ih [] hrest.symm
        rw [List.append_nil] at hmiddle hv
        exact ⟨v, List.mem_append_right _ (hmiddle ▸ hv), hmention⟩
      | cons w middle =>
        obtain rfl : u = w := (List.cons.inj hrest).1
        have hmem : u ∈ below := hmiddle ▸ List.mem_append_right _ List.mem_cons_self
        obtain ⟨-, r, hr, hres⟩ := mem_newTypes_iff.1 (hbelow ▸ hmem)
        obtain ⟨v, hv, hr⟩ := List.mem_flatMap.1 hr
        exact ⟨v, List.mem_append_left _ hv, r, hr, hres⟩

/-- What is listed is reached from the level by mentions of other names. -/
theorem reached (h : p.LevelByLevel names level us) {name : String} (hname : name ∈ names)
    (hu : u ∈ us) :
    ∃ v ∈ level, Relation.ReflTransGen (fun v w => p.Mentions v w ∧ w.name ≠ name) v u := by
  induction h with
  | last => cases hu
  | next hbelow _ _ ih =>
    subst hbelow
    obtain ⟨w, hw, hreach⟩ : ∃ w ∈ p.newTypes _ _,
        Relation.ReflTransGen (fun v w => p.Mentions v w ∧ w.name ≠ name) w u := by
      rcases List.mem_append.1 hu with hu | hu
      · exact ⟨u, hu, .refl⟩
      · exact ih (List.mem_append_right _ hname) hu
    obtain ⟨hnew, r, hr, hres⟩ := mem_newTypes_iff.1 hw
    obtain ⟨v, hv, hr⟩ := List.mem_flatMap.1 hr
    have hother : w.name ≠ name := fun e => hnew (e ▸ hname)
    exact ⟨v, hv, hreach.head ⟨⟨r, hr, hres⟩, hother⟩⟩

end LevelByLevel

theorem mem_cons_iff_of_unknown {name : String} (hname : p.find? name = none) (hu : p.Knows u) :
    u.name ∈ name :: names ↔ u.name ∈ names := by
  rw [List.mem_cons, or_iff_right]
  rintro rfl
  cases hname.symm.trans hu

/-- Names that the pool does not know make no difference to the walk. -/
theorem interfacesFrom_congr {met : List String}
    (h : ∀ u, p.Knows u → (u.name ∈ seen ↔ u.name ∈ met)) (n : Nat) (queue : List TypeRef) :
    p.interfacesFrom n seen queue = p.interfacesFrom n met queue := by
  induction n generalizing seen met queue with
  | zero => rfl
  | succ n ih =>
    cases queue with
    | nil => rfl
    | cons r queue =>
      have hcons (name : String) (u : TypeDecl) (hu : p.Knows u) :
          u.name ∈ name :: seen ↔ u.name ∈ name :: met := by
        rw [List.mem_cons, List.mem_cons, h u hu]
      rw [interfacesFrom, interfacesFrom]
      cases r.rawName? with
      | none => exact ih h queue
      | some name =>
        dsimp only
        cases hname : p.find? name with
        | none =>
          have hskip (xs : List String) (u : TypeDecl) (hu : p.Knows u) :
              u.name ∈ name :: xs ↔ u.name ∈ xs := mem_cons_iff_of_unknown hname hu
          rw [ih (hskip seen), ih (hskip met), ite_self, ite_self]
          exact ih h queue
        | some w =>
          obtain rfl := name_of_find? hname
          simp only [h w (knows_of_find? hname), ih h queue, ih (hcons w.name)]

/-- One step of the walk. -/
theorem interfacesFrom_cons (p : Pool) (n : Nat) (seen : List String) (r : TypeRef)
    (queue : List TypeRef) :
    p.interfacesFrom (n + 1) seen (r :: queue) =
      match p.resolve? r with
      | none => p.interfacesFrom n seen queue
      | some u =>
        if u.name ∈ seen then p.interfacesFrom n seen queue
        else u :: p.interfacesFrom n (u.name :: seen) (queue ++ u.interfaces) := by
  rw [interfacesFrom, resolve?]
  cases r.rawName? with
  | none => rfl
  | some name =>
    dsimp only [Option.bind_some]
    cases hname : p.find? name with
    | none =>
      -- the walk notes the name as met, although there is nothing to list under it
      have hunknown : p.interfacesFrom n (name :: seen) queue = p.interfacesFrom n seen queue :=
        interfacesFrom_congr (fun _ hu => mem_cons_iff_of_unknown hname hu) n queue
      simp only [hunknown, ite_self]
    | some u =>
      obtain rfl := name_of_find? hname
      rfl

/-- **The walk takes a level off the queue** before it comes to what the level has put behind. -/
theorem interfacesFrom_append (p : Pool) (n : Nat) (seen : List String)
    (queue later : List TypeRef) :
    p.interfacesFrom (queue.length + n) seen (queue ++ later) =
      p.newTypes seen queue ++
        p.interfacesFrom n ((p.newTypes seen queue).map (·.name) ++ seen)
          (later ++ (p.newTypes seen queue).flatMap (·.interfaces)) := by
  induction queue generalizing seen later with
  | nil => simp [newTypes]
  | cons r queue ih =>
    rw [List.length_cons, Nat.add_right_comm, List.cons_append, interfacesFrom_cons, newTypes]
    cases p.resolve? r with
    | none => exact ih seen later
    | some u =>
      dsimp only
      split
      · exact ih seen later
      · rw [List.append_assoc, ih, List.flatMap_cons, ← List.append_assoc later, List.cons_append]
        congr 2
        exact interfacesFrom_congr (fun v _ => List.perm_middle.mem_iff) n _

/-- A level takes its weight out of what is left of the pool. -/
theorem weightOutside_newTypes_add_le (p : Pool) (weight : TypeDecl → Nat) (seen : List String)
    (references : List TypeRef) :
    weightOutside weight ((p.newTypes seen references).map (·.name) ++ seen) p.types +
      ((p.newTypes seen references).map weight).sum ≤ weightOutside weight seen p.types := by
  induction references generalizing seen with
  | nil => simp [newTypes]
  | cons r references ih =>
    rw [newTypes]
    split
    · exact ih seen
    · rename_i u hu
      split
      · exact ih seen
      · rename_i hnew
        have hfirst := weightOutside_cons_add_le weight hnew (knows_of_resolve? hu).mem
        have hrest := ih (u.name :: seen)
        have hsame : weightOutside weight
            ((u :: p.newTypes (u.name :: seen) references).map (·.name) ++ seen) p.types ≤ _ :=
          weightOutside_anti weight (List.perm_middle.subset) p.types
        simp only [List.map_cons, List.sum_cons] at hsame ⊢
        omega

/-- **The breadth-first walk lists level by level**, given enough steps. -/
theorem levelByLevel_interfacesFrom (seen : List String) (level : List TypeDecl)
    (hn : (level.flatMap (·.interfaces)).length +
      weightOutside (·.interfaces.length) seen p.types ≤ n) :
    p.LevelByLevel seen level (p.interfacesFrom n seen (level.flatMap (·.interfaces))) := by
  -- a queue may grow, but a level that lists anything takes names out of those that are not met yet
  induction hk : weightOutside (fun _ => 1) seen p.types using Nat.strong_induction_on
    generalizing n seen level with
  | _ k ih =>
    obtain ⟨m, rfl⟩ := Nat.exists_eq_add_of_le (Nat.le_of_add_right_le hn)
    have hstep := p.interfacesFrom_append m seen (level.flatMap (·.interfaces)) []
    rw [List.append_nil, List.nil_append] at hstep
    rw [hstep]
    by_cases hend : p.newTypes seen (level.flatMap (·.interfaces)) = []
    · have : p.interfacesFrom m seen [] = [] := by cases m <;> rfl
      simpa [hend, this] using .last hend
    · have hless := p.weightOutside_newTypes_add_le (fun _ => 1) seen
        (level.flatMap (·.interfaces))
      have henough := p.weightOutside_newTypes_add_le (·.interfaces.length) seen
        (level.flatMap (·.interfaces))
      have hpos := List.length_pos_iff.2 hend
      refine .next rfl hend (ih _ ?_ _ _ ?_ rfl)
      · rw [show ∀ us : List TypeDecl, (us.map fun _ => 1).sum = us.length by simp] at hless
        omega
      · rw [List.length_flatMap]
        omega

/-! ### The hierarchy -/

/-- The type and its known superclasses, nearest first. -/
def classes (p : Pool) (t : TypeDecl) : List TypeDecl := t :: p.superclassChain t

/-- The interfaces of a hierarchy, listed behind the classes. -/
def interfacesBehind (p : Pool) (t : TypeDecl) : List TypeDecl :=
  let queue := (p.classes t).flatMap (·.interfaces)
  p.interfacesFrom (queue.length + p.interfaceCount) ((p.classes t).map (·.name)) queue

theorem hierarchy_eq_append (p : Pool) (t : TypeDecl) :
    p.hierarchy t = p.classes t ++ p.interfacesBehind t := rfl

theorem ascends_of_size_le (t : TypeDecl) (hn : p.size ≤ n) :
    p.Ascends [t.name] t (p.chainFrom n [t.name] t) :=
  ascends_chainFrom _ _ ((weightOutside_le ..).trans (by simpa [size] using hn))

theorem ascends_superclassChain (p : Pool) (t : TypeDecl) :
    p.Ascends [t.name] t (p.superclassChain t) :=
  ascends_of_size_le t le_rfl

theorem levelByLevel_of_length_le (level : List TypeDecl)
    (hn : (level.flatMap (·.interfaces)).length + p.interfaceCount ≤ n) :
    p.LevelByLevel (level.map (·.name)) level
      (p.interfacesFrom n (level.map (·.name)) (level.flatMap (·.interfaces))) := by
  refine levelByLevel_interfacesFrom _ _ ((Nat.add_le_add_left ?_ _).trans hn)
  exact (weightOutside_le ..).trans_eq (by rw [interfaceCount, List.length_flatMap])

theorem levelByLevel_interfacesBehind (p : Pool) (t : TypeDecl) :
    p.LevelByLevel ((p.classes t).map (·.name)) (p.classes t) (p.interfacesBehind t) :=
  levelByLevel_of_length_le _ le_rfl

theorem nodup_classes (p : Pool) (t : TypeDecl) : ((p.classes t).map (·.name)).Nodup := by
  rw [classes, List.map_cons, ← List.perm_append_singleton _ _ |>.nodup_iff]
  exact (p.ascends_superclassChain t).nodup (by simp)

theorem nodup_hierarchy (p : Pool) (t : TypeDecl) : ((p.hierarchy t).map (·.name)).Nodup := by
  rw [hierarchy_eq_append, List.map_append, List.perm_append_comm.nodup_iff]
  exact (p.levelByLevel_interfacesBehind t).nodup (p.nodup_classes t)

/-- The interfaces of a hierarchy are the other types that are reached from the classes by
references to interfaces, around the name of the type. -/
theorem mem_interfacesBehind_iff :
    u ∈ p.interfacesBehind t ↔ u.name ∉ (p.classes t).map (·.name) ∧ ∃ v ∈ p.classes t,
      Relation.ReflTransGen (fun v w => p.Mentions v w ∧ w.name ≠ t.name) v u := by
  constructor
  · intro hu
    refine ⟨fun hname => ?_, (p.levelByLevel_interfacesBehind t).reached List.mem_cons_self hu⟩
    obtain ⟨-, -, hdisjoint⟩ := List.nodup_append.1
      ((p.levelByLevel_interfacesBehind t).nodup (p.nodup_classes t))
    exact hdisjoint _ (List.mem_map_of_mem hu) _ hname rfl
  · rintro ⟨hname, v, hv, hreach⟩
    have hlisted : u ∈ p.hierarchy t := by
      clear hname
      induction hreach with
      | refl => exact List.mem_append_left _ hv
      | tail _ hstep ih =>
        obtain ⟨⟨r, hr, hres⟩, hother⟩ := hstep
        exact mem_hierarchy_of_interface hother ih hr hres
    exact (List.mem_append.1 hlisted).resolve_left fun hu => hname (List.mem_map_of_mem hu)

/-- **The hierarchy of a type, exactly.** It starts with the type and its superclasses in turn, up
to one that is unknown or has been met. Behind them stand the other types that are reached from
there by references to interfaces, as far as the pool knows them: level by level, each name once,
and each behind one that mentions it. The steps that the two walks are given suffice. -/
theorem hierarchy_is_breadth_first (p : Pool) (t : TypeDecl) :
    ∃ interfaces, p.hierarchy t = t :: p.superclassChain t ++ interfaces ∧
      p.Ascends [t.name] t (p.superclassChain t) ∧
      p.LevelByLevel ((p.classes t).map (·.name)) (p.classes t) interfaces ∧
      ((p.hierarchy t).map (·.name)).Nodup ∧
      (∀ u, u ∈ interfaces ↔ u.name ∉ (p.classes t).map (·.name) ∧ ∃ v ∈ p.classes t,
        Relation.ReflTransGen (fun v w => p.Mentions v w ∧ w.name ≠ t.name) v u) ∧
      (∀ before u after, interfaces = before ++ u :: after →
        ∃ v ∈ p.classes t ++ before, p.Mentions v u) ∧
      (∀ n ≥ p.size, p.chainFrom n [t.name] t = p.superclassChain t) ∧
      ∀ n ≥ ((p.classes t).flatMap (·.interfaces)).length + p.interfaceCount,
        p.interfacesFrom n ((p.classes t).map (·.name)) ((p.classes t).flatMap (·.interfaces)) =
          interfaces := by
  have hchain := p.ascends_superclassChain t
  have hlevels := p.levelByLevel_interfacesBehind t
  refine ⟨p.interfacesBehind t, rfl, hchain, hlevels, p.nodup_hierarchy t,
    fun _ => mem_interfacesBehind_iff, fun _ _ _ => hlevels.exists_mentions, ?_, ?_⟩
  · exact fun n hn => (ascends_of_size_le t hn).unique hchain
  · exact fun n hn => (levelByLevel_of_length_le _ hn).unique hlevels

end ClassForge.Pool
