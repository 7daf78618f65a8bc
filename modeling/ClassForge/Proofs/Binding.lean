import ClassForge.Proofs.Preparation

/-!
# Which entry a method ends up with

Entries are filled in four phases: captured helpers, families, methods of no family, and the type
initializer. The phases share one map, so the question is who comes first. The first three only
ever add what is not there yet, and the first to add an entry for an identity decides:

* a family does so through its representative, by a rule or by a visibility bridge;
* a method of no family by a rule only;
* the type initializer is the one that replaces what it finds, and only under its own name.

With `Scene.familyBinding?` and `Scene.memberBinding?` for what a family and a method of no family
would add if nothing was there, the entry of a method is what the helpers left, or else the first
family entry of its identity, or else its own.

## Main results

* `Registry.Scene.get?_bindNodes` — the entries after the families were offered
* `Registry.Scene.get?_bindMembers` — the entries after the other methods were offered too
* `Registry.Prepares.get?_entries` — the entry of a method after a preparation
-/

namespace ClassForge.Registry

namespace Scene

/-- Whether a rule may claim the method, leaving aside whether it has an entry already. -/
def admits (s : Scene) (m : Method) : Bool :=
  s.pool.isTypeVisible s.type m.returnType &&
    m.parameters.all (fun p => s.pool.isTypeVisible s.type p.type) && s.claimable.accepts s.pool m

/-- The rule that claims the method, unless it has an entry already. -/
def claim? (s : Scene) (m : Method) : Option Rule := if s.admits m then s.ruleFor? m else none

/-- What a family adds, unless its representative has an entry already. -/
def nodeBinding? (s : Scene) (node : Node) : Option Entry :=
  match s.claim? node.representative with
  | some r => some (.ofRule r node.representative node.types node.visibility)
  | none => if s.needsBridge node then some (.ofBridge node) else none

/-- What the first family with a representative of that identity adds. -/
def familyBinding? (s : Scene) (nodes : List Node) (k : MethodIdentity) : Option Entry :=
  nodes.findSome? fun node => if node.representative.identity = k then s.nodeBinding? node else none

/-- What a method of no family adds, unless it has an entry already. -/
def memberBinding? (s : Scene) (m : Method) : Option Entry :=
  (s.claim? m).map fun r => .ofRule r m [] m.visibility

theorem offers_eq (s : Scene) (es : Entries) (m : Method) :
    s.offers es m = ((es.get? m.identity).isNone && s.admits m) := by
  simp [offers, admits, OrderedMap.contains, Bool.and_assoc]

/-! ### Families -/

/-- A family adds what a rule says that claims its representative, or else a visibility bridge. -/
theorem nodeBinding?_eq_some_iff {s : Scene} {node : Node} {e : Entry} :
    s.nodeBinding? node = some e ↔
      (∃ r, s.claim? node.representative = some r ∧
        e = .ofRule r node.representative node.types node.visibility) ∨
      s.claim? node.representative = none ∧ s.needsBridge node = true ∧ e = .ofBridge node := by
  unfold nodeBinding?
  cases s.claim? node.representative with
  | some r =>
    simp only [Option.some.injEq, exists_eq_left', reduceCtorEq, false_and, or_false]
    exact eq_comm
  | none =>
    simp only [reduceCtorEq, false_and, exists_false, false_or, true_and,
      Option.ite_none_right_eq_some, Option.some.injEq]
    exact and_congr_right fun _ => eq_comm

/-- What is added for an identity, one of its families adds. -/
theorem exists_of_familyBinding? {s : Scene} {nodes : List Node} {k : MethodIdentity} {e : Entry}
    (h : s.familyBinding? nodes k = some e) :
    ∃ node ∈ nodes, node.representative.identity = k ∧ s.nodeBinding? node = some e := by
  obtain ⟨node, hnode, h⟩ := List.exists_of_findSome?_eq_some h
  split at h
  · exact ⟨node, hnode, ‹_›, h⟩
  · cases h

theorem get?_bindNode (s : Scene) (es : Entries) (node : Node) (k : MethodIdentity) :
    (s.bindNode es node).get? k =
      (es.get? k).or (if node.representative.identity = k then s.nodeBinding? node else none) := by
  unfold bindNode nodeBinding? claim?
  simp only [offers_eq, OrderedMap.contains]
  rcases Option.eq_none_or_eq_some (es.get? node.representative.identity) with he | ⟨old, he⟩
  · have hbind : ∀ e : Entry, e.source = node.representative → (es.bind e).get? k =
        (es.get? k).or (if node.representative.identity = k then some e else none) := by
      intro e hs
      rw [Entries.get?_bind_of_none (by rw [hs, he]), hs]
      by_cases hk : k = node.representative.identity
      · subst hk
        simp [he]
      · simp [hk, Ne.symm hk]
    simp only [he, Option.isNone_none, Bool.true_and]
    cases (if s.admits node.representative then s.ruleFor? node.representative else none) with
    | some r => exact hbind _ rfl
    | none =>
      by_cases hb : s.needsBridge node = true
      · simpa [hb] using hbind (.ofBridge node) rfl
      · simp [hb]
  · by_cases hk : node.representative.identity = k
    · subst hk
      simp [he]
    · simp [he, hk]

/-- **Families, once all of them were offered.** What is there stays, and of several families with
one representative the first decides. -/
theorem get?_bindNodes (s : Scene) (nodes : List Node) (es : Entries) (k : MethodIdentity) :
    (nodes.foldl s.bindNode es).get? k = (es.get? k).or (s.familyBinding? nodes k) := by
  induction nodes generalizing es with
  | nil => simp [familyBinding?]
  | cons node nodes ih =>
    rw [List.foldl_cons, ih, get?_bindNode, Option.or_assoc, familyBinding?, familyBinding?,
      List.findSome?_cons]
    congr 1
    cases (if node.representative.identity = k then s.nodeBinding? node else none) <;> rfl

/-- An entry was there before the families were offered, or one of them added it. -/
theorem bindNodes_cases {s : Scene} {es : Entries} {g : MethodGraph} {k : MethodIdentity}
    {e : Entry} (h : (s.bindNodes es g).get? k = some e) :
    es.get? k = some e ∨
      ∃ node ∈ g.values, node.representative.identity = k ∧ s.nodeBinding? node = some e := by
  rw [bindNodes, get?_bindNodes, Option.or_eq_some_iff] at h
  exact h.imp_right fun h => exists_of_familyBinding? h.2

/-! ### Methods of no family -/

/-- An entry was there before the method was offered, or a rule that matches the method made it.
An entry that takes the place of another stands for what that one stood for. -/
theorem bindMethod_cases {s : Scene} {es : Entries} {m : Method} {k : MethodIdentity} {e : Entry}
    (h : (s.bindMethod es m).get? k = some e) :
    es.get? k = some e ∨ k = m.identity ∧ ∃ r, s.ruleFor? m = some r ∧
      e = { Entry.ofRule r m [] m.visibility with source := e.source } ∧
      (e.source = m ∨ ∃ old, es.get? k = some old ∧ e.source = old.source) := by
  unfold bindMethod at h
  split at h
  · rename_i r hr
    rw [Entries.get?_bind] at h
    split at h
    · obtain rfl := Option.some.inj h
      refine .inr ⟨‹_›, r, hr, ?_⟩
      cases es.get? k with
      | none => exact ⟨rfl, .inl rfl⟩
      | some old => exact ⟨rfl, .inr ⟨old, rfl, rfl⟩⟩
    · exact .inl h
  · exact .inl h

/-- **An entry once methods were offered** was there before, or a rule that matches one of them made
it. Then it stands for one of them, or for what an earlier entry stood for. -/
theorem foldl_bindMethod_cases {s : Scene} {es : Entries} {ms : List Method} {k : MethodIdentity}
    {e : Entry} (h : (ms.foldl s.bindMethod es).get? k = some e) :
    es.get? k = some e ∨
      (∃ m ∈ ms, m.identity = k ∧ ∃ r, s.ruleFor? m = some r ∧
        e = { Entry.ofRule r m [] m.visibility with source := e.source }) ∧
        (e.source ∈ ms ∨ ∃ old, es.get? k = some old ∧ e.source = old.source) := by
  induction ms generalizing es with
  | nil => exact .inl h
  | cons m ms ih =>
    rcases ih h with h | ⟨⟨n, hn, hrule⟩, hsource⟩
    · rcases bindMethod_cases h with h | ⟨hk, r, hr, he, hsource⟩
      · exact .inl h
      · exact .inr ⟨⟨m, List.mem_cons_self, hk.symm, r, hr, he⟩,
          hsource.imp_left fun (hm : e.source = m) => hm ▸ List.mem_cons_self⟩
    · refine .inr ⟨⟨n, List.mem_cons_of_mem _ hn, hrule⟩, ?_⟩
      rcases hsource with hmem | ⟨next, hnext, hsource⟩
      · exact .inl (List.mem_cons_of_mem _ hmem)
      · rcases bindMethod_cases hnext with hold | ⟨-, -, -, -, hm⟩
        · exact .inr ⟨next, hold, hsource⟩
        · rw [hsource]
          exact hm.imp_left fun (hm : next.source = m) => hm ▸ List.mem_cons_self

theorem get?_bindMethod_of_ne (s : Scene) (es : Entries) {m : Method} {k : MethodIdentity}
    (h : m.identity ≠ k) : (s.bindMethod es m).get? k = es.get? k := by
  unfold bindMethod
  split
  · rw [Entries.get?_bind, Entry.source_ofRule, if_neg (Ne.symm h)]
  · rfl

theorem get?_bindMethod_self (s : Scene) {es : Entries} {m : Method}
    (h : es.get? m.identity = none) :
    (s.bindMethod es m).get? m.identity =
      (s.ruleFor? m).map fun r => .ofRule r m [] m.visibility := by
  unfold bindMethod
  cases s.ruleFor? m with
  | none => exact h
  | some r => simp [Entries.get?_bind_of_none, h]

theorem get?_foldl_bindMethod_of_notMem (s : Scene) (ms : List Method) (es : Entries)
    {k : MethodIdentity} (h : k ∉ ms.map (·.identity)) :
    (ms.foldl s.bindMethod es).get? k = es.get? k := by
  induction ms generalizing es with
  | nil => rfl
  | cons m ms ih =>
    rw [List.map_cons, List.mem_cons, not_or] at h
    rw [List.foldl_cons, ih _ h.2, get?_bindMethod_of_ne s es (Ne.symm h.1)]

/-- Different methods without entries do not get in each other's way. -/
theorem get?_foldl_bindMethod_of_mem (s : Scene) {ms : List Method} {es : Entries}
    (hn : (ms.map (·.identity)).Nodup) {m : Method} (hm : m ∈ ms)
    (h : es.get? m.identity = none) :
    (ms.foldl s.bindMethod es).get? m.identity =
      (s.ruleFor? m).map fun r => .ofRule r m [] m.visibility := by
  induction ms generalizing es with
  | nil => cases hm
  | cons n ms ih =>
    rw [List.map_cons, List.nodup_cons] at hn
    rw [List.foldl_cons]
    rcases List.mem_cons.1 hm with rfl | hm
    · rw [get?_foldl_bindMethod_of_notMem s ms _ hn.1, get?_bindMethod_self s h]
    · have hne : n.identity ≠ m.identity := fun heq => hn.1 (heq ▸ List.mem_map_of_mem hm)
      exact ih hn.2 hm (by rw [get?_bindMethod_of_ne s es hne, h])

/-- The declared methods that are in no family, without the type initializer. -/
def members (t : TypeDecl) : List Method :=
  t.methods.filter fun m => !m.isVirtual && !m.isTypeInitializer

theorem nonVirtual_eq (s : Scene) (es : Entries) :
    s.nonVirtual es =
      (members s.type).filter (s.offers es) ++ [.typeInitializer s.type.name] := by
  rw [nonVirtual, members, List.filter_filter]
  congr 2
  funext m
  rw [Bool.and_comm]

theorem get?_bind_typeInitializer (s : Scene) (es : Entries) {k : MethodIdentity}
    (hk : k.name ≠ typeInitializerName) :
    (s.bindMethod es (.typeInitializer s.type.name)).get? k = es.get? k :=
  get?_bindMethod_of_ne s es fun h => hk (h ▸ rfl)

/-- The type initializer aside, the members are offered that have no entry. -/
theorem get?_foldl_nonVirtual (s : Scene) (es : Entries) {k : MethodIdentity}
    (hk : k.name ≠ typeInitializerName) :
    ((s.nonVirtual es).foldl s.bindMethod es).get? k =
      (((members s.type).filter (s.offers es)).foldl s.bindMethod es).get? k := by
  rw [nonVirtual_eq, List.foldl_append, List.foldl_cons, List.foldl_nil,
    get?_bind_typeInitializer s _ hk]

/-- The type initializer aside, members leave the entries alone that are there. -/
theorem get?_bindMembers_of_some (s : Scene) {es : Entries} {k : MethodIdentity}
    (hk : k.name ≠ typeInitializerName) {e : Entry} (he : es.get? k = some e) :
    ((s.nonVirtual es).foldl s.bindMethod es).get? k = some e := by
  rw [get?_foldl_nonVirtual s es hk, get?_foldl_bindMethod_of_notMem, he]
  intro hmem
  obtain ⟨m, hm, rfl⟩ := List.mem_map.1 hmem
  have hoffer := (List.mem_filter.1 hm).2
  rw [offers_eq, he] at hoffer
  cases hoffer

/-- **Methods of no family, once all of them were offered.** If no method is declared twice, each
of them gets what it adds itself, unless its identity has an entry already. -/
theorem get?_bindMembers (s : Scene) (es : Entries)
    (hn : (s.type.methods.map (·.identity)).Nodup) {m : Method}
    (hi : m.isTypeInitializer = false)
    (hsole : ∀ n ∈ members s.type, n.identity = m.identity → n = m) :
    ((s.nonVirtual es).foldl s.bindMethod es).get? m.identity =
      (es.get? m.identity).or (if m ∈ members s.type then s.memberBinding? m else none) := by
  have hname : m.identity.name ≠ typeInitializerName := by
    rw [Method.name_identity]
    simpa [Method.isTypeInitializer] using hi
  rw [get?_foldl_nonVirtual s es hname]
  by_cases hoffer : m ∈ members s.type ∧ s.offers es m = true
  · obtain ⟨hm, ho⟩ := hoffer
    have hpair : es.get? m.identity = none ∧ s.admits m = true := by
      simpa [offers_eq] using ho
    have hnodup : (((members s.type).filter (s.offers es)).map (·.identity)).Nodup :=
      hn.sublist ((List.filter_sublist.trans List.filter_sublist).map _)
    rw [get?_foldl_bindMethod_of_mem s hnodup (List.mem_filter.2 ⟨hm, ho⟩) hpair.1, if_pos hm]
    simp [memberBinding?, claim?, hpair]
  · -- no method of the identity is offered, since the only one there could be is `m`
    rw [get?_foldl_bindMethod_of_notMem]
    · by_cases hm : m ∈ members s.type
      · have ho : s.offers es m = false := by simpa [hm] using hoffer
        rw [offers_eq] at ho
        cases he : es.get? m.identity with
        | some e => simp
        | none =>
          have hadmit : s.admits m = false := by simpa [he] using ho
          simp [memberBinding?, claim?, hadmit]
      · simp [hm]
    · intro hmem
      obtain ⟨n, hn', heq⟩ := List.mem_map.1 hmem
      obtain ⟨hmember, ho⟩ := List.mem_filter.1 hn'
      obtain rfl := hsole n hmember heq
      exact hoffer ⟨hmember, ho⟩

end Scene

/-- **The entry of a method after a preparation**: what the helpers left, or else what the first
family of its identity adds, or else what it adds itself. The type initializer comes after all of
them and is left aside, and so are methods that share their identity with a declared one. -/
theorem Prepares.get?_entries {r : Registry} {d : Draft} {scope : GraphScope} {p : Pool}
    {claimable : LatentMatcher} {s : Progress} {q : PreparedRegistry}
    (h : r.Prepares d scope p claimable s q) (hq : q.draft.decl.check p = .ok ()) {m : Method}
    (hi : m.isTypeInitializer = false)
    (hsole : ∀ n ∈ Scene.members q.draft.decl, n.identity = m.identity → n = m) :
    q.entries.get? m.identity =
      ((s.entries.get? m.identity).or
        ((r.scene p claimable q.draft.decl).familyBinding? q.graph.graph.values m.identity)).or
        (if m ∈ Scene.members q.draft.decl then
          (r.scene p claimable q.draft.decl).memberBinding? m else none) := by
  have hmembers := Scene.get?_bindMembers (r.scene p claimable q.draft.decl)
    ((r.scene p claimable q.draft.decl).bindNodes s.entries q.graph.graph)
    (TypeDecl.identities_nodup hq) hi hsole
  rw [h.entries]
  exact hmembers.trans (by rw [Scene.bindNodes, Scene.get?_bindNodes]; rfl)

end ClassForge.Registry
