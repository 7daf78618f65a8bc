import ClassForge.Plan.Build
import ClassForge.Proofs.Unbound
import Mathlib.Data.Option.Basic

/-!
# The last interception wins

A plan lists interceptions, and each becomes a rule in front of those that are there already: the
definitions of the plan, and the interceptions that come before it. The rule for constructors is
put behind all of them. So whatever a plan defines, the rules begin with its interceptions, last one
first (`Plan.rules_of_subclass`), and for an ordinary method the first rule that matches is the last
interception whose criteria the method satisfies (`Interception.find?_of_yields`).

The criteria of an interception are the name of a method, the type that declares it and the number
of its parameters, and these are part of what identifies the method. Methods of one identity
therefore satisfy the same interceptions, and it does no harm that entries are kept by identity: to
whichever of them the entry is owed, it is bound to the same interception. The one exception is an
entry that is owed to no rule at all. If a method may not be claimed and has to be exposed, its
visibility bridge stands for all methods of the identity (`Plan.interceptions_miss_methods`).

The rule of an interception accepts ordinary methods only, so no constructor and no type initializer
is bound to it. A helper may be named like one of them, and then belongs to the handler that brought
it in.

## Main definitions

* `Subclass.Prepared` — the rules of a class were applied to its draft
* `Interception.Meets` — the method satisfies all criteria that are present
* `Interception.rule` — what an interception becomes

## Main results

* `Plan.rules_of_subclass` — the rules of a plan begin with its interceptions, last one first
* `Registry.Prepares.get?_cases` — an entry that no handler brought in
* `Plan.last_interception_wins` — what interceptions decide, and what they have no part in
-/

namespace ClassForge

/-! ### Preparing a class -/

namespace Subclass

/-- The rules of the class, with the one for its constructors behind the others. -/
def rules (s : Subclass) : Registry := s.config.constructors.inject s.registry

/-- The rules of the class were applied to its draft with constructors, and came out as `q`. -/
structure Prepared (s : Subclass) (d : Draft) (q : PreparedRegistry) : Prop where
  draft : s.withConstructors = .ok d
  registry : s.rules.prepare d s.config.scope s.config.validate s.pool
    (.instrumentable s.ignored) = .ok q

/-- That is what the methods of a class are planned from. -/
theorem compile_eq_ok_iff {s : Subclass} {c : CompiledRegistry} :
    s.compile = .ok c ↔ ∃ d q, s.Prepared d q ∧ c = q.compile s.config.release := by
  unfold compile
  rw [bind_eq_ok_iff]
  refine exists_congr fun d => ?_
  rw [bind_eq_ok_iff, ← exists_and_left]
  refine exists_congr fun q => ?_
  constructor
  · rintro ⟨hd, hq, hc⟩
    exact ⟨⟨hd, hq⟩, (Except.ok.inj hc).symm⟩
  · rintro ⟨⟨hd, hq⟩, rfl⟩
    exact ⟨hd, hq, rfl⟩

/-- A class is prepared, and a test holds of the outcome. -/
theorem exists_prepared_of_any {s : Subclass} {tokens : List MethodToken}
    {f : PreparedRegistry → Bool} (hi : s.draft.decl.isInterface = false)
    (ht : s.config.constructors.tokens s.draft.decl s.pool = .ok tokens)
    (hf : (s.rules.prepare (tokens.foldl Draft.addMethod s.draft) s.config.scope s.config.validate
      s.pool (.instrumentable s.ignored)).toOption.any f = true) :
    ∃ q, s.Prepared (tokens.foldl Draft.addMethod s.draft) q ∧ f q = true := by
  obtain ⟨q, hq, hf⟩ := exists_ok_of_any hf
  refine ⟨q, ⟨?_, hq⟩, hf⟩
  rw [withConstructors, hi, ht]
  rfl

end Subclass

/-! ### Criteria -/

theorem Method.isOrdinary_of_identity_eq {m n : Method} (h : n.identity = m.identity) :
    n.isOrdinary = m.isOrdinary := by
  have hname : n.name = m.name := congrArg (·.name) h
  simp only [isOrdinary, isConstructor, isTypeInitializer, hname]

theorem Method.isOrdinary_of_isVirtual {m : Method} (h : m.isVirtual = true) :
    m.isOrdinary = true := by
  simp only [isVirtual, Bool.and_eq_true] at h
  exact h.1.1

theorem MethodMatcher.accepts_foldl_and (p : Pool) (x : Method) (c : MethodMatcher)
    (cs : List MethodMatcher) :
    (cs.foldl .and c).accepts p x = (c :: cs).all (·.accepts p x) := by
  induction cs generalizing c with
  | nil => simp
  | cons d cs ih => simp [ih, Bool.and_assoc]

namespace Interception

/-- The method satisfies all criteria of the interception that are present. -/
structure Meets (i : Interception) (m : Method) : Prop where
  name : ∀ name ∈ i.name, m.name = name
  start : ∀ start ∈ i.start, start.toList <+: m.name.toList
  owner : ∀ owner ∈ i.owner, m.owner = owner
  arity : ∀ count ∈ i.arity, m.parameters.length = count

instance (i : Interception) (m : Method) : Decidable (i.Meets m) :=
  decidable_of_iff
    ((∀ name ∈ i.name, m.name = name) ∧ (∀ start ∈ i.start, start.toList <+: m.name.toList) ∧
      (∀ owner ∈ i.owner, m.owner = owner) ∧ ∀ count ∈ i.arity, m.parameters.length = count)
    ⟨fun h => ⟨h.1, h.2.1, h.2.2.1, h.2.2.2⟩, fun h => ⟨h.name, h.start, h.owner, h.arity⟩⟩

/-- The rule of the interception, once its implementation is known. -/
def rule (i : Interception) (implementation : Implementation) : Rule where
  matcher := .resolved (.and .isOrdinary i.matcher)
  handler := .implement implementation

/-- What the interception becomes. -/
def Yields (i : Interception) (r : Rule) : Prop :=
  ∃ implementation, i.implementation.implementation = .ok implementation ∧
    r = i.rule implementation

variable {i : Interception} {m n : Method} {p : Pool}

theorem Yields.unique {r r' : Rule} (h : i.Yields r) (h' : i.Yields r') : r = r' := by
  obtain ⟨implementation, hi, rfl⟩ := h
  obtain ⟨other, hother, rfl⟩ := h'
  obtain rfl := Except.ok.inj (hi.symm.trans hother)
  rfl

/-- **The predicate of an interception** accepts the methods that satisfy its criteria. -/
theorem accepts_matcher_iff : i.matcher.accepts p m = true ↔ i.Meets m := by
  have hconditions : i.matcher.accepts p m = i.conditions.all (·.accepts p m) := by
    unfold matcher
    cases i.conditions with
    | nil => rfl
    | cons c cs => exact MethodMatcher.accepts_foldl_and p m c cs
  rw [hconditions, conditions]
  simp only [List.all_append, Bool.and_eq_true, List.all_eq_true, Option.mem_toList,
    Option.map_eq_some_iff, forall_exists_index, and_imp, forall_apply_eq_imp_iff₂,
    MethodMatcher.accepts, decide_eq_true_eq, List.isPrefixOf_iff_prefix]
  exact ⟨fun h => ⟨h.1.1.1, h.1.1.2, h.1.2, h.2⟩, fun h => ⟨⟨⟨h.name, h.start⟩, h.owner⟩, h.arity⟩⟩

theorem Meets.of_identity_eq (h : i.Meets m) (hk : n.identity = m.identity) : i.Meets n where
  name := (congrArg (·.name) hk : n.name = m.name) ▸ h.name
  start := (congrArg (·.name) hk : n.name = m.name) ▸ h.start
  owner := (congrArg (·.owner) hk : n.owner = m.owner) ▸ h.owner
  arity := by
    have herased : n.erasedParameterTypes = m.erasedParameterTypes :=
      congrArg (·.parameterTypes) hk
    have hlength : n.parameters.length = m.parameters.length := by
      simpa [Method.erasedParameterTypes] using congrArg List.length herased
    exact hlength ▸ h.arity

/-- Methods of one identity satisfy the same criteria. -/
theorem meets_iff_of_identity_eq (hk : n.identity = m.identity) : i.Meets n ↔ i.Meets m :=
  ⟨(·.of_identity_eq hk.symm), (·.of_identity_eq hk)⟩

theorem accepts_rule_iff {implementation : Implementation} {t : TypeDecl} :
    ((i.rule implementation).matcher.resolve t).accepts p m = true ↔
      m.isOrdinary = true ∧ i.Meets m := by
  simp [rule, LatentMatcher.resolve, MethodMatcher.accepts, accepts_matcher_iff]

/-! ### The rules of a plan -/

variable {interceptions : List Interception} {rules : List Rule} {t : TypeDecl}

/-- Where rules stand for interceptions, the first rule that matches an ordinary method stands for
the first interception whose criteria the method satisfies. -/
theorem find?_of_yields (h : List.Forall₂ Yields interceptions rules) (hm : m.isOrdinary = true)
    (hi : interceptions.find? (·.Meets m) = some i) :
    ∃ r, i.Yields r ∧ rules.find? (fun r => (r.matcher.resolve t).accepts p m) = some r := by
  induction h with
  | nil => cases hi
  | @cons j r interceptions rules hr _ ih =>
    obtain ⟨implementation, -, rfl⟩ := id hr
    have haccepts : ((j.rule implementation).matcher.resolve t).accepts p m =
        decide (j.Meets m) := by
      rw [Bool.eq_iff_iff, accepts_rule_iff, decide_eq_true_iff]
      exact and_iff_right hm
    rw [List.find?_cons] at hi ⊢
    rw [haccepts]
    by_cases hmeets : j.Meets m
    · simp only [hmeets, decide_true] at hi ⊢
      obtain rfl := Option.some.inj hi
      exact ⟨_, hr, rfl⟩
    · simp only [hmeets, decide_false] at hi ⊢
      exact ih hi

/-- Each interception puts its rule in front of the others. -/
theorem rules_of_foldlM : {interceptions : List Interception} → {s s' : Subclass} →
    interceptions.foldlM define s = .ok s' →
      ∃ rules, List.Forall₂ Yields interceptions rules ∧
        s'.registry.rules = rules.reverse ++ s.registry.rules
  | [], _, _, h => ⟨[], .nil, by rw [← Except.ok.inj h]; rfl⟩
  | i :: interceptions, s, s', h => by
    rw [List.foldlM_cons] at h
    obtain ⟨next, hnext, h⟩ := ok_of_bind h
    obtain ⟨implementation, himplementation, hnext⟩ := ok_of_bind hnext
    obtain rfl := Except.ok.inj hnext
    obtain ⟨rules, hrules, h⟩ := rules_of_foldlM h
    refine ⟨i.rule implementation :: rules, .cons ⟨_, himplementation, rfl⟩ hrules, ?_⟩
    rw [h, List.reverse_cons, List.append_assoc]
    rfl

end Interception

theorem Subclass.registry_foldl_ignoreAlso (ms : List LatentMatcher) (s : Subclass) :
    (ms.foldl ignoreAlso s).registry = s.registry := by
  induction ms generalizing s with
  | nil => rfl
  | cons m ms ih => exact ih (s.ignoreAlso m)

/-- **The rules of a plan** begin with those of its interceptions, last one first. -/
theorem Plan.rules_of_subclass {plan : Plan} {s : Subclass} (h : plan.subclass = .ok s) :
    ∃ rules others, List.Forall₂ Interception.Yields plan.target.interceptions rules ∧
      s.registry.rules = rules.reverse ++ others := by
  unfold subclass at h
  obtain ⟨_, -, h⟩ := ok_of_bind h
  obtain ⟨_, -, h⟩ := ok_of_bind h
  obtain ⟨defined, -, h⟩ := ok_of_bind h
  obtain ⟨intercepted, hintercepted, h⟩ := ok_of_bind h
  obtain rfl := Except.ok.inj h
  obtain ⟨rules, hrules, heq⟩ := Interception.rules_of_foldlM hintercepted
  refine ⟨rules, defined.registry.rules, hrules, ?_⟩
  rw [← heq, ← List.foldl_map, Subclass.registry_foldl_ignoreAlso]

/-! ### Entries -/

namespace Registry

variable {r : Registry} {d : Draft} {scope : GraphScope} {validate : Bool} {p : Pool}
  {claimable : LatentMatcher} {s : Progress} {q : PreparedRegistry} {k : MethodIdentity} {e : Entry}
  {m : Method}

/-- A method that was looked at is a candidate, if it is not the type initializer. -/
theorem Prepares.mem_candidates_of_mem_methods (h : r.Prepares d scope p claimable s q)
    (hm : m ∈ q.methods) (hordinary : m.isOrdinary = true) : m ∈ q.candidates := by
  rw [h.methods] at hm
  rcases List.mem_append.1 hm with hm | hm
  · exact List.mem_append_left _ hm
  · rw [Scene.nonVirtual_eq] at hm
    rcases List.mem_append.1 hm with hm | hm
    · exact List.mem_append_right _ (List.mem_filter.1 hm).1
    · obtain rfl := List.mem_singleton.1 hm
      cases hordinary

/-- **An entry that no handler brought in** is made by the first rule that matches a method of the
identity, or exposes a family of the identity that no rule claims. -/
theorem Prepares.get?_cases (h : r.Prepares d scope p claimable s q)
    (hg : ¬d.Gains q.draft k) (he : q.entries.get? k = some e) :
    (∃ n ∈ q.methods, n.identity = k ∧ ∃ rule, r.firstRule? p q.draft.decl n = some rule ∧
      e.handler = rule.handler ∧ e.isBridge = false) ∨
    ∃ node ∈ q.graph.graph.values, node.representative.identity = k ∧
      (r.scene p claimable q.draft.decl).claim? node.representative = none ∧
        e = .ofBridge node := by
  have hcaptured : s.entries.get? k = none := by
    rw [← Option.not_isSome_iff_eq_none, h.sound.captured, ← h.draft]
    exact hg
  rw [h.entries] at he
  rw [h.methods]
  rcases Scene.foldl_bindMethod_cases he with he | ⟨⟨n, hn, hk, rule, hrule, he⟩, -⟩
  · rcases Scene.bindNodes_cases he with he | ⟨node, hnode, hk, hbinding⟩
    · rw [hcaptured] at he
      cases he
    · rcases Scene.nodeBinding?_eq_some_iff.1 hbinding with ⟨rule, hclaim, rfl⟩ | ⟨hclaim, -, rfl⟩
      · exact .inl ⟨node.representative, List.mem_append_left _ (List.mem_map_of_mem hnode), hk,
          rule, (Scene.claim?_scene_eq_some_iff.1 hclaim).2, rfl, rfl⟩
      · exact .inr ⟨node, hnode, hk, hclaim, rfl⟩
  · rw [Scene.ruleFor?_scene] at hrule
    refine .inl ⟨n, List.mem_append_right _ hn, hk, rule, hrule, ?_⟩
    rw [he]
    exact ⟨rfl, rfl⟩

/-- **One rule for an identity.** If one rule is the first to match whatever has the identity of a
candidate, that rule's handler answers the candidate, unless a family of the identity may not be
claimed and is exposed. -/
theorem Prepares.get?_of_common_rule {rule : Rule} (h : r.Prepares d scope p claimable s q)
    (hm : m ∈ q.candidates) (hg : ¬d.Gains q.draft m.identity)
    (hc : m.IsClaimable p claimable q.draft.decl)
    (hrule : ∀ n : Method, n.identity = m.identity → r.firstRule? p q.draft.decl n = some rule) :
    ∃ e, q.entries.get? m.identity = some e ∧
      (e.handler = rule.handler ∧ e.isBridge = false ∨
        ∃ node ∈ q.graph.graph.values, node.representative ≠ m ∧
          node.representative.identity = m.identity ∧
            ¬node.representative.IsClaimable p claimable q.draft.decl ∧ e = .ofBridge node) := by
  obtain ⟨e, he⟩ : ∃ e, q.entries.get? m.identity = some e := by
    rw [← Option.ne_none_iff_exists']
    intro hnone
    have hclaim := ((h.get?_eq_none_iff (h.isTypeInitializer hm)).1 hnone).2.2 m hm rfl
    rw [Scene.claim?_scene_eq_some_iff.2 ⟨hc, hrule m rfl⟩] at hclaim
    cases hclaim
  refine ⟨e, he, ?_⟩
  rcases h.get?_cases hg he with
    ⟨n, -, hk, other, hn, hhandler, hb⟩ | ⟨node, hnode, hk, hclaim, rfl⟩
  · obtain rfl := Option.some.inj ((hrule n hk).symm.trans hn)
    exact .inl ⟨hhandler, hb⟩
  · have hrejected : ¬node.representative.IsClaimable p claimable q.draft.decl := fun hclaimable =>
      Scene.claim?_scene_eq_none_iff.1 hclaim ⟨hclaimable, by rw [hrule _ hk]; rfl⟩
    exact .inr ⟨node, hnode, fun hself => hrejected (hself ▸ hc), hk, hrejected, rfl⟩

end Registry

namespace Plan

variable {plan : Plan} {s : Subclass} {d : Draft} {q : PreparedRegistry}

/-- The rule for constructors comes behind the others. -/
theorem rules_inject (c : ConstructorStrategy) (r : Registry) :
    ∃ behind, (c.inject r).rules = r.rules ++ behind := by
  cases c with
  | noConstructors => exact ⟨[], (List.append_nil _).symm⟩
  | _ => exact ⟨[ConstructorStrategy.rule], rfl⟩

/-- **The first rule that matches an ordinary method** is that of the last interception whose
criteria the method satisfies, if there is one. -/
theorem firstRule?_of_last {p : Pool} {t : TypeDecl} {m : Method} {i : Interception}
    (hs : plan.subclass = .ok s) (hm : m.isOrdinary = true)
    (hi : (plan.target.interceptions.filter (·.Meets m)).getLast? = some i) :
    ∃ rule, i.Yields rule ∧ s.rules.firstRule? p t m = some rule := by
  obtain ⟨rules, others, hrules, hregistry⟩ := rules_of_subclass hs
  obtain ⟨behind, hbehind⟩ := rules_inject s.config.constructors s.registry
  rw [List.getLast?_filter] at hi
  obtain ⟨rule, hyields, hfind⟩ :=
    Interception.find?_of_yields (List.forall₂_reverse_iff.2 hrules) hm hi
  refine ⟨rule, hyields, ?_⟩
  rw [Registry.firstRule?, Subclass.rules, hbehind, hregistry, List.append_assoc,
    List.find?_append, hfind, Option.some_or]

/-- **The last interception wins.** Take a method that is ordinary, no helper, and may be claimed,
whether or not the plan defines it. If it satisfies the criteria of interceptions, the last of them
provides its implementation, unless the entry of its identity exposes another method, which may not
be claimed. Constructors and type initializers that are no helpers are bound to no interception. -/
theorem last_interception_wins (hs : plan.subclass = .ok s) (h : s.Prepared d q) :
    (∀ m ∈ q.methods, m.isOrdinary = true → ¬d.Gains q.draft m.identity →
      m.IsClaimable s.pool (.instrumentable s.ignored) q.draft.decl →
        ∀ i, (plan.target.interceptions.filter (·.Meets m)).getLast? = some i →
          ∃ implementation e, i.implementation.implementation = .ok implementation ∧
            q.entries.get? m.identity = some e ∧
              (e.handler = .implement implementation ∧ e.isBridge = false ∨
                ∃ node ∈ q.graph.graph.values, node.representative ≠ m ∧
                  node.representative.identity = m.identity ∧
                    ¬node.representative.IsClaimable s.pool (.instrumentable s.ignored)
                      q.draft.decl ∧ e = .ofBridge node)) ∧
    ∀ m : Method, m.isOrdinary = false → ¬d.Gains q.draft m.identity →
      ∀ e, q.entries.get? m.identity = some e →
        ∃ n ∈ q.methods, n.identity = m.identity ∧
          ∃ rule, s.rules.firstRule? s.pool q.draft.decl n = some rule ∧
            e.handler = rule.handler ∧ e.isBridge = false ∧
              ∀ i ∈ plan.target.interceptions, ¬i.Yields rule := by
  obtain ⟨progress, hprepares, -⟩ := Registry.prepares_of_prepare h.registry
  refine ⟨fun m hm hordinary hg hc i hi => ?_, fun m hordinary hg e he => ?_⟩
  · have hcandidate := hprepares.mem_candidates_of_mem_methods hm hordinary
    -- the methods of the identity satisfy the same interceptions, so they have a rule in common
    have hlast (n : Method) (hk : n.identity = m.identity) :
        ∃ rule, i.Yields rule ∧ s.rules.firstRule? s.pool q.draft.decl n = some rule := by
      refine firstRule?_of_last hs ((Method.isOrdinary_of_identity_eq hk).trans hordinary) ?_
      simpa only [Interception.meets_iff_of_identity_eq hk] using hi
    obtain ⟨rule, hyields, -⟩ := hlast m rfl
    have hrule (n : Method) (hk : n.identity = m.identity) :
        s.rules.firstRule? s.pool q.draft.decl n = some rule := by
      obtain ⟨other, hother, hn⟩ := hlast n hk
      rwa [hyields.unique hother]
    obtain ⟨e, he, hentry⟩ := hprepares.get?_of_common_rule hcandidate hg hc hrule
    obtain ⟨implementation, himplementation, rfl⟩ := hyields
    exact ⟨implementation, e, himplementation, he, hentry⟩
  · rcases hprepares.get?_cases hg he with
      ⟨n, hn, hk, rule, hrule, hhandler, hb⟩ | ⟨node, hnode, hk, -, -⟩
    · refine ⟨n, hn, hk, rule, hrule, hhandler, hb, ?_⟩
      rintro i - ⟨implementation, -, rfl⟩
      have haccepts := List.find?_some hrule
      have hordinary' := (Interception.accepts_rule_iff.1 haccepts).1
      rw [Method.isOrdinary_of_identity_eq hk, hordinary] at hordinary'
      cases hordinary'
    · have hvirtual := GraphScope.isVirtual_of_mem_values _ s.pool q.draft.decl
        (hprepares.graph ▸ hnode)
      rw [← Method.isOrdinary_of_identity_eq hk,
        Method.isOrdinary_of_isVirtual hvirtual] at hordinary
      cases hordinary

/-- Of two interceptions of a method that the plan defines, the second provides its code. -/
theorem last_interception_wins_defined :
    let count : MethodOutline :=
      { name := "count", returns := "int", implementation := some (.fixed (some (.integer 1))) }
    let first : Interception := { name := some "count", implementation := .stub }
    let last : Interception :=
      { owner := some "a.Sub", implementation := .fixed (some (.integer 2)) }
    let plan : Plan :=
      { target := { name := "a.Sub", methods := [count], interceptions := [first, last] } }
    let m : Method :=
      { owner := "a.Sub", name := "count", modifiers := .of [.accPublic]
        returnType := .primitive .int }
    ∃ s d q e, plan.subclass = .ok s ∧ s.Prepared d q ∧
      q.entries.get? m.identity = some e ∧ e.handler = .implement (.fixed (.int 2)) := by
  intro count first last plan m
  let s : Subclass :=
    (((Subclass.new "a.Sub" .object .builtin).declare m.toMethodToken
      (.implement (.fixed (.int 1)))).intercept (.named "count") .stub).intercept
        (.declaredBy "a.Sub") (.fixed (.int 2))
  have hsuper : typeOf [] BinaryName.object = .ok .object := by decide +kernel
  have hreturns : typeOf [] "int" = .ok (.primitive .int) := by decide +kernel
  have hs : plan.subclass = .ok s := by
    simp only [subclass, header, Plan.pool, plan, hsuper, List.foldlM, bind, Except.bind, pure,
      Except.pure, typesOf, List.mapM_nil, MethodOutline.define, MethodOutline.token, count,
      hreturns]
    rfl
  have htokens : s.config.constructors.tokens s.draft.decl s.pool =
      .ok [.constructor (.of [.accPublic]) []] := by decide +kernel
  let d : Draft := s.draft.addMethod (.constructor (.of [.accPublic]) [])
  have facts : (s.rules.prepare d s.config.scope s.config.validate s.pool
      (.instrumentable s.ignored)).toOption.any (fun q =>
        decide (m ∈ q.methods ∧ ¬d.Gains q.draft m.identity ∧
          m.IsClaimable s.pool (.instrumentable s.ignored) q.draft.decl ∧
          ∀ node ∈ q.graph.graph.values, node.representative.identity = m.identity →
            node.representative = m)) = true := by
    decide +kernel
  obtain ⟨q, h, hq⟩ := Subclass.exists_prepared_of_any (by decide +kernel) htokens facts
  obtain ⟨hm, hg, hc, hsole⟩ := of_decide_eq_true hq
  have hlast : ([first, last].filter (·.Meets m)).getLast? = some last := by
    have hfirst : first.Meets m := by decide
    have hlast : last.Meets m := by decide
    simp [hfirst, hlast]
  have hfixed : last.implementation.implementation = .ok (.fixed (.int 2)) := by decide +kernel
  obtain ⟨implementation, e, himplementation, he, hentry⟩ :=
    (last_interception_wins hs h).1 m hm rfl hg hc last hlast
  obtain rfl := Except.ok.inj (hfixed.symm.trans himplementation)
  rcases hentry with ⟨hhandler, -⟩ | ⟨node, hnode, hother, hk, -⟩
  · exact ⟨s, d, q, e, hs, h, he, hhandler⟩
  · exact absurd (hsole node hnode hk) hother

/-- An interception of `put` misses one of two inherited methods of that name, which have the same
erased types: the other is synthetic, so it may not be claimed, and is exposed. And a helper that is
named like the type initializer takes its place, with the handler of its interception. -/
theorem interceptions_miss_methods :
    let base : TypeOutline :=
      { name := "a.Base", keywords := [], typeVariables := ["T"], constructors := [{}]
        methods :=
          [{ name := "put", keywords := ["public", "synthetic"], parameters := ["T"] },
            { name := "put", parameters := ["java.lang.Object"] }] }
    let every : Interception := { name := some "put", implementation := .stub }
    let plan : Plan :=
      { types := [base]
        target :=
          { name := "a.Sub", superclass := "a.Base<java.lang.String>", interceptions := [every] } }
    let m : Method :=
      { owner := "a.Base", name := "put", modifiers := .of [.accPublic]
        parameters := [{ type := .object }] }
    let named : Interception :=
      { name := some "toString", implementation := .callHelper "<clinit>" "void" (.integer 7) }
    let other : Plan := { target := { name := "a.Sub", interceptions := [named] } }
    (∃ s d q, plan.subclass = .ok s ∧ s.Prepared d q ∧
      m ∈ q.methods ∧ m.isOrdinary = true ∧ ¬d.Gains q.draft m.identity ∧
      m.IsClaimable s.pool (.instrumentable s.ignored) q.draft.decl ∧ every.Meets m ∧
      every.implementation.implementation = .ok .stub ∧
      (q.entries.get? m.identity).map (·.handler) = some .bridge) ∧
    ∃ s d q, other.subclass = .ok s ∧ s.Prepared d q ∧
      ∃ implementation, named.implementation.implementation = .ok implementation ∧
        .typeInitializer "a.Sub" ∈ q.methods ∧
        (q.entries.get? (Method.typeInitializer "a.Sub").identity).map (·.handler) =
          some (.implement implementation) := by
  intro base every plan m named other
  refine ⟨?_, ?_⟩
  · let decl : TypeDecl :=
      { name := "a.Base", modifiers := .empty, superclass := some .object
        typeVariables := [{ symbol := "T" }]
        methods :=
          [{ (MethodToken.constructor (.of [.accPublic]) []) with owner := "a.Base" },
            { m with
              modifiers := .of [.accPublic, .accSynthetic]
              parameters := [{ type := .typeVar "T" .object }] }, m] }
    let s : Subclass :=
      (Subclass.new "a.Sub" (.parameterized "a.Base" [.named "java.lang.String"])
        (Pool.builtin.register decl)).intercept (.named "put") .stub
    have hsuper : typeOf [] "a.Base<java.lang.String>" =
        .ok (.parameterized "a.Base" [.named "java.lang.String"]) := by decide +kernel
    have hbase : base.declaration = .ok decl := by decide +kernel
    have hs : plan.subclass = .ok s := by
      simp only [subclass, header, Plan.pool, plan, hsuper, hbase, List.foldlM, bind, Except.bind,
        pure, Except.pure, typesOf, List.mapM_nil]
      rfl
    have htokens : s.config.constructors.tokens s.draft.decl s.pool =
        .ok [.constructor (.of [.accPublic]) []] := by decide +kernel
    let d : Draft := s.draft.addMethod (.constructor (.of [.accPublic]) [])
    have facts : (s.rules.prepare d s.config.scope s.config.validate s.pool
        (.instrumentable s.ignored)).toOption.any (fun q =>
          decide (m ∈ q.methods ∧ m.isOrdinary = true ∧ ¬d.Gains q.draft m.identity ∧
            m.IsClaimable s.pool (.instrumentable s.ignored) q.draft.decl ∧ every.Meets m ∧
            every.implementation.implementation = .ok .stub ∧
            (q.entries.get? m.identity).map (·.handler) = some .bridge)) = true := by
      decide +kernel
    obtain ⟨q, h, hq⟩ := Subclass.exists_prepared_of_any (by decide +kernel) htokens facts
    exact ⟨s, d, q, hs, h, of_decide_eq_true hq⟩
  · let s : Subclass :=
      (Subclass.new "a.Sub" .object .builtin).intercept (.named "toString")
        (.callHelper "<clinit>" .void (.int 7))
    have hsuper : typeOf [] BinaryName.object = .ok .object := by decide +kernel
    have hreturns : typeOf [] "void" = .ok .void := by decide +kernel
    have hs : other.subclass = .ok s := by
      simp only [subclass, header, Plan.pool, other, hsuper, List.foldlM, bind, Except.bind,
        pure, Except.pure, typesOf, List.mapM_nil, Interception.define, named,
        ImplementationOutline.implementation, hreturns]
      rfl
    have htokens : s.config.constructors.tokens s.draft.decl s.pool =
        .ok [.constructor (.of [.accPublic]) []] := by decide +kernel
    let d : Draft := s.draft.addMethod (.constructor (.of [.accPublic]) [])
    have facts : (s.rules.prepare d s.config.scope s.config.validate s.pool
        (.instrumentable s.ignored)).toOption.any (fun q =>
          decide (named.implementation.implementation =
              .ok (.callHelper "<clinit>" .void (.int 7)) ∧
            .typeInitializer "a.Sub" ∈ q.methods ∧
            (q.entries.get? (Method.typeInitializer "a.Sub").identity).map (·.handler) =
              some (.implement (.callHelper "<clinit>" .void (.int 7))))) = true := by
      decide +kernel
    obtain ⟨q, h, hq⟩ := Subclass.exists_prepared_of_any (by decide +kernel) htokens facts
    exact ⟨s, d, q, hs, h, _, of_decide_eq_true hq⟩

end Plan

end ClassForge
