import ClassForge.Proofs.Binding
import ClassForge.Proofs.Families

/-!
# The first rule that matches decides

A registry is an ordered list of rules, and a method that is offered to it should belong to the
first rule that accepts it, whatever the other rules do. Between the list and the entry of a method
stand the helpers that handlers add, the families of the graph and the phases in which entries are
filled, and none of them may get in the way:

* helpers change neither the graph nor what a predicate accepts, since both look at the header and
  at the virtual methods only (`Draft.Grows.compile`, `LatentMatcher.accepts_resolve`);
* a phase adds only what is not there yet (`Registry.Prepares.get?_entries`).

## The exception

Entries are kept by identity, that is by owner and *erased* signature. Two candidates may share
their identity: a generic class may declare `m(T)` beside `m(Object)`, and a subclass sees them as
two families. The first of them then decides for both, and what the rules say about the second does
not matter (`Registry.first_match_misses_shared_identity`). All statements here are therefore about
candidates that are the only ones of their identity (`PreparedRegistry.Sole`).

Helpers are left out as well: a method that some handler brings in is bound to that handler, and an
inherited method that names the type as its owner may be taken for it. No method that the draft
declares from the start is in that danger, and none that names another owner
(`Draft.Grows.not_gains`).

## Main definitions

* `PreparedRegistry.candidates` — the methods that are offered to the rules
* `Registry.firstRule?` — the rule that a method belongs to
* `PreparedRegistry.claimedEntry` — the entry of a method once a rule has claimed it

## Main results

* `Registry.Prepares.get?_of_claim`, `Registry.Prepares.get?_of_no_claim` — the entry of a candidate
* `Registry.first_match_wins` — with what follows for rules added at either end
-/

namespace ClassForge

/-! ### What is offered, and to whom -/

namespace PreparedRegistry

/-- The methods that are offered to the rules: the representatives of the graph, and the methods of
no family that the prepared draft declares. -/
def candidates (q : PreparedRegistry) : List Method :=
  q.graph.graph.values.map (·.representative) ++ Registry.Scene.members q.draft.decl

/-- The method shares its identity with no other candidate. -/
def Sole (q : PreparedRegistry) (m : Method) : Prop :=
  ∀ n ∈ q.candidates, n.identity = m.identity → n = m

/-- The entry of the method `m` once `rule` has claimed it. The types and the visibility are those
of its family, if it has one. -/
def claimedEntry (q : PreparedRegistry) (rule : Rule) (m : Method) : Entry :=
  match q.graph.graph.values.find? (·.representative.identity = m.identity) with
  | some node => .ofRule rule m node.types node.visibility
  | none => .ofRule rule m [] m.visibility

end PreparedRegistry

/-- The rules may claim the method in the type `t`: its types are visible there, and the registry
is allowed to. -/
structure Method.IsClaimable (m : Method) (p : Pool) (claimable : LatentMatcher) (t : TypeDecl) :
    Prop where
  returnType : p.isTypeVisible t m.returnType = true
  parameters : ∀ x ∈ m.parameters, p.isTypeVisible t x.type = true
  allowed : (claimable.resolve t).accepts p m = true

/-- The first rule whose predicate, resolved against the type `t`, accepts the method. -/
def Registry.firstRule? (r : Registry) (p : Pool) (t : TypeDecl) (m : Method) : Option Rule :=
  r.rules.find? fun rule => (rule.matcher.resolve t).accepts p m

/-- The entry says that `rule` has claimed `m`. -/
structure Entry.BelongsTo (e : Entry) (rule : Rule) (m : Method) : Prop where
  source : e.source = m
  handler : e.handler = rule.handler
  attributes : e.attributes = rule.attributes
  method : e.method = m.change rule.changes
  isBridge : e.isBridge = false

instance (m : Method) (p : Pool) (claimable : LatentMatcher) (t : TypeDecl) :
    Decidable (m.IsClaimable p claimable t) :=
  decidable_of_iff
    (p.isTypeVisible t m.returnType = true ∧
      (∀ x ∈ m.parameters, p.isTypeVisible t x.type = true) ∧
      (claimable.resolve t).accepts p m = true)
    ⟨fun h => ⟨h.1, h.2.1, h.2.2⟩, fun h => ⟨h.returnType, h.parameters, h.allowed⟩⟩

theorem PreparedRegistry.belongsTo_claimedEntry (q : PreparedRegistry) (rule : Rule)
    (m : Method) : (q.claimedEntry rule m).BelongsTo rule m := by
  unfold claimedEntry
  split <;> exact ⟨rfl, rfl, rfl, rfl, rfl⟩

namespace Registry

variable {r : Registry} {p : Pool} {t u : TypeDecl} {claimable : LatentMatcher} {m : Method}

theorem firstRule?_sameHeader (r : Registry) (p : Pool) (h : t.SameHeader u) (m : Method) :
    r.firstRule? p u m = r.firstRule? p t m := by
  simp only [firstRule?, LatentMatcher.accepts_resolve h]

theorem firstRule?_append {rule : Rule} (h : r.firstRule? p t m = some rule) (last : Rule) :
    (r.append last).firstRule? p t m = some rule := by
  unfold firstRule? at h
  simp [firstRule?, append, List.find?_append, h]

theorem firstRule?_prepend {rule : Rule} (h : (rule.matcher.resolve t).accepts p m = true)
    (r : Registry) : (r.prepend rule).firstRule? p t m = some rule := by
  simp [firstRule?, prepend, h]

theorem isClaimable_sameHeader (h : t.SameHeader u) :
    m.IsClaimable p claimable u ↔ m.IsClaimable p claimable t := by
  have rewritten : ∀ a b : TypeDecl, a.SameHeader b → m.IsClaimable p claimable a →
      m.IsClaimable p claimable b := by
    intro a b hab hm
    refine ⟨?_, fun x hx => ?_, ?_⟩
    · rw [p.isTypeVisible_sameHeader hab, hm.returnType]
    · rw [p.isTypeVisible_sameHeader hab, hm.parameters x hx]
    · rw [LatentMatcher.accepts_resolve hab, hm.allowed]
  exact ⟨rewritten u t h.symm, rewritten t u h⟩

namespace Scene

theorem ruleFor?_scene (r : Registry) (p : Pool) (claimable : LatentMatcher) (t : TypeDecl)
    (m : Method) : (r.scene p claimable t).ruleFor? m = r.firstRule? p t m := by
  simp [ruleFor?, scene, firstRule?, List.find?_map, Function.comp_def]

theorem admits_scene (r : Registry) (p : Pool) (claimable : LatentMatcher) (t : TypeDecl)
    (m : Method) : (r.scene p claimable t).admits m = true ↔ m.IsClaimable p claimable t := by
  simp only [admits, scene, Bool.and_eq_true, List.all_eq_true]
  exact ⟨fun h => ⟨h.1.1, h.1.2, h.2⟩, fun h => ⟨⟨h.returnType, h.parameters⟩, h.allowed⟩⟩

theorem claim?_scene_eq_some_iff {rule : Rule} :
    (r.scene p claimable t).claim? m = some rule ↔
      m.IsClaimable p claimable t ∧ r.firstRule? p t m = some rule := by
  simp [claim?, ruleFor?_scene, admits_scene]

theorem claim?_scene_eq_none_iff :
    (r.scene p claimable t).claim? m = none ↔
      ¬(m.IsClaimable p claimable t ∧ (r.firstRule? p t m).isSome = true) := by
  rw [Option.eq_none_iff_forall_ne_some, Option.isSome_iff_exists]
  simp only [ne_eq, claim?_scene_eq_some_iff, not_and, not_exists]
  exact ⟨fun h hm rule hrule => h rule hm hrule, fun h rule hm => h hm rule⟩

/-! ### What families make of a claim -/

variable {s : Scene} {nodes : List Node}

/-- The family entry of a method that a rule claims, if no other representative shares its
identity. -/
theorem familyBinding?_of_claim {rule : Rule} (hc : s.claim? m = some rule)
    (hsole : ∀ node ∈ nodes, node.representative.identity = m.identity →
      node.representative = m) :
    s.familyBinding? nodes m.identity =
      (nodes.find? (·.representative.identity = m.identity)).map fun node =>
        .ofRule rule m node.types node.visibility := by
  induction nodes with
  | nil => rfl
  | cons node nodes ih =>
    rw [List.forall_mem_cons] at hsole
    rw [familyBinding?, List.findSome?_cons, List.find?_cons]
    by_cases hk : node.representative.identity = m.identity
    · have hrep := hsole.1 hk
      simp [nodeBinding?, hrep, hc]
    · have hrest := ih hsole.2
      rw [familyBinding?] at hrest
      simpa [hk] using hrest

/-- A method that no rule claims has a visibility bridge, if its family adds anything for it. -/
theorem familyBinding?_of_no_claim (hc : s.claim? m = none)
    (hsole : ∀ node ∈ nodes, node.representative.identity = m.identity →
      node.representative = m) {e : Entry} (he : s.familyBinding? nodes m.identity = some e) :
    ∃ node ∈ nodes, node.representative = m ∧ e = .ofBridge node := by
  obtain ⟨node, hmem, hk, hnode⟩ := exists_of_familyBinding? he
  have hrep := hsole node hmem hk
  rcases nodeBinding?_eq_some_iff.1 hnode with ⟨rule, hclaim, -⟩ | ⟨-, -, rfl⟩
  · rw [hrep, hc] at hclaim
    cases hclaim
  · exact ⟨node, hmem, hrep, rfl⟩

end Scene

/-! ### The entry of a candidate -/

namespace Prepares

variable {d : Draft} {scope : GraphScope} {s : Progress} {q : PreparedRegistry}

theorem grows (h : r.Prepares d scope p claimable s q) : d.Grows q.draft :=
  h.draft ▸ h.sound.grows

theorem isTypeInitializer (h : r.Prepares d scope p claimable s q) (hm : m ∈ q.candidates) :
    m.isTypeInitializer = false := by
  rcases List.mem_append.1 hm with hm | hm
  · obtain ⟨node, hnode, rfl⟩ := List.mem_map.1 hm
    have hv := scope.isVirtual_of_mem_values p q.draft.decl (h.graph ▸ hnode)
    by_contra hi
    rw [Method.isVirtual_of_isTypeInitializer (Bool.eq_true_of_not_eq_false hi)] at hv
    cases hv
  · have hi := (List.mem_filter.1 hm).2
    simp only [Bool.and_eq_true, Bool.not_eq_true'] at hi
    exact hi.2

theorem captured_eq_none_iff (h : r.Prepares d scope p claimable s q) :
    s.entries.get? m.identity = none ↔ ¬d.Gains q.draft m.identity := by
  rw [← Option.not_isSome_iff_eq_none, h.sound.captured, ← h.draft]

/-- Leaving helpers aside, the entry of a candidate is what its family adds, or else what it adds
itself. -/
theorem get?_of_candidate (h : r.Prepares d scope p claimable s q)
    (hq : q.draft.decl.check p = .ok ()) (hm : m ∈ q.candidates) (hsole : q.Sole m)
    (hg : ¬ d.Gains q.draft m.identity) :
    q.entries.get? m.identity =
      ((r.scene p claimable q.draft.decl).familyBinding? q.graph.graph.values m.identity).or
        (if m ∈ Scene.members q.draft.decl then
          (r.scene p claimable q.draft.decl).memberBinding? m else none) := by
  rw [h.get?_entries hq (h.isTypeInitializer hm) fun n hn => hsole n (List.mem_append_right _ hn),
    h.captured_eq_none_iff.2 hg, Option.none_or]

variable {rule : Rule}

/-- **A claimed candidate is bound to the rule that claims it.** -/
theorem get?_of_claim (h : r.Prepares d scope p claimable s q)
    (hq : q.draft.decl.check p = .ok ()) (hm : m ∈ q.candidates) (hsole : q.Sole m)
    (hg : ¬ d.Gains q.draft m.identity) (hc : m.IsClaimable p claimable q.draft.decl)
    (hr : r.firstRule? p q.draft.decl m = some rule) :
    q.entries.get? m.identity = some (q.claimedEntry rule m) := by
  have claim := Scene.claim?_scene_eq_some_iff.2 ⟨hc, hr⟩
  have reps : ∀ node ∈ q.graph.graph.values, node.representative.identity = m.identity →
      node.representative = m :=
    fun node hnode => hsole _ (List.mem_append_left _ (List.mem_map_of_mem hnode))
  rw [h.get?_of_candidate hq hm hsole hg, Scene.familyBinding?_of_claim claim reps,
    PreparedRegistry.claimedEntry]
  cases hf : q.graph.graph.values.find? (·.representative.identity = m.identity) with
  | some node => simp
  | none =>
    -- no family has the identity, so the candidate is a method of no family
    have hmember : m ∈ Scene.members q.draft.decl := by
      refine (List.mem_append.1 hm).resolve_left fun hrep => ?_
      obtain ⟨node, hnode, hk⟩ := List.mem_map.1 hrep
      exact List.find?_eq_none.1 hf node hnode (by simp [hk])
    simp [hmember, Scene.memberBinding?, claim]

/-- **A candidate that no rule claims** is bound to nothing but a visibility bridge. -/
theorem get?_of_no_claim (h : r.Prepares d scope p claimable s q)
    (hq : q.draft.decl.check p = .ok ()) (hm : m ∈ q.candidates) (hsole : q.Sole m)
    (hg : ¬ d.Gains q.draft m.identity)
    (hc : ¬ (m.IsClaimable p claimable q.draft.decl ∧
      (r.firstRule? p q.draft.decl m).isSome = true)) {e : Entry}
    (he : q.entries.get? m.identity = some e) :
    ∃ node ∈ q.graph.graph.values, node.representative = m ∧ e = .ofBridge node := by
  have claim := Scene.claim?_scene_eq_none_iff.2 hc
  have own : (if m ∈ Scene.members q.draft.decl then
      (r.scene p claimable q.draft.decl).memberBinding? m else none) = none := by
    simp [Scene.memberBinding?, claim]
  rw [h.get?_of_candidate hq hm hsole hg, own, Option.or_none] at he
  exact Scene.familyBinding?_of_no_claim claim
    (fun node hnode => hsole _ (List.mem_append_left _ (List.mem_map_of_mem hnode))) he

end Prepares

/-! ### Two registries for one draft -/

theorem members_subset {d d' : Draft} (hg : d.Grows d') (hm : m ∈ Scene.members d.decl) :
    m ∈ Scene.members d'.decl := by
  obtain ⟨hmem, hkind⟩ := List.mem_filter.1 hm
  exact List.mem_filter.2 ⟨hg.mem hmem, hkind⟩

/-- A method of no family that an accepted draft did not gain was declared from the start. -/
theorem mem_members_of_not_gains {d d' : Draft} (hg : d.Grows d')
    (hd' : d'.decl.check p = .ok ()) (hm : m ∈ Scene.members d'.decl)
    (hk : ¬ d.Gains d' m.identity) : m ∈ Scene.members d.decl := by
  obtain ⟨hmem, hkind⟩ := List.mem_filter.1 hm
  exact List.mem_filter.2 ⟨hg.mem_of_not_gains hd' hmem hk, hkind⟩

namespace Prepares

variable {d : Draft} {scope : GraphScope} {r' : Registry} {s s' : Progress}
  {q q' : PreparedRegistry}

/-- Whatever the rules are, the graph is that of the draft. -/
theorem graph_eq (h : r.Prepares d scope p claimable s q) : q.graph = scope.compile p d.decl := by
  rw [h.graph, h.grows.compile]

theorem claimedEntry_eq (h : r.Prepares d scope p claimable s q)
    (h' : r'.Prepares d scope p claimable s' q') : q'.claimedEntry = q.claimedEntry := by
  funext rule m
  simp only [PreparedRegistry.claimedEntry, h.graph_eq, h'.graph_eq]

theorem mem_candidates (h : r.Prepares d scope p claimable s q)
    (hq : q.draft.decl.check p = .ok ()) (h' : r'.Prepares d scope p claimable s' q')
    (hg : ¬ d.Gains q.draft m.identity) (hm : m ∈ q.candidates) : m ∈ q'.candidates := by
  rcases List.mem_append.1 hm with hm | hm
  · refine List.mem_append_left _ ?_
    rwa [h'.graph_eq, ← h.graph_eq]
  · refine List.mem_append_right _ (members_subset h'.grows ?_)
    exact mem_members_of_not_gains h.grows hq hm hg

/-- A method that is alone in its identity stays so, unless it is taken for a helper. -/
theorem sole (h : r.Prepares d scope p claimable s q)
    (h' : r'.Prepares d scope p claimable s' q') (hq' : q'.draft.decl.check p = .ok ())
    (hg' : ¬ d.Gains q'.draft m.identity) (hsole : q.Sole m) : q'.Sole m := by
  intro n hn hk
  rcases List.mem_append.1 hn with hn | hn
  · refine hsole n (List.mem_append_left _ ?_) hk
    rwa [h.graph_eq, ← h'.graph_eq]
  · refine hsole n (List.mem_append_right _ (members_subset h.grows ?_)) hk
    exact mem_members_of_not_gains h'.grows hq' hn (hk ▸ hg')

/-- **A rule behind the others changes nothing** for what is bound to one of them. -/
theorem get?_append {last : Rule} (h : r.Prepares d scope p claimable s q)
    (hq : q.draft.decl.check p = .ok ())
    (h' : (r.append last).Prepares d scope p claimable s' q')
    (hq' : q'.draft.decl.check p = .ok ()) (hm : m ∈ q.candidates) (hsole : q.Sole m)
    (hg : ¬ d.Gains q.draft m.identity) (hg' : ¬ d.Gains q'.draft m.identity) {e : Entry}
    (he : q.entries.get? m.identity = some e) (hb : e.isBridge = false) :
    q'.entries.get? m.identity = some e := by
  by_cases hc : m.IsClaimable p claimable q.draft.decl ∧
      (r.firstRule? p q.draft.decl m).isSome = true
  · obtain ⟨hc, hr⟩ := hc
    obtain ⟨rule, hr⟩ := Option.isSome_iff_exists.1 hr
    have hclaimed := h.get?_of_claim hq hm hsole hg hc hr
    have header : q.draft.decl.SameHeader q'.draft.decl :=
      h.grows.toSameHeader.symm.trans h'.grows.toSameHeader
    have hr' : (r.append last).firstRule? p q'.draft.decl m = some rule := by
      rw [firstRule?_sameHeader _ p header]
      exact firstRule?_append hr last
    rw [h'.get?_of_claim hq' (h.mem_candidates hq h' hg hm) (h.sole h' hq' hg' hsole) hg'
      ((isClaimable_sameHeader header).2 hc) hr', h.claimedEntry_eq h', ← hclaimed, he]
  · obtain ⟨node, -, -, rfl⟩ := h.get?_of_no_claim hq hm hsole hg hc he
    cases hb

/-- **A rule in front of the others takes what it accepts.** -/
theorem get?_prepend {first : Rule} (h : r.Prepares d scope p claimable s q)
    (hq : q.draft.decl.check p = .ok ())
    (h' : (r.prepend first).Prepares d scope p claimable s' q')
    (hq' : q'.draft.decl.check p = .ok ()) (hm : m ∈ q.candidates) (hsole : q.Sole m)
    (hg : ¬ d.Gains q.draft m.identity) (hg' : ¬ d.Gains q'.draft m.identity)
    (hc : m.IsClaimable p claimable q.draft.decl)
    (ha : (first.matcher.resolve q.draft.decl).accepts p m = true) :
    q'.entries.get? m.identity = some (q'.claimedEntry first m) := by
  have header : q.draft.decl.SameHeader q'.draft.decl :=
    h.grows.toSameHeader.symm.trans h'.grows.toSameHeader
  refine h'.get?_of_claim hq' (h.mem_candidates hq h' hg hm) (h.sole h' hq' hg' hsole) hg'
    ((isClaimable_sameHeader header).2 hc) (firstRule?_prepend ?_ r)
  rwa [LatentMatcher.accepts_resolve header]

end Prepares

/-- **The first rule that matches decides, and no other rule matters.** A candidate that is alone
in its identity and no helper is bound to the first rule that accepts it, and if there is none, to
nothing but a visibility bridge. So a rule behind the others leaves what they claim as it was, and
one in front of them takes all that it accepts. -/
theorem first_match_wins {d : Draft} {scope : GraphScope} {q : PreparedRegistry}
    (h : r.prepare d scope true p claimable = .ok q) :
    (∀ m ∈ q.candidates, q.Sole m → ¬ d.Gains q.draft m.identity →
      m.IsClaimable p claimable q.draft.decl →
        match r.firstRule? p q.draft.decl m with
        | some rule => ∃ e, q.entries.get? m.identity = some e ∧ e.BelongsTo rule m
        | none => ∀ e, q.entries.get? m.identity = some e →
            ∃ node ∈ q.graph.graph.values, node.representative = m ∧ e = .ofBridge node) ∧
    (∀ last q', (r.append last).prepare d scope true p claimable = .ok q' →
      ∀ m ∈ q.candidates, q.Sole m → ¬ d.Gains q.draft m.identity →
        ¬ d.Gains q'.draft m.identity →
          ∀ e, q.entries.get? m.identity = some e → e.isBridge = false →
            q'.entries.get? m.identity = some e) ∧
    (∀ first q', (r.prepend first).prepare d scope true p claimable = .ok q' →
      ∀ m ∈ q.candidates, q.Sole m → ¬ d.Gains q.draft m.identity →
        ¬ d.Gains q'.draft m.identity → m.IsClaimable p claimable q.draft.decl →
          (first.matcher.resolve q.draft.decl).accepts p m = true →
            ∃ e, q'.entries.get? m.identity = some e ∧ e.BelongsTo first m) := by
  obtain ⟨s, h, hq⟩ := prepares_of_prepare h
  replace hq := hq rfl
  refine ⟨fun m hm hsole hg hc => ?_, fun last q' h' m hm hsole hg hg' e he hb => ?_,
    fun first q' h' m hm hsole hg hg' hc ha => ?_⟩
  · cases hr : r.firstRule? p q.draft.decl m with
    | some rule =>
      exact ⟨_, h.get?_of_claim hq hm hsole hg hc hr, q.belongsTo_claimedEntry rule m⟩
    | none => exact fun e he => h.get?_of_no_claim hq hm hsole hg (by simp [hr]) he
  · obtain ⟨s', h', hq'⟩ := prepares_of_prepare h'
    exact h.get?_append hq h' (hq' rfl) hm hsole hg hg' he hb
  · obtain ⟨s', h', hq'⟩ := prepares_of_prepare h'
    exact ⟨_, h.get?_prepend hq h' (hq' rfl) hm hsole hg hg' hc ha,
      q'.belongsTo_claimedEntry first m⟩

/-- A class overrides the inherited `run` by the first of two rules that accept it. -/
theorem first_match_wins_overridden :
    let run : Method := { owner := "a.Base", name := "run", modifiers := .of [.accPublic] }
    let p := Pool.empty.register
      { name := "a.Base", modifiers := .of [.accPublic], methods := [run] }
    let d : Draft := .subclass "a.Sub" (.of [.accPublic]) (.named "a.Base")
    let rules : Registry :=
      { rules := [{ matcher := .resolved (.named "run"), handler := .implement .stub },
        { matcher := .always, handler := .noCode }] }
    ∃ q, rules.prepare d .hierarchy true p .always = .ok q ∧
      ∃ e, q.entries.get? run.identity = some e ∧ e.handler = .implement .stub := by
  intro run p d rules
  have facts : (rules.prepare d .hierarchy true p .always).toOption.any (fun q =>
      decide (q.candidates = [run] ∧ q.draft.decl = d.decl)) = true := by decide +kernel
  obtain ⟨q, h, hq⟩ := exists_ok_of_any facts
  obtain ⟨hc, hd⟩ := of_decide_eq_true hq
  have gained : ¬ d.Gains q.draft run.identity := by
    rw [Draft.Gains, hd]
    exact fun hg => hg.2 hg.1
  obtain ⟨e, he, hb⟩ := (first_match_wins h).1 run (by simp [hc])
    (fun n hn _ => by simpa [hc] using hn) gained (by rw [hd]; decide +kernel)
  exact ⟨q, h, e, he, hb.handler⟩

/-- Where two candidates share their identity, the first of them decides for both: `m(Object)` gets
no code, because `m(T)` is final and comes before it. And an inherited method that names the new
class as its owner is lost to a helper of its name that a later rule brings in. -/
theorem first_match_misses_shared_identity :
    let generic : Method :=
      { owner := "a.P", name := "m", modifiers := .of [.accPublic, .accFinal]
        parameters := [{ type := .typeVar "T" .object }] }
    let plain : Method :=
      { owner := "a.P", name := "m", modifiers := .of [.accPublic]
        parameters := [{ type := .object }] }
    let stray : Method := { owner := "a.Sub", name := "h", modifiers := .of [.accPublic] }
    let p := Pool.empty.register
      { name := "a.P", modifiers := .of [.accPublic], typeVariables := [{ symbol := "T" }]
        methods := [generic, plain, stray] }
    let d : Draft := .subclass "a.Sub" (.of [.accPublic])
      (.parameterized "a.P" [.named "java.lang.String"])
    let rules : Registry :=
      { rules := [{ matcher := .resolved .isFinal, handler := .noCode },
        { matcher := .always, handler := .implement .stub }] }
    let helper : Rule :=
      { matcher := .never, handler := .implement (.callHelper "h" .void (.int 0)) }
    (∃ q, rules.prepare d .hierarchy true p .always = .ok q ∧
      plain ∈ q.candidates ∧ ¬ d.Gains q.draft plain.identity ∧
      plain.IsClaimable p .always q.draft.decl ∧
      (rules.firstRule? p q.draft.decl plain).map (·.handler) = some (.implement .stub) ∧
      (q.entries.get? plain.identity).map (·.handler) = some .noCode ∧
      (q.entries.get? stray.identity).map (·.handler) = some (.implement .stub)) ∧
    ∃ q', (rules.append helper).prepare d .hierarchy true p .always = .ok q' ∧
      (q'.entries.get? stray.identity).map (·.handler) = some helper.handler := by
  intro generic plain stray p d rules helper
  have bound : (rules.prepare d .hierarchy true p .always).toOption.any (fun q =>
      decide (plain ∈ q.candidates ∧ ¬ d.Gains q.draft plain.identity ∧
        plain.IsClaimable p .always q.draft.decl ∧
        (rules.firstRule? p q.draft.decl plain).map (·.handler) = some (.implement .stub) ∧
        (q.entries.get? plain.identity).map (·.handler) = some .noCode ∧
        (q.entries.get? stray.identity).map (·.handler) = some (.implement .stub))) = true := by
    decide +kernel
  have lost : ((rules.append helper).prepare d .hierarchy true p .always).toOption.any (fun q' =>
      decide ((q'.entries.get? stray.identity).map (·.handler) = some helper.handler)) = true := by
    decide +kernel
  refine ⟨?_, ?_⟩
  · obtain ⟨q, h, hq⟩ := exists_ok_of_any bound
    exact ⟨q, h, of_decide_eq_true hq⟩
  · obtain ⟨q', h, hq⟩ := exists_ok_of_any lost
    exact ⟨q', h, of_decide_eq_true hq⟩

end Registry

end ClassForge
