import ClassForge.Proofs.Acceptance
import ClassForge.Proofs.Growth
import ClassForge.Proofs.Outcomes
import ClassForge.Registry.Prepare

/-!
# What preparing a draft leaves behind

The first step of a preparation gives each handler its turn, and binds to a handler what it added.
While that goes on, the registry keeps track of which methods the draft declares, so as to see what
is new. The invariant `Progress.Sound` says that this book-keeping is right at every moment: the
draft has only grown, the known methods are the declared ones, and the entries are those of the
methods that the draft gained, each bound to the handler that brought it in.

Everything said here is by identity, because the registry keeps its books by identity.

## Main definitions

* `Registry.Progress.Sound` — the invariant of the first step
* `Registry.Prepares` — the outcome of a preparation, given the progress of its first step

## Main results

* `Registry.Progress.sound_foldlM` — the invariant holds after the turns of any rules
* `Registry.prepares_of_prepare` — what a successful preparation consists of
-/

namespace ClassForge

/-- What an accepted draft declares and did not gain, it declared from the start. -/
theorem Draft.Grows.mem_of_not_gains {d d' : Draft} (hg : d.Grows d') {p : Pool}
    (hd' : d'.decl.check p = .ok ()) {m : Method} (hm : m ∈ d'.decl.methods)
    (h : ¬ d.Gains d' m.identity) : m ∈ d.decl.methods := by
  have hk : m.identity ∈ d.decl.methods.map (·.identity) := by
    by_contra hout
    exact h ⟨List.mem_map_of_mem hm, hout⟩
  obtain ⟨n, hn, heq⟩ := List.mem_map.1 hk
  rwa [← TypeDecl.eq_of_identity_eq hd' (hg.mem hn) hm heq]

@[simp] theorem Method.name_identity (m : Method) : m.identity.name = m.name := rfl

@[simp] theorem Entry.source_ofHelper (h : Handler) (m : Method) :
    (Entry.ofHelper h m).source = m := rfl

@[simp] theorem Entry.source_ofRule (r : Rule) (m : Method) (types : List MethodType)
    (v : Visibility) : (Entry.ofRule r m types v).source = m := rfl

theorem Entries.get?_bind (es : Entries) (e : Entry) (k : MethodIdentity) :
    (es.bind e).get? k =
      if k = e.source.identity then
        some ((es.get? k).elim e fun old => { e with source := old.source })
      else es.get? k := by
  rw [Entries.bind, OrderedMap.get?_alter]
  split
  · subst k
    cases es.get? e.source.identity <;> rfl
  · rfl

theorem Entries.get?_bind_of_none {es : Entries} {e : Entry} (h : es.get? e.source.identity = none)
    (k : MethodIdentity) :
    (es.bind e).get? k = if k = e.source.identity then some e else es.get? k := by
  rw [Entries.get?_bind]
  split
  · subst k
    simp [h]
  · rfl

namespace Registry

namespace Progress

/-! ### Capturing helpers -/

@[simp] theorem draft_capture (h : Handler) (s : Progress) (m : Method) :
    (s.capture h m).draft = s.draft := by
  unfold capture
  split <;> rfl

theorem mem_known_capture (h : Handler) (s : Progress) (m : Method) (k : MethodIdentity) :
    k ∈ (s.capture h m).known ↔ k = m.identity ∨ k ∈ s.known := by
  unfold capture
  split
  · exact ⟨.inr, fun hk => hk.elim (fun e => e ▸ ‹_›) id⟩
  · exact List.mem_cons

/-- The methods with entries are known, which is what keeps a captured method from being captured
again. -/
def Keeps (s : Progress) : Prop := ∀ k, k ∉ s.known → s.entries.get? k = none

theorem get?_capture {s : Progress} (hs : s.Keeps) (h : Handler) (m : Method)
    (k : MethodIdentity) :
    (s.capture h m).entries.get? k =
      if k = m.identity ∧ k ∉ s.known then some (.ofHelper h m) else s.entries.get? k := by
  unfold capture
  split
  · rename_i hm
    rw [if_neg]
    rintro ⟨rfl, hk⟩
    exact hk hm
  · rename_i hm
    rw [Entries.get?_bind_of_none (hs _ hm)]
    by_cases hk : k = m.identity
    · subst hk
      simp [hm]
    · simp [hk]

theorem Keeps.capture {s : Progress} (hs : s.Keeps) (h : Handler) (m : Method) :
    (s.capture h m).Keeps := by
  intro k hk
  rw [mem_known_capture, not_or] at hk
  rw [get?_capture hs, if_neg fun hm => hk.1 hm.1]
  exact hs k hk.2

/-- **One handler's turn.** Of the methods that were not known, the first of each identity is bound
to the handler; nothing else changes. -/
theorem foldl_capture (h : Handler) (ms : List Method) (s : Progress) (hs : s.Keeps) :
    (ms.foldl (capture h) s).draft = s.draft ∧
      (∀ k, k ∈ (ms.foldl (capture h) s).known ↔ k ∈ ms.map (·.identity) ∨ k ∈ s.known) ∧
      ∀ k, (ms.foldl (capture h) s).entries.get? k =
        if k ∈ s.known then s.entries.get? k
        else (ms.find? (·.identity = k)).map (.ofHelper h) := by
  induction ms generalizing s with
  | nil =>
    refine ⟨rfl, by simp, fun k => ?_⟩
    split
    · rfl
    · exact hs k ‹_›
  | cons m ms ih =>
    obtain ⟨hdraft, hknown, hget⟩ := ih (s.capture h m) (hs.capture h m)
    refine ⟨hdraft.trans (draft_capture h s m), fun k => ?_, fun k => ?_⟩
    · rw [List.foldl_cons, hknown, mem_known_capture, List.map_cons, List.mem_cons]
      tauto
    · rw [List.foldl_cons, hget, get?_capture hs, List.find?_cons]
      simp only [mem_known_capture]
      by_cases hk : k ∈ s.known
      · simp [hk]
      · by_cases hm : k = m.identity
        · simp [hm, hm ▸ hk]
        · simp [hk, hm, Ne.symm hm]

/-! ### The invariant -/

/-- What holds of the progress on the draft `d` between the turns of two handlers. -/
structure Sound (d : Draft) (s : Progress) : Prop where
  grows : d.Grows s.draft
  known : ∀ k, k ∈ s.known ↔ k ∈ s.draft.decl.methods.map (·.identity)
  /-- The methods with entries are those that the draft gained. -/
  captured : ∀ k, (s.entries.get? k).isSome ↔ d.Gains s.draft k
  /-- Each of them is bound to some handler. -/
  helper : ∀ k e, s.entries.get? k = some e →
    ∃ h, ∃ m ∈ s.draft.decl.methods, m.identity = k ∧ e = .ofHelper h m

namespace Sound

variable {d : Draft} {s s' : Progress}

theorem start (d : Draft) : Sound d (.start d) where
  grows := .refl d
  known _ := .rfl
  captured k := by
    constructor
    · intro h
      exact absurd h (by simp [Progress.start])
    · intro h
      exact absurd h.1 h.2
  helper k e he := by simp [Progress.start] at he

theorem keeps (h : Sound d s) : s.Keeps := by
  intro k hk
  by_contra hne
  exact hk ((h.known k).2 ((h.captured k).1 (Option.isSome_iff_ne_none.2 hne)).1)

/-- Handlers gain a draft members and never lose it one. -/
theorem gains_of_grows (h : Sound d s) {d' : Draft} (hg : s.draft.Grows d') {k : MethodIdentity} :
    d.Gains d' k ↔
      d.Gains s.draft k ∨ (k ∉ s.known ∧ k ∈ d'.decl.methods.map (·.identity)) := by
  have hsub : ∀ {a b : Draft}, a.Grows b → k ∈ a.decl.methods.map (·.identity) →
      k ∈ b.decl.methods.map (·.identity) := by
    intro a b hab hk
    obtain ⟨m, hm, rfl⟩ := List.mem_map.1 hk
    exact List.mem_map_of_mem (hab.mem hm)
  have hd : k ∈ d.decl.methods.map (·.identity) → k ∈ s.draft.decl.methods.map (·.identity) :=
    hsub h.grows
  have hs : k ∈ s.draft.decl.methods.map (·.identity) → k ∈ d'.decl.methods.map (·.identity) :=
    hsub hg
  rw [h.known, Draft.Gains, Draft.Gains]
  tauto

/-- **A handler's turn keeps the books right.** -/
theorem step (h : Sound d s) {r : Rule} (hr : s.step r = .ok s') : Sound d s' := by
  unfold Progress.step at hr
  split at hr
  · exact Except.ok.inj hr ▸ h
  · obtain ⟨d', hp, hr⟩ := ok_of_bind hr
    obtain rfl := Except.ok.inj hr
    have hg := Handler.grows_of_prepare hp
    obtain ⟨hdraft, hknown, hget⟩ := foldl_capture r.handler d'.decl.methods
      { s with draft := d', handled := r.handler :: s.handled } h.keeps
    refine ⟨?_, fun k => ?_, fun k => ?_, fun k e he => ?_⟩
    · rw [hdraft]
      exact h.grows.trans hg
    · rw [hknown, hdraft, h.known]
      refine or_iff_left_of_imp fun hk => ?_
      obtain ⟨m, hm, rfl⟩ := List.mem_map.1 hk
      exact List.mem_map_of_mem (hg.mem hm)
    · rw [hget, hdraft, h.gains_of_grows hg, ← h.captured]
      split
      · rename_i hk
        exact ⟨.inl, fun h' => h'.elim id fun h' => absurd hk h'.1⟩
      · rename_i hk
        simp only [Option.isSome_map, List.find?_isSome, decide_eq_true_eq, h.keeps k hk,
          Option.isSome_none, Bool.false_eq_true, false_or, List.mem_map]
        exact ⟨fun h' => ⟨hk, h'⟩, And.right⟩
    · rw [hget] at he
      rw [hdraft]
      split at he
      · obtain ⟨h', m, hm, hk, rfl⟩ := h.helper k e he
        exact ⟨h', m, hg.mem hm, hk, rfl⟩
      · obtain ⟨m, hm, rfl⟩ := Option.map_eq_some_iff.1 he
        exact ⟨r.handler, m, List.mem_of_find?_eq_some hm, by simpa using List.find?_some hm, rfl⟩

end Sound

/-- The books are right after the turns of any rules. -/
theorem sound_foldlM {d : Draft} : {rs : List Rule} → {s s' : Progress} → Sound d s →
    rs.foldlM step s = .ok s' → Sound d s'
  | [], _, _, h, hr => Except.ok.inj hr ▸ h
  | r :: rs, s, s', h, hr => by
    rw [List.foldlM_cons] at hr
    obtain ⟨s₁, hs, hr⟩ := ok_of_bind hr
    exact sound_foldlM (h.step hs) hr

end Progress

/-! ### The outcome -/

/-- What binding looks at once the draft has become the declaration `t`. -/
def scene (r : Registry) (p : Pool) (claimable : LatentMatcher) (t : TypeDecl) : Scene where
  pool := p
  type := t
  claimable := claimable.resolve t
  rules := r.rules.map fun rule => (rule.matcher.resolve t, rule)

/-- The entries once the families of a graph were offered to the rules. -/
def Scene.bindNodes (s : Scene) (es : Entries) (g : MethodGraph) : Entries :=
  g.values.foldl s.bindNode es

/-- A preparation of the draft `d` came out as `q`, where `s` is the progress of its first step. -/
structure Prepares (r : Registry) (d : Draft) (scope : GraphScope) (p : Pool)
    (claimable : LatentMatcher) (s : Progress) (q : PreparedRegistry) : Prop where
  sound : s.Sound d
  draft : q.draft = s.draft
  pool : q.pool = p
  graph : q.graph = scope.compile p q.draft.decl
  entries : q.entries =
    let scene := r.scene p claimable q.draft.decl
    let families := scene.bindNodes s.entries q.graph.graph
    (scene.nonVirtual families).foldl scene.bindMethod families
  methods : q.methods =
    let scene := r.scene p claimable q.draft.decl
    q.graph.graph.values.map (·.representative) ++
      scene.nonVirtual (scene.bindNodes s.entries q.graph.graph)

variable {r : Registry} {d : Draft} {scope : GraphScope} {validate : Bool} {p : Pool}
  {claimable : LatentMatcher} {q : PreparedRegistry}

/-- What a successful preparation consists of, with the turns of the handlers. -/
theorem progress_of_prepare (h : r.prepare d scope validate p claimable = .ok q) :
    ∃ s, r.rules.foldlM Progress.step (.start d) = .ok s ∧ r.Prepares d scope p claimable s q ∧
      (validate = true → q.draft.decl.check p = .ok ()) := by
  unfold prepare at h
  obtain ⟨s, hs, h⟩ := ok_of_bind h
  have sound := Progress.sound_foldlM (.start d) hs
  cases validate with
  | false =>
    obtain rfl := Except.ok.inj h
    exact ⟨s, hs, ⟨sound, rfl, rfl, rfl, rfl, rfl⟩, nofun⟩
  | true =>
    obtain ⟨_, hv, h⟩ := ok_of_bind h
    obtain rfl := Except.ok.inj h
    obtain ⟨t, ht, -⟩ := ok_of_bind hv
    exact ⟨s, hs, ⟨sound, rfl, rfl, rfl, rfl, rfl⟩, fun _ => Draft.check_of_validate ht⟩

/-- What a successful preparation consists of. -/
theorem prepares_of_prepare (h : r.prepare d scope validate p claimable = .ok q) :
    ∃ s, r.Prepares d scope p claimable s q ∧
      (validate = true → q.draft.decl.check p = .ok ()) := by
  obtain ⟨s, -, h⟩ := progress_of_prepare h
  exact ⟨s, h⟩

end Registry

end ClassForge
