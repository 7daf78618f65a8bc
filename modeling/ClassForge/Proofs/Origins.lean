import ClassForge.Proofs.Binding
import ClassForge.Proofs.Families

/-!
# Where entries come from

An entry is filed under the identity of its method, and there are three places it can come from:
a family of the graph, a method that the draft declares, and the type initializer. Only entries of
families stand for more than their own method; the others answer no further types and are no
visibility bridges.

`Entry.Placed` says this of one entry. Each phase of a preparation adds placed entries to placed
ones, so all entries of a prepared registry are placed. An entry may also replace an earlier one of
its identity; it then stands for the method that was found first, and it is placed because the two
have one identity.

## Main definitions

* `Entry.Placed` — what is known of an entry from its key

## Main results

* `Registry.Prepares.placed` — the entries of a prepared registry are placed
-/

namespace ClassForge

/-- The entry lies under the right identity, and comes from a family, from the methods of the type
`t`, or from its type initializer. -/
structure Entry.Placed (e : Entry) (t : TypeDecl) (k : MethodIdentity) : Prop where
  source : e.source.identity = k
  method : e.method.identity = k
  origin : e.source.isVirtual = true ∨ e.source.isTypeInitializer = true ∨ e.source ∈ t.methods
  /-- Only families have further types. -/
  types : e.source.isVirtual = false → e.types = []
  /-- Only families are exposed by bridges. -/
  isBridge : e.source.isVirtual = false → e.isBridge = false

/-- Every entry is placed. -/
def Entries.Placed (es : Entries) (t : TypeDecl) : Prop :=
  ∀ k e, es.get? k = some e → e.Placed t k

namespace Registry

variable {t : TypeDecl} {es : Entries}

/-! ### Single entries -/

theorem placed_ofHelper (h : Handler) {m : Method} (hm : m ∈ t.methods) :
    (Entry.ofHelper h m).Placed t m.identity where
  source := rfl
  method := rfl
  origin := .inr (.inr hm)
  types _ := rfl
  isBridge _ := rfl

theorem placed_ofMember (r : Rule) {m : Method}
    (hm : m.isTypeInitializer = true ∨ m ∈ t.methods) :
    (Entry.ofRule r m [] m.visibility).Placed t m.identity where
  source := rfl
  method := rfl
  origin := .inr hm
  types _ := rfl
  isBridge _ := rfl

/-- Whatever a family adds for its representative, which is virtual. -/
theorem placed_of_virtual {e : Entry} {m : Method} (hs : e.source = m)
    (hm : e.method.identity = m.identity) (hv : m.isVirtual = true) : e.Placed t m.identity where
  source := by rw [hs]
  method := hm
  origin := .inl (hs ▸ hv)
  types hn := absurd (hs ▸ hv) (by simp [hn])
  isBridge hn := absurd (hs ▸ hv) (by simp [hn])

/-- A member that takes the place of an earlier entry stands for what that one stood for. -/
theorem placed_replace (r : Rule) {m : Method} {old : Entry} (hold : old.Placed t m.identity) :
    ({ Entry.ofRule r m [] m.visibility with source := old.source }).Placed t m.identity where
  source := hold.source
  method := rfl
  origin := hold.origin
  types _ := rfl
  isBridge _ := rfl

/-! ### The phases -/

namespace Scene

variable {s : Scene}

theorem placed_bindNodes (hes : es.Placed t) {g : MethodGraph}
    (hv : ∀ node ∈ g.values, node.representative.isVirtual = true) :
    (s.bindNodes es g).Placed t := by
  intro k e he
  rcases bindNodes_cases he with he | ⟨node, hnode, rfl, hbinding⟩
  · exact hes k e he
  · rcases nodeBinding?_eq_some_iff.1 hbinding with ⟨r, -, rfl⟩ | ⟨-, -, rfl⟩
    · exact placed_of_virtual rfl rfl (hv node hnode)
    · exact placed_of_virtual rfl rfl (hv node hnode)

theorem placed_bindMethod (hes : es.Placed t) {m : Method}
    (hm : m.isTypeInitializer = true ∨ m ∈ t.methods) : (s.bindMethod es m).Placed t := by
  intro k e he
  rcases bindMethod_cases he with he | ⟨rfl, r, -, he, hsource | ⟨old, hold, hsource⟩⟩
  · exact hes k e he
  · rw [he, hsource]
    exact placed_ofMember r hm
  · rw [he, hsource]
    exact placed_replace r (hes _ old hold)

theorem placed_bindMembers {ms : List Method} (hes : es.Placed t)
    (hms : ∀ m ∈ ms, m.isTypeInitializer = true ∨ m ∈ t.methods) :
    (ms.foldl s.bindMethod es).Placed t := by
  induction ms generalizing es with
  | nil => exact hes
  | cons m ms ih =>
    rw [List.forall_mem_cons] at hms
    exact ih (placed_bindMethod hes hms.1) hms.2

end Scene

/-! ### A whole preparation -/

variable {r : Registry} {d : Draft} {scope : GraphScope} {p : Pool} {claimable : LatentMatcher}
  {s : Progress} {q : PreparedRegistry}

/-- **The entries of a prepared registry are placed.** -/
theorem Prepares.placed (h : r.Prepares d scope p claimable s q) :
    q.entries.Placed q.draft.decl := by
  have helpers : s.entries.Placed q.draft.decl := by
    intro k e he
    obtain ⟨handler, m, hm, rfl, rfl⟩ := h.sound.helper k e he
    exact placed_ofHelper handler (h.draft ▸ hm)
  rw [h.entries]
  refine Scene.placed_bindMembers (Scene.placed_bindNodes helpers fun node hnode => ?_)
    fun m hm => ?_
  · exact scope.isVirtual_of_mem_values p q.draft.decl (h.graph ▸ hnode)
  · rw [Scene.nonVirtual_eq] at hm
    rcases List.mem_append.1 hm with hm | hm
    · exact .inr (List.mem_filter.1 (List.mem_filter.1 hm).1).1
    · obtain rfl := List.mem_singleton.1 hm
      exact .inl rfl

end Registry

end ClassForge
