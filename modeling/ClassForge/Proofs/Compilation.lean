import ClassForge.Proofs.Families
import ClassForge.Registry.Compile

/-!
# Compiling entries one by one

A prepared registry is compiled in one pass that carries a cache along. The cache saves work and
changes nothing: it only ever holds what compiling would give (`CompileCache.Sound`), so the pass
amounts to compiling each entry in its place. The plan for a method is therefore that of its own
entry.

What could go wrong is that two entries share a key of the cache and differ in something that
compiling looks at. Keys are whole handlers and whole trees of attributes, and compiling looks at
nothing else of an entry; its method, its types and its flags never pass through the cache.

## Main definitions

* `PreparedRegistry.compileEach` — the registry compiled without a cache

## Main results

* `OrderedMap.entries_ofList` — a map made of entries with different keys
* `PreparedRegistry.entries_compileEntries` — the compiled entries
* `PreparedRegistry.record_compile` — the plan for a bound method
* `PreparedRegistry.get?_handlers_pass`, `PreparedRegistry.get?_attributes_pass` — what the cache
  holds at the end, so that nothing is compiled twice
* `PreparedRegistry.compile_eq_uncached` — compiling with the cache is compiling without it
-/

namespace ClassForge

namespace OrderedMap

variable {κ α : Type}

/-- A map is its entries. -/
theorem eq_of_entries {m n : OrderedMap κ α} (h : m.entries = n.entries) : m = n := by
  cases m
  cases n
  congr

variable [DecidableEq κ]

theorem alterEntries_of_notMem {k : κ} {f : Option α → α} {es : List (κ × α)}
    (h : k ∉ es.map Prod.fst) : alterEntries k f es = es ++ [(k, f none)] := by
  induction es with
  | nil => rfl
  | cons e es ih =>
    rw [List.map_cons, List.mem_cons, not_or] at h
    rw [alterEntries, if_neg (Ne.symm h.1), ih h.2, List.cons_append]

/-- A new key comes last. -/
theorem entries_insert_of_notMem {m : OrderedMap κ α} {k : κ} (h : k ∉ m.keys) (v : α) :
    (m.insert k v).entries = m.entries ++ [(k, v)] :=
  alterEntries_of_notMem h

/-- Entries with new keys come last, in their order. -/
theorem entries_foldl_insert {es : List (κ × α)} {m : OrderedMap κ α}
    (h : (m.keys ++ es.map Prod.fst).Nodup) :
    (es.foldl (fun m e => m.insert e.1 e.2) m).entries = m.entries ++ es := by
  induction es generalizing m with
  | nil => simp
  | cons e es ih =>
    have hout : e.1 ∉ m.keys := fun hin =>
      (List.nodup_append.1 h).2.2 e.1 hin e.1 List.mem_cons_self rfl
    have hinsert := entries_insert_of_notMem hout e.2
    have hkeys : (m.insert e.1 e.2).keys = m.keys ++ [e.1] := by
      rw [keys, hinsert, List.map_append]
      rfl
    rw [List.foldl_cons, ih (by simpa [hkeys] using h), hinsert, List.append_assoc]
    rfl

/-- Entries with different keys stand in a map as they were inserted. -/
theorem entries_ofList {es : List (κ × α)} (h : (es.map Prod.fst).Nodup) :
    (ofList es).entries = es :=
  entries_foldl_insert h

end OrderedMap

/-! ### The cache -/

/-- What a walk has collected: if each of its steps puts the key of an element in, with a value that
only the key decides, and leaves all other keys alone, then it ends with the keys of all elements.
The steps may do so only where an invariant holds that they keep. -/
theorem lookup_foldl {σ ε κ ν : Type} [DecidableEq κ] {step : σ → ε → σ} {Good : σ → Prop}
    (lookup : σ → κ → Option ν) (key : ε → κ) (value : κ → ν)
    (hgood : ∀ s e, Good s → Good (step s e))
    (hstep : ∀ s e, Good s → ∀ k,
      lookup (step s e) k = if k = key e then some (value k) else lookup s k)
    (es : List ε) {s : σ} (hs : Good s) (k : κ) :
    lookup (es.foldl step s) k =
      if k ∈ es.map key then some (value k) else lookup s k := by
  induction es generalizing s with
  | nil => simp
  | cons e es ih =>
    rw [List.foldl_cons, ih (hgood s e hs), hstep s e hs, List.map_cons]
    by_cases hin : k ∈ es.map key
    · rw [if_pos hin, if_pos (List.mem_cons_of_mem _ hin)]
    · simp only [hin, if_false, List.mem_cons, or_false]

namespace CompileCache

/-- The cache holds what compiling for the target gives, if it holds anything. -/
structure Sound (t : Target) (c : CompileCache) : Prop where
  handlers : ∀ h compiled, c.handlers.get? h = some compiled → compiled = h.compile t
  attributes : ∀ a flat, c.attributes.get? a = some flat → flat = a.sources

variable {t : Target} {c : CompileCache}

theorem Sound.empty (t : Target) : Sound t {} where
  handlers h compiled he := by simp at he
  attributes a flat he := by simp at he

theorem Sound.handler (hc : c.Sound t) (h : Handler) :
    (c.handler t h).1 = h.compile t ∧ (c.handler t h).2.Sound t := by
  unfold CompileCache.handler
  split
  · rename_i compiled hget
    exact ⟨hc.handlers h compiled hget, hc⟩
  · refine ⟨rfl, ⟨fun g compiled hg => ?_, hc.attributes⟩⟩
    rw [OrderedMap.get?_insert] at hg
    split at hg
    · subst g
      exact (Option.some.inj hg).symm
    · exact hc.handlers g compiled hg

theorem Sound.sources (hc : c.Sound t) (a : Attributes) :
    (c.sources a).1 = a.sources ∧ (c.sources a).2.Sound t := by
  unfold CompileCache.sources
  split
  · rename_i flat hget
    exact ⟨hc.attributes a flat hget, hc⟩
  · refine ⟨rfl, ⟨hc.handlers, fun b flat hb => ?_⟩⟩
    rw [OrderedMap.get?_insert] at hb
    split at hb
    · subst b
      exact (Option.some.inj hb).symm
    · exact hc.attributes b flat hb

/-- Compiling an entry with the cache is compiling it. -/
theorem Sound.entry (hc : c.Sound t) (e : Entry) :
    (c.entry t e).1 = e.compile t ∧ (c.entry t e).2.Sound t := by
  obtain ⟨handler, hc⟩ := hc.handler e.handler
  obtain ⟨sources, hc⟩ := hc.sources e.attributes
  refine ⟨?_, hc⟩
  simp only [CompileCache.entry, handler, sources, Entry.compile]

/-- A handler that was asked for is in the cache, and no other comes in. -/
theorem get?_handlers_handler (c : CompileCache) (t : Target) (h g : Handler) :
    (c.handler t h).2.handlers.get? g =
      if g = h then some (c.handler t h).1 else c.handlers.get? g := by
  unfold CompileCache.handler
  split
  · rename_i compiled hget
    by_cases hg : g = h
    · rw [if_pos hg, hg, hget]
    · rw [if_neg hg]
  · rw [OrderedMap.get?_insert]

/-- A tree that was asked for is in the cache, and no other comes in. -/
theorem get?_attributes_sources (c : CompileCache) (a b : Attributes) :
    (c.sources a).2.attributes.get? b =
      if b = a then some (c.sources a).1 else c.attributes.get? b := by
  unfold CompileCache.sources
  split
  · rename_i flat hget
    by_cases hb : b = a
    · rw [if_pos hb, hb, hget]
    · rw [if_neg hb]
  · rw [OrderedMap.get?_insert]

/-- Trees are no business of the handlers in the cache. -/
theorem handlers_sources (c : CompileCache) (a : Attributes) :
    (c.sources a).2.handlers = c.handlers := by
  unfold CompileCache.sources
  split <;> rfl

/-- Handlers are no business of the trees in the cache. -/
theorem attributes_handler (c : CompileCache) (t : Target) (h : Handler) :
    (c.handler t h).2.attributes = c.attributes := by
  unfold CompileCache.handler
  split <;> rfl

theorem Sound.get?_handlers_entry (hc : c.Sound t) (e : Entry) (h : Handler) :
    (c.entry t e).2.handlers.get? h =
      if h = e.handler then some (h.compile t) else c.handlers.get? h := by
  have hafter : (c.entry t e).2.handlers = (c.handler t e.handler).2.handlers :=
    handlers_sources (c.handler t e.handler).2 e.attributes
  rw [hafter, get?_handlers_handler, (hc.handler e.handler).1]
  by_cases heq : h = e.handler
  · rw [if_pos heq, if_pos heq, heq]
  · rw [if_neg heq, if_neg heq]

theorem Sound.get?_attributes_entry (hc : c.Sound t) (e : Entry) (a : Attributes) :
    (c.entry t e).2.attributes.get? a =
      if a = e.attributes then some a.sources else c.attributes.get? a := by
  have hafter : (c.entry t e).2.attributes.get? a =
      ((c.handler t e.handler).2.sources e.attributes).2.attributes.get? a := rfl
  rw [hafter, get?_attributes_sources, ((hc.handler e.handler).2.sources e.attributes).1,
    attributes_handler]
  by_cases heq : a = e.attributes
  · rw [if_pos heq, if_pos heq, heq]
  · rw [if_neg heq, if_neg heq]

end CompileCache

/-! ### All entries -/

namespace PreparedRegistry

/-- The pass over entries with new keys, from any point on. -/
theorem entries_foldl_step {t : Target} {es : List (MethodIdentity × Entry)}
    {s : OrderedMap MethodIdentity CompiledEntry × CompileCache} (hs : s.2.Sound t)
    (hn : (s.1.keys ++ es.map Prod.fst).Nodup) :
    (es.foldl (compileEntries.step t) s).1.entries =
      s.1.entries ++ es.map fun e => (e.1, e.2.compile t) := by
  induction es generalizing s with
  | nil => simp
  | cons e es ih =>
    obtain ⟨compiled, hs'⟩ := hs.entry e.2
    have hout : e.1 ∉ s.1.keys := fun hin =>
      (List.nodup_append.1 hn).2.2 e.1 hin e.1 List.mem_cons_self rfl
    have hstep : (compileEntries.step t s e).1.entries =
        s.1.entries ++ [(e.1, e.2.compile t)] := by
      simp only [compileEntries.step, compiled]
      exact OrderedMap.entries_insert_of_notMem hout _
    have hkeys : (compileEntries.step t s e).1.keys = s.1.keys ++ [e.1] := by
      rw [OrderedMap.keys, hstep, List.map_append]
      rfl
    rw [List.foldl_cons, ih hs' (by simpa [hkeys] using hn), hstep, List.append_assoc]
    rfl

/-- **Each entry is compiled in its place.** -/
theorem entries_compileEntries (t : Target) (es : Entries) :
    (compileEntries t es).entries = es.entries.map fun e => (e.1, e.2.compile t) := by
  have hn : ((OrderedMap.empty : OrderedMap MethodIdentity CompiledEntry).keys ++
      es.entries.map Prod.fst).Nodup := es.nodup
  rw [compileEntries, entries_foldl_step (CompileCache.Sound.empty t) hn]
  rfl

theorem get?_compileEntries (t : Target) (es : Entries) (k : MethodIdentity) :
    (compileEntries t es).get? k = (es.get? k).map (·.compile t) := by
  refine Option.ext fun compiled => ?_
  rw [OrderedMap.get?_eq_some_iff, entries_compileEntries, Option.map_eq_some_iff]
  simp only [OrderedMap.get?_eq_some_iff, List.mem_map, Prod.mk.injEq]
  constructor
  · rintro ⟨⟨_, e⟩, he, rfl, rfl⟩
    exact ⟨e, he, rfl⟩
  · rintro ⟨e, he, rfl⟩
    exact ⟨(k, e), he, rfl, rfl⟩

theorem instrumented_compile (q : PreparedRegistry) (release : Release) (plan : RelocationPlan) :
    (q.compile release plan).instrumented = q.instrumented := by
  simp only [compile, CompiledRegistry.instrumented, instrumented, Entries.instrumented,
    OrderedMap.values, entries_compileEntries, List.map_map]
  rfl

/-- **The plan for a method** is that of its entry. -/
theorem record_compile (q : PreparedRegistry) (m : Method) (release : Release)
    (plan : RelocationPlan) :
    (q.compile release plan).record m =
      (q.entries.get? m.identity).elim (.skipped m) fun e =>
        (e.compile (q.compile release plan).target).record q.draft.decl
          release.supportsBridges := by
  simp only [CompiledRegistry.record, compile, get?_compileEntries]
  cases q.entries.get? m.identity <;> rfl

/-! ### What the cache holds in the end -/

/-- A pass in which the cache is sound. -/
abbrev SoundPass (t : Target) (s : OrderedMap MethodIdentity CompiledEntry × CompileCache) : Prop :=
  s.2.Sound t

theorem SoundPass.start (t : Target) : SoundPass t (.empty, {}) := CompileCache.Sound.empty t

theorem SoundPass.step {t : Target} (s : OrderedMap MethodIdentity CompiledEntry × CompileCache)
    (e : MethodIdentity × Entry) (hs : SoundPass t s) : SoundPass t (compileEntries.step t s e) :=
  (CompileCache.Sound.entry hs e.2).2

/-- The pass over all entries leaves their handlers in the cache, and no others. -/
theorem get?_handlers_pass (t : Target) (es : Entries) (h : Handler) :
    (es.entries.foldl (compileEntries.step t) (.empty, {})).2.handlers.get? h =
      if h ∈ es.values.map (·.handler) then some (h.compile t) else none := by
  have hpass := lookup_foldl (fun s h => s.2.handlers.get? h) (fun e => e.2.handler)
    (·.compile t) SoundPass.step (fun _ e hs => CompileCache.Sound.get?_handlers_entry hs e.2)
    es.entries (SoundPass.start t) h
  rw [hpass, OrderedMap.values, List.map_map]
  rfl

/-- The pass over all entries leaves their trees in the cache, and no others. -/
theorem get?_attributes_pass (t : Target) (es : Entries) (a : Attributes) :
    (es.entries.foldl (compileEntries.step t) (.empty, {})).2.attributes.get? a =
      if a ∈ es.values.map (·.attributes) then some a.sources else none := by
  have hpass := lookup_foldl (fun s a => s.2.attributes.get? a) (fun e => e.2.attributes)
    (·.sources) SoundPass.step (fun _ e hs => CompileCache.Sound.get?_attributes_entry hs e.2)
    es.entries (SoundPass.start t) a
  rw [hpass, OrderedMap.values, List.map_map]
  rfl

/-! ### Compiling without a cache -/

/-- The registry compiled for a release with nothing kept from one entry to the next. -/
def compileEach (q : PreparedRegistry) (release : Release) (plan : RelocationPlan := .none) :
    CompiledRegistry :=
  let target := Target.make q.draft.decl q.graph q.pool plan
  let each (e : Entry) : CompiledEntry :=
    { source := e.source
      handler := e.handler.compile target
      sources := e.attributes.sources
      method := e.method
      bridgeTypes := e.types.filter (· ≠ e.method.type)
      visibility := e.visibility
      isBridge := e.isBridge }
  { draft := q.draft
    entries := ⟨q.entries.entries.map fun e => (e.1, each e.2), by
      rw [List.map_map]
      exact q.entries.nodup⟩
    methods := q.methods
    supportsBridges := release.supportsBridges
    target }

/-- **Compiling with a cache is compiling without one.** The two compiled registries are the same:
the same entries under the same keys in the same order, each compiled from its own handler and its
own attributes and with its own method, types, visibility and flag. So they have the same plan for
every method, bound or not. The cache ends with each distinct handler and each distinct tree of
attributes of the entries, and nothing else, so that none of them is compiled twice. -/
theorem compile_eq_uncached (q : PreparedRegistry) (release : Release) (plan : RelocationPlan) :
    q.compile release plan = q.compileEach release plan ∧
    (q.compile release plan).entries.keys = q.entries.keys ∧
    (∀ m, (q.compile release plan).record m = (q.compileEach release plan).record m) ∧
    let target := (q.compile release plan).target
    let cache := (q.entries.entries.foldl (compileEntries.step target) (.empty, {})).2
    (∀ h, cache.handlers.get? h =
      if h ∈ q.entries.values.map (·.handler) then some (h.compile target) else none) ∧
    ∀ a, cache.attributes.get? a =
      if a ∈ q.entries.values.map (·.attributes) then some a.sources else none := by
  have hentries : (q.compile release plan).entries = (q.compileEach release plan).entries :=
    OrderedMap.eq_of_entries (entries_compileEntries _ _)
  have hsame : q.compile release plan = q.compileEach release plan := by
    rw [show q.compile release plan = { q.compileEach release plan with
      entries := (q.compile release plan).entries } from rfl, hentries]
  refine ⟨hsame, ?_, fun m => by rw [hsame], get?_handlers_pass _ _, get?_attributes_pass _ _⟩
  rw [OrderedMap.keys, OrderedMap.keys, hentries]
  exact List.map_map ..

end PreparedRegistry

end ClassForge
