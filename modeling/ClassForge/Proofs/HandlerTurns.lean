import ClassForge.Proofs.Binding

/-!
# Whose turn adds a helper

Handlers take turns on a draft before any method is bound. Two things decide what a helper is bound
to. The turns are those of the distinct handlers, each where its first rule stands: a rule whose
handler had its turn leaves the progress as it is. And a method that is new after a turn is bound to
the handler of that turn at once, while everything that is bound later only fills in what has no
entry. So in an accepted draft the helpers are exactly the methods that were not declared before,
each is bound to the handler in whose turn it appeared, and no rule has a say in it.

The turns that are still to come depend on the handlers that had theirs, which is why the run is
described by `Progress.pending` and not by the handlers of all rules.

## Main definitions

* `Registry.handlers` — the distinct handlers of a registry
* `Handler.prepareAll` — a draft after the turns of some handlers
* `Handler.Adds` — a method appears in the turn of a handler

## Main results

* `Registry.Progress.turns_of_foldlM` — what the turns of any rules do
* `Registry.helpers_belong_to_their_handlers` — the turns of a preparation, and what its helpers are
  bound to
-/

namespace List

variable {α : Type*} [BEq α]

theorem eraseDups_sublist : (l : List α) → l.eraseDups.Sublist l
  | [] => by simp
  | a :: l => by
    rw [eraseDups_cons]
    exact (eraseDups_sublist _).trans filter_sublist |>.cons_cons a
termination_by l => l.length
decreasing_by simpa using Nat.lt_succ_of_le (length_filter_le _ l)

theorem nodup_eraseDups [LawfulBEq α] : (l : List α) → l.eraseDups.Nodup
  | [] => by simp
  | a :: l => by
    rw [eraseDups_cons, nodup_cons]
    exact ⟨by simp [mem_eraseDups], nodup_eraseDups _⟩
termination_by l => l.length
decreasing_by simpa using Nat.lt_succ_of_le (length_filter_le _ l)

end List

namespace ClassForge

namespace Handler

/-- The draft once each of the handlers had its turn. -/
def prepareAll (d : Draft) (hs : List Handler) : Build Draft :=
  hs.foldlM (fun d h => h.prepare d) d

/-- When the handlers take turns on the draft, a method of that identity appears in the turn of `h`,
and `m` is one that the draft then declares. -/
def Adds (d : Draft) (hs : List Handler) (h : Handler) (m : Method) : Prop :=
  ∃ before after d₁ d₂, hs = before ++ h :: after ∧ prepareAll d before = .ok d₁ ∧
    h.prepare d₁ = .ok d₂ ∧ d₁.Gains d₂ m.identity ∧ m ∈ d₂.decl.methods

variable {d d' : Draft} {h : Handler} {hs : List Handler} {m : Method}

theorem prepareAll_cons (hd : h.prepare d = .ok d') :
    prepareAll d (h :: hs) = prepareAll d' hs := by
  rw [prepareAll, List.foldlM_cons, hd]
  rfl

theorem adds_cons_self (hd : h.prepare d = .ok d') (hm : m ∈ d'.decl.methods)
    (hg : d.Gains d' m.identity) : Adds d (h :: hs) h m :=
  ⟨[], hs, d, d', rfl, rfl, hd, hg, hm⟩

theorem Adds.cons (hd : h.prepare d = .ok d') {h' : Handler}
    (ha : Adds d' hs h' m) : Adds d (h :: hs) h' m := by
  obtain ⟨before, after, d₁, d₂, rfl, hb, hp, hg, hm⟩ := ha
  exact ⟨h :: before, after, d₁, d₂, rfl, (prepareAll_cons hd).trans hb, hp, hg, hm⟩

/-- A method appears in the turn of the first handler or in a later one. -/
theorem Adds.cons_cases {first : Handler} (ha : Adds d (first :: hs) h m) :
    ∃ d', first.prepare d = .ok d' ∧
      ((h = first ∧ d.Gains d' m.identity ∧ m ∈ d'.decl.methods) ∨ Adds d' hs h m) := by
  obtain ⟨before, after, d₁, d₂, heq, hb, hp, hg, hm⟩ := ha
  cases before with
  | nil =>
    obtain ⟨rfl, -⟩ := List.cons.inj heq
    obtain rfl := Except.ok.inj hb
    exact ⟨d₂, hp, .inl ⟨rfl, hg, hm⟩⟩
  | cons g before =>
    obtain ⟨rfl, rfl⟩ := List.cons.inj heq
    rw [prepareAll, List.foldlM_cons] at hb
    obtain ⟨d', hd, hb⟩ := ok_of_bind hb
    exact ⟨d', hd, .inr ⟨before, after, d₁, d₂, rfl, hb, hp, hg, hm⟩⟩

theorem grows_prepareAll (h : prepareAll d hs = .ok d') : d.Grows d' := by
  induction hs generalizing d with
  | nil =>
    obtain rfl := Except.ok.inj h
    exact .refl d
  | cons first hs ih =>
    rw [prepareAll, List.foldlM_cons] at h
    obtain ⟨d₁, hd, h⟩ := ok_of_bind h
    exact (grows_of_prepare hd).trans (ih h)

/-- Every handler has its turn. -/
theorem exists_turn (hh : h ∈ hs) (hall : prepareAll d hs = .ok d') :
    ∃ before after d₁ d₂, hs = before ++ h :: after ∧ prepareAll d before = .ok d₁ ∧
      h.prepare d₁ = .ok d₂ ∧ d₂.Grows d' := by
  obtain ⟨before, after, rfl⟩ := List.append_of_mem hh
  rw [prepareAll, List.foldlM_append] at hall
  obtain ⟨d₁, hbefore, hall⟩ := ok_of_bind hall
  rw [List.foldlM_cons] at hall
  obtain ⟨d₂, hp, hall⟩ := ok_of_bind hall
  exact ⟨before, after, d₁, d₂, rfl, hbefore, hp, grows_prepareAll hall⟩

/-- What is gained when the first handler has its turn, is gained in no later one. -/
theorem not_adds_of_mem (hk : ∃ n ∈ d.decl.methods, n.identity = m.identity) :
    ¬ Adds d hs h m := by
  rintro ⟨before, after, d₁, d₂, rfl, hb, -, hg, -⟩
  obtain ⟨n, hn, heq⟩ := hk
  exact hg.2 (heq ▸ List.mem_map_of_mem ((grows_prepareAll hb).mem hn))

/-- **A method is added by one handler only.** -/
theorem Adds.unique {h' : Handler} (ha : Adds d hs h m) (ha' : Adds d hs h' m) : h = h' := by
  induction hs generalizing d with
  | nil =>
    obtain ⟨before, after, _, _, heq, -⟩ := ha
    simp at heq
  | cons first hs ih =>
    obtain ⟨d', hd, hfirst | hrest⟩ := ha.cons_cases
    · obtain ⟨_, hd', hfirst' | hrest'⟩ := ha'.cons_cases
      · exact hfirst.1.trans hfirst'.1.symm
      · obtain rfl := Except.ok.inj (hd.symm.trans hd')
        exact absurd hrest' (not_adds_of_mem ⟨m, hfirst.2.2, rfl⟩)
    · obtain ⟨_, hd', hfirst' | hrest'⟩ := ha'.cons_cases
      · obtain rfl := Except.ok.inj (hd.symm.trans hd')
        exact absurd hrest (not_adds_of_mem ⟨m, hfirst'.2.2, rfl⟩)
      · obtain rfl := Except.ok.inj (hd.symm.trans hd')
        exact ih hrest hrest'

end Handler

namespace Registry

/-- The handlers of a registry without repetitions, each where its first rule stands. -/
def handlers (r : Registry) : List Handler := (r.rules.map (·.handler)).eraseDups

namespace Progress

variable {d : Draft} {s s' : Progress} {r : Rule} {rs : List Rule}

/-- The handlers of the rules that have not had their turn, without repetitions. -/
def pending (s : Progress) (rs : List Rule) : List Handler :=
  ((rs.map (·.handler)).filter (· ∉ s.handled)).eraseDups

@[simp] theorem handled_capture (h : Handler) (s : Progress) (m : Method) :
    (s.capture h m).handled = s.handled := by
  unfold capture
  split <;> rfl

theorem handled_foldl_capture (h : Handler) (ms : List Method) (s : Progress) :
    (ms.foldl (capture h) s).handled = s.handled := by
  induction ms generalizing s with
  | nil => rfl
  | cons m ms ih => rw [List.foldl_cons, ih, handled_capture]

/-- **A rule's turn.** Its handler had one already, and nothing changes; or it prepares the draft,
and each method that is new in it gets an entry. -/
theorem step_cases (hs : Sound d s) (h : s.step r = .ok s') :
    (r.handler ∈ s.handled ∧ s' = s) ∨
      (r.handler ∉ s.handled ∧ r.handler.prepare s.draft = .ok s'.draft ∧
        s'.handled = r.handler :: s.handled ∧
        ∀ k e, s'.entries.get? k = some e → s.entries.get? k = some e ∨
          ∃ m ∈ s'.draft.decl.methods, m.identity = k ∧ e = .ofHelper r.handler m ∧
            s.draft.Gains s'.draft k) := by
  unfold step at h
  split at h
  · exact .inl ⟨‹_›, (Except.ok.inj h).symm⟩
  · rename_i hnew
    obtain ⟨d', hp, h⟩ := ok_of_bind h
    obtain rfl := Except.ok.inj h
    obtain ⟨hdraft, -, hget⟩ := foldl_capture r.handler d'.decl.methods
      { s with draft := d', handled := r.handler :: s.handled } hs.keeps
    refine .inr ⟨hnew, hdraft ▸ hp, handled_foldl_capture .., fun k e he => ?_⟩
    rw [hget] at he
    split at he
    · exact .inl he
    · rename_i hk
      obtain ⟨m, hm, rfl⟩ := Option.map_eq_some_iff.1 he
      have hmem : m ∈ d'.decl.methods := List.mem_of_find?_eq_some hm
      obtain rfl : m.identity = k := by simpa using List.find?_some hm
      exact .inr ⟨m, hdraft ▸ hmem, rfl, rfl,
        hdraft ▸ ⟨List.mem_map_of_mem hmem, fun hin => hk ((hs.known _).2 hin)⟩⟩

theorem pending_cons_of_mem (h : r.handler ∈ s.handled) : s.pending (r :: rs) = s.pending rs := by
  simp [pending, h]

theorem pending_cons_of_notMem (h : r.handler ∉ s.handled)
    (hs' : s'.handled = r.handler :: s.handled) :
    s.pending (r :: rs) = r.handler :: s'.pending rs := by
  have hfilter : (rs.map (·.handler)).filter (· ∉ s'.handled) =
      ((rs.map (·.handler)).filter (· ∉ s.handled)).filter (fun b => !b == r.handler) := by
    rw [List.filter_filter, hs']
    refine List.filter_congr fun x _ => ?_
    by_cases hx : x = r.handler <;> simp [hx]
  rw [pending, pending, hfilter, List.map_cons, List.filter_cons_of_pos (by simpa using h),
    List.eraseDups_cons]

/-- **The turns of any rules.** The handlers that had no turn prepare the draft one after the other,
and an entry that is new is that of a method which one of them added. -/
theorem turns_of_foldlM : {rs : List Rule} → {s s' : Progress} → Sound d s →
    rs.foldlM step s = .ok s' →
      Handler.prepareAll s.draft (s.pending rs) = .ok s'.draft ∧
      ∀ k e, s'.entries.get? k = some e → s.entries.get? k = some e ∨
        ∃ h m, m.identity = k ∧ e = .ofHelper h m ∧ Handler.Adds s.draft (s.pending rs) h m
  | [], s, s', _, h => by
    obtain rfl := Except.ok.inj h
    exact ⟨rfl, fun _ _ => .inl⟩
  | r :: rs, s, s', hs, h => by
    rw [List.foldlM_cons] at h
    obtain ⟨s₁, hr, h⟩ := ok_of_bind h
    obtain ⟨hdraft, hentries⟩ := turns_of_foldlM (hs.step hr) h
    rcases step_cases hs hr with ⟨hold, rfl⟩ | ⟨hnew, hp, hhandled, hstep⟩
    · rw [pending_cons_of_mem hold]
      exact ⟨hdraft, hentries⟩
    · rw [pending_cons_of_notMem hnew hhandled]
      refine ⟨(Handler.prepareAll_cons hp).trans hdraft, fun k e he => ?_⟩
      rcases hentries k e he with he | ⟨h', m, hk, rfl, ha⟩
      · rcases hstep k e he with he | ⟨m, hm, rfl, rfl, hg⟩
        · exact .inl he
        · exact .inr ⟨_, m, rfl, rfl, Handler.adds_cons_self hp hm hg⟩
      · exact .inr ⟨h', m, hk, rfl, ha.cons hp⟩

theorem pending_start (d : Draft) (rs : List Rule) :
    (start d).pending rs = (rs.map (·.handler)).eraseDups := by
  simp [pending, start]

end Progress

variable {r : Registry} {d : Draft} {scope : GraphScope} {p : Pool} {claimable : LatentMatcher}
  {q : PreparedRegistry}

/-- An entry that a helper has after the turns is the one that it ends up with. -/
theorem Prepares.get?_of_captured {s : Progress} (h : r.Prepares d scope p claimable s q)
    {k : MethodIdentity} (hk : k.name ≠ typeInitializerName) {e : Entry}
    (he : s.entries.get? k = some e) : q.entries.get? k = some e := by
  rw [h.entries]
  refine Scene.get?_bindMembers_of_some _ hk ?_
  rw [Scene.bindNodes, Scene.get?_bindNodes, he, Option.some_or]

/-- The draft of a prepared registry is what its handlers make of the original, and a method that
they add is bound to the one that did. -/
theorem turns_of_prepare (h : r.prepare d scope true p claimable = .ok q) :
    Handler.prepareAll d r.handlers = .ok q.draft ∧
    ∀ m ∈ q.draft.decl.methods, m ∉ d.decl.methods → m.isTypeInitializer = false →
      ∃ handler, Handler.Adds d r.handlers handler m ∧
        q.entries.get? m.identity = some (.ofHelper handler m) := by
  obtain ⟨s, hrun, hprep, hq⟩ := progress_of_prepare h
  replace hq := hq rfl
  obtain ⟨hdraft, hentries⟩ := Progress.turns_of_foldlM (.start d) hrun
  rw [Progress.pending_start] at hdraft hentries
  refine ⟨hprep.draft ▸ hdraft, fun m hm hnew hi => ?_⟩
  have hgains : d.Gains q.draft m.identity := by
    by_contra hg
    exact hnew ((hprep.draft ▸ hprep.sound.grows).mem_of_not_gains hq hm hg)
  obtain ⟨e, he⟩ := Option.isSome_iff_exists.1
    ((hprep.sound.captured m.identity).2 (hprep.draft ▸ hgains))
  rcases hentries _ e he with hstart | ⟨handler, n, hn, rfl, hadds⟩
  · simp [Progress.start] at hstart
  · -- the accepted draft declares one method of the identity only
    obtain ⟨_, n', hn', -, heq⟩ := hprep.sound.helper _ _ he
    obtain rfl : n = n' := congrArg Entry.source heq
    obtain rfl := TypeDecl.eq_of_identity_eq hq (hprep.draft ▸ hn') hm hn
    exact ⟨handler, hadds,
      hprep.get?_of_captured (by simpa [Method.isTypeInitializer] using hi) he⟩

theorem mem_handlers_iff {handler : Handler} :
    handler ∈ r.handlers ↔ ∃ rule ∈ r.rules, rule.handler = handler := by
  rw [handlers, List.mem_eraseDups, List.mem_map]

/-- **Helpers belong to the handlers that added them.** When a registry prepares a draft, each of
its distinct handlers prepares the draft once, in the order of the rules. A method that the accepted
draft declares and the original does not, leaving the type initializer aside, is bound to the
handler in whose turn it appeared, as it is declared and with nothing to bridge. The rules do not
matter for that, whatever they match. -/
theorem helpers_belong_to_their_handlers (h : r.prepare d scope true p claimable = .ok q) :
    (r.handlers.Nodup ∧ r.handlers.Sublist (r.rules.map (·.handler)) ∧
      (∀ rule ∈ r.rules, rule.handler ∈ r.handlers) ∧
      Handler.prepareAll d r.handlers = .ok q.draft) ∧
    ∀ m ∈ q.draft.decl.methods, m ∉ d.decl.methods → m.isTypeInitializer = false →
      ∃ handler, Handler.Adds d r.handlers handler m ∧
        q.entries.get? m.identity = some (.ofHelper handler m) ∧
        (Entry.ofHelper handler m).bridgeTypes = [] := by
  obtain ⟨hdraft, hhelpers⟩ := turns_of_prepare h
  refine ⟨⟨List.nodup_eraseDups _, List.eraseDups_sublist _,
    fun rule hrule => mem_handlers_iff.2 ⟨rule, hrule, rfl⟩, hdraft⟩, fun m hm hnew hi => ?_⟩
  obtain ⟨handler, hadds, hentry⟩ := hhelpers m hm hnew hi
  exact ⟨handler, hadds, hentry, rfl⟩

/-- Two rules share the handler that adds a helper, and a rule in front of them matches whatever
there is: the helper is added once and stays with its handler. -/
theorem helpers_belong_to_their_handlers_shared :
    let adder : Handler := .implement (.callHelper "seven" (.primitive .int) (.int 7))
    let helper : Method := (helperToken "seven" (.primitive .int)).attach "a.Sub"
    let d : Draft := .subclass "a.Sub" (.of [.accPublic]) (.named "java.lang.Object")
    let rules : Registry :=
      { rules := [{ matcher := .always, handler := .noCode },
        { matcher := .never, handler := adder },
        { matcher := .resolved (.named "run"), handler := adder }] }
    ∃ q, rules.prepare d .hierarchy true .empty .always = .ok q ∧ helper ∉ d.decl.methods ∧
      rules.handlers = [.noCode, adder] ∧ Handler.prepareAll d [.noCode, adder] = .ok q.draft ∧
      q.entries.get? helper.identity = some (.ofHelper adder helper) := by
  intro adder helper d rules
  have facts : (rules.prepare d .hierarchy true .empty .always).toOption.any (fun q =>
      decide (q.draft.decl.methods = [helper] ∧
        (q.entries.get? helper.identity).map (·.handler) = some adder)) = true := by
    decide +kernel
  have handlers : rules.handlers = [.noCode, adder] := by decide +kernel
  obtain ⟨q, h, hq⟩ := exists_ok_of_any facts
  obtain ⟨hmethods, hhandler⟩ := of_decide_eq_true hq
  obtain ⟨⟨-, -, -, hdraft⟩, hhelpers⟩ := helpers_belong_to_their_handlers h
  obtain ⟨_, -, hentry, -⟩ := hhelpers helper (by simp [hmethods]) (by decide) (by decide)
  obtain rfl := by simpa [hentry, Entry.ofHelper] using hhandler
  exact ⟨q, h, by decide, handlers, handlers ▸ hdraft, hentry⟩

end Registry

end ClassForge
